import Mathlib.Data.List.TakeWhile
import ForsKernel.Print.Conversion

/-!
# The grammar of conversions

A conversion is `%`, flags, the digits of a field width, a precision behind a
point, a length modifier and a conversion character, each as long as it can
be.  The parser accepts just these, and sets its fields to what they say.
-/

namespace ForsKernel.Print

open ForsKernel.Forslib (Buffer Terminated)
open ForsKernel.Fs (CString)

/-! ## Spelling -/

def LenModifier.text : LenModifier → CString
  | .none => []
  | .hh => [104, 104]
  | .h => [104]
  | .l => [108]
  | .ll => [108, 108]
  | .z => [122]

/-- What follows a length modifier which is as long as it can be. -/
def LenModifier.Stops : LenModifier → Buffer → Prop
  | .none, rest =>
      rest.head? ≠ some 104 ∧ rest.head? ≠ some 108 ∧ rest.head? ≠ some 122
  | .h, rest => rest.head? ≠ some 104
  | .l, rest => rest.head? ≠ some 108
  | _, _ => True

/-- What stands between `%` and the conversion character. -/
structure Modifiers where
  flags : CString
  width : CString
  precision : Option CString
  lenmod : LenModifier

namespace Modifiers

/-- The precision, with the point in front of it. -/
def precisionText (modifiers : Modifiers) : CString :=
  match modifiers.precision with
  | none => []
  | some digits => 46 :: digits

def text (modifiers : Modifiers) : CString :=
  modifiers.flags ++ (modifiers.width ++
    (modifiers.precisionText ++ modifiers.lenmod.text))

end Modifiers

/-- A conversion as it is written. -/
structure Conversion extends Modifiers where
  convspec : UInt8

/-- The value of a sequence of decimal digits. -/
def decimal (digits : CString) : Nat :=
  digits.foldl (fun value c => value * 10 + digitValue c) 0

namespace Conversion

def text (conversion : Conversion) : CString :=
  37 :: (conversion.toModifiers.text ++ [conversion.convspec])

/--
The stages hold the characters they may hold, and a zero in front of the field
width is a flag.
-/
structure Greedy (conversion : Conversion) : Prop where
  flags : ∀ c ∈ conversion.flags, charIsFlag c
  width : ∀ c ∈ conversion.width, charIsDigit c
  nonzero : conversion.width.head? ≠ some 48
  precision : ∀ digits, conversion.precision = some digits →
    ∀ c ∈ digits, charIsDigit c
  convspec : charIsSpecifier conversion.convspec

/-- The fields of the specifier, as the conversion says. -/
def spec (conversion : Conversion) : ConversionSpecifier where
  alternateForm := 35 ∈ conversion.flags ∨ conversion.convspec = 112
  zeroPadded := 48 ∈ conversion.flags
  leftAdjusted := 45 ∈ conversion.flags
  positivePad := 32 ∈ conversion.flags
  alwaysSign := 43 ∈ conversion.flags
  fieldWidth := decimal conversion.width
  precision :=
    if conversion.convspec = 112 then 16
    else decimal (conversion.precision.getD [])
  lenmod := conversion.lenmod
  convspec := conversion.convspec

/--
The specifier holds what the conversion says, the width and the precision
where they are values of an `int`.
-/
structure Describes
    (conversion : Conversion)
    (spec : ConversionSpecifier) :
    Prop where
  others : spec =
    { conversion.spec with
      fieldWidth := spec.fieldWidth
      precision := spec.precision }
  width : decimal conversion.width < 2 ^ 31 →
    spec.fieldWidth = conversion.spec.fieldWidth
  precision : conversion.convspec = 112 ∨
      decimal (conversion.precision.getD []) < 2 ^ 31 →
    spec.precision = conversion.spec.precision

end Conversion

/-! ## Characters -/

theorem charIsFlag_cases
    {c : UInt8}
    (isFlag : charIsFlag c) :
    c = 35 ∨ c = 48 ∨ c = 45 ∨ c = 32 ∨ c = 43 := by
  simpa [charIsFlag, or_assoc] using isFlag

theorem charIsSpecifier_cases
    {c : UInt8}
    (isSpecifier : charIsSpecifier c) :
    c = 100 ∨ c = 117 ∨ c = 120 ∨ c = 88 ∨ c = 99 ∨ c = 115 ∨ c = 112 ∨
      c = 37 := by
  simpa [charIsSpecifier, or_assoc] using isSpecifier

theorem charIsFlag_ne_zero
    {c : UInt8}
    (isFlag : charIsFlag c) :
    c ≠ 0 := by
  rcases charIsFlag_cases isFlag with rfl | rfl | rfl | rfl | rfl <;> decide

theorem charIsDigit_ne_zero
    {c : UInt8}
    (isDigit : charIsDigit c) :
    c ≠ 0 := by
  rintro rfl
  cases isDigit

/-- The first characters behind the precision. -/
def EndsPrecision (c : UInt8) : Prop :=
  c = 104 ∨ c = 108 ∨ c = 122 ∨ charIsSpecifier c

/-- They end all the stages before as well. -/
theorem EndsPrecision.ends
    {c : UInt8}
    (endsPrecision : EndsPrecision c) :
    charIsFlag c = false ∧ charIsDigit c = false ∧ c ≠ 46 := by
  rcases endsPrecision with rfl | rfl | rfl | isSpecifier
  · decide
  · decide
  · decide
  · rcases charIsSpecifier_cases isSpecifier with
      rfl | rfl | rfl | rfl | rfl | rfl | rfl | rfl <;> decide

/-- Among the digits only the zero is a flag. -/
theorem charIsFlag_digit
    {c : UInt8}
    (isDigit : charIsDigit c)
    (nonzero : c ≠ 48) :
    charIsFlag c = false := by
  by_contra isFlag
  rw [Bool.not_eq_false] at isFlag
  rcases charIsFlag_cases isFlag with rfl | rfl | rfl | rfl | rfl
  · cases isDigit
  · exact nonzero rfl
  · cases isDigit
  · cases isDigit
  · cases isDigit

/-! ## The stages of the parser -/

namespace Parser

theorem resume_cons
    {state : ConvState}
    {spec : ConversionSpecifier}
    {begun : Bool}
    {c : UInt8}
    {rest : Buffer}
    (nonzero : c ≠ 0) :
    resume ⟨state, spec, begun, c :: rest⟩ =
      loop ⟨state, spec, begun, c :: rest⟩ := by
  rw [resume]
  exact if_neg nonzero

/-- A round without a character changes the state only. -/
theorem resume_skip
    {state state' : ConvState}
    {spec : ConversionSpecifier}
    {begun : Bool}
    {s : Buffer}
    (skips : ∀ c rest, s = c :: rest →
      round ⟨state, spec, begun, s⟩ =
        .ok (skipTo ⟨state, spec, begun, s⟩ state')) :
    resume ⟨state, spec, begun, s⟩ = resume ⟨state', spec, begun, s⟩ := by
  cases s with
  | nil => rfl
  | cons c rest =>
      by_cases zero : c = 0
      · simp [resume, zero]
      · rw [resume_cons zero, loop_of_next (skips c rest rfl)]

/-- A round which consumes what comes next. -/
theorem resume_advance
    {state state' : ConvState}
    {spec spec' : ConversionSpecifier}
    {begun begun' : Bool}
    {c : UInt8}
    {s rest : Buffer}
    (nonzero : c ≠ 0)
    (advances : round ⟨state, spec, begun, c :: s⟩ =
      .ok (.next ⟨state', spec', begun', rest⟩)) :
    resume ⟨state, spec, begun, c :: s⟩ =
      resume ⟨state', spec', begun', rest⟩ := by
  rw [resume_cons nonzero, loop_of_next advances]

/--
A stage which takes characters of one kind takes all of them, and the next
stage goes on behind them.
-/
theorem resume_stage
    {state state' : ConvState}
    {begun : Bool}
    {kind : UInt8 → Bool}
    {take : ConversionSpecifier → UInt8 → ConversionSpecifier}
    (stage : ∀ spec c rest, round ⟨state, spec, begun, c :: rest⟩ =
      if !kind c then
        .ok (skipTo ⟨state, spec, begun, c :: rest⟩ state')
      else
        .ok (advance ⟨state, spec, begun, c :: rest⟩ 1 state (take spec c)))
    (nonzero : ∀ c, kind c → c ≠ 0)
    {taken rest : Buffer}
    (all : ∀ c ∈ taken, kind c)
    (stops : ∀ c, rest.head? = some c → kind c = false)
    (spec : ConversionSpecifier) :
    resume ⟨state, spec, begun, taken ++ rest⟩ =
      resume ⟨state', taken.foldl take spec, begun, rest⟩ := by
  induction taken generalizing spec with
  | nil =>
      apply resume_skip
      rintro c rest' isRest
      rw [List.nil_append] at isRest
      subst isRest
      have stop := stops c rfl
      simp [stage, stop]
  | cons c taken induction =>
      have isKind := all c List.mem_cons_self
      have advanced : round ⟨state, spec, begun, c :: (taken ++ rest)⟩ =
          .ok (.next ⟨state, take spec c, begun, taken ++ rest⟩) := by
        rw [stage, isKind]
        rfl
      rw [List.cons_append, resume_advance (nonzero c isKind) advanced,
        List.foldl_cons]
      exact induction (fun d inside => all d (List.mem_cons_of_mem c inside))
        (take spec c)

variable
  {spec : ConversionSpecifier}
  {begun : Bool}
  {taken rest : Buffer}

theorem resume_flags
    (all : ∀ c ∈ taken, charIsFlag c)
    (stops : ∀ c, rest.head? = some c → charIsFlag c = false) :
    resume ⟨.flags, spec, begun, taken ++ rest⟩ =
      resume ⟨.fieldWidth, taken.foldl .setFlag spec, begun, rest⟩ :=
  resume_stage (fun _ _ _ => rfl) (fun _ => charIsFlag_ne_zero) all stops spec

theorem resume_fieldWidth
    (all : ∀ c ∈ taken, charIsDigit c)
    (stops : ∀ c, rest.head? = some c → charIsDigit c = false) :
    resume ⟨.fieldWidth, spec, begun, taken ++ rest⟩ =
      resume ⟨.precision, taken.foldl .addWidth spec, begun, rest⟩ :=
  resume_stage (fun _ _ _ => rfl) (fun _ => charIsDigit_ne_zero) all stops
    spec

theorem resume_precision
    (all : ∀ c ∈ taken, charIsDigit c)
    (stops : ∀ c, rest.head? = some c → charIsDigit c = false) :
    resume ⟨.precision, spec, false, 46 :: (taken ++ rest)⟩ =
      resume ⟨.lengthModifier, taken.foldl .addPrecision
        { spec with precision := 0 }, true, rest⟩ := by
  have point : round ⟨.precision, spec, false, 46 :: (taken ++ rest)⟩ =
      .ok (.next ⟨.precision, { spec with precision := 0 }, true,
        taken ++ rest⟩) := rfl
  rw [resume_advance (by decide) point]
  exact resume_stage (fun _ _ _ => rfl) (fun _ => charIsDigit_ne_zero) all
    stops _

theorem resume_no_precision (stops : rest.head? ≠ some 46) :
    resume ⟨.precision, spec, false, rest⟩ =
      resume ⟨.lengthModifier, spec, false, rest⟩ := by
  apply resume_skip
  rintro c rest' rfl
  have other : c ≠ 46 := by simpa using stops
  simp [round, other]

theorem resume_lengthModifier
    {lenmod : LenModifier}
    (unset : spec.lenmod = .none)
    (stops : lenmod.Stops rest)
    (nonempty : rest ≠ []) :
    resume ⟨.lengthModifier, spec, begun, lenmod.text ++ rest⟩ =
      resume ⟨.convspec, { spec with lenmod := lenmod }, begun, rest⟩ := by
  rcases List.exists_cons_of_ne_nil nonempty with ⟨c, after, rfl⟩
  cases lenmod with
  | none =>
      rcases stops with ⟨notH, notL, notZ⟩
      rw [List.head?_cons, ne_eq, Option.some.injEq] at notH notL notZ
      have same : { spec with lenmod := .none } = spec := by
        rw [← unset]
      rw [same, LenModifier.text, List.nil_append]
      apply resume_skip
      rintro d rest' isRest
      cases isRest
      simp [round, notH, notL, notZ]
  | hh => exact resume_advance (by decide) rfl
  | h =>
      have single : ¬ (c ≠ 0 ∧ c = 104) := by
        rintro ⟨_, rfl⟩
        exact stops rfl
      apply resume_advance (by decide)
      simp [round, lengthModifier, advance, single]
  | l =>
      have single : ¬ (c ≠ 0 ∧ c = 108) := by
        rintro ⟨_, rfl⟩
        exact stops rfl
      apply resume_advance (by decide)
      simp [round, lengthModifier, advance, single]
  | ll => exact resume_advance (by decide) rfl
  | z => exact resume_advance (by decide) rfl

theorem resume_convspec
    {c : UInt8}
    (isSpecifier : charIsSpecifier c) :
    resume ⟨.convspec, spec, begun, c :: rest⟩ =
      .ok (some rest, { spec with convspec := c }.defaultsFromConvspec) := by
  have nonzero : c ≠ 0 := by
    rintro rfl
    cases isSpecifier
  rw [resume_cons nonzero]
  apply loop_of_returned
  simp [round, isSpecifier]

theorem resume_no_convspec
    {c : UInt8}
    (other : charIsSpecifier c = false) :
    resume ⟨.convspec, spec, begun, c :: rest⟩ = .ok (none, spec) := by
  by_cases zero : c = 0
  · simp [resume, zero]
  · rw [resume_cons zero]
    apply loop_of_returned
    simp [round, other]

end Parser

/-! ## What the stages set -/

namespace ConversionSpecifier

theorem foldl_setFlag
    (flags : CString)
    (all : ∀ c ∈ flags, charIsFlag c)
    (spec : ConversionSpecifier) :
    flags.foldl setFlag spec =
      { spec with
        alternateForm := spec.alternateForm || decide (35 ∈ flags)
        zeroPadded := spec.zeroPadded || decide (48 ∈ flags)
        leftAdjusted := spec.leftAdjusted || decide (45 ∈ flags)
        positivePad := spec.positivePad || decide (32 ∈ flags)
        alwaysSign := spec.alwaysSign || decide (43 ∈ flags) } := by
  induction flags generalizing spec with
  | nil => simp
  | cons c flags induction =>
      rw [List.foldl_cons, induction fun d inside =>
        all d (List.mem_cons_of_mem c inside)]
      rcases charIsFlag_cases (all c List.mem_cons_self) with
        rfl | rfl | rfl | rfl | rfl <;> simp [setFlag]

/-- Reading one more digit. -/
def addDigit
    (value : Int)
    (c : UInt8) :
    Int :=
  wrapInt (wrapInt (value * 10) + digitValue c)

theorem foldl_addWidth
    (digits : CString)
    (spec : ConversionSpecifier) :
    digits.foldl addWidth spec =
      { spec with fieldWidth := digits.foldl addDigit spec.fieldWidth } := by
  induction digits generalizing spec with
  | nil => rfl
  | cons c digits induction =>
      rw [List.foldl_cons, induction]
      rfl

theorem foldl_addPrecision
    (digits : CString)
    (spec : ConversionSpecifier) :
    digits.foldl addPrecision spec =
      { spec with precision := digits.foldl addDigit spec.precision } := by
  induction digits generalizing spec with
  | nil => rfl
  | cons c digits induction =>
      rw [List.foldl_cons, induction]
      rfl

theorem wrapInt_of_lt
    {value : Nat}
    (small : value < 2 ^ 31) :
    wrapInt value = value := by
  rw [wrapInt, Int.bmod_def]
  split <;> omega

theorem le_decimalFrom
    (digits : CString)
    (value : Nat) :
    value ≤ digits.foldl (fun value c => value * 10 + digitValue c) value := by
  induction digits generalizing value with
  | nil => exact Nat.le_refl _
  | cons c digits induction =>
      have later := induction (value * 10 + digitValue c)
      rw [List.foldl_cons]
      omega

/-- As long as the value fits, the digits are read as they are written. -/
theorem foldl_addDigit
    (digits : CString)
    (value : Nat)
    (small : digits.foldl (fun value c => value * 10 + digitValue c) value <
      2 ^ 31) :
    digits.foldl addDigit (value : Int) =
      (digits.foldl (fun value c => value * 10 + digitValue c) value :
        Nat) := by
  induction digits generalizing value with
  | nil => rfl
  | cons c digits induction =>
      rw [List.foldl_cons] at small ⊢
      have grows := le_decimalFrom digits (value * 10 + digitValue c)
      have first : wrapInt ((value : Int) * 10) = (value * 10 : Nat) := by
        rw [← wrapInt_of_lt (show value * 10 < 2 ^ 31 by omega)]
        rfl
      have step : addDigit value c = (value * 10 + digitValue c : Nat) := by
        rw [addDigit, first, ← Int.natCast_add, wrapInt_of_lt (by omega)]
      rw [step, induction _ small]
      rfl

end ConversionSpecifier

/-! ## Parsing the modifiers -/

namespace Modifiers

/-- The characters are those of their stages, and each stage ends there. -/
structure Before
    (modifiers : Modifiers)
    (rest : Buffer) :
    Prop where
  flags : ∀ c ∈ modifiers.flags, charIsFlag c
  flagsStop : ∀ c, (modifiers.width ++ (modifiers.precisionText ++
    (modifiers.lenmod.text ++ rest))).head? = some c → charIsFlag c = false
  width : ∀ c ∈ modifiers.width, charIsDigit c
  widthStop : ∀ c, (modifiers.precisionText ++
    (modifiers.lenmod.text ++ rest)).head? = some c → charIsDigit c = false
  noPoint : modifiers.precision = none →
    (modifiers.lenmod.text ++ rest).head? ≠ some 46
  precision : ∀ digits, modifiers.precision = some digits →
    ∀ c ∈ digits, charIsDigit c
  precisionStop : modifiers.precision.isSome →
    ∀ c, (modifiers.lenmod.text ++ rest).head? = some c →
      charIsDigit c = false
  lenmodStop : modifiers.lenmod.Stops rest

/-- What the flags and the field width leave in the specifier. -/
def readWidth (modifiers : Modifiers) : ConversionSpecifier :=
  modifiers.width.foldl ConversionSpecifier.addWidth
    (modifiers.flags.foldl ConversionSpecifier.setFlag .initial)

/-- What all the stages leave in it. -/
def read (modifiers : Modifiers) : ConversionSpecifier :=
  match modifiers.precision with
  | none => { modifiers.readWidth with lenmod := modifiers.lenmod }
  | some digits =>
      { digits.foldl ConversionSpecifier.addPrecision
          { modifiers.readWidth with precision := 0 } with
        lenmod := modifiers.lenmod }

theorem Before.readWidth_lenmod
    {modifiers : Modifiers}
    {rest : Buffer}
    (before : modifiers.Before rest) :
    modifiers.readWidth.lenmod = .none := by
  rw [Modifiers.readWidth, ConversionSpecifier.foldl_addWidth,
    ConversionSpecifier.foldl_setFlag _ before.flags]
  rfl

theorem Before.read_convspec
    {modifiers : Modifiers}
    {rest : Buffer}
    (before : modifiers.Before rest) :
    modifiers.read.convspec = 0 := by
  have width : modifiers.readWidth.convspec = 0 := by
    rw [Modifiers.readWidth, ConversionSpecifier.foldl_addWidth,
      ConversionSpecifier.foldl_setFlag _ before.flags]
    rfl
  rw [read]
  split
  · exact width
  · rw [ConversionSpecifier.foldl_addPrecision]
    exact width

end Modifiers

/-- The parser gets to the conversion character. -/
theorem parseConversion_modifiers
    {modifiers : Modifiers}
    {rest : Buffer}
    (before : modifiers.Before rest)
    (nonempty : rest ≠ []) :
    parseConversion (37 :: (modifiers.text ++ rest)) =
      Parser.resume ⟨.convspec, modifiers.read, modifiers.precision.isSome,
        rest⟩ := by
  have start : parseConversion (37 :: (modifiers.text ++ rest)) =
      Parser.resume ⟨.flags, .initial, false, modifiers.text ++ rest⟩ :=
    Parser.loop_of_next rfl
  rw [start, Modifiers.text, List.append_assoc, List.append_assoc,
    List.append_assoc, Parser.resume_flags before.flags before.flagsStop,
    Parser.resume_fieldWidth before.width before.widthStop,
    ← Modifiers.readWidth]
  cases isPrecision : modifiers.precision with
  | none =>
      have noPoint := before.noPoint isPrecision
      simp only [Modifiers.precisionText, isPrecision, List.nil_append]
      rw [Parser.resume_no_precision noPoint, Parser.resume_lengthModifier
        before.readWidth_lenmod before.lenmodStop nonempty]
      simp only [Modifiers.read, isPrecision]
      rfl
  | some digits =>
      have stops := before.precisionStop (by rw [isPrecision]; rfl)
      simp only [Modifiers.precisionText, isPrecision, List.cons_append]
      rw [Parser.resume_precision (before.precision digits isPrecision) stops,
        Parser.resume_lengthModifier _ before.lenmodStop nonempty]
      · simp only [Modifiers.read, isPrecision]
        rfl
      · rw [ConversionSpecifier.foldl_addPrecision]
        exact before.readWidth_lenmod

/-! ## What is accepted -/

namespace LenModifier

/-- A string starts with a length modifier which is as long as it can be. -/
theorem exists_prefix (s : Buffer) :
    ∃ lenmod rest, s = LenModifier.text lenmod ++ rest ∧
      LenModifier.Stops lenmod rest := by
  rcases s with _ | ⟨c, s⟩
  · exact ⟨.none, [], rfl, by simp [Stops]⟩
  · by_cases isH : c = 104
    · subst isH
      by_cases double : s.head? = some 104
      · rcases s with _ | ⟨d, s⟩
        · cases double
        · cases double
          exact ⟨.hh, s, rfl, trivial⟩
      · exact ⟨.h, s, rfl, double⟩
    · by_cases isL : c = 108
      · subst isL
        by_cases double : s.head? = some 108
        · rcases s with _ | ⟨d, s⟩
          · cases double
          · cases double
            exact ⟨.ll, s, rfl, trivial⟩
        · exact ⟨.l, s, rfl, double⟩
      · by_cases isZ : c = 122
        · subst isZ
          exact ⟨.z, s, rfl, trivial⟩
        · exact ⟨.none, c :: s, rfl, by simp [Stops, isH, isL, isZ]⟩

end LenModifier

/-- The characters of one kind at the start of a string. -/
theorem exists_stage
    (kind : UInt8 → Bool)
    (s : Buffer) :
    ∃ taken rest, s = taken ++ rest ∧ (∀ c ∈ taken, kind c) ∧
      ∀ c, rest.head? = some c → kind c = false := by
  refine ⟨s.takeWhile kind, s.dropWhile kind,
    List.takeWhile_append_dropWhile.symm, ?_, ?_⟩
  · intro c inside
    exact List.mem_takeWhile_imp inside
  · intro c isHead
    have stop := List.head?_dropWhile_not kind s
    rw [isHead] at stop
    simpa using stop

/-- Every string starts with modifiers, if only with none. -/
theorem exists_modifiers (s : Buffer) :
    ∃ modifiers rest, s = Modifiers.text modifiers ++ rest ∧
      modifiers.Before rest := by
  rcases exists_stage charIsFlag s with
    ⟨flags, afterFlags, rfl, areFlags, flagsStop⟩
  rcases exists_stage charIsDigit afterFlags with
    ⟨width, afterWidth, rfl, areDigits, widthStop⟩
  by_cases point : afterWidth.head? = some 46
  · rcases afterWidth with _ | ⟨c, afterPoint⟩
    · cases point
    · cases point
      rcases exists_stage charIsDigit afterPoint with
        ⟨digits, afterDigits, rfl, precision, precisionStop⟩
      rcases LenModifier.exists_prefix afterDigits with
        ⟨lenmod, rest, rfl, lenmodStop⟩
      refine ⟨⟨flags, width, some digits, lenmod⟩, rest, ?_, areFlags, ?_,
        areDigits, ?_, nofun, ?_, fun _ => precisionStop, lenmodStop⟩
      · simp [Modifiers.text, Modifiers.precisionText]
      · simpa [Modifiers.precisionText] using flagsStop
      · simpa [Modifiers.precisionText] using widthStop
      · rintro other same
        cases same
        exact precision
  · rcases LenModifier.exists_prefix afterWidth with
      ⟨lenmod, rest, rfl, lenmodStop⟩
    refine ⟨⟨flags, width, none, lenmod⟩, rest, ?_, areFlags, ?_,
      areDigits, ?_, fun _ => point, nofun, nofun, lenmodStop⟩
    · simp [Modifiers.text, Modifiers.precisionText]
    · simpa [Modifiers.precisionText] using flagsStop
    · simpa [Modifiers.precisionText] using widthStop

theorem endsPrecision_head
    (lenmod : LenModifier)
    {c : UInt8}
    (isSpecifier : charIsSpecifier c)
    (more : Buffer) :
    ∀ d, (lenmod.text ++ c :: more).head? = some d → EndsPrecision d := by
  intro d isHead
  cases lenmod with
  | none =>
      cases isHead
      exact .inr (.inr (.inr isSpecifier))
  | hh => cases isHead; exact .inl rfl
  | h => cases isHead; exact .inl rfl
  | l => cases isHead; exact .inr (.inl rfl)
  | ll => cases isHead; exact .inr (.inl rfl)
  | z => cases isHead; exact .inr (.inr (.inl rfl))

theorem LenModifier.stops_specifier
    (lenmod : LenModifier)
    {c : UInt8}
    (isSpecifier : charIsSpecifier c)
    (more : Buffer) :
    lenmod.Stops (c :: more) := by
  have other : c ≠ 104 ∧ c ≠ 108 ∧ c ≠ 122 := by
    rcases charIsSpecifier_cases isSpecifier with
      rfl | rfl | rfl | rfl | rfl | rfl | rfl | rfl <;> decide
  cases lenmod <;> simp [Stops, other]

namespace Conversion

variable {conversion : Conversion}

/-- What the parser leaves in the specifier. -/
def result (conversion : Conversion) : ConversionSpecifier :=
  { conversion.toModifiers.read with
    convspec := conversion.convspec }.defaultsFromConvspec

/-- In front of the conversion character all the stages end. -/
theorem Greedy.before
    (greedy : conversion.Greedy)
    (more : Buffer) :
    conversion.toModifiers.Before (conversion.convspec :: more) := by
  have ends := fun d isHead =>
    (endsPrecision_head conversion.lenmod greedy.convspec more d isHead).ends
  have afterWidth : ∀ d, (conversion.precisionText ++
      (conversion.lenmod.text ++ conversion.convspec :: more)).head? =
        some d → charIsFlag d = false ∧ charIsDigit d = false := by
    intro d isHead
    cases isPrecision : conversion.precision with
    | none =>
        simp only [Modifiers.precisionText, isPrecision,
          List.nil_append] at isHead
        exact ⟨(ends d isHead).1, (ends d isHead).2.1⟩
    | some digits =>
        simp only [Modifiers.precisionText, isPrecision, List.cons_append,
          List.head?_cons, Option.some.injEq] at isHead
        subst isHead
        decide
  refine ⟨greedy.flags, ?_, greedy.width,
    fun d isHead => (afterWidth d isHead).2, ?_, greedy.precision,
    fun _ d isHead => (ends d isHead).2.1,
    LenModifier.stops_specifier _ greedy.convspec more⟩
  · intro d isHead
    cases isWidth : conversion.width with
    | nil =>
        rw [isWidth, List.nil_append] at isHead
        exact (afterWidth d isHead).1
    | cons c digits =>
        rw [isWidth, List.cons_append, List.head?_cons,
          Option.some.injEq] at isHead
        subst isHead
        have nonzero := greedy.nonzero
        rw [isWidth, List.head?_cons, ne_eq, Option.some.injEq] at nonzero
        have isDigit : charIsDigit c := by
          apply greedy.width
          rw [isWidth]
          exact List.mem_cons_self
        exact charIsFlag_digit isDigit nonzero
  · intro _ isHead
    exact (ends 46 isHead).2.2 rfl

/-- The parser accepts a conversion, and stops behind it. -/
theorem Greedy.parse
    (greedy : conversion.Greedy)
    (more : Buffer) :
    parseConversion (conversion.text ++ more) =
      .ok (some more, conversion.result) := by
  have spelled : conversion.text ++ more = 37 ::
      (conversion.toModifiers.text ++ conversion.convspec :: more) := by
    simp [text]
  rw [spelled, parseConversion_modifiers (greedy.before more)
    (List.cons_ne_nil _ _), Parser.resume_convspec greedy.convspec]
  rfl

/-- The stages, each field for itself. -/
theorem Greedy.read (greedy : conversion.Greedy) :
    conversion.toModifiers.read =
      { alternateForm := decide (35 ∈ conversion.flags)
        zeroPadded := decide (48 ∈ conversion.flags)
        leftAdjusted := decide (45 ∈ conversion.flags)
        positivePad := decide (32 ∈ conversion.flags)
        alwaysSign := decide (43 ∈ conversion.flags)
        fieldWidth := conversion.width.foldl ConversionSpecifier.addDigit 0
        precision := (conversion.precision.getD []).foldl
          ConversionSpecifier.addDigit 0
        lenmod := conversion.lenmod
        convspec := 0 } := by
  have flags := ConversionSpecifier.foldl_setFlag _ greedy.flags .initial
  rw [Modifiers.read, Modifiers.readWidth, flags,
    ConversionSpecifier.foldl_addWidth]
  cases conversion.precision with
  | none => simp [ConversionSpecifier.initial]
  | some digits =>
      simp [ConversionSpecifier.initial,
        ConversionSpecifier.foldl_addPrecision]

/-- What fits into an `int` is read as it is written. -/
theorem Greedy.describes (greedy : conversion.Greedy) :
    conversion.Describes conversion.result := by
  have read := greedy.read
  constructor
  · rw [result, read, ConversionSpecifier.defaultsFromConvspec]
    by_cases isP : conversion.convspec = 112 <;> simp [spec, isP]
  · intro fits
    have width := ConversionSpecifier.foldl_addDigit conversion.width 0 fits
    rw [Int.natCast_zero] at width
    rw [result, read, width, ConversionSpecifier.defaultsFromConvspec]
    by_cases isP : conversion.convspec = 112 <;> simp [spec, isP, decimal]
  · intro fits
    rw [result, read, ConversionSpecifier.defaultsFromConvspec]
    by_cases isP : conversion.convspec = 112
    · simp [spec, isP]
    · have precision := ConversionSpecifier.foldl_addDigit
        (conversion.precision.getD []) 0 (fits.resolve_left isP)
      rw [Int.natCast_zero] at precision
      rw [precision]
      simp [spec, isP, decimal]

end Conversion

namespace Modifiers

variable
  {modifiers : Modifiers}
  {rest : Buffer}

theorem Before.noNul (before : modifiers.Before rest) :
    0 ∉ modifiers.text := by
  have precision : 0 ∉ modifiers.precisionText := by
    rw [precisionText]
    split
    · exact List.not_mem_nil
    · rename_i digits isPrecision
      intro inside
      rcases List.mem_cons.mp inside with isPoint | isDigit
      · cases isPoint
      · exact charIsDigit_ne_zero
          (before.precision digits isPrecision 0 isDigit) rfl
  have lenmod : 0 ∉ modifiers.lenmod.text := by
    cases modifiers.lenmod <;> decide
  simp only [text, List.mem_append, not_or]
  refine ⟨?_, ?_, precision, lenmod⟩
  · intro inside
    exact charIsFlag_ne_zero (before.flags 0 inside) rfl
  · intro inside
    exact charIsDigit_ne_zero (before.width 0 inside) rfl

theorem Before.greedy
    {c : UInt8}
    {more : Buffer}
    (before : modifiers.Before (c :: more))
    (isSpecifier : charIsSpecifier c) :
    Conversion.Greedy ⟨modifiers, c⟩ := by
  refine ⟨before.flags, before.width, ?_, before.precision, isSpecifier⟩
  intro isZero
  have stop := before.flagsStop 48 (by
    rw [List.head?_append, isZero]
    rfl)
  cases stop

end Modifiers

/-! ## The grammar -/

/-- On a string the parser accepts a conversion or returns `NULL`. -/
theorem parseConversion_cases
    {s : Buffer}
    {a : CString}
    (isA : Terminated s a) :
    (∃ spec, parseConversion s = .ok (none, spec) ∧ spec.convspec = 0) ∨
      ∃ conversion tail rest, Conversion.Greedy conversion ∧
        a = conversion.text ++ tail ∧ Terminated rest tail ∧
        parseConversion s = .ok (some rest, conversion.result) := by
  cases s with
  | nil => exact (Forslib.not_terminated_nil a isA).elim
  | cons c s =>
      by_cases percent : c = 37
      · subst percent
        rcases exists_modifiers s with ⟨modifiers, rest, rfl, before⟩
        have noNul : 0 ∉ 37 :: modifiers.text := by
          simpa using before.noNul
        rcases @Terminated.of_append (37 :: modifiers.text) rest a isA noNul
          with ⟨tail, rfl, inner⟩
        rcases rest with _ | ⟨d, more⟩
        · exact (Forslib.not_terminated_nil tail inner).elim
        · rw [parseConversion_modifiers before (List.cons_ne_nil d more)]
          cases isSpecifier : charIsSpecifier d with
          | false =>
              rw [Parser.resume_no_convspec isSpecifier]
              exact .inl ⟨modifiers.read, rfl, before.read_convspec⟩
          | true =>
              have greedy := before.greedy isSpecifier
              cases tail with
              | nil =>
                  rw [inner.head] at isSpecifier
                  cases isSpecifier
              | cons x tail =>
                  rcases inner.tail with ⟨_, rfl, isTail⟩
                  rw [Parser.resume_convspec isSpecifier]
                  refine .inr ⟨⟨modifiers, d⟩, tail, more, greedy, ?_, isTail,
                    rfl⟩
                  simp [Conversion.text]
      · left
        refine ⟨.initial, Parser.loop_of_returned ?_, rfl⟩
        simp [Parser.round, percent]

/--
The parser answers on every string, with a pointer just when a conversion is
a prefix of the string, and the pointer and the specifier are those of the
conversion.
-/
theorem parseConversion_iff
    {s : Buffer}
    {a : CString}
    (isA : Terminated s a) :
    (∃ answer, parseConversion s = .ok answer) ∧
      ((∃ rest spec, parseConversion s = .ok (some rest, spec)) ↔
        ∃ conversion tail, Conversion.Greedy conversion ∧
          a = conversion.text ++ tail) ∧
      ∀ conversion tail, Conversion.Greedy conversion →
        a = conversion.text ++ tail →
        ∃ spec, conversion.Describes spec ∧ parseConversion s =
          .ok (some (s.drop conversion.text.length), spec) := by
  have answers : ∀ conversion tail, Conversion.Greedy conversion →
      a = conversion.text ++ tail →
      ∃ spec, conversion.Describes spec ∧ parseConversion s =
        .ok (some (s.drop conversion.text.length), spec) := by
    rintro conversion tail greedy rfl
    rcases isA.drop with ⟨rest, rfl, _⟩
    rw [List.drop_left]
    exact ⟨conversion.result, greedy.describes, greedy.parse rest⟩
  refine ⟨?_, ⟨?_, ?_⟩, answers⟩
  · rcases parseConversion_cases isA with
      ⟨spec, rejected, _⟩ | ⟨conversion, tail, rest, _, _, _, accepted⟩
    · exact ⟨_, rejected⟩
    · exact ⟨_, accepted⟩
  · rintro ⟨rest, spec, accepted⟩
    rcases parseConversion_cases isA with
      ⟨spec', rejected, _⟩ | ⟨conversion, tail, rest', greedy, isText, _⟩
    · rw [rejected] at accepted
      cases accepted
    · exact ⟨conversion, tail, greedy, isText⟩
  · rintro ⟨conversion, tail, greedy, isText⟩
    rcases answers conversion tail greedy isText with ⟨spec, _, accepted⟩
    exact ⟨_, spec, accepted⟩

/-- The format `%-08.3lldx`. -/
theorem parseConversion_iff_number :
    (∃ answer, parseConversion
        [37, 45, 48, 56, 46, 51, 108, 108, 100, 120, 0] = .ok answer) ∧
      ((∃ rest spec, parseConversion
          [37, 45, 48, 56, 46, 51, 108, 108, 100, 120, 0] =
            .ok (some rest, spec)) ↔
        ∃ conversion tail, Conversion.Greedy conversion ∧
          [37, 45, 48, 56, 46, 51, 108, 108, 100, 120] =
            conversion.text ++ tail) ∧
      ∀ conversion tail, Conversion.Greedy conversion →
        [37, 45, 48, 56, 46, 51, 108, 108, 100, 120] =
          conversion.text ++ tail →
        ∃ spec, conversion.Describes spec ∧ parseConversion
          [37, 45, 48, 56, 46, 51, 108, 108, 100, 120, 0] =
            .ok (some (List.drop conversion.text.length
              [37, 45, 48, 56, 46, 51, 108, 108, 100, 120, 0]), spec) :=
  @parseConversion_iff [37, 45, 48, 56, 46, 51, 108, 108, 100, 120, 0]
    [37, 45, 48, 56, 46, 51, 108, 108, 100, 120] ⟨by decide, [], rfl⟩

example : parseConversion [37, 45, 48, 56, 46, 51, 108, 108, 100, 120, 0] =
    .ok (some [120, 0],
      Conversion.spec ⟨⟨[45, 48], [56], some [51], .ll⟩, 100⟩) := by
  decide +kernel

end ForsKernel.Print
