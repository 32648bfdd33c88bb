import Mathlib.Data.List.Count
import ForsKernel.Print.Printk

/-!
# Formats

A well-formed format is a sequence of pieces: characters which are neither NUL
nor `%`, and conversions.  `printk` renders it piece by piece, except that the
switch does not know `X` and `%`, which the parser accepts, and it survives no
other formats.
-/

namespace ForsKernel.Print

open ForsKernel.Forslib (Buffer Terminated ok_bind error_bind)
open ForsKernel.Fs (CString)

/-! ## Pieces -/

inductive Piece where
  | literal (c : UInt8)
  | directive (conversion : Conversion)

namespace Piece

def text : Piece → CString
  | .literal c => [c]
  | .directive conversion => conversion.text

def Valid : Piece → Prop
  | .literal c => c ≠ 0 ∧ c ≠ 37
  | .directive conversion => conversion.Greedy

/-- A conversion with this character. -/
def hasConvspec (c : UInt8) : Piece → Bool
  | .literal _ => false
  | .directive conversion => conversion.convspec == c

/-- A conversion which the switch takes an argument for. -/
def takesArgument : Piece → Bool
  | .literal _ => false
  | .directive conversion =>
      conversion.convspec != 88 && conversion.convspec != 37

end Piece

def formatText (pieces : List Piece) : CString :=
  pieces.flatMap Piece.text

/-- The lower-case letters become upper-case ones. -/
def upperCase (c : UInt8) : UInt8 :=
  if 97 ≤ c ∧ c ≤ 122 then c - 32 else c

/-- How a conversion renders an argument. -/
inductive Conversion.Renders
    (strings : UInt64 → Buffer)
    (conversion : Conversion) :
    UInt64 → CString → Prop
  | string {arg : UInt64} {text : CString}
      (isString : conversion.convspec = 115)
      (terminated : Terminated (strings arg) text) :
      conversion.Renders strings arg text
  | character {arg : UInt64} (isCharacter : conversion.convspec = 99) :
      conversion.Renders strings arg [arg.toUInt8]
  | decimal {arg : UInt64} {text : CString}
      (isDecimal : conversion.convspec = 100 ∨ conversion.convspec = 117)
      (printed : printI64 arg.toInt64.toInt conversion.result = .ok text) :
      conversion.Renders strings arg text
  | hexadecimal {arg : UInt64}
      (isHexadecimal : conversion.convspec = 120 ∨
        conversion.convspec = 112) :
      conversion.Renders strings arg (printU64Hex arg false conversion.result)
  | upper {arg : UInt64} (isUpper : conversion.convspec = 88) :
      conversion.Renders strings arg
        ((printU64Hex arg true conversion.result).map upperCase)

/--
The characters which a format stands for: every conversion but `%%` takes an
argument.
-/
inductive Rendered (strings : UInt64 → Buffer) :
    List Piece → List UInt64 → CString → Prop
  | nil : Rendered strings [] [] []
  | literal {pieces : List Piece} {args : List UInt64} {text : CString}
      {c : UInt8} (rest : Rendered strings pieces args text) :
      Rendered strings (.literal c :: pieces) args (c :: text)
  | percent {pieces : List Piece} {args : List UInt64} {text : CString}
      {conversion : Conversion} (isPercent : conversion.convspec = 37)
      (rest : Rendered strings pieces args text) :
      Rendered strings (.directive conversion :: pieces) args (37 :: text)
  | directive {pieces : List Piece} {args : List UInt64}
      {shown text : CString} {conversion : Conversion} {arg : UInt64}
      (renders : conversion.Renders strings arg shown)
      (rest : Rendered strings pieces args text) :
      Rendered strings (.directive conversion :: pieces) (arg :: args)
        (shown ++ text)

/-! ## The switch -/

theorem kputs_terminated
    {s : Buffer}
    {a : CString}
    (terminated : Terminated s a) :
    kputs s = .ok a := by
  induction s generalizing a with
  | nil => exact (Forslib.not_terminated_nil a terminated).elim
  | cons b s induction =>
      cases a with
      | nil => rw [kputs, if_pos terminated.head]
      | cons x a =>
          rcases terminated.tail with ⟨nonzero, rfl, rest⟩
          rw [kputs, if_neg nonzero, induction rest]
          rfl

@[simp]
theorem Conversion.result_convspec (conversion : Conversion) :
    conversion.result.convspec = conversion.convspec := by
  rw [result, ConversionSpecifier.defaultsFromConvspec]
  split <;> rfl

variable
  {strings : UInt64 → Buffer}
  {conversion : Conversion}
  {args left : List UInt64}
  {text : CString}

/-- The switch does what it should with all the characters but `X`. -/
theorem convert_renders
    {arg : UInt64}
    (renders : conversion.Renders strings arg text)
    (handled : conversion.convspec ≠ 88) :
    convert strings conversion.result (arg :: args) = .ok (text, args) := by
  cases renders with
  | string isString terminated =>
      simp [convert, isString, vaArg, kputs_terminated terminated]
  | character isCharacter => simp [convert, isCharacter, vaArg]
  | decimal isDecimal printed =>
      rcases isDecimal with isD | isU
      · simp [convert, isD, vaArg, printed]
      · simp [convert, isU, vaArg, printed]
  | hexadecimal isHexadecimal =>
      rcases isHexadecimal with isX | isP
      · simp [convert, isX, vaArg]
      · simp [convert, isP, vaArg]
  | upper isUpper => exact (handled isUpper).elim

theorem convert_nothing
    (unhandled : conversion.convspec = 88 ∨ conversion.convspec = 37) :
    convert strings conversion.result args = .ok ([], args) := by
  rcases unhandled with isX | isPercent
  · simp [convert, isX]
  · simp [convert, isPercent]

/-- What is sent for an argument. -/
def shownFor
    (strings : UInt64 → Buffer)
    (spec : ConversionSpecifier)
    (arg : UInt64) :
    Except Fault CString :=
  if spec.convspec = 115 then kputs (strings arg)
  else if spec.convspec = 99 then .ok [arg.toUInt8]
  else if spec.convspec = 100 ∨ spec.convspec = 117 then
    printI64 arg.toInt64.toInt spec
  else .ok (printU64Hex arg false spec)

theorem not_takesArgument_iff :
    ¬ (Piece.directive conversion).takesArgument ↔
      conversion.convspec = 88 ∨ conversion.convspec = 37 := by
  simp [Piece.takesArgument, or_iff_not_imp_left]

theorem takesArgument_cases
    (greedy : conversion.Greedy)
    (takes : (Piece.directive conversion).takesArgument) :
    conversion.convspec = 115 ∨ conversion.convspec = 99 ∨
      conversion.convspec = 100 ∨ conversion.convspec = 117 ∨
      conversion.convspec = 120 ∨ conversion.convspec = 112 := by
  have cases := charIsSpecifier_cases greedy.convspec
  simp only [Piece.takesArgument, Bool.and_eq_true, bne_iff_ne] at takes
  tauto

/-- The other conversions take the first argument. -/
theorem convert_takes
    {arg : UInt64}
    (greedy : conversion.Greedy)
    (takes : (Piece.directive conversion).takesArgument) :
    convert strings conversion.result (arg :: args) =
      (shownFor strings conversion.result arg).map (·, args) := by
  rcases takesArgument_cases greedy takes with is | is | is | is | is | is
  · simp only [convert, shownFor, Conversion.result_convspec, is, vaArg,
      ok_bind, if_pos]
    cases kputs (strings arg) <;> rfl
  · simp [convert, vaArg, shownFor, is, Except.map]
  · cases printed : printI64 arg.toInt64.toInt conversion.result <;>
      simp [convert, vaArg, shownFor, is, printed, Except.map]
  · cases printed : printI64 arg.toInt64.toInt conversion.result <;>
      simp [convert, vaArg, shownFor, is, printed, Except.map]
  · simp [convert, vaArg, shownFor, is, Except.map]
  · simp [convert, vaArg, shownFor, is, Except.map]

theorem convert_no_argument
    (greedy : conversion.Greedy)
    (takes : (Piece.directive conversion).takesArgument) :
    convert strings conversion.result [] = .error .argument := by
  rcases takesArgument_cases greedy takes with is | is | is | is | is | is
  all_goals simp [convert, vaArg, is]

theorem convert_takes_ok
    (greedy : conversion.Greedy)
    (takes : (Piece.directive conversion).takesArgument)
    (converted : convert strings conversion.result args = .ok (text, left)) :
    ∃ arg, args = arg :: left := by
  cases args with
  | nil =>
      rw [convert_no_argument greedy takes] at converted
      cases converted
  | cons arg args =>
      rw [convert_takes greedy takes] at converted
      cases shown : shownFor strings conversion.result arg with
      | error fault =>
          rw [shown] at converted
          cases converted
      | ok text' =>
          rw [shown] at converted
          cases converted
          exact ⟨arg, rfl⟩

/-! ## The loop on pieces -/

variable
  {s : Buffer}
  {tail : CString}

theorem printk_nothing (terminated : Terminated s []) :
    printk strings s args = .ok ([], args) := by
  cases s with
  | nil => exact (Forslib.not_terminated_nil _ terminated).elim
  | cons b s => rw [terminated.head, printk_end]

theorem printk_character
    {c : UInt8}
    (valid : (Piece.literal c).Valid)
    (terminated : Terminated s (c :: tail)) :
    ∃ rest, Terminated rest tail ∧ ∀ args, printk strings s args =
      printk strings rest args >>= fun (sent, left) =>
        .ok (.character c :: sent, left) := by
  cases s with
  | nil => exact (Forslib.not_terminated_nil _ terminated).elim
  | cons b rest =>
      rcases terminated.tail with ⟨_, rfl, isTail⟩
      exact ⟨rest, isTail, fun _ => printk_literal valid.1 valid.2⟩

theorem printk_directive
    (greedy : conversion.Greedy)
    (terminated : Terminated s (conversion.text ++ tail)) :
    ∃ rest, Terminated rest tail ∧ ∀ args, printk strings s args =
      convert strings conversion.result args >>= fun (text, args) =>
        printk strings rest args >>= fun (sent, left) =>
          .ok (highlighted text ++ sent, left) := by
  rcases terminated.drop with ⟨rest, rfl, isTail⟩
  exact ⟨rest, isTail, fun _ => printk_accepted (greedy.parse rest)⟩

/-- A format of one conversion shows its argument. -/
theorem printk_single
    {arg : UInt64}
    (greedy : conversion.Greedy)
    (terminated : Terminated s conversion.text)
    (renders : conversion.Renders strings arg text)
    (handled : conversion.convspec ≠ 88) :
    printk strings s [arg] = .ok (highlighted text, []) := by
  rw [← List.append_nil conversion.text] at terminated
  rcases printk_directive greedy terminated with ⟨rest, isTail, equation⟩
  rw [equation, convert_renders renders handled, ok_bind]
  simp only [printk_nothing isTail, ok_bind, List.append_nil]

/-! ## Arguments -/

/-- The number of the arguments which `printk` takes. -/
theorem printk_left
    {pieces : List Piece}
    (valid : ∀ piece ∈ pieces, Piece.Valid piece)
    (terminated : Terminated s (formatText pieces))
    {sent : List Emission}
    (ran : printk strings s args = .ok (sent, left)) :
    left.length + pieces.countP Piece.takesArgument = args.length := by
  induction pieces generalizing s args sent with
  | nil =>
      rw [printk_nothing terminated] at ran
      cases ran
      rfl
  | cons piece pieces induction =>
      rcases List.forall_mem_cons.mp valid with ⟨isValid, others⟩
      cases piece with
      | literal c =>
          rcases printk_character isValid terminated with
            ⟨rest, isTail, equation⟩
          rw [equation] at ran
          rcases exists_of_bind ran with ⟨⟨sent', left'⟩, ran', same⟩
          cases same
          exact induction others isTail ran'
      | directive conversion =>
          rcases printk_directive isValid terminated with
            ⟨rest, isTail, equation⟩
          rw [equation] at ran
          rcases exists_of_bind ran with ⟨⟨text, args'⟩, converted, ran'⟩
          rcases exists_of_bind ran' with ⟨⟨sent', left'⟩, ran'', same⟩
          cases same
          have count := induction others isTail ran''
          by_cases takes : (Piece.directive conversion).takesArgument
          · rcases convert_takes_ok isValid takes converted with ⟨arg, rfl⟩
            rw [List.countP_cons_of_pos takes, List.length_cons]
            omega
          · rw [convert_nothing (not_takesArgument_iff.mp takes)] at converted
            cases converted
            rw [List.countP_cons_of_neg takes]
            exact count

theorem Conversion.Renders.ne_percent
    {arg : UInt64}
    (renders : conversion.Renders strings arg text) :
    conversion.convspec ≠ 37 := by
  intro isPercent
  cases renders with
  | string isString terminated => simp [isPercent] at isString
  | character isCharacter => simp [isPercent] at isCharacter
  | decimal isDecimal printed => simp [isPercent] at isDecimal
  | hexadecimal isHexadecimal => simp [isPercent] at isHexadecimal
  | upper isUpper => simp [isPercent] at isUpper

/-- The number of the arguments which a format asks for. -/
theorem Rendered.length
    {pieces : List Piece}
    (rendered : Rendered strings pieces args text) :
    args.length = pieces.countP Piece.takesArgument +
      pieces.countP (Piece.hasConvspec 88) := by
  induction rendered with
  | nil => rfl
  | literal rest induction => simpa [Piece.takesArgument, Piece.hasConvspec]
  | percent isPercent rest induction =>
      simpa [Piece.takesArgument, Piece.hasConvspec, isPercent]
  | @directive pieces args shown text conversion arg renders rest induction =>
      by_cases isUpper : conversion.convspec = 88
      · have upper : (Piece.directive conversion).hasConvspec 88 := by
          simp [Piece.hasConvspec, isUpper]
        have takesNone : ¬ (Piece.directive conversion).takesArgument := by
          simp [Piece.takesArgument, isUpper]
        rw [List.countP_cons_of_pos upper, List.countP_cons_of_neg takesNone,
          List.length_cons]
        omega
      · have other : ¬ (Piece.directive conversion).hasConvspec 88 := by
          simp [Piece.hasConvspec, isUpper]
        have takes : (Piece.directive conversion).takesArgument := by
          simp [Piece.takesArgument, isUpper, renders.ne_percent]
        rw [List.countP_cons_of_neg other, List.countP_cons_of_pos takes,
          List.length_cons]
        omega

/-! ## Rendering -/

/--
Without `X` every argument is rendered in its place, and `%` is what is
missing.
-/
theorem printk_rendered
    {pieces : List Piece}
    (valid : ∀ piece ∈ pieces, Piece.Valid piece)
    (terminated : Terminated s (formatText pieces))
    (rendered : Rendered strings pieces args text)
    (noUpper : pieces.countP (Piece.hasConvspec 88) = 0) :
    ∃ sent, printk strings s args = .ok (sent, []) ∧
      (visible sent).length + pieces.countP (Piece.hasConvspec 37) =
        text.length ∧
      (pieces.countP (Piece.hasConvspec 37) = 0 → visible sent = text) := by
  induction rendered generalizing s with
  | nil =>
      rw [printk_nothing terminated]
      exact ⟨[], rfl, rfl, fun _ => rfl⟩
  | @literal pieces args text c rest induction =>
      rcases List.forall_mem_cons.mp valid with ⟨isValid, others⟩
      rcases printk_character isValid terminated with
        ⟨rest, isTail, equation⟩
      rcases induction others isTail noUpper with
        ⟨sent, ran, length, whole⟩
      refine ⟨.character c :: sent, ?_, ?_, ?_⟩
      · rw [equation, ran]
        rfl
      · rw [List.countP_cons_of_neg (by simp [Piece.hasConvspec]), visible,
          List.length_cons, List.length_cons]
        omega
      · intro noPercent
        rw [List.countP_cons_of_neg (by simp [Piece.hasConvspec])] at noPercent
        rw [visible, whole noPercent]
  | @percent pieces args text conversion isPercent rest induction =>
      rcases List.forall_mem_cons.mp valid with ⟨isValid, others⟩
      have percent : (Piece.directive conversion).hasConvspec 37 := by
        simp [Piece.hasConvspec, isPercent]
      rw [List.countP_cons_of_neg (by simp [Piece.hasConvspec, isPercent])]
        at noUpper
      rcases printk_directive isValid terminated with
        ⟨rest, isTail, equation⟩
      rcases induction others isTail noUpper with ⟨sent, ran, length, _⟩
      refine ⟨highlighted [] ++ sent, ?_, ?_, ?_⟩
      · rw [equation, convert_nothing (.inr isPercent), ok_bind]
        simp only [ran, ok_bind]
      · rw [List.countP_cons_of_pos percent, visible_append,
          visible_highlighted, List.nil_append, List.length_cons]
        omega
      · intro none
        rw [List.countP_cons_of_pos percent] at none
        cases none
  | @directive pieces args shown text conversion arg renders rest induction =>
      rcases List.forall_mem_cons.mp valid with ⟨isValid, others⟩
      have noPercent : ¬ (Piece.directive conversion).hasConvspec 37 := by
        simp [Piece.hasConvspec, renders.ne_percent]
      have handled : conversion.convspec ≠ 88 := by
        intro isUpper
        have all := List.countP_eq_zero.mp noUpper _ List.mem_cons_self
        exact all (by simp [Piece.hasConvspec, isUpper])
      rw [List.countP_cons_of_neg (by simp [Piece.hasConvspec, handled])]
        at noUpper
      rcases printk_directive isValid terminated with
        ⟨rest, isTail, equation⟩
      rcases induction others isTail noUpper with ⟨sent, ran, length, whole⟩
      refine ⟨highlighted shown ++ sent, ?_, ?_, ?_⟩
      · rw [equation, convert_renders renders handled, ok_bind]
        simp only [ran, ok_bind]
      · rw [List.countP_cons_of_neg noPercent, visible_append,
          visible_highlighted, List.length_append, List.length_append]
        omega
      · intro none
        rw [List.countP_cons_of_neg noPercent] at none
        rw [visible_append, visible_highlighted, whole none]

theorem countP_hasConvspec
    {pieces : List Piece}
    {c : UInt8} :
    pieces.countP (Piece.hasConvspec c) = 0 ↔
      ∀ conversion, Piece.directive conversion ∈ pieces →
        conversion.convspec ≠ c := by
  rw [List.countP_eq_zero]
  constructor
  · intro none conversion inside same
    exact none _ inside (by simp [Piece.hasConvspec, same])
  · rintro none (c | conversion) inside has
    · cases has
    · exact none conversion inside (by simpa [Piece.hasConvspec] using has)

/--
A well-formed format is rendered piece by piece, and all its arguments are
taken, just when neither `X` nor `%` is a conversion character in it.
-/
theorem rendered_iff
    {pieces : List Piece}
    (valid : ∀ piece ∈ pieces, Piece.Valid piece)
    (terminated : Terminated s (formatText pieces))
    (rendered : Rendered strings pieces args text) :
    (∃ sent, printk strings s args = .ok (sent, []) ∧
        visible sent = text) ↔
      ∀ conversion, Piece.directive conversion ∈ pieces →
        conversion.convspec ≠ 88 ∧ conversion.convspec ≠ 37 := by
  constructor
  · rintro ⟨sent, ran, whole⟩
    have taken := printk_left valid terminated ran
    have asked := rendered.length
    have noUpper : pieces.countP (Piece.hasConvspec 88) = 0 := by
      rw [List.length_nil] at taken
      omega
    rcases printk_rendered valid terminated rendered noUpper with
      ⟨sent', ran', length, _⟩
    cases ran.symm.trans ran'
    have noPercent : pieces.countP (Piece.hasConvspec 37) = 0 := by
      rw [whole] at length
      omega
    intro conversion inside
    exact ⟨countP_hasConvspec.mp noUpper conversion inside,
      countP_hasConvspec.mp noPercent conversion inside⟩
  · intro handled
    have noUpper : pieces.countP (Piece.hasConvspec 88) = 0 :=
      countP_hasConvspec.mpr fun conversion inside =>
        (handled conversion inside).1
    have noPercent : pieces.countP (Piece.hasConvspec 37) = 0 :=
      countP_hasConvspec.mpr fun conversion inside =>
        (handled conversion inside).2
    rcases printk_rendered valid terminated rendered noUpper with
      ⟨sent, ran, _, whole⟩
    exact ⟨sent, ran, whole noPercent⟩

/-- A conversion without modifiers. -/
def Conversion.plain (c : UInt8) : Conversion :=
  ⟨⟨[], [], none, .none⟩, c⟩

theorem Conversion.plain_greedy
    {c : UInt8}
    (isSpecifier : charIsSpecifier c) :
    (Conversion.plain c).Greedy :=
  ⟨nofun, nofun, nofun, nofun, isSpecifier⟩

/-- The format `a%d` with the argument 7. -/
theorem rendered_iff_seven :
    (∃ sent, printk (fun _ => []) [97, 37, 100, 0] [7] = .ok (sent, []) ∧
        visible sent = [97, 55]) ↔
      ∀ conversion, Piece.directive conversion ∈
          [.literal 97, .directive (.plain 100)] →
        conversion.convspec ≠ 88 ∧ conversion.convspec ≠ 37 := by
  have valid : ∀ piece ∈ [.literal 97, .directive (.plain 100)],
      Piece.Valid piece := by
    rintro piece inside
    rcases List.mem_pair.mp inside with rfl | rfl
    · exact ⟨by decide, by decide⟩
    · exact Conversion.plain_greedy rfl
  have seven : (Conversion.plain 100).Renders (fun _ => []) 7 [55] :=
    .decimal (.inl rfl) (by decide +kernel)
  exact @rendered_iff (fun _ => []) [7] [97, 55] [97, 37, 100, 0]
    [.literal 97, .directive (.plain 100)] valid ⟨by decide, [], rfl⟩
    (.literal (.directive seven .nil))

/--
The format `%%` shows nothing, and in `%X%d` with the arguments 10 and 1 the
first argument is shown as the second one.
-/
theorem printk_not_rendered :
    (Rendered (fun _ => []) [.directive (.plain 37)] [] [37] ∧
      printk (fun _ => []) [37, 37, 0] [] = .ok (highlighted [], []) ∧
      visible (highlighted []) ≠ [37]) ∧
    Rendered (fun _ => []) [.directive (.plain 88), .directive (.plain 100)]
      [10, 1] [65, 49] ∧
    printk (fun _ => []) [37, 88, 37, 100, 0] [10, 1] =
      .ok (highlighted [] ++ highlighted [49, 48], [1]) ∧
    visible (highlighted [] ++ highlighted [49, 48]) ≠ [65, 49] := by
  have upper : (Conversion.plain 88).Renders (fun _ => []) 10 [65] := by
    have digit : (printU64Hex 10 true (Conversion.plain 88).result).map
        upperCase = [65] := by decide +kernel
    rw [← digit]
    exact .upper rfl
  have decimal : (Conversion.plain 100).Renders (fun _ => []) 1 [49] :=
    .decimal (.inl rfl) (by decide +kernel)
  refine ⟨⟨.percent rfl .nil, by decide +kernel, by decide⟩,
    .directive upper (.directive decimal .nil), by decide +kernel, by decide⟩

/-! ## Malformed formats -/

/--
All the arguments which `printk` takes are there, and those of `%s` are
strings.
-/
inductive Supplied (strings : UInt64 → Buffer) :
    List Piece → List UInt64 → Prop
  | nil {args : List UInt64} : Supplied strings [] args
  | skipped {pieces : List Piece} {args : List UInt64} {piece : Piece}
      (takesNone : ¬ piece.takesArgument)
      (rest : Supplied strings pieces args) :
      Supplied strings (piece :: pieces) args
  | taken {pieces : List Piece} {args : List UInt64} {piece : Piece}
      {arg : UInt64} (takes : piece.takesArgument)
      (string : piece.hasConvspec 115 →
        ∃ text, Terminated (strings arg) text)
      (rest : Supplied strings pieces args) :
      Supplied strings (piece :: pieces) (arg :: args)

/-- The same for every part of the format which is well formed. -/
def SuppliedFor
    (strings : UInt64 → Buffer)
    (format : CString)
    (args : List UInt64) :
    Prop :=
  ∀ pieces tail, (∀ piece ∈ pieces, Piece.Valid piece) →
    format = formatText pieces ++ tail → Supplied strings pieces args

/-- A format of literal characters and accepted conversions. -/
def WellFormed (format : CString) : Prop :=
  ∃ pieces, (∀ piece ∈ pieces, Piece.Valid piece) ∧
    format = formatText pieces

theorem exists_shownFor
    {arg : UInt64}
    (string : conversion.convspec =
      115 → ∃ text, Terminated (strings arg) text) :
    ∃ text, shownFor strings conversion.result arg = .ok text := by
  rw [shownFor, Conversion.result_convspec]
  split
  · rename_i isString
    rcases string isString with ⟨text, isText⟩
    exact ⟨text, kputs_terminated isText⟩
  · split
    · exact ⟨_, rfl⟩
    · split
      · exact exists_printI64 _ _
      · exact ⟨_, rfl⟩

/-- With its arguments a conversion is shown, and the others are left. -/
theorem convert_supplied
    {pieces : List Piece}
    (greedy : conversion.Greedy)
    (supplied : Supplied strings (.directive conversion :: pieces) args) :
    ∃ text left, convert strings conversion.result args = .ok (text, left) ∧
      ∀ others, Supplied strings (.directive conversion :: others) args →
        Supplied strings others left := by
  cases supplied with
  | skipped takesNone rest =>
      refine ⟨[], args,
        convert_nothing (not_takesArgument_iff.mp takesNone), ?_⟩
      intro others suppliedOthers
      cases suppliedOthers with
      | skipped _ rest => exact rest
      | taken takes _ _ => exact (takesNone takes).elim
  | @taken _ args _ arg takes string rest =>
      have shown : ∃ text, shownFor strings conversion.result arg = .ok text :=
        exists_shownFor fun isString =>
          string (by simp [Piece.hasConvspec, isString])
      rcases shown with ⟨text, isShown⟩
      refine ⟨text, args, ?_, ?_⟩
      · rw [convert_takes greedy takes, isShown]
        rfl
      · intro others suppliedOthers
        cases suppliedOthers with
        | skipped takesNone _ => exact (takesNone takes).elim
        | taken _ _ rest => exact rest

theorem SuppliedFor.directive
    (supplied : SuppliedFor strings (conversion.text ++ tail) args)
    (greedy : conversion.Greedy)
    (next : ∀ others, Supplied strings (.directive conversion :: others) args →
      Supplied strings others left) :
    SuppliedFor strings tail left := by
  rintro pieces rest valid rfl
  apply next
  apply supplied (.directive conversion :: pieces) rest
  · exact List.forall_mem_cons.mpr ⟨greedy, valid⟩
  · simp [formatText, Piece.text]

theorem SuppliedFor.literal
    {c : UInt8}
    (valid : (Piece.literal c).Valid)
    (supplied : SuppliedFor strings (c :: tail) args) :
    SuppliedFor strings tail args := by
  rintro pieces rest others rfl
  have whole := supplied (.literal c :: pieces) rest
    (List.forall_mem_cons.mpr ⟨valid, others⟩)
    (by simp [formatText, Piece.text])
  cases whole with
  | skipped _ rest => exact rest
  | taken takes _ _ => cases takes

theorem WellFormed.cons
    {piece : Piece}
    (wellFormed : WellFormed tail)
    (valid : piece.Valid) :
    WellFormed (piece.text ++ tail) := by
  rcases wellFormed with ⟨pieces, others, rfl⟩
  exact ⟨piece :: pieces, List.forall_mem_cons.mpr ⟨valid, others⟩, rfl⟩

/-- A well-formed format is printed to its end. -/
theorem printk_wellFormed
    {pieces : List Piece}
    (valid : ∀ piece ∈ pieces, Piece.Valid piece)
    (terminated : Terminated s (formatText pieces))
    (supplied : Supplied strings pieces args) :
    ∃ answer, printk strings s args = .ok answer := by
  induction pieces generalizing s args with
  | nil =>
      rw [printk_nothing terminated]
      exact ⟨_, rfl⟩
  | cons piece pieces induction =>
      rcases List.forall_mem_cons.mp valid with ⟨isValid, others⟩
      cases piece with
      | literal c =>
          rcases printk_character isValid terminated with
            ⟨rest, isTail, equation⟩
          cases supplied with
          | taken takes _ _ => cases takes
          | skipped _ suppliedRest =>
              rcases induction others isTail suppliedRest with ⟨answer, ran⟩
              rw [equation, ran]
              exact ⟨_, rfl⟩
      | directive conversion =>
          rcases printk_directive isValid terminated with
            ⟨rest, isTail, equation⟩
          rcases convert_supplied isValid supplied with
            ⟨text, left, converted, next⟩
          rcases induction others isTail (next pieces supplied) with
            ⟨answer, ran⟩
          rw [equation, converted, ok_bind]
          simp only [ran, ok_bind]
          exact ⟨_, rfl⟩

/-- With its arguments a format is printed to its end, or `NULL` is read. -/
theorem printk_cases
    {format : CString}
    (terminated : Terminated s format)
    (supplied : SuppliedFor strings format args) :
    (WellFormed format ∧ ∃ answer, printk strings s args = .ok answer) ∨
      printk strings s args = .error .null := by
  induction length : format.length using Nat.strong_induction_on
    generalizing format s args with
  | _ length induction =>
  subst length
  cases format with
  | nil =>
      rw [printk_nothing terminated]
      exact .inl ⟨⟨[], nofun, rfl⟩, _, rfl⟩
  | cons c tail =>
      by_cases percent : c = 37
      · subst percent
        cases s with
        | nil => exact (Forslib.not_terminated_nil _ terminated).elim
        | cons b s =>
            rcases terminated.tail with ⟨_, rfl, _⟩
            rcases parseConversion_cases terminated with
              ⟨spec, rejected, unset⟩ |
                ⟨conversion, tail', rest, greedy, isText, isTail, accepted⟩
            · exact .inr (printk_rejected rejected unset)
            · rw [isText] at supplied
              have here : Supplied strings [.directive conversion] args := by
                apply supplied _ tail'
                · intro piece inside
                  rw [List.mem_singleton.mp inside]
                  exact greedy
                · simp [formatText, Piece.text]
              rcases convert_supplied greedy here with
                ⟨text, left, converted, next⟩
              have shorter : tail'.length < (37 :: tail).length := by
                rw [isText, List.length_append, Conversion.text,
                  List.length_cons]
                omega
              rw [printk_accepted accepted, converted, ok_bind]
              rcases induction _ shorter isTail
                (supplied.directive greedy next) rfl with
                ⟨wellFormed, answer, ran⟩ | null
              · rw [isText]
                refine .inl ⟨@WellFormed.cons tail'
                  (.directive conversion) wellFormed greedy, ?_⟩
                simp only [ran, ok_bind]
                exact ⟨_, rfl⟩
              · simp only [null, error_bind]
                exact .inr trivial
      · have nonzero : c ≠ 0 := by
          rintro rfl
          exact terminated.1 List.mem_cons_self
        have valid : (Piece.literal c).Valid := ⟨nonzero, percent⟩
        rcases printk_character valid terminated with
          ⟨rest, isTail, equation⟩
        rw [equation]
        rcases induction tail.length (by simp) isTail
          (supplied.literal valid) rfl with ⟨wellFormed, answer, ran⟩ | null
        · rw [ran]
          exact .inl ⟨wellFormed.cons valid, _, rfl⟩
        · rw [null]
          exact .inr rfl

/--
`printk` gets to the end of a format just when the format is well formed, and
dereferences `NULL` on all the others.
-/
theorem survives_iff
    {format : CString}
    (terminated : Terminated s format)
    (supplied : SuppliedFor strings format args) :
    ((∃ answer, printk strings s args = .ok answer) ↔ WellFormed format) ∧
      (¬ WellFormed format → printk strings s args = .error .null) := by
  constructor
  · constructor
    · rintro ⟨answer, ran⟩
      rcases printk_cases terminated supplied with ⟨wellFormed, _⟩ | null
      · exact wellFormed
      · rw [ran] at null
        cases null
    · rintro ⟨pieces, valid, rfl⟩
      have whole := supplied pieces [] valid (List.append_nil _).symm
      exact printk_wellFormed valid terminated whole
  · intro malformed
    rcases printk_cases terminated supplied with ⟨wellFormed, _⟩ | null
    · exact (malformed wellFormed).elim
    · exact null

theorem supplied_of_length
    {pieces : List Piece}
    (enough : pieces.length ≤ args.length)
    (areStrings : ∀ arg ∈ args, ∃ text, Terminated (strings arg) text) :
    Supplied strings pieces args := by
  induction pieces generalizing args with
  | nil => exact .nil
  | cons piece pieces induction =>
      rw [List.length_cons] at enough
      cases args with
      | nil => simp at enough
      | cons arg args =>
          rw [List.length_cons] at enough
          by_cases takes : piece.takesArgument
          · rcases List.forall_mem_cons.mp areStrings with ⟨isString, others⟩
            exact .taken takes (fun _ => isString)
              (induction (by omega) others)
          · exact .skipped takes
              (induction (by rw [List.length_cons]; omega) areStrings)

theorem length_formatText (pieces : List Piece) :
    pieces.length ≤ (formatText pieces).length := by
  induction pieces with
  | nil => exact Nat.le_refl _
  | cons piece pieces induction =>
      have nonempty : 0 < piece.text.length := by
        cases piece with
        | literal c => exact Nat.one_pos
        | directive conversion => simp [Piece.text, Conversion.text]
      rw [formatText, List.flatMap_cons, List.length_append, ← formatText,
        List.length_cons]
      omega

/-- As many strings as the format has characters are enough for it. -/
theorem suppliedFor_of_length
    {format : CString}
    (enough : format.length ≤ args.length)
    (areStrings : ∀ arg ∈ args, ∃ text, Terminated (strings arg) text) :
    SuppliedFor strings format args := by
  rintro pieces rest _ rfl
  have pieceCount := length_formatText pieces
  rw [List.length_append] at enough
  exact supplied_of_length (by omega) areStrings

/-- The format `100%` with more arguments than it can take. -/
theorem survives_iff_percent :
    ((∃ answer, printk (fun _ => [0]) [49, 48, 48, 37, 0] [0, 0, 0, 0] =
          .ok answer) ↔ WellFormed [49, 48, 48, 37]) ∧
      (¬ WellFormed [49, 48, 48, 37] →
        printk (fun _ => [0]) [49, 48, 48, 37, 0] [0, 0, 0, 0] =
          .error .null) :=
  @survives_iff (fun _ => [0]) [0, 0, 0, 0] [49, 48, 48, 37, 0]
    [49, 48, 48, 37] ⟨by decide, [], rfl⟩
    (suppliedFor_of_length (Nat.le_refl 4)
      fun _ _ => ⟨[], List.not_mem_nil, [], rfl⟩)

/--
With arguments to spare, `%` at the end, an unfinished conversion and an
unknown character dereference `NULL`.
-/
theorem printk_null :
    SuppliedFor (fun _ => [0]) [49, 48, 48, 37] [0, 0, 0, 0] ∧
      printk (fun _ => [0]) [49, 48, 48, 37, 0] [0, 0, 0, 0] =
        .error .null ∧
      printk (fun _ => [0]) [37, 45, 53, 46, 0] [0, 0, 0, 0] =
        .error .null ∧
      printk (fun _ => [0]) [37, 113, 0] [0, 0, 0, 0] = .error .null := by
  refine ⟨?_, by decide +kernel, by decide +kernel, by decide +kernel⟩
  exact suppliedFor_of_length (Nat.le_refl 4)
    fun _ _ => ⟨[], List.not_mem_nil, [], rfl⟩

end ForsKernel.Print
