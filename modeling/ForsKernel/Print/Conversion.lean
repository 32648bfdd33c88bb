import Mathlib.Data.Nat.Basic
import ForsKernel.Forslib.Strings

/-!
# Conversions

The parser of `generic/printk.c`: a state machine which reads a conversion
`%[flags][field_width][.precision][length modifier]convspec` character by
character.  `continue` changes the state and keeps the character, and after
every round the character which comes next is compared with the terminator.
-/

namespace ForsKernel.Print

open ForsKernel.Forslib (Buffer)

/-- What can go wrong in `printk`. -/
inductive Fault where
  | null
  | format
  | digits
  | argument
  | string
deriving DecidableEq, Repr

inductive ConvState where
  | start
  | flags
  | fieldWidth
  | precision
  | lengthModifier
  | convspec
deriving DecidableEq, Repr

inductive LenModifier where
  | none
  | hh
  | h
  | l
  | ll
  | z
deriving DecidableEq, Repr

/-- `conversion_specifier`, with the values of its `int` fields. -/
structure ConversionSpecifier where
  alternateForm : Bool
  zeroPadded : Bool
  leftAdjusted : Bool
  positivePad : Bool
  alwaysSign : Bool
  fieldWidth : Int
  precision : Int
  lenmod : LenModifier
  convspec : UInt8
deriving DecidableEq, Repr

/-- An `int` keeps the lower 32 bits of a value. -/
def wrapInt (value : Int) : Int :=
  value.bmod (2 ^ 32)

/-- One of `d`, `u`, `x`, `X`, `c`, `s`, `p` and `%`. -/
def charIsSpecifier (c : UInt8) : Bool :=
  c == 100 || c == 117 || c == 120 || c == 88 || c == 99 || c == 115 ||
    c == 112 || c == 37

/-- One of `#`, `0`, `-`, the space and `+`. -/
def charIsFlag (c : UInt8) : Bool :=
  c == 35 || c == 48 || c == 45 || c == 32 || c == 43

def charIsDigit (c : UInt8) : Bool :=
  48 ≤ c && c ≤ 57

/-- `*c - '0'`. -/
def digitValue (c : UInt8) : Nat :=
  c.toNat - 48

namespace ConversionSpecifier

/-- What `parse_conversion` starts with. -/
def initial : ConversionSpecifier :=
  ⟨false, false, false, false, false, 0, 0, .none, 0⟩

/-- The flag which a character stands for is set. -/
def setFlag
    (spec : ConversionSpecifier)
    (c : UInt8) :
    ConversionSpecifier :=
  if c = 35 then { spec with alternateForm := true }
  else if c = 48 then { spec with zeroPadded := true }
  else if c = 45 then { spec with leftAdjusted := true }
  else if c = 32 then { spec with positivePad := true }
  else if c = 43 then { spec with alwaysSign := true }
  else spec

/-- One more digit of the field width. -/
def addWidth
    (spec : ConversionSpecifier)
    (c : UInt8) :
    ConversionSpecifier :=
  { spec with
    fieldWidth := wrapInt (wrapInt (spec.fieldWidth * 10) + digitValue c) }

/-- One more digit of the precision. -/
def addPrecision
    (spec : ConversionSpecifier)
    (c : UInt8) :
    ConversionSpecifier :=
  { spec with
    precision := wrapInt (wrapInt (spec.precision * 10) + digitValue c) }

/-- `defaults_from_convspec`, which changes a conversion with `p` only. -/
def defaultsFromConvspec (spec : ConversionSpecifier) :
    ConversionSpecifier :=
  if spec.convspec = 112 then
    { spec with precision := 16, alternateForm := true }
  else spec

end ConversionSpecifier

/-- The local variables of `parse_conversion`. -/
structure Parser where
  state : ConvState
  spec : ConversionSpecifier
  precisionBegun : Bool
  c : Buffer

/-- How the body of the loop ends. -/
inductive Round where
  /-- `return`, with a pointer or with `NULL`. -/
  | returned (answer : Option Buffer) (spec : ConversionSpecifier)
  /-- The condition of the loop comes next. -/
  | next (parser : Parser)

namespace Parser

/-- `continue` in another state. -/
def skipTo
    (parser : Parser)
    (state : ConvState) :
    Round :=
  .next { parser with state := state }

/-- The end of the body, behind the next `count` characters. -/
def advance
    (parser : Parser)
    (count : Nat)
    (state : ConvState)
    (spec : ConversionSpecifier) :
    Round :=
  .next { parser with state, spec, c := parser.c.drop count }

/-- The case `LENGTH_MODIFIER` for `h` or `l`, which may be doubled. -/
def lengthModifier
    (parser : Parser)
    (c : UInt8)
    (single double : LenModifier) :
    Except Fault Round :=
  match parser.c.drop 1 with
  | [] => .error .format
  | second :: _ =>
      if second ≠ 0 ∧ second = c then
        .ok (parser.advance 2 .convspec { parser.spec with lenmod := double })
      else
        .ok (parser.advance 1 .convspec { parser.spec with lenmod := single })

/-- The body of the loop. -/
def round (parser : Parser) : Except Fault Round :=
  match parser.c with
  | [] => .error .format
  | c :: rest =>
      match parser.state with
      | .start =>
          if c = 37 then .ok (parser.advance 1 .flags parser.spec)
          else .ok (.returned none parser.spec)
      | .flags =>
          if !charIsFlag c then .ok (parser.skipTo .fieldWidth)
          else .ok (parser.advance 1 .flags (parser.spec.setFlag c))
      | .fieldWidth =>
          if !charIsDigit c then .ok (parser.skipTo .precision)
          else .ok (parser.advance 1 .fieldWidth (parser.spec.addWidth c))
      | .precision =>
          if parser.precisionBegun then
            if !charIsDigit c then .ok (parser.skipTo .lengthModifier)
            else
              .ok (parser.advance 1 .precision (parser.spec.addPrecision c))
          else if c = 46 then
            .ok ({ parser with precisionBegun := true }.advance 1 .precision
              { parser.spec with precision := 0 })
          else .ok (parser.skipTo .lengthModifier)
      | .lengthModifier =>
          if c = 104 then parser.lengthModifier c .h .hh
          else if c = 108 then parser.lengthModifier c .l .ll
          else if c = 122 then
            .ok (parser.advance 1 .convspec { parser.spec with lenmod := .z })
          else .ok (parser.skipTo .convspec)
      | .convspec =>
          if charIsSpecifier c then
            .ok (.returned (some rest)
              { parser.spec with convspec := c }.defaultsFromConvspec)
          else .ok (.returned none parser.spec)

/-- The states in their order, as what is left to do in them. -/
def stagesLeft : ConvState → Nat
  | .start => 5
  | .flags => 4
  | .fieldWidth => 3
  | .precision => 2
  | .lengthModifier => 1
  | .convspec => 0

/-- Every round consumes a character or goes to a later state. -/
def measure (parser : Parser) : Nat :=
  6 * parser.c.length + stagesLeft parser.state

theorem measure_advance
    {parser parser' : Parser}
    {count : Nat}
    {state : ConvState}
    {spec : ConversionSpecifier}
    (advanced : parser.advance count state spec = .next parser')
    (positive : 0 < count)
    (nonempty : parser.c ≠ []) :
    parser'.measure < parser.measure ∧
      parser'.c.length ≤ parser.c.length := by
  cases advanced
  have length := List.length_pos_iff.mpr nonempty
  have later : stagesLeft state ≤ 5 := by cases state <;> decide
  simp only [measure, List.length_drop]
  omega

theorem measure_skipTo
    {parser parser' : Parser}
    {state : ConvState}
    (skipped : parser.skipTo state = .next parser')
    (later : stagesLeft state < stagesLeft parser.state) :
    parser'.measure < parser.measure ∧
      parser'.c.length ≤ parser.c.length := by
  cases skipped
  simp only [measure]
  omega

theorem lengthModifier_next
    {parser parser' : Parser}
    {c : UInt8}
    {single double : LenModifier}
    (ran : parser.lengthModifier c single double = .ok (.next parser')) :
    parser'.measure < parser.measure ∧
      parser'.c.length ≤ parser.c.length := by
  have nonempty : parser.c ≠ [] := by
    intro empty
    rw [lengthModifier, empty] at ran
    cases ran
  rw [lengthModifier] at ran
  split at ran
  · cases ran
  · split at ran
    · exact measure_advance (Except.ok.inj ran) (by decide) nonempty
    · exact measure_advance (Except.ok.inj ran) (by decide) nonempty

theorem lengthModifier_ne_returned
    {parser : Parser}
    {c : UInt8}
    {single double : LenModifier}
    {answer : Option Buffer}
    {spec : ConversionSpecifier} :
    parser.lengthModifier c single double ≠ .ok (.returned answer spec) := by
  rw [lengthModifier]
  split
  · nofun
  · split <;> nofun

/-- A round which goes on has made progress. -/
theorem round_next
    {parser parser' : Parser}
    (ran : parser.round = .ok (.next parser')) :
    parser'.measure < parser.measure ∧
      parser'.c.length ≤ parser.c.length := by
  rw [round] at ran
  split at ran
  · cases ran
  · rename_i c rest isC
    have nonempty : parser.c ≠ [] := by
      rw [isC]
      exact List.cons_ne_nil c rest
    split at ran
    · split at ran
      · exact measure_advance (Except.ok.inj ran) (by decide) nonempty
      · cases ran
    · rename_i here
      split at ran
      · exact measure_skipTo (Except.ok.inj ran) (by rw [here]; decide)
      · exact measure_advance (Except.ok.inj ran) (by decide) nonempty
    · rename_i here
      split at ran
      · exact measure_skipTo (Except.ok.inj ran) (by rw [here]; decide)
      · exact measure_advance (Except.ok.inj ran) (by decide) nonempty
    · rename_i here
      split at ran
      · split at ran
        · exact measure_skipTo (Except.ok.inj ran) (by rw [here]; decide)
        · exact measure_advance (Except.ok.inj ran) (by decide) nonempty
      · split at ran
        · have progress := measure_advance (Except.ok.inj ran) (by decide)
            nonempty
          exact progress
        · exact measure_skipTo (Except.ok.inj ran) (by rw [here]; decide)
    · rename_i here
      split at ran
      · exact lengthModifier_next ran
      · split at ran
        · exact lengthModifier_next ran
        · split at ran
          · exact measure_advance (Except.ok.inj ran) (by decide) nonempty
          · exact measure_skipTo (Except.ok.inj ran) (by rw [here]; decide)
    · split at ran <;> cases ran

/-- A pointer which is returned lies behind the current character. -/
theorem round_returned
    {parser : Parser}
    {rest : Buffer}
    {spec : ConversionSpecifier}
    (ran : parser.round = .ok (.returned (some rest) spec)) :
    rest.length < parser.c.length := by
  rw [round] at ran
  split at ran
  · cases ran
  · rename_i c after isC
    split at ran
    · split at ran <;> cases ran
    · split at ran <;> cases ran
    · split at ran <;> cases ran
    · split at ran
      · split at ran <;> cases ran
      · split at ran <;> cases ran
    · split at ran
      · exact (lengthModifier_ne_returned ran).elim
      · split at ran
        · exact (lengthModifier_ne_returned ran).elim
        · split at ran <;> cases ran
    · split at ran
      · cases ran
        rw [isC, List.length_cons]
        exact Nat.lt_succ_self _
      · cases ran

/-- `do ... while (*c)`. -/
def loop (parser : Parser) :
    Except Fault (Option Buffer × ConversionSpecifier) :=
  match _ran : parser.round with
  | .error fault => .error fault
  | .ok (.returned answer spec) => .ok (answer, spec)
  | .ok (.next parser') =>
      match parser'.c with
      | [] => .error .format
      | c :: _ => if c = 0 then .ok (none, parser'.spec) else parser'.loop
termination_by parser.measure
decreasing_by exact (round_next _ran).1

theorem loop_shorter
    {parser : Parser}
    {rest : Buffer}
    {spec : ConversionSpecifier}
    (accepted : parser.loop = .ok (some rest, spec)) :
    rest.length < parser.c.length := by
  fun_induction loop parser with
  | case1 parser fault ran => cases accepted
  | case2 parser answer spec' ran =>
      cases accepted
      exact round_returned ran
  | case3 parser parser' ran empty => cases accepted
  | case4 parser parser' ran rest' isC => cases accepted
  | case5 parser parser' ran c rest' isC nonzero induction =>
      have progress := round_next ran
      have shorter := induction accepted
      omega

/-- The condition of the loop, and then the loop. -/
def resume (parser : Parser) :
    Except Fault (Option Buffer × ConversionSpecifier) :=
  match parser.c with
  | [] => .error .format
  | c :: _ => if c = 0 then .ok (none, parser.spec) else parser.loop

theorem loop_of_next
    {parser parser' : Parser}
    (ran : parser.round = .ok (.next parser')) :
    parser.loop = parser'.resume := by
  rw [loop]
  split
  · rename_i other
    rw [ran] at other
    cases other
  · rename_i other
    rw [ran] at other
    cases other
  · rename_i other
    rw [ran] at other
    cases other
    rfl

theorem loop_of_returned
    {parser : Parser}
    {answer : Option Buffer}
    {spec : ConversionSpecifier}
    (ran : parser.round = .ok (.returned answer spec)) :
    parser.loop = .ok (answer, spec) := by
  rw [loop]
  split
  · rename_i other
    rw [ran] at other
    cases other
  · rename_i other
    rw [ran] at other
    cases other
    rfl
  · rename_i other
    rw [ran] at other
    cases other

end Parser

/-- The pointer behind the conversion or `NULL`, and what `spec` holds. -/
def parseConversion (start : Buffer) :
    Except Fault (Option Buffer × ConversionSpecifier) :=
  Parser.loop ⟨.start, .initial, false, start⟩

theorem parseConversion_shorter
    {start rest : Buffer}
    {spec : ConversionSpecifier}
    (accepted : parseConversion start = .ok (some rest, spec)) :
    rest.length < start.length :=
  Parser.loop_shorter accepted

end ForsKernel.Print
