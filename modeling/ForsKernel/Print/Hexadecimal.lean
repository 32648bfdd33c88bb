import ForsKernel.Print.Decimal

/-!
# Hexadecimal output

`print_u64_hex` goes through the sixteen digits of a word from the first one
to the last.  It compares the precision with the number of the digits which it
has come to, and not of those which are left, so that zeros are added in front
of what would be shown anyway.  The value is right all the same.
-/

namespace ForsKernel.Print

open ForsKernel.Forslib (Buffer Terminated)
open ForsKernel.Fs (CString)

/-! ## Digits -/

/-- One of `0` to `9` and `a` to `f`. -/
def charIsHexDigit (c : UInt8) : Bool :=
  charIsDigit c || (97 ≤ c && c ≤ 102)

def hexDigitValue (c : UInt8) : Nat :=
  if c.toNat < 97 then c.toNat - 48 else c.toNat - 87

/-- The value of a sequence of hexadecimal digits. -/
def hexadecimal (digits : CString) : Nat :=
  Nat.ofDigits 16 (digits.reverse.map hexDigitValue)

theorem hexDigits_lt
    {digit : Nat}
    (small : digit < 16) :
    charIsHexDigit (hexDigits.getD digit 0) ∧
      hexDigitValue (hexDigits.getD digit 0) = digit := by
  have all : ∀ d < 16, charIsHexDigit (hexDigits.getD d 0) ∧
      hexDigitValue (hexDigits.getD d 0) = d := by decide
  exact all digit small

theorem hexadecimal_cons
    (c : UInt8)
    (digits : CString) :
    hexadecimal (c :: digits) =
      hexadecimal digits + 16 ^ digits.length * hexDigitValue c := by
  rw [hexadecimal, List.reverse_cons, List.map_append, Nat.ofDigits_append,
    List.length_map, List.length_reverse, List.map_singleton,
    Nat.ofDigits_singleton, ← hexadecimal]

/-- The number of the digits without zeros in front. -/
def significantDigits (value : Nat) : Nat :=
  (Nat.digits 16 value).length

/-! ## The loop -/

/-- The digit of a word at a place. -/
def hexDigitAt
    (x : UInt64)
    (i : Nat) :
    Nat :=
  x.toNat / 16 ^ i % 16

theorem toNat_hexDigitAt
    (x : UInt64)
    {i : Nat}
    (inside : i < u64HexLen) :
    ((x >>> UInt64.ofNat (4 * i)) &&& 0xf).toNat = hexDigitAt x i := by
  have small : i < 16 := inside
  have count : (UInt64.ofNat (4 * i)).toNat % 64 = 4 * i := by
    rw [UInt64.toNat_ofNat']
    omega
  have mask : (0xf : UInt64).toNat = 2 ^ 4 - 1 := rfl
  rw [UInt64.toNat_and, UInt64.toNat_shiftRight, count, mask,
    Nat.and_two_pow_sub_one_eq_mod, Nat.shiftRight_eq_div_pow, Nat.pow_mul,
    hexDigitAt]

/-- The digits below a place and the one at it. -/
theorem mod_hexDigitAt
    (x : UInt64)
    (i : Nat) :
    x.toNat % 16 ^ (i + 1) =
      x.toNat % 16 ^ i + 16 ^ i * hexDigitAt x i := by
  rw [Nat.pow_succ, Nat.mod_mul, hexDigitAt]

variable
  {x : UInt64}
  {spec : ConversionSpecifier}

theorem showHex_succ
    {i : Nat}
    (inside : i < u64HexLen)
    (leadingDone : Bool) :
    showHex x spec (i + 1) leadingDone =
      if (u64HexLen : Int) - i ≤ spec.precision ∨
          (leadingDone || decide (hexDigitAt x i ≠ 0)) ∨ i = 0 then
        hexDigits.getD (hexDigitAt x i) 0 ::
          showHex x spec i (leadingDone || decide (hexDigitAt x i ≠ 0))
      else showHex x spec i (leadingDone || decide (hexDigitAt x i ≠ 0)) := by
  rw [showHex, toNat_hexDigitAt x inside]

/-- Behind the first digit which is not zero everything is shown. -/
theorem length_showHex_done
    {i : Nat}
    (inside : i ≤ u64HexLen) :
    (showHex x spec i true).length = i := by
  induction i with
  | zero => rfl
  | succ i induction =>
      have shorter := induction (Nat.le_of_succ_le inside)
      rw [showHex_succ inside, if_pos (by simp), List.length_cons,
        Bool.true_or, shorter]

/-- What is left out has the value zero. -/
theorem hexadecimal_showHex
    {i : Nat}
    (inside : i ≤ u64HexLen)
    (leadingDone : Bool) :
    (∀ c ∈ showHex x spec i leadingDone, charIsHexDigit c) ∧
      hexadecimal (showHex x spec i leadingDone) = x.toNat % 16 ^ i := by
  induction i generalizing leadingDone with
  | zero =>
      refine ⟨nofun, ?_⟩
      rw [Nat.pow_zero, Nat.mod_one]
      rfl
  | succ i induction =>
      have lower := Nat.le_of_succ_le inside
      rcases induction lower (leadingDone || decide (hexDigitAt x i ≠ 0)) with
        ⟨areDigits, value⟩
      have digit := hexDigits_lt
        (show hexDigitAt x i < 16 from Nat.mod_lt _ (by decide))
      rw [showHex_succ inside, mod_hexDigitAt]
      split
      · refine ⟨List.forall_mem_cons.mpr ⟨digit.1, areDigits⟩, ?_⟩
        rw [hexadecimal_cons, value, digit.2]
        by_cases zero : hexDigitAt x i = 0
        · rw [zero, Nat.mul_zero, Nat.mul_zero]
        · have done : (leadingDone || decide (hexDigitAt x i ≠ 0)) = true := by
            simp [zero]
          rw [done, length_showHex_done lower]
      · rename_i hidden
        have zero : hexDigitAt x i = 0 := by
          by_contra nonzero
          exact hidden (.inr (.inl (by simp [nonzero])))
        rw [value, zero, Nat.mul_zero, Nat.add_zero]
        exact ⟨by simpa [zero] using areDigits, rfl⟩

/-! ## The number of the digits -/

theorem significantDigits_le
    {value i : Nat}
    (below : value < 16 ^ i) :
    significantDigits value ≤ i :=
  (Nat.digits_length_le_iff (by decide) value).mpr below

/-- A digit which is not zero makes all the places below significant. -/
theorem significantDigits_succ
    (x : UInt64)
    (i : Nat) :
    significantDigits (x.toNat % 16 ^ (i + 1)) =
      if hexDigitAt x i = 0 then significantDigits (x.toNat % 16 ^ i)
      else i + 1 := by
  rw [mod_hexDigitAt]
  split
  · rename_i zero
    rw [zero, Nat.mul_zero, Nat.add_zero]
  · rename_i nonzero
    have upper : x.toNat % 16 ^ (i + 1) < 16 ^ (i + 1) :=
      Nat.mod_lt _ (Nat.pow_pos (by decide))
    rw [mod_hexDigitAt] at upper
    apply Nat.le_antisymm (significantDigits_le upper)
    have lower : 16 ^ i ≤ 16 ^ i * hexDigitAt x i :=
      Nat.le_mul_of_pos_right _ (Nat.pos_of_ne_zero nonzero)
    exact (Nat.lt_digits_length_iff (by decide) _).mpr (by omega)

/--
The precision counts the digits from the first one of the word, and these are
shown together with those which would be shown without it.
-/
theorem length_showHex
    {i : Nat}
    (inside : i ≤ u64HexLen) :
    (showHex x spec i false).length =
      min i ((spec.precision + i - 16).toNat +
        max 1 (significantDigits (x.toNat % 16 ^ i))) := by
  induction i with
  | zero => rw [Nat.zero_min]; rfl
  | succ i induction =>
      have lower := Nat.le_of_succ_le inside
      have shorter := induction lower
      have below : x.toNat % 16 ^ i < 16 ^ i :=
        Nat.mod_lt _ (Nat.pow_pos (by decide))
      have significant := significantDigits_le below
      have cells : u64HexLen = 16 := rfl
      rw [showHex_succ inside, significantDigits_succ, Bool.false_or]
      by_cases zero : hexDigitAt x i = 0
      · have undone : decide (hexDigitAt x i ≠ 0) = false := by simp [zero]
        rw [undone, if_pos zero]
        simp only [Bool.false_eq_true, false_or]
        split
        · rw [List.length_cons, shorter]
          omega
        · rw [shorter]
          omega
      · have done : decide (hexDigitAt x i ≠ 0) = true := by simp [zero]
        rw [done, if_pos (by simp), if_neg zero, List.length_cons,
          length_showHex_done lower]
        omega

/-! ## The output -/

/-- The characters in front of the digits. -/
def hexLead (spec : ConversionSpecifier) : CString :=
  if spec.alternateForm then [48, 120] else []

theorem printU64Hex_eq
    (x : UInt64)
    (spec : ConversionSpecifier) :
    printU64Hex x false spec =
      hexLead spec ++ showHex x spec u64HexLen false :=
  rfl

/-- Hexadecimal digits of this value. -/
structure DecodesHex
    (value : Nat)
    (digits : CString) :
    Prop where
  areDigits : ∀ c ∈ digits, charIsHexDigit c
  decoded : hexadecimal digits = value

/--
Behind `0x`, if it is asked for, stand as few digits as the value and the
precision allow.
-/
def HexOutput
    (x : UInt64)
    (spec : ConversionSpecifier)
    (text : CString) :
    Prop :=
  ∃ digits, text = hexLead spec ++ digits ∧ DecodesHex x.toNat digits ∧
    (digits.length : Int) =
      max 1 (max (significantDigits x.toNat : Int)
        (min spec.precision (u64HexLen : Int)))

theorem mod_word (x : UInt64) : x.toNat % 16 ^ u64HexLen = x.toNat :=
  Nat.mod_eq_of_lt x.toNat_lt

theorem decodesHex_showHex
    (x : UInt64)
    (spec : ConversionSpecifier) :
    DecodesHex x.toNat (showHex x spec u64HexLen false) := by
  rcases @hexadecimal_showHex x spec u64HexLen (Nat.le_refl _) false with
    ⟨areDigits, value⟩
  rw [mod_word] at value
  exact ⟨areDigits, value⟩

/-- The digits of the value are added to those of the precision. -/
theorem length_printed
    (x : UInt64)
    (spec : ConversionSpecifier) :
    (showHex x spec u64HexLen false).length =
      min u64HexLen (spec.precision.toNat +
        max 1 (significantDigits x.toNat)) := by
  have cells : (spec.precision + (u64HexLen : Nat) - 16).toNat =
      spec.precision.toNat := by
    rw [show ((u64HexLen : Nat) : Int) = 16 from rfl]
    omega
  rw [length_showHex (Nat.le_refl _), mod_word, cells]

theorem hexOutput_iff
    (x : UInt64)
    (spec : ConversionSpecifier) :
    HexOutput x spec (printU64Hex x false spec) ↔
      spec.precision ≤ 0 ∨ 16 ≤ spec.precision ∨ 2 ^ 60 ≤ x.toNat := by
  have full : significantDigits x.toNat = 16 ↔ 2 ^ 60 ≤ x.toNat := by
    have upper := significantDigits_le (show x.toNat < 16 ^ 16 from x.toNat_lt)
    have lower : 15 < significantDigits x.toNat ↔ 16 ^ 15 ≤ x.toNat :=
      Nat.lt_digits_length_iff (by decide) _
    omega
  have upper := significantDigits_le (show x.toNat < 16 ^ 16 from x.toNat_lt)
  have length := length_printed x spec
  have cells : u64HexLen = 16 := rfl
  rw [← full]
  constructor
  · rintro ⟨digits, whole, _, count⟩
    rw [printU64Hex_eq, List.append_cancel_left_eq] at whole
    rw [← whole] at count
    omega
  · intro condition
    refine ⟨_, printU64Hex_eq x spec, decodesHex_showHex x spec, ?_⟩
    omega

/-- `%p` shows all the digits of a word. -/
theorem printk_pointer
    {strings : UInt64 → Buffer}
    {s : Buffer}
    {conversion : Conversion}
    (greedy : conversion.Greedy)
    (terminated : Terminated s conversion.text)
    (isP : conversion.convspec = 112)
    (x : UInt64) :
    ∃ digits,
      printk strings s [x] = .ok (highlighted (48 :: 120 :: digits), []) ∧
      DecodesHex x.toNat digits ∧ digits.length = u64HexLen := by
  have describes := greedy.describes
  have precision : conversion.result.precision = 16 := by
    rw [describes.precision (.inl isP), Conversion.spec]
    exact if_pos isP
  have alternate : conversion.result.alternateForm = true := by
    rw [describes.others, Conversion.spec]
    simp [isP]
  have lead : hexLead conversion.result = [48, 120] := if_pos alternate
  have handled : conversion.convspec ≠ 88 := by simp [isP]
  have ran := @printk_single strings conversion _ s x greedy terminated
    (.hexadecimal (.inr isP)) handled
  rw [printU64Hex_eq, lead] at ran
  refine ⟨showHex x conversion.result u64HexLen false, ran,
    decodesHex_showHex x _, ?_⟩
  rw [length_printed, precision]
  exact Nat.min_eq_left (Nat.le_add_right _ _)

/-- The digits are what comes behind the first two characters, or all. -/
theorem DecodesHex.lead_unique
    {first second : CString}
    {m n : Nat}
    {spec spec' : ConversionSpecifier}
    (isFirst : DecodesHex m first)
    (isSecond : DecodesHex n second)
    (same : hexLead spec ++ first = hexLead spec' ++ second) :
    first = second := by
  have noX : ∀ {k : Nat} {digits : CString}, DecodesHex k digits →
      120 ∉ digits := by
    intro k digits decodes inside
    cases decodes.areDigits 120 inside
  rw [hexLead, hexLead] at same
  split at same
  · split at same
    · exact List.append_cancel_left same
    · have inside : (120 : UInt8) ∈ second := by
        rw [← List.nil_append second, ← same]
        simp
      exact (noX isSecond inside).elim
  · split at same
    · have inside : (120 : UInt8) ∈ first := by
        rw [← List.nil_append first, same]
        simp
      exact (noX isFirst inside).elim
    · exact same

/-- Different values are shown differently, whatever is asked for. -/
theorem printU64Hex_injective
    {x y : UInt64}
    {spec spec' : ConversionSpecifier}
    (same : printU64Hex x false spec = printU64Hex y false spec') :
    x = y := by
  have isX := decodesHex_showHex x spec
  have isY := decodesHex_showHex y spec'
  rw [printU64Hex_eq, printU64Hex_eq] at same
  have digits := isX.lead_unique isY same
  apply UInt64.toNat_inj.mp
  rw [← isX.decoded, ← isY.decoded, digits]

/--
The digits are as many as they should be just when the precision asks for no
digit or for all of them, or the value has sixteen; `%p` shows sixteen digits,
and the value can be read from the output, in any case.
-/
theorem hex_output_iff
    (x : UInt64)
    (spec : ConversionSpecifier) :
    (HexOutput x spec (printU64Hex x false spec) ↔
      spec.precision ≤ 0 ∨ 16 ≤ spec.precision ∨ 2 ^ 60 ≤ x.toNat) ∧
    (∀ (strings : UInt64 → Buffer) (s : Buffer) (conversion : Conversion),
      conversion.Greedy → Terminated s conversion.text →
      conversion.convspec = 112 →
      ∃ digits,
        printk strings s [x] = .ok (highlighted (48 :: 120 :: digits), []) ∧
        DecodesHex x.toNat digits ∧ digits.length = u64HexLen) ∧
    ∀ (y : UInt64) (spec' : ConversionSpecifier),
      printU64Hex x false spec = printU64Hex y false spec' → x = y := by
  refine ⟨hexOutput_iff x spec, ?_, ?_⟩
  · intro strings s conversion greedy terminated isP
    exact printk_pointer greedy terminated isP x
  · intro y spec' same
    exact printU64Hex_injective same

/-- The value 5 with the format `%p` is shown with sixteen digits. -/
theorem hex_output_iff_pointer :
    ∃ digits,
      printk (fun _ => []) [37, 112, 0] [5] =
        .ok (highlighted (48 :: 120 :: digits), []) ∧
      DecodesHex 5 digits ∧ digits.length = u64HexLen :=
  (hex_output_iff 5 ConversionSpecifier.initial).2.1 (fun _ => []) [37, 112, 0]
    (Conversion.plain 112) (Conversion.plain_greedy rfl)
    ⟨by decide, [], rfl⟩ rfl

/-- The value 5 with the format `%.2x` is shown with three digits. -/
theorem hex_output_long :
    printk (fun _ => []) [37, 46, 50, 120, 0] [5] =
      .ok (highlighted [48, 48, 53], []) ∧
    printU64Hex 5 false { ConversionSpecifier.initial with precision := 2 } =
      [48, 48, 53] ∧
    ¬ HexOutput 5 { ConversionSpecifier.initial with precision := 2 }
      [48, 48, 53] := by
  refine ⟨by decide +kernel, by decide +kernel, ?_⟩
  rintro ⟨digits, whole, _, count⟩
  have isDigits : digits = [48, 48, 53] := whole.symm
  rw [isDigits] at count
  revert count
  decide +kernel

end ForsKernel.Print
