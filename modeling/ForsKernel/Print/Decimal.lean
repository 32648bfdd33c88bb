import Mathlib.Data.Nat.Digits.Lemmas
import ForsKernel.Print.Formats

/-!
# Decimal output

What `print_i64` shows for a natural number are its digits, with zeros in front
of them up to the precision and with spaces up to the field width.  It shows an
argument of `u` as a signed number, and the least `int64_t` digit by digit with
the wrong sign.
-/

namespace ForsKernel.Print

open ForsKernel.Forslib (Buffer Terminated ok_bind)
open ForsKernel.Fs (CString)

/-! ## Digits -/

/-- The character of a digit. -/
def digitChar (digit : Int) : UInt8 :=
  UInt8.ofInt (48 + digit)

/-- The digits of a number, the first one first. -/
def bigDigits (m : Nat) : List Int :=
  (Nat.digits 10 m).reverse.map Nat.cast

theorem digitChar_lt
    {digit : Nat}
    (small : digit < 10) :
    charIsDigit (digitChar digit) ∧ digitValue (digitChar digit) = digit := by
  have all : ∀ d < 10, charIsDigit (digitChar (d : Nat)) ∧
      digitValue (digitChar (d : Nat)) = d := by decide
  exact all digit small

theorem decimal_append (first second : CString) :
    decimal (first ++ second) =
      second.foldl (fun value c => value * 10 + digitValue c)
        (decimal first) := by
  rw [decimal, List.foldl_append, ← decimal]

theorem decimal_zeros (count : Nat) :
    decimal (List.replicate count 48) = 0 := by
  induction count with
  | zero => rfl
  | succ count induction =>
      rw [List.replicate_succ', decimal_append, induction]
      rfl

/-- Zeros in front of the digits of a number do not change its value. -/
theorem decimal_digits (count m : Nat) :
    decimal (List.replicate count 48 ++ (bigDigits m).map digitChar) = m := by
  have values : ∀ digits : List Nat, (∀ d ∈ digits, d < 10) →
      decimal (List.replicate count 48 ++
        (digits.reverse.map Nat.cast).map digitChar) =
          Nat.ofDigits 10 digits := by
    intro digits
    induction digits with
    | nil =>
        intro _
        simpa using decimal_zeros count
    | cons d digits induction =>
        intro small
        have rest := induction fun e inside =>
          small e (List.mem_cons_of_mem d inside)
        have value := (digitChar_lt (small d List.mem_cons_self)).2
        rw [List.reverse_cons, List.map_append, List.map_append,
          ← List.append_assoc, decimal_append, rest, Nat.ofDigits_cons]
        simp only [List.map_cons, List.map_nil, List.foldl_cons,
          List.foldl_nil, value]
        omega
  rw [bigDigits, values _ fun d inside => Nat.digits_lt_base (by decide) inside,
    Nat.ofDigits_digits]

theorem bigDigits_digit
    {m : Nat}
    {c : UInt8}
    (inside : c ∈ (bigDigits m).map digitChar) :
    charIsDigit c := by
  simp only [bigDigits, List.mem_map, List.mem_reverse] at inside
  rcases inside with ⟨_, ⟨d, isDigit, rfl⟩, rfl⟩
  exact (digitChar_lt (Nat.digits_lt_base (by decide) isDigit)).1

theorem bigDigits_nonzero (m : Nat) : (bigDigits m).head? ≠ some 0 := by
  by_cases zero : m = 0
  · subst zero
    nofun
  · have last := Nat.getLast_digit_ne_zero 10 zero
    intro isZero
    rw [bigDigits, List.head?_map, List.head?_reverse,
      List.getLast?_eq_some_getLast (Nat.digits_ne_nil_iff_ne_zero.mpr zero),
      Option.map_some, Option.some.injEq] at isZero
    omega

/-! ## The buffer of a natural number -/

/-- The digits stand at the end of the cells. -/
theorem fillDigits_natural
    {m i : Nat}
    (fits : (Nat.digits 10 m).length ≤ i)
    (more : List Int) :
    fillDigits m i (List.replicate i 0 ++ more) =
      .ok (List.replicate (i - (Nat.digits 10 m).length) 0 ++
        (bigDigits m ++ more)) := by
  induction i generalizing m more with
  | zero =>
      have zero : m = 0 := by
        rwa [Nat.le_zero, List.length_eq_zero_iff,
          Nat.digits_eq_nil_iff_eq_zero] at fits
      subst zero
      rfl
  | succ i induction =>
      by_cases zero : m = 0
      · subst zero
        rfl
      · have nonzero : (m : Int) ≠ 0 := by omega
        have digits := Nat.digits_def' (b := 10) (by decide)
          (Nat.pos_of_ne_zero zero)
        rw [digits, List.length_cons] at fits
        have put : (List.replicate (i + 1) 0 ++ more).set i
            ((m : Int).tmod 10) =
              List.replicate i 0 ++ ((m : Int).tmod 10 :: more) := by
          rw [List.replicate_succ', List.append_assoc, List.set_append,
            if_neg (by simp)]
          simp
        rw [fillDigits, if_neg nonzero, put]
        have rest := induction (m := m / 10) (by omega)
          ((m : Int).tmod 10 :: more)
        have divided : (m : Int).tdiv 10 = ((m / 10 : Nat) : Int) := rfl
        have modulo : (m : Int).tmod 10 = ((m % 10 : Nat) : Int) := rfl
        rw [divided, rest, digits, List.length_cons, modulo,
          Nat.add_sub_add_right]
        simp [bigDigits, digits]

/-! ## What is shown -/

def withoutSpaces (text : CString) : CString :=
  text.filter (· ≠ 32)

theorem withoutSpaces_append (first second : CString) :
    withoutSpaces (first ++ second) =
      withoutSpaces first ++ withoutSpaces second :=
  List.filter_append ..

theorem withoutSpaces_of_digits
    {text : CString}
    (areDigits : ∀ c ∈ text, charIsDigit c) :
    withoutSpaces text = text := by
  apply List.filter_eq_self.mpr
  intro c inside
  have isDigit := areDigits c inside
  simp only [decide_eq_true_eq]
  rintro rfl
  cases isDigit

/-- Behind the first digit everything is shown. -/
theorem showDigits_done
    (spec : ConversionSpecifier)
    (i : Nat)
    (buf : List Int) :
    showDigits spec i true buf = buf.map digitChar := by
  induction buf generalizing i with
  | nil => rfl
  | cons digit buf induction =>
      rw [showDigits]
      simp [induction, digitChar]

theorem showDigits_nonzero
    (spec : ConversionSpecifier)
    (i : Nat)
    {buf : List Int}
    (nonzero : buf.head? ≠ some 0) :
    showDigits spec i false buf = buf.map digitChar := by
  cases buf with
  | nil => rfl
  | cons digit buf =>
      rw [List.head?_cons, ne_eq, Option.some.injEq] at nonzero
      rw [showDigits]
      simp [nonzero, showDigits_done, digitChar]

/--
Of the zeros in front those are shown which the precision asks for, and the
last cell.
-/
theorem showDigits_zeros
    {spec : ConversionSpecifier}
    {precision : Nat}
    (isPrecision : spec.precision = precision)
    {i zeros : Nat}
    {buf : List Int}
    (cells : i + (zeros + buf.length) = i64BufLen) :
    withoutSpaces (showDigits spec i false
        (List.replicate zeros 0 ++ buf)) =
      List.replicate (min zeros (max 1 precision - buf.length)) 48 ++
        withoutSpaces (showDigits spec (i + zeros) false buf) := by
  induction zeros generalizing i with
  | zero => simp
  | succ zeros induction =>
      have rest := induction (i := i + 1) (by omega)
      have next : i + 1 + zeros = i + (zeros + 1) := by omega
      have undone : (false || decide ((0 : Int) ≠ 0)) = false := rfl
      rw [next] at rest
      rw [List.replicate_succ, List.cons_append, showDigits]
      simp only [undone, Bool.false_eq_true, false_or]
      by_cases asked : zeros + 1 ≤ max 1 precision - buf.length
      · have shown : (i64BufLen : Int) - i ≤ spec.precision ∨
            i = i64BufLen - 1 := by omega
        have both : min (zeros + 1) (max 1 precision - buf.length) =
            min zeros (max 1 precision - buf.length) + 1 := by omega
        rw [if_pos shown, both, List.replicate_succ, List.cons_append, ← rest]
        rfl
      · have hidden : ¬ ((i64BufLen : Int) - i ≤ spec.precision ∨
            i = i64BufLen - 1) := by omega
        have both : min (zeros + 1) (max 1 precision - buf.length) =
            min zeros (max 1 precision - buf.length) := by omega
        rw [if_neg hidden, both, ← rest]
        split
        · rfl
        · rfl

/-- Every digit but zero is shown. -/
theorem mem_showDigits
    (spec : ConversionSpecifier)
    {digit : Int}
    (nonzero : digit ≠ 0)
    {buf : List Int}
    (inside : digit ∈ buf)
    (i : Nat)
    (leadingDone : Bool) :
    digitChar digit ∈ showDigits spec i leadingDone buf := by
  induction buf generalizing i leadingDone with
  | nil => cases inside
  | cons first buf induction =>
      rw [showDigits]
      rcases List.mem_cons.mp inside with rfl | inside
      · simp [nonzero, digitChar]
      · have later := induction inside (i + 1) (leadingDone || first ≠ 0)
        split
        · exact List.mem_cons_of_mem _ later
        · split
          · exact List.mem_cons_of_mem _ later
          · exact later

/-! ## Decoding -/

/-- The number of the digits of a number which is written without zeros. -/
def minimalDigits (value : Nat) : Nat :=
  max 1 (Nat.digits 10 value).length

/-- Digits of this value, no more than the precision asks for. -/
structure Decodes
    (precision value : Nat)
    (text : CString) :
    Prop where
  digits : ∀ c ∈ text, charIsDigit c
  decoded : decimal text = value
  length : text.length = max precision (minimalDigits value)

/-- The same behind an optional sign. -/
def DecodesSigned
    (precision : Nat)
    (value : Int)
    (text : CString) :
    Prop :=
  ∃ sign digits, text = sign ++ digits ∧
    (sign = [] ∨ sign = [43] ∨ sign = [45]) ∧
    Decodes precision value.natAbs digits ∧
    value = if sign = [45] then -(decimal digits : Int) else decimal digits

/-- The characters which are shown of a natural number. -/
theorem decodes_natural
    {m precision : Nat}
    {spec : ConversionSpecifier}
    (isPrecision : spec.precision = precision)
    (small : precision ≤ i64BufLen)
    (fits : m < 10 ^ i64BufLen) :
    ∃ buf, fillDigits m i64BufLen (List.replicate i64BufLen 0) = .ok buf ∧
      Decodes precision m (withoutSpaces (showDigits spec 0 false buf)) := by
  have digitCount : (Nat.digits 10 m).length ≤ i64BufLen :=
    (Nat.digits_length_le_iff (by decide) m).mpr fits
  have filled := fillDigits_natural digitCount []
  rw [List.append_nil, List.append_nil] at filled
  refine ⟨_, filled, ?_⟩
  have length : (bigDigits m).length = (Nat.digits 10 m).length := by
    rw [bigDigits, List.length_map, List.length_reverse]
  have zeros := @showDigits_zeros spec precision isPrecision 0
    (i64BufLen - (Nat.digits 10 m).length) (bigDigits m) (by omega)
  rw [showDigits_nonzero spec _ (bigDigits_nonzero m),
    withoutSpaces_of_digits fun c => bigDigits_digit, length] at zeros
  rw [zeros]
  refine ⟨?_, decimal_digits _ m, ?_⟩
  · intro c inside
    rcases List.mem_append.mp inside with isZero | isDigit
    · rw [List.eq_of_mem_replicate isZero]
      rfl
    · exact bigDigits_digit isDigit
  · rw [List.length_append, List.length_replicate, List.length_map, length,
      minimalDigits]
    have cells : 0 < i64BufLen := by decide
    omega

/-! ## Arguments -/

/-- A word as a signed number. -/
theorem toInt_toInt64 (arg : UInt64) :
    arg.toInt64.toInt =
      if arg.toNat < 2 ^ 63 then (arg.toNat : Int)
      else (arg.toNat : Int) - 2 ^ 64 := by
  have bound := arg.toNat_lt
  have value : arg.toInt64.toInt = (arg.toNat : Int).bmod (2 ^ 64) :=
    BitVec.toInt_eq_toNat_bmod arg.toBitVec
  rw [value, Int.bmod_def]
  split <;> split <;> omega

theorem i64Magnitude_eq
    {x : Int}
    (lower : -2 ^ 63 < x)
    (upper : x < 2 ^ 63) :
    i64Magnitude x = x.natAbs := by
  rw [i64Magnitude]
  split
  · rw [Int.bmod_def]
    split <;> omega
  · omega

/-- The sign and the digits of every `int64_t` but the least one. -/
theorem exists_digits
    {x : Int}
    (lower : -2 ^ 63 < x)
    (upper : x < 2 ^ 63)
    {precision : Nat}
    {spec : ConversionSpecifier}
    (isPrecision : spec.precision = precision)
    (small : precision ≤ i64BufLen) :
    ∃ text digits, printI64 x spec = .ok text ∧
      withoutSpaces text = i64Sign x spec ++ digits ∧
      Decodes precision x.natAbs digits := by
  have fits : x.natAbs < 10 ^ i64BufLen := by
    have magnitude : x.natAbs < 2 ^ 63 := by omega
    exact Nat.lt_trans magnitude (by decide)
  have sign : withoutSpaces (i64Sign x spec) = i64Sign x spec := by
    rw [i64Sign]
    split
    · rfl
    · split <;> rfl
  rcases decodes_natural isPrecision small fits with ⟨buf, filled, decodes⟩
  refine ⟨i64Sign x spec ++ showDigits spec 0 false buf, _, ?_, ?_, decodes⟩
  · rw [printI64, i64Magnitude_eq lower upper, filled, ok_bind]
  · rw [withoutSpaces_append, sign]

/-- The digits of the least `int64_t` stay negative. -/
theorem exists_printI64_least (spec : ConversionSpecifier) :
    ∃ text, printI64 (-2 ^ 63) spec = .ok text ∧ 40 ∈ withoutSpaces text := by
  have filled : fillDigits (i64Magnitude (-2 ^ 63)) i64BufLen
      (List.replicate i64BufLen 0) =
        .ok (List.replicate 45 0 ++ [-9, -2, -2, -3, -3, -7, -2, 0, -3, -6,
          -8, -5, -4, -7, -7, -5, -8, 0, -8]) := by
    decide +kernel
  have eight : (-8 : Int) ∈ List.replicate 45 0 ++ [-9, -2, -2, -3, -3, -7,
      -2, 0, -3, -6, -8, -5, -4, -7, -7, -5, -8, 0, -8] := by
    decide
  refine ⟨_, by rw [printI64, filled, ok_bind], ?_⟩
  rw [withoutSpaces_append, List.mem_append]
  right
  exact List.mem_filter.mpr
    ⟨mem_showDigits spec (by decide) eight 0 false, rfl⟩

/-- The format takes the argument, and this is true of what is shown. -/
def Shows
    (strings : UInt64 → Buffer)
    (s : Buffer)
    (arg : UInt64)
    (property : CString → Prop) :
    Prop :=
  ∃ sent, printk strings s [arg] = .ok (sent, []) ∧
    property (withoutSpaces (visible sent))

variable
  {strings : UInt64 → Buffer}
  {s : Buffer}
  {conversion : Conversion}
  {arg : UInt64}

/-- A format of one decimal conversion shows what `print_i64` prints. -/
theorem shows_iff
    (greedy : conversion.Greedy)
    (terminated : Terminated s conversion.text)
    (isDecimal : conversion.convspec = 100 ∨ conversion.convspec = 117)
    {text : CString}
    (printed : printI64 arg.toInt64.toInt conversion.result = .ok text)
    (property : CString → Prop) :
    Shows strings s arg property ↔ property (withoutSpaces text) := by
  have handled : conversion.convspec ≠ 88 := by
    rcases isDecimal with is | is <;> simp [is]
  have ran : printk strings s [arg] = .ok (highlighted text, []) :=
    printk_single greedy terminated (.decimal isDecimal printed) handled
  constructor
  · rintro ⟨sent, ran', holds⟩
    cases ran.symm.trans ran'
    rwa [visible_highlighted] at holds
  · intro holds
    exact ⟨_, ran, by rwa [visible_highlighted]⟩

theorem Conversion.Greedy.result_precision
    (greedy : conversion.Greedy)
    (isDecimal : conversion.convspec = 100 ∨ conversion.convspec = 117)
    (small : decimal (conversion.precision.getD []) ≤ i64BufLen) :
    conversion.result.precision =
      decimal (conversion.precision.getD []) := by
  have other : conversion.convspec ≠ 112 := by
    rcases isDecimal with is | is <;> simp [is]
  have fits : decimal (conversion.precision.getD []) < 2 ^ 31 :=
    Nat.lt_of_le_of_lt small (by decide)
  rw [greedy.describes.precision (.inr fits), Conversion.spec]
  exact if_neg other

theorem Conversion.Greedy.result_alwaysSign (greedy : conversion.Greedy) :
    conversion.result.alwaysSign = decide (43 ∈ conversion.flags) := by
  rw [greedy.describes.others]
  rfl

theorem DecodesSigned.mem
    {precision : Nat}
    {value : Int}
    {text : CString}
    (decodes : DecodesSigned precision value text)
    {c : UInt8}
    (inside : c ∈ text) :
    c = 43 ∨ c = 45 ∨ charIsDigit c := by
  rcases decodes with ⟨sign, digits, rfl, isSign, areDigits, _⟩
  rcases List.mem_append.mp inside with inSign | inDigits
  · rcases isSign with rfl | rfl | rfl
    · cases inSign
    · exact .inl (List.mem_singleton.mp inSign)
    · exact .inr (.inl (List.mem_singleton.mp inSign))
  · exact .inr (.inr (areDigits.digits c inDigits))

/-- A number behind its sign. -/
theorem Decodes.signed
    {precision : Nat}
    {x : Int}
    {digits : CString}
    (decodes : Decodes precision x.natAbs digits)
    (spec : ConversionSpecifier) :
    DecodesSigned precision x (i64Sign x spec ++ digits) := by
  have value := decodes.decoded
  refine ⟨i64Sign x spec, digits, rfl, ?_, decodes, ?_⟩
  · rw [i64Sign]
    split
    · exact .inr (.inr rfl)
    · split
      · exact .inr (.inl rfl)
      · exact .inl rfl
  · rw [i64Sign, value]
    split
    · rw [if_pos rfl]
      omega
    · split
      · rw [if_neg (by decide)]
        omega
      · rw [if_neg (by decide)]
        omega

/-- `%d` shows every argument but the least one. -/
theorem shows_signed_iff
    (greedy : conversion.Greedy)
    (terminated : Terminated s conversion.text)
    (small : decimal (conversion.precision.getD []) ≤ i64BufLen)
    (isD : conversion.convspec = 100) :
    Shows strings s arg (DecodesSigned
        (decimal (conversion.precision.getD [])) arg.toInt64.toInt) ↔
      arg.toNat ≠ 2 ^ 63 := by
  have bound := arg.toNat_lt
  have value := toInt_toInt64 arg
  have isPrecision := greedy.result_precision (.inl isD) small
  by_cases least : arg.toNat = 2 ^ 63
  · have isLeast : arg.toInt64.toInt = -2 ^ 63 := by
      rw [value, least]
      rfl
    rcases exists_printI64_least conversion.result with
      ⟨text, printed, inside⟩
    rw [← isLeast] at printed
    rw [shows_iff greedy terminated (.inl isD) printed]
    simp only [least, ne_eq, not_true_eq_false, iff_false]
    intro decodes
    rcases decodes.mem inside with isPlus | isMinus | isDigit
    · cases isPlus
    · cases isMinus
    · cases isDigit
  · have lower : -2 ^ 63 < arg.toInt64.toInt := by
      rw [value]
      split <;> omega
    have upper : arg.toInt64.toInt < 2 ^ 63 := by
      rw [value]
      split <;> omega
    rcases exists_digits lower upper isPrecision small with
      ⟨text, digits, printed, shown, decodes⟩
    rw [shows_iff greedy terminated (.inl isD) printed, shown]
    exact iff_of_true (decodes.signed _) least

theorem mem_i64Sign
    {x : Int}
    {spec : ConversionSpecifier}
    {c : UInt8}
    (inside : c ∈ i64Sign x spec) :
    c = 45 ∨ c = 43 := by
  rw [i64Sign] at inside
  split at inside
  · exact .inl (List.mem_singleton.mp inside)
  · split at inside
    · exact .inr (List.mem_singleton.mp inside)
    · cases inside

/-- A sign is among the characters which are shown. -/
theorem mem_printI64
    {x : Int}
    {spec : ConversionSpecifier}
    {text : CString}
    (printed : printI64 x spec = .ok text)
    {c : UInt8}
    (inside : c ∈ i64Sign x spec) :
    c ∈ withoutSpaces text := by
  rcases exists_of_bind printed with ⟨buf, _, same⟩
  cases same
  have visible : c ≠ 32 := by
    rcases mem_i64Sign inside with rfl | rfl <;> decide
  exact List.mem_filter.mpr
    ⟨List.mem_append_left _ inside, by simpa using visible⟩

theorem i64Sign_eq_nil
    {x : Int}
    {spec : ConversionSpecifier} :
    i64Sign x spec = [] ↔ 0 ≤ x ∧ spec.alwaysSign = false := by
  rw [i64Sign]
  split
  · simp
    omega
  · split
    · simp_all
    · simp_all

/-- `%u` shows what is also a signed number, but not behind a sign. -/
theorem shows_unsigned_iff
    (greedy : conversion.Greedy)
    (terminated : Terminated s conversion.text)
    (small : decimal (conversion.precision.getD []) ≤ i64BufLen)
    (isU : conversion.convspec = 117) :
    Shows strings s arg (Decodes
        (decimal (conversion.precision.getD [])) arg.toNat) ↔
      arg.toNat < 2 ^ 63 ∧ 43 ∉ conversion.flags := by
  have bound := arg.toNat_lt
  have value := toInt_toInt64 arg
  have plain : i64Sign arg.toInt64.toInt conversion.result = [] ↔
      arg.toNat < 2 ^ 63 ∧ 43 ∉ conversion.flags := by
    have natural : 0 ≤ arg.toInt64.toInt ↔ arg.toNat < 2 ^ 63 := by
      rw [value]
      split <;> omega
    rw [i64Sign_eq_nil, greedy.result_alwaysSign, natural,
      decide_eq_false_iff_not]
  rw [← plain]
  by_cases noSign : i64Sign arg.toInt64.toInt conversion.result = []
  · have positive := (plain.mp noSign).1
    rw [if_pos positive] at value
    have lower : -2 ^ 63 < arg.toInt64.toInt := by omega
    have upper : arg.toInt64.toInt < 2 ^ 63 := by omega
    have isPrecision := greedy.result_precision (.inr isU) small
    rcases exists_digits lower upper isPrecision small with
      ⟨text, digits, printed, shown, decodes⟩
    rw [shows_iff greedy terminated (.inr isU) printed, shown, noSign,
      List.nil_append]
    rw [value, Int.natAbs_natCast] at decodes
    exact iff_of_true decodes rfl
  · rcases exists_printI64 arg.toInt64 conversion.result with ⟨text, printed⟩
    rcases List.exists_mem_of_ne_nil _ noSign with ⟨c, inside⟩
    rw [shows_iff greedy terminated (.inr isU) printed]
    refine iff_of_false ?_ noSign
    intro decodes
    have isDigit := decodes.digits c (mem_printI64 printed inside)
    rcases mem_i64Sign inside with rfl | rfl <;> cases isDigit

/--
Behind the sign or without one the digits have the value of the argument, for
`d` just when the argument is not the least number, and for `u` just when it is
no negative number and no sign is asked for.
-/
theorem decimal_output_iff
    (greedy : conversion.Greedy)
    (terminated : Terminated s conversion.text)
    (small : decimal (conversion.precision.getD []) ≤ i64BufLen) :
    (conversion.convspec = 100 →
      (Shows strings s arg (DecodesSigned
          (decimal (conversion.precision.getD [])) arg.toInt64.toInt) ↔
        arg.toNat ≠ 2 ^ 63)) ∧
    (conversion.convspec = 117 →
      (Shows strings s arg (Decodes
          (decimal (conversion.precision.getD [])) arg.toNat) ↔
        arg.toNat < 2 ^ 63 ∧ 43 ∉ conversion.flags)) :=
  ⟨shows_signed_iff greedy terminated small,
    shows_unsigned_iff greedy terminated small⟩

/-- The format `%8.3d` with the argument -42. -/
theorem decimal_output_iff_answer :
    ((100 : UInt8) = 100 →
      (Shows (fun _ => []) [37, 56, 46, 51, 100, 0] 18446744073709551574
          (DecodesSigned (decimal [51])
            (18446744073709551574 : UInt64).toInt64.toInt) ↔
        (18446744073709551574 : UInt64).toNat ≠ 2 ^ 63)) ∧
    ((100 : UInt8) = 117 →
      (Shows (fun _ => []) [37, 56, 46, 51, 100, 0] 18446744073709551574
          (Decodes (decimal [51]) (18446744073709551574 : UInt64).toNat) ↔
        (18446744073709551574 : UInt64).toNat < 2 ^ 63 ∧
          (43 : UInt8) ∉ ([] : CString))) := by
  have greedy : Conversion.Greedy ⟨⟨[], [56], some [51], .none⟩, 100⟩ := by
    refine ⟨nofun, ?_, by decide, ?_, rfl⟩
    · intro c inside
      rw [List.mem_singleton.mp inside]
      rfl
    · rintro digits same c inside
      cases same
      rw [List.mem_singleton.mp inside]
      rfl
  exact @decimal_output_iff (fun _ => []) [37, 56, 46, 51, 100, 0]
    ⟨⟨[], [56], some [51], .none⟩, 100⟩ 18446744073709551574 greedy
    ⟨by decide, [], rfl⟩ (by decide)

/--
The least argument of `d` is shown as `-'..--).0-*(+,))+(0(`, and the largest
one of `u` as `-1`.
-/
theorem decimal_output_wrong :
    printk (fun _ => []) [37, 100, 0] [9223372036854775808] =
      .ok (highlighted [45, 39, 46, 46, 45, 45, 41, 46, 48, 45, 42, 40, 43,
        44, 41, 41, 43, 40, 48, 40], []) ∧
    ¬ DecodesSigned 0 (-2 ^ 63) [45, 39, 46, 46, 45, 45, 41, 46, 48, 45, 42,
        40, 43, 44, 41, 41, 43, 40, 48, 40] ∧
    printk (fun _ => []) [37, 117, 0] [18446744073709551615] =
      .ok (highlighted [45, 49], []) ∧
    ¬ Decodes 0 18446744073709551615 [45, 49] := by
  refine ⟨by decide +kernel, ?_, by decide +kernel, ?_⟩
  · intro decodes
    have apostrophe := @DecodesSigned.mem 0 (-2 ^ 63) _ decodes 39 (by decide)
    simp [charIsDigit] at apostrophe
  · intro decodes
    have minus := decodes.digits 45 List.mem_cons_self
    cases minus

end ForsKernel.Print
