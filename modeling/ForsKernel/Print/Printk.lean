import ForsKernel.Print.Grammar

/-!
# `printk`

The output side of `generic/printk.c`: the two number printers, the switch on
the conversion character, and the loop over the format.  A conversion which
the parser does not accept leaves `NULL` as the format, which the condition of
the loop dereferences.
-/

namespace ForsKernel.Print

open ForsKernel.Forslib (Buffer Terminated)
open ForsKernel.Fs (CString)

/-! ## Numbers -/

/-- `PRINTK_I64_BUF_LEN`. -/
abbrev i64BufLen : Nat := 64

/-- `PRINTK_U64_HEX_LEN`. -/
abbrev u64HexLen : Nat := 16

/--
The loop which divides, with `i + 1` as its counter.  The digits of a negative
number are negative.
-/
def fillDigits (x : Int) : Nat → List Int → Except Fault (List Int)
  | 0, buf => if x = 0 then .ok buf else .error .digits
  | i + 1, buf =>
      if x = 0 then .ok buf
      else fillDigits (x.tdiv 10) i (buf.set i (x.tmod 10))

/-- The loop which prints, on the cells from `i` on. -/
def showDigits (spec : ConversionSpecifier) :
    Nat → Bool → List Int → CString
  | _, _, [] => []
  | i, leadingDone, digit :: buf =>
      let leadingDone := leadingDone || digit ≠ 0
      let shown := showDigits spec (i + 1) leadingDone buf
      if (i64BufLen : Int) - i ≤ spec.precision ∨ leadingDone ∨
          i = i64BufLen - 1 then
        UInt8.ofInt (48 + digit) :: shown
      else if (i64BufLen : Int) - i ≤ spec.fieldWidth then 32 :: shown
      else shown

/-- The sign, which `always_sign` adds to what is not negative. -/
def i64Sign
    (x : Int)
    (spec : ConversionSpecifier) :
    CString :=
  if x < 0 then [45] else if spec.alwaysSign then [43] else []

/-- `x *= -1` gives the least `int64_t` itself. -/
def i64Magnitude (x : Int) : Int :=
  if x < 0 then (x * -1).bmod (2 ^ 64) else x

def printI64
    (x : Int)
    (spec : ConversionSpecifier) :
    Except Fault CString := do
  let buf ← fillDigits (i64Magnitude x) i64BufLen
    (List.replicate i64BufLen 0)
  .ok (i64Sign x spec ++ showDigits spec 0 false buf)

/-- `"0123456789abcdef"`. -/
def hexDigits : CString :=
  [48, 49, 50, 51, 52, 53, 54, 55, 56, 57, 97, 98, 99, 100, 101, 102]

/-- The loop of `print_u64_hex`, with `i + 1` as its counter. -/
def showHex
    (x : UInt64)
    (spec : ConversionSpecifier) :
    Nat → Bool → CString
  | 0, _ => []
  | i + 1, leadingDone =>
      let ind := ((x >>> UInt64.ofNat (4 * i)) &&& 0xf).toNat
      let leadingDone := leadingDone || ind ≠ 0
      let shown := showHex x spec i leadingDone
      if (u64HexLen : Int) - i ≤ spec.precision ∨ leadingDone ∨ i = 0 then
        hexDigits.getD ind 0 :: shown
      else shown

def printU64Hex
    (x : UInt64)
    (uppercase : Bool)
    (spec : ConversionSpecifier) :
    CString :=
  let lead := if spec.alternateForm then
    if uppercase then [48, 88] else [48, 120] else []
  lead ++ showHex x spec u64HexLen false

/-! ## Conversions -/

/-- The characters up to the terminator. -/
def kputs : Buffer → Except Fault CString
  | [] => .error .string
  | c :: s => if c = 0 then .ok [] else (kputs s).map (c :: ·)

/-- What `va_arg` takes: every argument fills a word of 64 bits. -/
def vaArg : List UInt64 → Except Fault (UInt64 × List UInt64)
  | [] => .error .argument
  | arg :: args => .ok (arg, args)

/-- The switch on the conversion character, with the strings in memory. -/
def convert
    (strings : UInt64 → Buffer)
    (spec : ConversionSpecifier)
    (args : List UInt64) :
    Except Fault (CString × List UInt64) :=
  if spec.convspec = 115 then do
    let (arg, args) ← vaArg args
    let text ← kputs (strings arg)
    .ok (text, args)
  else if spec.convspec = 99 then do
    let (arg, args) ← vaArg args
    .ok ([arg.toUInt8], args)
  else if spec.convspec = 100 ∨ spec.convspec = 117 then do
    let (arg, args) ← vaArg args
    let text ← printI64 arg.toInt64.toInt spec
    .ok (text, args)
  else if spec.convspec = 120 ∨ spec.convspec = 112 then do
    let (arg, args) ← vaArg args
    .ok (printU64Hex arg false spec, args)
  else .ok ([], args)

/-- What is sent: a character of the text, or an escape around a conversion. -/
inductive Emission where
  | character (c : UInt8)
  | escape (text : CString)
deriving DecidableEq, Repr

/-- The characters without the escapes. -/
def visible : List Emission → CString
  | [] => []
  | .character c :: sent => c :: visible sent
  | .escape _ :: sent => visible sent

/-- A conversion between its escapes `\x1b[36m` and `\x1b[37m`. -/
def highlighted (text : CString) : List Emission :=
  .escape [27, 91, 51, 54, 109] ::
    (text.map .character ++ [.escape [27, 91, 51, 55, 109]])

/-! ## The loop -/

/-- What is sent, and the arguments which are left over. -/
def printk
    (strings : UInt64 → Buffer)
    (fmt : Buffer)
    (args : List UInt64) :
    Except Fault (List Emission × List UInt64) :=
  match fmt with
  | [] => .error .format
  | c :: rest =>
      if c = 0 then .ok ([], args)
      else if c ≠ 37 then do
        let (sent, left) ← printk strings rest args
        .ok (.character c :: sent, left)
      else
        match _ran : parseConversion (c :: rest) with
        | .error fault => .error fault
        | .ok (answer, spec) =>
            match convert strings spec args with
            | .error fault => .error fault
            | .ok (text, args) =>
                match answer with
                | none => .error .null
                | some fmt => do
                    let (sent, left) ← printk strings fmt args
                    .ok (highlighted text ++ sent, left)
termination_by fmt.length
decreasing_by
  · exact Nat.lt_succ_self _
  · exact parseConversion_shorter _ran

/-! ## The buffer -/

/-- A number with as many digits as there are cells fits into them. -/
theorem exists_fillDigits
    {x : Int}
    {i : Nat}
    (small : x.natAbs < 10 ^ i)
    (buf : List Int) :
    ∃ filled, fillDigits x i buf = .ok filled := by
  induction i generalizing x buf with
  | zero =>
      have zero : x = 0 := by
        rw [Nat.pow_zero] at small
        omega
      exact ⟨buf, by rw [fillDigits, if_pos zero]⟩
  | succ i induction =>
      rw [fillDigits]
      split
      · exact ⟨buf, rfl⟩
      · apply induction
        rw [Nat.pow_succ] at small
        rw [Int.natAbs_tdiv]
        exact (Nat.div_lt_iff_lt_mul (by decide)).mpr small

/-- The buffer is large enough for every `int64_t`. -/
theorem exists_printI64
    (x : Int64)
    (spec : ConversionSpecifier) :
    ∃ text, printI64 x.toInt spec = .ok text := by
  have magnitude : (i64Magnitude x.toInt).natAbs ≤ 2 ^ 63 := by
    have lower := Int64.le_toInt x
    have upper := Int64.toInt_lt x
    rw [i64Magnitude]
    split
    · rw [Int.bmod_def]
      split <;> omega
    · omega
  have small : (i64Magnitude x.toInt).natAbs < 10 ^ i64BufLen :=
    Nat.lt_of_le_of_lt magnitude (by decide)
  rcases exists_fillDigits small (List.replicate i64BufLen 0) with
    ⟨filled, isFilled⟩
  exact ⟨_, by rw [printI64, isFilled, Forslib.ok_bind]⟩

/-! ## Rounds of the loop -/

theorem exists_of_bind
    {α β : Type}
    {x : Except Fault α}
    {next : α → Except Fault β}
    {b : β}
    (ran : (x >>= next) = .ok b) :
    ∃ a, x = .ok a ∧ next a = .ok b := by
  cases x with
  | error fault => cases ran
  | ok a => exact ⟨a, rfl, ran⟩

@[simp]
theorem visible_append (first second : List Emission) :
    visible (first ++ second) = visible first ++ visible second := by
  induction first with
  | nil => rfl
  | cons emission first induction =>
      cases emission with
      | character c =>
          rw [List.cons_append, visible, visible, induction, List.cons_append]
      | escape text => exact induction

@[simp]
theorem visible_characters (text : CString) :
    visible (text.map .character) = text := by
  induction text with
  | nil => rfl
  | cons c text induction => rw [List.map_cons, visible, induction]

@[simp]
theorem visible_highlighted (text : CString) :
    visible (highlighted text) = text := by
  rw [highlighted, visible, visible_append, visible_characters, visible,
    visible, List.append_nil]

variable
  {strings : UInt64 → Buffer}
  {args : List UInt64}
  {rest : Buffer}

theorem printk_end : printk strings (0 :: rest) args = .ok ([], args) := by
  rw [printk, if_pos rfl]

theorem printk_literal
    {c : UInt8}
    (nonzero : c ≠ 0)
    (plain : c ≠ 37) :
    printk strings (c :: rest) args =
      printk strings rest args >>= fun (sent, left) =>
        .ok (.character c :: sent, left) := by
  rw [printk, if_neg nonzero, if_pos plain]

/-- A conversion which is not accepted takes no argument. -/
theorem printk_rejected
    {spec : ConversionSpecifier}
    (rejected : parseConversion (37 :: rest) = .ok (none, spec))
    (unset : spec.convspec = 0) :
    printk strings (37 :: rest) args = .error .null := by
  have nothing : convert strings spec args = .ok ([], args) := by
    simp [convert, unset]
  rw [printk, if_neg (by decide), if_neg (by decide)]
  split
  · rename_i other
    rw [rejected] at other
    cases other
  · rename_i other
    rw [rejected] at other
    cases other
    rw [nothing]

theorem printk_accepted
    {spec : ConversionSpecifier}
    {fmt : Buffer}
    (accepted : parseConversion (37 :: rest) = .ok (some fmt, spec)) :
    printk strings (37 :: rest) args =
      convert strings spec args >>= fun (text, args) =>
        printk strings fmt args >>= fun (sent, left) =>
          .ok (highlighted text ++ sent, left) := by
  rw [printk, if_neg (by decide), if_neg (by decide)]
  split
  · rename_i other
    rw [accepted] at other
    cases other
  · rename_i other
    rw [accepted] at other
    cases other
    cases convert strings spec args <;> rfl

end ForsKernel.Print
