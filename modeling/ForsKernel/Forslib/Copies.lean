import Mathlib.Data.List.GetD
import ForsKernel.Forslib.Strings
import ForsKernel.Fs.Cursor
import ForsKernel.Proc.Process

/-!
# Bounded copies

`strncpy` and `stpncpy` put a terminator behind what they have copied, also
behind `n` bytes, and leave the bytes after it as they were.  The name of a
process and the buffer of a reader are copied to in this way.
-/

namespace ForsKernel.Forslib

open ForsKernel.Fs (CString)
open ForsKernel.Fs.TestFs (msg)
open ForsKernel.Proc (ProcessSpec createProcess procNameLength)

/-! ## What is copied -/

section

variable
  {dest src : Buffer}
  {a : CString}

/-- The copy ends with a terminator, wherever it stops. -/
theorem stpncpy_eq
    (isSrc : Terminated src a)
    {n : Nat}
    (room : min n a.length < dest.length) :
    stpncpy dest src n = .ok (min n a.length,
      a.take n ++ 0 :: dest.drop (min n a.length + 1)) := by
  induction src generalizing dest a n with
  | nil => exact (not_terminated_nil a isSrc).elim
  | cons b src induction =>
      cases dest with
      | nil => cases room
      | cons d dest =>
          cases a with
          | nil => simp [stpncpy, isSrc.head]
          | cons x a =>
              rcases isSrc.tail with ⟨nonzero, rfl, rest⟩
              cases n with
              | zero => simp [stpncpy]
              | succ n =>
                  have count : min (n + 1) (a.length + 1) =
                      min n a.length + 1 := by omega
                  rw [List.length_cons, count, List.length_cons] at room
                  have copied := @induction dest a rest n (by omega)
                  simp [stpncpy, nonzero, copied, count, Except.map]

/-- There is no place for the terminator. -/
theorem stpncpy_overflow
    (isSrc : Terminated src a)
    {n : Nat}
    (full : dest.length ≤ min n a.length) :
    stpncpy dest src n = .error .write := by
  induction src generalizing dest a n with
  | nil => exact (not_terminated_nil a isSrc).elim
  | cons b src induction =>
      cases dest with
      | nil => rfl
      | cons d dest =>
          cases a with
          | nil => simp at full
          | cons x a =>
              rcases isSrc.tail with ⟨nonzero, rfl, rest⟩
              cases n with
              | zero => simp at full
              | succ n =>
                  rw [List.length_cons, List.length_cons] at full
                  have stops := @induction dest a rest n (by omega)
                  simp [stpncpy, nonzero, stops, Except.map]

/-- The bytes from `n` on stay, and those before are the padded string. -/
def CopiesWithin
    (dest : Buffer)
    (a : CString)
    (n : Nat)
    (result : Except Fault Buffer) :
    Prop :=
  ∃ dest', result = .ok dest' ∧ dest'.drop n = dest.drop n ∧
    dest'.take n = a.take n ++ List.replicate (n - a.length) 0

/--
A string which is shorter than `n` is copied to a field whose other bytes are
zero already, and behind a longer one there is a zero already.
-/
def CopyFits
    (dest : Buffer)
    (a : CString)
    (n : Nat) :
    Prop :=
  if a.length < n then ∀ i, a.length < i → i < n → dest[i]? = some 0
  else dest[n]? = some 0

theorem copiesWithin_ok
    {a : CString}
    {n : Nat}
    {dest' : Buffer} :
    CopiesWithin dest a n (.ok dest') ↔ dest'.drop n = dest.drop n ∧
      dest'.take n = a.take n ++ List.replicate (n - a.length) 0 := by
  constructor
  · rintro ⟨other, same, holds⟩
    cases same
    exact holds
  · intro holds
    exact ⟨dest', rfl, holds⟩

/-- Behind a short string the padding has to be there. -/
theorem padded_iff {k n : Nat} :
    (dest.drop k).take (n - k) = List.replicate (n - k) 0 ↔
      ∀ i, k ≤ i → i < n → dest[i]? = some 0 := by
  rw [List.ext_getElem?_iff]
  constructor
  · intro same i above below
    have here := same (i - k)
    have place : k + (i - k) = i := by omega
    rw [List.getElem?_take_of_lt (by omega), List.getElem?_drop, place,
      List.getElem?_replicate_of_lt (by omega)] at here
    exact here
  · intro zeros i
    by_cases lt : i < n - k
    · rw [List.getElem?_take_of_lt lt, List.getElem?_drop,
        List.getElem?_replicate_of_lt lt]
      exact zeros (k + i) (by omega) (by omega)
    · rw [List.getElem?_eq_none, List.getElem?_eq_none]
      · rw [List.length_replicate]
        omega
      · rw [List.length_take]
        omega

theorem strncpy_eq
    (isSrc : Terminated src a)
    {n : Nat}
    (room : min n a.length < dest.length) :
    strncpy dest src n =
      .ok (a.take n ++ 0 :: dest.drop (min n a.length + 1)) := by
  rw [strncpy, stpncpy_eq isSrc room]
  rfl

theorem copiesWithin_of_lt
    (isSrc : Terminated src a)
    {n : Nat}
    (inside : n ≤ dest.length)
    (short : a.length < n) :
    CopiesWithin dest a n (strncpy dest src n) ↔
      ∀ i, a.length < i → i < n → dest[i]? = some 0 := by
  have count : min n a.length = a.length := by omega
  have whole : a.take n = a := List.take_of_length_le (by omega)
  have one : n - a.length = (n - (a.length + 1)) + 1 := by omega
  have rest : a.length + 1 + (n - (a.length + 1)) = n := by omega
  rw [strncpy_eq isSrc (by omega), copiesWithin_ok, count, whole,
    List.drop_append, List.take_append, List.take_of_length_le (by omega),
    List.drop_of_length_le (by omega), one, List.take_succ_cons,
    List.drop_succ_cons, List.replicate_succ, List.drop_drop,
    rest, List.append_cancel_left_eq, List.cons.injEq, padded_iff]
  constructor
  · rintro ⟨_, _, padded⟩
    exact padded
  · intro padded
    exact ⟨List.nil_append _, rfl, padded⟩

/-- What lies behind the field stays. -/
def KeepsBehind
    (dest : Buffer)
    (n : Nat)
    (result : Except Fault Buffer) :
    Prop :=
  ∃ dest', result = .ok dest' ∧ dest'.drop n = dest.drop n

theorem keepsBehind_ok
    {n : Nat}
    {dest' : Buffer} :
    KeepsBehind dest n (.ok dest') ↔ dest'.drop n = dest.drop n := by
  constructor
  · rintro ⟨other, same, behind⟩
    cases same
    exact behind
  · intro behind
    exact ⟨dest', rfl, behind⟩

theorem keepsBehind_iff
    (isSrc : Terminated src a)
    {n : Nat}
    (inside : n ≤ dest.length) :
    KeepsBehind dest n (strncpy dest src n) ↔
      a.length < n ∨ dest[n]? = some 0 := by
  by_cases short : a.length < n
  · have count : min n a.length = a.length := by omega
    have rest : a.length + 1 + (n - (a.length + 1)) = n := by omega
    rw [strncpy_eq isSrc (by omega), keepsBehind_ok]
    refine iff_of_true ?_ (.inl short)
    rw [count, List.take_of_length_le (by omega), List.drop_append,
      List.drop_of_length_le (by omega),
      show n - a.length = (n - (a.length + 1)) + 1 by omega,
      List.drop_succ_cons, List.drop_drop, rest, List.nil_append]
  · rw [or_iff_right short]
    have count : min n a.length = n := by omega
    by_cases room : n < dest.length
    · have length : (a.take n).length = n := by
        rw [List.length_take, count]
      rw [strncpy_eq isSrc (by omega), keepsBehind_ok, count,
        List.drop_left' length, List.drop_eq_getElem_cons room,
        List.getElem?_eq_getElem room, List.cons.injEq]
      simp [eq_comm]
    · have outside : dest[n]? = none := List.getElem?_eq_none (by omega)
      have overflow := @stpncpy_overflow dest src a isSrc n (by omega)
      rw [KeepsBehind, strncpy, overflow, outside]
      simp [Except.map]

theorem copiesWithin_of_le
    (isSrc : Terminated src a)
    {n : Nat}
    (inside : n ≤ dest.length)
    (long : n ≤ a.length) :
    CopiesWithin dest a n (strncpy dest src n) ↔ dest[n]? = some 0 := by
  have count : min n a.length = n := by omega
  have length : (a.take n).length = n := by
    rw [List.length_take, count]
  have none_left : n - a.length = 0 := by omega
  have keeps := keepsBehind_iff isSrc inside
  rw [or_iff_right (Nat.not_lt.mpr long)] at keeps
  rw [← keeps]
  constructor
  · rintro ⟨dest', copied, behind, _⟩
    exact ⟨dest', copied, behind⟩
  · rintro ⟨dest', copied, behind⟩
    refine ⟨dest', copied, behind, ?_⟩
    by_cases room : n < dest.length
    · rw [strncpy_eq isSrc (by omega)] at copied
      rw [← Except.ok.inj copied, List.take_left' length, none_left]
      simp
    · have overflow := @stpncpy_overflow dest src a isSrc n (by omega)
      rw [strncpy, overflow] at copied
      cases copied

theorem copiesWithin_iff
    (isSrc : Terminated src a)
    {n : Nat}
    (inside : n ≤ dest.length) :
    CopiesWithin dest a n (strncpy dest src n) ↔ CopyFits dest a n := by
  rw [CopyFits]
  split
  · exact copiesWithin_of_lt isSrc inside ‹_›
  · exact copiesWithin_of_le isSrc inside (by omega)

end

/-! ## The name of a process -/

/-- The bytes of a pointer in memory, the lowest one first. -/
def pointerBytes (pointer : Nat) : Buffer :=
  (List.range 8).map fun i => (pointer / 256 ^ i % 256).toUInt8

theorem pointerBytes_eq (pointer : Nat) :
    pointerBytes pointer = (pointer % 256).toUInt8 ::
      (List.range 7).map fun i => (pointer / 256 / 256 ^ i % 256).toUInt8 := by
  have later : ∀ i, pointer / 256 ^ (i + 1) = pointer / 256 / 256 ^ i := by
    intro i
    rw [Nat.div_div_eq_div_mul, Nat.pow_succ']
  rw [pointerBytes, List.range_succ_eq_map, List.map_cons, List.map_map,
    Nat.pow_zero, Nat.div_one]
  simp only [Function.comp_def, Nat.succ_eq_add_one, later]

/-- The lowest byte of a pointer is cleared, and the others stay. -/
theorem pointerBytes_clear (pointer : Nat) :
    pointerBytes (pointer / 256 * 256) = 0 :: (pointerBytes pointer).tail := by
  rw [pointerBytes_eq, pointerBytes_eq pointer, Nat.mul_mod_left,
    Nat.mul_div_cancel _ (by decide)]
  rfl

theorem length_pointerBytes (pointer : Nat) :
    (pointerBytes pointer).length = 8 := by
  rw [pointerBytes, List.length_map, List.length_range]

theorem Terminated.takeWhile
    {s : Buffer}
    {a : CString}
    (terminated : Terminated s a) :
    s.takeWhile (· ≠ 0) = a := by
  rcases terminated with ⟨noNul, more, rfl⟩
  have letters : ∀ c ∈ a, decide (c ≠ 0) = true := by
    rintro c inside
    rw [decide_eq_true_eq]
    rintro rfl
    exact noNul inside
  rw [List.takeWhile_append_of_pos letters, List.takeWhile_cons_of_neg]
  · exact List.append_nil a
  · simp

/-- A string has no terminator in it. -/
theorem takeWhile_take_of_noNul
    {a : CString}
    (noNul : 0 ∉ a)
    (n : Nat) :
    (a.take n).takeWhile (· ≠ 0) = a.take n := by
  rw [List.takeWhile_eq_self_iff]
  intro c inside
  have nonzero : c ≠ 0 := by
    rintro rfl
    exact noNul (List.mem_of_mem_take inside)
  simpa using nonzero

/--
The copy of a name into the field in front of `cwd` is what `create_process`
does with the two.
-/
theorem strncpy_name
    (spec : ProcessSpec)
    (tid : Nat)
    (old : Proc.Process)
    {name field more : Buffer}
    (isName : Terminated name spec.name)
    (fieldLength : field.length = procNameLength) :
    ∃ field', field'.length = procNameLength ∧
      strncpy (field ++ pointerBytes spec.defaultCwd ++ more) name
          procNameLength =
        .ok (field' ++ pointerBytes (spec.start tid old).cwd ++ more) ∧
      field'.takeWhile (· ≠ 0) = (spec.start tid old).name := by
  have noNul := takeWhile_take_of_noNul isName.1
  by_cases long : procNameLength ≤ spec.name.length
  · have count : min procNameLength spec.name.length = procNameLength := by
      omega
    have cwd : (spec.start tid old).cwd = spec.defaultCwd / 256 * 256 :=
      if_pos long
    refine ⟨spec.name.take procNameLength, ?_, ?_, noNul _⟩
    · rw [List.length_take, count]
    · rw [strncpy_eq isName, count, cwd, pointerBytes_clear,
        pointerBytes_eq spec.defaultCwd, ← fieldLength]
      · simp
      · simp only [List.length_append, length_pointerBytes]
        omega
  · have count : min procNameLength spec.name.length = spec.name.length := by
      omega
    have cwd : (spec.start tid old).cwd = spec.defaultCwd := if_neg long
    have whole : spec.name.take procNameLength = spec.name :=
      List.take_of_length_le (by omega)
    refine ⟨spec.name ++ 0 :: field.drop (spec.name.length + 1), ?_, ?_, ?_⟩
    · simp only [List.length_append, List.length_cons, List.length_drop]
      omega
    · rw [strncpy_eq isName, count, cwd, whole, List.append_assoc,
        List.drop_append_of_le_length (by omega)]
      · simp
      · simp only [List.length_append, length_pointerBytes]
        omega
    · have name := noNul procNameLength
      rw [whole] at name
      rw [List.takeWhile_append, name]
      simp [ProcessSpec.start, whole]

/-- A new process keeps its working directory if its name has an end. -/
theorem createProcess_cwd_iff
    {spec : ProcessSpec}
    {procs procs' : Proc.ProcTable}
    {tid : Nat}
    (created : createProcess spec procs = ((tid : Int), procs')) :
    (procs' tid).cwd = spec.defaultCwd ↔
      spec.name.length < procNameLength ∨ spec.defaultCwd % 256 = 0 := by
  rcases Proc.createProcess_cases spec procs with
    refused | ⟨slot, _, _, accepted⟩
  · rw [refused] at created
    have negative := congrArg Prod.fst created
    simp only at negative
    omega
  · rw [accepted] at created
    cases created
    rw [Function.update_self]
    simp only [ProcessSpec.start]
    split <;> omega

/-! ## Reading from the test file system -/

/-- `tfs_read`, with the caller's buffer and a cursor in the file. -/
def tfsRead
    (kbuffer : Buffer)
    (cursor nbytes : Nat) :
    Except Fault (Int × Buffer) :=
  if msg.length ≤ cursor then .ok (-1, kbuffer)
  else
    (strncpy kbuffer (msg.drop cursor) nbytes).map fun kbuffer =>
      ((min nbytes msg.length : Nat), kbuffer)

theorem terminated_msg
    {cursor : Nat}
    (inside : cursor < msg.length) :
    Terminated (msg.drop cursor) (msg.dropLast.drop cursor) := by
  have last : cursor ≤ msg.dropLast.length := by
    rw [List.length_dropLast]
    omega
  refine ⟨?_, [], ?_⟩
  · intro zero
    exact Fs.msg_ne_zero 0 (List.mem_of_mem_drop zero) rfl
  · rw [← List.drop_append_of_le_length last, Fs.msg_dropLast]

/-- What is read is what the file system's interface passes on. -/
theorem tfsRead_eq
    {kbuffer : Buffer}
    {cursor nbytes : Nat}
    (small : nbytes < 2 ^ 64)
    (room : nbytes < kbuffer.length) :
    tfsRead kbuffer cursor nbytes =
      .ok ((Fs.TestFs.read cursor nbytes).1,
        (Fs.TestFs.read cursor nbytes).2 ++
          kbuffer.drop (Fs.TestFs.read cursor nbytes).2.length) := by
  by_cases outside : msg.length ≤ cursor
  · have start : Fs.TestFs.readStart cursor = none := by
      rw [Fs.TestFs.readStart, if_pos (by omega)]
    simp [tfsRead, Fs.TestFs.read, outside, start]
  · have start : Fs.TestFs.readStart cursor = some (cursor : Int) := by
      rw [Fs.TestFs.readStart, if_neg (by omega)]
    have count : ((nbytes : Int) % 2 ^ 64).toNat = nbytes := by omega
    have isText := terminated_msg (Nat.not_le.mp outside)
    have text : (msg.drop cursor).takeWhile (· ≠ 0) =
        msg.dropLast.drop cursor := isText.takeWhile
    simp only [Fs.TestFs.read, start, count, Int.toNat_natCast, text]
    rw [tfsRead, if_neg outside, strncpy_eq isText (by omega)]
    simp [Except.map, List.length_take]

/-- Nothing is written behind the bytes which were asked for. -/
def ReadsWithin
    (kbuffer : Buffer)
    (cursor nbytes : Nat) :
    Prop :=
  KeepsBehind kbuffer nbytes
    ((tfsRead kbuffer cursor nbytes).map Prod.snd)

/-- A read stays inside of the request if the rest of the text does. -/
theorem readsWithin_iff
    {kbuffer : Buffer}
    {cursor nbytes : Nat}
    (inside : nbytes ≤ kbuffer.length) :
    ReadsWithin kbuffer cursor nbytes ↔
      msg.length ≤ cursor + nbytes ∨ kbuffer[nbytes]? = some 0 := by
  by_cases outside : msg.length ≤ cursor
  · refine iff_of_true ?_ (.inl (by omega))
    rw [ReadsWithin, tfsRead, if_pos outside]
    exact keepsBehind_ok.mpr rfl
  · have copy : (tfsRead kbuffer cursor nbytes).map Prod.snd =
        strncpy kbuffer (msg.drop cursor) nbytes := by
      rw [tfsRead, if_neg outside]
      cases strncpy kbuffer (msg.drop cursor) nbytes <;> rfl
    have isText := terminated_msg (Nat.not_le.mp outside)
    rw [ReadsWithin, copy, keepsBehind_iff isText inside, List.length_drop,
      List.length_dropLast]
    have short : msg.length - 1 - cursor < nbytes ↔
        msg.length ≤ cursor + nbytes := by omega
    rw [short]

/--
A bounded copy stays inside of its field and fills it just when the source is
shorter than the field and the rest of the field is zero already, or else when
the byte behind the field is.  A process keeps its `cwd`, and a reader the
bytes behind its buffer, on the same condition.
-/
theorem bounded_copies_iff
    {dest src : Buffer}
    {a : CString}
    {n : Nat}
    (isSrc : Terminated src a)
    (inside : n ≤ dest.length) :
    (CopiesWithin dest a n ((stpncpy dest src n).map Prod.snd) ↔
        CopyFits dest a n) ∧
      (CopiesWithin dest a n (strncpy dest src n) ↔ CopyFits dest a n) ∧
      (∀ (spec : ProcessSpec) (procs procs' : Proc.ProcTable) (tid : Nat),
        createProcess spec procs = ((tid : Int), procs') →
        ((procs' tid).cwd = spec.defaultCwd ↔
          spec.name.length < procNameLength ∨
            spec.defaultCwd % 256 = 0)) ∧
      (∀ (kbuffer : Buffer) (cursor nbytes : Nat),
        nbytes ≤ kbuffer.length →
        (ReadsWithin kbuffer cursor nbytes ↔
          msg.length ≤ cursor + nbytes ∨ kbuffer[nbytes]? = some 0)) := by
  refine ⟨copiesWithin_iff isSrc inside, copiesWithin_iff isSrc inside, ?_,
    ?_⟩
  · intro spec procs procs' tid created
    exact createProcess_cwd_iff created
  · intro kbuffer cursor nbytes room
    exact readsWithin_iff room

/-- The string `a` is copied to three bytes. -/
theorem bounded_copies_iff_letter :
    (CopiesWithin [1, 0, 0] [97] 3
        ((stpncpy [1, 0, 0] [97, 0] 3).map Prod.snd) ↔
        CopyFits [1, 0, 0] [97] 3) ∧
      (CopiesWithin [1, 0, 0] [97] 3 (strncpy [1, 0, 0] [97, 0] 3) ↔
        CopyFits [1, 0, 0] [97] 3) ∧
      (∀ (spec : ProcessSpec) (procs procs' : Proc.ProcTable) (tid : Nat),
        createProcess spec procs = ((tid : Int), procs') →
        ((procs' tid).cwd = spec.defaultCwd ↔
          spec.name.length < procNameLength ∨
            spec.defaultCwd % 256 = 0)) ∧
      (∀ (kbuffer : Buffer) (cursor nbytes : Nat),
        nbytes ≤ kbuffer.length →
        (ReadsWithin kbuffer cursor nbytes ↔
          msg.length ≤ cursor + nbytes ∨ kbuffer[nbytes]? = some 0)) :=
  @bounded_copies_iff [1, 0, 0] [97, 0] [97] 3 ⟨by decide, [], rfl⟩
    (by decide)

/--
Two letters into a field of two bytes clear the byte behind it, and one letter
into four bytes leaves the last of them.
-/
theorem strncpy_overruns :
    strncpy [1, 1, 7] [97, 98, 0] 2 = .ok [97, 98, 0] ∧
      strncpy [1, 1] [97, 98, 0] 2 = .error .write ∧
      strncpy [1, 1, 1, 1] [97, 0] 4 = .ok [97, 0, 1, 1] ∧
      ¬ CopyFits [1, 1, 7] [97, 98] 2 ∧ ¬ CopyFits [1, 1, 1, 1] [97] 4 := by
  refine ⟨by decide, by decide, by decide, by simp [CopyFits], ?_⟩
  intro fits
  rw [CopyFits, if_pos (by decide)] at fits
  have last := fits 2 (by decide) (by decide)
  cases last

end ForsKernel.Forslib
