import Mathlib.Algebra.Ring.Int.Defs
import ForsKernel.Lib.Transition
import ForsKernel.Fs.OpenFiles
import ForsKernel.Fs.TestFs

/-!
# The cursor of an open file

`vfs_seek` moves the cursor, and `tfs_read` copies from it.  A relative seek
raises a negative cursor to zero before it adds the offset, and not after, so
that the sum may be negative or too large for a `long`.  Reading never moves
the cursor, copies at most the rest of the text, and ends what it copies with a
terminator.
-/

namespace ForsKernel.Fs

open ForsKernel.Lib.Transition

variable
  {ω : Type*}
  {mounts : Nat → FsOps ω}

/-! ## Seeking -/

/-- The values of a `long`. -/
def IsLong (value : Int) : Prop :=
  -2 ^ 63 ≤ value ∧ value < 2 ^ 63

instance (value : Int) : Decidable (IsLong value) :=
  inferInstanceAs (Decidable (_ ∧ _))

/-- An offset relative to the cursor leads to a place in the file. -/
def StaysInFile (cursor offset anchor : Int) : Prop :=
  anchor = anchRel → 0 ≤ max cursor 0 + offset ∧ max cursor 0 + offset < 2 ^ 63

instance (cursor offset anchor : Int) :
    Decidable (StaysInFile cursor offset anchor) :=
  inferInstanceAs (Decidable (_ → _))

section

variable {cursor offset anchor : Int}

theorem bmod_long_nonneg
    {sum : Int}
    (lower : -2 ^ 63 ≤ sum)
    (upper : sum < 2 ^ 64) :
    0 ≤ sum.bmod (2 ^ 64) ↔ 0 ≤ sum ∧ sum < 2 ^ 63 := by
  rw [Int.bmod_def]
  split <;> omega

theorem bmod_long_isLong (sum : Int) : IsLong (sum.bmod (2 ^ 64)) := by
  have lower := Int.le_bmod (x := sum) (m := 2 ^ 64) (by decide)
  have upper := Int.bmod_lt (x := sum) (m := 2 ^ 64) (by decide)
  exact ⟨by omega, by omega⟩

/-- A seek which fails leaves the cursor where it is. -/
theorem seekCursor_failed
    (failed : (seekCursor cursor offset anchor).1 = -1) :
    (seekCursor cursor offset anchor).2 = cursor := by
  rw [seekCursor] at failed ⊢
  split_ifs at failed ⊢ <;> rfl

theorem seekCursor_isLong
    (long : IsLong cursor)
    (offsetLong : IsLong offset) :
    IsLong (seekCursor cursor offset anchor).2 := by
  rw [seekCursor]
  split
  · exact bmod_long_isLong _
  · split_ifs
    · exact long
    · exact offsetLong
    · exact long
    · exact long

/-- From a cursor which is not negative, when the next one is not either. -/
theorem seekCursor_nonneg_iff
    (positive : 0 ≤ cursor)
    (long : IsLong cursor)
    (offsetLong : IsLong offset) :
    0 ≤ (seekCursor cursor offset anchor).2 ↔
      StaysInFile cursor offset anchor := by
  rcases long with ⟨_, upper⟩
  rcases offsetLong with ⟨lower', upper'⟩
  have raised : (if cursor < 0 then 0 else cursor) = cursor :=
    if_neg (by omega)
  have same : max cursor 0 = cursor := Int.max_eq_left positive
  rw [seekCursor, StaysInFile, same, raised]
  split_ifs with relative fromStart negative fromEnd
  · simp only [relative, true_implies]
    exact bmod_long_nonneg (by omega) (by omega)
  all_goals simp only [relative, false_implies, iff_true]
  all_goals omega

end

/-- `f_seek` accepts every call, and leaves the cursor and the node alone. -/
def AcceptsSeeks (fs : FsOps ω) : Prop :=
  ∀ file node offset anchor fsState,
    0 ≤ (fs.fSeek file node offset anchor fsState).ret ∧
      (fs.fSeek file node offset anchor fsState).cursor = file.cursor ∧
      (fs.fSeek file node offset anchor fsState).node = node

/-- The file is open, on a node which is mounted. -/
structure IsOpen
    (vfs : Vfs ω)
    (fd : Nat) :
    Prop where
  lt : fd < numOpenFiles
  mounted : ∃ node mount, (vfs.openFiles fd).node = some node ∧
    (vfs.fsnodes node).mountpoint = some mount
  long : IsLong (vfs.openFiles fd).cursor

section

variable
  {vfs after : Vfs ω}
  {fd : Nat}
  {offset anchor ret : Int}

/-- A seek moves the cursor as the switch says, and nothing else. -/
theorem IsOpen.vfsSeek_eq
    (accepts : ∀ mount, AcceptsSeeks (mounts mount))
    (isOpen : IsOpen vfs fd)
    (returned : vfsSeek mounts fd offset anchor vfs = some (ret, after)) :
    ret = (seekCursor (vfs.openFiles fd).cursor offset anchor).1 ∧
      after.openFiles fd = { vfs.openFiles fd with
        cursor :=
          (seekCursor (vfs.openFiles fd).cursor offset anchor).2 } ∧
      after.fsnodes = vfs.fsnodes := by
  rcases isOpen.mounted with ⟨node, mount, isNode, mounted⟩
  rcases accepts mount (vfs.openFiles fd) (vfs.fsnodes node) offset anchor
    vfs.fsState with ⟨accepted, sameCursor, sameNode⟩
  rw [vfsSeek, withFile, if_neg (Nat.not_le.mpr isOpen.lt)] at returned
  simp only [isNode, mounted, Option.bind_some] at returned
  rw [if_neg (Int.not_lt.mpr accepted)] at returned
  cases returned
  refine ⟨?_, ?_, ?_⟩
  · simp [Vfs.fileReplied, Vfs.setFile, sameCursor]
  · simp [Vfs.fileReplied, Vfs.setFile, sameCursor]
  · simp [Vfs.fileReplied, Vfs.setFile, Vfs.setNode, sameNode]

theorem IsOpen.vfsSeek
    (accepts : ∀ mount, AcceptsSeeks (mounts mount))
    (isOpen : IsOpen vfs fd)
    (offsetLong : IsLong offset)
    (returned : Fs.vfsSeek mounts fd offset anchor vfs = some (ret, after)) :
    IsOpen after fd := by
  rcases isOpen.vfsSeek_eq accepts returned with ⟨_, file, nodes⟩
  refine ⟨isOpen.lt, ?_, ?_⟩
  · rw [file, nodes]
    exact isOpen.mounted
  · rw [file]
    exact seekCursor_isLong isOpen.long offsetLong

end

/-- A call of `vfs_seek` on one file. -/
structure SeekOp where
  offset : Int
  anchor : Int

/-- The cursor of an open file is moved to and fro. -/
def seekSystem
    (mounts : Nat → FsOps ω)
    (fd : Nat) :
    System (Vfs ω) SeekOp where
  init := fun vfs => IsOpen vfs fd ∧ 0 ≤ (vfs.openFiles fd).cursor
  legal := fun _ op => IsLong op.offset
  step := fun vfs op =>
    (vfsSeek mounts fd op.offset op.anchor vfs).map fun result => result.2

/-- The seek stays in the file. -/
def SeekOp.Stays
    (fd : Nat)
    (vfs : Vfs ω)
    (op : SeekOp) :
    Prop :=
  StaysInFile (vfs.openFiles fd).cursor op.offset op.anchor

section

variable
  {vfs vfs' : Vfs ω}
  {fd : Nat}

theorem IsOpen.step_cursor
    (accepts : ∀ mount, AcceptsSeeks (mounts mount))
    (isOpen : IsOpen vfs fd)
    {op : SeekOp}
    (last : (seekSystem mounts fd).Step vfs op vfs') :
    (vfs'.openFiles fd).cursor =
      (seekCursor (vfs.openFiles fd).cursor op.offset op.anchor).2 := by
  rcases Option.map_eq_some_iff.mp last.2 with ⟨⟨ret, after⟩, returned, rfl⟩
  rcases isOpen.vfsSeek_eq accepts returned with ⟨_, file, _⟩
  rw [file]

theorem IsOpen.step
    (accepts : ∀ mount, AcceptsSeeks (mounts mount))
    (isOpen : IsOpen vfs fd)
    {op : SeekOp}
    (last : (seekSystem mounts fd).Step vfs op vfs') :
    IsOpen vfs' fd ∧ (0 ≤ (vfs.openFiles fd).cursor →
      (0 ≤ (vfs'.openFiles fd).cursor ↔ op.Stays fd vfs)) := by
  have offsetLong : IsLong op.offset := last.1
  constructor
  · rcases Option.map_eq_some_iff.mp last.2 with
      ⟨⟨ret, after⟩, returned, rfl⟩
    exact isOpen.vfsSeek accepts offsetLong returned
  · intro positive
    rw [isOpen.step_cursor accepts last, SeekOp.Stays,
      ← seekCursor_nonneg_iff positive isOpen.long offsetLong]

theorem IsOpen.seeks
    (accepts : ∀ mount, AcceptsSeeks (mounts mount))
    (isOpen : IsOpen vfs fd)
    (op : SeekOp) :
    ((seekSystem mounts fd).step vfs op).isSome := by
  rcases isOpen.mounted with ⟨node, mount, isNode, mounted⟩
  have accepted := (accepts mount (vfs.openFiles fd) (vfs.fsnodes node)
    op.offset op.anchor vfs.fsState).1
  rw [seekSystem, Option.isSome_map, Fs.vfsSeek, withFile,
    if_neg (Nat.not_le.mpr isOpen.lt)]
  simp only [isNode, mounted, Option.bind_some]
  rw [if_neg (Int.not_lt.mpr accepted)]
  rfl

/--
The cursor is not negative in any state of a run just when all its relative
seeks stay in the file; then `tfs_read` starts inside of its text.  A call
which returns `-1` leaves the cursor unchanged in every run.
-/
theorem cursor_nonneg_iff
    (accepts : ∀ mount, AcceptsSeeks (mounts mount))
    {ops : List SeekOp}
    (initial : (seekSystem mounts fd).init vfs)
    (run : (seekSystem mounts fd).Run vfs ops vfs') :
    ((∀ done rest middle, ops = done ++ rest →
        (seekSystem mounts fd).Run vfs done middle →
        0 ≤ (middle.openFiles fd).cursor) ↔
      ((seekSystem mounts fd).restrict (SeekOp.Stays fd)).Run vfs ops
        vfs') ∧
    (((seekSystem mounts fd).restrict (SeekOp.Stays fd)).Run vfs ops vfs' →
      ∀ start, TestFs.readStart (vfs'.openFiles fd).cursor = some start →
        0 ≤ start) ∧
    ∀ offset anchor after,
      vfsSeek mounts fd offset anchor vfs' = some (-1, after) →
        (after.openFiles fd).cursor = (vfs'.openFiles fd).cursor := by
  have preserved (state : Vfs ω) (op : SeekOp) (state' : Vfs ω)
      (isOpen : IsOpen state fd)
      (last : (seekSystem mounts fd).Step state op state') :
      IsOpen state' fd := (isOpen.step accepts last).1
  have always := @System.Run.always_iff _ _ _ (SeekOp.Stays fd)
    (fun state => 0 ≤ (state.openFiles fd).cursor) (IsOpen · fd) _ _ _ run
    initial.1 initial.2 preserved
    fun _ _ _ isOpen positive last => (isOpen.step accepts last).2 positive
  refine ⟨always, ?_, ?_⟩
  · intro restricted start reads
    have positive := always.mpr restricted ops [] vfs' (by simp) run
    rw [TestFs.readStart] at reads
    split at reads
    · cases reads
    · cases reads
      exact positive
  · intro offset anchor after returned
    have isOpen := run.invariant initial.1 preserved
    rcases isOpen.vfsSeek_eq accepts returned with ⟨failed, file, _⟩
    rw [file]
    exact seekCursor_failed failed.symm

end

theorem testfs_acceptsSeeks : AcceptsSeeks TestFs.testfsType :=
  fun _ _ _ _ _ => ⟨Int.le_refl 0, rfl, rfl⟩

/-! The file `/test.txt`, open for reading as the descriptor 0. -/

theorem opens_text : (vfsOpen testMounts 0 (TestFs.text "/test.txt") ofRead
    bootVfs).isSome := by
  decide +kernel

def textVfs : Vfs Unit :=
  ((vfsOpen testMounts 0 (TestFs.text "/test.txt") ofRead bootVfs).get
    opens_text).2

theorem textVfs_file :
    (textVfs.openFiles 0).node = some 1 ∧
    (textVfs.openFiles 0).cursor = 0 ∧
    HasMode (textVfs.openFiles 0).mode ofRead ∧
    (textVfs.fsnodes 1).type = .file ∧
    (textVfs.fsnodes 1).mountpoint = some 0 := by
  decide +kernel

theorem textVfs_isOpen : IsOpen textVfs 0 := by
  rcases textVfs_file with ⟨isNode, cursor, _, _, mounted⟩
  refine ⟨by decide, ⟨1, 0, isNode, mounted⟩, ?_⟩
  rw [cursor]
  decide

theorem textVfs_init : (seekSystem testMounts 0).init textVfs := by
  refine ⟨textVfs_isOpen, ?_⟩
  exact Int.le_of_eq textVfs_file.2.1.symm

/-- The cursor is set to the byte 5. -/
def forthVfs : Vfs Unit :=
  ((seekSystem testMounts 0).step textVfs ⟨5, anchStart⟩).get
    (textVfs_isOpen.seeks (fun _ => testfs_acceptsSeeks) _)

theorem forthVfs_step :
    (seekSystem testMounts 0).Step textVfs ⟨5, anchStart⟩ forthVfs :=
  ⟨show IsLong 5 by decide, (Option.some_get _).symm⟩

theorem forthVfs_isOpen : IsOpen forthVfs 0 :=
  (textVfs_isOpen.step (fun _ => testfs_acceptsSeeks) forthVfs_step).1

theorem forthVfs_cursor : (forthVfs.openFiles 0).cursor = 5 := by
  rw [textVfs_isOpen.step_cursor (fun _ => testfs_acceptsSeeks) forthVfs_step,
    textVfs_file.2.1]
  rfl

/-- It is moved back by 3 bytes. -/
def backVfs : Vfs Unit :=
  ((seekSystem testMounts 0).step forthVfs ⟨-3, anchRel⟩).get
    (forthVfs_isOpen.seeks (fun _ => testfs_acceptsSeeks) _)

/-- It is moved back at once. -/
def beforeVfs : Vfs Unit :=
  ((seekSystem testMounts 0).step textVfs ⟨-3, anchRel⟩).get
    (textVfs_isOpen.seeks (fun _ => testfs_acceptsSeeks) _)

theorem cursor_nonneg_iff_back : 0 ≤ (backVfs.openFiles 0).cursor := by
  have last : (seekSystem testMounts 0).Step forthVfs ⟨-3, anchRel⟩
      backVfs :=
    ⟨show IsLong (-3) by decide, (Option.some_get _).symm⟩
  have stays : SeekOp.Stays 0 textVfs ⟨5, anchStart⟩ := by
    intro relative
    cases relative
  have stays' : SeekOp.Stays 0 forthVfs ⟨-3, anchRel⟩ := by
    rw [SeekOp.Stays, forthVfs_cursor]
    decide
  have run := ((System.Run.nil _).snoc forthVfs_step).snoc last
  exact (cursor_nonneg_iff (fun _ => testfs_acceptsSeeks) textVfs_init
    run).1.mpr (((System.Run.nil _).snoc (forthVfs_step.restrict stays)).snoc
      (last.restrict stays')) _ [] _ rfl run

/-- From the beginning of the file the cursor is moved before it. -/
theorem cursor_negative :
    ¬ ∀ (fd : Nat) (vfs vfs' : Vfs Unit) (ops : List SeekOp),
      (seekSystem testMounts fd).init vfs →
      (seekSystem testMounts fd).Run vfs ops vfs' →
      0 ≤ (vfs'.openFiles fd).cursor := by
  intro always
  have last : (seekSystem testMounts 0).Step textVfs ⟨-3, anchRel⟩
      beforeVfs :=
    ⟨show IsLong (-3) by decide, (Option.some_get _).symm⟩
  have positive := always 0 _ _ _ textVfs_init ((System.Run.nil _).snoc last)
  rw [textVfs_isOpen.step_cursor (fun _ => testfs_acceptsSeeks) last,
    textVfs_file.2.1] at positive
  exact absurd positive (by decide)

/-! ## Reading -/

/-- Read from a file again and again, for what each call returns and stores. -/
def readAll
    (mounts : Nat → FsOps ω)
    (fd : Nat) :
    List Int → Vfs ω → Option (List (Int × CString) × Vfs ω)
  | [], vfs => some ([], vfs)
  | nbytes :: sizes, vfs =>
      (vfsRead mounts fd nbytes vfs).bind fun (ret, bytes, vfs) =>
        (readAll mounts fd sizes vfs).map fun (results, vfs) =>
          ((ret, bytes) :: results, vfs)

/-- The bytes which the successful calls deliver, one after the other. -/
def delivered (results : List (Int × CString)) : CString :=
  results.flatMap fun result => result.2.take result.1.toNat

/--
Each call which succeeds stores as many bytes as it returns, at most the size
asked for and none behind it, and all of them together are the beginning of the
text.
-/
structure ReadsOnce
    (sizes : List Int)
    (results : List (Int × CString)) :
    Prop where
  counted : ∀ call ∈ sizes.zip results, 0 ≤ call.2.1 →
    ((call.2.2.take call.2.1.toNat).length : Int) = call.2.1 ∧
      call.2.1 ≤ call.1
  inside : ∀ call ∈ sizes.zip results, (call.2.2.length : Int) ≤ call.1
  whole : delivered results <+: TestFs.msg
  length : ((delivered results).length : Int) =
    ((results.map Prod.fst).filter (0 ≤ ·)).sum

theorem mem_zip_map
    {α β : Type*}
    {f : α → β}
    {a : α}
    {items : List α}
    (member : a ∈ items) :
    (a, f a) ∈ items.zip (items.map f) := by
  induction items with
  | nil => cases member
  | cons item items induction =>
      rcases List.mem_cons.mp member with rfl | member
      · exact List.mem_cons_self
      · exact List.mem_cons_of_mem _ (induction member)

theorem msg_length : TestFs.msg.length = 102 := by
  decide +kernel

theorem msg_dropLast : TestFs.msg.dropLast ++ [0] = TestFs.msg := by
  rw [TestFs.msg, List.dropLast_concat]

/-- The text has no terminator but its last byte. -/
theorem msg_ne_zero : ∀ byte ∈ TestFs.msg.dropLast, byte ≠ 0 := by
  decide +kernel

theorem msg_takeWhile :
    TestFs.msg.takeWhile (· ≠ 0) = TestFs.msg.dropLast := by
  have letters : ∀ byte ∈ TestFs.msg.dropLast, decide (byte ≠ 0) = true :=
    fun byte member => decide_eq_true (msg_ne_zero byte member)
  calc TestFs.msg.takeWhile (· ≠ 0)
    _ = (TestFs.msg.dropLast ++ [0]).takeWhile (· ≠ 0) := by
        rw [msg_dropLast]
    _ = TestFs.msg.dropLast ++ [0].takeWhile (· ≠ 0) :=
        List.takeWhile_append_of_pos letters
    _ = TestFs.msg.dropLast := List.append_nil _

theorem read_zero
    {nbytes : Int}
    (positive : 0 ≤ nbytes)
    (long : IsLong nbytes) :
    TestFs.read 0 nbytes =
      (((min nbytes.toNat TestFs.msg.length : Nat) : Int),
        TestFs.msg.dropLast.take nbytes.toNat ++ [0]) := by
  have count : (nbytes % 2 ^ 64).toNat = nbytes.toNat := by
    rw [Int.emod_eq_of_lt positive (by have := long.2; omega)]
  have start : TestFs.readStart 0 = some 0 := by
    rw [TestFs.readStart, msg_length]
    rfl
  simp only [TestFs.read, start, count, Int.toNat_zero, List.drop_zero,
    msg_takeWhile]

/-- What is stored fits only if all of the text does. -/
theorem read_inside
    {nbytes : Int}
    (positive : 0 < nbytes)
    (long : IsLong nbytes)
    (inside : ((TestFs.read 0 nbytes).2.length : Int) ≤ nbytes) :
    TestFs.msg.length ≤ nbytes := by
  rw [read_zero (Int.le_of_lt positive) long] at inside
  simp only [List.length_append, List.length_take, List.length_dropLast,
    List.length_singleton] at inside
  omega

/-- A call for all of the text stores it, and returns its size. -/
theorem read_whole
    {nbytes : Int}
    (large : TestFs.msg.length ≤ nbytes)
    (long : IsLong nbytes) :
    TestFs.read 0 nbytes = ((TestFs.msg.length : Int), TestFs.msg) := by
  have short : TestFs.msg.dropLast.length ≤ nbytes.toNat := by
    rw [List.length_dropLast]
    omega
  rw [read_zero (by omega) long, List.take_of_length_le short, msg_dropLast,
    Nat.min_eq_right (by omega)]

/-- The file is open for reading on a test file system, at its beginning. -/
structure AtStart
    (vfs : Vfs Unit)
    (fd : Nat) :
    Prop where
  lt : fd < numOpenFiles
  mayRead : ∃ node mount, MayTransfer vfs ofRead fd node ∧
    (vfs.fsnodes node).mountpoint = some mount
  cursor : (vfs.openFiles fd).cursor = 0

section

variable
  {vfs : Vfs Unit}
  {fd : Nat}

theorem vfsRead_testfs
    {node mount : Nat}
    (lt : fd < numOpenFiles)
    (mayRead : MayTransfer vfs ofRead fd node)
    (mounted : (vfs.fsnodes node).mountpoint = some mount)
    (nbytes : Int) :
    vfsRead testMounts fd nbytes vfs =
      some ((TestFs.read (vfs.openFiles fd).cursor nbytes).1,
        (TestFs.read (vfs.openFiles fd).cursor nbytes).2,
        vfs.fileReplied fd node
          ⟨(TestFs.read (vfs.openFiles fd).cursor nbytes).1,
            (vfs.openFiles fd).cursor, vfs.fsnodes node, ()⟩
          (.fRead fd node
            (TestFs.read (vfs.openFiles fd).cursor nbytes).1)) := by
  rw [vfsRead, if_neg (Nat.not_le.mpr lt)]
  simp [mayRead.isOpen, mayRead.isFile, mayRead.hasMode, mounted, testMounts,
    TestFs.testfsType]

/-- A read leaves the tables as they are, the cursor too. -/
theorem AtStart.vfsRead_eq
    (atStart : AtStart vfs fd)
    (nbytes : Int) :
    ∃ after, vfsRead testMounts fd nbytes vfs =
        some ((TestFs.read 0 nbytes).1, (TestFs.read 0 nbytes).2, after) ∧
      AtStart after fd := by
  rcases atStart.mayRead with ⟨node, mount, mayRead, mounted⟩
  rcases atStart with ⟨lt, _, cursor⟩
  have returned := vfsRead_testfs lt mayRead mounted nbytes
  rw [cursor] at returned
  refine ⟨_, returned, lt, ⟨node, mount, ⟨?_, ?_, ?_⟩, ?_⟩, ?_⟩
  · simp [Vfs.fileReplied, Vfs.setFile, mayRead.isOpen]
  · simp [Vfs.fileReplied, Vfs.setFile, Vfs.setNode, mayRead.isFile]
  · simp [Vfs.fileReplied, Vfs.setFile, mayRead.hasMode]
  · simp [Vfs.fileReplied, Vfs.setFile, Vfs.setNode, mounted]
  · simp [Vfs.fileReplied, Vfs.setFile]

/-- Every read starts from the beginning again. -/
theorem AtStart.readAll_eq
    (atStart : AtStart vfs fd)
    (sizes : List Int) :
    ∃ after, readAll testMounts fd sizes vfs =
      some (sizes.map (TestFs.read 0), after) := by
  induction sizes generalizing vfs with
  | nil => exact ⟨vfs, rfl⟩
  | cons nbytes sizes induction =>
      rcases atStart.vfsRead_eq nbytes with ⟨middle, read, atStart'⟩
      rcases induction atStart' with ⟨after, others⟩
      refine ⟨after, ?_⟩
      rw [readAll, read, Option.bind_some]
      simp only [others, Option.map_some, List.map_cons, Prod.mk.eta]

/--
Reading a file from its beginning delivers it once just when there is one call,
for all of the text and its terminator: the terminator is stored behind a
shorter part, and the next call delivers the same bytes again.
-/
theorem reads_once_iff
    (atStart : AtStart vfs fd)
    {sizes : List Int}
    (positive : ∀ nbytes ∈ sizes, 0 < nbytes ∧ IsLong nbytes) :
    ∃ results after,
      readAll testMounts fd sizes vfs = some (results, after) ∧
      results.length = sizes.length ∧
      (ReadsOnce sizes results ↔
        sizes = [] ∨ ∃ nbytes, sizes = [nbytes] ∧
          TestFs.msg.length ≤ nbytes) := by
  rcases atStart.readAll_eq sizes with ⟨after, read⟩
  refine ⟨_, after, read, List.length_map _, ?_, ?_⟩
  · intro once
    have large (nbytes : Int) (member : nbytes ∈ sizes) :
        TestFs.msg.length ≤ nbytes :=
      read_inside (positive nbytes member).1 (positive nbytes member).2
        (once.inside (nbytes, TestFs.read 0 nbytes) (mem_zip_map member))
    have whole (nbytes : Int) (member : nbytes ∈ sizes) :
        TestFs.read 0 nbytes = ((TestFs.msg.length : Int), TestFs.msg) :=
      read_whole (large nbytes member) (positive nbytes member).2
    have length := once.whole.length_le
    cases sizes with
    | nil => exact .inl rfl
    | cons nbytes sizes =>
        cases sizes with
        | nil => exact .inr ⟨nbytes, rfl, large nbytes (by simp)⟩
        | cons nbytes' sizes =>
            rw [List.map_cons, List.map_cons, whole nbytes (by simp),
              whole nbytes' (by simp)] at length
            simp only [delivered, List.flatMap_cons, Int.toNat_natCast,
              List.take_length, List.length_append] at length
            have isLength := msg_length
            omega
  · rintro (rfl | ⟨nbytes, rfl, large⟩)
    · exact ⟨by simp, by simp, List.nil_prefix, rfl⟩
    · have whole := read_whole large (positive nbytes (by simp)).2
      have bytes : delivered [TestFs.read 0 nbytes] = TestFs.msg := by
        rw [whole]
        simp [delivered]
      refine ⟨?_, ?_, ?_, ?_⟩
      · simpa [whole] using large
      · simpa [whole] using large
      · refine ⟨[], ?_⟩
        rw [List.map_singleton, bytes, List.append_nil]
      · rw [List.map_singleton, bytes, whole]
        simp

end

theorem textVfs_atStart : AtStart textVfs 0 := by
  rcases textVfs_file with ⟨isNode, cursor, mode, isFile, mounted⟩
  exact ⟨by decide, ⟨1, 0, ⟨isNode, isFile, mode⟩, mounted⟩, cursor⟩

theorem reads_once_iff_whole :
    ∃ results after,
      readAll testMounts 0 [200] textVfs = some (results, after) ∧
      ReadsOnce [200] results := by
  have sizes : ∀ nbytes ∈ [(200 : Int)], 0 < nbytes ∧ IsLong nbytes := by
    decide
  have large : (TestFs.msg.length : Int) ≤ 200 := by
    rw [msg_length]
    decide
  rcases reads_once_iff textVfs_atStart sizes with
    ⟨results, after, read, _, once⟩
  exact ⟨results, after, read, once.mpr (.inr ⟨200, rfl, large⟩)⟩

/-- The first five bytes are read twice, each time with a terminator. -/
theorem reads_again :
    ¬ ∀ (fd : Nat) (vfs : Vfs Unit) (sizes : List Int), AtStart vfs fd →
      (∀ nbytes ∈ sizes, 0 < nbytes ∧ IsLong nbytes) →
      ∃ results after,
        readAll testMounts fd sizes vfs = some (results, after) ∧
        ReadsOnce sizes results := by
  intro always
  rcases always 0 textVfs [5, 5] textVfs_atStart (by decide) with
    ⟨results, after, read, once⟩
  rcases textVfs_atStart.readAll_eq [5, 5] with ⟨after', same⟩
  cases same.symm.trans read
  have stored := once.inside (5, TestFs.read 0 5) List.mem_cons_self
  have large := @read_inside 5 (by decide) (by decide) stored
  rw [msg_length] at large
  exact absurd large (by decide)

end ForsKernel.Fs
