import ForsKernel.Fs.Ext2Disk

/-!
# Failures of the cache under the ext2 file system

The calls of `bc_get` which the file system makes may turn out in any way.  A
script lists how they do, one after the other, and running the functions of
`ext2.c` over it shows which outcomes they check.
-/

namespace ForsKernel.Fs.Ext2

open ForsKernel.BufferCache

/-! ## Scripts -/

/--
What a call of `bc_get` returns, the pointer if it sets one, and what is in
memory then.  A call which succeeds has set the pointer.
-/
structure Outcome where
  ret : Int
  buf : Option Nat
  memory : Nat → Segment
  buf_set : ret ≠ 0 → buf ≠ none

/-- A call which is refused need not set the buffer. -/
theorem Outcome.refused_set : (0 : Int) ≠ 0 → (none : Option Nat) ≠ none :=
  fun nonzero => (nonzero rfl).elim

/-- What the buffer which is handed out holds. -/
def Outcome.contents (outcome : Outcome) : Segment :=
  outcome.memory (outcome.buf.getD 0)

/--
The outcomes of the calls which have been made and of those to come, for a
store which has a type only if it was registered.
-/
structure Script where
  registered : Bool
  segSz : Nat
  segSz_ne : segSz ≠ 0
  memory : Nat → Segment
  made : List Outcome
  pending : Nat → Outcome

namespace Script

/-- The next call has been made. -/
def next (script : Script) : Script :=
  { script with
    memory := (script.pending 0).memory
    made := script.made ++ [script.pending 0]
    pending := fun n => script.pending (n + 1) }

/-- No call has been made. -/
def start (script : Script) : Script :=
  { script with made := [] }

end Script

/-- Segments come as the script says, whichever are asked for. -/
def scripted : Source Script where
  bcGet _ _ := fun script =>
    .ok (((script.pending 0).ret, (script.pending 0).buf), script.next)
  load ptr := fun script => .ok (script.memory ptr, script)
  storeSegSz _ := fun script =>
    if script.registered then .ok (script.segSz, script) else .error .null

/-! ## What should be reported -/

/--
Nothing is read through a pointer which is null or not set, and if the store
or a block could not be obtained then the value is negative.
-/
def ReportsFailures
    {α : Type}
    (dev : Int) :
    Except Fault ((Int × α) × Script) → Prop
  | .error fault => fault ≠ .null ∧ fault ≠ .unset
  | .ok ((ret, _), script) =>
      (getStoreById dev = none ∨ ∃ outcome ∈ script.made, outcome.ret = 0) →
        ret < 0

/-- The fields of `ext2_inode_t` which are copied end here, with `gid`. -/
def copiedEnd : Nat := 26

/--
The place which the node is filled from, if one was found, is in a buffer of a
call which succeeded.
-/
def CopiesObtained :
    Except Fault (Option (Option Nat × Nat) × Script) → Prop
  | .ok (some (some ptr, offset), script) =>
      (∃ outcome ∈ script.made, outcome.ret ≠ 0 ∧ outcome.buf = some ptr) ∧
        offset + copiedEnd ≤ script.segSz
  | _ => True

/--
How far the inode is from the start of the segment which its block starts in,
by the superblock, the table and the superblock as it is fetched again.
-/
def Script.inodeOffset
    (script : Script)
    (id : Int) :
    Nat :=
  let sb := (script.pending 0).contents
  let table := (script.pending 2).contents
  size (Source.startByte sb table id -
    Source.segOfBlk (script.pending 3).contents script.segSz
      (Source.inodeBlk sb table id) * script.segSz)

/--
The superblock can be obtained whenever it is needed, and if the block group
table can then so can the segment in which the inode's block starts, with the
inode in it.  The numbers of a superblock may end the call before.
-/
def Script.Obtains
    (script : Script)
    (id : Int) :
    Prop :=
  (script.pending 0).ret ≠ 0 ∧
    (Computable (script.pending 0).contents →
      (script.pending 1).ret ≠ 0 ∧
        (blkSz (script.pending 1).contents < 32 →
          (script.pending 2).ret ≠ 0 →
            (script.pending 3).ret ≠ 0 ∧
              (blkSz (script.pending 3).contents < 32 →
                (script.pending 4).ret ≠ 0 ∧
                  script.inodeOffset id + copiedEnd ≤ script.segSz)))

section

variable
  {script : Script}
  {dev id : Int}
  {store : Fin maxStores}

theorem scripted_storeSegSz
    (registered : script.registered = true)
    (store : Fin maxStores) :
    scripted.storeSegSz store script = .ok (script.segSz, script) :=
  if_pos registered

theorem scripted_getSb
    (slot : getStoreById dev = some store)
    (registered : script.registered = true) :
    scripted.getSb dev script =
      .ok (if (script.pending 0).ret = 0 then none
        else (script.pending 0).buf, script.next) :=
  Source.getSb_eq slot (scripted_storeSegSz registered store)
    script.segSz_ne rfl

theorem scripted_getSb_unregistered
    (slot : getStoreById dev = some store)
    (unregistered : script.registered = false) :
    scripted.getSb dev script = .error .null := by
  apply Source.getSb_error slot
  exact if_neg (by rw [unregistered]; decide)

/-- What is behind the pointer which the last call has set. -/
theorem scripted_load
    {ptr : Nat}
    (set : (script.pending 0).buf = some ptr) :
    scripted.load ptr script.next =
      .ok ((script.pending 0).contents, script.next) := by
  show Except.ok ((script.pending 0).memory ptr, script.next) = _
  rw [Outcome.contents, set, Option.getD_some]

/-- A superblock which is obtained can be read. -/
theorem scripted_getSb_ok
    (slot : getStoreById dev = some store)
    (registered : script.registered = true)
    (served : (script.pending 0).ret ≠ 0) :
    ∃ ptr, scripted.getSb dev script = .ok (some ptr, script.next) ∧
      scripted.load ptr script.next =
        .ok ((script.pending 0).contents, script.next) := by
  cases set : (script.pending 0).buf with
  | none => exact ((script.pending 0).buf_set served set).elim
  | some ptr =>
      refine ⟨ptr, ?_, scripted_load set⟩
      rw [scripted_getSb slot registered, if_neg served, set]

theorem scripted_getSb_null
    (slot : getStoreById dev = some store)
    (registered : script.registered = true)
    (refused : (script.pending 0).ret = 0) :
    scripted.getSb dev script = .ok (none, script.next) := by
  rw [scripted_getSb slot registered, if_pos refused]

/-- The address of a block, by the next outcome. -/
theorem scripted_blk2lba_cases
    (slot : getStoreById dev = some store)
    (script : Script)
    (registered : script.registered = true)
    (blk : Nat) :
    ((script.pending 0).ret = 0 ∧
        scripted.blk2lba dev blk script = .error .null) ∨
      ((script.pending 0).ret ≠ 0 ∧
        ((32 ≤ blkSz (script.pending 0).contents ∧
            scripted.blk2lba dev blk script = .error .arithmetic) ∨
          (blkSz (script.pending 0).contents < 32 ∧
            scripted.blk2lba dev blk script =
              .ok (Source.segOfBlk (script.pending 0).contents script.segSz
                blk, script.next)))) := by
  by_cases refused : (script.pending 0).ret = 0
  · exact .inl ⟨refused,
      Source.blk2lba_null slot
        (scripted_getSb_null slot registered refused)⟩
  · rcases scripted_getSb_ok slot registered refused with ⟨ptr, found, loaded⟩
    right
    refine ⟨refused, ?_⟩
    by_cases large : 32 ≤ blkSz (script.pending 0).contents
    · exact .inl ⟨large,
        Source.blk2lba_arithmetic slot found loaded large⟩
    · have small := Nat.lt_of_not_le large
      exact .inr ⟨small, Source.blk2lba_eq slot found loaded small
        (if_pos registered) script.segSz_ne⟩

/-- The first three calls, and what is left to obtain after them. -/
theorem scripted_findTable_cases
    (slot : getStoreById dev = some store)
    (script : Script)
    (registered : script.registered = true)
    (id : Int) :
    (scripted.findTable dev script = .error .null ∧ ¬ script.Obtains id) ∨
      (scripted.findTable dev script = .error .arithmetic ∧
        script.Obtains id) ∨
      (scripted.findTable dev script =
          .ok (none, script.next.next.next) ∧ script.Obtains id) ∨
      ∃ seg ptr, scripted.findTable dev script =
          .ok (some ⟨(script.pending 0).contents, seg, ptr⟩,
            script.next.next.next) ∧
        scripted.load ptr script.next.next.next =
          .ok ((script.pending 2).contents, script.next.next.next) ∧
        Computable (script.pending 0).contents ∧
        (∀ call < 3, (script.pending call).ret ≠ 0) ∧
        (script.Obtains id ↔ (script.pending 3).ret ≠ 0 ∧
          (blkSz (script.pending 3).contents < 32 →
            (script.pending 4).ret ≠ 0 ∧
              script.inodeOffset id + copiedEnd ≤ script.segSz)) := by
  by_cases refused : (script.pending 0).ret = 0
  · exact .inl ⟨Source.findTable_null
        (scripted_getSb_null slot registered refused),
      fun obtains => obtains.1 refused⟩
  rcases scripted_getSb_ok slot registered refused with ⟨ptr, found, loaded⟩
  by_cases computable : Computable (script.pending 0).contents
  · rcases scripted_blk2lba_cases slot script.next registered
      (Source.tableBlk (script.pending 0).contents) with
      ⟨null, faulted⟩ | ⟨served, ⟨large, faulted⟩ | ⟨small, located⟩⟩
    · refine .inl ⟨Source.findTable_error found loaded computable faulted,
        ?_⟩
      exact fun obtains => (obtains.2 computable).1 null
    · refine .inr (.inl ⟨Source.findTable_error found loaded computable
        faulted, refused, fun _ => ⟨served, fun small => ?_⟩⟩)
      exact absurd small (Nat.not_lt.mpr large)
    · by_cases absent : (script.pending 2).ret = 0
      · refine .inr (.inr (.inl ⟨?_, refused, fun _ => ⟨served, fun _ got =>
          (got absent).elim⟩⟩))
        have returned (seg : Nat) : scripted.bcGet dev seg script.next.next =
            .ok ((0, (script.pending 2).buf), script.next.next.next) := by
          rw [← absent]
          rfl
        exact Source.findTable_refused found loaded computable located
          (returned _)
      · right; right; right
        cases set : (script.pending 2).buf with
        | none => exact ((script.pending 2).buf_set absent set).elim
        | some table =>
            have returned (seg : Nat) :
                scripted.bcGet dev seg script.next.next =
                  .ok (((script.pending 2).ret, some table),
                    script.next.next.next) := by
              rw [← set]
              rfl
            refine ⟨_, table, Source.findTable_eq found loaded computable
              located (returned _) absent,
              @scripted_load script.next.next table set, computable, ?_,
              ?_⟩
            · intro call before
              match call with
              | 0 => exact refused
              | 1 => exact served
              | 2 => exact absent
            · constructor
              · intro obtains
                exact (obtains.2 computable).2 small absent
              · intro rest
                exact ⟨refused, fun _ => ⟨served, fun _ _ => rest⟩⟩
  · exact .inr (.inl ⟨Source.findTable_arithmetic found loaded computable,
      refused, fun defined => (computable defined).elim⟩)

/-- All calls.  The value of the last one is not looked at. -/
theorem scripted_findInode_cases
    (slot : getStoreById dev = some store)
    (script : Script)
    (registered : script.registered = true)
    (id : Int) :
    (scripted.findInode dev id script = .error .null ∧
        ¬ script.Obtains id) ∨
      (scripted.findInode dev id script = .error .arithmetic ∧
        script.Obtains id) ∨
      (scripted.findInode dev id script =
          .ok (none, script.next.next.next) ∧ script.Obtains id) ∨
      (scripted.findInode dev id script =
          .ok (some ((script.pending 4).buf, script.inodeOffset id),
            script.next.next.next.next.next) ∧
        (∀ call < 4, (script.pending call).ret ≠ 0) ∧
        (script.Obtains id ↔ (script.pending 4).ret ≠ 0 ∧
          script.inodeOffset id + copiedEnd ≤ script.segSz)) := by
  rcases scripted_findTable_cases slot script registered id with
    ⟨faulted, refused⟩ | ⟨faulted, obtains⟩ | ⟨absent, obtains⟩ |
      ⟨seg, ptr, found, loaded, computable, first, rest⟩
  · exact .inl ⟨run_bind_error faulted, refused⟩
  · exact .inr (.inl ⟨run_bind_error faulted, obtains⟩)
  · exact .inr (.inr (.inl ⟨Source.findInode_refused absent, obtains⟩))
  · rcases scripted_blk2lba_cases slot script.next.next.next
      registered (Source.inodeBlk (script.pending 0).contents
        (script.pending 2).contents id) with
      ⟨null, faulted⟩ | ⟨served, ⟨large, faulted⟩ | ⟨small, located⟩⟩
    · refine .inl ⟨Source.findInode_error found
        (Source.locateInode_error loaded computable.2 faulted), ?_⟩
      rw [rest]
      exact fun obtained => obtained.1 null
    · refine .inr (.inl ⟨Source.findInode_error found
        (Source.locateInode_error loaded computable.2 faulted), ?_⟩)
      exact rest.mpr ⟨served, fun small =>
        absurd small (Nat.not_lt.mpr large)⟩
    · refine .inr (.inr (.inr ⟨Source.findInode_eq found
        (Source.locateInode_eq slot loaded computable.2 located
          (if_pos registered)) rfl, ?_, ?_⟩))
      · intro call before
        rcases Nat.lt_succ_iff_lt_or_eq.mp before with earlier | rfl
        · exact first call earlier
        · exact served
      · exact rest.trans ⟨fun obtained => obtained.2 small,
          fun last => ⟨served, fun _ => last⟩⟩

/-- Mounting reports its failures just when the superblock is obtained. -/
theorem scripted_initmnt_reports
    (script : Script)
    (mnt : Mount) :
    ReportsFailures mnt.dev (scripted.initmnt mnt script.start) ↔
      getStoreById mnt.dev = none ∨
        (script.registered = true ∧ (script.pending 0).ret ≠ 0) := by
  cases slot : getStoreById mnt.dev with
  | none =>
      rw [Source.initmnt_missing slot]
      simp [ReportsFailures]
  | some store =>
      cases registered : script.registered with
      | false =>
          have faulted : scripted.getSb mnt.dev script.start =
              .error .null :=
            scripted_getSb_unregistered slot registered
          rw [Source.initmnt_error slot faulted]
          simp [ReportsFailures]
      | true =>
          have registered' : script.start.registered = true := registered
          by_cases refused : (script.pending 0).ret = 0
          · have null : scripted.getSb mnt.dev script.start =
                .ok (none, script.start.next) :=
              scripted_getSb_null slot registered' refused
            rw [Source.initmnt_null slot null]
            simp [ReportsFailures, refused]
          · have obtained : (script.start.pending 0).ret ≠ 0 := refused
            rcases scripted_getSb_ok slot registered' obtained with
              ⟨ptr, found, loaded⟩
            rw [Source.initmnt_eq slot found loaded]
            simp [ReportsFailures, slot, Script.start, Script.next, refused]

/-- What follows the last call uses the pointer which it has set, or none. -/
theorem scripted_nodeFromId_reports
    (script : Script)
    (dev id : Int)
    (node : FsNode) :
    ReportsFailures dev (scripted.nodeFromId dev id node script.start) ∧
        CopiesObtained (scripted.findInode dev id script.start) ↔
      getStoreById dev ≠ none ∧ script.registered = true ∧
        script.Obtains id := by
  cases slot : getStoreById dev with
  | none =>
      have faulted : scripted.nodeFromId dev id node script.start =
          .error .null :=
        Source.nodeFromId_error (run_bind_error
          (Source.findTable_null (Source.getSb_missing slot)))
      rw [faulted]
      simp [ReportsFailures]
  | some store =>
      have whole : script.start.Obtains id ↔ script.Obtains id := Iff.rfl
      rw [← whole]
      by_cases unregistered : script.registered = false
      · have faulted : scripted.nodeFromId dev id node script.start =
            .error .null :=
          Source.nodeFromId_error (run_bind_error (run_bind_error
            (scripted_getSb_unregistered slot unregistered)))
        rw [faulted]
        simp [ReportsFailures, unregistered]
      have registered : script.registered = true :=
        Bool.not_eq_false _ ▸ unregistered
      rw [and_iff_right registered]
      rcases scripted_findInode_cases slot script.start registered id with
        ⟨faulted, refused⟩ | ⟨faulted, obtains⟩ | ⟨absent, obtains⟩ |
          ⟨found, first, obtains⟩
      · rw [Source.nodeFromId_error faulted]
        simp [ReportsFailures, refused]
      · rw [Source.nodeFromId_error faulted, faulted]
        simp [ReportsFailures, CopiesObtained, obtains]
      · rw [Source.nodeFromId_refused absent, absent]
        simp [ReportsFailures, CopiesObtained, obtains]
      · rw [obtains]
        cases set : (script.start.pending 4).buf with
        | none =>
            rw [set] at found
            have refused : (script.start.pending 4).ret = 0 := by
              by_contra served
              exact (script.start.pending 4).buf_set served set
            rw [Source.nodeFromId_unset found]
            simp [ReportsFailures, refused]
        | some ptr =>
            rw [set] at found
            rw [Source.nodeFromId_eq found rfl, found]
            have calls : script.start.next.next.next.next.next.made =
                (List.range 5).map script.start.pending := rfl
            have made {call : Nat} (before : call < 5) :
                script.start.pending call ∈
                  script.start.next.next.next.next.next.made := by
              rw [calls]
              exact List.mem_map_of_mem (List.mem_range.mpr before)
            constructor
            · rintro ⟨reports, _, inside⟩
              refine ⟨by simp, fun refused => ?_, inside⟩
              have negative : (0 : Int) < 0 :=
                reports (.inr ⟨_, made (by decide), refused⟩)
              exact absurd negative (by decide)
            · rintro ⟨_, served, inside⟩
              refine ⟨?_, ⟨_, made (by decide), served, set⟩, inside⟩
              rintro (missing | ⟨outcome, called, refused⟩)
              · rw [slot] at missing
                cases missing
              · rw [calls] at called
                rcases List.mem_map.mp called with ⟨call, inside, rfl⟩
                rcases Nat.lt_succ_iff_lt_or_eq.mp
                  (List.mem_range.mp inside) with earlier | rfl
                · exact (first call earlier refused).elim
                · exact (served refused).elim

end

/--
Over every sequence of outcomes, mounting reports its failures just when the
store is registered and the superblock is obtained, unless there is no store.
Reading an inode does just when there is a store, it is registered, the
superblock is obtained whenever it is fetched, and if the table of the block
groups is obtained then the segment which the inode's block starts in is
obtained too and holds the inode.
-/
theorem ext2_reports_failures_iff
    (script : Script)
    (mnt : Mount)
    (dev id : Int)
    (node : FsNode) :
    (ReportsFailures mnt.dev (scripted.initmnt mnt script.start) ↔
      getStoreById mnt.dev = none ∨
        (script.registered = true ∧ (script.pending 0).ret ≠ 0)) ∧
    (ReportsFailures dev (scripted.nodeFromId dev id node script.start) ∧
        CopiesObtained (scripted.findInode dev id script.start) ↔
      getStoreById dev ≠ none ∧ script.registered = true ∧
        script.Obtains id) :=
  ⟨scripted_initmnt_reports script mnt,
    scripted_nodeFromId_reports script dev id node⟩

/-! ## Failures which are not reported -/

/-- Every call is refused. -/
def refusingScript : Script where
  registered := true
  segSz := 512
  segSz_ne := by decide
  memory := fun _ _ => 0
  made := []
  pending := fun _ => ⟨0, none, fun _ _ => 0, Outcome.refused_set⟩

/--
Without a superblock the mount reads through a null pointer.  The root of a
file system on a device which never fails is read through a pointer which
nothing has set, as the superblock and the table fill the cache.
-/
theorem ext2_failures_unreported :
    ¬ ReportsFailures 0
        (scripted.initmnt ⟨0, none, 0⟩ refusingScript.start) ∧
      faultOf (Ext2.nodeFromId 0 2 emptyNode (smallDisk 5)) =
        some .unset := by
  refine ⟨?_, by decide +kernel⟩
  have slot : getStoreById 0 = some ⟨0, by decide⟩ := by decide
  rw [Source.initmnt_null slot (scripted_getSb_null slot rfl rfl)]
  simp [ReportsFailures]

end ForsKernel.Fs.Ext2
