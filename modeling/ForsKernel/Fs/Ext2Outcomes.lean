import ForsKernel.Fs.Ext2Failures

/-!
# Scripts of runs over the buffer cache

Which outcomes a run over the cache meets depends on the blocks it asks for.
Once the run is over they can be written down as a script, and over the script
the functions of `ext2.c` do the same.  So what holds over every script holds
over the cache.
-/

namespace ForsKernel.Fs.Ext2

open ForsKernel.BufferCache

/-- The script is in the same state as the disk. -/
structure Agrees
    (segSz : Nat)
    (disk : Disk)
    (script : Script) :
    Prop where
  registered : script.registered = true
  segSz_eq : script.segSz = segSz
  memory_eq : script.memory = disk.cache.buffer

/-- The next calls have these outcomes. -/
def Script.Begins
    (script : Script)
    (outcomes : List Outcome) :
    Prop :=
  ∀ n outcome, outcomes[n]? = some outcome → script.pending n = outcome

/--
The action over a script ends as it has over the disk, after this number of
calls.
-/
def Alike
    {α : Type}
    (segSz : Nat)
    (script : Script)
    (calls : Nat) :
    Except Fault (α × Disk) → Except Fault (α × Script) → Prop
  | .error fault, result => result = .error fault
  | .ok (value, disk'), result =>
      ∃ script', result = .ok (value, script') ∧
        Agrees segSz disk' script' ∧
          ∀ n, script'.pending n = script.pending (calls + n)

/-- Every run over the cache is one over the script of some outcomes. -/
structure Follows
    {α : Type}
    (dev : Int)
    (store : Fin maxStores)
    (concrete : StateT Disk (Except Fault) α)
    (abstract : StateT Script (Except Fault) α) :
    Prop where
  usable : ∀ {disk disk' : Disk} {segSz : Nat} {value : α},
    disk.Usable dev store segSz →
      concrete disk = .ok (value, disk') → disk'.Usable dev store segSz
  alike : ∀ {disk : Disk} {segSz : Nat}, disk.Usable dev store segSz →
    ∃ outcomes : List Outcome, ∀ script, Agrees segSz disk script →
      script.Begins outcomes →
        Alike segSz script outcomes.length (concrete disk) (abstract script)

section

variable
  {α β : Type}
  {dev : Int}
  {store : Fin maxStores}

/-! ## Actions and their parts -/

/-- What asks for no block needs no outcome. -/
theorem Follows.lift (result : Except Fault α) :
    Follows dev store (liftM result) (liftM result) := by
  cases result with
  | error fault =>
      refine ⟨fun _ returned => ?_, fun _ => ⟨[], fun _ _ _ => rfl⟩⟩
      cases returned
  | ok value =>
      refine ⟨fun usable returned => ?_, fun _ => ⟨[], fun script agrees _ =>
        ⟨script, rfl, agrees, fun n => ?_⟩⟩⟩
      · cases returned
        exact usable
      · rw [List.length_nil, Nat.zero_add]

theorem Follows.pure (value : α) :
    Follows dev store (Pure.pure value) (Pure.pure value) :=
  .lift (.ok value)

theorem Follows.throw (fault : Fault) :
    Follows dev store (throw fault : StateT Disk (Except Fault) α)
      (throw fault) :=
  .lift (.error fault)

/-- The outcomes of the second part come behind those of the first. -/
theorem Follows.bind
    {concrete : StateT Disk (Except Fault) α}
    {abstract : StateT Script (Except Fault) α}
    {next : α → StateT Disk (Except Fault) β}
    {next' : α → StateT Script (Except Fault) β}
    (first : Follows dev store concrete abstract)
    (rest : ∀ value, Follows dev store (next value) (next' value)) :
    Follows dev store (concrete >>= next) (abstract >>= next') := by
  constructor
  · intro disk disk' segSz value usable returned
    rcases Action.bind_eq_ok returned with ⟨_, middle, begun, ended⟩
    exact (rest _).usable (first.usable usable begun) ended
  · intro disk segSz usable
    rcases first.alike usable with ⟨outcomes, begins⟩
    cases result : concrete disk with
    | error fault =>
        refine ⟨outcomes, fun script agrees known => ?_⟩
        have same := begins script agrees known
        rw [result] at same
        rw [run_bind_error result]
        exact run_bind_error same
    | ok pair =>
        rcases pair with ⟨value, middle⟩
        rcases (rest value).alike (first.usable usable result) with
          ⟨more, ends⟩
        refine ⟨outcomes ++ more, fun script agrees known => ?_⟩
        have known' : script.Begins outcomes := by
          intro n outcome here
          apply known n outcome
          rw [List.getElem?_append_left
            (List.getElem?_eq_some_iff.mp here).1]
          exact here
        have same := begins script agrees known'
        rw [result] at same
        rcases same with ⟨script', returned, agrees', past⟩
        have later : script'.Begins more := by
          intro n outcome here
          rw [past]
          apply known
          rw [List.getElem?_append_right (Nat.le_add_right _ _),
            Nat.add_sub_cancel_left]
          exact here
        have same' := ends script' agrees' later
        rw [run_bind_ok result, run_bind_ok returned, List.length_append]
        cases result' : next value middle with
        | error fault =>
            rw [result'] at same'
            exact same'
        | ok pair' =>
            rw [result'] at same'
            rcases same' with ⟨script'', returned', agrees'', past'⟩
            refine ⟨script'', returned', agrees'', fun n => ?_⟩
            rw [past', past, Nat.add_assoc]

/-! ## The source -/

theorem follows_load (ptr : Nat) :
    Follows dev store (cached.load ptr) (scripted.load ptr) := by
  refine ⟨fun usable returned => ?_, fun _ => ⟨[], fun script agrees _ =>
    ⟨script, ?_, agrees, fun n => ?_⟩⟩⟩
  · cases returned
    exact usable
  · show Except.ok (script.memory ptr, script) = _
    rw [agrees.memory_eq]
  · rw [List.length_nil, Nat.zero_add]

theorem follows_storeSegSz :
    Follows dev store (cached.storeSegSz store)
      (scripted.storeSegSz store) := by
  constructor
  · intro disk disk' segSz value usable returned
    have same := usable.size.symm.trans returned
    cases same
    exact usable
  · intro disk segSz usable
    refine ⟨[], fun script agrees _ => ?_⟩
    have returned : cached.storeSegSz store disk = .ok (segSz, disk) :=
      usable.size
    rw [returned]
    refine ⟨script, ?_, agrees, fun n => ?_⟩
    · rw [scripted_storeSegSz agrees.registered, agrees.segSz_eq]
    · rw [List.length_nil, Nat.zero_add]

/-- The outcome of a call is what it returns and leaves in memory. -/
theorem follows_bcGet (addr : Nat) :
    Follows dev store (cached.bcGet dev addr) (scripted.bcGet dev addr) := by
  constructor
  · intro disk disk' segSz value usable returned
    rcases usable.bcGet_cases addr with
      ⟨ret, buf, after, returned', usable', _⟩
    have same := returned'.symm.trans returned
    cases same
    exact usable'
  · intro disk segSz usable
    rcases usable.bcGet_cases addr with
      ⟨ret, buf, after, returned, usable', outcome⟩
    have set : ret ≠ 0 → buf ≠ none := by
      intro served
      rcases outcome with refused | ⟨_, ptr, rfl, _⟩
      · exact (served refused).elim
      · simp
    refine ⟨[⟨ret, buf, after.cache.buffer, set⟩], ?_⟩
    intro script agrees known
    have first := known 0 _ rfl
    have returned' : cached.bcGet dev addr disk =
      .ok ((ret, buf), after) := returned
    rw [returned']
    refine ⟨script.next, ?_, ⟨agrees.registered, agrees.segSz_eq, ?_⟩,
      fun n => ?_⟩
    · show Except.ok (((script.pending 0).ret, (script.pending 0).buf),
        script.next) = _
      rw [first]
    · show (script.pending 0).memory = _
      rw [first]
    · rw [List.length_singleton, Nat.add_comm]
      rfl

/-! ## The functions of the file system -/

theorem follows_getSb (slot : getStoreById dev = some store) :
    Follows dev store (cached.getSb dev) (scripted.getSb dev) := by
  rw [Source.getSb, Source.getSb, slot]
  refine follows_storeSegSz.bind fun segSz => (Follows.lift _).bind
    fun lba => (follows_bcGet lba).bind fun result => ?_
  rcases result with ⟨ret, sb⟩
  by_cases refused : ret = 0
  · simp only [refused, if_true]
    exact .pure none
  · simp only [refused, if_false]
    exact .pure sb

theorem follows_blk2lba
    (slot : getStoreById dev = some store)
    (blk : Nat) :
    Follows dev store (cached.blk2lba dev blk)
      (scripted.blk2lba dev blk) := by
  rw [Source.blk2lba, Source.blk2lba, slot]
  refine (follows_getSb slot).bind fun sb => ?_
  cases sb with
  | none => exact .throw .null
  | some sb =>
      exact (follows_load sb).bind fun sb => (Follows.lift _).bind
        fun byte => follows_storeSegSz.bind fun segSz => .lift _

theorem follows_initmnt
    {mnt : Mount}
    (slot : getStoreById mnt.dev = some store) :
    Follows mnt.dev store (cached.initmnt mnt) (scripted.initmnt mnt) := by
  rw [Source.initmnt, Source.initmnt, slot]
  refine (follows_getSb slot).bind fun sb => ?_
  cases sb with
  | none => exact .throw .null
  | some sb =>
      refine (follows_load sb).bind fun sb => ?_
      by_cases old : versMajor sb < 1
      · rw [if_pos old, if_pos old]
        exact .pure (-1, mnt)
      · rw [if_neg old, if_neg old]
        exact .pure _

theorem follows_findTable (slot : getStoreById dev = some store) :
    Follows dev store (cached.findTable dev) (scripted.findTable dev) := by
  rw [Source.findTable, Source.findTable]
  refine (follows_getSb slot).bind fun sb => ?_
  cases sb with
  | none => exact .throw .null
  | some sb =>
      refine (follows_load sb).bind fun sb => ?_
      by_cases empty : inoPerGroup sb = 0
      · rw [if_pos empty, if_pos empty]
        exact .throw .arithmetic
      · rw [if_neg empty, if_neg empty]
        refine (Follows.lift _).bind fun blk =>
          (follows_blk2lba slot _).bind fun seg =>
            (follows_bcGet seg).bind fun result => ?_
        rcases result with ⟨ret, table⟩
        by_cases refused : ret = 0
        · simp only [refused, if_true]
          exact .pure none
        · simp only [refused, if_false]
          cases table with
          | none => exact .throw .unset
          | some ptr => exact .pure _

theorem follows_locateInode
    (slot : getStoreById dev = some store)
    (id : Int)
    (table : Table) :
    Follows dev store (cached.locateInode dev id table)
      (scripted.locateInode dev id table) := by
  rw [Source.locateInode, Source.locateInode, slot]
  exact (follows_load table.ptr).bind fun contents =>
    (Follows.lift _).bind fun blkSize => (Follows.lift _).bind
      fun blkInTable => (follows_blk2lba slot _).bind
        fun lba => follows_storeSegSz.bind fun segSz => .pure _

theorem follows_findInode
    (slot : getStoreById dev = some store)
    (id : Int) :
    Follows dev store (cached.findInode dev id)
      (scripted.findInode dev id) := by
  rw [Source.findInode, Source.findInode]
  refine (follows_findTable slot).bind fun table => ?_
  cases table with
  | none => exact .pure none
  | some table =>
      exact (follows_locateInode slot id table).bind fun place =>
        (follows_bcGet place.1).bind fun result => .pure _

theorem follows_nodeFromId
    (slot : getStoreById dev = some store)
    (id : Int)
    (node : FsNode) :
    Follows dev store (cached.nodeFromId dev id node)
      (scripted.nodeFromId dev id node) := by
  rw [Source.nodeFromId, Source.nodeFromId]
  refine (follows_findInode slot id).bind fun place => ?_
  rcases place with _ | ⟨_ | ptr, offset⟩
  · exact .pure _
  · exact .throw .unset
  · exact (follows_load ptr).bind fun ino => .pure _

/-! ## Runs over the cache -/

/-- After these outcomes all calls are refused. -/
def Script.ofOutcomes
    {segSz : Nat}
    (nonzero : segSz ≠ 0)
    (memory : Nat → Segment)
    (outcomes : List Outcome) :
    Script where
  registered := true
  segSz := segSz
  segSz_ne := nonzero
  memory := memory
  made := []
  pending := fun n => outcomes[n]?.getD
    ⟨0, none, memory, Outcome.refused_set⟩

/-- What a run returns, or how it faults, is the same over some script. -/
theorem Follows.exists_script
    {concrete : StateT Disk (Except Fault) α}
    {abstract : StateT Script (Except Fault) α}
    {disk : Disk}
    {segSz : Nat}
    (follows : Follows dev store concrete abstract)
    (usable : disk.Usable dev store segSz) :
    ∃ script : Script, Agrees segSz disk script.start ∧
      (concrete disk).map Prod.fst =
        (abstract script.start).map Prod.fst := by
  rcases follows.alike usable with ⟨outcomes, alike⟩
  refine ⟨Script.ofOutcomes usable.nonzero disk.cache.buffer outcomes,
    ⟨rfl, rfl, rfl⟩, ?_⟩
  have known : (Script.ofOutcomes usable.nonzero disk.cache.buffer
      outcomes).start.Begins outcomes := by
    intro n outcome here
    show outcomes[n]?.getD _ = outcome
    rw [here, Option.getD_some]
  have same := alike _ ⟨rfl, rfl, rfl⟩ known
  cases result : concrete disk with
  | error fault =>
      rw [result] at same
      have same' : abstract (Script.ofOutcomes usable.nonzero
        disk.cache.buffer outcomes).start = .error fault := same
      rw [same']
      rfl
  | ok pair =>
      rw [result] at same
      rcases same with ⟨script', returned, _⟩
      rw [returned]
      rfl

/-- Mounting over the cache is mounting over some script. -/
theorem initmnt_scripted
    {disk : Disk}
    {segSz : Nat}
    {mnt : Mount}
    (usable : disk.Usable mnt.dev store segSz) :
    ∃ script : Script, (cached.initmnt mnt disk).map Prod.fst =
      (scripted.initmnt mnt script.start).map Prod.fst := by
  rcases (follows_initmnt usable.slot).exists_script usable with
    ⟨script, _, same⟩
  exact ⟨script, same⟩

/--
Reading an inode over the cache is reading it over some script.  If this
script obtains the blocks which are needed, no stray pointer is followed.
-/
theorem nodeFromId_obtained
    {disk : Disk}
    {segSz : Nat}
    (usable : disk.Usable dev store segSz)
    (id : Int)
    (node : FsNode) :
    ∃ script : Script,
      (Ext2.nodeFromId dev id node disk).map Prod.fst =
          (scripted.nodeFromId dev id node script.start).map Prod.fst ∧
        (script.Obtains id →
          faultOf (Ext2.nodeFromId dev id node disk) ≠ some .null ∧
            faultOf (Ext2.nodeFromId dev id node disk) ≠ some .unset) := by
  rcases (follows_nodeFromId usable.slot id node).exists_script usable with
    ⟨script, agrees, same⟩
  rw [cached_nodeFromId] at same
  refine ⟨script, same, fun obtains => ?_⟩
  have reports := (scripted_nodeFromId_reports script dev id node).mpr
    ⟨by simp [usable.slot], agrees.registered, obtains⟩
  cases result : Ext2.nodeFromId dev id node disk with
  | ok pair => simp [faultOf]
  | error fault =>
      rw [result] at same
      cases result' : scripted.nodeFromId dev id node script.start with
      | ok pair =>
          rw [result'] at same
          cases same
      | error fault' =>
          rw [result'] at same
          cases same
          rw [result'] at reports
          have harmless : fault ≠ .null ∧ fault ≠ .unset := reports.1
          simpa [faultOf] using harmless

end

end ForsKernel.Fs.Ext2
