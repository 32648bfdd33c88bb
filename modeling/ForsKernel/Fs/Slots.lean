import ForsKernel.Lib.Transition
import ForsKernel.Fs.Ext2
import ForsKernel.Fs.PathWalk
import ForsKernel.Fs.TestFs

/-!
# The entries of the node table

An entry is free as long as its type is `EMPTY`, and it is `node_from_id` of
the file system which has to set the type.  A file system which fills its nodes
in keeps the entries apart, whatever is looked up; the test file system does.
`ext2_node_from_id` sets neither the type nor the counter, so the entry of
every node of an ext2 file system stays free.
-/

namespace ForsKernel.Fs

open ForsKernel.Lib.Transition

variable
  {ω : Type*}
  {mounts : Nat → FsOps ω}

/-! ## Lookups -/

/-- The lookups which load nodes. -/
inductive LookupOp where
  | getNodeByid (mount : Nat) (internalId : Int)
  | getNodeWithLen (parent : Nat) (name : CString) (len : Nat)

namespace LookupOp

def run (mounts : Nat → FsOps ω) : LookupOp → Vfs ω → Option (NodeResult ω)
  | .getNodeByid mount internalId, vfs =>
      some (Fs.getNodeByid mounts mount internalId vfs)
  | .getNodeWithLen parent name len, vfs =>
      Fs.getNodeWithLen mounts parent name len vfs

/-- The mount whose node is looked up. -/
def mount (vfs : Vfs ω) : LookupOp → Option Nat
  | .getNodeByid mount _ => some mount
  | .getNodeWithLen parent _ _ => (vfs.fsnodes parent).mountpoint

/-- The identifier which is looked up, in a mount. -/
def id
    (fs : FsOps ω)
    (vfs : Vfs ω) :
    LookupOp → Int
  | .getNodeByid _ internalId => internalId
  | .getNodeWithLen parent name len =>
      (fs.retrieveChild (vfs.fsnodes parent) name len vfs.fsState).ret

/-- Neither the table nor a link leads to the node. -/
def Loads (vfs : Vfs ω) : LookupOp → Prop
  | .getNodeByid mount internalId =>
      findNodeById vfs mount internalId = none
  | .getNodeWithLen parent name len =>
      findLink vfs parent name len = some none

end LookupOp

/-- A free entry which the file system is asked to fill in. -/
inductive Loaded
    (mounts : Nat → FsOps ω)
    (op : LookupOp)
    (vfs : Vfs ω) :
    Option Nat → Vfs ω → Prop where
  | intro {newNode mount : Nat} {fsState : ω} {reply : NodeReply ω}
      {after : Vfs ω} (free : findFreeNode vfs = some newNode)
      (mounted : op.mount vfs = some mount)
      (filled : (mounts mount).nodeFromId (op.id (mounts mount) vfs)
        { vfs.fsnodes newNode with mountpoint := some mount } fsState = reply)
      (nodes : after.fsnodes =
        Function.update vfs.fsnodes newNode reply.node)
      (links : after.fslinks = vfs.fslinks) :
      Loaded mounts op vfs
        (if reply.ret < 0 then none else some newNode) after

section

variable
  {vfs after : Vfs ω}
  {found : Option Nat}

theorem loadedById
    (mount : Nat)
    (internalId : Int)
    {newNode : Nat}
    (free : findFreeNode vfs = some newNode) :
    let claimed := vfs.setNode newNode
      { vfs.fsnodes newNode with mountpoint := some mount }
    let filled := (mounts mount).nodeFromId internalId
      (claimed.fsnodes newNode) claimed.fsState
    Loaded mounts (.getNodeByid mount internalId) vfs
      (if filled.ret < 0 then none else some newNode)
      (claimed.nodeReplied newNode filled
        (.nodeFromId internalId newNode filled.ret)) := by
  intro claimed filled
  have contents : claimed.fsnodes newNode =
      { vfs.fsnodes newNode with mountpoint := some mount } :=
    Function.update_self ..
  have isFilled : (mounts mount).nodeFromId internalId
      { vfs.fsnodes newNode with mountpoint := some mount }
      claimed.fsState = filled := by
    rw [← contents]
  exact .intro free rfl isFilled (Function.update_idem ..) rfl

/-- The ways through a lookup. -/
theorem LookupOp.run_cases
    (keeps : ∀ mount, KeepsParents (mounts mount))
    {op : LookupOp}
    (returned : op.run mounts vfs = some (found, after)) :
    (¬ op.Loads vfs ∧ after = vfs ∧
      ∀ node, found = some node → (vfs.fsnodes node).type ≠ .empty ∨
        ∃ link, (vfs.fslinks link).node = some node) ∨
    (op.Loads vfs ∧ found = none ∧ after = vfs) ∨
    (op.Loads vfs ∧ Loaded mounts op vfs found after) := by
  cases op with
  | getNodeByid mount internalId =>
      have result := Option.some.inj returned
      rw [Fs.getNodeByid] at result
      rw [LookupOp.Loads]
      split at result
      · rename_i node isNode
        cases result
        refine .inl ⟨by simp [isNode], rfl, ?_⟩
        intro node' same
        cases same
        have test := List.find?_some isNode
        simp only [Bool.and_eq_true, bne_iff_ne] at test
        exact .inl test.1
      · rename_i missing
        right
        split at result
        · cases result
          exact .inl ⟨missing, rfl, rfl⟩
        · rename_i newNode free
          cases result
          exact .inr ⟨missing, loadedById mount internalId free⟩
  | getNodeWithLen parent name len =>
      rw [LookupOp.Loads]
      rcases getNodeWithLen_inv returned with
        ⟨link, linked, result⟩ | ⟨missing, ⟨_, result⟩ | ⟨newNode, free,
          fetched⟩⟩
      · cases result
        refine .inl ⟨by simp [linked], rfl, ?_⟩
        intro node isNode
        exact .inr ⟨link, isNode⟩
      · cases result
        exact .inr (.inl ⟨missing, rfl, rfl⟩)
      · rcases fetched.kept keeps with
          ⟨mount, fsState, reply, mounted, filled, isFound, nodes, _, _,
            links⟩
        rw [isFound]
        exact .inr (.inr ⟨missing, .intro free mounted filled nodes links⟩)

end

/-! ## What the table relies on -/

/-- The node is the one which was asked for, and its entry is not free. -/
structure Occupies
    (node : FsNode)
    (mount : Option Nat)
    (id : Int) :
    Prop where
  type : node.type ≠ .empty
  mountpoint : node.mountpoint = mount
  internalId : node.internalId = id
  refCount : node.refCount = 0

/-- Every node which the file system fills in occupies its entry. -/
def FillsNodes (fs : FsOps ω) : Prop :=
  ∀ id node fsState, 0 ≤ (fs.nodeFromId id node fsState).ret →
    Occupies (fs.nodeFromId id node fsState).node node.mountpoint id

/-- The file system does not set the type of a node. -/
def KeepsType (fs : FsOps ω) : Prop :=
  ∀ id node fsState, (fs.nodeFromId id node fsState).node.type = node.type

section

variable
  {op : LookupOp}
  {vfs after : Vfs ω}
  {found : Option Nat}
  {node mount : Nat}

theorem Loaded.kept
    (loaded : Loaded mounts op vfs found after)
    (inUse : (vfs.fsnodes node).type ≠ .empty) :
    after.fsnodes node = vfs.fsnodes node := by
  cases loaded with
  | intro free _ _ nodes _ =>
      rw [nodes, Function.update_of_ne]
      rintro rfl
      exact inUse (findFreeNode_spec free).2

theorem Loaded.links (loaded : Loaded mounts op vfs found after) :
    after.fslinks = vfs.fslinks := by
  cases loaded with
  | intro _ _ _ _ links => exact links

theorem Loaded.mounted (loaded : Loaded mounts op vfs found after) :
    ∃ mount, op.mount vfs = some mount := by
  cases loaded with
  | intro _ mounted _ _ _ => exact ⟨_, mounted⟩

/-- What a node contains which was loaded into a free entry. -/
theorem Loaded.contents
    (loaded : Loaded mounts op vfs (some node) after)
    (mounted : op.mount vfs = some mount) :
    (vfs.fsnodes node).type = .empty ∧
      ∃ fsState reply, (mounts mount).nodeFromId (op.id (mounts mount) vfs)
          { vfs.fsnodes node with mountpoint := some mount } fsState = reply ∧
        0 ≤ reply.ret ∧ after.fsnodes node = reply.node := by
  generalize isFound : some node = found at loaded
  cases loaded with
  | @intro newNode mount' fsState reply _ free mounted' filled nodes links =>
      cases mounted.symm.trans mounted'
      split at isFound
      · cases isFound
      · rename_i succeeded
        cases isFound
        refine ⟨(findFreeNode_spec free).2, fsState, reply, filled,
          Int.not_lt.mp succeeded, ?_⟩
        rw [nodes, Function.update_self]

theorem Loaded.occupies
    (loaded : Loaded mounts op vfs (some node) after)
    (mounted : op.mount vfs = some mount)
    (fills : FillsNodes (mounts mount)) :
    Occupies (after.fsnodes node) (some mount)
      (op.id (mounts mount) vfs) := by
  rcases loaded.contents mounted with
    ⟨_, fsState, reply, rfl, succeeded, contents⟩
  rw [contents]
  exact fills _ _ _ succeeded

theorem Loaded.type
    (loaded : Loaded mounts op vfs (some node) after)
    (mounted : op.mount vfs = some mount)
    (keepsType : KeepsType (mounts mount)) :
    (after.fsnodes node).type = .empty := by
  rcases loaded.contents mounted with ⟨free, fsState, reply, rfl, _, contents⟩
  rw [contents, keepsType]
  exact free

end

/-! ## Sequences of lookups -/

/-- The nodes returned so far, the last one first, with their contents. -/
structure Lookups (ω : Type*) where
  vfs : Vfs ω
  results : List (Nat × FsNode)

def LookupOp.step
    (mounts : Nat → FsOps ω)
    (op : LookupOp)
    (state : Lookups ω) :
    Option (Lookups ω) :=
  (op.run mounts state.vfs).map fun (found, after) =>
    ⟨after, (found.map fun node => (node, after.fsnodes node)).toList ++
      state.results⟩

/-- Lookups from any table whose links lead to nodes. -/
def lookupSystem (mounts : Nat → FsOps ω) :
    System (Lookups ω) LookupOp where
  init := fun state => state.results = [] ∧
    ∀ link node, (state.vfs.fslinks link).node = some node →
      (state.vfs.fsnodes node).type ≠ .empty
  legal := fun _ _ => True
  step := fun state op => op.step mounts state

/-- What is loaded is loaded from a file system which fills its nodes in. -/
def LookupOp.Fills
    (mounts : Nat → FsOps ω)
    (state : Lookups ω)
    (op : LookupOp) :
    Prop :=
  op.Loads state.vfs → ∀ mount, op.mount state.vfs = some mount →
    FillsNodes (mounts mount)

/-- All nodes returned are in use and what they were. -/
structure Kept (state : Lookups ω) : Prop where
  linked : ∀ link node, (state.vfs.fslinks link).node = some node →
    (state.vfs.fsnodes node).type ≠ .empty
  results : ∀ result ∈ state.results,
    state.vfs.fsnodes result.1 = result.2 ∧ result.2.type ≠ .empty

section

variable
  {state state' : Lookups ω}
  {op : LookupOp}

theorem Kept.step
    (keeps : ∀ mount, KeepsParents (mounts mount))
    (kept : Kept state)
    (fills : op.Fills mounts state)
    (stepped : op.step mounts state = some state') :
    Kept state' := by
  rcases Option.map_eq_some_iff.mp stepped with
    ⟨⟨found, after⟩, returned, rfl⟩
  have added (inUse : ∀ node, found = some node →
      (after.fsnodes node).type ≠ .empty)
      (old : ∀ result ∈ state.results,
        after.fsnodes result.1 = result.2 ∧ result.2.type ≠ .empty) :
      ∀ result ∈ (found.map fun node =>
          (node, after.fsnodes node)).toList ++ state.results,
        after.fsnodes result.1 = result.2 ∧ result.2.type ≠ .empty := by
    intro result member
    rcases List.mem_append.mp member with new | earlier
    · simp only [Option.mem_toList, Option.map_eq_some_iff] at new
      rcases new with ⟨node, isNode, rfl⟩
      exact ⟨rfl, inUse node isNode⟩
    · exact old result earlier
  rcases LookupOp.run_cases keeps returned with
    ⟨_, rfl, inMemory⟩ | ⟨_, rfl, rfl⟩ | ⟨loads, loaded⟩
  · refine ⟨kept.linked, added ?_ kept.results⟩
    intro node isNode
    rcases inMemory node isNode with inUse | ⟨link, isLinked⟩
    · exact inUse
    · exact kept.linked link node isLinked
  · exact ⟨kept.linked, added (by simp) kept.results⟩
  · refine ⟨?_, added ?_ ?_⟩
    · intro link node isLinked
      rw [loaded.links] at isLinked
      have inUse := kept.linked link node isLinked
      rwa [loaded.kept inUse]
    · rintro node rfl
      rcases loaded.mounted with ⟨mount, mounted⟩
      exact (loaded.occupies mounted (fills loads mount mounted)).type
    · intro result member
      rcases kept.results result member with ⟨same, inUse⟩
      refine ⟨?_, inUse⟩
      rw [loaded.kept (by rwa [same]), same]

/-- In a sequence of such lookups nothing which was returned is lost. -/
theorem Kept.run
    (keeps : ∀ mount, KeepsParents (mounts mount))
    {condition : Lookups ω → LookupOp → Prop}
    (fills : ∀ before op, condition before op → op.Fills mounts before)
    {start : Lookups ω}
    {ops : List LookupOp}
    (initial : (lookupSystem mounts).init start)
    (run : ((lookupSystem mounts).restrict condition).Run start ops state) :
    Kept state := by
  have first : Kept start := by
    refine ⟨initial.2, ?_⟩
    rw [initial.1]
    simp
  refine run.invariant first ?_
  intro before op after kept last
  exact kept.step keeps (fills before op last.1.2) last.2

end

/-! ## The two file systems -/

/-- A file system without a state of its own, beside others. -/
def FsOps.beside (fs : FsOps Unit) : FsOps ω where
  retrieveChild := fun parent name len fsState =>
    { fs.retrieveChild parent name len () with fsState := fsState }
  nodeFromId := fun id node fsState =>
    { fs.nodeFromId id node () with fsState := fsState }
  fOpen := fun node fsState => { fs.fOpen node () with fsState := fsState }
  fClose := fun file node fsState =>
    { fs.fClose file node () with fsState := fsState }
  fSeek := fun file node offset anchor fsState =>
    { fs.fSeek file node offset anchor () with fsState := fsState }
  fRead := fun file node nbytes fsState =>
    ({ (fs.fRead file node nbytes ()).1 with fsState := fsState },
      (fs.fRead file node nbytes ()).2)
  fWrite := fun file node nbytes kbuffer fsState =>
    { fs.fWrite file node nbytes kbuffer () with fsState := fsState }

/-- The file system of a `mount_t`, and its device. -/
inductive MountType where
  | testfs
  | ext2 (dev : Int)
deriving DecidableEq

def MountType.fs : MountType → FsOps (Option Ext2.Disk)
  | .testfs => TestFs.testfsType.beside
  | .ext2 dev => Ext2.ext2Type dev

theorem MountType.fs_keepsParents (type : MountType) :
    KeepsParents type.fs := by
  cases type with
  | testfs => exact fun _ _ _ _ => rfl
  | ext2 dev => exact fun _ _ _ _ => rfl

theorem testfs_fillsNodes : FillsNodes MountType.testfs.fs := by
  intro id node fsState succeeded
  simp only [MountType.fs, FsOps.beside, TestFs.testfsType,
    TestFs.nodeFromId] at succeeded ⊢
  split at succeeded
  · rename_i isNode
    rw [if_pos isNode]
    exact ⟨TestFs.fill_type _ _, rfl, rfl, rfl⟩
  · simp at succeeded

theorem Ext2.nodeFromId_type
    {dev id ret : Int}
    {node filled : FsNode}
    {disk disk' : Disk}
    (returned : nodeFromId dev id node disk = .ok ((ret, filled), disk')) :
    filled.type = node.type := by
  rcases Action.bind_eq_ok returned with ⟨location, middle, _, continued⟩
  match location with
  | none =>
      cases continued
      rfl
  | some (none, _) => cases continued
  | some (some inoTableSeg, byteInSeg) =>
      cases continued
      rfl

theorem ext2_keepsType (dev : Int) : KeepsType (MountType.ext2 dev).fs := by
  intro id node disk
  simp only [MountType.fs, Ext2.ext2Type]
  split
  · rename_i ret filled disk' isOk
    rcases Option.map_eq_some_iff.mp isOk with ⟨disk, _, returned⟩
    exact Ext2.nodeFromId_type returned
  · rfl

/-- The file systems of a table of mounts. -/
def mountedFs (types : Nat → MountType) : Nat → FsOps (Option Ext2.Disk) :=
  fun mount => (types mount).fs

/-- What is loaded is loaded from a test file system. -/
def LookupOp.OnTestfs
    (types : Nat → MountType)
    (state : Lookups (Option Ext2.Disk))
    (op : LookupOp) :
    Prop :=
  op.Loads state.vfs → ∀ mount, op.mount state.vfs = some mount →
    types mount = .testfs

/--
Whatever is mounted and in the table, a node which is newly loaded occupies its
entry just when its mount is a test file system.  In every sequence of lookups
which load from test file systems only, all nodes returned stay what they were,
and different ones have different entries.
-/
theorem entries_apart (types : Nat → MountType) :
    (∀ (op : LookupOp) (vfs after : Vfs (Option Ext2.Disk))
        (node mount : Nat),
      op.run (mountedFs types) vfs = some (some node, after) →
      op.Loads vfs → op.mount vfs = some mount →
      (Occupies (after.fsnodes node) (some mount)
          (op.id (mountedFs types mount) vfs) ↔
        types mount = .testfs)) ∧
    ∀ (start state : Lookups (Option Ext2.Disk)) (ops : List LookupOp),
      (lookupSystem (mountedFs types)).init start →
      ((lookupSystem (mountedFs types)).restrict
        (LookupOp.OnTestfs types)).Run start ops state →
      (∀ result ∈ state.results, state.vfs.fsnodes result.1 = result.2) ∧
      ∀ result ∈ state.results, ∀ other ∈ state.results,
        (result.2.mountpoint, result.2.internalId) ≠
          (other.2.mountpoint, other.2.internalId) →
        result.1 ≠ other.1 := by
  have keeps (mount : Nat) : KeepsParents (mountedFs types mount) :=
    (types mount).fs_keepsParents
  have fills {mount : Nat} (isTestfs : types mount = .testfs) :
      FillsNodes (mountedFs types mount) := by
    rw [mountedFs, isTestfs]
    exact testfs_fillsNodes
  constructor
  · intro op vfs after node mount returned loads mounted
    have loaded : Loaded (mountedFs types) op vfs (some node) after := by
      rcases LookupOp.run_cases keeps returned with
        ⟨inMemory, _⟩ | ⟨_, isNone, _⟩ | ⟨_, loaded⟩
      · exact (inMemory loads).elim
      · cases isNone
      · exact loaded
    cases isType : types mount with
    | testfs =>
        exact iff_of_true (loaded.occupies mounted (fills isType)) rfl
    | ext2 dev =>
        have keepsType : KeepsType (mountedFs types mount) := by
          rw [mountedFs, isType]
          exact ext2_keepsType dev
        refine iff_of_false ?_ (by simp)
        intro occupies
        exact occupies.type (loaded.type mounted keepsType)
  · intro start state ops initial run
    have kept : Kept state := by
      refine .run keeps ?_ initial run
      intro before op onTestfs loads mount mounted
      exact fills (onTestfs loads mount mounted)
    refine ⟨fun result member => (kept.results result member).1, ?_⟩
    intro result member other member' different same
    apply different
    rw [← (kept.results result member).1, ← (kept.results other member').1,
      same]

/-! ## Samples -/

/-- A test file system is mounted first, and an ext2 file system next. -/
def twoMounts : Nat → MountType
  | 1 => .ext2 0
  | _ => .testfs

/-- No node is in memory. -/
def noNodes (disk : Option Ext2.Disk) : Vfs (Option Ext2.Disk) where
  vfsRoot := 0
  fsnodes := zeroVfs.fsnodes
  fslinks := zeroVfs.fslinks
  openFiles := zeroVfs.openFiles
  fsState := disk
  calls := []

def oneLookup : Lookups (Option Ext2.Disk) :=
  ((lookupSystem (mountedFs twoMounts)).step ⟨noNodes none, []⟩
    (.getNodeByid 0 0)).get (by decide +kernel)

def twoLookups : Lookups (Option Ext2.Disk) :=
  ((lookupSystem (mountedFs twoMounts)).step oneLookup
    (.getNodeWithLen 0 (TestFs.text "testdir1") 8)).get (by decide +kernel)

theorem entries_apart_two :
    twoLookups.results.map Prod.fst = [1, 0] ∧
      ∀ result ∈ twoLookups.results,
        twoLookups.vfs.fsnodes result.1 = result.2 := by
  have initial : (lookupSystem (mountedFs twoMounts)).init
      ⟨noNodes none, []⟩ := by
    refine ⟨rfl, ?_⟩
    intro link node isLinked
    cases isLinked
  have first : (lookupSystem (mountedFs twoMounts)).Step
      ⟨noNodes none, []⟩ (.getNodeByid 0 0) oneLookup :=
    ⟨trivial, (Option.some_get _).symm⟩
  have second : (lookupSystem (mountedFs twoMounts)).Step oneLookup
      (.getNodeWithLen 0 (TestFs.text "testdir1") 8) twoLookups :=
    ⟨trivial, (Option.some_get _).symm⟩
  have mounted : (oneLookup.vfs.fsnodes 0).mountpoint = some 0 := by
    decide +kernel
  refine ⟨by decide +kernel, ((entries_apart twoMounts).2 _ _ _ initial
    (((System.Run.nil _).snoc (first.restrict ?_)).snoc
      (second.restrict ?_))).1⟩
  · intro _ mount isMount
    cases isMount
    rfl
  · intro _ mount isMount
    cases mounted.symm.trans isMount
    rfl

/-- Eight inodes of 128 bytes in each group of blocks of 1024 bytes. -/
def sampleSuperblock : Ext2.Segment
  | 40 => 8
  | 88 => 128
  | _ => 0

/-- The inodes of the first group start in block 2. -/
def sampleTable : Ext2.Segment
  | 8 => 2
  | _ => 0

/-- Such a file system on the first store, of which nothing is cached yet. -/
def sampleDisk : Ext2.Disk where
  cache :=
    { bcCachedCount := 0
      stores := fun _ =>
        ⟨some 0, fun addr => if addr = 2 then sampleSuperblock
          else sampleTable, 0⟩
      entry := fun _ => ⟨0, 0, 0⟩
      buffer := fun _ _ => 0
      held := ∅
      wrCalls := [] }
  replies := fun call =>
    ⟨fun _ => true, true, fun _ => 0, call + 1, call + 101⟩
  segSz := fun _ => 512

/-- The entry of the first inode stays free. -/
theorem ext2_entry_free :
    ¬ ∀ (types : Nat → MountType) (op : LookupOp)
      (vfs after : Vfs (Option Ext2.Disk)) (node mount : Nat),
      op.run (mountedFs types) vfs = some (some node, after) →
      op.Loads vfs → op.mount vfs = some mount →
      Occupies (after.fsnodes node) (some mount)
        (op.id (mountedFs types mount) vfs) := by
  intro always
  have found : (getNodeByid (mountedFs twoMounts) 1 1
      (noNodes (some sampleDisk))).1 = some 0 := by
    decide +kernel
  have missing : findNodeById (noNodes (some sampleDisk)) 1 1 = none := by
    decide +kernel
  have occupies := always twoMounts (.getNodeByid 1 1)
    (noNodes (some sampleDisk)) _ 0 1
    (congrArg some (Prod.ext found rfl)) missing rfl
  exact absurd occupies.type (by decide +kernel)

end ForsKernel.Fs
