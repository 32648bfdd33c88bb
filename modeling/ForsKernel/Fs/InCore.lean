import ForsKernel.Lib.Tally
import ForsKernel.Lib.Transition
import ForsKernel.Fs.OpenFiles
import ForsKernel.Fs.TestFs

/-!
# Nodes in memory

Over the test file system every lookup by name loads a node of its own: no
link is ever made to a node, so the search among the links finds nothing, and
`get_node_with_len` does not look for the node in the table.  No node is ever
given back.  `trail` says from the path alone which nodes are loaded, and both
what is unique in memory and how many entries are left follow from it.
-/

namespace ForsKernel.Fs

open ForsKernel.Lib.Tally
open ForsKernel.Lib.Transition

/-! ## What a path loads -/

/-- The lookups of a path: its directories and its name. -/
def lookups (path : CString) : List Component :=
  match path with
  | [] => []
  | first :: str =>
      if first ≠ slash then []
      else
        (components str).dropLast ++
          (basename path).toList.map fun name =>
            ⟨name, strnlen name filenameSize⟩

namespace TestFs

/-- The nodes found by these lookups from a directory on. -/
def trailFrom : Int → List Component → List Int
  | _, [] => []
  | dir, component :: rest =>
      if retrieveChild dir component.name component.len < 0 then []
      else
        retrieveChild dir component.name component.len ::
          trailFrom (retrieveChild dir component.name component.len) rest

/-- The nodes on the way along a path. -/
def trail
    (root : Int)
    (path : CString) :
    List Int :=
  trailFrom root (lookups path)

theorem findName_cases
    (name : CString)
    (nameLen first limit : Nat) :
    findName name nameLen first limit = -1 ∨
      ∃ i : Nat, findName name nameLen first limit = i ∧ i < limit := by
  rw [findName]
  split
  · rename_i i found
    have member := List.mem_of_find?_eq_some found
    rw [List.mem_range'_1] at member
    exact .inr ⟨i, rfl, by omega⟩
  · exact .inl rfl

/-- What is found exists, and is found in a directory. -/
theorem retrieveChild_cases
    (dir : Int)
    (name : CString)
    (nameLen : Nat) :
    retrieveChild dir name nameLen = -1 ∨
      Exists (retrieveChild dir name nameLen) ∧ IsDir dir := by
  have inside {first limit : Nat} (le : limit ≤ dir2Sentinal)
      (isDir : IsDir dir) : findName name nameLen first limit = -1 ∨
        Exists (findName name nameLen first limit) ∧ IsDir dir := by
    rcases findName_cases name nameLen first limit with
      missing | ⟨i, found, lt⟩
    · exact .inl missing
    · rw [found]
      exact .inr ⟨⟨by omega, by omega⟩, isDir⟩
  rw [retrieveChild]
  split
  · rename_i isRoot
    exact inside (by decide) (.inl isRoot)
  · split
    · rename_i isDir1
      exact inside (by decide) (.inr (.inl isDir1))
    · split
      · rename_i isDir2
        exact inside (by decide) (.inr (.inr isDir2))
      · exact .inl rfl

theorem trailFrom_of_file
    {dir : Int}
    (file : ¬ IsDir dir)
    (components : List Component) :
    trailFrom dir components = [] := by
  cases components with
  | nil => rfl
  | cons component rest =>
      rw [trailFrom, if_pos]
      rcases retrieveChild_cases dir component.name component.len with
        missing | ⟨_, isDir⟩
      · rw [missing]
        decide
      · exact (file isDir).elim

end TestFs

/-! ## Loading nodes -/

/-- Which node of which mount is in this entry of the table. -/
def Vfs.key
    (vfs : Vfs Unit)
    (node : Nat) :
    Option (Option Nat × Int) :=
  if (vfs.fsnodes node).type = .empty then none
  else some ((vfs.fsnodes node).mountpoint, (vfs.fsnodes node).internalId)

/-- How many entries of the table are free. -/
def Vfs.free (vfs : Vfs Unit) : Nat :=
  tally numFsnodes (fun node : FsNode => node.type = .empty) vfs.fsnodes

theorem Vfs.free_eq_zero
    {vfs : Vfs Unit}
    (full : findFreeNode vfs = none) :
    vfs.free = 0 := by
  apply tally_eq_zero.mpr
  intro node lt
  have taken := List.find?_eq_none.mp full node (List.mem_range.mpr lt)
  simpa using taken

/-- These nodes of a mount go one after the other to free entries. -/
inductive Loads (mount : Option Nat) :
    Vfs Unit → List Int → Vfs Unit → Prop where
  | done {vfs vfs' : Vfs Unit} (same : ∀ node, vfs'.key node = vfs.key node) :
      Loads mount vfs [] vfs'
  | load {vfs middle vfs' : Vfs Unit} {id : Int} {ids : List Int}
      {node : Nat} (lt : node < numFsnodes) (free : vfs.key node = none)
      (new : middle.key node = some (mount, id))
      (others : ∀ other ≠ node, middle.key other = vfs.key other)
      (rest : Loads mount middle ids vfs') :
      Loads mount vfs (id :: ids) vfs'

namespace Loads

variable
  {mount : Option Nat}
  {vfs vfs' vfs'' : Vfs Unit}
  {ids more : List Int}

/-- Changes which keep all keys may come before. -/
theorem before
    (same : ∀ node, vfs'.key node = vfs.key node)
    (loads : Loads mount vfs' ids vfs'') :
    Loads mount vfs ids vfs'' := by
  cases loads with
  | done same' => exact .done fun node => (same' node).trans (same node)
  | load lt free new others rest =>
      exact .load lt ((same _).symm.trans free) new
        (fun other different => (others other different).trans (same other))
        rest

theorem trans
    (first : Loads mount vfs ids vfs')
    (second : Loads mount vfs' more vfs'') :
    Loads mount vfs (ids ++ more) vfs'' := by
  induction first with
  | done same => exact second.before same
  | load lt free new others rest induction =>
      exact .load lt free new others (induction second)

/-- Every loaded node takes a free entry. -/
theorem free_eq (loads : Loads mount vfs ids vfs') :
    vfs.free = vfs'.free + ids.length := by
  have empty_iff (state : Vfs Unit) (node : Nat) :
      (state.fsnodes node).type = .empty ↔ state.key node = none := by
    rw [Vfs.key]
    split <;> simp_all
  induction loads with
  | @done vfs vfs' same =>
      rw [List.length_nil, Nat.add_zero]
      symm
      apply tally_congr
      intro node _
      rw [empty_iff, empty_iff, same]
  | @load vfs middle vfs' id ids node lt free new others rest induction =>
      have less : vfs.free = middle.free + 1 := by
        apply tally_lose lt
        · exact (empty_iff vfs node).mpr free
        · rw [empty_iff, new]
          simp
        · intro other different
          rw [empty_iff, empty_iff, others other different]
      rw [less, induction, List.length_cons]
      omega

end Loads

/-- No node is in memory twice. -/
def Unique (vfs : Vfs Unit) : Prop :=
  ∀ node node' key, vfs.key node = some key → vfs.key node' = some key →
    node = node'

/-- No two of these nodes are the same, and none is in memory. -/
def FreshIds
    (vfs : Vfs Unit)
    (mount : Option Nat)
    (ids : List Int) :
    Prop :=
  ids.Nodup ∧ ∀ id ∈ ids, ∀ node, vfs.key node ≠ some (mount, id)

theorem Unique.loads
    {mount : Option Nat}
    {vfs vfs' : Vfs Unit}
    {ids : List Int}
    (unique : Unique vfs)
    (loads : Loads mount vfs ids vfs')
    (fresh : FreshIds vfs mount ids) :
    Unique vfs' := by
  induction loads with
  | done same =>
      intro node node' key isKey isKey'
      rw [same] at isKey isKey'
      exact unique node node' key isKey isKey'
  | @load vfs middle vfs' id ids node lt free new others rest induction =>
      rcases fresh with ⟨distinct, absent⟩
      have alone {other : Nat} {key : Option Nat × Int}
          (isKey : middle.key other = some key) :
          (other = node ∧ key = (mount, id)) ∨ vfs.key other = some key := by
        by_cases same : other = node
        · subst same
          rw [new] at isKey
          exact .inl ⟨rfl, (Option.some.inj isKey).symm⟩
        · rw [others other same] at isKey
          exact .inr isKey
      apply induction
      · intro first second key isKey isKey'
        rcases alone isKey with ⟨rfl, rfl⟩ | old
        · rcases alone isKey' with ⟨rfl, _⟩ | old'
          · rfl
          · exact (absent id (by simp) second old').elim
        · rcases alone isKey' with ⟨rfl, rfl⟩ | old'
          · exact (absent id (by simp) first old).elim
          · exact unique first second key old old'
      · rw [List.nodup_cons] at distinct
        refine ⟨distinct.2, ?_⟩
        intro other member entry isKey
        rcases alone isKey with ⟨_, same⟩ | old
        · cases same
          exact distinct.1 member
        · exact absent other (by simp [member]) entry old

theorem Loads.key_kept
    {mount : Option Nat}
    {vfs vfs' : Vfs Unit}
    {ids : List Int}
    (loads : Loads mount vfs ids vfs')
    {node : Nat}
    {key : Option Nat × Int}
    (isKey : vfs.key node = some key) :
    vfs'.key node = some key := by
  induction loads with
  | done same => rw [same, isKey]
  | @load vfs middle vfs' id ids newNode lt free new others rest induction =>
      apply induction
      rw [others, isKey]
      rintro rfl
      rw [isKey] at free
      cases free

/-- If no node is in memory twice after loading, then only fresh ones came. -/
theorem FreshIds.of_unique
    {mount : Option Nat}
    {vfs vfs' : Vfs Unit}
    {ids : List Int}
    (loads : Loads mount vfs ids vfs')
    (unique : Unique vfs') :
    FreshIds vfs mount ids := by
  induction loads with
  | done same => exact ⟨List.nodup_nil, by simp⟩
  | @load vfs middle vfs' id ids newNode lt free new others rest induction =>
      have fresh := induction unique
      have stays {other : Nat} {key : Option Nat × Int}
          (isKey : vfs.key other = some key) :
          other ≠ newNode ∧ middle.key other = some key := by
        have different : other ≠ newNode := by
          rintro rfl
          rw [isKey] at free
          cases free
        exact ⟨different, (others other different).trans isKey⟩
      constructor
      · refine List.nodup_cons.mpr ⟨?_, fresh.1⟩
        intro member
        exact fresh.2 id member newNode new
      · intro other member node isKey
        rcases stays isKey with ⟨different, isKey'⟩
        rcases List.mem_cons.mp member with rfl | later
        · exact different (unique node newNode _ (rest.key_kept isKey')
            (rest.key_kept new))
        · exact fresh.2 other later node isKey'

theorem Unique.loads_iff
    {mount : Option Nat}
    {vfs vfs' : Vfs Unit}
    {ids : List Int}
    (unique : Unique vfs)
    (loads : Loads mount vfs ids vfs') :
    Unique vfs' ↔ FreshIds vfs mount ids :=
  ⟨fun unique' => .of_unique loads unique', fun fresh =>
    unique.loads loads fresh⟩

/-! ## States of the VFS over the test file system -/

/-- The node is what the test file system makes of its identifier. -/
structure FromTest (node : FsNode) : Prop where
  mounted : node.mountpoint ≠ none
  found : TestFs.Exists node.internalId
  type : node.type = if TestFs.IsDir node.internalId then .directory
    else .file
  perms : TestFs.IsDir node.internalId →
    node.perms = TestFs.filePerms ||| TestFs.dirPerms

/-- Nothing is linked, and the root is the root of a test file system. -/
structure Tested (vfs : Vfs Unit) : Prop where
  unlinked : ∀ node, (vfs.fsnodes node).child = none
  bounded : ∀ node, (vfs.fsnodes node).type ≠ .empty → node < numFsnodes
  nodes : ∀ node, (vfs.fsnodes node).type ≠ .empty →
    FromTest (vfs.fsnodes node)
  root : (vfs.fsnodes vfs.vfsRoot).type ≠ .empty
  rootId : (vfs.fsnodes vfs.vfsRoot).internalId = TestFs.idRootDir
  opened : ∀ fd node, (vfs.openFiles fd).node = some node →
    (vfs.fsnodes node).type ≠ .empty

theorem FromTest.fill
    {id : Int}
    (found : TestFs.Exists id)
    {node : FsNode}
    (mounted : node.mountpoint ≠ none) :
    FromTest (TestFs.fill id node) where
  mounted := mounted
  found := found
  type := rfl
  perms := fun isDir => if_pos isDir

section

variable {vfs vfs' : Vfs Unit}

theorem Vfs.key_of_inUse
    {node : Nat}
    (inUse : (vfs.fsnodes node).type ≠ .empty) :
    vfs.key node =
      some ((vfs.fsnodes node).mountpoint, (vfs.fsnodes node).internalId) :=
  if_neg inUse

theorem Vfs.key_congr
    {node : Nat}
    (same : vfs'.fsnodes node = vfs.fsnodes node) :
    vfs'.key node = vfs.key node := by
  rw [Vfs.key, Vfs.key, same]

/-- A free entry stays free or gets a node of the test file system. -/
theorem Tested.write
    (tested : Tested vfs)
    {node : Nat}
    {contents : FsNode}
    (lt : node < numFsnodes)
    (free : (vfs.fsnodes node).type = .empty)
    (unlinked : contents.child = none)
    (fromTest : contents.type ≠ .empty → FromTest contents)
    (nodes : vfs'.fsnodes = Function.update vfs.fsnodes node contents)
    (root : vfs'.vfsRoot = vfs.vfsRoot)
    (files : vfs'.openFiles = vfs.openFiles) :
    Tested vfs' := by
  have others {other : Nat} (inUse : (vfs.fsnodes other).type ≠ .empty) :
      vfs'.fsnodes other = vfs.fsnodes other := by
    rw [nodes, Function.update_of_ne]
    rintro rfl
    exact inUse free
  constructor
  · intro other
    rw [nodes]
    by_cases here : other = node
    · subst here
      rwa [Function.update_self]
    · rw [Function.update_of_ne here]
      exact tested.unlinked other
  · intro other inUse
    by_cases here : other = node
    · rwa [here]
    · rw [nodes, Function.update_of_ne here] at inUse
      exact tested.bounded other inUse
  · intro other inUse
    rw [nodes] at inUse ⊢
    by_cases here : other = node
    · subst here
      rw [Function.update_self] at inUse ⊢
      exact fromTest inUse
    · rw [Function.update_of_ne here] at inUse ⊢
      exact tested.nodes other inUse
  · rw [root, others tested.root]
    exact tested.root
  · rw [root, others tested.root]
    exact tested.rootId
  · intro fd other isOpen
    rw [files] at isOpen
    have inUse := tested.opened fd other isOpen
    rwa [others inUse]

/-- What becomes of a free entry which the file system is to fill in. -/
theorem Tested.filled
    (tested : Tested vfs)
    {newNode : Nat}
    {mount : Option Nat}
    {id : Int}
    (lt : newNode < numFsnodes)
    (free : (vfs.fsnodes newNode).type = .empty)
    (mounted : mount ≠ none)
    (nodes : vfs'.fsnodes = Function.update vfs.fsnodes newNode
      (TestFs.nodeFromId id
        { vfs.fsnodes newNode with mountpoint := mount }).2)
    (root : vfs'.vfsRoot = vfs.vfsRoot)
    (files : vfs'.openFiles = vfs.openFiles) :
    Tested vfs' ∧
      (TestFs.Exists id → Loads mount vfs [id] vfs' ∧
        vfs'.fsnodes newNode = TestFs.fill id
          { vfs.fsnodes newNode with mountpoint := mount }) ∧
      (¬ TestFs.Exists id → ∀ node, vfs'.key node = vfs.key node) := by
  have others (other : Nat) (different : other ≠ newNode) :
      vfs'.key other = vfs.key other := by
    apply Vfs.key_congr
    rw [nodes, Function.update_of_ne different]
  by_cases isNode : TestFs.Exists id
  · rw [TestFs.nodeFromId, if_pos isNode] at nodes
    have contents := congrFun nodes newNode
    rw [Function.update_self] at contents
    have tested' : Tested vfs' := by
      refine tested.write lt free ?_ ?_ nodes root files
      · rfl
      · exact fun _ => FromTest.fill isNode mounted
    refine ⟨tested', fun _ => ⟨?_, contents⟩,
      fun missing => (missing isNode).elim⟩
    refine .load lt (if_pos free) ?_ others (.done fun _ => rfl)
    rw [Vfs.key_of_inUse, contents]
    · rfl
    · rw [contents]
      exact TestFs.fill_type _ _
  · rw [TestFs.nodeFromId, if_neg isNode] at nodes
    have tested' : Tested vfs' := by
      refine tested.write lt free ?_ ?_ nodes root files
      · exact tested.unlinked newNode
      · exact fun inUse => (inUse free).elim
    refine ⟨tested', fun found => (isNode found).elim, fun _ node => ?_⟩
    by_cases here : node = newNode
    · subst here
      rw [Vfs.key, Vfs.key, nodes, Function.update_self, if_pos free,
        if_pos free]
    · exact others node here

/-- Only counters and open files change. -/
theorem Tested.keep
    (tested : Tested vfs)
    (nodes : ∀ node, ∃ count, vfs'.fsnodes node =
      { vfs.fsnodes node with refCount := count })
    (root : vfs'.vfsRoot = vfs.vfsRoot)
    (opened : ∀ fd node, (vfs'.openFiles fd).node = some node →
      (vfs.fsnodes node).type ≠ .empty) :
    Tested vfs' ∧ ∀ node, vfs'.key node = vfs.key node := by
  have type (node : Nat) :
      (vfs'.fsnodes node).type = (vfs.fsnodes node).type := by
    rcases nodes node with ⟨count, same⟩
    rw [same]
  refine ⟨⟨?_, ?_, ?_, ?_, ?_, ?_⟩, ?_⟩
  · intro node
    rcases nodes node with ⟨count, same⟩
    rw [same]
    exact tested.unlinked node
  · intro node inUse
    rw [type] at inUse
    exact tested.bounded node inUse
  · intro node inUse
    rw [type] at inUse
    have fromTest := tested.nodes node inUse
    rcases nodes node with ⟨count, same⟩
    rw [same]
    exact ⟨fromTest.mounted, fromTest.found, fromTest.type, fromTest.perms⟩
  · rw [root, type]
    exact tested.root
  · rw [root]
    rcases nodes vfs.vfsRoot with ⟨count, same⟩
    rw [same]
    exact tested.rootId
  · intro fd node isOpen
    rw [type]
    exact opened fd node isOpen
  · intro node
    rcases nodes node with ⟨count, same⟩
    rw [Vfs.key, Vfs.key, same]

/-! ## Lookups -/

theorem findLink_of_unlinked
    {parent : Nat}
    (unlinked : (vfs.fsnodes parent).child = none)
    (name : CString)
    (len : Nat) :
    findLink vfs parent name len = some none := by
  have chain : Lib.Chain.IsChain none (fun link : Option Nat =>
      link.bind fun i => (vfs.fslinks i).next) none [] := rfl
  rw [findLink, unlinked]
  exact Lib.Chain.search_eq chain (by decide)

/-- What a lookup which reaches the file system leaves behind. -/
theorem fetched_test
    {parent newNode : Nat}
    {name : CString}
    {len : Nat}
    {found : Option Nat}
    (fetched : Fetched testMounts parent name len vfs newNode (found, vfs')) :
    (found = if TestFs.Exists (TestFs.retrieveChild
        (vfs.fsnodes parent).internalId name len) then some newNode
      else none) ∧
    vfs'.fsnodes = Function.update vfs.fsnodes newNode
      (TestFs.nodeFromId (TestFs.retrieveChild
        (vfs.fsnodes parent).internalId name len)
        { vfs.fsnodes newNode with
          mountpoint := (vfs.fsnodes parent).mountpoint }).2 ∧
    vfs'.vfsRoot = vfs.vfsRoot ∧ vfs'.openFiles = vfs.openFiles ∧
      vfs'.fslinks = vfs.fslinks := by
  rcases fetched.kept fun _ _ _ _ _ => rfl with
    ⟨mount, _, reply, mounted, rfl, isFound, nodes, others⟩
  rw [mounted]
  refine ⟨?_, nodes, others⟩
  rw [isFound]
  simp only [testMounts, TestFs.testfsType, TestFs.nodeFromId]
  by_cases isNode : TestFs.Exists (TestFs.retrieveChild
      (vfs.fsnodes parent).internalId name len)
  · simp [isNode]
  · simp [isNode]

/-- A lookup finds nothing, or loads the node it looks for. -/
structure Looked
    (vfs : Vfs Unit)
    (parent : Nat)
    (id : Int)
    (vfs' : Vfs Unit)
    (node : Nat) :
    Prop where
  positive : 0 ≤ id
  loads : Loads (vfs.fsnodes parent).mountpoint vfs [id] vfs'
  inUse : (vfs'.fsnodes node).type ≠ .empty
  mount : (vfs'.fsnodes node).mountpoint = (vfs.fsnodes parent).mountpoint
  isId : (vfs'.fsnodes node).internalId = id

theorem Tested.lookup
    (tested : Tested vfs)
    {parent : Nat}
    {name : CString}
    {len : Nat}
    {found : Option Nat}
    (inUse : (vfs.fsnodes parent).type ≠ .empty)
    (returned : getNodeWithLen testMounts parent name len vfs =
      some (found, vfs')) :
    Tested vfs' ∧
      ((found = none ∧ (∀ node, vfs'.key node = vfs.key node) ∧
        (TestFs.retrieveChild (vfs.fsnodes parent).internalId name len < 0 ∨
          vfs.free = 0)) ∨
      ∃ node, found = some node ∧
        Looked vfs parent (TestFs.retrieveChild
          (vfs.fsnodes parent).internalId name len) vfs' node) := by
  rcases getNodeWithLen_inv returned with
    ⟨link, linked, _⟩ | ⟨_, ⟨full, result⟩ | ⟨newNode, free, fetched⟩⟩
  · rw [findLink_of_unlinked (tested.unlinked parent)] at linked
    cases linked
  · cases result
    exact ⟨tested, .inl ⟨rfl, fun _ => rfl, .inr (Vfs.free_eq_zero full)⟩⟩
  · rcases findFreeNode_spec free with ⟨lt, isFree⟩
    rcases fetched_test fetched with
      ⟨isFound, nodes, root, files, _⟩
    have mounted := (tested.nodes parent inUse).mounted
    have known := TestFs.retrieveChild_cases (vfs.fsnodes parent).internalId
      name len
    generalize TestFs.retrieveChild (vfs.fsnodes parent).internalId name
      len = id at isFound nodes known
    rcases tested.filled lt isFree mounted nodes root files with
      ⟨tested', loaded, unchanged⟩
    refine ⟨tested', ?_⟩
    by_cases isNode : TestFs.Exists id
    · right
      rcases loaded isNode with ⟨loads, contents⟩
      rw [if_pos isNode] at isFound
      refine ⟨newNode, isFound, isNode.1, loads, ?_, ?_, ?_⟩
      · rw [contents]
        exact TestFs.fill_type _ _
      · rw [contents]
        rfl
      · rw [contents]
        rfl
    · left
      rw [if_neg isNode] at isFound
      refine ⟨isFound, unchanged isNode, .inl ?_⟩
      rcases known with missing | ⟨isNode', _⟩
      · rw [missing]
        decide
      · exact (isNode isNode').elim

/-! ## Paths -/

/-- The nodes on the trail are loaded, as far as there is room for them. -/
structure Followed
    (mount : Option Nat)
    (vfs : Vfs Unit)
    (trail : List Int)
    (after : Vfs Unit) :
    Prop where
  tested : Tested after
  loads : Loads mount vfs (trail.take vfs.free) after

theorem Followed.nothing
    {mount : Option Nat}
    {trail : List Int}
    (tested : Tested vfs')
    (same : ∀ node, vfs'.key node = vfs.key node)
    (reason : trail = [] ∨ vfs.free = 0) :
    Followed mount vfs trail vfs' := by
  refine ⟨tested, ?_⟩
  have none_loaded : trail.take vfs.free = [] := by
    rw [List.take_eq_nil_iff]
    exact reason.symm
  rw [none_loaded]
  exact .done same

/-- What comes after nodes which were loaded. -/
theorem Followed.after
    {mount : Option Nat}
    {ids trail : List Int}
    {after : Vfs Unit}
    (loads : Loads mount vfs ids vfs')
    (followed : Followed mount vfs' trail after) :
    Followed mount vfs (ids ++ trail) after := by
  refine ⟨followed.tested, ?_⟩
  have room : (ids ++ trail).take vfs.free =
      ids ++ trail.take vfs'.free := by
    rw [loads.free_eq, Nat.add_comm, List.take_length_add_append]
  rw [room]
  exact loads.trans followed.loads

/-- What a lookup finds is loaded, and what is in it comes next. -/
theorem Looked.followed
    {parent node : Nat}
    {component : Component}
    {rest : List Component}
    {after : Vfs Unit}
    (looked : Looked vfs parent (TestFs.retrieveChild
      (vfs.fsnodes parent).internalId component.name component.len) vfs' node)
    (onwards : Followed (vfs'.fsnodes node).mountpoint vfs'
      (TestFs.trailFrom (vfs'.fsnodes node).internalId rest) after) :
    Followed (vfs.fsnodes parent).mountpoint vfs
      (TestFs.trailFrom (vfs.fsnodes parent).internalId (component :: rest))
      after := by
  rw [looked.mount, looked.isId] at onwards
  rw [TestFs.trailFrom, if_neg (Int.not_lt.mpr looked.positive)]
  exact onwards.after looked.loads

/-- A lookup which finds nothing ends the trail. -/
theorem Followed.missing
    {parent : Nat}
    (component : Component)
    (tested : Tested vfs')
    (same : ∀ node, vfs'.key node = vfs.key node)
    (reason : TestFs.retrieveChild (vfs.fsnodes parent).internalId
      component.name component.len < 0 ∨ vfs.free = 0)
    (rest : List Component) :
    Followed (vfs.fsnodes parent).mountpoint vfs
      (TestFs.trailFrom (vfs.fsnodes parent).internalId (component :: rest))
      vfs' := by
  refine .nothing tested same (reason.imp_left ?_)
  intro negative
  rw [TestFs.trailFrom, if_pos negative]

/-- Nothing is found in a file. -/
theorem Followed.file
    {node : Nat}
    (tested : Tested vfs)
    (inUse : (vfs.fsnodes node).type ≠ .empty)
    (file : (vfs.fsnodes node).type ≠ .directory)
    (components : List Component) :
    Followed (vfs.fsnodes node).mountpoint vfs
      (TestFs.trailFrom (vfs.fsnodes node).internalId components) vfs := by
  refine .nothing tested (fun _ => rfl) (.inl ?_)
  apply TestFs.trailFrom_of_file
  intro isDir
  rw [(tested.nodes node inUse).type, if_pos isDir] at file
  exact file rfl

/-- Everybody may enter a directory with these permissions. -/
theorem canExec_dirPerms
    {node : FsNode}
    (perms : node.perms = TestFs.filePerms ||| TestFs.dirPerms)
    (p : Int) :
    canExec node p = true := by
  rw [canExec, grants, perms]
  simp [show (TestFs.filePerms ||| TestFs.dirPerms) &&& execBits.other ≠ 0 by
    decide]

/-- Everybody may enter the directories of the test file system. -/
theorem FromTest.canExec
    {node : FsNode}
    (fromTest : FromTest node)
    (directory : node.type = .directory)
    (p : Int) :
    canExec node p = true := by
  have isDir : TestFs.IsDir node.internalId := by
    by_contra file
    rw [fromTest.type, if_neg file] at directory
    cases directory
  exact canExec_dirPerms (fromTest.perms isDir) p

/-- A way which ends early has loaded the whole trail. -/
theorem Stuck.followed
    {p : Int}
    {components : List Component}
    {node : Nat}
    {after : Vfs Unit}
    (stuck : Stuck testMounts p components node vfs after)
    (tested : Tested vfs)
    (inUse : (vfs.fsnodes node).type ≠ .empty)
    (more : List Component) :
    Followed (vfs.fsnodes node).mountpoint vfs
      (TestFs.trailFrom (vfs.fsnodes node).internalId (components ++ more))
      after := by
  induction stuck with
  | here file => exact .file tested inUse file _
  | missing found =>
      rcases tested.lookup inUse found with ⟨tested', looked⟩
      rcases looked with ⟨_, same, reason⟩ | ⟨node, isNode, _⟩
      · exact .missing _ tested' same reason _
      · cases isNode
  | @refused dir child vfs vfs' component rest found closed =>
      rcases tested.lookup inUse found with ⟨tested', looked⟩
      rcases looked with ⟨isNone, _⟩ | ⟨node, isNode, looked⟩
      · cases isNone
      · cases isNode
        apply looked.followed
        apply Followed.file tested' looked.inUse
        intro directory
        rcases closed with file | noExec
        · exact file directory
        · rw [(tested'.nodes child looked.inUse).canExec directory p]
            at noExec
          cases noExec
  | enter found directory onwards induction =>
      rcases tested.lookup inUse found with ⟨tested', looked⟩
      rcases looked with ⟨isNone, _⟩ | ⟨node, isNode, looked⟩
      · cases isNone
      · cases isNode
        exact looked.followed (induction tested' looked.inUse)

/-- A way to the end has loaded the trail up to there. -/
structure Arrived
    (vfs : Vfs Unit)
    (components : List Component)
    (node last : Nat)
    (after : Vfs Unit) :
    Prop where
  tested : Tested after
  inUse : (after.fsnodes last).type ≠ .empty
  directory : (after.fsnodes last).type = .directory ∨
    last = node ∧ after = vfs
  onwards : ∀ more final,
    Followed (after.fsnodes last).mountpoint after
      (TestFs.trailFrom (after.fsnodes last).internalId more) final →
    Followed (vfs.fsnodes node).mountpoint vfs
      (TestFs.trailFrom (vfs.fsnodes node).internalId (components ++ more))
      final

theorem Walk.arrived
    {p : Int}
    {components : List Component}
    {node last : Nat}
    {after : Vfs Unit}
    (walk : Walk testMounts p components node vfs last after)
    (tested : Tested vfs)
    (inUse : (vfs.fsnodes node).type ≠ .empty) :
    Arrived vfs components node last after := by
  induction walk with
  | done node vfs =>
      exact ⟨tested, inUse, .inr ⟨rfl, rfl⟩, fun _ _ followed => followed⟩
  | enter exec found directory onwards induction =>
      rcases tested.lookup inUse found with ⟨tested', looked⟩
      rcases looked with ⟨isNone, _⟩ | ⟨node, isNode, looked⟩
      · cases isNone
      · cases isNode
        have arrived := induction tested' looked.inUse
        refine ⟨arrived.tested, arrived.inUse, ?_, ?_⟩
        · rcases arrived.directory with isDir | ⟨rfl, rfl⟩
          · exact .inl isDir
          · exact .inl directory
        · intro more final followed
          exact looked.followed (arrived.onwards more final followed)

/-- The last lookup of a path. -/
theorem Arrived.lookup
    {components : List Component}
    {node last : Nat}
    {after final : Vfs Unit}
    {name : CString}
    {len : Nat}
    {found : Option Nat}
    (arrived : Arrived vfs components node last after)
    (returned : getNodeWithLen testMounts last name len after =
      some (found, final)) :
    Followed (vfs.fsnodes node).mountpoint vfs
        (TestFs.trailFrom (vfs.fsnodes node).internalId
          (components ++ [⟨name, len⟩])) final ∧
      ∀ target ∈ found, (final.fsnodes target).type ≠ .empty := by
  rcases arrived.tested.lookup arrived.inUse returned with ⟨tested, looked⟩
  rcases looked with ⟨rfl, same, reason⟩ | ⟨target, rfl, looked⟩
  · constructor
    · apply arrived.onwards
      exact .missing ⟨name, len⟩ tested same reason []
    · simp
  · constructor
    · apply arrived.onwards
      apply Looked.followed looked
      exact .nothing tested (fun _ => rfl) (.inl rfl)
    · intro other isOther
      cases isOther
      exact looked.inUse

/-! ## The operations -/

theorem Tested.root_directory (tested : Tested vfs) :
    (vfs.fsnodes vfs.vfsRoot).type = .directory := by
  rw [(tested.nodes _ tested.root).type, tested.rootId]
  decide

theorem lookups_of_name
    {str name : CString}
    (isName : basename (slash :: str) = some name) :
    lookups (slash :: str) =
      (components str).dropLast ++ [⟨name, strnlen name filenameSize⟩] := by
  rw [lookups, if_neg (not_not.mpr rfl), isName]
  rfl

theorem lookups_split (str : CString) :
    ∃ more, lookups (slash :: str) = (components str).dropLast ++ more :=
  ⟨_, by rw [lookups, if_neg (not_not.mpr rfl)]⟩

theorem lookups_of_relative
    {path : CString}
    (relative : path.head? ≠ some slash) :
    lookups path = [] := by
  cases path with
  | nil => rfl
  | cons first str =>
      rw [lookups, if_pos]
      rintro rfl
      exact relative rfl

/-- The end of `vfs_open` loads nothing. -/
theorem Tested.openNode
    (tested : Tested vfs)
    {p ret : Int}
    {mode node : Nat}
    (inUse : (vfs.fsnodes node).type ≠ .empty)
    (returned : Fs.openNode testMounts p mode node vfs = some (ret, vfs')) :
    Tested vfs' ∧ ∀ other, vfs'.key other = vfs.key other := by
  rcases openNode_inv returned with ⟨_, _, rfl⟩ | ⟨mount, _, _, finish⟩
  · exact ⟨tested, fun _ => rfl⟩
  · have same : (vfs.asked testMounts mount node).fsnodes = vfs.fsnodes :=
      Function.update_eq_self ..
    rcases finish with ⟨_, rfl, _⟩ | ⟨fd, _, _, rfl, _⟩
    · apply tested.keep
      · exact fun other => ⟨_, by rw [same]⟩
      · rfl
      · exact tested.opened
    · apply tested.keep
      · intro other
        by_cases here : other = node
        · subst here
          exact ⟨_, by
            rw [Vfs.fillFile, Vfs.setNode, same]
            exact Function.update_self ..⟩
        · exact ⟨_, by
            rw [Vfs.fillFile, Vfs.setNode, Vfs.setFile]
            simp only
            rw [Function.update_of_ne here, same]⟩
      · rfl
      · intro fd' other isOpen
        by_cases here : fd' = fd
        · subst here
          have isNode : other = node := by
            simpa [Vfs.fillFile, Vfs.setFile, Vfs.setNode] using isOpen.symm
          rwa [isNode]
        · apply tested.opened fd'
          rw [← isOpen]
          simp [Vfs.fillFile, Vfs.setFile, Vfs.setNode, here, Vfs.asked,
            Vfs.nodeReplied]

theorem Tested.vfsOpen
    (tested : Tested vfs)
    {p ret : Int}
    {path : CString}
    {mode : Nat}
    (returned : Fs.vfsOpen testMounts p path mode vfs = some (ret, vfs')) :
    Followed (vfs.fsnodes vfs.vfsRoot).mountpoint vfs
      (TestFs.trail TestFs.idRootDir path) vfs' := by
  have rootExec := (tested.nodes _ tested.root).canExec
    tested.root_directory p
  rw [← tested.rootId]
  rcases vfsOpen_inv returned with
    ⟨found, walked, _, forbidden⟩ |
      ⟨parent, entered, name, node, checked, walked, _, isName, got, opened⟩
  · rcases findParentCheckperm_outcome walked with
      ⟨refused, reason⟩ | ⟨str, rfl, _, outcome⟩
    · cases refused
      rcases reason with relative | noExec
      · refine .nothing tested (fun _ => rfl) (.inl ?_)
        rw [TestFs.trail, lookups_of_relative relative]
        rfl
      · rw [rootExec] at noExec
        cases noExec
    · cases found with
      | none =>
          rcases lookups_split str with ⟨more, split⟩
          rw [TestFs.trail, split]
          exact Stuck.followed outcome tested tested.root more
      | some parent =>
          have arrived := Walk.arrived outcome tested tested.root
          have noExec := forbidden parent rfl
          rcases arrived.directory with directory | ⟨rfl, rfl⟩
          · rw [(arrived.tested.nodes parent arrived.inUse).canExec
              directory p] at noExec
            cases noExec
          · rw [rootExec] at noExec
            cases noExec
  · rcases findParentCheckperm_walk walked with ⟨str, rfl, walk⟩
    rcases (walk.arrived tested tested.root).lookup got with
      ⟨followed, inUse⟩
    rcases followed.tested.openNode (inUse node rfl) opened with
      ⟨tested', same⟩
    have loads := followed.loads.trans (.done same)
    rw [List.append_nil] at loads
    rw [TestFs.trail, lookups_of_name isName]
    exact ⟨tested', loads⟩

theorem Tested.findNode
    (tested : Tested vfs)
    {root : Nat}
    {path : CString}
    {found : Option Nat}
    (inUse : (vfs.fsnodes root).type ≠ .empty)
    (returned : Fs.findNode testMounts root path vfs = some (found, vfs')) :
    Followed (vfs.fsnodes root).mountpoint vfs
      (TestFs.trail (vfs.fsnodes root).internalId path) vfs' := by
  rcases Option.bind_eq_some_iff.mp returned with
    ⟨⟨parent, entered⟩, walked, continued⟩
  rcases findParentCheckperm_outcome walked with
    ⟨refused, reason⟩ | ⟨str, rfl, _, outcome⟩
  · cases refused
    cases continued
    rcases reason with relative | noExec
    · refine .nothing tested (fun _ => rfl) (.inl ?_)
      rw [TestFs.trail, lookups_of_relative relative]
      rfl
    · simp [Fs.canExec, grants] at noExec
  · cases parent with
    | none =>
        cases continued
        rcases lookups_split str with ⟨more, split⟩
        rw [TestFs.trail, split]
        exact Stuck.followed outcome tested inUse more
    | some parent =>
        rcases Option.bind_eq_some_iff.mp continued with
          ⟨name, isName, got⟩
        rw [TestFs.trail, lookups_of_name isName]
        exact ((Walk.arrived outcome tested inUse).lookup got).1

theorem findNodeById_none
    {mount : Nat}
    {id : Int}
    (missing : findNodeById vfs mount id = none)
    (tested : Tested vfs)
    (node : Nat) :
    vfs.key node ≠ some (some mount, id) := by
  intro isKey
  have inUse : (vfs.fsnodes node).type ≠ .empty := by
    intro free
    rw [Vfs.key, if_pos free] at isKey
    cases isKey
  rw [Vfs.key_of_inUse inUse] at isKey
  have lt := tested.bounded node inUse
  have different := List.find?_eq_none.mp missing node (List.mem_range.mpr lt)
  rw [Option.some.injEq, Prod.mk.injEq] at isKey
  simp [inUse, isKey.1, isKey.2] at different

/-- A lookup by identifier loads a node which is not in memory. -/
theorem Tested.getNodeByid
    (tested : Tested vfs)
    (mount : Nat)
    (id : Int) :
    Tested (Fs.getNodeByid testMounts mount id vfs).2 ∧
      ∃ ids, Loads (some mount) vfs ids
          (Fs.getNodeByid testMounts mount id vfs).2 ∧
        FreshIds vfs (some mount) ids := by
  have nothing : FreshIds vfs (some mount) [] := ⟨List.nodup_nil, by simp⟩
  generalize resultEq : Fs.getNodeByid testMounts mount id vfs = result
  rw [Fs.getNodeByid] at resultEq
  split at resultEq
  · subst resultEq
    exact ⟨tested, [], .done fun _ => rfl, nothing⟩
  · rename_i missing
    split at resultEq
    · subst resultEq
      exact ⟨tested, [], .done fun _ => rfl, nothing⟩
    · rename_i newNode free
      rcases findFreeNode_spec free with ⟨lt, isFree⟩
      have contents : result.2.fsnodes = Function.update vfs.fsnodes newNode
          (TestFs.nodeFromId id { vfs.fsnodes newNode with
            mountpoint := some mount }).2 := by
        rw [← resultEq]
        simp [Vfs.nodeReplied, Vfs.setNode, testMounts, TestFs.testfsType]
      have root : result.2.vfsRoot = vfs.vfsRoot := by
        rw [← resultEq]
        rfl
      have files : result.2.openFiles = vfs.openFiles := by
        rw [← resultEq]
        rfl
      rcases tested.filled lt isFree (by simp) contents root files with
        ⟨tested', loaded, unchanged⟩
      refine ⟨tested', ?_⟩
      by_cases isNode : TestFs.Exists id
      · refine ⟨[id], (loaded isNode).1, List.nodup_singleton id, ?_⟩
        intro other member node
        rw [List.mem_singleton.mp member]
        exact findNodeById_none missing tested node
      · exact ⟨[], .done (unchanged isNode), nothing⟩

/-- A close gives no node back. -/
theorem Tested.vfsClose
    (tested : Tested vfs)
    {fd : Nat}
    {ret : Int}
    (returned : Fs.vfsClose testMounts fd vfs = some (ret, vfs')) :
    Tested vfs' ∧ ∀ node, vfs'.key node = vfs.key node := by
  rcases withFile_cases returned with closed | ⟨mount, node, _, isOpen, acted⟩
  · cases closed
    exact ⟨tested, fun _ => rfl⟩
  · cases acted
    apply tested.keep
    · intro other
      by_cases here : other = node
      · subst here
        exact ⟨_, by
          simp [Vfs.setFile, Vfs.setNode, Vfs.fileReplied, testMounts,
            TestFs.testfsType]
          rfl⟩
      · refine ⟨(vfs.fsnodes other).refCount, ?_⟩
        simp [Vfs.setFile, Vfs.setNode, Vfs.fileReplied, here]
    · rfl
    · intro other file isFile
      by_cases here : other = fd
      · subst here
        simp [Vfs.setFile] at isFile
      · apply tested.opened other
        rw [← isFile]
        simp [Vfs.setFile, Vfs.setNode, Vfs.fileReplied, here]

end

/-! ## The first state -/

theorem bootVfs_root : bootVfs.vfsRoot = 0 := by
  decide +kernel

theorem bootVfs_openFiles : bootVfs.openFiles = zeroVfs.openFiles := by
  have missing : findNodeById zeroVfs 0 TestFs.idRootDir = none := by
    decide +kernel
  have free : findFreeNode zeroVfs = some 0 := by decide +kernel
  simp [bootVfs, getNodeByid, missing, free, Vfs.nodeReplied, Vfs.setNode]

/-- Only the root is in memory. -/
theorem bootVfs_cases (node : Nat) :
    (node = 0 ∧ bootVfs.fsnodes node = TestFs.fill TestFs.idRootDir
      { zeroVfs.fsnodes 0 with mountpoint := some 0 }) ∨
    bootVfs.fsnodes node = ⟨none, 0, .empty, 0, 0, 0, none⟩ := by
  rw [bootVfs_fsnodes]
  by_cases isRoot : node = 0
  · subst isRoot
    exact .inl ⟨rfl, Function.update_self ..⟩
  · right
    rw [Function.update_of_ne isRoot]
    rfl

theorem Tested.boot : Tested bootVfs := by
  have root := bootVfs_root
  have type : (bootVfs.fsnodes 0).type ≠ .empty := by
    rw [bootVfs_fsnodes, Function.update_self]
    exact TestFs.fill_type _ _
  constructor
  · intro node
    rcases bootVfs_cases node with ⟨_, contents⟩ | contents
    · rw [contents]
      rfl
    · rw [contents]
  · intro node inUse
    rcases bootVfs_cases node with ⟨rfl, _⟩ | contents
    · decide
    · rw [contents] at inUse
      exact (inUse rfl).elim
  · intro node inUse
    rcases bootVfs_cases node with ⟨rfl, contents⟩ | contents
    · rw [contents]
      exact FromTest.fill (by decide) (by simp)
    · rw [contents] at inUse
      exact (inUse rfl).elim
  · rwa [root]
  · rw [root, bootVfs_fsnodes, Function.update_self]
    rfl
  · intro fd node isOpen
    rw [bootVfs_openFiles] at isOpen
    cases isOpen

theorem Unique.boot : Unique bootVfs := by
  have isRoot {node : Nat} {key : Option Nat × Int}
      (isKey : bootVfs.key node = some key) : node = 0 := by
    rcases bootVfs_cases node with ⟨rfl, _⟩ | contents
    · rfl
    · rw [Vfs.key, contents] at isKey
      cases isKey
  intro node node' key isKey isKey'
  rw [isRoot isKey, isRoot isKey']

end ForsKernel.Fs
