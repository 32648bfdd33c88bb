import ForsKernel.Fs.InCore
import ForsKernel.Fs.Prefixes

/-!
# Looking names up

Both lookups of a name compare with `strncmp`, which compares the common part
of two strings only.  A name is then taken for any other which starts with it
or with which it starts, and the first of these is found.
-/

namespace ForsKernel.Fs

open ForsKernel.Lib.Chain

/-! ## The test file system -/

namespace TestFs

def nodeName (id : Nat) : CString :=
  nodeNames.getD id []

/-- The identifiers among which the children of a directory are looked up. -/
def children (parentId : Int) : List Nat :=
  if parentId = idRootDir then List.range' 0 rootSentinal
  else if parentId = idTestdir1 then
    List.range' rootSentinal (dir1Sentinal - rootSentinal)
  else if parentId = idTestdir2 then
    List.range' dir1Sentinal (dir2Sentinal - dir1Sentinal)
  else []

theorem findName_eq
    (name : CString)
    (len first limit : Nat) :
    findName name len first limit =
      (((List.range' first (limit - first)).find? fun id =>
        strncmp name (nodeName id) len == 0).map Int.ofNat).getD (-1) := by
  simp only [findName, nodeName]
  cases (List.range' first (limit - first)).find? fun id =>
    strncmp name (nodeNames.getD id []) len == 0 <;> rfl

theorem retrieveChild_eq
    (parentId : Int)
    (name : CString)
    (len : Nat) :
    retrieveChild parentId name len =
      (((children parentId).find? fun id =>
        strncmp name (nodeName id) len == 0).map Int.ofNat).getD (-1) := by
  rw [retrieveChild, children]
  split_ifs
  · exact findName_eq _ _ _ _
  · exact findName_eq _ _ _ _
  · exact findName_eq _ _ _ _
  · rfl

/-- No name in a directory starts with another one. -/
theorem eq_of_comparable
    {parentId : Int}
    {id id' : Nat}
    (member : id ∈ children parentId)
    (member' : id' ∈ children parentId)
    (comparable : Comparable (nodeName id) (nodeName id')) :
    id = id' := by
  have root : ∀ id ∈ List.range' 0 rootSentinal,
      ∀ id' ∈ List.range' 0 rootSentinal,
        Comparable (nodeName id) (nodeName id') → id = id' := by
    decide
  have dir1 : ∀ id ∈ List.range' rootSentinal (dir1Sentinal - rootSentinal),
      ∀ id' ∈ List.range' rootSentinal (dir1Sentinal - rootSentinal),
        Comparable (nodeName id) (nodeName id') → id = id' := by
    decide
  have dir2 : ∀ id ∈ List.range' dir1Sentinal (dir2Sentinal - dir1Sentinal),
      ∀ id' ∈ List.range' dir1Sentinal (dir2Sentinal - dir1Sentinal),
        Comparable (nodeName id) (nodeName id') → id = id' := by
    decide
  rw [children] at member member'
  split_ifs at member member'
  · exact root id member id' member' comparable
  · exact dir1 id member id' member' comparable
  · exact dir2 id member id' member' comparable
  · cases member

theorem exists_of_child
    {parentId : Int}
    {id : Nat}
    (member : id ∈ children parentId) :
    Exists id := by
  have below : id < dir2Sentinal := by
    rw [children] at member
    split_ifs at member
    all_goals simp only [List.mem_range'_1, List.not_mem_nil, rootSentinal,
      dir1Sentinal, dir2Sentinal] at member ⊢
    all_goals omega
  exact ⟨by omega, by omega⟩

/-- With the whole name given, the first child with a comparable name. -/
theorem retrieveChild_eq_ofNat
    {parentId : Int}
    {name : CString}
    {len : Nat}
    (inside : len ≤ name.length)
    {id : Nat} :
    retrieveChild parentId name len = id ↔
      (children parentId).find? (fun id =>
        decide (Comparable (nodeName id) (name.take len))) = some id := by
  have same (other : Nat) : (strncmp name (nodeName other) len == 0) =
      decide (Comparable (nodeName other) (name.take len)) := by
    rw [Bool.eq_iff_iff, beq_iff_eq, decide_eq_true_eq,
      strncmp_name_left inside]
  simp only [retrieveChild_eq, same]
  cases (children parentId).find? fun id =>
      decide (Comparable (nodeName id) (name.take len)) with
  | none =>
      simp only [Option.map_none, Option.getD_none]
      constructor
      · intro negative
        omega
      · intro nothing
        cases nothing
  | some other =>
      rw [Option.map_some, Option.getD_some, Option.some.injEq]
      exact Int.ofNat_inj

/-- The children with exactly this name. -/
def RetrievesExactly
    (parentId : Int)
    (name : CString)
    (len : Nat) :
    Prop :=
  ∀ id : Nat, retrieveChild parentId name len = id ↔
    id ∈ children parentId ∧ nodeName id = name.take len

theorem retrievesExactly_iff
    {parentId : Int}
    {name : CString}
    {len : Nat}
    (inside : len ≤ name.length) :
    RetrievesExactly parentId name len ↔
      ∀ id ∈ children parentId, ¬ Overlaps (nodeName id) (name.take len) := by
  constructor
  · rintro exact id member ⟨comparable, different⟩
    have found : ((children parentId).find? fun id =>
        decide (Comparable (nodeName id) (name.take len))).isSome := by
      rw [List.find?_isSome]
      exact ⟨id, member, by simpa using comparable⟩
    rcases Option.isSome_iff_exists.mp found with ⟨first, isFirst⟩
    rcases (exact first).mp ((retrieveChild_eq_ofNat inside).mpr isFirst) with
      ⟨member', same⟩
    rw [← same] at comparable different
    exact different (congrArg nodeName
      (eq_of_comparable member member' comparable))
  · intro apart id
    rw [retrieveChild_eq_ofNat inside]
    constructor
    · intro found
      have member := List.mem_of_find?_eq_some found
      have comparable := List.find?_some found
      refine ⟨member, ?_⟩
      by_contra different
      exact apart id member ⟨by simpa using comparable, different⟩
    · rintro ⟨member, same⟩
      have found : ((children parentId).find? fun id =>
          decide (Comparable (nodeName id) (name.take len))).isSome := by
        rw [List.find?_isSome]
        exact ⟨id, member, by simp [same, Comparable.refl]⟩
      rcases Option.isSome_iff_exists.mp found with ⟨first, isFirst⟩
      have comparable := List.find?_some isFirst
      rw [decide_eq_true_eq, ← same] at comparable
      rw [isFirst, eq_of_comparable (List.mem_of_find?_eq_some isFirst) member
        comparable]

end TestFs

/-! ## The links of a directory -/

/-- The links of a directory, in the order in which they are followed. -/
structure ChildChain
    {ω : Type*}
    (vfs : Vfs ω)
    (parent : Nat)
    (links : List Nat) :
    Prop where
  chain : IsChain none
    (fun link : Option Nat => link.bind fun i => (vfs.fslinks i).next)
    (vfs.fsnodes parent).child (links.map some)
  inTable : ∀ link ∈ links, link < numFslinks

namespace ChildChain

variable
  {ω : Type*}
  {vfs : Vfs ω}
  {parent : Nat}
  {links : List Nat}

theorem length_le (list : ChildChain vfs parent links) :
    links.length ≤ numFslinks := by
  have distinct : links.Nodup := List.Nodup.of_map _ list.chain.nodup
  have inside : links ⊆ List.range numFslinks := fun link member =>
    List.mem_range.mpr (list.inTable link member)
  have most := (distinct.subperm inside).length_le
  rwa [List.length_range] at most

/-- The loop over the links finds the first one whose name passes. -/
theorem findLink_eq
    (list : ChildChain vfs parent links)
    (name : CString)
    (len : Nat) :
    findLink vfs parent name len = some (links.find? fun link =>
      strncmp (vfs.fslinks link).name name len == 0) := by
  have enough : (links.map some).length < linkFuel := by
    rw [List.length_map]
    exact Nat.lt_of_le_of_lt list.length_le (by decide)
  rw [findLink, search_eq list.chain enough, List.find?_map]
  congr 1
  simp only [Function.comp_def, Option.any_some]
  cases links.find? fun link =>
    strncmp (vfs.fslinks link).name name len == 0 <;> rfl

/-- The whole name is given: the first link with a comparable name. -/
theorem findLink_name
    (list : ChildChain vfs parent links)
    {name : CString}
    {len : Nat}
    (inside : len ≤ name.length) :
    findLink vfs parent name len = some (links.find? fun link =>
      decide (Comparable (vfs.fslinks link).name (name.take len))) := by
  have same (link : Nat) :
      (strncmp (vfs.fslinks link).name name len == 0) =
        decide (Comparable (vfs.fslinks link).name (name.take len)) := by
    rw [Bool.eq_iff_iff, beq_iff_eq, decide_eq_true_eq, strncmp_name inside]
  rw [list.findLink_eq]
  simp only [same]

end ChildChain

/-! ## Lookups in a directory -/

section

variable
  {vfs : Vfs Unit}
  {parent : Nat}
  {name : CString}
  {len : Nat}

/-- The file system is asked, and a free entry is there for its answer. -/
theorem getNodeWithLen_fetches
    {mount newNode : Nat}
    (inUse : (vfs.fsnodes parent).type ≠ .empty)
    (mounted : (vfs.fsnodes parent).mountpoint = some mount)
    (missing : findLink vfs parent name len = some none)
    (free : findFreeNode vfs = some newNode) :
    ∃ found after, getNodeWithLen testMounts parent name len vfs =
        some (found, after) ∧
      (found = if TestFs.Exists (TestFs.retrieveChild
          (vfs.fsnodes parent).internalId name len) then some newNode
        else none) ∧
      after.fsnodes = Function.update vfs.fsnodes newNode
        (TestFs.nodeFromId (TestFs.retrieveChild
          (vfs.fsnodes parent).internalId name len)
          { vfs.fsnodes newNode with
            mountpoint := (vfs.fsnodes parent).mountpoint }).2 ∧
      after.openFiles = vfs.openFiles ∧ after.fslinks = vfs.fslinks := by
  have different : parent ≠ newNode := by
    rintro rfl
    exact inUse (findFreeNode_spec free).2
  have returns : (getNodeWithLen testMounts parent name len vfs).isSome := by
    simp [getNodeWithLen, missing, free, Vfs.nodeReplied, Vfs.setNode,
      testMounts, TestFs.testfsType, different, mounted]
  rcases Option.isSome_iff_exists.mp returns with ⟨⟨found, after⟩, returned⟩
  refine ⟨found, after, returned, ?_⟩
  rcases getNodeWithLen_inv returned with
    ⟨link, linked, _⟩ | ⟨_, ⟨full, _⟩ | ⟨node, free', fetched⟩⟩
  · rw [missing] at linked
    cases linked
  · rw [free] at full
    cases full
  · rw [free] at free'
    cases free'
    rcases fetched_test fetched with
      ⟨isFound, nodes, _, files, links⟩
    exact ⟨isFound, nodes, files, links⟩

/-- A lookup which finds no link asks the test file system. -/
theorem getNodeWithLen_asks
    {mount : Nat}
    (inUse : (vfs.fsnodes parent).type ≠ .empty)
    (mounted : (vfs.fsnodes parent).mountpoint = some mount)
    (missing : findLink vfs parent name len = some none) :
    ∃ found after, getNodeWithLen testMounts parent name len vfs =
        some (found, after) ∧
      ((found = none ∧ (findFreeNode vfs = none ∨
          ¬ TestFs.Exists (TestFs.retrieveChild
            (vfs.fsnodes parent).internalId name len))) ∨
        ∃ node contents, found = some node ∧
          TestFs.Exists (TestFs.retrieveChild
            (vfs.fsnodes parent).internalId name len) ∧
          contents.mountpoint = some mount ∧
          after.fsnodes node = TestFs.fill (TestFs.retrieveChild
            (vfs.fsnodes parent).internalId name len) contents) := by
  cases free : findFreeNode vfs with
  | none =>
      refine ⟨none, vfs, ?_, .inl ⟨rfl, .inl rfl⟩⟩
      simp [getNodeWithLen, missing, free]
  | some newNode =>
      rcases getNodeWithLen_fetches inUse mounted missing free with
        ⟨found, after, returned, isFound, nodes, _, _⟩
      refine ⟨found, after, returned, ?_⟩
      by_cases isNode : TestFs.Exists (TestFs.retrieveChild
          (vfs.fsnodes parent).internalId name len)
      · rw [if_pos isNode] at isFound
        refine .inr ⟨newNode, { vfs.fsnodes newNode with
          mountpoint := (vfs.fsnodes parent).mountpoint }, isFound, isNode,
          mounted, ?_⟩
        rw [nodes, Function.update_self, TestFs.nodeFromId, if_pos isNode]
      · rw [if_neg isNode] at isFound
        exact .inl ⟨isFound, .inr isNode⟩

end

/--
The node of a link is returned only if the link has exactly the name, and
without such a link the child with exactly this name is loaded, or `NULL`
returned if there is none.
-/
structure LooksUpExactly
    (vfs : Vfs Unit)
    (parent : Nat)
    (links : List Nat)
    (name : CString)
    (len : Nat) :
    Prop where
  chosen : ∀ link, findLink vfs parent name len = some (some link) →
    (vfs.fslinks link).name = name.take len
  returned : ∃ found after,
    getNodeWithLen testMounts parent name len vfs = some (found, after) ∧
    (∀ link ∈ links.find? (fun link =>
        decide ((vfs.fslinks link).name = name.take len)),
      found = (vfs.fslinks link).node) ∧
    ((∀ link ∈ links, (vfs.fslinks link).name ≠ name.take len) →
      (∀ id ∈ TestFs.children (vfs.fsnodes parent).internalId,
        TestFs.nodeName id = name.take len →
        ∃ node, found = some node ∧
          (after.fsnodes node).type ≠ .empty ∧
          (after.fsnodes node).internalId = id ∧
          (after.fsnodes node).mountpoint =
            (vfs.fsnodes parent).mountpoint) ∧
      ((∀ id ∈ TestFs.children (vfs.fsnodes parent).internalId,
        TestFs.nodeName id ≠ name.take len) → found = none))

/--
No child of the directory has a name that overlaps with this one, no link with
such a name stands before one with exactly this name, and there is a free node
if a child has to be loaded.
-/
structure NameApart
    (vfs : Vfs Unit)
    (parent : Nat)
    (links : List Nat)
    (name : CString) :
    Prop where
  ofChildren : ∀ id ∈ TestFs.children (vfs.fsnodes parent).internalId,
    ¬ Overlaps (TestFs.nodeName id) name
  ofLinks : Unshadowed name (links.map fun link => (vfs.fslinks link).name)
  room : (∀ link ∈ links, (vfs.fslinks link).name ≠ name) →
    (∃ id ∈ TestFs.children (vfs.fsnodes parent).internalId,
      TestFs.nodeName id = name) → findFreeNode vfs ≠ none

section

variable
  {vfs : Vfs Unit}
  {parent mount : Nat}
  {links : List Nat}
  {name : CString}
  {len : Nat}

/-- The link which the lookup chooses has exactly the name. -/
theorem ChildChain.chosen_iff
    (list : ChildChain vfs parent links)
    (inside : len ≤ name.length) :
    (∀ link, findLink vfs parent name len = some (some link) →
        (vfs.fslinks link).name = name.take len) ↔
      Unshadowed (name.take len)
        (links.map fun link => (vfs.fslinks link).name) := by
  rw [list.findLink_name inside, ← find?_comparable_iff]
  simp only [Option.some.injEq]

theorem NameApart.looksUpExactly
    (list : ChildChain vfs parent links)
    (inUse : (vfs.fsnodes parent).type ≠ .empty)
    (mounted : (vfs.fsnodes parent).mountpoint = some mount)
    (inside : len ≤ name.length)
    (apart : NameApart vfs parent links (name.take len)) :
    LooksUpExactly vfs parent links name len := by
  refine ⟨(list.chosen_iff inside).mpr apart.ofLinks, ?_⟩
  have linked := list.findLink_name inside
  rw [apart.ofLinks.find?_eq] at linked
  cases isLink : links.find? fun link =>
      decide ((vfs.fslinks link).name = name.take len) with
  | some link =>
      rw [isLink] at linked
      refine ⟨(vfs.fslinks link).node, vfs, ?_, ?_, ?_⟩
      · simp [getNodeWithLen, linked]
      · rintro other same
        cases same
        rfl
      · intro unlinked
        have member := List.mem_of_find?_eq_some isLink
        have same := List.find?_some isLink
        exact (unlinked link member (by simpa using same)).elim
  | none =>
      rw [isLink] at linked
      have exact := (TestFs.retrievesExactly_iff inside).mpr apart.ofChildren
      rcases getNodeWithLen_asks inUse mounted linked with
        ⟨found, after, returned, outcome⟩
      refine ⟨found, after, returned, by simp, fun unlinked => ⟨?_, ?_⟩⟩
      · intro id member same
        have isChild := (exact id).mpr ⟨member, same⟩
        have isNode : TestFs.Exists id := TestFs.exists_of_child member
        have room := apart.room unlinked ⟨id, member, same⟩
        rw [isChild] at outcome
        rcases outcome with
          ⟨_, full | absent⟩ | ⟨node, contents, isFound, _, mount', filled⟩
        · exact (room full).elim
        · exact (absent isNode).elim
        · refine ⟨node, isFound, ?_, ?_, ?_⟩
          · rw [filled]
            exact TestFs.fill_type _ _
          · rw [filled]
            rfl
          · rw [filled, mounted]
            exact mount'
      · intro missing
        rcases outcome with ⟨nothing, _⟩ | ⟨_, _, _, isNode, _, _⟩
        · exact nothing
        · rcases Int.eq_ofNat_of_zero_le isNode.1 with ⟨id, isId⟩
          have child := (exact id).mp isId
          exact (missing id child.1 child.2).elim

/-- A child can be returned only if there is a free node to load it to. -/
theorem LooksUpExactly.room
    (list : ChildChain vfs parent links)
    (inside : len ≤ name.length)
    (exact : LooksUpExactly vfs parent links name len)
    (unlinked : ∀ link ∈ links, (vfs.fslinks link).name ≠ name.take len)
    (child : ∃ id ∈ TestFs.children (vfs.fsnodes parent).internalId,
      TestFs.nodeName id = name.take len) :
    findFreeNode vfs ≠ none := by
  intro full
  have missing : links.find? (fun link =>
      decide ((vfs.fslinks link).name = name.take len)) = none := by
    rw [List.find?_eq_none]
    simpa using unlinked
  have linked := list.findLink_name inside
  rw [((list.chosen_iff inside).mp exact.chosen).find?_eq, missing] at linked
  have nothing : getNodeWithLen testMounts parent name len vfs =
      some (none, vfs) := by
    simp [getNodeWithLen, linked, full]
  rcases exact.returned with ⟨found, after, returned, _, asked⟩
  rw [nothing] at returned
  cases returned
  rcases child with ⟨id, member, same⟩
  rcases (asked unlinked).1 id member same with ⟨node, isFound, _⟩
  cases isFound

/--
For every directory on a test file system, `tfs_retrieve_child` and
`get_node_with_len` look a name up exactly just when the name is apart from
those of the other children and of the links before its own.
-/
theorem lookup_exact_iff
    (list : ChildChain vfs parent links)
    (directory : (vfs.fsnodes parent).type = .directory)
    (mounted : (vfs.fsnodes parent).mountpoint = some mount)
    (inside : len ≤ name.length) :
    TestFs.RetrievesExactly (vfs.fsnodes parent).internalId name len ∧
        LooksUpExactly vfs parent links name len ↔
      NameApart vfs parent links (name.take len) := by
  have inUse : (vfs.fsnodes parent).type ≠ .empty := by
    rw [directory]
    decide
  constructor
  · rintro ⟨retrieves, exact⟩
    exact ⟨(TestFs.retrievesExactly_iff inside).mp retrieves,
      (list.chosen_iff inside).mp exact.chosen,
      exact.room list inside⟩
  · intro apart
    exact ⟨(TestFs.retrievesExactly_iff inside).mpr apart.ofChildren,
      apart.looksUpExactly list inUse mounted inside⟩

end

/-- The root with its link to `/testdir1`. -/
theorem dirVfs_children : ChildChain dirVfs 0 [0] := by
  refine ⟨⟨?_, by simp, ?_⟩, by decide⟩
  · decide +kernel
  · show (dirVfs.fslinks 0).next = none
    decide +kernel

theorem lookup_exact_iff_child :
    LooksUpExactly dirVfs 0 [0] (TestFs.text "test.txt/") 8 := by
  have directory : (dirVfs.fsnodes 0).type = .directory := by decide +kernel
  have mounted : (dirVfs.fsnodes 0).mountpoint = some 0 := by decide +kernel
  have isRoot : (dirVfs.fsnodes 0).internalId = TestFs.idRootDir := by
    decide +kernel
  have isName : (dirVfs.fslinks 0).name = TestFs.text "testdir1" := by
    decide +kernel
  have room : findFreeNode dirVfs ≠ none := by decide +kernel
  apply ((lookup_exact_iff dirVfs_children directory mounted
    (by decide)).mpr ?_).2
  refine ⟨?_, ?_, fun _ _ => room⟩
  · rw [isRoot]
    decide
  · rw [List.map_singleton, isName, unshadowed_cons, if_neg (by decide)]
    simp [Unshadowed]

/-- The name `t` is taken for that of the file `test.txt`. -/
theorem lookup_of_prefix :
    ¬ ∀ (vfs : Vfs Unit) (parent mount : Nat) (links : List Nat)
      (name : CString) (len : Nat), ChildChain vfs parent links →
      (vfs.fsnodes parent).type = .directory →
      (vfs.fsnodes parent).mountpoint = some mount →
      1 ≤ len → len ≤ filenameSize → len ≤ name.length →
      TestFs.RetrievesExactly (vfs.fsnodes parent).internalId name len ∧
        LooksUpExactly vfs parent links name len := by
  intro always
  have both := always dirVfs 0 0 [0] (TestFs.text "t") 1 dirVfs_children
    (by decide +kernel) (by decide +kernel) (by decide) (by decide)
    (by decide)
  have found : TestFs.retrieveChild (dirVfs.fsnodes 0).internalId
      (TestFs.text "t") 1 = (1 : Nat) := by
    decide +kernel
  exact absurd ((both.1 1).mp found).2 (by decide)

end ForsKernel.Fs
