import ForsKernel.Fs.LastName
import ForsKernel.Fs.Names

/-!
# Which paths can be opened

`vfs_open` checks the parent of its path for `NULL`, but neither the name nor
the node which it looks up last.  What its lookups come to can be told from the
state before: each leads to a node in memory by a link, or to a node of the
test file system, which then takes a free entry of the table.  So it can be
told which paths make it fault.
-/

namespace ForsKernel.Fs

open ForsKernel.Lib.Tally

/-! ## Places in the tree -/

/-- A node in memory, or one which is to be loaded. -/
inductive Place where
  | inCore (node : Nat)
  | stored (id : Int)
deriving DecidableEq

/-- The child of a directory which is found on the test file system. -/
def TestFs.storedChild
    (dir : Int)
    (component : Component) :
    Option Place :=
  if retrieveChild dir component.name component.len < 0 then none
  else some (.stored (retrieveChild dir component.name component.len))

namespace Place

/-- Where a name leads to: the links are looked through first. -/
def child (vfs : Vfs Unit) : Place → Component → Option Place
  | .inCore node, component =>
      match findLink vfs node component.name component.len with
      | some (some link) => (vfs.fslinks link).node.map .inCore
      | some none =>
          TestFs.storedChild (vfs.fsnodes node).internalId component
      | none => none
  | .stored id, component => TestFs.storedChild id component

def IsDirectory (vfs : Vfs Unit) : Place → Prop
  | .inCore node => (vfs.fsnodes node).type = .directory
  | .stored id => TestFs.IsDir id

instance (vfs : Vfs Unit) : DecidablePred (IsDirectory vfs)
  | .inCore _ => inferInstanceAs (Decidable (_ = _))
  | .stored _ => inferInstanceAs (Decidable (TestFs.IsDir _))

/-- A directory which the process may enter. -/
def MayEnter
    (vfs : Vfs Unit)
    (p : Int) :
    Place → Prop
  | .inCore node => (vfs.fsnodes node).type = .directory ∧
      canExec (vfs.fsnodes node) p = true
  | .stored id => TestFs.IsDir id

instance
    (vfs : Vfs Unit)
    (p : Int) :
    DecidablePred (MayEnter vfs p)
  | .inCore _ => inferInstanceAs (Decidable (_ ∧ _))
  | .stored _ => inferInstanceAs (Decidable (TestFs.IsDir _))

/-- The entries of the table which are taken to come here. -/
def cost : Place → Nat
  | .inCore _ => 0
  | .stored _ => 1

/-- The place to which these directories lead. -/
def resolve (vfs : Vfs Unit) : Place → List Component → Option Place
  | place, [] => some place
  | place, component :: rest =>
      (place.child vfs component).bind fun next =>
        if next.IsDirectory vfs then next.resolve vfs rest else none

/--
The same for a process, and as long as there are free entries.  The number of
entries which remain free is returned as well.
-/
def walk
    (vfs : Vfs Unit)
    (p : Int) :
    Place → Nat → List Component → Option (Place × Nat)
  | place, free, [] => some (place, free)
  | place, free, component :: rest =>
      (place.child vfs component).bind fun next =>
        if next.cost ≤ free ∧ next.MayEnter vfs p then
          next.walk vfs p (free - next.cost) rest
        else none

end Place

/-- The last name of a path, as `vfs_open` looks it up. -/
def lastName (path : CString) : Option Component :=
  (basename path).map fun name => ⟨name, strnlen name filenameSize⟩

/-- There is a node at this path. -/
def Resolves
    (vfs : Vfs Unit)
    (path : CString) :
    Prop :=
  path.head? = some slash ∧
    ∃ dir name target,
      (Place.inCore vfs.vfsRoot).resolve vfs (components path).dropLast =
        some dir ∧
      lastName path = some name ∧ dir.child vfs name = some target

/--
If all directories of the path can be entered, then the path has a name, and
a node with this name is found and fits into the table.
-/
def Openable
    (vfs : Vfs Unit)
    (p : Int)
    (path : CString) :
    Prop :=
  path.head? = some slash →
    canExec (vfs.fsnodes vfs.vfsRoot) p = true →
    ∀ dir free,
      (Place.inCore vfs.vfsRoot).walk vfs p vfs.free
        (components path).dropLast = some (dir, free) →
      ∃ name target, lastName path = some name ∧
        dir.child vfs name = some target ∧ target.cost ≤ free

/-! ## Lookups from a tree -/

/--
A tree over the test file system: its nodes are mounted, and the links of each
are a list and lead to nodes.
-/
structure TestTree (vfs : Vfs Unit) : Prop where
  root : (vfs.fsnodes vfs.vfsRoot).type = .directory
  mounted : ∀ node, (vfs.fsnodes node).type ≠ .empty →
    (vfs.fsnodes node).mountpoint ≠ none
  linked : ∀ node, (vfs.fsnodes node).type ≠ .empty →
    ∃ links, ChildChain vfs node links ∧
      ∀ link ∈ links, ∃ target, (vfs.fslinks link).node = some target ∧
        (vfs.fsnodes target).type ≠ .empty

/-- Lookups have only filled free entries, with nodes nobody refers to. -/
structure Later (vfs after : Vfs Unit) : Prop where
  links : after.fslinks = vfs.fslinks
  files : after.openFiles = vfs.openFiles
  kept : ∀ node, (vfs.fsnodes node).type ≠ .empty →
    after.fsnodes node = vfs.fsnodes node
  loaded : ∀ node, (vfs.fsnodes node).type = .empty →
    (after.fsnodes node).type ≠ .empty → (after.fsnodes node).refCount = 0

/-- The entry in which the node of a place is found later. -/
def Place.At (vfs after : Vfs Unit) : Place → Nat → Prop
  | .inCore node, entry => entry = node ∧ (vfs.fsnodes node).type ≠ .empty
  | .stored id, entry => ∃ contents : FsNode,
      contents.mountpoint ≠ none ∧
      after.fsnodes entry = TestFs.fill id contents

section

variable
  {vfs after : Vfs Unit}
  {place : Place}
  {entry : Nat}

theorem Later.refl (vfs : Vfs Unit) : Later vfs vfs where
  links := rfl
  files := rfl
  kept := fun _ _ => rfl
  loaded := fun _ free inUse => (inUse free).elim

theorem Vfs.free_pos
    {node : Nat}
    (free : findFreeNode vfs = some node) :
    0 < vfs.free := by
  rcases findFreeNode_spec free with ⟨lt, isFree⟩
  by_contra none_left
  have full : vfs.free = 0 := by omega
  exact tally_eq_zero.mp full node lt isFree

/-- The node of a place is in use, and mounted. -/
theorem Place.At.inUse
    (tree : TestTree vfs)
    (later : Later vfs after)
    (here : place.At vfs after entry) :
    (after.fsnodes entry).type ≠ .empty ∧
      (after.fsnodes entry).mountpoint ≠ none := by
  cases place with
  | inCore node =>
      rcases here with ⟨rfl, inUse⟩
      rw [later.kept entry inUse]
      exact ⟨inUse, tree.mounted entry inUse⟩
  | stored id =>
      rcases here with ⟨contents, mounted, isNode⟩
      rw [isNode]
      exact ⟨TestFs.fill_type _ _, mounted⟩

/-- A link in memory is found again, and nothing else is in between. -/
theorem Place.At.child_cases
    (tree : TestTree vfs)
    (later : Later vfs after)
    (here : place.At vfs after entry)
    (component : Component) :
    (∃ link target,
      findLink after entry component.name component.len = some (some link) ∧
      (after.fslinks link).node = some target ∧
      place.child vfs component = some (.inCore target) ∧
      (vfs.fsnodes target).type ≠ .empty) ∨
    (findLink after entry component.name component.len = some none ∧
      place.child vfs component =
        TestFs.storedChild (after.fsnodes entry).internalId component) := by
  cases place with
  | inCore node =>
      rcases here with ⟨rfl, inUse⟩
      have same := later.kept entry inUse
      have found : findLink after entry component.name component.len =
          findLink vfs entry component.name component.len := by
        rw [findLink, findLink, later.links, same]
      rcases tree.linked entry inUse with ⟨links, list, leads⟩
      rw [found, same, Place.child, later.links,
        list.findLink_eq component.name component.len]
      cases chosen : links.find? _ with
      | none => exact .inr ⟨rfl, rfl⟩
      | some link =>
          rcases leads link (List.mem_of_find?_eq_some chosen) with
            ⟨target, isTarget, inUse'⟩
          refine .inl ⟨link, target, rfl, isTarget, ?_, inUse'⟩
          simp only [isTarget, Option.map_some]
  | stored id =>
      rcases here with ⟨contents, _, isNode⟩
      right
      rw [isNode]
      refine ⟨findLink_of_unlinked ?_ _ _, rfl⟩
      rw [isNode]
      rfl

/-- An entry which was free is filled in. -/
theorem Later.fill
    (later : Later vfs after)
    {final : Vfs Unit}
    {newNode : Nat}
    {contents : FsNode}
    {id : Int}
    (nodes : final.fsnodes = Function.update after.fsnodes newNode
      (TestFs.nodeFromId id contents).2)
    (free : (after.fsnodes newNode).type = .empty)
    (isFree : contents.type = .empty)
    (files : final.openFiles = after.openFiles)
    (links : final.fslinks = after.fslinks) :
    Later vfs final := by
  refine ⟨links.trans later.links, files.trans later.files, ?_, ?_⟩
  · intro node inUse
    have different : node ≠ newNode := by
      rintro rfl
      rw [later.kept node inUse] at free
      exact inUse free
    rw [nodes, Function.update_of_ne different, later.kept node inUse]
  · intro node wasFree inUse
    rw [nodes] at inUse ⊢
    by_cases here : node = newNode
    · subst here
      rw [Function.update_self, TestFs.nodeFromId] at inUse ⊢
      split at inUse
      · rename_i isNode
        rw [if_pos isNode]
        rfl
      · exact (inUse isFree).elim
    · rw [Function.update_of_ne here] at inUse ⊢
      exact later.loaded node wasFree inUse

theorem TestFs.storedChild_cases
    (dir : Int)
    (component : Component) :
    (storedChild dir component = none ∧
      ¬ Exists (retrieveChild dir component.name component.len)) ∨
    (storedChild dir component =
        some (.stored (retrieveChild dir component.name component.len)) ∧
      Exists (retrieveChild dir component.name component.len)) := by
  rw [storedChild]
  rcases retrieveChild_cases dir component.name component.len with
    missing | ⟨isNode, _⟩
  · rw [missing]
    exact .inl ⟨rfl, by decide⟩
  · exact .inr ⟨if_neg (Int.not_lt.mpr isNode.1), isNode⟩

/-- One entry less is free. -/
theorem Vfs.free_fill
    {final : Vfs Unit}
    {newNode : Nat}
    {contents : FsNode}
    {id : Int}
    (free : findFreeNode after = some newNode)
    (nodes : final.fsnodes = Function.update after.fsnodes newNode
      (TestFs.fill id contents)) :
    after.free = final.free + 1 := by
  rcases findFreeNode_spec free with ⟨lt, isFree⟩
  apply tally_lose lt isFree
  · rw [nodes, Function.update_self]
    exact TestFs.fill_type _ _
  · intro other different
    rw [nodes, Function.update_of_ne different]

/-- A lookup leads to the child, if there is one and it fits. -/
theorem Place.At.lookup
    (tree : TestTree vfs)
    (later : Later vfs after)
    (here : place.At vfs after entry)
    (component : Component) :
    ∃ found final,
      getNodeWithLen testMounts entry component.name component.len after =
        some (found, final) ∧
      Later vfs final ∧
      ((found = none ∧ ∀ next, place.child vfs component = some next →
          after.free < next.cost) ∨
        ∃ next entry', found = some entry' ∧
          place.child vfs component = some next ∧
          next.At vfs final entry' ∧ next.cost ≤ after.free ∧
          final.free = after.free - next.cost) := by
  rcases here.child_cases tree later component with
    ⟨link, target, linked, isTarget, isChild, inUse⟩ | ⟨missing, isChild⟩
  · refine ⟨some target, after, ?_, later, .inr ⟨.inCore target, target, rfl,
      isChild, ⟨rfl, inUse⟩, Nat.zero_le _, rfl⟩⟩
    simp only [getNodeWithLen, linked, Option.bind_some, isTarget]
  · rcases here.inUse tree later with ⟨inUse, mounted⟩
    rcases Option.ne_none_iff_exists'.mp mounted with ⟨mount, isMount⟩
    rw [isChild]
    have known := TestFs.storedChild_cases
      (after.fsnodes entry).internalId component
    cases free : findFreeNode after with
    | none =>
        refine ⟨none, after, ?_, later, .inl ⟨rfl, ?_⟩⟩
        · simp [getNodeWithLen, missing, free]
        · intro next isNext
          rw [Vfs.free_eq_zero free]
          rcases known with ⟨nothing, _⟩ | ⟨stored, _⟩
          · rw [nothing] at isNext
            cases isNext
          · rw [stored] at isNext
            cases isNext
            exact Nat.one_pos
    | some newNode =>
        rcases findFreeNode_spec free with ⟨_, isFree⟩
        rcases getNodeWithLen_fetches inUse isMount missing free with
          ⟨found, final, returned, isFound, nodes, files, links⟩
        refine ⟨found, final, returned,
          later.fill nodes isFree isFree files links, ?_⟩
        rcases known with ⟨nothing, absent⟩ | ⟨stored, isNode⟩
        · rw [if_neg absent] at isFound
          refine .inl ⟨isFound, ?_⟩
          intro next isNext
          rw [nothing] at isNext
          cases isNext
        · rw [if_pos isNode] at isFound
          rw [TestFs.nodeFromId, if_pos isNode] at nodes
          have fewer := Vfs.free_fill free nodes
          refine .inr ⟨_, newNode, isFound, stored,
            ⟨{ after.fsnodes newNode with
              mountpoint := (after.fsnodes entry).mountpoint }, mounted, ?_⟩,
            Vfs.free_pos free, ?_⟩
          · rw [nodes, Function.update_self]
          · rw [fewer]
            rfl

/-- Whether the process gets into the directory which was found. -/
theorem Place.At.mayEnter_iff
    (later : Later vfs after)
    (here : place.At vfs after entry)
    (p : Int) :
    place.MayEnter vfs p ↔ (after.fsnodes entry).type = .directory ∧
      canExec (after.fsnodes entry) p = true := by
  cases place with
  | inCore node =>
      rcases here with ⟨rfl, inUse⟩
      rw [later.kept entry inUse]
      rfl
  | stored id =>
      rcases here with ⟨contents, mounted, isNode⟩
      rw [isNode, Place.MayEnter]
      constructor
      · intro isDir
        have directory : (TestFs.fill id contents).type = .directory :=
          if_pos isDir
        exact ⟨directory, canExec_dirPerms (if_pos isDir) p⟩
      · rintro ⟨directory, _⟩
        by_contra file
        have isFile : (TestFs.fill id contents).type = .file := if_neg file
        rw [isFile] at directory
        cases directory

/-- The walk of a process comes to the place which can be told before. -/
theorem Place.At.followChecked
    (tree : TestTree vfs)
    (p : Int)
    (later : Later vfs after)
    (here : place.At vfs after entry)
    (comps : List Component) :
    ∃ found final,
      Fs.followChecked testMounts p true comps entry after =
        some (found, final) ∧
      Later vfs final ∧
      ((found = none ∧ place.walk vfs p after.free comps = none) ∨
        ∃ last entry', found = some entry' ∧
          place.walk vfs p after.free comps = some (last, final.free) ∧
          last.At vfs final entry') := by
  induction comps generalizing after place entry with
  | nil => exact ⟨some entry, after, rfl, later, .inr ⟨place, entry, rfl, rfl,
      here⟩⟩
  | cons component rest induction =>
      rcases here.lookup tree later component with
        ⟨found, middle, returned, later', outcome⟩
      rw [Fs.followChecked, returned, Option.bind_some, Place.walk]
      rcases outcome with ⟨rfl, full⟩ |
        ⟨next, entry', rfl, isChild, there, fits, left⟩
      · refine ⟨none, middle, rfl, later', .inl ⟨rfl, ?_⟩⟩
        cases isChild : place.child vfs component with
        | none => rfl
        | some next =>
            have large := full next isChild
            rw [Option.bind_some, if_neg (by omega)]
      · have enters := there.mayEnter_iff later' p
        rw [isChild, Option.bind_some]
        simp only
        by_cases mayEnter : next.MayEnter vfs p
        · rcases enters.mp mayEnter with ⟨directory, exec⟩
          have entered : next.cost ≤ after.free ∧ next.MayEnter vfs p :=
            ⟨fits, mayEnter⟩
          rw [if_pos entered, if_neg (not_not.mpr directory),
            if_neg (by simp [exec]), ← left]
          exact induction later' there
        · have stopped : ¬ (next.cost ≤ after.free ∧
              next.MayEnter vfs p) := fun both => mayEnter both.2
          rw [if_neg stopped]
          refine ⟨none, middle, ?_, later', .inl ⟨rfl, rfl⟩⟩
          by_cases directory : (middle.fsnodes entry').type = .directory
          · have refused : canExec (middle.fsnodes entry') p = false := by
              rw [← Bool.not_eq_true]
              exact fun exec => mayEnter (enters.mpr ⟨directory, exec⟩)
            rw [if_neg (not_not.mpr directory), if_pos ⟨.inr trivial, refused⟩]
          · rw [if_pos directory]

/-- Without checks the walk leads to the same place. -/
theorem Place.resolve_of_walk
    {p : Int}
    {free free' : Nat}
    {last : Place}
    {comps : List Component}
    (walked : place.walk vfs p free comps = some (last, free')) :
    place.resolve vfs comps = some last := by
  induction comps generalizing place free with
  | nil =>
      cases walked
      rfl
  | cons component rest induction =>
      rcases Option.bind_eq_some_iff.mp walked with
        ⟨next, isChild, continued⟩
      split at continued
      · rename_i entered
        have directory : next.IsDirectory vfs := by
          cases next with
          | inCore node => exact entered.2.1
          | stored id => exact entered.2
        rw [Place.resolve, isChild, Option.bind_some, if_pos directory]
        exact induction continued
      · cases continued

/-- What is left of a call which is refused. -/
structure Refused
    (vfs : Vfs Unit)
    (ret : Int)
    (after : Vfs Unit) :
    Prop where
  failed : ret = -1
  files : after.openFiles = vfs.openFiles
  counts : ∀ node, (vfs.fsnodes node).type ≠ .empty →
    (after.fsnodes node).refCount = (vfs.fsnodes node).refCount
  loaded : ∀ node, (vfs.fsnodes node).type = .empty →
    (after.fsnodes node).type ≠ .empty → (after.fsnodes node).refCount = 0

theorem Later.refused (later : Later vfs after) : Refused vfs (-1) after where
  failed := rfl
  files := later.files
  counts := fun node inUse => by rw [later.kept node inUse]
  loaded := later.loaded

/-- A node which is mounted is opened or not, but not looked for in vain. -/
theorem openNode_returns
    {vfs : Vfs Unit}
    {p : Int}
    {mode node : Nat}
    (mounted : (vfs.fsnodes node).mountpoint ≠ none) :
    ∃ result, openNode testMounts p mode node vfs = some result := by
  rcases Option.ne_none_iff_exists'.mp mounted with ⟨mount, isMount⟩
  rw [openNode]
  simp only [isMount, Option.bind_some]
  split_ifs
  · exact ⟨_, rfl⟩
  · exact ⟨_, rfl⟩
  · exact ⟨_, rfl⟩
  · split
    · exact ⟨_, rfl⟩
    · exact ⟨_, rfl⟩

/-- The end of `vfs_open` faults if the last lookup finds nothing. -/
theorem Place.At.openIn
    (tree : TestTree vfs)
    (later : Later vfs after)
    (here : place.At vfs after entry)
    (p : Int)
    (path : CString)
    (mode : Nat) :
    (∃ result, Fs.openIn testMounts p path mode entry after = some result) ↔
      ∃ name target, lastName path = some name ∧
        place.child vfs name = some target ∧ target.cost ≤ after.free := by
  rw [Fs.openIn, lastName]
  cases isName : basename path with
  | none => simp
  | some name =>
      rcases here.lookup tree later ⟨name, strnlen name filenameSize⟩ with
        ⟨found, final, returned, later', outcome⟩
      rw [Option.bind_some, getNode, returned, Option.bind_some,
        Option.map_some]
      rcases outcome with ⟨rfl, full⟩ |
        ⟨target, entry', rfl, isChild, there, fits, _⟩
      · constructor
        · rintro ⟨result, returned'⟩
          cases returned'
        · rintro ⟨_, target, isName', isChild, fits⟩
          cases isName'
          have large := full target isChild
          omega
      · constructor
        · intro _
          exact ⟨_, target, rfl, isChild, fits⟩
        · intro _
          exact openNode_returns (there.inUse tree later').2

theorem Place.walk_mayEnter
    {p : Int}
    {free free' : Nat}
    {last : Place}
    {comps : List Component}
    (mayEnter : place.MayEnter vfs p)
    (walked : place.walk vfs p free comps = some (last, free')) :
    last.MayEnter vfs p := by
  induction comps generalizing place free with
  | nil =>
      cases walked
      exact mayEnter
  | cons component rest induction =>
      rcases Option.bind_eq_some_iff.mp walked with ⟨next, _, continued⟩
      split at continued
      · rename_i entered
        exact induction entered.2 continued
      · cases continued

/--
In every tree over the test file system `vfs_open` comes back, and refuses a
path without a node, just when the last lookup of the path is not in vain.
-/
theorem open_returns_iff
    (tree : TestTree vfs)
    (p : Int)
    (path : CString)
    (mode : Nat) :
    (∃ ret after, vfsOpen testMounts p path mode vfs = some (ret, after) ∧
        (¬ Resolves vfs path → Refused vfs ret after)) ↔
      Openable vfs p path := by
  by_cases absolute : path.head? = some slash
  · rw [vfsOpen_eq absolute mode tree.root]
    by_cases exec : canExec (vfs.fsnodes vfs.vfsRoot) p = true
    · have here : (Place.inCore vfs.vfsRoot).At vfs vfs vfs.vfsRoot := by
        refine ⟨rfl, ?_⟩
        rw [tree.root]
        decide
      rcases here.followChecked tree p (.refl vfs)
        (components path).dropLast with
        ⟨found, final, followed, later, outcome⟩
      rw [if_neg (by simp [exec]), followed, Option.bind_some]
      rcases outcome with ⟨rfl, stuck⟩ | ⟨last, entry, rfl, walked, there⟩
      · constructor
        · intro _ _ _ dir free walked
          rw [stuck] at walked
          cases walked
        · intro _
          exact ⟨-1, final, rfl, fun _ => later.refused⟩
      · have mayEnter := Place.walk_mayEnter
          (show (Place.inCore vfs.vfsRoot).MayEnter vfs p from
            ⟨tree.root, exec⟩) walked
        have exec' := ((there.mayEnter_iff later p).mp mayEnter).2
        simp only [exec', Bool.not_true, Bool.false_eq_true, if_false]
        constructor
        · rintro ⟨ret, after, returned, _⟩ _ _ dir free walked'
          rw [walked] at walked'
          cases walked'
          exact (there.openIn tree later p path mode).mp ⟨_, returned⟩
        · intro openable
          have lookedUp := openable absolute exec last final.free walked
          rcases (there.openIn tree later p path mode).mpr lookedUp with
            ⟨⟨ret, after⟩, returned⟩
          refine ⟨ret, after, returned, ?_⟩
          intro unresolved
          rcases lookedUp with ⟨name, target, isName, isChild, _⟩
          exact (unresolved ⟨absolute, last, name, target,
            Place.resolve_of_walk walked, isName, isChild⟩).elim
    · constructor
      · intro _ _ exec'
        exact (exec exec').elim
      · intro _
        exact ⟨-1, vfs, if_pos (by simpa using exec),
          fun _ => (Later.refl vfs).refused⟩
  · have refused : vfsOpen testMounts p path mode vfs = some (-1, vfs) := by
      rw [vfsOpen, findParentCheckperm_relative absolute]
      rfl
    constructor
    · intro _ absolute'
      exact (absolute absolute').elim
    · intro _
      exact ⟨-1, vfs, refused, fun _ => (Later.refl vfs).refused⟩

/-- Every state in which nothing is linked is a tree. -/
theorem Tested.tree (tested : Tested vfs) : TestTree vfs where
  root := tested.root_directory
  mounted := fun node inUse => (tested.nodes node inUse).mounted
  linked := by
    intro node _
    refine ⟨[], ⟨?_, by simp⟩, by simp⟩
    rw [tested.unlinked node]
    rfl

end

/-- The directory and the file are loaded, and there is room for them. -/
theorem open_returns_iff_nested :
    ∃ ret after, vfsOpen testMounts 0 (TestFs.text "/testdir1/child1") ofRead
        bootVfs = some (ret, after) ∧
      (¬ Resolves bootVfs (TestFs.text "/testdir1/child1") →
        Refused bootVfs ret after) := by
  apply (open_returns_iff Tested.boot.tree _ _ _).mpr
  intro _ _ dir free walked
  have reached : (Place.inCore bootVfs.vfsRoot).walk bootVfs 0 bootVfs.free
      (components (TestFs.text "/testdir1/child1")).dropLast =
        some (.stored 4, numFsnodes - 2) := by
    decide +kernel
  rw [reached] at walked
  cases walked
  refine ⟨⟨TestFs.text "child1", 6⟩, .stored 6, ?_, ?_, ?_⟩
  · decide +kernel
  · decide +kernel
  · decide

/-- There is no file with this name, and `vfs_open` faults. -/
theorem open_faults :
    ¬ ∀ (vfs : Vfs Unit) (p : Int) (path : CString) (mode : Nat),
      TestTree vfs →
      ∃ ret after, vfsOpen testMounts p path mode vfs = some (ret, after) ∧
        (¬ Resolves vfs path → Refused vfs ret after) := by
  intro always
  rcases always bootVfs 0 (TestFs.text "/none") ofRead Tested.boot.tree with
    ⟨ret, after, returned, _⟩
  have faults : vfsOpen testMounts 0 (TestFs.text "/none") ofRead bootVfs =
      none := by
    rw [← Option.isNone_iff_eq_none]
    decide +kernel
  rw [faults] at returned
  cases returned

end ForsKernel.Fs
