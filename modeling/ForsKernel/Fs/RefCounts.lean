import ForsKernel.Lib.Tally
import ForsKernel.Lib.Transition
import ForsKernel.Fs.OpenFiles
import ForsKernel.Fs.TestFs

/-!
# Reference counts

The counter of a node is meant to be the number of open files which refer to
it.  Opening and closing files keep it so, and so does `add_child`, which does
not touch it, as long as it links nodes in use: a free node which is linked is
still given to the next file that is looked up.  `del_child` counts down without
having counted up.
-/

namespace ForsKernel.Fs

open ForsKernel.Lib.Tally
open ForsKernel.Lib.Transition

variable
  {ω : Type*}
  {mounts : Nat → FsOps ω}

/-! ## The number of open files of a node -/

/-- How many open files refer to the node. -/
def opens
    (vfs : Vfs ω)
    (node : Nat) :
    Nat :=
  tally numOpenFiles (fun file : OpenFile => file.node = some node)
    vfs.openFiles

/-- The node keeps its type and its counter. -/
def SameCount (node node' : FsNode) : Prop :=
  node'.type = node.type ∧ node'.refCount = node.refCount

/--
What the VFS relies on: a node which is filled in is in use and has no
references yet, one which is not stays free, and the other callbacks leave the
counters of nodes alone.
-/
structure KeepsCounts (fs : FsOps ω) : Prop where
  retrieveChild : ∀ parent name len fsState,
    SameCount parent (fs.retrieveChild parent name len fsState).node
  filled : ∀ id node fsState, 0 ≤ (fs.nodeFromId id node fsState).ret →
    (fs.nodeFromId id node fsState).node.type ≠ .empty ∧
      (fs.nodeFromId id node fsState).node.refCount = 0
  failed : ∀ id node fsState, (fs.nodeFromId id node fsState).ret < 0 →
    (fs.nodeFromId id node fsState).node.type = node.type
  fOpen : ∀ node fsState, SameCount node (fs.fOpen node fsState).node
  fClose : ∀ file node fsState,
    SameCount node (fs.fClose file node fsState).node

/--
Every counter is right, no open file refers to a free node, and no link does.
-/
structure Counted (vfs : Vfs ω) : Prop where
  right : ∀ node, (vfs.fsnodes node).type ≠ .empty →
    (vfs.fsnodes node).refCount = opens vfs node
  unopened : ∀ node, (vfs.fsnodes node).type = .empty → opens vfs node = 0
  linked : ∀ link node, (vfs.fslinks link).node = some node →
    (vfs.fsnodes node).type ≠ .empty

section

variable {vfs vfs' : Vfs ω}

theorem opens_congr
    (same : ∀ fd, (vfs'.openFiles fd).node = (vfs.openFiles fd).node)
    (node : Nat) :
    opens vfs' node = opens vfs node := by
  apply tally_congr
  intro fd _
  rw [same fd]

/-- One entry changes from no node to this one. -/
theorem opens_gain
    {fd node : Nat}
    (lt : fd < numOpenFiles)
    (before : (vfs.openFiles fd).node = none)
    (now : (vfs'.openFiles fd).node = some node)
    (files : ∀ other, other ≠ fd →
      (vfs'.openFiles other).node = (vfs.openFiles other).node)
    (other : Nat) :
    opens vfs' other = opens vfs other + if other = node then 1 else 0 := by
  by_cases same : other = node
  · subst same
    rw [if_pos rfl]
    apply tally_gain lt
    · simp [before]
    · exact now
    · intro i different
      rw [files i different]
  · rw [if_neg same, Nat.add_zero]
    apply tally_congr
    intro i _
    by_cases here : i = fd
    · subst here
      simp [before, now, Ne.symm same]
    · rw [files i here]

/-- Nothing that is counted changes, and no counter. -/
theorem Counted.keep
    (counted : Counted vfs)
    (files : ∀ fd, (vfs'.openFiles fd).node = (vfs.openFiles fd).node)
    (nodes : ∀ node, SameCount (vfs.fsnodes node) (vfs'.fsnodes node))
    (links : ∀ link node, (vfs'.fslinks link).node = some node →
      (vfs.fsnodes node).type ≠ .empty) :
    Counted vfs' := by
  constructor
  · intro node inUse
    rw [(nodes node).1] at inUse
    rw [(nodes node).2, opens_congr files]
    exact counted.right node inUse
  · intro node free
    rw [(nodes node).1] at free
    rw [opens_congr files]
    exact counted.unopened node free
  · intro link node isNode
    rw [(nodes node).1]
    exact links link node isNode

/-- A node is written which keeps its counter. -/
theorem Counted.setNode
    (counted : Counted vfs)
    {node : Nat}
    {contents : FsNode}
    (same : SameCount (vfs.fsnodes node) contents) :
    Counted (vfs.setNode node contents) := by
  apply counted.keep
  · exact fun _ => rfl
  · intro other
    by_cases here : other = node
    · subst here
      simpa [Vfs.setNode] using same
    · simp [Vfs.setNode, here, SameCount]
  · exact counted.linked

/-- A free node is written, and has no references if it is in use then. -/
theorem Counted.fill
    (counted : Counted vfs)
    {node : Nat}
    {contents : FsNode}
    (free : (vfs.fsnodes node).type = .empty)
    (unused : contents.type ≠ .empty → contents.refCount = 0) :
    Counted (vfs.setNode node contents) := by
  have others {other : Nat} (different : other ≠ node) :
      (vfs.setNode node contents).fsnodes other = vfs.fsnodes other :=
    Function.update_of_ne different ..
  have here : (vfs.setNode node contents).fsnodes node = contents :=
    Function.update_self ..
  have files : ∀ other, opens (vfs.setNode node contents) other =
      opens vfs other := opens_congr fun _ => rfl
  constructor
  · intro other inUse
    rw [files]
    by_cases same : other = node
    · subst same
      rw [here] at inUse ⊢
      rw [unused inUse, counted.unopened other free]
    · rw [others same] at inUse ⊢
      exact counted.right other inUse
  · intro other otherFree
    rw [files]
    by_cases same : other = node
    · subst same
      exact counted.unopened other free
    · rw [others same] at otherFree
      exact counted.unopened other otherFree
  · intro link other isNode
    have inUse := counted.linked link other isNode
    rw [others]
    · exact inUse
    · rintro rfl
      exact inUse free

/-- Only the tables matter. -/
theorem Counted.congr
    (counted : Counted vfs)
    (files : vfs'.openFiles = vfs.openFiles)
    (nodes : vfs'.fsnodes = vfs.fsnodes)
    (links : vfs'.fslinks = vfs.fslinks) :
    Counted vfs' := by
  apply counted.keep
  · intro fd
    rw [files]
  · intro node
    rw [nodes]
    exact ⟨rfl, rfl⟩
  · rw [links]
    exact counted.linked

theorem Counted.nodeReplied
    (counted : Counted vfs)
    {node : Nat}
    {reply : NodeReply ω}
    {call : FsCall}
    (same : SameCount (vfs.fsnodes node) reply.node) :
    Counted (vfs.nodeReplied node reply call) :=
  (counted.setNode same).congr rfl rfl rfl

/-! ## Lookups -/

/-- A lookup keeps the counters, and finds a node which is in use. -/
theorem Counted.lookup
    (counted : Counted vfs)
    (keeps : ∀ mount, KeepsCounts (mounts mount))
    {parent : Nat}
    {name : CString}
    {len : Nat}
    {found : Option Nat}
    (returned : getNodeWithLen mounts parent name len vfs =
      some (found, vfs')) :
    Counted vfs' ∧ ∀ node ∈ found, (vfs'.fsnodes node).type ≠ .empty := by
  rcases getNodeWithLen_inv returned with
    ⟨link, _, linked⟩ | ⟨_, ⟨_, full⟩ | ⟨newNode, free, fetched⟩⟩
  · cases linked
    exact ⟨counted, counted.linked link⟩
  · cases full
    exact ⟨counted, by simp⟩
  · rcases findFreeNode_spec free with ⟨_, isFree⟩
    cases fetched with
    | @intro mount mount' id ret _ _ _ isRet =>
        have claimed : Counted (vfs.claimed newNode parent) :=
          counted.setNode ⟨rfl, rfl⟩
        have retrieved : Counted ((vfs.claimed newNode parent).retrieved
            (mounts mount) parent name len) :=
          claimed.nodeReplied ((keeps mount).retrieveChild _ _ _ _)
        have stillFree : (((vfs.claimed newNode parent).retrieved
            (mounts mount) parent name len).fsnodes newNode).type =
              .empty := by
          by_cases same : newNode = parent
          · subst same
            simp [Vfs.retrieved, Vfs.nodeReplied, Vfs.setNode, Vfs.claimed,
              ((keeps mount).retrieveChild _ _ _ _).1, isFree]
          · simp [Vfs.retrieved, Vfs.nodeReplied, Vfs.setNode, Vfs.claimed,
              same, isFree]
        generalize (vfs.claimed newNode parent).retrieved (mounts mount)
          parent name len = middle at isRet retrieved stillFree
        have filled : Counted
            (middle.filledIn (mounts mount') id newNode) := by
          refine (retrieved.fill stillFree ?_).congr rfl rfl rfl
          intro inUse
          by_cases failed : ret < 0
          · rw [(keeps mount').failed _ _ _ (isRet ▸ failed)] at inUse
            exact (inUse stillFree).elim
          · exact ((keeps mount').filled _ _ _
              (isRet ▸ Int.not_lt.mp failed)).2
        refine ⟨filled, ?_⟩
        intro node isNode
        split at isNode
        · cases isNode
        · rename_i succeeded
          cases isNode
          have contents : (middle.filledIn (mounts mount') id
              newNode).fsnodes newNode = ((mounts mount').nodeFromId id
                (middle.fsnodes newNode) middle.fsState).node :=
            Function.update_self ..
          rw [contents]
          exact ((keeps mount').filled _ _ _
            (isRet ▸ Int.not_lt.mp succeeded)).1

/-! ## Opening and closing -/

/-- The node of an open file is in use. -/
theorem Counted.inUse
    (counted : Counted vfs)
    {fd node : Nat}
    (lt : fd < numOpenFiles)
    (isOpen : (vfs.openFiles fd).node = some node) :
    (vfs.fsnodes node).type ≠ .empty := by
  intro free
  exact tally_eq_zero.mp (counted.unopened node free) fd lt isOpen

theorem opens_le
    (vfs : Vfs ω)
    (node : Nat) :
    opens vfs node ≤ 512 :=
  tally_le numOpenFiles (fun file : OpenFile => file.node = some node)
    vfs.openFiles

/-- One entry of the open files changes, and the counter of one node. -/
theorem Counted.change
    (counted : Counted vfs)
    {fd node : Nat}
    (inUse : (vfs.fsnodes node).type ≠ .empty)
    (files : ∀ other, other ≠ fd → vfs'.openFiles other = vfs.openFiles other)
    (entry : ∀ other, other ≠ node →
      ((vfs'.openFiles fd).node = some other ↔
        (vfs.openFiles fd).node = some other))
    (nodes : ∀ other, other ≠ node → vfs'.fsnodes other = vfs.fsnodes other)
    (type : (vfs'.fsnodes node).type = (vfs.fsnodes node).type)
    (links : vfs'.fslinks = vfs.fslinks)
    (right : (vfs'.fsnodes node).refCount = opens vfs' node) :
    Counted vfs' := by
  have same (other : Nat) (different : other ≠ node) :
      opens vfs' other = opens vfs other := by
    apply tally_congr
    intro i _
    by_cases here : i = fd
    · subst here
      exact entry other different
    · rw [files i here]
  constructor
  · intro other otherInUse
    by_cases here : other = node
    · subst here
      exact right
    · rw [nodes other here] at otherInUse ⊢
      rw [same other here]
      exact counted.right other otherInUse
  · intro other otherFree
    have different : other ≠ node := by
      rintro rfl
      rw [type] at otherFree
      exact inUse otherFree
    rw [nodes other different] at otherFree
    rw [same other different]
    exact counted.unopened other otherFree
  · intro link other isNode
    rw [links] at isNode
    have otherInUse := counted.linked link other isNode
    by_cases here : other = node
    · subst here
      rwa [type]
    · rwa [nodes other here]

/-- One more open file, and one more reference. -/
theorem Counted.fillFile
    (counted : Counted vfs)
    {fd node : Nat}
    (lt : fd < numOpenFiles)
    (free : (vfs.openFiles fd).node = none)
    (inUse : (vfs.fsnodes node).type ≠ .empty)
    (mode : Nat)
    (p : Int) :
    Counted (vfs.fillFile fd node mode p) := by
  have small := opens_le vfs node
  have entry : ((vfs.fillFile fd node mode p).openFiles fd).node =
      some node := by
    simp [Vfs.fillFile, Vfs.setFile, Vfs.setNode]
  have files (other : Nat) (different : other ≠ fd) :
      (vfs.fillFile fd node mode p).openFiles other = vfs.openFiles other :=
    Function.update_of_ne different ..
  have more : opens (vfs.fillFile fd node mode p) node =
      opens vfs node + 1 := by
    have gained := opens_gain lt free entry
      (fun other different => by rw [files other different]) node
    rwa [if_pos rfl] at gained
  apply counted.change inUse files
  · intro other different
    rw [entry, free]
    simp [Ne.symm different]
  · exact fun other different => Function.update_of_ne different ..
  · simp [Vfs.fillFile, Vfs.setFile, Vfs.setNode]
  · rfl
  · rw [more, ← counted.right node inUse]
    simp only [Vfs.fillFile, Vfs.setNode, Function.update_self]
    rw [counted.right node inUse]
    exact Nat.mod_eq_of_lt (by omega)

theorem Counted.vfsOpen
    (counted : Counted vfs)
    (keeps : ∀ mount, KeepsCounts (mounts mount))
    {p ret : Int}
    {path : CString}
    {mode : Nat}
    (returned : Fs.vfsOpen mounts p path mode vfs = some (ret, vfs')) :
    Counted vfs' := by
  have kept {parent : Nat} {name : CString} {len : Nat} {middle next : Vfs ω}
      {found : Option Nat}
      (looked : getNodeWithLen mounts parent name len middle =
        some (found, next)) (before : Counted middle) : Counted next :=
    (before.lookup keeps looked).1
  rcases vfsOpen_inv returned with
    ⟨found, walked, _, _⟩ |
      ⟨parent, entered, name, node, checked, walked, _, _, got, opened⟩
  · exact findParentCheckperm_invariant walked kept counted
  · have before := findParentCheckperm_invariant walked kept counted
    rcases before.lookup keeps got with ⟨found, inUse⟩
    rcases openNode_inv opened with
      ⟨_, _, rfl⟩ | ⟨mount, _, _, finish⟩
    · exact found
    · have same := (keeps mount).fOpen (checked.fsnodes node) checked.fsState
      have asked : Counted (checked.asked mounts mount node) :=
        found.nodeReplied same
      rcases finish with ⟨_, rfl, _⟩ | ⟨fd, free, _, rfl, _⟩
      · exact asked
      · rcases findFreeFd_spec free with ⟨lt, unused⟩
        apply asked.fillFile lt unused
        have contents : (checked.asked mounts mount node).fsnodes node =
            ((mounts mount).fOpen (checked.fsnodes node)
              checked.fsState).node :=
          Function.update_self ..
        rw [contents, same.1]
        exact inUse node rfl

/-- One open file less, and one reference less. -/
theorem Counted.freeFile
    (counted : Counted vfs)
    {fd node : Nat}
    (lt : fd < numOpenFiles)
    (isOpen : (vfs.openFiles fd).node = some node) :
    Counted ((vfs.release node).setFile fd
      { (vfs.release node).openFiles fd with node := none }) := by
  generalize afterEq : (vfs.release node).setFile fd
    { (vfs.release node).openFiles fd with node := none } = after
  have inUse := counted.inUse lt isOpen
  have small := opens_le vfs node
  have entry : (after.openFiles fd).node = none := by
    simp [← afterEq, Vfs.setFile]
  have files (other : Nat) (different : other ≠ fd) :
      after.openFiles other = vfs.openFiles other := by
    rw [← afterEq]
    exact Function.update_of_ne different ..
  have less : opens vfs node = opens after node + 1 := by
    have lost := opens_gain lt entry isOpen
      (fun other different => by rw [files other different]) node
    rwa [if_pos rfl] at lost
  apply counted.change inUse files
  · intro other different
    rw [entry, isOpen]
    simp [Ne.symm different]
  · intro other different
    rw [← afterEq]
    exact Function.update_of_ne different ..
  · simp [← afterEq, Vfs.release, Vfs.setFile, Vfs.setNode]
  · rw [← afterEq]
    rfl
  · have right := counted.right node inUse
    have count : (after.fsnodes node).refCount =
        ((vfs.fsnodes node).refCount + (2 ^ 32 - 1)) % 2 ^ 32 := by
      simp [← afterEq, Vfs.release, Vfs.setFile, Vfs.setNode]
    rw [count]
    omega

theorem Counted.vfsClose
    (counted : Counted vfs)
    (keeps : ∀ mount, KeepsCounts (mounts mount))
    {fd : Nat}
    {ret : Int}
    (returned : Fs.vfsClose mounts fd vfs = some (ret, vfs')) :
    Counted vfs' := by
  rcases withFile_cases returned with closed | ⟨mount, node, lt, isOpen, acted⟩
  · cases closed
    exact counted
  · have same := (keeps mount).fClose (vfs.openFiles fd) (vfs.fsnodes node)
      vfs.fsState
    generalize replyEq : (mounts mount).fClose (vfs.openFiles fd)
      (vfs.fsnodes node) vfs.fsState = reply at same acted
    have files (other : Nat) : ((vfs.fileReplied fd node reply
        (.fClose fd node reply.ret)).openFiles other).node =
          (vfs.openFiles other).node :=
      (sameFiles_fileReplied vfs fd node reply _ other).1
    have replied : Counted
        (vfs.fileReplied fd node reply (.fClose fd node reply.ret)) := by
      apply counted.keep files
      · intro other
        by_cases here : other = node
        · subst here
          simpa [Vfs.fileReplied, Vfs.setFile, Vfs.setNode] using same
        · simp [Vfs.fileReplied, Vfs.setFile, Vfs.setNode, here, SameCount]
      · exact counted.linked
    simp only at acted
    split at acted
    · cases acted
      exact replied
    · cases acted
      exact replied.freeFile lt ((files fd).trans isOpen)

/-! ## Links -/

theorem sameCount_setChild
    (vfs : Vfs ω)
    (parent : Nat)
    (child : Option Nat)
    (node : Nat) :
    SameCount (vfs.fsnodes node)
      ((vfs.setChild parent child).fsnodes node) := by
  by_cases here : node = parent
  · subst here
    simp [Vfs.setChild, Vfs.setNode, SameCount]
  · simp [Vfs.setChild, Vfs.setNode, SameCount, here]

/-- A child list is given another head. -/
theorem Counted.setChild
    (counted : Counted vfs)
    (parent : Nat)
    (child : Option Nat) :
    Counted (vfs.setChild parent child) :=
  counted.keep (fun _ => rfl) (sameCount_setChild vfs parent child)
    counted.linked

/-- A link is written, and refers to a node which is in use if to any. -/
theorem Counted.setLink
    (counted : Counted vfs)
    (link : Nat)
    {contents : FsLink}
    (inUse : ∀ node, contents.node = some node →
      (vfs.fsnodes node).type ≠ .empty) :
    Counted (vfs.setLink link contents) := by
  apply counted.keep
  · exact fun _ => rfl
  · exact fun _ => ⟨rfl, rfl⟩
  · intro other node isNode
    by_cases here : other = link
    · subst here
      apply inUse
      simpa [Vfs.setLink] using isNode
    · apply counted.linked other
      simpa [Vfs.setLink, here] using isNode

theorem Counted.setLinkPrev
    (counted : Counted vfs)
    (link : Nat)
    (prev : Option Nat) :
    Counted (vfs.setLinkPrev link prev) :=
  counted.setLink link (counted.linked link)

theorem Counted.setLinkNext
    (counted : Counted vfs)
    (link : Nat)
    (next : Option Nat) :
    Counted (vfs.setLinkNext link next) :=
  counted.setLink link (counted.linked link)

theorem Counted.addChild
    (counted : Counted vfs)
    {parent new : Nat}
    {name : CString}
    (inUse : (vfs.fsnodes new).type ≠ .empty) :
    Counted (Fs.addChild parent new name vfs).2 := by
  rw [Fs.addChild]
  split
  · exact counted
  · rename_i link _
    split
    · exact counted
    · have linked : Counted
          (vfs.setLink link ⟨name, some new, none, none⟩) := by
        apply counted.setLink
        intro node isNode
        cases isNode
        exact inUse
      simp only
      split
      · exact linked.setChild _ _
      · rename_i first _
        exact ((linked.setLinkPrev first _).setLinkNext link _).setChild _ _

/-- The open files and the counters are as before. -/
structure SameCounts (vfs vfs' : Vfs ω) : Prop where
  files : vfs'.openFiles = vfs.openFiles
  nodes : ∀ node, SameCount (vfs.fsnodes node) (vfs'.fsnodes node)

namespace SameCounts

theorem trans
    {third : Vfs ω}
    (first : SameCounts vfs vfs')
    (second : SameCounts vfs' third) :
    SameCounts vfs third :=
  ⟨second.files.trans first.files, fun node =>
    ⟨(second.nodes node).1.trans (first.nodes node).1,
      (second.nodes node).2.trans (first.nodes node).2⟩⟩

theorem setLink
    (vfs : Vfs ω)
    (link : Nat)
    (contents : FsLink) :
    SameCounts vfs (vfs.setLink link contents) :=
  ⟨rfl, fun _ => ⟨rfl, rfl⟩⟩

theorem setChild
    (vfs : Vfs ω)
    (parent : Nat)
    (child : Option Nat) :
    SameCounts vfs (vfs.setChild parent child) :=
  ⟨rfl, sameCount_setChild vfs parent child⟩

theorem skipForward
    (vfs : Vfs ω)
    (link : Nat) :
    SameCounts vfs (vfs.skipForward link) := by
  rw [Vfs.skipForward]
  split
  · exact ⟨rfl, fun _ => ⟨rfl, rfl⟩⟩
  · exact .setLink _ _ _

theorem skipBackward
    (vfs : Vfs ω)
    (link : Nat) :
    SameCounts vfs (vfs.skipBackward link) := by
  rw [Vfs.skipBackward]
  split
  · exact ⟨rfl, fun _ => ⟨rfl, rfl⟩⟩
  · exact .setLink _ _ _

theorem rehead
    (vfs : Vfs ω)
    (parent link : Nat) :
    SameCounts vfs (vfs.rehead parent link) := by
  rw [Vfs.rehead]
  split
  · exact .setChild _ _ _
  · split
    · exact .setChild _ _ _
    · exact .setChild _ _ _

end SameCounts

/-- Apart from the reference `del_child` only edits the list. -/
theorem delChild_spec
    {parent toDel : Nat}
    {ret : Int}
    (returned : delChild parent toDel vfs = some (ret, vfs')) :
    ∃ node, (vfs.fslinks toDel).node = some node ∧
      SameCounts (vfs.release node) vfs' := by
  rcases Option.map_eq_some_iff.mp returned with ⟨node, isNode, rest⟩
  refine ⟨node, isNode, ?_⟩
  cases rest
  have unlinked := SameCounts.setLink (vfs.release node) toDel
    { (vfs.release node).fslinks toDel with node := none }
  have skipped := (unlinked.trans (.skipForward _ toDel)).trans
    (.skipBackward _ toDel)
  exact (skipped.trans (.rehead _ parent toDel)).trans (.setChild _ _ _)

/-- `del_child` takes a reference away which was never counted. -/
theorem delChild_miscounts
    (counted : Counted vfs)
    {parent toDel : Nat}
    {ret : Int}
    (returned : delChild parent toDel vfs = some (ret, vfs')) :
    ∃ node, (vfs'.fsnodes node).type ≠ .empty ∧
      (vfs'.fsnodes node).refCount ≠ opens vfs' node := by
  rcases delChild_spec returned with ⟨node, isNode, same⟩
  have inUse := counted.linked toDel node isNode
  have small := opens_le vfs node
  have right := counted.right node inUse
  have files : opens vfs' node = opens vfs node :=
    opens_congr (fun fd => by rw [same.files]; rfl) node
  have type : (vfs'.fsnodes node).type = (vfs.fsnodes node).type := by
    rw [(same.nodes node).1]
    simp [Vfs.release, Vfs.setNode]
  have count : (vfs'.fsnodes node).refCount =
      ((vfs.fsnodes node).refCount + (2 ^ 32 - 1)) % 2 ^ 32 := by
    rw [(same.nodes node).2]
    simp [Vfs.release, Vfs.setNode]
  refine ⟨node, by rwa [type], ?_⟩
  rw [count, files]
  omega

end

/-! ## Runs -/

inductive NodeOp where
  | vfsOpen (p : Int) (path : CString) (mode : Nat)
  | vfsClose (fd : Nat)
  | addChild (parent new : Nat) (name : CString)
  | delChild (parent toDel : Nat)

/-- The link is in the list of the parent. -/
def Vfs.Listed
    (vfs : Vfs ω)
    (parent link : Nat) :
    Prop :=
  ∃ k, (fun here : Option Nat => here.bind fun i => (vfs.fslinks i).next)^[k]
    (vfs.fsnodes parent).child = some link

namespace NodeOp

/-- Links are deleted from the list they are in. -/
def Legal (vfs : Vfs ω) : NodeOp → Prop
  | .delChild parent toDel => vfs.Listed parent toDel
  | _ => True

def step
    (mounts : Nat → FsOps ω)
    (vfs : Vfs ω) :
    NodeOp → Option (Vfs ω)
  | .vfsOpen p path mode =>
      (Fs.vfsOpen mounts p path mode vfs).map fun result => result.2
  | .vfsClose fd => (Fs.vfsClose mounts fd vfs).map fun result => result.2
  | .addChild parent new name => some (Fs.addChild parent new name vfs).2
  | .delChild parent toDel =>
      (Fs.delChild parent toDel vfs).map fun result => result.2

/-- The operation is not `del_child`, and links no free node. -/
def Keeps (vfs : Vfs ω) : NodeOp → Prop
  | .addChild _ new _ => (vfs.fsnodes new).type ≠ .empty
  | .delChild _ _ => False
  | _ => True

end NodeOp

/-- At first nothing is open or linked, and no node has references. -/
def nodeSystem (mounts : Nat → FsOps ω) : System (Vfs ω) NodeOp where
  init := fun vfs => (∀ fd, (vfs.openFiles fd).node = none) ∧
    (∀ link, (vfs.fslinks link).node = none) ∧
    ∀ node, (vfs.fsnodes node).type ≠ .empty →
      (vfs.fsnodes node).refCount = 0
  legal := NodeOp.Legal
  step := NodeOp.step mounts

section

variable {vfs vfs' : Vfs ω}

theorem Counted.initial (initial : (nodeSystem mounts).init vfs) :
    Counted vfs := by
  rcases initial with ⟨closed, unlinked, unused⟩
  have none_open (node : Nat) : opens vfs node = 0 := by
    apply tally_eq_zero.mpr
    intro fd _
    simp [closed fd]
  refine ⟨?_, fun node _ => none_open node, ?_⟩
  · intro node inUse
    rw [none_open, unused node inUse]
  · intro link node isNode
    rw [unlinked link] at isNode
    cases isNode

theorem Counted.step
    (counted : Counted vfs)
    (keeps : ∀ mount, KeepsCounts (mounts mount))
    {op : NodeOp}
    (allowed : op.Keeps vfs)
    (last : (nodeSystem mounts).Step vfs op vfs') :
    Counted vfs' := by
  rcases last with ⟨_, stepped⟩
  replace stepped : op.step mounts vfs = some vfs' := stepped
  cases op with
  | vfsOpen p path mode =>
      rcases Option.map_eq_some_iff.mp stepped with
        ⟨⟨ret, after⟩, returned, rfl⟩
      exact counted.vfsOpen keeps returned
  | vfsClose fd =>
      rcases Option.map_eq_some_iff.mp stepped with
        ⟨⟨ret, after⟩, returned, rfl⟩
      exact counted.vfsClose keeps returned
  | addChild parent new name =>
      cases stepped
      exact counted.addChild allowed
  | delChild parent toDel => exact allowed.elim

/--
In every run without `del_child` in which only nodes in use are linked, the
counter of every node in use is the number of open files which refer to it, and
a call of `del_child` from any state of such a run makes a counter wrong.
-/
theorem ref_counts_right
    (keeps : ∀ mount, KeepsCounts (mounts mount))
    (reachable : ((nodeSystem mounts).restrict
      fun vfs op => op.Keeps vfs).Reachable vfs) :
    (∀ node, (vfs.fsnodes node).type ≠ .empty →
      (vfs.fsnodes node).refCount = opens vfs node ∧
        (vfs.fsnodes node).refCount ≤ numOpenFiles) ∧
    ∀ parent toDel after,
      (nodeSystem mounts).Step vfs (.delChild parent toDel) after →
      ∃ node, (after.fsnodes node).type ≠ .empty ∧
        (after.fsnodes node).refCount ≠ opens after node := by
  have counted : Counted vfs := by
    apply reachable.invariant
    · intro start initial
      have fromBoot : (nodeSystem mounts).init start := initial
      exact .initial fromBoot
    · exact fun _ _ _ counted last =>
        counted.step keeps last.1.2 last.of_restrict
  constructor
  · intro node inUse
    have right := counted.right node inUse
    refine ⟨right, ?_⟩
    rw [right]
    exact tally_le _ _ _
  · intro parent toDel after last
    rcases Option.map_eq_some_iff.mp last.2 with
      ⟨⟨ret, after'⟩, returned, rfl⟩
    exact delChild_miscounts counted returned

end

/-! ## The test file system -/

theorem testfs_keepsCounts : KeepsCounts TestFs.testfsType where
  retrieveChild := fun _ _ _ _ => ⟨rfl, rfl⟩
  filled := by
    intro id node fsState returned
    simp only [TestFs.testfsType, TestFs.nodeFromId] at returned ⊢
    split at returned
    · rename_i found
      rw [if_pos found]
      refine ⟨?_, rfl⟩
      simp only [TestFs.fill]
      split <;> decide
    · exact absurd returned (show ¬ (0 : Int) ≤ -1 by decide)
  failed := by
    intro id node fsState returned
    simp only [TestFs.testfsType, TestFs.nodeFromId] at returned ⊢
    split at returned
    · exact absurd returned (show ¬ (0 : Int) < 0 by decide)
    · rename_i missing
      rw [if_neg missing]
  fOpen := fun _ _ => ⟨rfl, rfl⟩
  fClose := fun _ _ _ => ⟨rfl, rfl⟩

theorem bootVfs_init : (nodeSystem testMounts).init bootVfs := by
  refine ⟨fun _ => rfl, fun _ => rfl, ?_⟩
  intro node _
  rw [bootVfs_fsnodes]
  by_cases root : node = 0
  · subst root
    rfl
  · rw [Function.update_of_ne root]
    rfl

theorem nodeSystem_step
    {vfs vfs' : Vfs ω}
    {op : NodeOp}
    (legal : op.Legal vfs)
    (stepped : op.step mounts vfs = some vfs') :
    (nodeSystem mounts).Step vfs op vfs' :=
  ⟨legal, stepped⟩

/-- The file `/testdir1/child1` is open, its directory in memory as node 1. -/
def childVfs : Vfs Unit :=
  ((NodeOp.vfsOpen 0 (TestFs.text "/testdir1/child1") ofRead).step testMounts
    bootVfs).get (by decide +kernel)

/-- The directory is linked to the root. -/
def linkedVfs : Vfs Unit :=
  (addChild 0 1 (TestFs.text "testdir1") childVfs).2

/-- The link is deleted again. -/
def unlinkedVfs : Vfs Unit :=
  ((NodeOp.delChild 0 0).step testMounts linkedVfs).get (by decide +kernel)

theorem childVfs_step : (nodeSystem testMounts).Step bootVfs
    (.vfsOpen 0 (TestFs.text "/testdir1/child1") ofRead) childVfs :=
  nodeSystem_step trivial (Option.some_get _).symm

theorem linkedVfs_step : (nodeSystem testMounts).Step childVfs
    (.addChild 0 1 (TestFs.text "testdir1")) linkedVfs :=
  nodeSystem_step trivial rfl

theorem unlinkedVfs_step : (nodeSystem testMounts).Step linkedVfs
    (.delChild 0 0) unlinkedVfs := by
  apply nodeSystem_step
  · refine ⟨0, ?_⟩
    show (linkedVfs.fsnodes 0).child = some 0
    decide +kernel
  · exact (Option.some_get _).symm

theorem ref_counts_right_linked :
    (linkedVfs.fsnodes 2).refCount = opens linkedVfs 2 ∧
      opens linkedVfs 2 = 1 := by
  have inUse : (childVfs.fsnodes 1).type ≠ .empty := by decide +kernel
  have reachable : ((nodeSystem testMounts).restrict
      fun vfs op => op.Keeps vfs).Reachable linkedVfs :=
    System.Reachable.next (System.Reachable.next (.start bootVfs_init)
      (childVfs_step.restrict trivial)) (linkedVfs_step.restrict inUse)
  have right := (ref_counts_right (fun _ => testfs_keepsCounts)
    reachable).1 2 (by decide +kernel)
  exact ⟨right.1, by decide +kernel⟩

/-- The counter of the directory has wrapped around. -/
theorem ref_counts_wrong :
    ¬ ∀ vfs, (nodeSystem testMounts).Reachable vfs →
      ∀ node, (vfs.fsnodes node).type ≠ .empty →
        (vfs.fsnodes node).refCount = opens vfs node := by
  intro always
  have reachable : (nodeSystem testMounts).Reachable unlinkedVfs :=
    System.Reachable.next (System.Reachable.next (System.Reachable.next
      (.start bootVfs_init) childVfs_step) linkedVfs_step) unlinkedVfs_step
  have right := always unlinkedVfs reachable 1 (by decide +kernel)
  have wrapped : (unlinkedVfs.fsnodes 1).refCount = 4294967295 := by
    decide +kernel
  have small := opens_le unlinkedVfs 1
  omega

end ForsKernel.Fs
