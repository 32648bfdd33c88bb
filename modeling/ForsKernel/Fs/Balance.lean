import ForsKernel.Fs.RefCounts

/-!
# Opens and closes towards the file system

A file system is told of every open and every close.  The opens which it has
granted and not ended should be the open files of the table.  `vfs_open` asks
the file system first and looks for a free entry afterwards, so that an open
with a full table is granted and never ended.
-/

namespace ForsKernel.Fs

open ForsKernel.Lib.Tally
open ForsKernel.Lib.Transition

variable
  {ω : Type*}
  {mounts : Nat → FsOps ω}

/-! ## What the calls amount to -/

/-- The file system opens the node. -/
def FsCall.opensNode (node : Nat) : FsCall → Bool
  | .fOpen opened ret => opened == node && decide (0 ≤ ret)
  | _ => false

/-- The file system closes a file of the node. -/
def FsCall.closesNode (node : Nat) : FsCall → Bool
  | .fClose _ closed ret => closed == node && decide (0 ≤ ret)
  | _ => false

/-- The calls of `f_open` on a node which succeeded, less those of `f_close`. -/
def outstanding
    (vfs : Vfs ω)
    (node : Nat) :
    Int :=
  (vfs.calls.countP (FsCall.opensNode node) : Int) -
    vfs.calls.countP (FsCall.closesNode node)

/-- For every node the outstanding opens are its open files. -/
def Balanced (vfs : Vfs ω) : Prop :=
  ∀ node, outstanding vfs node = opens vfs node

/-- The outstanding opens of a node which no open file stands for. -/
def leak
    (vfs : Vfs ω)
    (node : Nat) :
    Int :=
  outstanding vfs node - opens vfs node

theorem balanced_iff_leak {vfs : Vfs ω} :
    Balanced vfs ↔ ∀ node, leak vfs node = 0 := by
  constructor
  · intro balanced node
    rw [leak, balanced node, sub_self]
  · intro tight node
    exact sub_eq_zero.mp (tight node)

section

variable {vfs vfs' : Vfs ω}

theorem outstanding_congr
    (same : vfs'.calls = vfs.calls)
    (node : Nat) :
    outstanding vfs' node = outstanding vfs node := by
  rw [outstanding, outstanding, same]

/-- What one more call changes. -/
theorem outstanding_append
    {call : FsCall}
    (extended : vfs'.calls = vfs.calls ++ [call])
    (node : Nat) :
    outstanding vfs' node = outstanding vfs node +
      ((if call.opensNode node then 1 else 0) -
        if call.closesNode node then 1 else 0) := by
  simp only [outstanding, extended, List.countP_append, List.countP_singleton]
  split_ifs <;> omega

/-- Neither the calls nor the open files change the balance. -/
def SameBalance (vfs vfs' : Vfs ω) : Prop :=
  vfs'.openFiles = vfs.openFiles ∧
    ∀ node, outstanding vfs' node = outstanding vfs node

namespace SameBalance

theorem refl (vfs : Vfs ω) : SameBalance vfs vfs :=
  ⟨rfl, fun _ => rfl⟩

theorem trans
    {third : Vfs ω}
    (first : SameBalance vfs vfs')
    (second : SameBalance vfs' third) :
    SameBalance vfs third :=
  ⟨second.1.trans first.1, fun node => (second.2 node).trans (first.2 node)⟩

theorem leak_eq
    (same : SameBalance vfs vfs')
    (node : Nat) :
    leak vfs' node = leak vfs node := by
  have files : opens vfs' node = opens vfs node :=
    opens_congr (fun fd => by rw [same.1]) node
  rw [leak, leak, same.2 node, files]

/-- A call which neither opens nor closes. -/
theorem nodeReplied
    (vfs : Vfs ω)
    (node : Nat)
    (reply : NodeReply ω)
    {call : FsCall}
    (opens : ∀ other, call.opensNode other = false)
    (closes : ∀ other, call.closesNode other = false) :
    SameBalance vfs (vfs.nodeReplied node reply call) := by
  refine ⟨rfl, ?_⟩
  intro other
  have extended : (vfs.nodeReplied node reply call).calls =
      vfs.calls ++ [call] := rfl
  rw [outstanding_append extended, opens, closes]
  simp

end SameBalance

theorem getNodeWithLen_sameBalance
    {parent : Nat}
    {name : CString}
    {len : Nat}
    {found : Option Nat}
    (returned : getNodeWithLen mounts parent name len vfs =
      some (found, vfs')) :
    SameBalance vfs vfs' := by
  rcases getNodeWithLen_inv returned with
    ⟨link, _, linked⟩ | ⟨_, ⟨_, full⟩ | ⟨newNode, _, fetched⟩⟩
  · cases linked
    exact .refl vfs
  · cases full
    exact .refl vfs
  · cases fetched
    have claimed : SameBalance vfs (vfs.claimed newNode parent) :=
      ⟨rfl, outstanding_congr rfl⟩
    exact claimed.trans ((SameBalance.nodeReplied _ parent _
      (fun _ => rfl) fun _ => rfl).trans (SameBalance.nodeReplied _ newNode _
        (fun _ => rfl) fun _ => rfl))

theorem findParentCheckperm_sameBalance
    {root : Nat}
    {path : CString}
    {p : Int}
    {found : Option Nat}
    (returned : findParentCheckperm mounts root path p vfs =
      some (found, vfs')) :
    SameBalance vfs vfs' := by
  have kept {parent : Nat} {name : CString} {len : Nat} {middle next : Vfs ω}
      {found : Option Nat}
      (looked : getNodeWithLen mounts parent name len middle =
        some (found, next)) (same : SameBalance vfs middle) :
      SameBalance vfs next :=
    same.trans (getNodeWithLen_sameBalance looked)
  exact findParentCheckperm_invariant returned kept (.refl vfs)

end

/-! ## Opening and closing -/

/-- The file system agrees to open a node which the process may use. -/
def Agreed
    (mounts : Nat → FsOps ω)
    (p : Int)
    (mode : Nat)
    (vfs : Vfs ω)
    (node : Nat) :
    Prop :=
  ModeAllowed vfs p mode node ∧
    ∃ mount, (vfs.fsnodes node).mountpoint = some mount ∧
      0 ≤ vfs.answer mounts mount node

/--
All checks of `vfs_open` before its search for a free entry pass: the parent
is found and may be entered, the node is found and may be used in this mode,
and its file system agrees.
-/
def Granted
    (mounts : Nat → FsOps ω)
    (p : Int)
    (path : CString)
    (mode : Nat)
    (vfs : Vfs ω) :
    Prop :=
  ∃ parent entered name node checked,
    findParentCheckperm mounts vfs.vfsRoot path p vfs =
      some (some parent, entered) ∧
    canExec (entered.fsnodes parent) p = true ∧
    basename path = some name ∧
    getNode mounts parent name entered = some (some node, checked) ∧
    Agreed mounts p mode checked node

/-- The file system grants an open for which there is no entry. -/
def Spills
    (mounts : Nat → FsOps ω)
    (p : Int)
    (path : CString)
    (mode : Nat)
    (vfs : Vfs ω) :
    Prop :=
  findFreeFd vfs = none ∧ Granted mounts p path mode vfs

section

variable
  {vfs vfs' : Vfs ω}
  {p ret : Int}
  {path : CString}
  {mode : Nat}

theorem findFreeFd_congr (same : vfs'.openFiles = vfs.openFiles) :
    findFreeFd vfs' = findFreeFd vfs := by
  rw [findFreeFd, findFreeFd, same]

/-- What is outstanding after `f_open`. -/
theorem outstanding_asked
    (vfs : Vfs ω)
    (mount node other : Nat) :
    outstanding (vfs.asked mounts mount node) other =
      outstanding vfs other +
        if other = node ∧ 0 ≤ vfs.answer mounts mount node then 1 else 0 := by
  have extended : (vfs.asked mounts mount node).calls = vfs.calls ++
      [.fOpen node (vfs.answer mounts mount node)] := rfl
  rw [outstanding_append extended]
  simp [FsCall.opensNode, FsCall.closesNode, @eq_comm _ node other]

/-- A walk which does not end at a directory that may be entered. -/
theorem not_granted_of_walk
    {found : Option Nat}
    {after : Vfs ω}
    (walked : findParentCheckperm mounts vfs.vfsRoot path p vfs =
      some (found, after))
    (closed : ∀ parent ∈ found, canExec (after.fsnodes parent) p = false) :
    ¬ Granted mounts p path mode vfs := by
  rintro ⟨parent, entered, _, _, _, walked', exec, _⟩
  rw [walked'] at walked
  cases walked
  rw [closed parent rfl] at exec
  cases exec

/-- A lookup which succeeds leaves the rest to the node. -/
theorem granted_iff
    {parent node : Nat}
    {entered checked : Vfs ω}
    {name : CString}
    (walked : findParentCheckperm mounts vfs.vfsRoot path p vfs =
      some (some parent, entered))
    (exec : canExec (entered.fsnodes parent) p = true)
    (isName : basename path = some name)
    (got : getNode mounts parent name entered = some (some node, checked)) :
    Granted mounts p path mode vfs ↔ Agreed mounts p mode checked node := by
  constructor
  · rintro ⟨parent', entered', name', node', checked', walked', _, isName',
      got', agreed⟩
    rw [walked] at walked'
    cases walked'
    rw [isName] at isName'
    cases isName'
    rw [got] at got'
    cases got'
    exact agreed
  · intro agreed
    exact ⟨parent, entered, name, node, checked, walked, exec, isName, got,
      agreed⟩

/-- After `f_open` there may be one outstanding open more. -/
theorem leak_asked
    (vfs : Vfs ω)
    (mount node other : Nat) :
    leak (vfs.asked mounts mount node) other = leak vfs other +
      if other = node ∧ 0 ≤ vfs.answer mounts mount node then 1 else 0 := by
  have files : opens (vfs.asked mounts mount node) other =
      opens vfs other := opens_congr (fun _ => rfl) other
  rw [leak, leak, outstanding_asked, files]
  omega

/-- The new entry stands for the open. -/
theorem leak_fillFile
    {fd : Nat}
    (lt : fd < numOpenFiles)
    (free : (vfs.openFiles fd).node = none)
    (node mode : Nat)
    (p : Int)
    (other : Nat) :
    leak (vfs.fillFile fd node mode p) other =
      leak vfs other - if other = node then 1 else 0 := by
  have same : outstanding (vfs.fillFile fd node mode p) other =
      outstanding vfs other := outstanding_congr rfl other
  have entry : ((vfs.fillFile fd node mode p).openFiles fd).node =
      some node := by
    simp [Vfs.fillFile, Vfs.setFile, Vfs.setNode]
  have more := opens_gain lt free entry
    (fun i different => congrArg OpenFile.node
      (Function.update_of_ne different ..)) other
  rw [leak, leak, same, more]
  split_ifs <;> push_cast <;> omega

/-- The second half of an open leaks just when it is agreed to and full. -/
theorem openNode_leak
    {node : Nat}
    (returned : openNode mounts p mode node vfs = some (ret, vfs')) :
    (¬ (findFreeFd vfs = none ∧ Agreed mounts p mode vfs node) ∧
        ∀ other, leak vfs' other = leak vfs other) ∨
      (findFreeFd vfs = none ∧ Agreed mounts p mode vfs node) ∧
        ∀ other, leak vfs' other =
          leak vfs other + if other = node then 1 else 0 := by
  rcases openNode_inv returned with
    ⟨forbidden, _, rfl⟩ | ⟨mount, allowed, mounted, finish⟩
  · exact .inl ⟨fun both => forbidden both.2.1, fun _ => rfl⟩
  · rcases finish with ⟨_, rfl, reason⟩ | ⟨fd, free, _, rfl, agreed⟩
    · by_cases refused : vfs.answer mounts mount node < 0
      · refine .inl ⟨?_, fun other => ?_⟩
        · rintro ⟨_, _, mount', mounted', agreed⟩
          rw [mounted] at mounted'
          cases mounted'
          exact absurd agreed (Int.not_le.mpr refused)
        · rw [leak_asked, if_neg (by omega), add_zero]
      · have full := reason.resolve_left refused
        have agreed := Int.not_lt.mp refused
        refine .inr ⟨⟨full, allowed, mount, mounted, agreed⟩, fun other => ?_⟩
        rw [leak_asked]
        simp [agreed]
    · rcases findFreeFd_spec free with ⟨lt, unused⟩
      have room : findFreeFd vfs = some fd := free
      refine .inl ⟨?_, fun other => ?_⟩
      · rw [room]
        simp
      · rw [leak_fillFile lt unused, leak_asked]
        simp [agreed]

/--
An open adds one outstanding open to a node just when the file system grants
it and there is no entry for it.
-/
theorem vfsOpen_leak
    (returned : vfsOpen mounts p path mode vfs = some (ret, vfs')) :
    (¬ Spills mounts p path mode vfs ∧
        ∀ node, leak vfs' node = leak vfs node) ∨
      Spills mounts p path mode vfs ∧ ∃ target, ∀ node,
        leak vfs' node = leak vfs node + if node = target then 1 else 0 := by
  rcases vfsOpen_inv returned with
    ⟨found, walked, _, closed⟩ |
      ⟨parent, entered, name, node, checked, walked, exec, isName, got,
        opened⟩
  · exact .inl ⟨fun spills => not_granted_of_walk walked closed spills.2,
      (findParentCheckperm_sameBalance walked).leak_eq⟩
  · have same := (findParentCheckperm_sameBalance walked).trans
      (getNodeWithLen_sameBalance got)
    have files : findFreeFd checked = findFreeFd vfs :=
      findFreeFd_congr same.1
    have spills : Spills mounts p path mode vfs ↔
        findFreeFd checked = none ∧ Agreed mounts p mode checked node := by
      rw [files, ← granted_iff walked exec isName got, Spills]
    rw [spills]
    rcases openNode_leak opened with ⟨tight, leaked⟩ | ⟨full, leaked⟩
    · refine .inl ⟨tight, fun other => ?_⟩
      rw [leaked, same.leak_eq]
    · refine .inr ⟨full, node, fun other => ?_⟩
      rw [leaked, same.leak_eq]

/-- What is outstanding after `f_close`. -/
theorem outstanding_closed
    (vfs : Vfs ω)
    (fd node : Nat)
    (reply : FileReply ω)
    (other : Nat) :
    outstanding (vfs.fileReplied fd node reply (.fClose fd node reply.ret))
        other =
      outstanding vfs other -
        if other = node ∧ 0 ≤ reply.ret then 1 else 0 := by
  have extended : (vfs.fileReplied fd node reply
      (.fClose fd node reply.ret)).calls =
        vfs.calls ++ [.fClose fd node reply.ret] := rfl
  rw [outstanding_append extended]
  simp [FsCall.opensNode, FsCall.closesNode, @eq_comm _ node other,
    sub_eq_add_neg]

/-- The entry no longer stands for an open. -/
theorem leak_freeFile
    {fd node : Nat}
    (lt : fd < numOpenFiles)
    (isOpen : (vfs.openFiles fd).node = some node)
    {contents : OpenFile}
    (freed : contents.node = none)
    (other : Nat) :
    leak ((vfs.release node).setFile fd contents) other =
      leak vfs other + if other = node then 1 else 0 := by
  generalize afterEq : (vfs.release node).setFile fd contents = after
  have entry : (after.openFiles fd).node = none := by
    simp [← afterEq, Vfs.setFile, freed]
  have files (i : Nat) (different : i ≠ fd) :
      (vfs.openFiles i).node = (after.openFiles i).node := by
    simp [← afterEq, Vfs.setFile, Vfs.release, Vfs.setNode, different]
  have less := opens_gain lt entry isOpen files other
  have same : outstanding after other = outstanding vfs other := by
    rw [← afterEq]
    exact outstanding_congr rfl other
  rw [leak, leak, same, less]
  split_ifs <;> push_cast <;> omega

/-- A close takes the entry away with the open it stands for. -/
theorem vfsClose_leak
    {fd : Nat}
    (returned : vfsClose mounts fd vfs = some (ret, vfs'))
    (other : Nat) :
    leak vfs' other = leak vfs other := by
  rcases withFile_cases returned with
    closed | ⟨mount, node, lt, isOpen, acted⟩
  · cases closed
    rfl
  · generalize (mounts mount).fClose (vfs.openFiles fd) (vfs.fsnodes node)
      vfs.fsState = reply at acted
    have files (i : Nat) : ((vfs.fileReplied fd node reply
        (.fClose fd node reply.ret)).openFiles i).node =
          (vfs.openFiles i).node :=
      (sameFiles_fileReplied vfs fd node reply _ i).1
    have replied := outstanding_closed vfs fd node reply other
    simp only at acted
    split at acted
    · rename_i refused
      cases acted
      rw [if_neg (by omega), sub_zero] at replied
      rw [leak, leak, replied, opens_congr files]
    · rename_i granted
      cases acted
      refine (leak_freeFile lt ((files fd).trans isOpen) ?_ other).trans ?_
      · rfl
      · rw [leak, replied, opens_congr files, leak]
        split_ifs <;> omega

end

/-! ## Runs -/

inductive OpenOp where
  | vfsOpen (p : Int) (path : CString) (mode : Nat)
  | vfsClose (fd : Nat)

namespace OpenOp

def step
    (mounts : Nat → FsOps ω)
    (vfs : Vfs ω) :
    OpenOp → Option (Vfs ω)
  | .vfsOpen p path mode =>
      (Fs.vfsOpen mounts p path mode vfs).map fun result => result.2
  | .vfsClose fd => (Fs.vfsClose mounts fd vfs).map fun result => result.2

/-- With a full table, the operation is no open which is granted. -/
def Contained
    (mounts : Nat → FsOps ω)
    (vfs : Vfs ω) :
    OpenOp → Prop
  | .vfsOpen p path mode => ¬ Spills mounts p path mode vfs
  | .vfsClose _ => True

end OpenOp

/-- Files are opened and closed, from any state which is balanced. -/
def openSystem (mounts : Nat → FsOps ω) : System (Vfs ω) OpenOp where
  init := Balanced
  legal := fun _ _ => True
  step := OpenOp.step mounts

section

variable {vfs vfs' : Vfs ω}

/-- A step leaks nothing if it is contained, and otherwise one open. -/
theorem OpenOp.step_leak
    {op : OpenOp}
    (last : (openSystem mounts).Step vfs op vfs') :
    (op.Contained mounts vfs ∧ ∀ node, leak vfs' node = leak vfs node) ∨
      ¬ op.Contained mounts vfs ∧ ∃ target, ∀ node,
        leak vfs' node = leak vfs node + if node = target then 1 else 0 := by
  have stepped : op.step mounts vfs = some vfs' := last.2
  cases op with
  | vfsOpen p path mode =>
      rcases Option.map_eq_some_iff.mp stepped with
        ⟨⟨ret, after⟩, returned, rfl⟩
      rcases vfsOpen_leak returned with ⟨tight, same⟩ | ⟨spills, leaked⟩
      · exact .inl ⟨tight, same⟩
      · exact .inr ⟨not_not.mpr spills, leaked⟩
  | vfsClose fd =>
      rcases Option.map_eq_some_iff.mp stepped with
        ⟨⟨ret, after⟩, returned, rfl⟩
      exact .inl ⟨trivial, vfsClose_leak returned⟩

/-- What has leaked never comes back. -/
theorem OpenOp.leak_le
    {op : OpenOp}
    (last : (openSystem mounts).Step vfs op vfs')
    (node : Nat) :
    leak vfs node ≤ leak vfs' node := by
  rcases OpenOp.step_leak last with ⟨_, same⟩ | ⟨_, target, leaked⟩
  · exact (same node).ge
  · rw [leaked node]
    split_ifs <;> omega

/-- A step keeps the balance just when it is contained. -/
theorem OpenOp.balanced_iff
    {op : OpenOp}
    (balanced : Balanced vfs)
    (last : (openSystem mounts).Step vfs op vfs') :
    Balanced vfs' ↔ op.Contained mounts vfs := by
  rw [balanced_iff_leak] at balanced ⊢
  rcases OpenOp.step_leak last with
    ⟨contained, same⟩ | ⟨spilled, target, leaked⟩
  · refine ⟨fun _ => contained, fun _ node => ?_⟩
    rw [same, balanced]
  · refine ⟨fun tight => ?_, fun contained => (spilled contained).elim⟩
    have more := leaked target
    rw [if_pos rfl, tight, balanced] at more
    omega

/-- An open which fails leaves the open files alone. -/
theorem vfsOpen_failed_files
    {p : Int}
    {path : CString}
    {mode : Nat}
    (returned : vfsOpen mounts p path mode vfs = some (-1, vfs')) :
    vfs'.openFiles = vfs.openFiles := by
  rcases vfsOpen_cases returned with
    ⟨_, quiet⟩ | ⟨_, _, fd, _, _, _, _, _, isFd, _⟩
  · exact quiet.files
  · omega

/-- An open which fails leaves nothing outstanding unless it spills. -/
theorem vfsOpen_failed_iff
    {p : Int}
    {path : CString}
    {mode : Nat}
    (returned : vfsOpen mounts p path mode vfs = some (-1, vfs')) :
    (∀ node, outstanding vfs' node = outstanding vfs node) ↔
      ¬ Spills mounts p path mode vfs := by
  have files (node : Nat) : opens vfs' node = opens vfs node :=
    opens_congr (fun fd => by rw [vfsOpen_failed_files returned]) node
  have same (node : Nat) (change : Int) :
      leak vfs' node = leak vfs node + change ↔
        outstanding vfs' node = outstanding vfs node + change := by
    rw [leak, leak, files]
    omega
  rcases vfsOpen_leak returned with ⟨tight, kept⟩ | ⟨spills, target, leaked⟩
  · refine ⟨fun _ => tight, fun _ node => ?_⟩
    simpa using (same node 0).mp (by simpa using kept node)
  · refine ⟨fun kept => ?_, fun tight => (tight spills).elim⟩
    have more := (same target 1).mp (by simpa using leaked target)
    rw [kept] at more
    omega

/--
A run from a balanced state ends in a balanced state just when none of its
opens was granted by a file system with a full table, and an open which fails
leaves the outstanding opens of all nodes alone under the same condition.
-/
theorem opens_balanced_iff
    {ops : List OpenOp}
    (balanced : Balanced vfs)
    (run : (openSystem mounts).Run vfs ops vfs') :
    (Balanced vfs' ↔ ((openSystem mounts).restrict
      fun state op => op.Contained mounts state).Run vfs ops vfs') ∧
    ∀ p path mode after,
      vfsOpen mounts p path mode vfs' = some (-1, after) →
        ((∀ node, outstanding after node = outstanding vfs' node) ↔
          ¬ Spills mounts p path mode vfs') := by
  constructor
  · apply @System.Run.kept_iff _ _ _ _ Balanced
      (fun state => ∀ node, 0 ≤ leak state node) _ _ _ run
    · exact fun node => (balanced_iff_leak.mp balanced node).ge
    · exact balanced
    · exact fun _ _ _ holds last node =>
        (holds node).trans (OpenOp.leak_le last node)
    · intro state op state' holds last kept
      rw [balanced_iff_leak] at kept ⊢
      exact fun node => le_antisymm
        ((OpenOp.leak_le last node).trans (kept node).le) (holds node)
    · exact fun _ _ _ _ kept last => OpenOp.balanced_iff kept last
  · exact fun p path mode after returned => vfsOpen_failed_iff returned

end

/-! ## A full table -/

/-- The directory has been opened until the table was full. -/
def fullVfs : Vfs Unit :=
  { dirVfs.setNode 1 { dirVfs.fsnodes 1 with refCount := numOpenFiles } with
    openFiles := fun _ => ⟨some 1, 0, ofRead, 0⟩
    calls := List.replicate numOpenFiles (.fOpen 1 0) }

/-- It is opened once more. -/
def spilledVfs : Vfs Unit :=
  ((OpenOp.vfsOpen 0 (TestFs.text "/testdir1") ofRead).step testMounts
    fullVfs).get (by decide +kernel)

/-- One of the files is closed. -/
def shutVfs : Vfs Unit :=
  ((OpenOp.vfsClose 7).step testMounts fullVfs).get (by decide +kernel)

/-- The directory is opened in its place. -/
def refilledVfs : Vfs Unit :=
  ((OpenOp.vfsOpen 0 (TestFs.text "/testdir1") ofRead).step testMounts
    shutVfs).get (by decide +kernel)

theorem fullVfs_balanced : Balanced fullVfs := by
  intro node
  by_cases here : node = 1
  · subst here
    have granted : outstanding fullVfs 1 = numOpenFiles := by decide +kernel
    have entries : opens fullVfs 1 = numOpenFiles := by
      simp [opens, tally, fullVfs]
    rw [granted, entries]
  · have entries : opens fullVfs node = 0 := by
      apply tally_eq_zero.mpr
      simp [fullVfs, Ne.symm here]
    rw [entries, outstanding]
    simp [fullVfs, List.countP_replicate, FsCall.opensNode,
      FsCall.closesNode, Ne.symm here]

theorem openSystem_step
    {vfs vfs' : Vfs ω}
    {op : OpenOp}
    (stepped : op.step mounts vfs = some vfs') :
    (openSystem mounts).Step vfs op vfs' :=
  ⟨trivial, stepped⟩

theorem opens_balanced_iff_refilled : Balanced refilledVfs := by
  have first : (openSystem testMounts).Step fullVfs (.vfsClose 7) shutVfs :=
    openSystem_step (Option.some_get _).symm
  have second : (openSystem testMounts).Step shutVfs
      (.vfsOpen 0 (TestFs.text "/testdir1") ofRead) refilledVfs :=
    openSystem_step (Option.some_get _).symm
  have room : findFreeFd shutVfs = some 7 := by decide +kernel
  have run := ((System.Run.nil fullVfs).snoc first).snoc second
  apply (opens_balanced_iff fullVfs_balanced run).1.mpr
  apply System.Run.snoc
  · exact (System.Run.nil _).snoc (first.restrict trivial)
  · apply second.restrict
    rintro ⟨full, _⟩
    rw [room] at full
    cases full

/-- The file system has one open more than there are open files. -/
theorem opens_unbalanced :
    ¬ ∀ (vfs vfs' : Vfs Unit) (ops : List OpenOp), Balanced vfs →
      (openSystem testMounts).Run vfs ops vfs' → Balanced vfs' := by
  intro always
  have last : (openSystem testMounts).Step fullVfs
      (.vfsOpen 0 (TestFs.text "/testdir1") ofRead) spilledVfs :=
    openSystem_step (Option.some_get _).symm
  have run := (System.Run.nil fullVfs).snoc last
  have balanced := always _ _ _ fullVfs_balanced run 1
  have granted : outstanding spilledVfs 1 = 513 := by decide +kernel
  have entries := opens_le spilledVfs 1
  omega

end ForsKernel.Fs
