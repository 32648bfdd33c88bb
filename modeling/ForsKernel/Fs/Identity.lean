import ForsKernel.Fs.Creation

/-!
# Who may open a file

The permission helpers take a process and compare its number with the user of
a node, whereas `vfs_mkfile` records the `uid` of the process as that user.
Here an open is reduced to the rights it asks for along its path, which depend
on the tables alone, and two processes are compared by these rights.
-/

namespace ForsKernel.Fs

open ForsKernel.Proc

variable
  {ω : Type*}
  {mounts : Nat → FsOps ω}

/-! ## The rights an open asks for -/

/-- A right, and the node at which it is asked for. -/
structure Ask where
  bits : PermBits
  node : FsNode

namespace Ask

def Passed
    (ask : Ask)
    (p : Int) :
    Prop :=
  grants ask.bits ask.node p = true

/-- The right is everybody's. -/
def Public (ask : Ask) : Prop :=
  ask.node.perms &&& ask.bits.other ≠ 0

/-- The right is the owner's, and this is the number of the owner. -/
def OwnedBy
    (ask : Ask)
    (user : Int) :
    Prop :=
  ask.node.perms &&& ask.bits.user ≠ 0 ∧ ask.node.user = user

theorem passed_iff
    (ask : Ask)
    {p : Int}
    (notKernel : p ≠ -1) :
    ask.Passed p ↔ ask.Public ∨ ask.OwnedBy p := by
  simp [Passed, grants, Public, OwnedBy, notKernel]

theorem passed_kernel (ask : Ask) : ask.Passed (-1) := by
  simp [Passed, grants]

end Ask

/--
The directories where the loop of `find_parent_checkperm` asks for the right
to enter, and where it ends, if the right is always given.
-/
def walkAsks
    (mounts : Nat → FsOps ω)
    (str : CString)
    (finish : Nat)
    (lastDelim : Option Nat) :
    Nat → Nat → Nat → Vfs ω → Option (List Ask × Nat × Vfs ω)
  | 0, _, _, _ => none
  | fuel + 1, path, parent, vfs =>
      match strnchr (str.drop path) slash (finish - path) with
      | none => some ([], parent, vfs)
      | some len =>
          let entered :=
            if 0 < len then getNodeWithLen mounts parent (str.drop path) len vfs
            else some (some parent, vfs)
          entered.bind fun
            | (none, _) => none
            | (some parent, vfs) =>
                if (vfs.fsnodes parent).type ≠ .directory then none
                else if some (path + len) = lastDelim then
                  some ([], parent, vfs)
                else
                  (walkAsks mounts str finish lastDelim fuel (path + len + 1)
                    parent vfs).map fun rest =>
                      (⟨execBits, vfs.fsnodes parent⟩ :: rest.1, rest.2)

/-- The rights which the mode asks for at the file. -/
def modeAsks
    (mode : Nat)
    (target : FsNode) :
    List Ask :=
  (if HasMode mode ofAppend ∨ HasMode mode ofWrite then
    [⟨writeBits, target⟩] else []) ++
  (if HasMode mode ofRead then [⟨readBits, target⟩] else [])

/-- The open returns a descriptor. -/
def Opens
    (mounts : Nat → FsOps ω)
    (p : Int)
    (path : CString)
    (mode : Nat)
    (vfs : Vfs ω) :
    Prop :=
  ∃ fd after, vfsOpen mounts p path mode vfs = some (fd, after) ∧ 0 ≤ fd

/--
The rights asked for by an open which returns a descriptor if it is given all
of them; `none` if it fails for another reason.
-/
def openAsks
    (mounts : Nat → FsOps ω)
    (path : CString)
    (mode : Nat)
    (vfs : Vfs ω) :
    Option (List Ask) :=
  match path with
  | [] => none
  | first :: str =>
      if first ≠ slash then none
      else
        let finish := firstOfTrailing str
        (walkAsks mounts str finish (memrchr slash str finish)
          (str.length + 1) 0 vfs.vfsRoot vfs).bind fun (dirs, parent, after) =>
            (basename path).bind fun name =>
              (getNode mounts parent name after).bind fun
                | (none, _) => none
                | (some node, checked) =>
                    (openNode mounts (-1) mode node checked).bind fun opened =>
                      if opened.1 < 0 then none
                      else
                        some (⟨execBits, vfs.fsnodes vfs.vfsRoot⟩ :: dirs ++
                          [⟨execBits, after.fsnodes parent⟩] ++
                          modeAsks mode (checked.fsnodes node))

/-! ## An open succeeds if its rights are given -/

section

variable {p : Int}

/-- One directory more is entered if the right to do so is given. -/
theorem walkAsks_enter
    {dir last : Nat}
    {entered after : Vfs ω}
    {walked : Option (NodeResult ω)}
    {asked : Option (List Ask × Nat × Vfs ω)}
    (onwards : walked = some (some last, after) ↔
      ∃ asks, asked = some (asks, last, after) ∧
        ∀ ask ∈ asks, ask.Passed p) :
    (if !canExec (entered.fsnodes dir) p then some (none, entered)
      else walked) = some (some last, after) ↔
      ∃ asks, (asked.map fun rest =>
          (⟨execBits, entered.fsnodes dir⟩ :: rest.1, rest.2)) =
            some (asks, last, after) ∧ ∀ ask ∈ asks, ask.Passed p := by
  have passed_iff : Ask.Passed ⟨execBits, entered.fsnodes dir⟩ p ↔
      canExec (entered.fsnodes dir) p = true := Iff.rfl
  constructor
  · intro returned
    split at returned
    · cases returned
    · rename_i exec
      rcases onwards.mp returned with ⟨asks, rfl, passed⟩
      refine ⟨_, rfl, ?_⟩
      intro ask member
      rcases List.mem_cons.mp member with rfl | later
      · exact passed_iff.mpr (by simpa using exec)
      · exact passed ask later
  · rintro ⟨asks, isAsked, passed⟩
    rcases Option.map_eq_some_iff.mp isAsked with
      ⟨⟨asks', last', after'⟩, rfl, same⟩
    cases same
    have exec := passed_iff.mp (passed _ (by simp))
    rw [exec]
    exact onwards.mpr ⟨asks', rfl, fun ask member =>
      passed ask (List.mem_cons_of_mem _ member)⟩

theorem walkPath_some_iff
    {str : CString}
    {finish : Nat}
    {lastDelim : Option Nat}
    {fuel path parent last : Nat}
    {vfs after : Vfs ω} :
    walkPath mounts p str finish lastDelim fuel path parent vfs =
        some (some last, after) ↔
      ∃ asks, walkAsks mounts str finish lastDelim fuel path parent vfs =
          some (asks, last, after) ∧ ∀ ask ∈ asks, ask.Passed p := by
  induction fuel generalizing path parent vfs with
  | zero => simp [walkPath, walkAsks]
  | succ fuel induction =>
      rw [walkPath, walkAsks]
      cases strnchr (str.drop path) slash (finish - path) with
      | none => simp
      | some len =>
          simp only
          cases (if 0 < len then
              getNodeWithLen mounts parent (str.drop path) len vfs
            else some (some parent, vfs)) with
          | none => simp
          | some result =>
              rcases result with ⟨found, entered⟩
              cases found with
              | none => simp
              | some dir =>
                  simp only [Option.bind_some]
                  split
                  · simp
                  · split
                    · simp
                    · exact walkAsks_enter induction

/-- The walk returns no parent without the right to enter the root. -/
theorem findParentCheckperm_some_iff
    {root parent : Nat}
    {path : CString}
    {vfs after : Vfs ω} :
    findParentCheckperm mounts root path p vfs = some (some parent, after) ↔
      ∃ str asks, path = slash :: str ∧
        Ask.Passed ⟨execBits, vfs.fsnodes root⟩ p ∧
        walkAsks mounts str (firstOfTrailing str)
          (memrchr slash str (firstOfTrailing str)) (str.length + 1) 0 root
          vfs = some (asks, parent, after) ∧ ∀ ask ∈ asks, ask.Passed p := by
  cases path with
  | nil => simp [findParentCheckperm]
  | cons first str =>
      by_cases relative : first ≠ slash
      · simp [findParentCheckperm, relative]
      · rw [not_not] at relative
        subst relative
        by_cases exec : canExec (vfs.fsnodes root) p = true
        · have passed : Ask.Passed ⟨execBits, vfs.fsnodes root⟩ p := exec
          simp [findParentCheckperm, exec, walkPath_some_iff, passed]
        · have refused : ¬ Ask.Passed ⟨execBits, vfs.fsnodes root⟩ p := exec
          rw [Bool.not_eq_true] at exec
          simp [findParentCheckperm, exec, refused]

theorem modeAllowed_iff
    {mode node : Nat}
    {vfs : Vfs ω} :
    ModeAllowed vfs p mode node ↔
      ∀ ask ∈ modeAsks mode (vfs.fsnodes node), ask.Passed p := by
  constructor
  · rintro ⟨writable, readable⟩ ask member
    rcases List.mem_append.mp member with writes | reads
    · split at writes
      · rename_i mode
        rw [List.mem_singleton.mp writes]
        exact writable mode.symm
      · cases writes
    · split at reads
      · rename_i mode
        rw [List.mem_singleton.mp reads]
        exact readable mode
      · cases reads
  · intro passed
    constructor
    · intro writes
      apply passed ⟨writeBits, vfs.fsnodes node⟩
      simp [modeAsks, writes.symm]
    · intro reads
      apply passed ⟨readBits, vfs.fsnodes node⟩
      simp [modeAsks, reads]

theorem modeAllowed_kernel
    (mode node : Nat)
    (vfs : Vfs ω) :
    ModeAllowed vfs (-1) mode node :=
  modeAllowed_iff.mpr fun ask _ => ask.passed_kernel

/-- The part of `vfs_open` behind the checks of the file. -/
theorem openNode_of_allowed
    {mode node : Nat}
    {vfs : Vfs ω}
    (allowed : ModeAllowed vfs p mode node) :
    openNode mounts p mode node vfs =
      (vfs.fsnodes node).mountpoint.bind fun mount =>
        if ((mounts mount).fOpen (vfs.fsnodes node) vfs.fsState).ret < 0 then
          some (-1, vfs.asked mounts mount node)
        else
          match findFreeFd (vfs.asked mounts mount node) with
          | none => some (-1, vfs.asked mounts mount node)
          | some newFd =>
              some ((newFd : Int),
                (vfs.asked mounts mount node).fillFile newFd node mode p) := by
  rw [openNode]
  simp only
  rw [if_neg, if_neg]
  · apply Option.bind_congr
    intro mount _
    unfold Vfs.asked
    apply ite_congr rfl
    · exact fun _ => rfl
    · intro _
      generalize findFreeFd _ = free
      cases free with
      | none => rfl
      | some newFd => rfl
  · rintro ⟨reads, refused⟩
    rw [allowed.readable reads] at refused
    cases refused
  · rintro ⟨writes, refused⟩
    rw [allowed.writable writes.symm] at refused
    cases refused

/-- What follows the checks of the file does not depend on the process. -/
theorem openNode_opens_iff
    {mode node : Nat}
    {vfs : Vfs ω}
    (allowed : ModeAllowed vfs p mode node) :
    (∃ fd after, openNode mounts p mode node vfs = some (fd, after) ∧
        0 ≤ fd) ↔
      ∃ fd after, openNode mounts (-1) mode node vfs = some (fd, after) ∧
        0 ≤ fd := by
  rw [openNode_of_allowed allowed,
    openNode_of_allowed (modeAllowed_kernel mode node vfs)]
  cases (vfs.fsnodes node).mountpoint with
  | none => simp
  | some mount =>
      simp only [Option.bind_some]
      split
      · exact Iff.rfl
      · cases findFreeFd (vfs.asked mounts mount node) with
        | none => exact Iff.rfl
        | some newFd => simp

/-- The steps of an open which is given every right. -/
structure AllGiven
    (mounts : Nat → FsOps ω)
    (path : CString)
    (mode : Nat)
    (vfs : Vfs ω)
    (str name : CString)
    (dirs : List Ask)
    (parent node : Nat)
    (entered checked : Vfs ω) :
    Prop where
  isPath : path = slash :: str
  walked : walkAsks mounts str (firstOfTrailing str)
    (memrchr slash str (firstOfTrailing str)) (str.length + 1) 0 vfs.vfsRoot
    vfs = some (dirs, parent, entered)
  isName : basename path = some name
  got : getNode mounts parent name entered = some (some node, checked)
  finishes : ∃ fd after,
    openNode mounts (-1) mode node checked = some (fd, after) ∧ 0 ≤ fd

/-- The rights it asks for on its way. -/
def askedOf
    (vfs entered checked : Vfs ω)
    (mode : Nat)
    (dirs : List Ask)
    (parent node : Nat) :
    List Ask :=
  ⟨execBits, vfs.fsnodes vfs.vfsRoot⟩ :: dirs ++
    [⟨execBits, entered.fsnodes parent⟩] ++
    modeAsks mode (checked.fsnodes node)

theorem forall_askedOf
    {vfs entered checked : Vfs ω}
    {mode : Nat}
    {dirs : List Ask}
    {parent node : Nat} :
    (∀ ask ∈ askedOf vfs entered checked mode dirs parent node,
        ask.Passed p) ↔
      Ask.Passed ⟨execBits, vfs.fsnodes vfs.vfsRoot⟩ p ∧
        (∀ ask ∈ dirs, ask.Passed p) ∧
        Ask.Passed ⟨execBits, entered.fsnodes parent⟩ p ∧
        ModeAllowed checked p mode node := by
  rw [modeAllowed_iff, askedOf]
  simp only [List.cons_append, List.forall_mem_cons, List.forall_mem_append,
    List.not_mem_nil, false_implies, implies_true, and_true, and_assoc]

theorem openAsks_eq_some
    {path : CString}
    {mode : Nat}
    {vfs : Vfs ω}
    {asks : List Ask} :
    openAsks mounts path mode vfs = some asks ↔
      ∃ str name dirs parent node entered checked,
        AllGiven mounts path mode vfs str name dirs parent node entered
          checked ∧
        asks = askedOf vfs entered checked mode dirs parent node := by
  constructor
  · intro isAsked
    cases path with
    | nil => cases isAsked
    | cons first str =>
        rw [openAsks] at isAsked
        split at isAsked
        · cases isAsked
        · rename_i absolute
          rw [not_not] at absolute
          subst absolute
          rcases Option.bind_eq_some_iff.mp isAsked with
            ⟨⟨dirs, parent, entered⟩, walked, rest⟩
          rcases Option.bind_eq_some_iff.mp rest with ⟨name, isName, looked⟩
          rcases Option.bind_eq_some_iff.mp looked with
            ⟨⟨node, checked⟩, got, opened⟩
          cases node with
          | none => cases opened
          | some node =>
              rcases Option.bind_eq_some_iff.mp opened with
                ⟨⟨fd, after⟩, finished, ending⟩
              split at ending
              · cases ending
              · rename_i positive
                cases ending
                exact ⟨str, name, dirs, parent, node, entered, checked,
                  ⟨rfl, walked, isName, got, fd, after, finished,
                    Int.not_lt.mp positive⟩, rfl⟩
  · rintro ⟨str, name, dirs, parent, node, entered, checked, given, rfl⟩
    rcases given with ⟨rfl, walked, isName, got, fd, after, opened, positive⟩
    simp only [openAsks, ne_eq, not_true_eq_false, if_false, walked,
      Option.bind_some, isName, got, opened, Int.not_lt.mpr positive,
      askedOf]

/-- An open succeeds just when it is given every right it asks for. -/
theorem opens_iff
    {path : CString}
    {mode : Nat}
    {vfs : Vfs ω} :
    Opens mounts p path mode vfs ↔
      ∃ asks, openAsks mounts path mode vfs = some asks ∧
        ∀ ask ∈ asks, ask.Passed p := by
  constructor
  · rintro ⟨fd, after, returned, positive⟩
    rcases vfsOpen_inv returned with
      ⟨_, _, failed, _⟩ |
        ⟨parent, entered, name, node, checked, walked, exec, isName, got,
          opened⟩
    · omega
    · rcases findParentCheckperm_some_iff.mp walked with
        ⟨str, dirs, isPath, root, asked, passed⟩
      have allowed : ModeAllowed checked p mode node := by
        rcases openNode_inv opened with ⟨_, failed, _⟩ | ⟨_, allowed, _⟩
        · omega
        · exact allowed
      have finishes := (openNode_opens_iff allowed).mp
        ⟨fd, after, opened, positive⟩
      refine ⟨_, openAsks_eq_some.mpr ⟨str, name, dirs, parent, node,
        entered, checked, ⟨isPath, asked, isName, got, finishes⟩, rfl⟩, ?_⟩
      exact forall_askedOf.mpr ⟨root, passed, exec, allowed⟩
  · rintro ⟨asks, isAsked, passed⟩
    rcases openAsks_eq_some.mp isAsked with
      ⟨str, name, dirs, parent, node, entered, checked, given, rfl⟩
    rcases forall_askedOf.mp passed with ⟨root, dirsPassed, exec, allowed⟩
    have walked : findParentCheckperm mounts vfs.vfsRoot path p vfs =
        some (some parent, entered) :=
      findParentCheckperm_some_iff.mpr
        ⟨str, dirs, given.isPath, root, given.walked, dirsPassed⟩
    rcases (openNode_opens_iff allowed).mpr given.finishes with
      ⟨fd, after, opened, positive⟩
    refine ⟨fd, after, ?_, positive⟩
    have enters : canExec (entered.fsnodes parent) p = true := exec
    simp [vfsOpen, walked, enters, given.isName, given.got, opened]

end

/-! ## Two processes of one user -/

/-- Both processes exist, and run for the same user and group. -/
structure SameUser
    (procs : ProcTable)
    (p q : Int)
    (proc proc' : Process) :
    Prop where
  isProc : procAt procs p = some proc
  isProc' : procAt procs q = some proc'
  present : proc.present = true
  present' : proc'.present = true
  uid : proc.uid = proc'.uid
  gid : proc.gid = proc'.gid

/--
All the rights asked for are everybody's, or neither process has them all:
for each there is one which is neither everybody's nor given to an owner with
the number of the process.
-/
def SameRights
    (asks : List Ask)
    (p q : Int) :
    Prop :=
  (∀ ask ∈ asks, ask.Public) ∨
    (∃ ask ∈ asks, ¬ ask.Public ∧ ¬ ask.OwnedBy p) ∧
      ∃ ask ∈ asks, ¬ ask.Public ∧ ¬ ask.OwnedBy q

theorem sameRights_iff
    {asks : List Ask}
    {p q : Int}
    (different : p ≠ q)
    (notKernel : p ≠ -1)
    (notKernel' : q ≠ -1) :
    ((∀ ask ∈ asks, ask.Passed p) ↔ ∀ ask ∈ asks, ask.Passed q) ↔
      SameRights asks p q := by
  have refused {user : Int} (notKernel : user ≠ -1) :
      (¬ ∀ ask ∈ asks, ask.Passed user) ↔
        ∃ ask ∈ asks, ¬ ask.Public ∧ ¬ ask.OwnedBy user := by
    simp [Ask.passed_iff _ notKernel]
  have both : ((∀ ask ∈ asks, ask.Passed p) ∧ ∀ ask ∈ asks, ask.Passed q) ↔
      ∀ ask ∈ asks, ask.Public := by
    constructor
    · rintro ⟨passed, passed'⟩ ask member
      rcases (ask.passed_iff notKernel).mp (passed ask member) with
        isPublic | owned
      · exact isPublic
      · rcases (ask.passed_iff notKernel').mp (passed' ask member) with
          isPublic | owned'
        · exact isPublic
        · exact (different (owned.2.symm.trans owned'.2)).elim
    · intro isPublic
      exact ⟨fun ask member =>
        (ask.passed_iff notKernel).mpr (.inl (isPublic ask member)),
        fun ask member =>
          (ask.passed_iff notKernel').mpr (.inl (isPublic ask member))⟩
  rw [SameRights, ← both, ← refused notKernel, ← refused notKernel']
  exact iff_iff_and_or_not_and_not

theorem opens_same_iff
    {path : CString}
    {mode : Nat}
    {vfs : Vfs ω}
    {p q : Int}
    (notKernel : p ≠ -1)
    (notKernel' : q ≠ -1) :
    (Opens mounts p path mode vfs ↔ Opens mounts q path mode vfs) ↔
      p = q ∨ ∀ asks, openAsks mounts path mode vfs = some asks →
        SameRights asks p q := by
  by_cases same : p = q
  · simp [same]
  · rw [opens_iff, opens_iff]
    cases openAsks mounts path mode vfs with
    | none => simp
    | some asks =>
        simpa [same] using sameRights_iff same notKernel notKernel'

/-- The owner of a right has it if it is everybody's, or by its number. -/
theorem Ask.owner_passes_iff
    (ask : Ask)
    {p uid : Int}
    (notKernel : p ≠ -1) :
    (ask.OwnedBy uid → ask.Passed p) ↔
      ¬ ask.OwnedBy uid ∨ ask.Public ∨ uid = p := by
  rw [ask.passed_iff notKernel]
  constructor
  · intro passes
    by_cases owned : ask.OwnedBy uid
    · rcases passes owned with isPublic | owned'
      · exact .inr (.inl isPublic)
      · exact .inr (.inr (owned.2.symm.trans owned'.2))
    · exact .inl owned
  · rintro (notOwned | isPublic | rfl) owned
    · exact (notOwned owned).elim
    · exact .inl isPublic
    · exact .inr owned

/--
An open succeeds for both of two processes of one user or for neither just
when they are the same process or have the same rights by their numbers.  The
owner rights of the user that `vfs_mkfile` records are those of a process only
if its number is that of the user, or if they are everybody's.
-/
theorem same_user_opens_iff
    {procs : ProcTable}
    {p q : Int}
    {proc proc' : Process}
    (same : SameUser procs p q proc proc')
    (path : CString)
    (mode : Nat)
    (vfs : Vfs ω) :
    ((Opens mounts p path mode vfs ↔ Opens mounts q path mode vfs) ↔
      p = q ∨ ∀ asks, openAsks mounts path mode vfs = some asks →
        SameRights asks p q) ∧
    (∀ ask : Ask, (ask.OwnedBy proc.uid → ask.Passed p) ↔
      ¬ ask.OwnedBy proc.uid ∨ ask.Public ∨ proc.uid = p) ∧
    ∀ newfile newPath perms ret file after,
      vfsMkfile mounts newfile procs p newPath perms vfs =
        some (ret, some file, after) → file.user = proc.uid := by
  have notKernel := procAt_ne same.isProc
  have notKernel' := procAt_ne same.isProc'
  refine ⟨opens_same_iff notKernel notKernel', ?_, ?_⟩
  · exact fun ask => ask.owner_passes_iff notKernel
  · intro newfile newPath perms ret file after returned
    exact (vfsMkfile_owner same.isProc returned).1

/-! Two processes of the user 0, on the tables the kernel starts with. -/

/-- A process of the user 0. -/
def rootProc : Process :=
  { Process.blank with present := true }

theorem rootProc_same :
    SameUser (fun _ => rootProc) 0 1 rootProc rootProc :=
  ⟨rfl, rfl, rfl, rfl, rfl, rfl⟩

/-- Everybody may read the file. -/
theorem same_user_opens_read :
    Opens testMounts 0 (TestFs.text "/test.txt") ofRead bootVfs ↔
      Opens testMounts 1 (TestFs.text "/test.txt") ofRead bootVfs := by
  apply (same_user_opens_iff rootProc_same (TestFs.text "/test.txt") ofRead
    bootVfs).1.mpr
  right
  intro asks isAsked
  left
  have readable : (openAsks testMounts (TestFs.text "/test.txt") ofRead
      bootVfs).all (fun asks => asks.all fun ask =>
        ask.node.perms &&& ask.bits.other != 0) = true := by
    decide +kernel
  rw [isAsked] at readable
  intro ask member
  simpa [Ask.Public] using List.all_eq_true.mp readable ask member

/-- Only the process 0 may write to it. -/
theorem same_user_opens_differ :
    ¬ ∀ (procs : ProcTable) (p q : Int) (proc proc' : Process),
      SameUser procs p q proc proc' →
      ∀ (path : CString) (mode : Nat) (vfs : Vfs Unit),
        Opens testMounts p path mode vfs ↔
          Opens testMounts q path mode vfs := by
  intro always
  have iff := always (fun _ => rootProc) 0 1 rootProc rootProc rootProc_same
    (TestFs.text "/test.txt") ofWrite bootVfs
  have first : (vfsOpen testMounts 0 (TestFs.text "/test.txt") ofWrite
      bootVfs).map (fun result => result.1) = some 0 := by
    decide +kernel
  have second : (vfsOpen testMounts 1 (TestFs.text "/test.txt") ofWrite
      bootVfs).map (fun result => result.1) = some (-1) := by
    decide +kernel
  have opened : Opens testMounts 0 (TestFs.text "/test.txt") ofWrite
      bootVfs := by
    rcases Option.map_eq_some_iff.mp first with ⟨⟨fd, after⟩, returned, isFd⟩
    exact ⟨fd, after, returned, by simp_all⟩
  rcases iff.mp opened with ⟨fd, after, returned, positive⟩
  rw [returned] at second
  cases second
  exact absurd positive (by decide)

end ForsKernel.Fs
