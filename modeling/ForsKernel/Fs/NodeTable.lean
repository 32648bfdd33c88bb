import ForsKernel.Fs.InCore

/-!
# The table of nodes over whole runs

The kernel starts with the root of its test file system in memory, and files
are opened, closed and looked up.  Each lookup of a path brings in the nodes
of its trail anew, so that two nodes of the table are the same node of the
file system as soon as a path is followed twice, and each of them takes an
entry which no operation gives back.
-/

namespace ForsKernel.Fs

open ForsKernel.Lib.Tally
open ForsKernel.Lib.Transition

/-! ## The system -/

inductive CoreOp where
  | vfsOpen (p : Int) (path : CString) (mode : Nat)
  | vfsClose (fd : Nat)
  | findNode (root : Nat) (path : CString)
  | getNodeByid (mount : Nat) (id : Int)

namespace CoreOp

/-- Lookups start from nodes in use. -/
def Legal (vfs : Vfs Unit) : CoreOp → Prop
  | .findNode root _ => (vfs.fsnodes root).type ≠ .empty
  | _ => True

def step (vfs : Vfs Unit) : CoreOp → Option (Vfs Unit)
  | .vfsOpen p path mode =>
      (Fs.vfsOpen testMounts p path mode vfs).map fun result => result.2
  | .vfsClose fd =>
      (Fs.vfsClose testMounts fd vfs).map fun result => result.2
  | .findNode root path =>
      (Fs.findNode testMounts root path vfs).map fun result => result.2
  | .getNodeByid mount id => some (Fs.getNodeByid testMounts mount id vfs).2

/--
The path leads along no node twice and along none which is in memory, as far
as there are free entries.
-/
def Fresh (vfs : Vfs Unit) : CoreOp → Prop
  | .vfsOpen _ path _ =>
      FreshIds vfs (vfs.fsnodes vfs.vfsRoot).mountpoint
        ((TestFs.trail TestFs.idRootDir path).take vfs.free)
  | .findNode root path =>
      FreshIds vfs (vfs.fsnodes root).mountpoint
        ((TestFs.trail (vfs.fsnodes root).internalId path).take vfs.free)
  | _ => True

/-- The operation opens or closes a file. -/
def OnFile : CoreOp → Prop
  | .vfsOpen _ _ _ => True
  | .vfsClose _ => True
  | _ => False

/-- The path leads to no node at all, or no entry is free. -/
def LeadsNowhere (vfs : Vfs Unit) : CoreOp → Prop
  | .vfsOpen _ path _ =>
      TestFs.trail TestFs.idRootDir path = [] ∨ vfs.free = 0
  | _ => True

end CoreOp

/-- The kernel from its boot on. -/
def coreSystem : System (Vfs Unit) CoreOp where
  init := fun vfs => vfs = bootVfs
  legal := CoreOp.Legal
  step := CoreOp.step

/-- Files are opened and closed. -/
def fileSystem : System (Vfs Unit) CoreOp :=
  coreSystem.restrict fun _ op => op.OnFile

section

variable {vfs vfs' : Vfs Unit}

/-- Every operation loads nodes, fresh ones just when its path is fresh. -/
theorem CoreOp.step_loads
    (tested : Tested vfs)
    {op : CoreOp}
    (last : coreSystem.Step vfs op vfs') :
    Tested vfs' ∧ ∃ mount ids, Loads mount vfs ids vfs' ∧
      (FreshIds vfs mount ids ↔ op.Fresh vfs) := by
  rcases last with ⟨legal, stepped⟩
  replace stepped : op.step vfs = some vfs' := stepped
  cases op with
  | vfsOpen p path mode =>
      rcases Option.map_eq_some_iff.mp stepped with
        ⟨⟨ret, after⟩, returned, rfl⟩
      have followed := tested.vfsOpen returned
      exact ⟨followed.tested, _, _, followed.loads, Iff.rfl⟩
  | vfsClose fd =>
      rcases Option.map_eq_some_iff.mp stepped with
        ⟨⟨ret, after⟩, returned, rfl⟩
      rcases tested.vfsClose returned with ⟨tested', same⟩
      refine ⟨tested', none, [], .done same, fun _ => trivial, ?_⟩
      exact fun _ => ⟨List.nodup_nil, by simp⟩
  | findNode root path =>
      rcases Option.map_eq_some_iff.mp stepped with
        ⟨⟨found, after⟩, returned, rfl⟩
      have followed := tested.findNode legal returned
      exact ⟨followed.tested, _, _, followed.loads, Iff.rfl⟩
  | getNodeByid mount id =>
      cases stepped
      rcases tested.getNodeByid mount id with ⟨tested', ids, loads, fresh⟩
      exact ⟨tested', _, ids, loads, fun _ => trivial, fun _ => fresh⟩

theorem Tested.reachable (reachable : coreSystem.Reachable vfs) :
    Tested vfs := by
  apply reachable.invariant
  · rintro start rfl
    exact .boot
  · exact fun _ op _ tested last => (CoreOp.step_loads tested last).1

/-! ## Unique nodes -/

/-- A step keeps the nodes unique just when its path is fresh. -/
theorem Unique.step_iff
    (unique : Unique vfs)
    (tested : Tested vfs)
    {op : CoreOp}
    (last : coreSystem.Step vfs op vfs') :
    Unique vfs' ↔ op.Fresh vfs := by
  rcases CoreOp.step_loads tested last with ⟨_, mount, ids, loads, fresh⟩
  exact (unique.loads_iff loads).trans fresh

/--
In every run over fresh paths no node is in memory twice and all open files of
a node share its entry, and any other step from a state of such a run brings
in a node a second time.
-/
theorem nodes_unique
    (reachable : (coreSystem.restrict
      fun vfs op => op.Fresh vfs).Reachable vfs) :
    Unique vfs ∧
      (∀ fd fd' node node', (vfs.openFiles fd).node = some node →
        (vfs.openFiles fd').node = some node' →
        (vfs.fsnodes node).mountpoint = (vfs.fsnodes node').mountpoint →
        (vfs.fsnodes node).internalId = (vfs.fsnodes node').internalId →
        node = node') ∧
      ∀ op after, coreSystem.Step vfs op after →
        (Unique after ↔ op.Fresh vfs) := by
  have both : Tested vfs ∧ Unique vfs := by
    apply reachable.invariant
    · intro start initial
      replace initial : start = bootVfs := initial
      subst initial
      exact ⟨.boot, .boot⟩
    · rintro state op state' ⟨tested, unique⟩ last
      exact ⟨(CoreOp.step_loads tested last.of_restrict).1,
        (unique.step_iff tested last.of_restrict).mpr last.1.2⟩
  rcases both with ⟨tested, unique⟩
  refine ⟨unique, ?_, fun op after last => unique.step_iff tested last⟩
  intro fd fd' node node' isOpen isOpen' mount id
  have inUse := tested.opened fd node isOpen
  have inUse' := tested.opened fd' node' isOpen'
  apply unique node node' _ (Vfs.key_of_inUse inUse)
  rw [Vfs.key_of_inUse inUse', mount, id]

end

/-! The same file is opened twice. -/

theorem coreSystem_step
    {vfs vfs' : Vfs Unit}
    {op : CoreOp}
    (legal : op.Legal vfs)
    (stepped : op.step vfs = some vfs') :
    coreSystem.Step vfs op vfs' :=
  ⟨legal, stepped⟩

/-- The process 0 opens `/test.txt` for reading. -/
def openTest : CoreOp :=
  .vfsOpen 0 (TestFs.text "/test.txt") ofRead

/-- The file is open, in memory as node 1. -/
def openedVfs : Vfs Unit :=
  (openTest.step bootVfs).get (by decide +kernel)

/-- It is open twice, and in memory as nodes 1 and 2. -/
def reopenedVfs : Vfs Unit :=
  (openTest.step openedVfs).get (by decide +kernel)

theorem openedVfs_step : coreSystem.Step bootVfs openTest openedVfs :=
  coreSystem_step trivial (Option.some_get _).symm

theorem reopenedVfs_step : coreSystem.Step openedVfs openTest reopenedVfs :=
  coreSystem_step trivial (Option.some_get _).symm

theorem openTest_fresh : openTest.Fresh bootVfs := by
  have loaded : (TestFs.trail TestFs.idRootDir
      (TestFs.text "/test.txt")).take bootVfs.free = [1] := by
    decide +kernel
  show FreshIds bootVfs _ _
  rw [loaded]
  refine ⟨List.nodup_singleton 1, ?_⟩
  intro id member node isKey
  cases List.mem_singleton.mp member
  rcases bootVfs_cases node with ⟨_, contents⟩ | contents
  · rw [Vfs.key_of_inUse, contents] at isKey
    · cases isKey
    · rw [contents]
      exact TestFs.fill_type _ _
  · rw [Vfs.key, contents] at isKey
    cases isKey

theorem nodes_unique_opened :
    Unique openedVfs ∧ ¬ openTest.Fresh openedVfs := by
  have reachable : (coreSystem.restrict
      fun vfs op => op.Fresh vfs).Reachable openedVfs :=
    System.Reachable.next (.start rfl)
      (openedVfs_step.restrict openTest_fresh)
  rcases nodes_unique reachable with ⟨unique, _, iff⟩
  refine ⟨unique, ?_⟩
  rw [← iff openTest reopenedVfs reopenedVfs_step]
  intro again
  exact absurd (again 1 2 (some 0, 1) (by decide +kernel) (by decide +kernel))
    (by decide)

/-- Two entries hold the same file, each with a counter of its own. -/
theorem nodes_not_unique :
    ¬ ∀ vfs, coreSystem.Reachable vfs → Unique vfs := by
  intro always
  have reachable : coreSystem.Reachable reopenedVfs :=
    System.Reachable.next (System.Reachable.next (.start rfl)
      openedVfs_step) reopenedVfs_step
  have same := always reopenedVfs reachable 1 2 (some 0, 1)
    (by decide +kernel) (by decide +kernel)
  cases same

/-! ## Free entries -/

section

variable {vfs vfs' : Vfs Unit}

/-- No step frees an entry, and an open keeps all only if it leads nowhere. -/
theorem CoreOp.step_free
    (tested : Tested vfs)
    {op : CoreOp}
    (last : fileSystem.Step vfs op vfs') :
    vfs'.free ≤ vfs.free ∧ (vfs.free ≤ vfs'.free ↔ op.LeadsNowhere vfs) := by
  rcases last with ⟨⟨_, onFile⟩, stepped⟩
  replace stepped : op.step vfs = some vfs' := stepped
  cases op with
  | vfsOpen p path mode =>
      rcases Option.map_eq_some_iff.mp stepped with
        ⟨⟨ret, after⟩, returned, rfl⟩
      have free := (tested.vfsOpen returned).loads.free_eq
      refine ⟨show after.free ≤ vfs.free by omega, ?_⟩
      have kept : vfs.free ≤ after.free ↔
          (TestFs.trail TestFs.idRootDir path).take vfs.free = [] := by
        rw [← List.length_eq_zero_iff]
        omega
      rw [kept, List.take_eq_nil_iff, or_comm]
      rfl
  | vfsClose fd =>
      rcases Option.map_eq_some_iff.mp stepped with
        ⟨⟨ret, after⟩, returned, rfl⟩
      have loads : Loads none vfs [] after :=
        .done (tested.vfsClose returned).2
      have free := loads.free_eq
      simp only [List.length_nil, Nat.add_zero] at free
      rw [free]
      exact ⟨Nat.le_refl _, fun _ => trivial, fun _ => Nat.le_refl _⟩
  | findNode root path => exact onFile.elim
  | getNodeByid mount id => exact onFile.elim

/--
Opening and closing files leaves as many entries free as there were just when
every path that is opened leads nowhere, whatever is closed again.
-/
theorem free_entries_kept_iff
    {ops : List CoreOp}
    (reachable : coreSystem.Reachable vfs)
    (run : fileSystem.Run vfs ops vfs') :
    vfs.free ≤ vfs'.free ↔
      (fileSystem.restrict fun vfs op => op.LeadsNowhere vfs).Run
        vfs ops vfs' := by
  apply run.measure_kept_iff (Tested.reachable reachable)
  · exact fun _ op _ tested last =>
      (CoreOp.step_loads tested last.of_restrict).1
  · exact fun _ op _ tested last => (CoreOp.step_free tested last).1
  · exact fun _ op _ tested last => (CoreOp.step_free tested last).2

end

/-! A path which leads nowhere, and a file which is opened and closed. -/

/-- The directory of this path is not there. -/
def openNone : CoreOp :=
  .vfsOpen 0 (TestFs.text "/none/x") ofRead

theorem openNone_returns : (openNone.step openedVfs).isSome = true := by
  decide +kernel

def walkedVfs : Vfs Unit :=
  (openNone.step openedVfs).get openNone_returns

theorem close_returns :
    ((CoreOp.vfsClose 0).step openedVfs).isSome = true ∧
      ((CoreOp.vfsClose 0).step walkedVfs).isSome = true := by
  decide +kernel

/-- The file is closed again, at once or after the walk. -/
def closedVfs : Vfs Unit :=
  ((CoreOp.vfsClose 0).step openedVfs).get close_returns.1

def walkedClosedVfs : Vfs Unit :=
  ((CoreOp.vfsClose 0).step walkedVfs).get close_returns.2

theorem walkedVfs_step : coreSystem.Step openedVfs openNone walkedVfs :=
  coreSystem_step trivial (Option.some_get _).symm

theorem walkedClosedVfs_step :
    coreSystem.Step walkedVfs (.vfsClose 0) walkedClosedVfs :=
  coreSystem_step trivial (Option.some_get _).symm

theorem closedVfs_step : coreSystem.Step openedVfs (.vfsClose 0) closedVfs :=
  coreSystem_step trivial (Option.some_get _).symm

theorem free_entries_kept_walked :
    openedVfs.free ≤ walkedClosedVfs.free ∧
      (fileSystem.restrict fun vfs op => op.LeadsNowhere vfs).Run openedVfs
        ([] ++ [openNone] ++ [.vfsClose 0]) walkedClosedVfs := by
  have reachable : coreSystem.Reachable openedVfs :=
    (System.Reachable.start rfl).next openedVfs_step
  have run : fileSystem.Run openedVfs ([] ++ [openNone] ++ [.vfsClose 0])
      walkedClosedVfs :=
    System.Run.snoc (System.Run.snoc (.nil openedVfs)
      (walkedVfs_step.restrict trivial)) (walkedClosedVfs_step.restrict trivial)
  have kept : openedVfs.free ≤ walkedClosedVfs.free := by decide +kernel
  exact ⟨kept, (free_entries_kept_iff reachable run).mp kept⟩

/-- Everything is closed again, and there is a free entry less. -/
theorem free_entries_not_kept :
    ¬ ∀ vfs ops vfs', coreSystem.Reachable vfs →
      fileSystem.Run vfs ops vfs' →
      (∀ fd < numOpenFiles, (vfs'.openFiles fd).node = none) →
      vfs.free ≤ vfs'.free := by
  intro always
  have run : fileSystem.Run bootVfs ([] ++ [openTest] ++ [.vfsClose 0])
      closedVfs :=
    System.Run.snoc (System.Run.snoc (.nil bootVfs)
      (openedVfs_step.restrict trivial)) (closedVfs_step.restrict trivial)
  have closed : ∀ fd < numOpenFiles,
      (closedVfs.openFiles fd).node = none := by
    decide +kernel
  have kept := always _ _ _ (.start rfl) run closed
  exact absurd kept (by decide +kernel)

end ForsKernel.Fs
