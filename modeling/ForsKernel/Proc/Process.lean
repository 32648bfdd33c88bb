import ForsKernel.Proc.Scheduler

/-!
# Processes

The process table and `create_process`.  The page table and the stack of a new
process come from `new_blank_user_pml4` and `allocate_stack`; what they return
is part of the request.
-/

namespace ForsKernel.Proc

/-- `register_ctx_x64`. -/
structure RegisterCtx where
  cr3 : Nat
  r15 : Nat
  r14 : Nat
  r13 : Nat
  r12 : Nat
  r11 : Nat
  r10 : Nat
  r9 : Nat
  r8 : Nat
  rbp : Nat
  rdi : Nat
  rsi : Nat
  rdx : Nat
  rcx : Nat
  rbx : Nat
  rax : Nat
  vector : Nat
  errorCode : Nat
  rip : Nat
  cs : Nat
  rflags : Nat
  rsp : Nat
  ss : Nat
deriving DecidableEq

/-- All registers zero, as in memory which nobody has written. -/
def RegisterCtx.zero : RegisterCtx :=
  ⟨0, 0, 0, 0, 0, 0, 0, 0, 0, 0, 0, 0, 0, 0, 0, 0, 0, 0, 0, 0, 0, 0, 0⟩

/-- `FDS_PER_PROC`. -/
def fdsPerProc : Nat := 32

/-- `PROC_NAME_LENGTH`. -/
def procNameLength : Nat := 32

def userCs : Nat := 0x1b

def userSs : Nat := 0x23

def kernelCs : Nat := 0x08

def kernelSs : Nat := 0x10

/-- `RFLAGS_BASE | RFLAGS_IF`. -/
def rflagsStart : Nat := (1 <<< 1) ||| (1 <<< 9)

/-- `process_t`, less `status` which nothing reads; `cwd` is a pointer. -/
structure Process where
  present : Bool
  tid : Int
  gid : Int
  uid : Int
  name : List UInt8
  cwd : Nat
  fdmap : Nat → Int
  ctx : RegisterCtx

/-- A slot which has never been used. -/
def Process.blank : Process :=
  ⟨false, 0, 0, 0, [], 0, fun _ => 0, .zero⟩

/-- `procs`. -/
abbrev ProcTable := Nat → Process

/-- `procs[pid]`; what stands outside of the table is not known. -/
def procAt
    (procs : ProcTable)
    (pid : Int) :
    Option Process :=
  if 0 ≤ pid ∧ pid < maxProcs then some (procs pid.toNat) else none

theorem procAt_ne
    {procs : ProcTable}
    {pid : Int}
    {proc : Process}
    (isProc : procAt procs pid = some proc) :
    pid ≠ -1 := by
  rintro rfl
  cases isProc

/-- The smallest free slot from `tid` on, of `fuel` slots. -/
def findFreeTidFrom (procs : ProcTable) : Nat → Nat → Int
  | 0, _ => -1
  | fuel + 1, tid =>
      if !(procs tid).present then tid
      else findFreeTidFrom procs fuel (tid + 1)

def findFreeTid (procs : ProcTable) : Int :=
  findFreeTidFrom procs maxProcs 0

/-- The arguments of `create_process`, and what its callees return. -/
structure ProcessSpec where
  name : List UInt8
  entry : Nat
  arg : Nat
  stack : Nat
  user : Bool
  userPml4 : Nat
  kernelPml4 : Nat
  newStack : Nat
  defaultCwd : Nat

/--
The process which `create_process` leaves in slot `tid`.  The copy of a name
which fills its field puts its terminator into the lowest byte of `cwd`.
-/
def ProcessSpec.start
    (spec : ProcessSpec)
    (tid : Nat)
    (old : Process) :
    Process where
  present := true
  tid := tid
  gid := old.gid
  uid := old.uid
  name := spec.name.take procNameLength
  cwd :=
    if procNameLength ≤ spec.name.length then
      spec.defaultCwd / 256 * 256
    else
      spec.defaultCwd
  fdmap := fun pfd => if pfd < fdsPerProc then -1 else old.fdmap pfd
  ctx :=
    { old.ctx with
      cs := if spec.user then userCs else kernelCs
      ss := if spec.user then userSs else kernelSs
      cr3 := if spec.user then spec.userPml4 else spec.kernelPml4
      rflags := rflagsStart
      rsp := if spec.stack ≠ 0 then spec.stack else spec.newStack
      rip := spec.entry
      rdi := spec.arg
      rbp := 0 }

def createProcess
    (spec : ProcessSpec)
    (procs : ProcTable) :
    Int × ProcTable :=
  let tid := findFreeTid procs
  if tid < 0 then (-1, procs)
  else (tid, Function.update procs tid.toNat
    (spec.start tid.toNat (procs tid.toNat)))

/-- The search ends at a free slot, or has seen that there is none. -/
theorem findFreeTidFrom_cases
    (procs : ProcTable)
    (fuel tid : Nat) :
    (findFreeTidFrom procs fuel tid = -1) ∨
      ∃ free : Nat, findFreeTidFrom procs fuel tid = free ∧
        free < tid + fuel ∧ (procs free).present = false := by
  induction fuel generalizing tid with
  | zero => exact .inl rfl
  | succ fuel induction =>
      rw [findFreeTidFrom]
      by_cases present : (procs tid).present
      · rw [if_neg (by simp [present])]
        rcases induction (tid + 1) with none_free | ⟨free, found, lt, absent⟩
        · exact .inl none_free
        · exact .inr ⟨free, found, by omega, absent⟩
      · rw [if_pos (by simp [present])]
        exact .inr ⟨tid, rfl, by omega, by simpa using present⟩

/-- A new process takes a free slot, or nothing happens. -/
theorem createProcess_cases
    (spec : ProcessSpec)
    (procs : ProcTable) :
    createProcess spec procs = (-1, procs) ∨
      ∃ tid < maxProcs, (procs tid).present = false ∧
        createProcess spec procs =
          ((tid : Int), Function.update procs tid
            (spec.start tid (procs tid))) := by
  rcases findFreeTidFrom_cases procs maxProcs 0 with
    none_free | ⟨tid, found, lt, absent⟩
  · left
    simp [createProcess, findFreeTid, none_free]
  · right
    refine ⟨tid, by omega, absent, ?_⟩
    have notNegative : ¬ (tid : Int) < 0 := by omega
    simp only [createProcess, findFreeTid, found, if_neg notNegative,
      Int.toNat_natCast]

end ForsKernel.Proc
