import ForsKernel.Store.AtaBoard
import ForsKernel.Store.AtaCalls

/-!
# The disks which the driver makes of the hardware

Whatever calls are made, on whichever of the four drives, the driver answers
them as the disks may: a channel is left idle, and the protocol is never
broken.  On a sound drive the last sector written to an address is the one
which is read from it.
-/

namespace ForsKernel.Ata

open ForsKernel.Lib

/-! ## Calls -/

def Request.run
    {σ : Type*}
    (ports : Ports σ)
    (dev : AtaDevice)
    (state : σ) :
    Request → Answer × σ
  | .readSector lba =>
      let read := ports.ataReadSector dev lba state
      ((read.1, read.2.1), read.2.2)
  | .writeSector lba buf =>
      let written := ports.ataWriteSector dev lba buf state
      ((written.1, []), written.2)
  | .readSectors startLba count =>
      let read := ports.ataReadSectors dev startLba count state
      ((read.1, read.2.1), read.2.2)
  | .writeSectors startLba count buf =>
      let written := ports.ataWriteSectors dev startLba count buf state
      ((written.1, []), written.2)
  | .identify =>
      let read := ports.ataIdentify dev state
      ((read.1, read.2.1), read.2.2)

/-- The driver on any ports. -/
def driver
    {σ : Type*}
    (ports : Ports σ) :
    Machine σ Call Answer where
  step state call :=
    call.request.run ports (ataInitDevice call.primary call.master) state

/-! ## The loops over sectors -/

section

variable
  {σ : Type*}
  {drives : Drives σ}
  {p m : Bool}
  {state : σ}

theorem mod_size (lba : Nat) : lba % 2 ^ 64 % 2 ^ 28 = lba % 2 ^ 28 :=
  Nat.mod_mod_of_dvd lba (Nat.pow_dvd_pow 2 (by decide))

theorem Drives.Serves.trans
    {middle after : σ}
    {sectors sectors' : Sectors}
    (first : drives.Serves p state middle sectors)
    (second : drives.Serves p middle after sectors') :
    drives.Serves p state after sectors' :=
  ⟨first.leads.trans second.leads, second.idle, second.sectors_eq⟩

/-- The turns of `ata_read_sectors` from one on. -/
theorem readSectorsLoop_drives
    (documented : drives.Documented)
    (silent : drives.Silent)
    (idle : (drives.channel state p).Idle)
    (startLba turns i : Nat) :
    ∃ ret words after,
      drives.ports.readSectorsLoop (ataInitDevice p m) startLba turns i
        state = (ret, words, after) ∧
      drives.Serves p state after (drives.channel state p).sectors ∧
      drives.disks.ReadsAll p (driveOf m) (drives.channel state p).sectors
        ((List.range' i turns).map fun i => (startLba + i) % 2 ^ 28) ret
        words := by
  induction turns generalizing i state with
  | zero =>
      exact ⟨_, _, _, rfl, ⟨.refl drives p state, idle, rfl⟩, .nil⟩
  | succ turns induction =>
      rcases ataReadSector_drives (m := m) documented silent idle
        ((startLba + i) % 2 ^ 64) with ⟨ret, words, after, read, served, is⟩
      rw [mod_size] at is
      rw [Ports.readSectorsLoop, read, List.range'_succ, List.map_cons]
      by_cases failed : ret ≠ ataOk
      · rw [if_pos failed]
        exact ⟨_, _, _, rfl, served, .failed is failed⟩
      · rcases induction served.idle (i + 1) with
          ⟨ret', others, after', loop, served', rest⟩
        rw [served.sectors_eq] at served' rest
        rw [not_not.mp failed] at is
        simp only [if_neg failed, loop]
        exact ⟨_, _, _, rfl, served.trans served', .cons is rest⟩

theorem writeSectorsLoop_drives
    (documented : drives.Documented)
    (silent : drives.Silent)
    (idle : (drives.channel state p).Idle)
    (startLba turns i : Nat)
    (buf : Nat → UInt16) :
    ∃ ret after sectors,
      drives.ports.writeSectorsLoop (ataInitDevice p m) startLba buf turns i
        state = (ret, after) ∧
      drives.Serves p state after sectors ∧
      drives.disks.WritesAll p (driveOf m) (drives.channel state p).sectors
        ((List.range' i turns).map fun i =>
          ((startLba + i) % 2 ^ 28,
            sectorOf fun word => buf (i * 256 + word)))
        ret sectors := by
  induction turns generalizing i state with
  | zero =>
      exact ⟨_, _, _, rfl, ⟨.refl drives p state, idle, rfl⟩, .nil _⟩
  | succ turns induction =>
      rcases ataWriteSector_drives (m := m) documented silent idle
        ((startLba + i) % 2 ^ 64) (fun word => buf (i * 256 + word)) with
        ⟨ret, after, sectors, written, served, is⟩
      rw [mod_size] at is
      rw [Ports.writeSectorsLoop, written, List.range'_succ, List.map_cons]
      by_cases failed : ret ≠ ataOk
      · rw [if_pos failed]
        exact ⟨_, _, _, rfl, served, .failed is failed⟩
      · rcases induction served.idle (i + 1) with
          ⟨ret', after', sectors', loop, served', rest⟩
        rw [served.sectors_eq] at rest
        rw [not_not.mp failed] at is
        simp only [if_neg failed, loop]
        exact ⟨_, _, _, rfl, served.trans served', .cons is rest⟩

/-- Every call does to its channel what may come of it on the disks. -/
theorem Request.run_drives
    (documented : drives.Documented)
    (silent : drives.Silent)
    (idle : (drives.channel state p).Idle)
    (request : Request) :
    ∃ answer after sectors,
      request.run drives.ports (ataInitDevice p m) state =
        (answer, after) ∧
      drives.Serves p state after sectors ∧
      request.Asks drives.disks p (driveOf m)
        (drives.channel state p).sectors answer sectors := by
  cases request with
  | readSector lba =>
      rcases ataReadSector_drives (m := m) documented silent idle lba with
        ⟨ret, words, after, read, served, is⟩
      refine ⟨(ret, words), after, _, ?_, served, .readSector is⟩
      rw [Request.run, read]
  | writeSector lba buf =>
      rcases ataWriteSector_drives (m := m) documented silent idle lba buf
        with ⟨ret, after, sectors, written, served, is⟩
      refine ⟨(ret, []), after, _, ?_, served, .writeSector is⟩
      rw [Request.run, written]
  | readSectors startLba count =>
      rcases readSectorsLoop_drives (m := m) documented silent idle startLba
        count 0 with ⟨ret, words, after, read, served, is⟩
      rw [← List.range_eq_range'] at is
      refine ⟨(ret, words), after, _, ?_, served, .readSectors is⟩
      rw [Request.run, Ports.ataReadSectors, read]
  | writeSectors startLba count buf =>
      rcases writeSectorsLoop_drives (m := m) documented silent idle startLba
        count 0 buf with ⟨ret, after, sectors, written, served, is⟩
      rw [← List.range_eq_range'] at is
      refine ⟨(ret, []), after, _, ?_, served, .writeSectors is⟩
      rw [Request.run, Ports.ataWriteSectors, written]
  | identify =>
      rcases ataIdentify_drives (m := m) documented silent idle with
        ⟨ret, words, after, read, served, is⟩
      refine ⟨(ret, words), after, _, ?_, served, .identify is⟩
      rw [Request.run, read]

end

/-! ## Runs -/

/-- What the drives hold. -/
def Drives.sectors
    {σ : Type*}
    (drives : Drives σ)
    (state : σ)
    (p : Bool) :
    Sectors :=
  (drives.channel state p).sectors

/-- No channel is in the middle of a command. -/
def Drives.Idle
    {σ : Type*}
    (drives : Drives σ)
    (state : σ) :
    Prop :=
  ∀ p, (drives.channel state p).Idle

section

variable
  {σ : Type*}
  {drives : Drives σ}
  {state : σ}

/-- A call on one channel leaves both of them idle. -/
theorem Drives.Serves.all
    {p : Bool}
    {after : σ}
    {sectors : Sectors}
    (idle : drives.Idle state)
    (served : drives.Serves p state after sectors) :
    drives.Idle after ∧
      drives.sectors after =
        Function.update (drives.sectors state) p sectors := by
  constructor
  · intro q
    by_cases same : q = p
    · rw [same]
      exact served.idle
    · rw [served.leads.elsewhere q same]
      exact idle q
  · funext q
    by_cases same : q = p
    · rw [same, Function.update_self]
      exact served.sectors_eq
    · rw [Function.update_of_ne same, Drives.sectors,
        served.leads.elsewhere q same]
      rfl

/-- The driver cannot be told from the disks. -/
theorem driver_implements
    (documented : drives.Documented)
    (silent : drives.Silent)
    (start : σ) :
    (driver drives.ports).Implements drives.disks.serve drives.sectors
      fun state =>
        drives.Idle state ∧
          Relation.ReflTransGen drives.InTurn start state := by
  have call_served (state : σ) (call : Call) (idle : drives.Idle state) :=
    call.request.run_drives (m := call.master) documented silent
      (idle call.primary)
  constructor
  · rintro state call ⟨idle, _⟩
    rcases call_served state call idle with
      ⟨answer, after, sectors, ran, served, asked⟩
    simp only [driver, ran]
    exact ⟨sectors, asked, (served.all idle).2⟩
  · rintro state call ⟨idle, inTurn⟩
    rcases call_served state call idle with
      ⟨answer, after, sectors, ran, served, _⟩
    simp only [driver, ran]
    exact ⟨(served.all idle).1, inTurn.trans served.leads.inTurn⟩

end

/-- The second command is refused, and the third one goes wrong. -/
def faultyMasters : Conduct :=
  masters fun n =>
    ⟨if n = 1 then some true else none, none,
      if n = 2 then some blankSector else none, false⟩

theorem freshBoard_idle (conduct : Conduct) :
    conduct.drives.Idle freshBoard :=
  fun _ => ⟨rfl, show 0 < timeout by decide⟩

/-- The fault of the third one is not shown, so it is answered with success. -/
def triedCalls : List Call :=
  [⟨true, true, .writeSector 5 fun _ => 7⟩,
    ⟨true, true, .readSector (2 ^ 28 + 5)⟩,
    ⟨true, true, .writeSectors 4 1 fun _ => 9⟩,
    ⟨true, false, .identify⟩]

section

variable
  {σ : Type*}
  {drives : Drives σ}
  {state : σ}
  {p m : Bool}

end

/-! ## A channel whose status floats -/

section

variable
  {σ : Type*}
  {ports : Ports σ}
  {p m : Bool}
  {state : σ}

/-- The status of a channel is read. -/
def Ports.Polls
    (ports : Ports σ)
    (p : Bool)
    (state after : σ) :
    Prop :=
  after = (ports.inb (dataPort p + 7) state).2

/-- However often it is read, the status says that the drive is busy. -/
def Ports.Floats
    (ports : Ports σ)
    (p : Bool)
    (state : σ) :
    Prop :=
  ∀ later, Relation.ReflTransGen (ports.Polls p) state later →
    (ports.inb (dataPort p + 7) later).1 &&& ataStatusBsy ≠ 0

theorem Ports.Floats.later
    {after : σ}
    (floats : ports.Floats p state)
    (polled : Relation.ReflTransGen (ports.Polls p) state after) :
    ports.Floats p after :=
  fun later more => floats later (polled.trans more)

theorem waitReadyLoop_floats
    (floats : ports.Floats p state)
    (limit : Nat) :
    ∃ after,
      ports.waitReadyLoop (ataInitDevice p m) limit state =
        (ataErrTimeout, after) ∧
      Relation.ReflTransGen (ports.Polls p) state after := by
  induction limit generalizing state with
  | zero => exact ⟨state, rfl, .refl⟩
  | succ limit induction =>
      have polled : Relation.ReflTransGen (ports.Polls p) state
          (ports.inb (dataPort p + 7) state).2 := .single rfl
      have busy : ¬ (ports.inb ((ataInitDevice p m).basePort + 7) state).1
          &&& ataStatusBsy = 0 := floats state .refl
      rcases induction (floats.later polled) with ⟨after, waited, more⟩
      rw [Ports.waitReadyLoop, if_neg busy]
      exact ⟨after, waited, polled.trans more⟩

/-- The request is for a sector at least, or for what the drive is. -/
def Request.Moves : Request → Prop
  | .readSectors _ count => count ≠ 0
  | .writeSectors _ count _ => count ≠ 0
  | _ => True

theorem Request.run_floats
    {request : Request}
    (moves : request.Moves)
    (floats : ports.Floats p state) :
    ∃ after,
      request.run ports (ataInitDevice p m) state =
        ((ataErrTimeout, []), after) ∧
      Relation.ReflTransGen (ports.Polls p) state after := by
  rcases waitReadyLoop_floats (m := m) floats timeout with
    ⟨after, waited, polled⟩
  have waits : ports.ataWaitReady (ataInitDevice p m) state =
      (ataErrTimeout, after) := waited
  have failed : ataErrTimeout ≠ ataOk := by decide
  have issued (lba : Nat) (command : UInt8) :
      ports.ataIssue (ataInitDevice p m) lba command state =
        (ataErrTimeout, after) := by
    rw [Ports.ataIssue, waits, if_pos failed]
  have read (lba : Nat) :
      ports.ataReadSector (ataInitDevice p m) lba state =
        (ataErrTimeout, [], after) := by
    rw [Ports.ataReadSector, issued, if_pos failed]
  have written (lba : Nat) (buf : Nat → UInt16) :
      ports.ataWriteSector (ataInitDevice p m) lba buf state =
        (ataErrTimeout, after) := by
    rw [Ports.ataWriteSector, issued, if_pos failed]
  refine ⟨after, ?_, polled⟩
  cases request with
  | readSector lba => rw [Request.run, read]
  | writeSector lba buf => rw [Request.run, written]
  | readSectors startLba count =>
      rcases Nat.exists_eq_succ_of_ne_zero moves with ⟨turns, rfl⟩
      rw [Request.run, Ports.ataReadSectors, Ports.readSectorsLoop, read,
        if_pos failed]
  | writeSectors startLba count buf =>
      rcases Nat.exists_eq_succ_of_ne_zero moves with ⟨turns, rfl⟩
      rw [Request.run, Ports.ataWriteSectors, Ports.writeSectorsLoop,
        written, if_pos failed]
  | identify => rw [Request.run, Ports.ataIdentify, waits, if_pos failed]

/--
Once the status of a channel floats, as it may where a missing drive is
selected, no call to either of its drives succeeds again: every call waits for
the status before it selects its drive, so that none is ever selected.
-/
theorem floating_channel_blocked
    (floats : ports.Floats p state)
    (calls : List Call)
    (here : ∀ call ∈ calls, call.primary = p ∧ call.request.Moves) :
    (driver ports).answers state calls =
        List.replicate calls.length (ataErrTimeout, []) ∧
      Relation.ReflTransGen (ports.Polls p) state
        ((driver ports).final state calls) := by
  induction calls generalizing state with
  | nil => exact ⟨rfl, .refl⟩
  | cons call calls induction =>
      rcases here call List.mem_cons_self with ⟨rfl, moves⟩
      rcases Request.run_floats (m := call.master) moves floats with
        ⟨after, ran, polled⟩
      have stepped : (driver ports).step state call =
          ((ataErrTimeout, []), after) := ran
      rcases induction (floats.later polled) fun call member =>
        here call (List.mem_cons_of_mem _ member) with ⟨answers, more⟩
      rw [Machine.answers, Machine.final, stepped, answers]
      exact ⟨rfl, polled.trans more⟩

/-- A bus without drives. -/
def openBus : Ports Unit where
  inb := fun _ state => (0xFF, state)
  inw := fun _ state => (0xFFFF, state)
  outb := fun _ _ state => state
  outw := fun _ _ state => state

theorem floating_channel_blocked_open :
    (driver openBus).answers ()
        [⟨true, true, .identify⟩, ⟨true, false, .readSectors 7 3⟩] =
      [(ataErrTimeout, []), (ataErrTimeout, [])] := by
  refine (floating_channel_blocked (p := true) ?_ _ ?_).1
  · exact fun _ _ => show (0xFF : UInt8) &&& 0x80 ≠ 0 by decide
  · intro call member
    rcases List.mem_pair.mp member with rfl | rfl
    · exact ⟨rfl, trivial⟩
    · exact ⟨rfl, show 3 ≠ 0 by decide⟩

end

end ForsKernel.Ata
