import ForsKernel.Store.AtaDrive

/-!
# The driver in front of the drives

One call at a time, the driver and a channel take turns through the ports.
If the hardware keeps to the protocol, and a drive which is not there is
silent, then every call leads by accesses in turn from one idle channel to
another, and comes to what may come of it on the disks.
-/

namespace ForsKernel.Ata

/-- Between calls a channel is in the middle of no command. -/
structure Channel.Idle (channel : Channel) : Prop where
  phase : channel.phase = .idle
  busy : channel.busy < timeout

/-- A call has been served: the channel is idle again and holds this. -/
structure Drives.Serves
    {σ : Type*}
    (drives : Drives σ)
    (p : Bool)
    (before after : σ)
    (sectors : Sectors) :
    Prop where
  leads : drives.Leads p before after
  idle : (drives.channel after p).Idle
  sectors_eq : (drives.channel after p).sectors = sectors

section

variable
  {σ : Type*}
  {drives : Drives σ}
  {p m : Bool}
  {state : σ}

/-! ## Waiting -/

/-- The channel at a later time. -/
def Channel.wait
    (channel : Channel)
    (busy : Nat) :
    Channel :=
  { channel with busy := busy }

theorem statusPort_mem (p m : Bool) :
    (ataInitDevice p m).basePort + 7 ∈ statusPorts p :=
  List.mem_cons_self

theorem controlPort_mem (p m : Bool) :
    (ataInitDevice p m).ctrlPort ∈ statusPorts p :=
  List.mem_cons_of_mem _ List.mem_cons_self

/-- A read of a status takes a step in time. -/
theorem status_leads
    (documented : drives.Documented)
    (state : σ)
    {port : Nat}
    (is_status : port ∈ statusPorts p) :
    drives.Leads p state (drives.ports.inb port state).2 ∧
      drives.channel (drives.ports.inb port state).2 p =
        (drives.channel state p).wait ((drives.channel state p).busy - 1) :=
  Drives.Leads.single (.status state p port is_status)
    (documented.status_read state p port is_status)

/-- Whether a drive answers depends on the registers only. -/
theorem answers_iff
    {after : σ}
    (same : (drives.channel after p).registers =
      (drives.channel state p).registers) :
    drives.Answers after p ↔ drives.Answers state p := by
  unfold Drives.Answers Channel.selected
  rw [same]

theorem answers_wait
    {after : σ}
    {busy : Nat}
    (waited : drives.channel after p = (drives.channel state p).wait busy) :
    drives.Answers after p ↔ drives.Answers state p := by
  apply answers_iff
  rw [waited]
  rfl

/-- A wait ends when the delay does; nothing waits for a missing drive. -/
theorem waitReadyLoop_drives
    (documented : drives.Documented)
    (silent : drives.Silent)
    (limit : Nat)
    (inTime : (drives.channel state p).busy < limit) :
    ∃ after,
      drives.ports.waitReadyLoop (ataInitDevice p m) limit state =
        (ataOk, after) ∧
      drives.Leads p state after ∧
      ∃ busy ≤ (drives.channel state p).busy,
        drives.channel after p = (drives.channel state p).wait busy ∧
        (drives.Answers state p → busy = 0) := by
  induction limit generalizing state with
  | zero => omega
  | succ limit induction =>
      have is_status := statusPort_mem p m
      rcases status_leads documented state is_status with
        ⟨leads, ticked⟩
      rw [Ports.waitReadyLoop]
      by_cases answers : drives.Answers state p
      · have shows_ := documented.status_shown state p _ is_status answers
        by_cases ready : (drives.channel state p).busy = 0
        · rw [if_pos (shows_.busy.mpr ready)]
          exact ⟨_, rfl, leads, _, Nat.sub_le _ _, ticked, fun _ => by omega⟩
        · rw [if_neg fun clear => ready (shows_.busy.mp clear)]
          have inTime' : (drives.channel (drives.ports.inb
              ((ataInitDevice p m).basePort + 7) state).2 p).busy < limit := by
            rw [ticked]
            show (drives.channel state p).busy - 1 < limit
            omega
          rcases induction inTime' with
            ⟨after, waited, leads', busy, small, later, done⟩
          rw [ticked] at small later
          refine ⟨after, waited, leads.trans leads', busy, ?_, later, ?_⟩
          · exact Nat.le_trans small (Nat.sub_le _ _)
          · exact fun _ => done ((answers_wait ticked).mpr answers)
      · have zero := silent.status_zero state p _ is_status answers
        rw [zero, if_pos (by decide)]
        exact ⟨_, rfl, leads, _, Nat.sub_le _ _, ticked,
          fun present => (answers present).elim⟩

theorem delay_drives
    (documented : drives.Documented)
    (reads : Nat)
    (state : σ) :
    drives.Leads p state
        (drives.ports.delay (ataInitDevice p m) reads state) ∧
      ∃ busy ≤ (drives.channel state p).busy,
        drives.channel (drives.ports.delay (ataInitDevice p m) reads state)
          p = (drives.channel state p).wait busy := by
  induction reads generalizing state with
  | zero => exact ⟨.refl drives p state, _, Nat.le_refl _, rfl⟩
  | succ reads induction =>
      rcases status_leads documented state
        (controlPort_mem p m) with ⟨leads, ticked⟩
      rcases induction (drives.ports.inb (ataInitDevice p m).ctrlPort
        state).2 with ⟨leads', busy, small, later⟩
      rw [ticked] at small later
      exact ⟨leads.trans leads', busy,
        Nat.le_trans small (Nat.sub_le _ _), later⟩

/-- Without data to come, and without an error, the wait for data runs out. -/
theorem waitDrqLoop_never
    (documented : drives.Documented)
    (silent : drives.Silent)
    (limit : Nat)
    (never : drives.Answers state p →
      (drives.channel state p).phase = .idle ∧
        (drives.channel state p).error = false) :
    ∃ after,
      drives.ports.waitDrqLoop (ataInitDevice p m) limit state =
        (ataErrTimeout, after) ∧
      drives.Leads p state after ∧
      ∃ busy ≤ (drives.channel state p).busy,
        drives.channel after p = (drives.channel state p).wait busy := by
  induction limit generalizing state with
  | zero => exact ⟨state, rfl, .refl drives p state, _, Nat.le_refl _, rfl⟩
  | succ limit induction =>
      have is_status := statusPort_mem p m
      rcases status_leads documented state is_status with
        ⟨leads, ticked⟩
      have bits : (drives.ports.inb ((ataInitDevice p m).basePort + 7)
            state).1 &&& ataStatusDrq = 0 ∧
          (drives.ports.inb ((ataInitDevice p m).basePort + 7)
            state).1 &&& ataStatusErr = 0 := by
        by_cases answers : drives.Answers state p
        · have shows_ := documented.status_shown state p _ is_status answers
          rcases never answers with ⟨idle, fine⟩
          constructor
          · by_contra request
            exact (shows_.request.mp request).2 idle
          · by_contra error
            have ready := shows_.error_ready error
            have shown := (shows_.error ready idle).mp error
            rw [fine] at shown
            cases shown
        · rw [silent.status_zero state p _ is_status answers]
          exact ⟨by decide, by decide⟩
      have never' : drives.Answers (drives.ports.inb
            ((ataInitDevice p m).basePort + 7) state).2 p →
          (drives.channel (drives.ports.inb
            ((ataInitDevice p m).basePort + 7) state).2 p).phase = .idle ∧
          (drives.channel (drives.ports.inb
            ((ataInitDevice p m).basePort + 7) state).2 p).error = false := by
        intro answers
        rw [ticked]
        exact never ((answers_wait ticked).mp answers)
      rcases induction never' with ⟨after, waited, leads', busy, small, later⟩
      rw [ticked] at small later
      rw [Ports.waitDrqLoop, if_neg (not_not.mpr bits.1),
        if_neg (not_not.mpr bits.2)]
      exact ⟨after, waited, leads.trans leads', busy,
        Nat.le_trans small (Nat.sub_le _ _), later⟩

/-- Otherwise it ends as soon as the drive is no longer busy. -/
theorem waitDrqLoop_ends
    (documented : drives.Documented)
    (limit : Nat)
    (inTime : (drives.channel state p).busy < limit)
    (answers : drives.Answers state p)
    (ends : (drives.channel state p).phase = .idle →
      (drives.channel state p).error = true) :
    ∃ after,
      drives.ports.waitDrqLoop (ataInitDevice p m) limit state =
        (if (drives.channel state p).phase = .idle then ataErrDriveError
          else ataOk, after) ∧
      drives.Leads p state after ∧
      drives.channel after p = (drives.channel state p).wait 0 := by
  induction limit generalizing state with
  | zero => omega
  | succ limit induction =>
      have is_status := statusPort_mem p m
      rcases status_leads documented state is_status with
        ⟨leads, ticked⟩
      have shows_ := documented.status_shown state p _ is_status answers
      rw [Ports.waitDrqLoop]
      by_cases ready : (drives.channel state p).busy = 0
      · rw [ready] at ticked
        by_cases idle : (drives.channel state p).phase = .idle
        · have noRequest : ¬ (drives.ports.inb
              ((ataInitDevice p m).basePort + 7) state).1 &&&
                ataStatusDrq ≠ 0 :=
            fun request => (shows_.request.mp request).2 idle
          rw [if_neg noRequest,
            if_pos ((shows_.error ready idle).mpr (ends idle)), if_pos idle]
          exact ⟨_, rfl, leads, ticked⟩
        · rw [if_pos (shows_.request.mpr ⟨ready, idle⟩), if_neg idle]
          exact ⟨_, rfl, leads, ticked⟩
      · rw [if_neg fun request => ready (shows_.request.mp request).1,
          if_neg fun error => ready (shows_.error_ready error)]
        have answers' := (answers_wait ticked).mpr answers
        have inTime' : (drives.channel (drives.ports.inb
            ((ataInitDevice p m).basePort + 7) state).2 p).busy < limit := by
          rw [ticked]
          show (drives.channel state p).busy - 1 < limit
          omega
        have ends' : (drives.channel (drives.ports.inb
              ((ataInitDevice p m).basePort + 7) state).2 p).phase = .idle →
            (drives.channel (drives.ports.inb
              ((ataInitDevice p m).basePort + 7) state).2 p).error =
                true := by
          rw [ticked]
          exact ends
        rcases induction inTime' answers' ends' with
          ⟨after, waited, leads', later⟩
        rw [ticked] at waited later
        exact ⟨after, waited, leads.trans leads', later⟩

/-- How the wait for the data of a command ends, by what the drive does. -/
theorem ataWaitDrq_drives
    (documented : drives.Documented)
    (silent : drives.Silent)
    (inTime : (drives.channel state p).busy < timeout) :
    ∃ ret after,
      drives.ports.ataWaitDrq (ataInitDevice p m) state = (ret, after) ∧
      drives.Leads p state after ∧
      ∃ busy ≤ (drives.channel state p).busy,
        drives.channel after p = (drives.channel state p).wait busy ∧
        ((¬ drives.Answers state p ∧ ret = ataErrTimeout) ∨
          (drives.Answers state p ∧
            (drives.channel state p).phase = .idle ∧
            ret = refusal (drives.channel state p).error) ∨
          (drives.Answers state p ∧
            (drives.channel state p).phase ≠ .idle ∧
            ret = ataOk ∧ busy = 0)) := by
  by_cases answers : drives.Answers state p
  · by_cases never : (drives.channel state p).phase = .idle ∧
        (drives.channel state p).error = false
    · rcases waitDrqLoop_never (m := m) documented silent timeout
        (fun _ => never) with ⟨after, waited, leads, busy, small, later⟩
      refine ⟨_, after, waited, leads, busy, small, later, .inr (.inl ?_)⟩
      rw [never.2]
      exact ⟨answers, never.1, rfl⟩
    · have ends : (drives.channel state p).phase = .idle →
          (drives.channel state p).error = true := by
        intro idle
        rw [← Bool.not_eq_false]
        exact fun fine => never ⟨idle, fine⟩
      rcases waitDrqLoop_ends (m := m) documented timeout inTime answers ends
        with ⟨after, waited, leads, later⟩
      refine ⟨_, after, waited, leads, 0, Nat.zero_le _, later, .inr ?_⟩
      by_cases idle : (drives.channel state p).phase = .idle
      · rw [if_pos idle, ends idle]
        exact .inl ⟨answers, idle, rfl⟩
      · rw [if_neg idle]
        exact .inr ⟨answers, idle, rfl, rfl⟩
  · rcases waitDrqLoop_never (m := m) documented silent timeout
      (fun present => (answers present).elim) with
      ⟨after, waited, leads, busy, small, later⟩
    exact ⟨_, after, waited, leads, busy, small, later,
      .inl ⟨answers, rfl⟩⟩

/-! ## Selecting the drive and its sector -/

/-- The drive register, once it has been written. -/
theorem driveSelect_bits
    (dev : AtaDevice)
    (lba : Nat) :
    (driveSelect dev lba &&& 0x10 = 0 ↔ dev.drive = 0) ∧
      driveSelect dev lba &&& ataDriveLba ≠ 0 := by
  have nibbles : ∀ nibble < 16,
      (ataDriveMaster ||| ataDriveLba ||| UInt8.ofNat nibble) &&& 0x10 = 0 ∧
        (ataDriveSlave ||| ataDriveLba ||| UInt8.ofNat nibble) &&& 0x10 ≠ 0 ∧
        (ataDriveMaster ||| ataDriveLba ||| UInt8.ofNat nibble) &&&
          ataDriveLba ≠ 0 ∧
        (ataDriveSlave ||| ataDriveLba ||| UInt8.ofNat nibble) &&&
          ataDriveLba ≠ 0 := by decide +kernel
  have small : (lba >>> 24) &&& 0x0F < 16 :=
    Nat.lt_succ_of_le Nat.and_le_right
  rcases nibbles _ small with ⟨first, second, lba1, lba2⟩
  rw [driveSelect]
  split
  · rename_i master
    exact ⟨⟨fun _ => master, fun _ => first⟩, lba1⟩
  · rename_i slave
    exact ⟨⟨fun zero => (second zero).elim, fun zero => (slave zero).elim⟩,
      lba2⟩

/-- The drive which the drive register selects is the one of the device. -/
theorem selected_eq
    {channel : Channel}
    (lba : Nat)
    (written : channel.registers 6 = driveSelect (ataInitDevice p m) lba) :
    channel.selected = driveOf m := by
  rcases driveSelect_bits (ataInitDevice p m) lba with ⟨isDrive, _⟩
  unfold Channel.selected
  rw [written]
  cases m with
  | true => exact if_pos (isDrive.mpr rfl)
  | false =>
      have other : (ataInitDevice p false).drive ≠ 0 := Nat.one_ne_zero
      exact if_neg fun zero => other (isDrive.mp zero)

/-- After the reads of the alternate status the drive has still to settle. -/
theorem ataSelectDrive_drives
    (documented : drives.Documented)
    (silent : drives.Silent)
    (rests : drives.Rests state p)
    (lba : Nat) :
    ∃ after,
      drives.ports.ataSelectDrive (ataInitDevice p m) lba state =
        (ataOk, after) ∧
      drives.Leads p state after ∧
      drives.Rests after p ∧
      (drives.channel after p).busy < timeout ∧
      (drives.channel after p).sectors = (drives.channel state p).sectors ∧
      (drives.channel after p).registers =
        Function.update (drives.channel state p).registers 6
          (driveSelect (ataInitDevice p m) lba) := by
  let value := driveSelect (ataInitDevice p m) lba
  let chosen := drives.ports.outb (dataPort p + 6) value state
  rcases documented.drive_selected state p value rests with
    ⟨error, busy, inTime, changed⟩
  rcases Drives.Leads.single (.register state p 6 value (by decide)
    (by decide) rests) changed with ⟨leads, selected⟩
  rcases delay_drives (m := m) documented 4 chosen with
    ⟨leads', busy', small, delayed⟩
  rw [selected] at small delayed
  have inTime' : (drives.channel
      (drives.ports.delay (ataInitDevice p m) 4 chosen) p).busy <
        timeout := by
    rw [delayed]
    exact Nat.lt_of_le_of_lt small inTime
  rcases waitReadyLoop_drives (m := m) documented silent timeout inTime' with
    ⟨after, waited, leads'', busy'', small', later, ready⟩
  have shorter : busy'' < timeout := Nat.lt_of_le_of_lt small' inTime'
  have answers := answers_wait later
  rw [delayed] at later
  refine ⟨after, waited, leads.trans (leads'.trans leads''), ⟨?_, ?_⟩,
    ?_, ?_, ?_⟩
  · rw [later]
    exact rests.phase
  · intro present
    have done := ready (answers.mp present)
    rw [later]
    exact done
  · rw [later]
    exact shorter
  · rw [later]
    rfl
  · rw [later]
    rfl

/-- A register other than that of the drive is written. -/
theorem register_leads
    (documented : drives.Documented)
    (rests : drives.Rests state p)
    (offset : Nat)
    (first : 1 ≤ offset)
    (last : offset ≤ 5)
    (value : UInt8) :
    drives.Leads p state
        (drives.ports.outb ((ataInitDevice p m).basePort + offset) value
          state) ∧
      drives.channel (drives.ports.outb
          ((ataInitDevice p m).basePort + offset) value state) p =
        (drives.channel state p).setRegister offset value ∧
      drives.Rests (drives.ports.outb
        ((ataInitDevice p m).basePort + offset) value state) p := by
  rcases Drives.Leads.single
    (.register state p offset value first (Nat.le_trans last (by decide))
      rests)
    (documented.register_written state p offset value first last rests) with
    ⟨leads, written⟩
  have selected : ((drives.channel state p).setRegister offset
      value).selected = (drives.channel state p).selected := by
    have kept : ((drives.channel state p).setRegister offset
        value).registers 6 = (drives.channel state p).registers 6 :=
      Function.update_of_ne (by omega) _ _
    unfold Channel.selected
    rw [kept]
  refine ⟨leads, written, ?_, ?_⟩
  · show (drives.channel (drives.ports.outb (dataPort p + offset) value
      state) p).phase = .idle
    rw [written]
    exact rests.phase
  · show drives.Answers (drives.ports.outb (dataPort p + offset) value
        state) p →
      (drives.channel (drives.ports.outb (dataPort p + offset) value
        state) p).busy = 0
    unfold Drives.Answers
    rw [written, selected]
    exact rests.busy

/-- The registers which are written between the selection and a command. -/
def Channel.setUp
    (channel : Channel)
    (lba : Nat) :
    Channel :=
  channel
    |>.setRegister 1 0x00
    |>.setRegister 2 1
    |>.setRegister 3 (UInt8.ofNat (lba &&& 0xFF))
    |>.setRegister 4 (UInt8.ofNat ((lba >>> 8) &&& 0xFF))
    |>.setRegister 5 (UInt8.ofNat ((lba >>> 16) &&& 0xFF))

theorem setUpCommand_drives
    (documented : drives.Documented)
    (rests : drives.Rests state p)
    (lba : Nat) :
    drives.Leads p state
        (drives.ports.setUpCommand (ataInitDevice p m) lba state) ∧
      drives.channel (drives.ports.setUpCommand (ataInitDevice p m) lba
        state) p = (drives.channel state p).setUp lba ∧
      drives.Rests (drives.ports.setUpCommand (ataInitDevice p m) lba
        state) p := by
  rcases register_leads (m := m) documented rests 1
    (by decide) (by decide) 0x00 with ⟨leads₁, written₁, rests₁⟩
  rcases register_leads (m := m) documented rests₁ 2
    (by decide) (by decide) 1 with ⟨leads₂, written₂, rests₂⟩
  rcases register_leads (m := m) documented rests₂ 3
    (by decide) (by decide) (UInt8.ofNat (lba &&& 0xFF)) with
    ⟨leads₃, written₃, rests₃⟩
  rcases register_leads (m := m) documented rests₃ 4
    (by decide) (by decide) (UInt8.ofNat ((lba >>> 8) &&& 0xFF)) with
    ⟨leads₄, written₄, rests₄⟩
  rcases register_leads (m := m) documented rests₄ 5
    (by decide) (by decide) (UInt8.ofNat ((lba >>> 16) &&& 0xFF)) with
    ⟨leads₅, written₅, rests₅⟩
  refine ⟨leads₁.trans (leads₂.trans (leads₃.trans (leads₄.trans leads₅))),
    ?_, rests₅⟩
  rw [written₄, written₃, written₂, written₁] at written₅
  exact written₅

/-- A call begins when the drive is done with the one before it. -/
theorem ataWaitReady_drives
    (documented : drives.Documented)
    (silent : drives.Silent)
    (idle : (drives.channel state p).Idle) :
    ∃ after,
      drives.ports.ataWaitReady (ataInitDevice p m) state =
        (ataOk, after) ∧
      drives.Leads p state after ∧
      drives.Rests after p ∧
      (drives.channel after p).sectors =
        (drives.channel state p).sectors := by
  rcases waitReadyLoop_drives (m := m) documented silent timeout idle.busy
    with ⟨after, waited, leads, busy, _, later, done⟩
  refine ⟨after, waited, leads, ⟨?_, ?_⟩, ?_⟩
  · rw [later]
    exact idle.phase
  · intro answers
    rw [later]
    exact done ((answers_wait later).mp answers)
  · rw [later]
    rfl

/-- Ready for a command to a sector of a drive. -/
structure Drives.Ready
    (drives : Drives σ)
    (p : Bool)
    (drive lba : Nat)
    (before after : σ) :
    Prop where
  leads : drives.Leads p before after
  rests : drives.Rests after p
  inTime : (drives.channel after p).busy < timeout
  sectors_eq :
    (drives.channel after p).sectors = (drives.channel before p).sectors
  selected : (drives.channel after p).selected = drive
  address : (drives.channel after p).address = lba % 2 ^ 28
  oneSector : (drives.channel after p).OneSector

/-- A call begins with a command to the sector which it was asked for. -/
theorem ataIssue_drives
    (documented : drives.Documented)
    (silent : drives.Silent)
    (idle : (drives.channel state p).Idle)
    (lba : Nat)
    (command : UInt8) :
    ∃ ready,
      drives.Ready p (driveOf m) lba state ready ∧
      drives.ports.ataIssue (ataInitDevice p m) lba command state =
        (ataOk, drives.ports.outb (dataPort p + 7) command ready) := by
  rcases ataWaitReady_drives (m := m) documented silent idle with
    ⟨before, waited, leads, rests, same⟩
  rcases ataSelectDrive_drives (m := m) documented silent rests lba with
    ⟨chosen, selected, leads', rests', inTime, sectors, registers⟩
  rcases setUpCommand_drives (m := m) documented rests' lba with
    ⟨leads'', written, rests''⟩
  have issued : drives.ports.ataIssue (ataInitDevice p m) lba command state =
      (ataOk, drives.ports.outb (dataPort p + 7) command
        (drives.ports.setUpCommand (ataInitDevice p m) lba chosen)) := by
    rw [Ports.ataIssue, waited, if_neg (not_not.mpr rfl), selected,
      if_neg (not_not.mpr rfl)]
    rfl
  have drive : ((drives.channel chosen p).setUp lba).registers 6 =
      driveSelect (ataInitDevice p m) lba := by
    unfold Channel.setUp Channel.setRegister
    rw [registers]
    rfl
  refine ⟨_, ⟨leads.trans (leads'.trans leads''), rests'', ?_, ?_, ?_, ?_,
    ?_⟩, issued⟩
  · rw [written]
    exact inTime
  · rw [written]
    exact sectors.trans same
  · rw [written]
    exact selected_eq _ drive
  · rw [written, ← address_parts, ← driveSelect_nibble (ataInitDevice p m),
      ← toNat_addressByte, ← toNat_addressByte, ← toNat_addressByte]
    unfold Channel.address
    rw [drive]
    rfl
  · rw [written]
    refine ⟨rfl, ?_⟩
    rw [drive]
    exact (driveSelect_bits (ataInitDevice p m) lba).2

/-! ## A command -/

/-- The state after a command. -/
def Drives.given
    (drives : Drives σ)
    (p : Bool)
    (command : UInt8)
    (state : σ) :
    σ :=
  drives.ports.outb (dataPort p + 7) command state

theorem Drives.given_leads
    (documented : drives.Documented)
    (silent : drives.Silent)
    (rests : drives.Rests state p)
    (command : UInt8) :
    drives.Leads p state (drives.given p command state) ∧
      (drives.Answers (drives.given p command state) p ↔
        drives.Answers state p) := by
  have access : drives.InTurn state (drives.given p command state) :=
    .register state p 7 command (by decide) (by decide) rests
  by_cases answers : drives.Answers state p
  · rcases documented.command_given state p command rests answers with
      ⟨phase, error, busy, _, _, changed⟩
    rcases Drives.Leads.single access changed with ⟨leads, entered⟩
    refine ⟨leads, answers_iff ?_⟩
    rw [entered]
    rfl
  · have lost : drives.channel (drives.given p command state) =
        drives.channel state := silent.command_lost state p command rests
      answers
    refine ⟨⟨.single access, fun q _ => congrFun lost q⟩, answers_iff ?_⟩
    rw [lost]

/-- How a drive takes a command, by the time the wait for its data is over. -/
inductive Drives.Outcome
    (drives : Drives σ)
    (p : Bool)
    (command : UInt8)
    (state : σ) :
    Int → σ → Prop where
  | missing {after : σ} :
      ¬ drives.Answers state p →
      drives.Serves p state after (drives.channel state p).sectors →
      Outcome drives p command state ataErrTimeout after
  | refused
      {after : σ}
      (shown : Bool) :
      drives.Answers state p →
      (drives.channel (drives.given p command state) p).phase = .idle →
      drives.Serves p state after (drives.channel state p).sectors →
      Outcome drives p command state (refusal shown) after
  | data
      {after : σ}
      {phase : Phase}
      (error : Bool) :
      drives.Answers state p →
      drives.Follows p (drives.channel state p) command phase →
      phase ≠ .idle →
      (drives.channel (drives.given p command state) p).phase = phase →
      drives.Leads p state after →
      drives.channel after p =
        (drives.channel state p).enter phase error 0 →
      Outcome drives p command state ataOk after

/-- The wait for the data of a command, some time after it. -/
theorem ataWaitDrq_outcome
    (documented : drives.Documented)
    (silent : drives.Silent)
    (rests : drives.Rests state p)
    (inTime : (drives.channel state p).busy < timeout)
    (command : UInt8)
    {later : σ}
    (leads : drives.Leads p (drives.given p command state) later)
    {passed : Nat}
    (small : passed ≤ (drives.channel (drives.given p command state) p).busy)
    (waited : drives.channel later p =
      (drives.channel (drives.given p command state) p).wait passed) :
    ∃ ret after,
      drives.ports.ataWaitDrq (ataInitDevice p m) later = (ret, after) ∧
      drives.Outcome p command state ret after := by
  rcases drives.given_leads documented silent rests command with
    ⟨begun, answers_given⟩
  have answers_later := (answers_wait waited).trans answers_given
  by_cases answers : drives.Answers state p
  · rcases documented.command_given state p command rests answers with
      ⟨phase, error, busy, inTime', follows, changed⟩
    have entered : drives.channel (drives.given p command state) p =
        (drives.channel state p).enter phase error busy := by
      show drives.channel (drives.ports.outb _ _ _) p = _
      rw [changed, Function.update_self]
    rw [entered] at small waited
    have inTime'' : (drives.channel later p).busy < timeout := by
      rw [waited]
      exact Nat.lt_of_le_of_lt small inTime'
    rcases ataWaitDrq_drives (m := m) documented silent inTime'' with
      ⟨ret, after, ran, leads', busy', small', at_, ends⟩
    rw [waited] at small' at_ ends
    refine ⟨ret, after, ran, ?_⟩
    rcases ends with ⟨absent, rfl⟩ | ⟨_, idle, rfl⟩ | ⟨_, working, rfl, rfl⟩
    · exact (absent (answers_later.mpr answers)).elim
    · refine .refused _ answers (by rw [entered]; exact idle)
        ⟨begun.trans (leads.trans leads'), ?_, ?_⟩
      · rw [at_]
        exact ⟨idle, Nat.lt_of_le_of_lt (Nat.le_trans small' small) inTime'⟩
      · rw [at_]
        rfl
    · exact .data error answers follows working (by rw [entered]; rfl)
        (begun.trans (leads.trans leads')) at_
  · have lost : drives.channel (drives.given p command state) =
        drives.channel state :=
      silent.command_lost state p command rests answers
    rw [lost] at small waited
    have inTime' : (drives.channel later p).busy < timeout := by
      rw [waited]
      exact Nat.lt_of_le_of_lt small inTime
    rcases ataWaitDrq_drives (m := m) documented silent inTime' with
      ⟨ret, after, ran, leads', busy', small', at_, ends⟩
    rw [waited] at small' at_
    refine ⟨ret, after, ran, ?_⟩
    rcases ends with ⟨_, rfl⟩ | ⟨present, _⟩ | ⟨present, _⟩
    · refine .missing answers ⟨begun.trans (leads.trans leads'), ?_, ?_⟩
      · rw [at_]
        exact ⟨rests.phase,
          Nat.lt_of_le_of_lt (Nat.le_trans small' small) inTime⟩
      · rw [at_]
        rfl
    · exact (answers (answers_later.mp present)).elim
    · exact (answers (answers_later.mp present)).elim

/-! ## Moving the data -/

/-- The drive sends its words one by one, and then it is done. -/
theorem readWords_drives
    (documented : drives.Documented)
    (words : List UInt16)
    (some : words ≠ [])
    {channel : Channel}
    {error : Bool}
    (answers : drives.Answers state p)
    (entered : drives.channel state p =
      channel.enter (.sending words) error 0) :
    ∃ after,
      drives.ports.readWords (ataInitDevice p m) words.length state =
        (words, after) ∧
      drives.Leads p state after ∧
      ∃ error busy, busy < timeout ∧
        drives.channel after p = channel.enter .idle error busy := by
  induction words generalizing state error with
  | nil => exact (some rfl).elim
  | cons word rest induction =>
      have ready : (drives.channel state p).busy = 0 := by
        rw [entered]
        rfl
      have sending : (drives.channel state p).phase =
          .sending (word :: rest) := by
        rw [entered]
        rfl
      rcases documented.word_sent state p word rest answers ready sending
        with ⟨sent, error', busy, inTime, next, changed⟩
      rcases Drives.Leads.single (.receive state p word rest answers ready
        sending) changed with ⟨leads, received⟩
      have sent' : (drives.ports.inw (ataInitDevice p m).basePort
          state).1 = word := sent
      rw [entered] at received
      rw [List.length_cons, Ports.readWords, sent']
      cases rest with
      | nil =>
          exact ⟨_, rfl, leads, error', busy, inTime, received⟩
      | cons next' rest =>
          rw [next (List.cons_ne_nil next' rest),
            if_neg (List.cons_ne_nil next' rest)] at received
          have answers' : drives.Answers
              (drives.ports.inw (dataPort p) state).2 p := by
            refine (answers_iff ?_).mpr answers
            rw [received, entered]
            rfl
          rcases induction (List.cons_ne_nil next' rest) answers' received
            with ⟨after, others, leads', done⟩
          refine ⟨after, ?_, leads.trans leads', done⟩
          have others' : drives.ports.readWords (ataInitDevice p m)
              (next' :: rest).length
              (drives.ports.inw (ataInitDevice p m).basePort state).2 =
                (next' :: rest, after) := others
          simp only [others']

/-- The last word of a sector has come, and the drive stores what it will. -/
structure Drives.Stored
    (drives : Drives σ)
    (p : Bool)
    (channel after : Channel)
    (sector left : Sector)
    (error : Bool) :
    Prop where
  after_eq : ∃ busy < timeout,
    after = (channel.leave left).enter .idle error busy
  honest : drives.Honest p channel.selected →
    left = if error then channel.sectors channel.selected channel.address
      else sector
  sound : drives.Sound p channel.selected → error = false

theorem lastWord_drives
    (documented : drives.Documented)
    {channel : Channel}
    {error : Bool}
    {words : List UInt16}
    {word : UInt16}
    (size : (words ++ [word]).length = 256)
    (answers : drives.Answers state p)
    (entered : drives.channel state p =
      channel.enter (.receiving words) error 0) :
    drives.Leads p state (drives.ports.outw (dataPort p) word state) ∧
      ∃ left error,
        drives.Stored p channel
          (drives.channel (drives.ports.outw (dataPort p) word state) p)
          ⟨words ++ [word], size⟩ left error := by
  have length : words.length + 1 = 256 := by
    rw [List.length_append] at size
    exact size
  have ready : (drives.channel state p).busy = 0 := by
    rw [entered]
    rfl
  have receiving : (drives.channel state p).phase = .receiving words := by
    rw [entered]
    rfl
  rcases documented.last_taken state p word words answers ready receiving
    length with ⟨left, error', busy, inTime, changed⟩
  rcases Drives.Leads.single (.send state p word words answers ready
    receiving (by omega)) changed with ⟨leads, taken⟩
  rw [entered] at taken
  have left_eq : (drives.channel (drives.ports.outw (dataPort p) word state)
      p).sectors channel.selected channel.address = left := by
    rw [taken]
    show channel.sectors.store channel.selected channel.address left _ _ =
      left
    rw [Sectors.store, Function.update_self, Function.update_self]
  have error_eq : (drives.channel (drives.ports.outw (dataPort p) word
      state) p).error = error' := by
    rw [taken]
    rfl
  have selected : (drives.channel state p).selected = channel.selected := by
    rw [entered]
    rfl
  refine ⟨leads, left, error', ⟨busy, inTime, taken⟩, ?_, ?_⟩
  · intro honest
    have kept := honest.stores state word words ⟨words ++ [word], size⟩
      selected ready receiving rfl
    have address : (drives.channel state p).address = channel.address := by
      rw [entered]
      rfl
    have sectors : (drives.channel state p).sectors = channel.sectors := by
      rw [entered]
      rfl
    rw [error_eq, address, left_eq, sectors] at kept
    exact kept
  · intro sound
    have fine := sound.succeeds state word words selected ready receiving
      length
    rw [error_eq] at fine
    exact fine

/-- The drive takes the words one by one, and with the last the sector. -/
theorem writeWords_drives
    (documented : drives.Documented)
    (words before : List UInt16)
    (some : words ≠ [])
    (size : (before ++ words).length = 256)
    {channel : Channel}
    {error : Bool}
    (answers : drives.Answers state p)
    (entered : drives.channel state p =
      channel.enter (.receiving before) error 0) :
    drives.Leads p state
        (drives.ports.writeWords (ataInitDevice p m) words state) ∧
      ∃ left error,
        drives.Stored p channel
          (drives.channel (drives.ports.writeWords (ataInitDevice p m) words
            state) p)
          ⟨before ++ words, size⟩ left error := by
  induction words generalizing state before error with
  | nil => exact (some rfl).elim
  | cons word rest induction =>
      cases rest with
      | nil => exact lastWord_drives documented size answers entered
      | cons next rest =>
          have joined : before ++ [word] ++ next :: rest =
              before ++ word :: next :: rest :=
            (List.append_cons before word (next :: rest)).symm
          have more : before.length + 1 < 256 := by
            rw [← size]
            simp
          have ready : (drives.channel state p).busy = 0 := by
            rw [entered]
            rfl
          have receiving : (drives.channel state p).phase =
              .receiving before := by
            rw [entered]
            rfl
          rcases documented.word_taken state p word before answers ready
            receiving more with ⟨error', changed⟩
          rcases Drives.Leads.single (.send state p word before answers
            ready receiving (by omega)) changed with ⟨leads, taken⟩
          rw [entered] at taken
          have answers' : drives.Answers
              (drives.ports.outw (dataPort p) word state) p := by
            refine (answers_iff ?_).mpr answers
            rw [taken, entered]
            rfl
          rcases induction (before ++ [word]) (List.cons_ne_nil next rest)
            (by rw [joined]; exact size) answers' taken with
            ⟨leads', left, error'', stored⟩
          simp only [joined] at stored
          exact ⟨leads.trans leads', left, error'', stored⟩

/-! ## The calls -/

theorem Sector.words_ne_nil (sector : Sector) : sector.words ≠ [] := by
  intro none
  have size := sector.size
  rw [none] at size
  exact absurd size (by decide)

/-- A drive which answers is there. -/
theorem Drives.Ready.present
    {before ready : σ}
    {drive lba : Nat}
    (chosen : drives.Ready p drive lba before ready)
    (answers : drives.Answers ready p) :
    drives.disks.present p drive = true := by
  rw [← chosen.selected]
  exact answers

theorem Drives.Ready.missing
    {before ready : σ}
    {drive lba : Nat}
    (chosen : drives.Ready p drive lba before ready)
    (absent : ¬ drives.Answers ready p) :
    drives.disks.present p drive = false := by
  rw [← chosen.selected]
  exact eq_false_of_ne_true absent

/-- What leads to a state with the same sectors comes to the same. -/
theorem Drives.Serves.behind
    {before middle after : σ}
    (served : drives.Serves p middle after (drives.channel middle p).sectors)
    (leads : drives.Leads p before middle)
    (same : (drives.channel middle p).sectors =
      (drives.channel before p).sectors) :
    drives.Serves p before after (drives.channel before p).sectors := by
  refine ⟨leads.trans served.leads, served.idle, ?_⟩
  rw [served.sectors_eq, same]

theorem Drives.Ready.serves
    {before ready after : σ}
    {drive lba : Nat}
    (chosen : drives.Ready p drive lba before ready)
    (served : drives.Serves p ready after (drives.channel ready p).sectors) :
    drives.Serves p before after (drives.channel before p).sectors :=
  served.behind chosen.leads chosen.sectors_eq

/-- A drive which is in the middle of a command still answers. -/
theorem Drives.Answers.enter
    {after : σ}
    {phase : Phase}
    {error : Bool}
    {busy : Nat}
    (answers : drives.Answers state p)
    (entered : drives.channel after p =
      (drives.channel state p).enter phase error busy) :
    drives.Answers after p := by
  refine (answers_iff ?_).mpr answers
  rw [entered]
  rfl

/-- A drive which has data sends all of it, and the command is over. -/
theorem readWords_serves
    (documented : drives.Documented)
    (answers : drives.Answers state p)
    (sector : Sector)
    {after : σ}
    {error : Bool}
    (leads : drives.Leads p state after)
    (entered : drives.channel after p =
      (drives.channel state p).enter (.sending sector.words) error 0) :
    ∃ done,
      drives.ports.readWords (ataInitDevice p m) 256 after =
        (sector.words, done) ∧
      drives.Serves p state done (drives.channel state p).sectors := by
  rcases readWords_drives (m := m) documented sector.words
    sector.words_ne_nil (answers.enter entered) entered with
    ⟨done, sent, leads', error', busy, inTime, ended⟩
  rw [sector.size] at sent
  refine ⟨done, sent, leads.trans leads', ?_, ?_⟩
  · rw [ended]
    exact ⟨rfl, inTime⟩
  · rw [ended]
    rfl

/-- The sector which is addressed is read. -/
theorem ataReadSector_drives
    (documented : drives.Documented)
    (silent : drives.Silent)
    (idle : (drives.channel state p).Idle)
    (lba : Nat) :
    ∃ ret words after,
      drives.ports.ataReadSector (ataInitDevice p m) lba state =
        (ret, words, after) ∧
      drives.Serves p state after (drives.channel state p).sectors ∧
      drives.disks.Reads p (driveOf m) (lba % 2 ^ 28)
        (drives.channel state p).sectors ret words := by
  rcases ataIssue_drives (m := m) documented silent idle lba
    ataCmdReadSectors with ⟨ready, chosen, issued⟩
  rcases ataWaitDrq_outcome (m := m) documented silent chosen.rests
    chosen.inTime ataCmdReadSectors (.refl drives p _)
    (Nat.le_refl _) rfl with ⟨ret, after, waited, outcome⟩
  have waited' : drives.ports.ataWaitDrq (ataInitDevice p m)
      (drives.ports.outb (dataPort p + 7) ataCmdReadSectors ready) =
        (ret, after) := waited
  rw [Ports.ataReadSector, issued, if_neg (not_not.mpr rfl), waited']
  cases outcome with
  | missing absent served =>
      exact ⟨_, _, _, rfl, chosen.serves served,
        .missing (chosen.missing absent)⟩
  | refused shown answers at_ served =>
      have unsound : ¬ drives.disks.sound p (driveOf m) := fun sound =>
        sound.accepts ready ataCmdReadSectors chosen.rests chosen.selected
          (.inl chosen.oneSector) List.mem_cons_self at_
      rw [if_pos (refusal_ne shown)]
      exact ⟨_, _, _, rfl, chosen.serves served,
        .refused shown (chosen.present answers) unsound⟩
  | data error answers follows working at_ leads entered =>
      rw [if_neg (not_not.mpr rfl)]
      cases follows with
      | refused => exact (working rfl).elim
      | writes other => exact absurd other (by decide)
      | identifies other => exact absurd other (by decide)
      | reads sector _ _ =>
          rcases readWords_serves (m := m) documented answers sector leads
            entered with ⟨done, sent, served⟩
          rw [sent]
          refine ⟨_, _, _, rfl, chosen.serves served,
            .sent sector (chosen.present answers) fun honest => ?_⟩
          have right := honest.sends ready sector.words chosen.rests
            chosen.selected at_
          rw [chosen.sectors_eq, chosen.address] at right
          exact Sector.ext_words right

/-- The last status of a write tells of its error, if the drive shows it. -/
theorem writeEnds_drives
    (documented : drives.Documented)
    (silent : drives.Silent)
    (answers : drives.Answers state p)
    (idle : (drives.channel state p).Idle) :
    ∃ ready,
      drives.ports.ataWaitReady (ataInitDevice p m) state =
        (ataOk, ready) ∧
      ((drives.ports.inb ((ataInitDevice p m).basePort + 7) ready).1 &&&
          ataStatusErr ≠ 0 ↔ (drives.channel state p).error = true) ∧
      drives.Serves p state
        (drives.ports.inb ((ataInitDevice p m).basePort + 7) ready).2
        (drives.channel state p).sectors := by
  have is_status := statusPort_mem p m
  rcases waitReadyLoop_drives (m := m) documented silent timeout idle.busy
    with ⟨ready, waited, leads, busy, _, later, done⟩
  rw [done answers] at later
  have shows_ := documented.status_shown ready p _ is_status
    ((answers_wait later).mpr answers)
  rcases status_leads documented ready is_status with
    ⟨leads', ticked⟩
  rw [later] at shows_ ticked
  refine ⟨ready, waited, shows_.error rfl idle.phase, leads.trans leads',
    ?_, ?_⟩
  · rw [ticked]
    exact ⟨idle.phase, show 0 - 1 < timeout by decide⟩
  · rw [ticked]
    rfl

/--
A drive which has asked for data takes all of it, and is waited for: the
status which is read last tells whether it shows an error.
-/
theorem writeWords_serves
    (documented : drives.Documented)
    (silent : drives.Silent)
    (answers : drives.Answers state p)
    (sector : Sector)
    {after : σ}
    {error : Bool}
    (leads : drives.Leads p state after)
    (entered : drives.channel after p =
      (drives.channel state p).enter (.receiving []) error 0) :
    ∃ ready left failed,
      drives.ports.ataWaitReady (ataInitDevice p m)
          (drives.ports.writeWords (ataInitDevice p m) sector.words after) =
        (ataOk, ready) ∧
      ((drives.ports.inb ((ataInitDevice p m).basePort + 7) ready).1 &&&
          ataStatusErr ≠ 0 ↔ failed = true) ∧
      drives.Serves p state
        (drives.ports.inb ((ataInitDevice p m).basePort + 7) ready).2
        ((drives.channel state p).leave left).sectors ∧
      drives.Stored p (drives.channel state p)
        (drives.channel (drives.ports.writeWords (ataInitDevice p m)
          sector.words after) p) sector left failed := by
  rcases writeWords_drives (m := m) documented sector.words []
    sector.words_ne_nil sector.size (answers.enter entered) entered with
    ⟨leads', left, failed, stored⟩
  rcases stored.after_eq with ⟨busy, inTime, taken⟩
  have answers' : drives.Answers (drives.ports.writeWords
      (ataInitDevice p m) sector.words after) p := by
    refine (answers_iff ?_).mpr answers
    rw [taken]
    rfl
  have idle : (drives.channel (drives.ports.writeWords (ataInitDevice p m)
      sector.words after) p).Idle := by
    rw [taken]
    exact ⟨rfl, inTime⟩
  rcases writeEnds_drives (m := m) documented silent answers' idle with
    ⟨ready, waited, shown, served⟩
  rw [taken] at shown served
  exact ⟨ready, left, failed, waited, shown,
    ⟨leads.trans (leads'.trans served.leads), served.idle,
      served.sectors_eq⟩, stored⟩

/-- The sector which is addressed is written. -/
theorem ataWriteSector_drives
    (documented : drives.Documented)
    (silent : drives.Silent)
    (idle : (drives.channel state p).Idle)
    (lba : Nat)
    (buf : Nat → UInt16) :
    ∃ ret after sectors,
      drives.ports.ataWriteSector (ataInitDevice p m) lba buf state =
        (ret, after) ∧
      drives.Serves p state after sectors ∧
      drives.disks.Writes p (driveOf m) (lba % 2 ^ 28) (sectorOf buf)
        (drives.channel state p).sectors ret sectors := by
  rcases ataIssue_drives (m := m) documented silent idle lba
    ataCmdWriteSectors with ⟨ready, chosen, issued⟩
  rcases ataWaitDrq_outcome (m := m) documented silent chosen.rests
    chosen.inTime ataCmdWriteSectors (.refl drives p _)
    (Nat.le_refl _) rfl with ⟨ret, after, waited, outcome⟩
  have waited' : drives.ports.ataWaitDrq (ataInitDevice p m)
      (drives.ports.outb (dataPort p + 7) ataCmdWriteSectors ready) =
        (ret, after) := waited
  rw [Ports.ataWriteSector, issued, if_neg (not_not.mpr rfl), waited']
  cases outcome with
  | missing absent served =>
      exact ⟨_, _, _, rfl, chosen.serves served,
        .missing (chosen.missing absent)⟩
  | refused shown answers at_ served =>
      have unsound : ¬ drives.disks.sound p (driveOf m) := fun sound =>
        sound.accepts ready ataCmdWriteSectors chosen.rests chosen.selected
          (.inl chosen.oneSector) (by decide) at_
      rw [if_pos (refusal_ne shown)]
      exact ⟨_, _, _, rfl, chosen.serves served,
        .refused shown (chosen.present answers) unsound⟩
  | data error answers follows working at_ leads entered =>
      rw [if_neg (not_not.mpr rfl)]
      cases follows with
      | refused => exact (working rfl).elim
      | reads sector other => exact absurd other (by decide)
      | identifies other => exact absurd other (by decide)
      | writes _ _ =>
          rcases writeWords_serves (m := m) documented silent answers
            (sectorOf buf) leads entered with
            ⟨ready', left, failed, waited'', shown, served, stored⟩
          have sectors_eq : ((drives.channel ready p).leave left).sectors =
              (drives.channel state p).sectors.store (driveOf m)
                (lba % 2 ^ 28) left := by
            show (drives.channel ready p).sectors.store _ _ left = _
            rw [chosen.sectors_eq, chosen.selected, chosen.address]
          have honest := stored.honest
          have sound := stored.sound
          rw [chosen.selected, chosen.sectors_eq, chosen.address] at honest
          rw [chosen.selected] at sound
          have value : (if (drives.ports.inb
                ((ataInitDevice p m).basePort + 7) ready').1 &&&
                  ataStatusErr ≠ 0 then
                (ataErrDriveError, (drives.ports.inb
                  ((ataInitDevice p m).basePort + 7) ready').2)
              else (ataOk, (drives.ports.inb
                ((ataInitDevice p m).basePort + 7) ready').2)) =
              (if failed = true then ataErrDriveError else ataOk,
                (drives.ports.inb
                  ((ataInitDevice p m).basePort + 7) ready').2) := by
            by_cases error : failed = true
            · rw [if_pos (shown.mpr error), if_pos error]
            · rw [if_neg fun wrong => error (shown.mp wrong), if_neg error]
          have waited₃ : drives.ports.ataWaitReady (ataInitDevice p m)
              (drives.ports.writeWords (ataInitDevice p m)
                ((List.range 256).map buf) after) = (ataOk, ready') :=
            waited''
          rw [waited₃, if_neg (not_not.mpr rfl)]
          exact ⟨_, _, _, value, ⟨chosen.leads.trans served.leads,
            served.idle, served.sectors_eq.trans sectors_eq⟩,
            .taken failed left (chosen.present answers) honest sound⟩

/-- Where no drive is selected the command is lost, and the status is zero. -/
theorem identify_missing
    (documented : drives.Documented)
    (silent : drives.Silent)
    (rests : drives.Rests state p)
    (inTime : (drives.channel state p).busy < timeout)
    (absent : ¬ drives.Answers state p) :
    (drives.ports.inb ((ataInitDevice p m).basePort + 7)
        (drives.given p ataCmdIdentify state)).1 = 0 ∧
      drives.Serves p state
        (drives.ports.inb ((ataInitDevice p m).basePort + 7)
          (drives.given p ataCmdIdentify state)).2
        (drives.channel state p).sectors := by
  have is_status := statusPort_mem p m
  have lost : drives.channel (drives.given p ataCmdIdentify state) =
      drives.channel state :=
    silent.command_lost state p ataCmdIdentify rests absent
  rcases drives.given_leads documented silent rests ataCmdIdentify with
    ⟨begun, answers_given⟩
  rcases status_leads documented (drives.given p ataCmdIdentify state)
    is_status with ⟨leads, ticked⟩
  rw [lost] at ticked
  refine ⟨silent.status_zero _ p _ is_status fun present =>
    absent (answers_given.mp present), begun.trans leads, ?_, ?_⟩
  · rw [ticked]
    exact ⟨rests.phase, Nat.lt_of_le_of_lt (Nat.sub_le _ _) inTime⟩
  · rw [ticked]
    rfl

/-- A drive is asked what it is. -/
theorem ataIdentify_drives
    (documented : drives.Documented)
    (silent : drives.Silent)
    (idle : (drives.channel state p).Idle) :
    ∃ ret words after,
      drives.ports.ataIdentify (ataInitDevice p m) state =
        (ret, words, after) ∧
      drives.Serves p state after (drives.channel state p).sectors ∧
      drives.disks.Identifies p (driveOf m) ret words := by
  rcases ataWaitReady_drives (m := m) documented silent idle with
    ⟨before, waited, leads, rests, same⟩
  rcases ataSelectDrive_drives (m := m) documented silent rests 0 with
    ⟨chosen, selected, leads', rests', inTime, sectors, registers⟩
  have drive : (drives.channel chosen p).selected = driveOf m := by
    apply selected_eq (p := p) 0
    rw [registers, Function.update_self]
  have kept : (drives.channel chosen p).sectors =
      (drives.channel state p).sectors := by
    rw [sectors, same]
  have is_status := statusPort_mem p m
  rcases drives.given_leads documented silent rests' ataCmdIdentify with
    ⟨_, answers_given⟩
  rcases status_leads documented (drives.given p ataCmdIdentify chosen)
    is_status with ⟨leads'', ticked⟩
  rcases ataWaitDrq_outcome (m := m) documented silent rests' inTime
    ataCmdIdentify leads'' (Nat.sub_le _ _) ticked with
    ⟨ret, after, requested, outcome⟩
  have given_eq : drives.ports.outb ((ataInitDevice p m).basePort + 7)
      ataCmdIdentify (ataOk, chosen).2 =
        drives.given p ataCmdIdentify chosen := rfl
  rw [Ports.ataIdentify, waited, if_neg (not_not.mpr rfl), selected,
    if_neg (not_not.mpr rfl), given_eq]
  by_cases answers : drives.Answers chosen p
  · have present : drives.disks.present p (driveOf m) = true := by
      rw [← drive]
      exact answers
    have nonzero := (documented.status_shown _ p _ is_status
      (answers_given.mpr answers)).nonzero
    rw [if_neg nonzero, requested]
    cases outcome with
    | missing absent _ => exact (absent answers).elim
    | refused shown _ at_ served =>
        have unsound : ¬ drives.disks.sound p (driveOf m) := fun sound =>
          sound.accepts chosen ataCmdIdentify rests' drive (.inr rfl)
            (by decide) at_
        rw [if_pos (refusal_ne shown)]
        exact ⟨_, _, _, rfl, served.behind (leads.trans leads') kept,
          .refused shown present unsound⟩
    | data error _ follows working at_ begun entered =>
        rw [if_neg (not_not.mpr rfl)]
        cases follows with
        | refused => exact (working rfl).elim
        | reads _ other => exact absurd other (by decide)
        | writes other => exact absurd other (by decide)
        | identifies _ =>
            rcases readWords_serves (m := m) documented answers _ begun
              entered with ⟨done, sent, served⟩
            rw [sent, drive]
            exact ⟨_, _, _, rfl, served.behind (leads.trans leads') kept,
              .sent present⟩
  · have absent : drives.disks.present p (driveOf m) = false := by
      rw [← drive]
      exact eq_false_of_ne_true answers
    rcases identify_missing (m := m) documented silent rests' inTime
      answers with
      ⟨zero, served⟩
    rw [if_pos zero]
    exact ⟨_, _, _, rfl, served.behind (leads.trans leads') kept,
      .missing absent⟩

end

end ForsKernel.Ata
