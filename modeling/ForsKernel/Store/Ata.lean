import Mathlib.Algebra.Group.Nat.Defs
import Mathlib.Logic.Function.Basic

/-!
# The disk driver

`ata.c` talks to a drive through the ports of its bus.  The number of a sector
is spread over four registers, which are written in two functions, and a
command written to the command port takes effect on the sector which the
registers hold at that moment.

A drive may reply anything.  The bytes and words which it returns to
successive reads are a parameter of every function that reads.
-/

namespace ForsKernel.Ata

/-! ## Ports -/

/-- What successive reads of the ports return. -/
structure Replies where
  byte : Nat → UInt8
  word : Nat → UInt16

/-- A byte written to a command port, and the sector then addressed. -/
structure Issued where
  command : UInt8
  address : Nat

/--
What has been written to the ports: the last byte to each of them, the
commands and the data.  The counters say how many replies have been used up.
-/
structure Bus where
  lastByte : Nat → UInt8
  issued : List Issued
  written : List UInt16
  bytesRead : Nat
  wordsRead : Nat

namespace Bus

/-- The 28-bit address in the registers of the bus with this base port. -/
def heldAddress
    (bus : Bus)
    (basePort : Nat) :
    Nat :=
  (bus.lastByte (basePort + 6) &&& 0x0F).toNat * 2 ^ 24 +
    (bus.lastByte (basePort + 5)).toNat * 2 ^ 16 +
    (bus.lastByte (basePort + 4)).toNat * 2 ^ 8 +
    (bus.lastByte (basePort + 3)).toNat

/-- `ATA_PRIMARY_COMMAND` and `ATA_SECONDARY_COMMAND`. -/
def commandPorts : List Nat := [0x1F7, 0x177]

def outb
    (bus : Bus)
    (port : Nat)
    (value : UInt8) :
    Bus :=
  { bus with
    lastByte := Function.update bus.lastByte port value
    issued :=
      if port ∈ commandPorts then
        bus.issued ++ [⟨value, bus.heldAddress (port - 7)⟩]
      else bus.issued }

def inb
    (bus : Bus)
    (replies : Replies)
    (_port : Nat) :
    UInt8 × Bus :=
  (replies.byte bus.bytesRead, { bus with bytesRead := bus.bytesRead + 1 })

def inw
    (bus : Bus)
    (replies : Replies)
    (_port : Nat) :
    UInt16 × Bus :=
  (replies.word bus.wordsRead, { bus with wordsRead := bus.wordsRead + 1 })

def outw
    (bus : Bus)
    (_port : Nat)
    (value : UInt16) :
    Bus :=
  { bus with written := bus.written ++ [value] }

end Bus

/-! ## The driver -/

/-- `ata_device_t`. -/
structure AtaDevice where
  basePort : Nat
  ctrlPort : Nat
  drive : Nat

/-- The drive of the first or second bus, as its master or slave. -/
def ataInitDevice (primary master : Bool) : AtaDevice where
  basePort := if primary then 0x1F0 else 0x170
  ctrlPort := if primary then 0x3F6 else 0x376
  drive := if master then 0 else 1

def ataStatusBsy : UInt8 := 0x80

def ataStatusDrq : UInt8 := 0x08

def ataStatusErr : UInt8 := 0x01

def ataCmdReadSectors : UInt8 := 0x20

def ataCmdWriteSectors : UInt8 := 0x30

def ataDriveMaster : UInt8 := 0xA0

def ataDriveSlave : UInt8 := 0xB0

def ataDriveLba : UInt8 := 0x40

def ataOk : Int := 0

def ataErrTimeout : Int := -1

def ataErrDriveError : Int := -2

/-- Turns of the loops which wait for the drive. -/
def timeout : Nat := 1000000

section

variable
  (replies : Replies)
  (dev : AtaDevice)

/-- The loop of `ata_wait_ready`. -/
def waitReadyLoop : Nat → Bus → Int × Bus
  | 0, bus => (ataErrTimeout, bus)
  | turns + 1, bus =>
      let status := bus.inb replies (dev.basePort + 7)
      if status.1 &&& ataStatusBsy = 0 then (ataOk, status.2)
      else waitReadyLoop turns status.2

def ataWaitReady (bus : Bus) : Int × Bus :=
  waitReadyLoop replies dev timeout bus

/-- The loop of `ata_wait_drq`. -/
def waitDrqLoop : Nat → Bus → Int × Bus
  | 0, bus => (ataErrTimeout, bus)
  | turns + 1, bus =>
      let status := bus.inb replies (dev.basePort + 7)
      if status.1 &&& ataStatusDrq ≠ 0 then (ataOk, status.2)
      else if status.1 &&& ataStatusErr ≠ 0 then
        (ataErrDriveError, status.2)
      else waitDrqLoop turns status.2

def ataWaitDrq (bus : Bus) : Int × Bus :=
  waitDrqLoop replies dev timeout bus

/-- The reads which wait for the selection to settle. -/
def delay : Nat → Bus → Bus
  | 0, bus => bus
  | reads + 1, bus => delay reads (bus.inb replies dev.ctrlPort).2

def driveSelect (lba : Nat) : UInt8 :=
  (if dev.drive = 0 then ataDriveMaster else ataDriveSlave) ||| ataDriveLba |||
    UInt8.ofNat ((lba >>> 24) &&& 0x0F)

def ataSelectDrive
    (lba : Nat)
    (bus : Bus) :
    Int × Bus :=
  ataWaitReady replies dev
    (delay replies dev 4 (bus.outb (dev.basePort + 6) (driveSelect dev lba)))

/-- One sector is asked for, and the rest of its number is sent. -/
def setUpCommand
    (lba : Nat)
    (bus : Bus) :
    Bus :=
  bus
    |>.outb (dev.basePort + 1) 0x00
    |>.outb (dev.basePort + 2) 1
    |>.outb (dev.basePort + 3) (UInt8.ofNat (lba &&& 0xFF))
    |>.outb (dev.basePort + 4) (UInt8.ofNat ((lba >>> 8) &&& 0xFF))
    |>.outb (dev.basePort + 5) (UInt8.ofNat ((lba >>> 16) &&& 0xFF))

/-- How `ata_read_sector` and `ata_write_sector` begin. -/
def ataIssue
    (lba : Nat)
    (command : UInt8)
    (bus : Bus) :
    Int × Bus :=
  let ready := ataWaitReady replies dev bus
  if ready.1 ≠ ataOk then ready
  else
    let selected := ataSelectDrive replies dev lba ready.2
    if selected.1 ≠ ataOk then selected
    else
      (ataOk,
        (setUpCommand dev lba selected.2).outb (dev.basePort + 7) command)

/-- The words which are stored to the buffer. -/
def readWords : Nat → Bus → List UInt16 × Bus
  | 0, bus => ([], bus)
  | count + 1, bus =>
      let word := bus.inw replies dev.basePort
      let rest := readWords count word.2
      (word.1 :: rest.1, rest.2)

def writeWords : List UInt16 → Bus → Bus
  | [], bus => bus
  | word :: rest, bus => writeWords rest (bus.outw dev.basePort word)

/-- The value, what has been stored to the buffer, and the bus. -/
def ataReadSector
    (lba : Nat)
    (bus : Bus) :
    Int × List UInt16 × Bus :=
  let begun := ataIssue replies dev lba ataCmdReadSectors bus
  if begun.1 ≠ ataOk then (begun.1, [], begun.2)
  else
    let request := ataWaitDrq replies dev begun.2
    if request.1 ≠ ataOk then (request.1, [], request.2)
    else (ataOk, readWords replies dev 256 request.2)

def ataWriteSector
    (lba : Nat)
    (buf : Nat → UInt16)
    (bus : Bus) :
    Int × Bus :=
  let begun := ataIssue replies dev lba ataCmdWriteSectors bus
  if begun.1 ≠ ataOk then begun
  else
    let request := ataWaitDrq replies dev begun.2
    if request.1 ≠ ataOk then request
    else
      let ready := ataWaitReady replies dev
        (writeWords dev ((List.range 256).map buf) request.2)
      if ready.1 ≠ ataOk then ready
      else
        let status := ready.2.inb replies (dev.basePort + 7)
        if status.1 &&& ataStatusErr ≠ 0 then (ataErrDriveError, status.2)
        else (ataOk, status.2)

end

/-! ## Waiting for the drive -/

def Busy (status : UInt8) : Prop :=
  status &&& ataStatusBsy ≠ 0

instance (status : UInt8) : Decidable (Busy status) :=
  inferInstanceAs (Decidable (_ ≠ _))

/-- Of the replies from `first` on, this is the first which is not busy. -/
def ReadyAfter
    (replies : Replies)
    (first turns : Nat) :
    Prop :=
  turns < timeout ∧ (∀ turn < turns, Busy (replies.byte (first + turn))) ∧
    ¬ Busy (replies.byte (first + turns))

/--
The drive is ready in time when a call begins, and again after it has been
selected, which takes four reads.
-/
def Selectable
    (replies : Replies)
    (first : Nat) :
    Prop :=
  ∃ turns, ReadyAfter replies first turns ∧
    ∃ more, ReadyAfter replies (first + turns + 1 + 4) more

/-- The bus after reads whose replies are used up. -/
def Bus.skip
    (bus : Bus)
    (reads : Nat) :
    Bus :=
  { bus with bytesRead := bus.bytesRead + reads }

section

variable
  {replies : Replies}
  {dev : AtaDevice}
  {bus : Bus}

theorem waitReadyLoop_cases
    (limit : Nat)
    (bus : Bus) :
    (∃ turns < limit,
      (∀ turn < turns, Busy (replies.byte (bus.bytesRead + turn))) ∧
        ¬ Busy (replies.byte (bus.bytesRead + turns)) ∧
          waitReadyLoop replies dev limit bus =
            (ataOk, bus.skip (turns + 1))) ∨
      ((∀ turn < limit, Busy (replies.byte (bus.bytesRead + turn))) ∧
        waitReadyLoop replies dev limit bus =
          (ataErrTimeout, bus.skip limit)) := by
  induction limit generalizing bus with
  | zero =>
      right
      exact ⟨fun turn before => by omega, rfl⟩
  | succ limit induction =>
      by_cases busy : Busy (replies.byte bus.bytesRead)
      · have loop : waitReadyLoop replies dev (limit + 1) bus =
            waitReadyLoop replies dev limit (bus.skip 1) :=
          if_neg busy
        have first (turn : Nat) (rest : 0 < turn →
            Busy (replies.byte (bus.bytesRead + 1 + (turn - 1)))) :
            Busy (replies.byte (bus.bytesRead + turn)) := by
          cases turn with
          | zero => exact busy
          | succ turn =>
              rw [Nat.add_comm turn, ← Nat.add_assoc]
              exact rest (Nat.succ_pos turn)
        rw [loop]
        rcases induction (bus.skip 1) with
          ⟨turns, inTime, before, ready, waited⟩ | ⟨always, waited⟩
        · refine .inl ⟨turns + 1, by omega, ?_, ?_, ?_⟩
          · intro turn inside
            exact first turn fun _ => before (turn - 1) (by omega)
          · rw [Nat.add_comm turns, ← Nat.add_assoc]
            exact ready
          · rw [waited]
            simp [Bus.skip, Nat.add_assoc, Nat.add_comm 1]
        · refine .inr ⟨?_, ?_⟩
          · intro turn inside
            exact first turn fun _ => always (turn - 1) (by omega)
          · rw [waited]
            simp [Bus.skip, Nat.add_assoc, Nat.add_comm 1]
      · left
        exact ⟨0, Nat.succ_pos limit, fun turn before => by omega, busy,
          if_pos (not_not.mp busy)⟩

/-- The first reply which is not busy is only one. -/
theorem ReadyAfter.unique
    {first turns turns' : Nat}
    (ready : ReadyAfter replies first turns)
    (ready' : ReadyAfter replies first turns') :
    turns = turns' := by
  rcases Nat.lt_trichotomy turns turns' with before | same | after
  · exact (ready.2.2 (ready'.2.1 turns before)).elim
  · exact same
  · exact (ready'.2.2 (ready.2.1 turns' after)).elim

/-- A wait for the drive, by whether it becomes ready in time. -/
theorem ataWaitReady_cases (bus : Bus) :
    (∃ turns, ReadyAfter replies bus.bytesRead turns ∧
      ataWaitReady replies dev bus = (ataOk, bus.skip (turns + 1))) ∨
      ((∀ turns, ¬ ReadyAfter replies bus.bytesRead turns) ∧
        ataWaitReady replies dev bus =
          (ataErrTimeout, bus.skip timeout)) := by
  rcases @waitReadyLoop_cases replies dev timeout bus with
    ⟨turns, inTime, before, ready, waited⟩ | ⟨always, waited⟩
  · exact .inl ⟨turns, ⟨inTime, before, ready⟩, waited⟩
  · right
    refine ⟨?_, waited⟩
    rintro turns ⟨inTime, _, ready⟩
    exact ready (always turns inTime)

theorem delay_eq
    (reads : Nat)
    (bus : Bus) :
    delay replies dev reads bus = bus.skip reads := by
  induction reads generalizing bus with
  | zero => rfl
  | succ reads induction =>
      rw [delay, induction]
      simp [Bus.inb, Bus.skip, Nat.add_assoc, Nat.add_comm 1]

/-- The selection of a drive, by whether it becomes ready in time. -/
theorem ataSelectDrive_cases
    (lba : Nat)
    (bus : Bus) :
    (∃ more, ReadyAfter replies (bus.bytesRead + 4) more ∧
      ataSelectDrive replies dev lba bus = (ataOk,
        (bus.outb (dev.basePort + 6) (driveSelect dev lba)).skip
          (4 + (more + 1)))) ∨
      ((∀ more, ¬ ReadyAfter replies (bus.bytesRead + 4) more) ∧
        ataSelectDrive replies dev lba bus = (ataErrTimeout,
          (bus.outb (dev.basePort + 6) (driveSelect dev lba)).skip
            (4 + timeout))) := by
  rw [ataSelectDrive, delay_eq]
  have waited := @ataWaitReady_cases replies dev
    ((bus.outb (dev.basePort + 6) (driveSelect dev lba)).skip 4)
  simpa only [Bus.skip, Bus.outb, Nat.add_assoc] using waited

/-- The beginning of a call, by whether the drive can be selected. -/
theorem ataIssue_eq
    (lba : Nat)
    (command : UInt8)
    (bus : Bus) :
    (Selectable replies bus.bytesRead ∧ ∃ before reads,
      ataIssue replies dev lba command bus = (ataOk,
        (setUpCommand dev lba ((Bus.outb before (dev.basePort + 6)
          (driveSelect dev lba)).skip reads)).outb (dev.basePort + 7)
            command) ∧ before.issued = bus.issued) ∨
      (¬ Selectable replies bus.bytesRead ∧ ∃ before reads,
        (ataIssue replies dev lba command bus = (ataErrTimeout,
            (Bus.outb before (dev.basePort + 6)
              (driveSelect dev lba)).skip reads) ∨
          ataIssue replies dev lba command bus =
            (ataErrTimeout, before)) ∧ before.issued = bus.issued) := by
  rcases @ataWaitReady_cases replies dev bus with
    ⟨turns, ready, waited⟩ | ⟨never, waited⟩
  · rcases @ataSelectDrive_cases replies dev lba (bus.skip (turns + 1)) with
      ⟨more, again, selected⟩ | ⟨never, selected⟩
    · refine .inl ⟨⟨turns, ready, more, again⟩, bus.skip (turns + 1),
        4 + (more + 1), ?_, rfl⟩
      simp only [ataIssue, waited, selected]
      rfl
    · refine .inr ⟨?_, bus.skip (turns + 1), 4 + timeout, .inl ?_, rfl⟩
      · rintro ⟨turns', ready', more, again⟩
        cases ready.unique ready'
        exact never more again
      · simp only [ataIssue, waited, selected]
        rfl
  · refine .inr ⟨?_, bus.skip timeout, 0, .inr ?_, rfl⟩
    · rintro ⟨turns, ready, _⟩
      exact never turns ready
    · simp only [ataIssue, waited]
      exact if_pos (by decide)

end

/-! ## The sector a command addresses -/

/-- The low bits of the drive select byte are those of the address. -/
theorem driveSelect_nibble
    (dev : AtaDevice)
    (lba : Nat) :
    (driveSelect dev lba &&& 0x0F).toNat = lba / 2 ^ 24 % 16 := by
  have nibbles : ∀ nibble < 16, ∀ drive ∈ [ataDriveMaster, ataDriveSlave],
      ((drive ||| ataDriveLba ||| UInt8.ofNat nibble) &&& 0x0F).toNat =
        nibble := by decide +kernel
  have bits : (lba >>> 24) &&& 0x0F = lba / 2 ^ 24 % 16 := by
    rw [Nat.shiftRight_eq_div_pow]
    exact Nat.and_two_pow_sub_one_eq_mod _ 4
  rw [driveSelect, bits]
  apply nibbles
  · exact Nat.mod_lt _ (by decide)
  · split <;> simp

/-- A byte of the address, as it is sent. -/
theorem toNat_addressByte (part : Nat) :
    (UInt8.ofNat (part &&& 0xFF)).toNat = part % 256 := by
  have bits : part &&& 0xFF = part % 256 :=
    Nat.and_two_pow_sub_one_eq_mod _ 8
  rw [bits, UInt8.toNat_ofNat']
  exact Nat.mod_mod part 256

/-- The four registers hold an address up to its 28 lowest bits. -/
theorem address_parts (lba : Nat) :
    lba / 2 ^ 24 % 16 * 2 ^ 24 + (lba >>> 16) % 256 * 2 ^ 16 +
      (lba >>> 8) % 256 * 2 ^ 8 + lba % 256 = lba % 2 ^ 28 := by
  rw [Nat.shiftRight_eq_div_pow, Nat.shiftRight_eq_div_pow]
  omega

theorem commandPorts_iff
    (primary master : Bool)
    (offset : Nat)
    (small : offset < 8) :
    (ataInitDevice primary master).basePort + offset ∈ Bus.commandPorts ↔
      offset = 7 := by
  cases primary <;> simp [ataInitDevice, Bus.commandPorts] <;> omega

section

variable
  {replies : Replies}
  {primary master : Bool}

/-- Only a byte to the command port is a command. -/
theorem outb_issued
    (bus : Bus)
    {offset : Nat}
    (other : offset < 7)
    (value : UInt8) :
    (bus.outb ((ataInitDevice primary master).basePort + offset)
      value).issued = bus.issued := by
  apply if_neg
  rw [commandPorts_iff primary master offset (by omega)]
  omega

theorem outb_command
    (bus : Bus)
    (command : UInt8) :
    (bus.outb ((ataInitDevice primary master).basePort + 7)
      command).issued = bus.issued ++
        [⟨command,
          bus.heldAddress (ataInitDevice primary master).basePort⟩] := by
  apply if_pos
  rw [commandPorts_iff primary master 7 (by decide)]

/-- The registers hold the address once all its parts have been sent. -/
theorem heldAddress_setUpCommand
    (dev : AtaDevice)
    (lba reads : Nat)
    (bus : Bus) :
    (setUpCommand dev lba
      ((bus.outb (dev.basePort + 6) (driveSelect dev lba)).skip
        reads)).heldAddress dev.basePort = lba % 2 ^ 28 := by
  rw [← address_parts, ← driveSelect_nibble dev, ← toNat_addressByte,
    ← toNat_addressByte, ← toNat_addressByte]
  simp [Bus.heldAddress, setUpCommand, Bus.outb, Bus.skip,
    Function.update_apply]

theorem setUpCommand_issued
    (lba : Nat)
    (bus : Bus) :
    (setUpCommand (ataInitDevice primary master) lba bus).issued =
      bus.issued := by
  simp only [setUpCommand]
  iterate 5 rw [outb_issued _ (by decide)]

/--
Once the drive has been selected, the command goes to the sector which the 28
lowest bits of the address name.  A drive which is not ready is sent nothing.
-/
theorem ataIssue_cases
    (lba : Nat)
    (command : UInt8)
    (bus : Bus) :
    ∃ ret bus', ataIssue replies (ataInitDevice primary master) lba command
        bus = (ret, bus') ∧
      ((Selectable replies bus.bytesRead ∧ ret = ataOk ∧
          bus'.issued = bus.issued ++ [⟨command, lba % 2 ^ 28⟩]) ∨
        (¬ Selectable replies bus.bytesRead ∧ ret = ataErrTimeout ∧
          bus'.issued = bus.issued)) := by
  have selected (bus : Bus) (reads : Nat) : ((bus.outb
      ((ataInitDevice primary master).basePort + 6)
      (driveSelect (ataInitDevice primary master) lba)).skip reads).issued =
        bus.issued :=
    outb_issued bus (by decide) _
  rcases @ataIssue_eq replies (ataInitDevice primary master) lba command bus
    with ⟨selectable, before, reads, issue, same⟩ |
      ⟨never, before, reads, issue | issue, same⟩
  · refine ⟨_, _, issue, .inl ⟨selectable, rfl, ?_⟩⟩
    rw [outb_command, setUpCommand_issued, selected, same,
      heldAddress_setUpCommand]
  · refine ⟨_, _, issue, .inr ⟨never, rfl, ?_⟩⟩
    rw [selected, same]
  · exact ⟨_, _, issue, .inr ⟨never, rfl, same⟩⟩

end

/-! ## Reading and writing a sector -/

inductive SectorOp where
  | readSector
  | writeSector (buf : Nat → UInt16)

/-- The value a call returns, and the bus. -/
def SectorOp.run
    (replies : Replies)
    (dev : AtaDevice)
    (lba : Nat) :
    SectorOp → Bus → Int × Bus
  | .readSector, bus =>
      let read := ataReadSector replies dev lba bus
      (read.1, read.2.2)
  | .writeSector buf, bus => ataWriteSector replies dev lba buf bus

/--
Every command which a call sends goes to the sector it was asked for, and a
number which the registers cannot hold is refused before any command.
-/
structure Addresses
    (lba : Nat)
    (bus : Bus)
    (ret : Int)
    (bus' : Bus) :
    Prop where
  addressed : ∃ commands, bus'.issued = bus.issued ++ commands ∧
    ∀ sent ∈ commands, sent.command = ataCmdReadSectors ∨
      sent.command = ataCmdWriteSectors → sent.address = lba
  refused : 2 ^ 28 ≤ lba → ret ≠ ataOk ∧ bus'.issued = bus.issued

section

variable
  {replies : Replies}
  {dev : AtaDevice}

theorem waitReadyLoop_issued
    (limit : Nat)
    (bus : Bus) :
    (waitReadyLoop replies dev limit bus).2.issued = bus.issued := by
  rcases @waitReadyLoop_cases replies dev limit bus with
    ⟨_, _, _, _, waited⟩ | ⟨_, waited⟩
  · rw [waited]
    rfl
  · rw [waited]
    rfl

theorem waitDrqLoop_issued
    (limit : Nat)
    (bus : Bus) :
    (waitDrqLoop replies dev limit bus).2.issued = bus.issued := by
  induction limit generalizing bus with
  | zero => rfl
  | succ limit induction =>
      rw [waitDrqLoop]
      split
      · rfl
      · split
        · rfl
        · exact induction _

theorem readWords_issued
    (count : Nat)
    (bus : Bus) :
    (readWords replies dev count bus).2.issued = bus.issued := by
  induction count generalizing bus with
  | zero => rfl
  | succ count induction => exact induction _

theorem writeWords_issued
    (words : List UInt16)
    (bus : Bus) :
    (writeWords dev words bus).issued = bus.issued := by
  induction words generalizing bus with
  | nil => rfl
  | cons word words induction => exact induction _

/-- `ATA_CMD_READ_SECTORS` or `ATA_CMD_WRITE_SECTORS`. -/
def SectorOp.command : SectorOp → UInt8
  | .readSector => ataCmdReadSectors
  | .writeSector _ => ataCmdWriteSectors

/-- After its command a call sends no other one. -/
theorem SectorOp.run_issued
    (op : SectorOp)
    (lba : Nat)
    (bus : Bus) :
    (op.run replies dev lba bus).2.issued =
        (ataIssue replies dev lba op.command bus).2.issued ∧
      ((ataIssue replies dev lba op.command bus).1 ≠ ataOk →
        (op.run replies dev lba bus).1 ≠ ataOk) := by
  cases op with
  | readSector =>
      simp only [SectorOp.run, ataReadSector, SectorOp.command]
      split
      · rename_i failed
        exact ⟨rfl, fun _ => failed⟩
      · rename_i begun
        refine ⟨?_, fun failed => (begun failed).elim⟩
        split
        · exact waitDrqLoop_issued timeout _
        · exact (readWords_issued 256 _).trans
            (waitDrqLoop_issued timeout _)
  | writeSector buf =>
      simp only [SectorOp.run, ataWriteSector, SectorOp.command]
      split
      · rename_i failed
        exact ⟨rfl, fun _ => failed⟩
      · rename_i begun
        refine ⟨?_, fun failed => (begun failed).elim⟩
        have data (bus : Bus) : (ataWaitReady replies dev
            (writeWords dev ((List.range 256).map buf)
              (ataWaitDrq replies dev bus).2)).2.issued = bus.issued :=
          (waitReadyLoop_issued timeout _).trans
            ((writeWords_issued _ _).trans (waitDrqLoop_issued timeout _))
        split
        · exact waitDrqLoop_issued timeout _
        · split
          · exact data _
          · split
            · exact data _
            · exact data _

end

section

variable
  {replies : Replies}
  {primary master : Bool}

/-- A call to a selectable drive addresses the sector modulo `2^28`. -/
theorem SectorOp.run_cases
    (op : SectorOp)
    (lba : Nat)
    (bus : Bus) :
    ∃ ret bus', op.run replies (ataInitDevice primary master) lba bus =
        (ret, bus') ∧
      ((Selectable replies bus.bytesRead ∧
          bus'.issued = bus.issued ++ [⟨op.command, lba % 2 ^ 28⟩]) ∨
        (¬ Selectable replies bus.bytesRead ∧ ret ≠ ataOk ∧
          bus'.issued = bus.issued)) := by
  rcases @ataIssue_cases replies primary master lba op.command bus with
    ⟨begun, after, issue, cases⟩
  rcases @SectorOp.run_issued replies (ataInitDevice primary master) op lba
    bus with ⟨same, failed⟩
  rw [issue] at same failed
  refine ⟨_, _, rfl, ?_⟩
  rcases cases with ⟨selectable, _, sent⟩ | ⟨never, late, silent⟩
  · exact .inl ⟨selectable, same.trans sent⟩
  · refine .inr ⟨never, failed ?_, same.trans silent⟩
    rw [late]
    show ataErrTimeout ≠ ataOk
    decide

/-- Too large a number is sent without its high bits. -/
theorem not_addresses
    (op : SectorOp)
    {lba : Nat}
    (large : 2 ^ 28 ≤ lba)
    (bus : Bus)
    (selectable : Selectable replies bus.bytesRead) :
    ¬ Addresses lba bus
      (op.run replies (ataInitDevice primary master) lba bus).1
      (op.run replies (ataInitDevice primary master) lba bus).2 := by
  rcases @SectorOp.run_cases replies primary master op lba bus with
    ⟨ret, bus', ran, ⟨_, sent⟩ | ⟨never, _⟩⟩
  · intro addresses
    have silent := (addresses.refused large).2
    rw [ran] at silent
    rw [sent] at silent
    simp at silent
  · exact (never selectable).elim

/--
A call addresses the right sector or none just when 28 bits hold its number,
or the drive does not become ready in time, so that no command is sent.
-/
theorem sector_addressing_iff
    (replies : Replies)
    (primary master : Bool)
    (op : SectorOp)
    (lba : Nat)
    (bus : Bus) :
    Addresses lba bus
        (op.run replies (ataInitDevice primary master) lba bus).1
        (op.run replies (ataInitDevice primary master) lba bus).2 ↔
      lba < 2 ^ 28 ∨ ¬ Selectable replies bus.bytesRead := by
  constructor
  · intro addresses
    by_contra otherwise
    rw [not_or, not_not, Nat.not_lt] at otherwise
    exact not_addresses op otherwise.1 bus otherwise.2 addresses
  · intro condition
    rcases @SectorOp.run_cases replies primary master op lba bus with
      ⟨ret, bus', ran, ⟨selectable, sent⟩ | ⟨never, failed, silent⟩⟩
    · have small : lba < 2 ^ 28 := by
        rcases condition with small | never
        · exact small
        · exact (never selectable).elim
      rw [ran]
      refine ⟨⟨_, sent, ?_⟩, fun large => by omega⟩
      intro command member _
      rw [List.mem_singleton.mp member]
      exact Nat.mod_eq_of_lt small
    · rw [ran]
      exact ⟨⟨[], by simp [silent], by simp⟩, fun _ => ⟨failed, silent⟩⟩

end

/-- A drive which is never busy and always has data. -/
def readyDrive : Replies where
  byte := fun _ => ataStatusDrq
  word := fun _ => 0

/-- Nothing has been written to the ports. -/
def quietBus : Bus :=
  ⟨fun _ => 0, [], [], 0, 0⟩

/-- A write to sector `2^28` is sent to sector 0. -/
theorem write_sector_aliases :
    ¬ Addresses (2 ^ 28) quietBus
      ((SectorOp.writeSector fun _ => 0).run readyDrive
        (ataInitDevice true true) (2 ^ 28) quietBus).1
      ((SectorOp.writeSector fun _ => 0).run readyDrive
        (ataInitDevice true true) (2 ^ 28) quietBus).2 := by
  have ready (first : Nat) : ReadyAfter readyDrive first 0 :=
    ⟨by decide, fun turn before => by omega,
      show ¬ Busy ataStatusDrq by decide⟩
  exact not_addresses _ (Nat.le_refl _) quietBus
    ⟨0, ready _, 0, ready _⟩

end ForsKernel.Ata
