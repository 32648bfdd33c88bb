import ForsKernel.Store.Ata

/-!
# The disk driver over any ports

All that `ata.c` knows of the hardware is what `inb`, `inw`, `outb` and `outw`
do.  Here the whole driver is read over these four functions on any state, so
that it can be run against a model of the drives.  With given replies in place
of the hardware it is the driver of `ForsKernel.Store.Ata`.
-/

namespace ForsKernel.Ata

/-- The functions of `io.c`, on the state of whatever is behind the ports. -/
structure Ports (σ : Type*) where
  inb : Nat → σ → UInt8 × σ
  inw : Nat → σ → UInt16 × σ
  outb : Nat → UInt8 → σ → σ
  outw : Nat → UInt16 → σ → σ

def ataCmdIdentify : UInt8 := 0xEC

def ataErrInvalidDrive : Int := -3

namespace Ports

variable
  {σ : Type*}
  (ports : Ports σ)
  (dev : AtaDevice)

/-- The loop of `ata_wait_ready`. -/
def waitReadyLoop : Nat → σ → Int × σ
  | 0, state => (ataErrTimeout, state)
  | turns + 1, state =>
      let status := ports.inb (dev.basePort + 7) state
      if status.1 &&& ataStatusBsy = 0 then (ataOk, status.2)
      else waitReadyLoop turns status.2

def ataWaitReady (state : σ) : Int × σ :=
  ports.waitReadyLoop dev timeout state

/-- The loop of `ata_wait_drq`. -/
def waitDrqLoop : Nat → σ → Int × σ
  | 0, state => (ataErrTimeout, state)
  | turns + 1, state =>
      let status := ports.inb (dev.basePort + 7) state
      if status.1 &&& ataStatusDrq ≠ 0 then (ataOk, status.2)
      else if status.1 &&& ataStatusErr ≠ 0 then
        (ataErrDriveError, status.2)
      else waitDrqLoop turns status.2

def ataWaitDrq (state : σ) : Int × σ :=
  ports.waitDrqLoop dev timeout state

/-- The reads of the alternate status in `ata_select_drive`. -/
def delay : Nat → σ → σ
  | 0, state => state
  | reads + 1, state => delay reads (ports.inb dev.ctrlPort state).2

def ataSelectDrive
    (lba : Nat)
    (state : σ) :
    Int × σ :=
  ports.ataWaitReady dev
    (ports.delay dev 4
      (ports.outb (dev.basePort + 6) (driveSelect dev lba) state))

/-- The five `outb` in front of a command. -/
def setUpCommand
    (lba : Nat)
    (state : σ) :
    σ :=
  state
    |> ports.outb (dev.basePort + 1) 0x00
    |> ports.outb (dev.basePort + 2) 1
    |> ports.outb (dev.basePort + 3) (UInt8.ofNat (lba &&& 0xFF))
    |> ports.outb (dev.basePort + 4) (UInt8.ofNat ((lba >>> 8) &&& 0xFF))
    |> ports.outb (dev.basePort + 5) (UInt8.ofNat ((lba >>> 16) &&& 0xFF))

/-- How `ata_read_sector` and `ata_write_sector` begin. -/
def ataIssue
    (lba : Nat)
    (command : UInt8)
    (state : σ) :
    Int × σ :=
  let ready := ports.ataWaitReady dev state
  if ready.1 ≠ ataOk then ready
  else
    let selected := ports.ataSelectDrive dev lba ready.2
    if selected.1 ≠ ataOk then selected
    else
      (ataOk, ports.outb (dev.basePort + 7) command
        (ports.setUpCommand dev lba selected.2))

/-- The words which are stored to the buffer. -/
def readWords : Nat → σ → List UInt16 × σ
  | 0, state => ([], state)
  | count + 1, state =>
      let word := ports.inw dev.basePort state
      let rest := readWords count word.2
      (word.1 :: rest.1, rest.2)

def writeWords : List UInt16 → σ → σ
  | [], state => state
  | word :: rest, state =>
      writeWords rest (ports.outw dev.basePort word state)

/-- The value, what has been stored to the buffer, and the state. -/
def ataReadSector
    (lba : Nat)
    (state : σ) :
    Int × List UInt16 × σ :=
  let begun := ports.ataIssue dev lba ataCmdReadSectors state
  if begun.1 ≠ ataOk then (begun.1, [], begun.2)
  else
    let request := ports.ataWaitDrq dev begun.2
    if request.1 ≠ ataOk then (request.1, [], request.2)
    else (ataOk, ports.readWords dev 256 request.2)

def ataWriteSector
    (lba : Nat)
    (buf : Nat → UInt16)
    (state : σ) :
    Int × σ :=
  let begun := ports.ataIssue dev lba ataCmdWriteSectors state
  if begun.1 ≠ ataOk then begun
  else
    let request := ports.ataWaitDrq dev begun.2
    if request.1 ≠ ataOk then request
    else
      let ready := ports.ataWaitReady dev
        (ports.writeWords dev ((List.range 256).map buf) request.2)
      if ready.1 ≠ ataOk then ready
      else
        let status := ports.inb (dev.basePort + 7) ready.2
        if status.1 &&& ataStatusErr ≠ 0 then (ataErrDriveError, status.2)
        else (ataOk, status.2)

/-- `ata_read_sectors` from its turn `i` on, with so many turns to go. -/
def readSectorsLoop (startLba : Nat) :
    Nat → Nat → σ → Int × List UInt16 × σ
  | 0, _, state => (ataOk, [], state)
  | turns + 1, i, state =>
      let read := ports.ataReadSector dev ((startLba + i) % 2 ^ 64) state
      if read.1 ≠ ataOk then read
      else
        let rest := readSectorsLoop startLba turns (i + 1) read.2.2
        (rest.1, read.2.1 ++ rest.2.1, rest.2.2)

def ataReadSectors
    (startLba count : Nat)
    (state : σ) :
    Int × List UInt16 × σ :=
  ports.readSectorsLoop dev startLba count 0 state

/-- `ata_write_sectors`, likewise; the buffer is counted in words. -/
def writeSectorsLoop
    (startLba : Nat)
    (buf : Nat → UInt16) :
    Nat → Nat → σ → Int × σ
  | 0, _, state => (ataOk, state)
  | turns + 1, i, state =>
      let written := ports.ataWriteSector dev ((startLba + i) % 2 ^ 64)
        (fun word => buf (i * 256 + word)) state
      if written.1 ≠ ataOk then written
      else writeSectorsLoop startLba buf turns (i + 1) written.2

def ataWriteSectors
    (startLba count : Nat)
    (buf : Nat → UInt16)
    (state : σ) :
    Int × σ :=
  ports.writeSectorsLoop dev startLba buf count 0 state

/-- The value, the words stored to `identify_data`, and the state. -/
def ataIdentify (state : σ) : Int × List UInt16 × σ :=
  let ready := ports.ataWaitReady dev state
  if ready.1 ≠ ataOk then (ready.1, [], ready.2)
  else
    let selected := ports.ataSelectDrive dev 0 ready.2
    if selected.1 ≠ ataOk then (selected.1, [], selected.2)
    else
      let status := ports.inb (dev.basePort + 7)
        (ports.outb (dev.basePort + 7) ataCmdIdentify selected.2)
      if status.1 = 0 then (ataErrInvalidDrive, [], status.2)
      else
        let request := ports.ataWaitDrq dev status.2
        if request.1 ≠ ataOk then (request.1, [], request.2)
        else (ataOk, ports.readWords dev 256 request.2)

/-- `st_rd` of the store type: one for success. -/
def stRd
    (addr : Nat)
    (state : σ) :
    Int × List UInt16 × σ :=
  let read := ports.ataReadSector dev addr state
  (if ataOk = read.1 then 1 else 0, read.2)

/-- `st_wr` of the store type. -/
def stWr
    (addr : Nat)
    (buf : Nat → UInt16)
    (state : σ) :
    Int × σ :=
  let written := ports.ataWriteSector dev addr buf state
  (if ataOk = written.1 then 1 else 0, written.2)

end Ports

/-! ## Replies which are given -/

/-- The ports of a bus whose replies are given. -/
def scripted (replies : Replies) : Ports Bus where
  inb := fun port bus => bus.inb replies port
  inw := fun port bus => bus.inw replies port
  outb := fun port value bus => bus.outb port value
  outw := fun port value bus => bus.outw port value

section

variable
  (replies : Replies)
  (dev : AtaDevice)

theorem waitReadyLoop_scripted
    (limit : Nat)
    (bus : Bus) :
    (scripted replies).waitReadyLoop dev limit bus =
      waitReadyLoop replies dev limit bus := by
  induction limit generalizing bus with
  | zero => rfl
  | succ limit induction =>
      rw [Ports.waitReadyLoop, waitReadyLoop, induction]
      rfl

theorem waitDrqLoop_scripted
    (limit : Nat)
    (bus : Bus) :
    (scripted replies).waitDrqLoop dev limit bus =
      waitDrqLoop replies dev limit bus := by
  induction limit generalizing bus with
  | zero => rfl
  | succ limit induction =>
      rw [Ports.waitDrqLoop, waitDrqLoop, induction]
      rfl

theorem delay_scripted
    (reads : Nat)
    (bus : Bus) :
    (scripted replies).delay dev reads bus = delay replies dev reads bus := by
  induction reads generalizing bus with
  | zero => rfl
  | succ reads induction =>
      rw [Ports.delay, delay, induction]
      rfl

theorem readWords_scripted
    (count : Nat)
    (bus : Bus) :
    (scripted replies).readWords dev count bus =
      readWords replies dev count bus := by
  induction count generalizing bus with
  | zero => rfl
  | succ count induction =>
      rw [Ports.readWords, readWords, induction]
      rfl

theorem writeWords_scripted
    (words : List UInt16)
    (bus : Bus) :
    (scripted replies).writeWords dev words bus =
      writeWords dev words bus := by
  induction words generalizing bus with
  | nil => rfl
  | cons word words induction =>
      rw [Ports.writeWords, writeWords, induction]
      rfl

theorem ataIssue_scripted
    (lba : Nat)
    (command : UInt8)
    (bus : Bus) :
    (scripted replies).ataIssue dev lba command bus =
      ataIssue replies dev lba command bus := by
  simp only [Ports.ataIssue, ataIssue, Ports.ataSelectDrive, ataSelectDrive,
    Ports.ataWaitReady, ataWaitReady, waitReadyLoop_scripted, delay_scripted]
  rfl

/-- On given replies the two readings of the driver agree. -/
theorem ataReadSector_scripted
    (lba : Nat)
    (bus : Bus) :
    (scripted replies).ataReadSector dev lba bus =
      ataReadSector replies dev lba bus := by
  simp only [Ports.ataReadSector, ataReadSector, ataIssue_scripted,
    Ports.ataWaitDrq, ataWaitDrq, waitDrqLoop_scripted, readWords_scripted]
  rfl

theorem ataWriteSector_scripted
    (lba : Nat)
    (buf : Nat → UInt16)
    (bus : Bus) :
    (scripted replies).ataWriteSector dev lba buf bus =
      ataWriteSector replies dev lba buf bus := by
  simp only [Ports.ataWriteSector, ataWriteSector, ataIssue_scripted,
    Ports.ataWaitDrq, ataWaitDrq, waitDrqLoop_scripted, Ports.ataWaitReady,
    ataWaitReady, waitReadyLoop_scripted, writeWords_scripted]
  rfl

end

end ForsKernel.Ata
