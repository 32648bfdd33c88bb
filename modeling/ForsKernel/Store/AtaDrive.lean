import Mathlib.Logic.Relation
import ForsKernel.Store.Disks

/-!
# The drives behind the ports

A channel has two drives, which share its registers, and takes one command at
a time.  Nothing under the ports is code of the kernel, so what the driver
relies on there is named: `Documented` is the protocol of a channel, `Silent`
is about a drive which is not there, and `Honest` and `Sound` say how far a
drive can be trusted.  Whatever the hardware is, `channel` shows of its state
what the protocol speaks of.
-/

namespace ForsKernel.Ata

/-! ## A channel -/

/-- The words which have come, or which are still to come. -/
inductive Phase where
  | idle
  | sending (words : List UInt16)
  | receiving (words : List UInt16)
deriving DecidableEq

/--
A channel in the course of a command: the selected drive will be busy for so
many more reads of its status, and will then show its error, if it has one.
-/
structure Channel where
  sectors : Sectors
  registers : Nat → UInt8
  phase : Phase
  error : Bool
  busy : Nat

namespace Channel

/-- The drive which the drive register selects. -/
def selected (channel : Channel) : Nat :=
  if channel.registers 6 &&& 0x10 = 0 then 0 else 1

/-- The 28-bit address in the registers. -/
def address (channel : Channel) : Nat :=
  (channel.registers 6 &&& 0x0F).toNat * 2 ^ 24 +
    (channel.registers 5).toNat * 2 ^ 16 +
    (channel.registers 4).toNat * 2 ^ 8 + (channel.registers 3).toNat

/-- One sector, whose address is a number and not cylinder, head and sector. -/
def OneSector (channel : Channel) : Prop :=
  channel.registers 2 = 1 ∧ channel.registers 6 &&& ataDriveLba ≠ 0

instance (channel : Channel) : Decidable channel.OneSector :=
  inferInstanceAs (Decidable (_ ∧ _))

def setRegister
    (channel : Channel)
    (offset : Nat)
    (value : UInt8) :
    Channel :=
  { channel with
    registers := Function.update channel.registers offset value }

/-- Time passes with every read of the status. -/
def tick (channel : Channel) : Channel :=
  { channel with busy := channel.busy - 1 }

/-- The drive register has been written; the drive it selects may be busy. -/
def select
    (channel : Channel)
    (value : UInt8)
    (error : Bool)
    (busy : Nat) :
    Channel :=
  { channel.setRegister 6 value with
    error := error
    busy := busy }

/-- A command or a word of data has taken the channel to this phase. -/
def enter
    (channel : Channel)
    (phase : Phase)
    (error : Bool)
    (busy : Nat) :
    Channel :=
  { channel with
    phase := phase
    error := error
    busy := busy }

/-- The sector which is addressed now holds this. -/
def leave
    (channel : Channel)
    (sector : Sector) :
    Channel :=
  { channel with
    sectors := channel.sectors.store channel.selected channel.address sector }

/--
While it is busy a drive shows that and nothing else; then it asks for data or
shows its error.  Its status is never zero.
-/
structure Shows
    (channel : Channel)
    (status : UInt8) :
    Prop where
  nonzero : status ≠ 0
  busy : status &&& ataStatusBsy = 0 ↔ channel.busy = 0
  request : status &&& ataStatusDrq ≠ 0 ↔
    channel.busy = 0 ∧ channel.phase ≠ .idle
  error_ready : status &&& ataStatusErr ≠ 0 → channel.busy = 0
  error : channel.busy = 0 → channel.phase = .idle →
    (status &&& ataStatusErr ≠ 0 ↔ channel.error = true)

end Channel

/-! ## Hardware -/

/-- The first port of a channel, and that of its alternate status. -/
def dataPort (p : Bool) : Nat :=
  (ataInitDevice p true).basePort

def controlPort (p : Bool) : Nat :=
  (ataInitDevice p true).ctrlPort

def statusPorts (p : Bool) : List Nat :=
  [dataPort p + 7, controlPort p]

/-- Two channels behind the ports; the first one is `true`. -/
structure Drives (σ : Type*) where
  ports : Ports σ
  present : Bool → Nat → Bool
  identity : Bool → Nat → Sector
  channel : σ → Bool → Channel

namespace Drives

variable {σ : Type*}

/-- The selected drive of a channel is there. -/
def Answers
    (drives : Drives σ)
    (state : σ)
    (p : Bool) :
    Prop :=
  drives.present p (drives.channel state p).selected = true

/-- A channel which can be given a command. -/
structure Rests
    (drives : Drives σ)
    (state : σ)
    (p : Bool) :
    Prop where
  phase : (drives.channel state p).phase = .idle
  busy : drives.Answers state p → (drives.channel state p).busy = 0

/-- How the selected drive may go on when it is given a command. -/
inductive Follows
    (drives : Drives σ)
    (p : Bool)
    (channel : Channel)
    (command : UInt8) :
    Phase → Prop where
  | refused : Follows drives p channel command .idle
  | reads (sector : Sector) :
      command = ataCmdReadSectors →
      channel.OneSector →
      Follows drives p channel command (.sending sector.words)
  | writes :
      command = ataCmdWriteSectors →
      channel.OneSector →
      Follows drives p channel command (.receiving [])
  | identifies :
      command = ataCmdIdentify →
      Follows drives p channel command
        (.sending (drives.identity p channel.selected).words)

/--
The protocol of a channel.  Every read of a status is a step in time, every
access is to one channel only, and no drive is busy for longer than the loops
of the driver wait.  Accesses out of turn are not described.
-/
structure Documented (drives : Drives σ) : Prop where
  status_read :
    ∀ state p, ∀ port ∈ statusPorts p,
      drives.channel (drives.ports.inb port state).2 =
        Function.update (drives.channel state) p
          (drives.channel state p).tick
  status_shown :
    ∀ state p, ∀ port ∈ statusPorts p,
      drives.Answers state p →
      (drives.channel state p).Shows (drives.ports.inb port state).1
  drive_selected :
    ∀ state p value,
      drives.Rests state p →
      ∃ error busy, busy < timeout ∧
        drives.channel (drives.ports.outb (dataPort p + 6) value state) =
          Function.update (drives.channel state) p
            ((drives.channel state p).select value error busy)
  register_written :
    ∀ state p offset value,
      1 ≤ offset →
      offset ≤ 5 →
      drives.Rests state p →
      drives.channel (drives.ports.outb (dataPort p + offset) value state) =
        Function.update (drives.channel state) p
          ((drives.channel state p).setRegister offset value)
  command_given :
    ∀ state p command,
      drives.Rests state p →
      drives.Answers state p →
      ∃ phase error busy, busy < timeout ∧
        drives.Follows p (drives.channel state p) command phase ∧
        drives.channel (drives.ports.outb (dataPort p + 7) command state) =
          Function.update (drives.channel state) p
            ((drives.channel state p).enter phase error busy)
  word_sent :
    ∀ state p word rest,
      drives.Answers state p →
      (drives.channel state p).busy = 0 →
      (drives.channel state p).phase = .sending (word :: rest) →
      (drives.ports.inw (dataPort p) state).1 = word ∧
        ∃ error busy, busy < timeout ∧ (rest ≠ [] → busy = 0) ∧
          drives.channel (drives.ports.inw (dataPort p) state).2 =
            Function.update (drives.channel state) p
              ((drives.channel state p).enter
                (if rest = [] then .idle else .sending rest) error busy)
  word_taken :
    ∀ state p word words,
      drives.Answers state p →
      (drives.channel state p).busy = 0 →
      (drives.channel state p).phase = .receiving words →
      words.length + 1 < 256 →
      ∃ error,
        drives.channel (drives.ports.outw (dataPort p) word state) =
          Function.update (drives.channel state) p
            ((drives.channel state p).enter
              (.receiving (words ++ [word])) error 0)
  last_taken :
    ∀ state p word words,
      drives.Answers state p →
      (drives.channel state p).busy = 0 →
      (drives.channel state p).phase = .receiving words →
      words.length + 1 = 256 →
      ∃ left error busy, busy < timeout ∧
        drives.channel (drives.ports.outw (dataPort p) word state) =
          Function.update (drives.channel state) p
            (((drives.channel state p).leave left).enter .idle error busy)

/-- Where no drive is selected the status reads zero, and commands are lost. -/
structure Silent (drives : Drives σ) : Prop where
  status_zero :
    ∀ state p, ∀ port ∈ statusPorts p,
      ¬ drives.Answers state p →
      (drives.ports.inb port state).1 = 0
  command_lost :
    ∀ state p command,
      drives.Rests state p →
      ¬ drives.Answers state p →
      drives.channel (drives.ports.outb (dataPort p + 7) command state) =
        drives.channel state

/--
A drive which sends the sector it holds, and which shows an error after a
write just when it has not stored the sector.
-/
structure Honest
    (drives : Drives σ)
    (p : Bool)
    (drive : Nat) :
    Prop where
  sends :
    ∀ state words,
      drives.Rests state p →
      (drives.channel state p).selected = drive →
      (drives.channel (drives.ports.outb (dataPort p + 7) ataCmdReadSectors
        state) p).phase = .sending words →
      words = ((drives.channel state p).sectors drive
        (drives.channel state p).address).words
  stores :
    ∀ state word words (sector : Sector),
      (drives.channel state p).selected = drive →
      (drives.channel state p).busy = 0 →
      (drives.channel state p).phase = .receiving words →
      sector.words = words ++ [word] →
      (drives.channel (drives.ports.outw (dataPort p) word state) p).sectors
          drive (drives.channel state p).address =
        if (drives.channel (drives.ports.outw (dataPort p) word state)
            p).error = true then
          (drives.channel state p).sectors drive
            (drives.channel state p).address
        else sector

/-- An honest drive which does everything it is asked for. -/
structure Sound
    (drives : Drives σ)
    (p : Bool)
    (drive : Nat) :
    Prop extends
    drives.Honest p drive where
  accepts :
    ∀ state command,
      drives.Rests state p →
      (drives.channel state p).selected = drive →
      (drives.channel state p).OneSector ∨ command = ataCmdIdentify →
      command ∈ [ataCmdReadSectors, ataCmdWriteSectors, ataCmdIdentify] →
      (drives.channel (drives.ports.outb (dataPort p + 7) command
        state) p).phase ≠ .idle
  succeeds :
    ∀ state word words,
      (drives.channel state p).selected = drive →
      (drives.channel state p).busy = 0 →
      (drives.channel state p).phase = .receiving words →
      words.length + 1 = 256 →
      (drives.channel (drives.ports.outw (dataPort p) word state)
        p).error = false

/-- The disks which the hardware makes. -/
def disks (drives : Drives σ) : Disks where
  present := drives.present
  identity := drives.identity
  honest := drives.Honest
  sound := drives.Sound
  honest_of_sound := fun _ _ => Sound.toHonest

/-! ## Accesses in turn -/

/--
The status may be read at any time, the registers may be written while the
drive is neither busy nor in the middle of a command, and data may be moved
when it has asked for it.
-/
inductive InTurn (drives : Drives σ) : σ → σ → Prop where
  | status
      (state : σ)
      (p : Bool)
      (port : Nat) :
      port ∈ statusPorts p →
      InTurn drives state (drives.ports.inb port state).2
  | register
      (state : σ)
      (p : Bool)
      (offset : Nat)
      (value : UInt8) :
      1 ≤ offset →
      offset ≤ 7 →
      drives.Rests state p →
      InTurn drives state
        (drives.ports.outb (dataPort p + offset) value state)
  | receive
      (state : σ)
      (p : Bool)
      (word : UInt16)
      (rest : List UInt16) :
      drives.Answers state p →
      (drives.channel state p).busy = 0 →
      (drives.channel state p).phase = .sending (word :: rest) →
      InTurn drives state (drives.ports.inw (dataPort p) state).2
  | send
      (state : σ)
      (p : Bool)
      (word : UInt16)
      (words : List UInt16) :
      drives.Answers state p →
      (drives.channel state p).busy = 0 →
      (drives.channel state p).phase = .receiving words →
      words.length < 256 →
      InTurn drives state (drives.ports.outw (dataPort p) word state)

/-- All that has happened are accesses in turn to one channel. -/
structure Leads
    (drives : Drives σ)
    (p : Bool)
    (before after : σ) :
    Prop where
  inTurn : Relation.ReflTransGen drives.InTurn before after
  elsewhere : ∀ q, q ≠ p → drives.channel after q = drives.channel before q

namespace Leads

variable
  {drives : Drives σ}
  {p : Bool}
  {before middle after : σ}

theorem refl
    (drives : Drives σ)
    (p : Bool)
    (state : σ) :
    drives.Leads p state state :=
  ⟨.refl, fun _ _ => rfl⟩

theorem trans
    (first : drives.Leads p before middle)
    (second : drives.Leads p middle after) :
    drives.Leads p before after := by
  refine ⟨first.inTurn.trans second.inTurn, fun q other => ?_⟩
  rw [second.elsewhere q other, first.elsewhere q other]

/-- One access, by what it does to the channels. -/
theorem single
    {channel : Channel}
    (access : drives.InTurn before after)
    (changed : drives.channel after =
      Function.update (drives.channel before) p channel) :
    drives.Leads p before after ∧ drives.channel after p = channel := by
  refine ⟨⟨.single access, fun q other => ?_⟩, ?_⟩
  · rw [changed, Function.update_of_ne other]
  · rw [changed, Function.update_self]

end Leads

end Drives

end ForsKernel.Ata
