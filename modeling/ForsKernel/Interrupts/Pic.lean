import Mathlib.Algebra.Group.Nat.Defs
import Mathlib.Data.List.Basic
import Mathlib.Logic.Function.Basic

/-!
# The interrupt controllers

`pic.c` programs two chips, the second of which is connected to line 2 of the
first.  A chip is initialised by a command, after which the bytes to its data
port are further words of the initialisation until it has all of them; only
then is such a byte the mask of its lines.

The master is followed here as the modes which it is given make it work.  The
slave is sent a mode which makes a master of it, so what it does to line 2 and
which vectors it gives are left open.
-/

namespace ForsKernel.Interrupts

/-! ## Programming a chip -/

/-- What a chip takes the next byte to its data port for. -/
inductive Awaits where
  | mask
  | icw2
  | icw3
  | icw4

/-- A bit of a word. -/
def bit
    (word : UInt8)
    (n : Nat) :
    Bool :=
  word.toBitVec.getLsbD n

/-- The words of the initialisation, and the mask. -/
structure Chip where
  awaits : Awaits
  icw1 : UInt8
  icw2 : UInt8
  icw3 : UInt8
  icw4 : UInt8
  mask : UInt8

namespace Chip

/-- The initialisation begins; without a fourth word all its modes are off. -/
def initialise
    (chip : Chip)
    (value : UInt8) :
    Chip :=
  { chip with
    awaits := .icw2
    icw1 := value
    icw4 := 0
    mask := 0 }

/-- Whether the fourth word comes is said by the first one. -/
def last (chip : Chip) : Awaits :=
  if bit chip.icw1 0 then .icw4 else .mask

/-- A single chip is sent no third word. -/
def writeData
    (chip : Chip)
    (value : UInt8) :
    Chip :=
  match chip.awaits with
  | .mask => { chip with mask := value }
  | .icw2 =>
      { chip with
        icw2 := value
        awaits := if bit chip.icw1 1 then chip.last else .icw3 }
  | .icw3 =>
      { chip with
        icw3 := value
        awaits := chip.last }
  | .icw4 =>
      { chip with
        icw4 := value
        awaits := .mask }

def masked
    (chip : Chip)
    (line : Nat) :
    Bool :=
  bit chip.mask line

/-- Another chip is connected to the line. -/
def cascaded
    (chip : Chip)
    (line : Nat) :
    Bool :=
  !bit chip.icw1 1 && bit chip.icw3 line

def autoEoi (chip : Chip) : Bool :=
  bit chip.icw4 1

def fullyNested (chip : Chip) : Bool :=
  bit chip.icw4 4

end Chip

/-! ## The master at work -/

/-- Both chips, with the lines of the master which wait and are in service. -/
structure Pics where
  master : Chip
  slave : Chip
  requests : Nat → Bool
  inService : Nat → Bool

namespace Pics

/-- Lines in service keep back those after them, and mostly themselves. -/
def blocked
    (pics : Pics)
    (line : Nat) :
    Bool :=
  (List.range line).any pics.inService ||
    (pics.inService line &&
      !(pics.master.fullyNested && pics.master.cascaded line))

/-- The first line which waits and is neither masked nor kept back. -/
def next (pics : Pics) : Option Nat :=
  (List.range 8).find? fun line =>
    pics.requests line && !pics.master.masked line && !pics.blocked line

/-- The processor takes the interrupt of a line. -/
def accept
    (pics : Pics)
    (line : Nat) :
    Pics :=
  { pics with
    requests := Function.update pics.requests line false
    inService :=
      if pics.master.autoEoi then pics.inService
      else Function.update pics.inService line true }

/-- The vector comes from the chip which is connected to the line, if any. -/
def vector
    (pics : Pics)
    (line : Nat)
    (slaveVector : Nat) :
    Nat :=
  if pics.master.cascaded line then slaveVector
  else (pics.master.icw2 &&& 0xf8).toNat + line

/-- A device, or the slave, asks for an interrupt until it is taken. -/
def request
    (pics : Pics)
    (line : Nat) :
    Pics :=
  { pics with requests := Function.update pics.requests line true }

/-- The first line which is in service is done. -/
def endOfInterrupt (pics : Pics) : Pics :=
  match (List.range 8).find? pics.inService with
  | none => pics
  | some line =>
      { pics with inService := Function.update pics.inService line false }

def masked
    (pics : Pics)
    (irq : Nat) :
    Bool :=
  if irq < 8 then pics.master.masked irq else pics.slave.masked (irq - 8)

/-- A command initialises the master, or reports the end of an interrupt. -/
def writeMaster
    (pics : Pics)
    (value : UInt8) :
    Pics :=
  if bit value 4 then
    { pics with
      master := pics.master.initialise value
      requests := fun _ => false }
  else if value = 0x20 then pics.endOfInterrupt
  else pics

/-- Of the interrupts of the slave nothing is known. -/
def writeSlave
    (pics : Pics)
    (value : UInt8) :
    Pics :=
  if bit value 4 then
    { pics with slave := pics.slave.initialise value }
  else pics

end Pics

/-! ## The driver -/

def picMasterCmd : Nat := 0x20

def picMasterDat : Nat := 0x21

def picSlaveCmd : Nat := 0xa0

def picSlaveDat : Nat := 0xa1

/-- Only the data ports are read: they return the masks. -/
def inb
    (port : Nat)
    (pics : Pics) :
    UInt8 :=
  if port = picMasterDat then pics.master.mask
  else if port = picSlaveDat then pics.slave.mask
  else 0xff

/-- The writes which make the chips wait go to another port. -/
def outb
    (port : Nat)
    (value : UInt8)
    (pics : Pics) :
    Pics :=
  if port = picMasterCmd then pics.writeMaster value
  else if port = picMasterDat then
    { pics with master := pics.master.writeData value }
  else if port = picSlaveCmd then pics.writeSlave value
  else if port = picSlaveDat then
    { pics with slave := pics.slave.writeData value }
  else pics

/-- `SMALL_WAIT`. -/
def smallWait (pics : Pics) : Pics :=
  outb 0x80 0 pics

def useIcw4 : UInt8 := 1

def init : UInt8 := 0x10

def mode8086 : UInt8 := 1

/-- The mode is sent to the master twice, and not to the slave. -/
def picMap
    (offsetMaster offsetSlave : UInt8)
    (pics : Pics) :
    Pics :=
  pics
    |> outb picMasterCmd (init ||| useIcw4) |> smallWait
    |> outb picSlaveCmd (init ||| useIcw4) |> smallWait
    |> outb picMasterDat offsetMaster |> smallWait
    |> outb picSlaveDat offsetSlave |> smallWait
    |> outb picMasterDat ((1 : UInt8) <<< 2) |> smallWait
    |> outb picSlaveDat 2 |> smallWait
    |> outb picMasterDat mode8086 |> smallWait
    |> outb picMasterDat mode8086 |> smallWait
    |> outb picMasterDat 0xfb
    |> outb picSlaveDat 0xff
    |> outb picSlaveDat 0xff

/-- The port of the mask with the line of an interrupt, and the line. -/
def maskPort (irq : Nat) : Nat × Nat :=
  if irq < 8 then (picMasterDat, irq) else (picSlaveDat, irq - 8)

def picBlockIrq
    (irq : Nat)
    (pics : Pics) :
    Pics :=
  let port := maskPort irq
  outb port.1 (inb port.1 pics ||| UInt8.ofNat (2 ^ port.2)) pics

def picUnblockIrq
    (irq : Nat)
    (pics : Pics) :
    Pics :=
  let port := maskPort irq
  outb port.1 (inb port.1 pics &&& ~~~UInt8.ofNat (2 ^ port.2)) pics

def picEoi
    (irq : Nat)
    (pics : Pics) :
    Pics :=
  outb picMasterCmd 0x20
    (if 8 ≤ irq then outb picSlaveCmd 0x20 pics else pics)

/-! ## What the driver does to the chips -/

/-- A chip in a cascade which is given all four words. -/
theorem initialise_words
    (chip : Chip)
    (icw2 icw3 icw4 : UInt8) :
    (((chip.initialise 0x11).writeData icw2).writeData icw3).writeData icw4 =
      { awaits := .mask
        icw1 := 0x11
        icw2 := icw2
        icw3 := icw3
        icw4 := icw4
        mask := 0 } := by
  have cascade : bit 0x11 1 = false := rfl
  have fourth : bit 0x11 0 = true := rfl
  simp [Chip.initialise, Chip.writeData, Chip.last, cascade, fourth]

/--
Whatever the chips were doing, the master is told of the slave and of no
special mode, and it keeps what is in service.  The first of the two last bytes
is what the slave takes for its mode: all modes at once, with itself a master.
-/
theorem picMap_eq
    (offsetMaster offsetSlave : UInt8)
    (pics : Pics) :
    picMap offsetMaster offsetSlave pics =
      { master :=
          { awaits := .mask
            icw1 := 0x11
            icw2 := offsetMaster
            icw3 := 4
            icw4 := 1
            mask := 0xfb }
        slave :=
          { awaits := .mask
            icw1 := 0x11
            icw2 := offsetSlave
            icw3 := 2
            icw4 := 0xff
            mask := 0xff }
        requests := fun _ => false
        inService := pics.inService } := by
  show Pics.mk
    ((((((pics.master.initialise 0x11).writeData offsetMaster).writeData
      4).writeData 1).writeData 1).writeData 0xfb)
    (((((pics.slave.initialise 0x11).writeData offsetSlave).writeData
      2).writeData 0xff).writeData 0xff)
    (fun _ => false) pics.inService = _
  rw [initialise_words, initialise_words]
  rfl

/-- Each handler's report of an end is one end for the master. -/
theorem picEoi_eq
    (irq : Nat)
    (pics : Pics) :
    picEoi irq pics = pics.endOfInterrupt := by
  unfold picEoi
  split <;> rfl

/-- A bit of a mask, once the bit of a line has been cleared. -/
theorem bit_clear
    (mask : UInt8)
    {line other : Nat}
    (small : other < 8) :
    bit (mask &&& ~~~UInt8.ofNat (2 ^ line)) other =
      (bit mask other && decide (other ≠ line)) := by
  rw [bit, UInt8.toBitVec_and, UInt8.toBitVec_not, UInt8.toBitVec_ofNat',
    BitVec.getLsbD_and, BitVec.getLsbD_not, BitVec.getLsbD_ofNat,
    Nat.testBit_two_pow]
  simp [bit, small, eq_comm]

theorem bit_set
    (mask : UInt8)
    {line other : Nat}
    (small : other < 8) :
    bit (mask ||| UInt8.ofNat (2 ^ line)) other =
      (bit mask other || decide (other = line)) := by
  rw [bit, UInt8.toBitVec_or, UInt8.toBitVec_ofNat', BitVec.getLsbD_or,
    BitVec.getLsbD_ofNat, Nat.testBit_two_pow]
  simp [bit, small, eq_comm]

/-- The chips as `pic_map` leaves them, but for the masks. -/
structure Pics.Mapped (pics : Pics) : Prop where
  master : pics.master =
    { awaits := .mask
      icw1 := 0x11
      icw2 := 0x20
      icw3 := 4
      icw4 := 1
      mask := pics.master.mask }
  slave : pics.slave.awaits = .mask

section

variable {pics : Pics}

theorem writeData_mask
    {chip : Chip}
    (settled : chip.awaits = .mask)
    (value : UInt8) :
    chip.writeData value = { chip with mask := value } := by
  rw [Chip.writeData, settled]

theorem Pics.Mapped.awaits (mapped : pics.Mapped) :
    pics.master.awaits = .mask := by
  rw [mapped.master]

/-- The mask of a line is written to the chip which has it. -/
theorem outb_maskPort
    (mapped : pics.Mapped)
    (irq : Nat)
    (value : UInt8) :
    outb (maskPort irq).1 value pics =
      if irq < 8 then
        { pics with master := { pics.master with mask := value } }
      else { pics with slave := { pics.slave with mask := value } } := by
  unfold maskPort
  split
  · show { pics with master := pics.master.writeData value } = _
    rw [writeData_mask mapped.awaits]
  · show { pics with slave := pics.slave.writeData value } = _
    rw [writeData_mask mapped.slave]

theorem inb_maskPort (irq : Nat) :
    inb (maskPort irq).1 pics =
      if irq < 8 then pics.master.mask else pics.slave.mask := by
  unfold maskPort
  split <;> rfl

/-- A write to a mask leaves all else as it was. -/
theorem outb_maskPort_kept
    (mapped : pics.Mapped)
    (irq : Nat)
    (value : UInt8) :
    (outb (maskPort irq).1 value pics).Mapped ∧
      (outb (maskPort irq).1 value pics).requests = pics.requests ∧
      (outb (maskPort irq).1 value pics).inService = pics.inService := by
  rw [outb_maskPort mapped]
  split
  · refine ⟨⟨?_, mapped.slave⟩, rfl, rfl⟩
    show { pics.master with mask := value } = _
    rw [mapped.master]
  · exact ⟨⟨mapped.master, mapped.slave⟩, rfl, rfl⟩

/-- Opening a line leaves the other ones as they are. -/
theorem masked_picUnblockIrq
    (mapped : pics.Mapped)
    (irq : Nat)
    {other : Nat}
    (small : other < 16) :
    (picUnblockIrq irq pics).masked other =
      (pics.masked other && decide (other ≠ irq)) := by
  rw [picUnblockIrq, outb_maskPort mapped, inb_maskPort]
  unfold maskPort Pics.masked Chip.masked
  by_cases here : irq < 8 <;> by_cases there : other < 8
  · simp only [if_pos here, if_pos there]
    exact bit_clear _ there
  · have differs : other ≠ irq := by omega
    simp [if_pos here, if_neg there, differs]
  · have differs : other ≠ irq := by omega
    simp [if_neg here, if_pos there, differs]
  · simp only [if_neg here, if_neg there]
    rw [bit_clear _ (by omega)]
    have same : other - 8 ≠ irq - 8 ↔ other ≠ irq := by omega
    simp only [same]

theorem masked_picBlockIrq
    (mapped : pics.Mapped)
    (irq : Nat)
    {other : Nat}
    (small : other < 16) :
    (picBlockIrq irq pics).masked other =
      (pics.masked other || decide (other = irq)) := by
  rw [picBlockIrq, outb_maskPort mapped, inb_maskPort]
  unfold maskPort Pics.masked Chip.masked
  by_cases here : irq < 8 <;> by_cases there : other < 8
  · simp only [if_pos here, if_pos there]
    exact bit_set _ there
  · have differs : other ≠ irq := by omega
    simp [if_pos here, if_neg there, differs]
  · have differs : other ≠ irq := by omega
    simp [if_neg here, if_pos there, differs]
  · simp only [if_neg here, if_neg there]
    rw [bit_set _ (by omega)]
    have same : other - 8 = irq - 8 ↔ other = irq := by omega
    simp only [same]

/-! ## The master as it is mapped -/

/-- A line is kept back by those in service up to it. -/
theorem Pics.Mapped.blocked_iff
    (mapped : pics.Mapped)
    (line : Nat) :
    pics.blocked line = true ↔ ∃ first ≤ line, pics.inService first = true := by
  have plain : pics.master.fullyNested = false := by
    rw [mapped.master]
    show bit 1 4 = false
    rfl
  rw [Pics.blocked, plain]
  simp only [Bool.false_and, Bool.not_false, Bool.and_true, Bool.or_eq_true,
    List.any_eq_true, List.mem_range]
  constructor
  · rintro (⟨first, before, served⟩ | served)
    · exact ⟨first, Nat.le_of_lt before, served⟩
    · exact ⟨line, Nat.le_refl line, served⟩
  · rintro ⟨first, upTo, served⟩
    rcases Nat.lt_or_eq_of_le upTo with before | rfl
    · exact .inl ⟨first, before, served⟩
    · exact .inr served

theorem Pics.Mapped.accept_eq
    (mapped : pics.Mapped)
    (line : Nat) :
    pics.accept line =
      { pics with
        requests := Function.update pics.requests line false
        inService := Function.update pics.inService line true } := by
  have manual : pics.master.autoEoi = false := by
    rw [mapped.master]
    show bit 1 1 = false
    rfl
  rw [Pics.accept, manual]
  rfl

theorem Pics.Mapped.vector_eq
    (mapped : pics.Mapped)
    {line : Nat}
    (small : line < 8)
    (slaveVector : Nat) :
    pics.vector line slaveVector =
      if line = 2 then slaveVector else 0x20 + line := by
  have second : pics.master.cascaded line = decide (line = 2) := by
    have all : ∀ line < 8, bit 4 line = decide (line = 2) := by decide
    rw [mapped.master]
    show (!bit 0x11 1 && bit 4 line) = _
    exact all line small
  rw [Pics.vector, second, mapped.master]
  by_cases slave : line = 2
  · simp [slave]
  · simp only [decide_eq_true_eq, if_neg slave]
    rfl

/-- The end which is reported is that of the first line in service. -/
theorem endOfInterrupt_first
    {line : Nat}
    (small : line < 8)
    (served : pics.inService line = true)
    (first : ∀ earlier < line, pics.inService earlier = false) :
    pics.endOfInterrupt =
      { pics with inService := Function.update pics.inService line false } := by
  have found : (List.range 8).find? pics.inService = some line := by
    rw [List.find?_range_eq_some]
    exact ⟨served, List.mem_range.mpr small, fun earlier before => by
      rw [first earlier before]
      rfl⟩
  rw [Pics.endOfInterrupt, found]

end

end ForsKernel.Interrupts
