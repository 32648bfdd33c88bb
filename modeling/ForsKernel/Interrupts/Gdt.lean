import ForsKernel.Interrupts.Idt
import ForsKernel.Proc.Process

/-!
# Segments and privileges

`gdt.c` describes two segments for the kernel, two for user programs and the
task state segment.  From them the processor decides which selectors a program
may load, where an interrupt of its own takes it, and which ports it may use.
-/

namespace ForsKernel.Interrupts

open ForsKernel.Proc

/-! ## Descriptors -/

/-- `gdt_table_entry`, in the first of its two forms. -/
structure GdtTableEntry where
  limit0 : UInt16
  base0 : UInt16
  base16 : UInt8
  accessByte : UInt8
  limit16AndFlags : UInt8
  base24 : UInt8

/-- The second form has two words which lie over the fields of the first. -/
def GdtTableEntry.ofWords (base32 reserved : UInt32) : GdtTableEntry where
  limit0 := base32.toUInt16
  base0 := (base32 >>> 16).toUInt16
  base16 := reserved.toUInt8
  accessByte := (reserved >>> 8).toUInt8
  limit16AndFlags := (reserved >>> 16).toUInt8
  base24 := (reserved >>> 24).toUInt8

/-- `INIT_SEG_DESCRIPTOR`. -/
def initSegDescriptor
    (base limit : UInt64)
    (access flags : UInt8) :
    GdtTableEntry where
  limit0 := (limit &&& 0xffff).toUInt16
  base0 := (base &&& 0xffff).toUInt16
  base16 := ((base >>> 16) &&& 0xff).toUInt8
  accessByte := access
  limit16AndFlags :=
    ((limit >>> 16) &&& 0xf).toUInt8 ||| ((flags &&& 0xf) <<< 4)
  base24 := ((base >>> 24) &&& 0xff).toUInt8

/-- `INIT_TSS_DESCRIPTOR_FIRST_HALF`. -/
def initTssDescriptorFirstHalf (base limit : UInt64) : GdtTableEntry :=
  initSegDescriptor base limit 0x89 0x8

/-- `INIT_TSS_DESCRIPTOR_SECOND_HALF`. -/
def initTssDescriptorSecondHalf (base : UInt64) : GdtTableEntry :=
  .ofWords ((base >>> 32) &&& 0xffffffff).toUInt32 0

def segAbRw : UInt8 := (1 : UInt8) <<< 1

def segAbExec : UInt8 := (1 : UInt8) <<< 3

def segAbCodeData : UInt8 := (1 : UInt8) <<< 4

def segAbDpl (n : UInt8) : UInt8 := (n &&& 0x3) <<< 5

def segAbPresent : UInt8 := (1 : UInt8) <<< 7

def segFlagLong : UInt8 := (1 : UInt8) <<< 1

def segFlag4kBlocks : UInt8 := (1 : UInt8) <<< 3

/-- `gdt_table`, before `x64_init_gdt`. -/
def gdtTable : List GdtTableEntry :=
  [initSegDescriptor 0 0 0 0,
    initSegDescriptor 0 0
      (segAbPresent ||| segAbDpl 0 ||| segAbCodeData ||| segAbExec |||
        segAbRw)
      (segFlagLong ||| segFlag4kBlocks),
    initSegDescriptor 0 0
      (segAbPresent ||| segAbDpl 0 ||| segAbCodeData ||| segAbRw)
      segFlag4kBlocks,
    initSegDescriptor 0 0
      (segAbPresent ||| segAbDpl 3 ||| segAbCodeData ||| segAbExec |||
        segAbRw)
      (segFlagLong ||| segFlag4kBlocks),
    initSegDescriptor 0 0
      (segAbPresent ||| segAbDpl 3 ||| segAbCodeData ||| segAbRw)
      segFlag4kBlocks,
    initTssDescriptorFirstHalf 0 0,
    initTssDescriptorSecondHalf 0]

/-- The table which `x64_init_gdt` loads, for the address of `tss`. -/
def x64InitGdt (tss : UInt64) : List GdtTableEntry :=
  (gdtTable.set 5 (initTssDescriptorFirstHalf tss 0)).set 6
    (initTssDescriptorSecondHalf tss)

/-- `gdtr.limit`, which is the size and not the last address. -/
def gdtrLimit : Nat :=
  gdtTable.length * 8

/-! ## The task state segment -/

/-- `tss_t`, less the fields which stay zero and which nobody uses. -/
structure Tss where
  rsp0 : UInt64
  ioBitmapOffset : Nat
  iopb : Nat → UInt8

/-- `IOPB_SIZE`. -/
def iopbSize : Nat := 130

/-- The end of `idt_init`; the bitmap follows on 104 bytes. -/
def idtInitTss (stack : UInt64) : Tss where
  rsp0 := stack
  ioBitmapOffset := 104
  iopb := fun byte => if byte = iopbSize - 1 then 0xff else 0

/-- The base of a segment which takes two entries. -/
def tssBase (first second : GdtTableEntry) : Nat :=
  first.base0.toNat + first.base16.toNat * 2 ^ 16 +
    first.base24.toNat * 2 ^ 24 +
      (second.limit0.toNat + second.base0.toNat * 2 ^ 16) * 2 ^ 32

/-- The last address in a segment, which may be counted in pages. -/
def segmentLimit (entry : GdtTableEntry) : Nat :=
  let limit :=
    entry.limit0.toNat + entry.limit16AndFlags.toNat % 2 ^ 4 * 2 ^ 16
  if entry.limit16AndFlags.toNat.testBit 7 then limit * 4096 + 4095
  else limit

/-- A program below the level of privilege for ports asks the bitmap. -/
def PortOpen
    (tss : Tss)
    (limit port : Nat) :
    Prop :=
  tss.ioBitmapOffset + port / 8 + 1 ≤ limit ∧
    (tss.iopb (port / 8)).toNat.testBit (port % 8) = false

theorem toNat_byte
    (address : UInt64)
    (shift : UInt64) :
    ((address >>> shift) &&& 0xff).toUInt8.toNat =
      address.toNat / 2 ^ (shift.toNat % 64) % 2 ^ 8 := by
  have low : (0xff : UInt64).toNat = 2 ^ 8 - 1 := rfl
  rw [UInt64.toNat_toUInt8, UInt64.toNat_and, UInt64.toNat_shiftRight, low,
    Nat.and_two_pow_sub_one_eq_mod, Nat.shiftRight_eq_div_pow, Nat.mod_mod]

/-- No bit of the address of the task state segment gets lost. -/
theorem tssBase_init (base limit : UInt64) :
    tssBase (initTssDescriptorFirstHalf base limit)
      (initTssDescriptorSecondHalf base) = base.toNat := by
  have small := base.toNat_lt
  have first : ((base &&& 0xffff).toUInt16).toNat = base.toNat % 2 ^ 16 := by
    have unshifted := toNat_word base 0
    rw [UInt64.shiftRight_zero] at unshifted
    simpa using unshifted
  have second := toNat_byte base 16
  have third := toNat_byte base 24
  have upper := toNat_long base 32
  have by16 : (16 : UInt64).toNat % 64 = 16 := rfl
  have by24 : (24 : UInt64).toNat % 64 = 24 := rfl
  have by32 : (32 : UInt64).toNat % 64 = 32 := rfl
  rw [by16] at second
  rw [by24] at third
  rw [by32] at upper
  have low := UInt32.toNat_toUInt16
    ((base >>> 32) &&& 0xffffffff).toUInt32
  have high : ((((base >>> 32) &&& 0xffffffff).toUInt32 >>>
      16).toUInt16).toNat =
        ((base >>> 32) &&& 0xffffffff).toUInt32.toNat / 2 ^ 16 % 2 ^ 16 := by
    rw [UInt32.toNat_toUInt16, UInt32.toNat_shiftRight,
      Nat.shiftRight_eq_div_pow]
    rfl
  simp only [tssBase, initTssDescriptorFirstHalf, initSegDescriptor,
    initTssDescriptorSecondHalf, GdtTableEntry.ofWords, first, second, third,
    low, high, upper]
  omega

/-- The bitmap closes only the ports of its last byte. -/
theorem portOpen_iff
    (stack tss : UInt64)
    {port : Nat}
    (inside : port < 8 * iopbSize) :
    PortOpen (idtInitTss stack)
      (segmentLimit (initTssDescriptorFirstHalf tss 0)) port ↔
        port < 8 * (iopbSize - 1) := by
  have low : (initTssDescriptorFirstHalf tss 0).limit0 = 0 := rfl
  have flags : (initTssDescriptorFirstHalf tss 0).limit16AndFlags = 0x80 :=
    rfl
  have limit : segmentLimit (initTssDescriptorFirstHalf tss 0) = 4095 := by
    rw [segmentLimit, low, flags]
    decide
  rw [iopbSize] at inside
  rw [PortOpen, limit]
  by_cases last : port / 8 = iopbSize - 1
  · have bits : ∀ bit < 8, (0xff : UInt8).toNat.testBit bit = true := by
      decide
    simp only [idtInitTss, if_pos last,
      bits (port % 8) (Nat.mod_lt _ (by decide))]
    rw [iopbSize] at last ⊢
    simp only [Bool.true_eq_false, and_false, false_iff]
    omega
  · simp only [idtInitTss, if_neg last]
    rw [iopbSize] at last ⊢
    simp only [UInt8.toNat_zero, Nat.zero_testBit, and_true]
    omega

/-! ## Privileges -/

def accessPresent (access : UInt8) : Bool :=
  access.toNat.testBit 7

def accessDpl (access : UInt8) : Nat :=
  access.toNat / 2 ^ 5 % 4

def accessCodeData (access : UInt8) : Bool :=
  access.toNat.testBit 4

def accessExec (access : UInt8) : Bool :=
  access.toNat.testBit 3

/-- A conforming segment, which runs with the privilege of its caller. -/
def accessDc (access : UInt8) : Bool :=
  access.toNat.testBit 2

def accessRw (access : UInt8) : Bool :=
  access.toNat.testBit 1

/-- The access byte which a selector stands for; no local table is loaded. -/
def accessOf
    (table : List GdtTableEntry)
    (limit selector : Nat) :
    Option UInt8 :=
  if selector / 8 = 0 ∨ selector / 4 % 2 ≠ 0 ∨
      limit < selector / 8 * 8 + 7 then none
  else (table.map GdtTableEntry.accessByte)[selector / 8]?

/-- The processor lets a program jump into the segment. -/
def codeAllowed
    (cpl rpl : Nat)
    (access : UInt8) :
    Bool :=
  accessPresent access && accessCodeData access && accessExec access &&
    if accessDc access then decide (accessDpl access ≤ cpl)
    else decide (rpl ≤ cpl ∧ accessDpl access = cpl)

/-- The processor lets a program have its stack in the segment. -/
def stackAllowed
    (cpl rpl : Nat)
    (access : UInt8) :
    Bool :=
  accessPresent access && accessCodeData access && !accessExec access &&
    accessRw access && decide (rpl = cpl ∧ accessDpl access = cpl)

/-- A gate through which a program may call code of more privilege. -/
def isCallGate (access : UInt8) : Bool :=
  accessPresent access && !accessCodeData access &&
    decide (access.toNat % 16 = 0xc)

/-- `cs` may hold this while the processor runs at the level `cpl`. -/
def HoldsCode
    (table : List GdtTableEntry)
    (limit cpl cs : Nat) :
    Prop :=
  cs % 4 = cpl ∧
    (accessOf table limit cs).any (codeAllowed cpl (cs % 4)) = true

def HoldsStack
    (table : List GdtTableEntry)
    (limit cpl ss : Nat) :
    Prop :=
  (accessOf table limit ss).any (stackAllowed cpl (ss % 4)) = true

instance
    (table : List GdtTableEntry)
    (limit cpl cs : Nat) :
    Decidable (HoldsCode table limit cpl cs) :=
  inferInstanceAs (Decidable (_ ∧ _))

instance
    (table : List GdtTableEntry)
    (limit cpl ss : Nat) :
    Decidable (HoldsStack table limit cpl ss) :=
  inferInstanceAs (Decidable (_ = _))

/--
The level and the address at which a program goes on after it interrupted
itself, unless the processor refuses.
-/
def softwareInterrupt
    (idt : IdtTable)
    (table : List GdtTableEntry)
    (limit cpl vector : Nat) :
    Option (Nat × Nat) :=
  let gate := idt vector
  if gate.Present ∧ cpl ≤ idtAttributesDpl gate.attributes then
    (accessOf table limit gate.segment.toNat).bind fun access =>
      if accessPresent access ∧ accessCodeData access ∧ accessExec access ∧
          accessDpl access ≤ cpl then
        some (if accessDc access then cpl else accessDpl access,
          gate.handler)
      else none
  else none

/-- The address of the task state segment makes no difference to them. -/
theorem map_accessByte (tss : UInt64) :
    (x64InitGdt tss).map GdtTableEntry.accessByte =
      [0, 0x9a, 0x92, 0xfa, 0xf2, 0x89, 0] :=
  rfl

/-- Selectors beyond the table stand for nothing. -/
theorem lt_of_accessOf
    {table : List GdtTableEntry}
    {selector : Nat}
    (found : accessOf table gdtrLimit selector ≠ none) :
    selector < 56 := by
  rw [accessOf] at found
  split at found
  · exact (found rfl).elim
  · rename_i inside
    have limit : gdtrLimit = 56 := rfl
    omega

theorem lt_of_any
    {table : List GdtTableEntry}
    {selector : Nat}
    {p : UInt8 → Bool}
    (found : (accessOf table gdtrLimit selector).any p = true) :
    selector < 56 := by
  apply lt_of_accessOf
  intro missing
  rw [missing] at found
  cases found

/-- A user program can only have the one code segment. -/
theorem holdsCode_user
    (tss : UInt64)
    (cs : Nat) :
    HoldsCode (x64InitGdt tss) gdtrLimit 3 cs ↔ cs = userCs := by
  have all : ∀ cs < 56, HoldsCode (x64InitGdt 0) gdtrLimit 3 cs →
      cs = userCs := by decide
  have same : HoldsCode (x64InitGdt tss) gdtrLimit 3 cs =
      HoldsCode (x64InitGdt 0) gdtrLimit 3 cs := by
    unfold HoldsCode accessOf
    rw [map_accessByte, map_accessByte]
  rw [same]
  constructor
  · exact fun holds => all cs (lt_of_any holds.2) holds
  · rintro rfl
    decide

theorem holdsStack_user
    (tss : UInt64)
    (ss : Nat) :
    HoldsStack (x64InitGdt tss) gdtrLimit 3 ss ↔ ss = userSs := by
  have all : ∀ ss < 56, HoldsStack (x64InitGdt 0) gdtrLimit 3 ss →
      ss = userSs := by decide
  have same : HoldsStack (x64InitGdt tss) gdtrLimit 3 ss =
      HoldsStack (x64InitGdt 0) gdtrLimit 3 ss := by
    unfold HoldsStack accessOf
    rw [map_accessByte, map_accessByte]
  rw [same]
  constructor
  · exact fun holds => all ss (lt_of_any holds) holds
  · rintro rfl
    decide

/-- No selector is that of a call gate. -/
theorem no_callGate
    (tss : UInt64)
    (selector : Nat) :
    (accessOf (x64InitGdt tss) gdtrLimit selector).any isCallGate =
      false := by
  have all : ∀ selector < 56,
      (accessOf (x64InitGdt 0) gdtrLimit selector).any isCallGate =
        false := by decide
  have same : accessOf (x64InitGdt tss) gdtrLimit selector =
      accessOf (x64InitGdt 0) gdtrLimit selector := by
    unfold accessOf
    rw [map_accessByte, map_accessByte]
  rw [same]
  by_contra found
  rw [Bool.not_eq_false] at found
  rw [all selector (lt_of_any found)] at found
  cases found

/-- Of all gates a user program may use only the one for system calls. -/
theorem softwareInterrupt_user
    (isr : Nat → UInt64)
    (tss : UInt64)
    (vector : Nat) :
    softwareInterrupt (idtInit isr blankTable) (x64InitGdt tss) gdtrLimit 3
        vector =
      if vector = 0xf0 then some (0, (isr vector).toNat) else none := by
  have kernel : accessOf (x64InitGdt tss) gdtrLimit isrSeg.toNat =
      some 0x9a := by
    unfold accessOf
    rw [map_accessByte]
    rfl
  have open_ : accessPresent 0x9a ∧ accessCodeData 0x9a ∧ accessExec 0x9a ∧
      accessDpl 0x9a ≤ 3 := by decide
  rcases idtInit_gates isr vector with ⟨present, handler⟩
  rw [softwareInterrupt]
  by_cases attached : vector ∈ isrVectors.map Prod.fst
  · rcases List.mem_map.mp attached with ⟨⟨vector', dpl⟩, member, rfl⟩
    have gate : idtInit isr blankTable vector' = initIdtEntry isrSeg
        (initIdtAttributes dpl idtAttributesTypeTrap 0) (isr vector') :=
      attach_self (by decide) member blankTable
    have whose : ∀ vector ∈ isrVectors, vector.2 < 4 ∧
        (3 ≤ vector.2 ↔ vector.1 = 0xf0) := by decide
    rcases whose _ member with ⟨small, who⟩
    have allowed : idtAttributesDpl
        (idtInit isr blankTable vector').attributes = dpl := by
      rw [gate]
      exact (initIdtAttributes_fields small (by decide) (by decide)).1
    have segment : (idtInit isr blankTable vector').segment = isrSeg := by
      rw [gate]
      rfl
    simp only [present.mpr attached, allowed, segment, true_and, kernel,
      Option.bind_some, if_pos open_, handler attached]
    by_cases call : vector' = 0xf0
    · rw [if_pos (who.mpr call), if_pos call]
      rfl
    · rw [if_neg (fun level => call (who.mp level)), if_neg call]
  · have other : vector ≠ 0xf0 := by
      rintro rfl
      exact attached (by decide)
    rw [if_neg other]
    exact if_neg fun allowed => attached (present.mp allowed.1)

end ForsKernel.Interrupts
