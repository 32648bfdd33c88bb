import Mathlib.Algebra.Group.Nat.Defs
import Mathlib.Data.List.Basic
import Mathlib.Logic.Function.Basic

/-!
# The gates of interrupts

`idt.h` takes the address of a handler apart for its gate, and the processor
puts it together again.  `idt_init` attaches the handlers which there are, and
all other gates stay absent.
-/

namespace ForsKernel.Interrupts

/-! ## Gates -/

/-- `struct idt_entry`. -/
structure IdtEntry where
  offsetA : UInt16
  segment : UInt16
  attributes : UInt16
  offsetB : UInt16
  offsetC : UInt32
  reserved : UInt32
deriving DecidableEq

/-- `union segment_selector`, as a word. -/
def segmentSelector (rpl table entry : Nat) : UInt16 :=
  UInt16.ofNat (rpl % 4 + table % 2 * 4 + entry % 2 ^ 13 * 8)

/-- `INIT_IDT_ATTRIBUTES`. -/
def initIdtAttributes (dpl type ist : Nat) : UInt16 :=
  UInt16.ofNat (1 <<< 15 ||| (ist &&& 0x07) ||| ((type &&& 0xf) <<< 8) |||
    ((dpl &&& 0x03) <<< 13))

def idtAttributesIst (attributes : UInt16) : Nat :=
  attributes.toNat &&& 0x07

def idtAttributesType (attributes : UInt16) : Nat :=
  (attributes.toNat >>> 8) &&& 0x0f

def idtAttributesDpl (attributes : UInt16) : Nat :=
  (attributes.toNat >>> 13) &&& 0x03

def idtAttributesPresent (attributes : UInt16) : Nat :=
  (attributes.toNat >>> 15) &&& 0x01

def idtAttributesTypeTrap : Nat := 0xf

/-- `INIT_IDT_ENTRY`; the fields which it does not name are zero. -/
def initIdtEntry
    (seg attr : UInt16)
    (offset64 : UInt64) :
    IdtEntry where
  offsetA := (offset64 &&& 0xffff).toUInt16
  segment := seg
  attributes := attr
  offsetB := ((offset64 >>> 16) &&& 0xffff).toUInt16
  offsetC := ((offset64 >>> 32) &&& 0xffffffff).toUInt32
  reserved := 0

/-- The handler of a gate, as the processor reads it. -/
def IdtEntry.handler (entry : IdtEntry) : Nat :=
  entry.offsetA.toNat + entry.offsetB.toNat * 2 ^ 16 +
    entry.offsetC.toNat * 2 ^ 32

def IdtEntry.Present (entry : IdtEntry) : Prop :=
  idtAttributesPresent entry.attributes = 1

instance (entry : IdtEntry) : Decidable entry.Present :=
  inferInstanceAs (Decidable (_ = _))

/-- Sixteen bits of an address, from one of them on. -/
theorem toNat_word
    (address : UInt64)
    (shift : UInt64) :
    ((address >>> shift) &&& 0xffff).toUInt16.toNat =
      address.toNat / 2 ^ (shift.toNat % 64) % 2 ^ 16 := by
  have low : (0xffff : UInt64).toNat = 2 ^ 16 - 1 := rfl
  rw [UInt64.toNat_toUInt16, UInt64.toNat_and, UInt64.toNat_shiftRight, low,
    Nat.and_two_pow_sub_one_eq_mod, Nat.shiftRight_eq_div_pow, Nat.mod_mod]

theorem toNat_long
    (address : UInt64)
    (shift : UInt64) :
    ((address >>> shift) &&& 0xffffffff).toUInt32.toNat =
      address.toNat / 2 ^ (shift.toNat % 64) % 2 ^ 32 := by
  have low : (0xffffffff : UInt64).toNat = 2 ^ 32 - 1 := rfl
  rw [UInt64.toNat_toUInt32, UInt64.toNat_and, UInt64.toNat_shiftRight, low,
    Nat.and_two_pow_sub_one_eq_mod, Nat.shiftRight_eq_div_pow, Nat.mod_mod]

/-- No bit of the address gets lost. -/
theorem handler_initIdtEntry
    (seg attr : UInt16)
    (offset64 : UInt64) :
    (initIdtEntry seg attr offset64).handler = offset64.toNat := by
  have small := offset64.toNat_lt
  have first : ((offset64 &&& 0xffff).toUInt16).toNat =
      offset64.toNat % 2 ^ 16 := by
    have unshifted := toNat_word offset64 0
    rw [UInt64.shiftRight_zero] at unshifted
    simpa using unshifted
  have second := toNat_word offset64 16
  have third := toNat_long offset64 32
  have by16 : (16 : UInt64).toNat % 64 = 16 := rfl
  have by32 : (32 : UInt64).toNat % 64 = 32 := rfl
  rw [by16] at second
  rw [by32] at third
  simp only [IdtEntry.handler, initIdtEntry, first, second, third]
  omega

/-- The attributes are what the macro was given, as far as their bits go. -/
theorem initIdtAttributes_fields
    {dpl type ist : Nat}
    (dplSmall : dpl < 4)
    (typeSmall : type < 16)
    (istSmall : ist < 8) :
    idtAttributesDpl (initIdtAttributes dpl type ist) = dpl ∧
      idtAttributesType (initIdtAttributes dpl type ist) = type ∧
      idtAttributesIst (initIdtAttributes dpl type ist) = ist ∧
      idtAttributesPresent (initIdtAttributes dpl type ist) = 1 := by
  have all : ∀ dpl < 4, ∀ type < 16, ∀ ist < 8,
      idtAttributesDpl (initIdtAttributes dpl type ist) = dpl ∧
        idtAttributesType (initIdtAttributes dpl type ist) = type ∧
        idtAttributesIst (initIdtAttributes dpl type ist) = ist ∧
        idtAttributesPresent (initIdtAttributes dpl type ist) = 1 := by
    decide +kernel
  exact all dpl dplSmall type typeSmall ist istSmall

/-! ## The table -/

/-- `idt_table`. -/
abbrev IdtTable : Type := Nat → IdtEntry

/-- A static table begins with zeros. -/
def blankTable : IdtTable :=
  fun _ => ⟨0, 0, 0, 0, 0, 0⟩

def idtAttachHandler
    (vector : Nat)
    (seg attr : UInt16)
    (handler : UInt64)
    (table : IdtTable) :
    IdtTable :=
  Function.update table vector (initIdtEntry seg attr handler)

/-- The segment of the kernel's code. -/
def isrSeg : UInt16 :=
  segmentSelector 0 0 1

/-- The calls of `idt_attach_handler`: the vectors, and who may call them. -/
def isrVectors : List (Nat × Nat) :=
  [(0x00, 0), (0x01, 0), (0x02, 0), (0x03, 0), (0x04, 0), (0x05, 0),
    (0x06, 0), (0x07, 0), (0x10, 0), (0x12, 0), (0x13, 0), (0x20, 0),
    (0x21, 0), (0x2e, 0), (0xf0, 3), (0x08, 0), (0x0a, 0), (0x0b, 0),
    (0x0c, 0), (0x0d, 0), (0x0e, 0), (0x11, 0)]

/-- The table which `idt_init` makes, for handlers at these addresses. -/
def idtInit
    (isr : Nat → UInt64)
    (table : IdtTable) :
    IdtTable :=
  isrVectors.foldl (fun table vector =>
    idtAttachHandler vector.1 isrSeg
      (initIdtAttributes vector.2 idtAttributesTypeTrap 0) (isr vector.1)
      table) table

/-- Vectors which are not attached keep their gates. -/
theorem attach_other
    {isr : Nat → UInt64}
    {vectors : List (Nat × Nat)}
    {vector : Nat}
    (other : vector ∉ vectors.map Prod.fst)
    (table : IdtTable) :
    vectors.foldl (fun table vector =>
      idtAttachHandler vector.1 isrSeg
        (initIdtAttributes vector.2 idtAttributesTypeTrap 0) (isr vector.1)
        table) table vector = table vector := by
  induction vectors generalizing table with
  | nil => rfl
  | cons first rest induction =>
      rw [List.map_cons, List.mem_cons, not_or] at other
      rw [List.foldl_cons, induction other.2]
      exact Function.update_of_ne other.1 ..

theorem attach_self
    {isr : Nat → UInt64}
    {vectors : List (Nat × Nat)}
    (nodup : (vectors.map Prod.fst).Nodup)
    {vector dpl : Nat}
    (member : (vector, dpl) ∈ vectors)
    (table : IdtTable) :
    vectors.foldl (fun table vector =>
      idtAttachHandler vector.1 isrSeg
        (initIdtAttributes vector.2 idtAttributesTypeTrap 0) (isr vector.1)
        table) table vector =
      initIdtEntry isrSeg (initIdtAttributes dpl idtAttributesTypeTrap 0)
        (isr vector) := by
  induction vectors generalizing table with
  | nil => cases member
  | cons first rest induction =>
      rw [List.map_cons, List.nodup_cons] at nodup
      rw [List.foldl_cons]
      rcases List.mem_cons.mp member with rfl | later
      · rw [attach_other nodup.1]
        exact Function.update_self ..
      · exact induction nodup.2 later _

/-- The gates which are present, and where they lead. -/
theorem idtInit_gates
    (isr : Nat → UInt64)
    (vector : Nat) :
    ((idtInit isr blankTable vector).Present ↔
        vector ∈ isrVectors.map Prod.fst) ∧
      (vector ∈ isrVectors.map Prod.fst →
        (idtInit isr blankTable vector).handler = (isr vector).toNat) := by
  have nodup : (isrVectors.map Prod.fst).Nodup := by decide
  by_cases attached : vector ∈ isrVectors.map Prod.fst
  · rcases List.mem_map.mp attached with ⟨⟨vector', dpl⟩, member, rfl⟩
    have small : dpl < 4 := by
      have all : ∀ vector ∈ isrVectors, vector.2 < 4 := by decide
      exact all _ member
    have gate : idtInit isr blankTable vector' = initIdtEntry isrSeg
        (initIdtAttributes dpl idtAttributesTypeTrap 0) (isr vector') :=
      attach_self nodup member blankTable
    rw [gate]
    refine ⟨⟨fun _ => attached, fun _ => ?_⟩, fun _ => ?_⟩
    · exact (initIdtAttributes_fields small (by decide)
        (by decide)).2.2.2
    · exact handler_initIdtEntry ..
  · have gate : idtInit isr blankTable vector = blankTable vector :=
      attach_other attached blankTable
    have blank : ¬ (blankTable 0).Present := by decide
    rw [gate]
    exact ⟨⟨fun present => (blank present).elim,
      fun member => (attached member).elim⟩,
      fun member => (attached member).elim⟩

end ForsKernel.Interrupts
