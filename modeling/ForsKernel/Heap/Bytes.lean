import Mathlib.Algebra.Group.Nat.Defs
import ForsKernel.Heap.Contents

/-!
# The bytes of live blocks

Clients store single bytes anywhere in what `balloc` returned, and the
allocator writes headers over the memory which it keeps for itself.  The
memory is followed byte by byte here, beside the headers which the allocator
finds in it: at the multiples of 32, where blocks start, the two never differ.
So what a client stored stays there until it stores again or releases the
block.
-/

namespace ForsKernel.Buddy

open ForsKernel.Lib.Transition

/-! ## Headers in memory -/

/-- The number in these many bytes, the lowest one first. -/
def word
    (byte : Nat → UInt8)
    (address : Nat) :
    Nat → Nat
  | 0 => 0
  | n + 1 => (byte address).toNat + 256 * word byte (address + 1) n

/-- Two short numbers, and two pointers at multiples of eight. -/
def BuddyBlock.read
    (byte : Nat → UInt8)
    (address : Nat) :
    BuddyBlock where
  order := word byte address 2
  taken := word byte (address + 2) 2
  next := word byte (address + 8) 8
  prev := word byte (address + 16) 8

/-- A byte of a header; the four before the pointers belong to no field. -/
def BuddyBlock.image
    (block : BuddyBlock)
    (k : Nat) :
    Option UInt8 :=
  if k < 2 then some (UInt8.ofNat (block.order / 256 ^ k))
  else if k < 4 then some (UInt8.ofNat (block.taken / 256 ^ (k - 2)))
  else if k < 8 then none
  else if k < 16 then some (UInt8.ofNat (block.next / 256 ^ (k - 8)))
  else if k < 24 then some (UInt8.ofNat (block.prev / 256 ^ (k - 16)))
  else none

theorem word_digit
    (byte : Nat → UInt8)
    (address : Nat)
    {n k : Nat}
    (inside : k < n) :
    UInt8.ofNat (word byte address n / 256 ^ k) = byte (address + k) := by
  induction n generalizing address k with
  | zero => omega
  | succ n induction =>
      have small := (byte address).toNat_lt
      rw [word]
      cases k with
      | zero =>
          apply UInt8.toNat_inj.mp
          rw [UInt8.toNat_ofNat', Nat.pow_zero, Nat.div_one]
          show _ = (byte address).toNat
          omega
      | succ k =>
          have rest : ((byte address).toNat +
              256 * word byte (address + 1) n) / 256 =
                word byte (address + 1) n := by
            omega
          have shifted : ((byte address).toNat +
              256 * word byte (address + 1) n) / 256 ^ (k + 1) =
                word byte (address + 1) n / 256 ^ k := by
            rw [Nat.pow_succ', ← Nat.div_div_eq_div_mul, rest]
          rw [shifted, induction (address + 1) (by omega)]
          congr 1
          omega

/-- A header which is read has the bytes which it was read from. -/
theorem image_read
    {byte : Nat → UInt8}
    {address k : Nat}
    {value : UInt8}
    (isByte : (BuddyBlock.read byte address).image k = some value) :
    value = byte (address + k) := by
  unfold BuddyBlock.image BuddyBlock.read at isByte
  split at isByte
  · rw [word_digit byte _ (by omega)] at isByte
    exact (Option.some.inj isByte).symm
  split at isByte
  · rw [word_digit byte _ (by omega)] at isByte
    rw [← Option.some.inj isByte]
    congr 1
    omega
  split at isByte
  · cases isByte
  split at isByte
  · rw [word_digit byte _ (by omega)] at isByte
    rw [← Option.some.inj isByte]
    congr 1
    omega
  split at isByte
  · rw [word_digit byte _ (by omega)] at isByte
    rw [← Option.some.inj isByte]
    congr 1
    omega
  · cases isByte

theorem image_inside
    {block : BuddyBlock}
    {k : Nat}
    {value : UInt8}
    (isByte : block.image k = some value) :
    k < sizeofBuddyBlock := by
  by_contra beyond
  have far : 24 ≤ k := Nat.le_of_not_lt beyond
  rw [BuddyBlock.image, if_neg (by omega), if_neg (by omega),
    if_neg (by omega), if_neg (by omega), if_neg (by omega)] at isByte
  cases isByte

/-- The memory once the headers which differ have been written to it. -/
def written
    (heap heap' : Heap)
    (byte : Nat → UInt8)
    (address : Nat) :
    UInt8 :=
  match (List.range sizeofBuddyBlock).find? fun k =>
      decide (k ≤ address) &&
        decide (heap'.block (address - k) ≠ heap.block (address - k)) with
  | none => byte address
  | some k => ((heap'.block (address - k)).image k).getD (byte address)

/-! ## Clients which store bytes -/

/-- The headers with the pointers which clients hold, and the memory. -/
structure ByteHeap where
  clients : HeapState
  byte : Nat → UInt8

inductive ByteOp where
  | balloc (size : Nat)
  | bfree (ptr : Nat)
  | store (address : Nat) (value : UInt8)
deriving DecidableEq

namespace ByteHeap

def heap (memory : ByteHeap) : Heap :=
  memory.clients.heap

def live (memory : ByteHeap) : List Nat :=
  memory.clients.live

/-- Clients release what they hold, and store to all of it. -/
def legal (memory : ByteHeap) : ByteOp → Prop
  | .balloc size => memory.clients.legal (.balloc size)
  | .bfree ptr => memory.clients.legal (.bfree ptr)
  | .store address _ => ∃ ptr ∈ memory.live,
      ptr ≤ address ∧
        address < HeapState.blockEnd memory.heap (header ptr)

instance (memory : ByteHeap) :
    (op : ByteOp) → Decidable (memory.legal op)
  | .balloc size =>
      inferInstanceAs (Decidable (memory.clients.legal (.balloc size)))
  | .bfree ptr =>
      inferInstanceAs (Decidable (memory.clients.legal (.bfree ptr)))
  | .store _ _ => inferInstanceAs (Decidable (∃ ptr ∈ memory.live, _ ∧ _))

/-- The allocator has gone on to new headers. -/
def follow
    (memory : ByteHeap)
    (clients : HeapState) :
    ByteHeap :=
  ⟨clients, written memory.heap clients.heap memory.byte⟩

/-- What would be a header over the address is another one then. -/
def store
    (memory : ByteHeap)
    (address : Nat)
    (value : UInt8) :
    ByteHeap :=
  let byte := Function.update memory.byte address value
  { clients :=
      { memory.clients with
        heap :=
          { memory.heap with
            block := fun bl =>
              if bl ≤ address ∧ address < bl + sizeofBuddyBlock then
                .read byte bl
              else memory.heap.block bl } }
    byte := byte }

def step (memory : ByteHeap) : ByteOp → Option ByteHeap
  | .balloc size => (memory.clients.step (.balloc size)).map memory.follow
  | .bfree ptr => (memory.clients.step (.bfree ptr)).map memory.follow
  | .store address value => some (memory.store address value)

/-- `buddy_init` has written the header of the whole heap to some memory. -/
def Initial (memory : ByteHeap) : Prop :=
  ∃ order minOrder base before byte,
    5 ≤ minOrder ∧ minOrder ≤ order ∧ order ≤ 30 ∧ 2 ^ order ∣ base ∧
      base < 2 ^ 64 ∧
      buddyInit (2 ^ order) base minOrder before = some (0, memory.heap) ∧
      memory.live = [] ∧ (∀ bl, before.block bl = .read byte bl) ∧
      memory.byte = written before memory.heap byte

end ByteHeap

def byteSystem : System ByteHeap ByteOp where
  init := ByteHeap.Initial
  legal := ByteHeap.legal
  step := ByteHeap.step

/-- Every release is harmless. -/
def ByteHeap.Harmless (memory : ByteHeap) : ByteOp → Prop
  | .bfree ptr => Buddy.Harmless memory.clients (.bfree ptr)
  | _ => True

instance
    (memory : ByteHeap)
    (op : ByteOp) :
    Decidable (byteSystem.legal memory op) :=
  inferInstanceAs (Decidable (memory.legal op))

instance (memory : ByteHeap) :
    (op : ByteOp) → Decidable (memory.Harmless op)
  | .balloc _ => inferInstanceAs (Decidable True)
  | .bfree ptr =>
      inferInstanceAs
        (Decidable (Buddy.Harmless memory.clients (.bfree ptr)))
  | .store _ _ => inferInstanceAs (Decidable True)

/-- Where blocks may start, the memory is what the headers say. -/
def ByteHeap.Agrees (memory : ByteHeap) : Prop :=
  ∀ bl, 32 ∣ bl → ∀ k value,
    (memory.heap.block bl).image k = some value →
      memory.byte (bl + k) = value

section

variable
  {heap heap' : Heap}
  {byte : Nat → UInt8}
  {address bl : Nat}

/-- Bytes over which no header changes are kept. -/
theorem written_kept
    (kept : ∀ k < sizeofBuddyBlock, k ≤ address →
      heap'.block (address - k) = heap.block (address - k)) :
    written heap heap' byte address = byte address := by
  have none : (List.range sizeofBuddyBlock).find? (fun k =>
      decide (k ≤ address) &&
        decide (heap'.block (address - k) ≠ heap.block (address - k))) =
          none := by
    rw [List.find?_eq_none]
    intro k member
    have inside := List.mem_range.mp member
    simp only [Bool.and_eq_true, decide_eq_true_eq, not_and, ne_eq, not_not]
    exact kept k inside
  rw [written, none]

/-- Headers which change do not run into one another. -/
theorem written_header
    (apart : ∀ other, heap'.block other ≠ heap.block other → 32 ∣ other)
    (aligned : 32 ∣ bl)
    {k : Nat}
    (inside : k < sizeofBuddyBlock) :
    written heap heap' byte (bl + k) =
      if heap'.block bl = heap.block bl then byte (bl + k)
      else ((heap'.block bl).image k).getD (byte (bl + k)) := by
  have size : sizeofBuddyBlock = 24 := rfl
  have here : ∀ j < sizeofBuddyBlock, j ≤ bl + k →
      heap'.block (bl + k - j) ≠ heap.block (bl + k - j) → j = k := by
    intro j small upTo changed
    have multiple := apart _ changed
    omega
  split
  · rename_i same
    apply written_kept
    intro j small upTo
    by_contra changed
    have isHere := here j small upTo changed
    rw [isHere, Nat.add_sub_cancel] at changed
    exact changed same
  · rename_i changed
    have found : (List.range sizeofBuddyBlock).find? (fun j =>
        decide (j ≤ bl + k) &&
          decide (heap'.block (bl + k - j) ≠ heap.block (bl + k - j))) =
            some k := by
      rw [List.find?_range_eq_some]
      refine ⟨?_, List.mem_range.mpr inside, ?_⟩
      · rw [Nat.add_sub_cancel]
        simp [changed]
      · intro j before
        by_contra other
        simp only [Bool.not_eq_true', ne_eq, Bool.not_eq_false,
          Bool.and_eq_true, decide_eq_true_eq] at other
        have isHere := here j (by omega) other.1 other.2
        omega
    rw [written, found]
    show ((heap'.block (bl + k - k)).image k).getD _ = _
    rw [Nat.add_sub_cancel]

variable
  {memory memory' : ByteHeap}
  {clients : HeapState}
  {live : List Nat}

/-- The bytes of live blocks are kept with their headers. -/
theorem follow_byte
    (keeps : Keeps memory.heap clients.heap live)
    (isLive : bl ∈ live)
    (aligned : 32 ∣ bl)
    (inside : Covers memory.heap bl address) :
    (memory.follow clients).byte address = memory.byte address := by
  apply written_kept
  intro k small upTo
  by_contra changed
  rcases keeps _ changed with ⟨multiple, outside⟩
  rcases inside with ⟨lower, upper⟩
  have size : sizeofBuddyBlock = 24 := rfl
  exact outside bl isLive ⟨by omega, by omega⟩

theorem ByteHeap.Agrees.follow
    (agrees : memory.Agrees)
    (apart : ∀ other,
      clients.heap.block other ≠ memory.heap.block other → 32 ∣ other) :
    (memory.follow clients).Agrees := by
  intro bl aligned k value isByte
  show written memory.heap clients.heap memory.byte (bl + k) = value
  have isByte' : (clients.heap.block bl).image k = some value := isByte
  rw [written_header apart aligned (image_inside isByte)]
  split
  · rename_i same
    rw [same] at isByte'
    exact agrees bl aligned k value isByte'
  · rw [isByte']
    rfl

theorem live_store
    (address : Nat)
    (value : UInt8) :
    (memory.store address value).live = memory.live := by
  unfold ByteHeap.live ByteHeap.store
  rfl

theorem byte_store
    (address : Nat)
    (value : UInt8) :
    (memory.store address value).byte =
      Function.update memory.byte address value := by
  unfold ByteHeap.store
  rfl

theorem block_store
    (address bl : Nat)
    (value : UInt8) :
    (memory.store address value).heap.block bl =
      if bl ≤ address ∧ address < bl + sizeofBuddyBlock then
        .read (Function.update memory.byte address value) bl
      else memory.heap.block bl := by
  unfold ByteHeap.heap ByteHeap.store
  rfl

theorem ByteHeap.Agrees.store
    (agrees : memory.Agrees)
    (address : Nat)
    (value : UInt8) :
    (memory.store address value).Agrees := by
  intro bl aligned k other isByte
  have inside := image_inside isByte
  rw [block_store] at isByte
  rw [byte_store]
  split at isByte
  · exact (image_read isByte).symm
  · rename_i elsewhere
    have apart : bl + k ≠ address := by omega
    rw [Function.update_of_ne apart]
    exact agrees bl aligned k other isByte

/-! ## Whole runs -/

/-- What the operation stores to the address. -/
def ByteOp.stored (address : Nat) : ByteOp → Option UInt8
  | .store other value => if other = address then some value else none
  | _ => none

/-- The last byte which the operations store to the address, if any. -/
def lastStored
    (address : Nat)
    (ops : List ByteOp) :
    Option UInt8 :=
  ops.reverse.findSome? fun op => op.stored address

theorem lastStored_concat
    (ops : List ByteOp)
    (op : ByteOp)
    (value : UInt8) :
    (lastStored address (ops ++ [op])).getD value =
      (op.stored address).getD ((lastStored address ops).getD value) := by
  rw [lastStored, List.reverse_append, List.reverse_singleton,
    List.singleton_append, List.findSome?_cons, lastStored]
  cases op.stored address <;> rfl

/-- A pointer with the size of its block and one byte of it. -/
structure Holds
    (memory : ByteHeap)
    (ptr order address : Nat)
    (value : UInt8) :
    Prop where
  held : ptr ∈ memory.live
  order_eq : memory.heap.order (header ptr) = order
  byte_eq : memory.byte address = value

/-- The block which is behind a pointer of a client. -/
theorem live_of_held
    {starts : Finset Nat}
    {lists : Nat → List Nat}
    {ptr : Nat}
    (inv : HeapInv memory.heap starts lists live)
    (liveEq : memory.live = live.map (· + sizeofBuddyBlock))
    (held : ptr ∈ memory.live) :
    header ptr ∈ live ∧ ptr = header ptr + sizeofBuddyBlock := by
  rw [liveEq] at held
  rcases List.mem_map.mp held with ⟨bl, member, rfl⟩
  rw [inv.header_eq (inv.live_starts bl member)]
  exact ⟨member, rfl⟩

/-- No client stores to a header. -/
theorem store_elsewhere
    {starts : Finset Nat}
    {lists : Nat → List Nat}
    {value : UInt8}
    (inv : HeapInv memory.heap starts lists live)
    (liveEq : memory.live = live.map (· + sizeofBuddyBlock))
    (legal : memory.legal (.store address value))
    (start : bl ∈ starts) :
    (memory.store address value).heap.block bl = memory.heap.block bl := by
  rcases legal with ⟨ptr, owns, lower, upper⟩
  rcases live_of_held inv liveEq owns with ⟨isLive, isPtr⟩
  have writer := inv.live_starts _ isLive
  have outside : ¬ (bl ≤ address ∧ address < bl + sizeofBuddyBlock) := by
    rintro ⟨begins, upTo⟩
    have minOrder := inv.geometry.minOrder_ge
    have order := inv.minOrder_le bl start
    have large : 2 ^ 5 ≤ 2 ^ memory.heap.order bl :=
      Nat.pow_le_pow_right (by decide) (by omega)
    have size : sizeofBuddyBlock = 24 := rfl
    have same := inv.tiling.eq_of_meet writer start
      ⟨by omega, upper⟩ ⟨begins, by omega⟩
    omega
  rw [block_store, if_neg outside]

theorem store_inv
    {value : UInt8}
    (inv : StateInv memory.clients)
    (legal : memory.legal (.store address value)) :
    StateInv (memory.store address value).clients := by
  rcases inv with ⟨starts, lists, live, inv, liveEq⟩
  have elsewhere : ∀ bl ∈ starts, (memory.store address value).heap.block bl =
      memory.heap.block bl :=
    fun bl start => store_elsewhere inv liveEq legal start
  have liveEq' := (live_store address value).trans liveEq
  refine ⟨starts, lists, live, ?_, liveEq'⟩
  unfold ByteHeap.heap ByteHeap.store at elsewhere
  unfold ByteHeap.store
  exact inv.congr rfl rfl rfl (fun _ => rfl) elsewhere

/-- The allocator changes no header of a block which stays held. -/
theorem keeps_step
    {op : HeapOp}
    (inv : StateInv memory.clients)
    (notWrite : ∀ address contents, op ≠ .write address contents)
    (last : (heapSystem.restrict Buddy.Harmless).Step memory.clients op
      clients) :
    ∃ kept, Keeps memory.heap clients.heap kept ∧
      ∀ ptr ∈ memory.live, op ≠ .bfree ptr →
        header ptr ∈ kept ∧ ptr ∈ clients.live := by
  rcases inv with ⟨starts, lists, live, inv, liveEq⟩
  rcases last with ⟨⟨legal, harmless⟩, stepped⟩
  cases op with
  | balloc size =>
      rcases Option.bind_eq_some_iff.mp stepped with
        ⟨⟨fresh, heap⟩, result, returned⟩
      dsimp only at returned
      split at returned
      · cases returned
      · cases returned
        refine ⟨live, keeps_balloc inv result, fun ptr held _ => ?_⟩
        exact ⟨(live_of_held inv liveEq held).1,
          List.mem_cons_of_mem _ held⟩
  | bfree other =>
      have released : other ∈ memory.live := legal
      rcases live_of_held inv liveEq released with ⟨isLive, isPtr⟩
      have safe : FreeSafe memory.heap (header other) := harmless
      rcases Option.map_eq_some_iff.mp stepped with ⟨heap, result, rfl⟩
      rw [isPtr] at result
      refine ⟨live.erase (header other), keeps_bfree inv isLive safe result,
        fun ptr held notFreed => ?_⟩
      have different : ptr ≠ other := by
        rintro rfl
        exact notFreed rfl
      rcases live_of_held inv liveEq held with ⟨ownLive, isOwn⟩
      have apart : header ptr ≠ header other := by
        intro same
        rw [same, ← isPtr] at isOwn
        exact different isOwn
      exact ⟨(List.mem_erase_of_ne apart).mpr ownLive,
        (List.mem_erase_of_ne different).mpr held⟩
  | write other contents => exact (notWrite other contents rfl).elim

variable
  {source target : ByteHeap}
  {ptr order : Nat}
  {value : UInt8}

/-- What holds of the memory after each operation. -/
structure ByteInv (memory : ByteHeap) : Prop where
  clients : StateInv memory.clients
  agrees : memory.Agrees

/-- An operation of the allocator keeps what the other clients hold. -/
theorem ByteInv.follow
    {op : HeapOp}
    (inv : ByteInv memory)
    (notWrite : ∀ address contents, op ≠ .write address contents)
    (last : (heapSystem.restrict Buddy.Harmless).Step memory.clients op
      clients) :
    ByteInv (memory.follow clients) ∧
      ∀ ptr order address value, Holds memory ptr order address value →
        op ≠ .bfree ptr → ptr ≤ address → address < header ptr + 2 ^ order →
          Holds (memory.follow clients) ptr order address value := by
  rcases keeps_step inv.clients notWrite last with ⟨live, keeps, held⟩
  refine ⟨⟨step_inv inv.clients last,
    inv.agrees.follow fun other changed => (keeps other changed).1⟩, ?_⟩
  intro ptr order address value holds notFreed lower upper
  rcases held ptr holds.held notFreed with ⟨kept, stays⟩
  refine ⟨stays, (keeps.order_eq kept).trans holds.order_eq, ?_⟩
  rcases inv.clients with ⟨starts, lists, live, heapInv, liveEq⟩
  rcases live_of_held heapInv liveEq holds.held with ⟨isLive, isPtr⟩
  rw [follow_byte keeps kept
    (aligned_start heapInv (heapInv.live_starts _ isLive))]
  · exact holds.byte_eq
  · rw [Covers, holds.order_eq]
    omega

/-- What a client stores, it finds, and nobody else notices. -/
theorem ByteInv.store
    {place : Nat}
    {new : UInt8}
    (inv : ByteInv memory)
    (legal : memory.legal (.store place new)) :
    ByteInv (memory.store place new) ∧
      ∀ ptr order address value, Holds memory ptr order address value →
        Holds (memory.store place new) ptr order address
          (((ByteOp.store place new).stored address).getD value) := by
  refine ⟨⟨store_inv inv.clients legal, inv.agrees.store place new⟩, ?_⟩
  intro ptr order address value holds
  rcases inv.clients with ⟨starts, lists, live, heapInv, liveEq⟩
  rcases live_of_held heapInv liveEq holds.held with ⟨isLive, _⟩
  have same := store_elsewhere heapInv liveEq legal
    (heapInv.live_starts _ isLive)
  constructor
  · rw [live_store]
    exact holds.held
  · rw [Heap.order, same]
    exact holds.order_eq
  · rw [byte_store, ByteOp.stored]
    by_cases here : place = address
    · rw [if_pos here, here, Function.update_self]
      rfl
    · rw [if_neg here, Function.update_of_ne (Ne.symm here)]
      exact holds.byte_eq

/-- What one operation does to the memory of a client. -/
theorem ByteInv.step
    {op : ByteOp}
    (inv : ByteInv source)
    (last : (byteSystem.restrict ByteHeap.Harmless).Step source op target) :
    ByteInv target ∧
      ∀ ptr order address value, Holds source ptr order address value →
        op ≠ .bfree ptr → ptr ≤ address → address < header ptr + 2 ^ order →
          Holds target ptr order address
            ((op.stored address).getD value) := by
  rcases last with ⟨⟨legal, harmless⟩, stepped⟩
  cases op with
  | balloc size =>
      rcases Option.map_eq_some_iff.mp stepped with ⟨clients, result, rfl⟩
      have alone : (heapSystem.restrict Buddy.Harmless).Step source.clients
          (.balloc size) clients :=
        ⟨⟨legal, trivial⟩, result⟩
      rcases inv.follow (fun _ _ same => HeapOp.noConfusion same) alone with
        ⟨inv', holds⟩
      exact ⟨inv', fun ptr order address value before _ =>
        holds ptr order address value before
          fun same => HeapOp.noConfusion same⟩
  | bfree other =>
      rcases Option.map_eq_some_iff.mp stepped with ⟨clients, result, rfl⟩
      have alone : (heapSystem.restrict Buddy.Harmless).Step source.clients
          (.bfree other) clients :=
        ⟨⟨legal, harmless⟩, result⟩
      rcases inv.follow (fun _ _ same => HeapOp.noConfusion same) alone with
        ⟨inv', holds⟩
      refine ⟨inv', fun ptr order address value before notFreed => ?_⟩
      apply holds ptr order address value before
      intro same
      cases same
      exact notFreed rfl
  | store place new =>
      cases stepped
      rcases inv.store legal with ⟨inv', holds⟩
      exact ⟨inv', fun ptr order address value before _ _ _ =>
        holds ptr order address value before⟩

/-- `buddy_init` writes the header of the block which is the whole heap. -/
theorem ByteInv.initial (initial : memory.Initial) : ByteInv memory := by
  rcases initial with
    ⟨order, minOrder, base, before, byte, large, lower, small, aligned, fits,
      result, none, isRead, bytes⟩
  refine ⟨initial_inv ⟨order, minOrder, base, before, large, lower, small,
    aligned, fits, result, none⟩, ?_⟩
  have notNull : base ≠ 0 := by
    rintro rfl
    rw [buddyInit_null] at result
    exact absurd (Prod.mk.inj (Option.some.inj result)).1 (by decide)
  rw [buddyInit_eq before lower (by omega) notNull] at result
  have heapEq := (Prod.mk.inj (Option.some.inj result)).2
  have whole : 2 ^ 5 ∣ 2 ^ order := Nat.pow_dvd_pow 2 (by omega)
  have blank : ByteHeap.Agrees ⟨⟨before, []⟩, byte⟩ := by
    intro bl _ k value isByte
    have found : (before.block bl).image k = some value := isByte
    rw [isRead bl] at found
    exact (image_read found).symm
  have apart : ∀ other,
      memory.clients.heap.block other ≠ before.block other → 32 ∣ other := by
    intro other changed
    by_cases here : other = base
    · rw [here]
      exact whole.trans aligned
    · refine (changed ?_).elim
      have same : memory.heap.block other = before.block other := by
        rw [← heapEq]
        exact Function.update_of_ne here ..
      exact same
  intro bl multiple k value isByte
  rw [bytes]
  exact blank.follow apart bl multiple k value isByte

theorem byteInv_of_reachable
    (reachable :
      (byteSystem.restrict ByteHeap.Harmless).Reachable memory) :
    ByteInv memory :=
  reachable.invariant (fun _ => ByteInv.initial)
    fun _ _ _ inv last => (inv.step last).1

/--
The heap as its clients know it: in every harmless run, a block which is not
released stays where it is with its size, and each byte of what `balloc`
returned is the one which was last stored there, whatever is allocated and
released around it.  The memory always holds the headers at the places where
blocks start.
-/
theorem live_contents_kept
    {ops : List ByteOp}
    (reachable : (byteSystem.restrict ByteHeap.Harmless).Reachable source)
    (run : (byteSystem.restrict ByteHeap.Harmless).Run source ops target)
    (held : ptr ∈ source.live)
    (notFreed : ByteOp.bfree ptr ∉ ops)
    (lower : ptr ≤ address)
    (upper : address < HeapState.blockEnd source.heap (header ptr)) :
    ptr ∈ target.live ∧
      HeapState.blockEnd target.heap (header ptr) =
        HeapState.blockEnd source.heap (header ptr) ∧
      target.byte address =
        (lastStored address ops).getD (source.byte address) ∧
      target.Agrees := by
  have result : ByteInv target ∧ (ByteOp.bfree ptr ∉ ops →
      Holds target ptr (source.heap.order (header ptr)) address
        ((lastStored address ops).getD (source.byte address))) := by
    induction run with
    | nil => exact ⟨byteInv_of_reachable reachable, fun _ => ⟨held, rfl, rfl⟩⟩
    | @snoc _ _ ops op _ last induction =>
        rcases induction fun member =>
          notFreed (List.mem_append_left _ member) with ⟨inv, kept⟩
        rcases inv.step last with ⟨inv', holds⟩
        refine ⟨inv', fun never => ?_⟩
        rw [lastStored_concat]
        refine holds ptr _ address _ ?_ ?_ lower upper
        · exact kept fun member => never (List.mem_append_left _ member)
        · rintro rfl
          exact never (by simp)
  rcases result with ⟨inv, kept⟩
  have holds := kept notFreed
  refine ⟨holds.held, ?_, holds.byte_eq, inv.agrees⟩
  rw [HeapState.blockEnd, HeapState.blockEnd, holds.order_eq]

end

/-! ## Around a block on a small heap -/

/-- Memory which is full of ones before the heap is set up. -/
def worn : Heap :=
  { blankMemory with block := .read fun _ => 0xff }

/-- A heap of 128 bytes at address 4096 with blocks of at least 32 bytes. -/
def smallBytes : ByteHeap where
  clients := ⟨rootHeap 7 5 4096 worn, []⟩
  byte := written worn (rootHeap 7 5 4096 worn) fun _ => 0xff

theorem smallBytes_initial : smallBytes.Initial :=
  ⟨7, 5, 4096, worn, fun _ => 0xff, by decide, by decide, by decide,
    by decide, by decide,
    buddyInit_eq worn (by decide) (by decide) (by decide), rfl,
    fun _ => rfl, rfl⟩

/-- A client has eight bytes, and stores to the first and the last of them. -/
def eightBytes : List ByteOp :=
  [.balloc 8, .store (4096 + 24) 7, .store (4096 + 31) 8]

theorem eightBytes_replayed :
    ((byteSystem.restrict ByteHeap.Harmless).replay smallBytes
      eightBytes).isSome = true := by
  decide +kernel

def afterEightBytes : ByteHeap :=
  ((byteSystem.restrict ByteHeap.Harmless).replay smallBytes
    eightBytes).get eightBytes_replayed

/-- Others allocate and release around it, and it stores again. -/
def aroundIt : List ByteOp :=
  [.balloc 8, .balloc 40, .store (4096 + 24) 9, .store (4096 + 32 + 24) 5,
    .bfree (4096 + 32 + 24), .bfree (4096 + 64 + 24)]

theorem aroundIt_replayed :
    ((byteSystem.restrict ByteHeap.Harmless).replay afterEightBytes
      aroundIt).isSome = true := by
  decide +kernel

def afterAroundIt : ByteHeap :=
  ((byteSystem.restrict ByteHeap.Harmless).replay afterEightBytes
    aroundIt).get aroundIt_replayed

theorem live_contents_kept_eightBytes :
    afterAroundIt.byte (4096 + 24) = 9 ∧
      afterAroundIt.byte (4096 + 31) = 8 := by
  have reachable :
      (byteSystem.restrict ByteHeap.Harmless).Reachable afterEightBytes :=
    System.reachable_of_replay smallBytes_initial (Option.some_get _).symm
  have run : (byteSystem.restrict ByteHeap.Harmless).Run afterEightBytes
      ([] ++ aroundIt) afterAroundIt :=
    System.run_of_replay (.nil _) (Option.some_get _).symm
  have held : 4096 + 24 ∈ afterEightBytes.live := by decide +kernel
  rcases live_contents_kept reachable run held (by decide)
    (show 4096 + 24 ≤ 4096 + 24 by decide) (by decide +kernel) with
      ⟨_, _, first, _⟩
  rcases live_contents_kept reachable run held (by decide)
    (show 4096 + 24 ≤ 4096 + 31 by decide) (by decide +kernel) with
      ⟨_, _, last, _⟩
  exact ⟨first.trans (by decide), last.trans (by decide +kernel)⟩

end ForsKernel.Buddy
