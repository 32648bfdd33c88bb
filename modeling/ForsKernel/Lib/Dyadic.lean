import Mathlib.Data.Nat.Bitwise
import Mathlib.Data.Finset.Basic
import Mathlib.Tactic.Ring

/-!
# Aligned power-of-two blocks

A block of order `k` starts at a multiple of `2 ^ k` and has `2 ^ k`
addresses.  Two such blocks are nested or disjoint, and a block together with
its buddy, which differs from it in bit `k` only, makes up one block of order
`k + 1`.

A tiling covers one large aligned block by disjoint smaller ones.  The key
fact is `Tiling.buddy_mem`: the buddy address of a tile is again the start of
a tile, of the same order or a smaller one.
-/

namespace ForsKernel.Lib.Dyadic

/-- The start of the other half of the enclosing block of order `k + 1`. -/
def buddy (start k : Nat) : Nat :=
  start ^^^ 2 ^ k

/-- The start of the enclosing block of order `k + 1`. -/
def parent (start k : Nat) : Nat :=
  start / 2 ^ (k + 1) * 2 ^ (k + 1)

/-- An address lies in an aligned block when it has the block's quotient. -/
theorem mem_block_iff
    {start address k : Nat}
    (aligned : 2 ^ k ∣ start) :
    start ≤ address ∧ address < start + 2 ^ k ↔
      address / 2 ^ k = start / 2 ^ k := by
  rcases aligned with ⟨quotient, rfl⟩
  have positive : 0 < 2 ^ k := Nat.two_pow_pos k
  rw [Nat.mul_div_cancel_left _ positive, Nat.div_eq_iff positive]
  constructor
  · rintro ⟨lower, upper⟩
    constructor
    · rw [Nat.mul_comm]
      exact lower
    · rw [Nat.mul_comm quotient]
      omega
  · rintro ⟨lower, upper⟩
    rw [Nat.mul_comm] at lower upper
    omega

theorem buddy_aligned
    {start k : Nat}
    (aligned : 2 ^ k ∣ start) :
    2 ^ k ∣ buddy start k := by
  apply Nat.dvd_of_mod_eq_zero
  rw [buddy, Nat.xor_mod_two_pow, Nat.mod_eq_zero_of_dvd aligned,
    Nat.mod_self]
  rfl

/-- Buddies lie in the same block of every larger order. -/
theorem buddy_div
    (start : Nat)
    {k large : Nat}
    (larger : k < large) :
    buddy start k / 2 ^ large = start / 2 ^ large := by
  have small : 2 ^ k / 2 ^ large = 0 :=
    Nat.div_eq_of_lt (Nat.pow_lt_pow_right (by omega) larger)
  rw [buddy, Nat.xor_div_two_pow, small, Nat.xor_zero]

theorem buddy_buddy (start k : Nat) :
    buddy (buddy start k) k = start := by
  rw [buddy, buddy, Nat.xor_assoc, Nat.xor_self, Nat.xor_zero]

/-- A block has different buddies at different orders. -/
theorem buddy_order_injective (start : Nat) :
    Function.Injective (buddy start) := by
  intro j k same
  have power : 2 ^ j = 2 ^ k := Nat.xor_right_injective same
  exact Nat.pow_right_injective le_rfl power

/-- The buddy of a block inside a larger aligned one is inside as well. -/
theorem buddy_inside
    {base top start k : Nat}
    (baseAligned : 2 ^ top ∣ base)
    (aligned : 2 ^ k ∣ start)
    (small : k < top)
    (inside : base ≤ start ∧ start + 2 ^ k ≤ base + 2 ^ top) :
    base ≤ buddy start k ∧ buddy start k + 2 ^ k ≤ base + 2 ^ top := by
  have positive := Nat.two_pow_pos k
  have quotient := (mem_block_iff baseAligned).mp ⟨inside.1, by omega⟩
  rw [← buddy_div start small] at quotient
  rcases (mem_block_iff baseAligned).mpr quotient with ⟨lower, upper⟩
  -- both ends are multiples of the size of the block
  have reach : 2 ^ k ∣ base + 2 ^ top - buddy start k := by
    apply Nat.dvd_sub _ (buddy_aligned aligned)
    have shorter := Nat.pow_dvd_pow 2 (Nat.le_of_lt small)
    exact Nat.dvd_add (shorter.trans baseAligned) shorter
  have size := Nat.le_of_dvd (by omega) reach
  omega

/-- The quotient of the buddy flips its last bit. -/
theorem buddy_eq
    {start k : Nat}
    (aligned : 2 ^ k ∣ start) :
    buddy start k =
      if start / 2 ^ k % 2 = 0 then start + 2 ^ k else start - 2 ^ k := by
  rcases aligned with ⟨quotient, rfl⟩
  have positive : 0 < 2 ^ k := Nat.two_pow_pos k
  have flip : buddy (2 ^ k * quotient) k = 2 ^ k * (quotient ^^^ 1) := by
    have shifted := Nat.shiftLeft_xor_distrib (i := k) (a := quotient) (b := 1)
    simp only [Nat.shiftLeft_eq] at shifted
    rw [buddy, Nat.mul_comm, Nat.mul_comm (2 ^ k) (quotient ^^^ 1), shifted,
      Nat.one_mul]
  rw [flip, Nat.mul_div_cancel_left _ positive]
  split
  · rename_i even
    rw [Nat.xor_one_of_even (Nat.even_iff.mpr even)]
    ring
  · rename_i odd
    rw [Nat.xor_one_of_odd (Nat.odd_iff.mpr (by omega)), Nat.mul_sub,
      Nat.mul_one]

/-- The buddy of the left half is the right half. -/
theorem buddy_of_aligned
    {start k : Nat}
    (aligned : 2 ^ (k + 1) ∣ start) :
    buddy start k = start + 2 ^ k := by
  rw [buddy_eq ((Nat.pow_dvd_pow 2 (Nat.le_succ k)).trans aligned), if_pos]
  rcases aligned with ⟨quotient, rfl⟩
  rw [Nat.pow_succ, Nat.mul_assoc,
    Nat.mul_div_cancel_left _ (Nat.two_pow_pos k), Nat.mul_mod_right]

/-- The enclosing block starts at the lower of the two buddies. -/
theorem parent_eq
    {start k : Nat}
    (aligned : 2 ^ k ∣ start) :
    parent start k = min start (buddy start k) := by
  have positive : 0 < 2 ^ k := Nat.two_pow_pos k
  rw [buddy_eq aligned]
  rcases aligned with ⟨quotient, rfl⟩
  rw [parent, Nat.pow_succ, ← Nat.div_div_eq_div_mul,
    Nat.mul_div_cancel_left _ positive]
  have halves := Nat.div_add_mod quotient 2
  split
  · rename_i even
    rw [Nat.min_eq_left (by omega)]
    have double : quotient / 2 * 2 = quotient := by omega
    calc quotient / 2 * (2 ^ k * 2)
        = 2 ^ k * (quotient / 2 * 2) := by ring
      _ = 2 ^ k * quotient := by rw [double]
  · rename_i odd
    rw [Nat.min_eq_right (by omega)]
    have double : quotient / 2 * 2 = quotient - 1 := by omega
    calc quotient / 2 * (2 ^ k * 2)
        = 2 ^ k * (quotient / 2 * 2) := by ring
      _ = 2 ^ k * quotient - 2 ^ k := by
          rw [double, Nat.mul_sub, Nat.mul_one]

theorem parent_aligned (start k : Nat) : 2 ^ (k + 1) ∣ parent start k :=
  Nat.dvd_mul_left _ _

theorem parent_self
    {start k : Nat}
    (aligned : 2 ^ (k + 1) ∣ start) :
    parent start k = start :=
  Nat.div_mul_cancel aligned

theorem parent_half
    {start k : Nat}
    (aligned : 2 ^ (k + 1) ∣ start) :
    parent (start + 2 ^ k) k = start := by
  have positive : 0 < 2 ^ k := Nat.two_pow_pos k
  have halfAligned : 2 ^ k ∣ start + 2 ^ k :=
    Nat.dvd_add ((Nat.pow_dvd_pow 2 (Nat.le_succ k)).trans aligned)
      (dvd_refl _)
  rw [parent_eq halfAligned, ← buddy_of_aligned aligned, buddy_buddy,
    buddy_of_aligned aligned]
  omega

/-- An aligned block and its buddy are the two halves of the parent. -/
theorem parent_halves
    {start k : Nat}
    (aligned : 2 ^ k ∣ start) :
    (start = parent start k ∧ buddy start k = parent start k + 2 ^ k) ∨
      (buddy start k = parent start k ∧ start = parent start k + 2 ^ k) := by
  have toRight := buddy_of_aligned (parent_aligned start k)
  have lower := parent_eq aligned
  rcases Nat.lt_or_ge start (buddy start k) with left | right
  · have same : parent start k = start := by omega
    rw [same] at toRight ⊢
    exact Or.inl ⟨rfl, toRight⟩
  · have same : parent start k = buddy start k := by omega
    rw [same, buddy_buddy] at toRight
    rw [same]
    exact Or.inr ⟨rfl, toRight⟩

/-- Clearing bit `k` of an aligned word of `width` bits. -/
theorem and_clear_bit
    {start k width : Nat}
    (aligned : 2 ^ k ∣ start)
    (fits : start < 2 ^ width)
    (inWord : k < width) :
    start &&& (2 ^ width - 1 - 2 ^ k) = parent start k := by
  have bound : 2 ^ k < 2 ^ width := Nat.pow_lt_pow_right (by omega) inWord
  have mask : 2 ^ width - 1 - 2 ^ k = 2 ^ width - (2 ^ k + 1) := by omega
  rw [mask, parent, ← Nat.shiftLeft_eq, ← Nat.shiftRight_eq_div_pow]
  apply Nat.eq_of_testBit_eq
  intro i
  rw [Nat.testBit_and, Nat.testBit_two_pow_sub_succ bound,
    Nat.testBit_shiftLeft, Nat.testBit_shiftRight, Nat.testBit_two_pow]
  rcases Nat.lt_trichotomy i k with below | here | above
  · have low : start.testBit i = false := by
      rcases aligned with ⟨quotient, rfl⟩
      rw [Nat.mul_comm, ← Nat.shiftLeft_eq, Nat.testBit_shiftLeft]
      simp
      omega
    simp [low]
    omega
  · subst here
    simp
  · have shifted : k + 1 + (i - (k + 1)) = i := by omega
    have apart : ¬ k = i := by omega
    have reach : k + 1 ≤ i := by omega
    rw [shifted]
    by_cases inside : i < width
    · simp [inside, apart, reach]
    · have high : start.testBit i = false := by
        apply Nat.testBit_lt_two_pow
        exact fits.trans_le (Nat.pow_le_pow_right (by omega) (by omega))
      simp [high]

/-! ## Offsets into a large aligned block -/

/-- Flipping low bits of an address flips them in its offset. -/
theorem offset_xor
    {base top offset mask : Nat}
    (aligned : 2 ^ top ∣ base)
    (inside : offset < 2 ^ top)
    (low : mask < 2 ^ top) :
    (base + offset) ^^^ mask = base + (offset ^^^ mask) := by
  rcases aligned with ⟨quotient, rfl⟩
  apply Nat.eq_of_testBit_eq
  intro i
  rw [Nat.testBit_xor, Nat.testBit_two_pow_mul_add _ inside,
    Nat.testBit_two_pow_mul_add _ (Nat.xor_lt_two_pow inside low),
    Nat.testBit_xor]
  by_cases below : i < top
  · rw [if_pos below, if_pos below]
  · have high : mask.testBit i = false := by
      apply Nat.testBit_lt_two_pow
      exact low.trans_le (Nat.pow_le_pow_right (by omega) (by omega))
    rw [if_neg below, if_neg below, high, Bool.xor_false]

/-- The parent of an address is at the parent of its offset. -/
theorem offset_parent
    {base top offset k : Nat}
    (aligned : 2 ^ top ∣ base)
    (small : k < top) :
    parent (base + offset) k = base + parent offset k := by
  rcases (Nat.pow_dvd_pow 2 small).trans aligned with ⟨quotient, rfl⟩
  rw [parent, parent, Nat.mul_add_div (Nat.two_pow_pos _), Nat.add_mul,
    Nat.mul_comm quotient]

/-! ## Tilings -/

/--
The tiles partition the block of order `top` at `base`: `starts` are their
first addresses and `order` gives their sizes.
-/
structure Tiling
    (base top : Nat)
    (starts : Finset Nat)
    (order : Nat → Nat) :
    Prop where
  aligned : ∀ tile ∈ starts, 2 ^ order tile ∣ tile
  inside : ∀ tile ∈ starts,
    base ≤ tile ∧ tile + 2 ^ order tile ≤ base + 2 ^ top
  disjoint : ∀ tile ∈ starts, ∀ other ∈ starts, tile ≠ other →
    tile + 2 ^ order tile ≤ other ∨ other + 2 ^ order other ≤ tile
  cover : ∀ address, base ≤ address → address < base + 2 ^ top →
    ∃ tile ∈ starts, tile ≤ address ∧ address < tile + 2 ^ order tile

namespace Tiling

variable
  {base top : Nat}
  {starts : Finset Nat}
  {order : Nat → Nat}

/-- One tile alone. -/
theorem single
    (base top : Nat)
    (aligned : 2 ^ top ∣ base)
    (orderEq : order base = top) :
    Tiling base top {base} order where
  aligned := by
    intro tile member
    rw [Finset.mem_singleton.mp member, orderEq]
    exact aligned
  inside := by
    intro tile member
    rw [Finset.mem_singleton.mp member, orderEq]
    exact ⟨le_rfl, le_rfl⟩
  disjoint := by
    intro tile member other otherMember apart
    rw [Finset.mem_singleton.mp member,
      Finset.mem_singleton.mp otherMember] at apart
    exact (apart rfl).elim
  cover := by
    intro address lower upper
    exact ⟨base, by simp, lower, by rw [orderEq]; exact upper⟩

/-- Only the orders of the tiles matter. -/
theorem congr
    {order' : Nat → Nat}
    (tiling : Tiling base top starts order)
    (same : ∀ tile ∈ starts, order' tile = order tile) :
    Tiling base top starts order' where
  aligned := by
    intro tile member
    rw [same tile member]
    exact tiling.aligned tile member
  inside := by
    intro tile member
    rw [same tile member]
    exact tiling.inside tile member
  disjoint := by
    intro tile member other otherMember apart
    rw [same tile member, same other otherMember]
    exact tiling.disjoint tile member other otherMember apart
  cover := by
    intro address lower upper
    rcases tiling.cover address lower upper with ⟨tile, member, within⟩
    exact ⟨tile, member, by rw [same tile member]; exact within⟩

/-- A tile which meets another one is that tile. -/
theorem eq_of_meet
    (tiling : Tiling base top starts order)
    {tile other address : Nat}
    (member : tile ∈ starts)
    (otherMember : other ∈ starts)
    (inTile : tile ≤ address ∧ address < tile + 2 ^ order tile)
    (inOther : other ≤ address ∧ address < other + 2 ^ order other) :
    tile = other := by
  by_contra apart
  rcases tiling.disjoint tile member other otherMember apart with
    before | behind
  · omega
  · omega

theorem order_le
    (tiling : Tiling base top starts order)
    {tile : Nat}
    (member : tile ∈ starts) :
    order tile ≤ top := by
  have inside := tiling.inside tile member
  have size : 2 ^ order tile ≤ 2 ^ top := by omega
  exact (Nat.pow_le_pow_iff_right (by omega)).mp size

/-- The enclosing block of a tile below the top order is inside. -/
theorem parent_inside
    (tiling : Tiling base top starts order)
    (baseAligned : 2 ^ top ∣ base)
    {tile address : Nat}
    (member : tile ∈ starts)
    (small : order tile < top)
    (sameParent : address / 2 ^ (order tile + 1) =
      tile / 2 ^ (order tile + 1)) :
    base ≤ address ∧ address < base + 2 ^ top := by
  rw [mem_block_iff baseAligned]
  have inside := tiling.inside tile member
  have positive := Nat.two_pow_pos (order tile)
  have tileInside : tile / 2 ^ top = base / 2 ^ top :=
    (mem_block_iff baseAligned).mp ⟨inside.1, by omega⟩
  have split : (2 : Nat) ^ top =
      2 ^ (order tile + 1) * 2 ^ (top - (order tile + 1)) := by
    rw [← Nat.pow_add]
    congr 1
    omega
  rw [← tileInside, split, ← Nat.div_div_eq_div_mul,
    ← Nat.div_div_eq_div_mul, sameParent]

/-- The buddy address of a tile starts a tile which is not larger. -/
theorem buddy_mem
    (tiling : Tiling base top starts order)
    (baseAligned : 2 ^ top ∣ base)
    {tile : Nat}
    (member : tile ∈ starts)
    (small : order tile < top) :
    buddy tile (order tile) ∈ starts ∧
      order (buddy tile (order tile)) ≤ order tile := by
  have sameParent := buddy_div tile (Nat.lt_succ_self (order tile))
  have within := tiling.parent_inside baseAligned member small sameParent
  rcases tiling.cover _ within.1 within.2 with
    ⟨other, otherMember, inOther⟩
  have otherAligned := tiling.aligned other otherMember
  by_cases larger : order other ≤ order tile
  · -- the covering tile is no larger, so the aligned address starts it
    have buddyAligned : 2 ^ order other ∣ buddy tile (order tile) :=
      (Nat.pow_dvd_pow 2 larger).trans
        (buddy_aligned (tiling.aligned tile member))
    have quotient := (mem_block_iff otherAligned).mp inOther
    have same : buddy tile (order tile) = other := by
      rw [← Nat.div_mul_cancel buddyAligned, quotient,
        Nat.div_mul_cancel otherAligned]
    rw [same]
    exact ⟨otherMember, larger⟩
  · -- a larger tile would contain the parent, and with it the tile itself
    exfalso
    have quotient := (mem_block_iff otherAligned).mp inOther
    rw [buddy_div tile (by omega)] at quotient
    have inside := (mem_block_iff otherAligned).mpr quotient
    have positive := Nat.two_pow_pos (order tile)
    have same := tiling.eq_of_meet member otherMember
      ⟨le_rfl, by omega⟩ inside
    rw [same] at larger
    exact larger le_rfl

/-- Halve one tile. -/
theorem split
    {order' : Nat → Nat}
    {tile k : Nat}
    (tiling : Tiling base top starts order)
    (member : tile ∈ starts)
    (orderEq : order tile = k + 1)
    (leftOrder : order' tile = k)
    (rightOrder : order' (tile + 2 ^ k) = k)
    (same : ∀ other ∈ starts, other ≠ tile → order' other = order other) :
    Tiling base top (insert (tile + 2 ^ k) starts) order' := by
  have tileAligned := tiling.aligned tile member
  have tileInside := tiling.inside tile member
  have size : 2 ^ order tile = 2 ^ k + 2 ^ k := by
    rw [orderEq, Nat.pow_succ]
    omega
  have positive : 0 < 2 ^ k := Nat.two_pow_pos k
  have halfAligned : 2 ^ k ∣ tile :=
    (Nat.pow_dvd_pow 2 (by omega)).trans tileAligned
  -- every other tile keeps its distance from the whole of the old tile
  have away : ∀ other ∈ starts, other ≠ tile →
      other + 2 ^ order' other ≤ tile ∨ tile + 2 ^ order tile ≤ other := by
    intro other otherMember apart
    rw [same other otherMember apart]
    exact tiling.disjoint other otherMember tile member apart
  have classify : ∀ other ∈ insert (tile + 2 ^ k) starts,
      other = tile + 2 ^ k ∨ other = tile ∨
        (other ∈ starts ∧ other ≠ tile) := by
    intro other otherMember
    rcases Finset.mem_insert.mp otherMember with right | old
    · exact Or.inl right
    · by_cases equal : other = tile
      · exact Or.inr (Or.inl equal)
      · exact Or.inr (Or.inr ⟨old, equal⟩)
  refine ⟨?_, ?_, ?_, ?_⟩
  · intro other otherMember
    rcases classify other otherMember with rfl | rfl | ⟨old, apart⟩
    · rw [rightOrder]
      exact Nat.dvd_add halfAligned (dvd_refl _)
    · rw [leftOrder]
      exact halfAligned
    · rw [same other old apart]
      exact tiling.aligned other old
  · intro other otherMember
    rcases classify other otherMember with rfl | rfl | ⟨old, apart⟩
    · rw [rightOrder]
      omega
    · rw [leftOrder]
      omega
    · rw [same other old apart]
      exact tiling.inside other old
  · intro first firstMember second secondMember apart
    rcases classify first firstMember with rfl | rfl | ⟨old, firstNe⟩
    · rcases classify second secondMember with rfl | rfl | ⟨old', secondNe⟩
      · exact (apart rfl).elim
      · rw [leftOrder]
        exact Or.inr le_rfl
      · rw [rightOrder]
        have := away second old' secondNe
        omega
    · rcases classify second secondMember with rfl | rfl | ⟨old', secondNe⟩
      · rw [leftOrder]
        exact Or.inl le_rfl
      · exact (apart rfl).elim
      · rw [leftOrder]
        have := away second old' secondNe
        omega
    · rcases classify second secondMember with rfl | rfl | ⟨old', secondNe⟩
      · rw [rightOrder]
        have := away first old firstNe
        omega
      · rw [leftOrder]
        have := away first old firstNe
        omega
      · rw [same first old firstNe, same second old' secondNe]
        exact tiling.disjoint first old second old' apart
  · intro address lower upper
    rcases tiling.cover address lower upper with ⟨other, old, within⟩
    by_cases equal : other = tile
    · rw [equal] at within
      by_cases inLeft : address < tile + 2 ^ k
      · exact ⟨tile, Finset.mem_insert_of_mem member, within.1,
          by rw [leftOrder]; exact inLeft⟩
      · exact ⟨tile + 2 ^ k, Finset.mem_insert_self _ _, by omega,
          by rw [rightOrder]; omega⟩
    · exact ⟨other, Finset.mem_insert_of_mem old, within.1,
        by rw [same other old equal]; exact within.2⟩

/-- Join two buddies of the same order. -/
theorem merge
    {order' : Nat → Nat}
    {tile k : Nat}
    (tiling : Tiling base top starts order)
    (left : tile ∈ starts)
    (right : tile + 2 ^ k ∈ starts)
    (leftOrder : order tile = k)
    (rightOrder : order (tile + 2 ^ k) = k)
    (aligned : 2 ^ (k + 1) ∣ tile)
    (newOrder : order' tile = k + 1)
    (same : ∀ other ∈ starts, other ≠ tile → other ≠ tile + 2 ^ k →
      order' other = order other) :
    Tiling base top (starts.erase (tile + 2 ^ k)) order' := by
  have positive : 0 < 2 ^ k := Nat.two_pow_pos k
  have size : 2 ^ (k + 1) = 2 ^ k + 2 ^ k := by
    rw [Nat.pow_succ]
    omega
  have leftInside := tiling.inside tile left
  have rightInside := tiling.inside _ right
  rw [leftOrder] at leftInside
  rw [rightOrder] at rightInside
  have classify : ∀ other ∈ starts.erase (tile + 2 ^ k),
      other = tile ∨
        (other ∈ starts ∧ other ≠ tile ∧ other ≠ tile + 2 ^ k) := by
    intro other otherMember
    rcases Finset.mem_erase.mp otherMember with ⟨notRight, old⟩
    by_cases equal : other = tile
    · exact Or.inl equal
    · exact Or.inr ⟨old, equal, notRight⟩
  have away : ∀ other ∈ starts, other ≠ tile → other ≠ tile + 2 ^ k →
      other + 2 ^ order other ≤ tile ∨
        tile + 2 ^ (k + 1) ≤ other := by
    intro other old notLeft notRight
    have fromLeft := tiling.disjoint other old tile left notLeft
    have fromRight := tiling.disjoint other old _ right notRight
    rw [leftOrder] at fromLeft
    rw [rightOrder] at fromRight
    have otherPositive := Nat.two_pow_pos (order other)
    omega
  refine ⟨?_, ?_, ?_, ?_⟩
  · intro other otherMember
    rcases classify other otherMember with rfl | ⟨old, notLeft, notRight⟩
    · rw [newOrder]
      exact aligned
    · rw [same other old notLeft notRight]
      exact tiling.aligned other old
  · intro other otherMember
    rcases classify other otherMember with rfl | ⟨old, notLeft, notRight⟩
    · rw [newOrder]
      omega
    · rw [same other old notLeft notRight]
      exact tiling.inside other old
  · intro first firstMember second secondMember apart
    rcases classify first firstMember with rfl | ⟨old, notLeft, notRight⟩
    · rcases classify second secondMember with rfl | ⟨old', notLeft', notRight'⟩
      · exact (apart rfl).elim
      · rw [newOrder, same second old' notLeft' notRight']
        exact (away second old' notLeft' notRight').symm
    · rcases classify second secondMember with rfl | ⟨old', notLeft', notRight'⟩
      · rw [newOrder, same first old notLeft notRight]
        exact away first old notLeft notRight
      · rw [same first old notLeft notRight,
          same second old' notLeft' notRight']
        exact tiling.disjoint first old second old' apart
  · intro address lower upper
    have keepLeft : tile ∈ starts.erase (tile + 2 ^ k) :=
      Finset.mem_erase.mpr ⟨by omega, left⟩
    rcases tiling.cover address lower upper with ⟨other, old, within⟩
    by_cases isLeft : other = tile
    · rw [isLeft, leftOrder] at within
      exact ⟨tile, keepLeft, within.1, by rw [newOrder]; omega⟩
    · by_cases isRight : other = tile + 2 ^ k
      · rw [isRight, rightOrder] at within
        exact ⟨tile, keepLeft, by omega, by rw [newOrder]; omega⟩
      · exact ⟨other, Finset.mem_erase.mpr ⟨isRight, old⟩, within.1,
          by rw [same other old isLeft isRight]; exact within.2⟩

end Tiling

end ForsKernel.Lib.Dyadic
