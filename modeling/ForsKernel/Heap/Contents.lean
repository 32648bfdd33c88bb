import ForsKernel.Heap.Runs

/-!
# The headers which the allocator changes

The allocator writes headers of free blocks and of the block it is called
for, all at multiples of 32, and nothing else.  So blocks which clients hold
and do not release are left as they are, whatever is allocated, split,
released and merged around them.
-/

namespace ForsKernel.Buddy

open ForsKernel.Lib.CInt
open ForsKernel.Lib.Dyadic
open ForsKernel.Lib.LinkedList
open ForsKernel.Lib.Transition

/-! ## Edits outside of live blocks -/

/-- The block of `bl` reaches over the address. -/
def Covers
    (heap : Heap)
    (bl address : Nat) :
    Prop :=
  bl ≤ address ∧ address < bl + 2 ^ heap.order bl

/-- Headers change at multiples of 32 only, and not in live blocks. -/
def Keeps
    (heap heap' : Heap)
    (live : List Nat) :
    Prop :=
  ∀ address, heap'.block address ≠ heap.block address →
    32 ∣ address ∧ ∀ bl ∈ live, ¬ Covers heap bl address

/-- A multiple of 32 in a block which is not live. -/
def Foreign
    (heap : Heap)
    (starts : Finset Nat)
    (live : List Nat)
    (address : Nat) :
    Prop :=
  32 ∣ address ∧ ∃ bl ∈ starts, bl ∉ live ∧ Covers heap bl address

section

variable
  {heap heap' heap'' : Heap}
  {starts : Finset Nat}
  {lists : Nat → List Nat}
  {live : List Nat}
  {bl i k address : Nat}

theorem covers_self
    (heap : Heap)
    (bl : Nat) :
    Covers heap bl bl := by
  have positive := Nat.two_pow_pos (heap.order bl)
  exact ⟨le_rfl, by omega⟩

theorem Keeps.refl
    (heap : Heap)
    (live : List Nat) :
    Keeps heap heap live :=
  fun _ changed => (changed rfl).elim

/-- The contents of live blocks stay the same, headers included. -/
theorem Keeps.block_eq
    (keeps : Keeps heap heap' live)
    (isLive : bl ∈ live)
    (covers : Covers heap bl address) :
    heap'.block address = heap.block address := by
  by_contra changed
  exact (keeps address changed).2 bl isLive covers

theorem Keeps.order_eq
    (keeps : Keeps heap heap' live)
    (isLive : bl ∈ live) :
    heap'.order bl = heap.order bl := by
  rw [Heap.order, keeps.block_eq isLive (covers_self heap bl)]
  rfl

theorem Keeps.trans
    (first : Keeps heap heap' live)
    (second : Keeps heap' heap'' live) :
    Keeps heap heap'' live := by
  intro address changed
  by_cases before : heap'.block address = heap.block address
  · rw [← before] at changed
    rcases second address changed with ⟨aligned, outside⟩
    refine ⟨aligned, fun bl isLive covers => outside bl isLive ?_⟩
    rw [Covers, first.order_eq isLive]
    exact covers
  · exact first address before

theorem Keeps.mono
    {live' : List Nat}
    (keeps : Keeps heap heap' live)
    (fewer : ∀ bl ∈ live', bl ∈ live) :
    Keeps heap heap' live' := by
  intro address changed
  rcases keeps address changed with ⟨aligned, outside⟩
  exact ⟨aligned, fun bl isLive => outside bl (fewer bl isLive)⟩

/-- Live blocks are kept if only blocks of others change. -/
theorem Keeps.of_changes
    (inv : HeapInv heap starts lists live)
    (changes : ∀ address, heap'.block address ≠ heap.block address →
      Foreign heap starts live address) :
    Keeps heap heap' live := by
  intro address changed
  rcases changes address changed with ⟨aligned, other, start, dead, inside⟩
  refine ⟨aligned, ?_⟩
  intro bl isLive covers
  have same := inv.tiling.eq_of_meet (inv.live_starts bl isLive) start
    covers inside
  exact dead (same ▸ isLive)

/-- Blocks are at least 32 bytes long, and aligned to their size. -/
theorem aligned_start
    (inv : HeapInv heap starts lists live)
    (start : bl ∈ starts) :
    32 ∣ bl := by
  have lower := inv.geometry.minOrder_ge
  have order := inv.minOrder_le bl start
  have whole : 2 ^ 5 ∣ 2 ^ heap.order bl := Nat.pow_dvd_pow 2 (by omega)
  exact whole.trans (inv.aligned start rfl)

/-- A block which is not live is foreign to those which are. -/
theorem foreign_start
    (inv : HeapInv heap starts lists live)
    (start : bl ∈ starts)
    (dead : bl ∉ live) :
    Foreign heap starts live bl :=
  ⟨aligned_start inv start, bl, start, dead, covers_self heap bl⟩

theorem foreign_listed
    (inv : HeapInv heap starts lists live)
    (member : bl ∈ lists i) :
    Foreign heap starts live bl := by
  have free := (inv.listed i bl).mp member
  exact foreign_start inv free.1
    fun isLive => inv.live_taken bl isLive free.2.2

theorem block_unlinked_of_ne
    (notHere : address ≠ bl)
    (notBefore : heap.prev bl ≠ 0 → address ≠ heap.prev bl)
    (notBehind : heap.next bl ≠ 0 → address ≠ heap.next bl) :
    (unlinked heap bl).block address = heap.block address := by
  have next : ¬ (heap.prev bl ≠ 0 ∧ address = heap.prev bl) :=
    fun both => notBefore both.1 both.2
  have prev : ¬ (heap.next bl ≠ 0 ∧ address = heap.next bl) :=
    fun both => notBehind both.1 both.2
  simp only [unlinked, if_neg notHere, if_neg next, if_neg prev]
  rfl

theorem block_inserted_of_ne
    (notHere : address ≠ bl)
    (notHead : headOf heap bl ≠ 0 → address ≠ headOf heap bl) :
    (inserted heap bl).block address = heap.block address := by
  have prev : ¬ (headOf heap bl ≠ 0 ∧ address = headOf heap bl) :=
    fun both => notHead both.1 both.2
  simp only [inserted, if_neg notHere, if_neg prev]
  rfl

/-- Taking a free block off its list touches free blocks only. -/
theorem keeps_unlink
    (inv : HeapInv heap starts lists live)
    (member : bl ∈ lists i) :
    Keeps heap (unlinked heap bl) live := by
  apply Keeps.of_changes inv
  intro address changed
  have neighbours := inv.listing.neighbours member
  by_contra own
  apply changed
  apply block_unlinked_of_ne
  · rintro rfl
    exact own (foreign_listed inv member)
  · rintro notNull rfl
    exact own (foreign_listed inv (neighbours.2 notNull))
  · rintro notNull rfl
    exact own (foreign_listed inv (neighbours.1 notNull))

/-- Listing a block touches it and the head of the list. -/
theorem keeps_enlist
    (inv : HeapInv heap starts lists live)
    (start : bl ∈ starts)
    (dead : bl ∉ live) :
    Keeps heap (inserted heap bl) live := by
  apply Keeps.of_changes inv
  intro address changed
  by_contra own
  apply changed
  apply block_inserted_of_ne
  · rintro rfl
    exact own (foreign_start inv start dead)
  · rintro notNull rfl
    have range := (inv.inRange start).2
    exact own (foreign_listed inv
      ((inv.listing.list _ range).head_mem notNull))

theorem keeps_setOrder
    (inv : HeapInv heap starts lists live)
    (foreign : Foreign heap starts live bl)
    (value : Nat) :
    Keeps heap (heap.setOrder bl value) live := by
  apply Keeps.of_changes inv
  intro address changed
  by_contra own
  apply changed
  apply Function.update_of_ne
  rintro rfl
  exact own foreign

theorem keeps_setTaken
    (inv : HeapInv heap starts lists live)
    (foreign : Foreign heap starts live bl)
    (value : Nat) :
    Keeps heap (heap.setTaken bl value) live := by
  apply Keeps.of_changes inv
  intro address changed
  by_contra own
  apply changed
  apply Function.update_of_ne
  rintro rfl
  exact own foreign

/-! ## Allocations -/

theorem keeps_split
    {half : Nat}
    (inv : HeapInv heap starts lists live)
    (member : bl ∈ lists (i + 1))
    (result : split heap bl = some (half, heap')) :
    Keeps heap heap' live := by
  have start := inv.listed_start member
  have free := (inv.listed (i + 1) bl).mp member
  have order : heap.order bl = heap.minOrder + i + 1 := by omega
  have positive := Nat.two_pow_pos (heap.minOrder + i)
  rcases cut_inv inv member rfl with ⟨inv₁, dead, halfDead⟩
  have inv₂ := inv₁.enlist (i := i) (Finset.mem_insert_of_mem start)
    (by simp [cut]) dead (by simp [cut])
  cases Option.some.inj (result.symm.trans (split_eq inv member rfl inv₂))
  have unlinks := keeps_unlink inv member
  have inv₀ := inv.unlink member
  have inside : Foreign (unlinked heap bl) starts live
      (bl + 2 ^ (heap.minOrder + i)) := by
    have lower := inv.geometry.minOrder_ge
    have whole : 2 ^ 5 ∣ 2 ^ (heap.minOrder + i) :=
      Nat.pow_dvd_pow 2 (by omega)
    refine ⟨(Nat.dvd_add_right (aligned_start inv start)).mpr whole, bl,
      start, dead, Nat.le_add_right _ _, ?_⟩
    rw [order_unlinked, order, Nat.pow_succ]
    omega
  have cuts : Keeps (unlinked heap bl) (cut heap bl (heap.minOrder + i))
      live := by
    apply Keeps.of_changes inv₀
    intro address changed
    by_contra own
    apply changed
    have notLeft : address ≠ bl := by
      rintro rfl
      exact own (foreign_start inv₀ start dead)
    have notRight : address ≠ bl + 2 ^ (heap.minOrder + i) := by
      rintro rfl
      exact own inside
    exact (Function.update_of_ne notRight ..).trans
      ((Function.update_of_ne notRight ..).trans
        (Function.update_of_ne notLeft ..))
  exact ((unlinks.trans cuts).trans
    (keeps_enlist inv₁ (Finset.mem_insert_of_mem start) dead)).trans
      (keeps_enlist inv₂ (Finset.mem_insert_self _ _) halfDead)

theorem keeps_splitLoop
    (splits : Nat)
    (inv : HeapInv heap starts lists live)
    (member : bl ∈ lists (i + splits))
    (result : splitLoop splits heap bl = some heap') :
    Keeps heap heap' live := by
  induction splits generalizing heap starts lists with
  | zero =>
      cases result
      exact .refl _ live
  | succ splits induction =>
      have listed : bl ∈ lists (i + splits + 1) := member
      rcases split_spec inv listed with
        ⟨heap₁, lists₁, splitEq, inv₁, halved⟩
      rw [splitLoop, splitEq, Option.bind_some] at result
      have member₁ : bl ∈ lists₁ (i + splits) := by
        rw [halved.here]
        simp
      exact (keeps_split inv listed splitEq).trans
        (induction inv₁ member₁ result)

/-- The search stops at the head of a list, or has found nothing. -/
theorem findLarger_head
    {heap : Heap}
    {bl count n found : Nat}
    (result : findLarger heap count n = some (bl, found)) :
    bl = 0 ∨ n ≤ found ∧ heap.getList found = some bl := by
  induction count generalizing n with
  | zero =>
      cases result
      exact .inl rfl
  | succ count induction =>
      rcases Option.bind_eq_some_iff.mp result with ⟨head, isHead, rest⟩
      split at rest
      · cases rest
        exact .inr ⟨le_rfl, isHead⟩
      · rcases induction rest with null | ⟨larger, listed⟩
        · exact .inl null
        · exact .inr ⟨by omega, listed⟩

/-- The head of a list which is not empty is on it. -/
theorem mem_of_getList
    {order : Nat}
    (inv : HeapInv heap starts lists live)
    (isHead : heap.getList order = some bl)
    (notNull : bl ≠ 0) :
    bl ∈ lists (order - heap.minOrder) := by
  have range := inRange_of_getList isHead
  rw [Heap.getList, if_pos range] at isHead
  rw [← Option.some.inj isHead] at notNull ⊢
  exact (inv.listing.list _ range.2).head_mem notNull

theorem removeBlock_listed
    (inv : HeapInv heap starts lists live)
    (member : bl ∈ lists i) :
    removeBlock heap bl = some (unlinked heap bl) := by
  have start := inv.listed_start member
  exact removeBlock_eq (inv.ne_null start) (inv.inRange start)

theorem keeps_balloc
    {size ptr : Nat}
    (inv : HeapInv heap starts lists live)
    (result : balloc size heap = some (ptr, heap')) :
    Keeps heap heap' live := by
  rw [balloc] at result
  split at result
  · cases result
    exact .refl heap live
  split at result
  · cases result
    exact .refl heap live
  simp only [Option.bind_eq_bind, Option.bind_eq_some_iff] at result
  rcases result with ⟨order, _, head, isHead, served⟩
  split at served
  · rename_i notNull
    have member := mem_of_getList inv isHead notNull
    have inv₁ := inv.unlink member
    have start := inv.listed_start member
    simp only [Option.bind_eq_some_iff] at served
    rcases served with ⟨heap₁, first, heap₂, second, returned⟩
    cases returned
    rw [removeBlock_listed inv member] at first
    cases first
    rw [removeBlock_eq (inv.ne_null start) (inv₁.inRange start),
      inv.unlinked_unlinked member] at second
    cases second
    exact keeps_unlink inv member
  · simp only [Option.bind_eq_some_iff] at served
    rcases served with ⟨⟨found, large⟩, search, rest⟩
    split at rest
    · rename_i notNull
      rcases Option.bind_eq_some_iff.mp rest with ⟨heap₁, cutDown, last⟩
      rcases Option.bind_eq_some_iff.mp last with ⟨heap₂, removed, returned⟩
      cases returned
      rcases (findLarger_head search).resolve_left notNull with
        ⟨larger, isFound⟩
      have member := mem_of_getList inv isFound notNull
      have lower := (inRange_of_getList isHead).1
      have reach : order - heap.minOrder + (large - order) =
          large - heap.minOrder := by omega
      rw [← reach] at member
      rcases splitLoop_spec (large - order) inv member with
        ⟨heap₃, _, _, loopEq, inv₃, cut⟩
      cases Option.some.inj (cutDown.symm.trans loopEq)
      rw [removeBlock_listed inv₃ cut.member] at removed
      cases removed
      exact (keeps_splitLoop _ inv member cutDown).trans
        (keeps_unlink inv₃ cut.member)
    · rename_i null
      rw [not_not] at null
      rcases Option.bind_eq_some_iff.mp rest with ⟨_, same, unlinks⟩
      cases same
      rcases Option.bind_eq_some_iff.mp unlinks with ⟨_, removed, _⟩
      rw [null] at removed
      cases removed

/-! ## Releases -/

/-- Two unlisted halves become one listed block. -/
theorem keeps_enlist_joined
    {left : Nat}
    (inv : HeapInv heap starts lists live)
    (halves : Halves heap starts left k)
    (leftTaken : heap.taken left ≠ 0)
    (rightTaken : heap.taken (left + 2 ^ k) ≠ 0)
    (leftDead : left ∉ live)
    (rightDead : left + 2 ^ k ∉ live) :
    Keeps heap (inserted (heap.setOrder left (k + 1)) left) live := by
  have positive := Nat.two_pow_pos k
  have whole := inv.join halves.left_start halves.right_start leftTaken
    rightTaken leftDead rightDead halves.left_order halves.right_order
    halves.aligned
  have start : left ∈ starts.erase (left + 2 ^ k) :=
    Finset.mem_erase.mpr ⟨by omega, halves.left_start⟩
  exact (keeps_setOrder inv (foreign_start inv halves.left_start leftDead)
    (k + 1)).trans (keeps_enlist whole start leftDead)

/-- `merge` of two free halves. -/
theorem keeps_joined_of_free
    {left : Nat}
    (inv : HeapInv heap starts lists live)
    (halves : Halves heap starts left k)
    (leftFree : heap.taken left = 0)
    (rightFree : heap.taken (left + 2 ^ k) = 0) :
    Keeps heap (joined heap left k) live := by
  have positive := Nat.two_pow_pos k
  have leftListed := inv.mem_list halves.left_start leftFree
  have inv₁ := inv.unlink leftListed
  have rightFree₁ : (unlinked heap left).taken (left + 2 ^ k) = 0 := by
    rw [taken_unlinked, if_neg (by omega)]
    exact rightFree
  have rightListed := inv₁.mem_list halves.right_start rightFree₁
  have halves₂ : Halves (unlinked (unlinked heap left) (left + 2 ^ k)) starts
      left k :=
    ⟨halves.left_start, halves.right_start, halves.left_order,
      halves.right_order, halves.small, halves.aligned⟩
  have unlinks := (keeps_unlink inv leftListed).trans
    (keeps_unlink inv₁ rightListed)
  refine unlinks.trans (keeps_enlist_joined (inv₁.unlink rightListed) halves₂
    (by simp) (by simp) ?_ ?_)
  · exact fun isLive => inv.live_taken _ isLive leftFree
  · exact fun isLive => inv.live_taken _ isLive rightFree

/-- `merge` of a released block with its free buddy. -/
theorem keeps_joined_of_live
    {left b : Nat}
    (inv : HeapInv heap starts lists live)
    (halves : Halves heap starts left k)
    (isLive : bl ∈ live)
    (free : heap.taken b = 0)
    (pair : (bl = left ∧ b = left + 2 ^ k) ∨ (b = left ∧ bl = left + 2 ^ k))
    (safe : UnlinkSafe heap bl b) :
    Keeps heap (joined heap left k) (live.erase bl) := by
  rcases unlinked_halves inv halves isLive free pair safe with
    ⟨listed, unlinks⟩
  rcases unlisted_of_live inv halves isLive free pair with
    ⟨taken, unlisted⟩
  have inv₁ := (inv.unlink listed).retire bl
  have first : Keeps heap ((unlinked heap b).setTaken bl 1)
      (live.erase bl) :=
    ((keeps_unlink inv listed).mono fun _ => List.mem_of_mem_erase).trans
      (keeps_setTaken inv₁ (foreign_start inv₁ (inv.live_starts bl isLive)
        inv.live_nodup.not_mem_erase) 1)
  rw [joined, unlinks]
  exact first.trans (keeps_enlist_joined
    (((inv.unlink listed).setTaken taken).retire bl) unlisted.halves
    unlisted.left_taken unlisted.right_taken unlisted.left_dead
    unlisted.right_dead)

/-- A property of the heap and its blocks which joining free halves keeps. -/
def JoinStable
    (live : List Nat)
    (P : Heap → Finset Nat → Prop) :
    Prop :=
  ∀ {heap starts lists left k}, HeapInv heap starts lists live →
    Halves heap starts left k → heap.taken left = 0 →
    heap.taken (left + 2 ^ k) = 0 → P heap starts →
      P (joined heap left k) (starts.erase (left + 2 ^ k))

/-- Such a property holds after the merging loop if it holds before. -/
theorem mergeLoop_rule
    {heap₀ : Heap}
    {P : Heap → Finset Nat → Prop}
    (stable : JoinStable live P)
    (fuel : Nat)
    (inv : HeapInv heap starts lists live)
    (climbed : Climbed heap₀ bl heap k)
    (start : enclosing bl k ∈ starts)
    (safe : ClimbSafe heap₀ bl)
    (holds : P heap starts)
    (result : mergeLoop fuel heap (enclosing bl k) = some heap') :
    ∃ starts' lists', HeapInv heap' starts' lists' live ∧
      P heap' starts' := by
  induction fuel generalizing heap starts lists k with
  | zero => cases result
  | succ fuel induction =>
      rcases climb_pass fuel inv climbed start safe with
        stops | ⟨goes, halves, leftFree, rightFree, climbed'⟩
      · cases Option.some.inj (result.symm.trans stops)
        exact ⟨starts, lists, inv, holds⟩
      · rcases joined_of_free inv halves leftFree rightFree with
          ⟨lists', inv', _⟩
        have positive := Nat.two_pow_pos k
        apply induction inv' climbed'
        · exact Finset.mem_erase.mpr ⟨by omega, halves.left_start⟩
        · exact stable inv halves leftFree rightFree holds
        · exact goes.symm.trans result

/--
What holds after a harmless release: the block of the whole heap stays as it
is, a block whose buddy is in use is listed, and any other block is joined
with its buddy and then carried up.
-/
theorem bfree_rule
    {P : Heap → Finset Nat → Prop}
    (inv : HeapInv heap starts lists live)
    (isLive : bl ∈ live)
    (safe : FreeSafe heap bl)
    (root : heap.order bl = heap.maxOrder → P heap starts)
    (alone : P (inserted heap bl) starts)
    (first : ∀ {left b k}, Halves heap starts left k → heap.taken b = 0 →
      (bl = left ∧ b = left + 2 ^ k) ∨ (b = left ∧ bl = left + 2 ^ k) →
      UnlinkSafe heap bl b →
        P (joined heap left k) (starts.erase (left + 2 ^ k)))
    (stable : JoinStable (live.erase bl) P)
    (result : bfree (bl + sizeofBuddyBlock) heap = some heap') :
    ∃ starts' lists', HeapInv heap' starts' lists' (live.erase bl) ∧
      P heap' starts' := by
  rcases bfree_cases inv isLive safe with
    ⟨top, leaks⟩ | stands | ⟨fuel, b, _, merges, goes⟩
  · cases Option.some.inj (result.symm.trans leaks)
    exact ⟨starts, lists, inv.retire bl, root top⟩
  · cases Option.some.inj (result.symm.trans stands)
    exact ⟨starts, _, (inv.retire bl).enlist (inv.live_starts bl isLive)
      (inv.live_taken bl isLive) inv.live_nodup.not_mem_erase rfl, alone⟩
  · rcases joined_of_live inv merges.halves isLive merges.free merges.pair
      merges.unlinkSafe with ⟨lists', inv'⟩
    exact mergeLoop_rule stable fuel inv' merges.climbed merges.start
      merges.climbSafe (first merges.halves merges.free merges.pair
        merges.unlinkSafe) (goes.symm.trans result)

/-- A harmless release keeps what the other clients hold. -/
theorem keeps_bfree
    (inv : HeapInv heap starts lists live)
    (isLive : bl ∈ live)
    (safe : FreeSafe heap bl)
    (result : bfree (bl + sizeofBuddyBlock) heap = some heap') :
    Keeps heap heap' (live.erase bl) := by
  have kept : ∃ starts' lists', HeapInv heap' starts' lists'
      (live.erase bl) ∧ Keeps heap heap' (live.erase bl) := by
    refine bfree_rule (P := fun after _ => Keeps heap after (live.erase bl))
      inv isLive safe ?_ ?_ ?_ ?_ result
    · exact fun _ => .refl heap _
    · exact keeps_enlist (inv.retire bl) (inv.live_starts bl isLive)
        inv.live_nodup.not_mem_erase
    · exact fun halves free pair unlink =>
        keeps_joined_of_live inv halves isLive free pair unlink
    · exact fun inv' halves leftFree rightFree keeps =>
        keeps.trans (keeps_joined_of_free inv' halves leftFree rightFree)
  rcases kept with ⟨_, _, _, keeps⟩
  exact keeps

end

end ForsKernel.Buddy
