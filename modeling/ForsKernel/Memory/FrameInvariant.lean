import Mathlib.Order.Interval.Finset.Nat
import ForsKernel.Lib.Transition
import ForsKernel.Memory.Frames

/-!
# What the frame allocator keeps true

`Holds pool frames` says that a pool represents an ascending list of frames.
Each operation of the allocator has one specification lemma in these terms.
The last section runs the allocator: from a pool filled in any order, any
sequence of allocations and releases leaves the list equal to the ascending
list of the frames which are not handed out.
-/

namespace ForsKernel.Memory.Frames

open ForsKernel.Lib.LinkedList

/-- The pool represents this ascending list of free frames. -/
structure Holds
    (pool : FramePool)
    (frames : List Nat) :
    Prop where
  list : IsList 0 pool.next pool.prev pool.frameList frames
  ascending : frames.Pairwise (· < ·)
  count : pool.freeFrames = frames.length

namespace Holds

variable
  {pool : FramePool}
  {frames left right : List Nat}

theorem frameList_eq (holds : Holds pool frames) :
    pool.frameList = frontOr 0 frames :=
  holds.list.head_eq

/-- An ascending list is determined by its members. -/
theorem frames_eq
    {other : List Nat}
    (ascending : frames.Pairwise (· < ·))
    (ascending' : other.Pairwise (· < ·))
    (same : ∀ frame, frame ∈ frames ↔ frame ∈ other) :
    frames = other := by
  have perm : frames.Perm other :=
    (List.perm_ext_iff_of_nodup
      (ascending.imp Nat.ne_of_lt) (ascending'.imp Nat.ne_of_lt)).mpr same
  exact perm.eq_of_pairwise
    (fun _ _ _ _ forward backward => (Nat.lt_asymm forward backward).elim)
    ascending ascending'

end Holds

/-! ## Insertion -/

/-- Inserting in front of `curr` is a splice. -/
theorem insertBefore_list
    {pool : FramePool}
    {left rest : List Nat}
    {toIns curr : Nat}
    (list : IsList 0 pool.next pool.prev pool.frameList (left ++ curr :: rest))
    (notNull : toIns ≠ 0)
    (fresh : toIns ∉ left ++ curr :: rest) :
    IsList 0
      (insertBefore pool toIns (backOr 0 left) curr).next
      (insertBefore pool toIns (backOr 0 left) curr).prev
      (insertBefore pool toIns (backOr 0 left) curr).frameList
      (left ++ toIns :: curr :: rest) := by
  have otherNe : ∀ other ∈ left ++ curr :: rest, other ≠ toIns := by
    rintro other member rfl
    exact fresh member
  have currNe : toIns ≠ curr := (otherNe curr (by simp)).symm
  have leftMem : ∀ other ∈ left, other ∈ left ++ curr :: rest := by
    intro other member
    simp [member]
  by_cases empty : left = []
  · subst empty
    simp only [insertBefore, backOr_nil, ne_eq, not_true, if_false]
    apply list.splice notNull fresh
    · simp
    · simp
    · simp
    · intro other member _
      simp [otherNe other member]
    · intro other member isFirst
      simp at isFirst
      simp [isFirst, currNe.symm]
    · intro other member notFirst
      simp at notFirst
      simp [otherNe other member, notFirst]
    · simp
    · simp
  · have lastMem : backOr 0 left ∈ left := backOr_mem 0 empty
    have lastNotNull : backOr 0 left ≠ 0 := list.ne_null (leftMem _ lastMem)
    have lastNe : toIns ≠ backOr 0 left := (otherNe _ (leftMem _ lastMem)).symm
    simp only [insertBefore, ne_eq, lastNotNull, not_false_iff, if_true]
    apply list.splice notNull fresh
    · simp [lastNe]
    · simp
    · intro other _ isLast
      simp [isLast]
    · intro other member notLast
      simp [otherNe other member, notLast]
    · intro other _ isFirst
      simp at isFirst
      simp [isFirst, currNe.symm]
    · intro other member notFirst
      simp at notFirst
      simp [otherNe other member, notFirst]
    · intro isEmpty
      exact (empty isEmpty).elim
    · simp

/-- Inserting behind the last frame is a splice at the far end. -/
theorem insertLast_list
    {pool : FramePool}
    {left : List Nat}
    {toIns curr : Nat}
    (list : IsList 0 pool.next pool.prev pool.frameList (left ++ [curr]))
    (notNull : toIns ≠ 0)
    (fresh : toIns ∉ left ++ [curr]) :
    IsList 0 (insertLast pool toIns curr).next
      (insertLast pool toIns curr).prev
      (insertLast pool toIns curr).frameList
      (left ++ [curr] ++ [toIns]) := by
  have otherNe : ∀ other ∈ left ++ [curr] ++ [], other ≠ toIns := by
    rintro other member rfl
    exact fresh (by simpa using member)
  rw [← List.append_nil (left ++ [curr])] at list fresh
  simp only [insertLast]
  apply list.splice notNull fresh
  · simp
  · simp
  · intro other member isLast
    simp only [backOr_append, backOr_cons, backOr_nil] at isLast
    subst isLast
    simp [otherNe other (by simp)]
  · intro other member notLast
    simp only [backOr_append, backOr_cons, backOr_nil] at notLast
    simp [otherNe other member, notLast]
  · simp
  · intro other member _
    simp [otherNe other member]
  · simp
  · simp

@[simp]
theorem freeFrames_insertBefore
    (pool : FramePool)
    (toIns prev curr : Nat) :
    (insertBefore pool toIns prev curr).freeFrames =
      (pool.freeFrames + 1) % 2 ^ 64 := by
  unfold insertBefore
  split <;> simp [FramePool.addFree]

@[simp]
theorem freeFrames_insertLast
    (pool : FramePool)
    (toIns curr : Nat) :
    (insertLast pool toIns curr).freeFrames =
      (pool.freeFrames + 1) % 2 ^ 64 := by
  simp [insertLast, FramePool.addFree]

/--
The insertion loop, standing between `left` and `right`, finds the place of a
frame which lies above all of `left`.
-/
theorem frameInsertLoop_spec
    {pool : FramePool}
    {toIns : Nat}
    (notNull : toIns ≠ 0)
    (right : List Nat) :
    ∀ (fuel : Nat) (left : List Nat),
      IsList 0 pool.next pool.prev pool.frameList (left ++ right) →
      (left ++ right).Pairwise (· < ·) →
      toIns ∉ left ++ right →
      (∀ frame ∈ left, frame < toIns) →
      right ≠ [] → right.length ≤ fuel →
      ∃ left' right' pool',
        left ++ right = left' ++ right' ∧
        frameInsertLoop fuel pool toIns (backOr 0 left)
          (frontOr 0 right) = some pool' ∧
        IsList 0 pool'.next pool'.prev pool'.frameList
          (left' ++ toIns :: right') ∧
        (∀ frame ∈ left', frame < toIns) ∧
        (∀ frame ∈ right', toIns < frame) ∧
        pool'.freeFrames = (pool.freeFrames + 1) % 2 ^ 64 := by
  induction right with
  | nil =>
      intro fuel left _ _ _ _ nonempty
      exact (nonempty rfl).elim
  | cons curr rest induction =>
      intro fuel left list ascending fresh below _ enough
      cases fuel with
      | zero => simp at enough
      | succ fuel =>
          have currNotNull : curr ≠ 0 := list.ne_null (by simp)
          have nextCurr : pool.next curr = frontOr 0 rest := list.next_eq
          rw [frontOr_cons, frameInsertLoop, if_neg currNotNull]
          by_cases before : toIns < curr
          · rw [if_pos before]
            refine ⟨left, curr :: rest, _, rfl, rfl,
              insertBefore_list list notNull fresh, below, ?_, by simp⟩
            intro frame member
            rcases List.mem_cons.mp member with rfl | member
            · exact before
            · have tail := (List.pairwise_append.mp ascending).2.1
              exact before.trans
                ((List.pairwise_cons.mp tail).1 frame member)
          · rw [if_neg before]
            have notCurr : curr ≠ toIns := by
              rintro rfl
              exact fresh (by simp)
            have belowCurr : ∀ frame ∈ left ++ [curr], frame < toIns := by
              intro frame member
              rcases List.mem_append.mp member with inLeft | isCurr
              · exact below frame inLeft
              · rw [List.mem_singleton.mp isCurr]
                omega
            rw [List.append_cons] at list ascending fresh ⊢
            cases rest with
            | nil =>
                rw [if_pos (by simpa using nextCurr)]
                rw [List.append_nil] at list fresh
                exact ⟨left ++ [curr], [], _, rfl, rfl,
                  insertLast_list list notNull fresh, belowCurr,
                  by simp, by simp⟩
            | cons second more =>
                have notLast : pool.next curr ≠ 0 := by
                  rw [nextCurr]
                  exact list.ne_null (by simp)
                rw [if_neg notLast, nextCurr]
                have found := induction fuel (left ++ [curr]) list ascending
                  fresh belowCurr (by simp) (by simpa using enough)
                simpa using found

/-- `frame_insert` adds exactly the given frame. -/
theorem frameInsert_spec
    {pool : FramePool}
    {frames : List Nat}
    (holds : Holds pool frames)
    {frame : Nat}
    (notNull : frame ≠ 0)
    (fresh : frame ∉ frames)
    (room : frames.length + 1 < 2 ^ 64) :
    ∃ pool' left right,
      frameInsert pool frame = some pool' ∧ frames = left ++ right ∧
      Holds pool' (left ++ frame :: right) := by
  rcases holds with ⟨list, ascending, count⟩
  have wide : (pool.freeFrames + 1) % 2 ^ 64 = frames.length + 1 := by
    rw [count]
    exact Nat.mod_eq_of_lt room
  cases frames with
  | nil =>
      have headNull : pool.frameList = 0 := list.head_eq
      refine ⟨_, [], [], by rw [frameInsert, if_pos headNull], rfl, ?_⟩
      refine ⟨⟨by simp, ?_, by simp, ?_⟩, by simp, ?_⟩
      · simpa using notNull.symm
      · simp
      · simpa [FramePool.addFree] using wide
  | cons first rest =>
      have headNotNull : pool.frameList ≠ 0 := by
        rw [list.head_eq]
        exact list.ne_null (by simp)
      have found := frameInsertLoop_spec notNull (first :: rest)
        traversalFuel [] list ascending fresh (by simp) (by simp)
        (by simp only [traversalFuel]; omega)
      rcases found with
        ⟨left, right, pool', split, returned, list', below, above, counted⟩
      refine ⟨pool', left, right, ?_, split, list', ?_, ?_⟩
      · rw [frameInsert, if_neg headNotNull, list.head_eq]
        exact returned
      · rw [List.nil_append] at split
        rw [split, List.pairwise_append] at ascending
        rw [List.pairwise_append, List.pairwise_cons]
        refine ⟨ascending.1, ⟨above, ascending.2.1⟩, ?_⟩
        intro lower inLeft upper inRight
        rcases List.mem_cons.mp inRight with rfl | inRight
        · exact below lower inLeft
        · exact ascending.2.2 lower inLeft upper inRight
      · rw [counted, wide]
        have lengths := congrArg List.length split
        simp only [List.nil_append, List.length_append] at lengths
        simp only [List.length_append, List.length_cons] at lengths ⊢
        omega

/-! ## Allocation -/

/-- `pfalloc_one` on an empty pool. -/
theorem pfallocOne_nil
    {pool : FramePool}
    (holds : Holds pool []) :
    pfallocOne pool = (0, pool) := by
  have headNull : pool.frameList = 0 := holds.frameList_eq
  rw [pfallocOne, if_pos headNull]

/-- A block of the list has been taken out, and no other link is changed. -/
structure Taken
    (pool pool' : FramePool)
    (left right : List Nat) :
    Prop where
  holds : Holds pool' (left ++ right)
  next : ∀ cell, cell ≠ backOr 0 left → pool'.next cell = pool.next cell
  prev : ∀ cell, cell ≠ frontOr 0 right → pool'.prev cell = pool.prev cell

/-- `pfalloc_one` takes the lowest frame. -/
theorem pfallocOne_cons
    {pool : FramePool}
    {first : Nat}
    {rest : List Nat}
    (holds : Holds pool (first :: rest))
    (fits : (first :: rest).length < 2 ^ 64) :
    (pfallocOne pool).1 = first ∧ Taken pool (pfallocOne pool).2 [] rest := by
  rcases holds with ⟨list, ascending, count⟩
  have headEq : pool.frameList = first := list.head_eq
  have headNotNull : pool.frameList ≠ 0 := by
    rw [headEq]
    exact list.ne_null (by simp)
  have block : IsList 0 pool.next pool.prev pool.frameList
      ([] ++ [first] ++ rest) := list
  have nextFirst : pool.next first = frontOr 0 rest :=
    block.next_block (by simp)
  have counted : pool.freeFrames - 1 = rest.length := by
    simp [count]
  have positive : 1 ≤ pool.freeFrames := by
    simp [count]
  have small : pool.freeFrames < 2 ^ 64 := by
    simpa only [count] using fits
  rw [pfallocOne, if_neg headNotNull]
  refine ⟨headEq, ⟨?_, (List.pairwise_cons.mp ascending).2, ?_⟩, ?_, ?_⟩
  · cases rest with
    | nil =>
        have lastNext : pool.next pool.frameList = 0 := by
          rw [headEq]
          exact nextFirst
        simp only [lastNext, ne_eq, not_true, if_false]
        exact ⟨by simp, by simp, by simp, trivial⟩
    | cons second more =>
        have moreNext : pool.next pool.frameList = second := by
          rw [headEq]
          exact nextFirst
        have secondNotNull : second ≠ 0 := list.ne_null (by simp)
        simp only [moreNext, ne_eq, secondNotNull, not_false_iff, if_true]
        apply block.cut
        · simp
        · simp
        · intro cell _ isFirst
          simp at isFirst
          simp [isFirst]
        · intro cell _ notFirst
          simp at notFirst
          simp [notFirst]
        · simp [moreNext]
        · simp
  · rw [List.nil_append, ← counted]
    split
    · exact FramePool.freeFrames_subFree _ positive small
    · exact FramePool.freeFrames_subFree _ positive small
  · intro cell _
    split <;> simp
  · intro cell notSecond
    rw [← nextFirst, ← headEq] at notSecond
    split <;> simp [notSecond]

/-- The frames of a run of `n` consecutive frames. -/
def runFrom (start n : Nat) : List Nat :=
  List.range' start n archPageSize

theorem runFrom_succ (start n : Nat) :
    runFrom start (n + 1) = runFrom start n ++ [start + archPageSize * n] :=
  List.range'_concat

theorem runFrom_ne_nil
    (start : Nat)
    {n : Nat}
    (positive : 0 < n) :
    runFrom start n ≠ [] := by
  simp [runFrom]
  omega

theorem frontOr_runFrom
    (start : Nat)
    {n : Nat}
    (positive : 0 < n) :
    frontOr 0 (runFrom start n) = start := by
  cases n with
  | zero => exact (Nat.lt_irrefl 0 positive).elim
  | succ n => simp [runFrom, List.range'_succ]

theorem backOr_runFrom
    (start : Nat)
    {n : Nat}
    (positive : 0 < n) :
    backOr 0 (runFrom start n) = start + archPageSize * (n - 1) := by
  cases n with
  | zero => exact (Nat.lt_irrefl 0 positive).elim
  | succ n => simp [runFrom_succ]

/-! The links after the block from `setStart` to `curr` has been cut out. -/

theorem next_cutRun
    (pool : FramePool)
    (n : UInt32)
    (setStart curr cell : Nat) :
    (cutRun pool n setStart curr).next cell =
      if pool.prev setStart ≠ 0 ∧ cell = pool.prev setStart then
        pool.next curr
      else
        pool.next cell := by
  unfold cutRun
  dsimp only
  by_cases inner : pool.prev setStart = 0
  · simp only [inner, ne_eq, not_true, if_false, false_and]
    split <;> simp
  · simp only [ne_eq, inner, not_false_iff, if_true, true_and]
    split <;> simp

theorem prev_cutRun
    {pool : FramePool}
    (n : UInt32)
    {setStart curr : Nat}
    (cell : Nat)
    (apart : pool.prev setStart ≠ 0 → curr ≠ pool.prev setStart) :
    (cutRun pool n setStart curr).prev cell =
      if pool.next curr ≠ 0 ∧ cell = pool.next curr then
        pool.prev setStart
      else
        pool.prev cell := by
  unfold cutRun
  dsimp only
  by_cases inner : pool.prev setStart = 0
  · simp only [inner, ne_eq, not_true, if_false]
    by_cases tail : pool.next curr = 0 <;> simp [tail, inner]
  · simp only [ne_eq, inner, not_false_iff, if_true]
    by_cases tail : pool.next curr = 0 <;> simp [tail, apart inner]

theorem frameList_cutRun
    (pool : FramePool)
    (n : UInt32)
    (setStart curr : Nat) :
    (cutRun pool n setStart curr).frameList =
      if pool.prev setStart = 0 then pool.next curr
      else pool.frameList := by
  unfold cutRun
  dsimp only
  by_cases inner : pool.prev setStart = 0
  · simp only [inner, ne_eq, not_true, if_false, if_true]
    split <;> simp
  · simp only [ne_eq, inner, not_false_iff, if_true, if_false]
    split <;> simp

/-- Cutting a block out of the list, as `pfalloc_consecutive` does it. -/
theorem cutRun_spec
    {pool : FramePool}
    {left middle right : List Nat}
    {n : UInt32}
    (holds : Holds pool (left ++ middle ++ right))
    (nonempty : middle ≠ [])
    (size : middle.length = n.toNat)
    (fits : (left ++ middle ++ right).length < 2 ^ 64) :
    Taken pool (cutRun pool n (frontOr 0 middle) (backOr 0 middle))
      left right := by
  rcases holds with ⟨list, ascending, count⟩
  have nextLast := list.next_block nonempty
  have prevFirst := list.prev_block nonempty
  have nodup := list.nodup
  rw [List.append_assoc, List.nodup_append] at nodup
  have lastNe : backOr 0 left ≠ 0 → backOr 0 middle ≠ backOr 0 left := by
    intro notNull equal
    have inLeft : backOr 0 left ∈ left := by
      apply backOr_mem
      rintro rfl
      exact notNull rfl
    have inMiddle : backOr 0 middle ∈ middle ++ right := by
      simp [backOr_mem 0 nonempty]
    exact nodup.2.2 _ inLeft _ inMiddle equal.symm
  have counted : pool.freeFrames - n.toNat = (left ++ right).length := by
    rw [count, ← size]
    simp only [List.length_append]
    omega
  have enough : n.toNat ≤ pool.freeFrames := by
    rw [count, ← size]
    simp only [List.length_append]
    omega
  have small : pool.freeFrames < 2 ^ 64 := by
    rw [count]
    exact fits
  have apart : pool.prev (frontOr 0 middle) ≠ 0 →
      backOr 0 middle ≠ pool.prev (frontOr 0 middle) := by
    rw [prevFirst]
    exact lastNe
  have nextKept : ∀ cell, cell ≠ backOr 0 left →
      (cutRun pool n (frontOr 0 middle) (backOr 0 middle)).next cell =
        pool.next cell := by
    intro cell notLast
    rw [next_cutRun, prevFirst, if_neg (fun both => notLast both.2)]
  have prevKept : ∀ cell, cell ≠ frontOr 0 right →
      (cutRun pool n (frontOr 0 middle) (backOr 0 middle)).prev cell =
        pool.prev cell := by
    intro cell notFirst
    rw [prev_cutRun _ _ apart, nextLast,
      if_neg (fun both => notFirst both.2)]
  refine ⟨⟨?_, ascending.sublist (by simp), ?_⟩, nextKept, prevKept⟩
  · apply list.cut
    · intro cell member isLast
      have notNull : backOr 0 left ≠ 0 := by
        rw [← isLast]
        exact list.ne_null (by simp [member])
      rw [next_cutRun, prevFirst, nextLast, if_pos ⟨notNull, isLast⟩]
    · intro cell _
      exact nextKept cell
    · intro cell member isFirst
      have notNull : frontOr 0 right ≠ 0 := by
        rw [← isFirst]
        exact list.ne_null (by simp [member])
      rw [prev_cutRun _ _ apart, nextLast, prevFirst,
        if_pos ⟨notNull, isFirst⟩]
    · intro cell _
      exact prevKept cell
    · rintro rfl
      rw [frameList_cutRun, prevFirst, nextLast]
      rfl
    · intro leftNonempty
      rw [frameList_cutRun, prevFirst, if_neg]
      exact list.ne_null (by simp [backOr_mem 0 leftNonempty])
  · rw [← counted]
    unfold cutRun
    dsimp only
    split <;> split <;>
      exact FramePool.freeFrames_subFree _ enough small

/-! ## Searching for a run -/

/-- The pool represents a list of 64-bit addresses. -/
structure FreeList
    (pool : FramePool)
    (frames : List Nat) :
    Prop extends
      Holds pool frames where
  fits : ∀ frame ∈ frames, frame < 2 ^ 64

/-- The frames begin at page boundaries. -/
def PageAligned (frames : List Nat) : Prop :=
  ∀ frame ∈ frames, frame % archPageSize = 0

instance (frames : List Nat) : Decidable (PageAligned frames) :=
  inferInstanceAs (Decidable (∀ frame ∈ frames, frame % archPageSize = 0))

/-- There are fewer frames than addresses, `NULL` not being a frame. -/
theorem length_lt_of_nodup
    {frames : List Nat}
    (nodup : frames.Nodup)
    (notNull : ∀ frame ∈ frames, frame ≠ 0)
    (fits : ∀ frame ∈ frames, frame < 2 ^ 64) :
    frames.length < 2 ^ 64 := by
  have bounded : frames.toFinset ⊆ Finset.Ico 1 (2 ^ 64) := by
    intro frame member
    rw [List.mem_toFinset] at member
    have positive := notNull frame member
    have below := fits frame member
    rw [Finset.mem_Ico]
    omega
  have card := Finset.card_le_card bounded
  rw [List.toFinset_card_of_nodup nodup, Nat.card_Ico] at card
  omega

theorem FreeList.length_lt
    {pool : FramePool}
    {frames : List Nat}
    (free : FreeList pool frames) :
    frames.length < 2 ^ 64 :=
  length_lt_of_nodup free.list.nodup (fun _ => free.list.ne_null) free.fits

/-- All of the `n` frames from `start` on are in the list. -/
def FreeRun
    (frames : List Nat)
    (start n : Nat) :
    Prop :=
  ∀ frame ∈ runFrom start n, frame ∈ frames

instance
    (frames : List Nat)
    (start n : Nat) :
    Decidable (FreeRun frames start n) :=
  inferInstanceAs (Decidable (∀ frame ∈ runFrom start n, frame ∈ frames))

theorem mem_runFrom {start n frame : Nat} :
    frame ∈ runFrom start n ↔ ∃ i < n, frame = start + archPageSize * i :=
  List.mem_range'

/--
How long a run the loop of `pfalloc_consecutive` looks for.  The counter has
32 bits, so zero is met after `2 ^ 32` frames.
-/
def searched (n : UInt32) : Nat :=
  if n = 0 then 2 ^ 32 else n.toNat

theorem searched_of_pos
    {n : UInt32}
    (positive : 1 ≤ n.toNat) :
    searched n = n.toNat := by
  rw [searched, if_neg]
  rintro rfl
  exact absurd positive (by decide)

theorem searched_le (n : UInt32) : searched n ≤ 2 ^ 32 := by
  have small := n.toNat_lt
  rw [searched]
  split <;> omega

theorem searched_pos (n : UInt32) : 0 < searched n := by
  by_cases zero : n = 0
  · rw [searched, if_pos zero]
    decide
  · have positive : n.toNat ≠ 0 := fun null =>
      zero (UInt32.toNat_inj.mp null)
    rw [searched, if_neg zero]
    omega

theorem one_lt_searched
    {n : UInt32}
    (notOne : 1 ≠ n) :
    1 < searched n := by
  have positive := searched_pos n
  by_contra small
  have one : searched n = 1 := by omega
  rw [searched] at one
  split at one
  · exact absurd one (by decide)
  · exact notOne (UInt32.toNat_inj.mp one.symm)

/-- The test which ends the loop compares with the length searched for. -/
theorem reached_iff (soFar n : UInt32) :
    soFar + 1 = n ↔ soFar.toNat + 1 = searched n := by
  have small := soFar.toNat_lt
  have small' := n.toNat_lt
  rw [← UInt32.toNat_inj, UInt32.toNat_add, UInt32.toNat_one, searched]
  by_cases zero : n = 0
  · rw [if_pos zero, zero, UInt32.toNat_zero]
    omega
  · have positive : n.toNat ≠ 0 := fun null =>
      zero (UInt32.toNat_inj.mp null)
    rw [if_neg zero]
    omega

/--
A run which is too short and followed by a gap cannot be part of a run of the
length searched for.
-/
theorem run_passed
    {left right : List Nat}
    {start k n a : Nat}
    (ascending : (left ++ runFrom start k ++ right).Pairwise (· < ·))
    (positive : 0 < k)
    (short : k < n)
    (gap : ∀ frame ∈ right, start + archPageSize * k < frame)
    (run : FreeRun (left ++ runFrom start k ++ right) a n)
    (reached : start ≤ a) :
    a ∈ right := by
  rw [List.append_assoc, List.pairwise_append] at ascending
  have startRun : start ∈ runFrom start k :=
    mem_runFrom.mpr ⟨0, positive, by simp⟩
  have below : ∀ frame ∈ left, frame < start := by
    intro frame member
    exact ascending.2.2 frame member start (by simp [startRun])
  have listed := run a (mem_runFrom.mpr ⟨0, by omega, by simp⟩)
  rw [List.append_assoc, List.mem_append, List.mem_append] at listed
  rcases listed with inLeft | inRun | inRight
  · exact absurd (below a inLeft) (by omega)
  · rcases mem_runFrom.mp inRun with ⟨j, inside, rfl⟩
    -- the frame just behind the short run would have to be free
    have behind : start + archPageSize * k ∈
        runFrom (start + archPageSize * j) n := by
      apply mem_runFrom.mpr
      refine ⟨k - j, by omega, ?_⟩
      simp only [archPageSize]
      omega
    have free := run _ behind
    rw [List.append_assoc, List.mem_append, List.mem_append] at free
    rcases free with inLeft | inRun | inRight
    · exact absurd (below _ inLeft) (by omega)
    · rcases mem_runFrom.mp inRun with ⟨i, inside, same⟩
      simp only [archPageSize] at same
      omega
    · exact absurd (gap _ inRight) (Nat.lt_irrefl _)
  · exact inRight

/--
The search loop, standing behind a run of `soFar` frames which starts at
`setStart`.  It stops at a run of the length searched for, or at the end of
the list.  Among page frames there is no such run further down.
-/
theorem searchLoop_spec
    {pool : FramePool}
    {n : UInt32}
    (notOne : 1 ≠ n)
    (right : List Nat) :
    ∀ (fuel : Nat) (left : List Nat) (setStart : Nat) (soFar : UInt32),
      FreeList pool (left ++ runFrom setStart soFar.toNat ++ right) →
      0 < soFar.toNat → soFar.toNat < searched n → right.length < fuel →
      (PageAligned (left ++ runFrom setStart soFar.toNat ++ right) →
        ∀ a, FreeRun (left ++ runFrom setStart soFar.toNat ++ right) a
          (searched n) → setStart ≤ a) →
      ∃ setStart' curr' soFar',
        searchLoop fuel pool n setStart (frontOr 0 right) soFar =
          some (setStart', curr', soFar') ∧
        (soFar' ≠ n ∧
          (PageAligned (left ++ runFrom setStart soFar.toNat ++ right) →
            ∀ a, ¬ FreeRun (left ++ runFrom setStart soFar.toNat ++ right) a
              (searched n)) ∨
          soFar' = n ∧
          curr' = backOr 0 (runFrom setStart' (searched n)) ∧
          (PageAligned (left ++ runFrom setStart soFar.toNat ++ right) →
            ∀ a, FreeRun (left ++ runFrom setStart soFar.toNat ++ right) a
              (searched n) → setStart' ≤ a) ∧
          ∃ left' right', left ++ runFrom setStart soFar.toNat ++ right =
            left' ++ runFrom setStart' (searched n) ++ right') := by
  induction right with
  | nil =>
      intro fuel left setStart soFar free positive short enough lowest
      cases fuel with
      | zero => exact (Nat.not_lt_zero _ enough).elim
      | succ fuel =>
          refine ⟨setStart, 0, soFar, by simp [searchLoop], Or.inl ⟨?_, ?_⟩⟩
          · rintro rfl
            rw [searched_of_pos positive] at short
            exact Nat.lt_irrefl _ short
          · intro aligned a run
            have later := run_passed free.ascending positive short (by simp)
              run (lowest aligned a run)
            simp at later
  | cons curr rest induction =>
      intro fuel left setStart soFar free positive short enough lowest
      cases fuel with
      | zero => exact (Nat.not_lt_zero _ enough).elim
      | succ fuel =>
          have currNotNull : curr ≠ 0 := free.list.ne_null (by simp)
          have nextCurr : pool.next curr = frontOr 0 rest :=
            free.list.next_eq
          have prevCurr : pool.prev curr =
              setStart + archPageSize * (soFar.toNat - 1) := by
            rw [free.list.prev_eq, backOr_append_of_ne_nil 0 _
              (runFrom_ne_nil _ positive), backOr_runFrom _ positive]
          have currFits : curr < 2 ^ 64 := free.fits curr (by simp)
          have prevMem : pool.prev curr ∈
              left ++ runFrom setStart soFar.toNat := by
            rw [prevCurr, ← backOr_runFrom setStart positive]
            simp [backOr_mem 0 (runFrom_ne_nil setStart positive)]
          have prevBelow : pool.prev curr < curr :=
            (List.pairwise_append.mp free.ascending).2.2 _ prevMem curr
              (by simp)
          rw [frontOr_cons, searchLoop, if_neg currNotNull]
          by_cases adjacent :
              curr = (pool.prev curr + archPageSize) % 2 ^ 64
          · rw [if_pos adjacent]
            have currEq : curr = setStart + archPageSize * soFar.toNat := by
              simp only [archPageSize] at adjacent prevCurr ⊢
              omega
            have regroup :
                left ++ runFrom setStart soFar.toNat ++ curr :: rest =
                  left ++ runFrom setStart (soFar.toNat + 1) ++ rest := by
              rw [runFrom_succ, ← currEq]
              simp
            by_cases reached : soFar + 1 = n
            · rw [if_pos reached]
              have counted := (reached_iff soFar n).mp reached
              refine ⟨setStart, curr, soFar + 1, rfl,
                Or.inr ⟨reached, ?_, lowest, left, rest, ?_⟩⟩
              · rw [← counted, backOr_runFrom _ (by omega), currEq]
                simp
              · rw [regroup, counted]
            · rw [if_neg reached, nextCurr]
              have notYet : soFar.toNat + 1 < searched n := by
                have differs := mt (reached_iff soFar n).mpr reached
                omega
              have grown : (soFar + 1).toNat = soFar.toNat + 1 := by
                have wide : searched n ≤ 2 ^ 32 := searched_le n
                rw [UInt32.toNat_add, UInt32.toNat_one]
                omega
              rw [regroup, ← grown] at free lowest ⊢
              exact induction fuel left setStart (soFar + 1) free
                (by omega) (by omega) (by simpa using enough) lowest
          · rw [if_neg adjacent, nextCurr]
            -- the next page frame is more than a page away
            have gap : PageAligned
                (left ++ runFrom setStart soFar.toNat ++ curr :: rest) →
                ∀ frame ∈ curr :: rest,
                  setStart + archPageSize * soFar.toNat < frame := by
              intro aligned frame member
              have behind : setStart + archPageSize * soFar.toNat < curr := by
                have alignedPrev := aligned (pool.prev curr)
                  (List.mem_append_left _ prevMem)
                have alignedCurr := aligned curr (by simp)
                simp only [archPageSize]
                  at alignedPrev alignedCurr adjacent prevCurr ⊢
                omega
              rcases List.mem_cons.mp member with rfl | later
              · exact behind
              · have tail := (List.pairwise_append.mp free.ascending).2.1
                exact behind.trans ((List.pairwise_cons.mp tail).1 _ later)
            have lowest' : PageAligned
                (left ++ runFrom setStart soFar.toNat ++ curr :: rest) →
                ∀ a, FreeRun
                  (left ++ runFrom setStart soFar.toNat ++ curr :: rest) a
                  (searched n) → curr ≤ a := by
              intro aligned a run
              have later := run_passed free.ascending positive short
                (gap aligned) run (lowest aligned a run)
              rcases List.mem_cons.mp later with rfl | later
              · exact Nat.le_refl _
              · have tail := (List.pairwise_append.mp free.ascending).2.1
                exact Nat.le_of_lt ((List.pairwise_cons.mp tail).1 _ later)
            have regroup :
                left ++ runFrom setStart soFar.toNat ++ curr :: rest =
                  (left ++ runFrom setStart soFar.toNat) ++
                    runFrom curr (1 : UInt32).toNat ++ rest := by
              simp [runFrom]
            rw [regroup] at free lowest' ⊢
            exact induction fuel (left ++ runFrom setStart soFar.toNat) curr
              1 free (by decide) (one_lt_searched notOne)
              (by simpa using enough) lowest'

/--
`pfalloc_consecutive` always returns: either nothing changed, or the frames of
a run have left the list.  Page frames are not passed over.
-/
theorem pfallocConsecutive_spec
    {pool : FramePool}
    {frames : List Nat}
    (free : FreeList pool frames)
    (n : UInt32) :
    ∃ ptr pool', pfallocConsecutive pool n = some (ptr, pool') ∧
      (ptr = 0 ∧ pool' = pool ∧
          (PageAligned frames → ∀ a, ¬ FreeRun frames a (searched n)) ∨
        ptr ≠ 0 ∧
        (PageAligned frames → ∀ a, FreeRun frames a (searched n) → ptr ≤ a) ∧
        ∃ left right, frames = left ++ runFrom ptr (searched n) ++ right ∧
          (1 ≤ n.toNat → Taken pool pool' left right)) := by
  have few := free.length_lt
  cases frames with
  | nil =>
      have headNull : pool.frameList = 0 := free.frameList_eq
      refine ⟨0, pool, by rw [pfallocConsecutive, if_pos headNull],
        Or.inl ⟨rfl, rfl, ?_⟩⟩
      intro _ a run
      have listed := run a (mem_runFrom.mpr ⟨0, searched_pos n, by simp⟩)
      simp at listed
  | cons first rest =>
      have headEq : pool.frameList = first := free.frameList_eq
      have firstNotNull : first ≠ 0 := free.list.ne_null (by simp)
      have headNotNull : pool.frameList ≠ 0 := by
        rw [headEq]
        exact firstNotNull
      have lowest : ∀ a, FreeRun (first :: rest) a (searched n) →
          first ≤ a := by
        intro a run
        have listed := run a (mem_runFrom.mpr ⟨0, searched_pos n, by simp⟩)
        rcases List.mem_cons.mp listed with rfl | later
        · exact Nat.le_refl _
        · exact Nat.le_of_lt
            ((List.pairwise_cons.mp free.ascending).1 _ later)
      rw [pfallocConsecutive, if_neg headNotNull]
      by_cases single : n = 1
      · rw [if_pos single]
        rcases pfallocOne_cons free.toHolds few with ⟨ptrEq, taken⟩
        refine ⟨first, (pfallocOne pool).2, ?_,
          Or.inr ⟨firstNotNull, fun _ => lowest, [], rest, ?_, ?_⟩⟩
        · rw [← ptrEq]
        · rw [single]
          rfl
        · exact fun _ => taken
      · rw [if_neg single, headEq]
        have block : first :: rest =
            [] ++ runFrom first (1 : UInt32).toNat ++ rest := rfl
        have nextFirst : pool.next first = frontOr 0 rest :=
          IsList.next_block (block ▸ free.list) (by simp [runFrom])
        have found := searchLoop_spec (Ne.symm single) rest traversalFuel []
          first 1 (block ▸ free) (by decide) (one_lt_searched (Ne.symm single))
          (by simp only [traversalFuel, List.length_cons] at few ⊢; omega)
          (fun _ => block ▸ lowest)
        rw [← nextFirst, ← block] at found
        rcases found with ⟨setStart, curr, soFar, returned,
          ⟨short, nothing⟩ | ⟨complete, currEq, lowest', left, right, split⟩⟩
        · rw [returned]
          exact ⟨0, pool, if_neg short, Or.inl ⟨rfl, rfl, nothing⟩⟩
        · rw [returned]
          have nonempty := runFrom_ne_nil setStart (searched_pos n)
          have startMem : setStart ∈ first :: rest := by
            rw [split]
            have front := frontOr_mem 0 nonempty
            rw [frontOr_runFrom setStart (searched_pos n)] at front
            simp [front]
          refine ⟨setStart, cutRun pool n setStart curr, if_pos complete,
            Or.inr ⟨free.list.ne_null startMem, lowest', left, right, split,
              ?_⟩⟩
          intro positive
          have holds := free.toHolds
          rw [split] at holds few
          have size : (runFrom setStart (searched n)).length = n.toNat := by
            rw [searched_of_pos positive]
            simp [runFrom]
          have cut := cutRun_spec holds nonempty size few
          rwa [frontOr_runFrom setStart (searched_pos n), ← currEq] at cut

/-! ## Whole runs -/

/-- A set of frames the boot code can hand to the allocator. -/
structure FrameSet where
  frames : Finset Nat
  ne_null : ∀ frame ∈ frames, frame ≠ 0
  aligned : ∀ frame ∈ frames, frame % archPageSize = 0
  fits : ∀ frame ∈ frames, frame < 2 ^ 64
  few : frames.card < 2 ^ 32

/-- The allocator with a record of the frames its clients hold. -/
structure FrameSystem where
  pool : FramePool
  allocated : Finset Nat

/-- What the clients of the allocator can do. -/
inductive FrameOp where
  | allocOne
  | allocConsecutive (n : UInt32)
  | freeOne (pf : Nat)
  | write (frame : Nat) (contents : FrameMarker)

/-- The record after a call which asked for `n` frames has returned `ptr`. -/
def handOut
    (allocated : Finset Nat)
    (ptr n : Nat) :
    Finset Nat :=
  if ptr = 0 then allocated else allocated ∪ (runFrom ptr n).toFinset

/-- Only frames which are held may be released or written to. -/
def FrameOp.legal (state : FrameSystem) : FrameOp → Prop
  | .allocOne => True
  | .allocConsecutive _ => True
  | .freeOne pf => pf ∈ state.allocated
  | .write frame _ => frame ∈ state.allocated

def FrameSystem.step (state : FrameSystem) : FrameOp → Option FrameSystem
  | .allocOne =>
      let result := pfallocOne state.pool
      some ⟨result.2, handOut state.allocated result.1 1⟩
  | .allocConsecutive n =>
      (pfallocConsecutive state.pool n).map fun result =>
        ⟨result.2, handOut state.allocated result.1 n.toNat⟩
  | .freeOne pf =>
      (pffreeOne state.pool pf).map fun pool =>
        ⟨pool, state.allocated.erase pf⟩
  | .write frame contents =>
      some { state with
        pool := { state.pool with
          marker := Function.update state.pool.marker frame contents } }

/-- Insert the frames of a list one after the other into an empty pool. -/
def fillPool
    (marker : Nat → FrameMarker)
    (order : List Nat) :
    Option FramePool :=
  order.foldlM frameInsert ⟨marker, 0, 0⟩

/-- The allocator filled with the frames of `initial` in any order. -/
def frameSystem (initial : FrameSet) :
    Lib.Transition.System FrameSystem FrameOp where
  init state :=
    state.allocated = ∅ ∧
      ∃ marker order, order.Nodup ∧ order.toFinset = initial.frames ∧
        fillPool marker order = some state.pool
  legal state op := op.legal state
  step := FrameSystem.step

/--
The free frames are an ascending, consistently linked and correctly counted
list, and with the frames handed out they make up the initial set.
-/
structure FrameInvariant
    (initial : FrameSet)
    (state : FrameSystem)
    (frames : List Nat) :
    Prop where
  holds : Holds state.pool frames
  disjoint : Disjoint frames.toFinset state.allocated
  partition : frames.toFinset ∪ state.allocated = initial.frames

namespace FrameInvariant

variable
  {initial : FrameSet}
  {state : FrameSystem}
  {frames : List Nat}

theorem mem_initial
    (inv : FrameInvariant initial state frames)
    {frame : Nat}
    (member : frame ∈ frames) :
    frame ∈ initial.frames := by
  rw [← inv.partition]
  simp [member]

theorem not_allocated
    (inv : FrameInvariant initial state frames)
    {frame : Nat}
    (member : frame ∈ frames) :
    frame ∉ state.allocated :=
  Finset.disjoint_left.mp inv.disjoint (List.mem_toFinset.mpr member)

theorem length_lt (inv : FrameInvariant initial state frames) :
    frames.length < 2 ^ 32 := by
  have card : frames.toFinset.card = frames.length :=
    List.toFinset_card_of_nodup inv.holds.list.nodup
  have subset : frames.toFinset ⊆ initial.frames := by
    rw [← inv.partition]
    exact Finset.subset_union_left
  have bound := Finset.card_le_card subset
  have few := initial.few
  omega

theorem free (inv : FrameInvariant initial state frames) :
    FreeList state.pool frames :=
  ⟨inv.holds,
    fun frame member => initial.fits frame (inv.mem_initial member)⟩

/-- There are too few frames for a run as long as the counter's range. -/
theorem searched_eq
    (inv : FrameInvariant initial state frames)
    {n : UInt32}
    {left right : List Nat}
    {ptr : Nat}
    (split : frames = left ++ runFrom ptr (searched n) ++ right) :
    1 ≤ n.toNat ∧ searched n = n.toNat := by
  have short := inv.length_lt
  have positive : 1 ≤ n.toNat := by
    by_contra zero
    have isZero : n = 0 := UInt32.toNat_inj.mp (by simp; omega)
    rw [split, isZero] at short
    simp [searched, runFrom] at short
    omega
  exact ⟨positive, searched_of_pos positive⟩

/-- The list depends only on which frames are free. -/
theorem eq_sort (inv : FrameInvariant initial state frames) :
    frames = (initial.frames \ state.allocated).sort := by
  apply Holds.frames_eq inv.holds.ascending
  · exact (Finset.sortedLT_sort _).pairwise
  · intro frame
    rw [Finset.mem_sort, Finset.mem_sdiff]
    constructor
    · intro member
      exact ⟨inv.mem_initial member, inv.not_allocated member⟩
    · rintro ⟨member, free⟩
      rw [← inv.partition, Finset.mem_union, List.mem_toFinset] at member
      exact member.resolve_right free

/-- A block of the list moves from the free to the allocated frames. -/
theorem hand_out
    {left right : List Nat}
    {pool : FramePool}
    {ptr n : Nat}
    (inv : FrameInvariant initial state (left ++ runFrom ptr n ++ right))
    (notNull : ptr ≠ 0)
    (holds : Holds pool (left ++ right)) :
    FrameInvariant initial ⟨pool, handOut state.allocated ptr n⟩
      (left ++ right) := by
  have nodup := inv.holds.list.nodup
  rw [List.append_assoc, List.nodup_append, List.nodup_append] at nodup
  refine ⟨holds, ?_, ?_⟩
  · rw [Finset.disjoint_left]
    intro frame member
    have inSides : frame ∈ left ++ right := List.mem_toFinset.mp member
    have inList : frame ∈ left ++ runFrom ptr n ++ right := by
      simp only [List.mem_append] at inSides ⊢
      tauto
    have outside : frame ∉ runFrom ptr n := by
      intro inRun
      rcases List.mem_append.mp inSides with inLeft | inRight
      · exact nodup.2.2 frame inLeft frame (by simp [inRun]) rfl
      · exact nodup.2.1.2.2 frame inRun frame inRight rfl
    simp [handOut, notNull, inv.not_allocated inList, outside]
  · rw [← inv.partition, handOut, if_neg notNull]
    ext frame
    simp only [Finset.mem_union, List.mem_toFinset, List.mem_append]
    tauto

end FrameInvariant

/-- Filling a pool adds the frames of the list to those already there. -/
theorem fill_spec (order : List Nat) :
    ∀ (pool : FramePool) (frames : List Nat), Holds pool frames →
      order.Nodup → (∀ frame ∈ order, frame ≠ 0 ∧ frame ∉ frames) →
      frames.length + order.length < 2 ^ 64 →
      ∃ pool' frames', order.foldlM frameInsert pool = some pool' ∧
        Holds pool' frames' ∧
        frames'.toFinset = frames.toFinset ∪ order.toFinset := by
  induction order with
  | nil =>
      intro pool frames holds _ _ _
      exact ⟨pool, frames, rfl, holds, by simp⟩
  | cons frame order induction =>
      intro pool frames holds nodup outside room
      have outsideFrame := outside frame (by simp)
      rcases List.nodup_cons.mp nodup with ⟨fresh, nodup⟩
      rw [List.length_cons] at room
      rcases frameInsert_spec holds outsideFrame.1 outsideFrame.2
        (by omega) with ⟨pool', left, right, inserted, split, holds'⟩
      have later : ∀ other ∈ order,
          other ≠ 0 ∧ other ∉ left ++ frame :: right := by
        intro other member
        have outsideOther := outside other (by simp [member])
        refine ⟨outsideOther.1, ?_⟩
        rw [split] at outsideOther
        simp only [List.mem_append, List.mem_cons, not_or] at outsideOther ⊢
        refine ⟨outsideOther.2.1, ?_, outsideOther.2.2⟩
        rintro rfl
        exact fresh member
      have longer : (left ++ frame :: right).length = frames.length + 1 := by
        rw [split]
        simp only [List.length_append, List.length_cons]
        omega
      rcases induction pool' _ holds' nodup later (by omega) with
        ⟨pool'', frames', filled, holds'', members⟩
      refine ⟨pool'', frames', ?_, holds'', ?_⟩
      · rw [List.foldlM_cons, inserted]
        exact filled
      · rw [members, split]
        ext other
        simp only [Finset.mem_union, List.mem_toFinset, List.mem_append,
          List.mem_cons]
        tauto

/-- Any order of filling gives the list of exactly the initial frames. -/
theorem fillPool_spec
    (initial : FrameSet)
    (marker : Nat → FrameMarker)
    {order : List Nat}
    (nodup : order.Nodup)
    (members : order.toFinset = initial.frames) :
    ∃ pool frames, fillPool marker order = some pool ∧
      FrameInvariant initial ⟨pool, ∅⟩ frames := by
  have empty : Holds ⟨marker, 0, 0⟩ [] :=
    ⟨IsList.empty 0 _ _, by simp, rfl⟩
  have outside : ∀ frame ∈ order, frame ≠ 0 ∧ frame ∉ ([] : List Nat) := by
    intro frame member
    refine ⟨initial.ne_null frame ?_, by simp⟩
    rw [← members]
    exact List.mem_toFinset.mpr member
  have room : ([] : List Nat).length + order.length < 2 ^ 64 := by
    have few := initial.few
    rw [← members, List.toFinset_card_of_nodup nodup] at few
    simp only [List.length_nil]
    omega
  rcases fill_spec order _ [] empty nodup outside room with
    ⟨pool, frames, filled, holds, found⟩
  refine ⟨pool, frames, filled, holds, by simp, ?_⟩
  rw [found, members]
  simp

/-- Every legal operation returns and keeps the invariant. -/
theorem step_invariant
    {initial : FrameSet}
    {state : FrameSystem}
    {frames : List Nat}
    (inv : FrameInvariant initial state frames)
    (op : FrameOp)
    (legal : op.legal state) :
    ∃ next frames', state.step op = some next ∧
      FrameInvariant initial next frames' := by
  have short := inv.length_lt
  cases op with
  | allocOne =>
      cases frames with
      | nil =>
          refine ⟨state, [], ?_, inv⟩
          simp [FrameSystem.step, pfallocOne_nil inv.holds, handOut]
      | cons first rest =>
          rcases pfallocOne_cons inv.holds (by omega) with ⟨ptrEq, taken⟩
          have block : first :: rest = [] ++ runFrom first 1 ++ rest := rfl
          have notNull : first ≠ 0 := inv.holds.list.ne_null (by simp)
          rw [block] at inv
          refine ⟨_, [] ++ rest, rfl, ?_⟩
          rw [ptrEq]
          exact inv.hand_out notNull taken.holds
  | allocConsecutive n =>
      rcases pfallocConsecutive_spec inv.free n with
        ⟨ptr, pool, returned,
          nothing | ⟨notNull, _, left, right, split, taken⟩⟩
      · rcases nothing with ⟨rfl, rfl, _⟩
        exact ⟨state, frames, by simp [FrameSystem.step, returned, handOut],
          inv⟩
      · rcases inv.searched_eq split with ⟨positive, exactly⟩
        rw [exactly] at split
        subst split
        exact ⟨_, left ++ right, by rw [FrameSystem.step, returned]; rfl,
          inv.hand_out notNull (taken positive).holds⟩
  | freeOne pf =>
      have held : pf ∈ state.allocated := legal
      have notNull : pf ≠ 0 := by
        apply initial.ne_null
        rw [← inv.partition]
        exact Finset.mem_union_right _ held
      have fresh : pf ∉ frames := fun member =>
        inv.not_allocated member held
      rcases frameInsert_spec inv.holds notNull fresh (by omega) with
        ⟨pool, left, right, inserted, rfl, holds⟩
      refine ⟨_, left ++ pf :: right,
        by rw [FrameSystem.step, pffreeOne, inserted]; rfl, holds, ?_, ?_⟩
      · rw [Finset.disjoint_left]
        intro frame member
        rw [Finset.mem_erase]
        rintro ⟨notPf, stillHeld⟩
        have listed : frame ∈ left ++ right := by
          simp only [List.mem_toFinset, List.mem_append, List.mem_cons]
            at member ⊢
          tauto
        exact inv.not_allocated listed stillHeld
      · rw [← inv.partition]
        ext frame
        simp only [Finset.mem_union, List.mem_toFinset, List.mem_append,
          List.mem_cons, Finset.mem_erase]
        by_cases same : frame = pf
        · simp [same, held]
        · simp [same]
  | write frame contents =>
      refine ⟨_, frames, rfl, ⟨?_, inv.holds.ascending, inv.holds.count⟩,
        inv.disjoint, inv.partition⟩
      have elsewhere : ∀ cell ∈ frames, cell ≠ frame := by
        rintro cell member rfl
        exact inv.not_allocated member legal
      apply inv.holds.list.congr
      · intro cell member
        simp [FramePool.next, elsewhere cell member]
      · intro cell member
        simp [FramePool.prev, elsewhere cell member]

/-- The invariant holds in every reachable state. -/
theorem reachable_invariant
    {initial : FrameSet}
    {state : FrameSystem}
    (reachable : (frameSystem initial).Reachable state) :
    ∃ frames, FrameInvariant initial state frames := by
  apply reachable.invariant
  · rintro ⟨pool, allocated⟩ ⟨none, marker, order, nodup, members, filled⟩
    rcases fillPool_spec initial marker nodup members with
      ⟨pool', frames, filled', inv⟩
    have same : pool' = pool := Option.some.inj (filled'.symm.trans filled)
    subst same
    have empty : allocated = ∅ := none
    subst empty
    exact ⟨frames, inv⟩
  · rintro before op after ⟨frames, inv⟩ ⟨legal, returned⟩
    rcases step_invariant inv op legal with ⟨next, frames', returned', inv'⟩
    have same : next = after := Option.some.inj (returned'.symm.trans returned)
    subst same
    exact ⟨frames', inv'⟩

/--
The frame allocator over whole runs.

A pool can be filled in any order.  In every state reached from there the
operations return, the list is the ascending list of the frames which are not
handed out, and what the allocator hands out next is not held by anyone.
-/
theorem frame_allocator_runs (initial : FrameSet) :
    (∀ marker order, order.Nodup → order.toFinset = initial.frames →
      ∃ pool, fillPool marker order = some pool) ∧
    ∀ state, (frameSystem initial).Reachable state →
      (∃ frames, FrameInvariant initial state frames ∧
        frames = (initial.frames \ state.allocated).sort) ∧
      (∀ op : FrameOp, op.legal state →
        ∃ next, state.step op = some next) ∧
      ((pfallocOne state.pool).1 ≠ 0 →
        (pfallocOne state.pool).1 ∈ initial.frames \ state.allocated) ∧
      (∀ n ptr pool, pfallocConsecutive state.pool n = some (ptr, pool) →
        ptr ≠ 0 → ∀ frame ∈ runFrom ptr n.toNat,
          frame ∈ initial.frames \ state.allocated) := by
  constructor
  · intro marker order nodup members
    rcases fillPool_spec initial marker nodup members with
      ⟨pool, _, filled, _⟩
    exact ⟨pool, filled⟩
  · intro state reachable
    rcases reachable_invariant reachable with ⟨frames, inv⟩
    have listed : ∀ frame ∈ frames,
        frame ∈ initial.frames \ state.allocated := by
      intro frame member
      exact Finset.mem_sdiff.mpr
        ⟨inv.mem_initial member, inv.not_allocated member⟩
    have short := inv.length_lt
    refine ⟨⟨frames, inv, inv.eq_sort⟩, ?_, ?_, ?_⟩
    · intro op legal
      rcases step_invariant inv op legal with ⟨next, _, returned, _⟩
      exact ⟨next, returned⟩
    · intro notNull
      cases frames with
      | nil =>
          rw [pfallocOne_nil inv.holds] at notNull
          exact (notNull rfl).elim
      | cons first rest =>
          rw [(pfallocOne_cons inv.holds (by omega)).1]
          exact listed first (by simp)
    · intro n ptr pool returned notNull frame member
      rcases pfallocConsecutive_spec inv.free n with
        ⟨ptr', pool', returned', nothing | ⟨_, _, left, right, split, _⟩⟩
      · rw [returned] at returned'
        rcases Prod.mk.inj (Option.some.inj returned') with ⟨rfl, _⟩
        exact (notNull nothing.1).elim
      · rw [returned] at returned'
        rcases Prod.mk.inj (Option.some.inj returned') with ⟨rfl, _⟩
        rw [(inv.searched_eq split).2] at split
        apply listed
        rw [split]
        simp [member]

/-- Two adjacent frames and one further up. -/
def threeFrames : FrameSet :=
  ⟨{4096, 8192, 16384}, by decide, by decide, by decide, by decide⟩

/-- The pool after inserting them out of order. -/
def threeFramesPool : FramePool :=
  (fillPool (fun _ => ⟨0, 0⟩) [16384, 4096, 8192]).get (by decide)

/-- Filled out of order, the three frames are listed in ascending order. -/
theorem frame_allocator_runs_threeFrames :
    (frameSystem threeFrames).Reachable ⟨threeFramesPool, ∅⟩ ∧
      (pfallocOne threeFramesPool).1 = 4096 ∧
      4096 ∈ threeFrames.frames \ ∅ ∧
      ∃ frames, FrameInvariant threeFrames ⟨threeFramesPool, ∅⟩ frames ∧
        frames = (threeFrames.frames \ ∅).sort := by
  have reachable :
      (frameSystem threeFrames).Reachable ⟨threeFramesPool, ∅⟩ := by
    apply Lib.Transition.System.Reachable.start
    exact ⟨rfl, fun _ => ⟨0, 0⟩, [16384, 4096, 8192], by decide, by decide,
      (Option.some_get (by decide)).symm⟩
  have runs := (frame_allocator_runs threeFrames).2 _ reachable
  have lowest : (pfallocOne threeFramesPool).1 = 4096 := by
    decide
  refine ⟨reachable, lowest, ?_, runs.1⟩
  have handed := runs.2.2.1
  rw [lowest] at handed
  exact handed (by decide)

end ForsKernel.Memory.Frames
