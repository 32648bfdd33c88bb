import ForsKernel.Memory.FrameInvariant

/-!
# Runs of frames

`pfalloc_consecutive` takes the lowest run of free frames which is long
enough.  `pffree_consecutive` gives the frames of a run back one by one, at
offsets which are products of type `unsigned int`.  From the frame number
`2 ^ 20` on these start again at zero, and the first frame of the run is put
into the list a second time.
-/

namespace ForsKernel.Memory.Frames

open ForsKernel.Lib.LinkedList

/-! ## Allocation -/

/--
`pfalloc_consecutive` is first fit: it takes the lowest run of `n` free frames
out of the list, and returns `NULL` only when there is none.
-/
theorem pfalloc_consecutive_first_fit
    {pool : FramePool}
    {frames : List Nat}
    (free : FreeList pool frames)
    (aligned : PageAligned frames)
    {n : UInt32}
    (positive : 1 ≤ n.toNat) :
    ∃ ptr pool', pfallocConsecutive pool n = some (ptr, pool') ∧
      (ptr = 0 ∧ pool' = pool ↔ ¬ ∃ start, FreeRun frames start n.toNat) ∧
      ((∃ start, FreeRun frames start n.toNat) →
        IsLeast {start | FreeRun frames start n.toNat} ptr ∧
        pool'.freeFrames + n.toNat = pool.freeFrames ∧
        ∃ left right, frames = left ++ runFrom ptr n.toNat ++ right ∧
          Taken pool pool' left right) := by
  rcases pfallocConsecutive_spec free n with ⟨ptr, pool', returned, outcome⟩
  rw [searched_of_pos positive] at outcome
  refine ⟨ptr, pool', returned, ?_⟩
  rcases outcome with
    ⟨null, same, nothing⟩ | ⟨notNull, lowest, left, right, split, taken⟩
  · have none : ¬ ∃ start, FreeRun frames start n.toNat := by
      rintro ⟨start, run⟩
      exact nothing aligned start run
    exact ⟨iff_of_true ⟨null, same⟩ none, fun some => (none some).elim⟩
  · have run : FreeRun frames ptr n.toNat := by
      intro frame member
      rw [split]
      simp [member]
    have counted : pool'.freeFrames + n.toNat = pool.freeFrames := by
      rw [(taken positive).holds.count, free.count, split]
      simp only [List.length_append, runFrom, List.length_range']
      omega
    constructor
    · apply iff_of_false
      · exact fun null => notNull null.1
      · exact fun none => none ⟨ptr, run⟩
    · intro _
      exact ⟨⟨run, lowest aligned⟩, counted, left, right, split, taken positive⟩

/-- Three frames, the upper two of which are adjacent. -/
def gapPool : FramePool :=
  (fillPool (fun _ => ⟨0, 0⟩) [4096, 12288, 16384]).get (by decide)

theorem gapPool_free : FreeList gapPool [4096, 12288, 16384] := by
  refine ⟨⟨⟨by decide, by decide, by decide, ?_⟩, by decide, by decide⟩,
    by decide⟩
  simp only [linked_cons, linked_nil, frontOr_cons, frontOr_nil, and_true]
  decide

/-- The run of two starts behind the gap. -/
theorem pfalloc_consecutive_first_fit_gap :
    FreeList gapPool [4096, 12288, 16384] ∧
      ∃ pool', pfallocConsecutive gapPool 2 = some (12288, pool') ∧
        IsLeast {start | FreeRun [4096, 12288, 16384] start 2} 12288 := by
  refine ⟨gapPool_free, ?_⟩
  have run : ∃ start, FreeRun [4096, 12288, 16384] start 2 :=
    ⟨12288, by decide⟩
  have first : (pfallocConsecutive gapPool 2).map Prod.fst = some 12288 := by
    decide
  rcases pfalloc_consecutive_first_fit gapPool_free (by decide) (n := 2)
      (by decide) with
    ⟨ptr, pool', returned, _, found⟩
  rw [returned] at first
  have same : ptr = 12288 := Option.some.inj first
  rw [same] at returned found
  exact ⟨pool', returned, (found run).1⟩

/-! ## Release -/

/--
The pointer `pffree_consecutive` passes on for frame `b`.  The offset
`b * ARCH_PAGE_SIZE` is an `unsigned int`.
-/
def freedAt (pfFirst b : Nat) : Nat :=
  (pfFirst + b * archPageSize % 2 ^ 32) % 2 ^ 64

/-- The pointers it passes on, in this order. -/
def freedFrames
    (pfFirst : Nat)
    (n : UInt32) :
    List Nat :=
  (List.range n.toNat).map (freedAt pfFirst)

/-- `pffree_consecutive`. -/
def pffreeConsecutive
    (pool : FramePool)
    (pfFirst : Nat)
    (n : UInt32) :
    Option FramePool :=
  (freedFrames pfFirst n).foldlM pffreeOne pool

/-- The head, the counter and the links of all these frames are the same. -/
structure SameList
    (pool pool' : FramePool)
    (frames : List Nat) :
    Prop where
  frameList : pool'.frameList = pool.frameList
  freeFrames : pool'.freeFrames = pool.freeFrames
  next : ∀ frame ∈ frames, pool'.next frame = pool.next frame
  prev : ∀ frame ∈ frames, pool'.prev frame = pool.prev frame

/-- No frame of the list is its own successor. -/
theorem Holds.next_ne
    {pool : FramePool}
    {frames : List Nat}
    (holds : Holds pool frames)
    {frame : Nat}
    (member : frame ∈ frames) :
    pool.next frame ≠ frame := by
  have list := holds.list
  have ascending := holds.ascending
  rcases List.append_of_mem member with ⟨left, right, rfl⟩
  rw [list.next_eq]
  cases right with
  | nil => exact (list.ne_null (by simp)).symm
  | cons second more =>
      have upper := (List.pairwise_append.mp ascending).2.1
      exact ((List.pairwise_cons.mp upper).1 second (by simp)).ne'

/-- Two pools with the same list of frames have the same links. -/
theorem Holds.sameList
    {pool pool' : FramePool}
    {frames : List Nat}
    (holds : Holds pool frames)
    (holds' : Holds pool' frames) :
    SameList pool pool' frames where
  frameList := holds'.frameList_eq.trans holds.frameList_eq.symm
  freeFrames := holds'.count.trans holds.count.symm
  next frame member := by
    rcases List.append_of_mem member with ⟨left, right, rfl⟩
    exact holds'.list.next_eq.trans holds.list.next_eq.symm
  prev frame member := by
    rcases List.append_of_mem member with ⟨left, right, rfl⟩
    exact holds'.list.prev_eq.trans holds.list.prev_eq.symm

theorem runFrom_eq_map (start n : Nat) :
    runFrom start n = (List.range n).map fun b => start + archPageSize * b := by
  induction n with
  | zero => rfl
  | succ n induction =>
      rw [runFrom_succ, induction, List.range_succ, List.map_append]
      rfl

/-- The offsets of the first `2 ^ 20` frames are exact. -/
theorem freedAt_run
    {pfFirst count : Nat}
    (few : count ≤ 2 ^ 20)
    (fits : ∀ b < count, pfFirst + archPageSize * b < 2 ^ 64) :
    (List.range count).map (freedAt pfFirst) = runFrom pfFirst count := by
  rw [runFrom_eq_map]
  apply List.map_congr_left
  intro b member
  rw [List.mem_range] at member
  have frameFits := fits b member
  simp only [freedAt, archPageSize] at frameFits ⊢
  omega

/-- Behind them the offsets start again at zero. -/
theorem freedFrames_wrap
    {pfFirst : Nat}
    {n : UInt32}
    (fits : ∀ b < n.toNat, pfFirst + archPageSize * b < 2 ^ 64)
    (many : 2 ^ 20 < n.toNat) :
    ∃ later, freedFrames pfFirst n =
        runFrom pfFirst (2 ^ 20) ++ pfFirst :: later ∧
      ∀ frame ∈ later, pfFirst ≤ frame := by
  obtain ⟨count, total⟩ : ∃ count, n.toNat = 2 ^ 20 + 1 + count :=
    ⟨n.toNat - (2 ^ 20 + 1), by omega⟩
  have again : freedAt pfFirst (2 ^ 20) = pfFirst := by
    have first := fits 0 (by omega)
    simp only [freedAt, archPageSize] at first ⊢
    omega
  refine ⟨((List.range count).map (2 ^ 20 + 1 + ·)).map (freedAt pfFirst),
    ?_, ?_⟩
  · rw [freedFrames, total, List.range_add, List.map_append,
      List.range_succ, List.map_append,
      freedAt_run le_rfl (fun b below => fits b (by omega)),
      List.map_cons, List.map_nil, again, List.append_assoc,
      List.singleton_append]
  · intro frame member
    rw [List.map_map] at member
    rcases List.mem_map.mp member with ⟨b, inside, rfl⟩
    rw [List.mem_range] at inside
    have frameFits := fits (2 ^ 20 + 1 + b) (by omega)
    simp only [Function.comp_apply, freedAt, archPageSize] at frameFits ⊢
    omega

/-- The frames of a run come back between the others. -/
theorem refill
    {pool : FramePool}
    {left right : List Nat}
    {p count : Nat}
    (ascending : (left ++ runFrom p count ++ right).Pairwise (· < ·))
    (notNull : ∀ frame ∈ runFrom p count, frame ≠ 0)
    (small : (left ++ runFrom p count ++ right).length < 2 ^ 64)
    (holds : Holds pool (left ++ right)) :
    ∃ pool', (runFrom p count).foldlM frameInsert pool = some pool' ∧
      Holds pool' (left ++ runFrom p count ++ right) := by
  have nodup : (left ++ runFrom p count ++ right).Nodup :=
    ascending.imp Nat.ne_of_lt
  rw [List.append_assoc, List.nodup_append, List.nodup_append] at nodup
  have outside : ∀ frame ∈ runFrom p count,
      frame ≠ 0 ∧ frame ∉ left ++ right := by
    intro frame member
    refine ⟨notNull frame member, ?_⟩
    intro listed
    rcases List.mem_append.mp listed with inLeft | inRight
    · exact nodup.2.2 frame inLeft frame (by simp [member]) rfl
    · exact nodup.2.1.2.2 frame member frame inRight rfl
  have room : (left ++ right).length + (runFrom p count).length < 2 ^ 64 := by
    simp only [List.length_append] at small ⊢
    omega
  rcases fill_spec _ pool _ holds nodup.2.1.1 outside room with
    ⟨pool', frames', filled, holds', members⟩
  have same : frames' = left ++ runFrom p count ++ right := by
    apply Holds.frames_eq holds'.ascending ascending
    intro frame
    have here := Finset.ext_iff.mp members frame
    simp only [List.mem_toFinset, Finset.mem_union, List.mem_append]
      at here ⊢
    tauto
  exact ⟨pool', filled, same ▸ holds'⟩

/-- The insertion loop passes cells which do not lie above the frame. -/
theorem frameInsertLoop_skip
    {pool : FramePool}
    {toIns curr : Nat}
    (notNull : curr ≠ 0)
    (fuel : Nat)
    (left : List Nat) :
    ∀ before, Linked pool.next pool.prev before left curr →
      (∀ cell ∈ left, cell ≠ 0 ∧ cell ≤ toIns) →
      frameInsertLoop (left.length + fuel) pool toIns before
          (frontOr curr left) =
        frameInsertLoop fuel pool toIns (backOr before left) curr := by
  induction left with
  | nil =>
      intro before _ _
      rw [List.length_nil, Nat.zero_add, frontOr_nil, backOr_nil]
  | cons cell rest induction =>
      intro before linked passed
      rcases linked with ⟨_, forward, linked⟩
      have here := passed cell (by simp)
      have later : ∀ other ∈ rest, other ≠ 0 ∧ other ≤ toIns :=
        fun other member => passed other (by simp [member])
      have nextNotNull : pool.next cell ≠ 0 := by
        rw [forward]
        cases rest with
        | nil => exact notNull
        | cons second more => exact (later second (by simp)).1
      have size : (cell :: rest).length + fuel =
          rest.length + fuel + 1 := by
        simp only [List.length_cons]
        omega
      rw [frontOr_cons, backOr_cons, size, frameInsertLoop, if_neg here.1,
        if_neg (Nat.not_lt.mpr here.2), if_neg nextNotNull, forward]
      exact induction cell linked later

/-- A frame which is its own successor is never passed. -/
theorem frameInsertLoop_stuck
    {pool : FramePool}
    {toIns cell : Nat}
    (loop : pool.next cell = cell)
    (passed : cell ≤ toIns)
    (fuel : Nat) :
    ∀ before, frameInsertLoop fuel pool toIns before cell = none := by
  induction fuel with
  | zero =>
      intro before
      rfl
  | succ fuel induction =>
      intro before
      rw [frameInsertLoop]
      split
      · rfl
      · rename_i notNull
        rw [if_neg (Nat.not_lt.mpr passed), loop, if_neg notNull]
        exact induction cell

/-- Inserting a frame again, which is not last, makes it its own successor. -/
theorem frameInsert_again
    {pool : FramePool}
    {left right : List Nat}
    {frame second : Nat}
    (holds : Holds pool (left ++ frame :: second :: right))
    (small : (left ++ frame :: second :: right).length < 2 ^ 64) :
    ∃ pool', frameInsert pool frame = some pool' ∧
      pool'.next frame = frame ∧ pool'.frameList = pool.frameList ∧
      Linked pool'.next pool'.prev 0 left frame := by
  rcases holds with ⟨list, ascending, _⟩
  rcases List.pairwise_append.mp ascending with ⟨_, upper, across⟩
  have secondAbove : frame < second :=
    (List.pairwise_cons.mp upper).1 second (by simp)
  have frameNotNull : frame ≠ 0 := list.ne_null (by simp)
  have secondNotNull : second ≠ 0 := list.ne_null (by simp)
  have passed : ∀ cell ∈ left ++ [frame], cell ≠ 0 ∧ cell ≤ frame := by
    intro cell member
    refine ⟨list.ne_null ?_, ?_⟩
    · simp only [List.mem_append, List.mem_cons, List.not_mem_nil] at member ⊢
      tauto
    · rcases List.mem_append.mp member with inLeft | isFrame
      · exact Nat.le_of_lt (across cell inLeft frame (by simp))
      · exact Nat.le_of_eq (List.mem_singleton.mp isFrame)
  have linked := list.linked
  rw [linked_append] at linked
  have upTo : Linked pool.next pool.prev 0 (left ++ [frame]) second := by
    rw [linked_append]
    exact ⟨linked.1, linked.2.1, linked.2.2.1, trivial⟩
  have headEq : pool.frameList = frontOr second (left ++ [frame]) := by
    rw [list.head_eq, frontOr_append, frontOr_append]
    rfl
  have headNotNull : pool.frameList ≠ 0 := by
    rw [headEq]
    exact (passed _ (frontOr_mem second (by simp))).1
  obtain ⟨fuel, enough⟩ : ∃ fuel,
      traversalFuel = (left ++ [frame]).length + (fuel + 1) := by
    refine ⟨traversalFuel - ((left ++ [frame]).length + 1), ?_⟩
    simp only [traversalFuel, List.length_append, List.length_cons,
      List.length_nil] at small ⊢
    omega
  refine ⟨insertBefore pool frame frame second, ?_, ?_, ?_, ?_⟩
  · rw [frameInsert, if_neg headNotNull, headEq, enough,
      frameInsertLoop_skip secondNotNull _ _ 0 upTo passed,
      backOr_append, backOr_cons, backOr_nil, frameInsertLoop,
      if_neg secondNotNull, if_pos secondAbove]
  · simp [insertBefore, frameNotNull]
  · simp [insertBefore, frameNotNull]
  · apply linked.1.congr
    · intro cell member
      have below := across cell member frame (by simp)
      simp [insertBefore, frameNotNull, below.ne]
    · intro cell member
      have below := across cell member frame (by simp)
      have below' := across cell member second (by simp)
      simp [insertBefore, frameNotNull, below.ne, below'.ne]

/-- No frame can be inserted behind such a frame any more. -/
theorem frameInsert_stuck
    {pool : FramePool}
    {left : List Nat}
    {frame toIns : Nat}
    (notNull : frame ≠ 0)
    (passed : frame ≤ toIns)
    (loop : pool.next frame = frame)
    (linked : Linked pool.next pool.prev 0 left frame)
    (headEq : pool.frameList = frontOr frame left)
    (below : ∀ cell ∈ left, cell ≠ 0 ∧ cell ≤ toIns)
    (small : left.length < 2 ^ 64) :
    frameInsert pool toIns = none := by
  have headNotNull : pool.frameList ≠ 0 := by
    rw [headEq]
    cases left with
    | nil => exact notNull
    | cons first rest => exact (below first (by simp)).1
  obtain ⟨fuel, enough⟩ : ∃ fuel, traversalFuel = left.length + fuel := by
    refine ⟨traversalFuel - left.length, ?_⟩
    simp only [traversalFuel]
    omega
  rw [frameInsert, if_neg headNotNull, headEq, enough,
    frameInsertLoop_skip notNull _ _ 0 linked below,
    frameInsertLoop_stuck loop passed]

theorem runFrom_cons (start n : Nat) :
    runFrom start (n + 1) = start :: runFrom (start + archPageSize) n :=
  List.range'_succ

/-- The start of a run is a run. -/
theorem runFrom_prefix
    (start : Nat)
    {k n : Nat}
    (shorter : k ≤ n) :
    runFrom start k <+: runFrom start n := by
  obtain ⟨more, rfl⟩ := Nat.exists_eq_add_of_le shorter
  exact ⟨_, List.range'_append⟩

/-- A run beyond the range of the offsets leaves its first frame in a loop. -/
theorem pffreeConsecutive_loops
    {pool pool' pool'' : FramePool}
    {left right : List Nat}
    {p : Nat}
    {n : UInt32}
    (free : FreeList pool (left ++ runFrom p n.toNat ++ right))
    (holds : Holds pool' (left ++ right))
    (many : 2 ^ 20 < n.toNat)
    (returned : pffreeConsecutive pool' p n = some pool'') :
    pool''.next p = p := by
  have few := free.length_lt
  have fits : ∀ b < n.toNat, p + archPageSize * b < 2 ^ 64 := by
    intro b below
    apply free.fits
    simp [mem_runFrom.mpr ⟨b, below, rfl⟩]
  have part := runFrom_prefix p (Nat.le_of_lt many)
  have shorter : (left ++ runFrom p (2 ^ 20) ++ right).Sublist
      (left ++ runFrom p n.toNat ++ right) :=
    (part.sublist.append_left left).append_right right
  have ascending := free.ascending.sublist shorter
  have small := shorter.length_le.trans_lt few
  have notNull : ∀ frame ∈ runFrom p (2 ^ 20), frame ≠ 0 := by
    intro frame member
    apply free.list.ne_null
    simp [part.subset member]
  rcases refill ascending notNull small holds with ⟨pool₁, filled, holds₁⟩
  rcases freedFrames_wrap fits many with ⟨later, freed, above⟩
  -- the first two frames of the run, which is long enough for that
  obtain ⟨rest, firstTwo⟩ : ∃ rest,
      runFrom p (2 ^ 20) = p :: (p + archPageSize) :: rest := by
    obtain ⟨k, length⟩ : ∃ k, 2 ^ 20 = k + 1 + 1 := ⟨2 ^ 20 - 2, by omega⟩
    exact ⟨_, by rw [length, runFrom_cons, runFrom_cons]⟩
  have regroup : left ++ runFrom p (2 ^ 20) ++ right =
      left ++ p :: (p + archPageSize) :: (rest ++ right) := by
    rw [firstTwo]
    simp
  rw [regroup] at holds₁ small ascending
  rcases frameInsert_again holds₁ small with
    ⟨pool₂, inserted, loop, sameHead, linked⟩
  rw [pffreeConsecutive, freed, List.foldlM_append] at returned
  have filled' : (runFrom p (2 ^ 20)).foldlM pffreeOne pool' = some pool₁ :=
    filled
  have inserted' : pffreeOne pool₁ p = some pool₂ := inserted
  rw [filled', Option.bind_eq_bind, Option.bind_some, List.foldlM_cons,
    inserted', Option.bind_eq_bind, Option.bind_some] at returned
  cases later with
  | nil =>
      have same : pool₂ = pool'' := Option.some.inj returned
      rw [← same]
      exact loop
  | cons toIns more =>
      have passed := above toIns (by simp)
      have headEq : pool₂.frameList = frontOr p left := by
        rw [sameHead, holds₁.frameList_eq, frontOr_append]
        rfl
      have below : ∀ cell ∈ left, cell ≠ 0 ∧ cell ≤ toIns := by
        intro cell member
        have lower := (List.pairwise_append.mp ascending).2.2 cell member p
          (by simp)
        exact ⟨holds₁.list.ne_null (by simp [member]), by omega⟩
      have stuck := frameInsert_stuck (holds₁.list.ne_null (by simp)) passed
        loop linked headEq below (by simp at small; omega)
      have stuck' : pffreeOne pool₂ toIns = none := stuck
      rw [List.foldlM_cons, stuck'] at returned
      cases returned

/-- Every frame of the run is freed, and once. -/
def FreesEach
    (pfFirst : Nat)
    (n : UInt32) :
    Prop :=
  (freedFrames pfFirst n).Nodup ∧
    ∀ frame, frame ∈ freedFrames pfFirst n ↔
      ∃ b < n.toNat, frame = pfFirst + archPageSize * b

/--
`pffree_consecutive` undoes `pfalloc_consecutive` exactly for runs of at most
`2 ^ 20` frames.
-/
theorem pffree_consecutive_undoes_iff
    {pool pool' : FramePool}
    {frames : List Nat}
    (free : FreeList pool frames)
    {n : UInt32}
    (positive : 1 ≤ n.toNat)
    {p : Nat}
    (returned : pfallocConsecutive pool n = some (p, pool'))
    (notNull : p ≠ 0) :
    ((∃ pool'', pffreeConsecutive pool' p n = some pool'' ∧
        SameList pool pool'' frames) ∧ FreesEach p n) ↔
      n.toNat ≤ 2 ^ 20 := by
  rcases pfallocConsecutive_spec free n with
    ⟨ptr, pool₁, returned', outcome⟩
  rw [returned] at returned'
  rcases Prod.mk.inj (Option.some.inj returned') with ⟨rfl, rfl⟩
  rcases outcome with
    nothing | ⟨_, _, left, right, split, taken⟩
  · exact (notNull nothing.1).elim
  rw [searched_of_pos positive] at split
  subst split
  have holds := (taken positive).holds
  have few := free.length_lt
  have fits : ∀ b < n.toNat, p + archPageSize * b < 2 ^ 64 := by
    intro b below
    apply free.fits
    simp [mem_runFrom.mpr ⟨b, below, rfl⟩]
  have first : p ∈ runFrom p n.toNat := mem_runFrom.mpr ⟨0, positive, rfl⟩
  have listed : p ∈ left ++ runFrom p n.toNat ++ right := by
    simp [first]
  constructor
  · rintro ⟨⟨pool'', freed, same⟩, _⟩
    by_contra many
    have loop := pffreeConsecutive_loops free holds (Nat.not_le.mp many) freed
    rw [same.next p listed] at loop
    exact free.toHolds.next_ne listed loop
  · intro short
    have exactly : freedFrames p n = runFrom p n.toNat :=
      freedAt_run short fits
    have nodup : (runFrom p n.toNat).Nodup := by
      have all := free.list.nodup
      rw [List.append_assoc, List.nodup_append, List.nodup_append] at all
      exact all.2.1.1
    have ne_null : ∀ frame ∈ runFrom p n.toNat, frame ≠ 0 := by
      intro frame member
      apply free.list.ne_null
      simp [member]
    rcases refill free.ascending ne_null few holds with
      ⟨pool'', filled, holds''⟩
    refine ⟨⟨pool'', ?_, free.toHolds.sameList holds''⟩, ?_⟩
    · rw [pffreeConsecutive, exactly]
      exact filled
    · rw [FreesEach, exactly]
      exact ⟨nodup, fun frame => mem_runFrom⟩

/-- A pool whose free frames are one run from page 1 on. -/
def runPool (n : Nat) : FramePool where
  marker frame :=
    ⟨if frame = archPageSize * n then 0 else frame + archPageSize,
      if frame = archPageSize then 0 else frame - archPageSize⟩
  frameList := archPageSize
  freeFrames := n

theorem runPool_next (n frame : Nat) : (runPool n).next frame =
    if frame = archPageSize * n then 0 else frame + archPageSize :=
  rfl

theorem runPool_prev (n frame : Nat) : (runPool n).prev frame =
    if frame = archPageSize then 0 else frame - archPageSize :=
  rfl

/-- The links inside such a run. -/
theorem runPool_linked (n count : Nat) :
    ∀ k, k + count = n →
      Linked (runPool n).next (runPool n).prev (archPageSize * k)
        (runFrom (archPageSize * (k + 1)) count) 0 := by
  induction count with
  | zero =>
      intro k _
      exact trivial
  | succ count induction =>
      intro k total
      have later := induction (k + 1) (by omega)
      have step : archPageSize * (k + 1) + archPageSize =
          archPageSize * (k + 1 + 1) :=
        (Nat.mul_succ _ _).symm
      rw [runFrom_cons, step, linked_cons]
      refine ⟨?_, ?_, later⟩
      · rw [runPool_prev]
        split
        · rename_i first
          simp only [archPageSize] at first ⊢
          omega
        · rw [Nat.mul_succ, Nat.add_sub_cancel]
      · rw [runPool_next]
        by_cases last : count = 0
        · have atEnd : archPageSize * (k + 1) = archPageSize * n := by
            have same : k + 1 = n := by omega
            rw [same]
          rw [if_pos atEnd, last]
          rfl
        · have inside : archPageSize * (k + 1) ≠ archPageSize * n := by
            intro same
            have atEnd : k + 1 = n :=
              Nat.eq_of_mul_eq_mul_left (by decide) same
            omega
          rw [frontOr_runFrom _ (by omega), if_neg inside, step]

theorem runPool_free
    {n : Nat}
    (positive : 0 < n)
    (fits : n < 2 ^ 52) :
    FreeList (runPool n) (runFrom archPageSize n) := by
  have frame : ∀ cell ∈ runFrom archPageSize n,
      ∃ b < n, cell = archPageSize * (b + 1) := by
    intro cell member
    rcases mem_runFrom.mp member with ⟨b, below, rfl⟩
    refine ⟨b, below, ?_⟩
    simp only [archPageSize]
    omega
  have ascending : (runFrom archPageSize n).Pairwise (· < ·) :=
    List.pairwise_lt_range' _ (by decide)
  refine ⟨⟨⟨?_, ?_, ascending.imp Nat.ne_of_lt, ?_⟩, ascending, ?_⟩, ?_⟩
  · rw [frontOr_runFrom _ positive]
    rfl
  · intro null
    rcases frame 0 null with ⟨b, _, zero⟩
    simp only [archPageSize] at zero
    omega
  · exact runPool_linked n n 0 (by omega)
  · simp [runPool, runFrom]
  · intro cell member
    rcases frame cell member with ⟨b, below, rfl⟩
    simp only [archPageSize]
    omega

/-- The whole run is handed out. -/
theorem runPool_returned
    {n : UInt32}
    (positive : 1 ≤ n.toNat) :
    ∃ pool', pfallocConsecutive (runPool n.toNat) n =
        some (archPageSize, pool') ∧
      Holds pool' [] := by
  have small := n.toNat_lt
  have free := runPool_free positive (by omega)
  rcases pfallocConsecutive_spec free n with ⟨ptr, pool', returned, outcome⟩
  rw [searched_of_pos positive] at outcome
  have run : FreeRun (runFrom archPageSize n.toNat) archPageSize n.toNat :=
    fun frame member => member
  have aligned : PageAligned (runFrom archPageSize n.toNat) := by
    intro frame member
    rcases mem_runFrom.mp member with ⟨b, _, rfl⟩
    rw [Nat.add_mul_mod_self_left, Nat.mod_self]
  rcases outcome with
    ⟨_, _, nothing⟩ | ⟨_, lowest, left, right, split, taken⟩
  · exact (nothing aligned _ run).elim
  have sizes := congrArg List.length split
  simp only [List.length_append, runFrom, List.length_range'] at sizes
  have leftNil : left = [] := List.eq_nil_of_length_eq_zero (by omega)
  have rightNil : right = [] := List.eq_nil_of_length_eq_zero (by omega)
  subst leftNil
  subst rightNil
  have same : archPageSize = ptr := by
    have fronts := congrArg (frontOr 0) split
    rw [List.nil_append, List.append_nil, frontOr_runFrom _ positive,
      frontOr_runFrom _ positive] at fronts
    exact fronts
  exact ⟨pool', same ▸ returned, (taken positive).holds⟩

/-- A run of two frames comes back. -/
theorem pffree_consecutive_undoes_two :
    ∃ pool', pfallocConsecutive (runPool 2) 2 = some (4096, pool') ∧
      (∃ pool'', pffreeConsecutive pool' 4096 2 = some pool'' ∧
        SameList (runPool 2) pool'' (runFrom archPageSize 2)) ∧
      FreesEach 4096 2 := by
  rcases runPool_returned (n := 2) (by decide) with ⟨pool', returned, _⟩
  have undone := (pffree_consecutive_undoes_iff
    (runPool_free (by decide) (by decide)) (by decide) returned
    (by decide)).mpr (by decide)
  exact ⟨pool', returned, undone.1, undone.2⟩

/-- A run of `2 ^ 20 + 1` frames, 4 GiB and a page, does not. -/
theorem pffree_consecutive_not_undone :
    FreeList (runPool (2 ^ 20 + 1)) (runFrom archPageSize (2 ^ 20 + 1)) ∧
      ∃ pool', pfallocConsecutive (runPool (2 ^ 20 + 1)) 1048577 =
          some (4096, pool') ∧
        ¬ ∃ pool'', pffreeConsecutive pool' 4096 1048577 = some pool'' ∧
          SameList (runPool (2 ^ 20 + 1)) pool''
            (runFrom archPageSize (2 ^ 20 + 1)) := by
  have length : (1048577 : UInt32).toNat = 2 ^ 20 + 1 := by decide
  have free := runPool_free (n := 2 ^ 20 + 1) (by omega) (by omega)
  refine ⟨free, ?_⟩
  rcases runPool_returned (n := 1048577) (by omega) with
    ⟨pool', returned, empty⟩
  rw [length] at returned
  refine ⟨pool', returned, ?_⟩
  rintro ⟨pool'', freed, same⟩
  have first : 4096 ∈ runFrom archPageSize (2 ^ 20 + 1) :=
    mem_runFrom.mpr ⟨0, by omega, rfl⟩
  have free' : FreeList (runPool (2 ^ 20 + 1))
      ([] ++ runFrom 4096 (1048577 : UInt32).toNat ++ []) := by
    rw [length, List.append_nil]
    exact free
  have loop := pffreeConsecutive_loops free' empty (by omega) freed
  rw [same.next 4096 first] at loop
  exact free.toHolds.next_ne first loop

end ForsKernel.Memory.Frames
