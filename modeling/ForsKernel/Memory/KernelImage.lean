import ForsKernel.Memory.UserTable

/-!
# The kernel image in a new user address space

The three loops of `new_blank_user_pml4` over the kernel image run from
section to section, although the sections need not end on page boundaries.
No page is left out for any layout of `linker.ld`.  The page in which the read
only data ends is also mapped by the loop over the data, which comes last, so
the image is protected exactly when the read only data fills its last page.
-/

namespace ForsKernel.Memory.Paging

/-! ## The loops -/

/-- The calls of the nested loop and of the three loops after it. -/
def loopCalls
    (memmap : List MemmapEntry)
    (image : KernelImage)
    (root : Nat) :
    List MapCall :=
  (memmap.take (scanned memmap.length)).reverse.flatMap (entryCalls root) ++
    imageCalls root image

/-- `new_blank_user_pml4` up to the end of its loops. -/
def mapLoops
    (frames : Nat → Nat)
    (memmap : List MemmapEntry)
    (image : KernelImage)
    (state : Machine) :
    Option (Nat × Machine) :=
  let newPml4 := (pfallocOne frames state).1
  (mapAll frames (loopCalls memmap image newPml4)
    (pfallocOne frames state).2).map fun state => (newPml4, state)

/-- The calls of `pfalloc_one` which were made once a loop ends or panics. -/
def answersTaken (frames : Nat → Nat) : List MapCall → Machine → Nat
  | [], state => state.calls
  | call :: calls, state =>
      let result := mapPage4k frames state call.pml4Table call.phys call.virt
        call.flags
      if result.1 < 0 then result.2.calls
      else answersTaken frames calls result.2

theorem mapAll_append
    (frames : Nat → Nat)
    (calls more : List MapCall)
    (state : Machine) :
    mapAll frames (calls ++ more) state =
      (mapAll frames calls state).bind (mapAll frames more) := by
  induction calls generalizing state with
  | nil => rfl
  | cons call calls induction =>
      rw [List.cons_append, mapAll, mapAll]
      split
      · rfl
      · exact induction _

/-- What remains is the page of the kernel heap. -/
theorem newBlankUserPml4_eq
    (frames : Nat → Nat)
    (memmap : List MemmapEntry)
    (image : KernelImage)
    (state : Machine) :
    newBlankUserPml4 frames memmap image state =
      (mapLoops frames memmap image state).bind fun looped =>
        let heap := mapLookup looped.2 image.kernelPml4Table image.heapStart
        if heap.1 < 0 then
          none
        else
          some (looped.1, (mapPage4k frames looped.2 looped.1 heap.2
            image.heapStart (psePresent ||| pseWritable)).2) := by
  rw [mapLoops, loopCalls, mapAll_append, newBlankUserPml4]
  simp only [Option.bind_eq_bind]
  cases mapAll frames _ (pfallocOne frames state).2 with
  | none => rfl
  | some direct =>
      simp only [Option.bind_some]
      cases mapAll frames _ direct with
      | none => rfl
      | some looped => rfl

/-! ## With enough frames the loops come to their end -/

section Supplied

variable
  {frames : Nat → Nat}
  {state : Machine}

/-- One of the answers from one count of calls to the other is no frame. -/
def Short
    (frames : Nat → Nat)
    (first next : Nat) :
    Prop :=
  ∃ k, first ≤ k ∧ k < next ∧ frames k = 0

theorem Short.mono
    {first first' next next' : Nat}
    (short : Short frames first next)
    (before : first' ≤ first)
    (after : next ≤ next') :
    Short frames first' next' := by
  rcases short with ⟨k, lower, upper, null⟩
  exact ⟨k, by omega, by omega, null⟩

/-- One upper level fails only for want of a frame. -/
theorem ensureTable_calls
    (frames : Nat → Nat)
    (state : Machine)
    (entry flags : Nat) :
    state.calls ≤ (ensureTable frames state entry flags).2.calls ∧
      ((ensureTable frames state entry flags).1 = false →
        Short frames state.calls
          (ensureTable frames state entry flags).2.calls) := by
  rw [ensureTable]
  by_cases absent : ¬ HasFlag (state.read entry) psePresent
  · rw [if_pos absent]
    by_cases null : frames state.calls = 0
    · have short : Short frames state.calls (state.calls + 1) :=
        ⟨_, le_rfl, Nat.lt_succ_self _, null⟩
      simp [pfallocOne, null, short]
    · simp [pfallocOne, null, Machine.write, zeroPagingTable_calls]
  · rw [if_neg absent]
    simp [Machine.write]

/-- A call runs out of memory only for want of a frame. -/
theorem mapPage4k_calls
    (frames : Nat → Nat)
    (state : Machine)
    (pml4Table phys virt flags : Nat) :
    state.calls ≤
        (mapPage4k frames state pml4Table phys virt flags).2.calls ∧
      ((mapPage4k frames state pml4Table phys virt flags).1 = eNomem →
        Short frames state.calls
          (mapPage4k frames state pml4Table phys virt flags).2.calls) := by
  have generic : eGeneric ≠ eNomem := by decide
  have zero : (0 : Int) ≠ eNomem := by decide
  rw [mapPage4k]
  simp only
  have first := ensureTable_calls frames state
    (entryPtr pml4Table (pml4Index virt)) flags
  generalize ensureTable frames state _ flags = level4 at first
  split
  · rename_i failed
    exact ⟨first.1, fun _ => first.2 (by simpa using failed)⟩
  split
  · exact ⟨first.1, fun same => (generic same).elim⟩
  have second := ensureTable_calls frames level4.2
    (entryPtr (pseGetPtr (level4.2.read
      (entryPtr pml4Table (pml4Index virt)))) (pml3Index virt)) flags
  generalize ensureTable frames level4.2 _ flags = level3 at second
  have upToSecond := first.1.trans second.1
  split
  · rename_i failed
    exact ⟨upToSecond,
      fun _ => (second.2 (by simpa using failed)).mono first.1 le_rfl⟩
  split
  · exact ⟨upToSecond, fun same => (generic same).elim⟩
  have third := ensureTable_calls frames level3.2
    (entryPtr (pseGetPtr (level3.2.read
      (entryPtr (pseGetPtr (level4.2.read
        (entryPtr pml4Table (pml4Index virt)))) (pml3Index virt))))
      (pml2Index virt)) flags
  generalize ensureTable frames level3.2 _ flags = level2 at third
  have upToThird := upToSecond.trans third.1
  split
  · rename_i failed
    exact ⟨upToThird,
      fun _ => (third.2 (by simpa using failed)).mono upToSecond le_rfl⟩
  · exact ⟨upToThird, fun same => (zero same).elim⟩

/-- Calls whose frames are all there are performed. -/
theorem Shows.mapAll_returns
    {supply : FrameSupply}
    {root : Nat}
    {pages : Nat → Option Translation}
    {calls : List MapCall}
    (shows : Shows supply root state pages)
    (isRoot : root ∈ supply.roots)
    (legal : ∀ call ∈ calls, call.pml4Table = root ∧ IsFlags call.flags)
    (supplied : ¬ Short supply.frames state.calls
      (answersTaken supply.frames calls state)) :
    ∃ state', Paging.mapAll supply.frames calls state = some state' := by
  induction calls generalizing state pages with
  | nil => exact ⟨state, rfl⟩
  | cons call calls induction =>
      have first := legal call (by simp)
      have taken := mapPage4k_calls supply.frames state root call.phys
        call.virt call.flags
      rw [answersTaken, first.1] at supplied
      have succeeded : ¬ (mapPage4k supply.frames state root call.phys
          call.virt call.flags).1 < 0 := by
        intro failed
        simp only [if_pos failed] at supplied
        rcases shows with ⟨⟨used, rank, parent, inv⟩, _⟩
        have effect := (mapPage4k_spec inv isRoot (points_frame isRoot)
          first.2 call.phys call.virt).2
        generalize mapPage4k supply.frames state root call.phys call.virt
          call.flags = result at effect taken failed supplied
        cases effect with
        | nomem _ => exact supplied (taken.2 rfl)
        | mapped _ => exact absurd failed (lt_irrefl (0 : Int))
      simp only [if_neg succeeded] at supplied
      rw [Paging.mapAll, first.1]
      simp only [if_neg succeeded]
      apply induction (shows.mapped isRoot first.2 succeeded)
      · exact fun other member => legal other (by simp [member])
      · exact fun short => supplied (short.mono taken.1 le_rfl)

theorem loopCalls_legal
    (memmap : List MemmapEntry)
    (image : KernelImage)
    (root : Nat) :
    ∀ call ∈ loopCalls memmap image root,
      call.pml4Table = root ∧ IsFlags call.flags := by
  intro call member
  rcases List.mem_append.mp member with direct | ofImage
  · exact entryCalls_legal _ call direct
  · exact imageCalls_legal image call ofImage

/-- The allocation succeeds each time that the loops ask for a frame. -/
def Supplied
    (frames : Nat → Nat)
    (memmap : List MemmapEntry)
    (image : KernelImage)
    (state : Machine) :
    Prop :=
  ¬ Short frames state.calls
    (answersTaken frames (loopCalls memmap image (frames state.calls))
      (pfallocOne frames state).2)

/-- The loops end, and the new table shows all their calls. -/
theorem mapLoops_shows
    {memmap : List MemmapEntry}
    {image : KernelImage}
    (fresh : FreshRoot frames state)
    (supplied : Supplied frames memmap image state) :
    ∃ machine, mapLoops frames memmap image state =
        some (frames state.calls, machine) ∧
      Shows fresh.supply (frames state.calls) machine
        (after (loopCalls memmap image (frames state.calls))
          fun _ => none) := by
  have isRoot : frames state.calls ∈ fresh.supply.roots := rfl
  have legal := loopCalls_legal memmap image (frames state.calls)
  have enough : ¬ Short frames (pfallocOne frames state).2.calls
      (answersTaken frames (loopCalls memmap image (frames state.calls))
        (pfallocOne frames state).2) :=
    fun short => supplied (short.mono (Nat.le_succ _) le_rfl)
  rcases fresh.shows.mapAll_returns isRoot legal enough with
    ⟨machine, returned⟩
  refine ⟨machine, ?_, fresh.shows.mapAll isRoot legal returned⟩
  have returned' : mapAll frames
      (loopCalls memmap image (pfallocOne frames state).1)
      (pfallocOne frames state).2 = some machine := returned
  rw [mapLoops]
  simp only [returned', Option.map_some]
  rfl

end Supplied

/-! ## Layouts of the linker script -/

/-- `ALIGN(4096)`. -/
def pageAlign (address : Nat) : Nat :=
  (address + (archPageSize - 1)) / archPageSize * archPageSize

/-- The symbols of `linker.ld`; `dataEnd` is where `.data` ends. -/
structure LinkerSymbols where
  kernelStart : Nat
  codeStart : Nat
  codeEnd : Nat
  roStart : Nat
  roEnd : Nat
  rwStart : Nat
  dataEnd : Nat
  rwEnd : Nat
  kernelEnd : Nat

namespace LinkerSymbols

/--
The layouts the script produces.  A section starts at the next page boundary;
one without contents may be dropped, and then the location does not advance.
-/
structure Linked (symbols : LinkerSymbols) : Prop where
  start : symbols.kernelStart = 0xffffffff80000000
  code : symbols.codeStart = symbols.kernelStart
  text : symbols.codeStart ≤ symbols.codeEnd
  ro : symbols.roStart = symbols.codeEnd
  rodata : symbols.roEnd = symbols.roStart ∨
    pageAlign symbols.roStart ≤ symbols.roEnd
  rw : symbols.rwStart = symbols.roEnd
  data : symbols.dataEnd = symbols.rwStart ∨
    pageAlign symbols.rwStart ≤ symbols.dataEnd
  bss : symbols.rwEnd = symbols.dataEnd ∨
    pageAlign symbols.dataEnd ≤ symbols.rwEnd
  finish : symbols.kernelEnd = symbols.rwEnd
  fits : symbols.kernelEnd ≤ 2 ^ 64

/-- The image of these symbols which was loaded at these addresses. -/
def image
    (symbols : LinkerSymbols)
    (virtualBase physicalBase kernelPml4Table : Nat) :
    KernelImage where
  virtualBase := virtualBase
  physicalBase := physicalBase
  codeOffset := symbols.codeStart - symbols.kernelStart
  codeEndOffset := symbols.codeEnd - symbols.kernelStart
  roOffset := symbols.roStart - symbols.kernelStart
  roEndOffset := symbols.roEnd - symbols.kernelStart
  rwOffset := symbols.rwStart - symbols.kernelStart
  rwEndOffset := symbols.rwEnd - symbols.kernelStart
  heapStart := (symbols.kernelEnd + archPageSize + 65535) / 65536 * 65536
  kernelPml4Table := kernelPml4Table

/-- The number of bytes of the image. -/
def size (symbols : LinkerSymbols) : Nat :=
  symbols.kernelEnd - symbols.kernelStart

/-- An address of `.text` or `.rodata`. -/
def ReadOnly
    (symbols : LinkerSymbols)
    (address : Nat) :
    Prop :=
  symbols.codeStart ≤ address ∧ address < symbols.codeEnd ∨
    pageAlign symbols.roStart ≤ address ∧ address < symbols.roEnd

/-- An address of `.data` or `.bss`. -/
def ReadWrite
    (symbols : LinkerSymbols)
    (address : Nat) :
    Prop :=
  pageAlign symbols.rwStart ≤ address ∧ address < symbols.dataEnd ∨
    pageAlign symbols.dataEnd ≤ address ∧ address < symbols.rwEnd

end LinkerSymbols

/-- The boot loader has put the image on page boundaries, in memory. -/
structure Loaded
    (symbols : LinkerSymbols)
    (virtualBase physicalBase : Nat) :
    Prop where
  virtual_aligned : archPageSize ∣ virtualBase
  physical_aligned : archPageSize ∣ physicalBase
  physical_fits : physicalBase + symbols.size ≤ 2 ^ 52

/-! ## The pages which a loop visits -/

/-- The offset inside a page does not reach the pointer field. -/
theorem psePtr_eq
    {val : Nat}
    (fits : val < 2 ^ 52) :
    psePtr val = val / archPageSize * archPageSize := by
  have low : val % 2 ^ 12 < 2 ^ 12 := Nat.mod_lt _ (by decide)
  have split : val = val / archPageSize * archPageSize ||| val % 2 ^ 12 := by
    rw [show archPageSize = 2 ^ 12 by decide, Nat.mul_comm,
      ← Nat.two_pow_add_eq_or_of_lt low, Nat.div_add_mod]
  have below := Nat.div_mul_le_self val archPageSize
  rw [split, psePtr_or _ low, ← split]
  exact psePtr_frame (Nat.dvd_mul_left _ _) (by omega)

/-- Offsets from an aligned base are of one page. -/
theorem pageOf_base
    {base off x : Nat}
    (aligned : archPageSize ∣ base)
    (offSmall : off < 2 ^ 47)
    (small : x < 2 ^ 47) :
    pageOf ((base + off) % 2 ^ 64) = pageOf (base + x) ↔
      off / archPageSize = x / archPageSize := by
  rcases aligned with ⟨quotient, rfl⟩
  rw [pageOf, pageOf, archPageSize]
  omega

/-- A loop which starts in this page or before it gets to it. -/
theorem offsets_reach
    {start limit x : Nat}
    (started : start / archPageSize ≤ x / archPageSize)
    (inside : x < limit) :
    ∃ off ∈ offsets start (limit + archPageSize),
      off / archPageSize = x / archPageSize := by
  refine ⟨start + archPageSize * (x / archPageSize - start / archPageSize),
    mem_offsets.mpr ⟨_, rfl, ?_⟩, ?_⟩
  · rw [archPageSize] at *
    omega
  · rw [archPageSize] at *
    omega

/-- A loop does not get before the page it starts in. -/
theorem offsets_started
    {start limit off : Nat}
    (member : off ∈ offsets start limit) :
    start / archPageSize ≤ off / archPageSize ∧ off < limit := by
  rcases mem_offsets.mp member with ⟨n, rfl, inside⟩
  exact ⟨Nat.div_le_div_right (by omega), inside⟩

section Image

variable
  {symbols : LinkerSymbols}
  {virtualBase physicalBase kernelPml4Table root : Nat}

/-- The calls of one of the three loops. -/
def sectionCalls (root virtualBase physicalBase flags start limit : Nat) :
    List MapCall :=
  rangeCalls root physicalBase virtualBase flags
    (offsets start (limit + archPageSize))

/-- A call for an offset, whatever loop makes it. -/
theorem mem_sectionCalls
    {flags start limit : Nat}
    {call : MapCall} :
    call ∈ sectionCalls root virtualBase physicalBase flags start limit ↔
      ∃ off ∈ offsets start (limit + archPageSize),
        call = ⟨root, (physicalBase + off) % 2 ^ 64,
          (virtualBase + off) % 2 ^ 64, flags⟩ := by
  rw [sectionCalls, rangeCalls, List.mem_map]
  constructor
  · rintro ⟨off, member, rfl⟩
    exact ⟨off, member, rfl⟩
  · rintro ⟨off, member, rfl⟩
    exact ⟨off, member, rfl⟩

/-- A loop over offsets of the image touches the pages from its start on. -/
theorem sectionCalls_touch
    (aligned : archPageSize ∣ virtualBase)
    {flags start limit x : Nat}
    (small : limit + archPageSize ≤ 2 ^ 47)
    (inside : x < limit) :
    (∃ call ∈ sectionCalls root virtualBase physicalBase flags start limit,
      pageOf call.virt = pageOf (virtualBase + x)) ↔
      start / archPageSize ≤ x / archPageSize := by
  constructor
  · rintro ⟨call, member, about⟩
    rcases mem_sectionCalls.mp member with ⟨off, offMember, rfl⟩
    have started := offsets_started offMember
    rw [pageOf_base aligned (by omega) (by omega)] at about
    rw [← about]
    exact started.1
  · intro started
    rcases offsets_reach started inside with ⟨off, member, same⟩
    have bound := (offsets_started member).2
    exact ⟨_, mem_sectionCalls.mpr ⟨off, member, rfl⟩,
      (pageOf_base aligned (by omega) (by omega)).mpr same⟩

/-- Every call about a page of the image names its frame and its flags. -/
theorem sectionCalls_about
    (loaded : Loaded symbols virtualBase physicalBase)
    {flags start limit x : Nat}
    {call : MapCall}
    (small : limit + archPageSize ≤ 2 ^ 47)
    (inside : x < symbols.size)
    (xSmall : x < 2 ^ 47)
    (member : call ∈
      sectionCalls root virtualBase physicalBase flags start limit)
    (about : pageOf call.virt = pageOf (virtualBase + x)) :
    psePtr call.phys = physicalBase + x / archPageSize * archPageSize ∧
      call.flags = flags := by
  rcases mem_sectionCalls.mp member with ⟨off, offMember, rfl⟩
  have bound := (offsets_started offMember).2
  rw [pageOf_base loaded.virtual_aligned (by omega) xSmall] at about
  refine ⟨?_, rfl⟩
  rcases loaded.physical_aligned with ⟨quotient, rfl⟩
  have fits := loaded.physical_fits
  show psePtr ((archPageSize * quotient + off) % 2 ^ 64) = _
  have wrap : (archPageSize * quotient + off) % 2 ^ 64 =
      archPageSize * quotient + off :=
    Nat.mod_eq_of_lt (by rw [archPageSize] at *; omega)
  rw [wrap, psePtr_eq (by rw [archPageSize] at *; omega)]
  rw [archPageSize] at *
  omega

/-- Calls which agree about a page decide what it shows. -/
theorem after_of_agree
    {calls : List MapCall}
    {page frame flags : Nat}
    (pages : Nat → Option Translation)
    (touched : ∃ call ∈ calls, pageOf call.virt = page)
    (agree : ∀ call ∈ calls, pageOf call.virt = page →
      psePtr call.phys = frame ∧ call.flags = flags) :
    after calls pages page = some (.along frame [flags]) := by
  rcases after_of_touched pages touched with ⟨call, member, about, shown⟩
  rcases agree call member about with ⟨rfl, rfl⟩
  exact shown

namespace LinkerSymbols.Linked

theorem size_eq (linked : symbols.Linked) :
    symbols.size = symbols.rwEnd - symbols.kernelStart := by
  rw [LinkerSymbols.size, linked.finish]

theorem size_le (linked : symbols.Linked) : symbols.size ≤ 2 ^ 31 := by
  have fits := linked.fits
  rw [LinkerSymbols.size, linked.start]
  omega

theorem le_pageAlign (address : Nat) : address ≤ pageAlign address := by
  rw [pageAlign, archPageSize]
  omega

/-- The symbols are in the order of the script. -/
theorem ordered (linked : symbols.Linked) :
    symbols.kernelStart ≤ symbols.codeEnd ∧
      symbols.codeEnd ≤ symbols.roEnd ∧ symbols.roEnd ≤ symbols.rwEnd := by
  have start := linked.code
  have text := linked.text
  have code := le_pageAlign symbols.roStart
  have ro := le_pageAlign symbols.rwStart
  have data := le_pageAlign symbols.dataEnd
  rw [linked.ro] at code
  rw [linked.rw] at ro
  have rodata := linked.rodata
  rw [linked.ro] at rodata
  have dataEnd := linked.data
  rw [linked.rw] at dataEnd
  have bss := linked.bss
  omega

end LinkerSymbols.Linked

/--
The pages of the image after the three loops: from the page on in which the
read only data ends they are writable.
-/
theorem after_imageCalls
    (linked : symbols.Linked)
    (loaded : Loaded symbols virtualBase physicalBase)
    (pages : Nat → Option Translation)
    {x : Nat}
    (inside : x < symbols.size) :
    after (imageCalls root
        (symbols.image virtualBase physicalBase kernelPml4Table)) pages
        (pageOf (virtualBase + x)) =
      some (.along (physicalBase + x / archPageSize * archPageSize)
        [if (symbols.roEnd - symbols.kernelStart) / archPageSize ≤
            x / archPageSize then psePresent ||| pseWritable
          else psePresent]) := by
  have sizeLe := linked.size_le
  have sizeEq := linked.size_eq
  have ordered := linked.ordered
  have aligned := loaded.virtual_aligned
  have loops : imageCalls root
      (symbols.image virtualBase physicalBase kernelPml4Table) =
      sectionCalls root virtualBase physicalBase psePresent
          (symbols.codeStart - symbols.kernelStart)
          (symbols.codeEnd - symbols.kernelStart) ++
        sectionCalls root virtualBase physicalBase psePresent
          (symbols.roStart - symbols.kernelStart)
          (symbols.roEnd - symbols.kernelStart) ++
        sectionCalls root virtualBase physicalBase
          (psePresent ||| pseWritable)
          (symbols.rwStart - symbols.kernelStart)
          (symbols.rwEnd - symbols.kernelStart) := rfl
  have page : archPageSize = 4096 := rfl
  rw [loops, after_append, linked.rw]
  by_cases data : (symbols.roEnd - symbols.kernelStart) / archPageSize ≤
      x / archPageSize
  · rw [if_pos data]
    apply after_of_agree
    · exact (sectionCalls_touch aligned (by omega) (by omega)).mpr data
    · exact fun call member => sectionCalls_about loaded (by omega) inside
        (by omega) member
  · rw [if_neg data, after_of_untouched]
    swap
    · intro call member about
      exact data ((sectionCalls_touch aligned (by omega) (by omega)).mp
        ⟨call, member, about⟩)
    apply after_of_agree
    · have early : x < symbols.roEnd - symbols.kernelStart := by
        rw [page] at data
        omega
      rw [linked.ro]
      by_cases rodata : (symbols.codeEnd - symbols.kernelStart) /
          archPageSize ≤ x / archPageSize
      · rcases (sectionCalls_touch aligned (by omega) early).mpr rodata with
          ⟨call, member, about⟩
        exact ⟨call, List.mem_append_right _ member, about⟩
      · have earlier : x < symbols.codeEnd - symbols.kernelStart := by
          rw [page] at rodata
          omega
        rcases (sectionCalls_touch aligned (by omega) earlier).mpr
          (show (symbols.codeStart - symbols.kernelStart) / archPageSize ≤
            x / archPageSize by simp [linked.code]) with
          ⟨call, member, about⟩
        exact ⟨call, List.mem_append_left _ member, about⟩
    · intro call member
      rcases List.mem_append.mp member with code | ro
      · exact sectionCalls_about loaded (by omega) inside (by omega) code
      · exact sectionCalls_about loaded (by omega) inside (by omega) ro

variable
  {frames : Nat → Nat}
  {memmap : List MemmapEntry}
  {state : Machine}

/-- What the walk finds at an offset of the image after the loops. -/
theorem mapLoops_image
    (linked : symbols.Linked)
    (loaded : Loaded symbols virtualBase physicalBase)
    (fresh : FreshRoot frames state)
    (supplied : Supplied frames memmap
      (symbols.image virtualBase physicalBase kernelPml4Table) state) :
    ∃ root machine, mapLoops frames memmap
        (symbols.image virtualBase physicalBase kernelPml4Table) state =
          some (root, machine) ∧
      ∀ x < symbols.size, walk machine.mem root (virtualBase + x) =
        some (.along (physicalBase + x / archPageSize * archPageSize)
          [if (symbols.roEnd - symbols.kernelStart) / archPageSize ≤
              x / archPageSize then psePresent ||| pseWritable
            else psePresent]) := by
  rcases mapLoops_shows fresh supplied with ⟨machine, returned, shows⟩
  refine ⟨_, machine, returned, ?_⟩
  intro x inside
  rw [shows.2, loopCalls, after_append]
  exact after_imageCalls linked loaded _ inside

/--
Every byte of the kernel image is mapped: for every layout of the linker
script the three loops come to their end, and the walk of each offset from the
virtual base finds the same offset from the physical base.
-/
theorem kernel_image_covered
    (linked : symbols.Linked)
    (loaded : Loaded symbols virtualBase physicalBase)
    (fresh : FreshRoot frames state)
    (supplied : Supplied frames memmap
      (symbols.image virtualBase physicalBase kernelPml4Table) state) :
    ∃ root machine, mapLoops frames memmap
        (symbols.image virtualBase physicalBase kernelPml4Table) state =
          some (root, machine) ∧
      ∀ x < symbols.size, translate machine.mem root (virtualBase + x) =
        some (physicalBase + x) := by
  rcases mapLoops_image linked loaded fresh supplied with
    ⟨root, machine, returned, walks⟩
  refine ⟨root, machine, returned, ?_⟩
  intro x inside
  rw [translate, walks x inside, Option.map_some]
  apply congrArg some
  show physicalBase + x / archPageSize * archPageSize +
    (virtualBase + x) % archPageSize = physicalBase + x
  rcases loaded.virtual_aligned with ⟨quotient, rfl⟩
  rw [Nat.mul_add_mod, Nat.add_assoc, Nat.div_add_mod']

/-- A page mapped with these flags may be written if they say so. -/
theorem writable_along (frame flags : Nat) :
    (Translation.along frame [flags]).writable =
      decide (HasFlag flags pseWritable) := by
  simp [Translation.along]

/-- Code and constants cannot be written, and data can. -/
def Protected
    (symbols : LinkerSymbols)
    (mem : Nat → Nat)
    (root virtualBase : Nat) :
    Prop :=
  (∀ address, symbols.ReadOnly address →
    ∃ page, walk mem root (virtualBase + (address - symbols.kernelStart)) =
      some page ∧ page.writable = false) ∧
  ∀ address, symbols.ReadWrite address →
    ∃ page, walk mem root (virtualBase + (address - symbols.kernelStart)) =
      some page ∧ page.writable = true

theorem LinkerSymbols.Linked.readOnly_bounds
    (linked : symbols.Linked)
    {address : Nat}
    (readOnly : symbols.ReadOnly address) :
    symbols.kernelStart ≤ address ∧ address < symbols.roEnd := by
  have ordered := linked.ordered
  have above := le_pageAlign symbols.roStart
  have text := linked.text
  have code := linked.code
  have ro := linked.ro
  rcases readOnly with ⟨lower, upper⟩ | ⟨lower, upper⟩
  · omega
  · omega

theorem LinkerSymbols.Linked.readWrite_bounds
    (linked : symbols.Linked)
    {address : Nat}
    (readWrite : symbols.ReadWrite address) :
    symbols.roEnd ≤ address ∧ address < symbols.rwEnd := by
  have above := le_pageAlign symbols.rwStart
  have above' := le_pageAlign symbols.dataEnd
  have rw := linked.rw
  have data := linked.data
  have bss := linked.bss
  rcases readWrite with ⟨lower, upper⟩ | ⟨lower, upper⟩
  · omega
  · omega

/-- The last byte before `RO_END`, unless that is a page boundary. -/
theorem LinkerSymbols.Linked.readOnly_last
    (linked : symbols.Linked)
    (unaligned : ¬ archPageSize ∣ symbols.roEnd) :
    symbols.ReadOnly (symbols.roEnd - 1) := by
  have positive : 0 < symbols.roEnd := by
    rcases Nat.eq_zero_or_pos symbols.roEnd with zero | positive
    · rw [zero] at unaligned
      exact (unaligned (Nat.dvd_zero _)).elim
    · exact positive
  rcases linked.rodata with dropped | placed
  · left
    have start := linked.start
    have code := linked.code
    have ro := linked.ro
    have text := linked.text
    have nonempty : symbols.codeStart ≠ symbols.codeEnd := by
      intro empty
      apply unaligned
      rw [dropped, ro, ← empty, code, start]
      decide
    omega
  · right
    have apart : pageAlign symbols.roStart ≠ symbols.roEnd := by
      intro same
      apply unaligned
      rw [← same, pageAlign]
      exact Nat.dvd_mul_left _ _
    omega

/--
The image is protected exactly when the read only data ends on a page
boundary: otherwise its last page is mapped again, writable, by the loop over
the data.
-/
theorem kernel_image_protected_iff
    (linked : symbols.Linked)
    (loaded : Loaded symbols virtualBase physicalBase)
    (fresh : FreshRoot frames state)
    (supplied : Supplied frames memmap
      (symbols.image virtualBase physicalBase kernelPml4Table) state) :
    ∃ root machine, mapLoops frames memmap
        (symbols.image virtualBase physicalBase kernelPml4Table) state =
          some (root, machine) ∧
      (Protected symbols machine.mem root virtualBase ↔
        archPageSize ∣ symbols.roEnd) := by
  rcases mapLoops_image linked loaded fresh supplied with
    ⟨root, machine, returned, walks⟩
  refine ⟨root, machine, returned, ?_⟩
  have start := linked.start
  have ordered := linked.ordered
  have sizeEq := linked.size_eq
  have page : archPageSize = 4096 := rfl
  constructor
  · intro isProtected
    by_contra unaligned
    have last := linked.readOnly_last unaligned
    have bounds := linked.readOnly_bounds last
    rcases isProtected.1 _ last with ⟨found, walked, notWritable⟩
    rw [walks _ (by omega), if_pos (by rw [page] at *; omega)] at walked
    cases walked
    rw [writable_along] at notWritable
    exact absurd notWritable (by decide)
  · rintro ⟨quotient, aligned⟩
    constructor
    · intro address readOnly
      have bounds := linked.readOnly_bounds readOnly
      refine ⟨_, walks _ (by omega), ?_⟩
      rw [if_neg (by rw [page] at *; omega), writable_along]
      decide
    · intro address readWrite
      have bounds := linked.readWrite_bounds readWrite
      refine ⟨_, walks _ (by omega), ?_⟩
      rw [if_pos (Nat.div_le_div_right (by omega)), writable_along]
      decide

end Image

/-! ## Two layouts -/

/-- Sixteen bytes of code, no constants and eight bytes of data. -/
def smallSymbols : LinkerSymbols where
  kernelStart := 0xffffffff80000000
  codeStart := 0xffffffff80000000
  codeEnd := 0xffffffff80000010
  roStart := 0xffffffff80000010
  roEnd := 0xffffffff80000010
  rwStart := 0xffffffff80000010
  dataEnd := 0xffffffff80001008
  rwEnd := 0xffffffff80001008
  kernelEnd := 0xffffffff80001008

/-- A whole page of code, no constants and eight bytes of data. -/
def pageSymbols : LinkerSymbols where
  kernelStart := 0xffffffff80000000
  codeStart := 0xffffffff80000000
  codeEnd := 0xffffffff80001000
  roStart := 0xffffffff80001000
  roEnd := 0xffffffff80001000
  rwStart := 0xffffffff80001000
  dataEnd := 0xffffffff80001008
  rwEnd := 0xffffffff80001008
  kernelEnd := 0xffffffff80001008

theorem smallSymbols_linked : smallSymbols.Linked where
  start := rfl
  code := rfl
  text := by decide
  ro := rfl
  rodata := .inl rfl
  rw := rfl
  data := by decide
  bss := .inl rfl
  finish := rfl
  fits := by decide

theorem pageSymbols_linked : pageSymbols.Linked where
  start := rfl
  code := rfl
  text := by decide
  ro := rfl
  rodata := .inl rfl
  rw := rfl
  data := by decide
  bss := .inl rfl
  finish := rfl
  fits := by decide

theorem smallSymbols_loaded :
    Loaded smallSymbols 0xffffffff80000000 0x200000 :=
  ⟨by decide, by decide, by decide⟩

theorem pageSymbols_loaded :
    Loaded pageSymbols 0xffffffff80000000 0x200000 :=
  ⟨by decide, by decide, by decide⟩

/-- The loops over both images take fewer than sixteen frames. -/
theorem sampleFrames_supplied
    (image : KernelImage)
    (few : answersTaken sampleFrames
      (loopCalls [] image (sampleFrames sampleMachine.calls))
      (pfallocOne sampleFrames sampleMachine).2 ≤ 16) :
    Supplied sampleFrames [] image sampleMachine := by
  rintro ⟨k, _, upper, null⟩
  have small : k < 16 := Nat.lt_of_lt_of_le upper few
  rw [sampleFrames, if_pos small] at null
  omega

theorem kernel_image_covered_small :
    ∃ root machine, mapLoops sampleFrames []
        (smallSymbols.image 0xffffffff80000000 0x200000 0) sampleMachine =
          some (root, machine) ∧
      translate machine.mem root (0xffffffff80000000 + 0x1004) =
        some (0x200000 + 0x1004) := by
  rcases kernel_image_covered smallSymbols_linked smallSymbols_loaded
      sample_fresh (sampleFrames_supplied
        (smallSymbols.image 0xffffffff80000000 0x200000 0)
        (by decide +kernel)) with
    ⟨root, machine, returned, covered⟩
  exact ⟨root, machine, returned, covered 0x1004 (by decide)⟩

theorem kernel_image_protected_page :
    ∃ root machine, mapLoops sampleFrames []
        (pageSymbols.image 0xffffffff80000000 0x200000 0) sampleMachine =
          some (root, machine) ∧
      Protected pageSymbols machine.mem root 0xffffffff80000000 := by
  rcases kernel_image_protected_iff pageSymbols_linked pageSymbols_loaded
      sample_fresh (sampleFrames_supplied
        (pageSymbols.image 0xffffffff80000000 0x200000 0)
        (by decide +kernel)) with
    ⟨root, machine, returned, iff⟩
  exact ⟨root, machine, returned, iff.mpr (by decide)⟩

def smallTable : Nat × Machine :=
  (mapLoops sampleFrames []
    (smallSymbols.image 0xffffffff80000000 0x200000 0) sampleMachine).get
    (by decide +kernel)

/-- The code of the small layout can be written. -/
theorem kernel_image_writable_code :
    ¬ ∀ (frames : Nat → Nat) (memmap : List MemmapEntry)
        (symbols : LinkerSymbols)
        (virtualBase physicalBase kernelPml4Table root : Nat)
        (state machine : Machine),
      symbols.Linked → Loaded symbols virtualBase physicalBase →
      FreshRoot frames state →
      mapLoops frames memmap
        (symbols.image virtualBase physicalBase kernelPml4Table) state =
          some (root, machine) →
      Protected symbols machine.mem root virtualBase := by
  intro always
  have isProtected := always sampleFrames [] smallSymbols 0xffffffff80000000
    0x200000 0 smallTable.1 sampleMachine smallTable.2 smallSymbols_linked
    smallSymbols_loaded sample_fresh (by rw [Prod.mk.eta, smallTable,
      Option.some_get])
  rcases isProtected.1 0xffffffff80000000 (by
    left
    decide) with ⟨page, walked, notWritable⟩
  have writable : walk smallTable.2.mem smallTable.1
      (0xffffffff80000000 + (0xffffffff80000000 - smallSymbols.kernelStart)) =
      some ⟨0x200000, true, false⟩ := by
    decide +kernel
  rw [writable] at walked
  cases walked
  cases notWritable

end ForsKernel.Memory.Paging
