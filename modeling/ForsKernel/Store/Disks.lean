import ForsKernel.Lib.Machine
import ForsKernel.Store.AtaPorts

/-!
# The disks which the driver is for

Four drives on two channels, without any ports: what may come of each call of
the driver.  A drive may refuse what it is asked for, with an error or without,
and may send and store what it likes; an honest one does so only if it shows an
error, and a sound one never does.
-/

namespace ForsKernel.Ata

open ForsKernel.Lib

/-! ## What a drive may do -/

/-- The words of a sector. -/
structure Sector where
  words : List UInt16
  size : words.length = 256

def blankSector : Sector where
  words := List.replicate 256 0
  size := List.length_replicate

theorem Sector.ext_words
    {s t : Sector}
    (same : s.words = t.words) :
    s = t := by
  cases s
  cases t
  cases same
  rfl

theorem sectorOf_size (buf : Nat → UInt16) :
    ((List.range 256).map buf).length = 256 := by
  rw [List.length_map, List.length_range]

/-- The sector in a buffer, which is counted in words. -/
def sectorOf (buf : Nat → UInt16) : Sector where
  words := (List.range 256).map buf
  size := sectorOf_size buf

/-- What the sectors of the drives of a channel hold. -/
abbrev Sectors : Type :=
  Nat → Nat → Sector

/-- A sector of a drive now holds this. -/
def Sectors.store
    (sectors : Sectors)
    (drive address : Nat)
    (sector : Sector) :
    Sectors :=
  Function.update sectors drive
    (Function.update (sectors drive) address sector)

/-- Which drives there are, what they are, and how far they can be trusted. -/
structure Disks where
  present : Bool → Nat → Bool
  identity : Bool → Nat → Sector
  honest : Bool → Nat → Prop
  sound : Bool → Nat → Prop
  honest_of_sound : ∀ p drive, sound p drive → honest p drive

/-- A refusal is an error, or the wait for the data runs out. -/
def refusal (shown : Bool) : Int :=
  if shown then ataErrDriveError else ataErrTimeout

theorem refusal_ne (shown : Bool) : refusal shown ≠ ataOk := by
  cases shown <;> decide

namespace Disks

variable
  (disks : Disks)
  (p : Bool)
  (drive address : Nat)

/-- What may come of reading a sector: the value and the words. -/
inductive Reads (sectors : Sectors) : Int → List UInt16 → Prop where
  | missing :
      disks.present p drive = false →
      Reads sectors ataErrTimeout []
  | refused (shown : Bool) :
      disks.present p drive = true →
      ¬ disks.sound p drive →
      Reads sectors (refusal shown) []
  | sent (sector : Sector) :
      disks.present p drive = true →
      (disks.honest p drive → sector = sectors drive address) →
      Reads sectors ataOk sector.words

/-- What may come of writing a sector: the value, and what is then held. -/
inductive Writes
    (sector : Sector)
    (sectors : Sectors) :
    Int → Sectors → Prop where
  | missing :
      disks.present p drive = false →
      Writes sector sectors ataErrTimeout sectors
  | refused (shown : Bool) :
      disks.present p drive = true →
      ¬ disks.sound p drive →
      Writes sector sectors (refusal shown) sectors
  | taken
      (shown : Bool)
      (left : Sector) :
      disks.present p drive = true →
      (disks.honest p drive →
        left = if shown then sectors drive address else sector) →
      (disks.sound p drive → shown = false) →
      Writes sector sectors (if shown then ataErrDriveError else ataOk)
        (sectors.store drive address left)

/-- What may come of asking a drive what it is. -/
inductive Identifies : Int → List UInt16 → Prop where
  | missing :
      disks.present p drive = false →
      Identifies ataErrInvalidDrive []
  | refused (shown : Bool) :
      disks.present p drive = true →
      ¬ disks.sound p drive →
      Identifies (refusal shown) []
  | sent :
      disks.present p drive = true →
      Identifies ataOk (disks.identity p drive).words

/-- Sector after sector is read, up to the first one which fails. -/
inductive ReadsAll
    (sectors : Sectors) :
    List Nat → Int → List UInt16 → Prop where
  | nil : ReadsAll sectors [] ataOk []
  | failed
      {address : Nat}
      {rest : List Nat}
      {ret : Int}
      {words : List UInt16} :
      disks.Reads p drive address sectors ret words →
      ret ≠ ataOk →
      ReadsAll sectors (address :: rest) ret words
  | cons
      {address : Nat}
      {rest : List Nat}
      {ret : Int}
      {words others : List UInt16} :
      disks.Reads p drive address sectors ataOk words →
      ReadsAll sectors rest ret others →
      ReadsAll sectors (address :: rest) ret (words ++ others)

inductive WritesAll :
    Sectors → List (Nat × Sector) → Int → Sectors → Prop where
  | nil (sectors : Sectors) : WritesAll sectors [] ataOk sectors
  | failed
      {sectors sectors' : Sectors}
      {address : Nat}
      {sector : Sector}
      {rest : List (Nat × Sector)}
      {ret : Int} :
      disks.Writes p drive address sector sectors ret sectors' →
      ret ≠ ataOk →
      WritesAll sectors ((address, sector) :: rest) ret sectors'
  | cons
      {sectors sectors' sectors'' : Sectors}
      {address : Nat}
      {sector : Sector}
      {rest : List (Nat × Sector)}
      {ret : Int} :
      disks.Writes p drive address sector sectors ataOk sectors' →
      WritesAll sectors' rest ret sectors'' →
      WritesAll sectors ((address, sector) :: rest) ret sectors''

end Disks

/-! ## Calls -/

/-- What is asked of a device; a buffer is counted in words. -/
inductive Request where
  | readSector (lba : Nat)
  | writeSector (lba : Nat) (buf : Nat → UInt16)
  | readSectors (startLba count : Nat)
  | writeSectors (startLba count : Nat) (buf : Nat → UInt16)
  | identify

/-- A call on the device with these arguments of `ata_init_device`. -/
structure Call where
  primary : Bool
  master : Bool
  request : Request

/-- The value of a call and what it has stored to its buffer. -/
abbrev Answer : Type :=
  Int × List UInt16

/-- The drive of a device. -/
def driveOf (master : Bool) : Nat :=
  if master then 0 else 1

/-- The addresses of so many sectors from one on. -/
def span (startLba count : Nat) : List Nat :=
  (List.range count).map fun i => (startLba + i) % 2 ^ 28

/-- The sectors in a buffer, with their addresses. -/
def laid
    (startLba count : Nat)
    (buf : Nat → UInt16) :
    List (Nat × Sector) :=
  (List.range count).map fun i =>
    ((startLba + i) % 2 ^ 28, sectorOf fun word => buf (i * 256 + word))

/-- What may come of a request to a drive. -/
inductive Request.Asks
    (disks : Disks)
    (p : Bool)
    (drive : Nat)
    (sectors : Sectors) :
    Request → Answer → Sectors → Prop where
  | readSector
      {lba : Nat}
      {ret : Int}
      {words : List UInt16} :
      disks.Reads p drive (lba % 2 ^ 28) sectors ret words →
      Asks disks p drive sectors (.readSector lba) (ret, words) sectors
  | writeSector
      {lba : Nat}
      {buf : Nat → UInt16}
      {ret : Int}
      {sectors' : Sectors} :
      disks.Writes p drive (lba % 2 ^ 28) (sectorOf buf) sectors ret
        sectors' →
      Asks disks p drive sectors (.writeSector lba buf) (ret, []) sectors'
  | readSectors
      {startLba count : Nat}
      {ret : Int}
      {words : List UInt16} :
      disks.ReadsAll p drive sectors (span startLba count) ret words →
      Asks disks p drive sectors (.readSectors startLba count) (ret, words)
        sectors
  | writeSectors
      {startLba count : Nat}
      {buf : Nat → UInt16}
      {ret : Int}
      {sectors' : Sectors} :
      disks.WritesAll p drive sectors (laid startLba count buf) ret
        sectors' →
      Asks disks p drive sectors (.writeSectors startLba count buf) (ret, [])
        sectors'
  | identify
      {ret : Int}
      {words : List UInt16} :
      disks.Identifies p drive ret words →
      Asks disks p drive sectors .identify (ret, words) sectors

/-- Each call is a request to one drive of one channel. -/
def Disks.serve (disks : Disks) : Spec (Bool → Sectors) Call Answer :=
  fun sectors call answer sectors' =>
    ∃ channel,
      call.request.Asks disks call.primary (driveOf call.master)
        (sectors call.primary) answer channel ∧
      sectors' = Function.update sectors call.primary channel

/-! ## A sound drive -/

section

variable
  {disks : Disks}
  {p : Bool}
  {drive address : Nat}
  {sectors sectors' : Sectors}
  {ret : Int}
  {words : List UInt16}

theorem reads_sound
    (sound : disks.sound p drive)
    (present : disks.present p drive = true)
    (read : disks.Reads p drive address sectors ret words) :
    ret = ataOk ∧ words = (sectors drive address).words := by
  cases read with
  | missing absent =>
      rw [present] at absent
      cases absent
  | refused _ _ unsound => exact (unsound sound).elim
  | sent sector _ right =>
      rw [right (disks.honest_of_sound p drive sound)]
      exact ⟨rfl, rfl⟩

theorem writes_sound
    {sector : Sector}
    (sound : disks.sound p drive)
    (present : disks.present p drive = true)
    (written : disks.Writes p drive address sector sectors ret sectors') :
    ret = ataOk ∧ sectors' = sectors.store drive address sector := by
  cases written with
  | missing absent =>
      rw [present] at absent
      cases absent
  | refused _ _ unsound => exact (unsound sound).elim
  | taken shown left _ right fine =>
      rw [right (disks.honest_of_sound p drive sound), fine sound]
      exact ⟨rfl, rfl⟩

theorem readsAll_sound
    {addresses : List Nat}
    (sound : disks.sound p drive)
    (present : disks.present p drive = true)
    (read : disks.ReadsAll p drive sectors addresses ret words) :
    ret = ataOk ∧
      words = addresses.flatMap fun address =>
        (sectors drive address).words := by
  induction read with
  | nil => exact ⟨rfl, rfl⟩
  | failed read failed =>
      exact (failed (reads_sound sound present read).1).elim
  | cons read _ induction =>
      rcases induction with ⟨ok, others⟩
      rw [List.flatMap_cons, ← others, (reads_sound sound present read).2]
      exact ⟨ok, rfl⟩

/-- What a drive holds after a sector has been stored. -/
theorem store_apply
    (sectors : Sectors)
    (drive there address : Nat)
    (sector : Sector) :
    sectors.store drive there sector drive address =
      if there = address then sector else sectors drive address := by
  rw [Sectors.store, Function.update_self, Function.update_apply]
  simp only [eq_comm]

/-- Of the sectors written to an address, the last one stays there. -/
theorem writesAll_sound
    {written : List (Nat × Sector)}
    (sound : disks.sound p drive)
    (present : disks.present p drive = true)
    (stored : disks.WritesAll p drive sectors written ret sectors') :
    sectors' drive address =
      ((written.findRev? fun written => written.1 == address).map
        Prod.snd).getD (sectors drive address) := by
  induction stored with
  | nil => rfl
  | failed stored failed =>
      exact (failed (writes_sound sound present stored).1).elim
  | @cons before _ _ there sector rest _ stored _ induction =>
      have here := store_apply before drive there address sector
      rw [← (writes_sound sound present stored).2] at here
      rw [induction, here, List.findRev?]
      cases found : rest.findRev? fun written => written.1 == address with
      | some later => rfl
      | none =>
          by_cases same : there = address
          · simp [same]
          · simp [same]

/-! ### The other drive -/

theorem store_elsewhere
    (sectors : Sectors)
    (drive address : Nat)
    (sector : Sector)
    {other : Nat}
    (differs : other ≠ drive) :
    sectors.store drive address sector other = sectors other :=
  Function.update_of_ne differs _ _

theorem writes_elsewhere
    {sector : Sector}
    (written : disks.Writes p drive address sector sectors ret sectors')
    {other : Nat}
    (differs : other ≠ drive) :
    sectors' other = sectors other := by
  cases written with
  | missing => rfl
  | refused => rfl
  | taken shown left => exact store_elsewhere _ _ _ _ differs

theorem writesAll_elsewhere
    {written : List (Nat × Sector)}
    (stored : disks.WritesAll p drive sectors written ret sectors')
    {other : Nat}
    (differs : other ≠ drive) :
    sectors' other = sectors other := by
  induction stored with
  | nil => rfl
  | failed stored _ => exact writes_elsewhere stored differs
  | cons stored _ induction =>
      rw [induction, writes_elsewhere stored differs]

theorem Request.Asks.elsewhere
    {request : Request}
    {answer : Answer}
    (asked : request.Asks disks p drive sectors answer sectors')
    {other : Nat}
    (differs : other ≠ drive) :
    sectors' other = sectors other := by
  cases asked with
  | readSector => rfl
  | writeSector written => exact writes_elsewhere written differs
  | readSectors => rfl
  | writeSectors stored => exact writesAll_elsewhere stored differs
  | identify => rfl

/-! ### What is held -/

/-- The sector which a request leaves at an address, if it writes to it. -/
def Request.leaves (address : Nat) : Request → Option Sector
  | .writeSector lba buf =>
      if lba % 2 ^ 28 = address then some (sectorOf buf) else none
  | .writeSectors startLba count buf =>
      ((laid startLba count buf).findRev? fun written =>
        written.1 == address).map Prod.snd
  | _ => none

/--
What a drive holds at an address when it has held this sector before: what the
last call left there which wrote to the address, whatever was asked in between.
-/
def contents
    (p m : Bool)
    (address : Nat)
    (before : Sector) :
    List Call → Sector
  | [] => before
  | call :: calls =>
      contents p m address
        (if call.primary = p ∧ call.master = m then
          (call.request.leaves address).getD before else before) calls

/-- A request to a sound drive leaves there what it writes. -/
theorem Request.Asks.leaves
    {request : Request}
    {answer : Answer}
    (asked : request.Asks disks p drive sectors answer sectors')
    (sound : disks.sound p drive)
    (present : disks.present p drive = true) :
    sectors' drive address =
      (request.leaves address).getD (sectors drive address) := by
  cases asked with
  | readSector => rfl
  | @writeSector lba buf _ _ written =>
      rw [(writes_sound sound present written).2, store_apply,
        Request.leaves]
      by_cases same : lba % 2 ^ 28 = address
      · rw [if_pos same, if_pos same]
        rfl
      · rw [if_neg same, if_neg same]
        rfl
  | readSectors => rfl
  | writeSectors stored => exact writesAll_sound sound present stored
  | identify => rfl

/-- What a call does to a sound drive of one of the channels. -/
theorem serve_contents
    {m : Bool}
    {all all' : Bool → Sectors}
    {call : Call}
    {answer : Answer}
    (sound : disks.sound p (driveOf m))
    (present : disks.present p (driveOf m) = true)
    (served : disks.serve all call answer all') :
    all' p (driveOf m) address =
      if call.primary = p ∧ call.master = m then
        (call.request.leaves address).getD (all p (driveOf m) address)
      else all p (driveOf m) address := by
  rcases call with ⟨q, n, request⟩
  rcases served with ⟨channel, asked, rfl⟩
  show Function.update all q channel p (driveOf m) address = _
  by_cases same : q = p
  · cases same
    rw [Function.update_self]
    by_cases drive : n = m
    · cases drive
      rw [if_pos ⟨rfl, rfl⟩]
      exact asked.leaves sound present
    · have differs : driveOf m ≠ driveOf n := by
        cases m <;> cases n <;> simp_all [driveOf]
      rw [if_neg fun both => drive both.2]
      exact congrFun (asked.elsewhere differs) address
  · rw [Function.update_of_ne (Ne.symm same),
      if_neg fun both => same both.1]

/-- After any calls a sound drive holds what its last writes have left. -/
theorem run_contents
    {m : Bool}
    {all all' : Bool → Sectors}
    {calls : List Call}
    {answers : List Answer}
    (sound : disks.sound p (driveOf m))
    (present : disks.present p (driveOf m) = true)
    (run : disks.serve.Run all calls answers all') :
    all' p (driveOf m) address =
      contents p m address (all p (driveOf m) address) calls := by
  induction run with
  | nil => rfl
  | cons first _ induction =>
      rw [induction, contents, serve_contents sound present first]

/-- So that is what is read from it. -/
theorem run_read
    (disks : Disks)
    {m : Bool}
    {all all' all'' : Bool → Sectors}
    {calls : List Call}
    {answers : List Answer}
    {answer : Answer}
    {startLba count : Nat}
    (sound : disks.sound p (driveOf m))
    (present : disks.present p (driveOf m) = true)
    (run : disks.serve.Run all calls answers all')
    (read : disks.serve all' ⟨p, m, .readSectors startLba count⟩ answer all'') :
    answer =
      (ataOk, (span startLba count).flatMap fun address =>
        (contents p m address (all p (driveOf m) address) calls).words) := by
  rcases read with ⟨channel, asked, -⟩
  cases asked with
  | readSectors read =>
      rcases readsAll_sound sound present read with ⟨rfl, rfl⟩
      simp only [run_contents sound present run]

end

/-! ### What is written is read -/

theorem contents_append
    (p m : Bool)
    (address : Nat)
    (before : Sector)
    (calls more : List Call) :
    contents p m address before (calls ++ more) =
      contents p m address (contents p m address before calls) more := by
  induction calls generalizing before with
  | nil => rfl
  | cons call calls induction => exact induction _

/-- Calls which write elsewhere leave a sector as it is. -/
theorem contents_spared
    {p m : Bool}
    {address : Nat}
    {calls : List Call}
    (spared : ∀ call ∈ calls, call.primary = p → call.master = m →
      call.request.leaves address = none)
    (before : Sector) :
    contents p m address before calls = before := by
  induction calls generalizing before with
  | nil => rfl
  | cons call calls induction =>
      rw [contents]
      have unchanged : (if call.primary = p ∧ call.master = m then
          (call.request.leaves address).getD before else before) = before := by
        split
        · rename_i same
          rw [spared call List.mem_cons_self same.1 same.2]
          rfl
        · rfl
      rw [unchanged]
      exact induction (fun call member =>
        spared call (List.mem_cons_of_mem _ member)) before

/-- A span of at most `2^28` sectors does not come around to its start. -/
theorem span_inj
    {startLba count i j : Nat}
    (small : count ≤ 2 ^ 28)
    (first : i < count)
    (second : j < count)
    (same : (startLba + i) % 2 ^ 28 = (startLba + j) % 2 ^ 28) :
    i = j := by
  omega

/-- The last sector of a buffer at an address is the only one there. -/
theorem findRev?_laid
    {startLba count i : Nat}
    (buf : Nat → UInt16)
    (small : count ≤ 2 ^ 28)
    (inside : i < count) :
    (laid startLba count buf).findRev? (fun written =>
      written.1 == (startLba + i) % 2 ^ 28) =
        some ((startLba + i) % 2 ^ 28,
          sectorOf fun word => buf (i * 256 + word)) := by
  rw [List.findRev?_eq_find?_reverse]
  induction count with
  | zero => omega
  | succ count induction =>
      have last : (laid startLba (count + 1) buf).reverse =
          ((startLba + count) % 2 ^ 28,
            sectorOf fun word => buf (count * 256 + word)) ::
              (laid startLba count buf).reverse := by
        simp [laid, List.range_succ]
      rw [last, List.find?_cons]
      by_cases here : i = count
      · rw [here]
        simp
      · have differs : (startLba + count) % 2 ^ 28 ≠
            (startLba + i) % 2 ^ 28 := fun same =>
          here (span_inj small inside (Nat.lt_succ_self count) same.symm)
        have other : ((startLba + count) % 2 ^ 28 ==
            (startLba + i) % 2 ^ 28) = false :=
          beq_eq_false_iff_ne.mpr differs
        simp only [other]
        exact induction (Nat.le_of_succ_le small) (by omega)

/-- The sectors of a buffer make up its words. -/
theorem words_laid
    (count : Nat)
    (buf : Nat → UInt16) :
    ((List.range count).flatMap fun i =>
      (sectorOf fun word => buf (i * 256 + word)).words) =
        (List.range (count * 256)).map buf := by
  induction count with
  | zero => rfl
  | succ count induction =>
      rw [List.range_succ, List.flatMap_append, induction, Nat.succ_mul,
        List.range_add, List.map_append, List.map_map]
      simp [sectorOf, Function.comp_def]

/-- A buffer is what its sectors hold until something else is written there. -/
theorem contents_laid
    {p m : Bool}
    {startLba count : Nat}
    {before : Nat → Sector}
    {earlier later : List Call}
    (small : count ≤ 2 ^ 28)
    (buf : Nat → UInt16)
    (spared : ∀ call ∈ later, call.primary = p → call.master = m →
      ∀ address ∈ span startLba count, call.request.leaves address = none) :
    ((span startLba count).flatMap fun address =>
      (contents p m address (before address)
        (earlier ++
          ⟨p, m, .writeSectors startLba count buf⟩ :: later)).words) =
      (List.range (count * 256)).map buf := by
  rw [← words_laid count buf, span, List.flatMap_map]
  refine List.flatMap_congr fun i member => ?_
  have inside := List.mem_range.mp member
  have spared' : ∀ call ∈ later, call.primary = p → call.master = m →
      call.request.leaves ((startLba + i) % 2 ^ 28) = none :=
    fun call among primary master => spared call among primary master _
      (List.mem_map_of_mem member)
  have written : (Request.writeSectors startLba count buf).leaves
      ((startLba + i) % 2 ^ 28) =
        some (sectorOf fun word => buf (i * 256 + word)) := by
    rw [Request.leaves, findRev?_laid buf small inside]
    rfl
  rw [contents_append, contents, if_pos ⟨rfl, rfl⟩, written,
    contents_spared spared']
  rfl

end ForsKernel.Ata
