import ForsKernel.Lib.Simulation
import ForsKernel.Store.AtaRuns
import ForsKernel.Store.CacheDevices
import ForsKernel.Store.Residence

/-!
# The cache on the drives

The cache, the driver and the drives, all put together: what `bc_get` and
`bc_put` do on the hardware is what they do on devices which hold their blocks.
The drives of the stores may refuse commands and fail to write, as long as they
are honest about it; no two stores are on one drive, and blocks are asked for
by numbers which the registers of a drive can hold.
-/

namespace ForsKernel.BufferCache

open ForsKernel.Ata ForsKernel.Lib.Transition

/-! ## The drives as devices -/

/-- The words which were read are at the start of the buffer. -/
def overlay
    (words : List UInt16)
    (found : Sector) :
    Sector :=
  sectorOf fun n => words.getD n (found.words.getD n 0)

theorem sectorOf_words
    (sector : Sector)
    (other : Nat → UInt16) :
    sectorOf (fun n => sector.words.getD n (other n)) = sector := by
  apply Sector.ext_words
  apply List.ext_getElem
  · rw [(sectorOf _).size, sector.size]
  · intro n _ inside
    simp [sectorOf, inside]

/-- For each store the arguments of `ata_init_device`, if it is an ATA drive. -/
abbrev Attachment : Type :=
  Fin maxStores → Option (Bool × Bool)

/-- No two stores are on one drive. -/
def Apart (attachment : Attachment) : Prop :=
  ∀ i j, ∀ drive ∈ attachment i, drive ∈ attachment j → i = j

section

variable {σ : Type*}

def ataDevices
    (ports : Ports σ)
    (attachment : Attachment) :
    Devices σ Sector where
  wr := fun i addr contents state =>
    match attachment i with
    | none => (false, state)
    | some (p, m) =>
        let written := ports.stWr (ataInitDevice p m) addr
          (fun n => contents.words.getD n 0) state
        (written.1 != 0, written.2)
  rd := fun i addr found state =>
    match attachment i with
    | none => ((false, found), state)
    | some (p, m) =>
        let read := ports.stRd (ataInitDevice p m) addr state
        ((read.1 != 0, overlay read.2.1 found), read.2.2)

/-- The blocks of the stores are the sectors of their drives. -/
def onDrives
    (drives : Drives σ)
    (attachment : Attachment)
    (state : σ)
    (i : Fin maxStores)
    (addr : Nat) :
    Sector :=
  match attachment i with
  | none => blankSector
  | some (p, m) => drives.sectors state p (driveOf m) addr

/-- What is asked of the hardware and of the drives of the stores. -/
structure Fit
    (drives : Drives σ)
    (attachment : Attachment) :
    Prop where
  documented : drives.Documented
  silent : drives.Silent
  honest : ∀ i, ∀ drive ∈ attachment i,
    drives.Honest drive.1 (driveOf drive.2)
  apart : Apart attachment

/-- The channels are idle, and all accesses so far were in turn. -/
structure Usable
    (drives : Drives σ)
    (start state : σ) :
    Prop where
  idle : drives.Idle state
  inTurn : Relation.ReflTransGen drives.InTurn start state

/-- A number which the registers of a drive can hold. -/
def Addressable (addr : Nat) : Prop :=
  addr < 2 ^ 28

variable
  {drives : Drives σ}
  {attachment : Attachment}
  {start state : σ}
  {i : Fin maxStores}
  {addr : Nat}
  {p m : Bool}

theorem Usable.served
    {after : σ}
    {sectors : Sectors}
    (usable : Usable drives start state)
    (served : drives.Serves p state after sectors) :
    Usable drives start after :=
  ⟨(served.all usable.idle).1, usable.inTurn.trans served.leads.inTurn⟩

/-- A call of `wr` is a write to the drive of the store. -/
theorem wr_spec
    (fit : Fit drives attachment)
    (usable : Usable drives start state)
    (drive : attachment i = some (p, m))
    (small : Addressable addr)
    (contents : Sector) :
    ∃ ret after sectors,
      (ataDevices drives.ports attachment).wr i addr contents state =
        (decide (ret = ataOk), after) ∧
      drives.Serves p state after sectors ∧
      drives.disks.Writes p (driveOf m) addr contents
        (drives.channel state p).sectors ret sectors := by
  rcases ataWriteSector_drives (m := m) fit.documented fit.silent
    (usable.idle p) addr (fun n => contents.words.getD n 0) with
    ⟨ret, after, sectors, written, served, is⟩
  rw [Nat.mod_eq_of_lt small, sectorOf_words] at is
  refine ⟨ret, after, sectors, ?_, served, is⟩
  simp only [ataDevices, drive, Ports.stWr, written]
  by_cases ok : ret = ataOk
  · rw [if_pos ok.symm, decide_eq_true ok]
    rfl
  · rw [if_neg (Ne.symm ok), decide_eq_false ok]
    rfl

theorem rd_spec
    (fit : Fit drives attachment)
    (usable : Usable drives start state)
    (drive : attachment i = some (p, m))
    (small : Addressable addr)
    (found : Sector) :
    ∃ ret words after,
      (ataDevices drives.ports attachment).rd i addr found state =
        ((decide (ret = ataOk), overlay words found), after) ∧
      drives.Serves p state after (drives.channel state p).sectors ∧
      drives.disks.Reads p (driveOf m) addr
        (drives.channel state p).sectors ret words := by
  rcases ataReadSector_drives (m := m) fit.documented fit.silent
    (usable.idle p) addr with ⟨ret, words, after, read, served, is⟩
  rw [Nat.mod_eq_of_lt small] at is
  refine ⟨ret, words, after, ?_, served, is⟩
  simp only [ataDevices, drive, Ports.stRd, read]
  by_cases ok : ret = ataOk
  · rw [if_pos ok.symm, decide_eq_true ok]
    rfl
  · rw [if_neg (Ne.symm ok), decide_eq_false ok]
    rfl

/-- An honest write which reports success has stored its sector. -/
theorem writes_honest
    (disks : Disks)
    {sectors sectors' : Sectors}
    {sector : Sector}
    {drive : Nat}
    {ret : Int}
    (honest : disks.honest p drive)
    (written : disks.Writes p drive addr sector sectors ret sectors') :
    sectors' =
      if ret = ataOk then sectors.store drive addr sector else sectors := by
  cases written with
  | missing => exact (if_neg (by decide)).symm
  | refused shown => exact (if_neg (refusal_ne shown)).symm
  | taken shown left _ right _ =>
      rw [right honest]
      cases shown with
      | false => exact (if_pos rfl).symm
      | true =>
          refine Eq.trans ?_ (if_neg (by decide)).symm
          show Function.update sectors drive (Function.update
            (sectors drive) addr (sectors drive addr)) = sectors
          rw [Function.update_eq_self, Function.update_eq_self]

theorem reads_honest
    (disks : Disks)
    {sectors : Sectors}
    {drive : Nat}
    {words : List UInt16}
    (honest : disks.honest p drive)
    (read : disks.Reads p drive addr sectors ataOk words) :
    words = (sectors drive addr).words := by
  generalize ok : ataOk = ret at read
  cases read with
  | missing => exact absurd ok (by decide)
  | refused shown => exact (refusal_ne shown ok.symm).elim
  | sent sector _ right => rw [right honest]

theorem onDrives_some
    {j : Fin maxStores}
    {drive : Bool × Bool}
    (attached : attachment j = some drive)
    (state : σ) :
    onDrives drives attachment state j =
      drives.sectors state drive.1 (driveOf drive.2) := by
  funext addr
  rw [onDrives, attached]

theorem onDrives_none
    {j : Fin maxStores}
    (detached : attachment j = none)
    (state state' : σ) :
    onDrives drives attachment state j =
      onDrives drives attachment state' j := by
  funext addr
  rw [onDrives, onDrives, detached]

/-- Where the sectors stay as they are no block changes. -/
theorem onDrives_kept
    {after : σ}
    (same : drives.sectors after = drives.sectors state) :
    onDrives drives attachment after = onDrives drives attachment state := by
  funext j
  cases attached : attachment j with
  | none => exact onDrives_none attached _ _
  | some drive => rw [onDrives_some attached, onDrives_some attached, same]

/-- A sector which is written is a block of its store, and of no other. -/
theorem onDrives_written
    (apart : Apart attachment)
    (drive : attachment i = some (p, m))
    {after : σ}
    {sector : Sector}
    (written : drives.sectors after =
      Function.update (drives.sectors state) p
        ((drives.sectors state p).store (driveOf m) addr sector)) :
    onDrives drives attachment after =
      Function.update (onDrives drives attachment state) i
        (Function.update (onDrives drives attachment state i) addr
          sector) := by
  funext j
  by_cases same : j = i
  · rw [same, Function.update_self, onDrives_some drive, onDrives_some drive,
      written, Function.update_self, Sectors.store, Function.update_self]
  rw [Function.update_of_ne same]
  cases attached : attachment j with
  | none => exact onDrives_none attached _ _
  | some other =>
      rw [onDrives_some attached, onDrives_some attached, written]
      by_cases here : other.1 = p
      · have differs : driveOf other.2 ≠ driveOf m := by
          intro alike
          have twin : other.2 = m := by
            cases m <;> cases second : other.2 <;>
              simp_all [driveOf]
          rw [← here, ← twin] at drive
          exact same (apart j i other attached drive)
        rw [here, Function.update_self, store_elsewhere _ _ _ _ differs]
      · rw [Function.update_of_ne here]

/-- The drives hold the blocks of the stores which are on them. -/
theorem ataDevices_hold
    (fit : Fit drives attachment)
    (start : σ) :
    (ataDevices drives.ports attachment).Hold (onDrives drives attachment)
      (Usable drives start) (fun i => attachment i ≠ none) Addressable := by
  constructor
  · intro state i addr usable attached small contents
    rcases Option.ne_none_iff_exists'.mp attached with ⟨⟨p, m⟩, drive⟩
    rcases wr_spec fit usable drive small contents with
      ⟨ret, after, sectors, written, served, _⟩
    rw [written]
    exact usable.served served
  · intro state i addr usable attached small contents
    rcases Option.ne_none_iff_exists'.mp attached with ⟨⟨p, m⟩, drive⟩
    rcases wr_spec fit usable drive small contents with
      ⟨ret, after, sectors, written, served, is⟩
    have stored := writes_honest drives.disks
      (fit.honest i (p, m) drive) is
    have held := (served.all usable.idle).2
    rw [written]
    by_cases ok : ret = ataOk
    · rw [if_pos ok] at stored
      rw [stored] at held
      rw [if_pos (decide_eq_true ok)]
      exact onDrives_written fit.apart drive held
    · rw [if_neg ok] at stored
      rw [stored] at held
      rw [decide_eq_false ok]
      exact onDrives_kept (held.trans (Function.update_eq_self p _))
  · intro state i addr usable attached small found
    rcases Option.ne_none_iff_exists'.mp attached with ⟨⟨p, m⟩, drive⟩
    rcases rd_spec fit usable drive small found with
      ⟨ret, words, after, read, served, _⟩
    rw [read]
    exact usable.served served
  · intro state i addr usable attached small found
    rcases Option.ne_none_iff_exists'.mp attached with ⟨⟨p, m⟩, drive⟩
    rcases rd_spec fit usable drive small found with
      ⟨ret, words, after, read, served, _⟩
    rw [read]
    apply onDrives_kept
    exact (served.all usable.idle).2.trans (Function.update_eq_self p _)
  · intro state i addr usable attached small found ok
    rcases Option.ne_none_iff_exists'.mp attached with ⟨⟨p, m⟩, drive⟩
    rcases rd_spec fit usable drive small found with
      ⟨ret, words, after, read, served, is⟩
    rw [read] at ok ⊢
    rw [of_decide_eq_true ok] at is
    rw [onDrives_some drive, reads_honest drives.disks
      (fit.honest i (p, m) drive) is]
    exact sectorOf_words _ _

end

/-! ## Runs of the cache on the hardware -/

structure DiskCache (σ : Type*) where
  cache : Cache Sector
  state : σ

/-- The calls of clients; `kalloc` will return these pointers. -/
inductive DiskOp where
  | get (entryPtr dataPtr : Nat) (id : Int) (addr : Nat)
  | put (id : Int) (addr : Nat)
  | edit (ptr : Nat) (contents : Sector)

namespace DiskCache

variable {σ : Type*}

/-- Clients name registered stores and edit buffers which are cached. -/
def legal (disk : DiskCache σ) : DiskOp → Prop
  | .get entryPtr dataPtr id addr =>
      (∃ i, disk.cache.Registered id i) ∧ Addressable addr ∧
        entryPtr ∉ disk.cache.held ∧ dataPtr ∉ disk.cache.held ∧
          (entryPtr = dataPtr → entryPtr = 0)
  | .put id _ => ∃ i, disk.cache.Registered id i
  | .edit ptr _ => disk.cache.Lends ptr

instance (disk : DiskCache σ) : (op : DiskOp) → Decidable (disk.legal op)
  | .get _ _ id addr => inferInstanceAs (Decidable
      ((∃ i, disk.cache.Registered id i) ∧ addr < 2 ^ 28 ∧ _ ∧ _ ∧
        (_ → _)))
  | .put id _ =>
      inferInstanceAs (Decidable (∃ i, disk.cache.Registered id i))
  | .edit ptr _ => inferInstanceAs (Decidable (disk.cache.Lends ptr))

def step
    (drives : Drives σ)
    (attachment : Attachment)
    (disk : DiskCache σ) :
    DiskOp → Option (DiskCache σ)
  | .get entryPtr dataPtr id addr =>
      ((ataDevices drives.ports attachment).bcGet entryPtr dataPtr id addr
        disk.cache disk.state).map fun got => ⟨got.2.2.1, got.2.2.2⟩
  | .put id addr =>
      ((ataDevices drives.ports attachment).bcPut id addr disk.cache
        disk.state).map fun put => ⟨put.2.1, put.2.2⟩
  | .edit ptr contents => some ⟨disk.cache.edit ptr contents, disk.state⟩

/-- The same operation, with the replies which the drives give. -/
def view
    (drives : Drives σ)
    (attachment : Attachment)
    (disk : DiskCache σ) :
    DiskOp → List (CacheOp Sector)
  | .get entryPtr dataPtr id addr =>
      (getStoreById id).toList.map fun i =>
        .get ((ataDevices drives.ports attachment).getReplies entryPtr dataPtr
          i addr disk.cache disk.state) id addr
  | .put id addr =>
      (getStoreById id).toList.map fun i =>
        .put ((ataDevices drives.ports attachment).putReplies i addr disk.cache
          disk.state) id addr
  | .edit ptr contents => [.edit ptr contents]

/-- The cache with the sectors of the drives as its blocks. -/
def shown
    (drives : Drives σ)
    (attachment : Attachment)
    (disk : DiskCache σ)
    (log : List (WrCall Sector)) :
    Cache Sector :=
  disk.cache.shown (onDrives drives attachment disk.state) log

end DiskCache

/-- At first nothing is cached, and the registered stores are on drives. -/
def diskSystem
    {σ : Type*}
    (drives : Drives σ)
    (attachment : Attachment) :
    System (DiskCache σ) DiskOp where
  init := fun disk => disk.cache.Initial ∧
    (∀ i, (disk.cache.stores i).type ≠ none → attachment i ≠ none) ∧
      drives.Idle disk.state
  legal := DiskCache.legal
  step := DiskCache.step drives attachment

instance
    {σ : Type*}
    (drives : Drives σ)
    (attachment : Attachment)
    (disk : DiskCache σ)
    (op : DiskOp) :
    Decidable ((diskSystem drives attachment).legal disk op) :=
  inferInstanceAs (Decidable (disk.legal op))

/-- Every block in the cache was asked for. -/
theorem within_step
    {β : Type*}
    {within : Nat → Prop}
    {cache cache' : Cache β}
    {cells cells' : Lists}
    {op : CacheOp β}
    (inv : CacheInv cache cells)
    (outcome : StepOutcome cache cells op cache' cells')
    (inside : ∀ i, ∀ bc ∈ cells i, within (cache.addr bc))
    (asked : ∀ replies id addr, op = .get replies id addr → within addr) :
    ∀ i, ∀ bc ∈ cells' i, within (cache'.addr bc) := by
  cases outcome with
  | @get replies id i addr ret buf _ _ slot fresh returned outcome =>
      cases outcome with
      | hit => exact inside
      | stuck => exact inside
      | uncached calls j blk rest _ _ _ first =>
          intro k bc member
          show within ((cache.dropFirst j).addr bc)
          rw [Cache.addr, Cache.dropFirst_entry]
          exact inside k bc (CacheInv.mem_of_mem_drop first member)
      | nomem entry _ _ _ same =>
          intro k bc member
          show within (entry bc).addr
          rw [same k bc member]
          exact inside k bc member
      | loaded =>
          intro k bc member
          rcases CacheInv.mem_load member with ⟨rfl, _⟩ | old
          · rw [Cache.addr, Cache.load_entry_self]
            exact asked replies id addr rfl
          · rw [Cache.addr, inv.load_entry fresh old]
            exact inside k bc old
  | put slot outcome =>
      cases outcome with
      | saved =>
          rw [Cache.wr_addr]
          exact inside
      | absent => exact inside
  | edit => exact inside

/-- The state of both stands for one of the cache. -/
structure Stands
    {σ : Type*}
    (drives : Drives σ)
    (attachment : Attachment)
    (disk : DiskCache σ)
    (cache : Cache Sector) :
    Prop where
  idle : drives.Idle disk.state
  shown : ∃ log, cache = disk.shown drives attachment log
  attached : ∀ i, (disk.cache.stores i).type ≠ none → attachment i ≠ none
  cells : ∃ cells, CacheInv cache cells ∧
    ∀ i, ∀ bc ∈ cells i, Addressable (cache.addr bc)

section

variable
  {σ : Type*}
  {drives : Drives σ}
  {attachment : Attachment}
  {disk disk' : DiskCache σ}
  {cache cache' : Cache Sector}

/-- Any block which is cached can be written to its drive. -/
theorem Stands.savable (stands : Stands drives attachment disk cache) :
    Devices.Hold.Savable (fun i => attachment i ≠ none) Addressable
      disk.cache := by
  rcases stands with ⟨_, ⟨log, rfl⟩, attached, cells, inv, inside⟩
  intro i cached typed
  refine ⟨attached i typed, ?_⟩
  cases first : cells i with
  | nil => exact (cached (inv.first_eq_zero_iff.mpr first)).elim
  | cons blk rest =>
      have head : (disk.cache.stores i).bcFirst = blk := inv.first_eq first
      rw [head]
      exact inside i blk (by rw [first]; exact List.mem_cons_self)

/-- What the cache does next, once the hardware is known to follow. -/
theorem Stands.next
    (stands : Stands drives attachment disk cache)
    {op : CacheOp Sector}
    (last : (cacheSystem Sector).Step cache op cache')
    (asked : ∀ replies id addr, op = .get replies id addr → Addressable addr)
    (idle : drives.Idle disk'.state)
    (shown : ∃ log, cache' = disk'.shown drives attachment log) :
    Stands drives attachment disk' cache' := by
  rcases stands with ⟨_, ⟨log, rfl⟩, attached, cells, inv, inside⟩
  rcases inv.step_outcome last with ⟨cells', outcome, inv'⟩
  refine ⟨idle, shown, ?_, cells', inv',
    within_step inv outcome inside asked⟩
  rcases shown with ⟨log', rfl⟩
  intro i typed
  apply attached i
  have kept : (disk'.cache.stores i).type = (disk.cache.stores i).type :=
    type_step inv last i
  rw [← kept]
  exact typed

/-- A call of `bc_get` on the hardware is one of the cache. -/
theorem Stands.get
    (fit : Fit drives attachment)
    (stands : Stands drives attachment disk cache)
    (entryPtr dataPtr : Nat)
    {id : Int}
    {i : Fin maxStores}
    {addr : Nat}
    (registered : disk.cache.Registered id i)
    (small : Addressable addr) :
    ∃ log',
      bcGet ((ataDevices drives.ports attachment).getReplies entryPtr
          dataPtr i addr disk.cache disk.state) id addr cache =
        ((ataDevices drives.ports attachment).bcGet entryPtr dataPtr id addr
          disk.cache disk.state).map (fun got =>
            (got.1, got.2.1, DiskCache.shown drives attachment
              ⟨got.2.2.1, got.2.2.2⟩ log')) ∧
      ∀ got ∈ (ataDevices drives.ports attachment).bcGet entryPtr dataPtr id
        addr disk.cache disk.state,
          Usable drives disk.state got.2.2.2 := by
  have savable := stands.savable
  rcases stands with ⟨idle, ⟨log, rfl⟩, attached, _⟩
  exact (ataDevices_hold fit disk.state).bcGet_shown savable ⟨idle, .refl⟩
    registered.1 (attached i registered.2) small entryPtr dataPtr log

theorem Stands.put
    (fit : Fit drives attachment)
    (stands : Stands drives attachment disk cache)
    {id : Int}
    {i : Fin maxStores}
    (registered : disk.cache.Registered id i)
    (addr : Nat) :
    ∃ log',
      bcPut ((ataDevices drives.ports attachment).putReplies i addr
          disk.cache disk.state) id addr cache =
        ((ataDevices drives.ports attachment).bcPut id addr disk.cache
          disk.state).map (fun put =>
            (put.1, DiskCache.shown drives attachment ⟨put.2.1, put.2.2⟩
              log')) ∧
      ∀ put ∈ (ataDevices drives.ports attachment).bcPut id addr disk.cache
        disk.state,
          Usable drives disk.state put.2.2 := by
  rcases stands with ⟨idle, ⟨log, rfl⟩, attached, cells, inv, inside⟩
  refine (ataDevices_hold fit disk.state).bcPut_shown ⟨idle, .refl⟩
    registered.1 (attached i) ?_ log
  intro bc found notNull
  rcases inv.lookup_cases i addr with
    ⟨bc', member, same, _, found'⟩ | ⟨_, found'⟩
  · rw [← same]
    exact inside i bc' member
  · rw [DiskCache.shown, Cache.lookup_shown, found] at found'
    exact (notNull (Option.some.inj found')).elim

/-- Each step on the hardware is a step of the cache. -/
theorem Stands.step
    (fit : Fit drives attachment)
    {op : DiskOp}
    (stands : Stands drives attachment disk cache)
    (last : (diskSystem drives attachment).Step disk op disk') :
    ∃ cache',
      (cacheSystem Sector).Run cache (disk.view drives attachment op)
        cache' ∧
      Stands drives attachment disk' cache' ∧
      Relation.ReflTransGen drives.InTurn disk.state disk'.state := by
  rcases last with ⟨legal, stepped⟩
  cases op with
  | get entryPtr dataPtr id addr =>
      rcases legal with ⟨⟨i, registered⟩, small, fresh⟩
      rcases Option.map_eq_some_iff.mp stepped with ⟨got, returned, rfl⟩
      rcases stands.get fit entryPtr dataPtr registered small with
        ⟨log', same, usable⟩
      have after := usable got returned
      rw [returned, Option.map_some] at same
      have called : (cacheSystem Sector).Step cache
          (.get ((ataDevices drives.ports attachment).getReplies entryPtr
            dataPtr i addr disk.cache disk.state) id addr)
          (DiskCache.shown drives attachment ⟨got.2.2.1, got.2.2.2⟩
            log') := by
        rcases stands with ⟨_, ⟨log, rfl⟩, _⟩
        exact ⟨⟨⟨i, registered⟩, ⟨fresh.1, fresh.2.1, fresh.2.2⟩⟩,
          Cache.step_get same⟩
      refine ⟨_, ?_, stands.next called ?_ after.idle ⟨log', rfl⟩,
        after.inTurn⟩
      · rw [DiskCache.view, registered.1]
        exact .single called
      · intro replies id' addr' get
        cases get
        exact small
  | put id addr =>
      rcases legal with ⟨i, registered⟩
      rcases Option.map_eq_some_iff.mp stepped with ⟨put, returned, rfl⟩
      rcases stands.put fit registered addr with ⟨log', same, usable⟩
      have after := usable put returned
      rw [returned, Option.map_some] at same
      have called : (cacheSystem Sector).Step cache
          (.put ((ataDevices drives.ports attachment).putReplies i addr
            disk.cache disk.state) id addr)
          (DiskCache.shown drives attachment ⟨put.2.1, put.2.2⟩ log') := by
        rcases stands with ⟨_, ⟨log, rfl⟩, _⟩
        exact ⟨⟨i, registered⟩, Cache.step_put same⟩
      refine ⟨_, ?_, stands.next called ?_ after.idle ⟨log', rfl⟩,
        after.inTurn⟩
      · rw [DiskCache.view, registered.1]
        exact .single called
      · intro replies id' addr' get
        cases get
  | edit ptr contents =>
      cases stepped
      rcases stands.shown with ⟨log, rfl⟩
      have called : (cacheSystem Sector).Step
          (disk.shown drives attachment log) (.edit ptr contents)
          (DiskCache.shown drives attachment
            ⟨disk.cache.edit ptr contents, disk.state⟩ log) :=
        ⟨legal, rfl⟩
      refine ⟨_, .single called, stands.next called ?_ stands.idle
        ⟨log, rfl⟩, .refl⟩
      intro replies id' addr' get
      cases get

theorem stands_init
    (initial : (diskSystem drives attachment).init disk) :
    Stands drives attachment disk (disk.shown drives attachment []) := by
  rcases initial with ⟨empty, attached, idle⟩
  have initial : (disk.shown drives attachment []).Initial :=
    ⟨empty.count_eq, empty.first_eq, empty.null_not_held⟩
  refine ⟨idle, ⟨[], rfl⟩, attached, _, initial.inv, ?_⟩
  intro i bc member
  cases member

/-- The cache on the hardware simulates the cache on devices which answer. -/
theorem diskSystem_simulates (fit : Fit drives attachment) :
    (diskSystem drives attachment).Simulates (cacheSystem Sector)
      (DiskCache.view drives attachment) (Stands drives attachment) where
  init := by
    intro start initial
    refine ⟨_, ?_, stands_init initial⟩
    exact ⟨initial.1.count_eq, initial.1.first_eq, initial.1.null_not_held⟩
  step := by
    intro source op target model _ stands last
    rcases stands.step fit last with ⟨model', run, stands', _⟩
    exact ⟨model', run, stands'⟩

/-- All accesses of a run are in turn. -/
theorem run_inTurn
    (fit : Fit drives attachment)
    {start target : DiskCache σ}
    {ops : List DiskOp}
    (initial : (diskSystem drives attachment).init start)
    (run : (diskSystem drives attachment).Run start ops target) :
    Relation.ReflTransGen drives.InTurn start.state target.state := by
  induction run with
  | nil => exact .refl
  | snoc before last induction =>
      rcases (diskSystem_simulates fit).run (.start initial)
        (stands_init initial) before with ⟨_, _, stands⟩
      rcases stands.step fit last with ⟨_, _, _, inTurn⟩
      exact induction.trans inTurn

end

/-! ### A board with one store -/

/-- The first store is the master of the first channel. -/
def oneDrive : Attachment :=
  fun i => if i = firstStore then some (true, true) else none

def blankDisk : DiskCache Board where
  cache :=
    { bcCachedCount := 0
      stores := fun i =>
        ⟨if i = firstStore then some 0 else none, fun _ => blankSector, 0⟩
      entry := fun _ => ⟨0, 0, 0⟩
      buffer := fun _ => blankSector
      held := ∅
      wrCalls := [] }
  state := freshBoard

def sevens : Sector :=
  sectorOf fun _ => 7

/-- Block 5 is read, edited and saved. -/
def savingOps : List DiskOp :=
  [.get 10 20 0 5, .edit 20 sevens, .put 0 5]

/-- The third command fails, and the drive says so. -/
def honestMasters : Conduct :=
  masters fun n => ⟨none, none, none, n == 2⟩

theorem savingOps_replayed :
    ((diskSystem honestMasters.drives oneDrive).replay blankDisk
      savingOps).isSome = true := by
  decide +kernel

def savedDisk : DiskCache Board :=
  ((diskSystem honestMasters.drives oneDrive).replay blankDisk
    savingOps).get savingOps_replayed

theorem oneDrive_eq
    {i : Fin maxStores}
    {drive : Bool × Bool}
    (attached : drive ∈ oneDrive i) :
    i = firstStore ∧ drive = (true, true) := by
  by_cases here : i = firstStore
  · rw [oneDrive, if_pos here] at attached
    exact ⟨here, (Option.some.inj attached).symm⟩
  · rw [oneDrive, if_neg here] at attached
    cases attached

theorem honestMasters_fit : Fit honestMasters.drives oneDrive where
  documented := honestMasters.documented
  silent := honestMasters.silent
  honest := by
    intro i drive attached
    rw [(oneDrive_eq attached).2]
    exact Conduct.honest (fun _ => ⟨rfl, rfl⟩) true 0 rfl
  apart := by
    intro i j drive first second
    rw [(oneDrive_eq first).1, (oneDrive_eq second).1]

theorem blankDisk_init :
    (diskSystem honestMasters.drives oneDrive).init blankDisk := by
  refine ⟨⟨rfl, fun _ => rfl, by decide⟩, ?_, freshBoard_idle _⟩
  intro i typed
  by_cases here : i = firstStore
  · rw [oneDrive, if_pos here]
    exact Option.some_ne_none _
  · exact (typed (if_neg here)).elim

end ForsKernel.BufferCache
