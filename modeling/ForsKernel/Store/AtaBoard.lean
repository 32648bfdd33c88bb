import ForsKernel.Store.AtaDrive

/-!
# A board with drives

Hardware on which the driver can be run.  The drives take each command as a
tape of verdicts says and are busy for as long as a tape of delays says, and
accesses out of turn do nothing.  What the tapes may hold is what the protocol
leaves open, so a board keeps to it whatever its drives are like.
-/

namespace ForsKernel.Ata

/-! ## The drives -/

/--
How a drive takes a command: it is refused, or it goes wrong.  A sector may be
sent or stored as something else, and a write may show an error.
-/
structure Verdict where
  refused : Option Bool
  sent : Option Sector
  left : Option Sector
  shown : Bool

/-- Which drives are on the board, and how they take commands. -/
structure Conduct where
  present : Bool → Nat → Bool
  identity : Bool → Nat → Sector
  verdict : Nat → Verdict
  delay : Nat → Nat
  prompt : ∀ n, delay n < timeout

/-- A channel of the board; each command to it is a turn. -/
structure Side where
  channel : Channel
  turns : Nat

abbrev Board : Type :=
  Bool → Side

namespace Conduct

variable
  (conduct : Conduct)
  (p : Bool)
  (side : Side)

/-- The selected drive is there, and it is not busy. -/
def ready : Bool :=
  conduct.present p side.channel.selected && side.channel.busy == 0

/-- A command can be given. -/
def resting : Bool :=
  side.channel.phase == .idle &&
    (!conduct.present p side.channel.selected || side.channel.busy == 0)

def status : UInt8 :=
  if conduct.present p side.channel.selected = false then 0
  else if side.channel.busy ≠ 0 then ataStatusBsy
  else if side.channel.phase ≠ .idle then 0x40 ||| ataStatusDrq
  else if side.channel.error then 0x40 ||| ataStatusErr
  else 0x40

/-- The drive goes on to a phase, and takes its time. -/
def enter
    (phase : Phase)
    (error : Bool) :
    Side :=
  { side with
    channel := side.channel.enter phase error (conduct.delay side.turns) }

/-- A command is refused, answered with data, or followed by data. -/
def command (value : UInt8) : Side :=
  let taken := { side with turns := side.turns + 1 }
  let verdict := conduct.verdict side.turns
  let channel := side.channel
  if conduct.present p channel.selected = false then side
  else match verdict.refused with
    | some shown => conduct.enter taken .idle shown
    | none =>
        if value = ataCmdReadSectors ∧ channel.OneSector then
          conduct.enter taken (.sending (verdict.sent.getD
            (channel.sectors channel.selected channel.address)).words) false
        else if value = ataCmdWriteSectors ∧ channel.OneSector then
          conduct.enter taken (.receiving []) false
        else if value = ataCmdIdentify then
          conduct.enter taken
            (.sending (conduct.identity p channel.selected).words) false
        else conduct.enter taken .idle true

def outb
    (offset : Nat)
    (value : UInt8) :
    Side :=
  if conduct.resting p side = false then side
  else if offset = 6 then
    { side with
      channel :=
        side.channel.select value false (conduct.delay side.turns) }
  else if offset = 7 then conduct.command p side value
  else { side with channel := side.channel.setRegister offset value }

def inw : UInt16 × Side :=
  match conduct.ready p side, side.channel.phase with
  | true, .sending (word :: rest) =>
      (word,
        { side with
          channel := side.channel.enter
            (if rest = [] then .idle else .sending rest) false 0 })
  | _, _ => (0, side)

/-- What is left of a sector which has been written. -/
def left (sector : Sector) : Sector :=
  let verdict := conduct.verdict (side.turns - 1)
  verdict.left.getD
    (if verdict.shown then
      side.channel.sectors side.channel.selected side.channel.address
    else sector)

def outw (word : UInt16) : Side :=
  match conduct.ready p side, side.channel.phase with
  | true, .receiving words =>
      if size : (words ++ [word]).length = 256 then
        conduct.enter
          { side with
            channel := side.channel.leave
              (conduct.left side ⟨words ++ [word], size⟩) }
          .idle (conduct.verdict (side.turns - 1)).shown
      else
        { side with
          channel :=
            side.channel.enter (.receiving (words ++ [word])) false 0 }
  | _, _ => side

end Conduct

/-! ## The ports -/

/-- The channel of a port and its offset; the control port comes last. -/
def portOf (port : Nat) : Option (Bool × Nat) :=
  if 0x1F0 ≤ port ∧ port ≤ 0x1F7 then some (true, port - 0x1F0)
  else if 0x170 ≤ port ∧ port ≤ 0x177 then some (false, port - 0x170)
  else if port = 0x3F6 then some (true, 8)
  else if port = 0x376 then some (false, 8)
  else none

namespace Board

variable (conduct : Conduct)

def inb
    (port : Nat)
    (board : Board) :
    UInt8 × Board :=
  match portOf port with
  | none => (0xFF, board)
  | some (p, offset) =>
      if 7 ≤ offset then
        (conduct.status p (board p),
          Function.update board p
            { board p with channel := (board p).channel.tick })
      else ((board p).channel.registers offset, board)

def inw
    (port : Nat)
    (board : Board) :
    UInt16 × Board :=
  match portOf port with
  | some (p, 0) =>
      ((conduct.inw p (board p)).1,
        Function.update board p (conduct.inw p (board p)).2)
  | _ => (0xFFFF, board)

def outb
    (port : Nat)
    (value : UInt8)
    (board : Board) :
    Board :=
  match portOf port with
  | none => board
  | some (p, offset) =>
      Function.update board p (conduct.outb p (board p) offset value)

def outw
    (port : Nat)
    (word : UInt16)
    (board : Board) :
    Board :=
  match portOf port with
  | some (p, 0) => Function.update board p (conduct.outw p (board p) word)
  | _ => board

end Board

/-- The hardware which a board is. -/
def Conduct.drives (conduct : Conduct) : Drives Board where
  ports :=
    { inb := Board.inb conduct
      inw := Board.inw conduct
      outb := Board.outb conduct
      outw := Board.outw conduct }
  present := conduct.present
  identity := conduct.identity
  channel := fun board p => (board p).channel

/-! ## A board keeps to the protocol -/

section

variable
  {conduct : Conduct}
  {p : Bool}
  {board : Board}

theorem portOf_data
    (p : Bool)
    {offset : Nat}
    (small : offset ≤ 7) :
    portOf (dataPort p + offset) = some (p, offset) := by
  cases p with
  | true =>
      show (if 0x1F0 ≤ 0x1F0 + offset ∧ 0x1F0 + offset ≤ 0x1F7 then
        some (true, 0x1F0 + offset - 0x1F0) else _) = _
      rw [if_pos (by omega), Nat.add_sub_cancel_left]
  | false =>
      show (if 0x1F0 ≤ 0x170 + offset ∧ 0x170 + offset ≤ 0x1F7 then _
        else if 0x170 ≤ 0x170 + offset ∧ 0x170 + offset ≤ 0x177 then
          some (false, 0x170 + offset - 0x170) else _) = _
      rw [if_neg (by omega), if_pos (by omega), Nat.add_sub_cancel_left]

theorem inb_statusPort
    {port : Nat}
    (is_status : port ∈ statusPorts p) :
    conduct.drives.ports.inb port board =
      (conduct.status p (board p),
        Function.update board p
          { board p with channel := (board p).channel.tick }) := by
  show Board.inb conduct port board = _
  rcases List.mem_pair.mp is_status with rfl | rfl
  · rw [Board.inb, portOf_data p (Nat.le_refl 7)]
    rfl
  · cases p <;> rfl

theorem outb_dataPort
    {offset : Nat}
    (small : offset ≤ 7)
    (value : UInt8) :
    conduct.drives.ports.outb (dataPort p + offset) value board =
      Function.update board p (conduct.outb p (board p) offset value) := by
  show Board.outb conduct _ value board = _
  rw [Board.outb, portOf_data p small]

theorem inw_dataPort :
    conduct.drives.ports.inw (dataPort p) board =
      ((conduct.inw p (board p)).1,
        Function.update board p (conduct.inw p (board p)).2) := by
  show Board.inw conduct _ board = _
  rw [Board.inw, ← Nat.add_zero (dataPort p), portOf_data p (Nat.zero_le 7)]
  rfl

theorem outw_dataPort (word : UInt16) :
    conduct.drives.ports.outw (dataPort p) word board =
      Function.update board p (conduct.outw p (board p) word) := by
  show Board.outw conduct _ word board = _
  rw [Board.outw, ← Nat.add_zero (dataPort p), portOf_data p (Nat.zero_le 7)]
  rfl

/-- A change of one side is one of its channel. -/
theorem channel_update (side : Side) :
    conduct.drives.channel (Function.update board p side) =
      Function.update (conduct.drives.channel board) p side.channel := by
  funext q
  show (Function.update board p side q).channel = _
  by_cases same : q = p
  · rw [same, Function.update_self, Function.update_self]
  · rw [Function.update_of_ne same, Function.update_of_ne same]
    rfl

theorem resting_of_rests (rests : conduct.drives.Rests board p) :
    conduct.resting p (board p) = true := by
  unfold Conduct.resting
  rw [show (board p).channel.phase = .idle from rests.phase]
  cases present : conduct.present p (board p).channel.selected with
  | false => rfl
  | true =>
      rw [show (board p).channel.busy = 0 from rests.busy present]
      rfl

theorem ready_of_answers
    (answers : conduct.drives.Answers board p)
    (ready : (conduct.drives.channel board p).busy = 0) :
    conduct.ready p (board p) = true := by
  unfold Conduct.ready
  rw [show conduct.present p (board p).channel.selected = true from answers,
    show (board p).channel.busy = 0 from ready]
  rfl

theorem status_shows (answers : conduct.drives.Answers board p) :
    (conduct.drives.channel board p).Shows (conduct.status p (board p)) := by
  have present : ¬ conduct.present p (board p).channel.selected = false := by
    rw [show conduct.present p (board p).channel.selected = true from answers]
    decide
  show (board p).channel.Shows _
  rw [Conduct.status, if_neg present]
  by_cases ready : (board p).channel.busy = 0
  · rw [if_neg (not_not.mpr ready)]
    by_cases idle : (board p).channel.phase = .idle
    · rw [if_neg (not_not.mpr idle)]
      cases error : (board p).channel.error
      · constructor <;> simp [ready, idle, error] <;> decide
      · constructor <;> simp [ready, idle, error] <;> decide
    · rw [if_pos idle]
      constructor <;> simp [ready, idle] <;> decide
  · rw [if_pos ready]
    constructor <;> simp [ready] <;> decide

/-- A command is taken in one of the ways which the protocol knows. -/
theorem command_follows
    (answers : conduct.drives.Answers board p)
    (value : UInt8) :
    ∃ phase error,
      conduct.drives.Follows p (board p).channel value phase ∧
      (conduct.command p (board p) value).channel =
        (board p).channel.enter phase error
          (conduct.delay ((board p).turns + 1)) := by
  have present : ¬ conduct.present p (board p).channel.selected = false := by
    rw [show conduct.present p (board p).channel.selected = true from answers]
    decide
  simp only [Conduct.command]
  rw [if_neg present]
  cases (conduct.verdict (board p).turns).refused with
  | some shown => exact ⟨_, _, .refused, rfl⟩
  | none =>
      by_cases read : value = ataCmdReadSectors ∧ (board p).channel.OneSector
      · simp only [if_pos read]
        exact ⟨_, _, .reads _ read.1 read.2, rfl⟩
      · by_cases write :
            value = ataCmdWriteSectors ∧ (board p).channel.OneSector
        · simp only [if_neg read, if_pos write]
          exact ⟨_, _, .writes write.1 write.2, rfl⟩
        · by_cases identify : value = ataCmdIdentify
          · simp only [if_neg read, if_neg write, if_pos identify]
            exact ⟨_, _, .identifies identify, rfl⟩
          · simp only [if_neg read, if_neg write, if_neg identify]
            exact ⟨_, _, .refused, rfl⟩

theorem inw_sending
    {word : UInt16}
    {rest : List UInt16}
    (ready : conduct.ready p (board p) = true)
    (sending : (board p).channel.phase = .sending (word :: rest)) :
    conduct.inw p (board p) =
      (word,
        { board p with
          channel := (board p).channel.enter
            (if rest = [] then .idle else .sending rest) false 0 }) := by
  unfold Conduct.inw
  rw [ready, sending]

theorem outw_receiving
    {words : List UInt16}
    (ready : conduct.ready p (board p) = true)
    (receiving : (board p).channel.phase = .receiving words)
    (word : UInt16) :
    conduct.outw p (board p) word =
      if size : (words ++ [word]).length = 256 then
        conduct.enter
          { board p with
            channel := (board p).channel.leave
              (conduct.left (board p) ⟨words ++ [word], size⟩) }
          .idle (conduct.verdict ((board p).turns - 1)).shown
      else
        { board p with
          channel :=
            (board p).channel.enter (.receiving (words ++ [word]))
              false 0 } := by
  unfold Conduct.outw
  rw [ready, receiving]

theorem outb_resting
    (rests : conduct.drives.Rests board p)
    (offset : Nat)
    (value : UInt8) :
    conduct.outb p (board p) offset value =
      if offset = 6 then
        { board p with
          channel := (board p).channel.select value false
            (conduct.delay (board p).turns) }
      else if offset = 7 then conduct.command p (board p) value
      else
        { board p with
          channel := (board p).channel.setRegister offset value } := by
  rw [Conduct.outb, resting_of_rests rests, if_neg (by decide)]

theorem Conduct.documented (conduct : Conduct) :
    conduct.drives.Documented where
  status_read := by
    intro board p port is_status
    rw [inb_statusPort is_status]
    exact channel_update _
  status_shown := by
    intro board p port is_status answers
    rw [inb_statusPort is_status]
    exact status_shows answers
  drive_selected := by
    intro board p value rests
    refine ⟨false, _, conduct.prompt (board p).turns, ?_⟩
    rw [outb_dataPort (by decide), outb_resting rests, if_pos rfl]
    exact channel_update _
  register_written := by
    intro board p offset value first last rests
    rw [outb_dataPort (by omega), outb_resting rests, if_neg (by omega),
      if_neg (by omega)]
    exact channel_update _
  command_given := by
    intro board p command rests answers
    rcases command_follows answers command with
      ⟨phase, error, follows, entered⟩
    refine ⟨phase, error, _, conduct.prompt ((board p).turns + 1), follows,
      ?_⟩
    rw [outb_dataPort (by decide), outb_resting rests, if_neg (by decide),
      if_pos rfl, channel_update, entered]
    rfl
  word_sent := by
    intro board p word rest answers ready sending
    rw [inw_dataPort, inw_sending (ready_of_answers answers ready) sending]
    exact ⟨rfl, false, 0, by decide, fun _ => rfl, channel_update _⟩
  word_taken := by
    intro board p word words answers ready receiving short
    have unfinished : ¬ (words ++ [word]).length = 256 := by
      rw [List.length_append]
      exact Nat.ne_of_lt short
    refine ⟨false, ?_⟩
    rw [outw_dataPort, outw_receiving (ready_of_answers answers ready)
      receiving, dif_neg unfinished]
    exact channel_update _
  last_taken := by
    intro board p word words answers ready receiving last
    have size : (words ++ [word]).length = 256 := by
      rw [List.length_append]
      exact last
    refine ⟨conduct.left (board p) ⟨words ++ [word], size⟩,
      (conduct.verdict ((board p).turns - 1)).shown, _,
      conduct.prompt (board p).turns, ?_⟩
    rw [outw_dataPort, outw_receiving (ready_of_answers answers ready)
      receiving, dif_pos size]
    exact channel_update _

theorem Conduct.silent (conduct : Conduct) : conduct.drives.Silent where
  status_zero := by
    intro board p port is_status absent
    rw [inb_statusPort is_status]
    exact if_pos (eq_false_of_ne_true absent)
  command_lost := by
    intro board p command rests absent
    have lost : conduct.command p (board p) command = board p :=
      if_pos (eq_false_of_ne_true absent)
    rw [outb_dataPort (by decide), outb_resting rests, if_neg (by decide),
      if_pos rfl, lost, Function.update_eq_self]

/-- The channel after a command. -/
theorem channel_given
    (rests : conduct.drives.Rests board p)
    (command : UInt8) :
    conduct.drives.channel
        (conduct.drives.ports.outb (dataPort p + 7) command board) p =
      (conduct.command p (board p) command).channel := by
  rw [outb_dataPort (by decide), outb_resting rests, if_neg (by decide),
    if_pos rfl, channel_update, Function.update_self]

/-- The channel after the last word of a sector. -/
theorem channel_stored
    {words : List UInt16}
    {word : UInt16}
    (ready : conduct.ready p (board p) = true)
    (receiving : (board p).channel.phase = .receiving words)
    (size : (words ++ [word]).length = 256) :
    conduct.drives.channel
        (conduct.drives.ports.outw (dataPort p) word board) p =
      ((board p).channel.leave
        (conduct.left (board p) ⟨words ++ [word], size⟩)).enter .idle
          (conduct.verdict ((board p).turns - 1)).shown
          (conduct.delay (board p).turns) := by
  rw [outw_dataPort, outw_receiving ready receiving, dif_pos size,
    channel_update, Function.update_self]
  rfl

end

/-- Nothing is sent or stored as something else. -/
def Conduct.Faithful (conduct : Conduct) : Prop :=
  ∀ n, (conduct.verdict n).sent = none ∧ (conduct.verdict n).left = none

theorem Conduct.honest
    {conduct : Conduct}
    (faithful : conduct.Faithful)
    (p : Bool)
    (drive : Nat)
    (present : conduct.present p drive = true) :
    conduct.drives.Honest p drive where
  sends := by
    intro board words rests selected sending
    rw [channel_given rests] at sending
    have there : ¬ conduct.present p (board p).channel.selected = false := by
      rw [show (board p).channel.selected = drive from selected, present]
      decide
    simp only [Conduct.command] at sending
    rw [if_neg there, (faithful (board p).turns).1] at sending
    cases refused : (conduct.verdict (board p).turns).refused with
    | some shown =>
        rw [refused] at sending
        cases sending
    | none =>
        simp only [refused] at sending
        by_cases one : (board p).channel.OneSector
        · rw [if_pos ⟨trivial, one⟩] at sending
          have same : ((board p).channel.sectors (board p).channel.selected
              (board p).channel.address).words = words :=
            Phase.sending.inj sending
          rw [← same, show (board p).channel.selected = drive from selected]
          rfl
        · rw [if_neg fun both => one both.2,
            if_neg fun both => one both.2, if_neg (by decide)] at sending
          cases sending
  stores := by
    intro board word words sector selected ready receiving same
    have size : (words ++ [word]).length = 256 := by
      rw [← same]
      exact sector.size
    have answers : conduct.drives.Answers board p := by
      show conduct.present p (board p).channel.selected = true
      rw [show (board p).channel.selected = drive from selected, present]
    have whole : sector = ⟨words ++ [word], size⟩ := Sector.ext_words same
    rw [channel_stored (ready_of_answers answers ready) receiving size]
    show (board p).channel.sectors.store (board p).channel.selected
      (board p).channel.address _ drive (board p).channel.address = _
    rw [show (board p).channel.selected = drive from selected, store_apply,
      if_pos rfl, Conduct.left, (faithful _).2, ← whole,
      show (board p).channel.selected = drive from selected]
    rfl

theorem Conduct.sound
    {conduct : Conduct}
    (faultless : ∀ n, conduct.verdict n = ⟨none, none, none, false⟩)
    (p : Bool)
    (drive : Nat)
    (present : conduct.present p drive = true) :
    conduct.drives.Sound p drive where
  toHonest := by
    apply Conduct.honest _ p drive present
    intro n
    rw [faultless n]
    exact ⟨rfl, rfl⟩
  accepts := by
    intro board command rests selected one known
    have there : ¬ conduct.present p (board p).channel.selected = false := by
      rw [show (board p).channel.selected = drive from selected, present]
      decide
    rw [channel_given rests]
    simp only [Conduct.command]
    rw [if_neg there, faultless]
    by_cases read : command = ataCmdReadSectors ∧ (board p).channel.OneSector
    · rw [if_pos read]
      exact Phase.noConfusion
    · by_cases write :
          command = ataCmdWriteSectors ∧ (board p).channel.OneSector
      · rw [if_neg read, if_pos write]
        exact Phase.noConfusion
      · have identify : command = ataCmdIdentify := by
          rcases one with one | identify
          · simp only [List.mem_cons, List.not_mem_nil, or_false] at known
            rcases known with rfl | rfl | identify
            · exact (read ⟨rfl, one⟩).elim
            · exact (write ⟨rfl, one⟩).elim
            · exact identify
          · exact identify
        rw [if_neg read, if_neg write, if_pos identify]
        exact Phase.noConfusion
  succeeds := by
    intro board word words selected ready receiving last
    have size : (words ++ [word]).length = 256 := by
      rw [List.length_append]
      exact last
    have answers : conduct.drives.Answers board p := by
      show conduct.present p (board p).channel.selected = true
      rw [show (board p).channel.selected = drive from selected, present]
    rw [channel_stored (ready_of_answers answers ready) receiving size,
      faultless]
    rfl

/-! ## A board which has not been used -/

theorem mod_three_prompt (n : Nat) : n % 3 < timeout :=
  Nat.lt_trans (Nat.mod_lt n (by decide)) (by decide)

/-- Only the masters are there. -/
def masters (verdict : Nat → Verdict) : Conduct where
  present := fun _ drive => drive == 0
  identity := fun _ _ => blankSector
  verdict := verdict
  delay := fun n => n % 3
  prompt := mod_three_prompt

def freshBoard : Board := fun _ =>
  { channel :=
      { sectors := fun _ _ => blankSector
        registers := fun _ => 0
        phase := .idle
        error := false
        busy := 0 }
    turns := 0 }

/-- No fault ever occurs. -/
def soundMasters : Conduct :=
  masters fun _ => ⟨none, none, none, false⟩

end ForsKernel.Ata
