import Mathlib.Data.List.Find
import ForsKernel.Interrupts.Idt
import ForsKernel.Interrupts.Pic
import ForsKernel.Lib.Transition

/-!
# The delivery of interrupts

From `pic_map` on, interrupts are enabled.  The kernel opens lines of the
controllers as it initialises devices and starts the timer, and devices ask for
interrupts at any time.  All gates are trap gates, which leave interrupts
enabled until the stub of the handler disables them: in between a line which
comes before may be taken as well.  When the timer then switches to another
process, the handlers which were waiting for its return are never resumed.
-/

namespace ForsKernel.Interrupts

open ForsKernel.Lib.Transition

/-! ## The kernel's part -/

def picFirstVector : Nat := 0x20

def picIrqPittimer : Nat := 0x00

def picIrqKeyboard : Nat := 0x01

def picIrqAtabusMaster : Nat := 0x0e

def picIrqAtabusSlave : Nat := 0x0f

def syscallVector : Nat := 0xf0

/--
What `interrupt_dispatch` does to the controllers.  At any other vector it
panics or stops the processor.
-/
def dispatched
    (vector : Nat)
    (pics : Pics) :
    Option Pics :=
  if vector = picFirstVector + picIrqPittimer then some (picEoi 0 pics)
  else if vector = picFirstVector + picIrqKeyboard then some (picEoi 1 pics)
  else if vector = picFirstVector + picIrqAtabusMaster ∨
      vector = picFirstVector + picIrqAtabusSlave then some (picEoi 14 pics)
  else if vector = syscallVector then some pics
  else none

/-- A handler which has begun. -/
structure Frame where
  line : Nat
  vector : Nat
deriving DecidableEq

/-- The handlers which have begun, the last one first, and the flag of `cli`. -/
structure Processor where
  pics : Pics
  frames : List Frame
  enabled : Bool

/--
`archInitialise` is what that function does after `pic_map`.  The slave may
give any vector, and any timer interrupt may switch to another process.
-/
inductive IntOp where
  | request (line : Nat)
  | archInitialise
  | ataInitDevice (primary master : Bool)
  | archStartRunningProcs
  | picBlockIrq (irq : Nat)
  | interrupt (line slaveVector : Nat)
  | cli
  | dispatch (switches : Bool)
deriving DecidableEq

namespace Processor

/-- The processor takes what comes first, and runs the stub of the last one. -/
def legal (processor : Processor) : IntOp → Prop
  | .request line => line < 8
  | .picBlockIrq irq => irq < 16
  | .interrupt line slaveVector =>
      processor.enabled = true ∧ processor.pics.next = some line ∧
        slaveVector < 256
  | .cli => processor.enabled = true ∧ processor.frames ≠ []
  | .dispatch switches =>
      processor.enabled = false ∧
        (switches = true → ∀ frame ∈ processor.frames.head?,
          frame.vector = picFirstVector + picIrqPittimer)
  | _ => True

instance (processor : Processor) :
    (op : IntOp) → Decidable (processor.legal op)
  | .request line => inferInstanceAs (Decidable (line < 8))
  | .archInitialise => inferInstanceAs (Decidable True)
  | .ataInitDevice _ _ => inferInstanceAs (Decidable True)
  | .archStartRunningProcs => inferInstanceAs (Decidable True)
  | .picBlockIrq irq => inferInstanceAs (Decidable (irq < 16))
  | .interrupt _ _ => inferInstanceAs (Decidable (_ ∧ _ ∧ _))
  | .cli => inferInstanceAs (Decidable (_ ∧ _))
  | .dispatch _ => inferInstanceAs (Decidable (_ ∧ (_ → _)))

def setPics
    (processor : Processor)
    (pics : Pics) :
    Processor :=
  { processor with pics := pics }

/-- An interrupt without a gate is the end of the kernel. -/
def step
    (isr : Nat → UInt64)
    (processor : Processor) :
    IntOp → Option Processor
  | .request line => some (processor.setPics (processor.pics.request line))
  | .archInitialise =>
      some (processor.setPics
        (picUnblockIrq picIrqKeyboard processor.pics))
  | .ataInitDevice _ master =>
      some (processor.setPics (picUnblockIrq
        (if master then picIrqAtabusMaster else picIrqAtabusSlave)
        processor.pics))
  | .archStartRunningProcs =>
      some (processor.setPics
        (picUnblockIrq picIrqPittimer processor.pics))
  | .picBlockIrq irq =>
      some (processor.setPics (picBlockIrq irq processor.pics))
  | .interrupt line slaveVector =>
      let vector := processor.pics.vector line slaveVector
      if (idtInit isr blankTable vector).Present then
        some
          { processor with
            pics := processor.pics.accept line
            frames := ⟨line, vector⟩ :: processor.frames }
      else none
  | .cli => some { processor with enabled := false }
  | .dispatch switches =>
      match processor.frames with
      | [] => none
      | frame :: rest =>
          (dispatched frame.vector processor.pics).map fun pics =>
            { pics := pics
              frames := if switches then [] else rest
              enabled := true }

end Processor

/-- The controllers may have been in any state, but serviced nothing. -/
def intSystem (isr : Nat → UInt64) : System Processor IntOp where
  init := fun processor => ∃ before : Pics,
    before.inService = (fun _ => false) ∧
      processor =
        { pics := picMap (UInt8.ofNat picFirstVector)
            (UInt8.ofNat (picFirstVector + 8)) before
          frames := []
          enabled := true }
  legal := Processor.legal
  step := Processor.step isr

/-! ## The lines -/

/--
What has happened to the lines: which are open, which wait, whose handlers have
begun, and which were abandoned by their handlers before these reported an end.
-/
structure Lines where
  opened : Nat → Bool
  waiting : Nat → Bool
  begun : List Frame
  abandoned : Nat → Bool

namespace Lines

def boot : Lines where
  opened := fun irq => irq == 2
  waiting := fun _ => false
  begun := []
  abandoned := fun _ => false

def setOpened
    (lines : Lines)
    (irq : Nat)
    (isOpen : Bool) :
    Lines :=
  { lines with opened := Function.update lines.opened irq isOpen }

/-- System calls report no end, and a switch leaves handlers behind. -/
def leaves
    (switches : Bool)
    (frame : Frame)
    (rest : List Frame)
    (line : Nat) :
    Bool :=
  (frame.vector == syscallVector && frame.line == line) ||
    (switches && rest.any fun other => other.line == line)

def step (lines : Lines) : IntOp → Lines
  | .request line =>
      { lines with waiting := Function.update lines.waiting line true }
  | .archInitialise => lines.setOpened 1 true
  | .ataInitDevice _ master => lines.setOpened (if master then 14 else 15) true
  | .archStartRunningProcs => lines.setOpened 0 true
  | .picBlockIrq irq => lines.setOpened irq false
  | .interrupt line slaveVector =>
      { lines with
        waiting := Function.update lines.waiting line false
        begun :=
          ⟨line, if line = 2 then slaveVector else 0x20 + line⟩ ::
            lines.begun }
  | .cli => lines
  | .dispatch switches =>
      match lines.begun with
      | [] => lines
      | frame :: rest =>
          { lines with
            begun := if switches then [] else rest
            abandoned := fun line =>
              lines.abandoned line || leaves switches frame rest line }

/-- The lines after these operations. -/
def after (ops : List IntOp) : Lines :=
  ops.foldl step boot

/-- A line is in service. -/
def Serves
    (lines : Lines)
    (line : Nat) :
    Prop :=
  line ∈ lines.begun.map Frame.line ∨ lines.abandoned line = true

instance
    (lines : Lines)
    (line : Nat) :
    Decidable (lines.Serves line) :=
  inferInstanceAs (Decidable (_ ∨ _))

/-- The first line which waits, is open, and comes before those in service. -/
def next (lines : Lines) : Option Nat :=
  (List.range 8).find? fun line =>
    lines.waiting line && lines.opened line &&
      (List.range (line + 1)).all fun first => !decide (lines.Serves first)

end Lines

/-- The processor is at work on these lines. -/
structure Shows
    (processor : Processor)
    (lines : Lines) :
    Prop where
  mapped : processor.pics.Mapped
  masked : ∀ irq < 16, processor.pics.masked irq = !lines.opened irq
  requests : ∀ line < 8, processor.pics.requests line = lines.waiting line
  frames : processor.frames = lines.begun
  inService : ∀ line,
    processor.pics.inService line = true ↔ lines.Serves line

/-- Handlers have been interrupted by lines which come before theirs only. -/
structure Lines.Nested (lines : Lines) : Prop where
  inOrder : (lines.begun.map Frame.line).Pairwise (· < ·)
  before : ∀ line ∈ lines.begun.map Frame.line, ∀ later,
    lines.abandoned later = true → line < later

/-- The lines which the kernel ever opens, and those of the master. -/
structure Lines.Kernels (lines : Lines) : Prop where
  opened : ∀ irq, lines.opened irq = true → irq ∈ [0, 1, 2, 14, 15]
  begun : ∀ frame ∈ lines.begun,
    frame.line ≤ 2 ∧ (frame.line ≠ 2 → frame.vector = 0x20 + frame.line)

theorem shows_boot
    {before : Pics}
    (idle : before.inService = fun _ => false) :
    Shows
      { pics := picMap (UInt8.ofNat picFirstVector)
          (UInt8.ofNat (picFirstVector + 8)) before
        frames := []
        enabled := true }
      Lines.boot := by
  rw [picMap_eq, idle]
  refine ⟨⟨rfl, rfl⟩, ?_, fun _ _ => rfl, rfl, ?_⟩
  · decide
  · intro line
    simp [Lines.Serves, Lines.boot]

section

variable
  {processor after : Processor}
  {lines : Lines}
  {line : Nat}

/-! ### Masks and requests -/

/-- Other masks are other open lines. -/
theorem Shows.setMasks
    (atWork : Shows processor lines)
    {irq : Nat}
    {value : UInt8}
    {opened : Nat → Bool}
    (masked : ∀ other < 16,
      (outb (maskPort irq).1 value processor.pics).masked other =
        !opened other) :
    Shows (processor.setPics (outb (maskPort irq).1 value processor.pics))
      { lines with opened := opened } := by
  rcases outb_maskPort_kept atWork.mapped irq value with
    ⟨mapped, requests, inService⟩
  refine ⟨mapped, masked, ?_, atWork.frames, ?_⟩
  · intro line small
    show (outb _ value processor.pics).requests line = _
    rw [requests]
    exact atWork.requests line small
  · intro line
    show (outb _ value processor.pics).inService line = true ↔ _
    rw [inService]
    exact atWork.inService line

theorem Shows.unblock
    (atWork : Shows processor lines)
    (irq : Nat) :
    Shows (processor.setPics (picUnblockIrq irq processor.pics))
      (lines.setOpened irq true) := by
  apply atWork.setMasks
  intro other small
  refine (masked_picUnblockIrq atWork.mapped irq small).trans ?_
  rw [atWork.masked other small, Function.update_apply]
  by_cases same : other = irq
  · simp [same]
  · simp [same]

theorem Shows.block
    (atWork : Shows processor lines)
    (irq : Nat) :
    Shows (processor.setPics (picBlockIrq irq processor.pics))
      (lines.setOpened irq false) := by
  apply atWork.setMasks
  intro other small
  refine (masked_picBlockIrq atWork.mapped irq small).trans ?_
  rw [atWork.masked other small, Function.update_apply]
  by_cases same : other = irq
  · simp [same]
  · simp [same]

theorem Shows.request
    (atWork : Shows processor lines)
    (line : Nat) :
    Shows (processor.setPics (processor.pics.request line))
      { lines with waiting := Function.update lines.waiting line true } := by
  refine ⟨⟨atWork.mapped.master, atWork.mapped.slave⟩, atWork.masked, ?_,
    atWork.frames, atWork.inService⟩
  intro other small
  show Function.update processor.pics.requests line true other =
    Function.update lines.waiting line true other
  rw [Function.update_apply, Function.update_apply,
    atWork.requests other small]

/-! ### Taking an interrupt -/

/-- The interrupt which comes next is the first one which waits and may. -/
theorem Shows.next_eq (atWork : Shows processor lines) :
    processor.pics.next = lines.next := by
  unfold Pics.next Lines.next
  apply List.find?_congr
  intro line member
  have small := List.mem_range.mp member
  have masked := atWork.masked line (by omega)
  rw [Pics.masked, if_pos small] at masked
  have free : (!processor.pics.blocked line) =
      (List.range (line + 1)).all fun first =>
        !decide (lines.Serves first) := by
    rw [Bool.eq_iff_iff, Bool.not_eq_true', ← Bool.not_eq_true,
      atWork.mapped.blocked_iff, List.all_eq_true]
    simp only [List.mem_range, Bool.not_eq_true', decide_eq_false_iff_not,
      ← atWork.inService, Nat.lt_succ_iff]
    constructor
    · exact fun none first upTo served => none ⟨first, upTo, served⟩
    · rintro none ⟨first, upTo, served⟩
      exact none first upTo served
  rw [atWork.requests line small, masked, Bool.not_not, free]

/-- What comes next waits, is open, and comes before all in service. -/
theorem Lines.of_next
    (next : lines.next = some line) :
    line < 8 ∧ lines.waiting line = true ∧ lines.opened line = true ∧
      ∀ served, lines.Serves served → line < served := by
  have found := List.find?_some next
  simp only [Bool.and_eq_true, List.all_eq_true, List.mem_range,
    Bool.not_eq_true', decide_eq_false_iff_not] at found
  rcases found with ⟨⟨waiting, opened⟩, free⟩
  refine ⟨List.mem_range.mp (List.mem_of_find?_eq_some next), waiting, opened,
    fun served serves => ?_⟩
  by_contra upTo
  exact free served (by omega) serves

theorem Shows.accept
    (atWork : Shows processor lines)
    (small : line < 8)
    (slaveVector : Nat) :
    Shows
      { processor with
        pics := processor.pics.accept line
        frames := ⟨line, processor.pics.vector line slaveVector⟩ ::
          processor.frames }
      (lines.step (.interrupt line slaveVector)) := by
  rw [atWork.mapped.accept_eq, atWork.mapped.vector_eq small]
  refine ⟨⟨atWork.mapped.master, atWork.mapped.slave⟩, atWork.masked, ?_, ?_,
    ?_⟩
  · intro other inside
    show Function.update processor.pics.requests line false other =
      Function.update lines.waiting line false other
    rw [Function.update_apply, Function.update_apply,
      atWork.requests other inside]
  · show _ :: processor.frames = _ :: lines.begun
    rw [atWork.frames]
  · intro other
    show Function.update processor.pics.inService line true other = true ↔
      other ∈ line :: lines.begun.map Frame.line ∨
        lines.abandoned other = true
    rw [Function.update_apply, List.mem_cons, or_assoc]
    by_cases same : other = line
    · simp [same]
    · rw [if_neg same]
      exact (atWork.inService other).trans (or_iff_right same).symm

theorem Lines.Nested.accept
    (nested : lines.Nested)
    (next : lines.next = some line)
    (slaveVector : Nat) :
    (lines.step (.interrupt line slaveVector)).Nested := by
  rcases Lines.of_next next with ⟨_, _, _, first⟩
  constructor
  · show (line :: lines.begun.map Frame.line).Pairwise (· < ·)
    rw [List.pairwise_cons]
    exact ⟨fun other member => first other (.inl member), nested.inOrder⟩
  · intro other member later abandoned
    rcases List.mem_cons.mp member with rfl | member
    · exact first later (.inr abandoned)
    · exact nested.before other member later abandoned

theorem Lines.Kernels.accept
    (kernels : lines.Kernels)
    (next : lines.next = some line)
    (slaveVector : Nat) :
    (lines.step (.interrupt line slaveVector)).Kernels := by
  rcases Lines.of_next next with ⟨small, _, opened, _⟩
  refine ⟨kernels.opened, ?_⟩
  intro frame member
  rcases List.mem_cons.mp member with rfl | member
  · have known := kernels.opened line opened
    simp only [List.mem_cons, List.not_mem_nil, or_false] at known
    exact ⟨show line ≤ 2 by omega, fun own => if_neg own⟩
  · exact kernels.begun frame member

/-! ### The end of a handler -/

/-- What a handler does to the controllers, if it comes to its end. -/
theorem dispatched_some
    {vector : Nat}
    {pics pics' : Pics}
    (done : dispatched vector pics = some pics') :
    (vector = syscallVector ∧ pics' = pics) ∨
      (vector ≠ syscallVector ∧ pics' = pics.endOfInterrupt) := by
  have known : ∀ irq ≤ 15, picFirstVector + irq ≠ syscallVector := by decide
  unfold dispatched at done
  split at done
  · rename_i timer
    cases done
    exact .inr ⟨by rw [timer]; exact known _ (by decide), picEoi_eq _ _⟩
  split at done
  · rename_i keyboard
    cases done
    exact .inr ⟨by rw [keyboard]; exact known _ (by decide), picEoi_eq _ _⟩
  split at done
  · rename_i disks
    cases done
    refine .inr ⟨?_, picEoi_eq _ _⟩
    rcases disks with master | slave
    · rw [master]
      exact known _ (by decide)
    · rw [slave]
      exact known _ (by decide)
  split at done
  · rename_i syscall
    cases done
    exact .inl ⟨syscall, rfl⟩
  · cases done

section

variable
  {frame : Frame}
  {rest : List Frame}

/-- Handlers which are interrupted have lines which come later. -/
theorem Lines.Nested.rest_later
    (nested : lines.Nested)
    (begun : lines.begun = frame :: rest) :
    ∀ line ∈ rest.map Frame.line, frame.line < line := by
  have inOrder := nested.inOrder
  rw [begun, List.map_cons, List.pairwise_cons] at inOrder
  exact inOrder.1

/-- The handler which ends is the first line in service. -/
theorem Shows.first
    (atWork : Shows processor lines)
    (nested : lines.Nested)
    (begun : lines.begun = frame :: rest) :
    processor.pics.inService frame.line = true ∧
      ∀ earlier < frame.line, processor.pics.inService earlier = false := by
  constructor
  · rw [atWork.inService]
    refine .inl ?_
    rw [begun]
    exact List.mem_cons_self
  · intro earlier before
    rw [← Bool.not_eq_true, atWork.inService]
    rintro (member | abandoned)
    · rw [begun, List.map_cons, List.mem_cons] at member
      rcases member with rfl | member
      · exact absurd before (Nat.lt_irrefl _)
      · exact absurd before
          (Nat.lt_asymm (nested.rest_later begun earlier member))
    · have later := nested.before frame.line
        (by rw [begun]; exact List.mem_cons_self) earlier abandoned
      exact absurd before (Nat.lt_asymm later)

/-- Only a handler of the slave's line makes a system call. -/
theorem Lines.Kernels.syscall
    (kernels : lines.Kernels)
    (nested : lines.Nested)
    (begun : lines.begun = frame :: rest)
    (syscall : frame.vector = syscallVector) :
    rest = [] := by
  have known := kernels.begun frame (by rw [begun]; exact List.mem_cons_self)
  have slave : frame.line = 2 := by
    by_contra own
    have vector := known.2 own
    rw [syscall, syscallVector] at vector
    omega
  cases rest with
  | nil => rfl
  | cons other more =>
      have later := nested.rest_later begun other.line List.mem_cons_self
      have low := kernels.begun other
        (by rw [begun]; exact List.mem_cons_of_mem _ List.mem_cons_self)
      omega

/-- A handler which ends, by the handlers which had begun. -/
theorem Lines.step_dispatch
    (begun : lines.begun = frame :: rest)
    (switches : Bool) :
    lines.step (.dispatch switches) =
      { lines with
        begun := if switches then [] else rest
        abandoned := fun line =>
          lines.abandoned line || leaves switches frame rest line } := by
  rw [Lines.step, begun]

/-- What is in service once a handler has ended. -/
theorem Lines.serves_dispatch
    (begun : lines.begun = frame :: rest)
    (switches : Bool)
    (line : Nat) :
    (lines.step (.dispatch switches)).Serves line ↔
      (frame.vector = syscallVector ∧ frame.line = line) ∨
        line ∈ rest.map Frame.line ∨ lines.abandoned line = true := by
  rw [Lines.step_dispatch begun]
  unfold Lines.Serves Lines.leaves
  cases switches with
  | true =>
      simp only [if_true, List.map_nil, List.not_mem_nil, false_or,
        Bool.true_and, Bool.or_eq_true, Bool.and_eq_true, beq_iff_eq,
        List.any_eq_true, List.mem_map]
      rw [or_comm, or_assoc]
  | false =>
      simp only [Bool.false_eq_true, if_false, Bool.false_and, Bool.or_false,
        Bool.or_eq_true, Bool.and_eq_true, beq_iff_eq]
      rw [← or_assoc, or_comm]

theorem Lines.Nested.dispatch
    (nested : lines.Nested)
    (kernels : lines.Kernels)
    (begun : lines.begun = frame :: rest)
    (switches : Bool) :
    (lines.step (.dispatch switches)).Nested ∧
      (lines.step (.dispatch switches)).Kernels := by
  have inOrder := nested.inOrder
  rw [begun, List.map_cons, List.pairwise_cons] at inOrder
  rw [Lines.step_dispatch begun]
  cases switches with
  | true =>
      refine ⟨⟨List.Pairwise.nil, ?_⟩, ⟨kernels.opened, ?_⟩⟩
      · intro line member
        cases member
      · intro frame member
        cases member
  | false =>
      refine ⟨⟨inOrder.2, ?_⟩, ⟨kernels.opened, ?_⟩⟩
      · intro line member later abandoned
        rcases (Bool.or_eq_true _ _).mp abandoned with before | now
        · refine nested.before line ?_ later before
          rw [begun]
          exact List.mem_cons_of_mem _ member
        · have syscall : frame.vector = syscallVector := by
            simp only [Lines.leaves, Bool.false_and, Bool.or_false,
              Bool.and_eq_true, beq_iff_eq] at now
            exact now.1
          rw [kernels.syscall nested begun syscall] at member
          cases member
      · intro other member
        apply kernels.begun other
        rw [begun]
        exact List.mem_cons_of_mem _ member

theorem Shows.dispatch
    (atWork : Shows processor lines)
    (nested : lines.Nested)
    (kernels : lines.Kernels)
    (begun : lines.begun = frame :: rest)
    {pics' : Pics}
    (done : dispatched frame.vector processor.pics = some pics')
    (switches enabled : Bool) :
    Shows
      { pics := pics'
        frames := if switches then [] else rest
        enabled := enabled }
      (lines.step (.dispatch switches)) := by
  have stepped := Lines.step_dispatch begun switches
  rcases dispatched_some done with ⟨syscall, rfl⟩ | ⟨known, rfl⟩
  · refine ⟨atWork.mapped, ?_, ?_, ?_, ?_⟩
    · rw [stepped]
      exact atWork.masked
    · rw [stepped]
      exact atWork.requests
    · rw [stepped]
    · intro line
      rw [Lines.serves_dispatch begun, atWork.inService line, Lines.Serves,
        begun, List.map_cons, List.mem_cons, or_assoc]
      simp only [syscall, true_and, eq_comm]
  · rcases atWork.first nested begun with ⟨served, first⟩
    have low := kernels.begun frame
      (by rw [begun]; exact List.mem_cons_self)
    rw [endOfInterrupt_first (by omega) served first]
    refine ⟨⟨atWork.mapped.master, atWork.mapped.slave⟩, ?_, ?_, ?_, ?_⟩
    · rw [stepped]
      exact atWork.masked
    · rw [stepped]
      exact atWork.requests
    · rw [stepped]
    · intro line
      show Function.update processor.pics.inService frame.line false line =
        true ↔ _
      rw [Lines.serves_dispatch begun, Function.update_apply]
      by_cases same : line = frame.line
      · have gone : ¬ (line ∈ rest.map Frame.line ∨
            lines.abandoned line = true) := by
          rintro (member | abandoned)
          · have later := nested.rest_later begun line member
            omega
          · have later := nested.before frame.line
              (by rw [begun]; exact List.mem_cons_self) line abandoned
            omega
        rw [if_pos same]
        simp only [known, false_and, false_or, gone, iff_false]
        decide
      · rw [if_neg same, atWork.inService line, Lines.Serves, begun,
          List.map_cons, List.mem_cons, or_assoc]
        simp only [known, same, false_and, false_or]

end

/-! ## Runs -/

theorem Lines.Kernels.setOpened
    (kernels : lines.Kernels)
    {irq : Nat}
    (isOpen : Bool)
    (known : isOpen = true → irq ∈ [0, 1, 2, 14, 15]) :
    (lines.setOpened irq isOpen).Kernels := by
  refine ⟨?_, kernels.begun⟩
  intro other opened
  have now : Function.update lines.opened irq isOpen other = true := opened
  by_cases same : other = irq
  · rw [same, Function.update_self] at now
    rw [same]
    exact known now
  · rw [Function.update_of_ne same] at now
    exact kernels.opened other now

/-- One operation, by what it does to the lines. -/
theorem Shows.step
    {isr : Nat → UInt64}
    {op : IntOp}
    (atWork : Shows processor lines)
    (nested : lines.Nested)
    (kernels : lines.Kernels)
    (last : (intSystem isr).Step processor op after) :
    Shows after (lines.step op) ∧ (lines.step op).Nested ∧
      (lines.step op).Kernels := by
  rcases last with ⟨legal, stepped⟩
  have same {irq : Nat} {isOpen : Bool} :
      (lines.setOpened irq isOpen).Nested :=
    ⟨nested.inOrder, nested.before⟩
  cases op with
  | request line =>
      cases stepped
      exact ⟨atWork.request line, ⟨nested.inOrder, nested.before⟩,
        ⟨kernels.opened, kernels.begun⟩⟩
  | archInitialise =>
      cases stepped
      exact ⟨atWork.unblock _, same, kernels.setOpened true (by decide)⟩
  | ataInitDevice primary master =>
      cases stepped
      cases master
      · exact ⟨atWork.unblock _, same, kernels.setOpened true (by decide)⟩
      · exact ⟨atWork.unblock _, same, kernels.setOpened true (by decide)⟩
  | archStartRunningProcs =>
      cases stepped
      exact ⟨atWork.unblock _, same, kernels.setOpened true (by decide)⟩
  | picBlockIrq irq =>
      cases stepped
      refine ⟨atWork.block irq, same, kernels.setOpened false ?_⟩
      intro opened
      cases opened
  | interrupt line slaveVector =>
      rcases legal with ⟨_, comes, _⟩
      have next : lines.next = some line := atWork.next_eq.symm.trans comes
      have accepted := atWork.accept (Lines.of_next next).1 slaveVector
      have taken : (if (idtInit isr blankTable
            (processor.pics.vector line slaveVector)).Present then
          some
            { processor with
              pics := processor.pics.accept line
              frames := ⟨line, processor.pics.vector line slaveVector⟩ ::
                processor.frames }
          else none) = some after := stepped
      split at taken
      · cases taken
        exact ⟨accepted, nested.accept next slaveVector,
          kernels.accept next slaveVector⟩
      · cases taken
  | cli =>
      cases stepped
      exact ⟨⟨atWork.mapped, atWork.masked, atWork.requests, atWork.frames,
        atWork.inService⟩, nested, kernels⟩
  | dispatch switches =>
      have ended : (match processor.frames with
          | [] => none
          | frame :: rest =>
              (dispatched frame.vector processor.pics).map fun pics =>
                Processor.mk pics (if switches then [] else rest) true) =
            some after := stepped
      cases begun : lines.begun with
      | nil =>
          rw [atWork.frames, begun] at ended
          cases ended
      | cons frame rest =>
          rw [atWork.frames, begun] at ended
          rcases Option.map_eq_some_iff.mp ended with ⟨pics', done, rfl⟩
          have kept := nested.dispatch kernels begun switches
          exact ⟨atWork.dispatch nested kernels begun done switches true,
            kept.1, kept.2⟩

/-- After every run the processor is at work on the lines. -/
theorem shows_of_run
    {isr : Nat → UInt64}
    {start target : Processor}
    {ops : List IntOp}
    (initial : (intSystem isr).init start)
    (run : (intSystem isr).Run start ops target) :
    Shows target (Lines.after ops) ∧ (Lines.after ops).Nested ∧
      (Lines.after ops).Kernels := by
  induction run with
  | nil =>
      rcases initial with ⟨before, idle, rfl⟩
      refine ⟨shows_boot idle, ⟨List.Pairwise.nil, ?_⟩, ⟨?_, ?_⟩⟩
      · intro line member
        cases member
      · intro irq opened
        have second : irq = 2 := beq_iff_eq.mp opened
        rw [second]
        decide
      · intro frame member
        cases member
  | snoc _ last induction =>
      rcases induction with ⟨atWork, nested, kernels⟩
      rw [Lines.after, List.foldl_append]
      exact atWork.step nested kernels last

/-- A handler which reports an end has its own line taken out of service. -/
theorem Shows.ends
    {isr : Nat → UInt64}
    {switches : Bool}
    (atWork : Shows processor lines)
    (nested : lines.Nested)
    (kernels : lines.Kernels)
    (last : (intSystem isr).Step processor (.dispatch switches) after) :
    ∃ frame rest, processor.frames = frame :: rest ∧
      after.pics =
        if frame.vector = syscallVector then processor.pics
        else
          { processor.pics with
            inService :=
              Function.update processor.pics.inService frame.line false } := by
  have ended : (match processor.frames with
      | [] => none
      | frame :: rest =>
          (dispatched frame.vector processor.pics).map fun pics =>
            Processor.mk pics (if switches then [] else rest) true) =
        some after := last.2
  cases begun : processor.frames with
  | nil =>
      rw [begun] at ended
      cases ended
  | cons frame rest =>
      rw [begun] at ended
      rcases Option.map_eq_some_iff.mp ended with ⟨pics', done, rfl⟩
      refine ⟨frame, rest, rfl, ?_⟩
      rcases dispatched_some done with ⟨syscall, rfl⟩ | ⟨known, rfl⟩
      · rw [if_pos syscall]
      · have begun' := atWork.frames.symm.trans begun
        rcases atWork.first nested begun' with ⟨served, first⟩
        have low := kernels.begun frame
          (by rw [begun']; exact List.mem_cons_self)
        rw [if_neg known]
        exact endOfInterrupt_first (by omega) served first

/-- The line which comes next goes to its own handler, and has one. -/
theorem Shows.interrupt
    (atWork : Shows processor lines)
    (kernels : lines.Kernels)
    (isr : Nat → UInt64)
    (next : processor.pics.next = some line) :
    line ∈ [0, 1, 2] ∧
      (line ≠ 2 → ∀ slaveVector < 256,
        (idtInit isr blankTable
            (processor.pics.vector line slaveVector)).handler =
          (isr (picFirstVector + line)).toNat ∧
        (processor.enabled = true → ∃ after,
          (intSystem isr).Step processor (.interrupt line slaveVector)
            after)) := by
  rcases Lines.of_next (atWork.next_eq.symm.trans next) with
    ⟨small, _, opened, _⟩
  have known := kernels.opened line opened
  have low : line ∈ [0, 1, 2] := by
    simp only [List.mem_cons, List.not_mem_nil, or_false] at known ⊢
    omega
  refine ⟨low, ?_⟩
  intro own slaveVector inside
  have attached : ∀ line ∈ [0, 1, 2], line ≠ 2 →
      0x20 + line ∈ isrVectors.map Prod.fst := by
    decide
  have vector := atWork.mapped.vector_eq small slaveVector
  rw [if_neg own] at vector
  rcases idtInit_gates isr (0x20 + line) with ⟨present, handler⟩
  constructor
  · rw [vector]
    exact handler (attached line low own)
  · intro enabled
    refine ⟨_, ⟨enabled, next, inside⟩, if_pos ?_⟩
    rw [vector]
    exact present.mpr (attached line low own)

end

/--
After every run the controllers mask just the lines which were not opened or
are blocked again, keep just the requests which were not taken, and service
just the lines whose handlers have begun or were abandoned.  The next line is
the first one which waits, is open, and comes before those in service; the
timer and the keyboard go to their own handlers.  A handler which comes to its
end takes its own line out of service, however often it was interrupted.
-/
theorem interrupts_delivered
    {isr : Nat → UInt64}
    {start target : Processor}
    {ops : List IntOp}
    (initial : (intSystem isr).init start)
    (run : (intSystem isr).Run start ops target) :
    (∀ irq < 16, target.pics.masked irq = !(Lines.after ops).opened irq) ∧
      (∀ line < 8,
        target.pics.requests line = (Lines.after ops).waiting line) ∧
      (∀ line, target.pics.inService line = true ↔
        line ∈ target.frames.map Frame.line ∨
          (Lines.after ops).abandoned line = true) ∧
      (target.frames.map Frame.line).Pairwise (· < ·) ∧
      target.pics.next = (Lines.after ops).next ∧
      (∀ line, target.pics.next = some line → line ∈ [0, 1, 2] ∧
        (line ≠ 2 → ∀ slaveVector < 256,
          (idtInit isr blankTable
              (target.pics.vector line slaveVector)).handler =
            (isr (picFirstVector + line)).toNat ∧
          (target.enabled = true → ∃ next,
            (intSystem isr).Step target (.interrupt line slaveVector)
              next))) ∧
      ∀ switches next,
        (intSystem isr).Step target (.dispatch switches) next →
        ∃ frame rest, target.frames = frame :: rest ∧
          next.pics =
            if frame.vector = syscallVector then target.pics
            else
              { target.pics with
                inService := Function.update target.pics.inService
                  frame.line false } := by
  rcases shows_of_run initial run with ⟨atWork, nested, kernels⟩
  refine ⟨atWork.masked, atWork.requests, ?_, ?_, atWork.next_eq,
    fun line => atWork.interrupt kernels isr,
    fun switches next => atWork.ends nested kernels⟩
  · rw [atWork.frames]
    exact atWork.inService
  · rw [atWork.frames]
    exact nested.inOrder

/-- Chips which were left half initialised, with requests of old. -/
def strayChip : Chip where
  awaits := .icw3
  icw1 := 0xff
  icw2 := 0x70
  icw3 := 0xff
  icw4 := 0xff
  mask := 0

def startedProcessor : Processor where
  pics := picMap (UInt8.ofNat picFirstVector) (UInt8.ofNat (picFirstVector + 8))
    { master := strayChip
      slave := strayChip
      requests := fun _ => true
      inService := fun _ => false }
  frames := []
  enabled := true

def spacedHandlers (vector : Nat) : UInt64 :=
  UInt64.ofNat (0xffffffff80000000 + 0x40 * vector)

instance
    (isr : Nat → UInt64)
    (processor : Processor)
    (op : IntOp) :
    Decidable ((intSystem isr).legal processor op) :=
  inferInstanceAs (Decidable (processor.legal op))

/-- The timer interrupts the keyboard, whose handler then goes on. -/
def timerFirst : List IntOp :=
  [.archInitialise, .archStartRunningProcs, .request 1, .interrupt 1 0,
    .request 0, .interrupt 0 0, .request 1, .cli, .dispatch false]

theorem timerFirst_replayed :
    ((intSystem spacedHandlers).replay startedProcessor
      timerFirst).isSome = true := by
  decide +kernel

def afterTimerFirst : Processor :=
  ((intSystem spacedHandlers).replay startedProcessor timerFirst).get
    timerFirst_replayed

/-- The keyboard is still in service, so its second interrupt waits. -/
theorem interrupts_delivered_nested :
    afterTimerFirst.pics.inService 1 = true ∧
      afterTimerFirst.pics.inService 0 = false ∧
      afterTimerFirst.pics.next = none := by
  have run : (intSystem spacedHandlers).Run startedProcessor
      ([] ++ timerFirst) afterTimerFirst :=
    System.run_of_replay (.nil _) (Option.some_get _).symm
  rcases interrupts_delivered ⟨_, rfl, rfl⟩ run with
    ⟨_, _, inService, _, next, _⟩
  refine ⟨(inService 1).mpr (.inl (by decide +kernel)), ?_, ?_⟩
  · rw [← Bool.not_eq_true, inService 0]
    decide +kernel
  · rw [next]
    decide +kernel

/-! ## Abandoned handlers -/

/--
No process is switched away while the timer has interrupted another handler,
and the slave gives no vector of a system call.
-/
def Processor.Settles
    (processor : Processor) :
    IntOp → Prop
  | .dispatch switches =>
      (switches = true → processor.frames.length ≤ 1) ∧
        ∀ frame ∈ processor.frames.head?, frame.vector ≠ syscallVector
  | _ => True

instance (processor : Processor) :
    (op : IntOp) → Decidable (processor.Settles op)
  | .request _ => inferInstanceAs (Decidable True)
  | .archInitialise => inferInstanceAs (Decidable True)
  | .ataInitDevice _ _ => inferInstanceAs (Decidable True)
  | .archStartRunningProcs => inferInstanceAs (Decidable True)
  | .picBlockIrq _ => inferInstanceAs (Decidable True)
  | .interrupt _ _ => inferInstanceAs (Decidable True)
  | .cli => inferInstanceAs (Decidable True)
  | .dispatch _ => inferInstanceAs (Decidable ((_ → _) ∧ _))

section

variable
  {isr : Nat → UInt64}
  {start source target : Processor}
  {before ops : List IntOp}
  {lines : Lines}

/-- A handler which ends so leaves none behind. -/
theorem Lines.step_settles
    {processor : Processor}
    (op : IntOp)
    (frames : processor.frames = lines.begun)
    (settles : processor.Settles op) :
    (lines.step op).abandoned = lines.abandoned := by
  cases op with
  | dispatch switches =>
      cases begun : lines.begun with
      | nil => rw [Lines.step, begun]
      | cons frame rest =>
          rcases settles with ⟨alone, known⟩
          rw [frames, begun] at alone known
          have reports : frame.vector ≠ syscallVector := known frame rfl
          rw [Lines.step_dispatch begun]
          funext line
          show (lines.abandoned line || leaves switches frame rest line) =
            lines.abandoned line
          have none : leaves switches frame rest line = false := by
            cases switches with
            | false => simp [leaves, reports]
            | true =>
                have last : rest = [] := by
                  have few := alone rfl
                  rw [List.length_cons] at few
                  exact List.length_eq_zero_iff.mp (by omega)
                simp [leaves, reports, last]
          rw [none, Bool.or_false]
  | _ => rfl

/-- What is abandoned stays so. -/
theorem Lines.step_abandoned
    {line : Nat}
    (op : IntOp)
    (abandoned : lines.abandoned line = true) :
    (lines.step op).abandoned line = true := by
  cases op with
  | dispatch switches =>
      cases begun : lines.begun with
      | nil =>
          rw [Lines.step, begun]
          exact abandoned
      | cons frame rest =>
          rw [Lines.step_dispatch begun]
          show (lines.abandoned line || _) = true
          rw [abandoned, Bool.true_or]
  | _ => exact abandoned

/--
As long as no handler is switched away, the lines in service are just those
whose handlers have begun, and so none once all have come to their ends.
-/
theorem handlers_settled
    (initial : (intSystem isr).init start)
    (run : ((intSystem isr).restrict Processor.Settles).Run start ops target)
    (line : Nat) :
    target.pics.inService line = true ↔
      line ∈ target.frames.map Frame.line := by
  have none : (Lines.after ops).abandoned = fun _ => false := by
    induction run with
    | nil => rfl
    | snoc earlier last induction =>
        rcases shows_of_run initial earlier.of_restrict with ⟨atWork, _, _⟩
        rw [Lines.after, List.foldl_append]
        exact (Lines.step_settles _ atWork.frames last.1.2).trans induction
  rcases shows_of_run initial run.of_restrict with ⟨atWork, _, _⟩
  rw [atWork.inService line, Lines.Serves, none, atWork.frames]
  simp

/--
A line whose handler was abandoned stays in service for good: neither its own
interrupts nor those of the lines after it are ever taken again.
-/
theorem abandoned_lines_blocked
    (initial : (intSystem isr).init start)
    (run : (intSystem isr).Run start before source)
    {line : Nat}
    (abandoned : (Lines.after before).abandoned line = true)
    (more : (intSystem isr).Run source ops target) :
    target.pics.inService line = true ∧
      ∀ taken slaveVector next,
        (intSystem isr).Step target (.interrupt taken slaveVector) next →
        taken < line := by
  have both : (intSystem isr).Run start (before ++ ops) target ∧
      (Lines.after (before ++ ops)).abandoned line = true := by
    induction more with
    | nil =>
        rw [List.append_nil]
        exact ⟨run, abandoned⟩
    | @snoc _ _ ops op _ last induction =>
        rcases induction with ⟨whole, still⟩
        rw [← List.append_assoc]
        refine ⟨whole.snoc last, ?_⟩
        rw [Lines.after, List.foldl_append]
        exact Lines.step_abandoned op still
  rcases both with ⟨whole, still⟩
  rcases shows_of_run initial whole with ⟨atWork, _, _⟩
  refine ⟨(atWork.inService line).mpr (.inr still), ?_⟩
  intro taken slaveVector next last
  have comes : (Lines.after (before ++ ops)).next = some taken :=
    atWork.next_eq.symm.trans last.1.2.1
  exact (Lines.of_next comes).2.2.2 line (.inr still)

end

theorem timerFirst_settles :
    (((intSystem spacedHandlers).restrict Processor.Settles).replay
      startedProcessor timerFirst).isSome = true := by
  decide +kernel

theorem handlers_settled_timerFirst :
    ∃ target, ((intSystem spacedHandlers).restrict Processor.Settles).Run
        startedProcessor timerFirst target ∧
      target.frames.map Frame.line = [1] ∧
      ∀ line, target.pics.inService line = true ↔ line = 1 := by
  have run : ((intSystem spacedHandlers).restrict Processor.Settles).Run
      startedProcessor ([] ++ timerFirst) _ :=
    System.run_of_replay (.nil _) (Option.some_get timerFirst_settles).symm
  have lines : (((((intSystem spacedHandlers).restrict
      Processor.Settles).replay startedProcessor timerFirst).get
      timerFirst_settles).frames.map Frame.line) = [1] := by
    decide +kernel
  refine ⟨_, run, lines, fun line => ?_⟩
  rw [handlers_settled ⟨_, rfl, rfl⟩ run line, lines, List.mem_singleton]

/-- The timer comes before the keyboard's `cli` and switches away. -/
def keyboardLeft : List IntOp :=
  [.archInitialise, .archStartRunningProcs, .request 1, .interrupt 1 0,
    .request 0, .interrupt 0 0, .cli, .dispatch true]

theorem keyboardLeft_replayed :
    ((intSystem spacedHandlers).replay startedProcessor
      keyboardLeft).isSome = true := by
  decide +kernel

def afterKeyboardLeft : Processor :=
  ((intSystem spacedHandlers).replay startedProcessor keyboardLeft).get
    keyboardLeft_replayed

/-- Then the keyboard is dead, although it asks again and all is done. -/
theorem abandoned_lines_blocked_keyboard :
    ∃ target, (intSystem spacedHandlers).Run startedProcessor
        (keyboardLeft ++ [.request 1]) target ∧
      target.frames = [] ∧ target.pics.inService 1 = true ∧
      ∀ slaveVector next, ¬ (intSystem spacedHandlers).Step target
        (.interrupt 1 slaveVector) next := by
  have run : (intSystem spacedHandlers).Run startedProcessor
      ([] ++ keyboardLeft) afterKeyboardLeft :=
    System.run_of_replay (.nil _) (Option.some_get _).symm
  have settled : afterKeyboardLeft.frames = [] := by
    decide +kernel
  have asks : (intSystem spacedHandlers).Step afterKeyboardLeft (.request 1)
      (afterKeyboardLeft.setPics (afterKeyboardLeft.pics.request 1)) :=
    ⟨(by decide : 1 < 8), rfl⟩
  have abandoned : (Lines.after ([] ++ keyboardLeft)).abandoned 1 = true := by
    decide +kernel
  have more : (intSystem spacedHandlers).Run afterKeyboardLeft
      ([] ++ [.request 1]) _ :=
    .snoc (.nil _) asks
  rcases abandoned_lines_blocked ⟨_, rfl, rfl⟩ run abandoned more with
    ⟨served, blocked⟩
  refine ⟨_, run.snoc asks, settled, served, ?_⟩
  intro slaveVector next last
  exact absurd (blocked 1 slaveVector next last) (Nat.lt_irrefl 1)

end ForsKernel.Interrupts
