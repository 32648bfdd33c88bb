import ForsKernel.Lib.RingBuffer

/-!
# The run queue and the timer

`generic/proc/thread.c` keeps the tids which wait for the processor in a ring
of `MAX_PROCS` cells, and `generic/timer.c` calls the registered handles every
`n` ticks.
-/

namespace ForsKernel.Proc

open ForsKernel.Lib

/-! ## The run queue -/

/-- `MAX_PROCS`. -/
def maxProcs : Nat := 32

/-- `sched_queue`, `sq_head`, `sq_tail` and `sq_space_left`. -/
abbrev RunQueue := RingBuffer Int

namespace RunQueue

/-- The queue as it is at boot. -/
def boot : RunQueue :=
  ⟨fun _ => 0, 0, 0, maxProcs⟩

/-- The tids in the queue, the next one to run first. -/
abbrev tids (queue : RunQueue) : List Int :=
  queue.contents maxProcs

def sqFull (queue : RunQueue) : Bool :=
  queue.spaceLeft == 0

def sqEmpty (queue : RunQueue) : Bool :=
  queue.spaceLeft == maxProcs

def enqueueProc
    (queue : RunQueue)
    (tid : Int) :
    Int × RunQueue :=
  if sqFull queue then (-1, queue) else (0, queue.push maxProcs tid)

def dequeueProc (queue : RunQueue) : Int × RunQueue :=
  if sqEmpty queue then (-1, queue)
  else (queue.cells queue.head, queue.pop maxProcs)

/-- The tid at the front is moved to the back and runs. -/
def schedule (queue : RunQueue) : Int × RunQueue :=
  let taken := dequeueProc queue
  (taken.1, (enqueueProc taken.2 taken.1).2)

theorem boot_wf : boot.Wf maxProcs :=
  ⟨by decide, by decide, by decide⟩

theorem boot_tids : boot.tids = [] :=
  RingBuffer.contents_eq_nil rfl

section

variable {queue : RunQueue}

/-- An enqueue is refused by a full queue and appends otherwise. -/
theorem enqueueProc_cases
    (wf : queue.Wf maxProcs)
    (tid : Int) :
    (queue.spaceLeft = 0 ∧ enqueueProc queue tid = (-1, queue)) ∨
      ∃ queue', enqueueProc queue tid = (0, queue') ∧
        queue'.Wf maxProcs ∧ queue'.tids = queue.tids ++ [tid] := by
  by_cases full : queue.spaceLeft = 0
  · left
    exact ⟨full, if_pos (by simp [sqFull, full])⟩
  · right
    refine ⟨queue.push maxProcs tid, if_neg (by simp [sqFull, full]),
      wf.push tid full, RingBuffer.contents_push wf tid full⟩

/-- A dequeue takes the front, if there is one. -/
theorem dequeueProc_cases (wf : queue.Wf maxProcs) :
    (queue.tids = [] ∧ dequeueProc queue = (-1, queue)) ∨
      ∃ tid queue', dequeueProc queue = (tid, queue') ∧
        queue'.Wf maxProcs ∧ queue'.spaceLeft ≠ 0 ∧
          queue.tids = tid :: queue'.tids := by
  by_cases empty : queue.spaceLeft = maxProcs
  · left
    exact ⟨RingBuffer.contents_eq_nil empty, if_pos (by simp [sqEmpty, empty])⟩
  · right
    exact ⟨queue.cells queue.head, queue.pop maxProcs,
      if_neg (by simp [sqEmpty, empty]), wf.pop empty,
      Nat.succ_ne_zero _, RingBuffer.contents_pop wf empty⟩

/--
The scheduler rotates a queue with entries.  An empty queue answers with `-1`,
and this answer is then put into the queue.
-/
theorem schedule_cases (wf : queue.Wf maxProcs) :
    ∃ tid queue', schedule queue = (tid, queue') ∧ queue'.Wf maxProcs ∧
      ((queue.tids = [] ∧ tid = -1 ∧ queue'.tids = [-1]) ∨
        ∃ rest, queue.tids = tid :: rest ∧ queue'.tids = rest ++ [tid]) := by
  rcases dequeueProc_cases wf with
    ⟨empty, taken⟩ | ⟨tid, rest, taken, restWf, room, front⟩
  · rcases enqueueProc_cases wf (-1) with
      ⟨full, refused⟩ | ⟨queue', enqueued, wf', back⟩
    · have some_tid : queue.tids ≠ [] := by
        simp [RingBuffer.contents, full, maxProcs]
      exact (some_tid empty).elim
    · refine ⟨-1, queue', ?_, wf', .inl ⟨empty, rfl, ?_⟩⟩
      · rw [schedule, taken, enqueued]
      · rw [back, empty, List.nil_append]
  · rcases enqueueProc_cases restWf tid with
      ⟨full, _⟩ | ⟨queue', enqueued, wf', back⟩
    · exact (room full).elim
    · refine ⟨tid, queue', ?_, wf', .inr ⟨_, front, back⟩⟩
      rw [schedule, taken, enqueued]

end

end RunQueue

/-! ## The timer -/

/-- `MAX_TIMER_HANDLES`. -/
def maxTimerHandles : Nat := 8

structure TimerHandle (κ : Type*) where
  cbk : κ
  n : Nat

/-- `ticks` and the handles registered so far, in order. -/
structure Timer (κ : Type*) where
  ticks : Nat
  handles : List (TimerHandle κ)

namespace Timer

variable {κ σ : Type*}

def addTimerHandle
    (timer : Timer κ)
    (cbk : κ)
    (n : Nat) :
    Int × Timer κ :=
  if maxTimerHandles ≤ timer.handles.length then (-1, timer)
  else (timer.handles.length,
    { timer with handles := timer.handles ++ [⟨cbk, n⟩] })

/-- The loop of `timer_tick`.  A handle with `n` zero divides by zero. -/
def runHandles
    (call : κ → σ → σ)
    (ticks : Nat) :
    List (TimerHandle κ) → σ → Option σ
  | [], state => some state
  | handle :: rest, state =>
      if handle.n = 0 then none
      else runHandles call ticks rest
        (if ticks % handle.n = 0 then call handle.cbk state else state)

def timerTick
    (call : κ → σ → σ)
    (timer : Timer κ)
    (state : σ) :
    Option (Timer κ × σ) :=
  let ticks := (timer.ticks + 1) % 2 ^ 64
  (runHandles call ticks timer.handles state).map fun state' =>
    ({ timer with ticks := ticks }, state')

/-- What every callback preserves holds after a tick. -/
theorem runHandles_invariant
    {call : κ → σ → σ}
    {ticks : Nat}
    {handles : List (TimerHandle κ)}
    {state state' : σ}
    {inv : σ → Prop}
    (ran : runHandles call ticks handles state = some state')
    (initially : inv state)
    (preserved : ∀ cbk state, inv state → inv (call cbk state)) :
    inv state' := by
  induction handles generalizing state with
  | nil =>
      cases ran
      exact initially
  | cons handle rest induction =>
      rw [runHandles] at ran
      split at ran
      · cases ran
      · apply induction ran
        split
        · exact preserved handle.cbk state initially
        · exact initially

end Timer

end ForsKernel.Proc
