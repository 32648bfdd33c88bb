import Mathlib.Data.List.Infix
import Mathlib.Data.List.Perm.Basic
import ForsKernel.Lib.Machine
import ForsKernel.Proc.Scheduler

/-!
# The run queue as a bounded queue

The ring of `thread.c` with its separate counter of free cells answers every
sequence of `enqueue_proc` and `dequeue_proc` calls as a list of at most
`MAX_PROCS` entries does.  `schedule` combines the two: it rotates a queue
with entries, and puts the failure code of `dequeue_proc` into an empty one.
-/

namespace ForsKernel.Proc

open ForsKernel.Lib

/-! ## The bounded queue -/

inductive QueueOp where
  | enqueueProc (tid : Int)
  | dequeueProc

/-- A first-in first-out queue of at most `capacity` tids. -/
def fifo (capacity : Nat) : Machine (List Int) QueueOp Int where
  step
    | tids, .enqueueProc tid =>
        if tids.length = capacity then (-1, tids) else (0, tids ++ [tid])
    | [], .dequeueProc => (-1, [])
    | tid :: rest, .dequeueProc => (tid, rest)

namespace RunQueue

/-- The calls of `enqueue_proc` and `dequeue_proc`. -/
def machine : Machine RunQueue QueueOp Int where
  step
    | queue, .enqueueProc tid => enqueueProc queue tid
    | queue, .dequeueProc => dequeueProc queue

/-- The queue holds these tids, the next one to run first. -/
def Holds
    (queue : RunQueue)
    (tids : List Int) :
    Prop :=
  queue.Wf maxProcs ∧ queue.tids = tids

theorem boot_holds : boot.Holds [] :=
  ⟨boot_wf, boot_tids⟩

section

variable {queue : RunQueue}

theorem length_tids (queue : RunQueue) :
    queue.tids.length = maxProcs - queue.spaceLeft :=
  RingBuffer.length_contents

/-- The queue is full when no cell is left. -/
theorem length_eq_maxProcs_iff (wf : queue.Wf maxProcs) :
    queue.tids.length = maxProcs ↔ queue.spaceLeft = 0 := by
  have le := wf.space_le
  have positive : 0 < maxProcs := by decide
  rw [length_tids]
  omega

theorem tids_eq_nil_iff (wf : queue.Wf maxProcs) :
    queue.tids = [] ↔ queue.spaceLeft = maxProcs := by
  have le := wf.space_le
  rw [← List.length_eq_zero_iff, length_tids]
  omega

/-- The ring is told apart from no list by the answers it gives. -/
theorem machine_simulation :
    machine.Simulation (fifo maxProcs) Holds := by
  rintro queue tids op ⟨wf, rfl⟩
  cases op with
  | enqueueProc tid =>
      rcases enqueueProc_cases wf tid with
        ⟨full, refused⟩ | ⟨queue', enqueued, wf', back⟩
      · have length := (length_eq_maxProcs_iff wf).mpr full
        simp only [machine, fifo, refused, if_pos length]
        exact ⟨trivial, wf, rfl⟩
      · have length : queue.tids.length ≠ maxProcs := by
          intro length
          have bounded := length_tids queue'
          rw [back, List.length_append, length] at bounded
          simp at bounded
          omega
        simp only [machine, fifo, enqueued, if_neg length]
        exact ⟨trivial, wf', back⟩
  | dequeueProc =>
      rcases dequeueProc_cases wf with
        ⟨empty, taken⟩ | ⟨tid, queue', taken, wf', _, front⟩
      · simp only [machine, fifo, taken, empty]
        exact ⟨trivial, wf, empty⟩
      · simp only [machine, fifo, taken, front]
        exact ⟨trivial, wf', rfl⟩

/--
From boot, every sequence of `enqueue_proc` and `dequeue_proc` calls is
answered as by a list of capacity `MAX_PROCS`.  In every state on the way the
ring stands for that list, a call which is refused changes nothing, and the
positions agree with the counter.
-/
theorem run_queue_refines_fifo (ops : List QueueOp) :
    machine.answers boot ops = (fifo maxProcs).answers [] ops ∧
      ∃ queue, machine.final boot ops = queue ∧
        queue.tids = (fifo maxProcs).final [] ops ∧
        (∀ tid, queue.tids.length = maxProcs →
          enqueueProc queue tid = (-1, queue)) ∧
        (queue.tids = [] → dequeueProc queue = (-1, queue)) ∧
        queue.tail =
          (queue.head + (maxProcs - queue.spaceLeft)) % maxProcs ∧
        queue.spaceLeft ≤ maxProcs := by
  refine ⟨machine_simulation.answers_eq boot_holds ops, _, rfl, ?_⟩
  rcases machine_simulation.final_related boot_holds ops with ⟨wf, holds⟩
  refine ⟨holds, ?_, ?_, wf.tail_eq, wf.space_le⟩
  · intro tid full
    have space := (length_eq_maxProcs_iff wf).mp full
    exact if_pos (by simp [sqFull, space])
  · intro empty
    have space := (tids_eq_nil_iff wf).mp empty
    exact if_pos (by simp [sqEmpty, space])

end

end RunQueue

/-! ## Rotation -/

/-- The calls which change the run queue; the timer makes the last one. -/
inductive SchedOp where
  | queue (op : QueueOp)
  | schedule

namespace RunQueue

/-- The run queue under its clients and the timer. -/
def scheduler : Machine RunQueue SchedOp Int where
  step
    | queue, .queue op => machine.step queue op
    | queue, .schedule => schedule queue

/-- The queue after these calls. -/
def after (ops : List SchedOp) : RunQueue :=
  scheduler.final boot ops

/-- The tids which `enqueue_proc` accepted from its callers. -/
def accepted : RunQueue → List SchedOp → List Int
  | _, [] => []
  | queue, op :: ops =>
      let rest := accepted (scheduler.step queue op).2 ops
      match op with
      | .queue (.enqueueProc tid) =>
          if (enqueueProc queue tid).1 = 0 then tid :: rest else rest
      | _ => rest

/--
What a call of `schedule` should do: return the tid at the front and move it
to the back, and with an empty queue report `-1` and leave it empty.
-/
def Rotates (queue : RunQueue) : Prop :=
  match queue.tids with
  | [] => (schedule queue).1 = -1 ∧ (schedule queue).2.tids = []
  | tid :: rest =>
      (schedule queue).1 = tid ∧ (schedule queue).2.tids = rest ++ [tid]

/--
What the scheduler promises over a run: each call rotates the queue, so that
only the calls of others change what is in it; what it returns was put into
the queue; and as many calls as there are entries return each of them once, in
the order of the queue, which they restore.
-/
structure RotatesThroughout (ops : List SchedOp) : Prop where
  rotates : ∀ before, before ++ [.schedule] <+: ops → Rotates (after before)
  conserved : ∀ before, before ++ [.schedule] <+: ops →
    ((after (before ++ [.schedule])).tids).Perm (after before).tids
  returned : ∀ before, before ++ [.schedule] <+: ops →
    (schedule (after before)).1 ≠ -1 →
      (schedule (after before)).1 ∈ accepted boot before
  full_turn : ∀ before, before <+: ops → (after before).tids ≠ [] →
    ∃ turn, turn = List.replicate (after before).tids.length .schedule ∧
      scheduler.answers (after before) turn = (after before).tids ∧
        (after (before ++ turn)).tids = (after before).tids

/-- The scheduler never finds the queue empty. -/
def NeverIdle (ops : List SchedOp) : Prop :=
  ∀ before, before ++ [.schedule] <+: ops → (after before).tids ≠ []

section

variable {queue : RunQueue}

theorem step_wf
    (queue : RunQueue)
    (op : SchedOp)
    (wf : queue.Wf maxProcs) :
    (scheduler.step queue op).2.Wf maxProcs := by
  cases op with
  | queue op => exact (machine_simulation queue _ op ⟨wf, rfl⟩).2.1
  | schedule =>
      rcases schedule_cases wf with ⟨tid, queue', called, wf', _⟩
      show (schedule queue).2.Wf maxProcs
      rw [called]
      exact wf'

theorem after_wf (ops : List SchedOp) : (after ops).Wf maxProcs :=
  Machine.final_invariant boot_wf step_wf ops

/-- A call rotates the queue unless it is empty. -/
theorem rotates_iff (wf : queue.Wf maxProcs) :
    Rotates queue ↔ queue.tids ≠ [] := by
  rcases schedule_cases wf with
    ⟨tid, queue', called, _, ⟨empty, rfl, left⟩ | ⟨rest, front, left⟩⟩
  · simp [Rotates, empty, called, left]
  · simp [Rotates, front, called, left]

/-- The entries which are in front come out first, and go to the back. -/
theorem turn
    {front back : List Int}
    (wf : queue.Wf maxProcs)
    (holds : queue.tids = front ++ back) :
    scheduler.answers queue (List.replicate front.length .schedule) = front ∧
      (scheduler.final queue
        (List.replicate front.length .schedule)).tids = back ++ front := by
  induction front generalizing queue back with
  | nil => exact ⟨rfl, by simpa [Machine.final] using holds⟩
  | cons tid front induction =>
      rcases schedule_cases wf with
        ⟨other, queue', called, wf', ⟨empty, _⟩ | ⟨rest, first, left⟩⟩
      · simp [empty] at holds
      · rw [first, List.cons_append, List.cons.injEq] at holds
        rcases holds with ⟨rfl, rfl⟩
        rw [List.append_assoc] at left
        rcases induction wf' left with ⟨answers, final⟩
        have stepped : scheduler.step queue .schedule = (other, queue') :=
          called
        rw [List.length_cons, List.replicate_succ, Machine.answers,
          Machine.final, stepped, answers, final, List.append_assoc]
        exact ⟨rfl, rfl⟩

theorem accepted_append
    (queue : RunQueue)
    (ops more : List SchedOp) :
    accepted queue (ops ++ more) =
      accepted queue ops ++ accepted (scheduler.final queue ops) more := by
  induction ops generalizing queue with
  | nil => rfl
  | cons op ops induction =>
      have rest := induction (scheduler.step queue op).2
      cases op with
      | schedule => exact rest
      | queue op =>
          cases op with
          | dequeueProc => exact rest
          | enqueueProc tid =>
              simp only [List.cons_append, accepted, Machine.final, rest]
              split <;> rfl

/-- An entry is a tid which was accepted, or the failure code. -/
theorem mem_accepted (ops : List SchedOp) :
    ∀ tid ∈ (after ops).tids, tid ≠ -1 → tid ∈ accepted boot ops := by
  induction ops using List.reverseRecOn with
  | nil =>
      intro tid member
      rw [after, Machine.final, boot_tids] at member
      cases member
  | append_singleton ops op induction =>
      intro tid member real
      have wf := after_wf ops
      rw [accepted_append, List.mem_append]
      rw [after, Machine.final_concat, ← after] at member
      cases op with
      | schedule =>
          rcases schedule_cases wf with ⟨first, queue', called, _,
            ⟨_, _, left⟩ | ⟨rest, front, left⟩⟩
          · simp only [scheduler, called, left, List.mem_singleton] at member
            exact (real member).elim
          · apply Or.inl (induction tid _ real)
            simp only [scheduler, called, left, List.mem_append,
              List.mem_singleton] at member
            simpa [front, or_comm] using member
      | queue op =>
          cases op with
          | dequeueProc =>
              apply Or.inl (induction tid _ real)
              rcases dequeueProc_cases wf with
                ⟨_, taken⟩ | ⟨first, queue', taken, _, _, front⟩
              · simpa only [scheduler, machine, taken] using member
              · simp only [scheduler, machine, taken] at member
                rw [front]
                exact List.mem_cons_of_mem first member
          | enqueueProc new =>
              rcases enqueueProc_cases wf new with
                ⟨_, refused⟩ | ⟨queue', enqueued, _, back⟩
              · apply Or.inl (induction tid _ real)
                simpa only [scheduler, machine, refused] using member
              · simp only [scheduler, machine, enqueued, back,
                  List.mem_append, List.mem_singleton] at member
                rcases member with old | rfl
                · exact .inl (induction tid old real)
                · right
                  rw [← after, accepted, if_pos (by rw [enqueued])]
                  exact List.mem_cons_self

/--
The scheduler keeps its promise over a run just when it never finds the queue
empty: `dequeue_proc` then reports a failure, which is enqueued like a tid.
-/
theorem schedule_rotates_iff (ops : List SchedOp) :
    RotatesThroughout ops ↔ NeverIdle ops := by
  constructor
  · intro promise before called
    exact (rotates_iff (after_wf before)).mp (promise.rotates before called)
  · intro busy
    constructor
    · intro before called
      exact (rotates_iff (after_wf before)).mpr (busy before called)
    · intro before called
      rcases schedule_cases (after_wf before) with
        ⟨tid, queue', stepped, _, ⟨empty, _⟩ | ⟨rest, front, left⟩⟩
      · exact (busy before called empty).elim
      · rw [after, Machine.final_concat, ← after]
        simp only [scheduler, stepped, left, front]
        exact List.perm_append_singleton tid rest
    · intro before called real
      rcases schedule_cases (after_wf before) with
        ⟨tid, queue', stepped, _, ⟨empty, _⟩ | ⟨rest, front, _⟩⟩
      · exact (busy before called empty).elim
      · rw [stepped] at real ⊢
        exact mem_accepted before tid (by rw [front]; exact List.mem_cons_self)
          real
    · intro before _ _
      have whole : (after before).tids = (after before).tids ++ [] :=
        (List.append_nil _).symm
      rcases turn (after_wf before) whole with ⟨answers, final⟩
      refine ⟨_, rfl, answers, ?_⟩
      rw [after, Machine.final_append, ← after, final, List.nil_append]

/-- At boot the queue is empty, and the timer puts `-1` into it. -/
theorem schedule_keeps_failure_code : ¬ RotatesThroughout [.schedule] := by
  intro promise
  have rotates := promise.rotates [] (List.prefix_refl _)
  exact (rotates_iff boot_wf).mp rotates boot_tids

end

end RunQueue

end ForsKernel.Proc
