import Mathlib.Data.List.Nodup
import Mathlib.Data.Nat.ModEq
import ForsKernel.Lib.Transition
import ForsKernel.Proc.Scheduler

/-!
# Timer callbacks

`generic/timer.c` registers callbacks with a period in ticks.  A run mixes
registrations and ticks in any order, and notes for every tick which handles
it has called.  The period is not checked when a handle is registered, but
every tick divides by it.
-/

namespace ForsKernel.Proc

open ForsKernel.Lib.Transition

variable {κ σ : Type*}

namespace Timer

/-- The callbacks which are due, in the order of their registration. -/
def dueCallbacks
    (ticks : Nat)
    (handles : List (TimerHandle κ)) :
    List κ :=
  (handles.filter fun handle => ticks % handle.n = 0).map TimerHandle.cbk

/-- A tick divides by zero, or calls what is due and nothing else. -/
theorem runHandles_eq
    (call : κ → σ → σ)
    (ticks : Nat)
    (handles : List (TimerHandle κ))
    (state : σ) :
    runHandles call ticks handles state =
      if ∃ handle ∈ handles, handle.n = 0 then none
      else some ((dueCallbacks ticks handles).foldl
        (fun state cbk => call cbk state) state) := by
  induction handles generalizing state with
  | nil => simp [runHandles, dueCallbacks]
  | cons handle rest induction =>
      by_cases zero : handle.n = 0
      · simp [runHandles, zero]
      · rw [runHandles, if_neg zero, induction]
        by_cases due : ticks % handle.n = 0
        · simp [zero, due, dueCallbacks]
        · simp [zero, due, dueCallbacks]

theorem addTimerHandle_of_lt
    {timer : Timer κ}
    (room : timer.handles.length < maxTimerHandles)
    (cbk : κ)
    (n : Nat) :
    timer.addTimerHandle cbk n = ((timer.handles.length : Int),
      { timer with handles := timer.handles ++ [⟨cbk, n⟩] }) :=
  if_neg (Nat.not_le_of_lt room)

theorem addTimerHandle_of_full
    {timer : Timer κ}
    (full : maxTimerHandles ≤ timer.handles.length)
    (cbk : κ)
    (n : Nat) :
    timer.addTimerHandle cbk n = (-1, timer) :=
  if_pos full

/-- A handle is accepted while there is room, and its index is returned. -/
theorem addTimerHandle_accepted
    {timer : Timer κ}
    {cbk : κ}
    {n : Nat}
    (accepted : 0 ≤ (timer.addTimerHandle cbk n).1) :
    timer.handles.length < maxTimerHandles ∧
      (timer.addTimerHandle cbk n).1 = timer.handles.length := by
  by_cases full : maxTimerHandles ≤ timer.handles.length
  · rw [addTimerHandle_of_full full] at accepted
    cases accepted
  · have room : timer.handles.length < maxTimerHandles := by omega
    exact ⟨room, by rw [addTimerHandle_of_lt room]⟩

end Timer

/-! ## Runs -/

/-- What the kernel asks of the timer. -/
inductive TimerOp (κ : Type*) where
  | addTimerHandle (cbk : κ) (n : Nat)
  | timerTick

/-- The operation is a tick. -/
def TimerOp.isTick : TimerOp κ → Bool
  | .addTimerHandle _ _ => false
  | .timerTick => true

/-- The number of ticks among these operations. -/
def ticksIn (ops : List (TimerOp κ)) : Nat :=
  ops.countP TimerOp.isTick

/-- The number of registrations among these operations. -/
def registrationsIn (ops : List (TimerOp κ)) : Nat :=
  ops.countP fun op => !op.isTick

/--
The timer, and the handles which each tick so far has called.  A callback is
kept with the index of the handle which it belongs to.
-/
structure TimerRun (κ : Type*) where
  timer : Timer (Nat × κ)
  called : List (List Nat)

namespace TimerRun

/-- Before the first registration. -/
def boot : TimerRun κ :=
  ⟨⟨0, []⟩, []⟩

/-- The handle is called. -/
def note
    (cbk : Nat × κ)
    (called : List Nat) :
    List Nat :=
  called ++ [cbk.1]

/-- What a registration returns. -/
def register
    (run : TimerRun κ)
    (cbk : κ)
    (n : Nat) :
    Int × Timer (Nat × κ) :=
  run.timer.addTimerHandle (run.timer.handles.length, cbk) n

def step (run : TimerRun κ) : TimerOp κ → Option (TimerRun κ)
  | .addTimerHandle cbk n => some { run with timer := (run.register cbk n).2 }
  | .timerTick =>
      (run.timer.timerTick note []).map fun ticked =>
        ⟨ticked.1, run.called ++ [ticked.2]⟩

end TimerRun

/-- The timer under any sequence of registrations and ticks. -/
def timerSystem (κ : Type*) : System (TimerRun κ) (TimerOp κ) where
  init := (· = TimerRun.boot)
  legal := fun _ _ => True
  step := TimerRun.step

/-- These operations lead from boot to this state. -/
abbrev TimerRuns
    (ops : List (TimerOp κ))
    (run : TimerRun κ) :
    Prop :=
  (timerSystem κ).Run .boot ops run

/--
No tick divides by zero, a handle has been called once in every `n` ticks
since it was accepted, and within a tick the handles are called at most once
and in the order of their registration.
-/
structure TimerLaw (ops : List (TimerOp κ)) : Prop where
  completes : ∃ run, TimerRuns ops run
  counted : ∀ before cbk n after middle run (handle : Nat),
    ops = before ++ .addTimerHandle cbk n :: after →
    TimerRuns before middle → (middle.register cbk n).1 = handle →
    TimerRuns ops run →
    run.called.flatten.count handle =
      (middle.timer.ticks + ticksIn after) / n - middle.timer.ticks / n
  ordered : ∀ run, TimerRuns ops run → ∀ called ∈ run.called,
    called.Pairwise (· < ·)

/-- A handle with period zero is accepted, and a tick follows. -/
def TicksZeroPeriod (ops : List (TimerOp κ)) : Prop :=
  ∃ before cbk after, ops = before ++ .addTimerHandle cbk 0 :: after ∧
    registrationsIn before < maxTimerHandles ∧ 0 < ticksIn after

@[simp]
theorem ticksIn_nil : ticksIn ([] : List (TimerOp κ)) = 0 :=
  rfl

@[simp]
theorem ticksIn_append (ops more : List (TimerOp κ)) :
    ticksIn (ops ++ more) = ticksIn ops + ticksIn more :=
  List.countP_append

@[simp]
theorem ticksIn_tick : ticksIn [(.timerTick : TimerOp κ)] = 1 :=
  rfl

@[simp]
theorem ticksIn_add
    (cbk : κ)
    (n : Nat)
    (ops : List (TimerOp κ)) :
    ticksIn (.addTimerHandle cbk n :: ops) = ticksIn ops := by
  simp [ticksIn, TimerOp.isTick]

@[simp]
theorem registrationsIn_append (ops more : List (TimerOp κ)) :
    registrationsIn (ops ++ more) =
      registrationsIn ops + registrationsIn more :=
  List.countP_append

@[simp]
theorem registrationsIn_tick :
    registrationsIn [(.timerTick : TimerOp κ)] = 0 :=
  rfl

@[simp]
theorem registrationsIn_add
    (cbk : κ)
    (n : Nat) :
    registrationsIn [TimerOp.addTimerHandle cbk n] = 1 :=
  rfl

/-! ## One tick -/

/-- Every handle is kept with its index. -/
def Indexed (run : TimerRun κ) : Prop :=
  run.timer.handles.map (fun handle => handle.cbk.1) =
    List.range run.timer.handles.length

theorem Indexed.add
    {run : TimerRun κ}
    (indexed : Indexed run)
    (cbk : κ)
    (n : Nat) :
    Indexed { run with timer := { run.timer with
      handles := run.timer.handles ++
        [⟨(run.timer.handles.length, cbk), n⟩] } } := by
  rw [Indexed] at indexed
  simp only [Indexed, List.map_append, List.map_cons, List.map_nil,
    List.length_append, List.length_cons, List.length_nil, List.range_succ]
  rw [indexed]

/-- The handles which are called in a tick. -/
def dueHandles
    (ticks : Nat)
    (handles : List (TimerHandle (Nat × κ))) :
    List Nat :=
  (Timer.dueCallbacks ticks handles).map Prod.fst

theorem foldl_note
    (called : List Nat)
    (cbks : List (Nat × κ)) :
    cbks.foldl (fun called cbk => TimerRun.note cbk called) called =
      called ++ cbks.map Prod.fst := by
  induction cbks generalizing called with
  | nil => simp
  | cons cbk cbks induction =>
      rw [List.foldl_cons, induction, TimerRun.note]
      simp

theorem dueHandles_eq
    (ticks : Nat)
    (handles : List (TimerHandle (Nat × κ))) :
    dueHandles ticks handles =
      (handles.filter fun handle => ticks % handle.n = 0).map
        fun handle => handle.cbk.1 := by
  simp [dueHandles, Timer.dueCallbacks]

/-- A tick counts, and calls the handles which are due. -/
theorem step_tick (run : TimerRun κ) :
    run.step .timerTick =
      if ∃ handle ∈ run.timer.handles, handle.n = 0 then none
      else
        let ticks := (run.timer.ticks + 1) % 2 ^ 64
        some ⟨{ run.timer with ticks := ticks },
          run.called ++ [dueHandles ticks run.timer.handles]⟩ := by
  rw [TimerRun.step, Timer.timerTick, Timer.runHandles_eq]
  split
  · rfl
  · simp [foldl_note, dueHandles]

theorem dueHandles_pairwise
    {run : TimerRun κ}
    (indexed : Indexed run)
    (ticks : Nat) :
    (dueHandles ticks run.timer.handles).Pairwise (· < ·) := by
  rw [dueHandles_eq]
  have sublist := (List.filter_sublist
    (l := run.timer.handles) (p := fun handle => ticks % handle.n = 0)).map
      fun handle => handle.cbk.1
  rw [indexed] at sublist
  exact List.pairwise_lt_range.sublist sublist

/-- The handle with this index is due just when its period divides. -/
theorem mem_dueHandles
    {run : TimerRun κ}
    (indexed : Indexed run)
    {ticks index : Nat}
    {handle : TimerHandle (Nat × κ)}
    (isHandle : run.timer.handles[index]? = some handle) :
    index ∈ dueHandles ticks run.timer.handles ↔ ticks % handle.n = 0 := by
  have own : ∀ (other : TimerHandle (Nat × κ)) (i : Nat),
      run.timer.handles[i]? = some other → other.cbk.1 = i := by
    intro other i isOther
    have tag := congrArg (fun tags => tags[i]?) indexed
    rcases List.getElem?_eq_some_iff.mp isOther with ⟨lt, rfl⟩
    simpa [lt] using tag
  rw [dueHandles_eq]
  simp only [List.mem_map, List.mem_filter, decide_eq_true_eq]
  constructor
  · rintro ⟨other, ⟨inside, due⟩, same⟩
    rcases List.getElem?_of_mem inside with ⟨i, isOther⟩
    have here : i = index := (own other i isOther).symm.trans same
    rw [here, isHandle] at isOther
    cases isOther
    exact due
  · intro due
    exact ⟨handle, ⟨List.mem_of_getElem? isHandle, due⟩,
      own handle index isHandle⟩

/-- A handle which is due is called once, and any other not at all. -/
theorem count_dueHandles
    {run : TimerRun κ}
    (indexed : Indexed run)
    {ticks index : Nat}
    {handle : TimerHandle (Nat × κ)}
    (isHandle : run.timer.handles[index]? = some handle) :
    (dueHandles ticks run.timer.handles).count index =
      if ticks % handle.n = 0 then 1 else 0 := by
  have nodup : (dueHandles ticks run.timer.handles).Nodup :=
    (dueHandles_pairwise indexed ticks).imp Nat.ne_of_lt
  rw [nodup.count]
  simp only [mem_dueHandles indexed isHandle]

/-! ## Whole runs -/

/-- What an operation does, if it does not divide by zero. -/
theorem step_cases
    {run run' : TimerRun κ}
    {op : TimerOp κ}
    (stepped : run.step op = some run') :
    (∃ cbk n, op = .addTimerHandle cbk n ∧
        maxTimerHandles ≤ run.timer.handles.length ∧ run' = run) ∨
      (∃ cbk n, op = .addTimerHandle cbk n ∧
        run.timer.handles.length < maxTimerHandles ∧
        run' = { run with timer := { run.timer with
          handles := run.timer.handles ++
            [⟨(run.timer.handles.length, cbk), n⟩] } }) ∨
      (op = .timerTick ∧ (∀ handle ∈ run.timer.handles, handle.n ≠ 0) ∧
        run' = ⟨{ run.timer with ticks := (run.timer.ticks + 1) % 2 ^ 64 },
          run.called ++ [dueHandles ((run.timer.ticks + 1) % 2 ^ 64)
            run.timer.handles]⟩) := by
  cases op with
  | addTimerHandle cbk n =>
      have result := Option.some.inj stepped
      by_cases full : maxTimerHandles ≤ run.timer.handles.length
      · rw [TimerRun.register, Timer.addTimerHandle_of_full full] at result
        exact .inl ⟨cbk, n, rfl, full, result.symm⟩
      · have room : run.timer.handles.length < maxTimerHandles := by omega
        rw [TimerRun.register, Timer.addTimerHandle_of_lt room] at result
        exact .inr (.inl ⟨cbk, n, rfl, room, result.symm⟩)
  | timerTick =>
      rw [step_tick] at stepped
      split at stepped
      · cases stepped
      · rename_i nonzero
        refine .inr (.inr ⟨rfl, ?_, (Option.some.inj stepped).symm⟩)
        intro handle inside zero
        exact nonzero ⟨handle, inside, zero⟩

/-- What the operations so far say about the state. -/
structure TimerInv
    (ops : List (TimerOp κ))
    (run : TimerRun κ) :
    Prop where
  indexed : Indexed run
  length : run.timer.handles.length =
    min maxTimerHandles (registrationsIn ops)
  called_lt : ∀ index ∈ run.called.flatten, index < run.timer.handles.length
  ordered : ∀ called ∈ run.called, called.Pairwise (· < ·)
  registered : ∀ handle ∈ run.timer.handles, ∃ before cbk after,
    ops = before ++ .addTimerHandle cbk handle.n :: after ∧
      registrationsIn before < maxTimerHandles

theorem TimerInv.boot : TimerInv [] (TimerRun.boot : TimerRun κ) :=
  ⟨rfl, rfl, by simp [TimerRun.boot], by simp [TimerRun.boot],
    by simp [TimerRun.boot]⟩

/-- Handles stay where their registration is, whatever follows it. -/
theorem TimerInv.registered_append
    {ops : List (TimerOp κ)}
    {run : TimerRun κ}
    (holds : TimerInv ops run)
    (op : TimerOp κ) :
    ∀ handle ∈ run.timer.handles, ∃ before cbk after,
      ops ++ [op] = before ++ .addTimerHandle cbk handle.n :: after ∧
        registrationsIn before < maxTimerHandles := by
  intro handle inside
  rcases holds.registered handle inside with ⟨before, cbk, after, rfl, lt⟩
  exact ⟨before, cbk, after ++ [op], by simp, lt⟩

theorem TimerInv.step
    {ops : List (TimerOp κ)}
    {run run' : TimerRun κ}
    {op : TimerOp κ}
    (holds : TimerInv ops run)
    (stepped : run.step op = some run') :
    TimerInv (ops ++ [op]) run' := by
  rcases step_cases stepped with
    ⟨cbk, n, rfl, full, rfl⟩ | ⟨cbk, n, rfl, room, rfl⟩ | ⟨rfl, -, rfl⟩
  · refine ⟨holds.indexed, ?_, holds.called_lt, holds.ordered,
      holds.registered_append _⟩
    have length := holds.length
    simp only [registrationsIn_append, registrationsIn_add]
    omega
  · have length := holds.length
    refine ⟨holds.indexed.add cbk n, ?_, ?_, holds.ordered, ?_⟩
    · simp only [registrationsIn_append, registrationsIn_add,
        List.length_append, List.length_cons, List.length_nil]
      omega
    · intro index inside
      have lt := holds.called_lt index inside
      simp only [List.length_append, List.length_cons, List.length_nil]
      omega
    · intro handle inside
      rcases List.mem_append.mp inside with old | new
      · exact holds.registered_append _ handle old
      · rw [List.mem_singleton] at new
        subst new
        exact ⟨ops, cbk, [], rfl, by omega⟩
  · refine ⟨holds.indexed, ?_, ?_, ?_, holds.registered_append _⟩
    · simpa using holds.length
    · intro index inside
      rw [List.flatten_append, List.mem_append] at inside
      rcases inside with earlier | now
      · exact holds.called_lt index earlier
      · rw [List.flatten_singleton, dueHandles_eq, List.mem_map] at now
        rcases now with ⟨handle, due, rfl⟩
        have own : handle.cbk.1 ∈
            run.timer.handles.map fun handle => handle.cbk.1 :=
          List.mem_map_of_mem (List.mem_of_mem_filter due)
        rw [show run.timer.handles.map (fun handle => handle.cbk.1) =
          List.range run.timer.handles.length from holds.indexed] at own
        exact List.mem_range.mp own
    · intro called inside
      rcases List.mem_append.mp inside with earlier | now
      · exact holds.ordered called earlier
      · rw [List.mem_singleton] at now
        subst now
        exact dueHandles_pairwise holds.indexed _

theorem TimerRuns.inv
    {ops : List (TimerOp κ)}
    {run : TimerRun κ}
    (runs : TimerRuns ops run) :
    TimerInv ops run := by
  induction runs with
  | nil => exact .boot
  | snoc _ last induction => exact induction.step last.2

/-- Every tick counts as long as the counter does not wrap. -/
theorem Run.ticks
    {source run : TimerRun κ}
    {ops : List (TimerOp κ)}
    (runs : (timerSystem κ).Run source ops run)
    (few : source.timer.ticks + ticksIn ops < 2 ^ 64) :
    run.timer.ticks = source.timer.ticks + ticksIn ops := by
  induction runs with
  | nil => rfl
  | @snoc middle run ops op _ last induction =>
      rw [ticksIn_append] at few
      have before := induction (by omega)
      rcases step_cases last.2 with
        ⟨cbk, n, rfl, _, rfl⟩ | ⟨cbk, n, rfl, _, rfl⟩ | ⟨rfl, _, rfl⟩
      · simpa using before
      · simpa using before
      · rw [ticksIn_tick] at few
        have small : source.timer.ticks + ticksIn ops + 1 < 2 ^ 64 := by omega
        simp only [ticksIn_append, ticksIn_tick, before]
        rw [Nat.mod_eq_of_lt small, Nat.add_assoc]

/-- One more tick ends a period, or it does not. -/
theorem succ_div_period (t n : Nat) :
    (t + 1) / n = t / n + if (t + 1) % n = 0 then 1 else 0 := by
  rw [Nat.succ_div]
  simp only [Nat.dvd_iff_mod_eq_zero]

/--
From the tick at which it was accepted a handle has been called as often as
its period has ended since.
-/
theorem Run.counted
    {source run : TimerRun κ}
    {ops : List (TimerOp κ)}
    {index : Nat}
    {handle : TimerHandle (Nat × κ)}
    (runs : (timerSystem κ).Run source ops run)
    (few : source.timer.ticks + ticksIn ops < 2 ^ 64)
    (indexed : Indexed source)
    (isHandle : source.timer.handles[index]? = some handle)
    (uncalled : index ∉ source.called.flatten) :
    Indexed run ∧ run.timer.handles[index]? = some handle ∧
      run.called.flatten.count index + source.timer.ticks / handle.n =
        (source.timer.ticks + ticksIn ops) / handle.n := by
  induction runs with
  | nil =>
      refine ⟨indexed, isHandle, ?_⟩
      rw [List.count_eq_zero.mpr uncalled]
      simp [ticksIn]
  | @snoc middle run ops op before last induction =>
      rw [ticksIn_append] at few
      have ticks := Run.ticks before (by omega)
      rcases induction (by omega) with ⟨tagged, there, count⟩
      rcases step_cases last.2 with
        ⟨cbk, n, rfl, _, rfl⟩ | ⟨cbk, n, rfl, _, rfl⟩ | ⟨rfl, _, rfl⟩
      · exact ⟨tagged, there, by simpa using count⟩
      · refine ⟨?_, ?_, by simpa using count⟩
        · exact tagged.add cbk n
        · have lt := (List.getElem?_eq_some_iff.mp there).1
          rw [List.getElem?_append_left lt]
          exact there
      · rw [ticksIn_tick] at few
        have small : middle.timer.ticks + 1 < 2 ^ 64 := by omega
        refine ⟨tagged, there, ?_⟩
        simp only [ticksIn_append, ticksIn_tick, List.flatten_append,
          List.flatten_singleton, List.count_append,
          count_dueHandles tagged there, Nat.mod_eq_of_lt small]
        have period := succ_div_period middle.timer.ticks handle.n
        rw [← Nat.add_assoc, ← ticks, period, ticks, ← count]
        omega

/-- A handle with period zero stays, and no tick gets past it. -/
theorem Run.no_tick
    {source run : TimerRun κ}
    {ops : List (TimerOp κ)}
    {handle : TimerHandle (Nat × κ)}
    (runs : (timerSystem κ).Run source ops run)
    (inside : handle ∈ source.timer.handles)
    (zero : handle.n = 0) :
    handle ∈ run.timer.handles ∧ ticksIn ops = 0 := by
  induction runs with
  | nil => exact ⟨inside, rfl⟩
  | snoc _ last induction =>
      rcases induction with ⟨there, none⟩
      rcases step_cases last.2 with
        ⟨cbk, n, rfl, _, rfl⟩ | ⟨cbk, n, rfl, _, rfl⟩ | ⟨rfl, nonzero, rfl⟩
      · exact ⟨there, by simpa using none⟩
      · exact ⟨List.mem_append_left _ there, by simpa using none⟩
      · exact (nonzero handle there zero).elim

/-- A run as it was just after a registration. -/
theorem TimerRuns.at_registration
    {before after : List (TimerOp κ)}
    {cbk : κ}
    {n : Nat}
    {middle run : TimerRun κ}
    (first : TimerRuns before middle)
    (runs : TimerRuns (before ++ .addTimerHandle cbk n :: after) run) :
    (timerSystem κ).Run
      { middle with timer := (middle.register cbk n).2 } after run := by
  have split : before ++ .addTimerHandle cbk n :: after =
      (before ++ [.addTimerHandle cbk n]) ++ after := by simp
  rw [split] at runs
  rcases System.Run.resume runs with ⟨registered, upTo, rest⟩
  have same := upTo.unique (first.snoc ⟨trivial, rfl⟩)
  rw [same] at rest
  exact rest

/-- An operation can follow if it is not a tick which divides by zero. -/
theorem TimerRuns.next
    {ops : List (TimerOp κ)}
    {run : TimerRun κ}
    (runs : TimerRuns ops run)
    (op : TimerOp κ)
    (safe : ¬ TicksZeroPeriod (ops ++ [op])) :
    ∃ run', TimerRuns (ops ++ [op]) run' := by
  cases op with
  | addTimerHandle cbk n => exact ⟨_, runs.snoc ⟨trivial, rfl⟩⟩
  | timerTick =>
      have nonzero : ¬ ∃ handle ∈ run.timer.handles, handle.n = 0 := by
        rintro ⟨handle, inside, zero⟩
        rcases runs.inv.registered handle inside with
          ⟨before, cbk, after, rfl, room⟩
        rw [zero] at safe
        apply safe
        refine ⟨before, cbk, after ++ [.timerTick], by simp, room, ?_⟩
        simp
      have stepped := (step_tick run).trans (if_neg nonzero)
      exact ⟨_, runs.snoc ⟨trivial, stepped⟩⟩

theorem TicksZeroPeriod.append
    {ops : List (TimerOp κ)}
    (ticks : TicksZeroPeriod ops)
    (more : List (TimerOp κ)) :
    TicksZeroPeriod (ops ++ more) := by
  rcases ticks with ⟨before, cbk, after, rfl, room, later⟩
  refine ⟨before, cbk, after ++ more, by simp, room, ?_⟩
  rw [ticksIn_append]
  omega

theorem timerRuns_complete
    {ops : List (TimerOp κ)}
    (safe : ¬ TicksZeroPeriod ops) :
    ∃ run, TimerRuns ops run := by
  induction ops using List.reverseRecOn with
  | nil => exact ⟨_, .nil _⟩
  | append_singleton ops op induction =>
      rcases induction fun ticks => safe (ticks.append [op]) with ⟨run, runs⟩
      exact runs.next op safe

/-- A handle is accepted as long as few enough were registered before it. -/
theorem TimerRuns.accepts
    {ops : List (TimerOp κ)}
    {run : TimerRun κ}
    (runs : TimerRuns ops run)
    (room : registrationsIn ops < maxTimerHandles) :
    run.timer.handles.length < maxTimerHandles := by
  rw [runs.inv.length]
  omega

theorem TimerRuns.counted
    {before after : List (TimerOp κ)}
    {cbk : κ}
    {n handle : Nat}
    {middle run : TimerRun κ}
    (first : TimerRuns before middle)
    (runs : TimerRuns (before ++ .addTimerHandle cbk n :: after) run)
    (accepted : (middle.register cbk n).1 = handle)
    (few : ticksIn (before ++ .addTimerHandle cbk n :: after) < 2 ^ 64) :
    run.called.flatten.count handle =
      (middle.timer.ticks + ticksIn after) / n - middle.timer.ticks / n := by
  have ticks := Run.ticks first (by simp [TimerRun.boot] at few ⊢; omega)
  have rest := first.at_registration runs
  have inv := first.inv
  rcases Timer.addTimerHandle_accepted
    (show 0 ≤ (middle.register cbk n).1 by omega) with ⟨room, index⟩
  have here : handle = middle.timer.handles.length := by
    have returned : (middle.register cbk n).1 =
      middle.timer.handles.length := index
    omega
  rw [TimerRun.register, Timer.addTimerHandle_of_lt room] at rest
  have uncalled : handle ∉ middle.called.flatten := by
    intro called
    have lt := inv.called_lt handle called
    omega
  have isHandle : (middle.timer.handles ++
      [⟨(middle.timer.handles.length, cbk), n⟩])[handle]? =
        some ⟨(middle.timer.handles.length, cbk), n⟩ := by
    simp [here]
  have law := Run.counted rest
    (by simp [TimerRun.boot] at few ticks ⊢; omega)
    (inv.indexed.add cbk n) isHandle uncalled
  have count := law.2.2
  simp only at count
  omega

/--
The timer keeps its law as long as no tick follows the registration of a
handle with period zero.
-/
theorem timerLaw_iff
    (ops : List (TimerOp κ))
    (few : ticksIn ops < 2 ^ 64) :
    TimerLaw ops ↔ ¬ TicksZeroPeriod ops := by
  constructor
  · rintro law ⟨before, cbk, after, rfl, room, ticks⟩
    rcases law.completes with ⟨run, runs⟩
    rcases System.Run.resume runs with ⟨middle, first, _⟩
    have rest := TimerRuns.at_registration first runs
    rw [TimerRun.register,
      Timer.addTimerHandle_of_lt (TimerRuns.accepts first room)] at rest
    have inside : ⟨(middle.timer.handles.length, cbk), 0⟩ ∈
        middle.timer.handles ++
          [⟨(middle.timer.handles.length, cbk), 0⟩] := by simp
    have stuck := Run.no_tick rest inside rfl
    omega
  · intro safe
    refine ⟨timerRuns_complete safe, ?_, ?_⟩
    · rintro before cbk n after middle run handle rfl first accepted runs
      exact first.counted runs accepted few
    · intro run runs
      exact runs.inv.ordered

/-- Handles of period two and three, over six ticks. -/
theorem timerLaw_iff_six :
    TimerLaw [.addTimerHandle () 2, .timerTick, .addTimerHandle () 3,
        .timerTick, .timerTick, .timerTick, .timerTick, .timerTick] ↔
      ¬ TicksZeroPeriod [.addTimerHandle () 2, .timerTick,
        .addTimerHandle () 3, .timerTick, .timerTick, .timerTick, .timerTick,
        .timerTick] :=
  timerLaw_iff _ (by decide)

/-- A handle of period zero is accepted, and the next tick faults. -/
theorem not_timerLaw_zero :
    ¬ TimerLaw [.addTimerHandle () 0, .timerTick] := by
  intro law
  rcases law.completes with ⟨run, runs⟩
  rcases @System.Run.snoc_inv _ _ _ _ _ [TimerOp.addTimerHandle () 0] _ runs
    with ⟨middle, first, last⟩
  rcases @System.Run.snoc_inv _ _ _ _ _ [] _ first with ⟨start, before, one⟩
  have begin := before.unique (.nil _)
  rw [begin] at one
  have registered := one.2.symm.trans
    (show TimerRun.step TimerRun.boot (TimerOp.addTimerHandle () 0) =
      some ⟨⟨0, [⟨(0, ()), 0⟩]⟩, []⟩ from rfl)
  rw [Option.some.inj registered] at last
  cases last.2

end ForsKernel.Proc
