import Mathlib.Logic.Basic
import Mathlib.Data.List.Basic
import Mathlib.Data.List.Induction

/-!
# Labelled transition systems given by partial operations

A system is driven by operations.  `legal` says which operations its clients
may request in a state, and `step` what the code then does; `none` means that
the code does not come back with a new state.  A run records the operations in
order, so that properties of whole histories can be stated, and the two rules
below reduce them to properties of a single step.
-/

namespace ForsKernel.Lib.Transition

variable {σ ι : Type*}

/-- A state machine over states `σ` and operations `ι`. -/
structure System (σ ι : Type*) where
  init : σ → Prop
  legal : σ → ι → Prop
  step : σ → ι → Option σ

namespace System

/-- One permitted operation which returns. -/
def Step
    (system : System σ ι)
    (source : σ)
    (op : ι)
    (target : σ) :
    Prop :=
  system.legal source op ∧ system.step source op = some target

/-- A finite sequence of permitted operations, in the order performed. -/
inductive Run (system : System σ ι) : σ → List ι → σ → Prop where
  | nil (state : σ) : Run system state [] state
  | snoc {source middle target : σ} {ops : List ι} {op : ι}
      (before : Run system source ops middle)
      (last : system.Step middle op target) :
      Run system source (ops ++ [op]) target

/-- States which some run reaches from an initial state. -/
def Reachable
    (system : System σ ι)
    (state : σ) :
    Prop :=
  ∃ start ops, system.init start ∧ system.Run start ops state

theorem Reachable.start
    {system : System σ ι}
    {state : σ}
    (initial : system.init state) :
    system.Reachable state :=
  ⟨state, [], initial, .nil state⟩

theorem Reachable.next
    {system : System σ ι}
    {source target : σ}
    {op : ι}
    (reachable : system.Reachable source)
    (last : system.Step source op target) :
    system.Reachable target := by
  rcases reachable with ⟨start, ops, initial, run⟩
  exact ⟨start, ops ++ [op], initial, run.snoc last⟩

/-- What every step preserves holds at the end of every run. -/
theorem Run.invariant
    {system : System σ ι}
    {source target : σ}
    {ops : List ι}
    {inv : σ → Prop}
    (run : system.Run source ops target)
    (initially : inv source)
    (preserved : ∀ state op state', inv state →
      system.Step state op state' → inv state') :
    inv target := by
  induction run with
  | nil => exact initially
  | snoc _ last induction => exact preserved _ _ _ induction last

/-- What holds initially and is preserved holds in every reachable state. -/
theorem Reachable.invariant
    {system : System σ ι}
    {state : σ}
    {inv : σ → Prop}
    (reachable : system.Reachable state)
    (initially : ∀ start, system.init start → inv start)
    (preserved : ∀ state op state', inv state →
      system.Step state op state' → inv state') :
    inv state := by
  rcases reachable with ⟨start, ops, initial, run⟩
  exact run.invariant (initially start initial) preserved

/-- The same system for clients which keep to a further condition. -/
def restrict
    (system : System σ ι)
    (condition : σ → ι → Prop) :
    System σ ι :=
  { system with
    legal := fun state op => system.legal state op ∧ condition state op }

instance
    (system : System σ ι)
    (condition : σ → ι → Prop)
    [∀ state op, Decidable (system.legal state op)]
    [∀ state op, Decidable (condition state op)]
    (state : σ)
    (op : ι) :
    Decidable ((system.restrict condition).legal state op) :=
  inferInstanceAs (Decidable (_ ∧ _))

theorem Step.of_restrict
    {system : System σ ι}
    {condition : σ → ι → Prop}
    {source target : σ}
    {op : ι}
    (last : (system.restrict condition).Step source op target) :
    system.Step source op target :=
  ⟨last.1.1, last.2⟩

theorem Run.of_restrict
    {system : System σ ι}
    {condition : σ → ι → Prop}
    {source target : σ}
    {ops : List ι}
    (run : (system.restrict condition).Run source ops target) :
    system.Run source ops target := by
  induction run with
  | nil => exact .nil _
  | snoc _ last induction => exact induction.snoc last.of_restrict

theorem Reachable.of_restrict
    {system : System σ ι}
    {condition : σ → ι → Prop}
    {state : σ}
    (reachable : (system.restrict condition).Reachable state) :
    system.Reachable state := by
  rcases reachable with ⟨start, ops, initial, run⟩
  exact ⟨start, ops, initial, run.of_restrict⟩

theorem Step.restrict
    {system : System σ ι}
    {condition : σ → ι → Prop}
    {source target : σ}
    {op : ι}
    (last : system.Step source op target)
    (kept : condition source op) :
    (system.restrict condition).Step source op target :=
  ⟨⟨last.1, kept⟩, last.2⟩

/--
What is never regained once it is lost holds at the end of a run just when all
the steps meet the condition under which a single step keeps it.
-/
theorem Run.kept_iff
    {system : System σ ι}
    {condition : σ → ι → Prop}
    {good inv : σ → Prop}
    {source target : σ}
    {ops : List ι}
    (run : system.Run source ops target)
    (initially : inv source)
    (start : good source)
    (preserved : ∀ state op state', inv state →
      system.Step state op state' → inv state')
    (lost : ∀ state op state', inv state → system.Step state op state' →
      good state' → good state)
    (keeps : ∀ state op state', inv state → good state →
      system.Step state op state' → (good state' ↔ condition state op)) :
    good target ↔ (system.restrict condition).Run source ops target := by
  constructor
  · intro kept
    induction run with
    | nil => exact .nil _
    | snoc before last induction =>
        have holds := before.invariant initially preserved
        have middle := lost _ _ _ holds last kept
        have condition := (keeps _ _ _ holds middle last).mp kept
        exact (induction middle).snoc (last.restrict condition)
  · intro restricted
    have both : inv target ∧ good target := by
      apply restricted.invariant ⟨initially, start⟩
      rintro state op state' ⟨holds, kept⟩ last
      exact ⟨preserved _ _ _ holds last.of_restrict,
        (keeps _ _ _ holds kept last.of_restrict).mpr last.1.2⟩
    exact both.2

/--
What no step raises is kept over a run just when all the steps meet the
condition under which a single step keeps it.
-/
theorem Run.measure_kept_iff
    {system : System σ ι}
    {condition : σ → ι → Prop}
    {measure : σ → Nat}
    {inv : σ → Prop}
    {source target : σ}
    {ops : List ι}
    (run : system.Run source ops target)
    (initially : inv source)
    (preserved : ∀ state op state', inv state →
      system.Step state op state' → inv state')
    (lowers : ∀ state op state', inv state →
      system.Step state op state' → measure state' ≤ measure state)
    (keeps : ∀ state op state', inv state → system.Step state op state' →
      (measure state ≤ measure state' ↔ condition state op)) :
    measure source ≤ measure target ↔
      (system.restrict condition).Run source ops target := by
  apply @Run.kept_iff σ ι system condition
    (fun state => measure source ≤ measure state)
    (fun state => inv state ∧ measure state ≤ measure source)
    source target ops run ⟨initially, Nat.le_refl _⟩ (Nat.le_refl _)
  · rintro state op state' ⟨holds, less⟩ last
    exact ⟨preserved _ _ _ holds last,
      Nat.le_trans (lowers _ _ _ holds last) less⟩
  · rintro state op state' ⟨holds, _⟩ last kept
    exact Nat.le_trans kept (lowers _ _ _ holds last)
  · rintro state op state' ⟨holds, less⟩ kept last
    rw [← keeps _ _ _ holds last, Nat.le_antisymm kept less]

/-- The last operation of a run. -/
theorem Run.snoc_inv
    {system : System σ ι}
    {source target : σ}
    {ops : List ι}
    {op : ι}
    (run : system.Run source (ops ++ [op]) target) :
    ∃ middle, system.Run source ops middle ∧
      system.Step middle op target := by
  generalize whole : ops ++ [op] = all at run
  cases run with
  | nil => simp at whole
  | snoc before last =>
      rcases List.append_inj' whole rfl with ⟨rfl, same⟩
      cases same
      exact ⟨_, before, last⟩

/-- The operations determine where a run ends. -/
theorem Run.unique
    {system : System σ ι}
    {source target target' : σ}
    {ops : List ι}
    (run : system.Run source ops target)
    (run' : system.Run source ops target') :
    target = target' := by
  induction run generalizing target' with
  | nil =>
      generalize whole : ([] : List ι) = all at run'
      cases run' with
      | nil => rfl
      | snoc _ _ => simp at whole
  | snoc _ last induction =>
      rcases run'.snoc_inv with ⟨middle, before, last'⟩
      rw [induction before] at last
      exact Option.some.inj (last.2.symm.trans last'.2)

/-- A run has passed through a state after any of its operations. -/
theorem Run.split
    {system : System σ ι}
    {source target : σ}
    {ops done rest : List ι}
    (run : system.Run source ops target)
    (whole : ops = done ++ rest) :
    ∃ middle, system.Run source done middle := by
  induction run generalizing rest with
  | nil =>
      rcases List.append_eq_nil_iff.mp whole.symm with ⟨rfl, _⟩
      exact ⟨_, .nil _⟩
  | snoc before last induction =>
      rcases List.eq_nil_or_concat rest with rfl | ⟨more, op, rfl⟩
      · rw [List.append_nil] at whole
        rw [← whole]
        exact ⟨_, before.snoc last⟩
      · rw [List.concat_eq_append, ← List.append_assoc] at whole
        exact induction (List.append_inj' whole rfl).1

/-- A run can be resumed after any of its operations. -/
theorem Run.resume
    {system : System σ ι}
    {source target : σ}
    {done rest : List ι}
    (run : system.Run source (done ++ rest) target) :
    ∃ middle, system.Run source done middle ∧
      system.Run middle rest target := by
  induction rest using List.reverseRecOn generalizing target with
  | nil =>
      rw [List.append_nil] at run
      exact ⟨target, run, .nil _⟩
  | append_singleton rest op induction =>
      rw [← List.append_assoc] at run
      rcases run.snoc_inv with ⟨state, before, last⟩
      rcases induction before with ⟨middle, first, second⟩
      exact ⟨middle, first, second.snoc last⟩

/--
All states which a run passes through are good just when all its steps meet
the condition under which a single step leads from a good state to another.
-/
theorem Run.always_iff
    {system : System σ ι}
    {condition : σ → ι → Prop}
    {good inv : σ → Prop}
    {source target : σ}
    {ops : List ι}
    (run : system.Run source ops target)
    (initially : inv source)
    (start : good source)
    (preserved : ∀ state op state', inv state →
      system.Step state op state' → inv state')
    (keeps : ∀ state op state', inv state → good state →
      system.Step state op state' → (good state' ↔ condition state op)) :
    (∀ done rest middle, ops = done ++ rest →
        system.Run source done middle → good middle) ↔
      (system.restrict condition).Run source ops target := by
  constructor
  · intro always
    induction run with
    | nil => exact .nil _
    | @snoc middle target ops op before last induction =>
        have holds := before.invariant initially preserved
        have here := always ops [op] middle rfl before
        have there := always (ops ++ [op]) [] target (by simp)
          (before.snoc last)
        refine (induction ?_).snoc
          (last.restrict ((keeps _ _ _ holds here last).mp there))
        intro done rest state whole passed
        exact always done (rest ++ [op]) state (by simp [whole]) passed
  · intro restricted done rest middle whole passed
    rcases restricted.split whole with ⟨middle', passed'⟩
    have both : inv middle' ∧ good middle' := by
      apply passed'.invariant ⟨initially, start⟩
      rintro state op state' ⟨holds, kept⟩ last
      exact ⟨preserved _ _ _ holds last.of_restrict,
        (keeps _ _ _ holds kept last.of_restrict).mpr last.1.2⟩
    rw [passed.unique passed'.of_restrict]
    exact both.2

/-- Perform the operations in order, as long as they are permitted. -/
def replay
    (system : System σ ι)
    [∀ state op, Decidable (system.legal state op)] :
    σ → List ι → Option σ
  | state, [] => some state
  | state, op :: ops =>
      if system.legal state op then
        (system.step state op).bind fun state' => system.replay state' ops
      else
        none

/-- What can be replayed is a run. -/
theorem run_of_replay
    {system : System σ ι}
    [∀ state op, Decidable (system.legal state op)]
    {start source target : σ}
    {done ops : List ι}
    (before : system.Run start done source)
    (replayed : system.replay source ops = some target) :
    system.Run start (done ++ ops) target := by
  induction ops generalizing source done with
  | nil =>
      cases replayed
      simpa using before
  | cons op ops induction =>
      rw [replay] at replayed
      split at replayed
      · rename_i legal
        rcases Option.bind_eq_some_iff.mp replayed with ⟨next, stepped, rest⟩
        have run := induction (before.snoc ⟨legal, stepped⟩) rest
        simpa using run
      · cases replayed

/-- A replay from an initial state ends in a reachable one. -/
theorem reachable_of_replay
    {system : System σ ι}
    [∀ state op, Decidable (system.legal state op)]
    {start target : σ}
    {ops : List ι}
    (initial : system.init start)
    (replayed : system.replay start ops = some target) :
    system.Reachable target :=
  ⟨start, [] ++ ops, initial, run_of_replay (.nil start) replayed⟩

end System

end ForsKernel.Lib.Transition
