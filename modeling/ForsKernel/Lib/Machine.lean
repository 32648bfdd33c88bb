import Mathlib.Data.List.Basic

/-!
# Machines which answer their operations

A machine is a deterministic system which accepts every operation, answers it,
and goes on in a new state.  Two machines with the same operations cannot be
told apart by their answers if a relation between their states is kept by
every operation.  A specification leaves the answer and the new state open; a
machine implements it if what it does is always allowed.
-/

namespace ForsKernel.Lib

/-- States `σ`, operations `ι` and answers `ο`. -/
structure Machine (σ ι ο : Type*) where
  step : σ → ι → ο × σ

variable {σ τ ι ο : Type*}

namespace Machine

/-- The answers to a sequence of operations, in order. -/
def answers (machine : Machine σ ι ο) : σ → List ι → List ο
  | _, [] => []
  | state, op :: ops =>
      (machine.step state op).1 :: machine.answers (machine.step state op).2 ops

/-- The state after a sequence of operations. -/
def final (machine : Machine σ ι ο) : σ → List ι → σ
  | state, [] => state
  | state, op :: ops => machine.final (machine.step state op).2 ops

theorem final_append
    (machine : Machine σ ι ο)
    (state : σ)
    (ops more : List ι) :
    machine.final state (ops ++ more) =
      machine.final (machine.final state ops) more := by
  induction ops generalizing state with
  | nil => rfl
  | cons op ops induction => exact induction (machine.step state op).2

theorem final_concat
    (machine : Machine σ ι ο)
    (state : σ)
    (ops : List ι)
    (op : ι) :
    machine.final state (ops ++ [op]) =
      (machine.step (machine.final state ops) op).2 :=
  machine.final_append state ops [op]

/-- What every operation keeps holds after any sequence of them. -/
theorem final_invariant
    {machine : Machine σ ι ο}
    {inv : σ → Prop}
    {state : σ}
    (initially : inv state)
    (kept : ∀ state op, inv state → inv (machine.step state op).2)
    (ops : List ι) :
    inv (machine.final state ops) := by
  induction ops generalizing state with
  | nil => exact initially
  | cons op ops induction => exact induction (kept state op initially)

/-- Operations give the same answers in related states and keep them so. -/
def Simulation
    (concrete : Machine σ ι ο)
    (abstract : Machine τ ι ο)
    (related : σ → τ → Prop) :
    Prop :=
  ∀ state model op, related state model →
    (concrete.step state op).1 = (abstract.step model op).1 ∧
      related (concrete.step state op).2 (abstract.step model op).2

namespace Simulation

variable
  {concrete : Machine σ ι ο}
  {abstract : Machine τ ι ο}
  {related : σ → τ → Prop}
  {state : σ}
  {model : τ}

theorem answers_eq
    (simulation : concrete.Simulation abstract related)
    (start : related state model)
    (ops : List ι) :
    concrete.answers state ops = abstract.answers model ops := by
  induction ops generalizing state model with
  | nil => rfl
  | cons op ops induction =>
      rcases simulation state model op start with ⟨same, next⟩
      rw [answers, answers, same, induction next]

theorem final_related
    (simulation : concrete.Simulation abstract related)
    (start : related state model)
    (ops : List ι) :
    related (concrete.final state ops) (abstract.final model ops) := by
  induction ops generalizing state model with
  | nil => exact start
  | cons op ops induction =>
      exact induction (simulation state model op start).2

end Simulation

end Machine

/-! ## Specifications -/

/-- Which answers an operation may get, and which state may follow. -/
abbrev Spec (τ ι ο : Type*) : Type _ :=
  τ → ι → ο → τ → Prop

/-- A sequence of operations with answers which are allowed. -/
inductive Spec.Run (spec : Spec τ ι ο) : τ → List ι → List ο → τ → Prop where
  | nil (model : τ) : Run spec model [] [] model
  | cons {model model' model'' : τ} {op : ι} {answer : ο} {ops : List ι}
      {answers : List ο} :
      spec model op answer model' →
      Run spec model' ops answers model'' →
      Run spec model (op :: ops) (answer :: answers) model''

namespace Machine

/--
As long as a condition holds, which every operation keeps, the machine does
what is allowed to the model of its state.
-/
structure Implements
    (machine : Machine σ ι ο)
    (spec : Spec τ ι ο)
    (model : σ → τ)
    (condition : σ → Prop) :
    Prop where
  allowed : ∀ state op, condition state →
    spec (model state) op (machine.step state op).1
      (model (machine.step state op).2)
  kept : ∀ state op, condition state → condition (machine.step state op).2

/-- Then so it is with sequences of operations. -/
theorem Implements.run
    {machine : Machine σ ι ο}
    {spec : Spec τ ι ο}
    {model : σ → τ}
    {condition : σ → Prop}
    (implements : machine.Implements spec model condition)
    {state : σ}
    (initially : condition state)
    (ops : List ι) :
    spec.Run (model state) ops (machine.answers state ops)
        (model (machine.final state ops)) ∧
      condition (machine.final state ops) := by
  induction ops generalizing state with
  | nil => exact ⟨.nil _, initially⟩
  | cons op ops induction =>
      rcases induction (implements.kept state op initially) with
        ⟨rest, finally_⟩
      exact ⟨.cons (implements.allowed state op initially) rest, finally_⟩

end Machine

end ForsKernel.Lib
