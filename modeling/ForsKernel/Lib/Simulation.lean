import ForsKernel.Lib.Transition

/-!
# Simulations between systems

A system simulates another one through a view, which says for every operation
what it amounts to in the other system: some operations there, or none.  What
the other system can never do is then ruled out for the first one as well.
-/

namespace ForsKernel.Lib.Transition.System

variable {σ τ ι κ : Type*}

/-- Runs can be put together. -/
theorem Run.append
    {system : System σ ι}
    {source middle target : σ}
    {ops more : List ι}
    (first : system.Run source ops middle)
    (second : system.Run middle more target) :
    system.Run source (ops ++ more) target := by
  induction second with
  | nil =>
      rw [List.append_nil]
      exact first
  | snoc _ last induction =>
      rw [← List.append_assoc]
      exact induction.snoc last

theorem Run.single
    {system : System σ ι}
    {source target : σ}
    {op : ι}
    (step : system.Step source op target) :
    system.Run source [op] target :=
  (Run.nil source).snoc step

/-- A run whose operations all meet a condition. -/
theorem Run.restrict_of
    {system : System σ ι}
    {condition : σ → ι → Prop}
    {source target : σ}
    {ops : List ι}
    (run : system.Run source ops target)
    (all : ∀ op ∈ ops, ∀ state, condition state op) :
    (system.restrict condition).Run source ops target := by
  induction run with
  | nil => exact .nil _
  | @snoc middle target ops op before last induction =>
      refine (induction fun op' member => ?_).snoc
        (last.restrict (all op (by simp) middle))
      exact all op' (List.mem_append_left _ member)

/--
Each step out of a reachable state is seen by the other system as the
operations in its view, and related states stay related.
-/
structure Simulates
    (system : System σ ι)
    (other : System τ κ)
    (view : σ → ι → List κ)
    (related : σ → τ → Prop) :
    Prop where
  init : ∀ start, system.init start →
    ∃ model, other.init model ∧ related start model
  step : ∀ {source op target model}, system.Reachable source →
    related source model → system.Step source op target →
      ∃ model', other.Run model (view source op) model' ∧
        related target model'

/-- What the operations amount to, one after the other. -/
def viewed
    (system : System σ ι)
    (view : σ → ι → List κ) :
    σ → List ι → List κ
  | _, [] => []
  | state, op :: ops =>
      view state op ++
        (system.step state op).elim [] fun next => system.viewed view next ops

theorem viewed_append
    {system : System σ ι}
    (view : σ → ι → List κ)
    {source middle : σ}
    {ops : List ι}
    (run : system.Run source ops middle)
    (more : List ι) :
    system.viewed view source (ops ++ more) =
      system.viewed view source ops ++ system.viewed view middle more := by
  induction run generalizing more with
  | nil => rfl
  | @snoc middle target ops op _ last induction =>
      have one (rest : List ι) : system.viewed view middle (op :: rest) =
          view middle op ++ system.viewed view target rest := by
        rw [viewed, last.2]
        rfl
      rw [List.append_assoc, induction, induction, List.singleton_append,
        one, one, List.append_assoc]
      simp [viewed]

namespace Simulates

variable
  {system : System σ ι}
  {other : System τ κ}
  {view : σ → ι → List κ}
  {related : σ → τ → Prop}

/-- A whole run is a run of the other system. -/
theorem run
    (simulates : system.Simulates other view related)
    {source target : σ}
    {ops : List ι}
    {model : τ}
    (reachable : system.Reachable source)
    (start : related source model)
    (run : system.Run source ops target) :
    ∃ model', other.Run model (system.viewed view source ops) model' ∧
      related target model' := by
  have result : system.Reachable target ∧ ∃ model',
      other.Run model (system.viewed view source ops) model' ∧
        related target model' := by
    induction run with
    | nil => exact ⟨reachable, model, .nil model, start⟩
    | @snoc middle target ops op before last induction =>
        rcases induction with ⟨here, model₁, run₁, related₁⟩
        rcases simulates.step here related₁ last with
          ⟨model₂, run₂, related₂⟩
        refine ⟨here.next last, model₂, ?_, related₂⟩
        rw [viewed_append view before]
        refine run₁.append ?_
        rw [viewed, last.2]
        simpa [viewed] using run₂
  exact result.2

/-- A reachable state stands for a reachable state of the other system. -/
theorem reachable
    (simulates : system.Simulates other view related)
    {state : σ}
    (reachable : system.Reachable state) :
    ∃ model, other.Reachable model ∧ related state model := by
  rcases reachable with ⟨start, ops, initial, run⟩
  rcases simulates.init start initial with ⟨model, init, begins⟩
  rcases simulates.run (.start initial) begins run with
    ⟨model', run', ends⟩
  exact ⟨model', ⟨model, _, init, run'⟩, ends⟩

end Simulates

end ForsKernel.Lib.Transition.System
