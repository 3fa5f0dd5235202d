import Mathlib.Logic.Function.Iterate
import Mathlib.Order.RelClasses
import Mathlib.Tactic.Choose

/-!
# Coming to rest

A system takes one step after the other as long as it can, and which of the possible steps it takes
is not known.  It comes to rest if every run leads to a state in which no step is possible.  That is
so where each step lowers a measure, and not so where some step is possible that leads back to what
was assumed.
-/

namespace Rest

variable {σ : Type*} (Step : σ → σ → Prop)

/-- No step is possible. -/
def AtRest (s : σ) : Prop := ∀ s', ¬ Step s s'

/-- One state after the other.  A state at rest stays. -/
def IsRun (f : ℕ → σ) : Prop :=
  ∀ n, Step (f n) (f (n + 1)) ∨ (AtRest Step (f n) ∧ f (n + 1) = f n)

/-- Every run leads to a state at rest. -/
def ComesToRest (s : σ) : Prop :=
  ∀ f, f 0 = s → IsRun Step f → ∃ n, AtRest Step (f n)

variable {Step}

/-- It is enough that the system comes to rest after the first step. -/
theorem comesToRest_of_step {s : σ} (h : ∀ s', Step s s' → ComesToRest Step s') :
    ComesToRest Step s := by
  rintro f rfl hf
  rcases hf 0 with hstep | ⟨hrest, -⟩
  · obtain ⟨n, hn⟩ := h (f 1) hstep (fun n => f (n + 1)) rfl fun n => hf (n + 1)
    exact ⟨n + 1, hn⟩
  · exact ⟨0, hrest⟩

/-- A system comes to rest if an invariant is kept and each step lowers a measure. -/
theorem comesToRest_of_measure {β : Type*} [Preorder β] [WellFoundedLT β] {I : σ → Prop} (μ : σ → β)
    (hstep : ∀ s s', I s → Step s s' → I s' ∧ μ s' < μ s) {s : σ} (hs : I s) :
    ComesToRest Step s := by
  induction h : μ s using WellFoundedLT.induction generalizing s with
  | ind m ih =>
    refine comesToRest_of_step fun s' hs' => ?_
    obtain ⟨hI, hlt⟩ := hstep s s' hs hs'
    exact ih (μ s') (h ▸ hlt) hI rfl

/-- A system does not come to rest if there is always a step that keeps an invariant. -/
theorem not_comesToRest_of_invariant {I : σ → Prop} (hI : ∀ s, I s → ∃ s', Step s s' ∧ I s') {s : σ}
    (hs : I s) : ¬ ComesToRest Step s := by
  have : Nonempty σ := ⟨s⟩
  choose! next hstep hnext using hI
  have hall : ∀ n, I (next^[n] s) := by
    intro n
    induction n with
    | zero => exact hs
    | succ n ih =>
      rw [Function.iterate_succ_apply']
      exact hnext _ ih
  intro h
  obtain ⟨n, hn⟩ := h (fun n => next^[n] s) rfl fun n => by
    left
    simp only [Function.iterate_succ_apply']
    exact hstep _ (hall n)
  exact hn _ (hstep _ (hall n))

end Rest
