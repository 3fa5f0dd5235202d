import Mathlib.Data.List.Basic

/-!
# Conditions along a run

A state changes with one input after the other.  `Along` says that each input meets a condition in
the state that it comes upon.  Where an invariant makes two conditions equivalent, and the second
one keeps the invariant, they hold along the same runs: `along_iff_of_invariant`.
-/

namespace Runs

variable {σ α : Type*} (step : σ → α → σ)

/-- The state after all inputs. -/
def run (inputs : List α) (s : σ) : σ :=
  inputs.foldl step s

/-- Each input meets a condition in the state that it comes upon. -/
def Along (P : σ → α → Prop) : List α → σ → Prop
  | [], _ => True
  | a :: inputs, s => P s a ∧ Along P inputs (step s a)

instance decidableAlong {P : σ → α → Prop} [∀ s a, Decidable (P s a)] :
    ∀ (inputs : List α) (s : σ), Decidable (Along step P inputs s)
  | [], _ => isTrue trivial
  | a :: inputs, s =>
    have : Decidable (Along step P inputs (step s a)) := decidableAlong inputs (step s a)
    inferInstanceAs (Decidable (_ ∧ _))

variable {step} {P C : σ → α → Prop} {I : σ → Prop}

/-- What is kept by each input that meets a condition holds after the run. -/
theorem invariant_run (hkeep : ∀ s a, I s → C s a → I (step s a)) {inputs : List α} {s : σ}
    (hC : Along step C inputs s) (hs : I s) : I (run step inputs s) := by
  induction inputs generalizing s with
  | nil => exact hs
  | cons a inputs ih => exact ih hC.2 (hkeep s a hs hC.1)

/-- A condition on the inputs alone. -/
lemma along_of_forall {inputs : List α} (h : ∀ a ∈ inputs, ∀ s, P s a) (s : σ) :
    Along step P inputs s := by
  induction inputs generalizing s with
  | nil => trivial
  | cons a inputs ih =>
    exact ⟨h a List.mem_cons_self s, ih (fun b hb => h b (List.mem_cons_of_mem a hb)) (step s a)⟩

/-- Two conditions that hold along a run. -/
lemma Along.and {Q : σ → α → Prop} {inputs : List α} {s : σ} (hP : Along step P inputs s)
    (hQ : Along step Q inputs s) : Along step (fun s a => P s a ∧ Q s a) inputs s := by
  induction inputs generalizing s with
  | nil => trivial
  | cons a inputs ih => exact ⟨⟨hP.1, hQ.1⟩, ih hP.2 hQ.2⟩

/-- Conditions that an invariant makes equivalent hold along the same runs. -/
theorem along_iff_of_invariant (hkeep : ∀ s a, I s → C s a → I (step s a))
    (hiff : ∀ s a, I s → (P s a ↔ C s a)) {inputs : List α} {s : σ} (hs : I s) :
    Along step P inputs s ↔ Along step C inputs s := by
  induction inputs generalizing s with
  | nil => exact Iff.rfl
  | cons a inputs ih =>
    constructor
    · rintro ⟨hP, hrest⟩
      have hC := (hiff s a hs).mp hP
      exact ⟨hC, (ih (hkeep s a hs hC)).mp hrest⟩
    · rintro ⟨hC, hrest⟩
      exact ⟨(hiff s a hs).mpr hC, (ih (hkeep s a hs hC)).mpr hrest⟩

end Runs
