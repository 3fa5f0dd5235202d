import KiveOperator.Library.Program

/-!
# Two runs that agree

Two programs run from two worlds that are related, each against its own handler.  They agree when
they return the same result, leave related worlds and make the same calls as far as calls are
observed.  `Agree` says this of programs that may stop early: where they stop, they stop both,
with the same exit value, and the worlds may then be related in another way.

The rules follow the program text: `Agree.pure`, `Agree.exit`, `Agree.lift` for calls and
`Agree.bind` for sequences.  Where only one of the two programs goes on, `runE_unobserved` says
what its calls must respect.
-/

namespace Interaction

namespace Prog

variable {Op : Type} {Ans : Op → Type} {α β ε ω W₁ W₂ : Type}

section Agree

variable (h₁ : (op : Op) → W₁ → Ans op × W₁) (h₂ : (op : Op) → W₂ → Ans op × W₂)
  (obs : Sigma Ans → Option ω) (S : W₁ → W₂ → Prop)

/-- Two programs that may stop early agree: from worlds related by `R` they both return the same
value with worlds related by `T`, or both stop with the same exit value and worlds related by `S`,
and what is observed of their calls is the same. -/
def Agree (R T : W₁ → W₂ → Prop) (p₁ p₂ : ExceptT ε (Prog Ans) α) : Prop :=
  ∀ w₁ w₂, R w₁ w₂ →
    (eventsE h₁ p₁ w₁).filterMap obs = (eventsE h₂ p₂ w₂).filterMap obs ∧
    ((∃ a w₁' w₂', runE h₁ p₁ w₁ = (.ok a, w₁') ∧ runE h₂ p₂ w₂ = (.ok a, w₂') ∧ T w₁' w₂') ∨
      ∃ e w₁' w₂', runE h₁ p₁ w₁ = (.error e, w₁') ∧ runE h₂ p₂ w₂ = (.error e, w₂') ∧ S w₁' w₂')

variable {h₁ h₂ obs S} {R T U : W₁ → W₂ → Prop}

/-- Two programs that return the same at once agree. -/
lemma Agree.pure (a : α) :
    Agree h₁ h₂ obs S R R (pure a : ExceptT ε (Prog Ans) α) (pure a : ExceptT ε (Prog Ans) α) :=
  fun w₁ w₂ hR => ⟨rfl, Or.inl ⟨a, w₁, w₂, rfl, rfl, hR⟩⟩

/-- Two programs that end early in the same way agree. -/
lemma Agree.exit (hRS : ∀ w₁ w₂, R w₁ w₂ → S w₁ w₂) (e : ε) :
    Agree h₁ h₂ obs S R T (throw e : ExceptT ε (Prog Ans) α) (throw e : ExceptT ε (Prog Ans) α) :=
  fun w₁ w₂ hR => ⟨rfl, Or.inr ⟨e, w₁, w₂, rfl, rfl, hRS w₁ w₂ hR⟩⟩

/-- Calls of both sides that are answered alike. -/
lemma Agree.lift {p₁ p₂ : Prog Ans α}
    (h : ∀ w₁ w₂, R w₁ w₂ → (run h₁ p₁ w₁).1 = (run h₂ p₂ w₂).1 ∧
      T (run h₁ p₁ w₁).2 (run h₂ p₂ w₂).2 ∧
      (events h₁ p₁ w₁).filterMap obs = (events h₂ p₂ w₂).filterMap obs) :
    Agree h₁ h₂ obs S R T (liftM p₁ : ExceptT ε (Prog Ans) α) (liftM p₂) := by
  intro w₁ w₂ hR
  obtain ⟨hans, hT, hobs⟩ := h w₁ w₂ hR
  refine ⟨by rw [eventsE_lift, eventsE_lift, hobs], Or.inl ⟨(run h₁ p₁ w₁).1, _, _, ?_, ?_, hT⟩⟩
  · rw [runE_lift]
  · rw [runE_lift, hans]

/-- Calls of both sides that may be answered differently, each followed by what is done with the
answer. -/
lemma Agree.lift_bind {γ₁ γ₂ : Type} {p₁ : Prog Ans γ₁} {p₂ : Prog Ans γ₂}
    {f₁ : γ₁ → ExceptT ε (Prog Ans) α} {f₂ : γ₂ → ExceptT ε (Prog Ans) α}
    (h : ∀ w₁ w₂, R w₁ w₂ →
      (events h₁ p₁ w₁).filterMap obs = (events h₂ p₂ w₂).filterMap obs ∧
      T (run h₁ p₁ w₁).2 (run h₂ p₂ w₂).2 ∧
      Agree h₁ h₂ obs S T U (f₁ (run h₁ p₁ w₁).1) (f₂ (run h₂ p₂ w₂).1)) :
    Agree h₁ h₂ obs S R U (liftM p₁ >>= f₁) (liftM p₂ >>= f₂) := by
  intro w₁ w₂ hR
  obtain ⟨hobs, hT, hf⟩ := h w₁ w₂ hR
  obtain ⟨hobs', hcases⟩ := hf _ _ hT
  refine ⟨?_, ?_⟩
  · rw [eventsE_lift_bind, eventsE_lift_bind, List.filterMap_append, List.filterMap_append, hobs,
      hobs']
  · rwa [runE_bind, runE_bind, runE_lift, runE_lift]

/-- One part after the other. -/
lemma Agree.bind {p₁ p₂ : ExceptT ε (Prog Ans) α} {f₁ f₂ : α → ExceptT ε (Prog Ans) β}
    (hp : Agree h₁ h₂ obs S R T p₁ p₂) (hf : ∀ a, Agree h₁ h₂ obs S T U (f₁ a) (f₂ a)) :
    Agree h₁ h₂ obs S R U (p₁ >>= f₁) (p₂ >>= f₂) := by
  intro w₁ w₂ hR
  obtain ⟨hobs, ⟨a, w₁', w₂', hrun₁, hrun₂, hT⟩ | ⟨e, w₁', w₂', hrun₁, hrun₂, hS⟩⟩ := hp w₁ w₂ hR
  · obtain ⟨hobs', hcases⟩ := hf a w₁' w₂' hT
    refine ⟨?_, ?_⟩
    · rw [eventsE_bind_of_ok h₁ hrun₁, eventsE_bind_of_ok h₂ hrun₂, List.filterMap_append,
        List.filterMap_append, hobs, hobs']
    · rwa [runE_bind, runE_bind, hrun₁, hrun₂]
  · refine ⟨?_, Or.inr ⟨e, w₁', w₂', ?_, ?_, hS⟩⟩
    · rw [eventsE_bind_of_error h₁ hrun₁, eventsE_bind_of_error h₂ hrun₂, hobs]
    · rw [runE_bind, hrun₁, continueE_error]
    · rw [runE_bind, hrun₂, continueE_error]

end Agree

/-! ## One run on its own -/

/-- A program none of whose calls is observed, and whose calls all keep `I`. -/
lemma runE_unobserved {W : Type} {h : (op : Op) → W → Ans op × W} {obs : Sigma Ans → Option ω}
    {I : W → Prop} {P : Op → Prop}
    (hcall : ∀ op w, P op → I w → I (h op w).2 ∧ obs ⟨op, (h op w).1⟩ = none)
    {p : ExceptT ε (Prog Ans) α} (hp : Only P p.run) {w : W} (hw : I w) :
    I (runE h p w).2 ∧ (eventsE h p w).filterMap obs = [] := by
  refine Only.run_induction h (Φ := fun es w => I w ∧ es.filterMap obs = [])
    (fun es op w hop hΦ => ?_) hp [] w ⟨hw, rfl⟩
  obtain ⟨hI, hnone⟩ := hcall op w hop hΦ.1
  refine ⟨hI, ?_⟩
  rw [List.filterMap_append, hΦ.2, List.nil_append, List.filterMap_cons_none hnone,
    List.filterMap_nil]

end Prog

end Interaction
