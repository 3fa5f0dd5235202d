import KiveOperator.Controller.Stamped

/-!
# What one action changes

An action makes at most one call, and only of the run that it is for.  The lemmas say what each part
of the system is after an action, so that an invariant about that part needs no look at the others.
-/

namespace Kive

open Interaction

namespace System

variable {std : Std} {podFields : PodFields} {kernelOf : String → String} {s : System} {a : Action}

variable (std podFields kernelOf s a) in
/-- After an action a run is what it was, has just started, or has made its next call. -/
lemma passes_act (r : Runner) :
    (act std podFields kernelOf s a).passes r = s.passes r ∨
    (a = .start r ∧ (s.passes r).Finished ∧
      (act std podFields kernelOf s a).passes r =
        .start (r.2.reconcile std (kernelOf r.1))) ∨
    ∃ fault op k, a = .call r fault ∧ (s.passes r).prog = .call op k ∧
      let answer := (runnerHandle std podFields kernelOf r fault op s.world).1
      (act std podFields kernelOf s a).passes r =
        ⟨(s.passes r).log ++ [⟨op, answer⟩], k answer⟩ := by
  cases a with
  | start r' =>
    rw [act]
    split_ifs with hfin
    · rcases eq_or_ne r r' with rfl | hne
      · exact Or.inr (Or.inl ⟨rfl, hfin, setPass_passes_self ..⟩)
      · exact Or.inl (setPass_passes_of_ne s hne _)
    · exact Or.inl rfl
  | call r' fault =>
    cases hprog : (s.passes r').prog with
    | ret o =>
      rw [act_call_of_ret hprog]
      exact Or.inl rfl
    | call op k =>
      rw [act_call hprog]
      rcases eq_or_ne r r' with rfl | hne
      · exact Or.inr (Or.inr ⟨fault, op, k, rfl, hprog, setPass_passes_self ..⟩)
      · exact Or.inl (setPass_passes_of_ne s hne _)
  | seeKiveData kernelID n =>
    rw [act]
    split_ifs
    · cases s.kiveDataPast[n]? <;> exact Or.inl rfl
    · exact Or.inl rfl
  | seeKivePolicies kernelID n =>
    rw [act]
    split_ifs
    · cases s.kivePoliciesPast[n]? <;> exact Or.inl rfl
    · exact Or.inl rfl
  | _ => exact Or.inl rfl

/-- What holds of each call that a run has made holds after an action if it holds of the next
one. -/
lemma forall_log_act {r : Runner} {P : Sigma Call.Answer → Prop}
    (h : ∀ e ∈ (s.passes r).log, P e)
    (hcall : ∀ fault op k, a = .call r fault → (s.passes r).prog = .call op k →
      P ⟨op, (runnerHandle std podFields kernelOf r fault op s.world).1⟩) :
    ∀ e ∈ ((act std podFields kernelOf s a).passes r).log, P e := by
  rcases passes_act std podFields kernelOf s a r with
    hsame | ⟨-, -, hstart⟩ | ⟨fault, op, k, ha, hprog, hnext⟩
  · rw [hsame]
    exact h
  · rw [hstart]
    exact fun e he => by cases he
  · rw [hnext]
    intro e he
    rcases List.mem_append.mp he with he | he
    · exact h e he
    · obtain rfl := List.mem_singleton.mp he
      exact hcall fault op k ha hprog

variable (std podFields kernelOf s a) in
/-- The map of a kernel after an action: it was, or a call of a run on the kernel has changed it. -/
lemma tracedInodes_act (kernelID : String) :
    ((act std podFields kernelOf s a).world.kernels kernelID).tracedInodes =
        (s.world.kernels kernelID).tracedInodes ∨
    ∃ r fault op k, a = .call r fault ∧ (s.passes r).prog = .call op k ∧
      kernelOf r.1 = kernelID ∧
      (act std podFields kernelOf s a).world.kernels kernelID =
        kernelAfter op (s.world.kernels kernelID) := by
  have hsee : ∀ (kernelID' : String) (kernel : Kernel),
      kernel.tracedInodes = (s.world.kernels kernelID').tracedInodes →
      ((s.world.setKernel kernelID' kernel).kernels kernelID).tracedInodes =
        (s.world.kernels kernelID).tracedInodes := by
    intro kernelID' kernel hkernel
    rcases eq_or_ne kernelID kernelID' with rfl | hne
    · rw [World.setKernel_kernels_self, hkernel]
    · exact congrArg Kernel.tracedInodes (Function.update_of_ne hne ..)
  cases a with
  | start r =>
    left
    rw [act]
    split_ifs <;> rfl
  | call r fault =>
    cases hprog : (s.passes r).prog with
    | ret o =>
      rw [act_call_of_ret hprog]
      exact Or.inl rfl
    | call op k =>
      rw [act_call hprog]
      rcases eq_or_ne kernelID (kernelOf r.1) with rfl | hne
      · refine Or.inr ⟨r, fault, op, k, rfl, hprog, rfl, ?_⟩
        exact kernels_handleFault std podFields r.1 (kernelOf r.1) fault op s.world
      · refine Or.inl (congrArg Kernel.tracedInodes ?_)
        exact kernels_handleFault_of_ne std podFields r.1 (kernelOf r.1) fault op s.world hne
  | seeKiveData kernelID' n =>
    left
    rw [act]
    split_ifs
    · cases s.kiveDataPast[n]? with
      | none => rfl
      | some items => exact hsee kernelID' _ rfl
    · rfl
  | seeKivePolicies kernelID' n =>
    left
    rw [act]
    split_ifs
    · cases s.kivePoliciesPast[n]? with
      | none => rfl
      | some items => exact hsee kernelID' _ rfl
    · rfl
  | _ => exact Or.inl rfl

/-- A condition on all actions holds of the first ones and of those after them. -/
lemma along_append {P : System → Action → Prop} {front rest : List Action} :
    Along std podFields kernelOf P (front ++ rest) s ↔
      Along std podFields kernelOf P front s ∧
        Along std podFields kernelOf P rest (run std podFields kernelOf front s) := by
  induction front generalizing s with
  | nil => exact (and_iff_right trivial).symm
  | cons b front ih => exact (and_congr_right fun _ => ih).trans and_assoc.symm

/-- Two conditions on all actions. -/
lemma Along.and {P R : System → Action → Prop} {actions : List Action}
    (hP : Along std podFields kernelOf P actions s)
    (hR : Along std podFields kernelOf R actions s) :
    Along std podFields kernelOf (fun s a => P s a ∧ R s a) actions s := by
  induction actions generalizing s with
  | nil => trivial
  | cons b actions ih => exact ⟨⟨hP.1, hR.1⟩, ih hP.2 hR.2⟩

end System

end Kive
