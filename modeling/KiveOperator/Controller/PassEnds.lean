import KiveOperator.Controller.PassLog

/-!
# What whole passes have done when they end

A policy pass applies KiveData only for containers of pods that it has listed.  A data pass that is
at its end has judged every KiveData of its list, has patched one of them, or could not get that far
because a call has failed.
-/

namespace Kive

open Interaction

/-! ## The pods of a policy pass -/

/-- The pods that were listed are among the given ones. -/
def ListsAmong (pods : List Pod) (log : List (Sigma Call.Answer)) : Prop :=
  ∀ labels fields ps, (⟨.listPods labels fields, .ok ps⟩ : Sigma Call.Answer) ∈ log → ps ⊆ pods

/-- A KiveData is applied for a container of one of the pods, when no others were listed. -/
def AppliesAmong (pods : List Pod) (log : List (Sigma Call.Answer)) : Call → Prop
  | .applyKiveData site _ =>
    ListsAmong pods log → site.pod ∈ pods ∧ site.container ∈ site.pod.containerStatuses
  | _ => True

section Among

variable (std : Std) (kernelID : String) (pods : List Pod)

/-- Parts that apply for listed pods alone can be put together. -/
lemma composed_among : Composed fun _ q =>
    ∀ log, q.run.Obeys (AppliesAmong pods) (fun _ _ => True) log :=
  ⟨fun _ _ => trivial, fun hp hf log =>
    (hp log).bindE (fun _ _ _ => trivial) fun a l _ => hf a l⟩

/-- For a container of a listed pod. -/
lemma among_containerStep {p : KivePolicy} {t : KiveTrap} {trapID : String} {g : KiveTrapMatch}
    {pod : Pod} (hpod : pod ∈ pods) {c : ContainerStatus} (hc : c ∈ pod.containerStatuses)
    (matched : List String) (log : List (Sigma Call.Answer)) :
    (KivePolicyReconciler.containerStep std kernelID p t trapID g pod c matched).run.Obeys
      (AppliesAmong pods) (fun _ _ => True) log := by
  unfold KivePolicyReconciler.containerStep
  cases regexMatch std g.containerName c.name with
  | error err => trivial
  | ok b =>
    cases b with
    | false => trivial
    | true =>
      dsimp only
      split_ifs
      · trivial
      · trivial
      · apply Prog.Obeys.lift_perform
        · trivial
        · intro answer
          cases answer with
          | error err => trivial
          | ok cd =>
            dsimp only
            split_ifs
            · trivial
            · trivial
            · exact Prog.Obeys.lift_perform (fun _ => ⟨hpod, hc⟩) fun _ => trivial

/-- The loop over the traps of a policy. -/
lemma among_trapLoop (p : KivePolicy) (traps : List KiveTrap) (log : List (Sigma Call.Answer)) :
    (KivePolicyReconciler.trapLoop std kernelID p traps).run.Obeys (AppliesAmong pods)
      (fun _ _ => True) log := by
  refine (composed_among pods).trapLoop (fun _ ps => ps ⊆ pods) (fun g β f herr hok log => ?_)
    (fun t _ g _ ps hps pod hpod c hc => among_containerStep std kernelID pods (hps hpod) hc) log
  apply Prog.Obeys.lift_perform
  · trivial
  · intro answer
    cases answer with
    | error err => exact herr err _
    | ok ps =>
      by_cases hps : ps ⊆ pods
      · exact hok ps hps _
      · -- other pods have been listed, and nothing is said of what is applied from then on
        have hother : ¬ ListsAmong pods (log ++
            [⟨.listPods g.matchLabels (KivePolicyReconciler.matchingFields g), .ok ps⟩]) :=
          fun h => hps (h _ _ ps (List.mem_append_right _ (List.mem_singleton_self _)))
        refine Prog.Obeys.of_keeps (B := fun l => ¬ ListsAmong pods l) ?_ ?_
          (fun _ _ _ => trivial) hother
        · exact fun l op a hl h => hl fun labels fields ps hmem =>
            h labels fields ps (List.mem_append_left _ hmem)
        · intro l op hl
          cases op
          case applyKiveData site d => exact fun h => absurd h hl
          all_goals trivial

/-- What is done about a policy is done for the pods that are listed for its groups. -/
lemma among_policyStep (p : KivePolicy) (log : List (Sigma Call.Answer)) :
    (KivePolicyReconciler.policyStep std kernelID p).run.Obeys (AppliesAmong pods)
      (fun _ _ => True) log := by
  have hpatch : ∀ q, (KivePolicyReconciler.patchFinalizers p q).run.Obeys (AppliesAmong pods)
      (fun _ _ => True) log := by
    intro q
    refine Prog.Obeys.lift_perform trivial fun answer => ?_
    cases answer <;> trivial
  unfold KivePolicyReconciler.policyStep
  split_ifs
  · exact hpatch _
  · trivial
  · exact hpatch _
  · exact among_trapLoop std kernelID pods p p.spec.traps log

/-- A policy pass applies KiveData for containers of the pods that it has listed. -/
theorem obeys_policyPass_among :
    (KivePolicyReconciler.reconcile std kernelID).Obeys (AppliesAmong pods) (fun _ _ => True)
      [] := by
  apply Pass.obeys_toProg
  refine Prog.Obeys.lift_perform trivial fun answer => ?_
  cases answer with
  | error err => trivial
  | ok items =>
    refine ((composed_among pods).policyLoop (fun p _ => among_policyStep std kernelID pods p)
      _).bindE (fun _ _ _ => trivial) fun _ l _ => ?_
    have honly : KivePolicyReconciler.triggerKiveData.run.Only
        (PolicyCall std kernelID fun _ => False) := only_triggerKiveData std kernelID
    refine honly.obeys.mono (fun l op hop => ?_) fun _ _ h => h
    cases op
    case applyKiveData site d => exact absurd hop.1.1 id
    all_goals trivial

end Among

/-! ## The end of a data pass -/

/-- A KiveData has been deleted or its key set. -/
def Judged (log : List (Sigma Call.Answer)) (d : KiveData) : Prop :=
  ∃ e ∈ log, e.1 = .deleteKiveData d ∨ e.1 = .addInode d.mapKey

/-- What has been judged stays so. -/
lemma Judged.mono {l l' : List (Sigma Call.Answer)} {d : KiveData} (h : Judged l d)
    (hl : l ⊆ l') : Judged l' d := by
  obtain ⟨e, he, hop⟩ := h
  exact ⟨e, hl he, hop⟩

/-- A call has failed without which a data pass does not go on. -/
def Broken : Sigma Call.Answer → Prop
  | ⟨.loadEbpf, .error _⟩ => True
  | ⟨.listKiveData _ _, .error _⟩ => True
  | ⟨.listKivePolicies _, .error _⟩ => True
  | _ => False

/-- How a data pass ends. -/
inductive DataPassEnd (kernelID : String) (log : List (Sigma Call.Answer)) : Prop
  | broken (e : Sigma Call.Answer) (he : e ∈ log) (h : Broken e)
  | patched (orig modified : KiveData) (answer : Except String Unit)
    (h : (⟨.patchKiveData orig modified, answer⟩ : Sigma Call.Answer) ∈ log)
  | judged (items : List KiveData)
    (hlist : (⟨.listKiveData .cached (KiveDataReconciler.kiveDataLabels kernelID), .ok items⟩ :
      Sigma Call.Answer) ∈ log)
    (hnone : NoFinalizing log) (h : ∀ d ∈ items, ¬ Deleting d → Judged log d)

/-- The program is loaded before any key is set. -/
def LoadsBeforeKeys (log : List (Sigma Call.Answer)) : Call → Prop
  | .loadEbpf => ∀ mapKey answer, (⟨.addInode mapKey, answer⟩ : Sigma Call.Answer) ∉ log
  | _ => True

section DataEnd

variable (std : Std) (kernelID : String)

/-- Judging a KiveData deletes it or sets its key. -/
lemma judged_judge (policies : List KivePolicy) (d : KiveData) (log : List (Sigma Call.Answer)) :
    (KiveDataReconciler.judge std policies d).Obeys (fun _ _ => True) (fun _ l => Judged l d)
      log := by
  refine ((KiveDataReconciler.only_policyLoop std d policies false).obeys.mono
    (fun _ _ _ => trivial) fun _ _ h => h).bind fun found l _ => ?_
  cases found with
  | false => exact ⟨trivial, fun answer => ⟨_, List.mem_append_right l
      (List.mem_singleton_self _), Or.inl rfl⟩⟩
  | true => exact ⟨trivial, fun answer => ⟨_, List.mem_append_right l
      (List.mem_singleton_self _), Or.inr rfl⟩⟩

/-- A loop that gets to its end has judged all KiveData that are not being deleted. -/
lemma judged_dataLoop (policies : List KivePolicy) (items : List KiveData)
    (log : List (Sigma Call.Answer)) :
    (KiveDataReconciler.dataLoop std policies items).run.Obeys (fun _ _ => True)
      (fun r l => r = .ok () → ∀ d ∈ items, ¬ Deleting d → Judged l d) log := by
  induction items generalizing log with
  | nil => exact fun _ _ h => by cases h
  | cons d items ih =>
    -- a patch ends the loop
    have hstop : ∀ {q : Pass Unit}, q.run.Obeys (fun _ _ => True) (fun r _ => ∀ u, r ≠ .ok u) log →
        (q >>= fun _ => KiveDataReconciler.dataLoop std policies items).run.Obeys
          (fun _ _ => True)
          (fun r l => r = .ok () → ∀ d' ∈ d :: items, ¬ Deleting d' → Judged l d') log :=
      fun hq => hq.bindE (fun _ _ _ h => by cases h) fun u _ h => absurd rfl (h u)
    rw [KiveDataReconciler.dataLoop]
    split_ifs with hdel
    · apply hstop
      refine Prog.Obeys.lift_perform trivial fun _ => ?_
      refine Prog.Obeys.lift_perform trivial fun answer => ?_
      cases answer <;> exact fun _ h => by cases h
    · refine (ih log).mono (fun _ _ h => h) fun r l h hr => ?_
      exact List.forall_mem_cons.mpr ⟨fun hlive => absurd hdel hlive, h hr⟩
    · apply hstop
      refine Prog.Obeys.lift_perform trivial fun answer => ?_
      cases answer <;> exact fun _ h => by cases h
    · have hjudge : (liftM (KiveDataReconciler.judge std policies d) : Pass Unit).run.Obeys
          (fun _ _ => True) (fun _ l => Judged l d) log := (judged_judge std policies d log).lift
      refine hjudge.bindE (fun _ _ _ h => by cases h) fun _ l hd => ?_
      refine (ih l).grows.mono (fun _ _ _ => trivial) fun r l' h hr => ?_
      exact List.forall_mem_cons.mpr ⟨fun _ => hd.mono h.1, h.2 hr⟩

/-- The program is loaded, or cannot be. -/
lemma loads_ensureLoaded :
    KiveDataReconciler.ensureLoaded.run.Obeys LoadsBeforeKeys (fun r l =>
      match r with
      | .ok _ => NoFinalizing l
      | .error _ => ∃ e ∈ l, Broken e) [] := by
  apply Prog.Obeys.lift_perform
  · trivial
  · intro loaded
    split_ifs
    · apply Prog.Obeys.lift_perform
      · intro mapKey answer hmem
        exact Call.noConfusion (Sigma.mk.inj (List.mem_singleton.mp hmem)).1
      · intro answer
        cases answer with
        | error err => exact ⟨_, List.mem_append_right _ (List.mem_singleton_self _), trivial⟩
        | ok u => exact List.forall_mem_cons.mpr ⟨rfl, List.forall_mem_singleton.mpr rfl⟩
    · exact List.forall_mem_singleton.mpr rfl

/-- However it ends, a data pass has loaded the program before it has set a key. -/
theorem obeys_dataPass_end :
    (KiveDataReconciler.reconcile std kernelID).Obeys LoadsBeforeKeys
      (fun _ l => DataPassEnd kernelID l) [] := by
  apply Pass.obeys_toProg
  refine (loads_ensureLoaded).bindE (fun _ _ h => ?_) fun _ l hl => ?_
  · obtain ⟨e, he, hbroken⟩ := h
    exact .broken e he hbroken
  · apply Prog.Obeys.lift_perform
    · trivial
    · intro answer
      cases answer with
      | error err => exact .broken _ (List.mem_append_right _ (List.mem_singleton_self _)) trivial
      | ok items =>
        apply Prog.Obeys.lift_perform
        · trivial
        · intro answer
          cases answer with
          | error err =>
            exact .broken _ (List.mem_append_right _ (List.mem_singleton_self _)) trivial
          | ok policies =>
            dsimp only
            set l' := l ++ [⟨.listKiveData .cached (KiveDataReconciler.kiveDataLabels kernelID),
              .ok items⟩] ++ [⟨.listKivePolicies .cached, .ok policies⟩]
            have hlisted : (⟨.listKiveData .cached (KiveDataReconciler.kiveDataLabels kernelID),
                .ok items⟩ : Sigma Call.Answer) ∈ l' := by simp [l']
            have hnone : NoFinalizing l' := by
              refine noFinalizing_append.mpr ⟨noFinalizing_append.mpr ⟨hl, ?_⟩, ?_⟩ <;>
              · exact List.forall_mem_singleton.mpr rfl
            have hloop := (obeys_dataLoop std policies (fun d hd => hd) l').and
              (judged_dataLoop std policies items l')
            refine (hloop.mono (fun l op hop => ?_) fun _ _ h => h).bindE ?_ ?_
            · cases op
              case loadEbpf => exact absurd hop.1 id
              all_goals trivial
            · rintro o l ⟨⟨l'', rfl, front, orig, modified, answer, rfl, -⟩, -⟩
              exact .patched orig modified answer (by simp)
            · rintro u l ⟨⟨l'', rfl, hnone'⟩, hall⟩
              exact .judged items (List.mem_append_left l'' hlisted)
                (noFinalizing_append.mpr ⟨hnone, hnone'⟩) (hall rfl)

end DataEnd

end Kive
