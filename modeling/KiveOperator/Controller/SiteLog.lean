import KiveOperator.Controller.PassLog
import KiveOperator.Controller.Repeats

/-!
# For which containers a policy pass applies KiveData

A policy pass applies KiveData only for a container that a match group of the trap selects, in one
of the pods that were listed for that group.  `obeys_policyPass_selected` says so of every pass,
whatever the API server answers.
-/

namespace Kive

open Interaction KivePolicyReconciler

/-! ## Selected sites -/

/-- A match group of the trap selects the container, in a running pod that was listed for the
group. -/
def Site.SelectedAs (std : Std) (Listed : KiveTrapMatch → List Pod → Prop) (site : Site) : Prop :=
  ∃ g ∈ site.trap.matchAny, ∃ ps, Listed g ps ∧ site.pod ∈ ps ∧ site.pod.phase = .running ∧
    site.container ∈ site.pod.containerStatuses ∧
    regexMatch std g.containerName site.container.name = .ok true

/-- The requests for match groups were answered as `Listed` says. -/
def ListsAs (Listed : KiveTrapMatch → List Pod → Prop) (log : List (Sigma Call.Answer)) : Prop :=
  ∀ g ps, (⟨.listPods g.matchLabels (matchingFields g), .ok ps⟩ : Sigma Call.Answer) ∈ log →
    Listed g ps

/-- A KiveData is applied for a selected site, when all requests were answered so. -/
def AppliesSelected (std : Std) (Listed : KiveTrapMatch → List Pod → Prop)
    (log : List (Sigma Call.Answer)) : Call → Prop
  | .applyKiveData site _ => ListsAs Listed log → site.SelectedAs std Listed
  | _ => True

/-- A selected site stays so when more answers count. -/
lemma Site.SelectedAs.mono {std : Std} {Listed Listed' : KiveTrapMatch → List Pod → Prop}
    {site : Site} (h : site.SelectedAs std Listed) (hl : ∀ g ps, Listed g ps → Listed' g ps) :
    site.SelectedAs std Listed' := by
  obtain ⟨g, hg, ps, hps, hrest⟩ := h
  exact ⟨g, hg, ps, hl g ps hps, hrest⟩

/-! ## The calls of a pass -/

section Selected

variable (std : Std) (kernelID : String) (Listed : KiveTrapMatch → List Pod → Prop)

/-- Parts that apply for selected sites alone can be put together. -/
lemma composed_selected : Composed fun _ q =>
    ∀ log, q.run.Obeys (AppliesSelected std Listed) (fun _ _ => True) log :=
  ⟨fun _ _ => trivial, fun hp hf log =>
    (hp log).bindE (fun _ _ _ => trivial) fun a l _ => hf a l⟩

/-- For a container of a pod that was listed for the group. -/
lemma selected_containerStep (p : KivePolicy) {t : KiveTrap} (trapID : String) {g : KiveTrapMatch}
    (hg : g ∈ t.matchAny) {ps : List Pod} (hps : Listed g ps) {pod : Pod} (hpod : pod ∈ ps)
    {c : ContainerStatus} (hc : c ∈ pod.containerStatuses) (matched : List String)
    (log : List (Sigma Call.Answer)) :
    (containerStep std kernelID p t trapID g pod c matched).run.Obeys (AppliesSelected std Listed)
      (fun _ _ => True) log := by
  unfold containerStep
  cases hname : regexMatch std g.containerName c.name with
  | error err => trivial
  | ok b =>
    cases b with
    | false => trivial
    | true =>
      dsimp only
      split_ifs with hphase hmem
      · trivial
      · trivial
      · have hrunning : pod.phase = .running := by simpa using hphase
        have hsite : Site.SelectedAs std Listed ⟨p, t, pod, c⟩ :=
          ⟨g, hg, ps, hps, hpod, hrunning, hc, hname⟩
        apply Prog.Obeys.lift_perform
        · trivial
        · intro answer
          cases answer with
          | error err => trivial
          | ok cd =>
            dsimp only
            split_ifs
            · trivial
            · trivial
            · exact Prog.Obeys.lift_perform (fun _ => hsite) fun _ => trivial

/-- The loop over the traps of a policy. -/
lemma selected_trapLoop (p : KivePolicy) (traps : List KiveTrap) (log : List (Sigma Call.Answer)) :
    (trapLoop std kernelID p traps).run.Obeys (AppliesSelected std Listed) (fun _ _ => True)
      log := by
  refine (composed_selected std Listed).trapLoop Listed (fun g β f herr hok log => ?_)
    (fun t _ g hg _ hps pod hpod c hc =>
      selected_containerStep std kernelID Listed p _ hg hps hpod hc) log
  apply Prog.Obeys.lift_perform
  · trivial
  · intro answer
    cases answer with
    | error err => exact herr err _
    | ok ps =>
      by_cases hps : Listed g ps
      · exact hok ps hps _
      · -- the request was answered otherwise, and nothing is said of what is applied from then on
        have hother : ¬ ListsAs Listed
            (log ++ [⟨.listPods g.matchLabels (matchingFields g), .ok ps⟩]) :=
          fun h => hps (h g ps (List.mem_append_right _ (List.mem_singleton_self _)))
        refine Prog.Obeys.of_keeps (B := fun l => ¬ ListsAs Listed l) ?_ ?_ (fun _ _ _ => trivial)
          hother
        · exact fun l op a hl h => hl fun g' ps' hmem => h g' ps' (List.mem_append_left _ hmem)
        · intro l op hl
          cases op
          case applyKiveData site d => exact fun h => absurd h hl
          all_goals trivial

/-- What is done about a policy applies for sites that its groups select. -/
lemma selected_policyStep (p : KivePolicy) (log : List (Sigma Call.Answer)) :
    (policyStep std kernelID p).run.Obeys (AppliesSelected std Listed) (fun _ _ => True) log := by
  have hpatch : ∀ q, (patchFinalizers p q).run.Obeys (AppliesSelected std Listed)
      (fun _ _ => True) log := by
    intro q
    refine Prog.Obeys.lift_perform trivial fun answer => ?_
    cases answer <;> trivial
  unfold policyStep
  split_ifs
  · exact hpatch _
  · trivial
  · exact hpatch _
  · exact selected_trapLoop std kernelID Listed p p.spec.traps log

/-- A policy pass applies KiveData for containers that it was told of and that a match group of the
trap selects. -/
theorem obeys_policyPass_selected :
    (KivePolicyReconciler.reconcile std kernelID).Obeys (AppliesSelected std Listed)
      (fun _ _ => True) [] := by
  apply Pass.obeys_toProg
  refine Prog.Obeys.lift_perform trivial fun answer => ?_
  cases answer with
  | error err => trivial
  | ok items =>
    refine ((composed_selected std Listed).policyLoop
      (fun p _ => selected_policyStep std kernelID Listed p) _).bindE (fun _ _ _ => trivial)
        fun _ l _ => ?_
    have honly : triggerKiveData.run.Only (PolicyCall std kernelID fun _ => False) :=
      only_triggerKiveData std kernelID
    refine honly.obeys.mono (fun l op hop => ?_) fun _ _ h => h
    cases op
    case applyKiveData site d => exact absurd hop.1.1 id
    all_goals trivial

end Selected

/-! ## What a match group selects -/

/-- Where the field labels that the API server takes are taken as what they are called, the pods
that are listed for a match group are pods for which its fields hold. -/
lemma podMatches_of_listedFor {podFields : PodFields} (hf : podFields.Standard)
    (hip : ∀ f, podFields "metadata.podIP" = some f → f = Pod.podIP) {pods ps : List Pod}
    {g : KiveTrapMatch} (h : ListedFor podFields pods g ps) {pod : Pod} (hpod : pod ∈ ps) :
    pod ∈ pods ∧ PodMatches g pod := by
  rcases listPods_matchingFields_cases hf hip g with hok | ⟨err, herr⟩
  · obtain rfl := Except.ok.inj ((hok pods).symm.trans h)
    exact mem_podsOf.mp hpod
  · cases (herr pods).symm.trans h

end Kive
