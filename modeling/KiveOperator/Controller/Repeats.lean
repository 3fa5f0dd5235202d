import KiveOperator.Cluster.Applies
import KiveOperator.Container.SearchAgain
import KiveOperator.Controller.AskedSites

/-!
# What a part of a policy pass does each time

With the pods as they are, all selected containers ready and no file left to create, the traps of a
policy lead to the same applies in every pass.  `repeats_trapLoop` says so, whatever KiveData there
are and whatever files have been emptied in between.
-/

namespace Kive

open Interaction KivePolicyReconciler

/-- The pods that are listed for a match group. -/
def ListedFor (podFields : PodFields) (pods : List Pod) (g : KiveTrapMatch)
    (ps : List Pod) : Prop :=
  listPods podFields g.matchLabels (matchingFields g) pods = .ok ps

section Repeats

variable (std : Std) (podFields : PodFields) (node kernelID : String) (pods : List Pod) (h : Host)

/-- A container that a trap selects is ready, its pod is running, and its file is not left to be
created. -/
def TrapReady (t : KiveTrap) : Prop :=
  ∀ g ∈ t.matchAny, ∀ ps, ListedFor podFields pods g ps → ∀ pod ∈ ps, ∀ c ∈ pod.containerStatuses,
    regexMatch std g.containerName c.name = .ok true →
      pod.phase = .running ∧ c.ready = true ∧ h.NoneToCreate c t

/-- The world has these pods and, up to connection and contents, this host. -/
structure Looks (w : World) : Prop where
  pods : w.cluster.pods = pods
  host : h.Like (w.hosts node)

/-- In a world that looks so a part of a pass returns `a` and applies `l`, and changes nothing
else. -/
def Performs {α : Type} (p : Pass α) (a : α) (l : List KiveData) : Prop :=
  ∀ w, Looks node pods h w → ∃ w',
    Prog.runE (handle std podFields node kernelID) p w = (.ok a, w') ∧
    Looks node pods h w' ∧ w'.cluster.kivePolicies = w.cluster.kivePolicies ∧
    w'.cluster.kiveData = applyAll w.cluster.kiveData l

/-- What the part returns and applies is always the same. -/
def Repeats (α : Type) (p : Pass α) : Prop :=
  ∃ a l, Performs std podFields node kernelID pods h p a l ∧
    ∀ d ∈ l, ∃ x, d = kiveDataFor std kernelID x

variable {std podFields node kernelID pods h}

/-- One part after another applies what both apply. -/
lemma Performs.bind {α β : Type} {p : Pass α} {f : α → Pass β} {a : α} {b : β}
    {l l' : List KiveData} (hp : Performs std podFields node kernelID pods h p a l)
    (hf : Performs std podFields node kernelID pods h (f a) b l') :
    Performs std podFields node kernelID pods h (p >>= f) b (l ++ l') := by
  intro w hw
  obtain ⟨w₁, hrun₁, hlooks₁, hpolicies₁, hdata₁⟩ := hp w hw
  obtain ⟨w₂, hrun₂, hlooks₂, hpolicies₂, hdata₂⟩ := hf w₁ hlooks₁
  refine ⟨w₂, ?_, hlooks₂, hpolicies₂.trans hpolicies₁, ?_⟩
  · rw [Prog.runE_bind, hrun₁, Prog.continueE_ok, hrun₂]
  · rw [hdata₂, hdata₁, applyAll_append]

variable (std podFields node kernelID pods h) in
/-- Parts that repeat can be put together. -/
lemma composed_repeats : Composed (Repeats std podFields node kernelID pods h) where
  pure a := ⟨a, [], fun w hw => ⟨w, rfl, hw, rfl, rfl⟩, by simp⟩
  bind := by
    rintro α β p f ⟨a, l, hp, hl⟩ hf
    obtain ⟨b, l', hf', hl'⟩ := hf a
    refine ⟨b, l ++ l', hp.bind hf', fun d hd => ?_⟩
    exact (List.mem_append.mp hd).elim (hl d) (hl' d)

/-- A call that changes at most the host, and whose answer is the same each time. -/
lemma repeats_call {β : Type} {op : Call} {a : op.Answer} {f : op.Answer → Pass β}
    (hanswer : ∀ w, Looks node pods h w →
      ∃ h', handle std podFields node kernelID op w = (a, w.setHost node h') ∧ h.Like h')
    (hf : Repeats std podFields node kernelID pods h β (f a)) :
    Repeats std podFields node kernelID pods h β
      (liftM (Prog.perform op : CallProg op.Answer) >>= f) := by
  obtain ⟨b, l, hp, hl⟩ := hf
  refine ⟨b, l, fun w hw => ?_, hl⟩
  obtain ⟨h', hcall, hlike⟩ := hanswer w hw
  obtain ⟨w', hrun, hlooks, hpolicies, hdata⟩ := hp (w.setHost node h')
    ⟨hw.pods, by rw [World.setHost_hosts_self]; exact hlike⟩
  refine ⟨w', ?_, hlooks, hpolicies, hdata⟩
  rw [Prog.runE_bind, Prog.runE_lift, Prog.run_perform, hcall, Prog.continueE_ok, hrun]

/-- A list request is answered the same way again, so what follows it decides. -/
lemma repeats_listPods (g : KiveTrapMatch) {β : Type} (f : Except String (List Pod) → Pass β)
    (herr : ∀ err, Repeats std podFields node kernelID pods h β (f (.error err)))
    (hok : ∀ ps, ListedFor podFields pods g ps →
      Repeats std podFields node kernelID pods h β (f (.ok ps))) :
    Repeats std podFields node kernelID pods h β
      (liftM (Client.listPods g.matchLabels (matchingFields g)) >>= f) := by
  refine repeats_call (a := listPods podFields g.matchLabels (matchingFields g) pods)
    (fun w hw => ⟨w.hosts node, ?_, hw.host⟩) ?_
  · rw [← hw.pods, World.setHost, Function.update_eq_self]
    rfl
  · cases hlist : listPods podFields g.matchLabels (matchingFields g) pods with
    | error err => exact herr err
    | ok ps => exact hok ps hlist

/-- An apply whose answer is not looked at. -/
lemma repeats_apply {α : Type} (site : Site) (cd : ContainerData) (r : α) :
    Repeats std podFields node kernelID pods h α (do
      let _ ← Client.applyKiveData site (kiveDataFor std kernelID (site, cd))
      return r) := by
  refine ⟨r, [kiveDataFor std kernelID (site, cd)], fun w hw => ?_, fun d hd => ?_⟩
  · exact ⟨_, rfl, ⟨hw.pods, hw.host⟩, rfl, rfl⟩
  · exact ⟨(site, cd), List.mem_singleton.mp hd⟩

/-- What is done about a container, which is running where it is selected, is the same again. -/
lemma repeats_containerStep {p : KivePolicy} {t : KiveTrap} {g : KiveTrapMatch} {pod : Pod}
    {c : ContainerStatus} (hready : regexMatch std g.containerName c.name = .ok true →
      pod.phase = .running ∧ c.ready = true ∧ h.NoneToCreate c t) (matched : List String) :
    Repeats std podFields node kernelID pods h _
      (containerStep std kernelID p t (trapID std t p.spec.alertVersion) g pod c matched) := by
  have hpure : ∀ matched, Repeats std podFields node kernelID pods h (List String) (pure matched) :=
    (composed_repeats std podFields node kernelID pods h).pure
  unfold containerStep
  cases hmatch : regexMatch std g.containerName c.name with
  | error err => exact hpure matched
  | ok b =>
    cases b with
    | false => exact hpure matched
    | true =>
      obtain ⟨hphase, hcready, hnone⟩ := hready hmatch
      dsimp only
      rw [if_neg (not_not.mpr hphase)]
      split_ifs with hmem
      · exact hpure matched
      · obtain ⟨a, hanswer⟩ := Host.exists_answers_getContainerData hnone
        refine repeats_call (a := a) (fun w hw => ?_) ?_
        · obtain ⟨ha, hlike⟩ := hanswer _ hw.host
          exact ⟨_, Prod.ext ha rfl, hlike⟩
        · cases a with
          | error err => exact hpure _
          | ok cd =>
            -- a ready container does not put the pass off
            have hrequeue : cd.shouldRequeue = false := by
              have hreturns := (returns_getContainerData hcready t).run Host.handle h
              exact hreturns cd (hanswer h (.refl h)).1
            dsimp only
            rw [hrequeue, if_neg (by simp)]
            split_ifs with hfound
            · exact hpure _
            · exact repeats_apply ⟨p, t, pod, c⟩ cd _

/-- The traps of a policy lead to the same applies in every pass. -/
theorem repeats_trapLoop {p : KivePolicy} {traps : List KiveTrap}
    (hready : ∀ t ∈ traps, TrapReady std podFields pods h t) :
    Repeats std podFields node kernelID pods h _ (trapLoop std kernelID p traps) :=
  (composed_repeats std podFields node kernelID pods h).trapLoop (ListedFor podFields pods)
    repeats_listPods
    fun t ht g hg ps hps pod hpod c hc =>
      repeats_containerStep (hready t ht g hg ps hps pod hpod c hc)

end Repeats

end Kive
