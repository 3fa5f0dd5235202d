import KiveOperator.Controller.PolicyCalls
import KiveOperator.Library.Interleaving

/-!
# What a policy pass applies

When no policy needs a patch, the KiveData that a policy pass applies depend only on the policies,
the pods and the node of the pass, whatever else happens in the cluster meanwhile.
`steady_policyReconcile` says so; `apart_handle` says that the passes of different nodes leave each
other these things.
-/

namespace Kive

open Interaction KivePolicyReconciler

/-- What decides about the KiveData that a policy pass applies. -/
structure NodeView where
  policies : List KivePolicy
  pods : List Pod
  host : Host

/-- What the pass of a node sees of the world. -/
def nodeView (node : String) (w : World) : NodeView :=
  ⟨w.cluster.kivePolicies.items, w.cluster.pods, w.hosts node⟩

/-- How a call can be answered to one who sees no more than this. -/
def Answered (podFields : PodFields) : (op : Call) → NodeView → op.Answer → NodeView → Prop
  | .listKivePolicies .uncached, v, a, v' => a = .ok v.policies ∧ v' = v
  | .listPods labels fields, v, a, v' => a = listPods podFields labels fields v.pods ∧ v' = v
  | .getContainerData site, v, a, v' =>
    a = ((Kive.getContainerData site.container site.trap).run Host.handle v.host).1 ∧
      v' = { v with
        host := ((Kive.getContainerData site.container site.trap).run Host.handle v.host).2 }
  | _, v, _, v' => v' = v

/-- The calls that leave the policies alone, and of the KiveData everything but what is applied and
the annotation that wakes the data reconciler. -/
def DiscoverCall : Call → Prop
  | .patchKivePolicy _ _ => False
  | .patchKiveData orig modified => ∃ time, modified = annotate orig "force-reconcile" time
  | .deleteKiveData _ => False
  | _ => True

/-- The KiveData that a call applies. -/
def applyOf (e : Sigma Call.Answer) : Option KiveData :=
  match e.1 with
  | .applyKiveData _ kiveData => some kiveData
  | _ => none

/-- What can be observed of the calls is what they apply. -/
lemma filterMap_applyOf (events : List (Sigma Call.Answer)) :
    events.filterMap applyOf = appliedBy events := rfl

/-- Passes of different nodes do not change what the other one sees. -/
lemma apart_handle (std : Std) (podFields : PodFields) (kernelOf : String → String) :
    Apart DiscoverCall (Answered podFields)
      (fun node => handle std podFields node (kernelOf node)) nodeView where
  own node op w hop := by
    cases op
    case listKivePolicies reader => cases reader <;> first | rfl | exact ⟨rfl, rfl⟩
    case listKiveData reader labels => cases reader <;> rfl
    case listPods labels fields => exact ⟨rfl, rfl⟩
    case patchKivePolicy => exact absurd hop id
    case getContainerData site =>
      refine ⟨rfl, ?_⟩
      simp [nodeView, handle, World.setHost]
    all_goals rfl
  others node node' op w hne hop := by
    cases op
    case listKivePolicies reader => cases reader <;> rfl
    case listKiveData reader labels => cases reader <;> rfl
    case patchKivePolicy => exact absurd hop id
    case getContainerData site =>
      simp [nodeView, handle, World.setHost, Function.update_of_ne hne.symm]
    all_goals rfl

/-! ## A part of a pass -/

/-- A KiveData of a file of a container of the node. -/
def OwnedBy (std : Std) (kernelID : String) (h : Host) (d : KiveData) : Prop :=
  ∃ site cd, h.Knows (containerIDPart site.container.containerID) ∧
    d = kiveDataFor std kernelID (site, cd)

section Fixed

variable (std : Std) (podFields : PodFields) (kernelID : String)

/-- A part of a pass applies the same KiveData of the node and ends alike, whatever is left open. -/
def Fixed {α : Type} (p : Pass α) (v : NodeView) : Prop :=
  ∃ l r v', Steady DiscoverCall (Answered podFields) applyOf (fun b u => b = r ∧ u = v') p.run v l ∧
    v'.host.containers = v.host.containers ∧ ∀ d ∈ l, OwnedBy std kernelID v.host d

variable {std podFields kernelID}

/-- A part that returns at once. -/
lemma fixed_ret {α : Type} (r : Except Outcome α) (v : NodeView) :
    Fixed std podFields kernelID (ExceptT.mk (.ret r)) v :=
  ⟨[], r, v, ⟨rfl, rfl, rfl⟩, rfl, fun _ h => by cases h⟩

/-- One part after the other. -/
lemma Fixed.bind {α β : Type} {p : Pass α} {f : α → Pass β} {v : NodeView}
    (hp : Fixed std podFields kernelID p v)
    (hf : ∀ a u, Fixed std podFields kernelID (f a) u) :
    Fixed std podFields kernelID (p >>= f) v := by
  obtain ⟨l, r, v', hsteady, hsame, howned⟩ := hp
  cases r with
  | error o =>
    refine ⟨l ++ [], .error o, v', ?_, hsame, by simpa using howned⟩
    rw [ExceptT.run_bind]
    refine hsteady.bind ?_
    rintro _ _ ⟨rfl, rfl⟩
    exact ⟨rfl, rfl, rfl⟩
  | ok a =>
    obtain ⟨l', r', v'', hsteady', hsame', howned'⟩ := hf a v'
    refine ⟨l ++ l', r', v'', ?_, hsame'.trans hsame, fun d hd => ?_⟩
    · rw [ExceptT.run_bind]
      refine hsteady.bind ?_
      rintro _ _ ⟨rfl, rfl⟩
      exact hsteady'
    · rcases List.mem_append.mp hd with hd | hd
      · exact howned d hd
      · obtain ⟨site, cd, ⟨containers, hcontainers, hid⟩, rfl⟩ := howned' d hd
        exact ⟨site, cd, ⟨containers, hsame.symm.trans hcontainers, hid⟩, rfl⟩

/-- A call whose answer is not left open. -/
lemma fixed_call {α : Type} {op : Call} {f : op.Answer → Pass α} {v : NodeView} (v' : NodeView)
    {a : op.Answer} (hop : DiscoverCall op) (hobs : ∀ a, applyOf ⟨op, a⟩ = none)
    (hanswer : ∀ b u, Answered podFields op v b u → b = a ∧ u = v')
    (hsame : v'.host.containers = v.host.containers)
    (hf : Fixed std podFields kernelID (f a) v') :
    Fixed std podFields kernelID (liftM (Prog.perform op : CallProg op.Answer) >>= f) v := by
  obtain ⟨l, r, u, hsteady, hsame', howned⟩ := hf
  refine ⟨l, r, u, ⟨hop, fun b u' hb => ⟨l, ?_, ?_⟩⟩, hsame'.trans hsame, fun d hd => ?_⟩
  · rw [hobs b]
    rfl
  · obtain ⟨rfl, rfl⟩ := hanswer b u' hb
    exact hsteady
  · obtain ⟨site, cd, ⟨containers, hcontainers, hid⟩, rfl⟩ := howned d hd
    exact ⟨site, cd, ⟨containers, hsame.symm.trans hcontainers, hid⟩, rfl⟩

/-- An apply whose answer is not looked at. -/
lemma fixed_apply {α : Type} {site : Site} {d : KiveData} {r : α} {v : NodeView}
    (howned : OwnedBy std kernelID v.host d) :
    Fixed std podFields kernelID (do
      let _ ← Client.applyKiveData site d
      return r) v := by
  refine ⟨[d], .ok r, v, ⟨trivial, ?_⟩, rfl, ?_⟩
  · rintro a _ rfl
    exact ⟨[], rfl, rfl, rfl, rfl⟩
  · intro d' hd'
    obtain rfl := List.mem_singleton.mp hd'
    exact howned

variable {p : KivePolicy} {t : KiveTrap}

/-- What is done about one container: the answer of its node decides alone. -/
lemma fixed_containerStep (g : KiveTrapMatch) (pod : Pod) (c : ContainerStatus)
    (matched : List String) (v : NodeView) :
    Fixed std podFields kernelID
      (containerStep std kernelID p t (trapID std t p.spec.alertVersion) g pod c matched) v := by
  unfold containerStep
  cases regexMatch std g.containerName c.name with
  | error err => exact fixed_ret _ v
  | ok b =>
    cases b with
    | false => exact fixed_ret _ v
    | true =>
      dsimp only
      split_ifs with hphase hmem
      · exact fixed_ret _ v
      · exact fixed_ret _ v
      · set run := (Kive.getContainerData c t).run Host.handle v.host with hrun
        have hgrows : v.host.Grows run.2 := Host.grows_run _ _
        refine fixed_call { v with host := run.2 } trivial (fun _ => rfl) (fun _ _ h => h)
          hgrows.containers ?_
        have hfinds := @finds_of_run_getContainerData c t v.host
        rw [← hrun] at hfinds
        cases hanswer : run.1 with
        | error err => exact fixed_ret _ _
        | ok cd =>
          dsimp only
          split_ifs with hrequeue hfound
          · exact fixed_ret _ _
          · exact fixed_ret _ _
          · have hcd : cd.isFound = true := by simpa using hfound
            obtain ⟨containers, hcontainers, hid⟩ := (hfinds hcd hanswer).locates.container
            exact fixed_apply ⟨⟨p, t, pod, c⟩, cd, ⟨containers, hcontainers, hid⟩, rfl⟩

variable (std podFields kernelID) in
/-- Parts that are fixed can be put together. -/
lemma composed_fixed : Composed fun _ q => ∀ v, Fixed std podFields kernelID q v :=
  ⟨fun _ v => fixed_ret _ v, fun hp hf v => (hp v).bind hf⟩

/-- The loop over the traps. -/
lemma fixed_trapLoop (p : KivePolicy) (traps : List KiveTrap) (v : NodeView) :
    Fixed std podFields kernelID (trapLoop std kernelID p traps) v :=
  (composed_fixed std podFields kernelID).trapLoop_of_any
    (fun _ _ _ hf v => fixed_call v trivial (fun _ => rfl) (fun _ _ h => h) rfl (hf _ v))
    (fun _ _ g _ pod c matched => fixed_containerStep g pod c matched) v

/-- A policy that needs no patch of its finalizers: it has the operator's and is not being
deleted. -/
def Held (p : KivePolicy) : Prop :=
  ¬ Deleting p ∧ containsFinalizer p kivePolicyFinalizerName = true

instance (p : KivePolicy) : Decidable (Held p) :=
  inferInstanceAs (Decidable (_ ∧ _))

/-- What is done about one policy, which is not finalized any more. -/
lemma fixed_policyStep (hheld : Held p) (v : NodeView) :
    Fixed std podFields kernelID (policyStep std kernelID p) v := by
  have hdel : ¬ p.objectMeta.deletionTimestamp = true := hheld.1
  rw [policyStep, if_neg hdel, hheld.2, Bool.not_true, if_neg Bool.false_ne_true]
  exact fixed_trapLoop p p.spec.traps v

/-- The loop over the policies. -/
lemma fixed_policyLoop {items : List KivePolicy} (hheld : ∀ p ∈ items, Held p) (v : NodeView) :
    Fixed std podFields kernelID (policyLoop std kernelID items) v :=
  (composed_fixed std podFields kernelID).policyLoop (fun p hp => fixed_policyStep (hheld p hp)) v

end Fixed

/-- A whole policy pass, no policy needing a patch, applies KiveData of its node, the same ones
whatever happens meanwhile. -/
theorem steady_policyReconcile (std : Std) (podFields : PodFields) (kernelID : String)
    {v : NodeView} (hheld : ∀ p ∈ v.policies, Held p) :
    ∃ l, Steady DiscoverCall (Answered podFields) applyOf (fun _ _ => True)
        (KivePolicyReconciler.reconcile std kernelID) v l ∧
      ∀ d ∈ l, OwnedBy std kernelID v.host d := by
  obtain ⟨l, r, v', hsteady, -, howned⟩ :
      Fixed std podFields kernelID (policyLoop std kernelID v.policies) v :=
    fixed_policyLoop hheld v
  have htrigger : triggerKiveData.run.Only fun op =>
      DiscoverCall op ∧ ∀ a, applyOf ⟨op, a⟩ = none := by
    refine Prog.Only.bindE (Prog.Only.lift ⟨⟨trivial, fun _ => rfl⟩, fun _ => trivial⟩) ?_
    intro answer
    cases answer with
    | error err => trivial
    | ok items =>
      cases items with
      | nil => trivial
      | cons d items =>
        refine Prog.Only.bindE (Prog.Only.lift ⟨⟨trivial, fun _ => rfl⟩, fun _ => trivial⟩) ?_
        intro time
        exact Prog.Only.bindE (Prog.Only.lift ⟨⟨⟨time, rfl⟩, fun _ => rfl⟩, fun _ => trivial⟩)
          fun _ => trivial
  have hrest : Steady DiscoverCall (Answered podFields) applyOf (fun _ _ => True)
      (policyLoop std kernelID v.policies >>= fun _ => triggerKiveData).run v (l ++ []) := by
    rw [ExceptT.run_bind]
    refine hsteady.bind fun b u hb => ?_
    cases b with
    | error o => exact ⟨rfl, trivial⟩
    | ok a => exact htrigger.steady
  refine ⟨(l ++ []) ++ [], ?_, by simpa using howned⟩
  refine Steady.bind (R := fun _ _ => True) (l := l ++ []) ⟨trivial, ?_⟩ fun r _ _ => ?_
  · rintro _ _ ⟨rfl, rfl⟩
    exact ⟨l ++ [], rfl, hrest⟩
  · cases r <;> exact ⟨rfl, trivial⟩

end Kive
