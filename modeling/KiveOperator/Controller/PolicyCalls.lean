import KiveOperator.Cluster.World
import KiveOperator.Controller.PolicyLoops

/-!
# What a policy pass calls

`only_policyReconcile` lists the requests that a policy pass can make, with what their arguments
look like; `appliedBy_eq_map_foundBy` says that a pass applies exactly one KiveData for each file
that it has found.
-/

namespace Kive

open Interaction KivePolicyReconciler

/-- The KiveData that a pass applies for a file found at a site. -/
def kiveDataFor (std : Std) (kernelID : String) (x : Site × ContainerData) : KiveData :=
  newKiveData kernelID (trapID std x.1.trap x.1.policy.spec.alertVersion) x.1 x.2

/-! ## The requests -/

/-- The site is one of a trap of a policy that is not being deleted. -/
def SiteOf (listed : KivePolicy → Prop) (site : Site) : Prop :=
  listed site.policy ∧ ¬ Deleting site.policy ∧ site.trap ∈ site.policy.spec.traps

/-- The calls that a policy pass makes for the policies that it has listed. -/
def PolicyCall (std : Std) (kernelID : String) (listed : KivePolicy → Prop) : Call → Prop
  | .listKivePolicies reader => reader = .uncached
  | .listKiveData reader _ => reader = .uncached
  | .listPods _ _ => True
  | .patchKivePolicy orig modified => listed orig ∧
    ((Deleting orig ∧ modified = removeFinalizer orig kivePolicyFinalizerName) ∨
    (¬ Deleting orig ∧ modified = addFinalizer orig kivePolicyFinalizerName))
  | .patchKiveData orig modified => ∃ time, modified = annotate orig "force-reconcile" time
  | .applyKiveData site kiveData => SiteOf listed site ∧
    ∃ containerData, kiveData = kiveDataFor std kernelID (site, containerData)
  | .deleteKiveData _ => False
  | .getContainerData site => SiteOf listed site
  | .ebpfLoaded => False
  | .loadEbpf => False
  | .addInode _ => False
  | .removeInode _ => False
  | .now => True

section Only

variable (std : Std) (kernelID : String) {listed : KivePolicy → Prop} {p : KivePolicy}
  {t : KiveTrap}

/-- The requests about one container. -/
lemma only_containerStep {pod : Pod} {c : ContainerStatus} (hsite : SiteOf listed ⟨p, t, pod, c⟩)
    (g : KiveTrapMatch) (matched : List String) :
    (containerStep std kernelID p t (trapID std t p.spec.alertVersion) g pod c matched).run.Only
      (PolicyCall std kernelID listed) := by
  unfold containerStep
  cases regexMatch std g.containerName c.name with
  | error err => trivial
  | ok b =>
    cases b with
    | false => trivial
    | true =>
      dsimp only
      split_ifs with hphase hmem
      · trivial
      · trivial
      · refine Prog.Only.bindE (Prog.Only.lift ⟨hsite, fun _ => trivial⟩) fun answer => ?_
        cases answer with
        | error err => trivial
        | ok cd =>
          dsimp only
          split_ifs with hrequeue hfound
          · trivial
          · trivial
          · exact Prog.Only.bindE (Prog.Only.lift ⟨⟨hsite, cd, rfl⟩, fun _ => trivial⟩)
              fun _ => trivial

/-- The requests of the loop over the traps of a policy. -/
lemma only_policyTrapLoop (hp : listed p) (hd : ¬ Deleting p) {traps : List KiveTrap}
    (htraps : ∀ t ∈ traps, t ∈ p.spec.traps) :
    (trapLoop std kernelID p traps).run.Only (PolicyCall std kernelID listed) := by
  refine (composed_only _).trapLoop_of_any (fun g _ f hf => ?_) fun t ht g _ pod c matched => ?_
  · exact Prog.Only.bindE (Prog.Only.lift ⟨trivial, fun _ => trivial⟩) hf
  · exact only_containerStep std kernelID ⟨hp, hd, htraps t ht⟩ g matched

/-- The requests about one policy. -/
lemma only_policyStep (hp : listed p) :
    (policyStep std kernelID p).run.Only (PolicyCall std kernelID listed) := by
  have hpatch : ∀ q, PolicyCall std kernelID listed (.patchKivePolicy p q) →
      (patchFinalizers p q).run.Only (PolicyCall std kernelID listed) := by
    intro q hq
    refine Prog.Only.bindE (Prog.Only.lift ⟨hq, fun _ => trivial⟩) fun answer => ?_
    cases answer <;> trivial
  unfold policyStep
  split_ifs with hdel hfin hfin'
  · exact hpatch _ ⟨hp, Or.inl ⟨hdel, rfl⟩⟩
  · trivial
  · exact hpatch _ ⟨hp, Or.inr ⟨hdel, rfl⟩⟩
  · exact only_policyTrapLoop std kernelID hp hdel fun _ => id

/-- The requests of the loop over the policies. -/
lemma only_policyLoop {items : List KivePolicy} (hitems : ∀ p ∈ items, listed p) :
    (policyLoop std kernelID items).run.Only (PolicyCall std kernelID listed) :=
  (composed_only _).policyLoop fun p hp => only_policyStep std kernelID (hitems p hp)

/-- The requests that wake the data reconciler. -/
lemma only_triggerKiveData :
    triggerKiveData.run.Only (PolicyCall std kernelID listed) := by
  refine Prog.Only.bindE (Prog.Only.lift ⟨rfl, fun _ => trivial⟩) fun answer => ?_
  cases answer with
  | error err => trivial
  | ok items =>
    cases items with
    | nil => trivial
    | cons d items =>
      refine Prog.Only.bindE (Prog.Only.lift ⟨trivial, fun _ => trivial⟩) fun time => ?_
      exact Prog.Only.bindE (Prog.Only.lift ⟨⟨time, rfl⟩, fun _ => trivial⟩) fun _ => trivial

/-- The calls of a policy pass are those of `PolicyCall`. -/
theorem only_policyReconcile :
    (KivePolicyReconciler.reconcile std kernelID).Only
      (PolicyCall std kernelID fun _ => True) := by
  refine Prog.Only.bind ?_ fun r => by cases r <;> trivial
  refine Prog.Only.bindE (Prog.Only.lift ⟨rfl, fun _ => trivial⟩) fun answer => ?_
  cases answer with
  | error err => trivial
  | ok items =>
    exact (only_policyLoop std kernelID fun _ _ => trivial).bindE
      fun _ => only_triggerKiveData std kernelID

end Only

/-! ## Setting an annotation -/

/-- Patching one annotation of a KiveData changes the stored one, if there is one, and no other. -/
lemma find?_patch_annotate (s : Store KiveData) (d : KiveData) (key value : String)
    (k : String × String) :
    (s.patch (keyOf (annotate d key value))
        (Store.mergeFrom d (annotate d key value))).2.find? k =
      if k = keyOf (annotate d key value) then
        (s.find? k).map (Store.mergeFrom d (annotate d key value)).toFun
      else s.find? k := by
  set e := Store.mergeFrom d (annotate d key value)
  have hfin : ∀ x : KiveData, (e.toFun x).objectMeta.finalizers = x.objectMeta.finalizers :=
    fun x => if_pos rfl
  have hsettle : ∀ x ∈ s.items, settle (e.toFun x) = some (e.toFun x) := by
    intro x hx
    refine settle_eq_some_iff.mpr ⟨rfl, fun hdel => ?_⟩
    rw [show Object.objectMeta (e.toFun x) = (e.toFun x).objectMeta from rfl, hfin]
    exact s.finalized x hx hdel
  rcases s.patch_cases (keyOf (annotate d key value)) e with ⟨⟨err, herr⟩, hsame⟩ | ⟨x, hx, -, heq⟩
  · -- the finalizers stay, so that the patch fails only if there is no such object
    rw [hsame]
    split_ifs with hk
    · subst hk
      rw [Store.patch] at herr
      cases hx : s.find? (keyOf (annotate d key value)) with
      | none => rfl
      | some x =>
        have hno : ¬ Store.Forbidden x (e.toFun x) := by
          intro hforb
          exact hforb.2 (hfin x ▸ List.Subset.refl _)
        rw [hx] at herr
        dsimp only at herr
        rw [if_neg hno] at herr
        exact absurd herr (by simp)
    · rfl
  · rw [heq]
    split_ifs with hk
    · subst hk
      rw [Store.find?_update_self, hx, Option.bind_some, Option.map_some,
        hsettle x (Store.find?_eq_some_iff.mp hx).1]
    · exact Store.find?_update_of_ne hk

/-- The other annotations are as they were. -/
lemma lookup_mergeFrom_annotate (d x : KiveData) {key key' : String} (value : String)
    (hne : key' ≠ key) :
    ((Store.mergeFrom d (annotate d key value)).toFun x).objectMeta.annotations.lookup key' =
      x.objectMeta.annotations.lookup key' :=
  (MapPatch.lookup_mergePatch _ _ _ _).trans (if_pos (Finmap.lookup_insert_of_ne _ hne))

/-! ## Files found and KiveData applied -/

/-- The files that were found, each with the site on whose behalf it was looked for. -/
def foundBy (events : List (Sigma Call.Answer)) : List (Site × ContainerData) :=
  events.filterMap fun e => match e with
    | ⟨.getContainerData site, .ok cd⟩ =>
      if !cd.shouldRequeue && cd.isFound then some (site, cd) else none
    | _ => none

/-- The KiveData that were applied. -/
def appliedBy (events : List (Sigma Call.Answer)) : List KiveData :=
  events.filterMap fun e => match e.1 with
    | .applyKiveData _ kiveData => some kiveData
    | _ => none

/-- The findings of two stretches of calls. -/
@[simp] lemma foundBy_append (l l' : List (Sigma Call.Answer)) :
    foundBy (l ++ l') = foundBy l ++ foundBy l' :=
  List.filterMap_append

/-- The applies of two stretches of calls. -/
@[simp] lemma appliedBy_append (l l' : List (Sigma Call.Answer)) :
    appliedBy (l ++ l') = appliedBy l ++ appliedBy l' :=
  List.filterMap_append

section Applied

variable (std : Std) (kernelID : String)

/-- What was applied is what was found. -/
def Applied (events : List (Sigma Call.Answer)) : Prop :=
  appliedBy events = (foundBy events).map (kiveDataFor std kernelID)

variable {std kernelID}

/-- Without a call nothing is found or applied. -/
lemma applied_nil : Applied std kernelID [] := rfl

/-- Two stretches of calls, each of which applies what it finds. -/
lemma Applied.append {l l' : List (Sigma Call.Answer)} (hl : Applied std kernelID l)
    (hl' : Applied std kernelID l') : Applied std kernelID (l ++ l') := by
  rw [Applied, appliedBy_append, foundBy_append, List.map_append, hl, hl']

/-- A part of a pass that is put together from two. -/
lemma applied_bind {α β : Type} {p : Pass α} {f : α → Pass β}
    (hp : p.run.Makes (Applied std kernelID)) (hf : ∀ a, (f a).run.Makes (Applied std kernelID)) :
    (p >>= f).run.Makes (Applied std kernelID) :=
  hp.bindE (fun _ _ => Applied.append) hf

/-- What is found in a container is applied at once. -/
lemma applied_containerStep (p : KivePolicy) (t : KiveTrap) (g : KiveTrapMatch) (pod : Pod)
    (c : ContainerStatus) (matched : List String) :
    (containerStep std kernelID p t (trapID std t p.spec.alertVersion) g pod c
      matched).run.Makes (Applied std kernelID) := by
  have hnone : ∀ (r : Except Outcome (List String)),
      (Prog.ret r : CallProg _).Makes (Applied std kernelID) := Prog.makes_ret applied_nil
  unfold containerStep
  cases regexMatch std g.containerName c.name with
  | error err => exact hnone _
  | ok b =>
    cases b with
    | false => exact hnone _
    | true =>
      dsimp only
      split_ifs with hphase hmem
      · exact hnone _
      · exact hnone _
      · intro log
        apply Prog.Obeys.lift_perform
        · trivial
        · intro answer
          -- a search that finds nothing to apply is the only call
          have honly : Applied std kernelID [⟨.getContainerData ⟨p, t, pod, c⟩, answer⟩] →
              ∃ l, log ++ [⟨.getContainerData ⟨p, t, pod, c⟩, answer⟩] = log ++ l ∧
                Applied std kernelID l := fun h => ⟨_, rfl, h⟩
          cases answer with
          | error err => exact honly rfl
          | ok cd =>
            dsimp only
            split_ifs with hrequeue hfound
            · exact honly (by simp [Applied, appliedBy, foundBy, hrequeue])
            · exact honly (by simp_all [Applied, appliedBy, foundBy])
            · apply Prog.Obeys.lift_perform
              · trivial
              · intro answer
                refine ⟨[_, _], List.append_assoc _ _ _, ?_⟩
                simp_all [Applied, appliedBy, foundBy, kiveDataFor]

/-- Parts that apply what they find can be put together. -/
lemma composed_applied : Composed fun _ q => q.run.Makes (Applied std kernelID) :=
  ⟨fun _ => Prog.makes_ret applied_nil _, applied_bind⟩

/-- The loop over the traps applies what it finds. -/
lemma applied_trapLoop (p : KivePolicy) (traps : List KiveTrap) :
    (trapLoop std kernelID p traps).run.Makes (Applied std kernelID) :=
  composed_applied.trapLoop_of_any
    (fun _ _ _ hf => applied_bind (Prog.makes_lift_perform fun _ => rfl) hf)
    fun t _ g _ pod c matched => applied_containerStep p t g pod c matched

/-- What is done about a policy applies what it finds. -/
lemma applied_policyStep (p : KivePolicy) :
    (policyStep std kernelID p).run.Makes (Applied std kernelID) := by
  have hpatch : ∀ q, (patchFinalizers p q).run.Makes (Applied std kernelID) := by
    intro q
    refine applied_bind (Prog.makes_lift_perform fun _ => rfl) fun answer => ?_
    cases answer <;> exact Prog.makes_ret applied_nil _
  unfold policyStep
  split_ifs
  · exact hpatch _
  · exact Prog.makes_ret applied_nil _
  · exact hpatch _
  · exact applied_trapLoop p p.spec.traps

/-- The loop over the policies applies what it finds. -/
lemma applied_policyLoop (items : List KivePolicy) :
    (policyLoop std kernelID items).run.Makes (Applied std kernelID) :=
  composed_applied.policyLoop fun p _ => applied_policyStep p

/-- The request that wakes the data reconciler finds and applies nothing. -/
lemma applied_triggerKiveData : triggerKiveData.run.Makes (Applied std kernelID) := by
  refine applied_bind (Prog.makes_lift_perform fun _ => rfl) fun answer => ?_
  cases answer with
  | error err => exact Prog.makes_ret applied_nil _
  | ok items =>
    cases items with
    | nil => exact Prog.makes_ret applied_nil _
    | cons d items =>
      refine applied_bind (Prog.makes_lift_perform fun _ => rfl) fun time => ?_
      refine applied_bind (Prog.makes_lift_perform fun _ => rfl) fun _ => ?_
      exact Prog.makes_ret applied_nil _

variable (std kernelID) in
/-- Whatever a policy pass is answered, it applies one KiveData for each file that it has found. -/
lemma applied_policyReconcile :
    (KivePolicyReconciler.reconcile std kernelID).Makes (Applied std kernelID) := by
  apply Pass.makes_toProg
  refine applied_bind (Prog.makes_lift_perform fun _ => rfl) fun answer => ?_
  cases answer with
  | error err => exact Prog.makes_ret applied_nil _
  | ok items => exact applied_bind (applied_policyLoop items) fun _ => applied_triggerKiveData

/-- A policy pass applies one KiveData for each file that it has found, in the same order. -/
theorem appliedBy_eq_map_foundBy {W : Type} (h : (op : Call) → W → op.Answer × W) (std : Std)
    (kernelID : String) (w : W) :
    appliedBy ((KivePolicyReconciler.reconcile std kernelID).events h w) =
      (foundBy ((KivePolicyReconciler.reconcile std kernelID).events h w)).map
        (kiveDataFor std kernelID) :=
  (applied_policyReconcile std kernelID).events h w

end Applied

end Kive
