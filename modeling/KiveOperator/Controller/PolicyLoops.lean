import KiveOperator.Controller.KivePolicy

/-!
# The loops of a policy pass

What holds of the search for one container, and is kept when parts of a pass are put together, holds
of the loops over containers, pods, match groups and traps.  `Composed.trapLoop` is this rule; of
the pods it asks only for those that a list request may answer.
-/

namespace Kive

open Interaction KivePolicyReconciler

/-- A property of parts of a pass that is kept when they are put together. -/
structure Composed (T : (α : Type) → Pass α → Prop) : Prop where
  pure {α : Type} (a : α) : T α (pure a)
  bind {α β : Type} {p : Pass α} {f : α → Pass β} (hp : T α p) (hf : ∀ a, T β (f a)) :
    T β (p >>= f)

namespace Composed

variable {T : (α : Type) → Pass α → Prop} {std : Std} {kernelID : String} {p : KivePolicy}
  {t : KiveTrap} {trapID : String} {g : KiveTrapMatch}

/-- What is so of each container is so of the loop over the containers of a pod. -/
lemma containerLoop (hT : Composed T) {pod : Pod} {cs : List ContainerStatus}
    (hstep : ∀ c ∈ cs, ∀ matched,
      T _ (containerStep std kernelID p t trapID g pod c matched)) (matched : List String) :
    T _ (containerLoop std kernelID p t trapID g pod cs matched) := by
  induction cs generalizing matched with
  | nil => exact hT.pure matched
  | cons c cs ih =>
    exact hT.bind (hstep c List.mem_cons_self matched)
      (ih fun c' hc' => hstep c' (List.mem_cons_of_mem c hc'))

/-- What is so of each container is so of the loop over the pods. -/
lemma podLoop (hT : Composed T) {pods : List Pod}
    (hstep : ∀ pod ∈ pods, ∀ c ∈ pod.containerStatuses, ∀ matched,
      T _ (containerStep std kernelID p t trapID g pod c matched)) (matched : List String) :
    T _ (podLoop std kernelID p t trapID g pods matched) := by
  induction pods generalizing matched with
  | nil => exact hT.pure matched
  | cons pod pods ih =>
    exact hT.bind (hT.containerLoop (hstep pod List.mem_cons_self) matched)
      (ih fun pod' hpod' => hstep pod' (List.mem_cons_of_mem pod hpod'))

/-- `Listed g ps` says that the request for a match group may be answered with the pods `ps`. -/
lemma matchLoop (hT : Composed T) (Listed : KiveTrapMatch → List Pod → Prop)
    (hlist : ∀ (g : KiveTrapMatch) {β : Type} (f : Except String (List Pod) → Pass β),
      (∀ err, T β (f (.error err))) → (∀ ps, Listed g ps → T β (f (.ok ps))) →
        T β (liftM (Client.listPods g.matchLabels (matchingFields g)) >>= f))
    {groups : List KiveTrapMatch}
    (hstep : ∀ g ∈ groups, ∀ ps, Listed g ps → ∀ pod ∈ ps, ∀ c ∈ pod.containerStatuses, ∀ matched,
      T _ (containerStep std kernelID p t trapID g pod c matched)) (matched : List String) :
    T _ (matchLoop std kernelID p t trapID groups matched) := by
  induction groups generalizing matched with
  | nil => exact hT.pure matched
  | cons g groups ih =>
    have hrest := ih fun g' hg' => hstep g' (List.mem_cons_of_mem g hg')
    refine hlist g _ (fun err => hrest matched) fun ps hps => ?_
    exact hT.bind (hT.podLoop (hstep g List.mem_cons_self ps hps) matched) hrest

/-- What holds of the search for each container that may be listed holds of the loop over the traps
of a policy. -/
theorem trapLoop (hT : Composed T) (Listed : KiveTrapMatch → List Pod → Prop)
    (hlist : ∀ (g : KiveTrapMatch) {β : Type} (f : Except String (List Pod) → Pass β),
      (∀ err, T β (f (.error err))) → (∀ ps, Listed g ps → T β (f (.ok ps))) →
        T β (liftM (Client.listPods g.matchLabels (matchingFields g)) >>= f))
    {traps : List KiveTrap}
    (hstep : ∀ t ∈ traps, ∀ g ∈ t.matchAny, ∀ ps, Listed g ps → ∀ pod ∈ ps,
      ∀ c ∈ pod.containerStatuses, ∀ matched, T _ (containerStep std kernelID p t
        (Kive.trapID std t p.spec.alertVersion) g pod c matched)) :
    T _ (trapLoop std kernelID p traps) := by
  induction traps with
  | nil => exact hT.pure ()
  | cons t traps ih =>
    refine hT.bind ?_ fun _ => ih fun t' ht' => hstep t' (List.mem_cons_of_mem t ht')
    exact hT.bind (hT.matchLoop Listed hlist (hstep t List.mem_cons_self) []) fun _ => hT.pure ()

/-- The same where nothing is known of the pods that are listed. -/
lemma trapLoop_of_any (hT : Composed T)
    (hlist : ∀ (g : KiveTrapMatch) {β : Type} (f : Except String (List Pod) → Pass β),
      (∀ answer, T β (f answer)) →
        T β (liftM (Client.listPods g.matchLabels (matchingFields g)) >>= f))
    {traps : List KiveTrap}
    (hstep : ∀ t ∈ traps, ∀ g ∈ t.matchAny, ∀ pod c matched, T _ (containerStep std kernelID p t
      (Kive.trapID std t p.spec.alertVersion) g pod c matched)) :
    T _ (KivePolicyReconciler.trapLoop std kernelID p traps) := by
  refine hT.trapLoop (fun _ _ => True) (fun g β f herr hok => hlist g f fun answer => ?_)
    fun t ht g hg _ _ pod _ c _ => hstep t ht g hg pod c
  cases answer with
  | error err => exact herr err
  | ok ps => exact hok ps trivial

/-- The loop over the policies. -/
lemma policyLoop (hT : Composed T) {items : List KivePolicy}
    (hstep : ∀ p ∈ items, T _ (policyStep std kernelID p)) :
    T _ (policyLoop std kernelID items) := by
  induction items with
  | nil => exact hT.pure ()
  | cons p items ih =>
    exact hT.bind (hstep p List.mem_cons_self) fun _ =>
      ih fun q hq => hstep q (List.mem_cons_of_mem p hq)

end Composed

/-- A condition on each call. -/
lemma composed_only (P : Call → Prop) : Composed fun _ q => q.run.Only P :=
  ⟨fun _ => trivial, fun hp hf => hp.bindE hf⟩

/-! ## The loop over the policies -/

section PolicyLoop

variable {std : Std} {kernelID : String}

/-- The loop over two lists of policies takes one after the other. -/
lemma policyLoop_append (l l' : List KivePolicy) :
    policyLoop std kernelID (l ++ l') =
      policyLoop std kernelID l >>= fun _ => policyLoop std kernelID l' := by
  induction l with
  | nil => rfl
  | cons p l ih => rw [List.cons_append, policyLoop, policyLoop, ih, bind_assoc]

/-- The copy that a pass patches a policy with. -/
def refinalized (p : KivePolicy) : KivePolicy :=
  if Deleting p then removeFinalizer p kivePolicyFinalizerName
  else addFinalizer p kivePolicyFinalizerName

variable {p : KivePolicy}

/-- A policy whose finalizer is due is patched. -/
lemma policyStep_of_due (hdue : FinalizerDue kivePolicyFinalizerName p) :
    policyStep std kernelID p = patchFinalizers p (refinalized p) := by
  unfold policyStep refinalized
  by_cases hdel : Deleting p
  · rw [if_pos hdel, if_pos (show p.objectMeta.deletionTimestamp = true from hdel),
      if_pos (hdue.mp hdel)]
  · have hfin : containsFinalizer p kivePolicyFinalizerName = false := by
      rw [← Bool.not_eq_true]
      exact fun h => hdel (hdue.mpr h)
    rw [if_neg hdel, if_neg (show ¬ p.objectMeta.deletionTimestamp = true from hdel), hfin]
    rfl

/-- For any other policy its traps are looked at, or nothing is done. -/
lemma policyStep_of_not_due (hdue : ¬ FinalizerDue kivePolicyFinalizerName p) :
    policyStep std kernelID p =
      if Deleting p then pure () else trapLoop std kernelID p p.spec.traps := by
  unfold policyStep
  by_cases hdel : Deleting p
  · have hfin : containsFinalizer p kivePolicyFinalizerName = false := by
      rw [← Bool.not_eq_true]
      exact fun h => hdue ⟨fun _ => h, fun _ => hdel⟩
    rw [if_pos hdel, if_pos (show p.objectMeta.deletionTimestamp = true from hdel), hfin]
    rfl
  · have hfin : containsFinalizer p kivePolicyFinalizerName = true := by
      by_contra hfin
      exact hdue ⟨fun h => absurd h hdel, fun h => absurd h hfin⟩
    rw [if_neg hdel, if_neg (show ¬ p.objectMeta.deletionTimestamp = true from hdel), hfin]
    rfl

end PolicyLoop

end Kive
