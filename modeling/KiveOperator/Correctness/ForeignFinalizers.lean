import KiveOperator.Controller.System
import KiveOperator.Library.Runs

/-!
# The finalizers of other controllers

The reconcilers add and remove their finalizers on a copy of the object that they have listed, and
send the difference as a merge patch, which replaces the list of finalizers as a whole.  Nothing in
the patch says which state of the object it was made for, so that a finalizer which another client
has added since the list was read is dropped, and one that it has removed is there again.
`foreignFinalizers_iff` says that nothing else makes a patch change the finalizers of others.
-/

namespace Kive

open Interaction Object

/-- Two lists have the same finalizers, apart from one. -/
def SameOthers (own : String) (finalizers finalizers' : List String) : Prop :=
  ∀ f, f ≠ own → (f ∈ finalizers ↔ f ∈ finalizers')

instance (own : String) (finalizers finalizers' : List String) :
    Decidable (SameOthers own finalizers finalizers') :=
  decidable_of_iff (∀ f ∈ finalizers ++ finalizers', f ≠ own → (f ∈ finalizers ↔ f ∈ finalizers'))
    ⟨fun h f hf => by
      by_cases hmem : f ∈ finalizers ++ finalizers'
      · exact h f hmem hf
      · rw [List.mem_append, not_or] at hmem
        exact iff_of_false hmem.1 hmem.2,
      fun h f _ => h f⟩

/-- The same finalizers. -/
lemma SameOthers.refl (own : String) (finalizers : List String) :
    SameOthers own finalizers finalizers := fun _ _ => Iff.rfl

/-- A list may be replaced by one with the same others. -/
lemma SameOthers.congr_left {own : String} {l l' : List String} (h : SameOthers own l l')
    (finalizers : List String) : SameOthers own l finalizers ↔ SameOthers own l' finalizers := by
  constructor
  · intro hl f hf
    exact (h f hf).symm.trans (hl f hf)
  · intro hl f hf
    exact (h f hf).trans (hl f hf)

/-! ## Patches of a store -/

section Patches

variable {α : Type} [Object α] {own : String}

/-- The finalizers of the object at a key.  An object that is gone has none. -/
def Store.finalizersAt (s : Store α) (k : String × String) : List String :=
  ((s.find? k).map fun x => (objectMeta x).finalizers).getD []

/-- The finalizers under a name after an edit. -/
lemma Store.finalizersAt_update (s : Store α) (k : String × String) (e : Edit α) :
    (s.update k e).finalizersAt k =
      ((s.find? k).map fun x => (objectMeta (e.toFun x)).finalizers).getD [] := by
  rw [finalizersAt, find?_update_self]
  cases s.find? k with
  | none => rfl
  | some x =>
    rw [Option.bind_some, settle]
    split_ifs with h
    · exact h.2.symm
    · rfl

/-- The object that the modified copy was made from has the finalizers of others that are stored, if
the patch changes the finalizers and the server takes it. -/
def Store.ListsOthers (own : String) (s : Store α) (orig modified : α) : Prop :=
  ∀ x, s.find? (keyOf modified) = some x →
    (objectMeta orig).finalizers ≠ (objectMeta modified).finalizers →
    (Deleting x → (objectMeta modified).finalizers ⊆ (objectMeta x).finalizers) →
    SameOthers own (objectMeta orig).finalizers (objectMeta x).finalizers

/-- A patch of one's own finalizer leaves those of others exactly if they are as they were
listed. -/
lemma Store.sameOthers_patch_iff {s : Store α} {orig modified : α}
    (hown : SameOthers own (objectMeta modified).finalizers (objectMeta orig).finalizers) :
    let k := keyOf modified
    SameOthers own ((s.patch k (mergeFrom orig modified)).2.finalizersAt k) (s.finalizersAt k) ↔
      s.ListsOthers own orig modified := by
  intro k
  cases hx : s.find? k with
  | none =>
    have hsame : (s.patch k (mergeFrom orig modified)).2 = s := by rw [patch, hx]
    rw [hsame]
    refine ⟨fun _ x hx' => ?_, fun _ => SameOthers.refl own _⟩
    rw [hx] at hx'
    exact absurd hx' (by simp)
  | some x =>
    have hlists : s.ListsOthers own orig modified ↔
        ((objectMeta orig).finalizers ≠ (objectMeta modified).finalizers →
          (Deleting x → (objectMeta modified).finalizers ⊆ (objectMeta x).finalizers) →
          SameOthers own (objectMeta orig).finalizers (objectMeta x).finalizers) := by
      constructor
      · exact fun h => h x hx
      · intro h y hy
        obtain rfl := Option.some.inj (hx.symm.trans hy)
        exact h
    have hmerge : (objectMeta ((mergeFrom orig modified).toFun x)).finalizers =
        if (objectMeta orig).finalizers = (objectMeta modified).finalizers
          then (objectMeta x).finalizers else (objectMeta modified).finalizers := by
      simp [mergeFrom, mergeMeta]
    have hold : s.finalizersAt k = (objectMeta x).finalizers := by
      rw [finalizersAt, hx]
      rfl
    rw [hlists, hold]
    by_cases hforb : Forbidden x ((mergeFrom orig modified).toFun x)
    · have hsame : (s.patch k (mergeFrom orig modified)).2 = s := by
        rw [patch, hx]
        exact congrArg Prod.snd (if_pos hforb)
      rw [hsame, hold]
      refine ⟨fun _ hne hsub => ?_, fun _ => SameOthers.refl own _⟩
      refine absurd ?_ hforb.2
      rw [hmerge, if_neg hne]
      exact hsub hforb.1
    · have hnew : (s.patch k (mergeFrom orig modified)).2.finalizersAt k =
          (objectMeta ((mergeFrom orig modified).toFun x)).finalizers := by
        have hpatch : (s.patch k (mergeFrom orig modified)).2 =
            s.update k (mergeFrom orig modified) := by
          rw [patch, hx]
          exact congrArg Prod.snd (if_neg hforb)
        rw [hpatch, finalizersAt_update, hx]
        rfl
      rw [hnew, hmerge]
      split_ifs with heq
      · exact ⟨fun _ hne => absurd heq hne, fun _ => SameOthers.refl own _⟩
      · rw [hown.congr_left]
        refine ⟨fun h _ _ => h, fun h => h heq fun hdel => ?_⟩
        have hsub : ¬ ¬ (objectMeta ((mergeFrom orig modified).toFun x)).finalizers ⊆
            (objectMeta x).finalizers := fun hno => hforb ⟨hdel, hno⟩
        rw [hmerge, if_neg heq] at hsub
        exact not_not.mp hsub

/-- The copies of the reconcilers differ from what was listed in their own finalizer at most. -/
lemma sameOthers_removeFinalizer (x : α) :
    SameOthers own (objectMeta (removeFinalizer x own)).finalizers (objectMeta x).finalizers := by
  intro f hf
  simp [removeFinalizer, hf]

/-- Adding its own finalizer keeps the others. -/
lemma sameOthers_addFinalizer (x : α) :
    SameOthers own (objectMeta (addFinalizer x own)).finalizers (objectMeta x).finalizers := by
  intro f hf
  unfold addFinalizer
  split_ifs
  · exact Iff.rfl
  · simp [hf]

/-- An annotation keeps all of them. -/
lemma sameOthers_annotate (x : α) (key value : String) :
    SameOthers own (objectMeta (annotate x key value)).finalizers (objectMeta x).finalizers := by
  intro f _
  simp [annotate]

end Patches

/-! ## Calls -/

/-- A call that patches an object leaves the finalizers of others. -/
def Call.KeepsOthers (w w' : World) : Call → Prop
  | .patchKivePolicy _ modified => SameOthers kivePolicyFinalizerName
    (w'.cluster.kivePolicies.finalizersAt (keyOf modified))
    (w.cluster.kivePolicies.finalizersAt (keyOf modified))
  | .patchKiveData _ modified => SameOthers kiveDataFinalizerName
    (w'.cluster.kiveData.finalizersAt (keyOf modified))
    (w.cluster.kiveData.finalizersAt (keyOf modified))
  | _ => True

instance (w w' : World) : (op : Call) → Decidable (op.KeepsOthers w w')
  | .patchKivePolicy _ _ => inferInstanceAs (Decidable (SameOthers _ _ _))
  | .patchKiveData _ _ => inferInstanceAs (Decidable (SameOthers _ _ _))
  | .listKivePolicies _ | .listKiveData _ _ | .listPods _ _ | .applyKiveData _ _
  | .deleteKiveData _ | .getContainerData _ | .ebpfLoaded | .loadEbpf | .addInode _
  | .removeInode _ | .now => isTrue trivial

/-- The finalizers of others that are stored are those that were listed, where a call changes the
finalizers of an object. -/
def Call.ListsOthers (w : World) : Call → Prop
  | .patchKivePolicy orig modified =>
    w.cluster.kivePolicies.ListsOthers kivePolicyFinalizerName orig modified
  | .patchKiveData orig modified =>
    w.cluster.kiveData.ListsOthers kiveDataFinalizerName orig modified
  | _ => True

/-- A request that changes nothing keeps them. -/
lemma Call.keepsOthers_refl (w : World) (op : Call) : op.KeepsOthers w w := by
  cases op with
  | patchKivePolicy orig modified => exact SameOthers.refl _ _
  | patchKiveData orig modified => exact SameOthers.refl _ _
  | _ => trivial

section PassCall

variable {std : Std} {kernelID : String} {c : Controller} {log : List (Sigma Call.Answer)}

/-- What the reconcilers make of the finalizers of a policy. -/
lemma sameOthers_of_patchKivePolicy {orig modified : KivePolicy}
    (h : PassCall std kernelID c log (.patchKivePolicy orig modified)) :
    SameOthers kivePolicyFinalizerName modified.objectMeta.finalizers
      orig.objectMeta.finalizers := by
  cases c with
  | kivePolicy =>
    obtain ⟨-, ⟨-, rfl⟩ | ⟨-, rfl⟩⟩ := h
    · exact sameOthers_removeFinalizer orig
    · exact sameOthers_addFinalizer orig
  | kivePod =>
    obtain ⟨time, rfl⟩ := h
    exact sameOthers_annotate orig _ _
  | kiveData => exact absurd h id

/-- The patches that data passes ask for keep the others of the copy. -/
lemma sameOthers_of_patchKiveData {orig modified : KiveData}
    (h : PassCall std kernelID c log (.patchKiveData orig modified)) :
    SameOthers kiveDataFinalizerName modified.objectMeta.finalizers
      orig.objectMeta.finalizers := by
  obtain ⟨-, ⟨time, rfl⟩ | ⟨-, -, -, rfl, -⟩ | ⟨-, -, -, rfl⟩⟩ := passCall_patchKiveData h
  · exact sameOthers_annotate orig _ _
  · exact sameOthers_removeFinalizer orig
  · exact sameOthers_addFinalizer orig

/-- A call of a reconciler, which a fault may befall. -/
lemma keepsOthers_handleFault_iff {podFields : PodFields} {node : String} {op : Call}
    (hop : PassCall std kernelID c log op) (fault : Option Fault) (w : World) :
    op.KeepsOthers w (handleFault std podFields node kernelID fault op w).2 ↔
      ((∀ f ∈ fault, f.carriedOut = true) → op.ListsOthers w) := by
  by_cases hfault : ∀ f ∈ fault, f.carriedOut = true
  · rw [handleFault_of_carriedOut std podFields node kernelID hfault]
    refine Iff.trans ?_ ⟨fun h _ => h, fun h => h hfault⟩
    cases op with
    | patchKivePolicy orig modified =>
      exact Store.sameOthers_patch_iff (sameOthers_of_patchKivePolicy hop)
    | patchKiveData orig modified =>
      exact Store.sameOthers_patch_iff (sameOthers_of_patchKiveData hop)
    | _ => exact Iff.rfl
  · refine ⟨fun _ h => absurd h hfault, fun _ => ?_⟩
    push Not at hfault
    obtain ⟨f, rfl, hf⟩ := hfault
    cases op with
    | patchKivePolicy orig modified =>
      rw [handleFault_of_not_carriedOut std podFields node kernelID hf rfl]
      exact Call.keepsOthers_refl w _
    | patchKiveData orig modified =>
      rw [handleFault_of_not_carriedOut std podFields node kernelID hf rfl]
      exact Call.keepsOthers_refl w _
    | _ => trivial

end PassCall

/-! ## Runs with other clients -/

/-- Another client sets the finalizers of an object. -/
def Store.setFinalizers {α : Type} [Object α] (finalizers : List String) : Edit α where
  toFun x := withMeta x { objectMeta x with finalizers := finalizers }
  keyOf_toFun x := by simp [keyOf, ObjectMeta.key]
  uidOf_toFun x := by simp [uidOf]
  deleting_toFun x := by simp [Deleting]

/-- What can happen where other clients have finalizers on the same objects. -/
inductive Event where
  | act (a : Action)
  | setKivePolicyFinalizers (k : String × String) (finalizers : List String)
  | setKiveDataFinalizers (k : String × String) (finalizers : List String)

namespace System

variable (std : Std) (podFields : PodFields) (kernelOf : String → String)

/-- What an event does. -/
def after (s : System) : Event → System
  | .act a => act std podFields kernelOf s a
  | .setKivePolicyFinalizers k finalizers => s.moveTo (s.world.setKivePolicies
    (s.world.cluster.kivePolicies.patch k (Store.setFinalizers finalizers)).2)
  | .setKiveDataFinalizers k finalizers => s.moveTo (s.world.setKiveData
    (s.world.cluster.kiveData.patch k (Store.setFinalizers finalizers)).2)

/-- After a reconciler's patch the object has the finalizers of others that it had just before. -/
def KeepsOthers (s : System) : Event → Prop
  | .act (.call r fault) =>
    match (s.passes r).prog with
    | .ret _ => True
    | .call op _ => op.KeepsOthers s.world (act std podFields kernelOf s (.call r fault)).world
  | _ => True

instance (s : System) : (e : Event) → Decidable (s.KeepsOthers std podFields kernelOf e)
  | .act (.call r fault) =>
    match h : (s.passes r).prog with
    | .ret _ => isTrue (by rw [KeepsOthers, h]; trivial)
    | .call op _ =>
      decidable_of_iff
        (op.KeepsOthers s.world (act std podFields kernelOf s (.call r fault)).world)
        (by rw [KeepsOthers, h])
  | .act (.start _) | .act (.changeKivePolicies _) | .act (.changePods _) | .act (.changeHost _ _)
  | .act (.deleteKiveData _) | .act (.seeKiveData _ _) | .act (.seeKivePolicies _ _)
  | .act (.wait _) | .setKivePolicyFinalizers _ _ | .setKiveDataFinalizers _ _ => isTrue trivial

/-- Where a reconciler's patch changes the finalizers of an object, those of others are as they were
when the reconciler listed it. -/
def ListsOthers (s : System) : Event → Prop
  | .act (.call r fault) =>
    match (s.passes r).prog with
    | .ret _ => True
    | .call op _ => (∀ f ∈ fault, f.carriedOut = true) → op.ListsOthers s.world
  | _ => True

variable {std podFields kernelOf}

/-- A step keeps the others exactly if the copy that is patched lists them as they are. -/
lemma keepsOthers_iff {s : System} (h : s.KeepsTo std kernelOf) (e : Event) :
    s.KeepsOthers std podFields kernelOf e ↔ s.ListsOthers e := by
  cases e with
  | act a =>
    cases a with
    | call r fault =>
      cases hprog : (s.passes r).prog with
      | ret o => simp only [KeepsOthers, ListsOthers, hprog]
      | call op k =>
        simp only [KeepsOthers, ListsOthers, hprog]
        rw [act_call hprog]
        exact keepsOthers_handleFault_iff (h.passCall hprog) fault s.world
    | _ => exact Iff.rfl
  | _ => exact Iff.rfl

/-- The runs of the controllers keep to their calls, whatever other clients do. -/
lemma keepsTo_after (s : System) (e : Event) (h : s.KeepsTo std kernelOf) :
    (after std podFields kernelOf s e).KeepsTo std kernelOf := by
  cases e with
  | act a => exact keepsTo_act s a h
  | setKivePolicyFinalizers k finalizers => exact h
  | setKiveDataFinalizers k finalizers => exact h

end System

/-- However the runs of the reconcilers and other clients take turns: no patch of a reconciler
changes the finalizers of others exactly if each patch that changes the finalizers finds those of
others as they were listed. -/
theorem foreignFinalizers_iff (std : Std) (podFields : PodFields) (kernelOf : String → String)
    (events : List Event) (w : World) :
    Runs.Along (System.after std podFields kernelOf) (System.KeepsOthers std podFields kernelOf)
        events (.ofWorld w) ↔
      Runs.Along (System.after std podFields kernelOf) System.ListsOthers events (.ofWorld w) := by
  have hkeep : ∀ (s : System) (e : Event), s.KeepsTo std kernelOf → s.ListsOthers e →
      (System.after std podFields kernelOf s e).KeepsTo std kernelOf :=
    fun s e h _ => System.keepsTo_after s e h
  exact Runs.along_iff_of_invariant hkeep (fun _ e h => System.keepsOthers_iff h e)
    (System.keepsTo_ofWorld w)

namespace ForeignFinalizers

/-- A cluster with a policy that has the given finalizers. -/
def world (finalizers : List String) : World where
  cluster :=
    { kivePolicies := .ofList
        [{ objectMeta :=
            { name := "policy", namespace_ := operatorNamespace, finalizers := finalizers }
           spec := { alertVersion := "v1", traps := [] } }]
      kiveData := .empty
      pods := [] }
  hosts _ := .empty
  kernels _ := {}
  clock := 0

/-- Another client sets the finalizers between the two calls of a policy pass. -/
def events (finalizers : List String) : List Event :=
  [.act (.start ("node", .kivePolicy)), .act (.call ("node", .kivePolicy) none),
    .setKivePolicyFinalizers (operatorNamespace, "policy") finalizers,
    .act (.call ("node", .kivePolicy) none)]

end ForeignFinalizers

open ForeignFinalizers in
/-- A finalizer that another client adds while a policy pass runs is lost, and one that another
client removes is there again. -/
theorem foreignFinalizers_counterexample :
    let after := System.after (.ofDigests []) .standard fun _ => "k1"
    let keeps := System.KeepsOthers (.ofDigests []) .standard fun _ => "k1"
    let left w events := (Runs.run after events w).world.cluster.kivePolicies.finalizersAt
      (operatorNamespace, "policy")
    ¬ Runs.Along after keeps (events ["audit/owner"]) (.ofWorld (world [])) ∧
      left (.ofWorld (world [])) (events ["audit/owner"]) = [kivePolicyFinalizerName] ∧
      ¬ Runs.Along after keeps (events []) (.ofWorld (world ["audit/owner"])) ∧
      left (.ofWorld (world ["audit/owner"])) (events []) =
        ["audit/owner", kivePolicyFinalizerName] := by
  refine ⟨?_, ?_, ?_, ?_⟩ <;> decide +kernel

end Kive
