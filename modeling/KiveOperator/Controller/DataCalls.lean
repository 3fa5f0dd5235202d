import KiveOperator.Controller.KiveData

/-!
# The calls of the data reconciler

Which calls the parts of a data pass can make, whatever they are answered, and how its loop over
the KiveData goes on after each of them.
-/

namespace Kive

open Interaction

namespace KiveDataReconciler

variable (std : Std)

/-- A request for a list of pods. -/
def IsListPods (op : Call) : Prop :=
  ∃ labels fields, op = .listPods labels fields

/-- Looking for a trap and a container only lists pods. -/
lemma only_trapLoop (d : KiveData) (traps : List KiveTrap) (found : Bool) :
    (trapLoop std d traps found).Only IsListPods := by
  induction traps generalizing found with
  | nil => trivial
  | cons t traps ih =>
    rw [trapLoop, kiveDataTrapCmp_eq]
    cases d.objectMeta.labels.get trapIDLabel ==
      trapID std t (d.objectMeta.annotations.get "kive-alert-version") with
    | false => exact ih false
    | true =>
      refine ⟨⟨_, _, rfl⟩, fun answer => ?_⟩
      cases answer with
      | error err => exact ih true
      | ok pods =>
        change Prog.Only IsListPods (if containerExists d pods then pure (true, true) else _)
        split_ifs
        · trivial
        · exact ih false

/-- The loop over the policies only lists pods. -/
lemma only_policyLoop (d : KiveData) (policies : List KivePolicy) (found : Bool) :
    (policyLoop std d policies found).Only IsListPods := by
  induction policies generalizing found with
  | nil => trivial
  | cons p policies ih =>
    rw [policyLoop]
    split_ifs
    · exact ih found
    · refine (only_trapLoop std d p.spec.traps found).bind fun r => ?_
      dsimp only
      split_ifs
      · trivial
      · exact ih r.1

/-- A judgement lists pods, and then deletes the KiveData or adds its key to the map. -/
lemma only_judge (policies : List KivePolicy) (d : KiveData) :
    (judge std policies d).Only fun op =>
      IsListPods op ∨ op = .deleteKiveData d ∨ op = .addInode d.mapKey := by
  refine Prog.Only.bind ((only_policyLoop std d policies false).mono fun _ => Or.inl)
    fun found => ?_
  split_ifs
  · exact ⟨Or.inr (Or.inl rfl), fun _ => trivial⟩
  · exact ⟨Or.inr (Or.inr rfl), fun _ => trivial⟩

end KiveDataReconciler

/-! ## The calls of a whole pass -/

/-- The calls of a data pass. -/
def DataCall (kernelID : String) : Call → Prop
  | .listKivePolicies reader => reader = .cached
  | .listKiveData reader labels =>
    reader = .cached ∧ labels = KiveDataReconciler.kiveDataLabels kernelID
  | .listPods _ _ => True
  | .patchKivePolicy _ _ => False
  | .patchKiveData orig modified =>
    (Deleting orig ∧ modified = removeFinalizer orig kiveDataFinalizerName) ∨
    (¬ Deleting orig ∧ modified = addFinalizer orig kiveDataFinalizerName)
  | .applyKiveData _ _ => False
  | .deleteKiveData _ => True
  | .getContainerData _ => False
  | .ebpfLoaded => True
  | .loadEbpf => True
  | .addInode _ => True
  | .removeInode _ => True
  | .now => False

namespace KiveDataReconciler

section Only

variable (std : Std) (kernelID : String)

/-- A patch, after which the pass is over. -/
lemma only_patch {d modified : KiveData}
    (h : DataCall kernelID (.patchKiveData d modified)) {f : Except String Unit → Pass Unit}
    (hf : ∀ answer, (f answer).run.Only (DataCall kernelID)) :
    (liftM (Client.patchKiveData d modified) >>= f : Pass Unit).run.Only (DataCall kernelID) :=
  Prog.Only.bindE (Prog.Only.lift ⟨h, fun _ => trivial⟩) hf

/-- The requests of the loop over the KiveData. -/
lemma only_dataLoop (policies : List KivePolicy) (items : List KiveData) :
    (dataLoop std policies items).run.Only (DataCall kernelID) := by
  induction items with
  | nil => trivial
  | cons d items ih =>
    rw [dataLoop]
    split_ifs with hdel hfin hfin'
    · refine Prog.Only.bindE ?_ fun _ => ih
      refine Prog.Only.bindE (Prog.Only.lift ⟨trivial, fun _ => trivial⟩) fun _ => ?_
      exact only_patch kernelID (Or.inl ⟨hdel, rfl⟩) fun answer => by cases answer <;> trivial
    · exact ih
    · refine Prog.Only.bindE ?_ fun _ => ih
      exact only_patch kernelID (Or.inr ⟨hdel, rfl⟩) fun answer => by cases answer <;> trivial
    · refine Prog.Only.bindE (Prog.Only.lift ((only_judge std policies d).mono ?_)) fun _ => ih
      rintro op (⟨labels, fields, rfl⟩ | rfl | rfl) <;> trivial

/-- The calls of a data pass are those of `DataCall`. -/
theorem only_reconcile :
    (reconcile std kernelID).Only (DataCall kernelID) := by
  refine Prog.Only.bind ?_ fun r => by cases r <;> trivial
  refine Prog.Only.bindE ?_ fun _ => ?_
  · refine Prog.Only.bindE (Prog.Only.lift ⟨trivial, fun _ => trivial⟩) fun loaded => ?_
    split_ifs
    · refine Prog.Only.bindE (Prog.Only.lift ⟨trivial, fun _ => trivial⟩) fun answer => ?_
      cases answer <;> trivial
    · trivial
  · refine Prog.Only.bindE (Prog.Only.lift ⟨⟨rfl, rfl⟩, fun _ => trivial⟩) fun answer => ?_
    cases answer with
    | error err => trivial
    | ok items =>
      refine Prog.Only.bindE (Prog.Only.lift ⟨rfl, fun _ => trivial⟩) fun answer => ?_
      cases answer with
      | error err => trivial
      | ok policies =>
        exact (only_dataLoop std kernelID policies items).bindE fun _ => trivial

end Only

end KiveDataReconciler

/-- A KiveData whose finalizers need a patch. -/
abbrev PatchDue (d : KiveData) : Prop := FinalizerDue kiveDataFinalizerName d

/-- Without a patch being due, what is not being deleted has the finalizer. -/
lemma containsFinalizer_of_not_patchDue {d : KiveData} (hdue : ¬ PatchDue d)
    (hdel : ¬ Deleting d) : containsFinalizer d kiveDataFinalizerName = true := by
  by_contra hfin
  exact hdue ⟨fun h => absurd h hdel, fun h => absurd h hfin⟩

namespace KiveDataReconciler

section Loop

variable (std : Std) {W : Type} (h : (op : Call) → W → op.Answer × W) (policies : List KivePolicy)
  {d : KiveData} (l : List KiveData) (w : W)

/-- The loop ends with a KiveData that is being deleted and has the finalizer. -/
lemma runE_dataLoop_finalize (hdue : PatchDue d) (hdel : Deleting d) :
    Prog.runE h (dataLoop std policies (d :: l)) w =
      let w₁ := (h (.removeInode d.mapKey) w).2
      let r := h (.patchKiveData d (removeFinalizer d kiveDataFinalizerName)) w₁
      (.error (match r.1 with | .error _ => requeue | .ok () => done), r.2) := by
  rw [dataLoop, if_pos (show d.objectMeta.deletionTimestamp = true from hdel),
    if_pos (hdue.mp hdel), Prog.runE_bind, finalize, Prog.runE_bind, Prog.runE_lift,
    Ebpf.removeInode, Prog.run_perform, Prog.continueE_ok, Prog.runE_bind, Prog.runE_lift,
    Client.patchKiveData, Prog.run_perform, Prog.continueE_ok]
  dsimp only
  generalize h (.patchKiveData d (removeFinalizer d kiveDataFinalizerName)) _ = r
  obtain ⟨_ | _, w'⟩ := r <;> rfl

/-- The loop ends with a KiveData that is not being deleted and lacks the finalizer. -/
lemma runE_dataLoop_claim (hdue : PatchDue d) (hdel : ¬ Deleting d) :
    Prog.runE h (dataLoop std policies (d :: l)) w =
      let r := h (.patchKiveData d (addFinalizer d kiveDataFinalizerName)) w
      (.error (match r.1 with | .error _ => requeue | .ok () => done), r.2) := by
  have hfin : containsFinalizer d kiveDataFinalizerName = false := by
    rw [← Bool.not_eq_true]
    exact fun hf => hdel (hdue.mpr hf)
  rw [dataLoop, if_neg (show ¬ d.objectMeta.deletionTimestamp = true from hdel), hfin,
    Bool.not_false, if_pos rfl, Prog.runE_bind, claim, Prog.runE_bind, Prog.runE_lift,
    Client.patchKiveData, Prog.run_perform, Prog.continueE_ok]
  dsimp only
  generalize h (.patchKiveData d (addFinalizer d kiveDataFinalizerName)) w = r
  obtain ⟨_ | _, w'⟩ := r <;> rfl

/-- The loop passes over a KiveData that is being deleted and that others still hold. -/
lemma runE_dataLoop_skip (hdue : ¬ PatchDue d) (hdel : Deleting d) :
    Prog.runE h (dataLoop std policies (d :: l)) w =
      Prog.runE h (dataLoop std policies l) w := by
  have hfin : containsFinalizer d kiveDataFinalizerName ≠ true := fun hf =>
    hdue ⟨fun _ => hf, fun _ => hdel⟩
  rw [dataLoop, if_pos (show d.objectMeta.deletionTimestamp = true from hdel), if_neg hfin]

/-- The loop judges any other KiveData and goes on. -/
lemma runE_dataLoop_judge (hdue : ¬ PatchDue d) (hdel : ¬ Deleting d) :
    Prog.runE h (dataLoop std policies (d :: l)) w =
      Prog.runE h (dataLoop std policies l) ((judge std policies d).run h w).2 := by
  rw [dataLoop, if_neg (show ¬ d.objectMeta.deletionTimestamp = true from hdel),
    containsFinalizer_of_not_patchDue hdue hdel, Bool.not_true, if_neg (by simp), Prog.runE_bind,
    Prog.runE_lift, Prog.continueE_ok]

end Loop

end KiveDataReconciler

end Kive
