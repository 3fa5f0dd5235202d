import KiveOperator.Cluster.World
import KiveOperator.Controller.KiveData

/-!
# Which KiveData are justified

A KiveData is justified by a policy that is not being deleted, with a trap that has the
identifier recorded in the KiveData, and by a pod that has the recorded container on the recorded
node.  `run_policyLoop` says that this is what the data reconciler decides.
-/

namespace Kive

open Interaction KiveDataReconciler

section Justified

variable (std : Std) (pods : List Pod)

/-- A pod has the container that a KiveData records, on the recorded node. -/
def HasContainer (d : KiveData) : Prop :=
  ∃ pod ∈ pods, pod.nodeName = d.objectMeta.annotations.get "node-name" ∧
    ∃ c ∈ pod.containerStatuses, kiveDataContainerCmp d pod c = true

instance (d : KiveData) : Decidable (HasContainer pods d) :=
  inferInstanceAs (Decidable (∃ pod ∈ pods, _))

/-- A trap has the identifier that a KiveData records, under the recorded alert version. -/
def IsTrapOf (d : KiveData) (t : KiveTrap) : Prop :=
  d.objectMeta.labels.get trapIDLabel =
    trapID std t (d.objectMeta.annotations.get "kive-alert-version")

instance (d : KiveData) (t : KiveTrap) : Decidable (IsTrapOf std d t) :=
  inferInstanceAs (Decidable (_ = _))

/-- Some policy that is not being deleted has a trap of a KiveData. -/
def HasTrap (policies : List KivePolicy) (d : KiveData) : Prop :=
  ∃ p ∈ policies, ¬ Deleting p ∧ ∃ t ∈ p.spec.traps, IsTrapOf std d t

instance (policies : List KivePolicy) (d : KiveData) : Decidable (HasTrap std policies d) :=
  inferInstanceAs (Decidable (∃ p ∈ policies, _))

/-- A trap and a container justify a KiveData. -/
def Justified (policies : List KivePolicy) (d : KiveData) : Prop :=
  HasTrap std policies d ∧ HasContainer pods d

instance (policies : List KivePolicy) (d : KiveData) : Decidable (Justified std pods policies d) :=
  inferInstanceAs (Decidable (_ ∧ _))

end Justified

/-- The list request for the pod of a KiveData, with the field labels taken as what they are
called. -/
lemma listPods_matchingFields_kiveData {podFields : PodFields} (hf : podFields.Standard)
    (d : KiveData) (pods : List Pod) :
    listPods podFields ∅ (matchingFields d) pods = .ok (pods.filter fun pod =>
      pod.name == d.objectMeta.annotations.get "pod-name" &&
      (pod.namespace_ == d.objectMeta.annotations.get "namespace" &&
        pod.nodeName == d.objectMeta.annotations.get "node-name")) := by
  have hfind : (matchingFields d).find? (fun f => (podFields f.1).isNone) = none := by
    simp [matchingFields, hf.name, hf.namespace_, hf.nodeName]
  rw [listPods, hfind]
  refine congrArg Except.ok (List.filter_congr fun pod _ => ?_)
  rw [matchesLabels_empty, Bool.true_and]
  simp [matchesFields, matchingFields, hf.name, hf.namespace_, hf.nodeName]

/-- The listed pods have the container exactly when there is one. -/
lemma containerExists_filter_iff (d : KiveData) (pods : List Pod) :
    containerExists d (pods.filter fun pod =>
      pod.name == d.objectMeta.annotations.get "pod-name" &&
      (pod.namespace_ == d.objectMeta.annotations.get "namespace" &&
        pod.nodeName == d.objectMeta.annotations.get "node-name")) = true ↔
      HasContainer pods d := by
  simp only [containerExists, List.any_eq_true, List.mem_filter, Bool.and_eq_true, beq_iff_eq,
    HasContainer]
  constructor
  · rintro ⟨pod, ⟨hpod, -, -, hnode⟩, c, hc, hcmp⟩
    exact ⟨pod, hpod, hnode, c, hc, hcmp⟩
  · rintro ⟨pod, hpod, hnode, c, hc, hcmp⟩
    obtain ⟨hname, hns, -, -⟩ := kiveDataContainerCmp_iff.mp hcmp
    exact ⟨pod, ⟨hpod, hname.symm, hns.symm, hnode⟩, c, hc, hcmp⟩

section Run

variable (std : Std) {podFields : PodFields} (node kernelID : String)

/-- The loop over the traps of a policy ends with `break` exactly when one of them and a
container justify the KiveData; without, `found` is false after any trap. -/
lemma run_trapLoop (hf : podFields.Standard) (d : KiveData) (w : World) (traps : List KiveTrap)
    (found : Bool) :
    (trapLoop std d traps found).run (handle std podFields node kernelID) w =
      (if (∃ t ∈ traps, IsTrapOf std d t) ∧ HasContainer w.cluster.pods d then (true, true)
        else (if traps = [] then found else false, false), w) := by
  have hlist : handle std podFields node kernelID (.listPods ∅ (matchingFields d)) w =
      (.ok (w.cluster.pods.filter fun pod =>
        pod.name == d.objectMeta.annotations.get "pod-name" &&
        (pod.namespace_ == d.objectMeta.annotations.get "namespace" &&
          pod.nodeName == d.objectMeta.annotations.get "node-name")), w) := by
    simp only [handle, listPods_matchingFields_kiveData hf]
  induction traps generalizing found with
  | nil => simp [trapLoop]
  | cons t traps ih =>
    have htail : (if traps = [] then false else false) = false := by split_ifs <;> rfl
    rw [trapLoop, kiveDataTrapCmp_eq]
    by_cases ht : IsTrapOf std d t
    · rw [beq_iff_eq.mpr ht]
      dsimp only
      rw [Client.listPods, Prog.run_bind, Prog.run_perform, hlist]
      dsimp only
      by_cases hc : HasContainer w.cluster.pods d
      · rw [if_pos ((containerExists_filter_iff d w.cluster.pods).mpr hc),
          if_pos ⟨⟨t, List.mem_cons_self, ht⟩, hc⟩]
        rfl
      · have hno : ∀ l : List KiveTrap,
            ¬ ((∃ t ∈ l, IsTrapOf std d t) ∧ HasContainer w.cluster.pods d) := fun _ h => hc h.2
        rw [if_neg (fun h => hc ((containerExists_filter_iff d w.cluster.pods).mp h)), ih,
          if_neg (hno traps), if_neg (hno (t :: traps)), htail,
          if_neg (List.cons_ne_nil t traps)]
    · rw [beq_eq_false_iff_ne.mpr ht]
      dsimp only
      rw [ih, htail, if_neg (List.cons_ne_nil t traps)]
      have hiff : (∃ t' ∈ t :: traps, IsTrapOf std d t') ↔ ∃ t' ∈ traps, IsTrapOf std d t' := by
        simp [ht]
      simp only [hiff]

/-- The data reconciler finds a KiveData to be justified exactly when it is. -/
theorem run_policyLoop (hf : podFields.Standard) (d : KiveData) (w : World)
    (policies : List KivePolicy) :
    (policyLoop std d policies false).run (handle std podFields node kernelID) w =
      (decide (Justified std w.cluster.pods policies d), w) := by
  induction policies with
  | nil =>
    have hno : ¬ Justified std w.cluster.pods [] d := fun h => by
      obtain ⟨⟨p, hp, -⟩, -⟩ := h
      exact absurd hp List.not_mem_nil
    rw [decide_eq_false hno]
    rfl
  | cons p policies ih =>
    rw [policyLoop]
    by_cases hd : Deleting p
    · rw [if_pos (show p.objectMeta.deletionTimestamp = true from hd), ih]
      have hiff : Justified std w.cluster.pods (p :: policies) d ↔
          Justified std w.cluster.pods policies d := by
        simp [Justified, HasTrap, hd]
      rw [decide_eq_decide.mpr hiff]
    · rw [if_neg (show ¬ p.objectMeta.deletionTimestamp = true from hd), Prog.run_bind,
        run_trapLoop std node kernelID hf]
      by_cases hj : (∃ t ∈ p.spec.traps, IsTrapOf std d t) ∧ HasContainer w.cluster.pods d
      · have hjust : Justified std w.cluster.pods (p :: policies) d :=
          ⟨⟨p, List.mem_cons_self, hd, hj.1⟩, hj.2⟩
        rw [if_pos hj, decide_eq_true hjust]
        rfl
      · have hiff : Justified std w.cluster.pods (p :: policies) d ↔
            Justified std w.cluster.pods policies d := by
          constructor
          · rintro ⟨⟨q, hq, hqd, ht⟩, hc⟩
            rcases List.mem_cons.mp hq with rfl | hq
            · exact absurd ⟨ht, hc⟩ hj
            · exact ⟨⟨q, hq, hqd, ht⟩, hc⟩
          · rintro ⟨⟨q, hq, hqd, ht⟩, hc⟩
            exact ⟨⟨q, List.mem_cons_of_mem p hq, hqd, ht⟩, hc⟩
        rw [if_neg hj, decide_eq_decide.mpr hiff]
        have hfalse : (if p.spec.traps = [] then false else false) = false := by
          split_ifs <;> rfl
        rw [hfalse]
        exact ih

end Run

end Kive
