import KiveOperator.Cluster.World
import KiveOperator.Controller.KivePod

/-!
# What a pod pass does

`only_podReconcile` lists the requests that a pod pass can make.  `run_podReconcile` says which
KiveData it deletes and what it leaves in the store.
-/

namespace Kive

open Interaction KivePodReconciler

/-! ## The requests -/

/-- The calls of a pod pass. -/
def PodCall (kernelID : String) : Call → Prop
  | .listKivePolicies reader => reader = .uncached
  | .listKiveData reader labels =>
    reader = .uncached ∧ labels = KiveDataReconciler.kiveDataLabels kernelID
  | .listPods labels fields => labels = ∅ ∧ fields = []
  | .patchKivePolicy orig modified => ∃ time, modified = annotate orig "force-reconcile" time
  | .patchKiveData _ _ => False
  | .applyKiveData _ _ => False
  | .deleteKiveData _ => True
  | .getContainerData _ => False
  | .ebpfLoaded => False
  | .loadEbpf => False
  | .addInode _ => False
  | .removeInode _ => False
  | .now => True

/-- The requests of the loop over the KiveData. -/
lemma only_podDataLoop (kernelID : String) (pods : List Pod) (items : List KiveData)
    (flag : Bool) : (dataLoop pods items flag).Only (PodCall kernelID) := by
  induction items generalizing flag with
  | nil => trivial
  | cons d items ih =>
    rw [dataLoop]
    cases pods.find? (isRecordedPod d) with
    | some pod => exact ih _
    | none => exact ⟨trivial, fun _ => ih flag⟩

/-- The requests that wake the policy reconciler. -/
lemma only_triggerKivePolicy (kernelID : String) (flag : Bool) :
    (triggerKivePolicy flag).Only (PodCall kernelID) := by
  refine ⟨rfl, fun answer => ?_⟩
  cases answer with
  | error err => trivial
  | ok policies =>
    cases policies with
    | nil => trivial
    | cons p policies => exact ⟨trivial, fun time => ⟨⟨time, rfl⟩, fun _ => trivial⟩⟩

/-- The calls of a pod pass are those of `PodCall`. -/
theorem only_podReconcile (kernelID : String) :
    (KivePodReconciler.reconcile kernelID).Only (PodCall kernelID) := by
  refine ⟨⟨rfl, rfl⟩, fun answer => ?_⟩
  cases answer with
  | error err => trivial
  | ok items =>
    refine ⟨⟨rfl, rfl⟩, fun answer => ?_⟩
    cases answer with
    | error err => trivial
    | ok pods =>
      exact (only_podDataLoop kernelID pods items false).bind fun flag =>
        only_triggerKivePolicy kernelID flag

/-! ## The deletions -/

/-- The KiveData whose recorded pod is not in the list. -/
def unclaimed (pods : List Pod) (items : List KiveData) : List KiveData :=
  items.filter fun d => (pods.find? (isRecordedPod d)).isNone

/-- Which KiveData have no pod. -/
lemma mem_unclaimed {pods : List Pod} {items : List KiveData} {d : KiveData} :
    d ∈ unclaimed pods items ↔ d ∈ items ∧ ∀ pod ∈ pods, isRecordedPod d pod = false := by
  simp [unclaimed]

/-- The loop takes the KiveData one by one. -/
lemma unclaimed_cons (pods : List Pod) (d : KiveData) (items : List KiveData) :
    unclaimed pods (d :: items) =
      match pods.find? (isRecordedPod d) with
      | some _ => unclaimed pods items
      | none => d :: unclaimed pods items := by
  unfold unclaimed
  cases h : pods.find? (isRecordedPod d) with
  | some pod => rw [List.filter_cons_of_neg (by simp [h])]
  | none => rw [List.filter_cons_of_pos (by simp [h])]

/-- The KiveData for which a deletion was requested. -/
def deletedBy (events : List (Sigma Call.Answer)) : List KiveData :=
  events.filterMap fun e => match e.1 with
    | .deleteKiveData kiveData => some kiveData
    | _ => none

/-- The deletions of two stretches of calls. -/
@[simp] lemma deletedBy_append (l l' : List (Sigma Call.Answer)) :
    deletedBy (l ++ l') = deletedBy l ++ deletedBy l' :=
  List.filterMap_append

/-- Delete some KiveData one after the other. -/
def deleteAll (s : Store KiveData) (ds : List KiveData) : Store KiveData :=
  ds.foldl (fun s d => (s.delete (keyOf d)).2) s

/-- Among the KiveData that are not being deleted, deletions take away those with their keys. -/
lemma mem_deleteAll_and_not_deleting {s : Store KiveData} {ds : List KiveData} {y : KiveData} :
    y ∈ (deleteAll s ds).items ∧ ¬ Deleting y ↔
      y ∈ s.items ∧ ¬ Deleting y ∧ ∀ d ∈ ds, keyOf y ≠ keyOf d := by
  induction ds generalizing s with
  | nil => simp [deleteAll]
  | cons d ds ih =>
    rw [show deleteAll s (d :: ds) = deleteAll (s.delete (keyOf d)).2 ds from rfl, ih,
      ← and_assoc, Store.mem_delete_and_not_deleting, List.forall_mem_cons]
    simp only [and_assoc]

section Run

variable (std : Std) (podFields : PodFields) (node kernelID : String)

/-- The loop deletes the KiveData whose pod is not there. -/
lemma run_podDataLoop (pods : List Pod) (items : List KiveData) (flag : Bool) (w : World) :
    ((dataLoop pods items flag).run (handle std podFields node kernelID) w).2 =
        w.setKiveData (deleteAll w.cluster.kiveData (unclaimed pods items)) ∧
      deletedBy ((dataLoop pods items flag).events (handle std podFields node kernelID) w) =
        unclaimed pods items := by
  induction items generalizing flag w with
  | nil => exact ⟨rfl, rfl⟩
  | cons d items ih =>
    rw [dataLoop, unclaimed_cons]
    cases hfind : pods.find? (isRecordedPod d) with
    | some pod => exact ih _ w
    | none =>
      obtain ⟨hrun, hdeleted⟩ :=
        ih flag (handle std podFields node kernelID (.deleteKiveData d) w).2
      exact ⟨hrun, congrArg (d :: ·) hdeleted⟩

/-- The request that wakes the policy reconciler changes no KiveData and no pod. -/
lemma run_triggerKivePolicy (flag : Bool) (w : World) :
    (((triggerKivePolicy flag).run (handle std podFields node kernelID) w).2.cluster.kiveData =
        w.cluster.kiveData ∧
      ((triggerKivePolicy flag).run (handle std podFields node kernelID) w).2.cluster.pods =
        w.cluster.pods) ∧
      deletedBy ((triggerKivePolicy flag).events (handle std podFields node kernelID) w) = [] := by
  simp only [triggerKivePolicy, Client.listKivePolicies, Prog.perform_bind, Prog.run_call,
    Prog.events_call, handle]
  cases w.cluster.kivePolicies.items <;> exact ⟨⟨rfl, rfl⟩, rfl⟩

/-- What a pod pass does to the KiveData of the cluster. -/
theorem run_podReconcile (w : World) :
    let r := (KivePodReconciler.reconcile kernelID).run (handle std podFields node kernelID) w
    let gone := unclaimed w.cluster.pods
      (listKiveData (KiveDataReconciler.kiveDataLabels kernelID) w.cluster.kiveData.items)
    r.2.cluster.kiveData = deleteAll w.cluster.kiveData gone ∧
      r.2.cluster.pods = w.cluster.pods ∧
      deletedBy ((KivePodReconciler.reconcile kernelID).events
        (handle std podFields node kernelID) w) = gone := by
  intro r gone
  have hall := listPods_empty podFields w.cluster.pods
  set items := listKiveData (KiveDataReconciler.kiveDataLabels kernelID) w.cluster.kiveData.items
  have hprog : r = (do
        let flag ← dataLoop w.cluster.pods items false
        triggerKivePolicy flag : CallProg Outcome).run (handle std podFields node kernelID) w ∧
      deletedBy ((KivePodReconciler.reconcile kernelID).events
          (handle std podFields node kernelID) w) =
        deletedBy ((do
          let flag ← dataLoop w.cluster.pods items false
          triggerKivePolicy flag : CallProg Outcome).events
            (handle std podFields node kernelID) w) := by
    simp only [r, KivePodReconciler.reconcile, Client.listKiveData, Client.listPods,
      Prog.perform_bind, Prog.run_call, Prog.events_call, handle, hall]
    exact ⟨rfl, rfl⟩
  obtain ⟨hrun, hdeleted⟩ :=
    run_podDataLoop std podFields node kernelID w.cluster.pods items false w
  obtain ⟨⟨hdata, hpods⟩, hnone⟩ := run_triggerKivePolicy std podFields node kernelID
    ((dataLoop w.cluster.pods items false).run (handle std podFields node kernelID) w).1
    ((dataLoop w.cluster.pods items false).run (handle std podFields node kernelID) w).2
  rw [hprog.1, hprog.2, Prog.run_bind, Prog.events_bind, deletedBy_append, hdeleted, hnone,
    hdata, hpods, hrun, List.append_nil]
  exact ⟨rfl, rfl, rfl⟩

end Run

end Kive
