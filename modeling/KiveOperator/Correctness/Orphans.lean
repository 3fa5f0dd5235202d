import KiveOperator.Controller.PodCalls
import KiveOperator.Controller.DataRun

/-!
# KiveData without a pod

A pod pass deletes the KiveData of its own kernel whose pod is not in the list.  It leaves those
of other kernels, though it is the only one in the cluster, and those whose pod has terminated.
`noOrphans_iff` says when none are left.
-/

namespace Kive

open Interaction KivePodReconciler

/-- A pod that has come to its end. -/
def Terminated (pod : Pod) : Prop :=
  pod.phase = .succeeded ∨ pod.phase = .failed

instance (pod : Pod) : Decidable (Terminated pod) :=
  inferInstanceAs (Decidable (_ ∨ _))

/-- The KiveData refers to a pod that exists and has not terminated. -/
def Backed (pods : List Pod) (d : KiveData) : Prop :=
  ∃ pod ∈ pods, isRecordedPod d pod = true ∧ ¬ Terminated pod

instance (pods : List Pod) (d : KiveData) : Decidable (Backed pods d) :=
  inferInstanceAs (Decidable (∃ pod ∈ pods, _))

/-- A run that made the given calls leaves every KiveData that is not being deleted with a pod,
and deletes none that had one. -/
structure NoOrphans (w w' : World) (events : List (Sigma Call.Answer)) : Prop where
  kept : ∀ d ∈ w'.cluster.kiveData.items, ¬ Deleting d → Backed w'.cluster.pods d
  spared : ∀ d ∈ w.cluster.kiveData.items, Backed w.cluster.pods d →
    d ∉ deletedBy events ∧ (¬ Deleting d → d ∈ w'.cluster.kiveData.items)

/-- Every KiveData that is not being deleted and is of another kernel, or refers to a pod at all,
refers to one that has not terminated. -/
def OrphansInReach (kernelID : String) (w : World) : Prop :=
  ∀ d ∈ w.cluster.kiveData.items, ¬ Deleting d →
    (¬ OfKernel kernelID d ∨ ∃ pod ∈ w.cluster.pods, isRecordedPod d pod = true) →
      Backed w.cluster.pods d

section Run

variable (std : Std) (podFields : PodFields) (node kernelID : String) (w : World)

/-- The KiveData that a pod pass leaves: those that it does not list, and those that refer to a
pod. -/
lemma mem_run_podReconcile {y : KiveData} :
    y ∈ ((reconcile kernelID).run (handle std podFields node kernelID)
        w).2.cluster.kiveData.items ∧ ¬ Deleting y ↔
      y ∈ w.cluster.kiveData.items ∧ ¬ Deleting y ∧
        (¬ OfKernel kernelID y ∨ ∃ pod ∈ w.cluster.pods, isRecordedPod y pod = true) := by
  rw [(run_podReconcile std podFields node kernelID w).1, mem_deleteAll_and_not_deleting]
  refine and_congr_right fun hy => and_congr_right fun _ => ?_
  rw [listKiveData_kiveDataLabels]
  constructor
  · intro h
    by_contra hnot
    push Not at hnot
    obtain ⟨hkernel, hnone⟩ := hnot
    refine h y (mem_unclaimed.mpr ⟨?_, fun pod hpod => ?_⟩) rfl
    · exact List.mem_filter.mpr ⟨hy, decide_eq_true hkernel⟩
    · exact Bool.eq_false_iff.mpr (hnone pod hpod)
  · intro h d hd hkey
    obtain ⟨hlisted, hnone⟩ := mem_unclaimed.mp hd
    obtain ⟨hstored, hkernel⟩ := List.mem_filter.mp hlisted
    obtain rfl := Store.eq_of_keyOf_eq hy hstored hkey
    rcases h with hother | ⟨pod, hpod, hrefers⟩
    · exact hother (of_decide_eq_true hkernel)
    · exact absurd ((hnone pod hpod).symm.trans hrefers) (by simp)

/-- After a run of the pod reconciler every KiveData that is not being deleted refers to a pod
that has not terminated, and none that refers to such a pod was deleted, if and only if before
the run this held of those of other kernels and of those that refer to some pod. -/
theorem noOrphans_iff :
    NoOrphans w
        ((reconcile kernelID).run (handle std podFields node kernelID) w).2
        ((reconcile kernelID).events (handle std podFields node kernelID) w) ↔
      OrphansInReach kernelID w := by
  obtain ⟨-, hpods, hdeleted⟩ := run_podReconcile std podFields node kernelID w
  constructor
  · intro h d hd hlive hreach
    have hstays := (mem_run_podReconcile std podFields node kernelID w).mpr ⟨hd, hlive, hreach⟩
    exact hpods ▸ h.kept d hstays.1 hlive
  · intro h
    refine ⟨fun d hd hlive => ?_, fun d hd hbacked => ⟨?_, fun hlive => ?_⟩⟩
    · obtain ⟨hstored, -, hreach⟩ :=
        (mem_run_podReconcile std podFields node kernelID w).mp ⟨hd, hlive⟩
      exact hpods.symm ▸ h d hstored hlive hreach
    · obtain ⟨pod, hpod, hrefers, -⟩ := hbacked
      rw [hdeleted]
      intro hgone
      exact absurd (((mem_unclaimed.mp hgone).2 pod hpod).symm.trans hrefers) (by simp)
    · obtain ⟨pod, hpod, hrefers, -⟩ := hbacked
      exact ((mem_run_podReconcile std podFields node kernelID w).mpr
        ⟨hd, hlive, Or.inr ⟨pod, hpod, hrefers⟩⟩).1

end Run

/-! ## A failed pod and another kernel -/

namespace Orphans

/-- The KiveData of a container of a pod, found on a kernel. -/
def kiveData (name kernelID podName podIP : String) : KiveData where
  objectMeta :=
    { name := name
      namespace_ := operatorNamespace
      annotations := StrMap.ofEntries
        [("pod-name", podName), ("namespace", "default"), ("pod-ip", podIP)]
      labels := StrMap.ofEntries [(kernelIDLabel, kernelID)]
      finalizers := [kiveDataFinalizerName] }
  spec := { inodeNo := 7, devID := 1 }

/-- A pod that has failed. -/
def web : Pod where
  name := "web"
  namespace_ := "default"
  nodeName := "n1"
  podIP := "10.0.0.1"
  phase := .failed
  containerStatuses := []

/-- A cluster with that pod, its KiveData, and one of a pod that is gone from another kernel. -/
def world : World where
  cluster :=
    { kivePolicies := .empty
      kiveData := .ofList
        [kiveData "7-1-kive-data-web-aa" "k1" "web" "10.0.0.1",
          kiveData "7-1-kive-data-db-bb" "k2" "db" "10.0.0.2"]
      pods := [web] }
  hosts _ := .empty
  kernels _ := {}
  clock := 0

end Orphans

open Orphans in
/-- The pod reconciler on the first kernel leaves both KiveData, and neither has a pod that is
still to run. -/
theorem noOrphans_counterexample :
    (∀ d ∈ ((reconcile "k1").run (handle (Std.ofDigests []) PodFields.standard "n1" "k1")
        world).2.cluster.kiveData.items, ¬ Deleting d ∧ ¬ Backed [web] d) ∧
    ((reconcile "k1").run (handle (Std.ofDigests []) PodFields.standard "n1" "k1")
        world).2.cluster.kiveData.items.length = 2 ∧
    ¬ NoOrphans world
      ((reconcile "k1").run (handle (Std.ofDigests []) PodFields.standard "n1" "k1") world).2
      ((reconcile "k1").events (handle (Std.ofDigests []) PodFields.standard "n1" "k1") world) := by
  have hleft : ∀ d ∈ ((reconcile "k1").run (handle (Std.ofDigests []) PodFields.standard "n1" "k1")
      world).2.cluster.kiveData.items, ¬ Deleting d ∧ ¬ Backed [web] d := by decide +kernel
  have hlength : ((reconcile "k1").run (handle (Std.ofDigests []) PodFields.standard "n1" "k1")
      world).2.cluster.kiveData.items.length = 2 := by decide +kernel
  refine ⟨hleft, hlength, fun h => ?_⟩
  obtain ⟨d, hd⟩ := List.exists_mem_of_length_pos (hlength ▸ Nat.two_pos)
  exact (hleft d hd).2 (h.kept d hd (hleft d hd).1)

end Kive
