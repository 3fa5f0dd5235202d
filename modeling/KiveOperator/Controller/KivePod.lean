import KiveOperator.Controller.KiveData
import KiveOperator.Controller.KivePolicy

/-!
# The pod reconciler

`internal/controller/kivepod_controller.go`: deletes the KiveData whose pod is gone and wakes
the policy reconciler for new pods.
-/

namespace Kive

open Interaction

namespace KivePodReconciler

/-- Whether a pod is the one recorded in a KiveData. -/
def isRecordedPod (kiveData : KiveData) (pod : Pod) : Bool :=
  kiveData.objectMeta.annotations.get "pod-name" == pod.name &&
  kiveData.objectMeta.annotations.get "namespace" == pod.namespace_ &&
  kiveData.objectMeta.annotations.get "pod-ip" == pod.podIP

/-- The loop over the KiveData; the flag is `shouldRequeue`. -/
def dataLoop (pods : List Pod) : List KiveData → Bool → CallProg Bool
  | [], shouldRequeue => return shouldRequeue
  | kiveData :: items, shouldRequeue =>
    match pods.find? (isRecordedPod kiveData) with
    | some pod =>
      dataLoop pods items
        (shouldRequeue || (pod.phase ≠ .succeeded && pod.phase ≠ .failed))
    | none => do
      let _ ← Client.deleteKiveData kiveData
      dataLoop pods items shouldRequeue

/-- Trigger a KivePolicy reconciliation, by updating an annotation of the first policy with the
current time. -/
def triggerKivePolicy (shouldRequeue : Bool) : CallProg Outcome := do
  match ← Client.listKivePolicies .uncached with
  | .error err => return .error ("Reconcile Error Failed to get Kive Policy resource: " ++ err)
  | .ok [] => return .ok { requeue := shouldRequeue }
  | .ok (kivePolicy :: _) =>
    let time ← Time.now
    let _ ← Client.patchKivePolicy kivePolicy (annotate kivePolicy "force-reconcile" time)
    return .ok { requeue := shouldRequeue }

/-- One run of the reconciler. -/
def reconcile (kernelID : String) : CallProg Outcome := do
  match ← Client.listKiveData .uncached (KiveDataReconciler.kiveDataLabels kernelID) with
  | .error err => return .error ("Reconcile Error Failed to get KiveData resource: " ++ err)
  | .ok kiveDataList =>
    match ← Client.listPods ∅ [] with
    | .error err => return .error ("Reconcile Error Failed to get PodList resource: " ++ err)
    | .ok podList =>
      let shouldRequeue ← dataLoop podList kiveDataList false
      triggerKivePolicy shouldRequeue

end KivePodReconciler

end Kive
