import KiveOperator.Controller.Calls

/-!
# The KiveData reconciler

`internal/controller/kivedata_controller.go`: the loader.  A run lists the KiveData of its
kernel, finalizes those that are being deleted, deletes those that no trap justifies any more
and puts the keys of the others into the eBPF map.
-/

namespace Kive

open Interaction

namespace KiveDataReconciler

/-- The labels of the KiveData of a kernel. -/
def kiveDataLabels (kernelID : String) : StrMap :=
  StrMap.ofEntries [(kernelIDLabel, kernelID)]

/-- The fields that select the pod recorded in a KiveData. -/
def matchingFields (kiveData : KiveData) : List (String × String) :=
  [("metadata.name", kiveData.objectMeta.annotations.get "pod-name"),
    ("metadata.namespace", kiveData.objectMeta.annotations.get "namespace"),
    ("spec.nodeName", kiveData.objectMeta.annotations.get "node-name")]

/-- Whether one of the listed pods has the recorded container. -/
def containerExists (kiveData : KiveData) (pods : List Pod) : Bool :=
  pods.any fun pod => pod.containerStatuses.any fun containerStatus =>
    kiveDataContainerCmp kiveData pod containerStatus

variable (std : Std)

/-- The loop over the traps of a policy.  The result is the value of `found` where the loop
ends, and whether it ends by `break Policy`. -/
def trapLoop (kiveData : KiveData) : List KiveTrap → Bool → CallProg (Bool × Bool)
  | [], found => return (found, false)
  | kiveTrap :: traps, _ =>
    match kiveDataTrapCmp std kiveData kiveTrap with
    | .error _ => trapLoop kiveData traps false
    | .ok false => trapLoop kiveData traps false
    | .ok true => do
      -- Check that the container exists
      match ← Client.listPods ∅ (matchingFields kiveData) with
      | .error _ => trapLoop kiveData traps true
      | .ok pods =>
        if containerExists kiveData pods then return (true, true)
        else trapLoop kiveData traps false

/-- The loop over the policies: whether the KiveData was found to be justified. -/
def policyLoop (kiveData : KiveData) : List KivePolicy → Bool → CallProg Bool
  | [], found => return found
  | kivePolicy :: policies, found =>
    if kivePolicy.objectMeta.deletionTimestamp then policyLoop kiveData policies found
    else do
      let (found, broke) ← trapLoop std kiveData kivePolicy.spec.traps found
      if broke then return found else policyLoop kiveData policies found

/-- What a run does with a KiveData that is being deleted and has the finalizer: it never gets
past it. -/
def finalize (kiveData : KiveData) : Pass Unit := do
  let _ ← Ebpf.removeInode kiveData.mapKey
  match ← Client.patchKiveData kiveData (removeFinalizer kiveData kiveDataFinalizerName) with
  | .error _ => Pass.exit requeue
  | .ok () => Pass.exit done

/-- What a run does with a KiveData without the finalizer: it never gets past it. -/
def claim (kiveData : KiveData) : Pass Unit := do
  match ← Client.patchKiveData kiveData (addFinalizer kiveData kiveDataFinalizerName) with
  | .error _ => Pass.exit requeue
  | .ok () => Pass.exit done

/-- What a run does with any other KiveData. -/
def judge (policies : List KivePolicy) (kiveData : KiveData) : CallProg Unit := do
  let found ← policyLoop std kiveData policies false
  if !found then
    let _ ← Client.deleteKiveData kiveData
    return ()
  else
    let _ ← Ebpf.addInode kiveData.mapKey
    return ()

/-- The loop over the KiveData. -/
def dataLoop (policies : List KivePolicy) : List KiveData → Pass Unit
  | [] => return ()
  | kiveData :: items => do
    if kiveData.objectMeta.deletionTimestamp then
      if containsFinalizer kiveData kiveDataFinalizerName then finalize kiveData
    else if !containsFinalizer kiveData kiveDataFinalizerName then claim kiveData
    else judge std policies kiveData
    dataLoop policies items

/-- Load the eBPF program where that has not been done.  The goroutine that outputs the alerts
takes no part in reconciling. -/
def ensureLoaded : Pass Unit := do
  if !(← Ebpf.loaded) then
    match ← Ebpf.loadEbpf with
    | .error err => Pass.exit (.error ("Reconcile Error Load eBPF program: " ++ err))
    | .ok () => return ()

/-- One run of the reconciler. -/
def reconcile (kernelID : String) : CallProg Outcome := Pass.toProg do
  ensureLoaded
  match ← Client.listKiveData .cached (kiveDataLabels kernelID) with
  | .error err => return .error ("Reconcile Error Failed to get Kive Data resource: " ++ err)
  | .ok kiveDataList =>
    match ← Client.listKivePolicies .cached with
    | .error err => return .error ("Reconcile Error Failed to get KivePolicy resource: " ++ err)
    | .ok kivePolicyList =>
      dataLoop std kivePolicyList kiveDataList
      return done

end KiveDataReconciler

end Kive
