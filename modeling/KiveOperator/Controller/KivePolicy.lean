import KiveOperator.Controller.Calls

/-!
# The KivePolicy reconciler

`internal/controller/kivepolicy_controller.go`: the discover controller.  A run looks for the
files of all traps of all policies in the matched containers and applies a KiveData for each
file found on its node.
-/

namespace Kive

open Interaction

/-- The object with one annotation set. -/
def annotate {α : Type} [Object α] (x : α) (key value : String) : α :=
  Object.withMeta x { Object.objectMeta x with
    annotations := (Object.objectMeta x).annotations.insert key value }

namespace KivePolicyReconciler

/-- The fields that select the pods of a match group. -/
def matchingFields (kiveTrapMatch : KiveTrapMatch) : List (String × String) :=
  (if kiveTrapMatch.podName ≠ "" then [("metadata.name", kiveTrapMatch.podName)] else []) ++
  (if kiveTrapMatch.namespace_ ≠ "" then [("metadata.namespace", kiveTrapMatch.namespace_)]
    else []) ++
  (if kiveTrapMatch.ip ≠ "" then [("metadata.podIP", kiveTrapMatch.ip)] else [])

/-- The string under which a trap remembers a container. -/
def matchID (pod : Pod) (containerStatus : ContainerStatus) : String :=
  pod.name ++ pod.namespace_ ++ containerStatus.name

/-- The KiveData of a file that was found. -/
def newKiveData (kernelID trapID : String) (site : Site) (containerData : ContainerData) :
    KiveData where
  objectMeta :=
    { name := newKiveDataName containerData.ino containerData.devID site.pod site.container
      namespace_ := operatorNamespace
      annotations := StrMap.ofEntries
        [("kive-alert-version", site.policy.spec.alertVersion),
          ("kive-policy-name", site.policy.objectMeta.name),
          ("callback", site.trap.callback),
          ("pod-name", site.pod.name),
          ("namespace", site.pod.namespace_),
          ("pod-ip", site.pod.podIP),
          ("path", site.trap.path),
          ("container-id", containerData.id),
          ("container-name", containerData.name),
          ("node-name", site.pod.nodeName)]
      labels := StrMap.ofEntries [(trapIDLabel, trapID), (kernelIDLabel, kernelID)]
      finalizers := [kiveDataFinalizerName] }
  spec :=
    { inodeNo := containerData.ino
      devID := containerData.devID
      -- the range loop copies every pair
      metadata := site.trap.metadata }

variable (std : Std) (kernelID : String)

/-- The body of the loop over the containers of a pod; `matched` holds the strings of the
containers that the trap has been given already. -/
def containerStep (kivePolicy : KivePolicy) (kiveTrap : KiveTrap) (trapID : String)
    (kiveTrapMatch : KiveTrapMatch) (pod : Pod) (containerStatus : ContainerStatus)
    (matched : List String) : Pass (List String) :=
  match regexMatch std kiveTrapMatch.containerName containerStatus.name with
  | .error _ => return matched
  | .ok false => return matched
  | .ok true =>
    if pod.phase ≠ .running then Pass.exit requeue
    else if matchID pod containerStatus ∈ matched then return matched
    else do
      let site : Site := ⟨kivePolicy, kiveTrap, pod, containerStatus⟩
      let matched := matchID pod containerStatus :: matched
      match ← Container.getContainerData site with
      | .error _ => return matched
      | .ok containerData =>
        if containerData.shouldRequeue then Pass.exit requeue
        else if !containerData.isFound then return matched
        else
          -- a failed apply is logged and skipped
          let _ ← Client.applyKiveData site (newKiveData kernelID trapID site containerData)
          return matched

/-- The loop over the containers of a pod. -/
def containerLoop (kivePolicy : KivePolicy) (kiveTrap : KiveTrap) (trapID : String)
    (kiveTrapMatch : KiveTrapMatch) (pod : Pod) :
    List ContainerStatus → List String → Pass (List String)
  | [], matched => return matched
  | containerStatus :: containers, matched => do
    let matched ← containerStep std kernelID kivePolicy kiveTrap trapID kiveTrapMatch pod
      containerStatus matched
    containerLoop kivePolicy kiveTrap trapID kiveTrapMatch pod containers matched

/-- The loop over the pods of a match group. -/
def podLoop (kivePolicy : KivePolicy) (kiveTrap : KiveTrap) (trapID : String)
    (kiveTrapMatch : KiveTrapMatch) : List Pod → List String → Pass (List String)
  | [], matched => return matched
  | pod :: pods, matched => do
    let matched ← containerLoop std kernelID kivePolicy kiveTrap trapID kiveTrapMatch pod
      pod.containerStatuses matched
    podLoop kivePolicy kiveTrap trapID kiveTrapMatch pods matched

/-- The loop over the match groups of a trap. -/
def matchLoop (kivePolicy : KivePolicy) (kiveTrap : KiveTrap) (trapID : String) :
    List KiveTrapMatch → List String → Pass (List String)
  | [], matched => return matched
  | kiveTrapMatch :: groups, matched => do
    match ← Client.listPods kiveTrapMatch.matchLabels (matchingFields kiveTrapMatch) with
    | .error _ => matchLoop kivePolicy kiveTrap trapID groups matched
    | .ok pods =>
      let matched ← podLoop std kernelID kivePolicy kiveTrap trapID kiveTrapMatch pods matched
      matchLoop kivePolicy kiveTrap trapID groups matched

/-- The body of the loop over the traps of a policy. -/
def trapStep (kivePolicy : KivePolicy) (kiveTrap : KiveTrap) : Pass Unit :=
  match kiveTrapHashID std kiveTrap kivePolicy.spec.alertVersion with
  | .error _ => return ()
  | .ok trapID => do
    let _ ← matchLoop std kernelID kivePolicy kiveTrap trapID kiveTrap.matchAny []
    return ()

/-- The loop over the traps of a policy. -/
def trapLoop (kivePolicy : KivePolicy) : List KiveTrap → Pass Unit
  | [] => return ()
  | kiveTrap :: traps => do
    trapStep std kernelID kivePolicy kiveTrap
    trapLoop kivePolicy traps

/-- Patch the finalizers of a policy and return. -/
def patchFinalizers (kivePolicy kivePolicyCopy : KivePolicy) : Pass Unit := do
  match ← Client.patchKivePolicy kivePolicy kivePolicyCopy with
  | .error _ => Pass.exit requeue
  | .ok () => Pass.exit done

/-- The body of the loop over the policies. -/
def policyStep (kivePolicy : KivePolicy) : Pass Unit :=
  if kivePolicy.objectMeta.deletionTimestamp then
    if containsFinalizer kivePolicy kivePolicyFinalizerName then
      patchFinalizers kivePolicy (removeFinalizer kivePolicy kivePolicyFinalizerName)
    else return ()
  else if !containsFinalizer kivePolicy kivePolicyFinalizerName then
    patchFinalizers kivePolicy (addFinalizer kivePolicy kivePolicyFinalizerName)
  else trapLoop std kernelID kivePolicy kivePolicy.spec.traps

/-- The loop over the policies. -/
def policyLoop : List KivePolicy → Pass Unit
  | [] => return ()
  | kivePolicy :: policies => do
    policyStep std kernelID kivePolicy
    policyLoop policies

/-- Force a reconciliation for KiveData, by updating an annotation of the first one with the
current time. -/
def triggerKiveData : Pass Outcome := do
  match ← Client.listKiveData .uncached ∅ with
  | .error err => return .error ("Reconcile Error Failed to get KiveData resource: " ++ err)
  | .ok [] => return done
  | .ok (kiveData :: _) =>
    let time ← Time.now
    let _ ← Client.patchKiveData kiveData (annotate kiveData "force-reconcile" time)
    return done

/-- One run of the reconciler. -/
def reconcile : CallProg Outcome := Pass.toProg do
  match ← Client.listKivePolicies .uncached with
  | .error err => return .error ("Reconcile Error Failed to get KivePolicy resource: " ++ err)
  | .ok kivePolicyList =>
    policyLoop std kernelID kivePolicyList
    triggerKiveData

end KivePolicyReconciler

end Kive
