import Mathlib.Data.Finmap

/-!
# The resources of the operator

The Go types of `api/v2alpha1` (`KiveTrap`, `KivePolicy`, `KiveData`, `KiveAlert`) and the part
of the Kubernetes types `ObjectMeta`, `Pod` and `ContainerStatus` that the controllers read.

A Go `map[string]string` is a finite map.  A nil map and an empty one are the same value here:
the code reads both alike.
-/

namespace Kive

/-- A Go `map[string]string`. -/
abbrev StrMap := Finmap fun _ : String => String

/-- The Go expression `m[k]`: the empty string stands for an absent key. -/
def StrMap.get (m : StrMap) (k : String) : String :=
  (m.lookup k).getD ""

/-- The map literal with the given entries, a later entry replacing an earlier one. -/
def StrMap.ofEntries (l : List (String × String)) : StrMap :=
  l.foldl (fun m e => m.insert e.1 e.2) ∅

/-! ## Object metadata -/

/-- The part of `metav1.ObjectMeta` that the controllers and the API server use. -/
structure ObjectMeta where
  name : String
  namespace_ : String
  /-- The identity that the API server gives an object when it is created. -/
  uid : ℕ := 0
  labels : StrMap := ∅
  annotations : StrMap := ∅
  finalizers : List String := []
  /-- Whether `DeletionTimestamp` is set; the code only asks `IsZero()`. -/
  deletionTimestamp : Bool := false
  /-- The `spec.metadata` entries that the operator's last server-side apply listed.  The
  annotation and label keys that it lists are always the same, so ownership of the others never
  decides anything. -/
  managedFields : StrMap := ∅
  deriving DecidableEq

/-- Objects of one kind are told apart by namespace and name. -/
def ObjectMeta.key (m : ObjectMeta) : String × String :=
  (m.namespace_, m.name)

/-! ## Policies and traps -/

/-- Match all the set fields (logical AND). -/
structure KiveTrapMatch where
  podName : String := ""
  containerName : String := ""
  namespace_ : String := ""
  ip : String := ""
  matchLabels : StrMap := ∅
  deriving DecidableEq

/-- A file to monitor and where to look for it. -/
structure KiveTrap where
  path : String := ""
  create : Bool := false
  mode : UInt32 := 0
  callback : String := ""
  metadata : StrMap := ∅
  /-- Match any of the following items (logical OR). -/
  matchAny : List KiveTrapMatch := []
  deriving DecidableEq

structure KivePolicySpec where
  alertVersion : String := ""
  traps : List KiveTrap := []
  deriving DecidableEq

structure KivePolicy where
  objectMeta : ObjectMeta
  spec : KivePolicySpec
  deriving DecidableEq

/-! ## KiveData -/

structure KiveDataSpec where
  inodeNo : UInt64
  devID : UInt32
  metadata : StrMap := ∅
  deriving DecidableEq

structure KiveData where
  objectMeta : ObjectMeta
  spec : KiveDataSpec
  deriving DecidableEq

/-! ## Pods -/

inductive PodPhase where
  | pending
  | running
  | succeeded
  | failed
  | unknown
  deriving DecidableEq

structure ContainerStatus where
  name : String
  containerID : String
  ready : Bool
  deriving DecidableEq

/-- The fields of a pod that the controllers read, those of `metadata`, `spec` and `status`
side by side. -/
structure Pod where
  name : String
  namespace_ : String
  labels : StrMap := ∅
  nodeName : String
  podIP : String
  phase : PodPhase
  containerStatuses : List ContainerStatus
  deriving DecidableEq

/-! ## Alerts -/

/-- The alert versions that the operator knows. -/
def supportedKiveAlertVersions : List String :=
  ["v1", "v2alpha1"]

structure ContainerMetadata where
  id : String
  name : String
  deriving DecidableEq

structure PodMetadata where
  name : String
  namespace_ : String
  ip : String
  container : ContainerMetadata
  deriving DecidableEq

structure NodeMetadata where
  name : String
  deriving DecidableEq

structure ProcessMetadata where
  pid : Int32
  tgid : UInt32
  uid : UInt32
  gid : UInt32
  binary : List UInt8
  cwd : String
  arguments : String
  deriving DecidableEq

structure KiveAlertMetadata where
  path : String
  inode : UInt64
  mask : Int32
  kernelID : String
  callback : String
  deriving DecidableEq

/-- A file access alert. -/
structure KiveAlert where
  alertVersion : String
  policyName : String
  timestamp : String
  metadata : KiveAlertMetadata
  customMetadata : StrMap
  pod : PodMetadata
  node : NodeMetadata
  process : ProcessMetadata
  deriving DecidableEq

end Kive
