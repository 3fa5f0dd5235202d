import KiveOperator.Api.Types

/-!
# Conversion between the API versions

`api/v1/kivepolicy_conversion.go` and `api/v1/kivedata_conversion.go`.  The version v2alpha1 is
the hub, which is stored and which the controllers use; v1 is converted from and to it.

The conversion of policies turns absent maps and lists into empty ones, so the types of this file
tell nil from empty.  `V2alpha1.KivePolicy.toKivePolicy` forgets the difference and gives the
policy as the controllers read it.
-/

namespace Kive

/-- A Go map of strings, nil or not. -/
abbrev GoMap := Option StrMap

/-- The entries of a map; nil has none. -/
def GoMap.entries (m : GoMap) : StrMap := m.getD ∅

/-- A Go slice, nil or not. -/
abbrev GoSlice (α : Type) := Option (List α)

/-- The elements of a slice; nil has none. -/
def GoSlice.elems {α : Type} (s : GoSlice α) : List α := s.getD []

@[simp] lemma GoMap.entries_some (m : StrMap) : GoMap.entries (some m) = m := rfl

/-- The elements of a slice that is there. -/
@[simp] lemma GoSlice.elems_some {α : Type} (l : List α) : GoSlice.elems (some l) = l := rfl

/-! ## The two versions -/

namespace V2alpha1

structure KiveTrapMatch where
  podName : String := ""
  containerName : String := ""
  namespace_ : String := ""
  ip : String := ""
  matchLabels : GoMap := none
  deriving DecidableEq

structure KiveTrap where
  path : String := ""
  create : Bool := false
  mode : UInt32 := 0
  callback : String := ""
  metadata : GoMap := none
  matchAny : GoSlice KiveTrapMatch := none
  deriving DecidableEq

structure KivePolicySpec where
  alertVersion : String := ""
  traps : GoSlice KiveTrap := none
  deriving DecidableEq

structure KivePolicy where
  objectMeta : ObjectMeta
  spec : KivePolicySpec := {}
  deriving DecidableEq

/-- The match group as the controllers read it. -/
def KiveTrapMatch.toKiveTrapMatch (m : KiveTrapMatch) : Kive.KiveTrapMatch where
  podName := m.podName
  containerName := m.containerName
  namespace_ := m.namespace_
  ip := m.ip
  matchLabels := m.matchLabels.entries

/-- The trap as the controllers read it. -/
def KiveTrap.toKiveTrap (t : KiveTrap) : Kive.KiveTrap where
  path := t.path
  create := t.create
  mode := t.mode
  callback := t.callback
  metadata := t.metadata.entries
  matchAny := t.matchAny.elems.map KiveTrapMatch.toKiveTrapMatch

/-- The policy as the controllers read it. -/
def KivePolicy.toKivePolicy (p : KivePolicy) : Kive.KivePolicy where
  objectMeta := p.objectMeta
  spec :=
    { alertVersion := p.spec.alertVersion
      traps := p.spec.traps.elems.map KiveTrap.toKiveTrap }

end V2alpha1

namespace V1

structure KiveTrapMatch where
  podName : String := ""
  containerName : String := ""
  namespace_ : String := ""
  ip : String := ""
  matchLabels : GoMap := none
  deriving DecidableEq

structure KiveTrap where
  path : String := ""
  create : Bool := false
  mode : UInt32 := 0
  callback : String := ""
  metadata : GoMap := none
  matchAny : GoSlice KiveTrapMatch := none
  deriving DecidableEq

structure KivePolicySpec where
  alertVersion : String := ""
  traps : GoSlice KiveTrap := none
  deriving DecidableEq

structure KivePolicy where
  objectMeta : ObjectMeta
  spec : KivePolicySpec := {}
  deriving DecidableEq

structure KiveDataSpec where
  inodeNo : UInt64 := 0
  devID : UInt32 := 0
  metadata : StrMap := ∅
  deriving DecidableEq

structure KiveData where
  objectMeta : ObjectMeta
  spec : KiveDataSpec := {}
  deriving DecidableEq

/-! ## Conversion of policies -/

/-- The loop over the match groups, towards the hub. -/
def KiveTrapMatch.toV2alpha1 (m : KiveTrapMatch) : V2alpha1.KiveTrapMatch where
  podName := m.podName
  containerName := m.containerName
  namespace_ := m.namespace_
  ip := m.ip
  matchLabels := m.matchLabels

/-- The loop over the traps, towards the hub. -/
def KiveTrap.toV2alpha1 (t : KiveTrap) : V2alpha1.KiveTrap where
  path := t.path
  create := t.create
  mode := t.mode
  callback := t.callback
  -- the range loop copies every pair into a new map
  metadata := some t.metadata.entries
  matchAny := some (t.matchAny.elems.map KiveTrapMatch.toV2alpha1)

/-- `ConvertTo`: what it makes of the object `dst`. -/
def KivePolicy.convertTo (src : KivePolicy) (dst : V2alpha1.KivePolicy) : V2alpha1.KivePolicy :=
  { dst with
    objectMeta := src.objectMeta
    spec :=
      { dst.spec with
        alertVersion := src.spec.alertVersion
        traps := some (src.spec.traps.elems.map KiveTrap.toV2alpha1) } }

/-- The loop over the match groups, from the hub. -/
def KiveTrapMatch.ofV2alpha1 (m : V2alpha1.KiveTrapMatch) : KiveTrapMatch where
  podName := m.podName
  containerName := m.containerName
  namespace_ := m.namespace_
  ip := m.ip
  matchLabels := m.matchLabels

/-- The loop over the traps, from the hub. -/
def KiveTrap.ofV2alpha1 (t : V2alpha1.KiveTrap) : KiveTrap where
  path := t.path
  create := t.create
  mode := t.mode
  callback := t.callback
  metadata := some t.metadata.entries
  matchAny := some (t.matchAny.elems.map KiveTrapMatch.ofV2alpha1)

/-- `ConvertFrom`: what it makes of the object `dst`. -/
def KivePolicy.convertFrom (dst : KivePolicy) (src : V2alpha1.KivePolicy) : KivePolicy :=
  { dst with
    objectMeta := src.objectMeta
    spec :=
      { dst.spec with
        alertVersion := src.spec.alertVersion
        traps := some (src.spec.traps.elems.map KiveTrap.ofV2alpha1) } }

/-! ## Conversion of KiveData -/

/-- `ConvertTo`: what it makes of the object `dst`.  The metadata of the spec is not copied. -/
def KiveData.convertTo (src : KiveData) (dst : Kive.KiveData) : Kive.KiveData :=
  { dst with
    objectMeta := src.objectMeta
    spec := { dst.spec with inodeNo := src.spec.inodeNo, devID := src.spec.devID } }

/-- `ConvertFrom`: what it makes of the object `dst`.  The metadata of the spec is not copied. -/
def KiveData.convertFrom (dst : KiveData) (src : Kive.KiveData) : KiveData :=
  { dst with
    objectMeta := src.objectMeta
    spec := { dst.spec with inodeNo := src.spec.inodeNo, devID := src.spec.devID } }

end V1

end Kive
