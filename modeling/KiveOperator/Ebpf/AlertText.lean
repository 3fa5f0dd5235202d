import KiveOperator.Controller.TrapText
import KiveOperator.Ebpf.Alert
import KiveOperator.Library.JsonFields

/-!
# The text of an alert

`json.Marshal` of a `KiveAlert`, as the operator posts it to a callback or writes it to its log.
The fields are those of `api/v2alpha1/kivealert_type.go` in their order, none of which is left out
when it is empty.  `marshal_eq_iff` says that nothing of an alert is lost on the way but the bytes
in the name of a program that are no UTF-8.
-/

namespace Kive

open Json

/-! ## The fields -/

/-- A number of 64 bits can be read back up to its end. -/
lemma delimited_uint64 : Delimited fun n : UInt64 => encodeInt n.toNat :=
  delimited_encodeInt.comp fun _ _ h => UInt64.toNat_inj.mp (Int.ofNat_inj.mp h)

/-- A number of 32 bits can be read back up to its end. -/
lemma delimited_uint32 : Delimited fun n : UInt32 => encodeInt n.toNat :=
  delimited_encodeInt.comp fun _ _ h => UInt32.toNat_inj.mp (Int.ofNat_inj.mp h)

/-- A signed number can be read back up to its end. -/
lemma delimited_int32 : Delimited fun n : Int32 => encodeInt n.toInt :=
  delimited_encodeInt.comp fun _ _ h => Int32.toInt_inj.mp h

/-- A map can be read back up to its end. -/
lemma delimited_strMap : Delimited fun m : StrMap => encode (strMapJson m) :=
  delimited_encode strMapJson_injective

def containerMetadataFields : List (Member ContainerMetadata) :=
  [.of "id" (·.id) delimited_encodeString,
    .of "name" (·.name) delimited_encodeString]

def podMetadataFields : List (Member PodMetadata) :=
  [.of "name" (·.name) delimited_encodeString,
    .of "namespace" (·.namespace_) delimited_encodeString,
    .of "ip" (·.ip) delimited_encodeString,
    .object "container" (·.container) containerMetadataFields]

def nodeMetadataFields : List (Member NodeMetadata) :=
  [.of "name" (·.name) delimited_encodeString]

def processMetadataFields : List (Member ProcessMetadata) :=
  [.of "pid" (·.pid) delimited_int32,
    .of "tgid" (·.tgid) delimited_uint32,
    .of "uid" (·.uid) delimited_uint32,
    .of "gid" (·.gid) delimited_uint32,
    .of "binary" (fun p => runes p.binary) delimited_runesText,
    .of "cwd" (·.cwd) delimited_encodeString,
    .of "arguments" (·.arguments) delimited_encodeString]

def kiveAlertMetadataFields : List (Member KiveAlertMetadata) :=
  [.of "path" (·.path) delimited_encodeString,
    .of "inode" (·.inode) delimited_uint64,
    .of "mask" (·.mask) delimited_int32,
    .of "kernel-id" (·.kernelID) delimited_encodeString,
    .of "callback" (·.callback) delimited_encodeString]

def kiveAlertFields : List (Member KiveAlert) :=
  [.of "kive-alert-version" (·.alertVersion) delimited_encodeString,
    .of "kive-policy-name" (·.policyName) delimited_encodeString,
    .of "timestamp" (·.timestamp) delimited_encodeString,
    .object "metadata" (·.metadata) kiveAlertMetadataFields,
    .of "custom-metadata" (·.customMetadata) delimited_strMap,
    .object "pod" (·.pod) podMetadataFields,
    .object "node" (·.node) nodeMetadataFields,
    .object "process" (·.process) processMetadataFields]

/-- `json.Marshal` of an alert, which does not fail. -/
def KiveAlert.marshal (alert : KiveAlert) : String :=
  String.ofList (objectText kiveAlertFields alert)

/-! ## What the text tells -/

/-- Two alerts are the same, except that the names of the programs may differ where they are no
UTF-8. -/
structure KiveAlert.SameButBinary (a b : KiveAlert) : Prop where
  runes : runes a.process.binary = runes b.process.binary
  rest : { a with process := { a.process with binary := b.process.binary } } = b

/-- What is written of two alerts is the same exactly when they are, except for broken bytes in the
names of the programs. -/
theorem marshal_eq_iff (a b : KiveAlert) : a.marshal = b.marshal ↔ a.SameButBinary b := by
  rw [KiveAlert.marshal, KiveAlert.marshal, String.ofList_inj, objectText_eq_iff]
  obtain ⟨version, policy, time, ⟨path, inode, mask, kernel, callback⟩, custom,
    ⟨pod, namespace_, ip, ⟨id, container⟩⟩, ⟨node⟩,
    ⟨pid, tgid, uid, gid, binary, cwd, arguments⟩⟩ := a
  obtain ⟨version', policy', time', ⟨path', inode', mask', kernel', callback'⟩, custom',
    ⟨pod', namespace_', ip', ⟨id', container'⟩⟩, ⟨node'⟩,
    ⟨pid', tgid', uid', gid', binary', cwd', arguments'⟩⟩ := b
  simp only [SameTo, kiveAlertFields, kiveAlertMetadataFields, podMetadataFields,
    containerMetadataFields, nodeMetadataFields, processMetadataFields, Member.of, Member.object,
    List.forall_mem_cons, List.not_mem_nil, false_imp_iff, implies_true, and_true]
  constructor
  · rintro ⟨rfl, rfl, rfl, ⟨rfl, rfl, rfl, rfl, rfl⟩, rfl, ⟨rfl, rfl, rfl, rfl, rfl⟩, rfl, rfl, rfl,
      rfl, rfl, hbinary, rfl, rfl⟩
    exact ⟨hbinary, rfl⟩
  · rintro ⟨hbinary, hrest⟩
    cases hrest
    exact ⟨rfl, rfl, rfl, ⟨rfl, rfl, rfl, rfl, rfl⟩, rfl, ⟨rfl, rfl, rfl, rfl, rfl⟩, rfl, rfl, rfl,
      rfl, rfl, hbinary, rfl, rfl⟩

end Kive
