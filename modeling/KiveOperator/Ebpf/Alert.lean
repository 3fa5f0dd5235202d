import KiveOperator.Controller.Utils
import KiveOperator.Ebpf.Tracer

/-!
# Alerts

`internal/controller/ebpf/ebpf.go`: from a record of the kernel probe and the KiveData of the
cluster to an alert.
-/

namespace Kive

/-- How reading from the ring buffer fails. -/
inductive RingbufError where
  | closed
  | other
  deriving DecidableEq

/-- `ReadEbpfData`.  Any error but a closed buffer leaves an empty record, which does not
parse. -/
def readEbpfData (read : Except RingbufError LogData) : Except String LogData :=
  match read with
  | .error .closed => .error "ReadAlert Error Buffer closed."
  | .error .other => .error "ReadAlert Error Parse ringbuf data"
  | .ok data => .ok data

/-- The bytes before the first zero. -/
def int8ArrayToString (arr : List UInt8) : List UInt8 :=
  arr.takeWhile (· ≠ 0)

/-- The alert version that a KiveData asks for, or the default. -/
def kiveAlertVersion (kiveData : KiveData) : String :=
  let version := kiveData.objectMeta.annotations.get "kive-alert-version"
  if version = "" then "v1"
  else if version ∉ supportedKiveAlertVersions then "v1"
  else version

/-- The alert for an access to the file of a KiveData. -/
def newKiveAlert (now : String) (data : LogData) (kiveData : KiveData) : KiveAlert where
  alertVersion := kiveAlertVersion kiveData
  policyName := kiveData.objectMeta.annotations.get "kive-policy-name"
  timestamp := now
  metadata :=
    { path := kiveData.objectMeta.annotations.get "path"
      inode := data.ino
      mask := data.mask
      kernelID := kiveData.objectMeta.labels.get kernelIDLabel
      callback := kiveData.objectMeta.annotations.get "callback" }
  -- the range loop copies every pair
  customMetadata := kiveData.spec.metadata
  pod :=
    { name := kiveData.objectMeta.annotations.get "pod-name"
      namespace_ := kiveData.objectMeta.annotations.get "namespace"
      container :=
        { id := kiveData.objectMeta.annotations.get "container-id"
          name := kiveData.objectMeta.annotations.get "container-name" }
      -- the policy reconciler writes the address under "pod-ip"
      ip := kiveData.objectMeta.annotations.get "ip" }
  node := { name := kiveData.objectMeta.annotations.get "node-name" }
  process :=
    { pid := data.pid
      tgid := data.tgid
      uid := data.uid
      gid := data.gid
      binary := int8ArrayToString data.comm
      cwd := ""
      arguments := "" }

/-- The loop over the KiveData: the one that the alert is built from. -/
def findKiveData (data : LogData) : List KiveData → Option KiveData
  | [] => none
  | kiveData :: items =>
    if kiveData.spec.inodeNo = data.ino then some kiveData else findKiveData data items

/-- `ReadAlert`, given the ring buffer reader (if there is one) with what it returns, the answer
to the list request and the time. -/
def readAlert (ringbuffReader : Option (Except RingbufError LogData))
    (list : Except String (List KiveData)) (now : String) : Except String KiveAlert :=
  match ringbuffReader with
  | none => .error "ReadAlert Error Ringbuffer not inizialized"
  | some read =>
    match readEbpfData read with
    | .error err => .error ("ReadAlert Error Reading Ebpf Data: " ++ err)
    | .ok data =>
      match list with
      | .error err => .error ("ReadAlert Error Failed to get Kive Data resource: " ++ err)
      | .ok kiveDataList =>
        match findKiveData data kiveDataList with
        | some kiveData => .ok (newKiveAlert now data kiveData)
        | none =>
          .error "ReadAlert Error eBPF data received but no corresponsing kiveData was found"

/-- The loop stops at the first KiveData with the inode number of the record. -/
lemma findKiveData_eq_some_iff {data : LogData} {items : List KiveData} {d : KiveData} :
    findKiveData data items = some d ↔ ∃ before after, items = before ++ d :: after ∧
      d.spec.inodeNo = data.ino ∧ ∀ d' ∈ before, d'.spec.inodeNo ≠ data.ino := by
  induction items with
  | nil => simp [findKiveData]
  | cons x items ih =>
    unfold findKiveData
    split_ifs with hx
    · constructor
      · rintro h
        obtain rfl := Option.some.inj h
        exact ⟨[], items, rfl, hx, by simp⟩
      · rintro ⟨before, after, heq, hd, hbefore⟩
        cases before with
        | nil => rw [(List.cons.inj heq).1]
        | cons y before =>
          exact absurd ((List.cons.inj heq).1 ▸ hx) (hbefore y List.mem_cons_self)
    · rw [ih]
      constructor
      · rintro ⟨before, after, rfl, hd, hbefore⟩
        refine ⟨x :: before, after, rfl, hd, ?_⟩
        intro d' hd'
        rcases List.mem_cons.mp hd' with rfl | hd'
        · exact hx
        · exact hbefore d' hd'
      · rintro ⟨before, after, heq, hd, hbefore⟩
        cases before with
        | nil => exact absurd ((List.cons.inj heq).1 ▸ hd) hx
        | cons y before =>
          exact ⟨before, after, (List.cons.inj heq).2, hd,
            fun d' hd' => hbefore d' (List.mem_cons_of_mem y hd')⟩

/-- The loop finds nothing when no KiveData has the inode number of the record. -/
lemma findKiveData_eq_none_iff {data : LogData} {items : List KiveData} :
    findKiveData data items = none ↔ ∀ d ∈ items, d.spec.inodeNo ≠ data.ino := by
  induction items with
  | nil => simp [findKiveData]
  | cons x items ih =>
    unfold findKiveData
    split_ifs with hx
    · simp [hx]
    · simp [hx, ih]

/-- An alert is built from the KiveData at which the loop stops. -/
lemma readAlert_eq_ok_iff {data : LogData} {items : List KiveData} {now : String}
    {alert : KiveAlert} :
    readAlert (some (.ok data)) (.ok items) now = .ok alert ↔
      ∃ d, findKiveData data items = some d ∧ newKiveAlert now data d = alert := by
  cases h : findKiveData data items with
  | none => simp [readAlert, readEbpfData, h]
  | some d => simp [readAlert, readEbpfData, h]

end Kive
