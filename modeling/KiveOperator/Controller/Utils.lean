import KiveOperator.Library.Json
import KiveOperator.Container.Utils
import Mathlib.Data.Finset.Sort
import Mathlib.Data.String.Basic

/-!
# Trap identifiers, object names and container name patterns

`internal/controller/utils.go` and `constants.go`.  The functions of Go's standard library that
the code only calls are the fields of `Std`.

`newKiveDataName_inj` shows that an object name determines the inode, the device, the pod name
and the container id, provided that the ids contain no hyphen; `trapID_inj_version` shows that a
trap identifier determines the alert version it was computed under, provided that the hash has
no collision among the texts in question.
-/

namespace Kive

/-- Functions of Go's standard library that the operator calls. -/
structure Std where
  /-- `regexp.Compile` and `Match` of its result. -/
  regexpCompile : String → Except String (String → Bool)
  /-- `filepath.Match`. -/
  filepathMatch : String → String → Except String Bool
  /-- `hex.EncodeToString` of the SHA-256 sum. -/
  sha256Hex : ByteArray → String
  /-- `Format(time.RFC3339)` of a time in seconds. -/
  formatRFC3339 : ℕ → String

/-- A library with a table of digests, for evaluating the definitions.  The only patterns it
knows are literal ones. -/
def Std.ofDigests (digests : List (String × String)) : Std where
  regexpCompile regex := .ok fun s => s == regex
  filepathMatch pattern s := .ok (s == pattern)
  sha256Hex b := ((digests.find? fun e =>
    @decide (e.1.toUTF8 = b) (ByteArray.instDecidableEq _ _)).map Prod.snd).getD ""
  formatRFC3339 t := toString t

/-! ## Constants -/

/-- The label that links a KiveData to its trap. -/
def trapIDLabel : String := "trap-id"

/-- The label that links a KiveData to a running kernel. -/
def kernelIDLabel : String := "kernel-id"

def kiveDataFinalizerName : String := "kivedata.kivebpf.san7o.github.io/finalizer"

def kivePolicyFinalizerName : String := "kivepolicy.kivebpf.san7o.github.io/finalizer"

/-- The namespace in which the operator keeps its KiveData. -/
def operatorNamespace : String := "kivebpf-system"

/-! ## The trap identifier -/

/-- A field that is omitted when it has its zero value. -/
def omitEmpty (isZero : Bool) (name : String) (v : Json.Value) : List (String × Json.Value) :=
  if isZero then [] else [(name, v)]

/-- A string map as JSON, its keys sorted. -/
def strMapJson (m : StrMap) : Json.Value :=
  .obj ((m.keys.sort (· ≤ ·)).map fun k => (k, .str (m.get k)))

def kiveTrapMatchJson (m : KiveTrapMatch) : Json.Value :=
  .obj (omitEmpty (m.podName == "") "pod" (.str m.podName) ++
    omitEmpty (m.containerName == "") "containerName" (.str m.containerName) ++
    omitEmpty (m.namespace_ == "") "namespace" (.str m.namespace_) ++
    omitEmpty (m.ip == "") "ip" (.str m.ip) ++
    omitEmpty (m.matchLabels == ∅) "matchLabels" (strMapJson m.matchLabels))

/-- The fields of a trap as JSON, in declaration order. -/
def kiveTrapFields (t : KiveTrap) : List (String × Json.Value) :=
  omitEmpty (t.path == "") "path" (.str t.path) ++
    omitEmpty (!t.create) "create" (.bool t.create) ++
    omitEmpty (t.mode == 0) "mode" (.num t.mode.toNat) ++
    omitEmpty (t.callback == "") "callback" (.str t.callback) ++
    omitEmpty (t.metadata == ∅) "metadata" (strMapJson t.metadata) ++
    omitEmpty t.matchAny.isEmpty "matchAny" (.arr (t.matchAny.map kiveTrapMatchJson))

/-- `json.Marshal` of a trap; strings, numbers and maps of strings cannot fail. -/
def jsonMarshal (t : KiveTrap) : Except String ByteArray :=
  .ok (String.ofList (Json.encode (.obj (kiveTrapFields t)))).toUTF8

variable (std : Std)

/-- The identifier of a trap under an alert version: 63 hexadecimal digits of the hash of the
JSON text followed by the version. -/
def kiveTrapHashID (kiveTrap : KiveTrap) (alertVersion : String) : Except String String := do
  let jsonTrap ← (jsonMarshal kiveTrap).mapError ("TrapHashID Error Json Marshal: " ++ ·)
  let shaPolicy := std.sha256Hex (jsonTrap ++ alertVersion.toUTF8)
  return String.ofList (shaPolicy.toList.take 63)

/-- The text whose hash identifies a trap under an alert version. -/
def trapText (kiveTrap : KiveTrap) (alertVersion : String) : ByteArray :=
  (String.ofList (Json.encode (.obj (kiveTrapFields kiveTrap)))).toUTF8 ++ alertVersion.toUTF8

/-- The identifier that `kiveTrapHashID` returns. -/
def trapID (kiveTrap : KiveTrap) (alertVersion : String) : String :=
  String.ofList ((std.sha256Hex (trapText kiveTrap alertVersion)).toList.take 63)

/-- Computing an identifier never fails. -/
@[simp] lemma kiveTrapHashID_eq (t : KiveTrap) (v : String) :
    kiveTrapHashID std t v = .ok (trapID std t v) := rfl

/-- The text determines the alert version: the JSON part ends where its object does. -/
lemma trapText_inj_version {t t' : KiveTrap} {v v' : String} (h : trapText t v = trapText t' v') :
    v = v' := by
  simp only [trapText, String.toUTF8_eq_toByteArray, ← String.toByteArray_append,
    String.toByteArray_inj] at h
  have htext := congrArg String.toList h
  rw [String.toList_append, String.toList_append, String.toList_ofList,
    String.toList_ofList] at htext
  exact String.toList_injective (Json.encode_obj_append_inj _ _ htext).2

/-- No two of the texts have hashes with the same 63 leading digits. -/
def NoCollision (texts : Set ByteArray) : Prop :=
  Set.InjOn (fun b => (std.sha256Hex b).toList.take 63) texts

variable {std} in
/-- A trap identifier determines the alert version under which it was computed. -/
theorem trapID_inj_version {texts : Set ByteArray} (hstd : NoCollision std texts)
    {t t' : KiveTrap} {v v' : String} (ht : trapText t v ∈ texts) (ht' : trapText t' v' ∈ texts)
    (h : trapID std t v = trapID std t' v') : v = v' :=
  trapText_inj_version (hstd ht ht' (String.ofList_injective h))

/-! ## Object names -/

/-- `strconv.FormatUint(n, 10)`. -/
def formatUint (n : ℕ) : String :=
  String.ofList (Nat.toDigits 10 n)

/-- The name of the KiveData of a file of a container. -/
def newKiveDataName (inode : UInt64) (dev : UInt32) (pod : Pod)
    (containerStatus : ContainerStatus) : String :=
  formatUint inode.toNat ++ "-" ++ formatUint dev.toNat ++ "-kive-data-" ++ pod.name ++ "-" ++
    containerIDPart containerStatus.containerID

/-- A text without hyphens, as container ids are. -/
def NoHyphen (s : String) : Prop :=
  '-' ∉ s.toList

instance (s : String) : Decidable (NoHyphen s) :=
  inferInstanceAs (Decidable (¬ _))

/-- A decimal number has no hyphen. -/
lemma hyphen_notMem_toDigits (n : ℕ) : '-' ∉ Nat.toDigits 10 n := fun h =>
  absurd (Json.isDigit_of_mem_toDigits h) (by decide)

/-- Decimal numbers are equal only if their digits are. -/
lemma toDigits_injective {m n : ℕ} (h : Nat.toDigits 10 m = Nat.toDigits 10 n) : m = n := by
  rw [← Nat.ofDigitChars_ten_toDigits (n := m), h, Nat.ofDigitChars_ten_toDigits]

/-- What stands before and after the first of two hyphens is determined. -/
lemma append_hyphen_inj {a b r s : List Char} (ha : '-' ∉ a) (hb : '-' ∉ b)
    (h : a ++ '-' :: r = b ++ '-' :: s) : a = b ∧ r = s := by
  induction a generalizing b with
  | nil =>
    cases b with
    | nil => exact ⟨rfl, (List.cons.inj h).2⟩
    | cons c b => exact absurd (List.mem_cons.mpr (Or.inl (List.cons.inj h).1)) hb
  | cons c a ih =>
    cases b with
    | nil => exact absurd (List.mem_cons.mpr (Or.inl (List.cons.inj h).1.symm)) ha
    | cons d b =>
      obtain ⟨rfl, hrest⟩ := List.cons.inj h
      obtain ⟨rfl, rfl⟩ :=
        ih (fun hm => ha (List.mem_cons_of_mem _ hm)) (fun hm => hb (List.mem_cons_of_mem _ hm))
          hrest
      exact ⟨rfl, rfl⟩

/-- What stands before and after the last hyphen is determined. -/
lemma append_hyphen_inj_last {a b r s : List Char} (hr : '-' ∉ r) (hs : '-' ∉ s)
    (h : a ++ '-' :: r = b ++ '-' :: s) : a = b ∧ r = s := by
  have hrev := congrArg List.reverse h
  simp only [List.reverse_append, List.reverse_cons, List.append_assoc, List.cons_append,
    List.nil_append] at hrev
  obtain ⟨hrs, hab⟩ := append_hyphen_inj (by simpa using hr) (by simpa using hs) hrev
  exact ⟨List.reverse_injective hab, List.reverse_injective hrs⟩

/-- An object name determines inode, device, pod name and container id. -/
theorem newKiveDataName_inj {inode inode' : UInt64} {dev dev' : UInt32} {pod pod' : Pod}
    {c c' : ContainerStatus} (hc : NoHyphen (containerIDPart c.containerID))
    (hc' : NoHyphen (containerIDPart c'.containerID))
    (h : newKiveDataName inode dev pod c = newKiveDataName inode' dev' pod' c') :
    inode = inode' ∧ dev = dev' ∧ pod.name = pod'.name ∧
      containerIDPart c.containerID = containerIDPart c'.containerID := by
  have htext := congrArg String.toList h
  simp only [newKiveDataName, formatUint, String.toList_append, String.toList_ofList,
    show "-".toList = ['-'] from rfl, show "-kive-data-".toList = '-' :: "kive-data-".toList
      from rfl, List.append_assoc, List.cons_append, List.nil_append] at htext
  obtain ⟨hinode, hrest⟩ :=
    append_hyphen_inj (hyphen_notMem_toDigits _) (hyphen_notMem_toDigits _) htext
  obtain ⟨hdev, hrest⟩ :=
    append_hyphen_inj (hyphen_notMem_toDigits _) (hyphen_notMem_toDigits _) hrest
  obtain ⟨hpod, hid⟩ := append_hyphen_inj_last hc hc' (List.append_cancel_left hrest)
  exact ⟨UInt64.toNat_inj.mp (toDigits_injective hinode),
    UInt32.toNat_inj.mp (toDigits_injective hdev), String.toList_injective hpod,
    String.toList_injective hid⟩

/-! ## Container name patterns -/

/-- `strings.HasPrefix`. -/
def hasLeading (s lead : String) : Bool :=
  lead.toList.isPrefixOf s.toList

/-- `strings.TrimPrefix` of a text that has the leading part. -/
def trimLeading (s lead : String) : String :=
  String.ofList (s.toList.drop lead.toList.length)

/-- Whether a container name satisfies the pattern of a match group: any name when the pattern
is empty, a regular expression, a glob or the name itself. -/
def regexMatch (regex containerName : String) : Except String Bool :=
  if regex = "" then .ok true
  else if hasLeading regex "regex:" then
    match std.regexpCompile (trimLeading regex "regex:") with
    | .error err => .error ("RegexMatch Error compiling regex: " ++ err)
    | .ok compiledRegex => .ok (compiledRegex containerName)
  else if hasLeading regex "glob:" then
    match std.filepathMatch (trimLeading regex "glob:") containerName with
    | .error err => .error ("RegexMatch Error compiling regex: " ++ err)
    | .ok result => .ok result
  else .ok (regex == containerName)

/-! ## Matching a KiveData with traps and containers -/

/-- Whether a trap has the identifier recorded in the KiveData, under the alert version recorded
in the KiveData. -/
def kiveDataTrapCmp (kiveData : KiveData) (kiveTrap : KiveTrap) : Except String Bool :=
  match kiveTrapHashID std kiveTrap (kiveData.objectMeta.annotations.get "kive-alert-version") with
  | .error err => .error ("KiveDataTrapCmp Error Hash ID: " ++ err)
  | .ok trapID => .ok (kiveData.objectMeta.labels.get trapIDLabel == trapID)

/-- Comparing with a trap never fails. -/
lemma kiveDataTrapCmp_eq (d : KiveData) (t : KiveTrap) :
    kiveDataTrapCmp std d t = .ok (d.objectMeta.labels.get trapIDLabel ==
      trapID std t (d.objectMeta.annotations.get "kive-alert-version")) := rfl

/-- Whether a container of a pod is the one recorded in the KiveData. -/
def kiveDataContainerCmp (kiveData : KiveData) (pod : Pod) (containerStatus : ContainerStatus) :
    Bool :=
  if kiveData.objectMeta.annotations.get "pod-name" ≠ pod.name then false
  else if kiveData.objectMeta.annotations.get "namespace" ≠ pod.namespace_ then false
  else if kiveData.objectMeta.annotations.get "container-name" ≠ containerStatus.name then false
  else if kiveData.objectMeta.annotations.get "container-id" ≠ containerStatus.containerID then
    false
  else true

/-- The container comparison is the conjunction of its four tests. -/
lemma kiveDataContainerCmp_iff {d : KiveData} {pod : Pod} {c : ContainerStatus} :
    kiveDataContainerCmp d pod c = true ↔
      d.objectMeta.annotations.get "pod-name" = pod.name ∧
      d.objectMeta.annotations.get "namespace" = pod.namespace_ ∧
      d.objectMeta.annotations.get "container-name" = c.name ∧
      d.objectMeta.annotations.get "container-id" = c.containerID := by
  unfold kiveDataContainerCmp
  split_ifs <;> simp_all

end Kive
