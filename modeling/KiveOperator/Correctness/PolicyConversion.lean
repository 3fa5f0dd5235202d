import KiveOperator.Api.Conversion
import KiveOperator.Controller.KiveData
import KiveOperator.Controller.KivePolicy

/-!
# Policies through the other API version

A policy that is read as v1 and written back comes out with the same fields, but with empty maps
and lists where there were none.  The JSON encoder omits both alike (`jsonMarshal_eq`), so that
the trap identifiers stay (`conversion_keeps_policies`).
-/

namespace Kive

/-! ## The trap identifier -/

namespace V2alpha1

/-- A Go map of strings as JSON. -/
def goMapJson (m : GoMap) : Json.Value :=
  strMapJson m.entries

/-- A map is omitted when it has no entries, nil or not. -/
def KiveTrapMatch.json (m : KiveTrapMatch) : Json.Value :=
  .obj (omitEmpty (m.podName == "") "pod" (.str m.podName) ++
    omitEmpty (m.containerName == "") "containerName" (.str m.containerName) ++
    omitEmpty (m.namespace_ == "") "namespace" (.str m.namespace_) ++
    omitEmpty (m.ip == "") "ip" (.str m.ip) ++
    omitEmpty (m.matchLabels.all (· == ∅)) "matchLabels" (goMapJson m.matchLabels))

/-- The fields of a trap as JSON, in declaration order. -/
def KiveTrap.fields (t : KiveTrap) : List (String × Json.Value) :=
  omitEmpty (t.path == "") "path" (.str t.path) ++
    omitEmpty (!t.create) "create" (.bool t.create) ++
    omitEmpty (t.mode == 0) "mode" (.num t.mode.toNat) ++
    omitEmpty (t.callback == "") "callback" (.str t.callback) ++
    omitEmpty (t.metadata.all (· == ∅)) "metadata" (goMapJson t.metadata) ++
    omitEmpty (t.matchAny.all List.isEmpty) "matchAny"
      (.arr (t.matchAny.elems.map KiveTrapMatch.json))

/-- `json.Marshal` of a trap. -/
def jsonMarshal (t : KiveTrap) : Except String ByteArray :=
  .ok (String.ofList (Json.encode (.obj t.fields))).toUTF8

/-- `KiveTrapHashID`. -/
def kiveTrapHashID (std : Std) (kiveTrap : KiveTrap) (alertVersion : String) :
    Except String String := do
  let jsonTrap ← (jsonMarshal kiveTrap).mapError ("TrapHashID Error Json Marshal: " ++ ·)
  let shaPolicy := std.sha256Hex (jsonTrap ++ alertVersion.toUTF8)
  return String.ofList (shaPolicy.toList.take 63)

/-- A map without entries is nil or empty. -/
lemma all_eq_empty (m : GoMap) : m.all (· == ∅) = (m.entries == ∅) := by
  cases m with
  | none => simp [GoMap.entries]
  | some m => rfl

/-- A slice without elements is nil or empty. -/
lemma all_isEmpty {α β : Type} (s : GoSlice α) (f : α → β) :
    s.all List.isEmpty = (s.elems.map f).isEmpty := by
  cases s with
  | none => rfl
  | some l => simp

/-- A group is written as the controllers read it. -/
lemma KiveTrapMatch.json_eq (m : KiveTrapMatch) :
    m.json = kiveTrapMatchJson m.toKiveTrapMatch := by
  rw [json, all_eq_empty]
  rfl

/-- The encoder does not tell nil from empty. -/
lemma KiveTrap.fields_eq (t : KiveTrap) : t.fields = kiveTrapFields t.toKiveTrap := by
  have hgroups : t.matchAny.elems.map KiveTrapMatch.json =
      (t.matchAny.elems.map KiveTrapMatch.toKiveTrapMatch).map kiveTrapMatchJson := by
    rw [List.map_map]
    exact List.map_congr_left fun m _ => m.json_eq
  rw [fields, all_eq_empty, all_isEmpty _ KiveTrapMatch.toKiveTrapMatch, hgroups]
  rfl

/-- A trap is written as the controllers read it. -/
lemma jsonMarshal_eq (t : KiveTrap) : jsonMarshal t = Kive.jsonMarshal t.toKiveTrap := by
  rw [jsonMarshal, t.fields_eq]
  rfl

/-- Nor does the identifier. -/
lemma kiveTrapHashID_eq (std : Std) (t : KiveTrap) (v : String) :
    kiveTrapHashID std t v = Kive.kiveTrapHashID std t.toKiveTrap v := by
  rw [kiveTrapHashID, jsonMarshal_eq]
  rfl

end V2alpha1

/-! ## Reading and writing -/

namespace V1

/-- A new object, before it is filled in. -/
def KivePolicy.zero : KivePolicy where
  objectMeta := { name := "", namespace_ := "" }

/-- The policy with nil and empty not told apart. -/
def KivePolicy.forget (p : KivePolicy) : Kive.KivePolicy where
  objectMeta := p.objectMeta
  spec :=
    { alertVersion := p.spec.alertVersion
      traps := p.spec.traps.elems.map fun t =>
        { path := t.path
          create := t.create
          mode := t.mode
          callback := t.callback
          metadata := t.metadata.entries
          matchAny := t.matchAny.elems.map fun m =>
            { podName := m.podName
              containerName := m.containerName
              namespace_ := m.namespace_
              ip := m.ip
              matchLabels := m.matchLabels.entries } } }

end V1

namespace V2alpha1

/-- A new object, before it is filled in. -/
def KivePolicy.zero : KivePolicy where
  objectMeta := { name := "", namespace_ := "" }

/-- The policy read as v1. -/
def KivePolicy.read (p : KivePolicy) : V1.KivePolicy :=
  V1.KivePolicy.zero.convertFrom p

/-- The policy read as v1 and written back. -/
def KivePolicy.throughV1 (p : KivePolicy) : KivePolicy :=
  p.read.convertTo zero

/-- Reading keeps the fields. -/
lemma KivePolicy.forget_read (p : KivePolicy) : p.read.forget = p.toKivePolicy := by
  have htraps : ∀ t : KiveTrap, ((V1.KiveTrap.ofV2alpha1 t).matchAny.elems.map fun m =>
      ({ podName := m.podName, containerName := m.containerName, namespace_ := m.namespace_
         ip := m.ip, matchLabels := m.matchLabels.entries } : Kive.KiveTrapMatch)) =
      t.matchAny.elems.map KiveTrapMatch.toKiveTrapMatch := by
    intro t
    rw [V1.KiveTrap.ofV2alpha1, GoSlice.elems_some, List.map_map]
    rfl
  simp only [V1.KivePolicy.forget, read, V1.KivePolicy.convertFrom, toKivePolicy,
    GoSlice.elems_some, List.map_map]
  congr 2
  refine List.map_congr_left fun t _ => ?_
  simp only [Function.comp_apply, htraps t]
  rfl

end V2alpha1

/-- Writing keeps the fields. -/
lemma V1.KivePolicy.toKivePolicy_convertTo (p : V1.KivePolicy) (dst : V2alpha1.KivePolicy) :
    (p.convertTo dst).toKivePolicy = p.forget := by
  have htraps : ∀ t : V1.KiveTrap,
      t.toV2alpha1.matchAny.elems.map V2alpha1.KiveTrapMatch.toKiveTrapMatch =
      t.matchAny.elems.map fun m =>
        ({ podName := m.podName, containerName := m.containerName, namespace_ := m.namespace_
           ip := m.ip, matchLabels := m.matchLabels.entries } : Kive.KiveTrapMatch) := by
    intro t
    rw [V1.KiveTrap.toV2alpha1, GoSlice.elems_some, List.map_map]
    rfl
  simp only [V1.KivePolicy.forget, V1.KivePolicy.convertTo, V2alpha1.KivePolicy.toKivePolicy,
    GoSlice.elems_some, List.map_map]
  congr 2
  refine List.map_congr_left fun t _ => ?_
  simp only [Function.comp_apply, V2alpha1.KiveTrap.toKiveTrap, htraps t]
  rfl

namespace V2alpha1

/-- Any number of readings and writings keep the fields. -/
lemma KivePolicy.toKivePolicy_throughV1 (p : KivePolicy) (n : ℕ) :
    (throughV1^[n] p).toKivePolicy = p.toKivePolicy := by
  induction n with
  | zero => rfl
  | succ n ih =>
    rw [Function.iterate_succ_apply', throughV1, V1.KivePolicy.toKivePolicy_convertTo,
      forget_read, ih]

/-- The identifiers of the traps of a policy, in order. -/
def KivePolicy.trapIDs (std : Std) (p : KivePolicy) : List (Except String String) :=
  p.spec.traps.elems.map fun t => kiveTrapHashID std t p.spec.alertVersion

/-- The identifiers depend on the fields alone. -/
lemma KivePolicy.trapIDs_eq (std : Std) (p : KivePolicy) :
    p.trapIDs std = p.toKivePolicy.spec.traps.map fun t =>
      Kive.kiveTrapHashID std t p.toKivePolicy.spec.alertVersion := by
  simp only [trapIDs, toKivePolicy, List.map_map]
  exact List.map_congr_left fun t _ => kiveTrapHashID_eq std t _

end V2alpha1

/-- Policies that are read as v1 and written back, or the other way round, keep their fields and
the identifiers of their traps; however often each stored policy went through v1, a data pass
judges every KiveData and a policy pass stamps every file as before. -/
theorem conversion_keeps_policies (std : Std) :
    (∀ (p : V2alpha1.KivePolicy) (n : ℕ),
      (V2alpha1.KivePolicy.throughV1^[n] p).toKivePolicy = p.toKivePolicy ∧
      (V2alpha1.KivePolicy.throughV1^[n] p).trapIDs std = p.trapIDs std) ∧
    (∀ p : V1.KivePolicy, (p.convertTo V2alpha1.KivePolicy.zero).read.forget = p.forget) ∧
    (∀ stored : List (V2alpha1.KivePolicy × ℕ),
      let before := stored.map fun x => x.1.toKivePolicy
      let after := stored.map fun x => (V2alpha1.KivePolicy.throughV1^[x.2] x.1).toKivePolicy
      (∀ d, KiveDataReconciler.judge std after d = KiveDataReconciler.judge std before d) ∧
      (∀ kernelID, KivePolicyReconciler.policyLoop std kernelID after =
        KivePolicyReconciler.policyLoop std kernelID before)) := by
  refine ⟨fun p n => ?_, fun p => ?_, fun stored => ?_⟩
  · have hfields := V2alpha1.KivePolicy.toKivePolicy_throughV1 p n
    exact ⟨hfields, by rw [V2alpha1.KivePolicy.trapIDs_eq, hfields, ← p.trapIDs_eq]⟩
  · rw [V2alpha1.KivePolicy.forget_read, V1.KivePolicy.toKivePolicy_convertTo]
  · have hsame : (stored.map fun x =>
          (V2alpha1.KivePolicy.throughV1^[x.2] x.1).toKivePolicy) =
        stored.map fun x => x.1.toKivePolicy :=
      List.map_congr_left fun x _ => V2alpha1.KivePolicy.toKivePolicy_throughV1 x.1 x.2
    intro before after
    rw [show after = before from hsame]
    exact ⟨fun _ => rfl, fun _ => rfl⟩

end Kive
