import KiveOperator.Api.Conversion
import KiveOperator.Ebpf.Alert

/-!
# KiveData through the other API version

Neither conversion of a KiveData copies the metadata of its spec, though both versions have the
field.  A KiveData that is read as v1 and written back loses it, and alerts that are built from
it lose their custom metadata (`dataConversion_invisible_iff`).
-/

namespace Kive

/-- A new object, before it is filled in. -/
def V1.KiveData.zero : V1.KiveData where
  objectMeta := { name := "", namespace_ := "" }

namespace KiveData

/-- A new object, before it is filled in. -/
def zero : KiveData where
  objectMeta := { name := "", namespace_ := "" }
  spec := { inodeNo := 0, devID := 0 }

/-- The KiveData read as v1 and written back. -/
def throughV1 (d : KiveData) : KiveData :=
  (V1.KiveData.zero.convertFrom d).convertTo zero

/-- What is left after any positive number of rounds. -/
lemma throughV1_iterate_succ (d : KiveData) (n : ℕ) :
    throughV1^[n + 1] d = { d with spec := { d.spec with metadata := ∅ } } := by
  induction n with
  | zero => rfl
  | succ n ih => rw [Function.iterate_succ_apply', ih]; rfl

end KiveData

/-- Nothing that the alerts or the filter depend on tells `d'` from `d`: neither the fields, nor,
for any record, the alert that is read when `d'` is stored in the place of `d`. -/
structure Invisible (d d' : KiveData) : Prop where
  spec : d'.spec = d.spec
  labels : d'.objectMeta.labels = d.objectMeta.labels
  annotations : d'.objectMeta.annotations = d.objectMeta.annotations
  readAlert : ∀ read before after now,
    Kive.readAlert read (.ok (before ++ d' :: after)) now =
      Kive.readAlert read (.ok (before ++ d :: after)) now

/-- After any number of rounds a KiveData is as before if and only if there were none, or it has
no metadata. -/
theorem dataConversion_invisible_iff (d : KiveData) (n : ℕ) :
    Invisible d (KiveData.throughV1^[n] d) ↔ n = 0 ∨ d.spec.metadata = ∅ := by
  cases n with
  | zero => exact iff_of_true ⟨rfl, rfl, rfl, fun _ _ _ _ => rfl⟩ (Or.inl rfl)
  | succ n =>
    rw [KiveData.throughV1_iterate_succ]
    constructor
    · intro h
      refine Or.inr ?_
      rw [← h.spec]
    · rintro (hn | hempty)
      · exact absurd hn n.succ_ne_zero
      · have hsame : ({ d with spec := { d.spec with metadata := ∅ } } : KiveData) = d := by
          rw [← hempty]
        rw [hsame]
        exact ⟨rfl, rfl, rfl, fun _ _ _ _ => rfl⟩

namespace DataConversion

/-- A KiveData with one pair of metadata. -/
def secret : KiveData where
  objectMeta :=
    { name := "7-1-kive-data-web-aa"
      namespace_ := operatorNamespace
      annotations := StrMap.ofEntries [("path", "/secret")]
      labels := StrMap.ofEntries [(kernelIDLabel, "k1")] }
  spec := { inodeNo := 7, devID := 1, metadata := StrMap.ofEntries [("severity", "high")] }

/-- The record of an access to its file. -/
def record : LogData :=
  kprobeOutput ⟨0, 0, []⟩ 7 1 4

end DataConversion

open DataConversion in
/-- One round, and the alert for an access to the file no longer says how severe that is. -/
theorem dataConversion_counterexample :
    (∃ alert, readAlert (some (.ok record)) (.ok [secret]) "" = .ok alert ∧
      alert.customMetadata = StrMap.ofEntries [("severity", "high")]) ∧
    (∃ alert, readAlert (some (.ok record)) (.ok [secret.throughV1]) "" = .ok alert ∧
      alert.customMetadata = ∅) ∧
    ¬ ∀ n, Invisible secret (KiveData.throughV1^[n] secret) := by
  refine ⟨⟨_, rfl, rfl⟩, ⟨_, rfl, rfl⟩, fun h => ?_⟩
  have hspec : secret.throughV1.spec.metadata = secret.spec.metadata :=
    congrArg KiveDataSpec.metadata (h 1).spec
  exact absurd hspec (by decide)

end Kive
