import KiveOperator.Ebpf.Alert

/-!
# Which file an alert is about

A record of the kernel probe names a file by inode number and device, on the kernel where the
probe runs.  `readAlert` looks at the inode number alone, and so takes the first KiveData with
that number, of whatever device and kernel.  `alertsAttributed_iff` says when this is the right
one.
-/

namespace Kive

/-- The KiveData is about the file of the record, on the kernel `kernelID`. -/
def IsAbout (kernelID : String) (data : LogData) (d : KiveData) : Prop :=
  d.spec.inodeNo = data.ino ∧ d.spec.devID = data.dev ∧
    d.objectMeta.labels.get kernelIDLabel = kernelID

instance (kernelID : String) (data : LogData) (d : KiveData) :
    Decidable (IsAbout kernelID data d) :=
  inferInstanceAs (Decidable (_ ∧ _))

/-- Any alert for the record is built from a stored KiveData about the file of the record. -/
def AlertsAttributed (kernelID : String) (data : LogData) (items : List KiveData) : Prop :=
  ∀ now alert, readAlert (some (.ok data)) (.ok items) now = .ok alert →
    ∃ d ∈ items, findKiveData data items = some d ∧ alert = newKiveAlert now data d ∧
      IsAbout kernelID data d

/-- A KiveData with the inode number of the record, about another file, stands behind one that
is about the file of the record. -/
def NamesakesBehind (kernelID : String) (data : LogData) (items : List KiveData) : Prop :=
  ∀ before d after, items = before ++ d :: after → d.spec.inodeNo = data.ino →
    ¬ IsAbout kernelID data d → ∃ d' ∈ before, IsAbout kernelID data d'

/-- The alert is attributed when the loop stops at a KiveData about the file, or not at all. -/
lemma alertsAttributed_iff_find {kernelID : String} {data : LogData} {items : List KiveData} :
    AlertsAttributed kernelID data items ↔
      ∀ d, findKiveData data items = some d → IsAbout kernelID data d := by
  constructor
  · intro h d hd
    obtain ⟨d', -, hd', -, habout⟩ := h "" _ (readAlert_eq_ok_iff.mpr ⟨d, hd, rfl⟩)
    rw [hd, Option.some.injEq] at hd'
    exact hd' ▸ habout
  · intro h now alert hread
    obtain ⟨d, hd, rfl⟩ := readAlert_eq_ok_iff.mp hread
    obtain ⟨before, after, rfl, -, -⟩ := findKiveData_eq_some_iff.mp hd
    exact ⟨d, by simp, hd, rfl, h d hd⟩

/-- For a record that the probe emits on the kernel `kernelID`, the alert is built from a KiveData
about the accessed file if and only if no KiveData about another file with the same inode number
stands in front. -/
theorem alertsAttributed_iff (kernelID : String) {tracedInodes : TracedInodes} {i : Inode}
    {data : LogData} (hemits : Emits tracedInodes i data) (items : List KiveData) :
    (∀ now alert, readAlert (some (.ok data)) (.ok items) now = .ok alert →
      ∃ d ∈ items, findKiveData data items = some d ∧ alert = newKiveAlert now data d ∧
        d.spec.inodeNo = i.ino ∧ d.spec.devID = i.dev ∧
        d.objectMeta.labels.get kernelIDLabel = kernelID) ↔
      NamesakesBehind kernelID data items := by
  obtain ⟨hino, hdev, -⟩ := hemits.spec
  rw [← hino, ← hdev]
  change AlertsAttributed kernelID data items ↔ _
  rw [alertsAttributed_iff_find]
  constructor
  · rintro h before d after rfl hd hnot
    by_contra hnone
    -- the first KiveData with the number stands at `d` or before it
    cases hfind : findKiveData data before with
    | some d' =>
      obtain ⟨b, a, rfl, hd', hb⟩ := findKiveData_eq_some_iff.mp hfind
      have hfirst : findKiveData data ((b ++ d' :: a) ++ d :: after) = some d' :=
        findKiveData_eq_some_iff.mpr ⟨b, a ++ d :: after, by simp, hd', hb⟩
      exact hnone ⟨d', by simp, h d' hfirst⟩
    | none =>
      have hfirst : findKiveData data (before ++ d :: after) = some d :=
        findKiveData_eq_some_iff.mpr
          ⟨before, after, rfl, hd, findKiveData_eq_none_iff.mp hfind⟩
      exact hnot (h d hfirst)
  · intro h d hd
    obtain ⟨before, after, rfl, hdino, hbefore⟩ := findKiveData_eq_some_iff.mp hd
    by_contra hnot
    obtain ⟨d', hd', habout⟩ := h before d after rfl hdino hnot
    exact hbefore d' hd' habout.1

/-! ## Two files with one inode number -/

namespace AlertAttribution

/-- The KiveData of the file with inode 7 on device 1 of the first kernel. -/
def secret : KiveData where
  objectMeta :=
    { name := "7-1-kive-data-web-aa"
      namespace_ := operatorNamespace
      annotations := StrMap.ofEntries [("path", "/secret"), ("callback", "http://secret")]
      labels := StrMap.ofEntries [(kernelIDLabel, "k1")]
      finalizers := [kiveDataFinalizerName] }
  spec := { inodeNo := 7, devID := 1 }

/-- The KiveData of a file with the same inode number, on the second kernel. -/
def log : KiveData where
  objectMeta :=
    { name := "7-2-kive-data-db-bb"
      namespace_ := operatorNamespace
      annotations := StrMap.ofEntries [("path", "/log"), ("callback", "http://log")]
      labels := StrMap.ofEntries [(kernelIDLabel, "k2")]
      finalizers := [kiveDataFinalizerName] }
  spec := { inodeNo := 7, devID := 2 }

/-- The record of an access to the first file. -/
def record : LogData :=
  kprobeOutput ⟨0, 0, []⟩ 7 1 4

/-- The access gives this record. -/
lemma emits_record : Emits {secret.mapKey} ⟨7, 1⟩ record :=
  ⟨fun _ => ⟨7, 1⟩, ⟨0, 0, []⟩, ⟨0, 1, 4⟩, Or.inr ⟨by decide, rfl⟩⟩

end AlertAttribution

open AlertAttribution in
/-- With the KiveData of the first file in front, the alert is the right one. -/
theorem alertsAttributed_secret_log :
    (∀ now alert, readAlert (some (.ok record)) (.ok [secret, log]) now = .ok alert →
      ∃ d ∈ [secret, log], findKiveData record [secret, log] = some d ∧
        alert = newKiveAlert now record d ∧ d.spec.inodeNo = 7 ∧ d.spec.devID = 1 ∧
        d.objectMeta.labels.get kernelIDLabel = "k1") ↔
      NamesakesBehind "k1" record [secret, log] :=
  alertsAttributed_iff "k1" emits_record [secret, log]

open AlertAttribution in
/-- With the other one in front, an access to the first file gives an alert with the path and the
callback of the other file. -/
theorem alertsAttributed_counterexample :
    Emits {secret.mapKey} ⟨7, 1⟩ record ∧
    (∃ alert, readAlert (some (.ok record)) (.ok [log, secret]) "" = .ok alert ∧
      alert.metadata.path = "/log" ∧ alert.metadata.callback = "http://log") ∧
    ¬ ∀ now alert, readAlert (some (.ok record)) (.ok [log, secret]) now = .ok alert →
      ∃ d ∈ [log, secret], findKiveData record [log, secret] = some d ∧
        alert = newKiveAlert now record d ∧ d.spec.inodeNo = 7 ∧ d.spec.devID = 1 ∧
        d.objectMeta.labels.get kernelIDLabel = "k1" := by
  refine ⟨emits_record, ⟨newKiveAlert "" record log, rfl, by decide, by decide⟩, fun h => ?_⟩
  obtain ⟨d, -, hfind, -, -, hdev, -⟩ := h "" (newKiveAlert "" record log) rfl
  obtain rfl : log = d := Option.some.inj hfind
  exact absurd hdev (by decide)

end Kive
