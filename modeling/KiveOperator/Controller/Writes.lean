import KiveOperator.Cluster.Faults
import KiveOperator.Controller.DataCalls
import KiveOperator.Controller.PodCalls
import KiveOperator.Controller.PolicyCalls

/-!
# What the reconcilers write into KiveData

The KiveData of the cluster change by the requests of the three reconcilers alone, users only
delete them.  `bears_lastApply` says what stands in a stored KiveData after any requests in any
order: what was applied last under its name.
-/

namespace Kive

open Interaction Object

/-! ## Requests -/

/-- The store of KiveData after a call. -/
def writeKiveData (s : Store KiveData) : Call → Store KiveData
  | .patchKiveData orig modified => (s.patch (keyOf modified) (Store.mergeFrom orig modified)).2
  | .applyKiveData _ kiveData => (applyKiveData s kiveData).2
  | .deleteKiveData kiveData => (s.delete (keyOf kiveData)).2
  | _ => s

/-- The store after some calls. -/
def writeAll (s : Store KiveData) (calls : List Call) : Store KiveData :=
  calls.foldl writeKiveData s

/-- A call that one of the reconcilers of a kernel can make. -/
def ReconcilerCall (std : Std) (kernelID : String) (op : Call) : Prop :=
  PolicyCall std kernelID (fun _ => True) op ∨ DataCall kernelID op ∨ PodCall kernelID op

section Handle

variable (std : Std) (podFields : PodFields) (node kernelID : String)

/-- What a request makes of the KiveData of the cluster. -/
lemma kiveData_handle (op : Call) (w : World) :
    (handle std podFields node kernelID op w).2.cluster.kiveData =
      writeKiveData w.cluster.kiveData op := by
  cases op
  case listKivePolicies reader => cases reader <;> rfl
  case listKiveData reader labels => cases reader <;> rfl
  all_goals rfl

/-- A call that a fault may befall is carried out or not. -/
lemma kiveData_handleFault (fault : Option Fault) (op : Call) (w : World) :
    (handleFault std podFields node kernelID fault op w).2.cluster.kiveData =
        w.cluster.kiveData ∨
      (handleFault std podFields node kernelID fault op w).2.cluster.kiveData =
        writeKiveData w.cluster.kiveData op := by
  rcases handleFault_cases std podFields node kernelID fault op w with h | h
  · exact Or.inl (by rw [h])
  · exact Or.inr (by rw [h, kiveData_handle])

end Handle

/-- The annotation by which the reconcilers wake each other. -/
def forceReconcile : String := "force-reconcile"

/-- The patches of the reconcilers touch the finalizers and one annotation. -/
lemma lookup_annotations_patch {std : Std} {kernelID : String} {orig modified : KiveData}
    (h : ReconcilerCall std kernelID (.patchKiveData orig modified)) {key : String}
    (hkey : key ≠ forceReconcile) (x : KiveData) :
    ((Store.mergeFrom orig modified).toFun x).objectMeta.annotations.lookup key =
      x.objectMeta.annotations.lookup key := by
  have hsame : modified.objectMeta.annotations.lookup key =
      orig.objectMeta.annotations.lookup key := by
    rcases h with ⟨time, rfl⟩ | (⟨-, rfl⟩ | ⟨-, rfl⟩) | h
    · exact Finmap.lookup_insert_of_ne _ hkey
    · rfl
    · unfold addFinalizer
      split_ifs <;> rfl
    · exact absurd h id
  exact (MapPatch.lookup_mergePatch _ _ _ _).trans (if_pos hsame)

/-! ## What was applied last -/

/-- The KiveData applied last under a name, when it was `last` before the call. -/
def noteApply (k : String × String) (s : Store KiveData) (last : Option KiveData) :
    Call → Option KiveData
  | .applyKiveData _ kiveData =>
    if keyOf kiveData = k ∧ (applyKiveData s kiveData).1.toBool = true then some kiveData
    else last
  | _ => last

/-- The KiveData applied last under a name, when it was `last` before the calls. -/
def lastApply (k : String × String) (s : Store KiveData) (last : Option KiveData) :
    List Call → Option KiveData
  | [] => last
  | op :: calls => lastApply k (writeKiveData s op) (noteApply k s last op) calls

/-- The annotations that every applied KiveData sets and that alerts are built from. -/
def alertKeys : List String :=
  ["kive-alert-version", "kive-policy-name", "callback", "pod-name", "namespace", "path",
    "container-id", "container-name", "node-name"]

/-- A stored KiveData bears what was applied, and nothing else that alerts are built from. -/
structure Bears (d config : KiveData) : Prop where
  annotations : ∀ key ∈ alertKeys,
    d.objectMeta.annotations.lookup key = config.objectMeta.annotations.lookup key
  noIP : d.objectMeta.annotations.lookup "ip" = none
  kernelID : d.objectMeta.labels.lookup kernelIDLabel =
    config.objectMeta.labels.lookup kernelIDLabel
  metadata : d.spec.metadata = config.spec.metadata
  managedFields : d.objectMeta.managedFields = config.spec.metadata

/-- What a policy pass applies sets all these annotations and the label of its kernel. -/
lemma sets_kiveDataFor (std : Std) (kernelID : String) (x : Site × ContainerData) :
    (∀ key ∈ alertKeys, key ∈ (kiveDataFor std kernelID x).objectMeta.annotations) ∧
    kernelIDLabel ∈ (kiveDataFor std kernelID x).objectMeta.labels ∧
    "ip" ∉ (kiveDataFor std kernelID x).objectMeta.annotations := by
  refine ⟨?_, ?_, ?_⟩
  all_goals simp [alertKeys, kiveDataFor, KivePolicyReconciler.newKiveData, StrMap.ofEntries,
    Finmap.mem_insert, Finmap.notMem_empty]

/-- What is stored after an apply bears it. -/
lemma bears_appliedKiveData {s : Store KiveData} {std : Std} {kernelID : String}
    {x : Site × ContainerData}
    (hcur : ∀ d ∈ s.items, keyOf d = keyOf (kiveDataFor std kernelID x) →
      ∃ config, Bears d config) :
    Bears (appliedKiveData s (kiveDataFor std kernelID x)) (kiveDataFor std kernelID x) := by
  obtain ⟨hsets, hlabel, hip⟩ := sets_kiveDataFor std kernelID x
  unfold appliedKiveData
  cases hfind : s.find? (keyOf (kiveDataFor std kernelID x)) with
  | none => exact ⟨fun _ _ => rfl, Finmap.lookup_eq_none.mpr hip, rfl, rfl, rfl⟩
  | some d =>
    obtain ⟨hd, hkey⟩ := Store.find?_eq_some_iff.mp hfind
    obtain ⟨config, hbears⟩ := hcur d hd hkey
    refine ⟨fun key hk => Finmap.lookup_union_left (hsets key hk), ?_,
      Finmap.lookup_union_left hlabel, ?_, rfl⟩
    · exact (Finmap.lookup_union_right hip).trans hbears.noIP
    · change MapPatch.applyOwned _ d.objectMeta.managedFields d.spec.metadata = _
      rw [hbears.managedFields, hbears.metadata, MapPatch.applyOwned_self]

/-- Edits that leave the spec, the labels, the managed fields and these annotations alone. -/
lemma Bears.edit {d config : KiveData} (h : Bears d config) {e : Edit KiveData}
    (hspec : (e.toFun d).spec = d.spec)
    (hlabels : (e.toFun d).objectMeta.labels = d.objectMeta.labels)
    (hmanaged : (e.toFun d).objectMeta.managedFields = d.objectMeta.managedFields)
    (hann : ∀ key, key ≠ forceReconcile →
      (e.toFun d).objectMeta.annotations.lookup key = d.objectMeta.annotations.lookup key) :
    Bears (e.toFun d) config where
  annotations key hkey := by
    have hne : key ≠ forceReconcile := by
      rintro rfl
      exact absurd hkey (by decide)
    rw [hann key hne, h.annotations key hkey]
  noIP := by rw [hann "ip" (by decide), h.noIP]
  kernelID := by rw [hlabels, h.kernelID]
  metadata := by rw [hspec, h.metadata]
  managedFields := by rw [hmanaged, h.managedFields]

/-- Every stored KiveData with the name bears what was applied last under it. -/
def BearsLast (k : String × String) (s : Store KiveData) (last : Option KiveData) : Prop :=
  ∀ d ∈ s.items, keyOf d = k → ∃ config, last = some config ∧ Bears d config

/-- An edit of the store as in `Bears.edit`. -/
lemma BearsLast.update {k k' : String × String} {s : Store KiveData} {last : Option KiveData}
    (h : BearsLast k s last) {e : Edit KiveData}
    (he : ∀ d config, Bears d config → Bears (e.toFun d) config) :
    BearsLast k (s.update k' e) last := by
  intro y hy hkey
  rcases Store.mem_update.mp hy with ⟨hy, -⟩ | ⟨x, hx, -, rfl, -⟩
  · exact h y hy hkey
  · obtain ⟨config, hlast, hbears⟩ := h x hx ((e.keyOf_toFun x).symm.trans hkey)
    exact ⟨config, hlast, he x config hbears⟩

/-- Each call of a reconciler keeps this. -/
lemma bearsLast_write {std : Std} {kernelID : String} {k : String × String} {s : Store KiveData}
    {last : Option KiveData} {op : Call} (hop : ReconcilerCall std kernelID op)
    (h : BearsLast k s last) : BearsLast k (writeKiveData s op) (noteApply k s last op) := by
  cases op
  case patchKiveData orig modified =>
    rcases s.patch_cases (keyOf modified) (Store.mergeFrom orig modified) with
      ⟨-, heq⟩ | ⟨x, -, -, heq⟩
    · rw [show writeKiveData s (.patchKiveData orig modified) = s from heq]
      exact h
    · rw [show writeKiveData s (.patchKiveData orig modified) = _ from congrArg Prod.snd heq]
      exact h.update fun d config hbears =>
        hbears.edit rfl rfl rfl fun key hkey => lookup_annotations_patch hop hkey d
  case deleteKiveData d =>
    rcases s.delete_cases (keyOf d) with ⟨-, heq⟩ | ⟨x, -, heq⟩
    · rw [show writeKiveData s (.deleteKiveData d) = s from heq]
      exact h
    · rw [show writeKiveData s (.deleteKiveData d) = _ from congrArg Prod.snd heq]
      exact h.update fun d config hbears => hbears.edit rfl rfl rfl fun _ _ => rfl
  case applyKiveData site config =>
    obtain ⟨cd, rfl⟩ : ∃ cd, config = kiveDataFor std kernelID (site, cd) := by
      rcases hop with ⟨-, hcd⟩ | hop | hop
      · exact hcd
      · exact absurd hop id
      · exact absurd hop id
    set config := kiveDataFor std kernelID (site, cd)
    cases hok : (applyKiveData s config).1 with
    | error err =>
      have hsame : (applyKiveData s config).2 = s := by
        rcases applyKiveData_cases s config with ⟨-, heq⟩ | ⟨x, -, -, heq⟩ | ⟨hk, -, heq⟩
        · exact heq
        · exact absurd (hok.symm.trans (congrArg Prod.fst heq)) (by simp)
        · exact absurd (hok.symm.trans (congrArg Prod.fst heq)) (by simp)
      have hnote : noteApply k s last (.applyKiveData site config) = last := by
        simp [noteApply, hok, Except.toBool]
      rw [show writeKiveData s (.applyKiveData site config) = s from hsame, hnote]
      exact h
    | ok u =>
      intro y hy hkey
      have hfind : (applyKiveData s config).2.find? k = some y :=
        Store.find?_eq_some_iff.mpr ⟨hy, hkey⟩
      rw [find?_applyKiveData hok] at hfind
      by_cases hk : k = keyOf config
      · rw [if_pos hk] at hfind
        obtain rfl := Option.some.inj hfind
        refine ⟨config, by simp [noteApply, hk, hok, Except.toBool], ?_⟩
        refine bears_appliedKiveData fun d hd hdkey => ?_
        obtain ⟨c, -, hbears⟩ := h d hd (hdkey.trans hk.symm)
        exact ⟨c, hbears⟩
      · rw [if_neg hk] at hfind
        obtain ⟨hy, -⟩ := Store.find?_eq_some_iff.mp hfind
        have hnote : noteApply k s last (.applyKiveData site config) = last := by
          simp [noteApply, Ne.symm hk]
        rw [hnote]
        exact h y hy hkey
  all_goals exact h

/-- After any calls of reconcilers on any kernels, every KiveData bears what was applied last
under its name. -/
theorem bears_lastApply {std : Std} {k : String × String} {s : Store KiveData}
    {last : Option KiveData} {calls : List Call}
    (hcalls : ∀ op ∈ calls, ∃ kernelID, ReconcilerCall std kernelID op)
    (h : BearsLast k s last) : BearsLast k (writeAll s calls) (lastApply k s last calls) := by
  induction calls generalizing s last with
  | nil => exact h
  | cons op calls ih =>
    obtain ⟨kernelID, hop⟩ := hcalls op List.mem_cons_self
    exact ih (fun op' hop' => hcalls op' (List.mem_cons_of_mem op hop')) (bearsLast_write hop h)

end Kive
