import KiveOperator.Cluster.Store
import KiveOperator.Controller.Utils

/-!
# The API server

The requests of the operator that are particular to a kind of object: listing by labels and
fields, and the server-side apply of a KiveData.

Which field labels a server evaluates for pods, and how, is a parameter: a list request with a
field label that the server does not know fails.
-/

namespace Kive

open Object Store

/-! ## Listing -/

/-- Every pair of the selector is a label. -/
def matchesLabels (selector labels : StrMap) : Bool :=
  selector.all fun k v => labels.lookup k == some v

/-- A selector holds when each of its pairs is a label. -/
lemma matchesLabels_iff {selector labels : StrMap} :
    matchesLabels selector labels = true ↔
      ∀ k v, selector.lookup k = some v → labels.lookup k = some v := by
  have hfold : ∀ (l : List (Sigma fun _ : String => String)) (b : Bool),
      l.foldl (fun x s => x && labels.lookup s.1 == some s.2) b = true ↔
        b = true ∧ ∀ s ∈ l, labels.lookup s.1 = some s.2 := by
    intro l
    induction l with
    | nil => simp
    | cons s l ih => intro b; rw [List.foldl_cons, ih]; simp [and_assoc]
  induction selector using Finmap.induction_on with
  | H a =>
    change a.entries.foldl (fun x s => x && labels.lookup s.1 == some s.2) true = true ↔ _
    rw [hfold, and_iff_right rfl]
    constructor
    · intro h k v hk
      exact h ⟨k, v⟩ (AList.mem_lookup_iff.mp hk)
    · intro h s hs
      exact h s.1 s.2 (AList.mem_lookup_iff.mpr hs)

/-- The field labels that the API server evaluates for pods. -/
abbrev PodFields := String → Option (Pod → String)

/-- The field labels for a pod's name, namespace and node are evaluated as what they are
called. -/
structure PodFields.Standard (podFields : PodFields) : Prop where
  name : podFields "metadata.name" = some Pod.name
  namespace_ : podFields "metadata.namespace" = some Pod.namespace_
  nodeName : podFields "spec.nodeName" = some Pod.nodeName

/-- So is the field label that the operator uses for a pod's address. -/
def PodFields.KnowsIP (podFields : PodFields) : Prop :=
  podFields "metadata.podIP" = some Pod.podIP

/-- These field labels and no others. -/
def PodFields.standard : PodFields := fun label =>
  if label = "metadata.name" then some Pod.name
  else if label = "metadata.namespace" then some Pod.namespace_
  else if label = "metadata.podIP" then some Pod.podIP
  else if label = "spec.nodeName" then some Pod.nodeName
  else none

/-- A server with these field labels evaluates them as what they are called. -/
lemma PodFields.standard_standard : PodFields.standard.Standard where
  name := rfl
  namespace_ := rfl
  nodeName := rfl

/-- It knows the field label for a pod's address, too. -/
lemma PodFields.knowsIP_standard : PodFields.standard.KnowsIP := rfl

/-- Whether a pod has the requested fields. -/
def matchesFields (podFields : PodFields) (fields : List (String × String)) (pod : Pod) : Bool :=
  fields.all fun f => ((podFields f.1).map fun g => g pod) == some f.2

/-- A list request for pods; an unknown field label is an error. -/
def listPods (podFields : PodFields) (labels : StrMap) (fields : List (String × String))
    (pods : List Pod) : Except String (List Pod) :=
  match fields.find? fun f => (podFields f.1).isNone with
  | some f => .error ("field label not supported: " ++ f.1)
  | none => .ok (pods.filter fun pod =>
      matchesLabels labels pod.labels && matchesFields podFields fields pod)

/-- The pods that are listed are some of those that there are. -/
lemma mem_of_listPods {podFields : PodFields} {labels : StrMap} {fields : List (String × String)}
    {pods ps : List Pod} (h : listPods podFields labels fields pods = .ok ps) {pod : Pod}
    (hpod : pod ∈ ps) : pod ∈ pods := by
  unfold listPods at h
  split at h
  · cases h
  · obtain rfl := Except.ok.inj h
    exact (List.mem_filter.mp hpod).1

/-- The empty selector selects everything. -/
lemma matchesLabels_empty (labels : StrMap) : matchesLabels ∅ labels = true :=
  matchesLabels_iff.mpr fun _ _ hk => absurd hk (by simp)

/-- A request that selects by nothing lists all pods. -/
lemma listPods_empty (podFields : PodFields) (pods : List Pod) :
    listPods podFields ∅ [] pods = .ok pods := by
  simp [listPods, matchesFields, matchesLabels_empty]

/-- The KiveData that a list request by labels selects. -/
def listKiveData (labels : StrMap) (items : List KiveData) : List KiveData :=
  items.filter fun d => matchesLabels labels d.objectMeta.labels

/-- A list request without labels gets everything. -/
lemma listKiveData_empty (items : List KiveData) : listKiveData ∅ items = items :=
  List.filter_eq_self.mpr fun d _ => matchesLabels_empty d.objectMeta.labels

/-! ## Server-side apply -/

/-- What applying a configuration makes of an existing KiveData: the listed fields are set,
metadata entries listed the last time and not any more are dropped, everything else stays, the
mark for deletion included. -/
def applyTo (config : KiveData) (cur : KiveData) : KiveData where
  objectMeta := { cur.objectMeta with
    labels := config.objectMeta.labels ∪ cur.objectMeta.labels
    annotations := config.objectMeta.annotations ∪ cur.objectMeta.annotations
    finalizers := cur.objectMeta.finalizers ++
      config.objectMeta.finalizers.filter (· ∉ cur.objectMeta.finalizers)
    managedFields := config.spec.metadata }
  spec :=
    { inodeNo := config.spec.inodeNo
      devID := config.spec.devID
      metadata := MapPatch.applyOwned config.spec.metadata cur.objectMeta.managedFields
        cur.spec.metadata }

/-- The apply as an edit of the stored object. -/
def applyEdit (config : KiveData) : Edit KiveData where
  toFun := applyTo config
  keyOf_toFun _ := rfl
  uidOf_toFun _ := rfl
  deleting_toFun _ h := h

/-- The object that an apply creates. -/
def newlyApplied (config : KiveData) : KiveData :=
  { config with objectMeta := { config.objectMeta with managedFields := config.spec.metadata } }

/-- `Patch` with `client.Apply` and `client.ForceOwnership`. -/
def applyKiveData (s : Store KiveData) (config : KiveData) :
    Except String Unit × Store KiveData :=
  match h : s.find? (keyOf config) with
  | some _ => s.patch (keyOf config) (applyEdit config)
  | none => (.ok (), s.create (newlyApplied config) (Store.find?_eq_none_iff.mp h))

/-- An apply fails and changes nothing, edits the object that has the name, or creates it. -/
lemma applyKiveData_cases (s : Store KiveData) (config : KiveData) :
    ((∃ err, (applyKiveData s config).1 = .error err) ∧ (applyKiveData s config).2 = s) ∨
    (∃ x, s.find? (keyOf config) = some x ∧ ¬ Forbidden x (applyTo config x) ∧
      applyKiveData s config = (.ok (), s.update (keyOf config) (applyEdit config))) ∨
    (∃ h, s.find? (keyOf config) = none ∧
      applyKiveData s config = (.ok (), s.create (newlyApplied config) h)) := by
  unfold applyKiveData
  split
  · next x hf =>
    rcases s.patch_cases (keyOf config) (applyEdit config) with hfail | ⟨y, hy, hforb, heq⟩
    · exact Or.inl hfail
    · exact Or.inr (Or.inl ⟨y, hy, hforb, heq⟩)
  · next hf => exact Or.inr (Or.inr ⟨find?_eq_none_iff.mp hf, hf, rfl⟩)

/-- The KiveData that a successful apply leaves under its name. -/
def appliedKiveData (s : Store KiveData) (config : KiveData) : KiveData :=
  match s.find? (keyOf config) with
  | some x => applyTo config x
  | none => s.created (newlyApplied config)

/-- What applying makes of a stored object does not go away. -/
lemma settle_applyTo {s : Store KiveData} {x : KiveData} (hx : x ∈ s.items) (config : KiveData) :
    settle (applyTo config x) = some (applyTo config x) := by
  refine settle_eq_some_iff.mpr ⟨rfl, fun hdel hnil => ?_⟩
  exact s.finalized x hx hdel (List.append_eq_nil_iff.mp hnil).1

/-- The KiveData by name after a successful apply. -/
lemma find?_applyKiveData {s : Store KiveData} {config : KiveData}
    (hok : (applyKiveData s config).1 = .ok ()) (k : String × String) :
    (applyKiveData s config).2.find? k =
      if k = keyOf config then some (appliedKiveData s config) else s.find? k := by
  rcases applyKiveData_cases s config with ⟨⟨err, herr⟩, -⟩ | ⟨x, hx, -, heq⟩ | ⟨h, hx, heq⟩
  · exact absurd (herr.symm.trans hok) (by simp)
  · rw [heq, appliedKiveData, hx]
    split_ifs with hk
    · subst hk
      rw [find?_update_self, hx, Option.bind_some]
      exact settle_applyTo (find?_eq_some_iff.mp hx).1 config
    · exact find?_update_of_ne hk
  · rw [heq, appliedKiveData, hx, find?_create]
    rfl

/-- An apply grows the store. -/
lemma grows_applyKiveData (s : Store KiveData) (config : KiveData) :
    s.Grows (applyKiveData s config).2 := by
  rcases applyKiveData_cases s config with ⟨-, h⟩ | ⟨x, -, -, h⟩ | ⟨hk, -, h⟩
  · rw [h]; exact Store.Grows.refl s
  · rw [h]; exact s.grows_update _ _
  · rw [h]; exact s.grows_create _ hk

/-! ## The cluster -/

/-- The objects of the cluster. -/
structure Cluster where
  kivePolicies : Store KivePolicy
  kiveData : Store KiveData
  pods : List Pod

end Kive
