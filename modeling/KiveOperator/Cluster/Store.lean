import KiveOperator.Api.Types
import KiveOperator.Library.MapPatch

/-!
# The API server's store of one kind of object

A store keeps the objects of one kind in a list.  Its fields say what the API server guarantees
of every state: objects are told apart by their keys and by their identities, identities are
never given twice, and an object marked for deletion has a finalizer left, since it goes away
when the last one is removed.

Every request that changes an object is an `Edit`, which touches neither key nor identity.
`mem_update` and its companions say what is stored after each request.
-/

namespace Kive

/-- A kind of object that the API server stores. -/
class Object (α : Type) where
  objectMeta : α → ObjectMeta
  withMeta : α → ObjectMeta → α
  objectMeta_withMeta : ∀ x m, objectMeta (withMeta x m) = m

attribute [simp] Object.objectMeta_withMeta

instance : Object KivePolicy where
  objectMeta := KivePolicy.objectMeta
  withMeta p m := { p with objectMeta := m }
  objectMeta_withMeta _ _ := rfl

instance : Object KiveData where
  objectMeta := KiveData.objectMeta
  withMeta d m := { d with objectMeta := m }
  objectMeta_withMeta _ _ := rfl

open Object

variable {α : Type} [Object α]

/-- The namespace and the name of an object. -/
def keyOf (x : α) : String × String := (objectMeta x).key

/-- The identity of an object. -/
def uidOf (x : α) : ℕ := (objectMeta x).uid

/-- Whether an object is marked for deletion. -/
def Deleting (x : α) : Prop := (objectMeta x).deletionTimestamp = true

instance (x : α) : Decidable (Deleting x) :=
  inferInstanceAs (Decidable (_ = _))

/-- `controllerutil.ContainsFinalizer`. -/
def containsFinalizer (x : α) (finalizer : String) : Bool :=
  (objectMeta x).finalizers.contains finalizer

/-- `controllerutil.AddFinalizer`. -/
def addFinalizer (x : α) (finalizer : String) : α :=
  if containsFinalizer x finalizer then x
  else withMeta x { objectMeta x with finalizers := (objectMeta x).finalizers ++ [finalizer] }

/-- `controllerutil.RemoveFinalizer`. -/
def removeFinalizer (x : α) (finalizer : String) : α :=
  withMeta x { objectMeta x with
    finalizers := (objectMeta x).finalizers.filter (· ≠ finalizer) }

/-- The finalizer is there once it has been added. -/
lemma containsFinalizer_addFinalizer (x : α) (finalizer : String) :
    containsFinalizer (addFinalizer x finalizer) finalizer = true := by
  unfold addFinalizer
  split_ifs with h
  · exact h
  · simp [containsFinalizer]

/-- The owner of the finalizer has to patch the object: to add the finalizer, or to remove it
from an object that is being deleted. -/
def FinalizerDue (finalizer : String) (x : α) : Prop :=
  Deleting x ↔ containsFinalizer x finalizer = true

instance (finalizer : String) (x : α) : Decidable (FinalizerDue finalizer x) :=
  inferInstanceAs (Decidable (_ ↔ _))

/-- The stored objects of one kind. -/
structure Store (α : Type) [Object α] where
  items : List α
  /-- The identity that the next object gets. -/
  nextUID : ℕ
  keys_nodup : (items.map keyOf).Nodup
  uids_nodup : (items.map uidOf).Nodup
  uid_lt : ∀ x ∈ items, uidOf x < nextUID
  finalized : ∀ x ∈ items, Deleting x → (objectMeta x).finalizers ≠ []

/-- A change of an object that leaves its key and its identity alone and does not revive it. -/
structure Edit (α : Type) [Object α] where
  toFun : α → α
  keyOf_toFun : ∀ x, keyOf (toFun x) = keyOf x
  uidOf_toFun : ∀ x, uidOf (toFun x) = uidOf x
  deleting_toFun : ∀ x, Deleting x → Deleting (toFun x)

attribute [simp] Edit.keyOf_toFun Edit.uidOf_toFun

/-- An object that is marked for deletion goes away with its last finalizer. -/
def settle (x : α) : Option α :=
  if Deleting x ∧ (objectMeta x).finalizers = [] then none else some x

/-- What settles is the object itself. -/
lemma settle_eq_some_iff {x y : α} :
    settle x = some y ↔ x = y ∧ (Deleting x → (objectMeta x).finalizers ≠ []) := by
  unfold settle
  split_ifs with h
  · simp only [false_iff, not_and]
    rintro rfl hx
    exact hx h.1 h.2
  · rw [Option.some.injEq]
    exact ⟨fun hxy => ⟨hxy, fun hd hf => h ⟨hd, hf⟩⟩, fun hxy => hxy.1⟩

namespace Store

/-- The store without objects. -/
def empty : Store α where
  items := []
  nextUID := 0
  keys_nodup := List.nodup_nil
  uids_nodup := List.nodup_nil
  uid_lt := by simp
  finalized := by simp

/-- The object with the given key. -/
def find? (s : Store α) (k : String × String) : Option α :=
  s.items.find? fun x => keyOf x = k

/-- What an edit of the object at `k` makes of one stored object. -/
def editAt (k : String × String) (e : Edit α) (x : α) : Option α :=
  if keyOf x = k then settle (e.toFun x) else some x

/-- An object after an edit, when it is still there. -/
lemma editAt_eq_some_iff {k : String × String} {e : Edit α} {x y : α} :
    editAt k e x = some y ↔
      (keyOf x ≠ k ∧ x = y) ∨
      (keyOf x = k ∧ e.toFun x = y ∧ (Deleting y → (objectMeta y).finalizers ≠ [])) := by
  unfold editAt
  split_ifs with h
  · rw [settle_eq_some_iff]
    constructor
    · rintro ⟨rfl, hf⟩
      exact Or.inr ⟨h, rfl, hf⟩
    · rintro (⟨hne, -⟩ | ⟨-, rfl, hf⟩)
      · exact absurd h hne
      · exact ⟨rfl, hf⟩
  · simp [h]

/-- An edit leaves key and identity of what it leaves. -/
lemma keyOf_uidOf_of_editAt {k : String × String} {e : Edit α} {x y : α}
    (h : editAt k e x = some y) : keyOf y = keyOf x ∧ uidOf y = uidOf x := by
  rcases editAt_eq_some_iff.mp h with ⟨-, rfl⟩ | ⟨-, rfl, -⟩
  · exact ⟨rfl, rfl⟩
  · simp

/-- Dropping and changing objects without touching a projection leaves a sublist of its values. -/
lemma map_filterMap_sublist {β γ : Type} (f : β → Option β) (g : β → γ)
    (h : ∀ x y, f x = some y → g y = g x) (l : List β) :
    ((l.filterMap f).map g).Sublist (l.map g) := by
  induction l with
  | nil => simp
  | cons x l ih =>
    cases hx : f x with
    | none => rw [List.filterMap_cons_none hx]; exact ih.cons (g x)
    | some y =>
      rw [List.filterMap_cons_some hx, List.map_cons, List.map_cons, h x y hx]
      exact ih.cons_cons _

/-- Edit the object at `k`, if there is one. -/
def update (s : Store α) (k : String × String) (e : Edit α) : Store α where
  items := s.items.filterMap (editAt k e)
  nextUID := s.nextUID
  keys_nodup := s.keys_nodup.sublist
    (map_filterMap_sublist _ _ (fun _ _ h => (keyOf_uidOf_of_editAt h).1) _)
  uids_nodup := s.uids_nodup.sublist
    (map_filterMap_sublist _ _ (fun _ _ h => (keyOf_uidOf_of_editAt h).2) _)
  uid_lt := by
    intro y hy
    obtain ⟨x, hx, h⟩ := List.mem_filterMap.mp hy
    rw [(keyOf_uidOf_of_editAt h).2]
    exact s.uid_lt x hx
  finalized := by
    intro y hy
    obtain ⟨x, hx, h⟩ := List.mem_filterMap.mp hy
    rcases editAt_eq_some_iff.mp h with ⟨-, rfl⟩ | ⟨-, -, hf⟩
    · exact s.finalized x hx
    · exact hf

/-- A new object, with an identity of its own. -/
def create (s : Store α) (x : α) (h : ∀ y ∈ s.items, keyOf y ≠ keyOf x) : Store α where
  items := s.items ++
    [withMeta x { objectMeta x with uid := s.nextUID, deletionTimestamp := false }]
  nextUID := s.nextUID + 1
  keys_nodup := by
    rw [List.map_append, List.nodup_append]
    refine ⟨s.keys_nodup, by simp, ?_⟩
    intro k hk k' hk'
    obtain ⟨y, hy, rfl⟩ := List.mem_map.mp hk
    have hx : k' = keyOf x := by simpa [keyOf, ObjectMeta.key] using hk'
    exact hx ▸ h y hy
  uids_nodup := by
    rw [List.map_append, List.nodup_append]
    refine ⟨s.uids_nodup, by simp, ?_⟩
    intro u hu u' hu'
    obtain ⟨y, hy, rfl⟩ := List.mem_map.mp hu
    have hx : u' = s.nextUID := by simpa [uidOf] using hu'
    exact hx ▸ (s.uid_lt y hy).ne
  uid_lt := by
    intro y hy
    rcases List.mem_append.mp hy with hy | hy
    · exact Nat.lt_succ_of_lt (s.uid_lt y hy)
    · simp [List.mem_singleton.mp hy, uidOf]
  finalized := by
    intro y hy
    rcases List.mem_append.mp hy with hy | hy
    · exact s.finalized y hy
    · simp [List.mem_singleton.mp hy, Deleting]

/-- The store after the given objects were created, those with a key that is taken left out. -/
def ofList (xs : List α) : Store α :=
  xs.foldl
    (fun s x => if h : ∀ y ∈ s.items, keyOf y ≠ keyOf x then s.create x h else s) empty

/-- The object that `create` stores. -/
def created (s : Store α) (x : α) : α :=
  withMeta x { objectMeta x with uid := s.nextUID, deletionTimestamp := false }

section Lemmas

variable {s : Store α} {k : String × String} {e : Edit α} {x y : α}

/-- Nothing is found under a name exactly when no object has it. -/
lemma find?_eq_none_iff : s.find? k = none ↔ ∀ y ∈ s.items, keyOf y ≠ k := by
  simp [find?]

/-- Two stored objects with one key are one object. -/
lemma eq_of_keyOf_eq (hx : x ∈ s.items) (hy : y ∈ s.items) (h : keyOf x = keyOf y) : x = y :=
  List.inj_on_of_nodup_map s.keys_nodup hx hy h

/-- Two stored objects with one identity are one object. -/
lemma eq_of_uidOf_eq (hx : x ∈ s.items) (hy : y ∈ s.items) (h : uidOf x = uidOf y) : x = y :=
  List.inj_on_of_nodup_map s.uids_nodup hx hy h

/-- The object at a key. -/
lemma find?_eq_some_iff : s.find? k = some x ↔ x ∈ s.items ∧ keyOf x = k := by
  constructor
  · intro h
    exact ⟨List.mem_of_find?_eq_some h, by simpa using List.find?_some h⟩
  · rintro ⟨hx, rfl⟩
    cases hf : s.find? (keyOf x) with
    | none => exact absurd rfl (find?_eq_none_iff.mp hf x hx)
    | some y =>
      have hy : keyOf y = keyOf x := by simpa using List.find?_some hf
      rw [eq_of_keyOf_eq (List.mem_of_find?_eq_some hf) hx hy]

/-- What is stored after an edit. -/
lemma mem_update : y ∈ (s.update k e).items ↔
    (y ∈ s.items ∧ keyOf y ≠ k) ∨
    ∃ x ∈ s.items, keyOf x = k ∧ e.toFun x = y ∧
      (Deleting y → (objectMeta y).finalizers ≠ []) := by
  rw [update, List.mem_filterMap]
  constructor
  · rintro ⟨x, hx, h⟩
    rcases editAt_eq_some_iff.mp h with ⟨hne, rfl⟩ | ⟨hk, he, hf⟩
    · exact Or.inl ⟨hx, hne⟩
    · exact Or.inr ⟨x, hx, hk, he, hf⟩
  · rintro (⟨hy, hne⟩ | ⟨x, hx, hk, he, hf⟩)
    · exact ⟨y, hy, editAt_eq_some_iff.mpr (Or.inl ⟨hne, rfl⟩)⟩
    · exact ⟨x, hx, editAt_eq_some_iff.mpr (Or.inr ⟨hk, he, hf⟩)⟩

/-- The list with one object replaced, or removed. -/
def replace [DecidableEq α] (l : List α) (x : α) (o : Option α) : List α :=
  l.filterMap fun y => if y = x then o else some y

omit [Object α] in
/-- Replacing what is not there changes nothing. -/
lemma replace_of_notMem [DecidableEq α] {l : List α} {x : α} (h : x ∉ l) (o : Option α) :
    replace l x o = l := by
  have hid : ∀ y ∈ l, (if y = x then o else some y) = some y := by
    intro y hy
    exact if_neg fun heq : y = x => h (heq ▸ hy)
  rw [replace, List.filterMap_congr hid, List.filterMap_some]

omit [Object α] in
/-- Replacing in two lists. -/
lemma replace_append [DecidableEq α] (l l' : List α) (x : α) (o : Option α) :
    replace (l ++ l') x o = replace l x o ++ replace l' x o :=
  List.filterMap_append

omit [Object α] in
/-- A member after replacing was there before, or is the new object. -/
lemma mem_of_mem_replace [DecidableEq α] {l : List α} {x y : α} {o : Option α}
    (h : y ∈ replace l x o) : y ∈ l ∨ o = some y := by
  obtain ⟨z, hz, hzy⟩ := List.mem_filterMap.mp h
  split_ifs at hzy with hzx
  · exact Or.inr hzy
  · exact Or.inl (Option.some.inj hzy ▸ hz)

omit [Object α] in
/-- Replacing an element of a list without repetitions puts the new one in its place. -/
lemma exists_replace_eq [DecidableEq α] {l : List α} {x : α} (hl : l.Nodup) (hx : x ∈ l) :
    ∃ l₁ l₂, l = l₁ ++ x :: l₂ ∧ ∀ o : Option α, replace l x o = l₁ ++ o.toList ++ l₂ := by
  obtain ⟨l₁, l₂, rfl⟩ := List.append_of_mem hx
  have hnot : x ∉ l₁ ++ l₂ := (List.nodup_middle.mp hl |> List.nodup_cons.mp).1
  refine ⟨l₁, l₂, rfl, fun o => ?_⟩
  have hself : replace [x] x o = o.toList := by
    cases o <;> simp [replace]
  rw [replace_append, ← List.singleton_append, replace_append, hself,
    replace_of_notMem (fun h => hnot (List.mem_append_left l₂ h)),
    replace_of_notMem (fun h => hnot (List.mem_append_right l₁ h)), List.append_assoc]

/-- Editing a stored object replaces it. -/
lemma items_update_of_mem [DecidableEq α] (hx : x ∈ s.items) :
    (s.update (keyOf x) e).items = replace s.items x (settle (e.toFun x)) := by
  refine List.filterMap_congr fun y hy => ?_
  unfold editAt
  by_cases h : y = x
  · simp [h]
  · rw [if_neg fun hk => h (eq_of_keyOf_eq hy hx hk), if_neg h]

/-- A store is what it stores and the next identity. -/
lemma ext_items {s s' : Store α} (hitems : s.items = s'.items) (huid : s.nextUID = s'.nextUID) :
    s = s' := by
  cases s
  cases s'
  obtain rfl := hitems
  obtain rfl := huid
  rfl

/-- The stored objects are different. -/
lemma items_nodup (s : Store α) : s.items.Nodup :=
  s.keys_nodup.of_map

/-- The object at a key after an edit there. -/
lemma find?_update_self :
    (s.update k e).find? k = (s.find? k).bind fun x => settle (e.toFun x) := by
  refine Option.ext fun y => ?_
  rw [find?_eq_some_iff, mem_update, Option.bind_eq_some_iff]
  constructor
  · rintro ⟨⟨-, hne⟩ | ⟨x, hx, hkx, rfl, hf⟩, hk⟩
    · exact absurd hk hne
    · exact ⟨x, find?_eq_some_iff.mpr ⟨hx, hkx⟩, settle_eq_some_iff.mpr ⟨rfl, hf⟩⟩
  · rintro ⟨x, hx, hy⟩
    obtain ⟨hx, hkx⟩ := find?_eq_some_iff.mp hx
    obtain ⟨rfl, hf⟩ := settle_eq_some_iff.mp hy
    exact ⟨Or.inr ⟨x, hx, hkx, rfl, hf⟩, by rw [Edit.keyOf_toFun, hkx]⟩

/-- The object at another key. -/
lemma find?_update_of_ne {k' : String × String} (h : k' ≠ k) :
    (s.update k e).find? k' = s.find? k' := by
  refine Option.ext fun y => ?_
  rw [find?_eq_some_iff, mem_update, find?_eq_some_iff]
  constructor
  · rintro ⟨⟨hy, -⟩ | ⟨x, -, hkx, rfl, -⟩, hk⟩
    · exact ⟨hy, hk⟩
    · rw [Edit.keyOf_toFun, hkx] at hk
      exact absurd hk.symm h
  · rintro ⟨hy, hk⟩
    exact ⟨Or.inl ⟨hy, hk ▸ h⟩, hk⟩

/-- The key of the object that a creation stores. -/
@[simp] lemma keyOf_created : keyOf (s.created x) = keyOf x := by
  simp [created, keyOf, ObjectMeta.key]

/-- What is stored after a creation. -/
lemma mem_create {h : ∀ y ∈ s.items, keyOf y ≠ keyOf x} :
    y ∈ (s.create x h).items ↔ y ∈ s.items ∨ y = s.created x := by
  simp [create, created]

/-- The objects by key after a creation. -/
lemma find?_create {h : ∀ y ∈ s.items, keyOf y ≠ keyOf x} :
    (s.create x h).find? k = if k = keyOf x then some (s.created x) else s.find? k := by
  refine Option.ext fun y => ?_
  rw [find?_eq_some_iff, mem_create]
  split_ifs with hk
  · subst hk
    constructor
    · rintro ⟨hy | rfl, hk⟩
      · exact absurd hk (h y hy)
      · rfl
    · rintro ⟨⟩
      exact ⟨Or.inr rfl, keyOf_created⟩
  · rw [find?_eq_some_iff]
    constructor
    · rintro ⟨hy | rfl, hky⟩
      · exact ⟨hy, hky⟩
      · exact absurd (hky.symm.trans keyOf_created) hk
    · rintro ⟨hy, hky⟩
      exact ⟨Or.inl hy, hky⟩

end Lemmas

/-- What every request to the server respects: identities are not given twice, and a mark for
deletion stays. -/
structure Grows (s s' : Store α) : Prop where
  nextUID_le : s.nextUID ≤ s'.nextUID
  origin : ∀ y ∈ s'.items, uidOf y < s.nextUID →
    ∃ x ∈ s.items, uidOf x = uidOf y ∧ keyOf x = keyOf y ∧ (Deleting x → Deleting y)

/-- Nothing happens, and the store grows. -/
lemma Grows.refl (s : Store α) : s.Grows s :=
  ⟨le_rfl, fun y hy _ => ⟨y, hy, rfl, rfl, id⟩⟩

/-- An edit grows the store. -/
lemma grows_update (s : Store α) (k : String × String) (e : Edit α) :
    s.Grows (s.update k e) := by
  refine ⟨le_rfl, fun y hy _ => ?_⟩
  rcases mem_update.mp hy with ⟨hy, -⟩ | ⟨x, hx, -, rfl, -⟩
  · exact ⟨y, hy, rfl, rfl, id⟩
  · exact ⟨x, hx, (e.uidOf_toFun x).symm, (e.keyOf_toFun x).symm, e.deleting_toFun x⟩

/-- A creation grows the store. -/
lemma grows_create (s : Store α) (x : α) (h : ∀ y ∈ s.items, keyOf y ≠ keyOf x) :
    s.Grows (s.create x h) := by
  refine ⟨Nat.le_succ _, fun y hy hlt => ?_⟩
  rcases mem_create.mp hy with hy | rfl
  · exact ⟨y, hy, rfl, rfl, id⟩
  · simp [created, uidOf] at hlt

/-! ## Requests -/

/-- `client.MergeFrom(orig)` on the metadata: the difference between the object as listed and the
modified copy, the finalizers as one value and the annotations key by key. -/
def mergeMeta (orig modified cur : ObjectMeta) : ObjectMeta :=
  { cur with
    finalizers :=
      if orig.finalizers = modified.finalizers then cur.finalizers else modified.finalizers
    annotations :=
      MapPatch.mergePatch orig.annotations modified.annotations cur.annotations }

/-- The merge patch that turns `orig` into `modified`, as an edit of the stored object. -/
def mergeFrom (orig modified : α) : Edit α where
  toFun x := withMeta x (mergeMeta (objectMeta orig) (objectMeta modified) (objectMeta x))
  keyOf_toFun x := by simp [keyOf, mergeMeta, ObjectMeta.key]
  uidOf_toFun x := by simp [uidOf, mergeMeta]
  deleting_toFun x := by simp [Deleting, mergeMeta]

/-- Marking for deletion. -/
def markDeleted : Edit α where
  toFun x := withMeta x { objectMeta x with deletionTimestamp := true }
  keyOf_toFun x := by simp [keyOf, ObjectMeta.key]
  uidOf_toFun x := by simp [uidOf]
  deleting_toFun x := by simp [Deleting]

/-- An object that is being deleted gets no new finalizers. -/
def Forbidden (x y : α) : Prop :=
  Deleting x ∧ ¬ (objectMeta y).finalizers ⊆ (objectMeta x).finalizers

instance (x y : α) : Decidable (Forbidden x y) :=
  inferInstanceAs (Decidable (_ ∧ _))

/-- `Patch` of the object at a key. -/
def patch (s : Store α) (k : String × String) (e : Edit α) : Except String Unit × Store α :=
  match s.find? k with
  | none => (.error "not found", s)
  | some x =>
    if Forbidden x (e.toFun x) then
      (.error "no new finalizers can be added if the object is being deleted", s)
    else (.ok (), s.update k e)

/-- `Delete` of the object at a key. -/
def delete (s : Store α) (k : String × String) : Except String Unit × Store α :=
  match s.find? k with
  | none => (.error "not found", s)
  | some _ => (.ok (), s.update k markDeleted)

/-- A patch fails and changes nothing, or edits the object at the key. -/
lemma patch_cases (s : Store α) (k : String × String) (e : Edit α) :
    ((∃ err, (s.patch k e).1 = .error err) ∧ (s.patch k e).2 = s) ∨
    (∃ x, s.find? k = some x ∧ ¬ Forbidden x (e.toFun x) ∧
      s.patch k e = (.ok (), s.update k e)) := by
  unfold patch
  cases hf : s.find? k with
  | none => exact Or.inl ⟨⟨_, rfl⟩, rfl⟩
  | some x =>
    by_cases hforb : Forbidden x (e.toFun x)
    · exact Or.inl ⟨⟨"no new finalizers can be added if the object is being deleted",
        by simp [hforb]⟩, by simp [hforb]⟩
    · exact Or.inr ⟨x, rfl, hforb, by simp [hforb]⟩

/-- A deletion fails and changes nothing, or marks the object at the key. -/
lemma delete_cases (s : Store α) (k : String × String) :
    ((∃ err, (s.delete k).1 = .error err) ∧ (s.delete k).2 = s) ∨
    (∃ x, s.find? k = some x ∧ s.delete k = (.ok (), s.update k markDeleted)) := by
  unfold delete
  cases hf : s.find? k with
  | none => exact Or.inl ⟨⟨_, rfl⟩, rfl⟩
  | some x => exact Or.inr ⟨x, rfl, rfl⟩

/-- Among the objects that are not being deleted, a deletion takes away the one at the key. -/
lemma mem_delete_and_not_deleting {s : Store α} {k : String × String} {y : α} :
    y ∈ (s.delete k).2.items ∧ ¬ Deleting y ↔ y ∈ s.items ∧ ¬ Deleting y ∧ keyOf y ≠ k := by
  rcases delete_cases s k with ⟨⟨err, herr⟩, hsame⟩ | ⟨x, -, heq⟩
  · have hnone : ∀ y ∈ s.items, keyOf y ≠ k := by
      refine find?_eq_none_iff.mp (Option.eq_none_iff_forall_ne_some.mpr fun x hx => ?_)
      rw [delete, hx] at herr
      exact absurd herr (by simp)
    rw [hsame]
    exact ⟨fun h => ⟨h.1, h.2, hnone y h.1⟩, fun h => ⟨h.1, h.2.1⟩⟩
  · rw [heq, mem_update]
    constructor
    · rintro ⟨⟨hy, hne⟩ | ⟨x, -, -, rfl, -⟩, hlive⟩
      · exact ⟨hy, hlive, hne⟩
      · exact absurd (by simp [Deleting, markDeleted]) hlive
    · rintro ⟨hy, hlive, hne⟩
      exact ⟨Or.inl ⟨hy, hne⟩, hlive⟩

/-- The copy differs from the object in its finalizers alone. -/
def Refinalizes (x x' : α) : Prop :=
  withMeta x { objectMeta x with finalizers := (objectMeta x').finalizers } = x'

/-- Patching the finalizers of an object that is as it was listed gives the modified copy. -/
lemma mergeFrom_self {x x' : α} (h : Refinalizes x x') : (mergeFrom x x').toFun x = x' := by
  have hmeta : objectMeta x' =
      { objectMeta x with finalizers := (objectMeta x').finalizers } := by
    conv_lhs => rw [← show _ = x' from h]
    exact objectMeta_withMeta _ _
  have hann : MapPatch.mergePatch (objectMeta x).annotations (objectMeta x').annotations
      (objectMeta x).annotations = (objectMeta x).annotations := by
    rw [hmeta]
    exact Finmap.ext_lookup fun k => by rw [MapPatch.lookup_mergePatch, if_pos rfl]
  have hfin : (if (objectMeta x).finalizers = (objectMeta x').finalizers
      then (objectMeta x).finalizers else (objectMeta x').finalizers) =
        (objectMeta x').finalizers := by
    split_ifs with heq
    · exact heq
    · rfl
  simp only [mergeFrom, mergeMeta, hann, hfin]
  exact h

/-- Patching the finalizers of a stored object that is as it was listed succeeds, if it adds none
to an object that is being deleted, and replaces the object. -/
lemma patch_of_refinalizes [DecidableEq α] {s : Store α} {x x' : α} (hx : x ∈ s.items)
    (h : Refinalizes x x')
    (hforb : Deleting x → (objectMeta x').finalizers ⊆ (objectMeta x).finalizers) :
    (s.patch (keyOf x') (mergeFrom x x')).1 = .ok () ∧
      (s.patch (keyOf x') (mergeFrom x x')).2.items = replace s.items x (settle x') := by
  have hkey : keyOf x' = keyOf x := by
    rw [← (mergeFrom x x').keyOf_toFun x, mergeFrom_self h]
  have hno : ¬ Forbidden x ((mergeFrom x x').toFun x) := by
    rw [mergeFrom_self h]
    exact fun hf => hf.2 (hforb hf.1)
  rw [hkey, patch, find?_eq_some_iff.mpr ⟨hx, rfl⟩]
  dsimp only
  rw [if_neg hno, items_update_of_mem hx, mergeFrom_self h]
  exact ⟨rfl, rfl⟩

/-- Taking a finalizer away changes the finalizers alone. -/
lemma refinalizes_removeFinalizer (x : α) (finalizer : String) :
    Refinalizes x (removeFinalizer x finalizer) := by
  simp [Refinalizes, removeFinalizer]

/-- Adding a finalizer changes the finalizers alone. -/
lemma refinalizes_addFinalizer {x : α} {finalizer : String}
    (h : containsFinalizer x finalizer = false) : Refinalizes x (addFinalizer x finalizer) := by
  simp [Refinalizes, addFinalizer, h]

/-- A patch grows the store. -/
lemma grows_patch (s : Store α) (k : String × String) (e : Edit α) :
    s.Grows (s.patch k e).2 := by
  rcases patch_cases s k e with ⟨-, h⟩ | ⟨x, -, -, h⟩
  · rw [h]; exact Grows.refl s
  · rw [h]; exact grows_update s k e

/-- A deletion grows the store. -/
lemma grows_delete (s : Store α) (k : String × String) : s.Grows (s.delete k).2 := by
  rcases delete_cases s k with ⟨-, h⟩ | ⟨x, -, h⟩
  · rw [h]; exact Grows.refl s
  · rw [h]; exact grows_update s k _

end Store

end Kive
