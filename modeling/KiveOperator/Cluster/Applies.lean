import KiveOperator.Cluster.ApiServer

/-!
# Applies one after the other

What a list of applies makes of a KiveData and of a store.  Several of the configurations may have
the same name and overwrite each other; of each field the last one that lists it decides, so that
applying the same list once more changes nothing (`foldl_applyEach_again` for one object,
`upToDate_applyAll` and `UpToDate.applyAll_eq` for a store).
-/

namespace Kive

open Object

/-! ## One KiveData -/

/-- An object that is being deleted takes only configurations whose finalizers it has. -/
def Accepts (x config : KiveData) : Prop :=
  Deleting x → config.objectMeta.finalizers ⊆ x.objectMeta.finalizers

instance (x config : KiveData) : Decidable (Accepts x config) :=
  inferInstanceAs (Decidable (_ → _))

/-- What an apply makes of the KiveData under its name, whether or not it is refused. -/
def applyEach (x config : KiveData) : KiveData :=
  if Accepts x config then applyTo config x else x

/-- The server turns an apply down exactly when the object does not accept it. -/
lemma forbidden_applyTo_iff {x config : KiveData} :
    Store.Forbidden x (applyTo config x) ↔ ¬ Accepts x config := by
  have hfin : (applyTo config x).objectMeta.finalizers ⊆ x.objectMeta.finalizers ↔
      config.objectMeta.finalizers ⊆ x.objectMeta.finalizers := by
    constructor
    · intro h f hf
      by_cases hold : f ∈ x.objectMeta.finalizers
      · exact hold
      · exact h (List.mem_append_right _ (List.mem_filter.mpr ⟨hf, by simpa using hold⟩))
    · intro h f hf
      rcases List.mem_append.mp hf with hf | hf
      · exact hf
      · exact h (List.mem_filter.mp hf).1
  rw [Accepts, Classical.not_imp, ← hfin]
  exact Iff.rfl

/-- An apply keeps the name. -/
@[simp] lemma keyOf_applyEach (x config : KiveData) : keyOf (applyEach x config) = keyOf x := by
  unfold applyEach
  split_ifs <;> rfl

/-- Finalizers that are there are not added. -/
lemma finalizers_applyTo {x config : KiveData}
    (h : config.objectMeta.finalizers ⊆ x.objectMeta.finalizers) :
    (applyTo config x).objectMeta.finalizers = x.objectMeta.finalizers := by
  have hnil : config.objectMeta.finalizers.filter (· ∉ x.objectMeta.finalizers) = [] :=
    List.filter_eq_nil_iff.mpr fun f hf => by simpa using h hf
  rw [applyTo, hnil, List.append_nil]

/-- An apply does not change what the object accepts. -/
lemma accepts_applyEach {x config config' : KiveData} :
    Accepts (applyEach x config) config' ↔ Accepts x config' := by
  unfold applyEach
  split_ifs with haccepts
  · by_cases hdel : Deleting x
    · rw [Accepts, finalizers_applyTo (haccepts hdel)]
      exact Iff.rfl
    · exact iff_of_true (fun h => absurd h hdel) fun h => absurd h hdel
  · exact Iff.rfl

/-- An object accepts the same configurations after others have been applied. -/
lemma accepts_foldl_applyEach (l : List KiveData) {x config : KiveData} :
    Accepts (l.foldl applyEach x) config ↔ Accepts x config := by
  induction l generalizing x with
  | nil => exact Iff.rfl
  | cons config' l ih => rw [List.foldl_cons, ih, accepts_applyEach]

/-- The configurations that are accepted are applied one after the other. -/
lemma foldl_applyEach (l : List KiveData) (x : KiveData) :
    l.foldl applyEach x =
      (l.filter fun config => Accepts x config).foldl (fun x config => applyTo config x) x := by
  induction l generalizing x with
  | nil => rfl
  | cons config l ih =>
    rw [List.foldl_cons, ih]
    simp only [accepts_applyEach]
    by_cases haccepts : Accepts x config
    · rw [List.filter_cons, if_pos (decide_eq_true haccepts), List.foldl_cons, applyEach,
        if_pos haccepts]
    · rw [List.filter_cons, if_neg (by simpa using haccepts), applyEach, if_neg haccepts]

/-- The finalizers with those that are missing. -/
def addMissing (finalizers listed : List String) : List String :=
  finalizers ++ listed.filter (· ∉ finalizers)

/-- No finalizer is lost when missing ones are added. -/
lemma subset_foldl_addMissing (l : List (List String)) (finalizers : List String) :
    finalizers ⊆ l.foldl addMissing finalizers := by
  induction l generalizing finalizers with
  | nil => exact List.Subset.refl finalizers
  | cons listed l ih => exact List.Subset.trans (List.subset_append_left _ _) (ih _)

/-- All finalizers that are listed are there in the end. -/
lemma subset_foldl_addMissing_of_mem {l : List (List String)} {listed : List String}
    (h : listed ∈ l) (finalizers : List String) : listed ⊆ l.foldl addMissing finalizers := by
  induction l generalizing finalizers with
  | nil => exact absurd h (by simp)
  | cons listed' l ih =>
    rcases List.mem_cons.mp h with rfl | h
    · refine List.Subset.trans (fun f hf => ?_) (subset_foldl_addMissing l _)
      by_cases hold : f ∈ finalizers
      · exact List.mem_append_left _ hold
      · exact List.mem_append_right _ (List.mem_filter.mpr ⟨hf, by simpa using hold⟩)
    · exact ih h _

/-- Finalizers that are there are not added. -/
lemma foldl_addMissing_of_subset {l : List (List String)} {finalizers : List String}
    (h : ∀ listed ∈ l, listed ⊆ finalizers) : l.foldl addMissing finalizers = finalizers := by
  induction l with
  | nil => rfl
  | cons listed l ih =>
    have hnil : listed.filter (· ∉ finalizers) = [] :=
      List.filter_eq_nil_iff.mpr fun f hf => by simpa using h listed List.mem_cons_self hf
    rw [List.foldl_cons, addMissing, hnil, List.append_nil]
    exact ih fun listed' hlisted' => h listed' (List.mem_cons_of_mem listed hlisted')

/-- What applies make of a KiveData, field by field. -/
lemma foldl_applyTo (l : List KiveData) (x : KiveData) :
    l.foldl (fun x config => applyTo config x) x =
      { objectMeta := { x.objectMeta with
          labels := (l.map fun d => d.objectMeta.labels).foldl (fun m listed => listed ∪ m)
            x.objectMeta.labels
          annotations := (l.map fun d => d.objectMeta.annotations).foldl
            (fun m listed => listed ∪ m) x.objectMeta.annotations
          finalizers := (l.map fun d => d.objectMeta.finalizers).foldl addMissing
            x.objectMeta.finalizers
          managedFields := ((l.map fun d => d.spec.metadata).foldl MapPatch.applyNext
            (x.objectMeta.managedFields, x.spec.metadata)).1 }
        spec :=
          { inodeNo := l.foldl (fun _ d => d.spec.inodeNo) x.spec.inodeNo
            devID := l.foldl (fun _ d => d.spec.devID) x.spec.devID
            metadata := ((l.map fun d => d.spec.metadata).foldl MapPatch.applyNext
              (x.objectMeta.managedFields, x.spec.metadata)).2 } } := by
  induction l generalizing x with
  | nil => rfl
  | cons config l ih => exact ih (applyTo config x)

/-- Of a value that is overwritten each time the last one stays. -/
lemma foldl_last_again {α β : Type} (f : α → β) (l : List α) (b : β) :
    l.foldl (fun _ a => f a) (l.foldl (fun _ a => f a) b) = l.foldl (fun _ a => f a) b := by
  rcases List.eq_nil_or_concat l with rfl | ⟨l, a, rfl⟩
  · rfl
  · simp [List.foldl_append]

/-- Applying the same configurations a second time changes nothing. -/
lemma foldl_applyTo_again (l : List KiveData) (x : KiveData) :
    l.foldl (fun x config => applyTo config x) (l.foldl (fun x config => applyTo config x) x) =
      l.foldl (fun x config => applyTo config x) x := by
  rw [foldl_applyTo l (l.foldl _ x), foldl_applyTo l x]
  dsimp only
  rw [MapPatch.foldl_union_again, MapPatch.foldl_union_again,
    foldl_addMissing_of_subset fun _ h => subset_foldl_addMissing_of_mem h _,
    MapPatch.foldl_applyNext_again, foldl_last_again, foldl_last_again]

/-- Applying the same once more changes nothing. -/
theorem foldl_applyEach_again (l : List KiveData) (x : KiveData) :
    l.foldl applyEach (l.foldl applyEach x) = l.foldl applyEach x := by
  rw [foldl_applyEach l (l.foldl applyEach x)]
  simp only [accepts_foldl_applyEach]
  rw [foldl_applyEach l x, foldl_applyTo_again]

/-! ## A store -/

/-- The store after the applies, one after the other. -/
def applyAll (s : Store KiveData) (l : List KiveData) : Store KiveData :=
  l.foldl (fun s config => (applyKiveData s config).2) s

/-- Applies come one after the other. -/
lemma applyAll_append (s : Store KiveData) (l l' : List KiveData) :
    applyAll s (l ++ l') = applyAll (applyAll s l) l' :=
  List.foldl_append

section Step

variable {s : Store KiveData} {x config : KiveData}

/-- An apply under a name that is taken is refused or edits the object there. -/
lemma applyKiveData_of_find? (h : s.find? (keyOf config) = some x) :
    (applyKiveData s config).2 =
      if Accepts x config then s.update (keyOf config) (applyEdit config) else s := by
  have hpatch : (applyKiveData s config).2 = (s.patch (keyOf config) (applyEdit config)).2 := by
    unfold applyKiveData
    split
    · rfl
    · next hnone => exact absurd (h.symm.trans hnone) (by simp)
  have hiff : Store.Forbidden x ((applyEdit config).toFun x) ↔ ¬ Accepts x config :=
    forbidden_applyTo_iff
  rw [hpatch, Store.patch, h]
  dsimp only
  by_cases haccepts : Accepts x config
  · rw [if_neg (hiff.not_left.mpr haccepts), if_pos haccepts]
  · rw [if_pos (hiff.mpr haccepts), if_neg haccepts]

/-- An apply under a stored name changes that object and no other. -/
lemma items_applyKiveData_of_mem (hx : x ∈ s.items) (hkey : keyOf x = keyOf config) :
    (applyKiveData s config).2.items =
        s.items.map (fun y => if keyOf y = keyOf config then applyEach y config else y) ∧
      (applyKiveData s config).2.nextUID = s.nextUID := by
  have honly : ∀ y ∈ s.items, keyOf y = keyOf config → y = x := fun y hy hy' =>
    Store.eq_of_keyOf_eq hy hx (hy'.trans hkey.symm)
  rw [applyKiveData_of_find? (Store.find?_eq_some_iff.mpr ⟨hx, hkey⟩)]
  by_cases haccepts : Accepts x config
  · rw [if_pos haccepts]
    refine ⟨?_, rfl⟩
    rw [← List.filterMap_eq_map']
    refine List.filterMap_congr fun y hy => ?_
    unfold Store.editAt
    split_ifs with hy'
    · obtain rfl := honly y hy hy'
      rw [applyEach, if_pos haccepts]
      exact settle_applyTo hy config
    · rfl
  · rw [if_neg haccepts]
    refine ⟨?_, rfl⟩
    conv_lhs => rw [← List.map_id s.items]
    refine List.map_congr_left fun y hy => ?_
    split_ifs with hy'
    · obtain rfl := honly y hy hy'
      rw [applyEach, if_neg haccepts, id]
    · rfl

/-- An apply under a name that is free creates an object of which it would make nothing else. -/
lemma items_applyKiveData_of_notMem (h : ∀ x ∈ s.items, keyOf x ≠ keyOf config) :
    ∃ y, (applyKiveData s config).2.items = s.items ++ [y] ∧ keyOf y = keyOf config ∧
      applyEach y config = y := by
  rcases applyKiveData_cases s config with hfail | ⟨x, hx, -⟩ | ⟨hno, -, heq⟩
  · obtain ⟨⟨err, herr⟩, -⟩ := hfail
    have hfind := Store.find?_eq_none_iff.mpr h
    unfold applyKiveData at herr
    split at herr
    · next x hx => exact absurd (hfind.symm.trans hx) (by simp)
    · exact absurd herr (by simp)
  · exact absurd (Store.find?_eq_some_iff.mp hx).2 (h x (Store.find?_eq_some_iff.mp hx).1)
  · refine ⟨s.created (newlyApplied config), by rw [heq]; rfl, rfl, ?_⟩
    have haccepts : Accepts (s.created (newlyApplied config)) config := fun hdel =>
      absurd hdel (by simp [Deleting, Store.created])
    have hfin : (applyTo config (s.created (newlyApplied config))).objectMeta.finalizers =
        (s.created (newlyApplied config)).objectMeta.finalizers :=
      finalizers_applyTo (List.Subset.refl _)
    rw [applyEach, if_pos haccepts]
    simp only [applyTo, Store.created, newlyApplied, objectMeta, withMeta, MapPatch.union_self,
      MapPatch.applyOwned_self] at hfin ⊢
    rw [hfin]

/-- The names that are taken after an apply. -/
lemma mem_keys_applyKiveData {k : String × String} :
    k ∈ (applyKiveData s config).2.items.map keyOf ↔
      k ∈ s.items.map keyOf ∨ k = keyOf config := by
  by_cases htaken : ∃ x ∈ s.items, keyOf x = keyOf config
  · obtain ⟨x, hx, hkey⟩ := htaken
    have hkeys : (keyOf ∘ fun y => if keyOf y = keyOf config then applyEach y config else y) =
        keyOf := by
      funext y
      rw [Function.comp_apply]
      split_ifs
      · exact keyOf_applyEach y config
      · rfl
    have hmem : keyOf config ∈ s.items.map keyOf := List.mem_map.mpr ⟨x, hx, hkey⟩
    rw [(items_applyKiveData_of_mem hx hkey).1, List.map_map, hkeys]
    exact ⟨Or.inl, fun h => h.elim id fun h => h ▸ hmem⟩
  · have hfree : ∀ x ∈ s.items, keyOf x ≠ keyOf config := fun x hx hkey => htaken ⟨x, hx, hkey⟩
    obtain ⟨y, hitems, hkey, -⟩ := items_applyKiveData_of_notMem hfree
    rw [hitems, List.map_append, List.map_singleton, hkey, List.mem_append, List.mem_singleton]

end Step

/-- The names after some applies are the stored and the applied ones. -/
lemma mem_keys_applyAll {s : Store KiveData} {l : List KiveData} {k : String × String} :
    k ∈ (applyAll s l).items.map keyOf ↔ k ∈ s.items.map keyOf ∨ k ∈ l.map keyOf := by
  induction l generalizing s with
  | nil => simp [applyAll]
  | cons config l ih =>
    change k ∈ (applyAll (applyKiveData s config).2 l).items.map keyOf ↔ _
    rw [ih, mem_keys_applyKiveData, List.map_cons, List.mem_cons, or_assoc]

/-- What is stored after the applies is what those under its name make of something. -/
lemma exists_foldl_applyEach {s : Store KiveData} {l : List KiveData} {x : KiveData}
    (hx : x ∈ (applyAll s l).items) :
    ∃ x₀, keyOf x₀ = keyOf x ∧
      (l.filter fun config => keyOf config = keyOf x).foldl applyEach x₀ = x := by
  induction l using List.reverseRecOn generalizing x with
  | nil => exact ⟨x, rfl, rfl⟩
  | append_singleton l config ih =>
    rw [applyAll_append] at hx
    change x ∈ (applyKiveData (applyAll s l) config).2.items at hx
    by_cases htaken : ∃ y ∈ (applyAll s l).items, keyOf y = keyOf config
    · obtain ⟨y, hy, hkey⟩ := htaken
      rw [(items_applyKiveData_of_mem hy hkey).1] at hx
      obtain ⟨x', hx', rfl⟩ := List.mem_map.mp hx
      obtain ⟨x₀, hkey₀, hfold⟩ := ih hx'
      split_ifs with hx'key
      · refine ⟨x₀, by rw [keyOf_applyEach, hkey₀], ?_⟩
        rw [keyOf_applyEach, List.filter_append, List.foldl_append, hfold]
        simp [hx'key]
      · refine ⟨x₀, hkey₀, ?_⟩
        rw [List.filter_append, List.foldl_append, hfold]
        simp [Ne.symm hx'key]
    · obtain ⟨y, hitems, hkey, hsame⟩ := items_applyKiveData_of_notMem
        fun x hx hkey => htaken ⟨x, hx, hkey⟩
      rw [hitems] at hx
      rcases List.mem_append.mp hx with hx | hx
      · obtain ⟨x₀, hkey₀, hfold⟩ := ih hx
        have hne : keyOf config ≠ keyOf x := fun h => htaken ⟨x, hx, h.symm⟩
        refine ⟨x₀, hkey₀, ?_⟩
        rw [List.filter_append, List.foldl_append, hfold]
        simp [hne]
      · obtain rfl := List.mem_singleton.mp hx
        -- no other configuration has the name, or the name would be taken
        have hnil : (l.filter fun config => keyOf config = keyOf x) = [] := by
          refine List.filter_eq_nil_iff.mpr fun config' hconfig' => ?_
          rw [decide_eq_true_iff]
          intro heq
          have hmem : keyOf config' ∈ (applyAll s l).items.map keyOf :=
            mem_keys_applyAll.mpr (Or.inr (List.mem_map_of_mem hconfig'))
          obtain ⟨y, hy, hykey⟩ := List.mem_map.mp hmem
          exact htaken ⟨y, hy, hykey.trans (heq.trans hkey)⟩
        refine ⟨x, rfl, ?_⟩
        rw [List.filter_append, hnil]
        simpa [hkey] using hsame

/-- Where all names are taken, each object is edited by the configurations of its name. -/
lemma items_applyAll {s : Store KiveData} {l : List KiveData}
    (h : ∀ config ∈ l, keyOf config ∈ s.items.map keyOf) :
    (applyAll s l).items = s.items.map (fun x =>
        (l.filter fun config => keyOf config = keyOf x).foldl applyEach x) ∧
      (applyAll s l).nextUID = s.nextUID := by
  induction l generalizing s with
  | nil => simp [applyAll]
  | cons config l ih =>
    obtain ⟨x, hx, hkey⟩ := List.mem_map.mp (h config List.mem_cons_self)
    obtain ⟨hitems, huid⟩ := items_applyKiveData_of_mem hx hkey
    have hrest := ih (s := (applyKiveData s config).2) fun config' hconfig' =>
      mem_keys_applyKiveData.mpr (Or.inl (h config' (List.mem_cons_of_mem config hconfig')))
    refine ⟨?_, hrest.2.trans huid⟩
    change (applyAll (applyKiveData s config).2 l).items = _
    rw [hrest.1, hitems, List.map_map]
    refine List.map_congr_left fun y _ => ?_
    rw [Function.comp_apply]
    by_cases hy : keyOf y = keyOf config
    · rw [if_pos hy, keyOf_applyEach, List.filter_cons, if_pos (decide_eq_true hy.symm),
        List.foldl_cons]
    · rw [if_neg hy, List.filter_cons, if_neg (by simpa using Ne.symm hy)]

/-- The applies have been made and nothing has overwritten them. -/
structure UpToDate (l : List KiveData) (s : Store KiveData) : Prop where
  mem_keys : ∀ config ∈ l, keyOf config ∈ s.items.map keyOf
  applied : ∀ x ∈ s.items,
    (l.filter fun config => keyOf config = keyOf x).foldl applyEach x = x

/-- After the applies the store is up to date, whatever it was before. -/
theorem upToDate_applyAll (l : List KiveData) (s : Store KiveData) :
    UpToDate l (applyAll s l) where
  mem_keys config hconfig := mem_keys_applyAll.mpr (Or.inr (List.mem_map_of_mem hconfig))
  applied x hx := by
    obtain ⟨x₀, -, hfold⟩ := exists_foldl_applyEach hx
    have hagain := foldl_applyEach_again (l.filter fun config => keyOf config = keyOf x) x₀
    rwa [hfold] at hagain

/-- Applies to a store that is up to date change nothing. -/
theorem UpToDate.applyAll_eq {l : List KiveData} {s : Store KiveData} (h : UpToDate l s) :
    applyAll s l = s := by
  obtain ⟨hitems, huid⟩ := items_applyAll h.mem_keys
  refine Store.ext_items ?_ huid
  rw [hitems]
  conv_rhs => rw [← List.map_id s.items]
  exact List.map_congr_left h.applied

end Kive
