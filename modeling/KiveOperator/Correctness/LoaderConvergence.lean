import KiveOperator.Controller.DataRun
import KiveOperator.Library.Convergence

/-!
# The loader converges to the justified KiveData

The data reconciler runs again and again on a cluster whose policies and pods stay as they are.
After each run some work is left: `runsLeft` counts the patches of finalizers that are still to
come, and a run that marks KiveData for deletion.  Every run lowers the count (`dataRun_items`),
and once it is zero the next run reaches a state that all further ones keep.

`loader_converges` says which state that is: the KiveData of the kernel that were justified and
not being deleted, their keys in the eBPF map, and nothing else.
-/

namespace Kive

open Interaction KiveDataReconciler

/-- The keys of the KiveData of a kernel. -/
def mapKeys (kernelID : String) (items : List KiveData) : Finset BpfMapKey :=
  ((items.filter fun d => OfKernel kernelID d).map KiveData.mapKey).toFinset

/-- The keys of the KiveData of the kernel. -/
lemma mem_mapKeys {kernelID : String} {items : List KiveData} {key : BpfMapKey} :
    key ∈ mapKeys kernelID items ↔ ∃ d ∈ items, OfKernel kernelID d ∧ d.mapKey = key := by
  simp [mapKeys, and_assoc]

/-- The KiveData and the map that a loader can settle: no other controller holds a KiveData of
the kernel, every key of the map belongs to one of them, and the map has room for all their
keys. -/
structure Tidy (kernelID : String) (s : LoaderState) : Prop where
  keys_nodup : (s.items.map keyOf).Nodup
  finalizers : ∀ d ∈ s.items, OfKernel kernelID d →
    ∀ f ∈ d.objectMeta.finalizers, f = kiveDataFinalizerName
  traced_subset : s.traced ⊆ mapKeys kernelID s.items
  room : (mapKeys kernelID s.items).card ≤ mapMaxEntries

/-- No other controller holds a KiveData of the kernel. -/
def OnlyLoaderHolds (kernelID : String) (items : List KiveData) : Prop :=
  ∀ d ∈ items, OfKernel kernelID d → ∀ f ∈ d.objectMeta.finalizers, f = kiveDataFinalizerName

/-- Justification looks at labels and annotations only. -/
lemma justified_congr {std : Std} {pods : List Pod} {policies : List KivePolicy} {d d' : KiveData}
    (hl : d'.objectMeta.labels = d.objectMeta.labels)
    (ha : d'.objectMeta.annotations = d.objectMeta.annotations) :
    Justified std pods policies d' ↔ Justified std pods policies d := by
  simp only [Justified, HasTrap, IsTrapOf, HasContainer, kiveDataContainerCmp_iff, hl, ha]

section Destiny

variable (std : Std) (pods : List Pod) (policies : List KivePolicy) (kernelID : String)

/-- What finally becomes of a stored KiveData. -/
def destiny (d : KiveData) : Option KiveData :=
  if OfKernel kernelID d then
    if ¬ Deleting d ∧ Justified std pods policies d
    then some (addFinalizer d kiveDataFinalizerName) else none
  else some d

/-- A KiveData that a run is to delete. -/
def Unwanted (d : KiveData) : Prop :=
  OfKernel kernelID d ∧ ¬ Deleting d ∧ ¬ Justified std pods policies d

instance (d : KiveData) : Decidable (Unwanted std pods policies kernelID d) :=
  inferInstanceAs (Decidable (_ ∧ _))

/-- How often the finalizers of a KiveData have still to be patched. -/
def patchesLeft (d : KiveData) : ℕ :=
  if OfKernel kernelID d then
    if Deleting d then 1
    else (if containsFinalizer d kiveDataFinalizerName then 0 else 1) +
      (if Justified std pods policies d then 0 else 1)
  else 0

/-- How many runs are left that change something other than adding keys to the map. -/
def runsLeft (items : List KiveData) : ℕ :=
  (items.map (patchesLeft std pods policies kernelID)).sum +
    if ∃ d ∈ items, Unwanted std pods policies kernelID d then 1 else 0

/-- Two runs for each KiveData of the kernel, and one to mark those for deletion. -/
lemma runsLeft_le (items : List KiveData) :
    runsLeft std pods policies kernelID items ≤
      2 * (items.filter fun d => OfKernel kernelID d).length + 1 := by
  have hsum : (items.map (patchesLeft std pods policies kernelID)).sum ≤
      2 * (items.filter fun d => OfKernel kernelID d).length := by
    induction items with
    | nil => simp
    | cons d items ih =>
      rw [List.map_cons, List.sum_cons]
      by_cases hd : OfKernel kernelID d
      · have hone : patchesLeft std pods policies kernelID d ≤ 2 := by
          unfold patchesLeft
          split_ifs <;> omega
        rw [List.filter_cons_of_pos (by simpa using hd), List.length_cons]
        omega
      · rw [List.filter_cons_of_neg (by simpa using hd), patchesLeft, if_neg hd]
        omega
  unfold runsLeft
  split_ifs <;> omega

variable {std pods policies kernelID}

/-- Fewer patches and nothing new to delete. -/
lemma runsLeft_lt_of {items items' : List KiveData}
    (hsum : (items'.map (patchesLeft std pods policies kernelID)).sum <
      (items.map (patchesLeft std pods policies kernelID)).sum)
    (hun : (∃ d ∈ items', Unwanted std pods policies kernelID d) →
      ∃ d ∈ items, Unwanted std pods policies kernelID d) :
    runsLeft std pods policies kernelID items' < runsLeft std pods policies kernelID items := by
  unfold runsLeft
  by_cases h' : ∃ d ∈ items', Unwanted std pods policies kernelID d
  · rw [if_pos h', if_pos (hun h')]
    omega
  · rw [if_neg h']
    omega

/-- When no run is left, every KiveData of the kernel is finalized and justified. -/
lemma kept_of_runsLeft {items : List KiveData}
    (hzero : runsLeft std pods policies kernelID items = 0) {d : KiveData} (hd : d ∈ items)
    (hof : OfKernel kernelID d) :
    ¬ Deleting d ∧ containsFinalizer d kiveDataFinalizerName = true ∧
      Justified std pods policies d := by
  have hsum : (items.map (patchesLeft std pods policies kernelID)).sum = 0 :=
    Nat.eq_zero_of_add_eq_zero_right hzero
  have hleft : patchesLeft std pods policies kernelID d = 0 :=
    List.sum_eq_zero_iff_forall_eq_nat.mp hsum _ (List.mem_map_of_mem hd)
  rw [patchesLeft, if_pos hof] at hleft
  split_ifs at hleft with hdel hfin hj
  · exact ⟨hdel, hfin, hj⟩
  · omega

/-- When every KiveData of the kernel is finalized and justified, no run is left. -/
lemma runsLeft_eq_zero {items : List KiveData}
    (hkept : ∀ d ∈ items, OfKernel kernelID d →
      ¬ Deleting d ∧ containsFinalizer d kiveDataFinalizerName = true ∧
        Justified std pods policies d) :
    runsLeft std pods policies kernelID items = 0 := by
  have hsum : (items.map (patchesLeft std pods policies kernelID)).sum = 0 := by
    refine List.sum_eq_zero_iff_forall_eq_nat.mpr fun n hn => ?_
    obtain ⟨d, hd, rfl⟩ := List.mem_map.mp hn
    by_cases hof : OfKernel kernelID d
    · obtain ⟨hlive, hfin, hj⟩ := hkept d hd hof
      rw [patchesLeft, if_pos hof, if_neg hlive, if_pos hfin, if_pos hj, Nat.add_zero]
    · rw [patchesLeft, if_neg hof]
  have hno : ¬ ∃ d ∈ items, Unwanted std pods policies kernelID d := by
    rintro ⟨d, hd, hof, -, hj⟩
    exact hj (hkept d hd hof).2.2
  rw [runsLeft, hsum, if_neg hno]

end Destiny

/-! ## Judging -/

section Judged

variable {std : Std} {pods : List Pod} {policies : List KivePolicy} {kernelID : String}
  {front : List KiveData}

variable (std pods policies front) in
/-- Judging a KiveData marks it for deletion or leaves it alone. -/
lemma judged_cases (x : KiveData) :
    (x ∈ front ∧ ¬ Justified std pods policies x ∧
      judged std pods policies front x = Store.markDeleted.toFun x) ∨
    ((x ∈ front → Justified std pods policies x) ∧ judged std pods policies front x = x) := by
  unfold judged
  split_ifs with h
  · exact Or.inl ⟨h.1, h.2, rfl⟩
  · exact Or.inr ⟨fun hx => by_contra fun hj => h ⟨hx, hj⟩, rfl⟩

variable (std pods policies front) in
/-- Judging touches nothing but the mark for deletion. -/
lemma judged_eq (x : KiveData) : ∃ b, judged std pods policies front x =
    { x with objectMeta := { x.objectMeta with deletionTimestamp := b } } := by
  rcases judged_cases std pods policies front x with
    ⟨-, -, h⟩ | ⟨-, h⟩
  · exact ⟨true, h⟩
  · exact ⟨x.objectMeta.deletionTimestamp, h⟩

/-- Judging a KiveData keeps its name. -/
lemma keyOf_judged (x : KiveData) : keyOf (judged std pods policies front x) = keyOf x := by
  obtain ⟨b, h⟩ := judged_eq std pods policies front x
  rw [h]
  rfl

/-- Judging a KiveData keeps its kernel. -/
lemma ofKernel_judged {x : KiveData} :
    OfKernel kernelID (judged std pods policies front x) ↔ OfKernel kernelID x := by
  obtain ⟨b, h⟩ := judged_eq std pods policies front x
  rw [h]
  rfl

/-- Judging a KiveData keeps its key. -/
lemma mapKey_judged (x : KiveData) : (judged std pods policies front x).mapKey = x.mapKey := by
  obtain ⟨b, h⟩ := judged_eq std pods policies front x
  rw [h]
  rfl

/-- Judging a KiveData keeps its finalizers. -/
lemma finalizers_judged (x : KiveData) :
    (judged std pods policies front x).objectMeta.finalizers = x.objectMeta.finalizers := by
  obtain ⟨b, h⟩ := judged_eq std pods policies front x
  rw [h]

/-- Judging does not change whose keys there are. -/
lemma mapKeys_judged (items : List KiveData) :
    mapKeys kernelID (items.map (judged std pods policies front)) = mapKeys kernelID items := by
  ext key
  simp [mem_mapKeys, ofKernel_judged, mapKey_judged]

/-- Judging deletes only what is not to stay. -/
lemma destiny_judged (hfront : ∀ d ∈ front, OfKernel kernelID d) (x : KiveData) :
    destiny std pods policies kernelID (judged std pods policies front x) =
      destiny std pods policies kernelID x := by
  rcases judged_cases std pods policies front x with
    ⟨hx, hj, h⟩ | ⟨-, h⟩
  · have hof : OfKernel kernelID (Store.markDeleted.toFun x) := hfront x hx
    have hdel : Deleting (Store.markDeleted.toFun x) := rfl
    rw [h, destiny, destiny, if_pos hof, if_pos (hfront x hx),
      if_neg (fun h' => h'.1 hdel), if_neg (fun h' => hj h'.2)]
  · rw [h]

/-- Judging leaves as many patches to make as before. -/
lemma patchesLeft_judged
    (hfront : ∀ d ∈ front, OfKernel kernelID d ∧ ¬ PatchDue d ∧ ¬ Deleting d) (x : KiveData) :
    patchesLeft std pods policies kernelID (judged std pods policies front x) =
      patchesLeft std pods policies kernelID x := by
  rcases judged_cases std pods policies front x with
    ⟨hx, hj, h⟩ | ⟨-, h⟩
  · obtain ⟨hof, hdue, hlive⟩ := hfront x hx
    have hof' : OfKernel kernelID (Store.markDeleted.toFun x) := hof
    have hdel : Deleting (Store.markDeleted.toFun x) := rfl
    have hfin : containsFinalizer x kiveDataFinalizerName = true := by
      by_contra hno
      exact hdue ⟨fun h' => absurd h' hlive, fun h' => absurd h' hno⟩
    rw [h, patchesLeft, patchesLeft, if_pos hof', if_pos hof,
      if_pos hdel, if_neg hlive, if_pos hfin, if_neg hj]
  · rw [h]

/-- What is still to be deleted after judging was so before, and was not judged. -/
lemma unwanted_of_judged {x : KiveData}
    (h : Unwanted std pods policies kernelID (judged std pods policies front x)) :
    Unwanted std pods policies kernelID x ∧ x ∉ front := by
  rcases judged_cases std pods policies front x with
    ⟨-, -, heq⟩ | ⟨hj, heq⟩
  · rw [heq] at h
    exact absurd rfl h.2.1
  · rw [heq] at h
    exact ⟨h, fun hx => h.2.2 (hj hx)⟩

/-- Judging does not add to what is left. -/
lemma runsLeft_judged_le {items : List KiveData}
    (hfront : ∀ d ∈ front, OfKernel kernelID d ∧ ¬ PatchDue d ∧ ¬ Deleting d) :
    runsLeft std pods policies kernelID (items.map (judged std pods policies front)) ≤
      runsLeft std pods policies kernelID items := by
  have hsum : (items.map (judged std pods policies front)).map
      (patchesLeft std pods policies kernelID) =
        items.map (patchesLeft std pods policies kernelID) := by
    rw [List.map_map]
    exact List.map_congr_left fun x _ => patchesLeft_judged hfront x
  have hun : (∃ d ∈ items.map (judged std pods policies front),
      Unwanted std pods policies kernelID d) →
        ∃ d ∈ items, Unwanted std pods policies kernelID d := by
    rintro ⟨y, hy, hun⟩
    obtain ⟨x, hx, rfl⟩ := List.mem_map.mp hy
    exact ⟨x, hx, (unwanted_of_judged hun).1⟩
  unfold runsLeft
  rw [hsum]
  by_cases h' : ∃ d ∈ items.map (judged std pods policies front),
      Unwanted std pods policies kernelID d
  · rw [if_pos h', if_pos (hun h')]
  · rw [if_neg h']
    omega

/-- Judging all KiveData of the kernel leaves nothing to delete. -/
lemma runsLeft_judged_lt {items : List KiveData}
    (hfront : ∀ d ∈ front, OfKernel kernelID d ∧ ¬ PatchDue d ∧ ¬ Deleting d)
    (hall : ∀ d ∈ items, OfKernel kernelID d → d ∈ front)
    (hleft : runsLeft std pods policies kernelID items ≠ 0) :
    runsLeft std pods policies kernelID (items.map (judged std pods policies front)) <
      runsLeft std pods policies kernelID items := by
  have hsum : (items.map (judged std pods policies front)).map
      (patchesLeft std pods policies kernelID) =
        items.map (patchesLeft std pods policies kernelID) := by
    rw [List.map_map]
    exact List.map_congr_left fun x _ => patchesLeft_judged hfront x
  have hno : ¬ ∃ d ∈ items.map (judged std pods policies front),
      Unwanted std pods policies kernelID d := by
    rintro ⟨y, hy, hun⟩
    obtain ⟨x, hx, rfl⟩ := List.mem_map.mp hy
    obtain ⟨hx', hnot⟩ := unwanted_of_judged hun
    exact hnot (hall x hx hx'.1)
  have hsome : ∃ d ∈ items, Unwanted std pods policies kernelID d := by
    by_contra hnone
    refine hleft (runsLeft_eq_zero fun d hd hof => ?_)
    obtain ⟨-, hdue, hlive⟩ := hfront d (hall d hd hof)
    refine ⟨hlive, ?_, by_contra fun hj => hnone ⟨d, hd, hof, hlive, hj⟩⟩
    by_contra hfin
    exact hdue ⟨fun h => absurd h hlive, fun h => absurd h hfin⟩
  unfold runsLeft
  rw [hsum, if_neg hno, if_pos hsome]
  omega

variable (std pods policies front) in
/-- Judging touches no finalizers. -/
lemma onlyLoaderHolds_judgeAll {s : LoaderState} (h : OnlyLoaderHolds kernelID s.items) :
    OnlyLoaderHolds kernelID (judgeAll std pods policies front s).items := by
  intro y hy hof
  obtain ⟨x, hx, rfl⟩ := List.mem_map.mp hy
  rw [finalizers_judged]
  exact h x hx (ofKernel_judged.mp hof)

variable (std pods policies) in
/-- What is not judged stays. -/
lemma mem_items_judgeAll {s : LoaderState} {d : KiveData} (hfront : d ∉ front)
    (hd : d ∈ s.items) : d ∈ (judgeAll std pods policies front s).items :=
  List.mem_map.mpr ⟨d, hd, if_neg fun h => hfront h.1⟩

/-- The keys of the judged KiveData are those from before. -/
lemma keys_judgeAll (s : LoaderState) :
    (judgeAll std pods policies front s).items.map keyOf = s.items.map keyOf := by
  have hkey : keyOf ∘ judged std pods policies front = keyOf := funext keyOf_judged
  rw [judgeAll, List.map_map, hkey]

variable (std pods policies) in
/-- Judging adds the keys of the justified KiveData to the map. -/
lemma traced_judgeAll {s : LoaderState} (h : Tidy kernelID s)
    (hfront : ∀ d ∈ front, d ∈ s.items ∧ OfKernel kernelID d) :
    (judgeAll std pods policies front s).traced = s.traced ∪
      ((front.filter fun d => Justified std pods policies d).map KiveData.mapKey).toFinset := by
  refine TracedInodes.addInodes_eq h.traced_subset (fun key hkey => ?_) h.room
  obtain ⟨d, hd, rfl⟩ := List.mem_map.mp hkey
  obtain ⟨hmem, hof⟩ := hfront d (List.mem_filter.mp hd).1
  exact mem_mapKeys.mpr ⟨d, hmem, hof, rfl⟩

variable (std pods policies) in
/-- Judging keeps the state tidy. -/
lemma tidy_judgeAll {s : LoaderState} (h : Tidy kernelID s)
    (hfront : ∀ d ∈ front, d ∈ s.items ∧ OfKernel kernelID d) :
    Tidy kernelID (judgeAll std pods policies front s) := by
  have htraced := traced_judgeAll std pods policies h hfront
  refine ⟨?_, onlyLoaderHolds_judgeAll std pods policies front h.finalizers, ?_, ?_⟩
  · rw [keys_judgeAll]
    exact h.keys_nodup
  · rw [htraced, judgeAll, mapKeys_judged]
    refine Finset.union_subset h.traced_subset fun key hkey => ?_
    obtain ⟨d, hd, rfl⟩ := List.mem_map.mp (List.mem_toFinset.mp hkey)
    obtain ⟨hmem, hof⟩ := hfront d (List.mem_filter.mp hd).1
    exact mem_mapKeys.mpr ⟨d, hmem, hof, rfl⟩
  · rw [judgeAll, mapKeys_judged]
    exact h.room

end Judged

/-! ## Patching -/

section Finished

variable {std : Std} {pods : List Pod} {policies : List KivePolicy} {kernelID : String}

/-- What a patch leaves of a KiveData that no other controller holds. -/
def finished (d : KiveData) : Option KiveData :=
  if Deleting d then none else some (addFinalizer d kiveDataFinalizerName)

/-- A patch replaces the KiveData by what it leaves of it. -/
lemma items_finish {d : KiveData} (s : LoaderState)
    (hfin : ∀ f ∈ d.objectMeta.finalizers, f = kiveDataFinalizerName) :
    (finish d s).items = Store.replace s.items d (finished d) := by
  unfold finish finished
  split_ifs with hdel
  · have hnone : (removeFinalizer d kiveDataFinalizerName).objectMeta.finalizers = [] := by
      refine List.filter_eq_nil_iff.mpr fun f hf => ?_
      simpa using hfin f hf
    have hgone : settle (removeFinalizer d kiveDataFinalizerName) = none :=
      if_pos ⟨hdel, hnone⟩
    rw [hgone]
  · rfl

/-- Adding the finalizer touches nothing but the finalizers. -/
lemma addFinalizer_eq (d : KiveData) : ∃ fs, addFinalizer d kiveDataFinalizerName =
    { d with objectMeta := { d.objectMeta with finalizers := fs } } := by
  unfold addFinalizer
  split_ifs
  · exact ⟨d.objectMeta.finalizers, rfl⟩
  · exact ⟨_, rfl⟩

/-- A finalizer that is there is not added again. -/
lemma addFinalizer_of_contains {d : KiveData}
    (h : containsFinalizer d kiveDataFinalizerName = true) :
    addFinalizer d kiveDataFinalizerName = d :=
  if_pos h

/-- The finalizer is no part of the kernel. -/
lemma ofKernel_addFinalizer {d : KiveData} :
    OfKernel kernelID (addFinalizer d kiveDataFinalizerName) ↔ OfKernel kernelID d := by
  obtain ⟨fs, h⟩ := addFinalizer_eq d
  rw [h]
  rfl

/-- The finalizer does not change the mark for deletion. -/
lemma deleting_addFinalizer {d : KiveData} :
    Deleting (addFinalizer d kiveDataFinalizerName) ↔ Deleting d := by
  obtain ⟨fs, h⟩ := addFinalizer_eq d
  rw [h]
  rfl

/-- The finalizer justifies nothing. -/
lemma justified_addFinalizer {d : KiveData} :
    Justified std pods policies (addFinalizer d kiveDataFinalizerName) ↔
      Justified std pods policies d := by
  obtain ⟨fs, h⟩ := addFinalizer_eq d
  rw [h]
  exact justified_congr rfl rfl

/-- The finalizer is no part of the key. -/
lemma mapKey_addFinalizer (d : KiveData) :
    (addFinalizer d kiveDataFinalizerName).mapKey = d.mapKey := by
  obtain ⟨fs, h⟩ := addFinalizer_eq d
  rw [h]
  rfl

/-- What a patch leaves of a KiveData has its key, its key of the map, its kernel and, being not
marked for deletion, the finalizer and no other. -/
lemma mem_finished {d y : KiveData} (h : y ∈ finished d) :
    ¬ Deleting d ∧ y = addFinalizer d kiveDataFinalizerName := by
  unfold finished at h
  split_ifs at h with hdel
  · cases h
  · exact ⟨hdel, (Option.some.inj h).symm⟩

variable (std pods policies) in
/-- A patch takes away only what is not to stay. -/
lemma destiny_finished {d : KiveData} (hof : OfKernel kernelID d) :
    (finished d).bind (destiny std pods policies kernelID) =
      destiny std pods policies kernelID d := by
  unfold finished
  split_ifs with hdel
  · rw [Option.bind_none, destiny, if_pos hof, if_neg fun h => h.1 hdel]
  · simp only [Option.bind_some, destiny, ofKernel_addFinalizer, deleting_addFinalizer,
      justified_addFinalizer, addFinalizer_of_contains (containsFinalizer_addFinalizer d _)]
    rw [if_pos hof, if_pos hof]

variable (std pods policies) in
/-- A patch that was due is one less to make. -/
lemma patchesLeft_finished {d : KiveData} (hof : OfKernel kernelID d) (hdue : PatchDue d) :
    ((finished d).toList.map (patchesLeft std pods policies kernelID)).sum <
      patchesLeft std pods policies kernelID d := by
  unfold finished
  split_ifs with hdel
  · simp [patchesLeft, hof, hdel]
  · have hfin : containsFinalizer d kiveDataFinalizerName ≠ true := fun h => hdel (hdue.mpr h)
    simp [patchesLeft, ofKernel_addFinalizer, deleting_addFinalizer, justified_addFinalizer,
      containsFinalizer_addFinalizer, hof, hdel, hfin]

/-- What is there after a patch: a KiveData from before, or what the patch leaves. -/
lemma mem_items_finish {s : LoaderState} {d y : KiveData}
    (hheld : OnlyLoaderHolds kernelID s.items) (hd : d ∈ s.items) (hof : OfKernel kernelID d)
    (hy : y ∈ (finish d s).items) : y ∈ s.items ∨ y ∈ finished d := by
  rw [items_finish s (hheld d hd hof)] at hy
  exact Store.mem_of_mem_replace hy

/-- A patch leaves no finalizers but that of the data reconciler. -/
lemma onlyLoaderHolds_finish {s : LoaderState} {d : KiveData}
    (hheld : OnlyLoaderHolds kernelID s.items) (hd : d ∈ s.items) (hof : OfKernel kernelID d) :
    OnlyLoaderHolds kernelID (finish d s).items := by
  intro y hy hofy
  rcases mem_items_finish hheld hd hof hy with hy | hy
  · exact hheld y hy hofy
  · obtain ⟨-, rfl⟩ := mem_finished hy
    unfold addFinalizer
    split_ifs
    · exact hheld d hd hof
    · intro f hf
      rcases List.mem_append.mp hf with hf | hf
      · exact hheld d hd hof f hf
      · exact List.mem_singleton.mp hf

variable (std pods policies) in
/-- A patch that was due lowers the count of runs left, and takes away only what is not to
stay. -/
lemma finish_lowers {s : LoaderState} {d : KiveData} (hnodup : s.items.Nodup)
    (hheld : OnlyLoaderHolds kernelID s.items) (hd : d ∈ s.items) (hof : OfKernel kernelID d)
    (hdue : PatchDue d) :
    (finish d s).items.filterMap (destiny std pods policies kernelID) =
      s.items.filterMap (destiny std pods policies kernelID) ∧
    runsLeft std pods policies kernelID (finish d s).items <
      runsLeft std pods policies kernelID s.items := by
  obtain ⟨l₁, l₂, hl, hreplace⟩ := Store.exists_replace_eq hnodup hd
  rw [items_finish s (hheld d hd hof), hreplace, hl]
  constructor
  · have hd' := destiny_finished std pods policies hof
    rw [List.append_assoc, List.filterMap_append, List.filterMap_append, List.filterMap_append,
      List.filterMap_cons, ← hd']
    cases hfin : finished d with
    | none => simp
    | some y => cases hy : destiny std pods policies kernelID y <;> simp [hy]
  · refine runsLeft_lt_of ?_ ?_
    · have hlt := patchesLeft_finished std pods policies hof hdue
      simp only [List.map_append, List.sum_append, List.map_cons, List.sum_cons]
      omega
    · rintro ⟨y, hy, hun⟩
      simp only [List.mem_append, Option.mem_toList, List.mem_cons] at hy ⊢
      rcases hy with (hy | hy) | hy
      · exact ⟨y, Or.inl hy, hun⟩
      · obtain ⟨-, rfl⟩ := mem_finished hy
        refine ⟨d, Or.inr (Or.inl rfl), hof, ?_, ?_⟩
        · exact fun hdel => hun.2.1 (deleting_addFinalizer.mpr hdel)
        · exact fun hj => hun.2.2 (justified_addFinalizer.mpr hj)
      · exact ⟨y, Or.inr (Or.inr hy), hun⟩

/-- A patch keeps the state tidy. -/
lemma tidy_finish {s : LoaderState} {d : KiveData} (h : Tidy kernelID s) (hd : d ∈ s.items)
    (hof : OfKernel kernelID d) : Tidy kernelID (finish d s) := by
  obtain ⟨l₁, l₂, hl, hreplace⟩ := Store.exists_replace_eq h.keys_nodup.of_map hd
  have hitems : (finish d s).items = l₁ ++ (finished d).toList ++ l₂ := by
    rw [items_finish s (h.finalizers d hd hof), hreplace]
  have hsub : mapKeys kernelID (finish d s).items ⊆ mapKeys kernelID s.items := by
    intro key hkey
    obtain ⟨y, hy, hofy, rfl⟩ := mem_mapKeys.mp hkey
    rcases mem_items_finish h.finalizers hd hof hy with hy | hy
    · exact mem_mapKeys.mpr ⟨y, hy, hofy, rfl⟩
    · obtain ⟨-, rfl⟩ := mem_finished hy
      exact mem_mapKeys.mpr ⟨d, hd, hof, (mapKey_addFinalizer d).symm⟩
  refine ⟨?_, onlyLoaderHolds_finish h.finalizers hd hof, ?_,
    (Finset.card_le_card hsub).trans h.room⟩
  · have hsublist : ((finish d s).items.map keyOf).Sublist (s.items.map keyOf) := by
      rw [hitems, hl, List.append_assoc, List.map_append, List.map_append, List.map_append,
        List.map_cons]
      refine (List.Sublist.refl _).append ?_
      cases hfin : finished d with
      | none => exact List.Sublist.cons _ (List.Sublist.refl _)
      | some y =>
        obtain ⟨-, rfl⟩ := mem_finished (Option.mem_def.mpr hfin)
        have hkey : keyOf (addFinalizer d kiveDataFinalizerName) = keyOf d := by
          obtain ⟨fs, heq⟩ := addFinalizer_eq d
          rw [heq]
          rfl
        simp [hkey]
    exact h.keys_nodup.sublist hsublist
  · intro key hkey
    have hold : key ∈ s.traced := by
      unfold finish at hkey
      split_ifs at hkey
      · exact Finset.mem_of_mem_erase hkey
      · exact hkey
    obtain ⟨x, hx, hofx, hxkey⟩ := mem_mapKeys.mp (h.traced_subset hold)
    by_cases hxd : x = d
    · subst hxd
      by_cases hdel : Deleting x
      · rw [finish, if_pos hdel] at hkey
        exact absurd hxkey.symm (Finset.ne_of_mem_erase hkey)
      · refine mem_mapKeys.mpr ⟨addFinalizer x kiveDataFinalizerName, ?_,
          ofKernel_addFinalizer.mpr hofx, (mapKey_addFinalizer x).trans hxkey⟩
        rw [hitems, finished, if_neg hdel]
        simp
    · refine mem_mapKeys.mpr ⟨x, ?_, hofx, hxkey⟩
      rw [hl] at hx
      rw [hitems]
      simp only [List.mem_append, List.mem_cons, hxd, false_or] at hx ⊢
      rcases hx with hx | hx
      · exact Or.inl (Or.inl hx)
      · exact Or.inr hx

end Finished

/-! ## Runs -/

section Runs

variable (std : Std) (podFields : PodFields) (node kernelID : String)

/-- What the runs start from: the program is loaded, no other controller holds a KiveData of the
kernel, every key of the map belongs to one of them, and the map has room for all their keys. -/
structure Loadable (w : World) : Prop where
  loaded : (w.kernels kernelID).loaded = true
  finalizers : ∀ d ∈ w.cluster.kiveData.items, OfKernel kernelID d →
    ∀ f ∈ d.objectMeta.finalizers, f = kiveDataFinalizerName
  traced_subset : (w.kernels kernelID).tracedInodes ⊆ mapKeys kernelID w.cluster.kiveData.items
  room : (mapKeys kernelID w.cluster.kiveData.items).card ≤ mapMaxEntries

/-- The states that runs keep: every KiveData of the kernel is finalized and justified, and the
map has exactly their keys. -/
structure Settled (w : World) : Prop where
  loaded : (w.kernels kernelID).loaded = true
  cachedKiveData : (w.kernels kernelID).cachedKiveData = w.cluster.kiveData.items
  cachedKivePolicies : (w.kernels kernelID).cachedKivePolicies = w.cluster.kivePolicies.items
  kept : ∀ d ∈ w.cluster.kiveData.items, OfKernel kernelID d →
    ¬ Deleting d ∧ containsFinalizer d kiveDataFinalizerName = true ∧
      Justified std w.cluster.pods w.cluster.kivePolicies.items d
  traced : (w.kernels kernelID).tracedInodes = mapKeys kernelID w.cluster.kiveData.items

variable {std podFields node kernelID}

/-- Judging justified KiveData whose keys are in the map changes nothing. -/
lemma runE_dataLoop_settled (hf : podFields.Standard) {w : World} (h : Settled std kernelID w)
    {l : List KiveData} (hl : ∀ d ∈ l, d ∈ w.cluster.kiveData.items ∧ OfKernel kernelID d) :
    Prog.runE (handle std podFields node kernelID)
      (dataLoop std w.cluster.kivePolicies.items l) w = (.ok (), w) := by
  induction l with
  | nil => rfl
  | cons d l ih =>
    obtain ⟨hd, hof⟩ := hl d List.mem_cons_self
    obtain ⟨hlive, hfin, hj⟩ := h.kept d hd hof
    have hdue : ¬ PatchDue d := fun hdue => hlive (hdue.mpr hfin)
    have hkey : d.mapKey ∈ (w.kernels kernelID).tracedInodes :=
      h.traced ▸ mem_mapKeys.mpr ⟨d, hd, hof, rfl⟩
    have hsame : ((w.kernels kernelID).addInode d.mapKey).2 = w.kernels kernelID := by
      rw [Kernel.addInode, dif_pos h.loaded]
      simp only [TracedInodes.addInode_of_mem hkey]
    rw [runE_dataLoop_judge std _ _ l w hdue hlive, run_judge std node kernelID hf, if_pos hj,
      hsame, World.setKernel, Function.update_eq_self]
    exact ih fun x hx => hl x (List.mem_cons_of_mem d hx)

/-- A run keeps a settled state. -/
lemma dataRun_settled (hf : podFields.Standard) {w : World} (h : Settled std kernelID w) :
    dataRun std podFields node kernelID w = w := by
  have hfresh : w.refreshCaches kernelID = w := by
    rw [World.refreshCaches, ← h.cachedKiveData, ← h.cachedKivePolicies, World.setKernel,
      Function.update_eq_self]
  rw [dataRun, hfresh, run_reconcile_of_loaded std node kernelID h.loaded, h.cachedKivePolicies,
    h.cachedKiveData, listKiveData_kiveDataLabels, runE_dataLoop_settled hf h]
  intro d hd
  simpa using List.mem_filter.mp hd

/-- KiveData that are finalized and justified are what finally becomes of them. -/
lemma filterMap_destiny_of_kept {pods : List Pod} {policies : List KivePolicy}
    {items : List KiveData} (hkept : ∀ d ∈ items, OfKernel kernelID d →
      ¬ Deleting d ∧ containsFinalizer d kiveDataFinalizerName = true ∧
        Justified std pods policies d) :
    items.filterMap (destiny std pods policies kernelID) = items := by
  have hid : ∀ d ∈ items, destiny std pods policies kernelID d = some d := by
    intro d hd
    unfold destiny
    split_ifs with hof hlive
    · rw [addFinalizer_of_contains (hkept d hd hof).2.1]
    · exact absurd ⟨(hkept d hd hof).1, (hkept d hd hof).2.2⟩ hlive
    · rfl
  rw [List.filterMap_congr hid, List.filterMap_some]

/-- In a settled state every stored KiveData is what finally becomes of it. -/
lemma Settled.filterMap_destiny {w : World} (h : Settled std kernelID w) :
    w.cluster.kiveData.items.filterMap
      (destiny std w.cluster.pods w.cluster.kivePolicies.items kernelID) =
      w.cluster.kiveData.items :=
  filterMap_destiny_of_kept h.kept

/-- What a loader can settle is tidy. -/
lemma Loadable.tidy {w : World} (h : Loadable kernelID w) :
    Tidy kernelID (loaderState kernelID w) :=
  ⟨w.cluster.kiveData.keys_nodup, h.finalizers, h.traced_subset, h.room⟩

/-- A tidy state of a loaded program can be settled. -/
lemma Loadable.of_tidy {w : World} (hloaded : (w.kernels kernelID).loaded = true)
    (h : Tidy kernelID (loaderState kernelID w)) : Loadable kernelID w :=
  ⟨hloaded, h.finalizers, h.traced_subset, h.room⟩

/-- A KiveData of the kernel that is being deleted waits for the loader. -/
lemma patchDue_of_onlyLoaderHolds {w : World}
    (hheld : OnlyLoaderHolds kernelID w.cluster.kiveData.items) {d : KiveData}
    (hd : d ∈ w.cluster.kiveData.items) (hof : OfKernel kernelID d) (hdel : Deleting d) :
    PatchDue d := by
  obtain ⟨f, hmem⟩ := List.exists_mem_of_ne_nil _ (w.cluster.kiveData.finalized d hd hdel)
  have hfin : containsFinalizer d kiveDataFinalizerName = true :=
    List.contains_iff_mem.mpr (hheld d hd hof f hmem ▸ hmem)
  exact ⟨fun _ => hfin, fun _ => hdel⟩

variable (std node) in
/-- What a run does to the KiveData, with the program loaded. -/
lemma dataRun_items_of_loaded (hf : podFields.Standard) {w : World}
    (hloaded : (w.kernels kernelID).loaded = true)
    (hheld : OnlyLoaderHolds kernelID w.cluster.kiveData.items) :
    let w' := dataRun std podFields node kernelID w
    (w'.kernels kernelID).loaded = true ∧
    OnlyLoaderHolds kernelID w'.cluster.kiveData.items ∧
    w'.cluster.pods = w.cluster.pods ∧
    w'.cluster.kivePolicies = w.cluster.kivePolicies ∧
    w'.cluster.kiveData.items.filterMap
        (destiny std w.cluster.pods w.cluster.kivePolicies.items kernelID) =
      w.cluster.kiveData.items.filterMap
        (destiny std w.cluster.pods w.cluster.kivePolicies.items kernelID) ∧
    (runsLeft std w.cluster.pods w.cluster.kivePolicies.items kernelID
        w.cluster.kiveData.items ≠ 0 →
      runsLeft std w.cluster.pods w.cluster.kivePolicies.items kernelID
        w'.cluster.kiveData.items <
      runsLeft std w.cluster.pods w.cluster.kivePolicies.items kernelID
        w.cluster.kiveData.items) := by
  obtain ⟨front, rest, hsplit, hfront, hrest, hstate, hview⟩ :=
    dataRun_cases std node kernelID hf hloaded fun d => patchDue_of_onlyLoaderHolds hheld
  set w' := dataRun std podFields node kernelID w with hw'
  set pods := w.cluster.pods with hpods
  set policies := w.cluster.kivePolicies.items with hpolicies
  have hloaded' : (w'.kernels kernelID).loaded = true := by
    rw [hview.loaded]
    simpa [World.refreshCaches] using hloaded
  have hmem : ∀ d, d ∈ front ++ rest ↔ d ∈ w.cluster.kiveData.items ∧ OfKernel kernelID d := by
    intro d
    rw [← hsplit, List.mem_filter, decide_eq_true_iff]
  have hjudge : ∀ d ∈ front, OfKernel kernelID d ∧ ¬ PatchDue d ∧ ¬ Deleting d := fun d hd =>
    ⟨((hmem d).mp (List.mem_append_left rest hd)).2, hfront d hd⟩
  have hheld₁ :=
    onlyLoaderHolds_judgeAll std pods policies front (s := loaderState kernelID w) hheld
  have hdestiny : (judgeAll std pods policies front (loaderState kernelID w)).items.filterMap
        (destiny std pods policies kernelID) =
      w.cluster.kiveData.items.filterMap (destiny std pods policies kernelID) := by
    rw [judgeAll, List.filterMap_map]
    exact List.filterMap_congr fun x _ => destiny_judged (fun d hd => (hjudge d hd).1) x
  have hitems' := congrArg LoaderState.items hstate
  change w'.cluster.kiveData.items = _ at hitems'
  refine ⟨hloaded', ?_, hview.pods, hview.kivePolicies, ?_⟩
  · rw [hitems']
    cases hcase : rest with
    | nil => exact hheld₁
    | cons d l =>
      obtain ⟨hd, hof⟩ := (hmem d).mp (List.mem_append_right front (by simp [hcase]))
      have hd₁ := mem_items_judgeAll std pods policies (s := loaderState kernelID w)
        (fun hd' => (hfront d hd').1 (hrest d (by simp [hcase]))) hd
      exact onlyLoaderHolds_finish hheld₁ hd₁ hof
  · rw [hitems']
    cases hcase : rest with
    | nil =>
      refine ⟨hdestiny, fun hleft => runsLeft_judged_lt hjudge (fun d hd hof => ?_) hleft⟩
      simpa [hcase] using (hmem d).mpr ⟨hd, hof⟩
    | cons d l =>
      have hdue : PatchDue d := hrest d (by simp [hcase])
      obtain ⟨hd, hof⟩ := (hmem d).mp (List.mem_append_right front (by simp [hcase]))
      have hd₁ := mem_items_judgeAll std pods policies (s := loaderState kernelID w)
        (fun hd' => (hfront d hd').1 hdue) hd
      have hnodup : (judgeAll std pods policies front (loaderState kernelID w)).items.Nodup := by
        refine List.Nodup.of_map keyOf ?_
        rw [keys_judgeAll]
        exact w.cluster.kiveData.keys_nodup
      obtain ⟨hdestiny', hlt⟩ := finish_lowers std pods policies hnodup hheld₁ hd₁ hof hdue
      exact ⟨hdestiny'.trans hdestiny, fun _ => hlt.trans_le (runsLeft_judged_le hjudge)⟩

variable (std node) in
/-- What a run does to the KiveData: it lowers the count of what is left, and takes away only what
is not to stay. -/
theorem dataRun_items (hf : podFields.Standard) {w : World}
    (hheld : OnlyLoaderHolds kernelID w.cluster.kiveData.items) :
    let w' := dataRun std podFields node kernelID w
    (w'.kernels kernelID).loaded = true ∧
    OnlyLoaderHolds kernelID w'.cluster.kiveData.items ∧
    w'.cluster.pods = w.cluster.pods ∧
    w'.cluster.kivePolicies = w.cluster.kivePolicies ∧
    w'.cluster.kiveData.items.filterMap
        (destiny std w.cluster.pods w.cluster.kivePolicies.items kernelID) =
      w.cluster.kiveData.items.filterMap
        (destiny std w.cluster.pods w.cluster.kivePolicies.items kernelID) ∧
    (runsLeft std w.cluster.pods w.cluster.kivePolicies.items kernelID
        w.cluster.kiveData.items ≠ 0 →
      runsLeft std w.cluster.pods w.cluster.kivePolicies.items kernelID
        w'.cluster.kiveData.items <
      runsLeft std w.cluster.pods w.cluster.kivePolicies.items kernelID
        w.cluster.kiveData.items) := by
  cases hloaded : (w.kernels kernelID).loaded with
  | true => exact dataRun_items_of_loaded std node hf hloaded hheld
  | false =>
    rw [dataRun_of_not_loaded std node kernelID hloaded]
    exact dataRun_items_of_loaded std node hf (w := w.setKernel kernelID _)
      (by simp [Kernel.load]) hheld

variable (std node) in
/-- What any number of runs does to them. -/
lemma iterate_dataRun_items (hf : podFields.Standard) {w : World}
    (hheld : OnlyLoaderHolds kernelID w.cluster.kiveData.items) (m : ℕ) :
    let w' := (dataRun std podFields node kernelID)^[m] w
    OnlyLoaderHolds kernelID w'.cluster.kiveData.items ∧
    w'.cluster.pods = w.cluster.pods ∧
    w'.cluster.kivePolicies = w.cluster.kivePolicies ∧
    w'.hosts = w.hosts ∧
    w'.cluster.kiveData.items.filterMap
        (destiny std w.cluster.pods w.cluster.kivePolicies.items kernelID) =
      w.cluster.kiveData.items.filterMap
        (destiny std w.cluster.pods w.cluster.kivePolicies.items kernelID) := by
  induction m with
  | zero => exact ⟨hheld, rfl, rfl, rfl, rfl⟩
  | succ m ih =>
    rw [Function.iterate_succ_apply']
    obtain ⟨hheld', hpods, hpolicies, hhosts, hstay⟩ := ih
    obtain ⟨-, hheld'', hpods', hpolicies', hstay', -⟩ := dataRun_items std node hf hheld'
    rw [hpods, hpolicies] at hstay'
    exact ⟨hheld'', hpods'.trans hpods, hpolicies'.trans hpolicies,
      (hosts_dataRun std node kernelID _).trans hhosts, hstay'.trans hstay⟩

variable (std node) in
/-- When runs have come to change nothing, the KiveData are what finally becomes of those that were
there before. -/
theorem iterate_dataRun_of_stable (hf : podFields.Standard) {w : World}
    (hheld : OnlyLoaderHolds kernelID w.cluster.kiveData.items) {m : ℕ}
    (hstable : (dataRun std podFields node kernelID
        ((dataRun std podFields node kernelID)^[m] w)).cluster.kiveData.items =
      ((dataRun std podFields node kernelID)^[m] w).cluster.kiveData.items) :
    ((dataRun std podFields node kernelID)^[m] w).cluster.kiveData.items =
      w.cluster.kiveData.items.filterMap
        (destiny std w.cluster.pods w.cluster.kivePolicies.items kernelID) := by
  obtain ⟨hheld', hpods, hpolicies, -, hstay⟩ := iterate_dataRun_items std node hf hheld m
  obtain ⟨-, -, -, -, -, hlow⟩ := dataRun_items std node hf hheld'
  have hzero : runsLeft std w.cluster.pods w.cluster.kivePolicies.items kernelID
      ((dataRun std podFields node kernelID)^[m] w).cluster.kiveData.items = 0 := by
    by_contra hleft
    rw [hstable, hpods, hpolicies] at hlow
    exact lt_irrefl _ (hlow hleft)
  rw [← hstay]
  exact (filterMap_destiny_of_kept fun d hd hof => kept_of_runsLeft hzero hd hof).symm

variable (std node) in
/-- A run keeps a loadable state. -/
lemma loadable_dataRun (hf : podFields.Standard) {w : World} (h : Loadable kernelID w) :
    Loadable kernelID (dataRun std podFields node kernelID w) := by
  obtain ⟨front, rest, hsplit, hfront, hrest, hstate, -⟩ :=
    dataRun_cases std node kernelID hf h.loaded fun d => patchDue_of_onlyLoaderHolds h.finalizers
  have hmem : ∀ d ∈ front ++ rest, d ∈ w.cluster.kiveData.items ∧ OfKernel kernelID d := by
    intro d hd
    rw [← hsplit, List.mem_filter, decide_eq_true_iff] at hd
    exact hd
  have htidy := tidy_judgeAll std w.cluster.pods w.cluster.kivePolicies.items h.tidy fun d hd =>
    hmem d (List.mem_append_left rest hd)
  refine .of_tidy (dataRun_items std node hf h.finalizers).1 ?_
  rw [hstate]
  cases hcase : rest with
  | nil => exact htidy
  | cons d l =>
    obtain ⟨hd, hof⟩ := hmem d (List.mem_append_right front (by simp [hcase]))
    refine tidy_finish htidy (mem_items_judgeAll _ _ _ (fun hd' => ?_) hd) hof
    exact (hfront d hd').1 (hrest d (by simp [hcase]))

variable (std node) in
/-- When nothing is left, a run settles. -/
lemma settled_dataRun (hf : podFields.Standard) {w : World} (h : Loadable kernelID w)
    (hzero : runsLeft std w.cluster.pods w.cluster.kivePolicies.items kernelID
      w.cluster.kiveData.items = 0) :
    Settled std kernelID (dataRun std podFields node kernelID w) := by
  obtain ⟨front, rest, hsplit, hfront, hrest, hstate, hview⟩ :=
    dataRun_cases std node kernelID hf h.loaded fun d => patchDue_of_onlyLoaderHolds h.finalizers
  have htidy' := (loadable_dataRun std node hf h).tidy
  set w' := dataRun std podFields node kernelID w with hw'
  set pods := w.cluster.pods with hpods
  set policies := w.cluster.kivePolicies.items with hpolicies
  have hmem : ∀ d, d ∈ front ++ rest ↔ d ∈ w.cluster.kiveData.items ∧ OfKernel kernelID d := by
    intro d
    rw [← hsplit, List.mem_filter, decide_eq_true_iff]
  have hkept := fun d hd hof => kept_of_runsLeft hzero (d := d) hd hof
  -- no KiveData that is kept needs a patch
  obtain rfl : rest = [] := by
    cases hcase : rest with
    | nil => rfl
    | cons d l =>
      obtain ⟨hd, hof⟩ := (hmem d).mp (List.mem_append_right front (by simp [hcase]))
      obtain ⟨hlive, hfin, -⟩ := hkept d hd hof
      exact absurd ((hrest d (by simp [hcase])).mpr hfin) hlive
  have hall : ∀ d ∈ w.cluster.kiveData.items, OfKernel kernelID d → d ∈ front := by
    intro d hd hof
    simpa using (hmem d).mpr ⟨hd, hof⟩
  have hstored : ∀ d ∈ front, d ∈ w.cluster.kiveData.items ∧ OfKernel kernelID d := fun d hd =>
    (hmem d).mp (List.mem_append_left [] hd)
  have hsame : w'.cluster.kiveData.items = w.cluster.kiveData.items := by
    have hid : ∀ x ∈ w.cluster.kiveData.items, judged std pods policies front x = id x :=
      fun x hx => if_neg fun hj => hj.2 (hkept x hx (hstored x hj.1).2).2.2
    have hitems' : w'.cluster.kiveData.items =
        w.cluster.kiveData.items.map (judged std pods policies front) :=
      congrArg LoaderState.items hstate
    rw [hitems', List.map_congr_left hid, List.map_id]
  refine ⟨(loadable_dataRun std node hf h).loaded, ?_, ?_, ?_, ?_⟩
  · rw [hview.cachedKiveData, hsame]
    simp [World.refreshCaches]
  · rw [hview.cachedKivePolicies, hview.kivePolicies]
    simp [World.refreshCaches]
  · rw [hsame, hview.pods, hview.kivePolicies]
    exact hkept
  · have htraced : (w'.kernels kernelID).tracedInodes = _ :=
      (congrArg LoaderState.traced hstate).trans
        (traced_judgeAll std pods policies h.tidy hstored)
    refine Finset.Subset.antisymm htidy'.traced_subset fun key hkey => ?_
    rw [hsame] at hkey
    obtain ⟨d, hd, hof, rfl⟩ := mem_mapKeys.mp hkey
    rw [htraced]
    refine Finset.mem_union_right _ (List.mem_toFinset.mpr (List.mem_map_of_mem ?_))
    exact List.mem_filter.mpr ⟨hall d hd hof, by simpa using (hkept d hd hof).2.2⟩

/-- What finally becomes of the stored KiveData of the kernel is what is wanted of them. -/
lemma mem_filterMap_destiny {w : World} {y : KiveData} :
    y ∈ w.cluster.kiveData.items.filterMap
        (destiny std w.cluster.pods w.cluster.kivePolicies.items kernelID) ∧
      OfKernel kernelID y ↔
    ∃ d, Wanted std kernelID w d ∧ addFinalizer d kiveDataFinalizerName = y := by
  rw [List.mem_filterMap]
  constructor
  · rintro ⟨⟨d, hd, h⟩, hy⟩
    unfold destiny at h
    split_ifs at h with hof hlive
    · exact ⟨d, ⟨hd, hof, hlive⟩, Option.some.inj h⟩
    · exact absurd (Option.some.inj h ▸ hy) hof
  · rintro ⟨d, ⟨hd, hof, hlive⟩, rfl⟩
    exact ⟨⟨d, hd, by rw [destiny, if_pos hof, if_pos hlive]⟩, ofKernel_addFinalizer.mpr hof⟩

/-- KiveData of other kernels are left as they are. -/
lemma mem_filterMap_destiny_other {w : World} {y : KiveData} :
    y ∈ w.cluster.kiveData.items.filterMap
        (destiny std w.cluster.pods w.cluster.kivePolicies.items kernelID) ∧
      ¬ OfKernel kernelID y ↔
    y ∈ w.cluster.kiveData.items ∧ ¬ OfKernel kernelID y := by
  rw [List.mem_filterMap]
  constructor
  · rintro ⟨⟨d, hd, h⟩, hy⟩
    unfold destiny at h
    split_ifs at h with hof hlive
    · exact absurd (Option.some.inj h ▸ ofKernel_addFinalizer.mpr hof) hy
    · exact ⟨Option.some.inj h ▸ hd, hy⟩
  · rintro ⟨hd, hy⟩
    exact ⟨⟨y, hd, by rw [destiny, if_neg hy]⟩, hy⟩

variable (std node) in
/-- Runs lead to a settled state with what finally becomes of the stored KiveData. -/
lemma iterate_dataRun (hf : podFields.Standard) {w : World} (h : Loadable kernelID w) {m : ℕ}
    (hm : 2 * (w.cluster.kiveData.items.filter fun d => OfKernel kernelID d).length + 2 ≤ m) :
    Settled std kernelID ((dataRun std podFields node kernelID)^[m] w) ∧
    ((dataRun std podFields node kernelID)^[m] w).cluster.kiveData.items =
      w.cluster.kiveData.items.filterMap
        (destiny std w.cluster.pods w.cluster.kivePolicies.items kernelID) := by
  set toStay := fun v : World => v.cluster.kiveData.items.filterMap
    (destiny std w.cluster.pods w.cluster.kivePolicies.items kernelID) with htoStay
  refine Convergence.iterate_of_measure
    (P := fun v => Loadable kernelID v ∧ v.cluster.pods = w.cluster.pods ∧
      v.cluster.kivePolicies = w.cluster.kivePolicies ∧ toStay v = toStay w)
    (Q := fun v => Settled std kernelID v ∧ v.cluster.kiveData.items = toStay w)
    (μ := fun v => runsLeft std w.cluster.pods w.cluster.kivePolicies.items kernelID
      v.cluster.kiveData.items)
    ?_ ?_ ?_ ?_ ⟨h, rfl, rfl, rfl⟩ (Nat.lt_of_lt_of_le (Nat.lt_succ_of_le (runsLeft_le ..)) hm)
  · rintro v ⟨hv, hpods, hpolicies, hstay⟩
    obtain ⟨-, -, hpods', hpolicies', hstay', -⟩ :=
      dataRun_items std node hf hv.finalizers
    rw [hpods, hpolicies] at hstay'
    exact ⟨loadable_dataRun std node hf hv, hpods'.trans hpods, hpolicies'.trans hpolicies,
      hstay'.trans hstay⟩
  · rintro v ⟨hv, hpods, hpolicies, -⟩ hleft
    obtain ⟨-, -, -, -, -, hlow⟩ := dataRun_items std node hf hv.finalizers
    rw [hpods, hpolicies] at hlow
    exact hlow hleft
  · rintro v ⟨hv, hpods, hpolicies, hstay⟩ hzero
    obtain ⟨-, -, hpods', hpolicies', hstay', -⟩ :=
      dataRun_items std node hf hv.finalizers
    rw [hpods, hpolicies] at hstay'
    have hsettled := settled_dataRun std node hf hv (by rwa [hpods, hpolicies])
    refine ⟨hsettled, ?_⟩
    rw [← hsettled.filterMap_destiny, hpods', hpolicies', hpods, hpolicies]
    exact hstay'.trans hstay
  · rintro v ⟨hset, -⟩
    exact dataRun_settled hf hset

/-- When the KiveData of the kernel are the wanted ones, so are their keys. -/
lemma mem_mapKeys_of_wanted {w : World} {items : List KiveData}
    (hitems : ∀ y, y ∈ items ∧ OfKernel kernelID y ↔
      ∃ d, Wanted std kernelID w d ∧ addFinalizer d kiveDataFinalizerName = y) {key : BpfMapKey} :
    key ∈ mapKeys kernelID items ↔ ∃ d, Wanted std kernelID w d ∧ d.mapKey = key := by
  rw [mem_mapKeys]
  constructor
  · rintro ⟨y, hy, hof, rfl⟩
    obtain ⟨d, hd, rfl⟩ := (hitems y).mp ⟨hy, hof⟩
    exact ⟨d, hd, (mapKey_addFinalizer d).symm⟩
  · rintro ⟨d, hd, rfl⟩
    obtain ⟨hy, hof⟩ := (hitems _).mpr ⟨d, hd, rfl⟩
    exact ⟨_, hy, hof, mapKey_addFinalizer d⟩

variable (std podFields node) in
/-- The same from a world where the program may have to be loaded. -/
lemma settled_iterate_dataRun (hf : podFields.Standard) {w : World}
    (hheld : OnlyLoaderHolds kernelID w.cluster.kiveData.items)
    (htraced : (w.kernels kernelID).tracedInodes ⊆ mapKeys kernelID w.cluster.kiveData.items)
    (hroom : (mapKeys kernelID w.cluster.kiveData.items).card ≤ mapMaxEntries) {m : ℕ}
    (hm : 2 * (w.cluster.kiveData.items.filter fun d => OfKernel kernelID d).length + 2 ≤ m) :
    let w' := (dataRun std podFields node kernelID)^[m] w
    Settled std kernelID w' ∧
    (∀ y, y ∈ w'.cluster.kiveData.items ∧ OfKernel kernelID y ↔
      ∃ d, Wanted std kernelID w d ∧ addFinalizer d kiveDataFinalizerName = y) ∧
    ∀ key, key ∈ (w'.kernels kernelID).tracedInodes ↔
      ∃ d, Wanted std kernelID w d ∧ d.mapKey = key := by
  obtain ⟨w₂, hloaded, htraced₂, hcluster, -, hiter⟩ :=
    exists_loaded std podFields node kernelID w (show 0 < m by omega)
  have hload : Loadable kernelID w₂ := by
    refine ⟨hloaded, hcluster ▸ hheld, ?_, hcluster ▸ hroom⟩
    rw [htraced₂, hcluster]
    exact htraced
  have hwanted : ∀ d, Wanted std kernelID w₂ d ↔ Wanted std kernelID w d := fun d => by
    rw [Wanted, Wanted, hcluster]
  obtain ⟨hset, hitems⟩ := iterate_dataRun std node hf hload (hcluster ▸ hm)
  intro w'
  have hy : ∀ y, y ∈ w'.cluster.kiveData.items ∧ OfKernel kernelID y ↔
      ∃ d, Wanted std kernelID w d ∧ addFinalizer d kiveDataFinalizerName = y := fun y => by
    rw [show w' = _ from hiter, hitems, mem_filterMap_destiny]
    exact exists_congr fun d => and_congr_left' (hwanted d)
  have hset' : Settled std kernelID w' := (congrArg (Settled std kernelID) hiter).mpr hset
  refine ⟨hset', hy, fun key => ?_⟩
  rw [hset'.traced]
  exact mem_mapKeys_of_wanted hy

/-- After `2 * n + 2` runs of the loader, `n` being the number of KiveData of its kernel, the
KiveData of the kernel are the wanted ones with the loader's finalizer, those of other kernels are
as they were, the map has exactly the keys of the wanted ones, and a further run changes
nothing. -/
theorem loader_converges (hf : podFields.Standard) {w : World} (h : Loadable kernelID w) {m : ℕ}
    (hm : 2 * (w.cluster.kiveData.items.filter fun d => OfKernel kernelID d).length + 2 ≤ m) :
    let w' := (dataRun std podFields node kernelID)^[m] w
    (∀ y, y ∈ w'.cluster.kiveData.items ∧ OfKernel kernelID y ↔
      ∃ d, Wanted std kernelID w d ∧ addFinalizer d kiveDataFinalizerName = y) ∧
    (∀ y, y ∈ w'.cluster.kiveData.items ∧ ¬ OfKernel kernelID y ↔
      y ∈ w.cluster.kiveData.items ∧ ¬ OfKernel kernelID y) ∧
    (∀ key, key ∈ (w'.kernels kernelID).tracedInodes ↔
      ∃ d, Wanted std kernelID w d ∧ d.mapKey = key) ∧
    dataRun std podFields node kernelID w' = w' := by
  obtain ⟨hset, hitems⟩ := iterate_dataRun std node hf h hm
  dsimp only
  refine ⟨fun y => ?_, fun y => ?_, fun key => ?_, dataRun_settled hf hset⟩
  · rw [hitems]
    exact mem_filterMap_destiny
  · rw [hitems]
    exact mem_filterMap_destiny_other
  · rw [hset.traced, mem_mapKeys, hitems]
    constructor
    · rintro ⟨y, hy, hof, rfl⟩
      obtain ⟨d, hd, rfl⟩ := mem_filterMap_destiny.mp ⟨hy, hof⟩
      exact ⟨d, hd, (mapKey_addFinalizer d).symm⟩
    · rintro ⟨d, hd, rfl⟩
      obtain ⟨hy, hof⟩ := mem_filterMap_destiny.mpr ⟨d, hd, rfl⟩
      exact ⟨_, hy, hof, mapKey_addFinalizer d⟩

end Runs

/-! ## A loader with work to do -/

namespace LoaderConvergence

/-- A policy with one trap, for the pods of every name. -/
def policy : KivePolicy where
  objectMeta := { name := "policy", namespace_ := operatorNamespace }
  spec := { alertVersion := "v1", traps := [{ path := "/data", matchAny := [{}] }] }

/-- A pod with one container. -/
def pod : Pod where
  name := "web"
  namespace_ := "default"
  nodeName := "node"
  podIP := "10.0.0.1"
  phase := .running
  containerStatuses := [⟨"main", "containerd://aa", true⟩]

def std : Std := .ofDigests
  [("\x7b\"path\":\"/data\",\"matchAny\":[\x7b\x7d]\x7dv1",
    "e3fd1c40656bb990ddc981e2560887e6171d4db8ef214177d02338736ed5121d")]

/-- A KiveData of a kernel for the trap of the policy and a file of the container. -/
def dataOf (kernelID name : String) (inodeNo : UInt64) : KiveData where
  objectMeta :=
    { name := name
      namespace_ := operatorNamespace
      labels := StrMap.ofEntries
        [(kernelIDLabel, kernelID),
          (trapIDLabel, trapID std { path := "/data", matchAny := [{}] } "v1")]
      annotations := StrMap.ofEntries
        [("kive-alert-version", "v1"), ("pod-name", "web"), ("namespace", "default"),
          ("node-name", "node"), ("container-name", "main"), ("container-id", "containerd://aa")] }
  spec := { inodeNo := inodeNo, devID := 2049 }

/-- Two KiveData for one file, the first of them finalized and marked for deletion. -/
def stored : Store KiveData :=
  ((Store.ofList
    [addFinalizer (dataOf "k1" "first" 7) kiveDataFinalizerName, dataOf "k1" "second" 7]).delete
      (operatorNamespace, "first")).2

/-- The program is loaded, with the key of the file in its map. -/
def world : World where
  cluster := { kivePolicies := .ofList [policy], kiveData := stored, pods := [pod] }
  hosts _ := .empty
  kernels _ := { loaded := true, tracedInodes := {⟨7, 2049⟩}, eq_empty := by simp }
  clock := 0

/-- No other controller holds a KiveData, and the key belongs to one. -/
lemma loadable_world : Loadable "k1" world where
  loaded := rfl
  finalizers := by decide +kernel
  traced_subset := by decide +kernel
  room := by decide +kernel

end LoaderConvergence

open LoaderConvergence in
/-- The six runs that two KiveData take at most.  The first KiveData takes the key with it when it
goes, and the other one, which is justified, has the key in the map at the end. -/
theorem loader_converges_two :
    let w' := (dataRun std .standard "node" "k1")^[6] world
    ((∀ y, y ∈ w'.cluster.kiveData.items ∧ OfKernel "k1" y ↔
        ∃ d, Wanted std "k1" world d ∧ addFinalizer d kiveDataFinalizerName = y) ∧
      (∀ y, y ∈ w'.cluster.kiveData.items ∧ ¬ OfKernel "k1" y ↔
        y ∈ world.cluster.kiveData.items ∧ ¬ OfKernel "k1" y) ∧
      (∀ key, key ∈ (w'.kernels "k1").tracedInodes ↔
        ∃ d, Wanted std "k1" world d ∧ d.mapKey = key) ∧
      dataRun std .standard "node" "k1" w' = w') ∧
    (⟨7, 2049⟩ : BpfMapKey) ∈ (w'.kernels "k1").tracedInodes := by
  have hwanted : ∃ d ∈ world.cluster.kiveData.items,
      Wanted std "k1" world d ∧ d.mapKey = ⟨7, 2049⟩ := by
    decide +kernel
  obtain ⟨d, -, hd, hkey⟩ := hwanted
  have hlength : 2 * (world.cluster.kiveData.items.filter fun d => OfKernel "k1" d).length + 2 ≤ 6
      := by
    decide +kernel
  have hconverged := @loader_converges std .standard "node" "k1" PodFields.standard_standard world
    loadable_world 6 hlength
  refine ⟨hconverged, ?_⟩
  rw [hconverged.2.2.1]
  exact ⟨d, hd, hkey⟩

end Kive
