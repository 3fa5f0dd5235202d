import KiveOperator.Controller.Belonging
import KiveOperator.Correctness.LoaderConvergence

/-!
# The loaders of all kernels at once

Each kernel has a loader of its own, and all of them work on the KiveData of one cluster.  A run of
one loader leaves the KiveData and the maps of the other kernels as they are, so that the loaders
may run in any order: `loaders_converge` says that every kernel whose loader has run often enough
has the wanted KiveData and exactly their keys in its map, whatever the other loaders have done in
between.
-/

namespace Kive

open Interaction KiveDataReconciler

section Frame

variable (std : Std) {podFields : PodFields} (node : String) {kernelID other : String}

/-- A run leaves the other kernels alone. -/
lemma kernels_dataRun_of_ne (hne : kernelID ≠ other) (w : World) :
    (dataRun std podFields node other w).kernels kernelID = w.kernels kernelID := by
  have hrefresh : (w.refreshCaches other).kernels kernelID = w.kernels kernelID := by
    simp [World.refreshCaches, World.setKernel, Function.update_of_ne hne]
  rw [← hrefresh]
  refine Prog.run_rel (handle std podFields node other)
    (r := fun w w' => w'.kernels kernelID = w.kernels kernelID) (fun _ => rfl)
    (fun h h' => h'.trans h) (fun op w => ?_) _ _
  exact kernels_handleFault_of_ne std podFields node other none op w hne

/-- Judging KiveData of one kernel leaves those of another one as they are. -/
lemma filter_judged (pods : List Pod) (policies : List KivePolicy) {front : List KiveData}
    (hne : kernelID ≠ other) (hfront : ∀ d ∈ front, OfKernel other d) (items : List KiveData) :
    (items.map (judged std pods policies front)).filter (fun d => OfKernel kernelID d) =
      items.filter fun d => OfKernel kernelID d := by
  rw [List.filter_map]
  have hsame : items.filter ((fun d => decide (OfKernel kernelID d)) ∘
      judged std pods policies front) = items.filter fun d => OfKernel kernelID d := by
    refine List.filter_congr fun d _ => ?_
    simp [ofKernel_judged]
  rw [hsame]
  refine (List.map_congr_left fun d hd => ?_).trans (List.map_id _)
  have hof : OfKernel kernelID d := by simpa using (List.mem_filter.mp hd).2
  exact if_neg fun hj => hne (hof.unique (hfront d hj.1))

/-- Nor does a patch change them. -/
lemma filter_finish {d : KiveData} (hne : kernelID ≠ other) (hd : OfKernel other d)
    (s : LoaderState) :
    (finish d s).items.filter (fun d => OfKernel kernelID d) =
      s.items.filter fun d => OfKernel kernelID d := by
  have hreplace : ∀ o : Option KiveData, (∀ y ∈ o, OfKernel other y) →
      (Store.replace s.items d o).filter (fun d => OfKernel kernelID d) =
        s.items.filter fun d => OfKernel kernelID d := by
    intro o ho
    rw [Store.replace, List.filter_filterMap, ← List.filterMap_eq_filter]
    refine List.filterMap_congr fun y _ => ?_
    have hnot : ∀ z, OfKernel other z → ¬ OfKernel kernelID z := fun z hz hz' =>
      hne (hz'.unique hz)
    split_ifs with hy
    · rw [Option.guard_eq_none_iff.mpr (by simpa [hy] using hnot d hd), Option.filter_eq_none_iff]
      exact fun z hz => by simpa using hnot z (ho z hz)
    · rfl
  unfold finish
  split_ifs
  · refine hreplace _ fun y hy => ?_
    obtain ⟨rfl, -⟩ := settle_eq_some_iff.mp hy
    exact hd
  · refine hreplace _ fun y hy => ?_
    obtain rfl := Option.some.inj hy
    exact ofKernel_addFinalizer.mpr hd

/-- What finally becomes of the KiveData of a kernel, and of all of them. -/
lemma filter_filterMap_destiny (pods : List Pod) (policies : List KivePolicy)
    (items : List KiveData) :
    (items.filterMap (destiny std pods policies kernelID)).filter (fun d => OfKernel kernelID d) =
      (items.filter fun d => OfKernel kernelID d).filterMap
        (destiny std pods policies kernelID) := by
  induction items with
  | nil => rfl
  | cons d items ih =>
    by_cases hof : OfKernel kernelID d
    · rw [List.filter_cons_of_pos (by simpa using hof)]
      by_cases hstay : ¬ Deleting d ∧ Justified std pods policies d
      · have hd : destiny std pods policies kernelID d =
            some (addFinalizer d kiveDataFinalizerName) := by
          rw [destiny, if_pos hof, if_pos hstay]
        rw [List.filterMap_cons_some hd, List.filterMap_cons_some hd,
          List.filter_cons_of_pos (by simpa using ofKernel_addFinalizer.mpr hof), ih]
      · have hd : destiny std pods policies kernelID d = none := by
          rw [destiny, if_pos hof, if_neg hstay]
        rw [List.filterMap_cons_none hd, List.filterMap_cons_none hd, ih]
    · have hd : destiny std pods policies kernelID d = some d := by rw [destiny, if_neg hof]
      rw [List.filter_cons_of_neg (by simpa using hof), List.filterMap_cons_some hd,
        List.filter_cons_of_neg (by simpa using hof), ih]

/-- What is left to do for a kernel depends on its own KiveData. -/
lemma runsLeft_filter (pods : List Pod) (policies : List KivePolicy) (items : List KiveData) :
    runsLeft std pods policies kernelID (items.filter fun d => OfKernel kernelID d) =
      runsLeft std pods policies kernelID items := by
  have hsum : ((items.filter fun d => OfKernel kernelID d).map
      (patchesLeft std pods policies kernelID)).sum =
        (items.map (patchesLeft std pods policies kernelID)).sum := by
    induction items with
    | nil => rfl
    | cons d items ih =>
      by_cases hof : OfKernel kernelID d
      · rw [List.filter_cons_of_pos (by simpa using hof), List.map_cons, List.map_cons,
          List.sum_cons, List.sum_cons, ih]
      · have hnone : patchesLeft std pods policies kernelID d = 0 := if_neg hof
        rw [List.filter_cons_of_neg (by simpa using hof), List.map_cons, List.sum_cons, hnone, ih,
          Nat.zero_add]
  have hsome : (∃ d ∈ items.filter fun d => OfKernel kernelID d,
      Unwanted std pods policies kernelID d) ↔
        ∃ d ∈ items, Unwanted std pods policies kernelID d := by
    constructor
    · rintro ⟨d, hd, hun⟩
      exact ⟨d, (List.mem_filter.mp hd).1, hun⟩
    · rintro ⟨d, hd, hun⟩
      exact ⟨d, List.mem_filter.mpr ⟨hd, by simpa using hun.1⟩, hun⟩
  rw [runsLeft, runsLeft, hsum]
  simp only [hsome]

/-- What another loader leaves of the KiveData of a kernel. -/
lemma filter_dataRun_of_ne (hf : podFields.Standard) (hne : kernelID ≠ other) {w : World}
    (hheld : OnlyLoaderHolds other w.cluster.kiveData.items) :
    (dataRun std podFields node other w).cluster.kiveData.items.filter
        (fun d => OfKernel kernelID d) =
      w.cluster.kiveData.items.filter fun d => OfKernel kernelID d := by
  obtain ⟨w', hloaded, -, hcluster, -, hrun⟩ :=
    exists_loaded std podFields node other w Nat.one_pos
  have hheld' : OnlyLoaderHolds other w'.cluster.kiveData.items := hcluster ▸ hheld
  obtain ⟨front, rest, hsplit, -, -, hstate, -⟩ :=
    dataRun_cases std node other hf hloaded fun d => patchDue_of_onlyLoaderHolds hheld'
  have hmem : ∀ d ∈ front ++ rest, OfKernel other d := by
    intro d hd
    rw [← hsplit] at hd
    simpa using (List.mem_filter.mp hd).2
  have hitems := congrArg LoaderState.items hstate
  rw [show dataRun std podFields node other w = dataRun std podFields node other w' from hrun]
  change (dataRun std podFields node other w').cluster.kiveData.items = _ at hitems
  rw [hitems, ← hcluster]
  have hjudged := filter_judged std w'.cluster.pods w'.cluster.kivePolicies.items hne
    (fun d hd => hmem d (List.mem_append_left rest hd)) w'.cluster.kiveData.items
  cases hcase : rest with
  | nil => exact hjudged
  | cons d l =>
    have hd : OfKernel other d := hmem d (List.mem_append_right front (by simp [hcase]))
    exact (filter_finish hne hd _).trans hjudged

end Frame

/-! ## Schedules -/

/-- Runs of data reconcilers one after the other, each on a node and for a kernel. -/
def dataRuns (std : Std) (podFields : PodFields) (runs : List (String × String)) (w : World) :
    World :=
  Runs.run (fun w r => dataRun std podFields r.1 r.2 w) runs w

/-- The keys of a kernel are those of its own KiveData. -/
lemma mapKeys_congr {kernelID : String} {items items' : List KiveData}
    (h : items'.filter (fun d => OfKernel kernelID d) =
      items.filter fun d => OfKernel kernelID d) :
    mapKeys kernelID items' = mapKeys kernelID items := by
  rw [mapKeys, mapKeys, h]

/-- What every run keeps for a kernel, whichever loader makes it. -/
structure Shared (std : Std) (kernelID : String) (w₀ w : World) : Prop where
  held : ∀ kernelID, OnlyLoaderHolds kernelID w.cluster.kiveData.items
  pods : w.cluster.pods = w₀.cluster.pods
  kivePolicies : w.cluster.kivePolicies = w₀.cluster.kivePolicies
  traced_subset : (w.kernels kernelID).tracedInodes ⊆ mapKeys kernelID w.cluster.kiveData.items
  room : (mapKeys kernelID w.cluster.kiveData.items).card ≤ mapMaxEntries
  toStay : (w.cluster.kiveData.items.filter fun d => OfKernel kernelID d).filterMap
      (destiny std w₀.cluster.pods w₀.cluster.kivePolicies.items kernelID) =
    (w₀.cluster.kiveData.items.filter fun d => OfKernel kernelID d).filterMap
      (destiny std w₀.cluster.pods w₀.cluster.kivePolicies.items kernelID)

section Schedules

variable {std : Std} {podFields : PodFields} {kernelID : String} {w₀ w : World}

/-- A loader that has to load the program first does what it does with the program loaded. -/
lemma Shared.exists_loadable (h : Shared std kernelID w₀ w) (podFields : PodFields)
    (node : String) :
    ∃ w', Loadable kernelID w' ∧ w'.cluster = w.cluster ∧
      dataRun std podFields node kernelID w = dataRun std podFields node kernelID w' := by
  obtain ⟨w', hloaded, htraced, hcluster, -, hrun⟩ :=
    exists_loaded std podFields node kernelID w Nat.one_pos
  refine ⟨w', ⟨hloaded, hcluster ▸ h.held kernelID, ?_, hcluster ▸ h.room⟩, hcluster, hrun⟩
  rw [htraced, hcluster]
  exact h.traced_subset

/-- A run of any loader keeps it. -/
lemma Shared.dataRun (h : Shared std kernelID w₀ w) (hf : podFields.Standard)
    (node other : String) :
    Shared std kernelID w₀ (dataRun std podFields node other w) := by
  obtain ⟨-, hheld, hpods, hpolicies, hstay, -⟩ := dataRun_items std node hf (h.held other)
  have hheld' : ∀ kernelID', OnlyLoaderHolds kernelID'
      (Kive.dataRun std podFields node other w).cluster.kiveData.items := by
    intro kernelID'
    rcases eq_or_ne kernelID' other with rfl | hne
    · exact hheld
    · intro d hd hof
      have hmem : d ∈ w.cluster.kiveData.items.filter fun d => OfKernel kernelID' d := by
        rw [← filter_dataRun_of_ne std node hf hne (h.held other)]
        exact List.mem_filter.mpr ⟨hd, by simpa using hof⟩
      exact h.held kernelID' d (List.mem_filter.mp hmem).1 hof
  rcases eq_or_ne kernelID other with rfl | hne
  · obtain ⟨w', hload, -, hrun⟩ := h.exists_loadable podFields node
    have hload' := loadable_dataRun std node hf hload
    rw [← hrun] at hload'
    refine ⟨hheld', hpods.trans h.pods, hpolicies.trans h.kivePolicies, hload'.traced_subset,
      hload'.room, ?_⟩
    rw [h.pods, h.kivePolicies] at hstay
    rw [← filter_filterMap_destiny, hstay, filter_filterMap_destiny]
    exact h.toStay
  · have hfilter := filter_dataRun_of_ne std node hf hne (h.held other)
    refine ⟨hheld', hpods.trans h.pods, hpolicies.trans h.kivePolicies, ?_, ?_, ?_⟩
    · rw [kernels_dataRun_of_ne std node hne, mapKeys_congr hfilter]
      exact h.traced_subset
    · rw [mapKeys_congr hfilter]
      exact h.room
    · rw [hfilter]
      exact h.toStay

/-- What is settled for a kernel stays so while its KiveData, its map, the pods and the policies
do. -/
lemma settled_of_same {w' : World} (h : Settled std kernelID (w.refreshCaches kernelID))
    (hloaded : (w'.kernels kernelID).loaded = (w.kernels kernelID).loaded)
    (htraced : (w'.kernels kernelID).tracedInodes = (w.kernels kernelID).tracedInodes)
    (hfilter : (w'.cluster.kiveData.items.filter fun d => OfKernel kernelID d) =
      w.cluster.kiveData.items.filter fun d => OfKernel kernelID d)
    (hpods : w'.cluster.pods = w.cluster.pods)
    (hpolicies : w'.cluster.kivePolicies = w.cluster.kivePolicies) :
    Settled std kernelID (w'.refreshCaches kernelID) := by
  refine ⟨?_, ?_, ?_, fun d hd hof => ?_, ?_⟩
  · have hold := h.loaded
    simp only [World.refreshCaches, World.setKernel_kernels_self] at hold ⊢
    exact hloaded.trans hold
  · simp [World.refreshCaches]
  · simp [World.refreshCaches]
  · have hmem : d ∈ w.cluster.kiveData.items.filter fun d => OfKernel kernelID d := by
      rw [← hfilter]
      exact List.mem_filter.mpr ⟨hd, by simpa using hof⟩
    have hkept := h.kept d (List.mem_filter.mp hmem).1 hof
    simp only [World.refreshCaches, World.setKernel_cluster] at hkept ⊢
    rwa [hpods, hpolicies]
  · have hold := h.traced
    simp only [World.refreshCaches, World.setKernel_kernels_self, World.setKernel_cluster]
      at hold ⊢
    rw [htraced, hold, mapKeys_congr hfilter]

/-- The caches are made current only once. -/
lemma dataRun_refreshCaches (std : Std) (podFields : PodFields) (node : String) (w : World) :
    dataRun std podFields node kernelID (w.refreshCaches kernelID) =
      dataRun std podFields node kernelID w := by
  have htwice : (w.refreshCaches kernelID).refreshCaches kernelID = w.refreshCaches kernelID := by
    simp [World.refreshCaches, World.setKernel]
  rw [dataRun, htwice, dataRun]

/-- What is settled for a kernel no run changes. -/
lemma Shared.settled_dataRun (h : Shared std kernelID w₀ w) (hf : podFields.Standard)
    (hset : Settled std kernelID (w.refreshCaches kernelID)) (node other : String) :
    let w' := Kive.dataRun std podFields node other w
    Settled std kernelID (w'.refreshCaches kernelID) ∧
      (w'.cluster.kiveData.items.filter fun d => OfKernel kernelID d) =
        w.cluster.kiveData.items.filter fun d => OfKernel kernelID d := by
  intro w'
  rcases eq_or_ne kernelID other with rfl | hne
  · have hrun : w' = w.refreshCaches kernelID := by
      rw [← @dataRun_settled std podFields node kernelID hf _ hset, dataRun_refreshCaches]
    rw [hrun]
    refine ⟨settled_of_same hset ?_ ?_ rfl rfl rfl, rfl⟩
    · simp [World.refreshCaches]
    · simp [World.refreshCaches]
  · have hkernel : w'.kernels kernelID = w.kernels kernelID :=
      kernels_dataRun_of_ne std node hne w
    have hfilter := filter_dataRun_of_ne std node hf hne (h.held other)
    obtain ⟨-, -, hpods, hpolicies, -, -⟩ := dataRun_items std node hf (h.held other)
    exact ⟨settled_of_same hset (congrArg Kernel.loaded hkernel)
      (congrArg Kernel.tracedInodes hkernel) hfilter hpods hpolicies, hfilter⟩

/-- In a settled world the caches are current. -/
lemma Settled.refreshCaches_eq (h : Settled std kernelID w) : w.refreshCaches kernelID = w := by
  rw [World.refreshCaches, ← h.cachedKiveData, ← h.cachedKivePolicies, World.setKernel]
  exact congrArg (fun kernels => { w with kernels := kernels }) (Function.update_eq_self _ _)

variable (std) in
/-- A loader that has run often enough has settled its kernel, whatever the others do. -/
lemma settled_dataRuns (hf : podFields.Standard)
    (hheld : ∀ kernelID, OnlyLoaderHolds kernelID w.cluster.kiveData.items)
    (htraced : (w.kernels kernelID).tracedInodes ⊆ mapKeys kernelID w.cluster.kiveData.items)
    (hroom : (mapKeys kernelID w.cluster.kiveData.items).card ≤ mapMaxEntries)
    {runs : List (String × String)}
    (hm : 2 * (w.cluster.kiveData.items.filter fun d => OfKernel kernelID d).length + 2 ≤
      runs.countP fun r => r.2 = kernelID) :
    let w' := dataRuns std podFields runs w
    Settled std kernelID (w'.refreshCaches kernelID) ∧
      (w'.cluster.kiveData.items.filter fun d => OfKernel kernelID d) =
        (w.cluster.kiveData.items.filter fun d => OfKernel kernelID d).filterMap
          (destiny std w.cluster.pods w.cluster.kivePolicies.items kernelID) := by
  refine Convergence.run_of_measure (P := Shared std kernelID w)
    (Q := fun v => Settled std kernelID (v.refreshCaches kernelID) ∧
      (v.cluster.kiveData.items.filter fun d => OfKernel kernelID d) =
        (w.cluster.kiveData.items.filter fun d => OfKernel kernelID d).filterMap
          (destiny std w.cluster.pods w.cluster.kivePolicies.items kernelID))
    (μ := fun v => runsLeft std w.cluster.pods w.cluster.kivePolicies.items kernelID
      v.cluster.kiveData.items)
    (fun r : String × String => r.2 = kernelID) (fun v r hv => hv.dataRun hf r.1 r.2) ?_ ?_ ?_ ?_
    ⟨hheld, rfl, rfl, htraced, hroom, rfl⟩
    (Nat.lt_of_lt_of_le (Nat.lt_succ_of_le (runsLeft_le ..)) hm)
  · intro v r hv hr
    rw [← runsLeft_filter, filter_dataRun_of_ne std r.1 hf (Ne.symm hr) (hv.held r.2),
      runsLeft_filter]
  · rintro v ⟨node, other⟩ hv hr hleft
    obtain rfl : kernelID = other := hr.symm
    obtain ⟨-, -, -, -, -, hlow⟩ := dataRun_items std node hf (hv.held kernelID)
    rw [hv.pods, hv.kivePolicies] at hlow
    exact hlow hleft
  · rintro v ⟨node, other⟩ hv hr hzero
    obtain rfl : kernelID = other := hr.symm
    obtain ⟨v', hload, hcluster, hrun⟩ := hv.exists_loadable podFields node
    have hset := settled_dataRun std node hf hload (by
      rw [hcluster, hv.pods, hv.kivePolicies]
      exact hzero)
    rw [← hrun] at hset
    have hshared := hv.dataRun hf node kernelID
    refine ⟨hset.refreshCaches_eq.symm ▸ hset, ?_⟩
    rw [← hshared.toStay]
    refine (filterMap_destiny_of_kept fun d hd hof => ?_).symm
    rw [← hshared.pods, ← hshared.kivePolicies]
    exact hset.kept d (List.mem_filter.mp hd).1 hof
  · rintro v ⟨node, other⟩ hv ⟨hset, hfilter⟩
    obtain ⟨hset', hfilter'⟩ := hv.settled_dataRun hf hset node other
    exact ⟨hset', hfilter'.trans hfilter⟩

end Schedules

/-- The data reconcilers of all kernels run in any order, each with current lists.  No KiveData has
the finalizer of another controller, and every key in the map of a kernel is that of one of its
KiveData.  If there are at least `2 * n + 2` runs for the kernel, `n` being the number of its
KiveData, it has the wanted KiveData with the finalizer, and exactly their keys in its map, if that
has room. -/
theorem loaders_converge (std : Std) {podFields : PodFields} (hf : podFields.Standard) {w : World}
    (hheld : ∀ kernelID, OnlyLoaderHolds kernelID w.cluster.kiveData.items) {kernelID : String}
    (htraced : (w.kernels kernelID).tracedInodes ⊆ mapKeys kernelID w.cluster.kiveData.items)
    (hroom : (mapKeys kernelID w.cluster.kiveData.items).card ≤ mapMaxEntries)
    {runs : List (String × String)}
    (hm : 2 * (w.cluster.kiveData.items.filter fun d => OfKernel kernelID d).length + 2 ≤
      runs.countP fun r => r.2 = kernelID) :
    let w' := dataRuns std podFields runs w
    (∀ y, y ∈ w'.cluster.kiveData.items ∧ OfKernel kernelID y ↔
      ∃ d, Wanted std kernelID w d ∧ addFinalizer d kiveDataFinalizerName = y) ∧
    ∀ key, key ∈ (w'.kernels kernelID).tracedInodes ↔
      ∃ d, Wanted std kernelID w d ∧ d.mapKey = key := by
  obtain ⟨hset, hfilter⟩ := settled_dataRuns std hf hheld htraced hroom hm
  intro w'
  have hitems : ∀ y, y ∈ w'.cluster.kiveData.items ∧ OfKernel kernelID y ↔
      ∃ d, Wanted std kernelID w d ∧ addFinalizer d kiveDataFinalizerName = y := by
    intro y
    have hmem : y ∈ w'.cluster.kiveData.items ∧ OfKernel kernelID y ↔
        y ∈ w'.cluster.kiveData.items.filter fun d => OfKernel kernelID d := by simp
    rw [hmem, hfilter, ← filter_filterMap_destiny, List.mem_filter, decide_eq_true_iff]
    exact mem_filterMap_destiny
  refine ⟨hitems, fun key => ?_⟩
  have hkeys : (w'.kernels kernelID).tracedInodes = mapKeys kernelID w'.cluster.kiveData.items := by
    have hkeys := hset.traced
    simpa [World.refreshCaches] using hkeys
  rw [hkeys]
  exact mem_mapKeys_of_wanted hitems

/-! ## Two kernels -/

namespace AllLoaders

open LoaderConvergence (dataOf)

/-- The key of the first KiveData is in the map of its kernel. -/
def world : World :=
  { LoaderConvergence.world with
    cluster :=
      { LoaderConvergence.world.cluster with
        kiveData := Store.ofList
          [addFinalizer (dataOf "k1" "first" 7) kiveDataFinalizerName, dataOf "k2" "third" 7] } }

/-- The loaders of the two kernels in turns. -/
def runs : List (String × String) :=
  [("a", "k1"), ("b", "k2"), ("b", "k2"), ("a", "k1"), ("a", "k1"), ("b", "k2"), ("a", "k1"),
    ("b", "k2")]

/-- No other controller holds a KiveData. -/
lemma held_world (kernelID : String) :
    OnlyLoaderHolds kernelID world.cluster.kiveData.items := by
  have hall : ∀ d ∈ world.cluster.kiveData.items, ∀ f ∈ d.objectMeta.finalizers,
      f = kiveDataFinalizerName := by decide
  exact fun d hd _ => hall d hd

end AllLoaders

open AllLoaders in
/-- The loader of the first kernel, with the other one at work in between. -/
theorem loaders_converge_two_kernels :
    let w' := dataRuns LoaderConvergence.std .standard AllLoaders.runs AllLoaders.world
    (∀ y, y ∈ w'.cluster.kiveData.items ∧ OfKernel "k1" y ↔
      ∃ d, Wanted LoaderConvergence.std "k1" AllLoaders.world d ∧
        addFinalizer d kiveDataFinalizerName = y) ∧
    ∀ key, key ∈ (w'.kernels "k1").tracedInodes ↔
      ∃ d, Wanted LoaderConvergence.std "k1" AllLoaders.world d ∧ d.mapKey = key :=
  loaders_converge LoaderConvergence.std PodFields.standard_standard held_world
    (by decide) (by decide) (by decide)

end Kive
