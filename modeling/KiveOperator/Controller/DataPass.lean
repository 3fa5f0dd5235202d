import KiveOperator.Controller.DataCalls
import KiveOperator.Controller.Justified

/-!
# A data pass with current lists

What the loop of the data reconciler does to the stored KiveData and to the eBPF map, when its
lists are up to date: it visits the KiveData of the kernel one by one, up to the first one that
needs a patch of its finalizers, and patches that one.
-/

namespace Kive

open Interaction KiveDataReconciler

/-- What the data reconciler of a kernel changes. -/
structure LoaderState where
  items : List KiveData
  traced : TracedInodes

/-- Patch the finalizers of a KiveData; one that is being deleted has its key removed. -/
def finish (d : KiveData) (s : LoaderState) : LoaderState :=
  if Deleting d then
    { items := Store.replace s.items d (settle (removeFinalizer d kiveDataFinalizerName))
      traced := s.traced.erase d.mapKey }
  else { s with items := Store.replace s.items d (some (addFinalizer d kiveDataFinalizerName)) }

/-- Add the key of a justified KiveData, mark any other for deletion. -/
def visit (std : Std) (pods : List Pod) (policies : List KivePolicy) (d : KiveData)
    (s : LoaderState) : LoaderState :=
  if Justified std pods policies d then { s with traced := (s.traced.addInode d.mapKey).2 }
  else { s with items := Store.replace s.items d (some (Store.markDeleted.toFun d)) }

/-- What a data pass on a kernel can change of the world. -/
def loaderState (kernelID : String) (w : World) : LoaderState where
  items := w.cluster.kiveData.items
  traced := (w.kernels kernelID).tracedInodes

/-- The rest of the world that a data pass looks at. -/
structure SameView (kernelID : String) (w w' : World) : Prop where
  pods : w'.cluster.pods = w.cluster.pods
  kivePolicies : w'.cluster.kivePolicies = w.cluster.kivePolicies
  loaded : (w'.kernels kernelID).loaded = (w.kernels kernelID).loaded
  cachedKiveData : (w'.kernels kernelID).cachedKiveData = (w.kernels kernelID).cachedKiveData
  cachedKivePolicies :
    (w'.kernels kernelID).cachedKivePolicies = (w.kernels kernelID).cachedKivePolicies

/-- The view of an unchanged world is the same. -/
lemma SameView.refl (kernelID : String) (w : World) : SameView kernelID w w :=
  ⟨rfl, rfl, rfl, rfl, rfl⟩

/-- The view stays the same over two changes. -/
lemma SameView.trans {kernelID : String} {w₁ w₂ w₃ : World} (h₁ : SameView kernelID w₁ w₂)
    (h₂ : SameView kernelID w₂ w₃) : SameView kernelID w₁ w₃ :=
  ⟨h₂.pods.trans h₁.pods, h₂.kivePolicies.trans h₁.kivePolicies, h₂.loaded.trans h₁.loaded,
    h₂.cachedKiveData.trans h₁.cachedKiveData, h₂.cachedKivePolicies.trans h₁.cachedKivePolicies⟩

section Run

variable (std : Std) {podFields : PodFields} (node kernelID : String)

variable (podFields) in
/-- Where a KiveData needs a patch, the loop patches it and stops. -/
lemma runE_dataLoop_due (policies : List KivePolicy) {d : KiveData} (l : List KiveData) {w : World}
    (hd : d ∈ w.cluster.kiveData.items) (hdue : PatchDue d) :
    ∃ w', Prog.runE (handle std podFields node kernelID) (dataLoop std policies (d :: l)) w =
        (.error done, w') ∧
      loaderState kernelID w' = finish d (loaderState kernelID w) ∧
      SameView kernelID w w' := by
  by_cases hdel : Deleting d
  · set w₁ := w.setKernel kernelID ((w.kernels kernelID).removeInode d.mapKey).2 with hw₁
    obtain ⟨hok, hitems⟩ := Store.patch_of_refinalizes hd
      (Store.refinalizes_removeFinalizer d kiveDataFinalizerName)
      (fun _ => List.filter_subset_self _)
    rw [runE_dataLoop_finalize std _ policies l w hdue hdel]
    refine ⟨w₁.setKiveData (w.cluster.kiveData.patch
      (keyOf (removeFinalizer d kiveDataFinalizerName))
      (Store.mergeFrom d (removeFinalizer d kiveDataFinalizerName))).2, ?_, ?_, ?_⟩
    · simp only [handle, World.setKernel_cluster, hok]
      rfl
    · rw [finish, if_pos hdel, loaderState, World.setKiveData_kiveData, hitems]
      rw [World.setKiveData_kernels, hw₁, World.setKernel_kernels_self,
        Kernel.tracedInodes_removeInode]
      rfl
    · exact ⟨rfl, rfl, by simp [w₁], by simp [w₁, Kernel.removeInode],
        by simp [w₁, Kernel.removeInode]⟩
  · have hfin : containsFinalizer d kiveDataFinalizerName = false := by
      rw [← Bool.not_eq_true]
      exact fun h => hdel (hdue.mpr h)
    obtain ⟨hok, hitems⟩ := Store.patch_of_refinalizes hd
      (Store.refinalizes_addFinalizer hfin) (fun h => absurd h hdel)
    rw [runE_dataLoop_claim std _ policies l w hdue hdel]
    refine ⟨w.setKiveData (w.cluster.kiveData.patch
      (keyOf (addFinalizer d kiveDataFinalizerName))
      (Store.mergeFrom d (addFinalizer d kiveDataFinalizerName))).2, ?_, ?_, ?_⟩
    · simp only [handle, hok]
    · have hlive : ¬ Deleting (addFinalizer d kiveDataFinalizerName) := by
        simpa [addFinalizer, hfin, Deleting] using hdel
      have hsettle : settle (addFinalizer d kiveDataFinalizerName) =
          some (addFinalizer d kiveDataFinalizerName) :=
        settle_eq_some_iff.mpr ⟨rfl, fun h => absurd h hlive⟩
      rw [finish, if_neg hdel, loaderState, World.setKiveData_kiveData, hitems, hsettle]
      rfl
    · exact ⟨rfl, rfl, rfl, rfl, rfl⟩

/-- The key of a justified KiveData is set, any other KiveData is deleted. -/
lemma run_judge (hf : podFields.Standard) (policies : List KivePolicy) (d : KiveData)
    (w : World) :
    ((judge std policies d).run (handle std podFields node kernelID) w).2 =
      if Justified std w.cluster.pods policies d
      then w.setKernel kernelID ((w.kernels kernelID).addInode d.mapKey).2
      else w.setKiveData (w.cluster.kiveData.delete (keyOf d)).2 := by
  rw [judge, Prog.run_bind, run_policyLoop std node kernelID hf]
  by_cases hj : Justified std w.cluster.pods policies d
  · rw [decide_eq_true hj, if_pos hj]
    rfl
  · rw [decide_eq_false hj, if_neg hj]
    rfl

/-- A KiveData that needs no patch and is not being deleted is judged. -/
lemma runE_dataLoop_current (hf : podFields.Standard) (policies : List KivePolicy) {d : KiveData}
    (l : List KiveData) {w : World} (hd : d ∈ w.cluster.kiveData.items) (hdue : ¬ PatchDue d)
    (hdel : ¬ Deleting d) (hloaded : (w.kernels kernelID).loaded = true) :
    ∃ w', Prog.runE (handle std podFields node kernelID) (dataLoop std policies (d :: l)) w =
        Prog.runE (handle std podFields node kernelID) (dataLoop std policies l) w' ∧
      loaderState kernelID w' = visit std w.cluster.pods policies d (loaderState kernelID w) ∧
      SameView kernelID w w' := by
  rw [runE_dataLoop_judge std _ policies l w hdue hdel, run_judge std node kernelID hf]
  by_cases hj : Justified std w.cluster.pods policies d
  · rw [if_pos hj]
    refine ⟨w.setKernel kernelID ((w.kernels kernelID).addInode d.mapKey).2, rfl, ?_, ?_⟩
    · rw [visit, if_pos hj, loaderState, World.setKernel_kernels_self,
        Kernel.tracedInodes_addInode hloaded]
      rfl
    · refine ⟨rfl, rfl, by simp, ?_, ?_⟩ <;>
      · rw [World.setKernel_kernels_self, Kernel.addInode, dif_pos hloaded]
  · rw [if_neg hj]
    refine ⟨w.setKiveData (w.cluster.kiveData.delete (keyOf d)).2, rfl, ?_, ⟨rfl, rfl, rfl, rfl,
      rfl⟩⟩
    have hsettle : settle (Store.markDeleted.toFun d) = some (Store.markDeleted.toFun d) := by
      refine settle_eq_some_iff.mpr ⟨rfl, fun _ hnil => ?_⟩
      have hmem : kiveDataFinalizerName ∈ d.objectMeta.finalizers :=
        List.contains_iff_mem.mp (containsFinalizer_of_not_patchDue hdue hdel)
      rw [show d.objectMeta.finalizers = [] from hnil] at hmem
      exact absurd hmem List.not_mem_nil
    rw [visit, if_neg hj, loaderState, World.setKiveData_kiveData, Store.delete,
      Store.find?_eq_some_iff.mpr ⟨hd, rfl⟩]
    dsimp only
    rw [Store.items_update_of_mem hd, hsettle]
    rfl

/-- The stored KiveData after the listed ones `l` have been judged. -/
def judged (std : Std) (pods : List Pod) (policies : List KivePolicy) (l : List KiveData)
    (x : KiveData) : KiveData :=
  if x ∈ l ∧ ¬ Justified std pods policies x then Store.markDeleted.toFun x else x

/-- Judge the KiveData of a list. -/
def judgeAll (std : Std) (pods : List Pod) (policies : List KivePolicy) (l : List KiveData)
    (s : LoaderState) : LoaderState where
  items := s.items.map (judged std pods policies l)
  traced := s.traced.addInodes
    ((l.filter fun d => Justified std pods policies d).map KiveData.mapKey)

/-- Judging one KiveData replaces it. -/
lemma items_visit (std : Std) (pods : List Pod) (policies : List KivePolicy) (d : KiveData)
    (s : LoaderState) :
    (visit std pods policies d s).items = s.items.map (judged std pods policies [d]) := by
  unfold visit
  split_ifs with hj
  · have hid : ∀ x ∈ s.items, judged std pods policies [d] x = id x := fun x _ =>
      if_neg fun h => h.2 (List.mem_singleton.mp h.1 ▸ hj)
    rw [List.map_congr_left hid, List.map_id]
  · rw [← List.filterMap_eq_map]
    refine List.filterMap_congr fun x _ => ?_
    by_cases hx : x = d
    · subst hx
      simp [judged, hj]
    · simp [judged, hx]

/-- Judging one KiveData and then the others is judging them all. -/
lemma judged_judged {std : Std} {pods : List Pod} {policies : List KivePolicy}
    {s : Store KiveData} {d x : KiveData} {l : List KiveData} (hmem : ∀ y ∈ d :: l, y ∈ s.items)
    (hd : d ∉ l) :
    judged std pods policies l (judged std pods policies [d] x) =
      judged std pods policies (d :: l) x := by
  by_cases hx : x = d
  · subst hx
    by_cases hj : Justified std pods policies x
    · simp [judged, hj]
    · have hmark : Store.markDeleted.toFun x ∉ l := by
        intro h
        have hkey := Edit.keyOf_toFun Store.markDeleted x
        have heq := Store.eq_of_keyOf_eq (hmem _ (List.mem_cons_of_mem x h))
          (hmem x List.mem_cons_self) hkey
        exact hd (heq ▸ h)
      simp [judged, hj, hmark]
  · simp [judged, hx]

/-- Judging one KiveData after another. -/
lemma runE_dataLoop_append (hf : podFields.Standard) (policies : List KivePolicy)
    {l : List KiveData} (l' : List KiveData) {w : World}
    (hmem : ∀ d ∈ l, d ∈ w.cluster.kiveData.items) (hnodup : l.Nodup)
    (hdue : ∀ d ∈ l, ¬ PatchDue d ∧ ¬ Deleting d)
    (hloaded : (w.kernels kernelID).loaded = true) :
    ∃ w', Prog.runE (handle std podFields node kernelID) (dataLoop std policies (l ++ l')) w =
        Prog.runE (handle std podFields node kernelID) (dataLoop std policies l') w' ∧
      loaderState kernelID w' = judgeAll std w.cluster.pods policies l (loaderState kernelID w) ∧
      SameView kernelID w w' := by
  induction l generalizing w with
  | nil =>
    have hid : ∀ x ∈ w.cluster.kiveData.items,
        judged std w.cluster.pods policies [] x = id x := fun x _ => if_neg fun h =>
      List.not_mem_nil h.1
    refine ⟨w, rfl, ?_, SameView.refl kernelID w⟩
    rw [judgeAll, loaderState, List.map_congr_left hid, List.map_id]
    rfl
  | cons d l ih =>
    have hd := hmem d List.mem_cons_self
    have hdl : d ∉ l := (List.nodup_cons.mp hnodup).1
    obtain ⟨w₁, hrun₁, hstate₁, hview₁⟩ := runE_dataLoop_current std node kernelID hf policies
      (l ++ l') hd (hdue d List.mem_cons_self).1 (hdue d List.mem_cons_self).2 hloaded
    have hitems₁ : w₁.cluster.kiveData.items =
        w.cluster.kiveData.items.map (judged std w.cluster.pods policies [d]) :=
      (congrArg LoaderState.items hstate₁).trans
        (items_visit std w.cluster.pods policies d (loaderState kernelID w))
    have hmem₁ : ∀ x ∈ l, x ∈ w₁.cluster.kiveData.items := by
      intro x hx
      rw [hitems₁]
      refine List.mem_map.mpr ⟨x, hmem x (List.mem_cons_of_mem d hx), if_neg fun h => ?_⟩
      exact hdl (List.mem_singleton.mp h.1 ▸ hx)
    obtain ⟨w', hrun, hstate, hview⟩ := ih hmem₁ (List.nodup_cons.mp hnodup).2
      (fun x hx => hdue x (List.mem_cons_of_mem d hx)) (hview₁.loaded.trans hloaded)
    refine ⟨w', hrun₁.trans hrun, ?_, hview₁.trans hview⟩
    have hboth : judged std w.cluster.pods policies l ∘ judged std w.cluster.pods policies [d] =
        judged std w.cluster.pods policies (d :: l) := funext fun _ => judged_judged hmem hdl
    rw [hstate, hstate₁, hview₁.pods, judgeAll, judgeAll,
      items_visit std w.cluster.pods policies d (loaderState kernelID w), List.map_map, hboth]
    refine congrArg (LoaderState.mk _) ?_
    rw [visit]
    by_cases hj : Justified std w.cluster.pods policies d
    · rw [if_pos hj, List.filter_cons_of_pos (by simpa using hj)]
      rfl
    · rw [if_neg hj, List.filter_cons_of_neg (by simpa using hj)]

end Run

end Kive
