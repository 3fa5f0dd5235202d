import KiveOperator.Controller.DataPass
import Mathlib.Data.List.TakeWhile

/-!
# A run of the loader with current lists

`dataRun` is one run of the data reconciler of a kernel, its caches showing what is stored.
`dataRun_cases` says what it does: it judges the KiveData of the kernel up to the first one that
needs a patch of its finalizers, and patches that one.
-/

namespace Kive

open Interaction KiveDataReconciler

/-- The caches of a kernel's manager show what is stored. -/
def World.refreshCaches (w : World) (kernelID : String) : World :=
  w.setKernel kernelID { w.kernels kernelID with
    cachedKiveData := w.cluster.kiveData.items
    cachedKivePolicies := w.cluster.kivePolicies.items }

/-- The world after one run of the data reconciler of a kernel, its caches being current. -/
def dataRun (std : Std) (podFields : PodFields) (node kernelID : String) (w : World) : World :=
  ((reconcile std kernelID).run (handle std podFields node kernelID)
    (w.refreshCaches kernelID)).2

/-- A KiveData that carries the label of a kernel. -/
def OfKernel (kernelID : String) (d : KiveData) : Prop :=
  d.objectMeta.labels.lookup kernelIDLabel = some kernelID

instance (kernelID : String) (d : KiveData) : Decidable (OfKernel kernelID d) :=
  inferInstanceAs (Decidable (_ = _))

/-- The KiveData of the kernel that are to stay: those that are not being deleted and that a trap
of a policy and a container justify. -/
def Wanted (std : Std) (kernelID : String) (w : World) (d : KiveData) : Prop :=
  d ∈ w.cluster.kiveData.items ∧ OfKernel kernelID d ∧ ¬ Deleting d ∧
    Justified std w.cluster.pods w.cluster.kivePolicies.items d

instance (std : Std) (kernelID : String) (w : World) (d : KiveData) :
    Decidable (Wanted std kernelID w d) :=
  inferInstanceAs (Decidable (_ ∧ _))

/-- The label selector of the data reconciler selects the KiveData of its kernel. -/
lemma matchesLabels_kiveDataLabels {kernelID : String} {labels : StrMap} :
    matchesLabels (kiveDataLabels kernelID) labels = true ↔
      labels.lookup kernelIDLabel = some kernelID := by
  have hlookup : ∀ k, (kiveDataLabels kernelID).lookup k =
      if k = kernelIDLabel then some kernelID else none := by
    intro k
    by_cases hk : k = kernelIDLabel
    · subst hk
      simp [kiveDataLabels, StrMap.ofEntries]
    · rw [if_neg hk, kiveDataLabels, StrMap.ofEntries, List.foldl_cons, List.foldl_nil,
        Finmap.lookup_insert_of_ne _ hk]
      exact Finmap.lookup_empty k
  rw [matchesLabels_iff]
  constructor
  · exact fun h => h _ _ (by rw [hlookup, if_pos rfl])
  · intro h k v hk
    rw [hlookup] at hk
    split_ifs at hk with heq
    · rwa [heq, ← Option.some.inj hk]

/-- The data reconciler lists the KiveData of its kernel. -/
lemma listKiveData_kiveDataLabels (kernelID : String) (items : List KiveData) :
    listKiveData (kiveDataLabels kernelID) items = items.filter fun d => OfKernel kernelID d :=
  List.filter_congr fun _ _ => Bool.eq_iff_iff.mpr
    (matchesLabels_kiveDataLabels.trans decide_eq_true_iff.symm)

/-- Patch the first KiveData of a list. -/
def finishFirst : List KiveData → LoaderState → LoaderState
  | [], s => s
  | d :: _, s => finish d s

section Run

variable (std : Std) {podFields : PodFields} (node kernelID : String)

/-- With the program loaded, a run is its loop over the cached lists. -/
lemma run_reconcile_of_loaded {w : World} (hloaded : (w.kernels kernelID).loaded = true) :
    ((reconcile std kernelID).run (handle std podFields node kernelID) w).2 =
      (Prog.runE (handle std podFields node kernelID)
        (dataLoop std (w.kernels kernelID).cachedKivePolicies
          (listKiveData (kiveDataLabels kernelID) (w.kernels kernelID).cachedKiveData)) w).2 := by
  have hensure : Prog.runE (handle std podFields node kernelID) ensureLoaded w = (.ok (), w) := by
    rw [ensureLoaded, Prog.runE_bind, Prog.runE_lift, Ebpf.loaded, Prog.run_perform]
    simp only [handle, hloaded]
    rfl
  rw [reconcile, Pass.run_toProg, Prog.runE_bind, hensure, Prog.continueE_ok, Prog.runE_bind,
    Prog.runE_lift, Client.listKiveData, Prog.run_perform, Prog.continueE_ok]
  dsimp only [handle]
  rw [Prog.runE_bind, Prog.runE_lift, Client.listKivePolicies, Prog.run_perform,
    Prog.continueE_ok]
  dsimp only [handle]
  rw [Prog.runE_bind]
  cases Prog.runE (handle std podFields node kernelID) (dataLoop std _ _) w with
  | mk r w' => cases r <;> rfl

/-- A run begins by loading the program where that has not been done. -/
lemma dataRun_of_not_loaded {w : World} (h : (w.kernels kernelID).loaded = false) :
    dataRun std podFields node kernelID w =
      dataRun std podFields node kernelID
        (w.setKernel kernelID (w.kernels kernelID).load) := by
  have hload : Prog.runE (handle std podFields node kernelID) ensureLoaded
      (w.refreshCaches kernelID) =
        (.ok (), (w.setKernel kernelID (w.kernels kernelID).load).refreshCaches kernelID) := by
    have hloaded : ((w.refreshCaches kernelID).kernels kernelID).loaded = false := by
      simpa [World.refreshCaches] using h
    rw [ensureLoaded, Prog.runE_bind, Prog.runE_lift, Ebpf.loaded, Prog.run_perform]
    simp only [handle, hloaded, Bool.not_false, if_true, Prog.continueE_ok, Prog.runE_bind,
      Prog.runE_lift, Ebpf.loadEbpf, Prog.run_perform, Prog.runE_pure]
    simp [World.refreshCaches, World.setKernel, Kernel.load]
  have hskip : Prog.runE (handle std podFields node kernelID) ensureLoaded
      ((w.setKernel kernelID (w.kernels kernelID).load).refreshCaches kernelID) =
        (.ok (), (w.setKernel kernelID (w.kernels kernelID).load).refreshCaches kernelID) := by
    rw [ensureLoaded, Prog.runE_bind, Prog.runE_lift, Ebpf.loaded, Prog.run_perform]
    simp [handle, World.refreshCaches, Kernel.load]
  rw [dataRun, dataRun, reconcile, Pass.run_toProg, Pass.run_toProg, Prog.runE_bind,
    Prog.runE_bind, hload, hskip]

variable (podFields) in
/-- Runs from a world where the program is not loaded are runs from one where it is. -/
lemma exists_loaded (w : World) {m : ℕ} (hm : 0 < m) :
    ∃ w' : World, (w'.kernels kernelID).loaded = true ∧
      (w'.kernels kernelID).tracedInodes = (w.kernels kernelID).tracedInodes ∧
      w'.cluster = w.cluster ∧ w'.hosts = w.hosts ∧
      (dataRun std podFields node kernelID)^[m] w =
        (dataRun std podFields node kernelID)^[m] w' := by
  cases hloaded : (w.kernels kernelID).loaded with
  | true => exact ⟨w, hloaded, rfl, rfl, rfl, rfl⟩
  | false =>
    refine ⟨w.setKernel kernelID (w.kernels kernelID).load, ?_, ?_, rfl, rfl, ?_⟩
    · rw [World.setKernel_kernels_self]
      rfl
    · rw [World.setKernel_kernels_self, (w.kernels kernelID).eq_empty hloaded]
      rfl
    · obtain ⟨n, rfl⟩ := Nat.exists_eq_add_of_lt hm
      rw [Nat.zero_add, Function.iterate_succ_apply, Function.iterate_succ_apply,
        dataRun_of_not_loaded std node kernelID hloaded]

/-- A run leaves the nodes alone. -/
lemma hosts_dataRun (w : World) : (dataRun std podFields node kernelID w).hosts = w.hosts := by
  refine Prog.Only.run_induction (handle std podFields node kernelID)
    (Φ := fun _ w' => w'.hosts = w.hosts) (fun _ op w' hop h => ?_)
    (only_reconcile std kernelID) [] (w.refreshCaches kernelID) rfl
  cases op
  case listKivePolicies reader => cases reader <;> exact h
  case listKiveData reader labels => cases reader <;> exact h
  case getContainerData site => exact absurd hop id
  all_goals exact h

/-- What a run with current lists does, the KiveData of the kernel that are being deleted having
the finalizer. -/
theorem dataRun_cases (hf : podFields.Standard) {w : World}
    (hloaded : (w.kernels kernelID).loaded = true)
    (hheld : ∀ d ∈ w.cluster.kiveData.items, OfKernel kernelID d → Deleting d → PatchDue d) :
    ∃ front rest,
      (w.cluster.kiveData.items.filter fun d => OfKernel kernelID d) = front ++ rest ∧
      (∀ d ∈ front, ¬ PatchDue d ∧ ¬ Deleting d) ∧
      (∀ d ∈ rest.head?, PatchDue d) ∧
      loaderState kernelID (dataRun std podFields node kernelID w) =
        finishFirst rest (judgeAll std w.cluster.pods w.cluster.kivePolicies.items front
          (loaderState kernelID w)) ∧
      SameView kernelID (w.refreshCaches kernelID) (dataRun std podFields node kernelID w) := by
  set w₀ := w.refreshCaches kernelID with hw₀
  set items := w.cluster.kiveData.items.filter fun d => OfKernel kernelID d with hitems
  set front := items.takeWhile fun d => ¬ PatchDue d
  set rest := items.dropWhile fun d => ¬ PatchDue d
  have hsplit : items = front ++ rest := List.takeWhile_append_dropWhile.symm
  have hstored : ∀ d ∈ items, d ∈ w.cluster.kiveData.items ∧ OfKernel kernelID d := fun d hd => by
    simpa using List.mem_filter.mp hd
  have hnodup : items.Nodup := w.cluster.kiveData.items_nodup.filter _
  have hfront : ∀ d ∈ front, ¬ PatchDue d ∧ ¬ Deleting d := by
    intro d hd
    have hdue : ¬ PatchDue d := by simpa using List.mem_takeWhile_imp hd
    obtain ⟨hmem, hof⟩ := hstored d (hsplit ▸ List.mem_append_left rest hd)
    exact ⟨hdue, fun hdel => hdue (hheld d hmem hof hdel)⟩
  have hrest : ∀ d ∈ rest.head?, PatchDue d := by
    intro d hd
    have := List.head?_dropWhile_not (fun d => decide (¬ PatchDue d)) items
    rw [show (items.dropWhile fun d => decide (¬ PatchDue d)).head? = some d from hd] at this
    simpa using this
  have hloaded₀ : (w₀.kernels kernelID).loaded = true := by
    simpa [hw₀, World.refreshCaches] using hloaded
  have hrun : dataRun std podFields node kernelID w =
      (Prog.runE (handle std podFields node kernelID)
        (dataLoop std w.cluster.kivePolicies.items items) w₀).2 := by
    rw [dataRun, run_reconcile_of_loaded std node kernelID hloaded₀, listKiveData_kiveDataLabels]
    simp [hw₀, World.refreshCaches, hitems]
  obtain ⟨w₁, hrun₁, hstate₁, hview₁⟩ := runE_dataLoop_append std node kernelID hf
    w.cluster.kivePolicies.items rest (w := w₀)
    (fun d hd => (hstored d (hsplit ▸ List.mem_append_left rest hd)).1)
    (List.Nodup.of_append_left (hsplit ▸ hnodup)) hfront hloaded₀
  refine ⟨front, rest, hsplit, hfront, hrest, ?_⟩
  rw [hrun, hsplit, hrun₁]
  have hstate₀ : loaderState kernelID w₀ = loaderState kernelID w := by
    simp [hw₀, World.refreshCaches, loaderState]
  rw [hstate₀] at hstate₁
  cases hcase : rest with
  | nil => exact ⟨hstate₁, hview₁⟩
  | cons d l =>
    have hd : d ∈ w₁.cluster.kiveData.items := by
      have hmem := (hstored d (hsplit ▸ List.mem_append_right front (by simp [hcase]))).1
      have hitems₁ := congrArg LoaderState.items hstate₁
      change w₁.cluster.kiveData.items = _ at hitems₁
      rw [hitems₁]
      refine List.mem_map.mpr ⟨d, hmem, if_neg fun h => ?_⟩
      have hdisj := List.disjoint_of_nodup_append (hsplit ▸ hnodup)
      exact hdisj h.1 (by simp [hcase])
    obtain ⟨w₂, hrun₂, hstate₂, hview₂⟩ := runE_dataLoop_due std podFields node
      kernelID w.cluster.kivePolicies.items l hd (hrest d (by simp [hcase]))
    rw [hrun₂, finishFirst]
    exact ⟨hstate₂.trans (congrArg (finish d) hstate₁), hview₁.trans hview₂⟩

end Run

end Kive
