import KiveOperator.Controller.System
import KiveOperator.Controller.Writes

/-!
# What stands in every KiveData

The KiveData of the cluster are those that policy passes have applied, with the finalizer of the
data reconciler and no other, under the name that their file and their container give.
`stamped_run` says so of all KiveData that are stored, cached or listed, whatever has happened.
-/

namespace Kive

open Interaction Object

/-- What stands in every KiveData that is applied, and stays where only finalizers and wake-ups
change, stands in all KiveData of the store after a call of a run. -/
lemma forall_writeKiveData {P : KiveData → Prop} {std : Std} {kernelID : String} {c : Controller}
    {log : List (Sigma Call.Answer)} {op : Call} (hop : PassCall std kernelID c log op)
    (hedit : ∀ (e : Edit KiveData) d, (e.toFun d).spec = d.spec →
      (e.toFun d).objectMeta.labels = d.objectMeta.labels →
      (∀ key, key ≠ forceReconcile →
        (e.toFun d).objectMeta.annotations.lookup key = d.objectMeta.annotations.lookup key) →
      P d → P (e.toFun d))
    (happly : c = .kivePolicy → ∀ site cd, SiteOf (ListsKivePolicy log) site → Found log site cd →
      let config := kiveDataFor std kernelID (site, cd)
      (∀ x, keyOf x = keyOf config → P x → P (applyTo config x)) ∧
        ∀ s : Store KiveData, P (s.created (newlyApplied config)))
    {s : Store KiveData} (hs : ∀ d ∈ s.items, P d) : ∀ d ∈ (writeKiveData s op).items, P d := by
  have hupdate : ∀ k (e : Edit KiveData), (∀ d, keyOf d = k → P d → P (e.toFun d)) →
      ∀ d ∈ (s.update k e).items, P d := by
    intro k e he d hd
    rcases Store.mem_update.mp hd with ⟨hd, -⟩ | ⟨y, hy, hkey, rfl, -⟩
    · exact hs d hd
    · exact he y hkey (hs y hy)
  cases op
  case applyKiveData site config =>
    obtain ⟨hsite, cd, hcd, rfl⟩ := passCall_applyKiveData hop
    obtain ⟨hto, hnew⟩ := happly (controller_of_applyKiveData hop) site cd hsite hcd
    rcases applyKiveData_cases s (kiveDataFor std kernelID (site, cd)) with
      ⟨-, heq⟩ | ⟨x, -, -, heq⟩ | ⟨hk, -, heq⟩
    · rw [writeKiveData, heq]
      exact hs
    · rw [writeKiveData, heq]
      exact hupdate _ _ hto
    · rw [writeKiveData, heq]
      intro d hd
      rcases (Store.mem_create (h := hk)).mp hd with hd | rfl
      · exact hs d hd
      · exact hnew s
  case deleteKiveData d =>
    rcases s.delete_cases (keyOf d) with ⟨-, heq⟩ | ⟨x, -, heq⟩
    · rw [writeKiveData, heq]
      exact hs
    · rw [writeKiveData, heq]
      exact hupdate _ _ fun d _ => hedit _ d rfl rfl fun _ _ => rfl
  case patchKiveData orig modified =>
    obtain ⟨-, hmodified⟩ := passCall_patchKiveData hop
    have hann : ∀ key, key ≠ forceReconcile →
        modified.objectMeta.annotations.lookup key = orig.objectMeta.annotations.lookup key := by
      rcases hmodified with ⟨time, rfl⟩ | ⟨-, -, -, rfl, -⟩ | ⟨-, -, -, rfl⟩
      · exact fun key hkey => Finmap.lookup_insert_of_ne _ hkey
      · exact fun _ _ => rfl
      · unfold addFinalizer
        split_ifs <;> exact fun _ _ => rfl
    rcases s.patch_cases (keyOf modified) (Store.mergeFrom orig modified) with
      ⟨-, heq⟩ | ⟨x, -, -, heq⟩
    · rw [writeKiveData, heq]
      exact hs
    · rw [writeKiveData, heq]
      refine hupdate _ _ fun d _ => hedit _ d rfl rfl fun key hkey => ?_
      exact (MapPatch.lookup_mergePatch _ _ _ _).trans (if_pos (hann key hkey))
  all_goals exact hs

/-- The KiveData has the name that is made of its file and the recorded container, and no finalizers
but that of the data reconciler. -/
structure Stamped (d : KiveData) : Prop where
  named : ∃ pod c,
    keyOf d = (operatorNamespace, newKiveDataName d.spec.inodeNo d.spec.devID pod c) ∧
      d.objectMeta.annotations.get "pod-name" = pod.name ∧
      d.objectMeta.annotations.get "container-id" = c.containerID
  finalizers : ∀ f ∈ d.objectMeta.finalizers, f = kiveDataFinalizerName

/-- Stamped KiveData of one file, one pod name and one container have one name. -/
lemma Stamped.keyOf_eq {d d' : KiveData} (h : Stamped d) (h' : Stamped d')
    (hino : d.spec.inodeNo = d'.spec.inodeNo) (hdev : d.spec.devID = d'.spec.devID)
    (hpod : d.objectMeta.annotations.get "pod-name" = d'.objectMeta.annotations.get "pod-name")
    (hid : d.objectMeta.annotations.get "container-id" =
      d'.objectMeta.annotations.get "container-id") : keyOf d = keyOf d' := by
  obtain ⟨pod, c, hkey, hname, hcontainer⟩ := h.named
  obtain ⟨pod', c', hkey', hname', hcontainer'⟩ := h'.named
  rw [hkey, hkey', hino, hdev, newKiveDataName, newKiveDataName, ← hname, ← hname', ← hcontainer,
    ← hcontainer', hpod, hid]

/-- Edits that keep the file, the container and the finalizer. -/
lemma Stamped.edit {d : KiveData} (h : Stamped d) {e : Edit KiveData}
    (hspec : (e.toFun d).spec = d.spec)
    (hann : ∀ key, key ≠ forceReconcile →
      (e.toFun d).objectMeta.annotations.lookup key = d.objectMeta.annotations.lookup key)
    (hfin : ∀ f ∈ (e.toFun d).objectMeta.finalizers, f = kiveDataFinalizerName) :
    Stamped (e.toFun d) := by
  obtain ⟨pod, c, hkey, hname, hcontainer⟩ := h.named
  refine ⟨⟨pod, c, ?_, ?_, ?_⟩, hfin⟩
  · rw [Edit.keyOf_toFun, hspec, hkey]
  · rw [← hname]
    exact congrArg (Option.getD · "") (hann "pod-name" (by decide))
  · rw [← hcontainer]
    exact congrArg (Option.getD · "") (hann "container-id" (by decide))

/-- Adding the finalizer of the data reconciler. -/
lemma stamped_addFinalizer {d : KiveData} (h : Stamped d) :
    Stamped (addFinalizer d kiveDataFinalizerName) := by
  unfold addFinalizer
  split_ifs
  · exact h
  · refine ⟨h.named, fun f hf => ?_⟩
    rcases List.mem_append.mp hf with hf | hf
    · exact h.finalizers f hf
    · exact List.mem_singleton.mp hf

section Apply

variable (std : Std) (kernelID : String) {site : Site} {cd : ContainerData}

/-- What a policy pass applies for a file that it has found. -/
lemma stamped_kiveDataFor (hid : cd.id = site.container.containerID) :
    Stamped (kiveDataFor std kernelID (site, cd)) := by
  refine ⟨⟨site.pod, site.container, rfl, ?_, ?_⟩, ?_⟩
  · simp [kiveDataFor, KivePolicyReconciler.newKiveData, StrMap.ofEntries, StrMap.get,
      Finmap.lookup_insert_of_ne]
  · simp [kiveDataFor, KivePolicyReconciler.newKiveData, StrMap.ofEntries, StrMap.get,
      Finmap.lookup_insert_of_ne, hid]
  · exact fun f hf => List.mem_singleton.mp hf

/-- What applying it makes of a KiveData that has its name. -/
lemma stamped_applyTo (hid : cd.id = site.container.containerID) {cur : KiveData}
    (hcur : Stamped cur) (hkey : keyOf cur = keyOf (kiveDataFor std kernelID (site, cd))) :
    Stamped (applyTo (kiveDataFor std kernelID (site, cd)) cur) := by
  set config := kiveDataFor std kernelID (site, cd)
  obtain ⟨hsets, -, -⟩ := sets_kiveDataFor std kernelID (site, cd)
  obtain ⟨⟨pod, c, hname, hpod, hcontainer⟩, hfin⟩ := stamped_kiveDataFor std kernelID hid
  refine ⟨⟨pod, c, hkey.trans hname, ?_, ?_⟩, fun f hf => ?_⟩
  · rw [← hpod]
    exact congrArg (Option.getD · "") (Finmap.lookup_union_left (hsets "pod-name" (by decide)))
  · rw [← hcontainer]
    exact congrArg (Option.getD · "")
      (Finmap.lookup_union_left (hsets "container-id" (by decide)))
  · rcases List.mem_append.mp hf with hf | hf
    · exact hcur.finalizers f hf
    · exact hfin f (List.mem_filter.mp hf).1

/-- All KiveData of the store after an apply. -/
lemma stamped_applyKiveData (hid : cd.id = site.container.containerID) {s : Store KiveData}
    (hs : ∀ d ∈ s.items, Stamped d) :
    ∀ d ∈ (applyKiveData s (kiveDataFor std kernelID (site, cd))).2.items, Stamped d := by
  intro d hd
  rcases applyKiveData_cases s (kiveDataFor std kernelID (site, cd)) with
    ⟨-, heq⟩ | ⟨x, hx, -, heq⟩ | ⟨hk, -, heq⟩
  · rw [heq] at hd
    exact hs d hd
  · rw [heq] at hd
    rcases Store.mem_update.mp hd with ⟨hd, -⟩ | ⟨y, hy, hkey, rfl, -⟩
    · exact hs d hd
    · exact stamped_applyTo std kernelID hid (hs y hy) hkey
  · rw [heq] at hd
    rcases (Store.mem_create (h := hk)).mp hd with hd | rfl
    · exact hs d hd
    · obtain ⟨named, finalizers⟩ := stamped_kiveDataFor std kernelID hid
      exact ⟨named, finalizers⟩

end Apply

/-- All KiveData of the store after a deletion. -/
lemma stamped_delete {s : Store KiveData} (hs : ∀ d ∈ s.items, Stamped d) (k : String × String) :
    ∀ d ∈ (s.delete k).2.items, Stamped d := by
  intro d hd
  rcases s.delete_cases k with ⟨-, heq⟩ | ⟨x, -, heq⟩
  · rw [heq] at hd
    exact hs d hd
  · rw [heq] at hd
    rcases Store.mem_update.mp hd with ⟨hd, -⟩ | ⟨y, hy, -, rfl, -⟩
    · exact hs d hd
    · exact (hs y hy).edit rfl (fun _ _ => rfl) (hs y hy).finalizers

/-- All KiveData of the store after a patch of a stamped one. -/
lemma stamped_patch {s : Store KiveData} (hs : ∀ d ∈ s.items, Stamped d) {orig modified : KiveData}
    (hmodified : ∀ f ∈ modified.objectMeta.finalizers, f = kiveDataFinalizerName)
    (hann : ∀ key, key ≠ forceReconcile →
      modified.objectMeta.annotations.lookup key = orig.objectMeta.annotations.lookup key) :
    ∀ d ∈ (s.patch (keyOf modified) (Store.mergeFrom orig modified)).2.items, Stamped d := by
  intro d hd
  rcases s.patch_cases (keyOf modified) (Store.mergeFrom orig modified) with
    ⟨-, heq⟩ | ⟨x, -, -, heq⟩
  · rw [heq] at hd
    exact hs d hd
  · rw [heq] at hd
    rcases Store.mem_update.mp hd with ⟨hd, -⟩ | ⟨y, hy, -, rfl, -⟩
    · exact hs d hd
    · refine (hs y hy).edit rfl (fun key hkey => ?_) fun f hf => ?_
      · exact (MapPatch.lookup_mergePatch _ _ _ _).trans (if_pos (hann key hkey))
      · -- the patch replaces the finalizers as a whole, or leaves them
        change f ∈ (if orig.objectMeta.finalizers = modified.objectMeta.finalizers
          then y.objectMeta.finalizers else modified.objectMeta.finalizers) at hf
        split_ifs at hf
        · exact (hs y hy).finalizers f hf
        · exact hmodified f hf

/-- All KiveData of the store after a call of a run that has listed stamped KiveData. -/
lemma stamped_writeKiveData {std : Std} {kernelID : String} {c : Controller}
    {log : List (Sigma Call.Answer)} (hlisted : ∀ d, ListsKiveData log d → Stamped d)
    (hfound : ∀ site cd, Found log site cd → cd.id = site.container.containerID) {op : Call}
    (hop : PassCall std kernelID c log op) {s : Store KiveData} (hs : ∀ d ∈ s.items, Stamped d) :
    ∀ d ∈ (writeKiveData s op).items, Stamped d := by
  cases op
  case applyKiveData site config =>
    obtain ⟨-, cd, hcd, rfl⟩ := passCall_applyKiveData hop
    exact stamped_applyKiveData std kernelID (hfound site cd hcd) hs
  case deleteKiveData d => exact stamped_delete hs (keyOf d)
  case patchKiveData orig modified =>
    obtain ⟨horig, hmodified⟩ := passCall_patchKiveData hop
    have hfin := (hlisted orig horig).finalizers
    rcases hmodified with ⟨time, rfl⟩ | ⟨-, -, -, rfl, -⟩ | ⟨-, -, -, rfl⟩
    · exact stamped_patch hs hfin fun key hkey => Finmap.lookup_insert_of_ne _ hkey
    · exact stamped_patch hs (fun f hf => hfin f (List.mem_filter.mp hf).1) fun _ _ => rfl
    · refine stamped_patch hs (stamped_addFinalizer (hlisted orig horig)).finalizers ?_
      unfold addFinalizer
      split_ifs <;> exact fun _ _ => rfl
  all_goals exact hs

/-! ## Runs -/

namespace System

/-- All KiveData that are stored, cached or listed are stamped, and the files that were found are of
the containers that were searched. -/
structure AllStamped (s : System) : Prop where
  stored : ∀ d ∈ s.world.cluster.kiveData.items, Stamped d
  past : ∀ items ∈ s.kiveDataPast, ∀ d ∈ items, Stamped d
  cached : ∀ kernelID, ∀ d ∈ (s.world.kernels kernelID).cachedKiveData, Stamped d
  listed : ∀ r d, ListsKiveData (s.passes r).log d → Stamped d
  found : ∀ r site cd, Found (s.passes r).log site cd → cd.id = site.container.containerID

/-- A fresh cluster has no KiveData. -/
lemma allStamped_ofWorld {w : World} (hw : w.Fresh) : (ofWorld w).AllStamped where
  stored d hd := by
    have hd : d ∈ w.cluster.kiveData.items := hd
    rw [hw.kiveData] at hd
    cases hd
  past items hitems d hd := by
    obtain rfl := List.mem_singleton.mp hitems
    rw [hw.kiveData] at hd
    cases hd
  cached kernelID d hd := by
    have hd : d ∈ (w.kernels kernelID).cachedKiveData := hd
    rw [hw.cachedKiveData] at hd
    cases hd
  listed _ _ h := by
    obtain ⟨_, _, _, hmem, -⟩ := h
    cases hmem
  found _ _ _ h := by cases h.1

/-- The world changes, and no new KiveData come up but stamped ones. -/
lemma AllStamped.moveTo {s : System} (h : s.AllStamped) {w : World}
    (hstored : ∀ d ∈ w.cluster.kiveData.items, Stamped d)
    (hcached : ∀ kernelID,
      (w.kernels kernelID).cachedKiveData = (s.world.kernels kernelID).cachedKiveData) :
    (s.moveTo w).AllStamped where
  stored := hstored
  past items hitems := by
    rcases List.mem_append.mp hitems with hitems | hitems
    · exact h.past items hitems
    · obtain rfl := List.mem_singleton.mp hitems
      exact hstored
  cached kernelID d hd := h.cached kernelID d (hcached kernelID ▸ hd)
  listed := h.listed
  found := h.found

/-- A run starts or goes on. -/
lemma AllStamped.setPass {s : System} (h : s.AllStamped) {r : Runner}
    {t : Thread Call.Answer Outcome} (hlisted : ∀ d, ListsKiveData t.log d → Stamped d)
    (hfound : ∀ site cd, Found t.log site cd → cd.id = site.container.containerID) :
    (s.setPass r t).AllStamped where
  stored := h.stored
  past := h.past
  cached := h.cached
  listed r' d hd := by
    rcases eq_or_ne r' r with rfl | hne
    · exact hlisted d (by simpa using hd)
    · exact h.listed r' d (by rwa [setPass_passes_of_ne s hne] at hd)
  found r' site cd hcd := by
    rcases eq_or_ne r' r with rfl | hne
    · exact hfound site cd (by simpa using hcd)
    · exact h.found r' site cd (by rwa [setPass_passes_of_ne s hne] at hcd)

section Run

variable {std : Std} {podFields : PodFields} {kernelOf : String → String}

/-- The KiveData that a list request is answered with are stored or cached. -/
lemma mem_of_listKiveData {r : Runner} {fault : Option Fault} {w : World} {reader : Reader}
    {labels : StrMap} {items : List KiveData}
    (ha : (runnerHandle std podFields kernelOf r fault (.listKiveData reader labels) w).1 =
      .ok items) {d : KiveData} (hd : d ∈ items) :
    d ∈ w.cluster.kiveData.items ∨ d ∈ (w.kernels (kernelOf r.1)).cachedKiveData := by
  have hanswer := handleFault_eq_of_answer std podFields r.1 (kernelOf r.1) ha
    (by simp [Call.refuse])
  cases reader with
  | cached =>
    obtain rfl := Except.ok.inj hanswer
    exact Or.inr (List.mem_filter.mp hd).1
  | uncached =>
    obtain rfl := Except.ok.inj hanswer
    exact Or.inl (List.mem_filter.mp hd).1

/-- What a run has listed after its next call. -/
lemma listsKiveData_append {r : Runner} {fault : Option Fault} {w : World} {op : Call}
    {log : List (Sigma Call.Answer)} {d : KiveData}
    (hd : ListsKiveData (log ++ [⟨op, (runnerHandle std podFields kernelOf r fault op w).1⟩]) d) :
    ListsKiveData log d ∨ d ∈ w.cluster.kiveData.items ∨
      d ∈ (w.kernels (kernelOf r.1)).cachedKiveData := by
  obtain ⟨reader, labels, items, hmem, hd⟩ := hd
  rcases List.mem_append.mp hmem with hmem | hmem
  · exact Or.inl ⟨reader, labels, items, hmem, hd⟩
  · obtain ⟨rfl, ha⟩ := Sigma.mk.inj (List.mem_singleton.mp hmem)
    exact Or.inr (mem_of_listKiveData (eq_of_heq ha).symm hd)

/-- The files that a run has found after its next call. -/
lemma found_append {r : Runner} {fault : Option Fault} {w : World} {op : Call}
    {log : List (Sigma Call.Answer)} {site : Site} {cd : ContainerData}
    (hcd : Found (log ++ [⟨op, (runnerHandle std podFields kernelOf r fault op w).1⟩]) site cd) :
    Found log site cd ∨
      ((runnerHandle std podFields kernelOf r fault op w).2.hosts r.1).Finds site.container
        site.trap cd := by
  obtain ⟨hmem, hfound⟩ := hcd
  rcases List.mem_append.mp hmem with hmem | hmem
  · exact Or.inl ⟨hmem, hfound⟩
  · obtain ⟨rfl, ha⟩ := Sigma.mk.inj (List.mem_singleton.mp hmem)
    refine Or.inr ?_
    rw [runnerHandle, handleFault_of_refuse std podFields r.1 (kernelOf r.1) (fun _ => rfl)] at ha ⊢
    simp only [handle, World.setHost_hosts_self] at ha ⊢
    exact finds_of_run_getContainerData hfound (eq_of_heq ha).symm

/-- Every action keeps all KiveData stamped. -/
lemma AllStamped.act {s : System} (h : s.AllStamped) (hkeeps : s.KeepsTo std kernelOf)
    (a : Action) : (System.act std podFields kernelOf s a).AllStamped := by
  cases a with
  | start r =>
    rw [System.act]
    split_ifs
    · refine h.setPass (fun d hd => ?_) fun _ _ hcd => by cases hcd.1
      obtain ⟨_, _, _, hmem, -⟩ := hd
      cases hmem
    · exact h
  | call r fault =>
    cases hprog : (s.passes r).prog with
    | ret o =>
      rw [act_call_of_ret hprog]
      exact h.moveTo h.stored fun _ => rfl
    | call op k =>
      rw [act_call hprog]
      dsimp only
      have hcaches := caches_handleFault std podFields r.1 (kernelOf r.1) fault op s.world
      refine AllStamped.moveTo (h.setPass (fun d hd => ?_) fun site cd hcd => ?_) ?_
        fun kernelID => (hcaches kernelID).1
      · rcases listsKiveData_append hd with hd | hd | hd
        · exact h.listed r d hd
        · exact h.stored d hd
        · exact h.cached (kernelOf r.1) d hd
      · rcases found_append hcd with hcd | hcd
        · exact h.found r site cd hcd
        · exact hcd.id
      · have hop := hkeeps.passCall hprog
        rcases kiveData_handleFault std podFields r.1 (kernelOf r.1) fault op s.world with
          heq | heq
        · rw [runnerHandle, heq]
          exact h.stored
        · rw [runnerHandle, heq]
          exact stamped_writeKiveData (h.listed r) (h.found r) hop h.stored
  | deleteKiveData k => exact h.moveTo (stamped_delete h.stored k) fun _ => rfl
  | seeKiveData kernelID n =>
    rw [System.act]
    split_ifs
    · cases hitems : s.kiveDataPast[n]? with
      | none => exact h
      | some items =>
        refine ⟨h.stored, h.past, fun kernelID' d hd => ?_, h.listed, h.found⟩
        rcases eq_or_ne kernelID' kernelID with rfl | hne
        · refine h.past items (List.mem_of_getElem? hitems) d ?_
          simpa [System.seeKiveData] using hd
        · refine h.cached kernelID' d ?_
          simpa [System.seeKiveData, World.setKernel, Function.update_of_ne hne] using hd
    · exact h
  | seeKivePolicies kernelID n =>
    rw [System.act]
    split_ifs
    · cases s.kivePoliciesPast[n]? with
      | none => exact h
      | some items =>
        refine ⟨h.stored, h.past, fun kernelID' d hd => h.cached kernelID' d ?_, h.listed, h.found⟩
        rcases eq_or_ne kernelID' kernelID with rfl | hne
        · simpa [System.seeKivePolicies] using hd
        · simpa [System.seeKivePolicies, World.setKernel, Function.update_of_ne hne] using hd
    · exact h
  | _ => exact h.moveTo h.stored fun _ => rfl

/-- Whatever has happened, all KiveData are stamped. -/
theorem stamped_run {w : World} (hw : w.Fresh) (actions : List Action) :
    (run std podFields kernelOf actions (ofWorld w)).AllStamped := by
  have hact : ∀ (s : System) a, s.KeepsTo std kernelOf ∧ s.AllStamped →
      (act std podFields kernelOf s a).KeepsTo std kernelOf ∧
        (act std podFields kernelOf s a).AllStamped :=
    fun s a h => ⟨keepsTo_act s a h.1, h.2.act h.1 a⟩
  exact (run_induction hact actions ⟨keepsTo_ofWorld w, allStamped_ofWorld hw⟩).2

end Run

end System

end Kive
