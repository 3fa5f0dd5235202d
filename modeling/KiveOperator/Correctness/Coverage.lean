import KiveOperator.Container.Findings
import KiveOperator.Correctness.AppliedKept

/-!
# Exactly the files that the traps name are traced

Every node makes a policy pass, and then the data reconciler of a kernel runs until it has nothing
left to do.  `traced_exactly` says what is in the map of the kernel then: the keys of the files that
traps of policies name in the containers that they select on the nodes of the kernel, and no others.
-/

namespace Kive

open Interaction Object

/-! ## Searching one container after the other -/

section SearchAll

variable {site : Site} {sites : List Site} {h : Host}

/-- The node after the first search. -/
def afterSearch (site : Site) (h : Host) : Host :=
  ((getContainerData site.container site.trap).run Host.handle h).2

/-- A file that is found is taken, and the search goes on. -/
lemma searchAll_cons_of_found {cd : ContainerData}
    (hrun : ((getContainerData site.container site.trap).run Host.handle h).1 = .ok cd)
    (hfound : cd.isFound = true) (hrequeue : cd.shouldRequeue = false) :
    searchAll (site :: sites) h =
      ((site, cd) :: (searchAll sites (afterSearch site h)).1,
        (searchAll sites (afterSearch site h)).2) := by
  rw [searchAll, hrun]
  dsimp only
  rw [hfound, hrequeue]
  rfl

/-- A search either finds its file or adds nothing. -/
lemma searchAll_cons_cases (site : Site) (sites : List Site) (h : Host) :
    (∃ cd, ((getContainerData site.container site.trap).run Host.handle h).1 = .ok cd ∧
      cd.isFound = true ∧ cd.shouldRequeue = false) ∨
    searchAll (site :: sites) h = searchAll sites (afterSearch site h) := by
  rw [searchAll]
  cases hrun : ((getContainerData site.container site.trap).run Host.handle h).1 with
  | error err => exact Or.inr rfl
  | ok cd =>
    cases hfound : cd.isFound with
    | false =>
      right
      dsimp only
      rw [hfound, Bool.and_false]
      rfl
    | true =>
      cases hrequeue : cd.shouldRequeue with
      | false => exact Or.inl ⟨cd, rfl, hfound, hrequeue⟩
      | true =>
        right
        dsimp only
        rw [hfound, hrequeue]
        rfl

/-- The host after the search at each site. -/
lemma searchAll_cons_snd (site : Site) (sites : List Site) (h : Host) :
    (searchAll (site :: sites) h).2 = (searchAll sites (afterSearch site h)).2 := by
  rcases searchAll_cons_cases site sites h with ⟨cd, hrun, hfound, hrequeue⟩ | heq
  · rw [searchAll_cons_of_found hrun hfound hrequeue]
  · rw [heq]

/-- What is found at the later sites is found. -/
lemma searchAll_cons_subset (site : Site) (sites : List Site) (h : Host) :
    (searchAll sites (afterSearch site h)).1 ⊆ (searchAll (site :: sites) h).1 := by
  rcases searchAll_cons_cases site sites h with ⟨cd, hrun, hfound, hrequeue⟩ | heq
  · rw [searchAll_cons_of_found hrun hfound hrequeue]
    exact List.subset_cons_self _ _
  · rw [heq]
    exact List.Subset.refl _

/-- Searching grows the host. -/
lemma grows_searchAll (sites : List Site) (h : Host) : h.Grows (searchAll sites h).2 := by
  induction sites generalizing h with
  | nil => exact .refl h
  | cons site sites ih =>
    rw [searchAll_cons_snd]
    exact (Host.grows_run (getContainerData site.container site.trap) h).trans (ih _)

/-- Where the searches have made a path lead to a file, one of them has found this file. -/
lemma exists_found_of_created {path : String} {id : FileId} (hnone : h.fs.lookup path = none)
    (hid : (searchAll sites h).2.fs.lookup path = some id) :
    ∃ x ∈ (searchAll sites h).1, x.2.ino = id.ino ∧ x.2.devID = userDevToKernelDev id.dev := by
  induction sites generalizing h with
  | nil => exact absurd (hnone.symm.trans hid) (by simp)
  | cons site sites ih =>
    rw [searchAll_cons_snd] at hid
    cases hafter : (afterSearch site h).fs.lookup path with
    | none =>
      obtain ⟨x, hx, hdata⟩ := ih hafter hid
      exact ⟨x, searchAll_cons_subset site sites h hx, hdata⟩
    | some id' =>
      obtain rfl : id' = id :=
        Option.some.inj (((grows_searchAll sites _).lookup path id' hafter).symm.trans hid)
      obtain ⟨cd, hrun, hfound, hrequeue, hino, hdev⟩ := found_of_created hnone hafter
      rw [searchAll_cons_of_found hrun hfound hrequeue]
      exact ⟨(site, cd), List.mem_cons_self, hino, hdev⟩

/-- A file that is there in the end, and that nothing keeps a search from finding, has been
found. -/
lemma exists_found_of_locates {cd : ContainerData} (hsite : site ∈ sites)
    (hs : h.Searchable site.container site.trap)
    (hl : (searchAll sites h).2.Locates site.container site.trap cd) :
    ∃ x ∈ (searchAll sites h).1, x.2.ino = cd.ino ∧ x.2.devID = cd.devID := by
  induction sites generalizing h with
  | nil => cases hsite
  | cons site' sites ih =>
    have hgrows := grows_searchAll (site' :: sites) h
    rcases List.mem_cons.mp hsite with rfl | hsite
    · obtain ⟨⟨containers, hcontainers, hmem⟩, pid, id, htask, hid, hino, hdev⟩ := hl
      cases hnow : h.fs.lookup (targetPath pid site.trap.path) with
      | none =>
        obtain ⟨x, hx, hxino, hxdev⟩ := exists_found_of_created hnow hid
        exact ⟨x, hx, hxino.trans hino.symm, hxdev.trans hdev.symm⟩
      | some id' =>
        obtain rfl : id' = id :=
          Option.some.inj ((hgrows.lookup _ id' hnow).symm.trans hid)
        have hhere : h.Locates site.container site.trap cd :=
          ⟨⟨containers, hgrows.containers ▸ hcontainers, hmem⟩, pid, id', hgrows.task ▸ htask, hnow,
            hino, hdev⟩
        obtain ⟨cd', hrun, hfound, hrequeue, hino', hdev'⟩ := hhere.found hs
        rw [searchAll_cons_of_found hrun hfound hrequeue]
        exact ⟨(site, cd'), List.mem_cons_self, hino', hdev'⟩
    · rw [searchAll_cons_snd] at hl
      have hsearched := Host.searched_run (getContainerData site'.container site'.trap) h
      obtain ⟨x, hx, hdata⟩ := ih hsite (hsearched.searchable_iff.mpr hs) hl
      exact ⟨x, searchAll_cons_subset site' sites h hx, hdata⟩

/-- What has been found could be found, and is there in the end. -/
lemma of_mem_searchAll {x : Site × ContainerData} (hx : x ∈ (searchAll sites h).1) :
    h.Searchable x.1.container x.1.trap ∧
      (searchAll sites h).2.Finds x.1.container x.1.trap x.2 := by
  induction sites generalizing h with
  | nil => cases hx
  | cons site sites ih =>
    have hsearched := Host.searched_run (getContainerData site.container site.trap) h
    have hrest : x ∈ (searchAll sites (afterSearch site h)).1 →
        h.Searchable x.1.container x.1.trap ∧
          (searchAll (site :: sites) h).2.Finds x.1.container x.1.trap x.2 := by
      intro hx
      obtain ⟨hs, hfinds⟩ := ih hx
      rw [searchAll_cons_snd]
      exact ⟨hsearched.searchable_iff.mp hs, hfinds⟩
    rcases searchAll_cons_cases site sites h with ⟨cd, hrun, hfound, hrequeue⟩ | heq
    · rw [searchAll_cons_of_found hrun hfound hrequeue] at hx
      rcases List.mem_cons.mp hx with rfl | hx
      · rw [searchAll_cons_snd]
        exact ⟨searchable_of_found hfound hrun,
          (finds_of_run_getContainerData hfound hrun).mono (grows_searchAll sites _)⟩
      · exact hrest hx
    · rw [heq] at hx
      exact hrest hx

end SearchAll

/-! ## Policy passes of all nodes -/

section Passes

variable (std : Std) (podFields : PodFields) (kernelOf : String → String)

/-- The world after a policy pass of each node. -/
def afterPolicyPasses : List String → World → World
  | [], w => w
  | node :: nodes, w =>
    afterPolicyPasses nodes (afterPolicyPass std podFields node (kernelOf node) w)

/-- The KiveData that these passes apply. -/
def appliedOn (nodes : List String) (w : World) : List KiveData :=
  nodes.flatMap fun node =>
    (policySearch std podFields node w).1.map (kiveDataFor std (kernelOf node))

/-- Nothing keeps the policy passes from searching for the files of all traps: the finalizers are in
place, the selected containers ready, and the API server answers the requests for pods. -/
structure Searching (w : World) : Prop where
  fields : podFields.Standard
  lists : Answerable podFields w.cluster.kivePolicies.items
  due : ∀ p ∈ w.cluster.kivePolicies.items, ¬ FinalizerDue kivePolicyFinalizerName p
  ready : SelectedReady std w

variable {std podFields kernelOf} {w w' : World}

/-- The policy passes run to their ends. -/
lemma Searching.reachesEnd (h : Searching std podFields w) (node kernelID : String) :
    ReachesEnd std podFields node kernelID w := by
  refine (@asks_policyLoop std podFields node kernelID _ w.cluster.kivePolicies.items w rfl).1
    fun p hp => ⟨h.due p hp, fun hdel t ht => ?_⟩
  exact (h.ready p hp hdel t ht).listedReady h.fields (h.lists p hp hdel t ht)

/-- They do so in every world with the same pods and policies. -/
lemma Searching.congr (h : Searching std podFields w) (hpods : w'.cluster.pods = w.cluster.pods)
    (hpolicies : w'.cluster.kivePolicies = w.cluster.kivePolicies) :
    Searching std podFields w' := by
  refine ⟨h.fields, hpolicies ▸ h.lists, hpolicies ▸ h.due, fun p hp => ?_⟩
  rw [hpods]
  exact h.ready p (hpolicies ▸ hp)

/-- What a pass finds depends on pods, policies and the host of its node alone. -/
lemma policySearch_congr {node : String} (hpods : w'.cluster.pods = w.cluster.pods)
    (hpolicies : w'.cluster.kivePolicies = w.cluster.kivePolicies)
    (hhost : w'.hosts node = w.hosts node) :
    policySearch std podFields node w' = policySearch std podFields node w := by
  rw [policySearch, policySearch, askedSites, askedSites, hpods, hpolicies, hhost]

/-- A policy pass leaves the maps alone. -/
lemma kernels_afterPolicyPass (std : Std) (podFields : PodFields) (node kernelID : String)
    (w : World) : (afterPolicyPass std podFields node kernelID w).kernels = w.kernels := by
  refine Prog.Only.run_induction (handle std podFields node kernelID)
    (Φ := fun _ w' => w'.kernels = w.kernels) (fun _ op w' hop h => ?_)
    (only_policyReconcile std kernelID) [] w rfl
  cases op
  case listKivePolicies reader => cases reader <;> exact h
  case listKiveData reader labels => cases reader <;> exact h
  case addInode mapKey => exact absurd hop id
  case removeInode mapKey => exact absurd hop id
  case loadEbpf => exact absurd hop id
  all_goals exact h

/-- What the passes of some nodes make of a world. -/
structure PassesMake (std : Std) (podFields : PodFields) (kernelOf : String → String)
    (nodes : List String) (w w' : World) : Prop where
  pods : w'.cluster.pods = w.cluster.pods
  kivePolicies : w'.cluster.kivePolicies = w.cluster.kivePolicies
  kernels : w'.kernels = w.kernels
  hosts : ∀ n ∈ nodes, w'.hosts n = (policySearch std podFields n w).2
  others : ∀ n ∉ nodes, w'.hosts n = w.hosts n
  stamped : (∀ d ∈ w.cluster.kiveData.items, Stamped d) →
    ∀ d ∈ w'.cluster.kiveData.items, Stamped d
  applied : ∀ k, unforcedAt w'.cluster.kiveData k =
    applyAllAt k (appliedOn std podFields kernelOf nodes w) (unforcedAt w.cluster.kiveData k)

/-- What the pass of one node makes of a world, and those of the others after it. -/
lemma passesMake_cons (h : Searching std podFields w) {node : String} {nodes : List String}
    (hnode : node ∉ nodes)
    (hrest : PassesMake std podFields kernelOf nodes
      (afterPolicyPass std podFields node (kernelOf node) w) w') :
    PassesMake std podFields kernelOf (node :: nodes) w w' := by
  have hend := h.reachesEnd node (kernelOf node)
  have hpods : (afterPolicyPass std podFields node (kernelOf node) w).cluster.pods =
      w.cluster.pods := pods_run std podFields node _ _ w
  have hpolicies := kivePolicies_policyReconcile hend
  have hhosts := (policyReconcile_search hend).2
  have hsearch : ∀ n ∈ nodes,
      policySearch std podFields n (afterPolicyPass std podFields node (kernelOf node) w) =
        policySearch std podFields n w := by
    intro n hn
    have hne : n ≠ node := by
      rintro rfl
      exact hnode hn
    refine policySearch_congr hpods hpolicies ?_
    rw [hhosts]
    exact Function.update_of_ne hne _ _
  refine ⟨hrest.pods.trans hpods, hrest.kivePolicies.trans hpolicies,
    hrest.kernels.trans (kernels_afterPolicyPass std podFields node _ w), fun n hn => ?_,
    fun n hn => ?_, fun hw => hrest.stamped (stamped_policyReconcile hend hw),
    fun k => ?_⟩
  · rcases List.mem_cons.mp hn with rfl | hn
    · rw [hrest.others n hnode, hhosts, Function.update_self]
    · rw [hrest.hosts n hn, hsearch n hn]
  · obtain ⟨hne, hn⟩ := not_or.mp fun hor => hn (List.mem_cons.mpr hor)
    rw [hrest.others n hn, hhosts]
    exact Function.update_of_ne hne _ _
  · have happlied : appliedOn std podFields kernelOf nodes
        (afterPolicyPass std podFields node (kernelOf node) w) =
          appliedOn std podFields kernelOf nodes w := by
      refine List.flatMap_congr fun n hn => ?_
      rw [hsearch n hn]
    rw [hrest.applied k, happlied, unforcedAt_policyReconcile hend, appliedOn, appliedOn,
      List.flatMap_cons, applyAllAt_append]

variable (kernelOf) in
/-- What the passes of the nodes make of a world, one after the other. -/
lemma passesMake {nodes : List String} (hnodup : nodes.Nodup) (h : Searching std podFields w) :
    PassesMake std podFields kernelOf nodes w
      (afterPolicyPasses std podFields kernelOf nodes w) := by
  induction nodes generalizing w with
  | nil =>
    refine ⟨rfl, rfl, rfl, fun n hn => ?_, fun _ _ => rfl, fun hw => hw, fun k => ?_⟩
    · cases hn
    · rfl
  | cons node nodes ih =>
    obtain ⟨hnode, hnodup⟩ := List.nodup_cons.mp hnodup
    have hend := h.reachesEnd node (kernelOf node)
    exact passesMake_cons h hnode
      (ih hnodup (h.congr (pods_run std podFields node _ _ w) (kivePolicies_policyReconcile hend)))

/-! ## What the passes have applied -/

/-- A KiveData carries what was applied, the wake-up aside. -/
structure Carries (d config : KiveData) : Prop extends Shows d config where
  labels : ∀ key ∈ config.objectMeta.labels,
    d.objectMeta.labels.lookup key = config.objectMeta.labels.lookup key

/-- A KiveData carries what was applied last. -/
lemma carries_of_applyUnforced {config d : KiveData} {o : Option KiveData}
    (h : applyUnforced config o = some d) (hlive : ¬ Deleting d) : Carries d config := by
  refine ⟨shows_of_applyUnforced h hlive, fun key hkey => ?_⟩
  cases o with
  | none =>
    obtain rfl := Option.some.inj h
    rfl
  | some x =>
    rw [applyUnforced] at h
    split_ifs at h with hforb
    · obtain rfl := Option.some.inj h
      exact absurd hforb.1 hlive
    · obtain rfl := Option.some.inj h
      exact Finmap.lookup_union_left hkey

/-- Applies mark nothing for deletion. -/
lemma live_applyUnforced {config : KiveData} {o : Option KiveData} (ho : ∀ d ∈ o, ¬ Deleting d) :
    ∀ d ∈ applyUnforced config o, ¬ Deleting d := by
  intro d hd
  cases o with
  | none =>
    obtain rfl := Option.some.inj hd
    simp [Deleting, objectMeta, unforced]
  | some x =>
    rw [applyUnforced] at hd
    split_ifs at hd
    · obtain rfl := Option.some.inj hd
      exact ho _ rfl
    · obtain rfl := Option.some.inj hd
      exact ho x rfl

/-- Under a key under which nothing was stored, the applies leave what the last of them has applied,
if there is one. -/
lemma applyAllAt_none_cases (k : String × String) (applied : List KiveData) :
    (applyAllAt k applied none = none ∧ ∀ config ∈ applied, keyOf config ≠ k) ∨
    ∃ d config, applyAllAt k applied none = some d ∧ ¬ Deleting d ∧ config ∈ applied ∧
      keyOf config = k ∧ Carries d config := by
  induction applied using List.reverseRecOn with
  | nil => exact Or.inl ⟨rfl, fun config hconfig => absurd hconfig List.not_mem_nil⟩
  | append_singleton applied config ih =>
    rw [applyAllAt_append]
    by_cases hkey : keyOf config = k
    · have hlast : ∀ o, applyAllAt k [config] o = applyUnforced config o := fun o => by
        simp [applyAllAt, hkey]
      have hlive : ∀ d ∈ applyAllAt k applied none, ¬ Deleting d := by
        rcases ih with ⟨hnone, -⟩ | ⟨d, -, hsome, hd, -⟩
        · rw [hnone]
          exact fun d hd => absurd hd (by simp)
        · rw [hsome]
          exact fun d' hd' => Option.some.inj hd' ▸ hd
      right
      rw [hlast]
      obtain ⟨d, hd⟩ : ∃ d, applyUnforced config (applyAllAt k applied none) = some d := by
        cases applyAllAt k applied none with
        | none => exact ⟨_, rfl⟩
        | some x =>
          rw [applyUnforced]
          split_ifs
          · exact ⟨_, rfl⟩
          · exact ⟨_, rfl⟩
      have hd' := live_applyUnforced hlive d hd
      exact ⟨d, config, hd, hd', List.mem_append_right _ List.mem_cons_self, hkey,
        carries_of_applyUnforced hd hd'⟩
    · rw [applyAllAt_of_ne fun d hd => List.mem_singleton.mp hd ▸ hkey]
      rcases ih with ⟨hnone, hne⟩ | ⟨d, config', hsome, hd, hmem, hkey', hcarries⟩
      · refine Or.inl ⟨hnone, fun config' hconfig' => ?_⟩
        rcases List.mem_append.mp hconfig' with h | h
        · exact hne config' h
        · exact List.mem_singleton.mp h ▸ hkey
      · exact Or.inr ⟨d, config', hsome, hd, List.mem_append_left _ hmem, hkey', hcarries⟩

section Applied

variable {std : Std} {podFields : PodFields} {kernelOf : String → String} {nodes : List String}
  {w w' : World}

/-- What the passes apply is what they find. -/
lemma mem_appliedOn {config : KiveData} : config ∈ appliedOn std podFields kernelOf nodes w ↔
    ∃ node ∈ nodes, ∃ x ∈ (policySearch std podFields node w).1,
      kiveDataFor std (kernelOf node) x = config := by
  simp only [appliedOn, List.mem_flatMap, List.mem_map]

/-- Where there were no KiveData, each one is what was applied for a file that a node has found. -/
lemma PassesMake.exists_found (h : PassesMake std podFields kernelOf nodes w w')
    (hnone : w.cluster.kiveData.items = []) {d : KiveData} (hd : d ∈ w'.cluster.kiveData.items) :
    ¬ Deleting d ∧ ∃ node ∈ nodes, ∃ x ∈ (policySearch std podFields node w).1,
      keyOf (kiveDataFor std (kernelOf node) x) = keyOf d ∧
      Carries (unforced d) (kiveDataFor std (kernelOf node) x) := by
  have hat := h.applied (keyOf d)
  rw [unforcedAt, Store.find?_eq_some_iff.mpr ⟨hd, rfl⟩, Option.map_some, unforcedAt,
    Store.find?_eq_none_iff.mpr (by simp [hnone]), Option.map_none] at hat
  rcases applyAllAt_none_cases (keyOf d) (appliedOn std podFields kernelOf nodes w) with
    ⟨hempty, -⟩ | ⟨d', config, hsome, hlive, hconfig, hkey, hcarries⟩
  · rw [hempty] at hat
    cases hat
  · rw [hsome] at hat
    obtain rfl := Option.some.inj hat
    obtain ⟨node, hnode, x, hx, rfl⟩ := mem_appliedOn.mp hconfig
    exact ⟨hlive, node, hnode, x, hx, hkey, hcarries⟩

/-- Each file that a node has found has a KiveData with its name. -/
lemma PassesMake.exists_stored (h : PassesMake std podFields kernelOf nodes w w')
    (hnone : w.cluster.kiveData.items = []) {node : String} (hnode : node ∈ nodes)
    {x : Site × ContainerData} (hx : x ∈ (policySearch std podFields node w).1) :
    ∃ d ∈ w'.cluster.kiveData.items, keyOf d = keyOf (kiveDataFor std (kernelOf node) x) := by
  have hat := h.applied (keyOf (kiveDataFor std (kernelOf node) x))
  rcases applyAllAt_none_cases (keyOf (kiveDataFor std (kernelOf node) x))
    (appliedOn std podFields kernelOf nodes w) with ⟨-, hno⟩ | ⟨d', -, hsome, -⟩
  · exact absurd rfl (hno _ (mem_appliedOn.mpr ⟨node, hnode, x, hx, rfl⟩))
  · have hempty : unforcedAt w.cluster.kiveData (keyOf (kiveDataFor std (kernelOf node) x)) =
        none := by
      rw [unforcedAt, Store.find?_eq_none_iff.mpr (by simp [hnone]), Option.map_none]
    rw [hempty, hsome] at hat
    obtain ⟨d, hd, -⟩ := Option.map_eq_some_iff.mp hat
    obtain ⟨hmem, hkey⟩ := Store.find?_eq_some_iff.mp hd
    exact ⟨d, hmem, hkey⟩

end Applied

/-! ## What the traps name -/

/-- A trap of a policy that is not being deleted names the file with the key, in a container that it
selects and where nothing keeps a search on the node from finding it. -/
def NamesFile (std : Std) (w : World) (before after : Host) (key : BpfMapKey) : Prop :=
  ∃ p ∈ w.cluster.kivePolicies.items, ¬ Deleting p ∧ ∃ t ∈ p.spec.traps,
    ∃ x ∈ containersOf w.cluster.pods, Selects std t x.1 x.2 ∧ before.Searchable x.2 t ∧
      ∃ cd, after.Locates x.2 t cd ∧ key = ⟨cd.ino, cd.devID⟩

/-- Pods and containers have names of their own, and the strings of the containers that a trap
selects are different. -/
structure WellNamed (std : Std) (w : World) : Prop where
  pods : (w.cluster.pods.map fun p => (p.namespace_, p.name)).Nodup
  containers : ∀ pod ∈ w.cluster.pods, (pod.containerStatuses.map ContainerStatus.name).Nodup
  distinct : ∀ p ∈ w.cluster.kivePolicies.items, ¬ Deleting p → ∀ t ∈ p.spec.traps,
    DistinctMatchIDs std w.cluster.pods t

section Names

variable {std : Std} {podFields : PodFields} {w : World}

/-- Where nothing keeps the passes from searching, the sites that they ask for are those of the
containers that traps select. -/
lemma Searching.mem_askedSites_iff (h : Searching std podFields w) {site : Site} :
    site ∈ askedSites std podFields w ↔
      site.policy ∈ w.cluster.kivePolicies.items ∧ ¬ Deleting site.policy ∧
        site.trap ∈ site.policy.spec.traps ∧
        (site.pod, site.container) ∈ trapContainers std w.cluster.pods site.trap := by
  rw [mem_askedSites]
  refine and_congr_right fun hp => and_congr_right fun hdel => and_congr_right fun ht => ?_
  rw [askedContainers_eq h.fields (h.lists _ hp hdel _ ht)]

/-- A trap is given containers that it selects. -/
lemma of_mem_trapContainers {t : KiveTrap} {x : Pod × ContainerStatus}
    (h : x ∈ trapContainers std w.cluster.pods t) :
    x ∈ containersOf w.cluster.pods ∧ Selects std t x.1 x.2 :=
  mem_flatMap_candidates.mp (of_mem_handled h).1

/-- The files that are found on a node are those that traps name. -/
lemma namesFile_iff (hsearching : Searching std podFields w) (hnamed : WellNamed std w)
    {node : String} {key : BpfMapKey} :
    NamesFile std w (w.hosts node) (policySearch std podFields node w).2 key ↔
      ∃ x ∈ (policySearch std podFields node w).1, key = ⟨x.2.ino, x.2.devID⟩ := by
  constructor
  · rintro ⟨p, hp, hdel, t, ht, x, hx, hselects, hsearchable, cd, hlocates, rfl⟩
    have hmem : x ∈ trapContainers std w.cluster.pods t :=
      (((selectedOnce_trapContainers_iff hnamed.pods hnamed.containers).mpr
        (hnamed.distinct p hp hdel t ht)).1 x).mpr ⟨hx, hselects⟩
    have hsite : (⟨p, t, x.1, x.2⟩ : Site) ∈ askedSites std podFields w :=
      hsearching.mem_askedSites_iff.mpr ⟨hp, hdel, ht, hmem⟩
    obtain ⟨y, hy, hino, hdev⟩ := exists_found_of_locates hsite hsearchable hlocates
    exact ⟨y, hy, by rw [hino, hdev]⟩
  · rintro ⟨x, hx, rfl⟩
    obtain ⟨hp, hdel, ht, hmem⟩ := hsearching.mem_askedSites_iff.mp (mem_searchAll hx)
    obtain ⟨hcontainer, hselects⟩ := of_mem_trapContainers hmem
    obtain ⟨hsearchable, hfinds⟩ := of_mem_searchAll hx
    exact ⟨x.1.policy, hp, hdel, x.1.trap, ht, (x.1.pod, x.1.container), hcontainer, hselects,
      hsearchable, x.2, hfinds.locates, rfl⟩

/-- What is applied for a file that was found is in force. -/
lemma inForce_of_found (hsearching : Searching std podFields w) {node kernelID : String}
    {x : Site × ContainerData} (hx : x ∈ (policySearch std podFields node w).1) :
    InForce std w.cluster.kivePolicies.items w.cluster.pods (kiveDataFor std kernelID x) := by
  obtain ⟨hp, hdel, ht, hmem⟩ := hsearching.mem_askedSites_iff.mp (mem_searchAll hx)
  obtain ⟨hpod, hcontainer⟩ := mem_containersOf.mp (of_mem_trapContainers hmem).1
  obtain ⟨-, hfinds⟩ := of_mem_searchAll hx
  exact inForce_kiveDataFor std kernelID ⟨x.1.policy, hp, hdel, rfl⟩ ht hpod hcontainer hfinds.id
    hfinds.name

variable {kernelID kernelID' : String} {x : Site × ContainerData} {d : KiveData}

/-- The key of the file that was found. -/
lemma Carries.mapKey (h : Carries (unforced d) (kiveDataFor std kernelID x)) :
    d.mapKey = ⟨x.2.ino, x.2.devID⟩ := by
  have hino : d.spec.inodeNo = x.2.ino := h.inodeNo
  have hdev : d.spec.devID = x.2.devID := h.devID
  rw [KiveData.mapKey, hino, hdev]

/-- The kernel of the node that has found it. -/
lemma Carries.ofKernel_iff (h : Carries (unforced d) (kiveDataFor std kernelID x)) :
    OfKernel kernelID' d ↔ kernelID = kernelID' := by
  have hconfig : OfKernel kernelID (kiveDataFor std kernelID x) := by
    simp [OfKernel, kiveDataFor, KivePolicyReconciler.newKiveData, StrMap.ofEntries]
  have hof : OfKernel kernelID d :=
    (h.labels kernelIDLabel (Finmap.mem_of_lookup_eq_some hconfig)).trans hconfig
  exact ⟨fun h' => hof.unique h', fun h' => h' ▸ hof⟩

/-- What is in force justifies the KiveData that carries it. -/
lemma Carries.justified {pods : List Pod} {policies : List KivePolicy}
    (h : Carries (unforced d) (kiveDataFor std kernelID x))
    (hforce : InForce std policies pods (kiveDataFor std kernelID x)) :
    Justified std pods policies d := by
  have hsame : SameCause (kiveDataFor std kernelID x) d := by
    constructor
    · have hmem : trapIDLabel ∈ (kiveDataFor std kernelID x).objectMeta.labels := by
        simp [kiveDataFor, KivePolicyReconciler.newKiveData, StrMap.ofEntries]
      exact congrArg (Option.getD · "") (h.labels trapIDLabel hmem).symm
    · intro key hkey
      have hne : key ≠ forceReconcile := by
        rintro rfl
        exact absurd hkey (by decide)
      have halert : key ∈ alertKeys := (show justifyingKeys ⊆ alertKeys by decide) hkey
      rw [← get_unforced hne d]
      exact congrArg (Option.getD · "")
        (h.annotations key ((sets_kiveDataFor std kernelID x).1 key halert) hne).symm
  exact ⟨(hsame.bearsLive hforce.bears).exists_isTrapOf, hsame.hasContainer hforce.container⟩

end Names

/-- The same on one of some nodes of a kernel, before and after runs of the operator. -/
def NamedOn (std : Std) (kernelOf : String → String) (nodes : List String) (kernelID : String)
    (w w' : World) (key : BpfMapKey) : Prop :=
  ∃ node ∈ nodes, kernelOf node = kernelID ∧ NamesFile std w (w.hosts node) (w'.hosts node) key

/-! ## The map -/

section Traced

variable {std : Std} {podFields : PodFields} {owner kernelOf : String → String}
  {nodes : List String} {kernelID : String} {w w' : World}

/-- The names of KiveData that policy passes apply tell the file and the kernel. -/
lemma belongs_of_found (hhosts : ∀ node, KnowsOwn owner node (w.hosts node)) {node : String}
    {x : Site × ContainerData} (hx : x ∈ (policySearch std podFields node w).1) :
    Belongs owner kernelOf (kiveDataFor std (kernelOf node) x) := by
  obtain ⟨-, hfinds⟩ := of_mem_searchAll hx
  obtain ⟨containers, hcontainers, hmem⟩ := hfinds.locates.container
  have hgrows := grows_searchAll (askedSites std podFields w) (w.hosts node)
  obtain ⟨howner, hhyphen⟩ := hhosts node (containerIDPart x.1.container.containerID)
    ⟨containers, hgrows.containers ▸ hcontainers, hmem⟩
  exact belongs_kiveDataFor std howner hhyphen x.2

/-- The keys of the KiveData of a kernel are those of the files that were found on its nodes. -/
lemma PassesMake.mem_mapKeys (h : PassesMake std podFields kernelOf nodes w w')
    (hnone : w.cluster.kiveData.items = [])
    (hhosts : ∀ node, KnowsOwn owner node (w.hosts node)) (hsearching : Searching std podFields w)
    (hnamed : WellNamed std w)
    {key : BpfMapKey} :
    key ∈ mapKeys kernelID w'.cluster.kiveData.items ↔
      NamedOn std kernelOf nodes kernelID w w' key := by
  have hnames : ∀ node ∈ nodes, NamesFile std w (w.hosts node) (w'.hosts node) key ↔
      ∃ x ∈ (policySearch std podFields node w).1, key = ⟨x.2.ino, x.2.devID⟩ := by
    intro node hnode
    rw [h.hosts node hnode]
    exact namesFile_iff hsearching hnamed
  rw [Kive.mem_mapKeys]
  constructor
  · rintro ⟨d, hd, hof, rfl⟩
    obtain ⟨-, node, hnode, x, hx, -, hcarries⟩ := h.exists_found hnone hd
    exact ⟨node, hnode, hcarries.ofKernel_iff.mp hof,
      (hnames node hnode).mpr ⟨x, hx, hcarries.mapKey⟩⟩
  · rintro ⟨node, hnode, rfl, hname⟩
    obtain ⟨x, hx, rfl⟩ := (hnames node hnode).mp hname
    obtain ⟨d, hd, hkey⟩ := h.exists_stored hnone hnode hx
    obtain ⟨-, node', -, x', hx', hkey', hcarries⟩ := h.exists_found hnone hd
    -- the one that was stored last under the name is for the same file and kernel
    have hbelongs : Belongs owner kernelOf (kiveDataFor std (kernelOf node') x') :=
      belongs_of_found hhosts hx'
    obtain ⟨hmap, hkernel⟩ := hbelongs.same (belongs_of_found hhosts hx) (hkey'.trans hkey)
    have hof : OfKernel (kernelOf node) (kiveDataFor std (kernelOf node) x) := by
      simp [OfKernel, kiveDataFor, KivePolicyReconciler.newKiveData, StrMap.ofEntries]
    have hsame : kernelOf node' = kernelOf node := by
      refine OfKernel.unique ?_ ((hkernel _).mpr hof)
      simp [OfKernel, kiveDataFor, KivePolicyReconciler.newKiveData, StrMap.ofEntries]
    exact ⟨d, hd, hcarries.ofKernel_iff.mpr hsame, hcarries.mapKey.trans hmap⟩

/-- From a cluster without KiveData, in which each container is known to the runtime of one node
(`KnowsOwn`), let each node make a policy pass, with nothing to keep it from searching for the files
(`Searching`: the server takes the list requests, no policy needs a patch, and what is selected is
running and ready), and let the data reconciler of a kernel run as often as it takes.  Then the map,
if it has room, has the keys of the files that traps name in the selected containers on the nodes of
the kernel, and no others, and further runs change nothing. -/
theorem traced_exactly (std : Std) (hw : w.Fresh)
    (hhosts : ∀ node, KnowsOwn owner node (w.hosts node)) (hsearching : Searching std podFields w)
    (hnamed : WellNamed std w) (hnodup : nodes.Nodup) (loader kernelID : String) {m : ℕ}
    (hm : 2 * ((afterPolicyPasses std podFields kernelOf nodes w).cluster.kiveData.items.filter
      fun d => OfKernel kernelID d).length + 2 ≤ m)
    (hroom : (mapKeys kernelID (afterPolicyPasses std podFields kernelOf nodes
      w).cluster.kiveData.items).card ≤ mapMaxEntries) :
    let w' := (dataRun std podFields loader kernelID)^[m]
      (afterPolicyPasses std podFields kernelOf nodes w)
    (∀ key, key ∈ (w'.kernels kernelID).tracedInodes ↔
      NamedOn std kernelOf nodes kernelID w w' key) ∧
    dataRun std podFields loader kernelID w' = w' := by
  have hmake := passesMake kernelOf hnodup hsearching
  set w₁ := afterPolicyPasses std podFields kernelOf nodes w
  have hstamped : ∀ d ∈ w₁.cluster.kiveData.items, Stamped d := by
    refine hmake.stamped fun d hd => ?_
    rw [hw.kiveData] at hd
    cases hd
  have hheld : OnlyLoaderHolds kernelID w₁.cluster.kiveData.items := fun d hd _ =>
    (hstamped d hd).finalizers
  have htraced : (w₁.kernels kernelID).tracedInodes ⊆
      mapKeys kernelID w₁.cluster.kiveData.items := by
    rw [hmake.kernels, hw.tracedInodes kernelID]
    exact Finset.empty_subset _
  obtain ⟨hset, -, htraced'⟩ := settled_iterate_dataRun std podFields loader hsearching.fields hheld
    htraced hroom hm
  -- the nodes stay as the policy passes have left them
  have hnow := (iterate_dataRun_items std loader hsearching.fields hheld m).2.2.2.1
  intro w'
  have hon : ∀ key, NamedOn std kernelOf nodes kernelID w w' key ↔
      key ∈ mapKeys kernelID w₁.cluster.kiveData.items := by
    intro key
    rw [hmake.mem_mapKeys hw.kiveData hhosts hsearching hnamed, NamedOn, NamedOn, hnow]
  refine ⟨fun key => ?_, dataRun_settled hsearching.fields hset⟩
  rw [hon, htraced', Kive.mem_mapKeys]
  constructor
  · rintro ⟨d, ⟨hd, hof, -⟩, rfl⟩
    exact ⟨d, hd, hof, rfl⟩
  · rintro ⟨d, hd, hof, rfl⟩
    obtain ⟨hlive, node, -, x, hx, -, hcarries⟩ := hmake.exists_found hw.kiveData hd
    have hjustified : Justified std w₁.cluster.pods w₁.cluster.kivePolicies.items d := by
      rw [hmake.pods, hmake.kivePolicies]
      exact hcarries.justified (inForce_of_found hsearching hx)
    exact ⟨d, ⟨hd, hof, hlive, hjustified⟩, rfl⟩

end Traced

end Passes

/-! ## Two nodes -/

namespace Coverage

open StaleKeys (world)
open TrapRecords (std pod)

/-- There is one container. -/
lemma eq_of_mem_containersOf {x : Pod × ContainerStatus}
    (hx : x ∈ containersOf world.cluster.pods) : x = (pod, ⟨"main", "containerd://aa", true⟩) := by
  obtain ⟨hpod, hcontainer⟩ := mem_containersOf.mp hx
  have hpod : x.1 = pod := List.mem_singleton.mp hpod
  rw [hpod] at hcontainer
  exact Prod.ext hpod (List.mem_singleton.mp hcontainer)

/-- It is ready, and all list requests are answered. -/
lemma searching : Searching std .standard world where
  fields := PodFields.standard_standard
  lists _ _ _ _ _ _ _ _ := PodFields.knowsIP_standard
  due := by decide
  ready := by
    intro p _ _ t _ x hx _
    rw [eq_of_mem_containersOf hx]
    exact ⟨rfl, rfl⟩

/-- One pod and one container have different names. -/
lemma wellNamed : WellNamed std world where
  pods := by decide
  containers := by decide
  distinct := by
    intro p _ _ t _ x hx y hy _ _ _
    rw [eq_of_mem_containersOf hx, eq_of_mem_containersOf hy]

end Coverage

open Coverage StaleKeys TrapRecords in
/-- The file of a container that runs on one of two nodes. -/
theorem traced_exactly_two_nodes :
    let nodes := ["node", "other"]
    let w' := (dataRun TrapRecords.std .standard "other" "k1")^[4]
      (afterPolicyPasses TrapRecords.std .standard (fun _ => "k1") nodes StaleKeys.world)
    (∀ key, key ∈ (w'.kernels "k1").tracedInodes ↔
      NamedOn TrapRecords.std (fun _ => "k1") nodes "k1" StaleKeys.world w' key) ∧
    dataRun TrapRecords.std .standard "other" "k1" w' = w' :=
  traced_exactly TrapRecords.std fresh_world knowsOwn_world
    Coverage.searching Coverage.wellNamed (by decide) "other" "k1" (by decide +kernel)
    (by decide +kernel)

end Kive
