import KiveOperator.Controller.Stamped
import KiveOperator.Controller.Unforced
import KiveOperator.Correctness.LoaderConvergence
import KiveOperator.Correctness.SelectionOnce
import KiveOperator.Correctness.WakeUps

/-!
# KiveData of files that are no longer there

A KiveData records the inode and the device of a file, a path and a container.  When the file is
replaced, a policy pass applies a second KiveData, and the data passes after it keep the first one
as well: they look at its trap and its container, but not at its file.  `pointsAtFiles_iff` says
when all KiveData that are left point at the files that their paths name.
-/

namespace Kive

open Interaction

/-! ## A pass that reaches its end -/

/-- The world after one run of the policy reconciler of a node. -/
def afterPolicyPass (std : Std) (podFields : PodFields) (node kernelID : String)
    (w : World) : World :=
  ((KivePolicyReconciler.reconcile std kernelID).run (handle std podFields node kernelID) w).2

section Complete

variable {std : Std} {podFields : PodFields} {node kernelID : String}

/-- A pass that goes on has found nothing to do about the finalizers of a policy, and has left the
policies alone. -/
lemma policyStep_of_ok {p : KivePolicy} {w : World}
    (hok : (Prog.runE (handle std podFields node kernelID)
      (KivePolicyReconciler.policyStep std kernelID p) w).1 = .ok ()) :
    ¬ FinalizerDue kivePolicyFinalizerName p ∧
      (Prog.runE (handle std podFields node kernelID)
        (KivePolicyReconciler.policyStep std kernelID p) w).2.cluster.kivePolicies =
        w.cluster.kivePolicies := by
  unfold KivePolicyReconciler.policyStep at hok ⊢
  split_ifs at hok ⊢ with hdel hfin hfin'
  · exact absurd hok (runE_patchFinalizers_ne _ _ _)
  · exact ⟨fun hdue => hfin (hdue.mp hdel), rfl⟩
  · exact absurd hok (runE_patchFinalizers_ne _ _ _)
  · have hcontains : containsFinalizer p kivePolicyFinalizerName = true := by simpa using hfin'
    refine ⟨fun hdue => hdel (hdue.mpr hcontains), ?_⟩
    have hloop := @obeys_policyTrapLoop std kernelID (fun _ => True) p trivial hdel _
      (fun _ => id) []
    refine kivePolicies_run std podFields node kernelID (hloop.only fun _ op hop => ?_) w
    rintro orig modified rfl
    exact hop

/-- The same for the loop over the policies. -/
lemma policyLoop_of_ok {items : List KivePolicy} {w : World}
    (hok : (Prog.runE (handle std podFields node kernelID)
      (KivePolicyReconciler.policyLoop std kernelID items) w).1 = .ok ()) :
    (∀ p ∈ items, ¬ FinalizerDue kivePolicyFinalizerName p) ∧
      (Prog.runE (handle std podFields node kernelID)
        (KivePolicyReconciler.policyLoop std kernelID items) w).2.cluster.kivePolicies =
        w.cluster.kivePolicies := by
  induction items generalizing w with
  | nil => exact ⟨fun p hp => absurd hp List.not_mem_nil, rfl⟩
  | cons p items ih =>
    rw [KivePolicyReconciler.policyLoop, Prog.runE_bind] at hok ⊢
    have hstep := @policyStep_of_ok std podFields node kernelID p w
    generalize Prog.runE (handle std podFields node kernelID)
      (KivePolicyReconciler.policyStep std kernelID p) w = r at hok hstep ⊢
    obtain ⟨answer, w'⟩ := r
    cases answer with
    | error o => exact absurd hok (by simp)
    | ok u =>
      obtain ⟨hdue, hsame⟩ := hstep rfl
      obtain ⟨hdues, hsames⟩ := ih hok
      exact ⟨List.forall_mem_cons.mpr ⟨hdue, hdues⟩, hsames.trans hsame⟩

/-- A pass that reaches its end leaves the policies alone. -/
lemma kivePolicies_policyReconcile {w : World} (hend : ReachesEnd std podFields node kernelID w) :
    (afterPolicyPass std podFields node kernelID w).cluster.kivePolicies =
      w.cluster.kivePolicies := by
  have hloop := (policyLoop_of_ok hend).2
  rw [afterPolicyPass, KivePolicyReconciler.reconcile, Pass.run_toProg, Prog.runE_bind,
    Prog.runE_lift, Client.listKivePolicies, Prog.run_perform, Prog.continueE_ok]
  dsimp only [handle]
  rw [Prog.runE_bind]
  generalize hr : Prog.runE (handle std podFields node kernelID)
    (KivePolicyReconciler.policyLoop std kernelID w.cluster.kivePolicies.items) w = r at hloop
  obtain ⟨answer, w'⟩ := r
  obtain rfl : answer = .ok () := (congrArg Prod.fst hr).symm.trans hend
  have honly : KivePolicyReconciler.triggerKiveData.run.Only
      (PolicyCall std kernelID fun _ => False) := only_triggerKiveData std kernelID
  have htrigger := kivePolicies_run std podFields node kernelID (honly.mono fun op hop => ?_) w'
  · exact htrigger.trans hloop
  · rintro orig modified rfl
    exact hop.1

end Complete

/-! ## What a pass makes of the KiveData -/

/-- The wake-up aside, every other annotation stands in a KiveData. -/
lemma get_unforced {key : String} (hkey : key ≠ forceReconcile) (d : KiveData) :
    (unforced d).objectMeta.annotations.get key = d.objectMeta.annotations.get key :=
  congrArg (Option.getD · "") (Finmap.lookup_erase_ne hkey)

/-- The wake-up is no part of the stamp. -/
lemma stamped_unforced_iff {d : KiveData} : Stamped (unforced d) ↔ Stamped d := by
  have hpod := get_unforced (show "pod-name" ≠ forceReconcile by decide) d
  have hid := get_unforced (show "container-id" ≠ forceReconcile by decide) d
  constructor
  · rintro ⟨⟨pod, c, hkey, hname, hcontainer⟩, hfin⟩
    exact ⟨⟨pod, c, hkey, hpod.symm.trans hname, hid.symm.trans hcontainer⟩, hfin⟩
  · rintro ⟨⟨pod, c, hkey, hname, hcontainer⟩, hfin⟩
    exact ⟨⟨pod, c, hkey, hpod.trans hname, hid.trans hcontainer⟩, hfin⟩

/-- The wake-up justifies nothing. -/
lemma justified_unforced_iff {std : Std} {pods : List Pod} {policies : List KivePolicy}
    {d : KiveData} :
    Justified std pods policies (unforced d) ↔ Justified std pods policies d := by
  have hlabels : (unforced d).objectMeta.labels = d.objectMeta.labels := rfl
  simp only [Justified, HasTrap, IsTrapOf, HasContainer, kiveDataContainerCmp_iff, hlabels,
    get_unforced (show "kive-alert-version" ≠ forceReconcile by decide),
    get_unforced (show "node-name" ≠ forceReconcile by decide),
    get_unforced (show "pod-name" ≠ forceReconcile by decide),
    get_unforced (show "namespace" ≠ forceReconcile by decide),
    get_unforced (show "container-name" ≠ forceReconcile by decide),
    get_unforced (show "container-id" ≠ forceReconcile by decide)]

/-- What an apply for a file that was found makes of a stamped KiveData with its name. -/
lemma stamped_applyUnforced (std : Std) (kernelID : String) {x : Site × ContainerData}
    (hid : x.2.id = x.1.container.containerID) {o : Option KiveData}
    (ho : ∀ d ∈ o, Stamped d ∧ keyOf d = keyOf (kiveDataFor std kernelID x)) :
    ∀ d ∈ applyUnforced (kiveDataFor std kernelID x) o,
      Stamped d ∧ keyOf d = keyOf (kiveDataFor std kernelID x) := by
  intro d hd
  cases o with
  | none =>
    obtain rfl := Option.some.inj hd
    obtain ⟨named, finalizers⟩ := stamped_kiveDataFor std kernelID hid
    exact ⟨stamped_unforced_iff.mpr ⟨named, finalizers⟩, rfl⟩
  | some y =>
    obtain ⟨hy, hkey⟩ := ho y rfl
    rw [applyUnforced] at hd
    split_ifs at hd
    · obtain rfl := Option.some.inj hd
      exact ⟨hy, hkey⟩
    · obtain rfl := Option.some.inj hd
      exact ⟨stamped_unforced_iff.mpr (stamped_applyTo std kernelID hid hy hkey), hkey⟩

/-- Applies for files that were found, one after the other, make stamped KiveData of stamped
ones. -/
lemma stamped_applyAllAt (std : Std) (kernelID : String) {found : List (Site × ContainerData)}
    (hid : ∀ x ∈ found, x.2.id = x.1.container.containerID) {k : String × String}
    {o : Option KiveData} (ho : ∀ d ∈ o, Stamped d ∧ keyOf d = k) :
    ∀ d ∈ applyAllAt k (found.map (kiveDataFor std kernelID)) o, Stamped d ∧ keyOf d = k := by
  induction found generalizing o with
  | nil => exact ho
  | cons x found ih =>
    have hrest := fun {o} => @ih (fun y hy => hid y (List.mem_cons_of_mem x hy)) o
    rw [List.map_cons, ← List.singleton_append, applyAllAt_append]
    refine hrest ?_
    by_cases hkey : keyOf (kiveDataFor std kernelID x) = k
    · subst hkey
      have hone : applyAllAt (keyOf (kiveDataFor std kernelID x)) [kiveDataFor std kernelID x] o =
          applyUnforced (kiveDataFor std kernelID x) o := by simp [applyAllAt]
      rw [hone]
      exact stamped_applyUnforced std kernelID (hid x List.mem_cons_self) ho
    · rw [applyAllAt_of_ne (fun d hd => List.mem_singleton.mp hd ▸ hkey)]
      exact ho

/-! ## KiveData and their files -/

/-- The path of a KiveData leads to its file, in the container and on the node that it records. -/
def PointsAt (hosts : String → Host) (d : KiveData) : Prop :=
  (hosts (d.objectMeta.annotations.get "node-name")).Locates
    { name := d.objectMeta.annotations.get "container-name"
      containerID := d.objectMeta.annotations.get "container-id"
      ready := true }
    { path := d.objectMeta.annotations.get "path" }
    { ino := d.spec.inodeNo, devID := d.spec.devID }

/-- A KiveData records the identifier and the path of a trap. -/
def RecordsTrap (std : Std) (d : KiveData) (t : KiveTrap) : Prop :=
  IsTrapOf std d t ∧ d.objectMeta.annotations.get "path" = t.path

/-- A KiveData records a container of a pod, and the node of the pod. -/
def RecordsContainer (d : KiveData) (pod : Pod) (c : ContainerStatus) : Prop :=
  pod.nodeName = d.objectMeta.annotations.get "node-name" ∧ kiveDataContainerCmp d pod c = true

/-- Every KiveData of a kernel has the file that its path leads to, and there is at most one of them
for a trap and a container. -/
structure PointsAtFiles (std : Std) (kernelID : String) (w : World) : Prop where
  current : ∀ d ∈ w.cluster.kiveData.items, OfKernel kernelID d → PointsAt w.hosts d
  unique : ∀ t pod c, {d | d ∈ w.cluster.kiveData.items ∧ OfKernel kernelID d ∧
    RecordsTrap std d t ∧ RecordsContainer d pod c}.Subsingleton

/-- The files that are found on a node at the sites that a policy pass asks for, and the node after
they were searched for. -/
def policySearch (std : Std) (podFields : PodFields) (node : String) (w : World) :
    List (Site × ContainerData) × Host :=
  searchAll (askedSites std podFields w) (w.hosts node)

/-- Every KiveData of the kernel that is to stay has the name of a file that is found now, or has
the file that its path leads to. -/
def NoneStale (std : Std) (podFields : PodFields) (node kernelID : String) (w : World) : Prop :=
  ∀ d, Wanted std kernelID w d →
    (∃ x ∈ (policySearch std podFields node w).1, keyOf d = (operatorNamespace, objectName x)) ∨
      PointsAt (Function.update w.hosts node (policySearch std podFields node w).2) d

/-- All containers that traps of policies select are ready, unless the policy is being deleted. -/
def SelectedReady (std : Std) (w : World) : Prop :=
  ∀ p ∈ w.cluster.kivePolicies.items, ¬ Deleting p → ∀ t ∈ p.spec.traps,
    AllReady std w.cluster.pods t

/-- The containers that a node runs are those of its pods. -/
def Placed (node : String) (w : World) : Prop :=
  ∀ x ∈ containersOf w.cluster.pods, ∀ containers,
    (w.hosts node).containers = .ok containers →
      containerIDPart x.2.containerID ∈ containers → x.1.nodeName = node

section Files

variable {std : Std} {podFields : PodFields} {node kernelID : String} {w : World}

/-- Where a KiveData points does not depend on the wake-up. -/
lemma pointsAt_unforced_iff {hosts : String → Host} {d : KiveData} :
    PointsAt hosts (unforced d) ↔ PointsAt hosts d := by
  have hspec : (unforced d).spec = d.spec := rfl
  simp only [PointsAt, hspec,
    get_unforced (show "node-name" ≠ forceReconcile by decide),
    get_unforced (show "container-name" ≠ forceReconcile by decide),
    get_unforced (show "container-id" ≠ forceReconcile by decide),
    get_unforced (show "path" ≠ forceReconcile by decide)]

/-- Where a KiveData points does not depend on the finalizer. -/
lemma pointsAt_addFinalizer_iff {hosts : String → Host} {d : KiveData} :
    PointsAt hosts (addFinalizer d kiveDataFinalizerName) ↔ PointsAt hosts d := by
  obtain ⟨fs, h⟩ := addFinalizer_eq d
  rw [h]
  rfl

/-- A run changes no node but its own. -/
lemma hosts_run_of_ne {α : Type} (p : CallProg α) {n : String} (hn : n ≠ node) :
    (p.run (handle std podFields node kernelID) w).2.hosts n = w.hosts n := by
  refine Prog.run_rel (handle std podFields node kernelID)
    (r := fun w w' => w'.hosts n = w.hosts n) (fun _ => rfl) (fun h h' => h'.trans h)
    (fun op w => ?_) p w
  cases op
  case listKivePolicies reader => cases reader <;> rfl
  case listKiveData reader labels => cases reader <;> rfl
  case getContainerData site => exact Function.update_of_ne hn _ _
  all_goals rfl

/-- A complete pass searches for the files of the selected sites. -/
lemma policyReconcile_search (hend : ReachesEnd std podFields node kernelID w) :
    foundBy ((KivePolicyReconciler.reconcile std kernelID).events
        (handle std podFields node kernelID) w) = (policySearch std podFields node w).1 ∧
      (afterPolicyPass std podFields node kernelID w).hosts =
        Function.update w.hosts node (policySearch std podFields node w).2 := by
  have hsearch := searchAll_sitesCalled std podFields node kernelID
    (KivePolicyReconciler.reconcile std kernelID) w
  rw [sitesCalled_reconcile hend] at hsearch
  refine ⟨(congrArg Prod.fst hsearch).symm, funext fun n => ?_⟩
  rcases eq_or_ne n node with rfl | hn
  · rw [Function.update_self]
    exact (congrArg Prod.snd hsearch).symm
  · rw [Function.update_of_ne hn]
    exact hosts_run_of_ne _ hn

/-- A KiveData that shows a file that the pass has found points at it. -/
lemma pointsAt_of_shows (hplaced : Placed node w)
    (hend : ReachesEnd std podFields node kernelID w)
    {x : Site × ContainerData} (hx : x ∈ (policySearch std podFields node w).1) {d : KiveData}
    (hd : Shows d (kiveDataFor std kernelID x)) :
    PointsAt (Function.update w.hosts node (policySearch std podFields node w).2) d := by
  obtain ⟨hfound, hhosts⟩ := policyReconcile_search hend
  have hfinds := finds_of_mem_foundBy (KivePolicyReconciler.reconcile std kernelID)
    (hfound.symm ▸ hx)
  have hgrows := Prog.run_rel (handle std podFields node kernelID)
    (r := fun w w' => (w.hosts node).Grows (w'.hosts node)) (fun _ => Host.Grows.refl _)
    (fun h h' => h.trans h') (handle_grows_host std podFields node kernelID)
    (KivePolicyReconciler.reconcile std kernelID) w
  rw [← afterPolicyPass, hhosts, Function.update_self] at hfinds hgrows
  obtain ⟨⟨⟨containers, hcontainers, hmem⟩, hfile⟩, hid, -, -⟩ := hfinds
  -- the annotations that were applied
  have hann : ∀ key ∈ alertKeys, key ≠ forceReconcile → d.objectMeta.annotations.get key =
      (kiveDataFor std kernelID x).objectMeta.annotations.get key := fun key hkey hne =>
    congrArg (Option.getD · "")
      (hd.annotations key ((sets_kiveDataFor std kernelID x).1 key hkey) hne)
  have hnode : d.objectMeta.annotations.get "node-name" = x.1.pod.nodeName :=
    (hann "node-name" (by decide) (by decide)).trans (by
      simp [kiveDataFor, KivePolicyReconciler.newKiveData, StrMap.ofEntries, StrMap.get])
  have hcid : d.objectMeta.annotations.get "container-id" = x.1.container.containerID :=
    (hann "container-id" (by decide) (by decide)).trans (by
      simp [kiveDataFor, KivePolicyReconciler.newKiveData, StrMap.ofEntries, StrMap.get,
        Finmap.lookup_insert_of_ne, hid])
  have hpath : d.objectMeta.annotations.get "path" = x.1.trap.path :=
    (hann "path" (by decide) (by decide)).trans (by
      simp [kiveDataFor, KivePolicyReconciler.newKiveData, StrMap.ofEntries, StrMap.get,
        Finmap.lookup_insert_of_ne])
  have hhere : x.1.pod.nodeName = node :=
    hplaced (x.1.pod, x.1.container) (mem_containersOf_of_askedSites (mem_searchAll hx))
      containers (hgrows.containers.symm.trans hcontainers) hmem
  rw [PointsAt, hnode, hhere, Function.update_self, hcid, hpath, hd.inodeNo, hd.devID]
  exact ⟨⟨containers, hcontainers, hmem⟩, hfile⟩

/-- A KiveData that is to stay is so in every world with the same pods and policies in which it
stands, the wake-up aside. -/
lemma wanted_of_unforcedAt {w' : World} (hpods : w'.cluster.pods = w.cluster.pods)
    (hpolicies : w'.cluster.kivePolicies = w.cluster.kivePolicies) {d : KiveData}
    (hd : Wanted std kernelID w d)
    (hsame : unforcedAt w'.cluster.kiveData (keyOf d) = unforcedAt w.cluster.kiveData (keyOf d)) :
    ∃ d', Wanted std kernelID w' d' ∧ keyOf d' = keyOf d ∧ unforced d' = unforced d := by
  obtain ⟨hmem, hof, hlive, hj⟩ := hd
  rw [unforcedAt, unforcedAt, Store.find?_eq_some_iff.mpr ⟨hmem, rfl⟩, Option.map_some] at hsame
  obtain ⟨d', hfind, heq⟩ := Option.map_eq_some_iff.mp hsame
  obtain ⟨hmem', hkey⟩ := Store.find?_eq_some_iff.mp hfind
  refine ⟨d', ⟨hmem', ?_, ?_, ?_⟩, hkey, heq⟩
  · have hof' : OfKernel kernelID (unforced d) := hof
    rw [← heq] at hof'
    exact hof'
  · have hlive' : ¬ Deleting (unforced d) := hlive
    rw [← heq] at hlive'
    exact hlive'
  · rw [hpods, hpolicies, ← justified_unforced_iff, heq]
    exact justified_unforced_iff.mpr hj

/-- What a policy pass makes of the KiveData under a key. -/
lemma unforcedAt_policyReconcile (hend : ReachesEnd std podFields node kernelID w)
    (k : String × String) :
    unforcedAt (afterPolicyPass std podFields node kernelID w).cluster.kiveData k =
      applyAllAt k ((policySearch std podFields node w).1.map (kiveDataFor std kernelID))
        (unforcedAt w.cluster.kiveData k) := by
  have honly := (only_policyReconcile std kernelID).mono fun _ => applyingCall_of_policyCall
  rw [afterPolicyPass, unforcedAt_run std podFields node kernelID honly, appliedBy_eq_map_foundBy,
    (policyReconcile_search hend).1]

/-- A pass keeps all KiveData stamped. -/
lemma stamped_policyReconcile (hend : ReachesEnd std podFields node kernelID w)
    (hw : ∀ d ∈ w.cluster.kiveData.items, Stamped d) :
    ∀ d ∈ (afterPolicyPass std podFields node kernelID w).cluster.kiveData.items, Stamped d := by
  intro d hd
  have hat := unforcedAt_policyReconcile hend (keyOf d)
  rw [unforcedAt, Store.find?_eq_some_iff.mpr ⟨hd, rfl⟩, Option.map_some] at hat
  have hid : ∀ x ∈ (policySearch std podFields node w).1, x.2.id = x.1.container.containerID := by
    intro x hx
    rw [← (policyReconcile_search hend).1] at hx
    exact (finds_of_mem_foundBy (KivePolicyReconciler.reconcile std kernelID) hx).id
  have hold : ∀ y ∈ unforcedAt w.cluster.kiveData (keyOf d), Stamped y ∧ keyOf y = keyOf d := by
    intro y hy
    obtain ⟨z, hz, rfl⟩ := Option.map_eq_some_iff.mp hy
    obtain ⟨hmem, hkey⟩ := Store.find?_eq_some_iff.mp hz
    exact ⟨stamped_unforced_iff.mpr (hw z hmem), hkey⟩
  exact stamped_unforced_iff.mp (stamped_applyAllAt std kernelID hid hold (unforced d) hat.symm).1

/-- After a complete pass all KiveData that are to stay point at their files if and only if none was
stale. -/
lemma pointsAt_policyReconcile_iff (hplaced : Placed node w)
    (hend : ReachesEnd std podFields node kernelID w) :
    let w' := afterPolicyPass std podFields node kernelID w
    (∀ d, Wanted std kernelID w' d → PointsAt w'.hosts d) ↔
      NoneStale std podFields node kernelID w := by
  intro w'
  have hat := unforcedAt_policyReconcile hend
  have hpods : w'.cluster.pods = w.cluster.pods := pods_run std podFields node kernelID _ w
  have hpolicies : w'.cluster.kivePolicies = w.cluster.kivePolicies :=
    kivePolicies_policyReconcile hend
  have hhosts := (policyReconcile_search hend).2
  -- a name that no file has keeps its KiveData
  have hkeep : ∀ k, (∀ x ∈ (policySearch std podFields node w).1,
      k ≠ (operatorNamespace, objectName x)) →
      unforcedAt w'.cluster.kiveData k = unforcedAt w.cluster.kiveData k := by
    intro k hk
    refine (hat k).trans (applyAllAt_of_ne (fun d hd => ?_) _)
    obtain ⟨x, hx, rfl⟩ := List.mem_map.mp hd
    exact (hk x hx).symm
  constructor
  · intro hpoint d hd
    by_cases hnamed : ∃ x ∈ (policySearch std podFields node w).1,
        keyOf d = (operatorNamespace, objectName x)
    · exact Or.inl hnamed
    · refine Or.inr ?_
      obtain ⟨d', hd', -, heq⟩ := wanted_of_unforcedAt hpods hpolicies hd
        (hkeep _ fun x hx hkey => hnamed ⟨x, hx, hkey⟩)
      have hd'' := hpoint d' hd'
      rwa [← pointsAt_unforced_iff, heq, pointsAt_unforced_iff, hhosts] at hd''
  · intro hstale d hd
    rw [hhosts]
    have hafter := hat (keyOf d)
    rw [unforcedAt, Store.find?_eq_some_iff.mpr ⟨hd.1, rfl⟩, Option.map_some] at hafter
    have hlive : ¬ Deleting (unforced d) := hd.2.2.1
    rcases shows_of_applyAllAt hafter.symm hlive with hnone | ⟨config, hconfig, -, hshows⟩
    · have hnot : ∀ x ∈ (policySearch std podFields node w).1,
          keyOf d ≠ (operatorNamespace, objectName x) := fun x hx hkey =>
        hnone _ (List.mem_map_of_mem hx) hkey.symm
      obtain ⟨d', hd', hkey, heq⟩ := wanted_of_unforcedAt hpods.symm hpolicies.symm hd
        (hkeep _ hnot).symm
      rcases hstale d' hd' with ⟨x, hx, hnamed⟩ | hpoint
      · exact absurd (hkey.symm.trans hnamed) (hnot x hx)
      · rwa [← pointsAt_unforced_iff, heq, pointsAt_unforced_iff] at hpoint
    · obtain ⟨x, hx, rfl⟩ := List.mem_map.mp hconfig
      exact pointsAt_of_shows hplaced hend hx (shows_unforced_iff.mp hshows)

/-- Of KiveData that have the files that their paths lead to, there is at most one for a trap and a
container. -/
lemma subsingleton_of_pointsAt (hstamped : ∀ d ∈ w.cluster.kiveData.items, Stamped d)
    (hpoint : ∀ d ∈ w.cluster.kiveData.items, OfKernel kernelID d → PointsAt w.hosts d)
    (t : KiveTrap) (pod : Pod) (c : ContainerStatus) :
    {d | d ∈ w.cluster.kiveData.items ∧ OfKernel kernelID d ∧
      RecordsTrap std d t ∧ RecordsContainer d pod c}.Subsingleton := by
  rintro d ⟨hd, hof, ⟨-, hpath⟩, hnode, hcmp⟩ d' ⟨hd', hof', ⟨-, hpath'⟩, hnode', hcmp'⟩
  obtain ⟨hpod, -, -, hid⟩ := kiveDataContainerCmp_iff.mp hcmp
  obtain ⟨hpod', -, -, hid'⟩ := kiveDataContainerCmp_iff.mp hcmp'
  have hat := hpoint d hd hof
  have hat' := hpoint d' hd' hof'
  rw [PointsAt, ← hnode] at hat
  rw [PointsAt, ← hnode'] at hat'
  obtain ⟨hino, hdev⟩ := hat.unique hat' (hid.trans hid'.symm) (hpath.trans hpath'.symm)
  have hkey := (hstamped d hd).keyOf_eq (hstamped d' hd') hino hdev (hpod.trans hpod'.symm)
    (hid.trans hid'.symm)
  exact List.inj_on_of_nodup_map w.cluster.kiveData.keys_nodup hd hd' hkey

end Files

/-- From any state that is reached from a cluster without KiveData, with files that change at any
time, a policy pass that reaches its end and data passes until they change nothing leave the
KiveData of the kernel pointing at their files, with at most one for each trap and container, if and
only if none was stale before the policy pass. -/
theorem pointsAtFiles_iff (std : Std) {podFields : PodFields} {kernelOf : String → String}
    (hf : podFields.Standard) {w : World} (hw : w.Reached std podFields kernelOf) (node : String)
    (hplaced : Placed node w)
    (hend : ReachesEnd std podFields node (kernelOf node) w) (m : ℕ)
    (hstable :
      let w' := (dataRun std podFields node (kernelOf node))^[m]
        (afterPolicyPass std podFields node (kernelOf node) w)
      (dataRun std podFields node (kernelOf node) w').cluster.kiveData.items =
        w'.cluster.kiveData.items) :
    PointsAtFiles std (kernelOf node) ((dataRun std podFields node (kernelOf node))^[m]
        (afterPolicyPass std podFields node (kernelOf node) w)) ↔
      NoneStale std podFields node (kernelOf node) w := by
  set w₁ := afterPolicyPass std podFields node (kernelOf node) w
  have hstamped : ∀ d ∈ w₁.cluster.kiveData.items, Stamped d := by
    obtain ⟨w₀, actions, hw₀, rfl⟩ := hw
    exact stamped_policyReconcile hend (System.stamped_run hw₀ actions).stored
  have hheld : OnlyLoaderHolds (kernelOf node) w₁.cluster.kiveData.items :=
    fun d hd _ => (hstamped d hd).finalizers
  obtain ⟨-, -, -, hhosts, -⟩ := iterate_dataRun_items std node hf hheld m
  have hitems := iterate_dataRun_of_stable std node hf hheld hstable
  set w' := (dataRun std podFields node (kernelOf node))^[m] w₁
  have hstamped' : ∀ y ∈ w'.cluster.kiveData.items, Stamped y := by
    intro y hy
    rw [hitems] at hy
    obtain ⟨d, hd, hy⟩ := List.mem_filterMap.mp hy
    unfold destiny at hy
    split_ifs at hy
    · exact Option.some.inj hy ▸ stamped_addFinalizer (hstamped d hd)
    · exact Option.some.inj hy ▸ hstamped d hd
  -- what is left is what was to stay after the policy pass, with the finalizer
  have hleft : (∀ y ∈ w'.cluster.kiveData.items, OfKernel (kernelOf node) y →
      PointsAt w'.hosts y) ↔ ∀ d, Wanted std (kernelOf node) w₁ d → PointsAt w₁.hosts d := by
    rw [hitems, hhosts]
    constructor
    · intro h d hd
      obtain ⟨hy, hof⟩ := mem_filterMap_destiny.mpr ⟨d, hd, rfl⟩
      exact pointsAt_addFinalizer_iff.mp (h _ hy hof)
    · intro h y hy hof
      obtain ⟨d, hd, rfl⟩ := mem_filterMap_destiny.mp ⟨hy, hof⟩
      exact pointsAt_addFinalizer_iff.mpr (h d hd)
  refine Iff.trans ?_ (hleft.trans (pointsAt_policyReconcile_iff hplaced hend))
  exact ⟨fun h => h.current, fun h => ⟨h, subsingleton_of_pointsAt hstamped' h⟩⟩

/-! ## A file that is replaced -/

namespace StaleFiles

open TrapRecords (trap policy pod std)

/-- The node of the example, with another file at `/data`. -/
def replacedHost : Host :=
  { TrapRecords.host with
    fs :=
      { TrapRecords.host.fs with
        entry := fun e => if e = 0 then some ⟨2049, 8⟩ else none
        free_unused := FileSystem.unused_of_no_free _ } }

def traps : List KiveTrap := [trap "/data" "http://one"]

/-- The cluster with one trap, the caches being current. -/
def world : World :=
  { TrapRecords.world traps with
    kernels := fun _ => { cachedKivePolicies := [policy traps] } }

/-- No KiveData, no passes, no caches. -/
lemma fresh_world : world.Fresh := ⟨rfl, fun _ => rfl, fun _ => rfl, fun _ => rfl⟩

/-- A policy pass, and then the file is replaced. -/
def actions : List Action :=
  .start ("node", .kivePolicy) :: List.replicate 7 (.call ("node", .kivePolicy) none) ++
    [.changeHost "node" replacedHost]

/-- The world after that. -/
def replaced : World :=
  (System.run std .standard (fun _ => "k1") actions (.ofWorld world)).world

/-- The world after another policy pass and a data pass. -/
def settled : World :=
  (dataRun std .standard "node" "k1")^[1] (afterPolicyPass std .standard "node" "k1" replaced)

/-- The passes before lead there. -/
lemma reached_replaced : replaced.Reached std .standard fun _ => "k1" :=
  ⟨world, actions, fresh_world, rfl⟩

/-- The pod is still there. -/
lemma pods_replaced : replaced.cluster.pods = [pod] := by decide +kernel

/-- It is running, and its container is ready. -/
lemma selectedReady_replaced : SelectedReady std replaced := by
  rintro p - - t - ⟨q, c⟩ hx -
  rw [pods_replaced] at hx
  obtain ⟨hq, hc⟩ := mem_containersOf.mp hx
  obtain rfl := List.mem_singleton.mp hq
  obtain rfl := List.mem_singleton.mp hc
  exact ⟨rfl, rfl⟩

/-- It is on the node. -/
lemma placed_replaced : Placed "node" replaced := by
  rintro ⟨q, c⟩ hx - - -
  rw [pods_replaced] at hx
  obtain rfl := List.mem_singleton.mp (mem_containersOf.mp hx).1
  rfl

/-- The next policy pass comes to its end. -/
lemma reachesEnd_replaced : ReachesEnd std .standard "node" "k1" replaced := by
  unfold ReachesEnd
  decide +kernel

/-- Another data pass changes nothing. -/
lemma stable_settled :
    (dataRun std .standard "node" "k1" settled).cluster.kiveData.items =
      settled.cluster.kiveData.items := by decide +kernel

end StaleFiles

open StaleFiles TrapRecords in
/-- The state in which a file has been replaced after a policy pass. -/
theorem pointsAtFiles_replaced :
    PointsAtFiles std "k1" settled ↔ NoneStale std .standard "node" "k1" replaced := by
  have hstable := stable_settled
  unfold settled at hstable ⊢
  exact pointsAtFiles_iff std PodFields.standard_standard reached_replaced "node"
    placed_replaced reachesEnd_replaced 1 hstable

open StaleFiles TrapRecords in
/-- A policy pass has found the file with inode 7 at `/data`, another file with inode 8 has taken
its place, and a second policy pass and the data pass after it have come to their ends.  Two
KiveData are left for the trap and the container, and the first has inode 7. -/
theorem pointsAtFiles_counterexample :
    replaced.Reached std .standard (fun _ => "k1") ∧ SelectedReady std replaced ∧
      Placed "node" replaced ∧ ReachesEnd std .standard "node" "k1" replaced ∧
      (dataRun std .standard "node" "k1" settled).cluster.kiveData.items =
        settled.cluster.kiveData.items ∧
      ¬ PointsAtFiles std "k1" settled := by
  refine ⟨reached_replaced, selectedReady_replaced, placed_replaced, reachesEnd_replaced,
    stable_settled, ?_⟩
  intro h
  -- the two KiveData have different inodes, and both record the trap and the container
  obtain ⟨hinodes, hall⟩ :
      settled.cluster.kiveData.items.map (fun d => d.spec.inodeNo) = [7, 8] ∧
      ∀ d ∈ settled.cluster.kiveData.items, OfKernel "k1" d ∧
        IsTrapOf std d (trap "/data" "http://one") ∧
        d.objectMeta.annotations.get "path" = "/data" ∧
        pod.nodeName = d.objectMeta.annotations.get "node-name" ∧
        kiveDataContainerCmp d pod ⟨"main", "containerd://aa", true⟩ = true := by
    decide +kernel
  have hone := h.unique (trap "/data" "http://one") pod ⟨"main", "containerd://aa", true⟩
  generalize settled.cluster.kiveData.items = items at hinodes hall hone
  have hsame : ∀ d ∈ items, ∀ d' ∈ items, d = d' := by
    intro d hd d' hd'
    obtain ⟨hof, htrap, hpath, hnode, hcmp⟩ := hall d hd
    obtain ⟨hof', htrap', hpath', hnode', hcmp'⟩ := hall d' hd'
    exact hone ⟨hd, hof, ⟨htrap, hpath⟩, hnode, hcmp⟩
      ⟨hd', hof', ⟨htrap', hpath'⟩, hnode', hcmp'⟩
  obtain ⟨d, rest, hitems, hseven, hrest⟩ := List.map_eq_cons_iff.mp hinodes
  obtain ⟨d', rest', hrest', height, -⟩ := List.map_eq_cons_iff.mp hrest
  have heq : d = d' := hsame d (by simp [hitems]) d' (by simp [hitems, hrest'])
  rw [heq, height] at hseven
  exact absurd hseven (by decide)

end Kive
