import KiveOperator.Controller.AskedSites

/-!
# Each selected container is handled once

A policy pass in which nothing is put off asks for the file of a trap in the containers that the
trap selects, in each of them once, provided that the strings `matchID` tell these containers
apart.  The string is the pod name, the pod namespace and the container name without anything
in between.
-/

namespace Kive

open Interaction

/-- What identifies a container in the cluster. -/
def containerKey (x : Pod × ContainerStatus) : String × String × String :=
  (x.1.namespace_, x.1.name, x.2.name)

section Once

variable (std : Std) (pods : List Pod) (kiveTrap : KiveTrap)

/-- The containers that a trap selects are those of the list, each there once. -/
def SelectedOnce (l : List (Pod × ContainerStatus)) : Prop :=
  (∀ x, x ∈ l ↔ x ∈ containersOf pods ∧ Selects std kiveTrap x.1 x.2) ∧
    (l.map containerKey).Nodup

/-- The strings of the containers that a trap selects are different. -/
def DistinctMatchIDs : Prop :=
  ∀ x ∈ containersOf pods, ∀ y ∈ containersOf pods, Selects std kiveTrap x.1 x.2 →
    Selects std kiveTrap y.1 y.2 →
    KivePolicyReconciler.matchID x.1 x.2 = KivePolicyReconciler.matchID y.1 y.2 →
    containerKey x = containerKey y

/-- The containers that a pass handles for a trap. -/
def trapContainers : List (Pod × ContainerStatus) :=
  (handled (kiveTrap.matchAny.flatMap fun g => candidates std g pods) []).1

variable {std pods kiveTrap}

/-- The candidates of all groups are the containers that the trap selects. -/
lemma mem_flatMap_candidates {x : Pod × ContainerStatus} :
    x ∈ kiveTrap.matchAny.flatMap (fun g => candidates std g pods) ↔
      x ∈ containersOf pods ∧ Selects std kiveTrap x.1 x.2 := by
  simp only [List.mem_flatMap, mem_candidates, Selects]
  constructor
  · rintro ⟨g, hg, hx, hmatch⟩
    exact ⟨hx, g, hg, hmatch⟩
  · rintro ⟨hx, g, hg, hmatch⟩
    exact ⟨g, hg, hx, hmatch⟩

/-- Pods told apart by namespace and name, with containers told apart by name. -/
lemma containerKey_injOn
    (hpods : (pods.map fun p => (p.namespace_, p.name)).Nodup)
    (hnames : ∀ pod ∈ pods, (pod.containerStatuses.map ContainerStatus.name).Nodup)
    {x y : Pod × ContainerStatus} (hx : x ∈ containersOf pods) (hy : y ∈ containersOf pods)
    (h : containerKey x = containerKey y) : x = y := by
  obtain ⟨pod, c⟩ := x
  obtain ⟨pod', c'⟩ := y
  obtain ⟨hpod, hc⟩ := mem_containersOf.mp hx
  obtain ⟨hpod', hc'⟩ := mem_containersOf.mp hy
  obtain ⟨hns, hname, hcname⟩ : pod.namespace_ = pod'.namespace_ ∧ pod.name = pod'.name ∧
      c.name = c'.name := by simpa [containerKey] using h
  obtain rfl : pod = pod' :=
    List.inj_on_of_nodup_map hpods hpod hpod' (by simp [hns, hname])
  obtain rfl : c = c' := List.inj_on_of_nodup_map (hnames pod hpod) hc hc' hcname
  rfl

/-- The pass handles the selected containers once each exactly when their strings are
different. -/
lemma selectedOnce_trapContainers_iff
    (hpods : (pods.map fun p => (p.namespace_, p.name)).Nodup)
    (hnames : ∀ pod ∈ pods, (pod.containerStatuses.map ContainerStatus.name).Nodup) :
    SelectedOnce std pods kiveTrap (trapContainers std pods kiveTrap) ↔
      DistinctMatchIDs std pods kiveTrap := by
  set l := kiveTrap.matchAny.flatMap fun g => candidates std g pods
  constructor
  · intro honce x hx y hy hxsel hysel hid
    have hxmem : x ∈ trapContainers std pods kiveTrap := (honce.1 x).mpr ⟨hx, hxsel⟩
    have hymem : y ∈ trapContainers std pods kiveTrap := (honce.1 y).mpr ⟨hy, hysel⟩
    rw [List.inj_on_of_nodup_map (nodup_handled l []) hxmem hymem hid]
  · intro hdistinct
    refine ⟨fun x => ⟨fun hx => mem_flatMap_candidates.mp (of_mem_handled hx).1, ?_⟩, ?_⟩
    · rintro ⟨hx, hxsel⟩
      obtain ⟨y, hy, hyx⟩ := exists_mem_handled
        (mem_flatMap_candidates.mpr ⟨hx, hxsel⟩) (List.not_mem_nil (a := _))
      obtain ⟨hy', hysel⟩ := mem_flatMap_candidates.mp (of_mem_handled hy).1
      have hkey := hdistinct y hy' x hx hysel hxsel hyx
      rwa [containerKey_injOn hpods hnames hy' hx hkey] at hy
    · have hnodup := nodup_handled l []
      refine List.Nodup.of_map (fun k => k.2.1 ++ k.1 ++ k.2.2) ?_
      rw [List.map_map]
      exact hnodup

end Once

/-! ## The whole pass -/

section Pass

variable {std : Std} {podFields : PodFields} {node kernelID : String} {pods : List Pod}

/-- All the containers that a trap selects are ready. -/
def AllReady (std : Std) (pods : List Pod) (t : KiveTrap) : Prop :=
  ∀ x ∈ containersOf pods, Selects std t x.1 x.2 → Ready x

/-- Where the API server can answer the requests for the match groups of a trap, a pass handles the
containers that the trap selects. -/
lemma askedContainers_eq (hf : podFields.Standard) {t : KiveTrap}
    (hip : ∀ g ∈ t.matchAny, g.ip ≠ "" → podFields.KnowsIP) :
    askedContainers std podFields pods t = trapContainers std pods t := by
  have hnamed : ∀ g ∈ t.matchAny,
      named std g (listedPods podFields g pods) = candidates std g pods := fun g hg => by
    rw [listedPods_eq hf (hip g hg), candidates]
  rw [askedContainers, trapContainers, List.flatMap_congr hnamed]

/-- The containers that are looked at are ready, when those that the trap selects are. -/
lemma AllReady.listedReady {t : KiveTrap} (h : AllReady std pods t) (hf : podFields.Standard)
    (hip : ∀ g ∈ t.matchAny, g.ip ≠ "" → podFields.KnowsIP) : ListedReady std podFields pods t := by
  intro g hg x hx
  rw [listedPods_eq hf (hip g hg)] at hx
  obtain ⟨hmem, hsel⟩ := mem_flatMap_candidates.mp (List.mem_flatMap.mpr ⟨g, hg, hx⟩)
  exact h x hmem hsel

/-- The last part of a pass looks for no file. -/
lemma sitesCalled_triggerKiveData (w : World) :
    sitesCalled (Prog.eventsE (handle std podFields node kernelID)
      KivePolicyReconciler.triggerKiveData w) = [] := by
  rw [KivePolicyReconciler.triggerKiveData, Prog.eventsE_lift_bind, Client.listKiveData,
    Prog.events_perform, Prog.run_perform]
  simp only [handle]
  cases listKiveData ∅ w.cluster.kiveData.items <;> rfl

/-- A pass whose loop runs to its end looks for the files at the sites that the loop asks for. -/
lemma sitesCalled_reconcile {w : World}
    (hend : (Prog.runE (handle std podFields node kernelID)
      (KivePolicyReconciler.policyLoop std kernelID w.cluster.kivePolicies.items) w).1 = .ok ()) :
    sitesCalled ((KivePolicyReconciler.reconcile std kernelID).events
      (handle std podFields node kernelID) w) = askedSites std podFields w := by
  have hsites := (@asks_policyLoop std podFields node kernelID _ w.cluster.kivePolicies.items w
    rfl).2 hend
  cases hr : Prog.runE (handle std podFields node kernelID)
    (KivePolicyReconciler.policyLoop std kernelID w.cluster.kivePolicies.items) w with
  | mk answer w' =>
    rw [hr] at hend
    obtain rfl : answer = .ok () := hend
    rw [KivePolicyReconciler.reconcile, Pass.events_toProg, Prog.eventsE_lift_bind,
      Client.listKivePolicies, Prog.events_perform, Prog.run_perform, sitesCalled_append]
    simp only [handle]
    rw [Prog.eventsE_bind_of_ok _ hr, sitesCalled_append, sitesCalled_triggerKiveData,
      List.append_nil, hsites]
    rfl

end Pass

/-- In a policy pass in which all requests for pods are answered, no finalizer is due and all
selected containers are ready, the files are looked for trap by trap, and for each trap once in each
container that it selects, if and only if the strings of these containers are different. -/
theorem selectedOnce_iff (std : Std) {podFields : PodFields} (node kernelID : String)
    (hf : podFields.Standard) (w : World)
    (hlists : Answerable podFields w.cluster.kivePolicies.items)
    (hpods : (w.cluster.pods.map fun p => (p.namespace_, p.name)).Nodup)
    (hnames : ∀ pod ∈ w.cluster.pods, (pod.containerStatuses.map ContainerStatus.name).Nodup)
    (hdue : ∀ p ∈ w.cluster.kivePolicies.items, ¬ FinalizerDue kivePolicyFinalizerName p)
    (hready : ∀ p ∈ w.cluster.kivePolicies.items, ¬ Deleting p → ∀ t ∈ p.spec.traps,
      AllReady std w.cluster.pods t) :
    ∃ calls : KiveTrap → List (Pod × ContainerStatus),
      sitesCalled ((KivePolicyReconciler.reconcile std kernelID).events
          (handle std podFields node kernelID) w) =
        (w.cluster.kivePolicies.items.filter fun p => ¬ Deleting p).flatMap (fun p =>
          p.spec.traps.flatMap fun t => (calls t).map fun x => ⟨p, t, x.1, x.2⟩) ∧
      ∀ p ∈ w.cluster.kivePolicies.items, ¬ Deleting p → ∀ t ∈ p.spec.traps,
        (SelectedOnce std w.cluster.pods t (calls t) ↔
          DistinctMatchIDs std w.cluster.pods t) := by
  refine ⟨trapContainers std w.cluster.pods, ?_,
    fun p _ _ t _ => selectedOnce_trapContainers_iff hpods hnames⟩
  have hend := (@asks_policyLoop std podFields node kernelID _ w.cluster.kivePolicies.items w
    rfl).1 fun p hp => ⟨hdue p hp, fun hd t ht =>
      (hready p hp hd t ht).listedReady hf (hlists p hp hd t ht)⟩
  rw [sitesCalled_reconcile hend, askedSites]
  generalize w.cluster.kivePolicies.items = items at hlists
  induction items with
  | nil => rfl
  | cons p items ih =>
    rw [List.flatMap_cons, ih fun q hq => hlists q (List.mem_cons_of_mem p hq)]
    by_cases hd : Deleting p
    · simp [hd]
    · have hsites : policySites std podFields w.cluster.pods p = p.spec.traps.flatMap fun t =>
          (trapContainers std w.cluster.pods t).map fun x => ⟨p, t, x.1, x.2⟩ := by
        refine List.flatMap_congr fun t ht => ?_
        rw [askedContainers_eq hf (hlists p List.mem_cons_self hd t ht)]
      simp [hd, hsites]

/-! ## Two containers with one string -/

namespace SelectionOnce

/-- A trap that selects every container. -/
def trap : KiveTrap := { path := "/data", matchAny := [{}] }

def policy : KivePolicy where
  objectMeta :=
    { name := "policy", namespace_ := operatorNamespace, finalizers := [kivePolicyFinalizerName] }
  spec := { alertVersion := "v1", traps := [trap] }

def pod (name namespace_ : String) : Pod where
  name := name
  namespace_ := namespace_
  nodeName := "node"
  podIP := "10.0.0.1"
  phase := .running
  containerStatuses := [⟨"main", "containerd://aa", true⟩]

/-- A cluster with this policy and the given pods. -/
def world (pods : List Pod) : World where
  cluster :=
    { kivePolicies := .ofList [policy]
      kiveData := .empty
      pods := pods }
  hosts _ := .empty
  kernels _ := {}
  clock := 0

def std : Std := .ofDigests
  [("\x7b\"path\":\"/data\",\"matchAny\":[\x7b\x7d]\x7dv1",
    "e3fd1c40656bb990ddc981e2560887e6171d4db8ef214177d02338736ed5121d")]

/-- The trap selects every container. -/
lemma selects_trap (pod : Pod) (c : ContainerStatus) : Selects std trap pod c :=
  ⟨{}, List.mem_singleton.mpr rfl, ⟨by simp, by simp, by simp, by simp⟩, rfl⟩

/-- Every container is ready. -/
lemma allReady (names : List (String × String)) :
    AllReady std (names.map fun n => pod n.1 n.2) trap := by
  rintro ⟨p, c⟩ hx -
  obtain ⟨hp, hc⟩ := mem_containersOf.mp hx
  obtain ⟨n, -, rfl⟩ := List.mem_map.mp hp
  obtain rfl := List.mem_singleton.mp hc
  exact ⟨rfl, rfl⟩

end SelectionOnce

open SelectionOnce in
/-- A cluster with the pods `web` and `db` in one namespace. -/
theorem selectedOnce_web_db :
    ∃ calls : KiveTrap → List (Pod × ContainerStatus),
      sitesCalled ((KivePolicyReconciler.reconcile std "k1").events
          (handle std .standard "node" "k1") (world [pod "web" "prod", pod "db" "prod"])) =
        ([policy].filter fun p => ¬ Deleting p).flatMap (fun p =>
          p.spec.traps.flatMap fun t => (calls t).map fun x => ⟨p, t, x.1, x.2⟩) ∧
      ∀ p ∈ [policy], ¬ Deleting p → ∀ t ∈ p.spec.traps,
        (SelectedOnce std [pod "web" "prod", pod "db" "prod"] t (calls t) ↔
          DistinctMatchIDs std [pod "web" "prod", pod "db" "prod"] t) :=
  selectedOnce_iff std "node" "k1" PodFields.standard_standard
    (world [pod "web" "prod", pod "db" "prod"])
    (fun _ _ _ _ _ _ _ _ => PodFields.knowsIP_standard) (by decide) (by decide) (by decide)
    (by
      intro p hp _ t ht
      obtain rfl := List.mem_singleton.mp hp
      obtain rfl := List.mem_singleton.mp ht
      exact allReady [("web", "prod"), ("db", "prod")])

open SelectionOnce in
/-- The pod `a` in the namespace `bc` and the pod `ab` in the namespace `c` both have a container
that the trap selects, and the strings of the two are one: the second is never handled. -/
theorem selectedOnce_counterexample :
    ¬ SelectedOnce std [pod "a" "bc", pod "ab" "c"] trap
      ((sitesCalled ((KivePolicyReconciler.reconcile std "k1").events
        (handle std .standard "node" "k1") (world [pod "a" "bc", pod "ab" "c"]))).map
          fun s => (s.pod, s.container)) := by
  rintro ⟨hmem, -⟩
  have hcalled := (hmem (pod "ab" "c", ⟨"main", "containerd://aa", true⟩)).mpr
    ⟨by decide, selects_trap _ _⟩
  exact absurd hcalled (by decide)

end Kive
