import KiveOperator.Cluster.World
import KiveOperator.Controller.PolicyLog
import KiveOperator.Controller.Selection

/-!
# The containers that a policy pass searches

`askedSites` are the sites for which the loop of a policy pass looks for files, policy by policy and
trap by trap, and `searchAll` is what looking there one after the other finds.  `asks_policyLoop`
says that a loop that runs to its end looks there, and when it runs to its end;
`foundBy_policyLoop` says what it finds.
-/

namespace Kive

open Interaction

/-! ## The sites -/

section Sites

variable (std : Std) (podFields : PodFields)

/-- The pods that are listed for a match group: none if the request fails. -/
def listedPods (g : KiveTrapMatch) (pods : List Pod) : List Pod :=
  (listPods podFields g.matchLabels (KivePolicyReconciler.matchingFields g) pods).toOption.getD []

/-- The containers that a pass handles for a trap. -/
def askedContainers (pods : List Pod) (t : KiveTrap) : List (Pod × ContainerStatus) :=
  (handled (t.matchAny.flatMap fun g => named std g (listedPods podFields g pods)) []).1

/-- The sites for which a pass looks for files on behalf of a policy. -/
def policySites (pods : List Pod) (p : KivePolicy) : List Site :=
  p.spec.traps.flatMap fun t =>
    (askedContainers std podFields pods t).map fun x => ⟨p, t, x.1, x.2⟩

/-- The sites for which a pass looks for files. -/
def askedSites (w : World) : List Site :=
  w.cluster.kivePolicies.items.flatMap fun p =>
    if Deleting p then [] else policySites std podFields w.cluster.pods p

/-- The container of a pod, when the pod runs and the container is ready. -/
def Ready (x : Pod × ContainerStatus) : Prop :=
  x.1.phase = .running ∧ x.2.ready = true

/-- All containers that are looked at for the match groups of a trap are ready. -/
def ListedReady (pods : List Pod) (t : KiveTrap) : Prop :=
  ∀ g ∈ t.matchAny, ∀ x ∈ named std g (listedPods podFields g pods), Ready x

variable {std podFields}

/-- With the field labels that a match group uses taken as what they are called, the pods for which
its fields hold are listed. -/
lemma listedPods_eq (hf : podFields.Standard) {g : KiveTrapMatch}
    (hip : g.ip ≠ "" → podFields.KnowsIP) (pods : List Pod) :
    listedPods podFields g pods = podsOf g pods := by
  rw [listedPods, listPods_matchingFields hf hip]
  rfl

/-- Only pods that there are are listed. -/
lemma mem_of_listedPods {g : KiveTrapMatch} {pods : List Pod} {pod : Pod}
    (h : pod ∈ listedPods podFields g pods) : pod ∈ pods := by
  rw [listedPods] at h
  cases hlist : listPods podFields g.matchLabels (KivePolicyReconciler.matchingFields g) pods with
  | error err =>
    rw [hlist] at h
    cases h
  | ok ps =>
    rw [hlist] at h
    exact mem_of_listPods hlist h

/-- A site that is asked for is one of a trap of a policy that is not being deleted. -/
lemma mem_askedSites {w : World} {site : Site} : site ∈ askedSites std podFields w ↔
    site.policy ∈ w.cluster.kivePolicies.items ∧ ¬ Deleting site.policy ∧
      site.trap ∈ site.policy.spec.traps ∧
      (site.pod, site.container) ∈
        askedContainers std podFields w.cluster.pods site.trap := by
  constructor
  · intro h
    obtain ⟨p, hp, hsite⟩ := List.mem_flatMap.mp h
    split_ifs at hsite with hdel
    · cases hsite
    · obtain ⟨t, ht, hsite⟩ := List.mem_flatMap.mp hsite
      obtain ⟨x, hx, rfl⟩ := List.mem_map.mp hsite
      exact ⟨hp, hdel, ht, hx⟩
  · rintro ⟨hp, hdel, ht, hx⟩
    refine List.mem_flatMap.mpr ⟨site.policy, hp, ?_⟩
    rw [if_neg hdel]
    exact List.mem_flatMap.mpr ⟨site.trap, ht, List.mem_map.mpr ⟨_, hx, rfl⟩⟩

/-- The containers that are asked for are those of pods that there are. -/
lemma mem_containersOf_of_askedSites {w : World} {site : Site}
    (h : site ∈ askedSites std podFields w) :
    (site.pod, site.container) ∈ containersOf w.cluster.pods := by
  obtain ⟨-, -, -, hmem⟩ := mem_askedSites.mp h
  obtain ⟨g, -, hx⟩ := List.mem_flatMap.mp (of_mem_handled hmem).1
  obtain ⟨hpod, hc⟩ := mem_containersOf.mp (mem_named.mp hx).1
  exact mem_containersOf.mpr ⟨mem_of_listedPods hpod, hc⟩

end Sites

/-! ## The calls of a pass -/

/-- The sites for which a file was looked for. -/
def sitesCalled (events : List (Sigma Call.Answer)) : List Site :=
  events.filterMap fun e => match e.1 with
    | .getContainerData site => some site
    | _ => none

/-- The sites of two stretches of calls. -/
@[simp] lemma sitesCalled_append (l l' : List (Sigma Call.Answer)) :
    sitesCalled (l ++ l') = sitesCalled l ++ sitesCalled l' :=
  List.filterMap_append

/-- A ready container does not put the pass off. -/
lemma returns_getContainerData {c : ContainerStatus} (hready : c.ready = true) (t : KiveTrap) :
    (getContainerData c t).Returns fun r => ∀ cd, r = .ok cd → cd.shouldRequeue = false := by
  have hfind : ∀ id l, (Containerd.findContainer id t l).Returns
      fun r => ∀ cd, r = .ok cd → cd.shouldRequeue = false := by
    intro id l
    induction l with
    | nil => simp [Containerd.findContainer, Prog.Returns]
    | cons x l ih =>
      unfold Containerd.findContainer
      split_ifs with hx
      · intro answer
        cases answer with
        | error err => exact fun cd h => absurd h (by simp)
        | ok pid =>
          change Prog.Returns _ (getInodeDev pid t.path t.create t.mode >>= _)
          refine Prog.Returns.bind (Prog.returns_of_forall (Q := fun _ => True)
            (fun _ => trivial) (getInodeDev pid t.path t.create t.mode)) fun answer _ => ?_
          cases answer with
          | error err => exact fun cd h => absurd h (by simp)
          | ok p => rintro cd ⟨⟩; rfl
      · exact ih
  have hquery : ∀ id, (queryRuntime c id t).Returns
      fun r => ∀ cd, r = .ok cd → cd.shouldRequeue = false := by
    intro id
    refine Prog.Returns.bind (Q := fun r => ∀ cd, r = .ok cd → cd.shouldRequeue = false) ?_ ?_
    · intro answer
      cases answer with
      | error err => exact fun cd h => absurd h (by simp)
      | ok containers => exact hfind id containers
    · intro answer hanswer
      cases answer with
      | error err => rintro cd ⟨⟩; rfl
      | ok cd => rintro cd' ⟨⟩; exact hanswer cd rfl
  unfold getContainerData
  rw [hready]
  cases splitContainerRuntimeID c.containerID with
  | error err => exact fun cd h => absurd h (by simp)
  | ok parts =>
    simp only [Bool.not_true, Bool.false_eq_true, if_false]
    split_ifs with hsupported
    · exact fun cd h => absurd h (by simp)
    · intro connected
      cases connected with
      | true => exact hquery parts.2
      | false =>
        intro answer
        cases answer with
        | error err => exact fun cd h => absurd h (by simp)
        | ok u => exact hquery parts.2

section Calls

variable (std : Std) (podFields : PodFields) (node kernelID : String)

/-- The part `p` of a pass is given the strings remembered so far and returns them with its own.  If
it runs to its end it asks for the files of the containers `l` that are not remembered, and under
the condition `R` it runs to its end. -/
def Covers (site : Pod × ContainerStatus → Site) (pods : List Pod) (R : Prop)
    (p : List String → Pass (List String)) (l : List (Pod × ContainerStatus)) : Prop :=
  ∀ matched w, w.cluster.pods = pods →
    (R → ∃ m, (Prog.runE (handle std podFields node kernelID) (p matched) w).1 = .ok m) ∧
    ∀ m, (Prog.runE (handle std podFields node kernelID) (p matched) w).1 = .ok m →
      m = (handled l matched).2 ∧
      sitesCalled (Prog.eventsE (handle std podFields node kernelID) (p matched) w) =
        (handled l matched).1.map site

variable {std podFields node kernelID} {site : Pod × ContainerStatus → Site} {pods : List Pod}
  {R R' : Prop} {p q : List String → Pass (List String)} {l l' : List (Pod × ContainerStatus)}

/-- A part that does nothing. -/
lemma covers_pure : Covers std podFields node kernelID site pods R (fun m => pure m) [] :=
  fun matched _ _ => ⟨fun _ => ⟨matched, rfl⟩, fun _ hm => ⟨(Except.ok.inj hm).symm, rfl⟩⟩

/-- Under a stronger condition it runs to its end, too. -/
lemma Covers.of_imp (h : Covers std podFields node kernelID site pods R p l) (hR : R' → R) :
    Covers std podFields node kernelID site pods R' p l :=
  fun matched w hw => ⟨fun hr => (h matched w hw).1 (hR hr), (h matched w hw).2⟩

/-- One part after the other. -/
lemma Covers.bind (hp : Covers std podFields node kernelID site pods R p l)
    (hq : Covers std podFields node kernelID site pods R' q l') :
    Covers std podFields node kernelID site pods (R ∧ R') (fun m => p m >>= q) (l ++ l') := by
  intro matched w hw
  obtain ⟨hends, hasks⟩ := hp matched w hw
  have hpods := (pods_run std podFields node kernelID (p matched).run w).trans hw
  cases hr : Prog.runE (handle std podFields node kernelID) (p matched) w with
  | mk answer w' =>
    change (Prog.runE (handle std podFields node kernelID) (p matched) w).2.cluster.pods = pods
      at hpods
    rw [hr] at hends hasks hpods
    rw [Prog.runE_bind, hr]
    cases answer with
    | error o =>
      refine ⟨fun hR => ?_, fun _ hm => absurd hm (by simp)⟩
      obtain ⟨m, hm⟩ := hends hR.1
      cases hm
    | ok m =>
      obtain ⟨rfl, hsites⟩ := hasks m rfl
      obtain ⟨hends', hasks'⟩ := hq (handled l matched).2 w' hpods
      refine ⟨fun hR => hends' hR.2, fun m' hm' => ?_⟩
      obtain ⟨rfl, hsites'⟩ := hasks' m' hm'
      refine ⟨by rw [handled_append], ?_⟩
      rw [Prog.eventsE_bind_of_ok _ hr, sitesCalled_append, hsites, hsites', handled_append,
        List.map_append]

variable {kivePolicy : KivePolicy} {kiveTrap : KiveTrap} {trapID : String} {g : KiveTrapMatch}

/-- The body of the loop over the containers of a pod. -/
lemma covers_containerStep (pod : Pod) (c : ContainerStatus) :
    Covers std podFields node kernelID (fun x => ⟨kivePolicy, kiveTrap, x.1, x.2⟩) pods
      (regexMatch std g.containerName c.name = .ok true → Ready (pod, c))
      (KivePolicyReconciler.containerStep std kernelID kivePolicy kiveTrap trapID g pod c)
      ([(pod, c)].filter fun x =>
        (regexMatch std g.containerName x.2.name).toOption == some true) := by
  intro matched w hw
  unfold KivePolicyReconciler.containerStep
  cases hmatch : regexMatch std g.containerName c.name with
  | error err =>
    refine ⟨fun _ => ⟨matched, rfl⟩, fun m hm => ?_⟩
    obtain rfl := Except.ok.inj hm
    simp [hmatch, Except.toOption, handled, sitesCalled]
  | ok b =>
    cases b with
    | false =>
      refine ⟨fun _ => ⟨matched, rfl⟩, fun m hm => ?_⟩
      obtain rfl := Except.ok.inj hm
      simp [hmatch, Except.toOption, handled, sitesCalled]
    | true =>
      have hfilter : ([(pod, c)].filter fun x =>
          (regexMatch std g.containerName x.2.name).toOption == some true) = [(pod, c)] := by
        simp [hmatch, Except.toOption]
      rw [hfilter]
      dsimp only
      by_cases hphase : pod.phase = .running
      · rw [if_neg (not_not.mpr hphase)]
        by_cases hmem : KivePolicyReconciler.matchID pod c ∈ matched
        · rw [if_pos hmem]
          refine ⟨fun _ => ⟨matched, rfl⟩, fun m hm => ?_⟩
          obtain rfl := Except.ok.inj hm
          simp [hmem, handled, sitesCalled]
        · rw [if_neg hmem]
          have hanswer : Ready (pod, c) → ∀ cd,
              ((getContainerData c kiveTrap).run Host.handle (w.hosts node)).1 = .ok cd →
                cd.shouldRequeue = false := fun hready =>
            (returns_getContainerData hready.2 kiveTrap).run Host.handle (w.hosts node)
          simp only [hmem, if_false, handled, Prog.runE_bind, Prog.runE_lift, Prog.continueE_ok,
            Prog.eventsE_lift_bind, Container.getContainerData, Prog.run_perform,
            Prog.events_perform, handle, sitesCalled_append]
          cases hr : ((getContainerData c kiveTrap).run Host.handle (w.hosts node)).1 with
          | error err => exact ⟨fun _ => ⟨_, rfl⟩, fun m hm => ⟨(Except.ok.inj hm).symm, rfl⟩⟩
          | ok cd =>
            dsimp only
            cases hrequeue : cd.shouldRequeue with
            | true =>
              rw [if_pos rfl]
              refine ⟨fun hready => ?_, fun _ hm => by cases hm⟩
              rw [hanswer (hready trivial) cd hr] at hrequeue
              cases hrequeue
            | false =>
              rw [if_neg (by simp)]
              cases cd.isFound with
              | false => exact ⟨fun _ => ⟨_, rfl⟩, fun m hm => ⟨(Except.ok.inj hm).symm, rfl⟩⟩
              | true => exact ⟨fun _ => ⟨_, rfl⟩, fun m hm => ⟨(Except.ok.inj hm).symm, rfl⟩⟩
      · rw [if_pos hphase]
        exact ⟨fun hready => absurd (hready rfl).1 hphase, fun _ hm => by cases hm⟩

/-- The loop over the containers of a pod. -/
lemma covers_containerLoop (pod : Pod) (cs : List ContainerStatus) :
    Covers std podFields node kernelID (fun x => ⟨kivePolicy, kiveTrap, x.1, x.2⟩) pods
      (∀ c ∈ cs, regexMatch std g.containerName c.name = .ok true → Ready (pod, c))
      (KivePolicyReconciler.containerLoop std kernelID kivePolicy kiveTrap trapID g pod cs)
      ((cs.map fun c => (pod, c)).filter fun x =>
        (regexMatch std g.containerName x.2.name).toOption == some true) := by
  induction cs with
  | nil => exact covers_pure
  | cons c cs ih =>
    rw [List.map_cons, show (pod, c) :: cs.map (fun c => (pod, c)) =
      [(pod, c)] ++ cs.map (fun c => (pod, c)) from rfl, List.filter_append]
    exact ((covers_containerStep pod c).bind ih).of_imp List.forall_mem_cons.mp

/-- The loop over the pods of a match group. -/
lemma covers_podLoop (ps : List Pod) :
    Covers std podFields node kernelID (fun x => ⟨kivePolicy, kiveTrap, x.1, x.2⟩) pods
      (∀ x ∈ named std g ps, Ready x)
      (KivePolicyReconciler.podLoop std kernelID kivePolicy kiveTrap trapID g ps)
      (named std g ps) := by
  induction ps with
  | nil => exact covers_pure
  | cons pod ps ih =>
    have hsplit : named std g (pod :: ps) =
        ((pod.containerStatuses.map fun c => (pod, c)).filter fun x =>
          (regexMatch std g.containerName x.2.name).toOption == some true) ++ named std g ps := by
      rw [named, containersOf, List.flatMap_cons, List.filter_append]
      rfl
    rw [hsplit]
    refine ((covers_containerLoop pod pod.containerStatuses).bind ih).of_imp fun hready => ?_
    refine ⟨fun c hc hmatch => hready (pod, c) ?_, fun x hx => hready x ?_⟩
    · rw [← hsplit]
      exact mem_named.mpr ⟨mem_containersOf.mpr ⟨List.mem_cons_self, hc⟩, hmatch⟩
    · exact List.mem_append_right _ hx

/-- The loop over the match groups of a trap. -/
lemma covers_matchLoop (groups : List KiveTrapMatch) :
    Covers std podFields node kernelID (fun x => ⟨kivePolicy, kiveTrap, x.1, x.2⟩) pods
      (∀ g ∈ groups, ∀ x ∈ named std g (listedPods podFields g pods), Ready x)
      (KivePolicyReconciler.matchLoop std kernelID kivePolicy kiveTrap trapID groups)
      (groups.flatMap fun g => named std g (listedPods podFields g pods)) := by
  induction groups with
  | nil => exact covers_pure
  | cons g groups ih =>
    have hcovers : Covers std podFields node kernelID
        (fun x => ⟨kivePolicy, kiveTrap, x.1, x.2⟩) pods
        (∀ g' ∈ g :: groups, ∀ x ∈ named std g' (listedPods podFields g' pods), Ready x)
        (fun matched => KivePolicyReconciler.podLoop std kernelID kivePolicy kiveTrap trapID g
          (listedPods podFields g pods) matched >>=
            KivePolicyReconciler.matchLoop std kernelID kivePolicy kiveTrap trapID groups)
        ((g :: groups).flatMap fun g' => named std g' (listedPods podFields g' pods)) :=
      ((covers_podLoop (listedPods podFields g pods)).bind ih).of_imp List.forall_mem_cons.mp
    intro matched w hw
    have hrest := hcovers matched w hw
    have hlist : handle std podFields node kernelID
        (.listPods g.matchLabels (KivePolicyReconciler.matchingFields g)) w =
          (listPods podFields g.matchLabels (KivePolicyReconciler.matchingFields g) pods, w) := by
      simp only [handle, hw]
    rw [KivePolicyReconciler.matchLoop, Prog.runE_bind, Prog.runE_lift, Prog.eventsE_lift_bind,
      Client.listPods, Prog.run_perform, Prog.events_perform, hlist, sitesCalled_append,
      Prog.continueE_ok]
    generalize hps : listedPods podFields g pods = ps at hrest ⊢
    rw [listedPods] at hps
    cases hanswer :
        listPods podFields g.matchLabels (KivePolicyReconciler.matchingFields g) pods with
    | error err =>
      -- the request fails, and the loop goes on with the next group
      rw [hanswer] at hps
      obtain rfl := hps
      exact hrest
    | ok ps' =>
      rw [hanswer] at hps
      obtain rfl := hps
      exact hrest

/-! ## The loops over traps and policies -/

variable (std podFields node kernelID) in
/-- A part of a pass that runs to its end asks for the files of the sites `l`, and it runs to its
end under the condition `R`. -/
def Asks (pods : List Pod) (R : Prop) (p : Pass Unit) (l : List Site) : Prop :=
  ∀ w, w.cluster.pods = pods →
    (R → (Prog.runE (handle std podFields node kernelID) p w).1 = .ok ()) ∧
    ((Prog.runE (handle std podFields node kernelID) p w).1 = .ok () →
      sitesCalled (Prog.eventsE (handle std podFields node kernelID) p w) = l)

/-- A part that does nothing. -/
lemma asks_pure : Asks std podFields node kernelID pods R (pure ()) [] :=
  fun _ _ => ⟨fun _ => rfl, fun _ => rfl⟩

/-- Under a stronger condition it runs to its end, too. -/
lemma Asks.of_imp {p : Pass Unit} {l : List Site}
    (h : Asks std podFields node kernelID pods R p l) (hR : R' → R) :
    Asks std podFields node kernelID pods R' p l :=
  fun w hw => ⟨fun hr => (h w hw).1 (hR hr), (h w hw).2⟩

/-- One part after the other. -/
lemma Asks.bind {p q : Pass Unit} {l l' : List Site}
    (hp : Asks std podFields node kernelID pods R p l)
    (hq : Asks std podFields node kernelID pods R' q l') :
    Asks std podFields node kernelID pods (R ∧ R') (p >>= fun _ => q) (l ++ l') := by
  intro w hw
  obtain ⟨hends, hasks⟩ := hp w hw
  have hpods : (Prog.runE (handle std podFields node kernelID) p w).2.cluster.pods = pods :=
    (pods_run std podFields node kernelID p.run w).trans hw
  cases hr : Prog.runE (handle std podFields node kernelID) p w with
  | mk answer w' =>
    rw [hr] at hends hasks hpods
    rw [Prog.runE_bind, hr]
    cases answer with
    | error o =>
      refine ⟨fun hR => ?_, fun hok => absurd hok (by simp)⟩
      cases hends hR.1
    | ok u =>
      obtain ⟨hends', hasks'⟩ := hq w' hpods
      refine ⟨fun hR => hends' hR.2, fun hok => ?_⟩
      rw [Prog.eventsE_bind_of_ok _ hr, sitesCalled_append, hasks rfl, hasks' hok]

/-- The body of the loop over the traps of a policy. -/
lemma asks_trapStep (p : KivePolicy) (t : KiveTrap) :
    Asks std podFields node kernelID pods (ListedReady std podFields pods t)
      (KivePolicyReconciler.trapStep std kernelID p t)
      ((askedContainers std podFields pods t).map fun x => ⟨p, t, x.1, x.2⟩) := by
  intro w hw
  obtain ⟨hends, hasks⟩ := @covers_matchLoop std podFields node kernelID _ p t
    (trapID std t p.spec.alertVersion) t.matchAny [] w hw
  rw [KivePolicyReconciler.trapStep, kiveTrapHashID_eq]
  dsimp only
  cases hr : Prog.runE (handle std podFields node kernelID) (KivePolicyReconciler.matchLoop std
    kernelID p t (trapID std t p.spec.alertVersion) t.matchAny []) w with
  | mk answer w' =>
    rw [hr] at hends hasks
    rw [Prog.runE_bind, hr]
    cases answer with
    | error o =>
      refine ⟨fun hready => ?_, fun hok => absurd hok (by simp)⟩
      obtain ⟨m, hm⟩ := hends hready
      cases hm
    | ok m =>
      refine ⟨fun _ => rfl, fun _ => ?_⟩
      rw [Prog.eventsE_bind_of_ok _ hr, Prog.eventsE_pure, List.append_nil]
      exact (hasks m rfl).2

/-- The loop over the traps of a policy. -/
lemma asks_trapLoop (p : KivePolicy) (traps : List KiveTrap) :
    Asks std podFields node kernelID pods (∀ t ∈ traps, ListedReady std podFields pods t)
      (KivePolicyReconciler.trapLoop std kernelID p traps)
      (traps.flatMap fun t =>
        (askedContainers std podFields pods t).map fun x => ⟨p, t, x.1, x.2⟩) := by
  induction traps with
  | nil => exact asks_pure
  | cons t traps ih => exact ((asks_trapStep p t).bind ih).of_imp List.forall_mem_cons.mp

/-- A pass that patches finalizers does not go on. -/
lemma runE_patchFinalizers_ne (p q : KivePolicy) (w : World) :
    (Prog.runE (handle std podFields node kernelID)
      (KivePolicyReconciler.patchFinalizers p q) w).1 ≠ .ok () := by
  rw [KivePolicyReconciler.patchFinalizers, Prog.runE_bind, Prog.runE_lift,
    Client.patchKivePolicy, Prog.run_perform, Prog.continueE_ok]
  cases (handle std podFields node kernelID (.patchKivePolicy p q) w).1 <;>
    simp [Pass.exit]

/-- A policy that is not being deleted has its traps handled, any other is passed over. -/
lemma asks_policyStep (p : KivePolicy) :
    Asks std podFields node kernelID pods
      (¬ FinalizerDue kivePolicyFinalizerName p ∧
        (¬ Deleting p → ∀ t ∈ p.spec.traps, ListedReady std podFields pods t))
      (KivePolicyReconciler.policyStep std kernelID p)
      (if Deleting p then [] else policySites std podFields pods p) := by
  by_cases hdue : FinalizerDue kivePolicyFinalizerName p
  · intro w _
    rw [policyStep_of_due hdue]
    exact ⟨fun h => absurd hdue h.1, fun hok => absurd hok (runE_patchFinalizers_ne _ _ w)⟩
  · rw [policyStep_of_not_due hdue]
    split_ifs with hdel
    · exact asks_pure
    · exact (asks_trapLoop p p.spec.traps).of_imp fun h => h.2 hdel

/-- The loop over the policies: it runs to its end when the finalizers are in place and the
containers ready. -/
lemma asks_policyLoop (items : List KivePolicy) :
    Asks std podFields node kernelID pods
      (∀ p ∈ items, ¬ FinalizerDue kivePolicyFinalizerName p ∧
        (¬ Deleting p → ∀ t ∈ p.spec.traps, ListedReady std podFields pods t))
      (KivePolicyReconciler.policyLoop std kernelID items)
      (items.flatMap fun p => if Deleting p then [] else policySites std podFields pods p) := by
  induction items with
  | nil => exact asks_pure
  | cons p items ih => exact ((asks_policyStep p).bind ih).of_imp List.forall_mem_cons.mp

end Calls

/-! ## Searching one container after the other -/

/-- Look for the files of some sites one after the other: those that are found, and the node in the
end. -/
def searchAll : List Site → Host → List (Site × ContainerData) × Host
  | [], h => ([], h)
  | site :: sites, h =>
    let r := (getContainerData site.container site.trap).run Host.handle h
    let rest := searchAll sites r.2
    match r.1 with
    | .ok cd =>
      if !cd.shouldRequeue && cd.isFound then ((site, cd) :: rest.1, rest.2) else rest
    | .error _ => rest

/-- The files that a run finds are those that are found at the sites for which it looks. -/
lemma searchAll_sitesCalled (std : Std) (podFields : PodFields) (node kernelID : String)
    {α : Type} (p : CallProg α) (w : World) :
    searchAll (sitesCalled (p.events (handle std podFields node kernelID) w)) (w.hosts node) =
      (foundBy (p.events (handle std podFields node kernelID) w),
        (p.run (handle std podFields node kernelID) w).2.hosts node) := by
  induction p generalizing w with
  | ret a => rfl
  | call op k ih =>
    rw [Prog.events_call, Prog.run_call]
    cases op with
    | getContainerData site =>
      have hrest := ih (handle std podFields node kernelID (.getContainerData site) w).1
        (handle std podFields node kernelID (.getContainerData site) w).2
      simp only [handle, World.setHost_hosts_self] at hrest ⊢
      simp only [sitesCalled, foundBy, List.filterMap_cons, searchAll] at hrest ⊢
      rw [hrest]
      cases ((getContainerData site.container site.trap).run Host.handle (w.hosts node)).1 with
      | error err => rfl
      | ok cd =>
        dsimp only
        split_ifs <;> rfl
    | listKivePolicies reader => cases reader <;> exact ih _ w
    | listKiveData reader labels => cases reader <;> exact ih _ w
    | _ => exact ih _ _

/-- What is found is found at one of the sites. -/
lemma mem_searchAll {x : Site × ContainerData} {sites : List Site} {h : Host}
    (hx : x ∈ (searchAll sites h).1) : x.1 ∈ sites := by
  induction sites generalizing h with
  | nil => exact absurd hx List.not_mem_nil
  | cons site sites ih =>
    rw [searchAll] at hx
    split at hx
    · split_ifs at hx
      · rcases List.mem_cons.mp hx with rfl | hx
        · exact List.mem_cons_self
        · exact List.mem_cons_of_mem site (ih hx)
      · exact List.mem_cons_of_mem site (ih hx)
    · exact List.mem_cons_of_mem site (ih hx)

/-- A loop that runs to its end finds what is found at the sites that it asks for, and leaves the
node as the search has left it. -/
lemma foundBy_policyLoop {std : Std} {podFields : PodFields} {node kernelID : String} {w : World}
    (hend : (Prog.runE (handle std podFields node kernelID)
      (KivePolicyReconciler.policyLoop std kernelID w.cluster.kivePolicies.items) w).1 = .ok ()) :
    searchAll (askedSites std podFields w) (w.hosts node) =
      (foundBy (Prog.eventsE (handle std podFields node kernelID)
        (KivePolicyReconciler.policyLoop std kernelID w.cluster.kivePolicies.items) w),
      (Prog.runE (handle std podFields node kernelID)
        (KivePolicyReconciler.policyLoop std kernelID
          w.cluster.kivePolicies.items) w).2.hosts node) := by
  have hsites := (@asks_policyLoop std podFields node kernelID _ w.cluster.kivePolicies.items w
    rfl).2 hend
  rw [askedSites, ← hsites]
  exact searchAll_sitesCalled std podFields node kernelID
    (KivePolicyReconciler.policyLoop std kernelID w.cluster.kivePolicies.items).run w

end Kive
