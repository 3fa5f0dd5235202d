import KiveOperator.Container.Search
import KiveOperator.Controller.Selection
import KiveOperator.Correctness.TrapRecords
import KiveOperator.Library.Agreement

/-!
# Which pods a policy depends on

Two clusters differ in the phase and the readiness of pods and containers, and policy passes run
in both.  A policy is treated alike in both, `policies_independent`, when no trap of it or of a
policy listed before it selects a container in which they differ.  The reason is that a pass is
put off as a whole by the first selected container that is not ready.

What stands behind in the list comes too late to matter for this pass; it must not create files,
since a later pass might find them.
-/

namespace Kive

open Interaction KivePolicyReconciler

/-- Two descriptions of one pod that differ in its phase and the readiness of its containers
only. -/
structure SamePod (a b : Pod) : Prop where
  name : b.name = a.name
  namespace_ : b.namespace_ = a.namespace_
  labels : b.labels = a.labels
  nodeName : b.nodeName = a.nodeName
  podIP : b.podIP = a.podIP
  containerStatuses : List.Forall₂ (fun c d : ContainerStatus => d.name = c.name ∧
    d.containerID = c.containerID) a.containerStatuses b.containerStatuses

/-- The containers of the pod that traps of the policy select are ready in both descriptions or
in neither, and so is the pod if there are any. -/
def Undisturbed (std : Std) (p : KivePolicy) (a b : Pod) : Prop :=
  ∀ t ∈ p.spec.traps, ∀ x ∈ a.containerStatuses.zip b.containerStatuses, Selects std t a x.1 →
    (a.phase = .running ↔ b.phase = .running) ∧ x.2.ready = x.1.ready

instance (std : Std) (p : KivePolicy) (a b : Pod) : Decidable (Undisturbed std p a b) :=
  inferInstanceAs (Decidable (∀ t ∈ p.spec.traps, _))

/-- A policy that has no trap with `create` set, or is being deleted. -/
def CreatesNothing (p : KivePolicy) : Prop :=
  ¬ Deleting p → ∀ t ∈ p.spec.traps, t.create = false

/-- The list of policies begins with `front`; the others create nothing, and the policy at `key`
is not among them. -/
def Behind (key : String × String) (front : List KivePolicy) (w : World) : Prop :=
  ∃ back, w.cluster.kivePolicies.items = front ++ back ∧
    ∀ q ∈ back, keyOf q ≠ key ∧ CreatesNothing q

/-- What passes in two clusters that treat the policy at `key` alike keep. -/
structure Parallel (std : Std) (node : String) (key : String × String) (front : List KivePolicy)
    (w₁ w₂ : World) : Prop where
  pods : List.Forall₂ SamePod w₁.cluster.pods w₂.cluster.pods
  undisturbed : ∀ q ∈ front, ¬ Deleting q →
    ∀ x ∈ w₁.cluster.pods.zip w₂.cluster.pods, Undisturbed std q x.1 x.2
  host : (w₁.hosts node).Alike (w₂.hosts node)
  left : Behind key front w₁
  right : Behind key front w₂

/-- The KiveData applied on behalf of the policy at `key`. -/
def appliedOnBehalf (key : String × String) : Sigma Call.Answer → Option KiveData
  | ⟨.applyKiveData site kiveData, _⟩ => if keyOf site.policy = key then some kiveData else none
  | _ => none

section Loops

variable (std : Std) (podFields : PodFields) (node kernelID : String) (key : String × String)

/-- Two parts of a pass agree, as long as the policies listed in front are as they were listed. -/
abbrev Agrees {α : Type} (front : List KivePolicy) (p₁ p₂ : Pass α) : Prop :=
  Prog.Agree (handle std podFields node kernelID) (handle std podFields node kernelID)
    (appliedOnBehalf key) (fun w₁ w₂ => ∃ front', Parallel std node key front' w₁ w₂)
    (Parallel std node key front) (Parallel std node key front) p₁ p₂

variable {std podFields node kernelID key} {front : List KivePolicy} {p : KivePolicy}
  {t : KiveTrap} {g : KiveTrapMatch}

/-- The search for a file. -/
lemma agrees_getContainerData (a b : Pod) (c : ContainerStatus) :
    Agrees std podFields node kernelID key front
      (liftM (Container.getContainerData ⟨p, t, a, c⟩))
      (liftM (Container.getContainerData ⟨p, t, b, c⟩)) := by
  refine Prog.Agree.lift fun w₁ w₂ hR => ?_
  obtain ⟨hanswer, hhost⟩ := hR.host.run_getContainerData c t
  refine ⟨hanswer, ⟨hR.pods, hR.undisturbed, ?_, hR.left, hR.right⟩, rfl⟩
  simpa [Container.getContainerData, handle] using hhost

/-- The apply of the KiveData of a file. -/
lemma agrees_applyKiveData {a b : Pod} (hpod : SamePod a b) (trapID : String)
    (c : ContainerStatus) (cd : ContainerData) (matched : List String) :
    Agrees std podFields node kernelID key front
      (liftM (Client.applyKiveData ⟨p, t, a, c⟩ (newKiveData kernelID trapID ⟨p, t, a, c⟩ cd)) >>=
        fun _ => pure matched)
      (liftM (Client.applyKiveData ⟨p, t, b, c⟩ (newKiveData kernelID trapID ⟨p, t, b, c⟩ cd)) >>=
        fun _ => pure matched) := by
  have hdata : newKiveData kernelID trapID ⟨p, t, b, c⟩ cd =
      newKiveData kernelID trapID ⟨p, t, a, c⟩ cd := by
    simp only [newKiveData, newKiveDataName, hpod.name, hpod.namespace_, hpod.nodeName, hpod.podIP]
  rw [hdata]
  refine Prog.Agree.lift_bind fun w₁ w₂ hR => ⟨?_, ?_, Prog.Agree.pure matched⟩
  · rfl
  · exact ⟨hR.pods, hR.undisturbed, hR.host, hR.left, hR.right⟩

/-- What the loops ask of a container in the two descriptions of its pod. -/
def SameContainer (std : Std) (g : KiveTrapMatch) (a b : Pod) (c d : ContainerStatus) : Prop :=
  d.name = c.name ∧ d.containerID = c.containerID ∧
    (regexMatch std g.containerName c.name = .ok true →
      (a.phase = .running ↔ b.phase = .running) ∧ d.ready = c.ready)

/-- The body of the loop over the containers. -/
lemma agrees_containerStep {a b : Pod} (hpod : SamePod a b) (trapID : String)
    {c d : ContainerStatus} (hsame : SameContainer std g a b c d) (matched : List String) :
    Agrees std podFields node kernelID key front
      (containerStep std kernelID p t trapID g a c matched)
      (containerStep std kernelID p t trapID g b d matched) := by
  obtain ⟨hname, hid, hready⟩ := hsame
  unfold containerStep
  rw [hname]
  cases hmatch : regexMatch std g.containerName c.name with
  | error err => exact Prog.Agree.pure matched
  | ok selected =>
    cases selected with
    | false => exact Prog.Agree.pure matched
    | true =>
      obtain ⟨hphase, hready⟩ := hready hmatch
      obtain rfl : d = c := by
        cases c; cases d
        simp_all
      have hmatchID : matchID b d = matchID a d := by
        rw [matchID, matchID, hpod.name, hpod.namespace_]
      dsimp only
      rw [hmatchID]
      by_cases ha : a.phase = .running
      · have hb := hphase.mp ha
        rw [if_neg (not_not.mpr ha), if_neg (not_not.mpr hb)]
        split_ifs
        · exact Prog.Agree.pure matched
        · refine Prog.Agree.bind (agrees_getContainerData a b d) fun answer => ?_
          cases answer with
          | error err => exact Prog.Agree.pure _
          | ok cd =>
            dsimp only
            split_ifs
            · exact Prog.Agree.exit (fun _ _ hR => ⟨front, hR⟩) _
            · exact Prog.Agree.pure _
            · exact agrees_applyKiveData hpod trapID d cd _
      · have hb : b.phase ≠ .running := fun hb => ha (hphase.mpr hb)
        rw [if_pos ha, if_pos hb]
        exact Prog.Agree.exit (fun _ _ hR => ⟨front, hR⟩) _

/-- The loop over the containers of a pod. -/
lemma agrees_containerLoop {a b : Pod} (hpod : SamePod a b) (trapID : String)
    {cs ds : List ContainerStatus} (hsame : List.Forall₂ (SameContainer std g a b) cs ds)
    (matched : List String) :
    Agrees std podFields node kernelID key front
      (containerLoop std kernelID p t trapID g a cs matched)
      (containerLoop std kernelID p t trapID g b ds matched) := by
  induction hsame generalizing matched with
  | nil => exact Prog.Agree.pure matched
  | cons hcd _ ih => exact (agrees_containerStep hpod trapID hcd matched).bind ih

/-- What the loops ask of a pod. -/
def SameInside (std : Std) (g : KiveTrapMatch) (a b : Pod) : Prop :=
  SamePod a b ∧ List.Forall₂ (SameContainer std g a b) a.containerStatuses b.containerStatuses

/-- The loop over the pods of a match group. -/
lemma agrees_podLoop (trapID : String) {as bs : List Pod}
    (hsame : List.Forall₂ (SameInside std g) as bs) (matched : List String) :
    Agrees std podFields node kernelID key front
      (podLoop std kernelID p t trapID g as matched)
      (podLoop std kernelID p t trapID g bs matched) := by
  induction hsame generalizing matched with
  | nil => exact Prog.Agree.pure matched
  | cons hab _ ih => exact (agrees_containerLoop hab.1 trapID hab.2 matched).bind ih

/-- Two lists that are related element by element, filtered by tests that agree. -/
lemma forall₂_filter {α β : Type} {r : α → β → Prop} {f : α → Bool} {g : β → Bool}
    (hfg : ∀ a b, r a b → f a = g b) {l : List α} {l' : List β} (h : List.Forall₂ r l l') :
    List.Forall₂ (fun a b => r a b ∧ f a = true) (l.filter f) (l'.filter g) := by
  induction h with
  | nil => exact List.Forall₂.nil
  | @cons a b l l' hab _ ih =>
    cases hf : f a with
    | true =>
      rw [List.filter_cons_of_pos hf, List.filter_cons_of_pos ((hfg a b hab).symm.trans hf)]
      exact List.Forall₂.cons ⟨hab, hf⟩ ih
    | false =>
      rw [List.filter_cons_of_neg (by simp [hf]),
        List.filter_cons_of_neg (by simp [← hfg a b hab, hf])]
      exact ih

/-- The pods of a match group, in worlds in which the policies in front are undisturbed. -/
lemma Parallel.sameInside {w₁ w₂ : World} (hR : Parallel std node key front w₁ w₂) (hp : p ∈ front)
    (hd : ¬ Deleting p) (ht : t ∈ p.spec.traps) (hg : g ∈ t.matchAny) :
    List.Forall₂ (SameInside std g) (podsOf g w₁.cluster.pods) (podsOf g w₂.cluster.pods) := by
  have hboth : List.Forall₂ (fun a b => SamePod a b ∧ Undisturbed std p a b)
      w₁.cluster.pods w₂.cluster.pods := by
    refine List.forall₂_iff_zip.mpr ⟨hR.pods.length_eq, fun {a b} hab => ?_⟩
    exact ⟨(List.forall₂_iff_zip.mp hR.pods).2 hab, hR.undisturbed p hp hd (a, b) hab⟩
  have hfields : ∀ a b, SamePod a b ∧ Undisturbed std p a b →
      ((g.podName == "" || a.name == g.podName) &&
        (g.namespace_ == "" || a.namespace_ == g.namespace_) &&
        (g.ip == "" || a.podIP == g.ip) && matchesLabels g.matchLabels a.labels) =
      ((g.podName == "" || b.name == g.podName) &&
        (g.namespace_ == "" || b.namespace_ == g.namespace_) &&
        (g.ip == "" || b.podIP == g.ip) && matchesLabels g.matchLabels b.labels) := by
    rintro a b ⟨hab, -⟩
    rw [hab.name, hab.namespace_, hab.podIP, hab.labels]
  have hfilter := forall₂_filter hfields hboth
  refine hfilter.imp ?_
  rintro a b ⟨⟨hab, hun⟩, hmatch⟩
  have hpod : PodMatches g a := by
    have hmem : a ∈ podsOf g [a] ↔ a ∈ [a] ∧ PodMatches g a := mem_podsOf
    simp only [podsOf, List.filter_cons, hmatch, if_true, List.mem_singleton] at hmem
    exact (hmem.mp (by simp)).2
  refine ⟨hab, List.forall₂_iff_zip.mpr ⟨hab.containerStatuses.length_eq, fun {c d} hcd => ?_⟩⟩
  obtain ⟨hname, hid⟩ := (List.forall₂_iff_zip.mp hab.containerStatuses).2 hcd
  exact ⟨hname, hid, fun hregex => hun t ht (c, d) hcd ⟨g, hg, hpod, hregex⟩⟩

/-- The loop over the match groups of a trap. -/
lemma agrees_matchLoop (hf : podFields.Standard)
    (hip : ∀ f, podFields "metadata.podIP" = some f → f = Pod.podIP) (hp : p ∈ front)
    (hd : ¬ Deleting p) (ht : t ∈ p.spec.traps) (trapID : String) {groups : List KiveTrapMatch}
    (hgroups : ∀ g ∈ groups, g ∈ t.matchAny) (matched : List String) :
    Agrees std podFields node kernelID key front
      (matchLoop std kernelID p t trapID groups matched)
      (matchLoop std kernelID p t trapID groups matched) := by
  induction groups generalizing matched with
  | nil => exact Prog.Agree.pure matched
  | cons g groups ih =>
    refine Prog.Agree.lift_bind fun w₁ w₂ hR => ⟨rfl, hR, ?_⟩
    have hrest := ih fun g' hg' => hgroups g' (List.mem_cons_of_mem g hg')
    have hlist : ∀ w : World, (Prog.run (handle std podFields node kernelID)
        (Client.listPods g.matchLabels (KivePolicyReconciler.matchingFields g)) w).1 =
          listPods podFields g.matchLabels (KivePolicyReconciler.matchingFields g)
            w.cluster.pods := fun _ => rfl
    rw [hlist, hlist]
    rcases listPods_matchingFields_cases hf hip g with hok | ⟨err, herr⟩
    · rw [hok, hok]
      exact (agrees_podLoop trapID (hR.sameInside hp hd ht (hgroups g List.mem_cons_self))
        matched).bind hrest
    · rw [herr, herr]
      exact hrest matched

/-- The loop over the traps of a policy. -/
lemma agrees_trapLoop (hf : podFields.Standard)
    (hip : ∀ f, podFields "metadata.podIP" = some f → f = Pod.podIP) (hp : p ∈ front)
    (hd : ¬ Deleting p) {traps : List KiveTrap} (htraps : ∀ t ∈ traps, t ∈ p.spec.traps) :
    Agrees std podFields node kernelID key front (trapLoop std kernelID p traps)
      (trapLoop std kernelID p traps) := by
  induction traps with
  | nil => exact Prog.Agree.pure ()
  | cons t traps ih =>
    refine Prog.Agree.bind ?_ fun _ => ih fun t' ht' => htraps t' (List.mem_cons_of_mem t ht')
    rw [trapStep, kiveTrapHashID_eq]
    exact (agrees_matchLoop hf hip hp hd (htraps t List.mem_cons_self) _ (fun _ => id) []).bind
      fun _ => Prog.Agree.pure ()

variable (std podFields node kernelID) in
/-- Patching the finalizers of a policy in front succeeds, and the list in front has the patched
one then. -/
lemma Behind.patch {w : World} (h : Behind key front w) (hp : p ∈ front) {p' : KivePolicy}
    (hre : Store.Refinalizes p p')
    (hforb : Deleting p → p'.objectMeta.finalizers ⊆ p.objectMeta.finalizers) :
    (handle std podFields node kernelID (.patchKivePolicy p p') w).1 = .ok () ∧
      Behind key (Store.replace front p (settle p'))
        (handle std podFields node kernelID (.patchKivePolicy p p') w).2 := by
  obtain ⟨back, hitems, hback⟩ := h
  have hmem : p ∈ w.cluster.kivePolicies.items := hitems ▸ List.mem_append_left back hp
  have hnot : p ∉ back := fun hb =>
    List.disjoint_of_nodup_append (hitems ▸ w.cluster.kivePolicies.items_nodup) hp hb
  obtain ⟨hok, hitems'⟩ := Store.patch_of_refinalizes hmem hre hforb
  refine ⟨hok, back, ?_, hback⟩
  rw [hitems, Store.replace_append, Store.replace_of_notMem hnot] at hitems'
  exact hitems'

/-- Patching the finalizers of a policy in front makes no difference to the policies behind it. -/
lemma agrees_patchFinalizers (hp : p ∈ front) {p' : KivePolicy} (hre : Store.Refinalizes p p')
    (hforb : Deleting p → p'.objectMeta.finalizers ⊆ p.objectMeta.finalizers) :
    Agrees std podFields node kernelID key front (patchFinalizers p p') (patchFinalizers p p') := by
  refine Prog.Agree.lift_bind (T := fun w₁ w₂ => ∃ front', Parallel std node key front' w₁ w₂)
    fun w₁ w₂ hR => ?_
  obtain ⟨hok₁, hleft⟩ := hR.left.patch std podFields node kernelID hp hre hforb
  obtain ⟨hok₂, hright⟩ := hR.right.patch std podFields node kernelID hp hre hforb
  refine ⟨rfl, ⟨_, hR.pods, ?_, hR.host, hleft, hright⟩, ?_⟩
  · intro q hq hlive x hx
    rcases Store.mem_of_mem_replace hq with hq | hq
    · exact hR.undisturbed q hq hlive x hx
    · obtain ⟨rfl, -⟩ := settle_eq_some_iff.mp hq
      have hspec : p'.spec = p.spec := (congrArg KivePolicy.spec hre).symm
      have hdel : p'.objectMeta.deletionTimestamp = p.objectMeta.deletionTimestamp :=
        (congrArg (fun q : KivePolicy => q.objectMeta.deletionTimestamp) hre).symm
      intro t ht
      exact hR.undisturbed p hp (fun hd => hlive (hdel.trans hd)) x hx t (hspec ▸ ht)
  · rw [Client.patchKivePolicy, Prog.run_perform, Prog.run_perform, hok₁, hok₂]
    exact Prog.Agree.exit (fun _ _ h => h) _

/-- The body of the loop over the policies. -/
lemma agrees_policyStep (hf : podFields.Standard)
    (hip : ∀ f, podFields "metadata.podIP" = some f → f = Pod.podIP) (hp : p ∈ front) :
    Agrees std podFields node kernelID key front (policyStep std kernelID p)
      (policyStep std kernelID p) := by
  unfold policyStep
  split_ifs with hdel hfin hfin'
  · exact agrees_patchFinalizers hp (Store.refinalizes_removeFinalizer p _)
      fun _ => List.filter_subset_self _
  · exact Prog.Agree.pure ()
  · exact agrees_patchFinalizers hp (Store.refinalizes_addFinalizer (by simpa using hfin'))
      fun hd => absurd hd hdel
  · exact agrees_trapLoop hf hip hp hdel fun _ => id

variable (kernelID key) in
/-- The loop over the policies in front. -/
lemma agrees_policyLoop (hf : podFields.Standard)
    (hip : ∀ f, podFields "metadata.podIP" = some f → f = Pod.podIP) {items : List KivePolicy}
    (hitems : ∀ p ∈ items, p ∈ front) :
    Agrees std podFields node kernelID key front (policyLoop std kernelID items)
      (policyLoop std kernelID items) := by
  induction items with
  | nil => exact Prog.Agree.pure ()
  | cons p items ih =>
    exact (agrees_policyStep hf hip (hitems p List.mem_cons_self)).bind
      fun _ => ih fun q hq => hitems q (List.mem_cons_of_mem p hq)

/-! ## The policies behind -/

/-- What the rest of a pass keeps of the world. -/
structure Stays (node : String) (key : String × String) (front : List KivePolicy)
    (w₀ w : World) : Prop where
  pods : w.cluster.pods = w₀.cluster.pods
  host : (w₀.hosts node).Alike (w.hosts node)
  behind : Behind key front w

/-- A patch of the finalizers of a policy behind. -/
lemma Behind.patch_other {w : World} (h : Behind key front w) {p p' : KivePolicy}
    (hp : ∀ q ∈ front, keyOf q ≠ keyOf p') :
    Behind key front (w.setKivePolicies
      (w.cluster.kivePolicies.patch (keyOf p') (Store.mergeFrom p p')).2) := by
  rcases w.cluster.kivePolicies.patch_cases (keyOf p') (Store.mergeFrom p p') with
    ⟨-, hsame⟩ | ⟨x, -, -, hupdate⟩
  · rw [hsame]
    exact h
  · obtain ⟨back, hitems, hback⟩ := h
    rw [hupdate]
    refine ⟨back.filterMap (Store.editAt (keyOf p') (Store.mergeFrom p p')), ?_, ?_⟩
    · have hfront : ∀ q ∈ front,
          Store.editAt (keyOf p') (Store.mergeFrom p p') q = some q := fun q hq =>
        Store.editAt_eq_some_iff.mpr (Or.inl ⟨hp q hq, rfl⟩)
      change w.cluster.kivePolicies.items.filterMap _ = _
      rw [hitems, List.filterMap_append, List.filterMap_congr hfront, List.filterMap_some]
    · intro y hy
      obtain ⟨q, hq, hedit⟩ := List.mem_filterMap.mp hy
      rcases Store.editAt_eq_some_iff.mp hedit with ⟨-, rfl⟩ | ⟨-, rfl, -⟩
      · exact hback q hq
      · refine ⟨?_, (hback q hq).2⟩
        rw [Edit.keyOf_toFun]
        exact (hback q hq).1

/-- The calls that a pass makes for the policies behind. -/
lemma Stays.call {w₀ w : World} {listed : KivePolicy → Prop}
    (hlisted : ∀ q, listed q → keyOf q ≠ key ∧ CreatesNothing q ∧ ∀ q' ∈ front, keyOf q' ≠ keyOf q)
    {op : Call} (hop : PolicyCall std kernelID listed op) (h : Stays node key front w₀ w) :
    Stays node key front w₀ (handle std podFields node kernelID op w).2 ∧
      appliedOnBehalf key ⟨op, (handle std podFields node kernelID op w).1⟩ = none := by
  have hsame : Stays node key front w₀ w := h
  cases op
  case listKivePolicies reader => cases reader <;> exact ⟨hsame, rfl⟩
  case listKiveData reader labels => cases reader <;> exact ⟨hsame, rfl⟩
  case patchKivePolicy orig modified =>
    obtain ⟨horig, hmod⟩ := hop
    have hkey : keyOf modified = keyOf orig := by
      rcases hmod with ⟨-, rfl⟩ | ⟨-, rfl⟩
      · rfl
      · unfold addFinalizer
        split_ifs <;> rfl
    refine ⟨⟨h.pods, h.host, h.behind.patch_other fun q hq => ?_⟩, rfl⟩
    rw [hkey]
    exact (hlisted orig horig).2.2 q hq
  case patchKiveData orig modified => exact ⟨⟨h.pods, h.host, h.behind⟩, rfl⟩
  case applyKiveData site d =>
    refine ⟨⟨h.pods, h.host, h.behind⟩, if_neg (hlisted _ hop.1.1).1⟩
  case getContainerData site =>
    obtain ⟨hpolicy, hlive, htrap⟩ := hop
    refine ⟨⟨h.pods, ?_, h.behind⟩, rfl⟩
    have hcreate := (hlisted _ hpolicy).2.1 hlive _ htrap
    rw [handle, World.setHost_hosts_self]
    exact h.host.trans (Host.alike_run_getContainerData site.container site.trap hcreate _)
  case now => exact ⟨⟨h.pods, h.host, h.behind⟩, rfl⟩
  case deleteKiveData => exact absurd hop id
  case ebpfLoaded => exact absurd hop id
  case loadEbpf => exact absurd hop id
  case addInode => exact absurd hop id
  case removeInode => exact absurd hop id
  case listPods => exact ⟨hsame, rfl⟩

/-! ## Passes -/

variable (std podFields node kernelID)

/-- The world after one run of the policy reconciler. -/
def policyRun (w : World) : World :=
  ((KivePolicyReconciler.reconcile std kernelID).run (handle std podFields node kernelID) w).2

/-- The calls of `n` runs, one after the other. -/
def policyRunEvents : ℕ → World → List (Sigma Call.Answer)
  | 0, _ => []
  | n + 1, w =>
    (KivePolicyReconciler.reconcile std kernelID).events (handle std podFields node kernelID) w ++
      policyRunEvents n (policyRun std podFields node kernelID w)

/-- The finalizers of the policy at a key, if there is one. -/
def finalizersAt (key : String × String) (w : World) : Option (List String) :=
  (w.cluster.kivePolicies.find? key).map fun p => p.objectMeta.finalizers

variable {std podFields node kernelID}

variable (std podFields node kernelID key) in
/-- A run is its loop over the stored policies, followed by the trigger. -/
lemma run_reconcile (w : World) :
    policyRun std podFields node kernelID w =
      (Prog.runE (handle std podFields node kernelID)
        (policyLoop std kernelID w.cluster.kivePolicies.items >>= fun _ => triggerKiveData) w).2 ∧
    ((KivePolicyReconciler.reconcile std kernelID).events
        (handle std podFields node kernelID) w).filterMap (appliedOnBehalf key) =
      (Prog.eventsE (handle std podFields node kernelID)
        (policyLoop std kernelID w.cluster.kivePolicies.items >>= fun _ => triggerKiveData)
        w).filterMap (appliedOnBehalf key) := by
  constructor
  · rw [policyRun, KivePolicyReconciler.reconcile, Pass.run_toProg, Prog.runE_bind,
      Prog.runE_lift, Client.listKivePolicies, Prog.run_perform, Prog.continueE_ok]
    rfl
  · rw [KivePolicyReconciler.reconcile, Pass.events_toProg, Prog.eventsE_lift_bind,
      Client.listKivePolicies, Prog.events_perform, Prog.run_perform, List.singleton_append,
      List.filterMap_cons_none rfl]
    rfl

variable (std podFields kernelID) in
/-- The part of a pass that is not about the policies in front. -/
lemma rest_of_pass {w₀ : World} {back : List KivePolicy}
    (hback : ∀ q ∈ back, keyOf q ≠ key ∧ CreatesNothing q ∧ ∀ q' ∈ front, keyOf q' ≠ keyOf q)
    {w : World} (h : Stays node key front w₀ w) :
    Stays node key front w₀ (Prog.runE (handle std podFields node kernelID)
        (policyLoop std kernelID back >>= fun _ => triggerKiveData) w).2 ∧
      (Prog.eventsE (handle std podFields node kernelID)
        (policyLoop std kernelID back >>= fun _ => triggerKiveData) w).filterMap
          (appliedOnBehalf key) = [] :=
  Prog.runE_unobserved (fun _ _ hop h => h.call hback hop)
    ((only_policyLoop std kernelID fun _ hq => hq).bindE
      fun _ => only_triggerKiveData std kernelID) h

/-- Pods, policies and hosts being parallel, what passes do to the rest of the world does not
matter. -/
lemma Parallel.of_stays {w₁ w₂ v₁ v₂ : World} (h : Parallel std node key front w₁ w₂)
    (h₁ : Stays node key front w₁ v₁) (h₂ : Stays node key front w₂ v₂) :
    Parallel std node key front v₁ v₂ := by
  refine ⟨?_, ?_, (h₁.host.symm.trans h.host).trans h₂.host, h₁.behind, h₂.behind⟩
  · rw [h₁.pods, h₂.pods]
    exact h.pods
  · rw [h₁.pods, h₂.pods]
    exact h.undisturbed

variable (kernelID) in
/-- A pass in both clusters treats the policy alike. -/
theorem policyRun_parallel (hf : podFields.Standard)
    (hip : ∀ f, podFields "metadata.podIP" = some f → f = Pod.podIP) {w₁ w₂ : World}
    (h : Parallel std node key front w₁ w₂) :
    ((KivePolicyReconciler.reconcile std kernelID).events
        (handle std podFields node kernelID) w₁).filterMap (appliedOnBehalf key) =
      ((KivePolicyReconciler.reconcile std kernelID).events
        (handle std podFields node kernelID) w₂).filterMap (appliedOnBehalf key) ∧
    ∃ front', Parallel std node key front' (policyRun std podFields node kernelID w₁)
      (policyRun std podFields node kernelID w₂) := by
  obtain ⟨back₁, hitems₁, hback₁⟩ := h.left
  obtain ⟨back₂, hitems₂, hback₂⟩ := h.right
  have hbehind : ∀ {w : World} {back : List KivePolicy}, w.cluster.kivePolicies.items =
      front ++ back → (∀ q ∈ back, keyOf q ≠ key ∧ CreatesNothing q) →
      ∀ q ∈ back, keyOf q ≠ key ∧ CreatesNothing q ∧ ∀ q' ∈ front, keyOf q' ≠ keyOf q := by
    intro w back hitems hback q hq
    refine ⟨(hback q hq).1, (hback q hq).2, fun q' hq' heq => ?_⟩
    have hkeys := w.cluster.kivePolicies.keys_nodup
    rw [hitems, List.map_append] at hkeys
    exact List.disjoint_of_nodup_append hkeys (List.mem_map_of_mem hq')
      (heq ▸ List.mem_map_of_mem hq)
  obtain ⟨hrun₁, hevents₁⟩ := run_reconcile std podFields node kernelID key w₁
  obtain ⟨hrun₂, hevents₂⟩ := run_reconcile std podFields node kernelID key w₂
  rw [hrun₁, hrun₂, hevents₁, hevents₂, hitems₁, hitems₂, policyLoop_append, policyLoop_append,
    bind_assoc, bind_assoc]
  obtain ⟨hobs, ⟨u, v₁, v₂, hfront₁, hfront₂, hR⟩ | ⟨o, v₁, v₂, hfront₁, hfront₂, hS⟩⟩ :=
    agrees_policyLoop kernelID key hf hip (fun _ => id) w₁ w₂ h
  · obtain ⟨hstay₁, hnone₁⟩ := rest_of_pass std podFields kernelID
      (hbehind hitems₁ hback₁) (w := v₁) ⟨rfl, Host.Alike.refl _, hR.left⟩
    obtain ⟨hstay₂, hnone₂⟩ := rest_of_pass std podFields kernelID
      (hbehind hitems₂ hback₂) (w := v₂) ⟨rfl, Host.Alike.refl _, hR.right⟩
    rw [Prog.eventsE_bind_of_ok _ hfront₁, Prog.eventsE_bind_of_ok _ hfront₂,
      List.filterMap_append, List.filterMap_append, hobs, hnone₁, hnone₂, Prog.runE_bind,
      Prog.runE_bind, hfront₁, hfront₂]
    exact ⟨rfl, front, hR.of_stays hstay₁ hstay₂⟩
  · rw [Prog.eventsE_bind_of_error _ hfront₁, Prog.eventsE_bind_of_error _ hfront₂, hobs,
      Prog.runE_bind, Prog.runE_bind, hfront₁, hfront₂]
    exact ⟨rfl, hS⟩

/-- The policy of two parallel worlds has the same finalizers. -/
lemma Parallel.finalizersAt {w₁ w₂ : World} (h : Parallel std node key front w₁ w₂) :
    finalizersAt key w₁ = finalizersAt key w₂ := by
  have hfind : ∀ {w : World}, Behind key front w →
      w.cluster.kivePolicies.find? key = front.find? fun x => keyOf x = key := by
    rintro w ⟨back, hitems, hback⟩
    have hnone : back.find? (fun x => keyOf x = key) = none :=
      List.find?_eq_none.mpr fun q hq => by simpa using (hback q hq).1
    rw [Store.find?, hitems, List.find?_append, hnone, Option.or_none]
  rw [Kive.finalizersAt, Kive.finalizersAt, hfind h.left, hfind h.right]

/-- So do any number of passes. -/
lemma policyRuns_parallel (hf : podFields.Standard)
    (hip : ∀ f, podFields "metadata.podIP" = some f → f = Pod.podIP) (n : ℕ) {w₁ w₂ : World}
    (h : ∃ front, Parallel std node key front w₁ w₂) :
    finalizersAt key ((policyRun std podFields node kernelID)^[n] w₁) =
      finalizersAt key ((policyRun std podFields node kernelID)^[n] w₂) ∧
    (policyRunEvents std podFields node kernelID n w₁).filterMap (appliedOnBehalf key) =
      (policyRunEvents std podFields node kernelID n w₂).filterMap (appliedOnBehalf key) := by
  induction n generalizing w₁ w₂ with
  | zero =>
    obtain ⟨front, h⟩ := h
    exact ⟨h.finalizersAt, rfl⟩
  | succ n ih =>
    obtain ⟨front, h⟩ := h
    obtain ⟨hevents, h'⟩ := policyRun_parallel kernelID hf hip h
    obtain ⟨hfin, hrest⟩ := ih h'
    refine ⟨hfin, ?_⟩
    rw [policyRunEvents, policyRunEvents, List.filterMap_append, List.filterMap_append, hevents,
      hrest]

end Loops

/-- Two clusters that differ in the phase and the readiness of pods and containers.  The list of
policies has a front part, with the policy `p`, no trap of which selects a container in which they
differ, and no policy behind it creates files.  Then after any number of policy passes `p` has the
same finalizers in both, and the same KiveData have been applied for it. -/
theorem policies_independent (std : Std) {podFields : PodFields} (node kernelID : String)
    (hf : podFields.Standard)
    (hip : ∀ f, podFields "metadata.podIP" = some f → f = Pod.podIP) (w : World) {pods : List Pod}
    (hpods : List.Forall₂ SamePod w.cluster.pods pods) {front back : List KivePolicy}
    (hitems : w.cluster.kivePolicies.items = front ++ back) {p : KivePolicy} (hp : p ∈ front)
    (hfront : ∀ q ∈ front, ¬ Deleting q → ∀ x ∈ w.cluster.pods.zip pods,
      Undisturbed std q x.1 x.2)
    (hback : ∀ q ∈ back, CreatesNothing q) (n : ℕ) :
    let w' := { w with cluster := { w.cluster with pods := pods } }
    finalizersAt (keyOf p) ((policyRun std podFields node kernelID)^[n] w) =
      finalizersAt (keyOf p) ((policyRun std podFields node kernelID)^[n] w') ∧
    (policyRunEvents std podFields node kernelID n w).filterMap (appliedOnBehalf (keyOf p)) =
      (policyRunEvents std podFields node kernelID n w').filterMap (appliedOnBehalf (keyOf p)) := by
  intro w'
  have hbehind : ∀ q ∈ back, keyOf q ≠ keyOf p ∧ CreatesNothing q := by
    intro q hq
    refine ⟨fun heq => ?_, hback q hq⟩
    have hkeys := w.cluster.kivePolicies.keys_nodup
    rw [hitems, List.map_append] at hkeys
    exact List.disjoint_of_nodup_append hkeys (List.mem_map_of_mem hp)
      (heq ▸ List.mem_map_of_mem hq)
  exact policyRuns_parallel hf hip n ⟨front, hpods, hfront, Host.Alike.refl _,
    ⟨back, hitems, hbehind⟩, ⟨back, hitems, hbehind⟩⟩

/-! ## A pod that has completed -/

namespace PolicyIndependence

def policy (name : String) (traps : List KiveTrap) : KivePolicy where
  objectMeta :=
    { name := name, namespace_ := operatorNamespace, finalizers := [kivePolicyFinalizerName] }
  spec := { alertVersion := "v1", traps := traps }

/-- A policy with a trap in the pod `job`. -/
def onJob : KivePolicy :=
  policy "first" [{ path := "/data", matchAny := [{ podName := "job" }] }]

/-- A policy with a trap in the pod `web`. -/
def onWeb : KivePolicy :=
  policy "third" [{ path := "/data", matchAny := [{ podName := "web" }] }]

/-- A policy without traps. -/
def other : KivePolicy := policy "second" []

/-- A pod with one container. -/
def pod (name id : String) (phase : PodPhase) : Pod where
  name := name
  namespace_ := "default"
  nodeName := "node"
  podIP := "10.0.0.1"
  phase := phase
  containerStatuses := [⟨"main", "containerd://" ++ id, true⟩]

def job (phase : PodPhase) : Pod := pod "job" "aa" phase

def web : Pod := pod "web" "bb" .running

/-- The pods, with the pod `job` in the given phase. -/
def pods (phase : PodPhase) : List Pod := [web, job phase]

/-- The phase aside, the pods are the same. -/
lemma samePods (phase phase' : PodPhase) : List.Forall₂ SamePod (pods phase) (pods phase') := by
  have hcontainer : ∀ c : ContainerStatus, List.Forall₂ (fun c d : ContainerStatus =>
      d.name = c.name ∧ d.containerID = c.containerID) [c] [c] := fun c => .cons ⟨rfl, rfl⟩ .nil
  exact .cons ⟨rfl, rfl, rfl, rfl, rfl, hcontainer _⟩
    (.cons ⟨rfl, rfl, rfl, rfl, rfl, hcontainer _⟩ .nil)

/-- A cluster with the policies in the given order, the one without traps being deleted, on a node
that runs the containers of both pods. -/
def world (policies : List KivePolicy) (phase : PodPhase) : World where
  cluster :=
    { kivePolicies := ((Store.ofList policies).delete (keyOf other)).2
      kiveData := .empty
      pods := pods phase }
  hosts _ := { TrapRecords.host with containers := .ok ["aa", "bb"] }
  kernels _ := {}
  clock := 0

def std : Std := .ofDigests
  [("\x7b\"path\":\"/data\",\"matchAny\":[\x7b\"pod\":\"job\"\x7d]\x7dv1",
    "fc9354cb4705ef47ba3600861719952e31d76195252725f0efa6a91802723cbf"),
   ("\x7b\"path\":\"/data\",\"matchAny\":[\x7b\"pod\":\"web\"\x7d]\x7dv1",
    "1de755c1412eb42afea803cb52d1204b97e429aca1452ada08353a760a2a6b29")]

/-- The policies as they are stored. -/
def stored (policies : List KivePolicy) : List KivePolicy :=
  (world policies .running).cluster.kivePolicies.items

end PolicyIndependence

open PolicyIndependence in
/-- The policy that is being deleted and one with a trap in a pod that runs stand in front: three
passes make the same of the latter whether the pod `job` runs or has completed, and apply a KiveData
for it. -/
theorem policies_independent_in_front :
    let w := world [other, onWeb, onJob] .running
    let w' := { w with cluster := { w.cluster with pods := pods .succeeded } }
    (finalizersAt (keyOf onWeb) ((policyRun std .standard "node" "k1")^[3] w) =
        finalizersAt (keyOf onWeb) ((policyRun std .standard "node" "k1")^[3] w') ∧
      (policyRunEvents std .standard "node" "k1" 3 w).filterMap (appliedOnBehalf (keyOf onWeb)) =
        (policyRunEvents std .standard "node" "k1" 3 w').filterMap
          (appliedOnBehalf (keyOf onWeb))) ∧
    (policyRunEvents std .standard "node" "k1" 3 w).filterMap (appliedOnBehalf (keyOf onWeb)) ≠
      [] := by
  intro w w'
  have hfront : ∀ q ∈ (stored [other, onWeb, onJob]).take 2, ¬ Deleting q →
      ∀ x ∈ (pods .running).zip (pods .succeeded), Undisturbed std q x.1 x.2 := by decide
  have hback : ∀ q ∈ (stored [other, onWeb, onJob]).drop 2, ∀ t ∈ q.spec.traps,
      t.create = false := by decide
  obtain ⟨p, hp, hkey⟩ : ∃ p ∈ (stored [other, onWeb, onJob]).take 2, keyOf p = keyOf onWeb := by
    decide
  refine ⟨?_, by decide +kernel⟩
  rw [← hkey]
  exact policies_independent std "node" "k1" PodFields.standard_standard
    (fun f hf => (Option.some.inj hf).symm) w (samePods .running .succeeded)
    (List.take_append_drop 2 (stored [other, onWeb, onJob])).symm hp hfront
    (fun q hq _ => hback q hq) 3

open PolicyIndependence in
/-- The policy that is being deleted stands behind the one with a trap in the pod `job`.  It has
no trap, yet a pass frees it if the pod runs and leaves it if the pod has completed. -/
theorem policies_independent_counterexample :
    List.Forall₂ SamePod (pods .running) (pods .succeeded) ∧
    (∀ q ∈ stored [onJob, other], keyOf q = keyOf other → q.spec.traps = []) ∧
    finalizersAt (keyOf other) (policyRun std .standard "node" "k1"
      (world [onJob, other] .running)) = none ∧
    finalizersAt (keyOf other) (policyRun std .standard "node" "k1"
      (world [onJob, other] .succeeded)) = some [kivePolicyFinalizerName] :=
  ⟨samePods .running .succeeded, by decide, by decide, by decide⟩

end Kive
