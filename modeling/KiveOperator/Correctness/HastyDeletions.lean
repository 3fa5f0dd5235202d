import KiveOperator.Controller.DeleteLog
import KiveOperator.Controller.Selection
import KiveOperator.Controller.Stamped
import KiveOperator.Correctness.TrapRecords

/-!
# Justified KiveData and the deletions of data passes

A data pass deletes a KiveData that no trap and container justify, as its lists of KiveData and of
policies show them, which come from two caches.  A policy pass reads the policies themselves, so
that the KiveData it has applied for a new policy may be in the one cache before the policy is in
the other. `sparesJustified_run` says that no data pass deletes a justified KiveData as long as what
it has read of the KiveData and of the policies with its traps is still so.
-/

namespace Kive

open Interaction Object

/-! ## Whose KiveData it is -/

/-- A trap of the policy has the identifier that a KiveData bears, and selects its container, which
exists. -/
def ClaimedBy (std : Std) (pods : List Pod) (p : KivePolicy) (x : KiveData) : Prop :=
  ∃ t ∈ p.spec.traps, x.objectMeta.labels.get trapIDLabel = trapID std t p.spec.alertVersion ∧
    ∃ pod ∈ pods, pod.nodeName = x.objectMeta.annotations.get "node-name" ∧
      ∃ c ∈ pod.containerStatuses, kiveDataContainerCmp x pod c = true ∧ Selects std t pod c

instance (std : Std) (pods : List Pod) (p : KivePolicy) (x : KiveData) :
    Decidable (ClaimedBy std pods p x) :=
  inferInstanceAs (Decidable (∃ t ∈ p.spec.traps, _))

/-- What claims a KiveData includes its container. -/
lemma ClaimedBy.hasContainer {std : Std} {pods : List Pod} {p : KivePolicy} {x : KiveData}
    (h : ClaimedBy std pods p x) : HasContainer pods x := by
  obtain ⟨t, -, -, pod, hpod, hnode, c, hc, hcmp, -⟩ := h
  exact ⟨pod, hpod, hnode, c, hc, hcmp⟩

/-- The annotations that say which alert version and which container a KiveData is for. -/
def justifyingKeys : List String :=
  ["kive-alert-version", "pod-name", "namespace", "container-name", "container-id", "node-name"]

/-- Two KiveData are for the same trap and the same container. -/
structure SameCause (x d : KiveData) : Prop where
  trapID : x.objectMeta.labels.get trapIDLabel = d.objectMeta.labels.get trapIDLabel
  annotations : ∀ key ∈ justifyingKeys,
    x.objectMeta.annotations.get key = d.objectMeta.annotations.get key

instance (x d : KiveData) : Decidable (SameCause x d) :=
  decidable_of_iff (x.objectMeta.labels.get trapIDLabel = d.objectMeta.labels.get trapIDLabel ∧
      ∀ key ∈ justifyingKeys, x.objectMeta.annotations.get key = d.objectMeta.annotations.get key)
    ⟨fun h => ⟨h.1, h.2⟩, fun h => ⟨h.trapID, h.annotations⟩⟩

/-- KiveData for the same trap and container have the same trap. -/
lemma SameCause.isTrapOf {std : Std} {x d : KiveData} (h : SameCause x d) {t : KiveTrap}
    (ht : IsTrapOf std x t) : IsTrapOf std d t := by
  rw [IsTrapOf, ← h.trapID, ← h.annotations "kive-alert-version" (by decide)]
  exact ht

/-- KiveData for the same trap and container have the same container. -/
lemma SameCause.hasContainer {pods : List Pod} {x d : KiveData} (h : SameCause x d)
    (hx : HasContainer pods x) : HasContainer pods d := by
  obtain ⟨pod, hpod, hnode, c, hc, hcmp⟩ := hx
  rw [kiveDataContainerCmp_iff] at hcmp
  refine ⟨pod, hpod, ?_, c, hc, kiveDataContainerCmp_iff.mpr ?_⟩
  · rw [← h.annotations "node-name" (by decide)]
    exact hnode
  · rw [← h.annotations "pod-name" (by decide), ← h.annotations "namespace" (by decide),
      ← h.annotations "container-name" (by decide), ← h.annotations "container-id" (by decide)]
    exact hcmp

/-! ## Identifiers of known texts -/

section Texts

variable (std : Std) (texts : Set ByteArray)

/-- The texts whose hashes identify the traps of a policy are known ones. -/
def KnownTraps (p : KivePolicy) : Prop :=
  ∀ t ∈ p.spec.traps, trapText t p.spec.alertVersion ∈ texts

/-- A KiveData bears the identifier of a known text under its alert version. -/
def BearsKnown (x : KiveData) : Prop :=
  ∃ t, trapText t (x.objectMeta.annotations.get "kive-alert-version") ∈ texts ∧
    x.objectMeta.labels.get trapIDLabel =
      trapID std t (x.objectMeta.annotations.get "kive-alert-version")

variable {std texts}

/-- The identifier of a trap under the policy's alert version is the one under the KiveData's. -/
lemma BearsKnown.isTrapOf (hstd : NoCollision std texts) {x : KiveData}
    (hx : BearsKnown std texts x) {p : KivePolicy} (hp : KnownTraps texts p) {t : KiveTrap}
    (ht : t ∈ p.spec.traps)
    (hid : x.objectMeta.labels.get trapIDLabel = trapID std t p.spec.alertVersion) :
    IsTrapOf std x t := by
  obtain ⟨t', htext, hid'⟩ := hx
  have hversion := trapID_inj_version hstd (hp t ht) htext (hid.symm.trans hid')
  rw [IsTrapOf, ← hversion]
  exact hid

/-- Edits that keep the labels and the alert version. -/
lemma BearsKnown.edit {d : KiveData} (h : BearsKnown std texts d) {e : Edit KiveData}
    (hlabels : (e.toFun d).objectMeta.labels = d.objectMeta.labels)
    (hann : ∀ key, key ≠ forceReconcile →
      (e.toFun d).objectMeta.annotations.lookup key = d.objectMeta.annotations.lookup key) :
    BearsKnown std texts (e.toFun d) := by
  have hversion : (e.toFun d).objectMeta.annotations.get "kive-alert-version" =
      d.objectMeta.annotations.get "kive-alert-version" :=
    congrArg (Option.getD · "") (hann "kive-alert-version" (by decide))
  rw [BearsKnown, hversion, hlabels]
  exact h

/-- What a policy pass applies. -/
lemma bearsKnown_kiveDataFor (kernelID : String) {site : Site} (cd : ContainerData)
    (hp : KnownTraps texts site.policy) (ht : site.trap ∈ site.policy.spec.traps) :
    BearsKnown std texts (kiveDataFor std kernelID (site, cd)) := by
  have hversion : (kiveDataFor std kernelID (site, cd)).objectMeta.annotations.get
      "kive-alert-version" = site.policy.spec.alertVersion := by
    simp [kiveDataFor, KivePolicyReconciler.newKiveData, StrMap.ofEntries, StrMap.get,
      Finmap.lookup_insert_of_ne]
  have hid : (kiveDataFor std kernelID (site, cd)).objectMeta.labels.get trapIDLabel =
      trapID std site.trap site.policy.spec.alertVersion := by
    simp [kiveDataFor, KivePolicyReconciler.newKiveData, StrMap.ofEntries, StrMap.get,
      trapIDLabel, kernelIDLabel, Finmap.lookup_insert_of_ne]
  refine ⟨site.trap, ?_, ?_⟩
  · rw [hversion]
    exact hp site.trap ht
  · rw [hversion]
    exact hid

/-- An apply sets the alert version and the identifier. -/
lemma get_applyTo_kiveDataFor (std : Std) (kernelID : String) (y : Site × ContainerData)
    (x : KiveData) :
    let config := kiveDataFor std kernelID y
    (applyTo config x).objectMeta.annotations.get "kive-alert-version" =
        config.objectMeta.annotations.get "kive-alert-version" ∧
      (applyTo config x).objectMeta.labels.get trapIDLabel =
        config.objectMeta.labels.get trapIDLabel := by
  obtain ⟨hsets, -, -⟩ := sets_kiveDataFor std kernelID y
  have hlabel : trapIDLabel ∈ (kiveDataFor std kernelID y).objectMeta.labels := by
    simp [kiveDataFor, KivePolicyReconciler.newKiveData, StrMap.ofEntries, Finmap.mem_insert]
  exact ⟨congrArg (Option.getD · "")
      (Finmap.lookup_union_left (hsets "kive-alert-version" (by decide))),
    congrArg (Option.getD · "") (Finmap.lookup_union_left hlabel)⟩

/-- All KiveData of the store after a call of a run whose policies have known traps. -/
lemma bearsKnown_writeKiveData {kernelID : String} {c : Controller}
    {log : List (Sigma Call.Answer)} {op : Call} (hop : PassCall std kernelID c log op)
    (hlisted : c = .kivePolicy → ∀ p, ListsKivePolicy log p → KnownTraps texts p)
    {s : Store KiveData} (hs : ∀ x ∈ s.items, BearsKnown std texts x) :
    ∀ x ∈ (writeKiveData s op).items, BearsKnown std texts x := by
  refine forall_writeKiveData hop (fun e d _ hlabels hann h => h.edit hlabels hann)
    (fun hc site cd hsite _ => ?_) hs
  have hknown : BearsKnown std texts (kiveDataFor std kernelID (site, cd)) :=
    bearsKnown_kiveDataFor kernelID cd (hlisted hc _ hsite.1) hsite.2.2
  refine ⟨fun x _ _ => ?_, fun s => hknown⟩
  obtain ⟨hversion, hid⟩ := get_applyTo_kiveDataFor std kernelID (site, cd) x
  rw [BearsKnown, hversion, hid]
  exact hknown

end Texts

/-- The policies that have been read. -/
def policiesRead (log : List (Sigma Call.Answer)) : List KivePolicy :=
  log.flatMap fun
    | ⟨.listKivePolicies _, .ok items⟩ => items
    | _ => []

/-- The policies that a pass has read. -/
lemma mem_policiesRead {log : List (Sigma Call.Answer)} {p : KivePolicy} :
    p ∈ policiesRead log ↔ ListsKivePolicy log p := by
  rw [policiesRead, List.mem_flatMap]
  constructor
  · rintro ⟨⟨op, answer⟩, hmem, hp⟩
    cases op
    case listKivePolicies reader =>
      cases answer with
      | error err => exact absurd hp List.not_mem_nil
      | ok items => exact ⟨reader, items, hmem, hp⟩
    all_goals exact absurd hp List.not_mem_nil
  · rintro ⟨reader, items, hmem, hp⟩
    exact ⟨_, hmem, hp⟩

instance (log : List (Sigma Call.Answer)) (P : KivePolicy → Prop) [DecidablePred P] :
    Decidable (∃ p, ListsKivePolicy log p ∧ P p) :=
  decidable_of_iff (∃ p ∈ policiesRead log, P p) (by simp [mem_policiesRead])

/-! ## Deletions in the system -/

/-- The pods stay as they are, and no request fails. -/
def Action.Quiet : Action → Prop
  | .call _ fault => fault = none
  | .changePods _ => False
  | _ => True

/-- Users make policies whose traps have known texts. -/
def Action.MakesKnown (texts : Set ByteArray) : Action → Prop
  | .changeKivePolicies policies => ∀ p ∈ policies.items, KnownTraps texts p
  | _ => True

namespace System

/-- A data pass that deletes a KiveData deletes none that a policy claims which is not being
deleted. -/
def SparesJustified (std : Std) (s : System) : Action → Prop
  | .call r _ =>
    match (s.passes r).prog with
    | .call (.deleteKiveData d) _ => r.2 = .kiveData →
      ∀ x ∈ s.world.cluster.kiveData.items, keyOf x = keyOf d →
        ∀ p ∈ s.world.cluster.kivePolicies.items, ¬ Deleting p →
          ¬ ClaimedBy std s.world.cluster.pods p x
    | _ => True
  | _ => True

/-- What a data pass has read about a KiveData that it deletes is still so: the KiveData is for the
same trap and container, and the policies that have its trap are among those that were read. -/
def ReadsCurrent (std : Std) (s : System) : Action → Prop
  | .call r _ =>
    match (s.passes r).prog with
    | .call (.deleteKiveData d) _ => r.2 = .kiveData →
      (∀ x ∈ s.world.cluster.kiveData.items, keyOf x = keyOf d → SameCause x d) ∧
      ∀ p ∈ s.world.cluster.kivePolicies.items, ¬ Deleting p →
        (∃ t ∈ p.spec.traps, IsTrapOf std d t) →
          ∃ q, ListsKivePolicy (s.passes r).log q ∧ ¬ Deleting q ∧ q.spec = p.spec
    | _ => True
  | _ => True

instance (std : Std) (s : System) (a : Action) : Decidable (s.SparesJustified std a) := by
  delta SparesJustified
  induction a using Action.casesOn with
  | call r fault =>
    dsimp only
    generalize (s.passes r).prog = prog
    induction prog using Prog.casesOn with
    | ret o => exact instDecidableTrue
    | call op k =>
      induction op using Call.casesOn
      case deleteKiveData =>
        dsimp only
        infer_instance
      all_goals exact instDecidableTrue
  | _ => exact instDecidableTrue

instance (std : Std) (s : System) (a : Action) : Decidable (s.ReadsCurrent std a) := by
  delta ReadsCurrent
  induction a using Action.casesOn with
  | call r fault =>
    dsimp only
    generalize (s.passes r).prog = prog
    induction prog using Prog.casesOn with
    | ret o => exact instDecidableTrue
    | call op k =>
      induction op using Call.casesOn
      case deleteKiveData =>
        dsimp only
        infer_instance
      all_goals exact instDecidableTrue
  | _ => exact instDecidableTrue

/-- The pods are the given ones, and so were the answers to all list requests for pods. -/
structure PodsStay (podFields : PodFields) (pods : List Pod) (s : System) : Prop where
  same : s.world.cluster.pods = pods
  answers : ∀ r labels fields answer,
    (⟨.listPods labels fields, answer⟩ : Sigma Call.Answer) ∈ (s.passes r).log →
      answer = listPods podFields labels fields pods

/-- All policies and KiveData have identifiers of known texts. -/
structure AllKnown (std : Std) (texts : Set ByteArray) (s : System) : Prop where
  policies : ∀ p ∈ s.world.cluster.kivePolicies.items, KnownTraps texts p
  listed : ∀ node p, ListsKivePolicy (s.passes (node, .kivePolicy)).log p → KnownTraps texts p
  stored : ∀ x ∈ s.world.cluster.kiveData.items, BearsKnown std texts x

section Step

variable {std : Std} {podFields : PodFields} {kernelOf : String → String} {texts : Set ByteArray}
  {pods : List Pod} {s : System}

/-- A data pass that has read what is so deletes no justified KiveData. -/
lemma sparesJustified_of_readsCurrent (hf : podFields.Standard) (hstd : NoCollision std texts)
    (hsearches : s.Searches std) (hpods : s.PodsStay podFields pods) (hknown : s.AllKnown std texts)
    {a : Action} (hreads : s.ReadsCurrent std a) : s.SparesJustified std a := by
  cases a with
  | call r fault =>
    unfold ReadsCurrent at hreads
    unfold SparesJustified
    dsimp only at hreads ⊢
    split
    · next d k hprog =>
      intro hr x hx hkey p hp hlive hclaimed
      rw [hprog] at hreads
      obtain ⟨hsame, hlisted⟩ := hreads hr
      have hcause := hsame x hx hkey
      have hcontainer := hclaimed.hasContainer
      obtain ⟨t, ht, hid, -⟩ := hclaimed
      have htrap : IsTrapOf std d t :=
        hcause.isTrapOf ((hknown.stored x hx).isTrapOf hstd (hknown.policies p hp) ht hid)
      obtain ⟨q, hq, hqlive, hspec⟩ := hlisted p hp hlive ⟨t, ht, htrap⟩
      -- the search for the container of the listed one has been in vain
      obtain ⟨answer, hmem, hnone⟩ :=
        hsearches.call hprog hr q hq hqlive t (hspec ▸ ht) htrap
      obtain rfl := hpods.answers r _ _ answer hmem
      rw [listPods_matchingFields_kiveData hf] at hnone
      have hno := hnone _ rfl
      rw [hpods.same] at hcontainer
      rw [(containerExists_filter_iff d pods).mpr (hcause.hasContainer hcontainer)] at hno
      exact absurd hno (by simp)
    · trivial
  | _ => trivial

/-- A call changes no pods. -/
lemma pods_runnerHandle (r : Runner) (fault : Option Fault) (op : Call) (w : World) :
    (runnerHandle std podFields kernelOf r fault op w).2.cluster.pods = w.cluster.pods := by
  rcases handleFault_cases std podFields r.1 (kernelOf r.1) fault op w with heq | heq
  · rw [runnerHandle, heq]
  · rw [runnerHandle, heq]
    exact pods_run std podFields r.1 (kernelOf r.1) (Prog.perform op) w

/-- As long as users leave the pods alone, they stay. -/
lemma PodsStay.act (h : s.PodsStay podFields pods) {a : Action} (ha : a.Quiet) :
    (System.act std podFields kernelOf s a).PodsStay podFields pods := by
  have hpass : ∀ {r : Runner} {t : Thread Call.Answer Outcome},
      (∀ labels fields answer, (⟨.listPods labels fields, answer⟩ : Sigma Call.Answer) ∈ t.log →
        answer = listPods podFields labels fields pods) →
      ∀ r' labels fields answer, (⟨.listPods labels fields, answer⟩ : Sigma Call.Answer) ∈
        ((s.setPass r t).passes r').log → answer = listPods podFields labels fields pods := by
    intro r t ht r' labels fields answer hmem
    rcases eq_or_ne r' r with rfl | hne
    · rw [setPass_passes_self] at hmem
      exact ht labels fields answer hmem
    · rw [setPass_passes_of_ne s hne] at hmem
      exact h.answers r' labels fields answer hmem
  cases a with
  | start r =>
    rw [System.act]
    split_ifs
    · exact ⟨h.same, hpass fun _ _ _ hmem => by cases hmem⟩
    · exact h
  | call r fault =>
    obtain rfl : fault = none := ha
    cases hprog : (s.passes r).prog with
    | ret o =>
      rw [act_call_of_ret hprog]
      exact ⟨h.same, h.answers⟩
    | call op k =>
      rw [act_call hprog]
      dsimp only
      refine ⟨(pods_runnerHandle r none op s.world).trans h.same, hpass ?_⟩
      intro labels fields answer hmem
      rcases List.mem_append.mp hmem with hmem | hmem
      · exact h.answers r labels fields answer hmem
      · obtain ⟨rfl, ha⟩ := Sigma.mk.inj (List.mem_singleton.mp hmem)
        rw [eq_of_heq ha, ← h.same]
        rfl
  | changePods pods' => exact absurd ha id
  | seeKiveData kernelID n =>
    rw [System.act]
    split_ifs
    · cases s.kiveDataPast[n]? <;> exact ⟨h.same, h.answers⟩
    · exact h
  | seeKivePolicies kernelID n =>
    rw [System.act]
    split_ifs
    · cases s.kivePoliciesPast[n]? <;> exact ⟨h.same, h.answers⟩
    · exact h
  | _ => exact ⟨h.same, h.answers⟩

/-- A call leaves the policies what they are for. -/
lemma kivePolicies_runnerHandle (r : Runner) (fault : Option Fault) (op : Call) (w : World) :
    ∀ p ∈ (runnerHandle std podFields kernelOf r fault op w).2.cluster.kivePolicies.items,
      ∃ q ∈ w.cluster.kivePolicies.items, p.spec = q.spec := by
  have hsame : ∀ p ∈ w.cluster.kivePolicies.items,
      ∃ q ∈ w.cluster.kivePolicies.items, p.spec = q.spec := fun p hp => ⟨p, hp, rfl⟩
  rcases handleFault_cases std podFields r.1 (kernelOf r.1) fault op w with heq | heq
  · rw [runnerHandle, heq]
    exact hsame
  · rw [runnerHandle, heq]
    cases op
    case listKivePolicies reader => cases reader <;> exact hsame
    case listKiveData reader labels => cases reader <;> exact hsame
    case patchKivePolicy orig modified =>
      intro p hp
      rcases w.cluster.kivePolicies.patch_cases (keyOf modified)
        (Store.mergeFrom orig modified) with ⟨-, heq⟩ | ⟨x, -, -, heq⟩
      · exact hsame p (by simpa [handle, heq] using hp)
      · rcases Store.mem_update.mp (by simpa [handle, heq] using hp) with
          ⟨hp, -⟩ | ⟨q, hq, -, rfl, -⟩
        · exact hsame p hp
        · exact ⟨q, hq, rfl⟩
    all_goals exact hsame

/-- The policies that a run has read after its next call. -/
lemma listsKivePolicy_append {r : Runner} {fault : Option Fault} {w : World} {op : Call}
    {log : List (Sigma Call.Answer)} {p : KivePolicy}
    (hp : ListsKivePolicy (log ++ [⟨op, (runnerHandle std podFields kernelOf r fault op w).1⟩]) p) :
    ListsKivePolicy log p ∨ ∃ reader, op = .listKivePolicies reader ∧
      p ∈ match reader with
        | .cached => (w.kernels (kernelOf r.1)).cachedKivePolicies
        | .uncached => w.cluster.kivePolicies.items := by
  obtain ⟨reader, items, hmem, hp⟩ := hp
  rcases List.mem_append.mp hmem with hmem | hmem
  · exact Or.inl ⟨reader, items, hmem, hp⟩
  · obtain ⟨rfl, ha⟩ := Sigma.mk.inj (List.mem_singleton.mp hmem)
    have hanswer := handleFault_eq_of_answer std podFields r.1 (kernelOf r.1)
      (eq_of_heq ha).symm (by simp [Call.refuse])
    refine Or.inr ⟨reader, rfl, ?_⟩
    cases reader <;> exact Except.ok.inj hanswer ▸ hp

/-- As long as users write known traps, all traps are known. -/
lemma AllKnown.act (h : s.AllKnown std texts) (hkeeps : s.KeepsTo std kernelOf) {a : Action}
    (ha : a.MakesKnown texts) : (System.act std podFields kernelOf s a).AllKnown std texts := by
  have hpass : ∀ {r : Runner} {t : Thread Call.Answer Outcome},
      (∀ p, r.2 = .kivePolicy → ListsKivePolicy t.log p → KnownTraps texts p) →
      ∀ node p, ListsKivePolicy ((s.setPass r t).passes (node, .kivePolicy)).log p →
        KnownTraps texts p := by
    intro r t ht node p hp
    rcases eq_or_ne (node, .kivePolicy) r with rfl | hne
    · rw [setPass_passes_self] at hp
      exact ht p rfl hp
    · rw [setPass_passes_of_ne s hne] at hp
      exact h.listed node p hp
  cases a with
  | start r =>
    rw [System.act]
    split_ifs
    · exact ⟨h.policies, hpass fun p _ hp => absurd hp (not_listsKivePolicy_nil p), h.stored⟩
    · exact h
  | call r fault =>
    cases hprog : (s.passes r).prog with
    | ret o =>
      rw [act_call_of_ret hprog]
      exact ⟨h.policies, h.listed, h.stored⟩
    | call op k =>
      have hop := hkeeps.passCall hprog
      rw [act_call hprog]
      dsimp only
      refine ⟨fun p hp => ?_, hpass fun p hr hp => ?_, ?_⟩
      · obtain ⟨q, hq, hspec⟩ := kivePolicies_runnerHandle r fault op s.world p hp
        rw [KnownTraps, hspec]
        exact h.policies q hq
      · obtain ⟨node, c⟩ := r
        obtain rfl : c = .kivePolicy := hr
        rcases listsKivePolicy_append hp with hp | ⟨reader, rfl, hread⟩
        · exact h.listed node p hp
        · obtain rfl : reader = .uncached := hop
          exact h.policies p hread
      · change ∀ x ∈ (runnerHandle std podFields kernelOf r fault op
          s.world).2.cluster.kiveData.items, BearsKnown std texts x
        rcases kiveData_handleFault std podFields r.1 (kernelOf r.1) fault op s.world with
          heq | heq
        · rw [runnerHandle, heq]
          exact h.stored
        · rw [runnerHandle, heq]
          obtain ⟨node, c⟩ := r
          exact bearsKnown_writeKiveData hop (fun hc p hp => h.listed node p (hc ▸ hp)) h.stored
  | changeKivePolicies policies => exact ⟨ha, h.listed, h.stored⟩
  | deleteKiveData k =>
    refine ⟨h.policies, h.listed, fun x hx => ?_⟩
    have hx : x ∈ (s.world.cluster.kiveData.delete k).2.items := hx
    rcases s.world.cluster.kiveData.delete_cases k with ⟨-, heq⟩ | ⟨y, -, heq⟩
    · exact h.stored x (by simpa [heq] using hx)
    · rcases Store.mem_update.mp (by simpa [heq] using hx) with ⟨hx, -⟩ | ⟨y, hy, -, rfl, -⟩
      · exact h.stored x hx
      · exact (h.stored y hy).edit rfl fun _ _ => rfl
  | seeKiveData kernelID n =>
    rw [System.act]
    split_ifs
    · cases s.kiveDataPast[n]? <;> exact ⟨h.policies, h.listed, h.stored⟩
    · exact h
  | seeKivePolicies kernelID n =>
    rw [System.act]
    split_ifs
    · cases s.kivePoliciesPast[n]? <;> exact ⟨h.policies, h.listed, h.stored⟩
    · exact h
  | _ => exact ⟨h.policies, h.listed, h.stored⟩

end Step

end System

/-- No data pass deletes a justified KiveData, while users create and edit policies and the caches
lag behind, if what it has read of the KiveData and of the policies with its traps is so when it
deletes it. -/
theorem sparesJustified_run (std : Std) {podFields : PodFields} (hf : podFields.Standard)
    {kernelOf : String → String} {texts : Set ByteArray} (hstd : NoCollision std texts) {w : World}
    (hw : w.Fresh) (hknown : ∀ p ∈ w.cluster.kivePolicies.items, KnownTraps texts p)
    {actions : List Action} (hactions : ∀ a ∈ actions, a.Quiet ∧ a.MakesKnown texts)
    (hreads : System.Along std podFields kernelOf (System.ReadsCurrent std) actions (.ofWorld w)) :
    System.Along std podFields kernelOf (System.SparesJustified std) actions (.ofWorld w) := by
  let I : System → Prop := fun s => s.KeepsTo std kernelOf ∧ s.Searches std ∧
    s.PodsStay podFields w.cluster.pods ∧ s.AllKnown std texts
  have hact : ∀ s, ∀ a ∈ actions, s.ReadsCurrent std a → I s →
      I (System.act std podFields kernelOf s a) := by
    rintro s a ha - ⟨hkeeps, hsearches, hpods, hall⟩
    obtain ⟨hquiet, hmakes⟩ := hactions a ha
    exact ⟨System.keepsTo_act s a hkeeps, System.searches_act s a hsearches, hpods.act hquiet,
      hall.act hkeeps hmakes⟩
  have hinit : I (.ofWorld w) := by
    refine ⟨System.keepsTo_ofWorld w, System.searches_ofWorld w, ⟨rfl, fun _ _ _ _ h => by cases h⟩,
      hknown, fun node p hp => absurd hp (not_listsKivePolicy_nil p), fun x hx => ?_⟩
    have hx : x ∈ w.cluster.kiveData.items := hx
    rw [hw.kiveData] at hx
    cases hx
  refine System.Along.of_invariant hact (fun s a h hread => ?_) hreads hinit
  obtain ⟨-, hsearches, hpods, hall⟩ := h
  exact System.sparesJustified_of_readsCurrent hf hstd hsearches hpods hall hread

/-! ## A KiveData that is seen before its policy -/

namespace HastyDeletions

open TrapRecords (trap policy std)

def traps : List KiveTrap := [trap "/data" "http://one"]

/-- The cluster with some policies, which the caches show. -/
def world (policies : Store KivePolicy) : World :=
  { TrapRecords.world traps with
    cluster := { (TrapRecords.world traps).cluster with kivePolicies := policies }
    kernels := fun _ => { cachedKivePolicies := policies.items } }

/-- No KiveData, no passes, no caches. -/
lemma fresh_world (policies : Store KivePolicy) : (world policies).Fresh :=
  ⟨rfl, fun _ => rfl, fun _ => rfl, fun _ => rfl⟩

/-- A policy pass with its seven calls. -/
def policyPass : List Action :=
  .start ("node", .kivePolicy) :: List.replicate 7 (.call ("node", .kivePolicy) none)

/-- The calls of a data pass, after the cache of KiveData has come to show a moment. -/
def dataPass (moment calls : ℕ) : List Action :=
  .seeKiveData "k1" moment :: .start ("node", .kiveData) ::
    List.replicate calls (.call ("node", .kiveData) none)

/-- The texts of the trap. -/
def texts : Set ByteArray := {trapText (trap "/data" "http://one") "v1"}

/-- The KiveData of a policy, which goes away and is seen to have gone. -/
def eliminated : List Action :=
  policyPass ++ [.changeKivePolicies .empty, .seeKivePolicies "k1" 8] ++ dataPass 8 5

/-- A new policy and its KiveData, which alone is seen. -/
def unseen : List Action :=
  .changeKivePolicies (.ofList [policy traps]) :: policyPass ++ dataPass 8 4

/-- The trap of the example is known. -/
lemma knownTraps_policy : ∀ p ∈ (Store.ofList [policy traps]).items, KnownTraps texts p := by
  intro p hp t ht
  obtain rfl := List.mem_singleton.mp hp
  obtain rfl := List.mem_singleton.mp ht
  rfl

end HastyDeletions

open HastyDeletions TrapRecords in
/-- The KiveData of a policy that has gone. -/
theorem sparesJustified_eliminated :
    System.Along std .standard (fun _ => "k1") (System.SparesJustified std) eliminated
      (.ofWorld (world (.ofList [policy HastyDeletions.traps]))) :=
  sparesJustified_run std PodFields.standard_standard (Set.injOn_singleton _ _)
    (fresh_world _) knownTraps_policy
    (by simp [eliminated, HastyDeletions.policyPass, dataPass, Action.Quiet, Action.MakesKnown,
      Store.empty])
    (by decide +kernel)

open HastyDeletions TrapRecords in
/-- A policy is created, a policy pass applies a KiveData for it, and the cache of a data pass shows
the KiveData but not yet the policy.  The data pass deletes it. -/
theorem sparesJustified_counterexample :
    (world .empty).Fresh ∧ NoCollision std texts ∧
      (∀ a ∈ unseen ++ [.call ("node", .kiveData) none], a.Quiet ∧ a.MakesKnown texts) ∧
      ¬ System.Along std .standard (fun _ => "k1") (System.SparesJustified std)
        (unseen ++ [.call ("node", .kiveData) none]) (.ofWorld (world .empty)) := by
  refine ⟨fresh_world _, Set.injOn_singleton _ _, ?_, by decide +kernel⟩
  simpa [unseen, HastyDeletions.policyPass, dataPass, Action.Quiet, Action.MakesKnown]
    using knownTraps_policy

end Kive
