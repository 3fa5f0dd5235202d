import KiveOperator.Correctness.HastyDeletions
import KiveOperator.Correctness.LastDataPass

/-!
# Applied KiveData and the deletions in progress

After the last change of policies and pods, policy passes apply KiveData and data passes delete
those that no trap justifies, each making its calls while the other makes its own.  An edited trap
has the file that it had, and so the name of its KiveData stays what it was: an apply may meet a
KiveData under the name that is being deleted, or a deletion one that has just been applied.
`appliedKept_run` says that what has been applied stays and gets its key as long as neither happens.
-/

namespace Kive

open Interaction Object

/-! ## KiveData that are to stay -/

/-- A KiveData bears the identifier of a trap of a policy that is not being deleted, under the alert
version of the policy. -/
def BearsLive (std : Std) (policies : List KivePolicy) (x : KiveData) : Prop :=
  ∃ p ∈ policies, ¬ Deleting p ∧
    x.objectMeta.annotations.get "kive-alert-version" = p.spec.alertVersion ∧
    ∃ t ∈ p.spec.traps, x.objectMeta.labels.get trapIDLabel = trapID std t p.spec.alertVersion

/-- A KiveData that is not being deleted, with a trap and a container. -/
structure InForce (std : Std) (policies : List KivePolicy) (pods : List Pod) (x : KiveData) :
    Prop where
  live : ¬ Deleting x
  bears : BearsLive std policies x
  container : HasContainer pods x

/-- Such a KiveData is stored under a name. -/
def Standing (std : Std) (policies : List KivePolicy) (pods : List Pod) (k : String × String)
    (s : Store KiveData) : Prop :=
  ∃ x ∈ s.items, keyOf x = k ∧ InForce std policies pods x

/-- The policies that are not being deleted are still there with what they are for. -/
def LiveOn (policies policies' : List KivePolicy) : Prop :=
  ∀ p ∈ policies, ¬ Deleting p → ∃ q ∈ policies', ¬ Deleting q ∧ q.spec = p.spec

/-- The policies as they are. -/
lemma LiveOn.refl (policies : List KivePolicy) : LiveOn policies policies :=
  fun p hp hlive => ⟨p, hp, hlive, rfl⟩

section InForce

variable {std : Std} {policies policies' : List KivePolicy} {pods : List Pod} {x d : KiveData}

/-- What bears a policy's trap does so as long as the policy stays. -/
lemma BearsLive.mono (h : BearsLive std policies x) (hon : LiveOn policies policies') :
    BearsLive std policies' x := by
  obtain ⟨p, hp, hlive, hversion, t, ht, hid⟩ := h
  obtain ⟨q, hq, hqlive, hspec⟩ := hon p hp hlive
  exact ⟨q, hq, hqlive, hspec ▸ hversion, t, hspec ▸ ht, hspec ▸ hid⟩

/-- For the same trap and container the same trap is borne. -/
lemma SameCause.bearsLive (h : SameCause x d) (hx : BearsLive std policies x) :
    BearsLive std policies d := by
  obtain ⟨p, hp, hlive, hversion, t, ht, hid⟩ := hx
  refine ⟨p, hp, hlive, ?_, t, ht, ?_⟩
  · rw [← h.annotations "kive-alert-version" (by decide)]
    exact hversion
  · rw [← h.trapID]
    exact hid

/-- A trap that the KiveData bears the identifier of is one of its traps. -/
lemma BearsLive.exists_isTrapOf (h : BearsLive std policies x) :
    ∃ p ∈ policies, ¬ Deleting p ∧ ∃ t ∈ p.spec.traps, IsTrapOf std x t := by
  obtain ⟨p, hp, hlive, hversion, t, ht, hid⟩ := h
  exact ⟨p, hp, hlive, t, ht, by rw [IsTrapOf, hversion]; exact hid⟩

/-- A KiveData stays in force as long as the policies stay. -/
lemma InForce.mono (h : InForce std policies pods x) (hon : LiveOn policies policies') :
    InForce std policies' pods x :=
  ⟨h.live, h.bears.mono hon, h.container⟩

/-- Edits that keep the labels and the annotations but the wake-up, and mark nothing. -/
lemma InForce.edit (h : InForce std policies pods x) {e : Edit KiveData}
    (hlive : ¬ Deleting (e.toFun x))
    (hlabels : (e.toFun x).objectMeta.labels = x.objectMeta.labels)
    (hann : ∀ key, key ≠ forceReconcile →
      (e.toFun x).objectMeta.annotations.lookup key = x.objectMeta.annotations.lookup key) :
    InForce std policies pods (e.toFun x) := by
  have hsame : SameCause x (e.toFun x) := by
    refine ⟨by rw [hlabels], fun key hkey => congrArg (Option.getD · "") (hann key ?_).symm⟩
    rintro rfl
    exact absurd hkey (by decide)
  exact ⟨hlive, hsame.bearsLive h.bears, hsame.hasContainer h.container⟩

/-- What a policy pass applies for a container of a pod. -/
lemma inForce_kiveDataFor (std : Std) (kernelID : String) {site : Site} {cd : ContainerData}
    (hpolicy : ∃ q ∈ policies, ¬ Deleting q ∧ q.spec = site.policy.spec)
    (htrap : site.trap ∈ site.policy.spec.traps) (hpod : site.pod ∈ pods)
    (hcontainer : site.container ∈ site.pod.containerStatuses)
    (hid : cd.id = site.container.containerID) (hname : cd.name = site.container.name) :
    InForce std policies pods (kiveDataFor std kernelID (site, cd)) := by
  obtain ⟨q, hq, hlive, hspec⟩ := hpolicy
  refine ⟨by simp [Deleting, objectMeta, kiveDataFor, KivePolicyReconciler.newKiveData],
    ⟨q, hq, hlive, ?_, site.trap, hspec ▸ htrap, ?_⟩,
    site.pod, hpod, ?_, site.container, hcontainer, kiveDataContainerCmp_iff.mpr ⟨?_, ?_, ?_, ?_⟩⟩
  all_goals simp [kiveDataFor, KivePolicyReconciler.newKiveData, StrMap.ofEntries, StrMap.get,
    Finmap.lookup_insert_of_ne, hspec, hid, hname, trapIDLabel, kernelIDLabel]

/-- Applying it makes a KiveData of this kind of any one that is not being deleted. -/
lemma inForce_appliedKiveData {kernelID : String} {y : Site × ContainerData}
    (h : InForce std policies pods (kiveDataFor std kernelID y)) {s : Store KiveData}
    (hlive : ∀ x ∈ s.items, keyOf x = keyOf (kiveDataFor std kernelID y) → ¬ Deleting x) :
    InForce std policies pods (appliedKiveData s (kiveDataFor std kernelID y)) := by
  unfold appliedKiveData
  cases hfind : s.find? (keyOf (kiveDataFor std kernelID y)) with
  | none =>
    have hsame : SameCause (kiveDataFor std kernelID y)
        (s.created (newlyApplied (kiveDataFor std kernelID y))) := ⟨rfl, fun _ _ => rfl⟩
    exact ⟨by simp [Deleting, Store.created], hsame.bearsLive h.bears,
      hsame.hasContainer h.container⟩
  | some x =>
    obtain ⟨hx, hkey⟩ := Store.find?_eq_some_iff.mp hfind
    obtain ⟨hsets, -, -⟩ := sets_kiveDataFor std kernelID y
    have hsame : SameCause (kiveDataFor std kernelID y)
        (applyTo (kiveDataFor std kernelID y) x) := by
      refine ⟨(get_applyTo_kiveDataFor std kernelID y x).2.symm, fun key hkey => ?_⟩
      have halert : key ∈ alertKeys :=
        (show justifyingKeys ⊆ alertKeys by decide) hkey
      exact congrArg (Option.getD · "") (Finmap.lookup_union_left (hsets key halert)).symm
    exact ⟨hlive x hx hkey, hsame.bearsLive h.bears, hsame.hasContainer h.container⟩

/-- An apply that meets no KiveData being deleted succeeds. -/
lemma applyKiveData_ok {s : Store KiveData} {config : KiveData}
    (hlive : ∀ x ∈ s.items, keyOf x = keyOf config → ¬ Deleting x) :
    (applyKiveData s config).1 = .ok () := by
  unfold applyKiveData
  split
  · next x hfind =>
    obtain ⟨hx, hkey⟩ := Store.find?_eq_some_iff.mp hfind
    rw [Store.patch, hfind]
    dsimp only
    rw [if_neg fun hforb => hlive x hx hkey hforb.1]
  · rfl

/-- What it leaves under the name is to stay. -/
lemma standing_apply {kernelID : String} {y : Site × ContainerData}
    (h : InForce std policies pods (kiveDataFor std kernelID y)) {s : Store KiveData}
    (hlive : ∀ x ∈ s.items, keyOf x = keyOf (kiveDataFor std kernelID y) → ¬ Deleting x) :
    Standing std policies pods (keyOf (kiveDataFor std kernelID y))
      (applyKiveData s (kiveDataFor std kernelID y)).2 := by
  have hfind := find?_applyKiveData (applyKiveData_ok hlive) (keyOf (kiveDataFor std kernelID y))
  rw [if_pos rfl] at hfind
  obtain ⟨hmem, hkey⟩ := Store.find?_eq_some_iff.mp hfind
  exact ⟨_, hmem, hkey, inForce_appliedKiveData h hlive⟩

/-- A KiveData that is to stay does so while other names are written to, and where its own is edited
without a mark for deletion. -/
lemma Standing.update {k k' : String × String} {s : Store KiveData}
    (h : Standing std policies pods k s) {e : Edit KiveData}
    (he : k' = k → ∀ x, InForce std policies pods x → InForce std policies pods (e.toFun x)) :
    Standing std policies pods k (s.update k' e) := by
  obtain ⟨x, hx, hkey, hforce⟩ := h
  by_cases hk : k' = k
  · have hforce' := he hk x hforce
    exact ⟨e.toFun x, Store.mem_update.mpr (Or.inr ⟨x, hx, hkey.trans hk.symm, rfl, fun hdel =>
      absurd hdel hforce'.live⟩), (e.keyOf_toFun x).trans hkey, hforce'⟩
  · exact ⟨x, Store.mem_update.mpr (Or.inl ⟨hx, fun heq => hk (heq.symm.trans hkey)⟩), hkey, hforce⟩

/-- It stays after a call of a run, but for a deletion, and for the apply of what is not to stay. -/
lemma Standing.write {kernelID : String} {c : Controller} {log : List (Sigma Call.Answer)}
    {op : Call} (hop : PassCall std kernelID c log op) {k : String × String} {s : Store KiveData}
    (h : Standing std policies pods k s)
    (hdelete : ∀ d, op = .deleteKiveData d → keyOf d ≠ k)
    (happly : ∀ site config, op = .applyKiveData site config → keyOf config = k →
      InForce std policies pods config) :
    Standing std policies pods k (writeKiveData s op) := by
  cases op
  case deleteKiveData d =>
    rcases s.delete_cases (keyOf d) with ⟨-, heq⟩ | ⟨x, -, heq⟩
    · rw [writeKiveData, heq]
      exact h
    · rw [writeKiveData, heq]
      exact h.update fun hk => absurd hk (hdelete d rfl)
  case applyKiveData site config =>
    obtain ⟨-, cd, -, rfl⟩ := passCall_applyKiveData hop
    by_cases hk : keyOf (kiveDataFor std kernelID (site, cd)) = k
    · subst hk
      obtain ⟨x, hx, hkey, hforce⟩ := h
      refine standing_apply (happly site _ rfl rfl) fun y hy hykey => ?_
      rw [s.eq_of_keyOf_eq hy hx (hykey.trans hkey.symm)]
      exact hforce.live
    · rcases applyKiveData_cases s (kiveDataFor std kernelID (site, cd)) with
        ⟨-, heq⟩ | ⟨x, -, -, heq⟩ | ⟨hnew, -, heq⟩
      · rw [writeKiveData, heq]
        exact h
      · rw [writeKiveData, heq]
        exact h.update fun heq => absurd heq hk
      · rw [writeKiveData, heq]
        obtain ⟨x, hx, hkey, hforce⟩ := h
        exact ⟨x, (Store.mem_create (h := hnew)).mpr (Or.inl hx), hkey, hforce⟩
  case patchKiveData orig modified =>
    obtain ⟨-, hmodified⟩ := passCall_patchKiveData hop
    have hann : ∀ key, key ≠ forceReconcile →
        modified.objectMeta.annotations.lookup key = orig.objectMeta.annotations.lookup key := by
      rcases hmodified with ⟨time, rfl⟩ | ⟨-, -, -, rfl, -⟩ | ⟨-, -, -, rfl⟩
      · exact fun key hkey => Finmap.lookup_insert_of_ne _ hkey
      · exact fun _ _ => rfl
      · unfold addFinalizer
        split_ifs <;> exact fun _ _ => rfl
    rcases s.patch_cases (keyOf modified) (Store.mergeFrom orig modified) with
      ⟨-, heq⟩ | ⟨x, -, -, heq⟩
    · rw [writeKiveData, heq]
      exact h
    · rw [writeKiveData, heq]
      refine h.update fun _ y hy => hy.edit hy.live rfl fun key hkey => ?_
      exact (MapPatch.lookup_mergePatch _ _ _ _).trans (if_pos (hann key hkey))
  all_goals exact h

end InForce

/-- What was found was found at its site. -/
lemma found_of_mem_foundBy {log : List (Sigma Call.Answer)} {site : Site} {cd : ContainerData}
    (h : (site, cd) ∈ foundBy log) : Found log site cd := by
  obtain ⟨⟨op, answer⟩, he, hsome⟩ := List.mem_filterMap.mp h
  cases op
  case getContainerData site' =>
    cases answer with
    | error err => cases hsome
    | ok cd' =>
      dsimp only at hsome
      split_ifs at hsome with hcond
      obtain ⟨rfl, rfl⟩ := Prod.mk.inj (Option.some.inj hsome)
      exact ⟨he, (Bool.and_eq_true_iff.mp hcond).2⟩
  all_goals cases hsome

/-- The KiveData that a call applies. -/
lemma mem_appliedBy_singleton {op : Call} {answer : op.Answer} {config : KiveData} :
    config ∈ appliedBy [⟨op, answer⟩] ↔ ∃ site, op = .applyKiveData site config := by
  cases op
  case applyKiveData site config' => simp [appliedBy, eq_comm]
  all_goals simp [appliedBy]

/-! ## Passes after the last change -/

/-- Policy passes and data passes go on, and the caches catch up. -/
def Action.OfPasses : Action → Prop
  | .start r => r.2 ≠ .kivePod
  | .call r _ => r.2 ≠ .kivePod
  | .seeKiveData _ _ => True
  | .seeKivePolicies _ _ => True
  | .wait _ => True
  | _ => False

instance : DecidablePred Action.OfPasses := by
  intro a
  delta Action.OfPasses
  induction a using Action.casesOn <;> dsimp only <;> infer_instance

/-- The answer to a list request for pods is the one that it would get now. -/
def ShowsPods (podFields : PodFields) (pods : List Pod) : Sigma Call.Answer → Prop
  | ⟨.listPods labels fields, answer⟩ => answer = listPods podFields labels fields pods
  | _ => True

instance (podFields : PodFields) (pods : List Pod) : DecidablePred (ShowsPods podFields pods) := by
  intro x
  delta ShowsPods
  induction x using Sigma.casesOn with
  | mk op answer => induction op using Call.casesOn <;> dsimp only <;> infer_instance

namespace System

/-- A KiveData is applied where none is being deleted under its name. -/
def AppliesAfresh (s : System) : Action → Prop
  | .call r _ =>
    match (s.passes r).prog with
    | .call (.applyKiveData _ config) _ =>
      ∀ x ∈ s.world.cluster.kiveData.items, keyOf x = keyOf config → ¬ Deleting x
    | _ => True
  | _ => True

instance (s : System) (a : Action) : Decidable (s.AppliesAfresh a) := by
  delta AppliesAfresh
  induction a using Action.casesOn with
  | call r fault =>
    dsimp only
    generalize (s.passes r).prog = prog
    induction prog using Prog.casesOn with
    | ret o => exact instDecidableTrue
    | call op k =>
      induction op using Call.casesOn
      case applyKiveData =>
        dsimp only
        infer_instance
      all_goals exact instDecidableTrue
  | _ => exact instDecidableTrue

/-- A run that deletes a KiveData has listed the pods as they are. -/
def PodsCurrent (podFields : PodFields) (s : System) : Action → Prop
  | .call r _ =>
    match (s.passes r).prog with
    | .call (.deleteKiveData _) _ =>
      ∀ e ∈ (s.passes r).log, ShowsPods podFields s.world.cluster.pods e
    | _ => True
  | _ => True

instance (podFields : PodFields) (s : System) (a : Action) :
    Decidable (s.PodsCurrent podFields a) := by
  delta PodsCurrent
  induction a using Action.casesOn with
  | call r fault =>
    dsimp only
    generalize (s.passes r).prog = prog
    induction prog using Prog.casesOn with
    | ret o => exact instDecidableTrue
    | call op k =>
      induction op using Call.casesOn
      case deleteKiveData =>
        dsimp only
        infer_instance
      all_goals exact instDecidableTrue
  | _ => exact instDecidableTrue

/-- Nothing is applied to a KiveData that is being deleted, and none is deleted for what is not so
any more. -/
def Unhurried (std : Std) (podFields : PodFields) (s : System) (a : Action) : Prop :=
  s.AppliesAfresh a ∧ s.ReadsCurrent std a ∧ s.PodsCurrent podFields a

instance (std : Std) (podFields : PodFields) (s : System) (a : Action) :
    Decidable (s.Unhurried std podFields a) :=
  inferInstanceAs (Decidable (_ ∧ _))

/-- A KiveData that is to stay is stored under a name. -/
abbrev Stands (std : Std) (k : String × String) (s : System) : Prop :=
  Standing std s.world.cluster.kivePolicies.items s.world.cluster.pods k s.world.cluster.kiveData

/-- What was found is of the container that was searched for, and the pass goes on with it. -/
def FindsRight (s : System) : Prop :=
  ∀ r site cd, Found (s.passes r).log site cd →
    cd.id = site.container.containerID ∧ cd.name = site.container.name ∧ cd.shouldRequeue = false

/-- The runs of policy passes apply what they have found, for containers of the given pods when no
others were listed. -/
def Applying (std : Std) (kernelOf : String → String) (pods : List Pod) (s : System) : Prop :=
  s.Obeying (fun r log op => r.2 = .kivePolicy → AppliesAmong pods log op)
    fun r _ log => r.2 = .kivePolicy → Applied std (kernelOf r.1) log

section Act

variable {std : Std} {podFields : PodFields} {owner kernelOf : String → String} {s : System}
  {a : Action} {pods : List Pod}

/-- Every action keeps what was found right. -/
lemma findsRight_act (h : s.FindsRight) :
    (System.act std podFields kernelOf s a).FindsRight := by
  intro r site cd hcd
  rcases passes_act std podFields kernelOf s a r with hsame | ⟨-, -, hstart⟩ |
    ⟨fault, op, k, -, -, hnext⟩
  · rw [hsame] at hcd
    exact h r site cd hcd
  · rw [hstart] at hcd
    cases hcd.1
  · rw [hnext] at hcd
    rcases found_append hcd with hcd | hcd
    · exact h r site cd hcd
    · exact ⟨hcd.id, hcd.name, hcd.shouldRequeue⟩

/-- Every action keeps the policy passes applying what they find. -/
lemma applying_act (h : s.Applying std kernelOf pods) :
    (System.act std podFields kernelOf s a).Applying std kernelOf pods := by
  refine Obeying.act h (fun r => ?_) a
  obtain ⟨node, c⟩ := r
  cases c with
  | kivePolicy =>
    exact ((obeys_policyPass_among std (kernelOf node) pods).and
      (applied_policyReconcile std (kernelOf node)).obeys).mono (fun _ _ h _ => h.1)
        fun _ _ h _ => h.2
  | _ =>
    exact (obeys_reconcile std (kernelOf node) _).mono (fun _ _ _ h => Controller.noConfusion h)
      fun _ _ _ h => Controller.noConfusion h

/-- What an action of the passes makes of the cluster. -/
lemma cluster_act (ha : a.OfPasses) (hund : s.Undisturbed kernelOf a) :
    (System.act std podFields kernelOf s a).world.cluster = s.world.cluster ∨
    ∃ r op k, r.2 ≠ .kivePod ∧ a = .call r none ∧ (s.passes r).prog = .call op k ∧
      (System.act std podFields kernelOf s a).world.cluster =
        (handle std podFields r.1 (kernelOf r.1) op s.world).2.cluster := by
  cases a with
  | start r =>
    left
    rw [System.act]
    split_ifs <;> rfl
  | call r fault =>
    obtain rfl : fault = none := by simpa using hund.1
    cases hprog : (s.passes r).prog with
    | ret o =>
      rw [act_call_of_ret hprog]
      exact Or.inl rfl
    | call op k =>
      rw [act_call hprog]
      exact Or.inr ⟨r, op, k, ha, rfl, hprog, rfl⟩
  | seeKiveData kernelID n =>
    left
    rw [System.act]
    split_ifs
    · cases s.kiveDataPast[n]? <;> rfl
    · rfl
  | seeKivePolicies kernelID n =>
    left
    rw [System.act]
    split_ifs
    · cases s.kivePoliciesPast[n]? <;> rfl
    · rfl
  | wait seconds => exact Or.inl rfl
  | _ => exact absurd ha id

variable (std podFields) in
/-- A call takes no policy away that is not being deleted. -/
lemma liveOn_handle (node kernelID : String) (op : Call) (w : World) :
    LiveOn w.cluster.kivePolicies.items
      (handle std podFields node kernelID op w).2.cluster.kivePolicies.items := by
  cases op
  case listKivePolicies reader => cases reader <;> exact LiveOn.refl _
  case listKiveData reader labels => cases reader <;> exact LiveOn.refl _
  case patchKivePolicy orig modified =>
    intro p hp hlive
    rcases w.cluster.kivePolicies.patch_cases (keyOf modified) (Store.mergeFrom orig modified) with
      ⟨-, heq⟩ | ⟨x, -, -, heq⟩
    · exact ⟨p, by simpa [handle, heq] using hp, hlive, rfl⟩
    · by_cases hkey : keyOf p = keyOf modified
      · refine ⟨(Store.mergeFrom orig modified).toFun p, ?_, hlive, rfl⟩
        have hmem := (Store.mem_update (e := Store.mergeFrom orig modified)).mpr
          (Or.inr ⟨p, hp, hkey, rfl, fun hdel => absurd hdel hlive⟩)
        simpa [handle, heq] using hmem
      · have hmem := (Store.mem_update (e := Store.mergeFrom orig modified)).mpr
          (Or.inl ⟨hp, hkey⟩)
        exact ⟨p, by simpa [handle, heq] using hmem, hlive, rfl⟩
  all_goals exact LiveOn.refl _

variable (std podFields kernelOf) in
/-- Nor does any action of the passes, and the pods stay. -/
lemma liveOn_act (ha : a.OfPasses) (hund : s.Undisturbed kernelOf a) :
    LiveOn s.world.cluster.kivePolicies.items
        (System.act std podFields kernelOf s a).world.cluster.kivePolicies.items ∧
      (System.act std podFields kernelOf s a).world.cluster.pods = s.world.cluster.pods := by
  rcases @cluster_act std podFields kernelOf s a ha hund with heq | ⟨r, op, k, -, -, -, heq⟩
  · rw [heq]
    exact ⟨LiveOn.refl _, rfl⟩
  · rw [heq]
    exact ⟨liveOn_handle std podFields r.1 (kernelOf r.1) op s.world,
      pods_run std podFields r.1 (kernelOf r.1) (Prog.perform op) s.world⟩

/-- What the policy pass of a node has read is so: the policies that it has listed are still there
if they were not being deleted, the pods that it has listed are among those that there are, and what
it has applied is to stay. -/
structure Current (std : Std) (kernelOf : String → String) (node : String) (s : System) : Prop where
  policies : ∀ p, ListsKivePolicy (s.passes (node, .kivePolicy)).log p → ¬ Deleting p →
    ∃ q ∈ s.world.cluster.kivePolicies.items, ¬ Deleting q ∧ q.spec = p.spec
  pods : ListsAmong s.world.cluster.pods (s.passes (node, .kivePolicy)).log
  applied : ∀ config ∈ appliedBy (s.passes (node, .kivePolicy)).log,
    ∃ site cd, Found (s.passes (node, .kivePolicy)).log site cd ∧
      config = kiveDataFor std (kernelOf node) (site, cd) ∧ s.Stands std (keyOf config)

/-- What the invariants of the system say together. -/
structure Regular (std : Std) (owner kernelOf : String → String) (s : System) : Prop where
  keeps : s.KeepsTo std kernelOf
  searches : s.Searches std
  belong : s.AllBelong owner kernelOf
  finds : s.FindsRight

/-- A data pass that deletes a KiveData deletes none that is to stay. -/
lemma Regular.deletes_none (h : s.Regular std owner kernelOf) (hf : podFields.Standard)
    {r : Runner} (hr : r.2 ≠ .kivePod) {d : KiveData} {k : Except String Unit → CallProg Outcome}
    (hprog : (s.passes r).prog = .call (.deleteKiveData d) k) {fault : Option Fault}
    (hun : s.Unhurried std podFields (.call r fault)) {x : KiveData}
    (hx : x ∈ s.world.cluster.kiveData.items) (hkey : keyOf x = keyOf d)
    (hforce : InForce std s.world.cluster.kivePolicies.items s.world.cluster.pods x) : False := by
  obtain ⟨-, hreads, hpods⟩ := hun
  have hdata : r.2 = .kiveData := by
    have hcall := h.keeps.passCall hprog
    obtain ⟨node, c⟩ := r
    cases c with
    | kivePolicy => exact absurd hcall id
    | kivePod => exact absurd rfl hr
    | kiveData => rfl
  unfold ReadsCurrent at hreads
  unfold PodsCurrent at hpods
  dsimp only at hreads hpods
  rw [hprog] at hreads hpods
  obtain ⟨hsame, hlisted⟩ := hreads hdata
  have hcause : SameCause x d := hsame x hx hkey
  obtain ⟨p, hp, hlive, t, ht, htrap⟩ := hforce.bears.exists_isTrapOf
  have htrap : IsTrapOf std d t := hcause.isTrapOf htrap
  obtain ⟨q, hq, hqlive, hspec⟩ := hlisted p hp hlive ⟨t, ht, htrap⟩
  obtain ⟨answer, hmem, hnone⟩ := h.searches.call hprog hdata q hq hqlive t (hspec ▸ ht) htrap
  -- the search for its container was in vain
  obtain rfl : answer = _ := hpods _ hmem
  rw [listPods_matchingFields_kiveData hf] at hnone
  have hno := hnone _ rfl
  rw [(containerExists_filter_iff d _).mpr (hcause.hasContainer hforce.container)] at hno
  cases hno

/-- What the policy pass of a node is about to apply is to stay. -/
lemma Current.applies {node : String} (hcur : s.Current std kernelOf node)
    (h : s.Regular std owner kernelOf) (happl : s.Applying std kernelOf s.world.cluster.pods)
    {site : Site} {config : KiveData} {k : Except String Unit → CallProg Outcome}
    (hprog : (s.passes (node, .kivePolicy)).prog = .call (.applyKiveData site config) k) :
    ∃ cd, Found (s.passes (node, .kivePolicy)).log site cd ∧
      config = kiveDataFor std (kernelOf node) (site, cd) ∧
      InForce std s.world.cluster.kivePolicies.items s.world.cluster.pods config := by
  obtain ⟨⟨hlisted, hlive, htrap⟩, cd, hfound, rfl⟩ :=
    passCall_applyKiveData (h.keeps.passCall hprog)
  obtain ⟨hid, hname, -⟩ := h.finds _ site cd hfound
  obtain ⟨hpod, hcontainer⟩ := happl.call hprog rfl hcur.pods
  exact ⟨cd, hfound, rfl, inForce_kiveDataFor std (kernelOf node)
    (hcur.policies site.policy hlisted hlive) htrap hpod hcontainer hid hname⟩

/-- A KiveData that the policy pass of a node has found a file for stays through an action. -/
lemma Current.stands_act {node : String} (hcur : s.Current std kernelOf node)
    (h : s.Regular std owner kernelOf) (happl : s.Applying std kernelOf s.world.cluster.pods)
    (hf : podFields.Standard) (ha : a.OfPasses) (hund : s.Undisturbed kernelOf a)
    (hun : s.Unhurried std podFields a) {site : Site} {cd : ContainerData}
    (howner : owner (containerIDPart site.container.containerID) = node)
    (hhyphen : NoHyphen (containerIDPart site.container.containerID))
    (hstands : s.Stands std (keyOf (kiveDataFor std (kernelOf node) (site, cd)))) :
    (System.act std podFields kernelOf s a).Stands std
      (keyOf (kiveDataFor std (kernelOf node) (site, cd))) := by
  rcases @cluster_act std podFields kernelOf s a ha hund with
    heq | ⟨r, op, k, hr, rfl, hprog, heq⟩
  · rw [Stands, heq]
    exact hstands
  · have hwrite := hstands.write (h.keeps.passCall hprog) ?_ ?_
    · have hpods : (handle std podFields r.1 (kernelOf r.1) op s.world).2.cluster.pods =
          s.world.cluster.pods :=
        pods_run std podFields r.1 (kernelOf r.1) (Prog.perform op) s.world
      rw [Stands, heq, kiveData_handle, hpods]
      obtain ⟨x, hx, hkey, hforce⟩ := hwrite
      exact ⟨x, hx, hkey, hforce.mono (liveOn_handle std podFields r.1 (kernelOf r.1) op s.world)⟩
    · rintro d rfl hkey
      obtain ⟨x, hx, hxkey, hforce⟩ := hstands
      exact h.deletes_none hf hr hprog hun hx (hxkey.trans hkey.symm) hforce
    · rintro site' config rfl hkey
      -- the container is known to the node alone
      obtain ⟨-, cd', hfound, rfl⟩ := passCall_applyKiveData (h.keeps.passCall hprog)
      obtain ⟨howner', hhyphen'⟩ := h.belong.found r site' cd' hfound
      obtain ⟨-, -, -, hsame⟩ := newKiveDataName_inj hhyphen' hhyphen (congrArg Prod.snd hkey)
      obtain ⟨node', c⟩ := r
      obtain rfl : c = .kivePolicy := controller_of_applyKiveData (h.keeps.passCall hprog)
      obtain rfl : node' = node := by
        rw [← howner, ← hsame]
        exact howner'.symm
      obtain ⟨-, -, -, hforce⟩ := hcur.applies h happl hprog
      exact hforce

/-- Every action keeps the invariants together. -/
lemma Regular.act (h : s.Regular std owner kernelOf) (hown : a.KnowsOwn owner) :
    (System.act std podFields kernelOf s a).Regular std owner kernelOf where
  keeps := keepsTo_act s a h.keeps
  searches := searches_act s a h.searches
  belong := h.belong.act h.keeps hown
  finds := findsRight_act h.finds

/-- What has been applied stays through an action, and so does what is applied by it. -/
lemma Current.act {node : String} (hcur : s.Current std kernelOf node)
    (h : s.Regular std owner kernelOf) (happl : s.Applying std kernelOf s.world.cluster.pods)
    (hf : podFields.Standard) (ha : a.OfPasses) (hund : s.Undisturbed kernelOf a)
    (hun : s.Unhurried std podFields a) :
    (System.act std podFields kernelOf s a).Current std kernelOf node := by
  obtain ⟨hlive, hpods⟩ := liveOn_act std podFields kernelOf ha hund
  have hpolicies : ∀ p : KivePolicy, (∃ q ∈ s.world.cluster.kivePolicies.items,
      ¬ Deleting q ∧ q.spec = p.spec) → ∃ q ∈ (System.act std podFields kernelOf s
        a).world.cluster.kivePolicies.items, ¬ Deleting q ∧ q.spec = p.spec := by
    rintro p ⟨q, hq, hqlive, hspec⟩
    obtain ⟨q', hq', hqlive', hspec'⟩ := hlive q hq hqlive
    exact ⟨q', hq', hqlive', hspec'.trans hspec⟩
  have hstays : ∀ site cd, Found (s.passes (node, .kivePolicy)).log site cd →
      s.Stands std (keyOf (kiveDataFor std (kernelOf node) (site, cd))) →
      (System.act std podFields kernelOf s a).Stands std
        (keyOf (kiveDataFor std (kernelOf node) (site, cd))) := by
    intro site cd hfound hstands
    obtain ⟨howner, hhyphen⟩ := h.belong.found _ site cd hfound
    exact hcur.stands_act h happl hf ha hund hun howner hhyphen hstands
  rcases passes_act std podFields kernelOf s a (node, .kivePolicy) with
    hsame | ⟨-, -, hstart⟩ | ⟨fault, op, k, rfl, hprog, hnext⟩
  · refine ⟨fun p hp hplive => ?_, ?_, fun config hconfig => ?_⟩
    · rw [hsame] at hp
      exact hpolicies p (hcur.policies p hp hplive)
    · rw [hsame, hpods]
      exact hcur.pods
    · rw [hsame] at hconfig ⊢
      obtain ⟨site, cd, hfound, rfl, hstands⟩ := hcur.applied config hconfig
      exact ⟨site, cd, hfound, rfl, hstays site cd hfound hstands⟩
  · refine ⟨fun p hp => ?_, ?_, fun config hconfig => ?_⟩
    · rw [hstart] at hp
      exact absurd hp (not_listsKivePolicy_nil p)
    · rw [hstart]
      exact fun _ _ _ hmem => by cases hmem
    · rw [hstart] at hconfig
      cases hconfig
  · obtain rfl : fault = none := by simpa using hund.1
    have hcall : PolicyPassCall std (kernelOf node) (s.passes (node, .kivePolicy)).log op :=
      h.keeps.passCall hprog
    refine ⟨fun p hp hplive => ?_, ?_, fun config hconfig => ?_⟩
    · rw [hnext] at hp
      rcases listsKivePolicy_append hp with hbefore | ⟨reader, rfl, hread⟩
      · exact hpolicies p (hcur.policies p hbefore hplive)
      · obtain rfl : reader = .uncached := hcall
        exact hpolicies p ⟨p, hread, hplive, rfl⟩
    · rw [hnext, hpods]
      intro labels fields ps hmem
      rcases List.mem_append.mp hmem with hmem | hmem
      · exact hcur.pods labels fields ps hmem
      · obtain ⟨rfl, heq⟩ := Sigma.mk.inj (List.mem_singleton.mp hmem)
        exact fun pod hpod => mem_of_listPods (eq_of_heq heq).symm hpod
    · rw [hnext] at hconfig ⊢
      dsimp only at hconfig ⊢
      have hmono : ∀ {site cd}, Found (s.passes (node, .kivePolicy)).log site cd →
          Found ((s.passes (node, .kivePolicy)).log ++ [⟨op, (runnerHandle std podFields kernelOf
            (node, .kivePolicy) none op s.world).1⟩]) site cd :=
        fun hfound => ⟨List.mem_append_left _ hfound.1, hfound.2⟩
      rw [appliedBy_append] at hconfig
      rcases List.mem_append.mp hconfig with hconfig | hconfig
      · obtain ⟨site, cd, hfound, rfl, hstands⟩ := hcur.applied config hconfig
        exact ⟨site, cd, hmono hfound, rfl, hstays site cd hfound hstands⟩
      · obtain ⟨site, rfl⟩ := mem_appliedBy_singleton.mp hconfig
        obtain ⟨cd, hfound, rfl, hforce⟩ := hcur.applies h happl hprog
        refine ⟨site, cd, hmono hfound, rfl, ?_⟩
        have hafresh := hun.1
        unfold AppliesAfresh at hafresh
        dsimp only at hafresh
        rw [hprog] at hafresh
        rw [act_call hprog]
        exact standing_apply hforce hafresh

end Act

/-! ## Runs -/

/-- A policy pass of the node that was started in the course of the actions has come to its end, and
has found a file for a site. -/
def FoundSince (std : Std) (podFields : PodFields) (kernelOf : String → String) (node : String)
    (actions : List Action) (s : System) (site : Site) (cd : ContainerData) : Prop :=
  ∃ front back rest, actions = front ++ .start (node, .kivePolicy) :: back ++ rest ∧
    ((run std podFields kernelOf front s).passes (node, .kivePolicy)).Finished ∧
    ((run std podFields kernelOf (front ++ .start (node, .kivePolicy) :: back) s).passes
      (node, .kivePolicy)).Finished ∧
    Found ((run std podFields kernelOf (front ++ .start (node, .kivePolicy) :: back) s).passes
      (node, .kivePolicy)).log site cd

end System

/-- For every file that a policy pass has found which was started after the last change there is a
KiveData with the identifier of a trap, and its key is in the map, once no data pass is pending. -/
def AppliedKept (std : Std) (podFields : PodFields) (kernelOf : String → String)
    (before after : List Action) (w : World) : Prop :=
  let s := System.run std podFields kernelOf (before ++ after) (.ofWorld w)
  ∀ node site cd,
    System.FoundSince std podFields kernelOf node after
      (System.run std podFields kernelOf before (.ofWorld w)) site cd →
    System.NonePending std podFields kernelOf (kernelOf node) (before ++ after) (.ofWorld w) →
    ∃ x ∈ s.world.cluster.kiveData.items,
      keyOf x = (operatorNamespace, newKiveDataName cd.ino cd.devID site.pod site.container) ∧
      x.mapKey = ⟨cd.ino, cd.devID⟩ ∧ BearsLive std s.world.cluster.kivePolicies.items x ∧
      x.mapKey ∈ (s.world.kernels (kernelOf node)).tracedInodes

/-- The steps of passes leave the containers with their nodes. -/
lemma Action.OfPasses.knowsOwn {owner : String → String} {a : Action} (h : a.OfPasses) :
    a.KnowsOwn owner := by
  cases a with
  | changeHost node host => exact absurd h id
  | _ => trivial

/-- What is kept by all actions after the last change. -/
structure System.AfterChange (std : Std) (owner kernelOf : String → String) (pods : List Pod)
    (s : System) : Prop where
  regular : s.Regular std owner kernelOf
  applying : s.Applying std kernelOf pods
  pods : s.world.cluster.pods = pods

section Run

variable {std : Std} {podFields : PodFields} {owner kernelOf : String → String} {pods : List Pod}
  {s : System}

/-- Every step of a pass keeps what holds after the last change. -/
lemma System.AfterChange.act (h : s.AfterChange std owner kernelOf pods) {a : Action}
    (ha : a.OfPasses) (hund : s.Undisturbed kernelOf a) :
    (System.act std podFields kernelOf s a).AfterChange std owner kernelOf pods where
  regular := h.regular.act ha.knowsOwn
  applying := System.applying_act h.applying
  pods := (System.liveOn_act std podFields kernelOf ha hund).2.trans h.pods

/-- While no data pass judges with a stale view, what the policy pass of a node has read and applied
stays as it was. -/
lemma System.AfterChange.current_act (h : s.AfterChange std owner kernelOf pods) {node : String}
    (hcur : s.Current std kernelOf node) (hf : podFields.Standard) {a : Action} (ha : a.OfPasses)
    (hund : s.Undisturbed kernelOf a) (hun : s.Unhurried std podFields a) :
    (System.act std podFields kernelOf s a).Current std kernelOf node :=
  hcur.act h.regular (h.pods ▸ h.applying) hf ha hund hun

/-- The invariants hold after any actions from a fresh world. -/
lemma System.regular_run {w : World} (hw : w.Fresh)
    (hhosts : ∀ node, KnowsOwn owner node (w.hosts node)) {actions : List Action}
    (hactions : ∀ a ∈ actions, a.KnowsOwn owner) (pods : List Pod) :
    let s := System.run std podFields kernelOf actions (.ofWorld w)
    s.Regular std owner kernelOf ∧ s.Applying std kernelOf pods := by
  refine System.run_induction_of (P := fun _ _ => True)
    (I := fun s => s.Regular std owner kernelOf ∧ s.Applying std kernelOf pods)
    (fun s a ha _ h => ⟨h.1.act (hactions a ha), System.applying_act h.2⟩)
    (System.along_of_forall (fun _ _ => trivial) _) ⟨?_, fun _ _ => applied_nil⟩
  exact ⟨System.keepsTo_ofWorld w, System.searches_ofWorld w, System.allBelong_ofWorld hw hhosts,
    fun _ _ _ h => by cases h.1⟩

/-- A pass at its end has applied a KiveData for each file that it has found. -/
lemma System.Current.stands_of_finished {node : String} (hcur : s.Current std kernelOf node)
    (h : s.AfterChange std owner kernelOf pods)
    (hfin : (s.passes (node, .kivePolicy)).Finished) {site : Site} {cd : ContainerData}
    (hfound : Found (s.passes (node, .kivePolicy)).log site cd) :
    s.Stands std (keyOf (kiveDataFor std (kernelOf node) (site, cd))) := by
  obtain ⟨o, ho⟩ := hfin
  have happlied : Applied std (kernelOf node) (s.passes (node, .kivePolicy)).log :=
    h.applying.ret ho rfl
  obtain ⟨-, -, hrequeue⟩ := h.regular.finds _ site cd hfound
  have hmem : (site, cd) ∈ foundBy (s.passes (node, .kivePolicy)).log :=
    List.mem_filterMap.mpr ⟨_, hfound.1, by simp [hrequeue, hfound.2]⟩
  obtain ⟨-, -, -, -, hstands⟩ := hcur.applied (kiveDataFor std (kernelOf node) (site, cd))
    (happlied ▸ List.mem_map_of_mem hmem)
  exact hstands

/-- After a run of passes whose first one has come to its end, what it has found stands. -/
lemma System.AfterChange.stands_run (h : s.AfterChange std owner kernelOf pods)
    (hf : podFields.Standard) {after : List Action} (hafter : ∀ a ∈ after, a.OfPasses)
    (hP : System.Along std podFields kernelOf
      (fun s a => s.Undisturbed kernelOf a ∧ s.Unhurried std podFields a) after s)
    {node : String} {site : Site} {cd : ContainerData}
    (hfound : System.FoundSince std podFields kernelOf node after s site cd) :
    owner (containerIDPart site.container.containerID) = node ∧
      NoHyphen (containerIDPart site.container.containerID) ∧
      let s' := System.run std podFields kernelOf after s
      s'.AfterChange std owner kernelOf pods ∧
        s'.Stands std (keyOf (kiveDataFor std (kernelOf node) (site, cd))) := by
  obtain ⟨front, back, rest, rfl, hready, hfin, hfound⟩ := hfound
  obtain ⟨⟨hfront, hstart, hback⟩, hrest⟩ :=
    (System.along_append.mp hP).imp_left System.along_append.mp
  -- up to the start of the pass
  have h₁ := System.run_induction_of (I := fun s => s.AfterChange std owner kernelOf pods)
    (fun s a ha hP h => h.act (hafter a (by simp [ha])) hP.1) hfront h
  set s₁ := System.run std podFields kernelOf front s
  have hcur : (System.act std podFields kernelOf s₁
      (.start (node, .kivePolicy))).Current std kernelOf node := by
    rw [System.act, if_pos hready]
    refine ⟨fun p hp => ?_, fun _ _ _ hmem => ?_, fun config hconfig => ?_⟩
    · rw [System.setPass_passes_self] at hp
      exact absurd hp (not_listsKivePolicy_nil p)
    · rw [System.setPass_passes_self] at hmem
      cases hmem
    · rw [System.setPass_passes_self] at hconfig
      cases hconfig
  -- during the pass
  have h₂ := System.run_induction_of
    (I := fun s => s.AfterChange std owner kernelOf pods ∧ s.Current std kernelOf node)
    (fun s a ha hP h => ⟨h.1.act (hafter a (by simp [ha])) hP.1,
      h.1.current_act h.2 hf (hafter a (by simp [ha])) hP.1 hP.2⟩)
    hback ⟨h₁.act (hafter _ (by simp)) hstart.1, hcur⟩
  have hrun : System.run std podFields kernelOf (front ++ .start (node, .kivePolicy) :: back) s =
      System.run std podFields kernelOf back (System.act std podFields kernelOf s₁
        (.start (node, .kivePolicy))) := by rw [System.run_append]; rfl
  rw [System.run_append, hrun]
  rw [hrun] at hfin hfound hrest
  obtain ⟨howner, hhyphen⟩ := h₂.1.regular.belong.found _ site cd hfound
  -- and after it
  have h₃ := System.run_induction_of
    (I := fun s => (s.AfterChange std owner kernelOf pods ∧ s.Current std kernelOf node) ∧
      s.Stands std (keyOf (kiveDataFor std (kernelOf node) (site, cd))))
    (fun s a ha hP h => ⟨⟨h.1.1.act (hafter a (by simp [ha])) hP.1,
      h.1.1.current_act h.1.2 hf (hafter a (by simp [ha])) hP.1 hP.2⟩,
      h.1.2.stands_act h.1.1.regular (h.1.1.pods ▸ h.1.1.applying) hf (hafter a (by simp [ha]))
        hP.1 hP.2 howner hhyphen h.2⟩)
    hrest ⟨h₂, h₂.2.stands_of_finished h₂.1 hfin hfound⟩
  exact ⟨howner, hhyphen, h₃.1.1, h₃.2⟩

end Run

/-- What policy passes apply after the last change of policies, pods and containers stays and gets
its key, if nothing is applied to a KiveData that is being deleted and no KiveData is deleted for
what is not so any more. -/
theorem appliedKept_run (std : Std) {podFields : PodFields} (hf : podFields.Standard)
    {owner kernelOf loader : String → String} {w : World} (hw : w.Fresh)
    (hhosts : ∀ node, KnowsOwn owner node (w.hosts node)) {before after : List Action}
    (hbefore : ∀ a ∈ before, a.KnowsOwn owner ∧ System.OnLoader kernelOf loader a)
    (hafter : ∀ a ∈ after, a.OfPasses ∧ System.OnLoader kernelOf loader a)
    (hund : System.Along std podFields kernelOf (System.Undisturbed kernelOf) (before ++ after)
      (.ofWorld w))
    (hun : System.Along std podFields kernelOf (System.Unhurried std podFields) after
      (System.run std podFields kernelOf before (.ofWorld w))) :
    AppliedKept std podFields kernelOf before after w := by
  intro node site cd hfound hnone
  obtain ⟨hregular, happlying⟩ := System.regular_run hw hhosts (fun a ha => (hbefore a ha).1)
    (System.run std podFields kernelOf before (.ofWorld w)).world.cluster.pods
  obtain ⟨howner, hhyphen, hend, x, hx, hkey, hforce⟩ :=
    System.AfterChange.stands_run ⟨hregular, happlying, rfl⟩ hf (fun a ha => (hafter a ha).1)
      ((System.along_append.mp hund).2.and hun) hfound
  rw [← System.run_append] at hend hx hforce
  -- the name tells the file and the kernel
  have hbelongs : Belongs owner kernelOf (kiveDataFor std (kernelOf node) (site, cd)) :=
    belongs_kiveDataFor std howner hhyphen cd
  obtain ⟨hmap, hkernel⟩ := (hend.regular.belong.stored x hx).same hbelongs hkey
  have hof : OfKernel (kernelOf node) x := by
    refine (hkernel (kernelOf node)).mpr ?_
    simp [OfKernel, kiveDataFor, KivePolicyReconciler.newKiveData, StrMap.ofEntries]
  refine ⟨x, hx, hkey, hmap, hforce.bears, ?_⟩
  have hloader : ∀ a ∈ before ++ after, System.OnLoader kernelOf loader a := fun a ha =>
    (List.mem_append.mp ha).elim (fun ha => (hbefore a ha).2) fun ha => (hafter a ha).2
  exact System.traced_of_nonePending hloader hund hnone hx hof hforce.live

/-! ## A trap that is edited -/

namespace EditedTrap

open StaleKeys (world fresh_world knowsOwn_world)
open TrapRecords (policy trap)

def std : Std := .ofDigests
  [("\x7b\"path\":\"/data\",\"callback\":\"http://one\",\"matchAny\":[\x7b\x7d]\x7dv1",
    "960cc3ef0953bb5a1136fed5340fce0c56830243cae10bfb4332fb234ac22b01"),
   ("\x7b\"path\":\"/data\",\"callback\":\"http://two\",\"matchAny\":[\x7b\x7d]\x7dv1",
    "b90660a168df5d6713d633d36c71ff97e5811df4ee82bb31874e1670f15f996d")]

/-- Some calls of the policy pass that is at work. -/
def policyCalls (n : ℕ) : List Action := List.replicate n (.call ("node", .kivePolicy) none)

/-- Some calls of the data pass that is at work. -/
def dataCalls (n : ℕ) : List Action := List.replicate n (.call ("node", .kiveData) none)

/-- A data pass that finds its caches up to date. -/
def dataPass (moment calls : ℕ) : List Action :=
  [.seeKiveData "k1" moment, .seeKivePolicies "k1" moment, .start ("node", .kiveData)] ++
    dataCalls calls

/-- A whole policy pass. -/
def policyPass : List Action := .start ("node", .kivePolicy) :: policyCalls 7

/-- The callback of the trap is edited after its KiveData has been applied. -/
def before : List Action :=
  policyPass ++ [.changeKivePolicies (.ofList [policy [trap "/data" "http://two"]])]

/-- A data pass marks the KiveData for deletion, and the next one removes its key. -/
def marked : List Action := dataPass 8 5 ++ dataPass 13 4

/-- Before that one removes the finalizer, a policy pass applies the KiveData of the edited trap.
A third data pass finds nothing. -/
def after : List Action := marked ++ policyPass ++ dataCalls 1 ++ dataPass 25 3

/-- The trap is not edited, and the passes come one after the other. -/
def calm : List Action := policyPass ++ dataPass 7 6

abbrev run (actions : List Action) : System :=
  System.run std .standard (fun _ => "k1") actions (.ofWorld world)

def site : Site :=
  ⟨policy [trap "/data" "http://two"], trap "/data" "http://two", TrapRecords.pod,
    ⟨"main", "containerd://aa", true⟩⟩

def file : ContainerData where
  ino := 7
  devID := 8388609
  id := "containerd://aa"
  name := "main"
  isFound := true

/-- Containers stay on the node, the one loader works for the kernel, and after the edit passes
alone are at work. -/
lemma regular : (∀ a ∈ before, a.KnowsOwn (fun _ => "node") ∧
      System.OnLoader (fun _ => "k1") (fun _ => "node") a) ∧
    ∀ a ∈ after ++ calm, a.OfPasses ∧ System.OnLoader (fun _ => "k1") (fun _ => "node") a := by
  simp [before, after, calm, marked, policyPass, dataPass, policyCalls, dataCalls, Action.KnowsOwn,
    Action.OfPasses, System.OnLoader]

/-- How far the passes have come in the course of it. -/
lemma evaluated :
    let s := run before
    let r : Runner := ("node", .kivePolicy)
    let s' := System.run std .standard (fun _ => "k1")
      (marked ++ .start r :: policyCalls 7) s
    ((System.run std .standard (fun _ => "k1") marked s).passes r).Finished ∧
      (s'.passes r).Finished ∧ (site, file) ∈ foundBy (s'.passes r).log := by
  decide +kernel

/-- The file is found by a policy pass that was started after the edit. -/
lemma foundSince : System.FoundSince std .standard (fun _ => "k1") "node" after (run before) site
    file := by
  obtain ⟨hready, hfin, hfound⟩ := evaluated
  exact ⟨marked, policyCalls 7, dataCalls 1 ++ dataPass 25 3, by simp [after, policyPass], hready,
    hfin, found_of_mem_foundBy hfound⟩

/-- Up to where the last data pass is started. -/
def front : List Action :=
  before ++ marked ++ policyPass ++ dataCalls 1 ++ [.seeKiveData "k1" 25, .seeKivePolicies "k1" 25]

/-- The last data pass comes to its end without a change, and no KiveData is left. -/
lemma evaluated_last :
    let r : Runner := ("node", .kiveData)
    let s := System.act std .standard (fun _ => "k1") (run front) (.start r)
    let s' := System.run std .standard (fun _ => "k1") (dataCalls 3) s
    ((run front).passes r).Finished ∧
      System.Along std .standard (fun _ => "k1")
        (System.Unchanging std .standard fun _ => "k1") (dataCalls 3) s ∧
      (s'.passes r).Finished ∧ s'.world.cluster.kiveData.items = [] := by
  decide +kernel

/-- The run up to the last data pass, and that pass. -/
lemma front_append : before ++ after = front ++ .start ("node", .kiveData) :: dataCalls 3 := by
  simp [front, after, dataPass]

/-- The run ends where the last data pass ends. -/
lemma run_after : run (before ++ after) = System.run std .standard (fun _ => "k1") (dataCalls 3)
    (System.act std .standard (fun _ => "k1") (run front) (.start ("node", .kiveData))) := by
  simp only [run, front_append, System.run, List.foldl_append, List.foldl_cons]

/-- No KiveData is left. -/
lemma items_after : (run (before ++ after)).world.cluster.kiveData.items = [] := by
  obtain ⟨-, -, -, hitems⟩ := evaluated_last
  rw [← run_after] at hitems
  exact hitems

/-- No data pass is pending. -/
lemma nonePending : System.NonePending std .standard (fun _ => "k1") "k1" (before ++ after)
    (.ofWorld world) := by
  obtain ⟨hready, hsame, hfin, -⟩ := evaluated_last
  rw [← run_after] at hfin
  refine ⟨"node", front, dataCalls 3, rfl, front_append, ?_, hsame, ?_⟩
  · simpa only [run] using hready
  · simpa only [run] using hfin

end EditedTrap

open EditedTrap StaleKeys in
/-- A policy pass and then a data pass. -/
theorem appliedKept_calm :
    AppliedKept EditedTrap.std .standard (fun _ => "k1") [] calm StaleKeys.world :=
  appliedKept_run EditedTrap.std PodFields.standard_standard fresh_world
    knowsOwn_world (fun _ h => by cases h)
    (fun a ha => EditedTrap.regular.2 a (List.mem_append_right _ ha))
    (by decide +kernel) (by decide +kernel)

open EditedTrap StaleKeys in
/-- A policy pass applies the KiveData of an edited trap while a data pass is deleting the old one,
which has the same name.  The KiveData goes away with its finalizer, and no pass is pending. -/
theorem appliedKept_counterexample :
    StaleKeys.world.Fresh ∧
      (∀ node, KnowsOwn (fun _ => "node") node (StaleKeys.world.hosts node)) ∧
      (∀ a ∈ before, a.KnowsOwn (fun _ => "node") ∧
        System.OnLoader (fun _ => "k1") (fun _ => "node") a) ∧
      (∀ a ∈ EditedTrap.after, a.OfPasses ∧
        System.OnLoader (fun _ => "k1") (fun _ => "node") a) ∧
      System.Along EditedTrap.std .standard (fun _ => "k1") (System.Undisturbed fun _ => "k1")
        (before ++ EditedTrap.after) (.ofWorld StaleKeys.world) ∧
      ¬ AppliedKept EditedTrap.std .standard (fun _ => "k1") before EditedTrap.after
        StaleKeys.world := by
  refine ⟨fresh_world, knowsOwn_world, EditedTrap.regular.1,
    fun a ha => EditedTrap.regular.2 a (List.mem_append_left _ ha), by decide +kernel, ?_⟩
  intro h
  obtain ⟨x, hx, -⟩ := h "node" site file foundSince nonePending
  have hitems := items_after
  simp only [EditedTrap.run] at hitems
  simp only [hitems, List.not_mem_nil] at hx

end Kive
