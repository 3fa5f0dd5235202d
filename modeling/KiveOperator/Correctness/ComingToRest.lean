import KiveOperator.Controller.DataRun
import KiveOperator.Controller.AskedSites
import KiveOperator.Controller.System
import KiveOperator.Correctness.WakeUps
import KiveOperator.Library.Rest
import Mathlib.Data.Prod.Lex

/-!
# The controllers come to rest

A pass is run when an object of its kind has changed or when it has asked to be run again, and each
pass may change objects of the kinds after its own.  With all pods running and ready a policy pass
does not ask to be run again, and a data pass does something only as long as there is something left
to do. A pod pass asks for it whenever a pod of a KiveData has not come to its end, also when that
pod is running and ready, so that it does so for ever.  `comesToRest_iff` says that nothing else
keeps the controllers from coming to rest.
-/

namespace Kive

open Interaction Object

/-! ## Passes that wait -/

/-- A cluster, and the passes that are to be run. -/
structure Waiting where
  world : World
  passes : Finset Runner

/-- A pass is run again if it asks for it or ends with an error. -/
def Outcome.asksAgain : Outcome → Bool
  | .ok r => r.requeue
  | .error _ => true

section Passes

variable (std : Std) (podFields : PodFields) (kernelOf : String → String)

/-- A pass with current caches, some time later. -/
def runPass (w : World) (r : Runner) (seconds : ℕ) : Outcome × Watched :=
  (r.2.reconcile std (kernelOf r.1)).run (watch std podFields r.1 (kernelOf r.1))
    { world := ({ w with clock := w.clock + seconds }).refreshCaches (kernelOf r.1) }

/-- What waits after a pass: what waited before, the pass itself if it asks for it, and the passes
of the controllers whose objects have changed, on each node. -/
def Waiting.after (nodes : Finset String) (s : Waiting) (r : Runner) (seconds : ℕ) : Waiting :=
  let ran := runPass std podFields kernelOf s.world r seconds
  { world := ran.2.world
    passes := s.passes.erase r ∪ (if ran.1.asksAgain then {r} else ∅) ∪
      (if ran.2.kivePoliciesChanged then nodes.image fun node => (node, .kivePolicy) else ∅) ∪
      (if ran.2.kiveDataChanged then nodes.image fun node => (node, .kiveData) else ∅) }

/-- One of the passes that wait is run. -/
def Waiting.Step (nodes : Finset String) (s s' : Waiting) : Prop :=
  ∃ r ∈ s.passes, ∃ seconds, s' = s.after std podFields kernelOf nodes r seconds

/-- A pod has changed, which a node is told. -/
def Waiting.ofPodEvent (node : String) (w : World) : Waiting where
  world := w
  passes := {(node, .kivePod)}

end Passes

/-! ## The assumptions -/

/-- Every pod is running, and every container is ready. -/
def PodsReady (pods : List Pod) : Prop :=
  ∀ pod ∈ pods, pod.phase = .running ∧ ∀ c ∈ pod.containerStatuses, c.ready = true

instance (pods : List Pod) : Decidable (PodsReady pods) :=
  inferInstanceAs (Decidable (∀ pod ∈ pods, _))

/-- Every policy has the finalizer, and none is being deleted. -/
def PoliciesSettled (policies : List KivePolicy) : Prop :=
  ∀ p ∈ policies, ¬ Deleting p ∧ containsFinalizer p kivePolicyFinalizerName = true

instance (policies : List KivePolicy) : Decidable (PoliciesSettled policies) :=
  inferInstanceAs (Decidable (∀ p ∈ policies, _))

/-- A KiveData of the kernel is for a pod that exists. -/
def HasRecordedPod (kernelID : String) (w : World) : Prop :=
  ∃ d ∈ w.cluster.kiveData.items, OfKernel kernelID d ∧
    ∃ pod ∈ w.cluster.pods, KivePodReconciler.isRecordedPod d pod = true

instance (kernelID : String) (w : World) : Decidable (HasRecordedPod kernelID w) :=
  inferInstanceAs (Decidable (∃ d ∈ w.cluster.kiveData.items, _))

/-! ## What all passes leave alone -/

/-- The pods and the policies are as they were. -/
structure SamePolicies (v v' : Watched) : Prop where
  pods : v'.world.cluster.pods = v.world.cluster.pods
  kivePolicies : v'.world.cluster.kivePolicies = v.world.cluster.kivePolicies
  changed : v'.kivePoliciesChanged = v.kivePoliciesChanged

/-- Nothing has been changed. -/
lemma SamePolicies.refl (v : Watched) : SamePolicies v v := ⟨rfl, rfl, rfl⟩

/-- Two stretches without a change. -/
lemma SamePolicies.trans {v₁ v₂ v₃ : Watched} (h₁ : SamePolicies v₁ v₂) (h₂ : SamePolicies v₂ v₃) :
    SamePolicies v₁ v₃ :=
  ⟨h₂.pods.trans h₁.pods, h₂.kivePolicies.trans h₁.kivePolicies, h₂.changed.trans h₁.changed⟩

section Watch

variable (std : Std) (podFields : PodFields) (node kernelID : String)

/-- All calls but the patches of policies. -/
lemma samePolicies_watch {op : Call} (hop : ∀ orig modified, op ≠ .patchKivePolicy orig modified)
    (v : Watched) : SamePolicies v (watch std podFields node kernelID op v).2 := by
  have hpods := pods_run std podFields node kernelID (Prog.perform op) v.world
  have hpolicies := kivePolicies_run std podFields node kernelID (p := Prog.perform op)
    ⟨hop, fun _ => trivial⟩ v.world
  refine ⟨hpods, hpolicies, ?_⟩
  rw [Prog.run_perform] at hpolicies
  simp [watch, hpolicies]

/-- A program that patches no policies. -/
lemma samePolicies_run {α : Type} {p : CallProg α}
    (hp : p.Only fun op => ∀ orig modified, op ≠ .patchKivePolicy orig modified) (v : Watched) :
    SamePolicies v (p.run (watch std podFields node kernelID) v).2 :=
  Prog.Only.run_induction (watch std podFields node kernelID) (Φ := fun _ v' => SamePolicies v v')
    (fun _ _ v' hop h => h.trans (samePolicies_watch std podFields node kernelID hop v')) hp [] v
    (SamePolicies.refl v)

/-! ## Policy passes -/

/-- A part of a policy pass comes to its end where all pods are ready, and changes no policy. -/
def Completes {α : Type} (p : Pass α) : Prop :=
  ∀ v : Watched, PodsReady v.world.cluster.pods →
    ∃ a v', Prog.runE (watch std podFields node kernelID) p v = (.ok a, v') ∧ SamePolicies v v'

variable {std podFields node kernelID}

/-- A part that returns at once. -/
lemma completes_pure {α : Type} (a : α) : Completes std podFields node kernelID (pure a) :=
  fun v _ => ⟨a, v, rfl, SamePolicies.refl v⟩

/-- Two parts in a row. -/
lemma Completes.bind {α β : Type} {p : Pass α} {f : α → Pass β}
    (hp : Completes std podFields node kernelID p)
    (hf : ∀ a, Completes std podFields node kernelID (f a)) :
    Completes std podFields node kernelID (p >>= f) := by
  intro v hv
  obtain ⟨a, v₁, hrun₁, hsame₁⟩ := hp v hv
  obtain ⟨b, v₂, hrun₂, hsame₂⟩ := hf a v₁ (hsame₁.pods ▸ hv)
  refine ⟨b, v₂, ?_, hsame₁.trans hsame₂⟩
  rw [Prog.runE_bind, hrun₁, Prog.continueE_ok, hrun₂]

/-- A call, whose answer decides what follows. -/
lemma completes_call {β : Type} {op : Call}
    (hop : ∀ orig modified, op ≠ .patchKivePolicy orig modified) {f : op.Answer → Pass β}
    (hf : ∀ v : Watched, PodsReady v.world.cluster.pods →
      Completes std podFields node kernelID (f (watch std podFields node kernelID op v).1)) :
    Completes std podFields node kernelID (liftM (Prog.perform op : CallProg op.Answer) >>= f) := by
  intro v hv
  have hsame := samePolicies_watch std podFields node kernelID hop v
  obtain ⟨b, v', hrun, hsame'⟩ := hf v hv _ (hsame.pods ▸ hv)
  refine ⟨b, v', ?_, hsame.trans hsame'⟩
  rw [Prog.runE_bind, Prog.runE_lift, Prog.run_perform, Prog.continueE_ok, hrun]

section Loops

variable {p : KivePolicy} {t : KiveTrap} {trapID : String} {g : KiveTrapMatch}

/-- What is done about a container that is running and ready. -/
lemma completes_containerStep {pod : Pod} {c : ContainerStatus} (hphase : pod.phase = .running)
    (hready : c.ready = true) (matched : List String) :
    Completes std podFields node kernelID
      (KivePolicyReconciler.containerStep std kernelID p t trapID g pod c matched) := by
  unfold KivePolicyReconciler.containerStep
  cases regexMatch std g.containerName c.name with
  | error err => exact completes_pure matched
  | ok b =>
    cases b with
    | false => exact completes_pure matched
    | true =>
      dsimp only
      rw [if_neg (not_not.mpr hphase)]
      split_ifs with hmem
      · exact completes_pure matched
      · refine completes_call (by simp) fun v _ => ?_
        have hanswer := (returns_getContainerData hready t).run Host.handle (v.world.hosts node)
        have hcall : (watch std podFields node kernelID (.getContainerData ⟨p, t, pod, c⟩)
            v).1 = ((getContainerData c t).run Host.handle (v.world.hosts node)).1 := rfl
        rw [hcall]
        cases hr : ((getContainerData c t).run Host.handle (v.world.hosts node)).1 with
        | error err => exact completes_pure _
        | ok cd =>
          dsimp only
          rw [hanswer cd hr, if_neg (by simp)]
          split_ifs with hfound
          · exact completes_pure _
          · exact completes_call (by simp) fun _ _ => completes_pure _

/-- The pods that are listed are some of those that there are. -/
lemma podsReady_listPods {labels : StrMap} {fields : List (String × String)} {pods ps : List Pod}
    (hready : PodsReady pods) (h : listPods podFields labels fields pods = .ok ps) :
    PodsReady ps := fun pod hpod => hready pod (mem_of_listPods h hpod)

variable (std podFields node kernelID) in
/-- Parts that complete can be put together. -/
lemma composed_completes : Composed fun _ q => Completes std podFields node kernelID q :=
  ⟨completes_pure, Completes.bind⟩

/-- The loop over the traps completes. -/
lemma completes_trapLoop (traps : List KiveTrap) :
    Completes std podFields node kernelID
      (KivePolicyReconciler.trapLoop std kernelID p traps) := by
  refine (composed_completes std podFields node kernelID).trapLoop (fun _ ps => PodsReady ps)
    (fun g _ f herr hok => completes_call (by simp) fun v hv => ?_)
    fun t _ g _ ps hps pod hpod c hc => ?_
  · have hanswer : (watch std podFields node kernelID
        (.listPods g.matchLabels (KivePolicyReconciler.matchingFields g)) v).1 =
        listPods podFields g.matchLabels (KivePolicyReconciler.matchingFields g)
          v.world.cluster.pods := rfl
    rw [hanswer]
    cases hlist : listPods podFields g.matchLabels (KivePolicyReconciler.matchingFields g)
        v.world.cluster.pods with
    | error err => exact herr err
    | ok ps => exact hok ps (podsReady_listPods hv hlist)
  · exact completes_containerStep (hps pod hpod).1 ((hps pod hpod).2 c hc)

variable (std podFields node kernelID) in
/-- The loop over policies that have their finalizers, or are gone, completes. -/
lemma completes_policyLoop {items : List KivePolicy} (hitems : PoliciesSettled items) :
    Completes std podFields node kernelID
      (KivePolicyReconciler.policyLoop std kernelID items) := by
  refine (composed_completes std podFields node kernelID).policyLoop fun p hp => ?_
  obtain ⟨hdel, hfin⟩ := hitems p hp
  rw [policyStep_of_not_due fun hdue => hdel (hdue.mpr hfin), if_neg hdel]
  exact completes_trapLoop p.spec.traps

end Loops

variable (std podFields node kernelID)

/-- The wake-up of the data reconciler. -/
lemma run_triggerKiveData (v : Watched) :
    ∃ v', Prog.runE (watch std podFields node kernelID) KivePolicyReconciler.triggerKiveData v =
      (.ok done, v') ∧ SamePolicies v v' := by
  have hsame : SamePolicies v (Prog.runE (watch std podFields node kernelID)
      KivePolicyReconciler.triggerKiveData v).2 := by
    refine samePolicies_run std podFields node kernelID ?_ v
    have honly : KivePolicyReconciler.triggerKiveData.run.Only
        (PolicyCall std kernelID fun _ => False) := only_triggerKiveData std kernelID
    refine honly.mono ?_
    rintro op hop orig modified rfl
    exact hop.1
  have hdone : (Prog.runE (watch std podFields node kernelID)
      KivePolicyReconciler.triggerKiveData v).1 = .ok done := by
    rw [KivePolicyReconciler.triggerKiveData, Prog.runE_bind, Prog.runE_lift, Client.listKiveData,
      Prog.run_perform, Prog.continueE_ok]
    have hanswer : (watch std podFields node kernelID (.listKiveData .uncached ∅) v).1 =
        .ok (listKiveData ∅ v.world.cluster.kiveData.items) := rfl
    rw [hanswer]
    cases listKiveData ∅ v.world.cluster.kiveData.items <;> rfl
  exact ⟨_, Prod.ext hdone rfl, hsame⟩

/-- A policy pass comes to its end, does not ask to be run again, and changes no policy. -/
lemma run_policyReconcile (v : Watched) (hready : PodsReady v.world.cluster.pods)
    (hpolicies : PoliciesSettled v.world.cluster.kivePolicies.items) :
    let r := (KivePolicyReconciler.reconcile std kernelID).run
      (watch std podFields node kernelID) v
    r.1 = done ∧ SamePolicies v r.2 := by
  intro r
  obtain ⟨_, v₁, hloop, hsame₁⟩ := completes_policyLoop std podFields node kernelID hpolicies
    (watch std podFields node kernelID (.listKivePolicies .uncached) v).2 hready
  obtain ⟨v₂, htrigger, hsame₂⟩ := run_triggerKiveData std podFields node kernelID v₁
  have hlist : SamePolicies v
      (watch std podFields node kernelID (.listKivePolicies .uncached) v).2 :=
    samePolicies_watch std podFields node kernelID (by simp) v
  have hanswer : (watch std podFields node kernelID (.listKivePolicies .uncached) v).1 =
      .ok v.world.cluster.kivePolicies.items := rfl
  have hr : r = (done, v₂) := by
    change (KivePolicyReconciler.reconcile std kernelID).run _ v = _
    rw [KivePolicyReconciler.reconcile, Pass.run_toProg, Prog.runE_bind, Prog.runE_lift,
      Client.listKivePolicies, Prog.run_perform, Prog.continueE_ok, hanswer]
    dsimp only
    rw [Prog.runE_bind, hloop, Prog.continueE_ok, htrigger]
    rfl
  rw [hr]
  exact ⟨rfl, hlist.trans (hsame₁.trans hsame₂)⟩

/-! ## Data passes -/

/-- How many steps a KiveData is from being gone: it may get the finalizer, be marked for deletion
and lose the finalizer again. -/
def stepsLeft (d : KiveData) : ℕ :=
  if Deleting d then (if containsFinalizer d kiveDataFinalizerName then 1 else 0)
  else (if containsFinalizer d kiveDataFinalizerName then 2 else 3)

/-- The steps that all KiveData together may take. -/
def workLeft (items : List KiveData) : ℕ :=
  (items.map stepsLeft).sum

/-- A KiveData that takes a step leaves less to do. -/
lemma workLeft_replace_lt {items : List KiveData} (hnodup : items.Nodup) {d : KiveData}
    (hd : d ∈ items) {o : Option KiveData} (ho : (o.toList.map stepsLeft).sum < stepsLeft d) :
    workLeft (Store.replace items d o) < workLeft items := by
  obtain ⟨front, rest, hitems, hreplace⟩ := Store.exists_replace_eq hnodup hd
  rw [hreplace, hitems]
  simp only [workLeft, List.map_append, List.sum_append, List.map_cons, List.sum_cons]
  omega

/-- An object that may go away takes a step if what is left of it does. -/
lemma sum_settle_lt {d y : KiveData} (h : stepsLeft y < stepsLeft d) :
    ((settle y).toList.map stepsLeft).sum < stepsLeft d := by
  unfold settle
  split_ifs
  · exact Nat.lt_of_le_of_lt (Nat.zero_le _) h
  · simpa using h

/-- Taking the finalizer away leaves less to do. -/
lemma stepsLeft_removeFinalizer {d : KiveData} (hdel : Deleting d)
    (hfin : containsFinalizer d kiveDataFinalizerName = true) :
    stepsLeft (removeFinalizer d kiveDataFinalizerName) < stepsLeft d := by
  have hdel' : Deleting (removeFinalizer d kiveDataFinalizerName) := by
    simpa [Deleting, removeFinalizer] using hdel
  have hfin' : containsFinalizer (removeFinalizer d kiveDataFinalizerName)
      kiveDataFinalizerName = false := by
    simp [containsFinalizer, removeFinalizer]
  simp [stepsLeft, hdel, hfin, hdel', hfin']

/-- Adding the finalizer leaves less to do. -/
lemma stepsLeft_addFinalizer {d : KiveData} (hdel : ¬ Deleting d)
    (hfin : containsFinalizer d kiveDataFinalizerName = false) :
    stepsLeft (addFinalizer d kiveDataFinalizerName) < stepsLeft d := by
  have hdel' : ¬ Deleting (addFinalizer d kiveDataFinalizerName) := by
    simpa [Deleting, addFinalizer, hfin] using hdel
  simp [stepsLeft, hdel, hfin, hdel', containsFinalizer_addFinalizer]

/-- Marking for deletion leaves less to do. -/
lemma stepsLeft_markDeleted {d : KiveData} (hdel : ¬ Deleting d) :
    stepsLeft (Store.markDeleted.toFun d) < stepsLeft d := by
  have hdel' : Deleting (Store.markDeleted.toFun d) := by simp [Deleting, Store.markDeleted]
  rw [stepsLeft, if_pos hdel', stepsLeft, if_neg hdel]
  split_ifs <;> omega

/-- The KiveData are as they were, or there is less to do. -/
def Progress (v v' : Watched) : Prop :=
  (v'.world.cluster.kiveData.items = v.world.cluster.kiveData.items ∧
    v'.kiveDataChanged = v.kiveDataChanged) ∨
  workLeft v'.world.cluster.kiveData.items < workLeft v.world.cluster.kiveData.items

/-- Nothing has happened. -/
lemma Progress.refl (v : Watched) : Progress v v := Or.inl ⟨rfl, rfl⟩

/-- Two stretches, each of which may leave less to do. -/
lemma Progress.trans {v₁ v₂ v₃ : Watched} (h₁ : Progress v₁ v₂) (h₂ : Progress v₂ v₃) :
    Progress v₁ v₃ := by
  rcases h₁ with ⟨hitems, hchanged⟩ | h₁
  · rw [Progress, ← hitems, ← hchanged]
    exact h₂
  · rcases h₂ with ⟨hitems, -⟩ | h₂
    · exact Or.inr (hitems ▸ h₁)
    · exact Or.inr (h₂.trans h₁)

/-- A call that leaves the KiveData alone. -/
lemma progress_watch (op : Call) (hop : ¬ op.WritesKiveData) (v : Watched) :
    Progress v (watch std podFields node kernelID op v).2 := by
  have hsame := handle_kiveData std podFields node kernelID hop v.world
  refine Or.inl ⟨congrArg Store.items hsame, ?_⟩
  simp [watch, hsame]

/-- A program that leaves the KiveData alone. -/
lemma kiveData_run_watch {α : Type} {p : CallProg α} (hp : p.Only fun op => ¬ op.WritesKiveData)
    (v : Watched) :
    (p.run (watch std podFields node kernelID) v).2.world.cluster.kiveData =
        v.world.cluster.kiveData ∧
      Progress v (p.run (watch std podFields node kernelID) v).2 := by
  refine Prog.Only.run_induction (watch std podFields node kernelID)
    (Φ := fun _ v' => v'.world.cluster.kiveData = v.world.cluster.kiveData ∧ Progress v v')
    (fun _ op v' hop h => ?_) hp [] v ⟨rfl, Progress.refl v⟩
  exact ⟨(handle_kiveData std podFields node kernelID hop v'.world).trans h.1,
    h.2.trans (progress_watch std podFields node kernelID op hop v')⟩

/-- A patch of the finalizers of a stored KiveData takes it a step further. -/
lemma progress_patch {d d' : KiveData} {v : Watched} (hd : d ∈ v.world.cluster.kiveData.items)
    (hrefinalizes : Store.Refinalizes d d')
    (hforb : Deleting d → d'.objectMeta.finalizers ⊆ d.objectMeta.finalizers)
    (hsteps : stepsLeft d' < stepsLeft d) :
    (watch std podFields node kernelID (.patchKiveData d d') v).1 = .ok () ∧
      Progress v (watch std podFields node kernelID (.patchKiveData d d') v).2 := by
  obtain ⟨hok, hitems⟩ := Store.patch_of_refinalizes hd hrefinalizes hforb
  refine ⟨hok, Or.inr ?_⟩
  change workLeft (v.world.cluster.kiveData.patch (keyOf d') (Store.mergeFrom d d')).2.items < _
  rw [hitems]
  exact workLeft_replace_lt v.world.cluster.kiveData.items_nodup hd (sum_settle_lt hsteps)

/-- So does its deletion, which leaves the others alone. -/
lemma progress_delete {d : KiveData} {v : Watched} (hd : d ∈ v.world.cluster.kiveData.items)
    (hdel : ¬ Deleting d) :
    let v' := (watch std podFields node kernelID (.deleteKiveData d) v).2
    Progress v v' ∧ ∀ x ∈ v.world.cluster.kiveData.items, x ≠ d →
      x ∈ v'.world.cluster.kiveData.items := by
  intro v'
  have hitems : v'.world.cluster.kiveData.items = Store.replace v.world.cluster.kiveData.items d
      (settle (Store.markDeleted.toFun d)) := by
    change (v.world.cluster.kiveData.delete (keyOf d)).2.items = _
    rw [Store.delete, Store.find?_eq_some_iff.mpr ⟨hd, rfl⟩]
    exact Store.items_update_of_mem hd
  rw [Progress, hitems]
  refine ⟨Or.inr ?_, fun x hx hne => List.mem_filterMap.mpr ⟨x, hx, if_neg hne⟩⟩
  exact workLeft_replace_lt v.world.cluster.kiveData.items_nodup hd
    (sum_settle_lt (stepsLeft_markDeleted hdel))

/-- A judgement marks the KiveData for deletion or leaves all KiveData alone. -/
lemma progress_judge (policies : List KivePolicy) {d : KiveData} {v : Watched}
    (hd : d ∈ v.world.cluster.kiveData.items) (hdel : ¬ Deleting d) :
    let v' := ((KiveDataReconciler.judge std policies d).run
      (watch std podFields node kernelID) v).2
    Progress v v' ∧ ∀ x ∈ v.world.cluster.kiveData.items, x ≠ d →
      x ∈ v'.world.cluster.kiveData.items := by
  have hlists : (KiveDataReconciler.policyLoop std d policies false).Only
      fun op => ¬ op.WritesKiveData := by
    refine (KiveDataReconciler.only_policyLoop std d policies false).mono ?_
    rintro op ⟨labels, fields, rfl⟩
    exact id
  obtain ⟨hsame, hprogress⟩ := kiveData_run_watch std podFields node kernelID hlists v
  rw [KiveDataReconciler.judge, Prog.run_bind]
  generalize (KiveDataReconciler.policyLoop std d policies false).run
    (watch std podFields node kernelID) v = r at hsame hprogress
  obtain ⟨found, v₁⟩ := r
  dsimp only at hsame hprogress
  cases found with
  | false =>
    obtain ⟨hdelete, hothers⟩ :=
      progress_delete std podFields node kernelID (v := v₁) (hsame ▸ hd) hdel
    exact ⟨hprogress.trans hdelete, fun x hx => hothers x (hsame ▸ hx)⟩
  | true =>
    have hadd := progress_watch std podFields node kernelID (.addInode d.mapKey) id v₁
    refine ⟨hprogress.trans hadd, fun x hx _ => ?_⟩
    change x ∈ v₁.world.cluster.kiveData.items
    rw [hsame]
    exact hx

/-- The loop over KiveData that are stored comes to its end or to one whose finalizers it
patches. -/
lemma run_dataLoop (policies : List KivePolicy) {l : List KiveData} (hnodup : l.Nodup)
    {v : Watched} (hl : ∀ d ∈ l, d ∈ v.world.cluster.kiveData.items) :
    let r := Prog.runE (watch std podFields node kernelID)
      (KiveDataReconciler.dataLoop std policies l) v
    (r.1 = .ok () ∨ r.1 = .error done) ∧ Progress v r.2 := by
  induction l generalizing v with
  | nil => exact ⟨Or.inl rfl, Progress.refl v⟩
  | cons d l ih =>
    obtain ⟨hnot, hnodup⟩ := List.nodup_cons.mp hnodup
    have hd := hl d List.mem_cons_self
    have hl' : ∀ x ∈ l, x ∈ v.world.cluster.kiveData.items := fun x hx =>
      hl x (List.mem_cons_of_mem d hx)
    by_cases hdue : PatchDue d
    · by_cases hdel : Deleting d
      · set v₁ := (watch std podFields node kernelID (.removeInode d.mapKey) v).2
        have hremove : Progress v v₁ := progress_watch std podFields node kernelID _ id v
        obtain ⟨hok, hprogress⟩ := progress_patch std podFields node kernelID (v := v₁) hd
          (Store.refinalizes_removeFinalizer d kiveDataFinalizerName)
          (fun _ => List.filter_subset_self _) (stepsLeft_removeFinalizer hdel (hdue.mp hdel))
        rw [KiveDataReconciler.runE_dataLoop_finalize std _ policies l v hdue hdel]
        refine ⟨Or.inr ?_, hremove.trans hprogress⟩
        dsimp only
        rw [show (watch std podFields node kernelID (.removeInode d.mapKey) v).2 = v₁ from rfl, hok]
      · have hfin : containsFinalizer d kiveDataFinalizerName = false := by
          rw [← Bool.not_eq_true]
          exact fun h => hdel (hdue.mpr h)
        obtain ⟨hok, hprogress⟩ := progress_patch std podFields node kernelID hd
          (Store.refinalizes_addFinalizer hfin) (fun h => absurd h hdel)
          (stepsLeft_addFinalizer hdel hfin)
        rw [KiveDataReconciler.runE_dataLoop_claim std _ policies l v hdue hdel]
        exact ⟨Or.inr (by simp only [hok]), hprogress⟩
    · by_cases hdel : Deleting d
      · rw [KiveDataReconciler.runE_dataLoop_skip std _ policies l v hdue hdel]
        exact ih hnodup hl'
      · obtain ⟨hprogress, hothers⟩ := progress_judge std podFields node kernelID policies hd hdel
        rw [KiveDataReconciler.runE_dataLoop_judge std _ policies l v hdue hdel]
        obtain ⟨hend, hrest⟩ := ih hnodup fun x hx =>
          hothers x (hl' x hx) fun hxd => hnot (hxd ▸ hx)
        exact ⟨hend, hprogress.trans hrest⟩

/-- Loading the program leaves the KiveData and the caches alone. -/
lemma run_ensureLoaded (v : Watched) :
    ∃ v', Prog.runE (watch std podFields node kernelID) KiveDataReconciler.ensureLoaded v =
        (.ok (), v') ∧ Progress v v' ∧
      v'.world.cluster.kiveData = v.world.cluster.kiveData ∧
      (v'.world.kernels kernelID).cachedKiveData = (v.world.kernels kernelID).cachedKiveData := by
  have hasked := progress_watch std podFields node kernelID .ebpfLoaded id v
  set v₁ := (watch std podFields node kernelID .ebpfLoaded v).2 with hv₁
  have hload := progress_watch std podFields node kernelID .loadEbpf id v₁
  rw [KiveDataReconciler.ensureLoaded, Prog.runE_bind, Prog.runE_lift, Ebpf.loaded,
    Prog.run_perform, Prog.continueE_ok, ← hv₁]
  cases hloaded : (v.world.kernels kernelID).loaded with
  | true =>
    rw [show (watch std podFields node kernelID .ebpfLoaded v).1 = true from hloaded]
    exact ⟨v₁, rfl, hasked, rfl, rfl⟩
  | false =>
    rw [show (watch std podFields node kernelID .ebpfLoaded v).1 = false from hloaded]
    refine ⟨_, rfl, hasked.trans hload, rfl, ?_⟩
    exact (caches_handle std podFields node kernelID .loadEbpf v₁.world kernelID).1

/-- A data pass with current lists does not ask to be run again, and leaves less to do if it changes
a KiveData. -/
lemma run_dataReconcile (w : World) :
    let v : Watched := { world := w.refreshCaches kernelID }
    let r := (KiveDataReconciler.reconcile std kernelID).run (watch std podFields node kernelID) v
    r.1 = done ∧ SamePolicies v r.2 ∧ Progress v r.2 := by
  intro v r
  have hsame : SamePolicies v r.2 := by
    refine samePolicies_run std podFields node kernelID ?_ v
    refine (KiveDataReconciler.only_reconcile std kernelID).mono ?_
    rintro op hop orig modified rfl
    exact hop
  obtain ⟨v₁, hload, hprogress₁, hdata₁, hcache₁⟩ := run_ensureLoaded std podFields node kernelID v
  -- the lists are read without a change
  set labels := KiveDataReconciler.kiveDataLabels kernelID
  set v₂ := (watch std podFields node kernelID (.listKiveData .cached labels) v₁).2
  set v₃ := (watch std podFields node kernelID (.listKivePolicies .cached) v₂).2
  have hprogress₃ : Progress v v₃ :=
    hprogress₁.trans ((progress_watch std podFields node kernelID _ id v₁).trans
      (progress_watch std podFields node kernelID _ id v₂))
  have hdata₃ : v₃.world.cluster.kiveData = w.cluster.kiveData := hdata₁
  have hcached : (v₁.world.kernels kernelID).cachedKiveData = w.cluster.kiveData.items := by
    rw [hcache₁]
    simp [v, World.refreshCaches]
  have hnodup : (listKiveData labels w.cluster.kiveData.items).Nodup :=
    w.cluster.kiveData.items_nodup.filter _
  have hstored : ∀ d ∈ listKiveData labels w.cluster.kiveData.items,
      d ∈ v₃.world.cluster.kiveData.items := fun d hd => hdata₃ ▸ (List.mem_filter.mp hd).1
  have hlist : (watch std podFields node kernelID (.listKiveData .cached labels) v₁).1 =
      .ok (listKiveData labels w.cluster.kiveData.items) := by
    rw [← hcached]
    rfl
  have hlist' : (watch std podFields node kernelID (.listKivePolicies .cached) v₂).1 =
      .ok (v₂.world.kernels kernelID).cachedKivePolicies := rfl
  obtain ⟨hend, hprogress⟩ := run_dataLoop std podFields node kernelID
    (v₂.world.kernels kernelID).cachedKivePolicies hnodup hstored
  cases hloop : Prog.runE (watch std podFields node kernelID) (KiveDataReconciler.dataLoop std
    (v₂.world.kernels kernelID).cachedKivePolicies
    (listKiveData labels w.cluster.kiveData.items)) v₃ with
  | mk answer v' =>
    rw [hloop] at hend hprogress
    have hr : r = (done, v') := by
      change (KiveDataReconciler.reconcile std kernelID).run _ v = _
      rw [KiveDataReconciler.reconcile, Pass.run_toProg, Prog.runE_bind, hload, Prog.continueE_ok,
        Prog.runE_bind, Prog.runE_lift, Client.listKiveData, Prog.run_perform, Prog.continueE_ok,
        hlist]
      dsimp only
      rw [Prog.runE_bind, Prog.runE_lift, Client.listKivePolicies, Prog.run_perform,
        Prog.continueE_ok, hlist']
      dsimp only
      rw [Prog.runE_bind, hloop]
      obtain rfl | rfl := hend <;> rfl
    rw [hr] at hsame ⊢
    exact ⟨rfl, hsame, hprogress₃.trans hprogress⟩

/-! ## Pod passes -/

/-- Where all pods are running, the loop over the KiveData notes whether one is for a pod that
exists. -/
lemma flag_podDataLoop {pods : List Pod} (hready : PodsReady pods) (l : List KiveData) (flag : Bool)
    (v : Watched) :
    ((KivePodReconciler.dataLoop pods l flag).run (watch std podFields node kernelID) v).1 =
      (flag || l.any fun d => pods.any (KivePodReconciler.isRecordedPod d)) := by
  induction l generalizing flag v with
  | nil => simp [KivePodReconciler.dataLoop]
  | cons d l ih =>
    rw [KivePodReconciler.dataLoop, List.any_cons]
    cases hfind : pods.find? (KivePodReconciler.isRecordedPod d) with
    | some pod =>
      have hmem := List.mem_of_find?_eq_some hfind
      have hany : pods.any (KivePodReconciler.isRecordedPod d) = true :=
        List.any_eq_true.mpr ⟨pod, hmem, List.find?_some hfind⟩
      dsimp only
      rw [ih, hany, (hready pod hmem).1]
      simp
    | none =>
      have hany : pods.any (KivePodReconciler.isRecordedPod d) = false :=
        List.any_eq_false.mpr fun pod hpod => List.find?_eq_none.mp hfind pod hpod
      rw [hany, Bool.false_or]
      exact ih flag _

/-- A KiveData for a pod that exists is not deleted. -/
lemma mem_podDataLoop {pods : List Pod} {d : KiveData}
    (hrecorded : (pods.find? (KivePodReconciler.isRecordedPod d)).isSome = true) (l : List KiveData)
    (hl : ∀ x ∈ l, keyOf x = keyOf d → x = d) (flag : Bool) {v : Watched}
    (hd : d ∈ v.world.cluster.kiveData.items) :
    d ∈ ((KivePodReconciler.dataLoop pods l flag).run
      (watch std podFields node kernelID) v).2.world.cluster.kiveData.items := by
  induction l generalizing flag v with
  | nil => exact hd
  | cons x l ih =>
    have hl' : ∀ y ∈ l, keyOf y = keyOf d → y = d := fun y hy =>
      hl y (List.mem_cons_of_mem x hy)
    rw [KivePodReconciler.dataLoop]
    cases hfind : pods.find? (KivePodReconciler.isRecordedPod x) with
    | some pod => exact ih hl' _ hd
    | none =>
      have hne : keyOf d ≠ keyOf x := by
        intro hkey
        obtain rfl := hl x List.mem_cons_self hkey.symm
        rw [hfind] at hrecorded
        exact absurd hrecorded (by simp)
      refine ih hl' flag (v := (watch std podFields node kernelID (.deleteKiveData x) v).2) ?_
      change d ∈ (v.world.cluster.kiveData.delete (keyOf x)).2.items
      rcases v.world.cluster.kiveData.delete_cases (keyOf x) with ⟨-, heq⟩ | ⟨y, -, heq⟩
      · rw [heq]
        exact hd
      · rw [heq]
        exact Store.mem_update.mpr (Or.inl ⟨hd, hne⟩)

/-- The wake-up of the policy reconciler. -/
lemma run_triggerKivePolicy_watch (flag : Bool) {v : Watched}
    (hpolicies : PoliciesSettled v.world.cluster.kivePolicies.items) :
    let r := (KivePodReconciler.triggerKivePolicy flag).run (watch std podFields node kernelID) v
    r.1 = .ok { requeue := flag } ∧ r.2.world.cluster.kiveData = v.world.cluster.kiveData ∧
      PoliciesSettled r.2.world.cluster.kivePolicies.items := by
  rw [KivePodReconciler.triggerKivePolicy, Client.listKivePolicies, Prog.perform_bind,
    Prog.run_call, watch_of_eq _ _ _ _ rfl]
  simp only [handle]
  cases hitems : v.world.cluster.kivePolicies.items with
  | nil => simpa [hitems] using hpolicies
  | cons p rest =>
    have hp : p ∈ v.world.cluster.kivePolicies.items := hitems ▸ List.mem_cons_self
    simp only [Time.now, Client.patchKivePolicy, Prog.perform_bind, Prog.run_call, watch_now,
      Prog.pure_eq_ret, Prog.run_ret]
    refine ⟨trivial, rfl, fun q hq => ?_⟩
    change q ∈ (v.world.cluster.kivePolicies.patch _ (Store.mergeFrom p _)).2.items at hq
    rw [patch_annotate hp] at hq
    rcases Store.mem_of_mem_replace hq with hq | hq
    · exact hpolicies q hq
    · obtain rfl := Option.some.inj hq
      exact hpolicies p hp

/-- A pod pass asks to be run again exactly if there is a KiveData for a pod that exists, and then
there still is one. -/
lemma run_podReconcile_of_ready {w : World} (hready : PodsReady w.cluster.pods)
    (hpolicies : PoliciesSettled w.cluster.kivePolicies.items) :
    let r := (KivePodReconciler.reconcile kernelID).run (watch std podFields node kernelID)
      { world := w }
    r.1 = .ok { requeue := decide (HasRecordedPod kernelID w) } ∧
      r.2.world.cluster.pods = w.cluster.pods ∧
      PoliciesSettled r.2.world.cluster.kivePolicies.items ∧
      (HasRecordedPod kernelID w → HasRecordedPod kernelID r.2.world) := by
  intro r
  have hpods : r.2.world.cluster.pods = w.cluster.pods := by
    rw [(run_watch std podFields node kernelID _ _).2]
    exact pods_run std podFields node kernelID _ w
  have hr := run_podReconcile_watch std podFields node kernelID w
  dsimp only at hr
  rw [listKiveData_kiveDataLabels] at hr
  set items := w.cluster.kiveData.items.filter fun d => OfKernel kernelID d with hitems
  have hmem : ∀ d, d ∈ items ↔ d ∈ w.cluster.kiveData.items ∧ OfKernel kernelID d := by
    intro d
    rw [hitems, List.mem_filter, decide_eq_true_iff]
  have hflag := flag_podDataLoop std podFields node kernelID hready items false { world := w }
  obtain ⟨hsame, -⟩ := run_podDataLoop_watch std podFields node kernelID w.cluster.pods items false
    { world := w }
  have hkept : ∀ d ∈ items, w.cluster.pods.any (KivePodReconciler.isRecordedPod d) = true →
      d ∈ ((KivePodReconciler.dataLoop w.cluster.pods items false).run
        (watch std podFields node kernelID) { world := w }).2.world.cluster.kiveData.items := by
    intro d hd hany
    have hsome : (w.cluster.pods.find? (KivePodReconciler.isRecordedPod d)).isSome = true := by
      rw [List.find?_isSome]
      exact List.any_eq_true.mp hany
    refine mem_podDataLoop std podFields node kernelID hsome items (fun x hx hkey => ?_) false
      ((hmem d).mp hd).1
    exact Store.eq_of_keyOf_eq ((hmem x).mp hx).1 ((hmem d).mp hd).1 hkey
  generalize (KivePodReconciler.dataLoop w.cluster.pods items false).run
    (watch std podFields node kernelID) { world := w } = q at hr hflag hsame hkept
  obtain ⟨flag, v⟩ := q
  dsimp only at hr hflag hsame hkept
  have hiff : flag = decide (HasRecordedPod kernelID w) := by
    rw [hflag, Bool.false_or, Bool.eq_iff_iff, List.any_eq_true, decide_eq_true_iff]
    simp only [hmem, HasRecordedPod, List.any_eq_true, and_assoc]
  obtain ⟨hdone, hdata, hsettled⟩ :=
    run_triggerKivePolicy_watch std podFields node kernelID flag (v := v) (hsame ▸ hpolicies)
  rw [← hr] at hdone hdata hsettled
  refine ⟨hiff ▸ hdone, hpods, hsettled, ?_⟩
  rintro ⟨d, hd, hof, pod, hpod, hrec⟩
  refine ⟨d, ?_, hof, pod, hpods ▸ hpod, hrec⟩
  rw [show r.2.world.cluster.kiveData = v.world.cluster.kiveData from hdata]
  exact hkept d ((hmem d).mpr ⟨hd, hof⟩) (List.any_eq_true.mpr ⟨pod, hpod, hrec⟩)

end Watch

/-! ## All passes together -/

section Step

variable {std : Std} {podFields : PodFields} {kernelOf : String → String} {nodes : Finset String}

/-- All pods are ready and all policies settled. -/
structure Waiting.Ready (s : Waiting) : Prop where
  pods : PodsReady s.world.cluster.pods
  policies : PoliciesSettled s.world.cluster.kivePolicies.items

/-- The passes of a controller that wait. -/
def Waiting.of (c : Controller) (s : Waiting) : Finset Runner :=
  s.passes.filter fun r => r.2 = c

variable {s : Waiting}

variable (std podFields kernelOf) in
/-- A pod pass asks to be run again as long as a recorded pod is there. -/
lemma Waiting.Ready.runPass_kivePod (hs : s.Ready) (node : String) (seconds : ℕ) :
    let ran := runPass std podFields kernelOf s.world (node, .kivePod) seconds
    ran.1 = .ok { requeue := decide (HasRecordedPod (kernelOf node) s.world) } ∧
      ran.2.world.cluster.pods = s.world.cluster.pods ∧
      PoliciesSettled ran.2.world.cluster.kivePolicies.items ∧
      (HasRecordedPod (kernelOf node) s.world → HasRecordedPod (kernelOf node) ran.2.world) :=
  run_podReconcile_of_ready std podFields node (kernelOf node) hs.pods hs.policies

variable (std podFields kernelOf) in
/-- A policy pass comes to its end and changes no policy. -/
lemma Waiting.Ready.runPass_kivePolicy (hs : s.Ready) (node : String) (seconds : ℕ) :
    let ran := runPass std podFields kernelOf s.world (node, .kivePolicy) seconds
    ran.1 = done ∧ SamePolicies { world := s.world } ran.2 := by
  obtain ⟨hdone, hsame⟩ := run_policyReconcile std podFields node (kernelOf node)
    { world := ({ s.world with clock := s.world.clock + seconds }).refreshCaches (kernelOf node) }
    hs.pods hs.policies
  exact ⟨hdone, hsame.pods, hsame.kivePolicies, hsame.changed⟩

variable (std podFields kernelOf) in
/-- A data pass comes to its end, and there is less to do if it has changed a KiveData. -/
lemma Waiting.runPass_kiveData (s : Waiting) (node : String) (seconds : ℕ) :
    let ran := runPass std podFields kernelOf s.world (node, .kiveData) seconds
    ran.1 = done ∧ SamePolicies { world := s.world } ran.2 ∧
      Progress { world := s.world } ran.2 := by
  obtain ⟨hdone, hsame, hprogress⟩ := run_dataReconcile std podFields node (kernelOf node)
    { s.world with clock := s.world.clock + seconds }
  exact ⟨hdone, ⟨hsame.pods, hsame.kivePolicies, hsame.changed⟩, hprogress⟩

/-- What waits of the passes of a controller after a pass. -/
lemma Waiting.mem_passes_after {r r' : Runner} {seconds : ℕ} :
    let ran := runPass std podFields kernelOf s.world r seconds
    r' ∈ (s.after std podFields kernelOf nodes r seconds).passes ↔
      (r' ≠ r ∧ r' ∈ s.passes) ∨ (ran.1.asksAgain = true ∧ r' = r) ∨
        (ran.2.kivePoliciesChanged = true ∧ r'.1 ∈ nodes ∧ r'.2 = .kivePolicy) ∨
        (ran.2.kiveDataChanged = true ∧ r'.1 ∈ nodes ∧ r'.2 = .kiveData) := by
  intro ran
  obtain ⟨node, c⟩ := r'
  have himage : ∀ c', (node, c) ∈ nodes.image (fun node => (node, c')) ↔ node ∈ nodes ∧ c = c' := by
    intro c'
    simp [eq_comm]
  have hite : ∀ (b : Bool) (passes : Finset Runner),
      (node, c) ∈ (if b then passes else ∅) ↔ b = true ∧ (node, c) ∈ passes := by
    intro b passes
    cases b <;> simp
  simp only [Waiting.after, Finset.mem_union, Finset.mem_erase, hite, himage,
    Finset.mem_singleton, or_assoc, ran]

/-- A pod pass that asks to be run again will ask for it again. -/
lemma Waiting.after_kivePod_of_recorded {node : String} (hs : s.Ready)
    (hrec : HasRecordedPod (kernelOf node) s.world) (seconds : ℕ) :
    let s' := s.after std podFields kernelOf nodes (node, .kivePod) seconds
    s'.Ready ∧ HasRecordedPod (kernelOf node) s'.world ∧ (node, .kivePod) ∈ s'.passes := by
  intro s'
  obtain ⟨hasks, hpods, hpolicies, hkept⟩ := hs.runPass_kivePod std podFields kernelOf node seconds
  refine ⟨⟨?_, hpolicies⟩, hkept hrec, mem_passes_after.mpr (Or.inr (Or.inl ⟨?_, rfl⟩))⟩
  · rw [show s'.world.cluster.pods = s.world.cluster.pods from hpods]
    exact hs.pods
  · rw [hasks]
    exact decide_eq_true hrec

/-- The policy passes that wait, what there is left to do for data passes, and the data passes that
wait. -/
def Waiting.measure (s : Waiting) : ℕ ×ₗ ℕ ×ₗ ℕ :=
  toLex ((s.of .kivePolicy).card,
    toLex (workLeft s.world.cluster.kiveData.items, (s.of .kiveData).card))

/-- All pods are ready and all policies settled, and no pod pass waits. -/
structure Waiting.Calm (s : Waiting) : Prop extends s.Ready where
  calm : ∀ r ∈ s.passes, r.2 ≠ .kivePod

/-- A policy pass wakes only data passes. -/
lemma Waiting.Calm.after_kivePolicy (hs : s.Calm) {node : String}
    (hr : (node, .kivePolicy) ∈ s.passes) (seconds : ℕ) :
    let s' := s.after std podFields kernelOf nodes (node, .kivePolicy) seconds
    s'.Calm ∧ s'.measure < s.measure := by
  intro s'
  obtain ⟨hdone, hsame⟩ := hs.runPass_kivePolicy std podFields kernelOf node seconds
  have hmem : ∀ r ∈ s'.passes, (r ≠ (node, .kivePolicy) ∧ r ∈ s.passes) ∨ r.2 = .kiveData := by
    intro r hr
    rcases mem_passes_after.mp hr with hr | ⟨hasks, -⟩ | ⟨hchanged, -⟩ | ⟨-, -, hr⟩
    · exact Or.inl hr
    · rw [hdone] at hasks
      cases hasks
    · rw [hsame.changed] at hchanged
      cases hchanged
    · exact Or.inr hr
  refine ⟨⟨⟨?_, ?_⟩, fun r hr => ?_⟩, ?_⟩
  · rw [show s'.world.cluster.pods = s.world.cluster.pods from hsame.pods]
    exact hs.pods
  · rw [show s'.world.cluster.kivePolicies = s.world.cluster.kivePolicies from hsame.kivePolicies]
    exact hs.policies
  · rcases hmem r hr with ⟨-, hr⟩ | hr
    · exact hs.calm r hr
    · rw [hr]
      rintro ⟨⟩
  · refine Prod.Lex.toLex_lt_toLex.mpr (Or.inl ?_)
    have hr : ((node, .kivePolicy) : Runner) ∈ s.of .kivePolicy := Finset.mem_filter.mpr ⟨hr, rfl⟩
    refine (Finset.card_le_card fun r hr => ?_).trans_lt (Finset.card_erase_lt_of_mem hr)
    obtain ⟨hr, hc⟩ := Finset.mem_filter.mp hr
    rcases hmem r hr with ⟨hne, hr⟩ | hr
    · exact Finset.mem_erase.mpr ⟨hne, Finset.mem_filter.mpr ⟨hr, hc⟩⟩
    · cases hc.symm.trans hr

/-- A data pass wakes data passes only if it leaves less to do. -/
lemma Waiting.Calm.after_kiveData (hs : s.Calm) {node : String}
    (hr : (node, .kiveData) ∈ s.passes) (seconds : ℕ) :
    let s' := s.after std podFields kernelOf nodes (node, .kiveData) seconds
    s'.Calm ∧ s'.measure < s.measure := by
  intro s'
  obtain ⟨hdone, hsame, hprogress⟩ := s.runPass_kiveData std podFields kernelOf node seconds
  have hmem : ∀ r ∈ s'.passes, (r ≠ (node, .kiveData) ∧ r ∈ s.passes) ∨
      ((runPass std podFields kernelOf s.world (node, .kiveData) seconds).2.kiveDataChanged = true ∧
        r.2 = .kiveData) := by
    intro r hr
    rcases mem_passes_after.mp hr with hr | ⟨hasks, -⟩ | ⟨hchanged, -⟩ | ⟨hchanged, -, hr⟩
    · exact Or.inl hr
    · rw [hdone] at hasks
      cases hasks
    · rw [hsame.changed] at hchanged
      cases hchanged
    · exact Or.inr ⟨hchanged, hr⟩
  have hpolicies : s'.of .kivePolicy ⊆ s.of .kivePolicy := by
    intro r hr
    obtain ⟨hr, hc⟩ := Finset.mem_filter.mp hr
    rcases hmem r hr with ⟨-, hr⟩ | ⟨-, hr⟩
    · exact Finset.mem_filter.mpr ⟨hr, hc⟩
    · cases hc.symm.trans hr
  refine ⟨⟨⟨?_, ?_⟩, fun r hr => ?_⟩, ?_⟩
  · rw [show s'.world.cluster.pods = s.world.cluster.pods from hsame.pods]
    exact hs.pods
  · rw [show s'.world.cluster.kivePolicies = s.world.cluster.kivePolicies from hsame.kivePolicies]
    exact hs.policies
  · rcases hmem r hr with ⟨-, hr⟩ | ⟨-, hr⟩
    · exact hs.calm r hr
    · rw [hr]
      rintro ⟨⟩
  · refine Prod.Lex.toLex_lt_toLex'.mpr ⟨Finset.card_le_card hpolicies, fun _ => ?_⟩
    rcases hprogress with ⟨hitems, hchanged⟩ | hless
    · have hr : ((node, .kiveData) : Runner) ∈ s.of .kiveData := Finset.mem_filter.mpr ⟨hr, rfl⟩
      refine Prod.Lex.toLex_lt_toLex.mpr (Or.inr ⟨congrArg workLeft hitems, ?_⟩)
      refine (Finset.card_le_card fun r hr => ?_).trans_lt (Finset.card_erase_lt_of_mem hr)
      obtain ⟨hr, hc⟩ := Finset.mem_filter.mp hr
      rcases hmem r hr with ⟨hne, hr⟩ | ⟨hyes, -⟩
      · exact Finset.mem_erase.mpr ⟨hne, Finset.mem_filter.mpr ⟨hr, hc⟩⟩
      · cases hyes.symm.trans hchanged
    · exact Prod.Lex.toLex_lt_toLex.mpr (Or.inl hless)

/-- Without pod passes the controllers come to rest. -/
lemma Waiting.Calm.comesToRest (hs : s.Calm) :
    Rest.ComesToRest (Waiting.Step std podFields kernelOf nodes) s := by
  refine Rest.comesToRest_of_measure (I := Waiting.Calm) Waiting.measure
    (fun s s' hs hstep => ?_) hs
  obtain ⟨⟨node, c⟩, hr, seconds, rfl⟩ := hstep
  cases c with
  | kivePolicy => exact hs.after_kivePolicy hr seconds
  | kivePod => exact absurd rfl (hs.calm _ hr)
  | kiveData => exact hs.after_kiveData hr seconds

/-- With a KiveData for a pod that exists they do not. -/
lemma Waiting.not_comesToRest {node : String} (hs : s.Ready) (hr : (node, .kivePod) ∈ s.passes)
    (hrec : HasRecordedPod (kernelOf node) s.world) :
    ¬ Rest.ComesToRest (Waiting.Step std podFields kernelOf nodes) s := by
  refine Rest.not_comesToRest_of_invariant (I := fun s => s.Ready ∧
    HasRecordedPod (kernelOf node) s.world ∧ (node, .kivePod) ∈ s.passes) ?_ ⟨hs, hrec, hr⟩
  rintro s ⟨hs, hrec, hr⟩
  exact ⟨_, ⟨_, hr, 0, rfl⟩, after_kivePod_of_recorded hs hrec 0⟩

end Step

/-- All pods are running and ready, all policies have the finalizer and none is being deleted.  A
pod event is followed by finitely many passes exactly if no KiveData of the node's kernel is for a
pod that exists. -/
theorem comesToRest_iff (std : Std) (podFields : PodFields) (kernelOf : String → String)
    (nodes : Finset String) {w : World} (hpods : PodsReady w.cluster.pods)
    (hpolicies : PoliciesSettled w.cluster.kivePolicies.items) (node : String) :
    Rest.ComesToRest (Waiting.Step std podFields kernelOf nodes) (.ofPodEvent node w) ↔
      ¬ HasRecordedPod (kernelOf node) w := by
  have hready : (Waiting.ofPodEvent node w).Ready := ⟨hpods, hpolicies⟩
  constructor
  · intro h hrec
    exact Waiting.not_comesToRest hready (Finset.mem_singleton_self _) hrec h
  · intro hrec
    refine Rest.comesToRest_of_step ?_
    rintro s' ⟨r, hr, seconds, rfl⟩
    obtain rfl := Finset.mem_singleton.mp hr
    obtain ⟨hasks, hsame, hsettled, -⟩ := hready.runPass_kivePod std podFields kernelOf node seconds
    refine Waiting.Calm.comesToRest ⟨⟨?_, hsettled⟩, fun r hr => ?_⟩
    · change PodsReady (runPass std podFields kernelOf w _ _).2.world.cluster.pods
      rw [show (runPass std podFields kernelOf w _ _).2.world.cluster.pods = _ from hsame]
      exact hpods
    · rcases Waiting.mem_passes_after.mp hr with ⟨hne, hr⟩ | ⟨hagain, -⟩ | ⟨-, -, hr⟩ | ⟨-, -, hr⟩
      · exact absurd (Finset.mem_singleton.mp hr) hne
      · rw [hasks] at hagain
        exact absurd (of_decide_eq_true hagain) hrec
      · rw [hr]
        rintro ⟨⟩
      · rw [hr]
        rintro ⟨⟩

namespace ComingToRest

open TrapRecords (std)

/-- A cluster with one trap and one container. -/
def world : World := TrapRecords.world [TrapRecords.trap "/data" "http://one"]

/-- The same once a policy pass has found the file. -/
def traced : World :=
  ((KivePolicyReconciler.reconcile std "k1").run (handle std .standard "node" "k1") world).2

/-- The passes that may be run. -/
abbrev Step : Waiting → Waiting → Prop := Waiting.Step std .standard (fun _ => "k1") {"node"}

/-- The pod is ready, the policy settled, and the KiveData has its pod. -/
lemma ready_traced : PodsReady traced.cluster.pods ∧
    PoliciesSettled traced.cluster.kivePolicies.items ∧ HasRecordedPod "k1" traced := by
  decide +kernel

end ComingToRest

open ComingToRest in
/-- Before the file is found the controllers come to rest. -/
theorem comesToRest_untraced : PodsReady world.cluster.pods ∧
    PoliciesSettled world.cluster.kivePolicies.items ∧
    Rest.ComesToRest Step (.ofPodEvent "node" world) := by
  have hpods : PodsReady world.cluster.pods := by decide +kernel
  have hpolicies : PoliciesSettled world.cluster.kivePolicies.items := by decide +kernel
  refine ⟨hpods, hpolicies, ?_⟩
  exact (comesToRest_iff TrapRecords.std .standard (fun _ => "k1") {"node"} hpods hpolicies
    "node").mpr (by decide +kernel)

open ComingToRest in
/-- A pod is running and its container is ready, and there is a KiveData for it.  The pod pass asks
to be run again each time. -/
theorem comesToRest_counterexample : PodsReady traced.cluster.pods ∧
    PoliciesSettled traced.cluster.kivePolicies.items ∧
    ¬ Rest.ComesToRest Step (.ofPodEvent "node" traced) := by
  obtain ⟨hpods, hpolicies, hrec⟩ := ready_traced
  refine ⟨hpods, hpolicies, ?_⟩
  exact Waiting.not_comesToRest ⟨hpods, hpolicies⟩ (Finset.mem_singleton_self _) hrec

end Kive
