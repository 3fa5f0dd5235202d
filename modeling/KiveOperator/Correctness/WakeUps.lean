import KiveOperator.Controller.AskedSites
import KiveOperator.Controller.PodCalls
import KiveOperator.Correctness.TrapRecords

/-!
# Waking the next controller

A policy pass ends by writing the time into an annotation of the first KiveData, and a pod pass by
doing the same with the first policy.  The time is printed with a resolution, and a patch that
leaves the object as it was wakes nobody.  `wakeUps_iff` says when every pass wakes the controller
after it.
-/

namespace Kive

open Interaction Object

/-! ## Changes of stored objects -/

/-- A world, and whether KiveData and policies have changed in it for a while. -/
structure Watched where
  world : World
  kiveDataChanged : Bool := false
  kivePoliciesChanged : Bool := false

section Watch

variable (std : Std) (podFields : PodFields) (node kernelID : String)

/-- Answer a call, and note whether it changed an object. -/
def watch (op : Call) (v : Watched) : op.Answer × Watched :=
  let r := handle std podFields node kernelID op v.world
  (r.1,
    { world := r.2
      kiveDataChanged := v.kiveDataChanged ||
        decide (r.2.cluster.kiveData.items ≠ v.world.cluster.kiveData.items)
      kivePoliciesChanged := v.kivePoliciesChanged ||
        decide (r.2.cluster.kivePolicies.items ≠ v.world.cluster.kivePolicies.items) })

/-- Watching changes nothing. -/
lemma run_watch {α : Type} (p : CallProg α) (v : Watched) :
    (p.run (watch std podFields node kernelID) v).1 =
        (p.run (handle std podFields node kernelID) v.world).1 ∧
      (p.run (watch std podFields node kernelID) v).2.world =
        (p.run (handle std podFields node kernelID) v.world).2 :=
  Prog.run_eq_of_sim (handle std podFields node kernelID) (π := Watched.world)
    (fun _ _ => ⟨rfl, rfl⟩) p v

/-- As long as no change is noted the KiveData are as they were. -/
lemma items_of_not_changed {α : Type} (p : CallProg α) {v : Watched}
    (h : (p.run (watch std podFields node kernelID) v).2.kiveDataChanged = false) :
    (p.run (watch std podFields node kernelID) v).2.world.cluster.kiveData.items =
      v.world.cluster.kiveData.items := by
  have hrun := Prog.run_rel (watch std podFields node kernelID)
    (r := fun v v' => v'.kiveDataChanged = false →
      v.kiveDataChanged = false ∧
        v'.world.cluster.kiveData.items = v.world.cluster.kiveData.items)
    (fun v h => ⟨h, rfl⟩) ?_ ?_ p v
  · exact (hrun h).2
  · intro v₁ v₂ v₃ h₁₂ h₂₃ h₃
    obtain ⟨h₂, heq⟩ := h₂₃ h₃
    obtain ⟨h₁, heq'⟩ := h₁₂ h₂
    exact ⟨h₁, heq.trans heq'⟩
  · intro op v hv
    have hboth := Bool.or_eq_false_iff.mp hv
    exact ⟨hboth.1, not_not.mp (of_decide_eq_false hboth.2)⟩

/-- Calls do not take time. -/
lemma clock_run {α : Type} (p : CallProg α) (w : World) :
    (p.run (handle std podFields node kernelID) w).2.clock = w.clock := by
  refine Prog.run_rel (handle std podFields node kernelID) (r := fun w w' => w'.clock = w.clock)
    (fun _ => rfl) (fun h h' => h'.trans h) (fun op w => ?_) p w
  cases op
  case listKivePolicies reader => cases reader <;> rfl
  case listKiveData reader labels => cases reader <;> rfl
  all_goals rfl

end Watch

/-- The annotation that wakes a controller, as it is stored. -/
def forcedAt {α : Type} [Object α] (x : α) : Option String :=
  (objectMeta x).annotations.lookup "force-reconcile"

section Annotate

variable {α : Type} [Object α] {s : Store α} {x : α}

/-- The patch that sets an annotation of an object that is as it was listed. -/
lemma mergeFrom_annotate (x : α) (key value : String) :
    (Store.mergeFrom x (annotate x key value)).toFun x = annotate x key value := by
  have hann : ∀ m : StrMap,
      MapPatch.mergePatch (objectMeta x).annotations m (objectMeta x).annotations = m := by
    intro m
    refine Finmap.ext_lookup fun k => ?_
    rw [MapPatch.lookup_mergePatch]
    split_ifs with heq
    · exact heq.symm
    · rfl
  simp only [Store.mergeFrom, Store.mergeMeta, annotate, objectMeta_withMeta, hann, if_true]

/-- It replaces the object. -/
lemma patch_annotate [DecidableEq α] (hx : x ∈ s.items) (key value : String) :
    (s.patch (keyOf (annotate x key value))
        (Store.mergeFrom x (annotate x key value))).2.items =
      Store.replace s.items x (some (annotate x key value)) := by
  have hkey : keyOf (annotate x key value) = keyOf x := by
    rw [← mergeFrom_annotate, Edit.keyOf_toFun]
  have hforb : ¬ Store.Forbidden x ((Store.mergeFrom x (annotate x key value)).toFun x) := by
    rw [mergeFrom_annotate]
    intro h
    exact h.2 (by simp [annotate])
  have hsettle : settle (annotate x key value) = some (annotate x key value) := by
    refine settle_eq_some_iff.mpr ⟨rfl, fun hdel => ?_⟩
    have hold := s.finalized x hx (by simpa [Deleting, annotate] using hdel)
    simpa [annotate] using hold
  rw [hkey, Store.patch, Store.find?_eq_some_iff.mpr ⟨hx, rfl⟩]
  dsimp only
  rw [if_neg hforb, Store.items_update_of_mem hx, mergeFrom_annotate, hsettle]

/-- Replacing an object by another one changes the store. -/
lemma replace_items_eq_iff [DecidableEq α] (hx : x ∈ s.items) (y : α) :
    Store.replace s.items x (some y) = s.items ↔ y = x := by
  obtain ⟨front, rest, hitems, hreplace⟩ := Store.exists_replace_eq s.items_nodup hx
  rw [hreplace, hitems]
  simp

/-- Setting an annotation to another value changes the object. -/
lemma annotate_eq_self_iff (hwith : withMeta x (objectMeta x) = x) (key value : String) :
    annotate x key value = x ↔ (objectMeta x).annotations.lookup key = some value := by
  constructor
  · intro h
    rw [← h]
    simp [annotate]
  · intro h
    have hinsert : (objectMeta x).annotations.insert key value = (objectMeta x).annotations := by
      refine Finmap.ext_lookup fun k => ?_
      rcases eq_or_ne k key with rfl | hne
      · rw [Finmap.lookup_insert, h]
      · rw [Finmap.lookup_insert_of_ne _ hne]
    rw [annotate, hinsert]
    exact hwith

/-- So the wake-up changes the store unless the time is there already. -/
lemma patch_forceReconcile_ne_iff [DecidableEq α] (hwith : withMeta x (objectMeta x) = x)
    (hx : x ∈ s.items)
    (time : String) :
    (s.patch (keyOf (annotate x "force-reconcile" time))
        (Store.mergeFrom x (annotate x "force-reconcile" time))).2.items ≠ s.items ↔
      forcedAt x ≠ some time := by
  rw [patch_annotate hx, ne_eq, replace_items_eq_iff hx, annotate_eq_self_iff hwith]
  rfl

end Annotate

/-! ## What a policy pass applies -/

/-- One of some apply requests, made one after the other, changes a KiveData. -/
def AppliesChange : Store KiveData → List KiveData → Prop
  | _, [] => False
  | s, config :: configs =>
    (applyKiveData s config).2.items ≠ s.items ∨
      AppliesChange (applyKiveData s config).2 configs

/-- The calls that change KiveData by applies only. -/
def AppliesOnly : Call → Prop
  | .patchKiveData _ _ => False
  | .deleteKiveData _ => False
  | _ => True

/-- The loop of a policy pass changes KiveData by applies only. -/
lemma appliesOnly_policyLoop (std : Std) (kernelID : String) (items : List KivePolicy) :
    (KivePolicyReconciler.policyLoop std kernelID items).run.Only AppliesOnly := by
  refine (composed_only _).policyLoop fun p _ => ?_
  by_cases hdue : FinalizerDue kivePolicyFinalizerName p
  · rw [policyStep_of_due hdue]
    refine Prog.Only.bindE (Prog.Only.lift ⟨trivial, fun _ => trivial⟩) fun answer => ?_
    cases answer <;> trivial
  · rw [policyStep_of_not_due hdue]
    split_ifs with hdel
    · trivial
    · refine (@obeys_policyTrapLoop std kernelID (fun _ => True) p trivial hdel _ (fun _ => id)
        []).only fun _ op hop => ?_
      cases op
      case patchKiveData => exact hop
      case deleteKiveData => exact hop
      all_goals trivial

/-- The KiveData for the files that are found on the node when one looks for them at the sites for
which a pass looks. -/
def configsFound (std : Std) (podFields : PodFields) (node kernelID : String) (w : World) :
    List KiveData :=
  (searchAll (askedSites std podFields w) (w.hosts node)).1.map (kiveDataFor std kernelID)

/-! ## The passes -/

section Passes

variable (std : Std) (podFields : PodFields) (node kernelID : String)

/-- A call that leaves the world alone is not noted. -/
lemma watch_of_eq {op : Call} {v : Watched}
    (h : (handle std podFields node kernelID op v.world).2 = v.world) :
    watch std podFields node kernelID op v =
      ((handle std podFields node kernelID op v.world).1, v) := by
  simp [watch, h]

/-- The clock is read, and nothing changes. -/
lemma watch_now (v : Watched) :
    watch std podFields node kernelID .now v = (std.formatRFC3339 v.world.clock, v) :=
  watch_of_eq std podFields node kernelID rfl

/-- What a policy pass does before it wakes the data reconciler. -/
def policyPart (w : World) : Except Outcome Unit × World :=
  Prog.runE (handle std podFields node kernelID)
    (KivePolicyReconciler.policyLoop std kernelID w.cluster.kivePolicies.items) w

/-- The same, with changes noted. -/
def policyPartWatched (w : World) : Watched :=
  (Prog.runE (watch std podFields node kernelID)
    (KivePolicyReconciler.policyLoop std kernelID w.cluster.kivePolicies.items)
    { world := w }).2

/-- A policy pass that does not return early. -/
def ReachesEnd (w : World) : Prop :=
  (policyPart std podFields node kernelID w).1 = .ok ()

/-- Calls that change KiveData by applies only change one if an apply does. -/
lemma kiveDataChanged_of_appliesOnly {α : Type} {p : CallProg α} (hp : p.Only AppliesOnly)
    (v : Watched) :
    (p.run (watch std podFields node kernelID) v).2.kiveDataChanged = true ↔
      v.kiveDataChanged = true ∨ AppliesChange v.world.cluster.kiveData
        (appliedBy (p.events (handle std podFields node kernelID) v.world)) := by
  induction p generalizing v with
  | ret a => exact (or_iff_left id).symm
  | call op k ih =>
    obtain ⟨hop, hk⟩ := Prog.only_call.mp hp
    have hrest := ih _ (hk (watch std podFields node kernelID op v).1)
      (watch std podFields node kernelID op v).2
    rw [Prog.run_call, Prog.events_call]
    refine hrest.trans ?_
    -- any call but an apply leaves the KiveData alone
    have hother : (handle std podFields node kernelID op v.world).2.cluster.kiveData =
        v.world.cluster.kiveData → (watch std podFields node kernelID op v).2.kiveDataChanged =
          v.kiveDataChanged := fun hsame => by simp [watch, hsame]
    cases op
    case applyKiveData site d =>
      refine Iff.trans (or_congr (Bool.or_eq_true _ _ ▸ or_congr Iff.rfl decide_eq_true_iff)
        Iff.rfl) or_assoc
    case patchKiveData => exact absurd hop id
    case deleteKiveData => exact absurd hop id
    case listKivePolicies reader => cases reader <;> exact or_congr (by rw [hother rfl]) Iff.rfl
    case listKiveData reader labels =>
      cases reader <;> exact or_congr (by rw [hother rfl]) Iff.rfl
    all_goals exact or_congr (by rw [hother rfl]) Iff.rfl

/-- The loop of a policy pass that runs to its end changes a KiveData if an apply for the files that
are found does. -/
lemma kiveDataChanged_policyLoop {w : World} (hend : ReachesEnd std podFields node kernelID w) :
    (policyPartWatched std podFields node kernelID w).kiveDataChanged = true ↔
      AppliesChange w.cluster.kiveData (configsFound std podFields node kernelID w) := by
  have happlied := (@applied_policyLoop std kernelID w.cluster.kivePolicies.items).events
    (handle std podFields node kernelID) w
  have hchanged := kiveDataChanged_of_appliesOnly std podFields node kernelID
    (appliesOnly_policyLoop std kernelID w.cluster.kivePolicies.items) { world := w }
  rw [happlied] at hchanged
  rw [configsFound, foundBy_policyLoop hend]
  exact hchanged.trans (or_iff_right (by simp))

/-- A policy pass that reaches its end is its loop and the wake-up. -/
lemma run_policyReconcile_watch {w : World} (hend : ReachesEnd std podFields node kernelID w) :
    ((KivePolicyReconciler.reconcile std kernelID).run (watch std podFields node kernelID)
        { world := w }).2 =
      (Prog.runE (watch std podFields node kernelID) KivePolicyReconciler.triggerKiveData
        (policyPartWatched std podFields node kernelID w)).2 := by
  have hloop : (Prog.runE (watch std podFields node kernelID)
      (KivePolicyReconciler.policyLoop std kernelID w.cluster.kivePolicies.items)
      { world := w }).1 = .ok () :=
    (run_watch std podFields node kernelID _ { world := w }).1.trans hend
  rw [KivePolicyReconciler.reconcile, Pass.run_toProg, Prog.runE_bind, Prog.runE_lift,
    Client.listKivePolicies, Prog.run_perform, watch_of_eq _ _ _ _ rfl, Prog.continueE_ok]
  dsimp only [handle]
  rw [Prog.runE_bind, policyPartWatched]
  generalize Prog.runE (watch std podFields node kernelID)
    (KivePolicyReconciler.policyLoop std kernelID w.cluster.kivePolicies.items)
    { world := w } = r at hloop
  obtain ⟨answer, v⟩ := r
  obtain rfl := hloop
  rfl

/-- The wake-up of the data reconciler changes a KiveData, unless there is none or the first one
has the time already. -/
lemma kiveDataChanged_trigger (v : Watched) :
    (Prog.runE (watch std podFields node kernelID) KivePolicyReconciler.triggerKiveData
        v).2.kiveDataChanged = true ↔
      v.kiveDataChanged = true ∨
        ∃ d ∈ v.world.cluster.kiveData.items.head?,
          forcedAt d ≠ some (std.formatRFC3339 v.world.clock) := by
  rw [KivePolicyReconciler.triggerKiveData, Prog.runE_bind, Prog.runE_lift, Client.listKiveData,
    Prog.run_perform, watch_of_eq _ _ _ _ rfl, Prog.continueE_ok]
  simp only [handle, listKiveData_empty]
  cases hitems : v.world.cluster.kiveData.items with
  | nil => simp
  | cons d rest =>
    have hd : d ∈ v.world.cluster.kiveData.items := hitems ▸ List.mem_cons_self
    simp only [Prog.runE_bind, Prog.runE_lift, Time.now, Client.patchKiveData, Prog.run_perform,
      watch_now, Prog.continueE_ok, Prog.runE_pure]
    rw [List.head?_cons]
    simp only [Option.mem_some_iff, exists_eq_left']
    have hpatch := patch_forceReconcile_ne_iff rfl hd (std.formatRFC3339 v.world.clock)
    exact (Bool.or_eq_true _ _ ▸ or_congr Iff.rfl (decide_eq_true_iff.trans hpatch))

/-- A policy pass that reaches its end while a KiveData is stored changes one. -/
def PolicyPassWakes (w : World) : Prop :=
  ReachesEnd std podFields node kernelID w →
    (policyPart std podFields node kernelID w).2.cluster.kiveData.items ≠ [] →
      ((KivePolicyReconciler.reconcile std kernelID).run (watch std podFields node kernelID)
        { world := w }).2.kiveDataChanged = true

/-- The first KiveData does not have the time already, or the applies for the files at the sites
that the pass asks for change a KiveData. -/
def PolicyPassFresh (w : World) : Prop :=
  ReachesEnd std podFields node kernelID w →
    (∀ d ∈ w.cluster.kiveData.items.head?, forcedAt d ≠ some (std.formatRFC3339 w.clock)) ∨
      AppliesChange w.cluster.kiveData (configsFound std podFields node kernelID w)

/-- A policy pass wakes the data reconciler exactly if it is fresh. -/
lemma policyPassWakes_iff (w : World) :
    PolicyPassWakes std podFields node kernelID w ↔
      PolicyPassFresh std podFields node kernelID w := by
  refine forall_congr' fun hend => ?_
  have hworld : (policyPartWatched std podFields node kernelID w).world =
      (policyPart std podFields node kernelID w).2 :=
    (run_watch std podFields node kernelID _ { world := w }).2
  have hclock : (policyPart std podFields node kernelID w).2.clock = w.clock :=
    clock_run std podFields node kernelID _ w
  rw [run_policyReconcile_watch std podFields node kernelID hend, kiveDataChanged_trigger, hworld,
    hclock, ← kiveDataChanged_policyLoop std podFields node kernelID hend]
  cases hchanged : (policyPartWatched std podFields node kernelID w).kiveDataChanged with
  | true => simp
  | false =>
    -- without a change the first KiveData is the one from before the pass
    have hsame : (policyPart std podFields node kernelID w).2.cluster.kiveData.items =
        w.cluster.kiveData.items := by
      have hitems := items_of_not_changed std podFields node kernelID
        (KivePolicyReconciler.policyLoop std kernelID w.cluster.kivePolicies.items).run
        (v := { world := w }) hchanged
      rw [← hworld]
      exact hitems
    rw [hsame]
    cases w.cluster.kiveData.items with
    | nil => simp
    | cons d rest => simp

/-- The deletions of a pod pass leave the policies alone. -/
lemma run_podDataLoop_watch (pods : List Pod) (items : List KiveData) (flag : Bool)
    (v : Watched) :
    let v' := ((KivePodReconciler.dataLoop pods items flag).run
      (watch std podFields node kernelID) v).2
    v'.world.cluster.kivePolicies = v.world.cluster.kivePolicies ∧
      v'.kivePoliciesChanged = v.kivePoliciesChanged := by
  induction items generalizing flag v with
  | nil => exact ⟨rfl, rfl⟩
  | cons d items ih =>
    rw [KivePodReconciler.dataLoop]
    cases pods.find? (KivePodReconciler.isRecordedPod d) with
    | some pod => exact ih _ v
    | none =>
      have hkeep := ih flag (watch std podFields node kernelID (.deleteKiveData d) v).2
      refine ⟨hkeep.1, hkeep.2.trans ?_⟩
      simp [watch, handle]

/-- The wake-up of the policy reconciler changes a policy, unless there is none or the first one
has the time already. -/
lemma kivePoliciesChanged_trigger (flag : Bool) (v : Watched) :
    ((KivePodReconciler.triggerKivePolicy flag).run (watch std podFields node kernelID)
        v).2.kivePoliciesChanged = true ↔
      v.kivePoliciesChanged = true ∨
        ∃ p ∈ v.world.cluster.kivePolicies.items.head?,
          forcedAt p ≠ some (std.formatRFC3339 v.world.clock) := by
  rw [KivePodReconciler.triggerKivePolicy, Client.listKivePolicies, Prog.perform_bind,
    Prog.run_call, watch_of_eq _ _ _ _ rfl]
  simp only [handle]
  cases hitems : v.world.cluster.kivePolicies.items with
  | nil => simp
  | cons p rest =>
    have hp : p ∈ v.world.cluster.kivePolicies.items := hitems ▸ List.mem_cons_self
    simp only [Time.now, Client.patchKivePolicy, Prog.perform_bind, Prog.run_call,
      watch_now, Prog.pure_eq_ret, Prog.run_ret]
    rw [List.head?_cons]
    simp only [Option.mem_some_iff, exists_eq_left']
    have hpatch := patch_forceReconcile_ne_iff rfl hp (std.formatRFC3339 v.world.clock)
    exact (Bool.or_eq_true _ _ ▸ or_congr Iff.rfl (decide_eq_true_iff.trans hpatch))

/-- A pod pass that reaches its end while a policy is stored changes one. -/
def PodPassWakes (w : World) : Prop :=
  ((KivePodReconciler.reconcile kernelID).run (handle std podFields node kernelID)
      w).2.cluster.kivePolicies.items ≠ [] →
    ((KivePodReconciler.reconcile kernelID).run (watch std podFields node kernelID)
      { world := w }).2.kivePoliciesChanged = true

/-- The first policy does not have the time already. -/
def PodPassFresh (w : World) : Prop :=
  ∀ p ∈ w.cluster.kivePolicies.items.head?, forcedAt p ≠ some (std.formatRFC3339 w.clock)

/-- What a pod pass does before it wakes the policy reconciler. -/
lemma run_podReconcile_watch (w : World) :
    let items := listKiveData (KiveDataReconciler.kiveDataLabels kernelID)
      w.cluster.kiveData.items
    let r := (KivePodReconciler.dataLoop w.cluster.pods items false).run
      (watch std podFields node kernelID) { world := w }
    (KivePodReconciler.reconcile kernelID).run (watch std podFields node kernelID)
        { world := w } =
      (KivePodReconciler.triggerKivePolicy r.1).run (watch std podFields node kernelID) r.2 := by
  intro items r
  have hall := listPods_empty podFields w.cluster.pods
  rw [KivePodReconciler.reconcile, Client.listKiveData, Prog.perform_bind, Prog.run_call,
    watch_of_eq _ _ _ _ rfl]
  dsimp only [handle]
  rw [Client.listPods, Prog.perform_bind, Prog.run_call, watch_of_eq _ _ _ _ rfl]
  dsimp only [handle]
  rw [hall]
  dsimp only
  rw [Prog.run_bind]

/-- A stored policy stays when one is patched. -/
lemma items_patch_eq_nil_iff {s : Store KivePolicy} {p : KivePolicy} (hp : p ∈ s.items)
    (time : String) :
    (s.patch (keyOf (annotate p "force-reconcile" time))
      (Store.mergeFrom p (annotate p "force-reconcile" time))).2.items ≠ [] := by
  obtain ⟨front, rest, -, hreplace⟩ := Store.exists_replace_eq s.items_nodup hp
  rw [patch_annotate hp, hreplace]
  simp

/-- A pod pass wakes the policy controller exactly if it annotates the first policy anew. -/
lemma podPassWakes_iff (w : World) :
    PodPassWakes std podFields node kernelID w ↔ PodPassFresh std w := by
  have hworld := (run_watch std podFields node kernelID
    (KivePodReconciler.reconcile kernelID) { world := w }).2
  rw [PodPassWakes, ← hworld, run_podReconcile_watch std podFields node kernelID w,
    kivePoliciesChanged_trigger]
  set items := listKiveData (KiveDataReconciler.kiveDataLabels kernelID) w.cluster.kiveData.items
  obtain ⟨hpolicies, hchanged⟩ := run_podDataLoop_watch std podFields node kernelID
    w.cluster.pods items false { world := w }
  have hclock : ((KivePodReconciler.dataLoop w.cluster.pods items false).run
      (watch std podFields node kernelID) { world := w }).2.world.clock = w.clock := by
    rw [(run_watch std podFields node kernelID _ { world := w }).2]
    exact clock_run std podFields node kernelID _ w
  set r := (KivePodReconciler.dataLoop w.cluster.pods items false).run
    (watch std podFields node kernelID) { world := w }
  rw [show r.2.kivePoliciesChanged = false from hchanged, hclock,
    show r.2.world.cluster.kivePolicies = w.cluster.kivePolicies from hpolicies]
  have hstored : ((KivePodReconciler.triggerKivePolicy r.1).run
      (watch std podFields node kernelID) r.2).2.world.cluster.kivePolicies.items ≠ [] ↔
      w.cluster.kivePolicies.items ≠ [] := by
    rw [← show r.2.world.cluster.kivePolicies = w.cluster.kivePolicies from hpolicies,
      KivePodReconciler.triggerKivePolicy, Client.listKivePolicies, Prog.perform_bind,
      Prog.run_call, watch_of_eq _ _ _ _ rfl]
    simp only [handle]
    cases hitems : r.2.world.cluster.kivePolicies.items with
    | nil => simp [hitems]
    | cons p rest =>
      have hp : p ∈ r.2.world.cluster.kivePolicies.items := hitems ▸ List.mem_cons_self
      exact iff_of_true (items_patch_eq_nil_iff hp _) (by simp)
  rw [hstored, PodPassFresh]
  cases w.cluster.kivePolicies.items with
  | nil => simp
  | cons p rest => simp

end Passes

/-! ## Sequences of passes and changes -/

/-- What happens one after the other: changes by others, and passes of the reconcilers. -/
inductive WakeEvent where
  | changeKivePolicies (s : Store KivePolicy)
  | changeKiveData (s : Store KiveData)
  | changePods (pods : List Pod)
  | changeHost (node : String) (host : Host)
  | passTime (t : ℕ)
  | policyPass (node kernelID : String)
  | podPass (node kernelID : String)

section Sequences

variable (std : Std) (podFields : PodFields)

/-- The world after an event. -/
def WakeEvent.after (w : World) : WakeEvent → World
  | changeKivePolicies s => w.setKivePolicies s
  | changeKiveData s => w.setKiveData s
  | changePods pods => { w with cluster := { w.cluster with pods := pods } }
  | changeHost node host => w.setHost node host
  | passTime t => { w with clock := w.clock + t }
  | policyPass node kernelID =>
    ((KivePolicyReconciler.reconcile std kernelID).run (handle std podFields node kernelID) w).2
  | podPass node kernelID =>
    ((KivePodReconciler.reconcile kernelID).run (handle std podFields node kernelID) w).2

/-- The pass, if the event is one, wakes the controller after it. -/
def WakeEvent.Wakes (w : World) : WakeEvent → Prop
  | policyPass node kernelID => PolicyPassWakes std podFields node kernelID w
  | podPass node kernelID => PodPassWakes std podFields node kernelID w
  | _ => True

/-- The time that the pass, if the event is one, would write is not there already. -/
def WakeEvent.Fresh (w : World) : WakeEvent → Prop
  | policyPass node kernelID => PolicyPassFresh std podFields node kernelID w
  | podPass _ _ => PodPassFresh std w
  | _ => True

/-- The world after some events. -/
def afterAll (w : World) (events : List WakeEvent) : World :=
  events.foldl (WakeEvent.after std podFields) w

/-- In a sequence of passes and of changes by others, every pass that reaches its end wakes the
controller after it, if there is an object to do so with, if and only if no pass reads a time that
prints as the one that the first object has already; for a policy pass it is enough that an apply
for one of the files that can be found before it changes a KiveData. -/
theorem wakeUps_iff (w : World) (events : List WakeEvent) :
    (∀ front e rest, events = front ++ e :: rest →
      e.Wakes std podFields (afterAll std podFields w front)) ↔
    ∀ front e rest, events = front ++ e :: rest →
      e.Fresh std podFields (afterAll std podFields w front) := by
  have hstep : ∀ w' (e : WakeEvent), e.Wakes std podFields w' ↔ e.Fresh std podFields w' := by
    intro w' e
    cases e with
    | policyPass node kernelID => exact policyPassWakes_iff std podFields node kernelID w'
    | podPass node kernelID => exact podPassWakes_iff std podFields node kernelID w'
    | _ => exact Iff.rfl
  exact forall_congr' fun front => forall_congr' fun e => forall_congr' fun rest =>
    forall_congr' fun _ => hstep _ e

end Sequences

/-! ## Two passes in one second -/

open TrapRecords in
/-- A policy pass finds a file, its policy is deleted for good, and a second pass reads the clock
within the same second.  It reaches its end, a KiveData is stored, and nothing changes. -/
theorem wakeUps_counterexample :
    let events : List WakeEvent :=
      [.policyPass "node" "k1", .changeKivePolicies .empty, .policyPass "node" "k1"]
    (afterAll std .standard (world [trap "/data" "http://one"]) events).cluster.kiveData.items ≠
        [] ∧
      ¬ ∀ front e rest, events = front ++ e :: rest →
        e.Wakes std .standard
          (afterAll std .standard (world [trap "/data" "http://one"]) front) := by
  intro events
  have hleft : (afterAll std .standard (world [trap "/data" "http://one"])
      events).cluster.kiveData.items ≠ [] := by decide +kernel
  refine ⟨hleft, fun h => ?_⟩
  have hwakes := h [.policyPass "node" "k1", .changeKivePolicies .empty] _ [] rfl
  have hchanged := hwakes (by rfl) (by decide +kernel)
  exact absurd hchanged (by decide +kernel)

end Kive
