import KiveOperator.Controller.PolicyLog
import KiveOperator.Controller.Repeats
import KiveOperator.Controller.Writes
import KiveOperator.Correctness.WakeUps

/-!
# Policy passes settle

A policy pass patches the first policy whose finalizer is due and returns, so that it takes one pass
for each such policy until one runs to its end.  From then on every pass makes the same applies,
which change nothing, whichever of them have the same name.  `policyPasses_settle` says so of any
policies and KiveData, if the selected pods are ready and there is no file left to create.
-/

namespace Kive

open Interaction Object KivePolicyReconciler

/-! ## The wake-up -/

/-- The first KiveData with the annotation that wakes the data reconciler. -/
def forceFirst (time : String) : List KiveData → List KiveData
  | [] => []
  | d :: rest => annotate d forceReconcile time :: rest

/-- The wake-up keeps the names. -/
lemma map_keyOf_forceFirst (time : String) (items : List KiveData) :
    (forceFirst time items).map keyOf = items.map keyOf := by
  cases items <;> rfl

/-- An apply that does not list an annotation leaves it. -/
lemma applyEach_annotate {config : KiveData} {key : String}
    (hkey : key ∉ config.objectMeta.annotations) (x : KiveData) (value : String) :
    applyEach (annotate x key value) config = annotate (applyEach x config) key value := by
  have hann : config.objectMeta.annotations ∪ x.objectMeta.annotations.insert key value =
      (config.objectMeta.annotations ∪ x.objectMeta.annotations).insert key value := by
    refine Finmap.ext_lookup fun k => ?_
    rcases eq_or_ne k key with rfl | hne
    · rw [Finmap.lookup_union_right hkey, Finmap.lookup_insert, Finmap.lookup_insert]
    · rw [Finmap.lookup_insert_of_ne _ hne]
      by_cases hk : k ∈ config.objectMeta.annotations
      · rw [Finmap.lookup_union_left hk, Finmap.lookup_union_left hk]
      · rw [Finmap.lookup_union_right hk, Finmap.lookup_union_right hk,
          Finmap.lookup_insert_of_ne _ hne]
  have hiff : Accepts (annotate x key value) config ↔ Accepts x config := Iff.rfl
  unfold applyEach
  by_cases haccepts : Accepts x config
  · rw [if_pos (hiff.mpr haccepts), if_pos haccepts]
    simp only [applyTo, annotate, objectMeta, withMeta, hann]
    rfl
  · rw [if_neg (fun h => haccepts (hiff.mp h)), if_neg haccepts]

/-- Applies that do not write an annotation leave it alone. -/
lemma foldl_applyEach_annotate {l : List KiveData} {key : String}
    (hkey : ∀ config ∈ l, key ∉ config.objectMeta.annotations) (x : KiveData) (value : String) :
    l.foldl applyEach (annotate x key value) = annotate (l.foldl applyEach x) key value := by
  induction l generalizing x with
  | nil => rfl
  | cons config l ih =>
    rw [List.foldl_cons, List.foldl_cons, applyEach_annotate (hkey config List.mem_cons_self),
      ih fun config' hconfig' => hkey config' (List.mem_cons_of_mem config hconfig')]

/-- What a policy pass applies does not list the annotation that wakes the data reconciler. -/
lemma forceReconcile_notMem_annotations (std : Std) (kernelID : String) (x : Site × ContainerData) :
    forceReconcile ∉ (kiveDataFor std kernelID x).objectMeta.annotations := by
  simp [forceReconcile, kiveDataFor, newKiveData, StrMap.ofEntries, Finmap.mem_insert,
    Finmap.notMem_empty]

/-- The wake-up leaves a store up to date. -/
lemma UpToDate.forceFirst {l : List KiveData} {s s' : Store KiveData} (h : UpToDate l s)
    (hl : ∀ config ∈ l, forceReconcile ∉ config.objectMeta.annotations) {time : String}
    (hitems : s'.items = forceFirst time s.items) : UpToDate l s' where
  mem_keys config hconfig := by
    rw [hitems, map_keyOf_forceFirst]
    exact h.mem_keys config hconfig
  applied x hx := by
    rw [hitems] at hx
    cases hs : s.items with
    | nil =>
      rw [hs] at hx
      exact absurd hx (by simp [Kive.forceFirst])
    | cons d rest =>
      rw [hs] at hx
      rcases List.mem_cons.mp hx with rfl | hx
      · have hd := h.applied d (hs ▸ List.mem_cons_self)
        have hkey : keyOf (annotate d forceReconcile time) = keyOf d := rfl
        rw [hkey, foldl_applyEach_annotate, hd]
        exact fun config hconfig => hl config (List.mem_filter.mp hconfig).1
      · exact h.applied x (hs ▸ List.mem_cons_of_mem d hx)

/-! ## The finalizers -/

/-- How many policies are left to patch: those that lack the finalizer, and those that are being
deleted and have it. -/
def policyPatchesLeft (policies : List KivePolicy) : ℕ :=
  policies.countP (fun p => ¬ Deleting p ∧ containsFinalizer p kivePolicyFinalizerName = false) +
    policies.countP (fun p => Deleting p ∧ containsFinalizer p kivePolicyFinalizerName = true)

/-- The policies once their finalizers have been patched. -/
def settledPolicies (policies : List KivePolicy) : List KivePolicy :=
  policies.filterMap fun p =>
    if Deleting p then none else some (addFinalizer p kivePolicyFinalizerName)

/-- No other controller has a finalizer on the policies. -/
def NoForeignFinalizers (policies : List KivePolicy) : Prop :=
  ∀ p ∈ policies, ∀ f ∈ p.objectMeta.finalizers, f = kivePolicyFinalizerName

instance (policies : List KivePolicy) : Decidable (NoForeignFinalizers policies) :=
  inferInstanceAs (Decidable (∀ p ∈ policies, ∀ f ∈ p.objectMeta.finalizers, _))

/-- The patches that two lists of policies need. -/
lemma policyPatchesLeft_append (l l' : List KivePolicy) :
    policyPatchesLeft (l ++ l') = policyPatchesLeft l + policyPatchesLeft l' := by
  simp only [policyPatchesLeft, List.countP_append]
  omega

/-- A policy is left to patch if its finalizer is due. -/
lemma policyPatchesLeft_singleton (p : KivePolicy) :
    policyPatchesLeft [p] = if FinalizerDue kivePolicyFinalizerName p then 1 else 0 := by
  by_cases hdel : Deleting p <;> cases hfin : containsFinalizer p kivePolicyFinalizerName <;>
    simp [policyPatchesLeft, FinalizerDue, hdel, hfin]

/-- No patch is needed exactly if every policy has its finalizer, or has lost it. -/
lemma policyPatchesLeft_eq_zero_iff {policies : List KivePolicy} :
    policyPatchesLeft policies = 0 ↔ ∀ p ∈ policies, ¬ FinalizerDue kivePolicyFinalizerName p := by
  induction policies with
  | nil => simp [policyPatchesLeft]
  | cons p policies ih =>
    rw [← List.singleton_append, policyPatchesLeft_append, Nat.add_eq_zero_iff, ih,
      policyPatchesLeft_singleton]
    simp

section Due

variable {p : KivePolicy} {policies : List KivePolicy}

/-- Nothing is left to patch of a policy that was patched. -/
lemma policyPatchesLeft_settle_refinalized
    (hown : ∀ f ∈ p.objectMeta.finalizers, f = kivePolicyFinalizerName) :
    policyPatchesLeft (settle (refinalized p)).toList = 0 ∧
      settledPolicies (settle (refinalized p)).toList = settledPolicies [p] := by
  by_cases hdel : Deleting p
  · -- without the finalizer it goes away
    have hnil : (p.objectMeta.finalizers.filter (· ≠ kivePolicyFinalizerName)) = [] :=
      List.filter_eq_nil_iff.mpr fun f hf => by simpa using hown f hf
    have hgone : settle (refinalized p) = none := by
      rw [refinalized, if_pos hdel, settle]
      refine if_pos ⟨hdel, ?_⟩
      exact hnil
    rw [hgone]
    simp [policyPatchesLeft, settledPolicies, hdel]
  · have hdel' : ¬ Deleting (addFinalizer p kivePolicyFinalizerName) := by
      unfold addFinalizer
      split_ifs <;> exact hdel
    have hfin := containsFinalizer_addFinalizer p kivePolicyFinalizerName
    have hstays : settle (refinalized p) = some (addFinalizer p kivePolicyFinalizerName) := by
      rw [refinalized, if_neg hdel, settle, if_neg fun h => hdel' h.1]
    have hagain : addFinalizer (addFinalizer p kivePolicyFinalizerName) kivePolicyFinalizerName =
        addFinalizer p kivePolicyFinalizerName := by
      rw [addFinalizer, if_pos hfin]
    rw [hstays, Option.toList_some, policyPatchesLeft_singleton]
    simp [settledPolicies, FinalizerDue, hdel, hdel', hfin, hagain]

/-- Patching a policy whose finalizer is due leaves one policy less to patch. -/
lemma policyPatchesLeft_replace (hnodup : policies.Nodup) (hp : p ∈ policies)
    (hdue : FinalizerDue kivePolicyFinalizerName p)
    (hown : ∀ f ∈ p.objectMeta.finalizers, f = kivePolicyFinalizerName) :
    let policies' := Store.replace policies p (settle (refinalized p))
    policyPatchesLeft policies' + 1 = policyPatchesLeft policies ∧
      settledPolicies policies' = settledPolicies policies := by
  intro policies'
  obtain ⟨front, rest, hfront, hreplace⟩ := Store.exists_replace_eq hnodup hp
  obtain ⟨hleft, hsettled⟩ := policyPatchesLeft_settle_refinalized hown
  rw [show policies' = _ from hreplace _, hfront, ← List.singleton_append (l := rest),
    ← List.append_assoc]
  constructor
  · simp only [policyPatchesLeft_append]
    rw [hleft, policyPatchesLeft_singleton, if_pos hdue]
    omega
  · simp only [settledPolicies, List.filterMap_append] at hsettled ⊢
    rw [hsettled]

/-- Once no finalizer is due the policies are settled. -/
lemma settledPolicies_eq_self {s : Store KivePolicy} (hown : NoForeignFinalizers s.items)
    (hdue : ∀ p ∈ s.items, ¬ FinalizerDue kivePolicyFinalizerName p) :
    settledPolicies s.items = s.items := by
  have hsame : ∀ p ∈ s.items, (if Deleting p then none
      else some (addFinalizer p kivePolicyFinalizerName)) = some p := by
    intro p hp
    have hlive : ¬ Deleting p := by
      intro hdel
      obtain ⟨f, rest, hf⟩ := List.exists_cons_of_ne_nil (s.finalized p hp hdel)
      have hmem : f ∈ p.objectMeta.finalizers := by
        rw [show p.objectMeta.finalizers = f :: rest from hf]
        exact List.mem_cons_self
      refine hdue p hp ⟨fun _ => ?_, fun _ => hdel⟩
      rw [← hown p hp f hmem]
      exact List.contains_iff_mem.mpr hmem
    have hfin : containsFinalizer p kivePolicyFinalizerName = true := by
      by_contra hfin
      exact hdue p hp ⟨fun hdel => absurd hdel hlive, fun h => absurd h hfin⟩
    rw [if_neg hlive, addFinalizer, if_pos hfin]
  rw [settledPolicies, List.filterMap_congr hsame, List.filterMap_some]

end Due

section Passes

variable (std : Std) (podFields : PodFields) (node kernelID : String)

/-- The wake-up changes the first KiveData and nothing else. -/
lemma runE_triggerKiveData (w : World) :
    ∃ s : Store KiveData,
      Prog.runE (handle std podFields node kernelID) triggerKiveData w =
        (.ok done, w.setKiveData s) ∧
      s.items = forceFirst (std.formatRFC3339 w.clock) w.cluster.kiveData.items ∧
      s.nextUID = w.cluster.kiveData.nextUID := by
  rw [triggerKiveData, Prog.runE_bind, Prog.runE_lift, Client.listKiveData, Prog.run_perform,
    Prog.continueE_ok]
  simp only [handle, listKiveData_empty]
  cases hitems : w.cluster.kiveData.items with
  | nil => exact ⟨w.cluster.kiveData, rfl, hitems, rfl⟩
  | cons d rest =>
    have hd : d ∈ w.cluster.kiveData.items := hitems ▸ List.mem_cons_self
    have hnodup := w.cluster.kiveData.items_nodup
    rw [hitems] at hnodup
    obtain ⟨hnot, -⟩ := List.nodup_cons.mp hnodup
    set time := std.formatRFC3339 w.clock
    refine ⟨(w.cluster.kiveData.patch (keyOf (annotate d forceReconcile time))
      (Store.mergeFrom d (annotate d forceReconcile time))).2, rfl, ?_, ?_⟩
    · have hrest := Store.replace_of_notMem hnot (some (annotate d forceReconcile time))
      rw [patch_annotate hd, hitems, ← List.singleton_append, Store.replace_append, hrest]
      simp [Store.replace, forceFirst]
    · rcases w.cluster.kiveData.patch_cases (keyOf (annotate d forceReconcile time))
        (Store.mergeFrom d (annotate d forceReconcile time)) with ⟨-, heq⟩ | ⟨x, -, -, heq⟩
      · rw [heq]
      · rw [heq]
        rfl

/-! ## One pass -/

/-- A pass lists the policies, does its loop over them and wakes the data reconciler. -/
lemma run_policyReconcile_eq (w : World) :
    let r := Prog.continueE
      (fun _ => Prog.runE (handle std podFields node kernelID) triggerKiveData)
      (policyPart std podFields node kernelID w)
    (KivePolicyReconciler.reconcile std kernelID).run (handle std podFields node kernelID) w =
      (Pass.result r.1, r.2) := by
  intro r
  rw [KivePolicyReconciler.reconcile, Pass.run_toProg, Prog.runE_bind, Prog.runE_lift,
    Client.listKivePolicies, Prog.run_perform, Prog.continueE_ok]
  dsimp only [handle]
  rw [Prog.runE_bind]
  rfl

/-- The calls of a pass: the list of the policies, and then the loop over them. -/
lemma events_policyReconcile (w : World) :
    (KivePolicyReconciler.reconcile std kernelID).events (handle std podFields node kernelID) w =
      ⟨.listKivePolicies .uncached, .ok w.cluster.kivePolicies.items⟩ ::
        Prog.eventsE (handle std podFields node kernelID)
          (policyLoop std kernelID w.cluster.kivePolicies.items >>= fun _ => triggerKiveData)
          w := by
  rw [KivePolicyReconciler.reconcile, Pass.events_toProg, Prog.eventsE_lift_bind,
    Client.listKivePolicies, Prog.events_perform, Prog.run_perform]
  rfl

/-- The patches of policies that a pass makes. -/
def patchesBy (events : List (Sigma Call.Answer)) : List (KivePolicy × KivePolicy) :=
  events.filterMap fun e => match e.1 with
    | .patchKivePolicy orig modified => some (orig, modified)
    | _ => none

/-- The patches of two stretches of calls. -/
lemma patchesBy_append (l l' : List (Sigma Call.Answer)) :
    patchesBy (l ++ l') = patchesBy l ++ patchesBy l' :=
  List.filterMap_append

/-- No other controller has a finalizer on the policies, and the traps of those that are not being
deleted are ready. -/
structure PoliciesReady (pods : List Pod) (h : Host) (policies : List KivePolicy) : Prop where
  own : NoForeignFinalizers policies
  traps : ∀ p ∈ policies, ¬ Deleting p → ∀ t ∈ p.spec.traps, TrapReady std podFields pods h t

/-- A pass that patches the finalizer of one policy and returns. -/
def PatchesOne (w : World) : Prop :=
  let r := (KivePolicyReconciler.reconcile std kernelID).run (handle std podFields node kernelID) w
  r.1 = done ∧ ¬ ReachesEnd std podFields node kernelID w ∧
    ∃ p ∈ w.cluster.kivePolicies.items, FinalizerDue kivePolicyFinalizerName p ∧
      patchesBy ((KivePolicyReconciler.reconcile std kernelID).events
        (handle std podFields node kernelID) w) = [(p, refinalized p)] ∧
      r.2.cluster.kivePolicies.items =
        Store.replace w.cluster.kivePolicies.items p (settle (refinalized p))

variable {pods : List Pod} {h : Host}

/-- Where no finalizer is due the loop over the policies is the same each time. -/
lemma repeats_policyLoop {items : List KivePolicy}
    (hready : PoliciesReady std podFields pods h items)
    (hdue : ∀ p ∈ items, ¬ FinalizerDue kivePolicyFinalizerName p) :
    Repeats std podFields node kernelID pods h _ (policyLoop std kernelID items) := by
  have hcomposed := composed_repeats std podFields node kernelID pods h
  refine hcomposed.policyLoop fun p hp => ?_
  rw [policyStep_of_not_due (hdue p hp)]
  split_ifs with hdel
  · exact hcomposed.pure ()
  · exact repeats_trapLoop (hready.traps p hp hdel)

/-- And it patches no policy. -/
lemma patchesBy_policyLoop {items : List KivePolicy}
    (hdue : ∀ p ∈ items, ¬ FinalizerDue kivePolicyFinalizerName p) (w : World) :
    patchesBy (Prog.eventsE (handle std podFields node kernelID)
      (policyLoop std kernelID items) w) = [] := by
  have honly : (policyLoop std kernelID items).run.Only
      fun op => ∀ orig modified, op ≠ .patchKivePolicy orig modified := by
    refine (composed_only _).policyLoop fun p hp => ?_
    rw [policyStep_of_not_due (hdue p hp)]
    split_ifs with hdel
    · trivial
    · have hobeys : (trapLoop std kernelID p p.spec.traps).run.Obeys
          (LoopCall std kernelID fun _ => True) LoopEnd [] :=
        obeys_policyTrapLoop std kernelID trivial hdel (fun _ => id) []
      refine hobeys.only ?_
      rintro log op hop orig modified rfl
      exact hop
  refine List.filterMap_eq_nil_iff.mpr fun e he => ?_
  have hop := honly.of_mem_events he
  obtain ⟨op, answer⟩ := e
  cases op
  case patchKivePolicy orig modified => exact absurd rfl (hop orig modified)
  all_goals rfl

/-- The first policy whose finalizer is due. -/
lemma exists_first_due {items : List KivePolicy}
    (h : ∃ p ∈ items, FinalizerDue kivePolicyFinalizerName p) :
    ∃ front p rest, items = front ++ p :: rest ∧ FinalizerDue kivePolicyFinalizerName p ∧
      ∀ q ∈ front, ¬ FinalizerDue kivePolicyFinalizerName q := by
  obtain ⟨q, hq, hdue⟩ := h
  cases hfind : items.find? fun p => FinalizerDue kivePolicyFinalizerName p with
  | none => exact absurd (decide_eq_true hdue) (List.find?_eq_none.mp hfind q hq)
  | some p =>
    obtain ⟨hp, front, rest, hitems, hfront⟩ := List.find?_eq_some_iff_append.mp hfind
    exact ⟨front, p, rest, hitems, of_decide_eq_true hp, fun q hq => by simpa using hfront q hq⟩

/-- A pass patches the first policy whose finalizer is due and returns. -/
lemma patchesOne_of_due {w : World} (hw : Looks node pods h w)
    (hready : PoliciesReady std podFields pods h w.cluster.kivePolicies.items)
    (hdue : ∃ p ∈ w.cluster.kivePolicies.items, FinalizerDue kivePolicyFinalizerName p) :
    PatchesOne std podFields node kernelID w ∧ Looks node pods h
      ((KivePolicyReconciler.reconcile std kernelID).run
        (handle std podFields node kernelID) w).2 := by
  obtain ⟨front, p, rest, hitems, hp, hfront⟩ := exists_first_due hdue
  have hready' : PoliciesReady std podFields pods h front :=
    ⟨fun q hq => hready.own q (hitems ▸ List.mem_append_left _ hq),
      fun q hq => hready.traps q (hitems ▸ List.mem_append_left _ hq)⟩
  obtain ⟨a, l, hperforms, -⟩ := repeats_policyLoop std podFields node kernelID hready' hfront
  obtain ⟨w₁, hrun, hlooks, hpolicies, -⟩ := hperforms w hw
  have hmem : p ∈ w₁.cluster.kivePolicies.items := by
    rw [hpolicies, hitems]
    exact List.mem_append_right _ List.mem_cons_self
  -- the patch of its finalizers
  have hpatch : (w₁.cluster.kivePolicies.patch (keyOf (refinalized p))
        (Store.mergeFrom p (refinalized p))).1 = .ok () ∧
      (w₁.cluster.kivePolicies.patch (keyOf (refinalized p))
        (Store.mergeFrom p (refinalized p))).2.items =
          Store.replace w₁.cluster.kivePolicies.items p (settle (refinalized p)) := by
    unfold refinalized
    by_cases hdel : Deleting p
    · rw [if_pos hdel]
      exact Store.patch_of_refinalizes hmem (Store.refinalizes_removeFinalizer p _)
        fun _ => List.filter_subset_self _
    · have hfin : containsFinalizer p kivePolicyFinalizerName = false := by
        rw [← Bool.not_eq_true]
        exact fun h => hdel (hp.mpr h)
      rw [if_neg hdel]
      exact Store.patch_of_refinalizes hmem (Store.refinalizes_addFinalizer hfin)
        fun h => absurd h hdel
  set w₂ := (handle std podFields node kernelID (.patchKivePolicy p (refinalized p)) w₁).2
  have hanswer : (handle std podFields node kernelID
      (.patchKivePolicy p (refinalized p)) w₁).1 = .ok () := hpatch.1
  have hstep : Prog.runE (handle std podFields node kernelID) (policyStep std kernelID p) w₁ =
      (.error done, w₂) := by
    rw [policyStep_of_due hp, patchFinalizers, Prog.runE_bind, Prog.runE_lift,
      Client.patchKivePolicy, Prog.run_perform, Prog.continueE_ok, hanswer]
    rfl
  have hevents : Prog.eventsE (handle std podFields node kernelID) (policyStep std kernelID p) w₁ =
      [⟨.patchKivePolicy p (refinalized p), .ok ()⟩] := by
    rw [policyStep_of_due hp, patchFinalizers, Prog.eventsE_lift_bind,
      Client.patchKivePolicy, Prog.events_perform, Prog.run_perform, hanswer]
    rfl
  have hrest : Prog.runE (handle std podFields node kernelID)
      (policyLoop std kernelID (p :: rest)) w₁ = (.error done, w₂) := by
    rw [policyLoop, Prog.runE_bind, hstep, Prog.continueE_error]
  have hpart : policyPart std podFields node kernelID w = (.error done, w₂) := by
    rw [policyPart, hitems, policyLoop_append, Prog.runE_bind, hrun, Prog.continueE_ok, hrest]
  have hreconcile := run_policyReconcile_eq std podFields node kernelID w
  rw [hpart] at hreconcile
  refine ⟨⟨by rw [hreconcile]; rfl, ?_, p, ?_, hp, ?_, ?_⟩, ?_⟩
  · rw [ReachesEnd, hpart]
    rintro ⟨⟩
  · rw [hitems]
    exact List.mem_append_right _ List.mem_cons_self
  · rw [events_policyReconcile, Prog.eventsE_bind_of_error _ hpart, hitems, policyLoop_append,
      Prog.eventsE_bind_of_ok _ hrun, policyLoop, Prog.eventsE_bind_of_error _ hstep, hevents,
      ← List.singleton_append, patchesBy_append, patchesBy_append,
      patchesBy_policyLoop std podFields node kernelID hfront]
    rfl
  · rw [hreconcile, ← hpolicies]
    exact hpatch.2
  · rw [hreconcile]
    exact ⟨hlooks.pods, hlooks.host⟩

/-- A pass that finds no finalizer due makes its applies and wakes the data reconciler. -/
lemma reachesEnd_of_performs {w : World} {u : Unit} {l : List KiveData} (hw : Looks node pods h w)
    (hperforms : Performs std podFields node kernelID pods h
      (policyLoop std kernelID w.cluster.kivePolicies.items) u l) :
    let w' := ((KivePolicyReconciler.reconcile std kernelID).run
      (handle std podFields node kernelID) w).2
    ReachesEnd std podFields node kernelID w ∧ Looks node pods h w' ∧
      w'.cluster.kivePolicies = w.cluster.kivePolicies ∧
      w'.cluster.kiveData.items =
        forceFirst (std.formatRFC3339 w.clock) (applyAll w.cluster.kiveData l).items ∧
      w'.cluster.kiveData.nextUID = (applyAll w.cluster.kiveData l).nextUID := by
  intro w'
  obtain ⟨w₁, hrun, hlooks, hpolicies, hdata⟩ := hperforms w hw
  have hclock : w₁.clock = w.clock := by
    have hsame := clock_run std podFields node kernelID
      (policyLoop std kernelID w.cluster.kivePolicies.items).run w
    rwa [show (policyLoop std kernelID w.cluster.kivePolicies.items).run.run _ w = _ from hrun]
      at hsame
  obtain ⟨s, htrigger, hitems, huid⟩ := runE_triggerKiveData std podFields node kernelID w₁
  have hpart : policyPart std podFields node kernelID w = (.ok u, w₁) := hrun
  have hw' : w' = w₁.setKiveData s := by
    change ((KivePolicyReconciler.reconcile std kernelID).run _ w).2 = _
    rw [run_policyReconcile_eq, hpart, Prog.continueE_ok, htrigger]
  rw [hw', ← hclock, ← hdata]
  refine ⟨?_, ⟨hlooks.pods, hlooks.host⟩, hpolicies, hitems, huid⟩
  rw [ReachesEnd, hpart]

/-! ## Pass after pass -/

/-- The world in which a pass runs, some time after the pass before it. -/
def beforePass (waits : ℕ → ℕ) (w : World) : ℕ → World
  | 0 => { w with clock := w.clock + waits 0 }
  | n + 1 =>
    let w' := ((KivePolicyReconciler.reconcile std kernelID).run
      (handle std podFields node kernelID) (beforePass waits w n)).2
    { w' with clock := w'.clock + waits (n + 1) }

/-- The world after a pass. -/
def afterPass (waits : ℕ → ℕ) (w : World) (n : ℕ) : World :=
  ((KivePolicyReconciler.reconcile std kernelID).run (handle std podFields node kernelID)
    (beforePass std podFields node kernelID waits w n)).2

/-- The cluster is as it was, but for the wake-up of the first KiveData. -/
structure SameButForced (w w' : World) : Prop where
  kivePolicies : w'.cluster.kivePolicies = w.cluster.kivePolicies
  pods : w'.cluster.pods = w.cluster.pods
  kiveData : w'.cluster.kiveData.items =
    forceFirst (std.formatRFC3339 w.clock) w.cluster.kiveData.items
  nextUID : w'.cluster.kiveData.nextUID = w.cluster.kiveData.nextUID

/-- The passes first patch one policy each, then one runs to its end, and from then on they change
nothing. -/
structure Settles (waits : ℕ → ℕ) (w : World) : Prop where
  patches : ∀ n < policyPatchesLeft w.cluster.kivePolicies.items,
    PatchesOne std podFields node kernelID (beforePass std podFields node kernelID waits w n)
  reachesEnd : ∀ n ≥ policyPatchesLeft w.cluster.kivePolicies.items,
    ReachesEnd std podFields node kernelID (beforePass std podFields node kernelID waits w n)
  policies : (afterPass std podFields node kernelID waits w
      (policyPatchesLeft w.cluster.kivePolicies.items)).cluster.kivePolicies.items =
    settledPolicies w.cluster.kivePolicies.items
  applied : ∀ n, ∀ d ∈ appliedBy ((KivePolicyReconciler.reconcile std kernelID).events
      (handle std podFields node kernelID) (beforePass std podFields node kernelID waits w n)),
    ∃ site cd, d = kiveDataFor std kernelID (site, cd) ∧ SiteOf (fun p =>
      p ∈ (beforePass std podFields node kernelID waits w n).cluster.kivePolicies.items) site
  again : ∀ n > policyPatchesLeft w.cluster.kivePolicies.items,
    SameButForced std (beforePass std podFields node kernelID waits w n)
      (afterPass std podFields node kernelID waits w n)

/-- What has been applied is in the log. -/
lemma mem_appliedBy {events : List (Sigma Call.Answer)} {d : KiveData} :
    d ∈ appliedBy events ↔
      ∃ site a, (⟨.applyKiveData site d, a⟩ : Sigma Call.Answer) ∈ events := by
  rw [appliedBy, List.mem_filterMap]
  constructor
  · rintro ⟨⟨op, a⟩, he, hop⟩
    cases op with
    | applyKiveData site d' =>
      obtain rfl : d' = d := Option.some.inj hop
      exact ⟨site, a, he⟩
    | _ => cases hop
  · rintro ⟨site, a, he⟩
    exact ⟨_, he, rfl⟩

/-- A pass applies KiveData only for policies that it has listed and that are not being deleted. -/
lemma siteOf_of_mem_appliedBy {w : World} {d : KiveData}
    (hd : d ∈ appliedBy ((KivePolicyReconciler.reconcile std kernelID).events
      (handle std podFields node kernelID) w)) :
    ∃ site cd, d = kiveDataFor std kernelID (site, cd) ∧
      SiteOf (fun p => p ∈ w.cluster.kivePolicies.items) site := by
  rw [events_policyReconcile] at hd
  have honly : (policyLoop std kernelID w.cluster.kivePolicies.items >>= fun _ =>
      triggerKiveData).run.Only
        (PolicyCall std kernelID fun p => p ∈ w.cluster.kivePolicies.items) :=
    (only_policyLoop std kernelID fun _ => id).bindE fun _ => only_triggerKiveData std kernelID
  obtain ⟨site, a, he⟩ := mem_appliedBy.mp hd
  rcases List.mem_cons.mp he with heq | he
  · exact absurd (congrArg Sigma.fst heq) (by simp)
  · obtain ⟨hsite, cd, hcd⟩ : SiteOf (fun p => p ∈ w.cluster.kivePolicies.items) site ∧
        ∃ cd, d = kiveDataFor std kernelID (site, cd) := honly.of_mem_events he
    exact ⟨site, cd, hcd, hsite⟩

variable {std podFields} in
/-- Patching the finalizers of a policy leaves the policies ready. -/
lemma PoliciesReady.replace {policies : List KivePolicy}
    (hready : PoliciesReady std podFields pods h policies) {p : KivePolicy} (hp : p ∈ policies) :
    PoliciesReady std podFields pods h
      (Store.replace policies p (settle (refinalized p))) := by
  have hspec : (refinalized p).spec = p.spec ∧ (Deleting (refinalized p) ↔ Deleting p) ∧
      ∀ f ∈ (refinalized p).objectMeta.finalizers,
        f ∈ p.objectMeta.finalizers ∨ f = kivePolicyFinalizerName := by
    unfold refinalized addFinalizer
    split_ifs
    · exact ⟨rfl, Iff.rfl, fun f hf => Or.inl (List.mem_filter.mp hf).1⟩
    · exact ⟨rfl, Iff.rfl, fun f hf => Or.inl hf⟩
    · refine ⟨rfl, Iff.rfl, fun f hf => ?_⟩
      exact (List.mem_append.mp hf).imp id List.mem_singleton.mp
  have hmem : ∀ q ∈ Store.replace policies p (settle (refinalized p)),
      q ∈ policies ∨ q = refinalized p := fun q hq =>
    (Store.mem_of_mem_replace hq).imp id fun heq => (settle_eq_some_iff.mp heq).1.symm
  constructor
  · intro q hq f hf
    rcases hmem q hq with hq | rfl
    · exact hready.own q hq f hf
    · exact (hspec.2.2 f hf).elim (hready.own p hp f) id
  · intro q hq hdel t ht
    rcases hmem q hq with hq | rfl
    · exact hready.traps q hq hdel t ht
    · exact hready.traps p hp (fun h => hdel (hspec.2.1.mpr h)) t (hspec.1 ▸ ht)

section Runs

variable (waits : ℕ → ℕ) {w : World}

/-- After as many passes as are left, one each has been patched. -/
lemma beforePass_settling (hw : Looks node pods h w)
    (hready : PoliciesReady std podFields pods h w.cluster.kivePolicies.items) {n : ℕ}
    (hn : n ≤ policyPatchesLeft w.cluster.kivePolicies.items) :
    let v := beforePass std podFields node kernelID waits w n
    Looks node pods h v ∧
      PoliciesReady std podFields pods h v.cluster.kivePolicies.items ∧
      policyPatchesLeft v.cluster.kivePolicies.items + n =
        policyPatchesLeft w.cluster.kivePolicies.items ∧
      settledPolicies v.cluster.kivePolicies.items =
        settledPolicies w.cluster.kivePolicies.items := by
  induction n with
  | zero => exact ⟨⟨hw.pods, hw.host⟩, hready, rfl, rfl⟩
  | succ n ih =>
    obtain ⟨hlooks, hready', hleft, hsettled⟩ := ih (by omega)
    set v := beforePass std podFields node kernelID waits w n
    have hdue : ∃ p ∈ v.cluster.kivePolicies.items, FinalizerDue kivePolicyFinalizerName p := by
      by_contra hno
      have hzero : policyPatchesLeft v.cluster.kivePolicies.items = 0 :=
        policyPatchesLeft_eq_zero_iff.mpr fun p hp hdue => hno ⟨p, hp, hdue⟩
      omega
    obtain ⟨⟨-, -, p, hp, hdue, -, hitems⟩, hlooks'⟩ :=
      patchesOne_of_due std podFields node kernelID hlooks hready' hdue
    obtain ⟨hless, hsame⟩ := policyPatchesLeft_replace v.cluster.kivePolicies.items_nodup hp hdue
      (hready'.own p hp)
    intro v'
    have hitems' : v'.cluster.kivePolicies.items = Store.replace v.cluster.kivePolicies.items p
        (settle (refinalized p)) := hitems
    rw [hitems']
    refine ⟨⟨hlooks'.pods, hlooks'.host⟩, hready'.replace hp, ?_, hsame.trans hsettled⟩
    omega

/-- From then on every pass finds what the one before has applied. -/
lemma beforePass_settled {v : World} {u : Unit} {l : List KiveData} {k : ℕ}
    (hv : v = beforePass std podFields node kernelID waits w k) (hlooks : Looks node pods h v)
    (hperforms : Performs std podFields node kernelID pods h
      (policyLoop std kernelID v.cluster.kivePolicies.items) u l)
    (hl : ∀ d ∈ l, ∃ x, d = kiveDataFor std kernelID x) (m : ℕ) :
    let v' := beforePass std podFields node kernelID waits w (k + 1 + m)
    Looks node pods h v' ∧ v'.cluster.kivePolicies = v.cluster.kivePolicies ∧
      UpToDate l v'.cluster.kiveData := by
  have hforce : ∀ d ∈ l, forceReconcile ∉ d.objectMeta.annotations := by
    intro d hd
    obtain ⟨x, rfl⟩ := hl d hd
    exact forceReconcile_notMem_annotations std kernelID x
  have hpass : ∀ {v' : World}, Looks node pods h v' →
      v'.cluster.kivePolicies = v.cluster.kivePolicies →
      let v'' := ((KivePolicyReconciler.reconcile std kernelID).run
        (handle std podFields node kernelID) v').2
      Looks node pods h v'' ∧ v''.cluster.kivePolicies = v.cluster.kivePolicies ∧
        UpToDate l v''.cluster.kiveData := by
    intro v' hlooks' hpolicies v''
    rw [← hpolicies] at hperforms
    obtain ⟨-, hlooks'', hpolicies', hitems, -⟩ :=
      reachesEnd_of_performs std podFields node kernelID hlooks' hperforms
    exact ⟨hlooks'', hpolicies'.trans hpolicies,
      (upToDate_applyAll l v'.cluster.kiveData).forceFirst hforce hitems⟩
  induction m with
  | zero =>
    obtain ⟨hlooks', hpolicies, hdata⟩ := hpass hlooks rfl
    rw [hv] at hlooks' hpolicies hdata ⊢
    exact ⟨⟨hlooks'.pods, hlooks'.host⟩, hpolicies, hdata⟩
  | succ m ih =>
    obtain ⟨hlooks', hpolicies, hdata⟩ := hpass ih.1 ih.2.1
    exact ⟨⟨hlooks'.pods, hlooks'.host⟩, hpolicies, hdata⟩

end Runs

/-- Assume that no other controller has a finalizer on the policies, that the containers that traps
of live policies select are ready and their pods running, and that no file is left to create.  Then
there is one pass for each policy that lacks the finalizer or is being deleted, which patches one
such policy and returns; the next pass runs to its end, with the policies settled; and every further
pass leaves all objects as they were, but for the wake-up of the first KiveData. -/
theorem policyPasses_settle (waits : ℕ → ℕ) {w : World}
    (hready : PoliciesReady std podFields w.cluster.pods (w.hosts node)
      w.cluster.kivePolicies.items) :
    Settles std podFields node kernelID waits w := by
  have hw : Looks node w.cluster.pods (w.hosts node) w := ⟨rfl, .refl _⟩
  have hsettling := fun n =>
    beforePass_settling std podFields node kernelID waits hw hready (n := n)
  -- the first pass that runs to its end
  obtain ⟨hlooks, hready', hleft, hsettled⟩ := hsettling _ le_rfl
  set k := policyPatchesLeft w.cluster.kivePolicies.items with hk
  set v := beforePass std podFields node kernelID waits w k with hv
  have hdue : ∀ p ∈ v.cluster.kivePolicies.items, ¬ FinalizerDue kivePolicyFinalizerName p :=
    policyPatchesLeft_eq_zero_iff.mp (by omega)
  obtain ⟨u, l, hperforms, hl⟩ := repeats_policyLoop std podFields node kernelID hready' hdue
  have hfurther := beforePass_settled std podFields node kernelID waits hv hlooks hperforms hl
  obtain ⟨hend, -, hpolicies, -⟩ :=
    reachesEnd_of_performs std podFields node kernelID hlooks hperforms
  have hagain : ∀ n > k,
      ReachesEnd std podFields node kernelID (beforePass std podFields node kernelID waits w n) ∧
      SameButForced std (beforePass std podFields node kernelID waits w n)
        (afterPass std podFields node kernelID waits w n) := by
    intro n hn
    obtain ⟨m, rfl⟩ := Nat.exists_eq_add_of_le (show k + 1 ≤ n from hn)
    obtain ⟨hlooks', hpolicies', hdata⟩ := hfurther m
    rw [← hpolicies'] at hperforms
    obtain ⟨hend', hlooks'', hsame, hitems, huid⟩ :=
      reachesEnd_of_performs std podFields node kernelID hlooks' hperforms
    rw [hdata.applyAll_eq] at hitems huid
    exact ⟨hend', hsame, hlooks''.pods.trans hlooks'.pods.symm, hitems, huid⟩
  constructor
  · intro n hn
    obtain ⟨hlooks', hready'', hleft', -⟩ := hsettling n hn.le
    refine (patchesOne_of_due std podFields node kernelID hlooks' hready'' ?_).1
    by_contra hno
    have hzero := policyPatchesLeft_eq_zero_iff.mpr fun p hp hdue => hno ⟨p, hp, hdue⟩
    omega
  · intro n hn
    rcases Nat.eq_or_lt_of_le hn with rfl | hlt
    · exact hend
    · exact (hagain n hlt).1
  · change (((KivePolicyReconciler.reconcile std kernelID).run
      (handle std podFields node kernelID) v).2).cluster.kivePolicies.items = _
    rw [hpolicies, ← hsettled]
    exact (settledPolicies_eq_self hready'.own hdue).symm
  · exact fun n d hd => siteOf_of_mem_appliedBy std podFields node kernelID hd
  · exact fun n hn => (hagain n hn).2

end Passes

/-! ## Two policies to patch -/

namespace PassesSettle

open TrapRecords (trap std)

/-- A policy that lacks the finalizer, whose two traps lead to one file and so to one name. -/
def fresh : KivePolicy where
  objectMeta := { name := "policy", namespace_ := operatorNamespace }
  spec :=
    { alertVersion := "v1"
      traps := [{ trap "/data" "http://one" with create := true }, trap "/link" "http://two"] }

/-- A policy that has it. -/
def old : KivePolicy where
  objectMeta :=
    { name := "old", namespace_ := operatorNamespace, finalizers := [kivePolicyFinalizerName] }
  spec := { alertVersion := "v1", traps := [] }

/-- A cluster with the one policy, the other one being deleted. -/
def world : World :=
  (TrapRecords.world []).setKivePolicies ((Store.ofList [old, fresh]).delete (keyOf old)).2

/-- The pod is running, and its container is ready. -/
lemma policiesReady_world : PoliciesReady std .standard world.cluster.pods (world.hosts "node")
    world.cluster.kivePolicies.items := by
  refine ⟨by decide +kernel, fun p _ _ t _ g _ ps hps pod hpod c hc _ => ?_⟩
  have hpod' : pod = TrapRecords.pod := by
    have hmem : pod ∈ world.cluster.pods := mem_of_listPods hps hpod
    exact List.mem_singleton.mp hmem
  subst hpod'
  obtain rfl : c = ⟨"main", "containerd://aa", true⟩ := List.mem_singleton.mp hc
  refine ⟨rfl, rfl, fun _ _ pid _ s hs => ?_⟩
  have hs' : s = 0 := by
    change (if _ then some 0 else none) = some s at hs
    split_ifs at hs
    exact (Option.some.inj hs).symm
  rw [hs']
  exact Option.some_ne_none _

end PassesSettle

open PassesSettle TrapRecords in
/-- One policy is given the finalizer, the other one goes away, and from then on nothing changes. -/
theorem policyPasses_settle_two :
    PoliciesReady std .standard PassesSettle.world.cluster.pods (PassesSettle.world.hosts "node")
      PassesSettle.world.cluster.kivePolicies.items ∧
    policyPatchesLeft PassesSettle.world.cluster.kivePolicies.items = 2 ∧
    Settles std .standard "node" "k1" (fun _ => 1) PassesSettle.world :=
  ⟨policiesReady_world, by decide +kernel,
    policyPasses_settle std .standard "node" "k1" (fun _ => 1) policiesReady_world⟩

end Kive
