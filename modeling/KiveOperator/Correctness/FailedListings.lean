import KiveOperator.Cluster.Faults
import KiveOperator.Controller.DataLog
import KiveOperator.Controller.Justified
import KiveOperator.Correctness.TrapRecords

/-!
# Listings of pods that fail

The data reconciler lists the pods of a KiveData once for each of its traps.  One variable says both
whether the last trap was one of the KiveData's and whether the container was found; a failed
listing leaves it set, and the next trap overwrites it.  So the KiveData outlives a failed listing
when the container was found by another one, or when the failed one was for the last of all traps:
`check_keeps_iff` says so for a KiveData anywhere in the list of a pass.
-/

namespace Kive

open Interaction Object KiveDataReconciler

/-! ## One loop over all traps -/

/-- The traps of the policies that are not being deleted, in order. -/
def liveTraps (policies : List KivePolicy) : List KiveTrap :=
  (policies.filter fun p => ¬ Deleting p).flatMap fun p => p.spec.traps

section Loop

variable (std : Std) (d : KiveData)

/-- The loop goes on after the first traps, unless it has ended by then. -/
lemma trapLoop_append (traps traps' : List KiveTrap) (found : Bool) :
    trapLoop std d (traps ++ traps') found =
      trapLoop std d traps found >>= fun r =>
        if r.2 then pure r else trapLoop std d traps' r.1 := by
  induction traps generalizing found with
  | nil => rfl
  | cons t traps ih =>
    rw [List.cons_append, trapLoop, trapLoop, kiveDataTrapCmp_eq]
    cases d.objectMeta.labels.get trapIDLabel ==
      trapID std t (d.objectMeta.annotations.get "kive-alert-version") with
    | false => exact ih false
    | true =>
      refine congrArg (Prog.call _) (funext fun answer => ?_)
      cases answer with
      | error err => exact ih true
      | ok pods =>
        change (if containerExists d pods then _ else _) =
          (if containerExists d pods then pure (true, true) else trapLoop std d traps false) >>= _
        by_cases hc : containerExists d pods = true
        · rw [if_pos hc, if_pos hc]
          rfl
        · rw [if_neg hc, if_neg hc]
          exact ih false

/-- The loop over the policies is one loop over their traps. -/
lemma policyLoop_eq (policies : List KivePolicy) (found : Bool) :
    policyLoop std d policies found = Prod.fst <$> trapLoop std d (liveTraps policies) found := by
  induction policies generalizing found with
  | nil => rfl
  | cons p policies ih =>
    rw [policyLoop]
    by_cases hdel : Deleting p
    · rw [if_pos (show p.objectMeta.deletionTimestamp = true from hdel), ih, liveTraps, liveTraps,
        List.filter_cons_of_neg (by simpa using hdel)]
    · rw [if_neg (show ¬ p.objectMeta.deletionTimestamp = true from hdel), liveTraps,
        List.filter_cons_of_pos (by simpa using hdel), List.flatMap_cons, trapLoop_append, map_bind]
      refine bind_congr fun r => ?_
      dsimp only
      by_cases hr : r.2 = true
      · rw [if_pos hr, if_pos hr]
        rfl
      · rw [if_neg hr, if_neg hr]
        exact ih r.1

end Loop

/-! ## Listings -/

/-- A listing of pods has failed. -/
def ListingFailed (events : List (Sigma Call.Answer)) : Prop :=
  ∃ labels fields err, (⟨.listPods labels fields, .error err⟩ : Sigma Call.Answer) ∈ events

/-- The deletion of a KiveData has been requested. -/
def Deletes (d : KiveData) (events : List (Sigma Call.Answer)) : Prop :=
  ∃ answer, (⟨.deleteKiveData d, answer⟩ : Sigma Call.Answer) ∈ events

/-- Whether a call is a failed listing. -/
def isFailedListing : Sigma Call.Answer → Bool
  | ⟨.listPods _ _, .error _⟩ => true
  | _ => false

/-- Whether a call is the deletion of a KiveData. -/
def isDeletion (d : KiveData) : Sigma Call.Answer → Bool
  | ⟨.deleteKiveData d', _⟩ => d' = d
  | _ => false

instance (events : List (Sigma Call.Answer)) : Decidable (ListingFailed events) :=
  decidable_of_iff (events.any isFailedListing = true) <| by
    rw [List.any_eq_true]
    constructor
    · rintro ⟨⟨op, answer⟩, hmem, he⟩
      cases op
      case listPods labels fields =>
        cases answer with
        | error err => exact ⟨labels, fields, err, hmem⟩
        | ok pods => exact absurd he Bool.false_ne_true
      all_goals exact absurd he Bool.false_ne_true
    · rintro ⟨_, _, _, hmem⟩
      exact ⟨_, hmem, rfl⟩

instance (d : KiveData) (events : List (Sigma Call.Answer)) : Decidable (Deletes d events) :=
  decidable_of_iff (events.any (isDeletion d) = true) <| by
    rw [List.any_eq_true]
    constructor
    · rintro ⟨⟨op, answer⟩, hmem, he⟩
      cases op
      case deleteKiveData d' =>
        obtain rfl : d' = d := of_decide_eq_true he
        exact ⟨answer, hmem⟩
      all_goals exact absurd he Bool.false_ne_true
    · rintro ⟨_, hmem⟩
      exact ⟨_, hmem, decide_eq_true rfl⟩

/-- A list request failed in one of two stretches of calls. -/
lemma listingFailed_append {l l' : List (Sigma Call.Answer)} :
    ListingFailed (l ++ l') ↔ ListingFailed l ∨ ListingFailed l' := by
  simp only [ListingFailed, List.mem_append, exists_or]

/-- Without a call none has failed. -/
lemma not_listingFailed_nil : ¬ ListingFailed [] := by
  rintro ⟨_, _, _, h⟩
  cases h

section Run

variable (std : Std) {podFields : PodFields} (node kernelID : String) (faults : ℕ → Option Fault)

/-- A listing of the pods of a KiveData, which a fault makes fail. -/
lemma handleFaults_listPods (hf : podFields.Standard) (d : KiveData) (w : World) (n : ℕ) :
    handleFaults std podFields node kernelID faults (.listPods ∅ (matchingFields d)) (w, n) =
      (match faults n with
        | some f => .error f.err
        | none => .ok (w.cluster.pods.filter fun pod =>
            pod.name == d.objectMeta.annotations.get "pod-name" &&
            (pod.namespace_ == d.objectMeta.annotations.get "namespace" &&
              pod.nodeName == d.objectMeta.annotations.get "node-name")), (w, n + 1)) := by
  cases hfault : faults n with
  | none =>
    rw [handleFaults, hfault, handleFault_none]
    simp only [handle, listPods_matchingFields_kiveData hf]
  | some f =>
    have hsame :
        (handle std podFields node kernelID (.listPods ∅ (matchingFields d)) w).2 = w := rfl
    rw [handleFaults, hfault]
    simp only [handleFault, Call.refuse, Option.bind_some, Option.map_some, hsame, ite_self]

/-- The number of the traps that are a KiveData's, for each of which its pods are listed. -/
def listings (d : KiveData) (traps : List KiveTrap) : ℕ :=
  traps.countP fun t => IsTrapOf std d t

/-- The last of the traps is one of a KiveData's. -/
def LastIsTrapOf (d : KiveData) (traps : List KiveTrap) : Prop :=
  ∃ t ∈ traps.getLast?, IsTrapOf std d t

instance (d : KiveData) (traps : List KiveTrap) : Decidable (LastIsTrapOf std d traps) :=
  inferInstanceAs (Decidable (∃ t ∈ traps.getLast?, _))

/-- A listing that did not fail has shown the container. -/
def Shown (pods : List Pod) (d : KiveData) (traps : List KiveTrap) (n : ℕ) : Prop :=
  HasContainer pods d ∧ ∃ k < listings std d traps, faults (n + k) = none

/-- One more trap takes one more list request if it is that of the KiveData. -/
lemma listings_append (d : KiveData) (traps : List KiveTrap) (t : KiveTrap) :
    listings std d (traps ++ [t]) = listings std d traps + if IsTrapOf std d t then 1 else 0 := by
  rw [listings, List.countP_append, List.countP_singleton]
  simp [listings]

/-- The last trap of a list. -/
lemma lastIsTrapOf_append (d : KiveData) (traps : List KiveTrap) (t : KiveTrap) :
    LastIsTrapOf std d (traps ++ [t]) ↔ IsTrapOf std d t := by
  simp [LastIsTrapOf]

/-- One trap that is not the KiveData's. -/
lemma trapLoop_other {d : KiveData} {t : KiveTrap} (ht : ¬ IsTrapOf std d t) (found : Bool) :
    trapLoop std d [t] found = pure (false, false) := by
  rw [trapLoop, kiveDataTrapCmp_eq, beq_eq_false_iff_ne.mpr ht]
  rfl

/-- One trap that is the KiveData's: its pods are listed. -/
lemma trapLoop_own {d : KiveData} {t : KiveTrap} (ht : IsTrapOf std d t) (found : Bool) :
    trapLoop std d [t] found = Prog.call (.listPods ∅ (matchingFields d)) fun answer =>
      match answer with
      | .error _ => pure (true, false)
      | .ok pods => if containerExists d pods then pure (true, true) else pure (false, false) := by
  rw [trapLoop, kiveDataTrapCmp_eq, beq_iff_eq.mpr ht]
  refine congrArg (Prog.call _) (funext fun answer => ?_)
  cases answer <;> rfl

variable {std faults}

/-- As long as no listing has shown the container, all traps are visited: `found` then says whether
the last one was the KiveData's and its listing failed. -/
lemma run_trapLoop_not_shown (hf : podFields.Standard) {d : KiveData} {w : World} {n : ℕ}
    {traps : List KiveTrap} (h : ¬ Shown std faults w.cluster.pods d traps n) (found : Bool) :
    let handler := handleFaults std podFields node kernelID faults
    (trapLoop std d traps found).run handler (w, n) =
        ((if traps = [] then found else decide (LastIsTrapOf std d traps) &&
          (faults (n + (listings std d traps - 1))).isSome, false), (w, n + listings std d traps)) ∧
      (ListingFailed ((trapLoop std d traps found).events handler (w, n)) ↔
        ∃ k < listings std d traps, faults (n + k) ≠ none) := by
  intro handler
  induction traps using List.reverseRecOn with
  | nil =>
    refine ⟨rfl, iff_of_false not_listingFailed_nil ?_⟩
    rintro ⟨k, hk, -⟩
    exact absurd hk (Nat.not_lt_zero k)
  | append_singleton traps t ih =>
    have hbefore : ¬ Shown std faults w.cluster.pods d traps n := by
      rintro ⟨hc, k, hk, hnone⟩
      refine h ⟨hc, k, ?_, hnone⟩
      rw [listings_append]
      exact Nat.lt_add_right _ hk
    obtain ⟨hrun, hfailed⟩ := ih hbefore
    rw [trapLoop_append, Prog.run_bind, Prog.events_bind, hrun, listingFailed_append, hfailed,
      if_neg (List.append_ne_nil_of_right_ne_nil traps (List.cons_ne_nil t [])), listings_append]
    simp only [Bool.false_eq_true, if_false]
    by_cases ht : IsTrapOf std d t
    · have hlist := handleFaults_listPods std node kernelID faults hf d w (n + listings std d traps)
      change handler _ _ = _ at hlist
      rw [trapLoop_own std ht, if_pos ht,
        decide_eq_true ((lastIsTrapOf_append std d traps t).mpr ht), Bool.true_and,
        Nat.add_sub_cancel, Prog.run_call, Prog.events_call, hlist]
      -- the listing for this trap is the next one
      have hsplit : (∃ k < listings std d traps + 1, faults (n + k) ≠ none) ↔
          (∃ k < listings std d traps, faults (n + k) ≠ none) ∨
            faults (n + listings std d traps) ≠ none := by
        simp only [Nat.lt_succ_iff_lt_or_eq, or_and_right, exists_or, exists_eq_left]
      rw [hsplit]
      cases hfault : faults (n + listings std d traps) with
      | some f =>
        refine ⟨rfl, or_congr_right (iff_of_true ?_ (Option.some_ne_none f))⟩
        exact ⟨_, _, f.err, List.mem_cons_self⟩
      | none =>
        have hc : ¬ HasContainer w.cluster.pods d := by
          refine fun hc => h ⟨hc, listings std d traps, ?_, hfault⟩
          rw [listings_append, if_pos ht]
          exact Nat.lt_succ_self _
        have hfalse := mt (containerExists_filter_iff d w.cluster.pods).mp hc
        dsimp only
        rw [if_neg hfalse]
        refine ⟨rfl, or_congr_right (iff_of_false ?_ fun hne => hne rfl)⟩
        rintro ⟨labels, fields, err, hmem⟩
        obtain ⟨heq, ha⟩ := Sigma.mk.inj (List.mem_singleton.mp hmem)
        obtain ⟨rfl, rfl⟩ := Call.listPods.inj heq
        cases eq_of_heq ha
    · rw [trapLoop_other std ht, if_neg ht,
        decide_eq_false (fun hl => ht ((lastIsTrapOf_append std d traps t).mp hl)), Bool.false_and]
      exact ⟨rfl, or_iff_left not_listingFailed_nil⟩

/-- A listing that shows the container ends the loop. -/
lemma run_trapLoop_shown (hf : podFields.Standard) {d : KiveData} {w : World} {n : ℕ}
    {traps : List KiveTrap} (h : Shown std faults w.cluster.pods d traps n) (found : Bool) :
    ((trapLoop std d traps found).run (handleFaults std podFields node kernelID faults)
      (w, n)).1 = (true, true) := by
  induction traps using List.reverseRecOn with
  | nil =>
    obtain ⟨-, k, hk, -⟩ := h
    exact absurd hk (Nat.not_lt_zero k)
  | append_singleton traps t ih =>
    rw [trapLoop_append, Prog.run_bind]
    by_cases hbefore : Shown std faults w.cluster.pods d traps n
    · rw [ih hbefore, if_pos rfl]
      rfl
    · -- it is the listing for the last trap
      obtain ⟨hc, k, hk, hnone⟩ := h
      rw [listings_append] at hk
      have hle : listings std d traps ≤ k := by
        by_contra hlt
        exact hbefore ⟨hc, k, Nat.lt_of_not_le hlt, hnone⟩
      have ht : IsTrapOf std d t := by
        by_contra ht
        rw [if_neg ht] at hk
        omega
      rw [if_pos ht] at hk
      obtain rfl : k = listings std d traps := by omega
      rw [(run_trapLoop_not_shown node kernelID hf hbefore found).1,
        if_neg (show ¬ false = true by decide), trapLoop_own std ht, Prog.run_call,
        handleFaults_listPods std node kernelID faults hf, hnone]
      dsimp only
      rw [if_pos ((containerExists_filter_iff d w.cluster.pods).mpr hc)]
      rfl

/-! ## Checking a KiveData -/

variable (std podFields faults) in
/-- The calls that check a KiveData: those of the loop over all traps, and then its deletion or the
insertion of its key. -/
lemma eventsE_dataLoop_check {policies : List KivePolicy} {d : KiveData}
    (hfin : containsFinalizer d kiveDataFinalizerName = true) (hdel : ¬ Deleting d)
    (w : World × ℕ) :
    let handler := handleFaults std podFields node kernelID faults
    let loop := trapLoop std d (liveTraps policies) false
    ∃ answer answer', Prog.eventsE handler (dataLoop std policies [d]) w =
      loop.events handler w ++ [if (loop.run handler w).1.1 then ⟨.addInode d.mapKey, answer⟩
        else ⟨.deleteKiveData d, answer'⟩] := by
  intro handler loop
  refine ⟨(handler (.addInode d.mapKey) (loop.run handler w).2).1,
    (handler (.deleteKiveData d) (loop.run handler w).2).1, ?_⟩
  have hevents : (policyLoop std d policies false).events handler w = loop.events handler w := by
    rw [policyLoop_eq, map_eq_pure_bind, Prog.events_bind]
    exact List.append_nil _
  have hrun : (policyLoop std d policies false).run handler w =
      ((loop.run handler w).1.1, (loop.run handler w).2) := by
    rw [policyLoop_eq, map_eq_pure_bind, Prog.run_bind]
    rfl
  rw [dataLoop, if_neg (show ¬ d.objectMeta.deletionTimestamp = true from hdel), hfin,
    Bool.not_true, if_neg (by decide), Prog.eventsE_lift_bind, judge, Prog.events_bind, hevents,
    hrun]
  cases (loop.run handler w).1.1 <;> simp [dataLoop, Client.deleteKiveData, Ebpf.addInode]

/-- What a KiveData needs to outlive failed listings of its pods: none of them fails, or one that
does not fail shows its container, or the last of all traps is one of the KiveData's and its listing
is one of those that fail. -/
def Survives (std : Std) (faults : ℕ → Option Fault) (pods : List Pod) (policies : List KivePolicy)
    (d : KiveData) (n : ℕ) : Prop :=
  let traps := liveTraps policies
  (∀ k < listings std d traps, faults (n + k) = none) ∨ Shown std faults pods d traps n ∨
    (LastIsTrapOf std d traps ∧ faults (n + (listings std d traps - 1)) ≠ none)

end Run

/-- A KiveData is checked from the `n`-th call on, while any of its listings fail: it is not deleted
after a failed listing, if and only if it survives. -/
lemma oneCheck_keeps_iff (std : Std) {podFields : PodFields} (hf : podFields.Standard)
    (node kernelID : String) (faults : ℕ → Option Fault) (policies : List KivePolicy) {d : KiveData}
    (hfin : containsFinalizer d kiveDataFinalizerName = true) (hdel : ¬ Deleting d) (w : World)
    (n : ℕ) :
    let events := Prog.eventsE (handleFaults std podFields node kernelID faults)
      (dataLoop std policies [d]) (w, n)
    (ListingFailed events → ¬ Deletes d events) ↔
      Survives std faults w.cluster.pods policies d n := by
  intro events
  set handler := handleFaults std podFields node kernelID faults
  set traps := liveTraps policies
  set loop := trapLoop std d traps false
  obtain ⟨answer, answer', hevents⟩ :=
    eventsE_dataLoop_check std podFields node kernelID faults hfin hdel (w, n)
  have hlists : ∀ {op : Call} {a : op.Answer}, ⟨op, a⟩ ∈ loop.events handler (w, n) →
      IsListPods op := fun hmem => (only_trapLoop std d traps false).of_mem_events hmem
  have hfailed : ListingFailed events ↔ ListingFailed (loop.events handler (w, n)) := by
    rw [show events = _ from hevents, listingFailed_append]
    refine or_iff_left ?_
    rintro ⟨labels, fields, err, hmem⟩
    rw [List.mem_singleton] at hmem
    split_ifs at hmem <;> exact Call.noConfusion (Sigma.mk.inj hmem).1
  have hdeletes : ¬ Deletes d events ↔ (loop.run handler (w, n)).1.1 = true := by
    rw [show events = _ from hevents]
    constructor
    · intro hnone
      by_contra hfound
      exact hnone ⟨answer', List.mem_append_right _ (by rw [if_neg hfound, List.mem_singleton])⟩
    · rintro hfound ⟨a, hmem⟩
      rw [if_pos hfound] at hmem
      rcases List.mem_append.mp hmem with hmem | hmem
      · obtain ⟨_, _, hop⟩ := hlists hmem
        exact Call.noConfusion hop
      · exact Call.noConfusion (Sigma.mk.inj (List.mem_singleton.mp hmem)).1
  rw [hfailed, hdeletes, Survives]
  by_cases hshown : Shown std faults w.cluster.pods d traps n
  · rw [run_trapLoop_shown node kernelID hf hshown]
    exact iff_of_true (fun _ => rfl) (Or.inr (Or.inl hshown))
  · obtain ⟨hrun, hevents⟩ := run_trapLoop_not_shown node kernelID hf hshown false
    -- without traps there is no last one
    have hnil : traps = [] → ¬ LastIsTrapOf std d traps := by
      rintro hnil ⟨t, ht, -⟩
      rw [hnil] at ht
      cases ht
    have hfound : (loop.run handler (w, n)).1.1 = true ↔ LastIsTrapOf std d traps ∧
        faults (n + (listings std d traps - 1)) ≠ none := by
      rw [hrun]
      split_ifs with h
      · exact iff_of_false id fun hl => hnil h hl.1
      · rw [Bool.and_eq_true, decide_eq_true_eq, Option.isSome_iff_ne_none]
    have hnone : (∃ k < listings std d traps, faults (n + k) ≠ none) ↔
        ¬ ∀ k < listings std d traps, faults (n + k) = none := by
      push Not
      rfl
    rw [hevents, hfound, hnone]
    constructor
    · intro h
      by_cases hall : ∀ k < listings std d traps, faults (n + k) = none
      · exact Or.inl hall
      · exact Or.inr (Or.inr (h hall))
    · rintro (hall | hs | hlast) hex
      · exact absurd hall hex
      · exact absurd hs hshown
      · exact hlast

/-! ## The whole list -/

section List

variable {W : Type} (handler : (op : Call) → W → op.Answer × W) {std : Std}
  {policies : List KivePolicy} {d : KiveData}

/-- The loop over the listed KiveData, in two parts. -/
lemma dataLoop_append (l l' : List KiveData) : dataLoop std policies (l ++ l') =
    dataLoop std policies l >>= fun _ => dataLoop std policies l' := by
  induction l with
  | nil => rfl
  | cons x l ih =>
    rw [List.cons_append, dataLoop, dataLoop, ih]
    split_ifs
    · rw [bind_assoc]
    · rfl
    · rw [bind_assoc]
    · rw [bind_assoc]

/-- Only listed KiveData are deleted. -/
lemma not_deletes_dataLoop {items : List KiveData} (hd : d ∉ items) (s : W) :
    ¬ Deletes d (Prog.eventsE handler (dataLoop std policies items) s) := by
  rintro ⟨answer, hmem⟩
  have honly : (dataLoop std policies items).run.Only (DataLoopCall items) :=
    (obeys_dataLoop std policies (fun _ => id) []).only fun _ _ h => h
  have hcall : DataLoopCall items (.deleteKiveData d) := honly.of_mem_events hmem
  exact hd hcall.1

/-- The KiveData is deleted in one of two stretches of calls. -/
lemma deletes_append {l l' : List (Sigma Call.Answer)} :
    Deletes d (l ++ l') ↔ Deletes d l ∨ Deletes d l' := by
  simp only [Deletes, List.mem_append, exists_or]

/-- A pass that gets to a KiveData deletes it exactly if its check does. -/
lemma deletes_dataLoop_iff {front back : List KiveData} (hfront : d ∉ front) (hback : d ∉ back)
    {s s' : W} (hrun : Prog.runE handler (dataLoop std policies front) s = (.ok (), s')) :
    Deletes d (Prog.eventsE handler (dataLoop std policies (front ++ d :: back)) s) ↔
      Deletes d (Prog.eventsE handler (dataLoop std policies [d]) s') := by
  have hsplit : d :: back = [d] ++ back := rfl
  rw [dataLoop_append, Prog.eventsE_bind_of_ok _ hrun, deletes_append,
    or_iff_right (not_deletes_dataLoop handler hfront s), hsplit, dataLoop_append]
  cases hcheck : Prog.runE handler (dataLoop std policies [d]) s' with
  | mk answer s'' =>
    cases answer with
    | error o => rw [Prog.eventsE_bind_of_error _ hcheck]
    | ok u =>
      rw [Prog.eventsE_bind_of_ok _ hcheck, deletes_append,
        or_iff_left (not_deletes_dataLoop handler hback s'')]

end List

/-- A data pass over a list with a KiveData that has the finalizer and is not being deleted, while
any calls fail: if a listing of pods fails when the KiveData is checked, the pass does not delete
it, if and only if the KiveData survives in the state and from the call on in which the pass gets to
it. -/
theorem check_keeps_iff (std : Std) {podFields : PodFields} (hf : podFields.Standard)
    (node kernelID : String) (faults : ℕ → Option Fault) (policies : List KivePolicy)
    {front back : List KiveData} {d : KiveData} (hfront : d ∉ front) (hback : d ∉ back)
    (hfin : containsFinalizer d kiveDataFinalizerName = true) (hdel : ¬ Deleting d) (w : World)
    (n : ℕ) :
    let handler := handleFaults std podFields node kernelID faults
    let GetsTo := fun w' n' =>
      Prog.runE handler (dataLoop std policies front) (w, n) = (.ok (), (w', n'))
    (∀ w' n', GetsTo w' n' →
      ListingFailed (Prog.eventsE handler (dataLoop std policies [d]) (w', n')) →
      ¬ Deletes d (Prog.eventsE handler (dataLoop std policies (front ++ d :: back)) (w, n))) ↔
    ∀ w' n', GetsTo w' n' → Survives std faults w'.cluster.pods policies d n' := by
  intro handler GetsTo
  refine forall₂_congr fun w' n' => forall_congr' fun hrun => ?_
  rw [deletes_dataLoop_iff handler hfront hback hrun]
  exact oneCheck_keeps_iff std hf node kernelID faults policies hfin hdel w' n'

/-! ## Two traps -/

namespace FailedListings

open TrapRecords (trap policy)

/-- The first trap is that of the KiveData. -/
def policies : List KivePolicy :=
  [policy [trap "/data" "http://one", trap "/link" "http://two"]]

/-- The KiveData of the first trap and of the container of the pod. -/
def kiveData : KiveData where
  objectMeta :=
    { name := "7-2049-kive-data-web-aa", namespace_ := operatorNamespace,
      finalizers := [kiveDataFinalizerName]
      labels := StrMap.ofEntries
        [(trapIDLabel, trapID TrapRecords.std (trap "/data" "http://one") "v1")]
      annotations := StrMap.ofEntries
        [("kive-alert-version", "v1"), ("pod-name", "web"), ("namespace", "default"),
          ("node-name", "node"), ("container-name", "main"), ("container-id", "containerd://aa")] }
  spec := { inodeNo := 7, devID := 2049 }

/-- The first call fails. -/
def firstFails : ℕ → Option Fault
  | 0 => some ⟨"etcdserver: request timed out", false⟩
  | _ => none

/-- Another KiveData for the container. -/
def beside (name : String) : KiveData :=
  { kiveData with objectMeta := { kiveData.objectMeta with name := name } }

/-- The listing for the second KiveData fails: for the first one pods are listed and the key is
added. -/
def thirdFails (n : ℕ) : Option Fault :=
  if n = 2 then some ⟨"etcdserver: request timed out", false⟩ else none

/-- The calls that check the KiveData. -/
def events : List (Sigma Call.Answer) :=
  Prog.eventsE (handleFaults TrapRecords.std .standard "node" "k1" firstFails)
    (dataLoop TrapRecords.std policies [kiveData]) (TrapRecords.world [], 0)

end FailedListings

open FailedListings in
/-- Whether the KiveData outlives the failure of its listing, between two others. -/
theorem check_keeps_iff_between :
    let handler := handleFaults TrapRecords.std .standard "node" "k1" thirdFails
    let GetsTo := fun w' n' => Prog.runE handler (dataLoop TrapRecords.std policies [beside "b"])
      (TrapRecords.world [], 0) = (.ok (), (w', n'))
    (∀ w' n', GetsTo w' n' →
      ListingFailed (Prog.eventsE handler (dataLoop TrapRecords.std policies [kiveData])
        (w', n')) →
      ¬ Deletes kiveData (Prog.eventsE handler
        (dataLoop TrapRecords.std policies [beside "b", kiveData, beside "c"])
        (TrapRecords.world [], 0))) ↔
    ∀ w' n', GetsTo w' n' → Survives TrapRecords.std thirdFails w'.cluster.pods
      policies kiveData n' :=
  check_keeps_iff TrapRecords.std PodFields.standard_standard "node" "k1" thirdFails
    policies (by decide) (by decide) (by decide) (by decide) (TrapRecords.world []) 0

open FailedListings in
/-- The KiveData is justified and the listing for its trap fails; the second trap is another one,
and the KiveData is deleted. -/
theorem check_keeps_counterexample :
    Justified TrapRecords.std (TrapRecords.world []).cluster.pods FailedListings.policies kiveData ∧
      ListingFailed FailedListings.events ∧ Deletes kiveData FailedListings.events := by
  decide +kernel

end Kive
