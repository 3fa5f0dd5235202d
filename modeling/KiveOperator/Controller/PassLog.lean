import KiveOperator.Controller.DataLog
import KiveOperator.Controller.PodCalls
import KiveOperator.Controller.PolicyLog

/-!
# What whole passes have done before each call

The runs of the three reconcilers write only what they have read or found.  `PassCall` says for each
of them which calls it makes after given others, and `obeys_reconcile` that every run keeps to that,
whatever happens between its calls.
-/

namespace Kive

open Interaction

/-- The controllers of the operator. -/
inductive Controller where
  | kivePolicy
  | kivePod
  | kiveData
  deriving DecidableEq

/-- One run of a controller on a node with the given kernel. -/
def Controller.reconcile (std : Std) (kernelID : String) : Controller → CallProg Outcome
  | .kivePolicy => KivePolicyReconciler.reconcile std kernelID
  | .kivePod => KivePodReconciler.reconcile kernelID
  | .kiveData => KiveDataReconciler.reconcile std kernelID

/-! ## What was read -/

/-- A policy was in a list that was read. -/
def ListsKivePolicy (log : List (Sigma Call.Answer)) (p : KivePolicy) : Prop :=
  ∃ reader items, (⟨.listKivePolicies reader, .ok items⟩ : Sigma Call.Answer) ∈ log ∧ p ∈ items

/-- A KiveData was in a list that was read. -/
def ListsKiveData (log : List (Sigma Call.Answer)) (d : KiveData) : Prop :=
  ∃ reader labels items,
    (⟨.listKiveData reader labels, .ok items⟩ : Sigma Call.Answer) ∈ log ∧ d ∈ items

/-- A file was found at a site. -/
def Found (log : List (Sigma Call.Answer)) (site : Site) (containerData : ContainerData) : Prop :=
  (⟨.getContainerData site, .ok containerData⟩ : Sigma Call.Answer) ∈ log ∧
    containerData.isFound = true

/-- A policy that has been read stays so. -/
lemma ListsKivePolicy.mono {l l' : List (Sigma Call.Answer)} {p : KivePolicy}
    (h : ListsKivePolicy l p) (hl : l ⊆ l') : ListsKivePolicy l' p := by
  obtain ⟨reader, items, hmem, hp⟩ := h
  exact ⟨reader, items, hl hmem, hp⟩

/-- A KiveData that has been read stays so. -/
lemma ListsKiveData.mono {l l' : List (Sigma Call.Answer)} {d : KiveData}
    (h : ListsKiveData l d) (hl : l ⊆ l') : ListsKiveData l' d := by
  obtain ⟨reader, labels, items, hmem, hd⟩ := h
  exact ⟨reader, labels, items, hl hmem, hd⟩

/-- A list request reads its KiveData. -/
lemma listsKiveData_append_singleton {l : List (Sigma Call.Answer)} {reader : Reader}
    {labels : StrMap} {items : List KiveData} {d : KiveData} (hd : d ∈ items) :
    ListsKiveData (l ++ [⟨.listKiveData reader labels, .ok items⟩]) d :=
  ⟨reader, labels, items, List.mem_append_right l (List.mem_singleton_self _), hd⟩

/-- Calls other than list requests list no KiveData. -/
lemma ListsKiveData.of_append {l : List (Sigma Call.Answer)} {op : Call} {a : op.Answer}
    {d : KiveData} (hop : ∀ reader labels, op ≠ .listKiveData reader labels)
    (h : ListsKiveData (l ++ [⟨op, a⟩]) d) : ListsKiveData l d := by
  obtain ⟨reader, labels, items, hmem, hd⟩ := h
  rcases List.mem_append.mp hmem with hmem | hmem
  · exact ⟨reader, labels, items, hmem, hd⟩
  · exact absurd (Sigma.mk.inj (List.mem_singleton.mp hmem)).1.symm (hop reader labels)

/-- Without a call no KiveData has been read. -/
lemma not_listsKiveData_nil (d : KiveData) : ¬ ListsKiveData [] d := by
  rintro ⟨_, _, _, hmem, -⟩
  cases hmem

/-- A list request reads its policies. -/
lemma listsKivePolicy_append_singleton {l : List (Sigma Call.Answer)} {reader : Reader}
    {items : List KivePolicy} {p : KivePolicy} (hp : p ∈ items) :
    ListsKivePolicy (l ++ [⟨.listKivePolicies reader, .ok items⟩]) p :=
  ⟨reader, items, List.mem_append_right l (List.mem_singleton_self _), hp⟩

/-! ## The calls -/

section Calls

variable (std : Std) (kernelID : String)

/-- The calls of a policy pass after the calls `log`. -/
def PolicyPassCall (log : List (Sigma Call.Answer)) : Call → Prop
  | .listKivePolicies reader => reader = .uncached
  | .listKiveData reader labels => reader = .uncached ∧ labels = ∅
  | .patchKivePolicy orig modified => ListsKivePolicy log orig ∧
    ((Deleting orig ∧ modified = removeFinalizer orig kivePolicyFinalizerName) ∨
    (¬ Deleting orig ∧ modified = addFinalizer orig kivePolicyFinalizerName))
  | .patchKiveData orig modified => ListsKiveData log orig ∧
    ∃ time, modified = annotate orig "force-reconcile" time
  | .now => True
  | op => LoopCall std kernelID (ListsKivePolicy log) log op

/-- The calls of a pod pass after the calls `log`. -/
def PodPassCall (log : List (Sigma Call.Answer)) : Call → Prop
  | .deleteKiveData d => ListsKiveData log d
  | op => PodCall kernelID op

/-- The calls of a data pass after the calls `log`: the KiveData are listed once, and a key is
removed from the map right before the finalizer is. -/
def DataPassCall (log : List (Sigma Call.Answer)) : Call → Prop
  | .listKiveData reader labels => reader = .cached ∧
    labels = KiveDataReconciler.kiveDataLabels kernelID ∧ ∀ d, ¬ ListsKiveData log d
  | .deleteKiveData d => ListsKiveData log d ∧ ¬ Deleting d ∧ ¬ PatchDue d
  | .addInode mapKey => ∃ d, ListsKiveData log d ∧ ¬ Deleting d ∧ ¬ PatchDue d ∧ mapKey = d.mapKey
  | .removeInode mapKey => ∃ d, ListsKiveData log d ∧ Deleting d ∧ PatchDue d ∧ mapKey = d.mapKey
  | .patchKiveData orig modified => ListsKiveData log orig ∧ PatchDue orig ∧
    ((Deleting orig ∧ modified = removeFinalizer orig kiveDataFinalizerName ∧
      ∃ front answer, log = front ++ [⟨.removeInode orig.mapKey, answer⟩]) ∨
    (¬ Deleting orig ∧ modified = addFinalizer orig kiveDataFinalizerName))
  | op => DataCall kernelID op

/-- The calls of a pass of a controller after the calls `log`. -/
def PassCall : Controller → List (Sigma Call.Answer) → Call → Prop
  | .kivePolicy => PolicyPassCall std kernelID
  | .kivePod => PodPassCall kernelID
  | .kiveData => DataPassCall kernelID

variable {std kernelID} {c : Controller} {log : List (Sigma Call.Answer)}

/-- Only policy passes apply KiveData, and only for files that were found. -/
lemma passCall_applyKiveData {site : Site} {d : KiveData}
    (h : PassCall std kernelID c log (.applyKiveData site d)) :
    SiteOf (ListsKivePolicy log) site ∧
      ∃ cd, Found log site cd ∧ d = kiveDataFor std kernelID (site, cd) := by
  cases c with
  | kivePolicy =>
    obtain ⟨hsite, cd, hmem, hfound, hd⟩ := h
    exact ⟨hsite, cd, ⟨hmem, hfound⟩, hd⟩
  | kivePod => exact absurd h id
  | kiveData => exact absurd h id

/-- Policy passes alone apply KiveData. -/
lemma controller_of_applyKiveData {site : Site} {d : KiveData}
    (h : PassCall std kernelID c log (.applyKiveData site d)) : c = .kivePolicy := by
  cases c with
  | kivePolicy => rfl
  | kivePod => exact absurd h id
  | kiveData => exact absurd h id

/-- The patches of KiveData: a policy pass sets the annotation that wakes the data reconciler, a
data pass removes or adds the finalizer. -/
lemma passCall_patchKiveData {orig modified : KiveData}
    (h : PassCall std kernelID c log (.patchKiveData orig modified)) :
    ListsKiveData log orig ∧
      ((∃ time, modified = annotate orig "force-reconcile" time) ∨
      (c = .kiveData ∧ Deleting orig ∧ PatchDue orig ∧
        modified = removeFinalizer orig kiveDataFinalizerName ∧
        ∃ front answer, log = front ++ [⟨.removeInode orig.mapKey, answer⟩]) ∨
      (c = .kiveData ∧ ¬ Deleting orig ∧ PatchDue orig ∧
        modified = addFinalizer orig kiveDataFinalizerName)) := by
  cases c with
  | kivePolicy => exact ⟨h.1, Or.inl h.2⟩
  | kivePod => exact absurd h id
  | kiveData =>
    obtain ⟨hlisted, hdue, ⟨hdel, hmodified, hlog⟩ | ⟨hdel, hmodified⟩⟩ := h
    · exact ⟨hlisted, Or.inr (Or.inl ⟨rfl, hdel, hdue, hmodified, hlog⟩)⟩
    · exact ⟨hlisted, Or.inr (Or.inr ⟨rfl, hdel, hdue, hmodified⟩)⟩

end Calls

/-! ## Policy passes -/

section PolicyPass

variable (std : Std) (kernelID : String)

/-- What is done about a policy that has been read. -/
lemma obeys_policyStep {p : KivePolicy} {log : List (Sigma Call.Answer)}
    (hp : ListsKivePolicy log p) :
    (KivePolicyReconciler.policyStep std kernelID p).run.Obeys (PolicyPassCall std kernelID)
      (fun _ _ => True) log := by
  have hpatch : ∀ q, PolicyPassCall std kernelID log (.patchKivePolicy p q) →
      (KivePolicyReconciler.patchFinalizers p q).run.Obeys (PolicyPassCall std kernelID)
        (fun _ _ => True) log := by
    intro q hq
    apply Prog.Obeys.lift_perform
    · exact hq
    · intro answer
      cases answer <;> trivial
  unfold KivePolicyReconciler.policyStep
  split_ifs with hdel hfin hfin'
  · exact hpatch _ ⟨hp, Or.inl ⟨hdel, rfl⟩⟩
  · trivial
  · exact hpatch _ ⟨hp, Or.inr ⟨hdel, rfl⟩⟩
  · have hloop := (obeys_policyTrapLoop std kernelID hp hdel (fun _ h => h) log).grows
    refine hloop.mono (fun l op h => ?_) fun _ _ _ => trivial
    obtain ⟨hl, hop⟩ := h
    have hsite : ∀ site, SiteOf (ListsKivePolicy log) site → SiteOf (ListsKivePolicy l) site :=
      fun site h => ⟨h.1.mono hl, h.2⟩
    cases op with
    | listPods labels fields => trivial
    | getContainerData site => exact hsite site hop
    | applyKiveData site d => exact ⟨hsite site hop.1, hop.2⟩
    | _ => exact absurd hop id

/-- The loop over the policies that have been read. -/
lemma obeys_policyLoop {items : List KivePolicy} {log : List (Sigma Call.Answer)}
    (hitems : ∀ p ∈ items, ListsKivePolicy log p) :
    (KivePolicyReconciler.policyLoop std kernelID items).run.Obeys (PolicyPassCall std kernelID)
      (fun _ _ => True) log := by
  induction items generalizing log with
  | nil => trivial
  | cons p items ih =>
    have hstep := (obeys_policyStep std kernelID (hitems p List.mem_cons_self)).grows
    refine (hstep.mono (fun _ _ h => h.2) fun _ _ h => h).bindE (fun _ _ _ => trivial) ?_
    exact fun _ l hl => ih fun q hq => (hitems q (List.mem_cons_of_mem p hq)).mono hl.1

/-- The request that wakes the data reconciler. -/
lemma obeys_triggerKiveData (log : List (Sigma Call.Answer)) :
    KivePolicyReconciler.triggerKiveData.run.Obeys (PolicyPassCall std kernelID)
      (fun _ _ => True) log := by
  apply Prog.Obeys.lift_perform
  · exact ⟨rfl, rfl⟩
  · intro answer
    cases answer with
    | error err => trivial
    | ok items =>
      cases items with
      | nil => trivial
      | cons d items =>
        have hd : ListsKiveData (log ++ [⟨.listKiveData .uncached ∅, .ok (d :: items)⟩]) d :=
          listsKiveData_append_singleton List.mem_cons_self
        refine ⟨trivial, fun time => ⟨⟨hd.mono ?_, time, rfl⟩, fun _ => trivial⟩⟩
        exact List.subset_append_left _ _

/-- A policy pass keeps to its calls. -/
lemma obeys_policyPass :
    (KivePolicyReconciler.reconcile std kernelID).Obeys (PolicyPassCall std kernelID)
      (fun _ _ => True) [] := by
  apply Pass.obeys_toProg
  apply Prog.Obeys.lift_perform
  · rfl
  · intro answer
    cases answer with
    | error err => trivial
    | ok items =>
      have hlist : ∀ p ∈ items, ListsKivePolicy ([] ++ [⟨.listKivePolicies .uncached, .ok items⟩])
          p := fun p hp => listsKivePolicy_append_singleton hp
      refine (obeys_policyLoop std kernelID hlist).bindE (fun _ _ _ => trivial) ?_
      exact fun _ l _ => obeys_triggerKiveData std kernelID l

end PolicyPass

/-! ## Pod passes -/

section PodPass

variable (kernelID : String)

/-- The loop over the KiveData that have been read. -/
lemma obeys_podDataLoop (pods : List Pod) {items : List KiveData} {log : List (Sigma Call.Answer)}
    (hitems : ∀ d ∈ items, ListsKiveData log d) (flag : Bool) :
    (KivePodReconciler.dataLoop pods items flag).Obeys (PodPassCall kernelID) (fun _ _ => True)
      log := by
  induction items generalizing flag log with
  | nil => trivial
  | cons d items ih =>
    rw [KivePodReconciler.dataLoop]
    have hrest : ∀ d' ∈ items, ListsKiveData log d' := fun d' hd' =>
      hitems d' (List.mem_cons_of_mem d hd')
    cases pods.find? (KivePodReconciler.isRecordedPod d) with
    | some pod => exact ih hrest _
    | none =>
      refine ⟨hitems d List.mem_cons_self, fun answer => ih (fun d' hd' => ?_) flag⟩
      exact (hrest d' hd').mono (List.subset_append_left _ _)

/-- The request that wakes the policy reconciler. -/
lemma obeys_triggerKivePolicy (flag : Bool) (log : List (Sigma Call.Answer)) :
    (KivePodReconciler.triggerKivePolicy flag).Obeys (PodPassCall kernelID) (fun _ _ => True)
      log := by
  refine ⟨rfl, fun answer => ?_⟩
  cases answer with
  | error err => trivial
  | ok policies =>
    cases policies with
    | nil => trivial
    | cons p policies => exact ⟨trivial, fun time => ⟨⟨time, rfl⟩, fun _ => trivial⟩⟩

/-- A pod pass keeps to its calls. -/
lemma obeys_podPass :
    (KivePodReconciler.reconcile kernelID).Obeys (PodPassCall kernelID) (fun _ _ => True) [] := by
  refine ⟨⟨rfl, rfl⟩, fun answer => ?_⟩
  cases answer with
  | error err => trivial
  | ok items =>
    refine ⟨⟨rfl, rfl⟩, fun answer => ?_⟩
    cases answer with
    | error err => trivial
    | ok pods =>
      refine (obeys_podDataLoop kernelID pods (fun d hd => ?_) false).bind fun flag l _ =>
        obeys_triggerKivePolicy kernelID flag l
      exact (listsKiveData_append_singleton hd).mono (List.subset_append_left _ _)

end PodPass

/-! ## Data passes -/

section DataPass

variable (std : Std) (kernelID : String) {log : List (Sigma Call.Answer)} {d : KiveData}

/-- What is done about a KiveData that is being deleted. -/
lemma obeys_finalize (hd : ListsKiveData log d) (hdel : Deleting d) (hdue : PatchDue d) :
    (KiveDataReconciler.finalize d).run.Obeys (DataPassCall kernelID) (fun _ _ => True) log := by
  apply Prog.Obeys.lift_perform
  · exact ⟨d, hd, hdel, hdue, rfl⟩
  · intro answer
    apply Prog.Obeys.lift_perform
    · exact ⟨hd.mono (List.subset_append_left _ _), hdue, Or.inl ⟨hdel, rfl, log, answer, rfl⟩⟩
    · intro answer
      cases answer <;> trivial

/-- The patch that adds the finalizer. -/
lemma obeys_claim (hd : ListsKiveData log d) (hdel : ¬ Deleting d) (hdue : PatchDue d) :
    (KiveDataReconciler.claim d).run.Obeys (DataPassCall kernelID) (fun _ _ => True) log := by
  apply Prog.Obeys.lift_perform
  · exact ⟨hd, hdue, Or.inr ⟨hdel, rfl⟩⟩
  · intro answer
    cases answer <;> trivial

/-- The search for a KiveData that has its finalizer. -/
lemma obeys_judge_calls (policies : List KivePolicy) (hd : ListsKiveData log d)
    (hdel : ¬ Deleting d) (hdue : ¬ PatchDue d) :
    (KiveDataReconciler.judge std policies d).Obeys (DataPassCall kernelID) (fun _ _ => True)
      log := by
  have hjudge :=
    (@Prog.Only.obeys _ _ _ log _ _ (KiveDataReconciler.only_judge std policies d)).grows
  refine hjudge.mono ?_ fun _ _ _ => trivial
  rintro l op ⟨hl, ⟨labels, fields, rfl⟩ | rfl | rfl⟩
  · trivial
  · exact ⟨hd.mono hl, hdel, hdue⟩
  · exact ⟨d, hd.mono hl, hdel, hdue, rfl⟩

/-- The loop over the KiveData that have been read. -/
lemma obeys_dataLoop_calls (policies : List KivePolicy) {items : List KiveData}
    (hitems : ∀ d ∈ items, ListsKiveData log d) :
    (KiveDataReconciler.dataLoop std policies items).run.Obeys (DataPassCall kernelID)
      (fun _ _ => True) log := by
  induction items generalizing log with
  | nil => trivial
  | cons d items ih =>
    have hd := hitems d List.mem_cons_self
    -- the part for one KiveData, and the rest
    have hbind : ∀ {q : Pass Unit},
        q.run.Obeys (DataPassCall kernelID) (fun _ _ => True) log →
        (q >>= fun _ => KiveDataReconciler.dataLoop std policies items).run.Obeys
          (DataPassCall kernelID) (fun _ _ => True) log := by
      intro q hq
      refine (hq.grows.mono (fun _ _ h => h.2) fun _ _ h => h).bindE (fun _ _ _ => trivial) ?_
      exact fun _ l hl => ih fun d' hd' => (hitems d' (List.mem_cons_of_mem d hd')).mono hl.1
    rw [KiveDataReconciler.dataLoop]
    split_ifs with hdel hfin hfin'
    · exact hbind (obeys_finalize kernelID hd hdel ⟨fun _ => hfin, fun _ => hdel⟩)
    · exact ih fun d' hd' => hitems d' (List.mem_cons_of_mem d hd')
    · have hno : containsFinalizer d kiveDataFinalizerName ≠ true := by simpa using hfin'
      exact hbind (obeys_claim kernelID hd hdel ⟨fun h => absurd h hdel, fun h => absurd h hno⟩)
    · have hhas : containsFinalizer d kiveDataFinalizerName = true := by simpa using hfin'
      exact hbind (obeys_judge_calls std kernelID policies hd hdel fun hdue =>
        hdel (hdue.mpr hhas)).lift

/-- A data pass keeps to its calls. -/
lemma obeys_dataPass :
    (KiveDataReconciler.reconcile std kernelID).Obeys (DataPassCall kernelID) (fun _ _ => True)
      [] := by
  apply Pass.obeys_toProg
  have hload : KiveDataReconciler.ensureLoaded.run.Obeys (DataPassCall kernelID)
      (fun _ l => ∀ d, ¬ ListsKiveData l d) [] := by
    have hfirst : ∀ (loaded : Bool) d, ¬ ListsKiveData ([] ++ [⟨.ebpfLoaded, loaded⟩]) d :=
      fun _ d h => not_listsKiveData_nil d (h.of_append (by simp))
    apply Prog.Obeys.lift_perform
    · trivial
    · intro loaded
      split_ifs
      · apply Prog.Obeys.lift_perform
        · trivial
        · intro answer
          have hsecond : ∀ d, ¬ ListsKiveData
              ([] ++ [⟨.ebpfLoaded, loaded⟩] ++ [⟨.loadEbpf, answer⟩]) d :=
            fun d h => hfirst loaded d (h.of_append (by simp))
          cases answer <;> exact hsecond
      · exact hfirst loaded
  refine hload.bindE (fun _ _ _ => trivial) fun _ l hl => ?_
  apply Prog.Obeys.lift_perform
  · exact ⟨rfl, rfl, hl⟩
  · intro answer
    cases answer with
    | error err => trivial
    | ok items =>
      apply Prog.Obeys.lift_perform
      · rfl
      · intro answer
        cases answer with
        | error err => trivial
        | ok policies =>
          refine (obeys_dataLoop_calls std kernelID policies fun d hd => ?_).bindE
            (fun _ _ _ => trivial) fun _ _ _ => trivial
          exact (listsKiveData_append_singleton hd).mono (List.subset_append_left _ _)

end DataPass

/-- A run of a controller makes only such calls. -/
theorem obeys_reconcile (std : Std) (kernelID : String) (c : Controller) :
    (c.reconcile std kernelID).Obeys (PassCall std kernelID c) (fun _ _ => True) [] := by
  cases c with
  | kivePolicy => exact obeys_policyPass std kernelID
  | kivePod => exact obeys_podPass kernelID
  | kiveData => exact obeys_dataPass std kernelID

end Kive
