import KiveOperator.Cluster.Faults
import KiveOperator.Controller.DataLog
import KiveOperator.Controller.PolicyLog
import KiveOperator.Correctness.TrapRecords

/-!
# Which failures a pass reports

A pass reports a failure by returning an error or by asking to be run again.  Many failing calls
are only logged: `failuresReported_iff` says when a pass in which such a call fails reports it
nevertheless, and when a pass that reports nothing has left the keys of the KiveData that it kept
in the map.
-/

namespace Kive

open Interaction

/-- A pass that returns an error or asks to be run again. -/
def Reports : Outcome → Prop
  | .error _ => True
  | .ok r => r.requeue = true

instance (o : Outcome) : Decidable (Reports o) :=
  match o with
  | .error _ => isTrue trivial
  | .ok _ => inferInstanceAs (Decidable (_ = _))

/-- A request to run the pass again is a report. -/
lemma reports_requeue : Reports requeue := rfl

/-- The plain end of a pass is none. -/
lemma not_reports_done : ¬ Reports done := Bool.false_ne_true

/-! ## Policy passes -/

/-- A pod listing or an apply that fails. -/
def isLostByPolicyPass : Sigma Call.Answer → Bool
  | ⟨.listPods _ _, .error _⟩ => true
  | ⟨.applyKiveData _ _, .error _⟩ => true
  | _ => false

/-- The calls with which a policy pass comes to its end: a patch of a policy's finalizers, or the
listing of the KiveData after all policies, where they succeed. -/
def isLastOfPolicyPass : Sigma Call.Answer → Bool
  | ⟨.patchKivePolicy _ _, .ok _⟩ => true
  | ⟨.listKiveData _ _, .ok _⟩ => true
  | _ => false

/-- A policy pass has come to its end. -/
def Completed (log : List (Sigma Call.Answer)) : Prop :=
  ∃ e ∈ log, isLastOfPolicyPass e = true

/-- A pass comes to its end in one of two stretches of calls. -/
lemma completed_append {l l' : List (Sigma Call.Answer)} :
    Completed (l ++ l') ↔ Completed l ∨ Completed l' := by
  simp only [Completed, List.mem_append, or_and_right, exists_or]

/-- A single call brings a pass to its end if it is one of the last calls. -/
lemma completed_singleton {e : Sigma Call.Answer} :
    Completed [e] ↔ isLastOfPolicyPass e = true := by
  simp [Completed]

section PolicyPass

variable (std : Std) (kernelID : String)

/-- A part of a policy pass goes on as long as the pass has not come to its end, and a result that
it returns reports something exactly if that is so still. -/
def PolicyEnd {α : Type} (r : Except Outcome α) (log : List (Sigma Call.Answer)) : Prop :=
  match r with
  | .ok _ => ¬ Completed log
  | .error o => Reports o ↔ ¬ Completed log

/-- One part after the other. -/
lemma obeys_policyEnd_bind {α β : Type} {p : Pass α} {f : α → Pass β}
    {log : List (Sigma Call.Answer)} (hp : p.run.Obeys (fun _ _ => True) PolicyEnd log)
    (hf : ∀ a l, ¬ Completed l → (f a).run.Obeys (fun _ _ => True) PolicyEnd l) :
    (p >>= f).run.Obeys (fun _ _ => True) PolicyEnd log :=
  hp.bindE (fun _ _ h => h) hf

/-- Patching the finalizers of a policy ends the pass, or fails with a report. -/
lemma obeys_patchFinalizers_end (p p' : KivePolicy) {log : List (Sigma Call.Answer)}
    (hlog : ¬ Completed log) :
    (KivePolicyReconciler.patchFinalizers p p').run.Obeys (fun _ _ => True) PolicyEnd log := by
  apply Prog.Obeys.lift_perform
  · trivial
  · intro answer
    have hend : Completed (log ++ [⟨.patchKivePolicy p p', answer⟩]) ↔ _ := completed_append
    rw [completed_singleton] at hend
    cases answer with
    | error err =>
      refine iff_of_true reports_requeue fun hcompleted => ?_
      exact (hend.mp hcompleted).elim hlog Bool.false_ne_true
    | ok u => exact iff_of_false not_reports_done (not_not_intro (hend.mpr (Or.inr rfl)))

/-- The loop over the traps makes none of the last calls. -/
lemma obeys_policyTrapLoop_end {p : KivePolicy} (hdel : ¬ Deleting p)
    {log : List (Sigma Call.Answer)} (hlog : ¬ Completed log) :
    (KivePolicyReconciler.trapLoop std kernelID p p.spec.traps).run.Obeys (fun _ _ => True)
      PolicyEnd log := by
  have hloop := obeys_policyTrapLoop std kernelID (rfl : p = p) hdel (fun _ h => h) log
  refine (hloop.keep (I := fun l => ¬ Completed l) hlog ?_).mono (fun _ _ _ => trivial) ?_
  · intro l op a hl hop hcompleted
    rcases completed_append.mp hcompleted with h | h
    · exact hl h
    · rw [completed_singleton] at h
      cases op <;> first | exact hop | exact Bool.false_ne_true h
  · rintro r l ⟨hl, hr⟩
    cases r with
    | ok u => exact hl
    | error o =>
      obtain rfl := hr o rfl
      exact iff_of_true reports_requeue hl

/-- What is done about one policy goes on, ends the pass or reports. -/
lemma obeys_policyStep_end (p : KivePolicy) {log : List (Sigma Call.Answer)}
    (hlog : ¬ Completed log) :
    (KivePolicyReconciler.policyStep std kernelID p).run.Obeys (fun _ _ => True) PolicyEnd
      log := by
  unfold KivePolicyReconciler.policyStep
  split_ifs with hdel
  · exact obeys_patchFinalizers_end p _ hlog
  · exact hlog
  · exact obeys_patchFinalizers_end p _ hlog
  · exact obeys_policyTrapLoop_end std kernelID hdel hlog

/-- The loop over the policies goes on, ends the pass or reports. -/
lemma obeys_policyLoop_end (items : List KivePolicy) {log : List (Sigma Call.Answer)}
    (hlog : ¬ Completed log) :
    (KivePolicyReconciler.policyLoop std kernelID items).run.Obeys (fun _ _ => True) PolicyEnd
      log := by
  induction items generalizing log with
  | nil => exact hlog
  | cons p items ih =>
    exact obeys_policyEnd_bind (obeys_policyStep_end std kernelID p hlog) fun _ _ => ih

/-- The wake-up comes to the end of the pass when the KiveData are listed. -/
lemma obeys_triggerKiveData_end {log : List (Sigma Call.Answer)} (hlog : ¬ Completed log) :
    KivePolicyReconciler.triggerKiveData.run.Obeys (fun _ _ => True)
      (fun r log => Reports (Pass.result r) ↔ ¬ Completed log) log := by
  apply Prog.Obeys.lift_perform
  · trivial
  · intro answer
    have hend : Completed (log ++ [⟨.listKiveData .uncached ∅, answer⟩]) ↔ _ := completed_append
    rw [completed_singleton] at hend
    cases answer with
    | error err =>
      refine iff_of_true trivial fun hcompleted => ?_
      exact (hend.mp hcompleted).elim hlog Bool.false_ne_true
    | ok items =>
      have hlisted := hend.mpr (Or.inr rfl)
      cases items with
      | nil => exact iff_of_false not_reports_done (not_not_intro hlisted)
      | cons d items =>
        refine ⟨trivial, fun time => ⟨trivial, fun answer => ?_⟩⟩
        refine iff_of_false not_reports_done (not_not_intro ?_)
        exact completed_append.mpr (Or.inl (completed_append.mpr (Or.inl hlisted)))

/-- A whole policy pass reports something exactly if it has not come to its end. -/
lemma obeys_policyReconcile_end :
    (KivePolicyReconciler.reconcile std kernelID).Obeys (fun _ _ => True)
      (fun o log => Reports o ↔ ¬ Completed log) [] := by
  apply Pass.obeys_toProg
  apply Prog.Obeys.lift_perform
  · trivial
  · intro answer
    have hlog : ¬ Completed ([] ++ [(⟨.listKivePolicies .uncached, answer⟩ :
        Sigma Call.Answer)]) := by
      rw [List.nil_append, completed_singleton]
      exact Bool.false_ne_true
    cases answer with
    | error err => exact iff_of_true trivial hlog
    | ok items =>
      exact (obeys_policyLoop_end std kernelID items hlog).bindE (fun _ _ h => h)
        fun _ _ => obeys_triggerKiveData_end

end PolicyPass

/-! ## Data passes -/

/-- A pod listing, a map update or a deletion that fails. -/
def isLostByDataPass : Sigma Call.Answer → Bool
  | ⟨.listPods _ _, .error _⟩ => true
  | ⟨.addInode _, .error _⟩ => true
  | ⟨.deleteKiveData _, .error _⟩ => true
  | _ => false

/-- The failures that a data pass returns with: of loading the program, of the list requests for
KiveData and policies, and of a patch of finalizers. -/
def isReportedByDataPass : Sigma Call.Answer → Bool
  | ⟨.loadEbpf, .error _⟩ => true
  | ⟨.listKiveData _ _, .error _⟩ => true
  | ⟨.listKivePolicies _, .error _⟩ => true
  | ⟨.patchKiveData _ _, .error _⟩ => true
  | _ => false

/-- A data pass has met a failure that it returns with. -/
def MetReported (log : List (Sigma Call.Answer)) : Prop :=
  ∃ e ∈ log, isReportedByDataPass e = true

/-- A failure that is returned with is met in one of two stretches of calls. -/
lemma metReported_append {l l' : List (Sigma Call.Answer)} :
    MetReported (l ++ l') ↔ MetReported l ∨ MetReported l' := by
  simp only [MetReported, List.mem_append, or_and_right, exists_or]

/-- A single call is such a failure if it is of that kind. -/
lemma metReported_singleton {e : Sigma Call.Answer} :
    MetReported [e] ↔ isReportedByDataPass e = true := by
  simp [MetReported]

section DataPass

variable (std : Std) (kernelID : String)

/-- A part of a data pass goes on as long as it has met no failure to return with, and a result
that it returns reports something exactly if it has. -/
def DataEnd {α : Type} (r : Except Outcome α) (log : List (Sigma Call.Answer)) : Prop :=
  match r with
  | .ok _ => ¬ MetReported log
  | .error o => Reports o ↔ MetReported log

/-- The loop over the KiveData reports exactly if it meets such a failure. -/
lemma obeys_dataLoop_end (policies : List KivePolicy) (items : List KiveData)
    {log : List (Sigma Call.Answer)} (hlog : ¬ MetReported log) :
    (KiveDataReconciler.dataLoop std policies items).run.Obeys (fun _ _ => True) DataEnd log := by
  have hloop := obeys_dataLoop std policies (fun _ h => h : ∀ d ∈ items, d ∈ items) log
  -- of the calls of the loop the pass returns only with patches
  refine (hloop.keep (I := fun l => ∀ e ∈ l, isReportedByDataPass e = true →
    ∃ d d', e.1 = .patchKiveData d d') ?_ ?_).mono (fun _ _ _ => trivial) ?_
  · exact fun e he hloud => absurd ⟨e, he, hloud⟩ hlog
  · intro l op a hl hop e he hloud
    rcases List.mem_append.mp he with he | he
    · exact hl e he hloud
    · obtain rfl := List.mem_singleton.mp he
      cases op with
      | patchKiveData d d' => exact ⟨d, d', rfl⟩
      | _ => first | exact absurd hop id | exact absurd hloud Bool.false_ne_true
  · rintro r _ ⟨hpatch, l, rfl, hend⟩
    cases r with
    | ok u =>
      rintro ⟨e, he, hloud⟩
      rcases List.mem_append.mp he with he' | he'
      · exact hlog ⟨e, he', hloud⟩
      · obtain ⟨d, d', heq⟩ := hpatch e he hloud
        have hnone := hend e he'
        rw [heq] at hnone
        exact Bool.noConfusion hnone
    | error o =>
      obtain ⟨front, orig, modified, answer, rfl, hfront, rfl⟩ := hend
      have hquiet : ¬ MetReported front := by
        rintro ⟨e, he, hloud⟩
        obtain ⟨d, d', heq⟩ := hpatch e (by simp [he]) hloud
        exact hfront e he d d' heq
      have hmet : MetReported (log ++ (front ++ [⟨.patchKiveData orig modified, answer⟩])) ↔
          isReportedByDataPass ⟨.patchKiveData orig modified, answer⟩ = true := by
        rw [metReported_append, metReported_append, metReported_singleton, or_iff_right hlog,
          or_iff_right hquiet]
      change Reports (afterPatch answer) ↔ _
      rw [hmet]
      cases answer with
      | error err => exact iff_of_true reports_requeue rfl
      | ok u => exact iff_of_false not_reports_done Bool.false_ne_true

/-- One call, and what is done with its answer. -/
lemma obeys_dataEnd_call {β : Type} {Q : Except Outcome β → List (Sigma Call.Answer) → Prop}
    {log : List (Sigma Call.Answer)} (hlog : ¬ MetReported log) {op : Call}
    {f : op.Answer → Pass β}
    (hf : ∀ a, (¬ MetReported (log ++ [⟨op, a⟩]) ↔ isReportedByDataPass ⟨op, a⟩ = false) →
      (f a).run.Obeys (fun _ _ => True) Q (log ++ [⟨op, a⟩])) :
    (liftM (Prog.perform op : CallProg op.Answer) >>= f : Pass β).run.Obeys (fun _ _ => True) Q
      log := by
  apply Prog.Obeys.lift_perform
  · trivial
  · intro a
    refine hf a ?_
    rw [metReported_append, metReported_singleton, or_iff_right hlog, Bool.not_eq_true]

/-- Loading the program reports exactly if it fails. -/
lemma obeys_ensureLoaded_end :
    KiveDataReconciler.ensureLoaded.run.Obeys (fun _ _ => True) DataEnd [] := by
  have hnil : ¬ MetReported [] := by
    rintro ⟨e, he, hmet⟩
    cases he
  refine obeys_dataEnd_call hnil fun loaded hloaded => ?_
  have hquiet := hloaded.mpr rfl
  split_ifs
  · refine obeys_dataEnd_call hquiet fun answer hanswer => ?_
    cases answer with
    | error err => exact iff_of_true trivial (not_not.mp fun h => by cases hanswer.mp h)
    | ok u => exact hanswer.mpr rfl
  · exact hquiet

/-- A whole data pass reports something exactly if it has met a failure that it returns with. -/
lemma obeys_dataReconcile_end :
    (KiveDataReconciler.reconcile std kernelID).Obeys (fun _ _ => True)
      (fun o log => Reports o ↔ MetReported log) [] := by
  apply Pass.obeys_toProg
  refine obeys_ensureLoaded_end.bindE (fun _ _ h => h) fun _ log hlog => ?_
  refine obeys_dataEnd_call hlog fun answer hanswer => ?_
  cases answer with
  | error err => exact iff_of_true trivial (not_not.mp fun h => by cases hanswer.mp h)
  | ok items =>
    have hlog := hanswer.mpr rfl
    refine obeys_dataEnd_call hlog fun answer hanswer => ?_
    cases answer with
    | error err => exact iff_of_true trivial (not_not.mp fun h => by cases hanswer.mp h)
    | ok policies =>
      have hlog := hanswer.mpr rfl
      refine (obeys_dataLoop_end std policies items hlog).bindE (fun _ _ h => h) ?_
      exact fun _ log hlog => iff_of_false not_reports_done hlog

end DataPass

/-! ## Keys that a data pass keeps -/

/-- The keys that were to be put into the map. -/
def keptKeys (log : List (Sigma Call.Answer)) : List BpfMapKey :=
  log.filterMap fun e => match e.1 with
    | .addInode mapKey => some mapKey
    | _ => none

/-- A data pass starts by loading the program where that has not been done, and does it at no other
time. -/
def LoadsFirst (log : List (Sigma Call.Answer)) : Prop :=
  ∃ first rest, log = first ++ rest ∧
    (first = [⟨.ebpfLoaded, true⟩] ∨
      ∃ answer, first = [⟨.ebpfLoaded, false⟩, ⟨.loadEbpf, answer⟩]) ∧
    ∀ e ∈ rest, e.1 ≠ .loadEbpf

section Keys

variable (std : Std) (kernelID : String)

/-- If the program is loaded at all, that is what a pass does first. -/
lemma obeys_ensureLoaded_first :
    KiveDataReconciler.ensureLoaded.run.Obeys (fun _ _ => True) (fun _ log => LoadsFirst log)
      [] := by
  apply Prog.Obeys.lift_perform
  · trivial
  · intro loaded
    cases loaded with
    | true => exact ⟨[⟨.ebpfLoaded, true⟩], [], rfl, Or.inl rfl, fun _ h => by cases h⟩
    | false =>
      apply Prog.Obeys.lift_perform
      · trivial
      · intro answer
        have hfirst : LoadsFirst [⟨.ebpfLoaded, false⟩, ⟨.loadEbpf, answer⟩] :=
          ⟨_, [], rfl, Or.inr ⟨answer, rfl⟩, fun _ h => by cases h⟩
        cases answer <;> exact hfirst

/-- After that the program is not loaded. -/
lemma obeys_dataReconcile_first :
    (KiveDataReconciler.reconcile std kernelID).Obeys (fun _ _ => True)
      (fun _ log => LoadsFirst log) [] := by
  apply Pass.obeys_toProg
  refine obeys_ensureLoaded_first.bindE (fun _ _ h => h) fun _ log hlog => ?_
  have hrest : ∀ {q : CallProg (Except Outcome Outcome)},
      q.Obeys (fun _ op => op ≠ .loadEbpf) (fun _ _ => True) log →
      q.Obeys (fun _ _ => True) (fun _ log => LoadsFirst log) log := by
    intro q hq
    refine (hq.keep hlog ?_).mono (fun _ _ _ => trivial) fun _ _ h => h.1
    rintro _ op a ⟨first, rest, rfl, hfirst, hrest⟩ hop
    refine ⟨first, rest ++ [⟨op, a⟩], List.append_assoc first rest _, hfirst, fun e he => ?_⟩
    rcases List.mem_append.mp he with he | he
    · exact hrest e he
    · obtain rfl := List.mem_singleton.mp he
      exact hop
  apply hrest
  apply Prog.Obeys.lift_perform
  · simp
  · intro answer
    cases answer with
    | error err => trivial
    | ok items =>
      apply Prog.Obeys.lift_perform
      · simp
      · intro answer
        cases answer with
        | error err => trivial
        | ok policies =>
          have hloop := obeys_dataLoop std policies (fun _ h => h : ∀ d ∈ items, d ∈ items)
          refine Prog.Obeys.bindE ((hloop _).mono (fun _ op hop => ?_) fun _ _ _ => trivial)
            (fun _ _ _ => trivial) fun _ _ _ => trivial
          rintro rfl
          exact hop

/-- Calls that neither load the program nor are made for a finalizer add the keys to the map of a
loaded kernel. -/
lemma tracedInodes_foldl_kernelAfter {log : List (Sigma Call.Answer)}
    (hload : ∀ e ∈ log, e.1 ≠ .loadEbpf) (hfin : NoFinalizing log) {k : Kernel}
    (hk : k.loaded = true) :
    (log.foldl (fun k e => kernelAfter e.1 k) k).tracedInodes =
      k.tracedInodes.addInodes (keptKeys log) := by
  induction log generalizing k with
  | nil => rfl
  | cons e log ih =>
    have ih := @ih (fun e' he' => hload e' (List.mem_cons_of_mem e he'))
      (fun e' he' => hfin e' (List.mem_cons_of_mem e he'))
    have hnot := hload e List.mem_cons_self
    have hnot' := hfin e List.mem_cons_self
    obtain ⟨op, answer⟩ := e
    rw [List.foldl_cons]
    cases op
    case loadEbpf => exact absurd rfl hnot
    case removeInode => exact Bool.noConfusion hnot'
    case addInode mapKey =>
      have hstep := ih (k := (k.addInode mapKey).2) (by simpa using hk)
      rw [Kernel.tracedInodes_addInode hk] at hstep
      exact hstep
    all_goals exact ih hk

section Run

variable (podFields : PodFields) (node : String) (faults : ℕ → Option Fault)

/-- The calls of a data pass, its `n`-th call being befallen by `faults n`. -/
def dataEvents (w : World) : List (Sigma Call.Answer) :=
  (KiveDataReconciler.reconcile std kernelID).events
    (handleFaults std podFields node kernelID faults) (w, 0)

/-- The map after the pass. -/
def mapAfter (w : World) : TracedInodes :=
  (((KiveDataReconciler.reconcile std kernelID).run
    (handleFaults std podFields node kernelID faults) (w, 0)).2.1.kernels kernelID).tracedInodes

/-- A pass that meets no finalizer adds its keys to the map. -/
lemma mapAfter_eq {w : World}
    (hfin : NoFinalizing (dataEvents std kernelID podFields node faults w)) :
    mapAfter std kernelID podFields node faults w =
      (w.kernels kernelID).tracedInodes.addInodes
        (keptKeys (dataEvents std kernelID podFields node faults w)) := by
  have hfold := Prog.run_component (handleFaults std podFields node kernelID faults)
    (π := fun s => s.1.kernels kernelID) (e := fun op _ k => kernelAfter op k)
    (fun op s => kernels_handleFault std podFields node kernelID (faults s.2) op s.1)
    (KiveDataReconciler.reconcile std kernelID) (w, 0)
  rw [mapAfter, hfold]
  change (List.foldl _ (w.kernels kernelID)
    (dataEvents std kernelID podFields node faults w)).tracedInodes = _
  obtain ⟨first, rest, hlog, hfirst, hrest⟩ := (obeys_dataReconcile_first std kernelID).run
    (handleFaults std podFields node kernelID faults) (w, 0)
  change dataEvents std kernelID podFields node faults w = first ++ rest at hlog
  -- the first answer says whether the program is loaded
  have hhead : (dataEvents std kernelID podFields node faults w).head? =
      some ⟨.ebpfLoaded, (w.kernels kernelID).loaded⟩ := by
    have hanswer := handleFault_of_refuse std podFields node kernelID
      (show ∀ err, Call.refuse err .ebpfLoaded = none from fun _ => rfl) (faults 0) w
    change some (⟨.ebpfLoaded, (handleFault std podFields node kernelID (faults 0) .ebpfLoaded
      w).1⟩ : Sigma Call.Answer) = _
    rw [hanswer]
    rfl
  rw [hlog] at hfin hhead ⊢
  have hfinrest := (noFinalizing_append.mp hfin).2
  rcases hfirst with rfl | ⟨answer, rfl⟩
  · have hloaded : (w.kernels kernelID).loaded = true := by simpa using hhead.symm
    exact tracedInodes_foldl_kernelAfter hrest hfinrest hloaded
  · have hloaded : (w.kernels kernelID).loaded = false := by simpa using hhead.symm
    have hload := tracedInodes_foldl_kernelAfter hrest hfinrest
      (k := (w.kernels kernelID).load) rfl
    rw [(w.kernels kernelID).eq_empty hloaded]
    exact hload

/-- A pass that goes through its whole list and reports nothing leaves the key of every KiveData
that it kept in the map. -/
def KeysLeft (w : World) : Prop :=
  NoFinalizing (dataEvents std kernelID podFields node faults w) →
    ((KiveDataReconciler.reconcile std kernelID).run
      (handleFaults std podFields node kernelID faults) (w, 0)).1 = done →
    ∀ k ∈ keptKeys (dataEvents std kernelID podFields node faults w),
      k ∈ mapAfter std kernelID podFields node faults w

/-- For a pass that goes through its whole list and reports nothing, the keys to be kept are in the
map already or fit into it together with those that are. -/
def KeysFit (w : World) : Prop :=
  NoFinalizing (dataEvents std kernelID podFields node faults w) →
    ((KiveDataReconciler.reconcile std kernelID).run
      (handleFaults std podFields node kernelID faults) (w, 0)).1 = done →
    (∀ k ∈ keptKeys (dataEvents std kernelID podFields node faults w),
      k ∈ (w.kernels kernelID).tracedInodes) ∨
    ((w.kernels kernelID).tracedInodes ∪
      (keptKeys (dataEvents std kernelID podFields node faults w)).toFinset).card ≤ mapMaxEntries

/-- The keys are left in the map exactly if they fit. -/
lemma keysLeft_iff (w : World) :
    KeysLeft std kernelID podFields node faults w ↔
      KeysFit std kernelID podFields node faults w := by
  refine forall_congr' fun hfin => forall_congr' fun _ => ?_
  rw [mapAfter_eq std kernelID podFields node faults hfin]
  exact TracedInodes.forall_mem_addInodes_iff

end Run

end Keys

/-! ## Both passes -/

section Passes

variable (std : Std) (kernelID : String) {W : Type} (h : (op : Call) → W → op.Answer × W) (w : W)

/-- The calls of a policy pass, however they are answered. -/
def policyPassLog : List (Sigma Call.Answer) :=
  (KivePolicyReconciler.reconcile std kernelID).events h w

/-- The calls of a data pass, however they are answered. -/
def dataPassLog : List (Sigma Call.Answer) :=
  (KiveDataReconciler.reconcile std kernelID).events h w

/-- If a pod listing or an apply of a policy pass fails, the pass reports something. -/
def PolicyPassReports : Prop :=
  (∃ e ∈ policyPassLog std kernelID h w, isLostByPolicyPass e = true) →
    Reports ((KivePolicyReconciler.reconcile std kernelID).run h w).1

/-- If a pod listing, a map update or a deletion of a data pass fails, the pass reports
something. -/
def DataPassReports : Prop :=
  (∃ e ∈ dataPassLog std kernelID h w, isLostByDataPass e = true) →
    Reports ((KiveDataReconciler.reconcile std kernelID).run h w).1

/-- None of the calls is one of these. -/
lemma not_exists_call {log : List (Sigma Call.Answer)} {f : Sigma Call.Answer → Bool} :
    (¬ ∃ e ∈ log, f e = true) ↔ ∀ e ∈ log, f e = false := by
  constructor
  · intro hno e he
    by_contra htrue
    exact hno ⟨e, he, by simpa using htrue⟩
  · rintro hall ⟨e, he, htrue⟩
    exact absurd (htrue.symm.trans (hall e he)) (by simp)

/-- A policy pass in which calls fail that it does not return with reports exactly if it makes none
of the last calls. -/
lemma policyPassReports_iff :
    PolicyPassReports std kernelID h w ↔
      (∀ e ∈ policyPassLog std kernelID h w, isLostByPolicyPass e = false) ∨
      ∀ e ∈ policyPassLog std kernelID h w, isLastOfPolicyPass e = false := by
  have hend := (obeys_policyReconcile_end std kernelID).run h w
  rw [PolicyPassReports, hend, imp_iff_not_or]
  exact or_congr not_exists_call not_exists_call

/-- A data pass in which calls fail that it does not return with reports exactly if another failure
makes it return. -/
lemma dataPassReports_iff :
    DataPassReports std kernelID h w ↔
      (∀ e ∈ dataPassLog std kernelID h w, isLostByDataPass e = false) ∨
      ∃ e ∈ dataPassLog std kernelID h w, isReportedByDataPass e = true := by
  have hend := (obeys_dataReconcile_end std kernelID).run h w
  rw [DataPassReports, hend, imp_iff_not_or]
  exact or_congr not_exists_call Iff.rfl

/-- When a pass reports its failures.  A policy pass in which a pod listing or an apply fails
reports it only if the pass stops before its last call for another reason.  A data pass in which a
pod listing, a map update or a deletion fails reports it only if it meets another failure, one that
it returns with.  And a data pass that goes through its whole list and reports nothing has left the
keys of the KiveData that it kept in the map exactly if they fit into it. -/
theorem failuresReported_iff (podFields : PodFields) (node : String) (faults : ℕ → Option Fault)
    (world : World) :
    (PolicyPassReports std kernelID h w ↔
      (∀ e ∈ policyPassLog std kernelID h w, isLostByPolicyPass e = false) ∨
      ∀ e ∈ policyPassLog std kernelID h w, isLastOfPolicyPass e = false) ∧
    (DataPassReports std kernelID h w ↔
      (∀ e ∈ dataPassLog std kernelID h w, isLostByDataPass e = false) ∨
      ∃ e ∈ dataPassLog std kernelID h w, isReportedByDataPass e = true) ∧
    (KeysLeft std kernelID podFields node faults world ↔
      KeysFit std kernelID podFields node faults world) :=
  ⟨policyPassReports_iff std kernelID h w, dataPassReports_iff std kernelID h w,
    keysLeft_iff std kernelID podFields node faults world⟩

end Passes

/-! ## A pod listing that fails -/

open TrapRecords in
/-- The only pod listing of a policy pass fails: the pass finds nothing and returns as if all had
been done. -/
theorem failuresReported_counterexample :
    let faults : ℕ → Option Fault := fun n => if n = 1 then some ⟨"unavailable", false⟩ else none
    let h := handleFaults std .standard "node" "k1" faults
    let w := (world [trap "/data" "http://one"], 0)
    ((KivePolicyReconciler.reconcile std "k1").run h w).1 = done ∧
      ¬ PolicyPassReports std "k1" h w := by
  intro faults h w
  have hdone : ((KivePolicyReconciler.reconcile std "k1").run h w).1 = done := by rfl
  have hlost : ∃ e ∈ policyPassLog std "k1" h w, isLostByPolicyPass e = true := by decide
  refine ⟨hdone, fun hreports => ?_⟩
  have hreport := hreports hlost
  rw [hdone] at hreport
  exact not_reports_done hreport

end Kive
