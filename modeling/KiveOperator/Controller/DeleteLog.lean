import KiveOperator.Controller.Justified
import KiveOperator.Controller.System

/-!
# What a data pass has looked for before it deletes a KiveData

A data pass deletes a KiveData when it has looked for the container of the KiveData once for each of
its traps among the policies it has read, and not found it.  `obeys_dataPass_search` says so of the
program, and `searches_act` of the passes in the system, step by step.
-/

namespace Kive

open Interaction Object

/-- The pods of a KiveData have been listed, and none has its container. -/
def LookedInVain (log : List (Sigma Call.Answer)) (d : KiveData) : Prop :=
  ∃ answer,
    (⟨.listPods ∅ (KiveDataReconciler.matchingFields d), answer⟩ : Sigma Call.Answer) ∈ log ∧
    ∀ pods, answer = .ok pods → KiveDataReconciler.containerExists d pods = false

/-- For each trap of the KiveData in one of the policies, the container has been looked for in
vain. -/
def TrapsInVain (std : Std) (policies : KivePolicy → Prop) (log : List (Sigma Call.Answer))
    (d : KiveData) : Prop :=
  ∀ p, policies p → ¬ Deleting p → ∀ t ∈ p.spec.traps, IsTrapOf std d t → LookedInVain log d

/-- A KiveData is deleted after the search for its container among the policies that were read. -/
def DeletesInVain (std : Std) (log : List (Sigma Call.Answer)) : Call → Prop
  | .deleteKiveData d => TrapsInVain std (ListsKivePolicy log) log d
  | _ => True

/-- What has been looked for in vain stays so. -/
lemma LookedInVain.mono {l l' : List (Sigma Call.Answer)} {d : KiveData} (h : LookedInVain l d)
    (hl : l ⊆ l') : LookedInVain l' d := by
  obtain ⟨answer, hmem, hnone⟩ := h
  exact ⟨answer, hl hmem, hnone⟩

/-- Calls other than list requests list no policies. -/
lemma ListsKivePolicy.of_append {l : List (Sigma Call.Answer)} {op : Call} {a : op.Answer}
    {p : KivePolicy} (hop : ∀ reader, op ≠ .listKivePolicies reader)
    (h : ListsKivePolicy (l ++ [⟨op, a⟩]) p) : ListsKivePolicy l p := by
  obtain ⟨reader, items, hmem, hp⟩ := h
  rcases List.mem_append.mp hmem with hmem | hmem
  · exact ⟨reader, items, hmem, hp⟩
  · exact absurd (Sigma.mk.inj (List.mem_singleton.mp hmem)).1.symm (hop reader)

/-- Without a call no policy has been read. -/
lemma not_listsKivePolicy_nil (p : KivePolicy) : ¬ ListsKivePolicy [] p := by
  rintro ⟨_, _, hmem, -⟩
  cases hmem

section Loops

variable (std : Std) (d : KiveData)

/-- The loop over the traps of a policy. -/
lemma obeys_trapLoop (traps : List KiveTrap) (found : Bool) (log : List (Sigma Call.Answer)) :
    (KiveDataReconciler.trapLoop std d traps found).Obeys (fun _ => KiveDataReconciler.IsListPods)
      (fun r l => log ⊆ l ∧ (r.2 = true → r.1 = true) ∧
        (r.2 = false → ∀ t ∈ traps, IsTrapOf std d t → LookedInVain l d)) log := by
  induction traps generalizing found log with
  | nil => exact ⟨List.Subset.refl log, Bool.noConfusion, fun _ t ht => absurd ht List.not_mem_nil⟩
  | cons t traps ih =>
    rw [KiveDataReconciler.trapLoop, kiveDataTrapCmp_eq]
    by_cases ht : IsTrapOf std d t
    · rw [beq_iff_eq.mpr ht]
      refine ⟨⟨_, _, rfl⟩, fun answer => ?_⟩
      -- when the container is not found, the rest of the traps follows
      have hrest : (∀ pods, answer = .ok pods →
          KiveDataReconciler.containerExists d pods = false) → ∀ found',
          (KiveDataReconciler.trapLoop std d traps found').Obeys
            (fun _ => KiveDataReconciler.IsListPods)
            (fun r l => log ⊆ l ∧ (r.2 = true → r.1 = true) ∧
              (r.2 = false → ∀ t' ∈ t :: traps, IsTrapOf std d t' → LookedInVain l d))
            (log ++ [⟨.listPods ∅ (KiveDataReconciler.matchingFields d), answer⟩]) := by
        intro hnone found'
        refine (ih found' _).mono (fun _ _ h => h) fun r l h => ?_
        obtain ⟨hl, hbroke, hall⟩ := h
        refine ⟨List.Subset.trans (List.subset_append_left _ _) hl, hbroke, fun _ _ _ _ => ?_⟩
        exact ⟨answer, hl (List.mem_append_right _ (List.mem_singleton_self _)), hnone⟩
      cases answer with
      | error err => exact hrest (fun _ h => by cases h) true
      | ok pods =>
        change Prog.Obeys _ _ _
          (if KiveDataReconciler.containerExists d pods then pure (true, true) else _)
        split_ifs with hc
        · exact ⟨List.subset_append_left _ _, fun _ => rfl, fun h => by cases h⟩
        · refine hrest (fun pods' heq => ?_) false
          obtain rfl := Except.ok.inj heq
          exact Bool.eq_false_iff.mpr hc
    · rw [beq_eq_false_iff_ne.mpr ht]
      refine (ih false log).mono (fun _ _ h => h)
        fun r l h => ⟨h.1, h.2.1, fun hr t' ht' htrap => ?_⟩
      rcases List.mem_cons.mp ht' with rfl | ht'
      · exact absurd htrap ht
      · exact h.2.2 hr t' ht' htrap

/-- The loop over the policies: where it finds nothing, all has been looked for. -/
lemma obeys_searchLoop (policies : List KivePolicy) (found : Bool)
    (log : List (Sigma Call.Answer)) :
    (KiveDataReconciler.policyLoop std d policies found).Obeys
      (fun _ => KiveDataReconciler.IsListPods)
      (fun r l => log ⊆ l ∧ (r = false → TrapsInVain std (· ∈ policies) l d)) log := by
  induction policies generalizing found log with
  | nil => exact ⟨List.Subset.refl log, fun _ p hp => absurd hp List.not_mem_nil⟩
  | cons p policies ih =>
    rw [KiveDataReconciler.policyLoop]
    split_ifs with hdel
    · refine (ih found log).mono (fun _ _ h => h) fun r l h => ⟨h.1, fun hr q hq hlive => ?_⟩
      rcases List.mem_cons.mp hq with rfl | hq
      · exact absurd hdel hlive
      · exact h.2 hr q hq hlive
    · refine (obeys_trapLoop std d p.spec.traps found log).bind fun r l h => ?_
      obtain ⟨hl, hbroke, hall⟩ := h
      dsimp only
      split_ifs with hr
      · exact ⟨hl, fun hnot => absurd ((hbroke hr).symm.trans hnot) (by simp)⟩
      · refine (ih r.1 l).mono (fun _ _ h => h) fun r' l' h => ?_
        refine ⟨List.Subset.trans hl h.1, fun hr' q hq hlive t ht htrap => ?_⟩
        rcases List.mem_cons.mp hq with rfl | hq
        · exact (hall (Bool.eq_false_iff.mpr hr) t ht htrap).mono h.1
        · exact h.2 hr' q hq hlive t ht htrap

/-- A call that is no list request for policies, and no deletion without a search. -/
def SearchCall (policies : List KivePolicy) (log : List (Sigma Call.Answer)) (op : Call) : Prop :=
  (∀ reader, op ≠ .listKivePolicies reader) ∧
    ∀ d, op = .deleteKiveData d → TrapsInVain std (· ∈ policies) log d

/-- The loop deletes a KiveData only after the search. -/
lemma obeys_dataLoop_search (policies : List KivePolicy) (items : List KiveData)
    (log : List (Sigma Call.Answer)) :
    (KiveDataReconciler.dataLoop std policies items).run.Obeys (SearchCall std policies)
      (fun _ _ => True) log := by
  have hother : ∀ {l op}, (∀ reader, op ≠ .listKivePolicies reader) →
      (∀ d, op ≠ .deleteKiveData d) → SearchCall std policies l op :=
    fun hlist hdelete => ⟨hlist, fun d heq => absurd heq (hdelete d)⟩
  induction items generalizing log with
  | nil => trivial
  | cons d items ih =>
    have hbind : ∀ {q : Pass Unit},
        q.run.Obeys (SearchCall std policies) (fun _ _ => True) log →
        (q >>= fun _ => KiveDataReconciler.dataLoop std policies items).run.Obeys
          (SearchCall std policies) (fun _ _ => True) log :=
      fun hq => hq.bindE (fun _ _ _ => trivial) fun _ l _ => ih l
    rw [KiveDataReconciler.dataLoop]
    split_ifs with hdel hfin hfin'
    · apply hbind
      apply Prog.Obeys.lift_perform
      · exact hother (by simp) (by simp)
      · intro answer
        apply Prog.Obeys.lift_perform
        · exact hother (by simp) (by simp)
        · intro answer
          cases answer <;> trivial
    · exact ih log
    · apply hbind
      apply Prog.Obeys.lift_perform
      · exact hother (by simp) (by simp)
      · intro answer
        cases answer <;> trivial
    · apply hbind
      apply Prog.Obeys.lift
      refine Prog.Obeys.bind ((obeys_searchLoop std d policies false log).mono ?_ fun _ _ h => h)
        fun found l hfound => ?_
      · rintro l op ⟨labels, fields, rfl⟩
        exact hother (by simp) (by simp)
      · cases found with
        | false =>
          refine ⟨⟨by simp, fun d' heq => ?_⟩, fun _ => trivial⟩
          obtain rfl := Call.deleteKiveData.inj heq
          exact hfound.2 rfl
        | true => exact ⟨hother (by simp) (by simp), fun _ => trivial⟩

variable (kernelID : String)

/-- A data pass. -/
lemma obeys_dataPass_search :
    (KiveDataReconciler.reconcile std kernelID).Obeys (DeletesInVain std) (fun _ _ => True) [] := by
  apply Pass.obeys_toProg
  have hload : KiveDataReconciler.ensureLoaded.run.Obeys (DeletesInVain std)
      (fun _ l => ∀ p, ¬ ListsKivePolicy l p) [] := by
    have hfirst : ∀ (loaded : Bool) p, ¬ ListsKivePolicy ([] ++ [⟨.ebpfLoaded, loaded⟩]) p :=
      fun _ p h => not_listsKivePolicy_nil p (h.of_append (by simp))
    apply Prog.Obeys.lift_perform
    · trivial
    · intro loaded
      split_ifs
      · apply Prog.Obeys.lift_perform
        · trivial
        · intro answer
          have hsecond : ∀ p, ¬ ListsKivePolicy
              ([] ++ [⟨.ebpfLoaded, loaded⟩] ++ [⟨.loadEbpf, answer⟩]) p :=
            fun p h => hfirst loaded p (h.of_append (by simp))
          cases answer <;> exact hsecond
      · exact hfirst loaded
  refine hload.bindE (fun _ _ _ => trivial) fun _ l hl => ?_
  apply Prog.Obeys.lift_perform
  · trivial
  · intro answer
    cases answer with
    | error err => trivial
    | ok items =>
      apply Prog.Obeys.lift_perform
      · trivial
      · intro answer
        cases answer with
        | error err => trivial
        | ok policies =>
          -- the loop reads no policies, so that those are the ones which have been read
          have hread : ∀ p, ListsKivePolicy (l ++
              [⟨.listKiveData .cached (KiveDataReconciler.kiveDataLabels kernelID), .ok items⟩] ++
              [⟨.listKivePolicies .cached, .ok policies⟩]) p → p ∈ policies := by
            rintro p ⟨reader, items', hmem, hp⟩
            rcases List.mem_append.mp hmem with hmem | hmem
            · exact absurd (ListsKivePolicy.of_append (by simp) ⟨reader, items', hmem, hp⟩) (hl p)
            · obtain ⟨heq, ha⟩ := Sigma.mk.inj (List.mem_singleton.mp hmem)
              obtain rfl := Call.listKivePolicies.inj heq
              exact Except.ok.inj (eq_of_heq ha) ▸ hp
          have hloop := (obeys_dataLoop_search std policies items _).keep
            (I := fun l => ∀ p, ListsKivePolicy l p → p ∈ policies) hread
            fun l' op a hl' hop p hp => hl' p (hp.of_append hop.1)
          refine (hloop.mono ?_ fun _ _ h => h).bindE (fun _ _ _ => trivial) fun _ _ _ => trivial
          rintro l' op ⟨hl', -, hdelete⟩
          cases op
          case deleteKiveData d => exact fun p hp => hdelete d rfl p (hl' p hp)
          all_goals trivial

end Loops

namespace System

/-- The data passes delete KiveData after a search. -/
def Searches (std : Std) (s : System) : Prop :=
  s.Obeying (fun r log op => r.2 = .kiveData → DeletesInVain std log op) fun _ _ _ => True

variable {std : Std} {podFields : PodFields} {kernelOf : String → String}

/-- Before anything has happened, no pass has deleted anything. -/
lemma searches_ofWorld (w : World) : (ofWorld w).Searches std := fun _ => trivial

/-- Every action keeps the data passes searching first. -/
lemma searches_act (s : System) (a : Action) (h : s.Searches std) :
    (act std podFields kernelOf s a).Searches std := by
  refine Obeying.act h (fun r => ?_) a
  have hkeeps := obeys_reconcile std (kernelOf r.1) r.2
  obtain ⟨node, c⟩ := r
  cases c with
  | kiveData =>
    exact (obeys_dataPass_search std (kernelOf node)).mono (fun _ _ h _ => h) fun _ _ h => h
  | _ => exact hkeeps.mono (fun _ _ _ h => Controller.noConfusion h) fun _ _ h => h

end System

end Kive
