import KiveOperator.Controller.DataCalls
import KiveOperator.Library.Logged

/-!
# What a data pass has done before each call

The loop over the listed KiveData lists pods, deletes KiveData and adds keys to the map until it
meets a KiveData whose finalizers need a patch, which ends it.  `obeys_dataLoop` says so of every
run, whatever happens between its calls.
-/

namespace Kive

open Interaction KiveDataReconciler

/-- The calls that are made for the listed KiveData. -/
def DataLoopCall (items : List KiveData) : Call → Prop
  | .listPods _ _ => True
  | .deleteKiveData d => d ∈ items ∧ ¬ Deleting d
  | .addInode mapKey => ∃ d ∈ items, ¬ Deleting d ∧ mapKey = d.mapKey
  | .removeInode mapKey => ∃ d ∈ items, Deleting d ∧ mapKey = d.mapKey
  | .patchKiveData orig modified => orig ∈ items ∧
    ((Deleting orig ∧ modified = removeFinalizer orig kiveDataFinalizerName) ∨
    (¬ Deleting orig ∧ modified = addFinalizer orig kiveDataFinalizerName))
  | _ => False

/-- The calls that a finalizer needs. -/
def isFinalizing : Call → Bool
  | .removeInode _ => true
  | .patchKiveData _ _ => true
  | _ => false

/-- No call has been made for a finalizer. -/
def NoFinalizing (log : List (Sigma Call.Answer)) : Prop :=
  ∀ e ∈ log, isFinalizing e.1 = false

/-- Two stretches of calls without one for a finalizer. -/
lemma noFinalizing_append {l l' : List (Sigma Call.Answer)} :
    NoFinalizing (l ++ l') ↔ NoFinalizing l ∧ NoFinalizing l' :=
  List.forall_mem_append

/-- Which result follows a patch. -/
def afterPatch : Except String Unit → Outcome
  | .error _ => requeue
  | .ok () => done

/-- The loop goes on as long as no finalizer needs a call, and stops after the first patch. -/
def DataLoopEnd (log₀ : List (Sigma Call.Answer)) (r : Except Outcome Unit)
    (log : List (Sigma Call.Answer)) : Prop :=
  ∃ l, log = log₀ ++ l ∧
    match r with
    | .ok () => NoFinalizing l
    | .error o => ∃ front orig modified answer,
        l = front ++ [⟨.patchKiveData orig modified, answer⟩] ∧
        (∀ e ∈ front, ∀ d d', e.1 ≠ .patchKiveData d d') ∧ o = afterPatch answer

section Obeys

variable (std : Std) {items : List KiveData} {d : KiveData}

/-- Nothing has been done. -/
lemma dataLoopEnd_ok (log : List (Sigma Call.Answer)) : DataLoopEnd log (.ok ()) log :=
  ⟨[], (List.append_nil log).symm, fun _ h => by cases h⟩

/-- What is done after calls that no finalizer needs. -/
lemma DataLoopEnd.of_append {log l log' : List (Sigma Call.Answer)} {r : Except Outcome Unit}
    (hl : NoFinalizing l) (h : DataLoopEnd (log ++ l) r log') : DataLoopEnd log r log' := by
  obtain ⟨l', rfl, hend⟩ := h
  refine ⟨l ++ l', List.append_assoc log l l', ?_⟩
  cases r with
  | ok u => exact noFinalizing_append.mpr ⟨hl, hend⟩
  | error o =>
    obtain ⟨front, orig, modified, answer, rfl, hfront, ho⟩ := hend
    refine ⟨l ++ front, orig, modified, answer, (List.append_assoc l front _).symm, ?_, ho⟩
    intro e he d d' heq
    rcases List.mem_append.mp he with he | he
    · have hnot := hl e he
      rw [heq] at hnot
      exact absurd hnot (by simp [isFinalizing])
    · exact hfront e he d d' heq

/-- A patch is the last call. -/
lemma obeys_patch {orig modified : KiveData} {log : List (Sigma Call.Answer)}
    (hcall : DataLoopCall items (.patchKiveData orig modified))
    {log₀ front : List (Sigma Call.Answer)} (hlog : log = log₀ ++ front)
    (hfront : ∀ e ∈ front, ∀ d d', e.1 ≠ .patchKiveData d d') :
    (do
      match ← Client.patchKiveData orig modified with
      | .error _ => Pass.exit requeue
      | .ok () => Pass.exit done : Pass Unit).run.Obeys
      (fun _ => DataLoopCall items) (DataLoopEnd log₀) log := by
  apply Prog.Obeys.lift_perform
  · exact hcall
  · intro answer
    have hend : ∀ o, o = afterPatch answer → DataLoopEnd log₀ (.error o)
        (log ++ [⟨.patchKiveData orig modified, answer⟩]) := fun o ho =>
      ⟨front ++ [⟨.patchKiveData orig modified, answer⟩], by rw [hlog, List.append_assoc],
        front, orig, modified, answer, rfl, hfront, ho⟩
    cases answer with
    | error err => exact hend requeue rfl
    | ok u => exact hend done rfl

/-- The search for a KiveData makes no call for a finalizer. -/
lemma obeys_judge (hd : d ∈ items) (hdel : ¬ Deleting d) (policies : List KivePolicy)
    (log : List (Sigma Call.Answer)) :
    (judge std policies d).Obeys (fun _ => DataLoopCall items)
      (fun _ log' => ∃ l, log' = log ++ l ∧ NoFinalizing l) log := by
  have hstart : ∃ l, log = log ++ l ∧ NoFinalizing l :=
    ⟨[], (List.append_nil log).symm, fun _ h => by cases h⟩
  have hkeep := (only_judge std policies d).obeys.keep
    (I := fun log' => ∃ l, log' = log ++ l ∧ NoFinalizing l) hstart ?_
  · apply hkeep.mono
    · rintro l op ⟨-, ⟨labels, fields, rfl⟩ | rfl | rfl⟩
      · trivial
      · exact ⟨hd, hdel⟩
      · exact ⟨d, hd, hdel, rfl⟩
    · exact fun _ _ h => h.1
  · rintro _ op a ⟨l, rfl, hl⟩ hop
    refine ⟨l ++ [⟨op, a⟩], List.append_assoc log l _, noFinalizing_append.mpr ⟨hl, ?_⟩⟩
    intro e he
    obtain rfl := List.mem_singleton.mp he
    rcases hop with ⟨labels, fields, rfl⟩ | rfl | rfl <;> rfl

/-- The loop over the listed KiveData. -/
theorem obeys_dataLoop (policies : List KivePolicy) {rest : List KiveData}
    (hrest : ∀ d ∈ rest, d ∈ items) (log : List (Sigma Call.Answer)) :
    (dataLoop std policies rest).run.Obeys (fun _ => DataLoopCall items) (DataLoopEnd log)
      log := by
  induction rest generalizing log with
  | nil => exact dataLoopEnd_ok log
  | cons d rest ih =>
    have hd : d ∈ items := hrest d List.mem_cons_self
    have ih := ih fun d' hd' => hrest d' (List.mem_cons_of_mem d hd')
    -- the part for one KiveData stops the loop, or the rest follows
    have hbind : ∀ {q : Pass Unit}, q.run.Obeys (fun _ => DataLoopCall items)
        (DataLoopEnd log) log →
        (q >>= fun _ => dataLoop std policies rest).run.Obeys (fun _ => DataLoopCall items)
          (DataLoopEnd log) log := by
      intro q hq
      refine hq.bindE (fun _ _ h => h) fun u l hl => ?_
      obtain ⟨l', rfl, hnone⟩ := hl
      exact (ih (log ++ l')).mono (fun _ _ h => h) fun _ _ h => h.of_append hnone
    rw [dataLoop]
    split_ifs with hdel hfin hfin'
    · apply hbind
      apply Prog.Obeys.lift_perform
      · exact ⟨d, hd, hdel, rfl⟩
      · intro answer
        apply obeys_patch ⟨hd, Or.inl ⟨hdel, rfl⟩⟩ rfl
        intro e he d₁ d₂ heq
        obtain rfl := List.mem_singleton.mp he
        exact Call.noConfusion heq
    · exact ih log
    · apply hbind
      exact obeys_patch ⟨hd, Or.inr ⟨hdel, rfl⟩⟩ (List.append_nil log).symm
        fun e he => by cases he
    · apply hbind
      exact (obeys_judge std hd hdel policies log).lift

end Obeys

end Kive
