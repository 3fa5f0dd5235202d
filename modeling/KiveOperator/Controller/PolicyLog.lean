import KiveOperator.Controller.PolicyCalls
import KiveOperator.Library.Logged

/-!
# What a policy pass has done before each call

The loop over the traps of a policy lists pods, looks for files and applies KiveData, and it
applies one only for a file that it has just found.  It returns early only to be run again.
`obeys_policyTrapLoop` says so of every run, whatever happens between its calls.
-/

namespace Kive

open Interaction KivePolicyReconciler

/-- The calls that are made for the traps of a policy, after the calls `log`. -/
def LoopCall (std : Std) (kernelID : String) (listed : KivePolicy → Prop)
    (log : List (Sigma Call.Answer)) : Call → Prop
  | .listPods _ _ => True
  | .getContainerData site => SiteOf listed site
  | .applyKiveData site kiveData => SiteOf listed site ∧
    ∃ containerData, (⟨.getContainerData site, .ok containerData⟩ : Sigma Call.Answer) ∈ log ∧
      containerData.isFound = true ∧ kiveData = kiveDataFor std kernelID (site, containerData)
  | _ => False

/-- Such a part of a pass returns early only to be run again. -/
def LoopEnd {α : Type} (r : Except Outcome α) (_log : List (Sigma Call.Answer)) : Prop :=
  ∀ o, r = .error o → o = requeue

/-- A part that goes on. -/
lemma loopEnd_ok {α : Type} (a : α) (log : List (Sigma Call.Answer)) :
    LoopEnd (.ok a) log := fun _ h => by cases h

/-- A part that asks to be run again. -/
lemma loopEnd_requeue {α : Type} (log : List (Sigma Call.Answer)) :
    LoopEnd (.error requeue : Except Outcome α) log := fun _ h => (Except.error.inj h).symm

section Obeys

variable (std : Std) (kernelID : String) {listed : KivePolicy → Prop} {p : KivePolicy}
  {t : KiveTrap}

variable {std kernelID} in
/-- Two parts of the loop, one after the other. -/
lemma obeys_loop_bind {α β : Type} {q : Pass α} {f : α → Pass β}
    {log : List (Sigma Call.Answer)}
    (hq : q.run.Obeys (LoopCall std kernelID listed) LoopEnd log)
    (hf : ∀ a l, (f a).run.Obeys (LoopCall std kernelID listed) LoopEnd l) :
    (q >>= f).run.Obeys (LoopCall std kernelID listed) LoopEnd log := by
  refine hq.bindE (fun e l he => ?_) fun a l _ => hf a l
  obtain rfl := he e rfl
  exact loopEnd_requeue l

/-- The calls about one container. -/
lemma obeys_containerStep {pod : Pod} {c : ContainerStatus} (hsite : SiteOf listed ⟨p, t, pod, c⟩)
    (g : KiveTrapMatch) (matched : List String) (log : List (Sigma Call.Answer)) :
    (containerStep std kernelID p t (trapID std t p.spec.alertVersion) g pod c matched).run.Obeys
      (LoopCall std kernelID listed) LoopEnd log := by
  unfold containerStep
  cases regexMatch std g.containerName c.name with
  | error err => exact loopEnd_ok _ log
  | ok b =>
    cases b with
    | false => exact loopEnd_ok _ log
    | true =>
      dsimp only
      split_ifs with hphase hmem
      · exact loopEnd_requeue log
      · exact loopEnd_ok _ log
      · apply Prog.Obeys.lift_perform
        · exact hsite
        · intro answer
          cases answer with
          | error err => exact loopEnd_ok _ _
          | ok cd =>
            dsimp only
            split_ifs with hrequeue hfound
            · exact loopEnd_requeue _
            · exact loopEnd_ok _ _
            · have hcd : cd.isFound = true := by simpa using hfound
              have hmem := List.mem_append_right log (List.mem_singleton_self
                (⟨.getContainerData ⟨p, t, pod, c⟩, .ok cd⟩ : Sigma Call.Answer))
              apply Prog.Obeys.lift_perform
              · exact ⟨hsite, cd, hmem, hcd, rfl⟩
              · intro _
                exact loopEnd_ok _ _

/-- The loop over the traps of a policy. -/
theorem obeys_policyTrapLoop (hp : listed p) (hd : ¬ Deleting p) {traps : List KiveTrap}
    (htraps : ∀ t ∈ traps, t ∈ p.spec.traps) (log : List (Sigma Call.Answer)) :
    (trapLoop std kernelID p traps).run.Obeys (LoopCall std kernelID listed) LoopEnd log := by
  have hcomposed : Composed fun _ q =>
      ∀ log, q.run.Obeys (LoopCall std kernelID listed) LoopEnd log :=
    ⟨loopEnd_ok, fun hp hf log => obeys_loop_bind (hp log) hf⟩
  refine hcomposed.trapLoop_of_any (fun g _ f hf log => ?_) (fun t ht g _ pod c matched => ?_) log
  · exact Prog.Obeys.lift_perform trivial fun answer => hf answer _
  · exact obeys_containerStep std kernelID ⟨hp, hd, htraps t ht⟩ g matched

end Obeys

end Kive
