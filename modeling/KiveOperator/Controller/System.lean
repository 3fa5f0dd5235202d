import KiveOperator.Cluster.Faults
import KiveOperator.Controller.PassLog
import KiveOperator.Library.Interleaving

/-!
# The operator at work

The controllers run side by side on all nodes, one run of a controller on a node at a time, and each
run makes its calls one by one.  Between the calls users change policies and delete KiveData, pods
come and go, containers change their files, and the caches of the managers catch up with what is
stored.

`act` says what one such action does, and `run` lets any actions happen one after the other.
`keepsTo_run` says that the runs of the controllers keep to what is known of them alone.
-/

namespace Kive

open Interaction

/-- A controller on a node. -/
abbrev Runner := String × Controller

/-- The cluster and the runs of the controllers. -/
structure System where
  world : World
  /-- The latest run of each controller. -/
  passes : Runner → Thread Call.Answer Outcome
  /-- The KiveData that were stored at each moment, now being the last. -/
  kiveDataPast : List (List KiveData)
  kivePoliciesPast : List (List KivePolicy)
  /-- The moment that the cache of a kernel's manager shows. -/
  kiveDataSeen : String → ℕ
  kivePoliciesSeen : String → ℕ

/-- What can happen. -/
inductive Action where
  /-- A controller is run. -/
  | start (r : Runner)
  /-- A run makes its next call, which a fault may befall. -/
  | call (r : Runner) (fault : Option Fault)
  | changeKivePolicies (s : Store KivePolicy)
  | changePods (pods : List Pod)
  /-- The containers of a node and their files change. -/
  | changeHost (node : String) (h : Host)
  /-- A user deletes a KiveData. -/
  | deleteKiveData (k : String × String)
  /-- The cache of a kernel's manager comes to show a later moment. -/
  | seeKiveData (kernelID : String) (n : ℕ)
  | seeKivePolicies (kernelID : String) (n : ℕ)
  | wait (seconds : ℕ)

namespace System

/-- The system before any run. -/
def ofWorld (w : World) : System where
  world := w
  passes _ := .start (pure done)
  kiveDataPast := [w.cluster.kiveData.items]
  kivePoliciesPast := [w.cluster.kivePolicies.items]
  kiveDataSeen _ := 0
  kivePoliciesSeen _ := 0

/-- The world changes. -/
def moveTo (s : System) (w : World) : System :=
  { s with
    world := w
    kiveDataPast := s.kiveDataPast ++ [w.cluster.kiveData.items]
    kivePoliciesPast := s.kivePoliciesPast ++ [w.cluster.kivePolicies.items] }

def setPass (s : System) (r : Runner) (t : Thread Call.Answer Outcome) : System :=
  { s with passes := Function.update s.passes r t }

/-- The run that goes on. -/
@[simp] lemma setPass_passes_self (s : System) (r : Runner) (t : Thread Call.Answer Outcome) :
    (s.setPass r t).passes r = t := Function.update_self ..

/-- The other runs stay where they are. -/
lemma setPass_passes_of_ne (s : System) {r r' : Runner} (h : r' ≠ r)
    (t : Thread Call.Answer Outcome) : (s.setPass r t).passes r' = s.passes r' :=
  Function.update_of_ne h ..

/-- The cached KiveData of a kernel's manager are those of a moment. -/
def seeKiveData (s : System) (kernelID : String) (n : ℕ) (items : List KiveData) : System :=
  { s with
    world := s.world.setKernel kernelID
      { s.world.kernels kernelID with cachedKiveData := items }
    kiveDataSeen := Function.update s.kiveDataSeen kernelID n }

def seeKivePolicies (s : System) (kernelID : String) (n : ℕ) (items : List KivePolicy) : System :=
  { s with
    world := s.world.setKernel kernelID
      { s.world.kernels kernelID with cachedKivePolicies := items }
    kivePoliciesSeen := Function.update s.kivePoliciesSeen kernelID n }

section Act

variable (std : Std) (podFields : PodFields) (kernelOf : String → String)

/-- The handler of the calls of a controller, where a fault may befall them. -/
def runnerHandle (r : Runner) (fault : Option Fault) : (op : Call) → World → op.Answer × World :=
  handleFault std podFields r.1 (kernelOf r.1) fault

/-- What an action does.  One that is not possible does nothing. -/
def act (s : System) : Action → System
  | .start r =>
    if (s.passes r).Finished then s.setPass r (.start (r.2.reconcile std (kernelOf r.1))) else s
  | .call r fault =>
    let next := (s.passes r).step (runnerHandle std podFields kernelOf r fault) s.world
    (s.setPass r next.1).moveTo next.2
  | .changeKivePolicies policies => s.moveTo (s.world.setKivePolicies policies)
  | .changePods pods =>
    s.moveTo { s.world with cluster := { s.world.cluster with pods := pods } }
  | .changeHost node h => s.moveTo (s.world.setHost node h)
  | .deleteKiveData k => s.moveTo (s.world.setKiveData (s.world.cluster.kiveData.delete k).2)
  | .seeKiveData kernelID n =>
    -- a cache does not go back
    if s.kiveDataSeen kernelID ≤ n then
      match s.kiveDataPast[n]? with
      | some items => s.seeKiveData kernelID n items
      | none => s
    else s
  | .seeKivePolicies kernelID n =>
    if s.kivePoliciesSeen kernelID ≤ n then
      match s.kivePoliciesPast[n]? with
      | some items => s.seeKivePolicies kernelID n items
      | none => s
    else s
  | .wait seconds => s.moveTo { s.world with clock := s.world.clock + seconds }

/-- Actions one after the other. -/
def run (actions : List Action) (s : System) : System :=
  actions.foldl (act std podFields kernelOf) s

/-- One run after the other. -/
lemma run_append (actions actions' : List Action) (s : System) :
    run std podFields kernelOf (actions ++ actions') s =
      run std podFields kernelOf actions' (run std podFields kernelOf actions s) :=
  List.foldl_append

variable {std podFields kernelOf}

/-- What each action keeps holds of every state that is reached. -/
lemma run_induction {I : System → Prop} (hact : ∀ s a, I s → I (act std podFields kernelOf s a))
    (actions : List Action) {s : System} (hs : I s) : I (run std podFields kernelOf actions s) := by
  induction actions generalizing s with
  | nil => exact hs
  | cons a actions ih => exact ih (hact s a hs)

variable (std podFields kernelOf) in
/-- Each action meets a condition in the state that it changes. -/
def Along (P : System → Action → Prop) : List Action → System → Prop
  | [], _ => True
  | a :: actions, s => P s a ∧ Along P actions (act std podFields kernelOf s a)

instance decidableAlong {P : System → Action → Prop} [∀ s a, Decidable (P s a)] :
    ∀ (actions : List Action) (s : System), Decidable (Along std podFields kernelOf P actions s)
  | [], _ => isTrue trivial
  | a :: actions, s =>
    have : Decidable (Along std podFields kernelOf P actions (act std podFields kernelOf s a)) :=
      decidableAlong actions _
    inferInstanceAs (Decidable (_ ∧ _))

/-- A condition on the actions alone. -/
lemma along_of_forall {P : Action → Prop} {actions : List Action} (h : ∀ a ∈ actions, P a)
    (s : System) : Along std podFields kernelOf (fun _ => P) actions s := by
  induction actions generalizing s with
  | nil => trivial
  | cons a actions ih =>
    exact ⟨h a List.mem_cons_self, ih (fun b hb => h b (List.mem_cons_of_mem a hb)) _⟩

/-- The same where each action meets a condition. -/
lemma run_induction_of {P : System → Action → Prop} {I : System → Prop} {actions : List Action}
    (hact : ∀ s, ∀ a ∈ actions, P s a → I s → I (act std podFields kernelOf s a)) {s : System}
    (hP : Along std podFields kernelOf P actions s) (hs : I s) :
    I (run std podFields kernelOf actions s) := by
  induction actions generalizing s with
  | nil => exact hs
  | cons a actions ih =>
    refine ih (fun s b hb => hact s b (List.mem_cons_of_mem a hb)) hP.2 ?_
    exact hact s a List.mem_cons_self hP.1 hs

/-- What follows from a condition in the states that are reached holds of each action. -/
lemma Along.of_invariant {P R : System → Action → Prop} {I : System → Prop}
    {actions : List Action}
    (hact : ∀ s, ∀ a ∈ actions, P s a → I s → I (act std podFields kernelOf s a))
    (hR : ∀ s a, I s → P s a → R s a) {s : System}
    (hP : Along std podFields kernelOf P actions s) (hs : I s) :
    Along std podFields kernelOf R actions s := by
  induction actions generalizing s with
  | nil => trivial
  | cons a actions ih =>
    refine ⟨hR s a hs hP.1, ih (fun s b hb => hact s b (List.mem_cons_of_mem a hb)) hP.2 ?_⟩
    exact hact s a List.mem_cons_self hP.1 hs

/-- A run that has come to its end makes no call. -/
lemma act_call_of_ret {s : System} {r : Runner} {o : Outcome} (hprog : (s.passes r).prog = .ret o)
    (fault : Option Fault) :
    act std podFields kernelOf s (.call r fault) = s.moveTo s.world := by
  have hstep : (s.passes r).step (runnerHandle std podFields kernelOf r fault) s.world =
      (s.passes r, s.world) := by
    rw [Thread.step, hprog]
  rw [act, hstep, setPass, Function.update_eq_self]

/-- The next call of a run. -/
lemma act_call {s : System} {r : Runner} {op : Call} {k : op.Answer → CallProg Outcome}
    (hprog : (s.passes r).prog = .call op k) (fault : Option Fault) :
    act std podFields kernelOf s (.call r fault) =
      let answer := runnerHandle std podFields kernelOf r fault op s.world
      (s.setPass r ⟨(s.passes r).log ++ [⟨op, answer.1⟩], k answer.1⟩).moveTo answer.2 := by
  rw [act, Thread.step, hprog]

/-- An action adds at most the present to what was stored at each moment. -/
lemma past_act (s : System) (a : Action) :
    ((act std podFields kernelOf s a).kiveDataPast = s.kiveDataPast ∧
      (act std podFields kernelOf s a).kivePoliciesPast = s.kivePoliciesPast) ∨
    ((act std podFields kernelOf s a).kiveDataPast =
        s.kiveDataPast ++ [(act std podFields kernelOf s a).world.cluster.kiveData.items] ∧
      (act std podFields kernelOf s a).kivePoliciesPast =
        s.kivePoliciesPast ++
          [(act std podFields kernelOf s a).world.cluster.kivePolicies.items]) := by
  cases a with
  | start r =>
    left
    rw [act]
    split_ifs <;> exact ⟨rfl, rfl⟩
  | seeKiveData kernelID n =>
    left
    rw [act]
    split_ifs
    · cases s.kiveDataPast[n]? <;> exact ⟨rfl, rfl⟩
    · exact ⟨rfl, rfl⟩
  | seeKivePolicies kernelID n =>
    left
    rw [act]
    split_ifs
    · cases s.kivePoliciesPast[n]? <;> exact ⟨rfl, rfl⟩
    · exact ⟨rfl, rfl⟩
  | _ => exact Or.inr ⟨rfl, rfl⟩

/-! ## Runs by themselves -/

section Obeying

variable {Φ : Runner → List (Sigma Call.Answer) → Call → Prop}
  {Q : Runner → Outcome → List (Sigma Call.Answer) → Prop}

/-- Each run of a controller keeps to conditions on its calls and on its end. -/
def Obeying (Φ : Runner → List (Sigma Call.Answer) → Call → Prop)
    (Q : Runner → Outcome → List (Sigma Call.Answer) → Prop) (s : System) : Prop :=
  ∀ r, (s.passes r).prog.Obeys (Φ r) (Q r) (s.passes r).log

/-- A run goes on and keeps to its conditions. -/
lemma Obeying.setPass {s : System} (h : s.Obeying Φ Q) {r : Runner}
    {t : Thread Call.Answer Outcome} (ht : t.prog.Obeys (Φ r) (Q r) t.log) :
    (s.setPass r t).Obeying Φ Q := by
  intro r'
  rcases eq_or_ne r' r with rfl | hne
  · rw [setPass_passes_self]
    exact ht
  · rw [setPass_passes_of_ne s hne]
    exact h r'

/-- The next call of a run. -/
lemma Obeying.call {s : System} (h : s.Obeying Φ Q) {r : Runner} {op : Call}
    {k : op.Answer → CallProg Outcome} (hprog : (s.passes r).prog = .call op k) :
    Φ r (s.passes r).log op := by
  have hr := h r
  rw [hprog] at hr
  exact hr.1

/-- The end of a run. -/
lemma Obeying.ret {s : System} (h : s.Obeying Φ Q) {r : Runner} {o : Outcome}
    (hprog : (s.passes r).prog = .ret o) : Q r o (s.passes r).log := by
  have hr := h r
  rw [hprog] at hr
  exact hr

/-- What the programs keep to by themselves, the runs keep to in the system. -/
lemma Obeying.act {s : System} (h : s.Obeying Φ Q)
    (hstart : ∀ r : Runner, (r.2.reconcile std (kernelOf r.1)).Obeys (Φ r) (Q r) [])
    (a : Action) :
    (System.act std podFields kernelOf s a).Obeying Φ Q := by
  cases a with
  | start r =>
    rw [System.act]
    split_ifs
    · exact h.setPass (hstart r)
    · exact h
  | call r fault =>
    cases hprog : (s.passes r).prog with
    | ret o =>
      rw [act_call_of_ret hprog]
      exact h
    | call op k =>
      rw [act_call hprog]
      have hr := h r
      rw [hprog] at hr
      exact h.setPass (hr.2 _)
  | seeKiveData kernelID n =>
    rw [System.act]
    split_ifs
    · cases s.kiveDataPast[n]? <;> exact h
    · exact h
  | seeKivePolicies kernelID n =>
    rw [System.act]
    split_ifs
    · cases s.kivePoliciesPast[n]? <;> exact h
    · exact h
  | _ => exact h

end Obeying

variable (std kernelOf) in
/-- Each run of a controller makes only calls that follow from those it has made. -/
def KeepsTo (s : System) : Prop :=
  s.Obeying (fun r => PassCall std (kernelOf r.1) r.2) fun _ _ _ => True

/-- Before anything has happened, no call has been made. -/
lemma keepsTo_ofWorld (w : World) : (ofWorld w).KeepsTo std kernelOf := fun _ => trivial

/-- The next call of a run follows from those it has made. -/
lemma KeepsTo.passCall {s : System} (h : s.KeepsTo std kernelOf) {r : Runner} {op : Call}
    {k : op.Answer → CallProg Outcome} (hprog : (s.passes r).prog = .call op k) :
    PassCall std (kernelOf r.1) r.2 (s.passes r).log op :=
  Obeying.call h hprog

/-- Every action keeps the runs to their calls. -/
lemma keepsTo_act (s : System) (a : Action) (h : s.KeepsTo std kernelOf) :
    (act std podFields kernelOf s a).KeepsTo std kernelOf :=
  Obeying.act h (fun r => obeys_reconcile std (kernelOf r.1) r.2) a

/-- Whatever happens, the runs make only such calls. -/
theorem keepsTo_run (actions : List Action) (w : World) :
    (run std podFields kernelOf actions (ofWorld w)).KeepsTo std kernelOf :=
  run_induction keepsTo_act actions (keepsTo_ofWorld w)

end Act

end System

/-- A world in which the operator has not been at work: there are no KiveData, no keys are in a map,
and the caches are current. -/
structure World.Fresh (w : World) : Prop where
  kiveData : w.cluster.kiveData.items = []
  tracedInodes : ∀ kernelID, (w.kernels kernelID).tracedInodes = ∅
  cachedKiveData : ∀ kernelID, (w.kernels kernelID).cachedKiveData = []
  cachedKivePolicies : ∀ kernelID,
    (w.kernels kernelID).cachedKivePolicies = w.cluster.kivePolicies.items

/-- A world to which a run leads from such a world. -/
def World.Reached (std : Std) (podFields : PodFields) (kernelOf : String → String) (w : World) :
    Prop :=
  ∃ w₀ actions, w₀.Fresh ∧ (System.run std podFields kernelOf actions (.ofWorld w₀)).world = w

end Kive
