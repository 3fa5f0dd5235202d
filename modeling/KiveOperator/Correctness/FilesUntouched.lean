import KiveOperator.Container.Search
import KiveOperator.Controller.NodeCalls

/-!
# What the policy reconciler does to the files of a node

A node runs one policy pass after another while the processes of its containers do what they
like with the files.  `run_undamaged_iff` says in which runs the passes leave every existing file
as it is: those in which `creat` never opens a file that has something in it.
-/

namespace Kive

open Interaction FileSystem

/-! ## The system calls of a pass -/

/-- A finer call that obeys the trap it is made for. -/
def NodeCall.Obeys : NodeCall → Prop
  | .api _ => True
  | .runtime site op => CreatesFor site.trap op

/-- A policy pass creates files only as the traps say. -/
lemma only_policyPass (std : Std) (kernelID : String) :
    (policyPass std kernelID).Only NodeCall.Obeys := by
  refine Prog.Only.expand (Prog.only_of_forall (P := fun _ => True) (fun _ => trivial) _) ?_
  intro op _
  cases op
  case getContainerData site =>
    exact Prog.Only.expand (only_getContainerData site.trap site.container)
      fun op hop => ⟨hop, fun _ => trivial⟩
  all_goals exact ⟨trivial, fun _ => trivial⟩

/-! ## Runs -/

/-- A node, with what is left of the pass that it is running. -/
structure NodeState where
  host : Host
  pass : Prog NodeCall.Answer Outcome

inductive NodeEvent where
  /-- The processes of the containers have changed the files, or containers have come and
  gone. -/
  | containers (host : Host)
  /-- A new pass starts. -/
  | start
  /-- The pass makes its next call.  The API server may answer anything. -/
  | call (answer : (op : Call) → op.Answer)

section Runs

variable (std : Std) (kernelID : String)

/-- The state after an event, if the event can happen. -/
def NodeState.step : NodeState → NodeEvent → Option NodeState
  | ⟨_, pass⟩, .containers host => some ⟨host, pass⟩
  | ⟨host, .ret _⟩, .start => some ⟨host, policyPass std kernelID⟩
  | ⟨host, .call (.api op) k⟩, .call answer => some ⟨host, k (answer op)⟩
  | ⟨host, .call (.runtime _ op) k⟩, .call _ =>
    some ⟨(Host.handle op host).2, k (Host.handle op host).1⟩
  | _, _ => none

/-- The states before and after each event of a run, with the event. -/
def nodeRun : NodeState → List NodeEvent → Option (List (NodeState × NodeEvent × NodeState))
  | _, [] => some []
  | s, e :: events => do
    let s' ← s.step std kernelID e
    let rest ← nodeRun s' events
    return (s, e, s') :: rest

/-- The call that the pass makes next. -/
def NodeState.next (s : NodeState) : Option NodeCall :=
  match s.pass with
  | .ret _ => none
  | .call op _ => some op

/-- What a pass may do to the files in one step: nothing that existed is touched, and a path that
named nothing may come to name the empty file that a trap asks for. -/
def Undamaged (s s' : NodeState) : Prop :=
  FilesKept s.host.fs s'.host.fs ∧
  ∀ path id, s.host.fs.lookup path = none → s'.host.fs.lookup path = some id →
    ∃ site op, s.next = some (.runtime site op) ∧ site.trap.create = true ∧
      s'.host.fs.file id = { mode := site.trap.mode &&& ~~~s.host.fs.umask, contents := [] }

/-- The next call is `creat`, of a path that names a file with something in it. -/
def AboutToTruncate (s : NodeState) : Prop :=
  ∃ site target mode, s.next = some (.runtime site (.creat target mode)) ∧
    s.host.fs.Endangers target

/-- A call to the runtime that is not `creat` leaves the files alone. -/
lemma fs_handle_of_ne {op : RuntimeCall} (h : ∀ target mode, op ≠ .creat target mode)
    (host : Host) : (Host.handle op host).2.fs = host.fs := by
  cases op with
  | creat target mode => exact absurd rfl (h target mode)
  | _ => rfl

/-- One step of a pass does no damage exactly when it is not about to empty a file. -/
lemma undamaged_iff {s s' : NodeState} {answer : (op : Call) → op.Answer}
    (hobeys : s.pass.Only NodeCall.Obeys) (hstep : s.step std kernelID (.call answer) = some s') :
    Undamaged s s' ↔ ¬ AboutToTruncate s := by
  obtain ⟨host, pass⟩ := s
  cases pass with
  | ret o => exact absurd hstep (by simp [NodeState.step])
  | call op k =>
    cases op with
    | api op =>
      obtain rfl := Option.some.inj hstep
      refine ⟨?_, fun _ => ⟨fun _ _ h => ⟨h, rfl⟩, fun path id hnone hid => ?_⟩⟩
      · rintro - ⟨site, target, mode, hnext, -⟩
        exact absurd hnext (by simp [NodeState.next])
      · exact absurd (hnone.symm.trans hid) (by simp)
    | runtime site op =>
      obtain rfl := Option.some.inj hstep
      by_cases hcreat : ∃ target mode, op = .creat target mode
      · obtain ⟨target, mode, rfl⟩ := hcreat
        obtain ⟨hcreate, rfl, -⟩ := hobeys.1 target mode rfl
        have habout : AboutToTruncate ⟨host, .call (.runtime site (.creat target site.trap.mode)) k⟩
            ↔ host.fs.Endangers target := by
          constructor
          · rintro ⟨site', target', mode', hnext, h⟩
            obtain ⟨-, ⟨⟩⟩ := NodeCall.runtime.inj (Option.some.inj hnext)
            exact h
          · exact fun h => ⟨site, target, site.trap.mode, rfl, h⟩
        rw [habout, ← filesKept_creat_iff host.fs target site.trap.mode]
        refine ⟨fun h => h.1, fun h => ⟨h, fun path id hnone hid => ?_⟩⟩
        exact ⟨site, _, rfl, hcreate, file_of_lookup_creat hnone hid⟩
      · have hfs : (Host.handle op host).2.fs = host.fs :=
          fs_handle_of_ne (fun target mode h => hcreat ⟨target, mode, h⟩) host
        refine ⟨?_, fun _ => ?_⟩
        · rintro - ⟨site', target, mode, hnext, -⟩
          obtain ⟨-, rfl⟩ := NodeCall.runtime.inj (Option.some.inj hnext)
          exact hcreat ⟨target, mode, rfl⟩
        · unfold Undamaged
          simp only [hfs]
          refine ⟨fun _ _ h => ⟨h, rfl⟩, fun path id hnone hid => ?_⟩
          exact absurd (hnone.symm.trans hid) (by simp)

/-- What is left of a pass obeys the traps. -/
lemma only_obeys_of_step {s s' : NodeState} {e : NodeEvent} (h : s.pass.Only NodeCall.Obeys)
    (hstep : s.step std kernelID e = some s') : s'.pass.Only NodeCall.Obeys := by
  obtain ⟨host, pass⟩ := s
  cases e with
  | containers host' =>
    have hs' : ⟨host', pass⟩ = s' := by
      cases pass with
      | ret o => exact Option.some.inj hstep
      | call op k => cases op <;> exact Option.some.inj hstep
    exact hs' ▸ h
  | start =>
    cases pass with
    | ret o =>
      obtain rfl := Option.some.inj hstep
      exact only_policyPass std kernelID
    | call op k => cases op <;> exact absurd hstep (by simp [NodeState.step])
  | call answer =>
    cases pass with
    | ret o => exact absurd hstep (by simp [NodeState.step])
    | call op k =>
      cases op with
      | api op => obtain rfl := Option.some.inj hstep; exact h.2 _
      | runtime site op => obtain rfl := Option.some.inj hstep; exact h.2 _

/-- In every run of policy passes, interleaved with whatever the containers do, the steps of the
passes do no damage if and only if none of them is about to empty a file that has something in
it. -/
theorem run_undamaged_iff (host : Host) (o : Outcome) {events : List NodeEvent}
    {run : List (NodeState × NodeEvent × NodeState)}
    (hrun : nodeRun std kernelID ⟨host, .ret o⟩ events = some run) :
    (∀ s answer s', (s, NodeEvent.call answer, s') ∈ run → Undamaged s s') ↔
      ∀ s answer s', (s, NodeEvent.call answer, s') ∈ run → ¬ AboutToTruncate s := by
  suffices h : ∀ s : NodeState, s.pass.Only NodeCall.Obeys → ∀ events run,
      nodeRun std kernelID s events = some run → ∀ s₁ answer s₂,
        (s₁, NodeEvent.call answer, s₂) ∈ run → (Undamaged s₁ s₂ ↔ ¬ AboutToTruncate s₁) by
    have hiff := h ⟨host, .ret o⟩ trivial events run hrun
    exact ⟨fun hall s answer s' hmem => (hiff s answer s' hmem).mp (hall s answer s' hmem),
      fun hall s answer s' hmem => (hiff s answer s' hmem).mpr (hall s answer s' hmem)⟩
  intro s hs events
  induction events generalizing s with
  | nil =>
    rintro run hrun s₁ answer s₂ hmem
    obtain rfl := Option.some.inj hrun
    exact absurd hmem (by simp)
  | cons e events ih =>
    rintro run hrun s₁ answer s₂ hmem
    rw [nodeRun] at hrun
    obtain ⟨s', hstep, hrun⟩ := Option.bind_eq_some_iff.mp hrun
    obtain ⟨rest, hrest, hrun⟩ := Option.bind_eq_some_iff.mp hrun
    obtain rfl := Option.some.inj hrun
    rcases List.mem_cons.mp hmem with heq | hmem
    · obtain ⟨rfl, rfl, rfl⟩ := heq
      exact undamaged_iff std kernelID hs hstep
    · exact ih s' (only_obeys_of_step std kernelID hs hstep) rest hrest s₁ answer s₂ hmem

end Runs

/-! ## A file that exists -/

namespace FilesUntouched

/-- A trap that asks for its file to be created. -/
def trap : KiveTrap := { path := "/data", create := true, mode := 420, matchAny := [{}] }

def policy : KivePolicy where
  objectMeta :=
    { name := "policy", namespace_ := operatorNamespace, finalizers := [kivePolicyFinalizerName] }
  spec := { alertVersion := "v1", traps := [trap] }

def pod : Pod where
  name := "web"
  namespace_ := "default"
  nodeName := "node"
  podIP := "10.0.0.1"
  phase := .running
  containerStatuses := [⟨"main", "containerd://aa", true⟩]

/-- A node with one container, in which `/data` has the given contents. -/
def host (contents : List UInt8) : Host where
  connected := true
  connectAnswer := .ok ()
  containers := .ok ["aa"]
  task _ := .ok 42
  fs :=
    { walk := fun path => if path = "/host/proc/42/root//data" then some 0 else none
      device := fun _ => 1
      entry := fun e => if e = 0 then some ⟨1, 7⟩ else none
      file := fun _ => { mode := 384, contents := contents }
      openError := fun _ => none
      free := fun _ => []
      umask := 18
      free_unused := by simp
      free_nodup := FileSystem.nodup_of_no_free }

/-- The answers of an API server with this policy and this pod. -/
def answer : (op : Call) → op.Answer
  | .listKivePolicies _ => .ok [policy]
  | .listKiveData _ _ => .ok []
  | .listPods _ _ => .ok [pod]
  | .patchKivePolicy _ _ => .ok ()
  | .patchKiveData _ _ => .ok ()
  | .applyKiveData _ _ => .ok ()
  | .deleteKiveData _ => .ok ()
  | .getContainerData _ => .ok {}
  | .ebpfLoaded => true
  | .loadEbpf => .ok ()
  | .addInode _ => .ok ()
  | .removeInode _ => .ok ()
  | .now => ""

def std : Std := .ofDigests
  [("\x7b\"path\":\"/data\",\"create\":true,\"mode\":420,\"matchAny\":[\x7b\x7d]\x7dv1",
    "2064908135ee4569918ac66168cbcd77d750137921141aa9bf15078aa603e1b1")]

/-- A pass starts and makes its calls up to `creat`. -/
def events : List NodeEvent :=
  [.start, .call answer, .call answer, .call answer, .call answer, .call answer, .call answer]

/-- The steps of this pass. -/
def passSteps (contents : List UInt8) : List (NodeState × NodeEvent × NodeState) :=
  ((nodeRun std "k1" ⟨host contents, .ret done⟩ events).getD [])

/-- The run evaluates to these steps. -/
lemma nodeRun_events (contents : List UInt8) :
    nodeRun std "k1" ⟨host contents, .ret done⟩ events = some (passSteps contents) :=
  rfl

end FilesUntouched

open FilesUntouched in
/-- A pass over a node whose file is empty leaves it as it is. -/
theorem run_undamaged_empty :
    (∀ s answer s', (s, NodeEvent.call answer, s') ∈ passSteps [] → Undamaged s s') ↔
      ∀ s answer s', (s, NodeEvent.call answer, s') ∈ passSteps [] → ¬ AboutToTruncate s :=
  run_undamaged_iff std "k1" (host []) done (nodeRun_events [])

open FilesUntouched in
/-- A pass over a node whose file has something in it empties the file. -/
theorem run_undamaged_counterexample :
    nodeRun std "k1" ⟨host [104, 105], .ret done⟩ events = some (passSteps [104, 105]) ∧
      ¬ ∀ s answer s', (s, NodeEvent.call answer, s') ∈ passSteps [104, 105] →
        Undamaged s s' := by
  refine ⟨nodeRun_events _, fun h => ?_⟩
  have hlast := h _ answer _ (@List.mem_of_getElem? _ (passSteps [104, 105]) 6 _ rfl)
  have hkept := (hlast.1 "/host/proc/42/root//data" ⟨1, 7⟩ rfl).2
  exact absurd (congrArg File.contents hkept) (by decide)

end Kive
