import KiveOperator.Cluster.World
import KiveOperator.Controller.KivePolicy

/-!
# The policy reconciler down to system calls

The call `getContainerData` of the policy reconciler stands for a program over the calls of the
container runtime.  `policyPass` is the reconciler with this program put in, so that others can
touch the files between any two of its system calls; `run_policyPass` says that a run without
interruption is the run of the reconciler.
-/

namespace Kive

open Interaction

/-- The calls of the policy reconciler, those to the runtime and the file system taken apart. -/
inductive NodeCall where
  | api (op : Call)
  /-- A call made to find the file of the trap of `site` in its container. -/
  | runtime (site : Site) (op : RuntimeCall)

abbrev NodeCall.Answer : NodeCall → Type
  | api op => op.Answer
  | runtime _ op => op.Answer

/-- A call to the runtime on behalf of `site`. -/
def runtimeCall (site : Site) (op : RuntimeCall) : Prog NodeCall.Answer op.Answer :=
  Prog.perform (NodeCall.runtime site op)

/-- A call of the reconciler in terms of the finer ones. -/
def nodeCalls : (op : Call) → Prog NodeCall.Answer op.Answer
  | .getContainerData site =>
    (Kive.getContainerData site.container site.trap).expand (runtimeCall site)
  | op => Prog.perform (NodeCall.api op)

/-- A run of the policy reconciler in terms of the finer calls. -/
def policyPass (std : Std) (kernelID : String) : Prog NodeCall.Answer Outcome :=
  (KivePolicyReconciler.reconcile std kernelID).expand nodeCalls

/-- The answer to a finer call made on a node, and the world after it. -/
def handleNode (std : Std) (podFields : PodFields) (node kernelID : String) :
    (op : NodeCall) → World → op.Answer × World
  | .api op, w => handle std podFields node kernelID op w
  | .runtime _ op, w =>
    ((Host.handle op (w.hosts node)).1, w.setHost node (Host.handle op (w.hosts node)).2)

/-- A call of the runtime acts on the host of the node alone. -/
lemma run_runtimeCall (std : Std) (podFields : PodFields) (node kernelID : String) (site : Site)
    (op : RuntimeCall) (w : World) :
    (runtimeCall site op).run (handleNode std podFields node kernelID) w =
      ((Host.handle op (w.hosts node)).1, w.setHost node (Host.handle op (w.hosts node)).2) :=
  rfl

/-- Running a program of the runtime inside the world is running it on the host. -/
lemma run_runtime (std : Std) (podFields : PodFields) (node kernelID : String) (site : Site)
    {α : Type} (p : RuntimeProg α) (w : World) :
    (p.expand (runtimeCall site)).run
        (handleNode std podFields node kernelID) w =
      ((p.run Host.handle (w.hosts node)).1,
        w.setHost node (p.run Host.handle (w.hosts node)).2) := by
  induction p generalizing w with
  | ret a => simp [Prog.expand, World.setHost]
  | call op k ih =>
    rw [Prog.expand_call, Prog.run_bind, run_runtimeCall, Prog.run_call, ih]
    simp [World.setHost]

/-- At the finer level a call has the same answer and the same effect. -/
lemma run_nodeCalls (std : Std) (podFields : PodFields) (node kernelID : String) (op : Call)
    (w : World) :
    (nodeCalls op).run (handleNode std podFields node kernelID) w =
      handle std podFields node kernelID op w := by
  cases op
  case getContainerData site => exact run_runtime std podFields node kernelID site _ w
  all_goals rfl

/-- The two levels of a run of the policy reconciler agree. -/
theorem run_policyPass (std : Std) (podFields : PodFields) (node kernelID : String) (w : World) :
    (policyPass std kernelID).run (handleNode std podFields node kernelID) w =
      (KivePolicyReconciler.reconcile std kernelID).run (handle std podFields node kernelID) w := by
  rw [policyPass, Prog.run_expand]
  congr 1
  funext op w
  exact run_nodeCalls std podFields node kernelID op w

end Kive
