import KiveOperator.Library.Logged
import KiveOperator.Cluster.ApiServer
import KiveOperator.Container.Runtime
import KiveOperator.Ebpf.TracedInodes

/-!
# The calls of the reconcilers

The three reconcilers are programs over the calls of `Call`: requests to the API server, through
the manager's client (whose reads come from a cache) or through the uncached one, the search for
a file in a container, and the operations on the eBPF program and its map.

A reconciler that returns early from inside its loops is written with an exception that carries
the value returned, an `Outcome`.
-/

namespace Kive

open Interaction

/-- Whom a read goes to. -/
inductive Reader where
  /-- `Client`, which reads from the manager's cache. -/
  | cached
  /-- `UncachedClient`, which asks the API server. -/
  | uncached
  deriving DecidableEq

/-- On whose behalf the policy reconciler makes a call.  This is not part of the request. -/
structure Site where
  policy : KivePolicy
  trap : KiveTrap
  pod : Pod
  container : ContainerStatus
  deriving DecidableEq

/-- The calls of the reconcilers. -/
inductive Call where
  | listKivePolicies (reader : Reader)
  | listKiveData (reader : Reader) (labels : StrMap)
  | listPods (labels : StrMap) (fields : List (String × String))
  /-- `Patch` of the modified copy with `client.MergeFrom` of the listed object. -/
  | patchKivePolicy (orig modified : KivePolicy)
  | patchKiveData (orig modified : KiveData)
  | applyKiveData (site : Site) (kiveData : KiveData)
  | deleteKiveData (kiveData : KiveData)
  /-- `container.GetContainerData` for the container and the trap of the site. -/
  | getContainerData (site : Site)
  /-- The variable `ebpf.Loaded`. -/
  | ebpfLoaded
  | loadEbpf
  | addInode (mapKey : BpfMapKey)
  | removeInode (mapKey : BpfMapKey)
  /-- `time.Now().Format(time.RFC3339)`. -/
  | now

/-- The answers to the calls. -/
abbrev Call.Answer : Call → Type
  | listKivePolicies _ => Except String (List KivePolicy)
  | listKiveData _ _ => Except String (List KiveData)
  | listPods _ _ => Except String (List Pod)
  | patchKivePolicy _ _ => Except String Unit
  | patchKiveData _ _ => Except String Unit
  | applyKiveData _ _ => Except String Unit
  | deleteKiveData _ => Except String Unit
  | getContainerData _ => Except String ContainerData
  | ebpfLoaded => Bool
  | loadEbpf => Except String Unit
  | addInode _ => Except String Unit
  | removeInode _ => Except String Unit
  | now => String

/-- `ctrl.Result`. -/
structure Result where
  requeue : Bool := false
  deriving DecidableEq

/-- What a reconciler returns: an error or a result. -/
abbrev Outcome := Except String Result

/-- A program over the calls. -/
abbrev CallProg := Prog Call.Answer

/-- A part of a reconciler, which may return from the whole of it. -/
abbrev Pass := ExceptT Outcome CallProg

/-- Return from the reconciler. -/
def Pass.exit {α : Type} (o : Outcome) : Pass α :=
  throw o

/-- Ask for another run. -/
def requeue : Outcome := .ok { requeue := true }

/-- Done. -/
def done : Outcome := .ok {}

/-- A whole reconciler: the value it returned from inside, or the one at its end. -/
def Pass.toProg (p : Pass Outcome) : CallProg Outcome := do
  match ← p.run with
  | .ok o => return o
  | .error o => return o

/-- The value that a whole reconciler returns. -/
def Pass.result : Except Outcome Outcome → Outcome
  | .ok o => o
  | .error o => o

section Run

variable {W : Type} (h : (op : Call) → W → op.Answer × W)

/-- Running a whole reconciler. -/
lemma Pass.run_toProg (p : Pass Outcome) (w : W) :
    p.toProg.run h w = (Pass.result (Prog.runE h p w).1, (Prog.runE h p w).2) := by
  rw [Pass.toProg, Prog.run_bind, Prog.runE]
  cases (Prog.run h p.run w).1 <;> rfl

/-- The calls of a whole reconciler. -/
lemma Pass.events_toProg (p : Pass Outcome) (w : W) :
    p.toProg.events h w = Prog.eventsE h p w := by
  rw [Pass.toProg, Prog.events_bind, Prog.eventsE]
  cases (Prog.run h p.run w).1 <;> exact List.append_nil _

/-- What a whole reconciler has done where it ends. -/
lemma Pass.obeys_toProg {Φ : List (Sigma Call.Answer) → Call → Prop}
    {Q : Outcome → List (Sigma Call.Answer) → Prop} {p : Pass Outcome}
    {log : List (Sigma Call.Answer)} (hp : p.run.Obeys Φ (fun r => Q (Pass.result r)) log) :
    p.toProg.Obeys Φ Q log := by
  refine hp.bind fun r l hr => ?_
  cases r <;> exact hr

/-- What the calls of a pass are, they are when its outcome is taken. -/
lemma Pass.makes_toProg {E : List (Sigma Call.Answer) → Prop} {p : Pass Outcome}
    (hp : p.run.Makes E) : p.toProg.Makes E :=
  fun log => Pass.obeys_toProg (hp log)

end Run

namespace Client

def listKivePolicies (reader : Reader) : CallProg (Except String (List KivePolicy)) :=
  Prog.perform (Call.listKivePolicies reader)
def listKiveData (reader : Reader) (labels : StrMap) :
    CallProg (Except String (List KiveData)) :=
  Prog.perform (Call.listKiveData reader labels)
def listPods (labels : StrMap) (fields : List (String × String)) :
    CallProg (Except String (List Pod)) :=
  Prog.perform (Call.listPods labels fields)
def patchKivePolicy (orig modified : KivePolicy) : CallProg (Except String Unit) :=
  Prog.perform (Call.patchKivePolicy orig modified)
def patchKiveData (orig modified : KiveData) : CallProg (Except String Unit) :=
  Prog.perform (Call.patchKiveData orig modified)
def applyKiveData (site : Site) (kiveData : KiveData) : CallProg (Except String Unit) :=
  Prog.perform (Call.applyKiveData site kiveData)
def deleteKiveData (kiveData : KiveData) : CallProg (Except String Unit) :=
  Prog.perform (Call.deleteKiveData kiveData)

end Client

namespace Container

def getContainerData (site : Site) : CallProg (Except String ContainerData) :=
  Prog.perform (Call.getContainerData site)

end Container

namespace Ebpf

def loaded : CallProg Bool := Prog.perform Call.ebpfLoaded
def loadEbpf : CallProg (Except String Unit) := Prog.perform Call.loadEbpf
def addInode (mapKey : BpfMapKey) : CallProg (Except String Unit) :=
  Prog.perform (Call.addInode mapKey)
def removeInode (mapKey : BpfMapKey) : CallProg (Except String Unit) :=
  Prog.perform (Call.removeInode mapKey)

end Ebpf

namespace Time

def now : CallProg String := Prog.perform Call.now

end Time

end Kive
