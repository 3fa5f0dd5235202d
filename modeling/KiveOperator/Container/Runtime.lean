import KiveOperator.Library.Program
import KiveOperator.Container.Utils
import KiveOperator.Container.FileSystem

/-!
# The container runtime of a node

`internal/controller/container/container.go` and `containerd.go`: how the inode and the device
of a trap's file are found in a container.  `getContainerData` is a program over the calls of
`RuntimeCall`, the requests to containerd and the system calls; `Host.handle` answers them.
-/

namespace Kive

open Interaction

/-- What is known about a file of a container. -/
structure ContainerData where
  ino : UInt64 := 0
  devID : UInt32 := 0
  id : String := ""
  name : String := ""
  /-- If true, the data should be requested again later. -/
  shouldRequeue : Bool := false
  /-- False if an inode was not found. -/
  isFound : Bool := false
  deriving DecidableEq

/-- The calls made to find a file.  Closing the descriptor that `creat` returns has no effect
here. -/
inductive RuntimeCall where
  | isConnected
  | connect
  | containers
  | task (id : String)
  | creat (target : String) (mode : UInt32)
  | stat (target : String)

/-- The answers to the calls. -/
abbrev RuntimeCall.Answer : RuntimeCall → Type
  | isConnected => Bool
  | connect => Except String Unit
  | containers => Except String (List String)
  | task _ => Except String UInt32
  | creat _ _ => Except String Unit
  | stat _ => Except String (UInt64 × UInt64)

/-- A call of the runtime, its answer at its own type. -/
abbrev RuntimeProg := Prog RuntimeCall.Answer

namespace Runtime

def isConnected : RuntimeProg Bool := Prog.perform RuntimeCall.isConnected
def connect : RuntimeProg (Except String Unit) := Prog.perform RuntimeCall.connect
def containers : RuntimeProg (Except String (List String)) := Prog.perform RuntimeCall.containers
def task (id : String) : RuntimeProg (Except String UInt32) := Prog.perform (RuntimeCall.task id)

end Runtime

namespace Syscall

def creat (target : String) (mode : UInt32) : RuntimeProg (Except String Unit) :=
  Prog.perform (RuntimeCall.creat target mode)
def stat (target : String) : RuntimeProg (Except String (UInt64 × UInt64)) :=
  Prog.perform (RuntimeCall.stat target)

end Syscall

/-! ## The programs -/

/-- The mountpoint of the node's procfs. -/
def procMountpoint : String := "/host/proc"

/-- The path, from the operator's container, of a file of the container whose task is `pid`. -/
def targetPath (pid : UInt32) (path : String) : String :=
  procMountpoint ++ "/" ++ String.ofList (Nat.toDigits 10 pid.toNat) ++ "/" ++ "root" ++ "/" ++ path

/-- Inode and device of a file, given the path and the pid of the container where the file
lives.  Creates the file if `create` is set. -/
def getInodeDev (pid : UInt32) (path : String) (create : Bool) (mode : UInt32) :
    RuntimeProg (Except String (UInt64 × UInt64)) := do
  if create then
    match ← Syscall.creat (targetPath pid path) mode with
    | .error err => return .error err
    | .ok () => Syscall.stat (targetPath pid path)
  else Syscall.stat (targetPath pid path)

namespace Containerd

/-- The loop over the containers of the node. -/
def findContainer (id : String) (kiveTrap : KiveTrap) :
    List String → RuntimeProg (Except String ContainerData)
  | [] => return .error "Containerd GetContainerData Inode not found"
  | container :: containers =>
    if container = id then do
      match ← Runtime.task container with
      | .error err => return .error err
      | .ok pid =>
        match ← getInodeDev pid kiveTrap.path kiveTrap.create kiveTrap.mode with
        | .error err => return .error err
        | .ok (inode, dev) =>
          return .ok { ino := inode, devID := userDevToKernelDev dev, isFound := true }
    else findContainer id kiveTrap containers

def getContainerData (id : String) (kiveTrap : KiveTrap) :
    RuntimeProg (Except String ContainerData) := do
  match ← Runtime.containers with
  | .error err => return .error err
  | .ok containers => findContainer id kiveTrap containers

end Containerd

/-- Only containerd is supported. -/
def isContainerRuntimeSupported (runtime : String) : Bool :=
  runtime == "containerd"

/-- Ask the runtime for the file, connecting first where that has not been done.  A failure of
the runtime is reported as a file that was not found. -/
def queryRuntime (containerStatus : ContainerStatus) (containerId : String)
    (kiveTrap : KiveTrap) : RuntimeProg (Except String ContainerData) := do
  match ← Containerd.getContainerData containerId kiveTrap with
  | .ok containerData =>
    return .ok { containerData with
      id := containerStatus.containerID, name := containerStatus.name }
  | .error _ => return .ok {}

/-- The data of the trap's file in a container. -/
def getContainerData (containerStatus : ContainerStatus) (kiveTrap : KiveTrap) :
    RuntimeProg (Except String ContainerData) := do
  if !containerStatus.ready then
    return .ok { shouldRequeue := true }
  else
    match splitContainerRuntimeID containerStatus.containerID with
    | .error err => return .error err
    | .ok (runtimeName, containerId) =>
      if !isContainerRuntimeSupported runtimeName then
        return .error ("GetContainerData Error: Container runtime " ++ runtimeName ++
          " is not supported.")
      else if ← Runtime.isConnected then
        queryRuntime containerStatus containerId kiveTrap
      else
        match ← Runtime.connect with
        | .error err => return .error ("GetContainerData Error Connect: " ++ err)
        | .ok () => queryRuntime containerStatus containerId kiveTrap

/-! ## The host -/

/-- A node as its discover controller sees it: the connection to containerd, the containers with
the pids of their tasks, and the files. -/
structure Host where
  connected : Bool
  connectAnswer : Except String Unit
  containers : Except String (List String)
  task : String → Except String UInt32
  fs : FileSystem

/-- A node without containers. -/
def Host.empty : Host where
  connected := true
  connectAnswer := .ok ()
  containers := .ok []
  task _ := .error "no running task found"
  fs := .empty

/-- The answer of the host to a call, and the host after it. -/
def Host.handle : (op : RuntimeCall) → Host → op.Answer × Host
  | .isConnected, h => (h.connected, h)
  | .connect, h =>
    (h.connectAnswer, { h with connected := h.connected || h.connectAnswer.toBool })
  | .containers, h => (h.containers, h)
  | .task id, h => (h.task id, h)
  | .creat target mode, h =>
    ((h.fs.creat target mode).1, { h with fs := (h.fs.creat target mode).2 })
  | .stat target, h => (h.fs.stat target, h)

/-! ## What a search finds -/

/-- A container that the runtime of the node knows. -/
def Host.Knows (h : Host) (id : String) : Prop :=
  ∃ containers, h.containers = .ok containers ∧ id ∈ containers

/-- The containers are the same ones, and every path that named a file still names it. -/
structure Host.Grows (h h' : Host) : Prop where
  containers : h'.containers = h.containers
  task : h'.task = h.task
  lookup : ∀ path id, h.fs.lookup path = some id → h'.fs.lookup path = some id

/-- A host grows into itself. -/
lemma Host.Grows.refl (h : Host) : h.Grows h :=
  ⟨rfl, rfl, fun _ _ h => h⟩

/-- Growing is transitive. -/
lemma Host.Grows.trans {h₁ h₂ h₃ : Host} (h₁₂ : h₁.Grows h₂) (h₂₃ : h₂.Grows h₃) : h₁.Grows h₃ :=
  ⟨h₂₃.containers.trans h₁₂.containers, h₂₃.task.trans h₁₂.task,
    fun path id h => h₂₃.lookup path id (h₁₂.lookup path id h)⟩

/-- Each call respects the host. -/
lemma Host.grows_handle (op : RuntimeCall) (h : Host) : h.Grows (Host.handle op h).2 := by
  cases op
  case creat target mode =>
    exact ⟨rfl, rfl, fun path id hid => FileSystem.lookup_creat target mode hid⟩
  all_goals exact ⟨rfl, rfl, fun _ _ h => h⟩

/-- So does each program. -/
lemma Host.grows_run {α : Type} (p : RuntimeProg α) (h : Host) :
    h.Grows (p.run Host.handle h).2 :=
  Prog.run_rel Host.handle Host.Grows.refl Host.Grows.trans Host.grows_handle p h

/-- A file with the given data is at the path of the trap in the container. -/
structure Host.Locates (h : Host) (containerStatus : ContainerStatus) (kiveTrap : KiveTrap)
    (containerData : ContainerData) : Prop where
  /-- The container is one of the node. -/
  container : ∃ containers, h.containers = .ok containers ∧
    containerIDPart containerStatus.containerID ∈ containers
  file : ∃ pid id, h.task (containerIDPart containerStatus.containerID) = .ok pid ∧
    h.fs.lookup (targetPath pid kiveTrap.path) = some id ∧
    containerData.ino = id.ino ∧ containerData.devID = userDevToKernelDev id.dev

/-- What is located stays where it is while programs run. -/
lemma Host.Locates.mono {h h' : Host} {c : ContainerStatus} {t : KiveTrap} {cd : ContainerData}
    (hl : h.Locates c t cd) (hg : h.Grows h') : h'.Locates c t cd := by
  obtain ⟨⟨containers, hcontainers, hmem⟩, pid, id, htask, hid, hdata⟩ := hl
  exact ⟨⟨containers, hg.containers.trans hcontainers, hmem⟩, pid, id,
    (congrFun hg.task _).trans htask, hg.lookup _ _ hid, hdata⟩

/-- One path in one container leads to one file. -/
lemma Host.Locates.unique {h : Host} {c c' : ContainerStatus} {t t' : KiveTrap}
    {cd cd' : ContainerData} (hl : h.Locates c t cd) (hl' : h.Locates c' t' cd')
    (hid : c.containerID = c'.containerID) (hpath : t.path = t'.path) :
    cd.ino = cd'.ino ∧ cd.devID = cd'.devID := by
  obtain ⟨-, pid, id, htask, hlookup, hino, hdev⟩ := hl
  obtain ⟨-, pid', id', htask', hlookup', hino', hdev'⟩ := hl'
  rw [← hid, htask] at htask'
  obtain rfl := Except.ok.inj htask'
  rw [← hpath, hlookup] at hlookup'
  obtain rfl := Option.some.inj hlookup'
  exact ⟨hino.trans hino'.symm, hdev.trans hdev'.symm⟩

/-- `getInodeDev` reports the file that the path names in the end. -/
lemma lookup_of_run_getInodeDev {pid : UInt32} {path : String} {create : Bool} {mode : UInt32}
    {h : Host} {ino dev : UInt64}
    (hrun : ((getInodeDev pid path create mode).run Host.handle h).1 = .ok (ino, dev)) :
    ((getInodeDev pid path create mode).run Host.handle h).2.fs.lookup (targetPath pid path) =
      some ⟨dev, ino⟩ := by
  unfold getInodeDev at hrun ⊢
  split_ifs at hrun ⊢ with hcreate
  · simp only [Syscall.creat, Prog.perform_bind, Prog.run_call] at hrun ⊢
    cases hcreat : (Host.handle (.creat (targetPath pid path) mode) h).1 with
    | error err =>
      rw [hcreat] at hrun
      exact absurd hrun (by simp)
    | ok u =>
      rw [hcreat] at hrun
      exact FileSystem.stat_eq_ok_iff.mp hrun
  · exact FileSystem.stat_eq_ok_iff.mp hrun

/-- What containerd finds is there. -/
lemma locates_of_run_findContainer {c : ContainerStatus} {t : KiveTrap} {h : Host}
    {l containers : List String} {cd : ContainerData} (hcontainers : h.containers = .ok containers)
    (hl : l ⊆ containers)
    (hrun : ((Containerd.findContainer (containerIDPart c.containerID) t l).run
      Host.handle h).1 = .ok cd) :
    ((Containerd.findContainer (containerIDPart c.containerID) t l).run
      Host.handle h).2.Locates c t cd ∧ cd.shouldRequeue = false := by
  induction l with
  | nil => exact absurd hrun (by simp [Containerd.findContainer])
  | cons x l ih =>
    unfold Containerd.findContainer at hrun ⊢
    split_ifs at hrun ⊢ with hx
    · subst hx
      simp only [Runtime.task, Prog.perform_bind, Prog.run_call, Host.handle] at hrun ⊢
      cases htask : h.task (containerIDPart c.containerID) with
      | error err =>
        rw [htask] at hrun
        exact absurd hrun (by simp)
      | ok pid =>
        rw [htask] at hrun
        simp only [Prog.run_bind] at hrun ⊢
        have hgrows := Host.grows_run (getInodeDev pid t.path t.create t.mode) h
        have hlookup := @lookup_of_run_getInodeDev pid t.path t.create t.mode h
        cases hfile : ((getInodeDev pid t.path t.create t.mode).run Host.handle h).1 with
        | error err =>
          rw [hfile] at hrun
          exact absurd hrun (by simp)
        | ok p =>
          obtain ⟨ino, dev⟩ := p
          rw [hfile] at hrun
          obtain rfl := Except.ok.inj hrun
          refine ⟨⟨⟨containers, hgrows.containers.trans hcontainers, hl List.mem_cons_self⟩, pid,
            ⟨dev, ino⟩, ?_, hlookup hfile, rfl, rfl⟩, rfl⟩
          exact (congrFun hgrows.task _).trans htask
    · exact ih (List.subset_of_cons_subset hl) hrun

/-- What is known about a file that a search has found. -/
structure Host.Finds (h : Host) (containerStatus : ContainerStatus) (kiveTrap : KiveTrap)
    (containerData : ContainerData) : Prop where
  locates : h.Locates containerStatus kiveTrap containerData
  id : containerData.id = containerStatus.containerID
  name : containerData.name = containerStatus.name
  shouldRequeue : containerData.shouldRequeue = false

/-- What has been found stays where it is while programs run. -/
lemma Host.Finds.mono {h h' : Host} {c : ContainerStatus} {t : KiveTrap} {cd : ContainerData}
    (hf : h.Finds c t cd) (hg : h.Grows h') : h'.Finds c t cd :=
  ⟨hf.locates.mono hg, hf.id, hf.name, hf.shouldRequeue⟩

/-- What a query reports of a container is so after the query. -/
lemma finds_of_run_queryRuntime {c : ContainerStatus} {t : KiveTrap} {h : Host}
    {cd : ContainerData} (hfound : cd.isFound = true)
    (hrun : ((queryRuntime c (containerIDPart c.containerID) t).run Host.handle h).1 = .ok cd) :
    ((queryRuntime c (containerIDPart c.containerID) t).run Host.handle h).2.Finds c t cd := by
  unfold queryRuntime Containerd.getContainerData at hrun ⊢
  simp only [Prog.run_bind, Runtime.containers, Prog.run_perform, Host.handle] at hrun ⊢
  cases hcontainers : h.containers with
  | error err =>
    rw [hcontainers] at hrun
    obtain rfl := Except.ok.inj hrun
    exact absurd hfound (by simp)
  | ok containers =>
    rw [hcontainers] at hrun
    dsimp only at hrun ⊢
    have hspec := @locates_of_run_findContainer c t h containers containers
    cases hfind : ((Containerd.findContainer (containerIDPart c.containerID) t containers).run
        Host.handle h).1 with
    | error err =>
      rw [hfind] at hrun
      obtain rfl := Except.ok.inj hrun
      exact absurd hfound (by simp)
    | ok cd' =>
      rw [hfind] at hrun
      obtain rfl := Except.ok.inj hrun
      obtain ⟨hloc, hrequeue⟩ := hspec hcontainers (List.Subset.refl _) hfind
      exact ⟨⟨hloc.container, hloc.file⟩, rfl, rfl, hrequeue⟩

/-- A file that `getContainerData` has found is where it says. -/
theorem finds_of_run_getContainerData {c : ContainerStatus} {t : KiveTrap} {h : Host}
    {cd : ContainerData} (hfound : cd.isFound = true)
    (hrun : ((getContainerData c t).run Host.handle h).1 = .ok cd) :
    ((getContainerData c t).run Host.handle h).2.Finds c t cd := by
  unfold getContainerData at hrun ⊢
  split_ifs at hrun ⊢ with hready
  · obtain rfl := Except.ok.inj hrun
    exact absurd hfound (by simp)
  · cases hsplit : splitContainerRuntimeID c.containerID with
    | error err =>
      rw [hsplit] at hrun
      exact absurd hrun (by simp)
    | ok parts =>
      obtain ⟨runtimeName, id⟩ := parts
      have hid : id = containerIDPart c.containerID := by rw [containerIDPart, hsplit]
      subst hid
      rw [hsplit] at hrun
      dsimp only at hrun ⊢
      split_ifs at hrun ⊢ with hsupported
      · exact absurd hrun (by simp)
      · cases hconnected : h.connected with
        | true =>
          simp only [Runtime.isConnected, Prog.perform_bind, Prog.run_call, Host.handle,
            hconnected, if_true] at hrun ⊢
          exact finds_of_run_queryRuntime hfound hrun
        | false =>
          simp only [Runtime.isConnected, Runtime.connect, Prog.perform_bind, Prog.run_call,
            Host.handle, hconnected, Bool.false_eq_true, if_false] at hrun ⊢
          cases hconnect : h.connectAnswer with
          | error err =>
            rw [hconnect] at hrun
            exact absurd hrun (by simp)
          | ok u =>
            rw [hconnect] at hrun
            exact finds_of_run_queryRuntime hfound hrun

end Kive
