import KiveOperator.Api.Types
import Mathlib.Data.Finset.Card
import Mathlib.Data.Finset.Insert

/-!
# Loading and unloading the eBPF program

`LoadEbpf` and `UnloadEbpf` of `internal/controller/ebpf/ebpf.go`, with the global variables that
they assign and the kernel handles that they open and close.

Each step can fail.  What the libraries do is taken from their documentation: a step that is to open
something and fails has opened nothing and returns nil, and closing what is closed already changes
nothing.  A step that is to close something and fails may have closed it or not.
-/

namespace Kive

namespace Lifecycle

/-! ## Handles and global variables -/

inductive HandleKind where
  | program
  | map
  | kprobe
  | ringbufReader
  deriving DecidableEq

/-- A handle of the kernel; no two that are ever opened have the same number. -/
structure Handle where
  id : ℕ
  kind : HandleKind
  deriving DecidableEq

/-- `bpfObjects`. -/
structure BpfObjects where
  kprobeInodePermissionNew : Option Handle := none
  kprobeInodePermissionOld : Option Handle := none
  rb : Option Handle := none
  tracedInodes : Option Handle := none
  deriving DecidableEq

/-- The global variables, and the handles that are open in the kernel. -/
structure Globals where
  ringbuffReader : Option Handle := none
  objs : BpfObjects := {}
  kprobe : Option Handle := none
  loaded : Bool := false
  opened : Finset Handle := ∅
  nextID : ℕ := 0

/-- A function that may return an error; what it did to the variables until then stays. -/
abbrev GoFunc := ExceptT String (StateM Globals)

/-- `fmt.Errorf` around the error of a call. -/
def wrap {α : Type} (text : String) (f : GoFunc α) : GoFunc α :=
  f.adapt (text ++ ·)

/-- A step that fails if it has an error. -/
def attempt : Option String → GoFunc Unit
  | none => return ()
  | some err => throw err

/-- Open a handle. -/
def openHandle (kind : HandleKind) : GoFunc Handle := do
  let g ← get
  let handle : Handle := ⟨g.nextID, kind⟩
  set { g with opened := insert handle g.opened, nextID := g.nextID + 1 }
  return handle

/-- Why closing fails, and whether the handle is closed all the same. -/
structure CloseFault where
  err : String
  closed : Bool
  deriving DecidableEq

/-- `Close` of a handle, which may be nil. -/
def close (handle : Option Handle) (fault : Option CloseFault) : GoFunc Unit :=
  match handle with
  | none => return ()
  | some h => do
    match fault with
    | none => modify fun g => { g with opened := g.opened.erase h }
    | some f =>
      if f.closed then modify fun g => { g with opened := g.opened.erase h }
      throw f.err

/-! ## Loading -/

/-- What becomes of the steps of `LoadEbpf`: the errors of those that fail, and whether the kernel
is an old one. -/
structure LoadSteps where
  removeMemlock : Option String := none
  loadBpfObjects : Option String := none
  isKernelOld : Except String Bool := .ok false
  kprobe : Option String := none
  newReader : Option String := none

/-- `loadBpfObjects(&Objs, nil)`. -/
def loadBpfObjects (err : Option String) : GoFunc Unit := do
  attempt err
  let rb ← openHandle .map
  let tracedInodes ← openHandle .map
  let kprobeInodePermissionNew ← openHandle .program
  let kprobeInodePermissionOld ← openHandle .program
  modify fun g =>
    { g with objs :=
        ⟨some kprobeInodePermissionNew, some kprobeInodePermissionOld, some rb, some tracedInodes⟩ }

/-- `Kprobe, err = link.Kprobe(..)`. -/
def linkKprobe (err : Option String) : GoFunc Unit := do
  modify fun g => { g with kprobe := none }
  attempt err
  let kprobe ← openHandle .kprobe
  modify fun g => { g with kprobe := some kprobe }

/-- `RingbuffReader, err = ringbuf.NewReader(..)`. -/
def newReader (err : Option String) : GoFunc Unit := do
  modify fun g => { g with ringbuffReader := none }
  attempt err
  let reader ← openHandle .ringbufReader
  modify fun g => { g with ringbuffReader := some reader }

/-- `LoadEbpf`. -/
def loadEbpf (steps : LoadSteps) : GoFunc Unit := do
  wrap "LoadEbpf Error Remove memlock: " (attempt steps.removeMemlock)
  wrap "LoadEbpf Error Load eBPF objects: " (loadBpfObjects steps.loadBpfObjects)
  let kernelIsOld ←
    wrap "LoadEbpf Error Check kernel version: " (MonadExcept.ofExcept steps.isKernelOld)
  if kernelIsOld then
    wrap "LoadEbpf Error Open kprobe (old kernel): " (linkKprobe steps.kprobe)
  else
    wrap "LoadEbpf Error Open kprobe: " (linkKprobe steps.kprobe)
  wrap "LoadEbpf Error Open ringbuf reader: " (newReader steps.newReader)
  modify fun g => { g with loaded := true }

/-! ## Unloading -/

/-- What becomes of the steps of `UnloadEbpf`, in their order.  `Objs.Close` closes the map of
traced inodes once more. -/
structure UnloadSteps where
  kprobe : Option CloseFault := none
  tracedInodes : Option CloseFault := none
  objsProgramNew : Option CloseFault := none
  objsProgramOld : Option CloseFault := none
  objsRb : Option CloseFault := none
  objsTracedInodes : Option CloseFault := none
  reader : Option CloseFault := none
  deriving DecidableEq

/-- `Objs.Close`: the programs and then the maps, up to the first error. -/
def closeObjs (objs : BpfObjects) (steps : UnloadSteps) : GoFunc Unit := do
  close objs.kprobeInodePermissionNew steps.objsProgramNew
  close objs.kprobeInodePermissionOld steps.objsProgramOld
  close objs.rb steps.objsRb
  close objs.tracedInodes steps.objsTracedInodes

/-- `UnloadEbpf`. -/
def unloadEbpf (steps : UnloadSteps) : GoFunc Unit := do
  let g ← get
  if g.kprobe.isSome then
    wrap "UnloadEbpf Error Failed to close ebpf program: " (close g.kprobe steps.kprobe)
    wrap "UnloadEbpf Error Failed to close eBPF map: "
      (close g.objs.tracedInodes steps.tracedInodes)
    wrap "UnloadEbpf Error Failed to close eBPF objects: " (closeObjs g.objs steps)
    if g.ringbuffReader.isSome then
      wrap "UnloadEbpf Error failed to close the Rinbuffer Reader: "
        (close g.ringbuffReader steps.reader)
    modify fun g => { g with loaded := false }

/-- What a data pass does first: load the program unless it is loaded. -/
def ensureLoaded (steps : LoadSteps) : GoFunc Unit := do
  if !(← get).loaded then loadEbpf steps

/-! ## Running -/

/-- What a function returns, and the variables and handles after it. -/
def GoFunc.exec {α : Type} (f : GoFunc α) (g : Globals) : Except String α × Globals :=
  f.run.run g

section Exec

variable {α β : Type} {f : GoFunc α} {g g' : Globals}

/-- A function goes on with what it got. -/
lemma exec_bind_of_ok {a : α} (h : f.exec g = (.ok a, g')) (k : α → GoFunc β) :
    (f >>= k).exec g = (k a).exec g' := by
  rw [GoFunc.exec] at h
  rw [GoFunc.exec, ExceptT.run_bind, StateT.run_bind, h]
  rfl

/-- A function returns the error that it got. -/
lemma exec_bind_of_error {err : String} (h : f.exec g = (.error err, g')) (k : α → GoFunc β) :
    (f >>= k).exec g = (.error err, g') := by
  rw [GoFunc.exec] at h
  rw [GoFunc.exec, ExceptT.run_bind, StateT.run_bind, h]
  rfl

/-- An error gets a text in front. -/
lemma exec_wrap (text : String) :
    (wrap text f).exec g = ((f.exec g).1.mapError (text ++ ·), (f.exec g).2) := rfl

/-- A data pass loads what is not loaded. -/
lemma exec_ensureLoaded (steps : LoadSteps) (g : Globals) :
    (ensureLoaded steps).exec g = if g.loaded then (.ok (), g) else (loadEbpf steps).exec g := by
  have hbody : (ensureLoaded steps).exec g =
      (if !g.loaded then loadEbpf steps else pure ()).exec g := rfl
  rw [hbody]
  cases g.loaded <;> rfl

end Exec

/-! ## What is open -/

/-- The variables that hold handles. -/
def Globals.handles (g : Globals) : List (Option Handle) :=
  [g.objs.kprobeInodePermissionNew, g.objs.kprobeInodePermissionOld, g.objs.rb, g.objs.tracedInodes,
    g.kprobe, g.ringbuffReader]

/-- The programs, the maps, the kprobe and the reader are open. -/
def Globals.AllOpen (g : Globals) : Prop :=
  ∀ handle ∈ g.handles, ∃ h ∈ g.opened, handle = some h

/-- The kprobes that are attached. -/
def Globals.attached (g : Globals) : Finset Handle :=
  g.opened.filter fun h => h.kind = .kprobe

/-- Nothing is open and nothing is loaded. -/
def Globals.Unloaded (g : Globals) : Prop :=
  g.loaded = false ∧ g.opened = ∅

/-- The variables after a load that began with nothing open, the next handle having been the
`n`-th. -/
def loadedFrom (n : ℕ) : Globals where
  ringbuffReader := some ⟨n + 5, .ringbufReader⟩
  objs := ⟨some ⟨n + 2, .program⟩, some ⟨n + 3, .program⟩, some ⟨n, .map⟩, some ⟨n + 1, .map⟩⟩
  kprobe := some ⟨n + 4, .kprobe⟩
  loaded := true
  opened := {⟨n + 5, .ringbufReader⟩, ⟨n + 4, .kprobe⟩, ⟨n + 3, .program⟩, ⟨n + 2, .program⟩,
    ⟨n + 1, .map⟩, ⟨n, .map⟩}
  nextID := n + 6

/-- A load opens everything, or fails: before the objects are open it leaves nothing behind, and
afterwards it leaves the objects. -/
lemma exec_loadEbpf {g : Globals} (hg : g.Unloaded) (steps : LoadSteps) :
    ((∃ err, (loadEbpf steps).exec g = (.error err, g)) ∧
      (steps.removeMemlock ≠ none ∨ steps.loadBpfObjects ≠ none)) ∨
    ((loadEbpf steps).exec g = (.ok (), loadedFrom g.nextID) ∧
      steps.removeMemlock = none ∧ steps.loadBpfObjects = none ∧
      (∃ old, steps.isKernelOld = .ok old) ∧ steps.kprobe = none ∧ steps.newReader = none) ∨
    ((∃ err g', (loadEbpf steps).exec g = (.error err, g') ∧ ⟨g.nextID, .map⟩ ∈ g'.opened) ∧
      steps.removeMemlock = none ∧ steps.loadBpfObjects = none ∧
      ((∃ err, steps.isKernelOld = .error err) ∨ steps.kprobe ≠ none ∨
        steps.newReader ≠ none)) := by
  obtain ⟨hloaded, hopened⟩ := hg
  obtain ⟨reader, objs, kprobe, loaded, opened, n⟩ := g
  obtain rfl : loaded = false := hloaded
  obtain rfl : opened = ∅ := hopened
  obtain ⟨removeMemlock, loadObjects, isKernelOld, kprobe, newReader⟩ := steps
  cases removeMemlock with
  | some err => exact Or.inl ⟨⟨_, rfl⟩, Or.inl (Option.some_ne_none err)⟩
  | none =>
    cases loadObjects with
    | some err => exact Or.inl ⟨⟨_, rfl⟩, Or.inr (Option.some_ne_none err)⟩
    | none =>
      right
      cases isKernelOld with
      | error err =>
        refine Or.inr ⟨⟨_, _, rfl, ?_⟩, rfl, rfl, Or.inl ⟨err, rfl⟩⟩
        simp
      | ok old =>
        cases kprobe with
        | some err =>
          cases old <;>
            refine Or.inr ⟨⟨_, _, rfl, ?_⟩, rfl, rfl, Or.inr (Or.inl (Option.some_ne_none err))⟩ <;>
            simp
        | none =>
          cases newReader with
          | some err =>
            cases old <;>
              refine Or.inr
                ⟨⟨_, _, rfl, ?_⟩, rfl, rfl, Or.inr (Or.inr (Option.some_ne_none err))⟩ <;>
              simp
          | none => cases old <;> exact Or.inl ⟨rfl, rfl, rfl, ⟨_, rfl⟩, rfl, rfl⟩

/-! ## Closing -/

/-- A function closes handles and changes nothing else.  It fails if one of its steps does, and
otherwise has closed them all. -/
def Closes (f : GoFunc Unit) (handles : List Handle) (faults : List (Option CloseFault)) : Prop :=
  ∀ g, ∃ r opened, f.exec g = (r, { g with opened := opened }) ∧ opened ⊆ g.opened ∧
    ((∃ err, r = .error err) ∧ (∃ fault ∈ faults, fault ≠ none) ∨
      r = .ok () ∧ (∀ fault ∈ faults, fault = none) ∧ ∀ h ∈ handles, h ∉ opened)

/-- Closing one handle. -/
lemma closes_close (h : Handle) (fault : Option CloseFault) :
    Closes (close (some h) fault) [h] [fault] := by
  intro g
  cases fault with
  | none =>
    refine ⟨_, _, rfl, Finset.erase_subset h g.opened, Or.inr ⟨rfl, by simp, ?_⟩⟩
    intro h' hh'
    obtain rfl := List.mem_singleton.mp hh'
    exact Finset.notMem_erase h' g.opened
  | some f =>
    have hsome : ∃ fault ∈ [some f], fault ≠ none := ⟨some f, by simp, Option.some_ne_none f⟩
    obtain ⟨err, closed⟩ := f
    cases closed with
    | false => exact ⟨_, g.opened, rfl, Finset.Subset.refl _, Or.inl ⟨⟨_, rfl⟩, hsome⟩⟩
    | true => exact ⟨_, _, rfl, Finset.erase_subset h g.opened, Or.inl ⟨⟨_, rfl⟩, hsome⟩⟩

/-- The text of the error does not matter to what is closed. -/
lemma Closes.wrap {f : GoFunc Unit} {handles : List Handle} {faults : List (Option CloseFault)}
    (h : Closes f handles faults) (text : String) : Closes (wrap text f) handles faults := by
  intro g
  obtain ⟨r, opened, hexec, hsub, hr⟩ := h g
  rw [exec_wrap, hexec]
  rcases hr with ⟨⟨err, rfl⟩, hfault⟩ | ⟨rfl, hok⟩
  · exact ⟨_, opened, rfl, hsub, Or.inl ⟨⟨_, rfl⟩, hfault⟩⟩
  · exact ⟨_, opened, rfl, hsub, Or.inr ⟨rfl, hok⟩⟩

/-- Closing some handles and then others. -/
lemma Closes.bind {f f' : GoFunc Unit} {handles handles' : List Handle}
    {faults faults' : List (Option CloseFault)} (h : Closes f handles faults)
    (h' : Closes f' handles' faults') :
    Closes (f >>= fun _ => f') (handles ++ handles') (faults ++ faults') := by
  intro g
  obtain ⟨r, opened, hexec, hsub, hr⟩ := h g
  rcases hr with ⟨⟨err, rfl⟩, fault, hmem, hne⟩ | ⟨rfl, hnone, hclosed⟩
  · exact ⟨_, opened, exec_bind_of_error hexec _, hsub,
      Or.inl ⟨⟨err, rfl⟩, fault, List.mem_append_left _ hmem, hne⟩⟩
  · obtain ⟨r', opened', hexec', hsub', hr'⟩ := h' { g with opened := opened }
    refine ⟨r', opened', (exec_bind_of_ok hexec _).trans hexec', hsub'.trans hsub, ?_⟩
    rcases hr' with ⟨herr, fault, hmem, hne⟩ | ⟨hok, hnone', hclosed'⟩
    · exact Or.inl ⟨herr, fault, List.mem_append_right _ hmem, hne⟩
    · refine Or.inr ⟨hok, List.forall_mem_append.mpr ⟨hnone, hnone'⟩,
        List.forall_mem_append.mpr ⟨fun x hx hopen => ?_, hclosed'⟩⟩
      exact hclosed x hx (hsub' hopen)

/-- The steps of an unload, apart from the first. -/
def UnloadSteps.later (steps : UnloadSteps) : List (Option CloseFault) :=
  [steps.tracedInodes, steps.objsProgramNew, steps.objsProgramOld, steps.objsRb,
    steps.objsTracedInodes, steps.reader]

/-- The variables when an unload after a load has closed the kprobe. -/
def withoutKprobe (n : ℕ) : Globals :=
  { loadedFrom n with opened := (loadedFrom n).opened.erase ⟨n + 4, .kprobe⟩ }

/-- An unload after a load closes the kprobe, and then the rest. -/
lemma exec_unloadEbpf (n : ℕ) (steps : UnloadSteps) :
    ∃ rest, (unloadEbpf steps).exec (loadedFrom n) =
        (match steps.kprobe with
          | some f => (.error ("UnloadEbpf Error Failed to close ebpf program: " ++ f.err),
              if f.closed then withoutKprobe n else loadedFrom n)
          | none => (rest >>= fun _ => modify fun g => { g with loaded := false }).exec
              (withoutKprobe n)) ∧
      Closes rest [⟨n + 1, .map⟩, ⟨n + 2, .program⟩, ⟨n + 3, .program⟩, ⟨n, .map⟩, ⟨n + 1, .map⟩,
        ⟨n + 5, .ringbufReader⟩] steps.later := by
  refine ⟨wrap "UnloadEbpf Error Failed to close eBPF map: "
      (close (some ⟨n + 1, .map⟩) steps.tracedInodes) >>= fun _ =>
    wrap "UnloadEbpf Error Failed to close eBPF objects: " (closeObjs (loadedFrom n).objs steps) >>=
      fun _ => wrap "UnloadEbpf Error failed to close the Rinbuffer Reader: "
        (close (some ⟨n + 5, .ringbufReader⟩) steps.reader), ?_, ?_⟩
  · simp only [bind_assoc]
    obtain ⟨kprobe, tracedInodes, programNew, programOld, rb, tracedInodes', reader⟩ := steps
    cases kprobe with
    | none => rfl
    | some f =>
      obtain ⟨err, closed⟩ := f
      cases closed <;> rfl
  · have hobjs := (closes_close ⟨n + 2, .program⟩ steps.objsProgramNew).bind
      ((closes_close ⟨n + 3, .program⟩ steps.objsProgramOld).bind
        ((closes_close ⟨n, .map⟩ steps.objsRb).bind
          (closes_close ⟨n + 1, .map⟩ steps.objsTracedInodes)))
    exact ((closes_close ⟨n + 1, .map⟩ steps.tracedInodes).wrap _).bind
      ((hobjs.wrap _).bind ((closes_close ⟨n + 5, .ringbufReader⟩ steps.reader).wrap _))

/-! ## With nothing open -/

/-- A function opens nothing and loads nothing. -/
def StaysUnloaded {α : Type} (f : GoFunc α) : Prop :=
  ∀ g, g.Unloaded → (f.exec g).2.Unloaded

/-- One part after the other. -/
lemma StaysUnloaded.bind {α β : Type} {f : GoFunc α} {k : α → GoFunc β} (hf : StaysUnloaded f)
    (hk : ∀ a, StaysUnloaded (k a)) : StaysUnloaded (f >>= k) := by
  intro g hg
  have hmid := hf g hg
  cases h : f.exec g with
  | mk r g' =>
    rw [h] at hmid
    cases r with
    | error err =>
      rw [exec_bind_of_error h]
      exact hmid
    | ok a =>
      rw [exec_bind_of_ok h]
      exact hk a g' hmid

/-- The text of the error does not matter. -/
lemma StaysUnloaded.wrap {α : Type} {f : GoFunc α} (hf : StaysUnloaded f) (text : String) :
    StaysUnloaded (wrap text f) := hf

/-- Closing loads nothing. -/
lemma staysUnloaded_close (handle : Option Handle) (fault : Option CloseFault) :
    StaysUnloaded (close handle fault) := by
  intro g hg
  cases handle with
  | none => exact hg
  | some h =>
    have herase : ({ g with opened := g.opened.erase h } : Globals).Unloaded :=
      ⟨hg.1, by rw [hg.2]; rfl⟩
    cases fault with
    | none => exact herase
    | some f =>
      obtain ⟨err, closed⟩ := f
      cases closed with
      | false => exact hg
      | true => exact herase

/-- An unload with nothing open leaves nothing open. -/
lemma staysUnloaded_unloadEbpf (steps : UnloadSteps) : StaysUnloaded (unloadEbpf steps) := by
  refine StaysUnloaded.bind (fun g hg => hg) fun g => ?_
  have hobjs : StaysUnloaded (closeObjs g.objs steps) :=
    (staysUnloaded_close _ _).bind fun _ => (staysUnloaded_close _ _).bind fun _ =>
      (staysUnloaded_close _ _).bind fun _ => staysUnloaded_close _ _
  have hlast : StaysUnloaded (modify fun g => { g with loaded := false }) := fun g hg => ⟨rfl, hg.2⟩
  dsimp only
  split_ifs with hkprobe hreader
  · exact ((staysUnloaded_close _ _).wrap _).bind fun _ =>
      ((staysUnloaded_close _ _).wrap _).bind fun _ => (hobjs.wrap _).bind fun _ =>
        ((staysUnloaded_close _ _).wrap _).bind fun _ => hlast
  · exact ((staysUnloaded_close _ _).wrap _).bind fun _ =>
      ((staysUnloaded_close _ _).wrap _).bind fun _ => (hobjs.wrap _).bind fun _ => hlast
  · exact fun g hg => hg

end Lifecycle

end Kive
