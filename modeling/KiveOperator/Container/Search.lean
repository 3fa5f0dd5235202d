import KiveOperator.Container.Runtime

/-!
# The calls of a search

A search for the file of a trap creates nothing but this file, and connects to the runtime where
that has not been done.  Two hosts that differ in nothing but whether they are connected, and not
even in that where connecting fails, give the same answers (`Host.Alike.run_getContainerData`); a
search for a trap that creates no file leads to such a host.
-/

namespace Kive

open Interaction

/-! ## What a search calls -/

/-- The call `creat` is made for a trap that asks for it, with the path and the mode of the
trap. -/
def CreatesFor (kiveTrap : KiveTrap) (op : RuntimeCall) : Prop :=
  ∀ target mode, op = .creat target mode → kiveTrap.create = true ∧ mode = kiveTrap.mode ∧
    ∃ pid, target = targetPath pid kiveTrap.path

/-- A call that is not `creat`. -/
lemma createsFor_of_ne {kiveTrap : KiveTrap} {op : RuntimeCall}
    (h : ∀ target mode, op ≠ .creat target mode) : CreatesFor kiveTrap op :=
  fun target mode heq => absurd heq (h target mode)

/-- A call that does not concern the connection. -/
def RuntimeCall.Unconnected : RuntimeCall → Prop
  | isConnected => False
  | connect => False
  | _ => True

/-- A call of a search once the runtime is connected. -/
def QueryCall (kiveTrap : KiveTrap) (op : RuntimeCall) : Prop :=
  CreatesFor kiveTrap op ∧ op.Unconnected

/-- Looking for the file makes no call but those of a query. -/
lemma only_getInodeDev (kiveTrap : KiveTrap) (pid : UInt32) :
    (getInodeDev pid kiveTrap.path kiveTrap.create kiveTrap.mode).Only (QueryCall kiveTrap) := by
  have hstat : (Syscall.stat (targetPath pid kiveTrap.path)).Only (QueryCall kiveTrap) :=
    ⟨⟨createsFor_of_ne (by simp), trivial⟩, fun _ => trivial⟩
  unfold getInodeDev
  split_ifs with hcreate
  · refine ⟨⟨?_, trivial⟩, fun answer => ?_⟩
    · rintro target mode ⟨⟩
      exact ⟨hcreate, rfl, pid, rfl⟩
    · cases answer with
      | error err => trivial
      | ok u => exact hstat
  · exact hstat

/-- The loop over the containers of the runtime makes no call but those of a query. -/
lemma only_findContainer (kiveTrap : KiveTrap) (id : String) (containers : List String) :
    (Containerd.findContainer id kiveTrap containers).Only (QueryCall kiveTrap) := by
  induction containers with
  | nil => trivial
  | cons container containers ih =>
    unfold Containerd.findContainer
    split_ifs with hid
    · refine ⟨⟨createsFor_of_ne (by simp), trivial⟩, fun answer => ?_⟩
      cases answer with
      | error err => trivial
      | ok pid =>
        change Prog.Only _ (getInodeDev pid kiveTrap.path kiveTrap.create kiveTrap.mode >>= _)
        refine Prog.Only.bind (only_getInodeDev kiveTrap pid) fun answer => ?_
        cases answer <;> trivial
    · exact ih

/-- A query of the runtime makes no call but its own. -/
lemma only_queryRuntime (kiveTrap : KiveTrap) (containerStatus : ContainerStatus) (id : String) :
    (queryRuntime containerStatus id kiveTrap).Only (QueryCall kiveTrap) := by
  refine Prog.Only.bind ⟨⟨createsFor_of_ne (by simp), trivial⟩, fun answer => ?_⟩ fun answer => ?_
  · cases answer with
    | error err => trivial
    | ok containers => exact only_findContainer kiveTrap id containers
  · cases answer <;> trivial

/-- The search for the file of a trap creates nothing but this file. -/
lemma only_getContainerData (kiveTrap : KiveTrap) (containerStatus : ContainerStatus) :
    (getContainerData containerStatus kiveTrap).Only (CreatesFor kiveTrap) := by
  have hquery : ∀ id, (queryRuntime containerStatus id kiveTrap).Only (CreatesFor kiveTrap) :=
    fun id => (only_queryRuntime kiveTrap containerStatus id).mono fun _ h => h.1
  unfold getContainerData
  split_ifs with hready
  · trivial
  · cases splitContainerRuntimeID containerStatus.containerID with
    | error err => trivial
    | ok parts =>
      dsimp only
      split_ifs with hsupported
      · trivial
      · refine ⟨createsFor_of_ne (by simp), fun connected => ?_⟩
        cases connected with
        | true => exact hquery parts.2
        | false =>
          refine ⟨createsFor_of_ne (by simp), fun answer => ?_⟩
          cases answer with
          | error err => trivial
          | ok u => exact hquery parts.2

/-! ## Hosts that differ in the connection -/

/-- The hosts differ at most in whether they are connected to a runtime that can be
connected to. -/
structure Host.Alike (h h' : Host) : Prop where
  connectAnswer : h'.connectAnswer = h.connectAnswer
  reachable : (h'.connected || h'.connectAnswer.toBool) = (h.connected || h.connectAnswer.toBool)
  containers : h'.containers = h.containers
  task : h'.task = h.task
  fs : h'.fs = h.fs

/-- A host is alike to itself. -/
lemma Host.Alike.refl (h : Host) : h.Alike h := ⟨rfl, rfl, rfl, rfl, rfl⟩

/-- Being alike is symmetric. -/
lemma Host.Alike.symm {h h' : Host} (ha : h.Alike h') : h'.Alike h :=
  ⟨ha.connectAnswer.symm, ha.reachable.symm, ha.containers.symm, ha.task.symm, ha.fs.symm⟩

/-- Being alike is transitive. -/
lemma Host.Alike.trans {h₁ h₂ h₃ : Host} (h₁₂ : h₁.Alike h₂) (h₂₃ : h₂.Alike h₃) : h₁.Alike h₃ :=
  ⟨h₂₃.connectAnswer.trans h₁₂.connectAnswer, h₂₃.reachable.trans h₁₂.reachable,
    h₂₃.containers.trans h₁₂.containers, h₂₃.task.trans h₁₂.task, h₂₃.fs.trans h₁₂.fs⟩

/-- Connecting leads to a host that is alike. -/
lemma Host.alike_connect (h : Host) : h.Alike (Host.handle .connect h).2 :=
  ⟨rfl, by simp only [Host.handle, Bool.or_assoc, Bool.or_self], rfl, rfl, rfl⟩

/-- Calls that do not concern the connection are answered alike. -/
lemma Host.Alike.run {α : Type} {p : RuntimeProg α} (hp : p.Only RuntimeCall.Unconnected)
    {h h' : Host} (ha : h.Alike h') :
    (p.run Host.handle h).1 = (p.run Host.handle h').1 ∧
      (p.run Host.handle h).2.Alike (p.run Host.handle h').2 := by
  induction p generalizing h h' with
  | ret a => exact ⟨rfl, ha⟩
  | call op k ih =>
    obtain ⟨hop, hk⟩ := hp
    have hanswer : (Host.handle op h).1 = (Host.handle op h').1 ∧
        (Host.handle op h).2.Alike (Host.handle op h').2 := by
      cases op
      case isConnected => exact absurd hop id
      case connect => exact absurd hop id
      case containers => exact ⟨ha.containers.symm, ha⟩
      case task id => exact ⟨congrFun ha.task.symm id, ha⟩
      case stat target => exact ⟨by simp only [Host.handle, ha.fs], ha⟩
      case creat target mode =>
        refine ⟨by simp only [Host.handle, ha.fs], ?_⟩
        exact ⟨ha.connectAnswer, ha.reachable, ha.containers, ha.task,
          by simp only [Host.handle, ha.fs]⟩
    rw [Prog.run_call, Prog.run_call, ← hanswer.1]
    exact ih _ (hk _) hanswer.2

section Search

variable (c : ContainerStatus) (t : KiveTrap)

/-- A search that has come to the runtime queries it, on a host that is alike, or cannot
connect. -/
lemma run_getContainerData_cases {runtime id : String} (h : Host) (hready : c.ready = true)
    (hsplit : splitContainerRuntimeID c.containerID = .ok (runtime, id))
    (hsupported : isContainerRuntimeSupported runtime = true) :
    ((h.connected || h.connectAnswer.toBool) = true ∧ ∃ h', h.Alike h' ∧
      (getContainerData c t).run Host.handle h = (queryRuntime c id t).run Host.handle h') ∨
    ((h.connected || h.connectAnswer.toBool) = false ∧ ∃ err h', h.connectAnswer = .error err ∧
      h.Alike h' ∧ (getContainerData c t).run Host.handle h =
        (.error ("GetContainerData Error Connect: " ++ err), h')) := by
  have hcall : ((Host.handle .connect h).1 : Except String Unit) = h.connectAnswer := rfl
  unfold getContainerData
  rw [hready, hsplit]
  simp only [Bool.not_true, Bool.false_eq_true, if_false, hsupported, Runtime.isConnected,
    Runtime.connect, Prog.perform_bind, Prog.run_call]
  by_cases hconn : h.connected = true
  · refine Or.inl ⟨by rw [hconn, Bool.true_or], h, Host.Alike.refl h, ?_⟩
    exact congrArg (Prog.run Host.handle · h) (if_pos hconn)
  · have hnot : (h.connected || h.connectAnswer.toBool) = h.connectAnswer.toBool := by
      rw [Bool.not_eq_true] at hconn
      rw [hconn, Bool.false_or]
    rw [hnot, show (Host.handle .isConnected h).1 = h.connected from rfl, if_neg hconn,
      Prog.run_call, show (Host.handle .isConnected h).2 = h from rfl, hcall]
    cases h.connectAnswer with
    | error err => exact Or.inr ⟨rfl, err, _, rfl, h.alike_connect, rfl⟩
    | ok u => exact Or.inl ⟨rfl, _, h.alike_connect, rfl⟩

/-- Hosts that are alike answer a search alike. -/
theorem Host.Alike.run_getContainerData {h h' : Host} (ha : h.Alike h') :
    ((getContainerData c t).run Host.handle h).1 = ((getContainerData c t).run Host.handle h').1 ∧
      ((getContainerData c t).run Host.handle h).2.Alike
        ((getContainerData c t).run Host.handle h').2 := by
  cases hready : c.ready with
  | false =>
    simp only [getContainerData, hready, Bool.not_false, if_true]
    exact ⟨rfl, ha⟩
  | true =>
    cases hsplit : splitContainerRuntimeID c.containerID with
    | error err =>
      simp only [getContainerData, hready, hsplit, Bool.not_true, Bool.false_eq_true, if_false]
      exact ⟨rfl, ha⟩
    | ok parts =>
      obtain ⟨runtime, id⟩ := parts
      cases hsupported : isContainerRuntimeSupported runtime with
      | false =>
        simp only [getContainerData, hready, hsplit, hsupported, Bool.not_true, Bool.not_false,
          Bool.false_eq_true, if_false, if_true]
        exact ⟨rfl, ha⟩
      | true =>
        have hreach := ha.reachable
        rcases run_getContainerData_cases c t h hready hsplit hsupported with
          ⟨hr, h₁, ha₁, hrun⟩ | ⟨hr, err, h₁, hanswer, ha₁, hrun⟩
        · rcases run_getContainerData_cases c t h' hready hsplit hsupported with
            ⟨-, h₂, ha₂, hrun'⟩ | ⟨hr', -⟩
          · rw [hrun, hrun']
            exact (ha₁.symm.trans (ha.trans ha₂)).run
              ((only_queryRuntime t c id).mono fun _ hop => hop.2)
          · exact absurd (hr.symm.trans (hreach.symm.trans hr')) (by simp)
        · rcases run_getContainerData_cases c t h' hready hsplit hsupported with
            ⟨hr', -⟩ | ⟨-, err', h₂, hanswer', ha₂, hrun'⟩
          · exact absurd (hr.symm.trans (hreach.symm.trans hr')) (by simp)
          · obtain rfl : err = err' := by
              rw [ha.connectAnswer, hanswer] at hanswer'
              exact Except.error.inj hanswer'
            rw [hrun, hrun']
            exact ⟨rfl, ha₁.symm.trans (ha.trans ha₂)⟩

/-- A search for a trap that creates no file leaves a host that is alike. -/
theorem Host.alike_run_getContainerData (ht : t.create = false) (h : Host) :
    h.Alike ((getContainerData c t).run Host.handle h).2 := by
  refine Prog.Only.run_induction Host.handle (Φ := fun _ h' => h.Alike h')
    (fun _ op h' hop hh => ?_) (only_getContainerData t c) [] h (Host.Alike.refl h)
  refine hh.trans ?_
  cases op
  case creat target mode =>
    obtain ⟨hc, -⟩ := hop target mode rfl
    exact absurd (ht.symm.trans hc) (by simp)
  case connect => exact Host.alike_connect h'
  all_goals exact Host.Alike.refl h'

end Search

end Kive
