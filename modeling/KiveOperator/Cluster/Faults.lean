import KiveOperator.Cluster.World

/-!
# Requests that fail

A request to the API server may be refused, or its reply may be lost after it was carried out;
the caller sees an error both times.  The operations on the eBPF map and the search for a file
fail only by themselves, as `handle` says.
-/

namespace Kive

/-- What may befall a request: an error, before it is carried out or after. -/
structure Fault where
  err : String
  carriedOut : Bool

/-- The error that a failing request to the API server is answered with; other calls are none. -/
def Call.refuse (err : String) : (op : Call) → Option op.Answer
  | listKivePolicies _ => some (.error err)
  | listKiveData _ _ => some (.error err)
  | listPods _ _ => some (.error err)
  | patchKivePolicy _ _ => some (.error err)
  | patchKiveData _ _ => some (.error err)
  | applyKiveData _ _ => some (.error err)
  | deleteKiveData _ => some (.error err)
  | getContainerData _ => none
  | ebpfLoaded => none
  | loadEbpf => none
  | addInode _ => none
  | removeInode _ => none
  | now => none

section Faults

variable (std : Std) (podFields : PodFields) (node kernelID : String)

/-- The answer to a call that a fault may befall, and the world after it. -/
def handleFault (fault : Option Fault) (op : Call) (w : World) : op.Answer × World :=
  match fault.bind fun f => (op.refuse f.err).map fun a => (a, f.carriedOut) with
  | none => handle std podFields node kernelID op w
  | some (a, carriedOut) =>
    (a, if carriedOut then (handle std podFields node kernelID op w).2 else w)

/-- With or without a fault, a call leaves the world as it was or as `handle` does. -/
lemma handleFault_cases (fault : Option Fault) (op : Call) (w : World) :
    (handleFault std podFields node kernelID fault op w).2 = w ∨
      (handleFault std podFields node kernelID fault op w).2 =
        (handle std podFields node kernelID op w).2 := by
  unfold handleFault
  cases fault.bind fun f => (op.refuse f.err).map fun a => (a, f.carriedOut) with
  | none => exact Or.inr rfl
  | some r =>
    dsimp only
    split_ifs
    · exact Or.inr rfl
    · exact Or.inl rfl

/-- Without a fault nothing is different. -/
@[simp] lemma handleFault_none (op : Call) (w : World) :
    handleFault std podFields node kernelID none op w = handle std podFields node kernelID op w :=
  rfl

/-- A request that is not carried out changes nothing. -/
lemma handleFault_of_not_carriedOut {f : Fault} (hf : f.carriedOut ≠ true) {op : Call}
    {a : op.Answer} (ha : op.refuse f.err = some a) (w : World) :
    (handleFault std podFields node kernelID (some f) op w).2 = w := by
  rw [handleFault, Option.bind_some, ha, Option.map_some]
  exact if_neg hf

/-- A request that is carried out does what it does without a fault. -/
lemma handleFault_of_carriedOut {fault : Option Fault} (hfault : ∀ f ∈ fault, f.carriedOut = true)
    (op : Call) (w : World) :
    (handleFault std podFields node kernelID fault op w).2 =
      (handle std podFields node kernelID op w).2 := by
  cases fault with
  | none => rfl
  | some f =>
    unfold handleFault
    rw [Option.bind_some]
    cases op.refuse f.err with
    | none => rfl
    | some a => exact if_pos (hfault f rfl)

/-- Calls that are not requests are not befallen by faults. -/
lemma handleFault_of_refuse {op : Call} (h : ∀ err, op.refuse err = none) (fault : Option Fault)
    (w : World) :
    handleFault std podFields node kernelID fault op w =
      handle std podFields node kernelID op w := by
  cases fault with
  | none => rfl
  | some f => simp only [handleFault, Option.bind_some, h, Option.map_none]

/-- Faults do not befall the calls that a kernel answers. -/
lemma kernels_handleFault (fault : Option Fault) (op : Call) (w : World) :
    (handleFault std podFields node kernelID fault op w).2.kernels kernelID =
      kernelAfter op (w.kernels kernelID) := by
  by_cases hop : ∀ err, op.refuse err = none
  · rw [handleFault_of_refuse std podFields node kernelID hop, kernels_handle]
  · have hkernel : ∀ k, kernelAfter op k = k := by
      intro k
      cases op
      case loadEbpf => exact absurd (fun _ => rfl) hop
      case addInode => exact absurd (fun _ => rfl) hop
      case removeInode => exact absurd (fun _ => rfl) hop
      all_goals rfl
    rcases handleFault_cases std podFields node kernelID fault op w with heq | heq
    · rw [heq, hkernel]
    · rw [heq, kernels_handle]

/-- A call leaves the other kernels alone. -/
lemma kernels_handleFault_of_ne (fault : Option Fault) (op : Call) (w : World)
    {kernelID' : String} (hne : kernelID' ≠ kernelID) :
    (handleFault std podFields node kernelID fault op w).2.kernels kernelID' =
      w.kernels kernelID' := by
  rcases handleFault_cases std podFields node kernelID fault op w with heq | heq
  · rw [heq]
  · rw [heq]
    cases op
    case listKivePolicies reader => cases reader <;> rfl
    case listKiveData reader labels => cases reader <;> rfl
    case addInode mapKey => exact Function.update_of_ne hne _ _
    case removeInode mapKey => exact Function.update_of_ne hne _ _
    case loadEbpf => exact Function.update_of_ne hne _ _
    all_goals rfl

/-- Nor does a fault. -/
lemma caches_handleFault (fault : Option Fault) (op : Call) (w : World) (kernelID' : String) :
    let k := (handleFault std podFields node kernelID fault op w).2.kernels kernelID'
    k.cachedKiveData = (w.kernels kernelID').cachedKiveData ∧
      k.cachedKivePolicies = (w.kernels kernelID').cachedKivePolicies := by
  rcases handleFault_cases std podFields node kernelID fault op w with heq | heq
  · rw [heq]
    exact ⟨rfl, rfl⟩
  · rw [heq]
    exact caches_handle std podFields node kernelID op w kernelID'

/-- A list that a request is answered with is the one that `handle` gives. -/
lemma handleFault_eq_of_answer {op : Call} {fault : Option Fault} {w : World} {a : op.Answer}
    (ha : (handleFault std podFields node kernelID fault op w).1 = a)
    (hok : ∀ err, op.refuse err ≠ some a) :
    (handle std podFields node kernelID op w).1 = a := by
  unfold handleFault at ha
  cases hfault : fault.bind fun f => (op.refuse f.err).map fun a => (a, f.carriedOut) with
  | none =>
    rw [hfault] at ha
    exact ha
  | some r =>
    rw [hfault] at ha
    obtain ⟨f, -, hr⟩ := Option.bind_eq_some_iff.mp hfault
    obtain ⟨a', ha', rfl⟩ := Option.map_eq_some_iff.mp hr
    exact absurd (ha ▸ ha') (hok f.err)

/-- The handler of a run whose `n`-th call is befallen by `faults n`.  The number of the next call
is a part of the state. -/
def handleFaults (faults : ℕ → Option Fault) (op : Call) : World × ℕ → op.Answer × (World × ℕ)
  | (w, n) =>
    let r := handleFault std podFields node kernelID (faults n) op w
    (r.1, (r.2, n + 1))

end Faults

end Kive
