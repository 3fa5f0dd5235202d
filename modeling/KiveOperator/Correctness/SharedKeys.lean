import KiveOperator.Cluster.Faults
import KiveOperator.Controller.DataCalls
import KiveOperator.Controller.DataRun
import KiveOperator.Controller.KivePolicy

/-!
# When a run of the loader keeps the keys of justified KiveData

A run removes at most one key from the map: that of the first listed KiveData that needs a patch
of its finalizers, if that one is being deleted.  Another KiveData may have the same key.
`keysKept_iff` says exactly when a run keeps the keys of the KiveData that are to stay, whatever
requests of the run fail.
-/

namespace Kive

open Interaction KiveDataReconciler

/-- The first of the listed KiveData that needs a patch of its finalizers. -/
def firstDue (l : List KiveData) : Option KiveData :=
  l.find? fun d => PatchDue d

/-- What the argument needs of a handler: a key goes with its removal, and no other call takes it
away, loading the program apart, nor does a patch bring it back. -/
structure KeepsKey {W : Type} (h : (op : Call) → W → op.Answer × W) (Traced : W → Prop)
    (mapKey : BpfMapKey) : Prop where
  keeps : ∀ op w, op ≠ .loadEbpf → op ≠ .removeInode mapKey → Traced w → Traced (h op w).2
  removes : ∀ w, ¬ Traced (h (.removeInode mapKey) w).2
  stays : ∀ d d' w, ¬ Traced w → ¬ Traced (h (.patchKiveData d d') w).2

section Loop

variable (std : Std) {W : Type} {h : (op : Call) → W → op.Answer × W} {Traced : W → Prop}
  {mapKey : BpfMapKey}

/-- Judging a KiveData takes no key away. -/
lemma judge_keeps (hk : KeepsKey h Traced mapKey) (policies : List KivePolicy) (d : KiveData)
    {w : W} (hw : Traced w) : Traced ((judge std policies d).run h w).2 := by
  refine Prog.Only.run_induction h (Φ := fun _ w => Traced w) (fun _ op w hop hw => ?_)
    (only_judge std policies d) [] w hw
  rcases hop with ⟨labels, fields, rfl⟩ | rfl | rfl <;>
    exact hk.keeps _ w (by simp) (by simp) hw

/-- The key is in the map after the loop unless the first KiveData that needs a patch is being
deleted and has the key. -/
lemma dataLoop_keeps (hk : KeepsKey h Traced mapKey) (policies : List KivePolicy)
    (l : List KiveData) {w : W} (hw : Traced w) :
    Traced (Prog.runE h (dataLoop std policies l) w).2 ↔
      ∀ x ∈ firstDue l, Deleting x → x.mapKey ≠ mapKey := by
  induction l generalizing w with
  | nil =>
    refine iff_of_true hw fun x hx => ?_
    cases hx
  | cons d l ih =>
    by_cases hdue : PatchDue d
    · have hfirst : firstDue (d :: l) = some d := List.find?_cons_of_pos (by simpa using hdue)
      rw [hfirst]
      by_cases hdel : Deleting d
      · rw [runE_dataLoop_finalize std h policies l w hdue hdel]
        by_cases hkey : d.mapKey = mapKey
        · refine iff_of_false ?_ fun hno => hno d rfl hdel hkey
          rw [hkey]
          exact hk.stays _ _ _ (hk.removes w)
        · refine iff_of_true ?_ ?_
          · refine hk.keeps _ _ (by simp) (by simp) (hk.keeps _ _ (by simp) (fun heq => ?_) hw)
            exact hkey (Call.removeInode.inj heq)
          · rintro x ⟨⟩ -
            exact hkey
      · rw [runE_dataLoop_claim std h policies l w hdue hdel]
        refine iff_of_true (hk.keeps _ _ (by simp) (by simp) hw) ?_
        rintro x ⟨⟩ hx
        exact absurd hx hdel
    · have hfirst : firstDue (d :: l) = firstDue l := List.find?_cons_of_neg (by simpa using hdue)
      rw [hfirst]
      by_cases hdel : Deleting d
      · rw [runE_dataLoop_skip std h policies l w hdue hdel]
        exact ih hw
      · rw [runE_dataLoop_judge std h policies l w hdue hdel]
        exact ih (judge_keeps std hk policies d hw)

end Loop

section Run

variable (std : Std) (podFields : PodFields) (node kernelID : String) (faults : ℕ → Option Fault)

/-- One run of the loader, its `n`-th call being befallen by `faults n`. -/
def faultyRun (w : World) : World :=
  ((reconcile std kernelID).run (handleFaults std podFields node kernelID faults) (w, 0)).2.1

/-- The calls of a reconciler do to a key of the map what they are for. -/
lemma keepsKey_handleFaults (mapKey : BpfMapKey) :
    KeepsKey (handleFaults std podFields node kernelID faults)
      (fun s => mapKey ∈ (s.1.kernels kernelID).tracedInodes) mapKey := by
  constructor
  · rintro op ⟨w, n⟩ hload hremove (hw : mapKey ∈ (w.kernels kernelID).tracedInodes)
    change mapKey ∈
      ((handleFault std podFields node kernelID (faults n) op w).2.kernels kernelID).tracedInodes
    rcases handleFault_cases std podFields node kernelID (faults n) op w with h | h
    · rwa [h]
    · rw [h, tracedInodes_handle]
      cases op
      case loadEbpf => exact absurd rfl hload
      case addInode k => exact Kernel.mem_tracedInodes_addInode hw k
      case removeInode k =>
        exact Finset.mem_erase.mpr ⟨fun heq => hremove (heq ▸ rfl), hw⟩
      all_goals exact hw
  · rintro ⟨w, n⟩
    change mapKey ∉ ((handleFault std podFields node kernelID (faults n) (.removeInode mapKey)
      w).2.kernels kernelID).tracedInodes
    rw [handleFault_of_refuse std podFields node kernelID (fun _ => rfl), tracedInodes_handle]
    exact Finset.notMem_erase _ _
  · rintro d d' ⟨w, n⟩ (hw : mapKey ∉ (w.kernels kernelID).tracedInodes)
    change mapKey ∉ ((handleFault std podFields node kernelID (faults n) (.patchKiveData d d')
      w).2.kernels kernelID).tracedInodes
    rcases handleFault_cases std podFields node kernelID (faults n) (.patchKiveData d d') w with
      h | h
    · rwa [h]
    · rwa [h, tracedInodes_handle]

/-- A list request to the cache is answered or not, and changes nothing. -/
lemma handleFaults_listKiveData (labels : StrMap) (w : World) (n : ℕ) :
    handleFaults std podFields node kernelID faults (.listKiveData .cached labels) (w, n) =
      (match faults n with
        | none => .ok (listKiveData labels (w.kernels kernelID).cachedKiveData)
        | some f => .error f.err, (w, n + 1)) := by
  rw [handleFaults]
  cases faults n with
  | none => rfl
  | some f => simp [handleFault, Call.refuse, handle]

/-- The list of the policies is the cached one, or the request fails. -/
lemma handleFaults_listKivePolicies (w : World) (n : ℕ) :
    handleFaults std podFields node kernelID faults (.listKivePolicies .cached) (w, n) =
      (match faults n with
        | none => .ok (w.kernels kernelID).cachedKivePolicies
        | some f => .error f.err, (w, n + 1)) := by
  rw [handleFaults]
  cases faults n with
  | none => rfl
  | some f => simp [handleFault, Call.refuse, handle]

/-- A run keeps a key of the map, unless both its lists are answered and the first listed KiveData
that needs a patch is being deleted and has the key. -/
lemma faultyRun_keeps {w : World} {mapKey : BpfMapKey}
    (hw : mapKey ∈ (w.kernels kernelID).tracedInodes) :
    mapKey ∈ ((faultyRun std podFields node kernelID faults w).kernels kernelID).tracedInodes ↔
      (faults 1 = none → faults 2 = none →
        ∀ x ∈ firstDue (listKiveData (kiveDataLabels kernelID) (w.kernels kernelID).cachedKiveData),
          Deleting x → x.mapKey ≠ mapKey) := by
  have hloaded : (w.kernels kernelID).loaded = true := by
    by_contra hno
    rw [(w.kernels kernelID).eq_empty (by simpa using hno)] at hw
    exact absurd hw (Finset.notMem_empty _)
  have hensure : Prog.runE (handleFaults std podFields node kernelID faults) ensureLoaded (w, 0) =
      (.ok (), (w, 1)) := by
    rw [ensureLoaded, Prog.runE_bind, Prog.runE_lift, Ebpf.loaded, Prog.run_perform]
    have hanswer := handleFault_of_refuse std podFields node kernelID
      (show ∀ err, Call.refuse err .ebpfLoaded = none from fun _ => rfl) (faults 0) w
    simp only [handleFaults, hanswer, handle, hloaded]
    rfl
  rw [faultyRun, reconcile, Pass.run_toProg, Prog.runE_bind, hensure, Prog.continueE_ok,
    Prog.runE_bind, Prog.runE_lift, Client.listKiveData, Prog.run_perform, Prog.continueE_ok]
  rw [handleFaults_listKiveData]
  cases hdata : faults 1 with
  | some f => exact iff_of_true hw fun h => absurd h (by simp)
  | none =>
    dsimp only
    rw [Prog.runE_bind, Prog.runE_lift, Client.listKivePolicies, Prog.run_perform,
      Prog.continueE_ok, handleFaults_listKivePolicies]
    cases hpolicies : faults 2 with
    | some f => exact iff_of_true hw fun _ h => absurd h (by simp)
    | none =>
      have hloop := dataLoop_keeps std
        (keepsKey_handleFaults std podFields node kernelID faults mapKey)
        (w.kernels kernelID).cachedKivePolicies
        (listKiveData (kiveDataLabels kernelID) (w.kernels kernelID).cachedKiveData)
        (w := (w, 3)) hw
      simp only [forall_const]
      rw [← hloop, Prog.runE_bind]
      cases Prog.runE (handleFaults std podFields node kernelID faults) (dataLoop std _ _) (w, 3)
        with
      | mk r s => cases r <;> rfl

/-- Which keys a run keeps: it keeps those of all KiveData that are to stay if and only if, when
both its lists are answered, the first listed KiveData that needs a patch is not being deleted or
shares its key with none of them. -/
theorem keysKept_iff (w : World) :
    (∀ d, Wanted std kernelID w d → d.mapKey ∈ (w.kernels kernelID).tracedInodes →
      d.mapKey ∈
        ((faultyRun std podFields node kernelID faults w).kernels kernelID).tracedInodes) ↔
    (faults 1 = none → faults 2 = none →
      ∀ x ∈ firstDue (listKiveData (kiveDataLabels kernelID) (w.kernels kernelID).cachedKiveData),
        Deleting x → ∀ d, Wanted std kernelID w d →
          d.mapKey ∈ (w.kernels kernelID).tracedInodes → x.mapKey ≠ d.mapKey) := by
  constructor
  · intro h h₁ h₂ x hx hdel d hd hkey
    exact (faultyRun_keeps std podFields node kernelID faults hkey).mp (h d hd hkey) h₁ h₂ x hx hdel
  · intro h d hd hkey
    exact (faultyRun_keeps std podFields node kernelID faults hkey).mpr
      fun h₁ h₂ x hx hdel => h h₁ h₂ x hx hdel d hd hkey

end Run

/-! ## Two pods with one volume -/

namespace SharedKeys

def policy : KivePolicy where
  objectMeta :=
    { name := "policy", namespace_ := operatorNamespace, finalizers := [kivePolicyFinalizerName] }
  spec := { alertVersion := "v1", traps := [{ path := "/data", matchAny := [{}] }] }

/-- A pod with one container. -/
def pod (name id : String) : Pod where
  name := name
  namespace_ := "default"
  nodeName := "node"
  podIP := "10.0.0.1"
  phase := .running
  containerStatuses := [⟨"main", "containerd://" ++ id, true⟩]

/-- A node with the two containers `aa` and `bb`, which both have the file `/data` of the volume
that they mount. -/
def host : Host where
  connected := true
  connectAnswer := .ok ()
  containers := .ok ["aa", "bb"]
  task id := .ok (if id = "aa" then 42 else 43)
  fs :=
    { FileSystem.empty with
      walk := fun path =>
        if path = "/host/proc/42/root//data" ∨ path = "/host/proc/43/root//data" then some 0
        else none
      entry := fun e => if e = 0 then some ⟨2049, 7⟩ else none
      free_unused := FileSystem.unused_of_no_free _ }

/-- The policy and the two pods, before anything has run. -/
def start : World where
  cluster :=
    { kivePolicies := .ofList [policy]
      kiveData := .empty
      pods := [pod "web" "aa", pod "db" "bb"] }
  hosts _ := host
  kernels _ := { loaded := true, eq_empty := TracedInodes.eq_empty_of_loaded }
  clock := 0

def std : Std := .ofDigests
  [("\x7b\"path\":\"/data\",\"matchAny\":[\x7b\x7d]\x7dv1",
    "e3fd1c40656bb990ddc981e2560887e6171d4db8ef214177d02338736ed5121d")]

/-- One run of the policy reconciler. -/
def policyRun (w : World) : World :=
  ((KivePolicyReconciler.reconcile std "k1").run (handle std .standard "node" "k1") w).2

/-- Both files are found and their KiveData finalized. -/
def traced : World :=
  (dataRun std .standard "node" "k1")^[3] (policyRun start)

/-- The pod `web` goes away, and the loader marks its KiveData for deletion. -/
def reached : World :=
  (dataRun std .standard "node" "k1"
    { traced with cluster := { traced.cluster with pods := [pod "db" "bb"] } }).refreshCaches "k1"

end SharedKeys

open SharedKeys in
/-- The pod `web` has gone.  The run that finalizes its KiveData takes the key of the volume's file
out of the map, while the KiveData of the pod `db` is still to stay. -/
theorem keysKept_counterexample :
    ∃ d ∈ reached.cluster.kiveData.items, Wanted std "k1" reached d ∧
      d.mapKey ∈ (reached.kernels "k1").tracedInodes ∧
      d.mapKey ∉ ((faultyRun std .standard "node" "k1" (fun _ => none) reached).kernels
        "k1").tracedInodes := by
  decide +kernel

end Kive
