import KiveOperator.Controller.PolicyCalls

/-!
# The records that a policy pass leaves

A policy pass applies one KiveData for each trap and container whose file it finds.  Its name is
made of the file and the container but not of the trap, so that what is stored in the end under
a name is what was applied last.  `trapRecords_iff` says for which traps a record is left.
-/

namespace Kive

open Interaction

/-! ## Records -/

/-- The annotations that say what a KiveData is a record of. -/
def recordKeys : List String :=
  ["kive-policy-name", "path", "callback", "pod-name", "namespace", "container-id",
    "container-name"]

/-- What a KiveData is a record of: the trap identifier and the values of these annotations. -/
def recordOf (d : KiveData) : String × List String :=
  (d.objectMeta.labels.get trapIDLabel, recordKeys.map d.objectMeta.annotations.get)

/-- A KiveData bears the identifier of the trap, and names its policy, its path and callback and
the container. -/
structure IsRecordFor (std : Std) (x : Site) (d : KiveData) : Prop where
  trapID : d.objectMeta.labels.get trapIDLabel = trapID std x.trap x.policy.spec.alertVersion
  policy : d.objectMeta.annotations.get "kive-policy-name" = x.policy.objectMeta.name
  path : d.objectMeta.annotations.get "path" = x.trap.path
  callback : d.objectMeta.annotations.get "callback" = x.trap.callback
  podName : d.objectMeta.annotations.get "pod-name" = x.pod.name
  podNamespace : d.objectMeta.annotations.get "namespace" = x.pod.namespace_
  containerID : d.objectMeta.annotations.get "container-id" = x.container.containerID
  containerName : d.objectMeta.annotations.get "container-name" = x.container.name

/-- The record for a site. -/
def siteRecord (std : Std) (x : Site) : String × List String :=
  (trapID std x.trap x.policy.spec.alertVersion,
    [x.policy.objectMeta.name, x.trap.path, x.trap.callback, x.pod.name, x.pod.namespace_,
      x.container.containerID, x.container.name])

/-- A KiveData is a record for a site exactly if it says what that site says. -/
lemma isRecordFor_iff {std : Std} {x : Site} {d : KiveData} :
    IsRecordFor std x d ↔ recordOf d = siteRecord std x := by
  simp only [recordOf, siteRecord, recordKeys, List.map_cons, List.map_nil, Prod.mk.injEq,
    List.cons.injEq, and_true]
  constructor
  · rintro ⟨h1, h2, h3, h4, h5, h6, h7, h8⟩
    exact ⟨h1, h2, h3, h4, h5, h6, h7, h8⟩
  · rintro ⟨h1, h2, h3, h4, h5, h6, h7, h8⟩
    exact ⟨h1, h2, h3, h4, h5, h6, h7, h8⟩

instance (std : Std) (x : Site) (d : KiveData) : Decidable (IsRecordFor std x d) :=
  decidable_of_iff _ isRecordFor_iff.symm

/-- The KiveData that is applied for a file that was found is a record for its site. -/
lemma recordOf_kiveDataFor {std : Std} {kernelID : String} {x : Site × ContainerData} {h : Host}
    (hx : h.Finds x.1.container x.1.trap x.2) :
    recordOf (kiveDataFor std kernelID x) = siteRecord std x.1 := by
  simp [recordOf, siteRecord, recordKeys, kiveDataFor, KivePolicyReconciler.newKiveData,
    StrMap.ofEntries, StrMap.get, Finmap.lookup_insert_of_ne, hx.id, hx.name, trapIDLabel,
    kernelIDLabel]

/-! ## The store after a pass -/

/-- The record that is stored under a name. -/
def records (s : Store KiveData) (k : String × String) : Option (String × List String) :=
  (s.find? k).map recordOf

/-- What is recorded under a name is what a stored KiveData says. -/
lemma records_eq_some_iff {s : Store KiveData} {k : String × String}
    {r : String × List String} :
    records s k = some r ↔ ∃ d ∈ s.items, keyOf d = k ∧ recordOf d = r := by
  rw [records, Option.map_eq_some_iff]
  constructor
  · rintro ⟨d, hd, hr⟩
    obtain ⟨hmem, hk⟩ := Store.find?_eq_some_iff.mp hd
    exact ⟨d, hmem, hk, hr⟩
  · rintro ⟨d, hmem, hk, hr⟩
    exact ⟨d, Store.find?_eq_some_iff.mpr ⟨hmem, hk⟩, hr⟩

/-- A KiveData that sets all the keys of a record. -/
def SetsRecord (d : KiveData) : Prop :=
  trapIDLabel ∈ d.objectMeta.labels ∧ ∀ k ∈ recordKeys, k ∈ d.objectMeta.annotations

/-- What a pass applies says all that a record says. -/
lemma setsRecord_kiveDataFor (std : Std) (kernelID : String) (x : Site × ContainerData) :
    SetsRecord (kiveDataFor std kernelID x) := by
  simp [SetsRecord, recordKeys, kiveDataFor, KivePolicyReconciler.newKiveData, StrMap.ofEntries,
    Finmap.mem_insert]

/-- Applying a KiveData stores its record under its name, and no other. -/
lemma records_applyKiveData {s : Store KiveData} {config : KiveData} (hc : SetsRecord config)
    (hok : (applyKiveData s config).1 = .ok ()) (k : String × String) :
    records (applyKiveData s config).2 k =
      if k = keyOf config then some (recordOf config) else records s k := by
  have hrecord : ∀ cur, recordOf (applyTo config cur) = recordOf config := by
    intro cur
    have hann : ∀ key ∈ recordKeys, (applyTo config cur).objectMeta.annotations.get key =
        config.objectMeta.annotations.get key := fun key hkey =>
      congrArg (Option.getD · "") (Finmap.lookup_union_left (hc.2 key hkey))
    have hlabel : (applyTo config cur).objectMeta.labels.get trapIDLabel =
        config.objectMeta.labels.get trapIDLabel :=
      congrArg (Option.getD · "") (Finmap.lookup_union_left hc.1)
    exact Prod.ext hlabel (List.map_congr_left hann)
  have happlied : recordOf (appliedKiveData s config) = recordOf config := by
    unfold appliedKiveData
    cases s.find? (keyOf config) with
    | some x => exact hrecord x
    | none => rfl
  rw [records, find?_applyKiveData hok]
  split_ifs with hk
  · rw [Option.map_some, happlied]
  · rfl

/-- Setting another annotation changes no record. -/
lemma records_patch_annotate (s : Store KiveData) (d : KiveData) (key value : String)
    (hkey : key ∉ recordKeys) (k : String × String) :
    records (s.patch (keyOf (annotate d key value))
      (Store.mergeFrom d (annotate d key value))).2 k = records s k := by
  have hrecord : ∀ x : KiveData,
      recordOf ((Store.mergeFrom d (annotate d key value)).toFun x) = recordOf x := by
    intro x
    refine Prod.ext rfl (List.map_congr_left fun key' hkey' => ?_)
    have hne : key' ≠ key := fun h => hkey (h ▸ hkey')
    exact congrArg (Option.getD · "") (lookup_mergeFrom_annotate d x value hne)
  rw [records, records, find?_patch_annotate]
  split_ifs with hk
  · cases s.find? k with
    | none => rfl
    | some x => exact congrArg some (hrecord x)
  · rfl

/-- The last of the applied KiveData with a given name. -/
def lastApplied (applied : List KiveData) (k : String × String) : Option KiveData :=
  applied.reverse.find? fun d => keyOf d = k

/-- Whether an event is an apply that fails. -/
def isFailedApply : Sigma Call.Answer → Bool
  | ⟨.applyKiveData _ _, .error _⟩ => true
  | _ => false

/-- Every apply of the run succeeds. -/
def AppliesSucceed (events : List (Sigma Call.Answer)) : Prop :=
  ∀ e ∈ events, isFailedApply e = false

instance (events : List (Sigma Call.Answer)) : Decidable (AppliesSucceed events) :=
  inferInstanceAs (Decidable (∀ e ∈ events, _))

/-- No apply fails. -/
lemma AppliesSucceed.answer {events : List (Sigma Call.Answer)} (h : AppliesSucceed events)
    {site : Site} {d : KiveData} {r : Except String Unit}
    (hr : (⟨.applyKiveData site d, r⟩ : Sigma Call.Answer) ∈ events) : r = .ok () := by
  have hfailed := h _ hr
  cases r with
  | error err => exact absurd hfailed (by simp [isFailedApply])
  | ok u => rfl

section Run

variable {std : Std} {podFields : PodFields} {node kernelID : String} {w : World}

/-- After a pass, each name has the record that was applied last, or its old one. -/
lemma records_run_reconcile
    (hok : AppliesSucceed ((KivePolicyReconciler.reconcile std kernelID).events
      (handle std podFields node kernelID) w)) (k : String × String) :
    records ((KivePolicyReconciler.reconcile std kernelID).run
      (handle std podFields node kernelID) w).2.cluster.kiveData k =
    match lastApplied (appliedBy ((KivePolicyReconciler.reconcile std kernelID).events
      (handle std podFields node kernelID) w)) k with
    | some d => some (recordOf d)
    | none => records w.cluster.kiveData k := by
  set s := w.cluster.kiveData
  have hrun := Prog.Only.run_induction (handle std podFields node kernelID)
    (Φ := fun es w' => AppliesSucceed es → records w'.cluster.kiveData k =
      match lastApplied (appliedBy es) k with
      | some d => some (recordOf d)
      | none => records s k) ?_ (only_policyReconcile std kernelID) [] w (fun _ => rfl)
  · exact hrun hok
  · intro es op w' hop ih hok
    have ih := ih fun e he => hok e (List.mem_append_left _ he)
    by_cases hwrites : op.WritesKiveData
    · cases op
      case applyKiveData site d =>
        obtain ⟨-, cd, rfl⟩ := hop
        have hans := hok.answer (List.mem_append_right es List.mem_cons_self)
        have happ : appliedBy (es ++ [⟨.applyKiveData site (kiveDataFor std kernelID (site, cd)),
            (handle std podFields node kernelID
              (.applyKiveData site (kiveDataFor std kernelID (site, cd))) w').1⟩]) =
            appliedBy es ++ [kiveDataFor std kernelID (site, cd)] := by
          rw [appliedBy_append]; rfl
        rw [happ, lastApplied, List.reverse_append, List.reverse_singleton, List.singleton_append,
          List.find?_cons]
        refine (records_applyKiveData (setsRecord_kiveDataFor std kernelID (site, cd)) hans
          k).trans ?_
        rcases eq_or_ne k (keyOf (kiveDataFor std kernelID (site, cd))) with rfl | hne
        · simp
        · rw [if_neg hne, ih]
          simp [hne.symm, lastApplied]
      case patchKiveData orig modified =>
        obtain ⟨time, rfl⟩ := hop
        have hpatch := records_patch_annotate w'.cluster.kiveData orig _ time
          (show "force-reconcile" ∉ recordKeys by decide) k
        rw [appliedBy_append]
        exact hpatch.trans (ih.trans (by simp [appliedBy]))
      case deleteKiveData d => exact absurd hop id
      all_goals exact absurd hwrites id
    · rw [handle_kiveData std podFields node kernelID hwrites, ih, appliedBy_append]
      have hnone : appliedBy [(⟨op, (handle std podFields node kernelID op w').1⟩ :
          Sigma Call.Answer)] = [] := by
        cases op
        case applyKiveData => exact absurd trivial hwrites
        all_goals rfl
      rw [hnone, List.append_nil]

/-- All the files that a run has found are on the node in the end. -/
lemma finds_of_mem_foundBy {α : Type} (p : CallProg α) {x : Site × ContainerData}
    (hx : x ∈ foundBy (p.events (handle std podFields node kernelID) w)) :
    ((p.run (handle std podFields node kernelID) w).2.hosts node).Finds
      x.1.container x.1.trap x.2 := by
  have hrun := Prog.Only.run_induction (handle std podFields node kernelID)
    (P := fun _ => True)
    (Φ := fun es w' => ∀ x ∈ foundBy es, (w'.hosts node).Finds x.1.container x.1.trap x.2)
    ?_ (Prog.only_of_forall (fun _ => trivial) p) [] w (by simp [foundBy])
  · exact hrun x hx
  · intro es op w' _ ih x hx
    rw [foundBy_append] at hx
    rcases List.mem_append.mp hx with hx | hx
    · exact (ih x hx).mono (handle_grows_host std podFields node kernelID op w')
    · obtain ⟨e, he, hex⟩ := List.mem_filterMap.mp hx
      obtain rfl := List.mem_singleton.mp he
      cases op with
      | getContainerData site =>
        simp only [handle, World.setHost_hosts_self] at hex ⊢
        cases hr : ((getContainerData site.container site.trap).run Host.handle
            (w'.hosts node)).1 with
        | error err =>
          rw [hr] at hex
          exact absurd hex (by simp)
        | ok cd =>
          rw [hr] at hex
          dsimp only at hex
          split_ifs at hex with hfound
          obtain rfl := Option.some.inj hex
          rw [Bool.and_eq_true] at hfound
          exact finds_of_run_getContainerData hfound.2 hr
      | _ => exact absurd hex (by simp)

end Run

/-! ## Which traps keep their records -/

/-- The name of the KiveData of a file that was found. -/
def objectName (x : Site × ContainerData) : String :=
  newKiveDataName x.2.ino x.2.devID x.1.pod x.1.container

/-- The name is made of the file and the container. -/
lemma keyOf_kiveDataFor (std : Std) (kernelID : String) (x : Site × ContainerData) :
    keyOf (kiveDataFor std kernelID x) = (operatorNamespace, objectName x) := rfl

/-- The last file found whose KiveData has the given name. -/
def lastNamed (found : List (Site × ContainerData)) (name : String) :
    Option (Site × ContainerData) :=
  found.reverse.find? fun x => objectName x = name

/-- The last finding of a name is one of that name. -/
lemma of_lastNamed_eq_some {found : List (Site × ContainerData)} {name : String}
    {x : Site × ContainerData} (h : lastNamed found name = some x) :
    x ∈ found ∧ objectName x = name :=
  ⟨List.mem_reverse.mp (List.mem_of_find?_eq_some h), by simpa using List.find?_some h⟩

/-- What was applied last under a name. -/
lemma lastApplied_map {std : Std} {kernelID : String} {found : List (Site × ContainerData)}
    {k : String × String} {d : KiveData} :
    lastApplied (found.map (kiveDataFor std kernelID)) k = some d ↔
      ∃ x, lastNamed found k.2 = some x ∧ k.1 = operatorNamespace ∧
        kiveDataFor std kernelID x = d := by
  rw [lastApplied, ← List.map_reverse, List.find?_map, Option.map_eq_some_iff, lastNamed]
  by_cases hk : k.1 = operatorNamespace
  · have hp : ((fun d => decide (keyOf d = k)) ∘ kiveDataFor std kernelID) =
        fun x => decide (objectName x = k.2) := by
      funext x
      refine decide_eq_decide.mpr ?_
      rw [keyOf_kiveDataFor, Prod.ext_iff]
      exact and_iff_right hk.symm
    rw [hp]
    constructor
    · rintro ⟨x, hx, hd⟩
      exact ⟨x, hx, hk, hd⟩
    · rintro ⟨x, hx, -, hd⟩
      exact ⟨x, hx, hd⟩
  · constructor
    · rintro ⟨x, hx, -⟩
      have hkey : keyOf (kiveDataFor std kernelID x) = k := by simpa using List.find?_some hx
      exact absurd (congrArg Prod.fst hkey).symm hk
    · rintro ⟨x, -, hk', -⟩
      exact absurd hk' hk

/-- Of the files found whose KiveData have the name of this one's, the last belongs to a trap with
the same record; or the cluster had a record of this trap and container all along, under a name
that the pass does not touch. -/
def KeepsRecord (std : Std) (s : Store KiveData) (found : List (Site × ContainerData))
    (x : Site × ContainerData) : Prop :=
  (∃ y, lastNamed found (objectName x) = some y ∧ siteRecord std y.1 = siteRecord std x.1) ∨
  ∃ d ∈ s.items, (∀ y ∈ found, keyOf d ≠ (operatorNamespace, objectName y)) ∧
    IsRecordFor std x.1 d

/-- Sites with one record whose files were found have one name. -/
lemma objectName_eq_of_siteRecord {std : Std} {h : Host} {x y : Site × ContainerData}
    (hx : h.Finds x.1.container x.1.trap x.2) (hy : h.Finds y.1.container y.1.trap y.2)
    (hrec : siteRecord std y.1 = siteRecord std x.1) : objectName y = objectName x := by
  simp only [siteRecord, Prod.mk.injEq, List.cons.injEq, and_true] at hrec
  obtain ⟨-, -, hpath, -, hpod, -, hid, -⟩ := hrec
  obtain ⟨hino, hdev⟩ := hy.locates.unique hx.locates hid hpath
  simp only [objectName, newKiveDataName, hino, hdev, hpod, hid]

/-- If the store has under each name what was applied last, or its old record, then it has a
record for a site exactly when the site keeps it. -/
lemma hasRecord_iff_keepsRecord {std : Std} {kernelID : String} {s s' : Store KiveData} {h : Host}
    {found : List (Site × ContainerData)}
    (hrecords : ∀ k, records s' k =
      match lastApplied (found.map (kiveDataFor std kernelID)) k with
      | some d => some (recordOf d)
      | none => records s k)
    (hfinds : ∀ x ∈ found, h.Finds x.1.container x.1.trap x.2) {x : Site × ContainerData}
    (hx : x ∈ found) :
    (∃ d ∈ s'.items, IsRecordFor std x.1 d) ↔ KeepsRecord std s found x := by
  constructor
  · rintro ⟨d, hd, hrec⟩
    have hk := records_eq_some_iff.mpr ⟨d, hd, rfl, isRecordFor_iff.mp hrec⟩
    rw [hrecords (keyOf d)] at hk
    cases hlast : lastApplied (found.map (kiveDataFor std kernelID)) (keyOf d) with
    | some config =>
      rw [hlast] at hk
      obtain ⟨y, hy, -, rfl⟩ := lastApplied_map.mp hlast
      obtain ⟨hyfound, hyname⟩ := of_lastNamed_eq_some hy
      have hsame : siteRecord std y.1 = siteRecord std x.1 :=
        (recordOf_kiveDataFor (hfinds y hyfound)).symm.trans (Option.some.inj hk)
      have hname := objectName_eq_of_siteRecord (hfinds x hx) (hfinds y hyfound) hsame
      exact Or.inl ⟨y, by rw [← hname, hyname]; exact hy, hsame⟩
    | none =>
      rw [hlast] at hk
      obtain ⟨d₀, hmem, hkey, hrec₀⟩ := records_eq_some_iff.mp hk
      refine Or.inr ⟨d₀, hmem, fun y hy heq => ?_, isRecordFor_iff.mpr hrec₀⟩
      have hnone := List.find?_eq_none.mp hlast (kiveDataFor std kernelID y)
        (List.mem_reverse.mpr (List.mem_map_of_mem hy))
      exact hnone (decide_eq_true
        ((keyOf_kiveDataFor std kernelID y).trans (heq.symm.trans hkey)))
  · rintro (⟨y, hy, hsame⟩ | ⟨d, hd, hother, hrec⟩)
    · have hk := hrecords (operatorNamespace, objectName x)
      have hlast : lastApplied (found.map (kiveDataFor std kernelID))
          (operatorNamespace, objectName x) = some (kiveDataFor std kernelID y) :=
        lastApplied_map.mpr ⟨y, hy, rfl, rfl⟩
      rw [hlast] at hk
      obtain ⟨d, hmem, -, hdrec⟩ := records_eq_some_iff.mp hk
      refine ⟨d, hmem, isRecordFor_iff.mpr (hdrec.trans (Eq.trans ?_ hsame))⟩
      exact recordOf_kiveDataFor (hfinds y (of_lastNamed_eq_some hy).1)
    · have hnone : lastApplied (found.map (kiveDataFor std kernelID)) (keyOf d) = none := by
        refine List.find?_eq_none.mpr fun config hconfig heq => ?_
        obtain ⟨y, hy, rfl⟩ := List.mem_map.mp (List.mem_reverse.mp hconfig)
        exact hother y hy ((of_decide_eq_true heq).symm.trans (keyOf_kiveDataFor std kernelID y))
      have hk := hrecords (keyOf d)
      rw [hnone] at hk
      obtain ⟨d', hmem, -, hrec'⟩ := records_eq_some_iff.mp
        (hk.trans (records_eq_some_iff.mpr ⟨d, hd, rfl, isRecordFor_iff.mp hrec⟩))
      exact ⟨d', hmem, isRecordFor_iff.mpr hrec'⟩

/-- After a policy pass whose apply requests all succeed, every trap has a record for each
container in which its file was found, if and only if no later trap with another record has taken
its name. -/
theorem trapRecords_iff (std : Std) (podFields : PodFields) (node kernelID : String) (w : World)
    (hok : AppliesSucceed ((KivePolicyReconciler.reconcile std kernelID).events
      (handle std podFields node kernelID) w)) :
    (∀ x ∈ foundBy ((KivePolicyReconciler.reconcile std kernelID).events
        (handle std podFields node kernelID) w),
      ∃ d ∈ ((KivePolicyReconciler.reconcile std kernelID).run
        (handle std podFields node kernelID) w).2.cluster.kiveData.items,
      IsRecordFor std x.1 d) ↔
    ∀ x ∈ foundBy ((KivePolicyReconciler.reconcile std kernelID).events
        (handle std podFields node kernelID) w),
      KeepsRecord std w.cluster.kiveData
        (foundBy ((KivePolicyReconciler.reconcile std kernelID).events
          (handle std podFields node kernelID) w)) x := by
  have hrecords := records_run_reconcile hok
  rw [appliedBy_eq_map_foundBy] at hrecords
  exact forall₂_congr fun x hx => hasRecord_iff_keepsRecord hrecords
    (fun y hy => finds_of_mem_foundBy (KivePolicyReconciler.reconcile std kernelID) hy) hx

/-! ## Two traps for one file -/

namespace TrapRecords

/-- A trap for a path. -/
def trap (path callback : String) : KiveTrap :=
  { path := path, callback := callback, matchAny := [{}] }

def policy (traps : List KiveTrap) : KivePolicy where
  objectMeta :=
    { name := "policy", namespace_ := operatorNamespace, finalizers := [kivePolicyFinalizerName] }
  spec := { alertVersion := "v1", traps := traps }

def pod : Pod where
  name := "web"
  namespace_ := "default"
  nodeName := "node"
  podIP := "10.0.0.1"
  phase := .running
  containerStatuses := [⟨"main", "containerd://aa", true⟩]

/-- No inode of the node below is free. -/
lemma host_unused : ∀ dev, ∀ ino ∈ FileSystem.empty.free dev, ∀ e : ℕ,
    (if e = 0 then some (⟨2049, 7⟩ : FileId) else none) ≠ some ⟨dev, ino⟩ :=
  FileSystem.unused_of_no_free _

/-- A node with one container, in which `/link` is a link to `/data`. -/
def host : Host where
  connected := true
  connectAnswer := .ok ()
  containers := .ok ["aa"]
  task _ := .ok 42
  fs :=
    { FileSystem.empty with
      walk := fun path =>
        if path = "/host/proc/42/root//data" ∨ path = "/host/proc/42/root//link" then some 0
        else none
      entry := fun e => if e = 0 then some ⟨2049, 7⟩ else none
      free_unused := host_unused }

/-- A cluster with one policy that has the given traps, and no KiveData yet. -/
def world (traps : List KiveTrap) : World where
  cluster :=
    { kivePolicies := .ofList [policy traps]
      kiveData := .empty
      pods := [pod] }
  hosts _ := host
  kernels _ := {}
  clock := 0

def std : Std := .ofDigests
  [("\x7b\"path\":\"/data\",\"callback\":\"http://one\",\"matchAny\":[\x7b\x7d]\x7dv1",
    "960cc3ef0953bb5a1136fed5340fce0c56830243cae10bfb4332fb234ac22b01"),
   ("\x7b\"path\":\"/link\",\"callback\":\"http://two\",\"matchAny\":[\x7b\x7d]\x7dv1",
    "13eec447b8e1e8b56593e406cc1bdf8b9bcc8d4f2d626daa882ff44ddf31c850")]

/-- The traps of the example. -/
def traps : List KiveTrap := [trap "/data" "http://one", trap "/link" "http://two"]

/-- The node with a file of its own at `/link`. -/
def twoFiles : Host :=
  { host with
    fs :=
      { FileSystem.empty with
        walk := fun path =>
          if path = "/host/proc/42/root//data" then some 0
          else if path = "/host/proc/42/root//link" then some 1
          else none
        entry := fun e =>
          if e = 0 then some ⟨2049, 7⟩ else if e = 1 then some ⟨2049, 8⟩ else none
        free_unused := FileSystem.unused_of_no_free _ } }

/-- The cluster with these traps, which lead to two files. -/
def separate : World := { world traps with hosts := fun _ => twoFiles }

/-- The calls of a pass over the cluster. -/
def passEvents (traps : List KiveTrap) : List (Sigma Call.Answer) :=
  (KivePolicyReconciler.reconcile std "k1").events (handle std .standard "node" "k1") (world traps)

/-- The KiveData after the pass. -/
def stored (traps : List KiveTrap) : List KiveData :=
  ((KivePolicyReconciler.reconcile std "k1").run (handle std .standard "node" "k1")
    (world traps)).2.cluster.kiveData.items

end TrapRecords

open TrapRecords in
/-- A pass over a policy with two traps that lead to two files: both have a record, exactly if
neither takes the name of the other. -/
theorem trapRecords_two_files :
    let reconcile := KivePolicyReconciler.reconcile std "k1"
    let events := reconcile.events (handle std .standard "node" "k1") separate
    let after := (reconcile.run (handle std .standard "node" "k1")
      separate).2.cluster.kiveData.items
    ((∀ x ∈ foundBy events, ∃ d ∈ after, IsRecordFor std x.1 d) ↔
      ∀ x ∈ foundBy events, KeepsRecord std separate.cluster.kiveData (foundBy events) x) ∧
    ((foundBy events).map objectName).Nodup ∧ (foundBy events).length = 2 :=
  ⟨trapRecords_iff std .standard "node" "k1" separate (by decide), by decide, by decide⟩

open TrapRecords in
/-- Two traps of one policy lead to one file of one container: all requests of the pass succeed,
both find the file, and the first has no record. -/
theorem trapRecords_counterexample :
    AppliesSucceed (passEvents traps) ∧ (foundBy (passEvents traps)).length = 2 ∧
    ¬ ∀ x ∈ foundBy (passEvents traps), ∃ d ∈ stored traps, IsRecordFor std x.1 d := by
  refine ⟨by decide, by decide, by decide⟩

end Kive
