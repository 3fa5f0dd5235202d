import KiveOperator.Controller.Writes
import KiveOperator.Correctness.TrapRecords
import KiveOperator.Ebpf.Alert

/-!
# What an alert says about its trap

The values of an alert travel from the policy pass that found the file through the annotations,
labels and the spec of the KiveData.  The address of the pod is written under `pod-ip` and read
under `ip`, so that alerts never carry it.  `alertContents_iff` says when an alert carries what
the pass wrote.
-/

namespace Kive

open Interaction

/-! ## What an alert is to carry -/

/-- The alert version that a policy asks for, or the default. -/
def effectiveVersion (alertVersion : String) : String :=
  if alertVersion ∈ supportedKiveAlertVersions then alertVersion else "v1"

/-- The alert carries the values of the site where the file was found, and of the kernel that
found it. -/
structure AlertFor (kernelID : String) (x : Site) (alert : KiveAlert) : Prop where
  alertVersion : alert.alertVersion = effectiveVersion x.policy.spec.alertVersion
  policyName : alert.policyName = x.policy.objectMeta.name
  path : alert.metadata.path = x.trap.path
  callback : alert.metadata.callback = x.trap.callback
  customMetadata : alert.customMetadata = x.trap.metadata
  podName : alert.pod.name = x.pod.name
  podNamespace : alert.pod.namespace_ = x.pod.namespace_
  podIP : alert.pod.ip = x.pod.podIP
  containerID : alert.pod.container.id = x.container.containerID
  containerName : alert.pod.container.name = x.container.name
  nodeName : alert.node.name = x.pod.nodeName
  kernelID : alert.metadata.kernelID = kernelID

/-- The annotations whose values an alert carries. -/
def contentKeys : List String :=
  ["kive-policy-name", "path", "callback", "pod-name", "namespace", "container-id",
    "container-name", "node-name"]

/-- What alerts carry of a KiveData, but for the address of the pod. -/
def contents (d : KiveData) : List String × String × String × StrMap :=
  (contentKeys.map d.objectMeta.annotations.get, kiveAlertVersion d,
    d.objectMeta.labels.get kernelIDLabel, d.spec.metadata)

/-- What they are to carry of a site, but for the address of the pod. -/
def siteContents (kernelID : String) (x : Site) : List String × String × String × StrMap :=
  ([x.policy.objectMeta.name, x.trap.path, x.trap.callback, x.pod.name, x.pod.namespace_,
      x.container.containerID, x.container.name, x.pod.nodeName],
    effectiveVersion x.policy.spec.alertVersion, kernelID, x.trap.metadata)

/-- The version that a KiveData asks for is read as the one of a policy. -/
lemma kiveAlertVersion_eq (d : KiveData) :
    kiveAlertVersion d =
      effectiveVersion (d.objectMeta.annotations.get "kive-alert-version") := by
  unfold kiveAlertVersion effectiveVersion
  dsimp only
  split_ifs with hempty hsupported hsupported
  · exact absurd (hempty ▸ hsupported) (by decide)
  · rfl
  · rfl
  · rfl

/-- An alert carries the values of a site if the KiveData has them, and the address if it has
one under `ip`. -/
lemma alertFor_newKiveAlert_iff {kernelID : String} {x : Site} {now : String} {data : LogData}
    {d : KiveData} :
    AlertFor kernelID x (newKiveAlert now data d) ↔
      d.objectMeta.annotations.get "ip" = x.pod.podIP ∧ contents d = siteContents kernelID x := by
  simp only [contents, siteContents, contentKeys, List.map_cons, List.map_nil, Prod.mk.injEq,
    List.cons.injEq, and_true]
  constructor
  · rintro ⟨hversion, hpolicy, hpath, hcallback, hmetadata, hpod, hnamespace, hip, hid, hname,
      hnode, hkernel⟩
    exact ⟨hip, ⟨hpolicy, hpath, hcallback, hpod, hnamespace, hid, hname, hnode⟩, hversion,
      hkernel, hmetadata⟩
  · rintro ⟨hip, ⟨hpolicy, hpath, hcallback, hpod, hnamespace, hid, hname, hnode⟩, hversion,
      hkernel, hmetadata⟩
    exact ⟨hversion, hpolicy, hpath, hcallback, hmetadata, hpod, hnamespace, hip, hid, hname,
      hnode, hkernel⟩

/-- What a policy pass applies for a file that it has found has the values of the site. -/
lemma contents_kiveDataFor {std : Std} {kernelID : String} {x : Site × ContainerData} {h : Host}
    (hx : h.Finds x.1.container x.1.trap x.2) :
    contents (kiveDataFor std kernelID x) = siteContents kernelID x.1 := by
  rw [contents, kiveAlertVersion_eq]
  simp [contentKeys, siteContents, kiveDataFor, KivePolicyReconciler.newKiveData,
    StrMap.ofEntries, StrMap.get, Finmap.lookup_insert_of_ne, hx.id, hx.name, trapIDLabel,
    kernelIDLabel]

/-- What a KiveData bears it has the values of. -/
lemma Bears.contents_eq {d config : KiveData} (h : Bears d config) :
    contents d = contents config := by
  have hget : ∀ key ∈ alertKeys,
      d.objectMeta.annotations.get key = config.objectMeta.annotations.get key :=
    fun key hkey => congrArg (Option.getD · "") (h.annotations key hkey)
  have hkeys : contentKeys.map d.objectMeta.annotations.get =
      contentKeys.map config.objectMeta.annotations.get := by
    have hsub : contentKeys ⊆ alertKeys := by decide
    exact List.map_congr_left fun key hkey => hget key (hsub hkey)
  have hkernel : d.objectMeta.labels.get kernelIDLabel =
      config.objectMeta.labels.get kernelIDLabel := congrArg (Option.getD · "") h.kernelID
  rw [contents, contents, kiveAlertVersion_eq, kiveAlertVersion_eq, hkeys, hkernel, h.metadata,
    hget _ (by decide)]

/-- A policy pass finds files for the traps of policies that are not being deleted. -/
lemma siteOf_of_mem_foundBy {std : Std} {kernelID : String} {W : Type}
    {h : (op : Call) → W → op.Answer × W} {w : W} {x : Site × ContainerData}
    (hx : x ∈ foundBy ((KivePolicyReconciler.reconcile std kernelID).events h w)) :
    SiteOf (fun _ => True) x.1 := by
  obtain ⟨⟨op, answer⟩, he, hex⟩ := List.mem_filterMap.mp hx
  have hop := (only_policyReconcile std kernelID).of_mem_events he
  cases op
  case getContainerData site =>
    cases answer with
    | error err => exact absurd hex (by simp)
    | ok cd =>
      dsimp only at hex
      split_ifs at hex
      obtain rfl := Option.some.inj hex
      exact hop
  all_goals exact absurd hex (by simp)

/-! ## Alerts after any calls -/

/-- What was applied last after two stretches of calls. -/
lemma lastApply_append (k : String × String) (s : Store KiveData) (last : Option KiveData)
    (calls calls' : List Call) :
    lastApply k s last (calls ++ calls') =
      lastApply k (writeAll s calls) (lastApply k s last calls) calls' := by
  induction calls generalizing s last with
  | nil => rfl
  | cons op calls ih => exact ih _ _

/-- The KiveData of the cluster after the calls of reconcilers, the apply for a file found at a
site among them. -/
def storeAfter (before : List Call) (site : Site) (config : KiveData) (after : List Call) :
    Store KiveData :=
  writeAll .empty (before ++ .applyKiveData site config :: after)

/-- The KiveData that was applied last under the name of `config`, when it was applied between
the calls `before` and `after`. -/
def lastAfter (before : List Call) (site : Site) (config : KiveData) (after : List Call) :
    Option KiveData :=
  lastApply (keyOf config) (writeAll .empty (before ++ [.applyKiveData site config]))
    (some config) after

/-- A file is found by a policy pass, and in the course of any calls of any reconcilers a KiveData
is applied for it.  Whenever later a record has the inode number of that KiveData and of no other,
the alert carries the values of the site if and only if the pod has no address and the KiveData
applied last under the name has the same values. -/
theorem alertContents_iff (std : Std) (podFields : PodFields) (node kernelID : String) (w : World)
    {x : Site × ContainerData}
    (hx : x ∈ foundBy ((KivePolicyReconciler.reconcile std kernelID).events
      (handle std podFields node kernelID) w))
    {before after : List Call}
    (hcalls : ∀ op ∈ before ++ after, ∃ kernelID, ReconcilerCall std kernelID op)
    (hok : (applyKiveData (writeAll .empty before) (kiveDataFor std kernelID x)).1.toBool = true)
    {d : KiveData}
    (hd : d ∈ (storeAfter before x.1 (kiveDataFor std kernelID x) after).items)
    (hkey : keyOf d = keyOf (kiveDataFor std kernelID x))
    (hsole : ∀ d' ∈ (storeAfter before x.1 (kiveDataFor std kernelID x) after).items,
      d'.spec.inodeNo = d.spec.inodeNo → d' = d)
    {data : LogData} (hino : d.spec.inodeNo = data.ino) (now : String) :
    (∃ alert, readAlert (some (.ok data))
        (.ok (storeAfter before x.1 (kiveDataFor std kernelID x) after).items) now = .ok alert ∧
      AlertFor kernelID x.1 alert) ↔
    x.1.pod.podIP = "" ∧ ∀ config ∈ lastAfter before x.1 (kiveDataFor std kernelID x) after,
      contents config = contents (kiveDataFor std kernelID x) := by
  set config := kiveDataFor std kernelID x with hconfig
  have hfinds := finds_of_mem_foundBy (KivePolicyReconciler.reconcile std kernelID) hx
  have happly : ReconcilerCall std kernelID (.applyKiveData x.1 config) :=
    Or.inl ⟨siteOf_of_mem_foundBy hx, x.2, rfl⟩
  have hall : ∀ op ∈ before ++ .applyKiveData x.1 config :: after,
      ∃ kernelID, ReconcilerCall std kernelID op := by
    intro op hop
    rcases List.mem_append.mp hop with hop | hop
    · exact hcalls op (List.mem_append_left _ hop)
    · rcases List.mem_cons.mp hop with rfl | hop
      · exact ⟨kernelID, happly⟩
      · exact hcalls op (List.mem_append_right _ hop)
  -- what was applied last under the name is what the stored KiveData bears
  have hlast : lastApply (keyOf config) .empty none (before ++ .applyKiveData x.1 config :: after) =
      lastAfter before x.1 config after := by
    rw [lastApply_append, lastApply, noteApply, if_pos ⟨rfl, hok⟩, lastAfter, writeAll, writeAll,
      List.foldl_append]
    rfl
  have hstart : BearsLast (keyOf config) .empty none := by
    simp [BearsLast, Store.empty]
  obtain ⟨last, hlast', hbears⟩ := bears_lastApply hall hstart d hd hkey
  rw [hlast] at hlast'
  have halert : readAlert (some (.ok data)) (.ok (storeAfter before x.1 config after).items) now =
      .ok (newKiveAlert now data d) := by
    refine readAlert_eq_ok_iff.mpr ⟨d, ?_, rfl⟩
    cases hfind : findKiveData data (storeAfter before x.1 config after).items with
    | none => exact absurd hino (findKiveData_eq_none_iff.mp hfind d hd)
    | some d' =>
      obtain ⟨front, rest, hitems, hino', -⟩ := findKiveData_eq_some_iff.mp hfind
      exact congrArg some (hsole d' (by simp [hitems]) (hino'.trans hino.symm))
  have hip : d.objectMeta.annotations.get "ip" = "" := congrArg (Option.getD · "") hbears.noIP
  rw [halert, hlast']
  constructor
  · rintro ⟨alert, heq, hfor⟩
    obtain rfl := Except.ok.inj heq
    obtain ⟨hpod, hcontents⟩ := alertFor_newKiveAlert_iff.mp hfor
    refine ⟨hpod.symm.trans hip, fun c hc => ?_⟩
    obtain rfl := Option.some.inj hc
    rw [← hbears.contents_eq, hcontents, contents_kiveDataFor hfinds]
  · rintro ⟨hpod, hsame⟩
    refine ⟨_, rfl, alertFor_newKiveAlert_iff.mpr ⟨hip.trans hpod.symm, ?_⟩⟩
    rw [hbears.contents_eq, hsame last rfl, contents_kiveDataFor hfinds]

/-! ## A pod with an address -/

namespace AlertContents

open TrapRecords (trap policy std)

/-- A cluster with a policy for one file and a pod with the given address. -/
def world (podIP : String) : World :=
  { TrapRecords.world [trap "/data" "http://one"] with
    cluster :=
      { kivePolicies := .ofList [policy [trap "/data" "http://one"]]
        kiveData := .empty
        pods := [{ TrapRecords.pod with podIP := podIP }] } }

/-- The calls of a policy pass over the cluster. -/
def passEvents (podIP : String) : List (Sigma Call.Answer) :=
  (KivePolicyReconciler.reconcile std "k1").events (handle std .standard "node" "k1")
    (world podIP)

/-- The file that the pass finds. -/
def found (podIP : String) : Site × ContainerData :=
  (⟨policy [trap "/data" "http://one"], trap "/data" "http://one",
      { TrapRecords.pod with podIP := podIP }, ⟨"main", "containerd://aa", true⟩⟩,
    { ino := 7, devID := 8388609, id := "containerd://aa", name := "main", isFound := true })

/-- The KiveData that the pass applies, as it is stored. -/
def stored (podIP : String) : KiveData :=
  Store.created .empty (newlyApplied (kiveDataFor std "k1" (found podIP)))

/-- The record of an access to the file. -/
def record : LogData :=
  kprobeOutput ⟨0, 0, []⟩ 7 8388609 4

end AlertContents

open AlertContents TrapRecords in
/-- The alert for a pod without an address. -/
theorem alertContents_no_address :
    (∃ alert, readAlert (some (.ok record))
        (.ok (storeAfter [] (found "").1 (kiveDataFor std "k1" (found "")) []).items) "" =
          .ok alert ∧ AlertFor "k1" (found "").1 alert) ↔
    (found "").1.pod.podIP = "" ∧
      ∀ config ∈ lastAfter [] (found "").1 (kiveDataFor std "k1" (found "")) [],
        contents config = contents (kiveDataFor std "k1" (found "")) :=
  alertContents_iff std .standard "node" "k1" (AlertContents.world "") (by decide) (by simp)
    (by decide) (d := AlertContents.stored "") (by decide) rfl (by decide) rfl ""

open AlertContents TrapRecords in
/-- A policy pass finds a file in a pod with an address, and nothing else happens.  The alert for
an access to the file has no address. -/
theorem alertContents_counterexample :
    foundBy (AlertContents.passEvents "10.0.0.1") = [found "10.0.0.1"] ∧
    ¬ ∀ x ∈ foundBy (AlertContents.passEvents "10.0.0.1"),
      ∃ alert, readAlert (some (.ok record))
        (.ok ((KivePolicyReconciler.reconcile std "k1").run (handle std .standard "node" "k1")
          (AlertContents.world "10.0.0.1")).2.cluster.kiveData.items) "" = .ok alert ∧
        AlertFor "k1" x.1 alert := by
  have hfound : foundBy (AlertContents.passEvents "10.0.0.1") = [found "10.0.0.1"] := by decide
  refine ⟨hfound, fun h => ?_⟩
  rw [hfound] at h
  obtain ⟨alert, hread, hfor⟩ := h _ List.mem_cons_self
  obtain ⟨d, hfind, rfl⟩ := readAlert_eq_ok_iff.mp hread
  have hnone : ∀ d ∈ ((KivePolicyReconciler.reconcile std "k1").run
      (handle std .standard "node" "k1") (AlertContents.world "10.0.0.1")).2.cluster.kiveData.items,
      d.objectMeta.annotations.get "ip" = "" := by decide
  obtain ⟨front, rest, hitems, -, -⟩ := findKiveData_eq_some_iff.mp hfind
  have hip := hnone d (by simp [hitems])
  exact absurd (hip.symm.trans hfor.podIP) (by decide)

end Kive
