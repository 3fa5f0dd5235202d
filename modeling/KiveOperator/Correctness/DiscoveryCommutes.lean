import KiveOperator.Controller.Discovery
import KiveOperator.Controller.Unforced
import KiveOperator.Correctness.TrapRecords

/-!
# Policy passes of several nodes

Every node looks for the files of all policies in the containers that it knows, and applies KiveData
in the one namespace of the operator.  `discovery_commutes` says that passes of different nodes do
not get in each other's way: however their calls are interleaved, the KiveData are in the end the
ones that the passes leave when they are run one after the other, in any order.
-/

namespace Kive

open Interaction Object

/-! ## The KiveData under interleaved passes -/

section Interleaved

variable (std : Std) (podFields : PodFields) (kernelOf : String → String)

/-- The handler of each node. -/
def nodeHandle (node : String) : (op : Call) → World → op.Answer × World :=
  handle std podFields node (kernelOf node)

/-- One policy pass for each node, before its first call. -/
def policyThreads (node : String) : Thread Call.Answer Outcome :=
  .start (KivePolicyReconciler.reconcile std (kernelOf node))

/-- The passes with their calls in the order of a schedule. -/
def interleaved (sched : List String) (w : World) :
    (String → Thread Call.Answer Outcome) × World :=
  interleave (nodeHandle std podFields kernelOf) sched (policyThreads std kernelOf) w

/-- The passes of some nodes one after the other. -/
def inOrder (nodes : List String) (w : World) : World :=
  nodes.foldl (fun w node => ((KivePolicyReconciler.reconcile std (kernelOf node)).run
    (nodeHandle std podFields kernelOf node) w).2) w

/-- What a call of a pass makes of the KiveData under a key. -/
lemma unforcedAt_handle {op : Call} (hop : DiscoverCall op) (node : String) (a : op.Answer)
    (w : World) (k : String × String) :
    unforcedAt (nodeHandle std podFields kernelOf node op w).2.cluster.kiveData k =
      applyAllAt k (applyOf ⟨op, a⟩).toList (unforcedAt w.cluster.kiveData k) := by
  have hcall : ApplyingCall op := by cases op <;> first | exact hop | trivial
  rw [nodeHandle, kiveData_handle, unforcedAt_writeKiveData hcall a, ← filterMap_applyOf]
  cases h : applyOf ⟨op, a⟩ <;> simp [h]

/-- What the KiveData under a key is made of: if only one pass applies under it, of the applies of
that one. -/
def MadeOf (s : Store KiveData) (ts : String → Thread Call.Answer Outcome) (w : World) : Prop :=
  ∀ k node, (∀ other, other ≠ node → ∀ d ∈ appliedBy (ts other).log, keyOf d ≠ k) →
    unforcedAt w.cluster.kiveData k = applyAllAt k (appliedBy (ts node).log) (unforcedAt s k)

/-- A call of a pass keeps that. -/
lemma MadeOf.step {s : Store KiveData} {ts : String → Thread Call.Answer Outcome} {w : World}
    (hmade : MadeOf s ts w) {op : Call} (hop : DiscoverCall op) (node : String)
    (p : CallProg Outcome) (a : op.Answer) :
    MadeOf s (Function.update ts node ⟨(ts node).log ++ [⟨op, a⟩], p⟩)
      (nodeHandle std podFields kernelOf node op w).2 := by
  have hnew : appliedBy ((ts node).log ++ [⟨op, a⟩]) =
      appliedBy (ts node).log ++ (applyOf ⟨op, a⟩).toList := by
    rw [appliedBy_append, ← filterMap_applyOf [⟨op, a⟩]]
    cases h : applyOf ⟨op, a⟩ <;> simp [h]
  intro k node' hothers
  rw [unforcedAt_handle std podFields kernelOf hop node a w k]
  rcases eq_or_ne node' node with rfl | hne
  · rw [hmade k node' fun other hother => ?_, Function.update_self, hnew, applyAllAt_append]
    have hsame := hothers other hother
    rwa [Function.update_of_ne hother] at hsame
  · have hmine := hothers node hne.symm
    rw [Function.update_self, hnew] at hmine
    rw [applyAllAt_of_ne fun d hd => hmine d (List.mem_append_right _ hd),
      Function.update_of_ne hne]
    refine hmade k node' fun other hother => ?_
    rcases eq_or_ne other node with rfl | hne'
    · exact fun d hd => hmine d (List.mem_append_left _ hd)
    · have hsame := hothers other hother
      rwa [Function.update_of_ne hne'] at hsame

/-- The pass of a node that has no turn has not begun. -/
lemma interleaved_of_notMem {sched : List String} {node : String} (hnode : node ∉ sched)
    (ts : String → Thread Call.Answer Outcome) (w : World) :
    (interleave (nodeHandle std podFields kernelOf) sched ts w).1 node = ts node := by
  refine interleave_induction (nodeHandle std podFields kernelOf)
    (I := fun ts' _ => ts' node = ts node) (fun i hi ts' w op k _ hI => ?_) rfl
  have hne : node ≠ i := fun h => hnode (h ▸ hi)
  rw [Function.update_of_ne hne, hI]

/-- Passes one after the other are passes under a schedule. -/
lemma exists_schedule {nodes : List String} (hnodup : nodes.Nodup) (w : World)
    {ts : String → Thread Call.Answer Outcome}
    (hts : ∀ node ∈ nodes, ts node = policyThreads std kernelOf node) :
    ∃ sched, (∀ node ∈ sched, node ∈ nodes) ∧
      (interleave (nodeHandle std podFields kernelOf) sched ts w).2 =
        inOrder std podFields kernelOf nodes w ∧
      ∀ node ∈ nodes,
        ((interleave (nodeHandle std podFields kernelOf) sched ts w).1 node).Finished := by
  induction nodes generalizing ts w with
  | nil => exact ⟨[], by simp, rfl, by simp⟩
  | cons node nodes ih =>
    obtain ⟨hnot, hnodup⟩ := List.nodup_cons.mp hnodup
    obtain ⟨n, hn⟩ := interleave_replicate (nodeHandle std podFields kernelOf) node ts w
    rw [hts node List.mem_cons_self] at hn
    set ts' := Function.update ts node
      ((policyThreads std kernelOf node).finish (nodeHandle std podFields kernelOf node) w)
    set w' := ((policyThreads std kernelOf node).prog.run
      (nodeHandle std podFields kernelOf node) w).2
    have hts' : ∀ other ∈ nodes, ts' other = policyThreads std kernelOf other := by
      intro other hother
      have hne : other ≠ node := fun h => hnot (h ▸ hother)
      rw [← hts other (List.mem_cons_of_mem node hother)]
      exact Function.update_of_ne hne _ _
    obtain ⟨sched, hsched, hworld, hfinished⟩ := ih hnodup w' hts'
    refine ⟨List.replicate n node ++ sched, ?_, ?_, ?_⟩
    · intro other hother
      rcases List.mem_append.mp hother with hother | hother
      · exact List.mem_cons.mpr (Or.inl (List.eq_of_mem_replicate hother))
      · exact List.mem_cons_of_mem node (hsched other hother)
    · rw [interleave_append, hn]
      exact hworld
    · intro other hother
      rw [interleave_append, hn]
      rcases List.mem_cons.mp hother with rfl | hother
      · rw [interleaved_of_notMem std podFields kernelOf fun h => hnot (hsched other h)]
        exact ⟨_, congrArg Thread.prog (Function.update_self other _ ts)⟩
      · exact hfinished other hother

end Interleaved

/-! ## Any order -/

/-- What is compared: namespace and name, the labels, the annotations apart from the wake-up, and
the rest of the KiveData. -/
def described (d : KiveData) : (String × String) × StrMap × StrMap × KiveDataSpec :=
  (keyOf d, d.objectMeta.labels, d.objectMeta.annotations.erase forceReconcile, d.spec)

/-- The set of the KiveData of a store. -/
def describedIn (s : Store KiveData) :
    Set ((String × String) × StrMap × StrMap × KiveDataSpec) :=
  {x | ∃ d ∈ s.items, described d = x}

/-- What is described of a KiveData does not depend on the wake-up. -/
lemma described_unforced (d : KiveData) : described (unforced d) = described d := by
  have herase : (d.objectMeta.annotations.erase forceReconcile).erase forceReconcile =
      d.objectMeta.annotations.erase forceReconcile := by
    refine Finmap.ext_lookup fun key => ?_
    rcases eq_or_ne key forceReconcile with rfl | hne
    · rw [Finmap.lookup_erase, Finmap.lookup_erase]
    · rw [Finmap.lookup_erase_ne hne]
  exact congrArg (fun m => (keyOf d, d.objectMeta.labels, m, d.spec)) herase

/-- What is described in a store is what is stored under its keys. -/
lemma mem_describedIn_iff {s : Store KiveData}
    {x : (String × String) × StrMap × StrMap × KiveDataSpec} :
    x ∈ describedIn s ↔ ∃ k d, unforcedAt s k = some d ∧ described d = x := by
  constructor
  · rintro ⟨d, hd, rfl⟩
    refine ⟨keyOf d, unforced d, ?_, described_unforced d⟩
    rw [unforcedAt, Store.find?_eq_some_iff.mpr ⟨hd, rfl⟩, Option.map_some]
  · rintro ⟨k, d, hd, rfl⟩
    obtain ⟨d', hd', rfl⟩ := Option.map_eq_some_iff.mp hd
    exact ⟨d', (Store.find?_eq_some_iff.mp hd').1, (described_unforced d').symm⟩

/-- Stores with the same KiveData under each key. -/
lemma describedIn_eq {s s' : Store KiveData} (h : ∀ k, unforcedAt s k = unforcedAt s' k) :
    describedIn s = describedIn s' := by
  ext x
  rw [mem_describedIn_iff, mem_describedIn_iff]
  simp only [h]

/-- KiveData of different nodes have different names. -/
lemma keyOf_ne_of_ownedBy {std : Std} {h h' : Host} {kernelID kernelID' : String} {d d' : KiveData}
    (hd : OwnedBy std kernelID h d) (hd' : OwnedBy std kernelID' h' d')
    (hids : ∀ id, h.Knows id → NoHyphen id) (hids' : ∀ id, h'.Knows id → NoHyphen id)
    (hone : ∀ id, h.Knows id → ¬ h'.Knows id) : keyOf d ≠ keyOf d' := by
  obtain ⟨site, cd, hknows, rfl⟩ := hd
  obtain ⟨site', cd', hknows', rfl⟩ := hd'
  intro heq
  have hname : newKiveDataName cd.ino cd.devID site.pod site.container =
      newKiveDataName cd'.ino cd'.devID site'.pod site'.container := congrArg Prod.snd heq
  obtain ⟨-, -, -, hid⟩ := newKiveDataName_inj (hids _ hknows) (hids' _ hknows') hname
  exact hone _ hknows (hid ▸ hknows')

section Commute

variable (std : Std) (podFields : PodFields) (kernelOf : String → String) {w : World}

/-- Under every schedule each pass applies what it would apply under any other, KiveData of its
node, and the KiveData under a key are made of this. -/
lemma exists_applied (hheld : ∀ p ∈ w.cluster.kivePolicies.items, Held p) :
    ∃ l : String → List KiveData,
      (∀ node, ∀ d ∈ l node, OwnedBy std (kernelOf node) (w.hosts node) d) ∧
      ∀ sched,
        (∀ node, ((interleaved std podFields kernelOf sched w).1 node).Finished →
          appliedBy ((interleaved std podFields kernelOf sched w).1 node).log = l node) ∧
        MadeOf w.cluster.kiveData (interleaved std podFields kernelOf sched w).1
          (interleaved std podFields kernelOf sched w).2 := by
  have hpass : ∀ node, ∃ l, Steady DiscoverCall (Answered podFields) applyOf (fun _ _ => True)
      (KivePolicyReconciler.reconcile std (kernelOf node)) (nodeView node w) l ∧
      ∀ d ∈ l, OwnedBy std (kernelOf node) (w.hosts node) d := fun node =>
    steady_policyReconcile std podFields (kernelOf node) hheld
  choose l hsteady howned using hpass
  have hapart := apart_handle std podFields kernelOf
  refine ⟨l, howned, fun sched => ?_⟩
  -- the invariant of the run: all passes are steady, and the KiveData are made of their applies
  have hrun : AllSteady DiscoverCall (Answered podFields) applyOf (fun _ _ => True) nodeView l
        (interleaved std podFields kernelOf sched w).1
        (interleaved std podFields kernelOf sched w).2 ∧
      MadeOf w.cluster.kiveData (interleaved std podFields kernelOf sched w).1
        (interleaved std podFields kernelOf sched w).2 := by
    refine interleave_induction (nodeHandle std podFields kernelOf)
      (I := fun ts w' => AllSteady DiscoverCall (Answered podFields) applyOf (fun _ _ => True)
        nodeView l ts w' ∧ MadeOf w.cluster.kiveData ts w') ?_ ?_
    · rintro node - ts w' op k hprog ⟨hall, hmade⟩
      have hop := hall.allowed hprog
      exact ⟨hall.step hapart hprog,
        hmade.step std podFields kernelOf hop node _ _⟩
    · exact ⟨fun node => ⟨l node, rfl, hsteady node⟩, fun _ _ _ => rfl⟩
  exact ⟨fun node hfinished => hrun.1.log_eq hfinished, hrun.2⟩

/-- Assume that no policy needs a patch of its finalizers and that the ids of the containers of some
nodes are without hyphen and known to one of these nodes each.  Then policy passes of the nodes
leave the same KiveData however their calls are interleaved, and also when they are run one after
the other, in any order.  Each pass applies only KiveData of containers of its node, and under
names that no other pass applies anything under. -/
theorem discovery_commutes (w : World) (nodes : List String)
    (hheld : ∀ p ∈ w.cluster.kivePolicies.items, Held p)
    (hids : ∀ node ∈ nodes, ∀ id, (w.hosts node).Knows id → NoHyphen id)
    (hone : ∀ node ∈ nodes, ∀ other ∈ nodes, ∀ id, (w.hosts node).Knows id →
      (w.hosts other).Knows id → node = other)
    (sched : List String) (hsched : ∀ node ∈ sched, node ∈ nodes)
    (hfinished : ∀ node ∈ nodes,
      ((interleaved std podFields kernelOf sched w).1 node).Finished)
    (order : List String) (hnodup : order.Nodup) (horder : ∀ node, node ∈ order ↔ node ∈ nodes) :
    describedIn (interleaved std podFields kernelOf sched w).2.cluster.kiveData =
      describedIn (inOrder std podFields kernelOf order w).cluster.kiveData ∧
    ∀ node ∈ nodes, ∀ d ∈ appliedBy ((interleaved std podFields kernelOf sched w).1 node).log,
      OwnedBy std (kernelOf node) (w.hosts node) d ∧
      ∀ other ∈ nodes, other ≠ node →
        ∀ d' ∈ appliedBy ((interleaved std podFields kernelOf sched w).1 other).log,
          keyOf d' ≠ keyOf d := by
  obtain ⟨l, howned, hrun⟩ := exists_applied std podFields kernelOf hheld
  obtain ⟨sched', hsched', hworld, hfinished'⟩ := exists_schedule std podFields kernelOf hnodup w
    fun node _ => (rfl : policyThreads std kernelOf node = _)
  have hdisjoint : ∀ node ∈ nodes, ∀ other ∈ nodes, other ≠ node → ∀ d ∈ l node,
      ∀ d' ∈ l other, keyOf d' ≠ keyOf d := by
    intro node hnode other hother hne d hd d' hd'
    refine keyOf_ne_of_ownedBy (howned other d' hd') (howned node d hd) (hids other hother)
      (hids node hnode) fun id hid hid' => hne ?_
    exact hone other hother node hnode id hid hid'
  -- under both schedules a pass of the nodes has applied the same, and no other pass has begun
  have hlog : ∀ {s : List String}, (∀ node ∈ s, node ∈ nodes) →
      (∀ node ∈ nodes, ((interleaved std podFields kernelOf s w).1 node).Finished) →
      ∀ node, appliedBy ((interleaved std podFields kernelOf s w).1 node).log =
        if node ∈ nodes then l node else [] := by
    intro s hs hfin node
    split_ifs with hnode
    · exact (hrun s).1 node (hfin node hnode)
    · rw [interleaved, interleaved_of_notMem std podFields kernelOf fun h => hnode (hs node h)]
      rfl
  have hlog₁ := hlog hsched hfinished
  have hlog₂ := hlog (fun node h => (horder node).mp (hsched' node h))
    fun node h => hfinished' node ((horder node).mpr h)
  constructor
  · rw [← hworld]
    refine describedIn_eq fun k => ?_
    -- at most one pass applies anything under the key
    obtain ⟨node, honly⟩ : ∃ node, ∀ other, other ≠ node →
        ∀ d ∈ (if other ∈ nodes then l other else []), keyOf d ≠ k := by
      by_cases hex : ∃ node ∈ nodes, ∃ d ∈ l node, keyOf d = k
      · obtain ⟨node, hnode, d, hd, rfl⟩ := hex
        refine ⟨node, fun other hne d' hd' => ?_⟩
        split_ifs at hd' with hother
        · exact hdisjoint node hnode other hother hne d hd d' hd'
        · exact absurd hd' (by simp)
      · refine ⟨"", fun other _ d hd heq => ?_⟩
        split_ifs at hd with hother
        · exact hex ⟨other, hother, d, hd, heq⟩
        · exact absurd hd (by simp)
    have hmade₁ := (hrun sched).2 k node fun other hne d hd =>
      honly other hne d (hlog₁ other ▸ hd)
    have hmade₂ := (hrun sched').2 k node fun other hne d hd =>
      honly other hne d (hlog₂ other ▸ hd)
    rw [hmade₁, hlog₁]
    exact (hmade₂.trans (by rw [hlog₂])).symm
  · intro node hnode d hd
    rw [hlog₁, if_pos hnode] at hd
    refine ⟨howned node d hd, fun other hother hne d' hd' => ?_⟩
    rw [hlog₁, if_pos hother] at hd'
    exact hdisjoint node hnode other hother hne d hd d' hd'

end Commute

/-! ## Two nodes -/

namespace DiscoveryCommutes

open TrapRecords (policy trap)

/-- A node with one container, which has the file `/data`. -/
def host (id : String) : Host :=
  { TrapRecords.host with containers := .ok [id] }

/-- A running pod with one container. -/
def pod (node id : String) : Pod :=
  { TrapRecords.pod with
    name := "web-" ++ node
    nodeName := node
    containerStatuses := [⟨"main", "containerd://" ++ id, true⟩] }

/-- A pod on each of two nodes, and a policy for the file of both. -/
def world : World :=
  { TrapRecords.world [trap "/data" "http://one"] with
    cluster :=
      { kivePolicies := .ofList [policy [trap "/data" "http://one"]]
        kiveData := .empty
        pods := [pod "a" "aa", pod "b" "bb"] }
    hosts := fun node => host (if node = "a" then "aa" else "bb") }

/-- The two nodes take turns. -/
def turns : List String :=
  (List.replicate 8 ["a", "b"]).flatten

end DiscoveryCommutes

open DiscoveryCommutes TrapRecords in
/-- The passes of two nodes that take turns leave what they leave one after the other. -/
theorem discovery_commutes_turns :
    describedIn (interleaved std .standard id turns DiscoveryCommutes.world).2.cluster.kiveData =
      describedIn (inOrder std .standard id ["b", "a"]
        DiscoveryCommutes.world).cluster.kiveData ∧
    ∀ node ∈ ["a", "b"],
      ∀ d ∈ appliedBy ((interleaved std .standard id turns DiscoveryCommutes.world).1 node).log,
      OwnedBy std (id node) (DiscoveryCommutes.world.hosts node) d ∧
      ∀ other ∈ ["a", "b"], other ≠ node →
        ∀ d' ∈ appliedBy ((interleaved std .standard id turns DiscoveryCommutes.world).1 other).log,
          keyOf d' ≠ keyOf d := by
  have hknows : ∀ node cid, (DiscoveryCommutes.world.hosts node).Knows cid →
      cid = if node = "a" then "aa" else "bb" := by
    rintro node cid ⟨containers, hcontainers, hcid⟩
    obtain rfl := Except.ok.inj hcontainers
    exact List.mem_singleton.mp hcid
  refine discovery_commutes std .standard id DiscoveryCommutes.world ["a", "b"] (by decide) ?_ ?_
    turns (by decide) (by decide +kernel) ["b", "a"] (by decide) (by simp [or_comm])
  · intro node hnode cid hcid
    rw [hknows node cid hcid]
    split_ifs <;> decide
  · intro node hnode other hother cid hcid hcid'
    have heq := (hknows node cid hcid).symm.trans (hknows other cid hcid')
    revert hnode hother heq
    simp only [List.mem_cons, List.not_mem_nil, or_false]
    rintro (rfl | rfl) (rfl | rfl) <;> simp

end Kive
