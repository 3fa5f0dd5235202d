import KiveOperator.Controller.DataRun
import KiveOperator.Controller.Discovery
import KiveOperator.Controller.Moments

/-!
# What a name tells of a KiveData

Every container is known to the runtime of one node, and every node runs one kernel.  So the name of
a KiveData tells its file and its kernel, and KiveData that have the same name at different times
have the same of both (`Belongs.same`).  `allBelong_ofWorld` and `AllBelong.act` carry this through
runs: it holds at the start, and every step keeps it.
-/

namespace Kive

open Interaction Object

section Belongs

variable (owner kernelOf : String → String)

/-- The node knows no containers but its own, and their ids have no hyphens. -/
def KnowsOwn (node : String) (h : Host) : Prop :=
  ∀ id, h.Knows id → owner id = node ∧ NoHyphen id

/-- The name of a KiveData is made of its file and of a container, which runs on a node of the
kernel that the KiveData has the label of. -/
def Belongs (d : KiveData) : Prop :=
  ∃ (pod : Pod) (c : ContainerStatus),
    keyOf d = (operatorNamespace, newKiveDataName d.spec.inodeNo d.spec.devID pod c) ∧
      NoHyphen (containerIDPart c.containerID) ∧
      OfKernel (kernelOf (owner (containerIDPart c.containerID))) d

variable {owner kernelOf}

/-- A KiveData is of one kernel. -/
lemma OfKernel.unique {kernelID kernelID' : String} {d : KiveData} (h : OfKernel kernelID d)
    (h' : OfKernel kernelID' d) : kernelID = kernelID' :=
  Option.some.inj (h.symm.trans h')

/-- The name tells the key of the map and the kernel. -/
lemma Belongs.same {d d' : KiveData} (h : Belongs owner kernelOf d)
    (h' : Belongs owner kernelOf d') (hkey : keyOf d = keyOf d') :
    d.mapKey = d'.mapKey ∧ ∀ kernelID, OfKernel kernelID d ↔ OfKernel kernelID d' := by
  obtain ⟨pod, c, hname, hid, hof⟩ := h
  obtain ⟨pod', c', hname', hid', hof'⟩ := h'
  obtain ⟨hino, hdev, -, hsame⟩ := newKiveDataName_inj hid hid'
    (congrArg Prod.snd (hname.symm.trans (hkey.trans hname')))
  rw [hsame] at hof
  refine ⟨by rw [KiveData.mapKey, KiveData.mapKey, hino, hdev], fun kernelID => ?_⟩
  exact ⟨fun h => hof.unique h ▸ hof', fun h => hof'.unique h ▸ hof⟩

/-- Edits that keep the file and the labels. -/
lemma Belongs.edit {d : KiveData} (h : Belongs owner kernelOf d) {e : Edit KiveData}
    (hspec : (e.toFun d).spec = d.spec)
    (hlabels : (e.toFun d).objectMeta.labels = d.objectMeta.labels) :
    Belongs owner kernelOf (e.toFun d) := by
  obtain ⟨pod, c, hname, hid, hof⟩ := h
  refine ⟨pod, c, ?_, hid, ?_⟩
  · rw [Edit.keyOf_toFun, hspec, hname]
  · rw [OfKernel, hlabels]
    exact hof

/-- What a policy pass applies for a file that it has found. -/
lemma belongs_kiveDataFor (std : Std) {node : String} {site : Site}
    (howner : owner (containerIDPart site.container.containerID) = node)
    (hid : NoHyphen (containerIDPart site.container.containerID)) (cd : ContainerData) :
    Belongs owner kernelOf (kiveDataFor std (kernelOf node) (site, cd)) := by
  refine ⟨site.pod, site.container, rfl, hid, ?_⟩
  rw [howner, OfKernel]
  simp [kiveDataFor, KivePolicyReconciler.newKiveData, StrMap.ofEntries]

/-- All KiveData of the store after a call of a run that has found files of its node. -/
lemma belongs_writeKiveData {std : Std} {node : String} {c : Controller}
    {log : List (Sigma Call.Answer)} {op : Call} (hop : PassCall std (kernelOf node) c log op)
    (hfound : ∀ site cd, Found log site cd →
      owner (containerIDPart site.container.containerID) = node ∧
        NoHyphen (containerIDPart site.container.containerID))
    {s : Store KiveData} (hs : ∀ d ∈ s.items, Belongs owner kernelOf d) :
    ∀ d ∈ (writeKiveData s op).items, Belongs owner kernelOf d := by
  refine forall_writeKiveData hop (fun e d hspec hlabels _ h => h.edit hspec hlabels)
    (fun _ site cd _ hcd => ?_) hs
  obtain ⟨howner, hid⟩ := hfound site cd hcd
  obtain ⟨pod, c, hname, hid, hof⟩ :=
    (belongs_kiveDataFor std howner hid cd : Belongs owner kernelOf _)
  refine ⟨fun x hkey _ => ⟨pod, c, hkey.trans hname, hid, ?_⟩, fun s => ⟨pod, c, hname, hid, hof⟩⟩
  exact (Finmap.lookup_union_left (Finmap.mem_of_lookup_eq_some hof)).trans hof

end Belongs

/-! ## Runs -/

/-- The containers of a node that changes are its own. -/
def Action.KnowsOwn (owner : String → String) : Action → Prop
  | .changeHost node h => Kive.KnowsOwn owner node h
  | _ => True

namespace System

/-- Every KiveData that was ever stored has the file and the kernel that its name tells. -/
structure AllBelong (owner kernelOf : String → String) (s : System) : Prop where
  hosts : ∀ node, KnowsOwn owner node (s.world.hosts node)
  found : ∀ r site cd, Found (s.passes r).log site cd →
    owner (containerIDPart site.container.containerID) = r.1 ∧
      NoHyphen (containerIDPart site.container.containerID)
  stored : ∀ d ∈ s.world.cluster.kiveData.items, Belongs owner kernelOf d
  past : ∀ n d, s.StoredAt n d → Belongs owner kernelOf d

section Run

variable {std : Std} {podFields : PodFields} {owner kernelOf : String → String} {s : System}

/-- The world moves on to one whose hosts and KiveData are as they should be. -/
lemma AllBelong.moveTo (h : s.AllBelong owner kernelOf) {w : World}
    (hhosts : ∀ node, KnowsOwn owner node (w.hosts node))
    (hstored : ∀ d ∈ w.cluster.kiveData.items, Belongs owner kernelOf d) :
    (s.moveTo w).AllBelong owner kernelOf where
  hosts := hhosts
  found := h.found
  stored := hstored
  past n d hd := by
    rcases storedAt_moveTo.mp hd with hd | ⟨-, hd⟩
    · exact h.past n d hd
    · exact hstored d hd

/-- A run goes on, with searches of the containers of its node. -/
lemma AllBelong.setPass (h : s.AllBelong owner kernelOf) {r : Runner}
    {t : Thread Call.Answer Outcome}
    (hfound : ∀ site cd, Found t.log site cd →
      owner (containerIDPart site.container.containerID) = r.1 ∧
        NoHyphen (containerIDPart site.container.containerID)) :
    (s.setPass r t).AllBelong owner kernelOf where
  hosts := h.hosts
  found r' site cd hcd := by
    rcases eq_or_ne r' r with rfl | hne
    · exact hfound site cd (by simpa using hcd)
    · exact h.found r' site cd (by rwa [setPass_passes_of_ne s hne] at hcd)
  stored := h.stored
  past := h.past

/-- A call changes no containers. -/
lemma containers_runnerHandle (r : Runner) (fault : Option Fault) (op : Call) (w : World)
    (node : String) :
    ((runnerHandle std podFields kernelOf r fault op w).2.hosts node).containers =
      (w.hosts node).containers := by
  rcases handleFault_cases std podFields r.1 (kernelOf r.1) fault op w with heq | heq
  · rw [runnerHandle, heq]
  · rw [runnerHandle, heq]
    rcases eq_or_ne node r.1 with rfl | hne
    · exact (handle_grows_host std podFields r.1 (kernelOf r.1) op w).containers
    · cases op
      case listKivePolicies reader => cases reader <;> rfl
      case listKiveData reader labels => cases reader <;> rfl
      case getContainerData site =>
        simp only [handle, World.setHost, Function.update_of_ne hne]
      all_goals rfl

/-- Every action keeps it. -/
lemma AllBelong.act (h : s.AllBelong owner kernelOf) (hkeeps : s.KeepsTo std kernelOf)
    {a : Action} (ha : a.KnowsOwn owner) :
    (System.act std podFields kernelOf s a).AllBelong owner kernelOf := by
  cases a with
  | start r =>
    rw [System.act]
    split_ifs
    · exact h.setPass fun _ _ hcd => by cases hcd.1
    · exact h
  | call r fault =>
    cases hprog : (s.passes r).prog with
    | ret o =>
      rw [act_call_of_ret hprog]
      exact h.moveTo h.hosts h.stored
    | call op k =>
      rw [act_call hprog]
      dsimp only
      have hknows : ∀ node, KnowsOwn owner node
          ((runnerHandle std podFields kernelOf r fault op s.world).2.hosts node) := by
        rintro node id ⟨containers, hcontainers, hid⟩
        rw [containers_runnerHandle] at hcontainers
        exact h.hosts node id ⟨containers, hcontainers, hid⟩
      refine AllBelong.moveTo (h.setPass fun site cd hcd => ?_) hknows ?_
      · rcases found_append hcd with hcd | hcd
        · exact h.found r site cd hcd
        · exact hknows r.1 _ hcd.locates.container
      · rcases kiveData_handleFault std podFields r.1 (kernelOf r.1) fault op s.world with
          heq | heq
        · rw [runnerHandle, heq]
          exact h.stored
        · rw [runnerHandle, heq]
          exact belongs_writeKiveData (hkeeps.passCall hprog) (h.found r) h.stored
  | changeHost node host =>
    have hhost : KnowsOwn owner node host := ha
    refine h.moveTo (fun node' => ?_) h.stored
    rcases eq_or_ne node' node with rfl | hne
    · simpa [World.setHost] using hhost
    · simpa [World.setHost, Function.update_of_ne hne] using h.hosts node'
  | deleteKiveData k =>
    refine h.moveTo h.hosts fun d hd => ?_
    rcases s.world.cluster.kiveData.delete_cases k with ⟨-, heq⟩ | ⟨x, -, heq⟩
    · exact h.stored d (by simpa [heq] using hd)
    · rcases Store.mem_update.mp (by simpa [heq] using hd) with ⟨hd, -⟩ | ⟨y, hy, -, rfl, -⟩
      · exact h.stored d hd
      · exact (h.stored y hy).edit rfl rfl
  | seeKiveData kernelID n =>
    rw [System.act]
    split_ifs
    · cases s.kiveDataPast[n]? <;> exact ⟨h.hosts, h.found, h.stored, h.past⟩
    · exact h
  | seeKivePolicies kernelID n =>
    rw [System.act]
    split_ifs
    · cases s.kivePoliciesPast[n]? <;> exact ⟨h.hosts, h.found, h.stored, h.past⟩
    · exact h
  | _ => exact h.moveTo h.hosts h.stored

/-- It holds before anything has happened. -/
lemma allBelong_ofWorld {w : World} (hw : w.Fresh)
    (hhosts : ∀ node, KnowsOwn owner node (w.hosts node)) :
    (ofWorld w).AllBelong owner kernelOf where
  hosts := hhosts
  found _ _ _ h := by cases h.1
  stored d hd := by
    have hd : d ∈ w.cluster.kiveData.items := hd
    rw [hw.kiveData] at hd
    cases hd
  past n d hd := by
    obtain ⟨items, hitems, hd⟩ := hd
    obtain rfl := List.mem_singleton.mp (List.mem_of_getElem? hitems)
    rw [hw.kiveData] at hd
    cases hd

end Run

end System

end Kive
