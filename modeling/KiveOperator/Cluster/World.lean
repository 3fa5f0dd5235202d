import KiveOperator.Controller.Calls

/-!
# The world of the reconcilers

The objects of the cluster, the nodes with their containers and files, and the kernels with the
eBPF map and the cache of the manager that runs there.  `handle` answers a call that a
reconciler makes on a node whose kernel has a given identifier, no request failing by itself.
-/

namespace Kive

open Interaction Object

/-- A kernel without the program and without keys. -/
lemma TracedInodes.eq_empty_of_unloaded : false = false → (∅ : TracedInodes) = ∅ := fun _ => rfl

/-- A kernel with the program and without keys. -/
lemma TracedInodes.eq_empty_of_loaded : true = false → (∅ : TracedInodes) = ∅ := fun _ => rfl

/-- What belongs to a running kernel: the eBPF program, and the cache of the manager that loads
it. -/
structure Kernel where
  loaded : Bool := false
  tracedInodes : TracedInodes := ∅
  cachedKiveData : List KiveData := []
  cachedKivePolicies : List KivePolicy := []
  /-- The map comes with the program. -/
  eq_empty : loaded = false → tracedInodes = ∅ := by exact TracedInodes.eq_empty_of_unloaded

namespace Kernel

/-- Load the program, with an empty map. -/
def load (k : Kernel) : Kernel :=
  { k with loaded := true, tracedInodes := ∅, eq_empty := TracedInodes.eq_empty_of_loaded }

/-- Set a key of the map. -/
def addInode (k : Kernel) (mapKey : BpfMapKey) : Except String Unit × Kernel :=
  if h : k.loaded = true then
    ((k.tracedInodes.addInode mapKey).1,
      { k with
        tracedInodes := (k.tracedInodes.addInode mapKey).2
        eq_empty := fun hno => absurd (h.symm.trans hno) (by simp) })
  else (.error "AddInode Error: no map", k)

/-- Delete a key of the map. -/
def removeInode (k : Kernel) (mapKey : BpfMapKey) : Except String Unit × Kernel :=
  ((k.tracedInodes.removeInode mapKey).1,
    { k with
      tracedInodes := (k.tracedInodes.removeInode mapKey).2
      eq_empty := fun hno => by simp [k.eq_empty hno] })

/-- Adding a key takes no other one away. -/
lemma mem_tracedInodes_addInode {k : Kernel} {key : BpfMapKey} (h : key ∈ k.tracedInodes)
    (mapKey : BpfMapKey) : key ∈ (k.addInode mapKey).2.tracedInodes := by
  unfold addInode
  split_ifs
  · exact TracedInodes.mem_addInode_of_mem h
  · exact h

/-- In a loaded program the key goes into the map, if there is room. -/
lemma tracedInodes_addInode {k : Kernel} (h : k.loaded = true) (mapKey : BpfMapKey) :
    (k.addInode mapKey).2.tracedInodes = (k.tracedInodes.addInode mapKey).2 := by
  rw [addInode, dif_pos h]

/-- Removing a key takes that one away. -/
lemma tracedInodes_removeInode (k : Kernel) (mapKey : BpfMapKey) :
    (k.removeInode mapKey).2.tracedInodes = k.tracedInodes.erase mapKey :=
  TracedInodes.removeInode_snd ..

/-- Setting a key loads nothing. -/
@[simp] lemma loaded_addInode (k : Kernel) (mapKey : BpfMapKey) :
    (k.addInode mapKey).2.loaded = k.loaded := by
  unfold addInode
  split_ifs <;> rfl

/-- Removing a key leaves the program loaded, or not. -/
@[simp] lemma loaded_removeInode (k : Kernel) (mapKey : BpfMapKey) :
    (k.removeInode mapKey).2.loaded = k.loaded := rfl

end Kernel

structure World where
  cluster : Cluster
  /-- The nodes by name. -/
  hosts : String → Host
  /-- The kernels by identifier. -/
  kernels : String → Kernel
  /-- The time in seconds. -/
  clock : ℕ

namespace World

def setKivePolicies (w : World) (s : Store KivePolicy) : World :=
  { w with cluster := { w.cluster with kivePolicies := s } }

def setKiveData (w : World) (s : Store KiveData) : World :=
  { w with cluster := { w.cluster with kiveData := s } }

def setHost (w : World) (node : String) (h : Host) : World :=
  { w with hosts := Function.update w.hosts node h }

def setKernel (w : World) (kernelID : String) (k : Kernel) : World :=
  { w with kernels := Function.update w.kernels kernelID k }

section Simp

variable (w : World) (p : Store KivePolicy) (d : Store KiveData) (n : String) (h : Host)
  (k : Kernel)

@[simp] lemma setKivePolicies_kivePolicies :
    (w.setKivePolicies p).cluster.kivePolicies = p := rfl
@[simp] lemma setKivePolicies_kiveData :
    (w.setKivePolicies p).cluster.kiveData = w.cluster.kiveData := rfl
@[simp] lemma setKivePolicies_pods : (w.setKivePolicies p).cluster.pods = w.cluster.pods := rfl
@[simp] lemma setKivePolicies_hosts : (w.setKivePolicies p).hosts = w.hosts := rfl
@[simp] lemma setKivePolicies_kernels : (w.setKivePolicies p).kernels = w.kernels := rfl
@[simp] lemma setKiveData_kivePolicies :
    (w.setKiveData d).cluster.kivePolicies = w.cluster.kivePolicies := rfl
@[simp] lemma setKiveData_kiveData : (w.setKiveData d).cluster.kiveData = d := rfl
@[simp] lemma setKiveData_pods : (w.setKiveData d).cluster.pods = w.cluster.pods := rfl
@[simp] lemma setKiveData_hosts : (w.setKiveData d).hosts = w.hosts := rfl
@[simp] lemma setKiveData_kernels : (w.setKiveData d).kernels = w.kernels := rfl
@[simp] lemma setHost_cluster : (w.setHost n h).cluster = w.cluster := rfl
@[simp] lemma setHost_hosts_self : (w.setHost n h).hosts n = h := Function.update_self ..
@[simp] lemma setHost_kernels : (w.setHost n h).kernels = w.kernels := rfl
@[simp] lemma setKernel_cluster : (w.setKernel n k).cluster = w.cluster := rfl
@[simp] lemma setKernel_hosts : (w.setKernel n k).hosts = w.hosts := rfl
@[simp] lemma setKernel_kernels_self : (w.setKernel n k).kernels n = k := Function.update_self ..

end Simp

end World

/-- The answer to a call made on a node, and the world after it. -/
def handle (std : Std) (podFields : PodFields) (node kernelID : String) :
    (op : Call) → World → op.Answer × World
  | .listKivePolicies .cached, w => (.ok (w.kernels kernelID).cachedKivePolicies, w)
  | .listKivePolicies .uncached, w => (.ok w.cluster.kivePolicies.items, w)
  | .listKiveData .cached labels, w =>
    (.ok (listKiveData labels (w.kernels kernelID).cachedKiveData), w)
  | .listKiveData .uncached labels, w =>
    (.ok (listKiveData labels w.cluster.kiveData.items), w)
  | .listPods labels fields, w => (listPods podFields labels fields w.cluster.pods, w)
  | .patchKivePolicy orig modified, w =>
    let r := w.cluster.kivePolicies.patch (keyOf modified) (Store.mergeFrom orig modified)
    (r.1, w.setKivePolicies r.2)
  | .patchKiveData orig modified, w =>
    let r := w.cluster.kiveData.patch (keyOf modified) (Store.mergeFrom orig modified)
    (r.1, w.setKiveData r.2)
  | .applyKiveData _ kiveData, w =>
    let r := applyKiveData w.cluster.kiveData kiveData
    (r.1, w.setKiveData r.2)
  | .deleteKiveData kiveData, w =>
    let r := w.cluster.kiveData.delete (keyOf kiveData)
    (r.1, w.setKiveData r.2)
  | .getContainerData site, w =>
    let r := (Kive.getContainerData site.container site.trap).run Host.handle (w.hosts node)
    (r.1, w.setHost node r.2)
  | .ebpfLoaded, w => ((w.kernels kernelID).loaded, w)
  | .loadEbpf, w => (.ok (), w.setKernel kernelID (w.kernels kernelID).load)
  | .addInode mapKey, w =>
    let r := (w.kernels kernelID).addInode mapKey
    (r.1, w.setKernel kernelID r.2)
  | .removeInode mapKey, w =>
    let r := (w.kernels kernelID).removeInode mapKey
    (r.1, w.setKernel kernelID r.2)
  | .now, w => (std.formatRFC3339 w.clock, w)

section Handle

variable (std : Std) (podFields : PodFields) (node kernelID : String)

/-- The requests that can change the KiveData of the cluster. -/
def Call.WritesKiveData : Call → Prop
  | .patchKiveData _ _ => True
  | .applyKiveData _ _ => True
  | .deleteKiveData _ => True
  | _ => False

/-- All other calls leave them alone. -/
lemma handle_kiveData {op : Call} (h : ¬ op.WritesKiveData) (w : World) :
    (handle std podFields node kernelID op w).2.cluster.kiveData = w.cluster.kiveData := by
  cases op
  case listKivePolicies reader => cases reader <;> rfl
  case listKiveData reader labels => cases reader <;> rfl
  case patchKiveData => exact absurd trivial h
  case applyKiveData => exact absurd trivial h
  case deleteKiveData => exact absurd trivial h
  all_goals rfl

/-- No call changes the pods. -/
lemma pods_run {α : Type} (p : CallProg α) (w : World) :
    (p.run (handle std podFields node kernelID) w).2.cluster.pods = w.cluster.pods := by
  refine Prog.run_rel (handle std podFields node kernelID)
    (r := fun w w' => w'.cluster.pods = w.cluster.pods) (fun _ => rfl) (fun h h' => h'.trans h)
    (fun op w => ?_) p w
  cases op
  case listKivePolicies reader => cases reader <;> rfl
  case listKiveData reader labels => cases reader <;> rfl
  all_goals rfl

/-- The policies change by patches alone. -/
lemma kivePolicies_run {α : Type} {p : CallProg α}
    (hp : p.Only fun op => ∀ orig modified, op ≠ .patchKivePolicy orig modified) (w : World) :
    (p.run (handle std podFields node kernelID) w).2.cluster.kivePolicies =
      w.cluster.kivePolicies := by
  refine Prog.Only.run_induction (handle std podFields node kernelID)
    (Φ := fun _ w' => w'.cluster.kivePolicies = w.cluster.kivePolicies) (fun _ op w' hop h => ?_)
    hp [] w rfl
  cases op
  case listKivePolicies reader => cases reader <;> exact h
  case listKiveData reader labels => cases reader <;> exact h
  case patchKivePolicy orig modified => exact absurd rfl (hop orig modified)
  all_goals exact h

/-- What a call does to the kernel of its caller. -/
def kernelAfter : Call → Kernel → Kernel
  | .loadEbpf, k => k.load
  | .addInode mapKey, k => (k.addInode mapKey).2
  | .removeInode mapKey, k => (k.removeInode mapKey).2
  | _, k => k

/-- What a request does to the kernel of the node it is made on. -/
lemma kernels_handle (op : Call) (w : World) :
    (handle std podFields node kernelID op w).2.kernels kernelID =
      kernelAfter op (w.kernels kernelID) := by
  cases op
  case listKivePolicies reader => cases reader <;> rfl
  case listKiveData reader labels => cases reader <;> rfl
  case addInode mapKey => exact World.setKernel_kernels_self ..
  case removeInode mapKey => exact World.setKernel_kernels_self ..
  case loadEbpf => exact World.setKernel_kernels_self ..
  all_goals rfl

/-- No call touches a cache. -/
lemma caches_handle (op : Call) (w : World) (kernelID' : String) :
    let k := (handle std podFields node kernelID op w).2.kernels kernelID'
    k.cachedKiveData = (w.kernels kernelID').cachedKiveData ∧
      k.cachedKivePolicies = (w.kernels kernelID').cachedKivePolicies := by
  rcases eq_or_ne kernelID' kernelID with rfl | hne
  · rw [kernels_handle]
    cases op
    case addInode mapKey =>
      unfold kernelAfter Kernel.addInode
      dsimp only
      split_ifs <;> exact ⟨rfl, rfl⟩
    all_goals exact ⟨rfl, rfl⟩
  · cases op
    case listKivePolicies reader => cases reader <;> exact ⟨rfl, rfl⟩
    case listKiveData reader labels => cases reader <;> exact ⟨rfl, rfl⟩
    case addInode mapKey => simp [handle, World.setKernel, Function.update_of_ne hne]
    case removeInode mapKey => simp [handle, World.setKernel, Function.update_of_ne hne]
    case loadEbpf => simp [handle, World.setKernel, Function.update_of_ne hne]
    all_goals exact ⟨rfl, rfl⟩

/-- What the calls do to the map. -/
lemma tracedInodes_handle (op : Call) (w : World) :
    ((handle std podFields node kernelID op w).2.kernels kernelID).tracedInodes =
      match op with
      | .addInode mapKey => ((w.kernels kernelID).addInode mapKey).2.tracedInodes
      | .removeInode mapKey => (w.kernels kernelID).tracedInodes.erase mapKey
      | .loadEbpf => ∅
      | _ => (w.kernels kernelID).tracedInodes := by
  cases op
  case listKivePolicies reader => cases reader <;> rfl
  case listKiveData reader labels => cases reader <;> rfl
  case addInode mapKey => simp [handle]
  case removeInode mapKey => simp [handle, Kernel.tracedInodes_removeInode]
  case loadEbpf => simp [handle, Kernel.load]
  all_goals rfl

/-- Whatever is called, the containers of the node stay and every path keeps its file. -/
lemma handle_grows_host (op : Call) (w : World) :
    (w.hosts node).Grows ((handle std podFields node kernelID op w).2.hosts node) := by
  cases op
  case listKivePolicies reader => cases reader <;> exact Host.Grows.refl _
  case listKiveData reader labels => cases reader <;> exact Host.Grows.refl _
  case getContainerData site =>
    simp only [handle, World.setHost_hosts_self]
    exact Host.grows_run _ _
  all_goals exact Host.Grows.refl _

end Handle

end Kive
