import KiveOperator.Controller.Fleet
import KiveOperator.Correctness.StaleKeys
import KiveOperator.Correctness.LoaderConvergence

/-!
# The operator of a kernel ends and another one goes on

The data reconciler of a kernel may be broken off between any two of its calls, and with its process
the map of the kernel is gone.  `keysHeld_failover` says that whatever is broken off, every key in a
map is that of a KiveData which is stored with the finalizer, as long as an operator that gets a
lease sees no earlier moment than the one before it has seen.  `failover_recovers` says that the
runs of any operator of the kernel then put exactly the keys into the map that are to be there.

The operators do not see to that condition: each has a cache of its own, and one that is behind puts
the key of a KiveData back that is long gone.
-/

namespace Kive

open Interaction Object

namespace System

variable {owner kernelOf loader : String → String} {s : System}

/-- Any operator may be the elected one of a kernel for which none makes data passes. -/
lemma Supported.elect (h : s.Supported kernelOf loader) {loader' : String → String}
    (hidle : ∀ node, node ≠ loader' (kernelOf node) → node = loader (kernelOf node) →
      (s.passes (node, .kiveData)).Finished ∧ (s.passes (node, .kiveData)).log = []) :
    s.Supported kernelOf loader' := by
  refine ⟨h.held, fun node hnode => ?_, h.listed, h.removed, h.traced⟩
  by_cases hold : node = loader (kernelOf node)
  · exact hidle node hnode hold
  · exact h.idle node hold

/-- The data pass of the node is gone. -/
lemma passes_breakOff (s : System) (node : String) :
    (s.breakOff node).passes (node, .kiveData) = .start (pure done) :=
  setPass_passes_self _ _ _

/-- Those of the other nodes go on. -/
lemma passes_breakOff_of_ne (s : System) {node node' : String} (hne : node' ≠ node) :
    (s.breakOff node).passes (node', .kiveData) = s.passes (node', .kiveData) := by
  have hpass : ∀ c c' : Controller, ((node', c) : Runner) ≠ (node, c') :=
    fun c c' heq => hne (congrArg Prod.fst heq)
  rw [breakOff, setPass_passes_of_ne _ (hpass _ _), setPass_passes_of_ne _ (hpass _ _),
    setPass_passes_of_ne _ (hpass _ _)]

/-- A data pass that is broken off. -/
lemma Supported.breakOff (h : s.Supported kernelOf loader) (node : String) :
    (s.breakOff node).Supported kernelOf loader := by
  refine ⟨h.held, fun node' hnode' => ?_, fun node' => ?_, fun node' orig modified k hprog => ?_,
    h.traced⟩
  all_goals rcases eq_or_ne node' node with rfl | hne
  · rw [passes_breakOff]
    exact ⟨⟨done, rfl⟩, rfl⟩
  · rw [passes_breakOff_of_ne s hne]
    exact h.idle node' hnode'
  · obtain ⟨n, hn, hmark, -⟩ := h.listed node'
    refine ⟨n, hn, hmark, fun d hd => ?_⟩
    rw [passes_breakOff] at hd
    exact absurd hd (not_listsKiveData_nil d)
  · rw [passes_breakOff_of_ne s hne]
    exact h.listed node'
  · rw [passes_breakOff] at hprog
    cases hprog
  · rw [passes_breakOff_of_ne s hne] at hprog
    exact h.removed node' orig modified k hprog

/-- The program of a kernel is closed, and its map with it. -/
lemma Supported.unload (h : s.Supported kernelOf loader) (hrem : s.Remembers)
    (hbel : s.AllBelong owner kernelOf) (kernelID : String) :
    (s.unload kernelID).Supported kernelOf loader := by
  have hmaps : ∀ kernelID', ∀ key ∈ ((s.world.setKernel kernelID
      (s.world.kernels kernelID).unload).kernels kernelID').tracedInodes,
        key ∈ (s.world.kernels kernelID').tracedInodes := by
    intro kernelID' key hkey
    rcases eq_or_ne kernelID' kernelID with rfl | hne
    · rw [World.setKernel_kernels_self] at hkey
      exact absurd hkey (Finset.notMem_empty key)
    · simpa [World.setKernel, Function.update_of_ne hne] using hkey
  exact h.moveTo hrem hbel (Store.Grows.refl _) hbel.stored h.held (fun y hy => Or.inl ⟨y, hy, rfl⟩)
    (fun kernelID' key hkey => Or.inl (hmaps kernelID' key hkey))
    fun node orig modified k hprog hdel hkey => h.removed node orig modified k hprog hdel
      (hmaps _ _ hkey)

/-- A cache that is replaced by one which is not behind. -/
lemma Supported.see (h : s.Supported kernelOf loader) {kernelID : String} {n m : ℕ}
    {items : List KiveData} {policies : List KivePolicy} (hn : s.kiveDataSeen kernelID ≤ n) :
    ((s.seeKiveData kernelID n items).seeKivePolicies kernelID m policies).Supported kernelOf
      loader := by
  have hdata : (s.seeKiveData kernelID n items).Supported kernelOf loader := by
    refine h.setKernel rfl rfl rfl rfl fun kernelID' => ?_
    rcases eq_or_ne kernelID' kernelID with rfl | hne
    · simpa [seeKiveData] using hn
    · simp [seeKiveData, Function.update_of_ne hne]
  exact hdata.setKernel rfl rfl rfl rfl fun _ => le_rfl

end System

namespace Fleet

/-- A patch with which a data pass takes the finalizer from a KiveData meets no other one under its
name. -/
def MeetsListed (f : Fleet) : Incident → Prop
  | .act a => f.system.MeetsListed a
  | _ => True

/-- An operator that gets a lease sees no earlier moment than the one before it has seen. -/
def Forward (kernelOf : String → String) (f : Fleet) : Incident → Prop
  | .elect node n _ => f.system.kiveDataSeen (kernelOf node) ≤ n
  | _ => True

instance (f : Fleet) (i : Incident) : Decidable (f.MeetsListed i) := by
  delta MeetsListed
  induction i using Incident.casesOn with
  | act a => exact inferInstanceAs (Decidable (f.system.MeetsListed a))
  | _ => exact instDecidableTrue

instance (kernelOf : String → String) (f : Fleet) (i : Incident) :
    Decidable (f.Forward kernelOf i) := by
  delta Forward
  induction i using Incident.casesOn with
  | elect node n m => exact inferInstanceAs (Decidable (_ ≤ _))
  | _ => exact instDecidableTrue

variable {std : Std} {podFields : PodFields} {owner kernelOf loader : String → String} {f : Fleet}

/-- The leases are where the elected nodes are. -/
def Agrees (f : Fleet) (loader : String → String) : Prop :=
  ∀ kernelID node, f.leader kernelID = some node → loader kernelID = node

/-- Nodes without a lease make no data passes, which any choice of elected nodes that agrees with
the leases says. -/
def Supported (kernelOf : String → String) (f : Fleet) : Prop :=
  ∀ loader, f.Agrees loader → f.system.Supported kernelOf loader

/-- In a fresh cluster every key has its KiveData. -/
lemma supported_ofWorld {w : World} (hw : w.Fresh) : (ofWorld w).Supported kernelOf :=
  fun _ _ => System.supported_ofWorld hw

/-- The lease of an operator that ends may be given to any node. -/
lemma Supported.crash (h : f.Supported kernelOf) (hrem : f.system.Remembers)
    (hbel : f.system.AllBelong owner kernelOf) {node : String}
    (hleader : f.leader (kernelOf node) = some node) :
    Fleet.Supported kernelOf
      { system := (f.system.breakOff node).unload (kernelOf node)
        leader := Function.update f.leader (kernelOf node) none } := by
  intro loader' hagrees
  -- before it has ended, its node is the elected one
  have hold : f.system.Supported kernelOf fun kernelID =>
      (f.leader kernelID).getD (loader' kernelID) := by
    refine h _ fun kernelID node' hleader => ?_
    rw [hleader]
    rfl
  refine System.Supported.elect ((hold.breakOff node).unload (hrem.breakOff node)
    (hbel.breakOff node) _) fun node' hne heq => ?_
  rcases eq_or_ne node' node with rfl | hnode
  · rw [show ((f.system.breakOff node').unload (kernelOf node')).passes (node', .kiveData) =
      .start (pure done) from System.passes_breakOff _ _]
    exact ⟨⟨done, rfl⟩, rfl⟩
  · cases hleader' : f.leader (kernelOf node') with
    | none =>
      rw [hleader'] at heq
      exact absurd heq hne
    | some other =>
      rw [hleader'] at heq
      obtain rfl : node' = other := heq
      -- it holds the lease of another kernel, and still does
      have hkernel : kernelOf node' ≠ kernelOf node := fun hsame =>
        hnode (Option.some.inj (hleader'.symm.trans (hsame ▸ hleader)))
      exact absurd (hagrees _ _ ((Function.update_of_ne hkernel _ _).trans hleader')).symm hne

/-- What carries the result is kept by every incident. -/
lemma Supported.act (h : f.Supported kernelOf) (hord : f.Orderly std owner kernelOf) {i : Incident}
    (hown : i.KnowsOwn owner) (hmeets : f.MeetsListed i) (hforward : f.Forward kernelOf i) :
    (f.act std podFields kernelOf i).Supported kernelOf := by
  rcases act_cases std podFields kernelOf f i with ⟨a, rfl, hpermits, heq⟩ |
    ⟨node, rfl, hleader, heq⟩ | ⟨node, rfl, -, heq⟩ |
    ⟨node, n, m, items, policies, rfl, hleader, -, heq⟩ | heq
  all_goals rw [heq]
  · intro loader hagrees
    refine (h loader hagrees).act hord.keepsTo hord.stamped hord.remembers hord.belong hown ?_
      hmeets
    cases a with
    | start r => exact fun hr => (hagrees _ _ (hpermits hr)).symm
    | _ => trivial
  · exact h.crash hord.remembers hord.belong hleader
  · exact fun loader hagrees => (h loader hagrees).breakOff node
  · intro loader hagrees
    refine (h loader fun kernelID node' hleader' => hagrees kernelID node' ?_).see hforward
    have hne : kernelID ≠ kernelOf node := fun hsame => by
      rw [hsame, hleader] at hleader'
      cases hleader'
    exact (Function.update_of_ne hne _ _).trans hleader'
  · exact h

/-- In such a state every key has its KiveData. -/
lemma Supported.keysHeld (h : f.Supported kernelOf) : KeysHeld f.system.world := by
  have hagrees : f.Agrees fun kernelID => (f.leader kernelID).getD "" := by
    intro kernelID node hleader
    exact congrArg (Option.getD · "") hleader
  exact (h _ hagrees).keysHeld

variable (std podFields) in
/-- What every run keeps in which no operator falls behind. -/
lemma supported_run {w : World} (hw : w.Fresh) (hhosts : ∀ node, KnowsOwn owner node (w.hosts node))
    {incidents : List Incident} (hown : ∀ i ∈ incidents, i.KnowsOwn owner)
    (hmeets : Runs.Along (act std podFields kernelOf) MeetsListed incidents (ofWorld w))
    (hforward : Runs.Along (act std podFields kernelOf) (Forward kernelOf) incidents (ofWorld w)) :
    (run std podFields kernelOf incidents (ofWorld w)).Orderly std owner kernelOf ∧
      (run std podFields kernelOf incidents (ofWorld w)).Supported kernelOf := by
  have hown' : Runs.Along (act std podFields kernelOf) (fun _ i => i.KnowsOwn owner) incidents
      (ofWorld w) := Runs.along_of_forall (fun i hi _ => hown i hi) _
  let I : Fleet → Prop := fun f => f.Orderly std owner kernelOf ∧ f.Supported kernelOf
  have hinit : I (ofWorld w) := ⟨orderly_ofWorld hw hhosts, supported_ofWorld hw⟩
  refine Runs.invariant_run (I := I) (fun f i h hi => ?_) (hown'.and (hmeets.and hforward)) hinit
  obtain ⟨hi, hmeet, hfwd⟩ := hi
  exact ⟨h.1.act hi, h.2.act h.1 hi hmeet hfwd⟩

end Fleet

/-- Operators may end at any moment, and each container is known to the runtime of one node
(`KnowsOwn`).  Every key in a map is that of a stored KiveData of the kernel with the finalizer, if
no patch that takes a finalizer away meets another KiveData than the one it was made for, and no
operator that gets a lease sees an earlier moment than the one before it. -/
theorem keysHeld_failover (std : Std) (podFields : PodFields) {owner kernelOf : String → String}
    {w : World} (hw : w.Fresh) (hhosts : ∀ node, KnowsOwn owner node (w.hosts node))
    {incidents : List Incident} (hown : ∀ i ∈ incidents, i.KnowsOwn owner)
    (hmeets : Runs.Along (Fleet.act std podFields kernelOf) Fleet.MeetsListed incidents
      (.ofWorld w))
    (hforward : Runs.Along (Fleet.act std podFields kernelOf) (Fleet.Forward kernelOf) incidents
      (.ofWorld w)) :
    KeysHeld (Fleet.run std podFields kernelOf incidents (.ofWorld w)).system.world :=
  (Fleet.supported_run std podFields hw hhosts hown hmeets hforward).2.keysHeld

/-! ## An operator that ends -/

namespace Failover

open StaleKeys (world)
open TrapRecords (std)

/-- A data pass of a node with some calls. -/
def dataPass (node : String) (calls : ℕ) : List Incident :=
  .act (.start (node, .kiveData)) :: List.replicate calls (.act (.call (node, .kiveData) none))

/-- A policy pass makes a KiveData, and a data pass of the leader puts its key into the map. -/
def traced : List Incident :=
  .elect "node" 0 0 :: StaleKeys.policyPass.map .act ++
    .act (.seeKiveData "k1" 7) :: dataPass "node" 6

/-- The leader ends. -/
def crashed : List Incident := traced ++ [.crash "node"]

/-- Another operator puts the key into its own map. -/
def restored : List Incident := crashed ++ .elect "other" 7 0 :: dataPass "other" 6

/-- Before the leader ends, a user deletes the KiveData, and the leader finalizes it. -/
def behind : List Incident :=
  traced ++ .act StaleKeys.delete :: .act (.seeKiveData "k1" 14) :: dataPass "node" 5 ++
    .crash "node" :: .elect "other" 7 0 :: dataPass "other" 6

def after (incidents : List Incident) : Fleet :=
  Fleet.run std .standard (fun _ => "k1") incidents (.ofWorld world)

/-- No container moves. -/
lemma knowsOwn {incidents : List Incident}
    (h : ∀ i ∈ incidents, i ∈ restored ++ behind) (owner : String → String) :
    ∀ i ∈ incidents, i.KnowsOwn owner := by
  have hall : ∀ i ∈ restored ++ behind, i.KnowsOwn owner := by
    simp [restored, behind, crashed, traced, dataPass, StaleKeys.policyPass, StaleKeys.delete,
      Incident.KnowsOwn, Action.KnowsOwn]
  exact fun i hi => hall i (h i hi)

/-- In the end no KiveData is stored. -/
lemma items_behind : (after behind).system.world.cluster.kiveData.items = [] := by decide +kernel

/-- A key has been left in the map. -/
lemma tracedInodes_behind : ((after behind).system.world.kernels "k1").tracedInodes.Nonempty :=
  ⟨⟨7, 8388609⟩, by decide +kernel⟩

end Failover

open Failover StaleKeys TrapRecords in
/-- The leader ends after it has put the key into the map. -/
theorem keysHeld_failover_restored : KeysHeld (Failover.after restored).system.world :=
  keysHeld_failover TrapRecords.std .standard fresh_world knowsOwn_world
    (knowsOwn (fun _ => List.mem_append_left _) _) (by decide +kernel) (by decide +kernel)

open Failover StaleKeys TrapRecords in
/-- An operator whose cache is behind puts the key of a KiveData into the map that has gone. -/
theorem not_keysHeld_failover_behind :
    Runs.Along (Fleet.act TrapRecords.std .standard fun _ => "k1") Fleet.MeetsListed behind
        (.ofWorld StaleKeys.world) ∧
      ¬ KeysHeld (Failover.after behind).system.world := by
  refine ⟨by decide +kernel, ?_⟩
  exact not_keysHeld items_behind tracedInodes_behind

/-! ## The runs after it -/

/-- After all that, with each container known to the runtime of one node (`KnowsOwn`), let a data
reconciler of the kernel make `2 * n + 2` runs, `n` being the number of its KiveData, with current
lists and without a call that fails.  If the map has room, they put exactly the keys of the wanted
KiveData into it, whatever was broken off and lost before. -/
theorem failover_recovers (std : Std) {podFields : PodFields} (hf : podFields.Standard)
    {owner kernelOf : String → String} {w : World} (hw : w.Fresh)
    (hhosts : ∀ node, KnowsOwn owner node (w.hosts node))
    {incidents : List Incident} (hown : ∀ i ∈ incidents, i.KnowsOwn owner)
    (hmeets : Runs.Along (Fleet.act std podFields kernelOf) Fleet.MeetsListed incidents
      (.ofWorld w))
    (hforward : Runs.Along (Fleet.act std podFields kernelOf) (Fleet.Forward kernelOf) incidents
      (.ofWorld w)) (node kernelID : String) {m : ℕ}
    (hm : 2 * ((Fleet.run std podFields kernelOf incidents
      (.ofWorld w)).system.world.cluster.kiveData.items.filter fun d =>
        OfKernel kernelID d).length + 2 ≤ m)
    (hroom : (mapKeys kernelID (Fleet.run std podFields kernelOf incidents
      (.ofWorld w)).system.world.cluster.kiveData.items).card ≤ mapMaxEntries) :
    let w₁ := (Fleet.run std podFields kernelOf incidents (.ofWorld w)).system.world
    let w' := (dataRun std podFields node kernelID)^[m] w₁
    (∀ y, y ∈ w'.cluster.kiveData.items ∧ OfKernel kernelID y ↔
      ∃ d, Wanted std kernelID w₁ d ∧ addFinalizer d kiveDataFinalizerName = y) ∧
    (∀ key, key ∈ (w'.kernels kernelID).tracedInodes ↔
      ∃ d, Wanted std kernelID w₁ d ∧ d.mapKey = key) ∧
    dataRun std podFields node kernelID w' = w' := by
  obtain ⟨hord, hsupp⟩ := Fleet.supported_run std podFields hw hhosts hown hmeets hforward
  intro w₁
  have hheld : OnlyLoaderHolds kernelID w₁.cluster.kiveData.items := fun d hd _ =>
    (hord.stamped.stored d hd).finalizers
  have htraced : (w₁.kernels kernelID).tracedInodes ⊆
      mapKeys kernelID w₁.cluster.kiveData.items := by
    intro key hkey
    obtain ⟨d, hd, hof, -, hdkey⟩ := hsupp.keysHeld kernelID key hkey
    exact mem_mapKeys.mpr ⟨d, hd, hof, hdkey⟩
  obtain ⟨hset, hitems, hkeys⟩ :=
    settled_iterate_dataRun std podFields node hf hheld htraced hroom hm
  exact ⟨hitems, hkeys, dataRun_settled hf hset⟩

open Failover StaleKeys TrapRecords in
/-- The leader has ended, and nothing is in its map. -/
theorem failover_recovers_traced :
    let w₁ := (Fleet.run TrapRecords.std .standard (fun _ => "k1") crashed
      (.ofWorld StaleKeys.world)).system.world
    let w' := (dataRun TrapRecords.std .standard "other" "k1")^[4] w₁
    (∀ y, y ∈ w'.cluster.kiveData.items ∧ OfKernel "k1" y ↔
      ∃ d, Wanted TrapRecords.std "k1" w₁ d ∧ addFinalizer d kiveDataFinalizerName = y) ∧
    (∀ key, key ∈ (w'.kernels "k1").tracedInodes ↔
      ∃ d, Wanted TrapRecords.std "k1" w₁ d ∧ d.mapKey = key) ∧
    dataRun TrapRecords.std .standard "other" "k1" w' = w' := by
  have hown : ∀ i ∈ crashed, i.KnowsOwn (fun _ => "node") :=
    knowsOwn (fun _ hi => List.mem_append_left _ (List.mem_append_left _ hi)) _
  exact failover_recovers TrapRecords.std PodFields.standard_standard fresh_world
    knowsOwn_world hown (by decide +kernel) (by decide +kernel) "other" "k1" (by decide +kernel)
    (by decide +kernel)

end Kive
