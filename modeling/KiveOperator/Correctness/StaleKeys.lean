import KiveOperator.Controller.Belonging
import KiveOperator.Correctness.StaleFiles

/-!
# Every key of the map is held by a KiveData

The data reconciler adds the key of a KiveData to the map when its list, which may be an old one,
shows the KiveData with the finalizer, and takes the finalizer away only after it has removed the
key.  The patch that does so names the object but not its identity: when the KiveData has gone and
another has been applied under its name, the other one loses its finalizer.  `keysHeld_run` says
that as long as no such patch meets another KiveData, every key in a map belongs to a KiveData that
is stored with the finalizer.
-/

namespace Kive

open Interaction Object

/-- Every key in the map of a kernel is that of a KiveData of the kernel that is stored with the
finalizer. -/
def KeysHeld (w : World) : Prop :=
  ∀ kernelID, ∀ key ∈ (w.kernels kernelID).tracedInodes, ∃ d ∈ w.cluster.kiveData.items,
    OfKernel kernelID d ∧ containsFinalizer d kiveDataFinalizerName = true ∧ d.mapKey = key

/-! ## The finalizer in the store -/

/-- The KiveData of a store have the finalizer. -/
def AllHeld (s : Store KiveData) : Prop :=
  ∀ d ∈ s.items, containsFinalizer d kiveDataFinalizerName = true

/-- All KiveData of a store are in the other one, and have the finalizer. -/
structure HeldOn (s s' : Store KiveData) : Prop where
  held : AllHeld s'
  kept : ∀ y ∈ s.items, ∃ z ∈ s'.items, uidOf z = uidOf y

section Held

variable {s : Store KiveData}

/-- A store whose KiveData have their finalizers. -/
lemma HeldOn.refl (hs : AllHeld s) : HeldOn s s := ⟨hs, fun y hy => ⟨y, hy, rfl⟩⟩

/-- A KiveData with a finalizer is not removed when it is marked. -/
lemma finalizers_ne_nil {d : KiveData} {finalizer : String}
    (h : containsFinalizer d finalizer = true) : d.objectMeta.finalizers ≠ [] := by
  intro hnil
  have hmem : finalizer ∈ d.objectMeta.finalizers := List.contains_iff_mem.mp h
  rw [hnil] at hmem
  cases hmem

/-- An edit that keeps the finalizer. -/
lemma heldOn_update (hs : AllHeld s) (k : String × String) {e : Edit KiveData}
    (he : ∀ y, containsFinalizer y kiveDataFinalizerName = true →
      containsFinalizer (e.toFun y) kiveDataFinalizerName = true) :
    HeldOn s (s.update k e) := by
  refine ⟨fun d hd => ?_, fun y hy => ?_⟩
  · rcases Store.mem_update.mp hd with ⟨hd, -⟩ | ⟨x, hx, -, rfl, -⟩
    · exact hs d hd
    · exact he x (hs x hx)
  · by_cases hkey : keyOf y = k
    · have hne : (objectMeta (e.toFun y)).finalizers ≠ [] := finalizers_ne_nil (he y (hs y hy))
      exact ⟨e.toFun y, Store.mem_update.mpr (Or.inr ⟨y, hy, hkey, rfl, fun _ => hne⟩),
        e.uidOf_toFun y⟩
    · exact ⟨y, Store.mem_update.mpr (Or.inl ⟨hy, hkey⟩), rfl⟩

/-- A deletion only marks what has its finalizer. -/
lemma heldOn_delete (hs : AllHeld s) (k : String × String) : HeldOn s (s.delete k).2 := by
  rcases s.delete_cases k with ⟨-, heq⟩ | ⟨x, -, heq⟩
  · rw [heq]
    exact HeldOn.refl hs
  · rw [heq]
    exact heldOn_update hs k fun _ h => h

/-- A patch that leaves the finalizers or sets ones with the finalizer among them. -/
lemma heldOn_patch (hs : AllHeld s) {orig modified : KiveData}
    (h : orig.objectMeta.finalizers = modified.objectMeta.finalizers ∨
      containsFinalizer modified kiveDataFinalizerName = true) :
    HeldOn s (s.patch (keyOf modified) (Store.mergeFrom orig modified)).2 := by
  rcases s.patch_cases (keyOf modified) (Store.mergeFrom orig modified) with
    ⟨-, heq⟩ | ⟨x, -, -, heq⟩
  · rw [heq]
    exact HeldOn.refl hs
  · rw [heq]
    refine heldOn_update hs _ fun y hy => ?_
    change (if orig.objectMeta.finalizers = modified.objectMeta.finalizers
      then y.objectMeta.finalizers else modified.objectMeta.finalizers).contains
        kiveDataFinalizerName = true
    split_ifs with hsame
    · exact hy
    · exact h.resolve_left hsame

/-- An apply keeps or sets the finalizer. -/
lemma heldOn_applyKiveData (hs : AllHeld s) {config : KiveData}
    (hconfig : containsFinalizer config kiveDataFinalizerName = true) :
    HeldOn s (applyKiveData s config).2 := by
  rcases applyKiveData_cases s config with ⟨-, heq⟩ | ⟨x, -, -, heq⟩ | ⟨hk, -, heq⟩
  · rw [heq]
    exact HeldOn.refl hs
  · rw [heq]
    refine heldOn_update hs _ fun y hy => List.contains_iff_mem.mpr ?_
    exact List.mem_append_left _ (List.contains_iff_mem.mp hy)
  · rw [heq]
    refine ⟨fun d hd => ?_, fun y hy => ⟨y, (Store.mem_create (h := hk)).mpr (Or.inl hy), rfl⟩⟩
    rcases (Store.mem_create (h := hk)).mp hd with hd | rfl
    · exact hs d hd
    · exact hconfig

/-- Taking the finalizer away from a KiveData that is being deleted removes it, and nothing else. -/
lemma heldOn_removeFinalizer (hs : AllHeld s) {orig : KiveData}
    (hfin : ∀ f ∈ orig.objectMeta.finalizers, f = kiveDataFinalizerName)
    (hhas : containsFinalizer orig kiveDataFinalizerName = true)
    (hdel : ∀ x ∈ s.items, keyOf x = keyOf orig → Deleting x) :
    let modified := removeFinalizer orig kiveDataFinalizerName
    let s' := (s.patch (keyOf modified) (Store.mergeFrom orig modified)).2
    AllHeld s' ∧ ∀ y ∈ s.items, keyOf y ≠ keyOf orig → y ∈ s'.items := by
  intro modified s'
  have hnil : modified.objectMeta.finalizers = [] :=
    List.filter_eq_nil_iff.mpr fun f hf => by simp [hfin f hf]
  rcases s.patch_cases (keyOf modified) (Store.mergeFrom orig modified) with
    ⟨-, heq⟩ | ⟨x, -, -, heq⟩
  · rw [show s' = s from heq]
    exact ⟨hs, fun y hy _ => hy⟩
  · rw [show s' = _ from congrArg Prod.snd heq]
    refine ⟨fun d hd => ?_, fun y hy hne => Store.mem_update.mpr (Or.inl ⟨hy, hne⟩)⟩
    rcases Store.mem_update.mp hd with ⟨hd, -⟩ | ⟨y, hy, hkey, rfl, hleft⟩
    · exact hs d hd
    · -- the edited one would be marked and without finalizers
      refine absurd ?_ (hleft (Edit.deleting_toFun _ y (hdel y hy hkey)))
      change (if orig.objectMeta.finalizers = modified.objectMeta.finalizers
        then y.objectMeta.finalizers else modified.objectMeta.finalizers) = []
      rw [if_neg (hnil ▸ finalizers_ne_nil hhas), hnil]

end Held

/-- A key in a map when no KiveData are stored. -/
lemma not_keysHeld {w : World} (hnone : w.cluster.kiveData.items = []) {kernelID : String}
    (hkeys : (w.kernels kernelID).tracedInodes.Nonempty) : ¬ KeysHeld w := by
  intro h
  obtain ⟨key, hkey⟩ := hkeys
  obtain ⟨d, hd, -⟩ := h kernelID key hkey
  rw [hnone] at hd
  cases hd

namespace System

/-- A patch with which a data pass takes the finalizer from a KiveData meets no other one under its
name. -/
def MeetsListed (s : System) : Action → Prop
  | .call r fault =>
    match (s.passes r).prog with
    | .call (.patchKiveData orig _) _ =>
      r.2 = .kiveData → Deleting orig → (∀ f ∈ fault, f.carriedOut = true) →
        ∀ x ∈ s.world.cluster.kiveData.items, keyOf x = keyOf orig → uidOf x = uidOf orig
    | _ => True
  | _ => True

instance (s : System) (a : Action) : Decidable (s.MeetsListed a) := by
  delta MeetsListed
  induction a using Action.casesOn with
  | call r fault =>
    dsimp only
    generalize (s.passes r).prog = prog
    induction prog using Prog.casesOn with
    | ret o => exact instDecidableTrue
    | call op k =>
      induction op using Call.casesOn
      case patchKiveData =>
        dsimp only
        infer_instance
      all_goals exact instDecidableTrue
  | _ => exact instDecidableTrue

/-- Data passes run on the elected node of a kernel. -/
def OnLoader (kernelOf loader : String → String) : Action → Prop
  | .start r => r.2 = .kiveData → r.1 = loader (kernelOf r.1)
  | _ => True

/-- The KiveData is not stored any more. -/
def Gone (s : System) (d : KiveData) : Prop :=
  ∀ x ∈ s.world.cluster.kiveData.items, uidOf x ≠ uidOf d

/-- All KiveData of the kernel that are gone were marked for deletion at a moment up to `n`. -/
def MarkedUntil (s : System) (kernelID : String) (n : ℕ) : Prop :=
  ∀ m d, s.StoredAt m d → OfKernel kernelID d → s.Gone d →
    ∃ m' ≤ n, ∃ d', s.StoredAt m' d' ∧ uidOf d' = uidOf d ∧ Deleting d'

/-- What is gone was marked before every later moment. -/
lemma MarkedUntil.mono {s : System} {kernelID : String} {m n : ℕ} (h : s.MarkedUntil kernelID m)
    (hmn : m ≤ n) : s.MarkedUntil kernelID n := by
  intro k d hd hof hgone
  obtain ⟨m', hm', hmark⟩ := h k d hd hof hgone
  exact ⟨m', hm'.trans hmn, hmark⟩

/-- What carries the result: the KiveData have their finalizers, a data pass has listed what was
stored at a moment before which those that are gone were marked, a key is not in the map when the
finalizer is to be taken away, and every key is that of a KiveData. -/
structure Supported (kernelOf loader : String → String) (s : System) : Prop where
  held : AllHeld s.world.cluster.kiveData
  idle : ∀ node, node ≠ loader (kernelOf node) →
    (s.passes (node, .kiveData)).Finished ∧ (s.passes (node, .kiveData)).log = []
  listed : ∀ node, ∃ n ≤ s.kiveDataSeen (kernelOf node), s.MarkedUntil (kernelOf node) n ∧
    ∀ d, ListsKiveData (s.passes (node, .kiveData)).log d →
      OfKernel (kernelOf node) d ∧ s.StoredAt n d
  removed : ∀ node orig modified k,
    (s.passes (node, .kiveData)).prog = .call (.patchKiveData orig modified) k → Deleting orig →
      orig.mapKey ∉ (s.world.kernels (kernelOf node)).tracedInodes
  traced : ∀ kernelID, ∀ key ∈ (s.world.kernels kernelID).tracedInodes,
    ∃ d ∈ s.world.cluster.kiveData.items, OfKernel kernelID d ∧ d.mapKey = key

/-- Every key is then that of a KiveData. -/
lemma Supported.keysHeld {kernelOf loader : String → String} {s : System}
    (h : s.Supported kernelOf loader) : KeysHeld s.world := by
  intro kernelID key hkey
  obtain ⟨d, hd, hof, hdkey⟩ := h.traced kernelID key hkey
  exact ⟨d, hd, hof, h.held d hd, hdkey⟩

/-- A data pass has listed the KiveData as being deleted, and its key is not in the map. -/
def Finalizing (kernelOf : String → String) (s : System) (y : KiveData) : Prop :=
  ∃ node orig, ListsKiveData (s.passes (node, .kiveData)).log orig ∧ Deleting orig ∧
    uidOf orig = uidOf y ∧ y.mapKey ∉ (s.world.kernels (kernelOf node)).tracedInodes

section Steps

variable {owner kernelOf loader : String → String} {s : System}

/-- KiveData that had one identity at different moments have one key and are of one kernel. -/
lemma same_of_uidOf_eq (hrem : s.Remembers) (hbel : s.AllBelong owner kernelOf) {m n : ℕ}
    {d d' : KiveData} (hd : s.StoredAt m d) (hd' : s.StoredAt n d') (huid : uidOf d = uidOf d') :
    d.mapKey = d'.mapKey ∧ ∀ kernelID, OfKernel kernelID d ↔ OfKernel kernelID d' := by
  have hkey : keyOf d = keyOf d' := by
    rcases le_total m n with hmn | hnm
    · exact (hrem.keeps m n d d' hd hd' hmn huid).1
    · exact (hrem.keeps n m d' d hd' hd hnm huid.symm).1.symm
  exact (hbel.past m d hd).same (hbel.past n d' hd') hkey

/-- The world changes, and only KiveData go whose key has been removed. -/
lemma Supported.moveTo (h : s.Supported kernelOf loader) (hrem : s.Remembers)
    (hbel : s.AllBelong owner kernelOf) {w : World}
    (hgrows : s.world.cluster.kiveData.Grows w.cluster.kiveData)
    (hbelong : ∀ d ∈ w.cluster.kiveData.items, Belongs owner kernelOf d)
    (hheld : AllHeld w.cluster.kiveData)
    (hkeep : ∀ y ∈ s.world.cluster.kiveData.items,
      (∃ z ∈ w.cluster.kiveData.items, uidOf z = uidOf y) ∨ s.Finalizing kernelOf y)
    (hmaps : ∀ kernelID, ∀ key ∈ (w.kernels kernelID).tracedInodes,
      key ∈ (s.world.kernels kernelID).tracedInodes ∨
        ∃ d ∈ w.cluster.kiveData.items, OfKernel kernelID d ∧ d.mapKey = key)
    (hremoved : ∀ node orig modified k,
      (s.passes (node, .kiveData)).prog = .call (.patchKiveData orig modified) k → Deleting orig →
        orig.mapKey ∉ (w.kernels (kernelOf node)).tracedInodes) :
    (s.moveTo w).Supported kernelOf loader := by
  obtain ⟨now, -, hnow⟩ := hrem.exists_now
  -- what has gone was marked, if not before then when it was listed
  have hmarked : ∀ kernelID n, s.MarkedUntil kernelID n →
      (∀ node orig, ListsKiveData (s.passes (node, .kiveData)).log orig →
        kernelOf node = kernelID → ∃ m ≤ n, s.StoredAt m orig) →
      (s.moveTo w).MarkedUntil kernelID n := by
    intro kernelID n hmarked hlisted m d hd hof hgone
    rcases storedAt_moveTo.mp hd with hd | ⟨-, hd⟩
    · by_cases hstill : s.Gone d
      · obtain ⟨m', hm', d', hd', huid, hdel⟩ := hmarked m d hd hof hstill
        exact ⟨m', hm', d', storedAt_moveTo.mpr (Or.inl hd'), huid, hdel⟩
      · obtain ⟨y, hy, hyuid⟩ : ∃ y ∈ s.world.cluster.kiveData.items, uidOf y = uidOf d := by
          by_contra hno
          exact hstill fun x hx huid => hno ⟨x, hx, huid⟩
        rcases hkeep y hy with ⟨z, hz, hzuid⟩ | ⟨node, orig, horig, hdel, huid, -⟩
        · exact absurd (hzuid.trans hyuid) (hgone z hz)
        · obtain ⟨n', -, -, hn'⟩ := h.listed node
          obtain ⟨hof', hat⟩ := hn' orig horig
          have hsame := (same_of_uidOf_eq hrem hbel hat hd (huid.trans hyuid)).2 kernelID
          obtain ⟨m', hm', hat'⟩ := hlisted node orig horig (hof'.unique (hsame.mpr hof))
          exact ⟨m', hm', orig, storedAt_moveTo.mpr (Or.inl hat'), huid.trans hyuid, hdel⟩
    · exact absurd rfl (hgone d hd)
  refine ⟨hheld, h.idle, fun node => ?_, hremoved, fun kernelID key hkey => ?_⟩
  · obtain ⟨n, hn, hmark, hlist⟩ := h.listed node
    by_cases hlog : (s.passes (node, .kiveData)).log = []
    · refine ⟨s.kiveDataSeen (kernelOf node), le_rfl, hmarked _ _ (hmark.mono hn) ?_, ?_⟩
      · intro node' orig horig hsame
        obtain ⟨n', hn', -, hlist'⟩ := h.listed node'
        exact ⟨n', hsame ▸ hn', (hlist' orig horig).2⟩
      · intro d hd
        have hd : ListsKiveData (s.passes (node, .kiveData)).log d := hd
        rw [hlog] at hd
        exact absurd hd (not_listsKiveData_nil d)
    · -- a pass with calls is that of the elected node
      have hloader : ∀ node', (s.passes (node', .kiveData)).log ≠ [] →
          node' = loader (kernelOf node') := fun node' hne => by
        by_contra hnot
        exact hne (h.idle node' hnot).2
      refine ⟨n, hn, hmarked _ _ hmark fun node' orig horig hsame => ?_, fun d hd => ?_⟩
      · have hne : (s.passes (node', .kiveData)).log ≠ [] := by
          intro hnil
          rw [hnil] at horig
          exact not_listsKiveData_nil orig horig
        have heq : node' = node := by
          rw [hloader node' hne, hsame]
          exact (hloader node hlog).symm
        exact ⟨n, le_rfl, (hlist orig (heq ▸ horig)).2⟩
      · exact ⟨(hlist d hd).1, storedAt_moveTo.mpr (Or.inl (hlist d hd).2)⟩
  · rcases hmaps kernelID key hkey with hold | hnew
    · obtain ⟨d, hd, hof, hdkey⟩ := h.traced kernelID key hold
      rcases hkeep d hd with ⟨z, hz, huid⟩ | ⟨node, orig, horig, -, huid, hkey'⟩
      · have hlt : uidOf z < s.world.cluster.kiveData.nextUID :=
          huid ▸ s.world.cluster.kiveData.uid_lt d hd
        obtain ⟨x, hx, hxuid, hxkey, -⟩ := hgrows.origin z hz hlt
        obtain rfl := s.world.cluster.kiveData.eq_of_uidOf_eq hx hd (hxuid.trans huid)
        obtain ⟨hmap, hkernel⟩ := (hbel.stored x hd).same (hbelong z hz) hxkey
        exact ⟨z, hz, (hkernel kernelID).mp hof, hmap.symm.trans hdkey⟩
      · obtain ⟨n, -, -, hlist⟩ := h.listed node
        obtain ⟨hof', hat⟩ := hlist orig horig
        have hsame := (same_of_uidOf_eq hrem hbel hat ((hnow d).mpr hd) huid).2 kernelID
        rw [hof'.unique (hsame.mpr hof), hdkey] at hkey'
        exact absurd hold hkey'
    · exact hnew

/-- A run starts or goes on. -/
lemma Supported.setPass (h : s.Supported kernelOf loader) {r : Runner}
    {t : Thread Call.Answer Outcome}
    (hr : r.2 = .kiveData → r.1 = loader (kernelOf r.1))
    (hlisted : r.2 = .kiveData → ∃ n ≤ s.kiveDataSeen (kernelOf r.1),
      s.MarkedUntil (kernelOf r.1) n ∧ ∀ d, ListsKiveData t.log d →
        OfKernel (kernelOf r.1) d ∧ s.StoredAt n d)
    (hremoved : r.2 = .kiveData → ∀ orig modified k,
      t.prog = .call (.patchKiveData orig modified) k → Deleting orig →
        orig.mapKey ∉ (s.world.kernels (kernelOf r.1)).tracedInodes) :
    (s.setPass r t).Supported kernelOf loader := by
  refine ⟨h.held, fun node hnode => ?_, fun node => ?_, fun node => ?_, h.traced⟩
  all_goals rcases eq_or_ne (node, Controller.kiveData) r with heq | hne
  · subst heq
    exact absurd (hr rfl) hnode
  · rw [setPass_passes_of_ne s hne]
    exact h.idle node hnode
  · subst heq
    rw [setPass_passes_self]
    exact hlisted rfl
  · rw [setPass_passes_of_ne s hne]
    exact h.listed node
  · subst heq
    rw [setPass_passes_self]
    exact hremoved rfl
  · rw [setPass_passes_of_ne s hne]
    exact h.removed node

/-- A data pass that makes calls is that of the elected node. -/
lemma Supported.loader_of_call (h : s.Supported kernelOf loader) {node : String} {op : Call}
    {k : op.Answer → CallProg Outcome}
    (hprog : (s.passes (node, .kiveData)).prog = .call op k) : node = loader (kernelOf node) := by
  by_contra hnode
  obtain ⟨a, ha⟩ := (h.idle node hnode).1
  cases hprog.symm.trans ha

/-- A KiveData that a data pass has listed as not being deleted is stored. -/
lemma Supported.stored_of_lists (h : s.Supported kernelOf loader) (hrem : s.Remembers)
    (hbel : s.AllBelong owner kernelOf) {node : String} {d : KiveData}
    (hd : ListsKiveData (s.passes (node, .kiveData)).log d) (hlive : ¬ Deleting d) :
    ∃ x ∈ s.world.cluster.kiveData.items, OfKernel (kernelOf node) x ∧ x.mapKey = d.mapKey := by
  obtain ⟨n, -, hmark, hlist⟩ := h.listed node
  obtain ⟨hof, hat⟩ := hlist d hd
  by_cases hgone : s.Gone d
  · -- it would have been marked before it was listed
    obtain ⟨m, hmn, d', hat', huid, hdel⟩ := hmark n d hat hof hgone
    exact absurd ((hrem.keeps m n d' d hat' hat hmn huid).2 hdel) hlive
  · obtain ⟨x, hx, huid⟩ : ∃ x ∈ s.world.cluster.kiveData.items, uidOf x = uidOf d := by
      by_contra hno
      exact hgone fun x hx huid => hno ⟨x, hx, huid⟩
    obtain ⟨now, -, hnow⟩ := hrem.exists_now
    obtain ⟨hkey, hkernel⟩ := same_of_uidOf_eq hrem hbel ((hnow x).mpr hx) hat huid
    exact ⟨x, hx, (hkernel _).mpr hof, hkey⟩

section Call

variable {std : Std} {podFields : PodFields}

/-- A call puts no keys into a map but the one that it names. -/
lemma mem_tracedInodes_of_call {r : Runner} {fault : Option Fault} {op : Call} {w : World}
    {kernelID : String} {key : BpfMapKey}
    (h : key ∈ ((runnerHandle std podFields kernelOf r fault op w).2.kernels
      kernelID).tracedInodes) :
    key ∈ (w.kernels kernelID).tracedInodes ∨ (op = .addInode key ∧ kernelID = kernelOf r.1) := by
  rcases eq_or_ne kernelID (kernelOf r.1) with rfl | hne
  · rw [runnerHandle, kernels_handleFault] at h
    cases op
    case addInode mapKey =>
      by_cases hkey : key = mapKey
      · exact Or.inr ⟨by rw [hkey], rfl⟩
      · refine Or.inl ?_
        rw [kernelAfter, Kernel.addInode] at h
        split_ifs at h
        · exact (TracedInodes.mem_of_mem_addInode h).resolve_left hkey
        · exact h
    case removeInode mapKey =>
      rw [kernelAfter, Kernel.tracedInodes_removeInode] at h
      exact Or.inl (Finset.mem_of_mem_erase h)
    case loadEbpf => exact absurd h (Finset.notMem_empty key)
    all_goals exact Or.inl h
  · rw [runnerHandle, kernels_handleFault_of_ne std podFields r.1 _ fault op w hne] at h
    exact Or.inl h

/-- The key that a call puts into a map is that of a stored KiveData. -/
lemma Supported.traced_call (h : s.Supported kernelOf loader) (hkeeps : s.KeepsTo std kernelOf)
    (hrem : s.Remembers) (hbel : s.AllBelong owner kernelOf) {r : Runner} {key : BpfMapKey}
    {k : Call.Answer (.addInode key) → CallProg Outcome}
    (hprog : (s.passes r).prog = .call (.addInode key) k) :
    ∃ x ∈ s.world.cluster.kiveData.items, OfKernel (kernelOf r.1) x ∧ x.mapKey = key := by
  have hcall := hkeeps.passCall hprog
  obtain ⟨node, c⟩ := r
  cases c with
  | kivePolicy => exact absurd hcall id
  | kivePod => exact absurd hcall id
  | kiveData =>
    obtain ⟨d, hd, hlive, -, rfl⟩ := hcall
    exact h.stored_of_lists hrem hbel hd hlive

variable (podFields) in
/-- The KiveData that a call leaves. -/
lemma Supported.kept_call (h : s.Supported kernelOf loader) (hkeeps : s.KeepsTo std kernelOf)
    (hstamped : s.AllStamped) (hrem : s.Remembers) (hbel : s.AllBelong owner kernelOf) {r : Runner}
    {fault : Option Fault} {op : Call} {k : op.Answer → CallProg Outcome}
    (hprog : (s.passes r).prog = .call op k) (hmeets : s.MeetsListed (.call r fault)) :
    let w := (runnerHandle std podFields kernelOf r fault op s.world).2
    AllHeld w.cluster.kiveData ∧ ∀ y ∈ s.world.cluster.kiveData.items,
      (∃ z ∈ w.cluster.kiveData.items, uidOf z = uidOf y) ∨ s.Finalizing kernelOf y := by
  intro w
  have hcall := hkeeps.passCall hprog
  have hsame : ∀ {s' : Store KiveData}, HeldOn s.world.cluster.kiveData s' →
      w.cluster.kiveData = s' →
      AllHeld w.cluster.kiveData ∧ ∀ y ∈ s.world.cluster.kiveData.items,
        (∃ z ∈ w.cluster.kiveData.items, uidOf z = uidOf y) ∨ s.Finalizing kernelOf y := by
    rintro s' hs' heq
    rw [heq]
    exact ⟨hs'.held, fun y hy => Or.inl (hs'.kept y hy)⟩
  rcases kiveData_handleFault std podFields r.1 (kernelOf r.1) fault op s.world with heq | heq
  · exact hsame (HeldOn.refl h.held) heq
  · cases op
    case applyKiveData site config =>
      obtain ⟨-, cd, -, rfl⟩ := passCall_applyKiveData hcall
      exact hsame (heldOn_applyKiveData h.held rfl) heq
    case deleteKiveData d => exact hsame (heldOn_delete h.held _) heq
    case patchKiveData orig modified =>
      obtain ⟨hlisted, ⟨time, rfl⟩ | ⟨hr, hdel, hdue, rfl, -⟩ | ⟨-, -, -, rfl⟩⟩ :=
        passCall_patchKiveData hcall
      · refine hsame (heldOn_patch h.held ?_) heq
        exact Or.inl rfl
      · obtain ⟨node, c⟩ := r
        obtain rfl : c = .kiveData := hr
        by_cases hfault : ∀ f ∈ fault, f.carriedOut = true
        · have hmeet : ∀ x ∈ s.world.cluster.kiveData.items, keyOf x = keyOf orig →
              uidOf x = uidOf orig := by
            have hmeets' := hmeets
            rw [MeetsListed, hprog] at hmeets'
            exact hmeets' rfl hdel hfault
          obtain ⟨n, -, -, hlist⟩ := h.listed node
          obtain ⟨-, hat⟩ := hlist orig hlisted
          obtain ⟨now, -, hnow⟩ := hrem.exists_now
          obtain ⟨hheld, hkept⟩ := heldOn_removeFinalizer h.held
            (hstamped.listed _ orig hlisted).finalizers (hdue.mp hdel) fun x hx hkey =>
              (hrem.keeps_now hat hx (hmeet x hx hkey).symm).2 hdel
          rw [show w.cluster.kiveData = _ from heq]
          refine ⟨hheld, fun y hy => ?_⟩
          by_cases hkey : keyOf y = keyOf orig
          · have huid := (hmeet y hy hkey).symm
            have hmap := (same_of_uidOf_eq hrem hbel hat ((hnow y).mpr hy) huid).1
            exact Or.inr ⟨node, orig, hlisted, hdel, huid, hmap ▸ h.removed _ _ _ _ hprog hdel⟩
          · exact Or.inl ⟨y, hkept y hy hkey, rfl⟩
        · -- the patch is not carried out
          refine hsame (HeldOn.refl h.held) ?_
          obtain ⟨f, hf, hnot⟩ : ∃ f ∈ fault, f.carriedOut ≠ true := by
            by_contra hno
            exact hfault fun f hf => by_contra fun hnot => hno ⟨f, hf, hnot⟩
          obtain rfl := Option.mem_def.mp hf
          rw [show w = s.world from handleFault_of_not_carriedOut std podFields _ _ hnot rfl _]
      · refine hsame (heldOn_patch h.held ?_) heq
        exact Or.inr (containsFinalizer_addFinalizer orig _)
    all_goals exact hsame (HeldOn.refl h.held) heq

/-- Keys are put into the maps by data passes alone. -/
lemma controller_of_addInode (hkeeps : s.KeepsTo std kernelOf) {r : Runner} {key : BpfMapKey}
    {k : Call.Answer (.addInode key) → CallProg Outcome}
    (hprog : (s.passes r).prog = .call (.addInode key) k) : r.2 = .kiveData := by
  have hcall := hkeeps.passCall hprog
  obtain ⟨node, c⟩ := r
  cases c with
  | kivePolicy => exact absurd hcall id
  | kivePod => exact absurd hcall id
  | kiveData => rfl

variable (podFields) in
/-- The world after a call. -/
lemma Supported.moveTo_call (h : s.Supported kernelOf loader) (hkeeps : s.KeepsTo std kernelOf)
    (hstamped : s.AllStamped) (hrem : s.Remembers) (hbel : s.AllBelong owner kernelOf) {r : Runner}
    {fault : Option Fault} {op : Call} {k : op.Answer → CallProg Outcome}
    (hprog : (s.passes r).prog = .call op k) (hmeets : s.MeetsListed (.call r fault)) :
    (s.moveTo (runnerHandle std podFields kernelOf r fault op s.world).2).Supported kernelOf
      loader := by
  have hbel' : (act std podFields kernelOf s (.call r fault)).AllBelong owner kernelOf :=
    hbel.act hkeeps trivial
  rw [act_call hprog] at hbel'
  obtain ⟨hheld, hkeep⟩ := h.kept_call podFields hkeeps hstamped hrem hbel hprog hmeets
  refine h.moveTo hrem hbel (grows_runnerHandle r fault op s.world) hbel'.stored hheld hkeep
    (fun kernelID key hkey => ?_) fun node orig modified k' hprog' hdel hkey => ?_
  · rcases mem_tracedInodes_of_call hkey with hold | ⟨rfl, rfl⟩
    · exact Or.inl hold
    · have hsame : (runnerHandle std podFields kernelOf r fault (.addInode key)
          s.world).2.cluster.kiveData = s.world.cluster.kiveData :=
        (kiveData_handleFault std podFields r.1 (kernelOf r.1) fault (.addInode key) s.world).elim
          id id
      rw [hsame]
      exact Or.inr (h.traced_call hkeeps hrem hbel hprog)
  · rcases mem_tracedInodes_of_call hkey with hold | ⟨rfl, hsame⟩
    · exact h.removed node orig modified k' hprog' hdel hold
    · -- both are the pass of the elected node, which makes one call at a time
      obtain ⟨node', c⟩ := r
      obtain rfl : c = .kiveData := controller_of_addInode hkeeps hprog
      have heq : node = node' := by
        rw [h.loader_of_call hprog', hsame]
        exact (h.loader_of_call hprog).symm
      subst heq
      cases hprog'.symm.trans hprog

/-- What a data pass has listed after its next call. -/
lemma Supported.listed_call {w : World} (h : (s.moveTo w).Supported kernelOf loader)
    (hkeeps : s.KeepsTo std kernelOf) (hrem : s.Remembers) {node : String} {fault : Option Fault}
    {op : Call} {k : op.Answer → CallProg Outcome}
    (hprog : (s.passes (node, .kiveData)).prog = .call op k) :
    let answer := (runnerHandle std podFields kernelOf (node, .kiveData) fault op s.world).1
    ∃ n ≤ s.kiveDataSeen (kernelOf node), (s.moveTo w).MarkedUntil (kernelOf node) n ∧
      ∀ d, ListsKiveData ((s.passes (node, .kiveData)).log ++ [⟨op, answer⟩]) d →
        OfKernel (kernelOf node) d ∧ (s.moveTo w).StoredAt n d := by
  intro answer
  obtain ⟨n, hn, hmark, hlist⟩ := h.listed node
  by_cases hop : ∃ reader labels, op = .listKiveData reader labels
  · -- the list is that of the moment which the cache shows
    obtain ⟨reader, labels, rfl⟩ := hop
    obtain ⟨rfl, rfl, hnone⟩ := hkeeps.passCall hprog
    refine ⟨_, le_rfl, hmark.mono hn, fun d hd => ?_⟩
    obtain ⟨reader, labels, items, hmem, hd⟩ := hd
    rcases List.mem_append.mp hmem with hmem | hmem
    · exact absurd ⟨reader, labels, items, hmem, hd⟩ (hnone d)
    · obtain ⟨heq, ha⟩ := Sigma.mk.inj (List.mem_singleton.mp hmem)
      obtain ⟨rfl, rfl⟩ := Call.listKiveData.inj heq
      have hanswer := handleFault_eq_of_answer std podFields node (kernelOf node)
        (eq_of_heq ha).symm (by simp [Call.refuse])
      obtain rfl := Except.ok.inj hanswer
      rw [listKiveData_kiveDataLabels, List.mem_filter, decide_eq_true_iff] at hd
      exact ⟨hd.2, storedAt_moveTo.mpr (Or.inl ⟨_, hrem.cached (kernelOf node), hd.1⟩)⟩
  · refine ⟨n, hn, hmark, fun d hd => hlist d (hd.of_append ?_)⟩
    exact fun reader labels heq => hop ⟨reader, labels, heq⟩

/-- A data pass that is about to take the finalizer away has just removed the key. -/
lemma KeepsTo.removed_last (hkeeps : s.KeepsTo std kernelOf) {node : String}
    {orig modified : KiveData}
    {k : Call.Answer (.patchKiveData orig modified) → CallProg Outcome}
    (hprog : (s.passes (node, .kiveData)).prog = .call (.patchKiveData orig modified) k)
    (hdel : Deleting orig) :
    ∃ front answer, (s.passes (node, .kiveData)).log =
      front ++ [⟨.removeInode orig.mapKey, answer⟩] := by
  obtain ⟨-, -, ⟨-, -, hlog⟩ | ⟨hnot, -⟩⟩ := hkeeps.passCall hprog
  · exact hlog
  · exact absurd hdel hnot

/-- A call. -/
lemma Supported.call (h : s.Supported kernelOf loader) (hkeeps : s.KeepsTo std kernelOf)
    (hstamped : s.AllStamped) (hrem : s.Remembers) (hbel : s.AllBelong owner kernelOf) {r : Runner}
    {fault : Option Fault} {op : Call} {k : op.Answer → CallProg Outcome}
    (hprog : (s.passes r).prog = .call op k) (hmeets : s.MeetsListed (.call r fault)) :
    (act std podFields kernelOf s (.call r fault)).Supported kernelOf loader := by
  have hmoved := h.moveTo_call podFields hkeeps hstamped hrem hbel hprog hmeets
  have hkeeps' : (System.act std podFields kernelOf s (.call r fault)).KeepsTo std kernelOf :=
    keepsTo_act s (.call r fault) hkeeps
  rw [act_call hprog] at hkeeps' ⊢
  set w := (runnerHandle std podFields kernelOf r fault op s.world).2 with hw
  refine Supported.setPass hmoved (fun hr => ?_) (fun hr => ?_)
    fun hr orig modified k' ht hdel => ?_
  all_goals
    obtain ⟨node, c⟩ := r
    obtain rfl : c = .kiveData := hr
  · exact h.loader_of_call hprog
  · exact hmoved.listed_call hkeeps hrem hprog
  · have hpass : ∀ t, (((s.setPass (node, .kiveData) t).moveTo w).passes (node, .kiveData)) = t :=
      fun t => setPass_passes_self s _ t
    obtain ⟨front, answer, hlog⟩ :=
      hkeeps'.removed_last ((congrArg Thread.prog (hpass _)).trans ht) hdel
    obtain ⟨-, hlast⟩ := List.append_inj' ((congrArg Thread.log (hpass _)).symm.trans hlog) rfl
    obtain rfl := (Sigma.mk.inj (List.singleton_inj.mp hlast)).1
    have hkernel : w.kernels (kernelOf node) =
        ((s.world.kernels (kernelOf node)).removeInode orig.mapKey).2 :=
      kernels_handleFault std podFields node (kernelOf node) fault _ s.world
    change orig.mapKey ∉ (w.kernels (kernelOf node)).tracedInodes
    rw [hkernel, Kernel.tracedInodes_removeInode]
    exact Finset.notMem_erase _ _

/-- The world changes in other things than KiveData and maps. -/
lemma Supported.moveTo_of_eq (h : s.Supported kernelOf loader) (hrem : s.Remembers)
    (hbel : s.AllBelong owner kernelOf) {w : World}
    (hdata : w.cluster.kiveData = s.world.cluster.kiveData)
    (hkernels : w.kernels = s.world.kernels) : (s.moveTo w).Supported kernelOf loader := by
  refine h.moveTo hrem hbel (hdata ▸ Store.Grows.refl _) (hdata ▸ hbel.stored) (hdata ▸ h.held)
    (fun y hy => Or.inl ⟨y, hdata ▸ hy, rfl⟩) (fun kernelID key hkey => Or.inl ?_)
    fun node orig modified k hprog hdel => ?_
  · rwa [hkernels] at hkey
  · rw [hkernels]
    exact h.removed node orig modified k hprog hdel

/-- A cache catches up. -/
lemma Supported.setKernel (h : s.Supported kernelOf loader) {s' : System} {kernelID : String}
    {kernel : Kernel} (hworld : s'.world = s.world.setKernel kernelID kernel)
    (hkernel : kernel.tracedInodes = (s.world.kernels kernelID).tracedInodes)
    (hpasses : s'.passes = s.passes)
    (hpast : s'.kiveDataPast = s.kiveDataPast)
    (hseen : ∀ kernelID, s.kiveDataSeen kernelID ≤ s'.kiveDataSeen kernelID) :
    s'.Supported kernelOf loader := by
  have hmaps : ∀ kernelID, (s'.world.kernels kernelID).tracedInodes =
      (s.world.kernels kernelID).tracedInodes := by
    intro kernelID'
    rw [hworld]
    rcases eq_or_ne kernelID' kernelID with rfl | hne
    · simpa using hkernel
    · simp [World.setKernel, Function.update_of_ne hne]
  have hdata : s'.world.cluster.kiveData = s.world.cluster.kiveData := by rw [hworld]; rfl
  have hstored : ∀ n d, s'.StoredAt n d ↔ s.StoredAt n d := by
    intro n d
    rw [StoredAt, hpast, StoredAt]
  refine ⟨hdata ▸ h.held, fun node hnode => ?_, fun node => ?_, fun node orig modified k => ?_,
    fun kernelID key => ?_⟩
  · rw [hpasses]
    exact h.idle node hnode
  · obtain ⟨n, hn, hmark, hlist⟩ := h.listed node
    refine ⟨n, hn.trans (hseen _), fun m d hd hof hgone => ?_, fun d hd => ?_⟩
    · rw [Gone, hdata] at hgone
      obtain ⟨m', hm', d', hd', hdel⟩ := hmark m d ((hstored m d).mp hd) hof hgone
      exact ⟨m', hm', d', (hstored m' d').mpr hd', hdel⟩
    · rw [hpasses] at hd
      exact ⟨(hlist d hd).1, (hstored n d).mpr (hlist d hd).2⟩
  · rw [hpasses, hmaps]
    exact h.removed node orig modified k
  · rw [hmaps, hdata]
    exact h.traced kernelID key

/-- Every step of a run keeps it, as long as patches meet the KiveData as they were listed. -/
lemma Supported.act (h : s.Supported kernelOf loader) (hkeeps : s.KeepsTo std kernelOf)
    (hstamped : s.AllStamped) (hrem : s.Remembers) (hbel : s.AllBelong owner kernelOf) {a : Action}
    (hown : a.KnowsOwn owner) (hloader : OnLoader kernelOf loader a) (hmeets : s.MeetsListed a) :
    (System.act std podFields kernelOf s a).Supported kernelOf loader := by
  have hbel' : (System.act std podFields kernelOf s a).AllBelong owner kernelOf :=
    hbel.act hkeeps hown
  cases a with
  | start r =>
    rw [System.act]
    split_ifs
    · refine h.setPass hloader (fun hr => ?_) fun hr orig modified k hprog hdel => ?_
      · obtain ⟨n, hn, hmark, -⟩ := h.listed r.1
        exact ⟨n, hn, hmark, fun d hd => absurd hd (not_listsKiveData_nil d)⟩
      · -- the first call of a pass is no patch
        obtain ⟨node, c⟩ := r
        obtain rfl : c = .kiveData := hr
        cases hprog
    · exact h
  | call r fault =>
    cases hprog : (s.passes r).prog with
    | ret o =>
      rw [act_call_of_ret hprog]
      exact h.moveTo_of_eq hrem hbel rfl rfl
    | call op k => exact h.call hkeeps hstamped hrem hbel hprog hmeets
  | deleteKiveData k =>
    have hheld := heldOn_delete h.held k
    exact h.moveTo hrem hbel (s.world.cluster.kiveData.grows_delete k) hbel'.stored hheld.held
      (fun y hy => Or.inl (hheld.kept y hy)) (fun kernelID key hkey => Or.inl hkey) h.removed
  | seeKiveData kernelID n =>
    rw [System.act]
    split_ifs with hle
    · cases s.kiveDataPast[n]? with
      | none => exact h
      | some items =>
        refine h.setKernel rfl rfl rfl rfl fun kernelID' => ?_
        rcases eq_or_ne kernelID' kernelID with rfl | hne
        · simpa [System.seeKiveData] using hle
        · simp [System.seeKiveData, Function.update_of_ne hne]
    · exact h
  | seeKivePolicies kernelID n =>
    rw [System.act]
    split_ifs
    · cases s.kivePoliciesPast[n]? with
      | none => exact h
      | some items => exact h.setKernel rfl rfl rfl rfl fun _ => le_rfl
    · exact h
  | _ => exact h.moveTo_of_eq hrem hbel rfl rfl

/-- It holds before anything has happened. -/
lemma supported_ofWorld {w : World} (hw : w.Fresh) : (ofWorld w).Supported kernelOf loader where
  held d hd := by
    have hd : d ∈ w.cluster.kiveData.items := hd
    rw [hw.kiveData] at hd
    cases hd
  idle _ _ := ⟨⟨done, rfl⟩, rfl⟩
  listed node := by
    refine ⟨0, le_rfl, fun m d hd => ?_, fun d hd => absurd hd (not_listsKiveData_nil d)⟩
    obtain ⟨items, hitems, hd⟩ := hd
    obtain rfl := List.mem_singleton.mp (List.mem_of_getElem? hitems)
    rw [hw.kiveData] at hd
    cases hd
  removed _ _ _ _ hprog := by cases hprog
  traced kernelID key hkey := by
    have hkey : key ∈ (w.kernels kernelID).tracedInodes := hkey
    rw [hw.tracedInodes] at hkey
    exact absurd hkey (Finset.notMem_empty key)

end Call

end Steps

end System

/-- Whatever happens, every key in a map is that of a stored KiveData of the kernel with the
finalizer, if no patch that takes a finalizer away meets another KiveData than the one it was made
for. -/
theorem keysHeld_run (std : Std) (podFields : PodFields) {owner kernelOf loader : String → String}
    {w : World} (hw : w.Fresh) (hhosts : ∀ node, KnowsOwn owner node (w.hosts node))
    {actions : List Action}
    (hactions : ∀ a ∈ actions, a.KnowsOwn owner ∧ System.OnLoader kernelOf loader a)
    (hmeets : System.Along std podFields kernelOf System.MeetsListed actions (.ofWorld w)) :
    KeysHeld (System.run std podFields kernelOf actions (.ofWorld w)).world := by
  let I : System → Prop := fun s => s.KeepsTo std kernelOf ∧ s.AllStamped ∧ s.Remembers ∧
    s.AllBelong owner kernelOf ∧ s.Supported kernelOf loader
  have hact : ∀ s, ∀ a ∈ actions, s.MeetsListed a → I s →
      I (System.act std podFields kernelOf s a) := by
    rintro s a ha hmeet ⟨hkeeps, hstamped, hrem, hbel, hsupp⟩
    obtain ⟨hown, hloader⟩ := hactions a ha
    exact ⟨System.keepsTo_act s a hkeeps, hstamped.act hkeeps a, System.remembers_act s a hrem,
      hbel.act hkeeps hown, hsupp.act hkeeps hstamped hrem hbel hown hloader hmeet⟩
  have hinit : I (.ofWorld w) := ⟨System.keepsTo_ofWorld w, System.allStamped_ofWorld hw,
    System.remembers_ofWorld hw, System.allBelong_ofWorld hw hhosts, System.supported_ofWorld hw⟩
  exact (System.run_induction_of hact hmeets hinit).2.2.2.2.keysHeld

/-! ## A KiveData that takes the name of another -/

namespace StaleKeys

open TrapRecords (host std)

/-- The cluster with one trap, in which one node has the container. -/
def world : World :=
  { StaleFiles.world with
    hosts := fun node => if node = "node" then host else { host with containers := .ok [] } }

/-- No KiveData, no passes, no caches. -/
lemma fresh_world : world.Fresh := ⟨rfl, fun _ => rfl, fun _ => rfl, fun _ => rfl⟩

/-- Every container is on the one node. -/
lemma knowsOwn_world (node : String) : KnowsOwn (fun _ => "node") node (world.hosts node) := by
  rintro id ⟨containers, hcontainers, hid⟩
  by_cases hnode : node = "node"
  · subst hnode
    obtain rfl := Except.ok.inj hcontainers
    obtain rfl := List.mem_singleton.mp hid
    exact ⟨rfl, by decide⟩
  · rw [show world.hosts node = { host with containers := .ok [] } from if_neg hnode] at hcontainers
    obtain rfl := Except.ok.inj hcontainers
    cases hid

/-- A policy pass with its seven calls. -/
def policyPass : List Action :=
  .start ("node", .kivePolicy) :: List.replicate 7 (.call ("node", .kivePolicy) none)

/-- A data pass with some calls, after the cache has come to show a moment. -/
def dataPass (moment calls : ℕ) : List Action :=
  .seeKiveData "k1" moment :: .start ("node", .kiveData) ::
    List.replicate calls (.call ("node", .kiveData) none)

/-- A user deletes the KiveData that a policy pass has made. -/
def delete : Action := .deleteKiveData (operatorNamespace, "7-8388609-kive-data-web-aa")

/-- The KiveData is made, deleted by a user and finalized. -/
def finalized : List Action := policyPass ++ delete :: dataPass 8 6

/-- It is made again, a data pass has an old list, the next one a newer list, and a user deletes the
KiveData again. -/
def again : List Action := policyPass ++ dataPass 8 5 ++ dataPass 21 5 ++ [delete]

/-- Data passes with current lists put the key of the KiveData into the map, finalize it when a user
has deleted it, and put the key into the map when the KiveData has been made again. -/
def held : List Action :=
  policyPass ++ dataPass 7 6 ++ delete :: dataPass 14 5 ++ policyPass ++ dataPass 26 6

def after (actions : List Action) : System :=
  System.run std .standard (fun _ => "k1") actions (.ofWorld world)

/-- In these runs each node knows the containers of its own, and one node runs the data passes. -/
lemma regular {actions : List Action} (hactions : ∀ a ∈ actions, a ∈ finalized ++ again ++ held) :
    ∀ a ∈ actions, a.KnowsOwn (fun _ => "node") ∧
      System.OnLoader (fun _ => "k1") (fun _ => "node") a := by
  have hall : ∀ a ∈ finalized ++ again ++ held, a.KnowsOwn (fun _ => "node") ∧
      System.OnLoader (fun _ => "k1") (fun _ => "node") a := by
    simp [finalized, again, held, policyPass, dataPass, delete, Action.KnowsOwn, System.OnLoader]
  exact fun a ha => hall a (hactions a ha)

/-- In the end no KiveData is stored. -/
lemma items_again : (after (finalized ++ again)).world.cluster.kiveData.items = [] := by
  decide +kernel

/-- A key has been left in the map. -/
lemma tracedInodes_again :
    ((after (finalized ++ again)).world.kernels "k1").tracedInodes.Nonempty :=
  ⟨⟨7, 8388609⟩, by decide +kernel⟩

end StaleKeys

open StaleKeys TrapRecords in
/-- The key was put into the map twice and taken out of it once. -/
theorem keysHeld_held :
    KeysHeld (after held).world ∧ ((after held).world.kernels "k1").tracedInodes.Nonempty :=
  ⟨keysHeld_run std .standard fresh_world knowsOwn_world
    (regular fun _ => List.mem_append_right _) (by decide +kernel),
    ⟨⟨7, 8388609⟩, by decide +kernel⟩⟩

open StaleKeys in
/-- The patch that is to finalize a deleted KiveData takes the finalizer from the one that was made
after it under its name.  Its key is put into the map, and it is gone when it is deleted. -/
theorem keysHeld_counterexample :
    world.Fresh ∧ (∀ node, KnowsOwn (fun _ => "node") node (world.hosts node)) ∧
      (∀ a ∈ finalized ++ again, a.KnowsOwn (fun _ => "node") ∧
        System.OnLoader (fun _ => "k1") (fun _ => "node") a) ∧
      ¬ KeysHeld (after (finalized ++ again)).world := by
  refine ⟨fresh_world, knowsOwn_world, regular fun _ => List.mem_append_left _, ?_⟩
  exact not_keysHeld items_again tracedInodes_again

end Kive
