import KiveOperator.Controller.PassEnds
import KiveOperator.Controller.Steps
import KiveOperator.Correctness.StaleKeys

/-!
# What the last data pass leaves

A data pass that has changed no KiveData, and since whose start none has changed, has put the keys
of all KiveData of its kernel into the map that are not being deleted.  `traced_of_nonePending` says
so while the calls of other runs come in between its own.
-/

namespace Kive

open Interaction Object

/-- A key is in the map when it has been set. -/
lemma Kernel.mem_of_addInode {k : Kernel} {mapKey : BpfMapKey}
    (h : (k.addInode mapKey).1.toBool = true) : mapKey ∈ (k.addInode mapKey).2.tracedInodes := by
  unfold Kernel.addInode at h ⊢
  split_ifs at h ⊢
  · by_cases hroom : k.tracedInodes.HasRoom mapKey
    · exact TracedInodes.mem_addInode_self hroom
    · have hok : (k.tracedInodes.addInode mapKey).1.toBool = true := h
      rw [TracedInodes.addInode, if_neg hroom] at hok
      cases hok
  · cases h

namespace Store

variable {α : Type} [Object α] [DecidableEq α] {s : Store α} {x x' : α}

omit [Object α] in
/-- What is there after it was replaced was replaced by itself. -/
lemma eq_of_mem_replace {l : List α} {o : Option α} (h : x ∈ replace l x o) : o = some x := by
  obtain ⟨y, -, hy⟩ := List.mem_filterMap.mp h
  split_ifs at hy with heq
  · exact hy
  · exact absurd (Option.some.inj hy) heq

/-- A patch of the finalizers of an object that is as it was listed changes the store. -/
lemma patch_ne (hx : x ∈ s.items) (h : Refinalizes x x')
    (hforb : Deleting x → (objectMeta x').finalizers ⊆ (objectMeta x).finalizers) (hne : x' ≠ x) :
    (s.patch (keyOf x') (mergeFrom x x')).2.items ≠ s.items := by
  intro hsame
  rw [(patch_of_refinalizes hx h hforb).2] at hsame
  exact hne (settle_eq_some_iff.mp (eq_of_mem_replace (hsame ▸ hx))).1

omit [DecidableEq α] in
/-- So does the deletion of an object that is not being deleted yet. -/
lemma delete_ne (hx : x ∈ s.items) (hlive : ¬ Deleting x) :
    (s.delete (keyOf x)).2.items ≠ s.items := by
  intro hsame
  exact (mem_delete_and_not_deleting.mp ⟨hsame ▸ hx, hlive⟩).2.2 rfl

end Store

namespace System

/-- No request fails, a key that is set finds room, and a cache that is read shows what is
stored. -/
def Undisturbed (kernelOf : String → String) (s : System) : Action → Prop
  | .call r fault => fault.isNone = true ∧
    match (s.passes r).prog with
    | .call (.listKiveData .cached _) _ =>
      (s.world.kernels (kernelOf r.1)).cachedKiveData = s.world.cluster.kiveData.items
    | .call (.listKivePolicies .cached) _ =>
      (s.world.kernels (kernelOf r.1)).cachedKivePolicies = s.world.cluster.kivePolicies.items
    | .call (.addInode mapKey) _ =>
      ((s.world.kernels (kernelOf r.1)).addInode mapKey).1.toBool = true
    | _ => True
  | _ => True

instance (kernelOf : String → String) (s : System) (a : Action) :
    Decidable (s.Undisturbed kernelOf a) := by
  delta Undisturbed
  induction a using Action.casesOn with
  | call r fault =>
    dsimp only
    refine @instDecidableAnd _ _ _ ?_
    generalize (s.passes r).prog = prog
    induction prog using Prog.casesOn with
    | ret o => exact instDecidableTrue
    | call op k =>
      induction op using Call.casesOn
      case listKiveData reader labels =>
        induction reader using Reader.casesOn <;> dsimp only <;> infer_instance
      case listKivePolicies reader =>
        induction reader using Reader.casesOn <;> dsimp only <;> infer_instance
      case addInode mapKey =>
        dsimp only
        infer_instance
      all_goals exact instDecidableTrue
  | _ => exact instDecidableTrue

/-- The KiveData stay as they are. -/
def Unchanging (std : Std) (podFields : PodFields) (kernelOf : String → String) (s : System)
    (a : Action) : Prop :=
  (act std podFields kernelOf s a).world.cluster.kiveData.items = s.world.cluster.kiveData.items

instance (std : Std) (podFields : PodFields) (kernelOf : String → String) (s : System)
    (a : Action) : Decidable (s.Unchanging std podFields kernelOf a) :=
  inferInstanceAs (Decidable (_ = _))

/-- Data passes are those of the elected nodes. -/
def Elected (kernelOf loader : String → String) (s : System) : Prop :=
  ∀ node, node ≠ loader (kernelOf node) → (s.passes (node, .kiveData)).Finished

section Runs

variable {std : Std} {podFields : PodFields} {kernelOf loader : String → String} {s : System}
  {a : Action}

/-- A loader stays elected. -/
lemma Elected.act (h : s.Elected kernelOf loader) (ha : OnLoader kernelOf loader a) :
    (System.act std podFields kernelOf s a).Elected kernelOf loader := by
  intro node hnode
  rcases passes_act std podFields kernelOf s a (node, .kiveData) with
    hsame | ⟨rfl, -, -⟩ | ⟨fault, op, k, -, hprog, -⟩
  · rw [hsame]
    exact h node hnode
  · exact absurd (ha rfl) hnode
  · obtain ⟨o, ho⟩ := h node hnode
    cases hprog.symm.trans ho

/-- Before anything has happened nobody else has loaded the program. -/
lemma elected_ofWorld (w : World) : (ofWorld w).Elected kernelOf loader :=
  fun _ _ => ⟨done, rfl⟩

/-- A run that is about to change a kernel is the data pass of the elected node. -/
lemma Elected.eq_loader (h : s.Elected kernelOf loader) {node : String} {op : Call}
    {k : op.Answer → CallProg Outcome}
    (hprog : (s.passes (node, .kiveData)).prog = .call op k) : node = loader (kernelOf node) := by
  by_contra hnode
  obtain ⟨o, ho⟩ := h node hnode
  cases hprog.symm.trans ho

/-- The runs of other controllers change no kernel. -/
lemma kernelAfter_eq (hkeeps : s.KeepsTo std kernelOf) {r : Runner} (hr : r.2 ≠ .kiveData)
    {op : Call} {k : op.Answer → CallProg Outcome} (hprog : (s.passes r).prog = .call op k)
    (kernel : Kernel) : kernelAfter op kernel = kernel := by
  have hcall := hkeeps.passCall hprog
  obtain ⟨node, c⟩ := r
  cases op
  case loadEbpf => cases c <;> first | exact absurd rfl hr | exact absurd hcall id
  case addInode => cases c <;> first | exact absurd rfl hr | exact absurd hcall id
  case removeInode => cases c <;> first | exact absurd rfl hr | exact absurd hcall id
  all_goals rfl

/-! ## The calls of a pass while nothing changes -/

/-- An answer as it is while the KiveData `items` are stored, to a call that changes none. -/
def Sound (items : List KiveData) : Sigma Call.Answer → Prop
  | ⟨.loadEbpf, answer⟩ => answer = .ok ()
  | ⟨.listKiveData _ labels, answer⟩ => answer = .ok (listKiveData labels items)
  | ⟨.listKivePolicies _, answer⟩ => answer.toBool = true
  | ⟨.patchKiveData _ _, _⟩ => False
  | ⟨.deleteKiveData _, _⟩ => False
  | _ => True

/-- What the data pass of a node has done while the KiveData `items` were stored: it has changed
none of them, and the keys that it has set are in the map as long as it has not removed one. -/
structure DataPassSound (kernelOf : String → String) (node : String) (items : List KiveData)
    (s : System) : Prop where
  stored : s.world.cluster.kiveData.items = items
  obeys : (s.passes (node, .kiveData)).prog.Obeys LoadsBeforeKeys
    (fun _ log => DataPassEnd (kernelOf node) log) (s.passes (node, .kiveData)).log
  sound : ∀ e ∈ (s.passes (node, .kiveData)).log, Sound items e
  traced : NoFinalizing (s.passes (node, .kiveData)).log →
    ∀ mapKey answer,
      (⟨.addInode mapKey, answer⟩ : Sigma Call.Answer) ∈ (s.passes (node, .kiveData)).log →
        mapKey ∈ (s.world.kernels (kernelOf node)).tracedInodes

/-- A call of the pass is answered so, and changes nothing. -/
lemma DataPassSound.call {node : String} {items : List KiveData}
    (h : s.DataPassSound kernelOf node items) (hkeeps : s.KeepsTo std kernelOf) {op : Call}
    {k : op.Answer → CallProg Outcome} (hprog : (s.passes (node, .kiveData)).prog = .call op k)
    {fault : Option Fault} (hund : s.Undisturbed kernelOf (.call (node, .kiveData) fault))
    (hsame : s.Unchanging std podFields kernelOf (.call (node, .kiveData) fault)) :
    Sound items ⟨op, (runnerHandle std podFields kernelOf (node, .kiveData) fault op
      s.world).1⟩ := by
  obtain ⟨hnone, hlive⟩ := hund
  obtain rfl : fault = none := by simpa using hnone
  rw [hprog] at hlive
  rw [Unchanging, act_call hprog] at hsame
  have hcall : DataPassCall (kernelOf node) (s.passes (node, .kiveData)).log op :=
    hkeeps.passCall hprog
  have hlisted : ∀ d, ListsKiveData (s.passes (node, .kiveData)).log d → d ∈ items := by
    rintro d ⟨reader, labels, ds, hmem, hd⟩
    obtain rfl := Except.ok.inj (h.sound _ hmem)
    exact (List.mem_filter.mp hd).1
  rw [← h.stored] at hlisted ⊢
  cases op
  case listKiveData reader labels =>
    obtain ⟨rfl, -, -⟩ := hcall
    exact congrArg (fun ds => Except.ok (listKiveData labels ds)) hlive
  case patchKiveData orig modified =>
    obtain ⟨horig, hdue, ⟨hdel, rfl, -⟩ | ⟨hdel, rfl⟩⟩ := hcall
    · refine Store.patch_ne (hlisted orig horig) (Store.refinalizes_removeFinalizer _ _)
        (fun _ => List.filter_subset_self _) (fun heq => ?_) hsame
      have hhas := hdue.mp hdel
      rw [← heq] at hhas
      simp [containsFinalizer, removeFinalizer] at hhas
    · have hhas : containsFinalizer orig kiveDataFinalizerName = false := by
        rw [← Bool.not_eq_true]
        exact fun hhas => hdel (hdue.mpr hhas)
      refine Store.patch_ne (hlisted orig horig) (Store.refinalizes_addFinalizer hhas)
        (fun h => absurd h hdel) (fun heq => ?_) hsame
      rw [← heq, containsFinalizer_addFinalizer] at hhas
      exact Bool.noConfusion hhas
  case deleteKiveData d =>
    obtain ⟨hd, hdel, -⟩ := hcall
    exact Store.delete_ne (hlisted d hd) hdel hsame
  case listKivePolicies reader => cases reader <;> rfl
  case loadEbpf => rfl
  all_goals trivial

/-- No other call changes the map. -/
lemma tracedInodes_of_ne (hkeeps : s.KeepsTo std kernelOf) (helected : s.Elected kernelOf loader)
    {node : String} (hnode : node = loader (kernelOf node))
    (hne : ∀ fault, a ≠ .call (node, .kiveData) fault) :
    ((System.act std podFields kernelOf s a).world.kernels (kernelOf node)).tracedInodes =
      (s.world.kernels (kernelOf node)).tracedInodes := by
  rcases tracedInodes_act std podFields kernelOf s a (kernelOf node) with
    hsame | ⟨⟨node', c⟩, fault, op, k, rfl, hprog, hkernel, hafter⟩
  · exact hsame
  · rw [hafter, kernelAfter_eq hkeeps (fun hc => ?_) hprog]
    obtain rfl : c = .kiveData := hc
    have hloader : node' = loader (kernelOf node') := helected.eq_loader hprog
    rw [show kernelOf node' = kernelOf node from hkernel, ← hnode] at hloader
    exact hne fault (by rw [hloader])

/-- Every step that changes no KiveData keeps it. -/
lemma DataPassSound.act {node : String} {items : List KiveData}
    (h : s.DataPassSound kernelOf node items) (hkeeps : s.KeepsTo std kernelOf)
    (helected : s.Elected kernelOf loader)
    (hnode : node = loader (kernelOf node)) (hund : s.Undisturbed kernelOf a)
    (hsame : s.Unchanging std podFields kernelOf a) :
    (System.act std podFields kernelOf s a).DataPassSound kernelOf node items := by
  have hsound := @forall_log_act std podFields kernelOf s a (node, .kiveData) _ h.sound
    fun fault op k ha hprog => by
      subst ha
      exact h.call hkeeps hprog hund hsame
  have hobeys := h.obeys
  rcases passes_act std podFields kernelOf s a (node, .kiveData) with
    hlog | ⟨-, -, hstart⟩ | ⟨fault, op, k, rfl, hprog, hnext⟩
  · refine ⟨Eq.trans hsame h.stored, hlog ▸ hobeys, hsound, ?_⟩
    by_cases hcall : ∃ fault, a = .call (node, .kiveData) fault
    · -- a pass at its end
      obtain ⟨fault, rfl⟩ := hcall
      cases hprog : (s.passes (node, .kiveData)).prog with
      | ret o =>
        rw [act_call_of_ret hprog]
        exact h.traced
      | call op k =>
        rw [act_call hprog] at hlog
        have hlog := congrArg (List.length ∘ Thread.log) hlog
        simp [moveTo] at hlog
    · rw [hlog, tracedInodes_of_ne hkeeps helected hnode fun fault ha => hcall ⟨fault, ha⟩]
      exact h.traced
  · refine ⟨Eq.trans hsame h.stored, ?_, hsound, ?_⟩ <;> rw [hstart]
    · exact obeys_dataPass_end std (kernelOf node)
    · exact fun _ _ _ hmem => by cases hmem
  · rw [hprog] at hobeys
    refine ⟨Eq.trans hsame h.stored, ?_, hsound, ?_⟩ <;> rw [hnext]
    · exact hobeys.2 _
    intro hfin mapKey answer hmem
    obtain ⟨hfin, hfin'⟩ := noFinalizing_append.mp hfin
    have hkernel : (System.act std podFields kernelOf s
        (.call (node, .kiveData) fault)).world.kernels (kernelOf node) =
          kernelAfter op (s.world.kernels (kernelOf node)) := by
      rw [act_call hprog]
      exact kernels_handleFault std podFields node (kernelOf node) fault op s.world
    rw [hkernel]
    rcases List.mem_append.mp hmem with hbefore | hnew
    · have hold := h.traced hfin mapKey answer hbefore
      cases op
      case loadEbpf => exact absurd hbefore (hobeys.1 mapKey answer)
      case addInode mapKey' => exact Kernel.mem_tracedInodes_addInode hold mapKey'
      case removeInode mapKey' => cases hfin' _ (List.mem_singleton_self _)
      all_goals exact hold
    · obtain ⟨rfl, -⟩ := Sigma.mk.inj (List.mem_singleton.mp hnew)
      obtain ⟨-, hroom⟩ := hund
      rw [hprog] at hroom
      exact Kernel.mem_of_addInode hroom

/-- At the end of such a pass the keys of the kernel's KiveData are in the map. -/
lemma DataPassSound.traced_of_finished {node : String} {items : List KiveData}
    (h : s.DataPassSound kernelOf node items) (hfin : (s.passes (node, .kiveData)).Finished)
    {d : KiveData} (hd : d ∈ items) (hof : OfKernel (kernelOf node) d) (hlive : ¬ Deleting d) :
    d.mapKey ∈ (s.world.kernels (kernelOf node)).tracedInodes := by
  obtain ⟨o, ho⟩ := hfin
  have hend := h.obeys
  rw [ho] at hend
  cases hend with
  | broken e he hbroken =>
    have hsound := h.sound e he
    obtain ⟨op, answer⟩ := e
    cases op <;> first | exact absurd hbroken id | cases answer
    all_goals first | exact absurd hbroken id | cases hsound
  | patched orig modified answer hpatch => exact absurd (h.sound _ hpatch) id
  | judged ds hlist hnone hall =>
    obtain rfl := Except.ok.inj (h.sound _ hlist)
    have hmem : d ∈ listKiveData (KiveDataReconciler.kiveDataLabels (kernelOf node)) items :=
      List.mem_filter.mpr ⟨hd, matchesLabels_kiveDataLabels.mpr hof⟩
    obtain ⟨⟨op, answer⟩, he, rfl | rfl⟩ := hall d hmem hlive
    · exact absurd (h.sound _ he) id
    · exact h.traced hnone d.mapKey answer he

/-- No data pass of the kernel waits or is at work: the last one has ended, and no KiveData has
changed since it was started. -/
def NonePending (std : Std) (podFields : PodFields) (kernelOf : String → String)
    (kernelID : String) (actions : List Action) (s : System) : Prop :=
  ∃ node front back, kernelOf node = kernelID ∧
    actions = front ++ .start (node, .kiveData) :: back ∧
    ((run std podFields kernelOf front s).passes (node, .kiveData)).Finished ∧
    Along std podFields kernelOf (Unchanging std podFields kernelOf) back
      (System.act std podFields kernelOf (run std podFields kernelOf front s)
        (.start (node, .kiveData))) ∧
    ((run std podFields kernelOf actions s).passes (node, .kiveData)).Finished

/-- Without a pending data pass, the keys of all KiveData of the kernel that are not being deleted
are in the map. -/
theorem traced_of_nonePending {kernelID : String} {w : World} {actions : List Action}
    (hactions : ∀ a ∈ actions, OnLoader kernelOf loader a)
    (hund : Along std podFields kernelOf (Undisturbed kernelOf) actions (ofWorld w))
    (hnone : NonePending std podFields kernelOf kernelID actions (ofWorld w)) {d : KiveData}
    (hd : d ∈ (run std podFields kernelOf actions (ofWorld w)).world.cluster.kiveData.items)
    (hof : OfKernel kernelID d) (hlive : ¬ Deleting d) :
    d.mapKey ∈
      ((run std podFields kernelOf actions (ofWorld w)).world.kernels kernelID).tracedInodes := by
  obtain ⟨node, front, back, rfl, rfl, hready, hsame, hfin⟩ := hnone
  have hnode : node = loader (kernelOf node) :=
    hactions (.start (node, .kiveData)) (List.mem_append_right _ List.mem_cons_self) rfl
  -- up to the start of the last pass
  have hfront := @run_induction_of std podFields kernelOf (fun _ _ => True)
    (fun s => s.KeepsTo std kernelOf ∧ s.Elected kernelOf loader) front
    (fun s a ha _ h => ⟨keepsTo_act s a h.1, h.2.act (hactions a (List.mem_append_left _ ha))⟩)
    (ofWorld w) (along_of_forall (fun _ _ => trivial) _) ⟨keepsTo_ofWorld w, elected_ofWorld w⟩
  set s := run std podFields kernelOf front (ofWorld w) with hs
  set items := s.world.cluster.kiveData.items
  have hsound : (System.act std podFields kernelOf s
      (.start (node, .kiveData))).DataPassSound kernelOf node items := by
    rw [System.act, if_pos hready]
    refine ⟨rfl, ?_, ?_, ?_⟩ <;> rw [setPass_passes_self]
    · exact obeys_dataPass_end std (kernelOf node)
    · exact fun _ he => by cases he
    · exact fun _ _ _ hmem => by cases hmem
  have hkeeps := @keepsTo_act std podFields kernelOf s (.start (node, .kiveData)) hfront.1
  have helected := @Elected.act std podFields kernelOf loader s (.start (node, .kiveData))
    hfront.2 fun _ => hnode
  -- and from there on
  have hend := run_induction_of
    (I := fun s => s.KeepsTo std kernelOf ∧ s.Elected kernelOf loader ∧
      s.DataPassSound kernelOf node items)
    (fun s a ha hP h => ⟨keepsTo_act s a h.1,
      h.2.1.act (hactions a (List.mem_append_right _ (List.mem_cons_of_mem _ ha))),
      h.2.2.act h.1 h.2.1 hnode hP.1 hP.2⟩)
    ((along_append.mp hund).2.2.and hsame) ⟨hkeeps, helected, hsound⟩
  have hrun : run std podFields kernelOf (front ++ .start (node, .kiveData) :: back)
      (ofWorld w) = run std podFields kernelOf back (System.act std podFields kernelOf s
        (.start (node, .kiveData))) := by rw [run_append]; rfl
  rw [hrun] at hfin hd ⊢
  exact hend.2.2.traced_of_finished hfin (hend.2.2.stored ▸ hd) hof hlive

end Runs

end System

end Kive
