import KiveOperator.Controller.SiteLog
import KiveOperator.Correctness.AlertContents
import KiveOperator.Correctness.Delivery
import KiveOperator.Correctness.Detection

/-!
# Where alerts come from

An alert is made of a record of the probe and of a KiveData that was listed.  `origin_run` follows a
KiveData back through all that has happened: a policy pass has applied it, for a trap of a policy
that was stored, a container that the trap selects in a pod that there was, and a file to which the
path of the trap led in it.  With that `alerts_of_traps` says of every alert which trap it is for:
there are no alerts for anything else.
-/

namespace Kive

open Interaction Output

/-- The reconcilers make only such calls. -/
lemma PassCall.reconcilerCall {std : Std} {kernelID : String} {c : Controller}
    {log : List (Sigma Call.Answer)} {op : Call} (h : PassCall std kernelID c log op) :
    ReconcilerCall std kernelID op := by
  cases c with
  | kivePolicy =>
    refine Or.inl ?_
    cases op
    case listKiveData => exact h.1
    case patchKivePolicy => exact ⟨trivial, h.2⟩
    case patchKiveData => exact h.2
    case applyKiveData =>
      obtain ⟨hsite, cd, -, -, hd⟩ := h
      exact ⟨⟨trivial, hsite.2⟩, cd, hd⟩
    case getContainerData => exact ⟨trivial, h.2⟩
    all_goals exact h
  | kivePod =>
    refine Or.inr (Or.inr ?_)
    cases op
    case deleteKiveData => trivial
    all_goals exact h
  | kiveData =>
    refine Or.inr (Or.inl ?_)
    cases op
    case listKiveData => exact ⟨h.1, h.2.1⟩
    case deleteKiveData => trivial
    case addInode => trivial
    case removeInode => trivial
    case patchKiveData =>
      obtain ⟨-, -, ⟨hdel, hmodified, -⟩ | hlive⟩ := h
      · exact Or.inl ⟨hdel, hmodified⟩
      · exact Or.inr hlive
    all_goals exact h

/-- An object name determines inode and device. -/
lemma file_of_newKiveDataName_eq {inode inode' : UInt64} {dev dev' : UInt32} {pod pod' : Pod}
    {c c' : ContainerStatus}
    (h : newKiveDataName inode dev pod c = newKiveDataName inode' dev' pod' c') :
    inode = inode' ∧ dev = dev' := by
  have htext := congrArg String.toList h
  simp only [newKiveDataName, formatUint, String.toList_append, String.toList_ofList,
    show "-".toList = ['-'] from rfl, show "-kive-data-".toList = '-' :: "kive-data-".toList
      from rfl, List.append_assoc, List.cons_append, List.nil_append] at htext
  obtain ⟨hinode, hrest⟩ :=
    append_hyphen_inj (hyphen_notMem_toDigits _) (hyphen_notMem_toDigits _) htext
  obtain ⟨hdev, -⟩ :=
    append_hyphen_inj (hyphen_notMem_toDigits _) (hyphen_notMem_toDigits _) hrest
  exact ⟨UInt64.toNat_inj.mp (toDigits_injective hinode),
    UInt32.toNat_inj.mp (toDigits_injective hdev)⟩

namespace System

section Origins

variable (std : Std) (podFields : PodFields) (kernelOf : String → String) (w : World)

/-- Something held in a world at a moment of the run. -/
def Sometime (actions : List Action) (P : World → Prop) : Prop :=
  ∃ front, front <+: actions ∧ P (run std podFields kernelOf front (ofWorld w)).world

/-- The request for a match group was answered so, at a moment of the run. -/
def SometimeListed (actions : List Action) (g : KiveTrapMatch) (ps : List Pod) : Prop :=
  Sometime std podFields kernelOf w actions fun v => ListedFor podFields v.cluster.pods g ps

/-- What a KiveData bears was applied for a trap of a policy that was stored, a container that the
trap selects, and a file to which the path of the trap led in it. -/
structure OriginIs (actions : List Action) (d : KiveData) (node : String) (site : Site)
    (cd : ContainerData) : Prop where
  stored : Sometime std podFields kernelOf w actions fun v =>
    site.policy ∈ v.cluster.kivePolicies.items
  live : ¬ Deleting site.policy
  trap : site.trap ∈ site.policy.spec.traps
  selected : site.SelectedAs std (SometimeListed std podFields kernelOf w actions)
  found : Sometime std podFields kernelOf w actions fun v =>
    (v.hosts node).Finds site.container site.trap cd
  named : keyOf d = keyOf (kiveDataFor std (kernelOf node) (site, cd))
  bears : Bears d (kiveDataFor std (kernelOf node) (site, cd))

/-- The lists that policy passes have got, the files that passes have found, and the KiveData that
were stored, all go back to what there was. -/
structure Grounded (actions : List Action) (s : System) : Prop where
  listed : ∀ node p, ListsKivePolicy (s.passes (node, .kivePolicy)).log p →
    Sometime std podFields kernelOf w actions fun v => p ∈ v.cluster.kivePolicies.items
  pods : ∀ node, ListsAs (SometimeListed std podFields kernelOf w actions)
    (s.passes (node, .kivePolicy)).log
  found : ∀ r site cd, Found (s.passes r).log site cd →
    Sometime std podFields kernelOf w actions fun v =>
      (v.hosts r.1).Finds site.container site.trap cd
  stored : ∀ d ∈ s.world.cluster.kiveData.items,
    ∃ node site cd, OriginIs std podFields kernelOf w actions d node site cd
  past : ∀ items ∈ s.kiveDataPast, ∀ d ∈ items,
    ∃ node site cd, OriginIs std podFields kernelOf w actions d node site cd

variable {std podFields kernelOf w}

/-- What has been so is still something that has been so after more actions. -/
lemma Sometime.mono {actions actions' : List Action} {P : World → Prop}
    (h : Sometime std podFields kernelOf w actions P) (hmore : actions <+: actions') :
    Sometime std podFields kernelOf w actions' P := by
  obtain ⟨front, hfront, hP⟩ := h
  exact ⟨front, hfront.trans hmore, hP⟩

/-- The origin of a KiveData stays its origin after more actions. -/
lemma OriginIs.mono {actions actions' : List Action} {d : KiveData} {node : String} {site : Site}
    {cd : ContainerData} (h : OriginIs std podFields kernelOf w actions d node site cd)
    (hmore : actions <+: actions') :
    OriginIs std podFields kernelOf w actions' d node site cd :=
  ⟨h.stored.mono hmore, h.live, h.trap, h.selected.mono fun _ _ hps => hps.mono hmore,
    h.found.mono hmore, h.named, h.bears⟩

/-- An edit that leaves alone what alerts are made of. -/
lemma OriginIs.edit {actions : List Action} {d : KiveData} {node : String} {site : Site}
    {cd : ContainerData} (h : OriginIs std podFields kernelOf w actions d node site cd)
    {e : Edit KiveData} (hspec : (e.toFun d).spec = d.spec)
    (hlabels : (e.toFun d).objectMeta.labels = d.objectMeta.labels)
    (hmanaged : (e.toFun d).objectMeta.managedFields = d.objectMeta.managedFields)
    (hann : ∀ key, key ≠ forceReconcile →
      (e.toFun d).objectMeta.annotations.lookup key = d.objectMeta.annotations.lookup key) :
    OriginIs std podFields kernelOf w actions (e.toFun d) node site cd :=
  ⟨h.stored, h.live, h.trap, h.selected, h.found, (e.keyOf_toFun d).trans h.named,
    h.bears.edit hspec hlabels hmanaged hann⟩

/-- What a call of a pass stores goes back to what the pass has listed and found. -/
lemma Grounded.stored_call {actions : List Action} {s : System}
    (h : Grounded std podFields kernelOf w actions s) {r : Runner} {op : Call}
    (hop : PassCall std (kernelOf r.1) r.2 (s.passes r).log op)
    (hselected : r.2 = .kivePolicy →
      AppliesSelected std (SometimeListed std podFields kernelOf w actions) (s.passes r).log op) :
    ∀ d ∈ (writeKiveData s.world.cluster.kiveData op).items,
      ∃ node site cd, OriginIs std podFields kernelOf w actions d node site cd := by
  intro d hd
  -- what was applied last under the name before the call
  obtain ⟨last, hlast, horigin⟩ : ∃ last, BearsLast (keyOf d) s.world.cluster.kiveData last ∧
      ∀ config ∈ last, ∀ y, keyOf y = keyOf d → Bears y config →
        ∃ node site cd, OriginIs std podFields kernelOf w actions y node site cd := by
    cases hfind : s.world.cluster.kiveData.find? (keyOf d) with
    | none =>
      refine ⟨none, fun x hx hkey => absurd hkey ?_, fun _ hc => by cases hc⟩
      exact Store.find?_eq_none_iff.mp hfind x hx
    | some x =>
      obtain ⟨hx, hkey⟩ := Store.find?_eq_some_iff.mp hfind
      obtain ⟨node, site, cd, hx'⟩ := h.stored x hx
      refine ⟨some (kiveDataFor std (kernelOf node) (site, cd)), fun y hy hykey => ?_, ?_⟩
      · obtain rfl := Store.eq_of_keyOf_eq hx hy (hkey.trans hykey.symm)
        exact ⟨_, rfl, hx'.bears⟩
      · rintro config hc y hykey hbears
        obtain rfl := Option.some.inj hc
        exact ⟨node, site, cd, hx'.stored, hx'.live, hx'.trap, hx'.selected, hx'.found,
          (hykey.trans hkey.symm).trans hx'.named, hbears⟩
  obtain ⟨config, hconfig, hbears⟩ := bearsLast_write hop.reconcilerCall hlast d hd rfl
  by_cases hsame : noteApply (keyOf d) s.world.cluster.kiveData last op = last
  · exact horigin config (hsame ▸ hconfig) d rfl hbears
  · -- the call is an apply under the name
    cases op
    case applyKiveData site applied =>
      rw [noteApply] at hconfig hsame
      split_ifs at hconfig hsame with happlied
      · obtain rfl := Option.some.inj hconfig
        obtain ⟨⟨hlisted, hlive, htrap⟩, cd, hfound, rfl⟩ := passCall_applyKiveData hop
        obtain ⟨node, c⟩ := r
        obtain rfl : c = .kivePolicy := controller_of_applyKiveData hop
        exact ⟨node, site, cd, h.listed node _ hlisted, hlive, htrap, hselected rfl (h.pods node),
          h.found _ _ _ hfound, happlied.1.symm, hbears⟩
      · exact absurd rfl hsame
    all_goals exact absurd rfl hsame

/-- In a fresh cluster there is no KiveData. -/
lemma grounded_ofWorld (hw : w.Fresh) : Grounded std podFields kernelOf w [] (ofWorld w) where
  listed node p h := by
    obtain ⟨_, _, hmem, -⟩ := h
    cases hmem
  pods _ _ _ h := by cases h
  found _ _ _ h := by cases h.1
  stored d hd := by
    have hd : d ∈ w.cluster.kiveData.items := hd
    rw [hw.kiveData] at hd
    cases hd
  past items hitems d hd := by
    obtain rfl := List.mem_singleton.mp hitems
    rw [hw.kiveData] at hd
    cases hd

variable (std podFields kernelOf) in
/-- The KiveData of the cluster change when a pass writes them or a user deletes one. -/
lemma kiveData_act (s : System) (a : Action) :
    (act std podFields kernelOf s a).world.cluster.kiveData = s.world.cluster.kiveData ∨
    (∃ k, a = .deleteKiveData k ∧ (act std podFields kernelOf s a).world.cluster.kiveData =
      (s.world.cluster.kiveData.delete k).2) ∨
    ∃ r fault op k, a = .call r fault ∧ (s.passes r).prog = .call op k ∧
      (act std podFields kernelOf s a).world.cluster.kiveData =
        writeKiveData s.world.cluster.kiveData op := by
  cases a with
  | start r =>
    rw [act]
    split_ifs <;> exact Or.inl rfl
  | call r fault =>
    cases hprog : (s.passes r).prog with
    | ret o =>
      rw [act_call_of_ret hprog]
      exact Or.inl rfl
    | call op k =>
      rw [act_call hprog]
      rcases kiveData_handleFault std podFields r.1 (kernelOf r.1) fault op s.world with
        heq | heq
      · exact Or.inl heq
      · exact Or.inr (Or.inr ⟨r, fault, op, k, rfl, hprog, heq⟩)
  | deleteKiveData k => exact Or.inr (Or.inl ⟨k, rfl, rfl⟩)
  | seeKiveData kernelID n =>
    rw [act]
    split_ifs
    · cases s.kiveDataPast[n]? <;> exact Or.inl rfl
    · exact Or.inl rfl
  | seeKivePolicies kernelID n =>
    rw [act]
    split_ifs
    · cases s.kivePoliciesPast[n]? <;> exact Or.inl rfl
    · exact Or.inl rfl
  | _ => exact Or.inl rfl

/-- A user's deletion leaves what alerts are made of. -/
lemma Grounded.stored_delete {actions : List Action} {s : System}
    (h : Grounded std podFields kernelOf w actions s) (k : String × String) :
    ∀ d ∈ (s.world.cluster.kiveData.delete k).2.items,
      ∃ node site cd, OriginIs std podFields kernelOf w actions d node site cd := by
  intro d hd
  rcases s.world.cluster.kiveData.delete_cases k with ⟨-, heq⟩ | ⟨x, -, heq⟩
  · exact h.stored d (by simpa [heq] using hd)
  · rcases Store.mem_update.mp (by simpa [heq] using hd) with ⟨hd, -⟩ | ⟨y, hy, -, rfl, -⟩
    · exact h.stored d hd
    · obtain ⟨node, site, cd, hy'⟩ := h.stored y hy
      exact ⟨node, site, cd, hy'.edit rfl rfl rfl fun _ _ => rfl⟩

/-- A policy pass lists the policies that are stored. -/
lemma mem_of_listKivePolicies {node : String} {fault : Option Fault} {v : World}
    {items : List KivePolicy}
    (ha : (runnerHandle std podFields kernelOf (node, .kivePolicy) fault
      (.listKivePolicies .uncached) v).1 = .ok items) {p : KivePolicy} (hp : p ∈ items) :
    p ∈ v.cluster.kivePolicies.items := by
  have hanswer := handleFault_eq_of_answer std podFields node (kernelOf node) ha
    (by simp [Call.refuse])
  obtain rfl := Except.ok.inj hanswer
  exact hp

/-- The pods that are listed for a match group. -/
lemma listedFor_of_answer {node : String} {fault : Option Fault} {v : World} {g : KiveTrapMatch}
    {ps : List Pod} (ha : (runnerHandle std podFields kernelOf (node, .kivePolicy) fault
      (.listPods g.matchLabels (KivePolicyReconciler.matchingFields g)) v).1 = .ok ps) :
    ListedFor podFields v.cluster.pods g ps := by
  have hanswer := handleFault_eq_of_answer std podFields node (kernelOf node) ha
    (by simp [Call.refuse])
  exact hanswer

/-- Policy passes apply KiveData for selected sites. -/
def Selecting (std : Std) (s : System) : Prop :=
  ∀ Listed, s.Obeying (fun r log op => r.2 = .kivePolicy → AppliesSelected std Listed log op)
    fun _ _ _ => True

/-- Every action keeps the passes applying for selected containers alone. -/
lemma selecting_act (s : System) (a : Action) (h : s.Selecting std) :
    (act std podFields kernelOf s a).Selecting std := by
  refine fun Listed => Obeying.act (h Listed) (fun r => ?_) a
  obtain ⟨node, c⟩ := r
  cases c with
  | kivePolicy =>
    exact (obeys_policyPass_selected std (kernelOf node) Listed).mono (fun _ _ h _ => h)
      fun _ _ h => h
  | _ =>
    exact (obeys_reconcile std (kernelOf node) _).mono (fun _ _ _ h => Controller.noConfusion h)
      fun _ _ h => h

/-- In every run passes apply for selected containers alone. -/
lemma selecting_run (actions : List Action) (w : World) :
    (run std podFields kernelOf actions (ofWorld w)).Selecting std :=
  run_induction selecting_act actions fun _ _ => trivial

/-- What the next action does goes back to what there was, too. -/
lemma Grounded.next {actions : List Action}
    (h : Grounded std podFields kernelOf w actions (run std podFields kernelOf actions (ofWorld w)))
    (a : Action) :
    Grounded std podFields kernelOf w (actions ++ [a])
      (run std podFields kernelOf (actions ++ [a]) (ofWorld w)) := by
  have hkeeps : (run std podFields kernelOf actions (ofWorld w)).KeepsTo std kernelOf :=
    keepsTo_run actions w
  have hselecting : (run std podFields kernelOf actions (ofWorld w)).Selecting std :=
    selecting_run actions w
  have hmore : actions <+: actions ++ [a] := List.prefix_append _ _
  have hrun : run std podFields kernelOf (actions ++ [a]) (ofWorld w) =
      act std podFields kernelOf (run std podFields kernelOf actions (ofWorld w)) a :=
    run_append std podFields kernelOf actions [a] (ofWorld w)
  have hnow : ∀ P : World → Prop, P (run std podFields kernelOf actions (ofWorld w)).world →
      Sometime std podFields kernelOf w (actions ++ [a]) P := fun P hP => ⟨actions, hmore, hP⟩
  have hthen : ∀ P : World → Prop,
      P (run std podFields kernelOf (actions ++ [a]) (ofWorld w)).world →
        Sometime std podFields kernelOf w (actions ++ [a]) P :=
    fun P hP => ⟨_, List.prefix_refl _, hP⟩
  set s := run std podFields kernelOf actions (ofWorld w)
  have hstored : ∀ d ∈ (System.act std podFields kernelOf s a).world.cluster.kiveData.items,
      ∃ node site cd, OriginIs std podFields kernelOf w (actions ++ [a]) d node site cd := by
    intro d hd
    obtain ⟨node, site, cd, hd'⟩ : ∃ node site cd,
        OriginIs std podFields kernelOf w actions d node site cd := by
      rcases kiveData_act std podFields kernelOf s a with
        heq | ⟨k, -, heq⟩ | ⟨r, fault, op, k, -, hprog, heq⟩
      · exact h.stored d (heq ▸ hd)
      · exact h.stored_delete k d (heq ▸ hd)
      · exact h.stored_call (hkeeps.passCall hprog) (Obeying.call (hselecting _) hprog) d (heq ▸ hd)
    exact ⟨node, site, cd, hd'.mono hmore⟩
  rw [hrun] at hthen ⊢
  refine ⟨fun node p hp => ?_, fun node g ps hps => ?_, fun r site cd hcd => ?_, hstored,
    fun items hitems d hd => ?_⟩
  · rcases passes_act std podFields kernelOf s a (node, .kivePolicy) with
      heq | ⟨-, -, heq⟩ | ⟨fault, op, k, rfl, hprog, heq⟩
    · rw [heq] at hp
      exact (h.listed node p hp).mono hmore
    · rw [heq] at hp
      obtain ⟨_, _, hmem, -⟩ := hp
      cases hmem
    · rw [heq] at hp
      obtain ⟨reader, items, hmem, hp⟩ := hp
      rcases List.mem_append.mp hmem with hmem | hmem
      · exact (h.listed node p ⟨reader, items, hmem, hp⟩).mono hmore
      · obtain ⟨rfl, ha⟩ := Sigma.mk.inj (List.mem_singleton.mp hmem)
        obtain rfl : reader = .uncached := hkeeps.passCall hprog
        exact hnow _ (mem_of_listKivePolicies (eq_of_heq ha).symm hp)
  · rcases passes_act std podFields kernelOf s a (node, .kivePolicy) with
      heq | ⟨-, -, heq⟩ | ⟨fault, op, k, rfl, hprog, heq⟩
    · rw [heq] at hps
      exact (h.pods node g ps hps).mono hmore
    · rw [heq] at hps
      cases hps
    · rw [heq] at hps
      rcases List.mem_append.mp hps with hps | hps
      · exact (h.pods node g ps hps).mono hmore
      · obtain ⟨rfl, ha⟩ := Sigma.mk.inj (List.mem_singleton.mp hps)
        exact hnow _ (listedFor_of_answer (eq_of_heq ha).symm)
  · rcases passes_act std podFields kernelOf s a r with
      heq | ⟨-, -, heq⟩ | ⟨fault, op, k, rfl, hprog, heq⟩
    · rw [heq] at hcd
      exact (h.found r site cd hcd).mono hmore
    · rw [heq] at hcd
      cases hcd.1
    · rw [heq] at hcd
      rcases found_append hcd with hcd | hcd
      · exact (h.found r site cd hcd).mono hmore
      · refine hthen _ ?_
        rw [act_call hprog]
        exact hcd
  · rcases past_act s a with ⟨hsame, -⟩ | ⟨hnew, -⟩
    · rw [hsame] at hitems
      obtain ⟨node, site, cd, hd'⟩ := h.past items hitems d hd
      exact ⟨node, site, cd, hd'.mono hmore⟩
    · rw [hnew] at hitems
      rcases List.mem_append.mp hitems with hitems | hitems
      · obtain ⟨node, site, cd, hd'⟩ := h.past items hitems d hd
        exact ⟨node, site, cd, hd'.mono hmore⟩
      · obtain rfl := List.mem_singleton.mp hitems
        exact hstored d hd

variable (std podFields kernelOf) in
/-- Whatever has happened, every KiveData that was stored goes back to a trap and a file. -/
theorem origin_run (hw : w.Fresh) (actions : List Action) :
    Grounded std podFields kernelOf w actions
      (run std podFields kernelOf actions (ofWorld w)) := by
  induction actions using List.reverseRecOn with
  | nil => exact grounded_ofWorld hw
  | append_singleton actions a ih => exact ih.next a

end Origins

end System

/-! ## Alerts -/

/-- The site, its pod without an address. -/
def Site.withoutIP (x : Site) : Site :=
  { x with pod := { x.pod with podIP := "" } }

/-- An alert carries the values of the site that its KiveData goes back to. -/
lemma System.OriginIs.alertFor {std : Std} {podFields : PodFields} {kernelOf : String → String}
    {w : World} {actions : List Action} {d : KiveData} {node : String} {site : Site}
    {cd : ContainerData} (h : OriginIs std podFields kernelOf w actions d node site cd)
    (now : String) (data : LogData) :
    AlertFor (kernelOf node) site.withoutIP (newKiveAlert now data d) := by
  obtain ⟨front, -, hfinds⟩ := h.found
  have hfor : contents (kiveDataFor std (kernelOf node) (site, cd)) =
      siteContents (kernelOf node) site := contents_kiveDataFor hfinds
  have hip : d.objectMeta.annotations.get "ip" = "" := congrArg (Option.getD · "") h.bears.noIP
  exact alertFor_newKiveAlert_iff.mpr ⟨hip, h.bears.contents_eq.trans hfor⟩

namespace Monitor

variable (std : Std) (podFields : PodFields) (kernelOf : String → String) (node : String)
  (kernelIsOld : Bool)

/-- The alert is for a trap of a policy that was stored, and for a container that the trap selects
in a pod that there was; the path of the trap led there to a file with the inode number of the
alert. -/
structure Warranted (w : World) (actions : List Action) (alert : KiveAlert) (node : String)
    (site : Site) (cd : ContainerData) : Prop where
  policy : System.Sometime std podFields kernelOf w actions fun v =>
    site.policy ∈ v.cluster.kivePolicies.items
  live : ¬ Deleting site.policy
  trap : site.trap ∈ site.policy.spec.traps
  pod : System.Sometime std podFields kernelOf w actions fun v => site.pod ∈ v.cluster.pods
  running : site.pod.phase = .running
  container : site.container ∈ site.pod.containerStatuses
  selects : Selects std site.trap site.pod site.container
  found : System.Sometime std podFields kernelOf w actions fun v =>
    (v.hosts node).Finds site.container site.trap cd
  inode : alert.metadata.inode = cd.ino
  contents : AlertFor (kernelOf node) site.withoutIP alert

/-- Every alert that is passed on, in whatever run, is for a trap, and carries the values of the
trap, its policy, the container and the pod, but for the address of the pod.  In these runs users
write policies and delete KiveData; the KiveData themselves are written by the passes alone. -/
theorem alerts_of_traps (hf : podFields.Standard)
    (hip : ∀ f, podFields "metadata.podIP" = some f → f = Pod.podIP) {w : World} (hw : w.Fresh)
    (events : List Event) :
    let s := run std podFields kernelOf node kernelIsOld events (ofWorld w)
    ∀ t ∈ s.outputs, ∀ op a, (⟨op, a⟩ : Sigma OutputCall.Answer) ∈ t.events → op.isAlert = true →
      ∃ alert node' site cd, op = deliver alert ∧
        Warranted std podFields kernelOf w (actions events) alert node' site cd := by
  intro s t ht op a hop halert
  obtain ⟨-, data, items, d, now, -, -, hitems, hfind, rfl⟩ :=
    exists_alert std podFields kernelOf node kernelIsOld events w t ht op a hop halert
  have hsystem : s.system = System.run std podFields kernelOf (actions events) (.ofWorld w) :=
    system_run events (ofWorld w)
  rw [hsystem] at hitems
  obtain ⟨before, after, rfl, hino, -⟩ := findKiveData_eq_some_iff.mp hfind
  have hd : d ∈ before ++ d :: after := List.mem_append_right _ List.mem_cons_self
  obtain ⟨node', site, cd, horigin⟩ :=
    (System.origin_run std podFields kernelOf hw (actions events)).past _ hitems d hd
  -- the name of the KiveData has the inode number
  obtain ⟨pod, c, hnamed, -, -⟩ :=
    ((System.stamped_run hw (actions events)).past _ hitems d hd).named
  have hname := (Prod.mk.inj (hnamed.symm.trans horigin.named)).2
  obtain ⟨g, hg, ps, ⟨front, hfront, hlisted⟩, hpod, hrunning, hcontainer, hmatch⟩ :=
    horigin.selected
  obtain ⟨hpod, hmatches⟩ := podMatches_of_listedFor hf hip hlisted hpod
  exact ⟨_, node', site, cd, rfl,
    { policy := horigin.stored
      live := horigin.live
      trap := horigin.trap
      pod := ⟨front, hfront, hpod⟩
      running := hrunning
      container := hcontainer
      selects := ⟨g, hg, hmatches, hmatch⟩
      found := horigin.found
      inode := hino.symm.trans (file_of_newKiveDataName_eq hname).1
      contents := horigin.alertFor now data }⟩

end Monitor

namespace CalmAccess

open EditedTrap

/-- A policy pass, a data pass, an access to the file, and the goroutine. -/
def events : List Monitor.Event :=
  calm.map .act ++ [.access access] ++ List.replicate 8 (.output 0 none)

/-- The run sends an alert. -/
lemma exists_isAlert :
    ∃ t ∈ (Monitor.run EditedTrap.std .standard (fun _ => "k1") "node" false events
      (.ofWorld StaleKeys.world)).outputs, ∃ e ∈ t.events, e.1.isAlert = true := by
  decide +kernel

end CalmAccess

/-- The alert about the access is for a trap. -/
theorem Monitor.alerts_of_traps_calm :
    ∃ alert node site cd, Monitor.Warranted EditedTrap.std .standard (fun _ => "k1")
      StaleKeys.world (Monitor.actions CalmAccess.events) alert node site cd := by
  obtain ⟨t, ht, ⟨op, a⟩, he, halert⟩ := CalmAccess.exists_isAlert
  obtain ⟨alert, node, site, cd, -, h⟩ :=
    Monitor.alerts_of_traps EditedTrap.std .standard (fun _ => "k1") "node" false
      PodFields.standard_standard (fun f hf => (Option.some.inj hf).symm)
      StaleKeys.fresh_world CalmAccess.events t ht op a he halert
  exact ⟨alert, node, site, cd, h⟩

end Kive
