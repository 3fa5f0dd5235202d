import KiveOperator.Controller.Writes

/-!
# What applies make of the KiveData

A policy pass writes KiveData in two ways: it applies them, and it sets the annotation that wakes
the data reconciler.  `unforcedAt_run` says what is stored under each name after such calls, the
annotation left aside: what the applies under that name make of what was there.
-/

namespace Kive

open Interaction Object

/-! ## KiveData without the wake-up -/

/-- A KiveData without its identity and without the annotation that wakes the data reconciler. -/
def unforced (d : KiveData) : KiveData :=
  { d with objectMeta :=
    { d.objectMeta with
      uid := 0
      annotations := d.objectMeta.annotations.erase forceReconcile } }

/-- The KiveData that is stored under a key. -/
def unforcedAt (s : Store KiveData) (k : String × String) : Option KiveData :=
  (s.find? k).map unforced

/-- What an apply makes of the KiveData under its key, whether or not it is refused. -/
def applyUnforced (config : KiveData) : Option KiveData → Option KiveData
  | some x =>
    if Store.Forbidden x (applyTo config x) then some x else some (unforced (applyTo config x))
  | none =>
    some (unforced { newlyApplied config with
      objectMeta := { (newlyApplied config).objectMeta with deletionTimestamp := false } })

/-- Maps that agree without a key agree without it after a union. -/
lemma erase_union_erase (m n : StrMap) (key : String) :
    (m ∪ n.erase key).erase key = (m ∪ n).erase key := by
  refine Finmap.ext_lookup fun k => ?_
  rcases eq_or_ne k key with rfl | hne
  · rw [Finmap.lookup_erase, Finmap.lookup_erase]
  · rw [Finmap.lookup_erase_ne hne, Finmap.lookup_erase_ne hne]
    by_cases hk : k ∈ m
    · rw [Finmap.lookup_union_left hk, Finmap.lookup_union_left hk]
    · rw [Finmap.lookup_union_right hk, Finmap.lookup_union_right hk,
        Finmap.lookup_erase_ne hne]

/-- Applying makes the same of a KiveData with and without the wake-up. -/
lemma unforced_applyTo (config x : KiveData) :
    unforced (applyTo config (unforced x)) = unforced (applyTo config x) := by
  unfold unforced applyTo
  dsimp only
  rw [erase_union_erase]

/-- What is stored under a key after an apply. -/
lemma unforcedAt_applyKiveData (s : Store KiveData) (config : KiveData) (k : String × String) :
    unforcedAt (applyKiveData s config).2 k =
      if k = keyOf config then applyUnforced config (unforcedAt s k) else unforcedAt s k := by
  by_cases hok : (applyKiveData s config).1 = .ok ()
  · rw [unforcedAt, find?_applyKiveData hok]
    split_ifs with hk
    · subst hk
      rw [unforcedAt, appliedKiveData]
      rcases applyKiveData_cases s config with ⟨⟨err, herr⟩, -⟩ | ⟨x, hx, hforb, -⟩ | ⟨-, hx, -⟩
      · exact absurd (herr.symm.trans hok) (by simp)
      · have hno : ¬ Store.Forbidden (unforced x) (applyTo config (unforced x)) := hforb
        rw [hx, Option.map_some, Option.map_some, applyUnforced, if_neg hno, unforced_applyTo]
      · rw [hx]
        rfl
    · rfl
  · -- a refused apply changes nothing, and finds an object that is being deleted
    obtain ⟨x, hx, hforb, hsame⟩ : ∃ x, s.find? (keyOf config) = some x ∧
        Store.Forbidden x (applyTo config x) ∧ (applyKiveData s config).2 = s := by
      unfold applyKiveData at hok ⊢
      split at hok
      · next x hx =>
        rw [Store.patch, hx] at hok ⊢
        dsimp only at hok ⊢
        split_ifs at hok ⊢ with hforb
        · exact ⟨x, rfl, hforb, rfl⟩
        · exact absurd rfl hok
      · exact absurd rfl hok
    rw [hsame]
    split_ifs with hk
    · subst hk
      have hforb' : Store.Forbidden (unforced x) (applyTo config (unforced x)) := hforb
      rw [unforcedAt, hx, Option.map_some, applyUnforced, if_pos hforb']
    · rfl

/-- Waking the data reconciler changes none of them. -/
lemma unforcedAt_patch_forceReconcile (s : Store KiveData) (d : KiveData) (time : String)
    (k : String × String) :
    unforcedAt (s.patch (keyOf (annotate d forceReconcile time))
      (Store.mergeFrom d (annotate d forceReconcile time))).2 k = unforcedAt s k := by
  have hsame : ∀ x : KiveData,
      unforced ((Store.mergeFrom d (annotate d forceReconcile time)).toFun x) = unforced x := by
    intro x
    have hann : ((Store.mergeFrom d (annotate d forceReconcile time)).toFun
        x).objectMeta.annotations.erase forceReconcile =
          x.objectMeta.annotations.erase forceReconcile := by
      refine Finmap.ext_lookup fun key => ?_
      rcases eq_or_ne key forceReconcile with rfl | hne
      · rw [Finmap.lookup_erase, Finmap.lookup_erase]
      · rw [Finmap.lookup_erase_ne hne, Finmap.lookup_erase_ne hne,
          lookup_mergeFrom_annotate d x time hne]
    have hfin : ((Store.mergeFrom d (annotate d forceReconcile time)).toFun
        x).objectMeta.finalizers = x.objectMeta.finalizers := if_pos rfl
    unfold unforced
    rw [hann]
    dsimp only
    rw [hfin]
    rfl
  rw [unforcedAt, unforcedAt, find?_patch_annotate]
  split_ifs with hk
  · cases s.find? k with
    | none => rfl
    | some x => exact congrArg some (hsame x)
  · rfl

/-! ## Applies one after the other -/

/-- What applies make of the KiveData under a key. -/
def applyAllAt (k : String × String) (applied : List KiveData) (o : Option KiveData) :
    Option KiveData :=
  (applied.filter fun d => keyOf d = k).foldl (fun o d => applyUnforced d o) o

/-- Applies under other keys make nothing of it. -/
lemma applyAllAt_of_ne {k : String × String} {applied : List KiveData}
    (h : ∀ d ∈ applied, keyOf d ≠ k) (o : Option KiveData) : applyAllAt k applied o = o := by
  have hnil : (applied.filter fun d => keyOf d = k) = [] :=
    List.filter_eq_nil_iff.mpr fun d hd => by simpa using h d hd
  rw [applyAllAt, hnil, List.foldl_nil]

/-- Applies come one after the other. -/
lemma applyAllAt_append (k : String × String) (l l' : List KiveData) (o : Option KiveData) :
    applyAllAt k (l ++ l') o = applyAllAt k l' (applyAllAt k l o) := by
  rw [applyAllAt, List.filter_append, List.foldl_append]
  rfl

/-- A KiveData has the file and the annotations that were applied. -/
structure Shows (d config : KiveData) : Prop where
  inodeNo : d.spec.inodeNo = config.spec.inodeNo
  devID : d.spec.devID = config.spec.devID
  annotations : ∀ key ∈ config.objectMeta.annotations, key ≠ forceReconcile →
    d.objectMeta.annotations.lookup key = config.objectMeta.annotations.lookup key

/-- What a KiveData shows does not depend on the wake-up. -/
lemma shows_unforced_iff {d config : KiveData} : Shows (unforced d) config ↔ Shows d config := by
  have hann : ∀ key, key ≠ forceReconcile → (unforced d).objectMeta.annotations.lookup key =
      d.objectMeta.annotations.lookup key := fun key hne => Finmap.lookup_erase_ne hne
  constructor
  · rintro ⟨hino, hdev, hsame⟩
    exact ⟨hino, hdev, fun key hkey hne => (hann key hne).symm.trans (hsame key hkey hne)⟩
  · rintro ⟨hino, hdev, hsame⟩
    exact ⟨hino, hdev, fun key hkey hne => (hann key hne).trans (hsame key hkey hne)⟩

/-- A KiveData that an apply leaves shows what was applied, unless it is being deleted. -/
lemma shows_of_applyUnforced {config d : KiveData} {o : Option KiveData}
    (h : applyUnforced config o = some d) (hlive : ¬ Deleting d) : Shows d config := by
  cases o with
  | none =>
    obtain rfl := Option.some.inj h
    exact shows_unforced_iff.mpr ⟨rfl, rfl, fun _ _ _ => rfl⟩
  | some x =>
    rw [applyUnforced] at h
    split_ifs at h with hforb
    · obtain rfl := Option.some.inj h
      exact absurd hforb.1 hlive
    · obtain rfl := Option.some.inj h
      exact shows_unforced_iff.mpr
        ⟨rfl, rfl, fun _ hkey _ => Finmap.lookup_union_left hkey⟩

/-- A KiveData that applies leave is one that they did not touch, or shows one of them, or is being
deleted. -/
lemma shows_of_applyAllAt {k : String × String} {applied : List KiveData} {o : Option KiveData}
    {d : KiveData} (h : applyAllAt k applied o = some d) (hlive : ¬ Deleting d) :
    (∀ config ∈ applied, keyOf config ≠ k) ∨
      ∃ config ∈ applied, keyOf config = k ∧ Shows d config := by
  rw [applyAllAt] at h
  rcases List.eq_nil_or_concat (applied.filter fun d => keyOf d = k) with hnil | ⟨l, config, hl⟩
  · refine Or.inl fun config hconfig hkey => ?_
    exact List.filter_eq_nil_iff.mp hnil config hconfig (decide_eq_true hkey)
  · -- the last apply decides
    rw [hl, List.concat_eq_append, List.foldl_append, List.foldl_cons, List.foldl_nil] at h
    have hmem : config ∈ applied.filter fun d => keyOf d = k := by simp [hl]
    obtain ⟨hconfig, hkey⟩ := List.mem_filter.mp hmem
    exact Or.inr ⟨config, hconfig, of_decide_eq_true hkey, shows_of_applyUnforced h hlive⟩

/-- The calls that write no KiveData but by an apply or to wake the data reconciler. -/
def ApplyingCall : Call → Prop
  | .patchKiveData orig modified => ∃ time, modified = annotate orig "force-reconcile" time
  | .deleteKiveData _ => False
  | _ => True

/-- What such a call makes of the KiveData under a key. -/
lemma unforcedAt_writeKiveData {op : Call} (hop : ApplyingCall op) (a : op.Answer)
    (s : Store KiveData) (k : String × String) :
    unforcedAt (writeKiveData s op) k =
      applyAllAt k (appliedBy [⟨op, a⟩]) (unforcedAt s k) := by
  cases op with
  | applyKiveData site d =>
    refine (unforcedAt_applyKiveData s d k).trans ?_
    rcases eq_or_ne k (keyOf d) with rfl | hne
    · simp [applyAllAt, appliedBy]
    · rw [if_neg hne]
      refine (applyAllAt_of_ne (fun d' hd' => ?_) _).symm
      obtain rfl : d' = d := by simpa [appliedBy, eq_comm] using hd'
      exact hne.symm
  | patchKiveData orig modified =>
    obtain ⟨time, rfl⟩ := hop
    exact unforcedAt_patch_forceReconcile s orig time k
  | deleteKiveData d => exact absurd hop id
  | _ => rfl

/-- What a run of such calls makes of it. -/
lemma unforcedAt_run {α : Type} (std : Std) (podFields : PodFields) (node kernelID : String)
    {p : CallProg α} (hp : p.Only ApplyingCall) (w : World) (k : String × String) :
    unforcedAt (p.run (handle std podFields node kernelID) w).2.cluster.kiveData k =
      applyAllAt k (appliedBy (p.events (handle std podFields node kernelID) w))
        (unforcedAt w.cluster.kiveData k) := by
  refine Prog.Only.run_induction (handle std podFields node kernelID)
    (Φ := fun es w' => unforcedAt w'.cluster.kiveData k =
      applyAllAt k (appliedBy es) (unforcedAt w.cluster.kiveData k)) ?_ hp [] w rfl
  intro es op w' hop ih
  rw [kiveData_handle, unforcedAt_writeKiveData hop _ w'.cluster.kiveData, ih, appliedBy_append,
    applyAllAt_append]

/-- The calls of a policy pass are such calls. -/
lemma applyingCall_of_policyCall {std : Std} {kernelID : String} {listed : KivePolicy → Prop}
    {op : Call} (hop : PolicyCall std kernelID listed op) : ApplyingCall op := by
  cases op <;> first | exact hop | trivial

end Kive
