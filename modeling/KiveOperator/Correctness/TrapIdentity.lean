import KiveOperator.Controller.TrapText
import KiveOperator.Correctness.HastyDeletions
import KiveOperator.Correctness.PolicyConversion

/-!
# The identifier of a trap

`KiveTrapHashID` hashes the JSON of a trap followed directly by the alert version.
`hashedText_eq_iff` says that these bytes determine the version and every field of the trap, nil
maps and lists counting as empty, and hence so does the identifier as long as the hash has no
collision on them.

A policy pass hashes the version of the policy, and a data pass the one that the KiveData records.
`trapCmp_agrees_run` says for which traps the two agree, whatever has happened to the policy since:
for all but the one that the KiveData was stamped for, and for that one as long as the policy has
the recorded version.
-/

namespace Kive

open Interaction Object

namespace V2alpha1

/-- The bytes that `KiveTrapHashID` writes into the hash. -/
def hashedText (kiveTrap : KiveTrap) (alertVersion : String) : Except String ByteArray :=
  (jsonMarshal kiveTrap).map (· ++ alertVersion.toUTF8)

/-- Two match groups agree in every field, a nil map counting as empty. -/
structure KiveTrapMatch.Agree (m m' : KiveTrapMatch) : Prop where
  podName : m.podName = m'.podName
  containerName : m.containerName = m'.containerName
  namespace_ : m.namespace_ = m'.namespace_
  ip : m.ip = m'.ip
  matchLabels : m.matchLabels.entries = m'.matchLabels.entries

/-- Two traps agree in every field, nil maps and lists counting as empty. -/
structure KiveTrap.Agree (t t' : KiveTrap) : Prop where
  path : t.path = t'.path
  create : t.create = t'.create
  mode : t.mode = t'.mode
  callback : t.callback = t'.callback
  metadata : t.metadata.entries = t'.metadata.entries
  matchAny : List.Forall₂ KiveTrapMatch.Agree t.matchAny.elems t'.matchAny.elems

/-- Groups agree exactly when the controllers read the same group. -/
lemma KiveTrapMatch.agree_iff {m m' : KiveTrapMatch} :
    m.Agree m' ↔ m.toKiveTrapMatch = m'.toKiveTrapMatch := by
  simp only [toKiveTrapMatch, Kive.KiveTrapMatch.mk.injEq]
  constructor
  · rintro ⟨hpod, hcontainer, hnamespace, hip, hlabels⟩
    exact ⟨hpod, hcontainer, hnamespace, hip, hlabels⟩
  · rintro ⟨hpod, hcontainer, hnamespace, hip, hlabels⟩
    exact ⟨hpod, hcontainer, hnamespace, hip, hlabels⟩

/-- Match groups agree in order exactly when the controllers read the same groups. -/
lemma forall₂_agree_iff {l l' : List KiveTrapMatch} :
    List.Forall₂ KiveTrapMatch.Agree l l' ↔
      l.map KiveTrapMatch.toKiveTrapMatch = l'.map KiveTrapMatch.toKiveTrapMatch := by
  rw [← List.forall₂_eq_eq_eq, List.forall₂_map_left_iff, List.forall₂_map_right_iff]
  exact ⟨List.Forall₂.imp fun _ _ => KiveTrapMatch.agree_iff.mp,
    List.Forall₂.imp fun _ _ => KiveTrapMatch.agree_iff.mpr⟩

/-- Traps agree exactly when the controllers read the same trap. -/
lemma KiveTrap.agree_iff {t t' : KiveTrap} : t.Agree t' ↔ t.toKiveTrap = t'.toKiveTrap := by
  simp only [toKiveTrap, Kive.KiveTrap.mk.injEq]
  constructor
  · rintro ⟨hpath, hcreate, hmode, hcallback, hmetadata, hgroups⟩
    exact ⟨hpath, hcreate, hmode, hcallback, hmetadata, forall₂_agree_iff.mp hgroups⟩
  · rintro ⟨hpath, hcreate, hmode, hcallback, hmetadata, hgroups⟩
    exact ⟨hpath, hcreate, hmode, hcallback, hmetadata, forall₂_agree_iff.mpr hgroups⟩

/-- The hashed bytes are those of the trap as the controllers read it. -/
lemma hashedText_eq (t : KiveTrap) (v : String) :
    hashedText t v = .ok (trapText t.toKiveTrap v) := by
  rw [hashedText, jsonMarshal_eq]
  rfl

end V2alpha1

open V2alpha1 in
/-- The hashed bytes are equal exactly for equal versions and traps that agree; without collisions
among the hashed bytes the same holds of the identifiers. -/
theorem hashedText_eq_iff (t₁ t₂ : V2alpha1.KiveTrap) (v₁ v₂ : String) :
    (hashedText t₁ v₁ = hashedText t₂ v₂ ↔ v₁ = v₂ ∧ t₁.Agree t₂) ∧
    ∀ std, NoCollision std {b | hashedText t₁ v₁ = .ok b ∨ hashedText t₂ v₂ = .ok b} →
      (V2alpha1.kiveTrapHashID std t₁ v₁ = V2alpha1.kiveTrapHashID std t₂ v₂ ↔
        v₁ = v₂ ∧ t₁.Agree t₂) := by
  have htext : trapText t₁.toKiveTrap v₁ = trapText t₂.toKiveTrap v₂ ↔
      v₁ = v₂ ∧ t₁.Agree t₂ := by
    rw [KiveTrap.agree_iff]
    constructor
    · intro h
      exact (trapText_inj h).symm
    · rintro ⟨rfl, h⟩
      rw [h]
  refine ⟨?_, fun std hstd => ?_⟩
  · rw [hashedText_eq, hashedText_eq, Except.ok.injEq, htext]
  · rw [V2alpha1.kiveTrapHashID_eq, V2alpha1.kiveTrapHashID_eq, Kive.kiveTrapHashID_eq,
      Kive.kiveTrapHashID_eq, Except.ok.injEq, ← htext]
    constructor
    · intro h
      exact hstd (Or.inl (hashedText_eq t₁ v₁)) (Or.inr (hashedText_eq t₂ v₂))
        (String.ofList_injective h)
    · intro h
      rw [trapID, h, trapID]

namespace TrapIdentity

/-- A trap as users write it, for the pods of one empty group. -/
def written (path callback : String) : V2alpha1.KiveTrap :=
  { path := path, callback := callback, matchAny := some [{}] }

/-- Two texts with different hashes. -/
lemma noCollision_pair {std : Std} {x y : ByteArray}
    (hne : (std.sha256Hex x).toList.take 63 ≠ (std.sha256Hex y).toList.take 63) :
    NoCollision std {x, y} := by
  rintro b (rfl | rfl) b' (rfl | rfl) h
  · rfl
  · exact absurd h hne
  · exact absurd h.symm hne
  · rfl

/-- The texts of the two traps have different hashes. -/
lemma noCollision_two_traps :
    NoCollision TrapRecords.std
      {b | V2alpha1.hashedText (written "/data" "http://one") "v1" = .ok b ∨
        V2alpha1.hashedText (written "/link" "http://two") "v1" = .ok b} := by
  have htexts : {b | V2alpha1.hashedText (written "/data" "http://one") "v1" = .ok b ∨
      V2alpha1.hashedText (written "/link" "http://two") "v1" = .ok b} =
        {trapText (written "/data" "http://one").toKiveTrap "v1",
          trapText (written "/link" "http://two").toKiveTrap "v1"} := by
    ext b
    simp only [V2alpha1.hashedText_eq, Except.ok.injEq, Set.mem_ofPred_eq, Set.mem_insert_iff,
      Set.mem_singleton_iff, eq_comm]
  rw [htexts]
  exact noCollision_pair (by decide +kernel)

end TrapIdentity

open TrapIdentity (written) in
/-- A trap without maps and lists, and the same one with empty ones; and two traps without a
collision, whose identifiers differ as they do. -/
theorem hashedText_eq_iff_empty :
    (V2alpha1.hashedText { path := "/data" } "v1" =
        V2alpha1.hashedText { path := "/data", metadata := some ∅, matchAny := some [] } "v1" ↔
      "v1" = "v1" ∧ V2alpha1.KiveTrap.Agree { path := "/data" }
        { path := "/data", metadata := some ∅, matchAny := some [] }) ∧
    (V2alpha1.kiveTrapHashID TrapRecords.std (written "/data" "http://one") "v1" =
        V2alpha1.kiveTrapHashID TrapRecords.std (written "/link" "http://two") "v1" ↔
      "v1" = "v1" ∧
        (written "/data" "http://one").Agree (written "/link" "http://two")) :=
  ⟨(hashedText_eq_iff _ _ _ _).1,
    (hashedText_eq_iff _ _ _ _).2 TrapRecords.std TrapIdentity.noCollision_two_traps⟩

/-! ## The version that is recorded and the version of the policy -/

section Runs

section Known

variable (std : Std) (traps : Set KiveTrap) (versions : Set String)

/-- The alert version and the traps of a policy are among the given ones. -/
def Written (p : KivePolicy) : Prop :=
  p.spec.alertVersion ∈ versions ∧ ∀ t ∈ p.spec.traps, t ∈ traps

/-- Users write only such policies. -/
def Action.Writes : Action → Prop
  | .changeKivePolicies policies => ∀ p ∈ policies.items, Written traps versions p
  | _ => True

/-- The texts that are hashed for these traps, by policy passes and by data passes. -/
def textsOf : Set ByteArray :=
  Set.image2 trapText traps versions

/-- The KiveData bears the identifier that a policy pass gave it for a trap, under the alert version
that it recorded. -/
def StampedFor (t : KiveTrap) (d : KiveData) : Prop :=
  d.objectMeta.labels.get trapIDLabel =
    trapID std t (d.objectMeta.annotations.get "kive-alert-version")

variable {std traps versions}

/-- A text is among them exactly when its trap and its version are. -/
lemma trapText_mem_textsOf {t : KiveTrap} {v : String} :
    trapText t v ∈ textsOf traps versions ↔ t ∈ traps ∧ v ∈ versions :=
  Set.mem_image2_iff fun _ _ _ _ h => trapText_inj h

/-- The texts of such a policy are known. -/
lemma Written.knownTraps {p : KivePolicy} (h : Written traps versions p) :
    KnownTraps (textsOf traps versions) p :=
  fun t ht => trapText_mem_textsOf.mpr ⟨h.2 t ht, h.1⟩

/-- Who writes such policies makes no others known. -/
lemma Action.Writes.makesKnown {a : Action} (h : a.Writes traps versions) :
    a.MakesKnown (textsOf traps versions) := by
  cases a
  case changeKivePolicies policies => exact fun p hp => (h p hp).knownTraps
  all_goals trivial

/-- Identifiers of known texts are equal for equal traps and versions alone. -/
lemma trapID_eq_iff (hstd : NoCollision std (textsOf traps versions)) {t t' : KiveTrap}
    {v v' : String} (ht : t ∈ traps) (hv : v ∈ versions) (ht' : t' ∈ traps) (hv' : v' ∈ versions) :
    trapID std t v = trapID std t' v' ↔ t = t' ∧ v = v' := by
  constructor
  · intro h
    exact trapText_inj (hstd (trapText_mem_textsOf.mpr ⟨ht, hv⟩)
      (trapText_mem_textsOf.mpr ⟨ht', hv'⟩) (String.ofList_injective h))
  · rintro ⟨rfl, rfl⟩
    rfl

/-- Checking and stamping agree about a trap of a policy exactly when it is not the one that the
KiveData was stamped for, or the policy has the recorded version. -/
lemma trapCmp_agrees_iff (hstd : NoCollision std (textsOf traps versions)) {t₀ : KiveTrap}
    {d : KiveData} (hd : StampedFor std t₀ d) (ht₀ : t₀ ∈ traps)
    (hv : d.objectMeta.annotations.get "kive-alert-version" ∈ versions) {p : KivePolicy}
    {t : KiveTrap} (ht : t ∈ traps) (hp : p.spec.alertVersion ∈ versions) :
    (kiveDataTrapCmp std d t = .ok true ↔
        kiveTrapHashID std t p.spec.alertVersion = .ok (d.objectMeta.labels.get trapIDLabel)) ↔
      (t = t₀ → p.spec.alertVersion = d.objectMeta.annotations.get "kive-alert-version") := by
  rw [kiveDataTrapCmp_eq, kiveTrapHashID_eq, Except.ok.injEq, Except.ok.injEq, beq_iff_eq, hd,
    trapID_eq_iff hstd ht₀ hv ht hv, trapID_eq_iff hstd ht hp ht₀ hv]
  constructor
  · rintro h rfl
    exact (h.mp ⟨rfl, rfl⟩).2
  · intro h
    constructor
    · rintro ⟨rfl, -⟩
      exact ⟨rfl, h rfl⟩
    · rintro ⟨rfl, -⟩
      exact ⟨rfl, rfl⟩

end Known

namespace System

/-- All KiveData and policies of the past have identifiers of known texts. -/
structure PastKnown (std : Std) (texts : Set ByteArray) (s : System) : Prop where
  kiveData : ∀ items ∈ s.kiveDataPast, ∀ d ∈ items, BearsKnown std texts d
  kivePolicies : ∀ items ∈ s.kivePoliciesPast, ∀ p ∈ items, KnownTraps texts p

/-- The present, which an action may add to the past, has such identifiers too. -/
lemma PastKnown.act {std : Std} {podFields : PodFields} {kernelOf : String → String}
    {texts : Set ByteArray} {s : System} (h : s.PastKnown std texts) {a : Action}
    (hnow : (System.act std podFields kernelOf s a).AllKnown std texts) :
    (System.act std podFields kernelOf s a).PastKnown std texts := by
  rcases past_act s a with ⟨hdata, hpolicies⟩ | ⟨hdata, hpolicies⟩
  · exact ⟨hdata ▸ h.kiveData, hpolicies ▸ h.kivePolicies⟩
  · refine ⟨fun items hitems => ?_, fun items hitems => ?_⟩
    · rw [hdata] at hitems
      rcases List.mem_append.mp hitems with hitems | hitems
      · exact h.kiveData items hitems
      · obtain rfl := List.mem_singleton.mp hitems
        exact hnow.stored
    · rw [hpolicies] at hitems
      rcases List.mem_append.mp hitems with hitems | hitems
      · exact h.kivePolicies items hitems
      · obtain rfl := List.mem_singleton.mp hitems
        exact hnow.policies

end System

end Runs

/-- In every run, for each KiveData and each policy of the past: a data pass takes a trap of the
policy for the KiveData's exactly when a policy pass would give it the KiveData's identifier, if and
only if the trap is not the one that the KiveData was stamped for or the policy has the alert
version that the KiveData records. -/
theorem trapCmp_agrees_run (std : Std) (podFields : PodFields) (kernelOf : String → String)
    {traps : Set KiveTrap} {versions : Set String}
    (hstd : NoCollision std (textsOf traps versions)) {w : World} (hw : w.Fresh)
    (hwritten : ∀ p ∈ w.cluster.kivePolicies.items, Written traps versions p)
    {actions : List Action} (hactions : ∀ a ∈ actions, a.Writes traps versions) :
    let s := System.run std podFields kernelOf actions (.ofWorld w)
    ∀ items ∈ s.kiveDataPast, ∀ d ∈ items, ∃ t₀, StampedFor std t₀ d ∧
      ∀ policies ∈ s.kivePoliciesPast, ∀ p ∈ policies, ∀ t ∈ p.spec.traps,
        ((kiveDataTrapCmp std d t = .ok true ↔
            kiveTrapHashID std t p.spec.alertVersion = .ok (d.objectMeta.labels.get trapIDLabel)) ↔
          (t = t₀ →
            p.spec.alertVersion = d.objectMeta.annotations.get "kive-alert-version")) := by
  let texts := textsOf traps versions
  let I : System → Prop := fun s =>
    s.KeepsTo std kernelOf ∧ s.AllKnown std texts ∧ s.PastKnown std texts
  have hact : ∀ s, ∀ a ∈ actions, a.Writes traps versions → I s →
      I (System.act std podFields kernelOf s a) := by
    rintro s a - hwrites ⟨hkeeps, hall, hpast⟩
    have hnow : (System.act std podFields kernelOf s a).AllKnown std texts :=
      hall.act hkeeps hwrites.makesKnown
    exact ⟨System.keepsTo_act s a hkeeps, hnow, hpast.act hnow⟩
  have hinit : I (.ofWorld w) := by
    have hknown : ∀ p ∈ w.cluster.kivePolicies.items, KnownTraps texts p :=
      fun p hp => (hwritten p hp).knownTraps
    refine ⟨System.keepsTo_ofWorld w, ⟨hknown,
      fun node p hp => absurd hp (not_listsKivePolicy_nil p), fun x hx => ?_⟩,
      ⟨fun items hitems x hx => ?_, fun items hitems => ?_⟩⟩
    · have hx : x ∈ w.cluster.kiveData.items := hx
      rw [hw.kiveData] at hx
      cases hx
    · obtain rfl := List.mem_singleton.mp hitems
      rw [hw.kiveData] at hx
      cases hx
    · obtain rfl := List.mem_singleton.mp hitems
      exact hknown
  obtain ⟨-, -, hpast⟩ :=
    System.run_induction_of hact (System.along_of_forall hactions _) hinit
  intro s items hitems d hd
  obtain ⟨t₀, htext, hid⟩ := hpast.kiveData items hitems d hd
  obtain ⟨ht₀, hversion⟩ := trapText_mem_textsOf.mp htext
  refine ⟨t₀, hid, fun policies hpolicies p hp t ht => ?_⟩
  obtain ⟨htrap, hpversion⟩ :=
    trapText_mem_textsOf.mp (hpast.kivePolicies policies hpolicies p hp t ht)
  exact trapCmp_agrees_iff hstd hid ht₀ hversion htrap hpversion

/-! ## A policy that gets another version -/

namespace TrapIdentity

open TrapRecords (trap policy std)

def traps : List KiveTrap := [trap "/data" "http://one"]

/-- The policy under an alert version. -/
def policyUnder (version : String) : KivePolicy :=
  { policy traps with spec := { (policy traps).spec with alertVersion := version } }

/-- The cluster with the policy under the first version. -/
def world : World :=
  HastyDeletions.world (.ofList [policyUnder "v1"])

/-- A policy pass with its seven calls, after which the policy has another version. -/
def edited : List Action :=
  .start ("node", .kivePolicy) :: List.replicate 7 (.call ("node", .kivePolicy) none) ++
    [.changeKivePolicies (.ofList [policyUnder "v2alpha1"])]

/-- The system after that. -/
def after : System :=
  System.run std .standard (fun _ => "k1") edited (.ofWorld world)

def versions : Set String := {"v1", "v2alpha1"}

/-- Both versions of the policy are such policies. -/
lemma written_policyUnder {version : String} (hv : version ∈ versions) :
    ∀ p ∈ (Store.ofList [policyUnder version]).items,
      Written {trap "/data" "http://one"} versions p := by
  intro p hp
  obtain rfl := List.mem_singleton.mp hp
  exact ⟨hv, fun t ht => List.mem_singleton.mp ht⟩

/-- The two texts have different hashes. -/
lemma noCollision : NoCollision std (textsOf {trap "/data" "http://one"} versions) := by
  rw [textsOf, versions, Set.image2_singleton_left, Set.image_pair]
  exact noCollision_pair (by decide +kernel)

end TrapIdentity

open TrapIdentity in
/-- A KiveData of the policy, which got another version. -/
theorem trapCmp_agrees_edited :
    ∃ items ∈ after.kiveDataPast, ∃ d ∈ items, ∃ t₀, StampedFor TrapRecords.std t₀ d ∧
      ∀ policies ∈ after.kivePoliciesPast, ∀ p ∈ policies, ∀ t ∈ p.spec.traps,
        ((kiveDataTrapCmp TrapRecords.std d t = .ok true ↔
            kiveTrapHashID TrapRecords.std t p.spec.alertVersion =
              .ok (d.objectMeta.labels.get trapIDLabel)) ↔
          (t = t₀ →
            p.spec.alertVersion = d.objectMeta.annotations.get "kive-alert-version")) := by
  have hstored : ∃ items ∈ after.kiveDataPast, ∃ d ∈ items, True := by decide +kernel
  obtain ⟨items, hitems, d, hd, -⟩ := hstored
  exact ⟨items, hitems, d, hd, trapCmp_agrees_run TrapRecords.std .standard (fun _ => "k1")
    noCollision (HastyDeletions.fresh_world _) (written_policyUnder (Or.inl rfl))
    (by simpa [edited, Action.Writes] using written_policyUnder (Or.inr rfl)) items hitems d hd⟩

open TrapIdentity in
/-- After the edit a data pass still takes the trap for that of the KiveData, although a policy pass
would give it another identifier. -/
theorem trapCmp_agrees_counterexample :
    NoCollision TrapRecords.std (textsOf {TrapRecords.trap "/data" "http://one"} versions) ∧
      ∃ d ∈ after.world.cluster.kiveData.items, ∃ p ∈ after.world.cluster.kivePolicies.items,
        ¬ Deleting p ∧ ∃ t ∈ p.spec.traps, kiveDataTrapCmp TrapRecords.std d t = .ok true ∧
          kiveTrapHashID TrapRecords.std t p.spec.alertVersion ≠
            .ok (d.objectMeta.labels.get trapIDLabel) :=
  ⟨noCollision, by decide +kernel⟩

end Kive
