import KiveOperator.Cluster.World
import KiveOperator.Controller.KivePolicy

/-!
# Which containers a trap selects

What the match groups of a trap mean, and what is listed for them: `listPods_matchingFields` says
that a request for a match group is answered with the pods for which its fields hold.  `handled` are
the containers that are left when each string is handled once.
-/

namespace Kive

open Interaction

section Meaning

variable (std : Std)

/-- All the fields of a match group that concern the pod hold. -/
def PodMatches (g : KiveTrapMatch) (pod : Pod) : Prop :=
  (g.podName ≠ "" → pod.name = g.podName) ∧
  (g.namespace_ ≠ "" → pod.namespace_ = g.namespace_) ∧
  (g.ip ≠ "" → pod.podIP = g.ip) ∧
  ∀ k v, g.matchLabels.lookup k = some v → pod.labels.lookup k = some v

/-- Some match group of the trap holds in all its fields. -/
def Selects (kiveTrap : KiveTrap) (pod : Pod) (containerStatus : ContainerStatus) : Prop :=
  ∃ g ∈ kiveTrap.matchAny, PodMatches g pod ∧
    regexMatch std g.containerName containerStatus.name = .ok true

/-- The containers of the listed pods, each with its pod. -/
def containersOf (pods : List Pod) : List (Pod × ContainerStatus) :=
  pods.flatMap fun pod => pod.containerStatuses.map fun c => (pod, c)

/-- The containers of the listed pods are those of one of the pods. -/
lemma mem_containersOf {pods : List Pod} {x : Pod × ContainerStatus} :
    x ∈ containersOf pods ↔ x.1 ∈ pods ∧ x.2 ∈ x.1.containerStatuses := by
  obtain ⟨pod, c⟩ := x
  simp [containersOf]

end Meaning

/-! ## Listing the pods of a match group -/

/-- The answer of the API server to the list request of a match group. -/
def podsOf (g : KiveTrapMatch) (pods : List Pod) : List Pod :=
  pods.filter fun pod =>
    (g.podName == "" || pod.name == g.podName) &&
    (g.namespace_ == "" || pod.namespace_ == g.namespace_) &&
    (g.ip == "" || pod.podIP == g.ip) && matchesLabels g.matchLabels pod.labels

/-- The answer has the pods for which the fields of the match group hold. -/
lemma mem_podsOf {g : KiveTrapMatch} {pods : List Pod} {pod : Pod} :
    pod ∈ podsOf g pods ↔ pod ∈ pods ∧ PodMatches g pod := by
  simp only [podsOf, List.mem_filter, Bool.and_eq_true, Bool.or_eq_true, beq_iff_eq,
    matchesLabels_iff, PodMatches, and_assoc, ← or_iff_not_imp_left]

/-- With the field labels that it uses taken as what they are called, the list request of a match
group gives the pods for which its fields hold. -/
lemma listPods_matchingFields_of {podFields : PodFields}
    (hname : podFields "metadata.name" = some Pod.name)
    (hnamespace : podFields "metadata.namespace" = some Pod.namespace_) {g : KiveTrapMatch}
    (hip : g.ip ≠ "" → podFields "metadata.podIP" = some Pod.podIP) (pods : List Pod) :
    listPods podFields g.matchLabels (KivePolicyReconciler.matchingFields g) pods =
      .ok (podsOf g pods) := by
  have hfind : (KivePolicyReconciler.matchingFields g).find?
      (fun f => (podFields f.1).isNone) = none := by
    rw [List.find?_eq_none]
    intro f hmem
    simp only [KivePolicyReconciler.matchingFields, List.mem_append] at hmem
    rcases hmem with (hmem | hmem) | hmem <;> split_ifs at hmem with hset <;>
      simp only [List.mem_singleton, List.not_mem_nil] at hmem <;> subst hmem
    · simp [hname]
    · simp [hnamespace]
    · simp [hip hset]
  rw [listPods, hfind]
  refine congrArg Except.ok (List.filter_congr fun pod _ => ?_)
  have hfields : matchesFields podFields (KivePolicyReconciler.matchingFields g) pod =
      ((g.podName == "" || pod.name == g.podName) &&
        (g.namespace_ == "" || pod.namespace_ == g.namespace_) &&
        (g.ip == "" || pod.podIP == g.ip)) := by
    simp only [matchesFields, KivePolicyReconciler.matchingFields, List.all_append]
    congr 1
    · congr 1
      · by_cases h : g.podName = "" <;> simp [h, hname]
      · by_cases h : g.namespace_ = "" <;> simp [h, hnamespace]
    · by_cases h : g.ip = ""
      · simp [h]
      · simp [h, hip h]
  rw [hfields, Bool.and_comm]

/-- So does an API server with the standard field labels. -/
lemma listPods_matchingFields {podFields : PodFields} (hf : podFields.Standard)
    {g : KiveTrapMatch} (hip : g.ip ≠ "" → podFields.KnowsIP) (pods : List Pod) :
    listPods podFields g.matchLabels (KivePolicyReconciler.matchingFields g) pods =
      .ok (podsOf g pods) :=
  listPods_matchingFields_of hf.name hf.namespace_ hip pods

/-- Where the field label for an address, if it is known, is taken as what it is called, the request
for a match group gives the pods for which its fields hold, or it fails whatever pods there are. -/
lemma listPods_matchingFields_cases {podFields : PodFields} (hf : podFields.Standard)
    (hip : ∀ f, podFields "metadata.podIP" = some f → f = Pod.podIP) (g : KiveTrapMatch) :
    (∀ pods, listPods podFields g.matchLabels (KivePolicyReconciler.matchingFields g) pods =
      .ok (podsOf g pods)) ∨
    ∃ err, ∀ pods, listPods podFields g.matchLabels (KivePolicyReconciler.matchingFields g) pods =
      .error err := by
  cases hlabel : podFields "metadata.podIP" with
  | some f =>
    exact Or.inl (listPods_matchingFields hf fun _ => hlabel.trans (congrArg some (hip f hlabel)))
  | none =>
    by_cases hset : g.ip = ""
    · exact Or.inl (listPods_matchingFields hf fun h => absurd hset h)
    · refine Or.inr ?_
      cases hfind : (KivePolicyReconciler.matchingFields g).find?
          fun f => (podFields f.1).isNone with
      | some f => exact ⟨_, fun pods => by rw [listPods, hfind]⟩
      | none =>
        have hmem : ("metadata.podIP", g.ip) ∈ KivePolicyReconciler.matchingFields g := by
          simp [KivePolicyReconciler.matchingFields, hset]
        have hknown := List.find?_eq_none.mp hfind _ hmem
        simp [hlabel] at hknown

/-- The API server can answer the requests for all match groups of the policies that are not being
deleted: if one of them asks for an address, the server knows the field label for it. -/
def Answerable (podFields : PodFields) (policies : List KivePolicy) : Prop :=
  ∀ p ∈ policies, ¬ Deleting p → ∀ t ∈ p.spec.traps, ∀ g ∈ t.matchAny, g.ip ≠ "" →
    podFields.KnowsIP

instance (g : KiveTrapMatch) (pod : Pod) : Decidable (PodMatches g pod) :=
  decidable_of_iff (pod ∈ podsOf g [pod]) (by simp [mem_podsOf])

instance (std : Std) (t : KiveTrap) (pod : Pod) (c : ContainerStatus) :
    Decidable (Selects std t pod c) :=
  decidable_of_iff (∃ g ∈ t.matchAny, PodMatches g pod ∧
      (regexMatch std g.containerName c.name).toOption = some true) (by
    simp only [Selects, Except.toOption]
    refine exists_congr fun g => and_congr_right fun _ => and_congr_right fun _ => ?_
    cases regexMatch std g.containerName c.name <;> simp)

/-! ## The containers that a trap is given -/

section Handled

/-- The containers of some pods whose names match that of a match group. -/
def named (std : Std) (g : KiveTrapMatch) (pods : List Pod) : List (Pod × ContainerStatus) :=
  (containersOf pods).filter fun x =>
    (regexMatch std g.containerName x.2.name).toOption == some true

/-- They are containers of the pods, and the comparison of names holds without an error. -/
lemma mem_named {std : Std} {g : KiveTrapMatch} {pods : List Pod} {x : Pod × ContainerStatus} :
    x ∈ named std g pods ↔
      x ∈ containersOf pods ∧ regexMatch std g.containerName x.2.name = .ok true := by
  rw [named, List.mem_filter]
  cases regexMatch std g.containerName x.2.name with
  | error err => simp [Except.toOption]
  | ok b => cases b <;> simp [Except.toOption]

/-- The containers of a match group, in the order of the loops. -/
def candidates (std : Std) (g : KiveTrapMatch) (pods : List Pod) :
    List (Pod × ContainerStatus) :=
  named std g (podsOf g pods)

/-- They are the containers for which all the fields of the group hold. -/
lemma mem_candidates {std : Std} {g : KiveTrapMatch} {pods : List Pod}
    {x : Pod × ContainerStatus} : x ∈ candidates std g pods ↔
      x ∈ containersOf pods ∧ PodMatches g x.1 ∧
        regexMatch std g.containerName x.2.name = .ok true := by
  rw [candidates, mem_named, mem_containersOf, mem_containersOf, mem_podsOf]
  tauto

/-- Pass over the containers in order, skipping those whose string is remembered already: the
ones that are handled, and the strings remembered in the end. -/
def handled : List (Pod × ContainerStatus) → List String →
    List (Pod × ContainerStatus) × List String
  | [], matched => ([], matched)
  | x :: xs, matched =>
    if KivePolicyReconciler.matchID x.1 x.2 ∈ matched then handled xs matched
    else
      let rest := handled xs (KivePolicyReconciler.matchID x.1 x.2 :: matched)
      (x :: rest.1, rest.2)

/-- Handling one list after the other. -/
lemma handled_append (l l' : List (Pod × ContainerStatus)) (matched : List String) :
    handled (l ++ l') matched =
      ((handled l matched).1 ++ (handled l' (handled l matched).2).1,
        (handled l' (handled l matched).2).2) := by
  induction l generalizing matched with
  | nil => rfl
  | cons x l ih =>
    rw [List.cons_append, handled, handled]
    split_ifs with hx
    · exact ih matched
    · simp [ih]

/-- Only containers of the list are handled, and none whose string was remembered before. -/
lemma of_mem_handled {l : List (Pod × ContainerStatus)} {matched : List String}
    {x : Pod × ContainerStatus} (h : x ∈ (handled l matched).1) :
    x ∈ l ∧ KivePolicyReconciler.matchID x.1 x.2 ∉ matched := by
  induction l generalizing matched with
  | nil => exact absurd h List.not_mem_nil
  | cons y l ih =>
    rw [handled] at h
    split_ifs at h with hy
    · exact ⟨List.mem_cons_of_mem y (ih h).1, (ih h).2⟩
    · rcases List.mem_cons.mp h with rfl | h
      · exact ⟨List.mem_cons_self, hy⟩
      · exact ⟨List.mem_cons_of_mem y (ih h).1,
          fun hx => (ih h).2 (List.mem_cons_of_mem _ hx)⟩

/-- No string is handled twice. -/
lemma nodup_handled (l : List (Pod × ContainerStatus)) (matched : List String) :
    ((handled l matched).1.map fun x => KivePolicyReconciler.matchID x.1 x.2).Nodup := by
  induction l generalizing matched with
  | nil => exact List.nodup_nil
  | cons y l ih =>
    rw [handled]
    split_ifs with hy
    · exact ih matched
    · rw [List.map_cons, List.nodup_cons]
      refine ⟨fun hmem => ?_, ih _⟩
      obtain ⟨x, hx, hxy⟩ := List.mem_map.mp hmem
      exact (of_mem_handled hx).2 (hxy ▸ List.mem_cons_self)

/-- The string of every container of the list was remembered before or is handled. -/
lemma exists_mem_handled {l : List (Pod × ContainerStatus)} {matched : List String}
    {x : Pod × ContainerStatus} (hx : x ∈ l)
    (hmatched : KivePolicyReconciler.matchID x.1 x.2 ∉ matched) :
    ∃ y ∈ (handled l matched).1,
      KivePolicyReconciler.matchID y.1 y.2 = KivePolicyReconciler.matchID x.1 x.2 := by
  induction l generalizing matched with
  | nil => exact absurd hx List.not_mem_nil
  | cons z l ih =>
    rw [handled]
    split_ifs with hz
    · rcases List.mem_cons.mp hx with rfl | hx
      · exact absurd hz hmatched
      · exact ih hx hmatched
    · rcases List.mem_cons.mp hx with rfl | hx
      · exact ⟨x, List.mem_cons_self, rfl⟩
      · by_cases hzx : KivePolicyReconciler.matchID z.1 z.2 = KivePolicyReconciler.matchID x.1 x.2
        · exact ⟨z, List.mem_cons_self, hzx⟩
        · have hnew : KivePolicyReconciler.matchID x.1 x.2 ∉
              KivePolicyReconciler.matchID z.1 z.2 :: matched := by
            simp [Ne.symm hzx, hmatched]
          obtain ⟨y, hy, hyx⟩ := ih hx hnew
          exact ⟨y, List.mem_cons_of_mem z hy, hyx⟩

end Handled

end Kive
