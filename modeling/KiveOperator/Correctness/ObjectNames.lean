import KiveOperator.Controller.Utils

/-!
# Names of KiveData

The name of a KiveData joins the inode, the device, a fixed part, the pod name and the id of the
container with hyphens.

Two names are equal exactly when the four variable parts are (`newKiveDataName_eq_iff`), also for
pod names that contain hyphens, digits or the fixed part: the digits end at the first hyphen and
the id begins after the last one.

A name is legal for the API server when it is an RFC 1123 subdomain of at most 253 characters.
The grammar fits at every joint, since joining two subdomains with a hyphen gives a subdomain
(`labelsLegal_join`), but a pod name may have 253 characters of its own:
`newKiveDataName_legal_iff` says which names are short enough.
-/

namespace Kive

/-! ## The id of a container -/

/-- A container id `runtime://id` whose runtime does not contain the separator. -/
def HasRuntimeAndID (containerID runtime id : String) : Prop :=
  containerID = runtime ++ "://" ++ id ∧ ¬ "://".toList <:+: runtime.toList

/-- The split takes the part after the runtime: the separator does not overlap with itself, so
it does not begin inside a runtime that is free of it. -/
lemma splitFirst_runtime (runtime id : List Char) (hfree : ¬ "://".toList <:+: runtime) :
    splitFirst "://".toList (runtime ++ "://".toList ++ id) = some (runtime, id) := by
  induction runtime with
  | nil => rfl
  | cons c cs ih =>
    have hcs : ¬ "://".toList <:+: cs := fun h => hfree (h.trans (List.suffix_cons c cs).isInfix)
    have hnot : "://".toList.isPrefixOf (c :: cs ++ "://".toList ++ id) = false := by
      by_contra hlead
      rw [Bool.not_eq_false, List.isPrefixOf_iff_prefix] at hlead
      rcases cs with - | ⟨a, - | ⟨b, rest⟩⟩
      · simp at hlead
      · simp at hlead
      · refine hfree (List.IsPrefix.isInfix ?_)
        simpa [List.cons_prefix_cons] using hlead
    rw [List.cons_append, List.cons_append] at hnot ⊢
    rw [splitFirst, hnot, ih hcs]
    rfl

/-- The id is what comes after the runtime. -/
lemma containerIDPart_of_hasRuntimeAndID {containerID runtime id : String}
    (h : HasRuntimeAndID containerID runtime id) : containerIDPart containerID = id := by
  obtain ⟨rfl, hfree⟩ := h
  have hsplit := splitFirst_runtime runtime.toList id.toList hfree
  rw [containerIDPart, splitContainerRuntimeID, String.toList_append, String.toList_append, hsplit]
  simp

/-! ## Names are unique -/

/-- Two names of KiveData are equal exactly when inode, device, pod name and container id are. -/
theorem newKiveDataName_eq_iff {inode inode' : UInt64} {dev dev' : UInt32} {pod pod' : Pod}
    {c c' : ContainerStatus} {runtime runtime' id id' : String}
    (hc : HasRuntimeAndID c.containerID runtime id)
    (hc' : HasRuntimeAndID c'.containerID runtime' id')
    (hid : id ≠ "" ∧ NoHyphen id) (hid' : id' ≠ "" ∧ NoHyphen id') :
    newKiveDataName inode dev pod c = newKiveDataName inode' dev' pod' c' ↔
      inode = inode' ∧ dev = dev' ∧ pod.name = pod'.name ∧ id = id' := by
  have hpart := containerIDPart_of_hasRuntimeAndID hc
  have hpart' := containerIDPart_of_hasRuntimeAndID hc'
  constructor
  · intro h
    have hinj := newKiveDataName_inj (hpart.symm ▸ hid.2) (hpart'.symm ▸ hid'.2) h
    rwa [hpart, hpart'] at hinj
  · rintro ⟨rfl, rfl, hname, rfl⟩
    simp only [newKiveDataName, hname, hpart, hpart']

/-- A running pod of this name. -/
def podNamed (name : String) : Pod :=
  { name := name, namespace_ := "shop", nodeName := "node-1", podIP := "10.0.0.7",
    phase := .running, containerStatuses := [] }

/-- A ready container with this id. -/
def containerWithID (containerID : String) : ContainerStatus :=
  { name := "app", containerID := containerID, ready := true }

/-- A pod name with hyphens, digits and the fixed part. -/
theorem newKiveDataName_eq_iff_hyphens :
    newKiveDataName 7 2049 (podNamed "1-kive-data-web") (containerWithID "containerd://8f2c") =
        newKiveDataName 7 2049 (podNamed "1-kive-data-web") (containerWithID "cri-o://8f2c") ↔
      (7 : UInt64) = 7 ∧ (2049 : UInt32) = 2049 ∧ (podNamed "1-kive-data-web").name =
        (podNamed "1-kive-data-web").name ∧ "8f2c" = "8f2c" :=
  newKiveDataName_eq_iff (show HasRuntimeAndID _ "containerd" _ from ⟨by decide, by decide⟩)
    (show HasRuntimeAndID _ "cri-o" _ from ⟨by decide, by decide⟩) ⟨by decide, by decide⟩
    ⟨by decide, by decide⟩

/-! ## Legal names -/

/-- A lower-case letter or a digit. -/
def IsAlnum (c : Char) : Bool :=
  c.isLower || c.isDigit

/-- A label: letters, digits and hyphens, with a letter or digit at both ends. -/
def IsLabel (l : List Char) : Prop :=
  (∀ c ∈ l, IsAlnum c = true ∨ c = '-') ∧ l.head?.any IsAlnum = true ∧
    l.getLast?.any IsAlnum = true

instance (l : List Char) : Decidable (IsLabel l) :=
  have : Decidable (∀ c ∈ l, IsAlnum c = true ∨ c = '-') := List.decidableBAll _ l
  inferInstanceAs (Decidable (_ ∧ _ ∧ _))

/-- Whether the parts of a text between its dots are labels. -/
def LabelsLegal (s : List Char) : Prop :=
  ∀ l ∈ s.splitOn '.', IsLabel l

instance (s : List Char) : Decidable (LabelsLegal s) :=
  List.decidableBAll IsLabel (s.splitOn '.')

/-- An RFC 1123 subdomain, as the API server requires of a name. -/
def IsSubdomain (s : String) : Prop :=
  s.length ≤ 253 ∧ LabelsLegal s.toList

instance (s : String) : Decidable (IsSubdomain s) :=
  inferInstanceAs (Decidable (_ ∧ _))

/-- The id that containerd gives a container. -/
def IsContainerdID (id : String) : Prop :=
  id.length = 64 ∧ ∀ c ∈ id.toList, c ∈ "0123456789abcdef".toList

/-- Two labels with a hyphen between them are one label. -/
lemma IsLabel.join {l m : List Char} (hl : IsLabel l) (hm : IsLabel m) :
    IsLabel (l ++ '-' :: m) := by
  obtain ⟨hlchars, hlhead, -⟩ := hl
  obtain ⟨hmchars, -, hmlast⟩ := hm
  refine ⟨?_, ?_, ?_⟩
  · intro c hc
    rcases List.mem_append.mp hc with hc | hc
    · exact hlchars c hc
    · rcases List.mem_cons.mp hc with rfl | hc
      · exact Or.inr rfl
      · exact hmchars c hc
  · cases l with
    | nil => exact absurd hlhead (by decide)
    | cons c cs => exact hlhead
  · cases m with
    | nil => exact absurd hmlast (by decide)
    | cons c cs => rwa [List.getLast?_append_of_ne_nil _ (List.cons_ne_nil _ _),
        List.getLast?_cons_cons]

/-- A list either has no dot or is cut at its first one. -/
lemma labelsLegal_cons_iff {a s : List Char} (ha : '.' ∉ a) :
    LabelsLegal (a ++ '.' :: s) ↔ IsLabel a ∧ LabelsLegal s := by
  rw [LabelsLegal, List.splitOn_append_cons_self, List.splitOn_eq_singleton ha]
  exact List.forall_mem_cons

/-- Without a dot there is one label. -/
lemma labelsLegal_iff_isLabel {a : List Char} (ha : '.' ∉ a) : LabelsLegal a ↔ IsLabel a := by
  rw [LabelsLegal, List.splitOn_eq_singleton ha, List.forall_mem_singleton]

/-- A label, a hyphen and a subdomain make a subdomain: the label joins the first one. -/
lemma labelsLegal_join_left {a t : List Char} (ha : '.' ∉ a) (hlabel : IsLabel a)
    (ht : LabelsLegal t) : LabelsLegal (a ++ '-' :: t) := by
  by_cases hdot : '.' ∈ t
  · obtain ⟨b, t', rfl, hb⟩ := List.eq_append_cons_of_mem hdot
    rw [labelsLegal_cons_iff hb] at ht
    have hjoin : '.' ∉ a ++ '-' :: b := by simp [ha, hb]
    rw [← List.cons_append, ← List.append_assoc, labelsLegal_cons_iff hjoin]
    exact ⟨hlabel.join ht.1, ht.2⟩
  · rw [labelsLegal_iff_isLabel hdot] at ht
    rw [labelsLegal_iff_isLabel (by simp [ha, hdot])]
    exact hlabel.join ht

/-- Joining two subdomains with a hyphen fits the grammar. -/
lemma labelsLegal_join {s t : List Char} (hs : LabelsLegal s) (ht : LabelsLegal t) :
    LabelsLegal (s ++ '-' :: t) := by
  induction hlen : s.length using Nat.strong_induction_on generalizing s with
  | _ n ih =>
    by_cases hdot : '.' ∈ s
    · obtain ⟨a, s', rfl, ha⟩ := List.eq_append_cons_of_mem hdot
      rw [labelsLegal_cons_iff ha] at hs
      rw [List.append_assoc, List.cons_append, labelsLegal_cons_iff ha]
      refine ⟨hs.1, ih s'.length ?_ hs.2 rfl⟩
      simp only [List.length_append, List.length_cons] at hlen
      omega
    · exact labelsLegal_join_left hdot ((labelsLegal_iff_isLabel hdot).mp hs) ht

/-- Letters and digits alone are a legal label. -/
lemma labelsLegal_of_alnum {l : List Char} (hne : l ≠ []) (h : ∀ c ∈ l, IsAlnum c = true) :
    LabelsLegal l := by
  have hdot : '.' ∉ l := fun hmem => absurd (h '.' hmem) (by decide)
  rw [labelsLegal_iff_isLabel hdot]
  refine ⟨fun c hc => Or.inl (h c hc), ?_, ?_⟩
  · rw [List.head?_eq_some_head hne, Option.any_some]
    exact h _ (List.head_mem hne)
  · rw [List.getLast?_eq_some_getLast hne, Option.any_some]
    exact h _ (List.getLast_mem hne)

/-- A number is a legal label. -/
lemma labelsLegal_formatUint (n : ℕ) : LabelsLegal (formatUint n).toList := by
  rw [formatUint, String.toList_ofList]
  refine labelsLegal_of_alnum Nat.toDigits_ne_nil fun c hc => ?_
  rw [IsAlnum, Json.isDigit_of_mem_toDigits hc, Bool.or_true]

/-- A container id is a legal label. -/
lemma labelsLegal_containerdID {id : String} (h : IsContainerdID id) : LabelsLegal id.toList := by
  refine labelsLegal_of_alnum ?_ fun c hc => ?_
  · intro hnil
    rw [IsContainerdID, ← String.length_toList, hnil] at h
    exact absurd h.1 (by decide)
  · have hall : "0123456789abcdef".toList.all IsAlnum = true := by decide
    exact List.all_eq_true.mp hall c (h.2 c hc)

/-- The container id of a containerd container. -/
lemma containerIDPart_containerd (id : String) : containerIDPart ("containerd://" ++ id) = id :=
  containerIDPart_of_hasRuntimeAndID (show HasRuntimeAndID _ "containerd" _ from
    ⟨by rw [show "containerd://" = "containerd" ++ "://" from rfl], by decide⟩)

/-- The characters of a name, as four subdomains joined with hyphens. -/
lemma toList_newKiveDataName (inode : UInt64) (dev : UInt32) (pod : Pod) (c : ContainerStatus) :
    (newKiveDataName inode dev pod c).toList =
      (formatUint inode.toNat).toList ++ '-' :: ((formatUint dev.toNat).toList ++ '-' ::
        ("kive-data".toList ++ '-' :: (pod.name.toList ++ '-' ::
          (containerIDPart c.containerID).toList))) := by
  simp [newKiveDataName]

/-- The grammar of a name is legal for every pod name. -/
lemma labelsLegal_newKiveDataName (inode : UInt64) (dev : UInt32) {pod : Pod}
    {c : ContainerStatus} {id : String} (hpod : LabelsLegal pod.name.toList)
    (hc : c.containerID = "containerd://" ++ id) (hid : IsContainerdID id) :
    LabelsLegal (newKiveDataName inode dev pod c).toList := by
  have hfixed : LabelsLegal "kive-data".toList := by decide
  rw [toList_newKiveDataName, hc, containerIDPart_containerd]
  exact labelsLegal_join (labelsLegal_formatUint _) (labelsLegal_join (labelsLegal_formatUint _)
    (labelsLegal_join hfixed (labelsLegal_join hpod (labelsLegal_containerdID hid))))

/-- The number of characters of a name. -/
lemma length_newKiveDataName (inode : UInt64) (dev : UInt32) {pod : Pod} {c : ContainerStatus}
    {id : String} (hc : c.containerID = "containerd://" ++ id) (hid : IsContainerdID id) :
    (newKiveDataName inode dev pod c).length =
      (formatUint inode.toNat).length + (formatUint dev.toNat).length + pod.name.length + 77 := by
  rw [← String.length_toList, toList_newKiveDataName, hc, containerIDPart_containerd]
  have hfixed : "kive-data".toList.length = 9 := by decide
  have h64 := hid.1
  simp only [List.length_append, List.length_cons, String.length_toList, hfixed, h64] at *
  omega

/-- The name of a KiveData is legal exactly when the pod name and the digits of inode and device
leave room for the fixed part and the container id. -/
theorem newKiveDataName_legal_iff {inode : UInt64} {dev : UInt32} {pod : Pod}
    {c : ContainerStatus} {id : String} (hpod : IsSubdomain pod.name)
    (hc : c.containerID = "containerd://" ++ id) (hid : IsContainerdID id) :
    IsSubdomain (newKiveDataName inode dev pod c) ↔
      (formatUint inode.toNat).length + (formatUint dev.toNat).length + pod.name.length ≤ 176 := by
  rw [IsSubdomain, length_newKiveDataName inode dev hc hid]
  constructor
  · rintro ⟨hlen, -⟩
    omega
  · intro hroom
    exact ⟨by omega, labelsLegal_newKiveDataName inode dev hpod.2 hc hid⟩

/-- A text of one letter. -/
def letters (n : ℕ) (c : Char) : String :=
  String.ofList (List.replicate n c)

/-- Sixty-four letters may be an id. -/
lemma isContainerdID_letters : IsContainerdID (letters 64 'a') := by
  refine ⟨by rw [letters, String.length_ofList, List.length_replicate], fun c hc => ?_⟩
  rw [letters, String.toList_ofList] at hc
  obtain rfl := List.eq_of_mem_replicate hc
  decide

/-- Up to 253 letters are a legal name. -/
lemma isSubdomain_letters {n : ℕ} (hpos : n ≠ 0) (hn : n ≤ 253) : IsSubdomain (letters n 'a') := by
  rw [IsSubdomain, letters, String.length_ofList, List.length_replicate, String.toList_ofList]
  refine ⟨hn, labelsLegal_of_alnum (by simpa using hpos) fun c hc => ?_⟩
  obtain rfl := List.eq_of_mem_replicate hc
  decide

/-- A pod of a service with a name of two labels. -/
theorem newKiveDataName_legal_dotted :
    IsSubdomain (newKiveDataName 13667586 1048637 (podNamed "web-0.shop")
      (containerWithID ("containerd://" ++ letters 64 'a'))) ↔
      (formatUint 13667586).length + (formatUint 1048637).length + "web-0.shop".length ≤ 176 :=
  newKiveDataName_legal_iff (by decide) rfl isContainerdID_letters

/-- A pod name of 170 letters is legal, the name of its KiveData is not. -/
theorem newKiveDataName_counterexample :
    IsSubdomain (podNamed (letters 170 'a')).name ∧ IsContainerdID (letters 64 'a') ∧
      ¬ IsSubdomain (newKiveDataName 13667586 1048637 (podNamed (letters 170 'a'))
        (containerWithID ("containerd://" ++ letters 64 'a'))) := by
  refine ⟨isSubdomain_letters (by decide) (by decide), isContainerdID_letters, fun h => ?_⟩
  have hlen := h.1
  have hpod : (podNamed (letters 170 'a')).name.length = 170 := by
    rw [podNamed, letters, String.length_ofList, List.length_replicate]
  have hinode : (formatUint 13667586).length = 8 := by decide
  have hdev : (formatUint 1048637).length = 7 := by decide
  rw [length_newKiveDataName _ _ rfl isContainerdID_letters, hpod,
    show (13667586 : UInt64).toNat = 13667586 from rfl, hinode,
    show (1048637 : UInt32).toNat = 1048637 from rfl, hdev] at hlen
  exact absurd hlen (by decide)

end Kive
