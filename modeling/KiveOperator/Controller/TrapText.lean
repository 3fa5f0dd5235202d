import KiveOperator.Controller.Utils

/-!
# What the text of a trap determines

The JSON text of a trap omits the fields that have their zero value.  Each field has its own
name, so the fields that are there tell which ones were omitted (`omitEmpty_append_inj`), and an
omitted field is known to be zero (`omitEmpty_inj`).  Together with the unique readability of JSON
this makes the text of a trap with its alert version determine both (`trapText_inj`).
-/

namespace Kive

/-! ## Omitted fields -/

/-- A field that is omitted exactly at its zero value determines the value. -/
lemma omitEmpty_inj {α : Type} {isZero : α → Bool} {zero : α} {f : α → Json.Value}
    {name : String} (hzero : ∀ x, isZero x = true → x = zero) (hf : Function.Injective f)
    {x y : α} (h : omitEmpty (isZero x) name (f x) = omitEmpty (isZero y) name (f y)) : x = y := by
  unfold omitEmpty at h
  split_ifs at h with hx hy hy
  · rw [hzero x hx, hzero y hy]
  exact hf (Prod.mk.inj (List.cons.inj h).1).2

/-- An optional field has only its own name. -/
lemma fst_of_mem_omitEmpty {z : Bool} {name : String} {v : Json.Value}
    {e : String × Json.Value} (h : e ∈ omitEmpty z name v) : e.1 = name := by
  unfold omitEmpty at h
  split_ifs at h
  · exact absurd h List.not_mem_nil
  · rw [List.mem_singleton.mp h]

/-- The fields of an object do not have this name. -/
def Without (name : String) (fields : List (String × Json.Value)) : Prop :=
  ∀ e ∈ fields, e.1 ≠ name

/-- A field does not have the name of another. -/
@[simp] lemma without_omitEmpty {name other : String} (hne : other ≠ name) (z : Bool)
    (v : Json.Value) : Without name (omitEmpty z other v) :=
  fun _ he => fst_of_mem_omitEmpty he ▸ hne

/-- A name that two lists of fields do not have. -/
@[simp] lemma without_append {name : String} {fields rest : List (String × Json.Value)} :
    Without name (fields ++ rest) ↔ Without name fields ∧ Without name rest :=
  List.forall_mem_append

/-- Whether a field was omitted shows in what the object begins with. -/
lemma omitEmpty_append_inj {z z' : Bool} {name : String} {v v' : Json.Value}
    {rest rest' : List (String × Json.Value)} (hrest : Without name rest)
    (hrest' : Without name rest')
    (h : omitEmpty z name v ++ rest = omitEmpty z' name v' ++ rest') :
    omitEmpty z name v = omitEmpty z' name v' ∧ rest = rest' := by
  unfold omitEmpty at h ⊢
  cases z <;> cases z'
  · obtain ⟨hfield, hrests⟩ := List.cons.inj h
    exact ⟨congrArg (fun e => [e]) hfield, hrests⟩
  · have hmem : (name, v) ∈ rest' := (show (name, v) :: rest = rest' from h) ▸ List.mem_cons_self
    exact absurd rfl (hrest' _ hmem)
  · have hmem : (name, v') ∈ rest := (show rest = (name, v') :: rest' from h) ▸ List.mem_cons_self
    exact absurd rfl (hrest _ hmem)
  · exact ⟨rfl, h⟩

/-! ## Maps, groups and traps -/

/-- The JSON of a string map determines it. -/
lemma strMapJson_injective : Function.Injective strMapJson := by
  intro m m' h
  have hpairs := Json.Value.obj.inj h
  have hsorted : m.keys.sort (· ≤ ·) = m'.keys.sort (· ≤ ·) := by
    have hfst := congrArg (List.map Prod.fst) hpairs
    simpa [List.map_map, Function.comp_def] using hfst
  have hkeys : m.keys = m'.keys := by
    rw [← Finset.sort_toFinset m.keys (· ≤ ·), hsorted, Finset.sort_toFinset]
  have hget : ∀ k ∈ m.keys, m.get k = m'.get k := by
    intro k hk
    rw [← hsorted] at hpairs
    have hmem : k ∈ m.keys.sort (· ≤ ·) := (Finset.mem_sort _).mpr hk
    have hpair := List.map_inj_left.mp hpairs k hmem
    exact Json.Value.str.inj (Prod.mk.inj hpair).2
  refine Finmap.ext_lookup fun k => ?_
  by_cases hk : k ∈ m
  · have hk' : k ∈ m' := Finmap.mem_keys.mp (hkeys ▸ Finmap.mem_keys.mpr hk)
    obtain ⟨x, hx⟩ := Finmap.mem_iff.mp hk
    obtain ⟨y, hy⟩ := Finmap.mem_iff.mp hk'
    have hxy := hget k (Finmap.mem_keys.mpr hk)
    rw [StrMap.get, StrMap.get, hx, hy] at hxy
    rw [hx, hy, show x = y from hxy]
  · have hk' : k ∉ m' := fun h => hk (Finmap.mem_keys.mp (hkeys ▸ Finmap.mem_keys.mpr h))
    rw [Finmap.lookup_eq_none.mpr hk, Finmap.lookup_eq_none.mpr hk']

/-- Texts are equal as values exactly when they are equal. -/
lemma str_injective : Function.Injective Json.Value.str := fun _ _ => Json.Value.str.inj

/-- A text field is omitted when it is empty. -/
lemma omitEmpty_str_inj {name s s' : String}
    (h : omitEmpty (s == "") name (.str s) = omitEmpty (s' == "") name (.str s')) : s = s' :=
  omitEmpty_inj (fun _ hs => eq_of_beq hs) str_injective h

/-- A map field is omitted when it is empty. -/
lemma omitEmpty_strMap_inj {name : String} {m m' : StrMap}
    (h : omitEmpty (m == ∅) name (strMapJson m) = omitEmpty (m' == ∅) name (strMapJson m')) :
    m = m' :=
  omitEmpty_inj (fun _ hm => eq_of_beq hm) strMapJson_injective h

/-- The JSON of a match group determines it. -/
lemma kiveTrapMatchJson_injective : Function.Injective kiveTrapMatchJson := by
  intro m m' h
  have hfields := Json.Value.obj.inj h
  simp only [List.append_assoc] at hfields
  obtain ⟨hpod, hfields⟩ := omitEmpty_append_inj (by simp) (by simp) hfields
  obtain ⟨hcontainer, hfields⟩ := omitEmpty_append_inj (by simp) (by simp) hfields
  obtain ⟨hnamespace, hfields⟩ := omitEmpty_append_inj (by simp) (by simp) hfields
  obtain ⟨hip, hlabels⟩ := omitEmpty_append_inj (by simp) (by simp) hfields
  cases m
  cases m'
  simp only [KiveTrapMatch.mk.injEq]
  exact ⟨omitEmpty_str_inj hpod, omitEmpty_str_inj hcontainer, omitEmpty_str_inj hnamespace,
    omitEmpty_str_inj hip, omitEmpty_strMap_inj hlabels⟩

/-- The JSON of a trap determines it. -/
lemma kiveTrapFields_injective : Function.Injective kiveTrapFields := by
  intro t t' h
  simp only [kiveTrapFields, List.append_assoc] at h
  obtain ⟨hpath, h⟩ := omitEmpty_append_inj (by simp) (by simp) h
  obtain ⟨hcreate, h⟩ := omitEmpty_append_inj (by simp) (by simp) h
  obtain ⟨hmode, h⟩ := omitEmpty_append_inj (by simp) (by simp) h
  obtain ⟨hcallback, h⟩ := omitEmpty_append_inj (by simp) (by simp) h
  obtain ⟨hmetadata, hgroups⟩ := omitEmpty_append_inj (by simp) (by simp) h
  have hfalse : ∀ b : Bool, (!b) = true → b = false := by decide
  have hnum : Function.Injective fun n : UInt32 => Json.Value.num n.toNat :=
    fun _ _ h => UInt32.toNat_inj.mp (Json.Value.num.inj h)
  have harr : Function.Injective fun l : List KiveTrapMatch =>
      Json.Value.arr (l.map kiveTrapMatchJson) :=
    fun _ _ h => List.map_injective_iff.mpr kiveTrapMatchJson_injective (Json.Value.arr.inj h)
  cases t
  cases t'
  simp only [KiveTrap.mk.injEq]
  exact ⟨omitEmpty_str_inj hpath,
    omitEmpty_inj hfalse (fun _ _ => Json.Value.bool.inj) hcreate,
    omitEmpty_inj (fun _ hm => eq_of_beq hm) hnum hmode,
    omitEmpty_str_inj hcallback, omitEmpty_strMap_inj hmetadata,
    omitEmpty_inj (fun _ hl => List.isEmpty_iff.mp hl) harr hgroups⟩

/-- The text of a trap and an alert version determines both. -/
theorem trapText_inj {t t' : KiveTrap} {v v' : String} (h : trapText t v = trapText t' v') :
    t = t' ∧ v = v' := by
  obtain rfl := trapText_inj_version h
  simp only [trapText, String.toUTF8_eq_toByteArray, ← String.toByteArray_append,
    String.toByteArray_inj] at h
  have htext := congrArg String.toList h
  simp only [String.toList_append, String.toList_ofList] at htext
  exact ⟨kiveTrapFields_injective (Json.encode_obj_append_inj _ _ htext).1, rfl⟩

end Kive
