import Mathlib.Data.Finmap

/-!
# Patches of finite maps

Two ways in which a client tells a server to change a finite map that the client has read.

* `mergePatch orig modified`: the server is sent the difference between the map as read and the
  map as wanted, and applies it to whatever the map is by then.
* `applyOwned listed managed`: the server is sent the entries that the client wants; entries
  that the client listed the last time and does not list any more are dropped, those of others
  stay.
-/

namespace MapPatch

variable {κ β : Type} [DecidableEq κ]

/-- The entries whose key satisfies `p`. -/
def filter (p : κ → Bool) (m : Finmap fun _ : κ => β) : Finmap fun _ : κ => β :=
  m.foldl (fun acc k _ => if p k then acc else acc.erase k)
    (by
      intro acc a₁ b₁ a₂ b₂
      split_ifs <;> first | rfl | exact Finmap.erase_erase) m

/-- Erasing the entries of a list that fail `p`. -/
lemma lookup_foldl_erase (p : κ → Bool) (k : κ) (l : List (Sigma fun _ : κ => β))
    (acc : Finmap fun _ : κ => β) :
    (l.foldl (fun acc s => if p s.1 then acc else acc.erase s.1) acc).lookup k =
      if k ∈ l.keys ∧ p k = false then none else acc.lookup k := by
  induction l generalizing acc with
  | nil => simp
  | cons s l ih =>
    rw [List.foldl_cons, ih]
    rcases eq_or_ne k s.1 with rfl | hne
    · cases hp : p s.1 <;> simp
    · have herase : (if p s.1 then acc else acc.erase s.1).lookup k = acc.lookup k := by
        split_ifs
        · rfl
        · exact Finmap.lookup_erase_ne hne
      simp [herase, hne]

/-- Looking up a key among the selected entries. -/
lemma lookup_filter (p : κ → Bool) (m : Finmap fun _ : κ => β) (k : κ) :
    (filter p m).lookup k = if p k then m.lookup k else none := by
  induction m using Finmap.induction_on with
  | H a =>
    change (a.entries.foldl
      (fun (acc : Finmap fun _ : κ => β) (s : Sigma fun _ : κ => β) =>
        if p s.1 then acc else acc.erase s.1) a.toFinmap).lookup k = _
    rw [lookup_foldl_erase]
    cases hp : p k with
    | true => simp
    | false =>
      by_cases hk : k ∈ a.entries.keys
      · simp [hk]
      · have hnone : a.toFinmap.lookup k = none := by
          rw [Finmap.lookup_eq_none, Finmap.mem_toFinmap]
          exact hk
        simp [hnone]

section MergePatch

variable [DecidableEq β]

/-- What the server makes of `cur` when it is sent the difference from `orig` to `modified`. -/
def mergePatch (orig modified cur : Finmap fun _ : κ => β) : Finmap fun _ : κ => β :=
  filter (fun k => decide (modified.lookup k ≠ orig.lookup k)) modified ∪
    filter (fun k => decide (modified.lookup k = none → orig.lookup k = none)) cur

/-- A key that the client changed has the client's value, every other key keeps its own. -/
lemma lookup_mergePatch (orig modified cur : Finmap fun _ : κ => β) (k : κ) :
    (mergePatch orig modified cur).lookup k =
      if modified.lookup k = orig.lookup k then cur.lookup k else modified.lookup k := by
  unfold mergePatch
  by_cases heq : modified.lookup k = orig.lookup k
  · have hout : k ∉ filter (fun k => decide (modified.lookup k ≠ orig.lookup k)) modified := by
      rw [← Finmap.lookup_eq_none, lookup_filter]
      simp [heq]
    rw [Finmap.lookup_union_right hout, lookup_filter]
    simp [heq]
  · cases hm : modified.lookup k with
    | none =>
      have ho : orig.lookup k ≠ none := fun h => heq (by rw [hm, h])
      have hout : k ∉ filter (fun k => decide (modified.lookup k ≠ orig.lookup k)) modified := by
        rw [← Finmap.lookup_eq_none, lookup_filter]
        simp [hm]
      rw [Finmap.lookup_union_right hout, lookup_filter]
      simp [hm, ho, Ne.symm ho]
    | some b =>
      have hin : k ∈ filter (fun k => decide (modified.lookup k ≠ orig.lookup k)) modified := by
        refine Finmap.mem_of_lookup_eq_some (b := b) ?_
        rw [lookup_filter]
        simp [hm, hm ▸ heq]
      rw [Finmap.lookup_union_left hin, lookup_filter]
      simp [hm, hm ▸ heq]

end MergePatch

/-- What the server makes of `cur` when the client applies `listed`, having listed `managed` the
last time. -/
def applyOwned (listed managed cur : Finmap fun _ : κ => β) : Finmap fun _ : κ => β :=
  listed ∪ filter (fun k => decide (k ∉ managed)) cur

/-- A listed key has its listed value. -/
lemma lookup_applyOwned_of_mem {listed managed cur : Finmap fun _ : κ => β} {k : κ}
    (h : k ∈ listed) : (applyOwned listed managed cur).lookup k = listed.lookup k :=
  Finmap.lookup_union_left h

/-- A key that is not listed stays, unless the client listed it the last time. -/
lemma lookup_applyOwned_of_notMem {listed managed cur : Finmap fun _ : κ => β} {k : κ}
    (h : k ∉ listed) : (applyOwned listed managed cur).lookup k =
      if k ∈ managed then none else cur.lookup k := by
  rw [applyOwned, Finmap.lookup_union_right h, lookup_filter]
  by_cases hk : k ∈ managed <;> simp [hk]

/-- What the client listed the last time is replaced. -/
lemma applyOwned_self (listed cur : Finmap fun _ : κ => β) :
    applyOwned listed cur cur = listed := by
  refine Finmap.ext_lookup fun k => ?_
  by_cases hk : k ∈ listed
  · exact lookup_applyOwned_of_mem hk
  · rw [lookup_applyOwned_of_notMem hk, Finmap.lookup_eq_none.mpr hk]
    split_ifs with hcur
    · rfl
    · exact Finmap.lookup_eq_none.mpr hcur

/-! ## Several patches one after the other -/

/-- A map has its own entries. -/
lemma union_self (m : Finmap fun _ : κ => β) : m ∪ m = m := by
  refine Finmap.ext_lookup fun k => ?_
  by_cases hk : k ∈ m
  · exact Finmap.lookup_union_left hk
  · exact Finmap.lookup_union_right hk

/-- Entries that are added are in front of those that were there. -/
lemma foldl_union (l : List (Finmap fun _ : κ => β)) (m : Finmap fun _ : κ => β) :
    l.foldl (fun m listed => listed ∪ m) m = l.foldl (fun m listed => listed ∪ m) ∅ ∪ m := by
  induction l generalizing m with
  | nil => exact Finmap.empty_union.symm
  | cons listed l ih =>
    rw [List.foldl_cons, List.foldl_cons, ih, ih (listed ∪ ∅), Finmap.union_empty,
      Finmap.union_assoc]

/-- Adding the same entries once more changes nothing. -/
lemma foldl_union_again (l : List (Finmap fun _ : κ => β)) (m : Finmap fun _ : κ => β) :
    l.foldl (fun m listed => listed ∪ m) (l.foldl (fun m listed => listed ∪ m) m) =
      l.foldl (fun m listed => listed ∪ m) m := by
  rw [foldl_union l m, foldl_union l, ← Finmap.union_assoc, union_self]

/-- What a client listed the last time and the map, after it applies `listed`. -/
def applyNext (s : (Finmap fun _ : κ => β) × Finmap fun _ : κ => β)
    (listed : Finmap fun _ : κ => β) : (Finmap fun _ : κ => β) × Finmap fun _ : κ => β :=
  (listed, applyOwned listed s.1 s.2)

/-- A key that the client listed has the value that it listed the last time, or none. -/
lemma lookup_foldl_applyNext (l : List (Finmap fun _ : κ => β)) (listed : Finmap fun _ : κ => β)
    (s : (Finmap fun _ : κ => β) × Finmap fun _ : κ => β) (k : κ) :
    ((l ++ [listed]).foldl applyNext s).2.lookup k =
      if k ∈ listed then listed.lookup k
      else if k ∈ s.1 ∨ ∃ m ∈ l, k ∈ m then none
      else s.2.lookup k := by
  induction l using List.reverseRecOn generalizing listed with
  | nil =>
    rw [List.nil_append, List.foldl_cons, List.foldl_nil, applyNext]
    split_ifs with hk hs
    · exact lookup_applyOwned_of_mem hk
    · rw [lookup_applyOwned_of_notMem hk, if_pos (by simpa using hs)]
    · rw [lookup_applyOwned_of_notMem hk, if_neg (by simpa using hs)]
  | append_singleton l m ih =>
    have hfst : ((l ++ [m]).foldl applyNext s).1 = m := by
      rw [List.foldl_append, List.foldl_cons, List.foldl_nil, applyNext]
    rw [List.foldl_append, List.foldl_cons, List.foldl_nil, applyNext, hfst]
    by_cases hk : k ∈ listed
    · rw [if_pos hk]
      exact lookup_applyOwned_of_mem hk
    · rw [if_neg hk, lookup_applyOwned_of_notMem hk, ih]
      -- what the client listed the time before is dropped, and what it dropped stays away
      by_cases hm : k ∈ m
      · rw [if_pos hm, if_pos (Or.inr ⟨m, by simp, hm⟩)]
      · have hiff : (k ∈ s.1 ∨ ∃ m' ∈ l ++ [m], k ∈ m') ↔ k ∈ s.1 ∨ ∃ m' ∈ l, k ∈ m' := by
          simp [or_and_right, exists_or, hm]
        rw [if_neg hm, if_neg hm, if_congr hiff rfl rfl]

/-- Applying the same once more changes nothing. -/
lemma foldl_applyNext_again (l : List (Finmap fun _ : κ => β))
    (s : (Finmap fun _ : κ => β) × Finmap fun _ : κ => β) :
    l.foldl applyNext (l.foldl applyNext s) = l.foldl applyNext s := by
  rcases List.eq_nil_or_concat l with rfl | ⟨l, listed, rfl⟩
  · rfl
  · rw [List.concat_eq_append]
    have hfst : ∀ s', ((l ++ [listed]).foldl applyNext s').1 = listed := fun s' => by
      rw [List.foldl_append, List.foldl_cons, List.foldl_nil, applyNext]
    refine Prod.ext ((hfst _).trans (hfst _).symm) (Finmap.ext_lookup fun k => ?_)
    rw [lookup_foldl_applyNext, hfst, lookup_foldl_applyNext]
    by_cases hk : k ∈ listed
    · rw [if_pos hk]
      exact (if_pos hk).symm
    · by_cases hl : ∃ m ∈ l, k ∈ m
      · simp [hk, hl]
      · simp [hk, hl]

end MapPatch
