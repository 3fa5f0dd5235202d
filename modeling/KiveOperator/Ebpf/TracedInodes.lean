import KiveOperator.Api.Types
import Mathlib.Data.Finset.Card

/-!
# The map of traced inodes

The eBPF map that tells the probe which files to report (`ebpf/maps.h`), and the operations of
`internal/controller/ebpf/utils.go` on it.  The value stored under a key is always 1, so the map
is the set of its keys.
-/

namespace Kive

/-- A key of the map: inode and device number of a file. -/
structure BpfMapKey where
  inode : UInt64
  dev : UInt32
  deriving DecidableEq

/-- The key of the file that a KiveData records. -/
def KiveData.mapKey (d : KiveData) : BpfMapKey :=
  ⟨d.spec.inodeNo, d.spec.devID⟩

/-- `MAP_MAX_ENTRIES`. -/
def mapMaxEntries : ℕ := 1024

/-- The keys of a hash map with room for `mapMaxEntries` of them. -/
abbrev TracedInodes := Finset BpfMapKey

namespace TracedInodes

/-- A key can be set if it is there already or the map is not full. -/
def HasRoom (m : TracedInodes) (key : BpfMapKey) : Prop :=
  key ∈ m ∨ m.card < mapMaxEntries

instance (m : TracedInodes) (key : BpfMapKey) : Decidable (m.HasRoom key) :=
  inferInstanceAs (Decidable (_ ∨ _))

/-- `AddInode`: set the key. -/
def addInode (m : TracedInodes) (mapKey : BpfMapKey) : Except String Unit × TracedInodes :=
  if m.HasRoom mapKey then (.ok (), insert mapKey m)
  else (.error "AddInode Error: argument list too long", m)

/-- `RemoveInode`: delete the key; deleting an absent key is an error. -/
def removeInode (m : TracedInodes) (mapKey : BpfMapKey) : Except String Unit × TracedInodes :=
  if mapKey ∈ m then (.ok (), m.erase mapKey)
  else (.error "RemoveInode Error: key does not exist", m)

/-- Adding a key adds no other. -/
lemma mem_of_mem_addInode {m : TracedInodes} {key k : BpfMapKey}
    (h : k ∈ (m.addInode key).2) : k = key ∨ k ∈ m := by
  unfold addInode at h
  split_ifs at h
  · exact Finset.mem_insert.mp h
  · exact Or.inr h

/-- Adding a key removes none. -/
lemma mem_addInode_of_mem {m : TracedInodes} {key k : BpfMapKey} (h : k ∈ m) :
    k ∈ (m.addInode key).2 := by
  unfold addInode
  split_ifs
  · exact Finset.mem_insert_of_mem h
  · exact h

/-- A key that has room is there after it was added. -/
lemma mem_addInode_self {m : TracedInodes} {key : BpfMapKey} (h : m.HasRoom key) :
    key ∈ (m.addInode key).2 := by
  rw [addInode, if_pos h]
  exact Finset.mem_insert_self key m

/-- Set keys one after the other. -/
def addInodes (m : TracedInodes) (mapKeys : List BpfMapKey) : TracedInodes :=
  mapKeys.foldl (fun m mapKey => (m.addInode mapKey).2) m

/-- Keys that there is room for all together are all set. -/
lemma addInodes_eq {m room : TracedInodes} {mapKeys : List BpfMapKey} (hm : m ⊆ room)
    (hkeys : ∀ k ∈ mapKeys, k ∈ room) (hroom : room.card ≤ mapMaxEntries) :
    m.addInodes mapKeys = m ∪ mapKeys.toFinset := by
  induction mapKeys generalizing m with
  | nil => simp [addInodes]
  | cons k ks ih =>
    have hk : k ∈ room := hkeys k List.mem_cons_self
    have hfree : m.HasRoom k := by
      by_cases hmem : k ∈ m
      · exact Or.inl hmem
      · have hlt : m.card < room.card :=
          Finset.card_lt_card ((Finset.ssubset_iff_of_subset hm).mpr ⟨k, hk, hmem⟩)
        exact Or.inr (hlt.trans_le hroom)
    have hadd : (m.addInode k).2 = insert k m := by rw [addInode, if_pos hfree]
    have hsub : (m.addInode k).2 ⊆ room := hadd ▸ Finset.insert_subset hk hm
    calc m.addInodes (k :: ks) = (m.addInode k).2.addInodes ks := rfl
      _ = insert k m ∪ ks.toFinset := by
        rw [ih hsub fun k' hk' => hkeys k' (List.mem_cons_of_mem k hk'), hadd]
      _ = m ∪ (k :: ks).toFinset := by
        rw [List.toFinset_cons, Finset.insert_union, Finset.union_insert]

/-- Setting keys removes none. -/
lemma subset_addInodes (m : TracedInodes) (mapKeys : List BpfMapKey) :
    m ⊆ m.addInodes mapKeys := by
  induction mapKeys generalizing m with
  | nil => exact Finset.Subset.refl m
  | cons k ks ih =>
    intro key hkey
    exact ih (m.addInode k).2 (mem_addInode_of_mem hkey)

/-- A map that has grown is not over its limit. -/
lemma addInodes_eq_or_card_le (m : TracedInodes) (mapKeys : List BpfMapKey) :
    m.addInodes mapKeys = m ∨ (m.addInodes mapKeys).card ≤ mapMaxEntries := by
  induction mapKeys generalizing m with
  | nil => exact Or.inl rfl
  | cons k ks ih =>
    have hcons : m.addInodes (k :: ks) = (m.addInode k).2.addInodes ks := rfl
    have hstep : (m.addInode k).2 = m ∨ (m.addInode k).2.card ≤ mapMaxEntries := by
      unfold addInode
      split_ifs with hroom
      · rcases hroom with hmem | hlt
        · exact Or.inl (Finset.insert_eq_of_mem hmem)
        · exact Or.inr ((Finset.card_insert_le k m).trans hlt)
      · exact Or.inl rfl
    rw [hcons]
    rcases ih (m.addInode k).2 with hsame | hle
    · rw [hsame]
      exact hstep
    · exact Or.inr hle

/-- All of the keys are set exactly if they are there already or there is room for all of them. -/
lemma forall_mem_addInodes_iff {m : TracedInodes} {mapKeys : List BpfMapKey} :
    (∀ k ∈ mapKeys, k ∈ m.addInodes mapKeys) ↔
      (∀ k ∈ mapKeys, k ∈ m) ∨ (m ∪ mapKeys.toFinset).card ≤ mapMaxEntries := by
  constructor
  · intro h
    rcases m.addInodes_eq_or_card_le mapKeys with hsame | hle
    · rw [hsame] at h
      exact Or.inl h
    · have hsub : m ∪ mapKeys.toFinset ⊆ m.addInodes mapKeys := by
        refine Finset.union_subset (m.subset_addInodes mapKeys) fun k hk => ?_
        exact h k (List.mem_toFinset.mp hk)
      exact Or.inr ((Finset.card_le_card hsub).trans hle)
  · rintro (hthere | hroom) k hk
    · exact m.subset_addInodes mapKeys (hthere k hk)
    · have hin : ∀ k ∈ mapKeys, k ∈ m ∪ mapKeys.toFinset := fun k hk =>
        Finset.mem_union_right m (List.mem_toFinset.mpr hk)
      rw [addInodes_eq Finset.subset_union_left hin hroom]
      exact hin k hk

/-- Setting a key that is there changes nothing. -/
lemma addInode_of_mem {m : TracedInodes} {key : BpfMapKey} (h : key ∈ m) :
    m.addInode key = (.ok (), m) := by
  have hroom : m.HasRoom key := Or.inl h
  rw [addInode, if_pos hroom, Finset.insert_eq_of_mem h]

/-- Whatever the answer, removing a key leaves exactly the others. -/
@[simp] lemma removeInode_snd (m : TracedInodes) (key : BpfMapKey) :
    (m.removeInode key).2 = m.erase key := by
  unfold removeInode
  split_ifs with h
  · rfl
  · exact (Finset.erase_eq_of_notMem h).symm

end TracedInodes

end Kive
