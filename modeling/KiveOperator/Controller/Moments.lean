import KiveOperator.Controller.Stamped

/-!
# What was stored at each moment

A KiveData keeps its name for as long as it has its identity, and its mark for deletion stays.  The
caches of the managers show what was stored at some moment.  `remembers_ofWorld` and `remembers_act`
carry this through runs.
-/

namespace Kive

open Interaction Object

/-- Every request respects what is stored. -/
lemma grows_writeKiveData (s : Store KiveData) (op : Call) : s.Grows (writeKiveData s op) := by
  cases op with
  | patchKiveData orig modified => exact s.grows_patch _ _
  | applyKiveData site d => exact grows_applyKiveData s d
  | deleteKiveData d => exact s.grows_delete _
  | _ => exact Store.Grows.refl s

namespace System

/-- A KiveData was stored at a moment. -/
def StoredAt (s : System) (n : ℕ) (d : KiveData) : Prop :=
  ∃ items, s.kiveDataPast[n]? = some items ∧ d ∈ items

/-- The last moment is now, identities are not given twice, and the caches show moments. -/
structure Remembers (s : System) : Prop where
  now : s.kiveDataPast.getLast? = some s.world.cluster.kiveData.items
  uid_lt : ∀ n d, s.StoredAt n d → uidOf d < s.world.cluster.kiveData.nextUID
  keeps : ∀ m n d d', s.StoredAt m d → s.StoredAt n d' → m ≤ n → uidOf d = uidOf d' →
    keyOf d = keyOf d' ∧ (Deleting d → Deleting d')
  cached : ∀ kernelID, s.kiveDataPast[s.kiveDataSeen kernelID]? =
    some (s.world.kernels kernelID).cachedKiveData

variable {s : System}

/-- What is stored now was stored at the last moment, which no moment comes after. -/
lemma Remembers.exists_now (h : s.Remembers) :
    ∃ n, (∀ m d, s.StoredAt m d → m ≤ n) ∧
      ∀ d, s.StoredAt n d ↔ d ∈ s.world.cluster.kiveData.items := by
  obtain ⟨front, hfront⟩ := List.getLast?_eq_some_iff.mp h.now
  refine ⟨front.length, ?_, fun d => ?_⟩
  · rintro m d ⟨items, hitems, -⟩
    have hlt := (List.getElem?_eq_some_iff.mp hitems).1
    rw [hfront, List.length_append, List.length_singleton] at hlt
    omega
  · simp [StoredAt, hfront]

/-- A KiveData that was stored and one that is stored now. -/
lemma Remembers.keeps_now (h : s.Remembers) {m : ℕ} {d d' : KiveData} (hd : s.StoredAt m d)
    (hd' : d' ∈ s.world.cluster.kiveData.items) (huid : uidOf d = uidOf d') :
    keyOf d = keyOf d' ∧ (Deleting d → Deleting d') := by
  obtain ⟨n, hlast, hnow⟩ := h.exists_now
  exact h.keeps m n d d' hd ((hnow d').mpr hd') (hlast m d hd) huid

/-- What was stored at the moments after the world has changed. -/
lemma storedAt_moveTo {w : World} {n : ℕ} {d : KiveData} :
    (s.moveTo w).StoredAt n d ↔
      s.StoredAt n d ∨ (n = s.kiveDataPast.length ∧ d ∈ w.cluster.kiveData.items) := by
  unfold StoredAt System.moveTo
  dsimp only
  rcases lt_trichotomy n s.kiveDataPast.length with hlt | rfl | hgt
  · rw [List.getElem?_append_left hlt]
    simp [hlt.ne]
  · rw [List.getElem?_concat_length]
    simp
  · rw [List.getElem?_eq_none (by simp; omega), List.getElem?_eq_none hgt.le]
    simp [hgt.ne']

/-- The world changes as the requests change it. -/
lemma Remembers.moveTo (h : s.Remembers) {w : World}
    (hgrows : s.world.cluster.kiveData.Grows w.cluster.kiveData)
    (hcached : ∀ kernelID,
      (w.kernels kernelID).cachedKiveData = (s.world.kernels kernelID).cachedKiveData) :
    (s.moveTo w).Remembers := by
  -- what comes from before the change is what it was
  have hold : ∀ m d, s.StoredAt m d → ∀ d' ∈ w.cluster.kiveData.items, uidOf d = uidOf d' →
      keyOf d = keyOf d' ∧ (Deleting d → Deleting d') := by
    intro m d hd d' hd' huid
    obtain ⟨x, hx, hxuid, hxkey, hxdel⟩ := hgrows.origin d' hd' (huid ▸ h.uid_lt m d hd)
    obtain ⟨hkey, hdel⟩ := h.keeps_now hd hx (huid.trans hxuid.symm)
    exact ⟨hkey.trans hxkey, fun hd => hxdel (hdel hd)⟩
  refine ⟨by simp [System.moveTo], fun n d hd => ?_, fun m n d d' hd hd' hmn huid => ?_,
    fun kernelID => ?_⟩
  · rcases storedAt_moveTo.mp hd with hd | ⟨-, hd⟩
    · exact (h.uid_lt n d hd).trans_le hgrows.nextUID_le
    · exact w.cluster.kiveData.uid_lt d hd
  · rcases storedAt_moveTo.mp hd with hd | ⟨rfl, hnow⟩
    · rcases storedAt_moveTo.mp hd' with hd' | ⟨-, hd'⟩
      · exact h.keeps m n d d' hd hd' hmn huid
      · exact hold m d hd d' hd' huid
    · rcases storedAt_moveTo.mp hd' with ⟨items, hitems, -⟩ | ⟨-, hd'⟩
      · exact absurd (List.getElem?_eq_some_iff.mp hitems).1 (by omega)
      · rw [w.cluster.kiveData.eq_of_uidOf_eq hnow hd' huid]
        exact ⟨rfl, id⟩
  · have hseen := h.cached kernelID
    have hlt := (List.getElem?_eq_some_iff.mp hseen).1
    change (s.kiveDataPast ++ [w.cluster.kiveData.items])[s.kiveDataSeen kernelID]? =
      some (w.kernels kernelID).cachedKiveData
    rw [List.getElem?_append_left hlt, hseen, hcached]

section Run

variable {std : Std} {podFields : PodFields} {kernelOf : String → String}

/-- A call respects what is stored. -/
lemma grows_runnerHandle (r : Runner) (fault : Option Fault) (op : Call) (w : World) :
    w.cluster.kiveData.Grows
      (runnerHandle std podFields kernelOf r fault op w).2.cluster.kiveData := by
  rcases kiveData_handleFault std podFields r.1 (kernelOf r.1) fault op w with heq | heq
  · rw [runnerHandle, heq]
    exact Store.Grows.refl _
  · rw [runnerHandle, heq]
    exact grows_writeKiveData _ op

/-- Every action keeps the moments remembered. -/
lemma remembers_act (s : System) (a : Action) (h : s.Remembers) :
    (act std podFields kernelOf s a).Remembers := by
  cases a with
  | start r =>
    rw [act]
    split_ifs
    · exact ⟨h.now, h.uid_lt, h.keeps, h.cached⟩
    · exact h
  | call r fault =>
    cases hprog : (s.passes r).prog with
    | ret o =>
      rw [act_call_of_ret hprog]
      exact h.moveTo (Store.Grows.refl _) fun _ => rfl
    | call op k =>
      rw [act_call hprog]
      have hpass : (s.setPass r ⟨(s.passes r).log ++ [⟨op, (runnerHandle std podFields kernelOf r
          fault op s.world).1⟩], k (runnerHandle std podFields kernelOf r fault op
          s.world).1⟩).Remembers := ⟨h.now, h.uid_lt, h.keeps, h.cached⟩
      refine hpass.moveTo (grows_runnerHandle r fault op s.world) fun kernelID => ?_
      exact (caches_handleFault std podFields r.1 (kernelOf r.1) fault op s.world kernelID).1
  | deleteKiveData k => exact h.moveTo (s.world.cluster.kiveData.grows_delete k) fun _ => rfl
  | seeKiveData kernelID n =>
    rw [act]
    split_ifs
    · cases hitems : s.kiveDataPast[n]? with
      | none => exact h
      | some items =>
        refine ⟨h.now, h.uid_lt, h.keeps, fun kernelID' => ?_⟩
        rcases eq_or_ne kernelID' kernelID with rfl | hne
        · simpa [System.seeKiveData] using hitems
        · simpa [System.seeKiveData, World.setKernel, Function.update_of_ne hne] using
            h.cached kernelID'
    · exact h
  | seeKivePolicies kernelID n =>
    rw [act]
    split_ifs
    · cases s.kivePoliciesPast[n]? with
      | none => exact h
      | some items =>
        refine ⟨h.now, h.uid_lt, h.keeps, fun kernelID' => ?_⟩
        rcases eq_or_ne kernelID' kernelID with rfl | hne
        · simpa [System.seeKivePolicies] using h.cached kernelID'
        · simpa [System.seeKivePolicies, World.setKernel, Function.update_of_ne hne] using
            h.cached kernelID'
    · exact h
  | _ => exact h.moveTo (Store.Grows.refl _) fun _ => rfl

/-- The first moment is that of the fresh cluster. -/
lemma remembers_ofWorld {w : World} (hw : w.Fresh) : (ofWorld w).Remembers where
  now := rfl
  uid_lt n d hd := by
    obtain ⟨items, hitems, hd⟩ := hd
    obtain rfl := List.mem_singleton.mp (List.mem_of_getElem? hitems)
    rw [hw.kiveData] at hd
    cases hd
  keeps m n d d' hd _ _ _ := by
    obtain ⟨items, hitems, hd⟩ := hd
    obtain rfl := List.mem_singleton.mp (List.mem_of_getElem? hitems)
    rw [hw.kiveData] at hd
    cases hd
  cached kernelID := by
    change [w.cluster.kiveData.items][0]? = some (w.kernels kernelID).cachedKiveData
    rw [hw.kiveData, hw.cachedKiveData]
    rfl

end Run

end System

end Kive
