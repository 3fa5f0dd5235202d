import KiveOperator.Ebpf.Lifecycle
import KiveOperator.Library.Runs

/-!
# Loading the eBPF program is all or nothing

Data passes load the program and others unload it, and any step may fail.  `allOrNothing_iff` says
for which failures everything is open or nothing: as long as no load fails after it has opened the
programs and maps, and no unload of a loaded program fails after it has closed the kprobe.
-/

namespace Kive

namespace Lifecycle

/-- A call, with what becomes of its steps. -/
inductive LifecycleCall where
  /-- A data pass loads the program unless it is loaded. -/
  | ensureLoaded (steps : LoadSteps)
  | unload (steps : UnloadSteps)

/-- What a call returns, and the variables and handles after it. -/
def LifecycleCall.exec (g : Globals) : LifecycleCall → Except String Unit × Globals
  | .ensureLoaded steps => (Lifecycle.ensureLoaded steps).exec g
  | .unload steps => (unloadEbpf steps).exec g

/-- The variables and handles after a call. -/
def after (g : Globals) (c : LifecycleCall) : Globals :=
  (c.exec g).2

/-- At most one kprobe is attached, and `Loaded` says whether everything is open. -/
structure AllOrNothing (g : Globals) : Prop where
  attached : g.attached.card ≤ 1
  loaded_iff : g.loaded = true ↔ g.AllOpen

/-- A call leaves all or nothing open, and a load that fails leaves nothing open that was not. -/
def Sound (g : Globals) (c : LifecycleCall) : Prop :=
  AllOrNothing (after g c) ∧
    ∀ steps, c = .ensureLoaded steps → ∀ err, (c.exec g).1 = .error err →
      (after g c).opened ⊆ g.opened

/-- A load does not fail once it has opened the programs and maps. -/
def LoadSteps.Early (steps : LoadSteps) : Prop :=
  steps.removeMemlock ≠ none ∨ steps.loadBpfObjects ≠ none ∨
    ((∃ old, steps.isKernelOld = .ok old) ∧ steps.kprobe = none ∧ steps.newReader = none)

/-- An unload does not fail once it has closed the kprobe. -/
def UnloadSteps.Early (steps : UnloadSteps) : Prop :=
  (∃ f, steps.kprobe = some f ∧ f.closed = false) ∨
    steps.kprobe = none ∧ ∀ fault ∈ steps.later, fault = none

/-- A load of what is not loaded and an unload of what is fail early or not at all. -/
def FailsEarly (g : Globals) : LifecycleCall → Prop
  | .ensureLoaded steps => g.loaded = false → steps.Early
  | .unload steps => g.loaded = true → steps.Early

/-- Nothing is open, or all that one load has opened. -/
def Settled (g : Globals) : Prop :=
  g.Unloaded ∨ ∃ n, g = loadedFrom n

/-! ## Settled states -/

/-- When nothing is loaded, nothing is open. -/
lemma Globals.Unloaded.allOrNothing {g : Globals} (h : g.Unloaded) : AllOrNothing g := by
  obtain ⟨hloaded, hopened⟩ := h
  refine ⟨by simp [Globals.attached, hopened], iff_of_false (by simp [hloaded]) fun hall => ?_⟩
  obtain ⟨h, hmem, -⟩ := hall _ List.mem_cons_self
  rw [hopened] at hmem
  exact absurd hmem (Finset.notMem_empty h)

/-- After a load everything is open. -/
lemma allOrNothing_loadedFrom (n : ℕ) : AllOrNothing (loadedFrom n) := by
  have hattached : (loadedFrom n).attached = {⟨n + 4, .kprobe⟩} := by
    simp [Globals.attached, loadedFrom, Finset.filter_insert, Finset.filter_singleton]
  refine ⟨by rw [hattached, Finset.card_singleton], iff_of_true rfl ?_⟩
  intro handle hmem
  simp only [Globals.handles, loadedFrom, List.mem_cons, List.not_mem_nil, or_false] at hmem
  rcases hmem with rfl | rfl | rfl | rfl | rfl | rfl <;> simp [loadedFrom]

/-- A loaded program whose kprobe is not attached is not all open. -/
lemma not_allOrNothing {g : Globals} (hloaded : g.loaded = true) {h : Handle}
    (hkprobe : g.kprobe = some h) (hnot : h ∉ g.opened) : ¬ AllOrNothing g := by
  rintro ⟨-, hiff⟩
  obtain ⟨h', hmem, heq⟩ := hiff.mp hloaded g.kprobe (by simp [Globals.handles])
  rw [hkprobe] at heq
  exact hnot (Option.some.inj heq ▸ hmem)

/-! ## One call -/

/-- A load with nothing open. -/
lemma sound_load_iff {g : Globals} (hg : g.Unloaded) (steps : LoadSteps) :
    (Sound g (.ensureLoaded steps) ↔ FailsEarly g (.ensureLoaded steps)) ∧
      (FailsEarly g (.ensureLoaded steps) → Settled (after g (.ensureLoaded steps))) := by
  have hearly : FailsEarly g (.ensureLoaded steps) ↔ steps.Early := by simp [FailsEarly, hg.1]
  rw [Sound, after, LifecycleCall.exec, exec_ensureLoaded, hg.1, hearly]
  simp only [Bool.false_eq_true, if_false]
  rcases exec_loadEbpf hg steps with ⟨⟨err, hexec⟩, hfail⟩ |
    ⟨hexec, -, -, hold, hkprobe, hreader⟩ | ⟨⟨err, g', hexec, hopen⟩, hmemlock, hobjs, hfail⟩
  · rw [hexec]
    have hsteps : steps.Early := hfail.elim Or.inl fun h => Or.inr (Or.inl h)
    refine ⟨iff_of_true ⟨hg.allOrNothing, ?_⟩ hsteps, fun _ => Or.inl hg⟩
    exact fun _ _ _ _ => Finset.Subset.refl _
  · rw [hexec]
    refine ⟨iff_of_true ⟨allOrNothing_loadedFrom g.nextID, ?_⟩ ?_, fun _ => Or.inr ⟨_, rfl⟩⟩
    · exact fun _ _ _ h => by cases h
    · exact Or.inr (Or.inr ⟨hold, hkprobe, hreader⟩)
  · rw [hexec]
    -- the first map that the load has opened stays open
    have hsteps : ¬ steps.Early := by
      rintro (h | h | ⟨⟨old, hold⟩, hkprobe, hreader⟩)
      · exact h hmemlock
      · exact h hobjs
      · rcases hfail with ⟨err, herr⟩ | hne | hne
        · rw [herr] at hold
          cases hold
        · exact hne hkprobe
        · exact hne hreader
    refine ⟨iff_of_false (fun h => ?_) hsteps, fun h => absurd h hsteps⟩
    have hsub := h.2 steps rfl err rfl
    rw [hg.2] at hsub
    exact absurd (hsub hopen) (Finset.notMem_empty _)

/-- An unload of a loaded program. -/
lemma sound_unload_iff (n : ℕ) (steps : UnloadSteps) :
    (Sound (loadedFrom n) (.unload steps) ↔ FailsEarly (loadedFrom n) (.unload steps)) ∧
      (FailsEarly (loadedFrom n) (.unload steps) →
        Settled (after (loadedFrom n) (.unload steps))) := by
  have hearly : FailsEarly (loadedFrom n) (.unload steps) ↔ steps.Early := by
    simp [FailsEarly, loadedFrom]
  have hnoload : ∀ {r : Except String Unit} {opened : Finset Handle} steps',
      LifecycleCall.unload steps = .ensureLoaded steps' → ∀ err, r = .error err →
        opened ⊆ (loadedFrom n).opened := fun _ h => by cases h
  obtain ⟨rest, hexec, hrest⟩ := exec_unloadEbpf n steps
  rw [Sound, after, hearly, LifecycleCall.exec, hexec]
  cases hkprobe : steps.kprobe with
  | some f =>
    obtain ⟨err, closed⟩ := f
    cases closed with
    | false =>
      refine ⟨iff_of_true ⟨allOrNothing_loadedFrom n, hnoload⟩ ?_, fun _ => Or.inr ⟨n, rfl⟩⟩
      exact Or.inl ⟨_, hkprobe, rfl⟩
    | true =>
      have hsteps : ¬ steps.Early := by
        rintro (⟨f, hf, hopen⟩ | ⟨hnone, -⟩)
        · rw [hkprobe] at hf
          obtain rfl := Option.some.inj hf
          cases hopen
        · rw [hkprobe] at hnone
          cases hnone
      refine ⟨iff_of_false (fun h => ?_) hsteps, fun h => absurd h hsteps⟩
      exact not_allOrNothing rfl rfl (Finset.notMem_erase _ _) h.1
  | none =>
    dsimp only
    obtain ⟨r, opened, hrun, hsub, ⟨⟨err, rfl⟩, fault, hfault, hne⟩ | ⟨rfl, hnone, hclosed⟩⟩ :=
      hrest (withoutKprobe n)
    · rw [exec_bind_of_error hrun]
      have hsteps : ¬ steps.Early := by
        rintro (⟨f, hf, -⟩ | ⟨-, hnone⟩)
        · rw [hkprobe] at hf
          cases hf
        · exact hne (hnone fault hfault)
      refine ⟨iff_of_false (fun h => ?_) hsteps, fun h => absurd h hsteps⟩
      refine not_allOrNothing rfl rfl (fun hopen => ?_) h.1
      exact Finset.notMem_erase _ _ (hsub hopen)
    · rw [exec_bind_of_ok hrun]
      -- what was open was the kprobe and the handles that the rest has closed
      have hempty : opened = ∅ := by
        refine Finset.eq_empty_of_forall_notMem fun h hopen => ?_
        have hmem := hsub hopen
        simp only [withoutKprobe, loadedFrom, Finset.mem_erase, Finset.mem_insert,
          Finset.mem_singleton] at hmem
        obtain ⟨hne, hmem⟩ := hmem
        refine hclosed h ?_ hopen
        simp only [List.mem_cons, List.not_mem_nil, or_false]
        tauto
      have hunloaded : ({ withoutKprobe n with opened := opened, loaded := false } :
          Globals).Unloaded := ⟨rfl, hempty⟩
      refine ⟨iff_of_true ⟨hunloaded.allOrNothing, hnoload⟩ (Or.inr ⟨hkprobe, hnone⟩), fun _ => ?_⟩
      exact Or.inl hunloaded

/-- A call in a settled state is sound exactly when it fails early or not at all, and leads to a
settled state then. -/
lemma sound_iff {g : Globals} (hg : Settled g) (c : LifecycleCall) :
    (Sound g c ↔ FailsEarly g c) ∧ (FailsEarly g c → Settled (after g c)) := by
  cases c with
  | ensureLoaded steps =>
    rcases hg with hg | ⟨n, rfl⟩
    · exact sound_load_iff hg steps
    · have hexec : (LifecycleCall.ensureLoaded steps).exec (loadedFrom n) =
          (.ok (), loadedFrom n) := by
        rw [LifecycleCall.exec, exec_ensureLoaded]
        rfl
      rw [Sound, after, hexec]
      refine ⟨iff_of_true ⟨allOrNothing_loadedFrom n, fun _ _ _ h => by cases h⟩ ?_,
        fun _ => Or.inr ⟨n, rfl⟩⟩
      exact fun h => by cases h
  | unload steps =>
    rcases hg with hg | ⟨n, rfl⟩
    · have hafter := staysUnloaded_unloadEbpf steps g hg
      refine ⟨iff_of_true ⟨hafter.allOrNothing, fun _ h => by cases h⟩ ?_, fun _ => Or.inl hafter⟩
      exact fun h => absurd (hg.1.symm.trans h) Bool.false_ne_true
    · exact sound_unload_iff n steps

/-- For every sequence of calls whose steps may fail: all calls are sound if and only if no load
fails after it has opened the programs and maps, and no unload of a loaded program fails after it
has closed the kprobe. -/
theorem allOrNothing_iff (calls : List LifecycleCall) :
    Runs.Along after Sound calls {} ↔ Runs.Along after FailsEarly calls {} := by
  have hkeep : ∀ g c, Settled g → FailsEarly g c → Settled (after g c) :=
    fun _ c hg hc => (sound_iff hg c).2 hc
  have hiff : ∀ g c, Settled g → (Sound g c ↔ FailsEarly g c) := fun _ c hg => (sound_iff hg c).1
  have hstart : Settled {} := Or.inl ⟨rfl, rfl⟩
  exact Runs.along_iff_of_invariant hkeep hiff hstart

/-- The reader of the ring buffer cannot be opened, and the load is tried again: the kprobe of the
first load stays attached beside that of the second, and no variable refers to it. -/
theorem allOrNothing_counterexample :
    let calls : List LifecycleCall :=
      [.ensureLoaded { newReader := some "can't epoll fd" }, .ensureLoaded {}]
    ¬ Runs.Along after Sound calls {} ∧ (Runs.run after calls {}).loaded = true ∧
      (Runs.run after calls {}).attached = {⟨4, .kprobe⟩, ⟨9, .kprobe⟩} ∧
      (Runs.run after calls {}).kprobe = some ⟨9, .kprobe⟩ := by
  refine ⟨fun h => ?_, by decide, by decide, by decide⟩
  have hsub := h.1.2 _ rfl _ rfl
  exact absurd hsub (by decide)

end Lifecycle

end Kive
