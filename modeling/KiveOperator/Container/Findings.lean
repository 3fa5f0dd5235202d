import KiveOperator.Container.SearchAgain

/-!
# What a search finds

A search finds the file of a trap wherever it is there and can be opened (`Host.Locates.found`), and
where it has created a file, it has found it (`found_of_created`).  `Host.Searched` is what a search
may change: entries come to hold new files, and files are emptied.
-/

namespace Kive

open Interaction

/-! ## File systems that have been searched -/

namespace FileSystem

/-- A path whose file `creat` can open, if there is one. -/
def Opens (fs : FileSystem) (path : String) : Prop :=
  ∀ s, fs.walk path = some s → fs.openError s = none ∧
    ∀ id, fs.entry s = some id → (fs.file id).isDir = false

/-- Entries have come to hold new files, and files have been emptied. -/
structure Grown (fs fs' : FileSystem) : Prop where
  walk : fs'.walk = fs.walk
  openError : fs'.openError = fs.openError
  kept : ∀ s id, fs.entry s = some id →
    fs'.entry s = some id ∧ (fs'.file id).isDir = (fs.file id).isDir
  fresh : ∀ s id, fs.entry s = none → fs'.entry s = some id → (fs'.file id).isDir = false

/-- The files stay as they are. -/
lemma Grown.refl (fs : FileSystem) : fs.Grown fs where
  walk := rfl
  openError := rfl
  kept _ _ h := ⟨h, rfl⟩
  fresh _ _ hnone hsome := absurd (hnone.symm.trans hsome) (by simp)

/-- One change of the files after another. -/
lemma Grown.trans {fs₁ fs₂ fs₃ : FileSystem} (h₁₂ : fs₁.Grown fs₂) (h₂₃ : fs₂.Grown fs₃) :
    fs₁.Grown fs₃ where
  walk := h₂₃.walk.trans h₁₂.walk
  openError := h₂₃.openError.trans h₁₂.openError
  kept s id h := by
    obtain ⟨hentry, hdir⟩ := h₁₂.kept s id h
    obtain ⟨hentry', hdir'⟩ := h₂₃.kept s id hentry
    exact ⟨hentry', hdir'.trans hdir⟩
  fresh s id hnone hsome := by
    cases hentry : fs₂.entry s with
    | none => exact h₂₃.fresh s id hentry hsome
    | some id' =>
      obtain ⟨hentry', hdir⟩ := h₂₃.kept s id' hentry
      obtain rfl := Option.some.inj (hsome.symm.trans hentry')
      exact hdir.trans (h₁₂.fresh s id hnone hentry)

/-- Emptying a file changes no entry. -/
lemma grown_truncate (fs : FileSystem) (id : FileId) : fs.Grown (fs.truncate id) where
  walk := rfl
  openError := rfl
  kept _ id' h := ⟨h, ((SamePaths.refl fs).truncate id).isDir id'⟩
  fresh _ _ hnone hsome := absurd (hnone.symm.trans hsome) (by simp)

/-- An entry without a file gets a new one, which is no directory. -/
lemma grown_create {fs : FileSystem} {s : ℕ} {mode : UInt32} {ino : UInt64}
    (hino : (fs.free (fs.device s)).head? = some ino) (hs : fs.entry s = none) :
    fs.Grown (fs.create s mode ino hino) where
  walk := rfl
  openError := rfl
  kept s' id h := by
    have hne : s' ≠ s := by
      rintro rfl
      exact absurd (hs.symm.trans h) (by simp)
    refine ⟨(Function.update_of_ne hne _ _).trans h, ?_⟩
    have hid : id ≠ ⟨fs.device s, ino⟩ := by
      rintro rfl
      exact fs.free_unused _ ino (List.mem_of_mem_head? hino) s' h
    exact congrArg File.isDir (Function.update_of_ne hid _ _)
  fresh s' id hnone hsome := by
    rcases eq_or_ne s' s with rfl | hne
    · have hself : (fs.create s' mode ino hino).entry s' = some ⟨fs.device s', ino⟩ :=
        Function.update_self ..
      obtain rfl := Option.some.inj (hself.symm.trans hsome)
      have hfile : (fs.create s' mode ino hino).file ⟨fs.device s', ino⟩ =
          { mode := mode &&& ~~~fs.umask, contents := [] } := Function.update_self ..
      rw [hfile]
    · exact absurd (hnone.symm.trans ((Function.update_of_ne hne _ _).symm.trans hsome)) (by simp)

/-- The system call fills an entry, empties a file or changes nothing. -/
lemma grown_creat (fs : FileSystem) (path : String) (mode : UInt32) :
    fs.Grown (fs.creat path mode).2 := by
  rcases creat_cases fs path mode with ⟨-, -, heq⟩ | ⟨id, -, heq⟩ | ⟨s, ino, hino, -, hs, heq⟩
  · rw [heq]
    exact Grown.refl fs
  · rw [heq]
    exact grown_truncate fs id
  · rw [heq]
    exact grown_create hino hs

/-- What can be opened stays the same. -/
lemma Grown.opens_iff {fs fs' : FileSystem} (h : fs.Grown fs') {path : String} :
    fs'.Opens path ↔ fs.Opens path := by
  constructor
  · intro hopens s hwalk
    obtain ⟨hopen, hdir⟩ := hopens s (h.walk ▸ hwalk)
    refine ⟨h.openError ▸ hopen, fun id hid => ?_⟩
    obtain ⟨hentry, hsame⟩ := h.kept s id hid
    exact hsame.symm.trans (hdir id hentry)
  · intro hopens s hwalk
    obtain ⟨hopen, hdir⟩ := hopens s (h.walk ▸ hwalk)
    refine ⟨h.openError ▸ hopen, fun id hid => ?_⟩
    cases hentry : fs.entry s with
    | none => exact h.fresh s id hentry hid
    | some id' =>
      obtain ⟨hentry', hsame⟩ := h.kept s id' hentry
      obtain rfl := Option.some.inj (hid.symm.trans hentry')
      exact hsame.trans (hdir id hentry)

/-- `creat` succeeds where the file is there and can be opened. -/
lemma Opens.creat {fs : FileSystem} {path : String} {id : FileId} (h : fs.Opens path)
    (hid : fs.lookup path = some id) (mode : UInt32) :
    fs.creat path mode = (.ok (), fs.truncate id) := by
  obtain ⟨s, hwalk, hentry⟩ := Option.bind_eq_some_iff.mp hid
  obtain ⟨hopen, hdir⟩ := h s hwalk
  rw [FileSystem.creat, hwalk]
  dsimp only
  rw [hopen, hentry]
  dsimp only
  rw [hdir id hentry]
  rfl

/-- Where `creat` succeeds, the path can be opened, and there is a file now. -/
lemma of_creat_eq_ok {fs : FileSystem} {path : String} {mode : UInt32}
    (h : (fs.creat path mode).1 = .ok ()) :
    fs.Opens path ∧ ∃ id, (fs.creat path mode).2.lookup path = some id := by
  unfold FileSystem.creat at h ⊢
  cases hwalk : fs.walk path with
  | none =>
    rw [hwalk] at h
    cases h
  | some s =>
    rw [hwalk] at h
    dsimp only at h ⊢
    have hs : ∀ s', fs.walk path = some s' → s' = s := fun s' hs' =>
      Option.some.inj (hs'.symm.trans hwalk)
    cases hopen : fs.openError s with
    | some err =>
      rw [hopen] at h
      cases h
    | none =>
      rw [hopen] at h
      dsimp only at h ⊢
      cases hentry : fs.entry s with
      | some id =>
        rw [hentry] at h
        dsimp only at h ⊢
        cases hdir : (fs.file id).isDir with
        | true =>
          rw [hdir] at h
          cases h
        | false =>
          refine ⟨fun s' hs' => ?_, id, ?_⟩
          · obtain rfl := hs s' hs'
            refine ⟨hopen, fun id' hid' => ?_⟩
            obtain rfl := Option.some.inj (hentry.symm.trans hid')
            exact hdir
          · exact Option.bind_eq_some_iff.mpr ⟨s, hwalk, hentry⟩
      | none =>
        rw [hentry] at h
        dsimp only at h ⊢
        refine ⟨fun s' hs' => ?_, ?_⟩
        · obtain rfl := hs s' hs'
          exact ⟨hopen, fun id' hid' => absurd (hentry.symm.trans hid') (by simp)⟩
        · split at h
          · cases h
          · next ino hino => exact ⟨_, (lookup_create hino).trans (if_pos hwalk)⟩

/-- A path that comes to lead to a file through `creat` leads to the one that was created. -/
lemma lookup_of_created {fs : FileSystem} {path target : String} {mode : UInt32} {id : FileId}
    (hnone : fs.lookup path = none) (hid : (fs.creat target mode).2.lookup path = some id) :
    (fs.creat target mode).1 = .ok () ∧ (fs.creat target mode).2.lookup target = some id := by
  rcases creat_cases fs target mode with ⟨-, -, heq⟩ | ⟨id', -, heq⟩ | ⟨s, ino, hino, hwalk, -, heq⟩
  · rw [heq] at hid
    exact absurd (hnone.symm.trans hid) (by simp)
  · rw [heq, lookup_truncate] at hid
    exact absurd (hnone.symm.trans hid) (by simp)
  · rw [heq] at hid ⊢
    refine ⟨rfl, ?_⟩
    rw [lookup_create] at hid ⊢
    rw [if_pos hwalk]
    split_ifs at hid
    · exact hid
    · exact absurd (hnone.symm.trans hid) (by simp)

end FileSystem

/-! ## Hosts that have been searched -/

namespace Host

/-- What searches may change of a host. -/
structure Searched (h h' : Host) : Prop where
  connectAnswer : h'.connectAnswer = h.connectAnswer
  reachable : (h'.connected || h'.connectAnswer.toBool) = (h.connected || h.connectAnswer.toBool)
  containers : h'.containers = h.containers
  task : h'.task = h.task
  fs : h.fs.Grown h'.fs

/-- A host that nobody searches. -/
lemma Searched.refl (h : Host) : h.Searched h := ⟨rfl, rfl, rfl, rfl, .refl _⟩

/-- One search after another. -/
lemma Searched.trans {h₁ h₂ h₃ : Host} (h₁₂ : h₁.Searched h₂) (h₂₃ : h₂.Searched h₃) :
    h₁.Searched h₃ :=
  ⟨h₂₃.connectAnswer.trans h₁₂.connectAnswer, h₂₃.reachable.trans h₁₂.reachable,
    h₂₃.containers.trans h₁₂.containers, h₂₃.task.trans h₁₂.task, h₁₂.fs.trans h₂₃.fs⟩

/-- Hosts that are alike differ by no more than searches may change. -/
lemma Alike.searched {h h' : Host} (ha : h.Alike h') : h.Searched h' :=
  ⟨ha.connectAnswer, ha.reachable, ha.containers, ha.task, ha.fs ▸ .refl _⟩

/-- No call of a search changes more than searches may. -/
lemma searched_handle (op : RuntimeCall) (h : Host) : h.Searched (Host.handle op h).2 := by
  cases op
  case connect => exact h.alike_connect.searched
  case creat target mode => exact ⟨rfl, rfl, rfl, rfl, FileSystem.grown_creat h.fs target mode⟩
  all_goals exact Searched.refl h

/-- A program of such calls changes no more than searches may. -/
lemma searched_run {α : Type} (p : RuntimeProg α) (h : Host) :
    h.Searched (p.run Host.handle h).2 :=
  Prog.run_rel Host.handle Searched.refl Searched.trans searched_handle p h

/-- Nothing but a missing file or a missing container keeps a search for the file of a trap from
finding it. -/
structure Searchable (h : Host) (c : ContainerStatus) (t : KiveTrap) : Prop where
  ready : c.ready = true
  supported : ∃ runtime id, splitContainerRuntimeID c.containerID = .ok (runtime, id) ∧
    isContainerRuntimeSupported runtime = true
  reachable : (h.connected || h.connectAnswer.toBool) = true
  opens : t.create = true → ∀ pid, h.task (containerIDPart c.containerID) = .ok pid →
    h.fs.Opens (targetPath pid t.path)

/-- What can be searched does not change with a search. -/
lemma Searched.searchable_iff {h h' : Host} (hs : h.Searched h') {c : ContainerStatus}
    {t : KiveTrap} : h'.Searchable c t ↔ h.Searchable c t := by
  constructor
  · rintro ⟨hready, hsupported, hreachable, hopens⟩
    refine ⟨hready, hsupported, hs.reachable ▸ hreachable, fun hcreate pid hpid => ?_⟩
    exact hs.fs.opens_iff.mp (hopens hcreate pid (hs.task ▸ hpid))
  · rintro ⟨hready, hsupported, hreachable, hopens⟩
    refine ⟨hready, hsupported, hs.reachable ▸ hreachable, fun hcreate pid hpid => ?_⟩
    exact hs.fs.opens_iff.mpr (hopens hcreate pid (hs.task ▸ hpid))

end Host

/-! ## Searches -/

section Search

variable {c : ContainerStatus} {t : KiveTrap} {h : Host}

/-- The file of a container is found once containerd answers. -/
lemma run_getInodeDev_of_lookup {pid : UInt32} {id : FileId}
    (hopens : t.create = true → h.fs.Opens (targetPath pid t.path))
    (hid : h.fs.lookup (targetPath pid t.path) = some id) :
    ((getInodeDev pid t.path t.create t.mode).run Host.handle h).1 = .ok (id.ino, id.dev) := by
  unfold getInodeDev
  split_ifs with hcreate
  · simp only [Syscall.creat, Prog.perform_bind, Prog.run_call, Host.handle]
    rw [(hopens hcreate).creat hid]
    exact FileSystem.stat_eq_ok_iff.mpr hid
  · exact FileSystem.stat_eq_ok_iff.mpr hid

/-- The search for a container reports the file that the path of the trap leads to. -/
lemma run_findContainer_of_lookup {pid : UInt32} {id : FileId}
    (htask : h.task (containerIDPart c.containerID) = .ok pid)
    (hopens : t.create = true → h.fs.Opens (targetPath pid t.path))
    (hid : h.fs.lookup (targetPath pid t.path) = some id) {containers : List String}
    (hmem : containerIDPart c.containerID ∈ containers) :
    ((Containerd.findContainer (containerIDPart c.containerID) t containers).run
      Host.handle h).1 =
        .ok { ino := id.ino, devID := userDevToKernelDev id.dev, isFound := true } := by
  induction containers with
  | nil => cases hmem
  | cons x containers ih =>
    unfold Containerd.findContainer
    split_ifs with hx
    · subst hx
      simp only [Runtime.task, Prog.perform_bind, Prog.run_call, Host.handle]
      rw [htask]
      dsimp only
      rw [Prog.run_bind, run_getInodeDev_of_lookup hopens hid]
      rfl
    · exact ih ((List.mem_cons.mp hmem).resolve_left fun heq => hx heq.symm)

/-- What is reported of a file that is found. -/
def foundData (c : ContainerStatus) (id : FileId) : ContainerData where
  ino := id.ino
  devID := userDevToKernelDev id.dev
  id := c.containerID
  name := c.name
  isFound := true

/-- A file that is there is found. -/
lemma Host.Locates.found {cd : ContainerData} (hl : h.Locates c t cd) (hs : h.Searchable c t) :
    ∃ cd', ((getContainerData c t).run Host.handle h).1 = .ok cd' ∧ cd'.isFound = true ∧
      cd'.shouldRequeue = false ∧ cd'.ino = cd.ino ∧ cd'.devID = cd.devID := by
  obtain ⟨⟨containers, hcontainers, hmem⟩, pid, id, htask, hid, hino, hdev⟩ := hl
  obtain ⟨runtime, id', hsplit, hsupported⟩ := hs.supported
  obtain rfl : id' = containerIDPart c.containerID := by rw [containerIDPart, hsplit]
  rcases run_getContainerData_cases c t h hs.ready hsplit hsupported with
    ⟨-, h', ha, hrun⟩ | ⟨hnot, -⟩
  · rw [hrun]
    have hfind := run_findContainer_of_lookup (ha.task ▸ htask)
      (fun hcreate => ha.fs ▸ hs.opens hcreate pid htask) (ha.fs ▸ hid) hmem
    refine ⟨foundData c id, ?_, rfl, rfl, hino.symm, hdev.symm⟩
    unfold queryRuntime Containerd.getContainerData
    simp only [Prog.run_bind, Runtime.containers, Prog.run_perform, Host.handle, ha.containers,
      hcontainers]
    rw [hfind]
    rfl
  · rw [hs.reachable] at hnot
    cases hnot

/-! ## Files that a search has created -/

section Created

variable {path : String} {id : FileId}

/-- A file that the call has made is the one it reports. -/
lemma run_getInodeDev_of_created {pid : UInt32} (hnone : h.fs.lookup path = none)
    (hid : ((getInodeDev pid t.path t.create t.mode).run Host.handle h).2.fs.lookup path =
      some id) :
    ((getInodeDev pid t.path t.create t.mode).run Host.handle h).1 = .ok (id.ino, id.dev) := by
  unfold getInodeDev at hid ⊢
  split_ifs at hid ⊢ with hcreate
  · simp only [Syscall.creat, Prog.perform_bind, Prog.run_call, Host.handle] at hid ⊢
    have hsame : (h.fs.creat (targetPath pid t.path) t.mode).2.lookup path = some id := by
      cases hcreat : (h.fs.creat (targetPath pid t.path) t.mode).1 with
      | error err =>
        rw [hcreat] at hid
        exact hid
      | ok u =>
        rw [hcreat] at hid
        exact hid
    obtain ⟨hok, htarget⟩ := FileSystem.lookup_of_created hnone hsame
    rw [hok]
    exact FileSystem.stat_eq_ok_iff.mpr htarget
  · exact absurd (hnone.symm.trans hid) (by simp)

/-- A file that the search has made is the one it reports. -/
lemma run_findContainer_of_created {containers : List String} (hnone : h.fs.lookup path = none)
    (hid : ((Containerd.findContainer (containerIDPart c.containerID) t containers).run
      Host.handle h).2.fs.lookup path = some id) :
    ((Containerd.findContainer (containerIDPart c.containerID) t containers).run
      Host.handle h).1 =
        .ok { ino := id.ino, devID := userDevToKernelDev id.dev, isFound := true } := by
  induction containers with
  | nil => exact absurd (hnone.symm.trans hid) (by simp)
  | cons x containers ih =>
    unfold Containerd.findContainer at hid ⊢
    split_ifs at hid ⊢ with hx
    · subst hx
      simp only [Runtime.task, Prog.perform_bind, Prog.run_call, Host.handle] at hid ⊢
      cases htask : h.task (containerIDPart c.containerID) with
      | error err =>
        rw [htask] at hid
        exact absurd (hnone.symm.trans hid) (by simp)
      | ok pid =>
        rw [htask] at hid
        dsimp only at hid ⊢
        rw [Prog.run_bind] at hid ⊢
        have hfile : ((getInodeDev pid t.path t.create t.mode).run Host.handle h).2.fs.lookup path =
            some id := by
          cases hrun : ((getInodeDev pid t.path t.create t.mode).run Host.handle h).1 with
          | error err =>
            rw [hrun] at hid
            exact hid
          | ok r =>
            rw [hrun] at hid
            exact hid
        rw [run_getInodeDev_of_created hnone hfile]
        rfl
    · exact ih hid

/-- Where a search has made a path lead to a file, this is the file that it has found. -/
lemma found_of_created (hnone : h.fs.lookup path = none)
    (hid : ((getContainerData c t).run Host.handle h).2.fs.lookup path = some id) :
    ∃ cd, ((getContainerData c t).run Host.handle h).1 = .ok cd ∧ cd.isFound = true ∧
      cd.shouldRequeue = false ∧ cd.ino = id.ino ∧ cd.devID = userDevToKernelDev id.dev := by
  have hstays : ((getContainerData c t).run Host.handle h).2.fs ≠ h.fs := by
    intro hsame
    rw [hsame, hnone] at hid
    cases hid
  cases hready : c.ready with
  | false =>
    refine absurd ?_ hstays
    simp [getContainerData, hready]
  | true =>
    cases hsplit : splitContainerRuntimeID c.containerID with
    | error err =>
      refine absurd ?_ hstays
      simp [getContainerData, hready, hsplit]
    | ok parts =>
      obtain ⟨runtime, id'⟩ := parts
      obtain rfl : id' = containerIDPart c.containerID := by rw [containerIDPart, hsplit]
      cases hsupported : isContainerRuntimeSupported runtime with
      | false =>
        refine absurd ?_ hstays
        simp [getContainerData, hready, hsplit, hsupported]
      | true =>
        rcases run_getContainerData_cases c t h hready hsplit hsupported with
          ⟨-, h', ha, hrun⟩ | ⟨-, err, h', -, ha, hrun⟩
        · rw [hrun] at hid ⊢
          refine ⟨foundData c id, ?_, rfl, rfl, rfl, rfl⟩
          have hnone' : h'.fs.lookup path = none := ha.fs ▸ hnone
          unfold queryRuntime Containerd.getContainerData at hid ⊢
          simp only [Prog.run_bind, Runtime.containers, Prog.run_perform, Host.handle] at hid ⊢
          cases hcontainers : h'.containers with
          | error err =>
            rw [hcontainers] at hid
            exact absurd (hnone'.symm.trans hid) (by simp)
          | ok containers =>
            rw [hcontainers] at hid
            dsimp only at hid ⊢
            have hfind := @run_findContainer_of_created c t h' path id containers hnone'
            cases hrun' : ((Containerd.findContainer (containerIDPart c.containerID) t
                containers).run Host.handle h').1 with
            | error err =>
              rw [hrun'] at hid
              exact absurd (hrun'.symm.trans (hfind hid)) (by simp)
            | ok cd =>
              rw [hrun'] at hid
              obtain rfl := Except.ok.inj (hrun'.symm.trans (hfind hid))
              rfl
        · rw [hrun] at hstays
          exact absurd ha.fs hstays

end Created

/-! ## What has been found could be found -/

/-- If the file is to be created and the call succeeds, the path could be opened. -/
lemma opens_of_run_getInodeDev {pid : UInt32} {r : UInt64 × UInt64}
    (hrun : ((getInodeDev pid t.path t.create t.mode).run Host.handle h).1 = .ok r)
    (hcreate : t.create = true) : h.fs.Opens (targetPath pid t.path) := by
  unfold getInodeDev at hrun
  rw [if_pos hcreate] at hrun
  simp only [Syscall.creat, Prog.perform_bind, Prog.run_call, Host.handle] at hrun
  cases hcreat : (h.fs.creat (targetPath pid t.path) t.mode).1 with
  | error err =>
    rw [hcreat] at hrun
    cases hrun
  | ok u => exact (FileSystem.of_creat_eq_ok hcreat).1

/-- If the file is to be created and the search succeeds, the path could be opened. -/
lemma opens_of_run_findContainer {containers : List String} {cd : ContainerData}
    (hrun : ((Containerd.findContainer (containerIDPart c.containerID) t containers).run
      Host.handle h).1 = .ok cd) (hcreate : t.create = true) {pid : UInt32}
    (htask : h.task (containerIDPart c.containerID) = .ok pid) :
    h.fs.Opens (targetPath pid t.path) := by
  induction containers with
  | nil => cases hrun
  | cons x containers ih =>
    unfold Containerd.findContainer at hrun
    split_ifs at hrun with hx
    · subst hx
      simp only [Runtime.task, Prog.perform_bind, Prog.run_call, Host.handle] at hrun
      rw [htask] at hrun
      dsimp only at hrun
      rw [Prog.run_bind] at hrun
      cases hfile : ((getInodeDev pid t.path t.create t.mode).run Host.handle h).1 with
      | error err =>
        rw [hfile] at hrun
        cases hrun
      | ok r => exact opens_of_run_getInodeDev hfile hcreate
    · exact ih hrun

/-- A file is found only where nothing keeps the search from it. -/
lemma searchable_of_found {cd : ContainerData} (hfound : cd.isFound = true)
    (hrun : ((getContainerData c t).run Host.handle h).1 = .ok cd) : h.Searchable c t := by
  cases hready : c.ready with
  | false =>
    simp only [getContainerData, hready, Bool.not_false, if_true] at hrun
    obtain rfl := Except.ok.inj hrun
    cases hfound
  | true =>
    cases hsplit : splitContainerRuntimeID c.containerID with
    | error err =>
      simp only [getContainerData, hready, hsplit, Bool.not_true, Bool.false_eq_true,
        if_false] at hrun
      cases hrun
    | ok parts =>
      obtain ⟨runtime, id⟩ := parts
      obtain rfl : id = containerIDPart c.containerID := by rw [containerIDPart, hsplit]
      cases hsupported : isContainerRuntimeSupported runtime with
      | false =>
        simp only [getContainerData, hready, hsplit, hsupported, Bool.not_true, Bool.not_false,
          Bool.false_eq_true, if_false, if_true] at hrun
        cases hrun
      | true =>
        rcases run_getContainerData_cases c t h hready hsplit hsupported with
          ⟨hreachable, h', ha, heq⟩ | ⟨-, err, h', -, -, heq⟩
        · rw [heq] at hrun
          refine ⟨hready, ⟨runtime, _, hsplit, hsupported⟩, hreachable, fun hcreate pid hpid => ?_⟩
          unfold queryRuntime Containerd.getContainerData at hrun
          simp only [Prog.run_bind, Runtime.containers, Prog.run_perform, Host.handle] at hrun
          cases hcontainers : h'.containers with
          | error err =>
            rw [hcontainers] at hrun
            obtain rfl := Except.ok.inj hrun
            cases hfound
          | ok containers =>
            rw [hcontainers] at hrun
            dsimp only at hrun
            cases hfind : ((Containerd.findContainer (containerIDPart c.containerID) t
                containers).run Host.handle h').1 with
            | error err =>
              rw [hfind] at hrun
              obtain rfl := Except.ok.inj hrun
              cases hfound
            | ok cd' =>
              rw [← ha.fs]
              exact opens_of_run_findContainer hfind hcreate (ha.task ▸ hpid)
        · rw [heq] at hrun
          cases hrun

end Search

end Kive
