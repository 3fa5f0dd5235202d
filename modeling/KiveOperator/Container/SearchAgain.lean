import KiveOperator.Container.Search

/-!
# Searching again

A search empties the file of a trap that asks for the file to be created, and connects to the
runtime where that has not been done.  If there is no file left to create, neither changes what a
search finds: `exists_answers_getContainerData` says that the answer is the same each time.
-/

namespace Kive

open Interaction

/-! ## The same paths -/

namespace FileSystem

/-- The paths lead to the same files, whatever is in them. -/
structure SamePaths (fs fs' : FileSystem) : Prop where
  walk : fs'.walk = fs.walk
  entry : fs'.entry = fs.entry
  openError : fs'.openError = fs.openError
  isDir : ∀ id, (fs'.file id).isDir = (fs.file id).isDir

/-- The same files have the same paths. -/
lemma SamePaths.refl (fs : FileSystem) : fs.SamePaths fs := ⟨rfl, rfl, rfl, fun _ => rfl⟩

/-- The same paths lead to the same files. -/
lemma SamePaths.lookup {fs fs' : FileSystem} (h : fs.SamePaths fs') (path : String) :
    fs'.lookup path = fs.lookup path := by
  rw [FileSystem.lookup, FileSystem.lookup, h.walk, h.entry]

/-- Emptying a file leaves the paths alone. -/
lemma SamePaths.truncate {fs fs' : FileSystem} (h : fs.SamePaths fs') (id : FileId) :
    fs.SamePaths (fs'.truncate id) where
  walk := h.walk
  entry := h.entry
  openError := h.openError
  isDir id' := by
    rw [← h.isDir id']
    rcases eq_or_ne id' id with rfl | hne
    · rw [file_truncate_self]
    · rw [file_truncate_of_ne fs' hne]

/-- Where the directories of the path exist, the file does. -/
def NoneToCreate (fs : FileSystem) (path : String) : Prop :=
  ∀ s, fs.walk path = some s → fs.entry s ≠ none

/-- `creat` makes no file then, and succeeds or fails alike. -/
lemma SamePaths.creat {fs fs' : FileSystem} (h : fs.SamePaths fs') {path : String}
    (hnone : fs.NoneToCreate path) (mode : UInt32) :
    (fs'.creat path mode).1 = (fs.creat path mode).1 ∧ fs.SamePaths (fs'.creat path mode).2 := by
  unfold FileSystem.creat
  rw [h.walk]
  cases hwalk : fs.walk path with
  | none => exact ⟨rfl, h⟩
  | some s =>
    dsimp only
    rw [h.openError, h.entry]
    cases fs.openError s with
    | some err => exact ⟨rfl, h⟩
    | none =>
      cases hentry : fs.entry s with
      | none => exact absurd hentry (hnone s hwalk)
      | some id =>
        dsimp only
        rw [h.isDir]
        split_ifs
        · exact ⟨rfl, h⟩
        · exact ⟨rfl, h.truncate id⟩

end FileSystem

/-! ## Hosts that answer the same -/

namespace Host

/-- The hosts differ at most in whether they are connected to a runtime that can be connected to,
and in the contents of files. -/
structure Like (h h' : Host) : Prop where
  connectAnswer : h'.connectAnswer = h.connectAnswer
  reachable : (h'.connected || h'.connectAnswer.toBool) = (h.connected || h.connectAnswer.toBool)
  containers : h'.containers = h.containers
  task : h'.task = h.task
  fs : h.fs.SamePaths h'.fs

/-- A host is like itself. -/
lemma Like.refl (h : Host) : h.Like h := ⟨rfl, rfl, rfl, rfl, .refl _⟩

/-- Being like a host is not lost by a change of what is alike. -/
lemma Like.alike {h h₁ h₂ : Host} (hl : h.Like h₁) (ha : h₁.Alike h₂) : h.Like h₂ :=
  ⟨ha.connectAnswer.trans hl.connectAnswer, ha.reachable.trans hl.reachable,
    ha.containers.trans hl.containers, ha.task.trans hl.task, ha.fs ▸ hl.fs⟩

/-- On every host like this one the program has the given answer and leaves such a host. -/
def Answers {α : Type} (h : Host) (p : RuntimeProg α) (a : α) : Prop :=
  ∀ h', h.Like h' → (p.run handle h').1 = a ∧ h.Like (p.run handle h').2

variable {h : Host}

/-- A program that returns at once has its result. -/
lemma answers_ret {α : Type} (a : α) : h.Answers (.ret a) a := fun _ hl => ⟨rfl, hl⟩

/-- Two programs in a row, with one answer each. -/
lemma Answers.bind {α β : Type} {p : RuntimeProg α} {f : α → RuntimeProg β} {a : α} {b : β}
    (hp : h.Answers p a) (hf : h.Answers (f a) b) : h.Answers (p >>= f) b := by
  intro h' hl
  obtain ⟨hanswer, hl'⟩ := hp h' hl
  rw [Prog.run_bind, hanswer]
  exact hf _ hl'

/-- The list of the containers is always the same. -/
lemma answers_containers : h.Answers Runtime.containers h.containers :=
  fun _ hl => ⟨hl.containers, hl⟩

/-- The process of a container is always the same. -/
lemma answers_task (id : String) : h.Answers (Runtime.task id) (h.task id) :=
  fun _ hl => ⟨congrFun hl.task id, hl⟩

/-- The file under a path is always the same. -/
lemma answers_stat (target : String) : h.Answers (Syscall.stat target) (h.fs.stat target) := by
  intro h' hl
  refine ⟨?_, hl⟩
  change h'.fs.stat target = h.fs.stat target
  rw [FileSystem.stat, FileSystem.stat, hl.fs.lookup]

/-- Nothing is created, so the system call always answers the same. -/
lemma answers_creat {target : String} (hnone : h.fs.NoneToCreate target) (mode : UInt32) :
    h.Answers (Syscall.creat target mode) (h.fs.creat target mode).1 := by
  intro h' hl
  obtain ⟨hanswer, hfs⟩ := hl.fs.creat hnone mode
  exact ⟨hanswer, hl.connectAnswer, hl.reachable, hl.containers, hl.task, hfs⟩

/-- The file of a trap is not left to be created in a container. -/
def NoneToCreate (h : Host) (containerStatus : ContainerStatus) (kiveTrap : KiveTrap) : Prop :=
  kiveTrap.create = true → h.Knows (containerIDPart containerStatus.containerID) →
    ∀ pid, h.task (containerIDPart containerStatus.containerID) = .ok pid →
      h.fs.NoneToCreate (targetPath pid kiveTrap.path)

section Search

variable {c : ContainerStatus} {t : KiveTrap}

/-- Looking for the file always ends the same way. -/
lemma exists_answers_getInodeDev {pid : UInt32} {path : String} {create : Bool}
    (hnone : create = true → h.fs.NoneToCreate (targetPath pid path)) (mode : UInt32) :
    ∃ a, h.Answers (getInodeDev pid path create mode) a := by
  unfold getInodeDev
  split_ifs with hcreate
  · have hcreat := answers_creat (hnone hcreate) mode
    cases hanswer : (h.fs.creat (targetPath pid path) mode).1 with
    | error err =>
      rw [hanswer] at hcreat
      exact ⟨_, hcreat.bind (answers_ret _)⟩
    | ok u =>
      rw [hanswer] at hcreat
      exact ⟨_, hcreat.bind (answers_stat _)⟩
  · exact ⟨_, answers_stat _⟩

/-- The loop over the containers always ends the same way. -/
lemma exists_answers_findContainer (hnone : h.NoneToCreate c t) {l : List String}
    (hl : ∀ id ∈ l, h.Knows id) :
    ∃ a, h.Answers (Containerd.findContainer (containerIDPart c.containerID) t l) a := by
  induction l with
  | nil => exact ⟨_, answers_ret _⟩
  | cons x l ih =>
    unfold Containerd.findContainer
    split_ifs with hx
    · subst hx
      have htask := answers_task (h := h) (containerIDPart c.containerID)
      cases hpid : h.task (containerIDPart c.containerID) with
      | error err =>
        rw [hpid] at htask
        exact ⟨_, htask.bind (answers_ret _)⟩
      | ok pid =>
        rw [hpid] at htask
        have hfile : t.create = true → h.fs.NoneToCreate (targetPath pid t.path) := fun hcreate =>
          hnone hcreate (hl _ List.mem_cons_self) pid hpid
        obtain ⟨a, ha⟩ := exists_answers_getInodeDev hfile t.mode
        cases a with
        | error err => exact ⟨_, htask.bind (ha.bind (answers_ret _))⟩
        | ok inodeDev => exact ⟨_, htask.bind (ha.bind (answers_ret _))⟩
    · exact ih fun id hid => hl id (List.mem_cons_of_mem x hid)

/-- A query always ends the same way. -/
lemma exists_answers_queryRuntime (hnone : h.NoneToCreate c t) :
    ∃ a, h.Answers (queryRuntime c (containerIDPart c.containerID) t) a := by
  obtain ⟨a, ha⟩ : ∃ a, h.Answers
      (Containerd.getContainerData (containerIDPart c.containerID) t) a := by
    have hcontainers := answers_containers (h := h)
    cases hlist : h.containers with
    | error err =>
      rw [hlist] at hcontainers
      exact ⟨_, hcontainers.bind (answers_ret _)⟩
    | ok containers =>
      rw [hlist] at hcontainers
      obtain ⟨a, ha⟩ := exists_answers_findContainer hnone
        fun id hid => ⟨containers, hlist, hid⟩
      exact ⟨a, hcontainers.bind ha⟩
  cases a with
  | error err => exact ⟨_, ha.bind (answers_ret _)⟩
  | ok containerData => exact ⟨_, ha.bind (answers_ret _)⟩

/-- The search for the file of a trap has one answer, before and after other such searches, if the
file is not left to be created. -/
theorem exists_answers_getContainerData (hnone : h.NoneToCreate c t) :
    ∃ a, h.Answers (getContainerData c t) a := by
  cases hready : c.ready with
  | false =>
    refine ⟨.ok { shouldRequeue := true }, fun h' hl => ?_⟩
    simp only [getContainerData, hready, Bool.not_false, if_true]
    exact ⟨rfl, hl⟩
  | true =>
    cases hsplit : splitContainerRuntimeID c.containerID with
    | error err =>
      refine ⟨.error err, fun h' hl => ?_⟩
      simp only [getContainerData, hready, hsplit, Bool.not_true, Bool.false_eq_true, if_false]
      exact ⟨rfl, hl⟩
    | ok parts =>
      obtain ⟨runtime, id⟩ := parts
      have hid : id = containerIDPart c.containerID := by rw [containerIDPart, hsplit]
      subst hid
      cases hsupported : isContainerRuntimeSupported runtime with
      | false =>
        refine ⟨.error ("GetContainerData Error: Container runtime " ++ runtime ++
          " is not supported."), fun h' hl => ?_⟩
        simp only [getContainerData, hready, hsplit, hsupported, Bool.not_true, Bool.not_false,
          Bool.false_eq_true, if_false, if_true]
        exact ⟨rfl, hl⟩
      | true =>
        obtain ⟨a, ha⟩ := exists_answers_queryRuntime hnone
        cases hreach : h.connected || h.connectAnswer.toBool with
        | true =>
          refine ⟨a, fun h' hl => ?_⟩
          rcases run_getContainerData_cases c t h' hready hsplit hsupported with
            ⟨-, h₁, ha₁, hrun⟩ | ⟨hr, -⟩
          · rw [hrun]
            exact ha h₁ (hl.alike ha₁)
          · exact absurd (hreach.symm.trans (hl.reachable.symm.trans hr)) (by simp)
        | false =>
          cases hanswer : h.connectAnswer with
          | ok u => simp [hanswer, Except.toBool] at hreach
          | error err =>
            refine ⟨.error ("GetContainerData Error Connect: " ++ err), fun h' hl => ?_⟩
            rcases run_getContainerData_cases c t h' hready hsplit hsupported with
              ⟨hr, -⟩ | ⟨-, err', h₁, hanswer', ha₁, hrun⟩
            · exact absurd (hreach.symm.trans (hl.reachable.symm.trans hr)) (by simp)
            · have herr : err' = err := by
                rw [hl.connectAnswer, hanswer] at hanswer'
                exact (Except.error.inj hanswer').symm
              rw [hrun, herr]
              exact ⟨rfl, hl.alike ha₁⟩

end Search

end Host

end Kive
