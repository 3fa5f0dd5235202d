import Mathlib.Data.UInt
import Mathlib.Logic.Function.Basic

/-!
# The file system of a node

What `creat` and `stat` do on the files of the containers of a node.  A path is resolved to a
directory entry (parents and links followed), an entry may hold a file, and a file is known by
device and inode number: two entries may hold one file.  New files take the free inode numbers
of their device.

`creat(path, mode)` is `open` with `O_CREAT|O_WRONLY|O_TRUNC`.  `filesKept_creat_iff` says when
it leaves every existing file as it was.
-/

namespace Kive

/-- The identity of a file: the device number that `stat` reports and the inode number. -/
structure FileId where
  dev : UInt64
  ino : UInt64
  deriving DecidableEq

structure File where
  mode : UInt32
  contents : List UInt8
  isDir : Bool := false
  deriving DecidableEq

/-- The files of a node, as its system calls see them. -/
structure FileSystem where
  /-- The directory entry that a path names, if all its directories exist. -/
  walk : String → Option ℕ
  /-- The device that a directory entry lies on. -/
  device : ℕ → UInt64
  /-- The file that an entry holds. -/
  entry : ℕ → Option FileId
  file : FileId → File
  /-- Any reason other than those below for which opening an entry for writing fails. -/
  openError : ℕ → Option String
  /-- The inode numbers that a device can still give to new files. -/
  free : UInt64 → List UInt64
  umask : UInt32
  /-- A free inode is not that of a file. -/
  free_unused : ∀ dev, ∀ ino ∈ free dev, ∀ s, entry s ≠ some ⟨dev, ino⟩
  free_nodup : ∀ dev, (free dev).Nodup

namespace FileSystem

/-- Without free inodes there are no two equal ones. -/
lemma nodup_of_no_free : ∀ _ : UInt64, ([] : List UInt64).Nodup := fun _ => List.nodup_nil

/-- A file system in which no path leads anywhere. -/
def empty : FileSystem where
  walk _ := none
  device _ := 0
  entry _ := none
  file _ := { mode := 0, contents := [] }
  openError _ := none
  free _ := []
  umask := 0
  free_unused := by simp
  free_nodup := nodup_of_no_free

/-- Where no inode is free, none that is free is taken. -/
lemma unused_of_no_free (entry : ℕ → Option FileId) :
    ∀ dev, ∀ ino ∈ empty.free dev, ∀ s, entry s ≠ some ⟨dev, ino⟩ := by
  simp [empty]

/-- The file that a path names. -/
def lookup (fs : FileSystem) (path : String) : Option FileId :=
  (fs.walk path).bind fs.entry

/-- The file, emptied. -/
def truncate (fs : FileSystem) (id : FileId) : FileSystem :=
  { fs with file := Function.update fs.file id { fs.file id with contents := [] } }

/-- A new empty file at the entry `s`, with the mode that the umask leaves. -/
def create (fs : FileSystem) (s : ℕ) (mode : UInt32) (ino : UInt64)
    (hino : (fs.free (fs.device s)).head? = some ino) : FileSystem :=
  { fs with
    entry := Function.update fs.entry s (some ⟨fs.device s, ino⟩)
    file := Function.update fs.file ⟨fs.device s, ino⟩
      { mode := mode &&& ~~~fs.umask, contents := [] }
    free := Function.update fs.free (fs.device s) (fs.free (fs.device s)).tail
    free_unused := by
      intro dev i hi s' hs'
      obtain ⟨rest, hfree⟩ := List.head?_eq_some_iff.mp hino
      have hold : i ∈ fs.free dev := by
        rcases eq_or_ne dev (fs.device s) with rfl | hne
        · rw [Function.update_self] at hi
          exact List.mem_of_mem_tail hi
        · rwa [Function.update_of_ne hne] at hi
      rcases eq_or_ne s' s with rfl | hne
      · rw [Function.update_self, Option.some.injEq, FileId.mk.injEq] at hs'
        obtain ⟨rfl, rfl⟩ := hs'
        rw [Function.update_self, hfree, List.tail_cons] at hi
        have hnodup := fs.free_nodup (fs.device s')
        rw [hfree] at hnodup
        exact (List.nodup_cons.mp hnodup).1 hi
      · rw [Function.update_of_ne hne] at hs'
        exact fs.free_unused dev i hold s' hs'
    free_nodup := by
      intro dev
      rcases eq_or_ne dev (fs.device s) with rfl | hne
      · rw [Function.update_self]
        exact (fs.free_nodup _).tail
      · rw [Function.update_of_ne hne]
        exact fs.free_nodup dev }

/-- `creat(path, mode)`. -/
def creat (fs : FileSystem) (path : String) (mode : UInt32) : Except String Unit × FileSystem :=
  match fs.walk path with
  | none => (.error "no such file or directory", fs)
  | some s =>
    match fs.openError s with
    | some err => (.error err, fs)
    | none =>
      match fs.entry s with
      | some id =>
        if (fs.file id).isDir then (.error "is a directory", fs) else (.ok (), fs.truncate id)
      | none =>
        match hino : (fs.free (fs.device s)).head? with
        | none => (.error "no space left on device", fs)
        | some ino => (.ok (), fs.create s mode ino hino)

/-- `stat(path)`: inode and device number. -/
def stat (fs : FileSystem) (path : String) : Except String (UInt64 × UInt64) :=
  match fs.lookup path with
  | none => .error "no such file or directory"
  | some id => .ok (id.ino, id.dev)

/-! ## What `creat` does -/

/-- `creat` opens the path and empties the file `id`. -/
def Truncates (fs : FileSystem) (path : String) (id : FileId) : Prop :=
  ∃ s, fs.walk path = some s ∧ fs.openError s = none ∧ fs.entry s = some id ∧
    (fs.file id).isDir = false

/-- A file that is emptied is the one that the path names. -/
lemma Truncates.lookup_eq {fs : FileSystem} {path : String} {id : FileId}
    (h : fs.Truncates path id) : fs.lookup path = some id := by
  obtain ⟨s, hw, -, he, -⟩ := h
  exact Option.bind_eq_some_iff.mpr ⟨s, hw, he⟩

/-- The three things that `creat` can do: fail and change nothing, empty an existing file, or
make a new one. -/
lemma creat_cases (fs : FileSystem) (path : String) (mode : UInt32) :
    ((∀ id, ¬ fs.Truncates path id) ∧ (∃ err, (fs.creat path mode).1 = .error err) ∧
      (fs.creat path mode).2 = fs) ∨
    (∃ id, fs.Truncates path id ∧ fs.creat path mode = (.ok (), fs.truncate id)) ∨
    (∃ s ino hino, fs.walk path = some s ∧ fs.entry s = none ∧
      fs.creat path mode = (.ok (), fs.create s mode ino hino)) := by
  unfold creat
  cases hw : fs.walk path with
  | none =>
    refine Or.inl ⟨?_, ⟨_, rfl⟩, rfl⟩
    rintro id ⟨s, hs, -⟩
    exact absurd (hw.symm.trans hs) (by simp)
  | some s =>
    dsimp only
    cases ho : fs.openError s with
    | some err =>
      refine Or.inl ⟨?_, ⟨_, rfl⟩, rfl⟩
      rintro id ⟨s', hs', hopen, -⟩
      obtain rfl : s = s' := Option.some.inj (hw.symm.trans hs')
      exact absurd (ho.symm.trans hopen) (by simp)
    | none =>
      dsimp only
      cases he : fs.entry s with
      | some id =>
        cases hd : (fs.file id).isDir with
        | true =>
          refine Or.inl ⟨?_, by simp [hd], by simp [hd]⟩
          rintro id' ⟨s', hs', -, he', hdir⟩
          obtain rfl : s = s' := Option.some.inj (hw.symm.trans hs')
          obtain rfl : id = id' := Option.some.inj (he.symm.trans he')
          exact absurd (hd.symm.trans hdir) (by simp)
        | false => exact Or.inr (Or.inl ⟨id, ⟨s, hw, ho, he, hd⟩, by simp [hd]⟩)
      | none =>
        dsimp only
        split
        · refine Or.inl ⟨?_, ⟨_, rfl⟩, rfl⟩
          rintro id ⟨s', hs', -, he', -⟩
          obtain rfl : s = s' := Option.some.inj (hw.symm.trans hs')
          exact absurd (he.symm.trans he') (by simp)
        · next ino hino => exact Or.inr (Or.inr ⟨s, ino, hino, rfl, he, rfl⟩)

/-! ## Damage -/

/-- Every file that a path named is still named by it and is as it was. -/
def FilesKept (fs fs' : FileSystem) : Prop :=
  ∀ path id, fs.lookup path = some id → fs'.lookup path = some id ∧ fs'.file id = fs.file id

/-- The paths resolve as before when a file is emptied. -/
@[simp] lemma lookup_truncate (fs : FileSystem) (id : FileId) (path : String) :
    (fs.truncate id).lookup path = fs.lookup path := rfl

/-- The emptied file. -/
@[simp] lemma file_truncate_self (fs : FileSystem) (id : FileId) :
    (fs.truncate id).file id = { fs.file id with contents := [] } :=
  Function.update_self ..

/-- The other files. -/
lemma file_truncate_of_ne (fs : FileSystem) {id id' : FileId} (h : id' ≠ id) :
    (fs.truncate id).file id' = fs.file id' :=
  Function.update_of_ne h ..

/-- Emptying changes no file that is already empty. -/
lemma file_truncate_self_eq_iff (fs : FileSystem) (id : FileId) :
    (fs.truncate id).file id = fs.file id ↔ (fs.file id).contents = [] := by
  rw [file_truncate_self]
  cases fs.file id
  simp [eq_comm]

section Create

variable {fs : FileSystem} {s : ℕ} {mode : UInt32} {ino : UInt64}
  (hino : (fs.free (fs.device s)).head? = some ino) {path : String} {id : FileId}

/-- Where a path leads after a file was created. -/
lemma lookup_create : (fs.create s mode ino hino).lookup path =
    if fs.walk path = some s then some ⟨fs.device s, ino⟩ else fs.lookup path := by
  change (fs.walk path).bind (Function.update fs.entry s (some ⟨fs.device s, ino⟩)) = _
  unfold lookup
  cases fs.walk path with
  | none => simp
  | some s' =>
    rcases eq_or_ne s' s with rfl | hne
    · simp
    · simp [hne]

/-- Creating a file at an empty entry keeps every file that existed. -/
lemma filesKept_create (hs : fs.entry s = none) : fs.FilesKept (fs.create s mode ino hino) := by
  intro path id h
  obtain ⟨s', hw, he⟩ := Option.bind_eq_some_iff.mp h
  constructor
  · rw [lookup_create, if_neg, h]
    rw [hw]
    rintro ⟨⟩
    exact absurd (hs.symm.trans he) (by simp)
  · refine Function.update_of_ne ?_ _ _
    rintro rfl
    exact fs.free_unused _ ino (List.mem_of_mem_head? hino) s' he

/-- A path that comes to name a file by the creation of a file names the new, empty one. -/
lemma file_of_lookup_create (hnone : fs.lookup path = none)
    (hid : (fs.create s mode ino hino).lookup path = some id) :
    (fs.create s mode ino hino).file id = { mode := mode &&& ~~~fs.umask, contents := [] } := by
  rw [lookup_create] at hid
  split_ifs at hid
  · obtain rfl := Option.some.inj hid
    exact Function.update_self ..
  · exact absurd (hnone.symm.trans hid) (by simp)

end Create

/-- The file that `creat` is about to empty has something in it. -/
def Endangers (fs : FileSystem) (path : String) : Prop :=
  ∃ id, fs.Truncates path id ∧ (fs.file id).contents ≠ []

/-- `creat` keeps all files exactly when it does not empty one that has something in it. -/
theorem filesKept_creat_iff (fs : FileSystem) (path : String) (mode : UInt32) :
    fs.FilesKept (fs.creat path mode).2 ↔ ¬ fs.Endangers path := by
  rcases creat_cases fs path mode with ⟨hno, -, heq⟩ | ⟨id, hid, heq⟩ | ⟨s, ino, hino, hw, hs, heq⟩
  · rw [heq]
    refine ⟨?_, fun _ _ _ h => ⟨h, rfl⟩⟩
    rintro - ⟨id, hid, -⟩
    exact hno id hid
  · rw [heq]
    constructor
    · rintro hkept ⟨id', hid', hne⟩
      obtain rfl : id = id' := Option.some.inj (hid.lookup_eq.symm.trans hid'.lookup_eq)
      exact hne ((file_truncate_self_eq_iff fs id).mp (hkept path id hid.lookup_eq).2)
    · intro hsafe path' id' hid'
      refine ⟨hid', ?_⟩
      rcases eq_or_ne id' id with rfl | hne
      · have hempty : (fs.file id').contents = [] := by
          by_contra hcontents
          exact hsafe ⟨id', hid, hcontents⟩
        exact (file_truncate_self_eq_iff fs id').mpr hempty
      · exact file_truncate_of_ne fs hne
  · rw [heq]
    refine ⟨?_, fun _ => filesKept_create hino hs⟩
    rintro - ⟨id, hid, -⟩
    have hnone : fs.lookup path = none := by rw [lookup, hw, Option.bind_some, hs]
    exact absurd (hnone.symm.trans hid.lookup_eq) (by simp)

/-- Whatever `creat` does, a path that named a file still names it. -/
lemma lookup_creat {fs : FileSystem} {path : String} {id : FileId} (target : String)
    (mode : UInt32) (h : fs.lookup path = some id) :
    (fs.creat target mode).2.lookup path = some id := by
  rcases creat_cases fs target mode with ⟨-, -, heq⟩ | ⟨id', -, heq⟩ | ⟨s, ino, hino, -, hs, heq⟩
  · rwa [heq]
  · rwa [heq, lookup_truncate]
  · rw [heq]
    exact (filesKept_create hino hs path id h).1

/-- `stat` tells which file a path names. -/
lemma stat_eq_ok_iff {fs : FileSystem} {path : String} {ino dev : UInt64} :
    fs.stat path = .ok (ino, dev) ↔ fs.lookup path = some ⟨dev, ino⟩ := by
  unfold stat
  cases fs.lookup path with
  | none => simp
  | some id => cases id; simp [and_comm]

/-- A path that comes to name a file through `creat` names a new, empty one. -/
lemma file_of_lookup_creat {fs : FileSystem} {target path : String} {mode : UInt32} {id : FileId}
    (hnone : fs.lookup path = none) (hid : (fs.creat target mode).2.lookup path = some id) :
    (fs.creat target mode).2.file id = { mode := mode &&& ~~~fs.umask, contents := [] } := by
  rcases creat_cases fs target mode with ⟨-, -, heq⟩ | ⟨id', -, heq⟩ | ⟨s, ino, hino, -, -, heq⟩
  · rw [heq] at hid
    exact absurd (hnone.symm.trans hid) (by simp)
  · rw [heq, lookup_truncate] at hid
    exact absurd (hnone.symm.trans hid) (by simp)
  · rw [heq] at hid ⊢
    exact file_of_lookup_create hino hnone hid

end FileSystem

end Kive
