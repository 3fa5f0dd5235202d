import KiveOperator.Controller.DataRun
import KiveOperator.Correctness.TrapRecords
import KiveOperator.Ebpf.Tracer

/-!
# The key of a file in the map and in the probe

`stat` reports a device number with major and minor bits interleaved, the kernel keeps them
side by side.  `toNat_userDevToKernelDev` says what the translation computes, `setsKey_of_mapKey`
which key a data pass sets for a KiveData, and `deviceKeys_agree` follows the key from `stat` into
the map and to the probe.
-/

namespace Kive

open Interaction

/-! ## Fields of a word -/

/-- Masking out `k` bits from bit `j` on. -/
lemma land_mask (n j k : ℕ) : n &&& ((2 ^ k - 1) <<< j) = 2 ^ j * (n / 2 ^ j % 2 ^ k) := by
  rw [mul_comm, ← Nat.shiftLeft_eq, ← Nat.shiftRight_eq_div_pow]
  refine Nat.eq_of_testBit_eq fun i => ?_
  by_cases hi : j ≤ i
  · simp [Nat.testBit_shiftLeft, Nat.testBit_shiftRight, Nat.testBit_mod_two_pow,
      Nat.testBit_two_pow_sub_one, hi, Bool.and_comm]
  · simp [Nat.testBit_shiftLeft, hi]

/-- Moving a field down. -/
lemma shiftRight_two_pow_mul (x : ℕ) {i j : ℕ} (h : j ≤ i) :
    (2 ^ i * x) >>> j = 2 ^ (i - j) * x := by
  rw [Nat.shiftRight_eq_div_pow, ← Nat.pow_sub_mul_pow 2 h, mul_comm (2 ^ (i - j)), mul_assoc,
    Nat.mul_div_cancel_left _ (Nat.two_pow_pos j)]

/-! ## Device numbers -/

/-- The major number in a device number of user space: bits 8 to 19 and 44 to 63. -/
def devMajor (s : UInt64) : ℕ :=
  s.toNat / 2 ^ 8 % 2 ^ 12 + 2 ^ 12 * (s.toNat / 2 ^ 44)

/-- The minor number: bits 0 to 7 and 20 to 43. -/
def devMinor (s : UInt64) : ℕ :=
  s.toNat % 2 ^ 8 + 2 ^ 8 * (s.toNat / 2 ^ 20 % 2 ^ 24)

/-- The user-space encoding of a device number of the kernel, which has twelve major and twenty
minor bits: the minor bits 0 to 7, the major bits, the other minor bits. -/
def userDev (d : UInt32) : UInt64 :=
  UInt64.ofNat (d.toNat % 2 ^ 8 + 2 ^ 8 * (d.toNat / 2 ^ 20) +
    2 ^ 20 * (d.toNat / 2 ^ 8 % 2 ^ 12))

/-- The two numbers determine the device number. -/
lemma eq_of_devMajor_of_devMinor {s s' : UInt64} (hmajor : devMajor s = devMajor s')
    (hminor : devMinor s = devMinor s') : s = s' := by
  unfold devMajor at hmajor
  unfold devMinor at hminor
  rw [← UInt64.toNat_inj]
  omega

/-- The number that the user sees, as a number. -/
lemma toNat_userDev (d : UInt32) : (userDev d).toNat =
    d.toNat % 2 ^ 8 + 2 ^ 8 * (d.toNat / 2 ^ 20) + 2 ^ 20 * (d.toNat / 2 ^ 8 % 2 ^ 12) := by
  have hd := d.toNat_lt
  refine UInt64.toNat_ofNat_of_lt' ?_
  change _ < 2 ^ 64
  omega

/-- The major number is kept. -/
lemma devMajor_userDev (d : UInt32) : devMajor (userDev d) = d.toNat / 2 ^ 20 := by
  have hd := d.toNat_lt
  rw [devMajor, toNat_userDev]
  omega

/-- The minor number is kept. -/
lemma devMinor_userDev (d : UInt32) : devMinor (userDev d) = d.toNat % 2 ^ 20 := by
  have hd := d.toNat_lt
  have hmajor : d.toNat / 2 ^ 20 < 2 ^ 12 := by omega
  have hsplit : d.toNat % 2 ^ 20 = d.toNat % 2 ^ 8 + 2 ^ 8 * (d.toNat / 2 ^ 8 % 2 ^ 12) := by
    omega
  have hlow : d.toNat % 2 ^ 8 < 2 ^ 8 := Nat.mod_lt _ (by decide)
  have hhigh : d.toNat / 2 ^ 8 % 2 ^ 12 < 2 ^ 12 := Nat.mod_lt _ (by decide)
  rw [devMinor, toNat_userDev, hsplit]
  generalize d.toNat % 2 ^ 8 = low at *
  generalize d.toNat / 2 ^ 8 % 2 ^ 12 = high at *
  generalize d.toNat / 2 ^ 20 = major at *
  omega

/-- The first line of the translation collects the major number. -/
lemma or_major (s : UInt64) : (2 ^ 8 * (s.toNat / 2 ^ 8 % 2 ^ 12)) >>> 8 |||
    (2 ^ 44 * (s.toNat / 2 ^ 44 % 2 ^ 20)) >>> 32 = devMajor s := by
  have hs := s.toNat_lt
  rw [shiftRight_two_pow_mul _ (by omega), shiftRight_two_pow_mul _ (by omega), Nat.or_comm]
  change 2 ^ 12 * _ ||| 2 ^ 0 * _ = _
  rw [pow_zero, one_mul, ← Nat.two_pow_add_eq_or_of_lt (Nat.mod_lt _ (by decide)), devMajor]
  omega

/-- The second line collects the minor number. -/
lemma or_minor (s : UInt64) : 2 ^ 0 * (s.toNat / 2 ^ 0 % 2 ^ 8) |||
    (2 ^ 20 * (s.toNat / 2 ^ 20 % 2 ^ 24)) >>> 12 = devMinor s := by
  rw [shiftRight_two_pow_mul _ (by omega), Nat.or_comm]
  change 2 ^ 8 * _ ||| 2 ^ 0 * _ = _
  rw [pow_zero, one_mul, Nat.div_one, ← Nat.two_pow_add_eq_or_of_lt (Nat.mod_lt _ (by decide)),
    devMinor]
  omega

/-- Numbers of twelve and twenty bits are translated without loss. -/
theorem toNat_userDevToKernelDev {s : UInt64} (hmajor : devMajor s < 2 ^ 12)
    (hminor : devMinor s < 2 ^ 20) :
    (userDevToKernelDev s).toNat = devMajor s * 2 ^ 20 + devMinor s := by
  have hmask₁ : UInt64.toNat 0x00000000000fff00 = (2 ^ 12 - 1) <<< 8 := by decide
  have hmask₂ : UInt64.toNat 0xfffff00000000000 = (2 ^ 20 - 1) <<< 44 := by decide
  have hmask₃ : UInt64.toNat 0x00000000000000ff = (2 ^ 8 - 1) <<< 0 := by decide
  have hmask₄ : UInt64.toNat 0x00000ffffff00000 = (2 ^ 24 - 1) <<< 20 := by decide
  have hfit : devMajor s * 2 ^ 20 % 2 ^ 64 = 2 ^ 20 * devMajor s := by omega
  unfold userDevToKernelDev
  simp only [UInt64.toNat_toUInt32, UInt64.toNat_or, UInt64.toNat_shiftLeft,
    UInt64.toNat_shiftRight, UInt64.toNat_and]
  rw [hmask₁, hmask₂, hmask₃, hmask₄]
  simp only [land_mask]
  change (((2 ^ 8 * (s.toNat / 2 ^ 8 % 2 ^ 12)) >>> 8 |||
      (2 ^ 44 * (s.toNat / 2 ^ 44 % 2 ^ 20)) >>> 32) <<< 20 % 2 ^ 64 |||
    (2 ^ 0 * (s.toNat / 2 ^ 0 % 2 ^ 8) |||
      (2 ^ 20 * (s.toNat / 2 ^ 20 % 2 ^ 24)) >>> 12)) % 2 ^ 32 = _
  rw [or_major, or_minor, Nat.shiftLeft_eq, hfit, ← Nat.two_pow_add_eq_or_of_lt hminor]
  omega

/-- Translating the encoding of a device number gives it back. -/
lemma userDevToKernelDev_userDev (d : UInt32) : userDevToKernelDev (userDev d) = d := by
  have hd := d.toNat_lt
  have hmajor : devMajor (userDev d) < 2 ^ 12 := by rw [devMajor_userDev]; omega
  have hminor : devMinor (userDev d) < 2 ^ 20 := by rw [devMinor_userDev]; omega
  rw [← UInt32.toNat_inj, toNat_userDevToKernelDev hmajor hminor, devMajor_userDev,
    devMinor_userDev]
  omega

/-! ## The key of the probe and the key of `stat` -/

/-- The key that the probe looks up for an inode. -/
lemma isSome_inodePermission {tracedInodes : TracedInodes} {memory : UInt64 → Inode}
    {inode : UInt64} (h : inode ≠ 0) (task : Task) (mask : UInt64) :
    (inodePermission tracedInodes memory task inode mask).isSome ↔
      (⟨(memory inode).ino, (memory inode).dev⟩ : BpfMapKey) ∈ tracedInodes := by
  unfold inodePermission
  rw [if_neg h]
  split_ifs with hkey
  · simp [hkey]
  · simp [hkey]

/-- What is found has the numbers that `stat` reports for the path. -/
lemma of_stat {c : ContainerStatus} {t : KiveTrap} {h : Host} {cd : ContainerData} {i : UInt64}
    {d : UInt32} (hrun : ((getContainerData c t).run Host.handle h).1 = .ok cd)
    (hfound : cd.isFound = true)
    (hstat : ∀ pid, ((getContainerData c t).run Host.handle h).2.task
        (containerIDPart c.containerID) = .ok pid →
      ((getContainerData c t).run Host.handle h).2.fs.stat (targetPath pid t.path) =
        .ok (i, userDev d)) :
    cd.ino = i ∧ cd.devID = d := by
  obtain ⟨pid, id, htask, hlookup, hino, hdev⟩ :=
    (finds_of_run_getContainerData hfound hrun).locates.file
  have hid := FileSystem.stat_eq_ok_iff.mp (hstat pid htask)
  rw [hlookup, Option.some.injEq] at hid
  subst hid
  exact ⟨hino, hdev.trans (userDevToKernelDev_userDev d)⟩

/-! ## The key that a data pass sets -/

section Loader

variable (std : Std) (kernelID : String)

/-- No KiveData of the kernel needs a patch of its finalizers, and none is being deleted, so that a
data pass judges them all. -/
def AllCurrent (w : World) : Prop :=
  ∀ z ∈ w.cluster.kiveData.items, OfKernel kernelID z → ¬ PatchDue z ∧ ¬ Deleting z

instance (w : World) : Decidable (AllCurrent kernelID w) :=
  inferInstanceAs (Decidable (∀ z ∈ w.cluster.kiveData.items, _))

/-- The keys of the KiveData of the kernel that are to stay, in the order of the list. -/
def wantedKeys (w : World) : List BpfMapKey :=
  (w.cluster.kiveData.items.filter fun z => Wanted std kernelID w z).map KiveData.mapKey

/-- For the KiveData the loader sets this key and no other. -/
structure SetsKey (y : KiveData) (key : BpfMapKey) : Prop where
  /-- Whatever its calls answer, judging the KiveData sets no other key. -/
  only : ∀ policies, (KiveDataReconciler.judge std policies y).Only fun op =>
    ∀ k, op = .addInode k → k = key
  /-- If the KiveData is justified, `AddInode` is called with the key. -/
  called : ∀ {podFields : PodFields}, podFields.Standard → ∀ node policies (w : World),
    (w.kernels kernelID).loaded = true → Justified std w.cluster.pods policies y →
      (⟨.addInode key, ((w.kernels kernelID).tracedInodes.addInode key).1⟩ : Sigma Call.Answer) ∈
        (KiveDataReconciler.judge std policies y).events (handle std podFields node kernelID) w
  /-- If the call succeeds the map has gained exactly the key. -/
  gains : ∀ {podFields : PodFields}, podFields.Standard → ∀ node policies (w : World),
    (w.kernels kernelID).loaded = true → Justified std w.cluster.pods policies y →
      ((w.kernels kernelID).tracedInodes.addInode key).1 = .ok () →
        ((((KiveDataReconciler.judge std policies y).run
          (handle std podFields node kernelID) w).2).kernels kernelID).tracedInodes =
            insert key (w.kernels kernelID).tracedInodes
  /-- A data pass over current KiveData with room for all their keys sets the key if the KiveData is
  to stay, and every key that it sets is that of a KiveData that is to stay. -/
  pass : ∀ {podFields : PodFields}, podFields.Standard → ∀ node (w : World),
    (w.kernels kernelID).loaded = true → AllCurrent kernelID w →
    ((w.kernels kernelID).tracedInodes ∪ (wantedKeys std kernelID w).toFinset).card ≤
      mapMaxEntries → Wanted std kernelID w y →
        let after := ((dataRun std podFields node kernelID w).kernels kernelID).tracedInodes
        key ∈ after ∧ ∀ k ∈ after, k ∈ (w.kernels kernelID).tracedInodes ∨
          ∃ z, Wanted std kernelID w z ∧ z.mapKey = k

variable {std kernelID} {podFields : PodFields}

/-- A data pass that judges all KiveData sets the keys of those that are to stay, one after the
other. -/
lemma tracedInodes_dataRun (hf : podFields.Standard) (node : String) {w : World}
    (hloaded : (w.kernels kernelID).loaded = true) (hcurrent : AllCurrent kernelID w) :
    ((dataRun std podFields node kernelID w).kernels kernelID).tracedInodes =
      (w.kernels kernelID).tracedInodes.addInodes (wantedKeys std kernelID w) := by
  obtain ⟨front, rest, hsplit, -, hrest, hstate, -⟩ :=
    dataRun_cases std node kernelID hf hloaded fun d hd hof hdel =>
      absurd hdel (hcurrent d hd hof).2
  -- no KiveData ends the pass
  obtain rfl : rest = [] := by
    cases rest with
    | nil => rfl
    | cons d rest =>
      have hmem : d ∈ w.cluster.kiveData.items.filter fun d => OfKernel kernelID d := by
        rw [hsplit]
        exact List.mem_append_right front List.mem_cons_self
      obtain ⟨hd, hof⟩ := List.mem_filter.mp hmem
      exact absurd (hrest d rfl) (hcurrent d hd (by simpa using hof)).1
  rw [List.append_nil] at hsplit
  have htraced := congrArg LoaderState.traced hstate
  refine htraced.trans ?_
  rw [finishFirst, judgeAll, ← hsplit, List.filter_filter, wantedKeys]
  refine congrArg (fun l => TracedInodes.addInodes _ (List.map KiveData.mapKey l)) ?_
  refine List.filter_congr fun d hd => ?_
  rw [← Bool.decide_and, decide_eq_decide]
  constructor
  · rintro ⟨hj, hof⟩
    exact ⟨hd, hof, (hcurrent d hd hof).2, hj⟩
  · rintro ⟨-, hof, -, hj⟩
    exact ⟨hj, hof⟩

/-- For a KiveData the loader sets the key of its file. -/
lemma setsKey_of_mapKey {y : KiveData} {key : BpfMapKey} (hkey : y.mapKey = key) :
    SetsKey std kernelID y key where
  only policies := by
    refine (KiveDataReconciler.only_judge std policies y).mono ?_
    rintro op (⟨labels, fields, rfl⟩ | rfl | rfl) k hop
    · cases hop
    · cases hop
    · cases hop
      exact hkey
  called hf node policies w hloaded hj := by
    rw [KiveDataReconciler.judge, Prog.events_bind, run_policyLoop std node kernelID hf,
      decide_eq_true hj]
    refine List.mem_append_right _ ?_
    rw [hkey]
    refine List.mem_singleton.mpr (Sigma.ext rfl (heq_of_eq ?_))
    change _ = ((w.kernels kernelID).addInode key).1
    rw [Kernel.addInode, dif_pos hloaded]
  gains hf node policies w hloaded hj hok := by
    rw [run_judge std node kernelID hf, if_pos hj, World.setKernel_kernels_self,
      Kernel.tracedInodes_addInode hloaded, hkey]
    unfold TracedInodes.addInode at hok ⊢
    split_ifs at hok ⊢
    rfl
  pass hf node w hloaded hcurrent hroom hwanted := by
    intro after
    have hafter : after = _ := tracedInodes_dataRun hf node hloaded hcurrent
    rw [hafter]
    have hmem : key ∈ wantedKeys std kernelID w :=
      List.mem_map.mpr ⟨y, List.mem_filter.mpr ⟨hwanted.1, by simpa using hwanted⟩, hkey⟩
    refine ⟨TracedInodes.forall_mem_addInodes_iff.mpr (Or.inr hroom) key hmem, fun k hk => ?_⟩
    rw [TracedInodes.addInodes_eq Finset.subset_union_left
      (fun k hk => Finset.mem_union_right _ (List.mem_toFinset.mpr hk)) hroom] at hk
    rcases Finset.mem_union.mp hk with hk | hk
    · exact Or.inl hk
    · obtain ⟨z, hz, rfl⟩ := List.mem_map.mp (List.mem_toFinset.mp hk)
      exact Or.inr ⟨z, by simpa using (List.mem_filter.mp hz).2, rfl⟩

end Loader

/-! ## The way of the key -/

/-- For a file that `stat` reports with the encoding of the kernel's device number, the KiveData
that a policy pass stores, and whatever becomes of it with its spec unchanged, makes the loader put
into the map the very key that the probes look up for the file.  The translation is exact whenever
major and minor number fit, and then it loses nothing. -/
theorem deviceKeys_agree :
    (∀ (i : UInt64) (d : UInt32) (h : Host) (c : ContainerStatus) (t : KiveTrap)
        (cd : ContainerData),
      let r := (getContainerData c t).run Host.handle h
      r.1 = .ok cd → cd.isFound = true →
      (∀ pid, r.2.task (containerIDPart c.containerID) = .ok pid →
        r.2.fs.stat (targetPath pid t.path) = .ok (i, userDev d)) →
      ∀ (std : Std) (kernelID : String) (p : KivePolicy) (pod : Pod) (s : Store KiveData),
        let config := kiveDataFor std kernelID (⟨p, t, pod, c⟩, cd)
        (applyKiveData s config).1 = .ok () →
        ∃ x, (applyKiveData s config).2.find? (keyOf config) = some x ∧
          (∀ y : KiveData, y.spec = x.spec → SetsKey std kernelID y ⟨i, d⟩) ∧
          ∀ (tracedInodes : TracedInodes) (memory : UInt64 → Inode) (task : Task) (ctx : PtRegs),
            (ctx.parm1 ≠ 0 → memory ctx.parm1 = ⟨i, d⟩ →
              ((kprobeInodePermissionOld tracedInodes memory task ctx).isSome ↔
                x.mapKey ∈ tracedInodes)) ∧
            (ctx.parm2 ≠ 0 → memory ctx.parm2 = ⟨i, d⟩ →
              ((kprobeInodePermissionNew tracedInodes memory task ctx).isSome ↔
                x.mapKey ∈ tracedInodes))) ∧
    (∀ s : UInt64, devMajor s < 2 ^ 12 → devMinor s < 2 ^ 20 →
      (userDevToKernelDev s).toNat = devMajor s * 2 ^ 20 + devMinor s) ∧
    (∀ s s' : UInt64, devMajor s < 2 ^ 12 → devMinor s < 2 ^ 20 → devMajor s' < 2 ^ 12 →
      devMinor s' < 2 ^ 20 → userDevToKernelDev s = userDevToKernelDev s' → s = s') := by
  refine ⟨?_, fun s => toNat_userDevToKernelDev, ?_⟩
  · intro i d h c t cd r hrun hfound hstat std kernelID p pod s config hok
    obtain ⟨hino, hdev⟩ := of_stat hrun hfound hstat
    have hkey : (appliedKiveData s config).mapKey = ⟨i, d⟩ := by
      rw [← hino, ← hdev, appliedKiveData]
      cases s.find? (keyOf config) <;> rfl
    refine ⟨_, (find?_applyKiveData hok _).trans (if_pos rfl), fun y hy => ?_, ?_⟩
    · refine setsKey_of_mapKey ?_
      rw [KiveData.mapKey, hy]
      exact hkey
    · intro tracedInodes memory task ctx
      rw [hkey]
      constructor
      · intro hnull hinode
        rw [kprobeInodePermissionOld, isSome_inodePermission hnull, hinode]
      · intro hnull hinode
        rw [kprobeInodePermissionNew, isSome_inodePermission hnull, hinode]
  · intro s s' hmajor hminor hmajor' hminor' heq
    have hnat := congrArg UInt32.toNat heq
    rw [toNat_userDevToKernelDev hmajor hminor, toNat_userDevToKernelDev hmajor' hminor'] at hnat
    exact eq_of_devMajor_of_devMinor (by omega) (by omega)

/-! ## A file on the device 8:1 -/

namespace DeviceKeys

open TrapRecords

/-- The trap for `/data`, in the container of the pod. -/
def site : Site :=
  ⟨policy [trap "/data" "http://one"], trap "/data" "http://one", pod,
    ⟨"main", "containerd://aa", true⟩⟩

/-- What is found there. -/
def found : ContainerData :=
  { isFound := true, ino := 7, devID := 8388609, name := "main", id := "containerd://aa" }

/-- The KiveData as a policy pass stores it, with the finalizer that a data pass adds. -/
def kiveData : KiveData :=
  addFinalizer (appliedKiveData .empty (kiveDataFor std "k1" (site, found))) kiveDataFinalizerName

/-- The KiveData is stored, and the program is loaded with an empty map. -/
def world : World :=
  { TrapRecords.world [trap "/data" "http://one"] with
    cluster :=
      { (TrapRecords.world [trap "/data" "http://one"]).cluster with
        kiveData := .ofList [kiveData] }
    kernels := fun _ => { loaded := true, eq_empty := TracedInodes.eq_empty_of_loaded } }

end DeviceKeys

open DeviceKeys TrapRecords in
/-- The file `7` on the device 8:1: a data pass sets its key, and the probe reports an access. -/
theorem deviceKeys_agree_sda1 :
    let after := ((dataRun std .standard "node" "k1" DeviceKeys.world).kernels "k1").tracedInodes
    (⟨7, 8388609⟩ : BpfMapKey) ∈ after ∧
    (∀ task mask, (kprobeInodePermissionNew after (fun _ => ⟨7, 8388609⟩) task
      ⟨0, 1, mask⟩).isSome = true) ∧
    (userDevToKernelDev 4294967295).toNat = 4294967295 ∧ (2049 : UInt64) = userDev 8388609 := by
  obtain ⟨hkeys, hexact, hinjective⟩ := deviceKeys_agree
  have hok : (applyKiveData .empty (kiveDataFor std "k1" (site, found))).1 = .ok () := by decide
  obtain ⟨x, hfind, hsets, hprobe⟩ := hkeys 7 8388609 host site.container site.trap found rfl rfl
    (fun pid hpid => by obtain rfl := Except.ok.inj hpid; rfl) std "k1" site.policy site.pod .empty
    hok
  have hx : x = appliedKiveData .empty (kiveDataFor std "k1" (site, found)) := by
    have hstored := find?_applyKiveData hok (keyOf (kiveDataFor std "k1" (site, found)))
    rw [if_pos rfl] at hstored
    change (applyKiveData .empty (kiveDataFor std "k1" (site, found))).2.find?
      (keyOf (kiveDataFor std "k1" (site, found))) = some x at hfind
    rw [hstored] at hfind
    exact (Option.some.inj hfind).symm
  subst hx
  have hspec : kiveData.spec =
      (appliedKiveData .empty (kiveDataFor std "k1" (site, found))).spec := rfl
  have hsetsKey : SetsKey std "k1" kiveData ⟨7, 8388609⟩ := hsets kiveData hspec
  have hwanted : Wanted std "k1" DeviceKeys.world kiveData := by decide
  have hroom : ((DeviceKeys.world.kernels "k1").tracedInodes ∪
      (wantedKeys std "k1" DeviceKeys.world).toFinset).card ≤ mapMaxEntries := by decide
  obtain ⟨hkey, -⟩ := hsetsKey.pass PodFields.standard_standard "node"
    DeviceKeys.world rfl (by decide) hroom hwanted
  refine ⟨hkey, fun task mask => ?_, hexact 4294967295 (by decide) (by decide), ?_⟩
  · have hinode : (1 : UInt64) ≠ 0 := by decide
    exact ((hprobe _ (fun _ => ⟨7, 8388609⟩) task ⟨0, 1, mask⟩).2 hinode rfl).mpr hkey
  · exact hinjective 2049 (userDev 8388609) (by decide) (by decide) (by decide) (by decide)
      (by decide)

end Kive
