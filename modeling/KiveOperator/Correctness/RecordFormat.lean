import KiveOperator.Ebpf.Sample
import Mathlib.Data.List.TakeWhile

/-!
# From the record of the probe to the alert

The probe lays out `struct log_data` in memory and sends its bytes; the operator reads them into
`bpfLogData`, whose blank fields stand for the padding.  `reads_logDataBytes` says that the two
agree, `recordFormat_agrees` follows the values into the alert.
-/

namespace Kive

open Binary

/-! ## Two values in one word -/

/-- A word with one value in its upper and one in its lower half. -/
def pack (hi lo : UInt32) : UInt64 :=
  (hi.toUInt64 <<< (32 : UInt64)) ||| lo.toUInt64

/-- The high half counts for 2 ^ 32. -/
lemma toNat_pack (hi lo : UInt32) : (pack hi lo).toNat = 2 ^ 32 * hi.toNat + lo.toNat := by
  have hhi := hi.toNat_lt
  have hshift : (hi.toUInt64 <<< (32 : UInt64)).toNat = 2 ^ 32 * hi.toNat := by
    rw [UInt64.toNat_shiftLeft, UInt32.toNat_toUInt64, Nat.shiftLeft_eq]
    change hi.toNat * 2 ^ 32 % 2 ^ 64 = _
    omega
  rw [pack, UInt64.toNat_or, hshift, UInt32.toNat_toUInt64, Nat.two_pow_add_eq_or_of_lt lo.toNat_lt]

/-- The lower half. -/
lemma toUInt32_pack (hi lo : UInt32) : (pack hi lo).toUInt32 = lo := by
  have hlo := lo.toNat_lt
  rw [← UInt32.toNat_inj, UInt64.toNat_toUInt32, toNat_pack]
  omega

/-- The upper half. -/
lemma toUInt32_pack_shiftRight (hi lo : UInt32) :
    (pack hi lo >>> (32 : UInt64)).toUInt32 = hi := by
  have hhi := hi.toNat_lt
  have hlo := lo.toNat_lt
  rw [← UInt32.toNat_inj, UInt64.toNat_toUInt32, UInt64.toNat_shiftRight, toNat_pack,
    Nat.shiftRight_eq_div_pow]
  change (2 ^ 32 * hi.toNat + lo.toNat) / 2 ^ 32 % 2 ^ 32 = hi.toNat
  omega

/-! ## Reading the fields -/

/-- A field of four bytes is read back. -/
lemma reads_uint32 (x : UInt32) :
    Reader.Reads (UInt32.ofNat <$> Reader.uint 4) (leBytes 4 x.toNat) x := by
  have hread := (Reader.reads_uint (w := 4) x.toNat_lt).map UInt32.ofNat
  rwa [UInt32.ofNat_toNat] at hread

/-- A signed field of four bytes is read back. -/
lemma reads_int32 (x : Int32) :
    Reader.Reads ((fun n => (UInt32.ofNat n).toInt32) <$> Reader.uint 4)
      (leBytes 4 x.toUInt32.toNat) x := by
  have hread :=
    (Reader.reads_uint (w := 4) x.toUInt32.toNat_lt).map fun n => (UInt32.ofNat n).toInt32
  rwa [UInt32.ofNat_toNat, Int32.toInt32_toUInt32] at hread

/-- A field of eight bytes is read back. -/
lemma reads_uint64 (x : UInt64) :
    Reader.Reads (UInt64.ofNat <$> Reader.uint 8) (leBytes 8 x.toNat) x := by
  have hread := (Reader.reads_uint (w := 8) x.toNat_lt).map UInt64.ofNat
  rwa [UInt64.ofNat_toNat] at hread

/-- The memory of a record: there is padding in front of the inode number and at the end. -/
lemma logDataBytes_eq (pad : ℕ → UInt8) {data : LogData} (hcomm : data.comm.length = 16) :
    logDataBytes pad data =
      leBytes 4 data.pid.toUInt32.toNat ++ (leBytes 4 data.tgid.toNat ++
        (leBytes 4 data.uid.toNat ++ (leBytes 4 data.gid.toNat ++ (leBytes 4 data.dev.toNat ++
          (padding pad 8 20 ++ (leBytes 8 data.ino.toNat ++
            (leBytes 4 data.mask.toUInt32.toNat ++
              (data.comm ++ (padding pad 8 52 ++ []))))))))) := by
  simp [logDataBytes, logDataFields, Field.layout, Field.layoutFrom, Field.structAlign, cInt, gap,
    hcomm, padding, Nat.mod_one]

/-- The size of a record. -/
lemma length_logDataBytes (pad : ℕ → UInt8) {data : LogData} (hcomm : data.comm.length = 16) :
    (logDataBytes pad data).length = bpfLogDataSize := by
  rw [logDataBytes_eq pad hcomm]
  simp [hcomm, gap, bpfLogDataSize]

/-- The record as `bpfLogData`. -/
def BpfLogData.ofLogData (data : LogData) : BpfLogData where
  pid := data.pid
  tgid := data.tgid
  uid := data.uid
  gid := data.gid
  dev := data.dev
  ino := data.ino
  mask := data.mask
  comm := data.comm.map toInt8

/-- Reading bytes as signed numbers and back. -/
lemma map_toUInt8_map_toInt8 (arr : List UInt8) : (arr.map toInt8).map Int8.toUInt8 = arr := by
  rw [List.map_map]
  exact List.map_id _

/-- The conversion of the bytes to signed ones changes no text. -/
lemma int8sToString_map_toInt8 (arr : List UInt8) :
    int8sToString (arr.map toInt8) = int8ArrayToString arr := by
  rw [int8sToString_eq, map_toUInt8_map_toInt8]

/-- The fields go through the record of the reader and back. -/
lemma BpfLogData.toLogData_ofLogData (data : LogData) : (ofLogData data).toLogData = data := by
  simp only [toLogData, ofLogData, map_toUInt8_map_toInt8]

/-- The operator reads what the probe wrote. -/
theorem reads_logDataBytes (pad : ℕ → UInt8) {data : LogData} (hcomm : data.comm.length = 16) :
    Reader.Reads readLogData (logDataBytes pad data) (BpfLogData.ofLogData data) := by
  rw [logDataBytes_eq pad hcomm]
  have hpad : ∀ offset, gap 8 offset = 4 →
      Reader.Reads (Reader.take 4) (padding pad 8 offset) (padding pad 8 offset) :=
    fun offset h => Reader.reads_take (by rw [length_padding, h])
  refine (reads_int32 _).bind ((reads_uint32 _).bind ((reads_uint32 _).bind
    ((reads_uint32 _).bind ((reads_uint32 _).bind ((hpad 20 rfl).bind ?_)))))
  refine (reads_uint64 _).bind ((reads_int32 _).bind ?_)
  exact ((Reader.reads_take hcomm).map _).bind ((hpad 52 rfl).bind (Reader.reads_pure _))

/-- A sample that is a record. -/
lemma parseSample_logDataBytes (pad : ℕ → UInt8) {data : LogData}
    (hcomm : data.comm.length = 16) :
    parseSample (.ok (logDataBytes pad data)) = .ok data := by
  have hread := (reads_logDataBytes pad hcomm).readFull (length_logDataBytes pad hcomm)
  rw [parseSample, parseSample.parse, hread]
  exact congrArg Except.ok (BpfLogData.toLogData_ofLogData data)

/-- A sample that is too short. -/
lemma parseSample_of_lt {sample : List UInt8} (h : sample.length < bpfLogDataSize) :
    parseSample (.ok sample) = .error .other := by
  rw [parseSample, parseSample.parse, Reader.readFull_of_lt h]

/-! ## The alert -/

/-- The text is what stands before the first zero. -/
def BeforeNul (arr text : List UInt8) : Prop :=
  (0 ∉ arr → text = arr) ∧
  ∀ before after, arr = before ++ 0 :: after → 0 ∉ before → text = before

/-- The text is what comes before the first zero byte. -/
lemma beforeNul_int8ArrayToString (arr : List UInt8) :
    BeforeNul arr (int8ArrayToString arr) := by
  have hkeep : ∀ l : List UInt8, 0 ∉ l → ∀ c ∈ l, (c ≠ 0 : Bool) = true := by
    intro l hl c hc
    exact decide_eq_true fun h0 => hl (h0 ▸ hc)
  constructor
  · intro hnone
    exact List.takeWhile_eq_self_iff.mpr (hkeep arr hnone)
  · rintro before after rfl hbefore
    rw [int8ArrayToString, List.takeWhile_append_of_pos (hkeep before hbefore)]
    simp

/-- The values of a record that the probe sends for a task come out of the sample unchanged, and
so they do of the alert when some KiveData has the inode number; a shorter sample gives none. -/
theorem recordFormat_agrees (pid : Int32) (tgid uid gid : UInt32) (ino : UInt64) (dev : UInt32)
    (mask : Int32) (comm : Vector UInt8 16) (pad : ℕ → UInt8) (items : List KiveData)
    (now : String) :
    let task : Task :=
      { pidTgid := pack tgid pid.toUInt32, uidGid := pack gid uid, comm := comm.toList }
    let sample := logDataBytes pad (kprobeOutput task ino dev mask)
    readEbpfData (parseSample (.ok sample)) =
      .ok ⟨pid, tgid, uid, gid, dev, ino, mask, comm.toList⟩ ∧
    ((∃ d ∈ items, d.spec.inodeNo = ino) →
      ∃ alert, readAlert (some (parseSample (.ok sample))) (.ok items) now = .ok alert ∧
        alert.metadata.inode = ino ∧ alert.metadata.mask = mask ∧ alert.process.pid = pid ∧
        alert.process.tgid = tgid ∧ alert.process.uid = uid ∧ alert.process.gid = gid ∧
        alert.process.binary = int8sToString (comm.toList.map toInt8) ∧
        BeforeNul comm.toList alert.process.binary) ∧
    ∀ short : List UInt8, short.length < sample.length →
      (∃ err, readEbpfData (parseSample (.ok short)) = .error err) ∧
      ∃ err, readAlert (some (parseSample (.ok short))) (.ok items) now = .error err := by
  intro task sample
  have hrecord : kprobeOutput task ino dev mask =
      ⟨pid, tgid, uid, gid, dev, ino, mask, comm.toList⟩ := by
    simp [kprobeOutput, task, toUInt32_pack, toUInt32_pack_shiftRight]
  have hcomm : (kprobeOutput task ino dev mask).comm.length = 16 := comm.length_toList
  have hparse : parseSample (.ok sample) =
      .ok ⟨pid, tgid, uid, gid, dev, ino, mask, comm.toList⟩ :=
    (parseSample_logDataBytes pad hcomm).trans (congrArg Except.ok hrecord)
  refine ⟨?_, ?_, ?_⟩
  · rw [hparse]
    rfl
  · rintro ⟨d, hd, hino⟩
    rw [hparse]
    cases hfind : findKiveData ⟨pid, tgid, uid, gid, dev, ino, mask, comm.toList⟩ items with
    | none => exact absurd hino (findKiveData_eq_none_iff.mp hfind d hd)
    | some d' =>
      exact ⟨_, readAlert_eq_ok_iff.mpr ⟨d', hfind, rfl⟩, rfl, rfl, rfl, rfl, rfl, rfl,
        (int8sToString_map_toInt8 comm.toList).symm, beforeNul_int8ArrayToString comm.toList⟩
  · intro short hshort
    rw [show sample.length = _ from length_logDataBytes pad hcomm] at hshort
    rw [parseSample_of_lt hshort]
    exact ⟨⟨_, rfl⟩, ⟨_, rfl⟩⟩

end Kive
