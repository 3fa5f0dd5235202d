import KiveOperator.Library.Binary
import KiveOperator.Ebpf.Alert

/-!
# Samples of the ring buffer

How a record of the kernel probe travels as bytes: `struct log_data` of `ebpf/log_data.h` in the
memory of the probe, and `bpfLogData` of `internal/controller/ebpf/bpf_bpfel.go`, which
`binary.Read` fills from the sample.
-/

namespace Kive

open Binary

/-! ## The side of the probe -/

/-- A C integer of `w` bytes, which is as aligned as it is wide. -/
def cInt (w n : ℕ) : Field where
  align := w
  bytes := leBytes w n

/-- The members of `struct log_data`. -/
def logDataFields (data : LogData) : List Field :=
  [cInt 4 data.pid.toUInt32.toNat, cInt 4 data.tgid.toNat, cInt 4 data.uid.toNat,
    cInt 4 data.gid.toNat, cInt 4 data.dev.toNat, cInt 8 data.ino.toNat,
    cInt 4 data.mask.toUInt32.toNat, ⟨1, data.comm⟩]

/-- The sample that `kprobe_output` sends; `pad` is what stands in the padding. -/
def logDataBytes (pad : ℕ → UInt8) (data : LogData) : List UInt8 :=
  Field.layout pad (logDataFields data)

/-! ## The side of the operator -/

/-- `bpfLogData`, whose `Comm` has signed elements. -/
structure BpfLogData where
  pid : Int32
  tgid : UInt32
  uid : UInt32
  gid : UInt32
  dev : UInt32
  ino : UInt64
  mask : Int32
  comm : List Int8
  deriving DecidableEq

/-- `binary.Read` of an `int8`. -/
def toInt8 (b : UInt8) : Int8 := b.toInt8

/-- The fields of `bpfLogData` in order, the blank ones skipped. -/
def readLogData : Reader BpfLogData := do
  let pid ← (fun n => (UInt32.ofNat n).toInt32) <$> Reader.uint 4
  let tgid ← UInt32.ofNat <$> Reader.uint 4
  let uid ← UInt32.ofNat <$> Reader.uint 4
  let gid ← UInt32.ofNat <$> Reader.uint 4
  let dev ← UInt32.ofNat <$> Reader.uint 4
  let _ ← Reader.take 4
  let ino ← UInt64.ofNat <$> Reader.uint 8
  let mask ← (fun n => (UInt32.ofNat n).toInt32) <$> Reader.uint 4
  let comm ← List.map toInt8 <$> Reader.take 16
  let _ ← Reader.take 4
  return { pid, tgid, uid, gid, dev, ino, mask, comm }

/-- The size of `bpfLogData`. -/
def bpfLogDataSize : ℕ := 56

/-- `int8ArrayToString`, on signed elements. -/
def int8sToString (arr : List Int8) : List UInt8 :=
  (arr.takeWhile (· ≠ 0)).map Int8.toUInt8

/-- The record with the bytes of `Comm` unsigned. -/
def BpfLogData.toLogData (data : BpfLogData) : LogData where
  pid := data.pid
  tgid := data.tgid
  uid := data.uid
  gid := data.gid
  dev := data.dev
  ino := data.ino
  mask := data.mask
  comm := data.comm.map Int8.toUInt8

/-- What the ring buffer reader returns, parsed.  After an error the sample is empty, unless the
buffer is closed. -/
def parseSample (read : Except RingbufError (List UInt8)) : Except RingbufError LogData :=
  match read with
  | .error .closed => .error .closed
  | .error .other => parse []
  | .ok sample => parse sample
where
  parse (sample : List UInt8) : Except RingbufError LogData :=
    match Reader.readFull bpfLogDataSize readLogData sample with
    | some data => .ok data.toLogData
    | none => .error .other

/-! ## Reading a sample -/

/-- The bytes before the first zero are the same, signed or unsigned. -/
lemma int8sToString_eq (arr : List Int8) :
    int8sToString arr = int8ArrayToString (arr.map Int8.toUInt8) := by
  induction arr with
  | nil => rfl
  | cons c arr ih =>
    have hzero : c.toUInt8 = 0 ↔ c = 0 :=
      ⟨fun h => by rw [← c.toInt8_toUInt8, h]; rfl, fun h => by rw [h]; rfl⟩
    by_cases hc : c = 0
    · have hzero' : (0 : Int8).toUInt8 = 0 := rfl
      simp [int8sToString, int8ArrayToString, hc, hzero']
    · simp only [int8sToString, int8ArrayToString, List.map_cons, List.takeWhile_cons, hzero, hc,
        ne_eq, not_false_eq_true, decide_true, if_true] at ih ⊢
      rw [ih]

end Kive
