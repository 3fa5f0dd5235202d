import Mathlib.Data.List.Basic
import Mathlib.Data.Nat.Bitwise
import Mathlib.Tactic.Ring

/-!
# Binary records

Numbers as little-endian bytes, the memory of a C structure, and readers that take a record apart
field by field.

`Field.layout` puts the fields of a structure one after the other, each at the next offset that
its alignment allows, and fills up the structure to a multiple of its own alignment.  What stands
in the padding is not determined.  `Reader.Reads` says that a reader takes given bytes and gives a
value; it is proved for a record from its fields with `Reader.Reads.bind`.
-/

namespace Binary

/-! ## Little-endian numbers -/

/-- The lowest `w` bytes of a number, the lowest one first. -/
def leBytes : ℕ → ℕ → List UInt8
  | 0, _ => []
  | w + 1, n => UInt8.ofNat n :: leBytes w (n / 256)

/-- The number with the given bytes, the lowest one first. -/
def leNat : List UInt8 → ℕ
  | [] => 0
  | b :: bs => b.toNat + 256 * leNat bs

/-- As many bytes as were asked for. -/
@[simp] lemma length_leBytes (w n : ℕ) : (leBytes w n).length = w := by
  induction w generalizing n with
  | zero => rfl
  | succ w ih => rw [leBytes, List.length_cons, ih]

/-- Writing a number and reading it keeps as much of it as fits. -/
lemma leNat_leBytes (w n : ℕ) : leNat (leBytes w n) = n % 256 ^ w := by
  induction w generalizing n with
  | zero => rw [leBytes, leNat, pow_zero, Nat.mod_one]
  | succ w ih =>
    have hbyte : (UInt8.ofNat n).toNat = n % 256 := by simp
    rw [leBytes, leNat, hbyte, ih, pow_succ', Nat.mod_mul]

/-- A number that fits into its bytes is read back. -/
lemma leNat_leBytes_of_lt {w n : ℕ} (h : n < 256 ^ w) : leNat (leBytes w n) = n := by
  rw [leNat_leBytes, Nat.mod_eq_of_lt h]

/-! ## The memory of a structure -/

/-- A field: the alignment of its type, and its bytes. -/
structure Field where
  align : ℕ
  bytes : List UInt8

/-- The number of bytes from an offset to the next multiple of the alignment. -/
def gap (align offset : ℕ) : ℕ :=
  (align - offset % align) % align

/-- The padding at an offset, `pad` being the contents of the memory there. -/
def padding (pad : ℕ → UInt8) (align offset : ℕ) : List UInt8 :=
  (List.range (gap align offset)).map fun i => pad (offset + i)

/-- The padding fills the gap. -/
@[simp] lemma length_padding (pad : ℕ → UInt8) (align offset : ℕ) :
    (padding pad align offset).length = gap align offset := by
  simp [padding]

/-- The fields from an offset on. -/
def Field.layoutFrom (pad : ℕ → UInt8) : ℕ → List Field → List UInt8
  | _, [] => []
  | offset, f :: fs =>
    padding pad f.align offset ++ f.bytes ++
      layoutFrom pad (offset + gap f.align offset + f.bytes.length) fs

/-- The alignment of a structure is the greatest one of its fields. -/
def Field.structAlign (fs : List Field) : ℕ :=
  fs.foldl (fun a f => max a f.align) 1

/-- The memory of a structure. -/
def Field.layout (pad : ℕ → UInt8) (fs : List Field) : List UInt8 :=
  layoutFrom pad 0 fs ++ padding pad (structAlign fs) (layoutFrom pad 0 fs).length

/-! ## Readers -/

/-- A reader of the bytes that come first. -/
abbrev Reader := StateT (List UInt8) Option

namespace Reader

variable {α β : Type}

/-- The next `n` bytes, when there are as many. -/
def take (n : ℕ) : Reader (List UInt8) := fun bytes =>
  if n ≤ bytes.length then some (bytes.take n, bytes.drop n) else none

/-- The next `n` bytes as a number. -/
def uint (n : ℕ) : Reader ℕ :=
  leNat <$> take n

/-- The reader takes the bytes, whatever follows them, and gives the value. -/
def Reads (r : Reader α) (bytes : List UInt8) (a : α) : Prop :=
  ∀ rest, r.run (bytes ++ rest) = some (a, rest)

/-- Nothing is read. -/
lemma reads_pure (a : α) : Reads (pure a) [] a := fun _ => rfl

/-- One reader after the other. -/
lemma Reads.bind {r : Reader α} {f : α → Reader β} {bytes bytes' : List UInt8} {a : α} {b : β}
    (h : Reads r bytes a) (h' : Reads (f a) bytes' b) : Reads (r >>= f) (bytes ++ bytes') b := by
  intro rest
  rw [StateT.run_bind, List.append_assoc, h]
  exact h' rest

/-- A reader and a function of what it gives. -/
lemma Reads.map {r : Reader α} {bytes : List UInt8} {a : α} (f : α → β) (h : Reads r bytes a) :
    Reads (f <$> r) bytes (f a) := by
  intro rest
  rw [StateT.run_map, h]
  rfl

/-- Bytes are read as they are. -/
lemma reads_take {n : ℕ} {bytes : List UInt8} (h : bytes.length = n) :
    Reads (take n) bytes bytes := by
  intro rest
  subst h
  change (if _ then _ else _) = _
  rw [if_pos (by simp), List.take_left, List.drop_left]

/-- A number that fits into its bytes is read from them. -/
lemma reads_uint {w n : ℕ} (h : n < 256 ^ w) : Reads (uint w) (leBytes w n) n := by
  have hread := (reads_take (length_leBytes w n)).map leNat
  rwa [leNat_leBytes_of_lt h] at hread

/-- Read a record of a given size from the start of the input. -/
def readFull (size : ℕ) (r : Reader α) (input : List UInt8) : Option α :=
  if input.length < size then none else (r.run (input.take size)).map Prod.fst

/-- An input that is too short. -/
lemma readFull_of_lt {size : ℕ} {r : Reader α} {input : List UInt8} (h : input.length < size) :
    readFull size r input = none :=
  if_pos h

/-- An input that is the record. -/
lemma Reads.readFull {size : ℕ} {r : Reader α} {bytes : List UInt8} {a : α}
    (h : Reads r bytes a) (hsize : bytes.length = size) : readFull size r bytes = some a := by
  have hrun := h []
  rw [List.append_nil] at hrun
  rw [Reader.readFull, if_neg (by omega), List.take_of_length_le (by omega), hrun]
  rfl

end Reader

end Binary
