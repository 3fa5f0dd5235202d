import Mathlib.Data.List.Basic
import Mathlib.Tactic.Common

/-!
# JSON text and its unique readability

The text that an encoder in the manner of Go's `encoding/json` writes for a tree of strings,
numbers, booleans, arrays and objects: no white space, object fields in the order given,
strings in double quotes with the characters that would break the quoting, HTML or a line
escaped.

The main result is `encode_append_inj`: what follows the text of a value cannot be mistaken for
part of it, as long as it does not begin with a digit.  Since an object ends in a brace,
`encode_obj_append_inj` needs no such proviso: the text of an object is a code without proper
extensions.
-/

namespace Json

/-! ## Strings -/

/-- A lower-case hexadecimal digit. -/
def hexDigit (n : Nat) : Char :=
  Nat.digitChar (n % 16)

/-- The value of a lower-case hexadecimal digit. -/
def hexValue (c : Char) : Nat :=
  if c.toNat < 58 then c.toNat - 48 else c.toNat - 87

/-- The text of one character inside a quoted string. -/
def escapeChar (c : Char) : List Char :=
  if c = '"' ∨ c = '\\' then ['\\', c]
  else if c = '\x08' then ['\\', 'b']
  else if c = '\x0c' then ['\\', 'f']
  else if c = '\n' then ['\\', 'n']
  else if c = '\r' then ['\\', 'r']
  else if c = '\t' then ['\\', 't']
  else if c.toNat < 32 ∨ c = '<' ∨ c = '>' ∨ c = '&' then
    ['\\', 'u', '0', '0', hexDigit (c.toNat / 16), hexDigit c.toNat]
  else if c.toNat = 0x2028 ∨ c.toNat = 0x2029 then
    ['\\', 'u', '2', '0', '2', hexDigit c.toNat]
  else [c]

/-- Read one character of a quoted string back. -/
def unescape : List Char → Option (Char × List Char)
  | '\\' :: 'b' :: r => some ('\x08', r)
  | '\\' :: 'f' :: r => some ('\x0c', r)
  | '\\' :: 'n' :: r => some ('\n', r)
  | '\\' :: 'r' :: r => some ('\r', r)
  | '\\' :: 't' :: r => some ('\t', r)
  | '\\' :: 'u' :: '0' :: '0' :: x :: y :: r => some (Char.ofNat (16 * hexValue x + hexValue y), r)
  | '\\' :: 'u' :: '2' :: '0' :: '2' :: y :: r => some (Char.ofNat (0x2020 + hexValue y), r)
  | '\\' :: c :: r => some (c, r)
  | c :: r => some (c, r)
  | [] => none

/-- A hexadecimal digit has the value it was written for. -/
lemma hexValue_hexDigit (n : Nat) : hexValue (hexDigit n) = n % 16 := by
  have h : ∀ k < 16, hexValue (Nat.digitChar k) = k := by decide
  exact h _ (Nat.mod_lt _ (by decide))

/-- Reading back undoes the escaping of a character. -/
lemma unescape_escapeChar (c : Char) (r : List Char) :
    unescape (escapeChar c ++ r) = some (c, r) := by
  have hc : Char.ofNat c.toNat = c := Char.ofNat_toNat c
  unfold escapeChar
  split_ifs with h₁ h₂ h₃ h₄ h₅ h₆ h₇ h₈
  · rcases h₁ with rfl | rfl <;> rfl
  · subst h₂; rfl
  · subst h₃; rfl
  · subst h₄; rfl
  · subst h₅; rfl
  · subst h₆; rfl
  · have hlt : c.toNat < 256 := by
      rcases h₇ with h | rfl | rfl | rfl
      · omega
      all_goals decide
    have hval : 16 * hexValue (hexDigit (c.toNat / 16)) + hexValue (hexDigit c.toNat) =
        c.toNat := by
      rw [hexValue_hexDigit, hexValue_hexDigit]
      omega
    simp only [List.cons_append, List.nil_append, unescape, hval, hc]
  · have hval : 0x2020 + hexValue (hexDigit c.toNat) = c.toNat := by
      rw [hexValue_hexDigit]
      omega
    simp only [List.cons_append, List.nil_append, unescape, hval, hc]
  · have hne : c ≠ '\\' := fun h => h₁ (Or.inr h)
    simp [unescape, hne]

/-- The text of a character does not begin with a closing quote. -/
lemma head?_escapeChar_ne (c : Char) (r : List Char) : (escapeChar c ++ r).head? ≠ some '"' := by
  unfold escapeChar
  split_ifs with h₁ <;> simp
  exact fun h => h₁ (Or.inl h)

/-- The characters of a string up to and with its closing quote. -/
def encodeChars : List Char → List Char
  | [] => ['"']
  | c :: cs => escapeChar c ++ encodeChars cs

/-- The closing quote of a string is found in only one place. -/
lemma encodeChars_append_inj {cs ds r s : List Char}
    (h : encodeChars cs ++ r = encodeChars ds ++ s) : cs = ds ∧ r = s := by
  induction cs generalizing ds with
  | nil =>
    cases ds with
    | nil => simpa [encodeChars] using h
    | cons d ds =>
      have hhead := head?_escapeChar_ne d (encodeChars ds ++ s)
      rw [← List.append_assoc, ← encodeChars, ← h] at hhead
      exact absurd rfl hhead
  | cons c cs ih =>
    cases ds with
    | nil =>
      have hhead := head?_escapeChar_ne c (encodeChars cs ++ r)
      rw [← List.append_assoc, ← encodeChars, h] at hhead
      exact absurd rfl hhead
    | cons d ds =>
      rw [encodeChars, encodeChars, List.append_assoc, List.append_assoc] at h
      have hread : some (c, encodeChars cs ++ r) = some (d, encodeChars ds ++ s) := by
        rw [← unescape_escapeChar c, ← unescape_escapeChar d, h]
      simp only [Option.some.injEq, Prod.mk.injEq] at hread
      obtain ⟨rfl, rfl⟩ := ih hread.2
      exact ⟨by rw [hread.1], rfl⟩

/-! ## Values -/

/-- The values that the encoder is given. -/
inductive Value where
  | str (s : String)
  | num (n : Nat)
  | bool (b : Bool)
  | arr (xs : List Value)
  | obj (fs : List (String × Value))

/-- The text of a string: a quote, the escaped characters and a quote. -/
def encodeString (s : String) : List Char :=
  '"' :: encodeChars s.toList

/-- The text of a boolean. -/
def encodeBool (b : Bool) : List Char :=
  if b then ['t', 'r', 'u', 'e'] else ['f', 'a', 'l', 's', 'e']

mutual

/-- The text of a value. -/
def encode : Value → List Char
  | .str s => encodeString s
  | .num n => Nat.toDigits 10 n
  | .bool b => encodeBool b
  | .arr [] => ['[', ']']
  | .arr (x :: xs) => '[' :: encode x ++ encodeElems xs
  | .obj [] => ['{', '}']
  | .obj ((k, v) :: fs) => '{' :: encodeString k ++ ':' :: encode v ++ encodeFields fs

/-- The text of the elements of an array after the first one, with the closing bracket. -/
def encodeElems : List Value → List Char
  | [] => [']']
  | x :: xs => ',' :: encode x ++ encodeElems xs

/-- The text of the fields of an object after the first one, with the closing brace. -/
def encodeFields : List (String × Value) → List Char
  | [] => ['}']
  | (k, v) :: fs => ',' :: encodeString k ++ ':' :: encode v ++ encodeFields fs

end

/-- A text at whose beginning a number has certainly ended. -/
def Break (r : List Char) : Prop :=
  ∀ c ∈ r.head?, c.isDigit = false

/-! ## Unique readability -/

/-- The kind of a value. -/
def Value.kind : Value → Nat
  | .str _ => 0
  | .num _ => 1
  | .bool _ => 2
  | .arr _ => 3
  | .obj _ => 4

/-- The kind of the values whose text begins with the given character; no value begins with a
closing bracket. -/
def kindOfHead (c : Char) : Nat :=
  if c = '"' then 0 else if c.isDigit then 1 else if c = '[' then 3 else if c = '{' then 4
  else if c = ']' then 5 else 2

/-- The digits of a number are digits. -/
lemma isDigit_of_mem_toDigits {n : Nat} {c : Char} (h : c ∈ Nat.toDigits 10 n) :
    c.isDigit = true :=
  Nat.isDigit_of_mem_toDigits (by decide) (by decide) h

/-- The first character of the text of a value shows its kind. -/
lemma kindOfHead_encode (v : Value) (r : List Char) :
    (encode v ++ r).head?.map kindOfHead = some v.kind := by
  match v with
  | .str s => rfl
  | .num n =>
    cases hd : Nat.toDigits 10 n with
    | nil => exact absurd hd (Nat.toDigits_ne_nil)
    | cons c cs =>
      have hc : c.isDigit = true := isDigit_of_mem_toDigits (n := n) (by simp [hd])
      have hq : c ≠ '"' := by rintro rfl; exact absurd hc (by decide)
      simp [encode, hd, kindOfHead, hc, hq, Value.kind]
  | .bool true => rfl
  | .bool false => rfl
  | .arr [] => rfl
  | .arr (x :: xs) => rfl
  | .obj [] => rfl
  | .obj ((k, v) :: fs) => rfl

/-- Two values whose texts agree at the beginning are of one kind. -/
lemma kind_eq_of_encode_append_eq {v w : Value} {r s : List Char}
    (h : encode v ++ r = encode w ++ s) : v.kind = w.kind := by
  have := kindOfHead_encode v r
  rw [h, kindOfHead_encode] at this
  exact (Option.some.inj this).symm

/-- No value begins with a closing bracket. -/
lemma encode_append_ne_bracket (v : Value) (r s : List Char) : encode v ++ r ≠ ']' :: s := by
  intro h
  have hv := kindOfHead_encode v r
  rw [h] at hv
  cases v <;> simp [kindOfHead, Value.kind] at hv

/-- A number is read up to the last digit. -/
lemma toDigits_append_inj {m n : Nat} {r s : List Char} (hr : Break r) (hs : Break s)
    (h : Nat.toDigits 10 m ++ r = Nat.toDigits 10 n ++ s) : m = n ∧ r = s := by
  have hread : ∀ (k : Nat) (t : List Char), Break t →
      (Nat.toDigits 10 k ++ t).takeWhile Char.isDigit = Nat.toDigits 10 k := by
    intro k t ht
    rw [List.takeWhile_append_of_pos fun c hc => isDigit_of_mem_toDigits hc]
    cases t with
    | nil => simp
    | cons c t => simp [ht c (by simp)]
  have hdigits : Nat.toDigits 10 m = Nat.toDigits 10 n := by
    rw [← hread m r hr, ← hread n s hs, h]
  have hmn : m = n := by
    rw [← Nat.ofDigitChars_ten_toDigits (n := m), hdigits, Nat.ofDigitChars_ten_toDigits]
  rw [hdigits] at h
  exact ⟨hmn, List.append_cancel_left h⟩

/-- The text of a string is read up to its closing quote. -/
lemma encodeString_append_inj {a b : String} {r s : List Char}
    (h : encodeString a ++ r = encodeString b ++ s) : a = b ∧ r = s := by
  obtain ⟨hab, hrs⟩ := encodeChars_append_inj (List.cons.inj h).2
  exact ⟨String.toList_injective hab, hrs⟩

/-- After a value inside an array comes a comma or a bracket. -/
lemma break_encodeElems (xs : List Value) (r : List Char) : Break (encodeElems xs ++ r) := by
  cases xs <;> simp [Break, encodeElems]

/-- After a value inside an object comes a comma or a brace. -/
lemma break_encodeFields (fs : List (String × Value)) (r : List Char) :
    Break (encodeFields fs ++ r) := by
  match fs with
  | [] => simp [Break, encodeFields]
  | (k, v) :: fs => simp [Break, encodeFields]

mutual

/-- **Unique readability.**  The text of a value followed by anything but a digit determines
both the value and what follows. -/
theorem encode_append_inj : ∀ (v w : Value) {r s : List Char}, Break r → Break s →
    encode v ++ r = encode w ++ s → v = w ∧ r = s := by
  intro v w r s hr hs h
  have hkind := kind_eq_of_encode_append_eq h
  match v, w, hkind with
  | .str a, .str b, _ =>
    obtain ⟨rfl, rfl⟩ := encodeString_append_inj (by simpa only [encode] using h)
    exact ⟨rfl, rfl⟩
  | .num m, .num n, _ =>
    obtain ⟨rfl, rfl⟩ := toDigits_append_inj hr hs (by simpa only [encode] using h)
    exact ⟨rfl, rfl⟩
  | .bool a, .bool b, _ =>
    cases a <;> cases b <;> simp_all [encode, encodeBool]
  | .arr [], .arr [], _ => exact ⟨rfl, by simpa [encode] using h⟩
  | .arr [], .arr (y :: ys), _ =>
    simp only [encode, List.cons_append, List.nil_append, List.append_assoc,
      List.cons.injEq, true_and] at h
    exact absurd h.symm (encode_append_ne_bracket y _ _)
  | .arr (x :: xs), .arr [], _ =>
    simp only [encode, List.cons_append, List.nil_append, List.append_assoc,
      List.cons.injEq, true_and] at h
    exact absurd h (encode_append_ne_bracket x _ _)
  | .arr (x :: xs), .arr (y :: ys), _ =>
    simp only [encode, List.cons_append, List.append_assoc, List.cons.injEq, true_and] at h
    obtain ⟨rfl, hrest⟩ :=
      encode_append_inj x y (break_encodeElems xs r) (break_encodeElems ys s) h
    obtain ⟨rfl, rfl⟩ := encodeElems_append_inj xs ys hrest
    exact ⟨rfl, rfl⟩
  | .obj fs, .obj gs, _ =>
    obtain ⟨rfl, rfl⟩ := encode_obj_append_inj fs gs h
    exact ⟨rfl, rfl⟩

/-- The text of an object determines the object and what follows, whatever follows. -/
theorem encode_obj_append_inj : ∀ (fs gs : List (String × Value)) {r s : List Char},
    encode (.obj fs) ++ r = encode (.obj gs) ++ s → fs = gs ∧ r = s := by
  intro fs gs r s h
  match fs, gs with
  | [], [] => exact ⟨rfl, by simpa [encode] using h⟩
  | [], (_, _) :: _ => simp [encode, encodeString] at h
  | (_, _) :: _, [] => simp [encode, encodeString] at h
  | (k, x) :: fs, (l, y) :: gs =>
    simp only [encode, List.cons_append, List.append_assoc, List.cons.injEq, true_and] at h
    obtain ⟨rfl, hvalue⟩ := encodeString_append_inj h
    obtain ⟨rfl, hrest⟩ := encode_append_inj x y (break_encodeFields fs r)
      (break_encodeFields gs s) (List.cons.inj hvalue).2
    obtain ⟨rfl, rfl⟩ := encodeFields_append_inj fs gs hrest
    exact ⟨rfl, rfl⟩

/-- The rest of an array is read up to its bracket. -/
theorem encodeElems_append_inj : ∀ (xs ys : List Value) {r s : List Char},
    encodeElems xs ++ r = encodeElems ys ++ s → xs = ys ∧ r = s := by
  intro xs ys r s h
  match xs, ys with
  | [], [] => exact ⟨rfl, by simpa [encodeElems] using h⟩
  | [], _ :: _ => simp [encodeElems] at h
  | _ :: _, [] => simp [encodeElems] at h
  | x :: xs, y :: ys =>
    simp only [encodeElems, List.cons_append, List.append_assoc, List.cons.injEq, true_and] at h
    obtain ⟨rfl, hrest⟩ :=
      encode_append_inj x y (break_encodeElems xs r) (break_encodeElems ys s) h
    obtain ⟨rfl, rfl⟩ := encodeElems_append_inj xs ys hrest
    exact ⟨rfl, rfl⟩

/-- The rest of an object is read up to its brace. -/
theorem encodeFields_append_inj : ∀ (fs gs : List (String × Value)) {r s : List Char},
    encodeFields fs ++ r = encodeFields gs ++ s → fs = gs ∧ r = s := by
  intro fs gs r s h
  match fs, gs with
  | [], [] => exact ⟨rfl, by simpa [encodeFields] using h⟩
  | [], (_, _) :: _ => simp [encodeFields] at h
  | (_, _) :: _, [] => simp [encodeFields] at h
  | (k, x) :: fs, (l, y) :: gs =>
    simp only [encodeFields, List.cons_append, List.append_assoc, List.cons.injEq,
      true_and] at h
    obtain ⟨rfl, hvalue⟩ := encodeString_append_inj h
    obtain ⟨rfl, hrest⟩ := encode_append_inj x y (break_encodeFields fs r)
      (break_encodeFields gs s) (List.cons.inj hvalue).2
    obtain ⟨rfl, rfl⟩ := encodeFields_append_inj fs gs hrest
    exact ⟨rfl, rfl⟩

end

end Json
