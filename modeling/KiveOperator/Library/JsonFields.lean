import KiveOperator.Library.Json
import Mathlib.Data.List.Forall2

/-!
# JSON texts of structures

An encoder in the manner of `encoding/json` writes a structure as an object whose members are always
the same ones in the same order, each with a text of its own.  `Delimited` says that a kind of text
can be read back up to its end; strings, integers and values are written so.  A `Member` is a name
and a way of writing a part of a structure, together with what its text tells about the structure.
The main result is `objectText_eq_iff`: two structures have the same text exactly when they are the
same to each member.

A string may hold bytes that are no UTF-8.  `runes` reads them in the manner of Go, one broken byte
at a time, and each broken byte is written as `\ufffd`: `delimited_runesText` says that all the
rest can be read back.
-/

namespace Json

variable {α β : Type*}

/-- A text that can be read back up to its end, as long as what follows does not begin with a
digit. -/
def Delimited (text : α → List Char) : Prop :=
  ∀ a b {r s}, Break r → Break s → text a ++ r = text b ++ s → a = b ∧ r = s

/-- Strings can be read back. -/
lemma delimited_encodeString : Delimited encodeString :=
  fun _ _ _ _ _ _ h => encodeString_append_inj h

/-- The value that something is written as can be read back. -/
lemma delimited_encode {f : α → Value} (hf : Function.Injective f) :
    Delimited fun a => encode (f a) := by
  intro a b r s hr hs h
  obtain ⟨hvalue, hrest⟩ := encode_append_inj (f a) (f b) hr hs h
  exact ⟨hf hvalue, hrest⟩

/-- The text of what determines a thing. -/
lemma Delimited.comp {text : β → List Char} (h : Delimited text) {f : α → β}
    (hf : Function.Injective f) : Delimited fun a => text (f a) := by
  intro a b r s hr hs heq
  obtain ⟨hsame, hrest⟩ := h (f a) (f b) hr hs heq
  exact ⟨hf hsame, hrest⟩

/-! ## Integers -/

/-- The text of an integer. -/
def encodeInt : Int → List Char
  | .ofNat n => Nat.toDigits 10 n
  | .negSucc n => '-' :: Nat.toDigits 10 (n + 1)

/-- A natural number does not begin with a sign. -/
lemma toDigits_append_ne_minus (n : ℕ) (r s : List Char) : Nat.toDigits 10 n ++ r ≠ '-' :: s := by
  intro h
  cases hd : Nat.toDigits 10 n with
  | nil => exact Nat.toDigits_ne_nil hd
  | cons c cs =>
    have hdigit : c.isDigit = true := isDigit_of_mem_toDigits (n := n) (by simp [hd])
    rw [hd, List.cons_append] at h
    obtain ⟨rfl, -⟩ := List.cons.inj h
    exact absurd hdigit (by decide)

/-- Integers can be read back. -/
lemma delimited_encodeInt : Delimited encodeInt := by
  intro a b r s hr hs h
  cases a with
  | ofNat m =>
    cases b with
    | ofNat n =>
      obtain ⟨rfl, hrest⟩ := toDigits_append_inj hr hs h
      exact ⟨rfl, hrest⟩
    | negSucc n => exact absurd h (toDigits_append_ne_minus m r _)
  | negSucc m =>
    cases b with
    | ofNat n => exact absurd h.symm (toDigits_append_ne_minus n s _)
    | negSucc n =>
      obtain ⟨hsucc, hrest⟩ := toDigits_append_inj hr hs (List.cons.inj h).2
      obtain rfl : m = n := by omega
      exact ⟨rfl, hrest⟩

/-! ## Strings of bytes -/

/-- The character that some bytes begin with, if they begin with the encoding of one. -/
def decodeRune (bytes : List UInt8) : Option Char :=
  ByteArray.utf8DecodeChar? ⟨bytes.toArray⟩ 0

/-- Go's reading of a string: its characters, and a `none` for each byte that belongs to none.  The
first `k` bytes have been read already. -/
def runesFrom : ℕ → List UInt8 → List (Option Char)
  | _, [] => []
  | k + 1, _ :: bytes => runesFrom k bytes
  | 0, b :: bytes =>
    match decodeRune (b :: bytes) with
    | some c => some c :: runesFrom (c.utf8Size - 1) bytes
    | none => none :: runesFrom 0 bytes

def runes (bytes : List UInt8) : List (Option Char) := runesFrom 0 bytes

/-- The text of a character, or of a byte that belongs to none. -/
def escapeRune : Option Char → List Char
  | some c => escapeChar c
  | none => ['\\', 'u', 'f', 'f', 'f', 'd']

/-- The characters of a string up to and with its closing quote. -/
def encodeRunes : List (Option Char) → List Char
  | [] => ['"']
  | c :: cs => escapeRune c ++ encodeRunes cs

/-- The text of a string of bytes. -/
def runesText (cs : List (Option Char)) : List Char :=
  '"' :: encodeRunes cs

/-- No character is written as a broken byte is. -/
lemma escapeChar_append_ne_broken (c : Char) (r s : List Char) :
    escapeChar c ++ r ≠ ['\\', 'u', 'f', 'f', 'f', 'd'] ++ s := by
  intro h
  have hread := unescape_escapeChar c r
  rw [h] at hread
  obtain ⟨rfl, -⟩ := Prod.mk.inj (Option.some.inj hread)
  have hletter : escapeChar 'u' = ['u'] := by decide
  rw [hletter] at h
  exact absurd (List.cons.inj h).1 (by decide)

/-- The text of a character is read back, and so is that of a broken byte. -/
lemma escapeRune_append_inj {c d : Option Char} {r s : List Char}
    (h : escapeRune c ++ r = escapeRune d ++ s) : c = d ∧ r = s := by
  cases c with
  | none =>
    cases d with
    | none => exact ⟨rfl, List.append_cancel_left h⟩
    | some d => exact absurd h.symm (escapeChar_append_ne_broken d s r)
  | some c =>
    cases d with
    | none => exact absurd h (escapeChar_append_ne_broken c r s)
    | some d =>
      have hread : some (c, r) = some (d, s) := by
        rw [← unescape_escapeChar c, ← unescape_escapeChar d]
        exact congrArg unescape h
      obtain ⟨rfl, hrest⟩ := Prod.mk.inj (Option.some.inj hread)
      exact ⟨rfl, hrest⟩

/-- A character and a broken byte do not begin with a closing quote. -/
lemma head?_escapeRune_ne (c : Option Char) (r : List Char) :
    (escapeRune c ++ r).head? ≠ some '"' := by
  cases c with
  | none => exact fun h => absurd (Option.some.inj h) (by decide)
  | some c => exact head?_escapeChar_ne c r

/-- A string of bytes is read back up to its quote. -/
lemma encodeRunes_append_inj {cs ds : List (Option Char)} {r s : List Char}
    (h : encodeRunes cs ++ r = encodeRunes ds ++ s) : cs = ds ∧ r = s := by
  induction cs generalizing ds with
  | nil =>
    cases ds with
    | nil => exact ⟨rfl, (List.cons.inj h).2⟩
    | cons d ds =>
      have hhead := head?_escapeRune_ne d (encodeRunes ds ++ s)
      rw [← List.append_assoc, ← encodeRunes, ← h] at hhead
      exact absurd rfl hhead
  | cons c cs ih =>
    cases ds with
    | nil =>
      have hhead := head?_escapeRune_ne c (encodeRunes cs ++ r)
      rw [← List.append_assoc, ← encodeRunes, h] at hhead
      exact absurd rfl hhead
    | cons d ds =>
      rw [encodeRunes, encodeRunes, List.append_assoc, List.append_assoc] at h
      obtain ⟨rfl, hrest⟩ := escapeRune_append_inj h
      obtain ⟨rfl, hend⟩ := ih hrest
      exact ⟨rfl, hend⟩

/-- Strings of bytes can be read back, broken bytes aside. -/
lemma delimited_runesText : Delimited runesText :=
  fun _ _ _ _ _ _ h => encodeRunes_append_inj (List.cons.inj h).2

/-! ## Objects -/

/-- A member of the object that a structure is written as. -/
structure Member (α : Type*) where
  name : String
  text : α → List Char
  /-- Two structures look the same to the member. -/
  Same : α → α → Prop
  text_eq : ∀ a b, Same a b → text a = text b
  delimited : ∀ a b {r s}, Break r → Break s → text a ++ r = text b ++ s → Same a b ∧ r = s

/-- A part of the structure, written in a way that can be read back. -/
def Member.of (name : String) (part : α → β) {text : β → List Char} (h : Delimited text) :
    Member α where
  name := name
  text a := text (part a)
  Same a b := part a = part b
  text_eq _ _ heq := congrArg text heq
  delimited a b := h (part a) (part b)

/-- The members after the first one, with the closing brace. -/
def restText (a : α) : List (Member α) → List Char
  | [] => ['}']
  | f :: members => ',' :: encodeString f.name ++ ':' :: f.text a ++ restText a members

/-- The text of a structure with the given members. -/
def objectText (members : List (Member α)) (a : α) : List Char :=
  match members with
  | [] => ['{', '}']
  | f :: members => '{' :: encodeString f.name ++ ':' :: f.text a ++ restText a members

/-- Two structures look the same to all members. -/
def SameTo (members : List (Member α)) (a b : α) : Prop :=
  ∀ f ∈ members, f.Same a b

section Objects

variable {a b : α} {r s : List Char}

/-- After a member comes a comma or a brace. -/
lemma break_restText (a : α) (members : List (Member α)) (r : List Char) :
    Break (restText a members ++ r) := by
  cases members <;> simp [Break, restText]

/-- One member more. -/
lemma sameTo_cons {f : Member α} {members : List (Member α)} :
    SameTo (f :: members) a b ↔ f.Same a b ∧ SameTo members a b :=
  List.forall_mem_cons

/-- One member and the rest of the object. -/
lemma member_append_inj {f : Member α} {members : List (Member α)}
    (hrest : ∀ {r s}, restText a members ++ r = restText b members ++ s →
      SameTo members a b ∧ r = s)
    (h : encodeString f.name ++ (':' :: (f.text a ++ (restText a members ++ r))) =
      encodeString f.name ++ (':' :: (f.text b ++ (restText b members ++ s)))) :
    SameTo (f :: members) a b ∧ r = s := by
  have hvalue := (List.cons.inj (List.append_cancel_left h)).2
  obtain ⟨hsame, hfields⟩ :=
    f.delimited a b (break_restText a members r) (break_restText b members s) hvalue
  obtain ⟨hall, hend⟩ := hrest hfields
  exact ⟨sameTo_cons.mpr ⟨hsame, hall⟩, hend⟩

/-- The rest of an object is read up to its brace. -/
lemma restText_append_inj {members : List (Member α)}
    (h : restText a members ++ r = restText b members ++ s) : SameTo members a b ∧ r = s := by
  induction members generalizing r s with
  | nil => exact ⟨fun f hf => absurd hf List.not_mem_nil, (List.cons.inj h).2⟩
  | cons f members ih =>
    simp only [restText, List.cons_append, List.append_assoc] at h
    exact member_append_inj ih (List.cons.inj h).2

/-- The text of a structure tells how it looks to the members, and what follows. -/
theorem objectText_append_inj {members : List (Member α)}
    (h : objectText members a ++ r = objectText members b ++ s) : SameTo members a b ∧ r = s := by
  cases members with
  | nil => exact ⟨fun f hf => absurd hf List.not_mem_nil, by simpa [objectText] using h⟩
  | cons f members =>
    simp only [objectText, List.cons_append, List.append_assoc] at h
    exact member_append_inj restText_append_inj (List.cons.inj h).2

/-- What is the same to each member has the same text after the first one. -/
lemma SameTo.restText_eq {members : List (Member α)} (h : SameTo members a b) :
    restText a members = restText b members := by
  induction members with
  | nil => rfl
  | cons f members ih =>
    obtain ⟨hsame, hall⟩ := sameTo_cons.mp h
    rw [restText, restText, f.text_eq a b hsame, ih hall]

/-- What is the same to each member has the same text. -/
lemma SameTo.objectText_eq {members : List (Member α)} (h : SameTo members a b) :
    objectText members a = objectText members b := by
  cases members with
  | nil => rfl
  | cons f members =>
    obtain ⟨hsame, hall⟩ := sameTo_cons.mp h
    rw [objectText, objectText, f.text_eq a b hsame, hall.restText_eq]

/-- Two structures have the same text exactly when they look the same to each member. -/
theorem objectText_eq_iff {members : List (Member α)} :
    objectText members a = objectText members b ↔ SameTo members a b := by
  refine ⟨fun h => ?_, SameTo.objectText_eq⟩
  exact (objectText_append_inj (r := []) (s := []) (by rw [h])).1

end Objects

/-- A structure inside another one. -/
def Member.object (name : String) (part : α → β) (members : List (Member β)) : Member α where
  name := name
  text a := objectText members (part a)
  Same a b := SameTo members (part a) (part b)
  text_eq _ _ h := h.objectText_eq
  delimited _ _ _ _ _ _ h := objectText_append_inj h

end Json
