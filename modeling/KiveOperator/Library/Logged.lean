import KiveOperator.Library.Program

/-!
# Conditions on the calls made so far

What a program may do next often depends on what it has done and on what it was answered.
`Obeys Φ Q log p` says of a program `p` that has made the calls `log` already: whatever it is
answered, at each of its calls `Φ` holds of the calls before it and of this one, and where it ends
`Q` holds of its result and of all calls.

The rules follow the program text, `Obeys.bind` and `Obeys.bindE` for sequences and `Obeys.lift`
for calls of a program that may stop early; `Obeys.run` is what they say of a run.  `Makes` is about
the calls of a program by themselves, whatever was called before.
-/

namespace Interaction

namespace Prog

variable {Op : Type} {Ans : Op → Type} {α β ε W : Type}

/-- At each call that the program can make after the calls `log`, `Φ` holds of the calls before and
of this one; at the end `Q` holds of the result and of all calls. -/
def Obeys (Φ : List (Sigma Ans) → Op → Prop) (Q : α → List (Sigma Ans) → Prop) :
    List (Sigma Ans) → Prog Ans α → Prop
  | log, ret a => Q a log
  | log, call op k => Φ log op ∧ ∀ a, Obeys Φ Q (log ++ [⟨op, a⟩]) (k a)

section Obeys

variable {Φ Ψ : List (Sigma Ans) → Op → Prop} {Q T : α → List (Sigma Ans) → Prop}
  {R : β → List (Sigma Ans) → Prop} {log : List (Sigma Ans)}

/-- A program that returns keeps to the condition on the end. -/
@[simp] lemma obeys_ret {a : α} : Obeys Φ Q log (ret a) ↔ Q a log := Iff.rfl

/-- A call, and what follows it whatever the answer is. -/
@[simp] lemma obeys_call {op : Op} {k : Ans op → Prog Ans α} :
    Obeys Φ Q log (call op k) ↔ Φ log op ∧ ∀ a, Obeys Φ Q (log ++ [⟨op, a⟩]) (k a) := Iff.rfl

/-- Weaker conditions. -/
lemma Obeys.mono {p : Prog Ans α} (hp : Obeys Φ Q log p) (hΦ : ∀ l op, Φ l op → Ψ l op)
    (hQ : ∀ a l, Q a l → T a l) : Obeys Ψ T log p := by
  induction p generalizing log with
  | ret a => exact hQ a log hp
  | call op k ih => exact ⟨hΦ log op hp.1, fun a => ih a (hp.2 a)⟩

/-- Both of two conditions. -/
lemma Obeys.and {p : Prog Ans α} (hp : Obeys Φ Q log p) (hp' : Obeys Ψ T log p) :
    Obeys (fun l op => Φ l op ∧ Ψ l op) (fun a l => Q a l ∧ T a l) log p := by
  induction p generalizing log with
  | ret a => exact ⟨hp, hp'⟩
  | call op k ih => exact ⟨⟨hp.1, hp'.1⟩, fun a => ih a (hp.2 a) (hp'.2 a)⟩

/-- What each of the calls keeps of the calls made so far holds at every call and at the end. -/
lemma Obeys.keep {I : List (Sigma Ans) → Prop} {p : Prog Ans α} (hp : Obeys Φ Q log p)
    (hlog : I log) (hI : ∀ l op a, I l → Φ l op → I (l ++ [⟨op, a⟩])) :
    Obeys (fun l op => I l ∧ Φ l op) (fun a l => I l ∧ Q a l) log p := by
  induction p generalizing log with
  | ret a => exact ⟨hlog, hp⟩
  | call op k ih =>
    exact ⟨⟨hlog, hp.1⟩, fun a => ih a (hp.2 a) (hI log op a hlog hp.1)⟩

/-- The calls made before stay in the log. -/
lemma Obeys.grows {p : Prog Ans α} (hp : Obeys Φ Q log p) :
    Obeys (fun l op => log ⊆ l ∧ Φ l op) (fun a l => log ⊆ l ∧ Q a l) log p :=
  hp.keep (List.Subset.refl log) fun _ _ _ h _ => List.subset_append_of_subset_left _ h

/-- One program after the other. -/
lemma Obeys.bind {p : Prog Ans α} {f : α → Prog Ans β} (hp : Obeys Φ Q log p)
    (hf : ∀ a l, Q a l → Obeys Φ R l (f a)) : Obeys Φ R log (p >>= f) := by
  induction p generalizing log with
  | ret a => exact hf a log hp
  | call op k ih => exact ⟨hp.1, fun a => ih a (hp.2 a)⟩

/-- One part after the other, where the first may stop early. -/
lemma Obeys.bindE {Q : Except ε α → List (Sigma Ans) → Prop}
    {R : Except ε β → List (Sigma Ans) → Prop} {p : ExceptT ε (Prog Ans) α}
    {f : α → ExceptT ε (Prog Ans) β} (hp : Obeys Φ Q log p.run)
    (hstop : ∀ e l, Q (.error e) l → R (.error e) l)
    (hf : ∀ a l, Q (.ok a) l → Obeys Φ R l (f a).run) : Obeys Φ R log (p >>= f).run := by
  rw [ExceptT.run_bind]
  refine hp.bind fun r l hr => ?_
  cases r with
  | error e => exact hstop e l hr
  | ok a => exact hf a l hr

/-- A program as a part of one that may stop early. -/
lemma Obeys.lift {Q : Except ε α → List (Sigma Ans) → Prop} {p : Prog Ans α}
    (hp : Obeys Φ (fun a => Q (.ok a)) log p) :
    Obeys Φ Q log (liftM p : ExceptT ε (Prog Ans) α).run :=
  hp.bind fun _ _ h => h

/-- A call, followed by what is done with its answer. -/
lemma Obeys.lift_perform {R : Except ε β → List (Sigma Ans) → Prop} {op : Op}
    {f : Ans op → ExceptT ε (Prog Ans) β} (hop : Φ log op)
    (hf : ∀ a, Obeys Φ R (log ++ [⟨op, a⟩]) (f a).run) :
    Obeys Φ R log (liftM (perform op : Prog Ans (Ans op)) >>= f : ExceptT ε (Prog Ans) β).run :=
  ⟨hop, hf⟩

/-- Conditions on single calls are conditions that do not look back. -/
lemma Only.obeys {P : Op → Prop} {p : Prog Ans α} (hp : Only P p) :
    Obeys (fun _ op => P op) (fun _ _ => True) log p := by
  induction p generalizing log with
  | ret a => trivial
  | call op k ih => exact ⟨hp.1, fun a => ih a (hp.2 a)⟩

/-- Conditions that each call meets by itself. -/
lemma Obeys.only {P : Op → Prop} {p : Prog Ans α} (hp : Obeys Φ Q log p)
    (h : ∀ l op, Φ l op → P op) : Only P p := by
  induction p generalizing log with
  | ret a => trivial
  | call op k ih => exact ⟨h log op hp.1, fun a => ih a (hp.2 a)⟩

/-- Once the calls made so far leave nothing to show, nothing is to be shown. -/
lemma Obeys.of_keeps {B : List (Sigma Ans) → Prop} (hB : ∀ l op a, B l → B (l ++ [⟨op, a⟩]))
    (hΦ : ∀ l op, B l → Φ l op) (hQ : ∀ a l, B l → Q a l) {p : Prog Ans α} (hlog : B log) :
    Obeys Φ Q log p := by
  induction p generalizing log with
  | ret a => exact hQ a log hlog
  | call op k ih => exact ⟨hΦ log op hlog, fun a => ih a (hB log op a hlog)⟩

/-- A run ends as it should. -/
theorem Obeys.run (h : (op : Op) → W → Ans op × W) {p : Prog Ans α} (hp : Obeys Φ Q log p)
    (w : W) : Q (Prog.run h p w).1 (log ++ events h p w) := by
  induction p generalizing log w with
  | ret a => simpa using hp
  | call op k ih =>
    have hrest := ih (h op w).1 (hp.2 _) (h op w).2
    rwa [List.append_assoc] at hrest

end Obeys

/-! ## The calls that a program makes -/

/-- Whatever a program is answered, `E` holds of the calls that it makes. -/
def Makes (E : List (Sigma Ans) → Prop) (p : Prog Ans α) : Prop :=
  ∀ log, Obeys (fun _ _ => True) (fun _ l => ∃ l', l = log ++ l' ∧ E l') log p

section Makes

variable {E : List (Sigma Ans) → Prop}

/-- A program without calls. -/
lemma makes_ret (hE : E []) (a : α) : Makes E (ret a : Prog Ans α) :=
  fun log => ⟨[], (List.append_nil log).symm, hE⟩

/-- One part after the other, for a property that is kept by putting lists together. -/
lemma Makes.bindE (happend : ∀ l l', E l → E l' → E (l ++ l')) {p : ExceptT ε (Prog Ans) α}
    {f : α → ExceptT ε (Prog Ans) β} (hp : Makes E p.run) (hf : ∀ a, Makes E (f a).run) :
    Makes E (p >>= f).run := by
  intro log
  refine (hp log).bindE (fun _ _ h => h) fun a l hl => ?_
  obtain ⟨l₁, rfl, h₁⟩ := hl
  refine (hf a (log ++ l₁)).mono (fun _ _ h => h) fun _ l hl => ?_
  obtain ⟨l₂, rfl, h₂⟩ := hl
  exact ⟨l₁ ++ l₂, List.append_assoc log l₁ l₂, happend l₁ l₂ h₁ h₂⟩

/-- A single call. -/
lemma makes_lift_perform {op : Op} (hop : ∀ a, E [⟨op, a⟩]) :
    Makes E (liftM (perform op : Prog Ans (Ans op)) : ExceptT ε (Prog Ans) (Ans op)).run :=
  fun _ => ⟨trivial, fun a => ⟨[⟨op, a⟩], rfl, hop a⟩⟩

/-- Of all calls together. -/
lemma Makes.obeys {p : Prog Ans α} (hp : Makes E p) :
    Obeys (fun _ _ => True) (fun _ l => E l) [] p := by
  refine (hp []).mono (fun _ _ h => h) fun _ l hl => ?_
  obtain ⟨l', rfl, hl'⟩ := hl
  exact hl'

/-- Of the calls of a run. -/
lemma Makes.events (h : (op : Op) → W → Ans op × W) {p : Prog Ans α} (hp : Makes E p) (w : W) :
    E (events h p w) :=
  hp.obeys.run h w

end Makes

end Prog

end Interaction
