import Mathlib.Data.List.Basic

/-!
# Programs as trees of calls

A program of a controller computes, calls something outside itself (an API server, a system
call, a clock) and goes on with the answer.  `Prog Ans α` is the tree of its calls: a leaf is a
result in `α`, a node is a call `op` with one subtree for every answer in `Ans op`.

The tree is given several meanings.  `Prog.run` runs it in one go against a handler,
`Prog.events` lists the calls such a run makes together with their answers, and `Prog.expand`
replaces each call by a program over finer calls; `run_expand` says that the two levels agree.
Running a tree one call at a time, with other parties moving in between, is the subject of
`Library/Interleaving.lean`.

A program that may stop early is a `Prog` in the exception monad; `runE` runs it.
-/

namespace Interaction

/-- A program over the calls `Op`, the call `op` being answered by an element of `Ans op`. -/
inductive Prog {Op : Type} (Ans : Op → Type) (α : Type) : Type where
  | ret (a : α)
  | call (op : Op) (k : Ans op → Prog Ans α)

namespace Prog

variable {Op Op' : Type} {Ans : Op → Type} {Ans' : Op' → Type} {α β γ W V ε : Type}

/-- Sequential composition: the second program is grafted onto the leaves of the first. -/
def bind : Prog Ans α → (α → Prog Ans β) → Prog Ans β
  | ret a, f => f a
  | call op k, f => call op fun a => (k a).bind f

instance : Monad (Prog Ans) where
  pure := ret
  bind := bind

/-- The program that makes one call and returns its answer. -/
def perform (op : Op) : Prog Ans (Ans op) :=
  call op ret

@[simp] lemma ret_bind (a : α) (f : α → Prog Ans β) : (ret a : Prog Ans α) >>= f = f a := rfl

@[simp] lemma call_bind (op : Op) (k : Ans op → Prog Ans α) (f : α → Prog Ans β) :
    call op k >>= f = call op fun a => k a >>= f := rfl

@[simp] lemma pure_eq_ret (a : α) : (pure a : Prog Ans α) = ret a := rfl

/-- A call, and what is done with its answer. -/
@[simp] lemma perform_bind (op : Op) (f : Ans op → Prog Ans β) :
    perform op >>= f = call op f := rfl

/-- Returning the result of a program changes nothing. -/
lemma bind_ret (p : Prog Ans α) : p >>= ret = p := by
  induction p with
  | ret a => rfl
  | call op k ih => exact congrArg (call op) (funext ih)

/-- Sequential composition is associative. -/
lemma bind_assoc' (p : Prog Ans α) (f : α → Prog Ans β) (g : β → Prog Ans γ) :
    p >>= f >>= g = p >>= fun a => f a >>= g := by
  induction p with
  | ret a => rfl
  | call op k ih => exact congrArg (call op) (funext ih)

instance : LawfulMonad (Prog Ans) :=
  LawfulMonad.mk' (Prog Ans) bind_ret (fun _ _ => rfl) bind_assoc'

/-! ## Running against a handler -/

/-- Run a program against a handler, from the world `w`. -/
def run (h : (op : Op) → W → Ans op × W) : Prog Ans α → W → α × W
  | ret a, w => (a, w)
  | call op k, w => run h (k (h op w).1) (h op w).2

/-- The calls that the run from `w` makes, in order, each with its answer. -/
def events (h : (op : Op) → W → Ans op × W) : Prog Ans α → W → List (Sigma Ans)
  | ret _, _ => []
  | call op k, w => ⟨op, (h op w).1⟩ :: events h (k (h op w).1) (h op w).2

section Run

variable (h : (op : Op) → W → Ans op × W)

@[simp] lemma run_ret (a : α) (w : W) : run h (ret a) w = (a, w) := rfl

/-- A call is answered by the handler. -/
@[simp] lemma run_call (op : Op) (k : Ans op → Prog Ans α) (w : W) :
    run h (call op k) w = run h (k (h op w).1) (h op w).2 := rfl

@[simp] lemma events_ret (a : α) (w : W) : events h (ret a) w = [] := rfl

/-- A call comes before those that follow it. -/
@[simp] lemma events_call (op : Op) (k : Ans op → Prog Ans α) (w : W) :
    events h (call op k) w = ⟨op, (h op w).1⟩ :: events h (k (h op w).1) (h op w).2 := rfl

/-- A single call, as the handler answers it. -/
@[simp] lemma run_perform (op : Op) (w : W) : run h (perform op) w = h op w := rfl

/-- A single call. -/
@[simp] lemma events_perform (op : Op) (w : W) :
    events h (perform op) w = [⟨op, (h op w).1⟩] := rfl

/-- A composed program runs its second half from where the first one stopped. -/
lemma run_bind (p : Prog Ans α) (f : α → Prog Ans β) (w : W) :
    run h (p >>= f) w = run h (f (run h p w).1) (run h p w).2 := by
  induction p generalizing w with
  | ret a => rfl
  | call op k ih => exact ih _ _

/-- The calls of a composed program are those of its two halves, one after the other. -/
lemma events_bind (p : Prog Ans α) (f : α → Prog Ans β) (w : W) :
    events h (p >>= f) w = events h p w ++ events h (f (run h p w).1) (run h p w).2 := by
  induction p generalizing w with
  | ret a => rfl
  | call op k ih =>
    rw [call_bind, events_call, events_call, run_call, ih, List.cons_append]

/-- A run moves the world along every preorder that each single call respects. -/
lemma run_rel {r : W → W → Prop} (hrefl : ∀ w, r w w)
    (htrans : ∀ {u v w}, r u v → r v w → r u w) (hstep : ∀ op w, r w (h op w).2)
    (p : Prog Ans α) (w : W) : r w (run h p w).2 := by
  induction p generalizing w with
  | ret a => exact hrefl w
  | call op k ih => exact htrans (hstep op w) (ih _ _)

/-- A component of the world that each call changes by itself is changed by the run as the
list of its calls prescribes. -/
lemma run_component {π : W → V} {e : (op : Op) → Ans op → V → V}
    (he : ∀ op w, π (h op w).2 = e op (h op w).1 (π w)) (p : Prog Ans α) (w : W) :
    π (run h p w).2 = (events h p w).foldl (fun v x => e x.1 x.2 v) (π w) := by
  induction p generalizing w with
  | ret a => rfl
  | call op k ih => rw [run_call, events_call, List.foldl_cons, ih, he]

/-- A handler that keeps a record beside the world changes nothing in the run. -/
lemma run_eq_of_sim {V : Type} {h' : (op : Op) → V → Ans op × V} {π : V → W}
    (hsim : ∀ op v, (h' op v).1 = (h op (π v)).1 ∧ π (h' op v).2 = (h op (π v)).2)
    (p : Prog Ans α) (v : V) :
    (run h' p v).1 = (run h p (π v)).1 ∧ π (run h' p v).2 = (run h p (π v)).2 := by
  induction p generalizing v with
  | ret a => exact ⟨rfl, rfl⟩
  | call op k ih =>
    obtain ⟨hanswer, hworld⟩ := hsim op v
    rw [run_call, run_call, ← hanswer, ← hworld]
    exact ih _ _

end Run

/-! ## Expanding calls into finer programs -/

/-- Replace every call by a program that computes its answer from finer calls. -/
def expand (f : (op : Op) → Prog Ans' (Ans op)) : Prog Ans α → Prog Ans' α
  | ret a => ret a
  | call op k => f op >>= fun a => expand f (k a)

@[simp] lemma expand_ret (f : (op : Op) → Prog Ans' (Ans op)) (a : α) :
    expand f (ret a) = ret a := rfl

/-- Each call is replaced by its program. -/
@[simp] lemma expand_call (f : (op : Op) → Prog Ans' (Ans op)) (op : Op)
    (k : Ans op → Prog Ans α) : expand f (call op k) = f op >>= fun a => expand f (k a) := rfl

/-- Running an expanded program is running the original one against the handler that runs the
expansion of each call in one go. -/
theorem run_expand (h : (op : Op') → W → Ans' op × W) (f : (op : Op) → Prog Ans' (Ans op))
    (p : Prog Ans α) (w : W) :
    run h (p.expand f) w = run (fun op => run h (f op)) p w := by
  induction p generalizing w with
  | ret a => rfl
  | call op k ih =>
    rw [expand_call, run_bind, run_call]
    exact ih _ _

/-! ## The calls of a program -/

/-- Every call that the program can make, whatever the answers, satisfies `P`. -/
def Only (P : Op → Prop) : Prog Ans α → Prop
  | ret _ => True
  | call op k => P op ∧ ∀ a, Only P (k a)

section Only

variable {P : Op → Prop}

/-- A program without calls. -/
@[simp] lemma only_ret (a : α) : Only P (ret a : Prog Ans α) := trivial

/-- A call, and what follows it whatever the answer is. -/
@[simp] lemma only_call {op : Op} {k : Ans op → Prog Ans α} :
    Only P (call op k) ↔ P op ∧ ∀ a, Only P (k a) := Iff.rfl

/-- The calls of a composed program are those of its halves. -/
lemma Only.bind {p : Prog Ans α} {f : α → Prog Ans β} (hp : Only P p)
    (hf : ∀ a, Only P (f a)) : Only P (p >>= f) := by
  induction p with
  | ret a => exact hf a
  | call op k ih => exact ⟨hp.1, fun a => ih a (hp.2 a)⟩

/-- A weaker condition on the calls. -/
lemma Only.mono {Q : Op → Prop} {p : Prog Ans α} (hp : Only P p) (h : ∀ op, P op → Q op) :
    Only Q p := by
  induction p with
  | ret a => trivial
  | call op k ih => exact ⟨h op hp.1, fun a => ih a (hp.2 a)⟩

/-- The calls of an expanded program are those of the expansions. -/
lemma Only.expand {Q : Op' → Prop} {f : (op : Op) → Prog Ans' (Ans op)} {p : Prog Ans α}
    (hp : Only P p) (hf : ∀ op, P op → Only Q (f op)) : Only Q (p.expand f) := by
  induction p with
  | ret a => trivial
  | call op k ih => exact Only.bind (hf op hp.1) fun a => ih a (hp.2 a)

/-- Nothing is asked of the calls. -/
lemma only_of_forall (h : ∀ op, P op) (p : Prog Ans α) : Only P p := by
  induction p with
  | ret a => trivial
  | call op k ih => exact ⟨h op, ih⟩

/-- Sequential composition of programs that may stop early. -/
lemma Only.bindE {p : ExceptT ε (Prog Ans) α} {f : α → ExceptT ε (Prog Ans) β}
    (hp : Only P p.run) (hf : ∀ a, Only P (f a).run) : Only P (p >>= f).run := by
  rw [ExceptT.run_bind]
  refine hp.bind fun r => ?_
  cases r with
  | error e => trivial
  | ok a => exact hf a

/-- A program as a part of one that may stop early. -/
lemma Only.lift {p : Prog Ans α} (hp : Only P p) :
    Only P (liftM p : ExceptT ε (Prog Ans) α).run :=
  hp.bind fun _ => trivial

end Only

/-- Every result that the program can return, whatever the answers, satisfies `Q`. -/
def Returns (Q : α → Prop) : Prog Ans α → Prop
  | ret a => Q a
  | call _ k => ∀ a, Returns Q (k a)

section Returns

variable {Q : α → Prop}

/-- The results of a composed program are those of its second half. -/
lemma Returns.bind {R : β → Prop} {p : Prog Ans α} {f : α → Prog Ans β} (hp : Returns Q p)
    (hf : ∀ a, Q a → Returns R (f a)) : Returns R (p >>= f) := by
  induction p with
  | ret a => exact hf a hp
  | call op k ih => exact fun a => ih a (hp a)

/-- Every result is possible when nothing is asked of it. -/
lemma returns_of_forall (h : ∀ a, Q a) (p : Prog Ans α) : Returns Q p := by
  induction p with
  | ret a => exact h a
  | call op k ih => exact ih

/-- A run returns one of the results. -/
lemma Returns.run {p : Prog Ans α} (hp : Returns Q p) (h : (op : Op) → W → Ans op × W) (w : W) :
    Q (run h p w).1 := by
  induction p generalizing w with
  | ret a => exact hp
  | call op k ih => exact ih _ (hp _) _

end Returns

/-- The calls of a run are calls that the program can make. -/
lemma Only.of_mem_events {P : Op → Prop} {p : Prog Ans α} (hp : Only P p)
    {h : (op : Op) → W → Ans op × W} {w : W} {e : Sigma Ans} (he : e ∈ events h p w) : P e.1 := by
  induction p generalizing w with
  | ret a => exact absurd he (by simp)
  | call op k ih =>
    rcases List.mem_cons.mp he with rfl | he
    · exact hp.1
    · exact ih _ (hp.2 _) he

/-- What holds of the calls made so far and of the world is kept up by each call: then it holds
of the whole run. -/
lemma Only.run_induction {P : Op → Prop} (h : (op : Op) → W → Ans op × W)
    {Φ : List (Sigma Ans) → W → Prop}
    (hstep : ∀ es op w, P op → Φ es w → Φ (es ++ [⟨op, (h op w).1⟩]) (h op w).2)
    {p : Prog Ans α} (hp : Only P p) (es : List (Sigma Ans)) (w : W) (hΦ : Φ es w) :
    Φ (es ++ events h p w) (run h p w).2 := by
  induction p generalizing es w with
  | ret a => simpa using hΦ
  | call op k ih =>
    have hnext := ih (h op w).1 (hp.2 _) _ _ (hstep es op w hp.1 hΦ)
    rwa [List.append_assoc] at hnext

/-! ## Programs that may stop early -/

/-- Run a program that may stop early with an exit value. -/
def runE (h : (op : Op) → W → Ans op × W) (p : ExceptT ε (Prog Ans) α) (w : W) :
    Except ε α × W :=
  run h p.run w

section RunE

variable (h : (op : Op) → W → Ans op × W)

/-- What is left to run after a first part has stopped early or returned. -/
def continueE (f : α → W → Except ε β × W) : Except ε α × W → Except ε β × W
  | (.ok a, w) => f a w
  | (.error e, w) => (.error e, w)

/-- A result is gone on with. -/
@[simp] lemma continueE_ok (f : α → W → Except ε β × W) (a : α) (w : W) :
    continueE f (.ok a, w) = f a w := rfl

/-- Nothing comes after an error. -/
@[simp] lemma continueE_error (f : α → W → Except ε β × W) (e : ε) (w : W) :
    continueE f (.error e, w) = (.error e, w) := rfl

@[simp] lemma runE_pure (a : α) (w : W) :
    runE h (pure a : ExceptT ε (Prog Ans) α) w = (.ok a, w) := rfl

@[simp] lemma runE_throw (e : ε) (w : W) :
    runE h (throw e : ExceptT ε (Prog Ans) α) w = (.error e, w) := rfl

/-- One part after another, as long as there is no error. -/
@[simp] lemma runE_bind (p : ExceptT ε (Prog Ans) α) (f : α → ExceptT ε (Prog Ans) β) (w : W) :
    runE h (p >>= f) w = continueE (fun a => runE h (f a)) (runE h p w) := by
  rw [runE, ExceptT.run_bind, run_bind]
  cases hp : run h p.run w with
  | mk r w' => cases r <;> simp [runE, hp]

/-- A call in a program that may stop early. -/
@[simp] lemma runE_lift (p : Prog Ans α) (w : W) :
    runE h (liftM p : ExceptT ε (Prog Ans) α) w = (.ok (run h p w).1, (run h p w).2) := by
  change run h (p >>= fun a => ret (Except.ok a)) w = _
  rw [run_bind]
  rfl

/-- The calls of a run that may stop early. -/
def eventsE (p : ExceptT ε (Prog Ans) α) (w : W) : List (Sigma Ans) :=
  events h p.run w

@[simp] lemma eventsE_pure (a : α) (w : W) :
    eventsE h (pure a : ExceptT ε (Prog Ans) α) w = [] := rfl

@[simp] lemma eventsE_throw (e : ε) (w : W) :
    eventsE h (throw e : ExceptT ε (Prog Ans) α) w = [] := rfl

/-- When the first part returns, the calls of the second follow. -/
lemma eventsE_bind_of_ok {p : ExceptT ε (Prog Ans) α} {f : α → ExceptT ε (Prog Ans) β}
    {w w' : W} {a : α} (hp : runE h p w = (.ok a, w')) :
    eventsE h (p >>= f) w = eventsE h p w ++ eventsE h (f a) w' := by
  rw [runE] at hp
  rw [eventsE, ExceptT.run_bind, events_bind, hp]
  rfl

/-- When the first part stops, nothing follows. -/
lemma eventsE_bind_of_error {p : ExceptT ε (Prog Ans) α} {f : α → ExceptT ε (Prog Ans) β}
    {w w' : W} {e : ε} (hp : runE h p w = (.error e, w')) :
    eventsE h (p >>= f) w = eventsE h p w := by
  rw [runE] at hp
  rw [eventsE, ExceptT.run_bind, events_bind, hp]
  exact List.append_nil _

/-- The calls of a part that cannot fail. -/
@[simp] lemma eventsE_lift (p : Prog Ans α) (w : W) :
    eventsE h (liftM p : ExceptT ε (Prog Ans) α) w = events h p w := by
  change events h (p >>= fun a => ret (Except.ok a)) w = _
  rw [events_bind]
  exact List.append_nil _

/-- A call is followed by what the program does with its answer. -/
lemma eventsE_lift_bind (p : Prog Ans α) (f : α → ExceptT ε (Prog Ans) β) (w : W) :
    eventsE h (liftM p >>= f) w =
      events h p w ++ eventsE h (f (run h p w).1) (run h p w).2 := by
  rw [eventsE_bind_of_ok h (runE_lift h p w), eventsE_lift]

end RunE

end Prog

end Interaction
