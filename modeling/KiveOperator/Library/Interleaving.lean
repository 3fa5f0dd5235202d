import KiveOperator.Library.Program
import Mathlib.Logic.Function.Basic

/-!
# Programs running side by side

Several threads run their programs one call at a time, in any order, each with a handler of its
own and all on one world.  `interleave` runs a schedule, which says whose turn it is;
`interleave_induction` is the rule for invariants, and a thread that has the world to itself for
long enough makes an ordinary run (`interleave_replicate`).

A thread that sees only a part of the world that the other threads leave alone makes the same
observable calls under every schedule.  What it sees may leave some answers open; `Steady` says that
whatever these are, the observable calls are the given ones, and `AllSteady.step` that this stays
so while the threads run.
-/

namespace Interaction

variable {Op : Type} {Ans : Op → Type} {α β ε ω V W ι : Type}

/-- A program that is being run: the calls that it has made and what is left of it. -/
structure Thread (Ans : Op → Type) (α : Type) where
  log : List (Sigma Ans)
  prog : Prog Ans α

namespace Thread

/-- A program that has not been run yet. -/
def start (p : Prog Ans α) : Thread Ans α := ⟨[], p⟩

/-- Make the next call, if there is one. -/
def step (h : (op : Op) → W → Ans op × W) (t : Thread Ans α) (w : W) : Thread Ans α × W :=
  match t.prog with
  | .ret _ => (t, w)
  | .call op k => (⟨t.log ++ [⟨op, (h op w).1⟩], k (h op w).1⟩, (h op w).2)

/-- All calls have been made. -/
def Finished (t : Thread Ans α) : Prop :=
  ∃ a, t.prog = .ret a

instance (t : Thread Ans α) : Decidable t.Finished :=
  match h : t.prog with
  | .ret a => isTrue ⟨a, h⟩
  | .call _ _ => isFalse fun ⟨_, ha⟩ => nomatch h.symm.trans ha

/-- The program run to its end. -/
def finish (h : (op : Op) → W → Ans op × W) (t : Thread Ans α) (w : W) : Thread Ans α :=
  ⟨t.log ++ t.prog.events h w, .ret (t.prog.run h w).1⟩

end Thread

section Interleave

variable [DecidableEq ι] (h : ι → (op : Op) → W → Ans op × W)

/-- Let the threads make their calls in the order of a schedule. -/
def interleave : List ι → (ι → Thread Ans α) → W → (ι → Thread Ans α) × W
  | [], ts, w => (ts, w)
  | i :: sched, ts, w =>
    interleave sched (Function.update ts i ((ts i).step (h i) w).1) ((ts i).step (h i) w).2

/-- Two schedules, one after the other. -/
lemma interleave_append (sched sched' : List ι) (ts : ι → Thread Ans α) (w : W) :
    interleave h (sched ++ sched') ts w =
      interleave h sched' (interleave h sched ts w).1 (interleave h sched ts w).2 := by
  induction sched generalizing ts w with
  | nil => rfl
  | cons i sched ih => exact ih _ _

/-- What each call of a thread keeps holds after every schedule. -/
lemma interleave_induction {I : (ι → Thread Ans α) → W → Prop} {sched : List ι}
    (hstep : ∀ i ∈ sched, ∀ ts w op k, (ts i).prog = .call op k → I ts w →
      I (Function.update ts i ⟨(ts i).log ++ [⟨op, (h i op w).1⟩], k (h i op w).1⟩) (h i op w).2)
    {ts : ι → Thread Ans α} {w : W} (hI : I ts w) :
    I (interleave h sched ts w).1 (interleave h sched ts w).2 := by
  induction sched generalizing ts w with
  | nil => exact hI
  | cons i sched ih =>
    refine ih (fun j hj => hstep j (List.mem_cons_of_mem i hj)) ?_
    rw [Thread.step]
    cases hprog : (ts i).prog with
    | ret a => simpa using hI
    | call op k => exact hstep i List.mem_cons_self ts w op k hprog hI

/-- A thread that is left alone runs to its end. -/
lemma interleave_replicate (i : ι) (ts : ι → Thread Ans α) (w : W) :
    ∃ n, interleave h (List.replicate n i) ts w =
      (Function.update ts i ((ts i).finish (h i) w), ((ts i).prog.run (h i) w).2) := by
  obtain ⟨log, prog, ht⟩ : ∃ log prog, ts i = ⟨log, prog⟩ := ⟨_, _, rfl⟩
  induction prog generalizing log ts w with
  | ret a =>
    refine ⟨0, ?_⟩
    rw [ht]
    simp [interleave, Thread.finish, ← ht]
  | call op k ih =>
    have hstep : (ts i).step (h i) w =
        (⟨log ++ [⟨op, (h i op w).1⟩], k (h i op w).1⟩, (h i op w).2) := by rw [ht]; rfl
    obtain ⟨n, hn⟩ := ih (h i op w).1
      (Function.update ts i ⟨log ++ [⟨op, (h i op w).1⟩], k (h i op w).1⟩) (h i op w).2 _
      (Function.update_self ..)
    refine ⟨n + 1, ?_⟩
    rw [List.replicate_succ, interleave, hstep, hn, ht]
    simp [Thread.finish, List.append_assoc]

end Interleave

/-! ## Threads that do not see each other -/

/-- Whatever the calls are answered, as far as `A` leaves that open to one who sees `v`, they all
satisfy `P`, those that are observed make up the list `l`, and the result and what is seen in the
end satisfy `R`. -/
def Steady (P : Op → Prop) (A : (op : Op) → V → Ans op → V → Prop) (obs : Sigma Ans → Option ω)
    (R : α → V → Prop) : Prog Ans α → V → List ω → Prop
  | .ret a, v, l => l = [] ∧ R a v
  | .call op k, v, l => P op ∧ ∀ a v', A op v a v' →
      ∃ l', l = (obs ⟨op, a⟩).toList ++ l' ∧ Steady P A obs R (k a) v' l'

section Steady

variable {P : Op → Prop} {A : (op : Op) → V → Ans op → V → Prop} {obs : Sigma Ans → Option ω}
  {R : α → V → Prop} {v : V}

/-- One program after the other. -/
lemma Steady.bind {T : β → V → Prop} {p : Prog Ans α} {f : α → Prog Ans β} {l l' : List ω}
    (hp : Steady P A obs R p v l) (hf : ∀ a u, R a u → Steady P A obs T (f a) u l') :
    Steady P A obs T (p >>= f) v (l ++ l') := by
  induction p generalizing v l with
  | ret a =>
    obtain ⟨rfl, hR⟩ := hp
    exact hf a v hR
  | call op k ih =>
    refine ⟨hp.1, fun a u ha => ?_⟩
    obtain ⟨m, rfl, hm⟩ := hp.2 a u ha
    exact ⟨m ++ l', List.append_assoc .., ih a hm⟩

/-- Calls that are not observed. -/
lemma Prog.Only.steady {p : Prog Ans α} (hp : p.Only fun op => P op ∧ ∀ a, obs ⟨op, a⟩ = none) :
    Steady P A obs (fun _ _ => True) p v [] := by
  induction p generalizing v with
  | ret a => exact ⟨rfl, trivial⟩
  | call op k ih =>
    refine ⟨hp.1.1, fun a u _ => ⟨[], ?_, ih a (hp.2 a)⟩⟩
    rw [hp.1.2 a]
    rfl

/-- Whoever is to be kept apart: what a thread sees answers its calls as far as `A` says, and the
calls of the others do not change it. -/
structure Apart (P : Op → Prop) (A : (op : Op) → V → Ans op → V → Prop)
    (h : ι → (op : Op) → W → Ans op × W) (sees : ι → W → V) : Prop where
  own : ∀ i op w, P op → A op (sees i w) (h i op w).1 (sees i (h i op w).2)
  others : ∀ i j op w, i ≠ j → P op → sees j (h i op w).2 = sees j w

/-- Each thread has made the first of its observable calls and will make the others. -/
def AllSteady (P : Op → Prop) (A : (op : Op) → V → Ans op → V → Prop)
    (obs : Sigma Ans → Option ω) (R : α → V → Prop) (sees : ι → W → V) (l : ι → List ω)
    (ts : ι → Thread Ans α) (w : W) : Prop :=
  ∀ i, ∃ l', l i = (ts i).log.filterMap obs ++ l' ∧
    Steady P A obs R (ts i).prog (sees i w) l'

variable {h : ι → (op : Op) → W → Ans op × W} {sees : ι → W → V}
  {l : ι → List ω} {ts : ι → Thread Ans α} {w : W} {i : ι} {op : Op} {k : Ans op → Prog Ans α}

/-- The next call of a thread is one of those allowed. -/
lemma AllSteady.allowed (hall : AllSteady P A obs R sees l ts w)
    (hprog : (ts i).prog = .call op k) : P op := by
  obtain ⟨l', -, hsteady⟩ := hall i
  rw [hprog] at hsteady
  exact hsteady.1

/-- A finished thread has made all of its observable calls. -/
lemma AllSteady.log_eq (hall : AllSteady P A obs R sees l ts w) (hi : (ts i).Finished) :
    (ts i).log.filterMap obs = l i := by
  obtain ⟨a, ha⟩ := hi
  obtain ⟨l', hl, hsteady⟩ := hall i
  rw [ha] at hsteady
  rw [hl, hsteady.1, List.append_nil]

variable [DecidableEq ι]

/-- A call keeps all threads steady. -/
lemma AllSteady.step (hapart : Apart P A h sees) (hall : AllSteady P A obs R sees l ts w)
    (hprog : (ts i).prog = .call op k) :
    AllSteady P A obs R sees l
      (Function.update ts i ⟨(ts i).log ++ [⟨op, (h i op w).1⟩], k (h i op w).1⟩)
      (h i op w).2 := by
  have hop := hall.allowed hprog
  intro j
  obtain ⟨l', hl, hsteady⟩ := hall j
  rcases eq_or_ne j i with rfl | hne
  · rw [hprog] at hsteady
    obtain ⟨m, rfl, hm⟩ := hsteady.2 _ _ (hapart.own j op w hop)
    refine ⟨m, ?_, by simpa using hm⟩
    rw [Function.update_self, List.filterMap_append, hl, List.append_assoc]
    congr 2
  · rw [Function.update_of_ne hne, hapart.others i j op w hne.symm hop]
    exact ⟨l', hl, hsteady⟩

end Steady

end Interaction
