import KiveOperator.Library.Interleaving
import KiveOperator.Library.Logged
import Mathlib.Data.List.Forall2

/-!
# Programs that take from a queue

A `Queue` keeps all items that were put into it and counts those that were taken out; an item that
finds no room is lost.  A `Repeating` program is run again and again, one call at a time, and a call
may have to wait; its journal holds the calls of the runs that have ended.

`Repeating.Keeps.next` is the rule for what holds of every run by itself.  `Consumed` says that what
the calls were given is what was taken out of a queue, in the same order; it is kept by every call
that takes an item and by every other one.
-/

namespace Interaction

/-- Some elements of a list, in their order, go with elements of a list that is related to it. -/
lemma sublistForall₂_of_sublist {α β : Type*} {R : α → β → Prop} {l l' : List α} {xs : List β}
    (hsub : l.Sublist l') (h : List.Forall₂ R l' xs) : List.SublistForall₂ R l xs := by
  induction hsub generalizing xs with
  | slnil => exact List.SublistForall₂.nil
  | cons a _ ih =>
    obtain ⟨x, xs, -, hrest, rfl⟩ := List.forall₂_cons_left_iff.mp h
    exact List.SublistForall₂.cons_right (ih hrest)
  | cons_cons a _ ih =>
    obtain ⟨x, xs, hax, hrest, rfl⟩ := List.forall₂_cons_left_iff.mp h
    exact List.SublistForall₂.cons hax (ih hrest)

/-! ## Queues -/

/-- Items that go out in the order in which they came in.  At most `capacity` items wait. -/
structure Queue (β : Type) (capacity : ℕ) where
  items : List β
  taken : ℕ
  taken_le : taken ≤ items.length
  waiting_le : items.length ≤ taken + capacity

namespace Queue

variable {β : Type} {capacity : ℕ}

/-- The queue before anything is put into it. -/
def empty : Queue β capacity where
  items := []
  taken := 0
  taken_le := Nat.le_refl 0
  waiting_le := Nat.zero_le _

/-- There is room for one more item. -/
def Room (q : Queue β capacity) : Prop :=
  q.items.length < q.taken + capacity

instance (q : Queue β capacity) : Decidable q.Room := inferInstanceAs (Decidable (_ < _))

/-- No more has been taken than there is. -/
lemma taken_le_length_append (q : Queue β capacity) (x : β) :
    q.taken ≤ (q.items ++ [x]).length := by
  have hle := q.taken_le
  rw [List.length_append, List.length_singleton]
  omega

/-- With room there are at most `capacity` more than were taken. -/
lemma Room.length_append_le {q : Queue β capacity} (h : q.Room) (x : β) :
    (q.items ++ [x]).length ≤ q.taken + capacity := by
  have hlt : q.items.length < q.taken + capacity := h
  rw [List.length_append, List.length_singleton]
  omega

/-- An item comes in, unless there is no room for it. -/
def push (q : Queue β capacity) (x : β) : Queue β capacity :=
  if h : q.Room then ⟨q.items ++ [x], q.taken, q.taken_le_length_append x, h.length_append_le x⟩
  else q

/-- At most one more than `capacity` is ahead of the next take. -/
lemma waiting_le_of_taken (q : Queue β capacity) : q.items.length ≤ q.taken + 1 + capacity := by
  have hle := q.waiting_le
  omega

/-- The next item goes out, if one waits. -/
def pop? (q : Queue β capacity) : Option (β × Queue β capacity) :=
  if h : q.taken < q.items.length then
    some (q.items.get ⟨q.taken, h⟩, ⟨q.items, q.taken + 1, h, q.waiting_le_of_taken⟩)
  else none

/-- The items that have gone out. -/
def out (q : Queue β capacity) : List β :=
  q.items.take q.taken

/-- With room the item is put in. -/
lemma items_push_of_room {q : Queue β capacity} (h : q.Room) (x : β) :
    (q.push x).items = q.items ++ [x] := by
  rw [push, dif_pos h]

/-- Without room nothing changes. -/
lemma push_of_not_room {q : Queue β capacity} (h : ¬ q.Room) (x : β) : q.push x = q :=
  dif_neg h

/-- What comes in does not change what went out. -/
@[simp] lemma out_push (q : Queue β capacity) (x : β) : (q.push x).out = q.out := by
  by_cases h : q.Room
  · rw [push, dif_pos h, out, out, List.take_append_of_le_length q.taken_le]
  · rw [push_of_not_room h]

/-- Taking an item. -/
lemma of_pop?_eq_some {q q' : Queue β capacity} {x : β} (h : q.pop? = some (x, q')) :
    q'.out = q.out ++ [x] ∧ q'.items = q.items := by
  unfold pop? at h
  split_ifs at h with hlt
  obtain ⟨rfl, rfl⟩ := Prod.mk.inj (Option.some.inj h)
  refine ⟨?_, rfl⟩
  rw [out, out, List.take_add_one, List.getElem?_eq_getElem hlt]
  rfl

/-- Where no item waits, all have gone out. -/
lemma out_of_drop_eq_nil {q : Queue β capacity} (h : q.items.drop q.taken = []) :
    q.out = q.items :=
  List.take_of_length_le (List.drop_eq_nil_iff.mp h)

/-- The first of those that wait is the next one. -/
lemma exists_pop?_of_drop {q : Queue β capacity} {x : β} {rest : List β}
    (h : q.items.drop q.taken = x :: rest) :
    ∃ q', q.pop? = some (x, q') ∧ q'.items = q.items ∧ q'.items.drop q'.taken = rest := by
  have hlt : q.taken < q.items.length := by
    by_contra hge
    rw [List.drop_eq_nil_iff.mpr (Nat.le_of_not_lt hge)] at h
    cases h
  have hget := List.drop_eq_getElem_cons hlt
  rw [h] at hget
  obtain ⟨rfl, hrest⟩ := List.cons.inj hget
  exact ⟨⟨q.items, q.taken + 1, hlt, q.waiting_le_of_taken⟩, dif_pos hlt, rfl, hrest.symm⟩

/-- What has been taken was put in. -/
lemma mem_items_of_mem_out {q : Queue β capacity} {x : β} (h : x ∈ q.out) : x ∈ q.items :=
  List.mem_of_mem_take h

end Queue

/-! ## Programs that are run again and again -/

variable {Op : Type} {Ans : Op → Type} {W : Type}

/-- A program that is run again and again: the calls of the runs that have ended, and the run that
is on. -/
structure Repeating (Ans : Op → Type) where
  journal : List (List (Sigma Ans))
  current : Thread Ans Unit

namespace Repeating

/-- The program before its first call. -/
def start (p : Prog Ans Unit) : Repeating Ans := ⟨[], .start p⟩

/-- All calls that were made, in their order. -/
def events (t : Repeating Ans) : List (Sigma Ans) :=
  t.journal.flatten ++ t.current.log

/-- Make the next call, unless it has to wait; after the last one, begin again. -/
def next (p : Prog Ans Unit) (h : (op : Op) → W → Option (Ans op × W)) (t : Repeating Ans) (w : W) :
    Repeating Ans × W :=
  match t.current.prog with
  | .ret _ => (⟨t.journal ++ [t.current.log], .start p⟩, w)
  | .call op k =>
    match h op w with
    | none => (t, w)
    | some (a, w') => (⟨t.journal, ⟨t.current.log ++ [⟨op, a⟩], k a⟩⟩, w')

section Next

variable {p : Prog Ans Unit} {h : (op : Op) → W → Option (Ans op × W)} {t : Repeating Ans} {w : W}

/-- A turn that has come to its end gives way to the next one. -/
lemma next_of_ret {a : Unit} (hprog : t.current.prog = .ret a) :
    t.next p h w = (⟨t.journal ++ [t.current.log], .start p⟩, w) := by
  rw [next, hprog]

/-- A call that has no answer yet is waited for. -/
lemma next_of_wait {op : Op} {k : Ans op → Prog Ans Unit} (hprog : t.current.prog = .call op k)
    (hop : h op w = none) : t.next p h w = (t, w) := by
  rw [next, hprog]
  dsimp only
  rw [hop]

/-- A call that is answered takes the turn on. -/
lemma next_of_call {op : Op} {k : Ans op → Prog Ans Unit} {a : Ans op} {w' : W}
    (hprog : t.current.prog = .call op k) (hop : h op w = some (a, w')) :
    t.next p h w = (⟨t.journal, ⟨t.current.log ++ [⟨op, a⟩], k a⟩⟩, w') := by
  rw [next, hprog]
  dsimp only
  rw [hop]

variable (p h t w) in
/-- At most one call is made at a time. -/
lemma events_next :
    ((t.next p h w).1.events = t.events ∧ (t.next p h w).2 = w) ∨
      ∃ op a w', h op w = some (a, w') ∧ (t.next p h w).1.events = t.events ++ [⟨op, a⟩] ∧
        (t.next p h w).2 = w' := by
  cases hprog : t.current.prog with
  | ret a =>
    left
    rw [next_of_ret hprog]
    simp [events, Thread.start]
  | call op k =>
    cases hop : h op w with
    | none =>
      left
      rw [next_of_wait hprog hop]
      exact ⟨rfl, rfl⟩
    | some r =>
      obtain ⟨a, w'⟩ := r
      right
      refine ⟨op, a, w', hop, ?_⟩
      rw [next_of_call hprog hop]
      exact ⟨(List.append_assoc _ _ _).symm, rfl⟩

end Next

/-- The calls of each run satisfy `Q` where the run ends. -/
structure Keeps (Q : List (Sigma Ans) → Prop) (t : Repeating Ans) : Prop where
  journal : ∀ log ∈ t.journal, Q log
  current : t.current.prog.Obeys (fun _ _ => True) (fun _ => Q) t.current.log

section Keeps

variable {Q : List (Sigma Ans) → Prop} {p : Prog Ans Unit}

/-- The first turn keeps the condition if the program obeys it. -/
lemma keeps_start (hp : p.Obeys (fun _ _ => True) (fun _ => Q) []) : (start p).Keeps Q where
  journal _ h := absurd h List.not_mem_nil
  current := hp

/-- What holds of the calls of the program by itself holds of each of its runs. -/
theorem Keeps.next {t : Repeating Ans} (ht : t.Keeps Q)
    (hp : p.Obeys (fun _ _ => True) (fun _ => Q) []) (h : (op : Op) → W → Option (Ans op × W))
    (w : W) : (t.next p h w).1.Keeps Q := by
  have hcurrent := ht.current
  cases hprog : t.current.prog with
  | ret a =>
    rw [hprog] at hcurrent
    rw [next_of_ret hprog]
    refine ⟨fun log hlog => ?_, hp⟩
    rcases List.mem_append.mp hlog with hlog | hlog
    · exact ht.journal log hlog
    · rw [List.mem_singleton.mp hlog]
      exact hcurrent
  | call op k =>
    rw [hprog] at hcurrent
    cases hop : h op w with
    | none =>
      rw [next_of_wait hprog hop]
      exact ht
    | some r =>
      rw [next_of_call hprog hop]
      exact ⟨ht.journal, hcurrent.2 r.1⟩

/-- The run that is on can be completed. -/
lemma Keeps.exists_current {t : Repeating Ans} (ht : t.Keeps Q) (h : (op : Op) → Ans op) :
    ∃ rest, Q (t.current.log ++ rest) :=
  ⟨_, ht.current.run (fun op (_ : Unit) => (h op, ())) ()⟩

/-- Each call that was made is a call of a run, perhaps of one that goes on. -/
lemma Keeps.exists_of_mem_events {t : Repeating Ans} (ht : t.Keeps Q) (h : (op : Op) → Ans op)
    {e : Sigma Ans} (he : e ∈ t.events) :
    ∃ log rest, Q (log ++ rest) ∧ e ∈ log ∧ log ⊆ t.events := by
  rcases List.mem_append.mp he with he | he
  · obtain ⟨log, hlog, he⟩ := List.mem_flatten.mp he
    refine ⟨log, [], ?_, he, fun x hx => ?_⟩
    · rw [List.append_nil]
      exact ht.journal log hlog
    · exact List.mem_append_left _ (List.mem_flatten.mpr ⟨log, hlog, hx⟩)
  · obtain ⟨rest, hrest⟩ := ht.exists_current h
    exact ⟨t.current.log, rest, hrest, he, List.subset_append_right _ _⟩

end Keeps

end Repeating

/-! ## Taking from a queue -/

/-- What the calls were given is what has gone out of the queue. -/
def Consumed {β : Type} {capacity : ℕ} (given : Sigma Ans → Option β) (events : List (Sigma Ans))
    (q : Queue β capacity) : Prop :=
  events.filterMap given = q.out

section Consumed

variable {β : Type} {capacity : ℕ} {given : Sigma Ans → Option β} {events : List (Sigma Ans)}
  {q q' : Queue β capacity} {e : Sigma Ans} {x : β}

/-- An item comes in. -/
lemma Consumed.push (h : Consumed given events q) (x : β) : Consumed given events (q.push x) := by
  rw [Consumed, Queue.out_push]
  exact h

/-- A call is given nothing. -/
lemma Consumed.call_of_none (h : Consumed given events q) (he : given e = none) :
    Consumed given (events ++ [e]) q := by
  rw [Consumed, List.filterMap_append, List.filterMap_cons_none he, List.filterMap_nil,
    List.append_nil]
  exact h

/-- A call is given the next item. -/
lemma Consumed.call_of_pop (h : Consumed given events q) (he : given e = some x)
    (hq : q.pop? = some (x, q')) : Consumed given (events ++ [e]) q' := by
  have hevents : events.filterMap given = q.out := h
  rw [Consumed, List.filterMap_append, List.filterMap_cons_some he, List.filterMap_nil, hevents,
    (Queue.of_pop?_eq_some hq).1]

end Consumed

end Interaction
