import KiveOperator.Controller.Monitor

/-!
# The goroutine gets to every record

Left alone, the goroutine reads all records that wait in the ring buffer and reports each of them.
`drained` says so for any state in which a run may leave it: between two turns, waiting for a
record, or in the middle of a turn.
-/

namespace Kive

open Interaction Output

namespace Output

/-- The rest of a turn that has got a sample. -/
def afterRead (read : Except RingbufError (List UInt8)) : Prog OutputCall.Answer Unit :=
  (match readEbpfData (parseSample read) with
  | .error err => .ret (.error ("ReadAlert Error Reading Ebpf Data: " ++ err))
  | .ok data => alertFor data) >>= passOn

/-- A turn reads at once. -/
lemma turn_eq : turn = .call .ringbuffReader fun reader : Bool =>
    if reader then .call .read afterRead
    else passOn (.error "ReadAlert Error Ringbuffer not inizialized") := by
  refine congrArg (Prog.call OutputCall.ringbuffReader) (funext fun reader : Bool => ?_)
  cases reader with
  | false => rfl
  | true =>
    exact congrArg (Prog.call OutputCall.read) (funext fun read => rfl)

/-- It reads once. -/
lemma only_afterRead (read : Except RingbufError (List UInt8)) :
    (afterRead read).Only (· ≠ .read) := by
  rw [afterRead]
  refine Prog.Only.bind ?_ only_passOn
  cases readEbpfData (parseSample read) with
  | error err => trivial
  | ok data => exact only_alertFor data

/-- How far a turn has come. -/
inductive Phase (t : Thread OutputCall.Answer Unit) : Prop
  | fresh (h : t = .start turn)
  | waiting (h : t = ⟨[⟨.ringbuffReader, true⟩], .call .read afterRead⟩)
  | reporting (h : t.prog.Only (· ≠ .read))

end Output

namespace Monitor

variable {std : Std} {podFields : PodFields} {kernelOf : String → String} {node : String}
  {kernelIsOld : Bool}

/-- Every call brings a turn further. -/
lemma phase_next {t : Repeating OutputCall.Answer} (ht : Phase t.current) {kernelID : String}
    {s : System} {fault : Option Fault} (ring : Queue (List UInt8) ringRecords) :
    Phase (t.next turn (outputHandle std kernelID s fault) ring).1.current := by
  cases hprog : t.current.prog with
  | ret a =>
    rw [Repeating.next_of_ret hprog]
    exact .fresh rfl
  | call op k =>
    cases hop : outputHandle std kernelID s fault op ring with
    | none =>
      rw [Repeating.next_of_wait hprog hop]
      exact ht
    | some r =>
      rw [Repeating.next_of_call hprog hop]
      cases ht with
      | fresh h =>
        rw [h, Thread.start, turn_eq] at hprog
        obtain ⟨rfl, hk⟩ := Prog.call.inj hprog
        obtain rfl := eq_of_heq hk
        have hlog : t.current.log = [] := by rw [h]; rfl
        obtain ⟨reader, ring'⟩ := r
        rw [hlog]
        cases Bool.eq_false_or_eq_true reader with
        | inl htrue =>
          subst htrue
          exact .waiting rfl
        | inr hfalse =>
          subst hfalse
          refine .reporting ?_
          exact only_passOn (.error "ReadAlert Error Ringbuffer not inizialized")
      | waiting h =>
        rw [h] at hprog
        obtain ⟨rfl, hk⟩ := Prog.call.inj hprog
        obtain rfl := eq_of_heq hk
        exact .reporting (only_afterRead _)
      | reporting h =>
        rw [hprog] at h
        exact .reporting (h.2 _)

/-- What a turn meets that reads a sample now, without a fault. -/
def env (std : Std) (s : System) (sample : List UInt8) : Env where
  reader := true
  read := .ok sample
  list := .ok s.world.cluster.kiveData.items
  now := std.formatRFC3339 s.world.clock
  posted := .ok ()

variable (std podFields kernelOf node kernelIsOld) in
/-- The goroutine makes some calls, without a fault. -/
def output (n : ℕ) (s : Monitor) : Monitor :=
  run std podFields kernelOf node kernelIsOld (List.replicate n (.output 0 none)) s

/-- Some turns, and then some more. -/
lemma output_add (m n : ℕ) (s : Monitor) :
    output std podFields kernelOf node kernelIsOld (m + n) s =
      output std podFields kernelOf node kernelIsOld n
        (output std podFields kernelOf node kernelIsOld m s) := by
  rw [output, output, output, run, run, run, Runs.run, Runs.run, Runs.run, List.replicate_add,
    List.foldl_append]

variable (std podFields kernelOf node kernelIsOld) in
/-- One call of the goroutine. -/
lemma act_output {s : Monitor} {t : Repeating OutputCall.Answer} (h : s.outputs = [t]) :
    act std podFields kernelOf node kernelIsOld s (.output 0 none) =
      let r := t.next turn (outputHandle std (kernelOf node) s.system none) s.ring
      { s with outputs := [r.1], ring := r.2 } := by
  rw [act, h]
  rfl

/-- A call other than a read does not wait. -/
lemma outputHandle_of_ne_read {s : Monitor} (sample : List UInt8)
    (hloaded : (s.system.world.kernels (kernelOf node)).loaded = true) {op : OutputCall}
    (hop : op ≠ .read) (ring : Queue (List UInt8) ringRecords) :
    outputHandle std (kernelOf node) s.system none op ring =
      some ((env std s.system sample).answer op, ring) := by
  cases op with
  | read => exact absurd rfl hop
  | ringbuffReader =>
    change some ((s.system.world.kernels (kernelOf node)).loaded, ring) = _
    rw [hloaded]
    rfl
  | _ => rfl

variable (std podFields node kernelIsOld) in
/-- A turn that has got its sample comes to its end. -/
lemma exists_finish {s : Monitor} (sample : List UInt8)
    (hloaded : (s.system.world.kernels (kernelOf node)).loaded = true)
    {journal : List (List (Sigma OutputCall.Answer))} {log : List (Sigma OutputCall.Answer)}
    {p : Prog OutputCall.Answer Unit} (hp : p.Only (· ≠ .read))
    (houtputs : s.outputs = [⟨journal, ⟨log, p⟩⟩]) :
    ∃ n, output std podFields kernelOf node kernelIsOld n s =
      { s with outputs := [⟨journal ++ [log ++ p.events (env std s.system sample).handle ()],
        .start turn⟩] } := by
  induction p generalizing s log with
  | ret a =>
    refine ⟨1, ?_⟩
    have hstep := act_output std podFields kernelOf node kernelIsOld houtputs
    refine hstep.trans ?_
    rw [Repeating.next_of_ret rfl, Prog.events_ret, List.append_nil]
  | call op k ih =>
    have hstep := act_output std podFields kernelOf node kernelIsOld houtputs
    rw [Repeating.next_of_call rfl (outputHandle_of_ne_read sample hloaded hp.1 s.ring)] at hstep
    obtain ⟨n, hn⟩ := ih ((env std s.system sample).answer op)
      (s := act std podFields kernelOf node kernelIsOld s (.output 0 none))
      (by rw [hstep]; exact hloaded) (hp.2 _) (by rw [hstep])
    refine ⟨n + 1, ?_⟩
    change output std podFields kernelOf node kernelIsOld n
      (act std podFields kernelOf node kernelIsOld s (.output 0 none)) = _
    rw [hn, hstep]
    simp [env, Env.handle, List.append_assoc]

variable (std podFields kernelIsOld) in
/-- A turn that waits for a sample, or has yet to ask for one, gets it. -/
lemma exists_turn {s : Monitor} (hloaded : (s.system.world.kernels (kernelOf node)).loaded = true)
    {t : Repeating OutputCall.Answer} (houtputs : s.outputs = [t])
    (hphase : ¬ t.current.prog.Only (· ≠ .read)) (ht : Phase t.current) {sample : List UInt8}
    {ring' : Queue (List UInt8) ringRecords} (hpop : s.ring.pop? = some (sample, ring')) :
    ∃ n, output std podFields kernelOf node kernelIsOld n s =
      { s with
        ring := ring'
        outputs := [⟨t.journal ++ [(env std s.system sample).events], .start turn⟩] } := by
  -- from where it waits
  have hwaiting : ∀ s : Monitor, (s.system.world.kernels (kernelOf node)).loaded = true →
      s.ring.pop? = some (sample, ring') → ∀ journal,
      s.outputs = [⟨journal, ⟨[⟨.ringbuffReader, true⟩], .call .read afterRead⟩⟩] →
      ∃ n, output std podFields kernelOf node kernelIsOld n s =
        { s with
          ring := ring'
          outputs := [⟨journal ++ [(env std s.system sample).events], .start turn⟩] } := by
    intro s hloaded hpop journal houtputs
    have hstep := act_output std podFields kernelOf node kernelIsOld houtputs
    have hread : outputHandle std (kernelOf node) s.system none .read s.ring =
        some (.ok sample, ring') := by
      change s.ring.pop?.map (fun r => ((.ok r.1 : OutputCall.read.Answer), r.2)) = _
      rw [hpop]
      rfl
    rw [Repeating.next_of_call rfl hread] at hstep
    obtain ⟨n, hn⟩ := exists_finish std podFields node kernelIsOld
      (s := act std podFields kernelOf node kernelIsOld s (.output 0 none)) sample
      (by rw [hstep]; exact hloaded) (only_afterRead _) (by rw [hstep])
    refine ⟨1 + n, ?_⟩
    rw [output_add]
    change output std podFields kernelOf node kernelIsOld n
      (act std podFields kernelOf node kernelIsOld s (.output 0 none)) = _
    rw [hn, hstep]
    simp [env, Env.events, turn_eq, Env.handle, Env.answer]
  cases ht with
  | fresh h =>
    have ht : t = ⟨t.journal, .start turn⟩ := by rw [← h]
    rw [ht] at houtputs
    have hstep := act_output std podFields kernelOf node kernelIsOld houtputs
    have hfirst : (⟨t.journal, .start turn⟩ : Repeating OutputCall.Answer).next turn
        (outputHandle std (kernelOf node) s.system none) s.ring =
          (⟨t.journal, ⟨[⟨.ringbuffReader, true⟩], .call .read afterRead⟩⟩, s.ring) := by
      refine (Repeating.next_of_call turn_eq
        (outputHandle_of_ne_read sample hloaded (by simp) s.ring)).trans ?_
      rfl
    rw [hfirst] at hstep
    obtain ⟨n, hn⟩ := hwaiting (act std podFields kernelOf node kernelIsOld s (.output 0 none))
      (by rw [hstep]; exact hloaded) (by rw [hstep]; exact hpop) t.journal (by rw [hstep])
    refine ⟨1 + n, ?_⟩
    rw [output_add]
    change output std podFields kernelOf node kernelIsOld n
      (act std podFields kernelOf node kernelIsOld s (.output 0 none)) = _
    rw [hn, hstep]
  | waiting h =>
    have ht : t = ⟨t.journal, ⟨[⟨.ringbuffReader, true⟩], .call .read afterRead⟩⟩ := by rw [← h]
    rw [ht] at houtputs
    exact hwaiting s hloaded hpop t.journal houtputs
  | reporting h => exact absurd h hphase

/-- A turn that reads nothing any more is not one that waits. -/
lemma not_only_start :
    ¬ (Thread.start turn : Thread OutputCall.Answer Unit).prog.Only (· ≠ .read) := by
  intro h
  rw [Thread.start, turn_eq] at h
  exact (h.2 true).1 rfl

variable (std podFields kernelIsOld) in
/-- All that waits is read, turn by turn, where the goroutine is not in the middle of a turn. -/
lemma drain {s : Monitor} (hloaded : (s.system.world.kernels (kernelOf node)).loaded = true)
    {t : Repeating OutputCall.Answer} (houtputs : s.outputs = [t])
    (hphase : ¬ t.current.prog.Only (· ≠ .read)) (ht : Phase t.current)
    {samples : List (List UInt8)} (hsamples : s.ring.items.drop s.ring.taken = samples) :
    ∃ n c, let s' := output std podFields kernelOf node kernelIsOld n s
      s'.system = s.system ∧ s'.ring.items = s.ring.items ∧ s'.ring.out = s.ring.items ∧
      s'.outputs =
        [⟨t.journal ++ samples.map fun sample => (env std s.system sample).events, c⟩] := by
  induction samples generalizing s t with
  | nil =>
    refine ⟨0, t.current, rfl, rfl, ?_, ?_⟩
    · exact Queue.out_of_drop_eq_nil hsamples
    · rw [List.map_nil, List.append_nil]
      exact houtputs
  | cons sample samples ih =>
    obtain ⟨ring', hpop, hitems, hrest⟩ := Queue.exists_pop?_of_drop hsamples
    obtain ⟨n, hn⟩ := exists_turn std podFields kernelIsOld hloaded houtputs hphase ht hpop
    obtain ⟨m, c, hsystem, hitems', hout, houtputs'⟩ :=
      ih (s := output std podFields kernelOf node kernelIsOld n s) (by rw [hn]; exact hloaded)
        (by rw [hn]) not_only_start (.fresh rfl) (by rw [hn]; exact hrest)
    rw [← output_add, hn] at hsystem hitems' hout houtputs'
    refine ⟨n + m, c, hsystem, hitems'.trans hitems, hout.trans hitems, ?_⟩
    rw [houtputs', List.append_assoc]
    rfl

variable (std podFields kernelOf node kernelIsOld) in
/-- A turn has come as far as a turn comes. -/
lemma phase_run (events : List Event) (w : World) :
    ∀ t ∈ (run std podFields kernelOf node kernelIsOld events (ofWorld w)).outputs,
      Phase t.current := by
  refine Runs.invariant_run (C := fun _ _ => True)
    (I := fun s : Monitor => ∀ t ∈ s.outputs, Phase t.current) (fun s e h _ => ?_)
    (Runs.along_of_forall (fun _ _ _ => trivial) _) fun t ht => by cases ht
  cases e with
  | act a =>
    rw [act]
    dsimp only
    split_ifs
    · intro t ht
      rcases List.mem_append.mp ht with ht | ht
      · exact h t ht
      · rw [List.mem_singleton.mp ht]
        exact .fresh rfl
    · exact h
  | access a =>
    cases hsample : a.sample kernelIsOld (s.tracedInodes kernelOf node) with
    | none =>
      rw [act_access_of_none hsample]
      exact h
    | some sample =>
      rw [act_access_of_some hsample]
      exact h
  | output i fault =>
    rw [act]
    cases hi : s.outputs[i]? with
    | none => exact h
    | some t =>
      intro t' ht'
      rcases List.mem_or_eq_of_mem_set ht' with ht' | rfl
      · exact h t' ht'
      · exact phase_next (h t (List.mem_of_getElem? hi)) s.ring

variable (std podFields kernelIsOld) in
/-- All that waits is read, after the end of the turn if the goroutine is in the middle of one. -/
lemma drain_phase {s : Monitor} (hloaded : (s.system.world.kernels (kernelOf node)).loaded = true)
    {t : Repeating OutputCall.Answer} (houtputs : s.outputs = [t]) (ht : Phase t.current) :
    ∃ (turns : List (List (Sigma OutputCall.Answer))) (n : ℕ) (c : Thread OutputCall.Answer Unit),
      turns.length ≤ 1 ∧
        let s' := output std podFields kernelOf node kernelIsOld n s
        s'.system = s.system ∧ s'.ring.items = s.ring.items ∧ s'.ring.out = s.ring.items ∧
        s'.outputs = [⟨t.journal ++ turns ++ (s.ring.items.drop s.ring.taken).map
          fun sample => (env std s.system sample).events, c⟩] := by
  by_cases honly : t.current.prog.Only (· ≠ .read)
  · -- the turn is ended first
    obtain ⟨m, hm⟩ := exists_finish std podFields node kernelIsOld [] hloaded honly houtputs
    obtain ⟨n, c, hsystem, hitems, hout, houtputs'⟩ :=
      drain std podFields kernelIsOld
        (s := output std podFields kernelOf node kernelIsOld m s) (by rw [hm]; exact hloaded)
        (by rw [hm]) not_only_start (.fresh rfl) rfl
    rw [← output_add] at hsystem hitems hout houtputs'
    rw [hm] at hsystem hitems hout houtputs'
    exact ⟨[t.current.log ++ t.current.prog.events (env std s.system []).handle ()], m + n, c,
      Nat.le_refl 1, hsystem, hitems, hout, houtputs'⟩
  · obtain ⟨n, c, hsystem, hitems, hout, houtputs'⟩ :=
      drain std podFields kernelIsOld hloaded houtputs honly ht rfl
    refine ⟨[], n, c, Nat.zero_le 1, hsystem, hitems, hout, ?_⟩
    rw [List.append_nil]
    exact houtputs'

variable (std podFields kernelOf node kernelIsOld) in
/-- In a run there is no goroutine, or one that has come as far as a turn comes, with the program
loaded. -/
lemma outputs_run (events : List Event) (w : World) :
    let s := run std podFields kernelOf node kernelIsOld events (ofWorld w)
    s.outputs = [] ∨ ∃ t, s.outputs = [t] ∧ Phase t.current ∧
      (s.system.world.kernels (kernelOf node)).loaded = true := by
  have h := sound_run std podFields kernelOf node kernelIsOld events w
  have hphase := phase_run std podFields kernelOf node kernelIsOld events w
  set s := run std podFields kernelOf node kernelIsOld events (ofWorld w)
  rcases houtputs : s.outputs with _ | ⟨t, outputs⟩
  · exact Or.inl houtputs
  · have hone := h.one
    rw [houtputs, List.length_cons] at hone
    obtain rfl : outputs = [] := List.length_eq_zero_iff.mp (by omega)
    exact Or.inr ⟨t, houtputs, hphase t (houtputs ▸ List.mem_cons_self),
      h.loaded (by rw [houtputs]; exact List.cons_ne_nil _ _)⟩

variable (std podFields kernelOf node kernelIsOld) in
/-- Whatever has happened, a goroutine that is left alone gets to every record that waits: it ends
its turn if it is in the middle of one, and each further turn reports one of the records with what
is stored now. -/
theorem drained (events : List Event) (w : World) :
    let s := run std podFields kernelOf node kernelIsOld events (ofWorld w)
    s.outputs = [] ∨ ∃ (t : Repeating OutputCall.Answer)
      (turns : List (List (Sigma OutputCall.Answer))) (n : ℕ)
      (c : Thread OutputCall.Answer Unit), s.outputs = [t] ∧ turns.length ≤ 1 ∧
        let s' := output std podFields kernelOf node kernelIsOld n s
        s'.system = s.system ∧ s'.ring.items = s.ring.items ∧ s'.ring.out = s.ring.items ∧
        s'.outputs = [⟨t.journal ++ turns ++ (s.ring.items.drop s.ring.taken).map
          fun sample => (env std s.system sample).events, c⟩] := by
  intro s
  rcases outputs_run std podFields kernelOf node kernelIsOld events w with
    hnil | ⟨t, houtputs, hphase, hloaded⟩
  · exact Or.inl hnil
  · obtain ⟨turns, n, c, hend⟩ := drain_phase std podFields kernelIsOld hloaded houtputs hphase
    exact Or.inr ⟨t, turns, n, c, houtputs, hend⟩

end Monitor

end Kive
