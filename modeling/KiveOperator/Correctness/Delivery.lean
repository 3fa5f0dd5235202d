import KiveOperator.Controller.Monitor
import KiveOperator.Correctness.RecordFormat

/-!
# From the access to the alert

A watched node over a whole run.  `ring_reports_iff` says which accesses are reported to the ring
buffer and when none is missing, `delivered_run` what becomes of the reports, and `alerts_run` that
every alert is about an access that was made.
-/

namespace Kive

open Interaction Output

/-! ## Accesses and their records -/

/-- The inode that the probe is called with, if any. -/
def Access.inode (kernelIsOld : Bool) (a : Access) : Option Inode :=
  let pointer := if kernelIsOld then a.ctx.parm1 else a.ctx.parm2
  if pointer = 0 then none else some (a.memory pointer)

/-- The permissions that are asked for: the parameter of `inode_permission` after the inode. -/
def Access.mask (kernelIsOld : Bool) (a : Access) : UInt64 :=
  if kernelIsOld then a.ctx.parm2 else a.ctx.parm3

/-- The inode of an access to a file whose key is in the map. -/
def Access.traced (kernelIsOld : Bool) (tracedInodes : TracedInodes) (a : Access) : Option Inode :=
  (a.inode kernelIsOld).filter fun i => (⟨i.ino, i.dev⟩ : BpfMapKey) ∈ tracedInodes

/-- The sample is a record of the access to the inode by the task, as the operator reads it. -/
def ReportsAccess (kernelIsOld : Bool) (sample : List UInt8) : Access × Inode → Prop
  | (a, i) => ∃ data, parseSample (.ok sample) = .ok data ∧ data.ino = i.ino ∧ data.dev = i.dev ∧
      pack data.tgid data.pid.toUInt32 = a.task.pidTgid ∧ pack data.gid data.uid = a.task.uidGid ∧
      data.mask.toUInt32 = (a.mask kernelIsOld).toUInt32 ∧ data.comm = a.task.comm

section Access

variable {kernelIsOld : Bool} {tracedInodes : TracedInodes}

/-- A word is made of its halves. -/
lemma pack_toUInt32 (x : UInt64) : pack (x >>> (32 : UInt64)).toUInt32 x.toUInt32 = x := by
  have hx := x.toNat_lt
  rw [← UInt64.toNat_inj, toNat_pack, UInt64.toNat_toUInt32, UInt64.toNat_toUInt32,
    UInt64.toNat_shiftRight, Nat.shiftRight_eq_div_pow]
  change 2 ^ 32 * (x.toNat / 2 ^ 32 % 2 ^ 32) + x.toNat % 2 ^ 32 = _
  omega

/-- The probe makes a record of each access to a traced file, and of no other. -/
lemma Access.record_eq (a : Access) : a.record kernelIsOld tracedInodes =
    (a.traced kernelIsOld tracedInodes).map fun i =>
      kprobeOutput a.task i.ino i.dev (a.mask kernelIsOld).toUInt32.toInt32 := by
  have hprobe : ∀ pointer mask, inodePermission tracedInodes a.memory a.task pointer mask =
      ((if pointer = 0 then none else some (a.memory pointer)).filter fun i =>
        (⟨i.ino, i.dev⟩ : BpfMapKey) ∈ tracedInodes).map fun i =>
          kprobeOutput a.task i.ino i.dev mask.toUInt32.toInt32 := by
    intro pointer mask
    unfold inodePermission
    by_cases hnull : pointer = 0
    · rw [if_pos hnull, if_pos hnull]
      rfl
    · rw [if_neg hnull, if_neg hnull, Option.filter_some]
      split_ifs with hkey hkey' hkey'
      · rfl
      · exact absurd (decide_eq_true hkey) hkey'
      · exact absurd (of_decide_eq_true hkey') hkey
      · rfl
  rw [Access.record, Access.traced, Access.inode, Access.mask]
  cases kernelIsOld with
  | true => exact hprobe a.ctx.parm1 a.ctx.parm2
  | false => exact hprobe a.ctx.parm2 a.ctx.parm3

/-- What is sent for an access reports it. -/
lemma Access.reports_of_sample {a : Access} {sample : List UInt8}
    (h : a.sample kernelIsOld tracedInodes = some sample) :
    ∃ i, a.traced kernelIsOld tracedInodes = some i ∧ ReportsAccess kernelIsOld sample (a, i) := by
  obtain ⟨data, hrecord, rfl⟩ := Option.map_eq_some_iff.mp h
  have hparse := parseSample_logDataBytes a.pad (Access.comm_length_of_record hrecord)
  rw [Access.record_eq] at hrecord
  obtain ⟨i, htraced, rfl⟩ := Option.map_eq_some_iff.mp hrecord
  refine ⟨i, htraced, _, hparse, rfl, rfl, ?_, pack_toUInt32 _, ?_, rfl⟩
  · rw [kprobeOutput, UInt32.toUInt32_toInt32, pack_toUInt32]
  · rw [kprobeOutput, UInt32.toUInt32_toInt32]

end Access

namespace Monitor

variable (std : Std) (podFields : PodFields) (kernelOf : String → String) (node : String)
  (kernelIsOld : Bool)

/-! ## The records of a run -/

/-- The sample that the probe sends at an event. -/
def sends (s : Monitor) : Event → Option (List UInt8)
  | .access a => a.sample kernelIsOld (s.tracedInodes kernelOf node)
  | _ => none

/-- The samples that the probe sends in a run. -/
def recorded : List Event → Monitor → List (List UInt8)
  | [], _ => []
  | e :: events, s =>
    (sends kernelOf node kernelIsOld s e).toList ++
      recorded events (act std podFields kernelOf node kernelIsOld s e)

/-- An event that is an access to a traced file: the access and the file. -/
def traced (s : Monitor) : Event → Option (Access × Inode)
  | .access a => (a.traced kernelIsOld (s.tracedInodes kernelOf node)).map (a, ·)
  | _ => none

/-- The accesses of a run to files that are traced at the time. -/
def tracedAccesses : List Event → Monitor → List (Access × Inode)
  | [], _ => []
  | e :: events, s =>
    (traced kernelOf node kernelIsOld s e).toList ++
      tracedAccesses events (act std podFields kernelOf node kernelIsOld s e)

/-- An access to a traced file finds room in the ring buffer. -/
def Fits (s : Monitor) (e : Event) : Prop :=
  traced kernelOf node kernelIsOld s e ≠ none → s.ring.Room

section Recorded

variable {std podFields kernelOf node kernelIsOld} {s : Monitor}

/-- The probe sends nothing but for an access to a traced file. -/
lemma traced_of_none {e : Event} (h : sends kernelOf node kernelIsOld s e = none) :
    traced kernelOf node kernelIsOld s e = none := by
  cases e with
  | access a =>
    have hrecord : a.record kernelIsOld (s.tracedInodes kernelOf node) = none :=
      Option.map_eq_none_iff.mp h
    rw [Access.record_eq] at hrecord
    rw [traced, Option.map_eq_none_iff.mp hrecord, Option.map_none]
  | _ => rfl

/-- For an access to a traced file it sends a report. -/
lemma traced_of_some {e : Event} {sample : List UInt8}
    (h : sends kernelOf node kernelIsOld s e = some sample) :
    ∃ x, traced kernelOf node kernelIsOld s e = some x ∧ ReportsAccess kernelIsOld sample x := by
  cases e with
  | access a =>
    obtain ⟨i, htraced, hreports⟩ := Access.reports_of_sample h
    exact ⟨(a, i), by rw [traced, htraced, Option.map_some], hreports⟩
  | _ => cases h

variable (std podFields) in
/-- What the probe sends in a run are reports of the accesses to traced files. -/
lemma reports_recorded (events : List Event) (s : Monitor) :
    List.Forall₂ (ReportsAccess kernelIsOld)
      (recorded std podFields kernelOf node kernelIsOld events s)
      (tracedAccesses std podFields kernelOf node kernelIsOld events s) := by
  induction events generalizing s with
  | nil => exact List.Forall₂.nil
  | cons e events ih =>
    have hrest := ih (act std podFields kernelOf node kernelIsOld s e)
    rw [recorded, tracedAccesses]
    cases hsends : sends kernelOf node kernelIsOld s e with
    | none =>
      rw [traced_of_none hsends]
      exact hrest
    | some sample =>
      obtain ⟨x, htraced, hreports⟩ := traced_of_some hsends
      rw [htraced]
      exact List.Forall₂.cons hreports hrest

/-- An event that sends nothing puts nothing into the ring buffer. -/
lemma ring_items_act_of_none {e : Event} (h : sends kernelOf node kernelIsOld s e = none) :
    (act std podFields kernelOf node kernelIsOld s e).ring.items = s.ring.items := by
  cases e with
  | act a => rfl
  | access a =>
    rw [act_access_of_none h]
  | output i fault =>
    rw [act]
    cases s.outputs[i]? with
    | none => rfl
    | some t =>
      rcases t.events_next turn (outputHandle std (kernelOf node) s.system fault) s.ring with
        ⟨-, hring⟩ | ⟨op, a, ring', hop, -, hring⟩
      · exact congrArg Queue.items hring
      · refine (congrArg Queue.items hring).trans ?_
        rcases given_outputHandle hop with ⟨-, rfl⟩ | ⟨sample, -, hpop⟩
        · rfl
        · exact (Queue.of_pop?_eq_some hpop).2

variable (std podFields) in
/-- What is sent is put into the ring buffer. -/
lemma ring_act_of_some {e : Event} {sample : List UInt8}
    (h : sends kernelOf node kernelIsOld s e = some sample) :
    (act std podFields kernelOf node kernelIsOld s e).ring = s.ring.push sample := by
  cases e with
  | access a =>
    rw [act_access_of_some h]
  | _ => cases h

variable (std podFields kernelOf node kernelIsOld) in
/-- The ring buffer gets some of the samples in their order, and all of them exactly if each finds
room. -/
lemma ring_items_run (events : List Event) (s : Monitor) :
    ∃ l, (run std podFields kernelOf node kernelIsOld events s).ring.items = s.ring.items ++ l ∧
      l.Sublist (recorded std podFields kernelOf node kernelIsOld events s) ∧
      (l = recorded std podFields kernelOf node kernelIsOld events s ↔
        Runs.Along (act std podFields kernelOf node kernelIsOld) (Fits kernelOf node kernelIsOld)
          events s) := by
  induction events generalizing s with
  | nil =>
    refine ⟨[], (List.append_nil _).symm, List.Sublist.refl _, ?_⟩
    exact Iff.intro (fun _ => trivial) fun _ => rfl
  | cons e events ih =>
    obtain ⟨l, hitems, hsub, hiff⟩ := ih (act std podFields kernelOf node kernelIsOld s e)
    cases hsends : sends kernelOf node kernelIsOld s e with
    | none =>
      have hfits : Fits kernelOf node kernelIsOld s e := fun h => absurd (traced_of_none hsends) h
      refine ⟨l, hitems.trans ?_, ?_, ?_⟩
      · rw [ring_items_act_of_none hsends]
      · rw [recorded, hsends]
        exact hsub
      · rw [recorded, hsends, Option.toList_none, List.nil_append, hiff]
        exact (and_iff_right hfits).symm
    | some sample =>
      have hring := ring_act_of_some std podFields hsends
      by_cases hroom : s.ring.Room
      · have hfits : Fits kernelOf node kernelIsOld s e := fun _ => hroom
        refine ⟨sample :: l, ?_, ?_, ?_⟩
        · refine hitems.trans ?_
          rw [hring, Queue.items_push_of_room hroom, List.append_assoc]
          rfl
        · rw [recorded, hsends]
          exact hsub.cons_cons sample
        · rw [recorded, hsends]
          refine Iff.trans ?_ (and_iff_right hfits).symm
          rw [← hiff]
          exact ⟨fun h => (List.cons.inj h).2, fun h => congrArg (sample :: ·) h⟩
      · refine ⟨l, ?_, ?_, ?_⟩
        · refine hitems.trans ?_
          rw [hring, Queue.push_of_not_room hroom]
        · rw [recorded, hsends]
          exact hsub.cons sample
        · rw [recorded, hsends]
          constructor
          · intro h
            -- there are fewer
            have hlength := congrArg List.length h
            have hle := hsub.length_le
            simp only [Option.toList_some, List.length_append, List.length_singleton] at hlength
            omega
          · rintro ⟨hfits, -⟩
            obtain ⟨x, htraced, -⟩ := traced_of_some hsends
            exact absurd (hfits (by rw [htraced]; exact Option.some_ne_none x)) hroom

/-- A sample that is sent is sent at some event. -/
lemma exists_of_mem_recorded {events : List Event} {s : Monitor} {sample : List UInt8}
    (h : sample ∈ recorded std podFields kernelOf node kernelIsOld events s) :
    ∃ front e rest, events = front ++ e :: rest ∧
      sends kernelOf node kernelIsOld (run std podFields kernelOf node kernelIsOld front s) e =
        some sample := by
  induction events generalizing s with
  | nil => cases h
  | cons e events ih =>
    rw [recorded] at h
    rcases List.mem_append.mp h with h | h
    · exact ⟨[], e, events, rfl, Option.mem_toList.mp h⟩
    · obtain ⟨front, e', rest, rfl, hsends⟩ := ih h
      exact ⟨e :: front, e', rest, rfl, hsends⟩

end Recorded

/-- From the start on the ring buffer gets a report of accesses to traced files and of nothing else,
in their order; it gets one of every such access exactly if each finds room. -/
theorem ring_reports_iff (events : List Event) (w : World) :
    let s := run std podFields kernelOf node kernelIsOld events (ofWorld w)
    let accesses := tracedAccesses std podFields kernelOf node kernelIsOld events (ofWorld w)
    List.SublistForall₂ (ReportsAccess kernelIsOld) s.ring.items accesses ∧
      (List.Forall₂ (ReportsAccess kernelIsOld) s.ring.items accesses ↔
        Runs.Along (act std podFields kernelOf node kernelIsOld) (Fits kernelOf node kernelIsOld)
          events (ofWorld w)) := by
  intro s accesses
  have hreports : List.Forall₂ (ReportsAccess kernelIsOld) _ accesses :=
    reports_recorded std podFields events (ofWorld w)
  obtain ⟨l, hitems, hsub, hiff⟩ :=
    ring_items_run std podFields kernelOf node kernelIsOld events (ofWorld w)
  have hl : s.ring.items = l := hitems
  rw [hl, ← hiff]
  refine ⟨?_, fun h => ?_, ?_⟩
  · exact sublistForall₂_of_sublist hsub hreports
  · exact hsub.eq_of_length (h.length_eq.trans hreports.length_eq.symm)
  · rintro rfl
    exact hreports

/-! ## What becomes of the records -/

variable {std podFields kernelOf node kernelIsOld}

/-- What each turn met. -/
lemma exists_envs {journal : List (List (Sigma OutputCall.Answer))}
    (h : ∀ log ∈ journal, ∃ env : Env, log = env.events) :
    ∃ envs : List Env, journal = envs.map Env.events := by
  induction journal with
  | nil => exact ⟨[], rfl⟩
  | cons log journal ih =>
    obtain ⟨env, rfl⟩ := h log List.mem_cons_self
    obtain ⟨envs, rfl⟩ := ih fun log hlog => h log (List.mem_cons_of_mem _ hlog)
    exact ⟨env :: envs, rfl⟩

/-- The reports of the turns, one after the other. -/
lemma reported_flatten (envs : List Env) :
    reported (envs.map Env.events).flatten =
      envs.flatMap fun env => reportsOf env.posted env.result := by
  induction envs with
  | nil => rfl
  | cons env envs ih =>
    rw [List.map_cons, List.flatten_cons, reported_append, reported_events, ih, List.flatMap_cons]

/-- The samples that the turns have taken. -/
lemma given_flatten (envs : List Env) :
    (envs.map Env.events).flatten.filterMap given = envs.filterMap Env.sample := by
  induction envs with
  | nil => rfl
  | cons env envs ih =>
    rw [List.map_cons, List.flatten_cons, List.filterMap_append, given_events, ih,
      List.filterMap_cons]
    cases env.sample <;> rfl

/-- At any time there is no goroutine, which has read nothing, or there is one, whose turns have
read the first records of the ring buffer, in their order; each turn that has ended has reported
what `readAlert` makes of what it met. -/
theorem delivered_run (events : List Event) (w : World) :
    let s := run std podFields kernelOf node kernelIsOld events (ofWorld w)
    (s.outputs = [] ∧ s.ring.taken = 0) ∨
      ∃ (t : Repeating OutputCall.Answer) (envs : List Env), s.outputs = [t] ∧
        t.journal = envs.map Env.events ∧
        envs.filterMap Env.sample ++ t.current.log.filterMap given =
          s.ring.items.take s.ring.taken ∧
        reported t.journal.flatten = envs.flatMap fun env => reportsOf env.posted env.result := by
  have h := sound_run std podFields kernelOf node kernelIsOld events w
  set s := run std podFields kernelOf node kernelIsOld events (ofWorld w)
  have hconsumed := h.consumed
  rcases houtputs : s.outputs with _ | ⟨t, outputs⟩
  · left
    rw [houtputs] at hconsumed
    have hout : s.ring.out = [] := hconsumed.symm
    have hlength := congrArg List.length hout
    rw [Queue.out, List.length_take, Nat.min_eq_left s.ring.taken_le] at hlength
    exact ⟨houtputs, hlength⟩
  · right
    have hone := h.one
    rw [houtputs, List.length_cons] at hone
    obtain rfl : outputs = [] := List.length_eq_zero_iff.mp (by omega)
    rw [houtputs, List.flatMap_singleton] at hconsumed
    obtain ⟨envs, henvs⟩ := exists_envs (h.keeps t (houtputs ▸ List.mem_cons_self)).journal
    refine ⟨t, envs, houtputs, henvs, ?_, ?_⟩
    · have htaken : t.events.filterMap given = s.ring.out := hconsumed
      rw [← given_flatten, ← henvs, ← List.filterMap_append]
      exact htaken
    · rw [henvs, reported_flatten]

/-! ## What an alert says -/

/-- A sample that parses is one that was read. -/
lemma exists_sample_of_parse {read : Except RingbufError (List UInt8)} {data : LogData}
    (h : parseSample read = .ok data) : ∃ sample, read = .ok sample := by
  rcases read with err | sample
  · have hshort : parseSample (.ok []) = .error .other :=
      parseSample_of_lt (by rw [List.length_nil, bpfLogDataSize]; omega)
    cases err
    · cases h
    · exact absurd (hshort.symm.trans h) (by simp)
  · exact ⟨sample, rfl⟩

variable (std podFields kernelOf node kernelIsOld) in
/-- An alert that is passed on is made of a sample that was read and of a KiveData that was
stored. -/
lemma exists_alert (events : List Event) (w : World) :
    let s := run std podFields kernelOf node kernelIsOld events (ofWorld w)
    ∀ t ∈ s.outputs, ∀ op a, (⟨op, a⟩ : Sigma OutputCall.Answer) ∈ t.events → op.isAlert = true →
      ∃ sample data items d now, sample ∈ s.ring.out ∧ parseSample (.ok sample) = .ok data ∧
        items ∈ s.system.kiveDataPast ∧ findKiveData data items = some d ∧
        op = deliver (newKiveAlert now data d) := by
  have h := sound_run std podFields kernelOf node kernelIsOld events w
  set s := run std podFields kernelOf node kernelIsOld events (ofWorld w)
  intro s' t ht op a hop halert
  obtain ⟨log, rest, ⟨env, hlog⟩, hmem, hsub⟩ :=
    (h.keeps t ht).exists_of_mem_events
      (Env.answer ⟨true, .error .other, .error "", "", .ok ()⟩) hop
  obtain ⟨alert, hresult, hdeliver, hread, hlist⟩ := Env.of_isAlert hlog hmem halert
  obtain ⟨-, data, items, d, hparse, hitems, hfind, rfl⟩ := Env.of_result hresult
  obtain ⟨sample, hsample⟩ := exists_sample_of_parse hparse
  rw [hsample] at hread hparse
  rw [hitems] at hlist
  have hout : sample ∈ s.ring.out := by
    rw [← h.consumed]
    exact List.mem_filterMap.mpr ⟨_, List.mem_flatMap.mpr ⟨t, ht, hsub hread⟩, rfl⟩
  exact ⟨sample, data, items, d, env.now, hout, hparse, h.listed t ht items (hsub hlist), hfind,
    hdeliver⟩

/-- Every alert that is passed on, in whatever run, is about an access that was made to a file whose
key was in the map, and for the rest about a KiveData with its inode number that was stored. -/
theorem alerts_run (events : List Event) (w : World) :
    let s := run std podFields kernelOf node kernelIsOld events (ofWorld w)
    ∀ t ∈ s.outputs, ∀ op a, (⟨op, a⟩ : Sigma OutputCall.Answer) ∈ t.events → op.isAlert = true →
      (∃ front access rest data, events = front ++ .access access :: rest ∧
        access.record kernelIsOld ((run std podFields kernelOf node kernelIsOld front
          (ofWorld w)).tracedInodes kernelOf node) = some data ∧
        ∃ items d now, items ∈ s.system.kiveDataPast ∧ findKiveData data items = some d ∧
          op = deliver (newKiveAlert now data d)) := by
  intro s t ht op a hop halert
  obtain ⟨sample, data, items, d, now, hout, hparse, hitems, hfind, rfl⟩ :=
    exists_alert std podFields kernelOf node kernelIsOld events w t ht op a hop halert
  obtain ⟨l, hring, hsub, -⟩ :=
    ring_items_run std podFields kernelOf node kernelIsOld events (ofWorld w)
  -- the sample was sent at an access
  have hin : sample ∈ l := by
    have hin := Queue.mem_items_of_mem_out hout
    rw [hring] at hin
    exact hin
  obtain ⟨front, e, rest, hevents, hsends⟩ := exists_of_mem_recorded (hsub.subset hin)
  cases e with
  | access access =>
    obtain ⟨data', hrecord, hbytes⟩ := Option.map_eq_some_iff.mp hsends
    have hparse' := parseSample_logDataBytes access.pad (Access.comm_length_of_record hrecord)
    rw [hbytes, hparse] at hparse'
    obtain rfl := Except.ok.inj hparse'
    exact ⟨front, access, rest, data, hevents, hrecord, items, d, now, hitems, hfind, rfl⟩
  | _ => cases hsends

end Monitor

end Kive
