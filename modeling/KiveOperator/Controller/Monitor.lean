import KiveOperator.Controller.Output
import KiveOperator.Controller.Steps
import KiveOperator.Library.Runs

/-!
# A node that is watched

The probe of a node sends its records to a ring buffer, from which the goroutine `Output` of the
node's operator reads them while the controllers are at work on all nodes.  The goroutine is started
by the data pass that loads the program.

`act` says what one event does to all of this, and `sound_run` what holds of every run: there is one
goroutine at most, it has read exactly the first records of the ring buffer, in their order, and
each turn of its loop has reported what `ReadAlert` makes of what it met.
-/

namespace Kive

open Interaction Output

/-! ## Accesses -/

/-- An access to a file: what the probe is called with, and what stands in the padding of its
record. -/
structure Access where
  memory : UInt64 → Inode
  task : Task
  ctx : PtRegs
  pad : ℕ → UInt8
  /-- The name of a task takes `TASK_COMM_LEN` bytes. -/
  comm_length : task.comm.length = 16

/-- The record that the probe sends, if any.  Which probe is attached depends on the kernel. -/
def Access.record (kernelIsOld : Bool) (tracedInodes : TracedInodes) (a : Access) :
    Option LogData :=
  if kernelIsOld then kprobeInodePermissionOld tracedInodes a.memory a.task a.ctx
  else kprobeInodePermissionNew tracedInodes a.memory a.task a.ctx

/-- The sample that carries the record. -/
def Access.sample (kernelIsOld : Bool) (tracedInodes : TracedInodes) (a : Access) :
    Option (List UInt8) :=
  (a.record kernelIsOld tracedInodes).map (logDataBytes a.pad)

/-- The name of the task in a record. -/
lemma Access.comm_length_of_record {a : Access} {kernelIsOld : Bool}
    {tracedInodes : TracedInodes} {data : LogData}
    (h : a.record kernelIsOld tracedInodes = some data) : data.comm.length = 16 := by
  have hprobe : ∀ inode mask, inodePermission tracedInodes a.memory a.task inode mask = some data →
      data.comm.length = 16 := by
    intro inode mask hdata
    unfold inodePermission at hdata
    split_ifs at hdata
    rw [← Option.some.inj hdata]
    exact a.comm_length
  rw [Access.record] at h
  split_ifs at h
  · exact hprobe _ _ h
  · exact hprobe _ _ h

/-- How many records wait at most: each takes 64 of the `1 << 24` bytes of the ring buffer, which is
never filled up. -/
def ringRecords : ℕ := 2 ^ 18 - 1

/-! ## The state of a node -/

/-- The controllers, and what a node does about accesses to its files. -/
structure Monitor where
  system : System
  ring : Queue (List UInt8) ringRecords
  /-- The goroutines that were started with `go Output`. -/
  outputs : List (Repeating OutputCall.Answer)

namespace Monitor

/-- What may befall a call of a goroutine. -/
inductive Fault where
  | read (err : RingbufError)
  | request (err : String)

/-- What can happen. -/
inductive Event where
  | act (a : Action)
  | access (a : Access)
  /-- The next call of one of the goroutines. -/
  | output (i : ℕ) (fault : Option Fault)

/-- The answer to a call of a goroutine and the ring buffer after it; a read waits for a record. -/
def outputHandle (std : Std) (kernelID : String) (s : System) (fault : Option Fault) :
    (op : OutputCall) → Queue (List UInt8) ringRecords →
      Option (op.Answer × Queue (List UInt8) ringRecords)
  | .ringbuffReader, ring => some ((s.world.kernels kernelID).loaded, ring)
  | .read, ring =>
    match fault with
    | some (.read err) => some (.error err, ring)
    | _ => ring.pop?.map fun r => (.ok r.1, r.2)
  | .listKiveData, ring =>
    match fault with
    | some (.request err) => some (.error err, ring)
    | _ => some (.ok s.world.cluster.kiveData.items, ring)
  | .now, ring => some (std.formatRFC3339 s.world.clock, ring)
  | .post _ _ _, ring =>
    match fault with
    | some (.request err) => some (.error err, ring)
    | _ => some (.ok (), ring)
  | .logInfo _ _, ring => some ((), ring)
  | .logError _ _, ring => some ((), ring)

/-- The action is the call of a data pass of the node that loads the program. -/
def Loads (node : String) (s : System) : Action → Bool
  | .call r _ =>
    if r = (node, .kiveData) then
      match (s.passes r).prog with
      | .call .loadEbpf _ => true
      | _ => false
    else false
  | _ => false

section Act

variable (std : Std) (podFields : PodFields) (kernelOf : String → String) (node : String)
  (kernelIsOld : Bool)

/-- The keys that the probe of the node looks for. -/
def tracedInodes (s : Monitor) : TracedInodes :=
  (s.system.world.kernels (kernelOf node)).tracedInodes

/-- What an event does. -/
def act (s : Monitor) : Event → Monitor
  | .act a =>
    { s with
      system := s.system.act std podFields kernelOf a
      outputs := if Loads node s.system a then s.outputs ++ [.start turn] else s.outputs }
  | .access a =>
    match a.sample kernelIsOld (s.tracedInodes kernelOf node) with
    | none => s
    | some sample => { s with ring := s.ring.push sample }
  | .output i fault =>
    match s.outputs[i]? with
    | none => s
    | some t =>
      let r := t.next turn (outputHandle std (kernelOf node) s.system fault) s.ring
      { s with outputs := s.outputs.set i r.1, ring := r.2 }

/-- Events one after the other. -/
def run (events : List Event) (s : Monitor) : Monitor :=
  Runs.run (act std podFields kernelOf node kernelIsOld) events s

/-- A node before anything happens. -/
def ofWorld (w : World) : Monitor where
  system := System.ofWorld w
  ring := .empty
  outputs := []

end Act

end Monitor

/-! ## Loading the program -/

/-- The program is loaded where it was just seen not to be. -/
def LoadsUnloaded (log : List (Sigma Call.Answer)) : Call → Prop
  | .loadEbpf => log = [⟨.ebpfLoaded, false⟩]
  | _ => True

/-- Every run of a controller loads the program only then. -/
lemma obeys_loadsUnloaded (std : Std) (kernelID : String) (c : Controller) :
    (c.reconcile std kernelID).Obeys LoadsUnloaded (fun _ _ => True) [] := by
  cases c with
  | kivePolicy =>
    refine (only_policyReconcile std kernelID).obeys.mono ?_ fun _ _ h => h
    intro l op hop
    cases op
    case loadEbpf => exact absurd hop id
    all_goals trivial
  | kivePod =>
    refine (only_podReconcile kernelID).obeys.mono ?_ fun _ _ h => h
    intro l op hop
    cases op
    case loadEbpf => exact absurd hop id
    all_goals trivial
  | kiveData =>
    apply Pass.obeys_toProg
    have hload : KiveDataReconciler.ensureLoaded.run.Obeys LoadsUnloaded (fun _ _ => True) [] := by
      apply Prog.Obeys.lift_perform
      · trivial
      · intro loaded
        split_ifs with hloaded
        · apply Prog.Obeys.lift_perform
          · have hfalse : loaded = false := by simpa using hloaded
            rw [hfalse]
            rfl
          · intro answer
            cases answer <;> trivial
        · trivial
    refine hload.bindE (fun _ _ _ => trivial) fun _ l _ => ?_
    apply Prog.Obeys.lift_perform
    · trivial
    · intro answer
      cases answer with
      | error err => trivial
      | ok items =>
        apply Prog.Obeys.lift_perform
        · trivial
        · intro answer
          cases answer with
          | error err => trivial
          | ok policies =>
            refine Prog.Obeys.bindE ((obeys_dataLoop std policies (fun d hd => hd) _).mono
              (fun l op hop => ?_) fun _ _ _ => trivial) (fun _ _ _ => trivial) fun _ _ _ => trivial
            cases op
            case loadEbpf => exact absurd hop id
            all_goals trivial

namespace System

variable {std : Std} {podFields : PodFields} {kernelOf : String → String} {s : System}

/-- The last moment is now. -/
lemma now_act (h : s.kiveDataPast.getLast? = some s.world.cluster.kiveData.items) (a : Action) :
    (act std podFields kernelOf s a).kiveDataPast.getLast? =
      some (act std podFields kernelOf s a).world.cluster.kiveData.items := by
  cases a with
  | start r =>
    rw [act]
    split_ifs <;> exact h
  | seeKiveData kernelID n =>
    rw [act]
    split_ifs
    · cases s.kiveDataPast[n]? <;> exact h
    · exact h
  | seeKivePolicies kernelID n =>
    rw [act]
    split_ifs
    · cases s.kivePoliciesPast[n]? <;> exact h
    · exact h
  | _ => simp [act, moveTo]

variable (std podFields kernelOf s) in
/-- After an action the program is loaded if it was, or if a run has just loaded it. -/
lemma loaded_act (a : Action) (kernelID : String) :
    ((act std podFields kernelOf s a).world.kernels kernelID).loaded =
        (s.world.kernels kernelID).loaded ∨
    ∃ r fault k, a = .call r fault ∧ (s.passes r).prog = .call .loadEbpf k ∧
      kernelOf r.1 = kernelID ∧
      ((act std podFields kernelOf s a).world.kernels kernelID).loaded = true := by
  have hsee : ∀ (kernelID' : String) (kernel : Kernel),
      kernel.loaded = (s.world.kernels kernelID').loaded →
      ((s.world.setKernel kernelID' kernel).kernels kernelID).loaded =
        (s.world.kernels kernelID).loaded := by
    intro kernelID' kernel hkernel
    rcases eq_or_ne kernelID kernelID' with rfl | hne
    · rw [World.setKernel_kernels_self, hkernel]
    · exact congrArg Kernel.loaded (Function.update_of_ne hne ..)
  cases a with
  | start r =>
    left
    rw [act]
    split_ifs <;> rfl
  | call r fault =>
    cases hprog : (s.passes r).prog with
    | ret o =>
      rw [act_call_of_ret hprog]
      exact Or.inl rfl
    | call op k =>
      rw [act_call hprog]
      rcases eq_or_ne kernelID (kernelOf r.1) with rfl | hne
      · have hafter := kernels_handleFault std podFields r.1 (kernelOf r.1) fault op s.world
        cases op
        case loadEbpf =>
          exact Or.inr ⟨r, fault, k, rfl, hprog, rfl, congrArg Kernel.loaded hafter⟩
        case addInode mapKey =>
          exact Or.inl ((congrArg Kernel.loaded hafter).trans (Kernel.loaded_addInode _ _))
        case removeInode mapKey =>
          exact Or.inl ((congrArg Kernel.loaded hafter).trans (Kernel.loaded_removeInode _ _))
        all_goals exact Or.inl (congrArg Kernel.loaded hafter)
      · have hafter := kernels_handleFault_of_ne std podFields r.1 (kernelOf r.1) fault op s.world
          hne
        exact Or.inl (congrArg Kernel.loaded hafter)
  | seeKiveData kernelID' n =>
    left
    rw [act]
    split_ifs
    · cases s.kiveDataPast[n]? with
      | none => rfl
      | some items => exact hsee kernelID' _ rfl
    · rfl
  | seeKivePolicies kernelID' n =>
    left
    rw [act]
    split_ifs
    · cases s.kivePoliciesPast[n]? with
      | none => rfl
      | some items => exact hsee kernelID' _ rfl
    · rfl
  | _ => exact Or.inl rfl

end System

/-! ## What holds of every run -/

namespace Monitor

section Sound

variable {std : Std} {podFields : PodFields} {kernelOf : String → String} {node : String}
  {kernelIsOld : Bool}

/-- A call takes a record from the ring buffer exactly when it is answered with one. -/
lemma given_outputHandle {kernelID : String} {s : System} {fault : Option Fault} {op : OutputCall}
    {ring ring' : Queue (List UInt8) ringRecords} {a : op.Answer}
    (h : outputHandle std kernelID s fault op ring = some (a, ring')) :
    (given ⟨op, a⟩ = none ∧ ring' = ring) ∨
      ∃ sample, given ⟨op, a⟩ = some sample ∧ ring.pop? = some (sample, ring') := by
  cases op with
  | read =>
    have hpop : ring.pop?.map (fun r => ((.ok r.1 : OutputCall.read.Answer), r.2)) =
        some (a, ring') → ∃ sample, given ⟨.read, a⟩ = some sample ∧
          ring.pop? = some (sample, ring') := by
      intro hmap
      obtain ⟨r, hpop, hr⟩ := Option.map_eq_some_iff.mp hmap
      obtain ⟨rfl, rfl⟩ := Prod.mk.inj hr
      exact ⟨r.1, rfl, hpop⟩
    rcases fault with _ | err | err
    · exact Or.inr (hpop h)
    · obtain ⟨rfl, rfl⟩ := Prod.mk.inj (Option.some.inj h)
      exact Or.inl ⟨rfl, rfl⟩
    · exact Or.inr (hpop h)
  | listKiveData =>
    rcases fault with _ | err | err <;>
      exact Or.inl ⟨rfl, (Prod.mk.inj (Option.some.inj h)).2.symm⟩
  | post url contentType body =>
    rcases fault with _ | err | err <;>
      exact Or.inl ⟨rfl, (Prod.mk.inj (Option.some.inj h)).2.symm⟩
  | _ => exact Or.inl ⟨rfl, (Prod.mk.inj (Option.some.inj h)).2.symm⟩

/-- The KiveData that are listed are those that are stored. -/
lemma listed_outputHandle {kernelID : String} {s : System} {fault : Option Fault}
    {ring ring' : Queue (List UInt8) ringRecords} {items : List KiveData}
    (h : outputHandle std kernelID s fault .listKiveData ring = some (.ok items, ring')) :
    items = s.world.cluster.kiveData.items := by
  rcases fault with _ | err | err
  · exact (Except.ok.inj (Prod.mk.inj (Option.some.inj h)).1).symm
  · exact (Except.ok.inj (Prod.mk.inj (Option.some.inj h)).1).symm
  · cases (Prod.mk.inj (Option.some.inj h)).1

/-- What holds of a node at all times. -/
structure Sound (kernelOf : String → String) (node : String) (s : Monitor) : Prop where
  obeying : s.system.Obeying (fun _ => LoadsUnloaded) fun _ _ _ => True
  now : s.system.kiveDataPast.getLast? = some s.system.world.cluster.kiveData.items
  one : s.outputs.length ≤ 1
  /-- The goroutine is started when the program is loaded, which it stays. -/
  loaded : s.outputs ≠ [] → (s.system.world.kernels (kernelOf node)).loaded = true
  /-- A data pass that has just seen that the program is not loaded has started no goroutine. -/
  fresh : (s.system.passes (node, .kiveData)).log = [⟨.ebpfLoaded, false⟩] → s.outputs = []
  consumed : Consumed given (s.outputs.flatMap Repeating.events) s.ring
  keeps : ∀ t ∈ s.outputs, t.Keeps fun log => ∃ env : Env, log = env.events
  listed : ∀ t ∈ s.outputs, ∀ items,
    (⟨.listKiveData, .ok items⟩ : Sigma OutputCall.Answer) ∈ t.events →
      items ∈ s.system.kiveDataPast

/-- A node is sound before anything has happened. -/
lemma sound_ofWorld (w : World) : (ofWorld w).Sound kernelOf node where
  obeying _ := trivial
  now := rfl
  one := Nat.zero_le 1
  loaded h := absurd rfl h
  fresh _ := rfl
  consumed := rfl
  keeps _ h := absurd h List.not_mem_nil
  listed _ h := absurd h List.not_mem_nil

variable {s : Monitor}

/-- A call that loads the program. -/
lemma of_loads {a : Action} (h : Loads node s.system a = true) :
    ∃ fault k, a = .call (node, .kiveData) fault ∧
      (s.system.passes (node, .kiveData)).prog = .call .loadEbpf k := by
  cases a with
  | call r fault =>
    rw [Loads] at h
    split_ifs at h with hr
    subst hr
    cases hprog : (s.system.passes (node, .kiveData)).prog with
    | ret o => simp [hprog] at h
    | call op k =>
      cases op
      case loadEbpf => exact ⟨fault, k, rfl, rfl⟩
      all_goals simp [hprog] at h
  | _ => cases h

variable (std podFields) in
/-- An action of the controllers that starts no goroutine. -/
lemma Sound.act_of_not_loads (h : s.Sound kernelOf node) (a : Action) :
    ({ s with system := s.system.act std podFields kernelOf a } : Monitor).Sound kernelOf node where
  obeying := h.obeying.act (fun r => obeys_loadsUnloaded std (kernelOf r.1) r.2) a
  now := System.now_act h.now a
  one := h.one
  loaded hne := by
    rcases System.loaded_act std podFields kernelOf s.system a (kernelOf node) with
      hsame | ⟨_, _, _, -, -, -, hloaded⟩
    · exact hsame.trans (h.loaded hne)
    · exact hloaded
  fresh hlog := by
    rcases System.passes_act std podFields kernelOf s.system a (node, .kiveData) with
      hsame | ⟨-, -, hstart⟩ | ⟨fault, op, k, -, -, hnext⟩
    · exact h.fresh (hsame ▸ hlog)
    · rw [hstart] at hlog
      cases hlog
    · rw [hnext] at hlog
      -- the program is seen not to be loaded
      by_contra hne
      have hloaded := h.loaded hne
      have hlast := (List.append_inj' (hlog.trans (List.nil_append _).symm) rfl).2
      obtain ⟨rfl, hanswer⟩ := Sigma.mk.inj (List.cons.inj hlast).1
      have hvalue : (System.runnerHandle std podFields kernelOf (node, .kiveData) fault .ebpfLoaded
          s.system.world).1 = (s.system.world.kernels (kernelOf node)).loaded :=
        congrArg Prod.fst (handleFault_of_refuse std podFields node (kernelOf node) (fun _ => rfl)
          fault s.system.world)
      rw [eq_of_heq hanswer, hloaded] at hvalue
      cases hvalue
  consumed := h.consumed
  keeps := h.keeps
  listed t ht items hitems := by
    have hmem := h.listed t ht items hitems
    rcases @System.past_act std podFields kernelOf s.system a with hpast | hpast
    · exact hpast.1 ▸ hmem
    · exact hpast.1 ▸ List.mem_append_left _ hmem

variable (std podFields) in
/-- The program is loaded for the first time. -/
lemma Sound.act_of_loads (h : s.Sound kernelOf node) {a : Action}
    (ha : Loads node s.system a = true) :
    s.outputs = [] ∧
      ((s.system.act std podFields kernelOf a).world.kernels (kernelOf node)).loaded = true ∧
      ((s.system.act std podFields kernelOf a).passes (node, .kiveData)).log ≠
        [⟨.ebpfLoaded, false⟩] := by
  obtain ⟨fault, k, rfl, hprog⟩ := of_loads ha
  have hlog : (s.system.passes (node, .kiveData)).log = [⟨.ebpfLoaded, false⟩] :=
    System.Obeying.call h.obeying hprog
  rw [System.act_call hprog]
  refine ⟨h.fresh hlog, ?_, ?_⟩
  · have hafter := kernels_handleFault std podFields node (kernelOf node) fault .loadEbpf
      s.system.world
    exact congrArg Kernel.loaded hafter
  · intro hnext
    have hlength := congrArg List.length hnext
    simp [hlog, System.moveTo] at hlength

/-- What the controllers do. -/
lemma Sound.act_system (h : s.Sound kernelOf node) (a : Action) :
    (act std podFields kernelOf node kernelIsOld s (.act a)).Sound kernelOf node := by
  have hrest := h.act_of_not_loads std podFields a
  by_cases ha : Loads node s.system a = true
  · obtain ⟨hnone, hloaded, hlog⟩ := h.act_of_loads std podFields ha
    have hstarted : act std podFields kernelOf node kernelIsOld s (.act a) =
        { s with
          system := s.system.act std podFields kernelOf a
          outputs := [.start turn] } := by
      rw [act, if_pos ha, hnone, List.nil_append]
    have hring : ([] : List (List UInt8)) = s.ring.out := by
      have hconsumed := h.consumed
      rw [hnone] at hconsumed
      exact hconsumed
    rw [hstarted]
    exact {
      obeying := hrest.obeying
      now := hrest.now
      one := Nat.le_refl 1
      loaded := fun _ => hloaded
      fresh := fun hfresh => absurd hfresh hlog
      consumed := hring
      keeps := fun t ht => by
        rw [List.mem_singleton.mp ht]
        exact Repeating.keeps_start obeys_turn
      listed := fun t ht items hitems => by
        rw [List.mem_singleton.mp ht] at hitems
        cases hitems }
  · rw [act, if_neg ha]
    exact hrest

/-- An access that the probe does not report. -/
lemma act_access_of_none {a : Access}
    (h : a.sample kernelIsOld (s.tracedInodes kernelOf node) = none) :
    act std podFields kernelOf node kernelIsOld s (.access a) = s := by
  rw [act, h]

/-- An access that it reports. -/
lemma act_access_of_some {a : Access} {sample : List UInt8}
    (h : a.sample kernelIsOld (s.tracedInodes kernelOf node) = some sample) :
    act std podFields kernelOf node kernelIsOld s (.access a) =
      { s with ring := s.ring.push sample } := by
  rw [act, h]

/-- An access. -/
lemma Sound.act_access (h : s.Sound kernelOf node) (a : Access) :
    (act std podFields kernelOf node kernelIsOld s (.access a)).Sound kernelOf node := by
  cases hsample : a.sample kernelIsOld (s.tracedInodes kernelOf node) with
  | none =>
    rw [act_access_of_none hsample]
    exact h
  | some sample =>
    rw [act_access_of_some hsample]
    have hconsumed := h.consumed.push sample
    exact ⟨h.obeying, h.now, h.one, h.loaded, h.fresh, hconsumed, h.keeps, h.listed⟩

/-- A call of the goroutine. -/
lemma Sound.act_output (h : s.Sound kernelOf node) (i : ℕ) (fault : Option Fault) :
    (act std podFields kernelOf node kernelIsOld s (.output i fault)).Sound kernelOf node := by
  rw [act]
  cases hi : s.outputs[i]? with
  | none => exact h
  | some t =>
    -- there is only the one
    obtain ⟨hlt, ht⟩ := List.getElem?_eq_some_iff.mp hi
    have hone := h.one
    have hlength : s.outputs.length = 1 := by omega
    obtain ⟨t', houtputs⟩ := List.length_eq_one_iff.mp hlength
    obtain rfl : i = 0 := by omega
    have hmem : t ∈ s.outputs := ht ▸ List.getElem_mem hlt
    obtain rfl : t' = t := by
      rw [houtputs] at hmem
      exact (List.mem_singleton.mp hmem).symm
    set r := t'.next turn (outputHandle std (kernelOf node) s.system fault) s.ring with hr
    have hset : s.outputs.set 0 r.1 = [r.1] := by rw [houtputs, List.set_cons_zero]
    have hconsumed : Consumed given t'.events s.ring := by
      have hall := h.consumed
      rw [houtputs, List.flatMap_singleton] at hall
      exact hall
    have hnow : s.system.world.cluster.kiveData.items ∈ s.system.kiveDataPast :=
      List.mem_of_getLast? h.now
    dsimp only
    rw [hset]
    have hnext := t'.events_next turn (outputHandle std (kernelOf node) s.system fault) s.ring
    rw [← hr] at hnext
    exact {
      obeying := h.obeying
      now := h.now
      one := Nat.le_refl 1
      loaded := fun _ => h.loaded (List.ne_nil_of_mem hmem)
      fresh := fun hlog => absurd (h.fresh hlog) (List.ne_nil_of_mem hmem)
      consumed := by
        rw [List.flatMap_singleton]
        rcases hnext with ⟨hevents, hring⟩ | ⟨op, a, ring', hop, hevents, hring⟩
        · rw [hevents, hring]
          exact hconsumed
        · rw [hevents, hring]
          rcases given_outputHandle hop with ⟨hgiven, rfl⟩ | ⟨sample, hgiven, hpop⟩
          · exact hconsumed.call_of_none hgiven
          · exact hconsumed.call_of_pop hgiven hpop
      keeps := fun t ht => by
        rw [List.mem_singleton.mp ht]
        exact (h.keeps t' hmem).next obeys_turn _ _
      listed := fun t ht items hitems => by
        rw [List.mem_singleton.mp ht] at hitems
        rcases hnext with ⟨hevents, -⟩ | ⟨op, a, ring', hop, hevents, -⟩
        · exact h.listed t' hmem items (hevents ▸ hitems)
        · rw [hevents] at hitems
          rcases List.mem_append.mp hitems with hitems | hitems
          · exact h.listed t' hmem items hitems
          · obtain ⟨rfl, hanswer⟩ := Sigma.mk.inj (List.mem_singleton.mp hitems)
            obtain rfl := eq_of_heq hanswer
            rw [listed_outputHandle hop]
            exact hnow }

/-- Every event keeps a node sound. -/
theorem Sound.act (h : s.Sound kernelOf node) (e : Event) :
    (act std podFields kernelOf node kernelIsOld s e).Sound kernelOf node := by
  cases e with
  | act a => exact h.act_system a
  | access a => exact h.act_access a
  | output i fault => exact h.act_output i fault

variable (std podFields kernelOf node kernelIsOld) in
/-- So does every run. -/
theorem sound_run (events : List Event) (w : World) :
    (run std podFields kernelOf node kernelIsOld events (ofWorld w)).Sound kernelOf node :=
  Runs.invariant_run (C := fun _ _ => True) (fun _ e h _ => h.act e)
    (Runs.along_of_forall (fun _ _ _ => trivial) _) (sound_ofWorld w)

end Sound

end Monitor

end Kive
