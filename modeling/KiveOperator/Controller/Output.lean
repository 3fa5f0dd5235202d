import KiveOperator.Ebpf.AlertText
import KiveOperator.Ebpf.Sample
import KiveOperator.Library.Consumer

/-!
# The output of alerts

`internal/controller/output.go` with `ReadAlert` of `internal/controller/ebpf/ebpf.go`: the
goroutine that reads the records of the probe one by one and passes each on as an alert, to the
callback of the policy or to the log of the operator.

`turn` is the body of its loop, a program over the calls of `OutputCall`.  `Env` is what a turn
meets, and `reported_events` says what comes of it: the alert that the function `readAlert`
computes, or its error.
-/

namespace Kive

open Interaction

/-- The calls of the goroutine. -/
inductive OutputCall where
  /-- Whether the variable `RingbuffReader` is set. -/
  | ringbuffReader
  /-- `RingbuffReader.Read`, which waits for a record. -/
  | read
  | listKiveData
  /-- `time.Now().Format(time.RFC3339)`. -/
  | now
  /-- `http.Post`. -/
  | post (url contentType body : String)
  | logInfo (msg : String) (keysAndValues : List (String × String))
  | logError (err msg : String)
  deriving DecidableEq

/-- The answers to the calls. -/
abbrev OutputCall.Answer : OutputCall → Type
  | ringbuffReader => Bool
  | read => Except RingbufError (List UInt8)
  | listKiveData => Except String (List KiveData)
  | now => String
  | post _ _ _ => Except String Unit
  | logInfo _ _ => Unit
  | logError _ _ => Unit

/-- A call passes on an alert. -/
def OutputCall.isAlert : OutputCall → Bool
  | post _ _ _ => true
  | logInfo msg _ => msg = "Access Detected"
  | _ => false

/-- A call tells the outside what has become of a record. -/
def OutputCall.isReport (op : OutputCall) : Bool :=
  op.isAlert || match op with
    | logError _ _ => true
    | _ => false

namespace Output

/-- A call of the goroutine. -/
def call (op : OutputCall) : Prog OutputCall.Answer op.Answer :=
  Prog.perform op

/-! ## The loop -/

/-- What the log says of a KiveData that asks for an alert version that there is not. -/
def versionWarning (kiveData : KiveData) : String :=
  "Generate KiveAlert for KivePolicy " ++
    (kiveData.objectMeta.annotations.get "kive-policy-name" ++ ": version " ++
      kiveData.objectMeta.annotations.get "version" ++ " is not supported, defaulting to v1")

/-- A KiveData asks for an alert version that there is not. -/
def VersionUnsupported (kiveData : KiveData) : Prop :=
  kiveData.objectMeta.annotations.get "kive-alert-version" ≠ "" ∧
    kiveData.objectMeta.annotations.get "kive-alert-version" ∉ supportedKiveAlertVersions

instance (kiveData : KiveData) : Decidable (VersionUnsupported kiveData) :=
  inferInstanceAs (Decidable (_ ∧ _))

/-- `ReadAlert`, from where a record has been read. -/
def alertFor (data : LogData) : Prog OutputCall.Answer (Except String KiveAlert) := do
  match ← call .listKiveData with
  | .error err => return .error ("ReadAlert Error Failed to get Kive Data resource: " ++ err)
  | .ok kiveDataList =>
    match findKiveData data kiveDataList with
    | none =>
      return .error "ReadAlert Error eBPF data received but no corresponsing kiveData was found"
    | some kiveData => do
      if VersionUnsupported kiveData then
        call (.logInfo (versionWarning kiveData) [])
      return .ok (newKiveAlert (← call .now) data kiveData)

/-- `ReadAlert`. -/
def readAlert : Prog OutputCall.Answer (Except String KiveAlert) := do
  if ← call .ringbuffReader then
    match readEbpfData (parseSample (← call .read)) with
    | .error err => return .error ("ReadAlert Error Reading Ebpf Data: " ++ err)
    | .ok data => alertFor data
  else return .error "ReadAlert Error Ringbuffer not inizialized"

/-- The rest of a turn.  `json.Marshal` does not fail on an alert. -/
def passOn : Except String KiveAlert → Prog OutputCall.Answer Unit
  | .error err => call (.logError err "Output Error Read alert")
  | .ok alert =>
    if alert.metadata.callback ≠ "" then do
      match ← call (.post alert.metadata.callback "application/json" alert.marshal) with
      | .error err => call (.logError err "Output Error Post Callback")
      | .ok () => return ()
    else
      call (.logInfo "Access Detected" [("KiveAlert", alert.marshal)])

/-- One turn of the loop of `Output`. -/
def turn : Prog OutputCall.Answer Unit := do
  passOn (← readAlert)

/-! ## What a turn meets -/

/-- What the calls of a turn are answered. -/
structure Env where
  reader : Bool
  read : Except RingbufError (List UInt8)
  list : Except String (List KiveData)
  now : String
  posted : Except String Unit

namespace Env

def answer (env : Env) : (op : OutputCall) → op.Answer
  | .ringbuffReader => env.reader
  | .read => env.read
  | .listKiveData => env.list
  | .now => env.now
  | .post _ _ _ => env.posted
  | .logInfo _ _ => ()
  | .logError _ _ => ()

/-- Nothing changes while a turn lasts. -/
def handle (env : Env) (op : OutputCall) (u : Unit) : op.Answer × Unit :=
  (env.answer op, u)

/-- The calls of a turn. -/
def events (env : Env) : List (Sigma OutputCall.Answer) :=
  turn.events env.handle ()

/-- The alert, or why there is none. -/
def result (env : Env) : Except String KiveAlert :=
  Kive.readAlert (if env.reader then some (parseSample env.read) else none) env.list env.now

end Env

/-! ## What comes of a turn -/

/-- How an alert is passed on. -/
def deliver (alert : KiveAlert) : OutputCall :=
  if alert.metadata.callback ≠ "" then
    .post alert.metadata.callback "application/json" alert.marshal
  else .logInfo "Access Detected" [("KiveAlert", alert.marshal)]

/-- What is reported when an alert was posted. -/
def postReports : Except String Unit → List OutputCall
  | .error err => [.logError err "Output Error Post Callback"]
  | .ok () => []

/-- What is reported when an alert is passed on. -/
def reportsOf (posted : Except String Unit) : Except String KiveAlert → List OutputCall
  | .error err => [.logError err "Output Error Read alert"]
  | .ok alert =>
    deliver alert :: if alert.metadata.callback ≠ "" then postReports posted else []

/-- The calls that tell the outside something. -/
def reported (events : List (Sigma OutputCall.Answer)) : List OutputCall :=
  (events.map Sigma.fst).filter OutputCall.isReport

/-- Failing to post is not an alert. -/
lemma not_isAlert_of_mem_postReports {posted : Except String Unit} {op : OutputCall}
    (h : op ∈ postReports posted) : op.isAlert = false := by
  rcases posted with err | u
  · rw [List.mem_singleton.mp h]
    rfl
  · cases h

/-- The sample that a read was answered with. -/
def given : Sigma OutputCall.Answer → Option (List UInt8)
  | ⟨.read, .ok sample⟩ => some sample
  | _ => none

/-- The sample that a turn reads. -/
def Env.sample (env : Env) : Option (List UInt8) :=
  if env.reader then env.read.toOption else none

section Turn

variable (env : Env)

@[simp] lemma reported_nil : reported [] = [] := rfl

/-- The reports of one more call. -/
@[simp] lemma reported_cons (op : OutputCall) (a : op.Answer)
    (l : List (Sigma OutputCall.Answer)) :
    reported (⟨op, a⟩ :: l) = if op.isReport then op :: reported l else reported l := by
  rw [reported, List.map_cons, List.filter_cons]
  rfl

/-- The reports of two stretches of calls. -/
lemma reported_append (l l' : List (Sigma OutputCall.Answer)) :
    reported (l ++ l') = reported l ++ reported l' := by
  rw [reported, List.map_append, List.filter_append]
  rfl

/-- A warning is none of the reports. -/
lemma versionWarning_ne (kiveData : KiveData) : versionWarning kiveData ≠ "Access Detected" := by
  have hne : ∀ s : String, "Generate KiveAlert for KivePolicy " ++ s ≠ "Access Detected" := by
    intro s h
    have hhead := congrArg (fun t : String => t.toList.head?) h
    rw [String.toList_append] at hhead
    simp at hhead
  exact hne _

/-- A record that was read. -/
lemma eq_ok_of_readEbpfData {read : Except RingbufError LogData} {data : LogData}
    (h : readEbpfData read = .ok data) : read = .ok data := by
  rcases read with err | data'
  · cases err <;> cases h
  · rw [← Except.ok.inj h]

/-- From where a record has been read. -/
lemma run_alertFor (data : LogData) :
    ((alertFor data).run env.handle ()).1 = Kive.readAlert (some (.ok data)) env.list env.now ∧
      reported ((alertFor data).events env.handle ()) = [] := by
  obtain ⟨reader, read, list, now, posted⟩ := env
  cases list with
  | error err => exact ⟨rfl, rfl⟩
  | ok items =>
    cases hfind : findKiveData data items with
    | none =>
      simp [alertFor, Kive.readAlert, readEbpfData, call, Env.handle, Env.answer, hfind,
        OutputCall.isReport, OutputCall.isAlert]
    | some d =>
      have hwarning := versionWarning_ne d
      by_cases hversion : VersionUnsupported d
      · simp [alertFor, Kive.readAlert, readEbpfData, call, Env.handle, Env.answer, hfind, hversion,
          hwarning, OutputCall.isReport, OutputCall.isAlert]
      · simp [alertFor, Kive.readAlert, readEbpfData, call, Env.handle, Env.answer, hfind, hversion,
          OutputCall.isReport, OutputCall.isAlert]

/-- Reading an alert computes what the function `readAlert` does, and reports nothing. -/
lemma run_readAlert :
    (readAlert.run env.handle ()).1 = env.result ∧
      reported (readAlert.events env.handle ()) = [] := by
  obtain ⟨reader, read, list, now, posted⟩ := env
  cases reader with
  | false => exact ⟨rfl, rfl⟩
  | true =>
    cases hdata : readEbpfData (parseSample read) with
    | error err =>
      simp [Env.result, readAlert, Kive.readAlert, hdata, call, Env.handle, Env.answer,
        OutputCall.isReport, OutputCall.isAlert]
    | ok data =>
      have hrest := run_alertFor ⟨true, read, list, now, posted⟩ data
      rw [← eq_ok_of_readEbpfData hdata] at hrest
      simpa [Env.result, readAlert, hdata, call, Env.handle, Env.answer, OutputCall.isReport,
        OutputCall.isAlert] using hrest

/-- Passing an alert on. -/
lemma reported_passOn (r : Except String KiveAlert) :
    reported ((passOn r).events env.handle ()) = reportsOf env.posted r := by
  cases r with
  | error err => rfl
  | ok alert =>
    by_cases hcallback : alert.metadata.callback = ""
    · simp [passOn, reportsOf, deliver, hcallback, call, OutputCall.isReport, OutputCall.isAlert]
    · obtain ⟨reader, read, list, now, posted⟩ := env
      cases posted <;>
        simp [passOn, reportsOf, postReports, deliver, hcallback, call, OutputCall.isReport,
          OutputCall.isAlert, Env.handle, Env.answer]

/-- What is reported in a turn is what `readAlert` computes, and whether posting it failed. -/
theorem reported_events : reported env.events = reportsOf env.posted env.result := by
  obtain ⟨hresult, hbefore⟩ := run_readAlert env
  rw [Env.events, turn, Prog.events_bind, reported_append]
  rw [hbefore, hresult, List.nil_append, reported_passOn]

/-- Only a read is answered with a sample. -/
lemma given_eq_none {e : Sigma OutputCall.Answer} (h : e.1 ≠ .read) : given e = none := by
  obtain ⟨op, a⟩ := e
  cases op with
  | read => exact absurd rfl h
  | _ => rfl

/-- A part of the goroutine that does not read takes no record. -/
lemma given_of_only {α : Type} {p : Prog OutputCall.Answer α} (hp : p.Only (· ≠ .read)) :
    (p.events env.handle ()).filterMap given = [] :=
  List.filterMap_eq_nil_iff.mpr fun _ he => given_eq_none (hp.of_mem_events he)

/-- Making the alert reads no record. -/
lemma only_alertFor (data : LogData) : (alertFor data).Only (· ≠ .read) := by
  simp only [alertFor, call, Prog.perform_bind, Prog.only_call]
  refine ⟨by simp, fun list => ?_⟩
  cases list with
  | error err => trivial
  | ok items =>
    cases hfind : findKiveData data items with
    | none => simp [hfind]
    | some d =>
      by_cases hversion : VersionUnsupported d <;> simp [hfind, hversion]

/-- Reporting it reads none either. -/
lemma only_passOn (r : Except String KiveAlert) : (passOn r).Only (· ≠ .read) := by
  cases r with
  | error err => exact ⟨by simp, fun _ => trivial⟩
  | ok alert =>
    rw [passOn]
    split_ifs
    · refine ⟨by simp, fun posted => ?_⟩
      cases posted with
      | error err => exact ⟨by simp, fun _ => trivial⟩
      | ok u => trivial
    · exact ⟨by simp, fun _ => trivial⟩

/-- A turn is given one sample at most. -/
lemma given_events : env.events.filterMap given = env.sample.toList := by
  rw [Env.events, turn, Prog.events_bind, List.filterMap_append, given_of_only env (only_passOn _),
    List.append_nil]
  obtain ⟨reader, read, list, now, posted⟩ := env
  cases reader with
  | false => rfl
  | true =>
    have hgiven : (given ⟨.read, read⟩).toList = read.toOption.toList := by
      cases read <;> rfl
    rw [Env.sample, if_pos rfl, ← hgiven]
    -- what follows the read is given nothing
    have hrest : ∀ p : Prog OutputCall.Answer (Except String KiveAlert), p.Only (· ≠ .read) →
        List.filterMap given (⟨.ringbuffReader, true⟩ :: ⟨.read, read⟩ ::
          p.events (Env.handle ⟨true, read, list, now, posted⟩) ()) =
            (given ⟨.read, read⟩).toList := by
      intro p hp
      rw [List.filterMap_cons_none rfl, List.filterMap_cons, given_of_only _ hp]
      cases given ⟨.read, read⟩ <;> rfl
    cases hdata : readEbpfData (parseSample read) with
    | error err =>
      have hevents := hrest (.ret (.error ("ReadAlert Error Reading Ebpf Data: " ++ err))) trivial
      simpa [readAlert, call, Env.handle, Env.answer, hdata] using hevents
    | ok data =>
      have hevents := hrest (alertFor data) (only_alertFor data)
      simpa [readAlert, call, Env.handle, Env.answer, hdata] using hevents

/-! ## Every turn -/

/-- However it is answered, an alert is read as where a turn meets certain things. -/
lemma obeys_alertFor (data : LogData) (log : List (Sigma OutputCall.Answer)) :
    (alertFor data).Obeys (fun _ _ => True)
      (fun r l => ∃ list now, ∀ reader read posted,
        let env : Env := ⟨reader, read, list, now, posted⟩
        r = ((alertFor data).run env.handle ()).1 ∧
          l = log ++ (alertFor data).events env.handle ()) log := by
  simp only [alertFor, call, Prog.perform_bind, Prog.obeys_call, true_and]
  intro list
  cases list with
  | error err => exact ⟨.error err, "", fun _ _ _ => ⟨rfl, rfl⟩⟩
  | ok items =>
    cases hfind : findKiveData data items with
    | none =>
      simp only [hfind, Prog.pure_eq_ret, Prog.obeys_ret]
      refine ⟨.ok items, "", fun _ _ _ => ?_⟩
      simp [Env.handle, Env.answer, hfind]
    | some d =>
      by_cases hversion : VersionUnsupported d
      · simp only [hfind, hversion, if_true, Prog.obeys_call, true_and]
        rintro - now
        refine ⟨.ok items, now, fun _ _ _ => ?_⟩
        simp [Env.handle, Env.answer, hfind, hversion]
      · simp only [hfind, hversion, if_false, Prog.obeys_call, true_and]
        intro now
        refine ⟨.ok items, now, fun _ _ _ => ?_⟩
        simp [Env.handle, Env.answer, hfind, hversion]

/-- `ReadAlert` reads one record and answers as `readAlert` does of what it has read. -/
lemma obeys_readAlert :
    readAlert.Obeys (fun _ _ => True)
      (fun r l => ∃ reader read list now, ∀ posted,
        let env : Env := ⟨reader, read, list, now, posted⟩
        r = (readAlert.run env.handle ()).1 ∧ l = readAlert.events env.handle ()) [] := by
  simp only [readAlert, call, Prog.perform_bind, Prog.obeys_call, true_and]
  intro reader
  cases reader with
  | false => exact ⟨false, .error .other, .error "", "", fun _ => ⟨rfl, rfl⟩⟩
  | true =>
    simp only [if_true, Prog.obeys_call, true_and]
    intro read
    cases hdata : readEbpfData (parseSample read) with
    | error err =>
      simp only [Prog.pure_eq_ret, Prog.obeys_ret]
      refine ⟨true, read, .error "", "", fun _ => ?_⟩
      simp [Env.handle, Env.answer, hdata]
    | ok data =>
      refine (obeys_alertFor data _).mono (fun _ _ h => h) ?_
      rintro r l ⟨list, now, h⟩
      refine ⟨true, read, list, now, fun posted => ?_⟩
      obtain ⟨rfl, rfl⟩ := h true read posted
      simp [Env.handle, Env.answer, hdata]

/-- However it is answered, an alert is passed on as where posting it goes one way. -/
lemma obeys_passOn (r : Except String KiveAlert) (log : List (Sigma OutputCall.Answer)) :
    (passOn r).Obeys (fun _ _ => True)
      (fun _ l => ∃ posted, ∀ reader read list now,
        let env : Env := ⟨reader, read, list, now, posted⟩
        l = log ++ (passOn r).events env.handle ()) log := by
  cases r with
  | error err => exact ⟨trivial, fun _ => ⟨.ok (), fun _ _ _ _ => rfl⟩⟩
  | ok alert =>
    by_cases hcallback : alert.metadata.callback = ""
    · simp only [passOn, call, hcallback, ne_eq, not_true_eq_false, if_false]
      exact ⟨trivial, fun _ => ⟨.ok (), fun _ _ _ _ => rfl⟩⟩
    · simp only [passOn, call, hcallback, ne_eq, not_false_eq_true, if_true, Prog.perform_bind,
        Prog.obeys_call, true_and]
      intro posted
      cases posted with
      | error err =>
        refine ⟨trivial, fun _ => ⟨.error err, fun _ _ _ _ => ?_⟩⟩
        simp [Env.handle, Env.answer, Prog.perform]
      | ok u => exact ⟨.ok (), fun _ _ _ _ => rfl⟩

/-- The calls of a turn are those of a turn that is answered the same all the time. -/
theorem obeys_turn :
    turn.Obeys (fun _ _ => True) (fun _ log => ∃ env : Env, log = env.events) [] := by
  refine obeys_readAlert.bind fun r l hr => ?_
  obtain ⟨reader, read, list, now, h⟩ := hr
  refine (obeys_passOn r l).mono (fun _ _ h => h) fun _ l' hl' => ?_
  obtain ⟨posted, hl'⟩ := hl'
  obtain ⟨rfl, rfl⟩ := h posted
  refine ⟨⟨reader, read, list, now, posted⟩, ?_⟩
  rw [hl' reader read list now, Env.events, turn, Prog.events_bind]

/-! ## Alerts -/

variable {env}

/-- What an alert is made of. -/
lemma Env.of_result {alert : KiveAlert} (h : env.result = .ok alert) :
    env.reader = true ∧ ∃ data items d, parseSample env.read = .ok data ∧ env.list = .ok items ∧
      findKiveData data items = some d ∧ alert = newKiveAlert env.now data d := by
  obtain ⟨reader, read, list, now, posted⟩ := env
  rw [Env.result] at h
  cases reader with
  | false => cases h
  | true =>
    cases hread : parseSample read with
    | error err =>
      simp only [if_true, hread] at h
      cases err <;> cases h
    | ok data =>
      cases list with
      | error err =>
        simp only [if_true, hread] at h
        cases h
      | ok items =>
        simp only [if_true, hread] at h
        obtain ⟨d, hd, halert⟩ := readAlert_eq_ok_iff.mp h
        exact ⟨rfl, data, items, d, rfl, rfl, hd, halert.symm⟩

/-- Where there is an alert, a record was read and the KiveData were listed. -/
lemma Env.mem_events_of_result {alert : KiveAlert} (h : env.result = .ok alert) :
    (⟨.read, env.read⟩ : Sigma OutputCall.Answer) ∈ readAlert.events env.handle () ∧
      (⟨.listKiveData, env.list⟩ : Sigma OutputCall.Answer) ∈
        readAlert.events env.handle () := by
  obtain ⟨hreader, data, items, d, hread, -⟩ := Env.of_result h
  have hdata : readEbpfData (.ok data) = .ok data := rfl
  constructor <;>
    simp [readAlert, alertFor, call, Env.handle, Env.answer, hreader, hread, hdata]

/-- A call that passes on an alert follows the calls from which the alert is made. -/
lemma Env.of_isAlert {log rest : List (Sigma OutputCall.Answer)} (h : log ++ rest = env.events)
    {op : OutputCall} {a : op.Answer} (he : (⟨op, a⟩ : Sigma OutputCall.Answer) ∈ log)
    (hop : op.isAlert = true) :
    ∃ alert, env.result = .ok alert ∧ op = deliver alert ∧
      (⟨.read, env.read⟩ : Sigma OutputCall.Answer) ∈ log ∧
      (⟨.listKiveData, env.list⟩ : Sigma OutputCall.Answer) ∈ log := by
  have hreported : ∀ {l : List (Sigma OutputCall.Answer)},
      (⟨op, a⟩ : Sigma OutputCall.Answer) ∈ l → op ∈ reported l := by
    intro l hl
    refine List.mem_filter.mpr ⟨List.mem_map.mpr ⟨_, hl, rfl⟩, ?_⟩
    simp [OutputCall.isReport, hop]
  obtain ⟨hresult, hnone⟩ := run_readAlert env
  have hnot : (⟨op, a⟩ : Sigma OutputCall.Answer) ∉ readAlert.events env.handle () := by
    intro hmem
    have hmem' := hreported hmem
    rw [hnone] at hmem'
    exact List.not_mem_nil hmem'
  have hin : op ∈ reportsOf env.posted env.result := by
    rw [← reported_events, ← h, reported_append]
    exact List.mem_append_left _ (hreported he)
  have halert : ∃ alert, env.result = .ok alert ∧ op = deliver alert := by
    cases hres : env.result with
    | error err =>
      rw [hres] at hin
      rw [List.mem_singleton.mp hin] at hop
      cases hop
    | ok alert =>
      rw [hres, reportsOf] at hin
      refine ⟨alert, rfl, ?_⟩
      rcases List.mem_cons.mp hin with hin | hin
      · exact hin
      · split_ifs at hin with hcallback
        · rw [not_isAlert_of_mem_postReports hin] at hop
          cases hop
        · cases hin
  obtain ⟨alert, hok, heq⟩ := halert
  -- the calls that read the alert come first
  rw [Env.events, turn, Prog.events_bind] at h
  have hprefix : readAlert.events env.handle () ⊆ log := by
    rcases List.append_eq_append_iff.mp h with ⟨l, hl, -⟩ | ⟨l, hl, -⟩
    · exact absurd (hl ▸ List.mem_append_left l he) hnot
    · exact hl ▸ List.subset_append_left _ l
  obtain ⟨hread, hlist⟩ := Env.mem_events_of_result hok
  exact ⟨alert, hok, heq, hprefix hread, hprefix hlist⟩

end Turn

end Output

end Kive
