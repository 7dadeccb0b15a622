import Newbro.AcpxEvents
import Newbro.BlockedRequests

/-!
# A run of the acpx executor

`run_task` reads the standard output of a prompt line by line and yields its events. One event
is to end the run. This holds but where the prompt goes on after the line that ends it, or
where something fails once the end has been reported. A completed run reports all the output
text, unless that text is blank.
-/
namespace Newbro.Acpx

open Library Protocol

/-! ## The run -/

/-- What reading a line brings: a line, or the error of one beyond the buffer's limit. -/
inductive Reading where
  | line (text : String)
  | overrun (error : String)

/-- How the process ends: its exit code, and its error output unless reading that fails. -/
structure ProcessEnd where
  returncode : Int
  stderr : Except String (List String)

/-- Where the events of a run belong. -/
structure RunContext where
  runId : String
  sessionId : String
  taskTitle : String

structure PromptLoop where
  outputChunks : List String := []
  latestStatus : Option String := none
  terminalEmitted : Bool := false

namespace RunContext

variable (context : RunContext)

def event (eventType : ExecutorEventType) (message : String) (metadata : Fields) :
    ExecutorEvent where
  runId := context.runId
  sessionId := context.sessionId
  eventType := eventType
  message := some message
  metadata := BlockedRequests.metadataOf (("source", .str "acpx") :: metadata)

variable (s : PromptLoop)

/-- The message of a completed run. -/
def finalText : String :=
  let output := Text.strip (String.join s.outputChunks)
  if output ≠ "" then output
  else (s.latestStatus.filter (· ≠ "")).getD ("Completed: " ++ context.taskTitle)

/-- The end that a line reports, if none has been reported. -/
def reportEnd (event : ExecutorEvent) : PromptLoop × List ExecutorEvent :=
  if s.terminalEmitted then (s, []) else ({ s with terminalEmitted := true }, [event])

/-- One event of the prompt. -/
def handleEvent (py : Python) (s : PromptLoop) : PromptEvent → PromptLoop × List ExecutorEvent
  | .textDelta text output =>
    if output then
      ({ s with outputChunks := s.outputChunks ++ [text] },
        [context.event .progress text [("stream", .str "output")]])
    else (s, [])
  | .status text =>
    ({ s with latestStatus := some text },
      [context.event .progress text [("event_type", .str "status")]])
  | .toolCall text =>
    ({ s with latestStatus := some text },
      [context.event .progress text [("event_type", .str "tool_call")]])
  | .blocked message =>
    reportEnd s (context.event .blocked message
      [("prompt", .str message),
        ("interaction_kind", .str (classifyBlockedPrompt py message))])
  | .error message code =>
    reportEnd s (context.event .failed message [("code", .str (code.getD ""))])
  | .done stopReason =>
    let reason := stopReason.getD ""
    reportEnd s
      (if reason = "cancelled" then
        context.event .cancelled "ACPX prompt cancelled." [("stop_reason", .str reason)]
      else context.event .completed (context.finalText s) [("stop_reason", .str reason)])

/-- The read loop: the events it yields, and the state or the error that ends it. -/
def readPrompt (py : Python) (s : PromptLoop) :
    List Reading → List ExecutorEvent × Except String PromptLoop
  | [] => ([], .ok s)
  | .overrun error :: _ => ([], .error error)
  | .line text :: rest =>
    match parsePromptEventLine py text with
    | .error error => ([], .error error)
    | .ok none => readPrompt py s rest
    | .ok (some event) =>
      let (s, events) := context.handleEvent py s event
      let (later, outcome) := readPrompt py s rest
      (events ++ later, outcome)

def failure (error : String) : ExecutorEvent := context.event .failed error []

/-- What is yielded after the last line. -/
def finish (ended : ProcessEnd) (stderr : List String) : List ExecutorEvent :=
  if s.terminalEmitted then []
  else if ended.returncode ≠ 0 then
    let tail := stderr.drop (stderr.length - 20)
    let text := Text.strip ("\n".intercalate tail)
    let code := toString ended.returncode
    [context.event .failed
      (if text ≠ "" then text else "acpx prompt exited with status " ++ code ++ ".")
      [("returncode", .int ended.returncode)]]
  else [context.event .completed (context.finalText s) [("implicit_done", .bool true)]]

/-- `run_task`; `started` is what becomes of the session and of the process before the first
line. -/
def runTask (py : Python) (started : Except String Unit) (lines : List Reading)
    (ended : ProcessEnd) : List ExecutorEvent :=
  match started with
  | .error error => [context.failure error]
  | .ok _ =>
    let (events, outcome) := context.readPrompt py {} lines
    match outcome with
    | .error error => events ++ [context.failure error]
    | .ok s =>
      match ended.stderr with
      | .error error => events ++ [context.failure error]
      | .ok stderr => events ++ context.finish s ended stderr

end RunContext

/-! ## What a line comes to -/

/-- The types of event that end a run. -/
def endsRun (event : ExecutorEvent) : Bool :=
  event.eventType = .blocked || event.eventType = .completed || event.eventType = .failed ||
    event.eventType = .cancelled

/-- A reading, as far as the order of the events depends on it. -/
inductive LineKind where
  | silent
  | output (text : String)
  | status (text : String)
  | ends (completes : Bool)
  | raises
  deriving Repr, DecidableEq

def PromptEvent.kind : PromptEvent → LineKind
  | .textDelta text output => if output then .output text else .silent
  | .status text => .status text
  | .toolCall text => .status text
  | .blocked _ => .ends false
  | .error _ _ => .ends false
  | .done stopReason => .ends (stopReason.getD "" ≠ "cancelled")

def lineKind (py : Python) : Reading → LineKind
  | .overrun _ => .raises
  | .line text =>
    match parsePromptEventLine py text with
    | .error _ => .raises
    | .ok none => .silent
    | .ok (some event) => event.kind

namespace LineKind

def output? : LineKind → Option String
  | .output text => some text
  | _ => none

/-- Nothing is yielded for such a line once the end is reported. -/
def quiet : LineKind → Bool
  | .silent => true
  | .ends _ => true
  | _ => false

end LineKind

/-- The output text of the lines. -/
def outputTexts (py : Python) (lines : List Reading) : List String :=
  lines.filterMap fun line => (lineKind py line).output?

/-- What a reading does to the loop, by its kind. -/
inductive Stepped (context : RunContext) (s : PromptLoop) :
    LineKind → Except String (PromptLoop × List ExecutorEvent) → Prop where
  | raises {error} : Stepped context s .raises (.error error)
  | silent : Stepped context s .silent (.ok (s, []))
  | output {text event} : event.eventType = .progress →
      Stepped context s (.output text)
        (.ok ({ s with outputChunks := s.outputChunks ++ [text] }, [event]))
  | status {text event} : event.eventType = .progress →
      Stepped context s (.status text) (.ok ({ s with latestStatus := some text }, [event]))
  | ends {completes event} : s.terminalEmitted = false → endsRun event = true →
      (event.eventType = .completed ↔ completes = true) →
      (completes = true → event.message = some (context.finalText s)) →
      Stepped context s (.ends completes) (.ok ({ s with terminalEmitted := true }, [event]))
  | again {completes} : s.terminalEmitted = true →
      Stepped context s (.ends completes) (.ok (s, []))

variable {event : ExecutorEvent}

variable {completes : Bool}

section Loop

variable (context : RunContext) (py : Python)

/-- One reading of the loop. -/
def stepReading (s : PromptLoop) : Reading → Except String (PromptLoop × List ExecutorEvent)
  | .overrun error => .error error
  | .line text =>
    match parsePromptEventLine py text with
    | .error error => .error error
    | .ok none => .ok (s, [])
    | .ok (some event) => .ok (context.handleEvent py s event)

theorem readPrompt_cons (s : PromptLoop) (line : Reading) (rest : List Reading) :
    context.readPrompt py s (line :: rest) = match stepReading context py s line with
      | .error error => ([], .error error)
      | .ok (next, events) =>
        (events ++ (context.readPrompt py next rest).1, (context.readPrompt py next rest).2) := by
  cases line with
  | overrun error => rfl
  | line text =>
    simp only [RunContext.readPrompt, stepReading]
    cases parsePromptEventLine py text with
    | error error => rfl
    | ok parsed => cases parsed <;> simp

theorem stepped_reportEnd (s : PromptLoop)
    (hends : endsRun event = true) (htype : event.eventType = .completed ↔ completes = true)
    (hmessage : completes = true → event.message = some (context.finalText s)) :
    Stepped context s (.ends completes) (.ok (RunContext.reportEnd s event)) := by
  cases hs : s.terminalEmitted with
  | false =>
    simp only [RunContext.reportEnd, hs, Bool.false_eq_true, if_false]
    exact .ends hs hends htype hmessage
  | true =>
    simp only [RunContext.reportEnd, hs, if_true]
    exact .again hs

theorem stepped_handleEvent (s : PromptLoop) (event : PromptEvent) :
    Stepped context s event.kind (.ok (context.handleEvent py s event)) := by
  cases event with
  | textDelta text output =>
    cases output with
    | true => exact .output rfl
    | false => exact .silent
  | status | toolCall => exact .status rfl
  | blocked | error => exact stepped_reportEnd context s rfl (by simp [RunContext.event]) (by simp)
  | done stopReason =>
    simp only [PromptEvent.kind, RunContext.handleEvent]
    by_cases hreason : stopReason.getD "" = "cancelled"
    · simp only [hreason, if_true]
      exact stepped_reportEnd context s rfl (by simp [RunContext.event]) (by simp)
    · simp only [hreason, if_false]
      exact stepped_reportEnd context s rfl (by simp [RunContext.event, hreason])
        (fun _ => rfl)

theorem stepped (s : PromptLoop) (line : Reading) :
    Stepped context s (lineKind py line) (stepReading context py s line) := by
  cases line with
  | overrun error => exact .raises
  | line text =>
    simp only [lineKind, stepReading]
    cases parsePromptEventLine py text with
    | error error => exact .raises
    | ok parsed =>
      cases parsed with
      | none => exact .silent
      | some event => exact stepped_handleEvent context py s event

end Loop

/-! ## The loop before and after the end of the prompt -/

/-- How the lines leave the prompt: still running, with something raised first, or ended, with
the lines that come after. -/
inductive PromptEnd where
  | running
  | raised
  | ended (completes : Bool) (after : List Reading)

def promptEnd (py : Python) : List Reading → PromptEnd
  | [] => .running
  | line :: rest =>
    match lineKind py line with
    | .ends completes => .ended completes rest
    | .raises => .raised
    | _ => promptEnd py rest

section Runs

variable {context : RunContext} {py : Python}

theorem endsRun_of_progress (h : event.eventType = .progress) : endsRun event = false := by
  simp [endsRun, h]

/-- By induction on the lines: once the end is reported, the rest yields progress at most. -/
theorem readPrompt_after (context : RunContext) (py : Python) (lines : List Reading) :
    ∀ {s : PromptLoop}, s.terminalEmitted = true →
    (∀ event ∈ (context.readPrompt py s lines).1, endsRun event = false) ∧
      (∀ next, (context.readPrompt py s lines).2 = .ok next → next.terminalEmitted = true) ∧
      ((context.readPrompt py s lines).1 = [] ∧
          (∃ next, (context.readPrompt py s lines).2 = .ok next) ↔
        ∀ line ∈ lines, (lineKind py line).quiet = true) := by
  induction lines with
  | nil =>
    intro s hs
    simp [RunContext.readPrompt, hs]
  | cons line rest ih =>
    intro s hs
    rw [readPrompt_cons, List.forall_mem_cons]
    have hstepped := stepped context py s line
    generalize lineKind py line = kind at hstepped ⊢
    generalize stepReading context py s line = outcome at hstepped ⊢
    cases hstepped with
    | raises => simp [LineKind.quiet]
    | silent => simpa [LineKind.quiet] using ih hs
    | @output text event hprogress =>
      have h := ih (s := { s with outputChunks := s.outputChunks ++ [text] }) hs
      refine ⟨?_, h.2.1, by simp [LineKind.quiet]⟩
      simpa [endsRun_of_progress hprogress] using h.1
    | @status text event hprogress =>
      have h := ih (s := { s with latestStatus := some text }) hs
      refine ⟨?_, h.2.1, by simp [LineKind.quiet]⟩
      simpa [endsRun_of_progress hprogress] using h.1
    | ends hfree => rw [hs] at hfree; exact absurd hfree (by simp)
    | again _ => simpa [LineKind.quiet] using ih hs

/-- What the loop comes to from a state without an end, by the end that the lines bring. -/
inductive Looped (context : RunContext) (py : Python) (s : PromptLoop) (lines : List Reading) :
    PromptEnd → List ExecutorEvent × Except String PromptLoop → Prop where
  | running {events next} : (∀ event ∈ events, endsRun event = false) →
      next.terminalEmitted = false →
      next.outputChunks = s.outputChunks ++ outputTexts py lines →
      Looped context py s lines .running (events, .ok next)
  | raised {events error} : (∀ event ∈ events, endsRun event = false) →
      Looped context py s lines .raised (events, .error error)
  | ended {events completes after atEnd event next} :
      (∀ event ∈ events, endsRun event = false) → endsRun event = true →
      (event.eventType = .completed ↔ completes = true) →
      (completes = true → event.message = some (context.finalText atEnd)) →
      atEnd.outputChunks ++ outputTexts py after = s.outputChunks ++ outputTexts py lines →
      next.terminalEmitted = true →
      Looped context py s lines (.ended completes after)
        (events ++ event :: (context.readPrompt py next after).1,
          (context.readPrompt py next after).2)

/-- A line before the end, which yields progress at most. -/
theorem Looped.cons {s next : PromptLoop} {line : Reading} {rest : List Reading}
    {ending : PromptEnd} {result : List ExecutorEvent × Except String PromptLoop} {events : List ExecutorEvent}
    (h : Looped context py next rest ending result)
    (hevents : ∀ event ∈ events, endsRun event = false)
    (hchunks : next.outputChunks ++ outputTexts py rest =
      s.outputChunks ++ outputTexts py (line :: rest)) :
    Looped context py s (line :: rest) ending (events ++ result.1, result.2) := by
  have hboth : ∀ {later : List ExecutorEvent}, (∀ event ∈ later, endsRun event = false) →
      ∀ event ∈ events ++ later, endsRun event = false := by
    intro later hlater event hmem
    rcases List.mem_append.mp hmem with h | h
    · exact hevents event h
    · exact hlater event h
  cases h with
  | running hlater hfree houtput => exact .running (hboth hlater) hfree (houtput.trans hchunks)
  | raised hlater => exact .raised (hboth hlater)
  | ended hlater hends htype hmessage houtput hdone =>
    rw [← List.append_assoc]
    exact .ended (hboth hlater) hends htype hmessage (houtput.trans hchunks) hdone

/-- By induction on the lines: up to the end nothing else ends the run. -/
theorem looped (lines : List Reading) : ∀ {s : PromptLoop}, s.terminalEmitted = false →
    Looped context py s lines (promptEnd py lines) (context.readPrompt py s lines) := by
  induction lines with
  | nil =>
    intro s hs
    exact .running (by simp) hs (by simp [outputTexts])
  | cons line rest ih =>
    intro s hs
    rw [readPrompt_cons, promptEnd]
    have hstepped := stepped context py s line
    have houtput : outputTexts py (line :: rest) =
        (lineKind py line).output?.toList ++ outputTexts py rest := by
      rw [outputTexts, List.filterMap_cons]
      cases (lineKind py line).output? <;> rfl
    generalize lineKind py line = kind at hstepped houtput ⊢
    generalize stepReading context py s line = outcome at hstepped ⊢
    cases hstepped with
    | raises => exact .raised (by simp)
    | silent => exact (ih hs).cons (by simp) (by rw [houtput]; rfl)
    | @output text event hprogress =>
      refine (ih (s := { s with outputChunks := s.outputChunks ++ [text] }) hs).cons ?_ ?_
      · simp [endsRun_of_progress hprogress]
      · rw [houtput]
        simp [LineKind.output?]
    | @status text event hprogress =>
      refine (ih (s := { s with latestStatus := some text }) hs).cons ?_ ?_
      · simp [endsRun_of_progress hprogress]
      · rw [houtput]
        rfl
    | @ends completes event _ hends htype hmessage =>
      have hnone : ∀ event ∈ ([] : List ExecutorEvent), endsRun event = false := by simp
      refine .ended hnone hends htype hmessage ?_ rfl
      rw [houtput]
      rfl
    | again hdone => rw [hs] at hdone; exact absurd hdone (by simp)

end Runs

/-! ## The protocol of the stream -/

/-- One event ends the run, the last one; a completed run reports all the output text. -/
structure StreamLaw (py : Python) (lines : List Reading) (events : List ExecutorEvent) : Prop where
  ends : ∃ before last, events = before ++ [last] ∧ endsRun last = true ∧
    ∀ event ∈ before, endsRun event = false
  completed : ∀ event ∈ events, event.eventType = .completed → outputTexts py lines ≠ [] →
    event.message = some (Text.strip (String.join (outputTexts py lines)))

/-- No output text, or one that is not blank. -/
def Spoken (py : Python) (lines : List Reading) : Prop :=
  outputTexts py lines = [] ∨ Text.strip (String.join (outputTexts py lines)) ≠ ""

/-- After the line that ends the prompt nothing is said or raised, and a completed run has not
only blank output. -/
def Orderly (py : Python) (started : Except String Unit) (lines : List Reading)
    (ended : ProcessEnd) : Prop :=
  started = .ok () →
    match promptEnd py lines with
    | .raised => True
    | .ended completes after =>
      (∀ line ∈ after, (lineKind py line).quiet = true) ∧
        (∃ stderr, ended.stderr = .ok stderr) ∧ (completes = true → Spoken py lines)
    | .running => (∃ stderr, ended.stderr = .ok stderr) → ended.returncode = 0 → Spoken py lines

variable {after : List Reading}

section Law

variable {context : RunContext} {py : Python} {lines : List Reading}
  {before later events : List ExecutorEvent} {event : ExecutorEvent}

theorem not_completed_of_not_ends (h : endsRun event = false) : event.eventType ≠ .completed := by
  intro hcompleted
  simp [endsRun, hcompleted] at h

/-- With one end there is nothing after it. -/
theorem StreamLaw.after_eq_nil (before : List ExecutorEvent)
    (h : StreamLaw py lines (before ++ event :: later))
    (hends : endsRun event = true) : later = [] := by
  obtain ⟨first, last, heq, -, hfirst⟩ := h.ends
  by_contra hlater
  have hmem : event ∈ first := by
    have hdrop := congrArg List.dropLast heq
    rw [List.dropLast_append_of_ne_nil (by simp), List.dropLast_cons_of_ne_nil hlater,
      List.dropLast_concat] at hdrop
    rw [← hdrop]
    simp
  rw [hfirst event hmem] at hends
  exact absurd hends (by simp)

theorem StreamLaw.not_early (h : StreamLaw py lines events) (mark : Bool) (marks : List Bool) :
    events.map endsRun ≠ true :: mark :: marks := by
  intro hmarks
  obtain ⟨event, later, rfl, hends, hlater⟩ := List.map_eq_cons_iff.mp hmarks
  have hnil := StreamLaw.after_eq_nil [] h hends
  rw [hnil] at hlater
  exact absurd hlater (by simp)

/-- The law, from what ends the run. -/
theorem streamLaw_snoc (hbefore : ∀ event ∈ before, endsRun event = false)
    (hends : endsRun event = true)
    (hmessage : event.eventType = .completed → outputTexts py lines ≠ [] →
      event.message = some (Text.strip (String.join (outputTexts py lines)))) :
    StreamLaw py lines (before ++ [event]) where
  ends := ⟨before, event, rfl, hends, hbefore⟩
  completed := by
    intro other hother hcompleted houtput
    rcases List.mem_append.mp hother with hmem | hmem
    · exact absurd hcompleted (not_completed_of_not_ends (hbefore other hmem))
    · rw [List.mem_singleton] at hmem
      subst hmem
      exact hmessage hcompleted houtput

/-- The message of a completed run is the output text, unless that is blank. -/
theorem finalText_eq_iff (context : RunContext) {s : PromptLoop}
    (h : s.outputChunks = outputTexts py lines) : (outputTexts py lines ≠ [] →
      some (context.finalText s) = some (Text.strip (String.join (outputTexts py lines)))) ↔
        Spoken py lines := by
  rw [Spoken, RunContext.finalText, h]
  by_cases hblank : Text.strip (String.join (outputTexts py lines)) = ""
  · have hother : (s.latestStatus.filter (· ≠ "")).getD ("Completed: " ++ context.taskTitle) ≠
        "" := by
      cases hs : s.latestStatus.filter (· ≠ "") with
      | none =>
        intro heq
        have hlength := congrArg String.length heq
        simp at hlength
      | some text => simpa using (Option.filter_eq_some_iff.mp hs).2
    generalize (s.latestStatus.filter (· ≠ "")).getD ("Completed: " ++ context.taskTitle) = other
      at hother ⊢
    simp [hblank, hother]
  · simp [hblank]

/-- Quiet lines bring no output text. -/
theorem chunks_of_quiet {chunks : List String}
    (h : chunks ++ outputTexts py after = outputTexts py lines)
    (hquiet : ∀ line ∈ after, (lineKind py line).quiet = true) : chunks = outputTexts py lines := by
  have hnone : outputTexts py after = [] := by
    refine List.filterMap_eq_nil_iff.mpr fun line hline => ?_
    have hkind := hquiet line hline
    cases hk : lineKind py line <;> simp_all [LineKind.quiet, LineKind.output?]
  rw [← h, hnone, List.append_nil]

end Law

variable {events : List ExecutorEvent} {next : PromptLoop}

section Iff

variable (context : RunContext) (py : Python) (lines : List Reading) (ended : ProcessEnd)

theorem streamLaw_failure {before : List ExecutorEvent}
    (hbefore : ∀ event ∈ before, endsRun event = false) (error : String) :
    StreamLaw py lines (before ++ [context.failure error]) :=
  streamLaw_snoc hbefore rfl fun hcompleted => by
    simp [RunContext.failure, RunContext.event] at hcompleted

/-- No line ends the prompt: the exit of the process does. -/
theorem streamLaw_running
    (hevents : ∀ event ∈ events, endsRun event = false) (hfree : next.terminalEmitted = false)
    (hchunks : next.outputChunks = outputTexts py lines) :
    StreamLaw py lines
        (match ended.stderr with
        | .error error => events ++ [context.failure error]
        | .ok stderr => events ++ context.finish next ended stderr) ↔
      ((∃ stderr, ended.stderr = .ok stderr) → ended.returncode = 0 → Spoken py lines) := by
  cases hstderr : ended.stderr with
  | error error => simpa using streamLaw_failure context py lines hevents error
  | ok stderr =>
    by_cases hcode : ended.returncode = 0
    · simp only [RunContext.finish, hfree, hcode, Bool.false_eq_true, if_false, ne_eq,
        not_true_eq_false, Except.ok.injEq, exists_eq', forall_const]
      rw [← finalText_eq_iff context hchunks]
      constructor
      · intro h houtput
        exact h.completed _ (List.mem_append_right _ (List.mem_singleton_self _)) rfl houtput
      · intro h
        exact streamLaw_snoc hevents rfl fun _ => h
    · simp only [RunContext.finish, hfree, hcode, Bool.false_eq_true, if_false, ne_eq,
        not_false_eq_true, if_true, false_imp_iff, implies_true, iff_true]
      exact streamLaw_snoc hevents rfl fun hcompleted => by simp [RunContext.event] at hcompleted

/-- A line ends the prompt: what is left to say or to fail breaks the law. -/
theorem streamLaw_ended
    {atEnd : PromptLoop}
    (hevents : ∀ event ∈ events, endsRun event = false) (hends : endsRun event = true)
    (htype : event.eventType = .completed ↔ completes = true)
    (hmessage : completes = true → event.message = some (context.finalText atEnd))
    (houtput : atEnd.outputChunks ++ outputTexts py after = outputTexts py lines)
    (hdone : next.terminalEmitted = true) :
    StreamLaw py lines
        (match (context.readPrompt py next after).2 with
        | .error error =>
          events ++ event :: (context.readPrompt py next after).1 ++ [context.failure error]
        | .ok s =>
          match ended.stderr with
          | .error error =>
            events ++ event :: (context.readPrompt py next after).1 ++ [context.failure error]
          | .ok stderr =>
            events ++ event :: (context.readPrompt py next after).1 ++
              context.finish s ended stderr) ↔
      (∀ line ∈ after, (lineKind py line).quiet = true) ∧
        (∃ stderr, ended.stderr = .ok stderr) ∧ (completes = true → Spoken py lines) := by
  obtain ⟨-, hterminal, hquiet⟩ := readPrompt_after context py after hdone
  generalize context.readPrompt py next after = result at hterminal hquiet ⊢
  obtain ⟨later, outcome⟩ := result
  simp only at hterminal hquiet ⊢
  rw [← hquiet]
  have hnot : ∀ {more : List ExecutorEvent} {error : String},
      ¬ StreamLaw py lines (events ++ event :: more ++ [context.failure error]) := by
    intro more error hlaw
    rw [List.append_assoc, List.cons_append] at hlaw
    simpa using hlaw.after_eq_nil events hends
  cases outcome with
  | error error => exact iff_of_false hnot (by simp)
  | ok s =>
    cases hstderr : ended.stderr with
    | error error => exact iff_of_false hnot (by simp)
    | ok stderr =>
      have hfinish : context.finish s ended stderr = [] := by
        rw [RunContext.finish, hterminal s rfl]
        rfl
      have htext : later = [] → (event.eventType = .completed → outputTexts py lines ≠ [] →
          event.message = some (Text.strip (String.join (outputTexts py lines)))) →
          completes = true → Spoken py lines := by
        intro hlater hsaid hcompletes
        have hchunks := chunks_of_quiet houtput (hquiet.mp ⟨hlater, s, rfl⟩)
        rw [hmessage hcompletes, htype] at hsaid
        exact (finalText_eq_iff context hchunks).mp (hsaid hcompletes)
      simp only [hfinish, List.append_nil]
      constructor
      · intro hlaw
        have hlater := hlaw.after_eq_nil events hends
        refine ⟨⟨hlater, s, rfl⟩, ⟨stderr, rfl⟩, htext hlater (hlaw.completed event (by simp))⟩
      · rintro ⟨⟨hlater, -⟩, -, hspoken⟩
        have hchunks := chunks_of_quiet houtput (hquiet.mp ⟨hlater, s, rfl⟩)
        rw [hlater]
        refine streamLaw_snoc hevents hends fun hcompleted => ?_
        have hcompletes := htype.mp hcompleted
        rw [hmessage hcompletes]
        exact (finalText_eq_iff context hchunks).mpr (hspoken hcompletes)

/-- The events of a run keep the protocol exactly when its lines are orderly. -/
theorem stream_law_iff (started : Except String Unit) :
    StreamLaw py lines (context.runTask py started lines ended) ↔
      Orderly py started lines ended := by
  cases started with
  | error error =>
    have hlaw : StreamLaw py lines ([] ++ [context.failure error]) :=
      streamLaw_failure context py lines (by simp) error
    exact iff_of_true hlaw fun hstarted => absurd hstarted (by simp)
  | ok _ =>
    have hlooped : Looped context py {} lines (promptEnd py lines)
        (context.readPrompt py {} lines) := looped lines rfl
    simp only [RunContext.runTask, Orderly, forall_const]
    generalize promptEnd py lines = ending at hlooped ⊢
    generalize context.readPrompt py {} lines = result at hlooped ⊢
    cases hlooped with
    | running hevents hfree hchunks =>
      exact streamLaw_running context py lines ended hevents hfree hchunks
    | raised hevents => exact iff_of_true (streamLaw_failure context py lines hevents _) trivial
    | ended hevents hends htype hmessage houtput hdone =>
      exact streamLaw_ended context py lines ended hevents hends htype hmessage houtput hdone

end Iff

/-- A decoder that knows one line, the end of the prompt. -/
def doneOnly : Python where
  lower := String.toLower
  loads := fun text =>
    if text = "\x7b\"type\": \"done\"\x7d" then .value (.dict [("type", .str "done")])
    else .decodeError
  str := fun _ => .ok ""

/-- After the end a status line is reported as progress, and an overlong line as a failure. -/
theorem talk_after_done :
    let context : RunContext := ⟨"run-1", "session-1", "Say hello"⟩
    let ended : ProcessEnd := ⟨0, .ok []⟩
    let done : Reading := .line "\x7b\"type\": \"done\"\x7d\n"
    let bye : List Reading := [done, .line "bye\n"]
    let overlong : List Reading :=
      [done, .overrun "Separator is found, but chunk is longer than limit"]
    ¬ StreamLaw doneOnly bye (context.runTask doneOnly (.ok ()) bye ended) ∧
      ¬ StreamLaw doneOnly overlong (context.runTask doneOnly (.ok ()) overlong ended) := by
  intro context ended done bye overlong
  have hbye : ((context.runTask doneOnly (.ok ()) bye ended).map endsRun) = [true, false] := by
    decide
  have hoverlong : ((context.runTask doneOnly (.ok ()) overlong ended).map endsRun) =
      [true, true] := by decide
  exact ⟨fun h => h.not_early _ _ hbye, fun h => h.not_early _ _ hoverlong⟩

end Newbro.Acpx
