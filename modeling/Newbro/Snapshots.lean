import Newbro.BroThreads
import Newbro.OutboundTurns
import Newbro.SessionMoves

/-!
# Snapshots and private native parameters

What `SessionRuntime.snapshot` shows of a session, and two histories of the session that
differ only in what clients must not see: the parameters of the native response of BLOCKED
events. `lower` is `str.lower`; the threads and timeline turns of a snapshot are what an
arbitrary `project` makes of the lists that `snapshot_parts` reads. Personas and nodes are
empty lists in a snapshot; the tables that no event of a run or a turn writes are left out.
-/
namespace Newbro.Snapshots

open Library Protocol BlockedRequests BroThreads
  OutboundTurns SessionRuntime Reconcile Option

universe u

/-! ## The snapshot -/

/-- The native Codex threads that a session has imported. -/
structure ImportedThreads where
  threads : Table BroThread.threadId
  resumeHandles : Dict String AgentResumeHandle

/-- The session with its outbound requests, the executor turns of its threads and the
threads it has imported. -/
structure State where
  session : SessionState
  turns : TurnBoard
  imported : ImportedThreads

def initialState : State :=
  ⟨SessionRuntime.initialState, ⟨Table.empty, Table.empty⟩, ⟨Table.empty, Table.empty⟩⟩

/-- `entries[-limit:]` -/
def lastEntries (limit : Nat) (entries : List TaskExecutionDetailEntry) :
    List TaskExecutionDetailEntry := entries.drop (entries.length - limit)

/-- `list_recent_task_execution_details`: the last entries of the tasks that were last
active. -/
def listRecentTaskExecutionDetails (taskLimit entryLimit : Nat)
    (details : List TaskExecutionDetailEntry) : List (String × List TaskExecutionDetailEntry) :=
  if taskLimit = 0 ∨ entryLimit = 0 then []
  else
    let taskIds := (details.reverse.map TaskExecutionDetailEntry.taskId).eraseDups
    (taskIds.take taskLimit).map fun taskId =>
      (taskId, lastEntries entryLimit (details.filter fun entry => entry.taskId = taskId))

/-- The lists that `snapshot_parts` reads. -/
structure ProjectionInput where
  tasks : List Task
  sessions : List ExecutionSession
  runs : List ExecutionRun
  summaries : List TaskSummary
  personas : List Persona
  importedThreads : List BroThread
  executorTurns : List TimelineTurn

/-- `SessionSnapshot`; `projected` stands for the bro threads and their timeline turns. -/
structure Snapshot (α : Type u) where
  tasks : List Task
  executionSessions : List ExecutionSession
  executionRuns : List ExecutionRun
  bindings : List SessionBinding
  summaries : List TaskSummary
  outboundTurnRequests : List OutboundTurnRequest
  projected : α
  interactionRequests : List InteractionRequest
  recentExecutionDetails : List (String × List TaskExecutionDetailEntry)

variable (b : Blackboard)

/-- The summaries of the tasks, in the order of the tasks. -/
def taskSummaries : List TaskSummary :=
  b.tasks.entries.filterMap fun task => b.getSummary task.taskId

def executorTurnSnapshot (turns : TurnBoard) : List TimelineTurn :=
  turns.timeline.entries.flatMap Prod.snd

def snapshot {α : Type u} (project : ProjectionInput → α) (s : State) : Snapshot α :=
  let b := s.session.board
  let tasks := b.tasks.entries
  let sessions := b.sessions.entries
  let runs := b.runs.entries
  let summaries := taskSummaries b
  { tasks := tasks
    executionSessions := sessions
    executionRuns := runs
    bindings := b.bindings.entries
    summaries := summaries
    outboundTurnRequests := s.turns.requests.entries
    projected := project
      { tasks := tasks
        sessions := sessions
        runs := runs
        summaries := summaries
        personas := b.personas.entries
        importedThreads := s.imported.threads.entries
        executorTurns := executorTurnSnapshot s.turns }
    interactionRequests := b.requests.entries.map sanitizeInteractionRequest
    recentExecutionDetails := listRecentTaskExecutionDetails 10 8 b.details }

/-! ## The session with its outbound turns -/

variable (lower : String → String)

def buildRequestFromSummary (requestId : String) (task : Task)
    (summary : TaskSummary) : InteractionRequest :=
  let prompt := (summary.conversationalSummary.filter (· ≠ "")).getD
    (task.title ++ " needs your input.")
  let kind := classifyBlocked lower prompt none
  { requestId := requestId
    taskId := some task.taskId
    kind := kind
    prompt := prompt
    details := metadataOf (taskDetails task)
    availableActions := InteractionRequests.actionsForKind kind }

inductive Label where
  | session (label : SessionRuntime.Label)
  | requestFromRun (interactionId runId : String)
  | requestFromSummary (interactionId taskId : String)
  | putTurnRequest (request : OutboundTurnRequest)
  | codexTurnEvent (interactionId : String) (event : CodexTurnEvent)
  | updateThreadTurns (threadId : String) (update : List TimelineTurn → List TimelineTurn)
  | setImportedThreads (imported : ImportedThreads)

structure Config where
  session : SessionCommands.Config
  lower : String → String

/-- `handle_blackboard_write` for a run. -/
def requestFromRun (b : Blackboard) (interactionId runId : String) :
    Option Blackboard :=
  match b.getRun runId with
  | none => none
  | some run =>
    match b.getTask run.taskId with
    | none => none
    | some task =>
      SessionRuntime.raiseRequest b
        (buildRequestFromRun lower interactionId task run (b.getSummary task.taskId))

/-- `handle_blackboard_write` for a summary. -/
def requestFromSummary (b : Blackboard)
    (interactionId taskId : String) : Option Blackboard :=
  match b.getTask taskId, b.getSummary taskId with
  | some task, some summary =>
    SessionRuntime.raiseRequest b (buildRequestFromSummary lower interactionId task summary)
  | _, _ => none

variable (cfg : Config) (s : State)

/-- One step. Requests for input are raised from what blocked, not as the session's own
label has them; the other writers of timeline turns may do to a thread what they like, and
so may the writers of the imported threads. -/
def step (label : Label) : Option State :=
  match label with
  | .session (.raiseRequest _) => none
  | .session label =>
    (SessionRuntime.step cfg.session s.session label).map fun session =>
      { s with session := session }
  | .requestFromRun interactionId runId =>
    (requestFromRun cfg.lower s.session.board interactionId runId).map fun board =>
      { s with session := { s.session with board := board } }
  | .requestFromSummary interactionId taskId =>
    (requestFromSummary cfg.lower s.session.board interactionId taskId).map fun board =>
      { s with session := { s.session with board := board } }
  | .putTurnRequest request =>
    some { s with turns := { s.turns with requests := s.turns.requests.put request } }
  | .codexTurnEvent interactionId event =>
    if s.session.board.requests.contains interactionId then none
    else
      let handled :=
        handleCodexTurnEvent cfg.lower s.session.board s.turns interactionId event
      some { s with session := { s.session with board := handled.1 }, turns := handled.2 }
  | .updateThreadTurns threadId update =>
    let turns := (s.turns.timeline.lookup threadId).getD []
    let timeline := s.turns.timeline.set threadId (update turns)
    some { s with turns := { s.turns with timeline := timeline } }
  | .setImportedThreads imported => some { s with imported := imported }

def system : System State Label where
  initial s := s = initialState
  step := step cfg

/-! ## Histories that differ in private parameters -/

variable (metadata : Metadata)

/-- The metadata of a BLOCKED event whose native response has these parameters. -/
def withParams (native params : Fields) : Metadata :=
  Dict.set metadata "native_response"
    (.dict (RunManager.setField native "params" (.dict params)))

/-- A BLOCKED event with either of two lists of native parameters: they agree on the
client-safe keys and give the same proposal details. -/
structure PrivateChange where
  metadata : Metadata
  native : Fields
  params : Fields
  params' : Fields
  sameSafe : ∀ key ∈ clientSafeNativeResponseParamKeys, params.lookup key = params'.lookup key
  sameProposal :
    proposalDetails (some (.dict (withParams metadata native params).entries)) =
      proposalDetails (some (.dict (withParams metadata native params').entries))

namespace PrivateChange

variable (change : PrivateChange)

def left : Metadata := withParams change.metadata change.native change.params
def right : Metadata := withParams change.metadata change.native change.params'

end PrivateChange

/-- What happens in two histories at once. -/
inductive PairLabel where
  | same (label : Label)
  | blockedRun (taskId : String) (event : ExecutorEvent) (handle : Option AgentResumeHandle)
      (change : PrivateChange)
  | blockedTurn (interactionId : String) (event : CodexTurnEvent) (change : PrivateChange)

def blockedRunEvent (event : ExecutorEvent) (metadata : Metadata) : ExecutorEvent :=
  { event with eventType := .blocked, metadata := metadata }

@[simp] theorem eventType_blockedRunEvent (event : ExecutorEvent) (metadata : Metadata) :
    (blockedRunEvent event metadata).eventType = .blocked := rfl

def blockedTurnEvent (event : CodexTurnEvent) (metadata : Metadata) : CodexTurnEvent :=
  { event with eventType := "blocked", metadata := metadata }

/-- The label of one history, where `metadata` picks the parameters. -/
def PairLabel.side (metadata : PrivateChange → Metadata) : PairLabel → Option Label
  | .same label => some label
  | .blockedRun taskId event handle change =>
    some (.session (.runEvent taskId (blockedRunEvent event (metadata change)) handle))
  | .blockedTurn interactionId event change =>
    some (.codexTurnEvent interactionId (blockedTurnEvent event (metadata change)))

/-- Two histories that differ only in the private parameters. -/
def pairSystem : System (State × State) PairLabel :=
  (system cfg).pair (PairLabel.side PrivateChange.left) (PairLabel.side PrivateChange.right)

/-- Clients see the same in both histories. -/
def SameSnapshot {α : Type u} (project : ProjectionInput → α) (s : State × State) : Prop :=
  snapshot project s.1 = snapshot project s.2

/-- The event of a run comes after its task was cancelled. -/
def runDropped (taskId : String) : Bool :=
  (s.session.board.getTask taskId).any fun task => task.status = .cancelled

/-- The event answers no outbound request of the session. -/
def turnDropped (event : CodexTurnEvent) : Bool :=
  ((s.turns.requests.get? event.requestId).filter fun request =>
    answersRequest request event).isNone

/-- A run event whose parameters differ is dropped on arrival. -/
def RunEventDropped (s : State × State) : PairLabel → Prop
  | .blockedRun taskId _ _ change => change.params ≠ change.params' → runDropped s.1 taskId = true
  | _ => True

/-- A turn event whose parameters differ is dropped on arrival. -/
def TurnEventDropped (s : State × State) : PairLabel → Prop
  | .blockedTurn _ event change => change.params ≠ change.params' → turnDropped s.1 event = true
  | _ => True

/-! ## Dropped events -/

/-- An event of a cancelled task changes nothing, whatever its metadata. -/
theorem drainedEvent_ignored {task : Task} (hc : task.status = .cancelled) (s : SessionState)
    (c : Coroutine) (handle : RunHandle) (run : ExecutionRun) (event : ExecutorEvent)
    (resume : Option AgentResumeHandle) (metadata metadata' : Metadata) :
    drainedEvent s c handle task run (blockedRunEvent event metadata) resume =
      drainedEvent s c handle task run (blockedRunEvent event metadata') resume := by
  have hignored : ∀ metadata,
      RunManager.applyEvent s.board task run (blockedRunEvent event metadata) = s.board := by
    intro metadata
    simp [RunManager.applyEvent, RunManager.ignores, hc]
  simp only [drainedEvent, drainEvent, hignored, eventType_blockedRunEvent]

theorem runEvent_dropped (cfg : SessionCommands.Config) {s : SessionState} {taskId : String}
    (hdropped : (s.board.getTask taskId).any (fun task => task.status = .cancelled) = true)
    (event : ExecutorEvent) (handle : Option AgentResumeHandle) (metadata metadata' : Metadata) :
    SessionRuntime.step cfg s (.runEvent taskId (blockedRunEvent event metadata) handle) =
      SessionRuntime.step cfg s (.runEvent taskId (blockedRunEvent event metadata') handle) := by
  cases htask : s.board.getTask taskId with
  | none =>
    rw [htask] at hdropped
    cases hdropped
  | some task =>
    have hcancelled : task.status = .cancelled := by simpa [htask] using hdropped
    simp only [SessionRuntime.step, coroutineStep, Label.coroutineTask, htask]
    cases s.coroutine? taskId with
    | none => rfl
    | some c =>
      simp only [executeStep, eventType_blockedRunEvent,
        drainedEvent_ignored hcancelled s c _ _ event handle metadata metadata']
      rfl

theorem codexTurnEvent_dropped {lower : String → String} {s : State} {event : CodexTurnEvent}
    (hdropped : turnDropped s event = true) (board : Blackboard) (interactionId : String)
    (metadata : Metadata) :
    handleCodexTurnEvent lower board s.turns interactionId (blockedTurnEvent event metadata) =
      (board, s.turns) := by
  have hnone := isNone_iff_eq_none.mp hdropped
  have hsame : (s.turns.requests.get? (blockedTurnEvent event metadata).requestId).filter
      (fun request => answersRequest request (blockedTurnEvent event metadata)) = none := hnone
  rw [handleCodexTurnEvent, hsame]

/-- Equal histories stay equal while the events that differ are dropped. -/
theorem eq_of_dropped {cfg : Config} {s s' : State × State} {label : PairLabel}
    (heq : s.1 = s.2) (hrun : RunEventDropped s label) (hturn : TurnEventDropped s label)
    (h : (pairSystem cfg).step s label = some s') : s'.1 = s'.2 := by
  obtain ⟨hleft, hright⟩ := System.pair_step_eq_some.mp h
  rw [← heq] at hright
  refine some.inj (hleft.symm.trans (Eq.trans ?_ hright))
  cases label with
  | same label => rfl
  | blockedRun taskId event handle change =>
    by_cases hp : change.params = change.params'
    · simp only [PairLabel.side, PrivateChange.left, PrivateChange.right, hp]
    · have hstep := runEvent_dropped cfg.session (hrun hp) event handle change.left
        change.right
      simp only [PairLabel.side, elim_some, system, step, hstep]
  | blockedTurn interactionId event change =>
    by_cases hp : change.params = change.params'
    · simp only [PairLabel.side, PrivateChange.left, PrivateChange.right, hp]
    · simp only [PairLabel.side, elim_some, system, step, codexTurnEvent_dropped (hturn hp)]

/-! ## Events that are not dropped -/

theorem PrivateChange.params_eq {change : PrivateChange}
    (h : change.left.entries = change.right.entries) : change.params = change.params' := by
  have hlookup := congrArg (List.lookup "native_response") h
  simp only [Dict.lookup_entries, PrivateChange.left, PrivateChange.right, withParams,
    Dict.lookup_set_self, some.injEq, Value.dict.injEq] at hlookup
  have hparams := congrArg (List.lookup "params") hlookup
  simpa only [RunManager.lookup_setField_self, some.injEq, Value.dict.injEq] using hparams

theorem withParams_entries_ne_nil (native params : Fields) :
    (withParams metadata native params).entries ≠ [] := by
  intro hnil
  have hlookup : Dict.lookup (withParams metadata native params) "native_response" = none := by
    rw [← Dict.lookup_entries, hnil]
    rfl
  rw [withParams, Dict.lookup_set_self] at hlookup
  cases hlookup

/-- The run that the coroutine of a task drains. -/
def drainedRunId (s : SessionState) (taskId : String) : Option String :=
  ((s.coroutine? taskId).bind fun c => c.stage.handle?).map RunHandle.runId

/-- After a BLOCKED event that is applied, the run carries the metadata of the event. -/
theorem blockedEvent_of_step {cfg : SessionCommands.Config} {s s' : SessionState}
    {taskId : String} {event : ExecutorEvent} {handle : Option AgentResumeHandle}
    {metadata : Metadata} (hne : metadata.entries ≠ [])
    (hlive : ¬ (s.board.getTask taskId).any (fun task => task.status = .cancelled) = true)
    (h : SessionRuntime.step cfg s (.runEvent taskId (blockedRunEvent event metadata) handle) =
      some s') :
    ((drainedRunId s taskId).bind s'.board.getRun).bind
        (fun run => Dict.lookup run.metadata "blocked_event") =
      some (.dict metadata.entries) := by
  simp only [SessionRuntime.step, coroutineStep, Label.coroutineTask] at h
  split at h
  · rename_i c task hc ht
    obtain ⟨h', run, hstage, hrun, hs'⟩ := runEvent_cases h
    have hid : run.runId = h'.runId := Table.key_of_get? hrun
    have htask : task.taskId = taskId := Table.key_of_get? ht
    have hgoes : RunManager.ignores task (blockedRunEvent event metadata) = false := by
      have hstatus : ¬ task.status = .cancelled := by simpa [ht] using hlive
      simp [RunManager.ignores, hstatus]
    have hboard : s'.board = settleRun
        (RunManager.applyEvent s.board task run (blockedRunEvent event metadata))
        (drainedEvent s c h' task run (blockedRunEvent event metadata) handle).live c.claimed h'
        (RunManager.appliedTask task (blockedRunEvent event metadata))
        (RunManager.appliedRun task run (blockedRunEvent event metadata)) := by
      have hterminal : isTerminalEvent (blockedRunEvent event metadata).eventType = true := rfl
      rw [hs', if_pos hterminal, board_dropCoroutine]
      exact drainEvent_of_terminal (htask ▸ ht) (hid ▸ hrun) hterminal ..
    have hget : s'.board.getRun h'.runId =
        some (RunManager.updateRun run (blockedRunEvent event metadata)) := by
      rw [hboard, settleRun_frame (fun b => b.getRun h'.runId) (fun _ _ => rfl) (fun _ _ => rfl)
        (fun _ _ => rfl) (fun _ _ => rfl), ← hid, RunManager.getRun_applyEvent (hid ▸ hrun),
        RunManager.appliedRun, hgoes]
      rfl
    have hdrained : drainedRunId s taskId = some h'.runId := by
      simp [drainedRunId, hc, hstage, Stage.handle?]
    have hnotEmpty : metadata.entries.isEmpty = false := by simpa using hne
    simp only [hdrained, bind_some, hget, RunManager.updateRun, blockedRunEvent,
      RunManager.recordEventMetadata, hnotEmpty, Bool.false_eq_true, if_false,
      Dict.lookup_set_self]
  · cases h

/-- Equal histories that still show the same after a run event that differs had it
dropped. -/
theorem dropped_of_sameSnapshot {α : Type u} {project : ProjectionInput → α} {cfg : Config}
    {s s' : State × State} {label : PairLabel} (heq : s.1 = s.2)
    (h : (pairSystem cfg).step s label = some s') (hsame : SameSnapshot project s') :
    RunEventDropped s label := by
  cases label with
  | same | blockedTurn => trivial
  | blockedRun taskId event handle change =>
    intro hparams
    by_contra hlive
    obtain ⟨hleft, hright⟩ := System.pair_step_eq_some.mp h
    obtain ⟨session, hsession, hs₁⟩ := map_eq_some_iff.mp hleft
    obtain ⟨session', hsession', hs₂⟩ := map_eq_some_iff.mp hright
    rw [← heq] at hsession'
    have hruns : session.board.runs = session'.board.runs := by
      have hentries := congrArg Snapshot.executionRuns hsame
      rw [← hs₁, ← hs₂] at hentries
      exact Table.ext hentries
    have hleftEvent := blockedEvent_of_step (withParams_entries_ne_nil _ _ _) hlive hsession
    have hrightEvent := blockedEvent_of_step (withParams_entries_ne_nil _ _ _) hlive hsession'
    rw [show session.board.getRun = session'.board.getRun from congrArg Table.get? hruns,
      hrightEvent] at hleftEvent
    have hentries : change.right.entries = change.left.entries :=
      Value.dict.inj (some.inj hleftEvent)
    exact hparams (change.params_eq hentries.symm)

/-! ## Histories that show the same -/

/-- Two histories that differ only in private parameters show clients the same throughout
when every BLOCKED event that differs is dropped on arrival. Where those of outbound turns
are dropped, those of runs have to be: an event that is applied shows its parameters in the
metadata of the run. -/
theorem same_snapshots_of_dropped {α : Type u} (project : ProjectionInput → α) (cfg : Config)
    (labels : List PairLabel) :
    ((pairSystem cfg).Along (fun s l => RunEventDropped s l ∧ TurnEventDropped s l)
        (initialState, initialState) labels →
      (pairSystem cfg).Always (SameSnapshot project) (initialState, initialState) labels) ∧
    ((pairSystem cfg).Along TurnEventDropped (initialState, initialState) labels →
      (pairSystem cfg).Always (SameSnapshot project) (initialState, initialState) labels →
      (pairSystem cfg).Along RunEventDropped (initialState, initialState) labels) := by
  have hkeeps : ∀ (s : State × State) l s', s.1 = s.2 →
      RunEventDropped s l ∧ TurnEventDropped s l → (pairSystem cfg).step s l = some s' →
      s'.1 = s'.2 := fun s l s' heq hc hs => eq_of_dropped heq hc.1 hc.2 hs
  constructor
  · intro h
    have hequal := h.always (I := fun s => s.1 = s.2) rfl hkeeps
    exact hequal.mono fun s heq => congrArg (snapshot project) heq
  · intro hturns h
    refine (h.along (I := fun s => s.1 = s.2) hkeeps (fun s l s' heq hq hs hsame => ⟨?_, hq⟩) rfl hturns).mono
      fun _ _ => And.left
    exact dropped_of_sameSnapshot heq hs hsame

/-- An approval of a command whose environment clients must not see. -/
def environmentChange : PrivateChange where
  metadata := metadataOf [("interaction_kind", .str "permission")]
  native := [("request_id", .int 7), ("method", .str "item/commandExecution/requestApproval")]
  params := [("command", .str "deploy"), ("environment", .str "TOKEN=1")]
  params' := [("command", .str "deploy"), ("environment", .str "TOKEN=2")]
  sameSafe := by
    intro key hkey
    simp only [clientSafeNativeResponseParamKeys, List.mem_cons, List.not_mem_nil, or_false] at hkey
    rcases hkey with rfl | rfl | rfl | rfl | rfl <;> rfl
  sameProposal := rfl

def smallConfig : Config := ⟨codexConfig, id⟩

/-- Both histories bring one task to where its run is drained. -/
def drainingLabels : List PairLabel :=
  (createLabels "creation-1" "task-1" ++ tickLabels ++
    executeLabels "task-1" "session-1" "run-1").map fun label => .same (.session label)

def cancellingLabels : List PairLabel :=
  (commandLabels "cmd-1" "task-1" .cancelTask).map fun label => .same (.session label)

def blockedLabel : PairLabel :=
  .blockedRun "task-1" ⟨"run-1", "session-1", .blocked, some "Allow it?", Table.empty⟩ none
    environmentChange

/-- Every event that may differ is dropped. -/
def dropsBlocked (s : State × State) : PairLabel → Bool
  | .same _ => true
  | .blockedRun taskId _ _ _ => runDropped s.1 taskId
  | .blockedTurn _ event _ => turnDropped s.1 event

theorem same_snapshots_after_cancel :
    (pairSystem smallConfig).Always (SameSnapshot fun input => input.runs.length)
      (initialState, initialState) (drainingLabels ++ cancellingLabels ++ [blockedLabel]) := by
  refine (same_snapshots_of_dropped _ smallConfig _).1 ?_
  have hdropped : (pairSystem smallConfig).checkAlong dropsBlocked (initialState, initialState)
      (drainingLabels ++ cancellingLabels ++ [blockedLabel]) = true := by decide
  refine (System.along_of_check hdropped).mono fun s l hl => ?_
  cases l with
  | same label => exact ⟨trivial, trivial⟩
  | blockedRun taskId event handle change => exact ⟨fun _ => hl, trivial⟩
  | blockedTurn interactionId event change => exact ⟨trivial, fun _ => hl⟩

/-- The environment that a client reads off the runs of a snapshot. -/
def shownEnvironments {α : Type u} (snapshot : Snapshot α) : List (Option String) :=
  snapshot.executionRuns.map fun run =>
    ((((Dict.lookup run.metadata "blocked_event").bind Value.dict?).bind fun (event : Fields) =>
      event.dict? "native_response").bind fun (native : Fields) =>
        native.dict? "params").bind fun (params : Fields) => params.str? "environment"

/-- A run that is blocked shows the environment of the command it asks about. -/
theorem blocked_run_shows_environment :
    ¬ ∀ (cfg : Config) (labels : List PairLabel),
      (pairSystem cfg).Always (SameSnapshot fun input => input.runs.length)
        (initialState, initialState) labels := by
  intro h
  have hall := h smallConfig (drainingLabels ++ [blockedLabel])
  have hrun : ((pairSystem smallConfig).run (initialState, initialState)
      (drainingLabels ++ [blockedLabel])).map (fun s =>
        (shownEnvironments (snapshot (fun input => input.runs.length) s.1),
          shownEnvironments (snapshot (fun input => input.runs.length) s.2))) =
      some ([some "TOKEN=1"], [some "TOKEN=2"]) := by decide
  obtain ⟨s, hs, hshown⟩ := map_eq_some_iff.mp hrun
  have hsame := congrArg shownEnvironments (hall.at_end hs)
  obtain ⟨hleft, hright⟩ := Prod.mk.inj hshown
  rw [hleft, hright] at hsame
  exact absurd hsame (by decide)

end Newbro.Snapshots
