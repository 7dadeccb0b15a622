import Newbro.NodeRequests

/-!
# The nodes that a session records

Which executor nodes the tables of a session name, and that no step of the session makes
one up: the node of a task comes from its persona, the node of an execution session from
its task, and everything else keeps the node it has. `P` is what the recorded nodes are
known to satisfy.
-/
namespace Newbro.SessionRuntime

open Library Protocol SessionManager SummaryManager
  SessionCommands InteractionRequests Reconcile Option Table

/-- Every node that the store of a session names satisfies `P`. -/
def RecordsOnly (P : String → Prop) (b : Blackboard) : Prop :=
  (∀ task ∈ b.tasks.entries, ∀ nodeId ∈ HostedRuns.nodeIdFromTask task, P nodeId) ∧
    (∀ session ∈ b.sessions.entries, ∀ nodeId ∈ session.executorNodeId, P nodeId) ∧
    (∀ persona ∈ b.personas.entries, ∀ nodeId ∈ persona.executorNodeId, P nodeId) ∧
    ∀ request ∈ b.requests.entries, ∀ nodeId ∈ request.executorNodeId, P nodeId

namespace RecordsOnly

variable {P : String → Prop} {b : Blackboard}

theorem mono {Q : String → Prop} (hPQ : ∀ nodeId, P nodeId → Q nodeId) (h : RecordsOnly P b) :
    RecordsOnly Q b :=
  ⟨fun task hmem nodeId hn => hPQ nodeId (h.1 task hmem nodeId hn),
    fun session hmem nodeId hn => hPQ nodeId (h.2.1 session hmem nodeId hn),
    fun persona hmem nodeId hn => hPQ nodeId (h.2.2.1 persona hmem nodeId hn),
    fun request hmem nodeId hn => hPQ nodeId (h.2.2.2 request hmem nodeId hn)⟩

/-! ## The writes of the store -/

section

variable (h : RecordsOnly P b)
include h

theorem putTask {task : Task}
    (ht : ∀ nodeId ∈ HostedRuns.nodeIdFromTask task, P nodeId) : RecordsOnly P (b.putTask task) :=
  ⟨forall_put h.1 ht, h.2⟩

theorem putSession {session : ExecutionSession}
    (hs : ∀ nodeId ∈ session.executorNodeId, P nodeId) : RecordsOnly P (b.putSession session) :=
  ⟨h.1, forall_put h.2.1 hs, h.2.2⟩

theorem putPersona {persona : Persona}
    (hp : ∀ nodeId ∈ persona.executorNodeId, P nodeId) : RecordsOnly P (b.putPersona persona) :=
  ⟨h.1, h.2.1, forall_put h.2.2.1 hp, h.2.2.2⟩

theorem deletePersona (personaId : String) : RecordsOnly P (b.deletePersona personaId) :=
  ⟨h.1, h.2.1, fun persona hp => h.2.2.1 persona (mem_erase.mp hp).1, h.2.2.2⟩

theorem putRequest {request : InteractionRequest}
    (hr : ∀ nodeId ∈ request.executorNodeId, P nodeId) :
    RecordsOnly P (b.putInteractionRequest request) :=
  ⟨h.1, h.2.1, h.2.2.1, forall_put h.2.2.2 hr⟩

theorem task {taskId : String} {task : Task}
    (ht : b.getTask taskId = some task) : ∀ nodeId ∈ HostedRuns.nodeIdFromTask task, P nodeId :=
  h.1 task (mem_of_get? ht)

theorem session {sessionId : String} {session : ExecutionSession}
    (hs : b.getSession sessionId = some session) : ∀ nodeId ∈ session.executorNodeId, P nodeId :=
  h.2.1 session (mem_of_get? hs)

theorem persona {personaId : String} {persona : Persona}
    (hp : b.getPersona personaId = some persona) : ∀ nodeId ∈ persona.executorNodeId, P nodeId :=
  h.2.2.1 persona (mem_of_get? hp)

theorem request {requestId : String} {request : InteractionRequest}
    (hr : b.getRequest requestId = some request) : ∀ nodeId ∈ request.executorNodeId, P nodeId :=
  h.2.2.2 request (mem_of_get? hr)

/-- What each entry keeps, a loop over the entries keeps. -/
theorem foldl {α : Type*} {f : Blackboard → α → Blackboard} {xs : List α}
    (hf : ∀ b x, x ∈ xs → RecordsOnly P b → RecordsOnly P (f b x)) :
    RecordsOnly P (xs.foldl f b) := by
  induction xs generalizing b with
  | nil => exact h
  | cons x xs ih =>
    rw [List.foldl_cons]
    exact ih (hf b x List.mem_cons_self h) fun b y hy => hf b y (List.mem_cons_of_mem x hy)

end

/-! ## Commands -/

section

variable (h : RecordsOnly P b)
include h

theorem setTaskStatus (taskId : String) (status : TaskStatus) :
    RecordsOnly P (setTaskStatus b taskId status) := by
  unfold SessionCommands.setTaskStatus
  split
  · exact h
  · rename_i task ht
    have hnode := h.task ht
    exact h.putTask hnode

theorem setRunStatus (runId : String) (status : RunStatus) :
    RecordsOnly P (setRunStatus b runId status) := by
  unfold SessionCommands.setRunStatus
  split <;> exact h

theorem clearActiveRun (sessionId runId : Option String) :
    RecordsOnly P (clearActiveRun b sessionId runId) := by
  unfold SessionCommands.clearActiveRun
  split
  · exact h
  · rename_i session hs
    obtain ⟨id, -, hs⟩ := bind_eq_some_iff.mp hs
    have hnode := h.session hs
    split_ifs
    · exact h.putSession hnode
    · exact h

theorem capturePauseResumeHandle (cfg : Config) (live : LiveSessions)
    (sessionId runId : Option String) :
    RecordsOnly P (capturePauseResumeHandle cfg live b sessionId runId) := by
  unfold SessionCommands.capturePauseResumeHandle
  split
  · rename_i session run hs hr
    obtain ⟨id, -, hs⟩ := bind_eq_some_iff.mp hs
    have hnode := h.session hs
    simp only
    split
    · exact h.putSession hnode
    · exact h
  · exact h

theorem markCommand (cfg : Config) (live : LiveSessions)
    (c : CommandInFlight) : RecordsOnly P (markCommand cfg live b c).1 := by
  simp only [SessionCommands.markCommand]
  refine RecordsOnly.setTaskStatus ?_ _ _
  split_ifs
  · exact h.capturePauseResumeHandle ..
  · exact h

theorem cancelRequestsForTask (taskId : String) : RecordsOnly P (cancelRequestsForTask b taskId) :=
  h.foldl fun _ request hr hb => hb.putRequest (h.2.2.2 request (List.mem_of_mem_filter hr))

theorem setRunStatus? (runId : Option String) (status : RunStatus) :
    RecordsOnly P (match runId with
      | none => b
      | some runId => SessionCommands.setRunStatus b runId status) := by
  cases runId with
  | none => exact h
  | some runId => exact h.setRunStatus ..

theorem putBinding? (binding : Option SessionBinding)
    (update : SessionBinding → SessionBinding) :
    RecordsOnly P (match binding with
      | none => b
      | some binding => b.putBinding (update binding)) := by
  cases binding with
  | none | some => exact h

theorem finishCommand (c : CommandInFlight) : RecordsOnly P (finishCommand b c) := by
  have hrun := h.setRunStatus? c.runId
  have hclear : RecordsOnly P (if c.runId.isSome = true then
      SessionCommands.clearActiveRun b c.sessionId c.runId else b) := by
    split_ifs
    · exact h.clearActiveRun ..
    · exact h
  unfold SessionCommands.finishCommand
  split
  · exact h
  · rename_i task ht
    simp only
    split
    · exact (hrun .paused).putBinding? c.binding pausedBinding
    · exact (hrun .paused).putBinding? c.binding pausedBinding
    · refine RecordsOnly.cancelRequestsForTask ?_ _
      have hcancelled := (hrun .cancelled).clearActiveRun c.sessionId c.runId
      exact hcancelled.putBinding? c.binding releasedBinding
    · exact hclear.putBinding? c.binding releasedBinding
    · exact hclear.putBinding? c.binding releasedBinding

end

/-! ## Runs -/

section

variable (h : RecordsOnly P b)
include h

theorem applyEvent {task : Task}
    (ht : ∀ nodeId ∈ HostedRuns.nodeIdFromTask task, P nodeId) (run : ExecutionRun)
    (event : ExecutorEvent) : RecordsOnly P (RunManager.applyEvent b task run event) := by
  unfold RunManager.applyEvent
  split_ifs
  · exact h
  · exact RecordsOnly.putTask (b := (b.appendTaskExecutionDetail _).putRun _) h ht
  · exact RecordsOnly.putTask (b := b.putRun _) h ht

theorem releasePersona (task : Task) : RecordsOnly P (releasePersona b task) := by
  unfold Reconcile.releasePersona
  split
  · exact h
  · rename_i persona hp
    obtain ⟨id, -, hp⟩ := bind_eq_some_iff.mp hp
    have hnode := h.persona hp
    split_ifs
    · exact h
    · exact h.putPersona hnode
    · exact h

theorem syncExecutorSession (live : LiveSessions) (handle : RunHandle) :
    RecordsOnly P (syncExecutorSession b live handle) := by
  unfold Reconcile.syncExecutorSession
  split
  · rename_i session resume hs hr
    have hnode := h.session hs
    exact h.putSession hnode
  · exact h

theorem parkWaitingRun (claimed : SessionBinding) (handle : RunHandle)
    (run : ExecutionRun) : RecordsOnly P (parkWaitingRun b claimed handle run) := by
  unfold Reconcile.parkWaitingRun
  split_ifs
  · simp only
    split
    · exact h
    · rename_i session hs
      have hnode := h.session hs
      exact RecordsOnly.putSession h hnode
  · exact h

theorem settleRun (live : LiveSessions) (claimed : SessionBinding)
    (handle : RunHandle) (task : Task) (run : ExecutionRun) :
    RecordsOnly P (settleRun b live claimed handle task run) := by
  have hsynced : RecordsOnly P ((Reconcile.syncExecutorSession b live handle).putSummary
      (buildSummary task run)) := h.syncExecutorSession live handle
  have hparked := hsynced.parkWaitingRun claimed handle run
  unfold Reconcile.settleRun
  simp only
  split_ifs
  · exact hparked.releasePersona task
  · exact hparked

theorem drainEvent {task : Task}
    (ht : ∀ nodeId ∈ HostedRuns.nodeIdFromTask task, P nodeId) (live : LiveSessions)
    (claimed : SessionBinding) (handle : RunHandle) (run : ExecutionRun) (event : ExecutorEvent) :
    RecordsOnly P (drainEvent b live claimed handle task run event) := by
  have happlied := h.applyEvent ht run event
  unfold Reconcile.drainEvent
  simp only
  split_ifs
  · split
    · exact happlied.settleRun ..
    · exact happlied
  · exact happlied

theorem failExecutionException {task : Task}
    (ht : ∀ nodeId ∈ HostedRuns.nodeIdFromTask task, P nodeId) (claimed : SessionBinding)
    (run : Option ExecutionRun) (text errorType : String) :
    RecordsOnly P (failExecutionException b task claimed run text errorType) := by
  unfold Reconcile.failExecutionException
  refine RecordsOnly.releasePersona ?_ task
  cases run with
  | none => exact h.putTask ht
  | some run =>
    have happlied := h.applyEvent ht run (exceptionEvent run text errorType)
    simp only [failRun]
    split <;> exact happlied

theorem createRun {session : ExecutionSession}
    (hs : ∀ nodeId ∈ session.executorNodeId, P nodeId) (task : Task)
    (claimedBy : Option String) (executorType runId : String) :
    RecordsOnly P (RunManager.createRun b task session claimedBy executorType runId) :=
  RecordsOnly.putSession (b := b.putRun _) h hs

/-- The execution session that is ensured for a task is at the node of the task. -/
theorem ensureSession {task : Task}
    (ht : ∀ nodeId ∈ HostedRuns.nodeIdFromTask task, P nodeId) (live : LiveSessions)
    (executorType : String) (binding : SessionBinding) (created : ExecutorSession)
    (freshId : String) :
    RecordsOnly P (ensureSession b live executorType task binding created freshId).board := by
  unfold SessionManager.ensureSession
  simp only
  split
  · unfold reuseBoundSession
    have hmoved : ∀ existing : ExecutionSession, RecordsOnly P
        (b.putSession { existing with
          executorNodeId := task.metadata.nonemptyStr? "executor_node_id" }) :=
      fun existing => h.putSession ht
    simp only
    split <;> split_ifs <;> first | exact h | exact hmoved _
  · split
    · exact h
    · exact RecordsOnly.putSession h ht

end

/-! ## Answers, scans, personas and the loop -/

theorem followUpTask_node (task : Task) (request : InteractionRequest) (answer : Answer) :
    HostedRuns.nodeIdFromTask (followUpTask task request answer) =
      HostedRuns.nodeIdFromTask task := by
  simp only [HostedRuns.nodeIdFromTask, Metadata.nonemptyStr?, followUpTask]
  congr 1
  split_ifs
  · split <;> simp [Metadata.str?_set_of_ne, Metadata.str?_erase_of_ne]
  · simp [Metadata.str?_set_of_ne]
  · rfl
  · rfl

section

variable (h : RecordsOnly P b)
include h

theorem queueFollowUp {task : Task}
    (ht : ∀ nodeId ∈ HostedRuns.nodeIdFromTask task, P nodeId) (request : InteractionRequest)
    (answer : Answer) : RecordsOnly P (queueFollowUp b task request answer) := by
  have hnode : ∀ nodeId ∈ HostedRuns.nodeIdFromTask (followUpTask task request answer),
      P nodeId := by
    rw [followUpTask_node]
    exact ht
  unfold InteractionRequests.queueFollowUp
  simp only
  refine RecordsOnly.putTask ?_ hnode
  -- the binding and the summary record no node, the session keeps the one that it has
  split
  all_goals
    split
    · rename_i session runId hs _
      obtain ⟨id, -, hs⟩ := bind_eq_some_iff.mp hs
      have hsession := h.session hs
      split_ifs
      · exact h.putSession hsession
      · exact h
    · exact h

theorem finishAnswer (a : AnswerInFlight) (nativeResolved : Bool) :
    RecordsOnly P (finishAnswer b a nativeResolved) := by
  unfold SessionRuntime.finishAnswer
  split_ifs
  · exact h
  · split
    · exact h
    · rename_i task ht
      obtain ⟨id, -, ht⟩ := bind_eq_some_iff.mp ht
      exact h.queueFollowUp (h.task ht) ..

theorem requeueWaitingExecutorTasks (connected : String → Option String → Bool) :
    RecordsOnly P (requeueWaitingExecutorTasks b connected) := by
  refine h.foldl fun b' task ht hb => ?_
  have hnode := h.1 task ht
  unfold requeueTask
  split_ifs
  · exact hb.putTask hnode
  · exact hb

theorem occupyPersona {persona : Option Persona}
    (hp : ∀ p ∈ persona, ∀ nodeId ∈ p.executorNodeId, P nodeId) :
    RecordsOnly P (occupyPersona b persona) := by
  cases persona with
  | none => exact h
  | some persona => exact h.putPersona (hp persona rfl)

theorem syncPersonas {persisted : Table Persona.personaId}
    (hp : ∀ persona ∈ persisted.entries, ∀ nodeId ∈ persona.executorNodeId, P nodeId) :
    RecordsOnly P (syncPersonas b persisted) := by
  have hsynced : ∀ persona ∈ persisted.entries,
      ∀ nodeId ∈ (syncedPersona b persona).executorNodeId, P nodeId := by
    intro persona hmem
    unfold syncedPersona
    split <;> exact hp persona hmem
  unfold SessionRuntime.syncPersonas
  refine RecordsOnly.foldl ?_ fun b' persona _ hb => hb.deletePersona _
  exact h.foldl fun b' persona hmem hb => hb.putPersona (hsynced persona hmem)

theorem ingestAgentEvent (taskId type : String) :
    RecordsOnly P (ingestAgentEvent b taskId type) := by
  unfold SessionRuntime.ingestAgentEvent
  split
  · exact h
  · exact h.setTaskStatus ..

theorem claimTask {b' : Blackboard} {workerId : String} {now : Nat}
    {task : Task} {binding : SessionBinding}
    (hc : claimTask b workerId now task = some (b', binding)) : RecordsOnly P b' := by
  unfold SessionManager.claimTask at hc
  simp only at hc
  split_ifs at hc
  obtain ⟨rfl, -⟩ := Prod.mk.inj (some.inj hc)
  exact h

theorem failUnknownExecutor {task : Task}
    (ht : ∀ nodeId ∈ HostedRuns.nodeIdFromTask task, P nodeId) (claimed : SessionBinding)
    (executorType : String) : RecordsOnly P (failUnknownExecutor b task claimed executorType) := by
  unfold Reconcile.failUnknownExecutor
  exact h.putTask ht

end

end RecordsOnly

/-! ## The steps of the session -/

/-- Every node that a session names, the personas of unfinished creations included,
satisfies `P`. -/
structure SessionRecords (P : String → Prop) (s : SessionState) : Prop where
  board : RecordsOnly P s.board
  creations : ∀ creation ∈ s.creations.entries, ∀ persona ∈ creation.persona,
    ∀ nodeId ∈ persona.executorNodeId, P nodeId

/-- What a label brings in from outside names only nodes that satisfy `P`. -/
def bringsOnly (P : String → Prop) : Label → Prop
  | .syncPersonas persisted =>
    ∀ persona ∈ persisted.entries, ∀ nodeId ∈ persona.executorNodeId, P nodeId
  | .finishCreation _ template => ∀ nodeId ∈ HostedRuns.nodeIdFromTask template, P nodeId
  | .raiseRequest request => ∀ nodeId ∈ request.executorNodeId, P nodeId
  | _ => True

variable {taskId key : String} {label : Label}

section

variable {P : String → Prop} {cfg : Config} {s s' : SessionState}

/-- A task is bound to the node of its persona, or else to the one it names. -/
theorem personaMetadata_node (metadata : Metadata) (persona : Persona) :
    (personaMetadata metadata persona).nonemptyStr? "executor_node_id" =
      (persona.executorNodeId.filter (· ≠ "")).or (metadata.nonemptyStr? "executor_node_id") := by
  unfold personaMetadata Metadata.nonemptyStr?
  simp only
  split
  · rename_i hnode
    rw [hnode]
    simp [Metadata.str?_set_of_ne]
  · rename_i nodeId hnode
    rw [hnode]
    have hne := (filter_eq_some_iff.mp hnode).2
    rw [Metadata.str?_set_of_ne _ _ (by decide), Metadata.str?, Dict.lookup_set_self]
    simpa [Value.str?] using hne

theorem createdTask_records {creation : Creation} {template : Task}
    (hcreation : ∀ persona ∈ creation.persona, ∀ nodeId ∈ persona.executorNodeId, P nodeId)
    (ht : ∀ nodeId ∈ HostedRuns.nodeIdFromTask template, P nodeId) :
    ∀ nodeId ∈ HostedRuns.nodeIdFromTask (createdTask creation template), P nodeId := by
  intro nodeId hmem
  unfold createdTask HostedRuns.nodeIdFromTask at hmem
  cases hp : creation.persona with
  | none =>
    rw [hp] at hmem
    exact ht nodeId hmem
  | some persona =>
    rw [hp] at hmem
    simp only [personaMetadata_node] at hmem
    rcases or_eq_some_iff.mp hmem with hbound | ⟨-, hnamed⟩
    · exact hcreation persona hp nodeId (filter_eq_some_iff.mp hbound).1
    · exact ht nodeId hnamed

theorem updateTask_records (h : SessionRecords P s) {patch : TaskPatch}
    (hs : updateTask cfg s taskId patch = some s') : SessionRecords P s' := by
  unfold updateTask at hs
  split at hs
  · cases hs
  · rename_i task ht
    split_ifs at hs
    obtain rfl := some.inj hs
    have hnode := h.board.task ht
    exact ⟨h.board.putTask hnode, h.creations⟩

theorem executor_node_id_not_annotated (h : key ∈ annotationKeys) :
    key ≠ "executor_node_id" := by
  rintro rfl
  exact absurd h (by decide)

section

variable (h : SessionRecords P s)
include h

theorem annotateTask_records
    {value : Option Value} (hs : annotateTask s taskId key value = some s') :
    SessionRecords P s' := by
  unfold annotateTask at hs
  split at hs
  · cases hs
  · rename_i task ht
    split_ifs at hs with hkey
    obtain rfl := some.inj hs
    have hne := executor_node_id_not_annotated hkey
    refine ⟨h.board.putTask fun nodeId hmem => h.board.task ht nodeId ?_, h.creations⟩
    cases value <;>
      simpa [HostedRuns.nodeIdFromTask, Metadata.nonemptyStr?, Metadata.str?_set_of_ne,
        Metadata.str?_erase_of_ne, hne] using hmem

theorem beginAnswer_records {requestId : String} {answer : Answer}
    (hs : beginAnswerStep s requestId answer = some s') : SessionRecords P s' := by
  unfold beginAnswerStep at hs
  split at hs
  · cases hs
  · rename_i board request hresolved
    obtain rfl := some.inj hs
    unfold resolveRequest at hresolved
    split at hresolved
    · cases hresolved
    · rename_i stored hstored
      simp only at hresolved
      split_ifs at hresolved
      split at hresolved
      · cases hresolved
      · obtain ⟨rfl, rfl⟩ := Prod.mk.inj (Except.ok.inj hresolved)
        have hnode := h.board.request hstored
        exact ⟨h.board.putRequest hnode, h.creations⟩

theorem executeStep_records {c : Coroutine} {task : Task}
    (ht : ∀ nodeId ∈ HostedRuns.nodeIdFromTask task, P nodeId)
    (hs : executeStep cfg s c task label = some s') : SessionRecords P s' := by
  have hsame : s'.creations = s.creations :=
    congrArg Prod.fst (outsideLoop_executeStep hs)
  refine ⟨?_, hsame ▸ h.creations⟩
  have hb := h.board
  cases label
  case lookupExecutor =>
    obtain ⟨-, ⟨-, rfl⟩ | ⟨-, rfl⟩⟩ := lookupExecutor_cases hs
    · rwa [board_setStage]
    · rw [board_dropCoroutine]
      exact hb.failUnknownExecutor ht ..
  case ensureSession =>
    obtain ⟨_, -, -, -, rfl⟩ := ensureSession_cases hs
    rw [ensuredSession, board_setStage]
    exact hb.ensureSession ht ..
  case createRun =>
    obtain ⟨_, _, _, session, -, hsession, -, -, rfl⟩ := createRun_cases hs
    rw [board_setStage]
    exact hb.createRun (hb.session hsession) ..
  case beginRunTask =>
    obtain ⟨_, -, rfl⟩ := beginRunTask_cases hs
    rwa [board_setStage]
  case sendDispatch =>
    obtain ⟨_, -, rfl⟩ := sendDispatch_cases hs
    rwa [board_setStage]
  case skipDispatch =>
    obtain ⟨_, -, rfl⟩ := skipDispatch_cases hs
    rwa [board_setStage]
  case runEvent =>
    obtain ⟨handle, run, -, -, rfl⟩ := runEvent_cases hs
    have hdrained := hb.drainEvent ht
    split_ifs
    · rw [board_dropCoroutine]
      exact hdrained ..
    · exact hdrained ..
  case raiseException =>
    obtain ⟨-, rfl⟩ := raiseException_cases hs
    rw [board_dropCoroutine]
    exact hb.failExecutionException ht ..
  all_goals cases hs

theorem loopMove_records (hs : LoopMove cfg s s') : SessionRecords P s' := by
  cases hs
  case claim hclaim => exact ⟨h.board.claimTask hclaim, h.creations⟩
  all_goals exact ⟨h.board, h.creations⟩

/-- No step of the session names a node that it did not know or was told. -/
theorem SessionRecords.step
    (hlabel : bringsOnly P label) (hs : step cfg s label = some s') : SessionRecords P s' := by
  have hb := h.board
  have hmove := step_cases hs
  cases hmove with
  | startCreation _ =>
    refine ⟨hb, forall_put h.creations fun persona hp => ?_⟩
    obtain ⟨id, -, hget⟩ := bind_eq_some_iff.mp hp
    exact hb.persona hget
  | finishCreation hc ht hp =>
    rename_i creation
    have hpersona := h.creations creation (mem_of_get? hc)
    refine ⟨(hb.occupyPersona hpersona).putTask (createdTask_records hpersona hlabel), ?_⟩
    exact fun other hmem => h.creations other (mem_erase.mp hmem).1
  | amendTask _ _ _ _ hkind =>
    obtain ⟨patch, rfl⟩ | ⟨key, value, rfl⟩ := hkind
    · exact updateTask_records h hs
    · exact annotateTask_records h hs
  | syncPersonas => exact ⟨hb.syncPersonas hlabel, h.creations⟩
  | ignoreCommand => exact h
  | beginCommand _ _ => exact ⟨hb, h.creations⟩
  | markCommand _ _ => exact ⟨hb.markCommand .., h.creations⟩
  | finishCommand _ _ => exact ⟨hb.finishCommand _, h.creations⟩
  | agentEvent => exact ⟨hb.ingestAgentEvent .., h.creations⟩
  | raiseRequest => exact ⟨hb.putRequest hlabel, h.creations⟩
  | beginAnswer => exact beginAnswer_records h hs
  | finishAnswer _ => exact ⟨hb.finishAnswer .., h.creations⟩
  | requeueWaiting => exact ⟨hb.requeueWaitingExecutorTasks _, h.creations⟩
  | loop _ hloop => exact loopMove_records h hloop
  | coroutine _ _ ht hexecute => exact executeStep_records h (hb.task ht) hexecute

end

end

end Newbro.SessionRuntime

namespace Newbro.Snapshots

open Library Protocol BlockedRequests OutboundTurns
  SessionRuntime

/-- Every node that a session, its outbound requests and its imported threads name satisfies
`P`. -/
structure StateRecords (P : String → Prop) (s : State) : Prop where
  session : SessionRecords P s.session
  turns : ∀ request ∈ s.turns.requests.entries, P request.executorNodeId
  imported : ∀ thread ∈ s.imported.threads.entries, ∀ nodeId ∈ thread.executorNodeId, P nodeId

/-- What a label brings in from outside names only nodes that satisfy `P`. -/
def bringsOnly (P : String → Prop) : Label → Prop
  | .session label => SessionRuntime.bringsOnly P label
  | .putTurnRequest request => P request.executorNodeId
  | .setImportedThreads imported =>
    ∀ thread ∈ imported.threads.entries, ∀ nodeId ∈ thread.executorNodeId, P nodeId
  | _ => True

variable {b b' : Blackboard}

variable {lower : String → String} {interactionId : String}

section

variable {P : String → Prop} {s s' : State}

theorem StateRecords.putBoard (h : StateRecords P s) {board : Blackboard}
    (hb : RecordsOnly P board) :
    StateRecords P { s with session := { s.session with board := board } } :=
  ⟨⟨hb, h.session.creations⟩, h.turns, h.imported⟩

/-- A request that is raised from a run or a summary names no node. -/
theorem raised_records {request : InteractionRequest}
    (h : RecordsOnly P b) (hnode : request.executorNodeId = none)
    (hs : SessionRuntime.raiseRequest b request = some b') : RecordsOnly P b' := by
  rw [raiseRequest_board hs]
  refine h.putRequest fun nodeId hmem => ?_
  rw [hnode] at hmem
  cases hmem

theorem requestFromRun_records
    {runId : String} (h : RecordsOnly P b)
    (hs : requestFromRun lower b interactionId runId = some b') : RecordsOnly P b' := by
  unfold requestFromRun at hs
  split at hs
  · cases hs
  · split at hs
    · cases hs
    · exact raised_records h rfl hs

theorem requestFromSummary_records
    {taskId : String} (h : RecordsOnly P b)
    (hs : requestFromSummary lower b interactionId taskId = some b') : RecordsOnly P b' := by
  unfold requestFromSummary at hs
  split at hs
  · exact raised_records h rfl hs
  · cases hs

/-- An event of a turn passes the node of its request on to what it raises. -/
theorem handleCodexTurnEvent_records (h : StateRecords P s) (lower : String → String)
    (interactionId : String) (event : CodexTurnEvent) :
    let handled := handleCodexTurnEvent lower s.session.board s.turns interactionId event
    RecordsOnly P handled.1 ∧ ∀ request ∈ handled.2.requests.entries, P request.executorNodeId := by
  unfold handleCodexTurnEvent
  split
  · exact ⟨h.session.board, h.turns⟩
  · rename_i request hrequest
    have hget := (Option.filter_eq_some_iff.mp hrequest).1
    have hnode : P (updateRequest lower request event).executorNodeId :=
      h.turns request (Table.mem_of_get? hget)
    refine ⟨?_, Table.forall_put h.turns hnode⟩
    simp only [handleOutboundCodexBlocked]
    split
    · exact h.session.board
    · split_ifs
      · refine h.session.board.putRequest fun nodeId hmem => ?_
        obtain rfl := Option.some.inj hmem
        exact hnode
      · exact h.session.board

theorem StateRecords.step (h : StateRecords P s) {cfg : Config} {label : Label}
    (hlabel : bringsOnly P label) (hs : step cfg s label = some s') : StateRecords P s' := by
  unfold Snapshots.step at hs
  split at hs
  · cases hs
  · obtain ⟨session, hsession, rfl⟩ := Option.map_eq_some_iff.mp hs
    exact ⟨h.session.step hlabel hsession, h.turns, h.imported⟩
  · obtain ⟨board, hboard, rfl⟩ := Option.map_eq_some_iff.mp hs
    exact h.putBoard (requestFromRun_records h.session.board hboard)
  · obtain ⟨board, hboard, rfl⟩ := Option.map_eq_some_iff.mp hs
    exact h.putBoard (requestFromSummary_records h.session.board hboard)
  · obtain rfl := Option.some.inj hs
    exact ⟨h.session, Table.forall_put h.turns hlabel, h.imported⟩
  · split_ifs at hs
    obtain rfl := Option.some.inj hs
    obtain ⟨hboard, hturns⟩ := handleCodexTurnEvent_records h cfg.lower _ _
    exact ⟨⟨hboard, h.session.creations⟩, hturns, h.imported⟩
  · obtain rfl := Option.some.inj hs
    exact ⟨h.session, h.turns, h.imported⟩
  · obtain rfl := Option.some.inj hs
    exact ⟨h.session, h.turns, hlabel⟩

end

end Newbro.Snapshots

namespace Newbro.NodeRequests

open Library Protocol BroThreads OutboundTurns
  ExecutorNodes Snapshots SessionRuntime

/-- Every node that a session of a user names satisfies `P`. -/
structure SessionNodes (P : String → Prop) (session : UserSession) : Prop where
  state : StateRecords P session.state
  subscriptions : ∀ subscription ∈ session.subscriptions.entries, P subscription.nodeId
  runStates : ∀ state ∈ session.runStates.entries, ∀ nodeId ∈ state.nodeId, P nodeId

/-- A prepared request is one of the session, and names only nodes that satisfy `P`. -/
structure PreparedNodes (P : String → Prop) (session : UserSession) (prepared : Prepared) :
    Prop where
  sessionId : prepared.session.sessionId = session.sessionId
  owner : prepared.session.owner = session.owner
  session : SessionNodes P prepared.session
  nodeIds : ∀ nodeId ∈ prepared.nodeIds, P nodeId
  personas : ∀ persona ∈ prepared.personas, ∀ nodeId ∈ persona.executorNodeId, P nodeId

theorem initialState_records (P : String → Prop) : StateRecords P Snapshots.initialState := by
  have hnone : ∀ {α : Type} {Q : α → Prop}, ∀ x ∈ ([] : List α), Q x :=
    fun _ hmem => absurd hmem List.not_mem_nil
  exact ⟨⟨⟨hnone, hnone, hnone, hnone⟩, hnone⟩, hnone, hnone⟩

theorem newSession_nodes (P : String → Prop) (sessionId owner : String) :
    SessionNodes P (newSession sessionId owner) :=
  ⟨initialState_records P, fun _ hmem => absurd hmem List.not_mem_nil,
    fun _ hmem => absurd hmem List.not_mem_nil⟩

variable {personaId : String}

variable {threadId : String} {imported : ImportedThreads}

section

variable {P : String → Prop} {session : UserSession} {m : NodeManager} {prepared : Prepared}

theorem SessionNodes.mono {Q : String → Prop} (hPQ : ∀ nodeId, P nodeId → Q nodeId)
    (h : SessionNodes P session) : SessionNodes Q session where
  state :=
    { session :=
        { board := h.state.session.board.mono hPQ
          creations := fun creation hmem persona hp nodeId hn =>
            hPQ nodeId (h.state.session.creations creation hmem persona hp nodeId hn) }
      turns := fun request hmem => hPQ _ (h.state.turns request hmem)
      imported := fun thread hmem nodeId hn => hPQ nodeId (h.state.imported thread hmem nodeId hn) }
  subscriptions := fun subscription hmem => hPQ _ (h.subscriptions subscription hmem)
  runStates := fun state hmem nodeId hn => hPQ nodeId (h.runStates state hmem nodeId hn)

theorem SessionNodes.putState (h : SessionNodes P session) {state : Snapshots.State}
    (hs : StateRecords P state) : SessionNodes P { session with state := state } :=
  ⟨hs, h.subscriptions, h.runStates⟩

theorem SessionNodes.board (h : SessionNodes P session) : RecordsOnly P session.board :=
  h.state.session.board

/-- A persona's node is one that the session knows. -/
theorem SessionNodes.bound (h : SessionNodes P session)
    {bound : Persona × String} (hb : boundPersona session.board personaId = some bound) :
    (∀ nodeId ∈ bound.1.executorNodeId, P nodeId) ∧ P bound.2 := by
  obtain ⟨persona, hpersona, hmap⟩ := Option.bind_eq_some_iff.mp hb
  obtain ⟨nodeId, hnode, rfl⟩ := Option.map_eq_some_iff.mp hmap
  have hnodes := h.board.persona hpersona
  exact ⟨hnodes, hnodes nodeId (Option.filter_eq_some_iff.mp hnode).1⟩

/-! ## Each request -/

section

variable (h : SessionNodes P session)
include h

theorem prepareRun_nodes {taskId runId executionSessionId executorType : String}
    (hp : prepareRun session taskId runId executionSessionId executorType = some prepared) :
    PreparedNodes P session prepared := by
  obtain ⟨task, htask, rfl⟩ := Option.map_eq_some_iff.mp hp
  have hnode := h.board.task htask
  exact
    { sessionId := rfl
      owner := rfl
      session := ⟨h.state, h.subscriptions, Table.forall_put h.runStates hnode⟩
      nodeIds := fun nodeId hmem => hnode nodeId (Option.mem_toList.mp hmem)
      personas := nofun }

theorem prepareInstruction_nodes {command : NodeCommand}
    (hp : prepareInstruction m session command personaId = some prepared) :
    PreparedNodes P session prepared := by
  obtain ⟨bound, hbound, hp⟩ := Option.bind_eq_some_iff.mp hp
  split_ifs at hp
  obtain rfl := Option.some.inj hp
  have hnode := (h.bound hbound).2
  exact ⟨rfl, rfl, h, by simpa using hnode, nofun⟩

theorem prepareTurn_nodes
    {request : OutboundTurnRequest} (hp : prepareTurn m session personaId request = some prepared) :
    PreparedNodes P session prepared := by
  obtain ⟨instruction, hinstruction, hp⟩ := Option.bind_eq_some_iff.mp hp
  have hnodes := prepareInstruction_nodes h hinstruction
  split_ifs at hp
  obtain ⟨nodeId, hhead, rfl⟩ := Option.map_eq_some_iff.mp hp
  have hnode : P nodeId := hnodes.nodeIds nodeId (List.mem_of_mem_head? hhead)
  exact
    { sessionId := rfl
      owner := rfl
      session := h.putState
        ⟨h.state.session, Table.forall_put h.state.turns hnode, h.state.imported⟩
      nodeIds := hnodes.nodeIds
      personas := hnodes.personas }

theorem prepareThreadPage_nodes (hp : prepareThreadPage session personaId = some prepared) :
    PreparedNodes P session prepared := by
  obtain ⟨bound, hbound, rfl⟩ := Option.map_eq_some_iff.mp hp
  obtain ⟨hpersona, hnode⟩ := h.bound hbound
  exact ⟨rfl, rfl, h, by simpa using hnode, by simpa using hpersona⟩

theorem prepareThreadSync_nodes (listing : List String) :
    PreparedNodes P session (prepareThreadSync m session listing) := by
  have hpersonas : ∀ persona ∈ eligiblePersonas m session.board listing,
      ∀ nodeId ∈ persona.executorNodeId, P nodeId :=
    fun persona hmem => h.board.2.2.1 persona (List.mem_of_mem_filter hmem)
  refine ⟨rfl, rfl, h.putState ⟨h.state.session, h.state.turns, ?_⟩, ?_, hpersonas⟩
  · simp only
    split_ifs
    · nofun
    · exact h.state.imported
  · intro nodeId hmem
    obtain ⟨persona, hpersona, hnode⟩ := List.mem_filterMap.mp hmem
    exact hpersonas persona hpersona nodeId (Option.filter_eq_some_iff.mp hnode).1

theorem prepareTimelinePage_nodes
    (hp : prepareTimelinePage session personaId threadId = some prepared) :
    PreparedNodes P session prepared := by
  obtain ⟨bound, hbound, hp⟩ := Option.bind_eq_some_iff.mp hp
  simp only at hp
  split_ifs at hp
  obtain rfl := Option.some.inj hp
  have hnode := (h.bound hbound).2
  exact ⟨rfl, rfl, h, by simpa using hnode, by simp⟩

end

/-- The execution session of a thread is one of the store. -/
theorem executionSession_mem {threads : BroSession} {persona : Persona} {threadId : Option String}
    {target : ThreadTarget} (ht : resolveBroThreadTarget threads persona threadId = .ok target)
    {selected : ExecutionSession} (hs : target.executionSession = some selected) :
    selected ∈ threads.board.sessions.entries := by
  unfold resolveBroThreadTarget at ht
  split at ht
  · cases ht
  · split at ht
    · rename_i found hfound
      obtain rfl := Except.ok.inj ht
      obtain rfl := Option.some.inj hs
      exact List.mem_reverse.mp (List.mem_of_find?_eq_some hfound)
    · split at ht
      · obtain rfl := Except.ok.inj ht
        cases hs
      · split at ht
        · obtain rfl := Except.ok.inj ht
          cases hs
        · cases ht

section

variable (h : SessionNodes P session)
include h

theorem prepareSubscription_nodes
    (hp : prepareSubscription m session personaId threadId = some prepared) :
    PreparedNodes P session prepared := by
  unfold prepareSubscription at hp
  obtain ⟨bound, hbound, hp⟩ := Option.bind_eq_some_iff.mp hp
  split_ifs at hp
  simp only at hp
  split at hp
  · cases hp
  · rename_i target htarget
    split at hp
    · rename_i codexThreadId nodeId _ hnodeId
      obtain rfl := Option.some.inj hp
      have hnode : P nodeId := by
        split at hnodeId
        · rename_i selected hselected
          have hmem := executionSession_mem htarget hselected
          exact h.board.2.1 selected hmem nodeId (Option.filter_eq_some_iff.mp hnodeId).1
        · obtain rfl := Option.some.inj hnodeId
          exact (h.bound hbound).2
      exact
        { sessionId := rfl
          owner := rfl
          session := ⟨h.state, Table.forall_put h.subscriptions hnode, h.runStates⟩
          nodeIds := by simpa using hnode
          personas := nofun }
    · cases hp

theorem prepareUnsubscription_nodes (hp : prepareUnsubscription session personaId = some prepared) :
    PreparedNodes P session prepared := by
  obtain ⟨subscription, hget, rfl⟩ := Option.map_eq_some_iff.mp hp
  have hnode := h.subscriptions subscription (Table.mem_of_get? hget)
  exact
    { sessionId := rfl
      owner := rfl
      session :=
        ⟨h.state, fun other hmem => h.subscriptions other (Table.mem_erase.mp hmem).1, h.runStates⟩
      nodeIds := by simpa using hnode
      personas := nofun }

theorem answerNode_records {request : InteractionRequest}
    (hr : request ∈ session.board.requests.entries) :
    ∀ nodeId ∈ answerNode session request, P nodeId := by
  intro nodeId hmem
  unfold answerNode at hmem
  split at hmem
  · rename_i state hstate
    refine h.runStates state ?_ nodeId hmem
    rcases Option.or_eq_some_iff.mp hstate with hrun | ⟨-, hsession⟩
    · obtain ⟨runId, -, hget⟩ := Option.bind_eq_some_iff.mp hrun
      exact Table.mem_of_get? hget
    · obtain ⟨sessionId, -, hfind⟩ := Option.bind_eq_some_iff.mp hsession
      exact List.mem_of_find?_eq_some hfind
  · rcases Option.or_eq_some_iff.mp hmem with hnamed | ⟨-, hsession⟩
    · exact h.board.2.2.2 request hr nodeId (Option.filter_eq_some_iff.mp hnamed).1
    · obtain ⟨executionSession, hget, hnode⟩ := Option.bind_eq_some_iff.mp hsession
      obtain ⟨sessionId, -, hget⟩ := Option.bind_eq_some_iff.mp hget
      exact h.board.session hget nodeId hnode

/-- Whatever a session is asked, the node is one that it has recorded. -/
theorem prepare_nodes {request : Request}
    (hp : prepare m session request = some prepared) : PreparedNodes P session prepared := by
  cases request with
  | runTask taskId runId executionSessionId executorType => exact prepareRun_nodes h hp
  | cancelRun runId =>
    obtain ⟨state, hget, rfl⟩ := Option.map_eq_some_iff.mp hp
    have hnode := h.runStates state (Table.mem_of_get? hget)
    exact ⟨rfl, rfl, h, fun nodeId hmem => hnode nodeId (Option.mem_toList.mp hmem), nofun⟩
  | instruct command personaId => exact prepareInstruction_nodes h hp
  | startTurn personaId request => exact prepareTurn_nodes h hp
  | threadPage personaId => exact prepareThreadPage_nodes h hp
  | timelinePage personaId threadId => exact prepareTimelinePage_nodes h hp
  | subscribe personaId threadId => exact prepareSubscription_nodes h hp
  | unsubscribe personaId => exact prepareUnsubscription_nodes h hp
  | supplyAnswer interactionId =>
    obtain ⟨request, hget, rfl⟩ := Option.map_eq_some_iff.mp hp
    have hnode := answerNode_records h (Table.mem_of_get? hget)
    exact ⟨rfl, rfl, h, fun nodeId hmem => hnode nodeId (Option.mem_toList.mp hmem), nofun⟩

end

/-! ## The threads of a snapshot -/

/-- A thread that a snapshot shows has a node that the session knows. -/
theorem projectedThreads_nodes (h : SessionNodes P session) :
    ∀ thread ∈ projectedThreads session.board session.state.imported,
      ∀ nodeId ∈ thread.executorNodeId, P nodeId := by
  intro thread hmem nodeId hnode
  simp only [projectedThreads, List.mem_append, List.mem_filterMap, List.mem_filter,
    List.mem_map] at hmem
  rcases hmem with (⟨executionSession, hsession, hthread⟩ | ⟨⟨imported, himported, rfl⟩, -⟩) |
    ⟨⟨task, htask, hthread⟩, -⟩
  · unfold sessionThread at hthread
    split_ifs at hthread
    obtain ⟨personaId, -, rfl⟩ := Option.map_eq_some_iff.mp hthread
    exact h.board.2.1 executionSession hsession nodeId hnode
  · exact h.state.imported imported himported nodeId hnode
  · unfold taskThread at hthread
    split at hthread
    · rename_i threadId persona _ hpersona
      obtain rfl := Option.some.inj hthread
      rcases Option.or_eq_some_iff.mp hnode with htaskNode | ⟨-, hpersonaNode⟩
      · exact h.board.1 task htask nodeId htaskNode
      · obtain ⟨personaId, -, hget⟩ := Option.bind_eq_some_iff.mp hpersona
        exact h.board.persona hget nodeId hpersonaNode
    · cases hthread

/-! ## Imported threads -/

theorem importListed_records {listed : List (Persona × CodexThreadItem)}
    (h : ∀ thread ∈ imported.threads.entries, ∀ nodeId ∈ thread.executorNodeId, P nodeId)
    (hl : ∀ entry ∈ listed, ∀ nodeId ∈ entry.1.executorNodeId, P nodeId) :
    ∀ thread ∈ (importListed imported listed).threads.entries,
      ∀ nodeId ∈ thread.executorNodeId, P nodeId := by
  unfold importListed
  induction listed generalizing imported with
  | nil => exact h
  | cons entry listed ih =>
    rw [List.foldl_cons]
    refine ih (Table.forall_put h fun nodeId hmem => ?_) fun other hmem =>
      hl other (List.mem_cons_of_mem _ hmem)
    exact hl entry List.mem_cons_self nodeId (Option.filter_eq_some_iff.mp hmem).1

theorem attachNewThread_records {outbound : OutboundTurnRequest}
    (h : ∀ thread ∈ imported.threads.entries, ∀ nodeId ∈ thread.executorNodeId, P nodeId)
    (ho : P outbound.executorNodeId) (threadId executorThreadId : String) :
    ∀ thread ∈ (attachNewThread imported outbound threadId executorThreadId).threads.entries,
      ∀ nodeId ∈ thread.executorNodeId, P nodeId :=
  Table.forall_put h fun _ hmem => Option.some.inj hmem ▸ ho

end

end Newbro.NodeRequests
