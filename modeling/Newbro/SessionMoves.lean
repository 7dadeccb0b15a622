import Newbro.BoardFrames

/-!
# What a step of the session can do

One inversion for each stretch of a coroutine, for the loop and for the whole step
function. Proofs about the session take these cases and never unfold `step`.
-/
namespace Newbro.SessionRuntime

open Library Protocol SessionManager SummaryManager
  SessionCommands InteractionRequests Reconcile Option

@[simp] theorem board_setStage (s : SessionState) (c : Coroutine) (stage : Stage) :
    (s.setStage c stage).board = s.board := by
  unfold SessionState.setStage
  split <;> rfl

@[simp] theorem board_dropCoroutine (s : SessionState) (taskId : String) :
    (s.dropCoroutine taskId).board = s.board := by
  unfold SessionState.dropCoroutine
  split <;> rfl

variable {s : SessionState} {taskId : String}

theorem coroutine?_eq_some {c : Coroutine} (h : s.coroutine? taskId = some c) :
    ∃ coroutines, s.loop = .gathering coroutines ∧ coroutines.get? taskId = some c := by
  unfold SessionState.coroutine? Loop.running at h
  split at h
  · rename_i coroutines hl
    exact ⟨coroutines, hl, h⟩
  · cases h

theorem loop_setStage {coroutines : Table Coroutine.taskId}
    (h : s.loop = .gathering coroutines) (c : Coroutine) (stage : Stage) :
    (s.setStage c stage).loop = .gathering (coroutines.put { c with stage := stage }) := by
  simp [SessionState.setStage, h]

theorem loop_dropCoroutine {coroutines : Table Coroutine.taskId}
    (h : s.loop = .gathering coroutines) (taskId : String) :
    (s.dropCoroutine taskId).loop = .gathering (coroutines.erase taskId) := by
  simp [SessionState.dropCoroutine, h]

@[simp] theorem effects_setStage (s : SessionState) (c : Coroutine) (stage : Stage) :
    (s.setStage c stage).effects = s.effects := by
  unfold SessionState.setStage
  split <;> rfl

@[simp] theorem effects_dropCoroutine (s : SessionState) (taskId : String) :
    (s.dropCoroutine taskId).effects = s.effects := by
  unfold SessionState.dropCoroutine
  split <;> rfl

/-- What the loop and its coroutines never touch. -/
def SessionState.outsideLoop (s : SessionState) :
    Table Creation.creationId × Table CommandInFlight.commandId × Table AnswerInFlight.requestId ×
      List String × List String :=
  (s.creations, s.commands, s.answers, s.halted, s.superseded)

@[simp] theorem outsideLoop_setStage (s : SessionState) (c : Coroutine) (stage : Stage) :
    (s.setStage c stage).outsideLoop = s.outsideLoop := by
  unfold SessionState.setStage
  split <;> rfl

@[simp] theorem outsideLoop_dropCoroutine (s : SessionState) (taskId : String) :
    (s.dropCoroutine taskId).outsideLoop = s.outsideLoop := by
  unfold SessionState.dropCoroutine
  split <;> rfl

variable {label : Label}

variable {commandId requestId key : String} {b b' : Blackboard} {request : InteractionRequest}

section inversions

variable {cfg : Config} {s s' : SessionState} {c : Coroutine} {task : Task} {taskId : String}

theorem lookupExecutor_cases
    (h : executeStep cfg s c task (.lookupExecutor taskId) = some s') :
    c.stage = .spawned ∧
      ((cfg.registry.contains (executorTypeOf cfg task) = true ∧
          s' = s.setStage c (.ready (executorTypeOf cfg task))) ∨
        (cfg.registry.contains (executorTypeOf cfg task) = false ∧
          s' = { s with board := failUnknownExecutor s.board task c.claimed
                          (executorTypeOf cfg task) }.dropCoroutine c.taskId)) := by
  simp only [executeStep] at h
  split at h
  · rename_i hstage
    refine ⟨hstage, ?_⟩
    split_ifs at h with hr
    · exact .inl ⟨hr, (some.inj h).symm⟩
    · exact .inr ⟨by simpa using hr, (some.inj h).symm⟩
  · cases h

theorem ensureSession_cases {created : ExecutorSession} {freshId : String}
    (h : executeStep cfg s c task (.ensureSession taskId created freshId) = some s') :
    ∃ executorType, c.stage = .ready executorType ∧
      s.board.getSession freshId = none ∧ freshId ≠ "" ∧
      s' = ensuredSession s c executorType
        (ensureSession s.board s.live executorType task c.claimed created freshId) := by
  simp only [executeStep] at h
  split at h
  · rename_i executorType hstage
    split_ifs at h with hg
    simp only [Bool.or_eq_true, decide_eq_true_eq, not_or, Bool.not_eq_true] at hg
    refine ⟨executorType, hstage, ?_, hg.1.2, (some.inj h).symm⟩
    simpa [Table.contains, Blackboard.getSession] using hg.1.1
  · cases h

theorem createRun_cases {runId : String}
    (h : executeStep cfg s c task (.createRun taskId runId) = some s') :
    ∃ executorType sessionId executorSessionId session,
      c.stage = .sessionReady executorType sessionId executorSessionId ∧
      s.board.getSession sessionId = some session ∧
      s.board.getRun runId = none ∧ runId ≠ "" ∧
      s' = { s with
              board := RunManager.createRun s.board task session c.claimed.claimedBy
                executorType runId }.setStage c
            (.runCreated ⟨executorType, sessionId, executorSessionId, runId⟩) := by
  simp only [executeStep] at h
  split at h
  · rename_i executorType sessionId executorSessionId hstage
    split at h
    · cases h
    · rename_i session hsession
      split_ifs at h with hg
      simp only [Bool.or_eq_true, decide_eq_true_eq, not_or, Bool.not_eq_true] at hg
      refine ⟨_, _, _, session, hstage, hsession, ?_, hg.2, (some.inj h).symm⟩
      simpa [Table.contains, Blackboard.getRun] using hg.1
  · cases h

theorem beginRunTask_cases (h : executeStep cfg s c task (.beginRunTask taskId) = some s') :
    ∃ handle, c.stage = .runCreated handle ∧
      s' = { s with effects := s.effects ++ [Effect.runTask c.taskId handle.runId]
            }.setStage c (.dispatching handle) := by
  simp only [executeStep] at h
  split at h
  · rename_i handle hstage
    exact ⟨handle, hstage, (some.inj h).symm⟩
  · cases h

theorem sendDispatch_cases (h : executeStep cfg s c task (.sendDispatch taskId) = some s') :
    ∃ handle, c.stage = .dispatching handle ∧
      s' = { s with effects := s.effects ++ [Effect.dispatchRun c.taskId handle.runId]
            }.setStage c (.draining handle) := by
  simp only [executeStep] at h
  split at h
  · rename_i handle hstage
    exact ⟨handle, hstage, (some.inj h).symm⟩
  · cases h

theorem skipDispatch_cases (h : executeStep cfg s c task (.skipDispatch taskId) = some s') :
    ∃ handle, c.stage = .dispatching handle ∧ s' = s.setStage c (.draining handle) := by
  simp only [executeStep] at h
  split at h
  · rename_i handle hstage
    exact ⟨handle, hstage, (some.inj h).symm⟩
  · cases h

theorem runEvent_cases {event : ExecutorEvent} {resume : Option AgentResumeHandle}
    (h : executeStep cfg s c task (.runEvent taskId event resume) = some s') :
    ∃ handle run, c.stage = .draining handle ∧ s.board.getRun handle.runId = some run ∧
      s' = if isTerminalEvent event.eventType then
          (drainedEvent s c handle task run event resume).dropCoroutine c.taskId
        else drainedEvent s c handle task run event resume := by
  simp only [executeStep] at h
  split at h
  · rename_i handle hstage
    split at h
    · cases h
    · rename_i run hrun
      exact ⟨handle, run, hstage, hrun, (some.inj h).symm⟩
  · cases h

theorem raiseException_cases {text errorType : String}
    (h : executeStep cfg s c task (.raiseException taskId text errorType) = some s') :
    c.stage.insideTry = true ∧
      s' = { s with
              board := failExecutionException s.board task c.claimed (c.run? s.board) text
                errorType }.dropCoroutine c.taskId := by
  simp only [executeStep] at h
  split_ifs at h with hstage
  exact ⟨hstage, (some.inj h).symm⟩

theorem finishCreation_cases {creationId : String} {template : Task}
    (h : finishCreation s creationId template = some s') :
    ∃ creation, s.creations.get? creationId = some creation ∧
      s.board.getTask template.taskId = none ∧
      Dict.lookup template.metadata "persona_id" = none ∧
      s' = { s with
              board := (occupyPersona s.board creation.persona).putTask
                (createdTask creation template)
              creations := s.creations.erase creationId } := by
  unfold finishCreation at h
  cases hc : s.creations.get? creationId with
  | none => simp [hc] at h
  | some creation =>
    simp only [hc] at h
    split_ifs at h with hg
    simp only [Bool.or_eq_true, not_or, Bool.not_eq_true] at hg
    refine ⟨creation, rfl, ?_, ?_, (some.inj h).symm⟩
    · simpa [Table.contains, Blackboard.getTask] using hg.1
    · simpa [Table.contains, Dict.lookup] using hg.2

theorem markCommandStep_cases (h : markCommandStep cfg s commandId = some s') :
    ∃ c, s.commands.get? commandId = some c ∧ c.marked = false ∧ s' = markedCommand cfg s c := by
  unfold markCommandStep at h
  cases hc : s.commands.get? commandId with
  | none => simp [hc] at h
  | some c =>
    simp only [hc] at h
    split_ifs at h with hm
    exact ⟨c, rfl, by simpa using hm, (some.inj h).symm⟩

theorem finishCommandStep_cases (h : finishCommandStep s commandId = some s') :
    ∃ c, s.commands.get? commandId = some c ∧ c.marked = true ∧ s' = finishedCommand s c := by
  unfold finishCommandStep at h
  cases hc : s.commands.get? commandId with
  | none => simp [hc] at h
  | some c =>
    simp only [hc] at h
    split_ifs at h with hm
    exact ⟨c, rfl, hm, (some.inj h).symm⟩

theorem beginCommandStep_cases {command : TaskCommand}
    (h : beginCommandStep cfg s command = some s') :
    s' = s ∨ ∃ c, c.command = command ∧ c.marked = false ∧
      s.commands.get? command.commandId = none ∧ (s.board.getTask command.taskId).isSome ∧
      s' = { s with board := s.board.appendCommand command, commands := s.commands.put c } := by
  unfold beginCommandStep beginCommand at h
  split_ifs at h with hg
  have hfresh : s.commands.get? command.commandId = none := by simpa [Table.contains] using hg
  cases ht : s.board.getTask command.taskId with
  | none => simp only [ht] at h; exact .inl (some.inj h).symm
  | some task =>
    simp only [ht] at h
    cases hv : validateTaskCommand cfg s.board task command.commandType with
    | some message => simp [hv] at h
    | none =>
      simp only [hv] at h
      exact .inr ⟨_, rfl, rfl, hfresh, rfl, (some.inj h).symm⟩

theorem finishAnswerStep_cases {nativeResolved : Bool}
    (h : finishAnswerStep s requestId nativeResolved = some s') :
    ∃ a, s.answers.get? requestId = some a ∧
      s' = { s with
              board := finishAnswer s.board a nativeResolved
              answers := s.answers.erase requestId } := by
  unfold finishAnswerStep at h
  cases ha : s.answers.get? requestId with
  | none => simp [ha] at h
  | some a => simp only [ha] at h; exact ⟨a, rfl, (some.inj h).symm⟩

/-- What a step of the loop can do. -/
inductive LoopMove (cfg : Config) (s : SessionState) : SessionState → Prop
  | stay : LoopMove cfg s s
  | rest (loop : Loop) (h : loop = .idle ∨ loop = .checking ∨ loop = .listing) :
      LoopMove cfg s { s with loop := loop }
  | list :
      LoopMove cfg s { s with
        loop := .claiming ((listRunnableTasks s.board).map Task.taskId) Table.empty }
  | skip {t : String} {listed : List String} {claimed : Table Coroutine.taskId}
      (hl : s.loop = .claiming (t :: listed) claimed) :
      LoopMove cfg s { s with loop := .claiming listed claimed }
  | claim {t : String} {listed : List String} {claimed : Table Coroutine.taskId} {task : Task}
      {now : Nat} {board : Blackboard} {binding : SessionBinding}
      (hl : s.loop = .claiming (t :: listed) claimed) (ht : s.board.getTask t = some task)
      (hc : claimTask s.board cfg.workerId now task = some (board, binding)) :
      LoopMove cfg s { s with
        board := board
        loop := .claiming listed (claimed.put ⟨t, binding, .spawned⟩) }
  | gather {claimed : Table Coroutine.taskId} (hl : s.loop = .claiming [] claimed) :
      LoopMove cfg s { s with loop := .gathering claimed }

theorem loopStep_cases (h : loopStep cfg s label = some s') : LoopMove cfg s s' := by
  unfold loopStep at h
  split at h
  · split at h
    · obtain rfl := some.inj h
      exact .rest _ (by simp)
    · obtain rfl := some.inj h
      exact .stay
  · split at h
    · split_ifs at h <;> obtain rfl := some.inj h <;> exact .rest _ (by simp)
    · cases h
  · split at h
    · obtain rfl := some.inj h
      exact .list
    · cases h
  · split at h
    · rename_i t listed claimed hl
      split at h
      · cases h
      · rename_i task ht
        split at h
        · obtain rfl := some.inj h
          exact .skip hl
        · rename_i hc
          obtain rfl := some.inj h
          exact .claim hl ht hc
    · cases h
  · split at h
    · rename_i claimed hl
      split_ifs at h <;> obtain rfl := some.inj h
      · exact .rest _ (by simp)
      · exact .gather hl
    · cases h
  · split at h
    · split_ifs at h
      obtain rfl := some.inj h
      exact .rest _ (by simp)
    · cases h
  · cases h

/-- The labels of the execution loop itself. -/
def Label.isLoop : Label → Bool
  | .scheduleExecution => true
  | .checkRunnable => true
  | .listRunnable => true
  | .claimNext _ => true
  | .gather => true
  | .finishTick => true
  | _ => false

/-- The executor calls in a log that start work for a task. -/
def workFor (effects : List Effect) (taskId : String) : List Effect :=
  effects.filter fun
    | .runTask t _ => t = taskId
    | .dispatchRun t _ => t = taskId
    | .signal _ => false

theorem workFor_append_signals (effects : List Effect) (signals : List Signal) (taskId : String) :
    workFor (effects ++ signals.map Effect.signal) taskId = workFor effects taskId := by
  simp [workFor]

/-- What a step of the session can do, label by label. -/
inductive Move (cfg : Config) (s : SessionState) : Label → SessionState → Prop
  | startCreation {creationId : String} {source : CreationSource} {personaId : Option String}
      (hp : admitsPersona s.board source personaId (personaId.bind s.board.getPersona) = true) :
      Move cfg s (.startCreation creationId source personaId)
        { s with creations :=
            s.creations.put ⟨creationId, source, personaId.bind s.board.getPersona⟩ }
  | finishCreation {creationId : String} {template : Task} {creation : Creation}
      (hc : s.creations.get? creationId = some creation)
      (ht : s.board.getTask template.taskId = none)
      (hp : Dict.lookup template.metadata "persona_id" = none) :
      Move cfg s (.finishCreation creationId template)
        { s with
          board := (occupyPersona s.board creation.persona).putTask
            (createdTask creation template)
          creations := s.creations.erase creationId }
  | amendTask {label : Label} {task task' : Task}
      (ht : s.board.getTask task.taskId = some task) (hid : task'.taskId = task.taskId)
      (hstatus : task'.status = task.status) (hpersona : task'.personaId = task.personaId)
      (hlabel : (∃ patch, label = .updateTask task.taskId patch) ∨
        ∃ key value, label = .annotateTask task.taskId key value) :
      Move cfg s label { s with board := s.board.putTask task' }
  | syncPersonas {persisted : Table Persona.personaId} :
      Move cfg s (.syncPersonas persisted) { s with board := syncPersonas s.board persisted }
  | ignoreCommand {command : TaskCommand} : Move cfg s (.beginCommand command) s
  | beginCommand {c : CommandInFlight} (hm : c.marked = false)
      (ht : (s.board.getTask c.command.taskId).isSome) :
      Move cfg s (.beginCommand c.command)
        { s with board := s.board.appendCommand c.command, commands := s.commands.put c }
  | markCommand {commandId : String} {c : CommandInFlight}
      (hc : s.commands.get? commandId = some c) (hm : c.marked = false) :
      Move cfg s (.markCommand commandId) (markedCommand cfg s c)
  | finishCommand {commandId : String} {c : CommandInFlight}
      (hc : s.commands.get? commandId = some c) (hm : c.marked = true) :
      Move cfg s (.finishCommand commandId) (finishedCommand s c)
  | agentEvent {taskId type : String} :
      Move cfg s (.agentEvent taskId type)
        { s with board := ingestAgentEvent s.board taskId type }
  | raiseRequest {request : InteractionRequest} :
      Move cfg s (.raiseRequest request)
        { s with board := s.board.putInteractionRequest request }
  | beginAnswer {requestId : String} {answer : Answer} {request : InteractionRequest} :
      Move cfg s (.beginAnswer requestId answer)
        { s with
          board := s.board.putInteractionRequest request
          answers := s.answers.put ⟨request, answer⟩ }
  | finishAnswer {requestId : String} {nativeResolved : Bool} {a : AnswerInFlight}
      (ha : s.answers.get? requestId = some a) :
      Move cfg s (.finishAnswer requestId nativeResolved)
        { s with
          board := finishAnswer s.board a nativeResolved
          answers := s.answers.erase requestId }
  | requeueWaiting {connected : String → Option String → Bool} :
      Move cfg s (.requeueWaiting connected)
        { s with board := requeueWaitingExecutorTasks s.board connected }
  | loop {label : Label} {s' : SessionState} (hl : label.isLoop = true)
      (h : LoopMove cfg s s') : Move cfg s label s'
  | coroutine {label : Label} {s' : SessionState} {taskId : String} {c : Coroutine} {task : Task}
      (hl : label.coroutineTask = some taskId) (hc : s.coroutine? taskId = some c)
      (ht : s.board.getTask taskId = some task)
      (h : executeStep cfg s c task label = some s') : Move cfg s label s'

theorem outsideLoop_executeStep
    (h : executeStep cfg s c task label = some s') : s'.outsideLoop = s.outsideLoop := by
  cases label
  case lookupExecutor =>
    obtain ⟨-, ⟨-, rfl⟩ | ⟨-, rfl⟩⟩ := lookupExecutor_cases h
    · exact outsideLoop_setStage ..
    · exact outsideLoop_dropCoroutine ..
  case ensureSession =>
    obtain ⟨_, -, -, -, rfl⟩ := ensureSession_cases h
    exact outsideLoop_setStage ..
  case createRun =>
    obtain ⟨_, _, _, _, -, -, -, -, rfl⟩ := createRun_cases h
    exact outsideLoop_setStage ..
  case beginRunTask =>
    obtain ⟨_, -, rfl⟩ := beginRunTask_cases h
    exact outsideLoop_setStage ..
  case sendDispatch =>
    obtain ⟨_, -, rfl⟩ := sendDispatch_cases h
    exact outsideLoop_setStage ..
  case skipDispatch =>
    obtain ⟨_, -, rfl⟩ := skipDispatch_cases h
    exact outsideLoop_setStage ..
  case runEvent =>
    obtain ⟨_, _, -, -, rfl⟩ := runEvent_cases h
    split_ifs
    · exact outsideLoop_dropCoroutine ..
    · rfl
  case raiseException =>
    obtain ⟨-, rfl⟩ := raiseException_cases h
    exact outsideLoop_dropCoroutine ..
  all_goals cases h

theorem persona_id_not_annotated (h : key ∈ annotationKeys) :
    key ≠ "persona_id" := by
  rintro rfl
  exact absurd h (by decide)

theorem updateTask_move {patch : TaskPatch}
    (h : updateTask cfg s taskId patch = some s') : Move cfg s (.updateTask taskId patch) s' := by
  unfold updateTask at h
  cases ht : s.board.getTask taskId with
  | none => simp [ht] at h
  | some task =>
    obtain rfl : task.taskId = taskId := Table.key_of_get? ht
    simp only [ht] at h
    split_ifs at h
    obtain rfl := some.inj h
    exact .amendTask ht rfl rfl rfl (.inl ⟨patch, rfl⟩)

theorem annotateTask_move {value : Option Value}
    (h : annotateTask s taskId key value = some s') :
    Move cfg s (.annotateTask taskId key value) s' := by
  unfold annotateTask at h
  cases ht : s.board.getTask taskId with
  | none => simp [ht] at h
  | some task =>
    obtain rfl : task.taskId = taskId := Table.key_of_get? ht
    simp only [ht] at h
    split_ifs at h with hk
    obtain rfl := some.inj h
    have hkey := persona_id_not_annotated hk
    refine .amendTask ht rfl rfl ?_ (.inr ⟨key, value, rfl⟩)
    cases value <;>
      simp [Task.personaId, Metadata.str?_set_of_ne, Metadata.str?_erase_of_ne, hkey]

theorem raiseRequest_board
    (h : raiseRequest b request = some b') : b' = b.putInteractionRequest request := by
  unfold raiseRequest at h
  split at h
  · cases h
  · simp only at h
    split_ifs at h
    exact (some.inj h).symm

theorem resolveRequest_board {answer : Answer}
    (h : resolveRequest b requestId answer = .ok (b', request)) :
    b' = b.putInteractionRequest request := by
  unfold resolveRequest at h
  cases hr : b.getRequest requestId with
  | none => simp [hr] at h
  | some found =>
    simp only [hr] at h
    split_ifs at h
    cases hs : resolvedStatusForAction answer.action with
    | none => simp [hs] at h
    | some status =>
      simp only [hs, Except.ok.injEq, Prod.mk.injEq] at h
      obtain ⟨rfl, rfl⟩ := h
      rfl

/-- Every step is one of the moves. -/
theorem step_cases (h : step cfg s label = some s') : Move cfg s label s' := by
  have coroutine_move : coroutineStep cfg s label = some s' → Move cfg s label s' := by
    intro h
    unfold coroutineStep at h
    split at h
    · cases h
    · rename_i taskId hl
      split at h
      · rename_i c task hc ht
        exact .coroutine hl hc ht h
      · cases h
  have loop_move : loopStep cfg s label = some s' → label.isLoop = true →
      Move cfg s label s' := fun h hl => .loop hl (loopStep_cases h)
  cases label
  case startCreation creationId source personaId =>
    simp only [step, startCreation] at h
    split_ifs at h with hg
    obtain rfl := some.inj h
    exact .startCreation (Bool.and_eq_true_iff.mp hg).1
  case finishCreation =>
    obtain ⟨creation, hc, ht, hp, rfl⟩ := finishCreation_cases h
    exact .finishCreation hc ht hp
  case updateTask => exact updateTask_move h
  case annotateTask => exact annotateTask_move h
  case syncPersonas =>
    obtain rfl := some.inj h
    exact .syncPersonas
  case beginCommand =>
    obtain rfl | ⟨c, rfl, hm, -, ht, rfl⟩ := beginCommandStep_cases h
    · exact .ignoreCommand
    · exact .beginCommand hm ht
  case markCommand =>
    obtain ⟨c, hc, hm, rfl⟩ := markCommandStep_cases h
    exact .markCommand hc hm
  case finishCommand =>
    obtain ⟨c, hc, hm, rfl⟩ := finishCommandStep_cases h
    exact .finishCommand hc hm
  case agentEvent =>
    obtain rfl := some.inj h
    exact .agentEvent
  case raiseRequest =>
    obtain ⟨b', hb, rfl⟩ := map_eq_some_iff.mp h
    rw [raiseRequest_board hb]
    exact .raiseRequest
  case beginAnswer =>
    simp only [step, beginAnswerStep] at h
    split at h
    · cases h
    · rename_i b' request hr
      obtain rfl := some.inj h
      rw [resolveRequest_board hr]
      exact .beginAnswer
  case finishAnswer =>
    obtain ⟨a, ha, rfl⟩ := finishAnswerStep_cases h
    exact .finishAnswer ha
  case requeueWaiting =>
    obtain rfl := some.inj h
    exact .requeueWaiting
  case scheduleExecution => exact loop_move h rfl
  case checkRunnable => exact loop_move h rfl
  case listRunnable => exact loop_move h rfl
  case claimNext => exact loop_move h rfl
  case gather => exact loop_move h rfl
  case finishTick => exact loop_move h rfl
  all_goals exact coroutine_move h

end inversions

end Newbro.SessionRuntime
