import Mathlib
import Newbro.Protocol

/-!
# The executor node service

`ExecutorNodeService`: the control commands that it receives, the tables of live sessions,
active runs, thread subscriptions and background commands, and the tasks that handle a
command after the receive loop has gone on. What the executors, the transcriber and the
file system answer during one step is given by `Calls`; each of them may raise.
-/
namespace Newbro.NodeCommands

open Library Protocol

/-- An executor, by the hooks that the service looks for on it. -/
structure Executor where
  executorType : String
  listsThreads : Bool
  listsTurns : Bool
  readsThreads : Bool
  startsTurns : Bool
  subscribesThreads : Bool
  unsubscribesThreads : Bool
  takesText : Bool
  takesAudio : Bool
  deriving Repr, DecidableEq

/-! ## Commands and messages -/

structure DispatchRun where
  runId : String
  executionSessionId : String
  executorType : String
  taskId : String
  title : String
  goal : String
  latestInstruction : Option String
  workspaceId : Option String
  taskMetadata : Metadata
  latestResumeHandle : Option AgentResumeHandle

structure AudioInstruction where
  audioInstructionId : String
  targetThreadId : Option String
  clientRequestId : Value

structure DispatchAudioInstruction where
  runId : String
  executionSessionId : String
  executorType : String
  taskId : String
  audio : AudioInstruction

structure DispatchTextInstruction where
  runId : String
  executionSessionId : String
  executorType : String
  taskId : String
  instructionId : String
  clientRequestId : Value

structure SubscribeCodexThread where
  requestId : String
  subscriptionId : String
  executorType : String
  threadId : String
  workspaceId : Option String

structure StartCodexTurn where
  requestId : String
  executorType : String
  instructionId : String
  metadata : Metadata

/-- The commands that `_schedule_background_command` takes. -/
inductive BackgroundCommand where
  | startCodexTurn (command : StartCodexTurn)
  | listCodexThreads (requestId executorType : String)
  | listCodexThreadTurns (requestId executorType threadId : String)
  | readCodexThread (requestId executorType threadId : String)
  | readWorkspaceFile (requestId threadId : String) (executorThreadId : Option String)
      (path : String)
  | subscribeCodexThread (command : SubscribeCodexThread)
  | unsubscribeCodexThread (requestId subscriptionId threadId : String)

inductive CancelMode where
  | cancel
  | pause
  deriving Repr, DecidableEq

/-- The well-formed control commands. -/
inductive ControlCommand where
  | dispatchRun (command : DispatchRun)
  | dispatchAudioInstruction (command : DispatchAudioInstruction)
  | transcribeAudioInstruction (requestId : String) (audio : AudioInstruction)
  | dispatchTextInstruction (command : DispatchTextInstruction)
  | background (command : BackgroundCommand)
  | cancelRun (runId : String) (mode : CancelMode)
  | supplyInteractionResponse (executionSessionId outboundTurnRequestId : Option String)
      (nativeResponse : Option Fields)
  | releaseRun (executionSessionId : String)

structure ThreadListItem where
  threadId : String
  cwd : Option String
  deriving Repr, DecidableEq

/-- What the service sends, with the errors as they are. -/
inductive NodeMessage where
  | runEvent (runId executionSessionId executorType sessionId : String)
      (eventType : ExecutorEventType) (message : Option String) (metadata : Metadata)
  | codexThreadsListed (requestId : String) (result : Except String (List ThreadListItem))
  | codexThreadTurnsListed (requestId threadId : String) (result : Except String Value)
  | codexThreadRead (requestId : String) (result : Except String Value)
  | codexTurnEvent (requestId : String) (eventType : ExecutorEventType)
      (message : Option String) (error : Option String) (metadata : Metadata)
  | codexThreadSubscribed (requestId subscriptionId threadId : String) (error : Option String)
  | codexThreadUnsubscribed (requestId subscriptionId threadId status : String)
  | codexThreadEvent (subscriptionId threadId method : String)
  | audioInstructionTranscribed (requestId : String) (result : Except String String)
  | workspaceFileChunk (requestId : String) (seq : Nat) (block : List UInt8)
  | workspaceFileEof (requestId : String) (totalBytes : Nat)
  | workspaceFileError (requestId code message : String)

/-! ## The state -/

structure LiveSession where
  executionSessionId : String
  sessionId : String
  codex : Bool
  deriving Repr, DecidableEq

/-- A task of `_run_dispatch`. -/
structure RunTask where
  task : Nat
  command : DispatchRun
  session : LiveSession

structure LocalRunContext where
  runId : String
  executor : Executor
  executionSessionId : String
  task : Nat
  deriving Repr, DecidableEq

/-- How far the task of a subscription has come. -/
inductive StreamPhase where
  | resuming
  | streaming
  | ended
  | died (error : String)
  deriving Repr, DecidableEq

structure SubscriptionContext where
  subscriptionId : String
  executor : Executor
  threadId : String
  workspaceId : Option String
  session : Option String
  stream : StreamPhase
  deriving Repr, DecidableEq

structure BackgroundTask where
  task : Nat
  command : BackgroundCommand

/-- The control connection, and the end of `run_forever`. -/
inductive Link where
  | connected
  | retrying
  | stopped
  deriving Repr, DecidableEq

structure NodeService where
  executors : Table Executor.executorType
  transcriberAvailable : Bool
  liveSessions : Table LiveSession.executionSessionId
  threadWorkspaces : Dict String String
  codexThreadWorkspaces : Dict String String
  activeRuns : Table LocalRunContext.runId
  runTasks : Table RunTask.task
  subscriptions : Table SubscriptionContext.subscriptionId
  backgroundCommands : Table BackgroundTask.task
  /-- The sessions whose wait for an answer is over. -/
  blockedResolved : List String
  link : Link
  sent : List NodeMessage

/-- Why a file is not released: a `WorkspaceFileAccessError`, or another exception. -/
inductive FileFailure where
  | access (code message : String)
  | other (message : String)

/-- What the calls of one step return or raise. -/
structure Calls where
  resolveWorkspace : Except String String
  createSession : Except String LiveSession
  hydrate : Except String Unit
  alive : LiveSession → Bool
  cancelRun : Except String Unit
  threads : Except String (List Fields)
  page : Except String Value
  /-- The events of an asynchronous generator, and what it raises in the end. -/
  events : List ExecutorEvent
  raised : Option String
  transcribe : Except String String
  respond : Except String Unit
  /-- The session of a Codex turn that runs for an outbound request. -/
  outboundSession : String → Option LiveSession
  unsubscribe : Except String (Option String)
  resolveFile : Except FileFailure String
  blocks : List (List UInt8)
  blocksFail : Option FileFailure

namespace NodeService

variable (service : NodeService)

def send (message : NodeMessage) : NodeService :=
  { service with sent := service.sent ++ [message] }

def sendAll (messages : List NodeMessage) : NodeService :=
  { service with sent := service.sent ++ messages }

/-- A number that no task of the list has. -/
def freshTask (tasks : List Nat) : Nat := tasks.foldr max 0 + 1

/-- `executors.get(executor_type)` when it has the hook. -/
def executorWith (executorType : String) (hook : Executor → Bool) :
    Option Executor :=
  (service.executors.get? executorType).filter hook

/-! ## Dispatch -/

variable (calls : Calls) (command : DispatchRun)

/-- `_ensure_session`; nothing is stored when it raises. -/
def ensureSession :
    Except String (LiveSession × NodeService) :=
  match (service.liveSessions.get? command.executionSessionId).filter calls.alive with
  | some existing => .ok (existing, service)
  | none => do
      let _ ← calls.resolveWorkspace
      let created ← calls.createSession
      if command.latestResumeHandle.isSome then calls.hydrate
      let session := { created with executionSessionId := command.executionSessionId }
      .ok (session, { service with liveSessions := service.liveSessions.put session })

def startRun (executor : Executor) (session : LiveSession)
    (command : DispatchRun) : NodeService :=
  let task := freshTask (service.runTasks.entries.map RunTask.task)
  { service with
    runTasks := service.runTasks.put ⟨task, command, session⟩
    activeRuns := service.activeRuns.put
      ⟨command.runId, executor, command.executionSessionId, task⟩ }

/-- `_dispatch_run`; an executor type that is not enabled is a `KeyError`. -/
def dispatchRun :
    Except String NodeService :=
  match service.executors.get? command.executorType with
  | none => .error ("'" ++ command.executorType ++ "'")
  | some executor =>
    (service.ensureSession calls command).map fun (session, service) =>
      service.startRun executor session command

def runEventOf (sessionId : String) (eventType : ExecutorEventType)
    (message : Option String) (metadata : Metadata) : NodeMessage :=
  .runEvent command.runId command.executionSessionId command.executorType sessionId eventType
    message metadata

/-- One event of the executor in `_run_dispatch`. -/
def runTaskEvent (task : Nat) (event : ExecutorEvent) : NodeService :=
  match service.runTasks.get? task with
  | none => service
  | some t => service.send
      (runEventOf t.command t.session.sessionId event.eventType event.message event.metadata)

/-- The `finally` of `_run_dispatch`. -/
def finishRunTask (t : RunTask) : NodeService :=
  { service with
    runTasks := service.runTasks.erase t.task
    activeRuns := service.activeRuns.erase t.command.runId
    liveSessions :=
      if calls.alive t.session then service.liveSessions
      else service.liveSessions.erase t.command.executionSessionId }

/-- The end of `_run_dispatch`: what the executor raises is sent as a failure. -/
def runTaskEnds (task : Nat) (raised : Option String) :
    NodeService :=
  match service.runTasks.get? task with
  | none => service
  | some t =>
    let service :=
      match raised with
      | none => service
      | some message =>
        service.send (runEventOf t.command t.session.sessionId .failed (some message) Table.empty)
    service.finishRunTask calls t

def cancelRun (runId : String) :
    Except String NodeService :=
  match service.activeRuns.get? runId with
  | none => .ok service
  | some _ => calls.cancelRun.map fun _ => service

/-! ## Instructions -/

variable (metadata : Metadata)

/-- `metadata.setdefault(key, value)` -/
def setDefault (key : String) (value : Value) : Metadata :=
  match Dict.lookup metadata key with
  | some _ => metadata
  | none => Dict.set metadata key value

/-- The context of a run together with its live session. -/
def activeSession (runId executionSessionId : String) :
    Option (LocalRunContext × LiveSession) :=
  (service.activeRuns.get? runId).bind fun context =>
    (service.liveSessions.get? executionSessionId).map fun session => (context, session)

def audioEvent (command : DispatchAudioInstruction) (sessionId : String)
    (eventType : ExecutorEventType) (message : Option String) (metadata : Metadata) :
    NodeMessage :=
  .runEvent command.runId command.executionSessionId command.executorType sessionId eventType
    message metadata

/-- `_send_audio_instruction_event` for a failure. -/
def audioFailed (command : DispatchAudioInstruction) (message : String) : NodeMessage :=
  audioEvent command command.executionSessionId .failed (some message)
    (Dict.set Table.empty "audio_instruction_id" (.str command.audio.audioInstructionId))

/-- What `_dispatch_audio_instruction` sends. -/
def audioMessages (command : DispatchAudioInstruction) :
    List NodeMessage :=
  match service.activeSession command.runId command.executionSessionId with
  | none => [audioFailed command "No active executor run is available for audio."]
  | some (context, session) =>
    if !context.executor.takesText && !context.executor.takesAudio then
      [audioFailed command ("Executor '" ++ command.executorType ++
        "' does not support audio instructions.")]
    else if context.executor.takesText && service.transcriberAvailable then
      match calls.transcribe with
      | .error message => [audioFailed command message]
      | .ok transcript =>
        if transcript = "" then
          [audioFailed command "Audio transcription produced no instruction text."]
        else
          [audioEvent command session.sessionId .progress
            (some "Audio instruction transcribed.")
            (Dict.set (Dict.set (Dict.set (Dict.set (Dict.set Table.empty
              "source" (.str "executor_node_whisper"))
              "source_audio_instruction_id" (.str command.audio.audioInstructionId))
              "target_thread_id" (.str (command.audio.targetThreadId.getD "")))
              "transcript_text" (.str transcript))
              "client_request_id" command.audio.clientRequestId)]
    else if context.executor.takesAudio then
      (calls.events.map fun event =>
        audioEvent command session.sessionId event.eventType event.message
          (setDefault (setDefault event.metadata "client_request_id"
            command.audio.clientRequestId) "source_audio_instruction_id"
            (.str command.audio.audioInstructionId))) ++
        (calls.raised.map (audioFailed command)).toList
    else
      [audioFailed command
        "Local Whisper transcription is not available on this executor node."]

def textEvent (command : DispatchTextInstruction) (sessionId : String)
    (eventType : ExecutorEventType) (message : Option String) (metadata : Metadata) :
    NodeMessage :=
  .runEvent command.runId command.executionSessionId command.executorType sessionId eventType
    message metadata

/-- `_send_text_instruction_event` for a failure. -/
def textFailed (command : DispatchTextInstruction) (message : String) : NodeMessage :=
  textEvent command command.executionSessionId .failed (some message)
    (Dict.set (Dict.set (Dict.set Table.empty "instruction_id" (.str command.instructionId))
      "client_request_id" command.clientRequestId) "source" (.str "executor_text_instruction"))

/-- What `_dispatch_text_instruction` sends. -/
def textMessages (command : DispatchTextInstruction) :
    List NodeMessage :=
  match service.activeSession command.runId command.executionSessionId with
  | none => [textFailed command "No active executor run is available for text."]
  | some (context, session) =>
    if context.executor.takesText then
      (calls.events.map fun event =>
        textEvent command session.sessionId event.eventType event.message
          (setDefault (setDefault event.metadata "client_request_id" command.clientRequestId)
            "instruction_id" (.str command.instructionId))) ++
        (calls.raised.map (textFailed command)).toList
    else
      [textFailed command ("Executor '" ++ command.executorType ++
        "' does not support text follow-up instructions.")]

variable (requestId : String)

/-- What `_transcribe_audio_instruction` sends. -/
def transcribed : NodeMessage :=
  if !service.transcriberAvailable then
    .audioInstructionTranscribed requestId
      (.error "Local Whisper transcription is not available on this executor node.")
  else
    match calls.transcribe with
    | .error message => .audioInstructionTranscribed requestId (.error message)
    | .ok transcript =>
      if transcript = "" then
        .audioInstructionTranscribed requestId
          (.error "Audio transcription produced no instruction text.")
      else .audioInstructionTranscribed requestId (.ok transcript)

/-! ## Threads and files -/

/-- `_codex_thread_list_item`, up to the fields that the service reads again. -/
def codexThreadListItem (item : Fields) : Except String ThreadListItem :=
  let threadId := Value.orGet (Value.orGet (item.lookup "id") (item.lookup "threadId"))
    (item.lookup "sessionId")
  match (threadId.bind Value.str?).filter (· ≠ "") with
  | none => .error "Codex thread/list returned a thread without an id."
  | some threadId => .ok ⟨threadId, item.str? "cwd"⟩

def learnWorkspaces (threads : List ThreadListItem) : NodeService :=
  { service with
    codexThreadWorkspaces := threads.foldl (fun workspaces item =>
      match item.cwd.filter (· ≠ "") with
      | none => workspaces
      | some cwd => Dict.set workspaces item.threadId cwd) service.codexThreadWorkspaces }

def listCodexThreads (executorType : String) :
    NodeService :=
  match service.executorWith executorType Executor.listsThreads with
  | none => service.send (.codexThreadsListed requestId
      (.error "Codex executor does not support thread/list."))
  | some _ =>
    match calls.threads.bind fun items => items.mapM codexThreadListItem with
    | .error message => service.send (.codexThreadsListed requestId (.error message))
    | .ok threads =>
      (service.learnWorkspaces threads).send (.codexThreadsListed requestId (.ok threads))

/-- `_list_codex_thread_turns` and `_read_codex_thread` -/
def replyPage (executorType : String)
    (hook : Executor → Bool) (unsupported : String)
    (reply : Except String Value → NodeMessage) : NodeService :=
  match service.executorWith executorType hook with
  | none => service.send (reply (.error unsupported))
  | some _ => service.send (reply calls.page)

def codexTurnCommandMetadata (command : StartCodexTurn) (extra : Metadata) : Metadata :=
  Dict.set (extra.entries.foldl (fun metadata entry => Dict.set metadata entry.1 entry.2)
    command.metadata) "instruction_id" (.str command.instructionId)

def turnFailed (command : StartCodexTurn) (message : String) : NodeMessage :=
  .codexTurnEvent command.requestId .failed (some message) (some message)
    (codexTurnCommandMetadata command Table.empty)

/-- What `_start_codex_turn` sends. -/
def startCodexTurn (command : StartCodexTurn) :
    NodeService :=
  match service.executorWith command.executorType Executor.startsTurns with
  | none => service.send (turnFailed command ("Executor '" ++ command.executorType ++
      "' does not support start_codex_turn."))
  | some _ => service.sendAll
      ((calls.events.map fun event =>
        .codexTurnEvent command.requestId event.eventType event.message
          (if event.eventType = .failed then event.message else none)
          (codexTurnCommandMetadata command event.metadata)) ++
        (calls.raised.map (turnFailed command)).toList)

/-- The chunks of `_read_workspace_file`. -/
def fileChunks (blocks : List (List UInt8)) : List NodeMessage :=
  blocks.zipIdx.map fun block => .workspaceFileChunk requestId block.2 block.1

/-- `_read_workspace_file`; what is not a `WorkspaceFileAccessError` leaves it. -/
def readWorkspaceFile (threadId : String)
    (executorThreadId : Option String) : NodeService × Option String :=
  let root := (service.threadWorkspaces.lookup threadId).or
    ((executorThreadId.filter (· ≠ "")).bind service.codexThreadWorkspaces.lookup)
  match root with
  | none => (service.send (.workspaceFileError requestId "denied"
      "no workspace binding for thread"), none)
  | some _ =>
    match calls.resolveFile with
    | .error (.access code message) =>
      (service.send (.workspaceFileError requestId code message), none)
    | .error (.other message) => (service, some message)
    | .ok _ =>
      let service := service.sendAll (fileChunks requestId calls.blocks)
      match calls.blocksFail with
      | some (.access code message) =>
        (service.send (.workspaceFileError requestId code message), none)
      | some (.other message) => (service, some message)
      | none => (service.send (.workspaceFileEof requestId
          (calls.blocks.map List.length).sum), none)

/-! ## Subscriptions -/

def putContext (context : SubscriptionContext) : NodeService :=
  { service with subscriptions := service.subscriptions.put context }

/-- What `_stop_codex_thread_subscription` answers, for the context that it has removed. The
exception of a task that has died is raised again where the task is awaited. -/
def stopStatus (context : SubscriptionContext) : Except String String :=
  match context.stream, context.session with
  | .died error, _ => .error error
  | _, none => .ok "notLoaded"
  | _, some _ =>
    if context.executor.unsubscribesThreads then
      match calls.unsubscribe with
      | .error error => .ok ("error:" ++ error)
      | .ok status => .ok ((status.filter (· ≠ "")).getD "unsubscribed")
    else .ok "unsubscribed"

variable (subscriptionId : String)

def stopCodexThreadSubscription
    : Except String String × NodeService :=
  match service.subscriptions.get? subscriptionId with
  | none => (.ok "notSubscribed", service)
  | some context =>
    (stopStatus calls context,
      { service with subscriptions := service.subscriptions.erase subscriptionId })

def subscribeCodexThread
    (command : SubscribeCodexThread) : NodeService × Option String :=
  let stopped := service.stopCodexThreadSubscription calls command.subscriptionId
  match stopped.1 with
  | .error error => (stopped.2, some error)
  | .ok _ =>
    let subscribed := NodeMessage.codexThreadSubscribed command.requestId
      command.subscriptionId command.threadId
    match stopped.2.executorWith command.executorType Executor.subscribesThreads with
    | none => (stopped.2.send (subscribed
        (some "Codex executor does not support selected-thread subscription.")), none)
    | some executor =>
      let context : SubscriptionContext :=
        { subscriptionId := command.subscriptionId
          executor := executor
          threadId := command.threadId
          workspaceId := command.workspaceId
          session := none
          stream := .resuming }
      ((stopped.2.putContext context).send (subscribed none), none)

def unsubscribeCodexThread
    (threadId : String) : NodeService × Option String :=
  let stopped := service.stopCodexThreadSubscription calls subscriptionId
  match stopped.1 with
  | .error error => (stopped.2, some error)
  | .ok status => (stopped.2.send
      (.codexThreadUnsubscribed requestId subscriptionId threadId status), none)

/-- `_resume_and_stream_codex_thread` when `subscribe_thread` is back. Only this call is
guarded: when the workspace cannot be made, the task dies. -/
def streamResumes
    (resumed : Except String String) : NodeService :=
  match (service.subscriptions.get? subscriptionId).filter (·.stream = .resuming) with
  | none => service
  | some context =>
    match resumed with
    | .error _ => { service with subscriptions := service.subscriptions.erase subscriptionId }
    | .ok session =>
      let streaming := service.putContext
        { context with session := some session, stream := .streaming }
      match context.workspaceId.filter (· ≠ ""), calls.resolveWorkspace with
      | none, _ => streaming
      | some _, .error error => service.putContext { context with stream := .died error }
      | some _, .ok workspace =>
        { streaming with
          threadWorkspaces := Dict.set service.threadWorkspaces context.threadId workspace }

/-- One notification in `_stream_codex_thread_events`; without a thread it is the thread's. -/
def streamEvent (method : String)
    (threadId : Option String) : NodeService :=
  match (service.subscriptions.get? subscriptionId).filter (·.stream = .streaming) with
  | none => service
  | some context =>
    if method = "" || threadId.getD context.threadId ≠ context.threadId then service
    else service.send (.codexThreadEvent subscriptionId context.threadId method)

/-- What `next_thread_event` raises ends the stream; the context stays. -/
def streamFails : NodeService :=
  match (service.subscriptions.get? subscriptionId).filter (·.stream = .streaming) with
  | none => service
  | some context => service.putContext { context with stream := .ended }

/-! ## Background commands -/

def scheduleBackgroundCommand (command : BackgroundCommand) :
    NodeService :=
  let task := freshTask (service.backgroundCommands.entries.map BackgroundTask.task)
  { service with backgroundCommands := service.backgroundCommands.put ⟨task, command⟩ }

/-- The body of a background command, and what it raises. -/
def runBackgroundCommand :
    BackgroundCommand → NodeService × Option String
  | .startCodexTurn command => (service.startCodexTurn calls command, none)
  | .listCodexThreads requestId executorType =>
    (service.listCodexThreads calls requestId executorType, none)
  | .listCodexThreadTurns requestId executorType threadId =>
    (service.replyPage calls executorType Executor.listsTurns
      "Codex executor does not support thread/turns/list."
      (.codexThreadTurnsListed requestId threadId), none)
  | .readCodexThread requestId executorType _ =>
    (service.replyPage calls executorType Executor.readsThreads
      "Codex executor does not support thread/read." (.codexThreadRead requestId), none)
  | .readWorkspaceFile requestId threadId executorThreadId _ =>
    service.readWorkspaceFile calls requestId threadId executorThreadId
  | .subscribeCodexThread command => service.subscribeCodexThread calls command
  | .unsubscribeCodexThread requestId subscriptionId threadId =>
    service.unsubscribeCodexThread calls requestId subscriptionId threadId

/-- A background command runs and is finished by `_finish_background_command`, which logs
what it raised. -/
def backgroundCommandRuns (task : Nat) : NodeService :=
  match service.backgroundCommands.get? task with
  | none => service
  | some t =>
    let ran := (service.runBackgroundCommand calls t.command).1
    { ran with backgroundCommands := ran.backgroundCommands.erase task }

/-! ## The receive loop -/

/-- `_resolve_interaction_target_session` -/
def interactionTarget
    (executionSessionId outboundTurnRequestId : Option String) : Option LiveSession :=
  (((executionSessionId.filter (· ≠ "")).bind service.liveSessions.get?).filter (·.codex)).or
    ((outboundTurnRequestId.filter (· ≠ "")).bind calls.outboundSession)

/-- `_supply_interaction_response`; a response that cannot be forwarded is logged. -/
def supplyInteractionResponse
    (executionSessionId outboundTurnRequestId : Option String)
    (nativeResponse : Option Fields) : NodeService :=
  match nativeResponse, service.interactionTarget calls executionSessionId outboundTurnRequestId with
  | some _, some session =>
    match calls.respond with
    | .error _ => service
    | .ok _ => { service with
        blockedResolved := service.blockedResolved ++ [session.sessionId] }
  | _, _ => service

/-- `_handle_message`: the commands that are handled here end the loop when they raise. -/
def handleMessage :
    ControlCommand → Except String NodeService
  | .dispatchRun command => service.dispatchRun calls command
  | .dispatchAudioInstruction command => .ok (service.sendAll (service.audioMessages calls command))
  | .transcribeAudioInstruction requestId _ =>
    .ok (service.send (service.transcribed calls requestId))
  | .dispatchTextInstruction command => .ok (service.sendAll (service.textMessages calls command))
  | .background command => .ok (service.scheduleBackgroundCommand command)
  | .cancelRun runId _ => service.cancelRun calls runId
  | .supplyInteractionResponse executionSessionId outboundTurnRequestId nativeResponse =>
    .ok (service.supplyInteractionResponse calls executionSessionId outboundTurnRequestId
      nativeResponse)
  | .releaseRun executionSessionId =>
    .ok { service with liveSessions := service.liveSessions.erase executionSessionId }

/-- `_cancel_codex_thread_subscriptions`, up to the first one that raises. -/
def cancelCodexThreadSubscriptions (calls : Calls) :
    List String → NodeService → NodeService × Option String
  | [], service => (service, none)
  | subscriptionId :: rest, service =>
    match service.stopCodexThreadSubscription calls subscriptionId with
    | (.error error, service) => (service, some error)
    | (.ok _, service) => cancelCodexThreadSubscriptions calls rest service

/-- `_cancel_active_runs`: each run's task is cancelled and gone through its `finally`. -/
def cancelActiveRuns : NodeService :=
  let contexts := service.activeRuns.entries
  contexts.foldl (fun service context =>
    match service.runTasks.get? context.task with
    | none => service
    | some t => service.finishRunTask calls t) { service with activeRuns := Table.empty }

/-- What `run_forever` does about an exception that leaves the receive loop. What raises in
there ends the service. -/
def reconnect : NodeService :=
  let service := { service.cancelActiveRuns calls with link := .retrying }
  match cancelCodexThreadSubscriptions calls
      (service.subscriptions.entries.map SubscriptionContext.subscriptionId) service with
  | (service, some _) => { service with link := .stopped }
  | (service, none) => { service with backgroundCommands := Table.empty }

/-- One turn of the receive loop. -/
def receive (command : ControlCommand) : NodeService :=
  match service.handleMessage calls command with
  | .ok service => service
  | .error _ => service.reconnect calls

end NodeService

end Newbro.NodeCommands
