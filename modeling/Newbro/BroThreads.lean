import Newbro.RunManager

/-!
# The threads of a Bro

A session with the native Codex threads that it has imported, and the direct executor's way
from an instruction to a task: which thread an instruction is for
(`resolve_bro_thread_target`), the task that is made of it, and what a transcript that
arrives as a run event leads to. A thread target that does not resolve is a `ValueError`.
-/
namespace Newbro.BroThreads

open Library Protocol

/-- `BroThread`, for the threads that are imported from Codex. -/
structure BroThread where
  threadId : String
  personaId : String
  executorNodeId : Option String
  workspaceId : Option String
  codexThreadId : Option String
  deriving Repr, DecidableEq

structure BroSession where
  sessionId : String
  board : Blackboard
  importedCodexThreads : Table BroThread.threadId
  importedCodexThreadResumeHandles : Dict String AgentResumeHandle

/-! ## Thread identities -/

def broThreadPrefix : String := "bro-thread-"

def importedCodexThreadPrefix : String := "codex-import-"

def publicThreadId (session : ExecutionSession) : String :=
  let public? := session.continuityKey.filter fun key =>
    Text.startsWith key broThreadPrefix || Text.startsWith key importedCodexThreadPrefix
  public?.getD session.executionSessionId

def sessionMatchesThreadId (session : ExecutionSession) (threadId : String) : Bool :=
  [session.executionSessionId, session.continuityKey.getD "", publicThreadId session].contains
    threadId

def taskBelongsToPersona (task : Option Task) (personaId : String) : Bool :=
  task.any fun task =>
    task.metadata.str? "persona_id" = some personaId ||
      task.metadata.str? "assigned_bro_id" = some personaId

variable (task : Task)

def taskThreadPublicId : Option String :=
  (task.metadata.nonemptyStr? "target_thread_id").or (task.metadata.nonemptyStr? "bro_thread_id")

variable (board : Blackboard)

def sessionBelongsToPersona (session : ExecutionSession)
    (personaId : String) : Bool :=
  let latest := (session.latestRunId.filter fun runId =>
    runId ≠ "" && !session.runIds.contains runId).toList
  ((session.runIds ++ latest).any fun runId =>
      (board.getRun runId).any fun run => taskBelongsToPersona (board.getTask run.taskId) personaId) ||
    taskBelongsToPersona (board.getTask session.taskId) personaId ||
    (board.getPersona personaId).any fun persona =>
      session.continuityKey = some persona.broDetailSessionId

/-- `find_codex_thread_session_for_persona` -/
def findCodexThreadSession (personaId threadId : String) :
    Option ExecutionSession :=
  board.sessions.entries.reverse.find? fun session =>
    session.baseExecutorId = "codex" && sessionMatchesThreadId session threadId &&
      sessionBelongsToPersona board session personaId

/-- `find_direct_task_thread_for_persona` -/
def findDirectTaskThread (personaId threadId : String) : Option Task :=
  board.tasks.entries.reverse.find? fun task =>
    taskThreadPublicId task = some threadId && taskBelongsToPersona (some task) personaId

/-! ## The thread that an instruction is for -/

structure ThreadTarget where
  publicThreadId : String
  continuityKey : String
  executionSession : Option ExecutionSession
  resumeHandle : Option AgentResumeHandle

/-- `resolve_bro_thread_target` for an existing thread. -/
def resolveBroThreadTarget (session : BroSession) (persona : Persona)
    (targetThreadId : Option String) : Except String ThreadTarget :=
  match targetThreadId.filter (· ≠ "") with
  | none => .error "Direct Bro Detail instruction requires explicit thread intent."
  | some threadId =>
    match findCodexThreadSession session.board persona.personaId threadId with
    | some found => .ok
        { publicThreadId := publicThreadId found
          continuityKey := Text.orElse found.continuityKey found.executionSessionId
          executionSession := some found
          resumeHandle := none }
    | none =>
      match (session.importedCodexThreads.get? threadId).filter
          (·.personaId = persona.personaId),
        session.importedCodexThreadResumeHandles.lookup threadId with
      | some imported, some handle => .ok
          { publicThreadId := imported.threadId
            continuityKey := imported.threadId
            executionSession := none
            resumeHandle := some handle }
      | _, _ =>
        match findDirectTaskThread session.board persona.personaId threadId with
        | some task => .ok
            { publicThreadId := threadId
              continuityKey := (task.metadata.nonemptyStr? "bro_thread_id").getD threadId
              executionSession := none
              resumeHandle := none }
        | none => .error "Selected Codex thread is not available for this Bro."

/-! ## From an instruction to a task -/

def titleFromDraftText (text : String) : String :=
  let title := Text.rstripChars ['.', '。'] (" ".intercalate (Text.words text))
  let short := if title.length > 72 then Text.rstrip (Text.firstChars 69 title) ++ "..." else title
  if short = "" then "Draft task" else short

structure ExecutorTextInstruction where
  instructionId : String
  text : String
  planMode : Bool

variable (persona : Persona)

/-- The entries of `_start_text_task_from_direct_input` that are there in every case. -/
def directTaskMetadata (instruction : ExecutorTextInstruction)
    (target : ThreadTarget) (sourceKind : String) : List (String × Value) :=
  [("source_kind", .str sourceKind),
    ("assigned_bro_id", .str persona.personaId),
    ("persona_id", .str persona.personaId),
    ("persona_name", .str persona.name),
    ("persona_avatar", .str persona.avatar),
    ("bro_detail_session_id", .str persona.broDetailSessionId),
    ("bro_thread_id", .str target.continuityKey),
    ("target_thread_id", .str target.publicThreadId),
    ("executor_node_id", ((persona.executorNodeId.map Value.str).getD .null)),
    ("instruction_id", .str instruction.instructionId),
    ("codex_thread_mode", .str
      (if target.executionSession.isSome || target.resumeHandle.isSome then "resume"
        else "start")),
    ("mode", .str (if instruction.planMode then "proposal_only" else "modify_allowed")),
    ("suppress_communication_notifications", .bool true)]

/-- The entries that a resumed native thread adds. -/
def resumeMetadata (handle : AgentResumeHandle) : List (String × Value) :=
  match handle.sessionHandle.filter (· ≠ "") with
  | none => []
  | some sessionHandle =>
    let copied := fun key name =>
      (((Fields.str? handle.opaqueFields key).filter (· ≠ "")).map fun text =>
        (name, Value.str text)).toList
    [("codex_import_thread_id", .str sessionHandle), ("codex_imported_thread", .bool true)] ++
      copied "cwd" "codex_import_cwd" ++ copied "path" "codex_import_path"

def setAll (metadata : Metadata) (entries : List (String × Value)) : Metadata :=
  entries.foldl (fun metadata entry => Dict.set metadata entry.1 entry.2) metadata

/-- `_start_text_task_from_direct_input` -/
def directTask (taskId : String) (persona : Persona) (instruction : ExecutorTextInstruction)
    (target : ThreadTarget) (workspaceId : Option String) (sourceKind : String)
    (extra : List (String × Value)) : Task :=
  let text := Text.strip instruction.text
  let workspace := (workspaceId.filter (· ≠ "")).map fun workspaceId =>
    [("workspace_id", Value.str workspaceId)]
  let cwd := target.resumeHandle.bind fun handle =>
    (Fields.str? handle.opaqueFields "cwd").filter (· ≠ "")
  { taskId := taskId
    rootTaskId := taskId
    title := titleFromDraftText text
    goal := text
    status := .queued
    preferredExecutor := some "codex"
    sessionAffinity := some (cwd.getD ((workspaceId.filter (· ≠ "")).getD
      ("ws-" ++ target.continuityKey)))
    latestInstruction := some text
    metadata := setAll Table.empty
      (directTaskMetadata persona instruction target sourceKind ++ workspace.getD [] ++
        ((target.resumeHandle.map resumeMetadata).getD []) ++ extra) }

def BroSession.startTextTask (session : BroSession) (persona : Persona) (task : Task) :
    BroSession :=
  { session with
    board := (session.board.putPersona { persona with status := .busy }).putTask task }

/-! ## A transcript that comes as a run event -/

/-- The transcript of a run event: its audio instruction and its text. -/
def audioTranscript (metadata : Metadata) : Option (String × String) :=
  match metadata.nonemptyStr? "source_audio_instruction_id",
    Text.stripped? (metadata.str? "transcript_text") with
  | some audioId, some transcript =>
    if metadata.str? "source" = some "executor_node_whisper" then some (audioId, transcript)
    else none
  | _, _ => none

/-- The task and the persona of a run. -/
def taskAndPersona (runId : String) : Option (Task × Persona) :=
  (board.getRun runId).bind fun run =>
    (board.getTask run.taskId).bind fun task =>
      (task.personaId.bind board.getPersona).map fun persona => (task, persona)

def createdTasks : Fields :=
  ((Dict.lookup task.metadata "audio_transcript_task_ids").bind Value.dict?).getD []

/-- `task.metadata["audio_transcript_task_ids"] = {**created, audio_id: task_id}` -/
def linkTranscript (audioId taskId : String) : Task :=
  let created := RunManager.setField (createdTasks task) audioId (.str taskId)
  { task with metadata := Dict.set task.metadata "audio_transcript_task_ids" (.dict created) }

/-- `handle_audio_transcript_event`; the task of the run is marked before the thread is
resolved. -/
def BroSession.handleAudioTranscriptEvent (session : BroSession) (newTaskId runId : String)
    (metadata : Metadata) : BroSession × Except String Unit :=
  match audioTranscript metadata, taskAndPersona session.board runId with
  | some (audioId, transcript), some (task, persona) =>
    if ((createdTasks task).lookup audioId).isSome then (session, .ok ())
    else
      let marked := linkTranscript task audioId "pending"
      let session := { session with board := session.board.putTask marked }
      let threadId := (metadata.nonemptyStr? "target_thread_id").or
        (task.metadata.str? "target_thread_id")
      match resolveBroThreadTarget session persona threadId with
      | .error error => (session, .error error)
      | .ok target =>
        let instruction : ExecutorTextInstruction :=
          { instructionId := "txt-" ++ audioId
            text := transcript
            planMode := false }
        let created := directTask newTaskId persona instruction target none "bro_detail_ptt"
          [("source_audio_instruction_id", .str audioId),
            ("direct_executor_input_sources", .list [.str "bro_detail_ptt"])]
        let session := session.startTextTask persona created
        match session.board.getTask task.taskId with
        | none => (session, .ok ())
        | some refreshed =>
          ({ session with
            board := session.board.putTask (linkTranscript refreshed audioId newTaskId) },
            .ok ())
  | _, _ => (session, .ok ())

end Newbro.BroThreads
