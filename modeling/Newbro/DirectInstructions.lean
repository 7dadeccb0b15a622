import Newbro.AnswerDelivery

/-!
# Instructions for a thread that has a task running

`submit_text_instruction` and `submit_audio_instruction` check the Bro, its node and the thread,
and then mark the task that runs on the thread, before the instruction is handed to the node. A
task that is marked stays marked when the node turns out not to take the instruction.
-/
namespace Newbro.DirectInstructions

open Library Protocol BroThreads AnswerDelivery
  OutboundTurns NodeRequests Option

/-! ## What an instruction meets -/

structure ExecutorSkill where
  name : String
  displayName : String
  path : String
  enabled : Bool
  deriving Repr, DecidableEq

structure ExecutorNodeExecutor where
  supportsFollowUp : Bool
  supportsAudioInstruction : Bool
  skills : List ExecutorSkill
  deriving Repr, DecidableEq

/-- A session and the connected nodes, each with its executors by their type. -/
structure InstructionState where
  session : BroSession
  connections : Dict String (Dict String ExecutorNodeExecutor)

def InstructionState.board (s : InstructionState) : Blackboard := s.session.board

/-- The Codex executor of a node. -/
def InstructionState.codex (s : InstructionState) (nodeId : String) :
    Option ExecutorNodeExecutor :=
  (s.connections.lookup nodeId).bind fun executors => executors.lookup "codex"

/-- What the node answers to a request to transcribe; `duration` is its number of seconds or 0. -/
structure Transcription where
  transcriptText : Option String
  language : Option String
  duration : Value
  metadata : List (String × Value)

/-- What a call draws, and what it meets once it is past its checks: how a transcription and the
start of a turn end, the Codex executor of the node when the connection is looked up, whether the
command is sent, how the connection is dropped otherwise, and how the snapshot is published. -/
structure Surroundings where
  newThreadId : String
  instructionId : String
  now : String
  knownWorkspaces : List String
  transcription : Except String Transcription
  startTurn : Except String Unit
  executor : Option ExecutorNodeExecutor
  sent : Bool
  disconnect : Except String Unit
  publish : Except String Unit

/-- The thread that a call is for. -/
structure ThreadIntent where
  personaId : String
  targetThreadId : Option String
  createNewThread : Bool
  workspaceId : Option String

/-- `ExecutorTextInstruction` and `ExecutorAudioInstruction`, without the audio itself. -/
structure Instruction where
  instructionId : String
  targetPersonaId : String
  targetThreadId : String
  text : Option String
  metadata : Metadata

/-! ## The checks -/

def validateNewCodexThreadWorkspace (knownWorkspaces : List String) (workspaceId : Option String) :
    Except String Unit :=
  match (workspaceId.map Text.strip).filter (· ≠ "") with
  | none => .error "New Codex thread requires a workspace selection."
  | some workspaceId =>
    if knownWorkspaces.contains workspaceId then .ok ()
    else .error "Selected Codex workspace is not available for this Bro."

def threadTarget (s : InstructionState) (e : Surroundings) (persona : Persona)
    (intent : ThreadIntent) : Except String ThreadTarget :=
  let workspaceId := intent.workspaceId.map Text.strip
  let targeted := (intent.targetThreadId.filter (· ≠ "")).isSome
  if targeted && intent.createNewThread then
    .error ("Direct Bro Detail instruction cannot target an existing thread and create a " ++
      "new thread.")
  else if targeted && (workspaceId.filter (· ≠ "")).isSome then
    .error ("Direct Bro Detail instruction cannot target an existing thread and choose a " ++
      "new workspace.")
  else if intent.createNewThread then
    (validateNewCodexThreadWorkspace e.knownWorkspaces workspaceId).map fun _ =>
      ⟨e.newThreadId, e.newThreadId, none, none⟩
  else resolveBroThreadTarget s.session persona intent.targetThreadId

/-- What text and audio do differently: what the executor has to support, the errors that say
that it does not and that it has not taken the instruction, the instruction, how it starts a turn,
and the marks on the running task. -/
structure Modality where
  supports : ExecutorNodeExecutor → Bool
  notSupported : String
  notReady : String
  instruction : String → Persona → ThreadTarget → Instruction
  start : Instruction → Except String Instruction
  mark : String → ThreadTarget → Metadata → Metadata

/-- What a call has found out before it writes. -/
structure Prepared where
  persona : Persona
  nodeId : String
  target : ThreadTarget

/-- The checks of both calls. -/
def prepare (m : Modality) (s : InstructionState) (e : Surroundings) (intent : ThreadIntent) :
    Except String Prepared :=
  match s.board.getPersona intent.personaId with
  | none => .error "Selected Bro is not available."
  | some persona =>
    match personaNode persona with
    | none => .error "Selected Bro is not bound to an executor node."
    | some nodeId =>
      if (s.codex nodeId).isNone then
        .error "Selected Bro's Codex executor node is not connected."
      else if !(s.codex nodeId).any m.supports then .error m.notSupported
      else (threadTarget s e persona intent).map fun target => ⟨persona, nodeId, target⟩

/-! ## The instruction -/

/-- `dispatch_text_instruction` and `dispatch_audio_instruction` -/
def dispatchInstruction (m : Modality) (e : Surroundings) : Except String Bool :=
  if e.executor.any m.supports then
    if e.sent then .ok true else e.disconnect.map fun _ => false
  else .ok false

/-- The instruction is handed to the node of the running task. -/
def handOver (m : Modality) (e : Surroundings) (instruction : Instruction) :
    Except String Instruction :=
  match dispatchInstruction m e with
  | .error error => .error error
  | .ok false => .error m.notReady
  | .ok true => e.publish.map fun _ => instruction

/-- The task of a run, marked. -/
def markTask (b : Blackboard) (taskId : String) (mark : Metadata → Metadata) : Blackboard :=
  match b.getTask taskId with
  | none => b
  | some task => b.putTask { task with metadata := mark task.metadata }

/-- The board after a call and what the call returns or raises. -/
structure Submitted where
  board : Blackboard
  result : Except String Instruction

/-- Both calls. -/
def submit (m : Modality) (s : InstructionState) (e : Surroundings) (intent : ThreadIntent) :
    Submitted :=
  match prepare m s e intent with
  | .error error => ⟨s.board, .error error⟩
  | .ok found =>
    let instruction := m.instruction found.nodeId found.persona found.target
    match activeCodexExecution s.board found.target.publicThreadId with
    | none => ⟨s.board, m.start instruction⟩
    | some (_, run) =>
      ⟨markTask s.board run.taskId (m.mark found.nodeId found.target),
        handOver m e instruction⟩

/-! ## Text -/

def codexSkillsForNode (s : InstructionState) (nodeId : String) : List ExecutorSkill :=
  ((s.codex nodeId).map ExecutorNodeExecutor.skills).getD []

/-- `_resolve_skill_against_catalog`: the reference to the skill, and what is noted where there
is no such skill. -/
def resolveSkillAgainstCatalog (skillName : Option String) (catalog : List ExecutorSkill) :
    Option Value × Option Value :=
  match skillName.filter (· ≠ "") with
  | none => (none, none)
  | some skillName =>
    match catalog.find? fun skill => skill.name = skillName && skill.enabled with
    | some skill =>
      (some (.dict [("name", .str skill.name), ("path", .str skill.path),
        ("display_name", .str skill.displayName)]), none)
    | none => (none, some (.dict [("name", .str skillName), ("reason", .str "not_available")]))

structure TextArguments where
  intent : ThreadIntent
  text : String
  clientRequestId : Option String
  planMode : Bool
  skillName : Option String

/-- `metadata[key] = value`, or `metadata.pop(key, None)` where there is no value. -/
def setOrPop (metadata : Metadata) (key : String) (value : Option Value) : Metadata :=
  match value with
  | some value => Dict.set metadata key value
  | none => Table.erase metadata key

/-- The marks of a text on the task that runs. -/
def markText (args : TextArguments) (skill : Option Value × Option Value) (now : String)
    (metadata : Metadata) : Metadata :=
  let marked := setAll (markDirectExecutorInput metadata "bro_detail_text" now)
    [("client_request_id", optionValue args.clientRequestId),
      ("plan_mode", .bool args.planMode),
      ("mode", .str (if args.planMode then "proposal_only" else "modify_allowed"))]
  setOrPop (setOrPop marked "skill" skill.1) "skill_dropped" skill.2

/-- The entry of a key that is set only if there is a value. -/
def entry? (key : String) (value : Option Value) : List (String × Value) :=
  (value.map fun value => (key, value)).toList

def textModality (s : InstructionState) (e : Surroundings) (args : TextArguments) : Modality where
  supports executor := executor.supportsFollowUp
  notSupported := "Selected Bro's executor node does not support text follow-up instructions."
  notReady := "Selected Bro's Codex executor node is not ready for text."
  instruction nodeId persona target :=
    let skill := resolveSkillAgainstCatalog args.skillName (codexSkillsForNode s nodeId)
    { instructionId := e.instructionId
      targetPersonaId := persona.personaId
      targetThreadId := target.publicThreadId
      text := some (Text.strip args.text)
      metadata := setAll Table.empty
        ([("source", .str "bro_detail_text"), ("target_thread_id", .str target.publicThreadId),
          ("client_request_id", optionValue args.clientRequestId),
          ("plan_mode", .bool args.planMode)] ++
          entry? "skill" skill.1 ++ entry? "skill_dropped" skill.2) }
  start instruction := e.startTurn.map fun _ => instruction
  mark nodeId _ :=
    markText args (resolveSkillAgainstCatalog args.skillName (codexSkillsForNode s nodeId)) e.now

def submitTextInstruction (s : InstructionState) (e : Surroundings) (args : TextArguments) :
    Submitted :=
  submit (textModality s e args) s e args.intent

/-! ## Audio -/

structure AudioArguments where
  intent : ThreadIntent
  clientRequestId : Option String

/-- The marks of audio on the task that runs. -/
def markAudio (args : AudioArguments) (audioInstructionId now : String) (target : ThreadTarget)
    (metadata : Metadata) : Metadata :=
  setAll (markDirectExecutorInput metadata "bro_detail_ptt" now)
    ([("bro_thread_id", .str target.continuityKey),
      ("target_thread_id", .str target.publicThreadId),
      ("source_audio_instruction_id", .str audioInstructionId)] ++
      entry? "client_request_id" ((args.clientRequestId.filter (· ≠ "")).map Value.str))

/-- The audio is transcribed on the node, and the text starts a turn. -/
def startTranscribed (e : Surroundings) (audio : Instruction) : Except String Instruction :=
  match e.transcription with
  | .error error => .error error
  | .ok transcription =>
    let transcript := Text.strip (transcription.transcriptText.getD "")
    if transcript = "" then .error "Audio transcription produced no instruction text."
    else e.startTurn.map fun _ =>
      { audio with
        metadata := setAll audio.metadata
          ([("source", .str "executor_node_whisper"),
            ("source_audio_instruction_id", .str audio.instructionId),
            ("transcript_text", .str transcript),
            ("transcription_language", .str (transcription.language.getD "")),
            ("transcription_duration_seconds", transcription.duration)] ++
            transcription.metadata) }

def audioModality (e : Surroundings) (args : AudioArguments) : Modality where
  supports executor := executor.supportsAudioInstruction
  notSupported :=
    "Selected Bro's executor node does not support audio transcription instructions."
  notReady := "Selected Bro's Codex executor node is not ready for audio."
  instruction _ persona target :=
    { instructionId := e.instructionId
      targetPersonaId := persona.personaId
      targetThreadId := target.publicThreadId
      text := none
      metadata := setAll Table.empty
        ([("source", .str "bro_detail_ptt"), ("target_thread_id", .str target.publicThreadId)] ++
          entry? "client_request_id" ((args.clientRequestId.filter (· ≠ "")).map Value.str)) }
  start := startTranscribed e
  mark _ target := markAudio args e.instructionId e.now target

def submitAudioInstruction (s : InstructionState) (e : Surroundings) (args : AudioArguments) :
    Submitted :=
  submit (audioModality e args) s e args.intent

/-! ## What a call that raises leaves -/

/-- The task is the one of the run that is active on the thread. -/
def RunsOn (b : Blackboard) (threadId : String) (task : Task) : Prop :=
  ∃ execution run, activeCodexExecution b threadId = some (execution, run) ∧
    b.getTask run.taskId = some task

/-- The thread that a call is for, where it is for one. -/
def addressed (s : InstructionState) (e : Surroundings) (intent : ThreadIntent) :
    Option ThreadTarget :=
  (s.board.getPersona intent.personaId).bind fun persona =>
    (threadTarget s e persona intent).toOption

/-- The board has the task with every entry of its metadata as it was. -/
def Keeps (b : Blackboard) (task : Task) : Prop :=
  ∃ task', b.getTask task.taskId = some task' ∧
    ∀ key, Dict.lookup task'.metadata key = Dict.lookup task.metadata key

/-- If the call raises, the task that runs on its thread is as it was. -/
def LeavesRunningTask (s : InstructionState) (e : Surroundings) (intent : ThreadIntent)
    (submitted : Submitted) : Prop :=
  submitted.result.isOk = false →
    ∀ target ∈ addressed s e intent, ∀ task, RunsOn s.board target.publicThreadId task →
      Keeps submitted.board task

/-- Whenever a call marks a running task, the node's executor still takes the instruction, the
command is sent and the snapshot is published, or the marks change no entry. -/
def MarksStand (m : Modality) (s : InstructionState) (e : Surroundings) (intent : ThreadIntent) :
    Prop :=
  ∀ found, prepare m s e intent = .ok found →
    ∀ task, RunsOn s.board found.target.publicThreadId task →
      (e.executor.any m.supports = true ∧ e.sent = true ∧ e.publish = .ok ()) ∨
        ∀ key, Dict.lookup (m.mark found.nodeId found.target task.metadata) key =
          Dict.lookup task.metadata key

variable {b : Blackboard} {taskId : String} {task : Task}

section Submit

variable {m : Modality} {s : InstructionState} {e : Surroundings} {intent : ThreadIntent}

/-- A call that gets past its checks is for the thread it found. -/
theorem addressed_of_prepare {found : Prepared} (h : prepare m s e intent = .ok found) :
    addressed s e intent = some found.target := by
  unfold prepare at h
  unfold addressed
  cases hpersona : s.board.getPersona intent.personaId with
  | none => simp [hpersona] at h
  | some persona =>
    cases hnode : personaNode persona with
    | none => simp [hpersona, hnode] at h
    | some nodeId =>
      simp only [hpersona, hnode] at h
      split_ifs at h
      rw [bind_some]
      cases htarget : threadTarget s e persona intent with
      | error error =>
        rw [htarget] at h
        cases h
      | ok target =>
        rw [htarget] at h
        obtain rfl := Except.ok.inj h
        rfl

/-- The instruction is handed over exactly if the executor takes it, the command is sent and the
snapshot is published. -/
theorem handOver_isOk (instruction : Instruction) : (handOver m e instruction).isOk = true ↔
      e.executor.any m.supports = true ∧ e.sent = true ∧ e.publish = .ok () := by
  unfold handOver dispatchInstruction
  cases hexecutor : e.executor.any m.supports with
  | false => simp [Except.isOk, Except.toBool]
  | true =>
    cases hsent : e.sent with
    | false => cases e.disconnect <;> simp [Except.isOk, Except.toBool, Except.map]
    | true => cases e.publish <;> simp [Except.isOk, Except.toBool, Except.map]

theorem keeps_self
    (h : b.getTask taskId = some task) : Keeps b task := by
  have hid : task.taskId = taskId := Table.key_of_get? h
  exact ⟨task, by rw [hid, h], fun key => rfl⟩

/-- A marked task keeps its entries exactly if the marks change none. -/
theorem keeps_markTask (mark : Metadata → Metadata)
    (h : b.getTask taskId = some task) : Keeps (markTask b taskId mark) task ↔
      ∀ key, Dict.lookup (mark task.metadata) key = Dict.lookup task.metadata key := by
  have hmarked : (markTask b taskId mark).getTask task.taskId =
      some { task with metadata := mark task.metadata } := by
    rw [markTask, h]
    exact Table.get?_put_self b.tasks { task with metadata := mark task.metadata }
  unfold Keeps
  constructor
  · rintro ⟨task', hget, hsame⟩ key
    rw [hmarked, some.injEq] at hget
    rw [← hsame key, ← hget]
  · intro hsame
    exact ⟨_, hmarked, hsame⟩

/-- Both calls leave the running task alone when they raise, exactly if the marks stand. -/
theorem submit_leaves_iff :
    LeavesRunningTask s e intent (submit m s e intent) ↔ MarksStand m s e intent := by
  unfold LeavesRunningTask MarksStand submit
  cases hprepare : prepare m s e intent with
  | error error =>
    refine iff_of_true (fun _ target _ task hruns => ?_) (fun found h => by cases h)
    obtain ⟨execution, run, -, htask⟩ := hruns
    exact keeps_self htask
  | ok found =>
    have haddressed := addressed_of_prepare hprepare
    dsimp only
    cases hactive : activeCodexExecution s.board found.target.publicThreadId with
    | none =>
      have hidle : ∀ task, ¬ RunsOn s.board found.target.publicThreadId task := by
        rintro task ⟨execution, run, hrun, -⟩
        rw [hactive] at hrun
        cases hrun
      constructor
      · intro _ found' hfound task hruns
        obtain rfl := Except.ok.inj hfound
        exact absurd hruns (hidle task)
      · intro _ _ target htarget task hruns
        rw [haddressed, mem_some_iff] at htarget
        exact absurd (htarget ▸ hruns) (hidle task)
    | some active =>
      obtain ⟨execution, run⟩ := active
      have hruns_iff : ∀ task, RunsOn s.board found.target.publicThreadId task ↔
          s.board.getTask run.taskId = some task := by
        intro task
        constructor
        · rintro ⟨execution', run', hrun, htask⟩
          rw [hactive, some.injEq, Prod.mk.injEq] at hrun
          rwa [← hrun.2] at htask
        · intro htask
          exact ⟨execution, run, hactive, htask⟩
      dsimp only
      constructor
      · intro hlaw found' hfound task hruns
        obtain rfl := Except.ok.inj hfound
        rw [← handOver_isOk (m.instruction found.nodeId found.persona found.target)]
        by_cases hok : (handOver m e
            (m.instruction found.nodeId found.persona found.target)).isOk = true
        · exact Or.inl hok
        · right
          have hkeeps := hlaw (by simpa using hok) found.target haddressed task hruns
          exact (keeps_markTask _ ((hruns_iff task).mp hruns)).mp hkeeps
      · intro hstand hraises target htarget task hruns
        rw [haddressed, mem_some_iff] at htarget
        subst htarget
        have hnot := mt (handOver_isOk (m := m) (e := e)
          (m.instruction found.nodeId found.persona found.target)).mpr (by simp [hraises])
        have hsame := (hstand found rfl task hruns).resolve_left hnot
        exact (keeps_markTask _ ((hruns_iff task).mp hruns)).mpr hsame

end Submit

/-- A text or an audio instruction that is refused leaves the running task as it was exactly if
the marks it has made stand. -/
theorem refusedInstruction_leaves_iff (s : InstructionState) (e : Surroundings) :
    (∀ args : TextArguments,
      LeavesRunningTask s e args.intent (submitTextInstruction s e args) ↔
        MarksStand (textModality s e args) s e args.intent) ∧ ∀ args : AudioArguments,
      LeavesRunningTask s e args.intent (submitAudioInstruction s e args) ↔
        MarksStand (audioModality e args) s e args.intent :=
  ⟨fun _ => submit_leaves_iff, fun _ => submit_leaves_iff⟩

/-! ## A text that the node does not get

The task of a thread may only propose. The user sends a text to be carried out, and the socket of
the node is gone by the time the command is sent. -/

open SessionRuntime (codexConfig tickLabels executeLabels) in
def runningTaskLabels : List SessionRuntime.Label :=
  [.syncPersonas (Table.empty.put
      { personaId := "bro-1", name := "Bro", executorNodeId := some "node-1" }),
    .startCreation "creation-1" .sendDraft (some "bro-1"),
    .finishCreation "creation-1"
      { taskId := "task-1", rootTaskId := "task-1", title := "Build", goal := "Build it"
        preferredExecutor := some "codex"
        metadata := Dict.set Table.empty "mode" (.str "proposal_only") }] ++
    tickLabels ++ executeLabels "task-1" "session-1" "run-1"

def runningState : InstructionState :=
  { session :=
      { sessionId := "live-1"
        board := (SessionRuntime.reached SessionRuntime.codexConfig runningTaskLabels).board
        importedCodexThreads := Table.empty
        importedCodexThreadResumeHandles := Table.empty }
    connections := Dict.set Table.empty "node-1"
      (Dict.set Table.empty "codex" ⟨true, true, []⟩) }

/-- The command cannot be sent, and the connection is dropped. -/
def closedSocket : Surroundings :=
  { newThreadId := "bro-thread-2"
    instructionId := "txt-1"
    now := "2025-01-01T00:00:00+00:00"
    knownWorkspaces := []
    transcription := .error "Codex executor node is not connected."
    startTurn := .ok ()
    executor := some ⟨true, true, []⟩
    sent := false
    disconnect := .ok ()
    publish := .ok () }

def carryOut : TextArguments :=
  { intent := ⟨"bro-1", some "session-1", false, none⟩
    text := "Go ahead"
    clientRequestId := none
    planMode := false
    skillName := none }

/-- The text is refused, and the task may change files from then on. -/
theorem refused_text_lifts_proposal_mode :
    ¬ ∀ (cfg : SessionCommands.Config) (session : SessionRuntime.SessionState)
        (s : InstructionState) (e : Surroundings) (args : TextArguments),
      (SessionRuntime.system cfg).Reachable session → s.board = session.board →
        LeavesRunningTask s e args.intent (submitTextInstruction s e args) := by
  intro h
  have hlaw := h SessionRuntime.codexConfig
    (SessionRuntime.reached SessionRuntime.codexConfig runningTaskLabels) runningState closedSocket
    carryOut (SessionRuntime.reachable_reached _ _) rfl
  have hraises : (submitTextInstruction runningState closedSocket carryOut).result.isOk =
      false := by decide
  have hthread : (addressed runningState closedSocket carryOut.intent).map
      ThreadTarget.publicThreadId = some "session-1" := by decide
  have hrun : (activeCodexExecution runningState.board "session-1").map
      (fun active => active.2.taskId) = some "task-1" := by decide
  have hbefore : (runningState.board.getTask "task-1").map (fun task => task.metadata.str? "mode") =
      some (some "proposal_only") := by decide
  have hafter : ((submitTextInstruction runningState closedSocket carryOut).board.getTask
      "task-1").map (fun task => task.metadata.str? "mode") = some (some "modify_allowed") := by
    decide
  obtain ⟨target, htarget, hpublic⟩ := map_eq_some_iff.mp hthread
  obtain ⟨⟨execution, run⟩, hactive, htaskId⟩ := map_eq_some_iff.mp hrun
  obtain ⟨task, htask, hmode⟩ := map_eq_some_iff.mp hbefore
  have hid : task.taskId = "task-1" := Table.key_of_get? htask
  obtain ⟨task', hget, hkept⟩ := hlaw hraises target htarget task
    ⟨execution, run, by rw [hpublic, hactive], by rw [htaskId, htask]⟩
  rw [hid] at hget
  have hsame : task'.metadata.str? "mode" = task.metadata.str? "mode" := by
    rw [Metadata.str?, hkept "mode", Metadata.str?]
  rw [hget, map_some, some.injEq, hsame, hmode] at hafter
  exact absurd hafter (by decide)

end Newbro.DirectInstructions
