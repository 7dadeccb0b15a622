import Newbro.CommandIsolation
import Newbro.CorrectionTexts
import Newbro.DraftLifecycle
import Newbro.Library.Effects

/-!
# The task tools of the communication brain

`create_task`, `update_task`, `add_task_note`, `add_constraint` and `control_task`, as a turn of
the brain calls them (`_invoke_tool`). A tool raises or changes the blackboard of the session,
and the turn tells its caller of every call. What the caller is told is left out.
-/
namespace Newbro.BrainTools

open Library Library.Effect Protocol

/-- An exception that ends a turn. -/
inductive Raised where
  | toolInput (message code : String)
  /-- Iterating over what is not iterable. -/
  | typeError
  /-- `match.group` with a name that the pattern does not have. -/
  | indexError
  /-- What `on_tool_call` raises. -/
  | callback
  deriving Repr, DecidableEq

/-- The focus of an entry of the conversation's history. -/
structure ConversationEntry where
  text : String
  focusedTaskId : Option String := none
  focusedTaskIds : List String := []
  affectedTaskIds : List String := []
  deriving Repr, DecidableEq

/-- What a turn reads and changes: `drawn` counts the ids it has drawn, `told` the calls of
`on_tool_call`. -/
structure Turn where
  board : Blackboard
  history : List ConversationEntry := []
  drawn : Nat := 0
  told : Nat := 0

abbrev Action := Effect Turn Raised

/-- What the brain and its tools are built with. -/
structure Config where
  session : SessionCommands.Config
  live : SessionManager.LiveSessions
  validExecutorTypes : List String
  defaultExecutorType : String
  casing : Corrections.Casing
  /-- `str(value)` -/
  printed : Value → String
  printed_str : ∀ text, printed (.str text) = text
  /-- `uuid4().hex[:8]` of each draw. -/
  hex : Nat → String
  /-- Whether the n-th call of `on_tool_call` raises; without a callback none does. -/
  raises : Nat → Bool := fun _ => false

/-! ## Values -/

/-- What a `for` loop over a value runs over. -/
def iterate : Value → Option (List Value)
  | .list items => some items
  | .str text => some (text.toList.map fun c => .str (String.ofList [c]))
  | .dict fields => some (fields.map fun field => .str field.1)
  | .null => none
  | .bool _ => none
  | .int _ => none

variable (metadata : Metadata) (key : String)

/-- What a loop over `metadata.get(key, [])` runs over. -/
def listed : Option (List Value) :=
  match Dict.lookup metadata key with
  | none => some []
  | some value => iterate value

/-- A string that is not blank. -/
def nonblank? : Value → Option String
  | .str text => if Text.strip text = "" then none else some text
  | _ => none

/-- `metadata.get(key)` -/
def valueOf : Value :=
  (Dict.lookup metadata key).getD .null

/-! ## `create_task` -/

structure CreateTaskArgs where
  title : String
  goal : String
  personaName : Option String := none
  continueFromTaskId : Option String := none
  preferredExecutor : Option String := none
  requiresConfirmation : Bool := false
  mockSafe : Bool := false
  deriving Repr, DecidableEq

def resolvedExecutor (cfg : Config) (args : CreateTaskArgs) : String :=
  Text.orElse args.preferredExecutor cfg.defaultExecutorType

/-- Why an executor is refused. -/
def refuseExecutor (cfg : Config) (args : CreateTaskArgs) : Option Raised :=
  let resolved := resolvedExecutor cfg args
  if !cfg.validExecutorTypes.contains resolved then
    some (.toolInput
      ("Invalid create_task preferred_executor '" ++ resolved ++ "'. Use one of: " ++
        String.intercalate ", " cfg.validExecutorTypes ++ ".") "invalid_executor_type")
  else if resolved = "mock" && !args.mockSafe then
    some (.toolInput "A real executor is required but only the mock executor is available."
      "real_executor_required")
  else none

/-- The persona that a name stands for. -/
def resolvePersona (cfg : Config) (b : Blackboard) (args : CreateTaskArgs) :
    Except Raised (Option Persona) :=
  match args.personaName.filter (· ≠ "") with
  | none => .ok none
  | some name =>
    let personas := b.personas.entries
    let same (persona : Persona) : Bool :=
      Corrections.lower cfg.casing persona.name = Corrections.lower cfg.casing name
    match personas.find? same with
    | none =>
      let available := Text.orElse
        (some (String.intercalate ", " (personas.map Persona.name))) "none"
      .error (.toolInput ("Persona '" ++ name ++ "' not found. Available: " ++ available ++ ".")
        "persona_not_found")
    | some persona =>
      if persona.status = .busy then
        .error (.toolInput (persona.name ++ " is busy with another task right now.")
          "persona_busy")
      else .ok (some persona)

/-- The workspace of the task to continue from. -/
def continuedAffinity (b : Blackboard) (args : CreateTaskArgs) : Option String :=
  ((args.continueFromTaskId.filter (· ≠ "")).bind b.getTask).bind fun prior =>
    prior.sessionAffinity.filter (· ≠ "")

def personaEntries (persona : Persona) : List (String × Value) :=
  [("persona_id", .str persona.personaId), ("persona_name", .str persona.name),
    ("persona_avatar", .str persona.avatar),
    ("bro_detail_session_id", .str persona.broDetailSessionId)] ++
  ((persona.executorNodeId.filter (· ≠ "")).map fun nodeId =>
    ("executor_node_id", .str nodeId)).toList

def setAll (entries : List (String × Value)) : Metadata :=
  entries.foldl (fun metadata entry => Dict.set metadata entry.1 entry.2) metadata

def newTask (cfg : Config) (b : Blackboard) (args : CreateTaskArgs) (persona : Option Persona)
    (taskId : String) : Task :=
  let continued := continuedAffinity b args
  let fresh :=
    match persona with
    | some persona => "ws-" ++ persona.broDetailSessionId
    | none => Drafts.State.createWorkspace taskId
  { taskId := taskId
    rootTaskId := taskId
    title := args.title
    goal := args.goal
    preferredExecutor := some (resolvedExecutor cfg args)
    requiresConfirmation := args.requiresConfirmation
    sessionAffinity := some (continued.getD fresh)
    metadata := setAll Table.empty
      ((if args.mockSafe then [("mock_safe", .bool true)] else []) ++
        (if continued.isSome then
          [("continue_from_task_id", .str (args.continueFromTaskId.getD ""))] else []) ++
        (persona.map personaEntries).getD []) }

/-- `uuid4().hex[:8]` -/
def draw (cfg : Config) : Action String := do
  let s ← get
  modify fun s => { s with drawn := s.drawn + 1 }
  pure (cfg.hex s.drawn)

variable (task : Task)

/-- `put_task` and `append_mutation`; the stored task. -/
def storeTask : Action Task := do
  modify fun s => { s with board := (s.board.putTask task).bumpTaskRevision task.taskId }
  let s ← get
  pure ((s.board.getTask task.taskId).getD task)

def createTask (cfg : Config) (args : CreateTaskArgs) : Action Task :=
  match refuseExecutor cfg args with
  | some refusal => throw refusal
  | none => do
      let s ← get
      match resolvePersona cfg s.board args with
      | .error refusal => throw refusal
      | .ok persona => do
          let hex ← draw cfg
          let task := newTask cfg s.board args persona ("task-" ++ hex)
          match persona with
          | none => storeTask task
          | some persona => do
              modify fun s =>
                { s with board := s.board.putPersona { persona with status := .busy } }
              storeTask task

/-! ## Tools that change a task -/

/-- A tool that resolves a task by its id, changes it and stores it. -/
def editTask (noun taskId : String) (edit : Task → Except Raised Task) : Action Task := do
  let s ← get
  match if taskId = "" then none else s.board.getTask taskId with
  | none => throw (.toolInput ("Task not found for " ++ noun ++ ".") "task_not_found")
  | some task =>
    match edit task with
    | .error refusal => throw refusal
    | .ok edited => storeTask edited

/-- A patch of fields that `update_task` allows. -/
structure TaskPatch where
  goal : Option String := none
  interruptible : Option Bool := none
  latestInstruction : Option String := none
  preferredExecutor : Option (Option String) := none
  priority : Option Int := none
  requiresConfirmation : Option Bool := none
  sessionAffinity : Option (Option String) := none
  title : Option String := none
  deriving Repr, DecidableEq

def TaskPatch.apply (patch : TaskPatch) (task : Task) : Task :=
  { task with
    goal := patch.goal.getD task.goal
    interruptible := patch.interruptible.getD task.interruptible
    latestInstruction := patch.latestInstruction.or task.latestInstruction
    preferredExecutor := patch.preferredExecutor.getD task.preferredExecutor
    priority := patch.priority.getD task.priority
    requiresConfirmation := patch.requiresConfirmation.getD task.requiresConfirmation
    sessionAffinity := patch.sessionAffinity.getD task.sessionAffinity
    title := patch.title.getD task.title }

/-- `_validate_patch`, of a patch whose fields are allowed and of their types. -/
def validatePatch (cfg : Config) (patch : TaskPatch) : Except Raised TaskPatch :=
  if patch = {} then
    .error (.toolInput "update_task patch must include at least one allowed field."
      "invalid_patch_shape")
  else
    match patch.preferredExecutor.join with
    | none => .ok patch
    | some executor =>
      if cfg.validExecutorTypes.contains executor then .ok patch
      else
        .error (.toolInput
          ("Invalid update_task preferred_executor '" ++ executor ++ "'. Use one of: " ++
            String.intercalate ", " cfg.validExecutorTypes ++ ".") "invalid_executor_type")

def updateTask (cfg : Config) (taskId : String) (patch : TaskPatch) : Action Task :=
  editTask "update" taskId fun task => (validatePatch cfg patch).map fun patch => patch.apply task

/-- `list(metadata.get(key, []))` with one more item, stored back. -/
def appendTo (item : Value) (task : Task) : Except Raised Task :=
  match listed task.metadata key with
  | none => .error .typeError
  | some items => .ok { task with metadata := Dict.set task.metadata key (.list (items ++ [item])) }

variable (taskId : String)

def addTaskNote (note : String) : Action Task :=
  editTask "note" taskId (appendTo "notes" (.str note))

def constraintPayload (constraint : String) (category : Option String) : Value :=
  .dict (("constraint", .str constraint) ::
    ((category.filter (· ≠ "")).map fun category => ("category", .str category)).toList)

def addConstraint (constraint : String) (category : Option String) : Action Task :=
  editTask "constraint" taskId (appendTo "constraints" (constraintPayload constraint category))

/-- `control_task` with `SessionRuntime.apply_command` as its callback. -/
def controlTask (cfg : Config) (taskId : String) (commandType : TaskCommandType) : Action Task := do
  let s ← get
  match if taskId = "" then none else s.board.getTask taskId with
  | none => throw (.toolInput "Task not found for control." "task_not_found")
  | some task => do
      let hex ← draw cfg
      let command : TaskCommand :=
        { commandId := "cmd-" ++ hex, taskId := task.taskId, commandType := commandType
          createdBy := "communication_brain" }
      match SessionCommands.applyCommand cfg.session cfg.live s.board command with
      | .error message => throw (.toolInput message "unsupported_command")
      | .ok (board, _) => do
          modify fun s => { s with board := board }
          pure ((board.getTask taskId).getD task)

/-! ## Calls -/

/-- The call of a tool, with its arguments. -/
inductive ToolCall where
  | createTask (args : CreateTaskArgs)
  | updateTask (taskId : String) (patch : TaskPatch)
  | addTaskNote (taskId note : String)
  | addConstraint (taskId constraint : String) (category : Option String)
  | controlTask (taskId : String) (commandType : TaskCommandType)
  deriving Repr, DecidableEq

def runTool (cfg : Config) : ToolCall → Action Task
  | .createTask args => createTask cfg args
  | .updateTask taskId patch => updateTask cfg taskId patch
  | .addTaskNote taskId note => addTaskNote taskId note
  | .addConstraint taskId constraint category => addConstraint taskId constraint category
  | .controlTask taskId commandType => controlTask cfg taskId commandType

/-- Tell the caller of a tool call. -/
def emitToolCall (cfg : Config) : Action Unit := do
  let s ← get
  modify fun s => { s with told := s.told + 1 }
  if cfg.raises s.told then throw .callback else pure ()

def invokeTool (cfg : Config) (call : ToolCall) : Action Task := do
  let task ← tryCatch (runTool cfg call) fun refusal => do
    emitToolCall cfg
    throw refusal
  emitToolCall cfg
  pure task

/-! ## What the calls do -/

/-- A stored task has a new revision. -/
def bumped : Task := { task with taskRevision := task.taskRevision + 1 }

variable (s : Turn)

def Turn.getTask (taskId : String) : Option Task := s.board.getTask taskId

/-- The turn after a task has been stored. -/
def Turn.store (task : Task) : Turn :=
  { s with board := (s.board.putTask task).bumpTaskRevision task.taskId }

def Turn.tell : Turn := { s with told := s.told + 1 }

@[simp] theorem Turn.told_tell : s.tell.told = s.told + 1 := rfl
@[simp] theorem Turn.getTask_tell (taskId : String) :
    s.tell.getTask taskId = s.getTask taskId := rfl

theorem Turn.getTask_store (task : Task) (taskId : String) :
    (s.store task).getTask taskId =
      if task.taskId = taskId then some (bumped task) else s.getTask taskId := by
  have hput : (s.board.putTask task).getTask task.taskId = some task :=
    Table.get?_put_self _ _
  have hboard : (s.store task).board = (s.board.putTask task).putTask (bumped task) := by
    simp only [Turn.store, Blackboard.bumpTaskRevision, hput]
    rfl
  have hid : (bumped task).taskId = task.taskId := rfl
  rw [Turn.getTask, hboard, Blackboard.getTask, Blackboard.tasks_putTask, Blackboard.tasks_putTask,
    Table.get?_put, Table.get?_put, hid]
  by_cases h : task.taskId = taskId
  · rw [if_pos h, if_pos h]
  · rw [if_neg h, if_neg h, if_neg h]
    rfl

theorem exec_storeTask : exec (storeTask task) s = (.ok (bumped task), s.store task) := by
  have hstored := s.getTask_store task task.taskId
  rw [if_pos rfl] at hstored
  have hget : ((s.store task).board.getTask task.taskId).getD task = bumped task := by
    rw [show (s.store task).board.getTask task.taskId = some (bumped task) from hstored]
    rfl
  exact Prod.ext (congrArg Except.ok hget) rfl

theorem exec_emitToolCall (cfg : Config) (s : Turn) :
    exec (emitToolCall cfg) s =
      (if cfg.raises s.told then .error .callback else .ok (), s.tell) := by
  by_cases h : cfg.raises s.told
  · simp only [emitToolCall, exec_bind, exec_get, exec_modify, h, if_true, exec_throw]
    rfl
  · simp only [emitToolCall, exec_bind, exec_get, exec_modify, h]
    rfl

/-- What a tool has done stays done when `on_tool_call` raises. -/
theorem exec_invokeTool (cfg : Config) (call : ToolCall) (s : Turn) :
    exec (invokeTool cfg call) s = match exec (runTool cfg call) s with
      | (.ok task, s') => (if cfg.raises s'.told then .error .callback else .ok task, s'.tell)
      | (.error e, s') => (.error (if cfg.raises s'.told then .callback else e), s'.tell) := by
  unfold invokeTool
  rw [exec_bind, exec_tryCatch]
  rcases exec (runTool cfg call) s with ⟨result, s'⟩
  cases result with
  | ok | error =>
    simp only [exec_bind, exec_emitToolCall]
    by_cases h : cfg.raises s'.told
    · simp only [h, if_true]
    · simp only [h]
      rfl

/-! ## Computations that make a number of calls -/

variable {n : Nat} {a : α} {s s' : Turn} {post : α → Turn → Prop} {m : Action α} {call : ToolCall}
   {task : Task} {taskId : String} {args : CreateTaskArgs}

section makes

variable {cfg : Config} {α β : Type}

/-- None of the next `n` calls of `on_tool_call` raises. -/
def Quiet (cfg : Config) (told n : Nat) : Prop := ∀ k, k < n → cfg.raises (told + k) = false

theorem quiet_add {told m : Nat} :
    Quiet cfg told (m + n) ↔ Quiet cfg told m ∧ Quiet cfg (told + m) n := by
  constructor
  · intro h
    refine ⟨fun k hk => h k (by omega), fun k hk => ?_⟩
    rw [Nat.add_assoc]
    exact h (m + k) (by omega)
  · rintro ⟨hm, hn⟩ k hk
    by_cases hlt : k < m
    · exact hm k hlt
    · have hsplit : told + k = told + m + (k - m) := by omega
      rw [hsplit]
      exact hn (k - m) (by omega)

theorem quiet_one {told : Nat} : Quiet cfg told 1 ↔ cfg.raises told = false := by
  constructor
  · intro h
    exact h 0 (by omega)
  · intro h k hk
    obtain rfl : k = 0 := by omega
    exact h

/-- The computation makes `n` calls: it returns what it is to return, unless `on_tool_call`
raises at one of them. -/
def Makes (cfg : Config) (n : Nat) (m : Action α) (s : Turn) (post : α → Turn → Prop) : Prop :=
  (Quiet cfg s.told n ∧
    ∃ a s', exec m s = (.ok a, s') ∧ s'.told = s.told + n ∧ post a s') ∨
  (¬ Quiet cfg s.told n ∧ ∃ s', exec m s = (.error .callback, s'))

theorem makes_pure (h : post a s) : Makes cfg 0 (pure a) s post :=
  .inl ⟨fun _ hk => absurd hk (Nat.not_lt_zero _), a, s, exec_pure a s, rfl, h⟩

theorem makes_bind {m : Action α} {f : α → Action β} {s : Turn} {k n : Nat}
    {mid : α → Turn → Prop} {post : β → Turn → Prop} (hm : Makes cfg k m s mid)
    (hf : ∀ a s', mid a s' → Makes cfg n (f a) s' post) : Makes cfg (k + n) (m >>= f) s post := by
  rcases hm with ⟨hquiet, a, s', hexec, htold, hmid⟩ | ⟨hloud, s', hexec⟩
  · rcases hf a s' hmid with ⟨hrest, b, s'', hlater, htold', hpost⟩ | ⟨hloud, s'', hlater⟩
    · rw [htold] at hrest
      refine .inl ⟨quiet_add.mpr ⟨hquiet, hrest⟩, b, s'', ?_, by omega, hpost⟩
      rw [exec_bind_ok hexec, hlater]
    · rw [htold] at hloud
      refine .inr ⟨fun hall => hloud (quiet_add.mp hall).2, s'', ?_⟩
      rw [exec_bind_ok hexec, hlater]
  · exact .inr ⟨fun hall => hloud (quiet_add.mp hall).1, s', exec_bind_error hexec⟩

/-- A first part that makes no call. -/
theorem makes_bind_of_exec {m : Action α} {f : α → Action β} {s s' : Turn} {a : α} {n : Nat}
    {post : β → Turn → Prop} (h : exec m s = (.ok a, s')) (htold : s'.told = s.told)
    (hf : Makes cfg n (f a) s' post) : Makes cfg n (m >>= f) s post := by
  have hsame : ∀ result, exec (f a) s' = result → exec (m >>= f) s = result := by
    intro result hresult
    rw [exec_bind_ok h, hresult]
  rcases hf with ⟨hquiet, b, s'', hexec, htold', hpost⟩ | ⟨hloud, s'', hexec⟩
  · rw [htold] at hquiet htold'
    exact .inl ⟨hquiet, b, s'', hsame _ hexec, htold', hpost⟩
  · rw [htold] at hloud
    exact .inr ⟨hloud, s'', hsame _ hexec⟩

theorem Makes.mono {m : Action α} {s : Turn} {n : Nat} {post post' : α → Turn → Prop}
    (h : Makes cfg n m s post) (himp : ∀ a s', post a s' → post' a s') : Makes cfg n m s post' := by
  rcases h with ⟨hquiet, a, s', hexec, htold, hpost⟩ | hloud
  · exact .inl ⟨hquiet, a, s', hexec, htold, himp a s' hpost⟩
  · exact .inr hloud

theorem Makes.of_ok (h : Makes cfg n m s post) (hexec : exec m s = (.ok a, s')) : post a s' := by
  rcases h with ⟨-, b, s'', hb, -, hpost⟩ | ⟨-, s'', hb⟩
  · rw [hexec] at hb
    cases hb
    exact hpost
  · rw [hexec] at hb
    cases hb

/-- Where nobody raises, it returns. -/
theorem Makes.returns (h : Makes cfg n m s post) (hquiet : Quiet cfg s.told n) :
    ∃ a s', exec m s = (.ok a, s') ∧ post a s' := by
  rcases h with ⟨-, a, s', hexec, -, hpost⟩ | ⟨hloud, -⟩
  · exact ⟨a, s', hexec, hpost⟩
  · exact absurd hquiet hloud

/-- Where it has returned, nobody has raised. -/
theorem Makes.quiet
    (h : Makes cfg n m s post) (hexec : exec m s = (.ok a, s')) : Quiet cfg s.told n := by
  rcases h with ⟨hquiet, -⟩ | ⟨-, s'', hb⟩
  · exact hquiet
  · rw [hexec] at hb
    cases hb

/-- A tool that returns makes one call. -/
theorem makes_invokeTool
    {post : Task → Turn → Prop} (h : exec (runTool cfg call) s = (.ok task, s'))
    (htold : s'.told = s.told) (hpost : post task s'.tell) :
    Makes cfg 1 (invokeTool cfg call) s post := by
  have hexec := exec_invokeTool cfg call s
  rw [h] at hexec
  cases hraises : cfg.raises s.told with
  | false =>
    refine .inl ⟨quiet_one.mpr hraises, task, s'.tell, ?_, by rw [Turn.told_tell, htold], hpost⟩
    simp only [htold, hraises] at hexec
    exact hexec
  | true =>
    refine .inr ⟨fun hquiet => ?_, s'.tell, ?_⟩
    · rw [quiet_one.mp hquiet] at hraises
      cases hraises
    · simp only [htold, hraises] at hexec
      exact hexec

/-- A tool that refuses has changed nothing. -/
theorem exec_invokeTool_refused {refusal : Raised}
    (h : exec (runTool cfg call) s = (.error refusal, s)) :
    ∃ e, exec (invokeTool cfg call) s = (.error e, s.tell) := by
  have hexec := exec_invokeTool cfg call s
  rw [h] at hexec
  exact ⟨_, hexec⟩

theorem makes_editTask {noun : String} {edit : Task → Except Raised Task} {edited : Task}
    (hcall : runTool cfg call = editTask noun taskId edit) (hne : taskId ≠ "")
    (htask : s.getTask taskId = some task) (hedit : edit task = .ok edited)
    {post : Task → Turn → Prop} (hpost : post (bumped edited) (s.store edited).tell) :
    Makes cfg 1 (invokeTool cfg call) s post := by
  have hexec : exec (runTool cfg call) s = (.ok (bumped edited), s.store edited) := by
    have hfound : (if taskId = "" then none else s.board.getTask taskId) = some task := by
      rw [if_neg hne]
      exact htask
    rw [hcall, editTask, exec_bind_ok (exec_get s), hfound]
    simp only [hedit, exec_storeTask]
  exact makes_invokeTool hexec rfl hpost

/-- `create_task` without a persona. -/
theorem exec_createTask (hname : args.personaName = none)
    (haccepted : refuseExecutor cfg args = none) :
    exec (runTool cfg (.createTask args)) s =
      (.ok (bumped (newTask cfg s.board args none ("task-" ++ cfg.hex s.drawn))),
        ({ s with drawn := s.drawn + 1 } : Turn).store
          (newTask cfg s.board args none ("task-" ++ cfg.hex s.drawn))) := by
  have hpersona : resolvePersona cfg s.board args = .ok none := by simp [resolvePersona, hname]
  show exec (createTask cfg args) s = _
  unfold createTask
  simp only [haccepted, exec_bind, exec_get, hpersona, draw, exec_modify, exec_pure, exec_storeTask]

theorem makes_createTask (hname : args.personaName = none)
    (haccepted : refuseExecutor cfg args = none) {post : Task → Turn → Prop}
    (hpost : ∀ task, task = newTask cfg s.board args none ("task-" ++ cfg.hex s.drawn) →
      post (bumped task) (({ s with drawn := s.drawn + 1 } : Turn).store task).tell) :
    Makes cfg 1 (invokeTool cfg (.createTask args)) s post :=
  makes_invokeTool (exec_createTask hname haccepted) rfl (hpost _ rfl)

theorem exec_createTask_refused {refusal : Raised} (h : refuseExecutor cfg args = some refusal) :
    exec (runTool cfg (.createTask args)) s = (.error refusal, s) := by
  show exec (createTask cfg args) s = _
  unfold createTask
  simp only [h, exec_throw]

/-- A cancel command is carried out, and of the tasks it writes only the status of its own. -/
theorem applyCommand_cancel (session : SessionCommands.Config)
    (live : SessionManager.LiveSessions) {b : Blackboard} {command : TaskCommand}
    (ht : b.getTask command.taskId = some task) (hcancel : command.commandType = .cancelTask) :
    ∃ board signals, SessionCommands.applyCommand session live b command = .ok (board, signals) ∧
      ∀ taskId, board.getTask taskId =
        if command.taskId = taskId then some { task with status := .cancelled }
        else b.getTask taskId := by
  have hid : task.taskId = command.taskId := Table.key_of_get? ht
  have hvalid : SessionCommands.validateTaskCommand session b task command.commandType = none := by
    rw [hcancel]
    rfl
  refine ⟨_, _, SessionRuntime.applyCommand_carriedOut ht hvalid, fun taskId => ?_⟩
  have hmark : (SessionCommands.markCommand session live (b.appendCommand command)
      (SessionCommands.issuedCommand b command)).1 =
      (b.appendCommand command).putTask { task with status := .cancelled } := by
    have hlogged : (b.appendCommand command).getTask command.taskId = some task := ht
    have hset : (SessionCommands.markCommand session live (b.appendCommand command)
        (SessionCommands.issuedCommand b command)).1 =
        SessionCommands.setTaskStatus (b.appendCommand command) command.taskId .cancelled := by
      unfold SessionCommands.markCommand
      simp only [SessionCommands.issuedCommand, hcancel]
      rfl
    rw [hset, SessionCommands.setTaskStatus, hlogged]
  rw [Blackboard.getTask, SessionRuntime.tasks_finishCommand, hmark]
  simp only [Blackboard.tasks_putTask, Table.get?_put, hid]
  rfl

theorem exec_cancelTask {taskId : String} {s : Turn} {task : Task} (hne : taskId ≠ "")
    (htask : s.getTask taskId = some task) :
    ∃ result board, exec (controlTask cfg taskId .cancelTask) s =
        (.ok result, { s with board := board, drawn := s.drawn + 1 }) ∧
      ∀ other, board.getTask other =
        if taskId = other then some { task with status := .cancelled } else s.getTask other := by
  have hid : task.taskId = taskId := Table.key_of_get? htask
  have hfound : (if taskId = "" then none else s.board.getTask taskId) = some task := by
    rw [if_neg hne]
    exact htask
  let command : TaskCommand :=
    { commandId := "cmd-" ++ cfg.hex s.drawn, taskId := task.taskId, commandType := .cancelTask
      createdBy := "communication_brain" }
  have htarget : s.board.getTask command.taskId = some task := by
    rw [show command.taskId = taskId from hid]
    exact htask
  obtain ⟨board, signals, happly, htasks⟩ :=
    applyCommand_cancel cfg.session cfg.live htarget rfl
  refine ⟨(board.getTask taskId).getD task, board, ?_, fun other => ?_⟩
  · rw [controlTask, exec_bind_ok (exec_get s), hfound]
    simp only [exec_bind, draw, exec_get, exec_modify, exec_pure, happly, command]
  · rw [← hid]
    exact htasks other

theorem exec_cancelTask_missing
    (h : (if taskId = "" then none else s.getTask taskId) = none) :
    ∃ e, exec (controlTask cfg taskId .cancelTask) s = (.error e, s) := by
  refine ⟨.toolInput "Task not found for control." "task_not_found", ?_⟩
  rw [controlTask, exec_bind_ok (exec_get s),
    show (if taskId = "" then none else s.board.getTask taskId) = none from h]
  exact exec_throw _ s

/-- A cancelled task keeps everything but its status. -/
theorem makes_cancelTask (hne : taskId ≠ "")
    (htask : s.getTask taskId = some task) {post : Task → Turn → Prop}
    (hpost : ∀ result s', s'.history = s.history →
      (∀ other, s'.getTask other =
        if taskId = other then some { task with status := .cancelled } else s.getTask other) →
      post result s') :
    Makes cfg 1 (invokeTool cfg (.controlTask taskId .cancelTask)) s post := by
  obtain ⟨result, board, hexec, hboard⟩ := @exec_cancelTask cfg taskId s task hne htask
  exact makes_invokeTool hexec rfl (hpost _ _ rfl hboard)

end makes

end Newbro.BrainTools
