import Newbro.BrainTools

/-!
# Tasks that replace tasks

How the communication brain makes a new task of another one: of a cancelled one that is to be
continued (`_recreate_task_from_cancelled`), and of one whose texts are corrected
(`_clone_task_with_correction`). The copy goes through four tools, and agrees with the original
exactly if the original has nothing that none of them carries over.
-/
namespace Newbro.TaskReplacements

open Library Library.Effect Protocol BrainTools Corrections

/-! ## Copies -/

structure ToolInvocation where
  call : ToolCall
  result : Task

def invokeTools (cfg : Config) (calls : List ToolCall) : Action (List ToolInvocation) :=
  calls.mapM fun call => do
    let result ← invokeTool cfg call
    pure ⟨call, result⟩

def createArgs (correct : String → String) (task : Task) : CreateTaskArgs :=
  { title := correct task.title
    goal := correct task.goal
    preferredExecutor := task.preferredExecutor
    requiresConfirmation := task.requiresConfirmation
    mockSafe :=
      (valueOf task.metadata "mock_safe").truthy || task.preferredExecutor = some "mock" }

/-- What the created task does not have yet. -/
def patchOf (correct : String → String) (task created : Task) : TaskPatch :=
  { priority := if task.priority ≠ created.priority then some task.priority else none
    interruptible :=
      if task.interruptible ≠ created.interruptible then some task.interruptible else none
    latestInstruction := task.latestInstruction.map correct
    sessionAffinity :=
      if task.sessionAffinity ≠ created.sessionAffinity then some task.sessionAffinity else none }

def updateCalls (correct : String → String) (task created : Task) : List ToolCall :=
  let patch := patchOf correct task created
  if patch = {} then [] else [.updateTask created.taskId patch]

/-- The constraint of an item that has one, and its category as a text. -/
def constraintOf (cfg : Config) (item : Value) : Option (String × Option String) :=
  item.dict?.bind fun fields =>
    ((fields.lookup "constraint").bind nonblank?).map fun constraint =>
      (constraint,
        match fields.lookup "category" with
        | none => none
        | some .null => none
        | some category => some (cfg.printed category))

def noteCalls (correct : String → String) (taskId : String) (notes : List String) :
    List ToolCall :=
  notes.map fun note => .addTaskNote taskId (correct note)

def constraintCalls (correct : String → String) (taskId : String)
    (constraints : List (String × Option String)) : List ToolCall :=
  constraints.map fun constraint => .addConstraint taskId (correct constraint.1) constraint.2

/-- `for item in metadata.get(key, [])` -/
def loopOver (metadata : Metadata) (key : String) : Action (List Value) :=
  match listed metadata key with
  | none => throw .typeError
  | some items => pure items

def withMarks (marks : List (String × Value)) (task : Task) : Task :=
  { task with metadata := setAll task.metadata marks }

/-- Write into the metadata of the created task, wherever it has come to. -/
def markTask (created : Task) (marks : List (String × Value)) : Action Task := do
  let s ← get
  storeTask (withMarks marks ((s.board.getTask created.taskId).getD created))

/-- What both ways of copying a task do. -/
def copyTask (cfg : Config) (correct : String → String) (marks : List (String × Value))
    (task : Task) : Action (Task × List ToolInvocation) := do
  let args := createArgs correct task
  let created ← invokeTool cfg (.createTask args)
  let updated ← invokeTools cfg (updateCalls correct task created)
  let notes ← loopOver task.metadata "notes"
  let noted ← invokeTools cfg
    (noteCalls correct created.taskId (notes.filterMap nonblank?))
  let constraints ← loopOver task.metadata "constraints"
  let constrained ← invokeTools cfg
    (constraintCalls correct created.taskId (constraints.filterMap (constraintOf cfg)))
  let copy ← markTask created marks
  pure (copy, ⟨.createTask args, created⟩ :: (updated ++ noted ++ constrained))

def recreateTaskFromCancelled (cfg : Config) (task : Task) :
    Action (Task × List ToolInvocation) :=
  copyTask cfg id [("recreated_from_task_id", .str task.taskId)] task

def correctionMarks (task : Task) (intent : CorrectionIntent) : List (String × Value) :=
  [("replacement_for_task_id", .str task.taskId), ("correction_new_value", .str intent.newValue)] ++
    (intent.oldValue.map fun oldValue => ("correction_old_value", .str oldValue)).toList ++
    (intent.targetGroup.map fun group => ("correction_target_group", .str group.value)).toList

def cloneTaskWithCorrection (cfg : Config) (targetSlots : List BundleSlot)
    (intent : CorrectionIntent) (task : Task) : Action (Task × List ToolInvocation) :=
  copyTask cfg (applyCorrectionToText cfg.casing targetSlots intent) (correctionMarks task intent)
    task

/-! ## A task while it is being copied -/

/-- What a computation on the task of an id leaves alone. -/
structure Touches (taskId : String) (s s' : Turn) : Prop where
  others : ∀ other, other ≠ taskId → s'.getTask other = s.getTask other
  drawn : s'.drawn = s.drawn
  history : s'.history = s.history

theorem Touches.refl (taskId : String) (s : Turn) : Touches taskId s s :=
  ⟨fun _ _ => rfl, rfl, rfl⟩

theorem Touches.trans {taskId : String} {a b c : Turn} (h : Touches taskId a b)
    (h' : Touches taskId b c) : Touches taskId a c where
  others other hne := (h'.others other hne).trans (h.others other hne)
  drawn := h'.drawn.trans h.drawn
  history := h'.history.trans h.history

variable {task : Task}

theorem touches_store {taskId : String} (s : Turn) (h : task.taskId = taskId) :
    Touches taskId s (s.store task) where
  others other hne := by
    rw [Turn.getTask_store, if_neg]
    rw [h]
    exact Ne.symm hne
  drawn := rfl
  history := rfl

variable {s s' : Turn}

theorem touches_tell {taskId : String} (h : Touches taskId s s') : Touches taskId s s'.tell :=
  ⟨h.others, h.drawn, h.history⟩

def listKeys : List String := ["notes", "constraints"]

/-- The task is the base, but for what its lists have come to hold. -/
structure Draft (base : Task) (lists : String → List Value) (task : Task) : Prop where
  core : task = { base with metadata := task.metadata, taskRevision := task.taskRevision }
  lists : ∀ key ∈ listKeys, listed task.metadata key = some (lists key)
  others : ∀ key, key ∉ listKeys → Dict.lookup task.metadata key = Dict.lookup base.metadata key

variable {base : Task} {lists : String → List Value}

theorem Draft.taskId (h : Draft base lists task) : task.taskId = base.taskId := by rw [h.core]

theorem Draft.bumped (h : Draft base lists task) :
    Draft base lists (bumped task) where
  core := by
    have hcore := h.core
    unfold BrainTools.bumped
    rw [hcore]
  lists := h.lists
  others := h.others

/-- The lists after some items have been added to one of them. -/
def extended (lists : String → List Value) (key : String) (items : List Value) :
    String → List Value :=
  fun other => if other = key then lists other ++ items else lists other

theorem extended_nil (lists : String → List Value) (key : String) :
    extended lists key [] = lists := by
  funext other
  simp [extended]

theorem extended_cons (lists : String → List Value) (key : String) (item : Value)
    (items : List Value) :
    extended (extended lists key [item]) key items = extended lists key (item :: items) := by
  funext other
  by_cases h : other = key
  · simp [extended, h]
  · simp [extended, h]

variable {key : String}

/-- One more item in a list. -/
theorem Draft.appendTo (h : Draft base lists task) (hkey : key ∈ listKeys) (item : Value) :
    ∃ edited, BrainTools.appendTo key item task = .ok edited ∧
      Draft base (extended lists key [item]) edited := by
  have hedit : BrainTools.appendTo key item task = .ok
      { task with
        metadata := Dict.set task.metadata key (.list (lists key ++ [item])) } := by
    simp only [BrainTools.appendTo, h.lists key hkey]
  refine ⟨_, hedit, ?_, fun other hother => ?_, fun other hother => ?_⟩
  · have hcore := h.core
    rw [hcore]
  · by_cases heq : other = key
    · subst heq
      simp [listed, iterate, extended]
    · have hlist := h.lists other hother
      unfold listed at hlist ⊢
      rw [Dict.lookup_set_of_ne _ _ (Ne.symm heq), hlist]
      simp [extended, heq]
  · have hne : key ≠ other := by
      rintro rfl
      exact hother hkey
    rw [Dict.lookup_set_of_ne _ _ hne]
    exact h.others other hother

/-! ## What a copy comes to -/

variable {correct : String → String} {marks : List (String × Value)}

variable {items notes constraints : List Value}

section copy

variable {cfg : Config} {base : Task} {taskId : String}

/-- Calls that add an item each to a list of the task. -/
theorem makes_appends {α : Type} {noun : String} (hkey : key ∈ listKeys) (hne : taskId ≠ "")
    {call : α → ToolCall} {item : α → Value}
    (hcall : ∀ x, runTool cfg (call x) = editTask noun taskId (appendTo key (item x)))
    (xs : List α)
    (htask : s.getTask taskId = some task) (h : Draft base lists task) :
    Makes cfg xs.length (invokeTools cfg (xs.map call)) s fun _ s' =>
      Touches taskId s s' ∧ ∃ task', s'.getTask taskId = some task' ∧
        Draft base (extended lists key (xs.map item)) task' := by
  induction xs generalizing lists s task with
  | nil =>
    refine makes_pure ⟨Touches.refl _ _, task, htask, ?_⟩
    rw [List.map_nil, extended_nil]
    exact h
  | cons x xs ih =>
    obtain ⟨edited, hedit, hdraft⟩ := h.appendTo hkey (item x)
    have hid : edited.taskId = taskId := by
      rw [hdraft.taskId, ← h.taskId]
      exact Table.key_of_get? htask
    have hstored : (s.store edited).getTask taskId = some (bumped edited) := by
      rw [Turn.getTask_store, if_pos hid]
    have hfirst : Makes cfg 1 (invokeTool cfg (call x)) s fun _ s' =>
        Touches taskId s s' ∧ s'.getTask taskId = some (bumped edited) :=
      makes_editTask (hcall x) hne htask hedit ⟨touches_tell (touches_store s hid), hstored⟩
    have hrest : ∀ result s', Touches taskId s s' ∧ s'.getTask taskId = some (bumped edited) →
        Makes cfg xs.length (do
          let later ← invokeTools cfg (xs.map call)
          pure ((⟨call x, result⟩ : ToolInvocation) :: later)) s' fun _ s'' =>
          Touches taskId s s'' ∧ ∃ task', s''.getTask taskId = some task' ∧
            Draft base (extended lists key ((x :: xs).map item)) task' := by
      rintro result s' ⟨htouches, hget⟩
      refine makes_bind (ih hget hdraft.bumped) fun later s'' hpost => makes_pure ?_
      obtain ⟨htouches', task', hget', hdraft'⟩ := hpost
      rw [extended_cons] at hdraft'
      exact ⟨htouches.trans htouches', task', hget', hdraft'⟩
    have hall := makes_bind hfirst hrest
    rw [Nat.add_comm 1] at hall
    simp only [List.map_cons, invokeTools, List.mapM_cons, bind_assoc, pure_bind]
    exact hall

/-- The task that `create_task` makes of the arguments. -/
def freshTask (cfg : Config) (correct : String → String) (task : Task) (taskId : String) : Task :=
  newTask cfg Blackboard.empty (createArgs correct task) none taskId

/-- The blackboard is asked for nothing. -/
theorem newTask_createArgs (cfg : Config) (b : Blackboard) (correct : String → String)
    (task : Task) (taskId : String) :
    newTask cfg b (createArgs correct task) none taskId = freshTask cfg correct task taskId := rfl

theorem lookup_freshTask (cfg : Config) (correct : String → String) (task : Task)
    (taskId : String) (h : key ≠ "mock_safe") :
    Dict.lookup (freshTask cfg correct task taskId).metadata key = none := by
  have hmetadata : (freshTask cfg correct task taskId).metadata =
      setAll Table.empty (if (createArgs correct task).mockSafe = true then
        [("mock_safe", .bool true)] else []) := by
    simp [freshTask, newTask, continuedAffinity, createArgs]
  rw [hmetadata]
  by_cases hmock : (createArgs correct task).mockSafe = true
  · rw [if_pos hmock]
    simp only [setAll, List.foldl_cons, List.foldl_nil]
    rw [Dict.lookup_set_of_ne _ _ (Ne.symm h)]
    rfl
  · rw [if_neg hmock]
    rfl

/-- The created task with what has been updated in it. -/
def copyBase (cfg : Config) (correct : String → String) (task : Task) (taskId : String) : Task :=
  let created := freshTask cfg correct task taskId
  (patchOf correct task created).apply created

theorem draft_copyBase (cfg : Config) (correct : String → String) (task : Task)
    (taskId : String) :
    Draft (copyBase cfg correct task taskId) (fun _ => []) (copyBase cfg correct task taskId) where
  core := rfl
  lists key hkey := by
    have hne : key ≠ "mock_safe" := by
      rintro rfl
      exact absurd hkey (by decide)
    have hmetadata : (copyBase cfg correct task taskId).metadata =
        (freshTask cfg correct task taskId).metadata := rfl
    simp only [listed, hmetadata, lookup_freshTask cfg correct task taskId hne]
  others _ _ := rfl

/-- The update, if there is anything to update. -/
theorem makes_updates (correct : String → String) (task : Task) (hne : taskId ≠ "")
    (htask : s.getTask taskId = some (bumped (freshTask cfg correct task taskId))) :
    Makes cfg (updateCalls correct task (freshTask cfg correct task taskId)).length
      (invokeTools cfg (updateCalls correct task (bumped (freshTask cfg correct task taskId)))) s
      fun _ s' => Touches taskId s s' ∧ ∃ task', s'.getTask taskId = some task' ∧
        Draft (copyBase cfg correct task taskId) (fun _ => []) task' := by
  have hsame : updateCalls correct task (bumped (freshTask cfg correct task taskId)) =
      updateCalls correct task (freshTask cfg correct task taskId) := rfl
  rw [hsame]
  by_cases hpatch : patchOf correct task (freshTask cfg correct task taskId) = {}
  · have hcalls : updateCalls correct task (freshTask cfg correct task taskId) = [] := by
      simp only [updateCalls, hpatch, if_true]
    have hbase : copyBase cfg correct task taskId = freshTask cfg correct task taskId := by
      simp only [copyBase, hpatch]
      rfl
    have hdraft := (draft_copyBase cfg correct task taskId).bumped
    rw [hcalls]
    refine makes_pure ⟨Touches.refl _ _, _, htask, ?_⟩
    rw [hbase] at hdraft ⊢
    exact hdraft
  · have hcalls : updateCalls correct task (freshTask cfg correct task taskId) =
        [.updateTask taskId (patchOf correct task (freshTask cfg correct task taskId))] := by
      simp only [updateCalls, hpatch, if_false]
      rfl
    have hedit : (validatePatch cfg (patchOf correct task (freshTask cfg correct task taskId))).map
        (fun patch => patch.apply (bumped (freshTask cfg correct task taskId))) =
        .ok (bumped (copyBase cfg correct task taskId)) := by
      rw [validatePatch, if_neg hpatch]
      rfl
    rw [hcalls]
    have hone : Makes cfg 1 (invokeTool cfg (.updateTask taskId
        (patchOf correct task (freshTask cfg correct task taskId)))) s fun _ s' =>
        Touches taskId s s' ∧ ∃ task', s'.getTask taskId = some task' ∧
          Draft (copyBase cfg correct task taskId) (fun _ => []) task' := by
      have hid : (bumped (copyBase cfg correct task taskId)).taskId = taskId := rfl
      refine makes_editTask rfl hne htask hedit
        ⟨touches_tell (touches_store s hid), _, ?_,
          (draft_copyBase cfg correct task taskId).bumped.bumped⟩
      rw [Turn.getTask_tell, Turn.getTask_store, if_pos hid]
    simp only [invokeTools, List.mapM_cons, List.mapM_nil, bind_assoc, pure_bind]
    rw [List.length_singleton, ← Nat.add_zero 1]
    exact makes_bind hone fun _ _ hpost => makes_pure hpost

def copiedNotes (correct : String → String) (notes : List Value) : List Value :=
  (notes.filterMap nonblank?).map fun note => .str (correct note)

def copiedConstraints (cfg : Config) (correct : String → String) (constraints : List Value) :
    List Value :=
  (constraints.filterMap (constraintOf cfg)).map fun constraint =>
    constraintPayload (correct constraint.1) constraint.2

/-- What the lists of a copy hold. -/
def copiedLists (cfg : Config) (correct : String → String) (notes constraints : List Value) :
    String → List Value :=
  extended (extended (fun _ => []) "notes" (copiedNotes correct notes)) "constraints"
    (copiedConstraints cfg correct constraints)

/-- The copy of a task whose lists run over the given items. -/
structure IsCopy (cfg : Config) (correct : String → String) (marks : List (String × Value))
    (task : Task) (taskId : String) (notes constraints : List Value) (copy : Task) : Prop where
  made : ∃ unmarked, Draft (copyBase cfg correct task taskId)
      (copiedLists cfg correct notes constraints) unmarked ∧
    copy = bumped (withMarks marks unmarked)

/-- How many tools a copy calls. -/
def copyCalls (cfg : Config) (correct : String → String) (task : Task) (taskId : String)
    (notes constraints : List Value) : Nat :=
  1 + (updateCalls correct task (freshTask cfg correct task taskId)).length +
    (notes.filterMap nonblank?).length + (constraints.filterMap (constraintOf cfg)).length

theorem exec_loopOver {metadata : Metadata}
    (h : listed metadata key = some items) (s : Turn) :
    exec (loopOver metadata key) s = (.ok items, s) := by
  simp only [loopOver, h, exec_pure]

theorem exec_markTask {created live : Task} {s : Turn} (marks : List (String × Value))
    (h : s.getTask created.taskId = some live) : exec (markTask created marks) s =
      (.ok (bumped (withMarks marks live)), s.store (withMarks marks live)) := by
  have hlive : (s.board.getTask created.taskId).getD created = live := by
    rw [show s.board.getTask created.taskId = some live from h]
    rfl
  rw [markTask, exec_bind_ok (exec_get s), hlive, exec_storeTask]

/-- A copy of a task whose executor is accepted and whose lists can be run over. -/
theorem makes_copyTask (marks : List (String × Value))
    (hid : taskId = "task-" ++ cfg.hex s.drawn)
    (haccepted : refuseExecutor cfg (createArgs correct task) = none)
    (hnotes : listed task.metadata "notes" = some notes)
    (hconstraints : listed task.metadata "constraints" = some constraints) :
    Makes cfg (copyCalls cfg correct task taskId notes constraints)
      (copyTask cfg correct marks task) s fun result s' =>
        IsCopy cfg correct marks task taskId notes constraints result.1 ∧
          s'.getTask taskId = some result.1 ∧
          Touches taskId { s with drawn := s.drawn + 1 } s' := by
  have hne : taskId ≠ "" := by
    intro hempty
    have hlength := congrArg String.length (hempty ▸ hid)
    have hfront : "task-".length = 5 := rfl
    rw [String.length_append, hfront] at hlength
    have hnone : "".length = 0 := rfl
    omega
  let drew : Turn := { s with drawn := s.drawn + 1 }
  have hcreate : Makes cfg 1 (invokeTool cfg (.createTask (createArgs correct task))) s
      fun created s' => created = bumped (freshTask cfg correct task taskId) ∧
        Touches taskId drew s' ∧
        s'.getTask taskId = some (bumped (freshTask cfg correct task taskId)) := by
    refine makes_createTask rfl haccepted fun fresh hfresh => ?_
    rw [newTask_createArgs, ← hid] at hfresh
    have hfreshId : fresh.taskId = taskId := by rw [hfresh]; rfl
    refine ⟨by rw [hfresh], touches_tell (touches_store drew hfreshId), ?_⟩
    rw [Turn.getTask_tell, Turn.getTask_store, if_pos hfreshId, hfresh]
  have hcount : copyCalls cfg correct task taskId notes constraints =
      1 + ((updateCalls correct task (freshTask cfg correct task taskId)).length +
        ((notes.filterMap nonblank?).length +
          ((constraints.filterMap (constraintOf cfg)).length + 0))) := by
    unfold copyCalls
    omega
  rw [hcount]
  refine makes_bind hcreate fun created s₁ hcreated => ?_
  obtain ⟨rfl, htouches₁, hget₁⟩ := hcreated
  refine makes_bind (makes_updates correct task hne hget₁) fun updated s₂ hupdated => ?_
  obtain ⟨htouches₂, task₂, hget₂, hdraft₂⟩ := hupdated
  refine makes_bind_of_exec (exec_loopOver hnotes s₂) rfl ?_
  have hnoteCall : ∀ note, runTool cfg (.addTaskNote taskId (correct note)) =
      editTask "note" taskId (appendTo "notes" (.str (correct note))) := fun _ => rfl
  refine makes_bind (makes_appends (by decide) hne hnoteCall _ hget₂ hdraft₂)
    fun noted s₄ hnoted => ?_
  obtain ⟨htouches₄, task₄, hget₄, hdraft₄⟩ := hnoted
  refine makes_bind_of_exec (exec_loopOver hconstraints s₄) rfl ?_
  have hconstraintCall : ∀ constraint : String × Option String,
      runTool cfg (.addConstraint taskId (correct constraint.1) constraint.2) =
        editTask "constraint" taskId
          (appendTo "constraints" (constraintPayload (correct constraint.1) constraint.2)) :=
    fun _ => rfl
  refine makes_bind (makes_appends (by decide) hne hconstraintCall _ hget₄ hdraft₄)
    fun constrained s₆ hconstrained => ?_
  obtain ⟨htouches₆, task₆, hget₆, hdraft₆⟩ := hconstrained
  have hmarked := @exec_markTask (bumped (freshTask cfg correct task taskId)) task₆ s₆ marks hget₆
  have hkey : task₆.taskId = taskId := Table.key_of_get? hget₆
  have hid₆ : (withMarks marks task₆).taskId = taskId := hkey
  have htouches : Touches taskId drew (s₆.store (withMarks marks task₆)) :=
    (((htouches₁.trans htouches₂).trans htouches₄).trans htouches₆).trans (touches_store s₆ hid₆)
  have hstored : (s₆.store (withMarks marks task₆)).getTask taskId =
      some (bumped (withMarks marks task₆)) := by
    rw [Turn.getTask_store, if_pos hid₆]
  refine makes_bind_of_exec hmarked rfl ?_
  exact makes_pure ⟨⟨task₆, hdraft₆, rfl⟩, hstored, htouches⟩

/-- A copy that returns has had its executor accepted and could run over both lists. -/
theorem copyTask_ok {result : Task × List ToolInvocation}
    (h : exec (copyTask cfg correct marks task) s = (.ok result, s')) :
    refuseExecutor cfg (createArgs correct task) = none ∧
      ∃ notes constraints, listed task.metadata "notes" = some notes ∧
        listed task.metadata "constraints" = some constraints := by
  obtain ⟨created, s₁, hcreated, h⟩ := exec_bind_eq_ok_iff.mp h
  obtain ⟨updated, s₂, -, h⟩ := exec_bind_eq_ok_iff.mp h
  obtain ⟨notes, s₃, hnotes, h⟩ := exec_bind_eq_ok_iff.mp h
  obtain ⟨noted, s₄, -, h⟩ := exec_bind_eq_ok_iff.mp h
  obtain ⟨constraints, s₅, hconstraints, -⟩ := exec_bind_eq_ok_iff.mp h
  have hlisted : ∀ {key : String} {items : List Value} {s s' : Turn},
      exec (loopOver task.metadata key) s = (.ok items, s') →
        listed task.metadata key = some items := by
    intro key items s s' hloop
    cases hlist : listed task.metadata key with
    | none =>
      simp only [loopOver, hlist, exec_throw] at hloop
      cases hloop
    | some found =>
      rw [exec_loopOver hlist] at hloop
      cases hloop
      rfl
  refine ⟨?_, notes, constraints, hlisted hnotes, hlisted hconstraints⟩
  cases hrefused : refuseExecutor cfg (createArgs correct task) with
  | none => rfl
  | some refusal =>
    obtain ⟨e, he⟩ := exec_invokeTool_refused (exec_createTask_refused hrefused)
    rw [he] at hcreated
    cases hcreated

end copy

/-! ## Agreement with the original -/

/-- The keys that say whose task it is and where it runs. -/
def routingKeys : List String :=
  ["persona_id", "assigned_bro_id", "executor_node_id", "bro_detail_session_id"]

def correctText (correct : String → String) : Value → Value
  | .str text => .str (correct text)
  | value => value

/-- The constraint and its category are those of the original. -/
def ConstraintAgrees (correct : String → String) : Value → Value → Prop
  | .dict fields, .dict copied =>
    copied.lookup "constraint" = (fields.lookup "constraint").map (correctText correct) ∧
      (copied.lookup "category").getD .null = (fields.lookup "category").getD .null
  | .dict _, _ => False
  | item, copied => copied = correctText correct item

/-- The lists under a key hold the same, item by item. -/
def ListsAgree (agrees : Value → Value → Prop) (task copy : Task) (key : String) : Prop :=
  ∃ items copied, listed task.metadata key = some items ∧ listed copy.metadata key = some copied ∧
    List.Forall₂ agrees items copied

/-- The copy has what a user has set in the task and what decides where it runs. -/
structure Agrees (correct : String → String) (task copy : Task) : Prop where
  title : copy.title = correct task.title
  goal : copy.goal = correct task.goal
  latestInstruction : copy.latestInstruction = task.latestInstruction.map correct
  notes : ListsAgree (fun item copied => copied = correctText correct item) task copy "notes"
  constraints : ListsAgree (ConstraintAgrees correct) task copy "constraints"
  priority : copy.priority = task.priority
  interruptible : copy.interruptible = task.interruptible
  requiresConfirmation : copy.requiresConfirmation = task.requiresConfirmation
  preferredExecutor : copy.preferredExecutor = task.preferredExecutor
  sessionAffinity : copy.sessionAffinity = task.sessionAffinity
  routing : ∀ key ∈ routingKeys, valueOf copy.metadata key = valueOf task.metadata key

/-- A constraint as `add_constraint` makes them. -/
def isConstraint : Value → Bool
  | .dict fields =>
    ((fields.lookup "constraint").bind nonblank?).isSome &&
      match fields.lookup "category" with
      | none => true
      | some .null => true
      | some (.str category) => category ≠ ""
      | some _ => false
  | _ => false

/-- The task has an executor, its lists hold nothing that the copy leaves out, and it is not
routed to a Bro, a node or a detail session. -/
structure Carried (cfg : Config) (task : Task) : Prop where
  executor : ∃ executor, task.preferredExecutor = some executor ∧
    (executor = "" → cfg.defaultExecutorType = "")
  notes : ∀ notes, listed task.metadata "notes" = some notes →
    ∀ item ∈ notes, (nonblank? item).isSome = true
  constraints : ∀ constraints, listed task.metadata "constraints" = some constraints →
    ∀ item ∈ constraints, isConstraint item = true
  unrouted : ∀ key ∈ routingKeys, valueOf task.metadata key = .null

/-- A list agrees with what some of its items become exactly if all of them do and agree. -/
theorem forall₂_filterMap_iff {α β γ : Type} {f : α → Option β} {g : β → γ} {R : α → γ → Prop}
    {p : α → Prop} (hsome : ∀ a b, f a = some b → (R a (g b) ↔ p a))
    (hnone : ∀ a, f a = none → ¬ p a) (as : List α) :
    List.Forall₂ R as ((as.filterMap f).map g) ↔ ∀ a ∈ as, p a := by
  induction as with
  | nil => simp
  | cons a as ih =>
    cases hf : f a with
    | some b =>
      rw [List.filterMap_cons_some hf, List.map_cons, List.forall₂_cons, ih, hsome a b hf,
        List.forall_mem_cons]
    | none =>
      have hleft : ¬ List.Forall₂ R (a :: as) (((a :: as).filterMap f).map g) := by
        intro hall
        have hlength := hall.length_eq
        have hle : (as.filterMap f).length ≤ as.length := List.length_filterMap_le f as
        rw [List.filterMap_cons_none hf, List.length_map, List.length_cons] at hlength
        omega
      have hright : ¬ ∀ other ∈ a :: as, p other :=
        fun hall => hnone a hf (hall a List.mem_cons_self)
      exact ⟨fun h => absurd h hleft, fun h => absurd h hright⟩

variable {item : Value}

theorem eq_of_nonblank? {text : String} (h : nonblank? item = some text) :
    item = .str text := by
  cases item with
  | str s =>
    simp only [nonblank?] at h
    split at h
    · cases h
    · cases h
      rfl
  | _ => cases h

theorem notes_agree_iff (correct : String → String) (notes : List Value) :
    List.Forall₂ (fun item copied => copied = correctText correct item) notes
        (copiedNotes correct notes) ↔
      ∀ item ∈ notes, (nonblank? item).isSome = true := by
  refine forall₂_filterMap_iff (fun item text htext => ?_) (fun item hnone => ?_) notes
  · obtain rfl := eq_of_nonblank? htext
    simp [correctText, htext]
  · simp [hnone]

theorem stored_category_iff (name : String) (value : Value) :
    (((some name).filter (· ≠ "")).map Value.str).getD .null = value ↔
      value = if name = "" then .null else .str name := by
  by_cases h : name = ""
  · rw [if_pos h, Option.filter_some_neg (by simpa using h)]
    exact eq_comm
  · rw [if_neg h, Option.filter_some_pos (by simpa using h)]
    exact eq_comm

/-- What `add_constraint` stores of a constraint, against the item that it comes from. -/
theorem constraintAgrees_iff (cfg : Config) (correct : String → String)
    {constraint : String × Option String} (h : constraintOf cfg item = some constraint) :
    ConstraintAgrees correct item (constraintPayload (correct constraint.1) constraint.2) ↔
      isConstraint item = true := by
  cases item with
  | dict fields =>
    obtain ⟨text, htext, rfl⟩ := Option.map_eq_some_iff.mp h
    obtain ⟨value, hvalue, hblank⟩ := Option.bind_eq_some_iff.mp htext
    obtain rfl := eq_of_nonblank? hblank
    have hkey : ("constraint" == "category") = false := by decide
    have hkey' : ("category" == "constraint") = false := by decide
    have hconstraint : ∀ category : Option String,
        (("constraint", Value.str (correct text)) ::
          ((category.filter (· ≠ "")).map fun category =>
            ("category", Value.str category)).toList).lookup "constraint" =
          (fields.lookup "constraint").map (correctText correct) := by
      intro category
      rw [hvalue]
      simp [correctText]
    have hcategory : ∀ category : Option String,
        ((("constraint", Value.str (correct text)) ::
          ((category.filter (· ≠ "")).map fun category =>
            ("category", Value.str category)).toList).lookup "category").getD .null =
          ((category.filter (· ≠ "")).map Value.str).getD .null := by
      intro category
      cases category.filter (· ≠ "") <;> simp [List.lookup_cons, hkey']
    simp only [ConstraintAgrees, constraintPayload, isConstraint, hconstraint, hcategory, true_and,
      hvalue, Option.bind_some, hblank, Option.isSome_some, Bool.true_and]
    cases hfound : fields.lookup "category" with
    | none => simp
    | some category =>
      cases category with
      | null => simp
      | str name =>
        simp only [Option.getD_some, stored_category_iff, cfg.printed_str, decide_eq_true_eq]
        by_cases hname : name = "" <;> simp [hname]
      | bool flag =>
        simp only [Option.getD_some, stored_category_iff]
        by_cases hname : cfg.printed (.bool flag) = "" <;> simp [hname]
      | int number =>
        simp only [Option.getD_some, stored_category_iff]
        by_cases hname : cfg.printed (.int number) = "" <;> simp [hname]
      | list items =>
        simp only [Option.getD_some, stored_category_iff]
        by_cases hname : cfg.printed (.list items) = "" <;> simp [hname]
      | dict entries =>
        simp only [Option.getD_some, stored_category_iff]
        by_cases hname : cfg.printed (.dict entries) = "" <;> simp [hname]
  | _ => cases h

theorem constraints_agree_iff (cfg : Config) (correct : String → String)
    (constraints : List Value) : List.Forall₂ (ConstraintAgrees correct) constraints
        (copiedConstraints cfg correct constraints) ↔
      ∀ item ∈ constraints, isConstraint item = true := by
  refine forall₂_filterMap_iff
    (fun item constraint hconstraint => constraintAgrees_iff cfg correct hconstraint)
    (fun item hnone => ?_) constraints
  cases item with
  | dict fields =>
    have htext : (fields.lookup "constraint").bind nonblank? = none := by
      simpa [constraintOf, Value.dict?] using hnone
    simp [isConstraint, htext]
  | _ => simp [isConstraint]

theorem lookup_setAll (h : key ∉ marks.map Prod.fst) (metadata : Metadata) :
    Dict.lookup (setAll metadata marks) key = Dict.lookup metadata key := by
  induction marks generalizing metadata with
  | nil => rfl
  | cons mark marks ih =>
    rw [List.map_cons, List.mem_cons, not_or] at h
    have hrest := ih h.2 (Dict.set metadata mark.1 mark.2)
    rw [Dict.lookup_set_of_ne _ _ (Ne.symm h.1)] at hrest
    exact hrest

/-- Marks under keys of their own. -/
def PlainMarks (marks : List (String × Value)) : Prop :=
  ∀ key ∈ listKeys ++ routingKeys, key ∉ marks.map Prod.fst

theorem plainMarks_recreated {taskId : String} :
    PlainMarks [("recreated_from_task_id", .str taskId)] := by
  intro key hkey hmem
  have hname : key = "recreated_from_task_id" := List.mem_singleton.mp hmem
  rw [hname] at hkey
  exact absurd hkey (by decide)

theorem plainMarks_correction (task : Task) (intent : CorrectionIntent) :
    PlainMarks (correctionMarks task intent) := by
  intro key hkey hmem
  have hmarks : key ∈ ["replacement_for_task_id", "correction_new_value", "correction_old_value",
      "correction_target_group"] := by
    simp only [correctionMarks] at hmem
    cases hold : intent.oldValue <;> cases hgroup : intent.targetGroup <;>
      simp only [hold, hgroup, Option.map_none, Option.map_some, Option.toList_none,
        Option.toList_some, List.append_nil, List.cons_append, List.nil_append, List.map_cons,
        List.map_nil, List.mem_cons, List.not_mem_nil, or_false] at hmem ⊢ <;> tauto
  have happart : ∀ key ∈ listKeys ++ routingKeys,
      key ∉ ["replacement_for_task_id", "correction_new_value", "correction_old_value",
        "correction_target_group"] := by
    decide
  exact happart key hkey hmarks

section isCopy

variable {cfg : Config} {correct : String → String} {marks : List (String × Value)}
  {task copy : Task} {taskId : String} {notes constraints : List Value}

section

variable (h : IsCopy cfg correct marks task taskId notes constraints copy)
include h

theorem IsCopy.listed_eq (hmarks : PlainMarks marks) (hkey : key ∈ listKeys) :
    listed copy.metadata key = some (copiedLists cfg correct notes constraints key) := by
  obtain ⟨unmarked, hdraft, rfl⟩ := h.made
  have hlookup : Dict.lookup (bumped (withMarks marks unmarked)).metadata key =
      Dict.lookup unmarked.metadata key :=
    lookup_setAll (hmarks key (List.mem_append_left _ hkey)) _
  have hlist := hdraft.lists key hkey
  unfold listed at hlist ⊢
  rw [hlookup]
  exact hlist

/-- No tool writes a routing key of the copy. -/
theorem IsCopy.unrouted (hmarks : PlainMarks marks) (hkey : key ∈ routingKeys) :
    valueOf copy.metadata key = .null := by
  obtain ⟨unmarked, hdraft, rfl⟩ := h.made
  have hlookup : Dict.lookup (bumped (withMarks marks unmarked)).metadata key =
      Dict.lookup unmarked.metadata key :=
    lookup_setAll (hmarks key (List.mem_append_right _ hkey)) _
  have hsplit : ∀ key ∈ routingKeys, key ∉ listKeys ∧ key ≠ "mock_safe" := by decide
  have hfresh : Dict.lookup (copyBase cfg correct task taskId).metadata key = none :=
    lookup_freshTask cfg correct task taskId (hsplit key hkey).2
  rw [valueOf, hlookup, hdraft.others key (hsplit key hkey).1, hfresh]
  rfl

/-- The fields of a copy. -/
theorem IsCopy.fields : copy.title = correct task.title ∧ copy.goal = correct task.goal ∧
      copy.latestInstruction = task.latestInstruction.map correct ∧
      copy.priority = task.priority ∧ copy.interruptible = task.interruptible ∧
      copy.requiresConfirmation = task.requiresConfirmation ∧
      copy.preferredExecutor = some (Text.orElse task.preferredExecutor cfg.defaultExecutorType) ∧
      copy.sessionAffinity = task.sessionAffinity ∧ copy.taskId = taskId := by
  obtain ⟨unmarked, hdraft, rfl⟩ := h.made
  have hcore : bumped (withMarks marks unmarked) =
      { copyBase cfg correct task taskId with
        metadata := setAll unmarked.metadata marks
        taskRevision := unmarked.taskRevision + 1 } := by
    have hunmarked := hdraft.core
    unfold bumped withMarks
    rw [hunmarked]
  rw [hcore]
  have hpatched : ∀ {α : Type} [DecidableEq α] (own created : α),
      (if own ≠ created then some own else none).getD created = own := by
    intro α _ own created
    by_cases heq : own = created
    · rw [if_neg (not_not_intro heq), heq]
      rfl
    · rw [if_pos heq]
      rfl
  exact ⟨rfl, rfl, Option.or_none, hpatched _ _, hpatched _ _, rfl, rfl, hpatched _ _, rfl⟩

end

theorem copiedLists_notes (cfg : Config) (correct : String → String)
    (notes constraints : List Value) :
    copiedLists cfg correct notes constraints "notes" = copiedNotes correct notes := by
  simp [copiedLists, extended]

theorem copiedLists_constraints (cfg : Config) (correct : String → String)
    (notes constraints : List Value) : copiedLists cfg correct notes constraints "constraints" =
      copiedConstraints cfg correct constraints := by
  simp [copiedLists, extended]

theorem listsAgree_iff {agrees : Value → Value → Prop} {copied : List Value}
    (hitems : listed task.metadata key = some items)
    (hcopied : listed copy.metadata key = some copied) :
    ListsAgree agrees task copy key ↔ List.Forall₂ agrees items copied := by
  constructor
  · rintro ⟨items', copied', hitems', hcopied', hall⟩
    rw [hitems] at hitems'
    rw [hcopied] at hcopied'
    cases hitems'
    cases hcopied'
    exact hall
  · intro hall
    exact ⟨items, copied, hitems, hcopied, hall⟩

/-- A copy agrees with its original exactly if nothing is left out. -/
theorem IsCopy.agrees_iff (h : IsCopy cfg correct marks task taskId notes constraints copy)
    (hmarks : PlainMarks marks) (hnotes : listed task.metadata "notes" = some notes)
    (hconstraints : listed task.metadata "constraints" = some constraints) :
    Agrees correct task copy ↔ Carried cfg task := by
  obtain ⟨htitle, hgoal, hinstruction, hpriority, hinterruptible, hconfirmation, hexecutor,
    haffinity, -⟩ := h.fields
  have hcopiedNotes : listed copy.metadata "notes" = some (copiedNotes correct notes) := by
    rw [h.listed_eq hmarks (by decide), copiedLists_notes]
  have hcopiedConstraints : listed copy.metadata "constraints" =
      some (copiedConstraints cfg correct constraints) := by
    rw [h.listed_eq hmarks (by decide), copiedLists_constraints]
  have hnotesAgree := (listsAgree_iff hnotes hcopiedNotes).trans (notes_agree_iff correct notes)
  have hconstraintsAgree := (listsAgree_iff hconstraints hcopiedConstraints).trans
    (constraints_agree_iff cfg correct constraints)
  have hsameExecutor : copy.preferredExecutor = task.preferredExecutor ↔
      ∃ executor, task.preferredExecutor = some executor ∧
        (executor = "" → cfg.defaultExecutorType = "") := by
    rw [hexecutor]
    cases task.preferredExecutor with
    | none => simp
    | some executor => by_cases hempty : executor = "" <;> simp [Text.orElse, hempty]
  constructor
  · intro hagrees
    refine ⟨hsameExecutor.mp hagrees.preferredExecutor, fun items hitems => ?_,
      fun items hitems => ?_, fun key hkey => ?_⟩
    · rw [hnotes] at hitems
      cases hitems
      exact hnotesAgree.mp hagrees.notes
    · rw [hconstraints] at hitems
      cases hitems
      exact hconstraintsAgree.mp hagrees.constraints
    · rw [← hagrees.routing key hkey]
      exact h.unrouted hmarks hkey
  · intro hcarried
    exact
      { title := htitle
        goal := hgoal
        latestInstruction := hinstruction
        notes := hnotesAgree.mpr (hcarried.notes notes hnotes)
        constraints := hconstraintsAgree.mpr (hcarried.constraints constraints hconstraints)
        priority := hpriority
        interruptible := hinterruptible
        requiresConfirmation := hconfirmation
        preferredExecutor := hsameExecutor.mpr hcarried.executor
        sessionAffinity := haffinity
        routing := fun key hkey => by
          rw [h.unrouted hmarks hkey, hcarried.unrouted key hkey] }

end isCopy

variable {cfg : Config}

/-- What comes back from a copy is stored, and agrees with its original exactly if nothing is
left out. -/
theorem copyTask_agrees {copy : Task} {calls : List ToolInvocation}
    (hmarks : PlainMarks marks)
    (h : exec (copyTask cfg correct marks task) s = (.ok (copy, calls), s')) :
    s'.getTask copy.taskId = some copy ∧ (Agrees correct task copy ↔ Carried cfg task) := by
  obtain ⟨haccepted, notes, constraints, hnotes, hconstraints⟩ := copyTask_ok h
  obtain ⟨hcopy, hstored, -⟩ :=
    (makes_copyTask marks rfl haccepted hnotes hconstraints).of_ok h
  have hid : copy.taskId = "task-" ++ cfg.hex s.drawn := Table.key_of_get? hstored
  rw [hid]
  exact ⟨hstored, hcopy.agrees_iff hmarks hnotes hconstraints⟩

/-- The task that is made of a cancelled one, or of one that is corrected, agrees with it exactly
if it has an executor of its own, its notes and constraints are texts, and it is not routed. -/
theorem replacement_agrees_iff (cfg : Config) (targetSlots : List BundleSlot)
    (intent : CorrectionIntent) (task : Task) (s : Turn) :
    (∀ copy calls s', exec (recreateTaskFromCancelled cfg task) s = (.ok (copy, calls), s') →
      s'.getTask copy.taskId = some copy ∧ (Agrees id task copy ↔ Carried cfg task)) ∧
    (∀ copy calls s',
      exec (cloneTaskWithCorrection cfg targetSlots intent task) s = (.ok (copy, calls), s') →
      s'.getTask copy.taskId = some copy ∧
        (Agrees (applyCorrectionToText cfg.casing targetSlots intent) task copy ↔
          Carried cfg task)) := by
  refine ⟨fun copy calls s' h => ?_, fun copy calls s' h => ?_⟩
  · exact copyTask_agrees plainMarks_recreated h
  · exact copyTask_agrees (plainMarks_correction task intent) h

/-- A copy returns when its executor is accepted, its lists can be run over and nobody raises. -/
theorem copyTask_returns
    (marks : List (String × Value)) (s : Turn)
    (hquiet : ∀ n, cfg.raises n = false)
    (haccepted : refuseExecutor cfg (createArgs correct task) = none)
    (hnotes : listed task.metadata "notes" = some notes)
    (hconstraints : listed task.metadata "constraints" = some constraints) :
    ∃ copy calls s', exec (copyTask cfg correct marks task) s = (.ok (copy, calls), s') ∧
      IsCopy cfg correct marks task ("task-" ++ cfg.hex s.drawn) notes constraints copy := by
  rcases makes_copyTask marks rfl haccepted hnotes hconstraints with
    ⟨-, ⟨copy, calls⟩, s', hexec, -, hcopy, -⟩ | ⟨hloud, -⟩
  · exact ⟨copy, calls, s', hexec, hcopy⟩
  · exact absurd (fun k _ => hquiet _) hloud

/-- A session with the Codex executor. -/
def codexConfig : Config where
  session := { registry := Table.empty, defaultExecutorType := "codex", workerId := "worker-1" }
  live := SessionManager.LiveSessions.empty
  validExecutorTypes := ["codex"]
  defaultExecutorType := "codex"
  casing := asciiCasing
  printed value := value.str?.getD ""
  printed_str _ := rfl
  hex n := String.ofList (List.replicate (n + 1) 'f')

def plainTask : Task :=
  { taskId := "task-1"
    rootTaskId := "task-1"
    title := "Book a flight"
    goal := "Fly to Rome"
    priority := 7
    preferredExecutor := some "codex"
    latestInstruction := some "Window seat"
    metadata := setAll Table.empty
      [("notes", .list [.str "Fly to Rome only"]),
        ("constraints", .list [.dict [("constraint", .str "No stops"), ("category", .str "scope")]])] }

/-- A task without a Bro comes back as it was. -/
theorem plain_task_agrees : ∃ copy calls s', exec (recreateTaskFromCancelled codexConfig plainTask)
        { board := Blackboard.empty } = (.ok (copy, calls), s') ∧ Agrees id plainTask copy := by
  have hnotes : listed plainTask.metadata "notes" = some [.str "Fly to Rome only"] := rfl
  have hconstraints : listed plainTask.metadata "constraints" =
      some [.dict [("constraint", .str "No stops"), ("category", .str "scope")]] := rfl
  have hcarried : Carried codexConfig plainTask :=
    { executor := ⟨"codex", rfl, fun h => absurd h (by decide)⟩
      notes := fun notes h item hmem => by
        rw [hnotes] at h
        cases h
        obtain rfl := List.mem_singleton.mp hmem
        decide
      constraints := fun constraints h item hmem => by
        rw [hconstraints] at h
        cases h
        obtain rfl := List.mem_singleton.mp hmem
        decide
      unrouted := fun key hkey => by
        simp only [routingKeys, List.mem_cons, List.not_mem_nil, or_false] at hkey
        rcases hkey with rfl | rfl | rfl | rfl <;> rfl }
  obtain ⟨copy, calls, s', hexec, -⟩ :=
    copyTask_returns [("recreated_from_task_id", .str plainTask.taskId)]
      { board := Blackboard.empty } (fun _ => rfl)
      (show refuseExecutor codexConfig (createArgs id plainTask) = none by decide) hnotes
      hconstraints
  have hagrees := (replacement_agrees_iff codexConfig [] { newValue := "" } plainTask
    { board := Blackboard.empty }).1 copy calls s' hexec
  exact ⟨copy, calls, s', hexec, hagrees.2.mpr hcarried⟩

/-- A task of a Bro on a node of its own. -/
def routedTask : Task :=
  { plainTask with
    metadata := setAll Table.empty
      [("persona_id", .str "persona-1"), ("executor_node_id", .str "node-1"),
        ("bro_detail_session_id", .str "detail-1")] }

/-- The copy of a Bro's task has no Bro. -/
theorem routed_task_loses_bro : ¬ ∀ (cfg : Config) (task : Task) (s : Turn) copy calls s',
      exec (recreateTaskFromCancelled cfg task) s = (.ok (copy, calls), s') →
        Agrees id task copy := by
  intro h
  have hnotes : listed routedTask.metadata "notes" = some [] := rfl
  have hconstraints : listed routedTask.metadata "constraints" = some [] := rfl
  obtain ⟨copy, calls, s', hexec, hcopy⟩ :=
    copyTask_returns [("recreated_from_task_id", .str routedTask.taskId)]
      { board := Blackboard.empty } (fun _ => rfl)
      (show refuseExecutor codexConfig (createArgs id routedTask) = none by decide) hnotes
      hconstraints
  have hagrees := h codexConfig routedTask _ copy calls s' hexec
  have hbro := hagrees.routing "persona_id" (by decide)
  rw [hcopy.unrouted plainMarks_recreated (by decide)] at hbro
  cases hbro

end Newbro.TaskReplacements
