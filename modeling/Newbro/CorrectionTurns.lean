import Newbro.TaskReplacements

/-!
# Turns that correct tasks

What the communication brain does when the user corrects the tasks in focus
(`_handle_correction_intent`): every task of the bundle is copied with its texts corrected, then
every original is cancelled, and only then is the result looked at. Such a turn is all or
nothing exactly if the result turns out to be right, or nothing has been called.
-/
namespace Newbro.CorrectionTurns

open Library Library.Effect Protocol BrainTools Corrections
  TaskReplacements Option List

/-! ## The turn -/

def activeTaskStatuses : List TaskStatus :=
  [.created, .queued, .waitingExecutor, .running, .waitingUserInput, .paused]

/-- The tasks that an entry of the history is about, if it names any. -/
def focusOf (entry : ConversationEntry) : Option (List String) :=
  if entry.focusedTaskIds ≠ [] then some entry.focusedTaskIds
  else if entry.affectedTaskIds ≠ [] then some entry.affectedTaskIds
  else (entry.focusedTaskId.filter (· ≠ "")).map ([·])

def latestFocusedTaskIds (history : List ConversationEntry) : List String :=
  (history.reverse.findSome? focusOf).getD []

/-- `_resolve_focused_bundle` with `ACTIVE_TASK_STATUSES`: all tasks in focus, if all of them are
there and active. -/
def resolveFocusedBundle (s : Turn) : List Task :=
  ((latestFocusedTaskIds s.history).mapM fun taskId =>
    (s.getTask taskId).filter fun task => activeTaskStatuses.contains task.status).getD []

inductive ConversationalAct where
  | requestClarification | acknowledgeAndModify
  deriving Repr, DecidableEq

structure CommunicationTurnResult where
  replyText : String
  conversationalAct : ConversationalAct
  toolInvocations : List ToolInvocation := []
  affectedTaskIds : List String := []

def finalizeLocalTurn (result : CommunicationTurnResult) (focusedTaskId : Option String)
    (focusedTaskIds : List String) : Action CommunicationTurnResult := do
  let focus := if focusedTaskIds = [] then result.affectedTaskIds else focusedTaskIds
  modify fun s =>
    { s with history := s.history ++
        [{ text := result.replyText
           focusedTaskId := (focusedTaskId.filter (· ≠ "")).or focus.head?
           focusedTaskIds := focus
           affectedTaskIds := result.affectedTaskIds }] }
  pure result

/-- The slots of a task among the target slots. -/
def slotsOf (targetSlots : List BundleSlot) (task : Task) : List BundleSlot :=
  targetSlots.filter fun slot => slot.taskId = task.taskId

def cloneTask (cfg : Config) (targetSlots : List BundleSlot) (intent : CorrectionIntent)
    (task : Task) : Action (Task × List ToolInvocation) :=
  cloneTaskWithCorrection cfg (slotsOf targetSlots task) intent task

/-- A task as it is stored by now. -/
def liveTask (s : Turn) (task : Task) : Task := (s.getTask task.taskId).getD task

/-- The second loop of `_replace_bundle_for_correction`. -/
def cancelReplaced (cfg : Config) (replacement : Task × Task) : Action ToolInvocation := do
  let s ← get
  let call := ToolCall.controlTask replacement.1.taskId .cancelTask
  let _ ← storeTask (withMarks [("replaced_by_task_id", .str replacement.2.taskId)]
    (liveTask s replacement.1))
  let result ← invokeTool cfg call
  pure ⟨call, result⟩

def replaceBundleForCorrection (cfg : Config) (targetSlots : List BundleSlot)
    (intent : CorrectionIntent) (bundle : List Task) : Action (List Task × List ToolInvocation) := do
  let clones ← bundle.mapM (cloneTask cfg targetSlots intent)
  let newTasks := clones.map Prod.fst
  let cancels ← (bundle.zip newTasks).mapM (cancelReplaced cfg)
  pure (newTasks, clones.flatMap Prod.snd ++ cancels)

/-- The texts in which `_task_has_cued_value` searches. -/
def haystacks (task : Task) : List String :=
  [task.title, task.goal, task.latestInstruction.getD ""] ++
    ((listed task.metadata "notes").getD []).filterMap Value.str? ++
    ((listed task.metadata "constraints").getD []).filterMap fun item =>
      item.dict?.bind fun fields => Fields.str? fields "constraint"

def taskHasCuedValue (cfg : Config) (task : Task) (cue value : String) : Bool :=
  anyHasCuedValue cfg.casing (haystacks task) cue value

/-- The new value stands in the texts at every slot, and the old one nowhere. -/
def textsCorrected (cfg : Config) (slots : List BundleSlot) (intent : CorrectionIntent)
    (texts : List String) : Bool :=
  slots.all fun slot => anyHasCuedValue cfg.casing texts slot.cue intent.newValue &&
    !anyHasCuedValue cfg.casing texts slot.cue slot.value

def bundleCorrectionIsValid (cfg : Config) (oldBundle newBundle : List Task)
    (targetSlots : List BundleSlot) (intent : CorrectionIntent) : Bool :=
  oldBundle.length = newBundle.length &&
    oldBundle.all (fun task => task.status = .cancelled) &&
    (oldBundle.zip newBundle).all fun replacement =>
      (slotsOf targetSlots replacement.1).all fun slot =>
        taskHasCuedValue cfg replacement.2 slot.cue intent.newValue &&
          !taskHasCuedValue cfg replacement.2 slot.cue slot.value

/-- How `_handle_correction_intent` ends, once the tasks have been replaced. -/
def answerReplaced (cfg : Config) (targetSlots : List BundleSlot) (intent : CorrectionIntent)
    (bundle : List Task) (replaced : List Task × List ToolInvocation) :
    Action CommunicationTurnResult := do
  let s ← get
  let oldTaskIds := bundle.map Task.taskId
  let newTaskIds := replaced.1.map Task.taskId
  if bundleCorrectionIsValid cfg (bundle.map (liveTask s)) (replaced.1.map (liveTask s))
      targetSlots intent then
    finalizeLocalTurn
      { replyText := buildCorrectionAcknowledgement intent
        conversationalAct := .acknowledgeAndModify
        toolInvocations := replaced.2
        affectedTaskIds := oldTaskIds ++ newTaskIds }
      newTaskIds.head? newTaskIds
  else
    finalizeLocalTurn
      { replyText := "I need one more clarification before I update that."
        conversationalAct := .requestClarification
        affectedTaskIds := oldTaskIds ++ newTaskIds }
      newTaskIds.head? newTaskIds

def handleCorrectionIntent (cfg : Config) (intent : CorrectionIntent) :
    Action CommunicationTurnResult := do
  let s ← get
  let bundle := resolveFocusedBundle s
  let oldTaskIds := bundle.map Task.taskId
  if bundle = [] then
    finalizeLocalTurn
      { replyText := "Which task should I update?", conversationalAct := .requestClarification }
      none []
  else
    let bundleSlots := extractBundleSlots cfg.casing bundle
    match selectCorrectionSlots cfg.casing bundleSlots intent with
    | none =>
      finalizeLocalTurn
        { replyText := buildCorrectionClarification bundleSlots intent
          conversationalAct := .requestClarification
          affectedTaskIds := oldTaskIds }
        oldTaskIds.head? oldTaskIds
    | some targetSlots => do
        let replaced ← replaceBundleForCorrection cfg targetSlots intent bundle
        answerReplaced cfg targetSlots intent bundle replaced

/-- `_handle_local_intent`, as far as it handles corrections; none for another text. -/
def handleCorrection (cfg : Config) (userText : String) :
    Action (Option CommunicationTurnResult) :=
  match parseGenericCorrection cfg.casing userText with
  | .none => pure none
  | .noSuchGroup => throw .indexError
  | .intent intent => do
      let result ← handleCorrectionIntent cfg intent
      pure (some result)

/-! ## Tasks that stay -/

/-- Every task that was there is there. -/
def TasksStay (s s' : Turn) : Prop :=
  ∀ taskId, (s.getTask taskId).isSome = true → (s'.getTask taskId).isSome = true

theorem TasksStay.refl (s : Turn) : TasksStay s s := fun _ h => h

theorem TasksStay.trans (a b c : Turn) (h : TasksStay a b) (h' : TasksStay b c) :
    TasksStay a c := fun taskId ha => h' taskId (h taskId ha)

variable {call : ToolCall}

section stays

variable {cfg : Config} {α β : Type}

theorem stays_bind {m : Action α} {f : α → Action β} (hm : Keeps TasksStay m)
    (hf : ∀ a, Keeps TasksStay (f a)) : Keeps TasksStay (m >>= f) :=
  keeps_bind TasksStay.trans hm hf

theorem stays_mapM {f : α → Action β} (h : ∀ a, Keeps TasksStay (f a)) (as : List α) :
    Keeps TasksStay (as.mapM f) :=
  keeps_mapM TasksStay.refl TasksStay.trans h as

theorem stays_get : Keeps TasksStay (get : Action Turn) := keeps_get TasksStay.refl

theorem stays_pure (a : α) : Keeps TasksStay (pure a : Action α) := keeps_pure TasksStay.refl a

theorem stays_throw (e : Raised) : Keeps TasksStay (throw e : Action α) :=
  keeps_throw TasksStay.refl e

theorem stays_storeTask (task : Task) : Keeps TasksStay (storeTask task) := by
  intro s taskId hsome
  rw [exec_storeTask]
  show ((s.store task).getTask taskId).isSome = true
  rw [Turn.getTask_store]
  by_cases h : task.taskId = taskId
  · rw [if_pos h]
    rfl
  · rw [if_neg h]
    exact hsome

theorem stays_draw : Keeps TasksStay (draw cfg) :=
  stays_bind stays_get fun _ => stays_bind (keeps_modify fun _ _ h => h) fun _ => stays_pure _

theorem stays_createTask (args : CreateTaskArgs) : Keeps TasksStay (createTask cfg args) := by
  unfold createTask
  split
  · exact stays_throw _
  · refine stays_bind stays_get fun s => ?_
    split
    · exact stays_throw _
    · refine stays_bind stays_draw fun hex => ?_
      split
      · exact stays_storeTask _
      · exact stays_bind (keeps_modify fun _ _ h => h) fun _ => stays_storeTask _

theorem stays_editTask (noun taskId : String) (edit : Task → Except Raised Task) :
    Keeps TasksStay (editTask noun taskId edit) := by
  unfold editTask
  refine stays_bind stays_get fun s => ?_
  split
  · exact stays_throw _
  · split
    · exact stays_throw _
    · exact stays_storeTask _

theorem stays_cancelTask (taskId : String) :
    Keeps TasksStay (controlTask cfg taskId .cancelTask) := by
  intro s other hsome
  cases htask : if taskId = "" then none else s.getTask taskId with
  | none =>
    obtain ⟨e, he⟩ := @exec_cancelTask_missing s taskId cfg htask
    rw [he]
    exact hsome
  | some task =>
    have hne : taskId ≠ "" := by
      rintro rfl
      rw [if_pos rfl] at htask
      cases htask
    rw [if_neg hne] at htask
    obtain ⟨result, board, hexec, hboard⟩ := @exec_cancelTask cfg taskId s task hne htask
    rw [hexec]
    show (board.getTask other).isSome = true
    rw [hboard other]
    by_cases h : taskId = other
    · rw [if_pos h]
      rfl
    · rw [if_neg h]
      exact hsome

/-- A call other than a command that does not cancel. -/
def Cancels : ToolCall → Prop
  | .controlTask _ commandType => commandType = .cancelTask
  | _ => True

theorem stays_runTool (h : Cancels call) : Keeps TasksStay (runTool cfg call) := by
  cases call with
  | createTask args => exact stays_createTask args
  | updateTask | addTaskNote | addConstraint => exact stays_editTask _ _ _
  | controlTask taskId commandType =>
    cases h
    exact stays_cancelTask taskId

theorem stays_invokeTool (h : Cancels call) :
    Keeps TasksStay (invokeTool cfg call) := by
  intro s taskId hsome
  have hrun : ((exec (runTool cfg call) s).2.getTask taskId).isSome = true :=
    stays_runTool h s taskId hsome
  rw [exec_invokeTool]
  revert hrun
  rcases exec (runTool cfg call) s with ⟨result, s'⟩
  cases result <;> exact id

theorem stays_invokeTools {calls : List ToolCall} (h : ∀ call ∈ calls, Cancels call) :
    Keeps TasksStay (invokeTools cfg calls) := by
  induction calls with
  | nil => exact stays_pure _
  | cons call calls ih =>
    have hrest := ih fun other hmem => h other (mem_cons_of_mem _ hmem)
    have hfirst : Keeps TasksStay (do
        let result ← invokeTool cfg call
        pure (⟨call, result⟩ : ToolInvocation)) :=
      stays_bind (stays_invokeTool (h call mem_cons_self)) fun _ => stays_pure _
    rw [invokeTools, mapM_cons]
    exact stays_bind hfirst fun _ => stays_bind hrest fun _ => stays_pure _

theorem stays_loopOver (metadata : Metadata) (key : String) :
    Keeps TasksStay (loopOver metadata key) := by
  unfold loopOver
  split
  · exact stays_throw _
  · exact stays_pure _

/-- The rest of a copy, once the task has been created. -/
def finishCopy (cfg : Config) (correct : String → String) (marks : List (String × Value))
    (task created : Task) : Action (Task × List ToolInvocation) := do
  let updated ← invokeTools cfg (updateCalls correct task created)
  let notes ← loopOver task.metadata "notes"
  let noted ← invokeTools cfg
    (noteCalls correct created.taskId (notes.filterMap nonblank?))
  let constraints ← loopOver task.metadata "constraints"
  let constrained ← invokeTools cfg
    (constraintCalls correct created.taskId (constraints.filterMap (constraintOf cfg)))
  let copy ← markTask created marks
  pure (copy, ⟨.createTask (createArgs correct task), created⟩ :: (updated ++ noted ++ constrained))

theorem copyTask_eq (correct : String → String) (marks : List (String × Value)) (task : Task) :
    copyTask cfg correct marks task =
      invokeTool cfg (.createTask (createArgs correct task)) >>=
        finishCopy cfg correct marks task := rfl

theorem stays_finishCopy (correct : String → String) (marks : List (String × Value))
    (task created : Task) : Keeps TasksStay (finishCopy cfg correct marks task created) := by
  have hupdates : ∀ call ∈ updateCalls correct task created, Cancels call := by
    intro call hmem
    by_cases hpatch : patchOf correct task created = {}
    · simp only [updateCalls, hpatch, if_true, not_mem_nil] at hmem
    · simp only [updateCalls, hpatch, if_false] at hmem
      obtain rfl := mem_singleton.mp hmem
      trivial
  have hnotes : ∀ notes, ∀ call ∈ noteCalls correct created.taskId notes, Cancels call := by
    intro notes call hmem
    obtain ⟨note, -, rfl⟩ := mem_map.mp hmem
    trivial
  have hconstraints : ∀ constraints,
      ∀ call ∈ constraintCalls correct created.taskId constraints, Cancels call := by
    intro constraints call hmem
    obtain ⟨constraint, -, rfl⟩ := mem_map.mp hmem
    trivial
  have hmark : Keeps TasksStay (markTask created marks) :=
    stays_bind stays_get fun _ => stays_storeTask _
  unfold finishCopy
  exact stays_bind (stays_invokeTools hupdates) fun _ =>
    stays_bind (stays_loopOver _ _) fun _ =>
      stays_bind (stays_invokeTools (hnotes _)) fun _ =>
        stays_bind (stays_loopOver _ _) fun _ =>
          stays_bind (stays_invokeTools (hconstraints _)) fun _ =>
            stays_bind hmark fun _ => stays_pure _

theorem stays_copyTask (correct : String → String) (marks : List (String × Value)) (task : Task) :
    Keeps TasksStay (copyTask cfg correct marks task) := by
  rw [copyTask_eq]
  exact stays_bind (stays_invokeTool trivial) fun created => stays_finishCopy _ _ _ created

theorem stays_cancelReplaced (replacement : Task × Task) :
    Keeps TasksStay (cancelReplaced cfg replacement) :=
  stays_bind stays_get fun _ => stays_bind (stays_storeTask _) fun _ =>
    stays_bind (stays_invokeTool rfl) fun _ => stays_pure _

end stays

/-! ## The copies -/

variable {task : Task} {s : Turn}

section clones

variable {cfg : Config} {targetSlots : List BundleSlot} {intent : CorrectionIntent}

def newTaskId (cfg : Config) (n : Nat) : String := "task-" ++ cfg.hex n

/-- The correction of a text of the task. -/
def correctionOf (cfg : Config) (targetSlots : List BundleSlot) (intent : CorrectionIntent)
    (task : Task) : String → String :=
  applyCorrectionToText cfg.casing (slotsOf targetSlots task) intent

/-- What a loop over the task's list runs over, if it can. -/
def items (task : Task) (key : String) : List Value := (listed task.metadata key).getD []

/-- The executor of the copy is accepted, and both lists can be run over. -/
structure Copyable (cfg : Config) (targetSlots : List BundleSlot) (intent : CorrectionIntent)
    (task : Task) : Prop where
  accepted : refuseExecutor cfg (createArgs (correctionOf cfg targetSlots intent task) task) = none
  notes : (listed task.metadata "notes").isSome = true
  constraints : (listed task.metadata "constraints").isSome = true

/-- How many tools the copies of a bundle call, when the ids are drawn from `drawn` on. -/
def cloneCalls (cfg : Config) (targetSlots : List BundleSlot) (intent : CorrectionIntent) :
    List Task → Nat → Nat
  | [], _ => 0
  | task :: bundle, drawn =>
    copyCalls cfg (correctionOf cfg targetSlots intent task) task (newTaskId cfg drawn)
        (items task "notes") (items task "constraints") +
      cloneCalls cfg targetSlots intent bundle (drawn + 1)

/-- The copy is the corrected task, under its id, and stored. -/
structure ClonedAs (cfg : Config) (targetSlots : List BundleSlot) (intent : CorrectionIntent)
    (s : Turn) (task copy : Task) (taskId : String) : Prop where
  copied : IsCopy cfg (correctionOf cfg targetSlots intent task) (correctionMarks task intent) task
    taskId (items task "notes") (items task "constraints") copy
  stored : s.getTask taskId = some copy

theorem makes_cloneTask (h : Copyable cfg targetSlots intent task) (s : Turn) :
    Makes cfg (copyCalls cfg (correctionOf cfg targetSlots intent task) task
        (newTaskId cfg s.drawn) (items task "notes") (items task "constraints"))
      (cloneTask cfg targetSlots intent task) s fun result s' =>
        ClonedAs cfg targetSlots intent s' task result.1 (newTaskId cfg s.drawn) ∧
          Touches (newTaskId cfg s.drawn) { s with drawn := s.drawn + 1 } s' := by
  obtain ⟨notes, hnotes⟩ := isSome_iff_exists.mp h.notes
  obtain ⟨constraints, hconstraints⟩ := isSome_iff_exists.mp h.constraints
  have hmakes := makes_copyTask (correctionMarks task intent) (rfl : newTaskId cfg s.drawn = _)
    h.accepted hnotes hconstraints
  have hitems : items task "notes" = notes := by rw [items, hnotes, getD_some]
  have hitems' : items task "constraints" = constraints := by rw [items, hconstraints, getD_some]
  rw [hitems, hitems']
  refine hmakes.mono fun result s' hpost => ⟨⟨?_, hpost.2.1⟩, hpost.2.2⟩
  rw [hitems, hitems']
  exact hpost.1

/-- The next ids that are drawn are new and all different. -/
structure FreshIds (cfg : Config) (s : Turn) (count : Nat) : Prop where
  distinct : ∀ m n, m < count → n < count →
    newTaskId cfg (s.drawn + m) = newTaskId cfg (s.drawn + n) → m = n
  unused : ∀ n, n < count → s.getTask (newTaskId cfg (s.drawn + n)) = none

/-- What the first loop of `_replace_bundle_for_correction` leaves. -/
structure Cloned (cfg : Config) (targetSlots : List BundleSlot) (intent : CorrectionIntent)
    (s s' : Turn) (bundle copies : List Task) : Prop where
  length : bundle.length = copies.length
  cloned : ∀ replacement ∈ bundle.zip copies,
    ClonedAs cfg targetSlots intent s' replacement.1 replacement.2 replacement.2.taskId
  ids : ∀ copy ∈ copies, ∃ n, n < bundle.length ∧ copy.taskId = newTaskId cfg (s.drawn + n)
  nodup : (copies.map Task.taskId).Nodup
  others : ∀ taskId, taskId ∉ copies.map Task.taskId → s'.getTask taskId = s.getTask taskId
  history : s'.history = s.history

theorem makes_clones {bundle : List Task} (h : ∀ task ∈ bundle, Copyable cfg targetSlots intent task)
    (hfresh : FreshIds cfg s bundle.length) :
    Makes cfg (cloneCalls cfg targetSlots intent bundle s.drawn)
      (bundle.mapM (cloneTask cfg targetSlots intent)) s fun results s' =>
        Cloned cfg targetSlots intent s s' bundle (results.map Prod.fst) := by
  induction bundle generalizing s with
  | nil =>
    exact makes_pure
      { length := rfl
        cloned := fun _ hmem => by cases hmem
        ids := fun _ hmem => by cases hmem
        nodup := nodup_nil
        others := fun _ _ => rfl
        history := rfl }
  | cons task bundle ih =>
    rw [mapM_cons]
    refine makes_bind (makes_cloneTask (h task mem_cons_self) s) fun result s₁ hfirst => ?_
    obtain ⟨hcloned, htouches⟩ := hfirst
    have hdrawn : s₁.drawn = s.drawn + 1 := htouches.drawn
    have hcopyId : result.1.taskId = newTaskId cfg s.drawn := Table.key_of_get? hcloned.stored
    have hlength : (task :: bundle).length = bundle.length + 1 := rfl
    have hshift : ∀ n, s₁.drawn + n = s.drawn + (n + 1) := fun n => by omega
    have hother : ∀ n, n < bundle.length →
        newTaskId cfg (s.drawn + (n + 1)) ≠ newTaskId cfg s.drawn := by
      intro n hn heq
      have hsame := hfresh.distinct (n + 1) 0 (by omega) (by omega) heq
      omega
    have hfresh₁ : FreshIds cfg s₁ bundle.length := by
      refine ⟨fun m n hm hn heq => ?_, fun n hn => ?_⟩
      · rw [hshift, hshift] at heq
        have hsame := hfresh.distinct (m + 1) (n + 1) (by omega) (by omega) heq
        omega
      · rw [hshift, htouches.others _ (hother n hn)]
        exact hfresh.unused (n + 1) (by omega)
    have hrest := ih (fun other hmem => h other (mem_cons_of_mem _ hmem)) hfresh₁
    rw [hdrawn] at hrest
    rw [← Nat.add_zero (cloneCalls cfg targetSlots intent bundle (s.drawn + 1))]
    refine makes_bind hrest fun results s₂ hclones => makes_pure ?_
    have hnew : newTaskId cfg s.drawn ∉ (results.map Prod.fst).map Task.taskId := by
      intro hmem
      obtain ⟨copy, hcopy, heq⟩ := mem_map.mp hmem
      obtain ⟨n, hn, hid⟩ := hclones.ids copy hcopy
      rw [hshift] at hid
      exact hother n hn (hid.symm.trans heq)
    refine
      { length := ?_
        cloned := ?_
        ids := ?_
        nodup := ?_
        others := ?_
        history := hclones.history.trans htouches.history }
    · rw [length_cons, hclones.length]
      rfl
    · intro replacement hmem
      rw [map_cons, zip_cons_cons] at hmem
      rcases mem_cons.mp hmem with rfl | hmem
      · refine ⟨?_, ?_⟩
        · rw [hcopyId]
          exact hcloned.copied
        · rw [hcopyId, hclones.others _ hnew]
          exact hcloned.stored
      · exact hclones.cloned replacement hmem
    · intro copy hmem
      rcases mem_cons.mp hmem with rfl | hmem
      · exact ⟨0, by omega, hcopyId⟩
      · obtain ⟨n, hn, hid⟩ := hclones.ids copy hmem
        rw [hshift] at hid
        exact ⟨n + 1, by omega, hid⟩
    · rw [map_cons, map_cons, nodup_cons, hcopyId]
      exact ⟨hnew, hclones.nodup⟩
    · intro taskId hnot
      rw [map_cons, map_cons, mem_cons, not_or, hcopyId] at hnot
      rw [hclones.others taskId hnot.2]
      exact htouches.others taskId hnot.1

end clones

/-! ## The cancelled originals -/

variable {replacement : Task × Task}

section cancels

variable {cfg : Config}

/-- The id of the task that a task replaces. -/
def replacementFor (task : Task) : Value := valueOf task.metadata "replacement_for_task_id"

/-- What the second loop of `_replace_bundle_for_correction` leaves. -/
structure Cancelled (s s' : Turn) (replacements : List (Task × Task)) : Prop where
  others : ∀ taskId, taskId ∉ replacements.map (fun replacement => replacement.1.taskId) →
    s'.getTask taskId = s.getTask taskId
  kept : ∀ taskId, (s'.getTask taskId).map replacementFor = (s.getTask taskId).map replacementFor
  cancelled : ∀ replacement ∈ replacements,
    ∃ task, s'.getTask replacement.1.taskId = some task ∧ task.status = .cancelled
  history : s'.history = s.history

/-- The original with the mark of its replacement, cancelled. -/
def replacedTask (replacement : Task × Task) (task : Task) : Task :=
  { bumped (withMarks [("replaced_by_task_id", .str replacement.2.taskId)] task) with
    status := .cancelled }

theorem replacementFor_replacedTask (replacement : Task × Task) (task : Task) :
    replacementFor (replacedTask replacement task) = replacementFor task := by
  have hlookup : Dict.lookup (replacedTask replacement task).metadata "replacement_for_task_id" =
      Dict.lookup task.metadata "replacement_for_task_id" :=
    lookup_setAll (by simp) task.metadata
  rw [replacementFor, valueOf, hlookup]
  rfl

theorem makes_cancelReplaced
    (hne : replacement.1.taskId ≠ "") (htask : s.getTask replacement.1.taskId = some task) :
    Makes cfg 1 (cancelReplaced cfg replacement) s fun _ s' =>
      s'.history = s.history ∧ ∀ taskId, s'.getTask taskId =
        if replacement.1.taskId = taskId then some (replacedTask replacement task)
        else s.getTask taskId := by
  have hid : task.taskId = replacement.1.taskId := Table.key_of_get? htask
  have hlive : liveTask s replacement.1 = task := by
    rw [liveTask, htask]
    rfl
  let marked := withMarks [("replaced_by_task_id", .str replacement.2.taskId)] task
  have hmarked : marked.taskId = replacement.1.taskId := hid
  have hstored : (s.store marked).getTask replacement.1.taskId = some (bumped marked) := by
    rw [Turn.getTask_store, if_pos hmarked]
  have hcancel : Makes cfg 1 (invokeTool cfg (.controlTask replacement.1.taskId .cancelTask))
      (s.store marked) fun _ s' => s'.history = s.history ∧ ∀ taskId, s'.getTask taskId =
        if replacement.1.taskId = taskId then some (replacedTask replacement task)
        else s.getTask taskId := by
    refine makes_cancelTask hne hstored fun _ s' hhistory hget => ⟨hhistory, fun taskId => ?_⟩
    rw [hget taskId]
    by_cases h : replacement.1.taskId = taskId
    · rw [if_pos h, if_pos h]
      rfl
    · rw [if_neg h, if_neg h, Turn.getTask_store, if_neg]
      rw [hmarked]
      exact h
  unfold cancelReplaced
  refine makes_bind_of_exec (exec_get s) rfl ?_
  rw [hlive]
  refine makes_bind_of_exec (exec_storeTask marked s) rfl ?_
  rw [← Nat.add_zero 1]
  exact makes_bind hcancel fun _ _ hpost => makes_pure hpost

theorem makes_cancels (replacements : List (Task × Task)) {s : Turn}
    (h : ∀ replacement ∈ replacements,
      replacement.1.taskId ≠ "" ∧ (s.getTask replacement.1.taskId).isSome = true) :
    Makes cfg replacements.length (replacements.mapM (cancelReplaced cfg)) s fun _ s' =>
      Cancelled s s' replacements := by
  induction replacements generalizing s with
  | nil => exact makes_pure ⟨fun _ _ => rfl, fun _ => rfl, fun _ hmem => (by cases hmem), rfl⟩
  | cons replacement replacements ih =>
    obtain ⟨hne, hsome⟩ := h replacement mem_cons_self
    obtain ⟨task, htask⟩ := isSome_iff_exists.mp hsome
    rw [mapM_cons, length_cons, Nat.add_comm]
    refine makes_bind (makes_cancelReplaced hne htask) fun _ s₁ hfirst => ?_
    obtain ⟨hhistory, hget⟩ := hfirst
    have hrest : ∀ other ∈ replacements,
        other.1.taskId ≠ "" ∧ (s₁.getTask other.1.taskId).isSome = true := by
      intro other hmem
      obtain ⟨hne', hsome'⟩ := h other (mem_cons_of_mem _ hmem)
      refine ⟨hne', ?_⟩
      rw [hget]
      by_cases heq : replacement.1.taskId = other.1.taskId
      · rw [if_pos heq]
        rfl
      · rw [if_neg heq]
        exact hsome'
    rw [← Nat.add_zero replacements.length]
    refine makes_bind (ih hrest) fun _ s₂ hcancelled => makes_pure ?_
    refine ⟨fun taskId hnot => ?_, fun taskId => ?_, fun other hmem => ?_,
      hcancelled.history.trans hhistory⟩
    · rw [map_cons, mem_cons, not_or] at hnot
      rw [hcancelled.others taskId hnot.2, hget, if_neg (Ne.symm hnot.1)]
    · rw [hcancelled.kept taskId, hget]
      by_cases heq : replacement.1.taskId = taskId
      · rw [if_pos heq, ← heq, htask, map_some, map_some, replacementFor_replacedTask]
      · rw [if_neg heq]
    · rcases mem_cons.mp hmem with rfl | hmem
      · by_cases hlater : other.1.taskId ∈
            replacements.map fun replacement => replacement.1.taskId
        · obtain ⟨later, hlaterMem, heq⟩ := mem_map.mp hlater
          obtain ⟨task', htask', hstatus⟩ := hcancelled.cancelled later hlaterMem
          exact ⟨task', heq ▸ htask', hstatus⟩
        · refine ⟨replacedTask other task, ?_, rfl⟩
          rw [hcancelled.others _ hlater, hget, if_pos rfl]
      · exact hcancelled.cancelled other hmem

/-- A cancel that returns has found its task under an id. -/
theorem cancelReplaced_ok {s' : Turn} {result : ToolInvocation}
    (h : exec (cancelReplaced cfg replacement) s = (.ok result, s')) :
    replacement.1.taskId ≠ "" := by
  rintro hempty
  unfold cancelReplaced at h
  obtain ⟨s₁, s₂, -, h⟩ := exec_bind_eq_ok_iff.mp h
  obtain ⟨stored, s₃, -, h⟩ := exec_bind_eq_ok_iff.mp h
  obtain ⟨cancelled, s₄, hcancelled, -⟩ := exec_bind_eq_ok_iff.mp h
  have hmissing : (if replacement.1.taskId = "" then none
      else s₃.getTask replacement.1.taskId) = none := if_pos hempty
  obtain ⟨e, he⟩ := @exec_cancelTask_missing s₃ replacement.1.taskId cfg hmissing
  obtain ⟨e', he'⟩ := @exec_invokeTool_refused s₃
    (.controlTask replacement.1.taskId .cancelTask) cfg e he
  rw [he'] at hcancelled
  cases hcancelled

end cancels

/-! ## What is looked at -/

section looked

variable {cfg : Config} {targetSlots : List BundleSlot} {intent : CorrectionIntent}
  {task copy : Task} {taskId : String}

/-- The texts that are searched in the corrected task. -/
def correctedTexts (cfg : Config) (targetSlots : List BundleSlot) (intent : CorrectionIntent)
    (task : Task) : List String :=
  let correct := correctionOf cfg targetSlots intent task
  [correct task.title, correct task.goal, (task.latestInstruction.map correct).getD ""] ++
    ((items task "notes").filterMap nonblank?).map correct ++
    ((items task "constraints").filterMap (constraintOf cfg)).map fun constraint =>
      correct constraint.1

section

variable (h : IsCopy cfg (correctionOf cfg targetSlots intent task) (correctionMarks task intent) task taskId (items task "notes") (items task "constraints") copy)
include h

theorem replacementFor_copy : replacementFor copy = .str task.taskId := by
  obtain ⟨unmarked, -, rfl⟩ := h.made
  let later := (intent.oldValue.map fun oldValue => ("correction_old_value", Value.str oldValue)).toList ++
    (intent.targetGroup.map fun group => ("correction_target_group", Value.str group.value)).toList
  have hmarks : correctionMarks task intent =
      ("replacement_for_task_id", .str task.taskId) ::
        ("correction_new_value", .str intent.newValue) :: later := by
    simp only [correctionMarks, later, cons_append, nil_append]
  have hlater : "replacement_for_task_id" ∉
      (("correction_new_value", Value.str intent.newValue) :: later).map Prod.fst := by
    cases hold : intent.oldValue <;> cases hgroup : intent.targetGroup <;> simp [later, hold, hgroup]
  have hlookup : Dict.lookup (setAll unmarked.metadata (correctionMarks task intent))
      "replacement_for_task_id" = some (.str task.taskId) := by
    rw [hmarks]
    have hrest := lookup_setAll hlater
      (Dict.set unmarked.metadata "replacement_for_task_id" (.str task.taskId))
    rw [Dict.lookup_set_self] at hrest
    exact hrest
  have hcopy : (bumped (withMarks (correctionMarks task intent) unmarked)).metadata =
      setAll unmarked.metadata (correctionMarks task intent) := rfl
  rw [replacementFor, valueOf, hcopy, hlookup]
  rfl

theorem haystacks_copy : haystacks copy = correctedTexts cfg targetSlots intent task := by
  obtain ⟨htitle, hgoal, hinstruction, -⟩ := h.fields
  have hmarks := plainMarks_correction task intent
  have hnotes := h.listed_eq hmarks (show "notes" ∈ listKeys by decide)
  have hconstraints := h.listed_eq hmarks (show "constraints" ∈ listKeys by decide)
  rw [copiedLists_notes] at hnotes
  rw [copiedLists_constraints] at hconstraints
  have htexts : (copiedNotes (correctionOf cfg targetSlots intent task)
      (items task "notes")).filterMap Value.str? =
      ((items task "notes").filterMap nonblank?).map (correctionOf cfg targetSlots intent task) := by
    have hsome : (Value.str? ∘ fun note => Value.str (correctionOf cfg targetSlots intent task note)) =
        some ∘ correctionOf cfg targetSlots intent task := rfl
    rw [copiedNotes, filterMap_map, hsome, filterMap_eq_map]
  have hfields : (copiedConstraints cfg (correctionOf cfg targetSlots intent task)
      (items task "constraints")).filterMap
        (fun item => item.dict?.bind fun fields => Fields.str? fields "constraint") =
      ((items task "constraints").filterMap (constraintOf cfg)).map fun constraint =>
        correctionOf cfg targetSlots intent task constraint.1 := by
    have hsome : ((fun item => item.dict?.bind fun fields => Fields.str? fields "constraint") ∘
        fun constraint : String × Option String =>
          constraintPayload (correctionOf cfg targetSlots intent task constraint.1) constraint.2) =
        some ∘ fun constraint => correctionOf cfg targetSlots intent task constraint.1 := rfl
    rw [copiedConstraints, filterMap_map, hsome, filterMap_eq_map]
  rw [haystacks, htitle, hgoal, hinstruction, hnotes, hconstraints, getD_some,
    getD_some, htexts, hfields]
  rfl

end

end looked

/-! ## The replaced bundle -/

variable {taskId : String}

section replaced

variable {cfg : Config} {targetSlots : List BundleSlot} {intent : CorrectionIntent}
  {s mid s' : Turn} {bundle copies : List Task}

/-- One task is a replacement for the other. -/
def Replaces (s : Turn) (replacementId taskId : String) : Prop :=
  (s.getTask replacementId).map replacementFor = some (.str taskId)

/-- What `_replace_bundle_for_correction` leaves when it returns. -/
structure BundleReplaced (cfg : Config) (targetSlots : List BundleSlot) (intent : CorrectionIntent)
    (s s' : Turn) (bundle copies : List Task) : Prop where
  length : bundle.length = copies.length
  nodup : (copies.map Task.taskId).Nodup
  fresh : ∀ copy ∈ copies, s.getTask copy.taskId = none
  stored : ∀ replacement ∈ bundle.zip copies,
    s'.getTask replacement.2.taskId = some replacement.2 ∧
      replacementFor replacement.2 = .str replacement.1.taskId ∧
      haystacks replacement.2 = correctedTexts cfg targetSlots intent replacement.1
  cancelled : ∀ task ∈ bundle,
    ∃ stored, s'.getTask task.taskId = some stored ∧ stored.status = .cancelled
  kept : ∀ taskId, taskId ∉ copies.map Task.taskId →
    (s'.getTask taskId).map replacementFor = (s.getTask taskId).map replacementFor

/-- The pairs hold all tasks of the bundle. -/
theorem exists_copy (hlength : bundle.length = copies.length) (h : task ∈ bundle) :
    ∃ copy, (task, copy) ∈ bundle.zip copies := by
  have hall : task ∈ (bundle.zip copies).map Prod.fst := by
    rw [map_fst_zip (le_of_eq hlength)]
    exact h
  obtain ⟨⟨found, copy⟩, hmem, rfl⟩ := mem_map.mp hall
  exact ⟨copy, hmem⟩

section

variable (h : Cloned cfg targetSlots intent s mid bundle copies)
include h

theorem Cloned.absent (hfresh : FreshIds cfg s bundle.length) {copy : Task} (hmem : copy ∈ copies) :
    s.getTask copy.taskId = none := by
  obtain ⟨n, hn, hid⟩ := h.ids copy hmem
  rw [hid]
  exact hfresh.unused n hn

theorem Cloned.notCopied
    (hfresh : FreshIds cfg s bundle.length) (hsome : (s.getTask taskId).isSome = true) :
    taskId ∉ copies.map Task.taskId := by
  intro hmem
  obtain ⟨copy, hcopy, rfl⟩ := mem_map.mp hmem
  rw [h.absent hfresh hcopy] at hsome
  cases hsome

theorem Cloned.replaced
    (hfresh : FreshIds cfg s bundle.length) (hstored : ∀ task ∈ bundle, (s.getTask task.taskId).isSome = true)
    (hcancelled : Cancelled mid s' (bundle.zip copies)) :
    BundleReplaced cfg targetSlots intent s s' bundle copies := by
  refine
    { length := h.length
      nodup := h.nodup
      fresh := fun copy hmem => h.absent hfresh hmem
      stored := fun replacement hmem => ?_
      cancelled := fun task hmem => ?_
      kept := fun taskId hnot => ?_ }
  · obtain ⟨-, hcopy⟩ := of_mem_zip hmem
    have hcloned := h.cloned replacement hmem
    have hnot : replacement.2.taskId ∉
        (bundle.zip copies).map fun replacement => replacement.1.taskId := by
      intro hold
      obtain ⟨other, hother, heq⟩ := mem_map.mp hold
      have hsome := hstored other.1 (of_mem_zip hother).1
      rw [heq, h.absent hfresh hcopy] at hsome
      cases hsome
    refine ⟨?_, replacementFor_copy hcloned.copied, haystacks_copy hcloned.copied⟩
    rw [hcancelled.others _ hnot]
    exact hcloned.stored
  · obtain ⟨copy, hpair⟩ := exists_copy h.length hmem
    exact hcancelled.cancelled (task, copy) hpair
  · rw [hcancelled.kept taskId, h.others taskId hnot]

end

/-- Replacing a bundle of stored tasks that have names and can be copied. -/
theorem makes_replace (hfresh : FreshIds cfg s bundle.length)
    (hstored : ∀ task ∈ bundle, (s.getTask task.taskId).isSome = true)
    (hcopyable : ∀ task ∈ bundle, Copyable cfg targetSlots intent task)
    (hnamed : ∀ task ∈ bundle, task.taskId ≠ "") :
    Makes cfg (cloneCalls cfg targetSlots intent bundle s.drawn + bundle.length)
      (replaceBundleForCorrection cfg targetSlots intent bundle) s fun replaced s' =>
        BundleReplaced cfg targetSlots intent s s' bundle replaced.1 := by
  refine makes_bind (makes_clones hcopyable hfresh) fun clones mid hcloned => ?_
  have hpairs : ∀ replacement ∈ bundle.zip (clones.map Prod.fst),
      replacement.1.taskId ≠ "" ∧ (mid.getTask replacement.1.taskId).isSome = true := by
    intro replacement hmem
    have htask := (of_mem_zip hmem).1
    have hsome := hstored replacement.1 htask
    refine ⟨hnamed replacement.1 htask, ?_⟩
    rw [hcloned.others _ (hcloned.notCopied hfresh hsome)]
    exact hsome
  have hcancels := @makes_cancels cfg (bundle.zip (clones.map Prod.fst)) mid hpairs
  have hlength : (bundle.zip (clones.map Prod.fst)).length = bundle.length := by
    rw [length_zip, ← hcloned.length, min_self]
  rw [hlength] at hcancels
  rw [← Nat.add_zero bundle.length]
  refine makes_bind hcancels fun cancels s' hcancelled => makes_pure ?_
  exact hcloned.replaced hfresh hstored hcancelled

/-- A replacement task is one of the copies, or has been there before. -/
theorem BundleReplaced.replaces_iff (h : BundleReplaced cfg targetSlots intent s s' bundle copies)
    {replacementId : String} :
    Replaces s' replacementId taskId ↔ Replaces s replacementId taskId ∨
      ∃ replacement ∈ bundle.zip copies,
        replacement.2.taskId = replacementId ∧ replacement.1.taskId = taskId := by
  have hcopied : ∀ replacement ∈ bundle.zip copies,
      Replaces s' replacement.2.taskId replacement.1.taskId := by
    intro replacement hmem
    obtain ⟨hstored, hfor, -⟩ := h.stored replacement hmem
    rw [Replaces, hstored, map_some, hfor]
  constructor
  · intro hreplaces
    by_cases hcopy : replacementId ∈ copies.map Task.taskId
    · obtain ⟨copy, hmem, rfl⟩ := mem_map.mp hcopy
      have hall : copy ∈ (bundle.zip copies).map Prod.snd := by
        rw [map_snd_zip (le_of_eq h.length.symm)]
        exact hmem
      obtain ⟨replacement, hpair, rfl⟩ := mem_map.mp hall
      have hown := hcopied replacement hpair
      rw [Replaces] at hown hreplaces
      rw [hown] at hreplaces
      cases hreplaces
      exact .inr ⟨replacement, hpair, rfl, rfl⟩
    · left
      rw [Replaces, ← h.kept replacementId hcopy]
      exact hreplaces
  · rintro (hreplaces | ⟨replacement, hmem, rfl, rfl⟩)
    · have hnot : replacementId ∉ copies.map Task.taskId := by
        intro hcopy
        obtain ⟨copy, hmem, rfl⟩ := mem_map.mp hcopy
        rw [Replaces, h.fresh copy hmem] at hreplaces
        cases hreplaces
      rw [Replaces, h.kept replacementId hnot]
      exact hreplaces
    · exact hcopied replacement hmem

/-- Each task has one replacement exactly if it is in the bundle once and had none before. -/
theorem BundleReplaced.once_iff (h : BundleReplaced cfg targetSlots intent s s' bundle copies) :
    (∀ task ∈ bundle, ∃! replacementId, Replaces s' replacementId task.taskId) ↔
      (bundle.map Task.taskId).Nodup ∧
        ∀ task ∈ bundle, ∀ replacementId, ¬ Replaces s replacementId task.taskId := by
  have hold : (bundle.zip copies).map (fun replacement => replacement.1.taskId) =
      bundle.map Task.taskId := by
    rw [← List.map_fst_zip (le_of_eq h.length), List.map_map, List.map_fst_zip (le_of_eq h.length)]
    rfl
  have hnew : (bundle.zip copies).map (fun replacement => replacement.2.taskId) =
      copies.map Task.taskId := by
    rw [← List.map_snd_zip (le_of_eq h.length.symm), List.map_map,
      List.map_snd_zip (le_of_eq h.length.symm)]
    rfl
  have hpairs : ((bundle.zip copies).map fun replacement => replacement.2.taskId).Nodup := by
    rw [hnew]
    exact h.nodup
  rw [← hold]
  constructor
  · intro honce
    constructor
    · refine List.Nodup.map_on (fun a ha b hb heq => ?_) hpairs.of_map
      obtain ⟨only, -, hunique⟩ := honce a.1 (List.of_mem_zip ha).1
      have hfirst := hunique a.2.taskId (h.replaces_iff.mpr (.inr ⟨a, ha, rfl, rfl⟩))
      have hsecond := hunique b.2.taskId (h.replaces_iff.mpr (.inr ⟨b, hb, rfl, heq.symm⟩))
      exact List.inj_on_of_nodup_map hpairs ha hb (hfirst.trans hsecond.symm)
    · intro task hmem replacementId hearlier
      obtain ⟨copy, hpair⟩ := exists_copy h.length hmem
      obtain ⟨only, -, hunique⟩ := honce task hmem
      have hfirst := hunique replacementId (h.replaces_iff.mpr (.inl hearlier))
      have hsecond := hunique copy.taskId
        (h.replaces_iff.mpr (.inr ⟨(task, copy), hpair, rfl, rfl⟩))
      rw [Replaces, hfirst, ← hsecond, h.fresh copy (List.of_mem_zip hpair).2] at hearlier
      cases hearlier
  · rintro ⟨hdistinct, hunreplaced⟩ task hmem
    obtain ⟨copy, hpair⟩ := exists_copy h.length hmem
    refine ⟨copy.taskId, h.replaces_iff.mpr (.inr ⟨(task, copy), hpair, rfl, rfl⟩), ?_⟩
    intro replacementId hreplaces
    rcases h.replaces_iff.mp hreplaces with hearlier | ⟨other, hother, rfl, heq⟩
    · exact absurd hearlier (hunreplaced task hmem replacementId)
    · rw [List.inj_on_of_nodup_map hdistinct hother hpair heq]

theorem taskId_liveTask (s : Turn) (task : Task) : (liveTask s task).taskId = task.taskId := by
  unfold liveTask
  cases h : s.getTask task.taskId with
  | none => rfl
  | some stored => exact Table.key_of_get? h

/-- What has been replaced is valid exactly if the texts have been corrected. -/
theorem BundleReplaced.valid_iff (h : BundleReplaced cfg targetSlots intent s s' bundle copies) :
    bundleCorrectionIsValid cfg (bundle.map (liveTask s')) (copies.map (liveTask s')) targetSlots
        intent = true ↔
      ∀ task ∈ bundle, textsCorrected cfg (slotsOf targetSlots task) intent
        (correctedTexts cfg targetSlots intent task) = true := by
  have hlength : (bundle.map (liveTask s')).length = (copies.map (liveTask s')).length := by
    rw [List.length_map, List.length_map, h.length]
  have hcancelled : ((bundle.map (liveTask s')).all fun task => task.status = .cancelled) = true := by
    rw [List.all_eq_true]
    intro live hlive
    obtain ⟨task, hmem, rfl⟩ := List.mem_map.mp hlive
    obtain ⟨stored, hstored, hstatus⟩ := h.cancelled task hmem
    rw [liveTask, hstored]
    exact decide_eq_true hstatus
  have hlooked : ∀ replacement ∈ bundle.zip copies,
      ((slotsOf targetSlots (liveTask s' replacement.1)).all fun slot =>
        taskHasCuedValue cfg (liveTask s' replacement.2) slot.cue intent.newValue &&
          !taskHasCuedValue cfg (liveTask s' replacement.2) slot.cue slot.value) =
      textsCorrected cfg (slotsOf targetSlots replacement.1) intent
        (correctedTexts cfg targetSlots intent replacement.1) := by
    intro replacement hmem
    obtain ⟨hstored, -, htexts⟩ := h.stored replacement hmem
    have hcopy : liveTask s' replacement.2 = replacement.2 := by
      rw [liveTask, hstored]
      rfl
    have hslots : slotsOf targetSlots (liveTask s' replacement.1) =
        slotsOf targetSlots replacement.1 := by
      rw [slotsOf, slotsOf, taskId_liveTask]
    rw [hslots, hcopy, textsCorrected, ← htexts]
    rfl
  rw [bundleCorrectionIsValid, hcancelled, decide_eq_true hlength, Bool.true_and, Bool.true_and,
    List.zip_map, List.all_map, List.all_eq_true]
  constructor
  · intro hvalid task hmem
    obtain ⟨copy, hpair⟩ := exists_copy h.length hmem
    rw [← hlooked (task, copy) hpair]
    exact hvalid (task, copy) hpair
  · intro hcorrected replacement hmem
    have hown := hcorrected replacement.1 (List.of_mem_zip hmem).1
    rw [← hlooked replacement hmem] at hown
    exact hown

end replaced

/-! ## All or nothing -/

/-- The task has been cancelled, and exactly one task replaces it. -/
structure ReplacedIn (s : Turn) (task : Task) : Prop where
  cancelled : ∃ stored, s.getTask task.taskId = some stored ∧ stored.status = .cancelled
  once : ∃! replacementId, Replaces s replacementId task.taskId

/-- The turn says that it has replaced the focused bundle, and has, or it has left the tasks as
they were. -/
def AllOrNothing (before : Turn)
    (outcome : Except Raised (Option CommunicationTurnResult) × Turn) : Prop :=
  (∃ result, outcome.1 = .ok (some result) ∧
      result.conversationalAct = .acknowledgeAndModify ∧
      ∀ task ∈ resolveFocusedBundle before, ReplacedIn outcome.2 task) ∨
    outcome.2.board.tasks = before.board.tasks

/-- The whole bundle can be copied and cancelled, and will be found corrected. -/
structure Completes (cfg : Config) (s : Turn) (targetSlots : List BundleSlot)
    (intent : CorrectionIntent) (bundle : List Task) : Prop where
  copyable : ∀ task ∈ bundle, Copyable cfg targetSlots intent task
  named : ∀ task ∈ bundle, task.taskId ≠ ""
  distinct : (bundle.map Task.taskId).Nodup
  unreplaced : ∀ task ∈ bundle, ∀ replacementId, ¬ Replaces s replacementId task.taskId
  quiet : Quiet cfg s.told (cloneCalls cfg targetSlots intent bundle s.drawn + bundle.length)
  corrected : ∀ task ∈ bundle, textsCorrected cfg (slotsOf targetSlots task) intent
    (correctedTexts cfg targetSlots intent task) = true

/-- The executor of the first copy is refused. -/
def FirstRefused (cfg : Config) (targetSlots : List BundleSlot) (intent : CorrectionIntent)
    (bundle : List Task) : Prop :=
  ∃ task, bundle.head? = some task ∧
    refuseExecutor cfg (createArgs (correctionOf cfg targetSlots intent task) task) ≠ none

/-- If there are slots to correct, the first tool refuses, or all goes well. -/
def Settled (cfg : Config) (s : Turn) (userText : String) : Prop :=
  ∀ intent targetSlots, parseGenericCorrection cfg.casing userText = .intent intent →
    selectCorrectionSlots cfg.casing (extractBundleSlots cfg.casing (resolveFocusedBundle s))
      intent = some targetSlots →
    FirstRefused cfg targetSlots intent (resolveFocusedBundle s) ∨
      Completes cfg s targetSlots intent (resolveFocusedBundle s)

section turn

variable {cfg : Config} {userText : String} {targetSlots : List BundleSlot}
  {intent : CorrectionIntent} {s s' : Turn} {bundle copies : List Task}

/-- The tasks in focus are stored. -/
theorem getTask_of_mem_bundle (h : task ∈ resolveFocusedBundle s) :
    s.getTask task.taskId = some task := by
  have hfound : ∀ (taskIds : List String) (tasks : List Task),
      (taskIds.mapM fun taskId =>
        (s.getTask taskId).filter fun task => activeTaskStatuses.contains task.status) =
        some tasks →
      ∀ task ∈ tasks, s.getTask task.taskId = some task := by
    intro taskIds
    induction taskIds with
    | nil =>
      intro tasks hall task hmem
      cases hall
      cases hmem
    | cons taskId taskIds ih =>
      intro tasks hall other hmem
      rw [mapM_cons] at hall
      obtain ⟨first, hfirst, hall⟩ := bind_eq_some_iff.mp hall
      obtain ⟨rest, hrest, hall⟩ := bind_eq_some_iff.mp hall
      cases hall
      rcases mem_cons.mp hmem with rfl | hmem
      · obtain ⟨hget, -⟩ := filter_eq_some_iff.mp hfirst
        have hid : other.taskId = taskId := Table.key_of_get? hget
        rw [hid]
        exact hget
      · exact ih rest hrest other hmem
  unfold resolveFocusedBundle at h
  cases hall : (latestFocusedTaskIds s.history).mapM fun taskId =>
      (s.getTask taskId).filter fun task => activeTaskStatuses.contains task.status with
  | none =>
    rw [hall] at h
    cases h
  | some tasks =>
    rw [hall] at h
    exact hfound _ tasks hall task h

/-- The answer says whether the replaced bundle is valid. -/
theorem exec_answerReplaced (replaced : List Task × List ToolInvocation) :
    ∃ result s'', exec (answerReplaced cfg targetSlots intent bundle replaced) s' =
        (.ok result, s'') ∧ s''.board = s'.board ∧
      (result.conversationalAct = .acknowledgeAndModify ↔
        bundleCorrectionIsValid cfg (bundle.map (liveTask s')) (replaced.1.map (liveTask s'))
          targetSlots intent = true) := by
  rw [answerReplaced, exec_bind_ok (exec_get s')]
  by_cases hvalid : bundleCorrectionIsValid cfg (bundle.map (liveTask s'))
      (replaced.1.map (liveTask s')) targetSlots intent = true
  · simp only [hvalid, if_true]
    exact ⟨_, _, rfl, rfl, by simp⟩
  · simp only [hvalid]
    exact ⟨_, _, rfl, rfl, by simp⟩

/-- What is done when there are slots to correct. -/
def correctSlots (cfg : Config) (targetSlots : List BundleSlot) (intent : CorrectionIntent)
    (bundle : List Task) : Action CommunicationTurnResult :=
  replaceBundleForCorrection cfg targetSlots intent bundle >>=
    answerReplaced cfg targetSlots intent bundle

theorem exec_handleCorrection_selected
    (hparsed : parseGenericCorrection cfg.casing userText = .intent intent)
    (hselected : selectCorrectionSlots cfg.casing
      (extractBundleSlots cfg.casing (resolveFocusedBundle s)) intent = some targetSlots) :
    exec (handleCorrection cfg userText) s =
      exec (correctSlots cfg targetSlots intent (resolveFocusedBundle s) >>= fun result =>
        pure (some result)) s := by
  have hbundle : resolveFocusedBundle s ≠ [] := by
    intro hempty
    rw [hempty] at hselected
    cases hselected
  have hintent : exec (handleCorrectionIntent cfg intent) s =
      exec (correctSlots cfg targetSlots intent (resolveFocusedBundle s)) s := by
    rw [handleCorrectionIntent, exec_bind_ok (exec_get s)]
    simp only [hbundle, if_false, hselected]
    rfl
  rw [handleCorrection, hparsed]
  simp only [exec_bind, hintent]

/-- Without slots to correct, nothing is called. -/
theorem tasks_handleCorrection_unselected
    (h : ∀ intent targetSlots, parseGenericCorrection cfg.casing userText = .intent intent →
      selectCorrectionSlots cfg.casing (extractBundleSlots cfg.casing (resolveFocusedBundle s))
        intent ≠ some targetSlots) :
    (exec (handleCorrection cfg userText) s).2.board.tasks = s.board.tasks := by
  unfold handleCorrection
  cases hparsed : parseGenericCorrection cfg.casing userText with
  | none => rfl
  | noSuchGroup => rfl
  | intent intent =>
    have hnone : selectCorrectionSlots cfg.casing
        (extractBundleSlots cfg.casing (resolveFocusedBundle s)) intent = none :=
      eq_none_iff_forall_ne_some.mpr fun targetSlots => h intent targetSlots hparsed
    have hintent : (exec (handleCorrectionIntent cfg intent) s).2.board = s.board := by
      rw [handleCorrectionIntent, exec_bind_ok (exec_get s)]
      by_cases hbundle : resolveFocusedBundle s = []
      · simp only [hbundle, if_true]
        rfl
      · simp only [hbundle, if_false, hnone]
        rfl
    rw [← hintent, exec_bind]
    rcases exec (handleCorrectionIntent cfg intent) s with ⟨result, s'⟩
    cases result <;> rfl

/-- A refused first copy changes no task. -/
theorem tasks_correctSlots_refused (h : FirstRefused cfg targetSlots intent bundle) :
    ∃ e s', exec (correctSlots cfg targetSlots intent bundle) s = (.error e, s') ∧
      s'.board = s.board := by
  obtain ⟨task, hhead, hrefused⟩ := h
  obtain ⟨refusal, hrefusal⟩ := ne_none_iff_exists'.mp hrefused
  obtain ⟨rest, rfl⟩ : ∃ rest, bundle = task :: rest := by
    cases bundle with
    | nil => cases hhead
    | cons first rest =>
      cases hhead
      exact ⟨rest, rfl⟩
  obtain ⟨e, hcreate⟩ := @exec_invokeTool_refused s _ cfg _ (exec_createTask_refused hrefusal)
  have hclone : exec (cloneTask cfg targetSlots intent task) s = (.error e, s.tell) := by
    show exec (copyTask cfg (correctionOf cfg targetSlots intent task) _ task) s = _
    rw [copyTask_eq]
    exact exec_bind_error hcreate
  have hclones : exec ((task :: rest).mapM (cloneTask cfg targetSlots intent)) s =
      (.error e, s.tell) := by
    rw [mapM_cons]
    exact exec_bind_error hclone
  exact ⟨e, s.tell, exec_bind_error (exec_bind_error hclones), rfl⟩

/-- Once a first copy has been created, its task stays, whatever comes after. -/
theorem created_stays {task : Task} {rest : List Task}
    (haccepted : refuseExecutor cfg (createArgs (correctionOf cfg targetSlots intent task) task) =
      none) : ((exec (correctSlots cfg targetSlots intent (task :: rest)) s).2.getTask
      (newTaskId cfg s.drawn)).isSome = true := by
  have hcreated : ((exec (invokeTool cfg (.createTask
      (createArgs (correctionOf cfg targetSlots intent task) task))) s).2.getTask
      (newTaskId cfg s.drawn)).isSome = true := by
    rw [exec_invokeTool, exec_createTask rfl haccepted]
    show (Turn.getTask (Turn.tell _) _).isSome = true
    rw [Turn.getTask_tell, Turn.getTask_store]
    exact isSome_of_eq_some (if_pos rfl)
  have hclone := keeps_rest TasksStay.refl
    (fun created => @stays_finishCopy cfg (correctionOf cfg targetSlots intent task)
      (correctionMarks task intent) task created) s _ hcreated
  rw [← copyTask_eq] at hclone
  have hclones : ∀ other, Keeps TasksStay (cloneTask cfg targetSlots intent other) :=
    fun other => stays_copyTask _ _ other
  have hloop : ((exec ((task :: rest).mapM (cloneTask cfg targetSlots intent)) s).2.getTask
      (newTaskId cfg s.drawn)).isSome = true := by
    rw [mapM_cons]
    exact keeps_rest TasksStay.refl
      (fun _ => stays_bind (stays_mapM hclones rest) fun _ => stays_pure _) s _ hclone
  have hreplace : ((exec (replaceBundleForCorrection cfg targetSlots intent (task :: rest)) s).2.getTask
      (newTaskId cfg s.drawn)).isSome = true :=
    keeps_rest TasksStay.refl
      (fun _ => stays_bind (stays_mapM stays_cancelReplaced _) fun _ => stays_pure _) s _ hloop
  have hanswer : ∀ replaced, Keeps TasksStay
      (answerReplaced cfg targetSlots intent (task :: rest) replaced) := by
    intro replaced s₁ taskId hsome
    obtain ⟨result, s₂, hexec, hboard, -⟩ := @exec_answerReplaced cfg targetSlots intent s₁
      (task :: rest) replaced
    rw [hexec, Turn.getTask, hboard]
    exact hsome
  exact keeps_rest TasksStay.refl hanswer s _ hreplace

/-- What a turn that has replaced the bundle has found on its way. -/
theorem replaced_of_ok (hfresh : FreshIds cfg s bundle.length)
    (hstored : ∀ task ∈ bundle, (s.getTask task.taskId).isSome = true)
    {replaced : List Task × List ToolInvocation}
    (h : exec (replaceBundleForCorrection cfg targetSlots intent bundle) s = (.ok replaced, s')) :
    (∀ task ∈ bundle, Copyable cfg targetSlots intent task) ∧ (∀ task ∈ bundle, task.taskId ≠ "") ∧
      Quiet cfg s.told (cloneCalls cfg targetSlots intent bundle s.drawn + bundle.length) ∧
      BundleReplaced cfg targetSlots intent s s' bundle replaced.1 := by
  obtain ⟨clones, mid, hclones, hrest⟩ := exec_bind_eq_ok_iff.mp h
  obtain ⟨cancels, s₂, hcancels, -⟩ := exec_bind_eq_ok_iff.mp hrest
  have hcopyable : ∀ task ∈ bundle, Copyable cfg targetSlots intent task := by
    intro task hmem
    obtain ⟨s₁, result, s₂, hclone⟩ := exec_mapM_eq_ok hclones task hmem
    obtain ⟨haccepted, notes, constraints, hnotes, hconstraints⟩ := copyTask_ok hclone
    exact ⟨haccepted, isSome_of_eq_some hnotes, isSome_of_eq_some hconstraints⟩
  have hcloned := (makes_clones hcopyable hfresh).of_ok hclones
  have hnamed : ∀ task ∈ bundle, task.taskId ≠ "" := by
    intro task hmem
    obtain ⟨copy, hpair⟩ := exists_copy hcloned.length hmem
    obtain ⟨s₁, result, s₂, hcancel⟩ := exec_mapM_eq_ok hcancels (task, copy) hpair
    exact cancelReplaced_ok hcancel
  have hmakes := makes_replace hfresh hstored hcopyable hnamed
  exact ⟨hcopyable, hnamed, hmakes.quiet h, hmakes.of_ok h⟩

/-- A turn with slots to correct and an accepted first copy is all or nothing exactly if the whole
bundle can be replaced. -/
theorem allOrNothing_iff_completes (hfresh : FreshIds cfg s bundle.length)
    (hstored : ∀ task ∈ bundle, (s.getTask task.taskId).isSome = true)
    (haccepted : ¬ FirstRefused cfg targetSlots intent bundle) (hne : bundle ≠ []) :
    ((∃ result s', exec (correctSlots cfg targetSlots intent bundle) s = (.ok result, s') ∧
        result.conversationalAct = .acknowledgeAndModify ∧ ∀ task ∈ bundle, ReplacedIn s' task) ∨
      (exec (correctSlots cfg targetSlots intent bundle) s).2.board.tasks = s.board.tasks) ↔
    Completes cfg s targetSlots intent bundle := by
  constructor
  · rintro (⟨result, s', hexec, hact, hreplaced⟩ | hsame)
    · obtain ⟨replaced, s₁, hreplace, hanswer⟩ := exec_bind_eq_ok_iff.mp hexec
      obtain ⟨hcopyable, hnamed, hquiet, hbundle⟩ := replaced_of_ok hfresh hstored hreplace
      obtain ⟨answer, s₂, hanswered, hboard, hvalid⟩ :=
        @exec_answerReplaced cfg targetSlots intent s₁ bundle replaced
      rw [hanswer] at hanswered
      cases hanswered
      have hget : ∀ taskId, s'.getTask taskId = s₁.getTask taskId := fun taskId => by
        rw [Turn.getTask, hboard]
        rfl
      have honce : ∀ task ∈ bundle, ∃! replacementId, Replaces s₁ replacementId task.taskId := by
        intro task hmem
        have hown := (hreplaced task hmem).once
        simp only [Replaces, hget] at hown
        exact hown
      obtain ⟨hdistinct, hunreplaced⟩ := hbundle.once_iff.mp honce
      exact
        { copyable := hcopyable
          named := hnamed
          distinct := hdistinct
          unreplaced := hunreplaced
          quiet := hquiet
          corrected := hbundle.valid_iff.mp (hvalid.mp hact) }
    · obtain ⟨first, rest, rfl⟩ := exists_cons_of_ne_nil hne
      have hfirst : refuseExecutor cfg
          (createArgs (correctionOf cfg targetSlots intent first) first) = none := by
        by_contra hrefused
        exact haccepted ⟨first, rfl, hrefused⟩
      have hthere := @created_stays cfg targetSlots intent s first rest hfirst
      have hnew : s.getTask (newTaskId cfg s.drawn) = none := hfresh.unused 0 (Nat.succ_pos _)
      have hget : ∀ s' : Turn, s'.board.tasks = s.board.tasks →
          s'.getTask (newTaskId cfg s.drawn) = s.getTask (newTaskId cfg s.drawn) := by
        intro s' htasks
        show s'.board.tasks.get? _ = s.board.tasks.get? _
        rw [htasks]
      rw [hget _ hsame, hnew] at hthere
      cases hthere
  · intro h
    left
    obtain ⟨replaced, s₁, hreplace, hbundle⟩ :=
      (makes_replace hfresh hstored h.copyable h.named).returns h.quiet
    obtain ⟨result, s', hanswer, hboard, hvalid⟩ :=
      @exec_answerReplaced cfg targetSlots intent s₁ bundle replaced
    have hget : ∀ taskId, s'.getTask taskId = s₁.getTask taskId := fun taskId => by
      rw [Turn.getTask, hboard]
      rfl
    have honce := hbundle.once_iff.mpr ⟨h.distinct, h.unreplaced⟩
    refine ⟨result, s', ?_, hvalid.mpr (hbundle.valid_iff.mpr h.corrected), fun task hmem => ?_⟩
    · rw [correctSlots, exec_bind_ok hreplace, hanswer]
    · refine ⟨?_, ?_⟩
      · rw [hget]
        exact hbundle.cancelled task hmem
      · simp only [Replaces, hget]
        exact honce task hmem

/-- The outcome of a turn with slots to correct. -/
theorem allOrNothing_selected
    (hparsed : parseGenericCorrection cfg.casing userText = .intent intent)
    (hselected : selectCorrectionSlots cfg.casing
      (extractBundleSlots cfg.casing (resolveFocusedBundle s)) intent = some targetSlots) :
    AllOrNothing s (exec (handleCorrection cfg userText) s) ↔
      (∃ result s', exec (correctSlots cfg targetSlots intent (resolveFocusedBundle s)) s =
          (.ok result, s') ∧ result.conversationalAct = .acknowledgeAndModify ∧
          ∀ task ∈ resolveFocusedBundle s, ReplacedIn s' task) ∨
        (exec (correctSlots cfg targetSlots intent (resolveFocusedBundle s)) s).2.board.tasks =
          s.board.tasks := by
  have hexec := exec_handleCorrection_selected hparsed hselected
  cases hslots : exec (correctSlots cfg targetSlots intent (resolveFocusedBundle s)) s with
  | mk outcome s' =>
    cases outcome with
    | ok result =>
      rw [exec_bind_ok hslots, exec_pure] at hexec
      rw [AllOrNothing, hexec]
      constructor
      · rintro (⟨found, hfound, hact, hreplaced⟩ | hsame)
        · cases hfound
          exact .inl ⟨result, s', rfl, hact, hreplaced⟩
        · exact .inr hsame
      · rintro (⟨found, s'', hfound, hact, hreplaced⟩ | hsame)
        · cases hfound
          exact .inl ⟨result, rfl, hact, hreplaced⟩
        · exact .inr hsame
    | error e =>
      rw [exec_bind_error hslots] at hexec
      rw [AllOrNothing, hexec]
      constructor
      · rintro (⟨found, hfound, -⟩ | hsame)
        · cases hfound
        · exact .inr hsame
      · rintro (⟨found, s'', hfound, -⟩ | hsame)
        · cases hfound
        · exact .inr hsame

end turn

/-- A correction is all or nothing exactly if its first tool refuses, or every task of the bundle
can be copied and cancelled, for the first time, and its texts come out as they are looked for. -/
theorem correction_all_or_nothing_iff (cfg : Config) (userText : String) (s : Turn)
    (hfresh : FreshIds cfg s (resolveFocusedBundle s).length) :
    AllOrNothing s (exec (handleCorrection cfg userText) s) ↔ Settled cfg s userText := by
  by_cases hselected : ∃ intent targetSlots,
      parseGenericCorrection cfg.casing userText = .intent intent ∧
        selectCorrectionSlots cfg.casing (extractBundleSlots cfg.casing (resolveFocusedBundle s))
          intent = some targetSlots
  · obtain ⟨intent, targetSlots, hparsed, hslots⟩ := hselected
    have hsettled : Settled cfg s userText ↔
        FirstRefused cfg targetSlots intent (resolveFocusedBundle s) ∨
          Completes cfg s targetSlots intent (resolveFocusedBundle s) := by
      constructor
      · intro h
        exact h intent targetSlots hparsed hslots
      · intro h intent' targetSlots' hparsed' hslots'
        rw [hparsed] at hparsed'
        cases hparsed'
        rw [hslots] at hslots'
        cases hslots'
        exact h
    rw [allOrNothing_selected hparsed hslots, hsettled]
    by_cases hrefused : FirstRefused cfg targetSlots intent (resolveFocusedBundle s)
    · obtain ⟨e, s', hexec, hboard⟩ := @tasks_correctSlots_refused cfg targetSlots intent s _ hrefused
      have hsame : (exec (correctSlots cfg targetSlots intent (resolveFocusedBundle s))
          s).2.board.tasks = s.board.tasks := by
        rw [hexec]
        exact congrArg Blackboard.tasks hboard
      exact ⟨fun _ => .inl hrefused, fun _ => .inr hsame⟩
    · have hstored : ∀ task ∈ resolveFocusedBundle s, (s.getTask task.taskId).isSome = true :=
        fun task hmem => isSome_of_eq_some (getTask_of_mem_bundle hmem)
      have hne : resolveFocusedBundle s ≠ [] := by
        intro hempty
        rw [hempty] at hslots
        cases hslots
      rw [allOrNothing_iff_completes hfresh hstored hrefused hne]
      exact (or_iff_right hrefused).symm
  · have hnone : ∀ intent targetSlots, parseGenericCorrection cfg.casing userText = .intent intent →
        selectCorrectionSlots cfg.casing (extractBundleSlots cfg.casing (resolveFocusedBundle s))
          intent ≠ some targetSlots :=
      fun intent targetSlots hparsed hslots => hselected ⟨intent, targetSlots, hparsed, hslots⟩
    constructor
    · intro _ intent targetSlots hparsed hslots
      exact absurd hslots (hnone intent targetSlots hparsed)
    · intro _
      exact .inr (tasks_handleCorrection_unselected hnone)

/-- A session whose only task is in focus. -/
def focusedOn (task : Task) : Turn :=
  { board := Blackboard.empty.putTask task
    history := [{ text := "Done.", focusedTaskIds := [task.taskId] }] }

def toParis : CorrectionIntent := { newValue := "Paris", targetGroup := some .destination }

def destinationSlot (value : String) : BundleSlot :=
  { taskId := "task-1", fieldName := "goal", cue := "to", group := some .destination
    value := value }

theorem parse_toParis : parseGenericCorrection codexConfig.casing "to paris" = .intent toParis := by
  decide

theorem fresh_focusedOn (task : Task) (h : task.taskId = "task-1") :
    FreshIds codexConfig (focusedOn task) 1 where
  distinct m n hm hn _ := by omega
  unused n hn := by
    have hne : task.taskId ≠ newTaskId codexConfig (0 + n) := by
      obtain rfl : n = 0 := by omega
      rw [h]
      decide
    exact (Table.get?_put_of_ne Table.empty hne).trans rfl

/-- A task that flies to Rome is replaced by one that flies to Paris. -/
theorem paris_replaces_rome : AllOrNothing (focusedOn plainTask)
      (exec (handleCorrection codexConfig "to paris") (focusedOn plainTask)) := by
  have hbundle : resolveFocusedBundle (focusedOn plainTask) = [plainTask] := rfl
  have hselected : selectCorrectionSlots codexConfig.casing
      (extractBundleSlots codexConfig.casing [plainTask]) toParis =
      some [destinationSlot "Rome"] := by
    decide +kernel
  have hcompletes : Completes codexConfig (focusedOn plainTask) [destinationSlot "Rome"] toParis
      [plainTask] :=
    { copyable := fun task hmem => by
        obtain rfl := mem_singleton.mp hmem
        exact ⟨by decide, rfl, rfl⟩
      named := fun task hmem => by
        obtain rfl := mem_singleton.mp hmem
        decide
      distinct := nodup_singleton _
      unreplaced := fun task hmem replacementId hreplaces => by
        obtain ⟨stored, hstored, hfor⟩ := map_eq_some_iff.mp hreplaces
        have hentry : stored ∈ [plainTask] := Table.mem_of_get? hstored
        obtain rfl := mem_singleton.mp hentry
        cases hfor
      quiet := fun _ _ => rfl
      corrected := fun task hmem => by
        obtain rfl := mem_singleton.mp hmem
        decide +kernel }
  have hfresh : FreshIds codexConfig (focusedOn plainTask)
      (resolveFocusedBundle (focusedOn plainTask)).length := by
    rw [hbundle]
    exact fresh_focusedOn plainTask rfl
  refine (correction_all_or_nothing_iff codexConfig "to paris" (focusedOn plainTask) hfresh).mpr
    fun intent targetSlots hparsed hslots => ?_
  rw [parse_toParis] at hparsed
  cases hparsed
  rw [hbundle, hselected] at hslots
  cases hslots
  exact .inr hcompletes

/-- A goal with two spaces in the name of the place. -/
def spacedTask : Task := { plainTask with goal := "Fly to New  York" }

/-- A place that is found but cannot be put in its text: the copy stays, the task is cancelled,
and the user is asked to clarify. -/
theorem spaced_place_half_replaced : ¬ ∀ (cfg : Config) (userText : String) (s : Turn),
      FreshIds cfg s (resolveFocusedBundle s).length →
        AllOrNothing s (exec (handleCorrection cfg userText) s) := by
  intro h
  have hbundle : resolveFocusedBundle (focusedOn spacedTask) = [spacedTask] := rfl
  have hselected : selectCorrectionSlots codexConfig.casing
      (extractBundleSlots codexConfig.casing [spacedTask]) toParis =
      some [destinationSlot "New York"] := by
    decide +kernel
  have hfresh : FreshIds codexConfig (focusedOn spacedTask) [spacedTask].length :=
    fresh_focusedOn spacedTask rfl
  rw [← hbundle] at hselected hfresh
  have hall := (allOrNothing_selected parse_toParis hselected).mp
    (h codexConfig "to paris" (focusedOn spacedTask) hfresh)
  rw [hbundle] at hall hfresh
  have hstored : ∀ task ∈ [spacedTask],
      ((focusedOn spacedTask).getTask task.taskId).isSome = true := by
    intro task hmem
    obtain rfl := mem_singleton.mp hmem
    rfl
  have haccepted : ¬ FirstRefused codexConfig [destinationSlot "New York"] toParis [spacedTask] := by
    rintro ⟨task, hhead, hrefused⟩
    cases hhead
    exact hrefused (by decide +kernel)
  have hcompletes := (allOrNothing_iff_completes hfresh hstored haccepted
    (cons_ne_nil _ _)).mp hall
  have hcorrected := hcompletes.corrected spacedTask mem_cons_self
  revert hcorrected
  decide

end Newbro.CorrectionTurns
