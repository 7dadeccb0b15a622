import Newbro.BroThreads
import Newbro.Library.Transition

/-!
# Transcripts and the tasks that are made of them

`handle_audio_transcript_event` in the stretches between its awaits: a transcript is recorded
as pending on the task of its run, its thread is resolved, its task is created and recorded in
its place. Other coroutines may write anything meanwhile except those records, which nothing
else in the repository writes. The list of created tasks is history only.
-/
namespace Newbro.BroThreads

open Library Protocol Option Table List

/-- A transcript under way, with what was read when it was recorded. -/
structure TranscriptHandling where
  handlingId : String
  audioId : String
  transcript : String
  taskId : String
  persona : Persona
  threadId : Option String
  target : Option ThreadTarget := none
  createdTaskId : Option String := none

structure TranscriptState where
  session : BroSession
  handlings : Table TranscriptHandling.handlingId
  /-- The audio ids and the tasks that were created for them. -/
  created : List (String × String)

inductive TranscriptLabel where
  | deliver (handlingId runId : String) (metadata : Metadata)
  | resolveThread (handlingId : String)
  | createTask (handlingId hex : String)
  | recordTask (handlingId : String)
  | write (session : BroSession)

/-- The transcripts that a task records, each with its text if it is one: a task id, or
`pending`. -/
def transcriptRecords (task : Task) : List (String × Option String) :=
  (createdTasks task).map fun entry => (entry.1, entry.2.str?)

/-- The records of a task of the blackboard. -/
def recordsOf (b : Blackboard) (taskId : String) : List (String × Option String) :=
  ((b.getTask taskId).map transcriptRecords).getD []

def recordOf (b : Blackboard) (taskId audioId : String) : Option (Option String) :=
  (recordsOf b taskId).lookup audioId

/-- The thread that a transcript names, or else the task of its run. -/
def transcriptThread (task : Task) (metadata : Metadata) : Option String :=
  (metadata.nonemptyStr? "target_thread_id").or (task.metadata.str? "target_thread_id")

/-- The instruction that a transcript becomes. -/
def transcriptInstruction (audioId transcript : String) : ExecutorTextInstruction :=
  { instructionId := "txt-" ++ audioId
    text := transcript
    planMode := false }

def transcriptTask (taskId : String) (persona : Persona) (audioId transcript : String)
    (target : ThreadTarget) : Task :=
  directTask taskId persona (transcriptInstruction audioId transcript) target none
    "bro_detail_ptt"
    [("source_audio_instruction_id", .str audioId),
      ("direct_executor_input_sources", .list [.str "bro_detail_ptt"])]

namespace TranscriptState

def putTask (s : TranscriptState) (task : Task) : TranscriptState :=
  { s with session := { s.session with board := s.session.board.putTask task } }

def putHandling (s : TranscriptState) (h : TranscriptHandling) : TranscriptState :=
  { s with handlings := s.handlings.put h }

def endHandling (s : TranscriptState) (handlingId : String) : TranscriptState :=
  { s with handlings := s.handlings.erase handlingId }

/-- A transcript that is recorded already, or belongs to no task of a persona, is ignored. -/
def deliver (s : TranscriptState) (handlingId runId : String) (metadata : Metadata) :
    Option TranscriptState :=
  if s.handlings.contains handlingId then none
  else
    match audioTranscript metadata, taskAndPersona s.session.board runId with
    | some (audioId, transcript), some (task, persona) =>
      if ((createdTasks task).lookup audioId).isSome then some s
      else
        let handling : TranscriptHandling :=
          { handlingId := handlingId
            audioId := audioId
            transcript := transcript
            taskId := task.taskId
            persona := persona
            threadId := transcriptThread task metadata }
        some ((s.putTask (linkTranscript task audioId "pending")).putHandling handling)
    | _, _ => some s

/-- A thread that does not resolve is a `ValueError`, which nothing catches. -/
def resolveThread (s : TranscriptState) (handlingId : String) : Option TranscriptState :=
  ((s.handlings.get? handlingId).filter (·.target.isNone)).map fun handling =>
    match resolveBroThreadTarget s.session handling.persona handling.threadId with
    | .error _ => s.endHandling handlingId
    | .ok target => s.putHandling { handling with target := some target }

/-- `_start_text_task_from_direct_input`, with a new task id. -/
def createTask (s : TranscriptState) (handlingId hex : String) : Option TranscriptState :=
  let taskId := "task-" ++ hex
  if s.session.board.tasks.contains taskId then none
  else
    ((s.handlings.get? handlingId).filter (·.createdTaskId.isNone)).bind fun handling =>
      handling.target.map fun target =>
        let task := transcriptTask taskId handling.persona handling.audioId handling.transcript
          target
        { session := s.session.startTextTask handling.persona task
          handlings := s.handlings.put { handling with createdTaskId := some taskId }
          created := s.created ++ [(handling.audioId, taskId)] }

/-- The record of the transcript becomes the id of its task. -/
def recordTask (s : TranscriptState) (handlingId : String) : Option TranscriptState :=
  (s.handlings.get? handlingId).bind fun handling =>
    handling.createdTaskId.map fun taskId =>
      match s.session.board.getTask handling.taskId with
      | none => s.endHandling handlingId
      | some refreshed =>
        (s.putTask (linkTranscript refreshed handling.audioId taskId)).endHandling handlingId

/-- Every task has the same records on both blackboards. -/
def keepsRecords (b b' : Blackboard) : Bool :=
  (b.tasks.entries.map Task.taskId ++ b'.tasks.entries.map Task.taskId).all fun taskId =>
    recordsOf b taskId = recordsOf b' taskId

/-- Whatever else is written in the session. -/
def write (s : TranscriptState) (session : BroSession) : Option TranscriptState :=
  if keepsRecords s.session.board session.board then some { s with session := session } else none

variable (s : TranscriptState)

@[simp] theorem board_putTask (task : Task) :
    (s.putTask task).session.board = s.session.board.putTask task := rfl

@[simp] theorem session_putHandling (handling : TranscriptHandling) :
    (s.putHandling handling).session = s.session := rfl

def step (s : TranscriptState) : TranscriptLabel → Option TranscriptState
  | .deliver handlingId runId metadata => s.deliver handlingId runId metadata
  | .resolveThread handlingId => s.resolveThread handlingId
  | .createTask handlingId hex => s.createTask handlingId hex
  | .recordTask handlingId => s.recordTask handlingId
  | .write session => s.write session

end TranscriptState

variable (sessionId : String)

/-- A session in which no task has been created yet. -/
def noTranscripts : TranscriptState :=
  { session :=
      { sessionId := sessionId
        board := Blackboard.empty
        importedCodexThreads := Table.empty
        importedCodexThreadResumeHandles := Table.empty }
    handlings := Table.empty
    created := [] }

def transcriptSystem : System TranscriptState TranscriptLabel where
  initial s := ∃ sessionId, s = noTranscripts sessionId
  step := TranscriptState.step

/-! ## The property and the conditions -/

/-- No two tasks were created for one audio instruction. -/
def OneTaskEach (s : TranscriptState) : Prop := (s.created.map Prod.fst).Nodup

/-- A transcript that is recorded as pending is still being handled, so that one whose handling
has raised can be delivered again. -/
def PendingUnderWay (s : TranscriptState) : Prop :=
  ∀ taskId audioId, recordOf s.session.board taskId audioId = some (some "pending") →
    ∃ handling ∈ s.handlings.entries, handling.taskId = taskId ∧ handling.audioId = audioId

/-- The thread of a transcript resolves. -/
def threadResolves (s : TranscriptState) : TranscriptLabel → Bool
  | .resolveThread handlingId =>
    (s.handlings.get? handlingId).all fun handling =>
      match resolveBroThreadTarget s.session handling.persona handling.threadId with
      | .error _ => false
      | .ok _ => true
  | _ => true

/-- A transcript is not delivered to two tasks: no other task has a record of its audio
instruction. -/
def deliveredToOneTask (s : TranscriptState) : TranscriptLabel → Bool
  | .deliver _ runId metadata =>
    (audioTranscript metadata).all fun transcript =>
      (taskAndPersona s.session.board runId).all fun owner =>
        s.session.board.tasks.entries.all fun task =>
          task.taskId = owner.1.taskId ||
            (recordOf s.session.board task.taskId transcript.1).isNone
  | _ => true

/-! ## The records after a step -/

variable {taskId : String} {metadata : Metadata}

section records

variable {b b' : Blackboard} {task : Task}

theorem lookup_transcriptRecords (task : Task) (audioId : String) :
    (transcriptRecords task).lookup audioId =
      ((createdTasks task).lookup audioId).map Value.str? := by
  unfold transcriptRecords
  induction createdTasks task with
  | nil => rfl
  | cons entry entries ih =>
    obtain ⟨key, value⟩ := entry
    simp only [map_cons, lookup_cons]
    cases audioId == key with
    | true => rfl
    | false => exact ih

theorem recordOf_getTask (h : b.getTask taskId = some task) (audioId : String) :
    recordOf b taskId audioId = ((createdTasks task).lookup audioId).map Value.str? := by
  rw [recordOf, recordsOf, h, map_some, getD_some, lookup_transcriptRecords]

theorem createdTasks_linkTranscript (task : Task) (audioId taskId : String) :
    createdTasks (linkTranscript task audioId taskId) =
      RunManager.setField (createdTasks task) audioId (.str taskId) := by
  simp [createdTasks, linkTranscript, Value.dict?]

/-- A link writes one record of one task. -/
theorem recordOf_linkTranscript (h : b.getTask taskId = some task)
    (audioId value : String) (taskId' audioId' : String) :
    recordOf (b.putTask (linkTranscript task audioId value)) taskId' audioId' =
      if taskId = taskId' ∧ audioId = audioId' then some (some value)
      else recordOf b taskId' audioId' := by
  have hid : task.taskId = taskId := key_of_get? h
  have hget : (b.putTask (linkTranscript task audioId value)).getTask taskId' =
      if taskId = taskId' then some (linkTranscript task audioId value)
      else b.getTask taskId' := by
    rw [← hid]
    exact Table.get?_put b.tasks (linkTranscript task audioId value) taskId'
  by_cases htask : taskId = taskId'
  · subst htask
    rw [if_pos rfl] at hget
    rw [recordOf_getTask hget, recordOf_getTask h, createdTasks_linkTranscript]
    by_cases haudio : audioId = audioId'
    · subst haudio
      simp [RunManager.lookup_setField_self, Value.str?]
    · rw [RunManager.lookup_setField_of_ne _ _ haudio]
      simp [haudio]
  · rw [if_neg htask] at hget
    simp only [recordOf, recordsOf, hget, htask, false_and, if_false]

/-- None of the entries of a new task is a record. -/
theorem lookup_setAll {key : String} (entries : List (String × Value))
    (h : ∀ entry ∈ entries, entry.1 ≠ key) :
    Dict.lookup (setAll metadata entries) key = Dict.lookup metadata key := by
  unfold setAll
  induction entries generalizing metadata with
  | nil => rfl
  | cons entry entries ih =>
    rw [foldl_cons, ih fun other hmem => h other (mem_cons_of_mem _ hmem)]
    exact Dict.lookup_set_of_ne _ _ (h entry mem_cons_self)

theorem recordsOf_write (h : TranscriptState.keepsRecords b b' = true) (taskId : String) :
    recordsOf b' taskId = recordsOf b taskId := by
  by_cases hmem : taskId ∈ b.tasks.entries.map Task.taskId ++ b'.tasks.entries.map Task.taskId
  · have hsame := all_eq_true.mp h taskId hmem
    exact (of_decide_eq_true hsame).symm
  · have hnone : ∀ tasks : Table Task.taskId, taskId ∉ tasks.entries.map Task.taskId →
        tasks.get? taskId = none := by
      intro tasks hnot
      refine Table.get?_eq_none_iff.mpr fun task htask hid => ?_
      exact hnot (mem_map.mpr ⟨task, htask, hid⟩)
    rw [mem_append, not_or] at hmem
    simp only [recordsOf, Blackboard.getTask, hnone _ hmem.1, hnone _ hmem.2]

theorem resumeMetadata_keys (handle : AgentResumeHandle) :
    ∀ entry ∈ resumeMetadata handle, entry.1 ≠ "audio_transcript_task_ids" := by
  unfold resumeMetadata
  split
  · simp
  · intro entry hmem
    simp only [mem_append, mem_cons, not_mem_nil, or_false, mem_toList, map_eq_some_iff] at hmem
    rcases hmem with ((rfl | rfl) | ⟨_, _, rfl⟩) | ⟨_, _, rfl⟩ <;> simp

theorem directTaskMetadata_keys (persona : Persona) (instruction : ExecutorTextInstruction)
    (target : ThreadTarget) (sourceKind : String) :
    ∀ entry ∈ directTaskMetadata persona instruction target sourceKind,
      entry.1 ≠ "audio_transcript_task_ids" := by
  intro entry hmem hkey
  have hkeys : entry.1 ∈ (directTaskMetadata persona instruction target sourceKind).map Prod.fst :=
    mem_map_of_mem hmem
  rw [hkey] at hkeys
  revert hkeys
  change "audio_transcript_task_ids" ∉
    ["source_kind", "assigned_bro_id", "persona_id", "persona_name", "persona_avatar",
      "bro_detail_session_id", "bro_thread_id", "target_thread_id", "executor_node_id",
      "instruction_id", "codex_thread_mode", "mode", "suppress_communication_notifications"]
  decide

/-- The task of a transcript comes without records of its own. -/
theorem createdTasks_transcriptTask (taskId : String) (persona : Persona)
    (audioId transcript : String) (target : ThreadTarget) :
    createdTasks (transcriptTask taskId persona audioId transcript target) = [] := by
  have hnone : Dict.lookup (transcriptTask taskId persona audioId transcript target).metadata
      "audio_transcript_task_ids" = none := by
    unfold transcriptTask directTask
    rw [lookup_setAll]
    · rfl
    · intro entry hmem
      rcases mem_append.mp hmem with hmem | hmem
      · rcases mem_append.mp hmem with hmem | hmem
        · rcases mem_append.mp hmem with hmem | hmem
          · exact directTaskMetadata_keys _ _ _ _ entry hmem
          · cases hmem
        · cases hhandle : target.resumeHandle with
          | none =>
            rw [hhandle] at hmem
            cases hmem
          | some handle =>
            rw [hhandle] at hmem
            exact resumeMetadata_keys handle entry hmem
      · simp only [mem_cons, not_mem_nil, or_false] at hmem
        rcases hmem with rfl | rfl <;> simp
  rw [createdTasks, hnone]
  rfl

theorem recordOf_startTextTask {session : BroSession} (persona : Persona) {created : Task}
    (hfresh : session.board.tasks.contains created.taskId = false)
    (hnone : createdTasks created = []) (taskId audioId : String) :
    recordOf (session.startTextTask persona created).board taskId audioId =
      recordOf session.board taskId audioId := by
  have hget : (session.startTextTask persona created).board.getTask taskId =
      if created.taskId = taskId then some created else session.board.getTask taskId := by
    simp only [BroSession.startTextTask, Blackboard.getTask, Blackboard.tasks_putTask,
      Blackboard.tasks_putPersona, Table.get?_put]
  by_cases htask : created.taskId = taskId
  · subst htask
    have habsent : session.board.getTask created.taskId = none := by
      simpa [Table.contains, Blackboard.getTask] using hfresh
    rw [if_pos rfl] at hget
    simp [recordOf, recordsOf, hget, habsent, transcriptRecords, hnone]
  · rw [if_neg htask] at hget
    simp only [recordOf, recordsOf, hget]

end records

/-! ## The invariant -/

/-- A transcript under way is recorded as pending, under way once, and what has been created is
recorded somewhere. -/
structure Recorded (s : TranscriptState) : Prop where
  pending : ∀ handling ∈ s.handlings.entries,
    recordOf s.session.board handling.taskId handling.audioId = some (some "pending")
  distinct : ∀ handling ∈ s.handlings.entries, ∀ other ∈ s.handlings.entries,
    handling.taskId = other.taskId → handling.audioId = other.audioId →
    handling.handlingId = other.handlingId
  created : ∀ entry ∈ s.created, ∃ taskId, (recordOf s.session.board taskId entry.1).isSome
  createdIds : ∀ handling ∈ s.handlings.entries, handling.createdTaskId ≠ some "pending"

/-- With every audio instruction recorded on one task, the transcript of one that has a task
already is past the creation. -/
structure Single (s : TranscriptState) : Prop where
  oneOwner : ∀ taskId other audioId, (recordOf s.session.board taskId audioId).isSome →
    (recordOf s.session.board other audioId).isSome → taskId = other
  done : ∀ handling ∈ s.handlings.entries, ∀ entry ∈ s.created, entry.1 = handling.audioId →
    handling.createdTaskId.isSome
  oneTask : OneTaskEach s

variable {runId handlingId hex : String} {handling : TranscriptHandling} {label : TranscriptLabel}

section steps

variable {s s' : TranscriptState}

/-- A step that writes no record and keeps the transcripts under way, up to how far they are. -/
theorem Recorded.frame (h : Recorded s)
    (hrecords : ∀ taskId audioId,
      recordOf s'.session.board taskId audioId = recordOf s.session.board taskId audioId)
    (hhandlings : ∀ handling ∈ s'.handlings.entries, ∃ old ∈ s.handlings.entries,
      old.handlingId = handling.handlingId ∧ old.taskId = handling.taskId ∧
        old.audioId = handling.audioId)
    (hcreated : ∀ entry ∈ s'.created, ∃ taskId, (recordOf s.session.board taskId entry.1).isSome)
    (hids : ∀ handling ∈ s'.handlings.entries, handling.createdTaskId ≠ some "pending") :
    Recorded s' where
  pending := by
    intro handling hmem
    obtain ⟨old, hold, -, htask, haudio⟩ := hhandlings handling hmem
    rw [hrecords, ← htask, ← haudio]
    exact h.pending old hold
  distinct := by
    intro handling hmem other hother htask haudio
    obtain ⟨old, hold, hid, hold_task, hold_audio⟩ := hhandlings handling hmem
    obtain ⟨old', hold', hid', hold_task', hold_audio'⟩ := hhandlings other hother
    rw [← hid, ← hid']
    refine h.distinct old hold old' hold' ?_ ?_
    · rw [hold_task, hold_task', htask]
    · rw [hold_audio, hold_audio', haudio]
  created := by
    intro entry hmem
    obtain ⟨taskId, hrecord⟩ := hcreated entry hmem
    exact ⟨taskId, by rwa [hrecords]⟩
  createdIds := hids

theorem getTask_owner {b : Blackboard} {task : Task} {persona : Persona}
    (h : taskAndPersona b runId = some (task, persona)) : b.getTask task.taskId = some task := by
  obtain ⟨run, -, hrest⟩ := bind_eq_some_iff.mp h
  obtain ⟨owner, hget, hpersona⟩ := bind_eq_some_iff.mp hrest
  obtain ⟨found, -, heq⟩ := map_eq_some_iff.mp hpersona
  obtain ⟨rfl, rfl⟩ := Prod.mk.inj heq
  have hid : owner.taskId = run.taskId := key_of_get? hget
  rw [hid]
  exact hget

/-- What a delivery does: nothing, or it records a transcript that its task has no record of,
and starts to handle it. -/
inductive Delivers (s : TranscriptState) (handlingId runId : String) (metadata : Metadata)
    (s' : TranscriptState) : Prop
  | ignored (h : s' = s)
  | accepted (task : Task) (persona : Persona) (handling : TranscriptHandling)
      (transcript : audioTranscript metadata = some (handling.audioId, handling.transcript))
      (owner : taskAndPersona s.session.board runId = some (task, persona))
      (found : s.session.board.getTask handling.taskId = some task)
      (unrecorded : recordOf s.session.board handling.taskId handling.audioId = none)
      (new : handling.createdTaskId = none) (fresh : s.handlings.get? handling.handlingId = none)
      (next : s' =
        (s.putTask (linkTranscript task handling.audioId "pending")).putHandling handling)

theorem deliver_spec (hs : s.deliver handlingId runId metadata = some s') :
    Delivers s handlingId runId metadata s' := by
  unfold TranscriptState.deliver at hs
  split at hs
  · cases hs
  · rename_i hfresh
    split at hs
    · rename_i audioId transcript task persona htranscript howner
      split at hs
      · exact .ignored (some.inj hs).symm
      · rename_i hunrecorded
        have hfound := getTask_owner howner
        have hnone : recordOf s.session.board task.taskId audioId = none := by
          rw [recordOf_getTask hfound, not_isSome_iff_eq_none.mp hunrecorded]
          rfl
        have hnew : s.handlings.get? handlingId = none := by simpa [Table.contains] using hfresh
        let handling : TranscriptHandling :=
          { handlingId := handlingId
            audioId := audioId
            transcript := transcript
            taskId := task.taskId
            persona := persona
            threadId := transcriptThread task metadata }
        have hnext : s' = (s.putTask (linkTranscript task audioId "pending")).putHandling handling :=
          (some.inj hs).symm
        exact .accepted task persona handling htranscript howner hfound hnone rfl hnew hnext
    · exact .ignored (some.inj hs).symm

theorem recorded_deliver (h : Recorded s)
    (hdelivers : Delivers s handlingId runId metadata s') : Recorded s' := by
  cases hdelivers with
  | ignored hsame =>
    rw [hsame]
    exact h
  | accepted task persona handling _ _ found unrecorded new _ next =>
    have hafter := recordOf_linkTranscript found handling.audioId "pending"
    subst next
    have hnew : ∀ other ∈ s.handlings.entries,
        ¬ (handling.taskId = other.taskId ∧ handling.audioId = other.audioId) := by
      rintro other hmem ⟨htask, haudio⟩
      have hpending := h.pending other hmem
      rw [← htask, ← haudio, unrecorded] at hpending
      cases hpending
    refine ⟨?_, ?_, ?_, ?_⟩
    · intro other hmem
      simp only [TranscriptState.session_putHandling, TranscriptState.board_putTask, hafter]
      rcases mem_put.mp hmem with rfl | ⟨hmem, -⟩
      · rw [if_pos ⟨rfl, rfl⟩]
      · rw [if_neg (hnew other hmem)]
        exact h.pending other hmem
    · intro first hfirst second hsecond htask haudio
      rcases mem_put.mp hfirst with rfl | ⟨hfirst, -⟩
      · rcases mem_put.mp hsecond with rfl | ⟨hsecond, -⟩
        · rfl
        · exact absurd ⟨htask, haudio⟩ (hnew second hsecond)
      · rcases mem_put.mp hsecond with rfl | ⟨hsecond, -⟩
        · exact absurd ⟨htask.symm, haudio.symm⟩ (hnew first hfirst)
        · exact h.distinct first hfirst second hsecond htask haudio
    · intro entry hmem
      obtain ⟨taskId, hsome⟩ := h.created entry hmem
      refine ⟨taskId, ?_⟩
      simp only [TranscriptState.session_putHandling, TranscriptState.board_putTask, hafter]
      split
      · rfl
      · exact hsome
    · intro other hmem
      rcases mem_put.mp hmem with rfl | ⟨hmem, -⟩
      · rw [new]
        exact fun hnone => by cases hnone
      · exact h.createdIds other hmem

/-- A transcript whose thread resolves goes on, and any other ends with its record as it is. -/
theorem resolveThread_spec (hs : s.resolveThread handlingId = some s') :
    ∃ handling, s.handlings.get? handlingId = some handling ∧
      ((threadResolves s (.resolveThread handlingId) = true ∧
          ∃ target, s' = s.putHandling { handling with target := some target }) ∨
        (threadResolves s (.resolveThread handlingId) = false ∧ s' = s.endHandling handlingId)) := by
  obtain ⟨handling, hfilter, hnext⟩ := map_eq_some_iff.mp hs
  have hget := (filter_eq_some_iff.mp hfilter).1
  refine ⟨handling, hget, ?_⟩
  simp only [threadResolves, hget, all_some]
  cases hresolve : resolveBroThreadTarget s.session handling.persona handling.threadId with
  | error message =>
    rw [hresolve] at hnext
    exact .inr ⟨rfl, hnext.symm⟩
  | ok target =>
    rw [hresolve] at hnext
    exact .inl ⟨rfl, target, hnext.symm⟩

/-- The transcripts under way after one of them has come further. -/
theorem mem_handlings_put {handling' : TranscriptHandling}
    (hget : s.handlings.get? handlingId = some handling)
    (hid : handling'.handlingId = handling.handlingId) (htask : handling'.taskId = handling.taskId)
    (haudio : handling'.audioId = handling.audioId) :
    ∀ other ∈ (s.handlings.put handling').entries, ∃ old ∈ s.handlings.entries,
      old.handlingId = other.handlingId ∧ old.taskId = other.taskId ∧
        old.audioId = other.audioId := by
  intro other hmem
  rcases mem_put.mp hmem with rfl | ⟨hmem, -⟩
  · exact ⟨handling, mem_of_get? hget, hid.symm, htask.symm, haudio.symm⟩
  · exact ⟨other, hmem, rfl, rfl, rfl⟩

theorem mem_handlings_erase :
    ∀ other ∈ (s.handlings.erase handlingId).entries, ∃ old ∈ s.handlings.entries,
      old.handlingId = other.handlingId ∧ old.taskId = other.taskId ∧
        old.audioId = other.audioId := by
  intro other hmem
  exact ⟨other, (mem_erase.mp hmem).1, rfl, rfl, rfl⟩

theorem recorded_resolveThread (h : Recorded s)
    (hs : s.resolveThread handlingId = some s') : Recorded s' := by
  obtain ⟨handling, hget, ⟨-, target, rfl⟩ | ⟨-, rfl⟩⟩ := resolveThread_spec hs
  · refine h.frame (fun _ _ => rfl) (mem_handlings_put hget rfl rfl rfl) h.created ?_
    intro other hmem
    rcases mem_put.mp hmem with rfl | ⟨hmem, -⟩
    · exact h.createdIds handling (mem_of_get? hget)
    · exact h.createdIds other hmem
  · refine h.frame (fun _ _ => rfl) mem_handlings_erase h.created ?_
    exact fun other hmem => h.createdIds other (mem_erase.mp hmem).1

/-- A creation stores a task without records under a new id, and says so. -/
structure Creates (s : TranscriptState) (handlingId hex : String) (s' : TranscriptState)
    (handling : TranscriptHandling) : Prop where
  underWay : s.handlings.get? handlingId = some handling
  first : handling.createdTaskId = none
  records : ∀ taskId audioId,
    recordOf s'.session.board taskId audioId = recordOf s.session.board taskId audioId
  handlings : s'.handlings =
    s.handlings.put { handling with createdTaskId := some ("task-" ++ hex) }
  created : s'.created = s.created ++ [(handling.audioId, "task-" ++ hex)]

theorem createTask_spec (hs : s.createTask handlingId hex = some s') :
    ∃ handling, Creates s handlingId hex s' handling := by
  unfold TranscriptState.createTask at hs
  simp only at hs
  split at hs
  · cases hs
  · rename_i hfresh
    obtain ⟨handling, hfilter, hs⟩ := bind_eq_some_iff.mp hs
    obtain ⟨target, -, rfl⟩ := map_eq_some_iff.mp hs
    obtain ⟨hget, hfirst⟩ := filter_eq_some_iff.mp hfilter
    let created := transcriptTask ("task-" ++ hex) handling.persona handling.audioId
      handling.transcript target
    have hnone : createdTasks created = [] := createdTasks_transcriptTask _ _ _ _ _
    have hid : s.session.board.tasks.contains created.taskId = false := by
      change s.session.board.tasks.contains ("task-" ++ hex) = false
      simpa using hfresh
    refine ⟨handling, hget, by simpa using hfirst, ?_, rfl, rfl⟩
    exact recordOf_startTextTask handling.persona hid hnone

theorem createdTaskId_ne_pending (hex : String) : "task-" ++ hex ≠ "pending" := by
  intro h
  have hfirst := congrArg (fun text => text.toList.head?) h
  simp at hfirst

theorem Creates.recorded
    (hcreates : Creates s handlingId hex s' handling) (h : Recorded s) : Recorded s' := by
  refine h.frame hcreates.records ?_ ?_ ?_
  · rw [hcreates.handlings]
    exact mem_handlings_put hcreates.underWay rfl rfl rfl
  · intro entry hmem
    rw [hcreates.created, mem_append, mem_singleton] at hmem
    rcases hmem with hmem | rfl
    · exact h.created entry hmem
    · have hpending := h.pending handling (mem_of_get? hcreates.underWay)
      exact ⟨handling.taskId, by rw [hpending]; rfl⟩
  · intro other hmem
    rw [hcreates.handlings] at hmem
    rcases mem_put.mp hmem with rfl | ⟨hmem, -⟩
    · exact fun hpending => createdTaskId_ne_pending hex (some.inj hpending)
    · exact h.createdIds other hmem

/-- A task that has been created is recorded on the task of the transcript, which ends. -/
structure Records (s : TranscriptState) (handlingId : String) (s' : TranscriptState)
    (handling : TranscriptHandling) : Prop where
  underWay : s.handlings.get? handlingId = some handling
  handlings : s'.handlings = s.handlings.erase handlingId
  created : s'.created = s.created
  records : ∃ taskId, taskId ≠ "pending" ∧ ∀ owner audioId,
    recordOf s'.session.board owner audioId =
      if handling.taskId = owner ∧ handling.audioId = audioId then some (some taskId)
      else recordOf s.session.board owner audioId

theorem recordTask_spec (h : Recorded s) (hs : s.recordTask handlingId = some s') :
    ∃ handling, Records s handlingId s' handling := by
  obtain ⟨handling, hget, hs⟩ := bind_eq_some_iff.mp hs
  obtain ⟨taskId, hcreated, hnext⟩ := map_eq_some_iff.mp hs
  have hmem := mem_of_get? hget
  have hpending := h.pending handling hmem
  cases hfound : s.session.board.getTask handling.taskId with
  | none => simp [recordOf, recordsOf, hfound] at hpending
  | some refreshed =>
    rw [hfound] at hnext
    subst hnext
    refine ⟨handling, hget, rfl, rfl, taskId, ?_, ?_⟩
    · rintro rfl
      exact h.createdIds handling hmem hcreated
    · exact recordOf_linkTranscript hfound handling.audioId taskId

theorem Records.recorded
    (hrecords : Records s handlingId s' handling) (h : Recorded s) : Recorded s' := by
  obtain ⟨taskId, -, hafter⟩ := hrecords.records
  have hmem := mem_of_get? hrecords.underWay
  have hid : handling.handlingId = handlingId := key_of_get? hrecords.underWay
  have hold : ∀ other ∈ s'.handlings.entries,
      other ∈ s.handlings.entries ∧ other.handlingId ≠ handlingId := by
    intro other hother
    rw [hrecords.handlings] at hother
    exact mem_erase.mp hother
  refine ⟨?_, ?_, ?_, fun other hother => h.createdIds other (hold other hother).1⟩
  · intro other hother
    obtain ⟨hother, hne⟩ := hold other hother
    rw [hafter, if_neg]
    · exact h.pending other hother
    · rintro ⟨htask, haudio⟩
      exact hne ((h.distinct handling hmem other hother htask haudio).symm.trans hid)
  · intro first hfirst second hsecond
    exact h.distinct first (hold first hfirst).1 second (hold second hsecond).1
  · intro entry hentry
    rw [hrecords.created] at hentry
    obtain ⟨owner, hsome⟩ := h.created entry hentry
    refine ⟨owner, ?_⟩
    rw [hafter]
    split
    · rfl
    · exact hsome

theorem write_spec {session : BroSession} (hs : s.write session = some s') :
    s'.handlings = s.handlings ∧ s'.created = s.created ∧ ∀ taskId audioId,
      recordOf s'.session.board taskId audioId = recordOf s.session.board taskId audioId := by
  unfold TranscriptState.write at hs
  split at hs
  · rename_i hkeeps
    cases hs
    refine ⟨rfl, rfl, fun taskId audioId => ?_⟩
    simp only [recordOf, recordsOf_write hkeeps]
  · cases hs

theorem recorded_step (h : Recorded s) (hs : s.step label = some s') : Recorded s' := by
  cases label with
  | deliver handlingId runId metadata => exact recorded_deliver h (deliver_spec hs)
  | resolveThread handlingId => exact recorded_resolveThread h hs
  | createTask handlingId hex =>
    obtain ⟨handling, hcreates⟩ := createTask_spec hs
    exact hcreates.recorded h
  | recordTask handlingId =>
    obtain ⟨handling, hrecords⟩ := recordTask_spec h hs
    exact hrecords.recorded h
  | write session =>
    obtain ⟨hhandlings, hcreated, hrecords⟩ := write_spec hs
    refine h.frame hrecords ?_ ?_ ?_
    · rw [hhandlings]
      exact fun other hmem => ⟨other, hmem, rfl, rfl, rfl⟩
    · rw [hcreated]
      exact h.created
    · rw [hhandlings]
      exact h.createdIds

/-! ## Pending records -/

/-- A step that writes no pending record and ends no handling of one. -/
theorem PendingUnderWay.frame (h : PendingUnderWay s) (hrecords : ∀ taskId audioId,
      recordOf s'.session.board taskId audioId = some (some "pending") →
      recordOf s.session.board taskId audioId = some (some "pending"))
    (hhandlings : ∀ handling ∈ s.handlings.entries,
      recordOf s'.session.board handling.taskId handling.audioId = some (some "pending") →
      ∃ new ∈ s'.handlings.entries, new.taskId = handling.taskId ∧
        new.audioId = handling.audioId) : PendingUnderWay s' := by
  intro taskId audioId hpending
  obtain ⟨handling, hmem, rfl, rfl⟩ := h taskId audioId (hrecords taskId audioId hpending)
  exact hhandlings handling hmem hpending

/-- A transcript that has come further is still under way. -/
theorem underWay_put
    (handling' : TranscriptHandling) (hget : s.handlings.get? handlingId = some handling)
    (hid : handling'.handlingId = handling.handlingId) (htask : handling'.taskId = handling.taskId)
    (haudio : handling'.audioId = handling.audioId) :
    ∀ other ∈ s.handlings.entries, ∃ new ∈ (s.handlings.put handling').entries,
      new.taskId = other.taskId ∧ new.audioId = other.audioId := by
  intro other hmem
  by_cases hsame : other.handlingId = handling.handlingId
  · have heq : other = handling :=
      s.handlings.eq_of_key_eq hmem (mem_of_get? hget) hsame
    rw [heq]
    exact ⟨handling', mem_put.mpr (.inl rfl), htask, haudio⟩
  · rw [← hid] at hsame
    exact ⟨other, mem_put.mpr (.inr ⟨hmem, hsame⟩), rfl, rfl⟩

/-- A step leaves no pending record behind exactly if the thread it resolves is there. -/
theorem pendingUnderWay_step (h : Recorded s)
    (hunder : PendingUnderWay s) (hs : s.step label = some s') :
    PendingUnderWay s' ↔ threadResolves s label = true := by
  cases label with
  | deliver handlingId runId metadata =>
    refine iff_of_true ?_ rfl
    cases deliver_spec hs with
    | ignored hsame =>
      rw [hsame]
      exact hunder
    | accepted task persona handling _ _ found _ _ fresh next =>
      have hafter := recordOf_linkTranscript found handling.audioId "pending"
      subst next
      intro taskId audioId hpending
      simp only [TranscriptState.session_putHandling, TranscriptState.board_putTask,
        hafter] at hpending
      split at hpending
      · rename_i hnew
        exact ⟨handling, mem_put.mpr (.inl rfl), hnew.1, hnew.2⟩
      · obtain ⟨other, hmem, hother⟩ := hunder taskId audioId hpending
        have hne : other.handlingId ≠ handling.handlingId := by
          intro heq
          rw [← heq, Table.get?_of_mem hmem] at fresh
          cases fresh
        exact ⟨other, mem_put.mpr (.inr ⟨hmem, hne⟩), hother⟩
  | resolveThread handlingId =>
    obtain ⟨handling, hget, ⟨hresolves, target, rfl⟩ | ⟨hfails, rfl⟩⟩ := resolveThread_spec hs
    · refine iff_of_true ?_ hresolves
      exact hunder.frame (fun _ _ => id) fun other hmem _ =>
        underWay_put { handling with target := some target } hget rfl rfl rfl other hmem
    · refine iff_of_false (fun hafter => ?_) (by rw [hfails]; exact Bool.false_ne_true)
      have hmem := mem_of_get? hget
      obtain ⟨other, hother, htask, haudio⟩ :=
        hafter handling.taskId handling.audioId (h.pending handling hmem)
      obtain ⟨hother, hne⟩ := mem_erase.mp hother
      have hid : handling.handlingId = handlingId := key_of_get? hget
      exact hne ((h.distinct other hother handling hmem htask haudio).trans hid)
  | createTask handlingId hex =>
    refine iff_of_true ?_ rfl
    obtain ⟨handling, hcreates⟩ := createTask_spec hs
    refine hunder.frame (fun taskId audioId hpending => ?_) fun other hmem _ => ?_
    · rwa [hcreates.records] at hpending
    · rw [hcreates.handlings]
      exact underWay_put { handling with createdTaskId := some ("task-" ++ hex) }
        hcreates.underWay rfl rfl rfl other hmem
  | recordTask handlingId =>
    refine iff_of_true ?_ rfl
    obtain ⟨handling, hrecords⟩ := recordTask_spec h hs
    obtain ⟨taskId, hne, hafter⟩ := hrecords.records
    have hother : ∀ owner audioId, recordOf s'.session.board owner audioId = some (some "pending") →
        ¬ (handling.taskId = owner ∧ handling.audioId = audioId) := by
      intro owner audioId hpending hsame
      rw [hafter, if_pos hsame] at hpending
      exact hne (some.inj (some.inj hpending))
    refine hunder.frame (fun owner audioId hpending => ?_) fun other hmem hpending => ?_
    · have hold := hother owner audioId hpending
      rwa [hafter, if_neg hold] at hpending
    · refine ⟨other, ?_, rfl, rfl⟩
      rw [hrecords.handlings]
      refine mem_erase.mpr ⟨hmem, fun hid => ?_⟩
      have hget := Table.get?_of_mem hmem
      rw [hid, hrecords.underWay] at hget
      obtain rfl := some.inj hget
      exact hother _ _ hpending ⟨rfl, rfl⟩
  | write session =>
    refine iff_of_true ?_ rfl
    obtain ⟨hhandlings, -, hrecords⟩ := write_spec hs
    refine hunder.frame (fun taskId audioId hpending => ?_) fun other hmem _ => ?_
    · rwa [hrecords] at hpending
    · rw [hhandlings]
      exact ⟨other, hmem, rfl, rfl⟩

/-! ## One task for each audio instruction -/

/-- A step that records no audio instruction on a further task, and creates no task. -/
theorem Single.frame (h : Single s)
    (hrecords : ∀ taskId audioId, (recordOf s'.session.board taskId audioId).isSome →
      (recordOf s.session.board taskId audioId).isSome)
    (hhandlings : ∀ handling ∈ s'.handlings.entries, ∃ old ∈ s.handlings.entries,
      old.audioId = handling.audioId ∧ old.createdTaskId = handling.createdTaskId)
    (hcreated : s'.created = s.created) : Single s' where
  oneOwner := by
    intro taskId other audioId hsome hother
    exact h.oneOwner taskId other audioId (hrecords _ _ hsome) (hrecords _ _ hother)
  done := by
    intro handling hmem entry hentry haudio
    obtain ⟨old, hold, hsame, hcreatedId⟩ := hhandlings handling hmem
    rw [hcreated] at hentry
    rw [← hcreatedId]
    exact h.done old hold entry hentry (haudio.trans hsame.symm)
  oneTask := by
    unfold OneTaskEach
    rw [hcreated]
    exact h.oneTask

theorem mem_of_recordOf {b : Blackboard} {audioId : String}
    (h : (recordOf b taskId audioId).isSome) : ∃ task ∈ b.tasks.entries, task.taskId = taskId := by
  cases hget : b.getTask taskId with
  | none => simp [recordOf, recordsOf, hget] at h
  | some task => exact ⟨task, mem_of_get? hget, key_of_get? hget⟩

theorem single_deliver (hrec : Recorded s)
    (h : Single s) (hdelivers : Delivers s handlingId runId metadata s')
    (hcondition : deliveredToOneTask s (.deliver handlingId runId metadata) = true) :
    Single s' := by
  cases hdelivers with
  | ignored hsame =>
    rw [hsame]
    exact h
  | accepted task persona handling transcript owner found unrecorded _ _ next =>
    have hafter := recordOf_linkTranscript found handling.audioId "pending"
    have hid : task.taskId = handling.taskId := Table.key_of_get? found
    have hnowhere : ∀ taskId, recordOf s.session.board taskId handling.audioId = none := by
      intro taskId
      by_contra hsome
      have hsome := Option.isSome_iff_ne_none.mpr hsome
      obtain ⟨other, hother, rfl⟩ := mem_of_recordOf hsome
      simp only [deliveredToOneTask, transcript, owner, Option.all_some, List.all_eq_true,
        Bool.or_eq_true, decide_eq_true_eq] at hcondition
      rcases hcondition other hother with hsame | hnone
      · rw [hsame, hid, unrecorded] at hsome
        cases hsome
      · rw [Option.isNone_iff_eq_none.mp hnone] at hsome
        cases hsome
    subst next
    refine ⟨?_, ?_, h.oneTask⟩
    · intro taskId other audioId hsome hother
      simp only [TranscriptState.session_putHandling, TranscriptState.board_putTask,
        hafter] at hsome hother
      by_cases haudio : handling.audioId = audioId
      · subst haudio
        simp only [and_true, hnowhere] at hsome hother
        split at hsome
        · rename_i htask
          split at hother
          · rename_i htask'
            exact htask.symm.trans htask'
          · cases hother
        · cases hsome
      · simp only [haudio, and_false, if_false] at hsome hother
        exact h.oneOwner taskId other audioId hsome hother
    · intro other hmem entry hentry haudio
      rcases Table.mem_put.mp hmem with rfl | ⟨hmem, -⟩
      · obtain ⟨taskId, hsome⟩ := hrec.created entry hentry
        rw [haudio, hnowhere] at hsome
        cases hsome
      · exact h.done other hmem entry hentry haudio

theorem single_createTask
    (hrec : Recorded s) (h : Single s) (hcreates : Creates s handlingId hex s' handling) :
    Single s' := by
  have hmem := mem_of_get? hcreates.underWay
  refine ⟨?_, ?_, ?_⟩
  · intro taskId other audioId hsome hother
    rw [hcreates.records] at hsome hother
    exact h.oneOwner taskId other audioId hsome hother
  · intro other hother entry hentry haudio
    rw [hcreates.handlings] at hother
    rw [hcreates.created, mem_append, mem_singleton] at hentry
    rcases mem_put.mp hother with rfl | ⟨hother, hne⟩
    · rfl
    · rcases hentry with hentry | rfl
      · exact h.done other hother entry hentry haudio
      · -- another transcript of the same audio would be of the same task
        have hsome : (recordOf s.session.board handling.taskId handling.audioId).isSome := by
          rw [hrec.pending handling hmem]
          rfl
        have hsome' : (recordOf s.session.board other.taskId handling.audioId).isSome := by
          rw [show handling.audioId = other.audioId from haudio, hrec.pending other hother]
          rfl
        have htask := h.oneOwner _ _ _ hsome hsome'
        exact absurd (hrec.distinct handling hmem other hother htask haudio).symm hne
  · have hnew : handling.audioId ∉ s.created.map Prod.fst := by
      intro hin
      obtain ⟨entry, hentry, haudio⟩ := mem_map.mp hin
      have hdone := h.done handling hmem entry hentry haudio
      rw [hcreates.first] at hdone
      cases hdone
    unfold OneTaskEach
    rw [hcreates.created, map_append, nodup_append]
    refine ⟨h.oneTask, nodup_singleton _, ?_⟩
    intro audioId hin other hother
    obtain rfl := mem_singleton.mp hother
    rintro rfl
    exact hnew hin

theorem single_step (hrec : Recorded s) (h : Single s)
    (hcondition : deliveredToOneTask s label = true) (hs : s.step label = some s') : Single s' := by
  cases label with
  | deliver handlingId runId metadata => exact single_deliver hrec h (deliver_spec hs) hcondition
  | resolveThread handlingId =>
    obtain ⟨handling, hget, ⟨-, target, rfl⟩ | ⟨-, rfl⟩⟩ := resolveThread_spec hs
    · refine h.frame (fun _ _ => id) (fun other hmem => ?_) rfl
      rcases mem_put.mp hmem with rfl | ⟨hmem, -⟩
      · exact ⟨handling, mem_of_get? hget, rfl, rfl⟩
      · exact ⟨other, hmem, rfl, rfl⟩
    · refine h.frame (fun _ _ => id) (fun other hmem => ?_) rfl
      exact ⟨other, (mem_erase.mp hmem).1, rfl, rfl⟩
  | createTask handlingId hex =>
    obtain ⟨handling, hcreates⟩ := createTask_spec hs
    exact single_createTask hrec h hcreates
  | recordTask handlingId =>
    obtain ⟨handling, hrecords⟩ := recordTask_spec hrec hs
    obtain ⟨taskId, -, hafter⟩ := hrecords.records
    refine h.frame (fun owner audioId hsome => ?_) (fun other hmem => ?_) hrecords.created
    · rw [hafter] at hsome
      split at hsome
      · rename_i hsame
        rw [← hsame.1, ← hsame.2, hrec.pending handling (mem_of_get? hrecords.underWay)]
        rfl
      · exact hsome
    · rw [hrecords.handlings] at hmem
      exact ⟨other, (mem_erase.mp hmem).1, rfl, rfl⟩
  | write session =>
    obtain ⟨hhandlings, hcreated, hrecords⟩ := write_spec hs
    refine h.frame (fun taskId audioId hsome => ?_) (fun other hmem => ?_) hcreated
    · rwa [hrecords] at hsome
    · rw [hhandlings] at hmem
      exact ⟨other, hmem, rfl, rfl⟩

end steps

/-! ## Runs -/

theorem recorded_noTranscripts : Recorded (noTranscripts sessionId) where
  pending := fun _ hmem => by cases hmem
  distinct := fun _ hmem => by cases hmem
  created := fun _ hmem => by cases hmem
  createdIds := fun _ hmem => by cases hmem

theorem recordOf_noTranscripts (sessionId taskId audioId : String) :
    recordOf (noTranscripts sessionId).session.board taskId audioId = none := rfl

theorem single_noTranscripts : Single (noTranscripts sessionId) where
  oneOwner := fun _ _ _ hsome => by cases hsome
  done := fun _ hmem => by cases hmem
  oneTask := nodup_nil

theorem pendingUnderWay_noTranscripts : PendingUnderWay (noTranscripts sessionId) := by
  intro taskId audioId hpending
  rw [recordOf_noTranscripts] at hpending
  cases hpending

/-- A run leaves no pending record behind exactly if every thread that a transcript is for
resolves; and if no transcript is delivered to two tasks, every audio instruction leads to one
task at most. -/
theorem transcripts_become_one_task_iff (sessionId : String) (labels : List TranscriptLabel) :
    (transcriptSystem.Always PendingUnderWay (noTranscripts sessionId) labels ↔
      transcriptSystem.Along (fun s label => threadResolves s label = true)
        (noTranscripts sessionId) labels) ∧
    (transcriptSystem.Along (fun s label => deliveredToOneTask s label = true)
        (noTranscripts sessionId) labels →
      transcriptSystem.Always OneTaskEach (noTranscripts sessionId) labels) := by
  constructor
  · have hrecorded : transcriptSystem.Always Recorded (noTranscripts sessionId) labels :=
      (System.along_true _ labels).always (recorded_noTranscripts sessionId)
        fun s l s' h _ hs => recorded_step h hs
    have hboth : transcriptSystem.Always (fun s => Recorded s ∧ PendingUnderWay s)
        (noTranscripts sessionId) labels ↔
        transcriptSystem.Along (fun s label => threadResolves s label = true)
          (noTranscripts sessionId) labels := by
      refine System.always_iff_along (Q := fun _ _ => True) ?_
        ⟨recorded_noTranscripts sessionId, pendingUnderWay_noTranscripts sessionId⟩
        (System.along_true _ _)
      intro s label s' h _ hs
      rw [and_iff_right (recorded_step h.1 hs)]
      exact pendingUnderWay_step h.1 h.2 hs
    rw [← hboth]
    constructor
    · exact fun h => hrecorded.and h
    · exact fun h => h.mono fun _ => And.right
  · intro halong
    have hboth : transcriptSystem.Always (fun s => Recorded s ∧ Single s)
        (noTranscripts sessionId) labels :=
      halong.always ⟨recorded_noTranscripts sessionId, single_noTranscripts sessionId⟩
        fun s label s' h hc hs => ⟨recorded_step h.1 hs, single_step h.1 h.2 hc hs⟩
    exact hboth.mono fun s h => h.2.oneTask

/-- The stretches of a transcript that nothing comes between, as far as they go. -/
def transcriptLabels (handlingId runId hex : String) (metadata : Metadata) :
    List TranscriptLabel :=
  [.deliver handlingId runId metadata, .resolveThread handlingId, .createTask handlingId hex,
    .recordTask handlingId]

/-! ## Two runs that fail -/

def talkingPersona : Persona :=
  { personaId := "persona-1", name := "Ada", broDetailSessionId := "detail-1" }

/-- A task of the persona on its thread. -/
def talkingTask (taskId : String) : Task :=
  { taskId := taskId
    rootTaskId := taskId
    title := "Talk"
    goal := "Talk"
    metadata := setAll Table.empty
      [("persona_id", .str "persona-1"), ("target_thread_id", .str "thread-1")] }

def talkingRun (runId taskId : String) : ExecutionRun :=
  { runId := runId, taskId := taskId, executionSessionId := "session-1", executorType := "codex" }

/-- Two tasks of one persona, with a run each. -/
def talkingSession : BroSession :=
  let board := (Blackboard.empty.putPersona talkingPersona).putTask (talkingTask "task-1")
  let board := (board.putTask (talkingTask "task-2")).putRun (talkingRun "run-1" "task-1")
  { (noTranscripts "session-1").session with board := board.putRun (talkingRun "run-2" "task-2") }

def transcriptMetadata (threadId : String) : Metadata :=
  setAll Table.empty
    [("source", .str "executor_node_whisper"), ("source_audio_instruction_id", .str "aud-1"),
      ("transcript_text", .str "Run the tests."), ("target_thread_id", .str threadId)]

/-- The thread that the transcript names is not known. -/
def lostThreadRun : List TranscriptLabel :=
  [.write talkingSession, .deliver "handling-1" "run-1" (transcriptMetadata "thread-2"),
    .resolveThread "handling-1"]

/-- The transcript arrives on both runs. -/
def twoRunsRun : List TranscriptLabel :=
  .write talkingSession ::
    (transcriptLabels "handling-1" "run-1" "1a" (transcriptMetadata "thread-1") ++
      transcriptLabels "handling-2" "run-2" "2b" (transcriptMetadata "thread-1"))

/-- A transcript whose thread does not resolve stays pending, and one that arrives on two runs
leads to two tasks. -/
theorem transcripts_lost_and_doubled : (¬ ∀ sessionId labels,
      transcriptSystem.Always PendingUnderWay (noTranscripts sessionId) labels) ∧
    ¬ ∀ sessionId labels, transcriptSystem.Always OneTaskEach (noTranscripts sessionId) labels := by
  constructor
  · intro h
    have hrun : (transcriptSystem.run (noTranscripts "session-1") lostThreadRun).isSome = true := by
      decide
    have hlaw := (h "session-1" lostThreadRun).at_end (System.run_eq_target hrun)
    have hpending : recordOf (transcriptSystem.target (noTranscripts "session-1")
        lostThreadRun).session.board "task-1" "aud-1" = some (some "pending") := by
      decide +kernel
    obtain ⟨handling, hmem, -⟩ := hlaw "task-1" "aud-1" hpending
    have hnone : (transcriptSystem.target (noTranscripts "session-1")
        lostThreadRun).handlings.entries.length = 0 := by
      decide
    rw [length_eq_zero_iff.mp hnone] at hmem
    cases hmem
  · intro h
    have hrun : (transcriptSystem.run (noTranscripts "session-1") twoRunsRun).isSome = true := by
      decide
    have hlaw := (h "session-1" twoRunsRun).at_end (System.run_eq_target hrun)
    have hcreated : (transcriptSystem.target (noTranscripts "session-1") twoRunsRun).created.map
        Prod.fst = ["aud-1", "aud-1"] := by
      decide
    unfold OneTaskEach at hlaw
    rw [hcreated] at hlaw
    exact absurd hlaw (by decide)

end Newbro.BroThreads
