import Newbro.Blackboard

/-!
# Task summaries

The user-visible summary of a task, derived from the task and its run, and the fixed
summaries that commands and failures write themselves.
-/
namespace Newbro.SummaryManager

open Library Protocol

variable (task : Task)

/-- A summary whose operational and conversational texts agree. -/
def plainSummary (text : Option String) (status : String) (needsUserInput : Bool) :
    TaskSummary :=
  { taskId := task.taskId
    operationalSummary := text
    conversationalSummary := text
    latestUserVisibleStatus := some status
    needsUserInput := needsUserInput }

def queuedSummary : TaskSummary :=
  { taskId := task.taskId
    operationalSummary := some ("Queued: " ++ task.title)
    conversationalSummary := some ("I queued " ++ task.title ++ " again.")
    latestUserVisibleStatus := some "queued" }

def pausedSummary : TaskSummary :=
  { taskId := task.taskId
    operationalSummary := some ("Paused: " ++ task.title)
    conversationalSummary := some ("I paused " ++ task.title ++ ".")
    latestUserVisibleStatus := some "paused" }

def cancelledSummary : TaskSummary :=
  { taskId := task.taskId
    operationalSummary := some ("Cancelled: " ++ task.title)
    conversationalSummary := some ("I won't continue with " ++ task.title ++ ".")
    latestUserVisibleStatus := some "cancelled" }

def unknownExecutorSummary (executorType : String) : TaskSummary :=
  { taskId := task.taskId
    operationalSummary := some ("Unknown executor '" ++ executorType ++ "'.")
    conversationalSummary :=
      some ("I couldn't start this task because executor '" ++ executorType ++
        "' is not available.")
    latestUserVisibleStatus := some "failed" }

def executionFailedSummary (message : String) : TaskSummary :=
  { taskId := task.taskId
    operationalSummary := some message
    conversationalSummary :=
      some ("I couldn't start this task because execution failed: " ++ message)
    latestUserVisibleStatus := some "failed" }

/-- The summary at the end of a run: the task status decides first, then the run status. -/
def buildSummary (run : ExecutionRun) : TaskSummary :=
  match task.status with
  | .queued => queuedSummary task
  | .waitingExecutor =>
    plainSummary task
      (some (Text.orElse run.latestProgressMessage ("Waiting for executor node: " ++ task.title)))
      "waiting_executor" false
  | .paused => pausedSummary task
  | _ =>
    match run.status with
    | .blocked => plainSummary task run.blockReason "waiting_user_input" true
    | .completed =>
      plainSummary task (some (Text.orElse run.outputSummary ("Completed: " ++ task.title)))
        "completed" false
    | .failed =>
      plainSummary task (some (Text.orElse run.failureReason ("Failed: " ++ task.title)))
        "failed" false
    | .cancelled => plainSummary task (some ("Cancelled: " ++ task.title)) "cancelled" false
    | .waitingExecutor =>
      plainSummary task
        (some (Text.orElse run.latestProgressMessage
          ("Waiting for executor node: " ++ task.title)))
        "waiting_executor" false
    | _ =>
      plainSummary task
        (some (Text.orElse run.latestProgressMessage ("Running: " ++ task.title)))
        "running" false

@[simp] theorem buildSummary_taskId (run : ExecutionRun) :
    (buildSummary task run).taskId = task.taskId := by
  unfold buildSummary
  split <;> [rfl; rfl; rfl; (split <;> rfl)]

end Newbro.SummaryManager
