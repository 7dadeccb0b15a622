import Newbro.Blackboard

/-!
# Claims and execution sessions

`AssignmentManager.claim_task` claims the binding of a task for the worker of the
session, and `SessionManager.ensure_session` finds the execution session a claimed task
runs on: the one it is bound to, one that shares its continuity key, or a new one.
-/
namespace Newbro.SessionManager

open Library Protocol

/-- The lease of a claim, in seconds. -/
def leaseSeconds : Nat := 300

variable (binding : SessionBinding)

def claimIsActive (now : Nat) : Bool :=
  match binding.claimExpiresAt with
  | none => false
  | some expiresAt => now < expiresAt

variable (b : Blackboard)

/-- Claim a task, unless another worker holds an unexpired claim on it. -/
def claimTask (workerId : String) (now : Nat) (task : Task) :
    Option (Blackboard × SessionBinding) :=
  let binding := b.getBinding task.taskId
  let heldByOther := binding.any fun binding =>
    claimIsActive binding now && binding.claimedBy ≠ none && binding.claimedBy ≠ some workerId
  if heldByOther then none
  else
    let claimed : SessionBinding :=
      { taskId := task.taskId
        executionSessionId := binding.bind SessionBinding.executionSessionId
        sessionId := binding.bind SessionBinding.sessionId
        claimedBy := some workerId
        claimExpiresAt := some (now + leaseSeconds)
        executionRevision := task.taskRevision
        bindingStatus := .claimed }
    some (b.putBinding claimed, claimed)

/-- The binding given back by a finished, failed or cancelled run. -/
def releasedBinding : SessionBinding :=
  { binding with claimedBy := none, claimExpiresAt := none, bindingStatus := .released }

def pausedBinding : SessionBinding :=
  { binding with claimedBy := none, claimExpiresAt := none, bindingStatus := .paused }

/-- The executor sessions held in memory: the objects, and which execution session each
one serves at present. -/
structure LiveSessions where
  objects : Table ExecutorSession.sessionId
  bySession : Dict String String

namespace LiveSessions

def empty : LiveSessions := ⟨Table.empty, Table.empty⟩

instance : Inhabited LiveSessions := ⟨empty⟩

variable (live : LiveSessions)

variable (executionSessionId : String)

/-- `_live_sessions.get(execution_session_id)` -/
def get : Option ExecutorSession :=
  (Dict.lookup live.bySession executionSessionId).bind live.objects.get?

def set (session : ExecutorSession) :
    LiveSessions :=
  ⟨live.objects.put session, Dict.set live.bySession executionSessionId session.sessionId⟩

/-- `drop_live_session`: the object itself may still be in use by a running turn. -/
def drop : LiveSessions :=
  { live with bySession := Table.erase live.bySession executionSessionId }

/-- Keep the resume handle that an event envelope carries. -/
def setResumeHandle (sessionId : String) (handle : AgentResumeHandle) :
    LiveSessions :=
  match live.objects.get? sessionId with
  | none => live
  | some session =>
    { live with objects := live.objects.put { session with latestResumeHandle := some handle } }

end LiveSessions

/-- `_hydrate_resume_handle`: the stored handle replaces whatever the session held. -/
def hydrateResumeHandle (session : ExecutorSession) (handle : Option AgentResumeHandle) :
    ExecutorSession :=
  { session with latestResumeHandle := handle }

variable (task : Task)

/-- The key under which tasks of one thread share an execution session. -/
def taskContinuityKey : Option String :=
  match task.metadata.nonemptyStr? "bro_thread_id" with
  | some thread => some thread
  | none => task.metadata.nonemptyStr? "bro_detail_session_id"

def taskImportedResumeHandle : Option AgentResumeHandle :=
  if task.metadata.str? "codex_thread_mode" = some "resume" then
    (task.metadata.nonemptyStr? "codex_import_thread_id").map fun thread =>
      let cwd := (task.metadata.nonemptyStr? "codex_import_cwd").map fun v => ("cwd", Value.str v)
      let path :=
        (task.metadata.nonemptyStr? "codex_import_path").map fun v => ("path", Value.str v)
      { executorId := "codex"
        sessionHandle := some thread
        opaqueFields := cwd.toList ++ path.toList }
  else none

/-- The latest session with the same key, executor and node. -/
def findReusableSession (continuityKey executorType : String)
    (executorNodeId : Option String) : Option ExecutionSession :=
  (b.sessions.entries.filter fun session =>
    session.continuityKey = some continuityKey && session.baseExecutorId = executorType &&
      session.executorNodeId = executorNodeId).getLast?

/-- What `ensure_session` hands back, with the store and the live sessions it leaves. -/
structure Ensured where
  board : Blackboard
  live : LiveSessions
  session : ExecutionSession
  binding : SessionBinding
  executorSession : ExecutorSession

variable (live : LiveSessions)

/-- Reuse the execution session that the binding names. `created` is the executor session
that `executor.create_session` returns, when one is needed. -/
def reuseBoundSession (existing : ExecutionSession)
    (binding : SessionBinding) (executorNodeId : Option String) (created : ExecutorSession) :
    Ensured :=
  let moved := executorNodeId.isSome && existing.executorNodeId ≠ executorNodeId
  let existing := if moved then { existing with executorNodeId := executorNodeId } else existing
  let b := if moved then b.putSession existing else b
  match live.get existing.executionSessionId with
  | some cached =>
    let active :=
      { binding with bindingStatus := .active, executorNodeId := executorNodeId }
    ⟨b.putBinding active, live, existing, active, cached⟩
  | none =>
    let session := hydrateResumeHandle created existing.latestResumeHandle
    let active :=
      { binding with
        sessionId := some session.sessionId
        executorNodeId := executorNodeId
        bindingStatus := .active }
    ⟨b.putBinding active, live.set existing.executionSessionId session, existing, active,
      session⟩

/-- Join the execution session of another task with the same continuity key. -/
def joinReusableSession (reusable : ExecutionSession)
    (binding : SessionBinding) (executorNodeId : Option String) (created : ExecutorSession) :
    Ensured :=
  let session := (live.get reusable.executionSessionId).getD
    (hydrateResumeHandle created reusable.latestResumeHandle)
  let active :=
    { binding with
      executionSessionId := some reusable.executionSessionId
      sessionId := some session.sessionId
      executorNodeId := executorNodeId
      bindingStatus := .active }
  ⟨b.putBinding active, live.set reusable.executionSessionId session, reusable, active, session⟩

variable (executorType : String)

/-- Open a new execution session for a task. -/
def openSession (task : Task)
    (binding : SessionBinding) (executorNodeId : Option String) (created : ExecutorSession)
    (freshId : String) : Ensured :=
  let imported := taskImportedResumeHandle task
  let session :=
    match imported with
    | none => created
    | some handle => hydrateResumeHandle created (some handle)
  let opened : ExecutionSession :=
    { executionSessionId := freshId
      taskId := task.taskId
      baseExecutorId := executorType
      executorNodeId := executorNodeId
      continuityKey := taskContinuityKey task
      latestResumeHandle := imported }
  let active :=
    { binding with
      executionSessionId := some freshId
      executorNodeId := executorNodeId
      sessionId := some session.sessionId
      bindingStatus := .active }
  ⟨(b.putSession opened).putBinding active, live.set freshId session, opened, active, session⟩

/-- `ensure_session`. No executor of the repository has a node id of its own, so the node
is the one that the task names. -/
def ensureSession (task : Task)
    (binding : SessionBinding) (created : ExecutorSession) (freshId : String) : Ensured :=
  let executorNodeId := task.metadata.nonemptyStr? "executor_node_id"
  match (binding.executionSessionId.filter (· ≠ "")).bind b.getSession with
  | some existing => reuseBoundSession b live existing binding executorNodeId created
  | none =>
    match (taskContinuityKey task).bind fun continuityKey =>
        findReusableSession b continuityKey executorType executorNodeId with
    | some reusable => joinReusableSession b live reusable binding executorNodeId created
    | none => openSession b live executorType task binding executorNodeId created freshId

/-- Ensuring a session touches sessions and bindings only. -/
theorem ensureSession_frame
    (task : Task) (binding : SessionBinding) (created : ExecutorSession) (freshId : String) :
    let b' := (ensureSession b live executorType task binding created freshId).board
    b'.tasks = b.tasks ∧ b'.runs = b.runs ∧ b'.summaries = b.summaries ∧
      b'.personas = b.personas ∧ b'.requests = b.requests := by
  intro b'
  simp only [b', ensureSession]
  split
  · simp only [reuseBoundSession]
    split <;> split <;> simp [Blackboard.putSession, Blackboard.putBinding]
  · split <;> simp [joinReusableSession, openSession, Blackboard.putSession, Blackboard.putBinding]

end Newbro.SessionManager
