import Newbro.SessionRuntime

/-!
# Which session a task goes on with

An execution session belongs to one executor and one node. The session that `ensure_session`
hands back for a task is to be of the executor that will run the task and of the task's node. A
session that is found by its continuity key is compared with both; the one that a binding names
is taken as it is.
-/
namespace Newbro.SessionManager

open Library Protocol

/-- The node that a task names. -/
def taskExecutorNode (task : Task) : Option String := task.metadata.nonemptyStr? "executor_node_id"

/-- The session that a binding names. -/
def boundSession (b : Blackboard) (binding : SessionBinding) : Option ExecutionSession :=
  (binding.executionSessionId.filter (· ≠ "")).bind b.getSession

/-- The session that a task can join. -/
def reusableSession (b : Blackboard) (executorType : String) (task : Task) :
    Option ExecutionSession :=
  (taskContinuityKey task).bind fun continuityKey =>
    findReusableSession b continuityKey executorType (taskExecutorNode task)

/-- The execution session is of the executor and of the task's node, and the live session is of
the executor. -/
structure Ensured.Respects (ensured : Ensured) (executorType : String) (task : Task) : Prop where
  executor : ensured.session.baseExecutorId = executorType
  node : ensured.session.executorNodeId = taskExecutorNode task
  live : ensured.executorSession.executorType = executorType

/-- A session that is held live for an execution session is of the executor. -/
def LiveOfType (live : LiveSessions) (executorType : String) (session : ExecutionSession) : Prop :=
  ∀ cached ∈ live.get session.executionSessionId, cached.executorType = executorType

/-- A bound session is of the executor, with a live session of it if any, and is of no node if the
task names none; where there is no bound session, the live session of one that can be joined is of
the executor. -/
def Reusable (b : Blackboard) (live : LiveSessions) (executorType : String) (task : Task)
    (binding : SessionBinding) : Prop :=
  match boundSession b binding with
  | some existing =>
    existing.baseExecutorId = executorType ∧
      (taskExecutorNode task = none → existing.executorNodeId = none) ∧
      LiveOfType live executorType existing
  | none => ∀ session ∈ reusableSession b executorType task, LiveOfType live executorType session

section Ensure

variable (b : Blackboard) (live : LiveSessions) (executorType : String) (task : Task)
  (binding : SessionBinding) (created : ExecutorSession) (freshId : String)

/-- The three ways of `ensure_session`. -/
theorem ensureSession_eq :
    ensureSession b live executorType task binding created freshId =
      match boundSession b binding with
      | some existing => reuseBoundSession b live existing binding (taskExecutorNode task) created
      | none =>
        match reusableSession b executorType task with
        | some session => joinReusableSession b live session binding (taskExecutorNode task) created
        | none =>
          openSession b live executorType task binding (taskExecutorNode task) created
            freshId :=
  rfl

/-- A session that can be joined is of the executor and of the task's node. -/
theorem of_reusableSession {session : ExecutionSession}
    (h : reusableSession b executorType task = some session) :
    session.baseExecutorId = executorType ∧ session.executorNodeId = taskExecutorNode task := by
  obtain ⟨continuityKey, -, hfind⟩ := Option.bind_eq_some_iff.mp h
  have hmem := List.mem_of_getLast? hfind
  have hfound := (List.mem_filter.mp hmem).2
  simp only [Bool.and_eq_true, decide_eq_true_eq] at hfound
  exact ⟨hfound.1.2, hfound.2⟩

/-- What is handed back for a bound session. -/
theorem reuseBoundSession_eq (existing : ExecutionSession) (node : Option String) :
    let ensured := reuseBoundSession b live existing binding node created
    ensured.session.baseExecutorId = existing.baseExecutorId ∧
      ensured.session.executorNodeId = node.or existing.executorNodeId ∧
      ensured.executorSession = (live.get existing.executionSessionId).getD
        (hydrateResumeHandle created existing.latestResumeHandle) := by
  have hnode : (if (node.isSome && decide (existing.executorNodeId ≠ node)) = true then
      { existing with executorNodeId := node } else existing) =
        { existing with executorNodeId := node.or existing.executorNodeId } := by
    cases node with
    | none => rfl
    | some nodeId =>
      by_cases hsame : existing.executorNodeId = some nodeId
      · have hstays : ({ existing with executorNodeId := some nodeId } : ExecutionSession) =
            existing := by
          rw [← hsame]
        simp [hsame, hstays]
      · simp [hsame]
  intro ensured
  simp only [ensured, reuseBoundSession, hnode]
  cases live.get existing.executionSessionId with
  | none | some => exact ⟨rfl, rfl, rfl⟩

theorem live_getD_iff {executorType : String} {created : ExecutorSession}
    (hcreated : created.executorType = executorType) (session : ExecutionSession) :
    ((live.get session.executionSessionId).getD
        (hydrateResumeHandle created session.latestResumeHandle)).executorType = executorType ↔
      LiveOfType live executorType session := by
  unfold LiveOfType
  cases live.get session.executionSessionId with
  | none => exact iff_of_true hcreated (fun cached h => by cases h)
  | some cached => simp

/-- What is handed back is of the executor and of the node exactly if what is reused is. -/
theorem ensureSession_respects_iff {executorType : String} {created : ExecutorSession}
    (hcreated : created.executorType = executorType) :
    (ensureSession b live executorType task binding created freshId).Respects executorType task ↔
      Reusable b live executorType task binding := by
  rw [ensureSession_eq, Reusable]
  cases boundSession b binding with
  | some existing =>
    obtain ⟨hbase, hnode, hlive⟩ :=
      reuseBoundSession_eq b live binding created existing (taskExecutorNode task)
    dsimp only
    rw [← live_getD_iff live hcreated existing, ← hlive]
    constructor
    · intro h
      refine ⟨hbase ▸ h.executor, fun hnone => ?_, h.live⟩
      have hsame := hnode.symm.trans h.node
      rw [hnone, Option.none_or] at hsame
      exact hsame
    · rintro ⟨hexecutor, hnone, hcached⟩
      refine ⟨hbase.trans hexecutor, hnode.trans ?_, hcached⟩
      cases htask : taskExecutorNode task with
      | none => exact hnone htask
      | some node => rfl
  | none =>
    dsimp only
    cases hreusable : reusableSession b executorType task with
    | none =>
      refine iff_of_true ⟨rfl, rfl, ?_⟩ (fun session h => by cases h)
      unfold openSession
      dsimp only
      cases taskImportedResumeHandle task with
      | none => exact hcreated
      | some handle => exact hcreated
    | some session =>
      obtain ⟨hbase, hnode⟩ := of_reusableSession b executorType task hreusable
      have hlive := live_getD_iff live hcreated session
      constructor
      · intro h other hother
        cases hother
        exact hlive.mp h.live
      · intro h
        exact ⟨hbase, hnode, hlive.mpr (h session rfl)⟩

end Ensure

/-- A first task of a bro, for which nothing can be reused. -/
def firstTask : Task :=
  { taskId := "task-1"
    rootTaskId := "task-1"
    title := "Build"
    goal := "Build it"
    metadata := Dict.set Table.empty "executor_node_id" (.str "node-1") }

theorem ensureSession_respects_first :
    (ensureSession Blackboard.empty LiveSessions.empty "codex" firstTask { taskId := "task-1" }
        ⟨"codex-hosted-1", "codex", none⟩ "exec-session-1").Respects "codex" firstTask ↔
      Reusable Blackboard.empty LiveSessions.empty "codex" firstTask { taskId := "task-1" } :=
  ensureSession_respects_iff Blackboard.empty LiveSessions.empty firstTask { taskId := "task-1" }
    "exec-session-1" rfl

/-! ## A task that changes its executor

The node of a task goes away, the task is given another executor, and it is taken up again. -/

open SessionRuntime in
def twoExecutors : SessionCommands.Config :=
  { codexConfig with
    registry := codexConfig.registry.put { executorType := "acpx", supportsResume := true } }

open SessionRuntime in
def reroutedLabels : List Label :=
  createLabels "creation-1" "task-1" ++ tickLabels ++
    executeLabels "task-1" "session-1" "run-1" ++
    [.runEvent "task-1" ⟨"run-1", "session-1", .waitingExecutor, some "offline", Table.empty⟩ none,
      .finishTick, .updateTask "task-1" { preferredExecutor := some (some "acpx") },
      .requeueWaiting fun _ _ => true] ++
    tickLabels ++ [.lookupExecutor "task-1"]

open SessionRuntime in
theorem ensureSession_mixes_executors :
    ¬ ∀ (cfg : SessionCommands.Config) (s : SessionState), (system cfg).Reachable s →
      ∀ c ∈ s.coroutine? "task-1", ∀ task ∈ s.board.getTask "task-1", ∀ executorType,
        c.stage = .ready executorType → ∀ (created : ExecutorSession) (freshId : String),
          created.executorType = executorType →
            (ensureSession s.board s.live executorType task c.claimed created freshId).Respects
              executorType task := by
  intro h
  have hrespects := h twoExecutors (reached twoExecutors reroutedLabels)
    (reachable_reached twoExecutors reroutedLabels)
    (((reached twoExecutors reroutedLabels).coroutine? "task-1").get (by decide))
    (Option.get_mem _)
    (((reached twoExecutors reroutedLabels).board.getTask "task-1").get (by decide))
    (Option.get_mem _) "acpx" (by decide)
    ⟨"executor-session-2", "acpx", none⟩ "session-2" rfl
  have hbase := hrespects.executor
  revert hbase
  decide

end Newbro.SessionManager
