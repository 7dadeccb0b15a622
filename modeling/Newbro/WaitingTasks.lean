import Newbro.HostedMoves

/-!
# Tasks that wait for their executor
-/
namespace Newbro.HostedRuns

open Library Protocol ExecutorNodes Reconcile

/-- The node a task is bound to. -/
def boundNode (task : Task) : Option String := task.metadata.str? "executor_node_id"

/-- The executor type that `_execute_task` falls back to is that of the configuration. -/
def executorTypeFor (defaultExecutorType : String) (task : Task) : String :=
  task.preferredExecutor.getD defaultExecutorType

/-- A bound task waits only for an executor that is not connected on its node. -/
def NoStrandedTask (defaultExecutorType : String) (s : HostedState) : Prop :=
  ∀ task ∈ s.board.tasks.entries, task.status = .waitingExecutor →
    ∀ nodeId, boundNode task = some nodeId →
      available s.manager (executorTypeFor defaultExecutorType task) (some nodeId) = false

def SocketPhase.willLookAt (taskId : String) : SocketPhase → Bool
  | .scanDue => true
  | .scanning taskIds => taskId ∈ taskIds
  | _ => false

/-- The endpoint of the websocket will still look at the task in its requeue scan. -/
def HostedState.willLookAt (s : HostedState) (websocket taskId : String) : Bool :=
  (s.sockets.get? websocket).any fun socket => socket.phase.willLookAt taskId

/-- A task that may wait on a node: its executor type is a hosted one, and this is not
connected there or the scan of the connection is still to find the task. The scan looks
only at tasks that name their executor. -/
def mayWait (s : HostedState) (defaultExecutorType : String) (task : Task) (nodeId : String) :
    Bool :=
  let executorType := executorTypeFor defaultExecutorType task
  s.manager.isDetachedExecutor executorType &&
    (!s.manager.isExecutorConnected executorType (some nodeId) ||
      task.preferredExecutor.isSome &&
        (s.manager.connectionsByNode.get? nodeId).any fun c => s.willLookAt c.websocket task.taskId)

/-- A waiting task that the scan of a new connection passes over. -/
def passedOver (defaultExecutorType : String) (c : NodeConnection) (task : Task) : Bool :=
  task.status = .waitingExecutor && boundNode task = some c.nodeId &&
    task.preferredExecutor.isNone && defaultExecutorType ∈ c.executors

/-- A step that marks a bound task as waiting finds that it may wait, and a node connects
with the default executor type only when no task waits there for want of its own. -/
def strandsNoTask (defaultExecutorType : String) (s : HostedState) : Label → Bool
  | .drain runId =>
    (s.runs.get? runId).all fun run =>
      match run.queue, s.board.getTask run.taskId with
      | event :: _, some task =>
        event.eventType ≠ .waitingExecutor || RunManager.ignores task event ||
          (boundNode task).all fun nodeId => mayWait s defaultExecutorType task nodeId
      | _, _ => true
  | .register c => s.board.tasks.entries.all fun task => !passedOver defaultExecutorType c task
  | _ => true

/-- Every bound task that waits may wait. -/
def WaitersFound (defaultExecutorType : String) (s : HostedState) : Prop :=
  ∀ task ∈ s.board.tasks.entries, task.status = .waitingExecutor →
    ∀ nodeId, boundNode task = some nodeId → mayWait s defaultExecutorType task nodeId = true

variable {defaultExecutorType : String}

variable {s : HostedState} {task : Task}

theorem mayWait_iff {nodeId : String} : mayWait s defaultExecutorType task nodeId = true ↔
      executorTypeFor defaultExecutorType task ∈ s.manager.detachedExecutorTypes ∧
        ∀ c, s.manager.connectionsByNode.get? nodeId = some c →
          executorTypeFor defaultExecutorType task ∈ c.executors →
            task.preferredExecutor.isSome = true ∧ s.willLookAt c.websocket task.taskId = true := by
  unfold mayWait NodeManager.isExecutorConnected NodeManager.isDetachedExecutor
  cases hc : s.manager.connectionsByNode.get? nodeId with
  | none => simp [hc]
  | some c => by_cases he : executorTypeFor defaultExecutorType task ∈ c.executors <;> simp [hc, he]

variable {socket : Socket}

section frames

variable {s s' : HostedState} {task : Task} {nodeId : String}

/-- A task goes on to wait rightly when its node gets no other connection and no scan gives
the task up. -/
theorem mayWait_frame (h : mayWait s defaultExecutorType task nodeId = true)
    (htypes : s'.manager.detachedExecutorTypes = s.manager.detachedExecutorTypes)
    (hconn : ∀ c, s'.manager.connectionsByNode.get? nodeId = some c →
      s.manager.connectionsByNode.get? nodeId = some c)
    (hlook : ∀ websocket, s.willLookAt websocket task.taskId = true →
      s'.willLookAt websocket task.taskId = true) :
    mayWait s' defaultExecutorType task nodeId = true := by
  obtain ⟨hd, hfound⟩ := mayWait_iff.mp h
  refine mayWait_iff.mpr ⟨htypes ▸ hd, fun c hc he => ?_⟩
  exact (hfound c (hconn c hc) he).imp_right (hlook c.websocket)

/-- What holds of the waiting tasks depends on the tasks, the connections and the scans. -/
theorem waitersFound_frame (h : WaitersFound defaultExecutorType s)
    (htasks : s'.board.tasks = s.board.tasks)
    (htypes : s'.manager.detachedExecutorTypes = s.manager.detachedExecutorTypes)
    (hconn : ∀ nodeId c, s'.manager.connectionsByNode.get? nodeId = some c →
      s.manager.connectionsByNode.get? nodeId = some c)
    (hlook : ∀ task ∈ s.board.tasks.entries, ∀ websocket,
      s.willLookAt websocket task.taskId = true →
        s'.willLookAt websocket task.taskId = true) : WaitersFound defaultExecutorType s' := by
  intro task hmem hstatus nodeId hnode
  rw [htasks] at hmem
  exact mayWait_frame (h task hmem hstatus nodeId hnode) htypes (hconn nodeId) (hlook task hmem)

/-- The endpoint of a websocket goes on to another phase. -/
theorem willLookAt_putSocket {socket' : Socket} {taskId websocket : String}
    (hsocket : s.sockets.get? socket.websocket = some socket)
    (hsockets : s'.sockets = s.sockets.put socket') (hws : socket'.websocket = socket.websocket)
    (hphase : socket.phase.willLookAt taskId = true → socket'.phase.willLookAt taskId = true)
    (h : s.willLookAt websocket taskId = true) : s'.willLookAt websocket taskId = true := by
  unfold HostedState.willLookAt at h ⊢
  rw [hsockets, Table.get?_put, hws]
  by_cases hw : socket.websocket = websocket
  · subst hw
    rw [hsocket] at h
    simpa using hphase (by simpa using h)
  · simpa [hw] using h

section

variable (h : WaitersFound defaultExecutorType s)
include h

/-- A step that only moves an endpoint, and no scan past a task. -/
theorem waitersFound_putSocket {socket' : Socket}
    (hsocket : s.sockets.get? socket.websocket = some socket)
    (hsockets : s'.sockets = s.sockets.put socket') (hws : socket'.websocket = socket.websocket)
    (hphase : ∀ task ∈ s.board.tasks.entries,
      socket.phase.willLookAt task.taskId = true → socket'.phase.willLookAt task.taskId = true)
    (htasks : s'.board.tasks = s.board.tasks) (hmanager : s'.manager = s.manager) :
    WaitersFound defaultExecutorType s' :=
  waitersFound_frame h htasks (by rw [hmanager])
    (fun nodeId c hc => by rwa [hmanager] at hc)
    fun task hmem _ => willLookAt_putSocket hsocket hsockets hws (hphase task hmem)

theorem waitersFound_send (turn : NodeTurn) (event : ExecutorEvent)
    (hsockets : s'.sockets = deliver s.sockets turn.websocket (turn.runId, event))
    (htasks : s'.board.tasks = s.board.tasks) (hmanager : s'.manager = s.manager) :
    WaitersFound defaultExecutorType s' := by
  refine waitersFound_frame h htasks (by rw [hmanager])
    (fun nodeId c hc => by rwa [hmanager] at hc) fun task hmem websocket hlook => ?_
  unfold deliver at hsockets
  split at hsockets
  · unfold HostedState.willLookAt at hlook ⊢
    rwa [hsockets]
  · rename_i socket hsocket
    have hself : s.sockets.get? socket.websocket = some socket := by rwa [Table.key_of_get? hsocket]
    exact willLookAt_putSocket hself hsockets rfl id hlook

/-- The tasks of a store after a task is put over one of the same name. -/
theorem waitersFound_putTask {task' : Task} (htasks : s'.board.tasks = s.board.tasks.put task')
    (hmanager : s'.manager = s.manager) (hsockets : s'.sockets = s.sockets)
    (htask' : task'.status = .waitingExecutor →
      ∀ nodeId, boundNode task' = some nodeId → mayWait s defaultExecutorType task' nodeId = true) :
    WaitersFound defaultExecutorType s' := by
  intro t hmem hstatus nodeId hnode
  have hwait : mayWait s defaultExecutorType t nodeId = true := by
    rw [htasks] at hmem
    rcases Table.mem_put.mp hmem with rfl | ⟨hold, -⟩
    · exact htask' hstatus nodeId hnode
    · exact h t hold hstatus nodeId hnode
  refine mayWait_frame hwait (by rw [hmanager]) (fun c hc => by rwa [hmanager] at hc) ?_
  intro websocket hlook
  unfold HostedState.willLookAt at hlook ⊢
  rwa [hsockets]

end

end frames

/-! ## What the steps do -/

variable {s' : HostedState}

theorem waitersFound_disconnect {websocket cleanupId reason : String}
    (h : WaitersFound defaultExecutorType s) (hdrop : disconnect s websocket cleanupId reason = some s') :
    WaitersFound defaultExecutorType s' := by
  rcases (disconnect_cases hdrop).2 with ⟨-, rfl⟩ | ⟨nodeId, -, rfl⟩
  · exact h
  · refine waitersFound_frame h rfl rfl (fun node c hc => ?_) fun _ _ _ hlook => hlook
    rw [Table.get?_erase] at hc
    by_cases hn : nodeId = node
    · simp [hn] at hc
    · simpa [hn] using hc

theorem waitersFound_register {c : NodeConnection} {manager : NodeManager}
    (h : WaitersFound defaultExecutorType s)
    (hpassed : strandsNoTask defaultExecutorType s (.register c) = true)
    (hnew : s.sockets.get? c.websocket = none)
    (hregister : s.manager.registerConnection c = some manager) :
    WaitersFound defaultExecutorType
      { s with manager := manager, sockets := s.sockets.put ⟨c.websocket, .scanDue, []⟩ } := by
  obtain ⟨-, rfl⟩ := registerConnection_cases hregister
  intro task hmem hstatus nodeId hnode
  obtain ⟨hd, hfound⟩ := mayWait_iff.mp (h task hmem hstatus nodeId hnode)
  refine mayWait_iff.mpr ⟨hd, fun c' hc' he => ?_⟩
  have hc' : (s.manager.connectionsByNode.put c).get? nodeId = some c' := hc'
  unfold HostedState.willLookAt
  rw [Table.get?_put]
  rw [Table.get?_put] at hc'
  by_cases hn : c.nodeId = nodeId
  · -- the new connection of the node has its whole scan ahead
    obtain rfl : c = c' := by simpa [hn] using hc'
    have hover := List.all_eq_true.mp hpassed task hmem
    have hsome : task.preferredExecutor.isSome = true := by
      cases hp : task.preferredExecutor with
      | some executorType => rfl
      | none =>
        have hdefault : defaultExecutorType ∈ c.executors := by simpa [executorTypeFor, hp] using he
        simp [passedOver, hstatus, hnode, hn, hp, hdefault] at hover
    exact ⟨hsome, by simp [SocketPhase.willLookAt]⟩
  · have hold := hfound c' (by simpa [hn] using hc') he
    refine ⟨hold.1, ?_⟩
    by_cases hw : c.websocket = c'.websocket
    · simp [HostedState.willLookAt, ← hw, hnew] at hold
    · simpa [hw, HostedState.willLookAt] using hold.2

/-- The scan requeues the task it looks at, or finds that its executor is not there. -/
theorem requeueTask_waiters (htask : s.board.getTask task.taskId = some task) :
    ∀ t ∈ (SessionRuntime.requeueTask (available s.manager) s.board task).tasks.entries,
      t.status = .waitingExecutor → ∀ nodeId, boundNode t = some nodeId →
        t ∈ s.board.tasks.entries ∧ (t.taskId = task.taskId →
          ∀ executorType, t.preferredExecutor = some executorType →
            available s.manager executorType (some nodeId) = false) := by
  intro t hmem hstatus nodeId hnode
  unfold SessionRuntime.requeueTask at hmem
  by_cases hq : SessionRuntime.requeueable (available s.manager) task
  · simp only [hq, if_true, Blackboard.tasks_putSummary, Blackboard.tasks_putTask] at hmem
    rcases Table.mem_put.mp hmem with rfl | ⟨hold, hne⟩
    · cases hstatus
    · exact ⟨hold, fun he => absurd he hne⟩
  · simp only [hq] at hmem
    refine ⟨hmem, fun he executorType hp => ?_⟩
    obtain rfl : t = task := Table.eq_of_key_eq _ hmem (Table.mem_of_get? htask) he
    have hnode' : t.metadata.str? "executor_node_id" = some nodeId := hnode
    simpa [SessionRuntime.requeueable, hstatus, hp, hnode'] using hq

theorem willLookAt_congr (h : s'.sockets = s.sockets) (websocket : String)
    (taskId : String) : s'.willLookAt websocket taskId = s.willLookAt websocket taskId := by
  unfold HostedState.willLookAt
  rw [h]

section

variable (h : WaitersFound defaultExecutorType s)
include h

theorem waitersFound_scanLooks
    {taskIds : List String}
    (hsocket : s.sockets.get? socket.websocket = some socket)
    (hphase : socket.phase = .scanning (task.taskId :: taskIds))
    (htask : s.board.getTask task.taskId = some task) :
    WaitersFound defaultExecutorType ({ s with
      board := SessionRuntime.requeueTask (available s.manager) s.board task }.setPhase socket
        (.scanning taskIds)) := by
  intro t hmem hstatus nodeId hnode
  obtain ⟨hold, hlooked⟩ := requeueTask_waiters htask t hmem hstatus nodeId hnode
  have hwait := h t hold hstatus nodeId hnode
  by_cases ht : t.taskId = task.taskId
  · obtain ⟨hd, hfound⟩ := mayWait_iff.mp hwait
    refine mayWait_iff.mpr ⟨hd, fun c hc he => ?_⟩
    -- the scan was to find the task, so its own executor type is not there after all
    have hc' : s.manager.connectionsByNode.get? nodeId = some c := hc
    obtain ⟨executorType, hp⟩ := Option.isSome_iff_exists.mp (hfound c hc' he).1
    have he' : executorType ∈ c.executors := by simpa [executorTypeFor, hp] using he
    have hthere : available s.manager executorType (some nodeId) = true := by
      refine (executorAvailability_some s.manager executorType nodeId).mpr fun _ => ?_
      simp [NodeManager.isExecutorConnected, hc', he']
    rw [hlooked ht executorType hp] at hthere
    cases hthere
  · refine mayWait_frame hwait rfl (fun c hc => hc) fun websocket hlook => ?_
    refine willLookAt_putSocket (s := s) hsocket rfl rfl (fun hlooks => ?_) hlook
    rw [hphase] at hlooks
    simpa [SocketPhase.willLookAt, ht] using hlooks

theorem waitersFound_drain {run : HostedRun} {record : ExecutionRun}
    {event : ExecutorEvent} {queue : List ExecutorEvent} (hrun : s.runs.get? run.runId = some run)
    (hqueue : run.queue = event :: queue) (htask : s.board.getTask run.taskId = some task)
    (hpark : strandsNoTask defaultExecutorType s (.drain run.runId) = true)
    (hboard : s'.board = RunManager.applyEvent s.board task record event)
    (hmanager : s'.manager = s.manager) (hsockets : s'.sockets = s.sockets) :
    WaitersFound defaultExecutorType s' := by
  by_cases hi : RunManager.ignores task event
  · refine waitersFound_frame h ?_ (by rw [hmanager])
      (fun nodeId c hc => by rwa [hmanager] at hc) fun task _ websocket hlook => ?_
    · rw [hboard, RunManager.applyEvent, if_pos hi]
    · rwa [willLookAt_congr hsockets]
  · have htasks : s'.board.tasks =
        s.board.tasks.put { task with status := RunManager.taskStatusOf event.eventType } := by
      rw [hboard, RunManager.applyEvent, if_neg hi]
      by_cases hd : RunManager.appendsDetail record event <;> simp [hd]
    refine waitersFound_putTask h htasks hmanager hsockets fun hstatus nodeId hnode => ?_
    have hwaiting : event.eventType = .waitingExecutor := by
      have hstatus' : RunManager.taskStatusOf event.eventType = .waitingExecutor := hstatus
      revert hstatus'
      cases event.eventType <;> simp [RunManager.taskStatusOf]
    have hall : (boundNode task).all fun nodeId => mayWait s defaultExecutorType task nodeId := by
      simpa [strandsNoTask, hrun, hqueue, htask, hwaiting, hi] using hpark
    have hnode' : boundNode task = some nodeId := hnode
    rw [hnode'] at hall
    exact hall

/-- A step that parks in time keeps every waiting task in reach of a scan. -/
theorem waitersFound_step {l : Label}
    (hpark : strandsNoTask defaultExecutorType s l = true) (hmove : Move s l s') : WaitersFound defaultExecutorType s' := by
  cases hmove with
  | createTask hnew hstatus | writeStatus htask hstatus =>
    exact waitersFound_putTask h rfl rfl rfl fun hwaiting => absurd hwaiting hstatus
  | sendFails hrun hstage hws hdrop => exact waitersFound_disconnect (by exact h) hdrop
  | disconnect hdrop => exact waitersFound_disconnect h hdrop
  | drain hrun hstage hqueue hrecord htask =>
    exact waitersFound_drain h hrun hqueue htask hpark rfl rfl rfl
  | register hnew hregister => exact waitersFound_register h hpark hnew hregister
  | beginScan hsocket hphase =>
    refine waitersFound_putSocket h hsocket rfl rfl (fun task hmem _ => ?_) rfl rfl
    simpa [SocketPhase.willLookAt] using ⟨task, hmem, rfl⟩
  | scanEnds hsocket hphase | accepts hsocket hphase | refuses hsocket hphase
  | publish hsocket hphase =>
    refine waitersFound_putSocket h hsocket rfl rfl (fun task hmem hlook => ?_) rfl rfl
    simp [hphase, SocketPhase.willLookAt] at hlook
  | scanSkips hsocket hphase htask =>
    refine waitersFound_putSocket h hsocket rfl rfl (fun task hmem hlook => ?_) rfl rfl
    have hne : task.taskId ≠ _ := Table.get?_eq_none_iff.mp htask task hmem
    simpa [hphase, SocketPhase.willLookAt, hne] using hlook
  | scanLooks hsocket hphase htask => exact waitersFound_scanLooks h hsocket hphase htask
  | emit | followUpEvent => exact waitersFound_send h _ _ rfl rfl rfl
  | dispatchRun | finishRun | detaches =>
    exact waitersFound_frame h rfl rfl (fun _ _ => id) fun _ _ _ => id
  | connectionGone | connectionFound | sent | dropped | snapshotRuns | cleanupEnds
  | detachSkips | supplyAnswer | acceptFollowUp => exact h

end

theorem waitersFound_initially (types : List String) :
    WaitersFound defaultExecutorType (initialState types) := by
  intro task hmem
  cases hmem

/-- With no step pending, no scan is due on a websocket that is connected. -/
theorem willLookAt_of_noStepPending (hq : NoStepPending s)
    {c : NodeConnection} (hc : c ∈ s.manager.connectionsByNode.entries) (taskId : String) :
    s.willLookAt c.websocket taskId = false := by
  unfold HostedState.willLookAt
  cases hsocket : s.sockets.get? c.websocket with
  | none => rfl
  | some socket =>
    have hrest := hq.2.2 socket (Table.mem_of_get? hsocket)
    have hconnected : s.manager.isConnected socket.websocket = true := by
      rw [Table.key_of_get? hsocket]
      exact isConnected_iff.mpr ⟨c, hc, rfl⟩
    unfold Socket.atRest at hrest
    cases hphase : socket.phase <;> simp_all [SocketPhase.willLookAt]

/-- In every run whose steps strand no task, no task waits for an executor that is connected
on its node whenever no step is pending. -/
theorem no_stranded_task (types : List String) (defaultExecutorType : String)
    {s : HostedState}
    (hreach : (system types).ReachableUnder
      (fun s l => strandsNoTask defaultExecutorType s l = true) s)
    (hq : NoStepPending s) : NoStrandedTask defaultExecutorType s := by
  have hfound : WaitersFound defaultExecutorType s := by
    obtain ⟨s₀, hinit, hsteps⟩ := hreach
    refine hsteps.invariant ?_ fun s l s' hI hpark hs =>
      waitersFound_step hI hpark (move_of_step hs)
    obtain rfl : s₀ = initialState types := hinit
    exact waitersFound_initially types
  intro task hmem hstatus nodeId hnode
  obtain ⟨hd, hscan⟩ := mayWait_iff.mp (hfound task hmem hstatus nodeId hnode)
  cases havailable : available s.manager (executorTypeFor defaultExecutorType task) (some nodeId)
  · rfl
  · -- the executor would be connected, and its connection through with the scan
    have hconnected := (executorAvailability_some s.manager
      (executorTypeFor defaultExecutorType task) nodeId).mp havailable (by
        simpa [NodeManager.isDetachedExecutor] using hd)
    unfold NodeManager.isExecutorConnected at hconnected
    cases hc : s.manager.connectionsByNode.get? nodeId with
    | none => simp [hc] at hconnected
    | some c =>
      have hlook := (hscan c hc (by simpa [hc] using hconnected)).2
      rw [willLookAt_of_noStepPending hq (Table.mem_of_get? hc)] at hlook
      cases hlook

/-- The connection is lost, the node comes back only after the run waits for it. -/
def waitingLabels : List Label :=
  connectLabels "ws-1" 0 ++ [.createTask exampleTask] ++ dispatchLabels ++
    disconnectLabels "ws-1" ++ [.drain "run-1", .finishRun "run-1"]

theorem no_stranded_task_waiting : NoStrandedTask "mock" (reached waitingLabels) :=
  no_stranded_task ["codex"] "mock"
    (System.ReachableUnder.target (C := strandsNoTask "mock") rfl (by decide)) (by decide)

/-- The node comes back and scans while the waiting event is still in the queue. -/
def lostWakeupLabels : List Label :=
  connectLabels "ws-1" 0 ++ [.createTask exampleTask] ++ dispatchLabels ++
    disconnectLabels "ws-1" ++ connectLabels "ws-2" 1 ++ [.drain "run-1", .finishRun "run-1"]

theorem stranded_task : ¬ ∀ (types : List String) (defaultExecutorType : String) (s : HostedState),
      (system types).Reachable s → NoStepPending s → NoStrandedTask defaultExecutorType s := by
  intro h
  have hlaw := h ["codex"] "mock" (reached lostWakeupLabels) (.target rfl _) (by decide)
  have hstranded : ∃ task, (reached lostWakeupLabels).board.getTask "task-1" = some task ∧
      task.status = .waitingExecutor ∧ boundNode task = some "node-1" ∧
      executorTypeFor "mock" task = "codex" := ⟨_, rfl, by decide, by decide, by decide⟩
  obtain ⟨task, htask, hstatus, hnode, htype⟩ := hstranded
  have haway := hlaw task (Table.mem_of_get? htask) hstatus "node-1" hnode
  rw [htype] at haway
  exact absurd haway (by decide)

end Newbro.HostedRuns
