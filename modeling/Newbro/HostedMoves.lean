import Newbro.HostedRuns

/-!
# What a step of the hosted runs can do

One constructor for each way a step can go, with the guards it found and the state it
leaves. The invariants of the hosted runs are proved by cases on it.
-/
namespace Newbro.HostedRuns

open Library Protocol ExecutorNodes Reconcile Option Table

inductive Move (s : HostedState) : Label → HostedState → Prop
  | createTask {task : Task} (hnew : s.board.getTask task.taskId = none)
      (hstatus : task.status ≠ .waitingExecutor) :
      Move s (.createTask task) { s with board := s.board.putTask task }
  | writeStatus {task : Task} {status : TaskStatus}
      (htask : s.board.getTask task.taskId = some task) (hstatus : status ≠ .waitingExecutor) :
      Move s (.writeStatus task.taskId status)
        { s with board := s.board.putTask { task with status := status } }
  | dispatchRun {run : ExecutionRun} {task : Task}
      (htask : s.board.getTask run.taskId = some task) (hnew : s.runs.get? run.runId = none) :
      Move s (.dispatchRun run)
        { s with
          manager := s.manager.fileRun (dispatchState run task)
          runs := s.runs.put (startedRun s.manager run task)
          board := s.board.putRun run }
  | connectionGone {run : HostedRun} {nodeId : String}
      (hrun : s.runs.get? run.runId = some run) (hstage : run.stage = .connecting) :
      Move s (.readConnection run.runId)
        { s with runs := s.runs.put { run with
            stage := .draining
            queue := run.queue ++
              [disconnectedEvent run.state nodeId (some "node_disconnected")] } }
  | connectionFound {run : HostedRun} {c : NodeConnection}
      (hrun : s.runs.get? run.runId = some run) (hstage : run.stage = .connecting)
      (hnode : run.state.nodeId = some c.nodeId)
      (hc : s.manager.connectionsByNode.get? c.nodeId = some c) :
      Move s (.readConnection run.runId)
        { s with runs := s.runs.put { run with
            stage := .sending
            websocket := some c.websocket } }
  | sent {run : HostedRun} {websocket : String}
      (hrun : s.runs.get? run.runId = some run) (hstage : run.stage = .sending)
      (hws : run.websocket = some websocket) :
      Move s (.sent run.runId)
        { s with
          runs := s.runs.put { run with stage := .draining }
          turns := s.turns.put ⟨run.runId, websocket, .streaming, false⟩ }
  | sendFails {run : HostedRun} {websocket cleanupId : String} {s' : HostedState}
      (hrun : s.runs.get? run.runId = some run) (hstage : run.stage = .sending)
      (hws : run.websocket = some websocket)
      (hdrop : disconnect { s with runs := s.runs.put { run with stage := .dropping cleanupId } }
        websocket cleanupId "dispatch_failed" = some s') :
      Move s (.sendFails run.runId cleanupId) s'
  | dropped {run : HostedRun} {cleanupId : String}
      (hrun : s.runs.get? run.runId = some run) (hstage : run.stage = .dropping cleanupId) :
      Move s (.dropped run.runId) { s with runs := s.runs.put { run with stage := .draining } }
  | drain {run : HostedRun} {record : ExecutionRun} {task : Task} {event : ExecutorEvent}
      {queue : List ExecutorEvent}
      (hrun : s.runs.get? run.runId = some run) (hstage : run.stage = .draining)
      (hqueue : run.queue = event :: queue)
      (hrecord : s.board.getRun run.runId = some record)
      (htask : s.board.getTask run.taskId = some task) :
      Move s (.drain run.runId)
        { s with
          runs := s.runs.put { run with
            stage := if isTerminalEvent event.eventType then .ending else .draining
            queue := queue }
          board := RunManager.applyEvent s.board task record event
          applied := s.applied ++ [(run.runId, event)] }
  | finishRun {run : HostedRun} (hrun : s.runs.get? run.runId = some run)
      (hstage : run.stage = .ending) :
      Move s (.finishRun run.runId)
        { s with
          manager := s.manager.finishRun run.runId
          runs := s.runs.put { run with stage := .finished } }
  | register {c : NodeConnection} {manager : NodeManager}
      (hnew : s.sockets.get? c.websocket = none)
      (hregister : s.manager.registerConnection c = some manager) :
      Move s (.register c)
        { s with manager := manager, sockets := s.sockets.put ⟨c.websocket, .scanDue, []⟩ }
  | beginScan {socket : Socket} (hsocket : s.sockets.get? socket.websocket = some socket)
      (hphase : socket.phase = .scanDue) :
      Move s (.beginScan socket.websocket)
        (s.setPhase socket (.scanning (s.board.tasks.entries.map Task.taskId)))
  | scanEnds {socket : Socket} (hsocket : s.sockets.get? socket.websocket = some socket)
      (hphase : socket.phase = .scanning []) :
      Move s (.scanNext socket.websocket) (s.setPhase socket .receiving)
  | scanSkips {socket : Socket} {taskId : String} {taskIds : List String}
      (hsocket : s.sockets.get? socket.websocket = some socket)
      (hphase : socket.phase = .scanning (taskId :: taskIds))
      (htask : s.board.getTask taskId = none) :
      Move s (.scanNext socket.websocket) (s.setPhase socket (.scanning taskIds))
  | scanLooks {socket : Socket} {task : Task} {taskIds : List String}
      (hsocket : s.sockets.get? socket.websocket = some socket)
      (hphase : socket.phase = .scanning (task.taskId :: taskIds))
      (htask : s.board.getTask task.taskId = some task) :
      Move s (.scanNext socket.websocket)
        ({ s with
          board := SessionRuntime.requeueTask (available s.manager) s.board task }.setPhase
            socket (.scanning taskIds))
  | accepts {socket : Socket} {runId : String} {event : ExecutorEvent}
      {inbox : List (String × ExecutorEvent)}
      (hsocket : s.sockets.get? socket.websocket = some socket)
      (hphase : socket.phase = .receiving) (hinbox : socket.inbox = (runId, event) :: inbox)
      (hverdict : s.manager.judgeRunEvent socket.websocket runId = .accepted) :
      Move s (.receive socket.websocket)
        (s.setPhase { socket with inbox := inbox } (.publishing runId event))
  | refuses {socket : Socket} {runId : String} {event : ExecutorEvent}
      {inbox : List (String × ExecutorEvent)}
      (hsocket : s.sockets.get? socket.websocket = some socket)
      (hphase : socket.phase = .receiving) (hinbox : socket.inbox = (runId, event) :: inbox)
      (hverdict : s.manager.judgeRunEvent socket.websocket runId ≠ .accepted) :
      Move s (.receive socket.websocket) (s.setPhase { socket with inbox := inbox } .receiving)
  | publish {socket : Socket} {runId : String} {event : ExecutorEvent}
      (hsocket : s.sockets.get? socket.websocket = some socket)
      (hphase : socket.phase = .publishing runId event) :
      Move s (.publish socket.websocket) ((s.setPhase socket .receiving).enqueue runId event)
  | disconnect {websocket cleanupId reason : String} {s' : HostedState}
      (hdrop : disconnect s websocket cleanupId reason = some s') :
      Move s (.disconnect websocket cleanupId reason) s'
  | snapshotRuns {cleanup : Cleanup}
      (hcleanup : s.cleanups.get? cleanup.cleanupId = some cleanup)
      (hstage : cleanup.stage = .popped) :
      Move s (.snapshotRuns cleanup.cleanupId)
        (s.setCleanup cleanup (.detaching (s.manager.runsOfNode cleanup.nodeId)))
  | cleanupEnds {cleanup : Cleanup}
      (hcleanup : s.cleanups.get? cleanup.cleanupId = some cleanup)
      (hstage : cleanup.stage = .detaching []) :
      Move s (.detachNext cleanup.cleanupId)
        { s with cleanups := s.cleanups.erase cleanup.cleanupId }
  | detachSkips {cleanup : Cleanup} {runId : String} {runIds : List String}
      (hcleanup : s.cleanups.get? cleanup.cleanupId = some cleanup)
      (hstage : cleanup.stage = .detaching (runId :: runIds)) :
      Move s (.detachNext cleanup.cleanupId) (s.setCleanup cleanup (.detaching runIds))
  | detaches {cleanup : Cleanup} {state : RunDispatchState} {runIds : List String}
      (hcleanup : s.cleanups.get? cleanup.cleanupId = some cleanup)
      (hstage : cleanup.stage = .detaching (state.runId :: runIds))
      (hstate : s.manager.runStates.get? state.runId = some state) :
      Move s (.detachNext cleanup.cleanupId)
        ((s.setCleanup cleanup (.detaching runIds)).detach state cleanup.nodeId cleanup.reason)
  | emit {turn : NodeTurn} {event : ExecutorEvent}
      (hturn : s.turns.get? turn.runId = some turn) (hphase : turn.phase = .streaming) :
      Move s (.emit turn.runId event)
        { s.send turn event with
          turns := s.turns.put { turn with phase := phaseAfter event.eventType } }
  | supplyAnswer {turn : NodeTurn} (hturn : s.turns.get? turn.runId = some turn)
      (hphase : turn.phase = .awaitingAnswer) :
      Move s (.supplyAnswer turn.runId)
        { s with turns := s.turns.put { turn with phase := .streaming } }
  | acceptFollowUp {turn : NodeTurn} (hturn : s.turns.get? turn.runId = some turn)
      (hphase : turn.phase ≠ .ended) :
      Move s (.acceptFollowUp turn.runId)
        { s with turns := s.turns.put { turn with followUps := true } }
  | followUpEvent {turn : NodeTurn} {event : ExecutorEvent}
      (hturn : s.turns.get? turn.runId = some turn) (hfollow : turn.followUps = true) :
      Move s (.followUpEvent turn.runId event) (s.send turn event)

variable {websocket cleanupId : String}

theorem disconnect_cases {s s' : HostedState} {reason : String}
    (h : disconnect s websocket cleanupId reason = some s') :
    s.cleanups.get? cleanupId = none ∧
      ((s.manager.nodeIdForWebsocket websocket = none ∧ s' = s) ∨
        ∃ nodeId, s.manager.nodeIdForWebsocket websocket = some nodeId ∧
          s' = { s with
            manager := { s.manager with
              connectionsByNode := s.manager.connectionsByNode.erase nodeId }
            cleanups := s.cleanups.put ⟨cleanupId, nodeId, reason, .popped⟩ }) := by
  unfold disconnect NodeManager.popConnection at h
  split at h
  · cases h
  · rename_i hfresh
    refine ⟨by simpa [Table.contains] using hfresh, ?_⟩
    cases hnode : s.manager.nodeIdForWebsocket websocket with
    | none =>
      simp only [hnode, map_none, some.injEq] at h
      exact .inl ⟨rfl, h.symm⟩
    | some nodeId =>
      simp only [hnode, map_some, some.injEq] at h
      exact .inr ⟨nodeId, rfl, h.symm⟩

variable {runId : String}

section inversions

variable {s s' : HostedState}

theorem move_of_dispatchRun {run : ExecutionRun} (h : dispatchRun s run = some s') :
    Move s (.dispatchRun run) s' := by
  unfold dispatchRun at h
  split at h
  · cases h
  · rename_i task htask
    split at h
    · cases h
    · rename_i hguard
      cases h
      have hnew : s.runs.get? run.runId = none := by
        simp only [Bool.or_eq_true, not_or, Table.contains] at hguard
        simpa using hguard.1.1
      exact .dispatchRun htask hnew

theorem move_of_readConnection (h : readConnection s runId = some s') :
    Move s (.readConnection runId) s' := by
  unfold readConnection at h
  split at h
  · cases h
  · rename_i run hrun
    obtain rfl : run.runId = runId := key_of_get? hrun
    split at h
    · rename_i nodeId hstage hnode
      split at h
      · cases h
        exact .connectionGone hrun hstage
      · rename_i c hc
        cases h
        obtain rfl : c.nodeId = nodeId := key_of_get? hc
        exact .connectionFound hrun hstage hnode hc
    · cases h

theorem move_of_sent (h : sent s runId = some s') : Move s (.sent runId) s' := by
  unfold sent at h
  split at h
  · cases h
  · rename_i run hrun
    obtain rfl : run.runId = runId := key_of_get? hrun
    split at h
    · rename_i websocket hstage hws
      cases h
      exact .sent hrun hstage hws
    · cases h

theorem move_of_sendFails
    (h : sendFails s runId cleanupId = some s') : Move s (.sendFails runId cleanupId) s' := by
  unfold sendFails at h
  split at h
  · cases h
  · rename_i run hrun
    obtain rfl : run.runId = runId := key_of_get? hrun
    split at h
    · rename_i websocket hstage hws
      exact .sendFails hrun hstage hws h
    · cases h

theorem move_of_dropped (h : dropped s runId = some s') : Move s (.dropped runId) s' := by
  unfold dropped at h
  split at h
  · cases h
  · rename_i run hrun
    obtain rfl : run.runId = runId := key_of_get? hrun
    split at h
    · rename_i cleanupId hstage
      split at h
      · cases h
      · cases h
        exact .dropped hrun hstage
    · cases h

theorem move_of_drain (h : drain s runId = some s') : Move s (.drain runId) s' := by
  unfold drain at h
  split at h
  · rename_i run record hrun hrecord
    obtain rfl : run.runId = runId := key_of_get? hrun
    split at h
    · rename_i event queue task hstage hqueue htask
      cases h
      exact .drain hrun hstage hqueue hrecord htask
    · cases h
  · cases h

theorem move_of_finishRun (h : finishRun s runId = some s') : Move s (.finishRun runId) s' := by
  unfold finishRun at h
  split at h
  · cases h
  · rename_i run hrun
    obtain rfl : run.runId = runId := key_of_get? hrun
    split at h
    · rename_i hstage
      cases h
      exact .finishRun hrun hstage
    · cases h

theorem move_of_register {c : NodeConnection} (h : register s c = some s') :
    Move s (.register c) s' := by
  unfold register at h
  split at h
  · cases h
  · rename_i hnew
    obtain ⟨manager, hregister, rfl⟩ := map_eq_some_iff.mp h
    exact .register (by simpa [Table.contains] using hnew) hregister

theorem move_of_beginScan (h : beginScan s websocket = some s') :
    Move s (.beginScan websocket) s' := by
  unfold beginScan at h
  split at h
  · cases h
  · rename_i socket hsocket
    obtain rfl : socket.websocket = websocket := key_of_get? hsocket
    split at h
    · rename_i hphase
      cases h
      exact .beginScan hsocket hphase
    · cases h

theorem move_of_scanNext (h : scanNext s websocket = some s') :
    Move s (.scanNext websocket) s' := by
  unfold scanNext at h
  split at h
  · cases h
  · rename_i socket hsocket
    obtain rfl : socket.websocket = websocket := key_of_get? hsocket
    split at h
    · rename_i hphase
      cases h
      exact .scanEnds hsocket hphase
    · rename_i taskId taskIds hphase
      cases htask : s.board.getTask taskId with
      | none =>
        simp only [htask, some.injEq] at h
        subst h
        exact .scanSkips hsocket hphase htask
      | some task =>
        obtain rfl : task.taskId = taskId := key_of_get? htask
        simp only [htask, some.injEq] at h
        subst h
        exact .scanLooks hsocket hphase htask
    · cases h

theorem move_of_receive (h : receive s websocket = some s') : Move s (.receive websocket) s' := by
  unfold receive at h
  split at h
  · cases h
  · rename_i socket hsocket
    obtain rfl : socket.websocket = websocket := key_of_get? hsocket
    split at h
    · rename_i runId event inbox hphase hinbox
      cases hverdict : s.manager.judgeRunEvent socket.websocket runId with
      | accepted =>
        simp only [hverdict, some.injEq] at h
        subst h
        exact .accepts hsocket hphase hinbox hverdict
      | unknownRun | unauthorizedRun =>
        simp only [hverdict, some.injEq] at h
        subst h
        exact .refuses hsocket hphase hinbox (by simp [hverdict])
    · cases h

theorem move_of_publish (h : publish s websocket = some s') : Move s (.publish websocket) s' := by
  unfold publish at h
  split at h
  · cases h
  · rename_i socket hsocket
    obtain rfl : socket.websocket = websocket := key_of_get? hsocket
    split at h
    · rename_i runId event hphase
      cases h
      exact .publish hsocket hphase
    · cases h

theorem move_of_snapshotRuns (h : snapshotRuns s cleanupId = some s') :
    Move s (.snapshotRuns cleanupId) s' := by
  unfold snapshotRuns at h
  split at h
  · cases h
  · rename_i cleanup hcleanup
    obtain rfl : cleanup.cleanupId = cleanupId := key_of_get? hcleanup
    split at h
    · rename_i hstage
      cases h
      exact .snapshotRuns hcleanup hstage
    · cases h

theorem move_of_detachNext (h : detachNext s cleanupId = some s') :
    Move s (.detachNext cleanupId) s' := by
  unfold detachNext at h
  split at h
  · cases h
  · rename_i cleanup hcleanup
    obtain rfl : cleanup.cleanupId = cleanupId := key_of_get? hcleanup
    split at h
    · rename_i hstage
      cases h
      exact .cleanupEnds hcleanup hstage
    · rename_i runId runIds hstage
      dsimp only at h
      split at h
      · cases h
        exact .detachSkips hcleanup hstage
      · rename_i state hstate
        cases h
        obtain rfl : state.runId = runId := key_of_get? hstate
        exact .detaches hcleanup hstage hstate
    · cases h

theorem move_of_emit {event : ExecutorEvent}
    (h : emit s runId event = some s') : Move s (.emit runId event) s' := by
  unfold emit at h
  split at h
  · cases h
  · rename_i turn hturn
    obtain rfl : turn.runId = runId := key_of_get? hturn
    split at h
    · rename_i hphase
      cases h
      exact .emit hturn hphase
    · cases h

theorem move_of_supplyAnswer (h : supplyAnswer s runId = some s') :
    Move s (.supplyAnswer runId) s' := by
  unfold supplyAnswer at h
  split at h
  · cases h
  · rename_i turn hturn
    obtain rfl : turn.runId = runId := key_of_get? hturn
    split at h
    · rename_i hguard
      cases h
      simp only [Bool.and_eq_true, decide_eq_true_eq] at hguard
      exact .supplyAnswer hturn hguard.1
    · cases h

theorem move_of_acceptFollowUp (h : acceptFollowUp s runId = some s') :
    Move s (.acceptFollowUp runId) s' := by
  unfold acceptFollowUp at h
  split at h
  · cases h
  · rename_i turn hturn
    obtain rfl : turn.runId = runId := key_of_get? hturn
    split at h
    · cases h
    · rename_i hphase
      cases h
      exact .acceptFollowUp hturn hphase

theorem move_of_followUpEvent {event : ExecutorEvent}
    (h : followUpEvent s runId event = some s') : Move s (.followUpEvent runId event) s' := by
  unfold followUpEvent at h
  split at h
  · cases h
  · rename_i turn hturn
    obtain rfl : turn.runId = runId := key_of_get? hturn
    split at h
    · rename_i hfollow
      cases h
      exact .followUpEvent hturn hfollow
    · cases h

/-- Every step is one of the moves. -/
theorem move_of_step {l : Label} (h : step s l = some s') : Move s l s' := by
  cases l with
  | createTask task =>
    change createTask s task = some s' at h
    unfold createTask at h
    split at h
    · cases h
    · rename_i hguard
      cases h
      simp only [Bool.or_eq_true, decide_eq_true_eq, not_or] at hguard
      exact .createTask (by simpa [Table.contains, Blackboard.getTask] using hguard.1) hguard.2
  | writeStatus taskId status =>
    change writeStatus s taskId status = some s' at h
    unfold writeStatus at h
    split at h
    · cases h
    · rename_i task htask
      obtain rfl : task.taskId = taskId := key_of_get? htask
      split at h
      · cases h
      · rename_i hstatus
        cases h
        exact .writeStatus htask hstatus
  | dispatchRun run => exact move_of_dispatchRun h
  | readConnection runId => exact move_of_readConnection h
  | sent runId => exact move_of_sent h
  | sendFails runId cleanupId => exact move_of_sendFails h
  | dropped runId => exact move_of_dropped h
  | drain runId => exact move_of_drain h
  | finishRun runId => exact move_of_finishRun h
  | register c => exact move_of_register h
  | beginScan websocket => exact move_of_beginScan h
  | scanNext websocket => exact move_of_scanNext h
  | receive websocket => exact move_of_receive h
  | publish websocket => exact move_of_publish h
  | disconnect websocket cleanupId reason => exact .disconnect h
  | snapshotRuns cleanupId => exact move_of_snapshotRuns h
  | detachNext cleanupId => exact move_of_detachNext h
  | emit runId event => exact move_of_emit h
  | supplyAnswer runId => exact move_of_supplyAnswer h
  | acceptFollowUp runId => exact move_of_acceptFollowUp h
  | followUpEvent runId event => exact move_of_followUpEvent h

end inversions

end Newbro.HostedRuns
