import Newbro.ConnectionWiring

/-!
# The events of a hosted run

A message of a run is in the inbox of its websocket, is being published, is in the queue
of the run, or has been applied. The events a node emits for the run are these parts in
order, until an event ends the run.
-/
namespace Newbro.HostedRuns

open Library Protocol ExecutorNodes Reconcile Option Table List

/-- The events among the messages that are about a run. -/
def eventsOf (runId : String) (messages : List (String × ExecutorEvent)) : List ExecutorEvent :=
  (messages.filter fun message => message.1 = runId).map Prod.snd

def SocketPhase.messages : SocketPhase → List (String × ExecutorEvent)
  | .publishing runId event => [(runId, event)]
  | _ => []

/-- What a websocket has still to bring to the queues. -/
def Socket.messages (socket : Socket) : List (String × ExecutorEvent) :=
  socket.phase.messages ++ socket.inbox

def HostedState.underWay (s : HostedState) (runId websocket : String) : List ExecutorEvent :=
  ((s.sockets.get? websocket).map fun socket => eventsOf runId socket.messages).getD []

def HostedState.unread (s : HostedState) (runId websocket : String) : List ExecutorEvent :=
  ((s.sockets.get? websocket).map fun socket => eventsOf runId socket.inbox).getD []

def HostedState.emittedOf (s : HostedState) (runId : String) : List ExecutorEvent :=
  eventsOf runId s.emitted

def HostedState.appliedOf (s : HostedState) (runId : String) : List ExecutorEvent :=
  eventsOf runId s.applied

/-- The websocket of a run, once it has one. -/
def HostedState.websocketOf (s : HostedState) (runId : String) : Option String :=
  (s.runs.get? runId).bind HostedRun.websocket

/-- No event of the run is lost with a connection: the node emits over a connection that is
there and while the run is not detached, and nothing of the run is under way when its
connection is dropped or the run detached. -/
def losesNothing (runId : String) (s : HostedState) : Label → Bool
  | .emit emitter _ => emitter ≠ runId || canReceive s runId
  | .followUpEvent emitter _ => emitter ≠ runId || canReceive s runId
  | .disconnect websocket _ _ => (s.unread runId websocket).isEmpty
  | .sendFails sender _ =>
    (s.websocketOf sender).all fun websocket => (s.unread runId websocket).isEmpty
  | .detachNext cleanupId =>
    (s.cleanups.get? cleanupId).all fun cleanup =>
      match cleanup.stage with
      | .detaching (next :: _) =>
        next ≠ runId ||
          (s.websocketOf runId).all fun websocket => (s.underWay runId websocket).isEmpty
      | _ => true
  | _ => true
where
  canReceive (s : HostedState) (runId : String) : Bool :=
    runId ∉ s.detached && (s.websocketOf runId).any s.manager.isConnected

variable {socket socket' : Socket}

section messages

variable {s s' : HostedState} {runId websocket : String}

@[simp] theorem eventsOf_nil (runId : String) : eventsOf runId [] = [] := rfl

@[simp] theorem eventsOf_append (runId : String) (messages messages' : List (String × ExecutorEvent)) :
    eventsOf runId (messages ++ messages') =
      eventsOf runId messages ++ eventsOf runId messages' := by
  simp [eventsOf]

@[simp] theorem eventsOf_cons_self (runId : String) (event : ExecutorEvent)
    (messages : List (String × ExecutorEvent)) :
    eventsOf runId ((runId, event) :: messages) = event :: eventsOf runId messages := by
  simp [eventsOf]

theorem eventsOf_cons_of_ne {other : String} (h : other ≠ runId) (event : ExecutorEvent)
    (messages : List (String × ExecutorEvent)) :
    eventsOf runId ((other, event) :: messages) = eventsOf runId messages := by
  simp [eventsOf, h]

theorem underWay_of_socket (h : s.sockets.get? websocket = some socket) :
    s.underWay runId websocket = eventsOf runId socket.messages := by
  simp [HostedState.underWay, h]

theorem unread_of_socket (h : s.sockets.get? websocket = some socket) :
    s.unread runId websocket = eventsOf runId socket.inbox := by
  simp [HostedState.unread, h]

theorem underWay_put (hsockets : s'.sockets = s.sockets.put socket') :
    s'.underWay runId websocket =
      if socket'.websocket = websocket then eventsOf runId socket'.messages
      else s.underWay runId websocket := by
  unfold HostedState.underWay
  rw [hsockets, Table.get?_put]
  split <;> rfl

theorem unread_put (hsockets : s'.sockets = s.sockets.put socket') :
    s'.unread runId websocket = if socket'.websocket = websocket then eventsOf runId socket'.inbox
      else s.unread runId websocket := by
  unfold HostedState.unread
  rw [hsockets, Table.get?_put]
  split <;> rfl

theorem underWay_putSocket (hsocket : s.sockets.get? socket.websocket = some socket)
    (hsockets : s'.sockets = s.sockets.put socket') (hws : socket'.websocket = socket.websocket)
    (h : eventsOf runId socket'.messages = eventsOf runId socket.messages) :
    s'.underWay runId websocket = s.underWay runId websocket := by
  rw [underWay_put hsockets, hws]
  split
  · rename_i he
    subst he
    rw [h, underWay_of_socket hsocket]
  · rfl

theorem unread_putSocket (hsocket : s.sockets.get? socket.websocket = some socket)
    (hsockets : s'.sockets = s.sockets.put socket') (hws : socket'.websocket = socket.websocket)
    (h : eventsOf runId socket.inbox = [] → eventsOf runId socket'.inbox = [])
    (hunread : s'.unread runId websocket ≠ []) : s.unread runId websocket ≠ [] := by
  rw [unread_put hsockets, hws] at hunread
  split at hunread
  · rename_i he
    subst he
    rw [unread_of_socket hsocket]
    exact fun hempty => hunread (h hempty)
  · exact hunread

end messages

/-- The event that ends a run has been applied, or is not yet. -/
def RunStage.isOver (stage : RunStage) : Bool := 4 ≤ stage.rank

/-- The run is on its way to a node, and not one that waits from the start. -/
def HostedRun.mayEmit (run : HostedRun) : Bool := run.stage = .connecting || run.websocket.isSome

/-- What the websocket of the run has still to bring to its queue. -/
def HostedState.carried (s : HostedState) (runId : String) : List ExecutorEvent :=
  ((s.websocketOf runId).map (s.underWay runId)).getD []

/-- Where the events of a run are: while it goes on, after it was detached, and after the
event that ends it. -/
inductive Flow (s : HostedState) (run : HostedRun) : Prop
  | running (hstage : run.stage.isOver = false) (hkept : run.runId ∉ s.detached)
      (hparts : s.emittedOf run.runId =
        s.appliedOf run.runId ++ run.queue ++ s.carried run.runId)
  | detached {queue : List ExecutorEvent} {lost : ExecutorEvent}
      (hstage : run.stage.isOver = false) (hmem : run.runId ∈ s.detached)
      (hqueue : run.queue = queue ++ [lost]) (hend : isTerminalEvent lost.eventType = true)
      (hparts : s.emittedOf run.runId = s.appliedOf run.runId ++ queue)
      (hcarried : s.carried run.runId = [])
  | ended {events : List ExecutorEvent} {last : ExecutorEvent}
      (hstage : run.stage.isOver = true) (hlast : s.appliedOf run.runId = events ++ [last])
      (hend : isTerminalEvent last.eventType = true)
      (hparts : s.appliedOf run.runId <+: s.emittedOf run.runId ∨
        (run.runId ∈ s.detached ∧ s.emittedOf run.runId <+: s.appliedOf run.runId))

structure EventFlow (runId : String) (s : HostedState) : Prop where
  elsewhere : ∀ websocket, s.websocketOf runId ≠ some websocket →
    s.underWay runId websocket = []
  unsent : s.turns.get? runId = none → s.emittedOf runId = []
  undispatched : s.runs.get? runId = none → s.appliedOf runId = []
  connecting : ∀ run, s.runs.get? runId = some run → run.stage = .connecting →
    run.websocket = none
  connected : ∀ websocket, s.unread runId websocket ≠ [] →
    s.manager.isConnected websocket = true
  flow : ∀ run, s.runs.get? runId = some run → run.mayEmit = true → Flow s run

/-- A run goes on with the same queue, on the same side of its end. -/
structure FlowKept (runs runs' : Table HostedRun.runId) (runId : String) : Prop where
  back : ∀ run', runs'.get? runId = some run' → ∃ run, runs.get? runId = some run ∧
    run'.queue = run.queue ∧ run'.websocket = run.websocket ∧
      run'.stage.isOver = run.stage.isOver ∧
        (run'.stage = .connecting → run.stage = .connecting)
  none : runs'.get? runId = none → runs.get? runId = none

variable {runs : Table HostedRun.runId} {run' run : HostedRun}

section frames

variable {s s' : HostedState} {runId : String}

theorem FlowKept.refl (runs : Table HostedRun.runId) (runId : String) :
    FlowKept runs runs runId where
  back run' hrun' := ⟨run', hrun', rfl, rfl, rfl, id⟩
  none h := h

theorem FlowKept.put_of_ne (h : run'.runId ≠ runId) : FlowKept runs (runs.put run') runId := by
  have hget := Table.get?_put_of_ne runs h
  constructor
  · intro run hrun
    rw [hget] at hrun
    exact ⟨run, hrun, rfl, rfl, rfl, id⟩
  · intro hnone
    rwa [hget] at hnone

/-- The coroutine of a run goes on and leaves its queue alone. -/
theorem FlowKept.put (hrun : runs.get? run.runId = some run) (hstate : run'.state = run.state)
    (hqueue : run'.queue = run.queue) (hws : run'.websocket = run.websocket)
    (hover : run'.stage.isOver = run.stage.isOver) (hstage : run'.stage ≠ .connecting) :
    FlowKept runs (runs.put run') runId := by
  have hid := HostedRun.runId_eq hstate
  by_cases he : run'.runId = runId
  · constructor
    · intro other hother
      rw [Table.get?_put, if_pos he, some.injEq] at hother
      subst hother
      rw [← he, hid]
      exact ⟨run, hrun, hqueue, hws, hover, fun h => absurd h hstage⟩
    · intro hnone
      rw [Table.get?_put, if_pos he] at hnone
      cases hnone
  · exact .put_of_ne he

theorem FlowKept.putEvent_of_ne (runs : Table HostedRun.runId) {other : String}
    (h : other ≠ runId) (event : ExecutorEvent) :
    FlowKept runs (putEvent runs other event) runId := by
  unfold HostedRuns.putEvent
  split
  · exact .refl _ _
  · rename_i run hrun
    have hid : run.runId = other := key_of_get? hrun
    exact .put_of_ne (by rw [HostedRun.runId] at hid ⊢; rw [hid]; exact h)

theorem FlowKept.websocketOf (h : FlowKept s.runs s'.runs runId) :
    s'.websocketOf runId = s.websocketOf runId := by
  unfold HostedState.websocketOf
  cases hrun' : s'.runs.get? runId with
  | none => simp [h.none hrun']
  | some run' =>
    obtain ⟨run, hrun, -, hws, -⟩ := h.back run' hrun'
    simp [hrun, hws]

/-- Steps that leave the run, its events and its messages where they are. -/
theorem EventFlow.frame (h : EventFlow runId s) (hruns : FlowKept s.runs s'.runs runId)
    (hturn : s'.turns.get? runId = none → s.turns.get? runId = none)
    (hemitted : s'.emittedOf runId = s.emittedOf runId)
    (happlied : s'.appliedOf runId = s.appliedOf runId)
    (hdetached : runId ∈ s'.detached ↔ runId ∈ s.detached)
    (hunder : ∀ websocket, s'.underWay runId websocket = s.underWay runId websocket)
    (hconnected : ∀ websocket, s'.unread runId websocket ≠ [] →
      s.unread runId websocket ≠ [] ∧
        (s.manager.isConnected websocket = true → s'.manager.isConnected websocket = true)) :
    EventFlow runId s' where
  elsewhere websocket hne := by
    rw [hunder]
    exact h.elsewhere websocket (hruns.websocketOf ▸ hne)
  unsent hnone := by rw [hemitted, h.unsent (hturn hnone)]
  undispatched hnone := by rw [happlied, h.undispatched (hruns.none hnone)]
  connecting run' hrun' hstage := by
    obtain ⟨run, hrun, -, hws, -, hbefore⟩ := hruns.back run' hrun'
    rw [hws]
    exact h.connecting run hrun (hbefore hstage)
  connected websocket hunread := by
    obtain ⟨hbefore, hstays⟩ := hconnected websocket hunread
    exact hstays (h.connected websocket hbefore)
  flow run' hrun' hmay := by
    obtain ⟨run, hrun, hqueue, hws, hover, hbefore⟩ := hruns.back run' hrun'
    have hmay' : run.mayEmit = true := by
      simp only [HostedRun.mayEmit, hws, Bool.or_eq_true, decide_eq_true_eq] at hmay ⊢
      exact hmay.imp_left hbefore
    have hid' : run'.runId = runId := key_of_get? hrun'
    have hid : run.runId = runId := key_of_get? hrun
    have hcarried : s'.carried runId = s.carried runId := by
      unfold HostedState.carried
      rw [hruns.websocketOf, funext hunder]
    cases h.flow run hrun hmay' with
    | running hstage hkept hparts =>
      rw [hid] at hkept hparts
      refine .running (hover ▸ hstage) ?_ ?_
      · rwa [hid', hdetached]
      · rw [hid', hemitted, happlied, hqueue, hcarried, hparts]
    | detached hstage hmem hqueue' hend hparts hnothing =>
      rw [hid] at hmem hparts hnothing
      refine .detached (hover ▸ hstage) ?_ (hqueue.trans hqueue') hend ?_ ?_
      · rwa [hid', hdetached]
      · rw [hid', hemitted, happlied, hparts]
      · rw [hid', hcarried, hnothing]
    | ended hstage hlast hend hparts =>
      rw [hid] at hlast hparts
      refine .ended (hover ▸ hstage) (by rw [hid', happlied, hlast]) hend ?_
      rwa [hid', happlied, hemitted, hdetached]

end frames

variable {websocket : String} {event : ExecutorEvent} {queue : List ExecutorEvent} {l : Label}

section steps

variable {s s' : HostedState} {runId : String}

theorem websocketOf_of_run (h : s.runs.get? runId = some run) :
    s.websocketOf runId = run.websocket := by
  simp [HostedState.websocketOf, h]

theorem carried_of_websocket (h : s.websocketOf runId = some websocket) :
    s.carried runId = s.underWay runId websocket := by
  simp [HostedState.carried, h]

/-- A message of the run can only be on the websocket of the run. -/
theorem EventFlow.websocketOf (h : EventFlow runId s)
    (hunder : s.underWay runId websocket ≠ []) : s.websocketOf runId = some websocket := by
  by_contra hne
  exact hunder (h.elsewhere websocket hne)

theorem get?_putEvent_self
    (hrun : runs.get? runId = some run) (event : ExecutorEvent) :
    (putEvent runs runId event).get? runId = some { run with queue := run.queue ++ [event] } := by
  have hid : run.runId = runId := key_of_get? hrun
  unfold putEvent
  rw [hrun]
  exact (Table.get?_put _ _ _).trans (if_pos hid)

theorem EventFlow.dispatchRun {run : ExecutionRun} {task : Task} (h : EventFlow runId s)
    (hwired : Wired s) (hfiled : Filed s) (hnew : s.runs.get? run.runId = none) :
    EventFlow runId { s with
      manager := s.manager.fileRun (dispatchState run task)
      runs := s.runs.put (startedRun s.manager run task)
      board := s.board.putRun run } := by
  have hstarted : (startedRun s.manager run task).runId = run.runId := rfl
  by_cases he : run.runId = runId
  · subst he
    have hget : (s.runs.put (startedRun s.manager run task)).get? run.runId =
        some (startedRun s.manager run task) := Table.get?_put_self _ _
    have hturn : s.turns.get? run.runId = none := by
      cases hturn : s.turns.get? run.runId with
      | none => rfl
      | some turn =>
        obtain ⟨other, hother, -⟩ := hwired.turn turn (mem_of_get? hturn)
        rw [key_of_get? hturn, hnew] at hother
        cases hother
    have hbefore : s.websocketOf run.runId = none := by simp [HostedState.websocketOf, hnew]
    have hclear : ∀ websocket, s.underWay run.runId websocket = [] := fun websocket =>
      h.elsewhere websocket (by simp [hbefore])
    refine ⟨fun websocket _ => hclear websocket, h.unsent, fun hnone => ?_, fun other hother _ => ?_,
      h.connected, fun other hother hmay => ?_⟩
    · exact h.undispatched hnew
    · obtain rfl : startedRun s.manager run task = other := some.inj (hget ▸ hother)
      rfl
    · obtain rfl : startedRun s.manager run task = other := some.inj (hget ▸ hother)
      have hconnecting : (startedRun s.manager run task).stage = .connecting := by
        simp only [HostedRun.mayEmit, startedRun, isSome_none, Bool.or_false] at hmay
        exact of_decide_eq_true hmay
      have hfresh : run.runId ∉ s.detached := by
        intro hmem
        have hsome := hfiled.detached run.runId hmem
        simp [hnew] at hsome
      have hqueue : (startedRun s.manager run task).queue = [] := by
        unfold startedRun dispatchOutcome at hconnecting ⊢
        cases hnode : (dispatchState run task).nodeId with
        | none => simp [hnode] at hconnecting
        | some nodeId =>
          by_cases hc : s.manager.isExecutorConnected (dispatchState run task).executorType
            (some nodeId)
          · simp [hc]
          · simp [hnode, hc] at hconnecting
      refine .running (by rw [hconnecting]; rfl) hfresh ?_
      have hcarried : HostedState.carried { s with
          manager := s.manager.fileRun (dispatchState run task)
          runs := s.runs.put (startedRun s.manager run task)
          board := s.board.putRun run } run.runId = [] := by
        unfold HostedState.carried
        rw [websocketOf_of_run hget]
        rfl
      have hemitted : s.emittedOf run.runId = s.appliedOf run.runId := by
        rw [h.unsent hturn, h.undispatched hnew]
      rw [hstarted, hqueue, hcarried, append_nil, append_nil]
      exact hemitted
  · exact h.frame (.put_of_ne he) id rfl rfl Iff.rfl (fun _ => rfl) fun _ hunread => ⟨hunread, id⟩

/-- The run goes on over the websocket it has, if any. -/
theorem EventFlow.advance (h : EventFlow runId s)
    (hrun : s.runs.get? runId = some run) (hrun' : s'.runs.get? runId = some run')
    (hws : run'.websocket = run.websocket)
    (hstage : run'.stage = .connecting → run.stage = .connecting)
    (hunsent : s'.turns.get? runId = none → s'.emittedOf runId = [])
    (helsewhere : ∀ websocket, s.websocketOf runId ≠ some websocket →
      s'.underWay runId websocket = [])
    (hconnected : ∀ websocket, s'.unread runId websocket ≠ [] →
      s'.manager.isConnected websocket = true)
    (hflow : Flow s run → Flow s' run') : EventFlow runId s' where
  elsewhere websocket hne := by
    refine helsewhere websocket ?_
    rwa [websocketOf_of_run hrun', hws, ← websocketOf_of_run hrun] at hne
  unsent := hunsent
  undispatched hnone := by rw [hrun'] at hnone; cases hnone
  connecting other hother hconnecting := by
    obtain rfl : run' = other := some.inj (hrun'.symm.trans hother)
    exact hws.trans (h.connecting run hrun (hstage hconnecting))
  connected := hconnected
  flow other hother hmay := by
    obtain rfl : run' = other := some.inj (hrun'.symm.trans hother)
    refine hflow (h.flow run hrun ?_)
    simp only [HostedRun.mayEmit, hws, Bool.or_eq_true, decide_eq_true_eq] at hmay ⊢
    exact hmay.imp_left hstage

/-- The run is parked: it waits for its node, which has been sent nothing. -/
theorem EventFlow.connectionGone
    (h : EventFlow runId s) (hrun : s.runs.get? run.runId = some run)
    (hstage : run.stage = .connecting) :
    EventFlow runId { s with runs := s.runs.put { run with
      stage := .draining
      queue := run.queue ++ [event] } } := by
  by_cases he : run.runId = runId
  · subst he
    have hws := h.connecting run hrun hstage
    have hget := Table.get?_put_self s.runs { run with
      stage := .draining
      queue := run.queue ++ [event] }
    refine ⟨fun websocket _ => ?_, h.unsent, fun hnone => ?_, fun other hother hst => ?_,
      h.connected, fun other hother hmay => ?_⟩
    · exact h.elsewhere websocket (by simp [websocketOf_of_run hrun, hws])
    · exact absurd (hget.symm.trans hnone) (by simp)
    · obtain rfl := some.inj (hget.symm.trans hother)
      cases hst
    · obtain rfl := some.inj (hget.symm.trans hother)
      simp [HostedRun.mayEmit, hws] at hmay
  · exact h.frame (.put_of_ne he) id rfl rfl Iff.rfl (fun _ => rfl) fun _ hunread => ⟨hunread, id⟩

theorem Flow.connectionFound (h : Flow s run)
    (hstage : run.stage = .connecting) (hrun' : run'.runId = run.runId)
    (hqueue : run'.queue = run.queue) (hstage' : run'.stage = .sending)
    (hdetached : s'.detached = s.detached)
    (hemitted : s'.emittedOf run.runId = s.emittedOf run.runId)
    (happlied : s'.appliedOf run.runId = s.appliedOf run.runId)
    (hbefore : s.carried run.runId = []) (hafter : s'.carried run.runId = []) : Flow s' run' := by
  have hover' : run'.stage.isOver = false := by simp [hstage', RunStage.isOver, RunStage.rank]
  cases h with
  | running hover hkept hparts =>
    refine .running hover' (by rwa [hdetached, hrun']) ?_
    rw [hrun', hemitted, happlied, hqueue, hafter, hparts, hbefore]
  | detached hover hmem hlost hend hparts hnothing =>
    refine .detached hover' (by rwa [hdetached, hrun']) (hqueue.trans hlost) hend ?_ ?_
    · rw [hrun', hemitted, happlied, hparts]
    · rw [hrun', hafter]
  | ended hover hlast hend hparts => simp [hstage, RunStage.isOver, RunStage.rank] at hover

/-- The run is given a websocket on which nothing of it can be yet. -/
theorem EventFlow.connectionFound
    (h : EventFlow runId s) (hrun : s.runs.get? run.runId = some run)
    (hstage : run.stage = .connecting) :
    EventFlow runId { s with runs := s.runs.put { run with
      stage := .sending
      websocket := some websocket } } := by
  by_cases he : run.runId = runId
  · subst he
    have hws := h.connecting run hrun hstage
    have hget := Table.get?_put_self s.runs { run with
      stage := .sending
      websocket := some websocket }
    have hclear : ∀ websocket, s.underWay run.runId websocket = [] := fun websocket =>
      h.elsewhere websocket (by simp [websocketOf_of_run hrun, hws])
    refine ⟨fun websocket _ => hclear websocket, h.unsent, fun hnone => ?_,
      fun other hother hst => ?_, h.connected, fun other hother hmay => ?_⟩
    · exact absurd (hget.symm.trans hnone) (by simp)
    · obtain rfl := some.inj (hget.symm.trans hother)
      cases hst
    · obtain rfl := some.inj (hget.symm.trans hother)
      have hflow := h.flow run hrun (by simp [HostedRun.mayEmit, hstage])
      refine hflow.connectionFound hstage rfl rfl rfl rfl rfl rfl ?_ ?_
      · simp [HostedState.carried, websocketOf_of_run hrun, hws]
      · unfold HostedState.carried
        rw [websocketOf_of_run hget]
        exact hclear websocket
  · exact h.frame (.put_of_ne he) id rfl rfl Iff.rfl (fun _ => rfl) fun _ hunread => ⟨hunread, id⟩

/-- One event goes from the queue of the run to its task. -/
theorem Flow.drain
    (h : Flow s run) (hstage : run.stage = .draining) (hqueue : run.queue = event :: queue)
    (hrun' : run'.runId = run.runId) (hqueue' : run'.queue = queue)
    (hstage' : run'.stage = if isTerminalEvent event.eventType then .ending else .draining)
    (hdetached : s'.detached = s.detached)
    (hemitted : s'.emittedOf run.runId = s.emittedOf run.runId)
    (happlied : s'.appliedOf run.runId = s.appliedOf run.runId ++ [event])
    (hcarried : s'.carried run.runId = s.carried run.runId) : Flow s' run' := by
  have hover' : run'.stage.isOver = isTerminalEvent event.eventType := by
    rw [hstage']
    cases isTerminalEvent event.eventType <;> rfl
  cases h with
  | running hover hkept hparts =>
    rw [hqueue] at hparts
    cases hterminal : isTerminalEvent event.eventType with
    | true =>
      refine .ended (hover'.trans hterminal) (hrun' ▸ happlied) hterminal (.inl ?_)
      rw [hrun', happlied, hemitted, hparts]
      exact ⟨queue ++ s.carried run.runId, by simp⟩
    | false =>
      refine .running (hover'.trans hterminal) (by rwa [hdetached, hrun']) ?_
      rw [hrun', hemitted, happlied, hqueue', hcarried, hparts]
      simp
  | @detached before lost hover hmem hlost hend hparts hnothing =>
    have hmem' : run'.runId ∈ s'.detached := by rwa [hdetached, hrun']
    rw [hqueue] at hlost
    cases before with
    | nil =>
      -- the event that the cleanup put there ends the run
      obtain ⟨rfl, rfl⟩ : event = lost ∧ queue = [] := by simpa using hlost
      refine .ended (hover'.trans hend) (hrun' ▸ happlied) hend (.inr ⟨hmem', ?_⟩)
      rw [hrun', hemitted, happlied, hparts, append_nil]
      exact prefix_append _ _
    | cons first before =>
      obtain ⟨rfl, rfl⟩ : event = first ∧ queue = before ++ [lost] := by simpa using hlost
      cases hterminal : isTerminalEvent event.eventType with
      | true =>
        refine .ended (hover'.trans hterminal) (hrun' ▸ happlied) hterminal (.inl ?_)
        rw [hrun', happlied, hemitted, hparts]
        exact ⟨before, by simp⟩
      | false =>
        refine .detached (hover'.trans hterminal) hmem' hqueue' hend ?_ ?_
        · rw [hrun', hemitted, happlied, hparts]
          simp
        · rw [hrun', hcarried, hnothing]
  | ended hover hlast hend hparts => simp [hstage, RunStage.isOver, RunStage.rank] at hover

theorem EventFlow.drain
    {board : Blackboard} (h : EventFlow runId s) (hrun : s.runs.get? run.runId = some run)
    (hstage : run.stage = .draining) (hqueue : run.queue = event :: queue) :
    EventFlow runId { s with
      runs := s.runs.put { run with
        stage := if isTerminalEvent event.eventType then .ending else .draining
        queue := queue }
      board := board
      applied := s.applied ++ [(run.runId, event)] } := by
  by_cases he : run.runId = runId
  · subst he
    have hget := Table.get?_put_self s.runs { run with
      stage := if isTerminalEvent event.eventType then RunStage.ending else .draining
      queue := queue }
    refine h.advance hrun hget rfl ?_ h.unsent h.elsewhere h.connected fun hflow => ?_
    · cases hend : isTerminalEvent event.eventType <;> simp
    · refine hflow.drain hstage hqueue rfl rfl rfl rfl rfl ?_ ?_
      · simp [HostedState.appliedOf]
      · unfold HostedState.carried
        rw [websocketOf_of_run hget, websocketOf_of_run hrun]
        rfl
  · refine h.frame (.put_of_ne he) id rfl ?_ Iff.rfl (fun _ => rfl) fun _ hunread => ⟨hunread, id⟩
    simp [HostedState.appliedOf, eventsOf, he]

/-- What was on its way is now in the queue. -/
theorem Flow.publish {rest : List ExecutorEvent}
    (h : Flow s run) (hrun' : run'.runId = run.runId) (hqueue' : run'.queue = run.queue ++ [event])
    (hstage' : run'.stage = run.stage) (hdetached : s'.detached = s.detached)
    (hemitted : s'.emittedOf run.runId = s.emittedOf run.runId)
    (happlied : s'.appliedOf run.runId = s.appliedOf run.runId)
    (hbefore : s.carried run.runId = event :: rest) (hafter : s'.carried run.runId = rest) :
    Flow s' run' := by
  cases h with
  | running hover hkept hparts =>
    refine .running (hstage' ▸ hover) (by rwa [hdetached, hrun']) ?_
    rw [hrun', hemitted, happlied, hqueue', hafter, hparts, hbefore]
    simp
  | detached hover hmem hlost hend hparts hnothing =>
    rw [hbefore] at hnothing
    cases hnothing
  | ended hover hlast hend hparts =>
    refine .ended (hstage' ▸ hover) (by rw [hrun', happlied, hlast]) hend ?_
    rwa [hrun', happlied, hemitted, hdetached]

theorem EventFlow.publish {publishedId : String}
    (h : EventFlow runId s) (hsocket : s.sockets.get? socket.websocket = some socket)
    (hphase : socket.phase = .publishing publishedId event) :
    EventFlow runId ((s.setPhase socket .receiving).enqueue publishedId event) := by
  have hsockets : ((s.setPhase socket .receiving).enqueue publishedId event).sockets =
      s.sockets.put { socket with phase := .receiving } := rfl
  have hunread : ∀ websocket,
      ((s.setPhase socket .receiving).enqueue publishedId event).unread runId websocket ≠ [] →
        s.unread runId websocket ≠ [] :=
    fun websocket => unread_putSocket hsocket hsockets rfl id
  by_cases he : publishedId = runId
  · subst he
    have hmessages : s.underWay publishedId socket.websocket =
        event :: eventsOf publishedId socket.inbox := by
      rw [underWay_of_socket hsocket, Socket.messages, hphase]
      simp [SocketPhase.messages]
    have hws := h.websocketOf (by rw [hmessages]; exact cons_ne_nil _ _)
    obtain ⟨run, hrun, hwsrun⟩ := bind_eq_some_iff.mp hws
    have hget : ((s.setPhase socket .receiving).enqueue publishedId event).runs.get? publishedId =
        some { run with queue := run.queue ++ [event] } := get?_putEvent_self hrun event
    have hid : run.runId = publishedId := key_of_get? hrun
    refine h.advance hrun hget rfl id h.unsent (fun websocket hne => ?_)
      (fun websocket hne => h.connected websocket (hunread websocket hne)) fun hflow => ?_
    · rw [underWay_put hsockets, if_neg]
      · exact h.elsewhere websocket hne
      · intro heq
        exact hne (heq ▸ hws)
    · have hbefore : s.carried run.runId = event :: eventsOf publishedId socket.inbox := by
        rw [hid, carried_of_websocket hws, hmessages]
      refine hflow.publish rfl rfl rfl rfl rfl rfl hbefore ?_
      · rw [hid, carried_of_websocket ((websocketOf_of_run hget).trans hwsrun),
          underWay_put hsockets, if_pos rfl]
        rfl
  · have hmessages : eventsOf runId socket.messages = eventsOf runId socket.inbox := by
      rw [Socket.messages, hphase]
      exact eventsOf_cons_of_ne he event socket.inbox
    refine h.frame (.putEvent_of_ne s.runs he event) id rfl rfl Iff.rfl
      (fun websocket => underWay_putSocket hsocket hsockets rfl ?_)
      fun websocket hne => ⟨hunread websocket hne, id⟩
    rw [hmessages]
    rfl

/-- A step of an endpoint that moves no message of the run. -/
theorem EventFlow.putSocket (h : EventFlow runId s)
    (hsocket : s.sockets.get? socket.websocket = some socket)
    (hsockets : s'.sockets = s.sockets.put socket') (hws : socket'.websocket = socket.websocket)
    (hmessages : eventsOf runId socket'.messages = eventsOf runId socket.messages)
    (hinbox : eventsOf runId socket.inbox = [] → eventsOf runId socket'.inbox = [])
    (hmanager : s'.manager = s.manager) (hruns : s'.runs = s.runs) (hturns : s'.turns = s.turns)
    (hemitted : s'.emitted = s.emitted) (happlied : s'.applied = s.applied)
    (hdetached : s'.detached = s.detached) : EventFlow runId s' := by
  refine h.frame (hruns ▸ .refl _ _) (by rw [hturns]; exact id) ?_ ?_ (by rw [hdetached])
    (fun websocket => underWay_putSocket hsocket hsockets hws hmessages)
    fun websocket hne => ⟨unread_putSocket hsocket hsockets hws hinbox hne, by rw [hmanager]; exact id⟩
  · unfold HostedState.emittedOf
    rw [hemitted]
  · unfold HostedState.appliedOf
    rw [happlied]

/-- The endpoint accepts a message: it is still on its way. -/
theorem EventFlow.accepts {receivedId : String}
    {inbox : List (String × ExecutorEvent)} (h : EventFlow runId s)
    (hsocket : s.sockets.get? socket.websocket = some socket)
    (hphase : socket.phase = .receiving) (hinbox : socket.inbox = (receivedId, event) :: inbox) :
    EventFlow runId (s.setPhase { socket with inbox := inbox } (.publishing receivedId event)) := by
  refine h.putSocket hsocket rfl rfl ?_ ?_ rfl rfl rfl rfl rfl rfl
  · rw [Socket.messages, Socket.messages, hphase, hinbox]
    rfl
  · intro hempty
    rw [hinbox] at hempty
    by_cases he : receivedId = runId
    · simp [he] at hempty
    · rwa [eventsOf_cons_of_ne he] at hempty

/-- A run that goes on is filed, and its websocket is the one of its node. -/
theorem judge_accepted (hwired : Wired s)
    (hfiled : Filed s) (hrun : s.runs.get? run.runId = some run)
    (hover : run.stage.isOver = false) (hkept : run.runId ∉ s.detached)
    (hws : run.websocket = some websocket) (hconnected : s.manager.isConnected websocket = true) :
    s.manager.judgeRunEvent websocket run.runId = .accepted := by
  have hmem := mem_of_get? hrun
  have hstate := hfiled.filed run hmem (by
    intro hfinished
    simp [hfinished, RunStage.isOver, RunStage.rank] at hover)
  rw [if_neg hkept] at hstate
  unfold NodeManager.isConnected at hconnected
  obtain ⟨nodeId, hnode⟩ := isSome_iff_exists.mp hconnected
  obtain ⟨c, hc, hcws⟩ := nodeIdForWebsocket_spec hnode
  have hrunNode := hwired.node run hmem c (mem_of_get? hc) (by rw [hws, hcws])
  unfold NodeManager.judgeRunEvent
  rw [hstate]
  simp [hrunNode, hnode, key_of_get? hc]

/-- The endpoint refuses a message: the run it is about is over. -/
theorem EventFlow.refuses {receivedId : String}
    {inbox : List (String × ExecutorEvent)} (h : EventFlow runId s) (hwired : Wired s)
    (hfiled : Filed s) (hsocket : s.sockets.get? socket.websocket = some socket)
    (hphase : socket.phase = .receiving) (hinbox : socket.inbox = (receivedId, event) :: inbox)
    (hverdict : s.manager.judgeRunEvent socket.websocket receivedId ≠ .accepted) :
    EventFlow runId (s.setPhase { socket with inbox := inbox } .receiving) := by
  have hmessages : socket.messages = (receivedId, event) :: inbox := by
    rw [Socket.messages, hphase, hinbox]
    rfl
  have hsockets : (s.setPhase { socket with inbox := inbox } .receiving).sockets =
      s.sockets.put { socket with inbox := inbox, phase := .receiving } := rfl
  by_cases he : receivedId = runId
  · subst he
    have hunder : s.underWay receivedId socket.websocket = event :: eventsOf receivedId inbox := by
      rw [underWay_of_socket hsocket, hmessages, eventsOf_cons_self]
    have hunread : s.unread receivedId socket.websocket = event :: eventsOf receivedId inbox := by
      rw [unread_of_socket hsocket, hinbox, eventsOf_cons_self]
    have hws := h.websocketOf (by rw [hunder]; exact cons_ne_nil _ _)
    have hconnected := h.connected socket.websocket (by rw [hunread]; exact cons_ne_nil _ _)
    obtain ⟨run, hrun, hwsrun⟩ := bind_eq_some_iff.mp hws
    have hid : run.runId = receivedId := key_of_get? hrun
    refine h.advance hrun hrun rfl id h.unsent (fun websocket hne => ?_)
      (fun websocket hne => ?_) fun hflow => ?_
    · rw [underWay_put hsockets, if_neg]
      · exact h.elsewhere websocket hne
      · intro heq
        exact hne (heq ▸ hws)
    · refine h.connected websocket (unread_putSocket hsocket hsockets rfl (fun hempty => ?_) hne)
      rw [hinbox, eventsOf_cons_self] at hempty
      cases hempty
    · cases hflow with
      | running hover hkept hparts =>
        have haccepted := judge_accepted hwired hfiled (hid ▸ hrun) hover hkept hwsrun hconnected
        rw [hid] at haccepted
        exact absurd haccepted hverdict
      | detached hover hmem hlost hend hparts hnothing =>
        rw [hid, carried_of_websocket hws, hunder] at hnothing
        cases hnothing
      | ended hover hlast hend hparts => exact .ended hover hlast hend hparts
  · refine h.putSocket hsocket hsockets rfl ?_ ?_ rfl rfl rfl rfl rfl rfl
    · rw [hmessages, eventsOf_cons_of_ne he]
      rfl
    · intro hempty
      rwa [hinbox, eventsOf_cons_of_ne he] at hempty

/-- The run is detached when nothing of it is on its way any more. -/
theorem Flow.detaches {lost : ExecutorEvent} (h : Flow s run)
    (hend : isTerminalEvent lost.eventType = true) (hrun' : run'.runId = run.runId)
    (hqueue' : run'.queue = run.queue ++ [lost]) (hstage' : run'.stage = run.stage)
    (hfresh : run.stage.isOver = false → run.runId ∉ s.detached)
    (hdetached : run.runId ∈ s'.detached)
    (hemitted : s'.emittedOf run.runId = s.emittedOf run.runId)
    (happlied : s'.appliedOf run.runId = s.appliedOf run.runId)
    (hbefore : s.carried run.runId = []) (hafter : s'.carried run.runId = []) : Flow s' run' := by
  cases h with
  | running hover hkept hparts =>
    refine .detached (hstage' ▸ hover) (hrun' ▸ hdetached) hqueue' hend ?_ (hrun' ▸ hafter)
    rw [hrun', hemitted, happlied, hparts, hbefore, append_nil]
  | detached hover hmem hlost hend' hparts hnothing => exact absurd hmem (hfresh hover)
  | ended hover hlast hend' hparts =>
    refine .ended (hstage' ▸ hover) (by rw [hrun', happlied, hlast]) hend' ?_
    rw [hrun', happlied, hemitted]
    exact hparts.imp_right fun hafter => ⟨hdetached, hafter.2⟩

theorem EventFlow.detaches {cleanup : Cleanup} {state : RunDispatchState} {runIds : List String}
    (h : EventFlow runId s) (hfiled : Filed s)
    (hloss : losesNothing runId s (.detachNext cleanup.cleanupId) = true)
    (hcleanup : s.cleanups.get? cleanup.cleanupId = some cleanup)
    (hstage : cleanup.stage = .detaching (state.runId :: runIds))
    (hstate : s.manager.runStates.get? state.runId = some state) :
    EventFlow runId ((s.setCleanup cleanup (.detaching runIds)).detach state cleanup.nodeId
      cleanup.reason) := by
  have hdetached : ((s.setCleanup cleanup (.detaching runIds)).detach state cleanup.nodeId
      cleanup.reason).detached = s.detached ++ [state.runId] := rfl
  by_cases he : state.runId = runId
  · subst he
    obtain ⟨run, hmem, hsame⟩ := hfiled.run state (mem_of_get? hstate)
    have hid : run.runId = state.runId := by rw [← hsame, HostedRun.runId]
    have hrun : s.runs.get? state.runId = some run := hid ▸ Table.get?_of_mem hmem
    have hget : ((s.setCleanup cleanup (.detaching runIds)).detach state cleanup.nodeId
        cleanup.reason).runs.get? state.runId =
          some { run with
            queue := run.queue ++ [lostEvent state cleanup.nodeId cleanup.reason] } :=
      get?_putEvent_self hrun _
    have hclear : ∀ websocket, run.websocket = some websocket →
        s.underWay state.runId websocket = [] := by
      intro websocket hws
      have hall : (s.websocketOf state.runId).all
          (fun websocket => (s.underWay state.runId websocket).isEmpty) = true := by
        simpa [losesNothing, hcleanup, hstage] using hloss
      rw [websocketOf_of_run hrun, hws] at hall
      simpa using hall
    have hcarried : s.carried state.runId = [] := by
      unfold HostedState.carried
      rw [websocketOf_of_run hrun]
      cases hws : run.websocket with
      | none => rfl
      | some websocket => exact hclear websocket hws
    refine h.advance hrun hget rfl id h.unsent h.elsewhere h.connected fun hflow => ?_
    refine hflow.detaches rfl rfl rfl rfl (fun hover hmem' => ?_) ?_ rfl rfl ?_ ?_
    · have hgone := hfiled.filed run hmem (by
        intro hfinished
        simp [hfinished, RunStage.isOver, RunStage.rank] at hover)
      rw [if_pos hmem', hid, hstate] at hgone
      cases hgone
    · rw [hdetached, hid]
      simp
    · rw [hid, hcarried]
    · rw [hid]
      unfold HostedState.carried
      rw [websocketOf_of_run hget]
      dsimp only
      cases hws : run.websocket with
      | none => rfl
      | some websocket => exact hclear websocket hws
  · refine h.frame (.putEvent_of_ne s.runs he _) id rfl rfl ?_ (fun _ => rfl)
      fun _ hunread => ⟨hunread, id⟩
    rw [hdetached]
    simp [Ne.symm he]

/-- The node emits an event while the run is not detached. -/
theorem Flow.emit (h : Flow s run)
    (hkept : run.runId ∉ s.detached) (hdetached : s'.detached = s.detached)
    (hemitted : s'.emittedOf run.runId = s.emittedOf run.runId ++ [event])
    (happlied : s'.appliedOf run.runId = s.appliedOf run.runId)
    (hcarried : s'.carried run.runId = s.carried run.runId ++ [event]) : Flow s' run := by
  cases h with
  | running hover hkept' hparts =>
    refine .running hover (by rwa [hdetached]) ?_
    rw [hemitted, happlied, hcarried, hparts]
    simp
  | detached hover hmem hlost hend hparts hnothing => exact absurd hmem hkept
  | ended hover hlast hend hparts =>
    refine .ended hover (by rw [happlied, hlast]) hend (.inl ?_)
    rw [happlied, hemitted]
    rcases hparts with hbefore | ⟨hmem, -⟩
    · exact hbefore.trans (prefix_append _ _)
    · exact absurd hmem hkept

theorem EventFlow.send {turn : NodeTurn} (h : EventFlow runId s)
    (hwired : Wired s) (hturn : s.turns.get? turn.runId = some turn)
    (hloss : turn.runId = runId → losesNothing.canReceive s runId = true)
    (hsockets : s'.sockets = deliver s.sockets turn.websocket (turn.runId, event))
    (hemitted : s'.emitted = s.emitted ++ [(turn.runId, event)])
    (hturns : s'.turns.get? runId = none → s.turns.get? runId = none)
    (hmanager : s'.manager = s.manager) (hruns : s'.runs = s.runs)
    (happlied : s'.applied = s.applied) (hdetached : s'.detached = s.detached) :
    EventFlow runId s' := by
  obtain ⟨run, hrun, hwsrun, -⟩ := hwired.turn turn (mem_of_get? hturn)
  obtain ⟨socket, hsocket⟩ := isSome_iff_exists.mp
    (hwired.chosen run (mem_of_get? hrun) turn.websocket hwsrun).1
  have hkey : socket.websocket = turn.websocket := key_of_get? hsocket
  have hself : s.sockets.get? socket.websocket = some socket := by rwa [hkey]
  have hput : s'.sockets =
      s.sockets.put { socket with inbox := socket.inbox ++ [(turn.runId, event)] } := by
    rw [hsockets, deliver, hsocket]
  have happlied' : s'.appliedOf runId = s.appliedOf runId := by
    unfold HostedState.appliedOf
    rw [happlied]
  by_cases he : turn.runId = runId
  · subst he
    have hcan := hloss rfl
    obtain ⟨hkept, hconnected⟩ : turn.runId ∉ s.detached ∧
        s.manager.isConnected turn.websocket = true := by
      simpa [losesNothing.canReceive, websocketOf_of_run hrun, hwsrun] using hcan
    have hid : run.runId = turn.runId := key_of_get? hrun
    have hws : s.websocketOf turn.runId = some turn.websocket :=
      (websocketOf_of_run hrun).trans hwsrun
    have hunder : ∀ websocket, turn.websocket ≠ websocket →
        s'.underWay turn.runId websocket = s.underWay turn.runId websocket := by
      intro websocket hne
      rw [underWay_put hput, if_neg]
      exact fun heq => hne (hkey.symm.trans heq)
    refine h.advance hrun (hruns ▸ hrun) rfl id (fun hnone => ?_) (fun websocket hne => ?_)
      (fun websocket hne => ?_) fun hflow => ?_
    · rw [hturns hnone] at hturn
      cases hturn
    · rw [hunder websocket fun heq => hne (heq ▸ hws)]
      exact h.elsewhere websocket hne
    · rw [hmanager]
      by_cases heq : turn.websocket = websocket
      · exact heq ▸ hconnected
      · rw [unread_put hput, if_neg fun h => heq (hkey.symm.trans h)] at hne
        exact h.connected websocket hne
    · have hemitted' : s'.emittedOf run.runId = s.emittedOf run.runId ++ [event] := by
        unfold HostedState.emittedOf
        rw [hemitted, hid]
        simp
      refine hflow.emit (hid ▸ hkept) hdetached hemitted' (hid ▸ happlied') ?_
      · rw [hid, carried_of_websocket hws]
        have hws' : s'.websocketOf turn.runId = some turn.websocket := by
          rw [← hws]
          unfold HostedState.websocketOf
          rw [hruns]
        rw [carried_of_websocket hws', underWay_put hput, if_pos hkey, underWay_of_socket hsocket]
        simp [Socket.messages]
  · have hrest : eventsOf runId [(turn.runId, event)] = [] := eventsOf_cons_of_ne he event []
    refine h.frame (hruns ▸ .refl _ _) hturns ?_ happlied' (by rw [hdetached])
      (fun websocket => underWay_putSocket hself hput rfl ?_) fun websocket hne => ⟨?_, ?_⟩
    · unfold HostedState.emittedOf
      rw [hemitted, eventsOf_append, hrest, append_nil]
    · simp only [Socket.messages, eventsOf_append, hrest, append_nil]
    · refine unread_putSocket hself hput rfl (fun hempty => ?_) hne
      rw [eventsOf_append, hempty, hrest, append_nil]
    · rw [hmanager]
      exact id

/-- A connection that is dropped has nothing of the run in its inbox. -/
theorem EventFlow.disconnect {cleanupId reason : String} (h : EventFlow runId s)
    (hempty : s.unread runId websocket = [])
    (hdrop : disconnect s websocket cleanupId reason = some s') : EventFlow runId s' := by
  rcases (disconnect_cases hdrop).2 with ⟨-, rfl⟩ | ⟨nodeId, hnode, rfl⟩
  · exact h
  · refine h.frame (.refl _ _) id rfl rfl Iff.rfl (fun _ => rfl) fun other hunread =>
      ⟨hunread, fun hconnected => ?_⟩
    obtain ⟨c, hc, hws⟩ := isConnected_iff.mp hconnected
    obtain ⟨dropped, hdropped, hdroppedWs⟩ := nodeIdForWebsocket_spec hnode
    refine isConnected_iff.mpr ⟨c, mem_erase.mpr ⟨hc, fun heq => ?_⟩, hws⟩
    -- the dropped connection is the one of the given websocket, whose inbox is empty
    rw [← heq, Table.get?_of_mem hc, some.injEq] at hdropped
    subst hdropped
    have hother : other = websocket := hws.symm.trans hdroppedWs
    exact hunread (hother ▸ hempty)

theorem EventFlow.register {c : NodeConnection} {manager : NodeManager} (h : EventFlow runId s)
    (hwired : Wired s) (hnew : s.sockets.get? c.websocket = none)
    (hregister : s.manager.registerConnection c = some manager) :
    EventFlow runId
      { s with manager := manager, sockets := s.sockets.put ⟨c.websocket, .scanDue, []⟩ } := by
  obtain ⟨hfree, rfl⟩ := registerConnection_cases hregister
  refine h.frame (.refl _ _) id rfl rfl Iff.rfl (fun websocket => ?_) fun websocket hunread =>
    ⟨?_, fun hconnected => ?_⟩
  · rw [underWay_put rfl]
    dsimp only
    split
    · rename_i heq
      subst heq
      simp [HostedState.underWay, hnew, Socket.messages, SocketPhase.messages]
    · rfl
  · rw [unread_put rfl] at hunread
    dsimp only at hunread
    split at hunread
    · simp at hunread
    · exact hunread
  · obtain ⟨c', hc', hws⟩ := isConnected_iff.mp hconnected
    refine isConnected_iff.mpr ⟨c', mem_put.mpr (.inr ⟨hc', fun heq => ?_⟩), hws⟩
    -- the node would be connected already, over a websocket that is new
    have hold : s.manager.connectionsByNode.get? c.nodeId = some c' := heq ▸ Table.get?_of_mem hc'
    have hknown := hwired.known c' hc'
    rw [hfree c' hold, hnew] at hknown
    cases hknown

end steps

/-- Nothing is applied after the event that ends the run. -/
structure StopsAtEnd (runId : String) (s : HostedState) : Prop where
  last : ∀ event ∈ (s.appliedOf runId).dropLast, isTerminalEvent event.eventType = false
  goesOn : (∀ run, s.runs.get? runId = some run → run.stage.isOver = false) →
    ∀ event ∈ s.appliedOf runId, isTerminalEvent event.eventType = false

variable {s : HostedState} {runId : String}

/-- A coroutine that has not come to the end of its run had not come to it before. -/
theorem not_over_before {s' : HostedState} (hmove : Move s l s')
    (h : ∀ run', s'.runs.get? runId = some run' → run'.stage.isOver = false) :
    ∀ run, s.runs.get? runId = some run → run.stage.isOver = false := by
  intro run hrun
  have hlater : ∃ run', s'.runs.get? runId = some run' ∧ run.stage.rank ≤ run'.stage.rank := by
    by_cases hl : ∀ dispatched, l ≠ .dispatchRun dispatched
    · obtain ⟨run', hrun', -, hrank⟩ := (hmove.statesKept hl).forth run (mem_of_get? hrun)
      rw [key_of_get? hrun] at hrun'
      exact ⟨run', hrun', hrank⟩
    · simp only [not_forall, not_not] at hl
      obtain ⟨dispatched, rfl⟩ := hl
      cases hmove with
      | dispatchRun htask hnew =>
        refine ⟨run, ?_, le_rfl⟩
        rw [← hrun]
        refine Table.get?_put_of_ne _ fun he => ?_
        have he' : dispatched.runId = runId := he
        rw [he', hrun] at hnew
        cases hnew
  obtain ⟨run', hrun', hrank⟩ := hlater
  have hnot := h run' hrun'
  simp only [RunStage.isOver, decide_eq_false_iff_not] at hnot ⊢
  omega

theorem stopsAtEnd_drain
    {board : Blackboard}
    (h : StopsAtEnd runId s) (hrun : s.runs.get? run.runId = some run)
    (hstage : run.stage = .draining) (hsame : run.runId = runId) :
    StopsAtEnd runId { s with
      runs := s.runs.put { run with
        stage := if isTerminalEvent event.eventType then .ending else .draining
        queue := queue }
      board := board
      applied := s.applied ++ [(run.runId, event)] } := by
  subst hsame
  have hbefore := h.goesOn (fun other hother => by
    obtain rfl : run = other := some.inj (hrun.symm.trans hother)
    simp [hstage, RunStage.isOver, RunStage.rank])
  have happlied : HostedState.appliedOf { s with
      runs := s.runs.put { run with
        stage := if isTerminalEvent event.eventType then .ending else .draining
        queue := queue }
      board := board
      applied := s.applied ++ [(run.runId, event)] } run.runId =
        s.appliedOf run.runId ++ [event] := by simp [HostedState.appliedOf]
  constructor
  · rw [happlied, dropLast_concat]
    exact hbefore
  · intro hnot other hother
    rw [happlied] at hother
    rcases mem_append.mp hother with hold | hnew
    · exact hbefore other hold
    · obtain rfl := mem_singleton.mp hnew
      have hget := Table.get?_put_self s.runs { run with
        stage := if isTerminalEvent other.eventType then RunStage.ending else .draining
        queue := queue }
      have hover := hnot _ hget
      cases hend : isTerminalEvent other.eventType with
      | false => rfl
      | true => simp [hend, RunStage.isOver, RunStage.rank] at hover

theorem stopsAtEnd_step {s' : HostedState}
    (h : StopsAtEnd runId s) (hmove : Move s l s') : StopsAtEnd runId s' := by
  have hbefore : (∀ run', s'.runs.get? runId = some run' → run'.stage.isOver = false) →
      ∀ run, s.runs.get? runId = some run → run.stage.isOver = false := not_over_before hmove
  have hframe : s'.appliedOf runId = s.appliedOf runId → StopsAtEnd runId s' := by
    intro happlied
    refine ⟨?_, fun hnot => ?_⟩
    · rw [happlied]
      exact h.last
    · rw [happlied]
      exact h.goesOn (hbefore hnot)
  cases hmove with
  | @drain run record task event queue hrun hstage hqueue hrecord htask =>
    by_cases he : run.runId = runId
    · exact stopsAtEnd_drain h hrun hstage he
    · refine hframe ?_
      have hnone : eventsOf runId [(run.runId, event)] = [] := eventsOf_cons_of_ne he event []
      unfold HostedState.appliedOf
      rw [eventsOf_append, hnone, append_nil]
  | sendFails hrun hstage hws hdrop | disconnect hdrop =>
    rcases (disconnect_cases hdrop).2 with ⟨-, rfl⟩ | ⟨nodeId, -, rfl⟩
    · exact hframe rfl
    · exact hframe rfl
  | _ => exact hframe rfl

theorem stopsAtEnd_inductive (types : List String) (runId : String) :
    (system types).Inductive (StopsAtEnd runId) where
  initially s hs := by
    obtain rfl : s = initialState types := hs
    exact ⟨fun event hmem => absurd hmem (by simp [HostedState.appliedOf, initialState]),
      fun _ event hmem => absurd hmem (by simp [HostedState.appliedOf, initialState])⟩
  preserved s l s' h hs := stopsAtEnd_step h (move_of_step hs)

theorem dropLast_sublist {α : Type*} {as bs : List α} (h : as.Sublist bs) :
    as.dropLast.Sublist bs.dropLast := by
  have htail := h.reverse.tail
  rw [tail_reverse, tail_reverse] at htail
  exact reverse_sublist.mp htail

/-- Whatever is sent, lost and applied, the event that ends a run is the last one applied. -/
theorem nothing_after_end (types : List String) (runId : String) (labels : List Label) :
    (system types).Always (StopsAtEnd runId) (initialState types) labels :=
  (stopsAtEnd_inductive types runId).always rfl

end Newbro.HostedRuns
