import Newbro.NodeCommands

/-!
# Failing commands on an executor node

Every step of the service (a command that the receive loop takes, an event or the end of a
run, a background command, a step of a subscription) is followed up to what it leaves of the
work that it is not about, and the steps whose exceptions have no boundary are singled out.
-/
namespace Newbro.NodeCommands

open Library Protocol

inductive Step where
  | receives (command : ControlCommand)
  | runYields (task : Nat) (event : ExecutorEvent)
  | runEnds (task : Nat) (raised : Option String)
  | backgroundRuns (task : Nat)
  | streamResumes (subscriptionId : String) (resumed : Except String String)
  | streamYields (subscriptionId method : String) (threadId : Option String)
  | streamFails (subscriptionId : String)

namespace NodeService

def take (service : NodeService) (calls : Calls) : Step → NodeService
  | .receives command => service.receive calls command
  | .runYields task event => service.runTaskEvent task event
  | .runEnds task raised => service.runTaskEnds calls task raised
  | .backgroundRuns task => service.backgroundCommandRuns calls task
  | .streamResumes subscriptionId resumed => service.streamResumes calls subscriptionId resumed
  | .streamYields subscriptionId method threadId =>
    service.streamEvent subscriptionId method threadId
  | .streamFails subscriptionId => service.streamFails subscriptionId

/-- The run that a step is about. -/
def ownRun (service : NodeService) : Step → Option String
  | .receives (.dispatchRun command) => some command.runId
  | .runYields task _ => (service.runTasks.get? task).map (·.command.runId)
  | .runEnds task _ => (service.runTasks.get? task).map (·.command.runId)
  | _ => none

/-- The subscription that a command is about. -/
def subscriptionOf : BackgroundCommand → Option String
  | .subscribeCodexThread command => some command.subscriptionId
  | .unsubscribeCodexThread _ subscriptionId _ => some subscriptionId
  | _ => none

def ownSubscription (service : NodeService) : Step → Option String
  | .backgroundRuns task =>
    (service.backgroundCommands.get? task).bind fun t => subscriptionOf t.command
  | .streamResumes subscriptionId _ => some subscriptionId
  | .streamYields subscriptionId _ _ => some subscriptionId
  | .streamFails subscriptionId => some subscriptionId
  | _ => none

def ownTask : Step → Option Nat
  | .backgroundRuns task => some task
  | _ => none

/-- What a step leaves: every run, subscription and background command but its own. -/
structure OthersKept (service service' : NodeService) (run subscription : Option String)
    (task : Option Nat) : Prop where
  runs : ∀ runId, run ≠ some runId →
    service'.activeRuns.get? runId = service.activeRuns.get? runId
  runTasks : ∀ t ∈ service.runTasks.entries, run ≠ some t.command.runId →
    t ∈ service'.runTasks.entries
  subscriptions : ∀ subscriptionId, subscription ≠ some subscriptionId →
    service'.subscriptions.get? subscriptionId = service.subscriptions.get? subscriptionId
  background : ∀ t ∈ service.backgroundCommands.entries, task ≠ some t.task →
    t ∈ service'.backgroundCommands.entries

/-- The dispatch that raises in a step, in the loop or in the task of its run. -/
def dispatchFails (service : NodeService) (calls : Calls) : Step → Option (DispatchRun × String)
  | .receives (.dispatchRun command) =>
    match service.dispatchRun calls command with
    | .ok _ => none
    | .error message => some (command, message)
  | .runEnds task (some message) => (service.runTasks.get? task).map fun t => (t.command, message)
  | _ => none

/-- The step takes nothing down: the control connection and all other work go on, and a
dispatch that fails is answered by the failure of its run. -/
structure Isolated (service : NodeService) (calls : Calls) (step : Step) : Prop where
  linked : (service.take calls step).link = .connected
  others : OthersKept service (service.take calls step) (service.ownRun step)
    (service.ownSubscription step) (ownTask step)
  failed : ∀ command message, service.dispatchFails calls step = some (command, message) →
    ∃ sessionId, (service.take calls step).sent =
      service.sent ++ [runEventOf command sessionId .failed (some message) Table.empty]

def raises {α : Type} : Except String α → Bool
  | .ok _ => false
  | .error _ => true

/-- A live session must be made for the command, and that fails. -/
def sessionFails (service : NodeService) (calls : Calls) (command : DispatchRun) : Bool :=
  ((service.liveSessions.get? command.executionSessionId).filter calls.alive).isNone &&
    (raises calls.resolveWorkspace || raises calls.createSession ||
      command.latestResumeHandle.isSome && raises calls.hydrate)

/-- The steps whose exception leaves the receive loop. -/
def unprotected (service : NodeService) (calls : Calls) : Step → Bool
  | .receives (.dispatchRun command) =>
    !service.executors.contains command.executorType || service.sessionFails calls command
  | .receives (.cancelRun runId _) => service.activeRuns.contains runId && raises calls.cancelRun
  | _ => false

/-! ## What each step leaves -/

variable {number : Nat} {context : SubscriptionContext} {subscriptionId : String}

section frames

variable {service service' service'' : NodeService} {run subscription : Option String}
  {task : Option Nat}

theorem OthersKept.refl : OthersKept service service run subscription task where
  runs := fun _ _ => rfl
  runTasks := fun _ ht _ => ht
  subscriptions := fun _ _ => rfl
  background := fun _ ht _ => ht

theorem OthersKept.trans (h : OthersKept service service' run subscription task)
    (h' : OthersKept service' service'' run subscription task) :
    OthersKept service service'' run subscription task where
  runs := fun runId hne => (h'.runs runId hne).trans (h.runs runId hne)
  runTasks := fun t ht hne => h'.runTasks t (h.runTasks t ht hne) hne
  subscriptions := fun id hne => (h'.subscriptions id hne).trans (h.subscriptions id hne)
  background := fun t ht hne => h'.background t (h.background t ht hne) hne

/-- Nothing but messages, sessions and workspaces changes. -/
theorem OthersKept.of_eq (hruns : service'.activeRuns = service.activeRuns)
    (htasks : service'.runTasks = service.runTasks)
    (hsubscriptions : service'.subscriptions = service.subscriptions)
    (hbackground : service'.backgroundCommands = service.backgroundCommands) :
    OthersKept service service' run subscription task where
  runs := fun _ _ => by rw [hruns]
  runTasks := fun _ ht _ => by rw [htasks]; exact ht
  subscriptions := fun _ _ => by rw [hsubscriptions]
  background := fun _ ht _ => by rw [hbackground]; exact ht

theorem not_mem_freshTask {tasks : List Nat} {task : Nat} (h : task ∈ tasks) :
    task < freshTask tasks := by
  induction tasks with
  | nil => cases h
  | cons other tasks ih =>
    have hle : max other (tasks.foldr max 0) = (other :: tasks).foldr max 0 := rfl
    unfold freshTask at ih ⊢
    rw [← hle]
    rcases List.mem_cons.mp h with rfl | hmem
    · omega
    · have := ih hmem
      omega

theorem startRun_others (executor : Executor) (session : LiveSession) (command : DispatchRun) :
    OthersKept service (service.startRun executor session command) (some command.runId)
      subscription task where
  runs := by
    intro runId hne
    have hother : command.runId ≠ runId := fun he => hne (congrArg some he)
    exact Table.get?_put_of_ne _ hother
  runTasks := by
    intro t ht _
    have hlt := not_mem_freshTask (List.mem_map_of_mem (f := RunTask.task) ht)
    refine Table.mem_put.mpr (.inr ⟨ht, ?_⟩)
    show t.task ≠ freshTask (service.runTasks.entries.map RunTask.task)
    omega
  subscriptions := fun _ _ => rfl
  background := fun _ ht _ => ht

theorem scheduleBackgroundCommand_others (command : BackgroundCommand) :
    OthersKept service (service.scheduleBackgroundCommand command) run subscription task where
  runs := fun _ _ => rfl
  runTasks := fun _ ht _ => ht
  subscriptions := fun _ _ => rfl
  background := by
    intro t ht _
    have hlt := not_mem_freshTask (List.mem_map_of_mem (f := BackgroundTask.task) ht)
    refine Table.mem_put.mpr (.inr ⟨ht, ?_⟩)
    show t.task ≠ freshTask (service.backgroundCommands.entries.map BackgroundTask.task)
    omega

theorem finishRunTask_others {calls : Calls} {t : RunTask}
    (h : service.runTasks.get? number = some t) :
    OthersKept service (service.finishRunTask calls t) (some t.command.runId) subscription
      task where
  runs := by
    intro runId hne
    have hother : t.command.runId ≠ runId := fun he => hne (congrArg some he)
    exact Table.get?_erase_of_ne _ hother
  runTasks := by
    intro other hother hne
    refine Table.mem_erase.mpr ⟨hother, ?_⟩
    intro hsame
    have heq := service.runTasks.eq_of_key_eq hother (Table.mem_of_get? h) hsame
    rw [heq] at hne
    exact hne rfl
  subscriptions := fun _ _ => rfl
  background := fun _ ht _ => ht

theorem putContext_others
    (h : context.subscriptionId = subscriptionId) :
    OthersKept service (service.putContext context) run (some subscriptionId) task where
  runs := fun _ _ => rfl
  runTasks := fun _ ht _ => ht
  subscriptions := by
    intro id hne
    have hother : context.subscriptionId ≠ id := fun he => hne (by rw [← h, he])
    exact Table.get?_put_of_ne _ hother
  background := fun _ ht _ => ht

theorem eraseSubscription_others (subscriptionId : String) :
    OthersKept service
      { service with subscriptions := service.subscriptions.erase subscriptionId } run
      (some subscriptionId) task where
  runs := fun _ _ => rfl
  runTasks := fun _ ht _ => ht
  subscriptions := by
    intro id hne
    have hother : subscriptionId ≠ id := fun he => hne (congrArg some he)
    exact Table.get?_erase_of_ne _ hother
  background := fun _ ht _ => ht

end frames

/-! ## One step of each kind -/

variable {command : DispatchRun}

variable {service' : NodeService} {subscription : Option String}

section steps

variable {service : NodeService} {calls : Calls} {run : Option String} {task : Option Nat}

theorem send_others (subscription : Option String) (message : NodeMessage) :
    OthersKept service (service.send message) run subscription task :=
  .of_eq rfl rfl rfl rfl

theorem sendAll_others (subscription : Option String) (messages : List NodeMessage) :
    OthersKept service (service.sendAll messages) run subscription task :=
  .of_eq rfl rfl rfl rfl

theorem ensureSession_others {session : LiveSession}
    (h : service.ensureSession calls command = .ok (session, service')) :
    OthersKept service service' run subscription task ∧ service'.link = service.link := by
  unfold ensureSession at h
  split at h
  · cases h
    exact ⟨.refl, rfl⟩
  · simp only [bind, Except.bind] at h
    split at h
    · cases h
    · split at h
      · cases h
      · split at h
        · split at h
          · cases h
          · cases h
            exact ⟨.of_eq rfl rfl rfl rfl, rfl⟩
        · cases h
          exact ⟨.of_eq rfl rfl rfl rfl, rfl⟩

variable (service calls) in
/-- Making a session fails exactly where one is needed and a call raises. -/
theorem raises_ensureSession (command : DispatchRun) :
    raises (service.ensureSession calls command) = service.sessionFails calls command := by
  unfold ensureSession sessionFails
  cases hlive : (service.liveSessions.get? command.executionSessionId).filter calls.alive with
  | some session => rfl
  | none =>
    cases hworkspace : calls.resolveWorkspace <;> cases hcreate : calls.createSession <;>
      cases hhandle : command.latestResumeHandle <;> cases hhydrate : calls.hydrate <;> rfl

variable (service calls) in
theorem raises_dispatchRun (command : DispatchRun) : raises (service.dispatchRun calls command) =
      (!service.executors.contains command.executorType || service.sessionFails calls command) := by
  unfold dispatchRun Table.contains
  cases hexecutor : service.executors.get? command.executorType with
  | none => rfl
  | some executor =>
    rw [← raises_ensureSession]
    cases service.ensureSession calls command <;> rfl

theorem dispatchRun_others
    (h : service.dispatchRun calls command = .ok service') :
    OthersKept service service' (some command.runId) subscription task ∧
      service'.link = service.link := by
  unfold dispatchRun at h
  split at h
  · cases h
  · rename_i executor hexecutor
    cases hsession : service.ensureSession calls command with
    | error message =>
      rw [hsession] at h
      cases h
    | ok made =>
      obtain ⟨session, between⟩ := made
      rw [hsession] at h
      cases h
      obtain ⟨hothers, hlink⟩ := ensureSession_others hsession
      exact ⟨hothers.trans (startRun_others executor session command), hlink⟩

variable (service calls run task)

theorem stopCodexThreadSubscription_others (subscriptionId : String) :
    OthersKept service (service.stopCodexThreadSubscription calls subscriptionId).2 run
        (some subscriptionId) task ∧
      (service.stopCodexThreadSubscription calls subscriptionId).2.link = service.link := by
  unfold stopCodexThreadSubscription
  split
  · exact ⟨.refl, rfl⟩
  · exact ⟨eraseSubscription_others subscriptionId, rfl⟩

theorem subscribeCodexThread_others (command : SubscribeCodexThread) :
    OthersKept service (service.subscribeCodexThread calls command).1 run
        (some command.subscriptionId) task ∧
      (service.subscribeCodexThread calls command).1.link = service.link := by
  have hstop := stopCodexThreadSubscription_others service calls run task command.subscriptionId
  unfold subscribeCodexThread
  simp only
  split
  · exact hstop
  · split
    · exact ⟨hstop.1.trans (send_others _ _), hstop.2⟩
    · refine ⟨hstop.1.trans (OthersKept.trans ?_ (send_others _ _)), hstop.2⟩
      exact putContext_others rfl

theorem unsubscribeCodexThread_others (requestId subscriptionId threadId : String) :
    OthersKept service
        (service.unsubscribeCodexThread calls requestId subscriptionId threadId).1 run
        (some subscriptionId) task ∧
      (service.unsubscribeCodexThread calls requestId subscriptionId threadId).1.link =
        service.link := by
  have hstop := stopCodexThreadSubscription_others service calls run task subscriptionId
  unfold unsubscribeCodexThread
  simp only
  split
  · exact hstop
  · exact ⟨hstop.1.trans (send_others _ _), hstop.2⟩

theorem readWorkspaceFile_others (requestId threadId : String)
    (executorThreadId subscription : Option String) : OthersKept service
        (service.readWorkspaceFile calls requestId threadId executorThreadId).1 run
        subscription task ∧
      (service.readWorkspaceFile calls requestId threadId executorThreadId).1.link =
        service.link := by
  unfold readWorkspaceFile
  simp only
  split
  · exact ⟨send_others _ _, rfl⟩
  · split
    · exact ⟨send_others _ _, rfl⟩
    · exact ⟨.refl, rfl⟩
    · split
      · exact ⟨(sendAll_others _ _).trans (send_others _ _), rfl⟩
      · exact ⟨sendAll_others _ _, rfl⟩
      · exact ⟨(sendAll_others _ _).trans (send_others _ _), rfl⟩

theorem listCodexThreads_others (requestId executorType : String) (subscription : Option String) :
    OthersKept service (service.listCodexThreads calls requestId executorType) run
        subscription task ∧
      (service.listCodexThreads calls requestId executorType).link = service.link := by
  unfold listCodexThreads
  split
  · exact ⟨send_others _ _, rfl⟩
  · split
    · exact ⟨send_others _ _, rfl⟩
    · exact ⟨.of_eq rfl rfl rfl rfl, rfl⟩

/-- A background command touches the tables only where it is about a subscription. -/
theorem runBackgroundCommand_others (command : BackgroundCommand) :
    OthersKept service (service.runBackgroundCommand calls command).1 run
        (subscriptionOf command) task ∧
      (service.runBackgroundCommand calls command).1.link = service.link := by
  cases command with
  | startCodexTurn command =>
    simp only [runBackgroundCommand, startCodexTurn]
    split
    · exact ⟨send_others _ _, rfl⟩
    · exact ⟨sendAll_others _ _, rfl⟩
  | listCodexThreads requestId executorType =>
    exact listCodexThreads_others service calls run task requestId executorType none
  | listCodexThreadTurns | readCodexThread =>
    simp only [runBackgroundCommand, replyPage]
    split <;> exact ⟨send_others _ _, rfl⟩
  | readWorkspaceFile requestId threadId executorThreadId path =>
    exact readWorkspaceFile_others service calls run task requestId threadId executorThreadId none
  | subscribeCodexThread command => exact subscribeCodexThread_others service calls run task command
  | unsubscribeCodexThread requestId subscriptionId threadId =>
    exact unsubscribeCodexThread_others service calls run task requestId subscriptionId threadId

theorem backgroundCommandRuns_others (number : Nat) :
    OthersKept service (service.backgroundCommandRuns calls number) run
        ((service.backgroundCommands.get? number).bind fun t => subscriptionOf t.command)
        (some number) ∧
      (service.backgroundCommandRuns calls number).link = service.link := by
  unfold backgroundCommandRuns
  cases htask : service.backgroundCommands.get? number with
  | none => exact ⟨.refl, rfl⟩
  | some t =>
    obtain ⟨hothers, hlink⟩ := runBackgroundCommand_others service calls run (some number)
      t.command
    refine ⟨⟨hothers.runs, hothers.runTasks, hothers.subscriptions, ?_⟩, hlink⟩
    intro other hother hne
    refine Table.mem_erase.mpr ⟨hothers.background other hother hne, ?_⟩
    intro hsame
    exact hne (congrArg some hsame.symm)

theorem putContext_kept {phase : StreamPhase}
    (session : Option String) (stream : StreamPhase)
    (h : (service.subscriptions.get? subscriptionId).filter (·.stream = phase) = some context) :
    OthersKept service
      (service.putContext { context with session := session, stream := stream }) run
      (some subscriptionId) task := by
  have hid : context.subscriptionId = subscriptionId :=
    Table.key_of_get? (Option.filter_eq_some_iff.mp h).1
  exact putContext_others hid

theorem streamResumes_others (subscriptionId : String) (resumed : Except String String) :
    OthersKept service (service.streamResumes calls subscriptionId resumed) run
        (some subscriptionId) task ∧
      (service.streamResumes calls subscriptionId resumed).link = service.link := by
  unfold streamResumes
  cases hcontext : (service.subscriptions.get? subscriptionId).filter
      (·.stream = .resuming) with
  | none => exact ⟨.refl, rfl⟩
  | some context =>
    have hput := fun session stream => putContext_kept service run task session stream hcontext
    cases resumed with
    | error message => exact ⟨eraseSubscription_others _, rfl⟩
    | ok session =>
      simp only
      split
      · exact ⟨hput _ _, rfl⟩
      · exact ⟨hput _ _, rfl⟩
      · refine ⟨?_, rfl⟩
        have hstreaming := hput (some session) .streaming
        exact ⟨hstreaming.runs, hstreaming.runTasks, hstreaming.subscriptions,
          hstreaming.background⟩

theorem streamFails_others (subscriptionId : String) :
    OthersKept service (service.streamFails subscriptionId) run (some subscriptionId) task ∧
      (service.streamFails subscriptionId).link = service.link := by
  unfold streamFails
  cases hcontext : (service.subscriptions.get? subscriptionId).filter
      (·.stream = .streaming) with
  | none => exact ⟨.refl, rfl⟩
  | some context => exact ⟨putContext_kept service run task context.session .ended hcontext, rfl⟩

theorem streamEvent_others (subscriptionId method : String) (threadId : Option String) :
    OthersKept service (service.streamEvent subscriptionId method threadId) run
        (some subscriptionId) task ∧
      (service.streamEvent subscriptionId method threadId).link = service.link := by
  unfold streamEvent
  split
  · exact ⟨.refl, rfl⟩
  · split
    · exact ⟨.refl, rfl⟩
    · exact ⟨send_others _ _, rfl⟩

theorem runTaskEnds_others (number : Nat) (raised subscription : Option String) :
    OthersKept service (service.runTaskEnds calls number raised)
        ((service.runTasks.get? number).map (·.command.runId)) subscription task ∧
      (service.runTaskEnds calls number raised).link = service.link := by
  unfold runTaskEnds
  cases htask : service.runTasks.get? number with
  | none => exact ⟨.refl, rfl⟩
  | some t =>
    cases raised with
    | none => exact ⟨finishRunTask_others htask, rfl⟩
    | some message =>
      refine ⟨?_, rfl⟩
      apply (send_others _ _).trans
      exact finishRunTask_others htask

/-! ## The receive loop -/

/-- An exception that leaves the loop ends the connection. -/
theorem link_reconnect : (service.reconnect calls).link ≠ .connected := by
  have hcancel : ∀ (ids : List String) (service : NodeService),
      (cancelCodexThreadSubscriptions calls ids service).1.link = service.link := by
    intro ids
    induction ids with
    | nil => exact fun _ => rfl
    | cons id ids ih =>
      intro service
      have hstop := (stopCodexThreadSubscription_others service calls none none id).2
      unfold cancelCodexThreadSubscriptions
      split
      · rename_i hstopped
        rw [hstopped] at hstop
        exact hstop
      · rename_i hstopped
        rw [hstopped] at hstop
        rw [ih, hstop]
  unfold reconnect
  simp only
  split
  · simp
  · rename_i ended hended
    have hlink := hcancel (({ service.cancelActiveRuns calls with
      link := .retrying }).subscriptions.entries.map SubscriptionContext.subscriptionId)
      { service.cancelActiveRuns calls with link := .retrying }
    rw [hended] at hlink
    simp only at hlink
    rw [hlink]
    simp

/-- Which commands raise in the loop itself. -/
theorem raises_handleMessage (command : ControlCommand) :
    raises (service.handleMessage calls command) =
      service.unprotected calls (.receives command) := by
  cases command with
  | dispatchRun command => exact raises_dispatchRun service calls command
  | cancelRun runId mode =>
    simp only [handleMessage, cancelRun, unprotected, Table.contains]
    cases hrun : service.activeRuns.get? runId with
    | none => rfl
    | some context => cases hcall : calls.cancelRun <;> rfl
  | dispatchAudioInstruction | transcribeAudioInstruction | dispatchTextInstruction
  | background | supplyInteractionResponse | releaseRun => rfl

theorem handleMessage_others {service' : NodeService} (command : ControlCommand)
    (h : service.handleMessage calls command = .ok service') :
    OthersKept service service' (service.ownRun (.receives command)) none none ∧
      service'.link = service.link := by
  cases command with
  | dispatchRun command => exact dispatchRun_others h
  | cancelRun runId mode =>
    simp only [handleMessage, cancelRun] at h
    split at h
    · cases h
      exact ⟨.refl, rfl⟩
    · cases hcall : calls.cancelRun with
      | error message =>
        rw [hcall] at h
        cases h
      | ok _ =>
        rw [hcall] at h
        cases h
        exact ⟨.refl, rfl⟩
  | dispatchAudioInstruction | dispatchTextInstruction =>
    cases h
    exact ⟨sendAll_others _ _, rfl⟩
  | transcribeAudioInstruction requestId audio =>
    cases h
    exact ⟨send_others _ _, rfl⟩
  | background command =>
    cases h
    exact ⟨scheduleBackgroundCommand_others command, rfl⟩
  | supplyInteractionResponse executionSessionId outboundTurnRequestId nativeResponse =>
    cases h
    unfold supplyInteractionResponse
    split
    · split <;> exact ⟨.of_eq rfl rfl rfl rfl, rfl⟩
    · exact ⟨.refl, rfl⟩
  | releaseRun executionSessionId =>
    cases h
    exact ⟨.of_eq rfl rfl rfl rfl, rfl⟩

end steps

/-! ## What takes nothing down -/

section isolation

variable (service : NodeService) (calls : Calls)

/-- A step that does not raise in the loop leaves all other work and the connection. -/
theorem take_others (step : Step) (h : service.unprotected calls step = false) :
    OthersKept service (service.take calls step) (service.ownRun step)
        (service.ownSubscription step) (ownTask step) ∧
      (service.take calls step).link = service.link := by
  cases step with
  | receives command =>
    have hraises := service.raises_handleMessage calls command
    rw [h] at hraises
    cases hhandle : service.handleMessage calls command with
    | error message =>
      rw [hhandle] at hraises
      cases hraises
    | ok service' =>
      simp only [take, receive, hhandle]
      exact service.handleMessage_others calls command hhandle
  | runYields number event =>
    simp only [take, runTaskEvent]
    split
    · exact ⟨.refl, rfl⟩
    · exact ⟨send_others _ _, rfl⟩
  | runEnds number raised => exact service.runTaskEnds_others calls none number raised none
  | backgroundRuns number => exact service.backgroundCommandRuns_others calls none number
  | streamResumes subscriptionId resumed =>
    exact service.streamResumes_others calls none none subscriptionId resumed
  | streamYields subscriptionId method threadId =>
    exact service.streamEvent_others none none subscriptionId method threadId
  | streamFails subscriptionId => exact service.streamFails_others none none subscriptionId

/-- In the task of its run, a dispatch that fails is answered by the failure of the run. -/
theorem runEnds_failed {message : String} {raised : Option String}
    (h : service.dispatchFails calls (.runEnds number raised) = some (command, message)) :
    ∃ sessionId, (service.take calls (.runEnds number raised)).sent =
      service.sent ++ [runEventOf command sessionId .failed (some message) Table.empty] := by
  cases raised with
  | none => cases h
  | some text =>
    simp only [dispatchFails] at h
    cases htask : service.runTasks.get? number with
    | none =>
      rw [htask] at h
      cases h
    | some t =>
      rw [htask] at h
      cases h
      refine ⟨t.session.sessionId, ?_⟩
      simp only [take, runTaskEnds, htask]
      rfl

/-- For every state of a connected service and every step: the step takes nothing down
exactly when its exception, if any, does not leave the receive loop. -/
theorem isolated_iff (hlink : service.link = .connected) (step : Step) :
    service.Isolated calls step ↔ service.unprotected calls step = false := by
  constructor
  · intro h
    by_contra hunprotected
    rw [Bool.not_eq_false] at hunprotected
    cases step with
    | receives command =>
      have hraises := service.raises_handleMessage calls command
      rw [hunprotected] at hraises
      have hlinked := h.linked
      cases hhandle : service.handleMessage calls command with
      | ok service' =>
        rw [hhandle] at hraises
        cases hraises
      | error message =>
        simp only [take, receive, hhandle] at hlinked
        exact service.link_reconnect calls hlinked
    | runYields | runEnds | backgroundRuns | streamResumes | streamYields | streamFails =>
      cases hunprotected
  · intro hprotected
    obtain ⟨hothers, hsame⟩ := service.take_others calls step hprotected
    refine ⟨hsame.trans hlink, hothers, ?_⟩
    intro command message hfails
    cases step with
    | receives received =>
      cases received with
      | dispatchRun dispatched =>
        have hraises := service.raises_dispatchRun calls dispatched
        simp only [dispatchFails] at hfails
        split at hfails
        · cases hfails
        · rename_i message' herror
          rw [herror] at hraises
          simp only [unprotected] at hprotected
          rw [hprotected] at hraises
          cases hraises
      | _ => cases hfails
    | runEnds number raised => exact service.runEnds_failed calls hfails
    | _ => cases hfails

end isolation

/-! A node that runs Codex alone, with one run going on, is sent a run for another executor. -/

def codexExecutor : Executor :=
  ⟨"codex", true, true, true, true, true, true, true, false⟩

def busyNode : NodeService :=
  { executors := Table.empty.put codexExecutor
    transcriberAvailable := false
    liveSessions := Table.empty.put ⟨"exec-1", "codex-session-1", true⟩
    threadWorkspaces := Table.empty
    codexThreadWorkspaces := Table.empty
    activeRuns := Table.empty.put ⟨"run-1", codexExecutor, "exec-1", 1⟩
    runTasks := Table.empty
    subscriptions := Table.empty
    backgroundCommands := Table.empty
    blockedResolved := []
    link := .connected
    sent := [] }

def quietCalls : Calls :=
  { resolveWorkspace := .ok "/workspaces/ws-1"
    createSession := .ok ⟨"exec-2", "codex-session-2", true⟩
    hydrate := .ok ()
    alive := fun _ => true
    cancelRun := .ok ()
    threads := .ok []
    page := .ok .null
    events := []
    raised := none
    transcribe := .ok ""
    respond := .ok ()
    outboundSession := fun _ => none
    unsubscribe := .ok none
    resolveFile := .ok ""
    blocks := []
    blocksFail := none }

def runFor (executorType : String) : DispatchRun :=
  { runId := "run-2"
    executionSessionId := "exec-2"
    executorType := executorType
    taskId := "task-2"
    title := "Second"
    goal := "Second"
    latestInstruction := none
    workspaceId := none
    taskMetadata := Table.empty
    latestResumeHandle := none }

theorem isolated_codex_run :
    busyNode.Isolated quietCalls (.receives (.dispatchRun (runFor "codex"))) ↔
      busyNode.unprotected quietCalls (.receives (.dispatchRun (runFor "codex"))) = false :=
  isolated_iff busyNode quietCalls rfl _

/-- The run that is not even of this node is gone, the connection too, and nothing is said
about the run that failed. -/
theorem disabled_executor_not_isolated :
    ¬ busyNode.Isolated quietCalls (.receives (.dispatchRun (runFor "acpx"))) ∧
      (busyNode.receive quietCalls (.dispatchRun (runFor "acpx"))).link = .retrying ∧
      (busyNode.receive quietCalls (.dispatchRun (runFor "acpx"))).activeRuns.get? "run-1" =
        none ∧
      (busyNode.receive quietCalls (.dispatchRun (runFor "acpx"))).sent = [] := by
  have hlink : (busyNode.receive quietCalls (.dispatchRun (runFor "acpx"))).link = .retrying := by
    decide
  refine ⟨?_, hlink, by decide, rfl⟩
  intro h
  have hlinked : (busyNode.receive quietCalls (.dispatchRun (runFor "acpx"))).link = .connected :=
    h.linked
  rw [hlink] at hlinked
  cases hlinked

end NodeService

end Newbro.NodeCommands
