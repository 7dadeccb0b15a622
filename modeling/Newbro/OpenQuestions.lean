import Newbro.CancelledTasks
import Newbro.RequestMoves
import Newbro.Snapshots

/-!
# Open questions

A task asks its user one thing at a time, and only while it waits for the answer. A request
for a blocked run is refused only while one about the same run is open, a request for a
summary only while one about the same task is. The notification loop gets to a write at any
later time, so requests are raised here whenever the run is still blocked, or the summary
still needs input.
-/
namespace Newbro.Snapshots

open Library Protocol BlockedRequests OutboundTurns
  SessionRuntime Option

structure OneOpenQuestion (b : Blackboard) : Prop where
  ofTask : ∀ r ∈ b.requests.entries, ∀ r' ∈ b.requests.entries, r.status = .pending →
    r'.status = .pending → ∀ taskId, r.taskId = some taskId → r'.taskId = some taskId → r = r'
  ofTurn : ∀ r ∈ b.requests.entries, ∀ r' ∈ b.requests.entries, r.status = .pending →
    r'.status = .pending → ∀ turnId, r.outboundTurnRequestId = some turnId →
      r'.outboundTurnRequestId = some turnId → r = r'
  waiting : ∀ r ∈ b.requests.entries, r.status = .pending → ∀ taskId, r.taskId = some taskId →
    taskStatus b taskId = some .waitingUserInput

/-- A request about the task is open. -/
def hasOpenRequest (b : Blackboard) (taskId : String) : Bool :=
  b.requests.entries.any fun r => r.status = .pending && r.taskId = some taskId

def waitsForUser (b : Blackboard) (taskId : String) : Bool :=
  taskStatus b taskId = some .waitingUserInput

/-- A step that writes the status of a task with an open request leaves it waiting, and a
request is raised only for a task that waits and has none open. -/
def asksInTurn (cfg : Config) (s : State) : Label → Bool
  | .session label =>
    s.session.board.requests.entries.all fun r =>
      r.status ≠ .pending || r.taskId.all fun taskId =>
        (statusWritten cfg.session s.session label taskId).all (· = .waitingUserInput)
  | .requestFromRun _ runId =>
    (s.session.board.getRun runId).all fun run =>
      waitsForUser s.session.board run.taskId && !hasOpenRequest s.session.board run.taskId
  | .requestFromSummary _ taskId => waitsForUser s.session.board taskId
  | _ => true

/-! ## What becomes of the open requests -/

variable {cfg : SessionCommands.Config} {s s' : SessionState} {label : SessionRuntime.Label}

/-- Only raising a request adds an open one. -/
theorem open_of_step
    (h : SessionRuntime.step cfg s label = some s')
    (hraise : ∀ request, label ≠ .raiseRequest request) {r : InteractionRequest}
    (hr : r ∈ s'.board.requests.entries) (hopen : r.status = .pending) :
    r ∈ s.board.requests.entries := by
  by_cases hwrites : label.writesRequests = false
  · rwa [requests_step h hwrites] at hr
  · cases label with
    | raiseRequest request => exact absurd rfl (hraise request)
    | beginAnswer requestId answer =>
      obtain ⟨found, status, -, -, hstatus, rfl⟩ := beginAnswerStep_cases h
      rcases Table.mem_put.mp hr with rfl | ⟨hold, -⟩
      · exact absurd hopen hstatus
      · exact hold
    | finishCommand commandId =>
      obtain ⟨c, -, -, rfl⟩ := finishCommandStep_cases h
      have hget : (SessionCommands.finishCommand s.board c).getRequest r.requestId = some r :=
        Table.get?_of_mem hr
      rw [getRequest_finishCommand] at hget
      split_ifs at hget
      · obtain ⟨old, hold, rfl⟩ := map_eq_some_iff.mp hget
        unfold cancelledRequest at hopen ⊢
        split_ifs at hopen ⊢
        exact Table.mem_of_get? hold
      · exact Table.mem_of_get? hget
    | _ => exact absurd rfl hwrites

variable {b : Blackboard}

/-- Steps that add no open request and keep the tasks of the open ones waiting. -/
theorem OneOpenQuestion.of_subset {b' : Blackboard} (h : OneOpenQuestion b)
    (hopen : ∀ r ∈ b'.requests.entries, r.status = .pending → r ∈ b.requests.entries)
    (hwaiting : ∀ r ∈ b.requests.entries, r.status = .pending → ∀ taskId,
      r.taskId = some taskId → taskStatus b' taskId = some .waitingUserInput) :
    OneOpenQuestion b' where
  ofTask r hr r' hr' hp hp' := h.ofTask r (hopen r hr hp) r' (hopen r' hr' hp') hp hp'
  ofTurn r hr r' hr' hp hp' := h.ofTurn r (hopen r hr hp) r' (hopen r' hr' hp') hp hp'
  waiting r hr hp := hwaiting r (hopen r hr hp) hp

theorem oneOpenQuestion_session_iff
    (hI : OneOpenQuestion s.board)
    (h : SessionRuntime.step cfg s label = some s')
    (hraise : ∀ request, label ≠ .raiseRequest request) : OneOpenQuestion s'.board ↔
      ∀ r ∈ s.board.requests.entries, r.status = .pending → ∀ taskId, r.taskId = some taskId →
        ∀ status, statusWritten cfg s label taskId = some status → status = .waitingUserInput := by
  constructor
  · intro hI' r hr hp taskId htask status hwritten
    -- a step that writes a status leaves the requests, so the request is open still
    have hsame := requests_step h (writesRequests_of_statusWritten hwritten)
    have hr' : r ∈ s'.board.requests.entries := hsame ▸ hr
    have hafter := step_taskStatus h (hI.waiting r hr hp taskId htask)
    rw [hI'.waiting r hr' hp taskId htask, hwritten] at hafter
    exact (some.inj hafter).symm
  · intro hkeeps
    refine hI.of_subset (fun r hr hp => open_of_step h hraise hr hp) fun r hr hp taskId htask => ?_
    rw [step_taskStatus h (hI.waiting r hr hp taskId htask)]
    cases hwritten : statusWritten cfg s label taskId with
    | none => rfl
    | some status => rw [hkeeps r hr hp taskId htask status hwritten, getD_some]

variable {taskId : String}

theorem hasOpenRequest_eq_false : hasOpenRequest b taskId = false ↔
      ∀ r ∈ b.requests.entries, r.status = .pending → r.taskId ≠ some taskId := by
  simp only [hasOpenRequest, List.any_eq_false, Bool.and_eq_true, decide_eq_true_eq, not_and]

theorem taskStatus_putInteractionRequest (b : Blackboard) (request : InteractionRequest)
    (taskId : String) :
    taskStatus (b.putInteractionRequest request) taskId = taskStatus b taskId := by
  unfold taskStatus
  rw [taskView_congr (Blackboard.tasks_putRequest ..)]

/-- A request about a task is raised rightly when the task waits and asks nothing else. -/
theorem oneOpenQuestion_raise_iff {request : InteractionRequest}
    (hI : OneOpenQuestion b) (hfresh : b.getRequest request.requestId = none)
    (hp : request.status = .pending) (htask : request.taskId = some taskId)
    (hturn : request.outboundTurnRequestId = none) :
    OneOpenQuestion (b.putInteractionRequest request) ↔
      waitsForUser b taskId = true ∧ hasOpenRequest b taskId = false := by
  have hmem : ∀ r, r ∈ (b.putInteractionRequest request).requests.entries ↔
      r = request ∨ r ∈ b.requests.entries := by
    intro r
    refine (Table.mem_put (t := b.requests)).trans (or_congr Iff.rfl ?_)
    exact ⟨And.left, fun hr => ⟨hr, Table.get?_eq_none_iff.mp hfresh r hr⟩⟩
  constructor
  · intro hI'
    constructor
    · have hwaits := hI'.waiting request ((hmem _).mpr (.inl rfl)) hp taskId htask
      rw [taskStatus_putInteractionRequest] at hwaits
      exact decide_eq_true hwaits
    · rw [hasOpenRequest_eq_false]
      intro r hr hrp hrtask
      have hsame := hI'.ofTask r ((hmem r).mpr (.inr hr)) request ((hmem _).mpr (.inl rfl)) hrp hp
        taskId hrtask htask
      exact Table.get?_eq_none_iff.mp hfresh r hr (hsame ▸ rfl)
  · rintro ⟨hwaits, hnone⟩
    rw [hasOpenRequest_eq_false] at hnone
    refine ⟨fun r hr r' hr' hrp hrp' t ht ht' => ?_, fun r hr r' hr' hrp hrp' t ht ht' => ?_,
      fun r hr hrp t ht => ?_⟩
    · rcases (hmem r).mp hr with rfl | hold <;> rcases (hmem r').mp hr' with rfl | hold'
      · rfl
      · exact absurd (ht'.trans (ht.symm.trans htask)) (hnone r' hold' hrp')
      · exact absurd (ht.trans (ht'.symm.trans htask)) (hnone r hold hrp)
      · exact hI.ofTask r hold r' hold' hrp hrp' t ht ht'
    · rcases (hmem r).mp hr with rfl | hold
      · rw [hturn] at ht
        cases ht
      · rcases (hmem r').mp hr' with rfl | hold'
        · rw [hturn] at ht'
          cases ht'
        · exact hI.ofTurn r hold r' hold' hrp hrp' t ht ht'
    · rw [taskStatus_putInteractionRequest]
      rcases (hmem r).mp hr with rfl | hold
      · obtain rfl := some.inj (ht.symm.trans htask)
        exact of_decide_eq_true hwaits
      · exact hI.waiting r hold hrp t ht

/-- A blocked turn raises nothing while a request of it is open. -/
theorem oneOpenQuestion_outboundBlocked (hI : OneOpenQuestion b)
    (lower : String → String) (interactionId : String) (outbound : OutboundTurnRequest)
    (event : CodexTurnEvent) :
    OneOpenQuestion (handleOutboundCodexBlocked lower b interactionId outbound event) := by
  unfold handleOutboundCodexBlocked
  simp only
  cases blockedPrompt event with
  | none => exact hI
  | some prompt =>
    simp only
    split_ifs with hraise
    · simp only [Bool.and_eq_true, Bool.not_eq_true', List.any_eq_false, decide_eq_true_eq,
        not_and] at hraise
      have hfree := hraise.2
      have hmem : ∀ r, r ∈ (b.putInteractionRequest
          (buildOutboundRequest lower interactionId outbound event prompt)).requests.entries →
          r = buildOutboundRequest lower interactionId outbound event prompt ∨
            r ∈ b.requests.entries :=
        fun r hr => (Table.mem_put.mp hr).imp_right And.left
      refine ⟨fun r hr r' hr' hp hp' t ht ht' => ?_, fun r hr r' hr' hp hp' t ht ht' => ?_,
        fun r hr hp t ht => ?_⟩
      · rcases hmem r hr with rfl | hold
        · cases ht
        · rcases hmem r' hr' with rfl | hold'
          · cases ht'
          · exact hI.ofTask r hold r' hold' hp hp' t ht ht'
      · rcases hmem r hr with rfl | hold <;> rcases hmem r' hr' with rfl | hold'
        · rfl
        · exact absurd hp' (hfree r' hold' (ht'.trans ht.symm))
        · exact absurd hp (hfree r hold (ht.trans ht'.symm))
        · exact hI.ofTurn r hold r' hold' hp hp' t ht ht'
      · rw [taskStatus_putInteractionRequest]
        rcases hmem r hr with rfl | hold
        · cases ht
        · exact hI.waiting r hold hp t ht
    · exact hI

/-! ## Every step of the session -/

/-- One step keeps one question a task exactly if it asks in turn. -/
theorem oneOpenQuestion_step_iff {cfg : Config} {s s' : State} {label : Label}
    (hI : OneOpenQuestion s.session.board) (h : (system cfg).step s label = some s') :
    OneOpenQuestion s'.session.board ↔ asksInTurn cfg s label = true := by
  cases label with
  | session label =>
    have hraise : ∀ request, label ≠ .raiseRequest request := by
      rintro request rfl
      cases h
    have hstep : (SessionRuntime.step cfg.session s.session label).map (fun session =>
        { s with session := session }) = some s' := by
      rw [← h]
      cases label <;> first | rfl | exact absurd rfl (hraise _)
    obtain ⟨session, hs, rfl⟩ := map_eq_some_iff.mp hstep
    rw [oneOpenQuestion_session_iff hI hs hraise]
    simp only [asksInTurn, List.all_eq_true, Bool.or_eq_true, all_eq_true, decide_eq_true_eq]
    refine forall_congr' fun r => forall_congr' fun hr => ?_
    exact imp_iff_not_or
  | requestFromRun interactionId runId =>
    obtain ⟨board, hb, rfl⟩ := map_eq_some_iff.mp h
    unfold requestFromRun at hb
    cases hrun : s.session.board.getRun runId with
    | none => simp [hrun] at hb
    | some run =>
      cases htask : s.session.board.getTask run.taskId with
      | none => simp [hrun, htask] at hb
      | some task =>
        simp only [hrun, htask] at hb
        obtain ⟨-, -, hp, hfresh, -, rfl⟩ := raiseRequest_cases hb
        have hid : task.taskId = run.taskId := getTask_taskId htask
        rw [oneOpenQuestion_raise_iff hI hfresh hp (congrArg some hid) rfl]
        simp [asksInTurn, hrun]
  | requestFromSummary interactionId taskId =>
    obtain ⟨board, hb, rfl⟩ := map_eq_some_iff.mp h
    unfold requestFromSummary at hb
    split at hb
    · rename_i task summary htask hsummary
      obtain ⟨task', htask', hp, hfresh, hfree, rfl⟩ := raiseRequest_cases hb
      have hid : task.taskId = taskId := getTask_taskId htask
      have hid' : task'.taskId = taskId := (getTask_taskId htask').trans hid
      have hnone : hasOpenRequest s.session.board taskId = false :=
        hasOpenRequest_eq_false.mpr (hid' ▸ hfree rfl)
      rw [oneOpenQuestion_raise_iff hI hfresh hp (congrArg some hid) rfl]
      simp [asksInTurn, hnone]
    · cases hb
  | putTurnRequest | updateThreadTurns | setImportedThreads =>
    obtain rfl := some.inj h
    exact iff_of_true hI rfl
  | codexTurnEvent interactionId event =>
    simp only [system, step] at h
    split_ifs at h
    obtain rfl := some.inj h
    refine iff_of_true ?_ rfl
    unfold handleCodexTurnEvent
    simp only
    split
    · exact hI
    · exact oneOpenQuestion_outboundBlocked hI ..

theorem oneOpenQuestion_initially : OneOpenQuestion initialState.session.board where
  ofTask r hr := by cases hr
  ofTurn r hr := by cases hr
  waiting r hr := by cases hr

/-- A run has one open question for each task and each turn, about tasks that wait, exactly if
all its steps ask in turn. -/
theorem one_open_question_iff (cfg : Config) (labels : List Label) :
    (system cfg).Always (fun s => OneOpenQuestion s.session.board) initialState labels ↔
      (system cfg).Along (fun s label => asksInTurn cfg s label = true) initialState labels :=
  System.always_iff_along (Q := fun _ _ => True)
    (fun _ _ _ hI _ hs => oneOpenQuestion_step_iff hI hs) oneOpenQuestion_initially
    (System.along_true _ _)

/-! ## A second question -/

/-- The run of the task asks for a permission. -/
def blockedLabels (taskId runId interactionId : String) : List Label :=
  [.session (.runEvent taskId
      ⟨runId, "session-1", .blocked, some "allow it?", Table.empty⟩ none),
    .requestFromRun interactionId runId]

def sessionLabels (labels : List SessionRuntime.Label) : List Label := labels.map .session

/-- The user retries the task instead of answering, and its next run asks again. -/
def askedTwiceLabels : List Label :=
  sessionLabels (createLabels "creation-1" "task-1" ++ tickLabels ++
      executeLabels "task-1" "session-1" "run-1") ++
    blockedLabels "task-1" "run-1" "ireq-1" ++
    sessionLabels (.finishTick :: commandLabels "cmd-1" "task-1" .retryTask ++ tickLabels ++
      executeLabels "task-1" "session-2" "run-2") ++
    blockedLabels "task-1" "run-2" "ireq-2"

/-- The open requests about a task. -/
def openRequestIds (b : Blackboard) (taskId : String) : List String :=
  (b.requests.entries.filter fun r => r.status = .pending && r.taskId = some taskId).map
    InteractionRequest.requestId

theorem openRequestIds_of_oneOpenQuestion (h : OneOpenQuestion b)
    {first second : String} (hfirst : first ∈ openRequestIds b taskId)
    (hsecond : second ∈ openRequestIds b taskId) : first = second := by
  obtain ⟨r, hr, rfl⟩ := List.mem_map.mp hfirst
  obtain ⟨r', hr', rfl⟩ := List.mem_map.mp hsecond
  simp only [List.mem_filter, Bool.and_eq_true, decide_eq_true_eq] at hr hr'
  rw [h.ofTask r hr.1 r' hr'.1 hr.2.1 hr'.2.1 taskId hr.2.2 hr'.2.2]

/-- The question of the first run is still open when the second run asks. -/
theorem second_question_open : ¬ ∀ (cfg : Config) (s : State), (system cfg).Reachable s →
      OneOpenQuestion s.session.board := by
  intro h
  have hopen : ((system smallConfig).run initialState askedTwiceLabels).map
      (fun s => openRequestIds s.session.board "task-1") = some ["ireq-1", "ireq-2"] := by decide
  obtain ⟨s, hs, hids⟩ := map_eq_some_iff.mp hopen
  have hlaw := h smallConfig s (System.Reachable.of_run rfl hs)
  have hfirst : "ireq-1" ∈ openRequestIds s.session.board "task-1" := by simp [hids]
  have hsecond : "ireq-2" ∈ openRequestIds s.session.board "task-1" := by simp [hids]
  exact absurd (openRequestIds_of_oneOpenQuestion hlaw hfirst hsecond) (by decide)

end Newbro.Snapshots
