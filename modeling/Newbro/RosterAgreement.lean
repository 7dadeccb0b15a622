import Newbro.PersonaOccupancy
import Newbro.Rosters

/-!
# One roster for each user

What a sync and what the session itself does to the personas of a board, and the invariant
that carries one roster through all interleavings: each live session agrees with the stored
personas, or a request in flight will still make it agree.
-/
namespace Newbro.Rosters

open Library Protocol SessionCommands SessionManager SummaryManager Reconcile SessionRuntime
  Option Table

/-! ## Syncs -/

theorem getPersona_putPersona (b : Blackboard) (persona : Persona) (personaId : String) :
    (b.putPersona persona).getPersona personaId =
      if persona.personaId = personaId then some persona else b.getPersona personaId := by
  simp only [Blackboard.getPersona, Blackboard.personas_putPersona, Table.get?_put]

variable {personas : List Persona}

theorem getPersona_addAll_of_not_mem {personaId : String}
    (h : personaId ∉ personas.map Persona.personaId) (b b₀ : Blackboard) :
    (personas.foldl (fun b' persona => b'.putPersona (syncedPersona b persona)) b₀).getPersona
      personaId = b₀.getPersona personaId := by
  induction personas generalizing b₀ with
  | nil => rfl
  | cons persona personas ih =>
    rw [List.map_cons, List.mem_cons, not_or] at h
    rw [List.foldl_cons, ih h.2, getPersona_putPersona, syncedPersona_personaId,
      if_neg (Ne.symm h.1)]

variable {persona : Persona}

theorem getPersona_addAll_of_mem
    (hnodup : (personas.map Persona.personaId).Nodup) (h : persona ∈ personas)
    (b b₀ : Blackboard) :
    (personas.foldl (fun b' persona => b'.putPersona (syncedPersona b persona)) b₀).getPersona
      persona.personaId = some (syncedPersona b persona) := by
  induction personas generalizing b₀ with
  | nil => cases h
  | cons other personas ih =>
    obtain ⟨hfresh, hnodup⟩ := List.nodup_cons.mp hnodup
    rw [List.foldl_cons]
    rcases List.mem_cons.mp h with rfl | h
    · rw [getPersona_addAll_of_not_mem hfresh, getPersona_putPersona, syncedPersona_personaId,
        if_pos rfl]
    · exact ih hnodup h _

theorem getPersona_deleteAll (personas : List Persona) (personaId : String) (b₀ : Blackboard) :
    (personas.foldl (fun b persona => b.deletePersona persona.personaId) b₀).getPersona personaId =
      if personaId ∈ personas.map Persona.personaId then none else b₀.getPersona personaId := by
  induction personas generalizing b₀ with
  | nil => simp
  | cons persona personas ih =>
    have hdelete : (b₀.deletePersona persona.personaId).getPersona personaId =
        if persona.personaId = personaId then none else b₀.getPersona personaId := by
      simp only [Blackboard.getPersona, Blackboard.personas_deletePersona, Table.get?_erase]
    rw [List.foldl_cons, ih, hdelete]
    by_cases hrest : personaId ∈ personas.map Persona.personaId
    · simp [hrest]
    · by_cases hp : persona.personaId = personaId
      · simp [hp]
      · simp [hrest, hp, Ne.symm hp]

theorem fields_syncedPersona (b : Blackboard) (persona : Persona) :
    fields (syncedPersona b persona) = fields persona := by
  rw [syncedPersona]
  split <;> rfl

/-- A sync makes a session agree with the list. -/
theorem agrees_syncPersonas (b : Blackboard) (personas : Stored) :
    Agrees personas (syncPersonas b personas) := by
  refine ⟨fun persona hpersona => ?_, fun persona hmem hnone => ?_⟩
  · have hkept : persona.personaId ∉ (b.personas.entries.filter fun persona =>
        !personas.contains persona.personaId && persona.status ≠ .busy).map Persona.personaId := by
      intro hin
      obtain ⟨dropped, hdropped, hid⟩ := List.mem_map.mp hin
      have hno := (Bool.and_eq_true_iff.mp (List.mem_filter.mp hdropped).2).1
      rw [hid] at hno
      simp [Table.contains, Table.get?_of_mem hpersona] at hno
    rw [syncPersonas, getPersona_deleteAll, if_neg hkept,
      getPersona_addAll_of_mem personas.keys_nodup hpersona, map_some, fields_syncedPersona]
  · have hpersona : (syncPersonas b personas).getPersona persona.personaId = some persona :=
      Table.get?_of_mem hmem
    have hnew : persona.personaId ∉ personas.entries.map Persona.personaId := by
      intro hin
      obtain ⟨stored, hstored, hid⟩ := List.mem_map.mp hin
      exact Table.get?_eq_none_iff.mp hnone stored hstored hid
    rw [syncPersonas, getPersona_deleteAll] at hpersona
    split at hpersona
    · cases hpersona
    · rename_i hkept
      rw [getPersona_addAll_of_not_mem hnew] at hpersona
      by_contra hidle
      refine hkept (List.mem_map.mpr ⟨persona, List.mem_filter.mpr ⟨?_, ?_⟩, rfl⟩)
      · exact mem_of_get? hpersona
      · simp [Table.contains, hnone, hidle]

/-! ## Steps of a session -/

variable {task : Task}

section

variable {stored : Stored} {b b' : Blackboard}

theorem Agrees.congr (h : Agrees stored b) (hpersonas : b'.personas = b.personas) :
    Agrees stored b' := by
  refine ⟨fun persona hpersona => ?_, ?_⟩
  · rw [Blackboard.getPersona, hpersonas]
    exact h.shown persona hpersona
  · rw [hpersonas]
    exact h.leftover

/-- The task does not idle a persona that is not stored any more. -/
def Spared (stored : Stored) (b : Blackboard) (task : Task) : Prop :=
  ∀ persona ∈ task.personaId.bind b.getPersona,
    stored.get? persona.personaId = none → occupiedByOther b task.taskId persona.personaId = true

/-- A persona that is put with the fields it has, and busy unless it is stored. -/
theorem Agrees.putPersona (h : Agrees stored b)
    (hshown : ∀ known, stored.get? persona.personaId = some known → fields persona = fields known)
    (hbusy : stored.get? persona.personaId = none → persona.status = .busy) :
    Agrees stored (b.putPersona persona) := by
  refine ⟨fun known hknown => ?_, fun found hfound hnone => ?_⟩
  · rw [getPersona_putPersona]
    split
    · rename_i heq
      have hget : stored.get? persona.personaId = some known := heq ▸ Table.get?_of_mem hknown
      rw [map_some, hshown known hget]
    · exact h.shown known hknown
  · rw [Blackboard.personas_putPersona] at hfound
    rcases mem_put.mp hfound with rfl | ⟨hfound, -⟩
    · exact hbusy hnone
    · exact h.leftover found hfound hnone

theorem Agrees.releasePersona (h : Agrees stored b) (hspared : Spared stored b task) :
    Agrees stored (releasePersona b task) := by
  rw [Reconcile.releasePersona]
  split
  · exact h
  · rename_i persona hpersona
    obtain ⟨personaId, -, hget⟩ := bind_eq_some_iff.mp hpersona
    have hid : persona.personaId = personaId := key_of_get? hget
    split_ifs with hother
    · exact h
    · refine h.putPersona (fun known hknown => ?_) fun hnone => ?_
      · have hshown := h.shown known (mem_of_get? hknown)
        have hkey : known.personaId = personaId := (key_of_get? hknown).trans hid
        rw [hkey, hget] at hshown
        exact some.inj hshown
      · exact absurd (hspared persona hpersona hnone) hother
    · exact h

/-- The end of a task changes nothing that a release looks at. -/
theorem Spared.congr {written : String → Option TaskStatus} {task' : Task}
    (h : Spared stored b task) (hpersonas : b'.personas = b.personas)
    (hview : ∀ u, taskView b' u = overwrite (written u) (taskView b u))
    (hothers : ∀ u ≠ task.taskId, written u = none) (hid : task'.taskId = task.taskId)
    (hpersonaId : task'.personaId = task.personaId) : Spared stored b' task' := by
  intro persona hpersona hnone
  have hget : b'.getPersona = b.getPersona := by
    funext personaId
    rw [Blackboard.getPersona, Blackboard.getPersona, hpersonas]
  rw [hpersonaId, hget] at hpersona
  have hother := (occupiedByOther_iff b task.taskId persona.personaId).mp
    (h persona hpersona hnone)
  rw [hid, occupiedByOther_iff, occupiedByOther_overwrite hview fun u hne view _ => by
    rw [hothers u hne]; rfl]
  exact hother

theorem personas_applyEvent (b : Blackboard) (task : Task) (run : ExecutionRun)
    (event : ExecutorEvent) : (RunManager.applyEvent b task run event).personas = b.personas :=
  applyEvent_frame Blackboard.personas (fun _ _ => rfl) (fun _ _ => rfl) (fun _ _ => rfl) ..

theorem Agrees.drainEvent (h : Agrees stored b) {run : ExecutionRun}
    (ht : b.getTask task.taskId = some task) (hr : b.getRun run.runId = some run)
    {event : ExecutorEvent}
    (hspared : releasesPersona (RunManager.appliedRun task run event).status = true →
      Spared stored b task) (live : LiveSessions) (claimed : SessionBinding) (handle : RunHandle) :
    Agrees stored (drainEvent b live claimed handle task run event) := by
  cases he : isTerminalEvent event.eventType with
  | false =>
    rw [drainEvent_of_not_terminal he]
    exact h.congr (personas_applyEvent ..)
  | true =>
    rw [drainEvent_of_terminal ht hr he, settleRun_eq]
    have hpersonas : (unreleased (RunManager.applyEvent b task run event) live claimed handle
        (RunManager.appliedTask task event) (RunManager.appliedRun task run event)).personas =
          b.personas :=
      (unreleased_frame Blackboard.personas (fun _ _ => rfl) (fun _ _ => rfl)
        (fun _ _ => rfl) ..).trans (personas_applyEvent ..)
    have hview : ∀ u, taskView (unreleased (RunManager.applyEvent b task run event) live claimed
        handle (RunManager.appliedTask task event) (RunManager.appliedRun task run event)) u =
          overwrite (eventWrites task event u) (taskView b u) := fun u =>
      (unreleased_frame (fun b => taskView b u) (fun _ _ => rfl) (fun _ _ => rfl)
        (fun _ _ => rfl) ..).trans (taskView_applyEvent ht run event u)
    have hnamed : (RunManager.appliedTask task event).personaId = task.personaId := by
      rw [RunManager.appliedTask]
      split_ifs <;> rfl
    split_ifs with hrel
    · exact (h.congr hpersonas).releasePersona ((hspared hrel).congr hpersonas hview
        (fun u hne => eventWrites_other hne) (appliedTask_taskId ..) hnamed)
    · exact h.congr hpersonas

theorem Agrees.failExecutionException (h : Agrees stored b)
    (ht : b.getTask task.taskId = some task) (hspared : Spared stored b task)
    (claimed : SessionBinding) (run : Option ExecutionRun) (text errorType : String) :
    Agrees stored (failExecutionException b task claimed run text errorType) := by
  obtain ⟨failed, hfailed, hpersonas⟩ : ∃ failed,
      Reconcile.failExecutionException b task claimed run text errorType =
        Reconcile.releasePersona failed task ∧ failed.personas = b.personas := by
    refine ⟨_, rfl, ?_⟩
    cases run with
    | none => rfl
    | some run =>
      simp only [failRun]
      split <;> exact personas_applyEvent b task run (exceptionEvent run text errorType)
  have hview := taskView_failExecutionException ht claimed run text errorType
  rw [hfailed] at hview ⊢
  have hbefore : ∀ u, taskView failed u =
      overwrite (if task.taskId = u then exceptionStatus task run else none) (taskView b u) := by
    intro u
    rw [← hview u]
    exact (releasePersona_frame (fun b => taskView b u) (fun _ _ => rfl) failed task).symm
  exact (h.congr hpersonas).releasePersona
    (hspared.congr hpersonas hbefore (fun u hne => if_neg hne.symm) rfl rfl)

end

/-- The run whose events the coroutine of the task drains. -/
def drainedRun (state : SessionState) (taskId : String) : Option ExecutionRun :=
  (state.coroutine? taskId).bind fun c =>
    match c.stage with
    | .draining handle => state.board.getRun handle.runId
    | _ => none

/-- What a step of the session by itself must look at: a created task puts a copy of its
persona, and the end of a run idles the persona of its task. -/
def Careful (stored : Stored) (state : SessionState) : SessionRuntime.Label → Prop
  | .finishCreation creationId _ =>
    ∀ creation ∈ state.creations.get? creationId, ∀ copy ∈ creation.persona,
      ∀ known ∈ stored.get? copy.personaId, fields copy = fields known
  | .runEvent taskId event _ =>
    ∀ task ∈ state.board.getTask taskId, ∀ run ∈ drainedRun state taskId,
      releasesPersona (RunManager.appliedRun task run event).status = true →
        Spared stored state.board task
  | .raiseException taskId _ _ =>
    ∀ task ∈ state.board.getTask taskId, Spared stored state.board task
  | _ => True

variable {cfg : Config} {stored : Stored} {label : SessionRuntime.Label}

variable {state state' : SessionState}

theorem Agrees.executeStep {taskId : String} {c : Coroutine}
    (h : Agrees stored state.board) (hcareful : Careful stored state label)
    (hl : label.coroutineTask = some taskId) (hc : state.coroutine? taskId = some c)
    (ht : state.board.getTask taskId = some task)
    (hstep : executeStep cfg state c task label = some state') : Agrees stored state'.board := by
  have htask : task.taskId = taskId := getTask_taskId ht
  have htask' : state.board.getTask task.taskId = some task := htask ▸ ht
  cases label <;> simp only [Label.coroutineTask, some.injEq, reduceCtorEq] at hl
  case lookupExecutor =>
    obtain ⟨-, ⟨-, rfl⟩ | ⟨-, rfl⟩⟩ := lookupExecutor_cases hstep
    · rw [board_setStage]
      exact h
    · rw [board_dropCoroutine]
      exact h.congr rfl
  case ensureSession =>
    obtain ⟨_, -, -, -, rfl⟩ := ensureSession_cases hstep
    simp only [ensuredSession, board_setStage]
    exact h.congr (ensureSession_frame ..).2.2.2.1
  case createRun =>
    obtain ⟨_, _, _, _, -, -, -, -, rfl⟩ := createRun_cases hstep
    rw [board_setStage]
    exact h.congr rfl
  case beginRunTask =>
    obtain ⟨_, -, rfl⟩ := beginRunTask_cases hstep
    rw [board_setStage]
    exact h
  case sendDispatch =>
    obtain ⟨_, -, rfl⟩ := sendDispatch_cases hstep
    rw [board_setStage]
    exact h
  case skipDispatch =>
    obtain ⟨_, -, rfl⟩ := skipDispatch_cases hstep
    rw [board_setStage]
    exact h
  case runEvent t event resume =>
    obtain ⟨handle, run, hstage, hrun, rfl⟩ := runEvent_cases hstep
    subst hl
    have hid : run.runId = handle.runId := key_of_get? hrun
    have hdrains : drainedRun state t = some run := by
      rw [drainedRun, hc, bind_some, hstage]
      exact hrun
    have hdrained := h.drainEvent htask' (hid ▸ hrun) (hcareful task ht run hdrains)
      (drainedEvent state c handle task run event resume).live c.claimed handle
    split_ifs
    · rw [board_dropCoroutine]
      exact hdrained
    · exact hdrained
  case raiseException =>
    obtain ⟨-, rfl⟩ := raiseException_cases hstep
    subst hl
    rw [board_dropCoroutine]
    exact h.failExecutionException htask' (hcareful task ht) ..

/-- A careful step of a session keeps it at the stored personas. -/
theorem Agrees.step (h : Agrees stored state.board)
    (hcareful : Careful stored state label) (hsync : ∀ persisted, label ≠ .syncPersonas persisted)
    (hstep : SessionRuntime.step cfg state label = some state') : Agrees stored state'.board := by
  cases step_cases hstep with
  | @finishCreation creationId template creation hc ht hp =>
    have hboard : Agrees stored (occupyPersona state.board creation.persona) := by
      cases hpersona : creation.persona with
      | none => exact h
      | some copy =>
        refine h.putPersona (fun known hknown => ?_) fun _ => rfl
        exact hcareful creation hc copy hpersona known hknown
    exact hboard.congr rfl
  | @syncPersonas persisted => exact absurd rfl (hsync persisted)
  | markCommand =>
    exact h.congr (markCommand_frame Blackboard.personas (fun _ _ => rfl) (fun _ _ => rfl) ..)
  | finishCommand =>
    exact h.congr (finishCommand_frame Blackboard.personas (fun _ _ => rfl) (fun _ _ => rfl)
      (fun _ _ => rfl) (fun _ _ => rfl) (fun _ _ => rfl) ..)
  | agentEvent => exact h.congr (ingestAgentEvent_frame Blackboard.personas (fun _ _ => rfl) ..)
  | finishAnswer =>
    exact h.congr (finishAnswer_frame Blackboard.personas (fun _ _ => rfl) (fun _ _ => rfl)
      (fun _ _ => rfl) (fun _ _ => rfl) ..)
  | requeueWaiting =>
    exact h.congr (requeueWaitingExecutorTasks_frame Blackboard.personas (fun _ _ => rfl)
      (fun _ _ => rfl) ..)
  | loop _ hmove =>
    refine h.congr ?_
    cases hmove with
    | claim _ _ hc => exact claimTask_frame Blackboard.personas (fun _ _ => rfl) hc
    | _ => rfl
  | coroutine hl hc ht hrun => exact h.executeStep hcareful hl hc ht hrun
  | _ => exact h.congr rfl

/-! ## Steps of the server -/

/-- The request will still sync its session with `stored`, if that stays as it is. -/
def Stage.toCome (stored : Stored) : Stage → Bool
  | .sync personas => personas.entries = stored.entries
  | _ => true

/-- Some request will still sync the session with `stored`. -/
def Awaits (requests : Table Request.requestId) (sessionId : String) (stored : Stored) : Prop :=
  ∃ request ∈ requests.entries, request.sessionId = sessionId ∧ request.stage.toCome stored = true

/-- The session has the stored personas or will still be synced with them. -/
def Settles (requests : Table Request.requestId) (stored : Stored) (session : Session) : Prop :=
  Agrees stored session.state.board ∨ Awaits requests session.sessionId stored

/-- A change leaves no other session of the user behind, a refused one and the sync of an older
list not their own, and a session by itself is careful or will still be synced. -/
def Covers (s : Server) : Label → Prop
  | .change requestId =>
    match s.requests.get? requestId with
    | some ⟨_, user, sessionId, .change change⟩ =>
      match change.apply (s.storedOf user) with
      | .error _ =>
        ∀ session ∈ s.sessions.get? sessionId,
          Settles (s.requests.erase requestId) (s.storedOf user) session
      | .ok personas =>
        ∀ session ∈ s.sessions.entries, s.owners.lookup session.sessionId = some user →
          session.sessionId ≠ sessionId →
            Settles (s.requests.erase requestId) personas session
    | _ => True
  | .sync requestId =>
    match s.requests.get? requestId with
    | some ⟨_, user, sessionId, .sync personas⟩ =>
      personas.entries = (s.storedOf user).entries ∨ s.sessions.get? sessionId = none ∨
        Awaits (s.requests.erase requestId) sessionId (s.storedOf user)
    | _ => True
  | .session sessionId label =>
    ∀ user ∈ s.owners.lookup sessionId, ∀ session ∈ s.sessions.get? sessionId,
      Careful (s.storedOf user) session.state label ∨
        Awaits s.requests sessionId (s.storedOf user)
  | _ => True

/-- Requests belong to the owner of their session, and every live session settles. -/
structure Sound (s : Server) : Prop where
  owned : ∀ request ∈ s.requests.entries,
    s.owners.lookup request.sessionId = some request.user
  settled : ∀ session ∈ s.sessions.entries, ∀ user,
    s.owners.lookup session.sessionId = some user → Settles s.requests (s.storedOf user) session

/-- Without a request in flight, a user has one roster. -/
theorem Sound.oneRoster {s : Server} (h : Sound s) : OneRoster s := by
  intro user hquiet session hsession howner
  rcases h.settled session hsession user howner with hagrees | ⟨request, hrequest, hid, -⟩
  · exact hagrees
  · have huser := h.owned request hrequest
    rw [hid, howner] at huser
    exact absurd (some.inj huser).symm (hquiet request hrequest)

variable {next : Request}

section

variable {requests : Table Request.requestId} {sessionId requestId : String} {stored : Stored}

/-- A request that begins, or goes on with the same session, takes nothing away. -/
theorem Awaits.put (h : Awaits requests sessionId stored)
    (hnext : ∀ request, requests.get? next.requestId = some request →
      request.sessionId = sessionId → next.sessionId = sessionId ∧
        next.stage.toCome stored = true) : Awaits (requests.put next) sessionId stored := by
  obtain ⟨request, hrequest, hid, hcome⟩ := h
  by_cases hsame : request.requestId = next.requestId
  · have hget := Table.get?_of_mem hrequest
    rw [hsame] at hget
    exact ⟨next, mem_put.mpr (.inl rfl), hnext request hget hid⟩
  · exact ⟨request, mem_put.mpr (.inr ⟨hrequest, hsame⟩), hid, hcome⟩

theorem awaits_put_self (hcome : next.stage.toCome stored = true) :
    Awaits (requests.put next) next.sessionId stored :=
  ⟨next, mem_put.mpr (.inl rfl), rfl, hcome⟩

theorem Awaits.of_erase (h : Awaits (requests.erase requestId) sessionId stored) :
    Awaits requests sessionId stored := by
  obtain ⟨request, hrequest, hid, hcome⟩ := h
  exact ⟨request, (mem_erase.mp hrequest).1, hid, hcome⟩

/-- A request that ends takes nothing from other sessions. -/
theorem Awaits.erase (h : Awaits requests sessionId stored) {request : Request}
    (hrequest : requests.get? requestId = some request) (hne : sessionId ≠ request.sessionId) :
    Awaits (requests.erase requestId) sessionId stored := by
  obtain ⟨other, hother, hid, hcome⟩ := h
  refine ⟨other, mem_erase.mpr ⟨hother, fun hsame => hne ?_⟩, hid, hcome⟩
  have hget := Table.get?_of_mem hother
  rw [hsame, hrequest] at hget
  rw [← hid, some.inj hget]

end

theorem Settles.mono {requests requests' : Table Request.requestId}
    {session : Session} (h : Settles requests stored session)
    (hawaits : Awaits requests session.sessionId stored →
      Awaits requests' session.sessionId stored) : Settles requests' stored session :=
  h.imp_right hawaits

variable {s s' : Server}

variable {requestId user sessionId : String}

variable {stage : Stage}

/-- A request that begins will sync its own session. -/
theorem sound_begin (h : begin s requestId user sessionId stage = some s')
    (hcome : ∀ stored, stage.toCome stored = true) (howned : ∀ request ∈ s.requests.entries,
      s.owners.lookup request.sessionId = some request.user)
    (hothers : ∀ session ∈ s.sessions.entries, session.sessionId ≠ sessionId → ∀ owner,
      s.owners.lookup session.sessionId = some owner →
        Settles s.requests (s.storedOf owner) session) : Sound s' := by
  rw [begin] at h
  split_ifs at h with hrefused
  rw [not_or, not_not] at hrefused
  obtain ⟨hfresh, howner⟩ := hrefused
  have hnone : s.requests.get? requestId = none := by simpa [Table.contains] using hfresh
  cases some.inj h
  refine ⟨?_, fun session hsession owner hsessionOwner => ?_⟩
  · exact forall_put howned howner
  · by_cases hid : session.sessionId = sessionId
    · refine .inr ?_
      rw [hid]
      exact awaits_put_self (hcome _)
    · refine (hothers session hsession hid owner hsessionOwner).mono fun hawaits => ?_
      refine hawaits.put fun request hrequest _ => ?_
      rw [hnone] at hrequest
      cases hrequest

theorem Sound.begin (hs : Sound s)
    (h : begin s requestId user sessionId stage = some s')
    (hcome : ∀ stored, stage.toCome stored = true) : Sound s' :=
  sound_begin h hcome hs.owned fun session hsession _ => hs.settled session hsession

theorem Sound.createSession (hs : Sound s) {filePersonas : List Persona}
    (h : createSession s requestId user sessionId filePersonas = some s') : Sound s' := by
  rw [Rosters.createSession] at h
  split_ifs at h with hrefused
  rw [not_or] at hrefused
  have hunowned : s.owners.lookup sessionId = none := by simpa using hrefused.2
  -- a session that is known to anybody else has another id
  have hother : ∀ known owner, s.owners.lookup known = some owner →
      (s.owners.set sessionId user).lookup known = some owner := by
    intro known owner hknown
    rw [Dict.lookup_set, if_neg, hknown]
    rintro rfl
    rw [hunowned] at hknown
    cases hknown
  refine sound_begin h (fun _ => rfl) (fun request hrequest => ?_)
    fun session hsession hid owner howner => ?_
  · exact hother _ _ (hs.owned request hrequest)
  · rcases mem_put.mp hsession with rfl | ⟨hsession, -⟩
    · exact absurd rfl hid
    · have howner : s.owners.lookup session.sessionId = some owner := by
        rwa [Dict.lookup_set, if_neg (Ne.symm hid)] at howner
      exact hs.settled session hsession owner howner

theorem storedOf_put (s : Server) (user : String) (personas : Stored)
    (requests : Table Request.requestId) (owner : String) :
    Server.storedOf { s with stored := s.stored.put ⟨user, personas⟩, requests := requests }
      owner = if user = owner then personas else s.storedOf owner := by
  rw [Server.storedOf, Table.get?_put]
  split
  · rfl
  · rfl

theorem Sound.changeStored (hs : Sound s)
    (hcovers : Covers s (.change requestId)) (h : changeStored s requestId = some s') :
    Sound s' := by
  rw [Rosters.changeStored] at h
  split at h
  · rename_i id user sessionId change hrequest
    obtain rfl : id = requestId := key_of_get? hrequest
    have howner : s.owners.lookup sessionId = some user :=
      hs.owned _ (mem_of_get? hrequest)
    simp only [Covers, hrequest] at hcovers
    split at h
    · rename_i error hchange
      cases some.inj h
      simp only [hchange] at hcovers
      refine ⟨fun request hin => hs.owned request (mem_erase.mp hin).1,
        fun session hsession owner hsessionOwner => ?_⟩
      by_cases hid : session.sessionId = sessionId
      · have hsame : user = owner := by
          rw [hid, howner] at hsessionOwner
          exact some.inj hsessionOwner
        subst hsame
        exact hcovers session (hid ▸ Table.get?_of_mem hsession)
      · exact (hs.settled session hsession owner hsessionOwner).mono fun hawaits =>
          hawaits.erase hrequest hid
    · rename_i personas hchange
      cases some.inj h
      simp only [hchange] at hcovers
      refine ⟨forall_put hs.owned howner, fun session hsession owner hsessionOwner => ?_⟩
      rw [storedOf_put]
      by_cases hid : session.sessionId = sessionId
      · refine .inr ?_
        rw [hid]
        exact awaits_put_self rfl
      · have hnext : ∀ request, s.requests.get? id = some request →
            request.sessionId ≠ session.sessionId := by
          intro request hget
          rw [hrequest] at hget
          rw [← some.inj hget]
          exact Ne.symm hid
        split
        · rename_i hsame
          subst hsame
          refine (hcovers session hsession hsessionOwner hid).mono fun hawaits => ?_
          exact hawaits.of_erase.put fun request hget heq => absurd heq (hnext request hget)
        · refine (hs.settled session hsession owner hsessionOwner).mono fun hawaits => ?_
          exact hawaits.put fun request hget heq => absurd heq (hnext request hget)
  · cases h

theorem Sound.readStored (hs : Sound s) (h : readStored s requestId = some s') : Sound s' := by
  rw [Rosters.readStored] at h
  split at h
  · rename_i id user sessionId hrequest
    obtain rfl : id = requestId := key_of_get? hrequest
    have howner : s.owners.lookup sessionId = some user :=
      hs.owned _ (mem_of_get? hrequest)
    cases some.inj h
    refine ⟨forall_put hs.owned howner, fun session hsession owner hsessionOwner => ?_⟩
    refine (hs.settled session hsession owner hsessionOwner).mono fun hawaits => ?_
    refine hawaits.put fun request hget hid => ?_
    rw [hrequest] at hget
    cases some.inj hget
    refine ⟨hid, ?_⟩
    -- the list is the one of the owner of the session
    have hid : sessionId = session.sessionId := hid
    rw [← hid, howner] at hsessionOwner
    have hsame : user = owner := some.inj hsessionOwner
    subst hsame
    exact decide_eq_true rfl
  · cases h

theorem Sound.syncSession (hs : Sound s)
    (hcovers : Covers s (.sync requestId)) (h : syncSession s requestId = some s') : Sound s' := by
  rw [Rosters.syncSession] at h
  split at h
  · rename_i id user sessionId personas hrequest
    obtain rfl : id = requestId := key_of_get? hrequest
    have howner : s.owners.lookup sessionId = some user :=
      hs.owned _ (mem_of_get? hrequest)
    have howned : ∀ request ∈ (s.requests.erase id).entries,
        s.owners.lookup request.sessionId = some request.user := fun request hin =>
      hs.owned request (mem_erase.mp hin).1
    have hothers : ∀ session ∈ s.sessions.entries, session.sessionId ≠ sessionId → ∀ owner,
        s.owners.lookup session.sessionId = some owner →
          Settles (s.requests.erase id) (s.storedOf owner) session := by
      intro session hsession hid owner hsessionOwner
      exact (hs.settled session hsession owner hsessionOwner).mono fun hawaits =>
        hawaits.erase hrequest hid
    simp only [Covers, hrequest] at hcovers
    simp only at h
    split at h
    · rename_i hdead
      cases some.inj h
      refine ⟨howned, fun session hsession => hothers session hsession fun hid => ?_⟩
      have hlive := Table.get?_of_mem hsession
      rw [hid, hdead] at hlive
      cases hlive
    · rename_i session hlive
      have hid : session.sessionId = sessionId := key_of_get? hlive
      cases some.inj h
      refine ⟨howned, fun other hother owner hotherOwner => ?_⟩
      rcases mem_put.mp hother with rfl | ⟨hother, hne⟩
      · have hsame : user = owner := by
          have hotherOwner : s.owners.lookup session.sessionId = some owner := hotherOwner
          rw [hid, howner] at hotherOwner
          exact some.inj hotherOwner
        subst hsame
        rcases hcovers with hlisted | hdead | hawaits
        · have hsame : personas = s.storedOf user := Table.ext hlisted
          subst hsame
          exact .inl (agrees_syncPersonas ..)
        · rw [hlive] at hdead
          cases hdead
        · refine .inr ?_
          show Awaits _ session.sessionId _
          rw [hid]
          exact hawaits
      · exact hothers other hother (hid ▸ hne) owner hotherOwner
  · cases h

theorem Sound.sessionStep (hs : Sound s) (hcovers : Covers s (.session sessionId label))
    (h : sessionStep cfg s sessionId label = some s') : Sound s' := by
  have hsync : ∀ persisted, label ≠ .syncPersonas persisted := by
    rintro persisted rfl
    cases h
  have hstep : (s.sessions.get? sessionId).bind (fun session =>
      (SessionRuntime.step cfg session.state label).map fun state =>
        { s with sessions := s.sessions.put { session with state := state } }) = some s' := by
    cases label <;> first | exact h | exact absurd rfl (hsync _)
  obtain ⟨session, hlive, hmap⟩ := bind_eq_some_iff.mp hstep
  obtain ⟨state, hstate, rfl⟩ := map_eq_some_iff.mp hmap
  have hid : session.sessionId = sessionId := key_of_get? hlive
  refine ⟨hs.owned, fun other hother owner hotherOwner => ?_⟩
  rcases mem_put.mp hother with rfl | ⟨hother, -⟩
  · have howner : s.owners.lookup session.sessionId = some owner := hotherOwner
    rcases hs.settled session (mem_of_get? hlive) owner howner with hagrees | hawaits
    · rcases hcovers owner (hid ▸ howner) session hlive with hcareful | hawaits
      · exact .inl (hagrees.step hcareful hsync hstate)
      · refine .inr ?_
        show Awaits _ session.sessionId _
        rw [hid]
        exact hawaits
    · exact .inr hawaits
  · exact hs.settled other hother owner hotherOwner

theorem Sound.step {label : Label} (hs : Sound s) (hcovers : Covers s label)
    (h : step cfg s label = some s') : Sound s' := by
  cases label with
  | createSession => exact hs.createSession h
  | list | create => exact hs.begin h fun _ => rfl
  | update requestId user sessionId personaId body freshDetailId =>
    have h : beginUpdate s requestId user sessionId personaId body freshDetailId = some s' := h
    rw [beginUpdate] at h
    split_ifs at h
    obtain ⟨listed, -, h⟩ := bind_eq_some_iff.mp h
    exact hs.begin h fun _ => rfl
  | delete requestId user sessionId personaId =>
    have h : beginDelete s requestId user sessionId personaId = some s' := h
    rw [beginDelete] at h
    split_ifs at h
    obtain ⟨listed, -, h⟩ := bind_eq_some_iff.mp h
    exact hs.begin h fun _ => rfl
  | change => exact hs.changeStored hcovers h
  | read => exact hs.readStored h
  | sync => exact hs.syncSession hcovers h
  | session => exact hs.sessionStep hcovers h

theorem Sound.initial (h : (system cfg).initial s) : Sound s := by
  obtain ⟨hsessions, hrequests⟩ := h
  refine ⟨fun request hin => ?_, fun session hin => ?_⟩
  · rw [hrequests] at hin
    cases hin
  · rw [hsessions] at hin
    cases hin

/-- Every user has one roster in all states of a run whose steps leave no session behind. -/
theorem one_roster_always (cfg : Config) (s : Server) (labels : List Label)
    (hinitial : (system cfg).initial s) (hcovers : (system cfg).Along Covers s labels) :
    (system cfg).Always OneRoster s labels :=
  (hcovers.always (Sound.initial hinitial) fun _ _ _ hs hc h => hs.step hc h).mono
    fun _ hs => hs.oneRoster

/-! ## Runs -/

instance (stored : Stored) (b : Blackboard) (task : Task) : Decidable (Spared stored b task) :=
  inferInstanceAs (Decidable (∀ persona ∈ task.personaId.bind b.getPersona,
    stored.get? persona.personaId = none →
      occupiedByOther b task.taskId persona.personaId = true))

instance (stored : Stored) (state : SessionState) (label : SessionRuntime.Label) :
    Decidable (Careful stored state label) := by
  unfold Careful
  split <;> infer_instance

instance (requests : Table Request.requestId) (sessionId : String) (stored : Stored) :
    Decidable (Awaits requests sessionId stored) :=
  inferInstanceAs (Decidable (∃ request ∈ requests.entries, _ ∧ _))

instance (requests : Table Request.requestId) (stored : Stored) (session : Session) :
    Decidable (Settles requests stored session) := inferInstanceAs (Decidable (_ ∨ _))

instance (s : Server) (label : Label) : Decidable (Covers s label) := by
  unfold Covers
  split
  · split
    · split <;> infer_instance
    · infer_instance
  · split <;> infer_instance
  · infer_instance
  · infer_instance

/-- A server with an empty database. -/
def freshServer : Server := ⟨Table.empty, Table.empty, Table.empty, Table.empty⟩

def ada : Persona := { personaId := "persona-1", name := "Ada", broDetailSessionId := "detail-1" }

/-- Two sessions of one user, each synced once. -/
def openLabels : List Label :=
  [.createSession "request-1" "user-1" "session-1" [], .read "request-1", .sync "request-1",
    .createSession "request-2" "user-1" "session-2" [], .read "request-2", .sync "request-2"]

/-- A Bro is created through the first session. -/
def createdLabels : List Label :=
  openLabels ++ [.create "request-3" "user-1" "session-1" ada, .change "request-3",
    .read "request-3", .sync "request-3"]

/-- The second session lists the Bros while the first one creates one. -/
def listedLabels : List Label :=
  openLabels ++ [.create "request-3" "user-1" "session-1" ada,
    .list "request-4" "user-1" "session-2", .change "request-3", .read "request-3",
    .sync "request-3", .read "request-4", .sync "request-4"]

theorem one_roster_listed : (system codexConfig).Always OneRoster freshServer listedLabels :=
  one_roster_always codexConfig freshServer listedLabels ⟨rfl, rfl⟩
    ((System.along_of_check (C := fun s label => decide (Covers s label)) (by decide)).mono
      fun _ _ => of_decide_eq_true)

/-- The session that did not create the Bro never hears of her. -/
theorem created_bro_missing_elsewhere :
    ¬ ∀ (cfg : Config) (s : Server) (labels : List Label), (system cfg).initial s →
      (system cfg).Always OneRoster s labels := by
  intro h
  have hrun := h codexConfig freshServer createdLabels ⟨rfl, rfl⟩
  have henabled : ((system codexConfig).run freshServer createdLabels).isSome = true := by decide
  have hlast := hrun.at_end (System.run_eq_target henabled) "user-1" (by decide)
  have hdisagrees : ∃ session ∈
        ((system codexConfig).target freshServer createdLabels).sessions.entries,
      ((system codexConfig).target freshServer createdLabels).owners.lookup session.sessionId =
        some "user-1" ∧
      ¬ Agrees (((system codexConfig).target freshServer createdLabels).storedOf "user-1")
        session.state.board := by decide
  obtain ⟨session, hsession, howner, hno⟩ := hdisagrees
  exact hno (hlast session hsession howner)

end Newbro.Rosters
