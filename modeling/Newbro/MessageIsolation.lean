import Newbro.ControlMessages

/-!
# What a message of one node touches

Two readings of one turn of the receive loop: what becomes of the sender's own connection
when the session raises, and which requests, streams, runs and turns of other nodes a
message can reach.
-/
namespace Newbro.ControlMessages

open Library Protocol BroThreads ExecutorNodes OutboundTurns Option Table

namespace Server

/-! ## Frames -/

section frames

variable (server : Server) (handling : Handling) (websocket : String) (message : ControlMessage)

theorem publishRunEvent_manager (event : ExecutorEvent) :
    (server.publishRunEvent websocket event).1.manager = server.manager := by
  unfold publishRunEvent
  split <;> rfl

/-- No message touches the tables of connections and runs. -/
theorem handleControlMessage_manager :
    (server.handleControlMessage handling websocket message).1.manager = server.manager := by
  cases message with
  | runEvent event =>
    have hpublished := server.publishRunEvent_manager websocket event
    simp only [handleControlMessage]
    split
    · split
      · exact hpublished
      · exact hpublished
    · exact hpublished
  | interactionState => rfl
  | nodeStatus => rfl
  | reply kind requestId payload =>
    simp only [handleControlMessage, publishReply]
    split <;> rfl
  | workspaceFile requestId file =>
    simp only [handleControlMessage, publishWorkspaceFile]
    split <;> rfl
  | codexThreadEvent | codexTurnEvent =>
    simp only [handleControlMessage]
    split
    · split <;> rfl
    · rfl

variable {server handling websocket message}

theorem connections_handleNodeDisconnected (nodeId reason : String) :
    (server.handleNodeDisconnected nodeId reason).manager.connectionsByNode =
      server.manager.connectionsByNode := by
  simp only [handleNodeDisconnected]
  apply foldl_frame NodeManager.connectionsByNode
  intro manager state
  rfl

/-- Exactly the runs of the node are forgotten. -/
theorem get?_handleNodeDisconnected (nodeId reason runId : String) :
    (server.handleNodeDisconnected nodeId reason).manager.runStates.get? runId =
      (server.manager.runStates.get? runId).filter fun state => state.nodeId ≠ some nodeId := by
  have hfold : ∀ (gone : List RunDispatchState) (manager : NodeManager),
      (gone.foldl (fun manager state => manager.finishRun state.runId) manager).runStates.get?
          runId =
        if gone.any (fun state => state.runId = runId) then none
        else manager.runStates.get? runId := by
    intro gone
    induction gone with
    | nil => exact fun _ => rfl
    | cons state gone ih =>
      intro manager
      rw [List.foldl_cons, ih]
      simp only [NodeManager.finishRun, Table.get?_erase, List.any_cons]
      by_cases hsame : state.runId = runId
      · simp [hsame]
      · simp [hsame]
  simp only [handleNodeDisconnected]
  rw [hfold]
  cases hrun : server.manager.runStates.get? runId with
  | none =>
    have hnot := Table.get?_eq_none_iff.mp hrun
    simp
  | some state =>
    have hid : state.runId = runId := key_of_get? hrun
    by_cases hnode : state.nodeId = some nodeId
    · have hgone : (server.manager.runStates.entries.filter fun state =>
          state.nodeId = some nodeId).any (fun state => state.runId = runId) = true := by
        rw [List.any_eq_true]
        exact ⟨state, List.mem_filter.mpr ⟨mem_of_get? hrun, by simpa using hnode⟩,
          by simpa using hid⟩
      rw [if_pos hgone]
      simp [Option.filter, hnode]
    · have hkept : ¬ (server.manager.runStates.entries.filter fun state =>
          state.nodeId = some nodeId).any (fun state => state.runId = runId) = true := by
        rw [List.any_eq_true]
        rintro ⟨other, hmem, hother⟩
        rw [List.mem_filter] at hmem
        have hsame := server.manager.runStates.eq_of_key_eq hmem.1 (mem_of_get? hrun)
          ((of_decide_eq_true hother).trans hid.symm)
        rw [hsame] at hmem
        exact hnode (by simpa using hmem.2)
      rw [if_neg hkept]
      simp [Option.filter, hnode]

end frames

/-! ## A message that raises -/

/-- The node of the websocket keeps its connection and all its runs. -/
structure NodeKept (nodeId : String) (server server' : Server) : Prop where
  connection : server'.manager.connectionsByNode.get? nodeId =
    server.manager.connectionsByNode.get? nodeId
  runs : ∀ runId state, server.manager.runStates.get? runId = some state →
    state.nodeId = some nodeId → server'.manager.runStates.get? runId = some state

/-- What the endpoint does about any exception of a session: it drops the connection and
parks every run of the node. -/
theorem receive_raised {server : Server} {handling : Handling} {websocket nodeId error : String}
    {message : ControlMessage} (hnode : server.manager.nodeIdForWebsocket websocket = some nodeId)
    (hraised : (server.handleControlMessage handling websocket message).2 = .error error) :
    (server.receive handling websocket message).manager.connectionsByNode.get? nodeId = none ∧
      ∀ runId state, server.manager.runStates.get? runId = some state → state.nodeId = some nodeId →
        (server.receive handling websocket message).manager.runStates.get? runId = none ∧
          lostEvent state nodeId "connection_closed" ∈
            (server.receive handling websocket message).runEvents := by
  have hmanager := server.handleControlMessage_manager handling websocket message
  unfold receive
  cases hhandled : server.handleControlMessage handling websocket message with
  | mk handled result =>
    rw [hhandled] at hraised hmanager
    simp only at hraised hmanager
    subst hraised
    simp only [disconnect, NodeManager.popConnection, hmanager, hnode, map_some]
    constructor
    · rw [connections_handleNodeDisconnected]
      exact Table.get?_erase_self _ _
    · intro runId state hrun hstate
      constructor
      · rw [get?_handleNodeDisconnected]
        simp [hrun, hstate]
      · simp only [handleNodeDisconnected]
        apply List.mem_append_right
        rw [List.mem_map]
        exact ⟨state, List.mem_filter.mpr ⟨mem_of_get? hrun, by simpa using hstate⟩, rfl⟩

/-- Whatever is registered, whatever the message and the sessions: an exception of the
session costs the node its connection. -/
theorem raising_message_disconnects {server : Server} {handling : Handling}
    {websocket nodeId error : String} {message : ControlMessage}
    (hnode : server.manager.nodeIdForWebsocket websocket = some nodeId)
    (hraised : (server.handleControlMessage handling websocket message).2 = .error error) :
    ¬ NodeKept nodeId server (server.receive handling websocket message) := by
  intro hkept
  obtain ⟨hgone, -⟩ := receive_raised hnode hraised
  obtain ⟨c, hc, -⟩ := nodeIdForWebsocket_spec hnode
  have hconnection := hkept.connection
  rw [hgone, hc] at hconnection
  cases hconnection

/-! A node sends the transcript of an instruction for a thread that is no longer loaded. -/

def transcriptMetadata : Metadata :=
  BlockedRequests.metadataOf
    [("source", .str "executor_node_whisper"), ("source_audio_instruction_id", .str "audio-1"),
      ("transcript_text", .str "Go on."), ("target_thread_id", .str "codex-import-1")]

def transcriptEvent : ExecutorEvent :=
  { runId := "run-1"
    sessionId := "codex-session-1"
    eventType := .progress
    message := some "Audio instruction transcribed."
    metadata := transcriptMetadata }

def broBoard : Blackboard :=
  ((Blackboard.empty.putPersona { personaId := "bro-1", name := "Ada" }).putTask
      { taskId := "task-1"
        rootTaskId := "task-1"
        title := "First"
        goal := "First"
        metadata := Dict.set Table.empty "persona_id" (.str "bro-1") }).putRun
    { runId := "run-1"
      taskId := "task-1"
      executionSessionId := "exec-1"
      executorType := "codex" }

def broSession : Session :=
  { bro := ⟨"session-1", broBoard, Table.empty, Table.empty⟩
    turns := ⟨Table.empty, Table.empty⟩
    subscriptions := Table.empty
    threadEvents := [] }

/-- `node-1` is connected and has two runs. -/
def busyServer : Server :=
  { manager :=
      { detachedExecutorTypes := ["codex"]
        connectionsByNode := Table.empty.put ⟨"node-1", "ws-1", ["codex"]⟩
        runStates := (Table.empty.put ⟨"run-1", "exec-1", "codex", some "node-1"⟩).put
          ⟨"run-2", "exec-2", "codex", some "node-1"⟩ }
    requests := Table.empty
    fileStreams := Table.empty
    runEvents := []
    sessions := Table.empty.put broSession }

def plainHandling : Handling := ⟨id, "task-2", "ireq-1", none⟩

theorem transcript_disconnects :
    (busyServer.handleControlMessage plainHandling "ws-1" (.runEvent transcriptEvent)).2 =
        .error "Selected Codex thread is not available for this Bro." ∧
      ¬ NodeKept "node-1" busyServer
        (busyServer.receive plainHandling "ws-1" (.runEvent transcriptEvent)) :=
  have raised : (busyServer.handleControlMessage plainHandling "ws-1"
      (.runEvent transcriptEvent)).2 =
        .error "Selected Codex thread is not available for this Bro." := rfl
  ⟨raised, raising_message_disconnects rfl raised⟩

/-- The connection is gone, and so is the run that the message was not about. -/
theorem transcript_parks_other_run :
    (busyServer.handleControlMessage plainHandling "ws-1" (.runEvent transcriptEvent)).2 =
        .error "Selected Codex thread is not available for this Bro." ∧
      (busyServer.receive plainHandling "ws-1" (.runEvent transcriptEvent)).manager.isConnected
        "ws-1" = false ∧
      ((busyServer.receive plainHandling "ws-1"
        (.runEvent transcriptEvent)).manager.runStates.get? "run-2").isNone = true :=
  ⟨rfl, rfl, rfl⟩

end Server

namespace Server

/-! ## What other nodes were asked for -/

/-- The events of a run, in the order in which its queue gets them. -/
def queueOf (server : Server) (runId : String) : List ExecutorEvent :=
  server.runEvents.filter fun event => event.runId = runId

variable (session : Session)

/-- The events that passed for the subscription of a persona. -/
def fedTo (personaId : String) : List CodexThreadEvent :=
  (session.threadEvents.filter fun fed => fed.1 = personaId).map Prod.snd

/-- What other nodes were asked for in a session. -/
structure SessionKept (nodeId : String) (session session' : Session) : Prop where
  turns : ∀ request ∈ session.turns.requests.entries, request.executorNodeId ≠ nodeId →
    request ∈ session'.turns.requests.entries
  subscriptions : session'.subscriptions = session.subscriptions
  fed : ∀ subscription ∈ session.subscriptions.entries, subscription.nodeId ≠ nodeId →
    fedTo session' subscription.personaId = fedTo session subscription.personaId

/-- Every request, stream, run and turn that is not of the node is as it was. -/
structure ForeignKept (nodeId : String) (server server' : Server) : Prop where
  requests : ∀ request ∈ server.requests.entries, request.nodeId ≠ nodeId →
    request ∈ server'.requests.entries
  streams : ∀ stream ∈ server.fileStreams.entries, stream.nodeId ≠ nodeId →
    stream ∈ server'.fileStreams.entries
  runs : ∀ runId state, server.manager.runStates.get? runId = some state →
    state.nodeId ≠ some nodeId →
    server'.manager.runStates.get? runId = some state ∧
      server'.queueOf runId = server.queueOf runId
  sessions : ∀ sessionId session, server.sessions.get? sessionId = some session →
    ∃ session', server'.sessions.get? sessionId = some session' ∧
      SessionKept nodeId session session'

/-- The message is a reply, or a part of a file, that another node was asked for. -/
def answersForeign (server : Server) (nodeId : String) : ControlMessage → Bool
  | .reply kind requestId _ =>
    (server.requests.get? (kind, requestId)).any fun request =>
      request.reply.isNone && request.nodeId ≠ nodeId
  | .workspaceFile requestId _ =>
    (server.fileStreams.get? requestId).any fun stream => stream.nodeId ≠ nodeId
  | _ => false

section foreign

variable {server server' server'' : Server} {handling : Handling} {nodeId websocket : String}

theorem SessionKept.refl : SessionKept nodeId session session where
  turns := fun _ hmem _ => hmem
  subscriptions := rfl
  fed := fun _ _ _ => rfl

theorem ForeignKept.refl (server : Server) : ForeignKept nodeId server server where
  requests := fun _ hmem _ => hmem
  streams := fun _ hmem _ => hmem
  runs := fun _ _ hrun _ => ⟨hrun, rfl⟩
  sessions := fun _ session hsession => ⟨session, hsession, .refl session⟩

/-- A disconnect of the node parks its own runs only. -/
theorem ForeignKept.disconnected (h : ForeignKept nodeId server server')
    (hnode : server'.manager.nodeIdForWebsocket websocket = some nodeId) (reason : String) :
    ForeignKept nodeId server (server'.disconnect websocket reason) := by
  simp only [disconnect, NodeManager.popConnection, hnode, map_some]
  refine ⟨h.requests, h.streams, ?_, h.sessions⟩
  intro runId state hrun hforeign
  obtain ⟨hkept, hqueue⟩ := h.runs runId state hrun hforeign
  constructor
  · rw [get?_handleNodeDisconnected]
    simp [Option.filter, hkept, hforeign]
  · rw [← hqueue]
    simp only [queueOf, handleNodeDisconnected, List.filter_append]
    rw [List.append_right_eq_self, List.filter_eq_nil_iff]
    intro event hmem
    obtain ⟨other, hother, rfl⟩ := List.mem_map.mp hmem
    rw [List.mem_filter] at hother
    intro hsame
    have heq := server'.manager.runStates.eq_of_key_eq hother.1 (mem_of_get? hkept)
      ((of_decide_eq_true hsame : other.runId = runId).trans (key_of_get? hkept).symm)
    rw [heq] at hother
    exact hforeign (by simpa using hother.2)

/-- An accepted run event is one of a run of the node. -/
theorem publishRunEvent_kept (hnode : server.manager.nodeIdForWebsocket websocket = some nodeId)
    (event : ExecutorEvent) :
    ForeignKept nodeId server (server.publishRunEvent websocket event).1 := by
  unfold publishRunEvent
  cases hjudged : server.manager.judgeRunEvent websocket event.runId with
  | unknownRun | unauthorizedRun => exact .refl server
  | accepted =>
    refine ⟨fun _ hmem _ => hmem, fun _ hmem _ => hmem, ?_, (ForeignKept.refl server).sessions⟩
    intro runId state hrun hforeign
    refine ⟨hrun, ?_⟩
    have hother : event.runId ≠ runId := by
      rintro rfl
      unfold NodeManager.judgeRunEvent at hjudged
      simp only [hrun, hnode] at hjudged
      rw [if_pos hforeign] at hjudged
      cases hjudged
    simp [queueOf, hother]

/-- The session of a message is stored back with what other nodes were asked for. -/
theorem ForeignKept.putSession (h : ForeignKept nodeId server server') {session session' : Session}
    (hsession : session ∈ server'.sessions.entries) (hid : session'.sessionId = session.sessionId)
    (hkept : SessionKept nodeId session session') (hsame : server'.sessions = server.sessions) :
    ForeignKept nodeId server (server'.putSession session') := by
  refine ⟨h.requests, h.streams, h.runs, ?_⟩
  intro sessionId other hother
  rw [hsame] at hsession
  simp only [Server.putSession, hsame]
  rw [Table.get?_put]
  split
  · rename_i hkey
    have hstored := Table.get?_of_mem hsession
    rw [← hid, hkey, hother] at hstored
    cases hstored
    exact ⟨session', rfl, hkept⟩
  · exact ⟨other, hother, .refl other⟩

theorem handleTranscript_kept (event : ExecutorEvent) :
    SessionKept nodeId session (handleTranscript handling session event).1 :=
  ⟨fun _ hmem _ => hmem, rfl, fun _ _ _ => rfl⟩

theorem sessionId_handleAudioTranscriptEvent (bro : BroSession) (newTaskId runId : String)
    (metadata : Metadata) :
    (bro.handleAudioTranscriptEvent newTaskId runId metadata).1.sessionId = bro.sessionId := by
  unfold BroSession.handleAudioTranscriptEvent
  split
  · split
    · rfl
    · simp only
      split
      · rfl
      · split <;> rfl
  · rfl

theorem handleCodexThreadEvent_kept {event : CodexThreadEvent} (hnode : event.nodeId = nodeId) :
    SessionKept nodeId session (handleCodexThreadEvent session event) := by
  unfold handleCodexThreadEvent
  split
  · exact .refl session
  · rename_i current hcurrent
    rw [filter_eq_some_iff] at hcurrent
    obtain ⟨hfound, hfor⟩ := hcurrent
    refine ⟨fun _ hmem _ => hmem, rfl, ?_⟩
    intro subscription hmem hforeign
    have hother : current.personaId ≠ subscription.personaId := by
      intro hsame
      have heq := session.subscriptions.eq_of_key_eq (mem_of_get? hfound) hmem hsame
      simp only [isFor, Bool.and_eq_true, decide_eq_true_eq] at hfor
      rw [← heq, hfor.2, hnode] at hforeign
      exact hforeign rfl
    simp [fedTo, hother]

theorem handleTurn_kept {event : CodexTurnEvent} (hnode : event.nodeId = nodeId) :
    SessionKept nodeId session (handleTurn handling session event) := by
  refine ⟨?_, rfl, fun _ _ _ => rfl⟩
  intro request hmem hforeign
  simp only [handleTurn, handleCodexTurnEvent]
  cases hfound : (session.turns.requests.get? event.requestId).filter fun request =>
      answersRequest request event with
  | none => exact hmem
  | some own =>
    rw [filter_eq_some_iff] at hfound
    obtain ⟨hget, hanswers⟩ := hfound
    simp only [answersRequest, Bool.and_eq_true, decide_eq_true_eq] at hanswers
    have hid : own.requestId = event.requestId := key_of_get? hget
    refine mem_put_of_ne own ?_ hmem ?_
    · rw [← hget, ← hid]
      rfl
    · rintro rfl
      exact hforeign (hanswers.1.2.trans hnode)

theorem publishNodeEvent_ok {event : String}
    (hnode : server.manager.nodeIdForWebsocket websocket = some nodeId)
    (h : (server.publishNodeEvent websocket event).ok = true) : event = nodeId := by
  unfold publishNodeEvent at h
  split at h
  · cases h
  · rename_i hsame
    rw [not_not, hnode] at hsame
    exact (some.inj hsame).symm

/-- The handling of a message that is no foreign reply leaves what other nodes were asked
for. -/
theorem handleControlMessage_kept (handling : Handling)
    (hnode : server.manager.nodeIdForWebsocket websocket = some nodeId)
    {message : ControlMessage} (h : server.answersForeign nodeId message = false) :
    ForeignKept nodeId server (server.handleControlMessage handling websocket message).1 := by
  cases message with
  | runEvent event =>
    have hpublished := publishRunEvent_kept hnode event
    have hsame : (server.publishRunEvent websocket event).1.sessions = server.sessions := by
      unfold publishRunEvent
      split <;> rfl
    simp only [handleControlMessage]
    split
    · split
      · exact hpublished
      · rename_i session hsession
        refine hpublished.putSession (List.mem_of_find?_eq_some hsession) ?_
          (handleTranscript_kept session event) hsame
        exact sessionId_handleAudioTranscriptEvent _ _ _ _
    · exact hpublished
  | interactionState | nodeStatus => exact .refl server
  | reply kind requestId payload =>
    simp only [handleControlMessage, publishReply]
    cases hfound : (server.requests.get? (kind, requestId)).filter (·.reply.isNone) with
    | none => exact .refl server
    | some own =>
      rw [filter_eq_some_iff] at hfound
      obtain ⟨hget, hopen⟩ := hfound
      have hown : own.nodeId = nodeId := by simpa [answersForeign, hget, hopen] using h
      have hkey : own.key = (kind, requestId) := key_of_get? hget
      refine ⟨?_, fun _ hmem _ => hmem, (ForeignKept.refl server).runs,
        (ForeignKept.refl server).sessions⟩
      intro request hmem hforeign
      refine mem_put_of_ne own ?_ hmem ?_
      · rw [← hget, ← hkey]
        rfl
      · rintro rfl
        exact hforeign hown
  | workspaceFile requestId file =>
    simp only [handleControlMessage, publishWorkspaceFile]
    cases hget : server.fileStreams.get? requestId with
    | none => exact .refl server
    | some own =>
      have hown : own.nodeId = nodeId := by simpa [answersForeign, hget] using h
      have hkey : own.requestId = requestId := key_of_get? hget
      refine ⟨fun _ hmem _ => hmem, ?_, (ForeignKept.refl server).runs,
        (ForeignKept.refl server).sessions⟩
      intro stream hmem hforeign
      refine mem_put_of_ne own ?_ hmem ?_
      · rw [← hget, ← hkey]
      · rintro rfl
        exact hforeign hown
  | codexThreadEvent event =>
    simp only [handleControlMessage]
    split
    · rename_i hok
      have hevent := publishNodeEvent_ok hnode hok
      split
      · exact .refl server
      · rename_i session hsession
        refine (ForeignKept.refl server).putSession (mem_of_get? hsession) ?_
          (handleCodexThreadEvent_kept session hevent) rfl
        unfold handleCodexThreadEvent
        split <;> rfl
    · exact .refl server
  | codexTurnEvent event =>
    simp only [handleControlMessage]
    split
    · rename_i hok
      have hevent := publishNodeEvent_ok hnode hok
      split
      · exact .refl server
      · rename_i session hsession
        exact (ForeignKept.refl server).putSession (List.mem_of_find?_eq_some hsession) rfl
          (handleTurn_kept session hevent) rfl
    · exact .refl server

/-- For every message on a websocket of the node: what other nodes were asked for is left as
it is exactly when the message is not a reply or a file part that one of them owes. -/
theorem foreignKept_iff (hnode : server.manager.nodeIdForWebsocket websocket = some nodeId)
    (handling : Handling) (message : ControlMessage) :
    ForeignKept nodeId server (server.receive handling websocket message) ↔
      server.answersForeign nodeId message = false := by
  constructor
  · intro hkept
    by_contra hforeign
    rw [Bool.not_eq_false] at hforeign
    cases message with
    | reply kind requestId payload =>
      cases hget : server.requests.get? (kind, requestId) with
      | none => simp [answersForeign, hget] at hforeign
      | some request =>
        simp only [answersForeign, hget, any_some, Bool.and_eq_true,
          decide_eq_true_eq] at hforeign
        have hstays := hkept.requests request (mem_of_get? hget) hforeign.2
        simp only [receive, handleControlMessage, publishReply, hget, filter_some,
          hforeign.1, if_true] at hstays
        rcases mem_put.mp hstays with heq | ⟨-, hne⟩
        · have hreply := congrArg PendingRequest.reply heq
          simp only at hreply
          rw [hreply] at hforeign
          cases hforeign.1
        · exact hne rfl
    | workspaceFile requestId file =>
      cases hget : server.fileStreams.get? requestId with
      | none => simp [answersForeign, hget] at hforeign
      | some stream =>
        simp only [answersForeign, hget, any_some, decide_eq_true_eq] at hforeign
        have hstays := hkept.streams stream (mem_of_get? hget) hforeign
        simp only [receive, handleControlMessage, publishWorkspaceFile, hget] at hstays
        rcases mem_put.mp hstays with heq | ⟨-, hne⟩
        · have hqueue := congrArg FileStream.queue heq
          simp at hqueue
        · exact hne rfl
    | runEvent | interactionState | nodeStatus | codexThreadEvent | codexTurnEvent => cases hforeign
  · intro hnot
    have hhandled := handleControlMessage_kept handling hnode hnot
    have hmanager := server.handleControlMessage_manager handling websocket message
    unfold receive
    split
    · rename_i server' ack heq
      rw [heq] at hhandled
      exact hhandled
    · rename_i server' error heq
      rw [heq] at hhandled hmanager
      refine hhandled.disconnected ?_ _
      simp only at hmanager
      rw [hmanager, hnode]

end foreign

/-! `node-1` is asked for its threads; the answer comes from `node-2`. -/

def threadListRequest : PendingRequest :=
  ⟨.threadList, "codex-thread-list-1", "node-1", none⟩

def askingServer : Server :=
  { manager :=
      { detachedExecutorTypes := ["codex"]
        connectionsByNode := (Table.empty.put ⟨"node-1", "ws-1", ["codex"]⟩).put
          ⟨"node-2", "ws-2", ["codex"]⟩
        runStates := Table.empty }
    requests := Table.empty.put threadListRequest
    fileStreams := Table.empty
    runEvents := []
    sessions := Table.empty }

theorem foreignKept_status :
    ForeignKept "node-2" askingServer (askingServer.receive plainHandling "ws-2" .nodeStatus) ↔
      askingServer.answersForeign "node-2" .nodeStatus = false :=
  foreignKept_iff rfl plainHandling .nodeStatus

theorem foreign_reply_accepted : ¬ ForeignKept "node-2" askingServer
        (askingServer.receive plainHandling "ws-2"
          (.reply .threadList "codex-thread-list-1" (.list []))) ∧
      (askingServer.handleControlMessage plainHandling "ws-2"
        (.reply .threadList "codex-thread-list-1" (.list []))).2 = .ok ⟨true, "queued"⟩ := by
  refine ⟨?_, rfl⟩
  intro hkept
  have hmem : threadListRequest ∈ askingServer.requests.entries := by simp [askingServer, mem_put]
  have hstays := hkept.requests threadListRequest hmem (by decide)
  have hreplies : ∀ request ∈ (askingServer.receive plainHandling "ws-2"
      (.reply .threadList "codex-thread-list-1" (.list []))).requests.entries,
      request.reply.isSome = true := by
    intro request hrequest
    have hentries : (askingServer.receive plainHandling "ws-2"
        (.reply .threadList "codex-thread-list-1" (.list []))).requests.entries =
          [{ threadListRequest with reply := some (.list []) }] := rfl
    rw [hentries, List.mem_singleton] at hrequest
    rw [hrequest]
    rfl
  have hreply := hreplies threadListRequest hstays
  cases hreply

end Server

end Newbro.ControlMessages
