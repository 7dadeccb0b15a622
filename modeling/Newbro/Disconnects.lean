import Newbro.ConnectionWiring

/-!
# Runs that lose their connection

A cleanup knows the node whose connection was lost and not the connection. A run that is
given a connection while an older cleanup still has it ahead is detached from a
connection that is there; so is a run that is given one after it was detached.
-/
namespace Newbro.HostedRuns

open Library Protocol ExecutorNodes Reconcile Table

/-- The node works on the run: its turn is not over or it accepted a follow-up. -/
def NodeTurn.isExecuting (turn : NodeTurn) : Bool := turn.phase ≠ .ended || turn.followUps

/-- The cleanup will come to the run, if this is still filed then. -/
def Cleanup.reaches (cleanup : Cleanup) (run : HostedRun) : Bool :=
  match cleanup.stage with
  | .popped => run.state.nodeId = some cleanup.nodeId
  | .detaching runIds => run.runId ∈ runIds

/-- A run is given a connection only while it is filed and ahead of no cleanup, and it is
finished only when no connected node works on it. -/
def dispatchesInTime (s : HostedState) : Label → Bool
  | .readConnection runId =>
    (s.runs.get? runId).all fun run =>
      (run.state.nodeId.bind s.manager.connectionsByNode.get?).isNone ||
        s.manager.runStates.contains runId &&
          s.cleanups.entries.all fun cleanup => !cleanup.reaches run
  | .finishRun runId =>
    (s.turns.get? runId).all fun turn => !turn.isExecuting || !s.manager.isConnected turn.websocket
  | _ => true

/-- The invariant of the runs that keep to `dispatchesInTime`. -/
structure Isolated (s : HostedState) : Prop where
  reached : ∀ cleanup ∈ s.cleanups.entries, ∀ run ∈ s.runs.entries,
    cleanup.reaches run = true → ∀ c ∈ s.manager.connectionsByNode.entries,
      run.websocket ≠ some c.websocket
  detached : ∀ run ∈ s.runs.entries, run.runId ∈ s.detached →
    ∀ c ∈ s.manager.connectionsByNode.entries, run.websocket ≠ some c.websocket
  filed : ∀ turn ∈ s.turns.entries, turn.isExecuting = true →
    ∀ c ∈ s.manager.connectionsByNode.entries, c.websocket = turn.websocket →
      (s.manager.runStates.get? turn.runId).isSome = true

variable {run : HostedRun} {cleanup : Cleanup}

section frames

variable {s s' : HostedState}

theorem Cleanup.reaches_congr (cleanup : Cleanup) {run' : HostedRun}
    (h : run'.state = run.state) : cleanup.reaches run' = cleanup.reaches run := by
  have hid := HostedRun.runId_eq h
  unfold Cleanup.reaches
  rw [h, hid]

/-- Steps that open no cleanup and no connection, detach nothing and start no turn. -/
theorem Isolated.frame (h : Isolated s)
    (hconn : ∀ c ∈ s'.manager.connectionsByNode.entries, c ∈ s.manager.connectionsByNode.entries)
    (hstates : ∀ runId, (s.manager.runStates.get? runId).isSome = true →
      (s'.manager.runStates.get? runId).isSome = true)
    (hcleanups : ∀ cleanup' ∈ s'.cleanups.entries, ∃ cleanup ∈ s.cleanups.entries,
      ∀ run, cleanup'.reaches run = true → cleanup.reaches run = true)
    (hruns : RunsKept s.runs s'.runs) (hdetached : s'.detached = s.detached)
    (hturns : ∀ turn' ∈ s'.turns.entries, turn'.isExecuting = true →
      ∃ turn ∈ s.turns.entries, turn'.runId = turn.runId ∧ turn'.websocket = turn.websocket ∧
        turn.isExecuting = true) : Isolated s' where
  reached cleanup' hcleanup' run' hrun' hreaches c hc := by
    obtain ⟨cleanup, hcleanup, hless⟩ := hcleanups cleanup' hcleanup'
    obtain ⟨run, hrun, hstate, hws, -⟩ := hruns.back run' hrun'
    rw [hws]
    refine h.reached cleanup hcleanup run hrun ?_ c (hconn c hc)
    rw [← cleanup.reaches_congr hstate]
    exact hless run' hreaches
  detached run' hrun' hmem c hc := by
    obtain ⟨run, hrun, hstate, hws, -⟩ := hruns.back run' hrun'
    have hid := HostedRun.runId_eq hstate
    rw [hws]
    rw [hdetached, hid] at hmem
    exact h.detached run hrun hmem c (hconn c hc)
  filed turn' hturn' hexec c hc hws := by
    obtain ⟨turn, hturn, hid, hsame, hbefore⟩ := hturns turn' hturn' hexec
    rw [hid]
    exact hstates turn.runId (h.filed turn hturn hbefore c (hconn c hc) (hws.trans hsame))

theorem cleanups_kept (cleanups : Table Cleanup.cleanupId) :
    ∀ cleanup' ∈ cleanups.entries, ∃ cleanup ∈ cleanups.entries,
      ∀ run, cleanup'.reaches run = true → cleanup.reaches run = true :=
  fun cleanup' hcleanup => ⟨cleanup', hcleanup, fun _ => id⟩

theorem executing_kept (turns : Table NodeTurn.runId) :
    ∀ turn' ∈ turns.entries, turn'.isExecuting = true →
      ∃ turn ∈ turns.entries, turn'.runId = turn.runId ∧ turn'.websocket = turn.websocket ∧
        turn.isExecuting = true :=
  fun turn' hturn hexec => ⟨turn', hturn, rfl, rfl, hexec⟩

end frames

variable {websocket : String} {c : NodeConnection}

section steps

variable {s s' : HostedState}

section

variable (h : Isolated s)
include h

/-- The cleanup that a lost connection starts reaches no run on another connection. -/
theorem Isolated.disconnect {cleanupId reason : String}
    (hwired : Wired s) (hdrop : disconnect s websocket cleanupId reason = some s') :
    Isolated s' := by
  rcases (disconnect_cases hdrop).2 with ⟨-, rfl⟩ | ⟨nodeId, -, rfl⟩
  · exact h
  · have hless := fun c (hc : c ∈ (s.manager.connectionsByNode.erase nodeId).entries) =>
      mem_erase.mp hc
    constructor
    · intro cleanup hcleanup run hrun hreaches c hc hws
      obtain ⟨hold, hne⟩ := hless c hc
      rcases mem_put.mp hcleanup with rfl | ⟨hbefore, -⟩
      · have hnode : run.state.nodeId = some nodeId := by simpa [Cleanup.reaches] using hreaches
        rw [hwired.node run hrun c hold hws, Option.some.injEq] at hnode
        exact hne hnode
      · exact h.reached cleanup hbefore run hrun hreaches c hold hws
    · intro run hrun hmem c hc
      exact h.detached run hrun hmem c (hless c hc).1
    · intro turn hturn hexec c hc
      exact h.filed turn hturn hexec c (hless c hc).1

/-- A new websocket is not yet chosen for any run. -/
theorem Isolated.register {manager : NodeManager}
    (hwired : Wired s) (hnew : s.sockets.get? c.websocket = none)
    (hregister : s.manager.registerConnection c = some manager) :
    Isolated
      { s with manager := manager, sockets := s.sockets.put ⟨c.websocket, .scanDue, []⟩ } := by
  obtain ⟨-, rfl⟩ := registerConnection_cases hregister
  have hunchosen : ∀ run ∈ s.runs.entries, run.websocket ≠ some c.websocket := by
    intro run hrun hws
    have hknown := (hwired.chosen run hrun c.websocket hws).1
    simp [hnew] at hknown
  constructor
  · intro cleanup hcleanup run hrun hreaches c' hc'
    rcases mem_put.mp hc' with rfl | ⟨hold, -⟩
    · exact hunchosen run hrun
    · exact h.reached cleanup hcleanup run hrun hreaches c' hold
  · intro run hrun hmem c' hc'
    rcases mem_put.mp hc' with rfl | ⟨hold, -⟩
    · exact hunchosen run hrun
    · exact h.detached run hrun hmem c' hold
  · intro turn hturn hexec c' hc' hws
    rcases mem_put.mp hc' with rfl | ⟨hold, -⟩
    · obtain ⟨run, hrun, hchosen, -⟩ := hwired.turn turn hturn
      exact absurd (hws ▸ hchosen) (hunchosen run (mem_of_get? hrun))
    · exact h.filed turn hturn hexec c' hold hws

theorem Isolated.dispatchRun {run : ExecutionRun} {task : Task} :
    Isolated { s with
      manager := s.manager.fileRun (dispatchState run task)
      runs := s.runs.put (startedRun s.manager run task)
      board := s.board.putRun run } := by
  constructor
  · intro cleanup hcleanup other hother hreaches c hc
    rcases mem_put.mp hother with rfl | ⟨hold, -⟩
    · simp [startedRun]
    · exact h.reached cleanup hcleanup other hold hreaches c hc
  · intro other hother hmem c hc
    rcases mem_put.mp hother with rfl | ⟨hold, -⟩
    · simp [startedRun]
    · exact h.detached other hold hmem c hc
  · intro turn hturn hexec c hc hws
    exact isSome_get?_put _ _ (h.filed turn hturn hexec c hc hws)

/-- A run that is given its connection in time is out of reach of the cleanups. -/
theorem Isolated.connectionFound
    (hfiled : Filed s) (htime : dispatchesInTime s (.readConnection run.runId) = true)
    (hrun : s.runs.get? run.runId = some run) (hstage : run.stage = .connecting)
    (hnode : run.state.nodeId = some c.nodeId)
    (hc : s.manager.connectionsByNode.get? c.nodeId = some c) :
    Isolated { s with runs := s.runs.put { run with
      stage := .sending
      websocket := some c.websocket } } := by
  obtain ⟨hknown, hahead⟩ : s.manager.runStates.contains run.runId = true ∧
      ∀ cleanup ∈ s.cleanups.entries, cleanup.reaches run = false := by
    simpa [dispatchesInTime, hrun, hnode, hc] using htime
  have hkept : run.runId ∉ s.detached := by
    intro hmem
    have hgone := hfiled.filed run (mem_of_get? hrun) (by simp [hstage])
    simp [Table.contains, hgone, hmem] at hknown
  constructor
  · intro cleanup hcleanup other hother hreaches
    rcases mem_put.mp hother with rfl | ⟨hold, -⟩
    · have hbefore : cleanup.reaches run = true := by
        rw [← hreaches]
        exact (cleanup.reaches_congr rfl).symm
      rw [hahead cleanup hcleanup] at hbefore
      cases hbefore
    · exact h.reached cleanup hcleanup other hold hreaches
  · intro other hother hmem
    rcases mem_put.mp hother with rfl | ⟨hold, -⟩
    · exact absurd hmem hkept
    · exact h.detached other hold hmem
  · exact h.filed

/-- A run whose connection is still there when its command is sent is filed. -/
theorem Isolated.sent
    (hfiled : Filed s) (hrun : s.runs.get? run.runId = some run) (hstage : run.stage = .sending)
    (hws : run.websocket = some websocket) (hkept : RunsKept s.runs
      (s.runs.put { run with stage := .draining })) :
    Isolated { s with
      runs := s.runs.put { run with stage := .draining }
      turns := s.turns.put ⟨run.runId, websocket, .streaming, false⟩ } := by
  have hdraining : Isolated { s with runs := s.runs.put { run with stage := .draining } } :=
    h.frame (fun _ => id) (fun _ => id) (cleanups_kept _) hkept rfl (executing_kept _)
  refine ⟨hdraining.reached, hdraining.detached, fun turn hturn hexec c hc hsame => ?_⟩
  rcases mem_put.mp hturn with rfl | ⟨hold, -⟩
  · have hmem := mem_of_get? hrun
    have hthere : run.runId ∉ s.detached := by
      intro hd
      exact h.detached run hmem hd c hc (by rw [hws, hsame])
    have hstate := hfiled.filed run hmem (by simp [hstage])
    rw [if_neg hthere] at hstate
    show (s.manager.runStates.get? run.runId).isSome = true
    simp [hstate]
  · exact hdraining.filed turn hold hexec c hc hsame

/-- A run is finished when no connected node works on it. -/
theorem Isolated.finishRun
    (htime : dispatchesInTime s (.finishRun run.runId) = true)
    (hkept : RunsKept s.runs (s.runs.put { run with stage := .finished })) :
    Isolated { s with
      manager := s.manager.finishRun run.runId
      runs := s.runs.put { run with stage := .finished } } := by
  have hput : Isolated { s with runs := s.runs.put { run with stage := .finished } } :=
    h.frame (fun _ => id) (fun _ => id) (cleanups_kept _) hkept rfl (executing_kept _)
  refine ⟨hput.reached, hput.detached, fun turn hturn hexec c hc hsame => ?_⟩
  show ((s.manager.runStates.erase run.runId).get? turn.runId).isSome = true
  by_cases he : run.runId = turn.runId
  · have hconnected : s.manager.isConnected turn.websocket = true :=
      isConnected_iff.mpr ⟨c, hc, hsame⟩
    have hturn' : s.turns.get? run.runId = some turn := he ▸ Table.get?_of_mem hturn
    simp [dispatchesInTime, hturn', hexec, hconnected] at htime
  · rw [Table.get?_erase_of_ne _ he]
    exact h.filed turn hturn hexec c hc hsame

end

/-- The cleanup lists the runs that are filed for its node. -/
theorem reaches_of_runsOfNode (hfiled : Filed s)
    (hstage : cleanup.stage = .popped) (hrun : run ∈ s.runs.entries)
    (hlisted : run.runId ∈ s.manager.runsOfNode cleanup.nodeId) : cleanup.reaches run = true := by
  obtain ⟨state, hstate, hid⟩ := List.mem_map.mp hlisted
  obtain ⟨hmem, hnode⟩ := List.mem_filter.mp hstate
  obtain ⟨other, hother, rfl⟩ := hfiled.run state hmem
  obtain rfl : other = run := eq_of_key_eq _ hother hrun hid
  simpa [Cleanup.reaches, hstage] using hnode

theorem Isolated.snapshotRuns (h : Isolated s) (hfiled : Filed s)
    (hcleanup : s.cleanups.get? cleanup.cleanupId = some cleanup)
    (hstage : cleanup.stage = .popped) :
    Isolated (s.setCleanup cleanup (.detaching (s.manager.runsOfNode cleanup.nodeId))) := by
  refine ⟨fun next hnext run hrun hreaches => ?_, h.detached, h.filed⟩
  rcases mem_put.mp hnext with rfl | ⟨hold, -⟩
  · refine h.reached cleanup (mem_of_get? hcleanup) run hrun ?_
    exact reaches_of_runsOfNode hfiled hstage hrun (by simpa [Cleanup.reaches] using hreaches)
  · exact h.reached next hold run hrun hreaches

/-- The run that a cleanup detaches has lost its connection. -/
theorem Isolated.detaches {state : RunDispatchState} {runIds : List String}
    (h : Isolated s) (hwired : Wired s)
    (hcleanup : s.cleanups.get? cleanup.cleanupId = some cleanup)
    (hstage : cleanup.stage = .detaching (state.runId :: runIds)) :
    Isolated ((s.setCleanup cleanup (.detaching runIds)).detach state cleanup.nodeId
      cleanup.reason) := by
  have hmem := mem_of_get? hcleanup
  have hlost : ∀ run ∈ s.runs.entries, run.runId = state.runId →
      ∀ c ∈ s.manager.connectionsByNode.entries, run.websocket ≠ some c.websocket := by
    intro run hrun hid
    exact h.reached cleanup hmem run hrun (by simp [Cleanup.reaches, hstage, hid])
  have hkept := RunsKept.putEvent s.runs state.runId
    (lostEvent state cleanup.nodeId cleanup.reason)
  constructor
  · intro next hnext run' hrun' hreaches c hc
    obtain ⟨run, hrun, hstate, hws, -⟩ := hkept.back run' hrun'
    rw [hws]
    rw [next.reaches_congr hstate] at hreaches
    rcases mem_put.mp hnext with rfl | ⟨hold, -⟩
    · refine h.reached cleanup hmem run hrun ?_ c hc
      have hlater : run.runId ∈ runIds := by simpa [Cleanup.reaches] using hreaches
      simp [Cleanup.reaches, hstage, hlater]
    · exact h.reached next hold run hrun hreaches c hc
  · intro run' hrun' hdetached c hc
    obtain ⟨run, hrun, hstate, hws, -⟩ := hkept.back run' hrun'
    have hid := HostedRun.runId_eq hstate
    rw [hws]
    have hdetached' : run.runId ∈ s.detached ++ [state.runId] := hid ▸ hdetached
    rcases List.mem_append.mp hdetached' with hold | hnow
    · exact h.detached run hrun hold c hc
    · exact hlost run hrun (List.mem_singleton.mp hnow) c hc
  · intro turn hturn hexec c hc hsame
    show ((s.manager.runStates.erase state.runId).get? turn.runId).isSome = true
    obtain ⟨run, hrun, hws, -⟩ := hwired.turn turn hturn
    have hne : state.runId ≠ turn.runId := by
      intro he
      refine hlost run (mem_of_get? hrun) ?_ c hc (by rw [hws, hsame])
      rw [he]
      exact key_of_get? hrun
    rw [Table.get?_erase_of_ne _ hne]
    exact h.filed turn hturn hexec c hc hsame

end steps

end Newbro.HostedRuns
