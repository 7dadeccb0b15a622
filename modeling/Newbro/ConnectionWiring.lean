import Newbro.HostedMoves

/-!
# Websockets, runs and turns

What holds in every reachable state between the connection table, the coroutines of the
runs, the run table of the manager and the turns on the nodes. A websocket is registered
once, so a run that was given a connection keeps to it and to its node.
-/
namespace Newbro.HostedRuns

open Library Protocol ExecutorNodes Reconcile Table

/-- A coroutine only goes forward. -/
def RunStage.rank : RunStage → Nat
  | .connecting => 0
  | .sending => 1
  | .dropping _ => 2
  | .draining => 3
  | .ending => 4
  | .finished => 5

/-- The command of the run has been dealt with, and the coroutine reads its queue. -/
def RunStage.isPastDispatch (stage : RunStage) : Bool := 3 ≤ stage.rank

theorem RunStage.isPastDispatch_mono {stage stage' : RunStage} (h : stage.rank ≤ stage'.rank)
    (hpast : stage.isPastDispatch = true) : stage'.isPastDispatch = true := by
  simp only [RunStage.isPastDispatch, decide_eq_true_eq] at hpast ⊢
  omega

theorem RunStage.eq_finished {stage stage' : RunStage} (h : stage.rank ≤ stage'.rank)
    (hfinished : stage = .finished) : stage' = .finished := by
  subst hfinished
  cases stage' <;> simp [RunStage.rank] at h ⊢

structure Wired (s : HostedState) : Prop where
  known : ∀ c ∈ s.manager.connectionsByNode.entries,
    (s.sockets.get? c.websocket).isSome = true
  once : ∀ c ∈ s.manager.connectionsByNode.entries,
    ∀ c' ∈ s.manager.connectionsByNode.entries, c.websocket = c'.websocket → c = c'
  chosen : ∀ run ∈ s.runs.entries, ∀ websocket, run.websocket = some websocket →
    (s.sockets.get? websocket).isSome = true ∧ run.state.nodeId.isSome = true
  node : ∀ run ∈ s.runs.entries, ∀ c ∈ s.manager.connectionsByNode.entries,
    run.websocket = some c.websocket → run.state.nodeId = some c.nodeId
  turn : ∀ turn ∈ s.turns.entries, ∃ run, s.runs.get? turn.runId = some run ∧
    run.websocket = some turn.websocket ∧ run.stage.isPastDispatch = true

/-- Runs go on, and keep their state and their websocket. -/
structure RunsKept (runs runs' : Table HostedRun.runId) : Prop where
  back : ∀ run' ∈ runs'.entries, ∃ run ∈ runs.entries,
    run'.state = run.state ∧ run'.websocket = run.websocket ∧ run.stage.rank ≤ run'.stage.rank
  forth : ∀ run ∈ runs.entries, ∃ run', runs'.get? run.runId = some run' ∧
    run'.state = run.state ∧ run'.websocket = run.websocket ∧ run.stage.rank ≤ run'.stage.rank

section frames

variable {s s' : HostedState} {runs : Table HostedRun.runId} {run run' : HostedRun}

theorem HostedRun.runId_eq (h : run'.state = run.state) : run'.runId = run.runId := by
  simp only [HostedRun.runId, h]

theorem RunsKept.refl (runs : Table HostedRun.runId) : RunsKept runs runs where
  back run' hrun' := ⟨run', hrun', rfl, rfl, le_rfl⟩
  forth run hrun := ⟨run, Table.get?_of_mem hrun, rfl, rfl, le_rfl⟩

theorem RunsKept.put (hrun : runs.get? run.runId = some run) (hstate : run'.state = run.state)
    (hws : run'.websocket = run.websocket) (hrank : run.stage.rank ≤ run'.stage.rank) :
    RunsKept runs (runs.put run') where
  back other hother := by
    rcases mem_put.mp hother with rfl | ⟨hold, -⟩
    · exact ⟨run, mem_of_get? hrun, hstate, hws, hrank⟩
    · exact ⟨other, hold, rfl, rfl, le_rfl⟩
  forth other hother := by
    rw [Table.get?_put, HostedRun.runId_eq hstate]
    by_cases h : run.runId = other.runId
    · obtain rfl : other = run := eq_of_key_eq _ hother (mem_of_get? hrun) h.symm
      exact ⟨run', by simp, hstate, hws, hrank⟩
    · exact ⟨other, by simp [h, Table.get?_of_mem hother], rfl, rfl, le_rfl⟩

theorem RunsKept.putEvent (runs : Table HostedRun.runId) (runId : String)
    (event : ExecutorEvent) : RunsKept runs (putEvent runs runId event) := by
  unfold HostedRuns.putEvent
  split
  · exact .refl runs
  · rename_i run hrun
    obtain rfl : run.runId = runId := key_of_get? hrun
    exact .put hrun rfl rfl le_rfl

/-- Steps that choose no connection, start no turn and register no websocket. -/
theorem Wired.frame (h : Wired s)
    (hconn : ∀ c ∈ s'.manager.connectionsByNode.entries, c ∈ s.manager.connectionsByNode.entries)
    (hsockets : ∀ websocket, (s.sockets.get? websocket).isSome = true →
      (s'.sockets.get? websocket).isSome = true)
    (hruns : RunsKept s.runs s'.runs)
    (hturns : ∀ turn' ∈ s'.turns.entries, ∃ turn ∈ s.turns.entries,
      turn'.runId = turn.runId ∧ turn'.websocket = turn.websocket) : Wired s' where
  known c hc := hsockets c.websocket (h.known c (hconn c hc))
  once c hc c' hc' := h.once c (hconn c hc) c' (hconn c' hc')
  chosen run' hrun' websocket hws := by
    obtain ⟨run, hrun, hstate, hsame, -⟩ := hruns.back run' hrun'
    obtain ⟨hknown, hnode⟩ := h.chosen run hrun websocket (hsame ▸ hws)
    exact ⟨hsockets websocket hknown, hstate ▸ hnode⟩
  node run' hrun' c hc hws := by
    obtain ⟨run, hrun, hstate, hsame, -⟩ := hruns.back run' hrun'
    rw [hstate]
    exact h.node run hrun c (hconn c hc) (hsame ▸ hws)
  turn turn' hturn' := by
    obtain ⟨turn, hturn, hid, hws⟩ := hturns turn' hturn'
    obtain ⟨run, hrun, hchosen, hpast⟩ := h.turn turn hturn
    obtain ⟨run', hrun', -, hsame, hrank⟩ := hruns.forth run (mem_of_get? hrun)
    rw [key_of_get? hrun, ← hid] at hrun'
    exact ⟨run', hrun', by rw [hsame, hchosen, hws], RunStage.isPastDispatch_mono hrank hpast⟩

theorem turns_kept_put {turns : Table NodeTurn.runId} {turn turn' : NodeTurn}
    (hturn : turns.get? turn.runId = some turn) (hid : turn'.runId = turn.runId)
    (hws : turn'.websocket = turn.websocket) :
    ∀ other' ∈ (turns.put turn').entries, ∃ other ∈ turns.entries,
      other'.runId = other.runId ∧ other'.websocket = other.websocket := by
  intro other' hother
  rcases mem_put.mp hother with rfl | ⟨hold, -⟩
  · exact ⟨turn, mem_of_get? hturn, hid, hws⟩
  · exact ⟨other', hold, rfl, rfl⟩

theorem turns_kept (turns : Table NodeTurn.runId) :
    ∀ other' ∈ turns.entries, ∃ other ∈ turns.entries,
      other'.runId = other.runId ∧ other'.websocket = other.websocket :=
  fun other' hother => ⟨other', hother, rfl, rfl⟩

theorem sockets_kept_deliver (sockets : Table Socket.websocket)
    (receiver : String) (message : String × ExecutorEvent) (websocket : String)
    (h : (sockets.get? websocket).isSome = true) :
    ((deliver sockets receiver message).get? websocket).isSome = true := by
  unfold deliver
  split
  · exact h
  · exact isSome_get?_put _ _ h

end frames

variable {s s' : HostedState}

theorem Wired.disconnect {websocket cleanupId reason : String}
    (h : Wired s) (hdrop : disconnect s websocket cleanupId reason = some s') : Wired s' := by
  rcases (disconnect_cases hdrop).2 with ⟨-, rfl⟩ | ⟨nodeId, -, rfl⟩
  · exact h
  · exact h.frame (fun c hc => (mem_erase.mp hc).1) (fun _ => id) (.refl _) (turns_kept _)

/-- A new websocket is nobody's yet. -/
theorem Wired.register {c : NodeConnection} {manager : NodeManager}
    (h : Wired s) (hnew : s.sockets.get? c.websocket = none)
    (hregister : s.manager.registerConnection c = some manager) :
    Wired { s with manager := manager, sockets := s.sockets.put ⟨c.websocket, .scanDue, []⟩ } := by
  obtain ⟨-, rfl⟩ := registerConnection_cases hregister
  have hfresh : ∀ c' ∈ s.manager.connectionsByNode.entries, c'.websocket ≠ c.websocket := by
    intro c' hc' hws
    have hknown := h.known c' hc'
    simp [hws, hnew] at hknown
  constructor
  · intro c' hc'
    rcases mem_put.mp hc' with rfl | ⟨hold, -⟩
    · have hput := Table.get?_put_self s.sockets (⟨c'.websocket, .scanDue, []⟩ : Socket)
      simp only at hput
      simp [hput]
    · exact isSome_get?_put _ _ (h.known c' hold)
  · intro c₁ hc₁ c₂ hc₂ hws
    rcases mem_put.mp hc₁ with rfl | ⟨hold₁, -⟩ <;>
      rcases mem_put.mp hc₂ with rfl | ⟨hold₂, -⟩
    · rfl
    · exact absurd hws.symm (hfresh c₂ hold₂)
    · exact absurd hws (hfresh c₁ hold₁)
    · exact h.once c₁ hold₁ c₂ hold₂ hws
  · intro run hrun websocket hws
    exact (h.chosen run hrun websocket hws).imp_left (isSome_get?_put _ _)
  · intro run hrun c' hc' hws
    rcases mem_put.mp hc' with rfl | ⟨hold, -⟩
    · have hknown := (h.chosen run hrun c'.websocket hws).1
      simp [hnew] at hknown
    · exact h.node run hrun c' hold hws
  · exact h.turn

variable {run : HostedRun}

/-- The run is given the connection of its node. -/
theorem Wired.connectionFound {c : NodeConnection}
    (h : Wired s) (hrun : s.runs.get? run.runId = some run) (hstage : run.stage = .connecting)
    (hnode : run.state.nodeId = some c.nodeId)
    (hc : s.manager.connectionsByNode.get? c.nodeId = some c) :
    Wired { s with runs := s.runs.put { run with
      stage := .sending
      websocket := some c.websocket } } := by
  have hmem := mem_of_get? hc
  constructor
  · exact h.known
  · exact h.once
  · intro other hother websocket hws
    rcases mem_put.mp hother with rfl | ⟨hold, -⟩
    · obtain rfl : c.websocket = websocket := by simpa using hws
      exact ⟨h.known c hmem, by simp [hnode]⟩
    · exact h.chosen other hold websocket hws
  · intro other hother c' hc' hws
    rcases mem_put.mp hother with rfl | ⟨hold, -⟩
    · have hsame : c.websocket = c'.websocket := by simpa using hws
      rw [← h.once c hmem c' hc' hsame]
      exact hnode
    · exact h.node other hold c' hc' hws
  · intro turn hturn
    obtain ⟨other, hother, hws, hpast⟩ := h.turn turn hturn
    have hne : run.runId ≠ turn.runId := by
      intro he
      rw [← he, hrun, Option.some.injEq] at hother
      subst hother
      simp [hstage, RunStage.isPastDispatch, RunStage.rank] at hpast
    refine ⟨other, ?_, hws, hpast⟩
    rw [← hother]
    exact Table.get?_put_of_ne _ hne

theorem Wired.sent {websocket : String}
    (h : Wired s) (hrun : s.runs.get? run.runId = some run) (hstage : run.stage = .sending)
    (hws : run.websocket = some websocket) :
    Wired { s with
      runs := s.runs.put { run with stage := .draining }
      turns := s.turns.put ⟨run.runId, websocket, .streaming, false⟩ } := by
  have hdraining : Wired { s with runs := s.runs.put { run with stage := .draining } } :=
    h.frame (fun _ => id) (fun _ => id) (.put hrun rfl rfl (by simp [hstage, RunStage.rank])) (turns_kept _)
  refine ⟨hdraining.known, hdraining.once, hdraining.chosen, hdraining.node, ?_⟩
  intro turn hturn
  rcases mem_put.mp hturn with rfl | ⟨hold, -⟩
  · exact ⟨{ run with stage := .draining }, Table.get?_put_self s.runs _, hws, rfl⟩
  · exact hdraining.turn turn hold

theorem Wired.dispatchRun {run : ExecutionRun} {task : Task} (h : Wired s)
    (hnew : s.runs.get? run.runId = none) :
    Wired { s with
      manager := s.manager.fileRun (dispatchState run task)
      runs := s.runs.put (startedRun s.manager run task)
      board := s.board.putRun run } := by
  refine ⟨h.known, h.once, ?_, ?_, ?_⟩
  · intro other hother websocket hws
    rcases mem_put.mp hother with rfl | ⟨hold, -⟩
    · cases hws
    · exact h.chosen other hold websocket hws
  · intro other hother c hc hws
    rcases mem_put.mp hother with rfl | ⟨hold, -⟩
    · cases hws
    · exact h.node other hold c hc hws
  · intro turn hturn
    obtain ⟨other, hother, hws, hpast⟩ := h.turn turn hturn
    have hne : (startedRun s.manager run task).runId ≠ turn.runId := by
      intro he
      rw [← he] at hother
      have hnone : s.runs.get? (startedRun s.manager run task).runId = none := hnew
      rw [hnone] at hother
      cases hother
    refine ⟨other, ?_, hws, hpast⟩
    rw [← hother]
    exact Table.get?_put_of_ne _ hne

/-- The labels that make a run or may give it a connection. -/
def Label.preparesRun : Label → Bool
  | .dispatchRun _ => true
  | .readConnection _ => true
  | _ => false

variable {l : Label}

theorem Move.runsKept (hmove : Move s l s')
    (hl : l.preparesRun = false) : RunsKept s.runs s'.runs := by
  cases hmove with
  | dispatchRun | connectionGone | connectionFound => cases hl
  | sent hrun hstage | dropped hrun hstage | finishRun hrun hstage =>
    exact .put hrun rfl rfl (by simp [hstage, RunStage.rank])
  | sendFails hrun hstage hws hdrop =>
    rcases (disconnect_cases hdrop).2 with ⟨-, rfl⟩ | ⟨nodeId, -, rfl⟩
    · exact .put hrun rfl rfl (by simp [hstage, RunStage.rank])
    · exact .put hrun rfl rfl (by simp [hstage, RunStage.rank])
  | drain hrun hstage hqueue hrecord htask =>
    refine .put hrun rfl rfl ?_
    rw [hstage]
    dsimp only
    split <;> simp [RunStage.rank]
  | disconnect hdrop =>
    rcases (disconnect_cases hdrop).2 with ⟨-, rfl⟩ | ⟨nodeId, -, rfl⟩
    · exact .refl _
    · exact .refl _
  | detaches | publish => exact .putEvent _ _ _
  | _ => exact .refl _

theorem wired_step (h : Wired s) (hmove : Move s l s') : Wired s' := by
  have hkept := hmove.runsKept
  cases hmove with
  | createTask | writeStatus => exact ⟨h.known, h.once, h.chosen, h.node, h.turn⟩
  | dispatchRun htask hnew => exact h.dispatchRun hnew
  | connectionGone hrun hstage =>
    exact h.frame (fun _ => id) (fun _ => id)
      (.put hrun rfl rfl (by simp [hstage, RunStage.rank])) (turns_kept _)
  | connectionFound hrun hstage hnode hc => exact h.connectionFound hrun hstage hnode hc
  | sent hrun hstage hws => exact h.sent hrun hstage hws
  | sendFails hrun hstage hws hdrop =>
    refine Wired.disconnect ?_ hdrop
    exact h.frame (fun _ => id) (fun _ => id) (.put hrun rfl rfl (by simp [hstage, RunStage.rank])) (turns_kept _)
  | register hnew hregister => exact h.register hnew hregister
  | disconnect hdrop => exact h.disconnect hdrop
  | dropped | drain | finishRun | detaches | snapshotRuns | cleanupEnds | detachSkips =>
    exact h.frame (fun _ => id) (fun _ => id) (hkept rfl) (turns_kept _)
  | beginScan | scanEnds | scanSkips | scanLooks | accepts | refuses | publish =>
    exact h.frame (fun _ => id) (fun _ => isSome_get?_put _ _) (hkept rfl) (turns_kept _)
  | emit hturn hphase =>
    exact h.frame (fun _ => id) (sockets_kept_deliver _ _ _) (hkept rfl)
      (turns_kept_put hturn rfl rfl)
  | followUpEvent hturn hfollow =>
    exact h.frame (fun _ => id) (sockets_kept_deliver _ _ _) (hkept rfl) (turns_kept _)
  | supplyAnswer hturn | acceptFollowUp hturn =>
    exact h.frame (fun _ => id) (fun _ => id) (hkept rfl) (turns_kept_put hturn rfl rfl)

variable (types : List String)

theorem wired_initially : Wired (initialState types) := by
  constructor <;> intro _ hmem <;> cases hmem

/-! ## The run table of the manager -/

/-- Until its coroutine is through, a run is filed with the manager exactly if it was not
detached. -/
structure Filed (s : HostedState) : Prop where
  filed : ∀ run ∈ s.runs.entries, run.stage ≠ .finished →
    s.manager.runStates.get? run.runId =
      if run.runId ∈ s.detached then none else some run.state
  run : ∀ state ∈ s.manager.runStates.entries, ∃ run ∈ s.runs.entries, run.state = state
  detached : ∀ runId ∈ s.detached, (s.runs.get? runId).isSome = true

/-- Runs go on and keep their state, whatever connection they are given. -/
structure StatesKept (runs runs' : Table HostedRun.runId) : Prop where
  back : ∀ run' ∈ runs'.entries, ∃ run ∈ runs.entries,
    run'.state = run.state ∧ run.stage.rank ≤ run'.stage.rank
  forth : ∀ run ∈ runs.entries, ∃ run', runs'.get? run.runId = some run' ∧
    run'.state = run.state ∧ run.stage.rank ≤ run'.stage.rank

theorem RunsKept.states {runs runs' : Table HostedRun.runId} (h : RunsKept runs runs') :
    StatesKept runs runs' where
  back run' hrun' := by
    obtain ⟨run, hrun, hstate, -, hrank⟩ := h.back run' hrun'
    exact ⟨run, hrun, hstate, hrank⟩
  forth run hrun := by
    obtain ⟨run', hrun', hstate, -, hrank⟩ := h.forth run hrun
    exact ⟨run', hrun', hstate, hrank⟩

/-- A run that is given a connection. -/
theorem StatesKept.put {runs : Table HostedRun.runId} {run' : HostedRun}
    (hrun : runs.get? run.runId = some run) (hstate : run'.state = run.state)
    (hrank : run.stage.rank ≤ run'.stage.rank) : StatesKept runs (runs.put run') where
  back other hother := by
    rcases mem_put.mp hother with rfl | ⟨hold, -⟩
    · exact ⟨run, mem_of_get? hrun, hstate, hrank⟩
    · exact ⟨other, hold, rfl, le_rfl⟩
  forth other hother := by
    rw [Table.get?_put, HostedRun.runId_eq hstate]
    by_cases h : run.runId = other.runId
    · obtain rfl : other = run := eq_of_key_eq _ hother (mem_of_get? hrun) h.symm
      exact ⟨run', by simp, hstate, hrank⟩
    · exact ⟨other, by simp [h, Table.get?_of_mem hother], rfl, le_rfl⟩

theorem Move.statesKept (hmove : Move s l s')
    (hl : ∀ run, l ≠ .dispatchRun run) : StatesKept s.runs s'.runs := by
  have hkept := hmove.runsKept
  cases hmove with
  | dispatchRun htask hnew => exact absurd rfl (hl _)
  | connectionGone hrun hstage | connectionFound hrun hstage =>
    exact .put hrun rfl (by simp [hstage, RunStage.rank])
  | _ => exact (hkept rfl).states

theorem StatesKept.isSome {runs runs' : Table HostedRun.runId} (h : StatesKept runs runs')
    {runId : String} (hsome : (runs.get? runId).isSome = true) :
    (runs'.get? runId).isSome = true := by
  obtain ⟨run, hrun⟩ := Option.isSome_iff_exists.mp hsome
  obtain ⟨run', hrun', -⟩ := h.forth run (mem_of_get? hrun)
  rw [key_of_get? hrun] at hrun'
  simp [hrun']

section filed

variable {s s' : HostedState}

theorem Filed.frame (h : Filed s) (hruns : StatesKept s.runs s'.runs)
    (hstates : s'.manager.runStates = s.manager.runStates)
    (hdetached : s'.detached = s.detached) : Filed s' where
  filed run' hrun' hstage := by
    obtain ⟨run, hrun, hstate, hrank⟩ := hruns.back run' hrun'
    have hid := HostedRun.runId_eq hstate
    rw [hstates, hdetached, hid, hstate]
    exact h.filed run hrun fun he => hstage (RunStage.eq_finished hrank he)
  run state hstate := by
    rw [hstates] at hstate
    obtain ⟨run, hrun, rfl⟩ := h.run state hstate
    obtain ⟨run', hrun', hsame, -⟩ := hruns.forth run hrun
    exact ⟨run', mem_of_get? hrun', hsame⟩
  detached runId hmem := hruns.isSome (h.detached runId (hdetached ▸ hmem))

theorem Filed.dispatchRun {run : ExecutionRun} {task : Task} (h : Filed s)
    (hnew : s.runs.get? run.runId = none)
    (hstates : s'.manager.runStates = s.manager.runStates.put (dispatchState run task))
    (hruns : s'.runs = s.runs.put (startedRun s.manager run task))
    (hdetached : s'.detached = s.detached) : Filed s' := by
  have hold : ∀ other ∈ s.runs.entries, other.runId ≠ run.runId :=
    Table.get?_eq_none_iff.mp hnew
  constructor
  · intro other hother hstage
    rw [hruns] at hother
    rw [hstates, hdetached, Table.get?_put]
    rcases mem_put.mp hother with rfl | ⟨hmem, -⟩
    · have hfresh : (startedRun s.manager run task).runId ∉ s.detached := by
        intro hd
        have hsome := h.detached run.runId hd
        simp [hnew] at hsome
      rw [if_neg hfresh]
      exact if_pos rfl
    · have hne : (dispatchState run task).runId ≠ other.runId := fun he => hold other hmem he.symm
      rw [if_neg hne]
      exact h.filed other hmem hstage
  · intro state hstate
    rw [hstates] at hstate
    rw [hruns]
    rcases mem_put.mp hstate with rfl | ⟨hmem, hne⟩
    · exact ⟨startedRun s.manager run task, mem_put.mpr (.inl rfl), rfl⟩
    · obtain ⟨other, hother, rfl⟩ := h.run state hmem
      exact ⟨other, mem_put.mpr (.inr ⟨hother, hne⟩), rfl⟩
  · intro runId hmem
    rw [hruns]
    exact isSome_get?_put _ _ (h.detached runId (hdetached ▸ hmem))

/-- A run leaves the table when it is finished or detached. -/
theorem Filed.erase {runId : String} (h : Filed s) (hruns : StatesKept s.runs s'.runs)
    (hstates : s'.manager.runStates = s.manager.runStates.erase runId)
    (hdetached : ∀ other, other ≠ runId → (other ∈ s'.detached ↔ other ∈ s.detached))
    (hgone : ∀ run' ∈ s'.runs.entries, run'.runId = runId → run'.stage ≠ .finished →
      runId ∈ s'.detached)
    (hknown : ∀ other ∈ s'.detached, (s.runs.get? other).isSome = true) : Filed s' where
  filed run' hrun' hstage := by
    obtain ⟨run, hrun, hstate, hrank⟩ := hruns.back run' hrun'
    have hid := HostedRun.runId_eq hstate
    rw [hstates, Table.get?_erase]
    by_cases he : runId = run'.runId
    · have hmem := hgone run' hrun' he.symm hstage
      rw [he] at hmem
      simp [he, hmem]
    · have hbefore := h.filed run hrun fun he => hstage (RunStage.eq_finished hrank he)
      rw [← hid, ← hstate] at hbefore
      rw [if_neg he, hbefore]
      simp [hdetached run'.runId fun h => he h.symm]
  run state hstate := by
    rw [hstates] at hstate
    obtain ⟨run, hrun, rfl⟩ := h.run state (mem_erase.mp hstate).1
    obtain ⟨run', hrun', hsame, -⟩ := hruns.forth run hrun
    exact ⟨run', mem_of_get? hrun', hsame⟩
  detached other hmem := hruns.isSome (hknown other hmem)

end filed

theorem filed_step (h : Filed s) (hmove : Move s l s') : Filed s' := by
  have hkept := hmove.statesKept
  cases hmove with
  | dispatchRun htask hnew => exact h.dispatchRun hnew rfl rfl rfl
  | sendFails hrun hstage hws hdrop =>
    rcases (disconnect_cases hdrop).2 with ⟨-, rfl⟩ | ⟨nodeId, -, rfl⟩
    · exact h.frame (hkept (by simp)) rfl rfl
    · exact h.frame (hkept (by simp)) rfl rfl
  | disconnect hdrop =>
    rcases (disconnect_cases hdrop).2 with ⟨-, rfl⟩ | ⟨nodeId, -, rfl⟩
    · exact h
    · exact h.frame (hkept (by simp)) rfl rfl
  | register hnew hregister =>
    obtain ⟨-, rfl⟩ := registerConnection_cases hregister
    exact h.frame (hkept (by simp)) rfl rfl
  | @finishRun run hrun hstage =>
    refine h.erase (hkept (by simp)) rfl (fun _ _ => Iff.rfl) (fun run' hrun' hid hne => ?_)
      h.detached
    rcases mem_put.mp hrun' with rfl | ⟨-, hother⟩
    · exact absurd rfl hne
    · exact absurd hid hother
  | @detaches cleanup state runIds hcleanup hstage hstate =>
    have hmem : ∀ other, other ∈ s.detached ++ [state.runId] ↔
        other ∈ s.detached ∨ other = state.runId := by simp
    refine h.erase (hkept (by simp)) rfl (fun other hne => ?_) (fun _ _ _ _ => ?_)
      (fun other hother => ?_)
    · exact (hmem other).trans (or_iff_left hne)
    · exact (hmem state.runId).mpr (.inr rfl)
    · rcases (hmem other).mp hother with hold | rfl
      · exact h.detached other hold
      · obtain ⟨run, hrun, hsame⟩ := h.run state (mem_of_get? hstate)
        have hid : run.runId = state.runId := by rw [← hsame, HostedRun.runId]
        rw [← hid, Table.get?_of_mem hrun]
        rfl
  | _ => exact h.frame (hkept (by simp)) rfl rfl

theorem filed_initially : Filed (initialState types) := by
  constructor <;> intro _ hmem <;> cases hmem

theorem wired_filed_inductive :
    (system types).Inductive fun s => Wired s ∧ Filed s where
  initially s hs := by
    obtain rfl : s = initialState types := hs
    exact ⟨wired_initially types, filed_initially types⟩
  preserved s l s' h hs := ⟨wired_step h.1 (move_of_step hs), filed_step h.2 (move_of_step hs)⟩

/-- Whatever connects and breaks off, runs stay with their connections and states. -/
theorem runs_stay_wired (labels : List Label) :
    (system types).Always (fun s => Wired s ∧ Filed s) (initialState types) labels :=
  (wired_filed_inductive types).always rfl

end Newbro.HostedRuns
