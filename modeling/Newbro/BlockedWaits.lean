import Newbro.AppServer

/-!
# Blocked waits

A Codex turn that asks the user arms a wait of its session, reports itself blocked, and then
waits. Answers and aborts signal the session, the event loop wakes the turn, a timer may cancel
the wait. The first signal that comes to a wait is to end it, with its own outcome, and is to be
meant for it. The shared fields do not name the request, though: an answer that is still on its
way ends a later wait, a timer can overtake a signal, and a second signal overwrites the first.
-/
namespace Newbro.BlockedWaits

open Library AppServer Option
open CodexTurn (CodexSession WaitResult)

/-- `codex_blocked_wait_timeout_seconds`: none, not above zero, or above zero. -/
inductive TimeLimit where
  | none
  | instant
  | later
  deriving Repr, DecidableEq

/-- How far the turn has come with its wait. It is woken when the event is set while it waits,
and expiring once the timer has cancelled its waiting. -/
inductive Phase where
  | running
  | armed (request : RequestId)
  | waiting (request : RequestId)
  | woken (request : RequestId)
  | expiring (request : RequestId)
  deriving Repr, DecidableEq

/-- A call of `mark_blocked_resolved` after an answer has been written, or of
`abort_blocked_wait`. -/
inductive Signal where
  | answered (request : RequestId)
  | aborted
  deriving Repr, DecidableEq

def Signal.outcome : Signal → Answer
  | .answered _ => .resolved
  | .aborted => .aborted

/-- A wait that is over, with the signals that came to it. -/
structure EndedWait where
  request : RequestId
  signals : List Signal
  outcome : Answer
  deriving Repr, DecidableEq

/-- The wait of a session: the event, set or not, and the result, with the turn that uses it and
the answers that are being written. The signals of the wait and the ended waits are a record. -/
structure WaitState where
  event : Option Bool := none
  result : Option WaitResult := none
  phase : Phase := .running
  writing : List RequestId := []
  signals : List Signal := []
  ended : List EndedWait := []
  deriving Repr, DecidableEq

inductive Move where
  /-- `begin_blocked_wait`, and the BLOCKED event. -/
  | block (request : RequestId)
  /-- The turn goes on and calls `wait_for_blocked_resolution`. -/
  | await
  /-- `_supply_interaction_response` starts to write an answer. -/
  | supply (request : RequestId)
  /-- The answer is written, or cannot be. -/
  | written (request : RequestId) (ok : Bool)
  /-- `close` -/
  | abort
  | timer
  | resume
  /-- The generator of the turn is closed or cancelled. -/
  | leave
  deriving Repr, DecidableEq

namespace WaitState

variable (s : WaitState)

/-- The request that the turn asks or waits for. -/
def asked : Option RequestId :=
  match s.phase with
  | .running => none
  | .armed request | .waiting request | .woken request | .expiring request => some request

def beginBlockedWait (request : RequestId) : WaitState :=
  { s with event := some false, result := none, phase := .armed request, signals := [] }

/-- The event is set with a result; a turn that waits for it is woken. -/
def setEvent (result : WaitResult) : WaitState :=
  match s.event with
  | none => s
  | some _ =>
    { s with
      event := some true
      result := some result
      phase := match s.phase with
        | .waiting request => .woken request
        | phase => phase }

/-- A signal, recorded for the wait that it comes to. -/
def signal (signal : Signal) : WaitState :=
  let signals := if s.asked.isSome then s.signals ++ [signal] else s.signals
  { s with signals := signals }

def markBlockedResolved : WaitState := s.setEvent .resolved

def abortBlockedWait : WaitState := s.setEvent .aborted

/-- The result of a wait whose event is set. -/
def waitResult : Answer :=
  match s.result with
  | some .aborted => .aborted
  | _ => .resolved

/-- The wait is over. -/
def finish (request : RequestId) (outcome : Answer) : WaitState :=
  { s with
    event := none
    result := none
    phase := .running
    ended := s.ended ++ [⟨request, s.signals, outcome⟩] }

/-- The start of `wait_for_blocked_resolution`. `wait_for` with a limit that is not above zero
cancels the waiting before it starts. -/
def awaitEvent (limit : TimeLimit) (request : RequestId) : WaitState :=
  match s.event with
  | none => s.finish request .resolved
  | some set =>
    if limit = .instant then { s with phase := .expiring request }
    else if set then s.finish request s.waitResult
    else { s with phase := .waiting request }

end WaitState

/-- One stretch of a coroutine, or the timer. -/
def step (limit : TimeLimit) (s : WaitState) : Move → Option WaitState
  | .block request => if s.phase = .running then some (s.beginBlockedWait request) else none
  | .await =>
    match s.phase with
    | .armed request => some (s.awaitEvent limit request)
    | _ => none
  | .supply request => some { s with writing := s.writing ++ [request] }
  | .written request ok =>
    if request ∈ s.writing then
      let s := { s with writing := s.writing.erase request }
      if ok then some (s.signal (.answered request)).markBlockedResolved else some s
    else none
  | .abort => some (s.signal .aborted).abortBlockedWait
  | .timer =>
    match limit, s.phase with
    | .later, .waiting request | .later, .woken request =>
      some { s with phase := .expiring request }
    | _, _ => none
  | .resume =>
    match s.phase with
    | .woken request => some (s.finish request s.waitResult)
    | .expiring request => some (s.finish request .timedOut)
    | _ => none
  | .leave => if s.phase = .running then none else some { s with phase := .running }

/-- The runs of a session under a time limit. -/
def system (limit : TimeLimit) : System WaitState Move where
  initial s := s = {}
  step := step limit

/-! ## What a wait is to come to -/

/-- The outcome that the wait of the turn is bound to, if it is. -/
def WaitState.fate (s : WaitState) : Option Answer :=
  match s.phase with
  | .running => none
  | .expiring _ => some .timedOut
  | _ => if s.event = some true then some s.waitResult else none

/-- A wait ends with its first signal, which is meant for it. -/
def EndsWith (request : RequestId) (signals : List Signal) (outcome : Option Answer) : Prop :=
  ∀ signal, signals.head? = some signal →
    outcome = some signal.outcome ∧ ∀ answered, signal = .answered answered → answered = request

/-- No wakeup is lost and none is stale: every wait that is over has ended with its first signal,
the wait of the turn is bound to end so from the moment of the signal, and the turn does not go on
waiting. -/
structure Sound (s : WaitState) : Prop where
  ended : ∀ wait ∈ s.ended, EndsWith wait.request wait.signals (some wait.outcome)
  asked : ∀ request, s.asked = some request → EndsWith request s.signals s.fate
  wakes : ∀ request, s.phase = .waiting request → s.signals = []

/-- A signal comes to a wait that has not expired; the first one is meant for it, and later ones
say the same. -/
def comesInTime (s : WaitState) (signal : Signal) : Prop :=
  ∀ request, s.asked = some request → s.phase ≠ .expiring request ∧
    (match s.signals.head? with
    | none => ∀ answered, signal = .answered answered → answered = request
    | some first => first.outcome = signal.outcome)

/-- The condition on a move. -/
def Timely (limit : TimeLimit) (s : WaitState) : Move → Prop
  | .written request true => comesInTime s (.answered request)
  | .abort => comesInTime s .aborted
  | .timer => s.signals = []
  | .await => limit = .instant → s.signals = []
  | _ => True

theorem endsWith_cons {request : RequestId} {first : Signal} {rest : List Signal}
    {outcome : Option Answer} : EndsWith request (first :: rest) outcome ↔
      outcome = some first.outcome ∧
        ∀ answered, first = .answered answered → answered = request := by
  simp [EndsWith]

theorem endsWith_nil {request : RequestId} {outcome : Option Answer} :
    EndsWith request [] outcome := by
  simp [EndsWith]

theorem Signal.outcome_ne (signal : Signal) : signal.outcome ≠ .timedOut := by
  cases signal <;> simp [Signal.outcome]

/-! ## What holds in every run -/

/-- The event of an open wait is set exactly when a signal has come to it. -/
structure Consistent (s : WaitState) : Prop where
  event : s.asked.isSome = true → ∃ set, s.event = some set ∧ (set = true ↔ s.signals ≠ [])
  woken : ∀ request, s.phase = .woken request → s.signals ≠ []
  waiting : ∀ request, s.phase = .waiting request → s.signals = []

section Signals

variable {s : WaitState}

/-- A signal sets the event of a wait and wakes the turn. -/
structure Delivered (s next : WaitState) (signal : Signal) (result : WaitResult) : Prop where
  ended : next.ended = s.ended
  asked : next.asked = s.asked
  expiring : ∀ request, next.phase = .expiring request ↔ s.phase = .expiring request
  signals : s.asked.isSome = true → next.signals = s.signals ++ [signal]
  event : s.asked.isSome = true → next.event = some true ∧ next.result = some result
  notWaiting : ∀ request, next.phase ≠ .waiting request

theorem delivered (h : Consistent s) (signal : Signal) (result : WaitResult) :
    Delivered s ((s.signal signal).setEvent result) signal result := by
  have hevent := h.event
  unfold WaitState.signal WaitState.setEvent
  cases hphase : s.phase with
  | running => cases s.event <;> constructor <;> simp [WaitState.asked, hphase]
  | armed | waiting | woken | expiring =>
    simp only [WaitState.asked, hphase, isSome_some, forall_const] at hevent
    obtain ⟨set, he, -⟩ := hevent
    constructor <;> simp [WaitState.asked, hphase, he]

theorem Delivered.consistent {next : WaitState} {signal : Signal} {result : WaitResult}
    (h : Delivered s next signal result) : Consistent next where
  event := by
    intro hasked
    rw [h.asked] at hasked
    exact ⟨true, (h.event hasked).1, by simp [h.signals hasked]⟩
  woken := by
    intro request hwoken
    have hasked : s.asked.isSome = true := by
      rw [← h.asked]
      simp [WaitState.asked, hwoken]
    simp [h.signals hasked]
  waiting := fun request hwaiting => absurd hwaiting (h.notWaiting request)

/-- The fate of a wait after a signal: the signal decides, unless the wait has expired. -/
theorem Delivered.fate {next : WaitState} {signal : Signal} {result : WaitResult}
    {request : RequestId} (h : Delivered s next signal result) (hasked : s.asked = some request)
    (hresult : ∀ t : WaitState, t.result = some result → t.waitResult = signal.outcome) :
    next.fate = if s.phase = .expiring request then some .timedOut else some signal.outcome := by
  have hsome : s.asked.isSome = true := by rw [hasked]; rfl
  have hnext : next.asked = some request := h.asked.trans hasked
  obtain ⟨hevent, hres⟩ := h.event hsome
  have hout := hresult next hres
  have hexpiring := h.expiring request
  cases hphase : next.phase with
  | running => simp [WaitState.asked, hphase] at hnext
  | armed | woken =>
    have hnot : s.phase ≠ .expiring request := by
      intro he
      rw [← hexpiring, hphase] at he
      exact absurd he (by simp)
    simp [WaitState.fate, hphase, hevent, hout, hnot]
  | waiting other => exact absurd hphase (h.notWaiting other)
  | expiring other =>
    have hsame : other = request := by simpa [WaitState.asked, hphase] using hnext
    subst hsame
    simp [WaitState.fate, hphase, hexpiring.mp hphase]

/-- A signal keeps the session sound exactly when it comes in time. -/
theorem Delivered.sound_iff {next : WaitState} {signal : Signal} {result : WaitResult}
    (h : Delivered s next signal result) (hsound : Sound s)
    (hresult : ∀ t : WaitState, t.result = some result → t.waitResult = signal.outcome) :
    Sound next ↔ comesInTime s signal := by
  have hiff : Sound next ↔ ∀ request, s.asked = some request →
      EndsWith request next.signals next.fate := by
    constructor
    · intro hnext request hasked
      exact hnext.asked request (h.asked.trans hasked)
    · intro hends
      exact ⟨h.ended ▸ hsound.ended, fun request hasked => hends request (h.asked ▸ hasked),
        fun request hwaiting => absurd hwaiting (h.notWaiting request)⟩
  rw [hiff]
  refine forall₂_congr fun request hasked => ?_
  have hsome : s.asked.isSome = true := by rw [hasked]; rfl
  rw [h.fate hasked hresult, h.signals hsome]
  have hold := hsound.asked request hasked
  cases hsignals : s.signals with
  | nil =>
    rw [List.nil_append, endsWith_cons]
    by_cases hexp : s.phase = .expiring request
    · simp [hexp, signal.outcome_ne.symm]
    · simp [hexp]
  | cons first rest =>
    rw [hsignals, endsWith_cons] at hold
    rw [List.cons_append, endsWith_cons]
    by_cases hexp : s.phase = .expiring request
    · simp [hexp, first.outcome_ne.symm]
    · simp only [hexp, if_false, some.injEq, ne_eq, not_false_eq_true, true_and, List.head?_cons]
      exact ⟨fun hmatch => hmatch.1.symm, fun hmatch => ⟨hmatch.symm, hold.2⟩⟩

end Signals

/-! ## The steps -/

section Steps

variable {limit : TimeLimit} {s next : WaitState} {move : Move}

/-- A wait that is over has come to what it was bound to. -/
theorem sound_finish {request : RequestId} {outcome : Answer} (h : Sound s)
    (hasked : s.asked = some request) (hfate : s.fate = some outcome) :
    Sound (s.finish request outcome) where
  ended := by
    intro wait hwait
    rcases List.mem_append.mp hwait with hmem | hmem
    · exact h.ended wait hmem
    · rw [List.mem_singleton] at hmem
      subst hmem
      rw [← hfate]
      exact h.asked request hasked
  asked := by
    intro other hother
    simp [WaitState.finish, WaitState.asked] at hother
  wakes := by
    intro other hother
    simp [WaitState.finish] at hother

theorem consistent_finish {request : RequestId} {outcome : Answer} :
    Consistent (s.finish request outcome) := by
  constructor <;> simp [WaitState.finish, WaitState.asked]

/-- A wait that expires loses what has come to it. -/
theorem sound_expire (h : Sound s) {request : RequestId} :
    Sound { s with phase := .expiring request } ↔ s.signals = [] := by
  constructor
  · intro hnext
    have hends := hnext.asked request rfl
    cases hsignals : s.signals with
    | nil => rfl
    | cons first rest =>
      simp only [hsignals, endsWith_cons, WaitState.fate, some.injEq] at hends
      exact absurd hends.1.symm first.outcome_ne
  · intro hsignals
    refine ⟨h.ended, fun other _ => ?_, fun other hother => by simp at hother⟩
    simp only [hsignals, endsWith_nil]

theorem consistent_expire (hc : Consistent s) {request : RequestId}
    (hasked : s.asked = some request) : Consistent { s with phase := .expiring request } :=
  ⟨fun _ => hc.event (by rw [hasked]; rfl), fun other hother => by simp at hother,
    fun other hother => by simp at hother⟩

/-- The start of the waiting: the turn expires, is done, or waits. -/
theorem awaitEvent_cases (limit : TimeLimit) (hc : Consistent s) {request : RequestId}
    (hphase : s.phase = .armed request) :
    (limit = .instant ∧ s.awaitEvent limit request = { s with phase := .expiring request }) ∨
      (limit ≠ .instant ∧ s.event = some true ∧
        s.awaitEvent limit request = s.finish request s.waitResult) ∨
      (limit ≠ .instant ∧ s.event = some false ∧ s.signals = [] ∧
        s.awaitEvent limit request = { s with phase := .waiting request }) := by
  obtain ⟨set, hevent, hset⟩ := hc.event (by simp [WaitState.asked, hphase])
  by_cases hlimit : limit = .instant
  · exact .inl ⟨hlimit, by simp [WaitState.awaitEvent, hevent, hlimit]⟩
  · cases set with
    | true => exact .inr (.inl ⟨hlimit, hevent, by simp [WaitState.awaitEvent, hevent, hlimit]⟩)
    | false =>
      have hsignals : s.signals = [] := by simpa using hset
      exact .inr (.inr ⟨hlimit, hevent, hsignals, by
        simp [WaitState.awaitEvent, hevent, hlimit]⟩)

theorem sound_await (limit : TimeLimit) (h : Sound s) (hc : Consistent s) {request : RequestId}
    (hphase : s.phase = .armed request) :
    Sound (s.awaitEvent limit request) ↔ (limit = .instant → s.signals = []) := by
  have hasked : s.asked = some request := by simp [WaitState.asked, hphase]
  rcases awaitEvent_cases limit hc hphase with
    ⟨hlimit, hawait⟩ | ⟨hlimit, hevent, hawait⟩ | ⟨hlimit, hevent, hsignals, hawait⟩
  · rw [hawait, sound_expire h]
    simp [hlimit]
  · have hfate : s.fate = some s.waitResult := by simp [WaitState.fate, hphase, hevent]
    rw [hawait]
    exact iff_of_true (sound_finish h hasked hfate) fun hinstant => absurd hinstant hlimit
  · rw [hawait]
    refine iff_of_true ⟨h.ended, fun other _ => ?_, fun _ _ => hsignals⟩
      fun hinstant => absurd hinstant hlimit
    simp only [hsignals, endsWith_nil]

theorem consistent_await (limit : TimeLimit) (hc : Consistent s) {request : RequestId}
    (hphase : s.phase = .armed request) : Consistent (s.awaitEvent limit request) := by
  have hasked : s.asked = some request := by simp [WaitState.asked, hphase]
  rcases awaitEvent_cases limit hc hphase with
    ⟨-, hawait⟩ | ⟨-, -, hawait⟩ | ⟨-, hevent, hsignals, hawait⟩
  · rw [hawait]
    exact consistent_expire hc hasked
  · rw [hawait]
    exact consistent_finish
  · rw [hawait]
    exact ⟨fun _ => ⟨false, hevent, by simp [hsignals]⟩, fun other hother => by simp at hother,
      fun _ _ => hsignals⟩

theorem waitResult_resolved (t : WaitState) (h : t.result = some .resolved) :
    t.waitResult = .resolved := by
  simp [WaitState.waitResult, h]

theorem waitResult_aborted (t : WaitState) (h : t.result = some .aborted) :
    t.waitResult = .aborted := by
  simp [WaitState.waitResult, h]

/-- What a move can do. -/
inductive Stepped (limit : TimeLimit) (s : WaitState) : Move → WaitState → Prop where
  | block {request} : Stepped limit s (.block request) (s.beginBlockedWait request)
  | await {request} : s.phase = .armed request →
      Stepped limit s .await (s.awaitEvent limit request)
  | supply {request} :
      Stepped limit s (.supply request) { s with writing := s.writing ++ [request] }
  | lost {request} :
      Stepped limit s (.written request false) { s with writing := s.writing.erase request }
  | written {request} : Stepped limit s (.written request true)
      (WaitState.signal { s with writing := s.writing.erase request }
        (.answered request)).markBlockedResolved
  | abort : Stepped limit s .abort (s.signal .aborted).abortBlockedWait
  | timer {request} : s.asked = some request →
      Stepped limit s .timer { s with phase := .expiring request }
  | woken {request} : s.phase = .woken request →
      Stepped limit s .resume (s.finish request s.waitResult)
  | expired {request} : s.phase = .expiring request →
      Stepped limit s .resume (s.finish request .timedOut)
  | leave : Stepped limit s .leave { s with phase := .running }

theorem step_cases (hstep : step limit s move = some next) : Stepped limit s move next := by
  cases move with
  | block request =>
    simp only [step, ite_none_right_eq_some, some.injEq] at hstep
    exact hstep.2 ▸ .block
  | await =>
    cases hphase : s.phase <;> simp only [step, hphase, some.injEq, reduceCtorEq] at hstep
    exact hstep ▸ .await hphase
  | supply request =>
    simp only [step, some.injEq] at hstep
    exact hstep ▸ .supply
  | written request ok =>
    simp only [step, ite_none_right_eq_some] at hstep
    cases ok with
    | false => exact some.inj hstep.2 ▸ .lost
    | true => exact some.inj hstep.2 ▸ .written
  | abort =>
    simp only [step, some.injEq] at hstep
    exact hstep ▸ .abort
  | timer =>
    cases limit <;> cases hphase : s.phase <;>
      simp only [step, hphase, some.injEq, reduceCtorEq] at hstep
    · exact hstep ▸ .timer (by simp [WaitState.asked, hphase])
    · exact hstep ▸ .timer (by simp [WaitState.asked, hphase])
  | resume =>
    cases hphase : s.phase <;> simp only [step, hphase, some.injEq, reduceCtorEq] at hstep
    · exact hstep ▸ .woken hphase
    · exact hstep ▸ .expired hphase
  | leave =>
    simp only [step, ite_none_left_eq_some, some.injEq] at hstep
    exact hstep.2 ▸ .leave

theorem consistent_step (hc : Consistent s) (hstep : step limit s move = some next) :
    Consistent next := by
  cases step_cases hstep with
  | block => constructor <;> simp [WaitState.beginBlockedWait]
  | await hphase => exact consistent_await limit hc hphase
  | supply | lost => exact ⟨hc.event, hc.woken, hc.waiting⟩
  | @written request =>
    have hc' : Consistent { s with writing := s.writing.erase request } :=
      ⟨hc.event, hc.woken, hc.waiting⟩
    exact (delivered hc' (.answered request) .resolved).consistent
  | abort => exact (delivered hc .aborted .aborted).consistent
  | timer hasked => exact consistent_expire hc hasked
  | woken | expired => exact consistent_finish
  | leave => constructor <;> simp [WaitState.asked]

/-- One move keeps the session sound exactly when it is timely. -/
theorem sound_step (hc : Consistent s) (h : Sound s) (hstep : step limit s move = some next) :
    Sound next ↔ Timely limit s move := by
  cases step_cases hstep with
  | block =>
    refine iff_of_true ⟨h.ended, fun _ _ => endsWith_nil, fun other hother => ?_⟩ trivial
    simp [WaitState.beginBlockedWait] at hother
  | await hphase => exact sound_await limit h hc hphase
  | supply | lost => exact iff_of_true ⟨h.ended, h.asked, h.wakes⟩ trivial
  | @written request =>
    have hc' : Consistent { s with writing := s.writing.erase request } :=
      ⟨hc.event, hc.woken, hc.waiting⟩
    have h' : Sound { s with writing := s.writing.erase request } :=
      ⟨h.ended, h.asked, h.wakes⟩
    exact (delivered hc' (.answered request) .resolved).sound_iff h' waitResult_resolved
  | abort => exact (delivered hc .aborted .aborted).sound_iff h waitResult_aborted
  | timer _ => exact sound_expire h
  | @woken request hphase =>
    have hasked : s.asked = some request := by simp [WaitState.asked, hphase]
    obtain ⟨set, hevent, hset⟩ := hc.event (by rw [hasked]; rfl)
    have hfate : s.fate = some s.waitResult := by
      rw [hset.mpr (hc.woken request hphase)] at hevent
      simp [WaitState.fate, hphase, hevent]
    exact iff_of_true (sound_finish h hasked hfate) trivial
  | @expired request hphase =>
    have hasked : s.asked = some request := by simp [WaitState.asked, hphase]
    have hfate : s.fate = some .timedOut := by simp [WaitState.fate, hphase]
    exact iff_of_true (sound_finish h hasked hfate) trivial
  | leave =>
    refine iff_of_true ⟨h.ended, fun other hother => ?_, fun other hother => ?_⟩ trivial
    · simp [WaitState.asked] at hother
    · simp at hother

end Steps

/-! ## Runs -/

/-- No wakeup is lost or stale throughout a run exactly when each of its moves is timely. -/
theorem wakeups_sound_iff (limit : TimeLimit) (moves : List Move) :
    (system limit).Always Sound {} moves ↔ (system limit).Along (Timely limit) {} moves := by
  have hstart : Consistent {} ∧ Sound {} := by
    refine ⟨?_, ?_⟩
    · constructor <;> simp [WaitState.asked]
    · constructor <;> simp [WaitState.asked]
  have hiff : (system limit).Always (fun s => Consistent s ∧ Sound s) {} moves ↔
      (system limit).Along (Timely limit) {} moves :=
    System.always_iff_along (Q := fun _ _ => True)
      (fun s move next h _ hstep =>
        (and_iff_right (consistent_step h.1 hstep)).trans (sound_step h.1 h.2 hstep))
      hstart (System.along_true _ _)
  have hconsistent : (system limit).Always Consistent {} moves :=
    (System.along_true _ _).always hstart.1 fun s move next h _ hstep => consistent_step h hstep
  rw [← hiff]
  exact ⟨fun h => hconsistent.and h, fun h => h.mono fun _ => And.right⟩

/-- A wait that times out while its answer is being written, and the wait of the next turn. -/
def lateAnswer : List Move :=
  [.block (.int 1), .await, .supply (.int 1), .timer, .resume, .block (.int 2),
    .written (.int 1) true, .await]

/-- The answer to the first request ends the wait for the second one. -/
theorem late_answer_ends_next_wait : ¬ (system .later).Always Sound {} lateAnswer := by
  intro h
  have hrun : (system .later).run {} lateAnswer = some
      { ended := [⟨.int 1, [], .timedOut⟩, ⟨.int 2, [.answered (.int 1)], .resolved⟩]
        signals := [.answered (.int 1)] } := by
    decide
  have hsound := h.at_end hrun
  have hends := hsound.ended ⟨.int 2, [.answered (.int 1)], .resolved⟩ (by simp)
  obtain ⟨-, hown⟩ := hends (.answered (.int 1)) rfl
  exact absurd (hown (.int 1) rfl) (by decide)

end Newbro.BlockedWaits
