import Newbro.AcpxEvents
import Newbro.Library.Transition

/-!
# The JSON-RPC peer of an app-server

`JsonRpcPeer` with the requests that are made of it: a request files a future under its id,
sends itself and waits; the read loop takes lines from the app-server and completes the futures.
Each response is to complete its own request, and once the read loop has ended no request is to
wait for ever. A response with the id `true` is one for request 1 to Python, the end of the loop
fails the requests it finds but refuses none that come later, and a loop that is cancelled before
its first step fails none.
-/
namespace Newbro.JsonRpc

open Library Option Table List
open Acpx (Json JsonFields Loads)

/-! ## Lines -/

/-- What `readline` brings. -/
inductive Received where
  | line (bytes : List UInt8)
  | overrun
  | endOfStream
  deriving Repr, DecidableEq

/-- The decoder of bytes and the `json` library. -/
structure Decoders where
  decode : List UInt8 → Option String
  loads : String → Loads

/-- What completes a future. -/
inductive Outcome where
  | result (value : Json)
  | failed (error : Json)
  | closed
  | cancelled

/-- What a line is to the read loop. -/
inductive Incoming where
  | skipped
  | response (id : Json) (outcome : Outcome)
  | event (message : JsonFields)
  | ends

def isAsciiSpace (byte : UInt8) : Bool := byte = 0x20 || (0x09 ≤ byte && byte ≤ 0x0d)

/-- `line.strip()` -/
def stripBytes (bytes : List UInt8) : List UInt8 :=
  ((bytes.dropWhile isAsciiSpace).reverse.dropWhile isAsciiSpace).reverse

/-- The outcome that a response brings. -/
def responseOutcome (message : JsonFields) : Outcome :=
  match message.lookup "error" with
  | none | some .null => .result ((message.lookup "result").getD .null)
  | some error => .failed error

/-- A JSON value that has been read. -/
def incomingOf : Json → Incoming
  | .dict message =>
    match message.lookup "id" with
    | none => .event message
    | some id =>
      if (message.lookup "result").isSome || (message.lookup "error").isSome then
        .response id (responseOutcome message)
      else .event message
  | _ => .skipped

/-- The body of `_read_loop`, up to what is done with the message. -/
def readIncoming (d : Decoders) : Received → Incoming
  | .endOfStream | .overrun => .ends
  | .line bytes =>
    if stripBytes bytes = [] then .skipped
    else
      match d.decode (stripBytes bytes) with
      | none => .ends
      | some text =>
        match d.loads text with
        | .value json => incomingOf json
        | .decodeError | .raises _ => .ends

/-! ## State -/

/-- How far a call of `request` has come. -/
inductive CallPhase where
  | sending
  | awaiting
  | returned (outcome : Outcome)
  | sendFailed
  | cancelled

/-- A call of `request` with its future, which is `none` until it is done. -/
structure Call where
  requestId : Int
  future : Option Outcome
  phase : CallPhase

inductive Reader where
  | created
  | running
  | ended
  deriving Repr, DecidableEq

/-- A response, the request that it is for if that one is not done, and what it has completed. -/
structure Answered where
  id : Json
  outcome : Outcome
  due : Option Int
  completed : List (Int × Outcome)

/-- `JsonRpcPeer`. What has completed futures, what the responses did and how many futures were
complete when the read loop ended are a record. -/
structure Peer where
  nextId : Int := 1
  pending : List Int := []
  calls : Table Call.requestId := Table.empty
  events : List JsonFields := []
  reader : Reader := .created
  completions : List (Int × Outcome) := []
  answered : List Answered := []
  endedAt : Option Nat := none

namespace Peer

/-- `future.set_result` and `future.set_exception`, where the future is not done. -/
def complete (s : Peer) (requestId : Int) (outcome : Outcome) : Peer :=
  match s.calls.get? requestId with
  | none => s
  | some call =>
    if call.future.isSome then s
    else
      { s with
        calls := s.calls.put { call with future := some outcome }
        completions := s.completions ++ [(requestId, outcome)] }

/-- The key that a response's id is looked up with: `True` is 1. -/
def pendingKey : Json → Option Int
  | .int i => some i
  | .bool b => some (if b then 1 else 0)
  | _ => none

def handleResponse (s : Peer) (id : Json) (outcome : Outcome) : Peer :=
  match pendingKey id with
  | none => s
  | some key =>
    if key ∈ s.pending then
      complete { s with pending := s.pending.filter (· ≠ key) } key outcome
    else s

/-- The future of the request is not done. -/
def unresolved (s : Peer) (requestId : Int) : Bool :=
  (s.calls.get? requestId).any fun call => call.future.isNone

/-- The request with an id, if its future is not done. -/
def due (s : Peer) : Json → Option Int
  | .int i => if s.unresolved i then some i else none
  | _ => none

/-- A response, with what it does on record. -/
def respond (s : Peer) (id : Json) (outcome : Outcome) : Peer :=
  let next := s.handleResponse id outcome
  { next with
    answered := s.answered ++
      [⟨id, outcome, s.due id, next.completions.drop s.completions.length⟩] }

/-- The read loop is over: its `finally` fails what is pending. -/
def endLoop (s : Peer) : Peer :=
  let closed := s.pending.foldl (fun s requestId => s.complete requestId .closed) s
  { closed with pending := [], reader := .ended, endedAt := some s.completions.length }

def setPhase (s : Peer) (call : Call) (phase : CallPhase) : Peer :=
  { s with calls := s.calls.put { call with phase := phase } }

end Peer

inductive Move where
  | request
  /-- `_send` returns or raises. -/
  | sent (requestId : Int) (ok : Bool)
  /-- The call goes on with its future done. -/
  | resume (requestId : Int)
  /-- The task of the call is cancelled. -/
  | cancelCall (requestId : Int)
  | startReader
  | receive (received : Received)
  /-- `close` -/
  | cancelReader

/-- One stretch of a coroutine, or a line that comes. -/
def step (d : Decoders) (s : Peer) : Move → Option Peer
  | .request =>
    some { s with
      nextId := s.nextId + 1
      pending := s.pending ++ [s.nextId]
      calls := s.calls.put ⟨s.nextId, none, .sending⟩ }
  | .sent requestId ok =>
    match s.calls.get? requestId with
    | some ⟨id, future, .sending⟩ =>
      some (s.setPhase ⟨id, future, .sending⟩ (if ok then .awaiting else .sendFailed))
    | _ => none
  | .resume requestId =>
    match s.calls.get? requestId with
    | some ⟨id, some outcome, .awaiting⟩ =>
      some (s.setPhase ⟨id, some outcome, .awaiting⟩ (.returned outcome))
    | _ => none
  | .cancelCall requestId =>
    match s.calls.get? requestId with
    | some ⟨id, future, .sending⟩ => some (s.setPhase ⟨id, future, .sending⟩ .cancelled)
    | some ⟨id, future, .awaiting⟩ =>
      some (s.setPhase ⟨id, future.or (some .cancelled), .awaiting⟩ .cancelled)
    | _ => none
  | .startReader => if s.reader = .created then some { s with reader := .running } else none
  | .receive received =>
    if s.reader = .running then
      match readIncoming d received with
      | .skipped => some s
      | .response id outcome => some (s.respond id outcome)
      | .event message => some { s with events := s.events ++ [message] }
      | .ends => some s.endLoop
    else none
  | .cancelReader =>
    match s.reader with
    | .created => some { s with reader := .ended, endedAt := some s.completions.length }
    | .running => some s.endLoop
    | .ended => none

/-- The runs of a peer. -/
def system (d : Decoders) : System Peer Move where
  initial s := s = {}
  step := step d

/-! ## The law -/

/-- Responses complete their own requests, each future is completed once, a call returns what
completed its future, and once the read loop has ended nothing waits for a future that is not
done and futures are completed by errors only. -/
structure Law (s : Peer) : Prop where
  matched : ∀ answered ∈ s.answered,
    answered.completed = answered.due.toList.map fun requestId => (requestId, answered.outcome)
  once : (s.completions.map Prod.fst).Nodup
  returns : ∀ call ∈ s.calls.entries, ∀ outcome, call.phase = .returned outcome →
    (call.requestId, outcome) ∈ s.completions
  ended : s.reader = .ended → ∀ call ∈ s.calls.entries, call.phase = .awaiting →
    call.future.isSome = true
  errors : ∀ count, s.endedAt = some count → ∀ completion ∈ s.completions.drop count,
    completion.2 = .closed

/-- The condition on a move: a response with the id `true` finds request 1 done, a request that
is sent after the end finds its own future done, and a reader that is cancelled before it has
started leaves no call that waits. -/
def Completes (d : Decoders) (s : Peer) : Move → Prop
  | .receive received => ∀ outcome, readIncoming d received = .response (.bool true) outcome →
      s.unresolved 1 = false
  | .sent requestId true => s.reader = .ended → s.unresolved requestId = false
  | .cancelReader => s.reader = .created → ∀ call ∈ s.calls.entries, call.phase = .awaiting →
      call.future.isSome = true
  | _ => True

/-! ## What holds in every run -/

/-- Futures that are not done are pending, a call that goes on has the outcome of a completion,
and each future is completed once. -/
structure Consistent (s : Peer) : Prop where
  first : 1 ≤ s.nextId
  ids : ∀ call ∈ s.calls.entries, 1 ≤ call.requestId ∧ call.requestId < s.nextId
  pending : ∀ call ∈ s.calls.entries, call.future = none → call.requestId ∈ s.pending
  completions : ∀ completion ∈ s.completions, ∃ call, s.calls.get? completion.1 = some call ∧
    call.future = some completion.2
  once : (s.completions.map Prod.fst).Nodup
  underWay : ∀ call ∈ s.calls.entries, call.phase = .sending ∨ call.phase = .awaiting →
    ∀ outcome, call.future = some outcome → (call.requestId, outcome) ∈ s.completions
  returns : ∀ call ∈ s.calls.entries, ∀ outcome, call.phase = .returned outcome →
    (call.requestId, outcome) ∈ s.completions
  endedAt : s.reader ≠ .ended → s.endedAt = none
  errors : ∀ count, s.endedAt = some count → count ≤ s.completions.length ∧
    ∀ completion ∈ s.completions.drop count, completion.2 = .closed

section Complete

variable {s : Peer} {requestId : Int} {outcome : Outcome}

theorem unresolved_iff : s.unresolved requestId = true ↔
    ∃ call, s.calls.get? requestId = some call ∧ call.future = none := by
  simp [Peer.unresolved, Option.any_eq_true]

theorem complete_of_done (h : s.unresolved requestId = false) :
    s.complete requestId outcome = s := by
  unfold Peer.complete
  cases hcall : s.calls.get? requestId with
  | none => rfl
  | some call =>
    have hdone : call.future.isSome = true := by simpa [Peer.unresolved, hcall] using h
    simp [hdone]

theorem complete_of_unresolved {call : Call} (hcall : s.calls.get? requestId = some call)
    (hfuture : call.future = none) : s.complete requestId outcome =
      { s with
        calls := s.calls.put { call with future := some outcome }
        completions := s.completions ++ [(requestId, outcome)] } := by
  simp [Peer.complete, hcall, hfuture]

/-- A future that is completed once more makes a consistent peer again; its id need not be
pending any longer. -/
theorem consistent_complete (pending : List Int) (h : Consistent s) (hopen : s.endedAt = none)
    (hpending : ∀ other ∈ s.pending, other ≠ requestId → other ∈ pending) :
    Consistent (Peer.complete { s with pending := pending } requestId outcome) := by
  cases hunresolved : s.unresolved requestId with
  | false =>
    have hsame : Peer.complete { s with pending := pending } requestId outcome =
        { s with pending := pending } := complete_of_done hunresolved
    rw [hsame]
    refine ⟨h.first, h.ids, ?_, h.completions, h.once, h.underWay, h.returns, h.endedAt, h.errors⟩
    intro call hcall hfuture
    refine hpending _ (h.pending call hcall hfuture) ?_
    intro heq
    have htrue : s.unresolved requestId = true :=
      unresolved_iff.mpr ⟨call, heq ▸ Table.get?_of_mem hcall, hfuture⟩
    rw [hunresolved] at htrue
    exact absurd htrue (by simp)
  | true =>
    obtain ⟨call, hcall, hfuture⟩ := unresolved_iff.mp hunresolved
    have hmem := mem_of_get? hcall
    have hid : call.requestId = requestId := key_of_get? hcall
    have hother : ∀ completion ∈ s.completions, completion.1 ≠ requestId := by
      intro completion hcompletion heq
      obtain ⟨done, hdone, hsome⟩ := h.completions completion hcompletion
      rw [heq, hcall] at hdone
      rw [← some.inj hdone, hfuture] at hsome
      exact absurd hsome (by simp)
    have hcomplete : Peer.complete { s with pending := pending } requestId outcome =
        { s with
          pending := pending
          calls := s.calls.put { call with future := some outcome }
          completions := s.completions ++ [(requestId, outcome)] } :=
      complete_of_unresolved hcall hfuture
    rw [hcomplete]
    refine ⟨h.first, ?_, ?_, ?_, ?_, ?_, ?_, h.endedAt, ?_⟩
    · exact forall_put h.ids (h.ids call hmem)
    · intro other hmem' hnone
      rcases mem_put.mp hmem' with rfl | ⟨hold, hne⟩
      · exact absurd hnone (by simp)
      · exact hpending _ (h.pending other hold hnone) (by simpa [hid] using hne)
    · intro completion hcompletion
      rcases mem_append.mp hcompletion with hold | hnew
      · have hne : call.requestId ≠ completion.1 := by
          rw [hid]
          exact (hother completion hold).symm
        obtain ⟨done, hdone, hsome⟩ := h.completions completion hold
        exact ⟨done, by rw [← hdone]; exact Table.get?_put_of_ne s.calls hne, hsome⟩
      · rw [mem_singleton.mp hnew, ← hid]
        exact ⟨_, Table.get?_put_self s.calls _, rfl⟩
    · rw [map_append, nodup_append]
      refine ⟨h.once, by simp, ?_⟩
      intro a ha b hb
      obtain ⟨completion, hcompletion, rfl⟩ := mem_map.mp ha
      rw [map_singleton, mem_singleton] at hb
      rw [hb]
      exact hother completion hcompletion
    · refine forall_put (fun other hold hphase out hsome =>
        mem_append_left _ (h.underWay other hold hphase out hsome)) ?_
      intro _ out hsome
      rw [← some.inj hsome, hid]
      exact mem_append_right _ (mem_singleton_self _)
    · refine forall_put (fun other hold out hphase =>
        mem_append_left _ (h.returns other hold out hphase)) ?_
      exact fun out hphase => mem_append_left _ (h.returns call hmem out hphase)
    · intro count hcount
      simp only at hcount
      rw [hopen] at hcount
      exact absurd hcount (by simp)

end Complete

/-! ## The end of the read loop -/

section End

variable {s : Peer} {outcome : Outcome}

/-- What completing a future leaves alone. -/
structure Frame (s next : Peer) : Prop where
  pending : next.pending = s.pending
  reader : next.reader = s.reader
  endedAt : next.endedAt = s.endedAt
  answered : next.answered = s.answered
  nextId : next.nextId = s.nextId
  phases : ∀ id, (next.calls.get? id).map Call.phase = (s.calls.get? id).map Call.phase

theorem Frame.trans {s next last : Peer} (h : Frame s next) (h' : Frame next last) : Frame s last :=
  ⟨h'.pending.trans h.pending, h'.reader.trans h.reader, h'.endedAt.trans h.endedAt,
    h'.answered.trans h.answered, h'.nextId.trans h.nextId,
    fun id => (h'.phases id).trans (h.phases id)⟩

theorem frame_complete (s : Peer) (requestId : Int) (outcome : Outcome) :
    Frame s (s.complete requestId outcome) := by
  cases hunresolved : s.unresolved requestId with
  | false =>
    rw [complete_of_done hunresolved]
    exact ⟨rfl, rfl, rfl, rfl, rfl, fun _ => rfl⟩
  | true =>
    obtain ⟨call, hcall, hfuture⟩ := unresolved_iff.mp hunresolved
    have hid : call.requestId = requestId := key_of_get? hcall
    rw [complete_of_unresolved hcall hfuture]
    refine ⟨rfl, rfl, rfl, rfl, rfl, fun id => ?_⟩
    simp only [Table.get?_put, hid]
    split_ifs with heq
    · rw [← heq, hcall]
      rfl
    · rfl

/-- A future that is not done is completed, and on record. -/
theorem completions_complete (requestId : Int) :
    (s.complete requestId outcome).completions =
      s.completions ++ if s.unresolved requestId then [(requestId, outcome)] else [] := by
  cases hunresolved : s.unresolved requestId with
  | false =>
    rw [complete_of_done hunresolved]
    simp
  | true =>
    obtain ⟨call, hcall, hfuture⟩ := unresolved_iff.mp hunresolved
    rw [complete_of_unresolved hcall hfuture]
    rfl

/-- What has been completed stays so. -/
theorem unresolved_complete (requestId other : Int) :
    (s.complete requestId outcome).unresolved other =
      (s.unresolved other && decide (other ≠ requestId)) := by
  cases hunresolved : s.unresolved requestId with
  | false =>
    rw [complete_of_done hunresolved]
    by_cases heq : other = requestId
    · simp [heq, hunresolved]
    · simp [heq]
  | true =>
    obtain ⟨call, hcall, hfuture⟩ := unresolved_iff.mp hunresolved
    have hid : call.requestId = requestId := key_of_get? hcall
    rw [complete_of_unresolved hcall hfuture]
    simp only [Peer.unresolved, Table.get?_put, hid]
    by_cases heq : requestId = other
    · simp [heq]
    · simp [heq, Ne.symm heq]

/-- What a list of requests that are closed comes to. -/
structure ClosedAll (s next : Peer) (ids : List Int) : Prop where
  consistent : Consistent next
  frame : Frame s next
  unresolved : ∀ id, next.unresolved id = (s.unresolved id && decide (id ∉ ids))
  completions : ∃ more, next.completions = s.completions ++ more ∧
    ∀ completion ∈ more, completion.2 = .closed

/-- By induction on the requests. -/
theorem closedAll (ids : List Int) : ∀ {s : Peer}, Consistent s → s.endedAt = none →
    ClosedAll s (ids.foldl (fun s requestId => s.complete requestId .closed) s) ids := by
  induction ids with
  | nil =>
    intro s h hopen
    exact ⟨h, ⟨rfl, rfl, rfl, rfl, rfl, fun _ => rfl⟩, by simp, ⟨[], by simp⟩⟩
  | cons id ids ih =>
    intro s h hopen
    have hfirst := frame_complete s id .closed
    have hconsistent : Consistent (s.complete id .closed) :=
      consistent_complete s.pending h hopen fun other hother _ => hother
    have hrest := ih hconsistent (hfirst.endedAt.trans hopen)
    refine ⟨hrest.consistent, hfirst.trans hrest.frame, ?_, ?_⟩
    · intro other
      rw [foldl_cons, hrest.unresolved, unresolved_complete, Bool.and_assoc]
      congr 1
      by_cases heq : other = id <;> simp [heq]
    · obtain ⟨more, hmore, hclosed⟩ := hrest.completions
      refine ⟨(if s.unresolved id then [(id, .closed)] else []) ++ more, ?_, ?_⟩
      · rw [foldl_cons, hmore, completions_complete, append_assoc]
      · intro completion hcompletion
        rcases mem_append.mp hcompletion with hnew | hold
        · split_ifs at hnew with hunresolved
          · rw [mem_singleton.mp hnew]
          · exact absurd hnew (by simp)
        · exact hclosed completion hold

/-- The read loop leaves no future that is not done. -/
theorem endLoop_spec (h : Consistent s) (hopen : s.endedAt = none) :
    Consistent s.endLoop ∧ s.endLoop.answered = s.answered ∧
      ∀ call ∈ s.endLoop.calls.entries, call.future.isSome = true := by
  have hall := closedAll s.pending h hopen
  unfold Peer.endLoop
  generalize hclosed : s.pending.foldl (fun s requestId => s.complete requestId .closed) s = closed
    at hall
  have hdone : ∀ call ∈ closed.calls.entries, call.future.isSome = true := by
    intro call hcall
    cases hfuture : call.future with
    | some outcome => rfl
    | none =>
      have hunresolved : closed.unresolved call.requestId = true :=
        unresolved_iff.mpr ⟨call, Table.get?_of_mem hcall, hfuture⟩
      have hpending := hall.consistent.pending call hcall hfuture
      rw [hall.frame.pending] at hpending
      rw [hall.unresolved] at hunresolved
      simp [hpending] at hunresolved
  refine ⟨?_, hall.frame.answered, hdone⟩
  have hc := hall.consistent
  refine ⟨hc.first, hc.ids, ?_, hc.completions, hc.once, hc.underWay, hc.returns, ?_, ?_⟩
  · intro call hcall hfuture
    have hsome := hdone call hcall
    rw [hfuture] at hsome
    exact absurd hsome (by simp)
  · exact fun hreader => absurd rfl hreader
  · intro count hcount
    obtain ⟨more, hmore, hclosedMore⟩ := hall.completions
    rw [← some.inj hcount]
    simp only [hmore]
    refine ⟨by simp, fun completion hcompletion => hclosedMore completion ?_⟩
    rwa [drop_left] at hcompletion

end End

/-! ## A response, and the steps of a call -/

section Response

variable {s : Peer} {id : Json} {outcome : Outcome}

theorem unresolved_of_not_pending (h : Consistent s) {key : Int} (hkey : key ∉ s.pending) :
    s.unresolved key = false := by
  rw [Bool.eq_false_iff]
  intro hunresolved
  obtain ⟨call, hcall, hfuture⟩ := unresolved_iff.mp hunresolved
  apply hkey
  rw [← key_of_get? hcall]
  exact h.pending call (mem_of_get? hcall) hfuture

/-- What a response completes: the future under the key of its id, if that is not done. -/
theorem completions_handleResponse (h : Consistent s) :
    (s.handleResponse id outcome).completions =
      s.completions ++ match Peer.pendingKey id with
        | none => []
        | some key => if s.unresolved key then [(key, outcome)] else [] := by
  unfold Peer.handleResponse
  cases hkey : Peer.pendingKey id with
  | none => simp
  | some key =>
    by_cases hpending : key ∈ s.pending
    · simp only [hpending, if_true]
      exact completions_complete key
    · simp [hpending, unresolved_of_not_pending h hpending]

theorem respond_spec (id : Json) (outcome : Outcome) (h : Consistent s) (hopen : s.endedAt = none) :
    Consistent (s.respond id outcome) ∧ (s.respond id outcome).reader = s.reader := by
  have hhandled : Consistent (s.handleResponse id outcome) ∧
      (s.handleResponse id outcome).reader = s.reader := by
    unfold Peer.handleResponse
    cases hkey : Peer.pendingKey id with
    | none => exact ⟨h, rfl⟩
    | some key =>
      by_cases hpending : key ∈ s.pending
      · simp only [hpending, if_true]
        refine ⟨consistent_complete _ h hopen fun other hother hne => ?_,
          (frame_complete _ key outcome).reader⟩
        simp [hother, hne]
      · simp only [hpending, if_false]
        exact ⟨h, trivial⟩
  obtain ⟨hc, hreader⟩ := hhandled
  exact ⟨⟨hc.first, hc.ids, hc.pending, hc.completions, hc.once, hc.underWay, hc.returns,
    hc.endedAt, hc.errors⟩, hreader⟩

/-- The response completes what is due, unless its id is `true` and request 1 is not done. -/
theorem matched_respond (outcome : Outcome) (h : Consistent s) :
    ((s.handleResponse id outcome).completions.drop s.completions.length =
      (s.due id).toList.map fun requestId => (requestId, outcome)) ↔
        (id = .bool true → s.unresolved 1 = false) := by
  rw [completions_handleResponse h, drop_left]
  cases id with
  | int i =>
    simp only [Peer.pendingKey, Peer.due]
    cases s.unresolved i <;> simp
  | bool b =>
    cases b with
    | true =>
      simp only [Peer.pendingKey, Peer.due, if_true]
      cases s.unresolved 1 <;> simp
    | false =>
      have hzero : s.unresolved 0 = false := by
        rw [Bool.eq_false_iff]
        intro hunresolved
        obtain ⟨call, hcall, -⟩ := unresolved_iff.mp hunresolved
        have hid := (h.ids call (mem_of_get? hcall)).1
        rw [key_of_get? hcall] at hid
        omega
      simp [Peer.pendingKey, Peer.due, hzero]
  | null | float | str | list | dict => simp [Peer.pendingKey, Peer.due]

/-- A call moves on: its future stays, or is cancelled. -/
theorem consistent_put {old new : Call} (h : Consistent s) (hold : old ∈ s.calls.entries)
    (hid : new.requestId = old.requestId) (hnone : new.future = none → old.future = none)
    (hsome : ∀ out, old.future = some out → new.future = some out)
    (hunderWay : new.phase = .sending ∨ new.phase = .awaiting →
      ∀ out, new.future = some out → (new.requestId, out) ∈ s.completions)
    (hreturns : ∀ out, new.phase = .returned out → (new.requestId, out) ∈ s.completions) :
    Consistent { s with calls := s.calls.put new } := by
  refine ⟨h.first, ?_, ?_, ?_, h.once, ?_, ?_, h.endedAt, h.errors⟩
  · exact forall_put h.ids (hid ▸ h.ids old hold)
  · exact forall_put h.pending fun hfuture => hid ▸ h.pending old hold (hnone hfuture)
  · intro completion hcompletion
    obtain ⟨done, hdone, hfuture⟩ := h.completions completion hcompletion
    by_cases heq : new.requestId = completion.1
    · have hsame : done = old := by
        have hget := Table.get?_of_mem hold
        rw [← hid, heq, hdone] at hget
        exact some.inj hget
      refine ⟨new, ?_, hsome _ (hsame ▸ hfuture)⟩
      simp only [Table.get?_put, heq, if_true]
    · exact ⟨done, by simpa only [Table.get?_put, heq, if_false] using hdone, hfuture⟩
  · exact forall_put h.underWay hunderWay
  · exact forall_put h.returns hreturns

end Response

/-! ## Steps and runs -/

section Steps

variable {d : Decoders} {s next : Peer} {move : Move}

/-- What a move can do. -/
inductive Stepped (d : Decoders) (s : Peer) : Move → Peer → Prop where
  | request : Stepped d s .request
      { s with
        nextId := s.nextId + 1
        pending := s.pending ++ [s.nextId]
        calls := s.calls.put ⟨s.nextId, none, .sending⟩ }
  | sent {call} : call ∈ s.calls.entries → call.phase = .sending →
      Stepped d s (.sent call.requestId true) (s.setPhase call .awaiting)
  | sendFails {call} : call ∈ s.calls.entries → call.phase = .sending →
      Stepped d s (.sent call.requestId false) (s.setPhase call .sendFailed)
  | resume {call outcome} : call ∈ s.calls.entries → call.phase = .awaiting →
      call.future = some outcome →
      Stepped d s (.resume call.requestId) (s.setPhase call (.returned outcome))
  | cancelSending {call} : call ∈ s.calls.entries → call.phase = .sending →
      Stepped d s (.cancelCall call.requestId) (s.setPhase call .cancelled)
  | cancelAwaiting {call} : call ∈ s.calls.entries → call.phase = .awaiting →
      Stepped d s (.cancelCall call.requestId)
        (s.setPhase { call with future := call.future.or (some .cancelled) } .cancelled)
  | startReader : s.reader = .created → Stepped d s .startReader { s with reader := .running }
  | skipped {received} : readIncoming d received = .skipped → Stepped d s (.receive received) s
  | response {received id outcome} : s.reader = .running →
      readIncoming d received = .response id outcome →
      Stepped d s (.receive received) (s.respond id outcome)
  | event {received message} : readIncoming d received = .event message →
      Stepped d s (.receive received) { s with events := s.events ++ [message] }
  | ends {received} : s.reader = .running → readIncoming d received = .ends →
      Stepped d s (.receive received) s.endLoop
  | cancelCreated : s.reader = .created → Stepped d s .cancelReader
      { s with reader := .ended, endedAt := some s.completions.length }
  | cancelRunning : s.reader = .running → Stepped d s .cancelReader s.endLoop

theorem step_cases (hstep : step d s move = some next) : Stepped d s move next := by
  cases move with
  | request => exact some.inj hstep ▸ .request
  | sent requestId ok =>
    simp only [step] at hstep
    split at hstep
    · rename_i id future hcall
      obtain rfl : id = requestId := key_of_get? hcall
      have hmem := mem_of_get? hcall
      cases ok with
      | true => exact some.inj hstep ▸ .sent hmem rfl
      | false => exact some.inj hstep ▸ .sendFails hmem rfl
    · exact absurd hstep (by simp)
  | resume requestId =>
    simp only [step] at hstep
    split at hstep
    · rename_i id outcome hcall
      obtain rfl : id = requestId := key_of_get? hcall
      exact some.inj hstep ▸ .resume (mem_of_get? hcall) rfl rfl
    · exact absurd hstep (by simp)
  | cancelCall requestId =>
    simp only [step] at hstep
    split at hstep
    · rename_i id future hcall
      obtain rfl : id = requestId := key_of_get? hcall
      exact some.inj hstep ▸ .cancelSending (mem_of_get? hcall) rfl
    · rename_i id future hcall
      obtain rfl : id = requestId := key_of_get? hcall
      exact some.inj hstep ▸ .cancelAwaiting (mem_of_get? hcall) rfl
    · exact absurd hstep (by simp)
  | startReader =>
    simp only [step, ite_none_right_eq_some, some.injEq] at hstep
    exact hstep.2 ▸ .startReader hstep.1
  | receive received =>
    simp only [step, ite_none_right_eq_some] at hstep
    obtain ⟨hreader, hstep⟩ := hstep
    cases hread : readIncoming d received <;>
      simp only [hread, some.injEq] at hstep
    · exact hstep ▸ .skipped hread
    · exact hstep ▸ .response hreader hread
    · exact hstep ▸ .event hread
    · exact hstep ▸ .ends hreader hread
  | cancelReader =>
    cases hreader : s.reader <;>
      simp only [step, hreader, some.injEq, reduceCtorEq] at hstep
    · exact hstep ▸ .cancelCreated hreader
    · exact hstep ▸ .cancelRunning hreader

theorem endedAt_of_reader (h : Consistent s) {reader : Reader} (hreader : s.reader = reader)
    (hne : reader ≠ .ended) : s.endedAt = none := h.endedAt (by rw [hreader]; exact hne)

theorem consistent_step (h : Consistent s) (hstep : step d s move = some next) :
    Consistent next := by
  cases step_cases hstep with
  | request =>
    have hfresh : ∀ call ∈ s.calls.entries, call.requestId ≠ s.nextId :=
      fun call hcall => Int.ne_of_lt (h.ids call hcall).2
    have hfirst := h.first
    refine ⟨by simp only; omega, ?_, ?_, ?_, h.once, ?_, ?_, h.endedAt, h.errors⟩
    · refine forall_put (fun call hcall => ?_) ⟨hfirst, by simp only; omega⟩
      have hid := h.ids call hcall
      simp only
      omega
    · exact forall_put
        (fun call hcall hfuture => mem_append_left _ (h.pending call hcall hfuture))
        fun _ => mem_append_right _ (mem_singleton_self _)
    · intro completion hcompletion
      obtain ⟨done, hdone, hfuture⟩ := h.completions completion hcompletion
      have hne : s.nextId ≠ completion.1 := by
        rw [← key_of_get? hdone]
        exact (hfresh done (mem_of_get? hdone)).symm
      exact ⟨done, by simpa only [Table.get?_put, hne, if_false] using hdone, hfuture⟩
    · exact forall_put h.underWay (by simp)
    · exact forall_put h.returns (by simp)
  | @sent call hcall hphase =>
    exact consistent_put h hcall rfl id (fun _ => id)
      (fun _ => h.underWay call hcall (.inl hphase)) (by simp)
  | sendFails hcall _ | cancelSending hcall _ =>
    exact consistent_put h hcall rfl id (fun _ => id) (by simp) (by simp)
  | @resume call outcome hcall hphase hfuture =>
    refine consistent_put h hcall rfl id (fun _ => id) (by simp) ?_
    intro out hout
    rw [← CallPhase.returned.inj hout]
    exact h.underWay call hcall (.inr hphase) outcome hfuture
  | @cancelAwaiting call hcall _ =>
    refine consistent_put h hcall rfl ?_ ?_ (by simp) (by simp)
    · cases call.future <;> simp
    · intro out hout
      simp [hout]
  | startReader hreader =>
    have hopen := endedAt_of_reader h hreader (by simp)
    exact ⟨h.first, h.ids, h.pending, h.completions, h.once, h.underWay, h.returns,
      fun _ => hopen, h.errors⟩
  | skipped _ => exact h
  | response hreader _ => exact (respond_spec _ _ h (endedAt_of_reader h hreader (by simp))).1
  | event _ =>
    exact ⟨h.first, h.ids, h.pending, h.completions, h.once, h.underWay, h.returns, h.endedAt,
      h.errors⟩
  | ends hreader | cancelRunning hreader =>
    exact (endLoop_spec h (endedAt_of_reader h hreader (by simp))).1
  | cancelCreated _ =>
    refine ⟨h.first, h.ids, h.pending, h.completions, h.once, h.underWay, h.returns,
      fun hne => absurd rfl hne, ?_⟩
    intro count hcount
    rw [← some.inj hcount, drop_length]
    exact ⟨Nat.le_refl _, by simp⟩

theorem law_of_consistent (hc : Consistent s)
    (hmatched : ∀ answered ∈ s.answered, answered.completed =
      answered.due.toList.map fun requestId => (requestId, answered.outcome))
    (hended : s.reader = .ended → ∀ call ∈ s.calls.entries, call.phase = .awaiting →
      call.future.isSome = true) : Law s :=
  ⟨hmatched, hc.once, hc.returns, hended, fun count hcount => (hc.errors count hcount).2⟩

/-- A call that does not wait after its move brings no wait without an end. -/
theorem ended_put {new : Call} (hlaw : Law s)
    (hnew : s.reader = .ended → new.phase = .awaiting → new.future.isSome = true) :
    s.reader = .ended → ∀ call ∈ (s.calls.put new).entries, call.phase = .awaiting →
      call.future.isSome = true :=
  fun hreader => forall_put (hlaw.ended hreader) (hnew hreader)

theorem unresolved_of_mem {call : Call} (hcall : call ∈ s.calls.entries) :
    s.unresolved call.requestId = false ↔ call.future.isSome = true := by
  rw [Peer.unresolved, Table.get?_of_mem hcall]
  cases hfuture : call.future <;> simp [hfuture]

/-- One move keeps the law exactly when it satisfies the condition. -/
theorem law_step (hc : Consistent s) (hlaw : Law s) (hstep : step d s move = some next) :
    Law next ↔ Completes d s move := by
  have hnext := consistent_step hc hstep
  cases step_cases hstep with
  | request | sendFails | resume | cancelSending | cancelAwaiting =>
    exact iff_of_true (law_of_consistent hnext hlaw.matched (ended_put hlaw (by simp))) trivial
  | @sent call hcall hphase =>
    simp only [Completes, unresolved_of_mem hcall]
    constructor
    · intro h hreader
      exact h.ended hreader { call with phase := .awaiting } (mem_put.mpr (.inl rfl)) rfl
    · intro h
      exact law_of_consistent hnext hlaw.matched (ended_put hlaw fun hreader _ => h hreader)
  | startReader _ =>
    exact iff_of_true (law_of_consistent hnext hlaw.matched fun hreader => by simp at hreader)
      trivial
  | skipped hread => exact iff_of_true hlaw fun outcome h => by simp [hread] at h
  | @response received id outcome hreader hread =>
    have hrunning := (respond_spec id outcome hc (endedAt_of_reader hc hreader (by simp))).2
    have hcond : Completes d s (.receive received) ↔
        (id = .bool true → s.unresolved 1 = false) := by
      simp only [Completes, hread, Incoming.response.injEq]
      exact ⟨fun h hid => h outcome ⟨hid, rfl⟩, fun h _ heq => h heq.1⟩
    rw [hcond, ← matched_respond outcome hc]
    constructor
    · intro h
      exact h.matched _ (mem_append_right _ (mem_singleton_self _))
    · intro hmatch
      refine law_of_consistent hnext ?_ fun hended => by simp [hrunning, hreader] at hended
      intro answered hanswered
      rcases mem_append.mp hanswered with hold | hnew
      · exact hlaw.matched answered hold
      · rw [mem_singleton.mp hnew]
        exact hmatch
  | event hread =>
    exact iff_of_true (law_of_consistent hnext hlaw.matched hlaw.ended)
      fun outcome h => by simp [hread] at h
  | ends hreader hread =>
    obtain ⟨-, hanswered, hdone⟩ := endLoop_spec hc (endedAt_of_reader hc hreader (by simp))
    exact iff_of_true
      (law_of_consistent hnext (hanswered ▸ hlaw.matched) fun _ call hcall _ => hdone call hcall)
      fun outcome h => by simp [hread] at h
  | cancelCreated hreader =>
    constructor
    · exact fun h _ => h.ended rfl
    · exact fun h => law_of_consistent hnext hlaw.matched fun _ => h hreader
  | cancelRunning hreader =>
    obtain ⟨-, hanswered, hdone⟩ := endLoop_spec hc (endedAt_of_reader hc hreader (by simp))
    exact iff_of_true
      (law_of_consistent hnext (hanswered ▸ hlaw.matched) fun _ call hcall _ => hdone call hcall)
      fun hcreated => by simp [hreader] at hcreated

end Steps

/-- The law holds throughout a run exactly when each of its moves satisfies the condition. -/
theorem peer_law_iff (d : Decoders) (moves : List Move) :
    (system d).Always Law {} moves ↔ (system d).Along (Completes d) {} moves := by
  have hstart : Consistent {} ∧ Law {} := by constructor <;> constructor <;> simp [Table.empty]
  have hiff : (system d).Always (fun s => Consistent s ∧ Law s) {} moves ↔
      (system d).Along (Completes d) {} moves :=
    System.always_iff_along (Q := fun _ _ => True)
      (fun s move next h _ hstep =>
        (and_iff_right (consistent_step h.1 hstep)).trans (law_step h.1 h.2 hstep))
      hstart (System.along_true _ _)
  have hconsistent : (system d).Always Consistent {} moves :=
    (System.along_true _ _).always hstart.1 fun s move next h _ hstep => consistent_step h hstep
  rw [← hiff]
  exact ⟨fun h => hconsistent.and h, fun h => h.mono fun _ => And.right⟩

/-- Decoders for which every text is malformed. -/
def malformed : Decoders := ⟨fun _ => some "oops", fun _ => .decodeError⟩

/-- A malformed line ends the read loop; a request that is sent afterwards waits for ever. -/
theorem request_after_malformed_line : ¬ (system malformed).Always Law {}
      [.startReader, .receive (.line [0x6f, 0x6f, 0x70, 0x73, 0x0a]), .request, .sent 1 true] := by
  intro h
  have hlaw := h.at_end (System.run_eq_target rfl)
  have hdone := hlaw.ended rfl ⟨1, none, .awaiting⟩ (by exact mem_singleton_self _) rfl
  exact absurd hdone (by simp)

/-- Whatever is read and requested, a request is completed once and returns with that outcome. -/
theorem completed_once (d : Decoders) (moves : List Move) :
    (system d).Always Consistent {} moves := by
  have hstart : Consistent {} := by constructor <;> simp [Table.empty]
  exact (System.along_true _ _).always hstart fun s move next h _ hstep => consistent_step h hstep

end Newbro.JsonRpc
