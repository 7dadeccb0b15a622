import Mathlib
import Newbro.Blackboard
import Newbro.Library.Transition

/-!
# Notifications

Candidates, the delivery plan and its execution: `notification/candidate_builder.py`,
`notification/policy.py` and `notification/manager.py`, with `_suppress_pending_notifications`
of `runtime/session.py`, the other writer of candidates.
-/
namespace Newbro.Notifications

open Library Protocol

inductive CandidateType where
  | completed | blocked | needsInput
  deriving Repr, DecidableEq

def CandidateType.value : CandidateType → String
  | completed => "completed"
  | blocked => "blocked"
  | needsInput => "needs_input"

inductive DeliveryStatus where
  | pending | emitted | suppressed
  deriving Repr, DecidableEq

structure Candidate where
  candidateId : String
  taskId : String
  candidateType : CandidateType
  summaryShort : String
  sourceRunId : Option String := none
  createdAt : String
  deliveryStatus : DeliveryStatus := .pending
  mergeKey : String
  requiresImmediateDelivery : Bool := false
  deriving Repr, DecidableEq

/-- `candidate.model_copy(update={"delivery_status": status})` -/
def Candidate.setStatus (status : DeliveryStatus) (candidate : Candidate) : Candidate :=
  { candidate with deliveryStatus := status }

abbrev Candidates := Table Candidate.candidateId

def candidateIdOf (taskId : String) (candidateType : CandidateType) (sourceRunId : Option String) :
    String :=
  "notif-" ++ candidateType.value ++ "-" ++ taskId ++ "-" ++ Text.orElse sourceRunId "summary"

/-! ## Creation -/

def suppressesCommunicationNotifications (task : Task) : Bool :=
  (match task.metadata.lookup "suppress_communication_notifications" with
    | some (.bool true) => true
    | _ => false) ||
  match task.metadata.str? "source_kind" with
    | some kind => kind = "bro_detail_text" || kind = "bro_detail_ptt"
    | none => false

variable (existing : Candidates)

variable (candidate : Candidate)

/-- `None if _already_exists(candidate, existing) else candidate` -/
def unlessThere : Option Candidate :=
  if existing.contains candidate.candidateId = true then none else some candidate

/-- `a or b or default`, for two optional texts. -/
def firstText (a b : Option String) (default : String) : String :=
  Text.orElse a (Text.orElse b default)

def buildFromRun (task : Task) (run : ExecutionRun) (summary : Option TaskSummary)
    (existing : Candidates) (now : String) : Option Candidate :=
  if suppressesCommunicationNotifications task = true then none
  else if task.status = .cancelled then none
  else if run.status = .completed then
    unlessThere existing
      { candidateId := candidateIdOf task.taskId .completed (some run.runId)
        taskId := task.taskId
        candidateType := .completed
        summaryShort := firstText (summary.bind (·.conversationalSummary)) run.outputSummary
          (task.title ++ " is done.")
        sourceRunId := some run.runId
        createdAt := now
        mergeKey := "completed_digest" }
  else if run.status = .blocked then
    unlessThere existing
      { candidateId := candidateIdOf task.taskId .blocked (some run.runId)
        taskId := task.taskId
        candidateType := .blocked
        summaryShort := firstText (summary.bind (·.conversationalSummary)) run.blockReason
          (task.title ++ " is blocked.")
        sourceRunId := some run.runId
        createdAt := now
        mergeKey := "blocked:" ++ task.taskId
        requiresImmediateDelivery := true }
  else none

def buildFromSummary (task : Task) (summary : Option TaskSummary) (existing : Candidates)
    (now : String) : Option Candidate :=
  match summary with
  | none => none
  | some summary =>
    if suppressesCommunicationNotifications task = true ∨ summary.needsUserInput = false then none
    else if existing.entries.any fun candidate => candidate.taskId = task.taskId &&
        candidate.candidateType = .blocked && candidate.deliveryStatus ≠ .suppressed then none
    else
      unlessThere existing
        { candidateId := candidateIdOf task.taskId .needsInput none
          taskId := task.taskId
          candidateType := .needsInput
          summaryShort := Text.orElse summary.conversationalSummary
            (task.title ++ " needs your input.")
          createdAt := now
          mergeKey := "needs_input:" ++ task.taskId
          requiresImmediateDelivery := true }

/-- The writes to the blackboard that may bring a candidate. -/
inductive WriteEvent where
  | run (runId : String)
  | summary (taskId : String)

/-- The candidate that `handle_blackboard_write` stores. -/
def candidateOf (board : Blackboard) (event : WriteEvent) (existing : Candidates) (now : String) :
    Option Candidate :=
  match event with
  | .run runId =>
    match board.getRun runId with
    | none => none
    | some run =>
      if run.status = .completed ∨ run.status = .blocked then
        (board.getTask run.taskId).bind fun task =>
          buildFromRun task run (board.getSummary task.taskId) existing now
      else none
  | .summary taskId =>
    (board.getTask taskId).bind fun task =>
      buildFromSummary task (board.getSummary taskId) existing now

def handleBlackboardWrite (board : Blackboard) (event : WriteEvent) (now : String)
    (candidates : Candidates) : Candidates :=
  match candidateOf board event candidates now with
  | none => candidates
  | some candidate => candidates.put candidate

/-! ## The plan -/

/-- The merge window, and `datetime.fromisoformat`, both in microseconds. -/
structure Policy where
  mergeWindow : Int
  fromIsoFormat : String → Int

variable (policy : Policy)

def Policy.dueAt (candidate : Candidate) : Int :=
  policy.fromIsoFormat candidate.createdAt + policy.mergeWindow

/-- `grouped[merge_key]` for each key in order, each group by its creation times. -/
def groupsOf (keys : List String) (due : List Candidate) : List (List Candidate) :=
  keys.map fun mergeKey => (due.filter fun c => c.mergeKey = mergeKey).insertionSort fun c d =>
    c.createdAt ≤ d.createdAt

structure Plan where
  groups : List (List Candidate) := []
  nextDue : Option Int := none

def Policy.plan (candidates : List Candidate)
    (assistantBusy hasPendingUserMessages : Bool) (now : Int) : Plan :=
  let pending := candidates.filter fun c => c.deliveryStatus = .pending
  if pending = [] then {}
  else if (assistantBusy || hasPendingUserMessages) = true then {}
  else
    let completedPending := pending.filter fun c => !c.requiresImmediateDelivery
    let due := completedPending.filter fun c => policy.dueAt c ≤ now
    let waits := (completedPending.filter fun c => now < policy.dueAt c).map fun c =>
      max 0 (policy.dueAt c - now)
    let keys := (due.map (·.mergeKey)).dedup.insertionSort fun a b => a ≤ b
    { groups := ((pending.filter (·.requiresImmediateDelivery)).map fun c => [c]) ++
        groupsOf keys due
      nextDue := waits.foldl (fun next seconds => some (next.elim seconds (min · seconds))) none }

/-! ## Delivery -/

/-- Where `process_pending` is: at rest, waiting for the communication brain with a group
(and the groups after it), or between two groups. -/
inductive Delivery where
  | idle
  | handed (group : List Candidate) (rest : List (List Candidate))
  | between (rest : List (List Candidate))

/-- The candidates and the delivery under way, with two histories: the candidates emitted
so far, and those suppressed while their group was not with the communication brain. -/
structure State where
  candidates : Candidates
  delivery : Delivery
  emitted : List String
  early : List String

/-- Enter the loop over the groups, or leave it. -/
def handOver : List (List Candidate) → Delivery
  | [] => .idle
  | group :: rest => .handed group rest

/-- What the task commands and the notification loop do. A write is handled with the board
and the time of that moment, both arbitrary. -/
inductive Label where
  | write (board : Blackboard) (event : WriteEvent) (now : String)
  | processPending (assistantBusy hasPendingUserMessages : Bool) (now : Int)
  /-- The communication brain returns; the entry is in the history and the group is written. -/
  | reply
  | next
  /-- The loop ends by an exception or is cancelled. -/
  | abandon
  | cancel (taskId : String)

def suppresses (taskId : String) (candidate : Candidate) : Bool :=
  candidate.taskId = taskId && candidate.deliveryStatus = .pending

def suppressPendingNotifications (taskId : String) (candidates : Candidates) : Candidates :=
  (candidates.entries.filter (suppresses taskId)).foldl
    (fun t c => t.put (c.setStatus .suppressed)) candidates

/-- The writes of `_emit_group`: the planned copies, as emitted. -/
def writeEmitted (group : List Candidate) (candidates : Candidates) : Candidates :=
  group.foldl (fun t c => t.put (c.setStatus .emitted)) candidates

variable (s : State)

def State.handedIds : List String :=
  match s.delivery with
  | .handed group _ => group.map (·.candidateId)
  | _ => []

/-- The groups that wait to be handed over. -/
def State.waiting : List (List Candidate) :=
  match s.delivery with
  | .idle => []
  | .handed _ rest => rest
  | .between rest => rest

def step : Label → Option State
  | .write board event now =>
    some { s with candidates := handleBlackboardWrite board event now s.candidates }
  | .processPending assistantBusy hasPendingUserMessages now =>
    match s.delivery with
    | .idle =>
      some { s with
        delivery := handOver
          (policy.plan s.candidates.entries assistantBusy hasPendingUserMessages now).groups }
    | _ => none
  | .reply =>
    match s.delivery with
    | .handed group rest =>
      some { s with
        candidates := writeEmitted group s.candidates
        delivery := .between rest
        emitted := s.emitted ++ group.map (·.candidateId) }
    | _ => none
  | .next =>
    match s.delivery with
    | .between rest => some { s with delivery := handOver rest }
    | _ => none
  | .abandon => some { s with delivery := .idle }
  | .cancel taskId =>
    let withdrawn := (s.candidates.entries.filter (suppresses taskId)).map (·.candidateId)
    some { s with
      candidates := suppressPendingNotifications taskId s.candidates
      early := s.early ++ withdrawn.filter (· ∉ s.handedIds) }

/-- Runs of a session without candidates at first. -/
def machine : System State Label where
  initial s := s = ⟨Table.empty, .idle, [], []⟩
  step := step policy

end Newbro.Notifications
