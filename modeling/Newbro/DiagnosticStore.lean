import Newbro.Library.Text
import Mathlib.Data.List.MinMax
import Mathlib.Tactic.Common

/-!
# The diagnostic store and a reader that pages through it

The store keeps the newest events in a deque of bounded length and numbers them as they
come. A query keeps the events that match its filters and cuts them to its limit. A
reader asks for one page after another, each past the largest sequence of the page
before.
-/
namespace Newbro.Diagnostics

open Library List

inductive DiagnosticLevel where
  | debug
  | info
  | warning
  | error
  | critical
  deriving DecidableEq, Repr

def levelPriority : DiagnosticLevel → Nat
  | .debug => 10
  | .info => 20
  | .warning => 30
  | .error => 40
  | .critical => 50

def levelAllows (candidate minimum : DiagnosticLevel) : Bool :=
  decide (levelPriority candidate ≥ levelPriority minimum)

structure DiagnosticEvent where
  sequence : Nat := 0
  level : DiagnosticLevel
  eventName : String
  requestId : Option String := none
  taskId : Option String := none
  runId : Option String := none
  executionSessionId : Option String := none
  notificationId : Option String := none
  deriving DecidableEq, Repr

structure Query where
  afterSequence : Option Int := none
  taskId : Option String := none
  runId : Option String := none
  executionSessionId : Option String := none
  notificationId : Option String := none
  requestId : Option String := none
  eventPrefix : Option String := none
  minLevel : Option DiagnosticLevel := none
  limit : Int := 200

/-- An empty id filters nothing, like an absent one. -/
def idMatches (wanted value : Option String) : Bool :=
  wanted.all fun id => id == "" || value == some id

/-- `_matches`. -/
def eventMatches (q : Query) (event : DiagnosticEvent) : Bool :=
  q.afterSequence.all (fun after => decide (after < (event.sequence : Int))) &&
    idMatches q.taskId event.taskId &&
    idMatches q.runId event.runId &&
    idMatches q.executionSessionId event.executionSessionId &&
    idMatches q.notificationId event.notificationId &&
    idMatches q.requestId event.requestId &&
    q.eventPrefix.all (fun start => Text.startsWith event.eventName start) &&
    q.minLevel.all (levelAllows event.level)

/-! ## The store -/

/-- The newest `maxlen` items, which a deque of that length keeps. -/
def retained {α : Type*} (maxlen : Nat) (items : List α) : List α :=
  items.drop (items.length - maxlen)

/-- The retained events in the order of their sequences. -/
structure InMemoryDiagnosticStore where
  maxEvents : Nat
  events : List DiagnosticEvent
  nextSequence : Nat
  bounded : events.length ≤ maxEvents
  increasing : events.Pairwise (·.sequence < ·.sequence)
  numbered : ∀ event ∈ events, event.sequence < nextSequence

namespace InMemoryDiagnosticStore

def empty (maxEvents : Nat) : InMemoryDiagnosticStore where
  maxEvents := maxEvents
  events := []
  nextSequence := 1
  bounded := Nat.zero_le _
  increasing := List.Pairwise.nil
  numbered := fun _ h => by cases h

def assigned (store : InMemoryDiagnosticStore) (event : DiagnosticEvent) : DiagnosticEvent :=
  { event with sequence := store.nextSequence }

theorem pairwise_snoc (store : InMemoryDiagnosticStore) (event : DiagnosticEvent) :
    (store.events ++ [store.assigned event]).Pairwise (·.sequence < ·.sequence) := by
  rw [pairwise_append]
  refine ⟨store.increasing, pairwise_singleton _ _, ?_⟩
  intro earlier hearlier last hlast
  rw [mem_singleton] at hlast
  rw [hlast]
  exact store.numbered earlier hearlier

def append (store : InMemoryDiagnosticStore) (event : DiagnosticEvent) :
    InMemoryDiagnosticStore where
  maxEvents := store.maxEvents
  events := retained store.maxEvents (store.events ++ [store.assigned event])
  nextSequence := store.nextSequence + 1
  bounded := by
    rw [retained, length_drop]
    omega
  increasing := (store.pairwise_snoc event).sublist (drop_sublist _ _)
  numbered := by
    intro kept hkept
    have hmem := mem_of_mem_drop hkept
    rw [mem_append, mem_singleton] at hmem
    rcases hmem with hold | hnew
    · have := store.numbered kept hold
      omega
    · rw [hnew]
      exact Nat.lt_succ_self _

/-- The retained events that match. -/
def matching (store : InMemoryDiagnosticStore) (q : Query) : List DiagnosticEvent :=
  store.events.filter (eventMatches q)

/-- `filtered[-limit:]` is the end of the list. -/
def query (store : InMemoryDiagnosticStore) (q : Query) : List DiagnosticEvent :=
  let filtered := store.matching q
  if q.limit ≤ 0 then [] else filtered.drop (filtered.length - q.limit.toNat)

theorem query_eq (store : InMemoryDiagnosticStore) (q : Query) :
    store.query q = (store.matching q).drop ((store.matching q).length - q.limit.toNat) := by
  rw [query]
  split
  · rename_i hlimit
    rw [Int.toNat_eq_zero.mpr hlimit, Nat.sub_zero, drop_length]
  · rfl

variable {store : InMemoryDiagnosticStore} {q : Query} {event : DiagnosticEvent}

theorem mem_matching :
    event ∈ store.matching q ↔ event ∈ store.events ∧ eventMatches q event = true :=
  mem_filter

theorem matching_increasing (store : InMemoryDiagnosticStore) (q : Query) :
    (store.matching q).Pairwise (·.sequence < ·.sequence) :=
  store.increasing.sublist filter_sublist

/-- What a query leaves out comes before what it returns. -/
theorem matching_split (store : InMemoryDiagnosticStore) (q : Query) :
    ∃ skipped, store.matching q = skipped ++ store.query q := by
  rw [query_eq]
  exact ⟨_, (take_append_drop _ _).symm⟩

theorem mem_matching_of_mem_query (h : event ∈ store.query q) : event ∈ store.matching q := by
  obtain ⟨skipped, hsplit⟩ := store.matching_split q
  rw [hsplit]
  exact mem_append_right _ h

/-- Each matching event is returned, or is older than all that is returned. -/
theorem returned_or_older (h : event ∈ store.matching q) :
    event ∈ store.query q ∨ ∀ later ∈ store.query q, event.sequence < later.sequence := by
  obtain ⟨skipped, hsplit⟩ := store.matching_split q
  have hsorted := store.matching_increasing q
  rw [hsplit, pairwise_append] at hsorted
  rw [hsplit, mem_append] at h
  rcases h with hskipped | hreturned
  · right
    intro later hlater
    exact hsorted.2.2 event hskipped later hlater
  · left
    exact hreturned

end InMemoryDiagnosticStore

/-! ## Paging forward -/

/-- The query past the largest sequence of a page; past an empty page there is nothing to
move on to. -/
def Query.after (q : Query) (page : List DiagnosticEvent) : Query :=
  match (page.map DiagnosticEvent.sequence).max? with
  | none => q
  | some largest => { q with afterSequence := some largest }

@[simp] theorem Query.after_nil (q : Query) : q.after [] = q := rfl

/-- The pages of a reader that queries so often. -/
def pages (store : InMemoryDiagnosticStore) : Nat → Query → List (List DiagnosticEvent)
  | 0, _ => []
  | rounds + 1, q => store.query q :: pages store rounds (q.after (store.query q))

/-- From some number of queries on, the pages together are the matching retained events,
each once and in order. -/
def Complete (store : InMemoryDiagnosticStore) (q : Query) : Prop :=
  ∃ enough, ∀ rounds, enough ≤ rounds → (pages store rounds q).flatten = store.matching q

variable {q : Query}

variable {event : DiagnosticEvent}

/-- The sequence apart, the next query has the filters of the one before. -/
theorem matches_of_after {largest : Int}
    (hafter : ∀ after, q.afterSequence = some after → after ≤ largest)
    (h : eventMatches { q with afterSequence := some largest } event = true) :
    largest < event.sequence ∧ eventMatches q event = true := by
  simp only [eventMatches, Bool.and_eq_true, Option.all_some, decide_eq_true_eq] at h ⊢
  obtain ⟨⟨⟨⟨⟨⟨⟨hpast, htask⟩, hrun⟩, hsession⟩, hnotification⟩, hrequest⟩, hprefix⟩, hlevel⟩ := h
  refine ⟨hpast, ⟨⟨⟨⟨⟨⟨?_, htask⟩, hrun⟩, hsession⟩, hnotification⟩, hrequest⟩, hprefix⟩, hlevel⟩
  rw [Option.all_eq_true]
  intro after hsome
  have := hafter after hsome
  exact decide_eq_true (by omega)

theorem lt_of_matches {after : Int}
    (h : eventMatches q event = true) (hafter : q.afterSequence = some after) :
    after < event.sequence := by
  simp only [eventMatches, hafter, Bool.and_eq_true, Option.all_some, decide_eq_true_eq] at h
  exact h.1.1.1.1.1.1.1

/-- A page ends with the newest matching event, so nothing matches past it. -/
theorem query_after (store : InMemoryDiagnosticStore) (q : Query) :
    store.query (q.after (store.query q)) = [] := by
  cases hmax : ((store.query q).map DiagnosticEvent.sequence).max? with
  | none =>
    have hempty : store.query q = [] := map_eq_nil_iff.mp (List.max?_eq_none_iff.mp hmax)
    rw [hempty, Query.after_nil, hempty]
  | some largest =>
    obtain ⟨hmem, hle⟩ := (List.max?_eq_some_iff).mp hmax
    obtain ⟨newest, hnewest, hsequence⟩ := mem_map.mp hmem
    have hafter : q.after (store.query q) = { q with afterSequence := some (largest : Int) } := by
      rw [Query.after, hmax]
    rw [eq_nil_iff_forall_not_mem, hafter]
    intro event hevent
    have hfound := InMemoryDiagnosticStore.mem_matching.mp
      (InMemoryDiagnosticStore.mem_matching_of_mem_query hevent)
    have hpage := InMemoryDiagnosticStore.mem_matching.mp
      (InMemoryDiagnosticStore.mem_matching_of_mem_query hnewest)
    have hbelow : ∀ after, q.afterSequence = some after → after ≤ (largest : Int) := by
      intro after hsome
      have := lt_of_matches hpage.2 hsome
      omega
    obtain ⟨hpast, hmatches⟩ := matches_of_after hbelow hfound.2
    have hmatching : event ∈ store.matching q :=
      InMemoryDiagnosticStore.mem_matching.mpr ⟨hfound.1, hmatches⟩
    rcases InMemoryDiagnosticStore.returned_or_older hmatching with hreturned | holder
    · have := hle event.sequence (mem_map_of_mem hreturned)
      omega
    · have := holder newest hnewest
      omega

variable {store : InMemoryDiagnosticStore}

/-- After an empty page all pages are empty. -/
theorem flatten_pages_of_empty
    (h : store.query q = []) (rounds : Nat) : (pages store rounds q).flatten = [] := by
  induction rounds with
  | zero => rfl
  | succ rounds ih => rw [pages, h, Query.after_nil, flatten_cons, ih, append_nil]

/-- However often the reader queries, it sees the first page only. -/
theorem flatten_pages_succ (store : InMemoryDiagnosticStore) (q : Query) (rounds : Nat) :
    (pages store (rounds + 1) q).flatten = store.query q := by
  rw [pages, flatten_cons, flatten_pages_of_empty (query_after store q), append_nil]

theorem complete_iff_query :
    Complete store q ↔ store.query q = store.matching q := by
  constructor
  · rintro ⟨enough, h⟩
    rw [← h (enough + 1) (Nat.le_succ _), flatten_pages_succ]
  · intro h
    refine ⟨1, fun rounds hrounds => ?_⟩
    obtain ⟨rest, rfl⟩ := Nat.exists_eq_add_of_le' hrounds
    rw [flatten_pages_succ, h]

/-- The reader gets all there is exactly if it fits one page. -/
theorem paging_complete_iff (store : InMemoryDiagnosticStore) (q : Query) :
    Complete store q ↔ (store.matching q).length ≤ q.limit.toNat := by
  rw [complete_iff_query, InMemoryDiagnosticStore.query_eq]
  constructor
  · intro h
    have hlength := congrArg List.length h
    rw [length_drop] at hlength
    by_cases hempty : (store.matching q).length = 0
    · omega
    · omega
  · intro h
    rw [Nat.sub_eq_zero_of_le h, drop_zero]

def commandReceived : DiagnosticEvent := { level := .info, eventName := "comm.command.received" }

def replyGenerated : DiagnosticEvent := { level := .info, eventName := "comm.reply.generated" }

/-- Of two events, a reader of one event a page never sees the first. -/
theorem first_event_is_skipped :
    ¬ ∀ (store : InMemoryDiagnosticStore) (q : Query), 0 < q.limit → Complete store q := by
  intro hall
  have hcomplete := hall (((InMemoryDiagnosticStore.empty 500).append commandReceived).append
    replyGenerated) { limit := 1 } (by decide)
  exact absurd (complete_iff_query.mp hcomplete) (by decide)

end Newbro.Diagnostics
