import Newbro.Library.Transition
import Newbro.ThreadProjection
import Mathlib.Data.List.Pairwise

/-!
# Turns that learn their identity late

An outbound turn is kept before its native turn is known. When its node names the native turn
at last, the turn of that identity may be kept already, as a native turn of its own: the
outbound turn takes the identity over, and the two are never merged.
-/
namespace Newbro.OutboundTurns

open Library Protocol

/-- Two turns are apart: neither their ids nor their identities agree. -/
def Apart (a b : TimelineTurn) : Prop :=
  a.turnId ≠ b.turnId ∧ ∀ i, timelineIdentity a = some i → timelineIdentity b ≠ some i

/-- No two turns share an id or an identity. -/
def IdentitiesKept (turns : List TimelineTurn) : Prop := turns.Pairwise Apart

/-- The identity of a kept turn once its missing parts are filled in from another turn. -/
def completedIdentity (kept turn : TimelineTurn) : Option (String × String × String) :=
  timelineIdentity { kept with
    executorThreadId := orText kept.executorThreadId turn.executorThreadId
    executorTurnId := orText kept.executorTurnId turn.executorTurnId }

/-- The turn completes the identity of the kept turn that it is merged into, and that
identity is the one of another turn kept already. -/
def learnsKeptIdentity (turns : List TimelineTurn) (turn : TimelineTurn) : Bool :=
  (turns.find? (sameTurn turn)).any fun kept =>
    (timelineIdentity kept).isNone && turns.any fun other =>
      (timelineIdentity other).isSome && timelineIdentity other = completedIdentity kept turn

theorem apart_comm {a b : TimelineTurn} (h : Apart a b) : Apart b a :=
  ⟨h.1.symm, fun i hb ha => h.2 i ha hb⟩

variable (lower : String → String)

theorem timelineIdentity_merge (kept turn : TimelineTurn) :
    timelineIdentity (mergeTimelineTurn lower kept turn) = completedIdentity kept turn := rfl

variable {turn : TimelineTurn}

variable {before after : List TimelineTurn}

theorem identitiesKept_middle :
    IdentitiesKept (before ++ turn :: after) ↔
      IdentitiesKept (before ++ after) ∧ ∀ other ∈ before ++ after, Apart turn other := by
  unfold IdentitiesKept
  rw [List.pairwise_middle fun {_ _} => apart_comm, List.pairwise_cons, and_comm]

/-- A turn that is the same as none of the others is apart from them. -/
theorem apart_of_not_sameTurn {other : TimelineTurn} (h : sameTurn turn other = false) :
    Apart other turn := by
  simp only [sameTurn, Bool.or_eq_false_iff, Bool.and_eq_false_iff, decide_eq_false_iff_not] at h
  refine ⟨h.1, fun i hother hturn => ?_⟩
  obtain ⟨e, t, x⟩ := i
  obtain ⟨he, ht, hx, -, -⟩ := timelineIdentity_eq_some_iff.mp hother
  obtain ⟨he', ht', hx', -, -⟩ := timelineIdentity_eq_some_iff.mp hturn
  rcases h.2 with ((h | h) | h) | h
  · exact h (he.trans he'.symm)
  · exact h (ht.trans ht'.symm)
  · exact h (hx.trans hx'.symm)
  · rw [hx'] at h
    exact absurd h (by simp)

variable {kept : TimelineTurn}

/-- A merge keeps the turns apart exactly if it completes no identity that is kept already. -/
theorem apart_merge_iff
    {others : List TimelineTurn} (h : ∀ other ∈ others, Apart kept other) :
    (∀ other ∈ others, Apart (mergeTimelineTurn lower kept turn) other) ↔
      (timelineIdentity kept = none → ∀ other ∈ others, ∀ i,
        completedIdentity kept turn = some i → timelineIdentity other ≠ some i) := by
  constructor
  · intro hmerged _ other hmem i hi
    exact (hmerged other hmem).2 i hi
  · intro hlearns other hmem
    refine ⟨(h other hmem).1, fun i hi => ?_⟩
    cases hkept : timelineIdentity kept with
    | none => exact hlearns hkept other hmem i hi
    | some j =>
      have hj := timelineIdentity_merge_of_some lower turn hkept
      obtain rfl : j = i := Option.some.inj (hj.symm.trans hi)
      exact (h other hmem).2 j hkept

theorem learnsKeptIdentity_eq_false_iff
    (hbefore : ∀ other ∈ before, sameTurn turn other = false)
    (hsame : sameTurn turn kept = true) :
    learnsKeptIdentity (before ++ kept :: after) turn = false ↔
      (timelineIdentity kept = none → ∀ other ∈ before ++ after, ∀ i,
        completedIdentity kept turn = some i → timelineIdentity other ≠ some i) := by
  have hfind : (before ++ kept :: after).find? (sameTurn turn) = some kept :=
    List.find?_eq_some_iff_append.mpr
      ⟨hsame, before, after, rfl, fun other hmem => by simp [hbefore other hmem]⟩
  rw [learnsKeptIdentity, hfind, Option.any_some, Bool.and_eq_false_imp]
  simp only [Option.isNone_iff_eq_none, List.any_eq_false, Bool.and_eq_true, decide_eq_true_eq,
    not_and]
  constructor
  · intro h hkept other hmem i hi hother
    have hmem' : other ∈ before ++ kept :: after := by
      rcases List.mem_append.mp hmem with hmem | hmem
      · exact List.mem_append_left _ hmem
      · exact List.mem_append_right _ (List.mem_cons_of_mem _ hmem)
    exact h hkept other hmem' (by rw [hother]; rfl) (hother.trans hi.symm)
  · intro h hkept other hmem hsome heq
    obtain ⟨i, hi⟩ := Option.isSome_iff_exists.mp hsome
    have hmem' : other ∈ before ++ after := by
      rcases List.mem_append.mp hmem with hmem | hmem
      · exact List.mem_append_left _ hmem
      · rcases List.mem_cons.mp hmem with rfl | hmem
        · rw [hkept] at hi
          exact absurd hi (by simp)
        · exact List.mem_append_right _ hmem
    exact h hkept other hmem' i (heq.symm.trans hi) hi

/-- One turn: the identities stay apart exactly if none that is kept is learnt again. -/
theorem identitiesKept_upsertTurn_iff {turns : List TimelineTurn}
    (turn : TimelineTurn) (h : IdentitiesKept turns) :
    IdentitiesKept (upsertTurn lower turn turns) ↔ learnsKeptIdentity turns turn = false := by
  rcases upsertTurn_cases lower turn turns with
    ⟨hnone, heq⟩ | ⟨before, kept, after, rfl, hbefore, hsame, heq⟩
  · have hfind : turns.find? (sameTurn turn) = none :=
      List.find?_eq_none.mpr fun other hmem => by simp [hnone other hmem]
    have hkept : IdentitiesKept (turns ++ [turn]) := by
      refine List.pairwise_append.mpr ⟨h, List.pairwise_singleton _ _, fun other hmem new hnew => ?_⟩
      rw [List.mem_singleton.mp hnew]
      exact apart_of_not_sameTurn (hnone other hmem)
    rw [heq]
    exact ⟨fun _ => by simp [learnsKeptIdentity, hfind], fun _ => hkept⟩
  · obtain ⟨hrest, hkept⟩ := identitiesKept_middle.mp h
    rw [heq, identitiesKept_middle, apart_merge_iff lower hkept,
      learnsKeptIdentity_eq_false_iff hbefore hsame]
    exact and_iff_right hrest

/-! ## Sequences of turns -/

/-- The turns that are put into a projection, one call after the other. -/
def upserts : System ThreadProjection TimelineTurn where
  initial s := s = ThreadProjection.empty
  step s turn := some (s.upsertBroThreadExecutorTurn lower turn)

/-- The turn learns no identity that a turn of the thread has. -/
def LearnsNewIdentity (threadId : String) (s : ThreadProjection) (turn : TimelineTurn) : Prop :=
  turn.threadId = threadId → learnsKeptIdentity (s.turnsOf threadId) turn = false

theorem identitiesKept_upsert_iff (threadId : String)
    {s : ThreadProjection} (turn : TimelineTurn) (h : IdentitiesKept (s.turnsOf threadId)) :
    IdentitiesKept ((s.upsertBroThreadExecutorTurn lower turn).turnsOf threadId) ↔
      LearnsNewIdentity threadId s turn := by
  by_cases hthread : turn.threadId = threadId
  · subst hthread
    rw [ThreadProjection.turnsOf_upsert_self, identitiesKept_upsertTurn_iff lower turn h]
    exact ⟨fun hnew _ => hnew, fun hnew => hnew rfl⟩
  · rw [ThreadProjection.turnsOf_upsert_of_ne lower s hthread]
    exact ⟨fun _ h => absurd h hthread, fun _ => h⟩

/-- The turns of a thread stay apart throughout a sequence of calls exactly if no call teaches
a kept turn the identity of another one. -/
theorem identities_kept_iff (lower : String → String) (threadId : String)
    (calls : List TimelineTurn) :
    (upserts lower).Always (fun s => IdentitiesKept (s.turnsOf threadId))
        ThreadProjection.empty calls ↔
      (upserts lower).Along (LearnsNewIdentity threadId) ThreadProjection.empty calls := by
  refine System.always_iff_along (Q := fun _ _ => True) ?_ ?_ (System.along_true _ _)
  · intro s turn s' h _ hs
    obtain rfl := Option.some.inj hs
    exact identitiesKept_upsert_iff lower threadId turn h
  · exact List.Pairwise.nil

/-! ## An outbound turn and its native turn -/

/-- A turn without texts, known by its ids. -/
def bareTurn (turnId : String) (executorTurnId : Option String) : TimelineTurn where
  turnId := turnId
  threadId := "thread-1"
  personaId := "bro-1"
  executorId := "codex"
  clientRequestId := none
  executorThreadId := some "native-1"
  executorTurnId := executorTurnId
  inputModality := .text
  user := none
  assistant := none
  status := .running
  metadata := Table.empty

/-- The outbound turn is kept, then its native turn, and then the node names the one for the
other. -/
def lateIdentity : List TimelineTurn :=
  [bareTurn "thread-1:outbound:out-1" none, bareTurn "thread-1:codex:turn-1" (some "turn-1"),
    bareTurn "thread-1:outbound:out-1" (some "turn-1")]

theorem late_identity_shared :
    ¬ ∀ (lower : String → String) (threadId : String) (calls : List TimelineTurn),
      (upserts lower).Always (fun s => IdentitiesKept (s.turnsOf threadId))
        ThreadProjection.empty calls := by
  intro h
  have hrun : (upserts id).run .empty lateIdentity =
      some ((upserts id).target .empty lateIdentity) := rfl
  have hkept := (h id "thread-1" lateIdentity).at_end hrun
  obtain ⟨first, second, hturns, hfirst, hsecond⟩ :
      ∃ first second, (((upserts id).target .empty lateIdentity).turnsOf "thread-1") =
        [first, second] ∧ timelineIdentity first = some ("codex", "native-1", "turn-1") ∧
          timelineIdentity second = some ("codex", "native-1", "turn-1") :=
    ⟨_, _, rfl, by decide, by decide⟩
  have hpair : IdentitiesKept [first, second] := hturns ▸ hkept
  exact (List.pairwise_pair.mp hpair).2 _ hfirst hsecond

end Newbro.OutboundTurns
