import Newbro.ThreadViews

/-!
# Merging the observations of a timeline turn

`mergeTimelineTurn` joins a stored turn with what is seen of it later: streaming partials,
replays, pages of its history. A settled turn absorbs them all. The same observation merged
twice is the same as merged once, except where a turn that reports its completion without a
finished answer hears that it failed: its status only moves from pending or running, so the
failure is passed over, and the partial answer sets the turn running again.
-/
namespace Newbro.TimelineMerges

open Library Protocol BlockedRequests OutboundTurns

/-- A final answer is there and not a partial. -/
def hasFinalAnswer (lower : String → String) (turn : TimelineTurn) : Bool :=
  turn.assistant.isSome && !isStreaming lower turn.assistant

/-- Failed, cancelled, or completed with a final answer. -/
def isSettled (lower : String → String) (turn : TimelineTurn) : Bool :=
  turn.status = .failed || turn.status = .cancelled ||
    (turn.status = .completed && hasFinalAnswer lower turn)

/-- The answer that a merge leaves. -/
def mergeAnswer (lower : String → String) (existing incoming : TimelineTurn) :
    Option TimelineMessage :=
  if isSettled lower existing && isStreaming lower incoming.assistant then existing.assistant
  else incoming.assistant.or existing.assistant

section Parts

variable {lower : String → String} {existing incoming : TimelineTurn}

theorem isSettled_eq : isSettled lower existing =
    (existing.status = .failed || existing.status = .cancelled ||
      (existing.status = .completed && existing.assistant.isSome &&
        !isStreaming lower existing.assistant)) := by
  simp only [isSettled, hasFinalAnswer, Bool.and_assoc]

@[simp] theorem assistant_merge : (mergeTimelineTurn lower existing incoming).assistant =
      mergeAnswer lower existing incoming := by
  rw [mergeAnswer, isSettled_eq]
  rfl

@[simp] theorem metadata_merge : (mergeTimelineTurn lower existing incoming).metadata =
      mergeMetadata existing.metadata incoming.metadata := rfl

theorem status_merge : (mergeTimelineTurn lower existing incoming).status =
      mergeStatus lower existing incoming (mergeAnswer lower existing incoming)
        (isSettled lower existing) := by
  rw [mergeAnswer, isSettled_eq]
  rfl

end Parts

/-! ## A settled turn absorbs what comes later -/

/-- What a settled turn keeps: its status, and an answer that only a final one replaces. -/
structure StaysSettled (lower : String → String) (turn later : TimelineTurn) : Prop where
  status : later.status = turn.status
  settled : isSettled lower later = true
  final : hasFinalAnswer lower turn = true → hasFinalAnswer lower later = true
  partials : isStreaming lower later.assistant = true → later.assistant = turn.assistant

namespace StaysSettled

variable {lower : String → String} {turn later last : TimelineTurn}

theorem refl (h : isSettled lower turn = true) : StaysSettled lower turn turn :=
  ⟨rfl, h, id, fun _ => rfl⟩

theorem trans (h : StaysSettled lower turn later) (h' : StaysSettled lower later last) :
    StaysSettled lower turn last where
  status := h'.status.trans h.status
  settled := h'.settled
  final := fun hfinal => h'.final (h.final hfinal)
  partials := by
    intro hlast
    have heq : last.assistant = later.assistant := h'.partials hlast
    rw [heq] at hlast ⊢
    exact h.partials hlast

end StaysSettled

section Settled

variable {lower : String → String} {turn : TimelineTurn}

section

variable (h : isSettled lower turn = true)
include h

theorem status_of_isSettled : turn.status = .failed ∨ turn.status = .cancelled ∨
      (turn.status = .completed ∧ hasFinalAnswer lower turn = true) := by
  simpa [isSettled, or_assoc] using h

/-- The status of a settled turn is past pending and running. -/
theorem mergeStatus_of_isSettled (incoming : TimelineTurn) (assistant : Option TimelineMessage) :
    mergeStatus lower turn incoming assistant true = turn.status := by
  have hpending : ¬(turn.status = .pending ∨ turn.status = .running) := by
    rcases status_of_isSettled h with hs | hs | ⟨hs, -⟩ <;> simp [hs]
  simp [mergeStatus, hpending]

theorem hasFinalAnswer_merge (hfinal : hasFinalAnswer lower turn = true) (incoming : TimelineTurn) :
    hasFinalAnswer lower (mergeTimelineTurn lower turn incoming) = true := by
  have hanswer := hfinal
  simp only [hasFinalAnswer, Bool.and_eq_true, Bool.not_eq_true'] at hfinal ⊢
  simp only [assistant_merge, mergeAnswer, h, Bool.true_and]
  by_cases hs : isStreaming lower incoming.assistant = true
  · simpa [hs] using hfinal
  · cases hi : incoming.assistant with
    | none => simpa [isStreaming] using hfinal
    | some answer =>
      rw [hi] at hs
      simp [hs]

/-- One observation. -/
theorem staysSettled_merge (incoming : TimelineTurn) :
    StaysSettled lower turn (mergeTimelineTurn lower turn incoming) := by
  have hstatus : (mergeTimelineTurn lower turn incoming).status = turn.status := by
    rw [status_merge, h]
    exact mergeStatus_of_isSettled h incoming _
  refine ⟨hstatus, ?_, fun hfinal => hasFinalAnswer_merge h hfinal incoming, ?_⟩
  · rcases status_of_isSettled h with hs | hs | ⟨hs, hfinal⟩
    · simp [isSettled, hstatus, hs]
    · simp [isSettled, hstatus, hs]
    · simp [isSettled, hstatus, hs, hasFinalAnswer_merge h hfinal incoming]
  · intro hstreaming
    simp only [assistant_merge, mergeAnswer, h, Bool.true_and] at hstreaming ⊢
    split_ifs at hstreaming ⊢ with hs
    · rfl
    · cases hi : incoming.assistant with
      | none => simp
      | some answer =>
        rw [hi] at hs hstreaming
        exact absurd hstreaming hs

/-- By induction on the observations: each is merged into a turn that has stayed settled. -/
theorem staysSettled_foldl (seen : List TimelineTurn) :
    StaysSettled lower turn (seen.foldl (mergeTimelineTurn lower) turn) := by
  induction seen generalizing turn with
  | nil => exact .refl h
  | cons incoming seen ih =>
    have hstep := staysSettled_merge h incoming
    exact hstep.trans (ih hstep.settled)

end

end Settled

/-! ## The same observation twice -/

theorem orText_self (a : Option String) : orText a a = a := by
  cases a with
  | none => rfl
  | some text => by_cases h : text = "" <;> simp [orText, Option.filter, h]

theorem orText_orText_right (a b : Option String) : orText (orText a b) b = orText a b := by
  cases a with
  | none => exact orText_self b
  | some text =>
    by_cases h : text = ""
    · subst h
      exact orText_self b
    · simp [orText, Option.filter, h]

theorem orText_orText_left (a b : Option String) : orText a (orText a b) = orText a b := by
  cases a with
  | none => rfl
  | some text => by_cases h : text = "" <;> simp [orText, Option.filter, h]

theorem or_or_self {α : Type*} (a b : Option α) : a.or (a.or b) = a.or b := by
  cases a <;> rfl

theorem mergeTask_mergeTask (existing incoming : Option TimelineTask) :
    mergeTask (mergeTask existing incoming) incoming = mergeTask existing incoming := by
  cases existing with
  | none =>
    cases incoming with
    | none => rfl
    | some task => simp [mergeTask, orText_self]
  | some old =>
    cases incoming with
    | none => rfl
    | some task => simp [mergeTask, orText_orText_right, orText_orText_left, or_or_self]

/-- Setting what is there changes nothing. -/
theorem set_of_lookup {metadata : Metadata} {key : String} {value : Value}
    (h : Dict.lookup metadata key = some value) : Dict.set metadata key value = metadata := by
  apply Table.put_of_get?
  obtain ⟨entry, hentry, hvalue⟩ := Option.map_eq_some_iff.mp h
  have hkey : entry.1 = key := Table.key_of_get? hentry
  rw [hentry, ← hkey, ← hvalue]

/-- Entries that are there already, the merge leaves as they are. -/
theorem mergeMetadata_eq_self {metadata incoming : Metadata}
    (h : ∀ entry ∈ incoming.entries, (Dict.lookup metadata entry.1).isSome = true ∧
      (entry.2 ≠ .null → Dict.lookup metadata entry.1 = some entry.2)) :
    mergeMetadata metadata incoming = metadata := by
  rw [mergeMetadata]
  generalize incoming.entries = entries at h
  induction entries with
  | nil => rfl
  | cons entry entries ih =>
    obtain ⟨hsome, hvalue⟩ := h entry (by simp)
    have hrest := ih fun other hother => h other (List.mem_cons_of_mem entry hother)
    obtain ⟨old, hold⟩ := Option.isSome_iff_exists.mp hsome
    obtain ⟨name, value⟩ := entry
    have hset : value ≠ .null → Dict.set metadata name value = metadata :=
      fun hnull => set_of_lookup (hvalue hnull)
    rw [List.foldl_cons]
    cases value with
    | null => simpa only [hold] using hrest
    | bool b => simpa only [hset (by simp)] using hrest
    | int i => simpa only [hset (by simp)] using hrest
    | str text => simpa only [hset (by simp)] using hrest
    | list items => simpa only [hset (by simp)] using hrest
    | dict fields => simpa only [hset (by simp)] using hrest

theorem mergeMetadata_mergeMetadata (existing incoming : Metadata) :
    mergeMetadata (mergeMetadata existing incoming) incoming = mergeMetadata existing incoming := by
  apply mergeMetadata_eq_self
  rintro ⟨name, value⟩ hentry
  have hlookup : Dict.lookup incoming name = some value := by
    rw [Dict.lookup, Table.get?_of_mem hentry]
    rfl
  rw [lookup_mergeMetadata, hlookup]
  cases value with
  | null => cases Dict.lookup existing name <;> simp
  | bool | int | str | list | dict => simp

theorem markUser_markUser (user : Option TimelineMessage) (metadata : Metadata) :
    markUser (markUser user metadata) metadata = markUser user metadata := by
  cases user with
  | none => rfl
  | some message =>
    simp only [markUser, Option.map_some, Option.some.injEq, TimelineMessage.mk.injEq, true_and]
    refine ⟨?_, trivial⟩
    split <;> split <;> simp [set_of_lookup, Dict.lookup_set]

attribute [ext] TimelineTurn

section Twice

variable {lower : String → String} {existing incoming : TimelineTurn}

/-- A merge that finds what it would leave leaves the turn alone. -/
theorem mergeTimelineTurn_eq_self {turn : TimelineTurn}
    (huser : markUser (turn.user.or incoming.user)
      (mergeMetadata turn.metadata incoming.metadata) = turn.user)
    (hassistant : (mergeTimelineTurn lower turn incoming).assistant = turn.assistant)
    (hstatus : (mergeTimelineTurn lower turn incoming).status = turn.status)
    (hclient : orText turn.clientRequestId incoming.clientRequestId = turn.clientRequestId)
    (hthread : orText turn.executorThreadId incoming.executorThreadId = turn.executorThreadId)
    (hturn : orText turn.executorTurnId incoming.executorTurnId = turn.executorTurnId)
    (hmodality : (mergeTimelineTurn lower turn incoming).inputModality = turn.inputModality)
    (hmetadata : mergeMetadata turn.metadata incoming.metadata = turn.metadata)
    (htask : mergeTask turn.task incoming.task = turn.task)
    (hupdated : orText incoming.updatedAt turn.updatedAt = turn.updatedAt) :
    mergeTimelineTurn lower turn incoming = turn :=
  TimelineTurn.ext rfl rfl rfl rfl hclient hthread hturn hmodality huser hassistant hstatus
    hmetadata htask rfl hupdated

/-- The answer is final after the first merge, or the second one brings nothing else. -/
theorem assistant_merge_merge :
    (mergeTimelineTurn lower (mergeTimelineTurn lower existing incoming) incoming).assistant =
      (mergeTimelineTurn lower existing incoming).assistant := by
  rw [assistant_merge, mergeAnswer]
  split_ifs with h
  · rfl
  · rw [assistant_merge, mergeAnswer]
    split_ifs with hold
    · rw [Bool.and_eq_true] at hold
      have hstays := (staysSettled_merge hold.1 incoming).settled
      exact absurd (by simp [hstays, hold.2]) h
    · exact or_or_self _ _

theorem user_merge_merge :
    markUser ((mergeTimelineTurn lower existing incoming).user.or incoming.user)
      (mergeMetadata (mergeTimelineTurn lower existing incoming).metadata incoming.metadata) =
        (mergeTimelineTurn lower existing incoming).user := by
  rw [metadata_merge, mergeMetadata_mergeMetadata]
  have huser : (mergeTimelineTurn lower existing incoming).user =
      markUser (existing.user.or incoming.user)
        (mergeMetadata existing.metadata incoming.metadata) := rfl
  have hor : (mergeTimelineTurn lower existing incoming).user.or incoming.user =
      (mergeTimelineTurn lower existing incoming).user := by
    rw [huser]
    cases existing.user with
    | none => cases incoming.user <;> rfl
    | some message => rfl
  rw [hor, huser, markUser_markUser]

theorem modality_merge_merge :
    (mergeTimelineTurn lower (mergeTimelineTurn lower existing incoming) incoming).inputModality =
      (mergeTimelineTurn lower existing incoming).inputModality := by
  simp only [mergeTimelineTurn]
  split_ifs <;> simp_all

/-- Every part but the status is the same after the second merge. -/
theorem merge_merge_iff :
    mergeTimelineTurn lower (mergeTimelineTurn lower existing incoming) incoming =
        mergeTimelineTurn lower existing incoming ↔
      (mergeTimelineTurn lower (mergeTimelineTurn lower existing incoming) incoming).status =
        (mergeTimelineTurn lower existing incoming).status := by
  constructor
  · intro h
    rw [h]
  · intro hstatus
    exact mergeTimelineTurn_eq_self user_merge_merge assistant_merge_merge hstatus
      (orText_orText_right _ _) (orText_orText_right _ _) (orText_orText_right _ _)
      modality_merge_merge (mergeMetadata_mergeMetadata _ _) (mergeTask_mergeTask _ _)
      (orText_orText_left _ _)

/-- The completion without a finished answer that passes over a failure. -/
def dropsFailure (lower : String → String) (existing incoming : TimelineTurn) : Bool :=
  existing.status = .completed && !hasFinalAnswer lower existing &&
    (incoming.status = .failed || incoming.status = .cancelled) &&
    isStreaming lower (incoming.assistant.or existing.assistant)

theorem mergeAnswer_of_unsettled (h : isSettled lower existing = false) :
    mergeAnswer lower existing incoming = incoming.assistant.or existing.assistant := by
  simp [mergeAnswer, h]

/-- A turn that is not settled takes the status of what is seen, unless it is completed
already; a partial answer keeps it running. -/
theorem status_merge_of_unsettled (h : isSettled lower existing = false) :
    (mergeTimelineTurn lower existing incoming).status =
      mergeStatus lower existing incoming (incoming.assistant.or existing.assistant) false := by
  rw [status_merge, h, mergeAnswer_of_unsettled h]

theorem status_of_unsettled (h : isSettled lower existing = false) :
    existing.status = .pending ∨ existing.status = .running ∨
      (existing.status = .completed ∧ hasFinalAnswer lower existing = false) := by
  cases hs : existing.status <;> simp_all [isSettled]

/-- The dropped failure leaves the turn running. -/
theorem status_of_dropsFailure (h : dropsFailure lower existing incoming = true) :
    (mergeTimelineTurn lower existing incoming).status = .running ∧
      (mergeTimelineTurn lower (mergeTimelineTurn lower existing incoming) incoming).status =
        incoming.status := by
  simp only [dropsFailure, Bool.and_eq_true, Bool.not_eq_true', Bool.or_eq_true,
    decide_eq_true_eq] at h
  obtain ⟨⟨⟨hcompleted, hfinal⟩, hincoming⟩, hstreaming⟩ := h
  have hunsettled : isSettled lower existing = false := by simp [isSettled, hcompleted, hfinal]
  have hfirst : (mergeTimelineTurn lower existing incoming).status = .running := by
    rw [status_merge_of_unsettled hunsettled]
    simp [mergeStatus, hcompleted, hstreaming]
  have hmerged : isSettled lower (mergeTimelineTurn lower existing incoming) = false := by
    simp [isSettled, hfirst]
  refine ⟨hfirst, ?_⟩
  rw [status_merge_of_unsettled hmerged, mergeStatus, hfirst]
  rcases hincoming with hi | hi <;> simp [hi]

/-- Otherwise the second merge meets the status that the first one left. -/
theorem status_merge_merge (h : dropsFailure lower existing incoming = false) :
    (mergeTimelineTurn lower (mergeTimelineTurn lower existing incoming) incoming).status =
      (mergeTimelineTurn lower existing incoming).status := by
  cases hmerged : isSettled lower (mergeTimelineTurn lower existing incoming) with
  | true => exact (staysSettled_merge hmerged incoming).status
  | false =>
    have hunsettled : isSettled lower existing = false := by
      cases hold : isSettled lower existing with
      | false => rfl
      | true => rw [(staysSettled_merge hold incoming).settled] at hmerged; exact hmerged
    have hfirst : (mergeTimelineTurn lower existing incoming).status =
        mergeStatus lower existing incoming (incoming.assistant.or existing.assistant) false :=
      status_merge_of_unsettled hunsettled
    have hanswer : (mergeTimelineTurn lower existing incoming).assistant =
        incoming.assistant.or existing.assistant := by
      rw [assistant_merge, mergeAnswer_of_unsettled hunsettled]
    rw [status_merge_of_unsettled hmerged, hanswer, or_or_self]
    have hopen : (mergeTimelineTurn lower existing incoming).status ≠ .failed ∧
        (mergeTimelineTurn lower existing incoming).status ≠ .cancelled := by
      constructor <;> intro hs <;> simp [isSettled, hs] at hmerged
    simp only [dropsFailure] at h
    generalize mergeTimelineTurn lower existing incoming = merged at hfirst hopen ⊢
    generalize incoming.assistant.or existing.assistant = answer at hfirst h ⊢
    rw [hfirst] at hopen
    cases answer with
    | none =>
      have hns : isStreaming lower none = false := rfl
      rcases status_of_unsettled hunsettled with hs | hs | ⟨hs, -⟩ <;>
        cases hi : incoming.status <;> simp_all [mergeStatus]
    | some answer =>
      cases ha : isStreaming lower (some answer) with
      | false =>
        rcases status_of_unsettled hunsettled with hs | hs | ⟨hs, -⟩ <;>
          cases hi : incoming.status <;> simp_all [mergeStatus]
      | true =>
        -- a partial answer has set the turn running, and does so again
        rcases status_of_unsettled hunsettled with hs | hs | ⟨hs, hfinal⟩ <;>
          cases hi : incoming.status <;> simp_all [mergeStatus]

theorem status_merge_merge_iff :
    (mergeTimelineTurn lower (mergeTimelineTurn lower existing incoming) incoming).status =
        (mergeTimelineTurn lower existing incoming).status ↔
      dropsFailure lower existing incoming = false := by
  constructor
  · intro hsame
    rw [Bool.eq_false_iff]
    intro hdrops
    obtain ⟨hfirst, hsecond⟩ := status_of_dropsFailure hdrops
    rw [hfirst, hsecond] at hsame
    simp [dropsFailure, hsame] at hdrops
  · exact status_merge_merge

end Twice

/-! ## The law of the merge -/

/-- A settled turn absorbs every later observation, and an observation merged twice is merged
once. -/
structure MergeLaw (lower : String → String) (existing incoming : TimelineTurn) : Prop where
  absorbs : isSettled lower existing = true → ∀ seen : List TimelineTurn,
    StaysSettled lower existing (seen.foldl (mergeTimelineTurn lower) existing)
  idempotent : mergeTimelineTurn lower (mergeTimelineTurn lower existing incoming) incoming =
    mergeTimelineTurn lower existing incoming

/-- The law holds but where a failure reaches a completion that has no finished answer. -/
theorem merge_law_iff (lower : String → String) (existing incoming : TimelineTurn) :
    MergeLaw lower existing incoming ↔ dropsFailure lower existing incoming = false := by
  rw [← status_merge_merge_iff, ← merge_merge_iff]
  constructor
  · intro h
    exact h.idempotent
  · intro h
    exact ⟨fun hsettled seen => staysSettled_foldl hsettled seen, h⟩

/-- A turn of a thread, as far as its status and its answer tell. -/
def seenTurn (status : TimelineStatus) (answer : Option TimelineMessage) : TimelineTurn :=
  { turnId := "thread-1:outbound:request-1", threadId := "thread-1", personaId := "bro",
    executorId := "codex", clientRequestId := none, executorThreadId := none,
    executorTurnId := none, inputModality := .text, user := none, assistant := answer,
    status := status, metadata := Table.empty }

/-- The first lines of an answer. -/
def partialAnswer : TimelineMessage :=
  { messageId := "thread-1:request-1:assistant", audio := false, text := some "Looking",
    transcript := none, audioId := none, status := "in_progress", metadata := Table.empty }

/-- A failure seen once sets the turn running, seen twice it fails the turn. -/
theorem failure_counts_at_the_second_time :
    ¬ MergeLaw String.toLower (seenTurn .completed (some partialAnswer))
      (seenTurn .failed none) := by
  intro h
  have hstatus := congrArg TimelineTurn.status h.idempotent
  revert hstatus
  decide +kernel

end Newbro.TimelineMerges
