import Newbro.ThreadHistory

/-!
# A turn live and in the history

The live events of a turn are folded into its timeline turn one after the other, the history
reads its items as a whole. What either comes to is put in closed form: the live one is the
join of what each item shows, the history's is the last item of each kind.
-/
namespace Newbro.OutboundTurns

open Library Protocol BlockedRequests Option List
open BroTimeline (text? clientRequestIdForSelectedThreadTurn)

/-! ## What the live items show -/

def streamingStatus (lower : String → String) (status : String) : Bool :=
  ["running", "in_progress", "inprogress", "pending", "streaming"].contains (lower status)

/-- What can be read off a turn: the user's text, the answer with its status, the plan. -/
structure Seen where
  user : Option String
  answer : Option (String × String)
  plan : Option Fields

namespace Seen

def blank : Seen := ⟨none, none, none⟩

def settled (lower : String → String) (answer : Option (String × String)) : Bool :=
  answer.any fun answer => !streamingStatus lower answer.2

def streams (lower : String → String) (answer : Option (String × String)) : Bool :=
  answer.any fun answer => streamingStatus lower answer.2

/-- A settled answer gives way to settled ones only. -/
def joinAnswer (lower : String → String) (v c : Option (String × String)) :
    Option (String × String) :=
  if settled lower v && streams lower c then v else c.or v

/-- The first user text stays, and the last plan stands. -/
def join (lower : String → String) (v c : Seen) : Seen where
  user := v.user.or c.user
  answer := joinAnswer lower v.answer c.answer
  plan := c.plan.or v.plan

/-- What is seen once something more is shown. -/
def add (lower : String → String) (seen : Option Seen) (c : Seen) : Option Seen :=
  some ((seen.getD blank).join lower c)

/-- The answer among several: the last one that is not streaming, else the last one. -/
def settledAnswer (lower : String → String) (answers : List (String × String)) :
    Option (String × String) :=
  (answers.filter fun answer => !streamingStatus lower answer.2).getLast?.or answers.getLast?

/-- All that is shown, in closed form. -/
def all (lower : String → String) (shown : List Seen) : Seen where
  user := (shown.filterMap Seen.user).head?
  answer := settledAnswer lower (shown.filterMap Seen.answer)
  plan := (shown.filterMap Seen.plan).getLast?

theorem settled_settledAnswer (lower : String → String) (answers : List (String × String)) :
    settled lower (settledAnswer lower answers) =
      (answers.filter fun answer => !streamingStatus lower answer.2).getLast?.isSome := by
  unfold settledAnswer
  cases h : (answers.filter fun answer => !streamingStatus lower answer.2).getLast? with
  | some answer =>
    have hmem := mem_of_getLast? h
    simpa [settled] using (mem_filter.mp hmem).2
  | none =>
    have hempty := List.getLast?_eq_none_iff.mp h
    cases hlast : answers.getLast? with
    | none => rfl
    | some answer =>
      have hnot := filter_eq_nil_iff.mp hempty answer (mem_of_getLast? hlast)
      simpa [settled] using hnot

theorem settledAnswer_snoc (lower : String → String) (answers : List (String × String))
    (answer : String × String) :
    settledAnswer lower (answers ++ [answer]) =
      if settled lower (settledAnswer lower answers) && streamingStatus lower answer.2 then
        settledAnswer lower answers
      else some answer := by
  rw [settled_settledAnswer]
  cases hstream : streamingStatus lower answer.2 with
  | false => simp [settledAnswer, filter_append, hstream]
  | true =>
    cases h : (answers.filter fun answer => !streamingStatus lower answer.2).getLast? with
    | none => simp [settledAnswer, filter_append, hstream, h]
    | some last => simp [settledAnswer, filter_append, hstream, h]

/-- One more thing shown. -/
theorem all_snoc (lower : String → String) (shown : List Seen) (c : Seen) :
    all lower (shown ++ [c]) = (all lower shown).join lower c := by
  have huser : (all lower (shown ++ [c])).user = ((all lower shown).join lower c).user := by
    simp only [all, join, filterMap_append, List.head?_append]
    cases hu : c.user <;> simp [hu]
  have hanswer : (all lower (shown ++ [c])).answer = ((all lower shown).join lower c).answer := by
    simp only [all, join, filterMap_append]
    cases ha : c.answer with
    | none => simp [ha, joinAnswer, streams]
    | some answer =>
      simp only [filterMap_cons, ha, filterMap_nil, settledAnswer_snoc, joinAnswer]
      simp [streams]
  have hplan : (all lower (shown ++ [c])).plan = ((all lower shown).join lower c).plan := by
    simp only [all, join, filterMap_append, List.getLast?_append]
    cases hp : c.plan <;> simp [hp]
  exact congr (congr (congrArg Seen.mk huser) hanswer) hplan

theorem foldl_add (lower : String → String) (shown : List Seen) :
    shown.foldl (add lower) none = if shown.isEmpty then none else some (all lower shown) := by
  induction shown using List.reverseRecOn with
  | nil => rfl
  | append_singleton shown c ih =>
    rw [foldl_append, ih, foldl_cons, foldl_nil, all_snoc]
    cases shown with
    | nil => rfl
    | cons first rest => simp [add]

/-- What is shown on the way to `c` and is replaced by it. -/
structure ReplacedBy (lower : String → String) (b c : Seen) : Prop where
  user : b.user = none ∨ b.user = c.user
  answer : b.answer = none ∨ b.answer = c.answer ∨
    (streams lower b.answer = true ∧ c.answer.isSome)
  plan : b.plan = none ∨ c.plan.isSome

variable {lower : String → String}

theorem settled_of_streams {answer : Option (String × String)}
    (h : streams lower answer = true) : settled lower answer = false := by
  cases answer with
  | none => rfl
  | some answer => simpa [settled, streams] using h

/-- An answer that still streams leaves no trace once the answer comes. -/
theorem joinAnswer_joinAnswer {b c : Option (String × String)}
    (h : b = none ∨ b = c ∨ (streams lower b = true ∧ c.isSome)) (v : Option (String × String)) :
    joinAnswer lower (joinAnswer lower v b) c = joinAnswer lower v c := by
  rcases h with rfl | rfl | ⟨hb, hc⟩
  · simp [joinAnswer, streams]
  · by_cases hs : (settled lower v && streams lower b) = true
    · simp [joinAnswer, hs]
    · cases b with
      | none => simp [joinAnswer, streams]
      | some answer => simp [joinAnswer, hs]
  · obtain ⟨answer, rfl⟩ := isSome_iff_exists.mp hc
    cases hs : settled lower v with
    | true => simp [joinAnswer, hb, hs]
    | false =>
      have hor : settled lower (b.or v) = false := by
        cases b with
        | none => simp [streams] at hb
        | some other => exact settled_of_streams hb
      simp [joinAnswer, hs, hor]

theorem join_join {b c : Seen} (h : ReplacedBy lower b c) (v : Seen) :
    (v.join lower b).join lower c = v.join lower c := by
  have huser : (v.user.or b.user).or c.user = v.user.or c.user := by
    rcases h.user with hb | hb
    · rw [hb, or_none]
    · rw [hb]
      cases v.user <;> cases c.user <;> rfl
  have hplan : c.plan.or (b.plan.or v.plan) = c.plan.or v.plan := by
    rcases h.plan with hb | hc
    · rw [hb, none_or]
    · obtain ⟨plan, hplan⟩ := isSome_iff_exists.mp hc
      simp [hplan]
  simp only [join, huser, hplan, joinAnswer_joinAnswer h.answer]

theorem add_add {b c : Seen} (h : ReplacedBy lower b c)
    (seen : Option Seen) : add lower (add lower seen b) c = add lower seen c := by
  simp only [add, getD_some]
  rw [join_join h]

end Seen

/-! ## The live turn -/

/-- The key entries of a metadata dictionary survive a merge, where nothing replaces them. -/
theorem lookup_mergeMetadata (existing incoming : Metadata) (key : String) :
    Dict.lookup (mergeMetadata existing incoming) key = match Dict.lookup incoming key with
      | none => Dict.lookup existing key
      | some .null => (Dict.lookup existing key).or (some .null)
      | some value => some value := by
  rw [← Dict.lookup_entries incoming, mergeMetadata]
  have hnodup := incoming.keys_nodup
  generalize incoming.entries = entries at hnodup ⊢
  induction entries generalizing existing with
  | nil => rfl
  | cons entry entries ih =>
    obtain ⟨name, value⟩ := entry
    simp only [map_cons, nodup_cons] at hnodup
    rw [foldl_cons, ih _ hnodup.2]
    by_cases hkey : key = name
    · subst hkey
      have hrest : entries.lookup key = none := by
        rw [lookup_eq_none_iff]
        intro other hother
        have hne : other.1 ≠ key := fun h => hnodup.1 (h ▸ mem_map.mpr ⟨other, hother, rfl⟩)
        simpa using hne.symm
      rw [hrest]
      simp only [lookup_cons_self]
      cases value with
      | null => cases hold : Dict.lookup existing key <;> simp [hold]
      | bool b => simp
      | int i => simp
      | str text => simp
      | list items => simp
      | dict fields => simp
    · have hfalse : (key == name) = false := by simpa using hkey
      have hlookup : ((name, value) :: entries).lookup key = entries.lookup key := by
        simp [lookup_cons, hfalse]
      have hset : ∀ v, Dict.lookup (Dict.set existing name v) key = Dict.lookup existing key :=
        fun v => Dict.lookup_set_of_ne existing v (Ne.symm hkey)
      rw [hlookup]
      cases value with
      | null => cases hold : Dict.lookup existing name <;> simp [hset]
      | bool b => simp [hset]
      | int i => simp [hset]
      | str text => simp [hset]
      | list items => simp [hset]
      | dict fields => simp [hset]

theorem markUser_map_text (user : Option TimelineMessage) (metadata : Metadata) :
    (markUser user metadata).map TimelineMessage.text = user.map TimelineMessage.text := by
  cases user <;> rfl

/-- A turn under way shows this much; a settled answer has settled the turn. -/
structure Shows (lower : String → String) (turn : TimelineTurn) (v : Seen) : Prop where
  user : turn.user.map TimelineMessage.text = v.user.map some
  answer : turn.assistant.map (fun message => (message.text, message.status)) =
    v.answer.map fun answer => (some answer.1, answer.2)
  plan : Dict.lookup turn.metadata "codex_plan" = v.plan.map Value.dict
  status : turn.status = .running ∨ turn.status = .completed
  settled : Seen.settled lower v.answer = true → turn.status = .completed

namespace Shows

variable {lower : String → String} {turn next : TimelineTurn} {v c : Seen}

theorem isStreaming_eq (h : Shows lower turn v) :
    isStreaming lower turn.assistant = Seen.streams lower v.answer := by
  have hanswer := h.answer
  cases ha : turn.assistant <;> cases hv : v.answer <;> rw [ha, hv] at hanswer
  · rfl
  · exact absurd hanswer (by simp)
  · exact absurd hanswer (by simp)
  · simp only [map_some, some.injEq, Prod.mk.injEq] at hanswer
    simp only [isStreaming, Seen.streams, streamingStatus, any_some, hanswer.2]

theorem assistant_isSome (h : Shows lower turn v) : turn.assistant.isSome = v.answer.isSome := by
  have hanswer := congrArg Option.isSome h.answer
  simpa using hanswer

theorem settled_eq (h : Shows lower turn v) :
    (turn.status = .failed || turn.status = .cancelled || (turn.status = .completed &&
      turn.assistant.isSome && !isStreaming lower turn.assistant)) =
        Seen.settled lower v.answer := by
  rw [h.isStreaming_eq, h.assistant_isSome]
  have hsettled := h.settled
  cases hv : v.answer with
  | none => rcases h.status with hs | hs <;> simp [hs, Seen.settled]
  | some answer =>
    cases hstream : streamingStatus lower answer.2 with
    | true => rcases h.status with hs | hs <;> simp [hs, Seen.settled, Seen.streams, hstream]
    | false =>
      have hs : turn.status = .completed := hsettled (by simp [hv, Seen.settled, hstream])
      simp [hs, Seen.settled, Seen.streams, hstream]

/-- What a merged turn shows is the join of what both show. -/
theorem merge (h : Shows lower turn v) (hn : Shows lower next c) :
    Shows lower (mergeTimelineTurn lower turn next) (v.join lower c) := by
  have hassistant : (mergeTimelineTurn lower turn next).assistant =
      if Seen.settled lower v.answer && Seen.streams lower c.answer then turn.assistant
      else next.assistant.or turn.assistant := by
    simp only [mergeTimelineTurn, h.settled_eq, hn.isStreaming_eq]
  have hstatus : (mergeTimelineTurn lower turn next).status =
      mergeStatus lower turn next (mergeTimelineTurn lower turn next).assistant
        (Seen.settled lower v.answer) := by
    simp only [mergeTimelineTurn, h.settled_eq]
  have hanswer : (mergeTimelineTurn lower turn next).assistant.map
      (fun message => (message.text, message.status)) =
        (Seen.joinAnswer lower v.answer c.answer).map fun answer => (some answer.1, answer.2) := by
    rw [hassistant, Seen.joinAnswer]
    split_ifs
    · exact h.answer
    · rw [Option.map_or, hn.answer, h.answer, ← Option.map_or]
  have hstreaming : isStreaming lower (mergeTimelineTurn lower turn next).assistant =
      Seen.streams lower (Seen.joinAnswer lower v.answer c.answer) := by
    have hany := congrArg (Option.any fun pair => streamingStatus lower pair.2) hanswer
    rw [Option.any_map, Option.any_map] at hany
    exact hany
  refine ⟨?_, hanswer, ?_, ?_, ?_⟩
  · simp only [mergeTimelineTurn, markUser_map_text, Option.map_or, h.user, hn.user, Seen.join]
  · simp only [mergeTimelineTurn, lookup_mergeMetadata, h.plan, hn.plan, Seen.join]
    cases c.plan <;> rfl
  · rw [hstatus, mergeStatus]
    rcases h.status with hs | hs <;> rcases hn.status with hs' | hs' <;>
      simp only [hs, hs'] <;> split_ifs <;> simp_all
  · intro hsettled
    rw [Seen.join] at hsettled
    rw [hstatus, mergeStatus, hstreaming]
    cases hv : Seen.settled lower v.answer with
    | true => simp [h.settled hv]
    | false =>
      have hjoin : Seen.joinAnswer lower v.answer c.answer = c.answer.or v.answer := by
        simp [Seen.joinAnswer, hv]
      rw [hjoin] at hsettled hstreaming ⊢
      cases hc : c.answer with
      | none =>
        rw [hc, Option.none_or, hv] at hsettled
        exact absurd hsettled (by simp)
      | some answer =>
        rw [hc] at hsettled
        have hns : streamingStatus lower answer.2 = false := by simpa [Seen.settled] using hsettled
        have hs' : next.status = .completed := hn.settled (by simp [hc, Seen.settled, hns])
        have hsome : (mergeTimelineTurn lower turn next).assistant.isSome := by
          rw [hassistant, hv]
          have hnext : next.assistant.isSome = true := by rw [hn.assistant_isSome, hc]; rfl
          simp [hnext]
        rcases h.status with hs | hs <;>
          simp [hs, hs', Seen.streams, hns, Option.isNone_iff_eq_none,
            Option.isSome_iff_ne_none.mp hsome]

end Shows

/-- The two statuses of a running message, in lower case. -/
structure LowersStatuses (lower : String → String) : Prop where
  running : lower "running" = "running"
  inProgress : lower "inProgress" = "inprogress"

variable {lower : String → String}

theorem streamingStatus_running (h : LowersStatuses lower) :
    streamingStatus lower "running" = true := by
  rw [streamingStatus, h.running]
  decide

theorem streamingStatus_inProgress (h : LowersStatuses lower) :
    streamingStatus lower "inProgress" = true := by
  rw [streamingStatus, h.inProgress]
  decide

/-- A turn without a message shows nothing. -/
theorem shows_turn (lower : String → String) (here : EventTurn) :
    Shows lower here.turn Seen.blank where
  user := rfl
  answer := rfl
  plan := by
    simp [EventTurn.turn, EventTurn.metadata, metadataOf, Dict.lookup_set, Seen.blank]
    rfl
  status := .inl rfl
  settled h := absurd h (by simp [Seen.blank, Seen.settled])

/-- What a message item shows. -/
def Seen.ofMessage (role : ItemRole) (item : Fields) (text : String) : Seen :=
  match role with
  | .user => ⟨some text, none, none⟩
  | .assistant => ⟨none, some (text, ThreadProjection.itemStatus item), none⟩

theorem shows_messageTurn (hlower : LowersStatuses lower)
    (here : EventTurn) (role : ItemRole) (item : Fields) (text : String) :
    Shows lower (ThreadProjection.messageTurn here role item text)
      (Seen.ofMessage role item text) := by
  have hplan := (shows_turn lower here).plan
  cases role with
  | user => exact ⟨rfl, rfl, hplan, .inl rfl, fun h => absurd h (by simp [Seen.ofMessage, Seen.settled])⟩
  | assistant =>
    refine ⟨rfl, rfl, hplan, ?_, ?_⟩
    · simp only [ThreadProjection.messageTurn]
      split_ifs
      · exact .inl rfl
      · exact .inr rfl
    · intro hsettled
      have hns : streamingStatus lower (ThreadProjection.itemStatus item) = false := by
        simpa [Seen.ofMessage, Seen.settled] using hsettled
      have hnot : ["running", "inProgress"].contains (ThreadProjection.itemStatus item) = false := by
        by_contra hcontains
        have hmem : ThreadProjection.itemStatus item = "running" ∨
            ThreadProjection.itemStatus item = "inProgress" :=
          or_iff_not_imp_left.mpr (by simpa using hcontains)
        rcases hmem with h | h <;> rw [h] at hns
        · rw [streamingStatus_running hlower] at hns
          exact absurd hns (by simp)
        · rw [streamingStatus_inProgress hlower] at hns
          exact absurd hns (by simp)
      simp only [ThreadProjection.messageTurn, hnot, Bool.false_eq_true, if_false]

/-! ## The events of one turn -/

/-- The projection keeps one turn of the thread, which shows this much, and the phases of its
items. -/
structure Follows (lower : String → String) (subscription : ThreadSubscription) (turnId : String)
    (s : ThreadProjection) (seen : Option Seen) (phases : String → Option String) : Prop where
  turns : match seen with
    | none => s.turnsOf subscription.publicThreadId = []
    | some v => ∃ turn, s.turnsOf subscription.publicThreadId = [turn] ∧
        turn.turnId = subscription.publicThreadId ++ ":codex:" ++ turnId ∧
        turn.executorTurnId = some turnId ∧ Shows lower turn v
  phases : ∀ itemId, s.broThreadLiveItemPhase.lookup
    (subscription.publicThreadId, turnId, itemId) = phases itemId

theorem broThreadLiveItemPhase_upsert (lower : String → String) (s : ThreadProjection)
    (turn : TimelineTurn) : (s.upsertBroThreadExecutorTurn lower turn).broThreadLiveItemPhase =
      s.broThreadLiveItemPhase := by
  simp only [ThreadProjection.upsertBroThreadExecutorTurn, ThreadProjection.markLoaded]
  split <;> rfl

namespace Follows

variable {lower : String → String} {subscription : ThreadSubscription} {turnId : String}
  {s : ThreadProjection} {seen : Option Seen} {phases : String → Option String}

/-- A turn of the same id that is put into the projection is added to what is seen. -/
theorem upsert (h : Follows lower subscription turnId s seen phases) {next : TimelineTurn}
    {c : Seen} (hnext : Shows lower next c) (hthread : next.threadId = subscription.publicThreadId)
    (hid : next.turnId = subscription.publicThreadId ++ ":codex:" ++ turnId)
    (hturn : next.executorTurnId = some turnId) :
    Follows lower subscription turnId (s.upsertBroThreadExecutorTurn lower next)
      (Seen.add lower seen c) phases := by
  refine ⟨?_, fun itemId => by rw [broThreadLiveItemPhase_upsert, h.phases]⟩
  have hupsert := ThreadProjection.turnsOf_upsert_self lower s next
  rw [hthread] at hupsert
  have hturns := h.turns
  cases seen with
  | none =>
    have hblank : Seen.blank.join lower c = c := by
      simp [Seen.join, Seen.blank, Seen.joinAnswer, Seen.settled]
    rw [hturns] at hupsert
    exact ⟨next, hupsert, hid, hturn, by rw [getD_none, hblank]; exact hnext⟩
  | some v =>
    obtain ⟨turn, hone, hturnId, hexec, hshows⟩ := hturns
    have hsame : sameTurn next turn = true := by simp [sameTurn, hturnId, hid]
    rw [hone] at hupsert
    simp only [upsertTurn, hsame, if_true] at hupsert
    refine ⟨_, hupsert, hturnId, ?_, hshows.merge hnext⟩
    have hmerged : (mergeTimelineTurn lower turn next).executorTurnId =
        orText turn.executorTurnId next.executorTurnId := rfl
    rw [hmerged, hexec, hturn]
    by_cases hempty : turnId = "" <;> simp [orText, Option.filter, hempty]

end Follows

/-! ## The items of a turn and their events -/

/-- An item as it was when it started: of the same kind and phase, with no text yet or the same
as it has in the end. -/
structure StartOf (item start : Fields) : Prop where
  type : start.str? "type" = item.str? "type"
  role : codexItemRole start = codexItemRole item
  id : nonempty? start "id" = nonempty? item "id"
  phase : nonempty? start "phase" = nonempty? item "phase"
  text : start = item ∨
    (extractCodexItemText start = none ∧ ∀ lower, extractCodexPlan lower start = none)

def isPlanItem (item : Fields) : Bool := item.str? "type" = some "plan"

/-- An item of a turn with what is seen of it live: its start, if that is seen, and its deltas.
Deltas name the item and come to a text of an answer or a plan; those of a commentary follow
its start, which says that it is one. -/
structure LiveItem where
  item : Fields
  started : Option Fields
  deltas : List String
  start_of : ∀ start ∈ started, StartOf item start
  delta_of : deltas ≠ [] → (extractCodexItemText item).isSome ∧
    (isPlanItem item = true ∨ (codexItemRole item = some .assistant ∧
      (nonempty? item "id").isSome ∧
        (nonempty? item "phase" = some "commentary" → started.isSome)))

def itemEvent (turnId method : String) (item : Fields) : CodexThreadEvent :=
  ⟨method, [("turnId", .str turnId), ("item", .dict item)], ""⟩

/-- The parameters of a delta of an item. -/
def deltaParams (turnId : String) (item : Fields) (delta : String) : Fields :=
  [("turnId", .str turnId), ("itemId", (item.lookup "id").getD .null), ("delta", .str delta)]

/-- The events of an item. -/
def LiveItem.events (turnId : String) (live : LiveItem) : List CodexThreadEvent :=
  let method := if isPlanItem live.item then "item/plan/delta" else "item/agentMessage/delta"
  (live.started.map fun start => itemEvent turnId "item/started" start).toList ++
    live.deltas.map (fun delta => ⟨method, deltaParams turnId live.item delta, ""⟩) ++
    [itemEvent turnId "item/completed" live.item]

/-- The phases of the messages once the item is seen. -/
def recordItem (phases : String → Option String) (item : Fields) : String → Option String :=
  match nonempty? item "id", nonempty? item "phase" with
  | some itemId, some phase =>
    if !isPlanItem item && codexItemRole item = some .assistant then
      fun other => if other = itemId then some phase else phases other
    else phases
  | _, _ => phases

def commentaryItem (phases : String → Option String) (item : Fields) : Bool :=
  (nonempty? item "id").any fun itemId => phases itemId = some "commentary"

/-- What an item shows live, with the phases recorded by then. -/
def shownBy (lower : String → String) (phases : String → Option String) (item : Fields) :
    Option Seen :=
  if isPlanItem item then (extractCodexPlan lower item).map fun plan => ⟨none, none, some plan⟩
  else
    match codexItemRole item with
    | none => none
    | some role =>
      if role = .assistant ∧ commentaryItem phases item = true then some Seen.blank
      else (extractCodexItemText item).map (Seen.ofMessage role item)

/-- What the items of a turn show live, one after the other. -/
def shownLive (lower : String → String) : (String → Option String) → List Fields → List Seen
  | _, [] => []
  | phases, item :: rest =>
    let phases := recordItem phases item
    (shownBy lower phases item).toList ++ shownLive lower phases rest

/-- What is seen after something was shown, if anything was. -/
def Seen.addOption (lower : String → String) (seen : Option Seen) (c : Option Seen) :
    Option Seen :=
  c.elim seen (Seen.add lower seen)

theorem recordItem_recordItem (phases : String → Option String) (item : Fields) :
    recordItem (recordItem phases item) item = recordItem phases item := by
  unfold recordItem
  cases nonempty? item "id" with
  | none => rfl
  | some itemId =>
    cases nonempty? item "phase" with
    | none => rfl
    | some phase =>
      simp only
      split_ifs
      · funext other
        by_cases h : other = itemId <;> simp [h]
      · rfl

variable {item start : Fields}

theorem recordItem_start (h : StartOf item start)
    (phases : String → Option String) : recordItem phases start = recordItem phases item := by
  simp only [recordItem, isPlanItem, h.type, h.role, h.id, h.phase]
  rfl

theorem commentaryItem_start (h : StartOf item start)
    (phases : String → Option String) : commentaryItem phases start = commentaryItem phases item := by
  simp only [commentaryItem, h.id]

/-- What a start shows is replaced by what the item shows. -/
theorem addOption_start (h : StartOf item start)
    (phases : String → Option String) (seen : Option Seen) :
    Seen.addOption lower (Seen.addOption lower seen (shownBy lower phases start))
        (shownBy lower phases item) =
      Seen.addOption lower seen (shownBy lower phases item) := by
  have hself : ∀ c : Seen, Seen.ReplacedBy lower c c := fun c =>
    ⟨.inr rfl, .inr (.inl rfl), by cases c.plan <;> simp⟩
  rcases h.text with rfl | ⟨htext, hplan⟩
  · cases shownBy lower phases start with
    | none => rfl
    | some c => exact Seen.add_add (hself c) seen
  · have hplan' : isPlanItem start = isPlanItem item := by simp only [isPlanItem, h.type]
    simp only [shownBy, htext, hplan lower, hplan', h.role, commentaryItem_start h, map_none]
    split_ifs with hitem
    · rfl
    · cases hrole : codexItemRole item with
      | none => rfl
      | some role =>
        simp only
        split_ifs
        · exact Seen.add_add (hself Seen.blank) seen
        · rfl

/-! ## One event -/

section events

variable {f : Formats} {tasks : List Task} {runs : List ExecutionRun}
  {subscription : ThreadSubscription} {turnId : String} {s : ThreadProjection}
  {seen : Option Seen} {phases : String → Option String}

/-- An event of a turn is an item or a delta of it. -/
theorem apply_turn_event (f : Formats) (tasks : List Task) (runs : List ExecutionRun)
    (subscription : ThreadSubscription) (s : ThreadProjection) (hturn : turnId ≠ "")
    (method : String) (rest : Fields)
    (hgoal : ["thread/goal/updated", "thread/goal/cleared"].contains method = false)
    (hend : method ≠ "turn/completed") :
    ∃ here : EventTurn, here.subscription = subscription ∧ here.turnId = turnId ∧
      s.applyCodexThreadTimelineEvent f tasks runs subscription
          ⟨method, ("turnId", .str turnId) :: rest, ""⟩ =
        s.applyTurnEvent f here ⟨method, ("turnId", .str turnId) :: rest, ""⟩ := by
  have hid : text? ((Value.orGet (List.lookup "turnId" (("turnId", .str turnId) :: rest))
      (List.lookup "turn_id" (("turnId", .str turnId) :: rest))).bind Value.str?) =
        some turnId := by
    simp [Value.orGet, Value.truthy, hturn, Value.str?, text?, Option.filter]
  refine ⟨⟨subscription, turnId, clientRequestIdForSelectedThreadTurn tasks runs
    subscription.publicThreadId subscription.codexThreadId turnId,
    s.broThreadGoals.lookup subscription.publicThreadId, codexThreadEventTimestamp f
      ⟨method, ("turnId", .str turnId) :: rest, ""⟩⟩, rfl, rfl, ?_⟩
  unfold ThreadProjection.applyCodexThreadTimelineEvent
  simp only [hgoal, Bool.false_eq_true, if_false, hend, hid]

theorem takeLast?_eq_none {α : Type*} {p : α → Bool} {as : List α} (h : ∀ a ∈ as, p a = false) :
    ThreadProjection.takeLast? p as = none := by
  induction as with
  | nil => rfl
  | cons a as ih =>
    have hrest := ih fun b hb => h b (mem_cons_of_mem _ hb)
    simp [ThreadProjection.takeLast?, hrest, h a mem_cons_self]

namespace Follows

variable {here : EventTurn}

section

variable (h : Follows f.lower subscription turnId s seen phases)
include h

/-- No user message waits for the plan: the only turn of the thread is the one of the plan. -/
theorem pop_eq (hsub : here.subscription = subscription) (hid : here.turnId = turnId) :
    s.popSelectedThreadPendingUserTurn f here = (s, none, none) := by
  have hturns := h.turns
  have hnone : ThreadProjection.takeLast? (ThreadProjection.awaitsPlan f here)
      (s.turnsOf here.subscription.publicThreadId) = none := by
    rw [hsub]
    cases seen with
    | none => rw [hturns]; rfl
    | some v =>
      obtain ⟨turn, hone, -, hexec, -⟩ := hturns
      rw [hone]
      refine takeLast?_eq_none fun other hother => ?_
      rw [mem_singleton.mp hother]
      simp [ThreadProjection.awaitsPlan, hexec, hid]
  simp only [ThreadProjection.popSelectedThreadPendingUserTurn, hnone]

/-- An event that only keeps the turn live. -/
theorem keepLive (hsub : here.subscription = subscription) (hid : here.turnId = turnId) :
    Follows f.lower subscription turnId (s.keepSelectedThreadTurnLive f here)
      (Seen.add f.lower seen Seen.blank) phases := by
  subst hsub hid
  exact h.upsert (shows_turn f.lower here) rfl rfl rfl

theorem isCommentary_eq
    (hsub : here.subscription = subscription) (hid : here.turnId = turnId)
    (itemId : Option String) :
    s.isCommentary here itemId =
      (text? itemId).any fun itemId => phases itemId = some "commentary" := by
  simp only [ThreadProjection.isCommentary, EventTurn.key, hsub, hid, h.phases]

theorem planItem
    (hsub : here.subscription = subscription) (hid : here.turnId = turnId) (started : Bool)
    (item : Fields) :
    Follows f.lower subscription turnId (s.applyPlanItem f here started item).1
      (Seen.addOption f.lower seen
        ((extractCodexPlan f.lower item).map fun plan => ⟨none, none, some plan⟩)) phases := by
  unfold ThreadProjection.applyPlanItem
  cases hplan : extractCodexPlan f.lower item with
  | none => exact h
  | some plan =>
    simp only [h.pop_eq hsub hid, map_some]
    subst hsub hid
    refine h.upsert (c := ⟨none, none, some plan⟩) ⟨rfl, rfl, ?_, ?_, ?_⟩ rfl rfl rfl
    · simp [EventTurn.metadata, metadataOf, Dict.lookup_set]
    · cases started
      · exact .inr rfl
      · exact .inl rfl
    · exact fun hsettled => absurd hsettled (by simp [Seen.settled])

theorem recordPhase
    (hsub : here.subscription = subscription) (hid : here.turnId = turnId) {item : Fields}
    (hitem : isPlanItem item = false) :
    Follows f.lower subscription turnId (s.recordPhase here (codexItemRole item) item) seen
      (recordItem phases item) := by
  unfold ThreadProjection.recordPhase recordItem
  cases nonempty? item "id" with
  | none => exact h
  | some itemId =>
    cases nonempty? item "phase" with
    | none => exact h
    | some phase =>
      simp only [hitem, Bool.not_false, Bool.true_and, decide_eq_true_eq]
      split_ifs with hrole
      · refine ⟨h.turns, fun other => ?_⟩
        simp only [Dict.lookup_set, EventTurn.key, hsub, hid, Prod.mk.injEq, true_and,
          eq_comm (a := itemId)]
        split_ifs
        · rfl
        · exact h.phases other
      · exact h

end

theorem messageItem (hlower : LowersStatuses f.lower)
    (h : Follows f.lower subscription turnId s seen phases)
    (hsub : here.subscription = subscription) (hid : here.turnId = turnId) {item : Fields}
    (hitem : isPlanItem item = false) :
    Follows f.lower subscription turnId (s.applyMessageItem f here item).1
      (Seen.addOption f.lower seen (shownBy f.lower (recordItem phases item) item))
      (recordItem phases item) := by
  have hrec := h.recordPhase hsub hid hitem
  unfold ThreadProjection.applyMessageItem shownBy
  simp only [hitem, Bool.false_eq_true, if_false]
  cases hrole : codexItemRole item with
  | none =>
    rw [hrole] at hrec
    exact hrec
  | some role =>
    rw [hrole] at hrec
    have hcommentary : (s.recordPhase here (some role) item).isCommentary here
        (item.str? "id") = commentaryItem (recordItem phases item) item :=
      hrec.isCommentary_eq hsub hid _
    simp only [hcommentary]
    split_ifs
    · exact hrec.keepLive hsub hid
    · cases extractCodexItemText item with
      | none => exact hrec
      | some text =>
        subst hsub hid
        have hshows := shows_messageTurn hlower here role item text
        cases role with
        | user => exact hrec.upsert hshows rfl rfl rfl
        | assistant => exact hrec.upsert hshows rfl rfl rfl

end Follows

end events

end Newbro.OutboundTurns
