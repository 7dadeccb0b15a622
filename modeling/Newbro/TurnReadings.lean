import Newbro.ThreadAgreement

/-!
# Reading a whole turn

A turn of a native thread is a list of items and an end. Its live reading is what the
projection keeps after its events; its reading in the history is what the loader lists.
-/
namespace Newbro.OutboundTurns

open Library Protocol BlockedRequests Option List
open BroTimeline (text?)

/-- A turn: its items with what is seen of them live, and its other fields, as its status. -/
structure CodexTurn where
  turnId : String
  turnId_ne : turnId ≠ ""
  items : List LiveItem
  rest : Fields

namespace CodexTurn

variable (turn : CodexTurn)

/-- The items as they are in the end. -/
def finished : List Fields := turn.items.map LiveItem.item

/-- The turn as the history has it. -/
def record : Fields :=
  ("id", .str turn.turnId) :: ("items", .list (turn.finished.map Value.dict)) :: turn.rest

/-- The events of the items, then the end of the turn. -/
def events : List CodexThreadEvent :=
  turn.items.flatMap (LiveItem.events turn.turnId) ++
    [⟨"turn/completed", [("turn", .dict turn.record)], ""⟩]

end CodexTurn

/-- What the two readings of a turn are compared by. -/
structure TurnView where
  user : Option String
  answer : Option String
  plan : Option String
  status : TimelineStatus
  deriving Repr, DecidableEq

def planText (plan : Fields) : Option String := plan.str? "text"

def viewOf (turn : TimelineTurn) : TurnView where
  user := turn.user.bind TimelineMessage.text
  answer := turn.assistant.bind TimelineMessage.text
  plan := ((Dict.lookup turn.metadata "codex_plan").bind Value.dict?).bind planText
  status := turn.status

/-- The reading of the turn with an id. -/
def viewIn (turns : List TimelineTurn) (turnId : String) : Option TurnView :=
  (turns.find? fun turn => turn.turnId = turnId).map viewOf

/-- The live reading of a turn. -/
def liveView (f : Formats) (tasks : List Task) (runs : List ExecutionRun)
    (subscription : ThreadSubscription) (s : ThreadProjection) (turn : CodexTurn) :
    Option TurnView :=
  viewIn ((applyEvents f tasks runs subscription s turn.events).turnsOf
      subscription.publicThreadId)
    (subscription.publicThreadId ++ ":codex:" ++ turn.turnId)

/-- The thread of a subscription, as its history is loaded. -/
def historyThread (subscription : ThreadSubscription) (goal : Option String) : HistoryThread where
  publicThreadId := subscription.publicThreadId
  executorThreadId := subscription.codexThreadId
  personaId := subscription.personaId
  goal := goal

/-- The reading of a turn in the history. -/
def historyView (f : Formats) (subscription : ThreadSubscription) (goal : Option String)
    (turn : CodexTurn) : Option TurnView :=
  viewIn ((historyThread subscription goal).timelineTurnsFromCodexThread f [.dict turn.record])
    (subscription.publicThreadId ++ ":codex:" ++ turn.turnId)

/-- Nothing of the turn has been seen live, and the thread has no other turns. -/
structure Unseen (subscription : ThreadSubscription) (turnId : String) (s : ThreadProjection) :
    Prop where
  turns : s.turnsOf subscription.publicThreadId = []
  phases : ∀ itemId, s.broThreadLiveItemPhase.lookup
    (subscription.publicThreadId, turnId, itemId) = none

/-! ## Live -/

variable {lower : String → String}

section live

variable {f : Formats} (tasks : List Task) (runs : List ExecutionRun)
  {subscription : ThreadSubscription} {turnId : String} {s : ThreadProjection}
  {seen : Option Seen} {phases : String → Option String}

theorem Follows.liveItems (hlower : LowersStatuses f.lower) (hturn : turnId ≠ "")
    (items : List LiveItem) (h : Follows f.lower subscription turnId s seen phases) :
    ∃ phases', Follows f.lower subscription turnId
      (applyEvents f tasks runs subscription s (items.flatMap (LiveItem.events turnId)))
      ((shownLive f.lower phases (items.map LiveItem.item)).foldl (Seen.add f.lower) seen)
      phases' := by
  induction items generalizing s seen phases with
  | nil => exact ⟨phases, h⟩
  | cons live items ih =>
    have hlive := h.liveItem tasks runs hlower hturn live
    obtain ⟨phases', hrest⟩ := ih hlive
    refine ⟨phases', ?_⟩
    rw [flatMap_cons, applyEvents_append, map_cons, shownLive, foldl_append]
    have hfold : (shownBy f.lower (recordItem phases live.item) live.item).toList.foldl
        (Seen.add f.lower) seen =
          Seen.addOption f.lower seen (shownBy f.lower (recordItem phases live.item) live.item) := by
      cases shownBy f.lower (recordItem phases live.item) live.item <;> rfl
    rw [hfold]
    exact hrest

/-- A turn that settles keeps its texts. -/
theorem viewOf_settleTurn (lower : String → String) (turn : TimelineTurn) :
    viewOf (ThreadProjection.settleTurn lower turn) = { viewOf turn with status := .completed } := by
  simp only [viewOf, ThreadProjection.settleTurn]
  cases turn.assistant with
  | none => rfl
  | some message =>
    simp only [map_some, bind_some]
    split_ifs <;> rfl

theorem Shows.viewOf {turn : TimelineTurn} {v : Seen} (h : Shows lower turn v) :
    viewOf turn = ⟨v.user, v.answer.map Prod.fst, v.plan.bind planText, turn.status⟩ := by
  have huser : turn.user.bind TimelineMessage.text = v.user := by
    have huser := h.user
    cases hu : turn.user <;> cases hv : v.user <;> simp_all
  have hanswer : turn.assistant.bind TimelineMessage.text = v.answer.map Prod.fst := by
    have hanswer := h.answer
    cases ha : turn.assistant <;> cases hv : v.answer <;> simp_all
  have hplan : ((Dict.lookup turn.metadata "codex_plan").bind Value.dict?).bind planText =
      v.plan.bind planText := by
    rw [h.plan]
    cases v.plan <;> rfl
  simp only [OutboundTurns.viewOf, huser, hanswer, hplan]

/-- What is seen of a turn that is over. -/
def Seen.view (v : Seen) : TurnView :=
  ⟨v.user, v.answer.map Prod.fst, v.plan.bind planText, .completed⟩

/-- The end of the turn completes what is seen of it. -/
theorem Follows.settled_view (h : Follows f.lower subscription turnId s seen phases) :
    viewIn ((s.settleSelectedThreadTurn f.lower subscription.publicThreadId turnId).1.turnsOf
        subscription.publicThreadId) (subscription.publicThreadId ++ ":codex:" ++ turnId) =
      seen.map Seen.view := by
  have hturns := h.turns
  rw [ThreadProjection.settleSelectedThreadTurn]
  cases seen with
  | none =>
    simp only at hturns
    simp [hturns, viewIn]
  | some v =>
    obtain ⟨kept, hone, hkeptId, hexec, hshows⟩ := hturns
    have hview := hshows.viewOf
    rw [hone]
    simp only [ThreadProjection.isOpenTurn, hexec, any_cons, any_nil, map_cons,
      map_nil, decide_true, Bool.true_and, Bool.or_false]
    rcases hshows.status with hs | hs
    · simp only [hs, reduceCtorEq, decide_false, decide_true, Bool.or_true, if_true,
        ThreadProjection.turnsOf_setTurns_self]
      have hsettled : (ThreadProjection.settleTurn f.lower kept).turnId = kept.turnId := rfl
      simp [viewIn, hsettled, hkeptId, viewOf_settleTurn, hview, Seen.view]
    · simp only [hs, reduceCtorEq, decide_false, Bool.or_false, Bool.false_eq_true, if_false, hone]
      simp [viewIn, hkeptId, hview, hs, Seen.view]

theorem apply_turn_completed (turn : CodexTurn) (s : ThreadProjection) :
    s.applyCodexThreadTimelineEvent f tasks runs subscription
        ⟨"turn/completed", [("turn", .dict turn.record)], ""⟩ =
      s.settleSelectedThreadTurn f.lower subscription.publicThreadId turn.turnId := by
  have hid : (Fields.dict? [("turn", .dict turn.record)] "turn").bind
      (fun turn => nonempty? turn "id") = some turn.turnId := by
    simp [Fields.dict?, Value.dict?, CodexTurn.record, nonempty?, Fields.str?, Value.str?,
      text?, Option.filter, turn.turnId_ne]
  have hgoal : ["thread/goal/updated", "thread/goal/cleared"].contains "turn/completed" = false := by
    decide
  unfold ThreadProjection.applyCodexThreadTimelineEvent
  simp only [hgoal, Bool.false_eq_true, if_false, if_true, hid]

/-- The live reading of a turn: what its items show, completed. -/
theorem liveView_eq (hlower : LowersStatuses f.lower) (turn : CodexTurn)
    (h : Unseen subscription turn.turnId s) :
    liveView f tasks runs subscription s turn =
      (if (shownLive f.lower (fun _ => none) turn.finished).isEmpty then none
        else some (Seen.all f.lower (shownLive f.lower (fun _ => none) turn.finished))).map
          Seen.view := by
  have hstart : Follows f.lower subscription turn.turnId s none (fun _ => none) :=
    ⟨h.turns, h.phases⟩
  obtain ⟨phases, hitems⟩ := hstart.liveItems tasks runs hlower turn.turnId_ne turn.items
  rw [liveView, CodexTurn.events, applyEvents_append, ← Seen.foldl_add, CodexTurn.finished,
    ← hitems.settled_view]
  simp only [applyEvents, foldl_cons, foldl_nil, apply_turn_completed]

end live

/-! ## In the history -/

/-- The text of a message item of a role. -/
def itemText (role : ItemRole) (item : Fields) : Option String :=
  if !isPlanItem item && codexItemRole item = some role then extractCodexItemText item else none

def isCommentaryPhase (item : Fields) : Bool := item.str? "phase" = some "commentary"

def userTexts (items : List Fields) : List String := items.filterMap (itemText .user)

/-- The texts of the answers: the messages that are not marked as commentary. -/
def answerTexts (items : List Fields) : List String :=
  (items.filter fun item => !isCommentaryPhase item).filterMap (itemText .assistant)

/-- The last plan item, as a plan, unless it is empty. -/
def lastPlan (lower : String → String) (items : List Fields) : Option Fields :=
  (items.filter isPlanItem).getLast?.bind (extractCodexPlan lower)

def hasMessage (items : List Fields) : Bool := items.any fun item => (itemText .assistant item).isSome

variable {item : Fields}

theorem isPlanItem_iff : isPlanItem item = true ↔ item.str? "type" = some "plan" := by
  simp [isPlanItem]

variable {items : List Fields}

variable {scan : ItemScan}

section history

variable (thread : HistoryThread) (lower : String → String) (turnId : String)
  (timestamp : Option String)

/-- What the items come to. -/
structure Scanned (items : List Fields) (scan : ItemScan) : Prop where
  user : scan.user.map TimelineMessage.text = (userTexts items).getLast?.map some
  assistant : scan.assistant.map TimelineMessage.text = (answerTexts items).getLast?.map some
  plan : scan.plan = lastPlan lower items
  hasPlanItem : scan.hasPlanItem = items.any isPlanItem
  hasAssistantItem : scan.hasAssistantItem = hasMessage items

theorem filterMap_singleton {α β : Type*} (g : α → Option β) (a : α) :
    [a].filterMap g = (g a).toList := by
  cases h : g a <;> simp [h]

theorem getLast?_append_toList {α : Type*} (as : List α) (a : Option α) :
    (as ++ a.toList).getLast? = a.or as.getLast? := by
  cases a <;> simp

theorem userTexts_snoc (items : List Fields) (item : Fields) :
    (userTexts (items ++ [item])).getLast? = (itemText .user item).or (userTexts items).getLast? := by
  simp only [userTexts, filterMap_append, filterMap_singleton]
  exact getLast?_append_toList _ _

theorem answerTexts_snoc (items : List Fields) (item : Fields) :
    (answerTexts (items ++ [item])).getLast? =
      (if isCommentaryPhase item then none else itemText .assistant item).or
        (answerTexts items).getLast? := by
  simp only [answerTexts, filter_append, filterMap_append]
  cases hc : isCommentaryPhase item with
  | true => simp only [filter_cons, hc]; simp
  | false =>
    have hkept : [item].filter (fun item => !isCommentaryPhase item) = [item] := by simp [hc]
    rw [hkept, filterMap_singleton, if_neg (by simp)]
    exact getLast?_append_toList _ _

theorem hasMessage_snoc (items : List Fields) (item : Fields) :
    hasMessage (items ++ [item]) = (hasMessage items || (itemText .assistant item).isSome) := by
  simp [hasMessage]

theorem lastPlan_snoc_of_not (h : isPlanItem item = false) :
    lastPlan lower (items ++ [item]) = lastPlan lower items := by
  simp [lastPlan, filter_append, h]

theorem itemText_of_role {role : ItemRole} (hplan : isPlanItem item = false)
    (hrole : codexItemRole item = some role) (other : ItemRole) :
    itemText other item = if role = other then extractCodexItemText item else none := by
  simp [itemText, hplan, hrole]

/-- An item that leaves no message. -/
theorem Scanned.skip (h : Scanned lower items scan)
    (hplan : isPlanItem item = false) (huser : itemText .user item = none)
    (hassistant : itemText .assistant item = none) : Scanned lower (items ++ [item]) scan where
  user := by rw [userTexts_snoc, huser, none_or]; exact h.user
  assistant := by
    rw [answerTexts_snoc, hassistant, ite_self, none_or]
    exact h.assistant
  plan := by rw [lastPlan_snoc_of_not lower hplan]; exact h.plan
  hasPlanItem := by rw [any_append]; simpa [hplan] using h.hasPlanItem
  hasAssistantItem := by rw [hasMessage_snoc, hassistant]; simpa using h.hasAssistantItem

theorem Scanned.snoc (h : Scanned lower items scan)
    (item : Fields) (index : Nat) : Scanned lower (items ++ [item])
      (thread.scanItem lower turnId timestamp scan (.dict item, index)) := by
  simp only [HistoryThread.scanItem]
  cases hp : isPlanItem item with
  | true =>
    have hnone : ∀ role, itemText role item = none := fun role => by simp [itemText, hp]
    rw [if_pos (isPlanItem_iff.mp hp)]
    refine ⟨?_, ?_, ?_, ?_, ?_⟩
    · rw [userTexts_snoc, hnone, none_or]
      exact h.user
    · rw [answerTexts_snoc, hnone, ite_self, none_or]
      exact h.assistant
    · simp [lastPlan, filter_append, hp]
    · simp [hp]
    · rw [hasMessage_snoc, hnone]
      simpa using h.hasAssistantItem
  | false =>
    have hplan : lastPlan lower (items ++ [item]) = lastPlan lower items :=
      lastPlan_snoc_of_not lower hp
    have hany : (items ++ [item]).any isPlanItem = items.any isPlanItem := by simp [hp]
    rw [if_neg (by rw [← isPlanItem_iff, hp]; simp)]
    cases hrole : codexItemRole item with
    | none =>
      have hnone : ∀ role, itemText role item = none := fun role => by simp [itemText, hrole]
      exact h.skip lower hp (hnone _) (hnone _)
    | some role =>
      have htext := itemText_of_role hp hrole
      cases hextract : extractCodexItemText item with
      | none =>
        have hnone : ∀ role, itemText role item = none := fun other => by
          rw [htext, hextract, ite_self]
        cases role <;> exact h.skip lower hp (hnone _) (hnone _)
      | some text =>
        cases role with
        | user =>
          have huser : itemText .user item = some text := by simp [htext, hextract]
          have hassistant : itemText .assistant item = none := by simp [htext]
          refine ⟨?_, ?_, hplan ▸ h.plan, hany ▸ h.hasPlanItem, ?_⟩
          · rw [userTexts_snoc, huser]
            rfl
          · rw [answerTexts_snoc, hassistant, ite_self, none_or]
            exact h.assistant
          · rw [hasMessage_snoc, hassistant]
            simpa using h.hasAssistantItem
        | assistant =>
          have huser : itemText .user item = none := by simp [htext]
          have hassistant : itemText .assistant item = some text := by simp [htext, hextract]
          have hlast := answerTexts_snoc items item
          rw [hassistant] at hlast
          have husers : (userTexts (items ++ [item])).getLast? =
              (userTexts items).getLast? := by rw [userTexts_snoc, huser, none_or]
          have hmessage : hasMessage (items ++ [item]) = true := by
            rw [hasMessage_snoc, hassistant]
            simp
          simp only
          split_ifs with hphase
          · have hc : isCommentaryPhase item = true := by simp [isCommentaryPhase, hphase]
            rw [hc, if_pos rfl, none_or] at hlast
            exact ⟨husers ▸ h.user, hlast ▸ h.assistant, hplan ▸ h.plan,
              hany ▸ h.hasPlanItem, hmessage.symm⟩
          · have hc : isCommentaryPhase item = false := by simp [isCommentaryPhase, hphase]
            rw [hc, if_neg (by simp), some_or] at hlast
            exact ⟨husers ▸ h.user, hlast ▸ rfl, hplan ▸ h.plan,
              hany ▸ h.hasPlanItem, hmessage.symm⟩

/-- The items of a turn, read as a whole. -/
theorem scanned_scanItems (items : List Fields) :
    Scanned lower items (thread.scanItems lower turnId timestamp (items.map Value.dict)) := by
  rw [HistoryThread.scanItems]
  induction items using List.reverseRecOn with
  | nil => exact ⟨rfl, rfl, rfl, rfl, rfl⟩
  | append_singleton items item ih =>
    rw [map_append, zipIdx_append, foldl_append]
    exact ih.snoc thread lower turnId timestamp item _

theorem map_text_markSkill (skill : Option Value) (user : Option TimelineMessage) :
    (user.map (markSkill skill)).bind TimelineMessage.text = user.bind TimelineMessage.text := by
  cases user with
  | none => rfl
  | some message =>
    simp only [map_some, bind_some, markSkill]
    split <;> rfl

theorem map_text_markPlanMode (user : Option TimelineMessage) :
    (user.map markPlanMode).bind TimelineMessage.text = user.bind TimelineMessage.text := by
  cases user <;> rfl

/-- The reading of a turn that is more than a user message. -/
theorem viewOf_answeredTurn (turn : Fields) (found : ItemScan) (paired : Option TimelineMessage)
    (originalTurnId : Option String) :
    viewOf (thread.answeredTurn lower turn turnId timestamp found paired originalTurnId) =
      ⟨paired.bind TimelineMessage.text, found.assistant.bind TimelineMessage.text,
        found.plan.bind planText, HistoryThread.turnStatus lower turn⟩ := by
  have hplan : Dict.lookup (thread.answeredTurn lower turn turnId timestamp found paired
      originalTurnId).metadata "codex_plan" = some ((found.plan.map Value.dict).getD .null) := by
    simp only [HistoryThread.answeredTurn]
    cases found.hasPlanItem <;> simp [metadataOf, Dict.lookup_set]
  have hdict : ((found.plan.map Value.dict).getD .null).dict? = found.plan := by
    cases found.plan <;> rfl
  have huser : (thread.answeredTurn lower turn turnId timestamp found paired
      originalTurnId).user.bind TimelineMessage.text = paired.bind TimelineMessage.text := by
    simp only [HistoryThread.answeredTurn, map_text_markSkill]
    split_ifs
    · exact map_text_markPlanMode paired
    · rfl
  simp only [viewOf, hplan, hdict, huser, bind_some]
  rfl

end history

/-- The history lists the turn. -/
def listed (lower : String → String) (items : List Fields) : Bool :=
  !(userTexts items).isEmpty || !(answerTexts items).isEmpty || (lastPlan lower items).isSome

/-- The turn is a user message only. -/
def userOnly (items : List Fields) : Bool :=
  !(userTexts items).isEmpty && (answerTexts items).isEmpty && !items.any isPlanItem &&
    !hasMessage items

/-- The status that the history gives the turn: one with a user message only is completed. -/
def historyStatus (lower : String → String) (turn : CodexTurn) : TimelineStatus :=
  if userOnly turn.finished then .completed else HistoryThread.turnStatus lower turn.record

theorem isSome_filter_const {α : Type*} (a : Option α) (b : Bool) :
    (!a.isNone && b) = (a.filter fun _ => b).isSome := by
  cases a <;> cases b <;> rfl

/-- The loader and the live projection name a turn alike. -/
theorem turnId_baseTurn (subscription : ThreadSubscription) (goal : Option String)
    (turnId : String) : ((historyThread subscription goal).baseTurn turnId).turnId =
      subscription.publicThreadId ++ ":codex:" ++ turnId := by
  have hname : (":codex:" : String) = ":" ++ "codex" ++ ":" := by decide
  rw [hname]
  simp only [HistoryThread.baseTurn, historyThread, String.append_assoc]

theorem lastPlan_eq_none (h : items.any isPlanItem = false) : lastPlan lower items = none := by
  have hempty : items.filter isPlanItem = [] := by simpa using h
  rw [lastPlan, hempty]
  rfl

variable {texts : List String} {message : Option TimelineMessage}

theorem map_eq_none_iff_isEmpty
    (h : message.map TimelineMessage.text = texts.getLast?.map some) :
    message.isNone = texts.isEmpty := by
  cases texts with
  | nil => simpa using h
  | cons text texts =>
    cases message with
    | none => simp at h
    | some message => rfl

theorem bind_text_of_map
    (h : message.map TimelineMessage.text = texts.getLast?.map some) :
    message.bind TimelineMessage.text = texts.getLast? := by
  cases hm : message <;> cases ht : texts.getLast? <;> simp_all

theorem historyView_eq (f : Formats) (subscription : ThreadSubscription) (goal : Option String)
    (turn : CodexTurn) :
    historyView f subscription goal turn =
      if listed f.lower turn.finished then
        some ⟨(userTexts turn.finished).getLast?, (answerTexts turn.finished).getLast?,
          (lastPlan f.lower turn.finished).bind planText, historyStatus f.lower turn⟩
      else none := by
  have hitems : Fields.list? turn.record "items" = some (turn.finished.map Value.dict) := by
    simp [Fields.list?, CodexTurn.record]
    rfl
  have hid : nonempty? turn.record "id" = some turn.turnId := by
    simp [CodexTurn.record, nonempty?, Fields.str?, Value.str?, text?, Option.filter,
      turn.turnId_ne]
  have hscan := scanned_scanItems (historyThread subscription goal) f.lower turn.turnId
    (threadTimestampFromTurn f turn.record) turn.finished
  simp only [historyView, HistoryThread.timelineTurnsFromCodexThread, zipIdx_cons,
    zipIdx_nil, foldl_cons, foldl_nil, HistoryThread.scanTurn, hitems, hid,
    getD_some, HistoryThread.pairUser]
  generalize (historyThread subscription goal).scanItems f.lower turn.turnId
    (threadTimestampFromTurn f turn.record) (turn.finished.map Value.dict) = found at hscan ⊢
  have huser := map_eq_none_iff_isEmpty hscan.user
  have hassistant := map_eq_none_iff_isEmpty hscan.assistant
  have hlisted : listed f.lower turn.finished =
      !(found.user.isNone && found.assistant.isNone && found.plan.isNone) := by
    rw [listed, huser, hassistant, hscan.plan]
    cases (userTexts turn.finished).isEmpty <;> cases (answerTexts turn.finished).isEmpty <;>
      cases lastPlan f.lower turn.finished <;> rfl
  rw [hlisted]
  cases hnone : found.user.isNone && found.assistant.isNone && found.plan.isNone with
  | true => simp [HistoryThread.appendUserOnlyTurn, viewIn]
  | false =>
    simp only [Bool.false_eq_true, if_false, Bool.not_false, if_true]
    have honly : userOnly turn.finished = (found.user.filter fun _ => found.assistant.isNone &&
        !found.hasPlanItem && !found.hasAssistantItem).isSome := by
      rw [userOnly, ← hscan.hasPlanItem, ← hscan.hasAssistantItem, ← hassistant, ← huser]
      simp only [Bool.and_assoc]
      exact isSome_filter_const found.user _
    cases hfilter : found.user.filter fun _ => found.assistant.isNone && !found.hasPlanItem &&
        !found.hasAssistantItem with
    | some message =>
      rw [hfilter] at honly
      have hmessage := (filter_eq_some_iff.mp hfilter).1
      have hkind := (filter_eq_some_iff.mp hfilter).2
      simp only [Bool.and_eq_true, Bool.not_eq_true'] at hkind
      have hanswer : (answerTexts turn.finished).getLast? = none := by
        rw [← bind_text_of_map hscan.assistant, isNone_iff_eq_none.mp hkind.1.1]
        rfl
      have hplan : lastPlan f.lower turn.finished = none :=
        lastPlan_eq_none (hscan.hasPlanItem ▸ hkind.1.2)
      have hturnId := turnId_baseTurn subscription goal turn.turnId
      have htext := bind_text_of_map hscan.user
      rw [hmessage, bind_some] at htext
      have hmetadata : ∀ a b c d e : Value, Dict.lookup (metadataOf
          [("source", a), ("executor_thread_id", b), ("executor_turn_id", c),
            ("assistant_title", d), ("codex_goal", e)]) "codex_plan" = none := by
        intro a b c d e
        simp [metadataOf, Dict.lookup_set]
        rfl
      simp only [HistoryThread.appendUserOnlyTurn, nil_append, viewIn, List.find?_cons,
        hturnId, decide_true, map_some, viewOf, historyStatus, honly,
        isSome_some, if_true, hanswer, hplan, bind_none, bind_some,
        htext, hmetadata]
      rfl
    | none =>
      rw [hfilter] at honly
      have hturnId : ((historyThread subscription goal).answeredTurn f.lower turn.record
          turn.turnId (threadTimestampFromTurn f turn.record) found found.user none).turnId =
            subscription.publicThreadId ++ ":codex:" ++ turn.turnId :=
        turnId_baseTurn subscription goal turn.turnId
      simp only [HistoryThread.appendUserOnlyTurn, nil_append, viewIn, List.find?_cons,
        hturnId, decide_true, map_some, viewOf_answeredTurn, historyStatus, honly,
        isSome_none, Bool.false_eq_true, if_false, bind_text_of_map hscan.user,
        bind_text_of_map hscan.assistant, hscan.plan]

/-! ## When they agree -/

/-- The messages that are no commentary by what is recorded when they complete. -/
def liveAnswers : (String → Option String) → List Fields → List (String × String)
  | _, [] => []
  | phases, item :: rest =>
    let phases := recordItem phases item
    let answer := if commentaryItem phases item then none
      else (itemText .assistant item).map fun text => (text, ThreadProjection.itemStatus item)
    answer.toList ++ liveAnswers phases rest

def plans (lower : String → String) (items : List Fields) : List Fields :=
  (items.filter isPlanItem).filterMap (extractCodexPlan lower)

/-- The two readings of a turn are alike: what shows live is listed, the first user message is
the last, the message that settles the answer is the last that is no commentary, the last plan
with a content is the last plan, and the turn did not fail, stop or go on. -/
def ReadsAlike (lower : String → String) (turn : CodexTurn) : Prop :=
  (shownLive lower (fun _ => none) turn.finished ≠ [] → listed lower turn.finished = true) ∧
    (listed lower turn.finished = true →
      (userTexts turn.finished).head? = (userTexts turn.finished).getLast? ∧
      (Seen.settledAnswer lower (liveAnswers (fun _ => none) turn.finished)).map Prod.fst =
        (answerTexts turn.finished).getLast? ∧
      (plans lower turn.finished).getLast?.bind planText =
        (lastPlan lower turn.finished).bind planText ∧
      (userOnly turn.finished = true ∨
        HistoryThread.turnStatus lower turn.record = .completed))

theorem shownBy_parts (lower : String → String) (phases : String → Option String) (item : Fields) :
    (shownBy lower phases item).bind Seen.user = itemText .user item ∧
      (shownBy lower phases item).bind Seen.answer =
        (if commentaryItem phases item then none
          else (itemText .assistant item).map fun text =>
            (text, ThreadProjection.itemStatus item)) ∧
      (shownBy lower phases item).bind Seen.plan =
        if isPlanItem item then extractCodexPlan lower item else none := by
  unfold shownBy itemText
  cases hplan : isPlanItem item with
  | true => cases extractCodexPlan lower item <;> simp
  | false =>
    cases hrole : codexItemRole item with
    | none => simp
    | some role =>
      cases role <;> cases hcomm : commentaryItem phases item <;>
        cases extractCodexItemText item <;> simp [Seen.blank, Seen.ofMessage]

theorem filterMap_toList {α β : Type*} (g : α → Option β) (a : Option α) :
    a.toList.filterMap g = (a.bind g).toList := by
  cases a with
  | none => rfl
  | some a => exact filterMap_singleton g a

theorem filterMap_shownLive (lower : String → String) (phases : String → Option String)
    (items : List Fields) : (shownLive lower phases items).filterMap Seen.user = userTexts items ∧
      (shownLive lower phases items).filterMap Seen.answer = liveAnswers phases items ∧
      (shownLive lower phases items).filterMap Seen.plan = plans lower items := by
  induction items generalizing phases with
  | nil => exact ⟨rfl, rfl, rfl⟩
  | cons item rest ih =>
    obtain ⟨huser, hanswer, hplan⟩ := shownBy_parts lower (recordItem phases item) item
    obtain ⟨husers, hanswers, hplans⟩ := ih (recordItem phases item)
    simp only [shownLive, filterMap_append, filterMap_toList, huser, hanswer, hplan, husers,
      hanswers, hplans]
    refine ⟨?_, rfl, ?_⟩
    · cases h : itemText .user item <;> simp [userTexts, h]
    · cases h : isPlanItem item with
      | false => simp [plans, h]
      | true => cases hp : extractCodexPlan lower item <;> simp [plans, h, hp]

/-- What the history lists shows live. -/
theorem shownLive_ne_nil
    (h : listed lower items = true) : shownLive lower (fun _ => none) items ≠ [] := by
  intro hnil
  obtain ⟨husers, -, hplans⟩ := filterMap_shownLive lower (fun _ => none) items
  rw [hnil] at husers hplans
  have hanswers : ∀ (phases : String → Option String) (items : List Fields),
      shownLive lower phases items = [] → ∀ item ∈ items, itemText .assistant item = none := by
    intro phases items
    induction items generalizing phases with
    | nil => exact fun _ item hmem => absurd hmem not_mem_nil
    | cons first rest ih =>
      intro hshown item hmem
      rw [shownLive, append_eq_nil_iff] at hshown
      rcases mem_cons.mp hmem with rfl | hmem
      · have hnone : shownBy lower (recordItem phases item) item = none := by
          cases hs : shownBy lower (recordItem phases item) item with
          | none => rfl
          | some c => rw [hs] at hshown; exact absurd hshown.1 (by simp)
        unfold shownBy at hnone
        unfold itemText
        cases hplan : isPlanItem item with
        | true => rfl
        | false =>
          cases hrole : codexItemRole item with
          | none => rfl
          | some role => cases role <;> cases hc : commentaryItem (recordItem phases item) item <;>
              simp_all
      · exact ih _ hshown.2 item hmem
  have hanswerTexts : answerTexts items = [] := by
    rw [answerTexts, filterMap_eq_nil_iff]
    exact fun item hmem => hanswers _ items hnil item (mem_of_mem_filter hmem)
  have hlastPlan : lastPlan lower items = none := by
    rw [lastPlan]
    cases hlast : (items.filter isPlanItem).getLast? with
    | none => rfl
    | some item => exact filterMap_eq_nil_iff.mp hplans.symm item (mem_of_getLast? hlast)
  simp [listed, ← husers, hanswerTexts, hlastPlan] at h

theorem historyStatus_eq_completed_iff (lower : String → String) (turn : CodexTurn) :
    historyStatus lower turn = .completed ↔
      (userOnly turn.finished = true ∨
        HistoryThread.turnStatus lower turn.record = .completed) := by
  unfold historyStatus
  split_ifs with h <;> simp [h]

/-- The live reading of a turn is its reading in the history exactly if it reads alike. -/
theorem views_agree_iff (f : Formats) (hlower : LowersStatuses f.lower) (tasks : List Task)
    (runs : List ExecutionRun) (subscription : ThreadSubscription) (goal : Option String)
    (s : ThreadProjection) (turn : CodexTurn) (h : Unseen subscription turn.turnId s) :
    liveView f tasks runs subscription s turn = historyView f subscription goal turn ↔
      ReadsAlike f.lower turn := by
  obtain ⟨husers, hanswers, hplans⟩ := filterMap_shownLive f.lower (fun _ => none) turn.finished
  rw [liveView_eq tasks runs hlower turn h, historyView_eq, ReadsAlike]
  cases hlisted : listed f.lower turn.finished with
  | false => cases hshown : shownLive f.lower (fun _ => none) turn.finished <;> simp
  | true =>
    have hne : (shownLive f.lower (fun _ => none) turn.finished).isEmpty = false := by
      simpa using shownLive_ne_nil hlisted
    rw [← historyStatus_eq_completed_iff]
    simp only [hne, Bool.false_eq_true, if_false, if_true, map_some, Seen.view, Seen.all,
      husers, hanswers, hplans, some.injEq, TurnView.mk.injEq, ne_eq, true_implies,
      implies_true, true_and]
    rw [eq_comm (a := TimelineStatus.completed)]

/-! ## A turn that failed -/

def plainFormats : Formats where
  lower text := if text = "inProgress" then "inprogress" else text
  parse _ := ⊥
  isoFromEpochSeconds _ := none

def plainItem (item : Fields) : LiveItem where
  item := item
  started := none
  deltas := []
  start_of _ h := absurd h (by simp)
  delta_of h := absurd rfl h

/-- A question and an answer, with the status that the turn ended in. -/
def plainTurn (status : String) : CodexTurn where
  turnId := "turn-1"
  turnId_ne := by decide
  items := [plainItem [("type", .str "userMessage"), ("id", .str "u"), ("text", .str "Why?")],
    plainItem [("type", .str "agentMessage"), ("id", .str "a"), ("text", .str "So far.")]]
  rest := [("status", .str status)]

def plainSubscription : ThreadSubscription := ⟨"thread-1", "bro-1", "native-1"⟩

theorem completed_turn_agrees :
    liveView plainFormats [] [] plainSubscription .empty (plainTurn "completed") =
      historyView plainFormats plainSubscription none (plainTurn "completed") :=
  (views_agree_iff plainFormats ⟨by decide, by decide⟩ [] [] plainSubscription none .empty
    (plainTurn "completed") ⟨rfl, fun _ => rfl⟩).mpr (by
      refine ⟨fun _ => by decide, fun _ => ⟨by decide, by decide, by decide, .inr (by decide)⟩⟩)

/-- A turn that failed is completed live and failed in the history. -/
theorem failed_turn_differs :
    ¬ ∀ (f : Formats) (_ : LowersStatuses f.lower) (tasks : List Task) (runs : List ExecutionRun)
        (subscription : ThreadSubscription) (goal : Option String) (s : ThreadProjection)
        (turn : CodexTurn) (_ : Unseen subscription turn.turnId s),
      liveView f tasks runs subscription s turn = historyView f subscription goal turn := by
  intro h
  have heq := h plainFormats ⟨by decide, by decide⟩ [] [] plainSubscription none .empty
    (plainTurn "failed") ⟨rfl, fun _ => rfl⟩
  exact absurd heq (by decide)

end Newbro.OutboundTurns
