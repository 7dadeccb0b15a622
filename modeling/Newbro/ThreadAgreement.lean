import Newbro.ThreadViews

/-!
# When the two views of a turn agree

The events of all items of a turn, and the end of the turn, come to the join of what the items
show; the history comes to the last item of each kind. The two agree exactly for the turns
whose items read alike both ways.
-/
namespace Newbro.OutboundTurns

open Library Protocol BlockedRequests Option
open BroTimeline (text?)

variable {item : Fields}

section events

variable {f : Formats} (tasks : List Task) (runs : List ExecutionRun)
  {subscription : ThreadSubscription} {turnId : String} {s : ThreadProjection}
  {seen : Option Seen} {phases : String → Option String}

namespace Follows

theorem of_eq {s' : ThreadProjection} (h : Follows f.lower subscription turnId s seen phases)
    (hturns : s'.broThreadExecutorTurns = s.broThreadExecutorTurns)
    (hphases : s'.broThreadLiveItemPhase = s.broThreadLiveItemPhase) :
    Follows f.lower subscription turnId s' seen phases := by
  have hof : s'.turnsOf subscription.publicThreadId = s.turnsOf subscription.publicThreadId := by
    simp only [ThreadProjection.turnsOf, hturns]
  refine ⟨?_, fun itemId => by rw [hphases, h.phases]⟩
  rw [hof]
  exact h.turns

/-- An item that starts or completes. -/
theorem itemShown (hlower : LowersStatuses f.lower) (hturn : turnId ≠ "")
    (h : Follows f.lower subscription turnId s seen phases) {method : String}
    (hmethod : method = "item/started" ∨ method = "item/completed") (item : Fields) :
    Follows f.lower subscription turnId
      (s.applyCodexThreadTimelineEvent f tasks runs subscription
        (itemEvent turnId method item)).1
      (Seen.addOption f.lower seen (shownBy f.lower (recordItem phases item) item))
      (recordItem phases item) := by
  have hgoal : ["thread/goal/updated", "thread/goal/cleared"].contains method = false := by
    rcases hmethod with rfl | rfl <;> decide
  have hend : method ≠ "turn/completed" := by rcases hmethod with rfl | rfl <;> decide
  obtain ⟨here, hsub, hid, heq⟩ := apply_turn_event f tasks runs subscription s hturn method
    [("item", .dict item)] hgoal hend
  have hitem : Fields.dict? [("turnId", .str turnId), ("item", .dict item)] "item" = some item :=
    rfl
  rw [itemEvent, heq, ThreadProjection.applyTurnEvent]
  simp only [hitem]
  cases hplan : isPlanItem item with
  | true =>
    have htype : item.str? "type" = some "plan" := by simpa [isPlanItem] using hplan
    have hrec : recordItem phases item = phases := by
      unfold recordItem
      split
      · simp [hplan]
      · rfl
    rw [if_pos htype, hrec, shownBy, if_pos hplan]
    exact h.planItem hsub hid _ item
  | false =>
    have htype : ¬ item.str? "type" = some "plan" := by simpa [isPlanItem] using hplan
    rw [if_neg htype]
    exact h.messageItem hlower hsub hid hplan

end Follows

/-- The item that a delta names. -/
theorem deltaOf_deltaParams (turnId delta : String) (item : Fields) :
    ThreadProjection.deltaOf (deltaParams turnId item delta) =
      (nonempty? item "id").bind fun itemId => (text? (some delta)).map fun delta =>
        (itemId, delta) := by
  have hid : text? ((Value.orGet (some ((item.lookup "id").getD .null)) none).bind Value.str?) =
      nonempty? item "id" := by
    simp only [nonempty?, Fields.str?, Value.orGet]
    cases item.lookup "id" with
    | none => rfl
    | some value =>
      cases value with
      | str text =>
        by_cases htext : text = "" <;>
          simp [Value.truthy, htext, text?, Value.str?, Option.filter]
      | null => rfl
      | bool b => cases b <;> rfl
      | int i => by_cases hi : i = 0 <;> simp [Value.truthy, hi, text?, Value.str?]
      | list items => cases items <;> rfl
      | dict fields => cases fields <;> rfl
  have hitemId : (deltaParams turnId item delta).lookup "itemId" =
      some ((item.lookup "id").getD .null) := rfl
  have hnone : (deltaParams turnId item delta).lookup "item_id" = none := rfl
  have hdelta : nonempty? (deltaParams turnId item delta) "delta" = text? (some delta) := rfl
  rw [ThreadProjection.deltaOf, hitemId, hnone, hid, hdelta]
  cases nonempty? item "id" <;> cases text? (some delta) <;> rfl

theorem text?_of_nonempty {key text : String} (h : nonempty? item key = some text) :
    text? (some text) = some text := by
  have hne := (filter_eq_some_iff.mp h).2
  simpa [text?, Option.filter] using hne

namespace Follows

/-- A delta of an answer: nothing, a sign of life, or the text so far. -/
theorem messageDelta (hlower : LowersStatuses f.lower) (hturn : turnId ≠ "")
    (h : Follows f.lower subscription turnId s seen phases) (item : Fields) (delta : String) :
    ∃ b : Option Seen, Follows f.lower subscription turnId
        (s.applyCodexThreadTimelineEvent f tasks runs subscription
          ⟨"item/agentMessage/delta", deltaParams turnId item delta, ""⟩).1
        (Seen.addOption f.lower seen b) phases ∧
      ∀ c ∈ b, c = Seen.blank ∨ (commentaryItem phases item = false ∧
        ∃ text, c = ⟨none, some (text, "running"), none⟩) := by
  obtain ⟨here, hsub, hid, heq⟩ := apply_turn_event f tasks runs subscription s hturn
    "item/agentMessage/delta" _ (by decide) (by decide)
  have hitem : (deltaParams turnId item delta).dict? "item" = none := rfl
  rw [deltaParams, heq, ThreadProjection.applyTurnEvent, ← deltaParams]
  simp only [hitem]
  rw [if_neg (by decide), if_pos trivial, ThreadProjection.applyMessageDelta, deltaOf_deltaParams]
  cases hitemId : nonempty? item "id" with
  | none => exact ⟨none, h, fun c hc => absurd hc (by simp)⟩
  | some itemId =>
    cases htext : text? (some delta) with
    | none => exact ⟨none, h, fun c hc => absurd hc (by simp)⟩
    | some delta' =>
      have hcomm : s.isCommentary here (some itemId) = commentaryItem phases item := by
        rw [h.isCommentary_eq hsub hid, text?_of_nonempty hitemId, commentaryItem, hitemId]
      simp only [bind_some, map_some, hcomm]
      cases hc : commentaryItem phases item with
      | true =>
        refine ⟨some Seen.blank, h.keepLive hsub hid, fun c hmem => .inl ?_⟩
        exact (some.inj hmem).symm
      | false =>
        subst hsub hid
        refine ⟨some ⟨none, some ((s.broThreadLiveMessageDeltas.lookup
          (here.key itemId)).getD "" ++ delta', "running"), none⟩, ?_, fun c hmem =>
            .inr ⟨rfl, _, (some.inj hmem).symm⟩⟩
        simp only [Bool.false_eq_true, if_false]
        refine Follows.upsert (h.of_eq ?_ ?_) ⟨rfl, rfl, (shows_turn f.lower here).plan,
          .inl rfl, fun hsettled => absurd hsettled ?_⟩ rfl rfl rfl
        · rfl
        · rfl
        · simp [Seen.settled, streamingStatus_running hlower]

/-- A delta of a plan: nothing, or the text so far. -/
theorem planDelta (hturn : turnId ≠ "")
    (h : Follows f.lower subscription turnId s seen phases) (item : Fields) (delta : String) :
    ∃ b : Option Seen, Follows f.lower subscription turnId
        (s.applyCodexThreadTimelineEvent f tasks runs subscription
          ⟨"item/plan/delta", deltaParams turnId item delta, ""⟩).1
        (Seen.addOption f.lower seen b) phases ∧
      ∀ c ∈ b, ∃ plan, c = ⟨none, none, some plan⟩ := by
  obtain ⟨here, hsub, hid, heq⟩ := apply_turn_event f tasks runs subscription s hturn
    "item/plan/delta" _ (by decide) (by decide)
  have hitem : (deltaParams turnId item delta).dict? "item" = none := rfl
  rw [deltaParams, heq, ThreadProjection.applyTurnEvent, ← deltaParams]
  simp only [hitem]
  rw [if_pos trivial, ThreadProjection.applyPlanDelta, deltaOf_deltaParams]
  cases hitemId : nonempty? item "id" with
  | none => exact ⟨none, h, fun c hc => absurd hc (by simp)⟩
  | some itemId =>
    cases htext : text? (some delta) with
    | none => exact ⟨none, h, fun c hc => absurd hc (by simp)⟩
    | some delta' =>
      subst hsub hid
      simp only [bind_some, map_some]
      split_ifs
      · exact ⟨none, h.of_eq rfl rfl, fun c hc => absurd hc (by simp)⟩
      · let plan : Fields := [("text", .str ((s.broThreadLivePlanDeltas.lookup
          (here.key itemId)).getD "" ++ delta')), ("steps", .list [])]
        refine ⟨some ⟨none, none, some plan⟩, ?_, fun c hmem => ⟨plan, (some.inj hmem).symm⟩⟩
        refine Follows.upsert (h.of_eq ?_ ?_) ⟨rfl, rfl, ?_, .inl rfl, fun hsettled =>
          absurd hsettled (by simp [Seen.settled])⟩ rfl rfl rfl
        · rfl
        · rfl
        · simp [EventTurn.metadata, metadataOf, Dict.lookup_set, plan]

end Follows

end events

/-! ## The events of an item -/

/-- A text makes a plan. -/
theorem extractCodexPlan_isSome (lower : String → String)
    (h : (extractCodexItemText item).isSome) : (extractCodexPlan lower item).isSome := by
  obtain ⟨text, htext⟩ := isSome_iff_exists.mp h
  simp [extractCodexPlan, htext]

variable {phases : String → Option String}

/-- The item has an answer in the end, unless it is commentary by what is recorded then. -/
theorem shownBy_answer {lower : String → String}
    (hplan : isPlanItem item = false) (hrole : codexItemRole item = some .assistant)
    (hcomm : commentaryItem phases item = false) (htext : (extractCodexItemText item).isSome) :
    ∃ c, shownBy lower phases item = some c ∧ c.answer.isSome := by
  obtain ⟨text, htext⟩ := isSome_iff_exists.mp htext
  exact ⟨Seen.ofMessage .assistant item text, by simp [shownBy, hplan, hrole, hcomm, htext], rfl⟩

theorem commentary_recordItem {live : LiveItem}
    (hplan : isPlanItem live.item = false) (hrole : codexItemRole live.item = some .assistant)
    (hdelta : live.deltas ≠ []) (hstart : live.started = none)
    (hcomm : commentaryItem phases live.item = false) :
    commentaryItem (recordItem phases live.item) live.item = false := by
  obtain ⟨-, hkind⟩ := live.delta_of hdelta
  obtain ⟨-, -, hphase⟩ := hkind.resolve_left (by simp [hplan])
  have hne : nonempty? live.item "phase" ≠ some "commentary" := by
    intro hc
    have hsome := hphase hc
    rw [hstart] at hsome
    exact absurd hsome (by simp)
  unfold commentaryItem recordItem
  unfold commentaryItem at hcomm
  cases hid : nonempty? live.item "id" with
  | none => rfl
  | some itemId =>
    rw [hid] at hcomm
    cases hp : nonempty? live.item "phase" with
    | none => exact hcomm
    | some phase =>
      rw [hp] at hne
      simp only [hplan, Bool.not_false, Bool.true_and, hrole, decide_true, if_true, any_some]
      simpa using hne

section items

variable {f : Formats} (tasks : List Task) (runs : List ExecutionRun)
  {subscription : ThreadSubscription} {turnId : String} {s : ThreadProjection}
  {seen : Option Seen} {phases : String → Option String}

/-- The projection after some events. -/
def applyEvents (f : Formats) (tasks : List Task) (runs : List ExecutionRun)
    (subscription : ThreadSubscription) (s : ThreadProjection) (events : List CodexThreadEvent) :
    ThreadProjection :=
  events.foldl (fun s event => (s.applyCodexThreadTimelineEvent f tasks runs subscription event).1)
    s

theorem applyEvents_append (subscription : ThreadSubscription) (s : ThreadProjection) (events events' : List CodexThreadEvent) :
    applyEvents f tasks runs subscription s (events ++ events') =
      applyEvents f tasks runs subscription
        (applyEvents f tasks runs subscription s events) events' := List.foldl_append

/-- Deltas leave no trace that the item does not replace. -/
theorem Follows.deltas {method : String} {c : Seen}
    (hdelta : ∀ s seen delta, Follows f.lower subscription turnId s seen phases →
      ∃ b : Option Seen, Follows f.lower subscription turnId
          (s.applyCodexThreadTimelineEvent f tasks runs subscription
            ⟨method, deltaParams turnId item delta, ""⟩).1 (Seen.addOption f.lower seen b) phases ∧
        ∀ b' ∈ b, Seen.ReplacedBy f.lower b' c)
    (h : Follows f.lower subscription turnId s seen phases) (deltas : List String) :
    ∃ seen', Follows f.lower subscription turnId
        (applyEvents f tasks runs subscription s
          (deltas.map fun delta => ⟨method, deltaParams turnId item delta, ""⟩)) seen' phases ∧
      Seen.add f.lower seen' c = Seen.add f.lower seen c := by
  induction deltas generalizing s seen with
  | nil => exact ⟨seen, h, rfl⟩
  | cons delta deltas ih =>
    obtain ⟨b, hb, hreplaced⟩ := hdelta s seen delta h
    obtain ⟨seen', hseen', heq⟩ := ih hb
    refine ⟨seen', hseen', heq.trans ?_⟩
    cases b with
    | none => rfl
    | some b' => exact Seen.add_add (hreplaced b' rfl) seen

/-- The deltas of an item, once its start was seen or not. -/
theorem Follows.itemDeltas (hlower : LowersStatuses f.lower) (hturn : turnId ≠ "")
    (live : LiveItem)
    (hphases : live.started.isSome → phases = recordItem phases live.item)
    (h : Follows f.lower subscription turnId s seen phases) :
    ∃ seen', Follows f.lower subscription turnId
        (applyEvents f tasks runs subscription s (live.deltas.map fun delta =>
          ⟨if isPlanItem live.item then "item/plan/delta" else "item/agentMessage/delta",
            deltaParams turnId live.item delta, ""⟩)) seen' phases ∧
      Seen.addOption f.lower seen' (shownBy f.lower (recordItem phases live.item) live.item) =
        Seen.addOption f.lower seen
          (shownBy f.lower (recordItem phases live.item) live.item) := by
  by_cases hnone : live.deltas = []
  · rw [hnone]
    exact ⟨seen, h, rfl⟩
  · obtain ⟨htext, hkind⟩ := live.delta_of hnone
    cases hplan : isPlanItem live.item with
    | true =>
      obtain ⟨plan, hextract⟩ := isSome_iff_exists.mp (extractCodexPlan_isSome f.lower htext)
      have hshown : shownBy f.lower (recordItem phases live.item) live.item =
          some ⟨none, none, some plan⟩ := by simp [shownBy, hplan, hextract]
      rw [hshown]
      refine Follows.deltas tasks runs (fun s seen delta h => ?_) h live.deltas
      obtain ⟨b, hb, hb'⟩ := h.planDelta tasks runs hturn live.item delta
      refine ⟨b, hb, fun b' hmem => ?_⟩
      obtain ⟨plan', rfl⟩ := hb' b' hmem
      exact ⟨.inl rfl, .inl rfl, .inr rfl⟩
    | false =>
      have hrole := (hkind.resolve_left (by simp [hplan])).1
      have hmessage : ∀ c, shownBy f.lower (recordItem phases live.item) live.item = some c →
          (commentaryItem phases live.item = false → c.answer.isSome) →
          ∃ seen', Follows f.lower subscription turnId
              (applyEvents f tasks runs subscription s (live.deltas.map fun delta =>
                ⟨"item/agentMessage/delta", deltaParams turnId live.item delta, ""⟩))
              seen' phases ∧ Seen.add f.lower seen' c = Seen.add f.lower seen c := by
        intro c _ hanswer
        refine Follows.deltas tasks runs (fun s seen delta h => ?_) h live.deltas
        obtain ⟨b, hb, hb'⟩ := h.messageDelta tasks runs hlower hturn
          live.item delta
        refine ⟨b, hb, fun b' hmem => ?_⟩
        rcases hb' b' hmem with rfl | ⟨hcomm, text, rfl⟩
        · exact ⟨.inl rfl, .inl rfl, .inl rfl⟩
        · refine ⟨.inl rfl, .inr (.inr ⟨?_, hanswer hcomm⟩), .inl rfl⟩
          simp [Seen.streams, streamingStatus_running hlower]
      cases hend : commentaryItem (recordItem phases live.item) live.item with
      | false =>
        obtain ⟨c, hc, hanswer⟩ : ∃ c, shownBy f.lower (recordItem phases live.item) live.item =
            some c ∧ c.answer.isSome := shownBy_answer hplan hrole hend htext
        rw [hc]
        exact hmessage c hc fun _ => hanswer
      | true =>
        have hc : shownBy f.lower (recordItem phases live.item) live.item =
            some Seen.blank := by simp [shownBy, hplan, hrole, hend]
        rw [hc]
        refine hmessage _ hc fun hcomm => ?_
        exfalso
        cases hstart : live.started with
        | none =>
          rw [commentary_recordItem hplan hrole hnone hstart hcomm] at hend
          exact absurd hend (by simp)
        | some start =>
          rw [← hphases (by rw [hstart]; rfl), hcomm] at hend
          exact absurd hend (by simp)

/-- All events of an item come to what it shows. -/
theorem Follows.liveItem (hlower : LowersStatuses f.lower) (hturn : turnId ≠ "")
    (live : LiveItem) (h : Follows f.lower subscription turnId s seen phases) :
    Follows f.lower subscription turnId
      (applyEvents f tasks runs subscription s (live.events turnId))
      (Seen.addOption f.lower seen (shownBy f.lower (recordItem phases live.item) live.item))
      (recordItem phases live.item) := by
  rw [LiveItem.events, applyEvents_append, applyEvents_append]
  obtain ⟨phases', seen', hstart, hphases, hrecord, hshown⟩ :
      ∃ phases' seen', Follows f.lower subscription turnId
          (applyEvents f tasks runs subscription s
            (live.started.map fun start => itemEvent turnId "item/started" start).toList)
          seen' phases' ∧
        (live.started.isSome → phases' = recordItem phases' live.item) ∧
        recordItem phases' live.item = recordItem phases live.item ∧
        Seen.addOption f.lower seen' (shownBy f.lower (recordItem phases live.item) live.item) =
          Seen.addOption f.lower seen
            (shownBy f.lower (recordItem phases live.item) live.item) := by
    cases hstarted : live.started with
    | none => exact ⟨phases, seen, h, by simp, rfl, rfl⟩
    | some start =>
      have hof := live.start_of start hstarted
      have hstart := h.itemShown tasks runs hlower hturn (.inl rfl) start
      rw [recordItem_start hof] at hstart
      refine ⟨_, _, hstart, fun _ => (recordItem_recordItem _ _).symm,
        recordItem_recordItem _ _, ?_⟩
      exact addOption_start hof _ _
  obtain ⟨seen'', hdeltas, heq⟩ := hstart.itemDeltas tasks runs hlower hturn
    live hphases
  have hend := hdeltas.itemShown tasks runs hlower hturn (.inr rfl) live.item
  rw [hrecord] at heq hend
  rw [heq, hshown] at hend
  exact hend

end items

end Newbro.OutboundTurns
