import Newbro.TurnReadings

/-!
# Pairing in the history of a thread

A turn with a user message only waits for a later turn that answers it, and the loader lists
both as one. Every message is to be listed once, in its order, and an answer goes with the user
message right before it. This holds but where a turn of a user message and a plan, without a
message of the assistant, follows a turn that waits: the plan is listed, the other goes on waiting.
-/
namespace Newbro.HistoryPairing

open Library Protocol BlockedRequests OutboundTurns Option List

/-! ## The turns that are read -/

/-- A user message among the items of a turn. -/
def userItem? (thread : HistoryThread) (turnId : String) (timestamp : Option String)
    (entry : Value × Nat) : Option TimelineMessage :=
  match entry.1 with
  | .dict item =>
    if Fields.str? item "type" = some "plan" then none
    else
      match codexItemRole item, extractCodexItemText item with
      | some .user, some text => some (thread.message turnId timestamp .user entry.2 item text)
      | _, _ => none
  | _ => none

/-- A message of the assistant that is no commentary. -/
def answerItem? (thread : HistoryThread) (turnId : String) (timestamp : Option String)
    (entry : Value × Nat) : Option TimelineMessage :=
  match entry.1 with
  | .dict item =>
    if Fields.str? item "type" = some "plan" ∨ Fields.str? item "phase" = some "commentary" then
      none
    else
      match codexItemRole item, extractCodexItemText item with
      | some .assistant, some text =>
        some (thread.message turnId timestamp .assistant entry.2 item text)
      | _, _ => none
  | _ => none

/-- A turn of the thread with a list of items. -/
structure ReadTurn where
  record : Fields
  turnId : String
  timestamp : Option String
  items : List Value

def readTurn? (f : Formats) (entry : Value × Nat) : Option ReadTurn :=
  match entry.1 with
  | .dict record =>
    (Fields.list? record "items").map fun items =>
      ⟨record, (nonempty? record "id").getD ("turn-" ++ toString entry.2),
        threadTimestampFromTurn f record, items⟩
  | _ => none

/-- The turns of a thread, in its order. -/
def readTurns (f : Formats) (turns : List Value) : List ReadTurn :=
  turns.zipIdx.filterMap (readTurn? f)

namespace ReadTurn

variable (thread : HistoryThread) (f : Formats) (turn : ReadTurn)

/-- The last user message. -/
def user : Option TimelineMessage :=
  (turn.items.zipIdx.filterMap (userItem? thread turn.turnId turn.timestamp)).getLast?

/-- The last message of the assistant that is no commentary. -/
def answer : Option TimelineMessage :=
  (turn.items.zipIdx.filterMap (answerItem? thread turn.turnId turn.timestamp)).getLast?

def found : ItemScan := thread.scanItems f.lower turn.turnId turn.timestamp turn.items

def plan : Option Fields := (turn.found thread f).plan

def hasPlanItem : Bool := (turn.found thread f).hasPlanItem

def hasAssistantItem : Bool := (turn.found thread f).hasAssistantItem

/-- Neither a message nor a plan. -/
def silent : Bool :=
  (turn.user thread).isNone && (turn.answer thread).isNone && (turn.plan thread f).isNone

/-- A user message, and no item of the assistant. -/
def userOnly : Bool :=
  (turn.user thread).isSome && (turn.answer thread).isNone && !turn.hasPlanItem thread f &&
    !turn.hasAssistantItem thread f

/-- A user message and a plan item, and no message item of the assistant. -/
def planOnly : Bool :=
  (turn.user thread).isSome && (turn.answer thread).isNone && turn.hasPlanItem thread f &&
    !turn.hasAssistantItem thread f

end ReadTurn

/-! ## What a history is to show -/

/-- A message without the marks of plan mode and skill. -/
def unmarked (message : TimelineMessage) : TimelineMessage :=
  { message with metadata := Table.empty }

def shownPlan (turn : TimelineTurn) : Option Fields :=
  (Dict.lookup turn.metadata "codex_plan").bind Value.dict?

section Property

variable (thread : HistoryThread) (f : Formats)

/-- A listed turn shows a user message and what a turn of the thread has besides. -/
structure Lists (shown : TimelineTurn) (asked : Option TimelineMessage) (turn : ReadTurn) :
    Prop where
  turnId : shown.executorTurnId = some turn.turnId
  user : shown.user.map unmarked = asked.map unmarked
  answer : shown.assistant = turn.answer thread
  plan : shownPlan shown = turn.plan thread f
  planMode : Dict.lookup shown.metadata "plan_mode" =
    if turn.hasPlanItem thread f then some (.bool true) else none

/-- Every turn that is not silent is listed once and in its order, on its own, or, with a user
message only, together with the answer or plan that comes next, nothing else in between. -/
inductive Pairing : List ReadTurn → List TimelineTurn → Prop where
  | nil : Pairing [] []
  | silent {turn turns listed} : turn.silent thread f = true → Pairing turns listed →
      Pairing (turn :: turns) listed
  | alone {turn turns shown listed} : Lists thread f shown (turn.user thread) turn →
      Pairing turns listed → Pairing (turn :: turns) (shown :: listed)
  | paired {asked between turn turns shown listed} : asked.userOnly thread f = true →
      (∀ other ∈ between, other.silent thread f = true) → turn.silent thread f = false →
      turn.user thread = none → Lists thread f shown (asked.user thread) turn →
      Pairing turns listed → Pairing (asked :: (between ++ turn :: turns)) (shown :: listed)

/-- The history loses and mixes nothing. -/
structure KeepsHistory (turns : List ReadTurn) (listed : List TimelineTurn) : Prop where
  users : listed.filterMap (fun shown => shown.user.map unmarked) =
    turns.filterMap fun turn => (turn.user thread).map unmarked
  answers : listed.filterMap TimelineTurn.assistant = turns.filterMap (ReadTurn.answer thread)
  pairing : Pairing thread f turns listed

/-- A turn of a user message and a plan item comes while a user message waits. -/
def PlanOvertakes (turns : List ReadTurn) : Prop :=
  ∃ before asked between turn after, turns = before ++ asked :: (between ++ turn :: after) ∧
    asked.userOnly thread f = true ∧ (∀ other ∈ between, other.silent thread f = true) ∧
    turn.planOnly thread f = true

end Property

/-! ## The items of a turn -/

section Items

variable (thread : HistoryThread) (lower : String → String) (turnId : String)
  (timestamp : Option String)

theorem user_scanItem (scan : ItemScan) (entry : Value × Nat) :
    (thread.scanItem lower turnId timestamp scan entry).user =
      (userItem? thread turnId timestamp entry).or scan.user := by
  unfold HistoryThread.scanItem userItem?
  cases entry.1 with
  | dict item =>
    by_cases hplan : Fields.str? item "type" = some "plan"
    · simp [hplan]
    · simp only [hplan, if_false]
      cases codexItemRole item with
      | none => rfl
      | some role =>
        cases extractCodexItemText item with
        | none => cases role <;> rfl
        | some text =>
          cases role with
          | user => rfl
          | assistant => simp only [none_or]; split <;> rfl
  | null | bool | int | str | list => rfl

theorem assistant_scanItem (scan : ItemScan) (entry : Value × Nat) :
    (thread.scanItem lower turnId timestamp scan entry).assistant =
      (answerItem? thread turnId timestamp entry).or scan.assistant := by
  unfold HistoryThread.scanItem answerItem?
  cases entry.1 with
  | dict item =>
    by_cases hplan : Fields.str? item "type" = some "plan"
    · simp [hplan]
    · simp only [hplan, if_false, false_or]
      cases codexItemRole item with
      | none => simp
      | some role =>
        cases extractCodexItemText item with
        | none => cases role <;> simp
        | some text =>
          by_cases hphase : Fields.str? item "phase" = some "commentary" <;>
            cases role <;> simp [hphase]
  | null | bool | int | str | list => rfl

theorem plan_scanItem {scan : ItemScan} (h : scan.plan.isSome = true → scan.hasPlanItem = true)
    (entry : Value × Nat) : (thread.scanItem lower turnId timestamp scan entry).plan.isSome = true →
      (thread.scanItem lower turnId timestamp scan entry).hasPlanItem = true := by
  unfold HistoryThread.scanItem
  cases entry.1 with
  | dict item =>
    by_cases hplan : Fields.str? item "type" = some "plan"
    · simp [hplan]
    · simp only [hplan, if_false]
      split
      · exact h
      · split <;> exact h
      · exact h
  | null | bool | int | str | list => exact h

/-- What the items come to, message by message: a fold that takes the last is the last. -/
theorem foldl_or_eq_getLast? {α β γ : Type*} {step : γ → α → γ} (view : γ → Option β)
    {read : α → Option β} (h : ∀ c a, view (step c a) = (read a).or (view c)) (as : List α)
    (c : γ) : view (as.foldl step c) = (as.filterMap read).getLast?.or (view c) := by
  induction as generalizing c with
  | nil => rfl
  | cons a as ih =>
    rw [foldl_cons, ih, h]
    cases hr : read a with
    | none => simp [hr]
    | some b =>
      rw [filterMap_cons_some hr]
      cases as.filterMap read <;> simp [List.getLast?_cons]

end Items

section Found

variable (thread : HistoryThread) (f : Formats) (turn : ReadTurn)

theorem user_found : (turn.found thread f).user = turn.user thread := by
  have h := foldl_or_eq_getLast? ItemScan.user
    (user_scanItem thread f.lower turn.turnId turn.timestamp) turn.items.zipIdx ItemScan.empty
  have hempty : ItemScan.empty.user = none := rfl
  rw [hempty, or_none] at h
  exact h

theorem assistant_found : (turn.found thread f).assistant = turn.answer thread := by
  have h := foldl_or_eq_getLast? ItemScan.assistant
    (assistant_scanItem thread f.lower turn.turnId turn.timestamp) turn.items.zipIdx
    ItemScan.empty
  have hempty : ItemScan.empty.assistant = none := rfl
  rw [hempty, or_none] at h
  exact h

/-- By induction on the items: a plan comes from a plan item. -/
theorem hasPlanItem_of_plan (h : (turn.plan thread f).isSome = true) :
    turn.hasPlanItem thread f = true := by
  have hfold : ∀ (items : List (Value × Nat)) (scan : ItemScan),
      (scan.plan.isSome = true → scan.hasPlanItem = true) →
        (items.foldl (thread.scanItem f.lower turn.turnId turn.timestamp) scan).plan.isSome = true →
        (items.foldl (thread.scanItem f.lower turn.turnId turn.timestamp) scan).hasPlanItem =
          true := by
    intro items
    induction items with
    | nil => exact fun _ hscan => hscan
    | cons entry items ih =>
      exact fun scan hscan => ih _ (plan_scanItem thread f.lower turn.turnId turn.timestamp
        hscan entry)
  exact hfold _ ItemScan.empty (by simp [ItemScan.empty]) h

end Found

/-! ## One turn of the scan -/

variable {asked : Option TimelineMessage} {between turns : List ReadTurn}
   {listed : List TimelineTurn}

section Step

variable (thread : HistoryThread) (f : Formats)

/-- What the loader does with a turn that has items. -/
def stepTurn (scan : HistoryScan) (turn : ReadTurn) : HistoryScan :=
  let found := turn.found thread f
  if found.user.isNone && found.assistant.isNone && found.plan.isNone then scan
  else
    match found.user.filter fun _ => found.assistant.isNone && !found.hasPlanItem &&
        !found.hasAssistantItem with
    | some message =>
      ⟨(thread.appendUserOnlyTurn scan).turns, some ⟨message, turn.turnId, turn.timestamp⟩⟩
    | none =>
      let (scan, paired, originalTurnId) := thread.pairUser scan found
      ⟨scan.turns ++ [thread.answeredTurn f.lower turn.record turn.turnId turn.timestamp found
        paired originalTurnId], scan.pending⟩

theorem scanTurn_eq (scan : HistoryScan) (entry : Value × Nat) :
    thread.scanTurn f scan entry = match readTurn? f entry with
      | some turn => stepTurn thread f scan turn
      | none => scan := by
  unfold HistoryThread.scanTurn readTurn?
  cases entry.1 with
  | dict record =>
    cases hitems : Fields.list? record "items" with
    | none => simp only [hitems, map_none]
    | some items =>
      simp only [hitems, map_some]
      rfl
  | null | bool | int | str | list => rfl

/-- The loader goes through the turns that have items. -/
theorem timelineTurns_eq (turns : List Value) : thread.timelineTurnsFromCodexThread f turns =
      (thread.appendUserOnlyTurn
        ((readTurns f turns).foldl (stepTurn thread f) ⟨[], none⟩)).turns := by
  rw [HistoryThread.timelineTurnsFromCodexThread, readTurns, foldl_filterMap]
  congr 3
  funext scan entry
  rw [scanTurn_eq]
  cases readTurn? f entry <;> rfl

variable {thread f} {scan : HistoryScan} {turn : ReadTurn}

theorem stepTurn_of_silent (h : turn.silent thread f = true) :
    stepTurn thread f scan turn = scan := by
  have hnone : ((turn.found thread f).user.isNone && (turn.found thread f).assistant.isNone &&
      (turn.found thread f).plan.isNone) = true := by
    rw [user_found, assistant_found]
    exact h
  simp [stepTurn, hnone]

theorem stepTurn_of_userOnly (scan : HistoryScan) (h : turn.userOnly thread f = true) :
    ∃ message, turn.user thread = some message ∧ stepTurn thread f scan turn =
      ⟨(thread.appendUserOnlyTurn scan).turns, some ⟨message, turn.turnId, turn.timestamp⟩⟩ := by
  simp only [ReadTurn.userOnly, Bool.and_eq_true, Bool.not_eq_true', isSome_iff_exists]
    at h
  obtain ⟨⟨⟨⟨message, hmessage⟩, hanswer⟩, hplan⟩, hitem⟩ := h
  refine ⟨message, hmessage, ?_⟩
  rw [← assistant_found thread f] at hanswer
  have huser : (turn.found thread f).user = some message := by rw [user_found, hmessage]
  simp only [ReadTurn.hasPlanItem, ReadTurn.hasAssistantItem] at hplan hitem
  simp [stepTurn, huser, hanswer, hplan, hitem, Option.filter]

/-- A turn that is neither silent nor a user message only is listed at once. -/
theorem stepTurn_of_listed (hsilent : turn.silent thread f = false)
    (honly : turn.userOnly thread f = false) :
    stepTurn thread f scan turn =
      let (scan, paired, originalTurnId) := thread.pairUser scan (turn.found thread f)
      ⟨scan.turns ++ [thread.answeredTurn f.lower turn.record turn.turnId turn.timestamp
        (turn.found thread f) paired originalTurnId], scan.pending⟩ := by
  have hnone : ((turn.found thread f).user.isNone && (turn.found thread f).assistant.isNone &&
      (turn.found thread f).plan.isNone) = false := by
    rw [user_found, assistant_found]
    exact hsilent
  have hfilter : ((turn.found thread f).user.filter fun _ =>
      (turn.found thread f).assistant.isNone && !(turn.found thread f).hasPlanItem &&
        !(turn.found thread f).hasAssistantItem) = none := by
    rw [user_found, assistant_found]
    cases hu : turn.user thread with
    | none => rfl
    | some message =>
      simpa [ReadTurn.userOnly, ReadTurn.hasPlanItem, ReadTurn.hasAssistantItem, hu,
        Option.filter] using honly
  simp only [stepTurn, hnone, hfilter]
  rfl

theorem map_unmarked_markSkill (skill : Option Value) (user : Option TimelineMessage) :
    (user.map (markSkill skill)).map unmarked = user.map unmarked := by
  cases user with
  | none => rfl
  | some message =>
    simp only [map_some, markSkill]
    split <;> rfl

theorem map_unmarked_markPlanMode (user : Option TimelineMessage) :
    (user.map markPlanMode).map unmarked = user.map unmarked := by
  cases user <;> rfl

theorem lookup_empty (key : String) : Dict.lookup (Table.empty : Metadata) key = none := rfl

/-- A turn that is listed at once, with the user message that goes with it. -/
theorem lists_answeredTurn {paired : Option TimelineMessage}
    (h : paired.map unmarked = asked.map unmarked) (originalTurnId : Option String) :
    Lists thread f (thread.answeredTurn f.lower turn.record turn.turnId turn.timestamp
      (turn.found thread f) paired originalTurnId) asked turn where
  turnId := rfl
  user := by
    simp only [HistoryThread.answeredTurn, map_unmarked_markSkill]
    split_ifs
    · rw [map_unmarked_markPlanMode, h]
    · exact h
  answer := assistant_found thread f turn
  plan := by
    have hdict : (((turn.found thread f).plan.map Value.dict).getD .null).dict? =
        (turn.found thread f).plan := by
      cases (turn.found thread f).plan <;> rfl
    simp only [shownPlan, HistoryThread.answeredTurn, ReadTurn.plan]
    cases (turn.found thread f).hasPlanItem <;> simpa [metadataOf, Dict.lookup_set] using hdict
  planMode := by
    simp only [HistoryThread.answeredTurn, ReadTurn.hasPlanItem]
    by_cases hplan : (turn.found thread f).hasPlanItem = true
    · simp [hplan, metadataOf]
    · simp [hplan, metadataOf, Dict.lookup_set, lookup_empty]

/-- What waits in the scan, and the turns that it stands for. -/
inductive Waits (thread : HistoryThread) (f : Formats) : Option PendingUser → List ReadTurn → Prop
  | nothing : Waits thread f none []
  | user {asked : ReadTurn} {message between} : asked.userOnly thread f = true →
      asked.user thread = some message →
      (∀ other ∈ between, other.silent thread f = true) →
      Waits thread f (some ⟨message, asked.turnId, asked.timestamp⟩) (asked :: between)

theorem pairing_silent (hsilent : ∀ other ∈ between, other.silent thread f = true)
    (h : Pairing thread f turns listed) : Pairing thread f (between ++ turns) listed := by
  induction between with
  | nil => exact h
  | cons other between ih =>
    exact .silent (hsilent other (by simp))
      (ih fun later hlater => hsilent later (mem_cons_of_mem other hlater))

/-- What waits is listed on its own. -/
theorem pairing_flush {waiting : List ReadTurn}
    (hwaits : Waits thread f scan.pending waiting) (h : Pairing thread f turns listed) :
    ∃ flushed, thread.appendUserOnlyTurn scan = ⟨scan.turns ++ flushed, none⟩ ∧
      Pairing thread f (waiting ++ turns) (flushed ++ listed) := by
  obtain ⟨shown, pending⟩ := scan
  cases hwaits with
  | nothing => exact ⟨[], by simp [HistoryThread.appendUserOnlyTurn], h⟩
  | @user asked message between honly huser hsilent =>
    refine ⟨_, rfl, .alone ?_ (pairing_silent hsilent h)⟩
    simp only [ReadTurn.userOnly, Bool.and_eq_true, Bool.not_eq_true'] at honly
    obtain ⟨⟨⟨-, hanswer⟩, hplan⟩, -⟩ := honly
    have hnone : asked.plan thread f = none := by
      cases hsome : asked.plan thread f with
      | none => rfl
      | some plan =>
        have hitem := hasPlanItem_of_plan thread f asked (by rw [hsome]; rfl)
        rw [hplan] at hitem
        exact absurd hitem (by simp)
    refine ⟨rfl, by rw [huser], ?_, ?_, ?_⟩
    · rw [isNone_iff_eq_none.mp hanswer]
      rfl
    · rw [hnone]
      simp [shownPlan, metadataOf, Dict.lookup_set, lookup_empty]
    · rw [hplan]
      simp [metadataOf, Dict.lookup_set, lookup_empty]

end Step

/-! ## The scan without an overtaking plan -/

variable {before : List ReadTurn} {turn : ReadTurn}

section Forward

variable {thread : HistoryThread} {f : Formats}

theorem planOvertakes_append (h : PlanOvertakes thread f turns) :
    PlanOvertakes thread f (before ++ turns) := by
  obtain ⟨first, asked, between, turn, after, rfl, honly, hsilent, hplan⟩ := h
  exact ⟨before ++ first, asked, between, turn, after, by simp, honly, hsilent, hplan⟩

/-- The turns that are listed from a scan on. -/
def listedFrom (thread : HistoryThread) (f : Formats) (scan : HistoryScan)
    (turns : List ReadTurn) : List TimelineTurn :=
  (thread.appendUserOnlyTurn (turns.foldl (stepTurn thread f) scan)).turns

/-- A turn that comes while nothing waits. -/
theorem stepTurn_of_free {scan : HistoryScan}
    (hfree : scan.pending = none) (hsilent : turn.silent thread f = false)
    (honly : turn.userOnly thread f = false) :
    ∃ shown, stepTurn thread f scan turn = ⟨scan.turns ++ [shown], none⟩ ∧
      Lists thread f shown (turn.user thread) turn := by
  rw [stepTurn_of_listed hsilent honly]
  simp only [HistoryThread.pairUser, hfree]
  exact ⟨_, rfl, lists_answeredTurn (by rw [user_found]) none⟩

/-- A turn without a user message is listed with the one that waits. -/
theorem stepTurn_of_pending (scan : HistoryScan) {pending : PendingUser}
    (hpending : scan.pending = some pending) (hsilent : turn.silent thread f = false)
    (huser : turn.user thread = none) :
    ∃ shown, stepTurn thread f scan turn = ⟨scan.turns ++ [shown], none⟩ ∧
      Lists thread f shown (some pending.message) turn := by
  have honly : turn.userOnly thread f = false := by simp [ReadTurn.userOnly, huser]
  have hanswers : ((turn.found thread f).assistant.isSome ||
      (turn.found thread f).hasPlanItem) = true := by
    rw [assistant_found]
    simp only [ReadTurn.silent, huser, isNone_none, Bool.true_and] at hsilent
    cases ha : turn.answer thread with
    | some answer => rfl
    | none =>
      rw [ha, isNone_none, Bool.true_and] at hsilent
      have hplan : turn.hasPlanItem thread f = true :=
        hasPlanItem_of_plan thread f turn (by simpa using hsilent)
      exact hplan
  rw [stepTurn_of_listed hsilent honly]
  simp only [HistoryThread.pairUser, hpending, hanswers, user_found, huser, isNone_none,
    Bool.and_self, if_true]
  exact ⟨_, rfl, lists_answeredTurn rfl (some pending.turnId)⟩

/-- A turn of a user message and an item of the assistant is listed after what waits. -/
theorem stepTurn_of_flush {scan : HistoryScan} (huser : (turn.user thread).isSome = true)
    (hanswered : ((turn.answer thread).isSome || turn.hasAssistantItem thread f) = true) :
    ∃ shown, stepTurn thread f scan turn =
        ⟨(thread.appendUserOnlyTurn scan).turns ++ [shown], none⟩ ∧
      Lists thread f shown (turn.user thread) turn := by
  have hsome : (turn.user thread).isNone = false := by simpa using huser
  have hsilent : turn.silent thread f = false := by simp [ReadTurn.silent, hsome]
  have honly : turn.userOnly thread f = false := by
    cases ha : turn.answer thread with
    | some answer => simp [ReadTurn.userOnly, ha]
    | none =>
      rw [ha, isSome_none, Bool.false_or] at hanswered
      simp [ReadTurn.userOnly, hanswered]
  have hanswers : ((turn.found thread f).assistant.isSome ||
      (turn.found thread f).hasAssistantItem) = true := by
    rw [assistant_found]
    exact hanswered
  rw [stepTurn_of_listed hsilent honly]
  cases hpending : scan.pending with
  | none =>
    simp only [HistoryThread.pairUser, hpending, HistoryThread.appendUserOnlyTurn]
    exact ⟨_, rfl, lists_answeredTurn (by rw [user_found]) none⟩
  | some pending =>
    simp only [HistoryThread.pairUser, hpending, user_found, hsome, Bool.and_false, hanswers,
      Bool.false_eq_true, if_false, if_true, HistoryThread.appendUserOnlyTurn]
    exact ⟨_, rfl, lists_answeredTurn rfl none⟩

/-- From every scan on, what waits and the turns to come are paired in what is listed. -/
def PairsFrom (thread : HistoryThread) (f : Formats) (turns : List ReadTurn) : Prop :=
  ∀ (scan : HistoryScan) (waiting : List ReadTurn), Waits thread f scan.pending waiting →
    ¬ PlanOvertakes thread f (waiting ++ turns) →
    ∃ listed, listedFrom thread f scan turns = scan.turns ++ listed ∧
      Pairing thread f (waiting ++ turns) listed

section Cons

variable {scan : HistoryScan} {turn : ReadTurn} {turns waiting : List ReadTurn}

theorem listedFrom_cons : listedFrom thread f scan (turn :: turns) =
    listedFrom thread f (stepTurn thread f scan turn) turns := rfl

theorem not_planOvertakes_tail (hclear : ¬ PlanOvertakes thread f (waiting ++ turn :: turns)) :
    ¬ PlanOvertakes thread f (turn :: turns) ∧ ¬ PlanOvertakes thread f turns := by
  have htail : ¬ PlanOvertakes thread f (turn :: turns) :=
    fun h => hclear (planOvertakes_append h)
  refine ⟨htail, fun h => htail ?_⟩
  rw [← singleton_append]
  exact planOvertakes_append h

theorem pairs_silent (ih : PairsFrom thread f turns) (hwaits : Waits thread f scan.pending waiting)
    (hclear : ¬ PlanOvertakes thread f (waiting ++ turn :: turns))
    (hsilent : turn.silent thread f = true) :
    ∃ listed, listedFrom thread f scan (turn :: turns) = scan.turns ++ listed ∧
      Pairing thread f (waiting ++ turn :: turns) listed := by
  rw [listedFrom_cons, stepTurn_of_silent hsilent]
  obtain ⟨shown, pending⟩ := scan
  cases hwaits with
  | nothing =>
    obtain ⟨listed, hlisted, hpairing⟩ :=
      ih ⟨shown, none⟩ [] .nothing (not_planOvertakes_tail hclear).2
    exact ⟨listed, hlisted, .silent hsilent hpairing⟩
  | @user asked message between honly huser hbetween =>
    have hmore : ∀ other ∈ between ++ [turn], other.silent thread f = true := by
      intro other hother
      rcases mem_append.mp hother with h | h
      · exact hbetween other h
      · rw [mem_singleton.mp h]
        exact hsilent
    have hshift : asked :: between ++ turn :: turns = asked :: (between ++ [turn]) ++ turns := by
      simp
    rw [hshift] at hclear ⊢
    exact ih _ _ (.user honly huser hmore) hclear

/-- The turn waits from now on; what has been waiting is listed. -/
theorem pairs_userOnly (ih : PairsFrom thread f turns)
    (hwaits : Waits thread f scan.pending waiting)
    (hclear : ¬ PlanOvertakes thread f (waiting ++ turn :: turns))
    (honly : turn.userOnly thread f = true) :
    ∃ listed, listedFrom thread f scan (turn :: turns) = scan.turns ++ listed ∧
      Pairing thread f (waiting ++ turn :: turns) listed := by
  obtain ⟨message, huser, hstep⟩ := stepTurn_of_userOnly scan honly
  rw [listedFrom_cons, hstep]
  obtain ⟨listed, hlisted, hpairing⟩ :=
    ih ⟨(thread.appendUserOnlyTurn scan).turns, some ⟨message, turn.turnId, turn.timestamp⟩⟩
      [turn] (.user honly huser (by simp)) (not_planOvertakes_tail hclear).1
  obtain ⟨flushed, hflush, hboth⟩ := pairing_flush hwaits hpairing
  refine ⟨flushed ++ listed, ?_, hboth⟩
  rw [hlisted, hflush, append_assoc]

/-- The turn is listed on its own, after what has been waiting. -/
theorem pairs_alone {shown : TimelineTurn} (ih : PairsFrom thread f turns)
    (hwaits : Waits thread f scan.pending waiting)
    (hclear : ¬ PlanOvertakes thread f (waiting ++ turn :: turns))
    (hstep : stepTurn thread f scan turn =
      ⟨(thread.appendUserOnlyTurn scan).turns ++ [shown], none⟩)
    (hlists : Lists thread f shown (turn.user thread) turn) :
    ∃ listed, listedFrom thread f scan (turn :: turns) = scan.turns ++ listed ∧
      Pairing thread f (waiting ++ turn :: turns) listed := by
  obtain ⟨listed, hlisted, hpairing⟩ :=
    ih ⟨(thread.appendUserOnlyTurn scan).turns ++ [shown], none⟩ [] .nothing
      (not_planOvertakes_tail hclear).2
  obtain ⟨flushed, hflush, hboth⟩ := pairing_flush hwaits (.alone hlists hpairing)
  refine ⟨flushed ++ shown :: listed, ?_, hboth⟩
  rw [listedFrom_cons, hstep, hlisted, hflush]
  simp

/-- The turn brings the answer or plan that has been waited for. -/
theorem pairs_answer (ih : PairsFrom thread f turns)
    (hwaits : Waits thread f scan.pending waiting) (hwaiting : waiting ≠ [])
    (hclear : ¬ PlanOvertakes thread f (waiting ++ turn :: turns))
    (hsilent : turn.silent thread f = false) (hnone : turn.user thread = none) :
    ∃ listed, listedFrom thread f scan (turn :: turns) = scan.turns ++ listed ∧
      Pairing thread f (waiting ++ turn :: turns) listed := by
  obtain ⟨earlier, pending⟩ := scan
  cases hwaits with
  | nothing => exact absurd rfl hwaiting
  | @user asked message between honly huser hbetween =>
    obtain ⟨shown, hstep, hlists⟩ := stepTurn_of_pending
      ⟨earlier, some ⟨message, asked.turnId, asked.timestamp⟩⟩ rfl hsilent hnone
    obtain ⟨listed, hlisted, hpairing⟩ :=
      ih ⟨earlier ++ [shown], none⟩ [] .nothing (not_planOvertakes_tail hclear).2
    rw [← huser] at hlists
    refine ⟨shown :: listed, ?_, .paired honly hbetween hsilent hnone hlists hpairing⟩
    rw [listedFrom_cons, hstep, hlisted]
    simp

theorem waits_of_nil (hwaits : Waits thread f scan.pending []) : scan.pending = none := by
  generalize scan.pending = pending at hwaits
  cases hwaits
  rfl

/-- A turn that is more than a user message; only an overtaking plan is out of the way. -/
theorem pairs_listed (ih : PairsFrom thread f turns) (hwaits : Waits thread f scan.pending waiting)
    (hclear : ¬ PlanOvertakes thread f (waiting ++ turn :: turns))
    (hsilent : turn.silent thread f = false) (honly : turn.userOnly thread f = false) :
    ∃ listed, listedFrom thread f scan (turn :: turns) = scan.turns ++ listed ∧
      Pairing thread f (waiting ++ turn :: turns) listed := by
  cases hwaiting : waiting with
  | nil =>
    subst hwaiting
    have hfree := waits_of_nil hwaits
    have hsame : thread.appendUserOnlyTurn scan = scan := by
      simp only [HistoryThread.appendUserOnlyTurn, hfree]
    obtain ⟨shown, hstep, hlists⟩ := stepTurn_of_free hfree hsilent honly
    exact pairs_alone ih hwaits hclear (by rw [hstep, hsame]) hlists
  | cons asked between =>
    rw [← hwaiting]
    cases huser : turn.user thread with
    | none => exact pairs_answer ih hwaits (by simp [hwaiting]) hclear hsilent huser
    | some message =>
      have hsome : (turn.user thread).isSome = true := by rw [huser]; rfl
      cases hanswered : (turn.answer thread).isSome || turn.hasAssistantItem thread f with
      | true =>
        obtain ⟨shown, hstep, hlists⟩ := stepTurn_of_flush hsome hanswered
        exact pairs_alone ih hwaits hclear hstep hlists
      | false =>
        -- what is left is a plan beside the user message
        rw [Bool.or_eq_false_iff] at hanswered
        have hnone : (turn.answer thread).isNone = true := by simpa using hanswered.1
        have hplan : turn.planOnly thread f = true := by
          simpa [ReadTurn.planOnly, ReadTurn.userOnly, hsome, hnone, hanswered.2]
            using honly
        refine absurd ?_ hclear
        rw [hwaiting] at hwaits
        generalize scan.pending = pending at hwaits
        cases hwaits with
        | user hasked _ hbetween =>
          exact ⟨[], asked, between, turn, turns, by simp [hwaiting], hasked, hbetween, hplan⟩

end Cons

/-- By induction on the turns, in the cases of the loader. -/
theorem pairsFrom (turns : List ReadTurn) : PairsFrom thread f turns := by
  induction turns with
  | nil =>
    intro scan waiting hwaits _
    obtain ⟨flushed, hflush, hpairing⟩ := pairing_flush hwaits .nil
    refine ⟨flushed, by rw [listedFrom, foldl_nil, hflush], ?_⟩
    simpa using hpairing
  | cons turn turns ih =>
    intro scan waiting hwaits hclear
    cases hsilent : turn.silent thread f with
    | true => exact pairs_silent ih hwaits hclear hsilent
    | false =>
      cases honly : turn.userOnly thread f with
      | true => exact pairs_userOnly ih hwaits hclear honly
      | false => exact pairs_listed ih hwaits hclear hsilent honly

end Forward

/-! ## What a pairing keeps -/

section Kept

variable {thread : HistoryThread} {f : Formats} {turns : List ReadTurn}
  {listed : List TimelineTurn}

theorem user_of_silent (h : turn.silent thread f = true) :
    turn.user thread = none ∧ turn.answer thread = none := by
  simp only [ReadTurn.silent, Bool.and_eq_true, isNone_iff_eq_none] at h
  exact h.1

/-- Silent turns have no part of what is read of all. -/
theorem filterMap_silent {β : Type*} {read : ReadTurn → Option β}
    (hread : ∀ other ∈ between, read other = none) (turns : List ReadTurn) :
    (between ++ turns).filterMap read = turns.filterMap read := by
  rw [filterMap_append, filterMap_eq_nil_iff.mpr hread, nil_append]

theorem Pairing.users (h : Pairing thread f turns listed) :
    listed.filterMap (fun shown => shown.user.map unmarked) =
      turns.filterMap fun turn => (turn.user thread).map unmarked := by
  induction h with
  | nil => rfl
  | silent hsilent _ ih => rw [filterMap_cons_none (by rw [(user_of_silent hsilent).1]; rfl), ih]
  | alone hlists _ ih => simp only [filterMap_cons, hlists.user, ih]
  | @paired asked between turn turns shown listed _ hbetween _ hnone hlists _ ih =>
    have hnot : ∀ other ∈ between, (other.user thread).map unmarked = none := by
      intro other hother
      rw [(user_of_silent (hbetween other hother)).1]
      rfl
    have hrest : (between ++ turn :: turns).filterMap
        (fun turn => (turn.user thread).map unmarked) =
          turns.filterMap fun turn => (turn.user thread).map unmarked := by
      rw [filterMap_silent hnot]
      exact filterMap_cons_none (by rw [hnone]; rfl)
    simp only [filterMap_cons, hlists.user, hrest, ih]

theorem Pairing.answers (h : Pairing thread f turns listed) :
    listed.filterMap TimelineTurn.assistant = turns.filterMap (ReadTurn.answer thread) := by
  induction h with
  | nil => rfl
  | silent hsilent _ ih => rw [filterMap_cons_none (user_of_silent hsilent).2, ih]
  | alone hlists _ ih => simp only [filterMap_cons, hlists.answer, ih]
  | @paired asked between turn turns shown listed honly hbetween _ _ hlists _ ih =>
    have hasked : asked.answer thread = none := by
      simp only [ReadTurn.userOnly, Bool.and_eq_true, isNone_iff_eq_none] at honly
      exact honly.1.1.2
    rw [filterMap_cons_none hasked,
      filterMap_silent fun other hother => (user_of_silent (hbetween other hother)).2]
    simp only [filterMap_cons, hlists.answer, ih]

theorem keepsHistory_of_pairing (h : Pairing thread f turns listed) :
    KeepsHistory thread f turns listed := ⟨h.users, h.answers, h⟩

/-- Where an entry stands that is neither among the first ones nor the next one. -/
theorem append_cons_eq {α : Type*} {a b : α} {before after between rest : List α}
    (h : before ++ a :: after = between ++ b :: rest) (hne : b ≠ a) (hmem : a ∉ between) :
    ∃ beyond, before = between ++ b :: beyond ∧ rest = beyond ++ a :: after := by
  rcases append_eq_append_iff.mp h with ⟨between', rfl, hrest⟩ | ⟨beyond, rfl, hrest⟩
  · cases between' with
    | nil =>
      rw [nil_append, List.cons.injEq] at hrest
      exact absurd hrest.1.symm hne
    | cons head between' =>
      rw [cons_append, List.cons.injEq] at hrest
      exact absurd (by simp [hrest.1]) hmem
  · cases beyond with
    | nil =>
      rw [nil_append, List.cons.injEq] at hrest
      exact absurd hrest.1 hne
    | cons head beyond =>
      rw [cons_append, List.cons.injEq] at hrest
      obtain ⟨rfl, rfl⟩ := hrest
      exact ⟨beyond, rfl, rfl⟩

/-- A pairing of more turns, cut before a turn with a user message. -/
theorem Pairing.cut {after : List ReadTurn} {asked : ReadTurn}
    (h : Pairing thread f (before ++ asked :: after) listed)
    (hasked : (asked.user thread).isSome = true) :
    ∃ first rest, listed = first ++ rest ∧ Pairing thread f before first ∧
      Pairing thread f (asked :: after) rest := by
  generalize hturns : before ++ asked :: after = turns at h
  induction h generalizing before with
  | nil => simp at hturns
  | @silent turn turns listed hsilent h ih =>
    cases before with
    | nil =>
      rw [nil_append] at hturns
      rw [hturns]
      exact ⟨[], listed, rfl, .nil, .silent hsilent h⟩
    | cons head before =>
      rw [cons_append, List.cons.injEq] at hturns
      obtain ⟨rfl, hturns⟩ := hturns
      obtain ⟨first, rest, rfl, hfirst, hrest⟩ := ih hturns
      exact ⟨first, rest, rfl, .silent hsilent hfirst, hrest⟩
  | @alone turn turns shown listed hlists h ih =>
    cases before with
    | nil =>
      rw [nil_append] at hturns
      rw [hturns]
      exact ⟨[], shown :: listed, rfl, .nil, .alone hlists h⟩
    | cons head before =>
      rw [cons_append, List.cons.injEq] at hturns
      obtain ⟨rfl, hturns⟩ := hturns
      obtain ⟨first, rest, rfl, hfirst, hrest⟩ := ih hturns
      exact ⟨shown :: first, rest, rfl, .alone hlists hfirst, hrest⟩
  | @paired first between turn turns shown listed honly hbetween hsilent hnone hlists h ih =>
    cases before with
    | nil =>
      rw [nil_append] at hturns
      rw [hturns]
      exact ⟨[], shown :: listed, rfl, .nil, .paired honly hbetween hsilent hnone hlists h⟩
    | cons head before =>
      rw [cons_append, List.cons.injEq] at hturns
      obtain ⟨rfl, hturns⟩ := hturns
      have hne : turn ≠ asked := by
        intro heq
        rw [heq] at hnone
        simp [hnone] at hasked
      obtain ⟨beyond, rfl, hrest⟩ := append_cons_eq hturns hne fun hmem => by
        simp [(user_of_silent (hbetween asked hmem)).1] at hasked
      obtain ⟨head', rest, rfl, hfirst, hrest⟩ := ih hrest.symm
      exact ⟨shown :: head', rest, rfl, .paired honly hbetween hsilent hnone hlists hfirst, hrest⟩

end Kept

/-! ## The overtaking plan -/

section Overtaken

variable {thread : HistoryThread} {f : Formats}

/-- How many user messages a scan has come to, listed or waiting. -/
def askedCount (scan : HistoryScan) : Nat :=
  scan.turns.countP (fun shown => shown.user.isSome) + scan.pending.toList.length

theorem askedCount_flush (thread : HistoryThread) (scan : HistoryScan) :
    askedCount (thread.appendUserOnlyTurn scan) = askedCount scan := by
  unfold HistoryThread.appendUserOnlyTurn
  cases hpending : scan.pending <;> simp [askedCount, hpending]

theorem pending_flush (thread : HistoryThread) (scan : HistoryScan) :
    (thread.appendUserOnlyTurn scan).pending = none := by
  unfold HistoryThread.appendUserOnlyTurn
  cases hpending : scan.pending <;> simp [hpending]

theorem isSome_of_map_unmarked {user : Option TimelineMessage}
    (h : user.map unmarked = asked.map unmarked) : user.isSome = asked.isSome := by
  simpa using congrArg Option.isSome h

theorem askedCount_listed (scan : HistoryScan) {shown : TimelineTurn}
    (hlists : Lists thread f shown asked turn) :
    askedCount ⟨scan.turns ++ [shown], scan.pending⟩ =
      askedCount scan + if asked.isSome then 1 else 0 := by
  rw [← isSome_of_map_unmarked hlists.user]
  cases hs : shown.user.isSome <;> simp [askedCount, hs]
  omega

/-- A turn of a user message and a plan leaves what waits. -/
theorem stepTurn_of_planOnly (scan : HistoryScan) (hplan : turn.planOnly thread f = true) :
    ∃ shown, stepTurn thread f scan turn = ⟨scan.turns ++ [shown], scan.pending⟩ ∧
      Lists thread f shown (turn.user thread) turn := by
  simp only [ReadTurn.planOnly, Bool.and_eq_true, Bool.not_eq_true'] at hplan
  obtain ⟨⟨⟨huser, hanswer⟩, hitem⟩, hnot⟩ := hplan
  have hsome : (turn.user thread).isNone = false := by simpa using huser
  have hsilent : turn.silent thread f = false := by simp [ReadTurn.silent, hsome]
  have honly : turn.userOnly thread f = false := by simp [ReadTurn.userOnly, hitem]
  have hanswers : ((turn.found thread f).assistant.isSome ||
      (turn.found thread f).hasAssistantItem) = false := by
    have hnone : (turn.answer thread).isSome = false := by simpa using hanswer
    rw [assistant_found, hnone]
    exact hnot
  rw [stepTurn_of_listed hsilent honly]
  cases hpending : scan.pending with
  | none =>
    simp only [HistoryThread.pairUser, hpending, user_found]
    exact ⟨_, rfl, lists_answeredTurn rfl none⟩
  | some pending =>
    simp only [HistoryThread.pairUser, hpending, user_found, hsome, Bool.and_false, hanswers,
      Bool.false_eq_true, if_false]
    exact ⟨_, rfl, lists_answeredTurn rfl none⟩

/-- What a turn can do to the scan. -/
inductive Stepped (thread : HistoryThread) (f : Formats) (scan : HistoryScan) (turn : ReadTurn) :
    HistoryScan → Prop
  | silent : turn.user thread = none → Stepped thread f scan turn scan
  | waits {message} : turn.user thread = some message →
      Stepped thread f scan turn ⟨(thread.appendUserOnlyTurn scan).turns,
        some ⟨message, turn.turnId, turn.timestamp⟩⟩
  | answers {pending shown} : scan.pending = some pending → turn.user thread = none →
      Lists thread f shown (some pending.message) turn →
      Stepped thread f scan turn ⟨scan.turns ++ [shown], none⟩
  | flushes {shown} : Lists thread f shown (turn.user thread) turn →
      Stepped thread f scan turn ⟨(thread.appendUserOnlyTurn scan).turns ++ [shown], none⟩
  | overtakes {shown} : Lists thread f shown (turn.user thread) turn →
      Stepped thread f scan turn ⟨scan.turns ++ [shown], scan.pending⟩

theorem stepped (thread : HistoryThread) (f : Formats) (scan : HistoryScan) (turn : ReadTurn) :
    Stepped thread f scan turn (stepTurn thread f scan turn) := by
  cases hsilent : turn.silent thread f with
  | true =>
    rw [stepTurn_of_silent hsilent]
    exact .silent (user_of_silent hsilent).1
  | false =>
    cases honly : turn.userOnly thread f with
    | true =>
      obtain ⟨message, huser, hstep⟩ := stepTurn_of_userOnly scan honly
      rw [hstep]
      exact .waits huser
    | false =>
      cases huser : turn.user thread with
      | none =>
        cases hpending : scan.pending with
        | none =>
          obtain ⟨shown, hstep, hlists⟩ := stepTurn_of_free hpending hsilent honly
          rw [hstep, ← hpending]
          exact .overtakes hlists
        | some pending =>
          obtain ⟨shown, hstep, hlists⟩ :=
            stepTurn_of_pending scan hpending hsilent huser
          rw [hstep]
          exact .answers hpending huser hlists
      | some message =>
        have hsome : (turn.user thread).isSome = true := by rw [huser]; rfl
        cases hanswered : (turn.answer thread).isSome || turn.hasAssistantItem thread f with
        | true =>
          obtain ⟨shown, hstep, hlists⟩ := stepTurn_of_flush hsome hanswered
          rw [hstep]
          exact .flushes hlists
        | false =>
          rw [Bool.or_eq_false_iff] at hanswered
          have hnone : (turn.answer thread).isNone = true := by simpa using hanswered.1
          have hplan : turn.planOnly thread f = true := by
            simpa [ReadTurn.planOnly, ReadTurn.userOnly, hsome, hnone, hanswered.2]
              using honly
          obtain ⟨shown, hstep, hlists⟩ := stepTurn_of_planOnly scan hplan
          rw [hstep]
          exact .overtakes hlists

/-- Each turn adds its own user message. -/
theorem askedCount_stepTurn (scan : HistoryScan) (turn : ReadTurn) :
    askedCount (stepTurn thread f scan turn) =
      askedCount scan + if (turn.user thread).isSome then 1 else 0 := by
  have hflush := askedCount_flush thread scan
  have hfree := pending_flush thread scan
  have hstepped := stepped thread f scan turn
  generalize stepTurn thread f scan turn = next at hstepped ⊢
  cases hstepped with
  | silent huser => simp [huser]
  | waits huser =>
    simp only [askedCount, hfree, toList_none, length_nil] at hflush
    simp only [askedCount, huser, toList_some, length_singleton, isSome_some, if_true]
    omega
  | answers hpending huser hlists =>
    have hsome := isSome_of_map_unmarked hlists.user
    simp [askedCount, hpending, huser, hsome]
  | flushes hlists =>
    have h := askedCount_listed (thread.appendUserOnlyTurn scan) hlists
    rw [hfree, hflush] at h
    exact h
  | overtakes hlists => exact askedCount_listed scan hlists

theorem askedCount_foldl (turns : List ReadTurn) (scan : HistoryScan) :
    askedCount (turns.foldl (stepTurn thread f) scan) =
      askedCount scan + turns.countP fun turn => (turn.user thread).isSome := by
  induction turns generalizing scan with
  | nil => rfl
  | cons turn turns ih =>
    rw [foldl_cons, ih, askedCount_stepTurn, countP_cons]
    omega

theorem prefix_flush (thread : HistoryThread) (scan : HistoryScan) :
    scan.turns <+: (thread.appendUserOnlyTurn scan).turns := by
  unfold HistoryThread.appendUserOnlyTurn
  cases scan.pending with
  | none => exact prefix_rfl
  | some pending => exact prefix_append _ _

/-- The loader only adds to what is listed. -/
theorem prefix_listedFrom (thread : HistoryThread) (f : Formats) (turns : List ReadTurn)
    (scan : HistoryScan) : scan.turns <+: listedFrom thread f scan turns := by
  induction turns generalizing scan with
  | nil => exact prefix_flush thread scan
  | cons turn turns ih =>
    have hstep : scan.turns <+: (stepTurn thread f scan turn).turns := by
      have hstepped := stepped thread f scan turn
      generalize stepTurn thread f scan turn = next at hstepped ⊢
      cases hstepped with
      | silent _ => exact prefix_rfl
      | waits _ => exact prefix_flush thread scan
      | answers _ _ _ => exact prefix_append _ _
      | flushes _ => exact (prefix_flush thread scan).trans (prefix_append _ _)
      | overtakes _ => exact prefix_append _ _
    exact hstep.trans (ih _)

theorem foldl_silent (scan : HistoryScan) (h : ∀ other ∈ between, other.silent thread f = true) :
    between.foldl (stepTurn thread f) scan = scan := by
  induction between with
  | nil => rfl
  | cons other between ih =>
    rw [foldl_cons, stepTurn_of_silent (h other (by simp))]
    exact ih fun later hlater => h later (mem_cons_of_mem other hlater)

/-- The plan is listed where the turn that waits is to come: as many user messages are listed
before it. -/
theorem listed_of_overtaken (before : List ReadTurn)
    (after : List ReadTurn) {asked : ReadTurn}
    (honly : asked.userOnly thread f = true)
    (hbetween : ∀ other ∈ between, other.silent thread f = true)
    (hplan : turn.planOnly thread f = true) :
    ∃ earlier shown later,
      listedFrom thread f ⟨[], none⟩ (before ++ asked :: (between ++ turn :: after)) =
        earlier ++ shown :: later ∧
      earlier.countP (fun shown => shown.user.isSome) =
        before.countP (fun turn => (turn.user thread).isSome) ∧
      shown.user.isSome = true ∧ Dict.lookup shown.metadata "plan_mode" = some (.bool true) := by
  obtain ⟨message, _, hasked⟩ :=
    stepTurn_of_userOnly (before.foldl (stepTurn thread f) ⟨[], none⟩) honly
  have hcount : askedCount (before.foldl (stepTurn thread f) ⟨[], none⟩) =
      before.countP fun turn => (turn.user thread).isSome := by
    rw [askedCount_foldl]
    simp [askedCount]
  generalize hstart : before.foldl (stepTurn thread f) ⟨[], none⟩ = start at hasked hcount
  obtain ⟨shown, hshown, hlists⟩ := stepTurn_of_planOnly
    ⟨(thread.appendUserOnlyTurn start).turns, some ⟨message, asked.turnId, asked.timestamp⟩⟩ hplan
  have hlisted : listedFrom thread f ⟨[], none⟩ (before ++ asked :: (between ++ turn :: after)) =
      listedFrom thread f ⟨(thread.appendUserOnlyTurn start).turns ++ [shown],
        some ⟨message, asked.turnId, asked.timestamp⟩⟩ after := by
    rw [listedFrom, foldl_append, hstart, foldl_cons, hasked, foldl_append,
      foldl_silent _ hbetween, foldl_cons, hshown]
    rfl
  obtain ⟨later, hlater⟩ := prefix_listedFrom thread f after
    ⟨(thread.appendUserOnlyTurn start).turns ++ [shown],
      some ⟨message, asked.turnId, asked.timestamp⟩⟩
  simp only [ReadTurn.planOnly, Bool.and_eq_true] at hplan
  refine ⟨(thread.appendUserOnlyTurn start).turns, shown, later, ?_, ?_, ?_, ?_⟩
  · rw [hlisted, ← hlater, append_assoc, singleton_append]
  · rw [← hcount, ← askedCount_flush thread start, askedCount, pending_flush]
    rfl
  · rw [isSome_of_map_unmarked hlists.user]
    exact hplan.1.1.1
  · rw [hlists.planMode, hplan.1.2]
    rfl

/-- A pairing has the turn that waits at that place. -/
theorem listed_of_pairing {after : List ReadTurn} {asked : ReadTurn}
    (honly : asked.userOnly thread f = true)
    (hbetween : ∀ other ∈ between, other.silent thread f = true)
    (hplan : turn.planOnly thread f = true)
    (h : Pairing thread f (before ++ asked :: (between ++ turn :: after)) listed) :
    ∃ earlier shown later, listed = earlier ++ shown :: later ∧
      earlier.countP (fun shown => shown.user.isSome) =
        before.countP (fun turn => (turn.user thread).isSome) ∧
      shown.user.isSome = true ∧ Dict.lookup shown.metadata "plan_mode" = none := by
  simp only [ReadTurn.userOnly, ReadTurn.planOnly, Bool.and_eq_true, Bool.not_eq_true']
    at honly hplan
  have hasked := honly.1.1.1
  obtain ⟨earlier, rest, rfl, hearlier, hrest⟩ := h.cut hasked
  have hcount : earlier.countP (fun shown => shown.user.isSome) =
      before.countP fun turn => (turn.user thread).isSome := by
    have husers := congrArg List.length hearlier.users
    simpa only [length_filterMap_eq_countP, isSome_map] using husers
  generalize hturns : between ++ turn :: after = turns at hrest
  cases hrest with
  | silent hsilent _ => simp [(user_of_silent hsilent).1] at hasked
  | @alone _ _ shown later hlists _ =>
    refine ⟨earlier, shown, later, rfl, hcount, ?_, ?_⟩
    · rw [isSome_of_map_unmarked hlists.user]
      exact hasked
    · rw [hlists.planMode, honly.1.2]
      rfl
  | @paired _ between' turn' _ _ _ _ hbetween' hsilent' hnone' _ _ =>
    -- between the two are silent turns only, and the second has a user message
    have hne : turn' ≠ turn := by
      intro heq
      rw [heq] at hnone'
      simp [hnone'] at hplan
    obtain ⟨beyond, hbeyond, -⟩ := append_cons_eq hturns hne fun hmem => by
      simp [(user_of_silent (hbetween' turn hmem)).1] at hplan
    have hmem : turn' ∈ between := by simp [hbeyond]
    rw [hbetween turn' hmem] at hsilent'
    exact absurd hsilent' (by simp)

theorem not_pairing_of_overtaken (h : PlanOvertakes thread f turns) :
    ¬ Pairing thread f turns (listedFrom thread f ⟨[], none⟩ turns) := by
  intro hpairing
  obtain ⟨before, asked, between, turn, after, rfl, honly, hbetween, hplan⟩ := h
  obtain ⟨earlier, shown, later, hlisted, hcount, hsome, hmode⟩ :=
    listed_of_overtaken before after honly hbetween hplan
  obtain ⟨earlier', shown', later', hlisted', hcount', hsome', hmode'⟩ :=
    listed_of_pairing honly hbetween hplan hpairing
  rw [hlisted] at hlisted'
  have hfilter := congrArg (List.filter fun shown : TimelineTurn => shown.user.isSome) hlisted'
  simp only [filter_append, filter_cons, hsome, hsome', if_true] at hfilter
  have hlength : (earlier.filter fun shown => shown.user.isSome).length =
      (earlier'.filter fun shown => shown.user.isSome).length := by
    rw [← countP_eq_length_filter, ← countP_eq_length_filter, hcount, hcount']
  have hsame := (append_inj hfilter hlength).2
  rw [List.cons.injEq] at hsame
  rw [hsame.1, hmode'] at hmode
  exact absurd hmode (by simp)

end Overtaken

/-! ## The history -/

/-- The history loses and mixes nothing but where a plan overtakes a user message. -/
theorem history_kept_iff (thread : HistoryThread) (f : Formats) (turns : List Value) :
    KeepsHistory thread f (readTurns f turns) (thread.timelineTurnsFromCodexThread f turns) ↔
      ¬ PlanOvertakes thread f (readTurns f turns) := by
  rw [timelineTurns_eq]
  constructor
  · intro hkept hovertakes
    exact not_pairing_of_overtaken hovertakes hkept.pairing
  · intro hclear
    obtain ⟨listed, hlisted, hpairing⟩ :=
      pairsFrom (readTurns f turns) ⟨[], none⟩ [] .nothing hclear
    rw [nil_append] at hlisted hpairing
    have heq : (thread.appendUserOnlyTurn
        ((readTurns f turns).foldl (stepTurn thread f) ⟨[], none⟩)).turns = listed := hlisted
    rw [heq]
    exact keepsHistory_of_pairing hpairing

/-- A question, a question that is being planned, and an answer. -/
def overtakenThread : List Value :=
  [.dict [("id", .str "turn-a"),
      ("items", .list [.dict [("type", .str "userMessage"), ("text", .str "Rename it?")]])],
    .dict [("id", .str "turn-b"),
      ("items", .list [.dict [("type", .str "userMessage"), ("text", .str "Plan the move")],
        .dict [("type", .str "plan"), ("text", .str "1. Move the files")]])],
    .dict [("id", .str "turn-c"),
      ("items", .list [.dict [("type", .str "agentMessage"), ("text", .str "Files moved")]])]]

/-- The answer to the second question is listed with the first one, after the second one. -/
theorem question_listed_with_another_answer :
    let thread : HistoryThread := ⟨"thread-1", "native-1", "bro", "codex", none⟩
    let f : Formats := ⟨String.toLower, fun _ => ⊥, fun _ => none⟩
    (thread.timelineTurnsFromCodexThread f overtakenThread).map (fun shown =>
        (shown.user.bind TimelineMessage.text, shown.assistant.bind TimelineMessage.text)) =
      [(some "Plan the move", none), (some "Rename it?", some "Files moved")] ∧
    ¬ KeepsHistory thread f (readTurns f overtakenThread)
      (thread.timelineTurnsFromCodexThread f overtakenThread) := by
  intro thread f
  have hlisted : (thread.timelineTurnsFromCodexThread f overtakenThread).map (fun shown =>
        (shown.user.bind TimelineMessage.text, shown.assistant.bind TimelineMessage.text)) =
      [(some "Plan the move", none), (some "Rename it?", some "Files moved")] := by
    decide +kernel
  refine ⟨hlisted, fun hkept => ?_⟩
  have husers := congrArg (List.map TimelineMessage.text) hkept.users
  revert husers
  decide +kernel

end Newbro.HistoryPairing
