import Newbro.CodexStream

/-!
# The answer of a Codex turn

Under which events the stream of a turn keeps its law. The loop is followed up to the event that
it stops with, and what it completes with is compared with the messages of the turn.
-/
namespace Newbro.CodexTurn

open Library Protocol List
open Acpx (Json JsonFields)

/-! ## Reading on -/

/-- The loop remembers the last of the messages. -/
def Remembers (st : StreamState) (told : List ToldMessage) : Prop :=
  st.lastAssistantMessage = told.getLast?.map ToldMessage.text

/-- No message that is told is empty. -/
def Worded (told : List ToldMessage) : Prop := ∀ message ∈ told, message.text ≠ ""

variable {message : ToldMessage}

theorem messageOf_text_ne {item : JsonFields}
    (h : messageOf item = some message) : message.text ≠ "" := by
  unfold messageOf at h
  split at h
  · obtain ⟨text, htext, rfl⟩ := Option.map_eq_some_iff.mp h
    intro hempty
    exact extractItemText_ne_empty item (htext.trans (congrArg some hempty))
  · cases h

theorem toldMessage_text_ne {call : StreamCall} {event : AppEvent}
    (h : toldMessage call event = some message) : message.text ≠ "" := by
  unfold toldMessage at h
  split at h
  · obtain ⟨item, -, hmessage⟩ := Option.bind_eq_some_iff.mp h
    exact messageOf_text_ne hmessage
  · cases h

theorem worded_toldMessages (call : StreamCall) (events : List AppEvent) :
    Worded (events.filterMap (toldMessage call)) := by
  intro message hmessage
  obtain ⟨event, -, htold⟩ := mem_filterMap.mp hmessage
  exact toldMessage_text_ne htold

variable {st : StreamState}

theorem Remembers.snoc {st' : StreamState} {told : List ToldMessage}
    {message : Option ToldMessage} (h : Remembers st told) (hlast : st'.lastAssistantMessage =
      (message.map ToldMessage.text).or st.lastAssistantMessage) :
    Remembers st' (told ++ message.toList) := by
  unfold Remembers at h ⊢
  rw [hlast, h]
  cases message with
  | none | some => simp

theorem after_after (early late : List CodexEvent) (s : Streamed) :
    (s.after late).after early = s.after (early ++ late) := by
  simp [Streamed.after]

variable {before : List AppEvent} {waits : List WaitOutcome}

section reading

variable (call : StreamCall)

/-- The loop has read events and reads on: what it remembers then, and what it has yielded. -/
structure Read (told : List ToldMessage) (st : StreamState) (before : List AppEvent)
    (waits : List WaitOutcome) (st' : StreamState) (waits' : List WaitOutcome)
    (progress : List CodexEvent) : Prop where
  remembers : Remembers st' (told ++ before.filterMap (toldMessage call))
  quiet : ∀ event ∈ progress, isEnd event = false
  running : ∀ event ∈ before, endingTurn call event = none
  stream : ∀ rest, streamTurnEvents call st (before ++ rest) waits =
    (streamTurnEvents call st' rest waits').after progress
  goes : ∀ rest, goesOn call (before ++ rest) waits = goesOn call rest waits'

/-- One event more is read before. -/
theorem Read.cons {call : StreamCall} {told : List ToldMessage} {st₁ st' : StreamState}
    {event : AppEvent} {waits₁ waits' : List WaitOutcome}
    {first progress : List CodexEvent}
    (h : Read call (told ++ (toldMessage call event).toList) st₁ before waits₁ st' waits' progress)
    (hfirst : ∀ event ∈ first, isEnd event = false) (hrunning : endingTurn call event = none)
    (hstream : ∀ rest, streamTurnEvents call st (event :: rest) waits =
      (streamTurnEvents call st₁ rest waits₁).after first)
    (hgoes : ∀ rest, goesOn call (event :: rest) waits = goesOn call rest waits₁) :
    Read call told st (event :: before) waits st' waits' (first ++ progress) where
  remembers := by
    have hremembers := h.remembers
    rw [append_assoc] at hremembers
    cases hmessage : toldMessage call event with
    | none =>
      rw [hmessage] at hremembers
      rw [filterMap_cons_none hmessage]
      exact hremembers
    | some message =>
      rw [hmessage] at hremembers
      rw [filterMap_cons_some hmessage]
      exact hremembers
  quiet other hother := by
    rcases mem_append.mp hother with hnew | hold
    · exact hfirst other hnew
    · exact h.quiet other hold
  running other hother := by
    rcases mem_cons.mp hother with rfl | hold
    · exact hrunning
    · exact h.running other hold
  stream rest := by rw [cons_append, hstream, h.stream, after_after]
  goes rest := by rw [cons_append, hgoes, h.goes]

theorem goesOn_read (before : List AppEvent) : ∀ {told : List ToldMessage} {st : StreamState}
    {waits : List WaitOutcome}, Remembers st told → goesOn call before waits = true →
      ∃ st' waits' progress, Read call told st before waits st' waits' progress := by
  induction before with
  | nil =>
    intro told st waits hremembers _
    exact ⟨st, waits, [], by simpa using hremembers, by simp, by simp, fun _ => rfl, fun _ => rfl⟩
  | cons event before ih =>
    intro told st waits hremembers hgoes
    have hstepped : Stepped call st event (loopStep call st event) := stepped st
    generalize hstep : loopStep call st event = result at hstepped
    cases hstepped with
    | @passes st₁ first hkind hquiet hlast hplan hending =>
      have hgo : ∀ rest, goesOn call (event :: rest) waits = goesOn call rest waits := by
        intro rest
        simp [goesOn, hkind]
      have hstream : ∀ rest, streamTurnEvents call st (event :: rest) waits =
          (streamTurnEvents call st₁ rest waits).after first := by
        intro rest
        rw [streamTurnEvents, hstep]
      obtain ⟨st', waits', progress, hread⟩ :=
        ih (hremembers.snoc hlast) ((hgo before).symm.trans hgoes)
      exact ⟨st', waits', _, hread.cons hquiet hending hstream hgo⟩
    | @asks st₁ question hkind hquiet hlast hnone hplan hending =>
      cases waits with
      | nil => simp [goesOn, hkind] at hgoes
      | cons wait waits =>
        cases wait with
        | aborted => simp [goesOn, hkind] at hgoes
        | timedOut => simp [goesOn, hkind] at hgoes
        | resolved =>
          have hgo : ∀ rest, goesOn call (event :: rest) (.resolved :: waits) =
              goesOn call rest waits := by
            intro rest
            simp [goesOn, hkind]
          have hstream : ∀ rest,
              streamTurnEvents call st (event :: rest) (.resolved :: waits) =
                (streamTurnEvents call st₁ rest waits).after [question] := by
            intro rest
            rw [streamTurnEvents, hstep]
          have hlast' : st₁.lastAssistantMessage =
              ((toldMessage call event).map ToldMessage.text).or
                st.lastAssistantMessage := by
            rw [hnone, hlast]
            rfl
          obtain ⟨st', waits', progress, hread⟩ :=
            ih (hremembers.snoc hlast') ((hgo before).symm.trans hgoes)
          exact ⟨st', waits', _, hread.cons (by simpa using hquiet) hending hstream hgo⟩
    | fails hkind => simp [goesOn, hkind] at hgoes
    | proposes hkind => simp [goesOn, hkind] at hgoes
    | completes hkind => simp [goesOn, hkind] at hgoes
    | unread hkind => simp [goesOn, hkind] at hgoes

/-- Either all the events are read, or there is one that the loop stops with. -/
theorem goesOn_or_stops (events : List AppEvent) : ∀ waits : List WaitOutcome,
    goesOn call events waits = true ∨ ∃ before event after, events = before ++ event :: after ∧
      goesOn call before waits = true ∧ goesOn call (before ++ [event]) waits = false := by
  induction events with
  | nil => exact fun _ => .inl rfl
  | cons event events ih =>
    intro waits
    cases hone : goesOn call [event] waits with
    | false => exact .inr ⟨[], event, events, rfl, rfl, hone⟩
    | true =>
      have hgo : ∃ waits', ∀ rest, goesOn call (event :: rest) waits = goesOn call rest waits' := by
        cases hkind : eventKind call event with
        | passes => exact ⟨waits, fun rest => by simp [goesOn, hkind]⟩
        | closes => simp [goesOn, hkind] at hone
        | asks =>
          cases waits with
          | nil => simp [goesOn, hkind] at hone
          | cons wait waits =>
            cases wait with
            | resolved => exact ⟨waits, fun rest => by simp [goesOn, hkind]⟩
            | aborted => simp [goesOn, hkind] at hone
            | timedOut => simp [goesOn, hkind] at hone
      obtain ⟨waits', hgo⟩ := hgo
      rcases ih waits' with hall | ⟨before, stop, after, rfl, hbefore, hstops⟩
      · exact .inl ((hgo events).trans hall)
      · exact .inr ⟨event :: before, stop, after, rfl, (hgo before).trans hbefore,
          (hgo _).trans hstops⟩

end reading

/-! ## The text that a turn completes with -/

/-- What is read back is the text of the last message. -/
theorem assistantText_eq (items : List Json) : ∀ {text : Option String},
    assistantText items = .ok text →
      text = (items.filterMap messageIn).head?.map ToldMessage.text := by
  induction items with
  | nil =>
    intro text h
    cases h
    rfl
  | cons item items ih =>
    intro text h
    cases item with
    | dict fields =>
      unfold assistantText at h
      cases htypes : lookUpIn assistantItemTypes (fields.lookup "type") with
      | error error =>
        rw [htypes] at h
        cases h
      | ok assistant =>
        have hmessage := messageOf_of_lookUp htypes
        rw [htypes] at h
        cases assistant with
        | false =>
          have hnone : messageIn (.dict fields) = none := hmessage
          rw [filterMap_cons_none hnone]
          exact ih h
        | true =>
          cases hextracted : extractItemText fields with
          | none =>
            rw [hextracted] at h hmessage
            have hnone : messageIn (.dict fields) = none := hmessage
            rw [filterMap_cons_none hnone]
            exact ih h
          | some told =>
            rw [hextracted] at h hmessage
            have hsome : messageIn (.dict fields) =
                some ⟨told, strField fields "phase" = some "commentary"⟩ := hmessage
            rw [filterMap_cons_some hsome]
            cases h
            rfl
    | _ => exact ih h

variable {last : ToldMessage} {text : Option String}

section text

variable {call : StreamCall} {told : List ToldMessage}

theorem getLast?_answers {messages : List ToldMessage}
    (h : messages.getLast? = some last) (hanswer : last.commentary = false) :
    (answers messages).getLast? = some last := by
  obtain ⟨before, rfl⟩ := List.getLast?_eq_some_iff.mp h
  simp [answers, filter_append, hanswer]

/-- A text is the last answer where it is that of the last message, and this ends in one. -/
theorem endInAnswer_iff {recorded : List ToldMessage} (h : told.getLast? = some last) :
    (∀ text, lastAnswer told recorded = some text → some last.text = some text) ↔
      EndInAnswer told (lastAnswer told recorded) := by
  constructor
  · intro hanswer other hother _ text htext
    rw [h] at hother
    cases hother
    exact Option.some.inj (hanswer text htext)
  · intro hends text htext
    cases hcommentary : last.commentary with
    | true => exact congrArg some (hends last h hcommentary text htext)
    | false =>
      rw [lastAnswer, getLast?_answers h hcommentary] at htext
      exact htext

theorem endInAnswer_nil (answer : Option String) : EndInAnswer [] answer := by
  intro last h
  cases h

/-- A message was told before the turn is completed. -/
theorem ownAnswer_iff_of_told (h : told.getLast? = some last) :
    OwnAnswer call told (some last.text) ↔ Answered call told := by
  have hmem : last ∈ told := mem_of_getLast? h
  have hne : told ≠ [] := ne_nil_of_mem hmem
  constructor
  · intro hown
    exact ⟨(endInAnswer_iff h).mp hown.answer, fun hnil => absurd hnil hne,
      fun hnil => absurd hnil hne⟩
  · intro hanswered
    exact ⟨(endInAnswer_iff h).mpr hanswered.spoken, .inr ⟨last, mem_append_left _ hmem, rfl⟩⟩

theorem getLast?_messagesIn {turns : List JsonFields}
    (h : assistantText (itemsOf turns).reverse = .ok text) :
    text = (messagesIn turns).getLast?.map ToldMessage.text := by
  have htext := assistantText_eq _ h
  rwa [filterMap_reverse, List.head?_reverse] at htext

/-- What is read back, by what the thread has of the turn. -/
theorem readFinal_eq (h : readFinalAssistantMessage call = .ok text) :
    text = (recordedMessages call ++ messagesElsewhere call).getLast?.map ToldMessage.text := by
  unfold readFinalAssistantMessage at h
  unfold recordedMessages messagesElsewhere threadReadBack
  by_cases hthread : Text.orElse call.threadId "" = ""
  · rw [if_pos hthread] at h
    cases h
    cases call.threadRead with
    | fails => rfl
    | answered response => simp only [hthread, if_true]; rfl
  · rw [if_neg hthread] at h
    cases hread : call.threadRead with
    | fails =>
      rw [hread] at h
      cases h
      rfl
    | answered response =>
      rw [hread] at h
      simp only [hthread, if_false]
      unfold extractAssistantTextFromThread at h
      dsimp only at h
      cases hnamed : (turnsNamed response call.turnId).isEmpty with
      | true =>
        rw [hnamed, if_pos rfl] at h
        rw [isEmpty_iff.mp hnamed, if_pos rfl]
        exact getLast?_messagesIn h
      | false =>
        rw [hnamed, if_neg (by simp)] at h
        rw [if_neg (by simp), append_nil]
        exact getLast?_messagesIn h

theorem recorded_or_elsewhere (call : StreamCall) :
    recordedMessages call = [] ∨ messagesElsewhere call = [] := by
  unfold recordedMessages messagesElsewhere
  cases hnamed : (turnsNamed (threadReadBack call) call.turnId).isEmpty with
  | true =>
    rw [isEmpty_iff.mp hnamed]
    exact .inl rfl
  | false => exact .inr (if_neg (by simp))

theorem worded_messagesIn (turns : List JsonFields) : Worded (messagesIn turns) := by
  intro message hmessage
  obtain ⟨item, -, htold⟩ := mem_filterMap.mp hmessage
  obtain ⟨fields, -, hfields⟩ := Option.bind_eq_some_iff.mp htold
  exact messageOf_text_ne hfields

theorem orElse_of_ne {text : String} (h : text ≠ "") (default : String) :
    Text.orElse (some text) default = text := if_neg h

/-- No message was told, and the thread is read back. -/
theorem ownAnswer_iff_of_read (h : readFinalAssistantMessage call = .ok text) :
    OwnAnswer call [] (some (Text.orElse text call.completedMessage)) ↔ Answered call [] := by
  have htext := readFinal_eq h
  rcases recorded_or_elsewhere call with hrecorded | helsewhere
  · rw [hrecorded, nil_append] at htext
    cases hlast : (messagesElsewhere call).getLast? with
    | none =>
      rw [hlast] at htext
      subst htext
      refine iff_of_true ⟨fun text htext => ?_, .inl rfl⟩
        ⟨endInAnswer_nil _, fun _ _ => ?_, fun _ _ other hother => ?_⟩
      · rw [hrecorded] at htext
        cases htext
      · rw [hrecorded]
        exact endInAnswer_nil _
      · rw [hlast] at hother
        cases hother
    | some other =>
      have hne : other.text ≠ "" := by
        have hmem := mem_of_getLast? hlast
        unfold messagesElsewhere at hmem
        split at hmem
        · exact worded_messagesIn _ other hmem
        · cases hmem
      rw [hlast] at htext
      subst htext
      rw [Option.map_some, orElse_of_ne hne]
      constructor
      · intro hown
        refine ⟨endInAnswer_nil _, fun _ _ => ?_, fun _ _ found hfound => ?_⟩
        · rw [hrecorded]
          exact endInAnswer_nil _
        · rw [hlast] at hfound
          cases hfound
          rcases hown.own with hdefault | ⟨own, hmem, -⟩
          · exact Option.some.inj hdefault
          · rw [hrecorded] at hmem
            cases hmem
      · intro hanswered
        refine ⟨fun text htext => ?_, .inl ?_⟩
        · rw [hrecorded] at htext
          cases htext
        · exact congrArg some (hanswered.elsewhere rfl ⟨_, h⟩ other hlast)
  · have hnowhere : ∀ other, (messagesElsewhere call).getLast? = some other →
        other.text = call.completedMessage := by
      intro other hother
      rw [helsewhere] at hother
      cases hother
    rw [helsewhere, append_nil] at htext
    cases hlast : (recordedMessages call).getLast? with
    | none =>
      have hnil := List.getLast?_eq_none_iff.mp hlast
      rw [hlast] at htext
      subst htext
      refine iff_of_true ⟨fun text htext => ?_, .inl rfl⟩
        ⟨endInAnswer_nil _, fun _ _ => ?_, fun _ _ => hnowhere⟩
      · rw [hnil] at htext
        cases htext
      · rw [hnil]
        exact endInAnswer_nil _
    | some last =>
      have hmem := mem_of_getLast? hlast
      have hne : last.text ≠ "" := worded_messagesIn _ last hmem
      have hanswers : lastAnswer [] (recordedMessages call) =
          lastAnswer (recordedMessages call) [] := by
        simp [lastAnswer, answers]
      rw [hlast] at htext
      subst htext
      rw [Option.map_some, orElse_of_ne hne]
      constructor
      · intro hown
        refine ⟨endInAnswer_nil _, fun _ _ => ?_, fun _ _ => hnowhere⟩
        have hanswer := hown.answer
        rw [hanswers] at hanswer ⊢
        exact (endInAnswer_iff hlast).mp hanswer
      · intro hanswered
        have hends := hanswered.record rfl ⟨_, h⟩
        rw [hanswers] at hends
        refine ⟨fun text htext => ?_, .inr ⟨last, hmem, rfl⟩⟩
        rw [hanswers] at htext
        exact (endInAnswer_iff hlast).mpr hends text htext

theorem finalText_of_told (h : Remembers st told)
    (hworded : Worded told) (hlast : told.getLast? = some last) :
    finalText call st = .ok (some last.text) := by
  have hne : last.text ≠ "" := hworded last (mem_of_getLast? hlast)
  have hmessage : st.lastAssistantMessage = some last.text := by
    rw [h, hlast]
    rfl
  rw [finalText, hmessage, if_neg]
  rwa [orElse_of_ne hne]

theorem finalText_of_nil (h : Remembers st []) :
    finalText call st = readFinalAssistantMessage call := by
  have hmessage : st.lastAssistantMessage = none := h
  rw [finalText, hmessage]
  exact if_pos rfl

/-- The turn completes with an own answer exactly when its messages end in one. -/
theorem ownAnswer_iff (h : Remembers st told)
    (hworded : Worded told) (hfinal : finalText call st = .ok text) :
    OwnAnswer call told (completedEvent call text).message ↔ Answered call told := by
  cases hlast : told.getLast? with
  | some last =>
    have htold := hfinal.symm.trans (finalText_of_told h hworded hlast)
    have hne : last.text ≠ "" := hworded last (mem_of_getLast? hlast)
    cases htold
    rw [completedEvent, orElse_of_ne hne]
    exact ownAnswer_iff_of_told hlast
  | none =>
    have hnil := List.getLast?_eq_none_iff.mp hlast
    subst hnil
    rw [finalText_of_nil h] at hfinal
    exact ownAnswer_iff_of_read hfinal

/-- A turn whose record cannot be read back does not complete. -/
theorem answered_of_unread {error : PyError} (h : Remembers st told)
    (hworded : Worded told) (hfinal : finalText call st = .error error) : Answered call told := by
  cases hlast : told.getLast? with
  | some last =>
    have htold := hfinal.symm.trans (finalText_of_told h hworded hlast)
    cases htold
  | none =>
    have hnil := List.getLast?_eq_none_iff.mp hlast
    subst hnil
    rw [finalText_of_nil h] at hfinal
    have hno : ¬ ∃ text, readFinalAssistantMessage call = .ok text := by
      rintro ⟨text, htext⟩
      rw [hfinal] at htext
      cases htext
    exact ⟨endInAnswer_nil _, fun _ hread => absurd hread hno, fun _ hread => absurd hread hno⟩

end text

/-! ## The law -/

/-- How the stream stops with an event. -/
inductive Stopped (call : StreamCall) (told : List ToldMessage) (event : AppEvent) :
    Streamed → Prop
  | fails {s : Streamed} : completesTurn call event = false → isPlanItem call event = false →
      (∀ event ∈ s.yielded.dropLast, isEnd event = false) →
        (∀ event ∈ s.yielded, event.eventType ≠ .completed) → s.ending ≠ .listening →
          Stopped call told event s
  | proposes {plan : CodexEvent} : isPlanItem call event = true → holdsPlan event = true →
      completesTurn call event = false → isEnd plan = false →
        Stopped call told event ⟨[plan, proposalEvent], .returned⟩
  | completes {message : Option String} : completesTurn call event = true →
      isPlanItem call event = false →
        (OwnAnswer call told message ↔ Answered call told) →
          Stopped call told event ⟨[⟨.completed, message⟩], .returned⟩
  | unread {error : PyError} : completesTurn call event = true →
      isPlanItem call event = false → Answered call told →
        Stopped call told event ⟨[], .raised error⟩

variable {s : Streamed} {events : List AppEvent}

section law

variable {call : StreamCall} {told : List ToldMessage} {event : AppEvent}

theorem dropLast_of_length_le {α : Type} {l : List α} (h : l.length ≤ 1) : l.dropLast = [] := by
  rw [← length_eq_zero_iff, length_dropLast]
  omega

theorem stopped (hremembers : Remembers st told)
    (hworded : Worded told) (hstops : goesOn call [event] waits = false) (after : List AppEvent) :
    Stopped call told event (streamTurnEvents call st (event :: after) waits) := by
  have hstepped : Stepped call st event (loopStep call st event) := stepped st
  rw [streamTurnEvents]
  generalize loopStep call st event = result at hstepped ⊢
  cases hstepped with
  | passes hkind => simp [goesOn, hkind] at hstops
  | @asks st' question hkind hquiet hlast hnone hplan hending =>
    have hcompletes := completesTurn_of_none hending
    have htype : question.eventType ≠ .completed := by
      intro heq
      simp [isEnd, heq] at hquiet
    cases waits with
    | nil => exact .fails hcompletes hplan (by simp) (by simpa using htype) (by simp)
    | cons wait waits =>
      cases wait with
      | resolved => simp [goesOn, hkind] at hstops
      | aborted => exact .fails hcompletes hplan (by simp) (by simpa using htype) (by simp)
      | timedOut =>
        refine .fails hcompletes hplan (by simpa using hquiet) ?_ (by simp)
        simpa [timedOutEvent] using htype
  | @fails yielded ending hkind hcompletes hplan hlength hfailed hending =>
    refine .fails hcompletes hplan ?_ (fun event hevent heq => ?_) hending
    · rw [dropLast_of_length_le hlength]
      simp
    · have hboth := (hfailed event hevent).symm.trans heq
      cases hboth
  | proposes hkind hitem hholds hending hquiet =>
    exact .proposes hitem hholds (completesTurn_of_none hending) hquiet
  | completes hkind hcompletes hplan hfinal =>
    exact .completes hcompletes hplan (ownAnswer_iff hremembers hworded hfinal)
  | unread hkind hcompletes hplan hfinal =>
    exact .unread hcompletes hplan (answered_of_unread hremembers hworded hfinal)

theorem Stopped.once (h : Stopped call told event s) :
    ∀ event ∈ s.yielded.dropLast, isEnd event = false := by
  cases h with
  | fails _ _ hquiet => exact hquiet
  | proposes _ _ _ hquiet => simpa using hquiet
  | completes => simp
  | unread => simp

theorem Stopped.ending_ne (h : Stopped call told event s) :
    s.ending ≠ .listening := by
  cases h with
  | fails _ _ _ _ hending => exact hending
  | proposes | completes | unread => simp

/-- The events up to the one that stops the stream are read, and this one stops it. -/
theorem stops (hbefore : goesOn call before waits = true)
    (hstops : goesOn call (before ++ [event]) waits = false) :
    ∃ progress, (∀ event ∈ progress, isEnd event = false) ∧
      (∀ event ∈ before, endingTurn call event = none) ∧ ∀ after, ∃ s,
        Stopped call (before.filterMap (toldMessage call)) event s ∧
          streamTurnEvents call .empty (before ++ event :: after) waits = s.after progress := by
  have hnil : Remembers .empty [] := rfl
  obtain ⟨st, waits', progress, hread⟩ := goesOn_read call before hnil hbefore
  have hremembers : Remembers st (before.filterMap (toldMessage call)) := hread.remembers
  rw [hread.goes] at hstops
  exact ⟨progress, hread.quiet, hread.running, fun after =>
    ⟨_, stopped hremembers (worded_toldMessages call before) hstops after, hread.stream _⟩⟩

theorem streamed_of_goesOn (h : goesOn call events waits = true) :
    ∃ progress, (∀ event ∈ progress, isEnd event = false) ∧
      (∀ event ∈ events, endingTurn call event = none) ∧
        streamTurnEvents call .empty events waits = ⟨progress, .listening⟩ := by
  have hnil : Remembers .empty [] := rfl
  obtain ⟨st, waits', progress, hread⟩ := goesOn_read call events hnil h
  have hstream := hread.stream []
  rw [append_nil] at hstream
  refine ⟨progress, hread.quiet, hread.running, ?_⟩
  rw [hstream, streamTurnEvents]
  simp [Streamed.after]

/-- The stream listens on exactly while the loop goes on. -/
theorem listening_iff (events : List AppEvent) (waits : List WaitOutcome) :
    (streamTurnEvents call .empty events waits).ending = .listening ↔
      goesOn call events waits = true := by
  constructor
  · intro hlistening
    rcases goesOn_or_stops call events waits with hall | ⟨before, event, after, rfl, hbefore, hend⟩
    · exact hall
    · obtain ⟨progress, -, -, hs⟩ := stops hbefore hend
      obtain ⟨s, hstopped, hstream⟩ := hs after
      rw [hstream] at hlistening
      exact absurd hlistening hstopped.ending_ne
  · intro h
    obtain ⟨progress, -, -, hstream⟩ := streamed_of_goesOn h
    rw [hstream]

/-- One COMPLETED or FAILED event at most is yielded, and nothing after it. -/
theorem once_streamTurnEvents (events : List AppEvent) (waits : List WaitOutcome) :
    ∀ event ∈ (streamTurnEvents call .empty events waits).yielded.dropLast,
      isEnd event = false := by
  rcases goesOn_or_stops call events waits with hall | ⟨before, event, after, rfl, hbefore, hend⟩
  · obtain ⟨progress, hquiet, -, hstream⟩ := streamed_of_goesOn hall
    rw [hstream]
    exact fun event hevent => hquiet event ((dropLast_sublist progress).subset hevent)
  · obtain ⟨progress, hquiet, -, hs⟩ := stops hbefore hend
    obtain ⟨s, hstopped, hstream⟩ := hs after
    rw [hstream]
    intro other hother
    cases hyielded : s.yielded with
    | nil =>
      have hyields : (s.after progress).yielded = progress := by simp [Streamed.after, hyielded]
      rw [hyields] at hother
      exact hquiet other ((dropLast_sublist progress).subset hother)
    | cons first rest =>
      have hsplit : (s.after progress).yielded.dropLast = progress ++ s.yielded.dropLast :=
        dropLast_append_of_ne_nil (by simp [hyielded])
      rw [hsplit] at hother
      rcases mem_append.mp hother with hold | hnew
      · exact hquiet other hold
      · exact hstopped.once other hnew

theorem notMem_of_isEnd {type : ExecutorEventType} {message : Option String}
    {progress : List CodexEvent} (hquiet : ∀ event ∈ progress, isEnd event = false)
    (hend : isEnd ⟨type, message⟩ = true) : ⟨type, message⟩ ∉ progress := by
  intro hmem
  have hno := hquiet _ hmem
  rw [hend] at hno
  cases hno

theorem endingTurn_of_completes (h : completesTurn call event = true) :
    (endingTurn call event).isNone = false := by
  cases hending : endingTurn call event with
  | some turn => rfl
  | none =>
    rw [completesTurn_of_none hending] at h
    cases h

/-- The messages that are told before the turn ends, where it ends with an event. -/
theorem toldMessages_eq (after : List AppEvent)
    (hbefore : ∀ event ∈ before, endingTurn call event = none)
    (h : completesTurn call event = true) :
    toldMessages call (before ++ event :: after) = before.filterMap (toldMessage call) := by
  have htake : (before ++ event :: after).takeWhile
      (fun event => (endingTurn call event).isNone) = before := by
    rw [takeWhile_append_of_pos (fun other hother => by rw [hbefore other hother]; rfl),
      takeWhile_cons_of_neg (by rw [endingTurn_of_completes h]; simp), append_nil]
  rw [toldMessages, htake]

/-- A turn that is completed stops the loop. -/
theorem stops_of_completes
    (h : completesTurn call event = true) : goesOn call (before ++ [event]) waits = false := by
  cases hgoes : goesOn call (before ++ [event]) waits with
  | false => rfl
  | true =>
    obtain ⟨-, -, hnone, -⟩ := streamed_of_goesOn hgoes
    have hending := endingTurn_of_completes h
    rw [hnone event (by simp)] at hending
    cases hending

/-- The message of the COMPLETED event that the stream yields for an event of the turn. -/
theorem completed_iff {after : List AppEvent}
    (hbefore : goesOn call before waits = true) (h : completesTurn call event = true) : (∀ message,
      ⟨.completed, message⟩ ∈
          (streamTurnEvents call .empty (before ++ event :: after) waits).yielded →
        OwnAnswer call (toldMessages call (before ++ event :: after)) message) ↔
      Answered call (before.filterMap (toldMessage call)) := by
  obtain ⟨progress, hquiet, hrunning, hs⟩ := stops hbefore (stops_of_completes h)
  obtain ⟨s, hstopped, hstream⟩ := hs after
  rw [hstream, toldMessages_eq after hrunning h]
  have hnot : ∀ message, (⟨.completed, message⟩ : CodexEvent) ∉ progress :=
    fun message => notMem_of_isEnd hquiet rfl
  cases hstopped with
  | fails hcompletes | proposes _ _ hcompletes => exact absurd h (by simp [hcompletes])
  | @completes message _ _ hown =>
    rw [← hown]
    constructor
    · exact fun hall => hall message (mem_append_right _ (mem_singleton.mpr rfl))
    · intro hmessage other hother
      rcases mem_append.mp hother with hold | hnew
      · exact absurd hold (hnot other)
      · cases mem_singleton.mp hnew
        exact hmessage
  | unread _ _ hanswered =>
    refine iff_of_true (fun message hmessage => ?_) hanswered
    rcases mem_append.mp hmessage with hold | hnew
    · exact absurd hold (hnot message)
    · cases hnew

/-- A COMPLETED event is yielded for an event that the turn is completed with. -/
theorem completes_of_mem {message : Option String}
    (h : ⟨.completed, message⟩ ∈ (streamTurnEvents call .empty events waits).yielded) :
    ∃ before event after, events = before ++ event :: after ∧ goesOn call before waits = true ∧
      completesTurn call event = true := by
  rcases goesOn_or_stops call events waits with hall | ⟨before, event, after, rfl, hbefore, hend⟩
  · obtain ⟨progress, hquiet, -, hstream⟩ := streamed_of_goesOn hall
    rw [hstream] at h
    exact absurd h (notMem_of_isEnd hquiet rfl)
  · obtain ⟨progress, hquiet, -, hs⟩ := stops hbefore hend
    obtain ⟨s, hstopped, hstream⟩ := hs after
    rw [hstream] at h
    have hmem : ⟨.completed, message⟩ ∈ s.yielded := by
      rcases mem_append.mp h with hold | hnew
      · exact absurd hold (notMem_of_isEnd hquiet rfl)
      · exact hnew
    refine ⟨before, event, after, rfl, hbefore, ?_⟩
    cases hstopped with
    | fails _ _ _ hno => exact absurd rfl (hno _ hmem)
    | proposes _ _ _ hquiet =>
      rcases mem_cons.mp hmem with rfl | hproposal
      · cases hquiet
      · cases mem_singleton.mp hproposal
    | completes hcompletes | unread hcompletes => exact hcompletes

/-- A plan item that is read ends the stream with a question exactly when it holds a plan. -/
theorem endsWithQuestion_iff
    (hmode : call.planMode = true) (hbefore : goesOn call before waits = true)
    (hitem : isPlanItem call event = true) :
    EndsWithQuestion call before event waits ↔ holdsPlan event = true := by
  have hnil : Remembers .empty [] := rfl
  obtain ⟨st, waits', progress, hread⟩ := goesOn_read call before hnil hbefore
  have hstepped : Stepped call st event (loopStep call st event) := stepped st
  generalize hstep : loopStep call st event = result at hstepped
  cases hstepped with
  | @passes st' told _ _ _ hplan =>
    refine iff_of_false (fun hends => ?_) (by simp [hplan hmode hitem])
    obtain ⟨yielded, message, hall⟩ := hends
    have hlistening := hall []
    rw [hread.stream, streamTurnEvents, hstep] at hlistening
    cases congrArg Streamed.ending hlistening
  | asks _ _ _ _ hplan | fails _ _ hplan | completes _ _ hplan | unread _ _ hplan =>
    exact absurd hitem (by simp [hplan])
  | @proposes plan _ _ hholds =>
    refine iff_of_true ⟨progress ++ [plan], proposalEvent.message, fun after => ?_⟩ hholds
    rw [hread.stream, streamTurnEvents, hstep]
    simp [Streamed.after, proposalEvent]

/-- The stream of a turn keeps its law exactly when every plan that is completed in plan mode
holds something, and a completed turn has its own answer as the last of its messages. -/
theorem turn_stream_law_iff (call : StreamCall) (events : List AppEvent)
    (waits : List WaitOutcome) : StreamLaw call events waits ↔ Answerable call events waits := by
  constructor
  · intro hlaw
    refine ⟨fun hmode before event after hevents hbefore hitem => ?_,
      fun before event after hevents hbefore hcompletes => ?_⟩
    · have hlistening := (listening_iff before waits).mpr hbefore
      have hends := hlaw.planned hmode before event after hevents hlistening hitem
      exact (endsWithQuestion_iff hmode hbefore hitem).mp hends
    · have hcompleted := hlaw.completed
      rw [hevents] at hcompleted
      exact (completed_iff hbefore hcompletes).mp hcompleted
  · intro hanswerable
    refine ⟨once_streamTurnEvents events waits, fun message hmessage => ?_,
      fun hmode before event after hevents hlistening hitem => ?_⟩
    · obtain ⟨before, event, after, hevents, hbefore, hcompletes⟩ := completes_of_mem hmessage
      have hanswered := hanswerable.completed before event after hevents hbefore hcompletes
      rw [hevents] at hmessage ⊢
      exact (completed_iff hbefore hcompletes).mpr hanswered message hmessage
    · have hbefore := (listening_iff before waits).mp hlistening
      have hholds := hanswerable.planned hmode before event after hevents hbefore hitem
      exact (endsWithQuestion_iff hmode hbefore hitem).mpr hholds

end law

/-! ## Turns that do not keep it -/

def notified (method : String) (params : JsonFields) : AppEvent :=
  [("method", .str method), ("params", .dict (("turnId", .str "turn-1") :: params))]

def agentMessage (id phase text : String) : JsonFields :=
  [("type", .str "agentMessage"), ("id", .str id), ("phase", .str phase), ("text", .str text)]

def turnDone : AppEvent :=
  notified "turn/completed"
    [("turn", .dict [("id", .str "turn-1"), ("status", .str "completed")])]

/-- The thread holds the turn before, and not yet the one that is completed. -/
def olderThread : JsonFields :=
  [("thread", .dict [("turns", .list [.dict [("id", .str "turn-0"),
    ("items", .list [.dict (agentMessage "m0" "final_answer" "Old answer")])]])])]

def sampleCall (planMode : Bool) : StreamCall where
  str := fun _ => ""
  turnId := "turn-1"
  completedMessage := "Completed: Fix the build"
  planMode := planMode
  threadId := some "thread-1"
  threadRead := .answered olderThread

/-- Commentary after the answer is reported as the answer, the answer of the turn before is
reported for a turn that the thread does not have yet, and an empty plan does not block. -/
theorem old_answer_completes_turn : ¬ StreamLaw (sampleCall false)
        [notified "item/completed"
          [("item", .dict (agentMessage "m1" "final_answer" "The build is fixed."))],
        notified "item/completed"
          [("item", .dict (agentMessage "m2" "commentary" "Cleaning up."))], turnDone] [] ∧
      ¬ StreamLaw (sampleCall false) [turnDone] [] ∧
        ¬ StreamLaw (sampleCall true)
          [notified "item/completed"
            [("item", .dict [("type", .str "plan"), ("text", .str "")])], turnDone] [] := by
  refine ⟨fun hlaw => ?_, fun hlaw => ?_, fun hlaw => ?_⟩
  · have hown := hlaw.completed (some "Cleaning up.") (by decide +kernel)
    have hanswer := hown.answer "The build is fixed." (by decide)
    exact absurd hanswer (by decide)
  · have hown := hlaw.completed (some "Old answer") (by decide)
    exact absurd hown.own (by decide)
  · obtain ⟨told, message, hends⟩ := hlaw.planned rfl [] _ [turnDone] rfl rfl
      (by decide +kernel)
    have hreturned : _ = Ending.returned := congrArg Streamed.ending (hends [])
    exact absurd hreturned (by decide)

end Newbro.CodexTurn
