import Newbro.WebShell

/-!
# Progress of the web shell

A conversation holds no message that joined the history after it, so a load takes out exactly
what the stream has brought since. A mark is undone by the end of its own open, which does so
only while it is the latest, or by the next snapshot.
-/
namespace Newbro.WebShell

open Library Option List

variable {α : Type}

/-! ## Messages and their times -/

def StreamEvent.entry? : StreamEvent α → Option ConversationEntry
  | .snapshot _ => none
  | .userMessageAppended entry | .assistantResponseCompleted entry
  | .conversationAppended entry => some entry

/-- The message is that of an entry. -/
def ChatMessage.Of (history : List ConversationEntry) (message : ChatMessage) : Prop :=
  ∃ entry ∈ history, entry.messageId = message.id ∧ entry.producedAt = message.producedAt

/-- A conversation is a part of the history, as it was then. -/
def ConversationSnapshot.Past (history : List ConversationEntry)
    (conversation : ConversationSnapshot) : Prop :=
  ∀ entry ∈ conversation.conversationHistory,
    entry ∈ history ∧ entry.producedAt ≤ conversation.producedAt

/-- Everything that is shown, loaded or on its way is from the history. -/
structure Known (s : State α) : Prop where
  ids : (s.history.map (·.messageId)).Nodup
  times : ∀ entry ∈ s.history, entry.producedAt < s.clock
  queue : ∀ stream, s.stream = some stream → ∀ event ∈ stream.queue,
    ∀ entry, event.entry? = some entry → entry ∈ s.history
  loads : ∀ load ∈ s.loads.entries, ∀ conversation, load.conversation = some conversation →
    conversation.Past s.history
  chat : ∀ message ∈ s.chatMessages, message.Of s.history

variable {entry : ConversationEntry} {loadSequence : Nat} {pages : List (List BroThread)}
   {label : Label α}

variable {conversation : ConversationSnapshot} {event : StreamEvent α} {threads : List ShownThread}
   {shown : ShownThread}

section

variable {s s' : State α}

section

variable (h : Known s)
include h

/-- What follows from the history alone stays when nothing else changes. -/
theorem Known.of_same (hhistory : s'.history = s.history)
    (hclock : s'.clock = s.clock)
    (hqueue : ∀ stream, s'.stream = some stream → ∀ event ∈ stream.queue,
      ∀ entry, event.entry? = some entry → entry ∈ s.history)
    (hloads : ∀ load ∈ s'.loads.entries, ∀ conversation, load.conversation = some conversation →
      conversation.Past s.history)
    (hchat : ∀ message ∈ s'.chatMessages, message.Of s.history) : Known s' where
  ids := by
    rw [hhistory]
    exact h.ids
  times := by
    rw [hhistory, hclock]
    exact h.times
  queue := by
    rw [hhistory]
    exact hqueue
  loads := by
    rw [hhistory]
    exact hloads
  chat := by
    rw [hhistory]
    exact hchat

theorem Known.tick : Known { s with clock := s.clock + 1 } where
  ids := h.ids
  times entry hentry := by
    have htime := h.times entry hentry
    show entry.producedAt < s.clock + 1
    omega
  queue := h.queue
  loads := h.loads
  chat := h.chat

/-- A message joins the history at the present moment. -/
theorem known_appendMessage {sessionId messageId text createdAt : String}
    {role : Role} (hs : s.appendMessage sessionId messageId role text createdAt = some s') :
    Known { s' with clock := s'.clock + 1 } := by
  rw [State.appendMessage] at hs
  split_ifs at hs with hfresh
  cases hs
  have hnew : ∀ entry ∈ s.history, entry.messageId ≠ messageId := by simpa using hfresh
  have hgrow : ∀ entry ∈ s.history,
      entry ∈ s.history ++ [⟨messageId, role, text, createdAt, sessionId, s.clock⟩] :=
    fun entry hentry => mem_append_left _ hentry
  refine ⟨?_, fun entry hentry => ?_, fun stream hstream event hevent entry hentry => ?_,
    fun load hload conversation hconversation entry hentry => ?_, fun message hmessage => ?_⟩
  · show (List.map (fun entry : ConversationEntry => entry.messageId) (s.history ++ [_])).Nodup
    rw [map_append, map_singleton]
    refine nodup_append.mpr ⟨h.ids, nodup_singleton _, fun id hid other hother => ?_⟩
    obtain ⟨entry, hentry, rfl⟩ := mem_map.mp hid
    rw [mem_singleton.mp hother]
    exact hnew entry hentry
  · show entry.producedAt < s.clock + 1
    rcases mem_append.mp hentry with hentry | hentry
    · have htime := h.times entry hentry
      omega
    · rw [mem_singleton.mp hentry]
      exact Nat.lt_succ_self _
  · exact hgrow entry (h.queue stream hstream event hevent entry hentry)
  · obtain ⟨hmem, htime⟩ := h.loads load hload conversation hconversation entry hentry
    exact ⟨hgrow entry hmem, htime⟩
  · obtain ⟨entry, hentry, hid, htime⟩ := h.chat message hmessage
    exact ⟨entry, hgrow entry hentry, hid, htime⟩

theorem known_broadcast (event : StreamEvent α)
    (hevent : ∀ entry, event.entry? = some entry → entry ∈ s.history)
    (hs : s.broadcast event = some s') : Known s' := by
  obtain ⟨stream, hstream, rfl⟩ := map_eq_some_iff.mp hs
  refine h.of_same rfl rfl (fun stream' hstream' other hother entry hentry => ?_) h.loads h.chat
  cases hstream'
  rcases mem_append.mp hother with hother | hother
  · exact h.queue stream hstream other hother entry hentry
  · rw [mem_singleton.mp hother] at hentry
    exact hevent entry hentry

theorem known_publishMessage (hs : s.publishMessage entry = some s') : Known s' := by
  rw [State.publishMessage] at hs
  split_ifs at hs with hmem
  have hentry : ∀ other, some entry = some other → other ∈ s.history := by
    intro other heq
    cases heq
    exact hmem
  cases hrole : entry.role with
  | user =>
    rw [hrole] at hs
    exact known_broadcast h (.userMessageAppended entry) hentry hs
  | assistant =>
    rw [hrole] at hs
    exact known_broadcast h (.assistantResponseCompleted entry) hentry hs

theorem known_publishFallback (hs : s.publishFallback entry = some s') : Known s' := by
  rw [State.publishFallback] at hs
  split_ifs at hs with hmem
  refine known_broadcast h (.conversationAppended entry) (fun other heq => ?_) hs
  cases heq
  exact hmem.1

theorem known_appendChatMessage
    (hentry : entry ∈ s.history) (role : Role) : Known (s.appendChatMessage role entry) := by
  rw [State.appendChatMessage]
  split_ifs
  · exact h
  · refine h.of_same rfl rfl h.queue h.loads fun message hmessage => ?_
    rcases mem_append.mp hmessage with hmessage | hmessage
    · exact h.chat message hmessage
    · rw [mem_singleton.mp hmessage]
      exact ⟨entry, hentry, rfl, rfl⟩

theorem known_onMessage (hs : s.onMessage = some s') : Known s' := by
  obtain ⟨stream, hstream, hs⟩ := bind_eq_some_iff.mp hs
  split at hs
  · cases hs
  · rename_i event queue hqueue
    cases hs
    have hknown := h.queue stream hstream
    have htaken : Known { s with stream := some { stream with queue := queue } } := by
      refine h.of_same rfl rfl (fun stream' hstream' other hother entry hentry => ?_) h.loads
        h.chat
      cases hstream'
      exact hknown other (by rw [hqueue]; exact mem_cons_of_mem _ hother) entry hentry
    have hhead := hknown event (by rw [hqueue]; exact mem_cons_self)
    cases event with
    | snapshot snapshot => exact htaken.of_same rfl rfl htaken.queue htaken.loads htaken.chat
    | userMessageAppended entry | assistantResponseCompleted entry
    | conversationAppended entry => exact known_appendChatMessage htaken (hhead entry rfl) _

/-- What the server answers is the end of the history. -/
theorem past_conversationSnapshot (sessionId : String) :
    (s.conversationSnapshot sessionId).Past s.history := by
  intro entry hentry
  have hmem := mem_of_mem_filter (mem_of_mem_drop hentry)
  exact ⟨hmem, Nat.le_of_lt (h.times entry hmem)⟩

/-- The loads change. -/
theorem Known.putLoad {load : ShellLoad α}
    (hload : ∀ conversation, load.conversation = some conversation →
      conversation.Past s.history) : Known { s with loads := s.loads.put load } :=
  h.of_same rfl rfl h.queue (Table.forall_put h.loads hload) h.chat

theorem Known.eraseLoad (loadSequence : Nat) :
    Known { s with loads := s.loads.erase loadSequence } :=
  h.of_same rfl rfl h.queue (fun load hload => h.loads load (Table.mem_erase.mp hload).1) h.chat

theorem known_commitLoad (sessionId : String) (snapshot : SessionSnapshot α)
    (hpast : conversation.Past s.history)
    (pages : List (List BroThread)) :
    Known (s.commitLoad sessionId snapshot conversation pages) := by
  refine h.of_same rfl rfl h.queue h.loads fun message hmessage => ?_
  obtain ⟨entry, hentry, rfl⟩ := mem_map.mp hmessage
  exact ⟨entry, (hpast entry hentry).1, rfl, rfl⟩

end

/-- The end of a load that has its responses. -/
theorem finishLoad_eq_some
    (hs : s.finishLoad loadSequence pages = some s') :
    ∃ load snapshot conversation, s.loads.get? loadSequence = some load ∧
      load.snapshot = some snapshot ∧ load.conversation = some conversation ∧
      s' = if s.shellLoadSequence = loadSequence then
          ({ s with loads := s.loads.erase loadSequence } : State α).commitLoad load.sessionId
            snapshot conversation pages
        else { s with loads := s.loads.erase loadSequence } := by
  rw [State.finishLoad] at hs
  split at hs
  · rename_i sequence sessionId snapshot conversation hload
    exact ⟨_, snapshot, conversation, hload, rfl, rfl, (some.inj hs).symm⟩
  · cases hs

theorem known_finishLoad (h : Known s)
    (hs : s.finishLoad loadSequence pages = some s') : Known s' := by
  obtain ⟨load, snapshot, conversation, hload, -, hconversation, rfl⟩ := finishLoad_eq_some hs
  have hpast := h.loads load (Table.mem_of_get? hload) conversation hconversation
  split_ifs
  · exact known_commitLoad (h.eraseLoad loadSequence) load.sessionId snapshot hpast pages
  · exact h.eraseLoad loadSequence

/-- The threads and their opens have no part in the chat. -/
theorem Known.of_chat (h : Known s) (hhistory : s'.history = s.history)
    (hclock : s'.clock = s.clock) (hstream : s'.stream = s.stream) (hloads : s'.loads = s.loads)
    (hchat : s'.chatMessages = s.chatMessages) : Known s' := by
  refine h.of_same hhistory hclock ?_ ?_ ?_
  · rw [hstream]
    exact h.queue
  · rw [hloads]
    exact h.loads
  · rw [hchat]
    exact h.chat

theorem known_openThread (h : Known s) (key : OpenKey) : Known (s.openThread key) := by
  rw [State.openThread]
  split_ifs
  · exact h
  · exact h.of_chat rfl rfl rfl rfl rfl
  · exact h.of_chat rfl rfl rfl rfl rfl

theorem known_pageArrives (h : Known s) (key : OpenKey) (thread : BroThread)
    (turns : List BroTimelineTurn) : Known (s.pageArrives key thread turns) := by
  rw [State.pageArrives]
  split_ifs
  · exact h.of_chat rfl rfl rfl rfl rfl
  · exact h.of_chat rfl rfl rfl rfl rfl

theorem known_openFails (h : Known s) (key : OpenKey) (message : String) :
    Known (s.openFails key message) := by
  rw [State.openFails]
  split_ifs
  · exact h.of_chat rfl rfl rfl rfl rfl
  · exact h.of_chat rfl rfl rfl rfl rfl

theorem Known.step (h : Known s) (hs : s.step label = some s') : Known s' := by
  obtain ⟨t, ht, rfl⟩ := map_eq_some_iff.mp hs
  have hknown : Known { s with commit := none } := h.of_chat rfl rfl rfl rfl rfl
  cases label with
  | appendMessage sessionId messageId role text createdAt => exact known_appendMessage hknown ht
  | publishMessage entry => exact (known_publishMessage hknown ht).tick
  | publishFallback entry => exact (known_publishFallback hknown ht).tick
  | publishSnapshot threads turns content =>
    refine (known_broadcast hknown (.snapshot ⟨threads, turns, content, s.clock⟩) ?_ ht).tick
    intro entry hentry
    cases hentry
  | openStream =>
    obtain ⟨sessionId, -, rfl⟩ := map_eq_some_iff.mp ht
    apply Known.tick
    refine hknown.of_same rfl rfl (fun stream hstream event hevent => ?_) hknown.loads hknown.chat
    cases hstream
    cases hevent
  | closeStream =>
    cases ht
    apply Known.tick
    exact hknown.of_same rfl rfl (fun stream hstream => by cases hstream) hknown.loads hknown.chat
  | onMessage => exact (known_onMessage hknown ht).tick
  | loadShellSession sessionId =>
    cases ht
    apply Known.tick
    refine hknown.of_same rfl rfl hknown.queue (Table.forall_put hknown.loads ?_) hknown.chat
    intro conversation hnone
    cases hnone
  | serveSnapshot loadSequence threads turns content =>
    obtain ⟨load, hload, rfl⟩ := map_eq_some_iff.mp ht
    have hget := (filter_eq_some_iff.mp hload).1
    apply Known.tick
    exact hknown.putLoad (h.loads load (Table.mem_of_get? hget))
  | serveConversation loadSequence =>
    obtain ⟨load, -, rfl⟩ := map_eq_some_iff.mp ht
    apply Known.tick
    refine hknown.putLoad fun conversation hconversation => ?_
    cases hconversation
    exact past_conversationSnapshot hknown load.sessionId
  | finishLoad loadSequence pages => exact (known_finishLoad hknown ht).tick
  | failLoad loadSequence =>
    obtain ⟨load, -, rfl⟩ := map_eq_some_iff.mp ht
    exact (hknown.eraseLoad loadSequence).tick
  | openThread key =>
    cases ht
    exact (known_openThread hknown key).tick
  | pageArrives key status error turns =>
    simp only [State.act] at ht
    split_ifs at ht
    cases ht
    exact (known_pageArrives hknown key _ turns).tick
  | openFails key message =>
    simp only [State.act] at ht
    split_ifs at ht
    cases ht
    exact (known_openFails hknown key message).tick

/-! ## Loads that end -/

/-- What a conversation holds is not younger than it. -/
theorem producedAt_le_of_hydrated (h : Known s) {message : ChatMessage}
    (hmessage : message ∈ s.chatMessages)
    (hpast : conversation.Past s.history)
    (hkept : ∃ kept ∈ conversation.conversationHistory.map State.hydrate,
      kept.id = message.id) : message.producedAt ≤ conversation.producedAt := by
  obtain ⟨kept, hmem, hid⟩ := hkept
  obtain ⟨entry, hentry, rfl⟩ := mem_map.mp hmem
  obtain ⟨hold, htime⟩ := hpast entry hentry
  obtain ⟨other, hother, hother_id, hother_time⟩ := h.chat message hmessage
  have hid : entry.messageId = other.messageId := hid.trans hother_id.symm
  have hsame : entry = other := inj_on_of_nodup_map h.ids hold hother hid
  rw [← hother_time, ← hsame]
  exact htime

theorem commit_appendChatMessage (role : Role) (entry : ConversationEntry) :
    (s.appendChatMessage role entry).commit = s.commit := by
  rw [State.appendChatMessage]
  split_ifs
  · rfl
  · rfl

theorem commit_broadcast (hs : s.broadcast event = some s') :
    s'.commit = s.commit := by
  obtain ⟨stream, -, rfl⟩ := map_eq_some_iff.mp hs
  rfl

/-- Only the end of a load is a commit. -/
theorem commit_act (hlabel : ∀ sequence pages, label ≠ .finishLoad sequence pages)
    (hs : s.act label = some s') : s'.commit = s.commit := by
  cases label with
  | appendMessage sessionId messageId role text createdAt =>
    simp only [State.act, State.appendMessage] at hs
    split_ifs at hs
    cases hs
    rfl
  | publishMessage entry =>
    simp only [State.act, State.publishMessage] at hs
    split_ifs at hs
    split at hs
    · exact commit_broadcast hs
    · exact commit_broadcast hs
  | publishFallback entry =>
    simp only [State.act, State.publishFallback] at hs
    split_ifs at hs
    exact commit_broadcast hs
  | publishSnapshot threads turns content => exact commit_broadcast hs
  | openStream =>
    obtain ⟨sessionId, -, rfl⟩ := map_eq_some_iff.mp hs
    rfl
  | closeStream | loadShellSession =>
    cases hs
    rfl
  | onMessage =>
    obtain ⟨stream, -, hs⟩ := bind_eq_some_iff.mp hs
    split at hs
    · cases hs
    · rename_i event queue _
      cases hs
      cases event with
      | snapshot snapshot => rfl
      | userMessageAppended entry => exact commit_appendChatMessage _ entry
      | assistantResponseCompleted entry => exact commit_appendChatMessage _ entry
      | conversationAppended entry => exact commit_appendChatMessage _ entry
  | serveSnapshot | serveConversation | failLoad =>
    obtain ⟨load, -, rfl⟩ := map_eq_some_iff.mp hs
    rfl
  | finishLoad loadSequence pages => exact absurd rfl (hlabel loadSequence pages)
  | openThread key =>
    cases hs
    rw [State.openThread]
    split_ifs
    · rfl
    · rfl
    · rfl
  | pageArrives key status error turns =>
    simp only [State.act] at hs
    split_ifs at hs
    cases hs
    rw [State.pageArrives]
    split_ifs
    · rfl
    · rfl
  | openFails key message =>
    simp only [State.act] at hs
    split_ifs at hs
    cases hs
    rw [State.openFails]
    split_ifs
    · rfl
    · rfl

theorem kept_of_no_commit (h : s.commit = none) : s.ChatKept ∧ s.ListsKept := by
  refine ⟨fun commit hcommit => ?_, fun commit hcommit => ?_⟩
  · cases h.symm.trans hcommit
  · cases h.symm.trans hcommit

/-- A load that ends keeps the view moving forward exactly if it finds nothing younger. -/
theorem kept_finishLoad_iff (h : Known s) {loadSequence : Nat}
    {pages : List (List BroThread)} (hcommit : s.commit = none)
    (hs : s.finishLoad loadSequence pages = some s') :
    s'.ChatKept ∧ s'.ListsKept ↔ s.CommitsNewest (.finishLoad loadSequence pages) := by
  obtain ⟨load, snapshot, conversation, hload, hsnapshot, hconversation, rfl⟩ :=
    finishLoad_eq_some hs
  have hpast := h.loads load (Table.mem_of_get? hload) conversation hconversation
  by_cases hlatest : s.shellLoadSequence = loadSequence
  · rw [if_pos hlatest]
    constructor
    · rintro ⟨hchat, hlists⟩ load' snapshot' conversation' hload' _ hsnapshot' hconversation'
      cases hload.symm.trans hload'
      cases hsnapshot.symm.trans hsnapshot'
      cases hconversation.symm.trans hconversation'
      refine ⟨fun message hmessage hstreamed => ?_, fun shown hshown hstreamed => ?_⟩
      · by_contra hyounger
        have hkept := hchat _ rfl message hmessage hstreamed (Nat.lt_of_not_le hyounger)
        exact hyounger (producedAt_le_of_hydrated h hmessage hpast hkept)
      · exact hlists _ rfl shown hshown hstreamed
    · intro hnewest
      obtain ⟨hchat, hlists⟩ :=
        hnewest load snapshot conversation hload hlatest hsnapshot hconversation
      refine ⟨fun commit hcommit message hmessage hstreamed hyounger => ?_,
        fun commit hcommit shown hshown hstreamed => ?_⟩
      · cases hcommit
        exact absurd (hchat message hmessage hstreamed) (Nat.not_le_of_lt hyounger)
      · cases hcommit
        exact hlists shown hshown hstreamed
  · rw [if_neg hlatest]
    refine iff_of_true (kept_of_no_commit hcommit) ?_
    intro load' snapshot' conversation' _ hsequence
    exact absurd hsequence hlatest

theorem kept_step_iff (h : Known s) {label : Label α} (hs : s.step label = some s') :
    s'.ChatKept ∧ s'.ListsKept ↔ s.CommitsNewest label := by
  obtain ⟨t, ht, rfl⟩ := map_eq_some_iff.mp hs
  have hknown : Known { s with commit := none } := h.of_chat rfl rfl rfl rfl rfl
  show t.ChatKept ∧ t.ListsKept ↔ _
  by_cases hlabel : ∃ sequence pages, label = .finishLoad sequence pages
  · obtain ⟨sequence, pages, rfl⟩ := hlabel
    exact kept_finishLoad_iff hknown rfl ht
  · have hother : ∀ sequence pages, label ≠ .finishLoad sequence pages :=
      fun sequence pages heq => hlabel ⟨sequence, pages, heq⟩
    refine iff_of_true (kept_of_no_commit (commit_act hother ht)) ?_
    cases label with
    | finishLoad sequence pages => exact absurd rfl (hother sequence pages)
    | _ => trivial

/-! ## Marks -/

/-- What carries a mark is being opened. -/
structure Marked (s : State α) : Prop where
  threads : ∀ shown ∈ s.broThreads, shown.marked = true →
    ∃ key ∈ s.threadOpenInFlight, key.threadId = shown.threadId
  opening : ∀ threadId, s.openingThreadId = some threadId →
    ∃ key ∈ s.threadOpenInFlight, key.threadId = threadId

theorem Marked.settled (h : Marked s) : s.Settled := by
  intro _ hnone
  have hfree : ∀ threadId, ¬ ∃ key ∈ s.threadOpenInFlight, key.threadId = threadId := by
    rintro threadId ⟨key, hkey, -⟩
    rw [hnone] at hkey
    cases hkey
  refine ⟨fun shown hshown => ?_, ?_⟩
  · cases hmarked : shown.marked with
    | false => rfl
    | true => exact absurd (h.threads shown hshown hmarked) (hfree _)
  · cases hopening : s.openingThreadId with
    | none => rfl
    | some threadId => exact absurd (h.opening threadId hopening) (hfree _)

theorem Marked.of_same (h : Marked s) (hopens : s'.threadOpenInFlight = s.threadOpenInFlight)
    (hopening : s'.openingThreadId = s.openingThreadId)
    (hthreads : ∀ shown ∈ s'.broThreads, shown.marked = true → shown ∈ s.broThreads) :
    Marked s' := by
  refine ⟨fun shown hshown hmarked => ?_, fun threadId hthread => ?_⟩
  · rw [hopens]
    exact h.threads shown (hthreads shown hshown hmarked) hmarked
  · rw [hopening] at hthread
    rw [hopens]
    exact h.opening threadId hthread

theorem mem_upsertThread {thread : BroThread}
    (h : shown ∈ upsertThread threads thread) :
    shown = ⟨thread, false⟩ ∨ shown ∈ threads ∧ shown.threadId ≠ thread.threadId := by
  rw [upsertThread] at h
  split_ifs at h with hany
  · obtain ⟨candidate, hcandidate, rfl⟩ := mem_map.mp h
    split_ifs with hid
    · exact Or.inl rfl
    · exact Or.inr ⟨hcandidate, hid⟩
  · rcases mem_cons.mp h with rfl | hmem
    · exact Or.inl rfl
    · right
      refine ⟨hmem, fun hid => hany ?_⟩
      exact any_eq_true.mpr ⟨shown, hmem, by simpa using hid⟩

theorem mem_markThreadTimeline {threadId : String}
    {status : TimelineStatus} {error : Option String}
    (h : shown ∈ markThreadTimeline threads threadId status error) :
    shown.threadId = threadId ∧ shown.marked = decide (status = .loading) ∨
      shown ∈ threads ∧ shown.threadId ≠ threadId := by
  obtain ⟨candidate, hcandidate, rfl⟩ := mem_map.mp h
  split_ifs with hid
  · exact Or.inl ⟨hid, rfl⟩
  · exact Or.inr ⟨hcandidate, hid⟩

/-- Pages bring no marks. -/
theorem marked_foldl_upsertThread (page : List BroThread) (threads : List ShownThread)
    (shown : ShownThread) (h : shown ∈ page.foldl upsertThread threads)
    (hmarked : shown.marked = true) : shown ∈ threads := by
  induction page generalizing threads with
  | nil => exact h
  | cons thread page ih =>
    rcases mem_upsertThread (ih (upsertThread threads thread) h) with rfl | ⟨hmem, -⟩
    · cases hmarked
    · exact hmem

theorem marked_foldl_pages (pages : List (List BroThread)) (threads : List ShownThread)
    (shown : ShownThread)
    (h : shown ∈ pages.foldl (fun threads page => page.foldl upsertThread threads) threads)
    (hmarked : shown.marked = true) : shown ∈ threads := by
  induction pages generalizing threads with
  | nil => exact h
  | cons page pages ih =>
    exact marked_foldl_upsertThread page threads shown (ih (page.foldl upsertThread threads) h)
      hmarked

/-- The lists of a snapshot carry no mark. -/
theorem marked_applySnapshot (s : State α) (snapshot : SessionSnapshot α) (streamed : Bool)
    (shown : ShownThread) (h : shown ∈ (s.applySnapshot snapshot streamed).broThreads) :
    shown.marked = false := by
  obtain ⟨thread, -, rfl⟩ := mem_map.mp h
  rfl

section

variable (h : Marked s)
include h

theorem marked_openThread (key : OpenKey) : Marked (s.openThread key) := by
  rw [State.openThread]
  split_ifs with hactive hinFlight
  · exact h
  · refine ⟨h.threads, fun threadId hopening => ?_⟩
    cases hopening
    exact ⟨key, hinFlight, rfl⟩
  · have hgrow : ∀ threadId, (∃ other ∈ s.threadOpenInFlight, other.threadId = threadId) →
        ∃ other ∈ s.threadOpenInFlight ++ [key], other.threadId = threadId := by
      rintro threadId ⟨other, hother, hid⟩
      exact ⟨other, mem_append_left _ hother, hid⟩
    refine ⟨fun shown hshown hmarked => ?_, fun threadId hopening => ?_⟩
    · rcases mem_markThreadTimeline hshown with ⟨hid, -⟩ | ⟨hmem, -⟩
      · exact ⟨key, by simp, hid.symm⟩
      · exact hgrow _ (h.threads shown hmem hmarked)
    · cases hopening
      exact ⟨key, by simp, rfl⟩

/-- An open that ends takes its key out, and leaves no mark of its thread. -/
theorem Marked.finish (key : OpenKey) (hthreads : ∀ shown ∈ s'.broThreads, shown.marked = true →
      shown ∈ s.broThreads ∧ shown.threadId ≠ key.threadId)
    (hopens : s'.threadOpenInFlight = s.threadOpenInFlight)
    (hopening : s'.openingThreadId = s.openingThreadId) : Marked (s'.finishThreadOpen key) := by
  have hrest : ∀ threadId, threadId ≠ key.threadId →
      (∃ other ∈ s.threadOpenInFlight, other.threadId = threadId) →
        ∃ other ∈ s'.threadOpenInFlight.erase key, other.threadId = threadId := by
    rintro threadId hne ⟨other, hother, hid⟩
    refine ⟨other, ?_, hid⟩
    have hother_ne : other ≠ key := by
      rintro rfl
      exact hne hid.symm
    rw [hopens]
    exact (mem_erase_of_ne hother_ne).mpr hother
  refine ⟨fun shown hshown hmarked => ?_, fun threadId hthread => ?_⟩
  · obtain ⟨hmem, hne⟩ := hthreads shown hshown hmarked
    exact hrest _ hne (h.threads shown hmem hmarked)
  · have hthread : (if s'.openingThreadId = some key.threadId then none
        else s'.openingThreadId) = some threadId := hthread
    split_ifs at hthread with hsame
    rw [hopening] at hthread hsame
    refine hrest threadId (fun hid => hsame ?_) (h.opening threadId hthread)
    rw [hthread, hid]

theorem marked_pageArrives (key : OpenKey) (thread : BroThread)
    (hthread : thread.threadId = key.threadId) (turns : List BroTimelineTurn)
    (hends : s.threadOpenLatestKey = some key ∨
      ∀ shown ∈ s.broThreads, shown.threadId = key.threadId → shown.marked = false) :
    Marked (s.pageArrives key thread turns) := by
  rw [State.pageArrives]
  split_ifs with hlatest
  · refine h.finish key (fun shown hshown hmarked => ?_) rfl rfl
    rcases mem_upsertThread hshown with rfl | ⟨hmem, hne⟩
    · cases hmarked
    · exact ⟨hmem, hthread ▸ hne⟩
  · refine h.finish key (fun shown hshown hmarked => ⟨hshown, fun hid => ?_⟩) rfl rfl
    have hunmarked := (hends.resolve_left hlatest) shown hshown hid
    rw [hunmarked] at hmarked
    cases hmarked

theorem marked_openFails (key : OpenKey) (message : String)
    (hends : s.threadOpenLatestKey = some key ∨
      ∀ shown ∈ s.broThreads, shown.threadId = key.threadId → shown.marked = false) :
    Marked (s.openFails key message) := by
  rw [State.openFails]
  split_ifs with hlatest
  · refine h.finish key (fun shown hshown hmarked => ?_) rfl rfl
    rcases mem_markThreadTimeline hshown with ⟨-, hfailed⟩ | hother
    · rw [hfailed] at hmarked
      cases hmarked
    · exact hother
  · refine h.finish key (fun shown hshown hmarked => ⟨hshown, fun hid => ?_⟩) rfl rfl
    have hunmarked := (hends.resolve_left hlatest) shown hshown hid
    rw [hunmarked] at hmarked
    cases hmarked

theorem marked_finishLoad (hs : s.finishLoad loadSequence pages = some s') : Marked s' := by
  obtain ⟨load, snapshot, conversation, -, -, -, rfl⟩ := finishLoad_eq_some hs
  split_ifs
  · refine h.of_same rfl rfl fun shown hshown hmarked => ?_
    have hmem := marked_foldl_pages pages _ shown hshown hmarked
    rw [marked_applySnapshot _ snapshot false shown hmem] at hmarked
    cases hmarked
  · exact h.of_same rfl rfl fun _ hshown _ => hshown

theorem marked_handleEvent (event : StreamEvent α) : Marked (s.handleEvent event) := by
  have happend : ∀ role entry, Marked (s.appendChatMessage role entry) := by
    intro role entry
    rw [State.appendChatMessage]
    split_ifs
    · exact h
    · exact h.of_same rfl rfl fun _ hshown _ => hshown
  cases event with
  | snapshot snapshot =>
    refine h.of_same rfl rfl fun shown hshown hmarked => ?_
    rw [marked_applySnapshot s snapshot true shown hshown] at hmarked
    cases hmarked
  | userMessageAppended entry => exact happend .user entry
  | assistantResponseCompleted entry | conversationAppended entry => exact happend .assistant entry

theorem marked_broadcast
    (hs : s.broadcast event = some s') : Marked s' := by
  obtain ⟨stream, -, rfl⟩ := map_eq_some_iff.mp hs
  exact h.of_same rfl rfl fun _ hshown _ => hshown

theorem Marked.step (hends : s.EndsLatest label) (hs : s.step label = some s') : Marked s' := by
  obtain ⟨t, ht, rfl⟩ := map_eq_some_iff.mp hs
  have hmarked : Marked { s with commit := none } := ⟨h.threads, h.opening⟩
  suffices hnow : Marked t from ⟨hnow.threads, hnow.opening⟩
  cases label with
  | appendMessage sessionId messageId role text createdAt =>
    simp only [State.act, State.appendMessage] at ht
    split_ifs at ht
    cases ht
    exact hmarked.of_same rfl rfl fun _ hshown _ => hshown
  | publishMessage entry =>
    simp only [State.act, State.publishMessage] at ht
    split_ifs at ht
    split at ht
    · exact marked_broadcast hmarked ht
    · exact marked_broadcast hmarked ht
  | publishFallback entry =>
    simp only [State.act, State.publishFallback] at ht
    split_ifs at ht
    exact marked_broadcast hmarked ht
  | publishSnapshot threads turns content => exact marked_broadcast hmarked ht
  | openStream =>
    obtain ⟨sessionId, -, rfl⟩ := map_eq_some_iff.mp ht
    exact hmarked.of_same rfl rfl fun _ hshown _ => hshown
  | closeStream | loadShellSession =>
    cases ht
    exact hmarked.of_same rfl rfl fun _ hshown _ => hshown
  | onMessage =>
    obtain ⟨stream, -, ht⟩ := bind_eq_some_iff.mp ht
    split at ht
    · cases ht
    · rename_i event queue _
      cases ht
      refine marked_handleEvent ?_ event
      exact hmarked.of_same rfl rfl fun _ hshown _ => hshown
  | serveSnapshot | serveConversation | failLoad =>
    obtain ⟨load, -, rfl⟩ := map_eq_some_iff.mp ht
    exact hmarked.of_same rfl rfl fun _ hshown _ => hshown
  | finishLoad loadSequence pages => exact marked_finishLoad hmarked ht
  | openThread key =>
    cases ht
    exact marked_openThread hmarked key
  | pageArrives key status error turns =>
    simp only [State.act] at ht
    split_ifs at ht
    cases ht
    exact marked_pageArrives hmarked key _ rfl turns hends
  | openFails key message =>
    simp only [State.act] at ht
    split_ifs at ht
    cases ht
    exact marked_openFails hmarked key message hends

end

/-! ## Every run -/

theorem known_initialState : Known (initialState : State α) where
  ids := nodup_nil
  times _ h := absurd h not_mem_nil
  queue _ h := by cases h
  loads _ h := absurd h not_mem_nil
  chat _ h := absurd h not_mem_nil

theorem marked_initialState : Marked (initialState : State α) :=
  ⟨fun _ h => absurd h not_mem_nil, fun _ h => by cases h⟩

end

/-- The view advances along a run exactly if no load ends behind the stream, and it settles if
every open that ends is the latest one. -/
theorem view_advances_iff (labels : List (Label α)) :
    ((system α).Always (fun s => s.ChatKept ∧ s.ListsKept) initialState labels ↔
      (system α).Along State.CommitsNewest initialState labels) ∧
    ((system α).Along State.EndsLatest initialState labels →
      (system α).Always State.Settled initialState labels) := by
  refine ⟨⟨fun h => ?_, fun h => ?_⟩, fun h => ?_⟩
  · refine h.along (I := Known) (Q := fun _ _ => True) ?_ ?_ known_initialState
      (System.along_true ..)
    · exact fun s label s' hs _ hstep => hs.step hstep
    · exact fun s label s' hs _ hstep hlaw => (kept_step_iff hs hstep).mp hlaw
  · have halways := h.always (I := fun s => Known s ∧ s.ChatKept ∧ s.ListsKept)
      ⟨known_initialState, kept_of_no_commit rfl⟩ fun s label s' hs hc hstep =>
        ⟨hs.1.step hstep, (kept_step_iff hs.1 hstep).mpr hc⟩
    exact halways.mono fun s hs => hs.2
  · have halways := h.always (I := Marked) marked_initialState
      fun s label s' hs hc hstep => hs.step hc hstep
    exact halways.mono fun s hs => hs.settled

/-! ## Views that regress -/

def firstLoad (threads : List BroThread) : List (Label Unit) :=
  [ .loadShellSession "session-1", .serveSnapshot 1 threads [] (), .serveConversation 1,
    .finishLoad 1 [], .openStream ]

/-- A message is appended and shown while a second load waits for its other responses. -/
def lostMessage : List (Label Unit) :=
  firstLoad [] ++
    [ .loadShellSession "session-1", .serveConversation 2,
      .appendMessage "session-1" "message-1" .user "hello" "12:00",
      .publishMessage ⟨"message-1", .user, "hello", "12:00", "session-1", 7⟩, .onMessage,
      .serveSnapshot 2 [] [] (), .finishLoad 2 [] ]

/-- The stream brings a snapshot while a second load has an older one. -/
def lostSnapshot : List (Label Unit) :=
  firstLoad [] ++
    [ .loadShellSession "session-1", .serveSnapshot 2 [] [] (), .publishSnapshot [] [] (),
      .onMessage, .serveConversation 2, .finishLoad 2 [] ]

/-- One thread is opened after the other, and the page of the first is dropped. -/
def lostMark : List (Label Unit) :=
  firstLoad [⟨"thread-1", .notLoaded, none⟩, ⟨"thread-2", .notLoaded, none⟩] ++
    [ .openThread ⟨"persona-1", "thread-1"⟩, .openThread ⟨"persona-1", "thread-2"⟩,
      .pageArrives ⟨"persona-1", "thread-1"⟩ .loaded none [],
      .pageArrives ⟨"persona-1", "thread-2"⟩ .loaded none [] ]

/-- The view may regress in each of the three ways. -/
theorem view_regresses : (¬ ∀ labels, (system Unit).Always State.ChatKept initialState labels) ∧
      (¬ ∀ labels, (system Unit).Always State.ListsKept initialState labels) ∧
      ¬ ∀ labels, (system Unit).Always State.Settled initialState labels := by
  refine ⟨fun h => ?_, fun h => ?_, fun h => ?_⟩
  · have hrun : ((system Unit).run initialState lostMessage).isSome = true := by decide
    have hkept := (h lostMessage).at_end (System.run_eq_target hrun)
    have hcommit : ∃ commit, ((system Unit).target initialState lostMessage).commit = some commit ∧
        ∃ message ∈ commit.chatBefore, message.streamed = true ∧
          commit.conversation.producedAt < message.producedAt := by
      refine ⟨_, rfl, ?_⟩
      decide
    obtain ⟨commit, hcommit, message, hmessage, hstreamed, hyounger⟩ := hcommit
    obtain ⟨kept, hmem, -⟩ := hkept commit hcommit message hmessage hstreamed hyounger
    have hnone : ((system Unit).target initialState lostMessage).chatMessages = [] := by decide
    rw [hnone] at hmem
    cases hmem
  · have hrun : ((system Unit).run initialState lostSnapshot).isSome = true := by decide
    have hkept := (h lostSnapshot).at_end (System.run_eq_target hrun)
    have hcommit : ∃ commit, ((system Unit).target initialState lostSnapshot).commit =
        some commit ∧ ∃ shown, commit.shownBefore = some shown ∧ shown.streamed = true ∧
          commit.snapshot.producedAt < shown.producedAt :=
      ⟨_, rfl, _, rfl, by decide, by decide⟩
    obtain ⟨commit, hcommit, shown, hshown, hstreamed, hyounger⟩ := hcommit
    exact absurd (hkept commit hcommit shown hshown hstreamed) (Nat.not_le_of_lt hyounger)
  · have hrun : ((system Unit).run initialState lostMark).isSome = true := by decide
    have hsettled := (h lostMark).at_end (System.run_eq_target hrun)
    have hunmarked := (hsettled (by decide) (by decide)).1
    have hmarked : ∃ shown ∈ ((system Unit).target initialState lostMark).broThreads,
        shown.marked = true := by decide
    obtain ⟨shown, hshown, hmark⟩ := hmarked
    rw [hunmarked shown hshown] at hmark
    cases hmark

end Newbro.WebShell
