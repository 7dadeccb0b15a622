import Newbro.ToolCalling

/-!
# What the tool loop asks the model, and what it raises for

Every request has, after a message with tool calls, one answer for each call. The loop goes on
over whatever a tool answers, but not over an argument string that is no JSON.
-/
namespace Newbro.ToolCalling

open Library Library.Effect Protocol

variable {σ ρ : Type}

/-! ## The law -/

def ChatMessage.isAssistant : ChatMessage → Bool
  | .assistant _ _ => true
  | _ => false

/-- The call that a message answers. -/
def ChatMessage.answered : ChatMessage → Option String
  | .tool toolCallId _ => some toolCallId
  | _ => none

/-- The calls that are answered before the assistant's next message, in the order of the answers. -/
def answeredCalls (messages : List ChatMessage) : List String :=
  (messages.takeWhile fun message => !message.isAssistant).filterMap ChatMessage.answered

/-- After every message with tool calls each call is answered once, in order, before the next. -/
def AllAnswered : List ChatMessage → Prop
  | [] => True
  | .assistant _ calls :: messages =>
    answeredCalls messages = calls.map ToolCall.id ∧ AllAnswered messages
  | _ :: messages => AllAnswered messages

/-- The loop does not raise for an argument string, and every request it sends has the answers. -/
structure Survives (ended : Ended σ ρ) : Prop where
  reads : ∀ error, ended.1 ≠ .error (.arguments error)
  answered : ∀ request ∈ ended.2.requests, AllAnswered request

/-- The argument string is empty or JSON. -/
def Readable (e : Surroundings σ ρ) (call : ToolCall) : Prop :=
  ∃ args, parseToolArgs e.loads call.arguments = .ok args

/-- The argument strings of the calls are readable, as far as the loop comes: a call that raises for
another reason is the last. -/
def CallsReadable (e : Surroundings σ ρ) : List ToolCall → Conversation σ ρ → Prop
  | [], _ => True
  | call :: calls, c => Readable e call ∧
      ∀ c', exec (answerCall e call) c = (.ok (), c') → CallsReadable e calls c'

/-- The argument strings in the replies are readable, as far as the loop comes. -/
def RoundsReadable (e : Surroundings σ ρ) :
    Nat → (Nat → Round) → Conversation σ ρ → Prop
  | 0, _, _ => True
  | count + 1, replies, c =>
    if (replies 0).calls = [] then
      (replies 0).text = none → RoundsReadable e count (fun i => replies (i + 1)) c.ask
    else
      CallsReadable e (replies 0).calls (c.ask.say (replies 0)) ∧
        ∀ c', exec (answerCalls e (replies 0).calls) (c.ask.say (replies 0)) = (.ok (), c') →
          RoundsReadable e count (fun i => replies (i + 1)) c'

/-! ## One call -/

section call

variable (e : Surroundings σ ρ) (call : ToolCall) (c : Conversation σ ρ)

/-- What answering a call leaves: the requests are as they were, the tool runner has been called
once with what the argument string says, nothing is raised for the string, and if nothing is raised
at all the answer is appended. -/
structure Answers (args : Fields) (after : Except Raised Unit × Conversation σ ρ) : Prop where
  requests : after.2.requests = c.requests
  runnerCalls : after.2.runnerCalls = c.runnerCalls ++ [(call.name, args)]
  reads : ∀ error, after.1 ≠ .error (.arguments error)
  appended : after.1 = .ok () →
    ∃ content, after.2.messages = c.messages ++ [.tool call.id content]

theorem exec_orRaise {α : Type} (raised : String → Raised) (value : Except String α) :
    exec (orRaise raised value : Loop σ ρ α) c = match value with
      | .ok value => (.ok value, c)
      | .error error => (.error (raised error), c) := by
  cases value <;> rfl

theorem exec_emitToolCall (event : ToolEvent ρ) :
    exec (emitToolCall e event) c = match (e.onToolCall c.world event).1 with
      | .ok _ => (.ok (), { c with world := (e.onToolCall c.world event).2 })
      | .error error =>
        (.error (.callback error), { c with world := (e.onToolCall c.world event).2 }) := by
  have hemit : exec (emitToolCall e event) c =
      exec (orRaise .callback (e.onToolCall c.world event).1)
        { c with world := (e.onToolCall c.world event).2 } := rfl
  rw [hemit, exec_orRaise]
  cases (e.onToolCall c.world event).1 <;> rfl

theorem exec_appendToolMessage (payload : Except String Value) :
    exec (appendToolMessage e call.id payload) c = match payload.bind e.dumps with
      | .ok content => (.ok (), { c with messages := c.messages ++ [.tool call.id content] })
      | .error error => (.error (.message error), c) := by
  rw [appendToolMessage, exec_bind, exec_orRaise]
  cases payload.bind e.dumps <;> rfl

/-- The event and the answer of a call that has been carried out. -/
theorem exec_report (event : ToolEvent ρ) (payload : Except String Value) {args : Fields}
    {c₀ : Conversation σ ρ} (hrequests : c.requests = c₀.requests)
    (hcalls : c.runnerCalls = c₀.runnerCalls ++ [(call.name, args)])
    (hmessages : c.messages = c₀.messages) :
    Answers call c₀ args (exec (do
      emitToolCall e event
      appendToolMessage e call.id payload) c) := by
  rw [exec_bind, exec_emitToolCall]
  cases (e.onToolCall c.world event).1 with
  | error error => exact ⟨hrequests, hcalls, fun _ h => (by cases h), fun h => by cases h⟩
  | ok _ =>
    dsimp only
    rw [exec_appendToolMessage]
    cases payload.bind e.dumps with
    | error error => exact ⟨hrequests, hcalls, fun _ h => (by cases h), fun h => by cases h⟩
    | ok content =>
      refine ⟨hrequests, hcalls, fun _ h => (by cases h), fun _ => ⟨content, ?_⟩⟩
      show c.messages ++ _ = _
      rw [hmessages]

/-- A call whose argument string is no JSON raises at once. -/
theorem exec_answerCall_error {error : String}
    (h : parseToolArgs e.loads call.arguments = .error error) :
    exec (answerCall e call) c = (.error (.arguments error), c) := by
  rw [answerCall, exec_bind, exec_orRaise, h]

theorem exec_answerCall_ok {args : Fields} (h : parseToolArgs e.loads call.arguments = .ok args) :
    Answers call c args (exec (answerCall e call) c) := by
  have hrun : exec (runTool e call.name args) c =
      (.ok (e.toolRunner c.world call.name args).1,
        { c with
          world := (e.toolRunner c.world call.name args).2
          runnerCalls := c.runnerCalls ++ [(call.name, args)] }) := rfl
  rw [answerCall, exec_bind, exec_orRaise, h]
  dsimp only
  rw [exec_bind, hrun]
  dsimp only
  cases (e.toolRunner c.world call.name args).1 with
  | raises error => exact ⟨rfl, rfl, fun _ h => (by cases h), fun h => by cases h⟩
  | inputError payload => exact exec_report e call _ _ _ rfl rfl rfl
  | answers result =>
    dsimp only
    rw [exec_bind, exec_modify]
    exact exec_report e call _ _ _ rfl rfl rfl

end call

/-! ## The calls of a reply -/

section calls

variable (e : Surroundings σ ρ)

/-- The calls raise for no argument string exactly if those are readable as far as they come. -/
theorem answerCalls_reads_iff (calls : List ToolCall) (c : Conversation σ ρ) :
    (∀ error, (exec (answerCalls e calls) c).1 ≠ .error (.arguments error)) ↔
      CallsReadable e calls c := by
  induction calls generalizing c with
  | nil => exact iff_of_true (fun _ h => by cases h) trivial
  | cons call calls ih =>
    rw [answerCalls, CallsReadable, exec_bind]
    cases hparse : parseToolArgs e.loads call.arguments with
    | error error =>
      rw [exec_answerCall_error e call c hparse]
      refine iff_of_false (fun h => h error rfl) ?_
      rintro ⟨⟨args, hargs⟩, -⟩
      rw [hparse] at hargs
      cases hargs
    | ok args =>
      have hanswers := exec_answerCall_ok e call c hparse
      have hreadable : Readable e call := ⟨args, hparse⟩
      rcases hexec : exec (answerCall e call) c with ⟨result, c'⟩
      rw [hexec] at hanswers
      cases result with
      | error raised =>
        refine iff_of_true (fun error => hanswers.reads error) ⟨hreadable, fun c' h => ?_⟩
        rw [Prod.mk.injEq] at h
        cases h.1
      | ok _ =>
        dsimp only
        rw [ih c', and_iff_right hreadable]
        constructor
        · intro h c'' hsame
          rw [Prod.mk.injEq] at hsame
          rw [← hsame.2]
          exact h
        · intro h
          exact h c' rfl

/-- The answers of the calls: the requests are as they were, and if nothing is raised every call
has its answer, in order. -/
theorem answerCalls_answers (calls : List ToolCall) (c : Conversation σ ρ) :
    (exec (answerCalls e calls) c).2.requests = c.requests ∧
      ((exec (answerCalls e calls) c).1 = .ok () →
        ∃ answers, (exec (answerCalls e calls) c).2.messages = c.messages ++ answers ∧
          answers.map ChatMessage.answered = calls.map fun call => some call.id) := by
  induction calls generalizing c with
  | nil => exact ⟨rfl, fun _ => ⟨[], (List.append_nil _).symm, rfl⟩⟩
  | cons call calls ih =>
    rw [answerCalls, exec_bind]
    cases hparse : parseToolArgs e.loads call.arguments with
    | error error =>
      rw [exec_answerCall_error e call c hparse]
      exact ⟨rfl, fun h => by cases h⟩
    | ok args =>
      have hanswers := exec_answerCall_ok e call c hparse
      rcases hexec : exec (answerCall e call) c with ⟨result, c'⟩
      rw [hexec] at hanswers
      cases result with
      | error raised => exact ⟨hanswers.requests, fun h => by cases h⟩
      | ok _ =>
        obtain ⟨hrequests, hrest⟩ := ih c'
        refine ⟨hrequests.trans hanswers.requests, fun hok => ?_⟩
        obtain ⟨content, hcontent⟩ := hanswers.appended rfl
        obtain ⟨answers, hmessages, hids⟩ := hrest hok
        refine ⟨.tool call.id content :: answers, ?_, ?_⟩
        · rw [hmessages, hcontent, List.append_assoc, List.singleton_append]
        · rw [List.map_cons, List.map_cons, hids]
          rfl

end calls

/-! ## Requests -/

/-- Messages that answer calls are answers of these calls, and none of the assistant. -/
theorem answeredCalls_of_map {answers : List ChatMessage} {ids : List String}
    (h : answers.map ChatMessage.answered = ids.map some) :
    answeredCalls answers = ids ∧ ∀ message ∈ answers, message.isAssistant = false := by
  induction answers generalizing ids with
  | nil =>
    cases ids with
    | nil => exact ⟨rfl, fun _ h => by cases h⟩
    | cons id ids => cases h
  | cons message answers ih =>
    cases ids with
    | nil => cases h
    | cons id ids =>
      rw [List.map_cons, List.map_cons, List.cons.injEq] at h
      obtain ⟨hids, hnone⟩ := ih h.2
      cases message with
      | given message => cases h.1
      | assistant content calls => cases h.1
      | tool toolCallId content =>
        constructor
        · have hsame : answeredCalls (.tool toolCallId content :: answers) =
              toolCallId :: answeredCalls answers := rfl
          rw [hsame, hids, Option.some.inj h.1]
        · intro other hother
          rcases List.mem_cons.mp hother with rfl | hother
          · rfl
          · exact hnone other hother

theorem answeredCalls_append (messages : List ChatMessage) (content : Option String)
    (calls : List ToolCall) (answers : List ChatMessage) :
    answeredCalls (messages ++ .assistant content calls :: answers) = answeredCalls messages := by
  unfold answeredCalls
  congr 1
  induction messages with
  | nil => rfl
  | cons message messages ih => rw [List.cons_append, List.takeWhile_cons, List.takeWhile_cons, ih]

/-- A message with tool calls and their answers join what is answered. -/
theorem AllAnswered.append {messages answers : List ChatMessage} (content : Option String)
    {calls : List ToolCall} (h : AllAnswered messages)
    (hanswers : answers.map ChatMessage.answered = calls.map fun call => some call.id) :
    AllAnswered (messages ++ .assistant content calls :: answers) := by
  have hids : answers.map ChatMessage.answered = (calls.map ToolCall.id).map some := by
    rw [hanswers, List.map_map]
    rfl
  obtain ⟨hanswered, hnone⟩ := answeredCalls_of_map hids
  induction messages with
  | nil =>
    refine ⟨hanswered, ?_⟩
    clear hanswered hids hanswers h
    induction answers with
    | nil => trivial
    | cons message answers ih =>
      have hrest := ih fun other hother => hnone other (List.mem_cons_of_mem _ hother)
      cases message with
      | given | tool => exact hrest
      | assistant content calls => cases hnone _ List.mem_cons_self
  | cons message messages ih =>
    cases message with
    | given | tool => exact ih h
    | assistant first others =>
      refine ⟨?_, ih h.2⟩
      exact (answeredCalls_append messages content calls answers).trans h.1

theorem allAnswered_given (messages : List Fields) :
    AllAnswered (messages.map ChatMessage.given) := by
  induction messages with
  | nil => trivial
  | cons message messages ih => exact ih

section rounds

variable (e : Surroundings σ ρ)

/-- The rounds raise for no argument string exactly if those are readable as far as they come. -/
theorem rounds_reads_iff (count : Nat) (replies : Nat → Round) (c : Conversation σ ρ) :
    (∀ error, (exec (rounds e count replies) c).1 ≠ .error (.arguments error)) ↔
      RoundsReadable e count replies c := by
  induction count generalizing replies c with
  | zero => exact iff_of_true (fun _ h => by cases h) trivial
  | succ count ih =>
    rw [rounds, RoundsReadable, exec_bind, exec_modify]
    dsimp only
    by_cases hcalls : (replies 0).calls = []
    · rw [if_pos hcalls, if_pos hcalls]
      cases htext : (replies 0).text with
      | some text => exact iff_of_true (fun _ h => by cases h) (fun h => by cases h)
      | none =>
        rw [ih]
        exact ⟨fun h _ => h, fun h => h rfl⟩
    · rw [if_neg hcalls, if_neg hcalls, exec_bind, exec_modify, ← answerCalls_reads_iff]
      dsimp only
      rw [exec_bind]
      rcases exec (answerCalls e (replies 0).calls) (c.ask.say (replies 0)) with ⟨result, c'⟩
      cases result with
      | error raised =>
        constructor
        · intro h
          refine ⟨fun error hraised => h error ?_, fun c' hok => ?_⟩
          · rw [Except.error.inj hraised]
          · rw [Prod.mk.injEq] at hok
            cases hok.1
        · rintro ⟨h, -⟩ error hraised
          exact h error (by rw [Except.error.inj hraised])
      | ok _ =>
        have hreads : ∀ error, (Except.ok () : Except Raised Unit) ≠ .error (.arguments error) :=
          fun _ h => by cases h
        dsimp only
        rw [ih, and_iff_right hreads]
        constructor
        · intro h c'' hok
          rw [Prod.mk.injEq] at hok
          rw [← hok.2]
          exact h
        · intro h
          exact h c' rfl

/-- Every request of the rounds has the answers. -/
theorem rounds_answered (count : Nat) (replies : Nat → Round) (c : Conversation σ ρ)
    (hmessages : AllAnswered c.messages) (hrequests : ∀ request ∈ c.requests, AllAnswered request) :
    ∀ request ∈ (exec (rounds e count replies) c).2.requests, AllAnswered request := by
  induction count generalizing replies c with
  | zero => exact hrequests
  | succ count ih =>
    have hasked : ∀ request ∈ c.ask.requests, AllAnswered request := by
      intro request hrequest
      rcases List.mem_append.mp hrequest with hold | hnew
      · exact hrequests request hold
      · rw [List.mem_singleton.mp hnew]
        exact hmessages
    rw [rounds, exec_bind, exec_modify]
    dsimp only
    by_cases hcalls : (replies 0).calls = []
    · rw [if_pos hcalls]
      cases htext : (replies 0).text with
      | some text => exact hasked
      | none => exact ih _ c.ask hmessages hasked
    · rw [if_neg hcalls, exec_bind, exec_modify]
      dsimp only
      obtain ⟨hkept, happended⟩ :=
        answerCalls_answers e (replies 0).calls (c.ask.say (replies 0))
      rw [exec_bind]
      rcases hexec : exec (answerCalls e (replies 0).calls) (c.ask.say (replies 0)) with
        ⟨result, c'⟩
      rw [hexec] at hkept happended
      have hrequests' : ∀ request ∈ c'.requests, AllAnswered request := by
        have hsame : c'.requests = c.ask.requests := hkept
        rw [hsame]
        exact hasked
      cases result with
      | error raised => exact hrequests'
      | ok _ =>
        obtain ⟨answers, hafter, hids⟩ := happended rfl
        refine ih _ c' ?_ hrequests'
        have hwhole : c'.messages = c.messages ++
            .assistant ((replies 0).content.filter (· ≠ "")) (replies 0).calls :: answers := by
          have hsaid : c'.messages = (c.messages ++
              [.assistant ((replies 0).content.filter (· ≠ "")) (replies 0).calls]) ++ answers :=
            hafter
          rw [hsaid, List.append_assoc, List.singleton_append]
        rw [hwhole]
        exact hmessages.append _ hids

/-- The rounds survive exactly if the argument strings are readable as far as they come. -/
theorem rounds_survive_iff (count : Nat) (replies : Nat → Round) (world : σ)
    (messages : List Fields) : Survives (exec (rounds e count replies)
        { world := world, messages := messages.map ChatMessage.given }) ↔
      RoundsReadable e count replies
        { world := world, messages := messages.map ChatMessage.given } := by
  rw [← rounds_reads_iff]
  refine ⟨fun h => h.reads, fun h => ⟨h, ?_⟩⟩
  exact rounds_answered e count replies _ (allAnswered_given messages) fun _ hnone => by cases hnone

end rounds

/-- Both forms of the loop survive what the model writes exactly if every argument string that they
come to is empty or JSON. -/
theorem toolCalling_survives_iff (e : Surroundings σ ρ) (maxRounds : Nat) (world : σ)
    (messages : List Fields) :
    (∀ replies : Nat → Reply, Survives (runToolCalling e maxRounds replies world messages) ↔
      RoundsReadable e maxRounds (fun i => (replies i).round)
        { world := world, messages := messages.map ChatMessage.given }) ∧
    ∀ replies : Nat → Chunks,
      Survives (runToolCallingStreamed e maxRounds replies world messages) ↔
        RoundsReadable e maxRounds (fun i => streamedRound (replies i))
          { world := world, messages := messages.map ChatMessage.given } :=
  ⟨fun _ => rounds_survive_iff e maxRounds _ world messages,
    fun _ => rounds_survive_iff e maxRounds _ world messages⟩

/-! ## A string that is no JSON -/

/-- A tool that creates a task for every call, and a json library that knows two texts. -/
def smallSurroundings : Surroundings Nat Nat where
  loads raw := if raw = "\x7b\x7d" then .ok (.dict [])
    else .error "Expecting value: line 1 column 1 (char 0)"
  dumps _ := .ok "1"
  jsonable result := .ok (.int result)
  toolRunner tasks _ _ := (.answers (tasks + 1), tasks + 1)
  onToolCall tasks _ := (.ok (), tasks)

/-- The second call of a turn has an argument string that is no JSON. -/
def unreadableReply : Reply :=
  ⟨none, [⟨"call-1", "create_task", "\x7b\x7d"⟩, ⟨"call-2", "create_task", "oops"⟩]⟩

/-- The first call has created its task, and the reply is lost. -/
theorem unreadable_arguments_raise :
    ¬ ∀ (e : Surroundings Nat Nat) (maxRounds : Nat) (replies : Nat → Reply) (world : Nat)
        (messages : List Fields),
      (∀ world name args error, (e.toolRunner world name args).1 ≠ .raises error) →
        Survives (runToolCalling e maxRounds replies world messages) := by
  intro h
  have hsurvives := h smallSurroundings 6 (fun _ => unreadableReply) 0 []
    fun _ _ _ _ hraises => by cases hraises
  exact hsurvives.reads "Expecting value: line 1 column 1 (char 0)" rfl

end Newbro.ToolCalling
