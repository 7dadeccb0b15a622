import Newbro.ToolTranscripts

/-!
# The two forms of the tool loop

The streamed form of the loop reads the same replies in pieces. It does what the plain form does as
long as the tool calls come back from their fragments; besides, an empty text ends the plain form
while the streamed form asks again.
-/
namespace Newbro.ToolCalling

open Library Library.Effect Protocol

variable {σ ρ : Type}

/-- A reply with the chunks in which it is streamed. -/
structure StreamedReply where
  reply : Reply
  chunks : Chunks
  text : streamedText chunks = reply.content.getD ""
  calls : CutFrom reply.toolCalls (toolCallDeltas chunks)

section law

variable (e : Surroundings σ ρ) (maxRounds : Nat) (replies : Nat → StreamedReply) (world : σ)
  (messages : List Fields)

/-- The plain form on the replies. -/
def plainRun : Ended σ ρ :=
  runToolCalling e maxRounds (fun i => (replies i).reply) world messages

/-- The streamed form on their chunks. -/
def streamedRun : Ended σ ρ :=
  runToolCallingStreamed e maxRounds (fun i => (replies i).chunks) world messages

/-- The streamed form calls the tool runner as the plain one does and ends as it does, and every
reply's calls come back from the deltas. -/
structure FormsAgree : Prop where
  runnerCalls : (streamedRun e maxRounds replies world messages).2.runnerCalls =
    (plainRun e maxRounds replies world messages).2.runnerCalls
  ended : (streamedRun e maxRounds replies world messages).1 =
    (plainRun e maxRounds replies world messages).1
  calls : ∀ i, streamedCalls (replies i).chunks = (replies i).reply.toolCalls

end law

/-- Within so many rounds the first reply that is not an empty text is a blank one. -/
def EndsBlank : Nat → (Nat → Round) → Prop
  | 0, _ => False
  | count + 1, replies => (replies 0).calls = [] ∧
      match (replies 0).text.filter (· ≠ "") with
      | none => EndsBlank count fun i => replies (i + 1)
      | some text => Text.strip text = ""

/-- If an empty text ends the rounds, what would follow it ends with a blank text. -/
def EmptyTextHarmless (e : Surroundings σ ρ) :
    Nat → (Nat → Round) → Conversation σ ρ → Prop
  | 0, _, _ => True
  | count + 1, replies, c =>
    if (replies 0).calls = [] then
      match (replies 0).text with
      | none => EmptyTextHarmless e count (fun i => replies (i + 1)) c.ask
      | some text => text = "" → EndsBlank count fun i => replies (i + 1)
    else
      ∀ c', exec (answerCalls e (replies 0).calls) (c.ask.say (replies 0)) = (.ok (), c') →
        EmptyTextHarmless e count (fun i => replies (i + 1)) c'

/-! ## Rounds that say the same -/

/-- The streamed round of a reply and its plain one, where the calls have come back. -/
structure SameRound (streamed plain : Round) : Prop where
  calls : streamed.calls = plain.calls
  content : streamed.content.filter (· ≠ "") = plain.content.filter (· ≠ "")
  text : streamed.text = plain.text.filter (· ≠ "")

theorem StreamedReply.sameRound (streamed : StreamedReply)
    (h : streamedCalls streamed.chunks = streamed.reply.toolCalls) :
    SameRound (streamedRound streamed.chunks) streamed.reply.round := by
  have htext : (some (streamedText streamed.chunks)).filter (· ≠ "") =
      streamed.reply.content.filter (· ≠ "") := by
    rw [streamed.text]
    cases streamed.reply.content with
    | none | some => rfl
  exact ⟨h, htext, htext⟩

theorem say_eq {streamed plain : Round} (h : SameRound streamed plain) (c : Conversation σ ρ) :
    c.say streamed = c.say plain := by
  rw [Conversation.say, Conversation.say, h.calls, h.content]

/-- The tool runner is called by what is answered. -/
theorem answerCalls_runnerCalls (e : Surroundings σ ρ) (calls : List ToolCall)
    (c : Conversation σ ρ) :
    c.runnerCalls.length ≤ (exec (answerCalls e calls) c).2.runnerCalls.length ∧
      ((exec (answerCalls e calls) c).1 = .ok () → calls ≠ [] →
        c.runnerCalls.length < (exec (answerCalls e calls) c).2.runnerCalls.length) := by
  induction calls generalizing c with
  | nil => exact ⟨Nat.le_refl _, fun _ hnone => absurd rfl hnone⟩
  | cons call calls ih =>
    rw [answerCalls, exec_bind]
    cases hparse : parseToolArgs e.loads call.arguments with
    | error error =>
      rw [exec_answerCall_error e call c hparse]
      exact ⟨Nat.le_refl _, fun h => by cases h⟩
    | ok args =>
      have hanswers := exec_answerCall_ok e call c hparse
      rcases hexec : exec (answerCall e call) c with ⟨result, c'⟩
      rw [hexec] at hanswers
      have hlength : c'.runnerCalls.length = c.runnerCalls.length + 1 := by
        have hcalls : c'.runnerCalls = c.runnerCalls ++ [(call.name, args)] := hanswers.runnerCalls
        rw [hcalls, List.length_append, List.length_singleton]
      cases result with
      | error raised =>
        refine ⟨?_, fun h => by cases h⟩
        show c.runnerCalls.length ≤ c'.runnerCalls.length
        omega
      | ok _ =>
        have hrest := (ih c').1
        dsimp only
        constructor
        · omega
        · intro _ _
          omega

theorem rounds_runnerCalls (e : Surroundings σ ρ) (count : Nat) (replies : Nat → Round)
    (c : Conversation σ ρ) :
    c.runnerCalls.length ≤ (exec (rounds e count replies) c).2.runnerCalls.length := by
  induction count generalizing replies c with
  | zero => exact Nat.le_refl _
  | succ count ih =>
    rw [rounds, exec_bind, exec_modify]
    dsimp only
    by_cases hcalls : (replies 0).calls = []
    · rw [if_pos hcalls]
      cases (replies 0).text with
      | some text => exact Nat.le_refl _
      | none => exact ih _ c.ask
    · rw [if_neg hcalls, exec_bind, exec_modify]
      dsimp only
      have hanswered := (answerCalls_runnerCalls e (replies 0).calls (c.ask.say (replies 0))).1
      rw [exec_bind]
      rcases hexec : exec (answerCalls e (replies 0).calls) (c.ask.say (replies 0)) with
        ⟨result, c'⟩
      rw [hexec] at hanswered
      cases result with
      | error raised => exact hanswered
      | ok _ =>
        have hrest := ih (fun i => replies (i + 1)) c'
        exact Nat.le_trans hanswered hrest

variable {streamed plain : Nat → Round}

/-- From where the plain form has ended with an empty text the streamed form ends as it did exactly
if what follows ends with a blank text. -/
theorem rounds_endsBlank_iff (e : Surroundings σ ρ) (count : Nat)
    (hsame : ∀ i, SameRound (streamed i) (plain i)) (c : Conversation σ ρ) :
    (exec (rounds e count streamed) c).2.runnerCalls = c.runnerCalls ∧
        (exec (rounds e count streamed) c).1 = .ok ("", c.invocations) ↔
      EndsBlank count plain := by
  induction count generalizing streamed plain c with
  | zero => exact iff_of_false (fun h => by cases h.2) id
  | succ count ih =>
    rw [EndsBlank, ← (hsame 0).calls, ← (hsame 0).text, rounds, exec_bind, exec_modify]
    dsimp only
    by_cases hcalls : (streamed 0).calls = []
    · rw [if_pos hcalls, and_iff_right hcalls]
      cases (streamed 0).text with
      | none => exact ih (fun i => hsame (i + 1)) c.ask
      | some text =>
        have hexec : exec (do
            modify fun c : Conversation σ ρ => { c with told := c.told ++ (streamed 0).told }
            let c ← get
            pure (Text.strip text, c.invocations) : Loop σ ρ _) c.ask =
          (.ok (Text.strip text, c.invocations),
            { c.ask with told := c.told ++ (streamed 0).told }) := rfl
        rw [hexec]
        constructor
        · intro h
          exact (Prod.mk.inj (Except.ok.inj h.2)).1
        · intro h
          exact ⟨rfl, by rw [h]⟩
    · rw [if_neg hcalls, exec_bind, exec_modify]
      dsimp only
      refine iff_of_false (fun h => ?_) (fun h => hcalls h.1)
      obtain ⟨hcalled, hended⟩ := h
      obtain ⟨-, hgrown⟩ :=
        answerCalls_runnerCalls e (streamed 0).calls (c.ask.say (streamed 0))
      rw [exec_bind] at hcalled hended
      rcases hexec : exec (answerCalls e (streamed 0).calls) (c.ask.say (streamed 0)) with
        ⟨result, c'⟩
      rw [hexec] at hcalled hended hgrown
      cases result with
      | error raised => cases hended
      | ok _ =>
        have hmore : c.runnerCalls.length < c'.runnerCalls.length := hgrown rfl hcalls
        have hrest := rounds_runnerCalls e count (fun i => streamed (i + 1)) c'
        have hlength := congrArg List.length hcalled
        dsimp only at hlength
        omega

/-- Rounds that say the same are ended alike exactly if an empty text does no harm. -/
theorem rounds_agree_iff (e : Surroundings σ ρ) (count : Nat)
    (hsame : ∀ i, SameRound (streamed i) (plain i)) (c : Conversation σ ρ) :
    (exec (rounds e count streamed) c).2.runnerCalls =
          (exec (rounds e count plain) c).2.runnerCalls ∧
        (exec (rounds e count streamed) c).1 = (exec (rounds e count plain) c).1 ↔
      EmptyTextHarmless e count plain c := by
  induction count generalizing streamed plain c with
  | zero => exact iff_of_true ⟨rfl, rfl⟩ trivial
  | succ count ih =>
    have hrest := fun i => hsame (i + 1)
    rw [EmptyTextHarmless, rounds, rounds, exec_bind, exec_bind, exec_modify]
    dsimp only
    rw [(hsame 0).calls, (hsame 0).text]
    by_cases hcalls : (plain 0).calls = []
    · rw [if_pos hcalls, if_pos hcalls, if_pos hcalls]
      cases htext : (plain 0).text with
      | none => exact ih hrest c.ask
      | some text =>
        by_cases hempty : text = ""
        · subst hempty
          have hblank := rounds_endsBlank_iff e count hrest c.ask
          exact hblank.trans ⟨fun h _ => h, fun h => h rfl⟩
        · have hfilter : (some text).filter (fun text => decide (text ≠ "")) = some text := by
            simp [hempty]
          rw [hfilter]
          exact iff_of_true ⟨rfl, rfl⟩ fun h => absurd h hempty
    · rw [if_neg hcalls, if_neg hcalls, if_neg hcalls, exec_bind, exec_modify, exec_bind,
        exec_modify]
      dsimp only
      rw [say_eq (hsame 0), exec_bind, exec_bind]
      rcases exec (answerCalls e (plain 0).calls) (c.ask.say (plain 0)) with ⟨result, c'⟩
      cases result with
      | error raised =>
        refine iff_of_true ⟨rfl, rfl⟩ fun c'' h => ?_
        rw [Prod.mk.injEq] at h
        cases h.1
      | ok _ =>
        refine (ih hrest c').trans ⟨fun h c'' hok => ?_, fun h => h c' rfl⟩
        rw [Prod.mk.injEq] at hok
        rw [← hok.2]
        exact h

/-- The two forms agree exactly if the calls of every reply are cut cleanly and no empty text does
harm. -/
theorem forms_agree_iff (e : Surroundings σ ρ) (maxRounds : Nat) (replies : Nat → StreamedReply)
    (world : σ) (messages : List Fields) :
    FormsAgree e maxRounds replies world messages ↔
      (∀ i, CleanCalls (replies i).reply.toolCalls (toolCallDeltas (replies i).chunks)) ∧
        EmptyTextHarmless e maxRounds (fun i => (replies i).reply.round)
          { world := world, messages := messages.map ChatMessage.given } := by
  have hclean : (∀ i, streamedCalls (replies i).chunks = (replies i).reply.toolCalls) ↔
      ∀ i, CleanCalls (replies i).reply.toolCalls (toolCallDeltas (replies i).chunks) :=
    forall_congr' fun i => (replies i).calls.finalize_eq_iff
  have hagree : (∀ i, streamedCalls (replies i).chunks = (replies i).reply.toolCalls) →
      ((streamedRun e maxRounds replies world messages).2.runnerCalls =
            (plainRun e maxRounds replies world messages).2.runnerCalls ∧
          (streamedRun e maxRounds replies world messages).1 =
            (plainRun e maxRounds replies world messages).1 ↔
        EmptyTextHarmless e maxRounds (fun i => (replies i).reply.round)
          { world := world, messages := messages.map ChatMessage.given }) := fun hcalls =>
    rounds_agree_iff e maxRounds (fun i => (replies i).sameRound (hcalls i)) _
  constructor
  · intro h
    exact ⟨hclean.mp h.calls, (hagree h.calls).mp ⟨h.runnerCalls, h.ended⟩⟩
  · rintro ⟨hcut, hharmless⟩
    have hcalls := hclean.mpr hcut
    obtain ⟨hrunner, hended⟩ := (hagree hcalls).mpr hharmless
    exact ⟨hrunner, hended, hcalls⟩

/-! ## A digit that is said twice -/

def elevenCall : ToolCall := ⟨"call-1", "set_priority", "\x7b\"n\": 11\x7d"⟩

/-- The argument string is cut between the two digits and before the brace. -/
def elevenChunks : Chunks :=
  [some { toolCalls := [{ index := 0, id := some "call-1", type := some "function"
                          name := some "set_priority", arguments := some "\x7b\"n\": 1" }] },
    some { toolCalls := [{ index := 0, arguments := some "1" }] },
    some { toolCalls := [{ index := 0, arguments := some "\x7d" }] }]

theorem index_elevenCall {index : Nat} {call : ToolCall} (h : [elevenCall][index]? = some call) :
    index = 0 ∧ call = elevenCall := by
  obtain ⟨hindex, rfl⟩ := List.getElem?_eq_some_iff.mp h
  obtain rfl : index = 0 := by simpa using hindex
  exact ⟨rfl, rfl⟩

theorem elevenChunks_cutFrom : CutFrom [elevenCall] (toolCallDeltas elevenChunks) where
  indexes index := by
    constructor
    · rintro ⟨delta, hdelta, rfl⟩
      have hzero : ∀ delta ∈ toolCallDeltas elevenChunks, delta.index = 0 := by decide
      rw [hzero delta hdelta]
      decide
    · intro hindex
      obtain rfl : index = 0 := by simpa using hindex
      decide
  types := by decide
  ids index call hcall := by
    obtain ⟨rfl, rfl⟩ := index_elevenCall hcall
    decide
  names index call hcall := by
    obtain ⟨rfl, rfl⟩ := index_elevenCall hcall
    decide
  arguments index call hcall := by
    obtain ⟨rfl, rfl⟩ := index_elevenCall hcall
    decide

def elevenReply : StreamedReply where
  reply := ⟨none, [elevenCall]⟩
  chunks := elevenChunks
  text := by decide
  calls := elevenChunks_cutFrom

/-- A json library that knows three texts, and a tool that takes any number. -/
def prioritySurroundings : Surroundings Unit Unit where
  loads raw :=
    if raw = "\x7b\"n\": 11\x7d" then .ok (.dict [("n", .int 11)])
    else if raw = "\x7b\"n\": 1\x7d" then .ok (.dict [("n", .int 1)])
    else if raw = "\x7b\x7d" then .ok (.dict [])
    else .error "Expecting value: line 1 column 1 (char 0)"
  dumps _ := .ok "null"
  jsonable _ := .ok .null
  toolRunner world _ _ := (.answers (), world)
  onToolCall world _ := (.ok (), world)

/-- The numbers that the tool runner was called with. -/
def numbers (calls : List (String × Fields)) : List (Option Int) :=
  calls.map fun call =>
    match call.2.lookup "n" with
    | some (.int n) => some n
    | _ => none

/-- The streamed form calls the tool with 1 where the model said 11. -/
theorem repeated_digit_is_dropped :
    ¬ ∀ (e : Surroundings Unit Unit) (maxRounds : Nat) (replies : Nat → StreamedReply)
        (world : Unit) (messages : List Fields), FormsAgree e maxRounds replies world messages := by
  intro h
  have hagree := (h prioritySurroundings 1 (fun _ => elevenReply) () []).runnerCalls
  have hplain : numbers (plainRun prioritySurroundings 1 (fun _ => elevenReply) ()
      []).2.runnerCalls = [some 11] := by decide
  have hstreamed : numbers (streamedRun prioritySurroundings 1 (fun _ => elevenReply) ()
      []).2.runnerCalls = [some 1] := by decide
  rw [hagree, hplain] at hstreamed
  exact absurd hstreamed (by decide)

end Newbro.ToolCalling
