import Newbro.NativeRequests

/-!
# What a decision of the user tells Codex

The actions of a request are chosen by its kind, the result by its method. The two are
compared over every request that is surfaced: when an approval and a denial that come
with the same data are told apart, and that a denial never grants anything.
-/
namespace Newbro.NativeRequests

open Library Protocol InteractionRequests

def affirmativeActions : List String := ["approve", "confirm"]

def negativeActions : List String := ["deny", "cancel"]

/-- A decision other than to decline. -/
def acceptsDecision (result : Fields) : Bool :=
  match result.lookup "decision" with
  | none => false
  | some (.str decision) => decision ≠ "decline"
  | some _ => true

def grantsPermission (result : Fields) : Bool := !((result.dict? "permissions").getD []).isEmpty

/-- Whatever the user sends along, an affirmative action and a negative one that both reach
Codex have different results, and the negative one grants nothing. -/
def DecisionReaches (lower : String → String) (request : NativeRequest) (answer : UserAnswer) :
    Prop :=
  ∀ a ∈ affirmativeActions, ∀ d ∈ negativeActions, ∀ accepted declined,
    nativeResult lower request a answer = some accepted →
      nativeResult lower request d answer = some declined →
        accepted ≠ declined ∧ acceptsDecision declined = false ∧
          grantsPermission declined = false

variable (questions : List Value)

/-- The plain text is told to Codex: the first question that has an id has no answer of its
own. -/
def textIsTold (answers : Option Answers) : Bool :=
  match questions.findSome? questionId? with
  | none => false
  | some questionId => (answers.bind fun answers => answers.lookup questionId).isNone

/-- The decision about a proposal shows in the text that is told, or its answers are
refused before anything is told. -/
def textDecides (request : NativeRequest) (answer : UserAnswer) : Bool :=
  match normalizeProposalAnswers request.proposal answer.answers with
  | .error _ => true
  | .ok answers =>
    (suppliedText request.proposal answer.answerText answers).isNone &&
      textIsTold ((request.nativeResponse.params.list? "questions").getD []) answers &&
      chosenLabel request.proposal answer.optionId ≠ keepPlanningText

/-- The condition under which a decision is kept. -/
def decisionKept (lower : String → String) (request : NativeRequest) (answer : UserAnswer) :
    Bool :=
  isApproval (lower request.nativeResponse.method) || request.kind = .question ||
    (request.kind = .planProposal && textDecides request answer)

/-! ## The answers to questions -/

variable {acc : Fields}

section questions

variable {text text' : Option String} {answers : Option Answers}

/-- Once some question is answered, the plain text is not used. -/
theorem foldl_answerQuestion_congr (h : acc ≠ []) :
    questions.foldl (answerQuestion text answers) acc =
      questions.foldl (answerQuestion text' answers) acc := by
  induction questions generalizing acc with
  | nil => rfl
  | cons question questions ih =>
    have hsame : answerQuestion text answers acc question =
        answerQuestion text' answers acc question := by
      unfold answerQuestion
      simp [h]
    have hnext : answerQuestion text' answers acc question ≠ [] := by
      unfold answerQuestion
      split
      · exact h
      · split
        · exact RunManager.setField_ne_nil _ _ _
        · simp [h]
    rw [List.foldl_cons, List.foldl_cons, hsame, ih hnext]

/-- An answer by the plain text is not overwritten. -/
theorem lookup_foldl_answerQuestion {questionId : String}
    {value : Value} (hacc : acc.lookup questionId = some value)
    (hopen : (answers.bind fun answers => answers.lookup questionId) = none) :
    (questions.foldl (answerQuestion text answers) acc).lookup questionId = some value := by
  induction questions generalizing acc with
  | nil => exact hacc
  | cons question questions ih =>
    rw [List.foldl_cons]
    apply ih
    unfold answerQuestion
    split
    · exact hacc
    · rename_i other hother
      split
      · rename_i selected hselected
        have hne : other ≠ questionId := by
          rintro rfl
          rw [hopen] at hselected
          cases hselected
        rw [RunManager.lookup_setField_of_ne acc _ hne]
        exact hacc
      · split
        · rename_i hempty
          rw [List.isEmpty_iff.mp hempty] at hacc
          cases hacc
        · exact hacc

theorem questionAnswers_eq_iff (text text' : Option String) (answers : Option Answers)
    (questions : List Value) :
    questionAnswers questions text answers = questionAnswers questions text' answers ↔
      text.getD "" = text'.getD "" ∨ textIsTold questions answers = false := by
  unfold questionAnswers
  induction questions with
  | nil => simp [textIsTold]
  | cons question questions ih =>
    rw [List.foldl_cons, List.foldl_cons]
    cases hid : questionId? question with
    | none =>
      have hskip : ∀ text, answerQuestion text answers [] question = [] := by
        intro text
        unfold answerQuestion
        rw [hid]
      rw [hskip, hskip, ih]
      simp [textIsTold, hid]
    | some questionId =>
      cases hlookup : answers.bind fun answers => answers.lookup questionId with
      | some selected =>
        have hanswer : ∀ text, answerQuestion text answers [] question =
            RunManager.setField [] questionId
              (.dict [("answers", .list (selected.map .str))]) := by
          intro text
          unfold answerQuestion
          simp only [hid, hlookup]
        have htold : textIsTold (question :: questions) answers = false := by
          simp [textIsTold, hid, hlookup]
        rw [hanswer, hanswer]
        exact iff_of_true
          (foldl_answerQuestion_congr questions (RunManager.setField_ne_nil _ _ _)) (.inr htold)
      | none =>
        have hanswer : ∀ text, answerQuestion text answers [] question =
            RunManager.setField [] questionId
              (.dict [("answers", .list [.str (text.getD "")])]) := by
          intro text
          unfold answerQuestion
          simp only [hid, hlookup]
          rfl
        have htold : textIsTold (question :: questions) answers = true := by
          simp [textIsTold, hid, hlookup]
        have hkept : ∀ text : Option String,
            (questions.foldl (answerQuestion text answers)
              (RunManager.setField [] questionId
                (.dict [("answers", .list [.str (text.getD "")])]))).lookup questionId =
              some (.dict [("answers", .list [.str (text.getD "")])]) :=
          fun text => lookup_foldl_answerQuestion questions
            (RunManager.lookup_setField_self [] questionId _) hlookup
        rw [hanswer, hanswer]
        constructor
        · intro heq
          have hvalue := hkept text
          rw [heq, hkept text'] at hvalue
          simp only [Option.some.injEq, Value.dict.injEq, List.cons.injEq, Prod.mk.injEq,
            Value.list.injEq, Value.str.injEq, and_true, true_and] at hvalue
          exact .inl hvalue.symm
        · rintro (htext | hnot)
          · rw [htext]
            exact foldl_answerQuestion_congr questions (RunManager.setField_ne_nil _ _ _)
          · rw [htold] at hnot
            cases hnot

end questions

/-! ## The result of each kind -/

/-- A question is not an approval, so its result is made of answers only. -/
theorem not_isApproval_of_asksQuestion {normalized : String} (h : asksQuestion normalized) :
    isApproval normalized = false := by
  apply Bool.eq_false_iff.mpr
  intro happroval
  simp only [isApproval, isCommandApproval, isFileApproval, isPermissionsApproval,
    Bool.or_eq_true, List.contains_iff_mem, List.mem_cons, List.not_mem_nil, or_false,
    decide_eq_true_eq] at happroval
  have hnot : asksQuestion normalized = false := by
    rcases happroval with ((rfl | rfl) | (rfl | rfl)) | rfl <;> decide +kernel
  rw [hnot] at h
  cases h

variable {lower : String → String} {response : NativeResponse}

theorem buildRequestResponse_question
    (h : asksQuestion (lower response.method)) (action : String) (text : Option String)
    (answers : Option Answers) : buildRequestResponse lower response action text answers =
      [("answers", .dict (questionAnswers ((response.params.list? "questions").getD []) text
        answers))] := by
  have happroval := not_isApproval_of_asksQuestion h
  simp only [isApproval, Bool.or_eq_false_iff] at happroval
  obtain ⟨⟨hcommand, hfile⟩, hpermissions⟩ := happroval
  simp only [buildRequestResponse, hcommand, hfile, hpermissions, h, if_true, if_false,
    Bool.false_eq_true]

theorem classifyPrompt_kindName (lower : String → String) (prompt : String)
    (kind : InteractionRequestKind) : classifyPrompt lower prompt (kindName kind) = kind := by
  cases kind <;> simp [classifyPrompt, kindName]

/-- Approvals are told apart whatever comes with them. -/
theorem approval_told
    (h : isApproval (lower response.method)) (text text' : Option String)
    (answers answers' : Option Answers) :
    buildRequestResponse lower response "approve" text answers ≠
        buildRequestResponse lower response "deny" text' answers' ∧
      acceptsDecision (buildRequestResponse lower response "deny" text' answers') = false ∧
      grantsPermission (buildRequestResponse lower response "deny" text' answers') = false := by
  simp only [isApproval, Bool.or_eq_true] at h
  by_cases hcommand : isCommandApproval (lower response.method)
  · cases hamendment : execpolicyAmendment response.params <;>
      simp [buildRequestResponse, hcommand, hamendment, acceptsDecision, grantsPermission,
        Fields.dict?, List.lookup_cons]
  · by_cases hfile : isFileApproval (lower response.method)
    · simp [buildRequestResponse, hcommand, hfile, acceptsDecision, grantsPermission,
        Fields.dict?, List.lookup_cons]
    · have hpermissions : isPermissionsApproval (lower response.method) := by
        rcases h with (h | h) | h
        · exact absurd h hcommand
        · exact absurd h hfile
        · exact h
      simp [buildRequestResponse, hcommand, hfile, hpermissions, acceptsDecision,
        grantsPermission, Fields.dict?, Value.dict?, List.lookup_cons]

/-- The text about a proposal is the same for both decisions when it is supplied, or when
the option says to keep planning. -/
theorem planProposalAnswerText_eq_iff (proposal : Option Proposal)
    (answerText optionId : Option String) (answers : Option Answers) :
    planProposalAnswerText proposal "approve" answerText optionId answers =
        planProposalAnswerText proposal "deny" answerText optionId answers ↔
      ¬ ((suppliedText proposal answerText answers).isNone ∧
        chosenLabel proposal optionId ≠ keepPlanningText) := by
  unfold planProposalAnswerText
  cases hsupplied : suppliedText proposal answerText answers with
  | some | none => simp

/-! ## Which decisions are kept -/

variable {request : NativeRequest} {answer : UserAnswer} {a d : String}

section surfaced

variable {lower : String → String} {requestId : Value} {method : String} {params : Fields}
  {planMode : Bool} {blocked : BlockedRequest}

/-- What is surfaced is a question, or an approval that asks for permission. -/
theorem extractBlockedRequest_cases
    (h : extractBlockedRequest lower requestId method params planMode = some blocked) :
    let request := buildRequest lower blocked
    asksQuestion (lower request.nativeResponse.method) ∨
      isApproval (lower request.nativeResponse.method) ∧ request.kind = .permission := by
  unfold extractBlockedRequest at h
  simp only at h
  split at h
  · rename_i hasks
    cases h
    exact .inl hasks
  · split at h
    · rename_i happroval
      cases h
      exact .inr ⟨happroval, classifyPrompt_kindName lower
        (extractApprovalText (lower method) params) .permission⟩
    · cases h

/-- Each kind offers two decisions, or none. -/
theorem decisionReaches_iff_pair
    (hactions : request.availableActions = [a, d])
    (hdecisions : (a, d) = ("approve", "deny") ∨ (a, d) = ("confirm", "cancel")) :
    DecisionReaches lower request answer ↔ ∀ accepted declined,
      nativeResult lower request a answer = some accepted →
        nativeResult lower request d answer = some declined →
          accepted ≠ declined ∧ acceptsDecision declined = false ∧
            grantsPermission declined = false := by
  have hoffered : ∀ action accepted, nativeResult lower request action answer = some accepted →
      action = a ∨ action = d := by
    intro action accepted hresult
    by_contra hnot
    have hother : action ∉ request.availableActions := by
      rw [hactions]
      simpa using hnot
    unfold nativeResult resolveAnswer at hresult
    rw [if_pos hother] at hresult
    cases hresult
  unfold DecisionReaches affirmativeActions negativeActions
  constructor
  · intro h accepted declined haccepted hdeclined
    rcases hdecisions with hpair | hpair <;> cases hpair
    · exact h _ (by simp) _ (by simp) accepted declined haccepted hdeclined
    · exact h _ (by simp) _ (by simp) accepted declined haccepted hdeclined
  · intro h a' ha' d' hd' accepted declined haccepted hdeclined
    have ha := hoffered a' accepted haccepted
    have hd := hoffered d' declined hdeclined
    have ha'' : a' = a := by
      rcases hdecisions with hpair | hpair <;> cases hpair <;>
        rcases ha with rfl | rfl <;> first | rfl | simp at ha'
    have hd'' : d' = d := by
      rcases hdecisions with hpair | hpair <;> cases hpair <;>
        rcases hd with rfl | rfl <;> first | rfl | simp at hd'
    rw [ha''] at haccepted
    rw [hd''] at hdeclined
    exact h accepted declined haccepted hdeclined

/-- What is decided about a question is told by the answers alone. -/
theorem decision_on_question
    (hactions : request.availableActions = [a, d])
    (hdecisions : (a, d) = ("approve", "deny") ∨ (a, d) = ("confirm", "cancel"))
    (hasks : asksQuestion (lower request.nativeResponse.method)) :
    DecisionReaches lower request answer ↔ ∀ text text' answers answers',
      resolveAnswer request a answer = .ok (text, answers) →
        resolveAnswer request d answer = .ok (text', answers') →
          questionAnswers ((request.nativeResponse.params.list? "questions").getD []) text
              answers ≠
            questionAnswers ((request.nativeResponse.params.list? "questions").getD []) text'
              answers' := by
  rw [decisionReaches_iff_pair hactions hdecisions]
  constructor
  · intro h text text' answers answers' ha hd heq
    have hresult : ∀ action text answers,
        resolveAnswer request action answer = .ok (text, answers) →
          nativeResult lower request action answer =
            some [("answers", .dict (questionAnswers
              ((request.nativeResponse.params.list? "questions").getD []) text answers))] := by
      intro action text answers hok
      unfold nativeResult
      rw [hok]
      simp only [buildRequestResponse_question hasks]
    have hne := (h _ _ (hresult a text answers ha) (hresult d text' answers' hd)).1
    exact hne (by rw [heq])
  · intro h accepted declined haccepted hdeclined
    unfold nativeResult at haccepted hdeclined
    cases ha : resolveAnswer request a answer with
    | error message =>
      rw [ha] at haccepted
      cases haccepted
    | ok accept =>
      cases hd : resolveAnswer request d answer with
      | error message =>
        rw [hd] at hdeclined
        cases hdeclined
      | ok decline =>
        rw [ha] at haccepted
        rw [hd] at hdeclined
        simp only [buildRequestResponse_question hasks, Option.some.injEq] at haccepted hdeclined
        have hne := h accept.1 decline.1 accept.2 decline.2 ha hd
        refine ⟨?_, ?_, ?_⟩
        · intro heq
          rw [← haccepted, ← hdeclined] at heq
          simp only [List.cons.injEq, Prod.mk.injEq, Value.dict.injEq, and_true, true_and] at heq
          exact hne heq
        · rw [← hdeclined]
          rfl
        · rw [← hdeclined]
          rfl

/-- A decision about a question reaches Codex only when it is about a proposal and shows in
the text. -/
theorem decisionReaches_question (request : NativeRequest) (answer : UserAnswer)
    (hasks : asksQuestion (lower request.nativeResponse.method)) :
    DecisionReaches lower request answer ↔
      request.kind = .question ∨ request.kind = .planProposal ∧ textDecides request answer := by
  cases hkind : request.kind with
  | question =>
    have hnone : ∀ action, action ≠ "answer" → nativeResult lower request action answer = none := by
      intro action hne
      have hother : action ∉ request.availableActions := by
        simpa [NativeRequest.availableActions, hkind, actionsForKind] using hne
      unfold nativeResult resolveAnswer
      rw [if_pos hother]
    refine iff_of_true ?_ (.inl rfl)
    intro a ha d _ accepted declined haccepted _
    rw [hnone a (by rintro rfl; simp [affirmativeActions] at ha)] at haccepted
    cases haccepted
  | permission =>
    rw [decision_on_question (a := "approve") (d := "deny")
      (by simp [NativeRequest.availableActions, hkind, actionsForKind]) (.inl rfl) hasks]
    refine iff_of_false ?_ (by simp)
    intro h
    refine h answer.answerText answer.answerText answer.answers answer.answers ?_ ?_ rfl <;>
      simp [resolveAnswer, NativeRequest.availableActions, hkind, actionsForKind]
  | confirmation =>
    rw [decision_on_question (a := "confirm") (d := "cancel")
      (by simp [NativeRequest.availableActions, hkind, actionsForKind]) (.inr rfl) hasks]
    refine iff_of_false ?_ (by simp)
    intro h
    refine h answer.answerText answer.answerText answer.answers answer.answers ?_ ?_ rfl <;>
      simp [resolveAnswer, NativeRequest.availableActions, hkind, actionsForKind]
  | planProposal =>
    rw [decision_on_question (a := "approve") (d := "deny")
      (by simp [NativeRequest.availableActions, hkind, actionsForKind]) (.inl rfl) hasks]
    have hresolve : ∀ action ∈ ["approve", "deny"], resolveAnswer request action answer =
        (normalizeProposalAnswers request.proposal answer.answers).map fun answers =>
          (some (planProposalAnswerText request.proposal action answer.answerText
            answer.optionId answers), answers) := by
      intro action hmem
      have hoffered : action ∈ request.availableActions := by
        simpa [NativeRequest.availableActions, hkind, actionsForKind] using hmem
      unfold resolveAnswer
      rw [if_neg (not_not.mpr hoffered), if_pos hkind]
    rw [hresolve "approve" (by simp), hresolve "deny" (by simp)]
    unfold textDecides
    cases hanswers : normalizeProposalAnswers request.proposal answer.answers with
    | error message => simp [Except.map]
    | ok answers =>
      have hpair := planProposalAnswerText_eq_iff request.proposal answer.answerText
        answer.optionId answers
      have htold := questionAnswers_eq_iff
        (some (planProposalAnswerText request.proposal "approve" answer.answerText
          answer.optionId answers))
        (some (planProposalAnswerText request.proposal "deny" answer.answerText
          answer.optionId answers))
        answers ((request.nativeResponse.params.list? "questions").getD [])
      simp only [Except.map, Except.ok.injEq, Prod.mk.injEq]
      constructor
      · intro h
        have hne := h _ _ answers answers ⟨rfl, rfl⟩ ⟨rfl, rfl⟩
        rw [Ne, htold, Option.getD_some, Option.getD_some, hpair] at hne
        simp only [not_or, not_not, Bool.not_eq_false] at hne
        exact .inr ⟨trivial, by simp [hne.1.1, hne.1.2, hne.2]⟩
      · rintro (hquestion | ⟨-, hdecides⟩)
        · cases hquestion
        · rintro text text' _ _ ⟨rfl, rfl⟩ ⟨rfl, rfl⟩
          simp only [Bool.and_eq_true, decide_eq_true_eq] at hdecides
          rw [Ne, htold, Option.getD_some, Option.getD_some, hpair]
          simp [hdecides.1.1, hdecides.1.2, hdecides.2]

/-- For every request that is surfaced, the decision reaches Codex exactly when it answers
an approval, or a proposal whose text shows it, or when there is none to take. -/
theorem decision_reaches_iff
    (h : extractBlockedRequest lower requestId method params planMode = some blocked)
    (answer : UserAnswer) : DecisionReaches lower (buildRequest lower blocked) answer ↔
      decisionKept lower (buildRequest lower blocked) answer := by
  simp only [decisionKept, Bool.or_eq_true, Bool.and_eq_true, decide_eq_true_eq]
  rcases extractBlockedRequest_cases h with hasks | ⟨happroval, hkind⟩
  · have hnot := not_isApproval_of_asksQuestion hasks
    rw [decisionReaches_question _ answer hasks]
    simp [hnot]
  · refine iff_of_true ?_ (.inl (.inl happroval))
    rw [decisionReaches_iff_pair (a := "approve") (d := "deny")
      (by simp [NativeRequest.availableActions, hkind, actionsForKind]) (.inl rfl)]
    intro accepted declined haccepted hdeclined
    have hresolve : ∀ action ∈ ["approve", "deny"], resolveAnswer (buildRequest lower blocked)
        action answer = .ok (answer.answerText, answer.answers) := by
      intro action hmem
      have hoffered : action ∈ (buildRequest lower blocked).availableActions := by
        simpa [NativeRequest.availableActions, hkind, actionsForKind] using hmem
      have hne : ¬ (action = "answer" ∧ Text.stripped? answer.answerText = none) := by
        rintro ⟨rfl, -⟩
        simp at hmem
      unfold resolveAnswer
      rw [if_neg (not_not.mpr hoffered), if_neg (by rw [hkind]; simp), if_neg hne]
    unfold nativeResult at haccepted hdeclined
    rw [hresolve _ (by simp)] at haccepted hdeclined
    cases haccepted
    cases hdeclined
    exact approval_told happroval _ _ _ _

end surfaced

/-! A command that is to be approved, and a question that asks whether one is sure. -/

def lowerAscii (text : String) : String := String.ofList (text.toList.map Char.toLower)

def sureParams : Fields :=
  [("questions", .list [.dict [("id", .str "q1"), ("question", .str "Are you sure?")]])]

def sureRequest : NativeRequest :=
  { kind := .confirmation
    proposal := extractPlanProposal sureParams
    nativeResponse := ⟨.int 7, "item/tool/requestUserInput", sureParams⟩ }

def commandRequest : BlockedRequest :=
  { message := "Codex needs approval to run a command."
    interactionKind := "permission"
    proposal := none
    nativeResponse := ⟨.int 7, "item/commandExecution/requestApproval", []⟩ }

theorem decision_reaches_command :
    DecisionReaches lowerAscii (buildRequest lowerAscii commandRequest) ⟨none, none, none⟩ ↔
      decisionKept lowerAscii (buildRequest lowerAscii commandRequest) ⟨none, none, none⟩ :=
  have surfaced : extractBlockedRequest lowerAscii (.int 7) "item/commandExecution/requestApproval"
      [] false = some commandRequest := rfl
  decision_reaches_iff surfaced _

/-- To confirm and to cancel both answer the question with the empty text. -/
theorem confirm_and_cancel_alike :
    (extractBlockedRequest lowerAscii (.int 7) "item/tool/requestUserInput" sureParams
        false).map (buildRequest lowerAscii) = some sureRequest ∧
      nativeResult lowerAscii sureRequest "confirm" ⟨none, none, none⟩ =
        some [("answers", .dict [("q1", .dict [("answers", .list [.str ""])])])] ∧
      nativeResult lowerAscii sureRequest "cancel" ⟨none, none, none⟩ =
        some [("answers", .dict [("q1", .dict [("answers", .list [.str ""])])])] :=
  ⟨rfl, rfl, rfl⟩

end Newbro.NativeRequests
