import Newbro.Library.Lines
import Newbro.UserDecisions

/-!
# Answers to a plan on their way to Codex

A plan is proposed as questions with ids, the user answers the questions that
`_proposal_details_from_native_params` has made of them, and `_build_request_response` looks the
answers up by the ids that Codex has given. The two ids of a question differ where the native one
is missing or padded.
-/
namespace Newbro.NativeRequests

open Library Protocol InteractionRequests Option List

/-! ## Questions and their ids -/

/-- The native questions. -/
def askedQuestions (params : Fields) : List Fields :=
  ((params.list? "questions").getD []).filterMap Value.dict?

/-- The id that Codex has given to a question. -/
def nativeId? (fields : Fields) : Option String := (fields.str? "id").filter (· ≠ "")

variable {fields : Fields}

theorem text?_eq_some_iff {key text : String} : fields.text? key = some text ↔
      ∃ value, fields.str? key = some value ∧ Text.strip value = text ∧ text ≠ "" := by
  unfold Fields.text?
  cases fields.str? key with
  | none => simp [Text.stripped?]
  | some value =>
    simp only [Text.stripped?, some.injEq, exists_eq_left']
    by_cases h : Text.strip value = ""
    · rw [if_pos h]
      refine iff_of_false (by simp) ?_
      rintro ⟨rfl, hne⟩
      exact hne h
    · rw [if_neg h, some.injEq]
      constructor
      · rintro rfl
        exact ⟨rfl, h⟩
      · exact And.left

/-- The number of a question is not stripped. -/
theorem strip_question (n : Nat) :
    Text.strip ("question_" ++ toString n) = "question_" ++ toString n := by
  have hstart : ∀ c ∈ "question_".toList, Text.isAsciiWord c = true := by decide
  have hword : ∀ c ∈ "question_".toList ++ Nat.toDigits 10 n, Text.isSpace c = false := by
    intro c hc
    apply Text.isSpace_of_isAsciiWord
    rcases mem_append.mp hc with hc | hc
    · exact hstart c hc
    · have hdigit : c.isDigit = true := Nat.isDigit_of_mem_toDigits (by decide) (by decide) hc
      simp [Text.isAsciiWord, Char.isAlphanum, hdigit]
  have hne : "question_".toList ++ Nat.toDigits 10 n ≠ [] := by simp
  have hlist : ("question_" ++ toString n).toList = "question_".toList ++ Nat.toDigits 10 n := by
    rw [String.toList_append, Nat.toString_eq_repr, Nat.toList_repr]
  have hstrip := Text.stripChars_append [] (by simp) hne (hword _ (head_mem hne))
    (hword _ (getLast_mem hne))
  rw [Text.strip_eq, hlist]
  rw [nil_append] at hstrip
  rw [hstrip, ← hlist, String.ofList_toList]

/-- An id of the proposal is not blank and has no white space around it. -/
theorem strip_questionId (fields : Fields) (k : Nat) :
    Text.strip (proposalQuestion fields k).questionId = (proposalQuestion fields k).questionId ∧
      (proposalQuestion fields k).questionId ≠ "" := by
  unfold proposalQuestion
  cases htext : fields.text? "id" with
  | none =>
    refine ⟨strip_question (k + 1), ?_⟩
    simp
  | some id =>
    obtain ⟨value, -, hstrip, hne⟩ := text?_eq_some_iff.mp htext
    refine ⟨?_, hne⟩
    show Text.strip id = id
    rw [← hstrip, Text.strip_strip]

variable {id : String}

/-- A native id without white space around it is that of the proposal. -/
theorem questionId_of_strip (k : Nat)
    (hid : nativeId? fields = some id) (hstrip : Text.strip id = id) :
    (proposalQuestion fields k).questionId = id := by
  obtain ⟨hstr, hne⟩ := filter_eq_some_iff.mp hid
  have htext : fields.text? "id" = some id :=
    text?_eq_some_iff.mpr ⟨id, hstr, hstrip, by simpa using hne⟩
  show (fields.text? "id").getD _ = id
  rw [htext, getD_some]

variable {params : Fields} {proposal : Proposal}

/-- The questions of a proposal are the native ones, in order. -/
theorem questions_of_extract
    (h : extractPlanProposal params = some proposal) :
    proposal.questions = (askedQuestions params).zipIdx.map fun q => proposalQuestion q.1 q.2 := by
  unfold extractPlanProposal at h
  dsimp only at h
  rw [← askedQuestions] at h
  split at h
  · cases h
  · rename_i first rest hquestions
    cases h
    exact hquestions.symm

theorem mem_questions
    (h : extractPlanProposal params = some proposal) {question : ProposalQuestion} :
    question ∈ proposal.questions ↔
      ∃ k fields, (askedQuestions params)[k]? = some fields ∧
        question = proposalQuestion fields k := by
  rw [questions_of_extract h, List.mem_map]
  constructor
  · rintro ⟨⟨fields, k⟩, hmem, rfl⟩
    exact ⟨k, fields, mk_mem_zipIdx_iff_getElem?.mp hmem, rfl⟩
  · rintro ⟨k, fields, hk, rfl⟩
    exact ⟨(fields, k), mk_mem_zipIdx_iff_getElem?.mpr hk, rfl⟩

theorem askedQuestions_of_none (h : extractPlanProposal params = none) :
    askedQuestions params = [] := by
  unfold extractPlanProposal at h
  dsimp only at h
  rw [← askedQuestions] at h
  split at h
  · rename_i hquestions
    simpa using hquestions
  · cases h

theorem length_questions (h : extractPlanProposal params = some proposal) :
    (askedQuestions params).length = proposal.rest.length + 1 := by
  have hlength := congrArg List.length (questions_of_extract h)
  simpa [Proposal.questions] using hlength.symm

theorem strip_mem_questions (h : extractPlanProposal params = some proposal) :
    ∀ question ∈ proposal.questions, Text.strip question.questionId ≠ "" := by
  intro question hmem
  obtain ⟨k, fields, -, rfl⟩ := (mem_questions h).mp hmem
  rw [(strip_questionId fields k).1]
  exact (strip_questionId fields k).2

/-! ## The answers that are handed on -/

theorem lookup_setAnswer (answers : Answers) (id id' : String) (values : List String) :
    (setAnswer answers id values).lookup id' =
      if id = id' then some values else answers.lookup id' := by
  rw [setAnswer, lookup_setEntry]

/-- Every answer that is set is that of its id. -/
theorem lookup_foldl_setAnswer (value : String → List String) (questions : List ProposalQuestion)
    (acc : Answers) (id : String) :
    (questions.foldl (fun acc q => setAnswer acc q.questionId (value q.questionId)) acc).lookup id =
      if ∃ q ∈ questions, q.questionId = id then some (value id) else acc.lookup id := by
  induction questions generalizing acc with
  | nil => simp
  | cons q questions ih =>
    rw [foldl_cons, ih, lookup_setAnswer]
    by_cases hrest : ∃ q ∈ questions, q.questionId = id
    · have hall : ∃ q' ∈ q :: questions, q'.questionId = id := by
        obtain ⟨other, hmem, hid⟩ := hrest
        exact ⟨other, mem_cons_of_mem q hmem, hid⟩
      rw [if_pos hrest, if_pos hall]
    · rw [if_neg hrest]
      by_cases hid : q.questionId = id
      · rw [if_pos hid, if_pos ⟨q, mem_cons_self, hid⟩, hid]
      · have hnone : ¬ ∃ q' ∈ q :: questions, q'.questionId = id := by
          rintro ⟨other, hmem, hother⟩
          rcases mem_cons.mp hmem with rfl | hmem
          · exact hid hother
          · exact hrest ⟨other, hmem, hother⟩
        rw [if_neg hid, if_neg hnone]

/-! ## The response -/

/-- The entry of an answered question. -/
def answersOf (values : List String) : Value := .dict [("answers", .list (values.map .str))]

variable (questions : List Value)

section Response

variable {text : Option String} {answers : Option Answers} {id : String}

/-- An answer that is given to an id is the one that the response has for it. -/
theorem lookup_foldl_answered {selected : List String}
    (hselected : (answers.bind fun answers => answers.lookup id) = some selected) (acc : Fields)
    (h : acc.lookup id = some (answersOf selected) ∨ id ∈ questions.filterMap questionId?) :
    (questions.foldl (answerQuestion text answers) acc).lookup id = some (answersOf selected) := by
  induction questions generalizing acc with
  | nil => simpa using h
  | cons question questions ih =>
    rw [foldl_cons]
    apply ih
    unfold answerQuestion
    cases hid : questionId? question with
    | none => simpa [hid] using h
    | some other =>
      by_cases hsame : other = id
      · subst hsame
        left
        simp only [hselected]
        exact RunManager.lookup_setField_self _ _ _
      · rcases h with h | h
        · left
          dsimp only
          split
          · rw [RunManager.lookup_setField_of_ne acc _ hsame]
            exact h
          · split
            · rw [RunManager.lookup_setField_of_ne acc _ hsame]
              exact h
            · exact h
        · right
          rw [filterMap_cons_some hid] at h
          rcases mem_cons.mp h with heq | hmem
          · exact absurd heq.symm hsame
          · exact hmem

/-- Once some question is answered, an id without an answer of its own gets none. -/
theorem lookup_foldl_unanswered
    (hopen : (answers.bind fun answers => answers.lookup id) = none) {acc : Fields}
    (hacc : acc ≠ []) :
    (questions.foldl (answerQuestion text answers) acc).lookup id = acc.lookup id := by
  induction questions generalizing acc with
  | nil => rfl
  | cons question questions ih =>
    have hstep : (answerQuestion text answers acc question).lookup id = acc.lookup id ∧
        answerQuestion text answers acc question ≠ [] := by
      unfold answerQuestion
      split
      · exact ⟨rfl, hacc⟩
      · rename_i other hother
        split
        · rename_i selected hselected
          have hne : other ≠ id := by
            rintro rfl
            rw [hopen] at hselected
            cases hselected
          exact ⟨RunManager.lookup_setField_of_ne acc _ hne, RunManager.setField_ne_nil _ _ _⟩
        · have hempty : acc.isEmpty = false := by simpa using hacc
          rw [hempty]
          exact ⟨rfl, hacc⟩
    rw [foldl_cons, ih hstep.2, hstep.1]

/-- What the response has for an id of a question: the answer that is given to it, or the text if
it is the first id of all. -/
theorem lookup_questionAnswers {questions : List Value}
    (hmem : id ∈ questions.filterMap questionId?) :
    (questionAnswers questions text answers).lookup id =
      match answers.bind fun answers => answers.lookup id with
      | some selected => some (answersOf selected)
      | none =>
        if questions.findSome? questionId? = some id then some (answersOf [text.getD ""])
        else none := by
  cases hselected : answers.bind fun answers => answers.lookup id with
  | some selected => exact lookup_foldl_answered questions hselected [] (Or.inr hmem)
  | none =>
    dsimp only
    clear hmem
    unfold questionAnswers
    induction questions with
    | nil => rfl
    | cons question questions ih =>
      rw [foldl_cons]
      cases hid : questionId? question with
      | none =>
        have hskip : answerQuestion text answers [] question = [] := by
          unfold answerQuestion
          rw [hid]
        rw [hskip, ih, List.findSome?_cons, hid]
      | some first =>
        rw [List.findSome?_cons, hid]
        by_cases hsame : first = id
        · subst hsame
          have hstep : answerQuestion text answers [] question =
              RunManager.setField [] first (answersOf [text.getD ""]) := by
            unfold answerQuestion
            simp only [hid, hselected]
            rfl
          rw [if_pos rfl, hstep]
          exact lookup_foldl_answerQuestion questions
            (RunManager.lookup_setField_self [] first _) hselected
        · have hstep : (answerQuestion text answers [] question).lookup id = none ∧
              answerQuestion text answers [] question ≠ [] := by
            unfold answerQuestion
            simp only [hid]
            split
            · exact ⟨RunManager.lookup_setField_of_ne [] _ hsame, RunManager.setField_ne_nil _ _ _⟩
            · rw [if_pos (by rfl)]
              exact ⟨RunManager.lookup_setField_of_ne [] _ hsame, RunManager.setField_ne_nil _ _ _⟩
          rw [if_neg (by simpa using hsame), lookup_foldl_unanswered questions hselected hstep.2,
            hstep.1]

end Response

/-! ## Normalized answers -/

theorem strippedValues_strippedValues (values : List String) :
    strippedValues (strippedValues values) = strippedValues values := by
  have hagain : ∀ value text, Text.stripped? (some value) = some text →
      Text.stripped? (some text) = some text := by
    intro value text h
    simp only [Text.stripped?] at h ⊢
    split at h
    · cases h
    · rename_i hne
      cases h
      rw [Text.strip_strip, if_neg hne]
  unfold strippedValues
  rw [filterMap_filterMap]
  apply filterMap_congr
  intro value _
  cases hvalue : Text.stripped? (some value) with
  | none => rfl
  | some text => exact hagain value text hvalue

/-- The answers to several questions, as they are handed on. -/
theorem normalize_several {answers handed : Option Answers}
    (hseveral : proposal.rest.isEmpty = false)
    (hfilled : ∀ question ∈ proposal.questions, Text.strip question.questionId ≠ "")
    (h : normalizeProposalAnswers (some proposal) answers = .ok handed) :
    ∃ given normalized, answers = some given ∧ handed = some normalized ∧
      (∀ question ∈ proposal.questions, answerValues given question ≠ []) ∧
      ∀ id, normalized.lookup id =
        if ∃ question ∈ proposal.questions, question.questionId = id then
          some (strippedValues ((given.lookup id).getD []))
        else none := by
  unfold normalizeProposalAnswers at h
  simp only [hseveral, Bool.false_eq_true, if_false] at h
  cases answers with
  | none => cases h
  | some given =>
    have hasked : (proposal.questions.filter fun q => Text.strip q.questionId ≠ "") =
        proposal.questions := by
      rw [filter_eq_self]
      intro question hmem
      simpa using hfilled question hmem
    rw [hasked] at h
    dsimp only at h
    split at h
    · rename_i hmissing
      cases h
      refine ⟨given, _, rfl, rfl, ?_, ?_⟩
      · intro question hmem hempty
        have hin : question ∈ proposal.questions.filter
            fun q => (answerValues given q).isEmpty :=
          mem_filter.mpr ⟨hmem, by rw [hempty]; rfl⟩
        rw [isEmpty_iff.mp hmissing] at hin
        cases hin
      · intro id
        exact lookup_foldl_setAnswer (fun id => strippedValues ((given.lookup id).getD []))
          proposal.questions [] id
    · cases h

variable {given normalized : Answers}

/-- Normalizing the answers does not change the text that sums them up. -/
theorem planProposalAnswerText_normalized
    (h : ∀ id, normalized.lookup id =
      if ∃ question ∈ proposal.questions, question.questionId = id then
        some (strippedValues ((given.lookup id).getD []))
      else none) (action : String) (answerText optionId : Option String) :
    planProposalAnswerText (some proposal) action answerText optionId (some normalized) =
      planProposalAnswerText (some proposal) action answerText optionId (some given) := by
  have hvalues : ∀ question ∈ proposal.questions,
      answerValues normalized question = answerValues given question := by
    intro question hmem
    rw [answerValues, h, if_pos ⟨question, hmem, rfl⟩, getD_some, strippedValues_strippedValues]
    rfl
  have hsummary : proposalAnswersSummary (some proposal) normalized =
      proposalAnswersSummary (some proposal) given := by
    unfold proposalAnswersSummary
    dsimp only
    congr 1
    apply filterMap_congr
    intro question hmem
    rw [hvalues question (mem_of_mem_filter hmem)]
  unfold planProposalAnswerText suppliedText
  simp only [hsummary]

/-! ## Which answers reach Codex -/

/-- What the user has chosen for a question of the proposal: the values that are given to its id,
or else the text of the answer. -/
def chosenValues (request : NativeRequest) (action : String) (answer : UserAnswer)
    (question : ProposalQuestion) : List String :=
  (answer.answers.bind fun answers => answers.lookup question.questionId).getD
    [planProposalAnswerText request.proposal action answer.answerText answer.optionId
      answer.answers]

/-- Codex is answered every question under the id that it has given, with what the user has
chosen. -/
def AnswersReach (lower : String → String) (request : NativeRequest) (action : String)
    (answer : UserAnswer) : Prop :=
  ∀ response, nativeResult lower request action answer = some response →
    ∀ k fields, (askedQuestions request.nativeResponse.params)[k]? = some fields →
      ∃ id, nativeId? fields = some id ∧ ((response.dict? "answers").getD []).lookup id =
        some (answersOf (chosenValues request action answer (proposalQuestion fields k)))

/-- What is chosen for the question at `k` is found under its native id: the id is the one of the
proposal and, where there are several questions, the values are stripped; or the values are those
that a single question is given under its native id, or are the text, which goes to the first
question. -/
def ChosenFound (request : NativeRequest) (action : String) (answer : UserAnswer) (k : Nat)
    (fields : Fields) (id : String) : Prop :=
  let asked := askedQuestions request.nativeResponse.params
  let chosen := chosenValues request action answer (proposalQuestion fields k)
  let text := planProposalAnswerText request.proposal action answer.answerText answer.optionId
    answer.answers
  if id = (proposalQuestion fields k).questionId then
    1 < asked.length → strippedValues chosen = chosen
  else if 1 < asked.length then asked.findSome? nativeId? = some id ∧ chosen = [text]
  else chosen = (answer.answers.bind fun answers => answers.lookup id).getD [text]

/-- Every question has a native id, under which what is chosen is found. -/
def IdsReach (request : NativeRequest) (action : String) (answer : UserAnswer) : Prop :=
  ∀ k fields, (askedQuestions request.nativeResponse.params)[k]? = some fields →
    ∃ id, nativeId? fields = some id ∧ ChosenFound request action answer k fields id

/-- A question whose id is padded has no namesake in the proposal. -/
theorem not_mem_questionIds (hproposal : extractPlanProposal params = some proposal)
    {k : Nat}
    (hid : nativeId? fields = some id) (hne : id ≠ (proposalQuestion fields k).questionId) :
    ¬ ∃ question ∈ proposal.questions, question.questionId = id := by
  rintro ⟨question, hmem, hquestion⟩
  obtain ⟨k', fields', -, rfl⟩ := (mem_questions hproposal).mp hmem
  have hstrip := (strip_questionId fields' k').1
  rw [hquestion] at hstrip
  exact hne (questionId_of_strip k hid hstrip).symm

theorem filterMap_questionId? :
    questions.filterMap questionId? = (questions.filterMap Value.dict?).filterMap nativeId? := by
  rw [filterMap_filterMap]
  apply filterMap_congr
  intro question _
  cases question <;> rfl

theorem findSome?_questionId? :
    questions.findSome? questionId? = (questions.filterMap Value.dict?).findSome? nativeId? := by
  rw [← List.head?_filterMap, ← List.head?_filterMap, filterMap_questionId?]

theorem answersOf_inj {values values' : List String} :
    answersOf values = answersOf values' ↔ values = values' := by
  constructor
  · intro h
    simp only [answersOf, Value.dict.injEq, List.cons.injEq, Prod.mk.injEq, Value.list.injEq,
      true_and, and_true] at h
    exact map_injective_iff.mpr (fun _ _ heq => Value.str.inj heq) h
  · rintro rfl
    rfl

/-- What is surfaced as a proposal asks questions, from which the proposal is made. -/
theorem proposal_of_surfaced {lower : String → String} {requestId : Value} {method : String}
    {planMode : Bool} {blocked : BlockedRequest}
    (h : extractBlockedRequest lower requestId method params planMode = some blocked)
    (hkind : (buildRequest lower blocked).kind = .planProposal) :
    asksQuestion (lower (buildRequest lower blocked).nativeResponse.method) ∧
      (buildRequest lower blocked).nativeResponse.params = params ∧
      (buildRequest lower blocked).proposal = extractPlanProposal params := by
  have hasks : asksQuestion (lower (buildRequest lower blocked).nativeResponse.method) := by
    rcases extractBlockedRequest_cases h with hasks | ⟨-, hpermission⟩
    · exact hasks
    · rw [hpermission] at hkind
      cases hkind
  refine ⟨hasks, ?_⟩
  unfold extractBlockedRequest at h
  dsimp only at h
  split at h
  · cases h
    refine ⟨rfl, ?_⟩
    cases planMode with
    | false => rfl
    | true =>
      show (extractPlanProposal params).orElse (fun _ => extractPlanProposal params) = _
      cases extractPlanProposal params <;> rfl
  · split at h
    · cases h
      exact ⟨rfl, rfl⟩
    · cases h

section Question

variable {request : NativeRequest} {action : String} {answer : UserAnswer} {proposal : Proposal}
  {k : Nat} {fields : Fields} {id : String}

/-- One question of a proposal that has no other. -/
theorem found_single (hlength : (askedQuestions request.nativeResponse.params).length ≤ 1)
    (hk : (askedQuestions request.nativeResponse.params)[k]? = some fields)
    (hid : nativeId? fields = some id) :
    (questionAnswers ((request.nativeResponse.params.list? "questions").getD [])
        (some (planProposalAnswerText request.proposal action answer.answerText answer.optionId
          answer.answers)) answer.answers).lookup id =
      some (answersOf (chosenValues request action answer (proposalQuestion fields k))) ↔
        ChosenFound request action answer k fields id := by
  have hasked : askedQuestions request.nativeResponse.params = [fields] := by
    obtain ⟨hlt, hget⟩ := List.getElem?_eq_some_iff.mp hk
    obtain ⟨only, honly⟩ := length_eq_one_iff.mp (by omega : (askedQuestions
      request.nativeResponse.params).length = 1)
    have hmem := mem_of_getElem? hk
    rw [honly, mem_singleton] at hmem
    rw [honly, hmem]
  have hmem : id ∈ ((request.nativeResponse.params.list? "questions").getD []).filterMap
      questionId? := by
    rw [filterMap_questionId?, ← askedQuestions, hasked]
    simp [hid]
  have hfirst : ((request.nativeResponse.params.list? "questions").getD []).findSome?
      questionId? = some id := by
    rw [findSome?_questionId?, ← askedQuestions, hasked]
    simp [hid]
  rw [lookup_questionAnswers hmem, hfirst, if_pos rfl]
  have hlookup : (match answer.answers.bind fun answers => answers.lookup id with
      | some selected => some (answersOf selected)
      | none => some (answersOf [(some (planProposalAnswerText request.proposal action
          answer.answerText answer.optionId answer.answers)).getD ""])) =
      some (answersOf ((answer.answers.bind fun answers => answers.lookup id).getD
        [planProposalAnswerText request.proposal action answer.answerText answer.optionId
          answer.answers])) := by
    cases answer.answers.bind fun answers => answers.lookup id <;> rfl
  rw [hlookup, some.injEq, answersOf_inj]
  unfold ChosenFound
  dsimp only
  by_cases hsame : id = (proposalQuestion fields k).questionId
  · rw [if_pos hsame]
    refine iff_of_true ?_ (fun hseveral => by omega)
    rw [chosenValues, ← hsame]
  · rw [if_neg hsame, if_neg (by omega)]
    exact eq_comm

/-- One question of several. -/
theorem found_several (hproposal : request.proposal = some proposal)
    (hextract : extractPlanProposal request.nativeResponse.params = some proposal)
    (hlength : 1 < (askedQuestions request.nativeResponse.params).length)
    (hgiven : answer.answers = some given)
    (hfilled : ∀ question ∈ proposal.questions, answerValues given question ≠ [])
    (hnormalized : ∀ id, normalized.lookup id =
      if ∃ question ∈ proposal.questions, question.questionId = id then
        some (strippedValues ((given.lookup id).getD []))
      else none)
    (hk : (askedQuestions request.nativeResponse.params)[k]? = some fields)
    (hid : nativeId? fields = some id) :
    (questionAnswers ((request.nativeResponse.params.list? "questions").getD [])
        (some (planProposalAnswerText request.proposal action answer.answerText answer.optionId
          (some normalized))) (some normalized)).lookup id =
      some (answersOf (chosenValues request action answer (proposalQuestion fields k))) ↔
        ChosenFound request action answer k fields id := by
  have hmem : id ∈ ((request.nativeResponse.params.list? "questions").getD []).filterMap
      questionId? := by
    rw [filterMap_questionId?, ← askedQuestions]
    exact mem_filterMap.mpr ⟨fields, mem_of_getElem? hk, hid⟩
  have htext : planProposalAnswerText request.proposal action answer.answerText answer.optionId
      (some normalized) = planProposalAnswerText request.proposal action answer.answerText
        answer.optionId answer.answers := by
    rw [hproposal, hgiven]
    exact planProposalAnswerText_normalized hnormalized action answer.answerText answer.optionId
  have hquestion : proposalQuestion fields k ∈ proposal.questions :=
    (mem_questions hextract).mpr ⟨k, fields, hk, rfl⟩
  rw [lookup_questionAnswers hmem, findSome?_questionId?, ← askedQuestions, htext,
    bind_some, hnormalized]
  unfold ChosenFound
  dsimp only
  by_cases hsame : id = (proposalQuestion fields k).questionId
  · rw [if_pos hsame, if_pos ⟨_, hquestion, hsame.symm⟩]
    obtain ⟨values, hvalues⟩ : ∃ values, given.lookup id = some values := by
      rw [← isSome_iff_exists, isSome_iff_ne_none]
      intro hnone
      apply hfilled _ hquestion
      rw [answerValues, ← hsame, hnone]
      rfl
    have hchosen : chosenValues request action answer (proposalQuestion fields k) = values := by
      rw [chosenValues, hgiven, bind_some, ← hsame, hvalues, getD_some]
    rw [hchosen, hvalues, getD_some]
    simp only [some.injEq, answersOf_inj, hlength, forall_const]
  · rw [if_neg hsame, if_pos hlength, if_neg (not_mem_questionIds hextract hid hsame)]
    by_cases hfirst : (askedQuestions request.nativeResponse.params).findSome? nativeId? = some id
    · simp only [hfirst, if_true, some.injEq, answersOf_inj, getD_some, true_and]
      exact eq_comm
    · simp [hfirst]

end Question

/-- The answers that are accepted reach Codex exactly if every question has a native id under
which what is chosen for it is found. -/
theorem answersReach_iff {lower : String → String} {requestId : Value} {method : String}
    {params : Fields} {planMode : Bool} {blocked : BlockedRequest}
    (hsurfaced : extractBlockedRequest lower requestId method params planMode = some blocked)
    (hkind : (buildRequest lower blocked).kind = .planProposal) {action : String}
    {answer : UserAnswer} {resolved : Option String × Option Answers}
    (haccepted : resolveAnswer (buildRequest lower blocked) action answer = .ok resolved) :
    AnswersReach lower (buildRequest lower blocked) action answer ↔
      IdsReach (buildRequest lower blocked) action answer := by
  obtain ⟨hasks, hparams, hproposal⟩ := proposal_of_surfaced hsurfaced hkind
  generalize buildRequest lower blocked = request at *
  subst hparams
  obtain ⟨text, handed⟩ := resolved
  -- acceptance has normalized the answers, and the text sums up what is handed on
  have hnormalize : normalizeProposalAnswers request.proposal answer.answers = .ok handed ∧
      text = some (planProposalAnswerText request.proposal action answer.answerText
        answer.optionId handed) := by
    unfold resolveAnswer at haccepted
    split at haccepted
    · cases haccepted
    · cases hnormalized : normalizeProposalAnswers request.proposal answer.answers with
      | error error =>
        rw [hnormalized] at haccepted
        cases haccepted
      | ok normalized =>
        rw [hnormalized] at haccepted
        cases haccepted
        exact ⟨rfl, rfl⟩
  obtain ⟨hnormalized, rfl⟩ := hnormalize
  have hresult : ∀ response, nativeResult lower request action answer = some response ↔
      [("answers", Value.dict (questionAnswers ((request.nativeResponse.params.list?
        "questions").getD []) (some (planProposalAnswerText request.proposal action
          answer.answerText answer.optionId handed)) handed))] = response := by
    intro response
    rw [nativeResult, haccepted]
    dsimp only
    rw [buildRequestResponse_question hasks, Option.some.injEq]
  -- it remains to look at one question with its id
  have hfound : ∀ k fields, (askedQuestions request.nativeResponse.params)[k]? = some fields →
      ∀ id, nativeId? fields = some id →
        ((questionAnswers ((request.nativeResponse.params.list? "questions").getD [])
            (some (planProposalAnswerText request.proposal action answer.answerText answer.optionId
              handed)) handed).lookup id =
          some (answersOf (chosenValues request action answer (proposalQuestion fields k))) ↔
            ChosenFound request action answer k fields id) := by
    intro k fields hk id hid
    cases hextract : extractPlanProposal request.nativeResponse.params with
    | none =>
      rw [askedQuestions_of_none hextract] at hk
      cases hk
    | some proposal =>
      rw [hextract] at hproposal
      rw [hproposal] at hnormalized
      have hlength := length_questions hextract
      by_cases hseveral : 1 < (askedQuestions request.nativeResponse.params).length
      · have hrest : proposal.rest.isEmpty = false := by
          rw [List.isEmpty_eq_false_iff, ← List.length_pos_iff]
          omega
        obtain ⟨given, normalized, hgiven, rfl, hfilled, hlookup⟩ :=
          normalize_several hrest (strip_mem_questions hextract) hnormalized
        exact found_several hproposal hextract hseveral hgiven hfilled hlookup hk hid
      · have hrest : proposal.rest.isEmpty = true := by
          rw [List.isEmpty_iff, ← List.length_eq_zero_iff]
          omega
        have hsame : answer.answers = handed := by
          simpa [normalizeProposalAnswers, hrest] using hnormalized
        subst hsame
        exact found_single (by omega) hk hid
  constructor
  · intro h k fields hk
    obtain ⟨id, hid, hlookup⟩ := h _ ((hresult _).mpr rfl) k fields hk
    exact ⟨id, hid, (hfound k fields hk id hid).mp hlookup⟩
  · intro h response hresponse k fields hk
    obtain ⟨id, hid, hchosen⟩ := h k fields hk
    rw [← (hresult response).mp hresponse]
    exact ⟨id, hid, (hfound k fields hk id hid).mpr hchosen⟩

/-! ## A plan of two questions -/

def planQuestion (id header : String) : Fields := [("id", .str id), ("header", .str header)]

def planParams (id : String) : Fields :=
  [("questions", .list [.dict (planQuestion "scope" "Scope"), .dict (planQuestion id "Tests")])]

/-- The proposal with an id for its second question. -/
def proposedPlan (id : String) : Option BlockedRequest :=
  extractBlockedRequest (fun text => text) (.int 1) "request_user_input" (planParams id) true

def planAnswer : UserAnswer :=
  { answerText := none
    optionId := none
    answers := some [("scope", ["Both"]), ("tests", ["Unit tests"])] }

def emptyBlocked : BlockedRequest := ⟨"", "", none, ⟨.null, "", []⟩⟩

def planRequest (id : String) : NativeRequest :=
  buildRequest (fun text => text) ((proposedPlan id).getD emptyBlocked)

theorem answersReach_iff_plan :
    AnswersReach (fun text => text) (planRequest "tests") "approve" planAnswer ↔
      IdsReach (planRequest "tests") "approve" planAnswer := by
  have hsurfaced : proposedPlan "tests" = some ((proposedPlan "tests").getD emptyBlocked) :=
    rfl
  have hkind : (planRequest "tests").kind = .planProposal := by decide
  have haccepted : resolveAnswer (planRequest "tests") "approve" planAnswer =
      .ok (some "Scope: Both; Tests: Unit tests",
        some [("scope", ["Both"]), ("tests", ["Unit tests"])]) := by
    decide +kernel
  exact answersReach_iff hsurfaced hkind haccepted

/-- The answer to a question whose native id is padded is dropped. -/
theorem padded_id_unanswered :
    ¬ ∀ (lower : String → String) (requestId : Value) (method : String) (params : Fields)
        (planMode : Bool) (blocked : BlockedRequest),
      extractBlockedRequest lower requestId method params planMode = some blocked →
        (buildRequest lower blocked).kind = .planProposal → ∀ (action : String)
          (answer : UserAnswer) (resolved : Option String × Option Answers),
            resolveAnswer (buildRequest lower blocked) action answer = .ok resolved →
              AnswersReach lower (buildRequest lower blocked) action answer := by
  intro h
  have hreach := h (fun text => text) (.int 1) "request_user_input" (planParams " tests ") true
    ((proposedPlan " tests ").getD emptyBlocked) rfl (by decide +kernel) "approve" planAnswer
    (some "Scope: Both; Tests: Unit tests", some [("scope", ["Both"]), ("tests", ["Unit tests"])])
    (by decide +kernel)
  obtain ⟨id, hid, hlookup⟩ := hreach _ (some_get (by decide)).symm 1
    (planQuestion " tests " "Tests") rfl
  have hpadded : id = " tests " := by
    have hnative : nativeId? (planQuestion " tests " "Tests") = some " tests " := by decide
    rw [hnative] at hid
    exact (some.inj hid).symm
  subst hpadded
  have hsome := congrArg Option.isSome hlookup
  revert hsome
  decide

end Newbro.NativeRequests
