import Newbro.Notifications

/-!
# Runs that are announced

The notification loop handles the writes of a session later, on the blackboard of that moment.
A run that is blocked or completed then, with a task that may be told of, brings one candidate
of its own, whatever has become of the earlier candidates of its task.
-/
namespace Newbro.Notifications.Announcements

open Library Protocol Option List

/-! ## Occasions -/

/-- What a candidate of a run is about. -/
structure Occasion where
  taskId : String
  candidateType : CandidateType
  runId : String
  deriving Repr, DecidableEq

def announcedType : RunStatus → Option CandidateType
  | .completed => some .completed
  | .blocked => some .blocked
  | _ => none

/-- What a write is an occasion for, when it is handled. -/
def occasionOf (board : Blackboard) : WriteEvent → Option Occasion
  | .summary _ => none
  | .run runId =>
    match board.getRun runId with
    | none => none
    | some run =>
      match board.getTask run.taskId, announcedType run.status with
      | some task, some candidateType =>
        if suppressesCommunicationNotifications task || task.status = .cancelled then none
        else some ⟨run.taskId, candidateType, runId⟩
      | _, _ => none

def occasionOfCandidate (c : Candidate) : Option Occasion :=
  c.sourceRunId.map fun runId => ⟨c.taskId, c.candidateType, runId⟩

def Occasion.candidateId (occasion : Occasion) : String :=
  candidateIdOf occasion.taskId occasion.candidateType (some occasion.runId)

/-- `f"run-{uuid4().hex[:8]}"` -/
def runIdLength : Nat := 12

/-- All runs have ids as `create_run` makes them. -/
def RunsNamed (board : Blackboard) : Prop :=
  ∀ run ∈ board.runs.entries, run.runId.length = runIdLength

/-! ## Candidate ids -/

variable {runId : String}

theorem orElse_runId (h : runId.length = runIdLength) :
    Text.orElse (some runId) "summary" = runId := by
  have hne : runId ≠ "" := by
    rintro rfl
    cases h
  simp [Text.orElse, hne]

/-- The id of a candidate as a list of characters. -/
theorem toList_candidateIdOf (taskId : String) (candidateType : CandidateType)
    (sourceRunId : Option String) : (candidateIdOf taskId candidateType sourceRunId).toList =
      "notif-".toList ++ (candidateType.value.toList ++ ('-' :: (taskId.toList ++
        ('-' :: (Text.orElse sourceRunId "summary").toList)))) := by
  simp [candidateIdOf, append_assoc]

/-- The type of a candidate can be read off its id. -/
theorem candidateType_of_id {taskId taskId' : String} {type type' : CandidateType}
    {runId runId' : Option String}
    (h : candidateIdOf taskId type runId = candidateIdOf taskId' type' runId') : type = type' := by
  have hchars := congrArg String.toList h
  rw [toList_candidateIdOf, toList_candidateIdOf, append_cancel_left_eq] at hchars
  have hfirst : ∀ (type : CandidateType) (rest : List Char),
      (type.value.toList ++ rest).head? = type.value.toList.head? := by
    intro type rest
    cases type <;> rfl
  have hhead := congrArg List.head? hchars
  rw [hfirst, hfirst] at hhead
  revert hhead
  cases type <;> cases type' <;> decide

/-- With run ids of one length, an id belongs to one occasion. -/
theorem Occasion.eq_of_candidateId {a b : Occasion} (ha : a.runId.length = runIdLength)
    (hb : b.runId.length = runIdLength) (h : a.candidateId = b.candidateId) : a = b := by
  have htype := candidateType_of_id h
  have hchars := congrArg String.toList h
  rw [candidateId, candidateId, toList_candidateIdOf, toList_candidateIdOf, orElse_runId ha,
    orElse_runId hb, htype, append_cancel_left_eq, append_cancel_left_eq,
    cons_inj_right] at hchars
  have hlength : ('-' :: a.runId.toList).length = ('-' :: b.runId.toList).length := by
    simp only [length_cons, String.length_toList, ha, hb]
  obtain ⟨htask, hrun⟩ := append_inj' hchars hlength
  have hrun := String.toList_inj.mp (cons_inj_right '-' |>.mp hrun)
  have htask := String.toList_inj.mp htask
  cases a
  cases b
  simp_all

/-! ## What a handled write stores -/

/-- A candidate as the builder makes it. -/
inductive WellNamed (c : Candidate) : Prop where
  | ofRun (occasion : Occasion) (own : occasionOfCandidate c = some occasion)
      (named : occasion.runId.length = runIdLength) (id : c.candidateId = occasion.candidateId)
      (type : occasion.candidateType ≠ .needsInput)
  | ofSummary (own : occasionOfCandidate c = none) (taskId : String)
      (id : c.candidateId = candidateIdOf taskId .needsInput none)

variable {c : Candidate}

variable {existing : Candidates}

theorem unlessThere_eq_some {candidate : Candidate}
    (h : unlessThere existing candidate = some c) :
    c = candidate ∧ existing.get? c.candidateId = none := by
  unfold unlessThere at h
  by_cases hthere : existing.contains candidate.candidateId = true
  · rw [if_pos hthere] at h
    cases h
  · rw [if_neg hthere] at h
    cases h
    exact ⟨rfl, not_isSome_iff_eq_none.mp hthere⟩

variable {candidateType : CandidateType}

theorem announcedType_eq_some {status : RunStatus}
    (h : announcedType status = some candidateType) :
    (status = .completed ∧ candidateType = .completed) ∨
      (status = .blocked ∧ candidateType = .blocked) := by
  cases status <;> simp_all [announcedType]

variable {task : Task} {run : ExecutionRun}

/-- A run that may be told of brings its candidate, unless the id is taken. -/
theorem buildFromRun_eq
    (summary : Option TaskSummary) (existing : Candidates) (now : String)
    (htold : suppressesCommunicationNotifications task = false) (hlive : task.status ≠ .cancelled)
    (htype : announcedType run.status = some candidateType) :
    ∃ candidate, buildFromRun task run summary existing now = unlessThere existing candidate ∧
      occasionOfCandidate candidate = some ⟨task.taskId, candidateType, run.runId⟩ ∧
      candidate.candidateId = candidateIdOf task.taskId candidateType (some run.runId) := by
  unfold buildFromRun
  rw [htold, if_neg Bool.false_ne_true, if_neg hlive]
  rcases announcedType_eq_some htype with ⟨hstatus, rfl⟩ | ⟨hstatus, rfl⟩
  · rw [if_pos hstatus]
    exact ⟨_, rfl, rfl, rfl⟩
  · have hother : run.status ≠ .completed := by
      rw [hstatus]
      decide
    rw [if_neg hother, if_pos hstatus]
    exact ⟨_, rfl, rfl, rfl⟩

/-- No other run brings a candidate. -/
theorem buildFromRun_eq_none (summary : Option TaskSummary)
    (existing : Candidates) (now : String)
    (h : (suppressesCommunicationNotifications task || task.status = .cancelled) = true) :
    buildFromRun task run summary existing now = none := by
  unfold buildFromRun
  by_cases hquiet : suppressesCommunicationNotifications task = true
  · rw [if_pos hquiet]
  · rw [if_neg hquiet, if_pos]
    simpa [hquiet] using h

variable {board : Blackboard} {event : WriteEvent} {occasion : Occasion}

/-- What is found for a run that is an occasion. -/
theorem occasionOf_eq_some (h : occasionOf board event = some occasion) :
    ∃ run task candidateType, event = .run run.runId ∧ board.getRun run.runId = some run ∧
      board.getTask run.taskId = some task ∧ announcedType run.status = some candidateType ∧
      suppressesCommunicationNotifications task = false ∧ task.status ≠ .cancelled ∧
      occasion = ⟨task.taskId, candidateType, run.runId⟩ := by
  cases event with
  | summary taskId => cases h
  | run runId =>
    unfold occasionOf at h
    cases hrun : board.getRun runId with
    | none => simp [hrun] at h
    | some run =>
      cases htask : board.getTask run.taskId with
      | none => simp [hrun, htask] at h
      | some task =>
        cases htype : announcedType run.status with
        | none => simp [hrun, htask, htype] at h
        | some candidateType =>
          simp only [hrun, htask, htype] at h
          by_cases hquiet : (suppressesCommunicationNotifications task ||
              decide (task.status = .cancelled)) = true
          · rw [if_pos hquiet] at h
            cases h
          · rw [if_neg hquiet] at h
            cases h
            rw [Bool.or_eq_true, not_or, decide_eq_true_eq, Bool.not_eq_true] at hquiet
            have hid : run.runId = runId := Table.key_of_get? hrun
            have htaskId : task.taskId = run.taskId := Table.key_of_get? htask
            subst hid
            rw [← htaskId]
            exact ⟨run, task, candidateType, rfl, hrun, htaskId ▸ htask, htype, hquiet.1,
              hquiet.2, rfl⟩

/-- A write of a run that is an occasion brings its candidate, unless the id is taken. -/
theorem candidateOf_occasion
    (existing : Candidates) (now : String) (h : occasionOf board event = some occasion) :
    ∃ candidate, candidateOf board event existing now = unlessThere existing candidate ∧
      occasionOfCandidate candidate = some occasion ∧
      candidate.candidateId = occasion.candidateId := by
  obtain ⟨run, task, candidateType, rfl, hrun, htask, htype, htold, hlive, rfl⟩ :=
    occasionOf_eq_some h
  obtain ⟨candidate, hbuild, hown, hid⟩ := buildFromRun_eq (board.getSummary task.taskId) existing
    now htold hlive htype
  refine ⟨candidate, ?_, hown, hid⟩
  have hreached : run.status = .completed ∨ run.status = .blocked := by
    rcases announcedType_eq_some htype with ⟨hstatus, -⟩ | ⟨hstatus, -⟩
    · exact .inl hstatus
    · exact .inr hstatus
  simp only [candidateOf, hrun, htask, if_pos hreached, bind_some]
  exact hbuild

/-- A write that is no occasion brings at most the candidate of a task that needs input. -/
theorem candidateOf_other {now : String} (h : occasionOf board event = none)
    (hc : candidateOf board event existing now = some c) : occasionOfCandidate c = none ∧
      (∃ taskId, c.candidateId = candidateIdOf taskId .needsInput none) ∧
      existing.get? c.candidateId = none := by
  cases event with
  | run runId =>
    exfalso
    simp only [candidateOf] at hc
    cases hrun : board.getRun runId with
    | none => simp [hrun] at hc
    | some run =>
      rw [hrun] at hc
      simp only at hc
      by_cases hreached : run.status = .completed ∨ run.status = .blocked
      · rw [if_pos hreached] at hc
        obtain ⟨task, htask, hbuilt⟩ := bind_eq_some_iff.mp hc
        obtain ⟨candidateType, htype⟩ : ∃ candidateType,
            announcedType run.status = some candidateType := by
          rcases hreached with hstatus | hstatus <;> rw [hstatus] <;> exact ⟨_, rfl⟩
        simp only [occasionOf, hrun, htask, htype] at h
        by_cases hquiet : (suppressesCommunicationNotifications task ||
            decide (task.status = .cancelled)) = true
        · rw [buildFromRun_eq_none _ _ _ hquiet] at hbuilt
          cases hbuilt
        · rw [if_neg hquiet] at h
          cases h
      · rw [if_neg hreached] at hc
        cases hc
  | summary taskId =>
    obtain ⟨task, -, hbuilt⟩ := bind_eq_some_iff.mp hc
    unfold buildFromSummary at hbuilt
    cases hsummary : board.getSummary taskId with
    | none => simp [hsummary] at hbuilt
    | some summary =>
      rw [hsummary] at hbuilt
      simp only at hbuilt
      split at hbuilt
      · cases hbuilt
      · split at hbuilt
        · cases hbuilt
        · obtain ⟨rfl, hfree⟩ := unlessThere_eq_some hbuilt
          exact ⟨rfl, ⟨task.taskId, rfl⟩, hfree⟩

/-! ## The loop -/

/-- The blackboard, the writes that are still to be handled, and the candidates, with three
histories: the candidates that the builder made, the occasions it made them for, and what runs
have become. -/
structure State where
  board : Blackboard
  queue : List WriteEvent
  candidates : Candidates
  produced : List Candidate
  announced : List Occasion
  became : List Occasion

def State.empty : State := ⟨Blackboard.empty, [], Table.empty, [], [], []⟩

/-- Anything may write the blackboard, with or without an event; the delivery and the task
commands mark candidates; and the loop may be started anew, with an empty queue. -/
inductive Label where
  | write (board : Blackboard) (event : Option WriteEvent)
  | handle (now : String)
  | mark (candidateId : String) (status : DeliveryStatus)
  | restart

def markCandidate (candidates : Candidates) (candidateId : String) (status : DeliveryStatus) :
    Candidates :=
  match candidates.get? candidateId with
  | none => candidates
  | some candidate => candidates.put (candidate.setStatus status)

def step (s : State) : Label → Option State
  | .write board event =>
    some { s with
      board := board
      queue := s.queue ++ event.toList
      became := s.became ++ (event.bind (occasionOf board)).toList }
  | .handle now =>
    match s.queue with
    | [] => none
    | event :: queue =>
      some { s with
        queue := queue
        candidates := handleBlackboardWrite s.board event now s.candidates
        produced := s.produced ++ (candidateOf s.board event s.candidates now).toList
        announced := s.announced ++ (occasionOf s.board event).toList }
  | .mark candidateId status =>
    some { s with candidates := markCandidate s.candidates candidateId status }
  | .restart => some { s with queue := [] }

def loop : System State Label where
  initial s := s = State.empty
  step := step

/-- How many candidates were made for an occasion. -/
def State.candidatesFor (s : State) (occasion : Occasion) : Nat :=
  (s.produced.filter fun c => occasionOfCandidate c = some occasion).length

/-- Each occasion that was handled has brought one candidate, and no other has brought any. -/
def AnnouncedOnce (s : State) : Prop :=
  ∀ occasion, s.candidatesFor occasion = if occasion ∈ s.announced then 1 else 0

/-- The runs that a step writes are named. -/
def Named : Label → Prop
  | .write board _ => RunsNamed board
  | _ => True

/-- The candidates of a state are those that were made, each under its own id, for the occasions
that were handled. -/
structure Faithful (s : State) : Prop where
  named : RunsNamed s.board
  wellNamed : ∀ c ∈ s.produced, WellNamed c
  there : ∀ candidateId,
    (s.candidates.get? candidateId).isSome = true ↔ candidateId ∈ s.produced.map (·.candidateId)
  nodup : (s.produced.map (·.candidateId)).Nodup
  occasions : ∀ occasion,
    occasion ∈ s.announced ↔ ∃ c ∈ s.produced, occasionOfCandidate c = some occasion

/-- A candidate of an occasion has its id. -/
theorem WellNamed.id_of_occasion (h : WellNamed c)
    (hown : occasionOfCandidate c = some occasion) : c.candidateId = occasion.candidateId := by
  cases h with
  | ofRun own heq _ hid _ =>
    rw [heq] at hown
    cases hown
    exact hid
  | ofSummary hnone _ _ =>
    rw [hnone] at hown
    cases hown

/-- The id of an occasion belongs to its candidates alone. -/
theorem WellNamed.occasion_of_id (h : WellNamed c)
    (hnamed : occasion.runId.length = runIdLength) (htype : occasion.candidateType ≠ .needsInput)
    (hid : c.candidateId = occasion.candidateId) : occasionOfCandidate c = some occasion := by
  cases h with
  | ofRun own heq hown hownId _ =>
    rw [heq, Occasion.eq_of_candidateId hown hnamed (hownId.symm.trans hid)]
  | ofSummary _ taskId hownId =>
    have hneeds := candidateType_of_id (hownId.symm.trans hid)
    exact absurd hneeds.symm htype

variable {s : State}

theorem Faithful.announcedOnce (h : Faithful s) : AnnouncedOnce s := by
  intro occasion
  have hsame : ∀ c ∈ s.produced.filter fun c => occasionOfCandidate c = some occasion,
      c.candidateId = occasion.candidateId := by
    intro c hc
    obtain ⟨hc, hown⟩ := mem_filter.mp hc
    exact (h.wellNamed c hc).id_of_occasion (of_decide_eq_true hown)
  have hnodup : ((s.produced.filter fun c => occasionOfCandidate c = some occasion).map
      (·.candidateId)).Nodup := h.nodup.sublist (filter_sublist.map _)
  by_cases hmem : occasion ∈ s.announced
  · rw [if_pos hmem]
    obtain ⟨c, hc, hown⟩ := (h.occasions occasion).mp hmem
    have hfound : c ∈ s.produced.filter fun c => occasionOfCandidate c = some occasion :=
      mem_filter.mpr ⟨hc, decide_eq_true hown⟩
    unfold State.candidatesFor
    cases hall : s.produced.filter fun c => occasionOfCandidate c = some occasion with
    | nil =>
      rw [hall] at hfound
      cases hfound
    | cons first rest =>
      cases rest with
      | nil => rfl
      | cons second rest =>
        exfalso
        rw [hall] at hsame hnodup
        have hfirst := hsame first mem_cons_self
        have hsecond := hsame second (mem_cons_of_mem _ mem_cons_self)
        rw [map_cons, nodup_cons, map_cons, mem_cons, not_or] at hnodup
        exact hnodup.1.1 (hfirst.trans hsecond.symm)
  · rw [if_neg hmem]
    refine length_eq_zero_iff.mpr (filter_eq_nil_iff.mpr fun c hc hown => ?_)
    exact hmem ((h.occasions occasion).mpr ⟨c, hc, of_decide_eq_true hown⟩)

/-- A new candidate under a free id. -/
theorem Faithful.add (h : Faithful s) (hnamed : WellNamed c)
    (hfree : s.candidates.get? c.candidateId = none) (queue : List WriteEvent)
    (became : List Occasion) :
    Faithful
      { s with
        queue := queue
        candidates := s.candidates.put c
        produced := s.produced ++ [c]
        announced := s.announced ++ (occasionOfCandidate c).toList
        became := became } where
  named := h.named
  wellNamed d hd := by
    rcases mem_append.mp hd with hd | hd
    · exact h.wellNamed d hd
    · rw [mem_singleton.mp hd]
      exact hnamed
  there candidateId := by
    rw [Table.get?_put, map_append, mem_append, ← h.there candidateId]
    by_cases heq : c.candidateId = candidateId
    · simp [heq]
    · simp [heq, Ne.symm heq]
  nodup := by
    rw [map_append, nodup_append]
    refine ⟨h.nodup, nodup_singleton _, fun id hid other hother => ?_⟩
    rintro rfl
    have heq : id = c.candidateId := mem_singleton.mp hother
    have hthere := (h.there id).mpr hid
    rw [heq, hfree] at hthere
    cases hthere
  occasions occasion := by
    rw [mem_append, h.occasions occasion, mem_toList]
    constructor
    · rintro (⟨d, hd, hown⟩ | hown)
      · exact ⟨d, mem_append_left _ hd, hown⟩
      · exact ⟨c, mem_append_right _ mem_cons_self, hown⟩
    · rintro ⟨d, hd, hown⟩
      rcases mem_append.mp hd with hd | hd
      · exact .inl ⟨d, hd, hown⟩
      · rw [mem_singleton.mp hd] at hown
        exact .inr hown

/-- An occasion that has had its candidate. -/
theorem Faithful.again (h : Faithful s)
    (hnamed : occasion.runId.length = runIdLength) (htype : occasion.candidateType ≠ .needsInput)
    (hthere : (s.candidates.get? occasion.candidateId).isSome = true) :
    ∃ c ∈ s.produced, occasionOfCandidate c = some occasion := by
  obtain ⟨c, hc, hid⟩ := mem_map.mp ((h.there occasion.candidateId).mp hthere)
  exact ⟨c, hc, (h.wellNamed c hc).occasion_of_id hnamed htype hid⟩

theorem Faithful.handle (h : Faithful s) (event : WriteEvent) (queue : List WriteEvent)
    (now : String) :
    Faithful
      { s with
        queue := queue
        candidates := handleBlackboardWrite s.board event now s.candidates
        produced := s.produced ++ (candidateOf s.board event s.candidates now).toList
        announced := s.announced ++ (occasionOf s.board event).toList } := by
  cases hoccasion : occasionOf s.board event with
  | none =>
    cases hcandidate : candidateOf s.board event s.candidates now with
    | none =>
      rw [handleBlackboardWrite, hcandidate, toList_none, toList_none, append_nil, append_nil]
      exact ⟨h.named, h.wellNamed, h.there, h.nodup, h.occasions⟩
    | some c =>
      obtain ⟨hown, ⟨taskId, hid⟩, hfree⟩ := candidateOf_other hoccasion hcandidate
      have hadd := h.add (.ofSummary hown taskId hid) hfree queue s.became
      rw [hown] at hadd
      rw [handleBlackboardWrite, hcandidate]
      exact hadd
  | some occasion =>
    obtain ⟨candidate, hcandidate, hown, hid⟩ :=
      candidateOf_occasion s.candidates now hoccasion
    obtain ⟨run, task, candidateType, -, hrun, -, htype, -, -, rfl⟩ :=
      occasionOf_eq_some hoccasion
    have hlength : run.runId.length = runIdLength := h.named run (Table.mem_of_get? hrun)
    have hneeds : candidateType ≠ .needsInput := by
      rcases announcedType_eq_some htype with ⟨-, rfl⟩ | ⟨-, rfl⟩ <;> decide
    by_cases hthere : s.candidates.contains candidate.candidateId = true
    · have hnone : candidateOf s.board event s.candidates now = none := by
        rw [hcandidate, unlessThere, if_pos hthere]
      rw [handleBlackboardWrite, hnone, toList_none, append_nil]
      refine ⟨h.named, h.wellNamed, h.there, h.nodup, fun other => ?_⟩
      rw [mem_append, h.occasions other]
      constructor
      · rintro (hearlier | hother)
        · exact hearlier
        · obtain rfl := mem_singleton.mp hother
          rw [hid] at hthere
          exact h.again hlength hneeds hthere
      · exact .inl
    · have hsome : candidateOf s.board event s.candidates now = some candidate := by
        rw [hcandidate, unlessThere, if_neg hthere]
      have hadd := h.add (.ofRun _ hown hlength hid hneeds)
        (not_isSome_iff_eq_none.mp hthere) queue s.became
      rw [hown] at hadd
      rw [handleBlackboardWrite, hsome]
      exact hadd

theorem get?_markCandidate_isSome (candidates : Candidates) (candidateId : String)
    (status : DeliveryStatus) (other : String) :
    ((markCandidate candidates candidateId status).get? other).isSome =
      (candidates.get? other).isSome := by
  unfold markCandidate
  cases hget : candidates.get? candidateId with
  | none => rfl
  | some candidate =>
    have hid : (candidate.setStatus status).candidateId = candidateId := by
      show candidate.candidateId = candidateId
      exact Table.key_of_get? hget
    simp only [Table.get?_put, hid]
    by_cases heq : candidateId = other
    · subst heq
      simp [hget]
    · rw [if_neg heq]

theorem faithful_step {s' : State} {l : Label} (h : Faithful s) (hnamed : Named l)
    (hs : step s l = some s') : Faithful s' := by
  cases l with
  | write board event =>
    cases hs
    exact ⟨hnamed, h.wellNamed, h.there, h.nodup, h.occasions⟩
  | handle now =>
    unfold step at hs
    cases hqueue : s.queue with
    | nil => simp [hqueue] at hs
    | cons event queue =>
      simp only [hqueue] at hs
      cases hs
      exact h.handle event queue now
  | mark candidateId status =>
    cases hs
    refine ⟨h.named, h.wellNamed, fun other => ?_, h.nodup, h.occasions⟩
    rw [get?_markCandidate_isSome]
    exact h.there other
  | restart =>
    cases hs
    exact ⟨h.named, h.wellNamed, h.there, h.nodup, h.occasions⟩

theorem faithful_empty : Faithful State.empty where
  named run hrun := by cases hrun
  wellNamed c hc := by cases hc
  there candidateId := by simp [State.empty]
  nodup := nodup_nil
  occasions occasion := by simp [State.empty]

/-- In every state of every run, each run that was blocked or completed when one of its writes
was handled, with a task that may be told of, has brought one candidate of its own for that, and
no other run has brought any. -/
theorem announced_once (labels : List Label)
    (hnamed : loop.Along (fun _ l => Named l) State.empty labels) :
    loop.Always AnnouncedOnce State.empty labels :=
  (hnamed.always faithful_empty fun _ _ _ h hc hs => faithful_step h hc hs).mono
    fun _ h => h.announcedOnce

/-- A task with one run of a status. -/
def boardWith (runId : String) (status : RunStatus) : Blackboard :=
  (Blackboard.empty.putTask
    { taskId := "task-00000001", rootTaskId := "task-00000001", title := "Report"
      goal := "Finish the report" }).putRun
    { runId := runId, taskId := "task-00000001", executionSessionId := "execution-1"
      executorType := "codex", status := status }

theorem named_boardWith (status : RunStatus)
    (h : runId.length = runIdLength) : RunsNamed (boardWith runId status) := by
  intro run hrun
  obtain rfl : run = _ := mem_singleton.mp hrun
  exact h

/-- A task asks for input twice, and the first candidate has been emitted by then. -/
def asksTwice : List Label :=
  [.write (boardWith "run-00000001" .blocked) (some (.run "run-00000001")), .handle "10:00",
    .mark "notif-blocked-task-00000001-run-00000001" .emitted,
    .write (boardWith "run-00000002" .blocked) (some (.run "run-00000002")), .handle "10:01"]

theorem asked_twice_announced : loop.Always AnnouncedOnce State.empty asksTwice := by
  refine announced_once asksTwice ?_
  refine fun s₁ h₁ => ⟨named_boardWith _ rfl, fun s₂ h₂ => ⟨trivial, fun s₃ h₃ => ⟨trivial, ?_⟩⟩⟩
  exact fun s₄ h₄ => ⟨named_boardWith _ rfl, fun s₅ h₅ => ⟨trivial, trivial⟩⟩

/-- A run that asks, and is answered before its write is handled. -/
def answeredFirst : List Label :=
  [.write (boardWith "run-00000001" .blocked) (some (.run "run-00000001")),
    .write (boardWith "run-00000001" .running) (some (.run "run-00000001")), .handle "10:00",
    .handle "10:00"]

/-- Its block is never announced. -/
theorem answered_block_unannounced :
    ¬ ∀ (labels : List Label) (s : State), loop.Along (fun _ l => Named l) State.empty labels →
      loop.run State.empty labels = some s → s.queue = [] →
      ∀ occasion ∈ s.became, s.candidatesFor occasion = 1 := by
  intro h
  have hnamed : loop.Along (fun _ l => Named l) State.empty answeredFirst :=
    fun s₁ h₁ => ⟨named_boardWith _ rfl, fun s₂ h₂ => ⟨named_boardWith _ rfl,
      fun s₃ h₃ => ⟨trivial, fun s₄ h₄ => ⟨trivial, trivial⟩⟩⟩⟩
  have hone := h answeredFirst _ hnamed rfl rfl ⟨"task-00000001", .blocked, "run-00000001"⟩
    (mem_singleton.mpr rfl)
  revert hone
  decide

end Newbro.Notifications.Announcements
