import Newbro.DispatchGate

/-!
# Live transcripts

The handlers of `stt_partial` and `stt_final` between their awaits. A message that is due takes
the next generation and waits for the classifier; a classification that comes back to a later
generation is dropped, and the others may end in the rewriter. A partial is cancelled by the
next message, a final is not. A final with the words that were published last is a checkpoint
of the draft and needs neither. Which message a revision came from is recorded beside it.
-/
namespace Newbro.Drafts

open Library Protocol

inductive InteractionType where
  | communication | delegation | draftCorrection | taskControl | statusQuery | confirmation
  | clarificationResponse | uncertain
  deriving Repr, DecidableEq

/-- `DELEGATION` or `DRAFT_CORRECTION` -/
def InteractionType.changesDraft : InteractionType → Bool
  | delegation | draftCorrection => true
  | _ => false

/-- What the handler reads of a classification before it comes to the draft. -/
structure InteractionClassification where
  interactionType : InteractionType := .uncertain
  controlAction : Option String := none
  taskMode : Option TaskMode := none
  deriving Repr, DecidableEq

inductive SourceBoundary where
  | sttPartial | sttFinal
  deriving Repr, DecidableEq

def SourceBoundary.value : SourceBoundary → String
  | sttPartial => "stt.partial"
  | sttFinal => "stt.final"

/-- Once `update_live_draft` waits for the rewriter, the work has the id of that call. -/
structure LiveTranscriptWork where
  generation : Nat
  text : String
  timestampMs : Option Int
  assignedBroId : Option String
  sourceBoundary : SourceBoundary
  rewriteId : Option String := none
  taskMode : Option TaskMode := none
  deriving Repr, DecidableEq

structure LiveConfig where
  session : SessionConfig
  classifierIntervalMs : Nat

structure LiveState where
  dispatches : Dispatches
  liveGeneration : Nat
  works : Table LiveTranscriptWork.generation
  livePartial : Option Nat
  latestPublishedLiveText : String
  latestLiveTranscript : String
  lastLiveClassifierMs : Option Int
  producers : Dict String Nat

/-- The identifiers that are drawn for a message once it is classified. -/
structure LiveIds where
  rewriteId : String
  draftSessionId : String
  turnId : String
  planId : String
  taskId : String
  deriving Repr, DecidableEq

inductive LiveLabel where
  | sttPartial (text : String) (timestampMs : Option Int) (assignedBroId : Option String)
  | sttFinal (text : String) (timestampMs : Option Int) (assignedBroId : Option String)
      (snapshotId : String)
  | classified (generation : Nat) (classification : InteractionClassification) (ids : LiveIds)
  | rewritten (generation : Nat) (draft : Draft) (ids : RevisionIds)
  | fails (generation : Nat)
  | other (label : DispatchLabel)

/-- `" ".join(text.strip().split())` -/
def normalized (text : String) : String := " ".intercalate (Text.words text)

namespace LiveState

variable (s : LiveState)

def drafts : State := s.dispatches.drafts

variable (config : LiveConfig)

def liveClassifierDue (s : LiveState) (text : String)
    (timestampMs : Option Int) : Bool :=
  if normalized text = "" then false
  else
    match s.lastLiveClassifierMs, timestampMs with
    | none, _ => true
    | some _, none => normalized text ≠ s.latestLiveTranscript
    | some last, some timestamp =>
      normalized text ≠ s.latestLiveTranscript &&
        (config.classifierIntervalMs : Int) ≤ timestamp - last

variable (text : String) (timestampMs : Option Int)

def nextLiveWork
    (assignedBroId : Option String) (sourceBoundary : SourceBoundary) : LiveTranscriptWork :=
  { generation := s.liveGeneration + 1
    text := text
    timestampMs := timestampMs
    assignedBroId := assignedBroId
    sourceBoundary := sourceBoundary }

/-- A message has been dealt with, and this is what has become of the drafts. -/
def endWork (work : LiveTranscriptWork) (dispatches : Dispatches) : LiveState :=
  { s with
    dispatches := dispatches
    works := s.works.erase work.generation
    livePartial := s.livePartial.filter (· ≠ work.generation) }

/-- Whatever the task of the partial waits for, it does not come back to it. -/
def cancelLivePartialTask : LiveState :=
  match s.livePartial.bind s.works.get? with
  | none => s
  | some work =>
    match work.rewriteId with
    | none => s.endWork work s.dispatches
    | some rewriteId =>
      s.endWork work { s.dispatches with
        drafts.rewrites := s.drafts.rewrites.erase rewriteId }

def sttPartial (s : LiveState) (text : String)
    (timestampMs : Option Int) (assignedBroId : Option String) : LiveState :=
  if !s.liveClassifierDue config text timestampMs then s
  else
    let work := s.nextLiveWork text timestampMs assignedBroId .sttPartial
    let s := s.cancelLivePartialTask
    { s with
      liveGeneration := work.generation
      works := s.works.put work
      livePartial := some work.generation
      latestLiveTranscript := normalized text
      lastLiveClassifierMs := timestampMs.or s.lastLiveClassifierMs }

/-- The draft that was published last has been made of the same words. -/
def matchesLiveDraft : Bool :=
  normalized text ≠ "" && normalized text = s.latestPublishedLiveText &&
    s.drafts.manager.activeSession.any fun session =>
      session.currentDraft.isSome && session.currentRevisionId.isSome

/-- A final with the words of the draft is one more snapshot; a draft always has a plan. -/
def sttFinal
    (assignedBroId : Option String) (snapshotId : String) : LiveState :=
  let s := s.cancelLivePartialTask
  let work := s.nextLiveWork text timestampMs assignedBroId .sttFinal
  let s := { s with liveGeneration := work.generation }
  let checkpoint := s.drafts.manager.markLiveCheckpoint work.sourceBoundary.value timestampMs
    snapshotId
  if s.matchesLiveDraft text then { s with dispatches.drafts.manager := checkpoint }
  else { s with works := s.works.put work }

def turnOf (work : LiveTranscriptWork) (ids : LiveIds) : TurnInput :=
  { rewriteId := ids.rewriteId
    draftSessionId := ids.draftSessionId
    turnId := ids.turnId
    rawText := work.text
    normalizedText := some work.text
    assignedBroId := work.assignedBroId }

/-- The stretch of `_process_live_transcript_work` from the classification on to the rewriter:
`update_live_draft` tests the timestamp here and hands the transcript over. -/
def updateLiveTranscriptDraft (s : LiveState) (work : LiveTranscriptWork)
    (taskMode : Option TaskMode) (ids : LiveIds) : Option LiveState :=
  let input := turnOf work ids
  let boundary := work.sourceBoundary.value
  let session := s.drafts.manager.sessionForTurn input.draftSessionId input.assignedBroId
  if Text.strip work.text = "" then some (s.endWork work s.dispatches)
  else if session.newerThan work.timestampMs then
    (s.dispatches.step config.session
      (.olderLiveDraft input boundary work.timestampMs ids.planId taskMode)).map fun d =>
        { s.endWork work d with latestPublishedLiveText := normalized work.text }
  else
    (s.dispatches.step config.session
      (.draft (.updateLiveDraft input boundary work.timestampMs))).map fun d =>
        let work := { work with rewriteId := some ids.rewriteId, taskMode := taskMode }
        { s with dispatches := d, works := s.works.put work }

/-- The classification is tested against the generation here, and not again. -/
def classified (s : LiveState) (generation : Nat)
    (classification : InteractionClassification) (ids : LiveIds) : Option LiveState :=
  ((s.works.get? generation).filter (·.rewriteId.isNone)).bind fun work =>
    let interaction := classification.interactionType
    let isPartial := work.sourceBoundary = .sttPartial
    if work.generation ≠ s.liveGeneration then some (s.endWork work s.dispatches)
    else if isPartial ∧ interaction.changesDraft = false then
      some (s.endWork work s.dispatches)
    else if interaction = .confirmation then
      (s.dispatches.step config.session
        (.draft (.confirmActiveDispatch ids.taskId ids.planId none none))).map (s.endWork work)
    else if classification.controlAction = some "clear_draft" then
      (s.dispatches.step config.session (.draft .clear)).map (s.endWork work)
    else if interaction.changesDraft = false then some (s.endWork work s.dispatches)
    else if isPartial ∧ normalized work.text = s.latestPublishedLiveText then
      some (s.endWork work s.dispatches)
    else s.updateLiveTranscriptDraft config work classification.taskMode ids

/-- The draft comes back and replaces whatever its draft session has by now. -/
def rewritten (s : LiveState) (generation : Nat) (draft : Draft)
    (ids : RevisionIds) : Option LiveState :=
  (s.works.get? generation).bind fun work =>
    work.rewriteId.bind fun rewriteId =>
      (s.dispatches.step config.session
        (.draft (.finishRewrite rewriteId draft ids true work.taskMode))).map fun d =>
          { s.endWork work d with
            latestPublishedLiveText := normalized work.text
            producers := Dict.set s.producers ids.revisionId work.generation }

/-- The classifier or the rewriter has raised. -/
def fails (s : LiveState) (generation : Nat) : Option LiveState :=
  (s.works.get? generation).bind fun work =>
    match work.rewriteId with
    | none => some (s.endWork work s.dispatches)
    | some rewriteId =>
      (s.dispatches.step config.session (.draft (.failRewrite rewriteId))).map (s.endWork work)

/-- What the other messages and requests do to the drafts. -/
def notLive : DispatchLabel → Bool
  | .draft (.updateLiveDraft _ _ _) | .draft (.markLiveCheckpoint _ _ _)
  | .olderLiveDraft _ _ _ _ _ => false
  | .draft (.finishRewrite rewriteId _ _ _ _) | .draft (.failRewrite rewriteId) =>
    (s.drafts.rewrites.get? rewriteId).all fun rewrite => rewrite.kind = .appendAsrTurn
  | _ => true

def step (s : LiveState) : LiveLabel → Option LiveState
  | .sttPartial text timestampMs assignedBroId =>
    some (s.sttPartial config text timestampMs assignedBroId)
  | .sttFinal text timestampMs assignedBroId snapshotId =>
    some (s.sttFinal text timestampMs assignedBroId snapshotId)
  | .classified generation classification ids => s.classified config generation classification ids
  | .rewritten generation draft ids => s.rewritten config generation draft ids
  | .fails generation => s.fails config generation
  | .other label =>
    if s.notLive label then
      (s.dispatches.step config.session label).map fun d => { s with dispatches := d }
    else none

end LiveState

def noTranscripts : LiveState :=
  { dispatches := ⟨emptyState, Table.empty, Table.empty⟩
    liveGeneration := 0
    works := Table.empty
    livePartial := none
    latestPublishedLiveText := ""
    latestLiveTranscript := ""
    lastLiveClassifierMs := none
    producers := Table.empty }

def liveSystem (config : LiveConfig) : System LiveState LiveLabel where
  initial s := s = noTranscripts
  step := LiveState.step config

end Newbro.Drafts
