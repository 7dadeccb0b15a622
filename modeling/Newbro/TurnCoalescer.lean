import Newbro.Library.Transition
import Newbro.Protocol

/-!
# Coalesced voice turns

`ChatCompletionTurnCoalescer` holds one turn for a binding for a while, so that a longer version of
it can replace it. A submit call first sends a live partial and takes the slot when that has
returned; the delayed flush and `flush_now` take the turn out of the slot and submit it as final. A
label is one stretch of a coroutine. The state also keeps what has happened: the turns that took the
slot, those that were replaced and by which, those that were submitted, and what a submit call that
raised found and left.
-/
namespace Newbro.TurnCoalescer

open Library Protocol Option Table List

inductive AgoraVoiceEventType where
  | sttPartial | sttFinal | userSpeechStarted | userSpeechEnded | assistantSpeechStarted
  | assistantSpeechEnded | interactionInterrupted | sessionStarted | sessionEnded
  deriving Repr, DecidableEq

structure AgoraVoiceEvent where
  eventId : String
  sessionId : String
  type : AgoraVoiceEventType
  text : String
  language : Option String := none
  timestampMs : Option Int := none
  targetPersonaId : Option String := none
  metadata : Metadata := Table.empty

/-- `ActiveConnectorBinding`, as far as turns read it. -/
structure ActiveConnectorBinding where
  bindingId : String
  synapseSessionId : String
  runtimeSessionId : Option String

structure RuntimeDecision where
  shouldSpeak : Bool
  responseText : String

def compatLivePartialEvent (event : AgoraVoiceEvent) : AgoraVoiceEvent :=
  { event with
    eventId := event.eventId ++ "-partial"
    type := .sttPartial
    metadata := Dict.set event.metadata "turn_boundary_source"
      (.str "agora_custom_llm_live_callback") }

/-! ## State -/

/-- A submit call; its number says how many began before it. -/
structure SubmitCall where
  callId : Nat
  binding : ActiveConnectorBinding
  event : AgoraVoiceEvent

def SubmitCall.bindingId (call : SubmitCall) : String := call.binding.bindingId

inductive TaskState where
  | sleeping | cancelled | done
  deriving Repr, DecidableEq

/-- A `_flush_after_delay`, by the submit call that created it. -/
structure FlushTask where
  taskId : Nat
  bindingId : String
  state : TaskState

/-- `_pending` and the tasks. -/
structure Slots where
  pending : Table SubmitCall.bindingId
  tasks : Table FlushTask.taskId

/-- A submit call whose live partial is with the transport, with what its first stretch found and
left. -/
structure WaitingSubmit where
  call : SubmitCall
  found : Slots
  left : Slots

def WaitingSubmit.callId (waiting : WaitingSubmit) : Nat := waiting.call.callId

structure Coalescer where
  slots : Slots
  begun : Nat
  waiting : Table WaitingSubmit.callId
  /-- The final submissions that are with the transport. -/
  submitting : Table SubmitCall.callId
  partials : List (String × AgoraVoiceEvent)
  spoken : List (String × String)
  installed : List SubmitCall
  /-- A turn that was replaced, and the one that took its place. -/
  replaced : List (SubmitCall × SubmitCall)
  finals : List SubmitCall
  /-- What each stretch of a submit call that has raised found and left. -/
  raised : List (Slots × Slots)

inductive Label where
  | beginSubmit (binding : ActiveConnectorBinding) (event : AgoraVoiceEvent)
  | partialReturns (callId : Nat)
  | partialFails (callId : Nat)
  | delayEnds (taskId : Nat)
  | flushNow (bindingId : String)
  | finalReturns (callId : Nat) (decision : RuntimeDecision)
  | finalFails (callId : Nat)

/-! ## Stretches -/

/-- `task.cancel()`: a task that sleeps, or is about to wake, does not go on. -/
def cancelTask (tasks : Table FlushTask.taskId) (taskId : Nat) : Table FlushTask.taskId :=
  match tasks.get? taskId with
  | some task => tasks.put { task with state := .cancelled }
  | none => tasks

/-- The turn of a binding is taken out of the slot, and its task is cancelled. -/
def Slots.take (slots : Slots) (call : SubmitCall) : Slots where
  pending := slots.pending.erase call.bindingId
  tasks := cancelTask slots.tasks call.callId

/-- A turn takes the slot, with a task of its own. -/
def Slots.install (slots : Slots) (call : SubmitCall) : Slots where
  pending := slots.pending.put call
  tasks := slots.tasks.put ⟨call.callId, call.bindingId, .sleeping⟩

namespace Coalescer

/-- `submit` up to the answer of the live partial. -/
def beginSubmit (s : Coalescer) (binding : ActiveConnectorBinding) (event : AgoraVoiceEvent) :
    Coalescer :=
  let next := { s with
    begun := s.begun + 1
    partials := s.partials ++ [(binding.synapseSessionId, compatLivePartialEvent event)] }
  { next with waiting := s.waiting.put ⟨⟨s.begun, binding, event⟩, s.slots, next.slots⟩ }

/-- The rest of `submit`: `cancel`, and the new turn. -/
def partialReturns (s : Coalescer) (callId : Nat) : Option Coalescer :=
  (s.waiting.get? callId).map fun waiting =>
    let s := { s with waiting := s.waiting.erase callId }
    let s := match s.slots.pending.get? waiting.call.bindingId with
      | some old =>
        { s with slots := s.slots.take old, replaced := s.replaced ++ [(old, waiting.call)] }
      | none => s
    { s with
      slots := s.slots.install waiting.call
      installed := s.installed ++ [waiting.call] }

/-- The live partial fails, and `submit` raises. -/
def partialFails (s : Coalescer) (callId : Nat) : Option Coalescer :=
  (s.waiting.get? callId).map fun waiting =>
    let next := { s with waiting := s.waiting.erase callId }
    { next with raised := s.raised ++ [(waiting.found, waiting.left), (s.slots, next.slots)] }

/-- `_submit_pending` up to the answer of the transport. -/
def submitPending (s : Coalescer) (call : SubmitCall) : Coalescer :=
  { s with finals := s.finals ++ [call], submitting := s.submitting.put call }

/-- `_flush_after_delay`, once it has slept. -/
def delayEnds (s : Coalescer) (taskId : Nat) : Option Coalescer :=
  ((s.slots.tasks.get? taskId).filter fun task => task.state = .sleeping).map fun task =>
    let tasks := s.slots.tasks.put { task with state := .done }
    match s.slots.pending.get? task.bindingId with
    | none => { s with slots := { s.slots with tasks := tasks } }
    | some call =>
      let slots := { pending := s.slots.pending.erase task.bindingId, tasks := tasks }
      { s with slots := slots }.submitPending call

def flushNow (s : Coalescer) (bindingId : String) : Coalescer :=
  match s.slots.pending.get? bindingId with
  | none => s
  | some call => { s with slots := s.slots.take call }.submitPending call

/-- The rest of `_submit_pending`. -/
def finalReturns (s : Coalescer) (callId : Nat) (decision : RuntimeDecision) : Option Coalescer :=
  (s.submitting.get? callId).map fun call =>
    let spoken :=
      match call.binding.runtimeSessionId.filter (· ≠ "") with
      | some runtimeSessionId =>
        if decision.shouldSpeak && decision.responseText ≠ "" then
          s.spoken ++ [(runtimeSessionId, decision.responseText)]
        else s.spoken
      | none => s.spoken
    { s with submitting := s.submitting.erase callId, spoken := spoken }

def finalFails (s : Coalescer) (callId : Nat) : Option Coalescer :=
  (s.submitting.get? callId).map fun _ => { s with submitting := s.submitting.erase callId }

def step (s : Coalescer) : Label → Option Coalescer
  | .beginSubmit binding event => some (s.beginSubmit binding event)
  | .partialReturns callId => s.partialReturns callId
  | .partialFails callId => s.partialFails callId
  | .delayEnds taskId => s.delayEnds taskId
  | .flushNow bindingId => some (s.flushNow bindingId)
  | .finalReturns callId decision => s.finalReturns callId decision
  | .finalFails callId => s.finalFails callId

end Coalescer

def emptyCoalescer : Coalescer :=
  { slots := ⟨Table.empty, Table.empty⟩
    begun := 0
    waiting := Table.empty
    submitting := Table.empty
    partials := []
    spoken := []
    installed := []
    replaced := []
    finals := []
    raised := [] }

def coalescerSystem : System Coalescer Label where
  initial s := s = emptyCoalescer
  step := Coalescer.step

/-! ## The law -/

/-- A turn waits in the slot of its binding, and its task sleeps. -/
def Pending (slots : Slots) (call : SubmitCall) : Prop :=
  slots.pending.get? call.bindingId = some call ∧
    slots.tasks.get? call.callId = some ⟨call.callId, call.bindingId, .sleeping⟩

/-- A turn that took the slot waits there, was submitted, or was replaced by a turn whose submit
call began later; no turn is submitted twice; and a submit call that raises leaves the slots and the
tasks as it finds them. -/
structure Coalesces (s : Coalescer) : Prop where
  kept : ∀ call ∈ s.installed, Pending s.slots call ∨ call ∈ s.finals ∨
    ∃ later, (call, later) ∈ s.replaced ∧ call.callId < later.callId
  once : (s.finals.map SubmitCall.callId).Nodup
  raised : ∀ stretch ∈ s.raised, stretch.1 = stretch.2

/-- When a live partial returns, the turn in the slot is of a submit call that began before. -/
def takesOver (s : Coalescer) : Label → Bool
  | .partialReturns callId =>
    (s.waiting.get? callId).all fun waiting =>
      (s.slots.pending.get? waiting.call.bindingId).all fun old => old.callId < waiting.call.callId
  | _ => true

/-! ## The slots -/

/-- The turns in the slots are those whose tasks sleep. -/
structure SlotsFit (slots : Slots) : Prop where
  pending : ∀ call ∈ slots.pending.entries,
    slots.tasks.get? call.callId = some ⟨call.callId, call.bindingId, .sleeping⟩
  sleeping : ∀ task ∈ slots.tasks.entries, task.state = .sleeping →
    ∃ call ∈ slots.pending.entries, call.callId = task.taskId ∧ call.bindingId = task.bindingId
  ids : (slots.pending.entries.map SubmitCall.callId).Nodup

section slots

variable {slots : Slots} {call : SubmitCall}

theorem slotsFit_empty : SlotsFit ⟨Table.empty, Table.empty⟩ where
  pending := fun _ h => by cases h
  sleeping := fun _ h => by cases h
  ids := nodup_nil

/-- Two turns in the slots of one number are one. -/
theorem SlotsFit.eq_of_callId (h : SlotsFit slots) {other : SubmitCall}
    (hcall : call ∈ slots.pending.entries) (hother : other ∈ slots.pending.entries)
    (hsame : call.callId = other.callId) : call = other :=
  inj_on_of_nodup_map h.ids hcall hother hsame

/-- A turn leaves its slot and its task does not sleep any more. -/
theorem SlotsFit.remove (h : SlotsFit slots) (hcall : slots.pending.get? call.bindingId = some call)
    {state : TaskState} (hstate : state ≠ .sleeping) :
    SlotsFit ⟨slots.pending.erase call.bindingId,
      slots.tasks.put ⟨call.callId, call.bindingId, state⟩⟩ where
  pending other hother := by
    obtain ⟨hmem, hne⟩ := mem_erase.mp hother
    have hids : call.callId ≠ other.callId := by
      intro hsame
      have heq := h.eq_of_callId (mem_of_get? hcall) hmem hsame
      exact hne (by rw [heq])
    exact (slots.tasks.get?_put_of_ne hids).trans (h.pending other hmem)
  sleeping task htask hsleeps := by
    rcases mem_put.mp htask with rfl | ⟨hold, hne⟩
    · exact absurd hsleeps hstate
    · obtain ⟨other, hother, hid, hbinding⟩ := h.sleeping task hold hsleeps
      refine ⟨other, mem_erase.mpr ⟨hother, fun hsame => ?_⟩, hid, hbinding⟩
      have heq := slots.pending.eq_of_key_eq hother (mem_of_get? hcall) hsame
      exact hne (by rw [← hid, heq])
  ids := by
    refine h.ids.sublist (List.Sublist.map _ ?_)
    exact filter_sublist

theorem SlotsFit.take_eq (h : SlotsFit slots)
    (hcall : slots.pending.get? call.bindingId = some call) :
    slots.take call = ⟨slots.pending.erase call.bindingId,
      slots.tasks.put ⟨call.callId, call.bindingId, .cancelled⟩⟩ := by
  have htask := h.pending call (mem_of_get? hcall)
  rw [Slots.take, cancelTask, htask]

/-- A task that sleeps is the task of the turn in the slot of its binding. -/
theorem SlotsFit.of_sleeping (h : SlotsFit slots) {task : FlushTask}
    (htask : task ∈ slots.tasks.entries) (hsleeps : task.state = .sleeping) :
    ∃ call, slots.pending.get? task.bindingId = some call ∧
      task = ⟨call.callId, call.bindingId, .sleeping⟩ := by
  obtain ⟨call, hcall, hid, hbinding⟩ := h.sleeping task htask hsleeps
  refine ⟨call, ?_, ?_⟩
  · rw [← hbinding]
    exact Table.get?_of_mem hcall
  · rw [hid, hbinding, ← hsleeps]

theorem entries_install (hfree : slots.pending.get? call.bindingId = none) :
    (slots.install call).pending.entries = slots.pending.entries ++ [call] := by
  have hnew : ¬ slots.pending.contains call.bindingId := by simp [Table.contains, hfree]
  exact entries_put_of_not_contains hnew

theorem SlotsFit.install (h : SlotsFit slots) (hfree : slots.pending.get? call.bindingId = none)
    (hnew : ∀ other ∈ slots.pending.entries, other.callId ≠ call.callId) :
    SlotsFit (slots.install call) where
  pending other hother := by
    rcases mem_put.mp hother with rfl | ⟨hold, -⟩
    · exact Table.get?_put_self _ _
    · exact (slots.tasks.get?_put_of_ne (Ne.symm (hnew other hold))).trans (h.pending other hold)
  sleeping task htask hsleeps := by
    rcases mem_put.mp htask with rfl | ⟨hold, -⟩
    · exact ⟨call, mem_put.mpr (Or.inl rfl), rfl, rfl⟩
    · obtain ⟨other, hother, hid, hbinding⟩ := h.sleeping task hold hsleeps
      have hne := (Table.get?_eq_none_iff.mp hfree) other hother
      exact ⟨other, mem_put.mpr (Or.inr ⟨hother, hne⟩), hid, hbinding⟩
  ids := by
    rw [entries_install hfree, map_append, nodup_append]
    refine ⟨h.ids, nodup_singleton _, ?_⟩
    intro id hid id' hid' hsame
    obtain ⟨other, hother, rfl⟩ := mem_map.mp hid
    obtain rfl : id' = call.callId := mem_singleton.mp hid'
    exact hnew other hother hsame

/-- The turns in the slots, one of them first. -/
theorem pending_perm (hcall : slots.pending.get? call.bindingId = some call) :
    slots.pending.entries.Perm (call :: (slots.pending.erase call.bindingId).entries) := by
  have hnodup : ∀ t : Table SubmitCall.bindingId, t.entries.Nodup :=
    fun t => List.Nodup.of_map _ t.keys_nodup
  have hgone : call ∉ (slots.pending.erase call.bindingId).entries := by
    intro hmem
    exact (mem_erase.mp hmem).2 rfl
  refine (perm_ext_iff_of_nodup (hnodup _)
    (nodup_cons.mpr ⟨hgone, hnodup _⟩)).mpr fun other => ?_
  rw [mem_cons, mem_erase]
  constructor
  · intro hother
    by_cases hsame : other.bindingId = call.bindingId
    · exact Or.inl (slots.pending.eq_of_key_eq hother (mem_of_get? hcall) hsame)
    · exact Or.inr ⟨hother, hsame⟩
  · rintro (rfl | ⟨hother, -⟩)
    · exact mem_of_get? hcall
    · exact hother

end slots

/-! ## Consistency -/

/-- Every turn that took a slot is at one place, and the submit calls that wait have left the
slots alone. -/
structure Consistent (s : Coalescer) : Prop where
  fit : SlotsFit s.slots
  waiting : ∀ waiting ∈ s.waiting.entries, waiting.callId < s.begun
  installed : ∀ call ∈ s.installed, call.callId < s.begun
  fresh : ∀ waiting ∈ s.waiting.entries, ∀ call ∈ s.installed, call.callId ≠ waiting.callId
  ids : (s.installed.map SubmitCall.callId).Nodup
  partition : s.installed.Perm (s.finals ++ s.slots.pending.entries ++ s.replaced.map Prod.fst)
  stretches : ∀ waiting ∈ s.waiting.entries, waiting.found = waiting.left
  raised : ∀ stretch ∈ s.raised, stretch.1 = stretch.2

theorem consistent_empty : Consistent emptyCoalescer where
  fit := slotsFit_empty
  waiting := fun _ h => by cases h
  installed := fun _ h => by cases h
  fresh := fun _ h => by cases h
  ids := nodup_nil
  partition := List.Perm.refl _
  stretches := fun _ h => by cases h
  raised := fun _ h => by cases h

variable {callId : Nat}

section consistent

variable {s s' : Coalescer} {label : Label}

/-- A turn in a slot took it. -/
theorem Consistent.mem_installed (h : Consistent s) {call : SubmitCall}
    (hcall : call ∈ s.slots.pending.entries) : call ∈ s.installed := by
  rw [h.partition.mem_iff]
  simp [hcall]

theorem Consistent.beginSubmit (h : Consistent s) (binding : ActiveConnectorBinding)
    (event : AgoraVoiceEvent) : Consistent (s.beginSubmit binding event) where
  fit := h.fit
  waiting other hother := by
    rcases mem_put.mp hother with rfl | ⟨hold, -⟩
    · exact Nat.lt_succ_self s.begun
    · exact Nat.lt_succ_of_lt (h.waiting other hold)
  installed call hcall := Nat.lt_succ_of_lt (h.installed call hcall)
  fresh other hother call hcall := by
    rcases mem_put.mp hother with rfl | ⟨hold, -⟩
    · exact Nat.ne_of_lt (h.installed call hcall)
    · exact h.fresh other hold call hcall
  ids := h.ids
  partition := h.partition
  stretches other hother := by
    rcases mem_put.mp hother with rfl | ⟨hold, -⟩
    · rfl
    · exact h.stretches other hold
  raised := h.raised

/-- What the return of a live partial does. -/
theorem partialReturns_cases (hstep : s.partialReturns callId = some s') :
    ∃ waiting, callId = waiting.callId ∧ s.waiting.get? waiting.callId = some waiting ∧
      ((s.slots.pending.get? waiting.call.bindingId = none ∧
        s' = { s with
          waiting := s.waiting.erase waiting.callId
          slots := s.slots.install waiting.call
          replaced := s.replaced
          installed := s.installed ++ [waiting.call] }) ∨
      ∃ old, s.slots.pending.get? waiting.call.bindingId = some old ∧
        s' = { s with
          waiting := s.waiting.erase waiting.callId
          slots := (s.slots.take old).install waiting.call
          replaced := s.replaced ++ [(old, waiting.call)]
          installed := s.installed ++ [waiting.call] }) := by
  obtain ⟨waiting, hget, rfl⟩ := map_eq_some_iff.mp hstep
  obtain rfl := key_of_get? hget
  refine ⟨waiting, rfl, hget, ?_⟩
  cases hold : s.slots.pending.get? waiting.call.bindingId with
  | none => exact Or.inl ⟨rfl, by simp only [hold]⟩
  | some old => exact Or.inr ⟨old, rfl, by simp only [hold]⟩

section

variable (h : Consistent s)
include h

/-- The turn of a submit call whose partial has returned takes a slot. -/
theorem Consistent.installs {waiting : WaitingSubmit}
    (hwaiting : s.waiting.get? waiting.callId = some waiting) {slots : Slots}
    {replaced : List (SubmitCall × SubmitCall)} (hfit : SlotsFit (slots.install waiting.call))
    (hpartition : (s.installed ++ [waiting.call]).Perm
      (s.finals ++ (slots.install waiting.call).pending.entries ++ replaced.map Prod.fst)) :
    Consistent { s with
      waiting := s.waiting.erase waiting.callId
      slots := slots.install waiting.call
      replaced := replaced
      installed := s.installed ++ [waiting.call] } where
  fit := hfit
  waiting other hother := h.waiting other (mem_erase.mp hother).1
  installed call hcall := by
    rcases mem_append.mp hcall with hold | hnew
    · exact h.installed call hold
    · obtain rfl : call = waiting.call := mem_singleton.mp hnew
      exact h.waiting waiting (mem_of_get? hwaiting)
  fresh other hother call hcall := by
    obtain ⟨hmem, hne⟩ := mem_erase.mp hother
    rcases mem_append.mp hcall with hold | hnew
    · exact h.fresh other hmem call hold
    · obtain rfl : call = waiting.call := mem_singleton.mp hnew
      exact Ne.symm hne
  ids := by
    rw [map_append, nodup_append]
    refine ⟨h.ids, nodup_singleton _, ?_⟩
    intro id hid id' hid' hsame
    obtain ⟨call, hcall, rfl⟩ := mem_map.mp hid
    obtain rfl : id' = waiting.callId := mem_singleton.mp hid'
    exact h.fresh waiting (mem_of_get? hwaiting) call hcall hsame
  partition := hpartition
  stretches other hother := h.stretches other (mem_erase.mp hother).1
  raised := h.raised

theorem Consistent.partialReturns (hstep : s.partialReturns callId = some s') : Consistent s' := by
  classical
  obtain ⟨waiting, -, hget, hslot⟩ := partialReturns_cases hstep
  have hmem := mem_of_get? hget
  have hcounts := perm_iff_count.mp h.partition
  have hnew : ∀ other ∈ s.slots.pending.entries, other.callId ≠ waiting.call.callId :=
    fun other hother => h.fresh waiting hmem other (h.mem_installed hother)
  rcases hslot with ⟨hfree, rfl⟩ | ⟨old, hold, rfl⟩
  · refine h.installs hget (h.fit.install hfree hnew) (perm_iff_count.mpr fun call => ?_)
    have hcount := hcounts call
    rw [entries_install hfree]
    simp only [count_append] at hcount ⊢
    omega
  · have hkey : old.bindingId = waiting.call.bindingId := key_of_get? hold
    have hcall : s.slots.pending.get? old.bindingId = some old := by rw [hkey, hold]
    have hfit : SlotsFit (s.slots.take old) := by
      rw [h.fit.take_eq hcall]
      exact h.fit.remove hcall (by decide)
    have hfree : (s.slots.take old).pending.get? waiting.call.bindingId = none := by
      rw [← hkey]
      exact s.slots.pending.get?_erase_self _
    have hrest : ∀ other ∈ (s.slots.take old).pending.entries, other.callId ≠ waiting.call.callId :=
      fun other hother => hnew other (mem_erase.mp hother).1
    refine h.installs hget (hfit.install hfree hrest) (perm_iff_count.mpr fun call => ?_)
    have hcount := hcounts call
    have hout := perm_iff_count.mp (pending_perm hcall) call
    rw [entries_install hfree]
    simp only [count_append, map_append, count_cons, map_cons, map_nil, count_nil] at hcount hout ⊢
    have hpending : (s.slots.take old).pending.entries.count call =
        (s.slots.pending.erase old.bindingId).entries.count call := rfl
    omega

theorem Consistent.partialFails (hstep : s.partialFails callId = some s') : Consistent s' := by
  obtain ⟨waiting, hget, rfl⟩ := map_eq_some_iff.mp hstep
  refine { h with waiting := ?_, fresh := ?_, stretches := ?_, raised := ?_ }
  · exact fun other hother => h.waiting other (mem_erase.mp hother).1
  · exact fun other hother => h.fresh other (mem_erase.mp hother).1
  · exact fun other hother => h.stretches other (mem_erase.mp hother).1
  · intro stretch hstretch
    simp only [mem_append, mem_cons, not_mem_nil, or_false] at hstretch
    rcases hstretch with hold | rfl | rfl
    · exact h.raised stretch hold
    · exact h.stretches waiting (mem_of_get? hget)
    · rfl

/-- A turn leaves its slot to be submitted. -/
theorem Consistent.submits {call : SubmitCall}
    (hcall : s.slots.pending.get? call.bindingId = some call) {state : TaskState}
    (hstate : state ≠ .sleeping) :
    Consistent ({ s with slots := ⟨s.slots.pending.erase call.bindingId,
      s.slots.tasks.put ⟨call.callId, call.bindingId, state⟩⟩ }.submitPending call) := by
  classical
  refine { h with fit := h.fit.remove hcall hstate, partition := ?_ }
  refine perm_iff_count.mpr fun other => ?_
  have hcount := perm_iff_count.mp h.partition other
  have hout := perm_iff_count.mp (pending_perm hcall) other
  simp only [Coalescer.submitPending, count_append, count_cons, count_nil]
    at hcount hout ⊢
  omega

theorem Consistent.delayEnds {taskId : Nat}
    (hstep : s.delayEnds taskId = some s') : Consistent s' := by
  obtain ⟨task, htask, rfl⟩ := map_eq_some_iff.mp hstep
  obtain ⟨hget, hsleeps⟩ := filter_eq_some_iff.mp htask
  obtain ⟨call, hcall, rfl⟩ :=
    h.fit.of_sleeping (mem_of_get? hget) (of_decide_eq_true hsleeps)
  rw [hcall]
  exact h.submits hcall (by decide)

theorem Consistent.flushNow (bindingId : String) : Consistent (s.flushNow bindingId) := by
  cases hget : s.slots.pending.get? bindingId with
  | none =>
    rw [Coalescer.flushNow, hget]
    exact h
  | some call =>
    obtain rfl : call.bindingId = bindingId := key_of_get? hget
    rw [Coalescer.flushNow, hget]
    simp only [h.fit.take_eq hget]
    exact h.submits hget (by decide)

theorem consistent_step (hstep : s.step label = some s') : Consistent s' := by
  cases label with
  | beginSubmit binding event =>
    obtain rfl : s.beginSubmit binding event = s' := some.inj hstep
    exact h.beginSubmit binding event
  | partialReturns callId => exact h.partialReturns hstep
  | partialFails callId => exact h.partialFails hstep
  | delayEnds taskId => exact h.delayEnds hstep
  | flushNow bindingId =>
    obtain rfl : s.flushNow bindingId = s' := some.inj hstep
    exact h.flushNow bindingId
  | finalReturns | finalFails =>
    obtain ⟨call, -, rfl⟩ := map_eq_some_iff.mp hstep
    exact { h with }

end

/-! ## Turns in order -/

/-- Where every turn is at one place, the law asks for the order of the replacements. -/
theorem coalesces_iff_inOrder (h : Consistent s) :
    Coalesces s ↔ ∀ pair ∈ s.replaced, pair.1.callId < pair.2.callId := by
  have hids := h.ids.perm (h.partition.map SubmitCall.callId)
  rw [map_append, map_append] at hids
  obtain ⟨hkept, hgone, hapart⟩ := nodup_append.mp hids
  constructor
  · rintro hlaw ⟨call, later⟩ hpair
    have hcall : call ∈ s.replaced.map Prod.fst := mem_map_of_mem hpair
    have hinstalled : call ∈ s.installed := by
      rw [h.partition.mem_iff]
      exact mem_append_right _ hcall
    -- a turn that was replaced is neither in a slot nor submitted
    have hnowhere : ∀ other ∈ s.finals ++ s.slots.pending.entries, call ≠ other := by
      rintro other hother rfl
      rw [← map_append] at hapart
      exact hapart _ (mem_map_of_mem hother) _ (mem_map_of_mem hcall) rfl
    rcases hlaw.kept call hinstalled with hpending | hfinal | ⟨later', hpair', hlater⟩
    · have hmem := mem_of_get? hpending.1
      exact absurd rfl (hnowhere call (mem_append_right _ hmem))
    · exact absurd rfl (hnowhere call (mem_append_left _ hfinal))
    · have hsame : (call, later) = (call, later') :=
        inj_on_of_nodup_map (List.Nodup.of_map _ hgone) hpair hpair' rfl
      rw [Prod.mk.injEq] at hsame
      rw [hsame.2]
      exact hlater
  · intro horder
    refine ⟨fun call hcall => ?_, (nodup_append.mp hkept).1, h.raised⟩
    rw [h.partition.mem_iff, mem_append, mem_append] at hcall
    rcases hcall with (hfinal | hpending) | hreplaced
    · exact Or.inr (Or.inl hfinal)
    · exact Or.inl ⟨Table.get?_of_mem hpending, h.fit.pending call hpending⟩
    · obtain ⟨⟨old, later⟩, hpair, rfl⟩ := mem_map.mp hreplaced
      exact Or.inr (Or.inr ⟨later, hpair, horder _ hpair⟩)

/-- Only the return of a live partial replaces a turn. -/
theorem replaced_step (hstep : s.step label = some s')
    (hlabel : ∀ callId, label ≠ .partialReturns callId) : s'.replaced = s.replaced := by
  cases label with
  | beginSubmit binding event =>
    obtain rfl : s.beginSubmit binding event = s' := some.inj hstep
    rfl
  | partialReturns callId => exact absurd rfl (hlabel callId)
  | partialFails callId =>
    obtain ⟨waiting, -, rfl⟩ := map_eq_some_iff.mp hstep
    rfl
  | delayEnds taskId =>
    obtain ⟨task, -, rfl⟩ := map_eq_some_iff.mp hstep
    cases s.slots.pending.get? task.bindingId with
    | none => rfl
    | some call => rfl
  | flushNow bindingId =>
    obtain rfl : s.flushNow bindingId = s' := some.inj hstep
    unfold Coalescer.flushNow
    cases s.slots.pending.get? bindingId with
    | none => rfl
    | some call => rfl
  | finalReturns | finalFails =>
    obtain ⟨call, -, rfl⟩ := map_eq_some_iff.mp hstep
    rfl

theorem coalesces_step (h : Consistent s) (hlaw : Coalesces s)
    (hstep : s.step label = some s') : Coalesces s' ↔ takesOver s label = true := by
  have horder := (coalesces_iff_inOrder h).mp hlaw
  rw [coalesces_iff_inOrder (consistent_step h hstep)]
  by_cases hlabel : ∃ callId, label = .partialReturns callId
  · obtain ⟨callId, rfl⟩ := hlabel
    obtain ⟨waiting, rfl, hget, ⟨hfree, rfl⟩ | ⟨old, hold, rfl⟩⟩ := partialReturns_cases hstep
    · refine iff_of_true horder ?_
      simp [takesOver, hget, hfree]
    · have hlast : takesOver s (.partialReturns waiting.callId) = true ↔
          old.callId < waiting.call.callId := by
        simp [takesOver, hget, hold]
      rw [hlast]
      constructor
      · intro hall
        exact hall (old, waiting.call) (mem_append_right _ (mem_singleton_self _))
      · intro hlt pair hpair
        rcases mem_append.mp hpair with hbefore | hnew
        · exact horder pair hbefore
        · obtain rfl : pair = (old, waiting.call) := mem_singleton.mp hnew
          exact hlt
  · have hother : ∀ callId, label ≠ .partialReturns callId :=
      fun callId heq => hlabel ⟨callId, heq⟩
    rw [replaced_step hstep hother]
    refine iff_of_true horder ?_
    cases label with
    | partialReturns callId => exact absurd rfl (hother callId)
    | _ => rfl

end consistent

theorem always_consistent (labels : List Label) :
    coalescerSystem.Always Consistent emptyCoalescer labels := by
  refine (System.along_true emptyCoalescer labels).always consistent_empty ?_
  intro s label s' h _ hstep
  exact consistent_step h hstep

theorem coalesces_empty : Coalesces emptyCoalescer where
  kept := fun _ h => by cases h
  once := nodup_nil
  raised := fun _ h => by cases h

/-- A run loses, doubles and reorders no turn exactly if no live partial returns to find the turn
of a submit call that began later. -/
theorem coalesces_iff (labels : List Label) :
    coalescerSystem.Always Coalesces emptyCoalescer labels ↔
      coalescerSystem.Along (fun s label => takesOver s label = true) emptyCoalescer labels := by
  have hboth : coalescerSystem.Always (fun s => Consistent s ∧ Coalesces s) emptyCoalescer labels ↔
      coalescerSystem.Along (fun s label => takesOver s label = true) emptyCoalescer labels := by
    refine System.always_iff_along (Q := fun _ _ => True) ?_
      ⟨consistent_empty, coalesces_empty⟩ (System.along_true _ _)
    intro s label s' hs _ hstep
    rw [← coalesces_step hs.1 hs.2 hstep]
    exact and_iff_right (consistent_step hs.1 hstep)
  rw [← hboth]
  constructor
  · intro hlaw
    exact (always_consistent labels).and hlaw
  · intro h
    exact h.mono fun _ hs => hs.2

/-! ## A turn that is overtaken -/

def callerBinding : ActiveConnectorBinding := ⟨"binding-1", "session-1", none⟩

def spokenTurn (eventId text : String) : AgoraVoiceEvent where
  eventId := eventId
  sessionId := "session-1"
  type := .sttFinal
  text := text

/-- The live partial of the first submit call returns after that of the second. -/
def crossedPartials : List Label :=
  [.beginSubmit callerBinding (spokenTurn "turn-1" "Book a"),
    .beginSubmit callerBinding (spokenTurn "turn-2" "Book a table"),
    .partialReturns 1, .partialReturns 0]

/-- The second turn gives way to the first, and is not submitted. -/
theorem late_partial_drops_newer_turn :
    ¬ ∀ labels : List Label, coalescerSystem.Always Coalesces emptyCoalescer labels := by
  intro hall
  have hrun : coalescerSystem.run emptyCoalescer crossedPartials =
      some (coalescerSystem.target emptyCoalescer crossedPartials) :=
    System.run_eq_target (by decide)
  have hlaw := (hall crossedPartials).at_end hrun
  have hconsistent := (always_consistent crossedPartials).at_end hrun
  have horder := (coalesces_iff_inOrder hconsistent).mp hlaw
  have hcrossed : ∃ pair ∈ (coalescerSystem.target emptyCoalescer crossedPartials).replaced,
      ¬ pair.1.callId < pair.2.callId := by decide
  obtain ⟨pair, hpair, hnot⟩ := hcrossed
  exact hnot (horder pair hpair)

/-- Whatever fails and whatever comes late, each turn that took a slot has gone to the runtime as
final, is pending, or has been replaced, and only one of these. -/
theorem installed_turns_accounted (labels : List Label) :
    coalescerSystem.Always (fun s => (s.installed.map SubmitCall.callId).Nodup ∧
      s.installed.Perm (s.finals ++ s.slots.pending.entries ++ s.replaced.map Prod.fst))
      emptyCoalescer labels :=
  (always_consistent labels).mono fun _ h => ⟨h.ids, h.partition⟩

end Newbro.TurnCoalescer
