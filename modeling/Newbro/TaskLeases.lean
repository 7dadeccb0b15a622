import Newbro.SessionManager
import Newbro.Library.Transition

/-!
# Leases on tasks

The workers of one blackboard claim its tasks for a time. `claim_task` reads the binding,
tests the claim on it against the clock and writes the new claim, and may be suspended
only where it waits for the lock under which the blackboard is written. Each worker id
has one manager, and so one lease; the clock moves forward.
-/
namespace Newbro.TaskLeases

open Library Protocol SessionManager

/-- What `claim_task` writes: the claim on the binding is tested at the first reading of the
clock, and the new claim counts from the second. -/
def prepareClaim (b : Blackboard) (workerId : String) (lease : Int) (tested granted : Nat)
    (task : Task) : Option SessionBinding :=
  let binding := b.getBinding task.taskId
  let heldByOther := binding.any fun binding =>
    claimIsActive binding tested && binding.claimedBy ≠ none && binding.claimedBy ≠ some workerId
  if heldByOther then none
  else
    some
      { taskId := task.taskId
        executionSessionId := binding.bind SessionBinding.executionSessionId
        sessionId := binding.bind SessionBinding.sessionId
        claimedBy := some workerId
        claimExpiresAt := some ((granted : Int) + lease).toNat
        executionRevision := task.taskRevision
        bindingStatus := .claimed }

/-- A claim that was granted, and whether the task has been released since. -/
structure Grant where
  taskId : String
  workerId : String
  expiresAt : Nat
  released : Bool := false
  deriving DecidableEq

/-- An unexpired claim that was not released is held. -/
def Grant.Held (grant : Grant) (now : Nat) : Prop :=
  grant.released = false ∧ now < grant.expiresAt

/-- A claim written over an earlier binding, and when. -/
structure Replacement where
  before : SessionBinding
  workerId : String
  writtenAt : Nat

/-- A `put_binding` on its way: of the claim of a worker, or of a binding given back. -/
structure Write where
  binding : SessionBinding
  workerId : Option String

structure LeaseState where
  now : Nat
  board : Blackboard
  locked : Bool
  waiting : List Write
  grants : List Grant
  replaced : List Replacement

/-- What is written under the lock. -/
def writeBinding (s : LeaseState) (write : Write) : LeaseState :=
  let board := s.board.putBinding write.binding
  match write.workerId with
  | some workerId =>
    { s with
      board := board
      grants := s.grants ++
        [{ taskId := write.binding.taskId, workerId := workerId,
           expiresAt := write.binding.claimExpiresAt.getD 0 }]
      replaced := s.replaced ++
        ((s.board.getBinding write.binding.taskId).map fun before =>
          { before := before, workerId := workerId, writtenAt := s.now }).toList }
  | none =>
    { s with
      board := board
      grants := s.grants.map fun grant =>
        if grant.taskId = write.binding.taskId then { grant with released := true }
        else grant }

/-- The body of `async with self._lock` does not wait, so the lock is free again at once. -/
def underLock (s : LeaseState) (write : Write) : LeaseState :=
  { writeBinding { s with locked := true } write with locked := false }

/-- `put_binding`: a coroutine that finds the lock taken waits its turn. -/
def putBinding (s : LeaseState) (write : Write) : LeaseState :=
  if s.locked || !s.waiting.isEmpty then { s with waiting := s.waiting ++ [write] }
  else underLock s write

inductive Label where
  | tick (elapsed : Nat)
  /-- A worker calls `claim_task`; time passes between its readings of the clock. -/
  | claimTask (workerId : String) (task : Task) (elapsed : Nat)
  /-- The first coroutine that waits for the lock gets it. -/
  | resume
  /-- The binding of a task is given back. -/
  | release (taskId : String) (paused : Bool)

def step (lease : String → Int) (s : LeaseState) : Label → Option LeaseState
  | .tick elapsed => some { s with now := s.now + elapsed }
  | .claimTask workerId task elapsed =>
    let granted := s.now + elapsed
    match prepareClaim s.board workerId (lease workerId) s.now granted task with
    | none => some { s with now := granted }
    | some claimed => some (putBinding { s with now := granted } ⟨claimed, some workerId⟩)
  | .resume =>
    match s.locked, s.waiting with
    | false, write :: waiting => some (underLock { s with waiting := waiting } write)
    | _, _ => none
  | .release taskId paused =>
    (s.board.getBinding taskId).map fun binding =>
      putBinding s ⟨if paused then pausedBinding binding else releasedBinding binding, none⟩

/-- The workers of one blackboard, each with its lease. -/
def leaseSystem (lease : String → Int) : System LeaseState Label where
  initial s := s.locked = false ∧ s.waiting = [] ∧ s.grants = [] ∧ s.replaced = []
  step := step lease

def start (now : Nat) (board : Blackboard) : LeaseState where
  now := now
  board := board
  locked := false
  waiting := []
  grants := []
  replaced := []

/-- Claims held on one task are one worker's, and a claim that another worker's claim was
written over had expired or had been released. -/
structure Exclusive (s : LeaseState) : Prop where
  oneHolder : ∀ grant ∈ s.grants, ∀ grant' ∈ s.grants, grant.taskId = grant'.taskId →
    grant.Held s.now → grant'.Held s.now → grant.workerId = grant'.workerId
  unreplaced : ∀ r ∈ s.replaced, ∀ holder, r.before.claimedBy = some holder →
    holder ≠ r.workerId → claimIsActive r.before r.writtenAt = false

/-! ## The invariant -/

/-- Each claim that is held stands on the blackboard, for at least its time. -/
structure Recorded (lease : String → Int) (s : LeaseState) : Prop where
  free : s.locked = false ∧ s.waiting = []
  bounded : ∀ grant ∈ s.grants, grant.expiresAt ≤ ((s.now : Int) + lease grant.workerId).toNat
  onBoard : ∀ grant ∈ s.grants, grant.Held s.now →
    ∃ binding expiresAt, s.board.getBinding grant.taskId = some binding ∧
      binding.claimedBy = some grant.workerId ∧ binding.claimExpiresAt = some expiresAt ∧
      grant.expiresAt ≤ expiresAt
  unreplaced : ∀ r ∈ s.replaced, ∀ holder, r.before.claimedBy = some holder →
    holder ≠ r.workerId → claimIsActive r.before r.writtenAt = false

variable {lease : String → Int} {s s' : LeaseState}

theorem Recorded.exclusive (h : Recorded lease s) : Exclusive s where
  oneHolder := by
    intro grant hgrant grant' hgrant' htask hheld hheld'
    obtain ⟨binding, -, hbinding, hclaimed, -, -⟩ := h.onBoard grant hgrant hheld
    obtain ⟨binding', -, hbinding', hclaimed', -, -⟩ := h.onBoard grant' hgrant' hheld'
    have hsame : binding = binding' := by
      rw [htask, hbinding'] at hbinding
      exact (Option.some_inj.mp hbinding).symm
    rw [hsame, hclaimed'] at hclaimed
    exact (Option.some_inj.mp hclaimed).symm
  unreplaced := h.unreplaced

theorem recorded_start (now : Nat) (board : Blackboard) : Recorded lease (start now board) where
  free := ⟨rfl, rfl⟩
  bounded := fun _ h => by cases h
  onBoard := fun _ h => by cases h
  unreplaced := fun _ h => by cases h

variable {now : Nat}

variable {grant : Grant} {elapsed : Nat}

/-- A claim that is held later was held before. -/
theorem Grant.Held.earlier (h : grant.Held (now + elapsed)) :
    grant.Held now := by
  have := h.2
  exact ⟨h.1, by omega⟩

theorem Recorded.tick (h : Recorded lease s) (elapsed : Nat) :
    Recorded lease { s with now := s.now + elapsed } where
  free := h.free
  bounded := by
    intro grant hgrant
    have := h.bounded grant hgrant
    simp only
    omega
  onBoard := fun grant hgrant hheld => h.onBoard grant hgrant hheld.earlier
  unreplaced := h.unreplaced

theorem putBinding_of_free (hfree : s.locked = false ∧ s.waiting = []) (write : Write) :
    putBinding s write = underLock s write := by
  rw [putBinding, hfree.1, hfree.2]
  rfl

variable {workerId : String} {granted : Nat} {task : Task}

/-- What a claim that is granted says about the binding it was tested on. -/
theorem prepareClaim_spec {b : Blackboard} {duration : Int}
    {tested : Nat} {claimed : SessionBinding}
    (h : prepareClaim b workerId duration tested granted task = some claimed) :
    claimed.taskId = task.taskId ∧ claimed.claimedBy = some workerId ∧
      claimed.claimExpiresAt = some ((granted : Int) + duration).toNat ∧
      ∀ binding, b.getBinding task.taskId = some binding → ∀ holder,
        binding.claimedBy = some holder → holder ≠ workerId →
          claimIsActive binding tested = false := by
  rw [prepareClaim] at h
  split at h
  · cases h
  · rename_i htest
    rw [← Option.some_inj.mp h]
    refine ⟨rfl, rfl, rfl, ?_⟩
    intro binding hbinding holder hholder hne
    rw [hbinding, Option.any_some, hholder] at htest
    simpa [hne] using htest

variable {binding : SessionBinding}

theorem claimIsActive_of_lt {expiresAt : Nat} (h : binding.claimExpiresAt = some expiresAt) :
    claimIsActive binding now = decide (now < expiresAt) := by
  rw [claimIsActive, h]

/-- A claim that is not active is not active later. -/
theorem inactive_later
    (h : claimIsActive binding now = false) : claimIsActive binding (now + elapsed) = false := by
  cases hexpires : binding.claimExpiresAt with
  | none => rw [claimIsActive, hexpires]
  | some expiresAt =>
    rw [claimIsActive_of_lt hexpires, decide_eq_false_iff_not] at h ⊢
    omega

/-- A grant that is held on the task of a granted claim is the same worker's. -/
theorem same_worker_of_held (h : Recorded lease s)
    {claimed : SessionBinding}
    (hclaim : prepareClaim s.board workerId (lease workerId) s.now granted task = some claimed)
    (hgrant : grant ∈ s.grants) (hheld : grant.Held s.now)
    (htask : grant.taskId = task.taskId) : grant.workerId = workerId := by
  obtain ⟨-, -, -, htested⟩ := prepareClaim_spec hclaim
  obtain ⟨binding, expiresAt, hbinding, hholder, hexpires, hle⟩ := h.onBoard grant hgrant hheld
  rw [htask] at hbinding
  by_contra hne
  have hinactive := htested binding hbinding grant.workerId hholder hne
  rw [claimIsActive_of_lt hexpires, decide_eq_false_iff_not] at hinactive
  have := hheld.2
  omega

theorem getBinding_putBinding (b : Blackboard) (binding : SessionBinding) (taskId : String) :
    (b.putBinding binding).getBinding taskId =
      if binding.taskId = taskId then some binding else b.getBinding taskId :=
  Table.get?_put b.bindings binding taskId

theorem Recorded.claimed (h : Recorded lease s)
    {claimed : SessionBinding}
    (hclaim : prepareClaim s.board workerId (lease workerId) s.now (s.now + elapsed) task =
      some claimed) :
    Recorded lease (underLock { s with now := s.now + elapsed } ⟨claimed, some workerId⟩) := by
  obtain ⟨htask, hworker, hexpires, htested⟩ := prepareClaim_spec hclaim
  have hlater := h.tick elapsed
  refine ⟨⟨rfl, h.free.2⟩, ?_, ?_, ?_⟩
  · intro grant hgrant
    rcases List.mem_append.mp hgrant with hold | hnew
    · exact hlater.bounded grant hold
    · rw [List.mem_singleton.mp hnew, hexpires]
      exact Nat.le_refl _
  · intro grant hgrant hheld
    have hboard : (s.board.putBinding claimed).getBinding grant.taskId =
        if claimed.taskId = grant.taskId then some claimed else s.board.getBinding grant.taskId :=
      getBinding_putBinding _ _ _
    rcases List.mem_append.mp hgrant with hold | hnew
    · by_cases hsame : grant.taskId = task.taskId
      · -- a renewal lasts at least as long as the claim it renews
        have hholder := same_worker_of_held h hclaim hold hheld.earlier hsame
        have hle := hlater.bounded grant hold
        rw [hholder] at hle
        rw [htask, if_pos hsame.symm] at hboard
        exact ⟨claimed, _, hboard, by rw [hworker, hholder], hexpires, hle⟩
      · obtain ⟨binding, expiresAt, hbinding, hrest⟩ := hlater.onBoard grant hold hheld
        rw [htask, if_neg (Ne.symm hsame)] at hboard
        exact ⟨binding, expiresAt, hboard.trans hbinding, hrest⟩
    · rw [List.mem_singleton.mp hnew] at hboard ⊢
      rw [if_pos rfl] at hboard
      refine ⟨claimed, _, hboard, hworker, hexpires, ?_⟩
      rw [hexpires]
      exact Nat.le_refl _
  · intro r hr holder hholder hne
    rcases List.mem_append.mp hr with hold | hnew
    · exact h.unreplaced r hold holder hholder hne
    · rw [Option.mem_toList, Option.map_eq_some_iff] at hnew
      obtain ⟨before, hbefore, rfl⟩ := hnew
      rw [htask] at hbefore
      exact inactive_later (htested before hbefore holder hholder hne)

theorem Recorded.released (h : Recorded lease s) {taskId : String}
    {given : SessionBinding} (hbinding : s.board.getBinding taskId = some binding)
    (hgiven : given.taskId = binding.taskId) : Recorded lease (underLock s ⟨given, none⟩) := by
  have hid : given.taskId = taskId := hgiven.trans (Table.key_of_get? hbinding)
  refine ⟨⟨rfl, h.free.2⟩, ?_, ?_, h.unreplaced⟩
  · intro grant hgrant
    obtain ⟨old, hold, rfl⟩ := List.mem_map.mp hgrant
    split
    · exact h.bounded old hold
    · exact h.bounded old hold
  · intro grant hgrant hheld
    obtain ⟨old, hold, rfl⟩ := List.mem_map.mp hgrant
    by_cases hsame : old.taskId = given.taskId
    · rw [if_pos hsame] at hheld
      cases hheld.1
    · rw [if_neg hsame] at hheld ⊢
      obtain ⟨found, expiresAt, hfound, hrest⟩ := h.onBoard old hold hheld
      have hboard := getBinding_putBinding s.board given old.taskId
      rw [if_neg (Ne.symm hsame)] at hboard
      exact ⟨found, expiresAt, hboard.trans hfound, hrest⟩

theorem recorded_step {label : Label} (h : Recorded lease s)
    (hs : (leaseSystem lease).step s label = some s') : Recorded lease s' := by
  cases label with
  | tick elapsed =>
    cases hs
    exact h.tick elapsed
  | claimTask workerId task elapsed =>
    simp only [leaseSystem, step] at hs
    cases hclaim : prepareClaim s.board workerId (lease workerId) s.now (s.now + elapsed) task with
    | none =>
      rw [hclaim] at hs
      cases hs
      exact h.tick elapsed
    | some claimed =>
      rw [hclaim] at hs
      cases hs
      rw [putBinding_of_free (s := { s with now := s.now + elapsed }) h.free]
      exact h.claimed hclaim
  | resume =>
    -- no coroutine waits, as the lock is free whenever a coroutine asks for it
    simp only [leaseSystem, step, h.free.1, h.free.2] at hs
    cases hs
  | release taskId paused =>
    simp only [leaseSystem, step] at hs
    obtain ⟨binding, hbinding, rfl⟩ := Option.map_eq_some_iff.mp hs
    rw [putBinding_of_free h.free]
    refine h.released hbinding ?_
    cases paused <;> rfl

/-- Whatever the workers, their leases and the order of their calls, a task has one holder at a
time, who keeps it until the claim expires or is released. -/
theorem claims_are_exclusive (lease : String → Int) (now : Nat) (board : Blackboard)
    (labels : List Label) : (leaseSystem lease).Always Exclusive (start now board) labels := by
  have hrecorded : (leaseSystem lease).Always (Recorded lease) (start now board) labels := by
    refine (System.along_true _ _).always (recorded_start now board) ?_
    intro s label s' h _ hs
    exact recorded_step h hs
  exact hrecorded.mono fun _ h => h.exclusive

end Newbro.TaskLeases
