import Newbro.LateEvents

/-!
# Personas and the tasks they are assigned to

A persona should be busy exactly while an active task names it. The flag is set when a
task is created and cleared by `_release_persona` alone, which only the end of a run and
an exception go through. This module says which steps keep the law.
-/
namespace Newbro.SessionRuntime

open Library Protocol SessionManager SummaryManager
  SessionCommands InteractionRequests Reconcile Option

def personaStatus (b : Blackboard) (personaId : String) : Option PersonaStatus :=
  (b.getPersona personaId).map Persona.status

/-- An active task other than `taskId` names the persona. -/
def OccupiedByOther (b : Blackboard) (taskId personaId : String) : Prop :=
  ∃ other status, other ≠ taskId ∧ taskView b other = some (status, some personaId) ∧
    isActive status = true

/-- Some active task names the persona. -/
def Occupied (b : Blackboard) (personaId : String) : Prop :=
  ∃ taskId status, taskView b taskId = some (status, some personaId) ∧ isActive status = true

/-- A persona is busy exactly while an active task names it. -/
def OccupancyLaw (b : Blackboard) : Prop :=
  ∀ personaId status, personaStatus b personaId = some status →
    (status = .busy ↔ Occupied b personaId)

theorem occupied_iff (b : Blackboard) (taskId personaId : String) :
    Occupied b personaId ↔ OccupiedByOther b taskId personaId ∨
      ∃ status, taskView b taskId = some (status, some personaId) ∧ isActive status = true := by
  constructor
  · rintro ⟨other, status, hview, hactive⟩
    by_cases ht : other = taskId
    · exact .inr ⟨status, ht ▸ hview, hactive⟩
    · exact .inl ⟨other, status, ht, hview, hactive⟩
  · rintro (⟨other, status, -, hview, hactive⟩ | ⟨status, hview, hactive⟩)
    · exact ⟨other, status, hview, hactive⟩
    · exact ⟨taskId, status, hview, hactive⟩

/-- The scan of `_release_persona` finds another active task exactly if there is one. -/
theorem occupiedByOther_iff (b : Blackboard) (taskId personaId : String) :
    occupiedByOther b taskId personaId = true ↔ OccupiedByOther b taskId personaId := by
  simp only [occupiedByOther, List.any_eq_true, Bool.and_eq_true, decide_eq_true_eq]
  constructor
  · rintro ⟨task, hmem, ⟨hne, hactive⟩, hpersona⟩
    have hget : b.getTask task.taskId = some task := Table.get?_of_mem hmem
    exact ⟨task.taskId, task.status, hne, by simp [taskView, hget, hpersona], hactive⟩
  · rintro ⟨other, status, hne, hview, hactive⟩
    obtain ⟨task, hget, hpair⟩ := map_eq_some_iff.mp hview
    simp only [Prod.mk.injEq] at hpair
    refine ⟨task, Table.mem_of_get? hget, ⟨?_, ?_⟩, hpair.2⟩
    · rw [getTask_taskId hget]
      exact hne
    · rw [hpair.1]
      exact hactive

/-- The new status of the task is active like its old one, or no persona is concerned, or
another active task names the persona. -/
def KeepsOccupancy (b : Blackboard) (taskId : String) (status : TaskStatus) : Prop :=
  ∀ old personaId, taskView b taskId = some (old, some personaId) →
    (personaStatus b personaId).isSome →
    isActive status = isActive old ∨ OccupiedByOther b taskId personaId

/-! ## Statuses written without a look at the persona -/

variable {b b' : Blackboard} {written : String → Option TaskStatus} {taskId : String}

/-- Writes to other tasks that keep them active or ended keep the others' occupancy. -/
theorem occupiedByOther_overwrite
    (hview : ∀ u, taskView b' u = overwrite (written u) (taskView b u))
    (hothers : ∀ u ≠ taskId, ∀ view ∈ taskView b u,
      isActive ((written u).getD view.1) = isActive view.1) (personaId : String) :
    OccupiedByOther b' taskId personaId ↔ OccupiedByOther b taskId personaId := by
  constructor
  · rintro ⟨other, status, hne, hother, hactive⟩
    rw [hview] at hother
    obtain ⟨⟨old, persona⟩, hold, hpair⟩ := map_eq_some_iff.mp hother
    simp only [Prod.mk.injEq] at hpair
    obtain ⟨rfl, rfl⟩ := hpair
    exact ⟨other, old, hne, hold, (hothers other hne _ hold).symm.trans hactive⟩
  · rintro ⟨other, status, hne, hother, hactive⟩
    refine ⟨other, (written other).getD status, hne, ?_, ?_⟩
    · rw [hview, hother]
      rfl
    · rw [hothers other hne _ hother]
      exact hactive

/-- When a step writes one task's status and no persona, the law is kept exactly if the
write keeps the occupancy. -/
theorem occupancyLaw_overwrite_iff (hlaw : OccupancyLaw b)
    (hpersona : ∀ p, personaStatus b' p = personaStatus b p)
    (hview : ∀ u, taskView b' u = overwrite (written u) (taskView b u))
    (hothers : ∀ u ≠ taskId, ∀ view ∈ taskView b u,
      isActive ((written u).getD view.1) = isActive view.1) :
    OccupancyLaw b' ↔ ∀ status ∈ written taskId, KeepsOccupancy b taskId status := by
  have hother := occupiedByOther_overwrite hview hothers
  constructor
  · intro hlaw' status hwritten old personaId hold hexists
    obtain ⟨st, hst⟩ := isSome_iff_exists.mp hexists
    have hbusy := hlaw personaId st hst
    have hbusy' := hlaw' personaId st (by rw [hpersona, hst])
    by_cases ho : OccupiedByOther b taskId personaId
    · exact .inr ho
    left
    have hafter : taskView b' taskId = some (status, some personaId) := by
      rw [hview, hold, mem_def.mp hwritten]
      rfl
    rw [occupied_iff b taskId] at hbusy
    rw [occupied_iff b' taskId, hother] at hbusy'
    simp only [ho, hold, hafter, false_or, some.injEq, Prod.mk.injEq, and_true,
      exists_eq_left'] at hbusy hbusy'
    exact Bool.eq_iff_iff.mpr (hbusy'.symm.trans hbusy)
  · intro hkeeps personaId st hst
    rw [hpersona] at hst
    rw [hlaw personaId st hst, occupied_iff b taskId, occupied_iff b' taskId, hother, hview]
    by_cases ho : OccupiedByOther b taskId personaId
    · simp [ho]
    simp only [ho, false_or]
    cases hwritten : written taskId with
    | none => rw [overwrite_none]
    | some status =>
      have hkeep := hkeeps status hwritten
      cases hold : taskView b taskId with
      | none => simp [overwrite]
      | some view =>
        obtain ⟨old, persona⟩ := view
        by_cases hp : persona = some personaId
        · subst hp
          have hsame := (hkeep old personaId hold (by simp [hst])).resolve_right ho
          simp [overwrite, hsame]
        · simp [overwrite, hp]

/-! ## Releasing a persona -/

theorem personaStatus_putPersona (b : Blackboard) (persona : Persona) (personaId : String) :
    personaStatus (b.putPersona persona) personaId =
      if persona.personaId = personaId then some persona.status
      else personaStatus b personaId := by
  simp only [personaStatus, Blackboard.getPersona, Blackboard.personas_putPersona, Table.get?_put]
  split_ifs <;> rfl

theorem occupied_congr (h : b'.tasks = b.tasks) (personaId : String) :
    Occupied b' personaId ↔ Occupied b personaId := by
  simp only [Occupied, taskView_congr h]

/-- After a release, the persona of the task is busy exactly if another active task names
it; no other persona is touched. -/
theorem personaStatus_releasePersona (b : Blackboard) (task : Task) (personaId : String) :
    personaStatus (releasePersona b task) personaId =
      if task.personaId = some personaId ∧ personaStatus b personaId = some .busy ∧
          occupiedByOther b task.taskId personaId = false then some .idle
      else personaStatus b personaId := by
  unfold releasePersona
  cases hp : task.personaId with
  | none => simp
  | some p =>
    simp only [bind_some, some.injEq]
    cases hget : b.getPersona p with
    | none =>
      by_cases he : p = personaId
      · subst he
        simp [personaStatus, hget]
      · simp [he]
    | some persona =>
      have hid : persona.personaId = p := Table.key_of_get? hget
      simp only [hid]
      by_cases he : p = personaId
      · subst he
        have hst : personaStatus b p = some persona.status := by simp [personaStatus, hget]
        split_ifs with ho hbusy <;> simp_all [personaStatus_putPersona]
      · split_ifs <;> simp_all [personaStatus_putPersona]

variable {task : Task}

/-- Once a task has ended, releasing its persona restores the law. -/
theorem occupancyLaw_releasePersona
    (hlaw : OccupancyLaw b) (hpersona : ∀ p, personaStatus b' p = personaStatus b p)
    (hview : ∀ u, taskView b' u = overwrite (written u) (taskView b u))
    (hothers : ∀ u ≠ task.taskId, written u = none)
    (hpersonaId : (taskView b task.taskId).map Prod.snd = some task.personaId)
    (hended : ∀ view ∈ taskView b' task.taskId, isActive view.1 = false) :
    OccupancyLaw (releasePersona b' task) := by
  have hother : ∀ p, OccupiedByOther b' task.taskId p ↔ OccupiedByOther b task.taskId p :=
    occupiedByOther_overwrite hview fun u hne view _ => by rw [hothers u hne]; rfl
  obtain ⟨⟨old, named⟩, hold, hnamed⟩ := map_eq_some_iff.mp hpersonaId
  simp only at hnamed
  subst hnamed
  intro p st hst
  rw [occupied_congr (releasePersona_frame Blackboard.tasks (fun _ _ => rfl) b' task)]
  rw [personaStatus_releasePersona, hpersona] at hst
  -- the ended task occupies nobody
  have hafter : Occupied b' p ↔ OccupiedByOther b task.taskId p := by
    rw [occupied_iff b' task.taskId, hother]
    refine or_iff_left ?_
    rintro ⟨status, hstatus, hactive⟩
    rw [hended _ hstatus] at hactive
    cases hactive
  rw [hafter]
  by_cases hp : task.personaId = some p
  · have hscan : occupiedByOther b' task.taskId p = true ↔ OccupiedByOther b task.taskId p :=
      (occupiedByOther_iff b' task.taskId p).trans (hother p)
    by_cases ho : OccupiedByOther b task.taskId p
    · have hbusy : personaStatus b p = some .busy := by
        have hsome : (personaStatus b p).isSome := by
          simp only [hscan.mpr ho, Bool.true_eq_false, and_false, if_false] at hst
          simp [hst]
        obtain ⟨st', hst'⟩ := isSome_iff_exists.mp hsome
        have := (hlaw p st' hst').mpr ((occupied_iff b task.taskId p).mpr (.inl ho))
        rw [hst', this]
      simp only [hscan.mpr ho, Bool.true_eq_false, and_false, if_false, hbusy, some.injEq] at hst
      exact iff_of_true hst.symm ho
    · have hno : occupiedByOther b' task.taskId p = false := by
        rw [← Bool.not_eq_true, hscan]
        exact ho
      refine iff_of_false ?_ ho
      rintro rfl
      by_cases hbusy : personaStatus b p = some .busy
      · simp [hp, hbusy, hno] at hst
      · simp [hbusy] at hst
  · simp only [hp, false_and, if_false] at hst
    rw [hlaw p st hst, occupied_iff b task.taskId]
    refine or_iff_left ?_
    rintro ⟨status, hstatus, -⟩
    rw [hold] at hstatus
    simp only [some.injEq, Prod.mk.injEq] at hstatus
    exact hp hstatus.2

/-! ## Creating tasks -/

variable {template : Task}

/-- A created task is active and names the persona that its creation found, if any. -/
theorem createdTask_spec (creation : Creation)
    (hp : Dict.lookup template.metadata "persona_id" = none) :
    isActive (createdTask creation template).status = true ∧
      (createdTask creation template).personaId = creation.persona.map Persona.personaId := by
  refine ⟨?_, ?_⟩
  · have hstatus : ∀ source, isActive (creationStatus source) = true := by
      intro source
      cases source <;> rfl
    exact hstatus creation.source
  · cases hpersona : creation.persona with
    | none => simp [createdTask, hpersona, Task.personaId, Metadata.str?, hp]
    | some persona =>
      simp [createdTask, hpersona, Task.personaId, Metadata.str?, personaMetadata, Value.str?]

theorem occupancyLaw_finishCreation {creation : Creation}
    (hlaw : OccupancyLaw b) (ht : b.getTask template.taskId = none)
    (hp : Dict.lookup template.metadata "persona_id" = none) :
    OccupancyLaw ((occupyPersona b creation.persona).putTask (createdTask creation template)) := by
  obtain ⟨hactive, hnamed⟩ := createdTask_spec creation hp
  have hview : ∀ u, taskView ((occupyPersona b creation.persona).putTask
      (createdTask creation template)) u =
        if template.taskId = u then some ((createdTask creation template).status,
          creation.persona.map Persona.personaId) else taskView b u := by
    intro u
    rw [taskView_putTask, hnamed,
      taskView_congr (occupyPersona_frame Blackboard.tasks (fun _ _ => rfl) ..)]
    rfl
  have hfresh : taskView b template.taskId = none := by simp [taskView, ht]
  have hoccupied : ∀ p, Occupied ((occupyPersona b creation.persona).putTask
      (createdTask creation template)) p ↔
        Occupied b p ∨ creation.persona.map Persona.personaId = some p := by
    intro p
    constructor
    · rintro ⟨u, status, hstatus, ha⟩
      rw [hview] at hstatus
      split_ifs at hstatus
      · simp only [some.injEq, Prod.mk.injEq] at hstatus
        exact .inr hstatus.2
      · exact .inl ⟨u, status, hstatus, ha⟩
    · rintro (⟨u, status, hstatus, ha⟩ | hnames)
      · refine ⟨u, status, ?_, ha⟩
        rw [hview, if_neg, hstatus]
        rintro rfl
        rw [hfresh] at hstatus
        cases hstatus
      · exact ⟨template.taskId, _, by rw [hview, if_pos rfl, hnames], hactive⟩
  intro p st hst
  rw [hoccupied]
  cases hpersona : creation.persona with
  | none =>
    simp only [hpersona, occupyPersona] at hst
    simpa using hlaw p st hst
  | some persona =>
    have hstatus : personaStatus (b.putPersona { persona with status := .busy }) p = some st := by
      rw [hpersona] at hst
      exact hst
    rw [personaStatus_putPersona] at hstatus
    simp only [map_some, some.injEq]
    split_ifs at hstatus with he
    · simp only [some.injEq] at hstatus
      exact iff_of_true hstatus.symm (.inr he)
    · rw [hlaw p st hstatus]
      simp [he]

/-! ## Syncing personas -/

theorem syncedPersona_personaId (b : Blackboard) (persisted : Persona) :
    (syncedPersona b persisted).personaId = persisted.personaId := by
  unfold syncedPersona
  split <;> rfl

theorem syncedPersona_status (b : Blackboard) (persisted : Persona) :
    (syncedPersona b persisted).status = (personaStatus b persisted.personaId).getD .idle := by
  unfold syncedPersona personaStatus
  cases b.getPersona persisted.personaId <;> rfl

theorem personaStatus_addAll (b : Blackboard) (personaId : String) (personas : List Persona)
    (b₀ : Blackboard) :
    personaStatus (personas.foldl (fun b' persona => b'.putPersona (syncedPersona b persona)) b₀)
        personaId =
      if personaId ∈ personas.map Persona.personaId then
        some ((personaStatus b personaId).getD .idle)
      else personaStatus b₀ personaId := by
  induction personas generalizing b₀ with
  | nil => simp
  | cons persona personas ih =>
    rw [List.foldl_cons, ih, personaStatus_putPersona, syncedPersona_personaId,
      syncedPersona_status]
    by_cases hrest : personaId ∈ personas.map Persona.personaId
    · simp [hrest]
    · by_cases hp : persona.personaId = personaId
      · subst hp
        simp [hrest]
      · simp [hrest, hp, Ne.symm hp]

theorem personaStatus_deleteAll (personaId : String) (personas : List Persona) (b₀ : Blackboard) :
    personaStatus (personas.foldl (fun b persona => b.deletePersona persona.personaId) b₀)
        personaId =
      if personaId ∈ personas.map Persona.personaId then none
      else personaStatus b₀ personaId := by
  induction personas generalizing b₀ with
  | nil => simp
  | cons persona personas ih =>
    have hdelete : personaStatus (b₀.deletePersona persona.personaId) personaId =
        if persona.personaId = personaId then none else personaStatus b₀ personaId := by
      simp only [personaStatus, Blackboard.getPersona, Blackboard.personas_deletePersona,
        Table.get?_erase]
      split_ifs <;> rfl
    rw [List.foldl_cons, ih, hdelete]
    by_cases hrest : personaId ∈ personas.map Persona.personaId
    · simp [hrest]
    · by_cases hp : persona.personaId = personaId
      · simp [hp]
      · simp [hrest, hp, Ne.symm hp]

/-- A sync keeps the status of the personas it keeps, and adds the others as idle. -/
theorem personaStatus_syncPersonas (b : Blackboard) (persisted : Table Persona.personaId)
    (personaId : String) (status : PersonaStatus)
    (h : personaStatus (syncPersonas b persisted) personaId = some status) :
    personaStatus b personaId = some status ∨
      (personaStatus b personaId = none ∧ persisted.contains personaId = true ∧
        status = .idle) := by
  unfold syncPersonas at h
  rw [personaStatus_deleteAll, personaStatus_addAll] at h
  split_ifs at h with hdropped hadded
  · cases hst : personaStatus b personaId with
    | none =>
      rw [hst] at h
      refine .inr ⟨rfl, ?_, (some.inj h).symm⟩
      obtain ⟨persona, hmem, rfl⟩ := List.mem_map.mp hadded
      simp [Table.contains, Table.get?_of_mem hmem]
    | some st =>
      rw [hst] at h
      exact .inl h
  · exact .inl h

variable {persisted : Table Persona.personaId}

/-- The personas that a sync adds. -/
theorem personaStatus_syncPersonas_added
    {persona : Persona} (hmem : persona ∈ persisted.entries)
    (hnew : b.getPersona persona.personaId = none) :
    personaStatus (syncPersonas b persisted) persona.personaId = some .idle := by
  unfold syncPersonas
  rw [personaStatus_deleteAll, personaStatus_addAll, if_neg, if_pos]
  · simp [personaStatus, hnew]
  · exact List.mem_map.mpr ⟨persona, hmem, rfl⟩
  · intro hdropped
    obtain ⟨dropped, hdrop, hid⟩ := List.mem_map.mp hdropped
    have hcurrent : b.getPersona dropped.personaId = some dropped :=
      Table.get?_of_mem (List.mem_filter.mp hdrop).1
    rw [hid, hnew] at hcurrent
    cases hcurrent

/-- A sync keeps the law exactly if no active task names a persona that it adds. -/
theorem occupancyLaw_syncPersonas_iff
    (hlaw : OccupancyLaw b) : OccupancyLaw (syncPersonas b persisted) ↔
      ∀ persona ∈ persisted.entries, b.getPersona persona.personaId = none →
        ¬ Occupied b persona.personaId := by
  have hoccupied := occupied_congr
    (syncPersonas_frame Blackboard.tasks (fun _ _ => rfl) (fun _ _ => rfl) b persisted)
  constructor
  · intro hlaw' persona hmem hnew hocc
    have hidle := personaStatus_syncPersonas_added hmem hnew
    have hbusy := (hlaw' _ _ hidle).mpr ((hoccupied _).mpr hocc)
    cases hbusy
  · intro hadded p st hst
    rw [hoccupied]
    rcases personaStatus_syncPersonas b persisted p st hst with hold | ⟨hnone, hmem, rfl⟩
    · exact hlaw p st hold
    · obtain ⟨persona, hpersona⟩ := isSome_iff_exists.mp hmem
      have hid : persona.personaId = p := Table.key_of_get? hpersona
      have hnew : b.getPersona persona.personaId = none := by
        rw [hid]
        simpa [personaStatus] using hnone
      refine iff_of_false (by decide) ?_
      rw [← hid]
      exact hadded persona (Table.mem_of_get? hpersona) hnew

/-! ## The ends of coroutines -/

theorem personaStatus_applyEvent (b : Blackboard) (task : Task) (run : ExecutionRun)
    (event : ExecutorEvent) (personaId : String) :
    personaStatus (RunManager.applyEvent b task run event) personaId = personaStatus b personaId :=
  applyEvent_frame (fun b => personaStatus b personaId) (fun _ _ => rfl) (fun _ _ => rfl)
    (fun _ _ => rfl) ..

variable {event : ExecutorEvent}

/-- An ignored event finds its task cancelled; a releasing one ends it. -/
theorem isActive_appliedTask (h : RunManager.ignores task event = true ∨
      releasesPersona (RunManager.runStatusOf event.eventType) = true) :
    isActive (RunManager.appliedTask task event).status = false := by
  unfold RunManager.appliedTask
  by_cases hi : RunManager.ignores task event
  · have hcancelled : task.status = .cancelled := by
      simp only [RunManager.ignores, Bool.and_eq_true, decide_eq_true_eq] at hi
      exact hi.1
    simp [hi, hcancelled, isActive]
  · have hrel := h.resolve_left hi
    simp only [hi, if_false, Bool.false_eq_true]
    cases he : event.eventType <;> rw [he] at hrel <;>
      simp [RunManager.runStatusOf, releasesPersona, RunManager.taskStatusOf, isActive] at hrel ⊢

/-- The board of a settled run, before the persona is looked at. -/
def unreleased (b : Blackboard) (live : LiveSessions) (claimed : SessionBinding)
    (handle : RunHandle) (task : Task) (run : ExecutionRun) : Blackboard :=
  parkWaitingRun ((syncExecutorSession b live handle).putSummary (buildSummary task run)) claimed
    handle run

theorem settleRun_eq (b : Blackboard) (live : LiveSessions) (claimed : SessionBinding)
    (handle : RunHandle) (task : Task) (run : ExecutionRun) :
    settleRun b live claimed handle task run =
      if releasesPersona run.status then
        releasePersona (unreleased b live claimed handle task run) task
      else unreleased b live claimed handle task run := rfl

theorem unreleased_frame {α : Type*} (view : Blackboard → α)
    (hsession : ∀ b session, view (b.putSession session) = view b)
    (hbinding : ∀ b binding, view (b.putBinding binding) = view b)
    (hsummary : ∀ b summary, view (b.putSummary summary) = view b) (b : Blackboard)
    (live : LiveSessions) (claimed : SessionBinding) (handle : RunHandle) (task : Task)
    (run : ExecutionRun) : view (unreleased b live claimed handle task run) = view b := by
  rw [unreleased, parkWaitingRun_frame view hsession hbinding, hsummary,
    syncExecutorSession_frame view hsession]

/-- What an event writes into the status of the task `u`. -/
def eventWrites (task : Task) (event : ExecutorEvent) (u : String) : Option TaskStatus :=
  if task.taskId = u ∧ RunManager.ignores task event = false then
    some (RunManager.taskStatusOf event.eventType) else none

theorem eventWrites_other {u : String}
    (h : u ≠ task.taskId) : eventWrites task event u = none := by
  simp [eventWrites, h.symm]

/-- An event keeps the law exactly if it ends its run, or the status it writes keeps the
occupancy. -/
theorem occupancyLaw_drainEvent_iff {run : ExecutionRun}
    (hlaw : OccupancyLaw b) (ht : b.getTask task.taskId = some task)
    (hr : b.getRun run.runId = some run) (live : LiveSessions) (claimed : SessionBinding)
    (handle : RunHandle) (event : ExecutorEvent) :
    OccupancyLaw (drainEvent b live claimed handle task run event) ↔
      releasesPersona (RunManager.runStatusOf event.eventType) = true ∨
        ∀ status ∈ eventWrites task event task.taskId, KeepsOccupancy b task.taskId status := by
  have happlied : ∀ u, taskView (RunManager.applyEvent b task run event) u =
      overwrite (eventWrites task event u) (taskView b u) := taskView_applyEvent ht run event
  have hkept : ∀ b', (∀ p, personaStatus b' p = personaStatus b p) →
      (∀ u, taskView b' u = overwrite (eventWrites task event u) (taskView b u)) →
      (OccupancyLaw b' ↔ ∀ status ∈ eventWrites task event task.taskId,
        KeepsOccupancy b task.taskId status) := fun b' hpersona hview =>
    occupancyLaw_overwrite_iff hlaw hpersona hview fun u hne view _ => by
      rw [eventWrites_other hne]
      rfl
  have hsilent : RunManager.ignores task event = true →
      ∀ status ∈ eventWrites task event task.taskId, KeepsOccupancy b task.taskId status := by
    intro hi status hwritten
    simp [eventWrites, hi] at hwritten
  cases he : isTerminalEvent event.eventType with
  | false =>
    have hrel : ¬ releasesPersona (RunManager.runStatusOf event.eventType) = true := by
      cases hty : event.eventType <;> rw [hty] at he <;> first | decide | cases he
    rw [drainEvent_of_not_terminal he, or_iff_right hrel]
    exact hkept _ (personaStatus_applyEvent b task run event) happlied
  | true =>
    rw [drainEvent_of_terminal ht hr he, settleRun_eq]
    have hpersona : ∀ p, personaStatus (unreleased (RunManager.applyEvent b task run event) live
        claimed handle (RunManager.appliedTask task event)
        (RunManager.appliedRun task run event)) p = personaStatus b p := fun p =>
      (unreleased_frame (fun b => personaStatus b p) (fun _ _ => rfl) (fun _ _ => rfl)
        (fun _ _ => rfl) ..).trans (personaStatus_applyEvent ..)
    have hview : ∀ u, taskView (unreleased (RunManager.applyEvent b task run event) live
        claimed handle (RunManager.appliedTask task event)
        (RunManager.appliedRun task run event)) u =
          overwrite (eventWrites task event u) (taskView b u) := fun u =>
      (unreleased_frame (fun b => taskView b u) (fun _ _ => rfl) (fun _ _ => rfl)
        (fun _ _ => rfl) ..).trans (happlied u)
    have hreleased : (RunManager.ignores task event = true ∨
        releasesPersona (RunManager.runStatusOf event.eventType) = true) →
        OccupancyLaw (releasePersona (unreleased (RunManager.applyEvent b task run event) live
          claimed handle (RunManager.appliedTask task event)
          (RunManager.appliedRun task run event)) (RunManager.appliedTask task event)) := by
      intro hends
      refine occupancyLaw_releasePersona hlaw hpersona hview ?_ ?_ ?_
      · intro u hne
        rw [appliedTask_taskId] at hne
        exact eventWrites_other hne
      · have hnamed : (RunManager.appliedTask task event).personaId = task.personaId := by
          unfold RunManager.appliedTask
          split_ifs <;> rfl
        rw [appliedTask_taskId, hnamed]
        simp [taskView, ht]
      · intro view hafter
        have hstored : taskView (RunManager.applyEvent b task run event) task.taskId =
            some ((RunManager.appliedTask task event).status,
              (RunManager.appliedTask task event).personaId) := by
          simp [taskView, RunManager.getTask_applyEvent ht]
        rw [appliedTask_taskId, hview, ← happlied, hstored, mem_def, some.injEq] at hafter
        rw [← hafter]
        exact isActive_appliedTask hends
    by_cases hi : RunManager.ignores task event = true
    · refine iff_of_true ?_ (.inr (hsilent hi))
      split_ifs
      · exact hreleased (.inl hi)
      · exact (hkept _ hpersona hview).mpr (hsilent hi)
    · have hstatus : (RunManager.appliedRun task run event).status =
          RunManager.runStatusOf event.eventType := by
        simp [RunManager.appliedRun, hi]
      rw [hstatus]
      by_cases hrel : releasesPersona (RunManager.runStatusOf event.eventType) = true
      · rw [if_pos hrel]
        exact iff_of_true (hreleased (.inr hrel)) (.inl hrel)
      · rw [if_neg hrel, or_iff_right hrel]
        exact hkept _ hpersona hview

/-- An exception ends the task and releases its persona. -/
theorem occupancyLaw_failExecutionException
    (hlaw : OccupancyLaw b) (ht : b.getTask task.taskId = some task) (claimed : SessionBinding)
    (run : Option ExecutionRun) (text errorType : String) :
    OccupancyLaw (failExecutionException b task claimed run text errorType) := by
  have hview := taskView_failExecutionException ht claimed run text errorType
  obtain ⟨failed, hfailed, hpersona⟩ : ∃ failed,
      failExecutionException b task claimed run text errorType = releasePersona failed task ∧
        ∀ p, personaStatus failed p = personaStatus b p := by
    refine ⟨_, rfl, fun p => ?_⟩
    cases run with
    | none => rfl
    | some run =>
      simp only [failRun]
      split <;>
        exact personaStatus_applyEvent b task run (exceptionEvent run text errorType) p
  rw [hfailed] at hview ⊢
  have hbefore : ∀ u, taskView failed u =
      overwrite (if task.taskId = u then exceptionStatus task run else none)
        (taskView b u) := by
    intro u
    rw [← hview u]
    exact (releasePersona_frame (fun b => taskView b u) (fun _ _ => rfl) failed task).symm
  refine occupancyLaw_releasePersona hlaw hpersona hbefore ?_ ?_ ?_
  · intro u hne
    exact if_neg hne.symm
  · simp [taskView, ht]
  · intro view hafter
    have hold : taskView b task.taskId = some (task.status, task.personaId) := by
      simp [taskView, ht]
    have hstored := hbefore task.taskId
    rw [mem_def.mp hafter, hold, if_pos rfl] at hstored
    simp only [overwrite, map_some, some.injEq] at hstored
    rw [hstored]
    unfold exceptionStatus
    split_ifs with hc
    · simp only [Bool.and_eq_true, decide_eq_true_eq] at hc
      simp [hc.2, isActive]
    · rfl

/-! ## Every step of the session -/

/-- What a step must look at to keep the law: a sync adds no persona that an active task
names, an event ends its run or its status keeps the occupancy, and so does the status
that any other step writes. -/
def OccupancyAware (cfg : Config) (s : SessionState) (label : Label) : Prop :=
  match label with
  | .syncPersonas persisted =>
    ∀ persona ∈ persisted.entries, s.board.getPersona persona.personaId = none →
      ¬ Occupied s.board persona.personaId
  | .raiseException _ _ _ => True
  | .requeueWaiting _ => True
  | .runEvent taskId event resume =>
    releasesPersona (RunManager.runStatusOf event.eventType) = true ∨
      ∀ status ∈ statusWritten cfg s (.runEvent taskId event resume) taskId,
        KeepsOccupancy s.board taskId status
  | label =>
    ∀ taskId, ∀ status ∈ statusWritten cfg s label taskId, KeepsOccupancy s.board taskId status

variable {label : Label}

/-- Apart from the requeue scan, a step writes the status of one task at most. -/
theorem statusWritten_one (cfg : Config) (s : SessionState)
    (h : ∀ connected, label ≠ .requeueWaiting connected) :
    ∃ taskId, ∀ u, u ≠ taskId → statusWritten cfg s label u = none := by
  cases label
  case markCommand commandId =>
    cases hc : s.commands.get? commandId with
    | none => exact ⟨"", fun u _ => by simp [statusWritten, hc]⟩
    | some c => exact ⟨c.command.taskId, fun u hne => by simp [statusWritten, hc, hne.symm]⟩
  case agentEvent taskId type => exact ⟨taskId, fun u hne => by simp [statusWritten, hne.symm]⟩
  case finishAnswer requestId nativeResolved =>
    cases ha : s.answers.get? requestId with
    | none => exact ⟨"", fun u _ => by simp [statusWritten, ha]⟩
    | some a =>
      refine ⟨a.request.taskId.getD "", fun u hne => ?_⟩
      simp only [statusWritten, ha, bind_some]
      refine if_neg fun hq => hne ?_
      simp [hq.2]
  case requeueWaiting connected => exact absurd rfl (h connected)
  case lookupExecutor taskId => exact ⟨taskId, fun u hne => by simp [statusWritten, hne.symm]⟩
  case raiseException taskId text errorType =>
    exact ⟨taskId, fun u hne => by simp [statusWritten, hne.symm]⟩
  case runEvent taskId event resume =>
    exact ⟨taskId, fun u hne => by simp [statusWritten, hne.symm]⟩
  all_goals exact ⟨"", fun u _ => rfl⟩

variable {cfg : Config} {s s' : SessionState}

/-- A step that writes no persona keeps the law exactly if its write keeps the occupancy. -/
theorem occupancyLaw_iff_of_personas (hlaw : OccupancyLaw s.board) (h : step cfg s label = some s')
    (hpersona : ∀ p, personaStatus s'.board p = personaStatus s.board p)
    (hcreates : ∀ u, label.creates u = false := by exact fun _ => rfl)
    (hrequeue : ∀ connected, label ≠ .requeueWaiting connected := by simp) :
    OccupancyLaw s'.board ↔ ∀ taskId, ∀ status ∈ statusWritten cfg s label taskId,
      KeepsOccupancy s.board taskId status := by
  obtain ⟨taskId, hother⟩ := statusWritten_one cfg s hrequeue
  have hview : ∀ u, taskView s'.board u =
      overwrite (statusWritten cfg s label u) (taskView s.board u) :=
    fun u => step_taskView_of_not_creates h (hcreates u)
  rw [occupancyLaw_overwrite_iff hlaw hpersona hview fun u hne view _ => by
    rw [hother u hne]; rfl]
  constructor
  · intro hkeeps t status hwritten
    by_cases ht : t = taskId
    · subst ht
      exact hkeeps status hwritten
    · rw [hother t ht] at hwritten
      cases hwritten
  · exact fun hkeeps => hkeeps taskId

theorem personaStatus_congr (h : b'.personas = b.personas)
    (personaId : String) : personaStatus b' personaId = personaStatus b personaId := by
  simp [personaStatus, Blackboard.getPersona, h]

/-- The stretches of a coroutine before its first event write no persona. -/
theorem occupancyLaw_executeStep_iff {c : Coroutine} (hlaw : OccupancyLaw s.board)
    (h : step cfg s label = some s') (hl : label.coroutineTask = some taskId)
    (ht : s.board.getTask taskId = some task) (hstep : executeStep cfg s c task label = some s') :
    OccupancyLaw s'.board ↔ OccupancyAware cfg s label := by
  have htask : task.taskId = taskId := getTask_taskId ht
  have htask' : s.board.getTask task.taskId = some task := htask ▸ ht
  cases label <;> simp only [Label.coroutineTask, some.injEq, reduceCtorEq] at hl
  case lookupExecutor =>
    refine occupancyLaw_iff_of_personas hlaw h fun p => ?_
    obtain ⟨-, ⟨-, rfl⟩ | ⟨-, rfl⟩⟩ := lookupExecutor_cases hstep
    · rw [board_setStage]
    · rw [board_dropCoroutine]
      rfl
  case ensureSession =>
    refine occupancyLaw_iff_of_personas hlaw h fun p => ?_
    obtain ⟨_, -, -, -, rfl⟩ := ensureSession_cases hstep
    simp only [ensuredSession, board_setStage]
    exact personaStatus_congr (ensureSession_frame ..).2.2.2.1 p
  case createRun =>
    refine occupancyLaw_iff_of_personas hlaw h fun p => ?_
    obtain ⟨_, _, _, _, -, -, -, -, rfl⟩ := createRun_cases hstep
    rw [board_setStage]
    rfl
  case beginRunTask =>
    refine occupancyLaw_iff_of_personas hlaw h fun p => ?_
    obtain ⟨_, -, rfl⟩ := beginRunTask_cases hstep
    rw [board_setStage]
  case sendDispatch =>
    refine occupancyLaw_iff_of_personas hlaw h fun p => ?_
    obtain ⟨_, -, rfl⟩ := sendDispatch_cases hstep
    rw [board_setStage]
  case skipDispatch =>
    refine occupancyLaw_iff_of_personas hlaw h fun p => ?_
    obtain ⟨_, -, rfl⟩ := skipDispatch_cases hstep
    rw [board_setStage]
  case runEvent t event resume =>
    obtain ⟨handle, run, -, hrun, rfl⟩ := runEvent_cases hstep
    have hid : run.runId = handle.runId := Table.key_of_get? hrun
    have hiff := occupancyLaw_drainEvent_iff hlaw htask' (hid ▸ hrun)
      (drainedEvent s c handle task run event resume).live c.claimed handle event
    have hwritten : statusWritten cfg s (.runEvent t event resume) t =
        eventWrites task event task.taskId := by
      subst hl
      simp [statusWritten, eventWrites, ht]
    have hboard : (if isTerminalEvent event.eventType then
        (drainedEvent s c handle task run event resume).dropCoroutine c.taskId
        else drainedEvent s c handle task run event resume).board =
          drainEvent s.board (drainedEvent s c handle task run event resume).live c.claimed handle
            task run event := by
      split_ifs
      · exact board_dropCoroutine ..
      · rfl
    subst hl
    rw [hboard, hiff, ← hwritten, htask]
    exact Iff.rfl
  case raiseException =>
    obtain ⟨-, rfl⟩ := raiseException_cases hstep
    rw [board_dropCoroutine]
    exact iff_of_true (occupancyLaw_failExecutionException hlaw htask' _ _ _ _) trivial

/-- A requeue scan keeps active tasks active and leaves ended ones alone. -/
theorem isActive_requeueWaiting (cfg : Config) (s : SessionState)
    (connected : String → Option String → Bool) (u : String) : ∀ view ∈ taskView s.board u,
      isActive ((statusWritten cfg s (.requeueWaiting connected) u).getD view.1) =
        isActive view.1 := by
  intro view hview
  obtain ⟨task, hget, rfl⟩ := map_eq_some_iff.mp hview
  simp only [statusWritten, hget, any_some]
  by_cases hr : requeueable connected task
  · have hwaiting : task.status = .waitingExecutor := by
      simp only [requeueable, Bool.and_eq_true, decide_eq_true_eq] at hr
      exact hr.1
    simp [hr, hwaiting, isActive]
  · simp [hr]

/-- A step keeps the law exactly if it is aware of the occupancy. -/
theorem step_occupancyLaw_iff (hlaw : OccupancyLaw s.board) (h : step cfg s label = some s') :
    OccupancyLaw s'.board ↔ OccupancyAware cfg s label := by
  cases step_cases h with
  | startCreation | ignoreCommand | beginCommand | raiseRequest | beginAnswer =>
    exact occupancyLaw_iff_of_personas hlaw h fun _ => rfl
  | finishCreation hc ht hp =>
    refine iff_of_true (occupancyLaw_finishCreation hlaw ht hp) ?_
    intro taskId status hwritten
    cases hwritten
  | amendTask ht hid hstatus hpersona hlabel =>
    rcases hlabel with ⟨patch, rfl⟩ | ⟨key, value, rfl⟩ <;>
      exact occupancyLaw_iff_of_personas hlaw h fun _ => rfl
  | syncPersonas => exact occupancyLaw_syncPersonas_iff hlaw
  | markCommand hc hm =>
    refine occupancyLaw_iff_of_personas hlaw h fun p => ?_
    exact markCommand_frame (fun b => personaStatus b p) (fun _ _ => rfl) (fun _ _ => rfl) ..
  | finishCommand hc hm =>
    refine occupancyLaw_iff_of_personas hlaw h fun p => ?_
    exact finishCommand_frame (fun b => personaStatus b p) (fun _ _ => rfl) (fun _ _ => rfl)
      (fun _ _ => rfl) (fun _ _ => rfl) (fun _ _ => rfl) ..
  | agentEvent =>
    refine occupancyLaw_iff_of_personas hlaw h fun p => ?_
    exact ingestAgentEvent_frame (fun b => personaStatus b p) (fun _ _ => rfl) ..
  | finishAnswer ha =>
    refine occupancyLaw_iff_of_personas hlaw h fun p => ?_
    exact finishAnswer_frame (fun b => personaStatus b p) (fun _ _ => rfl) (fun _ _ => rfl)
      (fun _ _ => rfl) (fun _ _ => rfl) ..
  | @requeueWaiting connected =>
    have hactive := isActive_requeueWaiting cfg s connected
    have hiff : OccupancyLaw (requeueWaitingExecutorTasks s.board connected) ↔
        ∀ status ∈ statusWritten cfg s (.requeueWaiting connected) "",
          KeepsOccupancy s.board "" status :=
      occupancyLaw_overwrite_iff hlaw
        (fun p => requeueWaitingExecutorTasks_frame (fun b => personaStatus b p)
          (fun _ _ => rfl) (fun _ _ => rfl) ..)
        (fun u => step_taskView_of_not_creates h rfl) fun u _ => hactive u
    refine iff_of_true (hiff.mpr fun status hwritten old p hold _ => .inl ?_) trivial
    have hsame := hactive "" _ hold
    rwa [mem_def.mp hwritten] at hsame
  | loop hl hmove =>
    have hpersona : ∀ p, personaStatus s'.board p = personaStatus s.board p := by
      intro p
      cases hmove with
      | claim _ _ hc => exact claimTask_frame (fun b => personaStatus b p) (fun _ _ => rfl) hc
      | _ => rfl
    cases label <;> first
      | exact occupancyLaw_iff_of_personas hlaw h hpersona
      | cases hl
  | coroutine hl hc ht hstep => exact occupancyLaw_executeStep_iff hlaw h hl ht hstep

/-- Along every run, personas are busy exactly while an active task names them, exactly if
every step of the run is aware of the occupancy. -/
theorem occupancyLaw_always_iff (cfg : Config) (labels : List Label) :
    (system cfg).Always (fun s => OccupancyLaw s.board) initialState labels ↔
      (system cfg).Along (OccupancyAware cfg) initialState labels := by
  refine System.always_iff_along (Q := fun _ _ => True)
    (fun s label s' hs _ h => step_occupancyLaw_iff hs h) ?_ (System.along_true ..)
  intro p status hst
  cases hst

/-- A persona whose only task is cancelled before it ever ran. -/
def cancelledDraftLabels : List Label :=
  [.syncPersonas (Table.empty.put
      { personaId := "persona-1", name := "Ada", broDetailSessionId := "detail-1" }),
    .startCreation "creation-1" .sendDraft (some "persona-1"),
    .finishCreation "creation-1"
      { taskId := "task-1", rootTaskId := "task-1", title := "Build", goal := "Build it"
        preferredExecutor := some "codex" }] ++
  commandLabels "cmd-1" "task-1" .cancelTask

/-- The persona stays busy without a task. -/
theorem occupancyLaw_not_invariant :
    ¬ ∀ (cfg : Config) (s : SessionState), (system cfg).Reachable s → OccupancyLaw s.board := by
  intro h
  have hlaw := h codexConfig (reached codexConfig cancelledDraftLabels) (reachable_reached _ _)
  have hbusy : personaStatus (reached codexConfig cancelledDraftLabels).board "persona-1" =
      some .busy := by decide
  obtain ⟨taskId, status, hview, hactive⟩ := (hlaw "persona-1" .busy hbusy).mp rfl
  obtain ⟨task, hget, hpair⟩ := map_eq_some_iff.mp hview
  have hidle : ∀ task ∈ (reached codexConfig cancelledDraftLabels).board.tasks.entries,
      isActive task.status = false := by decide
  have hended := hidle task (Table.mem_of_get? hget)
  simp only [Prod.mk.injEq] at hpair
  rw [hpair.1, hactive] at hended
  cases hended

end Newbro.SessionRuntime
