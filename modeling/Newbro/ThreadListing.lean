import Newbro.BroTimeline
import Newbro.NodeRequests

/-!
# One thread, one entry

`_build_bro_thread_projection`, whose entries come from Codex sessions, from imported threads and
from tasks, and whether a Bro has each of its threads once. An entry has what identifies its
thread; its title, its times and its place in the list are left out.
-/
namespace Newbro.NodeRequests

open Library Protocol BroThreads Snapshots List

def sessionThreads (b : Blackboard) : List ProjectedThread :=
  b.sessions.entries.filterMap (sessionThread b)

/-- A session's thread stands for an imported one with its id, or with its native thread. -/
def standsFor (thread other : ProjectedThread) : Bool :=
  thread.threadId = other.threadId ||
    (thread.codexThreadId.isSome && thread.personaId = other.personaId &&
      thread.codexThreadId = other.codexThreadId)

def importedThreads (b : Blackboard) (imported : ImportedThreads) : List ProjectedThread :=
  (imported.threads.entries.map importedThread).filter fun thread =>
    !(sessionThreads b).any fun other => standsFor other thread

/-- The persona and the thread of a task whose thread has no entry yet. -/
def taskThreadKey (b : Blackboard) (existingThreadIds : List String) (task : Task) :
    Option (String × String) :=
  ((taskThreadPublicId task).filter fun threadId => threadId ∉ existingThreadIds).bind
    fun threadId =>
      ((taskPersonaId task).filter fun personaId => b.personas.contains personaId).map
        fun personaId => (personaId, threadId)

def taskThreadGroups (b : Blackboard) (existingThreadIds : List String) :
    Dict (String × String) (List Task) :=
  b.tasks.entries.foldl (fun groups task =>
    match taskThreadKey b existingThreadIds task with
    | none => groups
    | some key => Dict.set groups key ((Dict.lookup groups key).getD [] ++ [task])) Table.empty

/-- The thread of a group, with the data of the task that was updated last. -/
def groupThread (b : Blackboard) (group : (String × String) × List Task) :
    Option ProjectedThread :=
  let sortKey := fun task : Task => Text.orElse (BroTimeline.taskUpdatedAt task) task.taskId
  let sortedTasks := group.2.mergeSort fun first second => sortKey first ≤ sortKey second
  sortedTasks.getLast?.map fun latest =>
    { threadId := group.1.2
      personaId := group.1.1
      executorNodeId := (latest.metadata.nonemptyStr? "executor_node_id").or
        ((b.getPersona group.1.1).bind Persona.executorNodeId)
      codexThreadId := latest.metadata.nonemptyStr? "codex_import_thread_id" }

def groupThreads (b : Blackboard) (existingThreadIds : List String) : List ProjectedThread :=
  (taskThreadGroups b existingThreadIds).entries.filterMap (groupThread b)

/-- `_build_bro_thread_projection`, up to the order of its entries. -/
def buildBroThreadProjection (b : Blackboard) (imported : ImportedThreads) :
    List ProjectedThread :=
  let threads := sessionThreads b ++ importedThreads b imported
  threads ++ groupThreads b (threads.map (·.threadId))

/-- The session is a thread of the Bro. -/
def isThreadOf (b : Blackboard) (personaId : String) (session : ExecutionSession) : Bool :=
  session.baseExecutorId = "codex" && sessionPersonaId b session = some personaId &&
    b.personas.contains personaId

/-- The Bro has at most one entry for each thread id, and all its sessions and imported threads
have an entry. -/
structure OneEntryEach (b : Blackboard) (imported : ImportedThreads) (personaId : String) :
    Prop where
  unique : (((buildBroThreadProjection b imported).filter (·.personaId = personaId)).map
    (·.threadId)).Nodup
  sessions : ∀ session ∈ b.sessions.entries, isThreadOf b personaId session = true →
    ∃ thread ∈ buildBroThreadProjection b imported,
      thread.threadId = publicThreadId session ∧ thread.personaId = personaId
  imports : ∀ thread ∈ imported.threads.entries, thread.personaId = personaId →
    ∃ entry ∈ buildBroThreadProjection b imported, entry.threadId = thread.threadId ∨
      entry.personaId = personaId ∧ entry.codexThreadId.isSome = true ∧
        entry.codexThreadId = thread.codexThreadId

/-- No two sessions of the Bro have a public thread id in common, as those that share a
continuity key do. -/
def ThreadsApart (b : Blackboard) (personaId : String) : Prop :=
  ∀ session ∈ b.sessions.entries, isThreadOf b personaId session = true →
    ∀ other ∈ b.sessions.entries, isThreadOf b personaId other = true →
      publicThreadId session = publicThreadId other → session = other

/-! ## The entries of each source -/

variable {session : ExecutionSession} {thread : ProjectedThread}

section sources

variable {b : Blackboard} {personaId : String}

theorem sessionThread_of_isThreadOf
    (h : isThreadOf b personaId session = true) : ∃ thread, sessionThread b session = some thread ∧
      thread.threadId = publicThreadId session ∧ thread.personaId = personaId := by
  simp only [isThreadOf, Bool.and_eq_true, decide_eq_true_eq] at h
  obtain ⟨⟨hcodex, hpersona⟩, hknown⟩ := h
  rw [sessionThread, if_neg (not_not.mpr hcodex), hpersona, Option.filter_some, if_pos hknown]
  exact ⟨_, rfl, rfl, rfl⟩

theorem isThreadOf_of_sessionThread
    (h : sessionThread b session = some thread) : thread.threadId = publicThreadId session ∧
      isThreadOf b thread.personaId session = true := by
  rw [sessionThread] at h
  split_ifs at h with hcodex
  obtain ⟨owner, howner, rfl⟩ := Option.map_eq_some_iff.mp h
  obtain ⟨hpersona, hknown⟩ := Option.filter_eq_some_iff.mp howner
  exact ⟨rfl, by simp [isThreadOf, not_not.mp hcodex, hpersona, hknown]⟩

variable (b personaId) in
/-- The ids of the Bro's session entries are the public ids of its sessions. -/
theorem ids_sessionThreads (sessions : List ExecutionSession) :
    ((sessions.filterMap (sessionThread b)).filter (·.personaId = personaId)).map (·.threadId) =
      (sessions.filter (isThreadOf b personaId)).map publicThreadId := by
  induction sessions with
  | nil => rfl
  | cons session sessions ih =>
    cases hthread : sessionThread b session with
    | none =>
      have hnot : ¬ isThreadOf b personaId session = true := fun h => by
        obtain ⟨thread, hsome, -⟩ := sessionThread_of_isThreadOf h
        cases hthread.symm.trans hsome
      rw [filterMap_cons_none hthread, filter_cons_of_neg hnot, ih]
    | some thread =>
      obtain ⟨hid, hof⟩ := isThreadOf_of_sessionThread hthread
      rw [filterMap_cons_some hthread]
      by_cases hpersona : thread.personaId = personaId
      · subst hpersona
        rw [filter_cons_of_pos (by simp), filter_cons_of_pos hof, map_cons, map_cons, ih, hid]
      · have hnot : ¬ isThreadOf b personaId session = true := fun h => by
          obtain ⟨thread', hsome, -, howner⟩ := sessionThread_of_isThreadOf h
          cases hthread.symm.trans hsome
          exact hpersona howner
        rw [filter_cons_of_neg (by simpa using hpersona), filter_cons_of_neg hnot, ih]

theorem nodup_sessionThreads :
    (((sessionThreads b).filter (·.personaId = personaId)).map (·.threadId)).Nodup ↔
      ThreadsApart b personaId := by
  have hentries : (b.sessions.entries.filter (isThreadOf b personaId)).Nodup :=
    b.sessions.keys_nodup.of_map.filter _
  rw [sessionThreads, ids_sessionThreads, nodup_map_iff_inj_on hentries]
  simp only [ThreadsApart, mem_filter, and_imp]

theorem nodup_importedThreads (imported : ImportedThreads) :
    (((importedThreads b imported).filter (·.personaId = personaId)).map (·.threadId)).Nodup := by
  have hids : ((imported.threads.entries.map importedThread).map (·.threadId)).Nodup := by
    rw [map_map]
    exact imported.threads.keys_nodup
  exact hids.sublist ((filter_sublist.trans filter_sublist).map _)

theorem key_of_groupThread {group : (String × String) × List Task}
    (h : groupThread b group = some thread) : (thread.personaId, thread.threadId) = group.1 := by
  obtain ⟨latest, -, rfl⟩ := Option.map_eq_some_iff.mp h
  rfl

theorem nodup_groupThreads (ids : List String) :
    (((groupThreads b ids).filter (·.personaId = personaId)).map (·.threadId)).Nodup := by
  rw [Nodup, pairwise_map, pairwise_filter]
  refine (pairwise_map.mp (taskThreadGroups b ids).keys_nodup).filterMap _ ?_
  intro group group' hne thread hthread thread' hthread' howner howner' hid
  rw [← key_of_groupThread hthread, ← key_of_groupThread hthread', hid] at hne
  rw [of_decide_eq_true howner, of_decide_eq_true howner'] at hne
  exact hne rfl

theorem fresh_taskThreadGroups (ids : List String) :
    ∀ group ∈ (taskThreadGroups b ids).entries, group.1.2 ∉ ids := by
  rw [taskThreadGroups]
  refine foldlRecOn (motive := fun groups : Dict (String × String) (List Task) =>
    ∀ group ∈ groups.entries, group.1.2 ∉ ids) _ _ (fun _ hgroup => absurd hgroup not_mem_nil)
    fun groups hgroups task _ => ?_
  cases hkey : taskThreadKey b ids task with
  | none => exact hgroups
  | some key =>
    refine Table.forall_put hgroups ?_
    obtain ⟨threadId, hid, hkey⟩ := Option.bind_eq_some_iff.mp hkey
    obtain ⟨owner, -, rfl⟩ := Option.map_eq_some_iff.mp hkey
    exact of_decide_eq_true (Option.filter_eq_some_iff.mp hid).2

/-- The groups have no thread that has an entry. -/
theorem notMem_of_groupThreads {ids : List String}
    (h : thread ∈ groupThreads b ids) : thread.threadId ∉ ids := by
  obtain ⟨group, hgroup, hthread⟩ := mem_filterMap.mp h
  rw [show thread.threadId = group.1.2 from congrArg Prod.snd (key_of_groupThread hthread)]
  exact fresh_taskThreadGroups ids group hgroup

/-- An imported thread has an entry of its own, or a session's thread stands for it. -/
theorem importedThreads_cases {imported : ImportedThreads}
    (h : thread ∈ imported.threads.entries.map importedThread) :
    thread ∈ importedThreads b imported ∨
      ∃ other ∈ sessionThreads b, standsFor other thread = true := by
  rw [importedThreads, mem_filter]
  cases hany : (sessionThreads b).any fun other => standsFor other thread with
  | false => exact .inl ⟨h, rfl⟩
  | true => exact .inr (any_eq_true.mp hany)

end sources

/-! ## The whole list -/

section list

variable (b : Blackboard) (imported : ImportedThreads) (personaId : String)

theorem unique_iff : (((buildBroThreadProjection b imported).filter (·.personaId = personaId)).map
      (·.threadId)).Nodup ↔ ThreadsApart b personaId := by
  simp only [buildBroThreadProjection, filter_append, map_append, nodup_append]
  constructor
  · intro h
    exact nodup_sessionThreads.mp h.1.1
  · intro h
    refine ⟨⟨nodup_sessionThreads.mpr h, nodup_importedThreads imported, ?_⟩,
      nodup_groupThreads _, ?_⟩
    · rintro _ hsession _ himport rfl
      obtain ⟨other, hother, hid⟩ := mem_map.mp hsession
      obtain ⟨thread, hthread, hsame⟩ := mem_map.mp himport
      have hfree := (mem_filter.mp (mem_filter.mp hthread).1).2
      have hstands : standsFor other thread = true := by simp [standsFor, hid, hsame]
      rw [any_eq_true.mpr ⟨other, (mem_filter.mp hother).1, hstands⟩] at hfree
      cases hfree
    · rintro id hknown _ hgroup rfl
      obtain ⟨thread, hthread, rfl⟩ := mem_map.mp hgroup
      rw [← map_append, ← filter_append] at hknown
      refine notMem_of_groupThreads (mem_filter.mp hthread).1 ?_
      rw [← map_append]
      exact (filter_sublist.map _).mem hknown

/-- A Bro's threads have one entry each exactly if no two of its sessions have a public thread id
in common. -/
theorem oneEntryEach_iff : OneEntryEach b imported personaId ↔ ThreadsApart b personaId := by
  refine ⟨fun h => (unique_iff b imported personaId).mp h.unique, fun h =>
    ⟨(unique_iff b imported personaId).mpr h, fun session hsession hof => ?_,
      fun thread hthread howner => ?_⟩⟩
  · obtain ⟨entry, hentry, hid⟩ := sessionThread_of_isThreadOf hof
    have hmem : entry ∈ sessionThreads b := mem_filterMap.mpr ⟨session, hsession, hentry⟩
    exact ⟨entry, mem_append_left _ (mem_append_left _ hmem), hid⟩
  · rcases importedThreads_cases (b := b) (mem_map_of_mem hthread) with hown | ⟨other, hother, hstands⟩
    · exact ⟨_, mem_append_left _ (mem_append_right _ hown), .inl rfl⟩
    · refine ⟨other, mem_append_left _ (mem_append_left _ hother), ?_⟩
      simp only [standsFor, importedThread, Bool.or_eq_true, Bool.and_eq_true,
        decide_eq_true_eq, howner] at hstands
      exact hstands.imp_right fun h => ⟨h.1.2, h.1.1, h.2⟩

end list

/-! ## Sessions that share a continuity key -/

/-- Two sessions of a Bro for one thread, on two nodes. -/
def sharedKeyBoard : Blackboard :=
  let task : Task :=
    { taskId := "task-1"
      rootTaskId := "task-1"
      title := "Fix"
      goal := "Fix"
      metadata := Dict.set Table.empty "persona_id" (.str "forge") }
  let session : ExecutionSession :=
    { executionSessionId := "exec-1"
      taskId := "task-1"
      baseExecutorId := "codex"
      executorNodeId := some "node-1"
      continuityKey := some "bro-thread-1" }
  let board := Blackboard.empty.putPersona { personaId := "forge", name := "Forge" }
  ((board.putTask task).putSession session).putSession
    { session with executionSessionId := "exec-2", executorNodeId := some "node-2" }

/-- The thread is listed twice. -/
theorem shared_key_listed_twice : ¬ ∀ b imported personaId, OneEntryEach b imported personaId := by
  intro hall
  have hunique := (hall sharedKeyBoard ⟨Table.empty, Table.empty⟩ "forge").unique
  exact absurd hunique (by decide)

end Newbro.NodeRequests
