import Newbro.RecordedNodes

/-!
# Importing the threads of the nodes

`sync_imported_codex_threads`, `list_bro_thread_page` and
`attach_outbound_new_thread_resume_handle`: the tables of imported threads, their resume
handles and the pages of each Bro. A sync asks the nodes one after the other for the first
page of their threads, under a lock, and then replaces the tables; a page of a Bro is added to
them, and so is the thread that an outbound turn has created. Awaiting the answer of a node is
where other coroutines run, so a label is the stretch up to the next request. The store
answers without suspending. `digest` gives the first digits of a SHA-256 hash.
-/
namespace Newbro.ThreadSync

open Library Protocol Option List
open BroThreads (BroThread importedCodexThreadPrefix)
open Snapshots (ImportedThreads)
open OutboundTurns (OutboundTurnRequest CodexTurnEvent)
open NodeRequests (CodexThreadItem personaNode sessionCodexThreadId importListed
  attachNewThread)

/-! ## Pages -/

structure CodexThreadListItem where
  threadId : String
  cwd : Option String
  /-- `diagnostics.get("ephemeral") is True` -/
  ephemeral : Bool
  deriving Repr, DecidableEq

structure CodexThreadListPage where
  threads : List CodexThreadListItem
  nextCursor : Option String
  previousCursor : Option String
  deriving Repr, DecidableEq

inductive PageStatus where
  | notLoaded | loading | loaded | failed
  deriving Repr, DecidableEq

structure CursorPageInfo where
  nextCursor : Option String := none
  previousCursor : Option String := none
  hasMore : Bool := false
  status : PageStatus := .notLoaded
  error : Option String := none
  deriving Repr, DecidableEq

def CodexThreadListPage.info (page : CodexThreadListPage) : CursorPageInfo :=
  { nextCursor := page.nextCursor
    previousCursor := page.previousCursor
    hasMore := page.nextCursor.any (· ≠ "")
    status := .loaded
    error := none }

/-! ## State -/

/-- A connected node with a Codex executor, and the threads that it has. -/
structure ThreadNode where
  nodeId : String
  supportsThreadList : Bool
  threads : List String
  deriving Repr, DecidableEq

/-- A thread that has been loaded: its public id, its Bro, and the node that has it. -/
structure KnownThread where
  publicThreadId : String
  personaId : String
  nodeId : String
  codexThreadId : String
  deriving Repr, DecidableEq

/-- A node with the Bros bound to it. -/
abbrev NodeGroup := String × List Persona

/-- A sync that holds the lock. The first of the nodes that have not answered is the one that
is being asked; `listed` is what the others have listed. -/
structure Syncing where
  existing : List String
  unanswered : List NodeGroup
  failed : List NodeGroup := []
  imported : ImportedThreads := ⟨Table.empty, Table.empty⟩
  pagesByPersona : Dict String (List String) := Table.empty
  listed : List KnownThread := []

/-- A sync that waits for the lock. -/
structure SyncCall where
  eligible : List Persona
  existing : List String

/-- A `list_bro_thread_page` that waits for its node. -/
structure PageCall where
  requestId : String
  persona : Persona
  nodeId : String
  existing : List String

structure ImportState where
  personas : Table Persona.personaId
  nodes : Table ThreadNode.nodeId
  imported : ImportedThreads
  pageInfo : Dict String CursorPageInfo
  pagesByPersona : Dict String (List String)
  /-- `codex_thread_public_id_aliases` -/
  aliases : Dict String String
  lastSync : Rat
  syncing : Option Syncing
  queued : List SyncCall
  pageCalls : Table PageCall.requestId
  /-- What has been loaded and is still to be had. -/
  known : List KnownThread

inductive ImportLabel where
  | sync (sessions : List ExecutionSession) (now : Rat)
  | lockFree (now : Rat)
  | listed (page : CodexThreadListPage) (now : Rat)
  | listingFails (error : String) (now : Rat)
  | requestPage (requestId personaId : String) (sessions : List ExecutionSession)
  | pageArrives (requestId : String) (page : CodexThreadListPage)
  | pageFails (requestId : String)
  | attach (request : OutboundTurnRequest) (createNewThread : Bool) (message : CodexTurnEvent)
  | setPersona (persona : Persona)
  | deletePersona (personaId : String)
  | setNode (node : ThreadNode)
  | nodeLeaves (nodeId : String)

/-! ## Projecting a page -/

def importedBroThreadId (digest : String → String) (personaId codexThreadId : String) : String :=
  importedCodexThreadPrefix ++ digest (personaId ++ ":" ++ codexThreadId)

def codexThreadAliasKey (personaId codexThreadId : String) : String :=
  personaId ++ ":" ++ codexThreadId

variable (sessions : List ExecutionSession)

/-- The native threads that the sessions resume. -/
def existingCodexThreadIds : List String :=
  sessions.filterMap sessionCodexThreadId

/-- The items of a page that are imported. -/
def importable (existing : List String) (page : CodexThreadListPage) :
    List CodexThreadListItem :=
  page.threads.filter fun item => !existing.contains item.threadId && !item.ephemeral

/-- The node's item with the public id that the Bro has for it. -/
def publicItem (digest : String → String) (aliases : Dict String String) (persona : Persona)
    (item : CodexThreadListItem) : CodexThreadItem :=
  let named := (aliases.lookup (codexThreadAliasKey persona.personaId item.threadId)).filter
    (· ≠ "")
  ⟨named.getD (importedBroThreadId digest persona.personaId item.threadId), item.threadId,
    item.cwd⟩

/-- A page, projected for each of the Bros. -/
def projectPage (digest : String → String) (aliases : Dict String String)
    (existing : List String) (personas : List Persona) (page : CodexThreadListPage) :
    List (Persona × CodexThreadItem) :=
  (importable existing page).flatMap fun item =>
    personas.map fun persona => (persona, publicItem digest aliases persona item)

def knownThread (nodeId : String) (entry : Persona × CodexThreadItem) : KnownThread :=
  ⟨entry.2.publicThreadId, entry.1.personaId, nodeId, entry.2.codexThreadId⟩

/-- The thread that an outbound turn has created, with its public and its native id. -/
def newThread (request : OutboundTurnRequest) (ids : String × String) : KnownThread :=
  ⟨ids.1, request.personaId, request.executorNodeId, ids.2⟩

variable (pages : Dict String (List String))

/-- `imported_page_ids_by_persona[persona.persona_id].append(thread.thread_id)` -/
def appendPageId (entry : Persona × CodexThreadItem) :
    Dict String (List String) :=
  pages.set entry.1.personaId
    ((pages.lookup entry.1.personaId).getD [] ++ [entry.2.publicThreadId])

/-- The same for a page of one Bro, which may have the thread already. -/
def addPageId (entry : Persona × CodexThreadItem) :
    Dict String (List String) :=
  if ((pages.lookup entry.1.personaId).getD []).contains entry.2.publicThreadId then pages
  else appendPageId pages entry

/-- `personas_by_node.setdefault(persona.executor_node_id, []).append(persona)` -/
def addToNode (groups : Dict String (List Persona)) (persona : Persona) :
    Dict String (List Persona) :=
  match personaNode persona with
  | none => groups
  | some nodeId => groups.set nodeId ((groups.lookup nodeId).getD [] ++ [persona])

/-- `personas_by_node` -/
def groupByNode (personas : List Persona) : Dict String (List Persona) :=
  personas.foldl addToNode Table.empty

/-- A node has listed its threads. -/
def Syncing.take (syncing : Syncing) (group : NodeGroup) (groups : List NodeGroup)
    (entries : List (Persona × CodexThreadItem)) : Syncing :=
  let pages := group.2.foldl (fun pages persona => pages.set persona.personaId [])
    syncing.pagesByPersona
  { syncing with
    unanswered := groups
    imported := importListed syncing.imported entries
    pagesByPersona := entries.foldl appendPageId pages
    listed := syncing.listed ++ entries.map (knownThread group.1) }

namespace ImportState

/-! ## What is to be had -/

/-- The Bro is bound to the node, the node is connected and has the thread. -/
def isOwed (s : ImportState) (known : KnownThread) : Bool :=
  (s.personas.get? known.personaId).bind personaNode = some known.nodeId &&
    (s.nodes.get? known.nodeId).any (·.threads.contains known.codexThreadId)

def remember (s : ImportState) (loaded : List KnownThread) : ImportState :=
  { s with known := (s.known ++ loaded).filter s.isOwed }

/-! ## Syncs -/

def isEligible (s : ImportState) (persona : Persona) : Bool :=
  ((personaNode persona).bind s.nodes.get?).any ThreadNode.supportsThreadList

/-- The tables are five seconds old at most. -/
def isFresh (s : ImportState) (now : Rat) : Bool :=
  !s.imported.threads.entries.isEmpty && decide (now - s.lastSync < 5)

/-- Without an eligible Bro. -/
def clearTables (s : ImportState) : ImportState :=
  { s with
    imported := ⟨Table.empty, Table.empty⟩
    pageInfo := Table.empty
    pagesByPersona := Table.empty }

/-- The first stretch under the lock. -/
def beginSync (s : ImportState) (call : SyncCall) (now : Rat) : ImportState :=
  if s.isFresh now then s
  else
    { s with
      syncing := some
        { existing := call.existing
          unanswered := (groupByNode call.eligible).entries } }

/-- `sync_imported_codex_threads`, up to the lock or the first request. -/
def sync (s : ImportState) (sessions : List ExecutionSession) (now : Rat) : ImportState :=
  let eligible := s.personas.entries.filter s.isEligible
  let call : SyncCall := ⟨eligible, existingCodexThreadIds sessions⟩
  if eligible.isEmpty then s.clearTables
  else if s.isFresh now then s
  else if s.syncing.isSome || !s.queued.isEmpty then { s with queued := s.queued ++ [call] }
  else s.beginSync call now

def lockFree (s : ImportState) (now : Rat) : Option ImportState :=
  match s.syncing, s.queued with
  | none, call :: calls => some ({ s with queued := calls }.beginSync call now)
  | _, _ => none

/-- The tables are replaced. -/
def finishSync (s : ImportState) (syncing : Syncing) (now : Rat) : ImportState :=
  { s with
    imported := syncing.imported
    pagesByPersona := syncing.pagesByPersona
    lastSync := now
    syncing := none }.remember syncing.listed

/-- The next node is asked, if there is one. -/
def proceed (s : ImportState) (syncing : Syncing) (now : Rat) : ImportState :=
  if syncing.unanswered.isEmpty then s.finishSync syncing now
  else { s with syncing := some syncing }

def listed (digest : String → String) (s : ImportState) (page : CodexThreadListPage)
    (now : Rat) : Option ImportState :=
  s.syncing.bind fun syncing =>
    match syncing.unanswered with
    | [] => none
    | group :: groups =>
      let entries := projectPage digest s.aliases syncing.existing group.2 page
      let pageInfo := group.2.foldl
        (fun infos persona => infos.set persona.personaId page.info) s.pageInfo
      some ({ s with pageInfo := pageInfo }.proceed (Syncing.take syncing group groups entries)
        now)

/-- The page information of a Bro keeps its cursors when its node does not answer. -/
def markFailed (error : String) (infos : Dict String CursorPageInfo) (persona : Persona) :
    Dict String CursorPageInfo :=
  let previous := (infos.lookup persona.personaId).getD {}
  infos.set persona.personaId { previous with status := .failed, error := some error }

def listingFails (s : ImportState) (error : String) (now : Rat) : Option ImportState :=
  s.syncing.bind fun syncing =>
    match syncing.unanswered with
    | [] => none
    | group :: groups =>
      let pageInfo := group.2.foldl (markFailed error) s.pageInfo
      some ({ s with pageInfo := pageInfo }.proceed
        { syncing with unanswered := groups, failed := syncing.failed ++ [group] } now)

/-! ## Pages and outbound turns -/

/-- `list_bro_thread_page`, up to its request. -/
def requestPage (s : ImportState) (requestId personaId : String)
    (sessions : List ExecutionSession) : Option ImportState :=
  if s.pageCalls.contains requestId then none
  else
    (s.personas.get? personaId).bind fun persona =>
      (personaNode persona).map fun nodeId =>
        let call : PageCall := ⟨requestId, persona, nodeId, existingCodexThreadIds sessions⟩
        { s with pageCalls := s.pageCalls.put call }

/-- The rest of it. -/
def pageArrives (digest : String → String) (s : ImportState) (requestId : String)
    (page : CodexThreadListPage) : Option ImportState :=
  (s.pageCalls.get? requestId).map fun call =>
    let entries := projectPage digest s.aliases call.existing [call.persona] page
    { s with
      imported := importListed s.imported entries
      pagesByPersona := entries.foldl addPageId s.pagesByPersona
      pageInfo := s.pageInfo.set call.persona.personaId page.info
      pageCalls := s.pageCalls.erase requestId }.remember (entries.map (knownThread call.nodeId))

def pageFails (s : ImportState) (requestId : String) : Option ImportState :=
  (s.pageCalls.get? requestId).map fun _ => { s with pageCalls := s.pageCalls.erase requestId }

/-- The public and the native id of the thread that an outbound turn has created. -/
def newThreadIds (s : ImportState) (request : OutboundTurnRequest) (createNewThread : Bool)
    (message : CodexTurnEvent) : Option (String × String) :=
  if createNewThread && s.personas.contains request.personaId then
    (request.targetThreadId.filter (· ≠ "")).bind fun threadId =>
      (message.executorThreadId.filter (· ≠ "")).map fun executorThreadId =>
        (threadId, executorThreadId)
  else none

/-- `attach_outbound_new_thread_resume_handle` -/
def attach (s : ImportState) (request : OutboundTurnRequest) (createNewThread : Bool)
    (message : CodexTurnEvent) : ImportState :=
  match s.newThreadIds request createNewThread message with
  | none => s
  | some ids =>
    { s with
      aliases := s.aliases.set (codexThreadAliasKey request.personaId ids.2) ids.1
      imported := attachNewThread s.imported request ids.1 ids.2 }.remember
        [newThread request ids]

def step (digest : String → String) (s : ImportState) : ImportLabel → Option ImportState
  | .sync sessions now => some (s.sync sessions now)
  | .lockFree now => s.lockFree now
  | .listed page now => s.listed digest page now
  | .listingFails error now => s.listingFails error now
  | .requestPage requestId personaId sessions => s.requestPage requestId personaId sessions
  | .pageArrives requestId page => s.pageArrives digest requestId page
  | .pageFails requestId => s.pageFails requestId
  | .attach request createNewThread message => some (s.attach request createNewThread message)
  | .setPersona persona => some ({ s with personas := s.personas.put persona }.remember [])
  | .deletePersona personaId => some ({ s with personas := s.personas.erase personaId }.remember [])
  | .setNode node => some ({ s with nodes := s.nodes.put node }.remember [])
  | .nodeLeaves nodeId => some ({ s with nodes := s.nodes.erase nodeId }.remember [])

end ImportState

/-- The thread is found under its public id, for its Bro and with its resume handle. -/
def resolves (imported : ImportedThreads) (known : KnownThread) : Bool :=
  (imported.threads.get? known.publicThreadId).any (·.personaId = known.personaId) &&
    (imported.resumeHandles.lookup known.publicThreadId).any
      (·.sessionHandle = some known.codexThreadId)

/-- Each thread that has been loaded and that its node still has is resolvable. -/
def AllResolvable (s : ImportState) : Prop :=
  ∀ known ∈ s.known, resolves s.imported known = true

def sameThread (known other : KnownThread) : Bool :=
  known.publicThreadId = other.publicThreadId && known.personaId = other.personaId &&
    known.codexThreadId = other.codexThreadId

variable (loaded : List KnownThread)

/-- The last of the loaded threads with a public id. -/
def lastAt (publicThreadId : String) : Option KnownThread :=
  loaded.reverse.find? (·.publicThreadId = publicThreadId)

/-- The thread is among the loaded ones, and none after it has its public id. -/
def isRelisted (known : KnownThread) : Bool :=
  (lastAt loaded known.publicThreadId).any (sameThread known)

/-- No other thread is loaded under the public id of this one. -/
def isSpared (known : KnownThread) : Bool :=
  (lastAt loaded known.publicThreadId).all (sameThread known)

/-- The threads that are to be had once some are loaded. -/
def ImportState.owedWith (s : ImportState) (loaded : List KnownThread) : List KnownThread :=
  (s.known ++ loaded).filter s.isOwed

/-- The sync has listed all that is to be had, unless a node is still to be asked. -/
def ImportState.relists (s : ImportState) (unanswered : List NodeGroup)
    (listed : List KnownThread) : Bool :=
  !unanswered.isEmpty || (s.owedWith listed).all (isRelisted listed)

def ImportState.spares (s : ImportState) (loaded : List KnownThread) : Bool :=
  (s.owedWith loaded).all (isSpared loaded)

/-- A sync replaces the tables only when every thread that is to be had is on one of the first
pages that the nodes have returned to it, and clears them only when none is to be had; and no
thread is loaded under the public id of another. -/
def forgetsNone (digest : String → String) (s : ImportState) : ImportLabel → Bool
  | .sync _ _ => (s.personas.entries.any s.isEligible) || s.known.isEmpty
  | .listed page _ => s.syncing.all fun syncing =>
    match syncing.unanswered with
    | [] => true
    | group :: groups =>
      s.relists groups (syncing.listed ++
        (projectPage digest s.aliases syncing.existing group.2 page).map
          (knownThread group.1))
  | .listingFails _ _ => s.syncing.all fun syncing =>
    syncing.unanswered.isEmpty || s.relists syncing.unanswered.tail syncing.listed
  | .pageArrives requestId page => (s.pageCalls.get? requestId).all fun call =>
    s.spares ((projectPage digest s.aliases call.existing [call.persona] page).map
      (knownThread call.nodeId))
  | .attach request createNewThread message =>
    (s.newThreadIds request createNewThread message).all fun ids => s.spares [newThread request ids]
  | _ => true

variable {loaded : List KnownThread}

section loading

variable {imported : ImportedThreads} {known : KnownThread}

theorem resolves_put (imported : ImportedThreads) (thread : BroThread)
    (handle : AgentResumeHandle) (known : KnownThread) :
    resolves ⟨imported.threads.put thread, imported.resumeHandles.set thread.threadId handle⟩
        known =
      if thread.threadId = known.publicThreadId then
        decide (thread.personaId = known.personaId) &&
          decide (handle.sessionHandle = some known.codexThreadId)
      else resolves imported known := by
  unfold resolves
  rw [Table.get?_put, Dict.lookup_set]
  split <;> rfl

theorem lastAt_append (more : List KnownThread) (publicThreadId : String) :
    lastAt (loaded ++ more) publicThreadId =
      (lastAt more publicThreadId).or (lastAt loaded publicThreadId) := by
  rw [lastAt, reverse_append, List.find?_append]
  rfl

theorem lastAt_singleton (known : KnownThread) (publicThreadId : String) :
    lastAt [known] publicThreadId =
      if known.publicThreadId = publicThreadId then some known else none := by
  simp only [lastAt, reverse_singleton, List.find?_singleton, decide_eq_true_eq]

theorem lastAt_cons (first : KnownThread) (loaded : List KnownThread) (publicThreadId : String) :
    lastAt (first :: loaded) publicThreadId = (lastAt loaded publicThreadId).or
      (if first.publicThreadId = publicThreadId then some first else none) := by
  rw [← lastAt_singleton, ← lastAt_append, singleton_append]

theorem lastAt_eq_none_iff {publicThreadId : String} :
    lastAt loaded publicThreadId = none ↔
      ∀ known ∈ loaded, known.publicThreadId ≠ publicThreadId := by
  simp [lastAt, List.find?_eq_none]

/-- Importing a list leaves under a public id what was loaded there last. -/
theorem resolves_importListed (nodeId : String) (entries : List (Persona × CodexThreadItem))
    (imported : ImportedThreads) (known : KnownThread) :
    resolves (importListed imported entries) known =
      ((lastAt (entries.map (knownThread nodeId)) known.publicThreadId).map
        (sameThread known)).getD (resolves imported known) := by
  induction entries generalizing imported with
  | nil => rfl
  | cons entry entries ih =>
    have hfirst := resolves_put imported
      (NodeRequests.projectImportedCodexThread entry.1 entry.2).1
      (NodeRequests.projectImportedCodexThread entry.1 entry.2).2 known
    have hload : resolves (NodeRequests.addImported imported entry.1 entry.2) known =
        if entry.2.publicThreadId = known.publicThreadId then
          decide (entry.1.personaId = known.personaId) &&
            decide (some entry.2.codexThreadId = some known.codexThreadId)
        else resolves imported known := hfirst
    rw [map_cons, lastAt_cons]
    have hrest := ih (NodeRequests.addImported imported entry.1 entry.2)
    rw [show importListed imported (entry :: entries) =
      importListed (NodeRequests.addImported imported entry.1 entry.2) entries from rfl, hrest]
    cases lastAt (entries.map (knownThread nodeId)) known.publicThreadId with
    | some last => rfl
    | none =>
      simp only [map_none, getD_none, none_or, hload]
      by_cases hid : entry.2.publicThreadId = known.publicThreadId
      · simp [knownThread, hid, sameThread, eq_comm]
      · simp [knownThread, hid]

/-- `attach_outbound_new_thread_resume_handle` loads the created thread. -/
theorem resolves_attachNewThread (imported : ImportedThreads) (request : OutboundTurnRequest)
    (ids : String × String) (known : KnownThread) :
    resolves (attachNewThread imported request ids.1 ids.2) known =
      ((lastAt [newThread request ids] known.publicThreadId).map (sameThread known)).getD
        (resolves imported known) := by
  have hput := resolves_put imported
    ⟨ids.1, request.personaId, some request.executorNodeId, none, some ids.2⟩
    { executorId := request.executorId, sessionHandle := some ids.2 } known
  have hload : resolves (attachNewThread imported request ids.1 ids.2) known =
      if ids.1 = known.publicThreadId then
        decide (request.personaId = known.personaId) &&
          decide (some ids.2 = some known.codexThreadId)
      else resolves imported known := hput
  rw [hload, lastAt_singleton]
  by_cases hid : ids.1 = known.publicThreadId
  · simp [newThread, hid, sameThread, eq_comm]
  · simp [newThread, hid]

end loading

/-! ## One step -/

variable {syncing : Syncing} {now : Rat} {page : CodexThreadListPage} {label : ImportLabel}

variable {error : String}

section steps

variable {digest : String → String} {s s' : ImportState}

/-- What a sync has collected is what has been listed. -/
def Faithful (syncing : Syncing) : Prop :=
  ∀ known, resolves syncing.imported known = isRelisted syncing.listed known

/-- Threads loaded into the tables leave the others there exactly if they spare them. -/
theorem allResolvable_load (h : AllResolvable s)
    (hload : ∀ known, resolves s'.imported known =
      ((lastAt loaded known.publicThreadId).map (sameThread known)).getD
        (resolves s.imported known)) (hknown : s'.known = s.owedWith loaded) :
    AllResolvable s' ↔ s.spares loaded = true := by
  simp only [AllResolvable, hknown, ImportState.spares, List.all_eq_true]
  refine forall₂_congr fun known hmem => ?_
  rw [hload, isSpared]
  cases hlast : lastAt loaded known.publicThreadId with
  | some last => rfl
  | none =>
    have hold : known ∈ s.known := by
      have hboth := List.mem_append.mp (List.mem_filter.mp hmem).1
      refine hboth.resolve_right fun hnew => ?_
      exact lastAt_eq_none_iff.mp hlast known hnew rfl
    simp [h known hold]

/-- The end of a sync leaves what is to be had exactly if the sync has listed it. -/
theorem allResolvable_proceed (h : AllResolvable s)
    (hfaithful : Faithful syncing) (infos : Dict String CursorPageInfo) (now : Rat) :
    AllResolvable ({ s with pageInfo := infos }.proceed syncing now) ↔
      s.relists syncing.unanswered syncing.listed = true := by
  unfold ImportState.proceed ImportState.relists
  cases hrest : syncing.unanswered.isEmpty with
  | false => exact ⟨fun _ => rfl, fun _ => h⟩
  | true =>
    simp only [if_true, AllResolvable, Bool.not_true, Bool.false_or, List.all_eq_true]
    exact forall₂_congr fun known _ => iff_of_eq (congrArg (· = true) (hfaithful known))

/-- What only shortens the list of what is to be had forgets nothing. -/
theorem allResolvable_of_subset (h : AllResolvable s) (himported : s'.imported = s.imported)
    (hknown : ∀ known ∈ s'.known, known ∈ s.known) : AllResolvable s' := by
  intro known hmem
  rw [himported]
  exact h known (hknown known hmem)

theorem Faithful.take (h : Faithful syncing) (group : NodeGroup)
    (groups : List NodeGroup) (entries : List (Persona × CodexThreadItem)) :
    Faithful (syncing.take group groups entries) := by
  intro known
  have hlist := resolves_importListed group.1 entries syncing.imported known
  rw [h known] at hlist
  refine hlist.trans ?_
  simp only [Syncing.take, isRelisted, lastAt_append]
  cases lastAt (entries.map (knownThread group.1)) known.publicThreadId <;> rfl

def SyncFaithful (s : ImportState) : Prop := ∀ syncing, s.syncing = some syncing → Faithful syncing

theorem SyncFaithful.same (h : SyncFaithful s) (hsyncing : s'.syncing = s.syncing) :
    SyncFaithful s' := by
  intro syncing hsome
  exact h syncing (hsyncing ▸ hsome)

theorem faithful_start (existing : List String) (groups : List NodeGroup) :
    Faithful { existing := existing, unanswered := groups } := fun _ => rfl

/-- Nothing is to be had that was not before. -/
theorem mem_known_of_remember {known : KnownThread} (hknown : s'.known = s.known)
    (hmem : known ∈ (s'.remember []).known) : known ∈ s.known := by
  have hboth := (mem_filter.mp hmem).1
  rwa [append_nil, hknown] at hboth

theorem beginSync_keeps (call : SyncCall) (now : Rat) (h : SyncFaithful s) :
    SyncFaithful (s.beginSync call now) ∧
      (AllResolvable (s.beginSync call now) ↔ AllResolvable s) := by
  unfold ImportState.beginSync
  split
  · exact ⟨h, Iff.rfl⟩
  · refine ⟨fun syncing hsyncing => ?_, Iff.rfl⟩
    cases hsyncing
    exact faithful_start _ _

theorem proceed_keeps (hfaithful : Faithful syncing) (now : Rat) :
    SyncFaithful (s.proceed syncing now) := by
  unfold ImportState.proceed
  split
  · intro other hother
    cases hother
  · intro other hother
    cases hother
    exact hfaithful

theorem sync_keeps (now : Rat) (h : SyncFaithful s)
    (hall : AllResolvable s) :
    SyncFaithful (s.sync sessions now) ∧ (AllResolvable (s.sync sessions now) ↔
      ((s.personas.entries.any s.isEligible) || s.known.isEmpty) = true) := by
  have hempty : (s.personas.entries.filter s.isEligible).isEmpty =
      !s.personas.entries.any s.isEligible := by
    rw [Bool.eq_iff_iff]
    simp [List.filter_eq_nil_iff]
  unfold ImportState.sync
  dsimp only
  rw [hempty]
  cases heligible : s.personas.entries.any s.isEligible with
  | false =>
    refine ⟨h, ?_⟩
    simp only [Bool.not_false, if_true, Bool.false_or, List.isEmpty_iff]
    constructor
    · intro hcleared
      by_contra hne
      obtain ⟨known, hmem⟩ := List.exists_mem_of_ne_nil _ hne
      cases hcleared known hmem
    · intro hnil known hmem
      have hnone : known ∈ s.known := hmem
      rw [hnil] at hnone
      cases hnone
  | true =>
    simp only [Bool.not_true, Bool.false_eq_true, if_false, Bool.true_or, iff_true]
    split
    · exact ⟨h, hall⟩
    · split
      · exact ⟨h, hall⟩
      · obtain ⟨hfaithful, hsame⟩ := beginSync_keeps
          ⟨s.personas.entries.filter s.isEligible, existingCodexThreadIds sessions⟩ now h
        exact ⟨hfaithful, hsame.mpr hall⟩

theorem lockFree_keeps (h : SyncFaithful s) (hall : AllResolvable s)
    (hs : s.lockFree now = some s') : SyncFaithful s' ∧ AllResolvable s' := by
  unfold ImportState.lockFree at hs
  split at hs
  · rename_i call calls hfree hqueued
    cases hs
    obtain ⟨hfaithful, hsame⟩ := beginSync_keeps (s := { s with queued := calls }) call now
      (h.same rfl)
    exact ⟨hfaithful, hsame.mpr hall⟩
  · cases hs

theorem listed_keeps (h : SyncFaithful s)
    (hall : AllResolvable s) (hs : s.listed digest page now = some s') : SyncFaithful s' ∧
      (AllResolvable s' ↔ forgetsNone digest s (.listed page now) = true) := by
  obtain ⟨syncing, hsyncing, hs⟩ := bind_eq_some_iff.mp hs
  have hfaithful := h syncing hsyncing
  split at hs
  · cases hs
  · rename_i group groups hgroups
    cases hs
    have htaken := hfaithful.take group groups
      (projectPage digest s.aliases syncing.existing group.2 page)
    refine ⟨proceed_keeps htaken now, ?_⟩
    simp only [forgetsNone, hsyncing, all_some, hgroups]
    exact allResolvable_proceed hall htaken _ now

theorem listingFails_keeps (h : SyncFaithful s)
    (hall : AllResolvable s) (hs : s.listingFails error now = some s') : SyncFaithful s' ∧
      (AllResolvable s' ↔ forgetsNone digest s (.listingFails error now) = true) := by
  obtain ⟨syncing, hsyncing, hs⟩ := bind_eq_some_iff.mp hs
  have hfaithful := h syncing hsyncing
  split at hs
  · cases hs
  · rename_i group groups hgroups
    cases hs
    let next : Syncing :=
      { syncing with unanswered := groups, failed := syncing.failed ++ [group] }
    have hnext : Faithful next := hfaithful
    refine ⟨proceed_keeps hnext now, ?_⟩
    simp only [forgetsNone, hsyncing, all_some, hgroups, isEmpty_cons, tail_cons, Bool.false_or]
    exact allResolvable_proceed hall hnext _ now

theorem pageArrives_keeps {requestId : String} (h : SyncFaithful s) (hall : AllResolvable s)
    (hs : s.pageArrives digest requestId page = some s') : SyncFaithful s' ∧
      (AllResolvable s' ↔ forgetsNone digest s (.pageArrives requestId page) = true) := by
  obtain ⟨call, hcall, rfl⟩ := map_eq_some_iff.mp hs
  refine ⟨h.same rfl, ?_⟩
  simp only [forgetsNone, hcall, all_some]
  exact allResolvable_load hall (resolves_importListed call.nodeId _ s.imported) rfl

theorem attach_keeps (request : OutboundTurnRequest) (createNewThread : Bool)
    (message : CodexTurnEvent) (h : SyncFaithful s) (hall : AllResolvable s) :
    SyncFaithful (s.attach request createNewThread message) ∧
      (AllResolvable (s.attach request createNewThread message) ↔
        forgetsNone digest s (.attach request createNewThread message) = true) := by
  unfold ImportState.attach
  simp only [forgetsNone]
  split
  · rename_i hnone
    exact ⟨h, by simp [hnone, hall]⟩
  · rename_i ids hids
    refine ⟨h.same rfl, ?_⟩
    simp only [hids, all_some]
    exact allResolvable_load hall (resolves_attachNewThread s.imported request ids) rfl

/-- One step leaves what is to be had resolvable exactly if it forgets none. -/
theorem step_keeps (h : SyncFaithful s) (hall : AllResolvable s)
    (hs : s.step digest label = some s') :
    SyncFaithful s' ∧ (AllResolvable s' ↔ forgetsNone digest s label = true) := by
  have hquiet : forgetsNone digest s label = true → s'.imported = s.imported →
      s'.syncing = s.syncing → (∀ known ∈ s'.known, known ∈ s.known) →
      SyncFaithful s' ∧ (AllResolvable s' ↔ forgetsNone digest s label = true) :=
    fun hforgets himported hsyncing hknown => ⟨h.same hsyncing,
      iff_of_true (allResolvable_of_subset hall himported hknown) hforgets⟩
  have hworld : ∀ t : ImportState, s' = t.remember [] → forgetsNone digest s label = true →
      t.imported = s.imported → t.syncing = s.syncing → t.known = s.known →
      SyncFaithful s' ∧ (AllResolvable s' ↔ forgetsNone digest s label = true) := by
    rintro t rfl hforgets himported hsyncing hknown
    exact hquiet hforgets himported hsyncing fun _ hmem => mem_known_of_remember hknown hmem
  cases label with
  | sync sessions now =>
    cases hs
    exact sync_keeps sessions now h hall
  | lockFree now =>
    obtain ⟨hfaithful, hafter⟩ := lockFree_keeps h hall hs
    exact ⟨hfaithful, iff_of_true hafter rfl⟩
  | listed page now => exact listed_keeps h hall hs
  | listingFails error now => exact listingFails_keeps h hall hs
  | requestPage requestId personaId sessions =>
    change s.requestPage requestId personaId sessions = some s' at hs
    unfold ImportState.requestPage at hs
    split at hs
    · cases hs
    · obtain ⟨persona, -, hs⟩ := bind_eq_some_iff.mp hs
      obtain ⟨nodeId, -, rfl⟩ := map_eq_some_iff.mp hs
      exact hquiet rfl rfl rfl fun _ hmem => hmem
  | pageArrives requestId page => exact pageArrives_keeps h hall hs
  | pageFails requestId =>
    obtain ⟨call, -, rfl⟩ := map_eq_some_iff.mp hs
    exact hquiet rfl rfl rfl fun _ hmem => hmem
  | attach request createNewThread message =>
    cases hs
    exact attach_keeps request createNewThread message h hall
  | setPersona | deletePersona | setNode | nodeLeaves =>
    cases hs
    exact hworld _ rfl rfl rfl rfl rfl

end steps

/-! ## The nodes of a sync -/

variable {personas : List Persona}

variable {personaId : String}

section groups

variable {digest : String → String} {s s' : ImportState} {group : NodeGroup}
  {groups : List NodeGroup}

/-- No node occurs twice, a node has the Bros that are bound to it, and no Bro is at two. -/
structure GroupsFit (groups : List NodeGroup) : Prop where
  nodes : (groups.map Prod.fst).Nodup
  bound : ∀ group ∈ groups, ∀ persona ∈ group.2, personaNode persona = some group.1
  own : ∀ group ∈ groups, ∀ persona ∈ group.2, ∀ other ∈ groups, ∀ persona' ∈ other.2,
    persona.personaId = persona'.personaId → group.1 = other.1

/-- Bros with one id are one Bro. -/
def Distinct (personas : List Persona) : Prop :=
  ∀ persona ∈ personas, ∀ persona' ∈ personas, persona.personaId = persona'.personaId →
    persona = persona'

theorem distinct_filter (personas : Table Persona.personaId) (p : Persona → Bool) :
    Distinct (personas.entries.filter p) := by
  intro persona hpersona persona' hpersona' hid
  exact personas.eq_of_key_eq (mem_filter.mp hpersona).1 (mem_filter.mp hpersona').1 hid

theorem mem_foldl_addToNode (rest : List Persona)
    (groups : Dict String (List Persona)) (hrest : ∀ persona ∈ rest, persona ∈ personas)
    (h : ∀ group ∈ groups.entries, ∀ persona ∈ group.2,
      persona ∈ personas ∧ personaNode persona = some group.1) :
    ∀ group ∈ (rest.foldl addToNode groups).entries, ∀ persona ∈ group.2,
      persona ∈ personas ∧ personaNode persona = some group.1 := by
  induction rest generalizing groups with
  | nil => exact h
  | cons first rest ih =>
    rw [foldl_cons]
    refine ih _ (fun persona hmem => hrest persona (mem_cons_of_mem _ hmem)) ?_
    unfold addToNode
    split
    · exact h
    · rename_i nodeId hnode
      refine Table.forall_put h fun persona hmem => ?_
      rcases mem_append.mp hmem with hold | hnew
      · cases hlookup : groups.lookup nodeId with
        | none =>
          rw [hlookup] at hold
          cases hold
        | some personas' =>
          rw [hlookup] at hold
          obtain ⟨entry, hget, rfl⟩ := map_eq_some_iff.mp hlookup
          obtain rfl := Table.key_of_get? hget
          exact h entry (Table.mem_of_get? hget) persona hold
      · obtain rfl := mem_singleton.mp hnew
        exact ⟨hrest persona mem_cons_self, hnode⟩

theorem mem_groupByNode : ∀ group ∈ (groupByNode personas).entries, ∀ persona ∈ group.2,
      persona ∈ personas ∧ personaNode persona = some group.1 :=
  mem_foldl_addToNode personas Table.empty (fun _ hmem => hmem) fun _ hmem => by cases hmem

theorem groupsFit_groupByNode (h : Distinct personas) :
    GroupsFit (groupByNode personas).entries where
  nodes := (groupByNode personas).keys_nodup
  bound group hgroup persona hpersona := (mem_groupByNode group hgroup persona hpersona).2
  own group hgroup persona hpersona other hother persona' hpersona' hid := by
    obtain ⟨hmem, hnode⟩ := mem_groupByNode group hgroup persona hpersona
    obtain ⟨hmem', hnode'⟩ := mem_groupByNode other hother persona' hpersona'
    rw [h persona hmem persona' hmem' hid, hnode'] at hnode
    exact (some.inj hnode).symm

/-- What a sync has collected is of nodes that have answered. -/
structure Fits (syncing : Syncing) : Prop where
  groups : GroupsFit (syncing.failed ++ syncing.unanswered)
  threads : ∀ thread ∈ syncing.imported.threads.entries, ∀ nodeId ∈ thread.executorNodeId,
    ∀ group ∈ syncing.failed ++ syncing.unanswered, nodeId ≠ group.1
  pages : ∀ group ∈ syncing.failed ++ syncing.unanswered, ∀ persona ∈ group.2,
    syncing.pagesByPersona.lookup persona.personaId = none

structure SyncFits (s : ImportState) : Prop where
  syncing : ∀ syncing, s.syncing = some syncing → Fits syncing
  queued : ∀ call ∈ s.queued, Distinct call.eligible

/-- Lists of pages change for the Bros of the entries only. -/
theorem lookup_foldl_appendPageId (entries : List (Persona × CodexThreadItem))
    (pages : Dict String (List String)) (h : ∀ entry ∈ entries, entry.1.personaId ≠ personaId) :
    (entries.foldl appendPageId pages).lookup personaId = pages.lookup personaId := by
  induction entries generalizing pages with
  | nil => rfl
  | cons entry entries ih =>
    rw [foldl_cons, ih _ fun other hmem => h other (mem_cons_of_mem _ hmem)]
    exact Dict.lookup_set_of_ne _ _ (h entry mem_cons_self)

theorem lookup_foldl_set {α : Type} (value : α) (personas : List Persona)
    (d : Dict String α) (h : ∀ persona ∈ personas, persona.personaId ≠ personaId) :
    (personas.foldl (fun d persona => Dict.set d persona.personaId value) d).lookup personaId =
      d.lookup personaId := by
  induction personas generalizing d with
  | nil => rfl
  | cons persona personas ih =>
    rw [foldl_cons, ih _ fun other hmem => h other (mem_cons_of_mem _ hmem)]
    exact Dict.lookup_set_of_ne _ _ (h persona mem_cons_self)

theorem mem_projectPage {aliases : Dict String String} {existing : List String} :
    ∀ entry ∈ projectPage digest aliases existing personas page, entry.1 ∈ personas := by
  intro entry hmem
  obtain ⟨item, -, hentry⟩ := mem_flatMap.mp hmem
  obtain ⟨persona, hpersona, rfl⟩ := mem_map.mp hentry
  exact hpersona

/-- The other nodes of a sync are not the one that is asked, nor are their Bros its Bros. -/
theorem GroupsFit.apart {failed : List NodeGroup} (h : GroupsFit (failed ++ group :: groups)) :
    GroupsFit (failed ++ groups) ∧ ∀ other ∈ failed ++ groups, other.1 ≠ group.1 ∧
      ∀ persona ∈ group.2, ∀ persona' ∈ other.2, persona.personaId ≠ persona'.personaId := by
  have hsub : (failed ++ groups).Sublist (failed ++ group :: groups) :=
    (List.Sublist.refl failed).append (sublist_cons_self group groups)
  have hmem : group ∈ failed ++ group :: groups :=
    mem_append_right _ mem_cons_self
  have hne : ∀ other ∈ failed ++ groups, other.1 ≠ group.1 := by
    have hnodup := h.nodes
    rw [map_append, map_cons, nodup_middle, nodup_cons, ← map_append]
      at hnodup
    intro other hother heq
    exact hnodup.1 (heq ▸ mem_map_of_mem hother)
  refine ⟨⟨h.nodes.sublist (hsub.map _), fun other hother => h.bound other (hsub.mem hother),
    fun other hother persona hpersona other' hother' => ?_⟩, fun other hother => ⟨hne other hother,
      fun persona hpersona persona' hpersona' hid => ?_⟩⟩
  · exact h.own other (hsub.mem hother) persona hpersona other' (hsub.mem hother')
  · exact hne other hother
      (h.own group hmem persona hpersona other (hsub.mem hother) persona' hpersona' hid).symm

theorem Fits.take {entries : List (Persona × CodexThreadItem)}
    (h : Fits syncing) (hgroups : syncing.unanswered = group :: groups)
    (hentries : ∀ entry ∈ entries, entry.1 ∈ group.2) :
    Fits (syncing.take group groups entries) := by
  have hfit := h.groups
  have hmem : group ∈ syncing.failed ++ syncing.unanswered := by
    rw [hgroups]
    exact mem_append_right _ mem_cons_self
  have hsub : ∀ other ∈ syncing.failed ++ groups, other ∈ syncing.failed ++ syncing.unanswered := by
    intro other hother
    rw [hgroups]
    rcases mem_append.mp hother with hfailed | hrest
    · exact mem_append_left _ hfailed
    · exact mem_append_right _ (mem_cons_of_mem _ hrest)
  rw [hgroups] at hfit
  obtain ⟨hrest, hapart⟩ := hfit.apart
  refine ⟨hrest, ?_, ?_⟩
  · refine NodeRequests.importListed_records
      (P := fun nodeId => ∀ other ∈ syncing.failed ++ groups, nodeId ≠ other.1) ?_ ?_
    · intro thread hthread nodeId hnode other hother
      exact h.threads thread hthread nodeId hnode other (hsub other hother)
    · intro entry hentry nodeId hnode other hother heq
      have hbound := h.groups.bound group hmem entry.1 (hentries entry hentry)
      have hsame : some nodeId = some group.1 :=
        hnode.symm.trans (filter_eq_some_iff.mp hbound).1
      cases hsame
      exact (hapart other hother).1 heq.symm
  · intro other hother persona' hpersona'
    have hids := (hapart other hother).2
    refine (lookup_foldl_appendPageId entries _ fun entry hentry =>
      hids entry.1 (hentries entry hentry) persona' hpersona').trans ?_
    refine (lookup_foldl_set [] group.2 _ fun persona hpersona =>
      hids persona hpersona persona' hpersona').trans ?_
    exact h.pages other (hsub other hother) persona' hpersona'

theorem Fits.fail (h : Fits syncing)
    (hgroups : syncing.unanswered = group :: groups) :
    Fits { syncing with unanswered := groups, failed := syncing.failed ++ [group] } := by
  have hsame : syncing.failed ++ [group] ++ groups = syncing.failed ++ syncing.unanswered := by
    rw [hgroups, append_assoc, singleton_append]
  exact ⟨hsame ▸ h.groups, hsame ▸ h.threads, hsame ▸ h.pages⟩

section

variable (h : SyncFits s)
include h

theorem SyncFits.same (hsyncing : s'.syncing = s.syncing)
    (hqueued : s'.queued = s.queued) : SyncFits s' :=
  ⟨hsyncing ▸ h.syncing, hqueued ▸ h.queued⟩

theorem SyncFits.beginSync {call : SyncCall} (hcall : Distinct call.eligible)
    (now : Rat) : SyncFits (s.beginSync call now) := by
  unfold ImportState.beginSync
  split
  · exact h
  · refine ⟨fun syncing hsyncing => ?_, h.queued⟩
    cases hsyncing
    refine ⟨groupsFit_groupByNode hcall, fun thread hthread => ?_, fun _ _ _ _ => rfl⟩
    cases hthread

theorem SyncFits.proceed (hfits : Fits syncing)
    (infos : Dict String CursorPageInfo) (now : Rat) :
    SyncFits ({ s with pageInfo := infos }.proceed syncing now) := by
  unfold ImportState.proceed
  split
  · refine ⟨fun other hother => ?_, h.queued⟩
    cases hother
  · refine ⟨fun other hother => ?_, h.queued⟩
    cases hother
    exact hfits

theorem SyncFits.sync (now : Rat) :
    SyncFits (s.sync sessions now) := by
  have hcall := distinct_filter s.personas s.isEligible
  unfold ImportState.sync
  dsimp only
  split
  · exact h.same rfl rfl
  · split
    · exact h
    · split
      · refine ⟨h.syncing, fun call hmem => ?_⟩
        rcases mem_append.mp hmem with hold | hnew
        · exact h.queued call hold
        · obtain rfl := mem_singleton.mp hnew
          exact hcall
      · exact h.beginSync hcall now

theorem SyncFits.lockFree (hs : s.lockFree now = some s') : SyncFits s' := by
  unfold ImportState.lockFree at hs
  split at hs
  · rename_i call calls hfree hqueued
    cases hs
    have hcalls : SyncFits { s with queued := calls } :=
      ⟨h.syncing, fun other hmem => h.queued other (hqueued ▸ mem_cons_of_mem _ hmem)⟩
    exact hcalls.beginSync (h.queued call (hqueued ▸ mem_cons_self)) now
  · cases hs

theorem SyncFits.listed (hs : s.listed digest page now = some s') : SyncFits s' := by
  obtain ⟨syncing, hsyncing, hs⟩ := bind_eq_some_iff.mp hs
  split at hs
  · cases hs
  · rename_i group groups hgroups
    cases hs
    exact h.proceed ((h.syncing syncing hsyncing).take hgroups mem_projectPage) _ now

theorem SyncFits.listingFails
    (hs : s.listingFails error now = some s') : SyncFits s' := by
  obtain ⟨syncing, hsyncing, hs⟩ := bind_eq_some_iff.mp hs
  split at hs
  · cases hs
  · rename_i group groups hgroups
    cases hs
    exact h.proceed ((h.syncing syncing hsyncing).fail hgroups) _ now

theorem SyncFits.step (hs : s.step digest label = some s') : SyncFits s' := by
  cases label with
  | sync sessions now =>
    cases hs
    exact h.sync sessions now
  | lockFree now => exact h.lockFree hs
  | listed page now => exact h.listed hs
  | listingFails error now => exact h.listingFails hs
  | requestPage requestId personaId sessions =>
    change s.requestPage requestId personaId sessions = some s' at hs
    unfold ImportState.requestPage at hs
    split at hs
    · cases hs
    · obtain ⟨persona, -, hs⟩ := bind_eq_some_iff.mp hs
      obtain ⟨nodeId, -, rfl⟩ := map_eq_some_iff.mp hs
      exact h.same rfl rfl
  | pageArrives | pageFails =>
    obtain ⟨call, -, rfl⟩ := map_eq_some_iff.mp hs
    exact h.same rfl rfl
  | attach request createNewThread message =>
    cases hs
    unfold ImportState.attach
    split
    · exact h
    · exact h.same rfl rfl
  | setPersona | deletePersona | setNode | nodeLeaves => cases hs; exact h.same rfl rfl

end

end groups

/-! ## Runs -/

end Newbro.ThreadSync
