import Newbro.Protocol

/-!
# The blackboard of a session

The in-memory store. Tasks, runs and execution sessions are stored by reference in the
source and mutated in place, so a change of one of them is a `put` under its own id.
Bindings, summaries, personas and interaction requests are written as fresh copies.
The model leaves out the write log, the subscriptions, the attention items and the
execution modes: no modelled function reads them back.
-/
namespace Newbro

open Library Protocol

/-- The tables of the store that the execution core reads and writes. -/
structure Blackboard where
  tasks : Table Task.taskId
  runs : Table ExecutionRun.runId
  sessions : Table ExecutionSession.executionSessionId
  bindings : Table SessionBinding.taskId
  summaries : Table TaskSummary.taskId
  personas : Table Persona.personaId
  requests : Table InteractionRequest.requestId
  commands : List TaskCommand
  details : List TaskExecutionDetailEntry

namespace Blackboard

def empty : Blackboard :=
  ⟨Table.empty, Table.empty, Table.empty, Table.empty, Table.empty, Table.empty, Table.empty,
    [], []⟩

instance : Inhabited Blackboard := ⟨empty⟩

def getTask (b : Blackboard) (taskId : String) : Option Task := b.tasks.get? taskId
def getRun (b : Blackboard) (runId : String) : Option ExecutionRun := b.runs.get? runId
def getSession (b : Blackboard) (sessionId : String) : Option ExecutionSession :=
  b.sessions.get? sessionId
def getBinding (b : Blackboard) (taskId : String) : Option SessionBinding :=
  b.bindings.get? taskId
def getSummary (b : Blackboard) (taskId : String) : Option TaskSummary := b.summaries.get? taskId
def getPersona (b : Blackboard) (personaId : String) : Option Persona :=
  b.personas.get? personaId
def getRequest (b : Blackboard) (requestId : String) : Option InteractionRequest :=
  b.requests.get? requestId

def putTask (b : Blackboard) (task : Task) : Blackboard := { b with tasks := b.tasks.put task }
def putRun (b : Blackboard) (run : ExecutionRun) : Blackboard := { b with runs := b.runs.put run }
def putSession (b : Blackboard) (session : ExecutionSession) : Blackboard :=
  { b with sessions := b.sessions.put session }
def putBinding (b : Blackboard) (binding : SessionBinding) : Blackboard :=
  { b with bindings := b.bindings.put binding }
def putSummary (b : Blackboard) (summary : TaskSummary) : Blackboard :=
  { b with summaries := b.summaries.put summary }
def putPersona (b : Blackboard) (persona : Persona) : Blackboard :=
  { b with personas := b.personas.put persona }
def deletePersona (b : Blackboard) (personaId : String) : Blackboard :=
  { b with personas := b.personas.erase personaId }
def putInteractionRequest (b : Blackboard) (request : InteractionRequest) : Blackboard :=
  { b with requests := b.requests.put request }
def appendCommand (b : Blackboard) (command : TaskCommand) : Blackboard :=
  { b with commands := b.commands ++ [command] }
def appendTaskExecutionDetail (b : Blackboard) (entry : TaskExecutionDetailEntry) : Blackboard :=
  { b with details := b.details ++ [entry] }

/-- `append_mutation` on a task bumps its revision; the log itself is read by nothing here. -/
def bumpTaskRevision (b : Blackboard) (taskId : String) : Blackboard :=
  match b.getTask taskId with
  | none => b
  | some task => b.putTask { task with taskRevision := task.taskRevision + 1 }

section frames

variable (b : Blackboard) (task : Task) (run : ExecutionRun) (session : ExecutionSession)
  (binding : SessionBinding) (summary : TaskSummary) (persona : Persona) (personaId : String)
  (request : InteractionRequest) (command : TaskCommand) (entry : TaskExecutionDetailEntry)

@[simp] theorem tasks_putTask : (b.putTask task).tasks = b.tasks.put task := rfl
@[simp] theorem tasks_putRun : (b.putRun run).tasks = b.tasks := rfl
@[simp] theorem tasks_putSummary : (b.putSummary summary).tasks = b.tasks := rfl
@[simp] theorem tasks_putPersona : (b.putPersona persona).tasks = b.tasks := rfl
@[simp] theorem tasks_putRequest : (b.putInteractionRequest request).tasks = b.tasks := rfl
@[simp] theorem tasks_appendDetail : (b.appendTaskExecutionDetail entry).tasks = b.tasks := rfl

@[simp] theorem runs_putTask : (b.putTask task).runs = b.runs := rfl
@[simp] theorem runs_putRun : (b.putRun run).runs = b.runs.put run := rfl
@[simp] theorem runs_putSession : (b.putSession session).runs = b.runs := rfl
@[simp] theorem runs_putBinding : (b.putBinding binding).runs = b.runs := rfl
@[simp] theorem runs_putSummary : (b.putSummary summary).runs = b.runs := rfl
@[simp] theorem runs_putPersona : (b.putPersona persona).runs = b.runs := rfl
@[simp] theorem runs_deletePersona : (b.deletePersona personaId).runs = b.runs := rfl
@[simp] theorem runs_putRequest : (b.putInteractionRequest request).runs = b.runs := rfl
@[simp] theorem runs_appendCommand : (b.appendCommand command).runs = b.runs := rfl
@[simp] theorem runs_appendDetail : (b.appendTaskExecutionDetail entry).runs = b.runs := rfl

@[simp] theorem sessions_putTask : (b.putTask task).sessions = b.sessions := rfl
@[simp] theorem sessions_putRun : (b.putRun run).sessions = b.sessions := rfl
@[simp] theorem sessions_putSession :
    (b.putSession session).sessions = b.sessions.put session := rfl
@[simp] theorem sessions_putBinding : (b.putBinding binding).sessions = b.sessions := rfl
@[simp] theorem sessions_putSummary : (b.putSummary summary).sessions = b.sessions := rfl
@[simp] theorem sessions_putRequest :
    (b.putInteractionRequest request).sessions = b.sessions := rfl
@[simp] theorem sessions_appendCommand : (b.appendCommand command).sessions = b.sessions := rfl

@[simp] theorem summaries_putTask : (b.putTask task).summaries = b.summaries := rfl
@[simp] theorem summaries_putRun : (b.putRun run).summaries = b.summaries := rfl
@[simp] theorem summaries_putSession : (b.putSession session).summaries = b.summaries := rfl
@[simp] theorem summaries_putBinding : (b.putBinding binding).summaries = b.summaries := rfl
@[simp] theorem summaries_putSummary :
    (b.putSummary summary).summaries = b.summaries.put summary := rfl
@[simp] theorem summaries_putPersona : (b.putPersona persona).summaries = b.summaries := rfl
@[simp] theorem summaries_deletePersona :
    (b.deletePersona personaId).summaries = b.summaries := rfl
@[simp] theorem summaries_putRequest :
    (b.putInteractionRequest request).summaries = b.summaries := rfl
@[simp] theorem summaries_appendCommand :
    (b.appendCommand command).summaries = b.summaries := rfl
@[simp] theorem summaries_appendDetail :
    (b.appendTaskExecutionDetail entry).summaries = b.summaries := rfl

@[simp] theorem personas_putPersona :
    (b.putPersona persona).personas = b.personas.put persona := rfl
@[simp] theorem personas_deletePersona :
    (b.deletePersona personaId).personas = b.personas.erase personaId := rfl

end frames

end Blackboard

end Newbro
