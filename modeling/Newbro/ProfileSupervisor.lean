import Newbro.Library.Table
import Newbro.Library.Text
import Newbro.Library.Transition
import Mathlib.Tactic.Common

/-!
# The processes of the executor profiles

The macOS app runs one node process for each active profile. The supervisor is modelled
against the protocol of its processes: each section under its lock is a step, a process
calls back with lines while it runs and until it has reported its exit, and the two
closures of a process know the profile's id only.
-/
namespace Newbro.ProfileSupervisor

open Library Option Table

inductive NodeStatus where
  | idle | starting | connecting | ready | disconnected | retrying | error | stopped
  deriving DecidableEq, Repr

/-- `line.contains(part)` -/
def containsPart (line part : String) : Bool :=
  line.toList.tails.any fun rest => part.toList.isPrefixOf rest

/-- `StatusParser.onLine` -/
def onLine (status : NodeStatus) (line : String) : NodeStatus :=
  if Text.startsWith line "[start]" then .starting
  else if Text.startsWith line "[connect]" then .connecting
  else if Text.startsWith line "[ready]" then .ready
  else if Text.startsWith line "[retry]" then .retrying
  else if Text.startsWith line "[warn]" && containsPart line "disconnected=" then .disconnected
  else if Text.startsWith line "[warn]" && containsPart line "connect_failed=" then .connecting
  else status

/-- `StatusParser.onExit` -/
def onExit (expected : Bool) : NodeStatus := if expected then .stopped else .error

structure Profile where
  id : String
  label : String
  deriving DecidableEq, Repr

inductive ProfileLifecycleEvent where
  | started (profileId label : String)
  | stopped (profileId label : String)
  | error (profileId label : String) (exitCode : Int)
  deriving DecidableEq, Repr

/-- Where a process stands; a silent one calls back no more. -/
inductive Phase where
  | made
  | running
  | exited (code : Int)
  | silent
  deriving DecidableEq, Repr

structure NodeProcess where
  processId : Nat
  profileId : String
  phase : Phase
  deriving DecidableEq, Repr

/-- A process that is starting or running. -/
def NodeProcess.Live (process : NodeProcess) : Prop :=
  process.phase = .made ∨ process.phase = .running

structure Record where
  profile : Profile
  process : Nat
  status : NodeStatus
  expectedStop : Bool := false
  exited : Bool := false
  deriving DecidableEq, Repr

def Record.profileId (record : Record) : String := record.profile.id

/-- A restart under way: the process that its stop waits for, whether the stop has returned,
and the number that the next process had when the restart began. -/
structure Restart where
  callId : String
  profile : Profile
  stopping : Option Nat
  returned : Bool
  since : Nat

structure Supervisor where
  records : Table Record.profileId
  processes : Table NodeProcess.processId
  nextProcess : Nat
  restarts : Table Restart.callId
  restarted : List (String × Nat)
  stopRequests : List Nat
  events : List ProfileLifecycleEvent
  logged : List (String × String)

namespace Supervisor

def isRunning (s : Supervisor) (processId : Nat) : Bool :=
  (s.processes.get? processId).any fun process => process.phase = .running

def setPhase (s : Supervisor) (process : NodeProcess) (phase : Phase) : Supervisor :=
  { s with processes := s.processes.put { process with phase := phase } }

/-- The section of `start` under the lock; `process.start()` comes after it. -/
def start (s : Supervisor) (profile : Profile) : Supervisor :=
  if (s.records.get? profile.id).any fun existing => s.isRunning existing.process then s
  else
    { s with
      records := s.records.put
        { profile := profile, process := s.nextProcess, status := .starting }
      processes := s.processes.put ⟨s.nextProcess, profile.id, .made⟩
      nextProcess := s.nextProcess + 1
      events := s.events ++ [.started profile.id profile.label] }

def expectStop (record : Record) : Record := { record with expectedStop := true }

/-- `stop`: the record of a process that exited goes at once, any other when it exits. -/
def stop (s : Supervisor) (profileId : String) : Supervisor :=
  match s.records.get? profileId with
  | none => s
  | some record =>
    { s with
      records :=
        if record.exited then s.records.erase profileId
        else s.records.put (expectStop record)
      stopRequests := s.stopRequests ++ [record.process] }

def stopAll (s : Supervisor) : Supervisor :=
  { s with
    records := s.records.mapValues expectStop fun _ => rfl
    stopRequests := s.stopRequests ++ s.records.entries.map (·.process) }

def handleLine (s : Supervisor) (profileId line : String) : Supervisor :=
  match s.records.get? profileId with
  | none => s
  | some record =>
    { s with
      records := s.records.put { record with status := onLine record.status line }
      logged := s.logged ++ [(profileId, line)] }

def handleExit (s : Supervisor) (profileId : String) (code : Int) : Supervisor :=
  match s.records.get? profileId with
  | none => s
  | some record =>
    if record.expectedStop then
      { s with
        records := s.records.erase profileId
        events := s.events ++ [.stopped profileId record.profile.label] }
    else
      { s with
        records := s.records.put { record with status := onExit false, exited := true }
        events := s.events ++ [.error profileId record.profile.label code] }

end Supervisor

/-- What comes of `process.start()`: a process that cannot be launched reports exit code 127 from
within it, and one without arguments does nothing. -/
inductive Launch where
  | launched
  | failed
  | ignored
  deriving DecidableEq

inductive Label where
  | start (profile : Profile)
  | stop (profileId : String)
  | stopAll
  | restart (callId : String) (profile : Profile)
  /-- The stop of a restart has seen the end of its process. -/
  | stopReturns (callId : String)
  | restartStarts (callId : String)
  | launch (processId : Nat) (outcome : Launch)
  | exits (processId : Nat) (code : Int)
  | line (processId : Nat) (line : String)
  | exitCallback (processId : Nat)

def step (s : Supervisor) : Label → Option Supervisor
  | .start profile => some (s.start profile)
  | .stop profileId => some (s.stop profileId)
  | .stopAll => some s.stopAll
  | .restart callId profile =>
    if s.restarts.contains callId then none
    else
      let stopping := (s.records.get? profile.id).map (·.process)
      some { s.stop profile.id with
        restarts := s.restarts.put ⟨callId, profile, stopping, false, s.nextProcess⟩ }
  | .stopReturns callId =>
    match s.restarts.get? callId with
    | none => none
    | some restart =>
      if restart.stopping.any s.isRunning then none
      else some { s with restarts := s.restarts.put { restart with returned := true } }
  | .restartStarts callId =>
    match s.restarts.get? callId with
    | none => none
    | some restart =>
      if restart.returned then
        some { s.start restart.profile with
          restarts := s.restarts.erase callId
          restarted := s.restarted ++ [(restart.profile.id, restart.since)] }
      else none
  | .launch processId outcome =>
    match s.processes.get? processId with
    | some ⟨_, profileId, .made⟩ =>
      let process : NodeProcess := ⟨processId, profileId, .made⟩
      match outcome with
      | .launched => some (s.setPhase process .running)
      | .failed => some ((s.setPhase process .silent).handleExit profileId 127)
      | .ignored => some (s.setPhase process .silent)
    | _ => none
  | .exits processId code =>
    match s.processes.get? processId with
    | some ⟨_, profileId, .running⟩ =>
      some (s.setPhase ⟨processId, profileId, .running⟩ (.exited code))
    | _ => none
  | .line processId line =>
    match s.processes.get? processId with
    | some ⟨_, profileId, .running⟩ => some (s.handleLine profileId line)
    | some ⟨_, profileId, .exited _⟩ => some (s.handleLine profileId line)
    | _ => none
  | .exitCallback processId =>
    match s.processes.get? processId with
    | some ⟨_, profileId, .exited code⟩ =>
      some ((s.setPhase ⟨processId, profileId, .exited code⟩ .silent).handleExit profileId code)
    | _ => none

def noProfiles : Supervisor where
  records := Table.empty
  processes := Table.empty
  nextProcess := 0
  restarts := Table.empty
  restarted := []
  stopRequests := []
  events := []
  logged := []

def supervisorSystem : System Supervisor Label where
  initial s := s = noProfiles
  step := step

/-- The process whose closure a step runs, if it runs one. -/
def callbackOf : Label → Option Nat
  | .line processId _ => some processId
  | .exitCallback processId => some processId
  | .launch processId .failed => some processId
  | _ => none

/-- Callbacks reach only the record of their own process, a profile has at most one process that
is starting or running, and each restart has brought a new one. -/
structure Identified (s : Supervisor) : Prop where
  callbacks : ∀ label processId, callbackOf label = some processId →
    ∀ process, s.processes.get? processId = some process →
    ∀ record, s.records.get? process.profileId = some record → record.process ≠ processId →
    ∀ s', step s label = some s' → s'.records.get? process.profileId = some record
  single : ∀ p ∈ s.processes.entries, ∀ q ∈ s.processes.entries, p.profileId = q.profileId →
    p.Live → q.Live → p = q
  restarted : ∀ entry ∈ s.restarted, ∃ p ∈ s.processes.entries,
    p.profileId = entry.1 ∧ entry.2 ≤ p.processId

/-! ## When starts are in order -/

/-- All processes of the profile have called back for the last time. -/
def AllSilent (s : Supervisor) (profileId : String) : Prop :=
  ∀ p ∈ s.processes.entries, p.profileId = profileId → p.phase = .silent

/-- The profile's current process is running, and was made as number `since` or later. -/
def RunsSince (s : Supervisor) (profileId : String) (since : Nat) : Prop :=
  ∃ record, s.records.get? profileId = some record ∧ s.isRunning record.process = true ∧
    since ≤ record.process

/-- A start finds the current process running, or comes after the last callback of each earlier
one. -/
def StartsInOrder (s : Supervisor) : Label → Prop
  | .start profile => RunsSince s profile.id 0 ∨ AllSilent s profile.id
  | .restartStarts callId => ∀ restart, s.restarts.get? callId = some restart →
      RunsSince s restart.profile.id restart.since ∨ AllSilent s restart.profile.id
  | _ => True

/-- A process that may still call back is the current one of its profile. -/
structure Consistent (s : Supervisor) : Prop where
  current : ∀ p ∈ s.processes.entries, p.phase ≠ .silent →
    ∃ record, s.records.get? p.profileId = some record ∧ record.process = p.processId
  exited : ∀ record ∈ s.records.entries, record.exited = true →
    ∀ p, s.processes.get? record.process = some p → p.phase = .silent
  newest : ∀ record ∈ s.records.entries, ∀ p ∈ s.processes.entries,
    p.profileId = record.profileId → p.processId ≤ record.process
  numbered : ∀ p ∈ s.processes.entries, p.processId < s.nextProcess
  owned : ∀ record ∈ s.records.entries, ∃ p, s.processes.get? record.process = some p ∧
    p.profileId = record.profileId
  since : ∀ restart ∈ s.restarts.entries, restart.since ≤ s.nextProcess
  restarted : ∀ entry ∈ s.restarted, ∃ p ∈ s.processes.entries,
    p.profileId = entry.1 ∧ entry.2 ≤ p.processId

theorem consistent_noProfiles : Consistent noProfiles where
  current := fun _ h => by cases h
  exited := fun _ h => by cases h
  newest := fun _ h => by cases h
  numbered := fun _ h => by cases h
  owned := fun _ h => by cases h
  since := fun _ h => by cases h
  restarted := fun _ h => by cases h

variable {s s' : Supervisor}

/-- Consistency is about the records, the processes and the restarts. -/
theorem Consistent.congr (h : Consistent s) (hrecords : s'.records = s.records)
    (hprocesses : s'.processes = s.processes) (hnext : s'.nextProcess = s.nextProcess)
    (hrestarts : s'.restarts = s.restarts) (hrestarted : s'.restarted = s.restarted) :
    Consistent s' := by
  constructor
  · rw [hprocesses, hrecords]
    exact h.current
  · rw [hprocesses, hrecords]
    exact h.exited
  · rw [hprocesses, hrecords]
    exact h.newest
  · rw [hprocesses, hnext]
    exact h.numbered
  · rw [hprocesses, hrecords]
    exact h.owned
  · rw [hrestarts, hnext]
    exact h.since
  · rw [hprocesses, hrestarted]
    exact h.restarted

variable {p : NodeProcess} {record : Record}

/-- A process that is not silent is the one of its profile's record. -/
theorem Consistent.process_eq (h : Consistent s) (hp : p ∈ s.processes.entries)
    (hphase : p.phase ≠ .silent)
    (hrecord : s.records.get? p.profileId = some record) : record.process = p.processId := by
  obtain ⟨found, hfound, hprocess⟩ := h.current p hp hphase
  rw [hrecord] at hfound
  rw [some_inj.mp hfound]
  exact hprocess

variable {label : Label}

/-- A step that runs the closure of a process finds it able to call back. -/
theorem not_silent_of_callback {processId : Nat}
    (hlabel : callbackOf label = some processId) (hs : step s label = some s')
    {process : NodeProcess} (hprocess : s.processes.get? processId = some process) :
    process.phase ≠ .silent := by
  intro hsilent
  obtain ⟨number, profileId, phase⟩ := process
  cases hsilent
  cases label with
  | line | exitCallback =>
    cases hlabel
    simp only [step, hprocess] at hs
    cases hs
  | launch named outcome =>
    cases outcome <;> cases hlabel
    simp only [step, hprocess] at hs
    cases hs
  | _ => cases hlabel

theorem Consistent.identified (h : Consistent s) : Identified s where
  callbacks := by
    intro label processId hlabel process hprocess record hrecord hother s' hs
    have hphase := not_silent_of_callback hlabel hs hprocess
    have hsame := h.process_eq (mem_of_get? hprocess) hphase hrecord
    exact absurd (hsame.trans (key_of_get? hprocess)) hother
  single := by
    have hlive : ∀ p : NodeProcess, p.Live → p.phase ≠ .silent := by
      rintro p (hmade | hrunning) hsilent
      · rw [hmade] at hsilent
        cases hsilent
      · rw [hrunning] at hsilent
        cases hsilent
    intro p hp q hq hprofile hplive hqlive
    obtain ⟨record, hrecord, hprocess⟩ := h.current p hp (hlive p hplive)
    rw [hprofile] at hrecord
    have hsame := h.process_eq hq (hlive q hqlive) hrecord
    exact s.processes.eq_of_key_eq hp hq (hprocess.symm.trans hsame)
  restarted := h.restarted

/-! ## What keeps the processes current -/

theorem consistent_setPhase (h : Consistent s)
    (hp : s.processes.get? p.processId = some p) (hphase : p.phase ≠ .silent) (phase : Phase) :
    Consistent (s.setPhase p phase) := by
  have hmem := mem_of_get? hp
  constructor
  · intro q hq hqphase
    rcases mem_put.mp hq with rfl | ⟨hq, -⟩
    · exact h.current p hmem hphase
    · exact h.current q hq hqphase
  · intro record hrecord hexited q hq
    rw [Supervisor.setPhase, Table.get?_put] at hq
    split at hq
    · rename_i hsame
      exact absurd (h.exited record hrecord hexited p (hsame ▸ hp)) hphase
    · exact h.exited record hrecord hexited q hq
  · intro record hrecord q hq hprofile
    rcases mem_put.mp hq with rfl | ⟨hq, -⟩
    · exact h.newest record hrecord p hmem hprofile
    · exact h.newest record hrecord q hq hprofile
  · intro q hq
    rcases mem_put.mp hq with rfl | ⟨hq, -⟩
    · exact h.numbered p hmem
    · exact h.numbered q hq
  · intro record hrecord
    obtain ⟨q, hq, hprofile⟩ := h.owned record hrecord
    rw [Supervisor.setPhase, Table.get?_put]
    split
    · rename_i hsame
      rw [← hsame, show _ = _ from hp] at hq
      rw [← some_inj.mp hq] at hprofile
      exact ⟨_, rfl, hprofile⟩
    · exact ⟨q, hq, hprofile⟩
  · exact h.since
  · intro entry hentry
    obtain ⟨q, hq, hprofile, hle⟩ := h.restarted entry hentry
    by_cases hsame : q.processId = p.processId
    · have hqp : q = p := s.processes.eq_of_key_eq hq hmem hsame
      rw [hqp] at hprofile hle
      exact ⟨{ p with phase := phase }, mem_put.mpr (.inl rfl), hprofile, hle⟩
    · exact ⟨q, mem_put.mpr (.inr ⟨hq, hsame⟩), hprofile, hle⟩

variable {profileId : String}

section

variable (h : Consistent s)
include h

/-- A record may change what it shows of its process. -/
theorem consistent_putRecord {record' : Record}
    (hrecord : s.records.get? profileId = some record)
    (hprofile : record'.profile = record.profile) (hprocess : record'.process = record.process)
    (hexited : record'.exited = true →
      ∀ p, s.processes.get? record.process = some p → p.phase = .silent) :
    Consistent { s with records := s.records.put record' } := by
  have hmem := mem_of_get? hrecord
  have howner : record'.profileId = record.profileId := congrArg Profile.id hprofile
  have hid : record'.profileId = profileId := howner.trans (key_of_get? hrecord)
  constructor
  · intro p hp hphase
    obtain ⟨found, hfound, hfoundProcess⟩ := h.current p hp hphase
    simp only [Table.get?_put]
    split
    · rename_i hsame
      rw [hid.symm.trans hsame] at hrecord
      rw [hrecord] at hfound
      rw [← some_inj.mp hfound] at hfoundProcess
      exact ⟨record', rfl, hprocess.trans hfoundProcess⟩
    · exact ⟨found, hfound, hfoundProcess⟩
  · intro other hother
    rcases mem_put.mp hother with rfl | ⟨hother, -⟩
    · rw [hprocess]
      exact hexited
    · exact h.exited other hother
  · intro other hother
    rcases mem_put.mp hother with rfl | ⟨hother, -⟩
    · rw [hprocess, howner]
      exact h.newest record hmem
    · exact h.newest other hother
  · exact h.numbered
  · intro other hother
    rcases mem_put.mp hother with rfl | ⟨hother, -⟩
    · rw [hprocess, howner]
      exact h.owned record hmem
    · exact h.owned other hother
  · exact h.since
  · exact h.restarted

/-- The record of a profile whose processes are all silent may go. -/
theorem consistent_eraseRecord
    (hsilent : AllSilent s profileId) :
    Consistent { s with records := s.records.erase profileId } := by
  constructor
  · intro p hp hphase
    obtain ⟨record, hrecord, hprocess⟩ := h.current p hp hphase
    refine ⟨record, ?_, hprocess⟩
    have hother : profileId ≠ p.profileId := fun hsame => hphase (hsilent p hp hsame.symm)
    exact (Table.get?_erase_of_ne s.records hother).trans hrecord
  · exact fun record hrecord => h.exited record (mem_erase.mp hrecord).1
  · exact fun record hrecord => h.newest record (mem_erase.mp hrecord).1
  · exact h.numbered
  · exact fun record hrecord => h.owned record (mem_erase.mp hrecord).1
  · exact h.since
  · exact h.restarted

theorem consistent_handleLine (profileId line : String) :
    Consistent (s.handleLine profileId line) := by
  rw [Supervisor.handleLine]
  cases hrecord : s.records.get? profileId with
  | none => exact h
  | some record =>
    have hexited := h.exited record (mem_of_get? hrecord)
    have hput : Consistent { s with
        records := s.records.put { record with status := onLine record.status line } } :=
      consistent_putRecord h hrecord rfl rfl hexited
    exact hput.congr rfl rfl rfl rfl rfl

theorem consistent_handleExit (code : Int)
    (hsilent : AllSilent s profileId) : Consistent (s.handleExit profileId code) := by
  rw [Supervisor.handleExit]
  cases hrecord : s.records.get? profileId with
  | none => exact h
  | some record =>
    dsimp only
    split
    · exact (consistent_eraseRecord h hsilent).congr rfl rfl rfl rfl rfl
    · have hid : record.profileId = profileId := key_of_get? hrecord
      have hput : Consistent { s with
          records := s.records.put { record with status := onExit false, exited := true } } := by
        refine consistent_putRecord h hrecord rfl rfl ?_
        intro _ p hp
        obtain ⟨owner, howner, hprofile⟩ := h.owned record (mem_of_get? hrecord)
        rw [howner] at hp
        rw [← some_inj.mp hp]
        exact hsilent owner (mem_of_get? howner) (hprofile.trans hid)
      exact hput.congr rfl rfl rfl rfl rfl

/-- When the process that could still call back falls silent, its profile is silent. -/
theorem allSilent_setPhase
    (hp : s.processes.get? p.processId = some p) (hphase : p.phase ≠ .silent) :
    AllSilent (s.setPhase p .silent) p.profileId := by
  obtain ⟨record, hrecord, hprocess⟩ := h.current p (mem_of_get? hp) hphase
  intro q hq hprofile
  rcases mem_put.mp hq with rfl | ⟨hq, hne⟩
  · rfl
  · by_contra hqphase
    rw [← hprofile] at hrecord
    have hsame := h.process_eq hq hqphase hrecord
    exact hne (hsame.symm.trans hprocess)

theorem consistent_stop (profileId : String) : Consistent (s.stop profileId) := by
  rw [Supervisor.stop]
  cases hrecord : s.records.get? profileId with
  | none => exact h
  | some record =>
    have hmem := mem_of_get? hrecord
    have hid : record.profileId = profileId := key_of_get? hrecord
    dsimp only
    split
    · rename_i hexited
      have hsilent : AllSilent s profileId := by
        intro p hp hprofile
        by_contra hphase
        rw [← hprofile] at hrecord
        have hsame := h.process_eq hp hphase hrecord
        have hget := Table.get?_of_mem hp
        rw [← hsame] at hget
        exact hphase (h.exited record hmem hexited p hget)
      exact (consistent_eraseRecord h hsilent).congr rfl rfl rfl rfl rfl
    · have hput : Consistent { s with
          records := s.records.put (Supervisor.expectStop record) } :=
        consistent_putRecord h hrecord rfl rfl (h.exited record hmem)
      exact hput.congr rfl rfl rfl rfl rfl

end

theorem mem_stopAll : record ∈ s.stopAll.records.entries ↔
    ∃ old ∈ s.records.entries, Supervisor.expectStop old = record := by
  change record ∈ (s.records.mapValues Supervisor.expectStop fun _ => rfl).entries ↔ _
  exact mem_mapValues

theorem consistent_stopAll (h : Consistent s) : Consistent s.stopAll := by
  constructor
  · intro p hp hphase
    obtain ⟨record, hrecord, hprocess⟩ := h.current p hp hphase
    have hget := Table.get?_mapValues s.records Supervisor.expectStop (fun _ => rfl) p.profileId
    rw [hrecord] at hget
    exact ⟨Supervisor.expectStop record, hget, hprocess⟩
  · intro record hrecord
    obtain ⟨old, hold, rfl⟩ := mem_stopAll.mp hrecord
    exact h.exited old hold
  · intro record hrecord
    obtain ⟨old, hold, rfl⟩ := mem_stopAll.mp hrecord
    exact h.newest old hold
  · exact h.numbered
  · intro record hrecord
    obtain ⟨old, hold, rfl⟩ := mem_stopAll.mp hrecord
    exact h.owned old hold
  · exact h.since
  · exact h.restarted

theorem runsSince_iff :
    RunsSince s profileId 0 ↔
      (s.records.get? profileId).any (fun existing => s.isRunning existing.process) = true := by
  rw [any_eq_true]
  constructor
  · rintro ⟨record, hrecord, hrunning, -⟩
    exact ⟨record, hrecord, hrunning⟩
  · rintro ⟨record, hrecord, hrunning⟩
    exact ⟨record, hrecord, hrunning, Nat.zero_le _⟩

variable {profile : Profile}

theorem start_of_running (h : RunsSince s profile.id 0) : s.start profile = s := by
  rw [Supervisor.start, if_pos (runsSince_iff.mp h)]

/-- A start that does not find its profile running makes a process and its record. -/
theorem start_of_not_running (h : ¬ RunsSince s profile.id 0) :
    s.start profile =
      { s with
        records := s.records.put
          { profile := profile, process := s.nextProcess, status := .starting }
        processes := s.processes.put ⟨s.nextProcess, profile.id, .made⟩
        nextProcess := s.nextProcess + 1
        events := s.events ++ [.started profile.id profile.label] } := by
  rw [Supervisor.start, if_neg fun hrunning => h (runsSince_iff.mpr hrunning)]

theorem consistent_start (h : Consistent s) (profile : Profile)
    (horder : RunsSince s profile.id 0 ∨ AllSilent s profile.id) :
    Consistent (s.start profile) := by
  by_cases hruns : RunsSince s profile.id 0
  · rw [start_of_running hruns]
    exact h
  · have hsilent := horder.resolve_left hruns
    rw [start_of_not_running hruns]
    constructor
    · intro p hp hphase
      simp only [Table.get?_put]
      rcases mem_put.mp hp with rfl | ⟨hp, -⟩
      · exact ⟨_, if_pos rfl, rfl⟩
      · have hother : profile.id ≠ p.profileId := fun hsame => hphase (hsilent p hp hsame.symm)
        split
        · rename_i hsame
          exact absurd hsame hother
        · exact h.current p hp hphase
    · intro record hrecord hexited p hp
      rcases mem_put.mp hrecord with rfl | ⟨hrecord, -⟩
      · cases hexited
      · obtain ⟨owner, howner, -⟩ := h.owned record hrecord
        have hnumber := h.numbered owner (mem_of_get? howner)
        have hid : owner.processId = record.process := key_of_get? howner
        have hne : s.nextProcess ≠ record.process := by omega
        simp only [Table.get?_put, if_neg hne] at hp
        exact h.exited record hrecord hexited p hp
    · intro record hrecord p hp hprofile
      rcases mem_put.mp hrecord with rfl | ⟨hrecord, hother⟩
      · rcases mem_put.mp hp with rfl | ⟨hp, -⟩
        · exact Nat.le_refl _
        · exact Nat.le_of_lt (h.numbered p hp)
      · rcases mem_put.mp hp with rfl | ⟨hp, -⟩
        · exact absurd hprofile.symm hother
        · exact h.newest record hrecord p hp hprofile
    · intro p hp
      rcases mem_put.mp hp with rfl | ⟨hp, -⟩
      · exact Nat.lt_succ_self _
      · exact Nat.lt_succ_of_lt (h.numbered p hp)
    · intro record hrecord
      simp only [Table.get?_put]
      rcases mem_put.mp hrecord with rfl | ⟨hrecord, -⟩
      · exact ⟨_, if_pos rfl, rfl⟩
      · obtain ⟨owner, howner, hprofile⟩ := h.owned record hrecord
        have hnumber := h.numbered owner (mem_of_get? howner)
        have hid : owner.processId = record.process := key_of_get? howner
        have hne : s.nextProcess ≠ record.process := by omega
        rw [if_neg hne]
        exact ⟨owner, howner, hprofile⟩
    · exact fun restart hrestart => Nat.le_succ_of_le (h.since restart hrestart)
    · intro entry hentry
      obtain ⟨p, hp, hrest⟩ := h.restarted entry hentry
      have hne : p.processId ≠ s.nextProcess := Nat.ne_of_lt (h.numbered p hp)
      exact ⟨p, mem_put.mpr (.inr ⟨hp, hne⟩), hrest⟩

/-- A start in order leaves a process that is new enough. -/
theorem new_process_of_start (h : Consistent s) (profile : Profile) {since : Nat}
    (hsince : since ≤ s.nextProcess)
    (horder : RunsSince s profile.id since ∨ AllSilent s profile.id) :
    ∃ p ∈ (s.start profile).processes.entries, p.profileId = profile.id ∧ since ≤ p.processId := by
  by_cases hruns : RunsSince s profile.id 0
  · rw [start_of_running hruns]
    have hnew : RunsSince s profile.id since := by
      refine horder.resolve_right fun hsilent => ?_
      obtain ⟨record, hrecord, hrunning, -⟩ := hruns
      obtain ⟨p, hp, hprofile⟩ := h.owned record (mem_of_get? hrecord)
      have hphase := hsilent p (mem_of_get? hp)
        (hprofile.trans (key_of_get? hrecord))
      rw [Supervisor.isRunning, hp, any_some, hphase] at hrunning
      cases hrunning
    obtain ⟨record, hrecord, -, hle⟩ := hnew
    obtain ⟨p, hp, hprofile⟩ := h.owned record (mem_of_get? hrecord)
    have hid : p.processId = record.process := key_of_get? hp
    exact ⟨p, mem_of_get? hp, hprofile.trans (key_of_get? hrecord), by omega⟩
  · rw [start_of_not_running hruns]
    exact ⟨⟨s.nextProcess, profile.id, .made⟩, mem_put.mpr (.inl rfl), rfl, hsince⟩

/-! ## Runs -/

theorem consistent_report (h : Consistent s)
    (hp : s.processes.get? p.processId = some p) (hphase : p.phase ≠ .silent) (code : Int) :
    Consistent ((s.setPhase p .silent).handleExit p.profileId code) := by
  have hsilent := consistent_setPhase h hp hphase .silent
  exact consistent_handleExit hsilent code (allSilent_setPhase h hp hphase)

theorem nextProcess_stop (profileId : String) : (s.stop profileId).nextProcess = s.nextProcess := by
  rw [Supervisor.stop]
  split <;> rfl

theorem consistent_step (h : Consistent s) (hs : step s label = some s')
    (horder : StartsInOrder s label) : Consistent s' := by
  cases label with
  | start profile =>
    cases hs
    exact consistent_start h profile horder
  | stop profileId =>
    cases hs
    exact consistent_stop h profileId
  | stopAll =>
    cases hs
    exact consistent_stopAll h
  | restart callId profile =>
    simp only [step] at hs
    split at hs
    · cases hs
    · cases hs
      have hstop := consistent_stop h profile.id
      refine ⟨hstop.current, hstop.exited, hstop.newest, hstop.numbered, hstop.owned, ?_,
        hstop.restarted⟩
      intro restart hrestart
      simp only [nextProcess_stop]
      rcases mem_put.mp hrestart with rfl | ⟨hrestart, -⟩
      · exact Nat.le_refl _
      · exact h.since restart hrestart
  | stopReturns callId =>
    simp only [step] at hs
    split at hs
    · cases hs
    · rename_i restart hfound
      split at hs
      · cases hs
      · cases hs
        refine ⟨h.current, h.exited, h.newest, h.numbered, h.owned, ?_, h.restarted⟩
        intro other hother
        rcases mem_put.mp hother with rfl | ⟨hother, -⟩
        · exact h.since restart (mem_of_get? hfound)
        · exact h.since other hother
  | restartStarts callId =>
    simp only [step] at hs
    split at hs
    · cases hs
    · rename_i restart hfound
      split at hs
      · cases hs
        have hsince := h.since restart (mem_of_get? hfound)
        have hstarts := horder restart hfound
        have hstart := consistent_start h restart.profile <| hstarts.imp_left fun hruns => by
          obtain ⟨record, hrecord, hrunning, -⟩ := hruns
          exact ⟨record, hrecord, hrunning, Nat.zero_le _⟩
        refine ⟨hstart.current, hstart.exited, hstart.newest, hstart.numbered, hstart.owned, ?_, ?_⟩
        · intro other hother
          refine Nat.le_trans (h.since other (mem_erase.mp hother).1) ?_
          rw [Supervisor.start]
          split
          · exact Nat.le_refl _
          · exact Nat.le_succ _
        · intro entry hentry
          rcases List.mem_append.mp hentry with hold | hnew
          · refine hstart.restarted entry ?_
            rw [Supervisor.start]
            split <;> exact hold
          · rw [List.mem_singleton.mp hnew]
            exact new_process_of_start h restart.profile hsince hstarts
      · cases hs
  | launch processId outcome =>
    simp only [step] at hs
    split at hs
    · rename_i number profileId hfound
      have hid : number = processId := key_of_get? hfound
      subst hid
      have hphase : Phase.made ≠ .silent := by decide
      cases outcome with
      | launched =>
        cases hs
        exact consistent_setPhase h hfound hphase .running
      | failed =>
        cases hs
        exact consistent_report h hfound hphase 127
      | ignored =>
        cases hs
        exact consistent_setPhase h hfound hphase .silent
    · cases hs
  | exits processId code =>
    simp only [step] at hs
    split at hs
    · rename_i number profileId hfound
      have hid : number = processId := key_of_get? hfound
      subst hid
      cases hs
      exact consistent_setPhase h hfound (fun hsame => by cases hsame) (.exited code)
    · cases hs
  | line processId line =>
    simp only [step] at hs
    split at hs
    · cases hs
      exact consistent_handleLine h _ line
    · cases hs
      exact consistent_handleLine h _ line
    · cases hs
  | exitCallback processId =>
    simp only [step] at hs
    split at hs
    · rename_i number profileId code hfound
      have hid : number = processId := key_of_get? hfound
      subst hid
      cases hs
      exact consistent_report h hfound (fun hsame => by cases hsame) code
    · cases hs

/-- After a start over a process that may still call back, a callback reaches the wrong record or
two processes are live. -/
theorem allSilent_of_identified {s₁ : Supervisor} (h : Consistent s)
    (hruns : ¬ RunsSince s profile.id 0) (hrecords : s₁.records = (s.start profile).records)
    (hprocesses : s₁.processes = (s.start profile).processes) (hlaw : Identified s₁) :
    AllSilent s profile.id := by
  rw [start_of_not_running hruns] at hrecords hprocesses
  intro p hp hprofile
  by_contra hphase
  obtain ⟨record, hrecord, hprocess⟩ := h.current p hp hphase
  have hnumber := h.numbered p hp
  have hne : p.processId ≠ s.nextProcess := Nat.ne_of_lt hnumber
  have hkept : p ∈ s₁.processes.entries := by
    rw [hprocesses]
    exact mem_put.mpr (.inr ⟨hp, hne⟩)
  have hmade : (⟨s.nextProcess, profile.id, .made⟩ : NodeProcess) ∈ s₁.processes.entries := by
    rw [hprocesses]
    exact mem_put.mpr (.inl rfl)
  have hnotLive : ¬ p.Live := by
    intro hlive
    have hsame := hlaw.single p hkept _ hmade hprofile hlive (.inl rfl)
    exact hne (congrArg NodeProcess.processId hsame)
  have hget : s₁.processes.get? p.processId = some p := Table.get?_of_mem hkept
  have hnew : s₁.records.get? p.profileId =
      some { profile := profile, process := s.nextProcess, status := .starting } := by
    rw [hrecords, hprofile]
    exact Table.get?_put_self _ _
  obtain ⟨processId, profileId, phase⟩ := p
  cases phase with
  | made => exact hnotLive (.inl rfl)
  | running => exact hnotLive (.inr rfl)
  | silent => exact hphase rfl
  | exited code =>
    -- a late line of the old process would show in the new record
    have hstep : step s₁ (.line processId "[ready]") =
        some (s₁.handleLine profileId "[ready]") := by
      simp only [step, hget]
    have hsame := hlaw.callbacks (.line processId "[ready]") processId rfl _ hget _ hnew
      (Ne.symm hne) _ hstep
    rw [Supervisor.handleLine, hnew] at hsame
    have hput := Table.get?_put_self s₁.records
      ({ profile := profile, process := s.nextProcess, status := onLine .starting "[ready]" } :
        Record)
    have hid : profile.id = profileId := hprofile.symm
    rw [Record.profileId, hid] at hput
    rw [hput] at hsame
    have hstatus := congrArg (Option.map Record.status) hsame
    simp only [map_some, some.injEq] at hstatus
    exact absurd hstatus (by decide)

theorem startsInOrder_of_identified (h : Consistent s)
    (hs : step s label = some s') (hlaw : Identified s') : StartsInOrder s label := by
  cases label with
  | start profile =>
    cases hs
    by_cases hruns : RunsSince s profile.id 0
    · exact .inl hruns
    · exact .inr (allSilent_of_identified h hruns rfl rfl hlaw)
  | restartStarts callId =>
    intro restart hfound
    simp only [step, hfound] at hs
    split at hs
    · cases hs
      by_cases hruns : RunsSince s restart.profile.id 0
      · left
        obtain ⟨record, hrecord, hrunning, -⟩ := hruns
        have hmem := mem_of_get? hrecord
        have hid : record.profileId = restart.profile.id := key_of_get? hrecord
        obtain ⟨p, hp, hprofile, hle⟩ := hlaw.restarted (restart.profile.id, restart.since)
          (List.mem_append_right _ (List.mem_singleton_self _))
        rw [start_of_running ⟨record, hrecord, hrunning, Nat.zero_le _⟩] at hp
        have hnewest := h.newest record hmem p hp (hprofile.trans hid.symm)
        exact ⟨record, hrecord, hrunning, Nat.le_trans hle hnewest⟩
      · right
        apply allSilent_of_identified h hruns _ _ hlaw <;> rfl
    · cases hs
  | _ => trivial

/-- Processes are told apart throughout a run exactly if each start finds its profile running or
comes after the last callback of each earlier process. -/
theorem identified_iff (labels : List Label) :
    supervisorSystem.Always Identified noProfiles labels ↔
      supervisorSystem.Along StartsInOrder noProfiles labels := by
  constructor
  · intro hlaw
    refine System.Always.along (Q := fun _ _ => True) ?_ ?_ hlaw consistent_noProfiles
      (System.along_true _ _)
    · exact fun s label s' h horder hs => consistent_step h hs horder
    · exact fun s label s' h _ hs hlater => startsInOrder_of_identified h hs hlater
  · intro horder
    have hconsistent : supervisorSystem.Always Consistent noProfiles labels :=
      horder.always consistent_noProfiles fun s label s' h hlabel hs => consistent_step h hs hlabel
    exact hconsistent.mono fun _ h => h.identified

/-! ## A process that reports late -/

def homeProfile : Profile := ⟨"p1", "Home"⟩

/-- The process exits, and its profile is started again before its exit is reported. -/
def lateExit : List Label :=
  [.start homeProfile, .launch 0 .launched, .exits 0 1, .start homeProfile,
    .launch 1 .launched]

/-- The exit of the old process is taken for that of the new one. -/
theorem late_exit_marks_new_process :
    ¬ ∀ labels : List Label, supervisorSystem.Always Identified noProfiles labels := by
  intro hall
  have hrun : supervisorSystem.run noProfiles lateExit =
      some (supervisorSystem.target noProfiles lateExit) := System.run_eq_target (by decide)
  have hlaw := (hall lateExit).at_end hrun
  have hsame := hlaw.callbacks (.exitCallback 0) 0 rfl ⟨0, "p1", .exited 1⟩ (by decide)
    { profile := homeProfile, process := 1, status := .starting } (by decide) (by decide)
  have hlate : (step (supervisorSystem.target noProfiles lateExit) (.exitCallback 0)).map
      (fun s => (s.records.get? "p1").map Record.exited) = some (some true) := by decide
  obtain ⟨s', hs', hexited⟩ := map_eq_some_iff.mp hlate
  rw [hsame s' hs'] at hexited
  cases hexited

end Newbro.ProfileSupervisor
