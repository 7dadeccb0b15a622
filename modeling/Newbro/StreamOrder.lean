import Newbro.SessionStream

/-!
# Stream order

Numbers are drawn in the order in which events are built, and every queue keeps that order.
What a snapshot shows was read before its number was drawn, so only a snapshot that waits for
the nodes can show less than one that was numbered before it.
-/
namespace Newbro.SessionStream

open Library Snapshots Option Table

variable {α : Type}

/-! ## One client -/

/-- What the client has been sent and what is still on its way. -/
def Client.stream (client : Client α) : List (Event α) :=
  client.delivered ++ client.sending.toList ++ client.queue

/-- The stream of a client is sorted, and made of events that the session has built. -/
structure Client.Sound (built : List (Event α)) (client : Client α) : Prop where
  sorted : client.stream.Pairwise fun e f => e.sequence < f.sequence
  known : ∀ e ∈ client.stream, e ∈ built

variable {built : List (Event α)} {client : Client α}

theorem Client.Sound.congr {client' : Client α}
    (h : client.Sound built) (hstream : client'.stream = client.stream) : client'.Sound built := by
  refine ⟨?_, ?_⟩
  · rw [hstream]
    exact h.sorted
  · rw [hstream]
    exact h.known

theorem Client.Sound.mono (h : client.Sound built)
    (event : Event α) : client.Sound (built ++ [event]) :=
  ⟨h.sorted, fun e he => List.mem_append_left _ (h.known e he)⟩

variable {event : Event α}

/-- A new event has a higher number than everything on its way. -/
theorem Client.Sound.enqueue (h : client.Sound built)
    (hnew : ∀ e ∈ built, e.sequence < event.sequence) :
    (client.enqueue event).Sound (built ++ [event]) := by
  have hstream : (client.enqueue event).stream = client.stream ++ [event] := by
    simp [Client.stream, Client.enqueue]
  refine ⟨?_, fun e he => ?_⟩
  · rw [hstream]
    refine List.pairwise_append.mpr ⟨h.sorted, List.pairwise_singleton _ _, ?_⟩
    intro e he f hf
    rw [List.mem_singleton.mp hf]
    exact hnew e (h.known e he)
  · rw [hstream] at he
    rcases List.mem_append.mp he with he | he
    · exact List.mem_append_left _ (h.known e he)
    · exact List.mem_append_right _ he

theorem Client.Sound.delivered
    (h : client.Sound built) :
    client.delivered.Pairwise (fun e f => e.sequence < f.sequence) ∧
      ∀ e ∈ client.delivered, e ∈ built := by
  have hpart := h.sorted
  rw [Client.stream, List.append_assoc] at hpart
  refine ⟨(List.pairwise_append.mp hpart).1, fun e he => h.known e ?_⟩
  rw [Client.stream, List.append_assoc]
  exact List.mem_append_left _ he

/-! ## The session -/

/-- Numbers and moments of the events so far, and the streams of the clients. -/
structure Numbered (s : State α) : Prop where
  drawn : ∀ e ∈ s.built, e.sequence < s.nextSequence ∧ e.builtAt < s.clock ∧ e.readAt < s.clock
  chronological : ∀ e ∈ s.built, ∀ f ∈ s.built, e.sequence < f.sequence → e.builtAt ≤ f.builtAt
  clients : ∀ client ∈ s.clients.entries, client.Sound s.built
  started : ∀ sync ∈ s.syncs.entries, sync.startedAt < s.clock

/-- The numbers alone give the first two parts of the law. -/
theorem Numbered.law {s : State α} (h : Numbered s)
    (hforward : ∀ e ∈ s.built, ∀ f ∈ s.built, e.sequence < f.sequence → ¬ f.Older e) :
    StreamLaw s := by
  refine ⟨fun client hclient => ?_, fun client hclient => ?_, hforward⟩
  · exact (h.clients client hclient).delivered.1
  · obtain ⟨hsorted, hknown⟩ := (h.clients client hclient).delivered
    refine hsorted.imp_of_mem fun he hf hlt _ => ?_
    exact h.chronological _ (hknown _ he) _ (hknown _ hf) hlt

section

variable {s s' : State α}

/-- A step that builds no event. -/
theorem Numbered.of_quiet (h : Numbered s) (hbuilt : s'.built = s.built)
    (hnext : s'.nextSequence = s.nextSequence) (hclock : s'.clock = s.clock)
    (hclients : ∀ client ∈ s'.clients.entries, client.Sound s.built)
    (hsyncs : ∀ sync ∈ s'.syncs.entries, sync.startedAt ≤ s.clock) :
    Numbered { s' with clock := s'.clock + 1 } := by
  refine ⟨fun e he => ?_, fun e he f hf => ?_, fun client hclient => ?_, fun sync hsync => ?_⟩
  · have hdrawn := h.drawn e (hbuilt ▸ he)
    show e.sequence < s'.nextSequence ∧ e.builtAt < s'.clock + 1 ∧ e.readAt < s'.clock + 1
    omega
  · exact h.chronological e (hbuilt ▸ he) f (hbuilt ▸ hf)
  · have hsound := hclients client hclient
    rwa [← hbuilt] at hsound
  · have hstarted := hsyncs sync hsync
    show sync.startedAt < s'.clock + 1
    omega

/-- A step that builds one event. -/
theorem Numbered.of_built (h : Numbered s) (content : Content α) {readAt : Nat}
    (hread : readAt ≤ s.clock) (hbuilt : s'.built = s.built ++ [s.build content readAt])
    (hnext : s'.nextSequence = s.nextSequence + 1) (hclock : s'.clock = s.clock)
    (hclients : ∀ client ∈ s'.clients.entries, client.Sound (s.built ++ [s.build content readAt]))
    (hsyncs : ∀ sync ∈ s'.syncs.entries, sync.startedAt ≤ s.clock) :
    Numbered { s' with clock := s'.clock + 1 } := by
  have hin : ∀ e ∈ s'.built, e ∈ s.built ∨ e = s.build content readAt := by
    intro e he
    rw [hbuilt, List.mem_append, List.mem_singleton] at he
    exact he
  refine ⟨fun e he => ?_, fun e he f hf hlt => ?_, fun client hclient => ?_, fun sync hsync => ?_⟩
  · show e.sequence < s'.nextSequence ∧ e.builtAt < s'.clock + 1 ∧ e.readAt < s'.clock + 1
    rw [hnext, hclock]
    rcases hin e he with he | rfl
    · have hdrawn := h.drawn e he
      omega
    · show s.nextSequence < s.nextSequence + 1 ∧ s.clock < s.clock + 1 ∧ readAt < s.clock + 1
      omega
  · rcases hin e he with he | rfl
    · rcases hin f hf with hf | rfl
      · exact h.chronological e he f hf hlt
      · exact (h.drawn e he).2.1.le
    · rcases hin f hf with hf | rfl
      · -- the new event has the highest number
        have hdrawn := (h.drawn f hf).1
        have hlt : s.nextSequence < f.sequence := hlt
        omega
      · exact absurd hlt (lt_irrefl _)
  · have hsound := hclients client hclient
    rwa [← hbuilt] at hsound
  · have hstarted := hsyncs sync hsync
    show sync.startedAt < s'.clock + 1
    omega

theorem Numbered.fresh (h : Numbered s) (content : Content α) (readAt : Nat) :
    ∀ e ∈ s.built, e.sequence < (s.build content readAt).sequence :=
  fun e he => (h.drawn e he).1

theorem mem_broadcastEvent (h : client ∈ (broadcastEvent s event).clients.entries) :
    client ∈ s.clients.entries ∨ ∃ before ∈ s.clients.entries, client = before.enqueue event := by
  obtain ⟨before, hbefore, rfl⟩ := List.mem_map.mp h
  split
  · exact .inr ⟨before, hbefore, rfl⟩
  · exact .inl hbefore

/-- A broadcast reaches the end of the queues. -/
theorem Numbered.broadcast (h : Numbered s) {t : State α} (content : Content α) {readAt : Nat}
    (hread : readAt ≤ s.clock) (hbuilt : t.built = s.built)
    (hnext : t.nextSequence = s.nextSequence) (hclock : t.clock = s.clock)
    (hclients : t.clients = s.clients) (hsyncs : ∀ sync ∈ t.syncs.entries, sync ∈ s.syncs.entries) :
    Numbered { broadcastEvent t (s.build content readAt) with
      clock := (broadcastEvent t (s.build content readAt)).clock + 1 } := by
  refine h.of_built content hread ?_ ?_ hclock (fun client hclient => ?_)
    fun sync hsync => (h.started sync (hsyncs sync hsync)).le
  · show t.built ++ [s.build content readAt] = s.built ++ [s.build content readAt]
    rw [hbuilt]
  · show t.nextSequence + 1 = _
    rw [hnext]
  · rcases mem_broadcastEvent hclient with hclient | ⟨before, hbefore, rfl⟩
    · exact (h.clients client (hclients ▸ hclient)).mono _
    · exact (h.clients before (hclients ▸ hbefore)).enqueue (h.fresh content readAt)

end

/-! ## Steps -/

variable {cfg : Config α} {s s' : State α}

theorem Numbered.step {label : Label} (h : Numbered s) (hs : step cfg s label = some s') :
    Numbered s' := by
  obtain ⟨t, ht, rfl⟩ := map_eq_some_iff.mp hs
  cases label with
  | session label =>
    obtain ⟨session, -, rfl⟩ := map_eq_some_iff.mp ht
    exact h.of_quiet rfl rfl rfl h.clients fun sync hsync => (h.started sync hsync).le
  | broadcast payload =>
    cases some.inj ht
    exact h.broadcast (.other payload) le_rfl rfl rfl rfl rfl fun _ hsync => hsync
  | publishPrivate clientId payload =>
    obtain ⟨client, hclient, rfl⟩ := map_eq_some_iff.mp ht
    refine h.of_built (.other payload) le_rfl rfl rfl rfl ?_
      fun sync hsync => (h.started sync hsync).le
    refine forall_put (fun other hother => (h.clients other hother).mono _) ?_
    exact (h.clients client (mem_of_get? hclient)).enqueue (h.fresh _ _)
  | publishSnapshot =>
    cases some.inj ht
    exact h.broadcast (.snapshot (snapshot cfg.project s.session)) le_rfl rfl rfl rfl rfl fun _ hsync => hsync
  | beginSync syncId =>
    simp only [act] at ht
    split_ifs at ht
    cases some.inj ht
    refine h.of_quiet rfl rfl rfl h.clients ?_
    exact forall_put (fun sync hsync => (h.started sync hsync).le) le_rfl
  | finishSync syncId imported =>
    obtain ⟨sync, hsync, rfl⟩ := map_eq_some_iff.mp ht
    have hstarted := h.started sync (mem_of_get? hsync)
    exact h.broadcast _ hstarted.le rfl rfl rfl rfl fun _ hin => (mem_erase.mp hin).1
  | cancelSync syncId =>
    cases some.inj ht
    exact h.of_quiet rfl rfl rfl h.clients fun sync hsync =>
      (h.started sync (mem_erase.mp hsync).1).le
  | connect clientId =>
    have ht : connect cfg s clientId = some t := ht
    rw [connect] at ht
    split_ifs at ht
    cases some.inj ht
    refine h.of_built (.snapshot (snapshot cfg.project s.session)) le_rfl rfl rfl rfl
      ?_ fun sync hsync => (h.started sync hsync).le
    refine forall_put (fun other hother => (h.clients other hother).mono _) ⟨?_, ?_⟩
    · exact List.pairwise_singleton _ _
    · exact fun e he => List.mem_append_right _ he
  | take clientId =>
    have ht : take s clientId = some t := ht
    rw [take] at ht
    split at ht
    · rename_i id event queue delivered hclient
      cases some.inj ht
      refine h.of_quiet rfl rfl rfl ?_ fun sync hsync => (h.started sync hsync).le
      refine forall_put h.clients ((h.clients _ (mem_of_get? hclient)).congr ?_)
      simp [Client.stream]
    · cases ht
  | deliver clientId =>
    have ht : deliver s clientId = some t := ht
    rw [deliver] at ht
    split at ht
    · rename_i id queue event greeted delivered hclient
      cases some.inj ht
      refine h.of_quiet rfl rfl rfl ?_ fun sync hsync => (h.started sync hsync).le
      refine forall_put h.clients ((h.clients _ (mem_of_get? hclient)).congr ?_)
      simp [Client.stream]
    · cases ht
  | disconnect clientId =>
    obtain ⟨client, hclient, rfl⟩ := map_eq_some_iff.mp ht
    refine h.of_quiet rfl rfl rfl ?_ fun sync hsync => (h.started sync hsync).le
    exact forall_put h.clients ((h.clients _ (mem_of_get? hclient)).congr rfl)

theorem numbered_initial : Numbered (initialState : State α) where
  drawn e he := by cases he
  chronological e he := by cases he
  clients client hclient := by cases hclient
  started sync hsync := by cases hsync

/-! ## What a snapshot shows -/

def Forward (s : State α) : Prop :=
  ∀ e ∈ s.built, ∀ f ∈ s.built, e.sequence < f.sequence → ¬ f.Older e

/-- While the snapshot waited for its nodes, no snapshot of a blackboard that had changed was
built. -/
def InStep (s : State α) : Label → Prop
  | .finishSync syncId _ =>
    ∀ sync ∈ s.syncs.get? syncId, ∀ e ∈ s.built, sync.startedAt < e.readAt →
      ∀ shown ∈ e.shown?, shown = shownOf sync.copy
  | _ => True

theorem forward_of_built (h : Numbered s) (hbuilt : s'.built = s.built ++ [event])
    (hnumber : event.sequence = s.nextSequence) :
    Forward s' ↔ Forward s ∧ ∀ e ∈ s.built, ¬ event.Older e := by
  have hin : ∀ e, e ∈ s'.built ↔ e ∈ s.built ∨ e = event := by
    intro e
    rw [hbuilt, List.mem_append, List.mem_singleton]
  constructor
  · intro hforward
    refine ⟨fun e he f hf => hforward e ((hin e).mpr (.inl he)) f ((hin f).mpr (.inl hf)),
      fun e he => hforward e ((hin e).mpr (.inl he)) event ((hin event).mpr (.inr rfl)) ?_⟩
    rw [hnumber]
    exact (h.drawn e he).1
  · rintro ⟨hforward, hnew⟩ e he f hf hlt
    rcases (hin f).mp hf with hf | rfl
    · rcases (hin e).mp he with he | rfl
      · exact hforward e he f hf hlt
      · have hdrawn := (h.drawn f hf).1
        omega
    · rcases (hin e).mp he with he | rfl
      · exact hnew e he
      · exact absurd hlt (lt_irrefl _)

/-- What was read just now is older than nothing. -/
theorem forward_of_read (h : Numbered s) (content : Content α)
    (hbuilt : s'.built = s.built ++ [s.build content s.clock]) (hforward : Forward s) :
    Forward s' := by
  refine (forward_of_built h hbuilt rfl).mpr ⟨hforward, fun e he holder => ?_⟩
  have hread := (h.drawn e he).2.2
  have hlater : s.clock < e.readAt := holder.1
  omega

theorem forward_step_iff {label : Label} (h : Numbered s) (hforward : Forward s)
    (hs : step cfg s label = some s') : Forward s' ↔ InStep s label := by
  obtain ⟨t, ht, rfl⟩ := map_eq_some_iff.mp hs
  cases label with
  | session label =>
    obtain ⟨session, -, rfl⟩ := map_eq_some_iff.mp ht
    exact iff_of_true hforward trivial
  | broadcast payload =>
    cases some.inj ht
    exact iff_of_true (forward_of_read h (.other payload) rfl hforward) trivial
  | publishPrivate clientId payload =>
    obtain ⟨client, -, rfl⟩ := map_eq_some_iff.mp ht
    exact iff_of_true (forward_of_read h (.other payload) rfl hforward) trivial
  | publishSnapshot =>
    cases some.inj ht
    exact iff_of_true
      (forward_of_read h (.snapshot (snapshot cfg.project s.session)) rfl hforward) trivial
  | beginSync syncId =>
    simp only [act] at ht
    split_ifs at ht
    cases some.inj ht
    exact iff_of_true hforward trivial
  | finishSync syncId imported =>
    obtain ⟨sync, hsync, rfl⟩ := map_eq_some_iff.mp ht
    rw [forward_of_built h rfl rfl]
    constructor
    · rintro ⟨-, hnew⟩ other hother e he hlater shown hshown
      cases some.inj (hsync.symm.trans hother)
      by_contra hne
      exact hnew e he ⟨hlater, shownOf sync.copy, rfl, shown, hshown, Ne.symm hne⟩
    · intro hstep
      refine ⟨hforward, fun e he holder => ?_⟩
      obtain ⟨hlater, shown, hshown, shown', hshown', hne⟩ := holder
      have hsame := hstep sync hsync e he hlater shown' hshown'
      cases some.inj hshown
      exact hne hsame.symm
  | cancelSync syncId =>
    cases some.inj ht
    exact iff_of_true hforward trivial
  | connect clientId =>
    have ht : connect cfg s clientId = some t := ht
    rw [connect] at ht
    split_ifs at ht
    cases some.inj ht
    exact iff_of_true (forward_of_read h (.snapshot (snapshot cfg.project s.session)) rfl
      hforward) trivial
  | take clientId =>
    have ht : take s clientId = some t := ht
    rw [take] at ht
    split at ht
    · cases some.inj ht
      exact iff_of_true hforward trivial
    · cases ht
  | deliver clientId =>
    have ht : deliver s clientId = some t := ht
    rw [deliver] at ht
    split at ht
    · cases some.inj ht
      exact iff_of_true hforward trivial
    · cases ht
  | disconnect clientId =>
    obtain ⟨client, -, rfl⟩ := map_eq_some_iff.mp ht
    exact iff_of_true hforward trivial

/-- Along every run the stream keeps its order exactly if no snapshot that waited for its nodes
is overtaken by one of a changed blackboard. -/
theorem stream_law_always_iff (cfg : Config α) (labels : List Label) :
    (system cfg).Always StreamLaw initialState labels ↔
      (system cfg).Along InStep initialState labels := by
  have hinitial : Forward (initialState : State α) := fun e he => by cases he
  constructor
  · intro h
    refine h.along (I := fun s => Numbered s ∧ Forward s) (Q := fun _ _ => True) ?_ ?_
      ⟨numbered_initial, hinitial⟩ (System.along_true ..)
    · exact fun s label s' hs hc hstep =>
        ⟨hs.1.step hstep, (forward_step_iff hs.1 hs.2 hstep).mpr hc⟩
    · exact fun s label s' hs _ hstep hlaw => (forward_step_iff hs.1 hs.2 hstep).mp hlaw.forward
  · intro h
    have halways := h.always (I := fun s => Numbered s ∧ Forward s)
      ⟨numbered_initial, hinitial⟩ fun s label s' hs hc hstep =>
        ⟨hs.1.step hstep, (forward_step_iff hs.1 hs.2 hstep).mpr hc⟩
    exact halways.mono fun s hs => hs.1.law hs.2

def streamConfig : Config Unit := ⟨⟨SessionRuntime.codexConfig, id⟩, fun _ => ()⟩

/-- A task is created, and shown, while a snapshot waits for the threads of the nodes. -/
def overtakenLabels : List Label :=
  [.connect "client-1", .deliver "client-1", .beginSync "sync-1"] ++
    ((SessionRuntime.createLabels "creation-1" "task-1").map fun label =>
      .session (.session label)) ++
    [.publishSnapshot, .finishSync "sync-1" ⟨Table.empty, Table.empty⟩, .take "client-1",
      .deliver "client-1", .take "client-1", .deliver "client-1"]

/-- The last snapshot that the client gets shows the session without its task. -/
theorem overtaken_snapshot_delivered : ¬ ∀ (cfg : Config Unit) (labels : List Label),
      (system cfg).Always StreamLaw initialState labels := by
  intro h
  have hrun : ((system streamConfig).run initialState overtakenLabels).isSome = true := by decide
  have hlaw := (h streamConfig overtakenLabels).at_end (System.run_eq_target hrun)
  have hsent : ∃ e ∈ ((system streamConfig).target initialState overtakenLabels).built,
      ∃ f ∈ ((system streamConfig).target initialState overtakenLabels).built,
        e.sequence < f.sequence ∧ f.readAt < e.readAt ∧ ∃ shown ∈ f.shown?, ∃ shown' ∈ e.shown?,
          shown.tasks.length ≠ shown'.tasks.length := by decide
  obtain ⟨e, he, f, hf, hlt, hread, shown, hshown, shown', hshown', hne⟩ := hsent
  refine hlaw.forward e he f hf hlt ⟨hread, shown, hshown, shown', hshown', ?_⟩
  rintro rfl
  exact hne rfl

/-- Whatever else is under way, the numbers of what a client is sent rise. -/
theorem delivered_numbers_rise (cfg : Config α) (labels : List Label) :
    (system cfg).Always (fun s => ∀ client ∈ s.clients.entries,
      (client.delivered.Pairwise fun e f => e.sequence < f.sequence) ∧
        ∀ e ∈ client.delivered, e ∈ s.built) initialState labels := by
  have halways : (system cfg).Always Numbered initialState labels :=
    (System.along_true _ _).always numbered_initial fun s label s' h _ hs => h.step hs
  exact halways.mono fun s h client hclient => (h.clients client hclient).delivered

end Newbro.SessionStream
