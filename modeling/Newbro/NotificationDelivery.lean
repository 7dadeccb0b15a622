import Newbro.Notifications

/-!
# Each notification once

What the plan and each write do to the candidates, the invariant that ties the delivery
under way to the board, and when a suppressed candidate stays silent.
-/
namespace Newbro.Notifications

open Library Protocol Option List

/-! ## The plan holds each pending candidate once -/

variable {keys : List String} {due : List Candidate}

theorem nodup_groupsOf (hkeys : keys.Nodup)
    (hdue : (due.map (·.candidateId)).Nodup) :
    ((groupsOf keys due).flatten.map (·.candidateId)).Nodup := by
  induction keys with
  | nil => simp [groupsOf]
  | cons mergeKey keys ih =>
    obtain ⟨hfresh, hkeys⟩ := nodup_cons.mp hkeys
    have hgroup : (((due.filter fun c => c.mergeKey = mergeKey).insertionSort fun c d =>
        c.createdAt ≤ d.createdAt).map (·.candidateId)).Nodup := by
      have hfilter := hdue.sublist ((filter_sublist (p := fun c : Candidate =>
        decide (c.mergeKey = mergeKey))).map (·.candidateId))
      exact (((perm_insertionSort _ _).map _).nodup_iff).mpr hfilter
    rw [groupsOf, map_cons, flatten_cons, map_append]
    refine nodup_append.mpr ⟨hgroup, ih hkeys, ?_⟩
    intro _ hin other hother heq
    obtain ⟨c, hc, rfl⟩ := mem_map.mp hin
    obtain ⟨d, hd, hid⟩ := mem_map.mp hother
    have hid := hid.trans heq.symm
    have hc := mem_filter.mp ((mem_insertionSort _).mp hc)
    obtain ⟨group, hgroup, hd⟩ := mem_flatten.mp hd
    obtain ⟨other, hother, rfl⟩ := mem_map.mp hgroup
    have hd := mem_filter.mp ((mem_insertionSort _).mp hd)
    have hsame : d = c := inj_on_of_nodup_map hdue hd.1 hc.1 hid
    have hkey : other = mergeKey := by
      have h := of_decide_eq_true hd.2
      rw [hsame] at h
      exact h.symm.trans (of_decide_eq_true hc.2)
    exact hfresh (hkey ▸ hother)

variable {c : Candidate}

theorem mem_groupsOf
    (h : c ∈ (groupsOf keys due).flatten) : c ∈ due := by
  obtain ⟨group, hgroup, hc⟩ := mem_flatten.mp h
  obtain ⟨mergeKey, -, rfl⟩ := mem_map.mp hgroup
  exact (mem_filter.mp ((mem_insertionSort _).mp hc)).1

variable (policy : Policy)

variable {candidates : List Candidate}

theorem mem_plan {assistantBusy hasPendingUserMessages : Bool}
    {now : Int}
    (h : c ∈ (policy.plan candidates assistantBusy hasPendingUserMessages now).groups.flatten) :
    c ∈ candidates ∧ c.deliveryStatus = .pending := by
  simp only [Policy.plan] at h
  split at h
  · simp at h
  · split at h
    · simp at h
    · rw [flatten_append] at h
      have hpending : c ∈ candidates.filter fun c => c.deliveryStatus = .pending := by
        rcases mem_append.mp h with h | h
        · obtain ⟨group, hgroup, hc⟩ := mem_flatten.mp h
          obtain ⟨d, hd, rfl⟩ := mem_map.mp hgroup
          rw [mem_singleton.mp hc]
          exact (mem_filter.mp hd).1
        · exact (mem_filter.mp (mem_filter.mp (mem_groupsOf h)).1).1
      exact ⟨(mem_filter.mp hpending).1, of_decide_eq_true (mem_filter.mp hpending).2⟩

theorem nodup_plan (assistantBusy hasPendingUserMessages : Bool)
    (now : Int) (h : (candidates.map (·.candidateId)).Nodup) :
    ((policy.plan candidates assistantBusy hasPendingUserMessages now).groups.flatten.map
      (·.candidateId)).Nodup := by
  simp only [Policy.plan]
  split
  · simp
  · split
    · simp
    · have hpending : ((candidates.filter fun c => c.deliveryStatus = .pending).map
          (·.candidateId)).Nodup := h.sublist (filter_sublist.map _)
      generalize candidates.filter (fun c => c.deliveryStatus = .pending) = pending at hpending
      have hdue : (((pending.filter fun c => !c.requiresImmediateDelivery).filter fun c =>
          policy.dueAt c ≤ now).map (·.candidateId)).Nodup :=
        hpending.sublist ((filter_sublist.trans filter_sublist).map _)
      have hsingle : (((pending.filter (·.requiresImmediateDelivery)).map fun c => [c]).flatten) =
          pending.filter (·.requiresImmediateDelivery) := by
        rw [← flatMap_def]
        exact flatMap_singleton' _
      have hkeys : ∀ keys : List String, (keys.dedup.insertionSort fun a b => a ≤ b).Nodup :=
        fun keys => (perm_insertionSort _ _).nodup_iff.mpr keys.nodup_dedup
      rw [flatten_append, hsingle, map_append]
      refine nodup_append.mpr ⟨hpending.sublist (filter_sublist.map _),
        nodup_groupsOf (hkeys _) hdue, ?_⟩
      intro _ hin _ hother heq
      obtain ⟨c, hc, rfl⟩ := mem_map.mp hin
      obtain ⟨d, hd, hid⟩ := mem_map.mp hother
      have hid := hid.trans heq.symm
      have hc := mem_filter.mp hc
      have hd := mem_filter.mp (mem_filter.mp (mem_groupsOf hd)).1
      have hsame : d = c := inj_on_of_nodup_map hpending hd.1 hc.1 hid
      rw [hsame] at hd
      simp [hc.2] at hd

/-! ## What each write leaves -/

variable {id : String}

variable {board : Blackboard} {event : WriteEvent} {now : String}

theorem get?_handleBlackboardWrite
    {candidates : Candidates} (h : candidates.get? id = some c) :
    (handleBlackboardWrite board event now candidates).get? id = some c := by
  have hfresh : ∀ candidate, candidateOf board event candidates now = some candidate →
      candidates.get? candidate.candidateId = none := by
    have hthere : ∀ made candidate, unlessThere candidates made = some candidate →
        candidates.get? candidate.candidateId = none := by
      intro made candidate hmade
      rw [unlessThere] at hmade
      split at hmade
      · cases hmade
      · rename_i hno
        rw [← some.inj hmade]
        simpa [Table.contains] using hno
    have hrun : ∀ task run summary candidate,
        buildFromRun task run summary candidates now = some candidate →
        candidates.get? candidate.candidateId = none := by
      intro task run summary candidate hmade
      simp only [buildFromRun] at hmade
      split_ifs at hmade
      · exact hthere _ _ hmade
      · exact hthere _ _ hmade
    have hsummary : ∀ task summary candidate,
        buildFromSummary task summary candidates now = some candidate →
        candidates.get? candidate.candidateId = none := by
      intro task summary candidate hmade
      cases summary with
      | none => cases hmade
      | some summary =>
        simp only [buildFromSummary] at hmade
        split_ifs at hmade
        exact hthere _ _ hmade
    intro candidate hmade
    cases event with
    | run runId =>
      simp only [candidateOf] at hmade
      split at hmade
      · cases hmade
      · split_ifs at hmade
        obtain ⟨task, -, hmade⟩ := bind_eq_some_iff.mp hmade
        exact hrun _ _ _ _ hmade
    | summary taskId =>
      obtain ⟨task, -, hmade⟩ := bind_eq_some_iff.mp hmade
      exact hsummary _ _ _ hmade
  rw [handleBlackboardWrite]
  split
  · exact h
  · rename_i candidate hmade
    have hne : candidate.candidateId ≠ id := by
      rintro rfl
      rw [hfresh candidate hmade] at h
      cases h
    rw [Table.get?_put_of_ne _ hne]
    exact h

theorem get?_suppressPendingNotifications (taskId : String) (candidates : Candidates)
    (id : String) : (suppressPendingNotifications taskId candidates).get? id =
      (candidates.get? id).map fun c =>
        if suppresses taskId c = true then c.setStatus .suppressed else c :=
  Table.get?_foldl_put_filter (f := Candidate.setStatus .suppressed) (fun _ => rfl)
    (suppresses taskId) candidates id

variable {group : List Candidate}

theorem get?_writeEmitted_of_mem (hgroup : (group.map (·.candidateId)).Nodup) (hc : c ∈ group)
    (candidates : Candidates) : (writeEmitted group candidates).get? c.candidateId =
      some (c.setStatus .emitted) := by
  have hfound : (group.find? fun d => d.candidateId = c.candidateId) = some c := by
    cases hfind : group.find? fun d => d.candidateId = c.candidateId with
    | none => exact absurd (decide_eq_true rfl) (List.find?_eq_none.mp hfind c hc)
    | some d =>
      have hid : d.candidateId = c.candidateId := by simpa using List.find?_some hfind
      rw [inj_on_of_nodup_map hgroup (mem_of_find?_eq_some hfind) hc hid]
  rw [writeEmitted, Table.get?_foldl_put (f := Candidate.setStatus .emitted) (fun _ => rfl) hgroup,
    hfound]
  rfl

theorem get?_writeEmitted_of_not_mem (hgroup : (group.map (·.candidateId)).Nodup)
    (hid : id ∉ group.map (·.candidateId)) (candidates : Candidates) :
    (writeEmitted group candidates).get? id = candidates.get? id := by
  have hnone : (group.find? fun d => d.candidateId = id) = none := by
    refine List.find?_eq_none.mpr fun d hd heq => hid ?_
    exact mem_map.mpr ⟨d, hd, of_decide_eq_true heq⟩
  rw [writeEmitted, Table.get?_foldl_put (f := Candidate.setStatus .emitted) (fun _ => rfl) hgroup,
    hnone]
  rfl

/-! ## The law -/

/-- No candidate is emitted twice, and one that was suppressed while its group was not with
the communication brain is neither emitted nor marked so. -/
structure Law (s : State) : Prop where
  once : s.emitted.Nodup
  silent : ∀ id ∈ s.early, id ∉ s.emitted
  unmarked : ∀ id ∈ s.early, ∀ c, s.candidates.get? id = some c → c.deliveryStatus ≠ .emitted

/-- A cancellation suppresses no candidate of a group that waits to be handed over. -/
def Undisturbed (s : State) : Label → Prop
  | .cancel taskId => ∀ c ∈ s.waiting.flatten, ∀ stored,
      s.candidates.get? c.candidateId = some stored → suppresses taskId stored = false
  | _ => True

def State.waitingIds (s : State) : List String := s.waiting.flatten.map (·.candidateId)

/-- The status on the board of a candidate. -/
def State.status (s : State) (id : String) : Option DeliveryStatus :=
  (s.candidates.get? id).map (·.deliveryStatus)

/-- The delivery under way and the histories agree with the board. -/
structure Sound (s : State) : Prop where
  nodup : (s.handedIds ++ s.waitingIds).Nodup
  waiting : ∀ id ∈ s.waitingIds, s.status id = some .pending
  handed : ∀ id ∈ s.handedIds, s.status id = some .pending ∨ s.status id = some .suppressed
  once : s.emitted.Nodup
  emitted : ∀ id ∈ s.emitted, s.status id = some .emitted
  early : ∀ id ∈ s.early, s.status id = some .suppressed ∧ id ∉ s.handedIds

variable {s : State}

theorem Sound.law (h : Sound s) : Law s := by
  refine ⟨h.once, fun id hid hemitted => ?_, fun id hid c hc hstatus => ?_⟩
  · have hsuppressed := (h.early id hid).1
    rw [h.emitted id hemitted] at hsuppressed
    cases hsuppressed
  · have hsuppressed := (h.early id hid).1
    rw [State.status, hc, map_some, hstatus] at hsuppressed
    cases hsuppressed

variable {status : DeliveryStatus}

theorem status_write
    (h : s.status id = some status) :
    State.status { s with candidates := handleBlackboardWrite board event now s.candidates } id =
      some status := by
  obtain ⟨c, hc, hstatus⟩ := map_eq_some_iff.mp h
  rw [State.status, get?_handleBlackboardWrite hc, map_some, hstatus]

theorem Sound.write (h : Sound s) (board : Blackboard) (event : WriteEvent)
    (now : String) :
    Sound { s with candidates := handleBlackboardWrite board event now s.candidates } where
  nodup := h.nodup
  waiting id hid := status_write (h.waiting id hid)
  handed id hid := (h.handed id hid).imp status_write status_write
  once := h.once
  emitted id hid := status_write (h.emitted id hid)
  early id hid := ⟨status_write (h.early id hid).1, (h.early id hid).2⟩

theorem handOver_ids (s : State) (groups : List (List Candidate)) :
    let now : State := { s with delivery := handOver groups }
    now.handedIds ++ now.waitingIds = groups.flatten.map (·.candidateId) := by
  cases groups with
  | nil => rfl
  | cons group rest => simp [handOver, State.handedIds, State.waitingIds, State.waiting]

variable {groups : List (List Candidate)}

/-- The loop goes on to groups whose candidates are all pending. -/
theorem Sound.handOver (h : Sound s)
    (hnodup : (groups.flatten.map (·.candidateId)).Nodup)
    (hpending : ∀ c ∈ groups.flatten, s.status c.candidateId = some .pending) :
    Sound { s with delivery := Notifications.handOver groups } := by
  have hids := handOver_ids s groups
  have hall : ∀ id ∈ State.handedIds { s with delivery := Notifications.handOver groups } ++
      State.waitingIds { s with delivery := Notifications.handOver groups },
      s.status id = some .pending := by
    intro id hid
    rw [hids] at hid
    obtain ⟨c, hc, rfl⟩ := mem_map.mp hid
    exact hpending c hc
  refine ⟨by rw [hids]; exact hnodup, fun id hid => hall id (mem_append_right _ hid),
    fun id hid => Or.inl (hall id (mem_append_left _ hid)), h.once, h.emitted,
    fun id hid => ⟨(h.early id hid).1, fun hhanded => ?_⟩⟩
  have hsuppressed := (h.early id hid).1
  rw [hall id (mem_append_left _ hhanded)] at hsuppressed
  cases hsuppressed

theorem Sound.reply (h : Sound s)
    {rest : List (List Candidate)} (hdelivery : s.delivery = .handed group rest) :
    Sound { s with
      candidates := writeEmitted group s.candidates
      delivery := .between rest
      emitted := s.emitted ++ group.map (·.candidateId) } := by
  have hhanded : s.handedIds = group.map (·.candidateId) := by rw [State.handedIds, hdelivery]
  have hwaiting : s.waitingIds = rest.flatten.map (·.candidateId) := by
    rw [State.waitingIds, State.waiting, hdelivery]
  have hnodup := nodup_append.mp (hhanded ▸ hwaiting ▸ h.nodup)
  have hother : ∀ id, id ∉ s.handedIds →
      (writeEmitted group s.candidates).get? id = s.candidates.get? id :=
    fun id hid => get?_writeEmitted_of_not_mem hnodup.1 (hhanded ▸ hid) s.candidates
  refine ⟨?_, ?_, ?_, ?_, ?_, ?_⟩
  · exact hnodup.2.1
  · intro id hid
    have hid : id ∈ s.waitingIds := hwaiting ▸ hid
    have hno : id ∉ s.handedIds := fun hin => (nodup_append.mp h.nodup).2.2 id hin id hid rfl
    rw [State.status, hother id hno]
    exact h.waiting id hid
  · exact fun id hid => by cases hid
  · refine nodup_append.mpr ⟨h.once, hnodup.1, ?_⟩
    rintro id hid _ hin rfl
    rcases h.handed id (hhanded ▸ hin) with hstatus | hstatus
    · rw [h.emitted id hid] at hstatus
      cases hstatus
    · rw [h.emitted id hid] at hstatus
      cases hstatus
  · intro id hid
    by_cases hin : id ∈ s.handedIds
    · obtain ⟨c, hc, rfl⟩ := mem_map.mp (hhanded ▸ hin)
      rw [State.status, get?_writeEmitted_of_mem hnodup.1 hc]
      rfl
    · rw [State.status, hother id hin]
      exact h.emitted id ((mem_append.mp hid).resolve_right (hhanded ▸ hin))
  · intro id hid
    obtain ⟨hstatus, hno⟩ := h.early id hid
    refine ⟨?_, fun hin => by cases hin⟩
    rw [State.status, hother id hno]
    exact hstatus

theorem Sound.abandon (h : Sound s) : Sound { s with delivery := .idle } where
  nodup := nodup_nil
  waiting id hid := by cases hid
  handed id hid := by cases hid
  once := h.once
  emitted := h.emitted
  early id hid := ⟨(h.early id hid).1, fun hin => by cases hin⟩

theorem status_cancel (s : State) (taskId id : String) :
    State.status { s with candidates := suppressPendingNotifications taskId s.candidates } id =
      (s.candidates.get? id).map fun c =>
        if suppresses taskId c = true then .suppressed else c.deliveryStatus := by
  rw [State.status, get?_suppressPendingNotifications]
  cases s.candidates.get? id with
  | none => rfl
  | some c =>
    simp only [map_some]
    split <;> rfl

variable {taskId : String}

theorem status_cancel_of_ne_pending
    (h : s.status id = some status) (hne : status ≠ .pending) :
    State.status { s with candidates := suppressPendingNotifications taskId s.candidates } id =
      some status := by
  obtain ⟨c, hc, hstatus⟩ := map_eq_some_iff.mp h
  have hno : suppresses taskId c = false := by simp [suppresses, hstatus, hne]
  simp [status_cancel, hc, hno, hstatus]

theorem Sound.cancel (h : Sound s)
    (hcalm : Undisturbed s (.cancel taskId)) :
    Sound { s with
      candidates := suppressPendingNotifications taskId s.candidates
      early := s.early ++ ((s.candidates.entries.filter (suppresses taskId)).map
        (·.candidateId)).filter (· ∉ s.handedIds) } := by
  refine ⟨h.nodup, ?_, ?_, h.once, ?_, ?_⟩
  · intro id hid
    obtain ⟨c, hc, rfl⟩ := mem_map.mp hid
    obtain ⟨stored, hstored, hstatus⟩ := map_eq_some_iff.mp (h.waiting _ hid)
    have hno := hcalm c hc stored hstored
    show State.status { s with candidates := _ } _ = _
    simp [status_cancel, hstored, hno, hstatus]
  · intro id hid
    rcases h.handed id hid with hstatus | hstatus
    · obtain ⟨stored, hstored, hstatus⟩ := map_eq_some_iff.mp hstatus
      show State.status { s with candidates := _ } _ = _ ∨ State.status { s with candidates := _ } _ = _
      rw [status_cancel, hstored, map_some]
      split
      · exact Or.inr rfl
      · exact Or.inl (congrArg some hstatus)
    · exact Or.inr (status_cancel_of_ne_pending hstatus (by decide))
  · exact fun id hid => status_cancel_of_ne_pending (h.emitted id hid) (by decide)
  · intro id hid
    rcases mem_append.mp hid with hid | hid
    · obtain ⟨hstatus, hno⟩ := h.early id hid
      exact ⟨status_cancel_of_ne_pending hstatus (by decide), hno⟩
    · obtain ⟨hid, hno⟩ := mem_filter.mp hid
      obtain ⟨c, hc, rfl⟩ := mem_map.mp hid
      obtain ⟨hc, hsuppresses⟩ := mem_filter.mp hc
      refine ⟨?_, of_decide_eq_true hno⟩
      have hfound : s.candidates.get? c.candidateId = some c := Table.get?_of_mem hc
      show State.status { s with candidates := _ } _ = _
      rw [status_cancel, hfound, map_some, if_pos hsuppresses]

theorem Sound.step {s' : State} {l : Label} (h : Sound s) (hcalm : Undisturbed s l)
    (hs : (machine policy).step s l = some s') : Sound s' := by
  cases l with
  | write board event now =>
    cases hs
    exact h.write board event now
  | processPending assistantBusy hasPendingUserMessages now =>
    simp only [machine, Notifications.step] at hs
    split at hs
    · cases hs
      refine h.handOver (nodup_plan policy _ _ _ s.candidates.keys_nodup) fun c hc => ?_
      obtain ⟨hmem, hpending⟩ := mem_plan policy hc
      rw [State.status, Table.get?_of_mem hmem, map_some, hpending]
    · cases hs
  | reply =>
    simp only [machine, Notifications.step] at hs
    split at hs
    · rename_i group rest hdelivery
      cases hs
      exact h.reply hdelivery
    · cases hs
  | next =>
    simp only [machine, Notifications.step] at hs
    split at hs
    · rename_i rest hdelivery
      cases hs
      have hwaiting : s.waitingIds = rest.flatten.map (·.candidateId) := by
        rw [State.waitingIds, State.waiting, hdelivery]
      refine h.handOver (hwaiting ▸ (nodup_append.mp h.nodup).2.1) fun c hc => ?_
      exact h.waiting _ (hwaiting ▸ mem_map_of_mem hc)
    · cases hs
  | abandon =>
    cases hs
    exact h.abandon
  | cancel taskId =>
    cases hs
    exact h.cancel hcalm

theorem sound_initial (hs : (machine policy).initial s) : Sound s := by
  obtain rfl := hs
  exact ⟨nodup_nil, fun _ hid => (by cases hid), fun _ hid => (by cases hid), nodup_nil,
    fun _ hid => (by cases hid), fun _ hid => (by cases hid)⟩

/-! ## The condition is needed -/

/-- The rest of `process_pending`, undisturbed. -/
def finish (groups : List (List Candidate)) : List Label :=
  groups.flatMap fun _ => [.next, .reply]

theorem run_finish (hdelivery : s.delivery = .between groups) :
    ∃ last, (machine policy).run s (finish groups) = some last ∧ last.early = s.early ∧
      last.emitted = s.emitted ++ groups.flatten.map (·.candidateId) := by
  induction groups generalizing s with
  | nil => exact ⟨s, rfl, rfl, by simp⟩
  | cons group groups ih =>
    let after : State := { s with
      candidates := writeEmitted group s.candidates
      delivery := .between groups
      emitted := s.emitted ++ group.map (·.candidateId) }
    obtain ⟨last, hrun, hearly, hemitted⟩ := ih (s := after) rfl
    have hfirst : (machine policy).run s [.next, .reply] = some after := by
      simp [System.run, machine, step, hdelivery, handOver, after]
    refine ⟨last, ?_, hearly, ?_⟩
    · have hsplit : finish (group :: groups) = [.next, .reply] ++ finish groups := rfl
      rw [hsplit, System.run_append, hfirst]
      exact hrun
    · rw [hemitted]
      simp [after]

/-- A candidate that is suppressed while its group waits is emitted all the same, unless the
loop ends before. -/
theorem disturbed_breaks (h : Sound s) (hnot : ¬ Undisturbed s (.cancel taskId)) :
    ∃ more last, (machine policy).run s (.cancel taskId :: more) = some last ∧ ¬ Law last := by
  simp only [Undisturbed, not_forall] at hnot
  obtain ⟨c, hc, stored, hstored, hsuppresses⟩ := hnot
  have hsuppresses : suppresses taskId stored = true := by simpa using hsuppresses
  have hwaits : c.candidateId ∈ s.waitingIds := mem_map_of_mem hc
  have hno : c.candidateId ∉ s.handedIds := fun hin =>
    (nodup_append.mp h.nodup).2.2 _ hin _ hwaits rfl
  let now : State := { s with
    candidates := suppressPendingNotifications taskId s.candidates
    early := s.early ++ ((s.candidates.entries.filter (suppresses taskId)).map
      (·.candidateId)).filter (· ∉ s.handedIds) }
  have hnow : (machine policy).step s (.cancel taskId) = some now := rfl
  have hearly : c.candidateId ∈ now.early := by
    have hid : stored.candidateId = c.candidateId := Table.key_of_get? hstored
    refine mem_append_right _ (mem_filter.mpr ⟨?_, by simpa using hno⟩)
    rw [← hid]
    exact mem_map_of_mem (mem_filter.mpr ⟨Table.mem_of_get? hstored, hsuppresses⟩)
  have hbreak : ∀ more last, (machine policy).run now more = some last →
      now.early = last.early → c.candidateId ∈ last.emitted →
      ∃ more last, (machine policy).run s (.cancel taskId :: more) = some last ∧ ¬ Law last := by
    intro more last hrun hsame hemitted
    refine ⟨more, last, ?_, fun hlaw => hlaw.silent _ (hsame ▸ hearly) hemitted⟩
    simp only [System.run, hnow, bind_some, hrun]
  cases hdelivery : s.delivery with
  | idle =>
    rw [State.waitingIds, State.waiting, hdelivery] at hwaits
    cases hwaits
  | handed group rest =>
    let after : State := { now with
      candidates := writeEmitted group now.candidates
      delivery := .between rest
      emitted := now.emitted ++ group.map (·.candidateId) }
    have hreply : (machine policy).step now .reply = some after := by
      simp [machine, step, now, hdelivery, after]
    obtain ⟨last, hrun, hsame, hemitted⟩ := run_finish policy (s := after) (show after.delivery = .between rest from rfl)
    refine hbreak (.reply :: finish rest) last ?_ hsame.symm ?_
    · simp only [System.run, hreply, bind_some, hrun]
    · rw [hemitted]
      rw [State.waitingIds, State.waiting, hdelivery] at hwaits
      exact mem_append_right _ hwaits
  | between rest =>
    obtain ⟨last, hrun, hsame, hemitted⟩ := run_finish policy (s := now) (show now.delivery = .between rest from hdelivery)
    refine hbreak (finish rest) last hrun hsame.symm ?_
    rw [hemitted]
    rw [State.waitingIds, State.waiting, hdelivery] at hwaits
    exact mem_append_right _ hwaits

/-- Every run in which no waiting candidate is suppressed keeps the law, and the first
suppression of a waiting one breaks it if `process_pending` goes on to its end. -/
theorem law_always {s : State} {ls : List Label} (hs : (machine policy).initial s)
    (hcalm : (machine policy).Along Undisturbed s ls) :
    (machine policy).Always Law s ls ∧ ∀ now, (machine policy).run s ls = some now →
      ∀ taskId, ¬ Undisturbed now (.cancel taskId) →
        ∃ more last, (machine policy).run now (.cancel taskId :: more) = some last ∧
          ¬ Law last := by
  have hsound : (machine policy).Always Sound s ls :=
    hcalm.always (sound_initial policy hs) fun _ _ _ h hc hstep => h.step policy hc hstep
  refine ⟨hsound.mono fun _ h => h.law, fun now hrun taskId hnot => ?_⟩
  exact disturbed_breaks policy (hsound.at_end hrun) hnot

/-! ## Two blocked tasks -/

def policyExample : Policy := ⟨2000000, fun _ => 0⟩

/-- Two tasks whose runs are blocked. -/
def boardExample : Blackboard :=
  let task (taskId title : String) : Task :=
    { taskId := taskId, rootTaskId := taskId, title := title, goal := title
      status := .waitingUserInput }
  let run (runId taskId : String) : ExecutionRun :=
    { runId := runId, taskId := taskId, executionSessionId := "session-1", executorType := "codex"
      status := .blocked }
  (((Blackboard.empty.putTask (task "task-1" "First")).putTask (task "task-2" "Second")).putRun
    (run "run-1" "task-1")).putRun (run "run-2" "task-2")

/-- Both candidates are planned; the second task is cancelled while the communication brain
words the first one. -/
def cancelledWhileWaiting : List Label :=
  [ .write boardExample (.run "run-1") "2026-01-01T00:00:00+00:00",
    .write boardExample (.run "run-2") "2026-01-01T00:00:00+00:00",
    .processPending false false 0,
    .cancel "task-2",
    .reply,
    .next,
    .reply ]

theorem cancelled_candidate_emitted :
    ∃ last, (machine policyExample).run ⟨Table.empty, .idle, [], []⟩ cancelledWhileWaiting =
      some last ∧ ¬ Law last := by
  refine ⟨_, rfl, fun hlaw => ?_⟩
  exact hlaw.silent "notif-blocked-task-2-run-2" (by decide) (by decide)

/-- Without the cancellation both are told. -/
theorem law_always_undisturbed : (machine policyExample).Always Law ⟨Table.empty, .idle, [], []⟩
      [ .write boardExample (.run "run-1") "2026-01-01T00:00:00+00:00",
        .write boardExample (.run "run-2") "2026-01-01T00:00:00+00:00",
        .processPending false false 0, .reply, .next, .reply ] :=
  (law_always policyExample rfl fun _ _ => ⟨trivial, fun _ _ => ⟨trivial, fun _ _ => ⟨trivial,
    fun _ _ => ⟨trivial, fun _ _ => ⟨trivial, fun _ _ => ⟨trivial, trivial⟩⟩⟩⟩⟩⟩).1

end Newbro.Notifications
