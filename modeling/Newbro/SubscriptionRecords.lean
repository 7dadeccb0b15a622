import Newbro.ThreadSubscriptions

/-!
# The records of thread subscriptions

The server takes a record away only together with a call for its end, so every subscription
that a node was told of is recorded or has been called off since.
-/
namespace Newbro.ThreadSubscriptions

open Library Table List

variable {records' : Table Subscription.personaId}

section

variable {records : Table Subscription.personaId} {openings : Table Opening.personaId}
  {journal : List Entry} {opening : Opening}

/-- Records and open calls are in the journal, and a call that still has to send its command
has its record. -/
structure Books (records : Table Subscription.personaId) (openings : Table Opening.personaId)
    (journal : List Entry) : Prop where
  drawnOnce : ∀ one two, .recorded one ∈ journal → .recorded two ∈ journal →
    one.subscriptionId = two.subscriptionId → one = two
  sentOnce : ∀ node connection node' connection' id, .sent node connection id ∈ journal →
    .sent node' connection' id ∈ journal → node = node' ∧ connection = connection'
  recorded : ∀ record ∈ records.entries,
    .recorded record ∈ journal ∧ .issued record.subscriptionId ∉ journal
  opened : ∀ opening ∈ openings.entries, .recorded opening.subscription ∈ journal
  same : ∀ opening ∈ openings.entries, ∀ record,
    records.get? opening.personaId = some record → record = opening.subscription
  unsent : ∀ opening ∈ openings.entries, opening.point.unsent = true →
    records.get? opening.personaId = some opening.subscription ∧
      ∀ node connection, .sent node connection opening.subscription.subscriptionId ∉ journal
  sent : ∀ opening ∈ openings.entries, opening.point.unsent = false →
    ∃ connection, .sent opening.subscription.nodeId connection
      opening.subscription.subscriptionId ∈ journal
  accounted : ∀ newer older node connection id,
    journal = newer ++ .sent node connection id :: older →
      (∃ record ∈ records.entries, record.subscriptionId = id) ∨ .issued id ∈ newer

section

variable (h : Books records openings journal)
include h

/-- A new entry may account for a record that goes, and asks for one if it is a command. -/
theorem accounted_cons {entry : Entry}
    (hrecords : ∀ record ∈ records.entries,
      (∃ kept ∈ records'.entries, kept.subscriptionId = record.subscriptionId) ∨
        entry = .issued record.subscriptionId)
    (hsent : ∀ node connection id, entry = .sent node connection id →
      ∃ record ∈ records'.entries, record.subscriptionId = id)
    (newer older : List Entry) (node connection id : String)
    (hjournal : entry :: journal = newer ++ .sent node connection id :: older) :
    (∃ record ∈ records'.entries, record.subscriptionId = id) ∨ .issued id ∈ newer := by
  cases newer with
  | nil =>
    left
    exact hsent node connection id (List.cons.inj hjournal).1
  | cons first newer =>
    obtain ⟨rfl, hrest⟩ := List.cons.inj hjournal
    rcases h.accounted newer older node connection id hrest with ⟨record, hrecord, rfl⟩ | hissued
    · rcases hrecords record hrecord with hkept | hentry
      · exact Or.inl hkept
      · right
        rw [hentry]
        exact mem_cons_self
    · exact Or.inr (mem_cons_of_mem _ hissued)

theorem Books.replace {subscription : Subscription}
    (hfresh : ∀ entry ∈ journal, entry.subscriptionId ≠ subscription.subscriptionId)
    (hnone : records.get? subscription.personaId = none) :
    Books (records.put subscription) (openings.put ⟨subscription, .connecting⟩)
      (.recorded subscription :: journal) := by
  have hold : ∀ entry : Entry, entry.subscriptionId = subscription.subscriptionId →
      entry ∉ journal := fun entry hid hmem => hfresh entry hmem hid
  have hne : ∀ opening ∈ openings.entries, opening.personaId ≠ subscription.personaId →
      (records.put subscription).get? opening.personaId = records.get? opening.personaId :=
    fun opening _ hkey => records.get?_put_of_ne (Ne.symm hkey)
  refine ⟨?_, ?_, ?_, ?_, ?_, ?_, ?_, ?_⟩
  · intro one two hone htwo hid
    rcases mem_cons.mp hone with heq | hone
    · rcases mem_cons.mp htwo with heq' | htwo
      · exact (Entry.recorded.inj heq).trans (Entry.recorded.inj heq').symm
      · rw [Entry.recorded.inj heq] at hid
        exact absurd htwo (hold (.recorded two) hid.symm)
    · rcases mem_cons.mp htwo with heq | htwo
      · rw [Entry.recorded.inj heq] at hid
        exact absurd hone (hold (.recorded one) hid)
      · exact h.drawnOnce one two hone htwo hid
  · intro node connection node' connection' id hsent hsent'
    have hsent : .sent node connection id ∈ journal := by simpa using hsent
    have hsent' : .sent node' connection' id ∈ journal := by simpa using hsent'
    exact h.sentOnce node connection node' connection' id hsent hsent'
  · intro record hrecord
    rcases mem_put.mp hrecord with rfl | ⟨hrecord, -⟩
    · refine ⟨mem_cons_self, fun hissued => ?_⟩
      have hissued : .issued record.subscriptionId ∈ journal := by simpa using hissued
      exact hold (.issued record.subscriptionId) rfl hissued
    · obtain ⟨hmem, hissued⟩ := h.recorded record hrecord
      exact ⟨mem_cons_of_mem _ hmem, fun hnew => hissued (by simpa using hnew)⟩
  · intro opening hopening
    rcases mem_put.mp hopening with rfl | ⟨hopening, -⟩
    · exact mem_cons_self
    · exact mem_cons_of_mem _ (h.opened opening hopening)
  · intro opening hopening record hget
    rcases mem_put.mp hopening with rfl | ⟨hopening, hkey⟩
    · have hself := records.get?_put_self subscription
      exact (Option.some.inj (hself.symm.trans hget)).symm
    · rw [hne opening hopening hkey] at hget
      exact h.same opening hopening record hget
  · intro opening hopening hunsent
    rcases mem_put.mp hopening with rfl | ⟨hopening, hkey⟩
    · refine ⟨records.get?_put_self subscription, fun node connection hsent => ?_⟩
      have hsent : .sent node connection subscription.subscriptionId ∈ journal := by
        simpa using hsent
      exact hold (.sent node connection subscription.subscriptionId) rfl hsent
    · obtain ⟨hget, hnever⟩ := h.unsent opening hopening hunsent
      refine ⟨(hne opening hopening hkey).trans hget, fun node connection hsent => ?_⟩
      exact hnever node connection (by simpa using hsent)
  · intro opening hopening hsent
    rcases mem_put.mp hopening with rfl | ⟨hopening, -⟩
    · cases hsent
    · obtain ⟨connection, hmem⟩ := h.sent opening hopening hsent
      exact ⟨connection, mem_cons_of_mem _ hmem⟩
  · refine accounted_cons h (fun record hrecord => ?_) (fun _ _ _ heq => by cases heq)
    left
    have hkey : record.personaId ≠ subscription.personaId :=
      Table.get?_eq_none_iff.mp hnone record hrecord
    exact ⟨record, mem_put.mpr (.inr ⟨hrecord, hkey⟩), rfl⟩

/-- Two records of one id are one record. -/
theorem Books.recorded_inj {one two : Subscription}
    (hone : one ∈ records.entries) (htwo : .recorded two ∈ journal)
    (hid : one.subscriptionId = two.subscriptionId) : one = two :=
  h.drawnOnce one two (h.recorded one hone).1 htwo hid

/-- The end of a subscription is called for, and no record of it is left. -/
theorem Books.issue
    {openings' : Table Opening.personaId} (id : String)
    (hrecords : ∀ record ∈ records'.entries, record ∈ records.entries ∧ record.subscriptionId ≠ id)
    (hkept : ∀ record ∈ records.entries, record ∈ records'.entries ∨ record.subscriptionId = id)
    (hopenings : ∀ opening ∈ openings'.entries, opening ∈ openings.entries)
    (hunsent : ∀ opening ∈ openings'.entries, opening.point.unsent = true →
      records'.get? opening.personaId = records.get? opening.personaId) :
    Books records' openings' (.issued id :: journal) := by
  refine ⟨?_, ?_, ?_, ?_, ?_, ?_, ?_, ?_⟩
  · intro one two hone htwo hid
    exact h.drawnOnce one two (by simpa using hone) (by simpa using htwo) hid
  · intro node connection node' connection' id hsent hsent'
    exact h.sentOnce node connection node' connection' id (by simpa using hsent)
      (by simpa using hsent')
  · intro record hrecord
    obtain ⟨hold, hne⟩ := hrecords record hrecord
    obtain ⟨hmem, hissued⟩ := h.recorded record hold
    refine ⟨mem_cons_of_mem _ hmem, fun hnew => ?_⟩
    rcases mem_cons.mp hnew with heq | hnew
    · exact hne (Entry.issued.inj heq)
    · exact hissued hnew
  · intro opening hopening
    exact mem_cons_of_mem _ (h.opened opening (hopenings opening hopening))
  · intro opening hopening record hget
    have hold := (hrecords record (mem_of_get? hget)).1
    have hget : records.get? opening.personaId = some record := by
      rw [← key_of_get? hget]
      exact Table.get?_of_mem hold
    exact h.same opening (hopenings opening hopening) record hget
  · intro opening hopening hpoint
    obtain ⟨hget, hnever⟩ := h.unsent opening (hopenings opening hopening) hpoint
    refine ⟨(hunsent opening hopening hpoint).trans hget, fun node connection hsent => ?_⟩
    exact hnever node connection (by simpa using hsent)
  · intro opening hopening hpoint
    obtain ⟨connection, hmem⟩ := h.sent opening (hopenings opening hopening) hpoint
    exact ⟨connection, mem_cons_of_mem _ hmem⟩
  · refine accounted_cons h (fun record hrecord => ?_) (fun _ _ _ heq => by cases heq)
    rcases hkept record hrecord with hrecord | rfl
    · exact Or.inl ⟨record, hrecord, rfl⟩
    · exact Or.inr rfl

theorem Books.stop {current : Subscription} (hcurrent : current ∈ records.entries)
    (hsent : ∀ opening ∈ openings.entries, opening.personaId = current.personaId →
      opening.point.unsent = false) : Books (records.erase current.personaId) openings
      (.issued current.subscriptionId :: journal) := by
  refine h.issue _ (fun record hrecord => ?_) (fun record hrecord => ?_) (fun _ h => h)
    fun opening hopening hunsent => ?_
  · obtain ⟨hmem, hkey⟩ := mem_erase.mp hrecord
    refine ⟨hmem, fun hid => hkey ?_⟩
    rw [h.recorded_inj hmem (h.recorded current hcurrent).1 hid]
  · by_cases hkey : record.personaId = current.personaId
    · right
      rw [records.eq_of_key_eq hrecord hcurrent hkey]
    · exact Or.inl (mem_erase.mpr ⟨hrecord, hkey⟩)
  · refine records.get?_erase_of_ne fun hkey => ?_
    rw [hsent opening hopening hkey.symm] at hunsent
    cases hunsent

/-- An abandoned call leaves no record of its persona. -/
theorem Books.records_abandon
    (hopening : opening ∈ openings.entries) :
    (if records.get? opening.personaId = some opening.subscription then
      records.erase opening.personaId
    else records) = records.erase opening.personaId := by
  split_ifs with hget
  · rfl
  · refine (erase_of_get?_eq_none ?_).symm
    cases hrecord : records.get? opening.personaId with
    | none => rfl
    | some record => exact absurd (h.same opening hopening record hrecord ▸ hrecord) hget

theorem Books.abandon (hopening : opening ∈ openings.entries) :
    Books (records.erase opening.personaId) (openings.erase opening.personaId)
      (.issued opening.subscription.subscriptionId :: journal) := by
  refine h.issue _ (fun record hrecord => ?_) (fun record hrecord => ?_)
    (fun _ hother => (mem_erase.mp hother).1) fun other hother _ => ?_
  · obtain ⟨hmem, hkey⟩ := mem_erase.mp hrecord
    refine ⟨hmem, fun hid => hkey ?_⟩
    rw [h.recorded_inj hmem (h.opened opening hopening) hid, Opening.personaId]
  · by_cases hkey : record.personaId = opening.personaId
    · right
      have hget : records.get? opening.personaId = some record := by
        rw [← hkey]
        exact Table.get?_of_mem hrecord
      rw [h.same opening hopening record hget]
    · exact Or.inl (mem_erase.mpr ⟨hrecord, hkey⟩)
  · exact records.get?_erase_of_ne fun hkey => (mem_erase.mp hother).2 hkey.symm

/-- A call leaves the lock, and its subscription stands. -/
theorem Books.leave (personaId : String) :
    Books records (openings.erase personaId) journal where
  drawnOnce := h.drawnOnce
  sentOnce := h.sentOnce
  recorded := h.recorded
  opened opening hopening := h.opened opening (mem_erase.mp hopening).1
  same opening hopening := h.same opening (mem_erase.mp hopening).1
  unsent opening hopening := h.unsent opening (mem_erase.mp hopening).1
  sent opening hopening := h.sent opening (mem_erase.mp hopening).1
  accounted := h.accounted

/-- A call goes on, and has not sent its command by that. -/
theorem Books.move (hopening : opening ∈ openings.entries)
    (point : Point) (hpoint : point.unsent = opening.point.unsent) :
    Books records (openings.put { opening with point := point }) journal where
  drawnOnce := h.drawnOnce
  sentOnce := h.sentOnce
  recorded := h.recorded
  accounted := h.accounted
  opened := forall_put h.opened (h.opened opening hopening)
  same := forall_put h.same (h.same opening hopening)
  unsent := forall_put h.unsent fun hunsent => h.unsent opening hopening (hpoint.symm.trans hunsent)
  sent := forall_put h.sent fun hsent => h.sent opening hopening (hpoint.symm.trans hsent)

theorem Books.send (hopening : opening ∈ openings.entries)
    (hpoint : opening.point.unsent = true) (connectionId : String) :
    Books records (openings.put { opening with point := .waiting })
      (.sent opening.subscription.nodeId connectionId opening.subscription.subscriptionId ::
        journal) := by
  obtain ⟨hget, hnever⟩ := h.unsent opening hopening hpoint
  have hrecord := mem_of_get? hget
  refine ⟨?_, ?_, ?_, ?_, ?_, ?_, ?_, ?_⟩
  · intro one two hone htwo hid
    exact h.drawnOnce one two (by simpa using hone) (by simpa using htwo) hid
  · intro node connection node' connection' id hsent hsent'
    rcases mem_cons.mp hsent with heq | hsent
    · cases heq
      rcases mem_cons.mp hsent' with heq' | hsent'
      · cases heq'
        exact ⟨rfl, rfl⟩
      · exact absurd hsent' (hnever node' connection')
    · rcases mem_cons.mp hsent' with heq' | hsent'
      · cases heq'
        exact absurd hsent (hnever node connection)
      · exact h.sentOnce node connection node' connection' id hsent hsent'
  · intro record hmem
    obtain ⟨hdrawn, hissued⟩ := h.recorded record hmem
    exact ⟨mem_cons_of_mem _ hdrawn, by simpa using hissued⟩
  · exact forall_put
      (fun other hother => mem_cons_of_mem _ (h.opened other hother))
      (mem_cons_of_mem _ (h.opened opening hopening))
  · exact forall_put h.same (h.same opening hopening)
  · intro other hother hunsent
    rcases mem_put.mp hother with rfl | ⟨hother, hkey⟩
    · cases hunsent
    · obtain ⟨hget', hnever'⟩ := h.unsent other hother hunsent
      refine ⟨hget', fun node connection hsent => ?_⟩
      rcases mem_cons.mp hsent with heq | hsent
      · have hid : other.subscription.subscriptionId = opening.subscription.subscriptionId :=
          (Entry.sent.inj heq).2.2
        have heq := h.drawnOnce _ _ (h.opened other hother) (h.opened opening hopening) hid
        refine hkey ?_
        rw [Opening.personaId, heq]
        rfl
      · exact hnever' node connection hsent
  · intro other hother hsent
    rcases mem_put.mp hother with rfl | ⟨hother, -⟩
    · exact ⟨connectionId, mem_cons_self⟩
    · obtain ⟨connection, hmem⟩ := h.sent other hother hsent
      exact ⟨connection, mem_cons_of_mem _ hmem⟩
  · refine accounted_cons h (fun record hmem => Or.inl ⟨record, hmem, rfl⟩) ?_
    intro node connection id heq
    cases heq
    exact ⟨opening.subscription, hrecord, rfl⟩

end

end

end Newbro.ThreadSubscriptions
