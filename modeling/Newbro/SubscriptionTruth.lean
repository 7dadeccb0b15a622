import Newbro.SubscriptionRecords

/-!
# What a subscription answer is worth

A node streams what it has acknowledged until it is called off, gives up or loses the
connection. Of the last two the server hears nothing about the subscription, and it answers
from its own record.
-/
namespace Newbro.ThreadSubscriptions

open Library Option Table List

/-! ## The streams of the nodes -/

variable {link : Link} {gaveUp : List String} {opening : Opening} {personaId stopId : String}
   {ok : Bool}

variable {old : Link} {subscription : Subscription} {node : String} {context : Context}

section

variable {s s' : State} {nodeId connectionId subscriptionId : String}

/-- The node was told of the subscription, and streams it until it is called off, gives up or
loses the connection. -/
structure Acked (s : State) (nodeId connectionId subscriptionId : String) : Prop where
  sent : .sent nodeId connectionId subscriptionId ∈ s.journal
  stands : ∃ link, s.links.get? connectionId = some link ∧ (link.alive = true →
    s.holds connectionId subscriptionId = true ∨ subscriptionId ∈ s.gaveUp ∨
      .issued subscriptionId ∈ s.journal)

/-- What every step keeps. -/
structure Keeps (s s' : State) : Prop where
  journal : ∀ entry ∈ s.journal, entry ∈ s'.journal
  gaveUp : ∀ id ∈ s.gaveUp, id ∈ s'.gaveUp
  links : ∀ connection link, s.links.get? connection = some link →
    ∃ link', s'.links.get? connection = some link' ∧ (link'.alive = true → link.alive = true)
  contexts : ∀ connection id, s.holds connection id = true →
    s'.holds connection id = true ∨ id ∈ s'.gaveUp ∨ .issued id ∈ s'.journal ∨
      ∀ link, s'.links.get? connection = some link → link.alive = false

theorem Acked.keeps (h : Acked s nodeId connectionId subscriptionId) (hkeeps : Keeps s s') :
    Acked s' nodeId connectionId subscriptionId := by
  obtain ⟨link, hlink, hstands⟩ := h.stands
  obtain ⟨link', hlink', halive⟩ := hkeeps.links connectionId link hlink
  refine ⟨hkeeps.journal _ h.sent, link', hlink', fun halive' => ?_⟩
  rcases hstands (halive halive') with hholds | hgave | hissued
  · rcases hkeeps.contexts connectionId subscriptionId hholds with hkept | hgave | hissued | hdead
    · exact Or.inl hkept
    · exact Or.inr (Or.inl hgave)
    · exact Or.inr (Or.inr hissued)
    · rw [hdead link' hlink'] at halive'
      cases halive'
  · exact Or.inr (Or.inl (hkeeps.gaveUp _ hgave))
  · exact Or.inr (Or.inr (hkeeps.journal _ hissued))

theorem acked_keeps (hkeeps : Keeps s s')
    (h : ∃ connectionId, Acked s nodeId connectionId subscriptionId) :
    ∃ connectionId, Acked s' nodeId connectionId subscriptionId :=
  h.imp fun _ hacked => hacked.keeps hkeeps

/-- A step of the server leaves the wire and the streams. -/
theorem Keeps.of_server (hjournal : ∀ entry ∈ s.journal, entry ∈ s'.journal)
    (hgaveUp : s'.gaveUp = s.gaveUp) (hlinks : s'.links = s.links)
    (hcontexts : s'.contexts = s.contexts) : Keeps s s' where
  journal := hjournal
  gaveUp id hid := hgaveUp ▸ hid
  links connection link hlink := ⟨link, hlinks ▸ hlink, id⟩
  contexts connection id hholds := by
    left
    rw [State.holds, hcontexts]
    exact hholds

/-- What a command on the way to a node, or a message of it, tells. -/
def Command.Caused (s : State) (connectionId : String) : Command → Prop
  | .subscribe subscription =>
    ∃ node, .sent node connectionId subscription.subscriptionId ∈ s.journal
  | .unsubscribe subscriptionId => .issued subscriptionId ∈ s.journal

def Message.Meant (s : State) (connectionId : String) : Message → Prop
  | .subscribed subscriptionId ok => ok = true → ∃ node, Acked s node connectionId subscriptionId
  | .closed subscription => ∃ node, .sent node connectionId subscription.subscriptionId ∈ s.journal

structure Link.Sound (s : State) (link : Link) : Prop where
  commands : ∀ command ∈ link.toNode, command.Caused s link.connectionId
  messages : ∀ message ∈ link.toServer, message.Meant s link.connectionId

structure Wire (s : State) : Prop where
  links : ∀ link ∈ s.links.entries, link.Sound s
  contexts : ∀ context ∈ s.contexts.entries,
    ∃ node, .sent node context.connectionId context.subscriptionId ∈ s.journal
  stops : ∀ stop ∈ s.stops.entries, .issued stop.subscription.subscriptionId ∈ s.journal

structure Standing (s : State) : Prop where
  replied : ∀ opening ∈ s.openings.entries, opening.point = .replied true →
    ∃ connection, Acked s opening.subscription.nodeId connection
      opening.subscription.subscriptionId
  settled : ∀ record ∈ s.records.entries, s.openings.get? record.personaId = none →
    ∃ connection, Acked s record.nodeId connection record.subscriptionId
  answered : ∀ subscription, s.answered = some subscription →
    ∃ connection, Acked s subscription.nodeId connection subscription.subscriptionId

structure Sound (s : State) : Prop where
  books : Books s.records s.openings s.journal
  wire : Wire s
  standing : Standing s

theorem Link.Sound.keeps (h : link.Sound s) (hkeeps : Keeps s s') : link.Sound s' := by
  refine ⟨fun command hcommand => ?_, fun message hmessage => ?_⟩
  · have hcaused := h.commands command hcommand
    cases command with
    | subscribe subscription =>
      obtain ⟨node, hsent⟩ := hcaused
      exact ⟨node, hkeeps.journal _ hsent⟩
    | unsubscribe id => exact hkeeps.journal _ hcaused
  · have hmeant := h.messages message hmessage
    cases message with
    | subscribed id ok =>
      intro hok
      obtain ⟨node, hacked⟩ := hmeant hok
      exact ⟨node, hacked.keeps hkeeps⟩
    | closed subscription =>
      obtain ⟨node, hsent⟩ := hmeant
      exact ⟨node, hkeeps.journal _ hsent⟩

theorem Wire.of_server (h : Wire s) (hkeeps : Keeps s s') (hlinks : s'.links = s.links)
    (hcontexts : s'.contexts = s.contexts)
    (hstops : ∀ stop ∈ s'.stops.entries, stop ∈ s.stops.entries ∨
      .issued stop.subscription.subscriptionId ∈ s'.journal) : Wire s' where
  links link hlink := (h.links link (hlinks ▸ hlink)).keeps hkeeps
  contexts context hcontext := by
    obtain ⟨node, hsent⟩ := h.contexts context (hcontexts ▸ hcontext)
    exact ⟨node, hkeeps.journal _ hsent⟩
  stops stop hstop := by
    rcases hstops stop hstop with hold | hissued
    · exact hkeeps.journal _ (h.stops stop hold)
    · exact hissued

theorem Standing.keeps (h : Standing s) (hkeeps : Keeps s s') (hrecords : s'.records = s.records)
    (hopenings : s'.openings = s.openings) (hanswered : s'.answered = s.answered) :
    Standing s' where
  replied opening hopening hpoint := by
    exact acked_keeps hkeeps (h.replied opening (hopenings ▸ hopening) hpoint)
  settled record hrecord hfree := by
    exact acked_keeps hkeeps (h.settled record (hrecords ▸ hrecord) (hopenings ▸ hfree))
  answered subscription hsubscription := by
    exact acked_keeps hkeeps (h.answered subscription (hanswered ▸ hsubscription))

/-! ### One connection -/

theorem keeps_putLink (hold : s.links.get? link.connectionId = some old)
    (halive : link.alive = true → old.alive = true) : Keeps s (s.putLink link) := by
  refine ⟨fun _ h => h, fun _ h => h, fun connection link' hget => ?_, fun _ _ h => .inl h⟩
  show ∃ found, (s.links.put link).get? connection = some found ∧ _
  rw [Table.get?_put]
  split_ifs with hkey
  · rw [← hkey, hold] at hget
    cases hget
    exact ⟨link, rfl, halive⟩
  · exact ⟨link', hget, id⟩

/-- A connection sends, receives or is lost. -/
theorem Sound.putLink (h : Sound s) (hold : s.links.get? link.connectionId = some old)
    (halive : link.alive = true → old.alive = true) (hlink : link.Sound s) :
    Sound (s.putLink link) := by
  have hkeeps := keeps_putLink hold halive
  refine ⟨h.books, ⟨?_, fun context hcontext => ?_, h.wire.stops⟩,
    h.standing.keeps hkeeps rfl rfl rfl⟩
  · exact forall_put (fun other hother => (h.wire.links other hother).keeps hkeeps)
      (hlink.keeps hkeeps)
  · exact h.wire.contexts context hcontext

/-- The streams change. -/
theorem Sound.streams (h : Sound s) {contexts : Table Context.subscriptionId}
    (hkeeps : Keeps s { s with contexts := contexts, gaveUp := gaveUp })
    (hcontexts : ∀ context ∈ contexts.entries,
      ∃ node, .sent node context.connectionId context.subscriptionId ∈ s.journal) :
    Sound { s with contexts := contexts, gaveUp := gaveUp } where
  books := h.books
  wire := ⟨fun link hlink => (h.wire.links link hlink).keeps hkeeps, hcontexts, h.wire.stops⟩
  standing := h.standing.keeps hkeeps rfl rfl rfl

/-! ### The server -/

theorem Keeps.of_cons {entry : Entry} (hjournal : s'.journal = entry :: s.journal)
    (hgaveUp : s'.gaveUp = s.gaveUp) (hlinks : s'.links = s.links)
    (hcontexts : s'.contexts = s.contexts) : Keeps s s' := by
  refine .of_server (fun other hother => ?_) hgaveUp hlinks hcontexts
  rw [hjournal]
  exact mem_cons_of_mem _ hother

theorem Wire.issue (h : Wire s) (stopId : String) (subscription : Subscription)
    (waiter : Waiter) : Wire (s.issue stopId subscription waiter) := by
  refine h.of_server (.of_cons rfl rfl rfl rfl) rfl rfl fun stop hstop => ?_
  rcases mem_put.mp hstop with rfl | ⟨hstop, -⟩
  · exact Or.inr mem_cons_self
  · exact Or.inl hstop

theorem Sound.stopSelected (h : Sound s) {current : Subscription}
    (hcurrent : current ∈ s.records.entries)
    (hsent : ∀ opening ∈ s.openings.entries, opening.personaId = current.personaId →
      opening.point.unsent = false) (stopId : String) (waiter : Waiter) :
    Sound (s.stopSelected stopId current waiter) := by
  have hkeeps : Keeps s (s.stopSelected stopId current waiter) := .of_cons rfl rfl rfl rfl
  have hwire : Wire { s with records := s.records.erase current.personaId } :=
    h.wire.of_server (.of_server (fun _ h => h) rfl rfl rfl) rfl rfl fun _ h => .inl h
  refine ⟨h.books.stop hcurrent hsent, hwire.issue stopId current waiter, ?_⟩
  refine ⟨fun opening hopening hpoint => ?_, fun record hrecord hfree => ?_,
    fun subscription hsubscription => ?_⟩
  · exact acked_keeps hkeeps (h.standing.replied opening hopening hpoint)
  · exact acked_keeps hkeeps (h.standing.settled record (mem_erase.mp hrecord).1 hfree)
  · exact acked_keeps hkeeps (h.standing.answered subscription hsubscription)

theorem Sound.abandon (h : Sound s) (hopening : opening ∈ s.openings.entries)
    (stopId : String) (shielded : Bool) : Sound (s.abandon opening stopId shielded) := by
  have hrecords := h.books.records_abandon hopening
  have hkeeps : Keeps s (s.abandon opening stopId shielded) := .of_cons rfl rfl rfl rfl
  refine ⟨?_, ?_, ⟨fun other hother hpoint => ?_, fun record hrecord hfree => ?_,
    fun subscription hsubscription => ?_⟩⟩
  · have hbooks := h.books.abandon hopening
    rw [← hrecords] at hbooks
    exact hbooks
  · have hwire : Wire { s with
        openings := s.openings.erase opening.personaId
        records :=
          if s.records.get? opening.personaId = some opening.subscription then
            s.records.erase opening.personaId
          else s.records } :=
      h.wire.of_server (.of_server (fun _ h => h) rfl rfl rfl) rfl rfl fun _ h => .inl h
    exact hwire.issue stopId opening.subscription (.caller opening.personaId shielded)
  · exact acked_keeps hkeeps (h.standing.replied other (mem_erase.mp hother).1 hpoint)
  · have hmem : record ∈ (s.records.erase opening.personaId).entries := hrecords ▸ hrecord
    obtain ⟨hrecord, hkey⟩ := mem_erase.mp hmem
    have hfree : s.openings.get? record.personaId = none :=
      (s.openings.get?_erase_of_ne (Ne.symm hkey)).symm.trans hfree
    exact acked_keeps hkeeps (h.standing.settled record hrecord hfree)
  · exact acked_keeps hkeeps (h.standing.answered subscription hsubscription)

theorem Sound.replaceSelected (h : Sound s)
    (hfresh : ∀ entry ∈ s.journal, entry.subscriptionId ≠ subscription.subscriptionId)
    (hnone : s.records.get? subscription.personaId = none) :
    Sound (s.replaceSelected subscription) := by
  have hkeeps : Keeps s (s.replaceSelected subscription) := .of_cons rfl rfl rfl rfl
  refine ⟨h.books.replace hfresh hnone, h.wire.of_server hkeeps rfl rfl fun _ h => .inl h,
    ⟨fun opening hopening hpoint => ?_, fun record hrecord hfree => ?_, fun other hother => ?_⟩⟩
  · rcases mem_put.mp hopening with rfl | ⟨hopening, -⟩
    · cases hpoint
    · exact acked_keeps hkeeps (h.standing.replied opening hopening hpoint)
  · have hopened := s.openings.get?_put_self ⟨subscription, .connecting⟩
    rcases mem_put.mp hrecord with rfl | ⟨hrecord, hkey⟩
    · cases hfree.symm.trans hopened
    · have hfree : s.openings.get? record.personaId = none :=
        (s.openings.get?_put_of_ne (Ne.symm hkey)).symm.trans hfree
      exact acked_keeps hkeeps (h.standing.settled record hrecord hfree)
  · exact acked_keeps hkeeps (h.standing.answered other hother)

/-- A call goes on under the lock; a positive reply is that of its subscription. -/
theorem Sound.move (h : Sound s) (hopening : opening ∈ s.openings.entries)
    (point : Point) (hpoint : point.unsent = opening.point.unsent)
    (hreplied : point = .replied true → ∃ connection,
      Acked s opening.subscription.nodeId connection opening.subscription.subscriptionId) :
    Sound (s.putOpening { opening with point := point }) where
  books := h.books.move hopening point hpoint
  wire := h.wire.of_server (.of_server (fun _ h => h) rfl rfl rfl) rfl rfl fun _ h => .inl h
  standing := by
    have hkeeps : Keeps s (s.putOpening { opening with point := point }) :=
      .of_server (fun _ h => h) rfl rfl rfl
    refine ⟨fun other hother hpoint => ?_, fun record hrecord hfree => ?_,
      fun subscription hsubscription => ?_⟩
    · rcases mem_put.mp hother with rfl | ⟨hother, -⟩
      · exact acked_keeps hkeeps (hreplied hpoint)
      · exact acked_keeps hkeeps (h.standing.replied other hother hpoint)
    · exact acked_keeps hkeeps (h.standing.settled record hrecord (Table.get?_eq_none_of_put hfree))
    · exact acked_keeps hkeeps (h.standing.answered subscription hsubscription)

/-- The stops of other calls come and go. -/
theorem Sound.stops (h : Sound s) {stops : Table Stop.stopId}
    (hstops : ∀ stop ∈ stops.entries, ∃ old ∈ s.stops.entries,
      old.subscription = stop.subscription) : Sound { s with stops := stops } where
  books := h.books
  wire := by
    refine h.wire.of_server (.of_server (fun _ h => h) rfl rfl rfl) rfl rfl fun stop hstop => ?_
    obtain ⟨old, hold, heq⟩ := hstops stop hstop
    right
    rw [← heq]
    exact h.wire.stops old hold
  standing := h.standing.keeps (.of_server (fun _ h => h) rfl rfl rfl) rfl rfl rfl

/-! ## Every step -/

/-- Outside of the tables the server may do what it likes. -/
theorem Sound.of_same (h : Sound s) (hrecords : s'.records = s.records)
    (hopenings : s'.openings = s.openings) (hjournal : s'.journal = s.journal)
    (hstops : s'.stops = s.stops) (hlinks : s'.links = s.links)
    (hcontexts : s'.contexts = s.contexts) (hgaveUp : s'.gaveUp = s.gaveUp)
    (hanswered : ∀ subscription, s'.answered = some subscription →
      ∃ connection, Acked s subscription.nodeId connection subscription.subscriptionId) :
    Sound s' := by
  have hkeeps : Keeps s s' :=
    .of_server (fun _ h => hjournal ▸ h) hgaveUp hlinks hcontexts
  refine ⟨?_, h.wire.of_server hkeeps hlinks hcontexts fun _ h => .inl (hstops ▸ h),
    ⟨fun opening hopening hpoint => ?_, fun record hrecord hfree => ?_,
      fun subscription hsubscription => ?_⟩⟩
  · rw [hrecords, hopenings, hjournal]
    exact h.books
  · exact acked_keeps hkeeps (h.standing.replied opening (hopenings ▸ hopening) hpoint)
  · exact acked_keeps hkeeps (h.standing.settled record (hrecords ▸ hrecord) (hopenings ▸ hfree))
  · exact acked_keeps hkeeps (hanswered subscription hsubscription)

/-- An answer of the past is not asked for again. -/
theorem Sound.unanswered (h : Sound s) : Sound { s with answered := none } :=
  h.of_same rfl rfl rfl rfl rfl rfl rfl fun _ hnone => by cases hnone

theorem openings_of_lockFree (h : s.lockFree personaId = true) :
    s.openings.get? personaId = none := by
  have hcontains := (Bool.and_eq_true_iff.mp h).1
  simpa [Table.contains] using hcontains

theorem opening_of_opening? (h : s.opening? personaId stopId = some opening) :
    s.openings.get? personaId = some opening := by
  rw [State.opening?] at h
  split_ifs at h
  exact h

section

variable (h : Sound s)
include h

theorem sound_connect (hs : s.connect link = some s') : Sound s' := by
  rw [State.connect] at hs
  split_ifs at hs with hguard
  cases hs
  obtain ⟨-, hfresh, hcommands, hmessages⟩ := hguard
  have hnone : s.links.get? link.connectionId = none := by simpa [Table.contains] using hfresh
  have hkeeps : Keeps s (s.putLink link) := by
    refine ⟨fun _ h => h, fun _ h => h, fun connection old hget => ⟨old, ?_, id⟩,
      fun _ _ h => .inl h⟩
    refine (s.links.get?_put_of_ne fun hkey => ?_).trans hget
    rw [← hkey, hnone] at hget
    cases hget
  have hput : Sound (s.putLink link) := by
    refine ⟨h.books, ⟨?_, fun context hcontext => h.wire.contexts context hcontext,
      h.wire.stops⟩, h.standing.keeps hkeeps rfl rfl rfl⟩
    refine forall_put (fun other hother => (h.wire.links other hother).keeps hkeeps) ?_
    refine ⟨fun command hcommand => ?_, fun message hmessage => ?_⟩
    · rw [hcommands] at hcommand
      cases hcommand
    · rw [hmessages] at hmessage
      cases hmessage
  exact hput.of_same rfl rfl rfl rfl rfl rfl rfl hput.standing.answered

theorem sound_lose (hs : s.lose connectionId = some s') : Sound s' := by
  obtain ⟨link, hlink, rfl⟩ := map_eq_some_iff.mp hs
  have hmem := mem_of_get? hlink
  have hold : s.links.get? link.connectionId = some link := Table.get?_of_mem hmem
  have hsound := h.wire.links link hmem
  exact h.putLink hold (fun halive => by cases halive) ⟨hsound.commands, hsound.messages⟩

theorem sound_subscribe {target : Target} {subscriptionId : String}
    (hs : s.subscribe target subscriptionId stopId = some s') : Sound s' := by
  rw [State.subscribe] at hs
  split_ifs at hs with hguard
  obtain ⟨hlock, hfresh, -⟩ := hguard
  have hfree := openings_of_lockFree hlock
  have hnew : ∀ entry ∈ s.journal, entry.subscriptionId ≠ subscriptionId := by
    simpa [State.fresh] using hfresh
  cases hrecord : s.records.get? target.personaId with
  | none =>
    rw [hrecord] at hs
    cases hs
    exact h.replaceSelected hnew hrecord
  | some current =>
    have hmem := mem_of_get? hrecord
    have hkey : current.personaId = target.personaId := key_of_get? hrecord
    simp only [hrecord] at hs
    split_ifs at hs with hsame
    · cases hs
      refine h.of_same rfl rfl rfl rfl rfl rfl rfl fun subscription hsubscription => ?_
      cases hsubscription
      exact h.standing.settled current hmem (by rw [hkey, hfree])
    · cases hs
      have hstopped := h.stopSelected hmem (fun opening hopening hpersona => ?_) stopId .nobody
      · refine hstopped.replaceSelected (fun entry hentry => ?_) ?_
        · rcases mem_cons.mp hentry with rfl | hentry
          · exact hnew (.recorded current) (h.books.recorded current hmem).1
          · exact hnew entry hentry
        · show (s.records.erase current.personaId).get? target.personaId = none
          rw [hkey, Table.get?_erase_self]
      · have hopened := Table.get?_of_mem hopening
        rw [hpersona, hkey, hfree] at hopened
        cases hopened

theorem sound_findConnection (hs : s.findConnection personaId stopId = some s') : Sound s' := by
  obtain ⟨opening, hopening, rfl⟩ := map_eq_some_iff.mp hs
  obtain ⟨hopening, hpoint⟩ := filter_eq_some_iff.mp hopening
  have hpoint : opening.point = .connecting := by simpa using hpoint
  have hmem := mem_of_get? (opening_of_opening? hopening)
  split
  · refine h.move hmem _ ?_ fun hreplied => by cases hreplied
    rw [hpoint]
    rfl
  · exact h.abandon hmem stopId false

/-- The command is on the way, and the call waits. -/
theorem Sound.sent (hopening : opening ∈ s.openings.entries)
    (hpoint : opening.point.unsent = true) (connectionId : String) :
    Sound { s.putOpening { opening with point := .waiting } with
      journal := .sent opening.subscription.nodeId connectionId
        opening.subscription.subscriptionId :: s.journal } where
  books := h.books.send hopening hpoint connectionId
  wire := h.wire.of_server (.of_cons rfl rfl rfl rfl) rfl rfl fun _ h => .inl h
  standing := by
    have hkeeps : Keeps s { s.putOpening { opening with point := .waiting } with
        journal := .sent opening.subscription.nodeId connectionId
          opening.subscription.subscriptionId :: s.journal } := .of_cons rfl rfl rfl rfl
    refine ⟨fun other hother hpoint => ?_, fun record hrecord hfree => ?_,
      fun subscription hsubscription => ?_⟩
    · rcases mem_put.mp hother with rfl | ⟨hother, -⟩
      · cases hpoint
      · exact acked_keeps hkeeps (h.standing.replied other hother hpoint)
    · exact acked_keeps hkeeps (h.standing.settled record hrecord (Table.get?_eq_none_of_put hfree))
    · exact acked_keeps hkeeps (h.standing.answered subscription hsubscription)

theorem sound_send (hs : s.send personaId stopId ok = some s') : Sound s' := by
  obtain ⟨opening, hopening, hs⟩ := bind_eq_some_iff.mp hs
  have hmem := mem_of_get? (opening_of_opening? hopening)
  split at hs
  · rename_i connection hpoint
    split_ifs at hs with hok
    · obtain ⟨link, hlink, rfl⟩ := map_eq_some_iff.mp hs
      have hkey : link.connectionId = connection := key_of_get? hlink
      have hsent := h.sent hmem (by rw [hpoint]; rfl) connection
      have hsound := hsent.wire.links link (mem_of_get? hlink)
      have hold : s.links.get? link.connectionId = some link := by rw [hkey, hlink]
      refine hsent.putLink hold id ⟨fun command hcommand => ?_, hsound.messages⟩
      rcases mem_append.mp hcommand with hcommand | hcommand
      · exact hsound.commands command hcommand
      · rw [mem_singleton.mp hcommand, hkey]
        exact ⟨opening.subscription.nodeId, mem_cons_self⟩
    · cases hs
      exact h.abandon hmem stopId false
  · cases hs

theorem sound_resume (hs : s.resume personaId stopId = some s') : Sound s' := by
  obtain ⟨opening, hopening, hs⟩ := bind_eq_some_iff.mp hs
  have hget := opening_of_opening? hopening
  have hmem := mem_of_get? hget
  have hkey : opening.personaId = personaId := key_of_get? hget
  split at hs
  · rename_i hpoint
    cases hs
    obtain ⟨connection, hacked⟩ := h.standing.replied opening hmem hpoint
    have hkeeps : Keeps s { s with
        openings := s.openings.erase personaId
        answered := some opening.subscription } := .of_server (fun _ h => h) rfl rfl rfl
    refine ⟨h.books.leave personaId, h.wire.of_server hkeeps rfl rfl fun _ h => .inl h,
      ⟨fun other hother hpoint => ?_, fun record hrecord hfree => ?_,
        fun subscription hsubscription => ?_⟩⟩
    · exact acked_keeps hkeeps (h.standing.replied other (mem_erase.mp hother).1 hpoint)
    · by_cases hpersona : record.personaId = personaId
      · have hrecorded : s.records.get? opening.personaId = some record := by
          rw [hkey, ← hpersona]
          exact Table.get?_of_mem hrecord
        rw [h.books.same opening hmem record hrecorded]
        exact ⟨connection, hacked.keeps hkeeps⟩
      · have hfree : s.openings.get? record.personaId = none :=
          (s.openings.get?_erase_of_ne (Ne.symm hpersona)).symm.trans hfree
        exact acked_keeps hkeeps (h.standing.settled record hrecord hfree)
    · cases hsubscription
      exact ⟨connection, hacked.keeps hkeeps⟩
  · cases hs
    exact h.abandon hmem stopId false
  · cases hs

theorem sound_timeOut (hs : s.timeOut personaId stopId = some s') : Sound s' := by
  obtain ⟨opening, hopening, rfl⟩ := map_eq_some_iff.mp hs
  have hget := opening_of_opening? (filter_eq_some_iff.mp hopening).1
  exact h.abandon (mem_of_get? hget) stopId false

theorem sound_cancel (hs : s.cancel personaId stopId = some s') : Sound s' := by
  obtain ⟨opening, hopening, rfl⟩ := map_eq_some_iff.mp hs
  exact h.abandon (mem_of_get? (opening_of_opening? hopening)) stopId true

theorem sound_unsubscribe {publicThreadId : Option String}
    (hs : s.unsubscribe personaId stopId publicThreadId = some s') : Sound s' := by
  rw [State.unsubscribe] at hs
  split_ifs at hs with hguard
  cases hs
  have hfree := openings_of_lockFree hguard.1
  split
  · exact h
  · rename_i current hselected
    have hget := (filter_eq_some_iff.mp hselected).1
    have hkey : current.personaId = personaId := key_of_get? hget
    refine h.stopSelected (mem_of_get? hget) (fun opening hopening hpersona => ?_) _ _
    have hopened := Table.get?_of_mem hopening
    rw [hpersona, hkey, hfree] at hopened
    cases hopened

theorem sound_publishSubscribed {id : String}
    (hmeant : ok = true → ∃ node, Acked s node connectionId id) :
    Sound (s.publishSubscribed id ok) := by
  rw [State.publishSubscribed]
  split
  · exact h
  · rename_i opening hfind
    have hmem := mem_of_find?_eq_some hfind
    have hfound := List.find?_some hfind
    simp only [Bool.and_eq_true, decide_eq_true_eq] at hfound
    obtain ⟨rfl, hpoint⟩ := hfound
    refine h.move hmem (.replied ok) (by rw [hpoint]; rfl) fun hreplied => ?_
    obtain ⟨node, hacked⟩ := hmeant (Point.replied.inj hreplied)
    obtain ⟨connection, hsent⟩ := h.books.sent opening hmem (by rw [hpoint]; rfl)
    obtain ⟨rfl, -⟩ := h.books.sentOnce _ _ _ _ _ hacked.sent hsent
    exact ⟨connectionId, hacked⟩

theorem sound_handleThreadClosed {closed : Subscription}
    (hsent : .sent node connectionId closed.subscriptionId ∈ s.journal) (stopId : String) :
    Sound (s.handleThreadClosed connectionId stopId closed) := by
  rw [State.handleThreadClosed]
  cases hrecord : s.records.get? closed.personaId with
  | none => exact h
  | some current =>
    show Sound (if _ then _ else _)
    split_ifs with hmatches
    · refine h.stopSelected (mem_of_get? hrecord) (fun opening hopening hpersona => ?_) _ _
      cases hunsent : opening.point.unsent with
      | false => rfl
      | true =>
        -- a command that the node has not got cannot have an event
        obtain ⟨hget, hnever⟩ := h.books.unsent opening hopening hunsent
        have hkey : current.personaId = closed.personaId := key_of_get? hrecord
        rw [hpersona, hkey, hrecord] at hget
        cases hget
        rw [← hmatches.1] at hsent
        exact absurd hsent (hnever node connectionId)
    · exact h

theorem sound_receive (hs : s.receive connectionId stopId = some s') : Sound s' := by
  rw [State.receive] at hs
  split_ifs at hs
  obtain ⟨link, hlink, hs⟩ := bind_eq_some_iff.mp hs
  split_ifs at hs
  have hmem := mem_of_get? hlink
  have hkey : link.connectionId = connectionId := key_of_get? hlink
  have hold : s.links.get? link.connectionId = some link := Table.get?_of_mem hmem
  have hsound := h.wire.links link hmem
  split at hs
  · cases hs
  · rename_i message rest hqueue
    cases hs
    have hmeant := hsound.messages message (by rw [hqueue]; exact mem_cons_self)
    have hkeeps : Keeps s (s.putLink { link with toServer := rest }) := keeps_putLink hold id
    have htaken : Sound (s.putLink { link with toServer := rest }) := by
      refine h.putLink hold id ⟨hsound.commands, fun other hother => ?_⟩
      exact hsound.messages other (by rw [hqueue]; exact mem_cons_of_mem _ hother)
    cases message with
    | subscribed id ok =>
      have hacked : ok = true → ∃ node,
          Acked (s.putLink { link with toServer := rest }) node link.connectionId id := by
        intro hok
        obtain ⟨node, hacked⟩ := hmeant hok
        exact ⟨node, hacked.keeps hkeeps⟩
      exact sound_publishSubscribed htaken hacked
    | closed subscription =>
      obtain ⟨node, hsent⟩ := hmeant
      exact sound_handleThreadClosed htaken (hkey ▸ hsent) stopId

theorem sound_stopFinds (hs : s.stopFinds stopId = some s') : Sound s' := by
  obtain ⟨stop, hstop, rfl⟩ := map_eq_some_iff.mp hs
  have hmem := mem_of_get? (filter_eq_some_iff.mp hstop).1
  split
  · exact h.stops (forall_put (fun other hother => ⟨other, hother, rfl⟩) ⟨stop, hmem, rfl⟩)
  · exact h.stops fun other hother => ⟨other, (mem_erase.mp hother).1, rfl⟩

theorem sound_stopSends (hs : s.stopSends stopId ok = some s') : Sound s' := by
  obtain ⟨stop, hstop, hs⟩ := bind_eq_some_iff.mp hs
  have hmem := mem_of_get? hstop
  split at hs
  · rename_i connection hpoint
    split_ifs at hs with hok
    · obtain ⟨link, hlink, rfl⟩ := map_eq_some_iff.mp hs
      have hput : Sound { s with stops := s.stops.put { stop with point := .waiting } } :=
        h.stops (forall_put (fun other hother => ⟨other, hother, rfl⟩) ⟨stop, hmem, rfl⟩)
      have hlinked := mem_of_get? hlink
      have hold : s.links.get? link.connectionId = some link := Table.get?_of_mem hlinked
      have hsound := hput.wire.links link hlinked
      refine hput.putLink hold id ⟨fun command hcommand => ?_, hsound.messages⟩
      rcases mem_append.mp hcommand with hcommand | hcommand
      · exact hsound.commands command hcommand
      · rw [mem_singleton.mp hcommand]
        exact h.wire.stops stop hmem
    · cases hs
      exact h.stops fun other hother => ⟨other, (mem_erase.mp hother).1, rfl⟩
  · cases hs

theorem sound_stopEnds (hs : s.stopEnds stopId = some s') : Sound s' := by
  obtain ⟨stop, -, rfl⟩ := map_eq_some_iff.mp hs
  exact h.stops fun other hother => ⟨other, (mem_erase.mp hother).1, rfl⟩

theorem sound_cancelWaiter (hs : s.cancelWaiter stopId = some s') : Sound s' := by
  obtain ⟨stop, hstop, hs⟩ := bind_eq_some_iff.mp hs
  have hmem := mem_of_get? hstop
  split at hs
  · cases hs
    exact h.stops (forall_put (fun other hother => ⟨other, hother, rfl⟩) ⟨stop, hmem, rfl⟩)
  · cases hs
    exact h.stops fun other hother => ⟨other, (mem_erase.mp hother).1, rfl⟩
  · cases hs

end

/-! ### The nodes -/

/-- A stream is set up, or changes. -/
theorem keeps_putContext (context : Context)
    (hgaveUp : ∀ id ∈ s.gaveUp, id ∈ gaveUp)
    (hheld : ∀ connection, s.holds connection context.subscriptionId = true →
      context.connectionId = connection ∧ context.stream ≠ .broken ∨
        context.subscriptionId ∈ gaveUp) :
    Keeps s { s with contexts := s.contexts.put context, gaveUp := gaveUp } where
  journal _ h := h
  gaveUp := hgaveUp
  links connection link hlink := ⟨link, hlink, id⟩
  contexts connection id hholds := by
    by_cases hid : context.subscriptionId = id
    · rw [← hid] at hholds ⊢
      rcases hheld connection hholds with ⟨hconnection, hstream⟩ | hgave
      · left
        simp [State.holds, hconnection, hstream]
      · exact Or.inr (Or.inl hgave)
    · left
      rw [State.holds, s.contexts.get?_put_of_ne hid]
      exact hholds

/-- A stream is gone. -/
theorem keeps_eraseContext (subscriptionId : String)
    (hgaveUp : ∀ id ∈ s.gaveUp, id ∈ gaveUp)
    (hgone : ∀ connection, s.holds connection subscriptionId = true →
      subscriptionId ∈ gaveUp ∨ .issued subscriptionId ∈ s.journal ∨
        ∀ link, s.links.get? connection = some link → link.alive = false) :
    Keeps s { s with contexts := s.contexts.erase subscriptionId, gaveUp := gaveUp } where
  journal _ h := h
  gaveUp := hgaveUp
  links connection link hlink := ⟨link, hlink, id⟩
  contexts connection id hholds := by
    by_cases hid : subscriptionId = id
    · rw [← hid] at hholds ⊢
      exact Or.inr (hgone connection hholds)
    · left
      rw [State.holds, s.contexts.get?_erase_of_ne hid]
      exact hholds

theorem Sound.eraseContext (h : Sound s)
    (hkeeps : Keeps s
      { s with contexts := s.contexts.erase subscriptionId, gaveUp := gaveUp }) :
    Sound { s with contexts := s.contexts.erase subscriptionId, gaveUp := gaveUp } :=
  h.streams hkeeps fun context hcontext => h.wire.contexts context (mem_erase.mp hcontext).1

theorem connection_of_holds
    (hget : s.contexts.get? subscriptionId = some context)
    (hholds : s.holds connectionId subscriptionId = true) :
    context.connectionId = connectionId := by
  rw [State.holds, hget] at hholds
  have hboth : context.connectionId = connectionId ∧ context.stream ≠ .broken := by
    simpa using hholds
  exact hboth.1

section

variable (h : Sound s)
include h

theorem sound_setStream
    (hget : s.contexts.get? subscriptionId = some context) (stream : Stream)
    (hgaveUp : ∀ id ∈ s.gaveUp, id ∈ gaveUp)
    (hstream : stream ≠ .broken ∨ subscriptionId ∈ gaveUp) :
    Sound { s.setStream context stream with gaveUp := gaveUp } := by
  have hmem := mem_of_get? hget
  have hkey : context.subscriptionId = subscriptionId := key_of_get? hget
  refine h.streams (keeps_putContext { context with stream := stream } hgaveUp ?_)
    (forall_put h.wire.contexts (h.wire.contexts context hmem))
  intro connection hholds
  rcases hstream with hstream | hgave
  · left
    have hholds : s.holds connection subscriptionId = true := by
      rw [← hkey]
      exact hholds
    have hconnection := connection_of_holds hget hholds
    exact ⟨hconnection, hstream⟩
  · right
    show context.subscriptionId ∈ gaveUp
    rw [hkey]
    exact hgave

theorem sound_resumed (hs : s.resumed subscriptionId = some s') : Sound s' := by
  obtain ⟨context, hcontext, rfl⟩ := map_eq_some_iff.mp hs
  have hget := (filter_eq_some_iff.mp hcontext).1
  exact sound_setStream h hget .streaming (fun _ h => h) (.inl (by simp))

theorem sound_breaksOff (hs : s.breaksOff subscriptionId = some s') : Sound s' := by
  obtain ⟨context, hcontext, rfl⟩ := map_eq_some_iff.mp hs
  have hget := (filter_eq_some_iff.mp hcontext).1
  exact sound_setStream h hget .broken (fun _ h => mem_cons_of_mem _ h)
    (.inr mem_cons_self)

theorem sound_resumeFails (hs : s.resumeFails subscriptionId = some s') : Sound s' := by
  obtain ⟨context, -, rfl⟩ := map_eq_some_iff.mp hs
  refine h.eraseContext (keeps_eraseContext subscriptionId
    (fun _ h => mem_cons_of_mem _ h) fun _ _ => ?_)
  exact Or.inl mem_cons_self

theorem sound_cancelContext (hs : s.cancelContext subscriptionId = some s') : Sound s' := by
  obtain ⟨context, hget, hs⟩ := bind_eq_some_iff.mp hs
  split_ifs at hs with hdead
  cases hs
  refine h.eraseContext (keeps_eraseContext subscriptionId (fun _ h => h) fun connection hholds => ?_)
  right
  right
  intro link hlink
  rw [connection_of_holds hget hholds, State.aliveLink, hlink] at hdead
  cases halive : link.alive with
  | false => rfl
  | true => simp [Option.filter, halive] at hdead

theorem sound_threadCloses (hs : s.threadCloses subscriptionId = some s') : Sound s' := by
  obtain ⟨context, hcontext, hs⟩ := bind_eq_some_iff.mp hs
  obtain ⟨link, hlink, rfl⟩ := map_eq_some_iff.mp hs
  have hget := (filter_eq_some_iff.mp hcontext).1
  have hfound := (filter_eq_some_iff.mp hlink).1
  have hmem := mem_of_get? hfound
  have hkey : link.connectionId = context.connectionId := key_of_get? hfound
  have hold : s.links.get? link.connectionId = some link := Table.get?_of_mem hmem
  have hsound := h.wire.links link hmem
  refine h.putLink hold id ⟨hsound.commands, fun message hmessage => ?_⟩
  rcases mem_append.mp hmessage with hmessage | hmessage
  · exact hsound.messages message hmessage
  · rw [mem_singleton.mp hmessage, hkey]
    exact h.wire.contexts context (mem_of_get? hget)

theorem sound_subscribeCodexThread
    (hold : ∃ old, s.links.get? link.connectionId = some old ∧
      (link.alive = true → old.alive = true)) (hlink : link.Sound s)
    (hsent : .sent node link.connectionId subscription.subscriptionId ∈ s.journal) :
    Sound (s.subscribeCodexThread link subscription) := by
  obtain ⟨old, hold, halive⟩ := hold
  rw [State.subscribeCodexThread]
  split_ifs with hcan
  · have hkeeps := keeps_putContext (s := s) ⟨subscription, link.connectionId, .resuming⟩
      (fun _ h => h) fun connection hholds => ?_
    · have hput := h.streams hkeeps (forall_put h.wire.contexts ⟨node, hsent⟩)
      have hsound := hlink.keeps hkeeps
      refine hput.putLink hold halive ⟨hsound.commands, fun message hmessage => ?_⟩
      rcases mem_append.mp hmessage with hmessage | hmessage
      · exact hsound.messages message hmessage
      · rw [mem_singleton.mp hmessage]
        refine fun _ => ⟨node, hsent, old, hold, fun _ => .inl ?_⟩
        have hself := s.contexts.get?_put_self ⟨subscription, link.connectionId, .resuming⟩
        rw [State.holds]
        show ((s.contexts.put ⟨subscription, link.connectionId, .resuming⟩).get?
          subscription.subscriptionId).any _ = true
        rw [show subscription.subscriptionId =
          Context.subscriptionId ⟨subscription, link.connectionId, .resuming⟩ from rfl, hself]
        simp
    · left
      cases hget : s.contexts.get? subscription.subscriptionId with
      | none =>
        have hnone : s.holds connection subscription.subscriptionId = false := by
          rw [State.holds, hget]
          rfl
        cases hnone.symm.trans hholds
      | some context =>
        obtain ⟨node', hsent'⟩ := h.wire.contexts context (mem_of_get? hget)
        rw [connection_of_holds hget hholds, key_of_get? hget] at hsent'
        exact ⟨(h.books.sentOnce _ _ _ _ _ hsent hsent').2, by simp⟩
  · refine h.putLink hold halive ⟨hlink.commands, fun message hmessage => ?_⟩
    rcases mem_append.mp hmessage with hmessage | hmessage
    · exact hlink.messages message hmessage
    · rw [mem_singleton.mp hmessage]
      intro hok
      cases hok

theorem sound_handle (hs : s.handle connectionId = some s') : Sound s' := by
  obtain ⟨link, hlink, hs⟩ := bind_eq_some_iff.mp hs
  have hmem := mem_of_get? (filter_eq_some_iff.mp hlink).1
  have hold : s.links.get? link.connectionId = some link := Table.get?_of_mem hmem
  have hsound := h.wire.links link hmem
  split at hs
  · cases hs
  · rename_i subscription rest hqueue
    cases hs
    have hcaused := hsound.commands (.subscribe subscription) (by simp [hqueue])
    obtain ⟨node, hsent⟩ := hcaused
    refine sound_subscribeCodexThread h ⟨link, hold, id⟩ ⟨fun command hcommand => ?_,
      hsound.messages⟩ hsent
    exact hsound.commands command (by rw [hqueue]; exact mem_cons_of_mem _ hcommand)
  · rename_i id rest hqueue
    cases hs
    have hissued : .issued id ∈ s.journal :=
      hsound.commands (.unsubscribe id) (by simp [hqueue])
    have hkeeps : Keeps s { s with contexts := s.contexts.erase id } :=
      keeps_eraseContext id (fun _ h => h) fun _ _ => .inr (.inl hissued)
    have herased : Sound { s with contexts := s.contexts.erase id } := h.eraseContext hkeeps
    refine herased.putLink hold (fun halive => halive)
      ⟨fun command hcommand => ?_, (hsound.keeps hkeeps).messages⟩
    exact (hsound.keeps hkeeps).commands command
      (by rw [hqueue]; exact mem_cons_of_mem _ hcommand)

end

/-! ### Every run -/

theorem sound_act (h : Sound s) {label : Label} (hs : s.act label = some s') : Sound s' := by
  cases label with
  | connect link => exact sound_connect h hs
  | disconnect nodeId =>
    simp only [State.act, State.disconnect] at hs
    split_ifs at hs
    cases hs
    exact h.of_same rfl rfl rfl rfl rfl rfl rfl h.standing.answered
  | lose connectionId => exact sound_lose h hs
  | subscribe target subscriptionId stopId => exact sound_subscribe h hs
  | findConnection personaId stopId => exact sound_findConnection h hs
  | send personaId stopId ok => exact sound_send h hs
  | receive connectionId stopId => exact sound_receive h hs
  | resume personaId stopId => exact sound_resume h hs
  | timeOut personaId stopId => exact sound_timeOut h hs
  | cancel personaId stopId => exact sound_cancel h hs
  | unsubscribe personaId stopId publicThreadId => exact sound_unsubscribe h hs
  | stopFinds stopId => exact sound_stopFinds h hs
  | stopSends stopId ok => exact sound_stopSends h hs
  | stopEnds stopId => exact sound_stopEnds h hs
  | cancelWaiter stopId => exact sound_cancelWaiter h hs
  | handle connectionId => exact sound_handle h hs
  | resumed subscriptionId => exact sound_resumed h hs
  | resumeFails subscriptionId => exact sound_resumeFails h hs
  | breaksOff subscriptionId => exact sound_breaksOff h hs
  | threadCloses subscriptionId => exact sound_threadCloses h hs
  | cancelContext subscriptionId => exact sound_cancelContext h hs

theorem sound_initialState : Sound initialState where
  books := by
    have hnone : ∀ entry : Entry, entry ∉ initialState.journal := fun _ h => not_mem_nil h
    refine ⟨fun one _ h => absurd h (hnone _), fun _ _ _ _ _ h => absurd h (hnone _),
      fun _ h => absurd h not_mem_nil, fun _ h => absurd h not_mem_nil,
      fun _ h => absurd h not_mem_nil, fun _ h => absurd h not_mem_nil,
      fun _ h => absurd h not_mem_nil, fun newer older _ _ _ h => ?_⟩
    have hlength := congrArg List.length h
    simp [initialState] at hlength
  wire := ⟨fun _ h => absurd h not_mem_nil, fun _ h => absurd h not_mem_nil,
    fun _ h => absurd h not_mem_nil⟩
  standing := ⟨fun _ h => absurd h not_mem_nil, fun _ h => absurd h not_mem_nil,
    fun _ h => by cases h⟩

/-- The answers of a sound state. -/
theorem Sound.answersTrulyAtFirst (h : Sound s) : s.AnswersTrulyAtFirst := by
  intro subscription hsubscription
  obtain ⟨connection, hacked⟩ := h.standing.answered subscription hsubscription
  refine ⟨connection, hacked.sent, fun hrecord hcurrent => ?_⟩
  obtain ⟨link, hlink, hstands⟩ := hacked.stands
  obtain ⟨current, hfound, hconnection⟩ := map_eq_some_iff.mp hcurrent
  obtain ⟨hfound, halive⟩ := filter_eq_some_iff.mp hfound
  obtain ⟨name, -, hget⟩ := bind_eq_some_iff.mp hfound
  have hsame : s.links.get? connection = some current := by
    rw [← hconnection]
    exact Table.get?_of_mem (mem_of_get? hget)
  cases hlink.symm.trans hsame
  have hissued := (h.books.recorded subscription (mem_of_get? hrecord)).2
  rcases hstands halive with hholds | hgave | hoff
  · exact Or.inl hholds
  · exact Or.inr hgave
  · exact absurd hoff hissued

/-- Whatever calls are made, fail or are cancelled, and whatever happens to the nodes. -/
theorem answers_stand_until_given_up (ls : List Label) :
    system.Always (fun s => s.AnswersTrulyAtFirst ∧ s.Accounted) initialState ls := by
  have hsound : system.Always Sound initialState ls :=
    (system.along_true initialState ls).always sound_initialState fun _ _ _ h _ hs =>
      sound_act h.unanswered hs
  exact hsound.mono fun s h => ⟨h.answersTrulyAtFirst, h.books.accounted⟩

end

/-! ## A resume that fails -/

/-- The node acknowledges the subscription of a thread that it then cannot resume. -/
def failedResume : List Label :=
  [ .connect ⟨"connection-1", "node-1", true, true, true, [], []⟩,
    .subscribe ⟨"persona-1", "thread-1", "codex-1", "node-1"⟩ "sub-1" "stop-1",
    .findConnection "persona-1" "stop-1", .send "persona-1" "stop-1" true,
    .handle "connection-1", .resumeFails "sub-1", .receive "connection-1" "stop-1",
    .resume "persona-1" "stop-1" ]

theorem subscribed_without_stream :
    ¬ ∀ ls, system.Always (fun s => s.AnswersTruly ∧ s.Accounted) initialState ls := by
  intro h
  have hrun : (system.run initialState failedResume).isSome = true := by decide
  have htruly := ((h failedResume).at_end (System.run_eq_target hrun)).1
  obtain ⟨record, hrecord, connection, -, -, hholds⟩ :=
    htruly ⟨"sub-1", "persona-1", "thread-1", "codex-1", "node-1"⟩ (by decide)
  have hnone : (system.target initialState failedResume).contexts.entries = [] := by decide
  have hget : ∀ id, (system.target initialState failedResume).contexts.get? id = none := by
    intro id
    rw [Table.get?, hnone]
    rfl
  rw [State.holds, hget] at hholds
  cases hholds

end Newbro.ThreadSubscriptions
