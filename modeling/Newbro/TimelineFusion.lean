import Newbro.BroTimeline
import Newbro.TimelineIdentity

/-!
# Turns that share a client request

The timeline merges an executor turn by its client request before its identity is looked at,
and a turn without a match is put over a kept one of its id. Both lose the identity of a turn.
The merge is followed row by row, with the rows that went into each kept turn beside it.
-/
namespace Newbro.BroTimeline

open Library Protocol OutboundTurns Option Table List

/-- What is merged: the turn of a task, or a turn of an executor. -/
inductive Row where
  | newbro (turn : TimelineTurn)
  | executor (turn : TimelineTurn)

def Row.turn : Row → TimelineTurn
  | newbro turn => turn
  | executor turn => turn

/-- The timeline so far, the rows that it was made of, and the rows in each kept turn. -/
structure Gathered where
  merging : Merging
  inputs : List TimelineTurn
  parts : Dict String (List TimelineTurn)

namespace Gathered

def empty : Gathered := ⟨Merging.empty, [], Table.empty⟩

def partsOf (g : Gathered) (turnId : String) : List TimelineTurn :=
  (g.parts.lookup turnId).getD []

/-- The kept turn that an executor turn is merged into. -/
def targetOf (g : Gathered) (turn : TimelineTurn) : Option TimelineTurn :=
  (g.merging.byRequest turn).or (g.merging.byIdentity turn)

def add (lower : String → String) (g : Gathered) : Row → Gathered
  | .newbro turn => ⟨g.merging.keepTurn turn, g.inputs ++ [turn], g.parts.set turn.turnId [turn]⟩
  | .executor turn =>
    let parts := match g.targetOf turn with
      | some kept => g.parts.set kept.turnId (g.partsOf kept.turnId ++ [turn])
      | none => g.parts.set turn.turnId [turn]
    ⟨g.merging.placeExecutorTurn lower turn, g.inputs ++ [turn], parts⟩

end Gathered

/-- The two loops, one row a step. -/
def projecting (lower : String → String) : System Gathered Row where
  initial g := g = Gathered.empty
  step g row := some (g.add lower row)

def timelineRows (newbro executorTurns : List TimelineTurn) : List Row :=
  newbro.map .newbro ++ executorTurns.map .executor

/-- The timeline with the rows that went into each of its turns. -/
def gathered (lower : String → String) (newbro executorTurns : List TimelineTurn) : Gathered :=
  (timelineRows newbro executorTurns).foldl (Gathered.add lower) Gathered.empty

/-- No turn is lost or fused: the ids of the timeline are distinct, each identity of a row is
on exactly one turn, and no turn was made of rows with different identities. -/
structure TurnsKept (inputs outputs : List TimelineTurn)
    (partsOf : String → List TimelineTurn) : Prop where
  ids : (outputs.map TimelineTurn.turnId).Nodup
  once : ∀ row ∈ inputs, ∀ i, timelineIdentity row = some i →
    ∃! turn, turn ∈ outputs ∧ timelineIdentity turn = some i
  unfused : ∀ turn ∈ outputs, ∀ a ∈ partsOf turn.turnId, ∀ b ∈ partsOf turn.turnId, ∀ i j,
    timelineIdentity a = some i → timelineIdentity b = some j → i = j

def Gathered.Kept (g : Gathered) : Prop :=
  TurnsKept g.inputs g.merging.merged.entries g.partsOf

/-! ## When a row takes nothing from another -/

def sharesIdentity (a b : Option (String × String × String)) : Bool := a.isSome && a = b

variable (p : Merging)

/-- A turn may be kept of its own: it is put over no turn of another identity, and no other
turn has its identity. -/
def keptApart (turn : TimelineTurn) : Bool :=
  (p.merged.get? turn.turnId).all (fun old =>
      (timelineIdentity old).isNone || timelineIdentity old = timelineIdentity turn) &&
    p.merged.entries.all fun other =>
      other.turnId = turn.turnId || !sharesIdentity (timelineIdentity other) (timelineIdentity turn)

/-- A turn may be merged into a kept one: into one of its identity, or into one without, whose
identity it completes, where no other turn has that identity. A turn without an identity may
be merged too. -/
def mergedApart (kept turn : TimelineTurn) : Bool :=
  if (timelineIdentity kept).isSome then
    (timelineIdentity turn).isNone || timelineIdentity turn = timelineIdentity kept
  else
    ((timelineIdentity turn).isNone || timelineIdentity turn = completedIdentity kept turn) &&
      p.merged.entries.all fun other =>
        !sharesIdentity (timelineIdentity other) (completedIdentity kept turn)

def rowApart : Row → Bool
  | .newbro turn => keptApart p turn
  | .executor turn =>
    match p.byRequest turn with
    | some kept => mergedApart p kept turn
    | none => (p.byIdentity turn).isSome || keptApart p turn

/-! ## One row -/

/-- What the loops know: the rows in a turn have its identity or none, no two turns share one,
each identity is on a turn, and is found there. -/
structure Sorted (g : Gathered) : Prop where
  parts : ∀ turn ∈ g.merging.merged.entries, ∀ a ∈ g.partsOf turn.turnId, ∀ i,
    timelineIdentity a = some i → timelineIdentity turn = some i
  apart : ∀ turn ∈ g.merging.merged.entries, ∀ other ∈ g.merging.merged.entries, ∀ i,
    timelineIdentity turn = some i → timelineIdentity other = some i → turn = other
  inputs : ∀ row ∈ g.inputs, ∀ i, timelineIdentity row = some i →
    ∃ turn ∈ g.merging.merged.entries, timelineIdentity turn = some i
  found : ∀ i turnId, g.merging.byExecutorIdentity.lookup i = some turnId →
    ∃ turn, g.merging.merged.get? turnId = some turn ∧ timelineIdentity turn = some i
  noted : ∀ turn ∈ g.merging.merged.entries, ∀ i, timelineIdentity turn = some i →
    g.merging.byExecutorIdentity.lookup i = some turn.turnId

/-- A row puts one turn, notes its identity, and adds to its parts only. -/
structure Writes (g g' : Gathered) (row turn : TimelineTurn) : Prop where
  merged : g'.merging.merged = g.merging.merged.put turn
  identities : ∀ i, g'.merging.byExecutorIdentity.lookup i =
    if timelineIdentity turn = some i then some turn.turnId
    else g.merging.byExecutorIdentity.lookup i
  inputs : g'.inputs = g.inputs ++ [row]
  others : ∀ turnId, turn.turnId ≠ turnId → g'.partsOf turnId = g.partsOf turnId

variable {g : Gathered}

theorem Sorted.kept (h : Sorted g) : g.Kept where
  ids := g.merging.merged.keys_nodup
  once row hrow i hi := by
    obtain ⟨turn, hturn, hid⟩ := h.inputs row hrow i hi
    exact ⟨turn, ⟨hturn, hid⟩, fun other hother => h.apart other hother.1 turn hturn i hother.2 hid⟩
  unfused turn hturn a ha b hb i j hi hj := by
    have hai := h.parts turn hturn a ha i hi
    have hbj := h.parts turn hturn b hb j hj
    exact some.inj (hai.symm.trans hbj)

variable {g' : Gathered} {row turn : TimelineTurn}

/-- A write keeps the order, when the turn it puts has the identities of its parts, of the row
and of the turn it is put over, and no other turn has its identity. -/
theorem Sorted.write (h : Sorted g)
    (hw : Writes g g' row turn)
    (hparts : ∀ a ∈ g'.partsOf turn.turnId, ∀ i,
      timelineIdentity a = some i → timelineIdentity turn = some i)
    (hrow : ∀ i, timelineIdentity row = some i → timelineIdentity turn = some i)
    (hold : ∀ old, g.merging.merged.get? turn.turnId = some old → ∀ i,
      timelineIdentity old = some i → timelineIdentity turn = some i)
    (hother : ∀ other ∈ g.merging.merged.entries, other.turnId ≠ turn.turnId → ∀ i,
      timelineIdentity other = some i → timelineIdentity turn ≠ some i) : Sorted g' where
  parts := by
    rw [hw.merged]
    intro other hmem a ha i hi
    rcases mem_put.mp hmem with rfl | ⟨hmem, hne⟩
    · exact hparts a ha i hi
    · rw [hw.others _ (Ne.symm hne)] at ha
      exact h.parts other hmem a ha i hi
  apart := by
    rw [hw.merged]
    intro a ha b hb i hi hj
    rcases mem_put.mp ha with rfl | ⟨ha, hane⟩
    · rcases mem_put.mp hb with rfl | ⟨hb, hbne⟩
      · rfl
      · exact absurd hi (hother b hb hbne i hj)
    · rcases mem_put.mp hb with hb | ⟨hb, -⟩
      · rw [hb] at hj
        exact absurd hj (hother a ha hane i hi)
      · exact h.apart a ha b hb i hi hj
  inputs := by
    rw [hw.merged, hw.inputs]
    intro a ha i hi
    rcases mem_append.mp ha with ha | ha
    · obtain ⟨old, hmem, hid⟩ := h.inputs a ha i hi
      by_cases hkey : old.turnId = turn.turnId
      · have hget := Table.get?_of_mem hmem
        rw [hkey] at hget
        exact ⟨turn, mem_put.mpr (.inl rfl), hold old hget i hid⟩
      · exact ⟨old, mem_put.mpr (.inr ⟨hmem, hkey⟩), hid⟩
    · rw [mem_singleton.mp ha] at hi
      exact ⟨turn, mem_put.mpr (.inl rfl), hrow i hi⟩
  found := by
    intro i turnId hlookup
    rw [hw.identities] at hlookup
    rw [hw.merged]
    by_cases hi : timelineIdentity turn = some i
    · rw [if_pos hi] at hlookup
      rw [← some.inj hlookup]
      exact ⟨turn, Table.get?_put_self _ _, hi⟩
    · rw [if_neg hi] at hlookup
      obtain ⟨old, hget, hid⟩ := h.found i turnId hlookup
      by_cases hkey : turn.turnId = turnId
      · subst hkey
        exact absurd (hold old hget i hid) hi
      · exact ⟨old, by rw [Table.get?_put_of_ne _ hkey]; exact hget, hid⟩
  noted := by
    rw [hw.merged]
    intro other hmem i hi
    rw [hw.identities]
    rcases mem_put.mp hmem with rfl | ⟨hmem, hne⟩
    · rw [if_pos hi]
    · rw [if_neg (hother other hmem hne i hi)]
      exact h.noted other hmem i hi

/-! ## What the two kinds of rows write -/

theorem byExecutorIdentity_noteIdentity (turn : TimelineTurn) (turnId : String)
    (i : String × String × String) :
    (p.noteIdentity turn turnId).byExecutorIdentity.lookup i =
      if timelineIdentity turn = some i then some turnId else p.byExecutorIdentity.lookup i := by
  unfold Merging.noteIdentity
  cases hid : timelineIdentity turn with
  | none => simp
  | some j => simp only [Dict.lookup_set, some.injEq]

@[simp] theorem merged_noteIdentity (turn : TimelineTurn) (turnId : String) :
    (p.noteIdentity turn turnId).merged = p.merged := by
  unfold Merging.noteIdentity
  split <;> rfl

@[simp] theorem merged_keepTurn (turn : TimelineTurn) :
    (p.keepTurn turn).merged = p.merged.put turn := by
  simp only [Merging.keepTurn, merged_noteIdentity]
  split <;> rfl

theorem byExecutorIdentity_keepTurn (turn : TimelineTurn)
    (i : String × String × String) :
    (p.keepTurn turn).byExecutorIdentity.lookup i =
      if timelineIdentity turn = some i then some turn.turnId
      else p.byExecutorIdentity.lookup i := by
  simp only [Merging.keepTurn, byExecutorIdentity_noteIdentity]
  congr 1
  split <;> rfl

theorem partsOf_set (g : Gathered) (merging : Merging) (inputs : List TimelineTurn)
    (turnId other : String) (parts : List TimelineTurn) :
    (Gathered.mk merging inputs (g.parts.set turnId parts)).partsOf other =
      if turnId = other then parts else g.partsOf other := by
  simp only [Gathered.partsOf, Dict.lookup_set]
  split <;> rfl

/-- A turn that is kept of its own. -/
theorem keep_writes (g : Gathered) (turn : TimelineTurn) :
    Writes g ⟨g.merging.keepTurn turn, g.inputs ++ [turn], g.parts.set turn.turnId [turn]⟩
      turn turn where
  merged := merged_keepTurn g.merging turn
  identities := byExecutorIdentity_keepTurn g.merging turn
  inputs := rfl
  others := fun other hne => by rw [partsOf_set, if_neg hne]

theorem Sorted.keep (h : Sorted g)
    (hw : Writes g g' turn turn) (hparts : g'.partsOf turn.turnId = [turn])
    (hapart : keptApart g.merging turn = true) : Sorted g' := by
  rw [keptApart, Bool.and_eq_true] at hapart
  refine h.write hw ?_ (fun _ => id) ?_ ?_
  · intro a ha i hi
    rw [hparts, mem_singleton] at ha
    exact ha ▸ hi
  · intro old hget i hi
    have hold := hapart.1
    simp only [hget, all_some, hi, isNone_some, Bool.false_or, decide_eq_true_eq] at hold
    exact hold.symm
  · intro other hmem hne i hi hturn
    have hshares := all_eq_true.mp hapart.2 other hmem
    simp [hne, sharesIdentity, hi, hturn] at hshares

variable {kept : TimelineTurn}

/-- The kept turn that a row is merged into is one of the timeline. -/
theorem byRequest_mem {p : Merging} (h : p.byRequest turn = some kept) :
    p.merged.get? kept.turnId = some kept := by
  obtain ⟨turnId, -, hget⟩ := bind_eq_some_iff.mp h
  rw [key_of_get? hget]
  exact hget

theorem Sorted.byIdentity (h : Sorted g) (hfound : g.merging.byIdentity turn = some kept) :
    g.merging.merged.get? kept.turnId = some kept ∧ ∃ i, timelineIdentity turn = some i ∧
      timelineIdentity kept = some i := by
  obtain ⟨turnId, hlookup, hget⟩ := bind_eq_some_iff.mp hfound
  obtain ⟨i, hi, hturnId⟩ := bind_eq_some_iff.mp hlookup
  obtain ⟨other, hother, hid⟩ := h.found i turnId hturnId
  rw [hget] at hother
  rw [key_of_get? hget]
  exact ⟨hget, i, hi, by rw [some.inj hother]; exact hid⟩

theorem Sorted.merge (lower : String → String)
    (h : Sorted g) (hget : g.merging.merged.get? kept.turnId = some kept)
    (hw : Writes g g' turn (mergeTimelineTurn lower kept turn))
    (hparts : g'.partsOf kept.turnId = g.partsOf kept.turnId ++ [turn])
    (hapart : mergedApart g.merging kept turn = true) : Sorted g' := by
  have hkept : ∀ i, timelineIdentity kept = some i →
      timelineIdentity (mergeTimelineTurn lower kept turn) = some i :=
    fun i => timelineIdentity_merge_of_some lower turn
  have hrow : ∀ i, timelineIdentity turn = some i →
      timelineIdentity (mergeTimelineTurn lower kept turn) = some i := by
    intro i hi
    rw [mergedApart] at hapart
    split_ifs at hapart with hsome
    · simp only [hi, isNone_some, Bool.false_or, decide_eq_true_eq] at hapart
      exact hkept i hapart.symm
    · simp only [hi, isNone_some, Bool.false_or, Bool.and_eq_true, decide_eq_true_eq] at hapart
      exact (timelineIdentity_merge lower kept turn).trans hapart.1.symm
  refine h.write hw ?_ hrow ?_ ?_
  · intro a ha i hi
    rw [turnId_mergeTimelineTurn, hparts] at ha
    rcases mem_append.mp ha with ha | ha
    · exact hkept i (h.parts kept (mem_of_get? hget) a ha i hi)
    · rw [mem_singleton.mp ha] at hi
      exact hrow i hi
  · intro old hold i hi
    rw [turnId_mergeTimelineTurn, hget] at hold
    rw [← some.inj hold] at hi
    exact hkept i hi
  · intro other hmem hne i hi hturn
    cases hid : timelineIdentity kept with
    | some j =>
      obtain rfl : j = i := some.inj ((hkept j hid).symm.trans hturn)
      have hsame := h.apart other hmem kept (mem_of_get? hget) j hi hid
      exact hne (by rw [hsame]; rfl)
    | none =>
      rw [mergedApart, hid, if_neg (by simp), Bool.and_eq_true] at hapart
      have hshares := all_eq_true.mp hapart.2 other hmem
      rw [timelineIdentity_merge] at hturn
      simp [sharesIdentity, hi, hturn] at hshares

/-- A row is kept of its own, or merged into one kept turn and added to its parts. -/
theorem Sorted.add_cases (lower : String → String) (h : Sorted g) (row : Row) :
    (Writes g (g.add lower row) row.turn row.turn ∧
        (g.add lower row).partsOf row.turn.turnId = [row.turn] ∧
        rowApart g.merging row = keptApart g.merging row.turn) ∨
      ∃ kept, g.merging.merged.get? kept.turnId = some kept ∧
        Writes g (g.add lower row) row.turn (mergeTimelineTurn lower kept row.turn) ∧
        (g.add lower row).partsOf kept.turnId = g.partsOf kept.turnId ++ [row.turn] ∧
        rowApart g.merging row = mergedApart g.merging kept row.turn := by
  cases row with
  | newbro turn =>
    exact .inl ⟨keep_writes g turn, by rw [Gathered.add, Row.turn, partsOf_set, if_pos rfl], rfl⟩
  | executor turn =>
    simp only [Gathered.add, Merging.placeExecutorTurn, Gathered.targetOf, rowApart, Row.turn]
    cases hreq : g.merging.byRequest turn with
    | some kept =>
      simp only [some_or]
      refine .inr ⟨kept, byRequest_mem hreq, ⟨by simp, ?_, rfl, ?_⟩, ?_, rfl⟩
      · intro i
        rw [byExecutorIdentity_noteIdentity, turnId_mergeTimelineTurn]
      · intro other hne
        rw [turnId_mergeTimelineTurn] at hne
        rw [partsOf_set, if_neg hne]
      · rw [partsOf_set, if_pos rfl]
    | none =>
      cases hid : g.merging.byIdentity turn with
      | some kept =>
        obtain ⟨hget, i, hturn, hkept⟩ := h.byIdentity hid
        have hsame : mergedApart g.merging kept turn = true := by simp [mergedApart, hkept, hturn]
        have hmerged : timelineIdentity (mergeTimelineTurn lower kept turn) = some i :=
          timelineIdentity_merge_of_some lower turn hkept
        simp only [none_or]
        refine .inr ⟨kept, hget, ⟨rfl, ?_, rfl, ?_⟩, ?_, by simp [hsame]⟩
        · intro j
          rw [turnId_mergeTimelineTurn, hmerged]
          split_ifs with hj
          · rw [← some.inj hj]
            exact h.noted kept (mem_of_get? hget) i hkept
          · rfl
        · intro other hne
          rw [turnId_mergeTimelineTurn] at hne
          rw [partsOf_set, if_neg hne]
        · rw [partsOf_set, if_pos rfl]
      | none =>
        refine .inl ⟨keep_writes g turn, ?_, by simp⟩
        simp only [none_or]
        rw [partsOf_set, if_pos rfl]

/-- One row keeps the order. -/
theorem Sorted.add (lower : String → String) {row : Row} (h : Sorted g)
    (hapart : rowApart g.merging row = true) : Sorted (g.add lower row) := by
  rcases h.add_cases lower row with ⟨hw, hparts, heq⟩ | ⟨kept, hget, hw, hparts, heq⟩
  · exact h.keep hw hparts (heq.symm.trans hapart)
  · exact h.merge lower hget hw hparts (heq.symm.trans hapart)

/-! ## The turns of one native thread -/

/-- A turn of an executor's thread, as far as it is known: its turn is known with its thread. -/
structure OfThread (executorId threadId : String) (turn : TimelineTurn) : Prop where
  executor : turn.executorId = executorId
  thread : ∀ t, text? turn.executorThreadId = some t → t = threadId
  whole : text? turn.executorThreadId = none → text? turn.executorTurnId = none

theorem timelineIdentity_eq (turn : TimelineTurn) :
    timelineIdentity turn = (text? turn.executorThreadId).bind fun threadId =>
      (text? turn.executorTurnId).map fun turnId => (turn.executorId, threadId, turnId) := by
  simp only [timelineIdentity, text?]
  cases Option.filter (fun x => decide (x ≠ "")) turn.executorThreadId <;>
    cases Option.filter (fun x => decide (x ≠ "")) turn.executorTurnId <;> rfl

theorem text?_orText (a b : Option String) : text? (orText a b) = (text? a).or (text? b) := by
  cases a with
  | none => rfl
  | some a =>
    by_cases ha : a = ""
    · simp [text?, orText, ha, Option.filter]
    · simp [text?, orText, ha, Option.filter]

variable {executorId threadId : String}

theorem OfThread.turn_none
    (h : OfThread executorId threadId turn) (hid : timelineIdentity turn = none) :
    text? turn.executorTurnId = none := by
  rw [timelineIdentity_eq] at hid
  cases ht : text? turn.executorThreadId with
  | none => exact h.whole ht
  | some t => simpa [ht] using hid

/-- Within one thread a turn without an identity takes over that of the turn merged into it. -/
theorem completedIdentity_ofThread
    (hkept : OfThread executorId threadId kept) (hturn : OfThread executorId threadId turn)
    (hid : timelineIdentity kept = none) : completedIdentity kept turn = timelineIdentity turn := by
  rw [completedIdentity, timelineIdentity_eq, timelineIdentity_eq turn]
  simp only [text?_orText, hkept.turn_none hid, none_or, hkept.executor, hturn.executor]
  cases hx : text? turn.executorTurnId with
  | none => cases (text? kept.executorThreadId).or (text? turn.executorThreadId) <;>
      cases text? turn.executorThreadId <;> rfl
  | some x =>
    cases ht : text? turn.executorThreadId with
    | none => simp [hturn.whole ht] at hx
    | some t =>
      cases ht' : text? kept.executorThreadId with
      | none => rfl
      | some t' => rw [hturn.thread t ht, hkept.thread t' ht']; rfl

theorem OfThread.merge (lower : String → String)
    (hkept : OfThread executorId threadId kept)
    (hturn : OfThread executorId threadId turn) :
    OfThread executorId threadId (mergeTimelineTurn lower kept turn) where
  executor := hkept.executor
  thread t ht := by
    have ht' : (text? kept.executorThreadId).or (text? turn.executorThreadId) = some t :=
      (text?_orText _ _).symm.trans ht
    rcases or_eq_some_iff.mp ht' with h | ⟨-, h⟩
    · exact hkept.thread t h
    · exact hturn.thread t h
  whole ht := by
    have ht' : (text? kept.executorThreadId).or (text? turn.executorThreadId) = none :=
      (text?_orText _ _).symm.trans ht
    obtain ⟨hk, hn⟩ := or_eq_none_iff.mp ht'
    refine (text?_orText _ _).trans ?_
    rw [hkept.whole hk, hturn.whole hn]
    rfl

/-- The turns so far are of one thread, and the identity of each is the one of a row in it. -/
structure Threaded (executorId threadId : String) (g : Gathered) : Prop where
  turns : ∀ turn ∈ g.merging.merged.entries, OfThread executorId threadId turn
  real : ∀ turn ∈ g.merging.merged.entries, ∀ i, timelineIdentity turn = some i →
    ∃ a ∈ g.partsOf turn.turnId, timelineIdentity a = some i
  rows : ∀ turn ∈ g.merging.merged.entries, ∀ a ∈ g.partsOf turn.turnId, a ∈ g.inputs

theorem Threaded.write
    (h : Threaded executorId threadId g) (hw : Writes g g' row turn)
    (hturn : OfThread executorId threadId turn)
    (hreal : ∀ i, timelineIdentity turn = some i →
      ∃ a ∈ g'.partsOf turn.turnId, timelineIdentity a = some i)
    (hrows : ∀ a ∈ g'.partsOf turn.turnId, a ∈ g'.inputs) : Threaded executorId threadId g' where
  turns := by
    rw [hw.merged]
    exact forall_put h.turns hturn
  real := by
    rw [hw.merged]
    intro other hmem i hi
    rcases mem_put.mp hmem with rfl | ⟨hmem, hne⟩
    · exact hreal i hi
    · rw [hw.others _ (Ne.symm hne)]
      exact h.real other hmem i hi
  rows := by
    rw [hw.merged]
    intro other hmem a ha
    rcases mem_put.mp hmem with rfl | ⟨hmem, hne⟩
    · exact hrows a ha
    · rw [hw.others _ (Ne.symm hne)] at ha
      rw [hw.inputs]
      exact mem_append_left _ (h.rows other hmem a ha)

theorem Threaded.add (lower : String → String)
    {row : Row} (h : Threaded executorId threadId g) (hs : Sorted g)
    (hrow : OfThread executorId threadId row.turn) :
    Threaded executorId threadId (g.add lower row) := by
  rcases hs.add_cases lower row with ⟨hw, hparts, -⟩ | ⟨kept, hget, hw, hparts, -⟩
  · refine h.write hw hrow (fun i hi => ⟨row.turn, by simp [hparts], hi⟩) fun a ha => ?_
    rw [hparts, mem_singleton] at ha
    rw [hw.inputs, ha]
    exact mem_append_right _ (mem_singleton.mpr rfl)
  · have hmem := mem_of_get? hget
    refine h.write hw ((h.turns kept hmem).merge lower hrow) (fun i hi => ?_) fun a ha => ?_
    · rw [turnId_mergeTimelineTurn, hparts]
      cases hid : timelineIdentity kept with
      | some j =>
        have hj := (timelineIdentity_merge_of_some lower row.turn hid).symm.trans hi
        obtain ⟨a, ha, hai⟩ := h.real kept hmem j hid
        exact ⟨a, mem_append_left _ ha, by rw [hai, hj]⟩
      | none =>
        rw [timelineIdentity_merge, completedIdentity_ofThread (h.turns kept hmem) hrow hid] at hi
        exact ⟨row.turn, mem_append_right _ (mem_singleton.mpr rfl), hi⟩
    · rw [turnId_mergeTimelineTurn, hparts] at ha
      rw [hw.inputs]
      rcases mem_append.mp ha with ha | ha
      · exact mem_append_left _ (h.rows kept hmem a ha)
      · exact mem_append_right _ ha

/-! ## What a row that takes nothing has to meet -/

theorem kept_of_write (hw : Writes g g' row turn)
    (hkept : g'.Kept) {i : String × String × String} {a other : TimelineTurn}
    (ha : a ∈ g'.inputs) (hi : timelineIdentity a = some i)
    (hother : other ∈ g.merging.merged.entries) (hne : other.turnId ≠ turn.turnId)
    (hother' : timelineIdentity other = some i) : timelineIdentity turn ≠ some i := by
  intro hturn
  obtain ⟨only, -, honly⟩ := hkept.once a ha i hi
  have h₁ := honly turn ⟨by rw [hw.merged]; exact mem_put.mpr (.inl rfl), hturn⟩
  have h₂ := honly other ⟨by rw [hw.merged]; exact mem_put.mpr (.inr ⟨hother, hne⟩), hother'⟩
  exact hne (by rw [h₁, h₂])

theorem row_mem_inputs (hw : Writes g g' row turn) : row ∈ g'.inputs := by
  rw [hw.inputs]
  exact mem_append_right _ (mem_singleton.mpr rfl)

theorem Threaded.keptApart
    (h : Threaded executorId threadId g) (hs : Sorted g) (hw : Writes g g' turn turn)
    (hkept : g'.Kept) : keptApart g.merging turn = true := by
  rw [BroTimeline.keptApart, Bool.and_eq_true]
  constructor
  · cases hget : g.merging.merged.get? turn.turnId with
    | none => rfl
    | some old =>
      cases hid : timelineIdentity old with
      | none => simp [hid]
      | some i =>
        have hmem := mem_of_get? hget
        obtain ⟨a, ha, hai⟩ := h.real old hmem i hid
        have hinput : a ∈ g'.inputs := by
          rw [hw.inputs]
          exact mem_append_left _ (h.rows old hmem a ha)
        obtain ⟨only, ⟨honly, hionly⟩, -⟩ := hkept.once a hinput i hai
        rw [hw.merged] at honly
        rcases mem_put.mp honly with rfl | ⟨honly, hne⟩
        · simp [hid, hionly]
        · have hsame := hs.apart only honly old hmem i hionly hid
          exact absurd (hsame ▸ key_of_get? hget) hne
  · refine all_eq_true.mpr fun other hmem => ?_
    by_cases hne : other.turnId = turn.turnId
    · simp [hne]
    · cases hid : timelineIdentity other with
      | none => simp [sharesIdentity]
      | some i =>
        by_cases hi : timelineIdentity turn = some i
        · exact absurd hi (kept_of_write hw hkept (row_mem_inputs hw) hi hmem hne hid)
        · simp [sharesIdentity, hne, Ne.symm hi]

variable {lower : String → String}

theorem Threaded.mergedApart (h : Threaded executorId threadId g)
    (hget : g.merging.merged.get? kept.turnId = some kept)
    (hw : Writes g g' turn (mergeTimelineTurn lower kept turn))
    (hparts : g'.partsOf kept.turnId = g.partsOf kept.turnId ++ [turn])
    (hturn : OfThread executorId threadId turn) (hkept : g'.Kept) :
    mergedApart g.merging kept turn = true := by
  have hmem := mem_of_get? hget
  cases hid : timelineIdentity kept with
  | some i =>
    cases hj : timelineIdentity turn with
    | none => simp [BroTimeline.mergedApart, hid, hj]
    | some j =>
      obtain ⟨a, ha, hai⟩ := h.real kept hmem i hid
      have hput : mergeTimelineTurn lower kept turn ∈ g'.merging.merged.entries := by
        rw [hw.merged]
        exact mem_put.mpr (.inl rfl)
      have hij : i = j := hkept.unfused _ hput a
        (by rw [turnId_mergeTimelineTurn, hparts]; exact mem_append_left _ ha) turn
        (by rw [turnId_mergeTimelineTurn, hparts]; simp) i j hai hj
      simp [BroTimeline.mergedApart, hid, hj, hij]
  | none =>
    have hcompleted := completedIdentity_ofThread (h.turns kept hmem) hturn hid
    rw [BroTimeline.mergedApart, hid, hcompleted, if_neg (by simp), Bool.and_eq_true]
    refine ⟨by simp, all_eq_true.mpr fun other hother => ?_⟩
    cases hi : timelineIdentity other with
    | none => simp [sharesIdentity]
    | some i =>
      have hne : other.turnId ≠ kept.turnId := by
        intro hkey
        rw [eq_of_key_eq _ hother hmem hkey, hid] at hi
        exact absurd hi (by simp)
      by_cases hj : timelineIdentity turn = some i
      · refine absurd ?_ (kept_of_write hw hkept (row_mem_inputs hw) hj hother hne hi)
        rw [timelineIdentity_merge, hcompleted, hj]
      · simp [sharesIdentity, Ne.symm hj]

/-- Of one thread, a row that leaves all turns kept takes nothing from another. -/
theorem Threaded.rowApart {row : Row} (h : Threaded executorId threadId g) (hs : Sorted g)
    (hrow : OfThread executorId threadId row.turn) (hkept : (g.add lower row).Kept) :
    rowApart g.merging row = true := by
  rcases hs.add_cases lower row with ⟨hw, -, heq⟩ | ⟨kept, hget, hw, hparts, heq⟩
  · exact heq.trans (h.keptApart hs hw hkept)
  · exact heq.trans (h.mergedApart hget hw hparts hrow hkept)

/-! ## The whole timeline -/

theorem run_rows (lower : String → String) (g : Gathered) (rows : List Row) :
    (projecting lower).run g rows = some (rows.foldl (Gathered.add lower) g) := by
  induction rows generalizing g with
  | nil => rfl
  | cons row rows ih => exact ih (g.add lower row)

theorem merging_foldl_newbro (lower : String → String) (g : Gathered) (turns : List TimelineTurn) :
    ((turns.map Row.newbro).foldl (Gathered.add lower) g).merging =
        turns.foldl Merging.keepTurn g.merging ∧
      ((turns.map Row.newbro).foldl (Gathered.add lower) g).inputs = g.inputs ++ turns := by
  induction turns generalizing g with
  | nil => exact ⟨rfl, (append_nil _).symm⟩
  | cons turn turns ih =>
    obtain ⟨hmerging, hinputs⟩ := ih (g.add lower (.newbro turn))
    exact ⟨hmerging, hinputs.trans (append_assoc g.inputs [turn] turns)⟩

theorem merging_foldl_executor (lower : String → String) (g : Gathered)
    (turns : List TimelineTurn) : ((turns.map Row.executor).foldl (Gathered.add lower) g).merging =
        turns.foldl (Merging.placeExecutorTurn lower) g.merging ∧
      ((turns.map Row.executor).foldl (Gathered.add lower) g).inputs = g.inputs ++ turns := by
  induction turns generalizing g with
  | nil => exact ⟨rfl, (append_nil _).symm⟩
  | cons turn turns ih =>
    obtain ⟨hmerging, hinputs⟩ := ih (g.add lower (.executor turn))
    exact ⟨hmerging, hinputs.trans (append_assoc g.inputs [turn] turns)⟩

/-- Following the parts does not change the timeline. -/
theorem gathered_eq (lower : String → String) (newbro executorTurns : List TimelineTurn) :
    (gathered lower newbro executorTurns).merging = mergeTurns lower newbro executorTurns ∧
      (gathered lower newbro executorTurns).inputs = newbro ++ executorTurns := by
  rw [gathered, timelineRows, foldl_append]
  obtain ⟨hmerging, hinputs⟩ := merging_foldl_newbro lower Gathered.empty newbro
  obtain ⟨hmerging', hinputs'⟩ := merging_foldl_executor lower
    ((newbro.map Row.newbro).foldl (Gathered.add lower) Gathered.empty) executorTurns
  rw [hmerging', hinputs', hmerging, hinputs]
  exact ⟨rfl, rfl⟩

theorem TurnsKept.perm {inputs outputs outputs' : List TimelineTurn}
    {partsOf : String → List TimelineTurn} (h : TurnsKept inputs outputs partsOf)
    (hperm : outputs.Perm outputs') : TurnsKept inputs outputs' partsOf where
  ids := (hperm.map _).nodup_iff.mp h.ids
  once row hrow i hi := by
    obtain ⟨turn, ⟨hturn, hid⟩, honly⟩ := h.once row hrow i hi
    exact ⟨turn, ⟨hperm.mem_iff.mp hturn, hid⟩, fun other hother =>
      honly other ⟨hperm.mem_iff.mpr hother.1, hother.2⟩⟩
  unfused turn hturn := h.unfused turn (hperm.mem_iff.mpr hturn)

/-- The rows, each of which takes nothing from another. -/
def RowsApart (lower : String → String) (rows : List Row) : Prop :=
  (projecting lower).Along (fun g row => rowApart g.merging row = true) Gathered.empty rows

theorem sorted_empty : Sorted Gathered.empty where
  parts _ h := absurd h not_mem_nil
  apart _ h := absurd h not_mem_nil
  inputs _ h := absurd h not_mem_nil
  found _ _ h := absurd h (by simp [Gathered.empty, Merging.empty, Dict.lookup])
  noted _ h := absurd h not_mem_nil

theorem threaded_empty (executorId threadId : String) :
    Threaded executorId threadId Gathered.empty where
  turns _ h := absurd h not_mem_nil
  real _ h := absurd h not_mem_nil
  rows _ h := absurd h not_mem_nil

theorem RowsApart.always {rows : List Row} (h : RowsApart lower rows) :
    (projecting lower).Always Sorted Gathered.empty rows := by
  refine System.Along.always h sorted_empty fun g row g' hs hapart hstep => ?_
  obtain rfl := some.inj hstep
  exact hs.add lower hapart

/-- Of the rows of one native thread, all turns stay kept exactly if each row takes nothing. -/
theorem rowsApart_iff_of_thread (executorId threadId : String)
    {rows : List Row} (hrows : ∀ row ∈ rows, OfThread executorId threadId row.turn) :
    RowsApart lower rows ↔ (projecting lower).Always Gathered.Kept Gathered.empty rows := by
  refine ⟨fun h => h.always.mono fun _ => Sorted.kept, fun h => ?_⟩
  refine System.Always.along (I := fun g => Sorted g ∧ Threaded executorId threadId g)
    (C := fun g row => rowApart g.merging row = true ∧ OfThread executorId threadId row.turn)
    (Q := fun _ row => OfThread executorId threadId row.turn) ?_ ?_ h
    ⟨sorted_empty, threaded_empty executorId threadId⟩ ?_ |>.mono fun _ _ => And.left
  · rintro g row g' ⟨hs, ht⟩ hapart hstep
    obtain rfl := some.inj hstep
    exact ⟨hs.add lower hapart.1, ht.add lower hs hapart.2⟩
  · rintro g row g' ⟨hs, ht⟩ hrow hstep hkept
    obtain rfl := some.inj hstep
    exact ⟨ht.rowApart hs hrow hkept, hrow⟩
  · refine System.along_of_steps fun before row after mid next heq _ _ => hrows row ?_
    rw [heq]
    exact mem_append_right _ mem_cons_self

/-- When each row takes nothing from another, the timeline neither loses nor fuses turns. Of
the rows of one native thread the condition is exact: it holds if and only if the timeline of
all first rows, whatever their number, neither loses nor fuses turns. -/
theorem timeline_keeps_turns (lower : String → String) (parse : String → WithBot Int)
    (inputs : TimelineInputs) (executorTurns : List TimelineTurn) :
    (RowsApart lower (timelineRows (buildNewbroTimelineTurns inputs) executorTurns) →
      TurnsKept (buildNewbroTimelineTurns inputs ++ executorTurns)
        (buildBroTimelineProjection lower parse inputs executorTurns)
        (gathered lower (buildNewbroTimelineTurns inputs) executorTurns).partsOf) ∧
    ∀ executorId threadId,
      (∀ turn ∈ buildNewbroTimelineTurns inputs ++ executorTurns,
        OfThread executorId threadId turn) →
      (RowsApart lower (timelineRows (buildNewbroTimelineTurns inputs) executorTurns) ↔
        (projecting lower).Always Gathered.Kept Gathered.empty
          (timelineRows (buildNewbroTimelineTurns inputs) executorTurns)) := by
  constructor
  · intro h
    obtain ⟨hmerging, hinputs⟩ := gathered_eq lower (buildNewbroTimelineTurns inputs) executorTurns
    have hkept : (gathered lower (buildNewbroTimelineTurns inputs) executorTurns).Kept :=
      (h.always.at_end (run_rows lower Gathered.empty _)).kept
    rw [Gathered.Kept, hmerging, hinputs] at hkept
    exact hkept.perm (perm_insertionSort _ _).symm
  · intro executorId threadId hturns
    refine rowsApart_iff_of_thread executorId threadId fun row hrow => ?_
    rcases mem_append.mp hrow with hrow | hrow
    · obtain ⟨turn, hturn, rfl⟩ := mem_map.mp hrow
      exact hturns turn (mem_append_left _ hturn)
    · obtain ⟨turn, hturn, rfl⟩ := mem_map.mp hrow
      exact hturns turn (mem_append_right _ hturn)

/-! ## Two native turns and one task -/

/-- A task that was started in a thread and is still running. -/
def directTask : Task where
  taskId := "task-1"
  rootTaskId := "task-1"
  title := "Check"
  goal := "Check"
  status := .running
  metadata := ⟨[("persona_id", .str "bro-1"), ("target_thread_id", .str "thread-1"),
    ("source_kind", .str "bro_detail_text"), ("client_request_id", .str "req-1")], by decide⟩

/-- A native turn of the thread, with the client request that is guessed for it. -/
def guessedTurn (executorTurnId : String) : TimelineTurn :=
  { bareTurn ("thread-1:codex:" ++ executorTurnId) (some executorTurnId) with
    clientRequestId := clientRequestIdForSelectedThreadTurn [directTask] [] "thread-1" "native-1"
      executorTurnId }

theorem one_turn_kept :
    TurnsKept (buildNewbroTimelineTurns ⟨[directTask], [], [], []⟩ ++ [guessedTurn "turn-1"])
      (buildBroTimelineProjection id (fun _ => ⊥) ⟨[directTask], [], [], []⟩
        [guessedTurn "turn-1"])
      (gathered id (buildNewbroTimelineTurns ⟨[directTask], [], [], []⟩)
        [guessedTurn "turn-1"]).partsOf :=
  (timeline_keeps_turns id (fun _ => ⊥) ⟨[directTask], [], [], []⟩ [guessedTurn "turn-1"]).1
    (System.along_of_check (M := projecting id)
      (C := fun (g : Gathered) row => rowApart g.merging row) (by decide))

/-- Both native turns are taken to answer the client request of the task: they are fused into
its turn, and the identity of the second is lost. -/
theorem guessed_turns_fused :
    ¬ ∀ (lower : String → String) (parse : String → WithBot Int) (inputs : TimelineInputs)
        (executorTurns : List TimelineTurn),
      TurnsKept (buildNewbroTimelineTurns inputs ++ executorTurns)
        (buildBroTimelineProjection lower parse inputs executorTurns)
        (gathered lower (buildNewbroTimelineTurns inputs) executorTurns).partsOf := by
  intro h
  have hkept := h id (fun _ => ⊥) ⟨[directTask], [], [], []⟩
    [guessedTurn "turn-1", guessedTurn "turn-2"]
  obtain ⟨turn, ⟨hturn, hid⟩, -⟩ := hkept.once (guessedTurn "turn-2")
    (mem_append_right _ (by simp)) ("codex", "native-1", "turn-2") (by decide)
  have hnone : (buildBroTimelineProjection id (fun _ => ⊥) ⟨[directTask], [], [], []⟩
      [guessedTurn "turn-1", guessedTurn "turn-2"]).all (fun turn =>
        timelineIdentity turn ≠ some ("codex", "native-1", "turn-2")) = true := by decide
  have hne := all_eq_true.mp hnone turn hturn
  simp [hid] at hne

end Newbro.BroTimeline
