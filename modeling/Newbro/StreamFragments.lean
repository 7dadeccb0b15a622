import Newbro.Library.Table
import Newbro.Library.Text
import Mathlib.Data.List.Induction
import Mathlib.Data.List.Sort

/-!
# Tool calls that arrive in fragments

A streamed completion gives the id, the name and the argument string of a tool call in
fragments. `_append_fragment` guesses of each fragment whether it goes on with the text so far or
says it again. A guess that it says it again makes the text shorter than the fragments are, so the
text of the call comes back exactly if no guess is made.
-/
namespace Newbro.ToolCalling

open Library List

/-! ## Fragments of a text -/

/-- `_append_fragment`; a fragment that is not there is as good as an empty one. -/
def appendFragment (existing : String) (fragment : Option String) : String :=
  let fragment := fragment.getD ""
  if fragment = "" then existing
  else if existing = "" then fragment
  else if Text.startsWith fragment existing then fragment
  else if fragment.toList.isSuffixOf existing.toList then existing
  else existing ++ fragment

variable (fragments : List (Option String))

/-- What `_append_fragment` makes of the fragments of a text. -/
def joined : String := fragments.foldl appendFragment ""

/-- The text that the fragments are cut from. -/
def whole : String :=
  (fragments.map fun fragment => fragment.getD "").foldr (· ++ ·) ""

/-- The fragment does not look as if it said the text again, nor as if the text had said it. -/
def Continues (text fragment : String) : Prop :=
  text = "" ∨ fragment = "" ∨
    (Text.startsWith fragment text = false ∧ fragment.toList.isSuffixOf text.toList = false)

/-- Each fragment goes on with what is before it. -/
def CleanFrom (text : String) : List (Option String) → Prop
  | [] => True
  | fragment :: fragments =>
    Continues text (fragment.getD "") ∧ CleanFrom (text ++ fragment.getD "") fragments

variable {text : String}

theorem length_pos_of_ne (h : text ≠ "") : 0 < text.length := by
  rcases Nat.eq_zero_or_pos text.length with hzero | hpos
  · exact absurd (String.length_eq_zero_iff.mp hzero) h
  · exact hpos

theorem appendFragment_of_continues {fragment : Option String}
    (h : Continues text (fragment.getD "")) :
    appendFragment text fragment = text ++ fragment.getD "" := by
  unfold appendFragment
  dsimp only
  generalize fragment.getD "" = added at *
  by_cases hadded : added = ""
  · rw [if_pos hadded, hadded, String.append_empty]
  by_cases htext : text = ""
  · rw [if_neg hadded, if_pos htext, htext, String.empty_append]
  obtain ⟨hstart, hend⟩ := (h.resolve_left htext).resolve_left hadded
  rw [if_neg hadded, if_neg htext, hstart, hend]
  rfl

/-- A fragment that is taken for a repetition makes the text shorter. -/
theorem length_appendFragment_lt {fragment : Option String}
    (h : ¬ Continues text (fragment.getD "")) :
    (appendFragment text fragment).length < text.length + (fragment.getD "").length := by
  unfold appendFragment
  dsimp only
  generalize fragment.getD "" = added at *
  simp only [Continues, not_or, not_and, Bool.not_eq_false] at h
  obtain ⟨htext, hadded, hguess⟩ := h
  have htextlength : 0 < text.length := length_pos_of_ne htext
  have haddedlength : 0 < added.length := length_pos_of_ne hadded
  rw [if_neg hadded, if_neg htext]
  cases hstart : Text.startsWith added text with
  | true =>
    show added.length < _
    omega
  | false =>
    rw [hguess hstart]
    show text.length < _
    omega

theorem length_appendFragment_le (text : String) (fragment : Option String) :
    (appendFragment text fragment).length ≤ text.length + (fragment.getD "").length := by
  by_cases h : Continues text (fragment.getD "")
  · rw [appendFragment_of_continues h, String.length_append]
  · exact (length_appendFragment_lt h).le

theorem whole_cons (fragment : Option String) (fragments : List (Option String)) :
    whole (fragment :: fragments) = fragment.getD "" ++ whole fragments := rfl

theorem length_foldl_le (text : String) :
    (fragments.foldl appendFragment text).length ≤ text.length + (whole fragments).length := by
  induction fragments generalizing text with
  | nil => simp [whole]
  | cons fragment fragments ih =>
    have hrest := ih (appendFragment text fragment)
    have hfirst := length_appendFragment_le text fragment
    rw [foldl_cons, whole_cons, String.length_append]
    omega

/-- The fragments give the text back exactly if each goes on with what is before it. -/
theorem foldl_appendFragment_eq_iff (text : String) :
    fragments.foldl appendFragment text = text ++ whole fragments ↔ CleanFrom text fragments := by
  induction fragments generalizing text with
  | nil => simp [whole, CleanFrom]
  | cons fragment fragments ih =>
    rw [foldl_cons, whole_cons, CleanFrom]
    by_cases hclean : Continues text (fragment.getD "")
    · rw [appendFragment_of_continues hclean, ← String.append_assoc, ih]
      exact (and_iff_right hclean).symm
    · refine iff_of_false (fun heq => ?_) (fun h => hclean h.1)
      have hlength := congrArg String.length heq
      have hrest := length_foldl_le fragments (appendFragment text fragment)
      have hshort := length_appendFragment_lt hclean
      rw [String.length_append, String.length_append] at hlength
      omega

theorem joined_eq_whole_iff : joined fragments = whole fragments ↔ CleanFrom "" fragments := by
  rw [joined, ← foldl_appendFragment_eq_iff, String.empty_append]

/-- A text that has begun does not go away. -/
theorem appendFragment_eq_empty_iff (text : String) (fragment : Option String) :
    appendFragment text fragment = "" ↔ text = "" ∧ fragment.getD "" = "" := by
  unfold appendFragment
  dsimp only
  generalize fragment.getD "" = added
  by_cases hadded : added = ""
  · simp [hadded]
  by_cases htext : text = ""
  · simp [hadded, htext]
  rw [if_neg hadded, if_neg htext]
  refine iff_of_false ?_ fun h => hadded h.2
  split_ifs
  · exact hadded
  · exact htext
  · exact fun hnone => hadded (String.append_eq_empty_iff.mp hnone).2

theorem foldl_appendFragment_eq_empty_iff (text : String) :
    fragments.foldl appendFragment text = "" ↔ text = "" ∧ whole fragments = "" := by
  induction fragments generalizing text with
  | nil => simp [whole]
  | cons fragment fragments ih =>
    rw [foldl_cons, ih, whole_cons, appendFragment_eq_empty_iff,
      String.append_eq_empty_iff, and_assoc]

theorem joined_eq_empty_iff : joined fragments = "" ↔ whole fragments = "" := by
  rw [joined, foldl_appendFragment_eq_empty_iff]
  exact and_iff_right rfl

/-! ## Fragments of the tool calls of a reply -/

structure ToolCall where
  id : String
  name : String
  arguments : String
  deriving Repr, DecidableEq

/-- An item of `tool_calls` in a delta. -/
structure ToolCallDelta where
  index : Nat
  id : Option String := none
  type : Option String := none
  name : Option String := none
  arguments : Option String := none
  deriving Repr, DecidableEq

/-- What has been put together of a tool call. -/
structure ToolCallBuffer where
  id : String := ""
  name : String := ""
  arguments : String := ""
  type : String := "function"
  deriving Repr, DecidableEq

abbrev Buffers := Dict Nat ToolCallBuffer

/-- A delta joins what there is of its call. -/
def ToolCallBuffer.add (item : ToolCallBuffer) (delta : ToolCallDelta) : ToolCallBuffer where
  id := appendFragment item.id delta.id
  name := appendFragment item.name delta.name
  arguments := appendFragment item.arguments delta.arguments
  type := (delta.type.filter (· ≠ "")).getD item.type

def accumulateToolCallDelta (buffers : Buffers) (delta : ToolCallDelta) : Buffers :=
  buffers.set delta.index (((buffers.lookup delta.index).getD {}).add delta)

/-- The call of a buffer, which is dropped if it is no function or has no name. -/
def finalizeToolCall (index : Nat) (item : ToolCallBuffer) : Option ToolCall :=
  if item.type ≠ "function" ∨ item.name = "" then none
  else some
    { id := if item.id = "" then "call-" ++ toString index else item.id
      name := item.name
      arguments := if item.arguments = "" then "\x7b\x7d" else item.arguments }

def finalizeToolCallChunks (buffers : Buffers) : List ToolCall :=
  ((buffers.entries.map Prod.fst).insertionSort (· ≤ ·)).filterMap fun index =>
    (buffers.lookup index).bind (finalizeToolCall index)

/-- The fragments of one field of the call of an index. -/
def fragmentsOf (field : ToolCallDelta → Option String) (index : Nat)
    (deltas : List ToolCallDelta) : List (Option String) :=
  (deltas.filter fun delta => delta.index = index).map field

/-- The deltas are cut from the calls: every call has deltas and every delta is of a call, the type
is that of a function where it is given, and the fragments of each field are those of its text. -/
structure CutFrom (calls : List ToolCall) (deltas : List ToolCallDelta) : Prop where
  indexes : ∀ index, (∃ delta ∈ deltas, delta.index = index) ↔ index < calls.length
  types : ∀ delta ∈ deltas, delta.type = none ∨ delta.type = some "" ∨ delta.type = some "function"
  ids : ∀ index call, calls[index]? = some call →
    whole (fragmentsOf ToolCallDelta.id index deltas) = call.id
  names : ∀ index call, calls[index]? = some call →
    whole (fragmentsOf ToolCallDelta.name index deltas) = call.name
  arguments : ∀ index call, calls[index]? = some call →
    whole (fragmentsOf ToolCallDelta.arguments index deltas) = call.arguments

/-- A text that is not empty, cut so that each fragment goes on with what is before it. -/
def CleanlyCut (text : String) (fragments : List (Option String)) : Prop :=
  text ≠ "" ∧ CleanFrom "" fragments

/-- The id, the name and the argument string of every call are cut cleanly. -/
def CleanCalls (calls : List ToolCall) (deltas : List ToolCallDelta) : Prop :=
  ∀ index call, calls[index]? = some call →
    CleanlyCut call.id (fragmentsOf ToolCallDelta.id index deltas) ∧
    CleanlyCut call.name (fragmentsOf ToolCallDelta.name index deltas) ∧
    CleanlyCut call.arguments (fragmentsOf ToolCallDelta.arguments index deltas)

/-! ## The buffers -/

section buffers

variable (deltas : List ToolCallDelta)

/-- What a buffer has of a field after the deltas. -/
theorem foldl_add_field {view : ToolCallBuffer → String} {field : ToolCallDelta → Option String}
    (hfield : ∀ item delta, view (ToolCallBuffer.add item delta) =
      appendFragment (view item) (field delta)) (item : ToolCallBuffer) :
    view (deltas.foldl ToolCallBuffer.add item) =
      (deltas.map field).foldl appendFragment (view item) := by
  rw [foldl_map]
  induction deltas generalizing item with
  | nil => rfl
  | cons delta deltas ih =>
    rw [foldl_cons, foldl_cons, ← hfield]
    exact ih (item.add delta)

theorem foldl_add_type {deltas : List ToolCallDelta} (item : ToolCallBuffer)
    (htype : item.type = "function") (h : ∀ delta ∈ deltas,
      delta.type = none ∨ delta.type = some "" ∨ delta.type = some "function") :
    (deltas.foldl ToolCallBuffer.add item).type = "function" := by
  induction deltas generalizing item with
  | nil => exact htype
  | cons delta deltas ih =>
    refine ih (item.add delta) ?_ fun other hother => h other (mem_cons_of_mem _ hother)
    rcases h delta mem_cons_self with hnone | hempty | hfunction
    · simp [ToolCallBuffer.add, hnone, htype]
    · show (delta.type.filter (· ≠ "")).getD item.type = "function"
      rw [hempty]
      exact htype
    · show (delta.type.filter (· ≠ "")).getD item.type = "function"
      rw [hfunction]
      rfl

/-- What is found under an index: the deltas of the index, one after another. -/
theorem lookup_foldl_accumulate (buffers : Buffers) (index : Nat) :
    (deltas.foldl accumulateToolCallDelta buffers).lookup index =
      if deltas.any (fun delta => delta.index = index) then
        some ((deltas.filter fun delta => delta.index = index).foldl ToolCallBuffer.add
          ((buffers.lookup index).getD {}))
      else buffers.lookup index := by
  induction deltas generalizing buffers with
  | nil => rfl
  | cons delta deltas ih =>
    have hset : (accumulateToolCallDelta buffers delta).lookup index =
        if delta.index = index then some (((buffers.lookup index).getD {}).add delta)
        else buffers.lookup index := by
      rw [accumulateToolCallDelta, Dict.lookup_set]
      split_ifs with hindex
      · rw [hindex]
      · rfl
    rw [foldl_cons, ih, hset]
    by_cases hindex : delta.index = index
    · have hany : (delta :: deltas).any (fun delta => delta.index = index) = true := by
        simp [hindex]
      have hfilter : (delta :: deltas).filter (fun delta => delta.index = index) =
          delta :: deltas.filter fun delta => delta.index = index := by simp [hindex]
      rw [hany, hfilter, if_pos hindex, if_pos rfl, foldl_cons, Option.getD_some]
      split_ifs with hrest
      · rfl
      · have hnone : deltas.filter (fun delta => delta.index = index) = [] := by simpa using hrest
        rw [hnone]
        rfl
    · have hany : (delta :: deltas).any (fun delta => delta.index = index) =
          deltas.any fun delta => delta.index = index := by simp [hindex]
      have hfilter : (delta :: deltas).filter (fun delta => delta.index = index) =
          deltas.filter fun delta => delta.index = index := by simp [hindex]
      rw [hany, hfilter, if_neg hindex]

end buffers

/-! ## The calls that come back -/

/-- Of a list by its indexes all values come back exactly if each index gives its value. -/
theorem filterMap_range_eq_iff {α : Type*} (g : Nat → Option α) (xs : List α) :
    (List.range xs.length).filterMap g = xs ↔ ∀ index < xs.length, g index = xs[index]? := by
  induction xs using List.reverseRecOn with
  | nil => simp
  | append_singleton xs x ih =>
    have hlast : (xs ++ [x])[xs.length]? = some x := List.getElem?_concat_length
    have hrange : (List.range (xs ++ [x]).length).filterMap g =
        (List.range xs.length).filterMap g ++ (g xs.length).toList := by
      rw [length_append, length_singleton, range_succ, filterMap_append]
      cases hg : g xs.length <;> simp [hg]
    have hfirst : ∀ index < xs.length, (xs ++ [x])[index]? = xs[index]? :=
      fun index hindex => List.getElem?_append_left hindex
    rw [hrange]
    constructor
    · intro h
      have hshort : ((List.range xs.length).filterMap g).length ≤ xs.length := by
        have hle := length_filterMap_le g (List.range xs.length)
        rwa [length_range] at hle
      obtain ⟨hxs, hx⟩ : (List.range xs.length).filterMap g = xs ∧ g xs.length = some x := by
        cases hg : g xs.length with
        | none =>
          have hlength := congrArg List.length h
          rw [hg, Option.toList_none, append_nil, length_append, length_singleton] at hlength
          omega
        | some y =>
          rw [hg, Option.toList_some] at h
          obtain ⟨hxs, hy⟩ := append_inj' h rfl
          exact ⟨hxs, congrArg some (List.cons.inj hy).1⟩
      intro index hindex
      rw [length_append, length_singleton] at hindex
      by_cases hold : index < xs.length
      · rw [hfirst index hold]
        exact ih.mp hxs index hold
      · obtain rfl : index = xs.length := by omega
        rw [hx, hlast]
    · intro h
      have hxs : (List.range xs.length).filterMap g = xs := by
        refine ih.mpr fun index hindex => ?_
        rw [← hfirst index hindex]
        exact h index (by rw [length_append]; omega)
      have hx : g xs.length = some x := by
        rw [h xs.length (by rw [length_append, length_singleton]; omega), hlast]
      rw [hxs, hx, Option.toList_some]

section cut

variable {calls : List ToolCall} {deltas : List ToolCallDelta}

/-- The indexes that the deltas give are those of the calls. -/
theorem CutFrom.sorted (h : CutFrom calls deltas) :
    (((deltas.foldl accumulateToolCallDelta Table.empty).entries.map Prod.fst).insertionSort
      (· ≤ ·)) = List.range calls.length := by
  have hmem : ∀ index,
      index ∈ (deltas.foldl accumulateToolCallDelta Table.empty).entries.map Prod.fst ↔
        index ∈ List.range calls.length := by
    intro index
    have hlookup := lookup_foldl_accumulate deltas Table.empty index
    rw [mem_range, ← h.indexes index, mem_map]
    constructor
    · rintro ⟨entry, hentry, rfl⟩
      have hsome := Table.get?_of_mem hentry
      by_contra hnone
      have hany : deltas.any (fun delta => delta.index = entry.1) = false := by simpa using hnone
      rw [hany, Dict.lookup, hsome] at hlookup
      cases hlookup
    · rintro ⟨delta, hdelta, hindex⟩
      have hany : deltas.any (fun delta => delta.index = index) = true :=
        any_eq_true.mpr ⟨delta, hdelta, by simp [hindex]⟩
      rw [hany, if_pos rfl, Dict.lookup] at hlookup
      obtain ⟨entry, hentry, -⟩ := Option.map_eq_some_iff.mp hlookup
      exact ⟨entry, Table.mem_of_get? hentry, Table.key_of_get? hentry⟩
  have hperm : ((deltas.foldl accumulateToolCallDelta Table.empty).entries.map Prod.fst).Perm
      (List.range calls.length) :=
    (perm_ext_iff_of_nodup (Table.keys_nodup _) nodup_range).mpr hmem
  exact ((perm_insertionSort _ _).trans hperm).eq_of_sortedLE sortedLE_insertionSort
    pairwise_le_range.sortedLE

/-- What has been put together for an index. -/
def assembled (deltas : List ToolCallDelta) (index : Nat) : ToolCallBuffer :=
  (deltas.filter fun delta => delta.index = index).foldl ToolCallBuffer.add {}

theorem CutFrom.finalize_eq (h : CutFrom calls deltas) :
    finalizeToolCallChunks (deltas.foldl accumulateToolCallDelta Table.empty) =
      (List.range calls.length).filterMap fun index =>
        finalizeToolCall index (assembled deltas index) := by
  rw [finalizeToolCallChunks, h.sorted]
  refine filterMap_congr fun index hindex => ?_
  obtain ⟨delta, hdelta, hid⟩ := (h.indexes index).mpr (mem_range.mp hindex)
  have hany : deltas.any (fun delta => delta.index = index) = true :=
    any_eq_true.mpr ⟨delta, hdelta, by simp [hid]⟩
  rw [lookup_foldl_accumulate, hany, if_pos rfl, Option.bind_some]
  rfl

/-- A field comes back, or what stands for an empty one, exactly if it is cut cleanly. -/
theorem field_eq_iff {default : String} {fragments : List (Option String)}
    (hwhole : whole fragments = text) (hdefault : default ≠ "") :
    (if joined fragments = "" then default else joined fragments) = text ↔
      CleanlyCut text fragments := by
  rw [CleanlyCut, ← joined_eq_whole_iff, hwhole]
  by_cases hempty : joined fragments = ""
  · have htext : text = "" := by rw [← hwhole, ← joined_eq_empty_iff, hempty]
    rw [if_pos hempty, htext]
    exact iff_of_false hdefault fun h => h.1 rfl
  · have htext : text ≠ "" := by
      rw [← hwhole]
      exact mt (joined_eq_empty_iff fragments).mpr hempty
    rw [if_neg hempty]
    exact (and_iff_right htext).symm

/-- A call comes back exactly if its fields are cut cleanly. -/
theorem CutFrom.finalizeToolCall_eq_iff (h : CutFrom calls deltas) {index : Nat} {call : ToolCall}
    (hcall : calls[index]? = some call) :
    finalizeToolCall index (assembled deltas index) = some call ↔
      CleanlyCut call.id (fragmentsOf ToolCallDelta.id index deltas) ∧
      CleanlyCut call.name (fragmentsOf ToolCallDelta.name index deltas) ∧
      CleanlyCut call.arguments (fragmentsOf ToolCallDelta.arguments index deltas) := by
  have hid : (assembled deltas index).id = joined (fragmentsOf ToolCallDelta.id index deltas) :=
    foldl_add_field _ (fun _ _ => rfl) _
  have hname : (assembled deltas index).name =
      joined (fragmentsOf ToolCallDelta.name index deltas) :=
    foldl_add_field _ (fun _ _ => rfl) _
  have harguments : (assembled deltas index).arguments =
      joined (fragmentsOf ToolCallDelta.arguments index deltas) :=
    foldl_add_field _ (fun _ _ => rfl) _
  have htype : (assembled deltas index).type = "function" :=
    foldl_add_type _ rfl fun delta hdelta => h.types delta (mem_filter.mp hdelta).1
  have hcalled : "call-" ++ toString index ≠ "" := by
    intro hnone
    exact absurd (String.append_eq_empty_iff.mp hnone).1 (by decide)
  have hbraces : "\x7b\x7d" ≠ "" := by decide
  rw [← field_eq_iff (h.ids index call hcall) hcalled,
    ← field_eq_iff (h.arguments index call hcall) hbraces,
    CleanlyCut, ← joined_eq_whole_iff, h.names index call hcall, finalizeToolCall, hid, hname,
    harguments, htype]
  have hempty := joined_eq_empty_iff (fragmentsOf ToolCallDelta.name index deltas)
  rw [h.names index call hcall] at hempty
  by_cases hnone : joined (fragmentsOf ToolCallDelta.name index deltas) = ""
  · rw [if_pos (Or.inr hnone)]
    exact iff_of_false (fun h => by cases h) fun h => h.2.1.1 (hempty.mp hnone)
  · rw [if_neg (by rintro (hfunction | hnamed); exacts [hfunction rfl, hnone hnamed]),
      Option.some.injEq, and_iff_right (mt hempty.mpr hnone)]
    constructor
    · rintro rfl
      exact ⟨rfl, rfl, rfl⟩
    · rintro ⟨hsameId, hsameName, hsameArguments⟩
      rw [hsameId, hsameName, hsameArguments]

/-- The calls of a reply come back from its deltas exactly if they are cut cleanly. -/
theorem CutFrom.finalize_eq_iff (h : CutFrom calls deltas) :
    finalizeToolCallChunks (deltas.foldl accumulateToolCallDelta Table.empty) = calls ↔
      CleanCalls calls deltas := by
  rw [h.finalize_eq, filterMap_range_eq_iff]
  constructor
  · intro hall index call hcall
    rw [← h.finalizeToolCall_eq_iff hcall, ← hcall]
    exact hall index (List.getElem?_eq_some_iff.mp hcall).1
  · intro hclean index hindex
    have hcall : calls[index]? = some calls[index] := List.getElem?_eq_getElem hindex
    rw [hcall, h.finalizeToolCall_eq_iff hcall]
    exact hclean index calls[index] hcall

end cut

end Newbro.ToolCalling
