import Mathlib
import Newbro.Library.Table
import Newbro.YamlReading

/-!
# The registry file

`executor_nodes.yaml`: the writer and the loader of `executors/node/registry.py`. The writer puts
each record on lines of its own, the first of them behind a dash.
-/
namespace Newbro.NodeRegistryFile

open Library Library.Text Library.Blocks YamlSupport List

structure StoredExecutorNodeRecord where
  nodeId : String
  name : String
  enabledExecutors : List String := []
  acpxAgent : Option String := none
  rawToken : Option String := none
  tokenHash : String
  tokenHint : String
  lastConnectedAt : Option String := none
  lastSeenAt : Option String := none
  deriving Repr, DecidableEq

/-- `_records` -/
abbrev Registry := Table StoredExecutorNodeRecord.nodeId

/-! ## Writing -/

def yamlQuote (value : String) : List Char :=
  let escaped := replaceChar '"' ['\\', '"'] (replaceChar '\\' ['\\', '\\'] value.toList)
  '"' :: (escaped ++ ['"'])

/-- `_yaml_quote(value) if value else 'null'` -/
def yamlQuoteOr (value : Option String) : List Char :=
  match value.filter (· ≠ "") with
  | some value => yamlQuote value
  | none => "null".toList

/-- The lines of a record in `_write_records`. -/
def recordLines (record : StoredExecutorNodeRecord) : List (List Char) :=
  ["  - node_id: ".toList ++ yamlQuote record.nodeId,
    "    name: ".toList ++ yamlQuote record.name,
    "    enabled_executors:".toList] ++
  record.enabledExecutors.map (fun executorType => "      - ".toList ++ yamlQuote executorType) ++
  ["    acpx_agent: ".toList ++ yamlQuoteOr record.acpxAgent,
    "    raw_token: ".toList ++ yamlQuoteOr record.rawToken,
    "    token_hash: ".toList ++ yamlQuote record.tokenHash,
    "    token_hint: ".toList ++ yamlQuote record.tokenHint,
    "    last_connected_at: ".toList ++ yamlQuoteOr record.lastConnectedAt,
    "    last_seen_at: ".toList ++ yamlQuoteOr record.lastSeenAt]

/-- The order by `(item.name.lower(), item.node_id)`. -/
def sortsBefore (u : Unicode) (a b : StoredExecutorNodeRecord) : Bool :=
  let nameA := String.ofList (u.lower a.name.toList)
  let nameB := String.ofList (u.lower b.name.toList)
  nameA < nameB || (nameA = nameB && a.nodeId ≤ b.nodeId)

def orderedRecords (u : Unicode) (records : List StoredExecutorNodeRecord) :
    List StoredExecutorNodeRecord :=
  records.insertionSort fun a b => sortsBefore u a b = true

/-- The text that `_write_records` writes. -/
def writeRecords (u : Unicode) (records : List StoredExecutorNodeRecord) : List Char :=
  joinLines ("version: 1".toList :: "executor_nodes:".toList ::
    (orderedRecords u records).flatMap recordLines)

/-! ## Loading -/

/-- What loading raises: an `ExecutorNodeRegistryError`, for an entry with the fields that its
validation refuses, or an error of PyYAML, which is not caught. -/
inductive RegistryError where
  | registry (message : String)
  | invalidEntry (path : String) (fields : List String)
  | yaml (message : String)
  deriving Repr, DecidableEq

variable (entries : Entries) (field : String)

def fieldOf : Option Value := entries.lookup field.toList

/-- A field of type `str`. -/
def textField : Except (List String) String :=
  match fieldOf entries field with
  | some (.str text) => .ok (String.ofList text)
  | _ => .error [field]

/-- A field of type `str | None`. -/
def optionalTextField :
    Except (List String) (Option String) :=
  match fieldOf entries field with
  | none => .ok none
  | some .null => .ok none
  | some (.str text) => .ok (some (String.ofList text))
  | some _ => .error [field]

def textOf : Value → Option String
  | .str text => some (String.ofList text)
  | _ => none

/-- A field of type `list[str]`. -/
def textListField : Except (List String) (List String) :=
  match fieldOf entries field with
  | none => .ok []
  | some (.list items) =>
    match items.mapM textOf with
    | some texts => .ok texts
    | none => .error [field]
  | some _ => .error [field]

/-- The fields that a check refuses. -/
def refused {α : Type} : Except (List String) α → List String
  | .error fields => fields
  | .ok _ => []

/-- `StoredExecutorNodeRecord.model_validate`; it tells of all the fields that it refuses. -/
def modelValidate : Except (List String) StoredExecutorNodeRecord :=
  match textField entries "node_id", textField entries "name",
      textListField entries "enabled_executors", optionalTextField entries "acpx_agent",
      optionalTextField entries "raw_token", textField entries "token_hash",
      textField entries "token_hint", optionalTextField entries "last_connected_at",
      optionalTextField entries "last_seen_at" with
  | .ok nodeId, .ok name, .ok enabledExecutors, .ok acpxAgent, .ok rawToken, .ok tokenHash,
      .ok tokenHint, .ok lastConnectedAt, .ok lastSeenAt =>
    .ok ⟨nodeId, name, enabledExecutors, acpxAgent, rawToken, tokenHash, tokenHint,
      lastConnectedAt, lastSeenAt⟩
  | nodeId, name, enabledExecutors, acpxAgent, rawToken, tokenHash, tokenHint, lastConnectedAt,
      lastSeenAt =>
    .error (refused nodeId ++ refused name ++ refused enabledExecutors ++ refused acpxAgent ++
      refused rawToken ++ refused tokenHash ++ refused tokenHint ++ refused lastConnectedAt ++
      refused lastSeenAt)

section loading

variable (u : Unicode) (decimal : Char → Option (Fin 10)) (isZero : List Char → Bool)

/-- `not value`; `isZero` tells of the text of a float whether it is zero. -/
def isFalsy : Value → Bool
  | .null => true
  | .bool b => !b
  | .int n => n = 0
  | .float text => isZero text
  | .str text => text = []
  | .list items => items.isEmpty
  | .dict entries => entries.isEmpty
  | .other _ => false

/-- The loop of `_load_records` over the entries. -/
def validateNodes (path : String) :
    List Value → Except RegistryError (List StoredExecutorNodeRecord)
  | [] => .ok []
  | .dict entries :: rest =>
    match modelValidate entries with
    | .error fields => .error (.invalidEntry path fields)
    | .ok record =>
      match validateNodes path rest with
      | .error e => .error e
      | .ok records => .ok (record :: records)
  | _ :: _ => .error (.registry ("Executor node entry must be a mapping in " ++ path))

/-- `_load_records` from what the file is parsed as. -/
def recordsOf (path : String) (raw : Value) :
    Except RegistryError (List StoredExecutorNodeRecord) :=
  match raw with
  | .null => .ok []
  | .dict entries =>
    match (fieldOf entries "executor_nodes").filter fun nodes => !isFalsy isZero nodes with
    | none => .ok []
    | some (.list rawNodes) => validateNodes path rawNodes
    | some _ => .error (.registry ("'executor_nodes' must be a list in " ++ path))
  | _ => .error (.registry ("Executor node registry root must be a mapping: " ++ path))

/-- `_load_records` of a file, if it exists. -/
def loadRecords (safeLoad : Option SafeLoad) (path : String) (file : Option (List Char)) :
    Except RegistryError (List StoredExecutorNodeRecord) :=
  match file with
  | none => .ok []
  | some file =>
    match loadYamlFile u decimal safeLoad path file with
    | .error (.parse message) =>
      .error (.registry ("Invalid executor node registry at " ++ path ++ ": " ++ message))
    | .error (.yaml message) => .error (.yaml message)
    | .ok raw => recordsOf isZero path raw

/-- `ExecutorNodeRegistry.__init__` -/
def openRegistry (safeLoad : Option SafeLoad) (path : String) (file : Option (List Char)) :
    Except RegistryError Registry :=
  (loadRecords u decimal isZero safeLoad path file).map fun records =>
    records.foldl Table.put Table.empty

/-- The registry that is opened on the file of a registry has the same records. -/
def ComesBack (safeLoad : Option SafeLoad) (path : String) (registry : Registry) : Prop :=
  ∃ loaded, openRegistry u decimal isZero safeLoad path
      (some (writeRecords u registry.entries)) = .ok loaded ∧
    ∀ nodeId, loaded.get? nodeId = registry.get? nodeId

end loading

/-! ## Records without line breaks -/

variable {record : StoredExecutorNodeRecord} {P : List Char → Prop} {path : String}
   {records : List StoredExecutorNodeRecord}

section oneLine

theorem nodeId_of_modelValidate {entries : Entries} (h : modelValidate entries = .ok record) :
    ∃ text, fieldOf entries "node_id" = some (.str text) ∧ record.nodeId = String.ofList text := by
  unfold modelValidate at h
  split at h
  · rename_i hnodeId _ _ _ _ _ _ _ _
    cases h
    unfold textField at hnodeId
    split at hnodeId
    · rename_i text hfield
      cases hnodeId
      exact ⟨text, hfield, rfl⟩
    · cases hnodeId
  · cases h

theorem made_fieldOf {entries : Entries} (h : (Value.dict entries).Made P)
    {field : String} {value : Value} (hfield : fieldOf entries field = some value) :
    value.Made P := by
  obtain ⟨before, after, rfl, -⟩ := lookup_eq_some_iff.mp hfield
  cases h with
  | dict hkey hvalue => exact hvalue (field.toList, value) (by simp)

/-- The node id of a record has no line break if what is loaded has none. -/
theorem nodeId_oneLine {nodes : List Value} (h : ∀ node ∈ nodes, node.Made P)
    (hrecords : validateNodes path nodes = .ok records) :
    ∀ record ∈ records, Free record.nodeId.toList := by
  induction nodes generalizing records with
  | nil =>
    cases hrecords
    intro record hrecord
    cases hrecord
  | cons node nodes ih =>
    cases node with
    | dict entries =>
      rw [validateNodes] at hrecords
      split at hrecords
      · cases hrecords
      · rename_i first hfirst
        split at hrecords
        · cases hrecords
        · rename_i others hothers
          cases hrecords
          have hrest := ih (fun other hother => h other (mem_cons_of_mem _ hother)) hothers
          intro record hrecord
          rcases mem_cons.mp hrecord with rfl | hlater
          · obtain ⟨text, hfield, hid⟩ := nodeId_of_modelValidate hfirst
            cases made_fieldOf (h (.dict entries) mem_cons_self) hfield with
            | str htext =>
              rw [hid, String.toList_ofList]
              exact htext
          · exact hrest record hlater
    | _ => cases hrecords

theorem nodeId_oneLine_recordsOf {isZero : List Char → Bool} {raw : Value} (h : raw.Made P)
    (hrecords : recordsOf isZero path raw = .ok records) :
    ∀ record ∈ records, Free record.nodeId.toList := by
  have hnone : ∀ record ∈ ([] : List StoredExecutorNodeRecord), Free record.nodeId.toList :=
    fun record hrecord => by cases hrecord
  unfold recordsOf at hrecords
  split at hrecords
  · cases hrecords
    exact hnone
  · rename_i entries
    split at hrecords
    · cases hrecords
      exact hnone
    · rename_i nodes hnodes
      have hfield := (Option.filter_eq_some_iff.mp hnodes).1
      cases made_fieldOf h hfield with
      | list hitems => exact nodeId_oneLine hitems hrecords
    · cases hrecords
  · cases hrecords

end oneLine

/-! ## The parser written by hand -/

variable {registry : Registry}

section simple

variable {u : Unicode} {decimal : Char → Option (Fin 10)} {isZero : List Char → Bool}

def versionLine : SimpleYamlLine := ⟨0, "version: 1".toList, 1⟩

def nodesLine : SimpleYamlLine := ⟨0, "executor_nodes:".toList, 2⟩

theorem holdsEntry_versionLine : HoldsEntry versionLine "version".toList "1".toList :=
  ⟨by decide, by decide, by decide, by decide, by decide⟩

theorem holdsEntry_nodesLine : HoldsEntry nodesLine "executor_nodes".toList [] :=
  ⟨by decide, by decide, by decide, by decide, by decide⟩

theorem tokenizeLine_versionLine (path : String) :
    tokenizeLine path 1 "version: 1".toList = .ok (some versionLine) := by
  have hline : "version: 1".toList = pad 0 ++ 'v' :: "ersion: 1".toList := by decide
  have hkept : tokenizeLine path 1 (pad 0 ++ 'v' :: "ersion: 1".toList) =
      .ok (some ⟨0, 'v' :: "ersion: 1".toList, 1⟩) :=
    tokenizeLine_pad path 1 rfl (by decide) (by decide) _
  rw [← hline] at hkept
  exact hkept

theorem tokenizeLine_nodesLine (path : String) :
    tokenizeLine path 2 "executor_nodes:".toList = .ok (some nodesLine) := by
  have hline : "executor_nodes:".toList = pad 0 ++ 'e' :: "xecutor_nodes:".toList := by
    decide
  have hkept : tokenizeLine path 2 (pad 0 ++ 'e' :: "xecutor_nodes:".toList) =
      .ok (some ⟨0, 'e' :: "xecutor_nodes:".toList, 2⟩) :=
    tokenizeLine_pad path 2 rfl (by decide) (by decide) _
  rw [← hline] at hkept
  exact hkept

/-- The first line of a record is taken for a text in a list, and the next, which is indented more,
for a part of the mapping around it. -/
theorem parseBlock_record {item : List Char} {record name : SimpleYamlLine}
    {rest : List SimpleYamlLine} (hrecord : record.indent = 2) (hname : name.indent = 4)
    (hitem : startsItem record.content = true) (htext : stripChars (record.content.drop 2) = item)
    (hne : item ≠ []) :
    seen (parseBlock u decimal 0 (versionLine :: nodesLine :: record :: name :: rest)) =
      .error (lineError name "unexpected indentation for mapping entry") := by
  have hlist : seen (nestedValue u decimal 0 (record :: name :: rest)) =
      .ok (.list [parseScalar u decimal item], name :: rest) := by
    have hend : seen (parseList u decimal record.indent ([] ++ [parseScalar u decimal item])
        (name :: rest)) = .ok ([] ++ [parseScalar u decimal item], name :: rest) :=
      seen_parseList_end (by rw [hname, hrecord]; decide)
    rw [seen_nestedValue_deeper (by rw [hrecord]; decide), seen_parseBlock_list hitem,
      seen_parseList_scalar hitem htext hne, hend]
    rfl
  have hdeeper : versionLine.indent < name.indent := by
    rw [hname]
    decide
  rw [seen_parseBlock_mapping holdsEntry_versionLine]
  have hmapping : seen (parseMapping u decimal 0 []
      (versionLine :: nodesLine :: record :: name :: rest)) =
      .error (lineError name "unexpected indentation for mapping entry") := by
    calc seen (parseMapping u decimal versionLine.indent []
            (versionLine :: nodesLine :: record :: name :: rest))
        = seen (parseMapping u decimal nodesLine.indent
            (setEntry [] "version".toList (parseScalar u decimal "1".toList))
            (nodesLine :: record :: name :: rest)) :=
          seen_parseMapping_scalar holdsEntry_versionLine (by decide)
      _ = seen (parseMapping u decimal versionLine.indent _ (name :: rest)) :=
          seen_parseMapping_nested holdsEntry_nodesLine hlist
      _ = _ := parseMapping_deeper hdeeper
  rw [hmapping]
  rfl

theorem free_yamlQuote {value : String} (h : ∀ c ∈ value.toList, isLineBreak c = false) :
    ∀ c ∈ yamlQuote value, isLineBreak c = false := by
  have hmem : ∀ {old : Char} {new text : List Char} {c : Char}, c ∈ replaceChar old new text →
      c ∈ text ∨ c ∈ new := by
    intro old new text c hc
    obtain ⟨d, hd, hc⟩ := mem_flatMap.mp hc
    split at hc
    · exact Or.inr hc
    · rw [mem_singleton.mp hc]
      exact Or.inl hd
  have hslashes : ∀ c ∈ ['\\', '\\'], isLineBreak c = false := by decide
  have hquotes : ∀ c ∈ ['\\', '"'], isLineBreak c = false := by decide
  intro c hc
  rcases mem_cons.mp hc with rfl | hc
  · decide
  · rcases mem_append.mp hc with hinside | hquote
    · rcases hmem hinside with hinside | hquote
      · rcases hmem hinside with hvalue | hslash
        · exact h c hvalue
        · exact hslashes c hslash
      · exact hquotes c hquote
    · rw [mem_singleton.mp hquote]
      decide

/-- The text of a registry that holds a record whose id is of one line begins with four lines that
are known but for the end of the last. -/
theorem splitLines_record (h : Free record.nodeId.toList) (more : List (List Char)) :
    ∃ tail others, splitLines (joinLines ("version: 1".toList :: "executor_nodes:".toList ::
        (recordLines record ++ more))) =
      "version: 1".toList :: "executor_nodes:".toList ::
        ("  - node_id: ".toList ++ yamlQuote record.nodeId) ::
        ("    name: ".toList ++ tail) :: others := by
  have hversion : ∀ c ∈ "version: 1".toList, isLineBreak c = false := by decide
  have hnodes : ∀ c ∈ "executor_nodes:".toList, isLineBreak c = false := by decide
  have hdash : ∀ c ∈ "  - node_id: ".toList, isLineBreak c = false := by decide
  have hname : ∀ c ∈ "    name: ".toList, isLineBreak c = false := by decide
  have hrecord : ∀ c ∈ "  - node_id: ".toList ++ yamlQuote record.nodeId,
      isLineBreak c = false := by
    intro c hc
    rcases mem_append.mp hc with hc | hc
    · exact hdash c hc
    · exact free_yamlQuote h c hc
  obtain ⟨after, hafter⟩ : ∃ after, joinLines (recordLines record ++ more) =
      ("  - node_id: ".toList ++ yamlQuote record.nodeId) ++
        '\n' :: ("    name: ".toList ++ after) := by
    rw [recordLines, joinLines]
    simp only [cons_append, nil_append, flatMap_cons, append_assoc]
    exact ⟨_, rfl⟩
  obtain ⟨tail, others, hsplit⟩ := splitLines_start (by decide) hname after
  refine ⟨tail, others, ?_⟩
  have hjoin : joinLines ("version: 1".toList :: "executor_nodes:".toList ::
      (recordLines record ++ more)) =
      "version: 1".toList ++ '\n' :: ("executor_nodes:".toList ++
        '\n' :: joinLines (recordLines record ++ more)) := by
    simp [joinLines]
  rw [hjoin, splitLines, splitLinesFrom_line hversion, splitLinesFrom_line hnodes, hafter,
    splitLinesFrom_line hrecord]
  show _ :: _ :: _ :: splitLines _ = _
  rw [hsplit]
  rfl

/-- What begins with these lines is not loaded. -/
theorem loadSimpleYaml_record (h : Free record.nodeId.toList) (more : List (List Char)) :
    ∃ e, loadSimpleYaml u decimal path (joinLines ("version: 1".toList ::
      "executor_nodes:".toList :: (recordLines record ++ more))) = .error e := by
  obtain ⟨tail, others, hsplit⟩ := splitLines_record h more
  have hdash : "  - node_id: ".toList = pad 2 ++ '-' :: " node_id: ".toList := by decide
  have hname : "    name: ".toList = pad 4 ++ 'n' :: "ame: ".toList := by decide
  have hrecordLine : tokenizeLine path 3 ("  - node_id: ".toList ++ yamlQuote record.nodeId) =
      .ok (some ⟨2, '-' :: (" node_id: ".toList ++ yamlQuote record.nodeId), 3⟩) := by
    rw [hdash, append_assoc]
    exact tokenizeLine_pad path 3 rfl (by decide) (by decide) _
  have hnameLine : tokenizeLine path 4 ("    name: ".toList ++ tail) =
      .ok (some ⟨4, 'n' :: ("ame: ".toList ++ tail), 4⟩) := by
    rw [hname, append_assoc]
    exact tokenizeLine_pad path 4 rfl (by decide) (by decide) _
  have htokens : tokenizeFrom path 1 (splitLines (joinLines ("version: 1".toList ::
      "executor_nodes:".toList :: (recordLines record ++ more)))) =
      (tokenizeFrom path 5 others).map fun lines => versionLine :: nodesLine ::
        ⟨2, '-' :: (" node_id: ".toList ++ yamlQuote record.nodeId), 3⟩ ::
        ⟨4, 'n' :: ("ame: ".toList ++ tail), 4⟩ :: lines := by
    rw [hsplit, tokenizeFrom_cons (tokenizeLine_versionLine path),
      tokenizeFrom_cons (tokenizeLine_nodesLine path), tokenizeFrom_cons hrecordLine,
      tokenizeFrom_cons hnameLine]
    cases tokenizeFrom path 5 others with
    | error | ok => rfl
  cases hrest : tokenizeFrom path 5 others with
  | error e =>
    rw [hrest] at htokens
    refine ⟨e, ?_⟩
    rw [loadSimpleYaml, htokens]
    rfl
  | ok lines =>
    rw [hrest] at htokens
    have hspace : " node_id: ".toList = ' ' :: (pad 0 ++ 'n' :: "ode_id: ".toList) := by
      decide
    obtain ⟨item, hitem⟩ := stripChars_pad 0 (by decide : isSpace 'n' = false)
      ("ode_id: ".toList ++ yamlQuote record.nodeId)
    refine ⟨_, (loadSimpleYaml_eq htokens).1 _ (parseBlock_record rfl rfl ?_ ?_
      (cons_ne_nil 'n' item))⟩
    · rw [hspace]
      rfl
    · rw [hspace]
      exact hitem

/-- The writer puts the records of a registry that is not empty after the first two lines. -/
theorem writeRecords_cons (hne : records ≠ []) : ∃ first ∈ records, ∃ more, writeRecords u records =
      joinLines ("version: 1".toList :: "executor_nodes:".toList ::
        (recordLines first ++ more)) := by
  have hperm := perm_insertionSort (fun a b => sortsBefore u a b = true) records
  unfold writeRecords orderedRecords
  cases horder : records.insertionSort fun a b => sortsBefore u a b = true with
  | nil =>
    rw [horder] at hperm
    exact absurd (nil_perm.mp hperm) hne
  | cons first others =>
    rw [horder] at hperm
    refine ⟨first, hperm.mem_iff.mp mem_cons_self, others.flatMap recordLines, ?_⟩
    rw [flatMap_cons]

theorem mem_foldl_put (h : record ∈ (records.foldl Table.put registry).entries) :
    record ∈ registry.entries ∨ record ∈ records := by
  induction records generalizing registry with
  | nil => exact Or.inl h
  | cons first others ih =>
    rcases ih h with hput | hother
    · rcases Table.mem_put.mp hput with rfl | ⟨hold, -⟩
      · exact Or.inr mem_cons_self
      · exact Or.inl hold
    · exact Or.inr (mem_cons_of_mem _ hother)

/-- With the parser written by hand no record comes back: where the id of the first is of one line
the file is refused, and a text of several lines is never loaded. -/
theorem not_comesBack_simple
    (hne : registry.entries ≠ []) : ¬ ComesBack u decimal isZero none path registry := by
  rintro ⟨loaded, hloaded, hsame⟩
  obtain ⟨first, hfirst, more, htext⟩ := writeRecords_cons (u := u) hne
  unfold openRegistry at hloaded
  cases hrecords : loadRecords u decimal isZero none path
      (some (writeRecords u registry.entries)) with
  | error e =>
    rw [hrecords] at hloaded
    cases hloaded
  | ok records =>
    rw [hrecords] at hloaded
    cases hloaded
    have hget : (records.foldl Table.put (Table.empty : Registry)).get? first.nodeId =
        some first := by
      rw [hsame]
      exact Table.get?_of_mem hfirst
    have hmem : first ∈ records := by
      rcases mem_foldl_put (Table.mem_of_get? hget) with hnone | hmem
      · cases hnone
      · exact hmem
    simp only [loadRecords, loadYamlFile, loadSimpleYaml_universalNewlines] at hrecords
    cases hraw : loadSimpleYaml u decimal path (writeRecords u registry.entries) with
    | error e =>
      rw [hraw] at hrecords
      cases e <;> cases hrecords
    | ok raw =>
      rw [hraw] at hrecords
      have hline : Free first.nodeId.toList :=
        nodeId_oneLine_recordsOf (made_of_loadSimpleYaml hraw) hrecords first hmem
      have hrefused : ∃ e, loadSimpleYaml u decimal path (writeRecords u registry.entries) =
          .error e := by
        rw [htext]
        exact loadSimpleYaml_record hline more
      obtain ⟨e, he⟩ := hrefused
      rw [he] at hraw
      cases hraw

/-- What the file of a registry without records stands for. -/
def emptyDocument : Value :=
  .dict [("version".toList, .int 1), ("executor_nodes".toList, .null)]

theorem loadSimpleYaml_empty (path : String) :
    loadSimpleYaml u decimal path (writeRecords u []) = .ok emptyDocument := by
  have htokens : tokenizeFrom path 1 (splitLines (writeRecords u [])) =
      .ok [versionLine, nodesLine] := by
    have hsplit : splitLines (writeRecords u []) =
        ["version: 1".toList, "executor_nodes:".toList] := by
      refine splitLines_joinLines fun line hline => ?_
      rcases mem_cons.mp hline with rfl | hline
      · decide
      · rw [mem_singleton.mp hline]
        decide
    rw [hsplit, tokenizeFrom_cons (tokenizeLine_versionLine path),
      tokenizeFrom_cons (tokenizeLine_nodesLine path)]
    rfl
  have hone : parseScalar u decimal "1".toList = .int 1 := by
    have hlower : u.lower "1".toList = "1".toList := by
      rw [u.lower_of_ascii _ (by decide)]
      decide
    have htransform : transformDecimal decimal "1".toList = "1".toList := by
      rw [show "1".toList = ['1'] from by decide]
      rfl
    have hread : readInt "1".toList = some 1 := by decide
    unfold parseScalar
    rw [hlower, htransform, hread]
    dsimp only
    rw [if_neg (by decide), if_neg (by decide), if_neg (by decide),
      if_neg (by decide), if_neg (by decide), if_neg (by decide),
      if_neg (by decide)]
  refine (loadSimpleYaml_eq htokens).2 emptyDocument ?_
  have hmapping : seen (parseMapping u decimal versionLine.indent [] [versionLine, nodesLine]) =
      .ok ([("version".toList, .int 1), ("executor_nodes".toList, .null)], []) := by
    have hnull : seen (nestedValue u decimal nodesLine.indent []) = .ok (.null, []) := by
      rw [nestedValue]
      rfl
    have hend : ∀ entries : Entries, seen (parseMapping u decimal nodesLine.indent entries []) =
        .ok (entries, []) := by
      intro entries
      rw [parseMapping]
      rfl
    rw [seen_parseMapping_scalar holdsEntry_versionLine (by decide), hone]
    refine (seen_parseMapping_nested holdsEntry_nodesLine hnull).trans ?_
    rw [hend]
    simp [setEntry]
  rw [seen_parseBlock_mapping holdsEntry_versionLine, hmapping]
  rfl

theorem recordsOf_empty (path : String) : recordsOf isZero path emptyDocument = .ok [] := by
  have hfield : fieldOf [("version".toList, .int 1), ("executor_nodes".toList, .null)]
      "executor_nodes" = some .null := by
    simp [fieldOf, List.lookup]
  rw [emptyDocument, recordsOf, hfield]
  rfl

theorem comesBack_of_empty {safeLoad : Option SafeLoad} (hempty : registry.entries = [])
    (hload : loadYamlFile u decimal safeLoad path (writeRecords u []) = .ok emptyDocument) :
    ComesBack u decimal isZero safeLoad path registry := by
  refine ⟨Table.empty, ?_, fun nodeId => ?_⟩
  · rw [hempty, openRegistry, loadRecords, hload]
    show (recordsOf isZero path emptyDocument).map _ = _
    rw [recordsOf_empty]
    rfl
  · rw [Table.get?_empty, Table.get?, hempty]
    rfl

/-- PyYAML reads the file of a registry without records. -/
def ReadsEmpty (u : Unicode) (safeLoad : SafeLoad) : Prop :=
  safeLoad (universalNewlines (writeRecords u [])) = .ok emptyDocument

/-- A registry comes back from its file by PyYAML and by the parser written by hand exactly if it
holds no record. -/
theorem comesBack_iff {safeLoad : SafeLoad} (hread : ReadsEmpty u safeLoad) (path : String)
    (registry : Registry) : ComesBack u decimal isZero (some safeLoad) path registry ∧
        ComesBack u decimal isZero none path registry ↔
      registry.entries = [] := by
  constructor
  · rintro ⟨-, hsimple⟩
    by_contra hne
    exact not_comesBack_simple hne hsimple
  · intro hempty
    refine ⟨comesBack_of_empty hempty hread, comesBack_of_empty hempty ?_⟩
    rw [loadYamlFile, loadSimpleYaml_universalNewlines]
    exact loadSimpleYaml_empty path

end simple

/-- A loader that reads what the parser written by hand reads. -/
def simpleLoad : SafeLoad := loadSimpleYaml ascii (fun _ => none) "executor_nodes.yaml"

theorem comesBack_iff_empty :
    ComesBack ascii (fun _ => none) (fun _ => false) (some simpleLoad) "executor_nodes.yaml"
          Table.empty ∧
        ComesBack ascii (fun _ => none) (fun _ => false) none "executor_nodes.yaml" Table.empty ↔
      (Table.empty : Registry).entries = [] := by
  have hread : ReadsEmpty ascii simpleLoad := by
    rw [ReadsEmpty, simpleLoad, loadSimpleYaml_universalNewlines]
    exact loadSimpleYaml_empty "executor_nodes.yaml"
  exact comesBack_iff hread "executor_nodes.yaml" Table.empty

/-! ## A record that is lost -/

/-- A computer as `create_node` stores it. -/
def laptop : StoredExecutorNodeRecord :=
  { nodeId := "node-1a2b3c4d"
    name := "Laptop"
    enabledExecutors := ["codex"]
    rawToken := some "token-of-the-laptop"
    tokenHash := "0f3c"
    tokenHint := "toke...ptop" }

theorem laptop_is_lost :
    ¬ ∀ registry : Registry, ComesBack ascii (fun _ => none) (fun _ => false) none
      "executor_nodes.yaml" registry := by
  intro hall
  have hne : ((Table.empty : Registry).put laptop).entries ≠ [] := by decide
  exact not_comesBack_simple hne (hall (Table.empty.put laptop))

end Newbro.NodeRegistryFile
