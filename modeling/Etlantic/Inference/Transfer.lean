import Etlantic.Inference.WriteCompatibility
import Etlantic.Schema.Drift
import Etlantic.Transform.FrameActions
import Mathlib.Data.Finset.Dedup

/-!
# Schema transfer

`forward_schema` carries a schema through the actions of a frame, as a list of fields.  It
reports most repeated names, but not those of a projection that lists a field again, it
orders the fields by names that the frame may list twice, and it names the keys of groups
as they declare it.  Its fields are those of the rows of the local engine exactly where
none of this matters at the end.
-/

namespace Etlantic.Inference.Transfer

open SchemaDrift (NormalizedField)
open Transform.Frame

/-! ## Diagnostics -/

structure Diagnostic where
  code : String
  severity : Severity
  message : String
  path : List String
deriving DecidableEq

structure TransferHost where
  isPrintable : Char → Bool
  /-- `str(target)`. -/
  text : Json → String
  /-- `infer_expression`: the type of an expression, whether it is nullable, and what is
  reported about it. -/
  infer : Json → List NormalizedField → (String × Bool) × List Diagnostic

/-- `FrameExpr`. -/
structure Frame where
  actions : List FrameAction
  schemaFields : Option (List String)

section Transfer

variable (host : TransferHost)

/-- `repr(text)`. -/
def quoted (text : String) : String := String.ofList (Repr.text host.isPrintable text)

def missingField (what name : String) : Diagnostic :=
  ⟨"INFER_LINEAGE_MISSING", .error, what ++ " references missing field " ++ quoted host name,
    [name]⟩

def collision (what name : String) : Diagnostic :=
  ⟨"INFER_LINEAGE_COLLISION", .error, what ++ " duplicate field " ++ quoted host name, [name]⟩

def unsupported (severity : Severity) (message : String) (path : List String) : Diagnostic :=
  ⟨"INFER_BACKWARD_UNSUPPORTED", severity, message, path⟩

mutual

/-- `_expression_refs`. -/
def expressionRefs : Json → List String
  | .obj fields =>
      match Json.field? "kind" (.obj fields) with
      | some (.str "fieldRef") =>
          match Json.field? "target" (.obj fields) with
          | none | some .null => []
          | some target => [host.text target]
      | _ => FirstOccurrence.firsts id [] (fieldsRefs fields)
  | _ => []

def fieldsRefs : List (String × Json) → List String
  | [] => []
  | (_, .arr items) :: rest => itemsRefs items ++ fieldsRefs rest
  | (_, value) :: rest => expressionRefs value ++ fieldsRefs rest

def itemsRefs : List Json → List String
  | [] => []
  | item :: rest => expressionRefs item ++ itemsRefs rest

end

/-! ## One action -/

/-- The fields so far, and what was reported. -/
structure Progress where
  fields : List NormalizedField
  diagnostics : List Diagnostic

def Progress.names (s : Progress) : List String := s.fields.map NormalizedField.name

/-- `metadata[key] = value`. -/
def setMeta (key : String) (value : Meta) : List (String × Meta) → List (String × Meta)
  | [] => [(key, value)]
  | e :: rest => if e.1 = key then (key, value) :: rest else e :: setMeta key value rest

def inferredField (name : String) (type : String × Bool) : NormalizedField :=
  ⟨name, type.1, true, type.2, [("inferred", .bool true)]⟩

/-- `{field.name: field for field in fields}`. -/
def byName (fields : List NormalizedField) : Dict String NormalizedField :=
  Dict.empty.setAll (fields.map fun f => (f.name, f))

def projectItem (input : List NormalizedField) (s : Progress) : ProjectItem → Progress
  | .field item =>
      match input.find? fun f => f.name = item with
      | some source => { s with fields := s.fields ++ [source] }
      | none =>
          { fields := s.fields ++
              [⟨item, "unknown", false, true, [("inference_missing", .bool true)]⟩]
            diagnostics := s.diagnostics ++ [missingField host "Projection" item] }
  | .computed name expression =>
      let (type, reported) := host.infer expression input
      if name ∈ s.names then
        { s with diagnostics := s.diagnostics ++ reported ++
            [collision host "Projection produces" name] }
      else
        { fields := s.fields ++ [inferredField name type]
          diagnostics := s.diagnostics ++ reported }

/-- One assignment; the assigned names are in the first component. -/
def assignField (input : List NormalizedField)
    (s : List String × Dict String NormalizedField × List Diagnostic)
    (assignment : String × Json) :
    List String × Dict String NormalizedField × List Diagnostic :=
  let (type, reported) := host.infer assignment.2 input
  -- a name in `next_lineage` but not in `lineage` was assigned by this action
  let repeated := if assignment.1 ∈ s.1 then
    [collision host "Assignments produce" assignment.1] else []
  (assignment.1 :: s.1, s.2.1.set assignment.1 (inferredField assignment.1 type),
    s.2.2 ++ reported ++ repeated)

def renameField (mapping : Dict String String) (s : Progress) (f : NormalizedField) : Progress :=
  let name := (mapping.get? f.name).getD f.name
  if name ∈ s.names then
    { s with diagnostics := s.diagnostics ++ [collision host "Rename produces" name] }
  else { s with fields := s.fields ++ [{ f with name := name }] }

/-- `add_aggregate_field`. -/
def addAggregateField (s : Progress) (name : String) (type : String × Bool) : Progress :=
  if name ∈ s.names then
    { s with diagnostics := s.diagnostics ++ [collision host "Aggregation produces" name] }
  else { s with fields := s.fields ++ [inferredField name type] }

def Progress.report (s : Progress) (reported : List Diagnostic) : Progress :=
  { s with diagnostics := s.diagnostics ++ reported }

/-- The name that a key of a group declares, if it is a text with a character. -/
def declaredName : GroupKey → Option String
  | .field name => some name
  | .computed key =>
      match Json.field? "name" (.obj key) with
      | some (.str name) => nonempty (some name)
      | _ => none

def addGroupKey (input : List NormalizedField) (s : Progress) (key : GroupKey) : Progress :=
  match key with
  | .field name =>
      match (byName input).get? name with
      | none => addAggregateField host (s.report [missingField host "Group key" name]) name
          ("unknown", true)
      | some f => addAggregateField host s name (f.logicalType, f.nullable)
  | .computed fields =>
      match declaredName key with
      | none => s.report
          [unsupported .error "Computed group keys require an output name" []]
      | some name =>
          let (type, reported) :=
            host.infer ((Json.field? "expression" (.obj fields)).getD (.obj fields)) input
          addAggregateField host (s.report reported) name type

/-- `aggregate.get("name")`, or the last part of the callee. -/
def declaredOutput (a : Aggregation) : Option String :=
  match nonempty a.name with
  | some name => some name
  | none => nonempty (a.callee.map lastPart)

/-- The type of an aggregation. -/
def aggregateType (input : List NormalizedField) (name : String) (a : Aggregation) :
    (String × Bool) × List Diagnostic :=
  let callee := (a.callee.map (quoted host)).getD "None"
  let function := a.callee.getD ""
  let refused (message : String) :=
    (("unknown", true), [unsupported .error ("Aggregate " ++ callee ++ message) [name]])
  if function ∈ ["dtcs:count", "dtcs:count_all", "dtcs:count_distinct"] then
    let expected := if function = "dtcs:count_all" then 0 else 1
    if a.args.length = expected then
      (("integer", false), (a.args.take 1).flatMap fun arg => (host.infer arg input).2)
    else refused (" requires " ++ toString expected ++ " argument(s)")
  else if function ∈ ["dtcs:sum", "dtcs:average", "dtcs:min", "dtcs:max"] then
    match a.args with
    | [] => refused " has no qualified type rule"
    | arg :: _ =>
        let ((operand, _), reported) := host.infer arg input
        if function ∈ ["dtcs:sum", "dtcs:average"] ∧
            operand ∉ ["integer", "number", "decimal"] then
          (("unknown", true), reported ++ (refused " requires a numeric operand").2)
        else if function = "dtcs:average" then
          ((if operand = "decimal" then "decimal" else "number", true), reported)
        else ((operand, true), reported)
  else refused " has no qualified type rule"

def addAggregation (input : List NormalizedField) (s : Progress) (a : Aggregation) : Progress :=
  match declaredOutput a with
  | none => s.report [unsupported .error "Aggregation requires a named expression" []]
  | some name =>
      let (type, reported) := aggregateType host input name a
      addAggregateField host (s.report reported) name type

/-- The branch for actions without a rule. -/
def keepFields (s : Progress) (action : String) : Progress where
  fields := s.fields.map fun f => ⟨f.name, "unknown", false, true,
    setMeta "inference_unsupported" (.str action) f.metadata⟩
  diagnostics := s.diagnostics ++ [unsupported .warning
    ("Schema transfer does not support frame action " ++ quoted host action) []]

/-- One step of the loop; the short names of actions are not known to it. -/
def transfer (s : Progress) : FrameAction → Progress
  | .filter predicate => s.report
      (((expressionRefs host predicate).filter (· ∉ s.names)).map
        (missingField host "Filter predicate"))
  | .sort _ => s
  | .limit _ => s
  | .distinct _ => s
  | .dropFields false fields => { s with fields := s.fields.filter fun f => f.name ∉ fields }
  | .dropFields true _ => keepFields host s "dtcs:drop"
  | .renameFields false mapping =>
      s.fields.foldl (renameField host mapping) ⟨[], s.diagnostics⟩
  | .renameFields true _ => keepFields host s "dtcs:rename"
  | .project fields => fields.foldl (projectItem host s.fields) ⟨[], s.diagnostics⟩
  | .withFields assignments =>
      let (_, current, diagnostics) :=
        assignments.foldl (assignField host s.fields) ([], byName s.fields, s.diagnostics)
      ⟨current.entries.map Prod.snd, diagnostics⟩
  | .aggregate groupBy aggregates =>
      aggregates.foldl (addAggregation host s.fields)
        (groupBy.foldl (addGroupKey host s.fields) ⟨[], s.diagnostics⟩)
  | .deduplicate _ => keepFields host s "dtcs:deduplicate"
  | .other action => keepFields host s action

/-! ## All actions -/

/-- The fields in the order of the frame. -/
def orderFields (order : Option (List String)) (fields : List NormalizedField) :
    List NormalizedField :=
  match order with
  | none => fields
  | some order =>
      let present := order.filter fun name => name ∈ fields.map NormalizedField.name
      present.filterMap (byName fields).get? ++ fields.filter fun f => f.name ∉ present

/-- The diagnostics that are kept, each once. -/
def bounded (maxDiagnostics : Int) (diagnostics : List Diagnostic) : List Diagnostic :=
  (FirstOccurrence.firsts (fun d => (d.code, d.path, d.message)) [] diagnostics).take
    (max 1 maxDiagnostics).toNat

/-- The fields and the diagnostics of `forward_schema`. -/
def forwardSchema (maxDiagnostics : Int) (frame : Frame) (input : List NormalizedField) :
    Progress :=
  let s := frame.actions.foldl (transfer host) ⟨input, []⟩
  ⟨orderFields frame.schemaFields s.fields, bounded maxDiagnostics s.diagnostics⟩

/-! ## Names -/

variable (V) in
/-- A schema and rows that have exactly its fields. -/
structure Source where
  schema : List NormalizedField
  rows : List (Dict String V)
  exact_fields : ∀ row ∈ rows, fieldsOf row = (schema.map NormalizedField.name).toFinset

/-- The names that the actions declare. -/
def declared : Reading := ⟨false, declaredName, declaredOutput⟩

/-- The names that are listed twice after an action, given those listed twice before: a
projection lists a name again if it asks for a field by the name of an earlier item. -/
def repeatedAfter (names : Set String) : FrameAction → Set String
  | .project fields =>
      {name | ∃ before after, fields = before ++ .field name :: after ∧
        name ∈ before.map ProjectItem.name}
  | .withFields _ => ∅
  | .renameFields false _ => ∅
  | .aggregate _ _ => ∅
  | .dropFields false fields => {name ∈ names | name ∉ fields}
  | _ => names

/-- The names that are listed twice at the end. -/
def repeated (actions : List FrameAction) (names : Set String) : Set String :=
  actions.foldl repeatedAfter names

/-- No name that is listed twice is left to its place, and the frame orders no field twice. -/
structure WrittenOnce (frame : Frame) (input : List NormalizedField) : Prop where
  repeated_ordered : ∀ name ∈ repeated frame.actions
      {name | 1 < (input.map NormalizedField.name).count name},
    name ∈ frame.schemaFields.getD []
  ordered_once : ∀ name ∈ namesAfter declared frame.actions
      (input.map NormalizedField.name).toFinset,
    (frame.schemaFields.getD []).count name ≤ 1

section Names

variable {V K ε : Type} [DecidableEq K] (E : Engine V K ε)

/-- The actions come to the same fields if computed group keys have the names that they
declare as if they have their texts for names, and if the short names of actions are
understood as if they are not. -/
def SameNaming (frame : Frame) (input : List NormalizedField) : Prop :=
  namesAfter declared frame.actions (input.map NormalizedField.name).toFinset =
    namesAfter (spelled E) frame.actions (input.map NormalizedField.name).toFinset

def NoError (reported : List Diagnostic) : Prop := ∀ d ∈ reported, d.severity ≠ .error

/-- Without a reported error, the names of the fields are distinct, and they are the keys of
every row that the local engine returns. -/
def Agrees (maxDiagnostics : Int) (frame : Frame) (source : Source V) : Prop :=
  let forward := forwardSchema host maxDiagnostics frame source.schema
  NoError forward.diagnostics → forward.names.Nodup ∧
    ∀ out, run E frame.actions source.rows = .ok out →
      ∀ row ∈ out, fieldsOf row = forward.names.toFinset

/-- The run returns a row. -/
def ReturnsRow (frame : Frame) (source : Source V) : Prop :=
  ∃ out, run E frame.actions source.rows = .ok out ∧ out ≠ []

end Names

end Transfer

/-! ## Names added once -/

/-- A name is added at the end unless it is there. -/
def addNew (names : List String) (name : String) : List String :=
  if name ∈ names then names else names ++ [name]

theorem foldl_addNew : ∀ (added : List String) {names : List String}, names.Nodup →
    (added.foldl addNew names).Nodup ∧
      (added.foldl addNew names).toFinset = names.toFinset ∪ added.toFinset
  | [], names, h => ⟨h, (Finset.union_empty _).symm⟩
  | name :: added, names, h => by
      rw [List.foldl_cons]
      by_cases hmem : name ∈ names
      · have hsame : addNew names name = names := if_pos hmem
        rw [hsame]
        obtain ⟨hnodup, hset⟩ := foldl_addNew added h
        refine ⟨hnodup, ?_⟩
        rw [hset, List.toFinset_cons, Finset.union_insert,
          Finset.insert_eq_self.mpr (Finset.mem_union_left _ (List.mem_toFinset.mpr hmem))]
      · have hnew : addNew names name = names ++ [name] := if_neg hmem
        rw [hnew]
        have hmore : (names ++ [name]).Nodup := by
          rw [← List.concat_eq_append]
          exact h.concat hmem
        obtain ⟨hnodup, hset⟩ := foldl_addNew added hmore
        refine ⟨hnodup, ?_⟩
        rw [hset, List.toFinset_append, Finset.union_assoc, ← List.toFinset_append,
          List.singleton_append]

variable {host : TransferHost} {s : Progress} {input fields : List NormalizedField}
  {name : String}

theorem names_renameField (mapping : Dict String String) (f : NormalizedField) :
    (renameField host mapping s f).names =
      addNew s.names ((mapping.get? f.name).getD f.name) := by
  unfold renameField addNew
  split
  · rename_i hmem
    rw [if_pos hmem]
    rfl
  · rename_i hmem
    rw [if_neg hmem]
    unfold Progress.names
    rw [List.map_append]
    rfl

theorem names_renamed (mapping : Dict String String) : ∀ (fields : List NormalizedField)
    (s : Progress), (fields.foldl (renameField host mapping) s).names =
      (fields.map fun f => (mapping.get? f.name).getD f.name).foldl addNew s.names
  | [], _ => rfl
  | f :: fields, s => by
      rw [List.foldl_cons, names_renamed mapping fields, names_renameField]
      rfl

theorem names_addAggregateField (type : String × Bool) :
    (addAggregateField host s name type).names = addNew s.names name := by
  unfold addAggregateField addNew
  by_cases hmem : name ∈ s.names
  · rw [if_pos hmem, if_pos hmem]
    rfl
  · rw [if_neg hmem, if_neg hmem]
    unfold Progress.names
    rw [List.map_append]
    rfl

theorem names_addGroupKey (key : GroupKey) : (addGroupKey host input s key).names =
    (declaredName key).toList.foldl addNew s.names := by
  cases key with
  | field name =>
      simp only [addGroupKey]
      cases (byName input).get? name with
      | none => exact names_addAggregateField _
      | some f => exact names_addAggregateField _
  | computed key =>
      simp only [addGroupKey]
      cases declaredName (.computed key) with
      | none => rfl
      | some name => exact names_addAggregateField _

theorem names_addAggregation (a : Aggregation) : (addAggregation host input s a).names =
    (declaredOutput a).toList.foldl addNew s.names := by
  unfold addAggregation
  cases declaredOutput a with
  | none => rfl
  | some name => exact names_addAggregateField _

/-- A loop whose steps add the names of an option adds the names of all. -/
theorem names_foldl {α : Type} {step : Progress → α → Progress} {declares : α → Option String}
    (h : ∀ s a, (step s a).names = (declares a).toList.foldl addNew s.names) :
    ∀ (items : List α) (s : Progress),
      (items.foldl step s).names = (items.filterMap declares).foldl addNew s.names
  | [], _ => rfl
  | a :: items, s => by
      rw [List.foldl_cons, names_foldl h items, h, List.filterMap_cons]
      cases declares a with
      | none => rfl
      | some name => rfl

/-! ## Dictionaries by name -/

/-- Every field stands under its name. -/
def Keyed (d : Dict String NormalizedField) : Prop := d.All fun k f => f.name = k

theorem keyed_byName (fields : List NormalizedField) : Keyed (byName fields) := by
  intro k f hget
  have hmem := Dict.mem_of_mem_setAll (Dict.mem_entries_iff.mpr hget)
  obtain ⟨g, -, heq⟩ := List.mem_map.mp hmem
  obtain ⟨rfl, rfl⟩ := Prod.mk.inj heq
  rfl

theorem fieldsOf_byName (fields : List NormalizedField) :
    fieldsOf (byName fields) = (fields.map NormalizedField.name).toFinset := by
  unfold byName
  rw [fieldsOf_setAll, fieldsOf_empty, Finset.empty_union, List.map_map]
  rfl

theorem Keyed.names {d : Dict String NormalizedField} (h : Keyed d) :
    (d.entries.map Prod.snd).map NormalizedField.name = d.entries.map Prod.fst := by
  rw [List.map_map]
  refine List.map_congr_left fun e he => ?_
  exact h e.1 e.2 (Dict.mem_entries_iff.mp he)

theorem keyed_assigned (assignments : List (String × Json)) :
    ∀ s : List String × Dict String NormalizedField × List Diagnostic, Keyed s.2.1 →
      Keyed (assignments.foldl (assignField host input) s).2.1 ∧
        fieldsOf (assignments.foldl (assignField host input) s).2.1 =
          fieldsOf s.2.1 ∪ (assignments.map Prod.fst).toFinset := by
  induction assignments with
  | nil =>
      intro s h
      exact ⟨h, (Finset.union_empty _).symm⟩
  | cons a assignments ih =>
      intro s h
      rw [List.foldl_cons]
      have hstep : Keyed (assignField host input s a).2.1 := h.set rfl
      obtain ⟨hkeyed, hfields⟩ := ih _ hstep
      refine ⟨hkeyed, ?_⟩
      rw [hfields, List.map_cons, List.toFinset_cons, Finset.union_insert, ← Finset.insert_union]
      exact congrArg (· ∪ _) (fieldsOf_set _ _ _)

/-! ## Projections -/

theorem names_projectItem (item : ProjectItem) :
    (item = .field item.name ∧
      (projectItem host input s item).names = s.names ++ [item.name]) ∨
      (∃ expression, item = .computed item.name expression) ∧
        (projectItem host input s item).names = addNew s.names item.name := by
  cases item with
  | field item =>
      refine .inl ⟨rfl, ?_⟩
      simp only [projectItem]
      cases hfind : input.find? fun f => f.name = item with
      | none =>
          unfold Progress.names
          rw [List.map_append]
          rfl
      | some source =>
          have hname : source.name = item := by simpa using List.find?_some hfind
          unfold Progress.names
          rw [List.map_append, List.map_singleton, hname]
          rfl
  | computed name expression =>
      refine .inr ⟨⟨expression, rfl⟩, ?_⟩
      unfold projectItem addNew
      show Progress.names (if name ∈ s.names then _ else _) = if name ∈ s.names then _ else _
      by_cases hmem : name ∈ s.names
      · rw [if_pos hmem, if_pos hmem]
        rfl
      · rw [if_neg hmem, if_neg hmem]
        unfold Progress.names
        rw [List.map_append]
        rfl

theorem split_concat {item : ProjectItem} {fields : List ProjectItem} :
    (∃ before after, fields ++ [item] = before ++ .field name :: after ∧
      name ∈ before.map ProjectItem.name) ↔
      (∃ before after, fields = before ++ .field name :: after ∧
        name ∈ before.map ProjectItem.name) ∨
        (item = .field name ∧ name ∈ fields.map ProjectItem.name) := by
  constructor
  · rintro ⟨before, after, heq, hmem⟩
    rcases List.eq_nil_or_concat after with rfl | ⟨front, last, rfl⟩
    · obtain ⟨rfl, hlast⟩ := List.append_inj' heq rfl
      exact .inr ⟨List.head_eq_of_cons_eq hlast, hmem⟩
    · rw [List.concat_eq_append, ← List.cons_append, ← List.append_assoc] at heq
      obtain ⟨rfl, -⟩ := List.append_inj' heq rfl
      exact .inl ⟨before, front, rfl, hmem⟩
  · rintro (⟨before, after, rfl, hmem⟩ | ⟨rfl, hmem⟩)
    · exact ⟨before, after ++ [item], by rw [List.append_assoc, List.cons_append], hmem⟩
    · exact ⟨fields, [], rfl, hmem⟩

theorem count_addNew {names : List String} {added : String} :
    1 < (addNew names added).count name ↔ 1 < names.count name := by
  unfold addNew
  by_cases hmem : added ∈ names
  · rw [if_pos hmem]
  · rw [if_neg hmem, List.count_append, List.count_singleton]
    by_cases hname : added = name
    · have hzero : names.count name = 0 := List.count_eq_zero.mpr (hname ▸ hmem)
      rw [hzero]
      split <;> omega
    · rw [if_neg (by simpa using hname), Nat.add_zero]

theorem mem_addNew {names : List String} {added : String} :
    name ∈ addNew names added ↔ name ∈ names ∨ name = added := by
  unfold addNew
  by_cases hmem : added ∈ names
  · rw [if_pos hmem]
    constructor
    · exact .inl
    · rintro (h | rfl)
      · exact h
      · exact hmem
  · rw [if_neg hmem, List.mem_append, List.mem_singleton]

/-- A projection has the names of its items, and lists a name twice only for an item that
asks for a field by an earlier name. -/
theorem projected_spec (fields : List ProjectItem) (reported : List Diagnostic) :
    (∀ name, name ∈ (fields.foldl (projectItem host input) ⟨[], reported⟩).names ↔
      name ∈ fields.map ProjectItem.name) ∧
    ∀ name, 1 < (fields.foldl (projectItem host input) ⟨[], reported⟩).names.count name ↔
      ∃ before after, fields = before ++ .field name :: after ∧
        name ∈ before.map ProjectItem.name := by
  induction fields using List.reverseRecOn with
  | nil =>
      refine ⟨fun name => Iff.rfl, fun name => ⟨fun h => ?_, ?_⟩⟩
      · exact absurd h (Nat.not_lt_zero _)
      · rintro ⟨before, after, heq, -⟩
        cases before <;> cases heq
  | append_singleton fields item ih =>
      obtain ⟨hnames, hcount⟩ := ih
      rw [List.foldl_append, List.foldl_cons, List.foldl_nil]
      rcases @names_projectItem host _ input item with
        ⟨hitem, happ⟩ | ⟨⟨expression, hitem⟩, hadd⟩
      · constructor
        · intro name
          rw [happ, List.mem_append, hnames, List.map_append, List.mem_append]
          rfl
        · intro name
          rw [happ, split_concat, ← hcount, ← hnames, List.count_append, List.count_singleton]
          by_cases hname : item.name = name
          · have hsame : item = .field name := hname ▸ hitem
            rw [if_pos (beq_iff_eq.mpr hname), ← List.count_pos_iff]
            constructor
            · intro h
              exact .inr ⟨hsame, by omega⟩
            · rintro (h | ⟨-, h⟩) <;> omega
          · rw [if_neg (by simpa using hname), Nat.add_zero]
            refine (or_iff_left ?_).symm
            rintro ⟨rfl, -⟩
            exact hname rfl
      · constructor
        · intro name
          rw [hadd, mem_addNew, hnames, List.map_append, List.mem_append, List.map_singleton,
            List.mem_singleton]
        · intro name
          rw [hadd, count_addNew, split_concat, hcount]
          refine (or_iff_left ?_).symm
          rintro ⟨heq, -⟩
          rw [hitem] at heq
          cases heq

/-! ## One step -/

theorem names_keepFields (action : String) : (keepFields host s action).names = s.names := by
  unfold keepFields Progress.names
  rw [List.map_map]
  rfl

theorem count_of_nodup {names : List String} (h : names.Nodup) : ¬1 < names.count name :=
  Nat.not_lt.mpr (List.nodup_iff_count_le_one.mp h name)

theorem names_dropped (fields : List String) :
    ((s.fields.filter fun f => f.name ∉ fields).map NormalizedField.name) =
      s.names.filter (· ∉ fields) := by
  unfold Progress.names
  rw [List.filter_map]
  rfl

/-- The names after a step are those that the action declares, and the names listed twice
are those that it repeats. -/
theorem transfer_spec (action : FrameAction) :
    (transfer host s action).names.toFinset = action.namesAfter declared s.names.toFinset ∧
      ∀ name, 1 < (transfer host s action).names.count name ↔
        name ∈ repeatedAfter {name | 1 < s.names.count name} action := by
  have hkept : ∀ action : String, (keepFields host s action).names.toFinset = s.names.toFinset ∧
      ∀ name, 1 < (keepFields host s action).names.count name ↔ 1 < s.names.count name := by
    intro action
    rw [names_keepFields]
    exact ⟨rfl, fun _ => Iff.rfl⟩
  cases action with
  | filter predicate => exact ⟨rfl, fun _ => Iff.rfl⟩
  | sort keys => exact ⟨rfl, fun _ => Iff.rfl⟩
  | limit count => exact ⟨rfl, fun _ => Iff.rfl⟩
  | distinct keys => exact ⟨rfl, fun _ => Iff.rfl⟩
  | deduplicate keys => exact hkept _
  | other action => exact hkept _
  | dropFields short fields =>
      cases short with
      | true => exact hkept _
      | false =>
          have hnames : (transfer host s (.dropFields false fields)).names =
              s.names.filter (· ∉ fields) := names_dropped fields
          rw [hnames]
          constructor
          · ext name
            simp [FrameAction.namesAfter]
          · intro name
            show _ ↔ 1 < s.names.count name ∧ name ∉ fields
            by_cases hname : name ∈ fields
            · have hzero : (s.names.filter (· ∉ fields)).count name = 0 := by
                rw [List.count_eq_zero]
                intro hmem
                exact of_decide_eq_true (List.mem_filter.mp hmem).2 hname
              rw [hzero]
              simp [hname]
            · rw [List.count_filter (by simpa using hname)]
              simp [hname]
  | renameFields short mapping =>
      cases short with
      | true => exact hkept _
      | false =>
          have hnames : (transfer host s (.renameFields false mapping)).names =
              (s.fields.map fun f => (mapping.get? f.name).getD f.name).foldl addNew [] :=
            names_renamed mapping s.fields ⟨[], s.diagnostics⟩
          obtain ⟨hnodup, hset⟩ := foldl_addNew
            (s.fields.map fun f => (mapping.get? f.name).getD f.name) List.nodup_nil
          rw [hnames]
          refine ⟨?_, fun name => iff_of_false (count_of_nodup hnodup) id⟩
          rw [hset, List.toFinset_nil, Finset.empty_union]
          ext name
          simp [FrameAction.namesAfter, Progress.names]
  | project fields =>
      obtain ⟨hnames, hcount⟩ := @projected_spec host s.fields fields
        s.diagnostics
      refine ⟨?_, hcount⟩
      ext name
      rw [List.mem_toFinset]
      show _ ↔ name ∈ (fields.map ProjectItem.name).toFinset
      rw [List.mem_toFinset]
      exact hnames name
  | withFields assignments =>
      obtain ⟨hkeyed, hfields⟩ := @keyed_assigned host s.fields assignments
        ([], byName s.fields, s.diagnostics) (keyed_byName s.fields)
      have hnames : (transfer host s (.withFields assignments)).names = _ := hkeyed.names
      rw [hnames]
      refine ⟨?_, fun name => iff_of_false (count_of_nodup (Dict.nodup _)) id⟩
      rw [fieldsOf_byName] at hfields
      exact hfields
  | aggregate groupBy aggregates =>
      have hnames : (transfer host s (.aggregate groupBy aggregates)).names =
          (groupBy.filterMap declaredName ++ aggregates.filterMap declaredOutput).foldl
            addNew [] := by
        have hgroups := names_foldl (fun before key => @names_addGroupKey host
          before s.fields key) groupBy ⟨[], s.diagnostics⟩
        have haggregates := names_foldl (fun before a => @names_addAggregation host
          before s.fields a) aggregates
          (groupBy.foldl (addGroupKey host s.fields) ⟨[], s.diagnostics⟩)
        rw [hgroups, ← List.foldl_append] at haggregates
        exact haggregates
      obtain ⟨hnodup, hset⟩ := foldl_addNew
        (groupBy.filterMap declaredName ++ aggregates.filterMap declaredOutput) List.nodup_nil
      rw [hnames]
      refine ⟨?_, fun name => iff_of_false (count_of_nodup hnodup) id⟩
      rw [hset, List.toFinset_nil, Finset.empty_union, List.toFinset_append]
      rfl

/-! ## All steps -/

/-- The names after the loop. -/
theorem transferred_spec (actions : List FrameAction) : ∀ s : Progress,
    (actions.foldl (transfer host) s).names.toFinset =
      namesAfter declared actions s.names.toFinset ∧
      {name | 1 < (actions.foldl (transfer host) s).names.count name} =
        repeated actions {name | 1 < s.names.count name} := by
  induction actions with
  | nil => exact fun s => ⟨rfl, rfl⟩
  | cons action actions ih =>
      intro s
      obtain ⟨hset, hcount⟩ := @transfer_spec host s action
      obtain ⟨hrest, hrepeated⟩ := ih (transfer host s action)
      rw [List.foldl_cons]
      constructor
      · rw [hrest, hset]
        rfl
      · rw [hrepeated]
        show repeated actions _ = repeated actions (repeatedAfter _ action)
        exact congrArg (repeated actions) (Set.ext hcount)

/-- The names in the order of the frame. -/
theorem names_orderFields (order : List String) (fields : List NormalizedField) :
    (orderFields (some order) fields).map NormalizedField.name =
      order.filter (· ∈ fields.map NormalizedField.name) ++
        (fields.map NormalizedField.name).filter (· ∉ order) := by
  have hpresent : ∀ l : List String, (∀ name ∈ l, name ∈ fields.map NormalizedField.name) →
      (l.filterMap (byName fields).get?).map NormalizedField.name = l := by
    intro l hl
    induction l with
    | nil => rfl
    | cons name l ih =>
        have hin : name ∈ fieldsOf (byName fields) := by
          rw [fieldsOf_byName]
          exact List.mem_toFinset.mpr (hl name List.mem_cons_self)
        obtain ⟨f, hf⟩ := mem_fieldsOf.mp hin
        rw [List.filterMap_cons, hf]
        show f.name :: _ = _
        rw [keyed_byName fields name f hf,
          ih fun other hother => hl other (List.mem_cons_of_mem _ hother)]
  unfold orderFields
  rw [List.map_append, hpresent _ fun name hname => of_decide_eq_true (List.mem_filter.mp hname).2]
  congr 1
  rw [List.filter_map]
  refine congrArg _ (List.filter_congr fun f hf => ?_)
  have hname : f.name ∈ fields.map NormalizedField.name := List.mem_map_of_mem hf
  have hsame : f.name ∈ order.filter (· ∈ fields.map NormalizedField.name) ↔ f.name ∈ order := by
    rw [List.mem_filter, decide_eq_true_eq]
    exact and_iff_left hname
  simp only [Function.comp, hsame]

/-- Ordering the fields keeps their names, and lists none twice if the frame lists no field
twice and every name listed twice is one that the frame orders. -/
theorem orderFields_spec (order : Option (List String)) (fields : List NormalizedField) :
    ((orderFields order fields).map NormalizedField.name).toFinset =
      (fields.map NormalizedField.name).toFinset ∧
      (((orderFields order fields).map NormalizedField.name).Nodup ↔
        (∀ name, 1 < (fields.map NormalizedField.name).count name → name ∈ order.getD []) ∧
          ∀ name ∈ (fields.map NormalizedField.name).toFinset,
            (order.getD []).count name ≤ 1) := by
  cases order with
  | none =>
      refine ⟨rfl, ?_⟩
      show (fields.map NormalizedField.name).Nodup ↔ _
      rw [List.nodup_iff_count_le_one]
      constructor
      · intro h
        exact ⟨fun name hname => absurd (h name) (by omega), fun name _ => Nat.zero_le 1⟩
      · rintro ⟨h, -⟩ name
        by_contra hname
        cases h name (Nat.not_le.mp hname)
  | some order =>
      rw [names_orderFields]
      constructor
      · ext name
        simp only [List.mem_toFinset, List.mem_append, List.mem_filter, decide_eq_true_eq]
        tauto
      · show _ ↔ (∀ name, _ → name ∈ order) ∧ ∀ name ∈ _, order.count name ≤ 1
        rw [List.nodup_append']
        constructor
        · rintro ⟨hordered, hrest, -⟩
          constructor
          · intro name hcount
            by_contra hname
            have hle := List.nodup_iff_count_le_one.mp hrest name
            rw [List.count_filter (by simpa using hname)] at hle
            omega
          · intro name hname
            have hle := List.nodup_iff_count_le_one.mp hordered name
            rwa [List.count_filter (by simpa using List.mem_toFinset.mp hname)] at hle
        · rintro ⟨hrepeated, honce⟩
          refine ⟨?_, ?_, ?_⟩
          · rw [List.nodup_iff_count_le_one]
            intro name
            by_cases hname : name ∈ fields.map NormalizedField.name
            · exact (List.filter_sublist.count_le name).trans
                (honce name (List.mem_toFinset.mpr hname))
            · have habsent : name ∉ order.filter (· ∈ fields.map NormalizedField.name) := by
                intro hmem
                exact hname (of_decide_eq_true (List.mem_filter.mp hmem).2)
              rw [List.count_eq_zero.mpr habsent]
              exact Nat.zero_le 1
          · rw [List.nodup_iff_count_le_one]
            intro name
            by_cases hname : name ∈ order
            · have habsent : name ∉ (fields.map NormalizedField.name).filter (· ∉ order) := by
                intro hmem
                have hnot : name ∉ order := of_decide_eq_true (List.mem_filter.mp hmem).2
                exact hnot hname
              rw [List.count_eq_zero.mpr habsent]
              exact Nat.zero_le 1
            · refine (List.filter_sublist.count_le name).trans ?_
              by_contra hcount
              exact hname (hrepeated name (Nat.not_le.mp hcount))
          · intro name hordered hrest
            exact of_decide_eq_true (List.mem_filter.mp hrest).2 (List.mem_filter.mp hordered).1

/-! ## The schema and the rows -/

section Agreement

variable {V K ε : Type} [DecidableEq K] {E : Engine V K ε} {maxDiagnostics : Int} {frame : Frame}
  {source : Source V}

theorem forward_names : (forwardSchema host maxDiagnostics frame source.schema).names.toFinset =
    namesAfter declared frame.actions (source.schema.map NormalizedField.name).toFinset :=
  (orderFields_spec frame.schemaFields _).1.trans
    (transferred_spec frame.actions ⟨source.schema, []⟩).1

theorem forward_nodup_iff :
    (forwardSchema host maxDiagnostics frame source.schema).names.Nodup ↔
      WrittenOnce frame source.schema := by
  obtain ⟨hset, hrepeated⟩ := @transferred_spec host frame.actions ⟨source.schema, []⟩
  refine (orderFields_spec frame.schemaFields _).2.trans ?_
  have hcount : ∀ name, 1 < ((frame.actions.foldl (transfer host)
      ⟨source.schema, []⟩).fields.map NormalizedField.name).count name ↔
        name ∈ repeated frame.actions
          {name | 1 < (source.schema.map NormalizedField.name).count name} := by
    intro name
    exact Set.ext_iff.mp hrepeated name
  constructor
  · rintro ⟨hordered, honce⟩
    exact ⟨fun name hname => hordered name ((hcount name).mpr hname),
      fun name hname => honce name (hset ▸ hname)⟩
  · rintro ⟨hordered, honce⟩
    exact ⟨fun name hname => hordered name ((hcount name).mp hname),
      fun name hname => honce name (hset ▸ hname)⟩

end Agreement

/-! ## A field that is asked for twice -/

def sampleHost : TransferHost where
  isPrintable := fun _ => false
  text := fun _ => ""
  infer := fun _ _ => (("unknown", true), [])

/-- Cells are texts, and no expression is evaluated. -/
def sampleEngine : Engine String String String where
  null := ""
  isNull := fun value => value = ""
  eval := fun _ _ => .error "unsupported"
  isTrue := fun _ => false
  isNaN := fun _ => false
  order := fun left right => .ok (compare left right)
  repr := id
  hash := .ok
  summary := fun _ _ => .error "unsupported"
  text := fun _ => ""
  isPrintable := fun _ => false
  nanKey := "local sort key values cannot contain NaN"
  unsupported := fun action => "unsupported action: " ++ action

/-- `frame.project("id", "id")`. -/
def twice : Frame := ⟨[.project [.field "id", .field "id"]], some ["id", "id"]⟩

def sampleSource : Source String where
  schema := [⟨"id", "integer", true, false, []⟩]
  rows := [(Dict.empty : Dict String String).set "id" "1"]
  exact_fields := by
    intro row hrow
    rw [List.mem_singleton.mp hrow]
    rfl

end Etlantic.Inference.Transfer
