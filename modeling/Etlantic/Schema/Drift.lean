import Etlantic.Inference.Metadata
import Etlantic.Base.JsonCanonical

/-!
# Schema drift

`diff_normalized_schemas` compares two schemas field by field and folds the impacts of
the changes into one.  A change of the flags is breaking only if it loosens neither of
them, so one that loosens the one and tightens the other is reported as conditionally
compatible.  For all other schemas the report says what a consumer must know.
-/

namespace Etlantic.SchemaDrift

open ControlPlane (PyError)
open Inference (MetadataHost Meta sortedByKey wireIdentity wireValue)

inductive DriftImpact where
  | informational
  | compatible
  | conditionallyCompatible
  | breaking
  | unknown
deriving DecidableEq

/-- What the comparison uses of the interpreter. -/
structure DriftHost extends MetadataHost where
  /-- `text.lower()`. -/
  lower : String → String

structure NormalizedField where
  name : String
  logicalType : String
  required : Bool
  nullable : Bool
  metadata : List (String × Meta)

def NormalizedField.toDict (host : DriftHost) (f : NormalizedField) : Except PyError Json := do
  let metadata ← wireValue host.toMetadataHost none (.map f.metadata)
  return .obj [("name", .str f.name), ("logical_type", .str f.logicalType),
    ("required", .bool f.required), ("nullable", .bool f.nullable), ("metadata", metadata)]

structure NormalizedSchema where
  identity : String
  fields : List NormalizedField

/-- The payload of a fingerprint, without the physical metadata. -/
def NormalizedSchema.payload (host : DriftHost) (s : NormalizedSchema) : Json :=
  .obj [("identity", .str (wireIdentity host.toMetadataHost s.identity)),
    ("fields", .arr ((s.fields.insertionSort fun f g => f.name ≤ g.name).map fun f =>
      .obj [("name", .str f.name), ("logical_type", .str f.logicalType),
        ("required", .bool f.required), ("nullable", .bool f.nullable)]))]

def NormalizedSchema.fingerprint (host : DriftHost) (s : NormalizedSchema) : String :=
  host.sha256 (Json.dumps Json.escapeAscii (s.payload host))

inductive ChangeKind where
  | fieldRemoved
  | fieldAdded
  | typeChanged
  | nullabilityChanged
deriving DecidableEq

structure SchemaChange where
  kind : ChangeKind
  path : String
  previous : Option Json
  current : Option Json
  impact : DriftImpact
  remediation : Option String

structure SchemaChangeSet where
  baselineFingerprint : String
  candidateFingerprint : String
  changes : List SchemaChange
  overallImpact : DriftImpact

/-! ## Logical types -/

/-- The aliases of `_canonicalize_logical_type`. -/
def aliases : List (String × String) :=
  [("int", "integer"), ("int_", "integer"), ("integer", "integer"), ("uint", "integer"),
    ("uint_", "integer"), ("str", "string"), ("str_", "string"), ("string", "string"),
    ("varchar", "string"), ("char", "string"), ("text", "string"), ("bool", "boolean"),
    ("bool_", "boolean"), ("boolean", "boolean"), ("tinyint", "integer"),
    ("smallint", "integer"), ("bigint", "integer"), ("long", "integer"), ("int8", "integer"),
    ("int16", "integer"), ("int32", "integer"), ("int64", "integer"), ("uint8", "integer"),
    ("uint16", "integer"), ("uint32", "integer"), ("uint64", "integer"), ("float", "number"),
    ("float_", "number"), ("number", "number"), ("real", "number"), ("float16", "number"),
    ("float32", "number"), ("float64", "number"), ("double precision", "number"),
    ("decimal", "number"), ("double", "number"), ("timestamp", "datetime"),
    ("datetime", "datetime"), ("date", "date"), ("null", "null"), ("none", "null"),
    ("na", "null"), ("nat", "null"), ("nulltype", "null"), ("nonetype", "null"),
    ("bytes", "binary"), ("bytes_", "binary"), ("bytearray", "binary"),
    ("memoryview", "binary"), ("binary", "binary"), ("dict", "object"), ("object", "object"),
    ("mapping", "object"), ("map", "object"), ("struct", "object"), ("list", "array"),
    ("tuple", "array"), ("array", "array"), ("utf8", "string"), ("largeutf8", "string"),
    ("string_view", "string"), ("binary_view", "binary"), ("stringtype", "string"),
    ("longtype", "integer"), ("integertype", "integer"), ("floattype", "number"),
    ("doubletype", "number"), ("booleantype", "boolean")]

/-- `text.removesuffix(suffix)`. -/
def removeSuffix (suffix text : String) : String :=
  if suffix.toList.isSuffixOf text.toList then
    String.ofList (text.toList.take (text.toList.length - suffix.toList.length))
  else text

/-- `_canonicalize_logical_type`. -/
def canonicalizeLogicalType (host : DriftHost) (name : String) : String :=
  let name := removeSuffix "type" (removeSuffix "type()" (host.lower (strip name)))
  (aliases.lookup name).getD name

/-! ## The comparison -/

/-- `{f.name: f for f in schema.fields}`. -/
def byName (s : NormalizedSchema) : Dict String NormalizedField :=
  Dict.empty.setAll (s.fields.map fun f => (f.name, f))

/-- The fields of `left` that `right` does not have, by name. -/
def missingFields (left right : Dict String NormalizedField) : List NormalizedField :=
  ((sortedByKey left.entries).filter fun e => !right.contains e.1).map Prod.snd

/-- The fields that both have, by name. -/
def commonFields (left right : Dict String NormalizedField) :
    List (NormalizedField × NormalizedField) :=
  (sortedByKey left.entries).filterMap fun e => (right.get? e.1).map fun b => (e.2, b)

def removedChange (host : DriftHost) (a : NormalizedField) : Except PyError SchemaChange := do
  let previous ← a.toDict host
  return {
    kind := .fieldRemoved
    path := a.name
    previous := some previous
    current := none
    impact := .breaking
    remediation := some "Restore the field or update downstream consumers." }

def addedChange (host : DriftHost) (b : NormalizedField) : Except PyError SchemaChange := do
  let current ← b.toDict host
  return {
    kind := .fieldAdded
    path := b.name
    previous := none
    current := some current
    impact := .compatible
    remediation := none }

/-- A change of a field that both schemas have. -/
def fieldChange (host : DriftHost) (kind : ChangeKind) (impact : DriftImpact)
    (a b : NormalizedField) : Except PyError (List SchemaChange) := do
  let previous ← a.toDict host
  let current ← b.toDict host
  return [{
    kind := kind
    path := a.name
    previous := some previous
    current := some current
    impact := impact
    remediation := none }]

def flagsImpact (a b : NormalizedField) : DriftImpact :=
  if (!a.nullable && b.nullable) || (a.required && !b.required) then .conditionallyCompatible
  else .breaking

def commonChange (host : DriftHost) (a b : NormalizedField) : Except PyError (List SchemaChange) :=
  if canonicalizeLogicalType host a.logicalType ≠ canonicalizeLogicalType host b.logicalType then
    fieldChange host .typeChanged .breaking a b
  else if a.nullable ≠ b.nullable ∨ a.required ≠ b.required then
    fieldChange host .nullabilityChanged (flagsImpact a b) a b
  else .ok []

/-- The impacts, worst first. -/
def impactOrder : List DriftImpact :=
  [.breaking, .conditionallyCompatible, .unknown, .compatible, .informational]

def hasImpact (changes : List SchemaChange) (level : DriftImpact) : Bool :=
  changes.any fun c => c.impact = level

/-- `_overall_impact`. -/
def overallImpact (changes : List SchemaChange) : DriftImpact :=
  if changes.isEmpty then .informational
  else (impactOrder.find? (hasImpact changes)).getD .unknown

def diffNormalizedSchemas (host : DriftHost) (baseline candidate : NormalizedSchema) :
    Except PyError SchemaChangeSet := do
  let left := byName baseline
  let right := byName candidate
  let removed ← (missingFields left right).mapM (removedChange host)
  let added ← (missingFields right left).mapM (addedChange host)
  let common ← (commonFields left right).mapM fun fields => commonChange host fields.1 fields.2
  let changes := removed ++ added ++ common.flatten
  return {
    baselineFingerprint := baseline.fingerprint host
    candidateFingerprint := candidate.fingerprint host
    changes := changes
    overallImpact := overallImpact changes }

/-! ## What a consumer must know -/

variable {host : DriftHost} {baseline candidate : NormalizedSchema} {a b : NormalizedField}
  {change : SchemaChange}

def SameType (host : DriftHost) (a b : NormalizedField) : Prop :=
  canonicalizeLogicalType host a.logicalType = canonicalizeLogicalType host b.logicalType

/-- The field stopped being nullable, or became required. -/
def Tightens (a b : NormalizedField) : Prop :=
  (a.nullable = true ∧ b.nullable = false) ∨ (a.required = false ∧ b.required = true)

/-- The field became nullable, or stopped being required. -/
def Loosens (a b : NormalizedField) : Prop :=
  (a.nullable = false ∧ b.nullable = true) ∨ (a.required = true ∧ b.required = false)

structure Unchanged (host : DriftHost) (a b : NormalizedField) : Prop where
  type : SameType host a b
  nullable : a.nullable = b.nullable
  required : a.required = b.required

/-- Some field of the baseline is gone, has another type or is tighter. -/
def Breaks (host : DriftHost) (baseline candidate : NormalizedSchema) : Prop :=
  ∃ a ∈ baseline.fields, (∀ b ∈ candidate.fields, b.name ≠ a.name) ∨
    ∃ b ∈ candidate.fields, b.name = a.name ∧ (¬ SameType host a b ∨ Tightens a b)

/-- Both schemas have the same names, and their fields are unchanged. -/
def Agree (host : DriftHost) (baseline candidate : NormalizedSchema) : Prop :=
  (∀ a ∈ baseline.fields, ∃ b ∈ candidate.fields, b.name = a.name ∧ Unchanged host a b) ∧
    ∀ b ∈ candidate.fields, ∃ a ∈ baseline.fields, a.name = b.name

/-- The comparison reports breaking changes and agreement as they are, and of a change
that loosens and tightens it reports the tightening. -/
def ReportsSeverity (host : DriftHost) (baseline candidate : NormalizedSchema) : Prop :=
  ∃ report, diffNormalizedSchemas host baseline candidate = .ok report ∧
    (report.overallImpact = .breaking ↔ Breaks host baseline candidate) ∧
    (report.changes = [] ↔ Agree host baseline candidate) ∧
    ∀ a ∈ baseline.fields, ∀ b ∈ candidate.fields, b.name = a.name → Loosens a b → Tightens a b →
      ∃ change ∈ report.changes, change.path = a.name ∧ change.impact = .breaking

theorem tightens_or_loosens (h : a.nullable ≠ b.nullable ∨ a.required ≠ b.required) :
    Tightens a b ∨ Loosens a b := by
  unfold Tightens Loosens
  revert h
  cases a.nullable <;> cases b.nullable <;> cases a.required <;> cases b.required <;> simp

theorem flagsImpact_eq : flagsImpact a b = .breaking ↔ ¬ Loosens a b := by
  unfold flagsImpact Loosens
  cases a.nullable <;> cases b.nullable <;> cases a.required <;> cases b.required <;> simp

theorem Tightens.changes (h : Tightens a b) : ¬ Unchanged host a b := by
  intro hsame
  rcases h with ⟨hold, hnew⟩ | ⟨hold, hnew⟩
  · rw [hsame.nullable, hnew] at hold
    cases hold
  · rw [hsame.required, hnew] at hold
    cases hold

/-! ## The fields of two schemas -/

theorem get?_byName (h : (baseline.fields.map NormalizedField.name).Nodup) {name : String} :
    (byName baseline).get? name = some a ↔ a ∈ baseline.fields ∧ a.name = name := by
  have hkeys : ((baseline.fields.map fun f => (f.name, f)).map Prod.fst).Nodup := by
    rw [List.map_map]
    exact h
  unfold byName
  rw [Dict.get?_setAll_empty hkeys, List.mem_map]
  constructor
  · rintro ⟨f, hf, heq⟩
    obtain ⟨rfl, rfl⟩ := Prod.mk.inj heq
    exact ⟨hf, rfl⟩
  · rintro ⟨ha, rfl⟩
    exact ⟨a, ha, rfl⟩

theorem mem_sortedByKey {α : Type} {fields : List (String × α)} {e : String × α} :
    e ∈ sortedByKey fields ↔ e ∈ fields :=
  List.mem_insertionSort _

theorem mem_missingFields (h : (baseline.fields.map NormalizedField.name).Nodup)
    (h' : (candidate.fields.map NormalizedField.name).Nodup) :
    a ∈ missingFields (byName baseline) (byName candidate) ↔
      a ∈ baseline.fields ∧ ∀ b ∈ candidate.fields, b.name ≠ a.name := by
  unfold missingFields
  rw [List.mem_map]
  constructor
  · rintro ⟨⟨name, f⟩, hmem, rfl⟩
    obtain ⟨hin, hnot⟩ := List.mem_filter.mp hmem
    obtain ⟨hf, rfl⟩ := (get?_byName h).mp (Dict.mem_entries_iff.mp (mem_sortedByKey.mp hin))
    refine ⟨hf, fun b hb hname => ?_⟩
    have hcontains : (byName candidate).contains f.name = true :=
      Dict.contains_eq_true.mpr ⟨b, (get?_byName h').mpr ⟨hb, hname⟩⟩
    rw [hcontains] at hnot
    cases hnot
  · rintro ⟨ha, hnone⟩
    refine ⟨(a.name, a), List.mem_filter.mpr ⟨?_, ?_⟩, rfl⟩
    · exact mem_sortedByKey.mpr (Dict.mem_entries_iff.mpr ((get?_byName h).mpr ⟨ha, rfl⟩))
    · rw [Bool.not_eq_true', Dict.contains_eq_false]
      by_contra hsome
      obtain ⟨b, hb⟩ := Option.ne_none_iff_exists'.mp hsome
      obtain ⟨hmem, hname⟩ := (get?_byName h').mp hb
      exact hnone b hmem hname

theorem mem_commonFields (h : (baseline.fields.map NormalizedField.name).Nodup)
    (h' : (candidate.fields.map NormalizedField.name).Nodup) :
    (a, b) ∈ commonFields (byName baseline) (byName candidate) ↔
      a ∈ baseline.fields ∧ b ∈ candidate.fields ∧ b.name = a.name := by
  unfold commonFields
  rw [List.mem_filterMap]
  constructor
  · rintro ⟨⟨name, f⟩, hmem, hpair⟩
    obtain ⟨g, hget, hpair⟩ := Option.map_eq_some_iff.mp hpair
    obtain ⟨rfl, rfl⟩ := Prod.mk.inj hpair
    obtain ⟨ha, hname⟩ := (get?_byName h).mp (Dict.mem_entries_iff.mp (mem_sortedByKey.mp hmem))
    obtain ⟨hb, hname'⟩ := (get?_byName h').mp hget
    exact ⟨ha, hb, hname'.trans hname.symm⟩
  · rintro ⟨ha, hb, hname⟩
    refine ⟨(a.name, a), ?_, ?_⟩
    · exact mem_sortedByKey.mpr (Dict.mem_entries_iff.mpr ((get?_byName h).mpr ⟨ha, rfl⟩))
    · rw [Option.map_eq_some_iff]
      exact ⟨b, (get?_byName h').mpr ⟨hb, hname⟩, rfl⟩

/-! ## One change -/

/-- The metadata of the field are in order. -/
def Documented (host : DriftHost) (f : NormalizedField) : Prop :=
  ∃ document, f.toDict host = .ok document

theorem removedChange_ok (h : removedChange host a = .ok change) :
    Documented host a ∧ change.path = a.name ∧ change.impact = .breaking := by
  obtain ⟨previous, hprevious, h⟩ := Checked.bind_eq_ok.mp h
  obtain rfl := Except.ok.inj h
  exact ⟨⟨previous, hprevious⟩, rfl, rfl⟩

theorem addedChange_ok (h : addedChange host b = .ok change) :
    Documented host b ∧ change.impact = .compatible := by
  obtain ⟨current, hcurrent, h⟩ := Checked.bind_eq_ok.mp h
  obtain rfl := Except.ok.inj h
  exact ⟨⟨current, hcurrent⟩, rfl⟩

theorem fieldChange_ok {kind : ChangeKind} {impact : DriftImpact} {changes : List SchemaChange}
    (h : fieldChange host kind impact a b = .ok changes) :
    (Documented host a ∧ Documented host b) ∧
      ∃ change, changes = [change] ∧ change.path = a.name ∧ change.impact = impact := by
  obtain ⟨previous, hprevious, h⟩ := Checked.bind_eq_ok.mp h
  obtain ⟨current, hcurrent, h⟩ := Checked.bind_eq_ok.mp h
  obtain rfl := Except.ok.inj h
  exact ⟨⟨⟨previous, hprevious⟩, ⟨current, hcurrent⟩⟩, _, rfl, rfl, rfl⟩

/-- A field that both schemas have changes once, and breaks unless it is loosened. -/
theorem commonChange_ok {changes : List SchemaChange} (h : commonChange host a b = .ok changes) :
    (Unchanged host a b ∧ changes = []) ∨
      (¬ Unchanged host a b ∧ (Documented host a ∧ Documented host b) ∧
        ∃ change, changes = [change] ∧ change.path = a.name ∧
          (change.impact = .breaking ↔ ¬ SameType host a b ∨ ¬ Loosens a b)) := by
  unfold commonChange at h
  by_cases htype : canonicalizeLogicalType host a.logicalType =
      canonicalizeLogicalType host b.logicalType
  · rw [if_neg (not_not_intro htype)] at h
    by_cases hflags : a.nullable ≠ b.nullable ∨ a.required ≠ b.required
    · rw [if_pos hflags] at h
      obtain ⟨hdocumented, change, hchange, hpath, himpact⟩ := fieldChange_ok h
      refine .inr ⟨fun hsame => ?_, hdocumented, change, hchange, hpath, ?_⟩
      · rcases hflags with hne | hne
        · exact hne hsame.nullable
        · exact hne hsame.required
      · rw [himpact, flagsImpact_eq]
        exact ⟨.inr, fun h => h.resolve_left (not_not_intro htype)⟩
    · rw [if_neg hflags] at h
      rw [not_or, not_not, not_not] at hflags
      exact .inl ⟨⟨htype, hflags.1, hflags.2⟩, (Except.ok.inj h).symm⟩
  · rw [if_pos htype] at h
    obtain ⟨hdocumented, change, hchange, hpath, himpact⟩ := fieldChange_ok h
    refine .inr ⟨fun hsame => htype hsame.type, hdocumented, change, hchange, hpath, ?_⟩
    rw [himpact]
    exact ⟨fun _ => .inl htype, fun _ => rfl⟩

theorem fieldChange_runs {kind : ChangeKind} {impact : DriftImpact} (ha : Documented host a)
    (hb : Documented host b) : ∃ changes, fieldChange host kind impact a b = .ok changes := by
  obtain ⟨previous, hprevious⟩ := ha
  obtain ⟨current, hcurrent⟩ := hb
  unfold fieldChange
  rw [hprevious, hcurrent]
  exact ⟨_, rfl⟩

theorem commonChange_runs (h : ¬ Unchanged host a b → Documented host a ∧ Documented host b) :
    ∃ changes, commonChange host a b = .ok changes := by
  unfold commonChange
  by_cases htype : canonicalizeLogicalType host a.logicalType =
      canonicalizeLogicalType host b.logicalType
  · rw [if_neg (not_not_intro htype)]
    by_cases hflags : a.nullable ≠ b.nullable ∨ a.required ≠ b.required
    · rw [if_pos hflags]
      obtain ⟨ha, hb⟩ := h fun hsame => hflags.elim (· hsame.nullable) (· hsame.required)
      exact fieldChange_runs ha hb
    · rw [if_neg hflags]
      exact ⟨[], rfl⟩
  · rw [if_pos htype]
    obtain ⟨ha, hb⟩ := h fun hsame => htype hsame.type
    exact fieldChange_runs ha hb

theorem hasImpact_iff {changes : List SchemaChange} {level : DriftImpact} :
    hasImpact changes level = true ↔ ∃ change ∈ changes, change.impact = level := by
  unfold hasImpact
  rw [List.any_eq_true]
  constructor
  · rintro ⟨change, hmem, himpact⟩
    exact ⟨change, hmem, of_decide_eq_true himpact⟩
  · rintro ⟨change, hmem, himpact⟩
    exact ⟨change, hmem, decide_eq_true himpact⟩

/-- One breaking change makes the report breaking. -/
theorem overallImpact_eq_breaking {changes : List SchemaChange} :
    overallImpact changes = .breaking ↔ ∃ change ∈ changes, change.impact = .breaking := by
  rw [← hasImpact_iff]
  unfold overallImpact
  constructor
  · intro h
    by_contra hnone
    split at h
    · cases h
    · unfold impactOrder at h
      rw [List.find?_cons_of_neg hnone] at h
      cases hfound : [DriftImpact.conditionallyCompatible, .unknown, .compatible,
          .informational].find? (hasImpact changes) with
      | none =>
          rw [hfound] at h
          cases h
      | some level =>
          rw [hfound] at h
          have hlevel : level = .breaking := h
          have hmem := List.mem_of_find?_eq_some hfound
          rw [hlevel] at hmem
          revert hmem
          decide
  · intro h
    obtain ⟨change, hmem, -⟩ := hasImpact_iff.mp h
    rw [if_neg (by
      intro hempty
      rw [List.isEmpty_iff.mp hempty] at hmem
      cases hmem)]
    unfold impactOrder
    rw [List.find?_cons_of_pos h]
    rfl

/-! ## The report -/

/-- Every field that a change shows can be shown. -/
structure ChangesDocumented (host : DriftHost) (baseline candidate : NormalizedSchema) : Prop where
  previous : ∀ a ∈ baseline.fields,
    (¬ ∃ b ∈ candidate.fields, b.name = a.name ∧ Unchanged host a b) → Documented host a
  current : ∀ b ∈ candidate.fields,
    (¬ ∃ a ∈ baseline.fields, b.name = a.name ∧ Unchanged host a b) → Documented host b

/-- The changes of a report are those of the missing, the new and the common fields. -/
structure IsReport (host : DriftHost) (baseline candidate : NormalizedSchema)
    (report : SchemaChangeSet) : Prop where
  overall : report.overallImpact = overallImpact report.changes
  change_iff : ∀ change, change ∈ report.changes ↔
    (∃ a ∈ missingFields (byName baseline) (byName candidate), removedChange host a = .ok change) ∨
    (∃ b ∈ missingFields (byName candidate) (byName baseline), addedChange host b = .ok change) ∨
    ∃ a b changes, (a, b) ∈ commonFields (byName baseline) (byName candidate) ∧
      commonChange host a b = .ok changes ∧ change ∈ changes
  removed_ok : ∀ a ∈ missingFields (byName baseline) (byName candidate),
    ∃ change, removedChange host a = .ok change
  added_ok : ∀ b ∈ missingFields (byName candidate) (byName baseline),
    ∃ change, addedChange host b = .ok change
  common_ok : ∀ a b, (a, b) ∈ commonFields (byName baseline) (byName candidate) →
    ∃ changes, commonChange host a b = .ok changes

theorem diff_isReport {report : SchemaChangeSet}
    (h : diffNormalizedSchemas host baseline candidate = .ok report) :
    IsReport host baseline candidate report := by
  obtain ⟨removed, hremoved, h⟩ := Checked.bind_eq_ok.mp h
  obtain ⟨added, hadded, h⟩ := Checked.bind_eq_ok.mp h
  obtain ⟨common, hcommon, h⟩ := Checked.bind_eq_ok.mp h
  obtain rfl := Except.ok.inj h
  refine ⟨rfl, fun change => ?_, fun a ha => ?_, fun b hb => ?_, fun a b hab => ?_⟩
  · show change ∈ removed ++ added ++ common.flatten ↔ _
    rw [List.mem_append, List.mem_append, or_assoc, List.mem_flatten]
    refine or_congr (Checked.mem_mapM_iff hremoved) (or_congr (Checked.mem_mapM_iff hadded) ⟨?_, ?_⟩)
    · rintro ⟨changes, hmem, hchange⟩
      obtain ⟨⟨a, b⟩, hab, hok⟩ := Checked.mem_of_mapM hcommon changes hmem
      exact ⟨a, b, changes, hab, hok, hchange⟩
    · rintro ⟨a, b, changes, hab, hok, hchange⟩
      exact ⟨changes, (Checked.mem_mapM_iff hcommon).mpr ⟨(a, b), hab, hok⟩, hchange⟩
  · obtain ⟨change, -, hchange⟩ := Checked.ok_of_mapM hremoved a ha
    exact ⟨change, hchange⟩
  · obtain ⟨change, -, hchange⟩ := Checked.ok_of_mapM hadded b hb
    exact ⟨change, hchange⟩
  · obtain ⟨changes, -, hchanges⟩ := Checked.ok_of_mapM hcommon (a, b) hab
    exact ⟨changes, hchanges⟩

/-- A schema has one field of a name. -/
theorem field_unique (h : (candidate.fields.map NormalizedField.name).Nodup)
    {b' : NormalizedField} (hb : b ∈ candidate.fields) (hb' : b' ∈ candidate.fields)
    (hname : b.name = b'.name) : b = b' := by
  have hget := (get?_byName h).mpr ⟨hb, hname⟩
  rw [(get?_byName h).mpr ⟨hb', rfl⟩] at hget
  exact (Option.some.inj hget).symm

section Reports

variable (hbaseline : (baseline.fields.map NormalizedField.name).Nodup)
  (hcandidate : (candidate.fields.map NormalizedField.name).Nodup)

include hbaseline hcandidate

theorem documented_of_report {report : SchemaChangeSet}
    (h : IsReport host baseline candidate report) : ChangesDocumented host baseline candidate := by
  refine ⟨fun a ha hnone => ?_, fun b hb hnone => ?_⟩
  · by_cases hmissing : ∀ b ∈ candidate.fields, b.name ≠ a.name
    · obtain ⟨change, hchange⟩ :=
        h.removed_ok a ((mem_missingFields hbaseline hcandidate).mpr ⟨ha, hmissing⟩)
      exact (removedChange_ok hchange).1
    · push Not at hmissing
      obtain ⟨b, hb, hname⟩ := hmissing
      obtain ⟨changes, hchanges⟩ :=
        h.common_ok a b ((mem_commonFields hbaseline hcandidate).mpr ⟨ha, hb, hname⟩)
      rcases commonChange_ok hchanges with ⟨hsame, -⟩ | ⟨-, hdocumented, -⟩
      · exact absurd ⟨b, hb, hname, hsame⟩ hnone
      · exact hdocumented.1
  · by_cases hmissing : ∀ a ∈ baseline.fields, a.name ≠ b.name
    · obtain ⟨change, hchange⟩ :=
        h.added_ok b ((mem_missingFields hcandidate hbaseline).mpr ⟨hb, hmissing⟩)
      exact (addedChange_ok hchange).1
    · push Not at hmissing
      obtain ⟨a, ha, hname⟩ := hmissing
      obtain ⟨changes, hchanges⟩ :=
        h.common_ok a b ((mem_commonFields hbaseline hcandidate).mpr ⟨ha, hb, hname.symm⟩)
      rcases commonChange_ok hchanges with ⟨hsame, -⟩ | ⟨-, hdocumented, -⟩
      · exact absurd ⟨a, ha, hname.symm, hsame⟩ hnone
      · exact hdocumented.2

theorem exists_report (h : ChangesDocumented host baseline candidate) :
    ∃ report, diffNormalizedSchemas host baseline candidate = .ok report := by
  have hremove : ∀ a ∈ missingFields (byName baseline) (byName candidate),
      ∃ change, removedChange host a = .ok change ∧ True := by
    intro a ha
    obtain ⟨ha, hmissing⟩ := (mem_missingFields hbaseline hcandidate).mp ha
    obtain ⟨document, hdocument⟩ := h.previous a ha fun ⟨b, hb, hname, _⟩ => hmissing b hb hname
    unfold removedChange
    rw [hdocument]
    exact ⟨_, rfl, trivial⟩
  obtain ⟨removed, hremoved, -⟩ := Checked.exists_mapM hremove
  have hadd : ∀ b ∈ missingFields (byName candidate) (byName baseline),
      ∃ change, addedChange host b = .ok change ∧ True := by
    intro b hb
    obtain ⟨hb, hmissing⟩ := (mem_missingFields hcandidate hbaseline).mp hb
    obtain ⟨document, hdocument⟩ :=
      h.current b hb fun ⟨a, ha, hname, _⟩ => hmissing a ha hname.symm
    unfold addedChange
    rw [hdocument]
    exact ⟨_, rfl, trivial⟩
  obtain ⟨added, hadded, -⟩ := Checked.exists_mapM hadd
  have hchange : ∀ fields ∈ commonFields (byName baseline) (byName candidate),
      ∃ changes, commonChange host fields.1 fields.2 = .ok changes ∧ True := by
    rintro ⟨a, b⟩ hab
    obtain ⟨ha, hb, hname⟩ := (mem_commonFields hbaseline hcandidate).mp hab
    have hdocumented : ¬ Unchanged host a b → Documented host a ∧ Documented host b := by
      intro hchanged
      refine ⟨h.previous a ha ?_, h.current b hb ?_⟩
      · rintro ⟨b', hb', hname', hsame⟩
        rw [field_unique hcandidate hb hb' (hname.trans hname'.symm)] at hchanged
        exact hchanged hsame
      · rintro ⟨a', ha', hname', hsame⟩
        rw [field_unique hbaseline ha ha' (hname.symm.trans hname')] at hchanged
        exact hchanged hsame
    obtain ⟨changes, hchanges⟩ := commonChange_runs hdocumented
    exact ⟨changes, hchanges, trivial⟩
  obtain ⟨common, hcommon, -⟩ := Checked.exists_mapM hchange
  unfold diffNormalizedSchemas
  simp only [hremoved, hadded, hcommon, Checked.ok_bind]
  exact ⟨_, rfl⟩

/-- What a report says of the change to one common field. -/
theorem common_change {report : SchemaChangeSet} (h : IsReport host baseline candidate report)
    (ha : a ∈ baseline.fields) (hb : b ∈ candidate.fields) (hname : b.name = a.name)
    (hchanged : ¬ Unchanged host a b) :
    ∃ change ∈ report.changes, change.path = a.name ∧
      (change.impact = .breaking ↔ ¬ SameType host a b ∨ ¬ Loosens a b) := by
  have hab := (mem_commonFields hbaseline hcandidate).mpr ⟨ha, hb, hname⟩
  obtain ⟨changes, hchanges⟩ := h.common_ok a b hab
  rcases commonChange_ok hchanges with ⟨hsame, -⟩ | ⟨-, -, change, rfl, hpath, himpact⟩
  · exact absurd hsame hchanged
  · exact ⟨change, (h.change_iff change).mpr
      (.inr (.inr ⟨a, b, _, hab, hchanges, List.mem_singleton_self _⟩)), hpath, himpact⟩

theorem breaking_iff {report : SchemaChangeSet} (h : IsReport host baseline candidate report) :
    report.overallImpact = .breaking ↔
      ∃ a ∈ baseline.fields, (∀ b ∈ candidate.fields, b.name ≠ a.name) ∨
        ∃ b ∈ candidate.fields, b.name = a.name ∧ ¬ Unchanged host a b ∧
          (¬ SameType host a b ∨ ¬ Loosens a b) := by
  rw [h.overall, overallImpact_eq_breaking]
  constructor
  · rintro ⟨change, hmem, himpact⟩
    rcases (h.change_iff change).mp hmem with ⟨a, ha, -⟩ | ⟨b, -, hok⟩ |
      ⟨a, b, changes, hab, hok, hin⟩
    · obtain ⟨ha, hmissing⟩ := (mem_missingFields hbaseline hcandidate).mp ha
      exact ⟨a, ha, .inl hmissing⟩
    · rw [(addedChange_ok hok).2] at himpact
      cases himpact
    · obtain ⟨ha, hb, hname⟩ := (mem_commonFields hbaseline hcandidate).mp hab
      rcases commonChange_ok hok with ⟨-, rfl⟩ | ⟨hchanged, -, change', rfl, -, hbreaking⟩
      · cases hin
      · obtain rfl := List.mem_singleton.mp hin
        exact ⟨a, ha, .inr ⟨b, hb, hname, hchanged, hbreaking.mp himpact⟩⟩
  · rintro ⟨a, ha, hmissing | ⟨b, hb, hname, hchanged, hwhy⟩⟩
    · have hgone := (mem_missingFields hbaseline hcandidate).mpr ⟨ha, hmissing⟩
      obtain ⟨change, hchange⟩ := h.removed_ok a hgone
      exact ⟨change, (h.change_iff change).mpr (.inl ⟨a, hgone, hchange⟩),
        (removedChange_ok hchange).2.2⟩
    · obtain ⟨change, hmem, -, himpact⟩ :=
        common_change hbaseline hcandidate h ha hb hname hchanged
      exact ⟨change, hmem, himpact.mpr hwhy⟩

theorem no_changes_iff {report : SchemaChangeSet} (h : IsReport host baseline candidate report) :
    report.changes = [] ↔ Agree host baseline candidate := by
  constructor
  · intro hempty
    have hnone : ∀ change, change ∉ report.changes := by
      rw [hempty]
      exact fun _ hmem => by cases hmem
    refine ⟨fun a ha => ?_, fun b hb => ?_⟩
    · by_cases hmissing : ∀ b ∈ candidate.fields, b.name ≠ a.name
      · have hgone := (mem_missingFields hbaseline hcandidate).mpr ⟨ha, hmissing⟩
        obtain ⟨change, hchange⟩ := h.removed_ok a hgone
        exact absurd ((h.change_iff change).mpr (.inl ⟨a, hgone, hchange⟩)) (hnone change)
      · push Not at hmissing
        obtain ⟨b, hb, hname⟩ := hmissing
        refine ⟨b, hb, hname, ?_⟩
        by_contra hchanged
        obtain ⟨change, hmem, -⟩ := common_change hbaseline hcandidate h ha hb hname hchanged
        exact hnone change hmem
    · by_contra hmissing
      push Not at hmissing
      have hnew := (mem_missingFields hcandidate hbaseline).mpr ⟨hb, hmissing⟩
      obtain ⟨change, hchange⟩ := h.added_ok b hnew
      exact hnone change ((h.change_iff change).mpr (.inr (.inl ⟨b, hnew, hchange⟩)))
  · rintro ⟨hleft, hright⟩
    rw [List.eq_nil_iff_forall_not_mem]
    intro change hmem
    rcases (h.change_iff change).mp hmem with ⟨a, ha, -⟩ | ⟨b, hb, -⟩ |
      ⟨a, b, changes, hab, hok, hin⟩
    · obtain ⟨ha, hmissing⟩ := (mem_missingFields hbaseline hcandidate).mp ha
      obtain ⟨b, hb, hname, -⟩ := hleft a ha
      exact hmissing b hb hname
    · obtain ⟨hb, hmissing⟩ := (mem_missingFields hcandidate hbaseline).mp hb
      obtain ⟨a, ha, hname⟩ := hright b hb
      exact hmissing a ha hname
    · obtain ⟨ha, hb, hname⟩ := (mem_commonFields hbaseline hcandidate).mp hab
      obtain ⟨b', hb', hname', hsame⟩ := hleft a ha
      rw [field_unique hcandidate hb' hb (hname'.trans hname.symm)] at hsame
      rcases commonChange_ok hok with ⟨-, rfl⟩ | ⟨hchanged, -⟩
      · cases hin
      · exact hchanged hsame

/-- The report of two schemas is right if its fields can be shown and no field of one
type is loosened in one flag and tightened in the other, and only then. -/
theorem reports_severity_iff :
    ReportsSeverity host baseline candidate ↔ ChangesDocumented host baseline candidate ∧
      ∀ a ∈ baseline.fields, ∀ b ∈ candidate.fields, b.name = a.name → SameType host a b →
        ¬ (Loosens a b ∧ Tightens a b) := by
  constructor
  · rintro ⟨report, hreport, -, -, hsevere⟩
    have h := diff_isReport hreport
    refine ⟨documented_of_report hbaseline hcandidate h, ?_⟩
    rintro a ha b hb hname htype ⟨hloose, htight⟩
    obtain ⟨change, hmem, hpath, himpact⟩ := hsevere a ha b hb hname hloose htight
    rcases (h.change_iff change).mp hmem with ⟨a', ha', hok⟩ | ⟨b', -, hok⟩ |
      ⟨a', b', changes, hab, hok, hin⟩
    · obtain ⟨-, hmissing⟩ := (mem_missingFields hbaseline hcandidate).mp ha'
      exact hmissing b hb (hname.trans (hpath.symm.trans (removedChange_ok hok).2.1))
    · rw [(addedChange_ok hok).2] at himpact
      cases himpact
    · obtain ⟨ha', hb', hname'⟩ := (mem_commonFields hbaseline hcandidate).mp hab
      rcases commonChange_ok hok with ⟨-, rfl⟩ | ⟨-, -, change', rfl, hpath', hbreaking⟩
      · cases hin
      · obtain rfl := List.mem_singleton.mp hin
        obtain rfl := field_unique hbaseline ha ha' (hpath.symm.trans hpath')
        obtain rfl := field_unique hcandidate hb hb' (hname.trans hname'.symm)
        exact (hbreaking.mp himpact).elim (· htype) (· hloose)
  · rintro ⟨hdocumented, hnone⟩
    obtain ⟨report, hreport⟩ := exists_report hbaseline hcandidate hdocumented
    have h := diff_isReport hreport
    refine ⟨report, hreport, ?_, no_changes_iff hbaseline hcandidate h, ?_⟩
    · rw [breaking_iff hbaseline hcandidate h]
      refine exists_congr fun a => and_congr_right fun ha => or_congr_right ?_
      refine exists_congr fun b => and_congr_right fun hb => and_congr_right fun hname => ?_
      constructor
      · rintro ⟨hchanged, hother | hloose⟩
        · exact .inl hother
        · by_cases htype : SameType host a b
          · have hflags : a.nullable ≠ b.nullable ∨ a.required ≠ b.required := by
              by_contra hsame
              rw [not_or, not_not, not_not] at hsame
              exact hchanged ⟨htype, hsame.1, hsame.2⟩
            exact .inr ((tightens_or_loosens hflags).resolve_right hloose)
          · exact .inl htype
      · rintro (hother | htight)
        · exact ⟨fun hsame => hother hsame.type, .inl hother⟩
        · refine ⟨htight.changes, ?_⟩
          by_cases htype : SameType host a b
          · exact .inr fun hloose => hnone a ha b hb hname htype ⟨hloose, htight⟩
          · exact .inl htype
    · intro a ha b hb hname hloose htight
      obtain ⟨change, hmem, hpath, himpact⟩ :=
        common_change hbaseline hcandidate h ha hb hname htight.changes
      refine ⟨change, hmem, hpath, himpact.mpr (.inl fun htype => ?_)⟩
      exact hnone a ha b hb hname htype ⟨hloose, htight⟩

end Reports

section Sample

/-- One column, of the given flags. -/
def column (required nullable : Bool) : NormalizedSchema :=
  ⟨"orders", [⟨"note", "string", required, nullable, []⟩]⟩

/-- The payload of such a schema. -/
def columnPayload (required nullable : String) : String :=
  "\x7b\"fields\":[\x7b\"logical_type\":\"string\",\"name\":\"note\",\"nullable\":" ++ nullable ++
    ",\"required\":" ++ required ++ "\x7d],\"identity\":\"orders\"\x7d"

/-- The digests of the payloads below; other texts get one that no text has. -/
def sampleSha256 (text : String) : String :=
  if text = columnPayload "false" "false" then
    "c119599d3ecb9dfbc1967824a81cea051a1d9027711589fc737dfafb200899e1"
  else if text = columnPayload "true" "true" then
    "4dafd2ba89c225bba5a3ffcf3e1ee88dae7384578ab37d41c18ab8c0ba4d43de"
  else if text = columnPayload "true" "false" then
    "e76fddf729658adcbd4c9598a4c85041080aa13ec73a3031327217a740c5f807"
  else String.ofList (List.replicate 64 '0')

def sampleHost : DriftHost where
  casefold c := [c]
  str _ := ""
  quotingModes := []
  sha256 := sampleSha256
  sha256_hex text := by
    unfold sampleSha256
    split
    · decide
    · split
      · decide
      · split <;> decide
  lower text := String.ofList (text.toList.map Char.toLower)

/-- A column that becomes nullable and required is no breaking change. -/
theorem mixed_change_not_breaking :
    ¬ ReportsSeverity sampleHost (column false false) (column true true) := by
  rintro ⟨report, hreport, hbreaking, -⟩
  have hoverall :
      (diffNormalizedSchemas sampleHost (column false false) (column true true)).toOption.map
        SchemaChangeSet.overallImpact = some .conditionallyCompatible := by decide +kernel
  rw [hreport] at hoverall
  have hbreaks : Breaks sampleHost (column false false) (column true true) :=
    ⟨_, List.mem_singleton_self _, .inr ⟨_, List.mem_singleton_self _, rfl, .inr (.inr ⟨rfl, rfl⟩)⟩⟩
  have himpact : report.overallImpact = .conditionallyCompatible := Option.some.inj hoverall
  rw [hbreaking.mpr hbreaks] at himpact
  cases himpact

/-- A column that stops being nullable. -/
theorem reports_severity_tightened :
    ReportsSeverity sampleHost (column true true) (column true false) ↔
      ChangesDocumented sampleHost (column true true) (column true false) ∧
      ∀ a ∈ (column true true).fields, ∀ b ∈ (column true false).fields, b.name = a.name →
        SameType sampleHost a b → ¬ (Loosens a b ∧ Tightens a b) :=
  reports_severity_iff (by decide) (by decide)

end Sample

end Etlantic.SchemaDrift
