import Etlantic.ControlPlane.Redaction
import Etlantic.Inference.Sanitized

/-!
# Compatibility of a write

A `WriteCompatibility` is stored as JSON.  Its casts are a mapping from column names, and it
goes through the metadata boundary on the way out and on the way in; the names of the columns
are keys there.  So a verdict comes back as it was exactly when the boundary has no rule
about the names of its cast columns, and no path among their targets.
-/

namespace Etlantic.Inference

open ControlPlane (PyError Unicode redactMessage)
open Checked

/-! ## Diagnostics -/

/-- What the wire form of inference results uses of its surroundings. -/
structure InferenceHost extends MetadataHost where
  unicode : Unicode

inductive Severity where
  | error
  | warning
  | info
  | hint
deriving DecidableEq

def Severity.value : Severity → String
  | .error => "error"
  | .warning => "warning"
  | .info => "info"
  | .hint => "hint"

/-- `Severity(text.lower())`. -/
def Severity.ofText (text : String) : Option Severity :=
  [Severity.error, .warning, .info, .hint].find? fun severity =>
    severity.value = String.ofList (text.toList.map Char.toLower)

structure Diagnostic where
  code : String
  severity : Severity
  message : String
  path : List String
  phase : Option String
  /-- What `to_dict` writes of the help, the related paths, the source, the actions and the
  metadata. -/
  extra : List (String × Meta)

/-- `Diagnostic.to_dict`. -/
def Diagnostic.toDict (host : InferenceHost) (d : Diagnostic) : List (String × Meta) :=
  [("code", .str d.code), ("severity", .str d.severity.value),
    ("message", .str (redactMessage host.unicode d.message)), ("path", .list (d.path.map .str)),
    ("phase", (d.phase.map Meta.str).getD .none)] ++ d.extra

/-- `_diagnostic_dict`. -/
def diagnosticDict (host : InferenceHost) (d : Diagnostic) : Except PyError Json :=
  wireValue host.toMetadataHost Option.none (.map (d.toDict host))

/-- `bool(value)` of a document. -/
def truthy : Json → Bool
  | .null => false
  | .bool b => b
  | .int n => n ≠ 0
  | .float text => text.toList.any fun c => '1' ≤ c && c ≤ '9'
  | .str text => text ≠ ""
  | .arr items => !items.isEmpty
  | .obj fields => !fields.isEmpty

/-- `iter(value)`; a value that is none raises. -/
def iterate : Json → Option (List Json)
  | .arr items => some items
  | .str text => some (text.toList.map fun c => .str (String.singleton c))
  | .obj fields => some (fields.map fun field => .str field.1)
  | _ => Option.none

/-- `str(value)`. -/
def docText (host : InferenceHost) (value : Json) : String :=
  strOf host.toMetadataHost (ofJson value)

/-- `value.get(key) or default`. -/
def getOr (value : Json) (key : String) (default : Json) : Json :=
  match value.field? key with
  | some found => if truthy found then found else default
  | Option.none => default

def unreadable (message : String) : Diagnostic :=
  ⟨"INFER_UNKNOWN_DIAGNOSTIC", .warning, message, [], some "inference", []⟩

/-- `_diagnostic_from_dict`. -/
def diagnosticFromDict (host : InferenceHost) (value : Json) : Diagnostic :=
  match value with
  | .obj _ =>
      let severity := Severity.ofText (docText host (getOr value "severity" (.str "warning")))
      match severity, iterate ((value.field? "path").getD (.arr [])) with
      | some severity, some path =>
          { code := docText host (getOr value "code" (.str "INFER_UNKNOWN_DIAGNOSTIC"))
            severity := severity
            message := docText host (getOr value "message" (.str "Inference diagnostic"))
            path := path.map (docText host)
            phase := match value.field? "phase" with
              | Option.none => some "inference"
              | some .null => some "inference"
              | some phase => some (docText host phase)
            extra := [] }
      | _, _ => unreadable "Invalid inference diagnostic payload"
  | _ => unreadable "Diagnostic payload was not a mapping"

/-! ## Verdicts -/

/-- A verdict.  The targets `τ` of its casts are texts; one that is read back has whatever
was stored. -/
structure WriteCompatibility (τ : Type) where
  compatible : Bool
  casts : Dict String τ
  incompatibleFields : List String
  diagnostics : List Diagnostic
  obligations : List (List (String × Meta))
  mode : String

/-- `WriteCompatibility.status`. -/
def WriteCompatibility.status {τ : Type} (w : WriteCompatibility τ) : String :=
  if !w.compatible || !w.incompatibleFields.isEmpty then "conflict"
  else if !w.casts.entries.isEmpty || !w.obligations.isEmpty then "conditional"
  else "proven"

section

variable (host : InferenceHost)

/-- `WriteCompatibility.to_dict`. -/
def WriteCompatibility.toDict (w : WriteCompatibility String) : Except PyError Json := do
  let casts ← wireValue host.toMetadataHost (some "casts")
    (.map (w.casts.entries.map fun cast => (cast.1, .str cast.2)))
  let diagnostics ← w.diagnostics.mapM (diagnosticDict host)
  let obligations ← w.obligations.mapM fun obligation =>
    wireValue host.toMetadataHost Option.none (.map obligation)
  return .obj [("version", .int 1), ("status", .str w.status), ("compatible", .bool w.compatible),
    ("casts", casts), ("incompatible_fields", .arr (w.incompatibleFields.map .str)),
    ("diagnostics", .arr diagnostics), ("obligations", .arr obligations), ("mode", .str w.mode)]

/-- `_wire_version`. -/
def wireVersion (payload : Json) (modelName : String) : Except PyError Int :=
  match (payload.field? "version").getD (.int 1) with
  | .int version =>
      if version = 1 then .ok version
      else .error (.valueError ("unsupported " ++ modelName ++ " version: " ++ toString version))
  | _ => .error (.valueError (modelName ++ " version must be an integer"))

/-- The fields of a document that is a `dict`. -/
def dictFields : Json → List (String × Json)
  | .obj fields => fields
  | _ => []

def isDict : Json → Bool
  | .obj _ => true
  | _ => false

def iterated (value : Json) : Except PyError (List Json) :=
  match iterate value with
  | some items => .ok items
  | Option.none => .error (.typeError "object is not iterable")

/-- `WriteCompatibility.from_dict`. -/
def WriteCompatibility.fromDict (payload : Json) : Except PyError (WriteCompatibility Json) := do
  let _ ← wireVersion payload "write compatibility"
  match (payload.field? "compatible").getD (.bool false) with
  | .bool compatible => do
      let casts ← wireMapping host.toMetadataHost (some "casts")
        (ofJson (getOr payload "casts" (.obj [])))
      let incompatible ← iterated ((payload.field? "incompatible_fields").getD (.arr []))
      let diagnostics ← iterated (getOr payload "diagnostics" (.arr []))
      let obligations ← iterated ((payload.field? "obligations").getD (.arr []))
      let obligations ← (obligations.filter isDict).mapM fun item =>
        wireValue host.toMetadataHost Option.none (ofJson item)
      return {
        compatible := compatible
        casts := Dict.empty.setAll casts
        incompatibleFields := incompatible.map (docText host)
        diagnostics := diagnostics.map (diagnosticFromDict host)
        obligations := obligations.map fun item => ofJsonFields (dictFields item)
        mode := docText host ((payload.field? "mode").getD (.str "append")) }
  | _ => .error (.valueError "write compatibility flag must be a boolean")

end

/-! ## Casts under the names of columns -/

/-- The keys with a rule for values that are not texts. -/
def ruledKeys : List String :=
  ["parser_options", "null_policy", "capabilities", "lineage", "lineage_graph"]

/-- The target that is stored for a column, unless the name of the column raises. -/
def castText (host : MetadataHost) (column target : String) : Option String :=
  if normalizedKey host column ∈ revisionKeys then some (fingerprintOf host target)
  else if normalizedKey host column ∈ flagKeys then some "<redacted>"
  else if normalizedKey host column ∈ ruledKeys then Option.none
  else if isPrivateKey host column then some "<redacted>"
  else some (safeText target)

/-- A cast that the boundary leaves alone. -/
def CastKept (host : MetadataHost) (column target : String) : Prop :=
  if normalizedKey host column ∈ revisionKeys then target = fingerprintOf host target
  else if normalizedKey host column ∈ flagKeys then target = "<redacted>"
  else if normalizedKey host column ∈ ruledKeys then False
  else if isPrivateKey host column then target = "<redacted>"
  else looksLikePath target = false

section

variable {host : MetadataHost}

theorem safeText_eq_self {text : String} : safeText text = text ↔ looksLikePath text = false := by
  have hmarker : looksLikePath "<path-redacted>" = false := by decide
  unfold safeText
  constructor
  · intro h
    by_contra hpath
    rw [if_pos (by simpa using hpath)] at h
    rw [← h] at hpath
    exact hpath hmarker
  · intro h
    rw [if_neg (by simp [h])]

theorem safeText_safeText (text : String) : safeText (safeText text) = safeText text := by
  rw [safeText_eq_self]
  by_cases hpath : looksLikePath text = true
  · rw [safeText, if_pos hpath]
    decide
  · rw [safeText, if_neg hpath]
    simpa using hpath

theorem castText_eq_self {column target : String} :
    castText host column target = some target ↔ CastKept host column target := by
  have hsome : ∀ {text : String}, some text = some target ↔ target = text := by
    intro text
    rw [Option.some.injEq]
    exact eq_comm
  unfold castText CastKept
  by_cases hrevision : normalizedKey host column ∈ revisionKeys
  · rw [if_pos hrevision, if_pos hrevision, hsome]
  rw [if_neg hrevision, if_neg hrevision]
  by_cases hflag : normalizedKey host column ∈ flagKeys
  · rw [if_pos hflag, if_pos hflag, hsome]
  rw [if_neg hflag, if_neg hflag]
  by_cases hruled : normalizedKey host column ∈ ruledKeys
  · rw [if_pos hruled, if_pos hruled]
    exact ⟨fun h => (by cases h), fun h => h.elim⟩
  rw [if_neg hruled, if_neg hruled]
  by_cases hprivate : isPrivateKey host column = true
  · rw [if_pos hprivate, if_pos hprivate, hsome]
  · rw [if_neg hprivate, if_neg hprivate, Option.some.injEq, safeText_eq_self]

/-- What the boundary does with a text under a key of a structural mapping. -/
theorem underKey_text (column text : String) :
    (∀ stored, castText host column text = some stored →
      underKey host true column (.str text) = some (.ok (.str stored)) ∨
        underKey host true column (.str text) = Option.none ∧ safeText text = stored) ∧
      (castText host column text = Option.none →
        ∃ error, underKey host true column (.str text) = some (.error error)) := by
  unfold castText underKey
  dsimp only
  by_cases hrevision : normalizedKey host column ∈ revisionKeys
  · rw [if_pos hrevision, if_pos hrevision]
    refine ⟨fun stored h => .inl ?_, fun h => (by cases h)⟩
    rw [← Option.some.inj h]
    rfl
  rw [if_neg hrevision, if_neg hrevision]
  by_cases hflag : normalizedKey host column ∈ flagKeys
  · rw [if_pos hflag, if_pos hflag]
    refine ⟨fun stored h => .inl ?_, fun h => (by cases h)⟩
    rw [← Option.some.inj h]
    rfl
  rw [if_neg hflag, if_neg hflag]
  by_cases hruled : normalizedKey host column ∈ ruledKeys
  · rw [if_pos hruled]
    refine ⟨fun stored h => (by cases h), fun _ => ?_⟩
    simp only [ruledKeys, List.mem_cons, List.not_mem_nil, or_false] at hruled
    rcases hruled with h | h | h | h | h <;> rw [h]
    · exact ⟨_, rfl⟩
    · exact ⟨_, rfl⟩
    · exact ⟨_, rfl⟩
    · exact ⟨_, rfl⟩
    · exact ⟨_, rfl⟩
  rw [if_neg hruled]
  simp only [ruledKeys, List.mem_cons, List.not_mem_nil, or_false, not_or] at hruled
  obtain ⟨hparser, hnull, hcapabilities, hlineage, hgraph⟩ := hruled
  have hlineage' : ¬(decide (normalizedKey host column = "lineage") &&
      !(Meta.str text).isNone) = true := by simp [hlineage]
  have hgraph' : ¬(decide (normalizedKey host column = "lineage_graph") &&
      !(Meta.str text).isNone) = true := by simp [hgraph]
  have hunknown : ¬(decide (normalizedKey host column ∉ safeMetadataKeys) && !true &&
      (Meta.str text).isPlain) = true := by simp
  rw [if_neg hparser, if_neg hnull, if_neg hcapabilities, if_neg hlineage', if_neg hgraph']
  by_cases hprivate : isPrivateKey host column = true
  · rw [if_pos hprivate, if_pos hprivate]
    refine ⟨fun stored h => .inl ?_, fun h => (by cases h)⟩
    rw [← Option.some.inj h]
    rfl
  · rw [if_neg hprivate, if_neg hprivate, if_neg hunknown]
    exact ⟨fun stored h => .inr ⟨rfl, Option.some.inj h⟩, fun h => (by cases h)⟩

theorem cast_stored {column text stored : String} (h : castText host column text = some stored) :
    jsonSafe host true (some column) 1 (.str text) = .ok (.str stored) := by
  rcases (underKey_text column text).1 stored h with hdecided | ⟨hnone, rfl⟩
  · exact jsonSafe_decided hdecided
  · exact jsonSafe_leaf rfl hnone

theorem cast_refused {column text : String} (h : castText host column text = Option.none) :
    ∃ error, jsonSafe host true (some column) 1 (.str text) = .error error := by
  obtain ⟨error, herror⟩ := (underKey_text column text).2 h
  exact ⟨error, jsonSafe_decided herror⟩

theorem isWireFingerprint_fingerprintOf (text : String) :
    isWireFingerprint (fingerprintOf host text) = true := by
  obtain ⟨hlength, hhex⟩ := host.sha256_hex text
  have hlist : (fingerprintOf host text).toList =
      "etlantic-sha256:".toList ++ (host.sha256 text).toList := String.toList_append
  have hdrop : (fingerprintOf host text).toList.drop 16 = (host.sha256 text).toList := by
    rw [hlist]
    exact List.drop_left' rfl
  have hprefixed : hasPrefix "etlantic-sha256:" (fingerprintOf host text) = true := by
    rw [hasPrefix, hlist]
    exact List.isPrefixOf_iff_prefix.mpr (List.prefix_append _ _)
  unfold isWireFingerprint
  rw [hprefixed, hdrop]
  dsimp only
  rw [hlength, hhex]
  rfl

/-- A stored target is what is stored for it. -/
theorem castText_stored {column target stored : String}
    (hrevision : normalizedKey host column ∉ revisionKeys)
    (h : castText host column target = some stored) :
    castText host column stored = some stored := by
  unfold castText at h ⊢
  rw [if_neg hrevision] at h ⊢
  by_cases hflag : normalizedKey host column ∈ flagKeys
  · rw [if_pos hflag] at h ⊢
    exact h
  rw [if_neg hflag] at h ⊢
  by_cases hruled : normalizedKey host column ∈ ruledKeys
  · rw [if_pos hruled] at h
    cases h
  rw [if_neg hruled] at h ⊢
  by_cases hprivate : isPrivateKey host column = true
  · rw [if_pos hprivate] at h ⊢
    exact h
  · rw [if_neg hprivate] at h ⊢
    obtain rfl := Option.some.inj h
    rw [safeText_safeText]

theorem cast_restored {column target stored : String}
    (h : castText host column target = some stored) :
    jsonSafe host true (some column) 1 (restore host (some column) (.str stored)) =
      .ok (.str stored) := by
  by_cases hrevision : normalizedKey host column ∈ revisionKeys
  · have hstored : fingerprintOf host target = stored := by
      unfold castText at h
      rw [if_pos hrevision] at h
      exact Option.some.inj h
    have hrestore : restore host (some column) (.str stored) = .fingerprint stored := by
      have hwire : isWireFingerprint stored = true := by
        rw [← hstored]
        exact isWireFingerprint_fingerprintOf target
      simp only [restore, Option.any_some, hrevision, decide_true, if_true, revisionFromWire, strOf,
        Meta.text?, Option.getD_some, hwire]
    rw [hrestore]
    refine jsonSafe_decided ?_
    unfold decidedBy underKey
    rw [Option.bind_some]
    dsimp only
    rw [if_pos hrevision]
    rfl
  · have hrestore : restore host (some column) (.str stored) = .str stored := by
      simp only [restore, Option.any_some, hrevision, decide_false, Bool.false_eq_true, if_false]
    rw [hrestore]
    exact cast_stored (castText_stored hrevision h)

/-! ## The mapping of casts -/

theorem normalizedKey_casts : normalizedKey host "casts" = "casts" := by rfl

theorem casts_undecided (fields : List (String × Meta)) :
    decidedBy host false (some "casts") (.map fields) = Option.none := by
  have hprivate : isPrivateKey host "casts" = false := by
    have hcompact : compactKey host "casts" = "casts" := by rfl
    unfold isPrivateKey
    rw [hcompact]
    decide
  unfold decidedBy underKey
  rw [Option.bind_some]
  dsimp only
  rw [normalizedKey_casts, hprivate]
  rfl

/-- A mapping of casts passes as its entries do. -/
theorem wireValue_casts {fields : List (String × Meta)} (h : fields.length ≤ 256) :
    wireValue host (some "casts") (.map fields) = (safeEntries host true 1 fields).map dictOf := by
  rw [wireValue, jsonSafe_map (casts_undecided fields), if_neg (by decide),
    if_neg (Nat.not_lt.mpr h)]
  rfl

theorem wireValue_casts_large {fields : List (String × Meta)} (h : 256 < fields.length) :
    wireValue host (some "casts") (.map fields) = .ok (.obj []) := by
  rw [wireValue, jsonSafe_map (casts_undecided fields), if_neg (by decide), if_pos h]

/-- The entries of a mapping under structural keys, when each value passes. -/
theorem safeEntries_spec {fields : List (String × Meta)} {entries : List (String × Json)}
    (hnodup : (fields.map Prod.fst).Nodup)
    (h : safeEntries host true 1 fields = .ok entries) :
    (entries.map Prod.fst).Nodup ∧ entries.length = fields.length ∧
      ∀ column value, (column, value) ∈ entries ↔ ∃ source, (column, source) ∈ fields ∧
        jsonSafe host true (some column) 1 source = .ok value := by
  have hkeys := safeEntries_keys h
  obtain ⟨hlength, hfrom⟩ := safeEntries_eq_ok h
  refine ⟨hkeys.nodup_iff.mpr hnodup, hlength, fun column value => ⟨fun hmem => ?_, ?_⟩⟩
  · obtain ⟨field, hfield, hname, hvalue⟩ := hfrom (column, value) hmem
    obtain rfl : field.1 = column := hname
    exact ⟨field.2, hfield, hvalue⟩
  · rintro ⟨source, hsource, hvalue⟩
    have hcolumn : column ∈ entries.map Prod.fst :=
      hkeys.mem_iff.mpr (List.mem_map_of_mem (f := Prod.fst) hsource)
    obtain ⟨entry, hentry, rfl⟩ := List.mem_map.mp hcolumn
    obtain ⟨field, hfield, hname, hfound⟩ := hfrom entry hentry
    have hsame : field.2 = source := by
      have h1 := Dict.assoc_eq_some_of_mem hnodup hfield
      have h2 := Dict.assoc_eq_some_of_mem hnodup hsource
      rw [hname, h2] at h1
      exact (Option.some.inj h1).symm
    rw [hsame, hvalue] at hfound
    rw [Except.ok.inj hfound]
    exact hentry

/-- The casts of a verdict, as they are handed to the boundary. -/
def castsMeta (casts : Dict String String) : Meta :=
  .map (casts.entries.map fun cast => (cast.1, .str cast.2))

theorem castsMeta_nodup (casts : Dict String String) :
    ((casts.entries.map fun cast => (cast.1, Meta.str cast.2)).map Prod.fst).Nodup := by
  rw [List.map_map]
  exact casts.nodup

theorem mem_castsMeta {casts : Dict String String} {column : String} {source : Meta} :
    (column, source) ∈ (casts.entries.map fun cast => (cast.1, Meta.str cast.2)) ↔
      ∃ target, casts.get? column = some target ∧ source = .str target := by
  constructor
  · intro hmem
    obtain ⟨cast, hcast, heq⟩ := List.mem_map.mp hmem
    obtain ⟨rfl, rfl⟩ := Prod.mk.inj heq
    exact ⟨cast.2, Dict.mem_entries_iff.mp hcast, rfl⟩
  · rintro ⟨target, htarget, rfl⟩
    exact List.mem_map.mpr ⟨(column, target), Dict.mem_entries_iff.mpr htarget, rfl⟩

theorem casts_writable {casts : Dict String String} (hsize : casts.entries.length ≤ 256)
    (h : ∀ column target, casts.get? column = some target →
      ∃ stored, castText host column target = some stored) :
    ∃ doc, wireValue host (some "casts") (castsMeta casts) = .ok doc := by
  have hall : ∀ field ∈ casts.entries.map (fun cast => (cast.1, Meta.str cast.2)),
      ∃ value, jsonSafe host true (some field.1) 1 field.2 = .ok value := by
    intro field hmem
    obtain ⟨target, htarget, hvalue⟩ := mem_castsMeta.mp hmem
    obtain ⟨stored, hstored⟩ := h field.1 target htarget
    exact ⟨.str stored, by rw [hvalue]; exact cast_stored hstored⟩
  obtain ⟨entries, hentries⟩ := safeEntries_ok hall
  refine ⟨dictOf entries, ?_⟩
  rw [castsMeta, wireValue_casts (by rwa [List.length_map]), hentries]
  rfl

/-- What is stored for the casts. -/
theorem casts_written {casts : Dict String String} (hsize : casts.entries.length ≤ 256)
    {doc : Json} (h : wireValue host (some "casts") (castsMeta casts) = .ok doc) :
    ∃ stored : Dict String Json, doc = .obj stored.entries ∧ stored.entries.length ≤ 256 ∧
      (∀ column target, casts.get? column = some target →
        ∃ text, castText host column target = some text ∧
          stored.get? column = some (.str text)) ∧
      ∀ column value, stored.get? column = some value →
        ∃ target text, casts.get? column = some target ∧
          castText host column target = some text ∧ value = .str text := by
  rw [castsMeta, wireValue_casts (by rwa [List.length_map])] at h
  obtain ⟨entries, hentries, rfl⟩ := map_eq_ok h
  obtain ⟨hnodup, hlength, hmem⟩ := safeEntries_spec (castsMeta_nodup casts) hentries
  have hstored : ∀ column value, (Dict.empty.setAll entries).get? column = some value ↔
      ∃ target, casts.get? column = some target ∧
        jsonSafe host true (some column) 1 (.str target) = .ok value := by
    intro column value
    rw [Dict.get?_setAll_empty hnodup, hmem]
    constructor
    · rintro ⟨source, hsource, hvalue⟩
      obtain ⟨target, htarget, rfl⟩ := mem_castsMeta.mp hsource
      exact ⟨target, htarget, hvalue⟩
    · rintro ⟨target, htarget, hvalue⟩
      exact ⟨.str target, mem_castsMeta.mpr ⟨target, htarget, rfl⟩, hvalue⟩
  refine ⟨Dict.empty.setAll entries, rfl, ?_, ?_, ?_⟩
  · refine (Dict.length_setAll entries Dict.empty).trans ?_
    rw [hlength, List.length_map]
    simpa [Dict.empty] using hsize
  · intro column target htarget
    -- every entry passed, so the name of the column raised nothing
    cases htext : castText host column target with
    | some text =>
        exact ⟨text, rfl, (hstored column _).mpr ⟨target, htarget, cast_stored htext⟩⟩
    | none =>
        exfalso
        obtain ⟨error, herror⟩ := cast_refused htext
        have hkey : column ∈ entries.map Prod.fst :=
          (safeEntries_keys hentries).mem_iff.mpr
            (List.mem_map_of_mem (f := Prod.fst) (mem_castsMeta.mpr ⟨target, htarget, rfl⟩))
        obtain ⟨entry, hentry, rfl⟩ := List.mem_map.mp hkey
        obtain ⟨source, hsource, hvalue⟩ := (hmem entry.1 entry.2).mp hentry
        obtain ⟨found, hfound, rfl⟩ := mem_castsMeta.mp hsource
        rw [htarget] at hfound
        rw [← Option.some.inj hfound, herror] at hvalue
        cases hvalue
  · intro column value hget
    obtain ⟨target, htarget, hvalue⟩ := (hstored column value).mp hget
    cases htext : castText host column target with
    | some text =>
        rw [cast_stored htext] at hvalue
        exact ⟨target, text, htarget, htext, (Except.ok.inj hvalue).symm⟩
    | none =>
        obtain ⟨error, herror⟩ := cast_refused htext
        rw [herror] at hvalue
        cases hvalue

/-- What was stored is read back as it is. -/
theorem casts_read {stored : Dict String Json} (hsize : stored.entries.length ≤ 256)
    (h : ∀ column value, stored.get? column = some value →
      ∃ target text, castText host column target = some text ∧ value = .str text) :
    ∃ fields, wireMapping host (some "casts") (ofJson (.obj stored.entries)) = .ok fields ∧
      ∀ column value, (Dict.empty.setAll fields).get? column = some value ↔
        stored.get? column = some value := by
  have hrestore : restore host (some "casts") (ofJson (.obj stored.entries)) =
      .map (stored.entries.map fun entry =>
        (entry.1, restore host (some entry.1) (ofJson entry.2))) := by
    have hfields : ∀ fields : List (String × Json), restoreFields host (ofJsonFields fields) =
        fields.map fun entry => (entry.1, restore host (some entry.1) (ofJson entry.2)) := by
      intro fields
      induction fields with
      | nil => rfl
      | cons entry fields ih => rw [List.map_cons, ← ih]; rfl
    rw [ofJson, restore, Option.any_some, normalizedKey_casts, if_neg (by decide), hfields]
  have hpasses : ∀ entry ∈ stored.entries,
      jsonSafe host true (some entry.1) 1 (restore host (some entry.1) (ofJson entry.2)) =
        .ok entry.2 := by
    intro entry hmem
    obtain ⟨target, text, htext, hvalue⟩ := h entry.1 entry.2 (Dict.mem_entries_iff.mp hmem)
    rw [hvalue]
    exact cast_restored htext
  have hall : ∀ field ∈ stored.entries.map (fun entry =>
      (entry.1, restore host (some entry.1) (ofJson entry.2))),
        ∃ value, jsonSafe host true (some field.1) 1 field.2 = .ok value := by
    intro field hmem
    obtain ⟨entry, hentry, rfl⟩ := List.mem_map.mp hmem
    exact ⟨entry.2, hpasses entry hentry⟩
  obtain ⟨entries, hentries⟩ := safeEntries_ok hall
  have hkeys : ((stored.entries.map fun entry =>
      (entry.1, restore host (some entry.1) (ofJson entry.2))).map Prod.fst).Nodup := by
    rw [List.map_map]
    exact stored.nodup
  obtain ⟨hnodup, -, hmem⟩ := safeEntries_spec hkeys hentries
  refine ⟨(Dict.empty.setAll entries).entries, ?_, ?_⟩
  · rw [wireMapping, hrestore, wireValue_casts (by rwa [List.length_map]), hentries]
    rfl
  · intro column value
    rw [Dict.get?_setAll_empty (Dict.empty.setAll entries).nodup, Dict.mem_entries_iff,
      Dict.get?_setAll_empty hnodup, hmem]
    constructor
    · rintro ⟨source, hsource, hvalue⟩
      obtain ⟨entry, hentry, heq⟩ := List.mem_map.mp hsource
      obtain ⟨rfl, rfl⟩ := Prod.mk.inj heq
      rw [hpasses entry hentry] at hvalue
      rw [← Except.ok.inj hvalue]
      exact Dict.mem_entries_iff.mp hentry
    · intro hget
      have hentry := Dict.mem_entries_iff.mpr hget
      exact ⟨_, List.mem_map.mpr ⟨(column, value), hentry, rfl⟩, hpasses _ hentry⟩

end

/-! ## Verdicts that come back -/

section

variable {host : InferenceHost} {layout : Json.Layout}

/-- The document of a verdict. -/
def verdictDoc (w : WriteCompatibility String) (casts : Json) (diagnostics obligations : List Json) :
    Json :=
  .obj [("version", .int 1), ("status", .str w.status), ("compatible", .bool w.compatible),
    ("casts", casts), ("incompatible_fields", .arr (w.incompatibleFields.map .str)),
    ("diagnostics", .arr diagnostics), ("obligations", .arr obligations), ("mode", .str w.mode)]

theorem toDict_eq_ok {w : WriteCompatibility String} {doc : Json} :
    w.toDict host = .ok doc ↔ ∃ casts diagnostics obligations,
      wireValue host.toMetadataHost (some "casts") (castsMeta w.casts) = .ok casts ∧
        w.diagnostics.mapM (diagnosticDict host) = .ok diagnostics ∧
          w.obligations.mapM (fun obligation =>
            wireValue host.toMetadataHost Option.none (.map obligation)) = .ok obligations ∧
              doc = verdictDoc w casts diagnostics obligations := by
  constructor
  · intro h
    obtain ⟨casts, hcasts, hrest⟩ := bind_eq_ok.mp h
    obtain ⟨diagnostics, hdiagnostics, hrest⟩ := bind_eq_ok.mp hrest
    obtain ⟨obligations, hobligations, hrest⟩ := bind_eq_ok.mp hrest
    exact ⟨casts, diagnostics, obligations, hcasts, hdiagnostics, hobligations,
      (Except.ok.inj hrest).symm⟩
  · rintro ⟨casts, diagnostics, obligations, hcasts, hdiagnostics, hobligations, rfl⟩
    unfold castsMeta at hcasts
    unfold WriteCompatibility.toDict
    rw [hcasts, ok_bind, hdiagnostics, ok_bind, hobligations, ok_bind]
    rfl

theorem verdictDoc_wellFormed {w : WriteCompatibility String} {casts : Json}
    {diagnostics obligations : List Json}
    (hcasts : wireValue host.toMetadataHost (some "casts") (castsMeta w.casts) = .ok casts)
    (hdiagnostics : w.diagnostics.mapM (diagnosticDict host) = .ok diagnostics)
    (hobligations : w.obligations.mapM (fun obligation =>
      wireValue host.toMetadataHost Option.none (.map obligation)) = .ok obligations) :
    Json.WellFormed (verdictDoc w casts diagnostics obligations) := by
  have hdocs : ∀ {α : Type} {f : α → Meta} {xs : List α} {docs : List Json},
      xs.mapM (fun x => wireValue host.toMetadataHost Option.none (f x)) = .ok docs →
        Json.ItemsWellFormed docs := by
    intro α f xs docs h
    refine Json.itemsWellFormed_iff.mpr fun doc hmem => ?_
    obtain ⟨x, -, hx⟩ := mem_of_mapM h doc hmem
    exact isWritten _ _ _ _ _ _ hx
  refine ⟨by simp, trivial, trivial, trivial, isWritten _ _ _ _ _ _ hcasts,
    texts_wellFormed w.incompatibleFields, ?_, hdocs hobligations, trivial, trivial⟩
  exact hdocs (f := fun d => .map (Diagnostic.toDict host d)) hdiagnostics

theorem getOr_obj {doc : Json} {key : String} {fields : List (String × Json)}
    (h : doc.field? key = some (.obj fields)) : getOr doc key (.obj []) = .obj fields := by
  unfold getOr
  rw [h]
  cases fields with
  | nil => rfl
  | cons field fields => rfl

theorem getOr_arr {doc : Json} {key : String} {items : List Json}
    (h : doc.field? key = some (.arr items)) : getOr doc key (.arr []) = .arr items := by
  unfold getOr
  rw [h]
  cases items with
  | nil => rfl
  | cons item items => rfl

/-- A mapping passes as a mapping when no key stands above it. -/
theorem wireValue_map_isDict {fields : List (String × Meta)} {doc : Json}
    (h : wireValue host.toMetadataHost Option.none (.map fields) = .ok doc) : isDict doc = true := by
  rw [wireValue, jsonSafe_map rfl, if_neg (by decide)] at h
  split at h
  · obtain rfl := Except.ok.inj h
    rfl
  · obtain ⟨entries, -, rfl⟩ := map_eq_ok h
    rfl

/-- Reading the document of a verdict: the casts and the obligations go through the boundary
once more. -/
theorem fromDict_verdictDoc {w : WriteCompatibility String} {fields : List (String × Json)}
    {diagnostics obligations : List Json} (hdicts : ∀ item ∈ obligations, isDict item = true) :
    WriteCompatibility.fromDict host (verdictDoc w (.obj fields) diagnostics obligations) = (do
      let casts ← wireMapping host.toMetadataHost (some "casts") (ofJson (.obj fields))
      let again ← obligations.mapM fun item =>
        wireValue host.toMetadataHost Option.none (ofJson item)
      return WriteCompatibility.mk w.compatible (Dict.empty.setAll casts) w.incompatibleFields
        (diagnostics.map (diagnosticFromDict host))
        (again.map fun item => ofJsonFields (dictFields item)) w.mode) := by
  have hcasts : getOr (verdictDoc w (.obj fields) diagnostics obligations) "casts" (.obj []) =
      .obj fields := getOr_obj rfl
  have hreports : getOr (verdictDoc w (.obj fields) diagnostics obligations) "diagnostics"
      (.arr []) = .arr diagnostics := getOr_arr rfl
  have hfilter : obligations.filter isDict = obligations := List.filter_eq_self.mpr hdicts
  have hnames : (w.incompatibleFields.map Json.str).map (docText host) =
      w.incompatibleFields := by
    rw [List.map_map]
    exact List.map_id' _
  have hiterated : ∀ items : List Json, iterated (.arr items) = .ok items := fun _ => rfl
  unfold WriteCompatibility.fromDict
  rw [show wireVersion (verdictDoc w (.obj fields) diagnostics obligations) "write compatibility" =
      .ok 1 from rfl, ok_bind, hcasts, hreports,
    show (verdictDoc w (.obj fields) diagnostics obligations).field? "compatible" =
      some (.bool w.compatible) from rfl,
    show (verdictDoc w (.obj fields) diagnostics obligations).field? "incompatible_fields" =
      some (.arr (w.incompatibleFields.map .str)) from rfl,
    show (verdictDoc w (.obj fields) diagnostics obligations).field? "obligations" =
      some (.arr obligations) from rfl]
  simp only [Option.getD_some, hiterated, ok_bind, hfilter, hnames]
  rfl

/-- The restored verdict says what the verdict said. -/
structure SameVerdict (w : WriteCompatibility String) (restored : WriteCompatibility Json) :
    Prop where
  compatible : restored.compatible = w.compatible
  casts : ∀ column, restored.casts.get? column = (w.casts.get? column).map .str
  incompatibleFields : restored.incompatibleFields = w.incompatibleFields
  mode : restored.mode = w.mode
  status : restored.status = w.status

/-- The verdict survives being written as JSON and read back. -/
def ComesBack (host : InferenceHost) (layout : Json.Layout) (w : WriteCompatibility String) :
    Prop :=
  ∃ doc payload restored, w.toDict host = .ok doc ∧
    Json.loads (Json.encode Json.escapeAscii layout 0 doc) = some payload ∧
      WriteCompatibility.fromDict host payload = .ok restored ∧ SameVerdict w restored

/-- The metadata rules refuse neither the obligation nor what they make of it. -/
def Taken (host : MetadataHost) (fields : List (String × Meta)) : Prop :=
  ∃ doc, wireValue host Option.none (.map fields) = .ok doc ∧
    ∃ again, wireValue host Option.none (ofJson doc) = .ok again

/-- What the boundary does not touch. -/
structure Untouched (host : InferenceHost) (w : WriteCompatibility String) : Prop where
  size : w.casts.entries.length ≤ 256
  casts : ∀ column target, w.casts.get? column = some target →
    CastKept host.toMetadataHost column target
  diagnostics : ∀ d ∈ w.diagnostics, ∃ doc, diagnosticDict host d = .ok doc
  obligations : ∀ obligation ∈ w.obligations, Taken host.toMetadataHost obligation

theorem isEmpty_entries_eq {α β : Type} {d : Dict String α} {d' : Dict String β} {f : α → β}
    (h : ∀ key, d'.get? key = (d.get? key).map f) :
    d'.entries.isEmpty = d.entries.isEmpty := by
  have hempty : ∀ {γ : Type} {dict : Dict String γ}, dict.entries.isEmpty = true ↔
      ∀ key, dict.get? key = Option.none := by
    intro γ dict
    rw [List.isEmpty_iff]
    constructor
    · intro hnil key
      rw [Dict.get?, hnil]
      rfl
    · intro hnone
      refine List.eq_nil_iff_forall_not_mem.mpr fun entry hmem => ?_
      have hget := Dict.mem_entries_iff.mp (show (entry.1, entry.2) ∈ dict.entries from hmem)
      rw [hnone] at hget
      cases hget
  rw [Bool.eq_iff_iff, hempty, hempty]
  exact forall_congr' fun key => by rw [h key, Option.map_eq_none_iff]

theorem casts_doc {casts : Dict String String} {doc : Json}
    (h : wireValue host.toMetadataHost (some "casts") (castsMeta casts) = .ok doc) :
    ∃ fields, doc = .obj fields := by
  by_cases hsize : casts.entries.length ≤ 256
  · obtain ⟨stored, rfl, -⟩ := casts_written hsize h
    exact ⟨_, rfl⟩
  · rw [castsMeta, wireValue_casts_large (by rw [List.length_map]; omega)] at h
    exact ⟨[], (Except.ok.inj h).symm⟩

/-- More casts than the boundary lets through are lost. -/
theorem casts_size {casts : Dict String String} {fields : List (String × Json)}
    {read : List (String × Json)}
    (h : wireValue host.toMetadataHost (some "casts") (castsMeta casts) = .ok (.obj fields))
    (hread : wireMapping host.toMetadataHost (some "casts") (ofJson (.obj fields)) = .ok read)
    (hsame : ∀ column, (Dict.empty.setAll read).get? column = (casts.get? column).map .str) :
    casts.entries.length ≤ 256 := by
  by_contra hsize
  have hlarge : 256 < (casts.entries.map fun cast => (cast.1, Meta.str cast.2)).length := by
    rw [List.length_map]
    omega
  rw [castsMeta, wireValue_casts_large hlarge] at h
  obtain rfl := Json.obj.inj (Except.ok.inj h)
  have hnone : ∀ column value, (Dict.empty : Dict String Json).get? column = some value →
      ∃ target text, castText host.toMetadataHost column target = some text ∧
        value = .str text := by
    intro column value hget
    cases hget
  obtain ⟨read', hread', hempty⟩ := casts_read (Nat.zero_le _) hnone
  have heq : read = read' := Except.ok.inj (hread.symm.trans hread')
  cases hentries : casts.entries with
  | nil =>
      rw [hentries] at hsize
      exact hsize (Nat.zero_le _)
  | cons cast rest =>
      have hget : casts.get? cast.1 = some cast.2 :=
        Dict.mem_entries_iff.mp (hentries ▸ List.mem_cons_self)
      have hfound := hsame cast.1
      rw [hget, Option.map_some, heq, hempty] at hfound
      cases hfound

theorem untouched_of_comesBack {w : WriteCompatibility String} (h : ComesBack host layout w) :
    Untouched host w := by
  obtain ⟨doc, payload, restored, hdoc, hpayload, hrestored, hsame⟩ := h
  obtain ⟨castsDoc, diagnostics, obligations, hcasts, hdiagnostics, hobligations, rfl⟩ :=
    toDict_eq_ok.mp hdoc
  have hwell := verdictDoc_wellFormed hcasts hdiagnostics hobligations
  rw [Json.loads_encode Json.escapeAscii_readable hwell] at hpayload
  obtain rfl := Option.some.inj hpayload
  obtain ⟨fields, rfl⟩ := casts_doc hcasts
  have hdicts : ∀ item ∈ obligations, isDict item = true := by
    intro item hmem
    obtain ⟨obligation, -, hobligation⟩ := mem_of_mapM hobligations item hmem
    exact wireValue_map_isDict hobligation
  rw [fromDict_verdictDoc hdicts] at hrestored
  obtain ⟨read, hread, hrest⟩ := bind_eq_ok.mp hrestored
  obtain ⟨again, hagain, hresult⟩ := bind_eq_ok.mp hrest
  obtain rfl := Except.ok.inj hresult
  have hsize := casts_size hcasts hread hsame.casts
  refine ⟨hsize, ?_, ?_, ?_⟩
  · intro column target htarget
    obtain ⟨stored, hstored, hstoredSize, hevery, hfrom⟩ := casts_written hsize hcasts
    obtain rfl := Json.obj.inj hstored
    obtain ⟨text, htext, hget⟩ := hevery column target htarget
    obtain ⟨read', hread', hlookup⟩ := casts_read hstoredSize fun column value hget => by
      obtain ⟨target, text, -, htext, hvalue⟩ := hfrom column value hget
      exact ⟨target, text, htext, hvalue⟩
    obtain rfl : read = read' := Except.ok.inj (hread.symm.trans hread')
    have hback := hsame.casts column
    rw [htarget, Option.map_some] at hback
    have hsome := (hlookup column (.str text)).mpr hget
    rw [show (Dict.empty.setAll read).get? column = some (.str target) from hback] at hsome
    obtain rfl : target = text := Json.str.inj (Option.some.inj hsome)
    exact castText_eq_self.mp htext
  · intro d hmem
    obtain ⟨doc, -, hdoc⟩ := ok_of_mapM hdiagnostics d hmem
    exact ⟨doc, hdoc⟩
  · intro obligation hmem
    obtain ⟨doc, hwritten, hdoc⟩ := ok_of_mapM hobligations obligation hmem
    obtain ⟨taken, -, htaken⟩ := ok_of_mapM hagain doc hwritten
    exact ⟨doc, hdoc, taken, htaken⟩

theorem comesBack_of_untouched {w : WriteCompatibility String} (h : Untouched host w) :
    ComesBack host layout w := by
  have htexts : ∀ column target, w.casts.get? column = some target →
      castText host.toMetadataHost column target = some target := fun column target hget =>
    castText_eq_self.mpr (h.casts column target hget)
  obtain ⟨castsDoc, hcasts⟩ := casts_writable h.size fun column target hget =>
    ⟨target, htexts column target hget⟩
  obtain ⟨stored, rfl, hstoredSize, hevery, hfrom⟩ := casts_written h.size hcasts
  obtain ⟨read, hread, hlookup⟩ := casts_read hstoredSize fun column value hget => by
    obtain ⟨target, text, -, htext, hvalue⟩ := hfrom column value hget
    exact ⟨target, text, htext, hvalue⟩
  obtain ⟨diagnostics, hdiagnostics, -⟩ := exists_mapM (R := fun _ _ => True)
    fun d hmem => by
      obtain ⟨doc, hdoc⟩ := h.diagnostics d hmem
      exact ⟨doc, hdoc, trivial⟩
  obtain ⟨obligations, hobligations, -⟩ := exists_mapM (R := fun _ _ => True)
    fun obligation hmem => by
      obtain ⟨doc, hdoc, -⟩ := h.obligations obligation hmem
      exact ⟨doc, hdoc, trivial⟩
  have hdicts : ∀ item ∈ obligations, isDict item = true := by
    intro item hmem
    obtain ⟨obligation, -, hobligation⟩ := mem_of_mapM hobligations item hmem
    exact wireValue_map_isDict hobligation
  have htaken : ∀ item ∈ obligations, ∃ again,
      wireValue host.toMetadataHost Option.none (ofJson item) = .ok again ∧ True := by
    intro item hmem
    obtain ⟨obligation, hsource, hobligation⟩ := mem_of_mapM hobligations item hmem
    obtain ⟨doc, hdoc, again, hagain⟩ := h.obligations obligation hsource
    obtain rfl := Except.ok.inj (hdoc.symm.trans hobligation)
    exact ⟨again, hagain, trivial⟩
  obtain ⟨again, hagain, hlength⟩ := exists_mapM htaken
  have hwell := verdictDoc_wellFormed hcasts hdiagnostics hobligations
  have hsame : ∀ column, (Dict.empty.setAll read).get? column =
      (w.casts.get? column).map .str := by
    intro column
    refine Option.ext fun value => ?_
    rw [hlookup, Option.map_eq_some_iff]
    constructor
    · intro hget
      obtain ⟨target, text, htarget, htext, rfl⟩ := hfrom column value hget
      rw [htexts column target htarget] at htext
      obtain rfl := Option.some.inj htext
      exact ⟨target, htarget, rfl⟩
    · rintro ⟨target, htarget, rfl⟩
      obtain ⟨text, htext, hget⟩ := hevery column target htarget
      rw [htexts column target htarget] at htext
      obtain rfl := Option.some.inj htext
      exact hget
  have hcount : again.length = w.obligations.length := by
    rw [← hlength.length_eq, ← (forall₂_of_mapM hobligations).length_eq]
  have hrestored : WriteCompatibility.fromDict host
      (verdictDoc w (.obj stored.entries) diagnostics obligations) =
        .ok ⟨w.compatible, Dict.empty.setAll read, w.incompatibleFields,
          diagnostics.map (diagnosticFromDict host),
          again.map fun item => ofJsonFields (dictFields item), w.mode⟩ := by
    rw [fromDict_verdictDoc hdicts, hread, ok_bind, hagain]
    rfl
  refine ⟨_, _, _, toDict_eq_ok.mpr ⟨_, _, _, hcasts, hdiagnostics, hobligations, rfl⟩,
    Json.loads_encode Json.escapeAscii_readable hwell, hrestored, rfl, hsame, rfl, rfl, ?_⟩
  have hempty : (again.map fun item => ofJsonFields (dictFields item)).isEmpty =
      w.obligations.isEmpty := by
    rw [List.isEmpty_map, Bool.eq_iff_iff, List.isEmpty_iff_length_eq_zero,
      List.isEmpty_iff_length_eq_zero, hcount]
  unfold WriteCompatibility.status
  dsimp only
  rw [isEmpty_entries_eq hsame, hempty]

/-- A verdict comes back as it was exactly when the metadata boundary leaves its casts
alone and takes the rest. -/
theorem verdict_comes_back_iff (host : InferenceHost) (layout : Json.Layout)
    (w : WriteCompatibility String) : ComesBack host layout w ↔ Untouched host w :=
  ⟨untouched_of_comesBack, comesBack_of_untouched⟩

def sampleHost : InferenceHost where
  casefold c := [c]
  str _ := ""
  quotingModes := [0, 1, 2, 3]
  sha256 _ := String.ofList (List.replicate 64 '0')
  sha256_hex _ := by rw [String.toList_ofList]; decide
  unicode := ⟨Char.isAlphanum, Char.isLower, Char.isDigit⟩

/-- The verdict for one column that needs a cast. -/
def castingVerdict (column target : String) : WriteCompatibility String where
  compatible := true
  casts := Dict.empty.set column target
  incompatibleFields := []
  diagnostics := []
  obligations := []
  mode := "append"

/-- A table whose column is called `token` does not come back. -/
theorem token_column_lost :
    ∃ host layout w, ¬ ComesBack host layout w := by
  refine ⟨sampleHost, .inline, castingVerdict "token" "number", fun hback => ?_⟩
  have hkept := (untouched_of_comesBack hback).casts "token" "number" rfl
  have hsame : castText sampleHost.toMetadataHost "token" "number" = some "number" :=
    castText_eq_self.mpr hkept
  exact absurd hsame (by decide)

end

end Etlantic.Inference
