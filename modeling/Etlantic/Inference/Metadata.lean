import Etlantic.Base.Checked
import Etlantic.Base.Dict
import Etlantic.Base.JsonText
import Etlantic.Base.Regex
import Etlantic.ControlPlane.Models

/-!
# The metadata boundary of schema inference

`_json_safe` turns provider metadata into JSON.  What it does with a value depends on the
name of the key the value stands under: revisions are hashed, control keys are checked by
rules of their own, keys that look like secrets or rows are redacted, and so is a plain value
under a key that is not on the list of control keys.
-/

namespace Etlantic.Inference

open ControlPlane (PyError)
open Regex

/-! ## Values -/

/-- A finite float, by its `repr`. -/
abbrev Numeral : Type := { text : String // Json.isFloatNumeral text.toList = true }

/-- A value of provider metadata.  A set is kept as its items in the order of their `repr`. -/
inductive Meta where
  | none
  | bool (b : Bool)
  | int (n : Int)
  | float (numeral : Numeral)
  | nonFinite
  | str (text : String)
  /-- `_RevisionFingerprint`, a text that is known to be a fingerprint. -/
  | fingerprint (text : String)
  /-- A date or a datetime, by its `isoformat()`. -/
  | stamp (text : String)
  | bytes (length : Nat)
  | list (items : List Meta)
  | set (items : List Meta)
  | map (fields : List (String × Meta))
  | other (typeName : String)

/-- What the boundary uses of the interpreter. -/
structure MetadataHost where
  /-- `casefold()` of a character that is not ASCII. -/
  casefold : Char → List Char
  /-- `str(value)` of a value that is not a text. -/
  str : Meta → String
  /-- `_CSV_QUOTING_MODES`, which depends on the version of `csv`. -/
  quotingModes : List Int
  sha256 : String → String
  sha256_hex : ∀ text, (sha256 text).toList.length = 64 ∧
    (sha256 text).toList.all isLowerHex = true

/-- `isinstance(value, str)`. -/
def Meta.text? : Meta → Option String
  | .str text => some text
  | .fingerprint text => some text
  | _ => Option.none

/-- `str(value)`. -/
def strOf (host : MetadataHost) (value : Meta) : String := value.text?.getD (host.str value)

/-- A document as it is read. -/
def Meta.ofNumeral (text : String) : Meta :=
  if h : Json.isFloatNumeral text.toList = true then .float ⟨text, h⟩ else .nonFinite

mutual

def ofJson : Json → Meta
  | .null => .none
  | .bool b => .bool b
  | .int n => .int n
  | .float text => .ofNumeral text
  | .str text => .str text
  | .arr items => .list (ofJsonItems items)
  | .obj fields => .map (ofJsonFields fields)

def ofJsonItems : List Json → List Meta
  | [] => []
  | item :: rest => ofJson item :: ofJsonItems rest

def ofJsonFields : List (String × Json) → List (String × Meta)
  | [] => []
  | (key, value) :: rest => (key, ofJson value) :: ofJsonFields rest

end

/-- A `dict` that is built entry by entry. -/
def dictOf (fields : List (String × Json)) : Json := .obj (Dict.empty.setAll fields).entries

def sortedByKey {α : Type} (fields : List (String × α)) : List (String × α) :=
  fields.insertionSort fun a b => a.1 ≤ b.1

/-! ## Keys -/

def foldChar (host : MetadataHost) (c : Char) : List Char :=
  if c.toNat < 128 then [c.toLower] else host.casefold c

def isKeyChar (c : Char) : Bool := ('a' ≤ c && c ≤ 'z') || ('0' ≤ c && c ≤ '9')

/-- `re.sub(r"[^a-z0-9_]", "", key.casefold())`. -/
def normalizedKey (host : MetadataHost) (key : String) : String :=
  String.ofList ((key.toList.flatMap (foldChar host)).filter fun c => isKeyChar c || c = '_')

/-- `re.sub(r"[^a-z0-9]", "", key.casefold())`. -/
def compactKey (host : MetadataHost) (key : String) : String :=
  String.ofList ((key.toList.flatMap (foldChar host)).filter isKeyChar)

def secretTokens : List String :=
  ["secret", "password", "credential", "authorization", "apikey", "token"]

def rowKeys : List String :=
  ["row", "rows", "record", "records", "sample", "samples", "samplerow", "samplerows",
    "sourcevalue", "sourcevalues", "value", "values", "data", "body", "content",
    "providerpayload", "providerdata"]

/-- `needle in text`. -/
def contains (needle text : String) : Bool :=
  text.toList.tails.any fun rest => needle.toList.isPrefixOf rest

/-- `_metadata_key_kind(key) in {"secret", "row"}`. -/
def isPrivateKey (host : MetadataHost) (key : String) : Bool :=
  secretTokens.any (fun token => contains token (compactKey host key)) ||
    compactKey host key ∈ rowKeys

def revisionKeys : List String := ["revision", "target_revision"]

def flagKeys : List String :=
  ["has_default", "generated", "auto_increment", "default_omission_safe"]

/-- `_SAFE_METADATA_KEYS`. -/
def safeMetadataKeys : List String :=
  ["version", "fingerprint", "code", "severity", "message", "phase", "path", "identity",
    "identity_unresolved", "target_identity", "revision", "target_revision",
    "source_logical_type", "target_logical_type", "row_index", "validated_prefix_rows",
    "validated_rows", "replay_status", "state", "source", "method", "inspection_method",
    "provider_name", "provider_required_fields", "provider_nullable_fields", "inspector",
    "status", "exists", "empty", "sampled", "header_only", "rows_observed", "retained_rows",
    "bytes_observed", "raw_bytes_observed", "materialized_bytes_observed",
    "effective_materialized_bytes_limit", "preview_estimated_bytes", "preview_rows_observed",
    "preview_bytes_observed", "preview_available", "max_rows", "max_fields", "max_diagnostics",
    "max_bytes", "max_materialized_bytes", "timeout_seconds", "limit_reason", "limit_reasons",
    "fields", "field", "name", "logical_type", "required", "nullable", "schema",
    "observed_schema", "target_hypothesis", "target_observation", "observed_values",
    "null_values", "null_policy", "missing_values", "type_counts", "inference_evidence",
    "limitations", "inferred", "inference_diagnostics", "diagnostics", "keys", "partitions",
    "capabilities", "write_modes", "modes", "operations", "operation", "from", "to",
    "source_node", "source_nodes", "source_fields", "qualified_source_fields", "source_types",
    "target_type", "observed_type", "output_field", "constraints", "confidence", "lineage",
    "lineage_version", "lineage_fingerprint", "graph", "backward_constraints",
    "backfill_explanations", "target_validation", "target_validation_fields",
    "target_fingerprint", "observed_schema_fingerprint", "context", "provider_object",
    "provider_type", "adapter", "plugin", "create_required", "create_intent", "can_create",
    "mode", "compatible", "casts", "obligations", "target"]

/-- `_STRUCTURAL_MAP_KEYS`. -/
def structuralMapKeys : List String :=
  ["casts", "type_counts", "source_types", "backward_constraints", "field_constraints", "graph",
    "capabilities", "limits"]

/-! ## Texts -/

def isAsciiLetter (c : Char) : Bool := ('a' ≤ c && c ≤ 'z') || ('A' ≤ c && c ≤ 'Z')

/-- `(?:^|[\s=])`. -/
def pathBoundary : Regex :=
  alt (notBehind fun _ => true) (cls fun c => isSpace c || c = '=')

/-- `_URI_SCHEME`. -/
def uriScheme : Regex :=
  seqAll [cls isAsciiLetter, many (fun c => isAsciiLetter c || isAsciiDigit c || oneOf "+.-" c),
    lit "://"]

/-- `/(?:Users|home|tmp|var|Volumes)/` after a boundary. -/
def homePath : Regex :=
  seqAll [pathBoundary, lit "/",
    altAll (["Users", "home", "tmp", "var", "Volumes"].map lit), lit "/"]

/-- A drive or a share after a boundary. -/
def windowsPath : Regex :=
  let slash : Regex := cls (oneOf "\\/")
  let part : Regex := some_ fun c => !(oneOf "\\/" c || isSpace c)
  seqAll [pathBoundary,
    altAll [seqAll [cls isAsciiLetter, lit ":", slash], seqAll [lit "\\", part, slash],
      seqAll [lit "\\\\", part, slash]]]

/-- `_looks_like_path`. -/
def looksLikePath (text : String) : Bool :=
  ["/", "~/", "file://", "s3://", "gs://", "az://"].any (fun start => hasPrefix start text) ||
    search uriScheme text || search homePath text || search windowsPath text

def redacted : Json := .str "<redacted>"

/-- A text under a key that is on the list: only paths are hidden. -/
def safeText (text : String) : String := if looksLikePath text then "<path-redacted>" else text

/-- `_wire_identity`. -/
def wireIdentity (host : MetadataHost) (text : String) : String :=
  if looksLikePath text then "path-sha256:" ++ host.sha256 text else text

/-! ## Revisions -/

/-- `revision_fingerprint`, of a text. -/
def fingerprintOf (host : MetadataHost) (text : String) : String :=
  "etlantic-sha256:" ++ host.sha256 text

/-- `revision_fingerprint`. -/
def revisionFingerprint (host : MetadataHost) : Meta → Json
  | .none => .null
  | .fingerprint text => .str text
  | value => .str (fingerprintOf host (strOf host value))

/-- `_REVISION_FINGERPRINT_PATTERN.fullmatch`. -/
def isWireFingerprint (text : String) : Bool :=
  hasPrefix "etlantic-sha256:" text &&
    (let digest := text.toList.drop 16
     digest.length = 64 && digest.all isLowerHex)

/-- `revision_fingerprint_from_wire`. -/
def revisionFromWire (host : MetadataHost) : Meta → Meta
  | .none => .none
  | value =>
      if isWireFingerprint (strOf host value) then .fingerprint (strOf host value)
      else
        match value with
        | .fingerprint text => .fingerprint text
        | value => .fingerprint (fingerprintOf host (strOf host value))

mutual

/-- `restore_wire_revision_fingerprints`. -/
def restore (host : MetadataHost) (key : Option String) : Meta → Meta
  | .map fields =>
      if key.any fun key => normalizedKey host key ∈ revisionKeys then
        revisionFromWire host (.map fields)
      else .map (restoreFields host fields)
  | .list items =>
      if key.any fun key => normalizedKey host key ∈ revisionKeys then
        revisionFromWire host (.list items)
      else .list (restoreItems host items)
  | value =>
      if key.any fun key => normalizedKey host key ∈ revisionKeys then revisionFromWire host value
      else value

def restoreItems (host : MetadataHost) : List Meta → List Meta
  | [] => []
  | item :: rest => restore host Option.none item :: restoreItems host rest

def restoreFields (host : MetadataHost) : List (String × Meta) → List (String × Meta)
  | [] => []
  | (key, value) :: rest => (key, restore host (some key) value) :: restoreFields host rest

end

/-! ## Control keys with rules of their own -/

/-- `_bounded_mapping`. -/
def boundedMapping (label : String) : Meta → Except PyError (List (String × Meta))
  | .map fields =>
      if 256 < fields.length then .error (.valueError (label ++ " must be a bounded mapping"))
      else .ok fields
  | _ => .error (.valueError (label ++ " must be a bounded mapping"))

/-- `_bounded_sequence`. -/
def boundedSequence (label : String) (maximum : Nat) (value : Meta) :
    Except PyError (List Meta) :=
  let refused : Except PyError (List Meta) :=
    .error (.valueError (label ++ " must be a bounded sequence"))
  match value with
  | .list items => if maximum < items.length then refused else .ok items
  | .set items => if maximum < items.length then refused else .ok items
  | _ => refused

/-- A mapping with none but the allowed keys, each entry checked by the rule of its key. -/
def checkedMapping (label unsupported : String) (allowed : List String)
    (entry : String → Meta → Except PyError Json) (value : Meta) : Except PyError Json := do
  let fields ← boundedMapping label value
  if fields.any fun field => field.1 ∉ allowed then .error (.valueError unsupported)
  else
    let safe ← fields.mapM fun field => (entry field.1 field.2).map fun value => (field.1, value)
    return dictOf safe

/-- Every item is a text. -/
def texts? (items : List Meta) : Option (List String) := items.mapM Meta.text?

def Meta.isSet : Meta → Bool
  | .set _ => true
  | _ => false

def sortedTexts (texts : List String) : List String := texts.insertionSort (· ≤ ·)

def csvParserOptionKeys : List String :=
  ["encoding", "delimiter", "quotechar", "escapechar", "doublequote", "strict",
    "skipinitialspace", "quoting"]

/-- An entry of the parser options. -/
def parserOption (host : MetadataHost) (key : String) (item : Meta) : Except PyError Json :=
  if key ∈ ["doublequote", "strict", "skipinitialspace"] then
    match item with
    | .bool b => .ok (.bool b)
    | _ => .error (.valueError ("parser option " ++ key ++ " must be boolean"))
  else if key = "quoting" then
    match item with
    | .int n =>
        if n ∈ host.quotingModes then .ok (.int n)
        else .error (.valueError "parser option quoting must be a CSV quoting mode")
    | _ => .error (.valueError "parser option quoting must be a CSV quoting mode")
  else if key ∈ ["delimiter", "quotechar", "escapechar"] then
    match item with
    | .none =>
        if key = "delimiter" then
          .error (.valueError "parser option delimiter must be one safe character")
        else .ok .null
    | item =>
        match item.text? with
        | some text =>
            if text.length = 1 ∧ looksLikePath text = false then .ok (.str text)
            else .error (.valueError ("parser option " ++ key ++ " must be one safe character"))
        | Option.none =>
            .error (.valueError ("parser option " ++ key ++ " must be one safe character"))
  else
    match item.text? with
    | some text =>
        if text ≠ "" ∧ text.length ≤ 64 ∧ looksLikePath text = false then .ok (.str text)
        else .error (.valueError "parser option encoding must be a safe name")
    | Option.none => .error (.valueError "parser option encoding must be a safe name")

/-- `_safe_parser_options`. -/
def safeParserOptions (host : MetadataHost) : Meta → Except PyError Json :=
  checkedMapping "parser_options" "parser_options contains unsupported keys" csvParserOptionKeys
    (parserOption host)

/-- `mapping.get(key)`. -/
def get? (fields : List (String × Meta)) (key : String) : Option Meta :=
  (fields.find? fun field => field.1 = key).map Prod.snd

/-- `sha256:` and 64 digits. -/
def isDigest (text : String) : Bool :=
  hasPrefix "sha256:" text &&
    (let digest := text.toList.drop 7
     digest.length = 64 && digest.all isLowerHex)

/-- `_safe_null_policy`. -/
def safeNullPolicy (value : Meta) : Except PyError Json := do
  let policy ← boundedMapping "null_policy" value
  if policy.any fun field => field.1 ∉ ["mode", "count", "digest"] then
    .error (.valueError "null_policy contains unsupported keys")
  else
    match (get? policy "mode").bind Meta.text? with
    | Option.none => .error (.valueError "null_policy mode is invalid")
    | some mode =>
        if mode ∉ ["default", "custom"] then .error (.valueError "null_policy mode is invalid")
        else
          match get? policy "count" with
          | some (.int count) =>
              if count < 0 then
                .error (.valueError "null_policy count must be a non-negative integer")
              else
                let safe := dictOf [("mode", .str mode), ("count", .int count)]
                match get? policy "digest" with
                | Option.none => .ok safe
                | some digest =>
                    if mode ≠ "custom" then
                      .error (.valueError "default null_policy cannot contain a digest")
                    else if digest.text?.any isDigest then .ok safe
                    else .error (.valueError "custom null_policy digest must be a SHA-256 digest")
          | _ => .error (.valueError "null_policy count must be a non-negative integer")

def providerCapabilityKeys : List String := ["write_modes", "modes", "operations", "create"]

def providerWriteModes : List String :=
  ["append", "overwrite", "merge", "upsert", "partition_replace"]

def providerOperations : List String := providerWriteModes ++ ["create"]

/-- The modes a capability may list. -/
def allowedModes (key : String) : List String :=
  if key = "write_modes" then providerWriteModes else providerOperations

/-- An entry of the capabilities. -/
def providerCapability (key : String) (item : Meta) : Except PyError Json :=
  if key ∈ ["write_modes", "modes", "operations"] then do
    let values ← boundedSequence ("provider capability " ++ key) 64 item
    match texts? values with
    | some modes =>
        if modes.all fun mode => mode ∈ allowedModes key then
          .ok (.arr ((if item.isSet then sortedTexts modes else modes).map .str))
        else .error (.valueError ("provider capability " ++ key ++ " contains an invalid mode"))
    | Option.none =>
        .error (.valueError ("provider capability " ++ key ++ " contains an invalid mode"))
  else
    match item with
    | .bool b => .ok (.bool b)
    | _ => .error (.valueError ("provider capability " ++ key ++ " must be boolean"))

/-- Capabilities that are a list of operations. -/
def operationList (value : Meta) : Except PyError Json := do
  let values ← boundedSequence "provider capabilities" 64 value
  match texts? values with
  | some operations =>
      if operations.all fun operation => operation ∈ providerOperations then
        .ok (.arr ((if value.isSet then sortedTexts operations else operations).map .str))
      else .error (.valueError "provider capabilities contain an unsupported operation")
  | Option.none => .error (.valueError "provider capabilities contain an unsupported operation")

/-- `_safe_capabilities`. -/
def safeCapabilities (value : Meta) : Except PyError Json :=
  match value with
  | .none => .ok .null
  | .map fields =>
      checkedMapping "provider capabilities" "provider capabilities contain unsupported keys"
        providerCapabilityKeys providerCapability (.map fields)
  | .list items => operationList (.list items)
  | .set items => operationList (.set items)
  | _ => .error (.valueError "provider capabilities must be a bounded map or operation list")

/-! ## Lineage -/

/-- `set(mapping) == set(keys)`. -/
def hasKeys (fields : List (String × Meta)) (keys : List String) : Bool :=
  fields.all (fun field => field.1 ∈ keys) && keys.all fun key => (get? fields key).isSome

/-- An operation of a lineage entry. -/
def lineageOperation (operation : Meta) : Except PyError Json :=
  let refused : Except PyError Json :=
    .error (.valueError "lineage operations contain an invalid entry")
  match operation with
  | .str text => .ok (.str (safeText text))
  | .fingerprint text => .ok (.str (safeText text))
  | .map fields => do
      let fields ← boundedMapping "lineage operation" (.map fields)
      let text := fun key => (get? fields key).bind Meta.text?
      match text "operation" with
      | Option.none => refused
      | some name =>
          if hasKeys fields ["operation"] && name ≠ "rename" then
            .ok (dictOf [("operation", .str (safeText name))])
          else if hasKeys fields ["operation", "field"] && name ≠ "rename" then
            match text "field" with
            | some field =>
                .ok (dictOf [("operation", .str (safeText name)), ("field", .str (safeText field))])
            | Option.none => refused
          else if hasKeys fields ["operation", "from", "to"] && name = "rename" then
            match text "from", text "to" with
            | some source, some target =>
                .ok (dictOf [("operation", .str (safeText name)),
                  ("from", .str (safeText source)), ("to", .str (safeText target))])
            | _, _ => refused
          else refused
  | _ => refused

/-- An item of a lineage entry. -/
def lineageItem (host : MetadataHost) (key : String) (item : Meta) :
    Except PyError Json :=
  if key = "invertible" then
    match item with
    | .bool b => .ok (.bool b)
    | _ => .error (.valueError "lineage invertible must be boolean")
  else if key ∈ ["field", "source_node"] then
    match item with
    | .none => .ok .null
    | item =>
        match item.text? with
        | some text =>
            if key = "source_node" ∧ text ≠ "" then .ok (.str (wireIdentity host text))
            else .ok (.str (safeText text))
        | Option.none => .error (.valueError ("lineage " ++ key ++ " must be a string"))
  else if key = "source_types" then do
    let types ← boundedMapping "lineage source_types" item
    match types.mapM fun field => field.2.text?.map fun kind => (field.1, kind) with
    | some kinds =>
        return dictOf ((sortedByKey kinds).map fun entry =>
          (safeText entry.1, .str (safeText entry.2)))
    | Option.none => .error (.valueError "lineage source_types must map names to types")
  else if key = "operations" then
    if item.isSet then .error (.valueError "lineage operations must be ordered")
    else do
      let operations ← boundedSequence "lineage operations" 256 item
      let safe ← operations.mapM lineageOperation
      return .arr safe
  else do
    let parts ← boundedSequence ("lineage " ++ key) 256 item
    match texts? parts with
    | some texts =>
        let ordered := if item.isSet then sortedTexts texts else texts
        return .arr (ordered.map fun text =>
          .str (if key = "source_nodes" then wireIdentity host text else safeText text))
    | Option.none =>
        .error (.valueError ("lineage " ++ key ++ " must be a bounded string list"))

def lineageEntryKeys : List String :=
  ["field", "source_node", "source_nodes", "source_fields", "qualified_source_fields",
    "source_types", "operations", "invertible"]

def lineageGraphFieldKeys : List String :=
  ["source_nodes", "source_fields", "qualified_source_fields", "operations", "invertible"]

/-- `_safe_lineage_entry`. -/
def safeLineageEntry (host : MetadataHost) (allowed : List String) : Meta → Except PyError Json :=
  checkedMapping "lineage entry" "lineage entry contains unsupported keys" allowed
    (lineageItem host)

/-- The entries of a lineage by the names of their fields. -/
def lineageEntries (host : MetadataHost) (allowed : List String)
    (fields : List (String × Meta)) : Except PyError Json := do
  let entries ← (sortedByKey fields).mapM fun field =>
    (safeLineageEntry host allowed field.2).map fun entry => (safeText field.1, entry)
  return dictOf entries

/-- The version of a lineage graph. -/
def graphVersion (lineage : List (String × Meta)) : Except PyError (List (String × Json)) :=
  match get? lineage "version" with
  | Option.none => .ok []
  | some (.int n) =>
      if n < 1 then .error (.valueError "lineage graph version must be a positive integer")
      else .ok [("version", .int n)]
  | some _ => .error (.valueError "lineage graph version must be a positive integer")

/-- The fields of a lineage graph. -/
def graphFields (host : MetadataHost) (lineage : List (String × Meta)) :
    Except PyError (List (String × Json)) :=
  match get? lineage "fields" with
  | Option.none => .ok []
  | some value => do
      let fields ← boundedMapping "lineage graph fields" value
      let safe ← lineageEntries host lineageGraphFieldKeys fields
      return [("fields", safe)]

/-- `_safe_lineage`, of a graph. -/
def safeLineageGraph (host : MetadataHost) (value : Meta) : Except PyError Json := do
  let lineage ← boundedMapping "lineage metadata" value
  if lineage.any fun field => field.1 ∉ ["version", "fields"] then
    .error (.valueError "lineage graph contains unsupported keys")
  else
    let version ← graphVersion lineage
    let fields ← graphFields host lineage
    return dictOf (version ++ fields)

/-- `_safe_lineage`, of the entries of a schema. -/
def safeLineage (host : MetadataHost) (value : Meta) : Except PyError Json := do
  let lineage ← boundedMapping "lineage metadata" value
  lineageEntries host lineageEntryKeys lineage

/-! ## The sanitizer -/

/-- A value that is redacted under a key that is not on the list. -/
def Meta.isPlain : Meta → Bool
  | .none => false
  | .map _ => false
  | .other _ => false
  | _ => true

def Meta.isNone : Meta → Bool
  | .none => true
  | _ => false

/-- What a key alone decides. -/
def underKey (host : MetadataHost) (allowUnknown : Bool) (key : String) (value : Meta) :
    Option (Except PyError Json) :=
  let normalized := normalizedKey host key
  if normalized ∈ revisionKeys then some (.ok (revisionFingerprint host value))
  else if normalized ∈ flagKeys then
    match value with
    | .bool b => some (.ok (.bool b))
    | _ => some (.ok redacted)
  else if normalized = "parser_options" then some (safeParserOptions host value)
  else if normalized = "null_policy" then some (safeNullPolicy value)
  else if normalized = "capabilities" then some (safeCapabilities value)
  else if normalized = "lineage" && !value.isNone then some (safeLineage host value)
  else if normalized = "lineage_graph" && !value.isNone then some (safeLineageGraph host value)
  else if isPrivateKey host key then some (.ok redacted)
  else if normalized ∉ safeMetadataKeys && !allowUnknown && value.isPlain then
    some (.ok redacted)
  else Option.none

/-- The entries of a mapping that are all in order. -/
def collectFields (fields : List (String × Except PyError Json)) :
    Except PyError (List (String × Json)) :=
  fields.mapM fun field => field.2.map fun value => (field.1, value)

def collectItems (items : List (Except PyError Json)) : Except PyError (List Json) :=
  items.mapM id

/-- A value that has nothing below it. -/
def safeLeaf : Meta → Json
  | .bool b => .bool b
  | .int n => .int n
  | .float numeral => .float numeral.val
  | .nonFinite => .str "<non-finite>"
  | .str text => .str (safeText text)
  | .fingerprint text => .str (safeText text)
  | .stamp text => .str text
  | .bytes length => .str ("<bytes:" ++ toString length ++ ">")
  | .other typeName => .str ("<" ++ typeName ++ ">")
  | _ => .null

def truncated : Json := .str "<truncated>"

mutual

/-- `_json_safe`. -/
def jsonSafe (host : MetadataHost) (allowUnknown : Bool) (key : Option String) (depth : Nat) :
    Meta → Except PyError Json
  | .map fields =>
      match key.bind fun key => underKey host allowUnknown key (.map fields) with
      | some result => result
      | Option.none =>
          if 6 < depth then .ok truncated
          else if 256 < fields.length then .ok (.obj [])
          else
            (collectFields (sortedByKey (safeFields host (key.any (· ∈ structuralMapKeys))
              (depth + 1) fields))).map dictOf
  | .list items =>
      match key.bind fun key => underKey host allowUnknown key (.list items) with
      | some result => result
      | Option.none =>
          if 6 < depth then .ok truncated
          else (collectItems ((safeItems host (depth + 1) items).take 256)).map .arr
  | .set items =>
      match key.bind fun key => underKey host allowUnknown key (.set items) with
      | some result => result
      | Option.none =>
          if 6 < depth then .ok truncated
          else if 256 < items.length then .ok (.arr [])
          else (collectItems (safeItems host (depth + 1) items)).map .arr
  | value =>
      match key.bind fun key => underKey host allowUnknown key value with
      | some result => result
      | Option.none => if 6 < depth then .ok truncated else .ok (safeLeaf value)

def safeItems (host : MetadataHost) (depth : Nat) : List Meta → List (Except PyError Json)
  | [] => []
  | item :: rest => jsonSafe host false Option.none depth item :: safeItems host depth rest

def safeFields (host : MetadataHost) (allowUnknown : Bool) (depth : Nat) :
    List (String × Meta) → List (String × Except PyError Json)
  | [] => []
  | (key, value) :: rest =>
      (key, jsonSafe host allowUnknown (some key) depth value) ::
        safeFields host allowUnknown depth rest

end

/-- `_wire_value`. -/
def wireValue (host : MetadataHost) (key : Option String) (value : Meta) : Except PyError Json :=
  jsonSafe host false key 0 value

/-- `_wire_mapping`. -/
def wireMapping (host : MetadataHost) (key : Option String) (value : Meta) :
    Except PyError (List (String × Json)) :=
  (wireValue host key (restore host key value)).map fun
    | .obj fields => fields
    | _ => []

end Etlantic.Inference
