import Etlantic.Base.Base64
import Etlantic.Base.Checked
import Etlantic.Base.PyData

/-!
# Fusion descriptors

A fusion descriptor names a source, a filter and a projection that one engine may run
as one.  Each of the two members carries the definition of its transformation, which
`dtcs` identifies by a fingerprint; the descriptor has a fingerprint of its own, under
which fused work is authorised.

What a constructor was given is checked, and then frozen.  A member is written with its
definition as base64 of JSON text, and a contract with its fields as a list of records.
-/

namespace Etlantic.Transform.Fusion

/-- What the descriptors are built with: the hex digest of a text, `dtcs.plan_fingerprint`
if it does not raise, the order of iteration of a frozen set, whether the items of a set
can be sorted, and `str` of a value that is not a text. -/
structure FusionHost where
  sha256 : String → String
  planFingerprint : PyData → Option String
  refrozen : List PyData → List PyData
  sortable : List PyData → Bool
  str : PyData → String

/-- A `ValueError` with its message, or another error that Python raises. -/
inductive FusionError where
  | value (message : String)
  | raised
deriving DecidableEq

def fusionSchema : String := "etlantic.portable_fusion/1"

def sourceSchema : String := "etlantic.polars_parquet_source/1"

def snapshotStrategy : String := "bounded-local-snapshot/1"

/-! ## Frozen values -/

section Freeze

variable (host : FusionHost)

mutual

def deepFreeze : PyData → PyData
  | .list items => .list (freezeItems items)
  | .set items => .set (host.refrozen (freezeItems items))
  | .dict entries => .dict (freezeEntries entries)
  | value => value

def freezeItems : List PyData → List PyData
  | [] => []
  | item :: rest => deepFreeze item :: freezeItems rest

def freezeEntries : List (DataKey × PyData) → List (DataKey × PyData)
  | [] => []
  | (key, value) :: rest => (key, deepFreeze value) :: freezeEntries rest

end

end Freeze

mutual

def mutableCopy : PyData → PyData
  | .list items => .list (copyItems items)
  | .set items => .list (copyItems items)
  | .dict entries => .dict (copyEntries entries)
  | value => value

def copyItems : List PyData → List PyData
  | [] => []
  | item :: rest => mutableCopy item :: copyItems rest

def copyEntries : List (DataKey × PyData) → List (DataKey × PyData)
  | [] => []
  | (key, value) :: rest => (key, mutableCopy value) :: copyEntries rest

end

/-! ## Sizes and digests -/

def byteLength (text : List Char) : Nat := (utf8Bytes text).length

/-- The size of `canonical_chunks(key)`. -/
def keySize : DataKey → Nat
  | .str s => byteLength (Json.quote Json.escapeUnicode s)
  | key => byteLength key.text.toList

section Sizes

variable (host : FusionHost)

mutual

/-- `canonical_size`, if it does not raise. An object may have a size of its own, but the
JSON text that is asked for next has none for it. -/
def canonicalSize : PyData → Option Nat
  | .none => some 4
  | .bool b => some (if b then 4 else 5)
  | .int n => some (byteLength (toString n).toList)
  | .float repr => some (byteLength repr.toList)
  | .str s => some (byteLength (Json.quote Json.escapeUnicode s))
  | .list items => (itemSizes items).map fun size => 2 + (items.length - 1) + size
  | .set items =>
      if host.sortable items then (itemSizes items).map fun size => 2 + (items.length - 1) + size
      else none
  | .dict entries =>
      if comparableKeys (entries.map Prod.fst) then
        (entrySizes entries).map fun size => 2 + (entries.length - 1) + size
      else none
  | .object => none

def itemSizes : List PyData → Option Nat
  | [] => some 0
  | item :: rest => do
      let first ← canonicalSize item
      let others ← itemSizes rest
      return first + others

def entrySizes : List (DataKey × PyData) → Option Nat
  | [] => some 0
  | (key, value) :: rest => do
      let first ← canonicalSize value
      let others ← entrySizes rest
      return keySize key + 1 + first + others

end

/-- The error of a call that raised. -/
def orRaised {α : Type} : Option α → Except FusionError α
  | some value => .ok value
  | none => .error .raised

/-- The digest of canonical data. -/
def fusionDigest (value : PyData) : Except FusionError String := do
  let json ← orRaised ((mutableCopy value).image true)
  return "sha256:" ++ host.sha256 (String.ofList (json.encode Json.escapeUnicode .compact 0))

/-- `raise ValueError(message)` if the check finds something. -/
def refuse (message : String) (found : Except FusionError Bool) : Except FusionError Unit := do
  if ← found then throw (.value message)

/-- What `PARQUET_CAPABILITY_EVIDENCE` is the digest of. -/
def parquetCapability : PyData :=
  .dict [(.str "columns", .int 8), (.str "implementation", .str "bounded-local-snapshot/1"),
    (.str "max_bytes", .int (256 * 1024 * 1024)), (.str "max_rows", .int 1000000),
    (.str "pushdown", .list [.str "predicate", .str "projection"]),
    (.str "schema", .str sourceSchema), (.str "types", .list [.str "boolean", .str "int64"])]

/-- `PARQUET_CAPABILITY_EVIDENCE`. -/
def parquetCapabilityEvidence : String :=
  "sha256:" ++ host.sha256 (String.ofList (((mutableCopy parquetCapability).image true).getD
    .null |>.encode Json.escapeUnicode .compact 0))

end Sizes

/-! ## Checks of values -/

/-- Whether a value is this text. -/
def isText (text : String) : Option PyData → Bool
  | some (.str s) => s = text
  | _ => false

/-- `value.get(key)`; a value that is no mapping has no `get`. -/
def getOf (key : String) : PyData → Except FusionError (Option PyData)
  | .dict entries => .ok (PyData.get? key (.dict entries))
  | _ => .error .raised

/-- `value[key]` of a mapping. -/
def itemOf (key : String) (value : PyData) : Except FusionError PyData :=
  orRaised (value.get? key)

/-- `set(keys) == set(fields)`. -/
def sameKeys (fields : List String) (keys : List DataKey) : Bool :=
  keys.all (fun key => key ∈ fields.map DataKey.str) && fields.all fun field => .str field ∈ keys

/-- `_closed`. -/
def closed (fields : List String) : PyData → Except FusionError Unit
  | .dict entries =>
      if sameKeys fields (entries.map Prod.fst) then .ok ()
      else .error (.value "PMADP403: invalid closed fusion descriptor")
  | _ => .error (.value "PMADP403: invalid closed fusion descriptor")

def isUnhashable : PyData → Bool
  | .list _ => true
  | .set _ => true
  | .dict _ => true
  | _ => false

/-- `set(value) == set(fields)`. -/
def setIs (fields : List String) : PyData → Except FusionError Bool
  | .dict entries => .ok (sameKeys fields (entries.map Prod.fst))
  | .list items =>
      if items.any isUnhashable then .error .raised
      else .ok (items.all (fun item => fields.any fun field => isText field (some item)) &&
        fields.all fun field => items.any fun item => isText field (some item))
  | .set items =>
      .ok (items.all (fun item => fields.any fun field => isText field (some item)) &&
        fields.all fun field => items.any fun item => isText field (some item))
  | .str s =>
      .ok (s.toList.all (fun c => String.singleton c ∈ fields) &&
        fields.all fun field => s.toList.any fun c => String.singleton c = field)
  | _ => .error .raised

def truthy : PyData → Bool
  | .none => false
  | .bool b => b
  | .int n => n ≠ 0
  | .float repr => repr ≠ "0.0" && repr ≠ "-0.0"
  | .str s => s ≠ ""
  | .list items => !items.isEmpty
  | .set items => !items.isEmpty
  | .dict entries => !entries.isEmpty
  | .object => true

def lengthOf : PyData → Except FusionError Nat
  | .list items => .ok items.length
  | .set items => .ok items.length
  | .dict entries => .ok entries.length
  | .str s => .ok s.length
  | _ => .error .raised

/-- `value[0]`. -/
def firstOf : PyData → Except FusionError PyData
  | .list (item :: _) => .ok item
  | .str s => orRaised (s.toList.head?.map fun c => .str (String.singleton c))
  | .dict entries => orRaised ((entries.find? fun e => e.1 = .int 0).map Prod.snd)
  | _ => .error .raised

mutual

/-- `a == b` for values without sets. -/
def same : PyData → PyData → Bool
  | .none, .none => true
  | .bool a, .bool b => a = b
  | .bool a, .int b => (if a then 1 else 0) = b
  | .int a, .bool b => a = if b then 1 else 0
  | .int a, .int b => a = b
  | .float a, .float b => a = b
  | .str a, .str b => a = b
  | .list a, .list b => sameItems a b
  | .dict a, .dict b => sameEntries a b
  | _, _ => false

def sameItems : List PyData → List PyData → Bool
  | [], [] => true
  | a :: as, b :: bs => same a b && sameItems as bs
  | _, _ => false

def sameEntries : List (DataKey × PyData) → List (DataKey × PyData) → Bool
  | [], [] => true
  | (k, a) :: as, (k', b) :: bs => k = k' && same a b && sameEntries as bs
  | _, _ => false

end

def sameOption : Option PyData → Option PyData → Bool
  | none, none => true
  | some a, some b => same a b
  | none, some .none => true
  | some .none, none => true
  | _, _ => false

/-! ## Identifiers and contracts -/

structure Identifier where
  text : String
  nonEmpty : text ≠ ""
  bounded : text.length ≤ 4096
deriving DecidableEq

theorem Identifier.nonEmpty_of {s : String} (h : s ≠ "" ∧ s.length ≤ 4096) : s ≠ "" := h.1

theorem Identifier.bounded_of {s : String} (h : s ≠ "" ∧ s.length ≤ 4096) : s.length ≤ 4096 := h.2

def Identifier.data (id : Identifier) : PyData := .str id.text

/-- `_identifier`. -/
def identifier : PyData → Except FusionError Identifier
  | .str s =>
      if h : s ≠ "" ∧ s.length ≤ 4096 then .ok ⟨s, h.1, h.2⟩
      else .error (.value "PMADP403: invalid fusion identity")
  | _ => .error (.value "PMADP403: invalid fusion identity")

inductive FieldType where
  | int64
  | boolean
deriving DecidableEq

def FieldType.text : FieldType → String
  | .int64 => "int64"
  | .boolean => "boolean"

/-- The type of a field, if a contract may have it. -/
def fieldType : PyData → Except FusionError FieldType
  | .str s =>
      if s = "int64" then .ok .int64
      else if s = "boolean" then .ok .boolean
      else .error (.value "PMADP403: unsupported fusion contract type")
  | value =>
      if isUnhashable value then .error .raised
      else .error (.value "PMADP403: unsupported fusion contract type")

/-- A contract that `_contract` has accepted, with its fields in key order. -/
structure Contract where
  id : Identifier
  fingerprint : Identifier
  fields : List (String × FieldType)
  ordered : KeysOrdered fields
  named : ∀ field ∈ fields, field.1 ≠ "" ∧ field.1.length ≤ 4096
  nonEmpty : fields ≠ []
  bounded : fields.length ≤ 8

/-- `fields.get(name)`. -/
def Contract.type? (contract : Contract) (name : String) : Option FieldType :=
  (contract.fields.find? fun field => field.1 = name).map Prod.snd

/-- The fields as a mapping. -/
def fieldEntries (fields : List (String × FieldType)) : List (DataKey × PyData) :=
  fields.map fun field => (.str field.1, .str field.2.text)

def Contract.data (contract : Contract) : PyData :=
  .dict [(.str "fields", .dict (fieldEntries contract.fields)),
    (.str "fingerprint", contract.fingerprint.data), (.str "id", contract.id.data)]

/-- The fields of a mapping, each with a name and a type. -/
def contractFields : List (DataKey × PyData) → Except FusionError (List (Identifier × FieldType))
  | [] => .ok []
  | (.str name, dtype) :: rest => do
      let name ← identifier (.str name)
      let type ← fieldType dtype
      let others ← contractFields rest
      return (name, type) :: others
  | _ :: _ => .error (.value "PMADP403: invalid fusion identity")

theorem mem_keys_orderedItems {items : List (String × FieldType)} {name : String}
    (h : name ∈ (orderedItems items).map Prod.fst) : name ∈ items.map Prod.fst := by
  have hfold : ∀ put : List (String × FieldType),
      name ∈ (items.foldl (fun put e => putOrdered e.1 e.2 put) put).map Prod.fst →
        name ∈ put.map Prod.fst ∨ name ∈ items.map Prod.fst := by
    clear h
    induction items with
    | nil => exact fun put hput => .inl hput
    | cons e rest ih =>
        intro put hput
        rcases ih _ hput with hput | hrest
        · rcases mem_keys_putOrdered.mp hput with rfl | hput
          · exact .inr List.mem_cons_self
          · exact .inl hput
        · exact .inr (List.mem_cons_of_mem _ hrest)
  rcases hfold [] h with hnil | hmem
  · exact absurd hnil List.not_mem_nil
  · exact hmem

/-- `_contract`: the contract that a mapping describes. -/
def contract (value : PyData) : Except FusionError Contract := do
  closed ["id", "fingerprint", "fields"] value
  let id ← identifier ((value.get? "id").getD .none)
  let fingerprint ← identifier ((value.get? "fingerprint").getD .none)
  match value.get? "fields" with
  | some (.dict entries) =>
      if entries = [] ∨ 8 < entries.length then
        .error (.value "PMADP403: invalid fusion contract fields")
      else
        let fields ← contractFields entries
        let items := orderedItems (fields.map fun field => (field.1.text, field.2))
        if h : items ≠ [] ∧ items.length ≤ 8 then
          .ok {
            id := id
            fingerprint := fingerprint
            fields := items
            ordered := keysOrdered_orderedItems _
            named := by
              intro field hfield
              have hname := mem_keys_orderedItems (List.mem_map_of_mem hfield)
              rw [List.map_map] at hname
              obtain ⟨source, -, hsource⟩ := List.mem_map.mp hname
              rw [← hsource]
              exact ⟨source.1.nonEmpty, source.1.bounded⟩
            nonEmpty := h.1
            bounded := h.2 }
        else .error (.value "PMADP403: invalid fusion contract fields")
  | _ => .error (.value "PMADP403: invalid fusion contract fields")

/-- `_contract_wire`. -/
def contractWire (contract : Contract) : PyData :=
  .dict [(.str "etlantic.fields", .list (contract.fields.map fun field =>
      .dict [(.str "column", .str field.1), (.str "dtype", .str field.2.text)])),
    (.str "fingerprint", contract.fingerprint.data), (.str "id", contract.id.data)]

/-- The columns of the records, each once. -/
def wireFields : List PyData → List (String × PyData) → Except FusionError (List (String × PyData))
  | [], fields => .ok fields
  | record :: rest, fields => do
      closed ["column", "dtype"] record
      let name ← identifier ((record.get? "column").getD .none)
      if fields.any (fun field => field.1 = name.text) then
        .error (.value "PMADP403: duplicate fusion schema column")
      else
        wireFields rest (putOrdered name.text ((record.get? "dtype").getD .none) fields)

/-- `_contract_from_wire`. -/
def contractFromWire (value : PyData) : Except FusionError PyData := do
  closed ["id", "fingerprint", "etlantic.fields"] value
  match value.get? "etlantic.fields" with
  | some (.list records) =>
      if records = [] ∨ 8 < records.length then
        .error (.value "PMADP403: invalid fusion schema fields")
      else
        let fields ← wireFields records []
        let result : PyData := .dict
          [(.str "fields", .dict (fields.map fun field => (.str field.1, field.2))),
            (.str "fingerprint", (value.get? "fingerprint").getD .none),
            (.str "id", (value.get? "id").getD .none)]
        let _ ← contract result
        return result
  | _ => .error (.value "PMADP403: invalid fusion schema fields")

/-! ## Members -/

def definitionFields : List String :=
  ["planIdentity", "profile", "specificationVersion", "registryVersions", "transformation",
    "inputs", "outputs", "parameters", "actions", "rules", "lineage", "requirements", "errorMode"]

def descriptorBound : Nat := 256 * 1024

section Members

variable (host : FusionHost)

/-- Whether the definition is not of the shape that a member may have. -/
def unsupportedShape (inputPort outputPort : String) (definition : PyData) :
    Except FusionError Bool :=
  pure (!isText "dtcs.transform-plan/2" (definition.get? "planIdentity")) <||>
  not <$> setIs [inputPort] ((definition.get? "inputs").getD (.dict [])) <||>
  not <$> setIs [outputPort] ((definition.get? "outputs").getD (.dict [])) <||>
  pure (truthy ((definition.get? "rules").getD .none)) <||>
  pure (truthy ((definition.get? "lineage").getD .none)) <||>
  pure (!isText "fail" (definition.get? "errorMode")) <||>
  (· != 1) <$> lengthOf ((definition.get? "actions").getD (.list []))

/-- `str(value)`. -/
def strOf : PyData → String
  | .str s => s
  | value => host.str value

/-- Whether the action does not lead from the input under its own name. -/
def unsupportedRoute (inputPort : String) (action kind : PyData) : Except FusionError Bool :=
  not <$> isText inputPort <$> getOf "target" kind <||>
  (fun id => !sameOption id (action.get? "id")) <$> getOf "id" kind <||>
  not <$> setIs ["id", "kind", "action", "target", "parameters"] kind <||>
  not <$> isText "semanticAction" <$> getOf "kind" kind <||>
  pure (!isText ("semanticActions." ++ strOf host ((action.get? "id").getD .none))
    (action.get? "objectRef"))

/-- The dependencies that a member must have. -/
def expectedDependencies (inputPort outputPort : String) (id : PyData) : PyData :=
  .list [.dict [(.str "from", .str inputPort), (.str "reason", .str "fieldRead"), (.str "to", id)],
    .dict [(.str "from", id), (.str "reason", .str "lineage"), (.str "to", .str outputPort)]]

/-- The checks of a member's definition. -/
def checkDefinition (inputPort outputPort irFingerprint : String) (given : PyData) :
    Except FusionError Unit := do
  refuse "PMADP403: fusion member exceeds descriptor bounds"
    ((descriptorBound < ·) <$> orRaised (canonicalSize host given))
  let definition := mutableCopy given
  closed definitionFields definition
  let json ← orRaised (definition.image false)
  refuse "PMADP403: fusion member exceeds descriptor bounds"
    (pure (descriptorBound < byteLength (json.encode Json.escapeAscii .inline 0)))
  refuse "PMADP403: fusion member IR fingerprint mismatch"
    ((· != irFingerprint) <$> orRaised (host.planFingerprint definition))
  refuse "PMADP403: unsupported fusion member shape"
    (unsupportedShape inputPort outputPort definition)
  let action ← firstOf ((definition.get? "actions").getD .none)
  closed ["id", "kind", "objectRef"] action
  refuse "PMADP403: unsupported fusion action route"
    (unsupportedRoute host inputPort action ((action.get? "kind").getD (.dict [])))
  let expected := expectedDependencies inputPort outputPort ((action.get? "id").getD .none)
  refuse "PMADP403: invalid fusion member lineage"
    ((fun found => !sameOption found (some expected)) <$>
      getOf "dependencies" ((definition.get? "requirements").getD (.dict [])))

/-- One original portable transformation and its typed logical route. -/
structure FusionMember where
  logicalNode : Identifier
  upstreamNode : Identifier
  upstreamPort : Identifier
  inputPort : Identifier
  outputPort : Identifier
  inputContract : Contract
  outputContract : Contract
  definition : PyData
  irFingerprint : Identifier
  checked : ∃ given, definition = deepFreeze host given ∧
    checkDefinition host inputPort.text outputPort.text irFingerprint.text given = .ok ()

/-- What the constructor of a member is given. -/
structure MemberArgs where
  logicalNode : PyData
  upstreamNode : PyData
  upstreamPort : PyData
  inputPort : PyData
  outputPort : PyData
  inputContract : PyData
  outputContract : PyData
  definition : PyData
  irFingerprint : PyData

def FusionMember.make (args : MemberArgs) : Except FusionError (FusionMember host) := do
  let logicalNode ← identifier args.logicalNode
  let upstreamNode ← identifier args.upstreamNode
  let upstreamPort ← identifier args.upstreamPort
  let inputPort ← identifier args.inputPort
  let outputPort ← identifier args.outputPort
  let irFingerprint ← identifier args.irFingerprint
  let inputContract ← contract args.inputContract
  let outputContract ← contract args.outputContract
  match h : checkDefinition host inputPort.text outputPort.text irFingerprint.text
      args.definition with
  | .error error => .error error
  | .ok () => .ok {
      logicalNode := logicalNode
      upstreamNode := upstreamNode
      upstreamPort := upstreamPort
      inputPort := inputPort
      outputPort := outputPort
      inputContract := inputContract
      outputContract := outputContract
      definition := deepFreeze host args.definition
      irFingerprint := irFingerprint
      checked := ⟨args.definition, rfl, h⟩ }

end Members

/-- The definition as it is stored: base64 of its JSON text. -/
def encodePlan (definition : PyData) : Except FusionError String := do
  let json ← orRaised ((mutableCopy definition).image true)
  return String.ofList (Base64.encode (utf8Bytes (json.encode Json.escapeAscii .compact 0)))

/-- The definition that was stored, if the text is one. -/
def decodePlan (encoded : String) : Option PyData := do
  let bytes ← Base64.decode encoded.toList
  let text ← utf8Text bytes
  let json ← Json.loads text
  return .ofJson json

variable {host : FusionHost}

def FusionMember.toDict (member : FusionMember host) : Except FusionError PyData := do
  let encoded ← encodePlan member.definition
  return .dict [(.str "input_contract", contractWire member.inputContract),
    (.str "input_port", member.inputPort.data),
    (.str "ir_fingerprint", member.irFingerprint.data),
    (.str "logical_node", member.logicalNode.data),
    (.str "output_contract", contractWire member.outputContract),
    (.str "output_port", member.outputPort.data),
    (.str "portable_plan_json", .str encoded),
    (.str "upstream_node", member.upstreamNode.data),
    (.str "upstream_port", member.upstreamPort.data)]

def memberFields : List String :=
  ["logical_node", "upstream_node", "upstream_port", "input_port", "output_port",
    "input_contract", "output_contract", "portable_plan_json", "ir_fingerprint"]

def invalidEncoded : FusionError := .value "PMADP403: invalid encoded fusion member"

variable (host)

def FusionMember.fromDict (value : PyData) : Except FusionError (FusionMember host) := do
  closed memberFields value
  match value.get? "portable_plan_json" with
  | some (.str encoded) =>
      if 350000 < encoded.length then .error invalidEncoded
      else
        match decodePlan encoded with
        | none => .error invalidEncoded
        | some definition =>
            let logicalNode ← itemOf "logical_node" value
            let upstreamNode ← itemOf "upstream_node" value
            let upstreamPort ← itemOf "upstream_port" value
            let inputPort ← itemOf "input_port" value
            let outputPort ← itemOf "output_port" value
            let irFingerprint ← itemOf "ir_fingerprint" value
            let inputContract ← contractFromWire ((value.get? "input_contract").getD .none)
            let outputContract ← contractFromWire ((value.get? "output_contract").getD .none)
            FusionMember.make host {
              logicalNode := logicalNode
              upstreamNode := upstreamNode
              upstreamPort := upstreamPort
              inputPort := inputPort
              outputPort := outputPort
              inputContract := inputContract
              outputContract := outputContract
              definition := definition
              irFingerprint := irFingerprint }
  | _ => .error invalidEncoded

/-! ## Operations -/

/-- `predicate["left"]["target"]` as a column of the contract. -/
def columnType (contract : Contract) : Option PyData → Except FusionError (Option FieldType)
  | some (.str name) => .ok (contract.type? name)
  | some (.dict _) => .error .raised
  | _ => .ok none

/-- `set(parameters) == {target}`. -/
def parametersAre (parameters : PyData) (target : Option PyData) : Except FusionError Bool :=
  match parameters, target with
  | .dict entries, some (.str name) => .ok (entries.map Prod.fst = [.str name])
  | .dict entries, some (.int n) => .ok (entries.map Prod.fst = [.int n])
  | .dict entries, some (.float repr) => .ok (entries.map Prod.fst = [.float repr])
  | .dict entries, some (.bool b) => .ok (entries.map Prod.fst = [.bool b])
  | .dict entries, some .none => .ok (entries.map Prod.fst = [.none])
  | .dict entries, none => .ok (entries.map Prod.fst = [.none])
  | .dict _, some (.dict _) => .error .raised
  | .dict _, some _ => .ok false
  | _, _ => .error .raised

/-- Whether a value is no integer of 64 bits. -/
def notInt64 : PyData → Bool
  | .int n => !(-(2 ^ 63) ≤ n ∧ n < 2 ^ 63)
  | _ => true

/-- Whether there is a parameter that is no integer of 64 bits. -/
def anyNotInt64 : PyData → Except FusionError Bool
  | .dict entries => .ok (entries.any fun e => notInt64 e.2)
  | _ => .error .raised

/-- The kind of the only action of a member. -/
def actionKind (member : FusionMember host) : Except FusionError PyData := do
  let action ← firstOf ((member.definition.get? "actions").getD .none)
  itemOf "kind" action

/-- Whether the first member is no comparison of a column with the parameter, or the second
no projection. -/
def unsupportedOperation (first second : FusionMember host) (parameters : PyData) :
    Except FusionError Bool := do
  let filterKind ← actionKind host first
  let projectKind ← actionKind host second
  let filterParameters ← itemOf "parameters" filterKind
  let predicate := (← getOf "predicate" filterParameters).getD (.dict [])
  let left := (← getOf "left" predicate).getD (.dict [])
  let right := (← getOf "right" predicate).getD (.dict [])
  pure (!isText "dtcs:filter" (filterKind.get? "action")) <||>
  not <$> setIs ["predicate"] filterParameters <||>
  not <$> setIs ["kind", "op", "left", "right"] predicate <||>
  pure (!isText "binary" (predicate.get? "kind")) <||>
  pure (!isText "eq" (predicate.get? "op")) <||>
  not <$> setIs ["kind", "target"] left <||>
  not <$> isText "fieldRef" <$> getOf "kind" left <||>
  (· != some .int64) <$> columnType first.inputContract (left.get? "target") <||>
  not <$> setIs ["kind", "scope", "target"] right <||>
  not <$> isText "fieldRef" <$> getOf "kind" right <||>
  not <$> isText "parameter" <$> getOf "scope" right <||>
  not <$> parametersAre parameters (right.get? "target") <||>
  anyNotInt64 parameters <||>
  pure (truthy ((first.definition.get? "parameters").getD .none)) <||>
  pure (truthy ((second.definition.get? "parameters").getD .none)) <||>
  pure (!isText "dtcs:project" (projectKind.get? "action")) <||>
  not <$> (itemOf "parameters" projectKind >>= setIs ["fields"])

/-- The names in a list of texts. -/
def textNames : List PyData → Option (List String)
  | [] => some []
  | .str name :: rest => (textNames rest).map (name :: ·)
  | _ :: _ => none

/-- Whether the projection is not one to fewer columns of the same types. -/
def unsupportedProjection (second : FusionMember host) : Except FusionError Bool := do
  let kind ← actionKind host second
  let parameters ← itemOf "parameters" kind
  match ← itemOf "fields" parameters with
  | .list items =>
      match textNames items with
      | some names =>
          return names = [] || !decide names.Nodup ||
            names.any (fun name => second.inputContract.type? name = none) ||
            !(second.outputContract.fields.all fun field => field.1 ∈ names) ||
            names.any (fun name => second.outputContract.type? name = none) ||
            names.any (fun name =>
              second.outputContract.type? name ≠ second.inputContract.type? name) ||
            second.inputContract.fields.length ≤ names.length
      | none => return true
  | _ => return true

/-- `_check_operations`. -/
def checkOperations (first second : FusionMember host) (parameters : PyData) :
    Except FusionError Unit := do
  refuse "PMADP403: unsupported fusion operation or parameter"
    (unsupportedOperation host first second parameters)
  refuse "PMADP403: unsupported fusion projection" (unsupportedProjection host second)

/-! ## Descriptors -/

def bindingFields : List String :=
  ["binding", "provider", "kind", "location", "secret_ref", "metadata", "provider_version",
    "config_fingerprint", "format", "config", "root_ref"]

def evidenceKey : String := "etlantic.parquet_capability_evidence"

/-- The parts of a path between its slashes, without empty ones and dots. -/
def pathParts (location : String) : List (List Char) :=
  (location.toList.splitOn '/').filter fun part => part ≠ [] && part ≠ ['.']

/-- `path.suffix` of a last part. -/
def suffix (name : List Char) : List Char :=
  let tail := name.reverse.takeWhile (· ≠ '.')
  if tail.length + 1 < name.length ∧ tail ≠ [] then '.' :: tail.reverse else []

/-- `parquet_source_location`. -/
def parquetSourceLocation : PyData → Except FusionError Unit
  | .str location =>
      if location = "" ∨ 4096 < location.length ∨
          location.toList.any (fun c => c ∈ "\\:*?[]".toList ∨ c = Char.ofNat 0) ∨
          location.toList.head? = some '~' then
        .error (.value "Parquet source requires a single relative file")
      else if location.toList.head? = some '/' ∨ ['.', '.'] ∈ pathParts location ∨
          suffix ((pathParts location).getLast?.getD []) ≠ ".parquet".toList then
        .error (.value "Parquet source requires a single relative file")
      else .ok ()
  | _ => .error (.value "Parquet source requires a single relative file")

/-- Whether a bound is no integer from 1 on. -/
def outOfBounds (maximum : Int) : Option PyData → Bool
  | some (.int n) => !(0 < n ∧ n ≤ maximum)
  | _ => true

/-- Whether the members do not follow one another from the source on. -/
def unsupportedMembers (sourceNode sourcePort : Identifier) (sourceContract : Contract)
    (first second : FusionMember host) : Bool :=
  sourceNode = first.logicalNode || sourceNode = second.logicalNode ||
    first.logicalNode = second.logicalNode || first.upstreamNode ≠ sourceNode ||
    first.upstreamPort ≠ sourcePort || second.upstreamNode ≠ first.logicalNode ||
    second.upstreamPort ≠ first.outputPort ||
    !same first.inputContract.data sourceContract.data ||
    !same first.outputContract.data first.inputContract.data ||
    !same second.inputContract.data first.outputContract.data

def isNonEmptyText : Option PyData → Bool
  | some (.str s) => s ≠ ""
  | _ => false

def isNone : Option PyData → Bool
  | some .none => true
  | some _ => false
  | none => true

/-- `references == (PARQUET_CAPABILITY_EVIDENCE,)`. -/
def areEvidence (references : List PyData) : Bool :=
  references.length = 1 && isText (parquetCapabilityEvidence host) references.head?

/-- Whether the source is not the one that the evidence is about. -/
def unsupportedSource (binding config : PyData) (proofReferences : List PyData) :
    Except FusionError Bool :=
  pure (!isText "polars-parquet" (binding.get? "provider")) <||>
  pure (!isText "parquet" (binding.get? "format")) <||>
  pure (!isNonEmptyText (binding.get? "provider_version")) <||>
  (fun digest => !isText digest (binding.get? "config_fingerprint")) <$>
    fusionDigest host config <||>
  pure (!isNone (binding.get? "secret_ref")) <||>
  pure (!areEvidence host proofReferences) <||>
  not <$> isText (parquetCapabilityEvidence host) <$>
    getOf evidenceKey ((binding.get? "metadata").getD (.dict []))

/-- The checks of a descriptor. -/
def checkDescriptor (sourceNode sourcePort : Identifier) (sourceContract : Contract)
    (binding : PyData) (first second : FusionMember host) (parameters : PyData)
    (proofReferences : List PyData) : Except FusionError Unit := do
  closed bindingFields binding
  refuse "PMADP403: invalid typed fusion member route"
    (pure (unsupportedMembers host sourceNode sourcePort sourceContract first second))
  parquetSourceLocation ((binding.get? "location").getD .none)
  refuse "PMADP403: unsupported fusion source root/metadata"
    (pure (!isText "workspace" (binding.get? "root_ref")) <||>
      not <$> setIs [evidenceKey] ((binding.get? "metadata").getD (.dict [])))
  let config := (binding.get? "config").getD (.dict [])
  closed ["schema", "max_bytes", "max_rows"] config
  refuse "PMADP403: invalid fusion source configuration"
    (pure (!isText sourceSchema (config.get? "schema")))
  refuse "PMADP403: invalid fusion source bounds"
    (pure (outOfBounds 268435456 (config.get? "max_bytes")))
  refuse "PMADP403: invalid fusion source bounds"
    (pure (outOfBounds 1000000 (config.get? "max_rows")))
  refuse "PMADP403: fusion source identity/evidence mismatch"
    (unsupportedSource host binding config proofReferences)
  checkOperations host first second parameters

/-- Exact source/filter/project composition with frozen identities and proofs. The schema,
the snapshot strategy and the proof references are constants. -/
structure FusionDescriptor where
  sourceNode : Identifier
  sourcePort : Identifier
  sourceBinding : PyData
  sourceContract : Contract
  targetIdentity : Identifier
  compilerName : Identifier
  compilerVersion : Identifier
  compilerEvidence : Identifier
  policyDigest : Identifier
  first : FusionMember host
  second : FusionMember host
  parameters : PyData
  checked : ∃ binding given references, sourceBinding = deepFreeze host binding ∧
    parameters = deepFreeze host given ∧
    checkDescriptor host sourceNode sourcePort sourceContract binding first second given
      references = .ok ()

/-- What the constructor of a descriptor is given. -/
structure DescriptorArgs where
  sourceNode : PyData
  sourcePort : PyData
  sourceBinding : PyData
  sourceContract : PyData
  targetIdentity : PyData
  compilerName : PyData
  compilerVersion : PyData
  compilerEvidence : PyData
  policyDigest : PyData
  members : List (FusionMember host)
  parameters : PyData
  proofReferences : List PyData
  schema : PyData
  snapshotStrategy : PyData

def FusionDescriptor.make (args : DescriptorArgs host) :
    Except FusionError (FusionDescriptor host) := do
  let sourceNode ← identifier args.sourceNode
  let sourcePort ← identifier args.sourcePort
  let targetIdentity ← identifier args.targetIdentity
  let compilerName ← identifier args.compilerName
  let compilerVersion ← identifier args.compilerVersion
  let compilerEvidence ← identifier args.compilerEvidence
  let policyDigest ← identifier args.policyDigest
  refuse "PMADP403: invalid fusion protocol"
    (pure (!isText fusionSchema (some args.schema)) <||>
      pure (!isText snapshotStrategy (some args.snapshotStrategy)))
  let sourceContract ← contract args.sourceContract
  closed bindingFields args.sourceBinding
  match args.members with
  | [first, second] =>
      match h : checkDescriptor host sourceNode sourcePort sourceContract args.sourceBinding first
          second args.parameters args.proofReferences with
      | .error error => .error error
      | .ok () => .ok {
          sourceNode := sourceNode
          sourcePort := sourcePort
          sourceBinding := deepFreeze host args.sourceBinding
          sourceContract := sourceContract
          targetIdentity := targetIdentity
          compilerName := compilerName
          compilerVersion := compilerVersion
          compilerEvidence := compilerEvidence
          policyDigest := policyDigest
          first := first
          second := second
          parameters := deepFreeze host args.parameters
          checked := ⟨args.sourceBinding, args.parameters, args.proofReferences, rfl, rfl, h⟩ }
  | _ => .error (.value "PMADP403: fusion requires exactly two portable members")

section Wire

variable {host}

def FusionDescriptor.toDict (d : FusionDescriptor host) : Except FusionError PyData := do
  let first ← d.first.toDict
  let second ← d.second.toDict
  return .dict [(.str "compiler_evidence", d.compilerEvidence.data),
    (.str "compiler_name", d.compilerName.data),
    (.str "compiler_version", d.compilerVersion.data),
    (.str "member_order", .list [d.first.logicalNode.data, d.second.logicalNode.data]),
    (.str "members", .ofFields
      [(d.first.logicalNode.text, first), (d.second.logicalNode.text, second)]),
    (.str "parameters", mutableCopy d.parameters),
    (.str "policy_digest", d.policyDigest.data),
    (.str "proof_references", .list [.str (parquetCapabilityEvidence host)]),
    (.str "schema", .str fusionSchema),
    (.str "snapshot_strategy", .str snapshotStrategy),
    (.str "source_binding", mutableCopy d.sourceBinding),
    (.str "source_contract", contractWire d.sourceContract),
    (.str "source_node", d.sourceNode.data),
    (.str "source_port", d.sourcePort.data),
    (.str "target_identity", d.targetIdentity.data)]

def FusionDescriptor.fingerprint (d : FusionDescriptor host) : Except FusionError String := do
  fusionDigest host (← d.toDict)

end Wire

def descriptorFields : List String :=
  ["schema", "snapshot_strategy", "source_node", "source_port", "source_binding",
    "source_contract", "target_identity", "compiler_name", "compiler_version",
    "compiler_evidence", "policy_digest", "members", "member_order", "parameters",
    "proof_references"]

/-- The two names of `member_order`, if `members` has just these. -/
def memberOrder (order members : PyData) : Except FusionError (String × String) :=
  match order, members with
  | .list [.str a, .str b], .dict entries =>
      if a ≠ b ∧ sameKeys [a, b] (entries.map Prod.fst) then .ok (a, b)
      else .error (.value "PMADP403: invalid fusion member order")
  | _, _ => .error (.value "PMADP403: invalid fusion member order")

/-- `tuple(value)`. -/
def tupleOf : PyData → Except FusionError (List PyData)
  | .list items => .ok items
  | .set items => .ok items
  | .str s => .ok (s.toList.map fun c => .str (String.singleton c))
  | .dict _ => .error .raised
  | _ => .error .raised

def FusionDescriptor.fromDict (value : PyData) : Except FusionError (FusionDescriptor host) := do
  closed descriptorFields value
  let members ← itemOf "members" value
  let order ← memberOrder (← itemOf "member_order" value) members
  let sourceContract ← contractFromWire (← itemOf "source_contract" value)
  let first ← FusionMember.fromDict host (← itemOf order.1 members)
  let second ← FusionMember.fromDict host (← itemOf order.2 members)
  let proofReferences ← tupleOf (← itemOf "proof_references" value)
  FusionDescriptor.make host {
    sourceNode := ← itemOf "source_node" value
    sourcePort := ← itemOf "source_port" value
    sourceBinding := ← itemOf "source_binding" value
    sourceContract := sourceContract
    targetIdentity := ← itemOf "target_identity" value
    compilerName := ← itemOf "compiler_name" value
    compilerVersion := ← itemOf "compiler_version" value
    compilerEvidence := ← itemOf "compiler_evidence" value
    policyDigest := ← itemOf "policy_digest" value
    members := [first, second]
    parameters := ← itemOf "parameters" value
    proofReferences := proofReferences
    schema := ← itemOf "schema" value
    snapshotStrategy := ← itemOf "snapshot_strategy" value }

/-! ## Composition -/

/-- The entries with one more, in key order among the texts. -/
def putEntry (key : String) (value : PyData) : List (DataKey × PyData) → List (DataKey × PyData)
  | [] => [(.str key, value)]
  | e :: rest =>
      match e.1 with
      | .str name =>
          if name = key then (.str key, value) :: rest
          else if key < name then (.str key, value) :: e :: rest
          else e :: putEntry key value rest
      | _ => e :: putEntry key value rest

/-- `value[key] = item`. -/
def setItem (key : String) (item : PyData) : PyData → Except FusionError PyData
  | .dict entries => .ok (.dict (putEntry key item entries))
  | _ => .error .raised

variable {host}

/-- The action of a member under another name, on another target. -/
def renamedAction (member : FusionMember host) (target identity : String) :
    Except FusionError PyData := do
  let action := mutableCopy (← firstOf ((member.definition.get? "actions").getD .none))
  let action ← setItem "id" (.str identity) action
  let action ← setItem "objectRef" (.str ("semanticActions." ++ identity)) action
  let kind ← setItem "id" (.str identity) (← itemOf "kind" action)
  let kind ← setItem "target" (.str target) kind
  setItem "kind" kind action

/-- `compose_fusion_definition`. -/
def composeFusionDefinition (d : FusionDescriptor host) : Except FusionError PyData := do
  let definition := mutableCopy d.first.definition
  let fingerprint ← d.fingerprint
  let definition ← setItem "transformation" (.str ("fusion:" ++ fingerprint)) definition
  let inputs ← itemOf "inputs" definition
  let input ← setItem "id" (.str "fusion_source") (← itemOf d.first.inputPort.text inputs)
  let definition ← setItem "inputs" (.dict [(.str "fusion_source", input)]) definition
  let filter ← renamedAction d.first "fusion_source" "fusion_filter"
  let project ← renamedAction d.second "fusion_filter" "fusion_project"
  let definition ← setItem "actions" (.list [filter, project]) definition
  let outputs ← itemOf "outputs" d.second.definition
  let definition ← setItem "outputs" (mutableCopy outputs) definition
  let dependency := fun source target reason : String => PyData.dict
    [(.str "from", .str source), (.str "reason", .str reason), (.str "to", .str target)]
  let requirements ← setItem "dependencies" (.list
    [dependency "fusion_source" "fusion_filter" "fieldRead",
      dependency "fusion_filter" "fusion_project" "fieldRead",
      dependency "fusion_project" d.second.outputPort.text "lineage"])
    (← itemOf "requirements" definition)
  setItem "requirements" requirements definition

end Etlantic.Transform.Fusion
