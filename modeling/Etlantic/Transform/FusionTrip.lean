import Etlantic.Transform.Fusion

/-!
# Descriptors through JSON

A descriptor is written as a dictionary, sent as JSON text, and built again from what
is read.  What JSON has comes back as it was: the definitions of the members inside
their base64 texts, the contracts through their records, the rest as it stands.  The
checks see the same data again, so the descriptor that is built is the one that was sent.
-/

namespace Etlantic.Transform.Fusion

open Checked (bind_eq_ok andThen_eq_ok ok_bind)
open PyData (JsonData JsonItems JsonFields TextKeys)

variable {host : FusionHost}

/-! ## Freezing -/

mutual

/-- A frozen value that JSON has is what was frozen. -/
theorem deepFreeze_of_json : ∀ {value : PyData}, JsonData (deepFreeze host value) →
    deepFreeze host value = value
  | .none, _ => rfl
  | .bool _, _ => rfl
  | .int _, _ => rfl
  | .float _, _ => rfl
  | .str _, _ => rfl
  | .list items, h => by
      rw [deepFreeze] at h ⊢
      rw [freezeItems_of_json h]
  | .set items, h => by
      rw [deepFreeze] at h
      exact h.elim
  | .dict entries, h => by
      rw [deepFreeze] at h ⊢
      rw [freezeEntries_of_json h.2]
  | .object, _ => rfl

theorem freezeItems_of_json : ∀ {items : List PyData}, JsonItems (freezeItems host items) →
    freezeItems host items = items
  | [], _ => rfl
  | item :: rest, h => by
      rw [freezeItems] at h ⊢
      rw [deepFreeze_of_json h.1, freezeItems_of_json h.2]

theorem freezeEntries_of_json : ∀ {entries : List (DataKey × PyData)},
    JsonFields (freezeEntries host entries) → freezeEntries host entries = entries
  | [], _ => rfl
  | (key, value) :: rest, h => by
      rw [freezeEntries] at h ⊢
      rw [deepFreeze_of_json h.1, freezeEntries_of_json h.2]

end

mutual

theorem mutableCopy_json : ∀ {value : PyData}, JsonData value → mutableCopy value = value
  | .none, _ => rfl
  | .bool _, _ => rfl
  | .int _, _ => rfl
  | .float _, _ => rfl
  | .str _, _ => rfl
  | .list items, h => by rw [mutableCopy, copyItems_json h]
  | .set items, h => h.elim
  | .dict entries, h => by rw [mutableCopy, copyEntries_json h.2]
  | .object, _ => rfl

theorem copyItems_json : ∀ {items : List PyData}, JsonItems items → copyItems items = items
  | [], _ => rfl
  | item :: rest, h => by rw [copyItems, mutableCopy_json h.1, copyItems_json h.2]

theorem copyEntries_json : ∀ {entries : List (DataKey × PyData)}, JsonFields entries →
    copyEntries entries = entries
  | [], _ => rfl
  | (key, value) :: rest, h => by rw [copyEntries, mutableCopy_json h.1, copyEntries_json h.2]

end

/-! ## Checks -/

theorem refuse_eq_ok {message : String} {found : Except FusionError Bool} :
    refuse message found = .ok () ↔ found = .ok false := by
  unfold refuse
  cases found with
  | error error =>
      refine iff_of_false ?_ ?_
      · intro h
        cases h
      · intro h
        cases h
  | ok b =>
      cases b with
      | false => exact iff_of_true rfl rfl
      | true =>
          refine iff_of_false ?_ ?_
          · intro h
            cases h
          · intro h
            cases h

theorem orRaised_eq_ok {α : Type} {x : Option α} {a : α} : orRaised x = .ok a ↔ x = some a := by
  cases x with
  | none =>
      refine iff_of_false ?_ ?_
      · intro h
        cases h
      · intro h
        cases h
  | some b =>
      unfold orRaised
      rw [Except.ok.injEq, Option.some.injEq]

/-- No part of a disjunction holds. -/
theorem or_eq_false {x y : Except FusionError Bool} :
    (x <||> y) = .ok false ↔ x = .ok false ∧ y = .ok false := by
  cases x with
  | error error =>
      refine iff_of_false ?_ ?_
      · intro h
        cases h
      · rintro ⟨h, -⟩
        cases h
  | ok b =>
      cases b with
      | false => exact (and_iff_right rfl).symm
      | true =>
          refine iff_of_false ?_ ?_
          · intro h
            cases h
          · rintro ⟨h, -⟩
            cases h

/-! ## Identifiers and contracts -/

theorem identifier_data (id : Identifier) : identifier id.data = .ok id := by
  unfold identifier Identifier.data
  simp only
  rw [dif_pos ⟨id.nonEmpty, id.bounded⟩]

theorem identifier_str {name : String} (h : name ≠ "" ∧ name.length ≤ 4096) :
    identifier (.str name) = .ok ⟨name, h.1, h.2⟩ :=
  dif_pos h

theorem fieldType_text (type : FieldType) : fieldType (.str type.text) = .ok type := by
  cases type with
  | int64 => rfl
  | boolean => rfl

theorem contractFields_entries : ∀ {fields : List (String × FieldType)},
    (∀ field ∈ fields, field.1 ≠ "" ∧ field.1.length ≤ 4096) →
      ∃ named, contractFields (fieldEntries fields) = .ok named ∧
        named.map (fun field => (field.1.text, field.2)) = fields
  | [], _ => ⟨[], rfl, rfl⟩
  | (name, type) :: rest, h => by
      obtain ⟨named, hnamed, hback⟩ :=
        contractFields_entries fun field hfield => h field (List.mem_cons_of_mem _ hfield)
      have hname := h _ List.mem_cons_self
      refine ⟨(⟨name, hname.1, hname.2⟩, type) :: named, ?_, ?_⟩
      · show contractFields ((.str name, .str type.text) :: fieldEntries rest) = _
        rw [contractFields, identifier_str hname, ok_bind, fieldType_text, ok_bind, hnamed]
        rfl
      · rw [List.map_cons, hback]

theorem Contract.eq_of_fields {c c' : Contract} (hid : c.id = c'.id)
    (hfingerprint : c.fingerprint = c'.fingerprint) (hfields : c.fields = c'.fields) : c = c' := by
  cases c
  cases c'
  cases hid
  cases hfingerprint
  cases hfields
  rfl

/-- A contract is what its mapping describes. -/
theorem contract_data (c : Contract) : contract c.data = .ok c := by
  obtain ⟨named, hnamed, hback⟩ := contractFields_entries c.named
  have hclosed : closed ["id", "fingerprint", "fields"] c.data = .ok () := rfl
  have hid : (c.data.get? "id").getD .none = c.id.data := rfl
  have hfingerprint : (c.data.get? "fingerprint").getD .none = c.fingerprint.data := rfl
  have hfields : c.data.get? "fields" = some (.dict (fieldEntries c.fields)) := rfl
  have hsize : ¬ (fieldEntries c.fields = [] ∨ 8 < (fieldEntries c.fields).length) := by
    unfold fieldEntries
    rw [List.map_eq_nil_iff, List.length_map, not_or]
    exact ⟨c.nonEmpty, not_lt.mpr c.bounded⟩
  have hitems : orderedItems (named.map fun field => (field.1.text, field.2)) = c.fields := by
    rw [hback, orderedItems_of_ordered c.ordered]
  unfold contract
  rw [hclosed, ok_bind, hid, identifier_data, ok_bind, hfingerprint, identifier_data, ok_bind,
    hfields]
  simp only
  rw [if_neg hsize, hnamed, ok_bind]
  rw [dif_pos (by rw [hitems]; exact ⟨c.nonEmpty, c.bounded⟩)]
  exact congrArg Except.ok (Contract.eq_of_fields rfl rfl hitems)

/-- The record of a field. -/
def fieldRecord (field : String × FieldType) : PyData :=
  .dict [(.str "column", .str field.1), (.str "dtype", .str field.2.text)]

theorem wireFields_records : ∀ {fields : List (String × FieldType)}
    {put : List (String × PyData)},
    (∀ field ∈ fields, field.1 ≠ "" ∧ field.1.length ≤ 4096) →
      KeysOrdered (put ++ fields.map fun field => (field.1, PyData.str field.2.text)) →
        wireFields (fields.map fieldRecord) put =
          .ok (put ++ fields.map fun field => (field.1, .str field.2.text))
  | [], put, _, _ => by
      rw [List.map_nil, List.map_nil, List.append_nil]
      rfl
  | (name, type) :: rest, put, hnamed, hordered => by
      have hname : name ≠ "" ∧ name.length ≤ 4096 := hnamed _ List.mem_cons_self
      have hbehind : ∀ e ∈ put, e.1 < name := by
        intro e he
        unfold KeysOrdered at hordered
        rw [List.map_append, List.pairwise_append] at hordered
        exact hordered.2.2 e.1 (List.mem_map_of_mem he) name List.mem_cons_self
      have hfresh : put.any (fun field => field.1 = name) = false := by
        rw [List.any_eq_false]
        intro e he
        simp only [decide_eq_true_eq]
        exact (hbehind e he).ne
      have hclosed : closed ["column", "dtype"] (fieldRecord (name, type)) = .ok () := rfl
      have hcolumn : ((fieldRecord (name, type)).get? "column").getD .none = .str name := rfl
      have hdtype : ((fieldRecord (name, type)).get? "dtype").getD .none = .str type.text := rfl
      have hnamed' : ∀ field ∈ rest, field.1 ≠ "" ∧ field.1.length ≤ 4096 :=
        fun field hfield => hnamed field (List.mem_cons_of_mem _ hfield)
      have hordered' : KeysOrdered ((put ++ [(name, PyData.str type.text)]) ++
          rest.map fun field => (field.1, PyData.str field.2.text)) := by
        rw [List.append_assoc]
        exact hordered
      have hrest := wireFields_records hnamed' hordered'
      rw [List.map_cons, wireFields, hclosed, ok_bind, hcolumn, identifier_str hname, ok_bind]
      simp only
      rw [hfresh, if_neg (by simp), hdtype, putOrdered_last hbehind, hrest, List.append_assoc]
      rfl

/-- A contract that was written is read as its mapping. -/
theorem contractFromWire_wire (c : Contract) : contractFromWire (contractWire c) = .ok c.data := by
  have hclosed : closed ["id", "fingerprint", "etlantic.fields"] (contractWire c) = .ok () := rfl
  have hrecords : (contractWire c).get? "etlantic.fields" =
      some (.list (c.fields.map fieldRecord)) := rfl
  have hid : ((contractWire c).get? "id").getD .none = c.id.data := rfl
  have hfingerprint : ((contractWire c).get? "fingerprint").getD .none = c.fingerprint.data := rfl
  have hsize : ¬ (c.fields.map fieldRecord = [] ∨ 8 < (c.fields.map fieldRecord).length) := by
    rw [List.map_eq_nil_iff, List.length_map, not_or]
    exact ⟨c.nonEmpty, not_lt.mpr c.bounded⟩
  have hordered : KeysOrdered ([] ++ c.fields.map fun field =>
      (field.1, PyData.str field.2.text)) := by
    unfold KeysOrdered
    rw [List.nil_append, List.map_map]
    exact c.ordered
  have hfields : (c.fields.map fun field => (field.1, PyData.str field.2.text)).map
      (fun field => (DataKey.str field.1, field.2)) = fieldEntries c.fields := by
    rw [List.map_map]
    rfl
  unfold contractFromWire
  rw [hclosed, ok_bind, hrecords]
  simp only
  rw [if_neg hsize, wireFields_records c.named hordered, ok_bind, hid, hfingerprint,
    List.nil_append, hfields]
  have hcontract : contract (.dict [(.str "fields", .dict (fieldEntries c.fields)),
      (.str "fingerprint", c.fingerprint.data), (.str "id", c.id.data)]) = .ok c :=
    contract_data c
  rw [hcontract]
  rfl

/-! ## What is written is JSON data -/

theorem contractWire_json (c : Contract) : JsonData (contractWire c) := by
  have hrecords : JsonItems (c.fields.map fieldRecord) := by
    rw [PyData.jsonItems_iff]
    intro item hitem
    obtain ⟨field, -, rfl⟩ := List.mem_map.mp hitem
    exact ⟨⟨["column", "dtype"], rfl, by decide⟩, trivial, trivial, trivial⟩
  exact ⟨⟨["etlantic.fields", "fingerprint", "id"], rfl, by decide⟩, hrecords, trivial, trivial,
    trivial⟩

/-! ## Members -/

/-- What was stored is read back as JSON reads it. -/
theorem decodePlan_encoded {json : Json} (hformed : json.WellFormed) :
    decodePlan (String.ofList (Base64.encode (utf8Bytes
      (json.encode Json.escapeAscii .compact 0)))) = some (.ofJson json) := by
  have hread : Json.loads (json.encode Json.escapeAscii .compact 0) = some json :=
    Json.loads_encode Json.escapeAscii_readable hformed
  unfold decodePlan
  rw [String.toList_ofList, Base64.decode_encode, Option.bind_eq_bind, Option.bind_some,
    utf8Text_utf8Bytes, Option.bind_eq_bind, Option.bind_some, hread]
  rfl

/-- The base64 of a text within the bound is within the bound for base64. -/
theorem length_encoded {json : Json}
    (hsize : byteLength (json.encode Json.escapeAscii .inline 0) ≤ descriptorBound) :
    (String.ofList (Base64.encode (utf8Bytes
      (json.encode Json.escapeAscii .compact 0)))).length ≤ 350000 := by
  have hcompact : (utf8Bytes (json.encode Json.escapeAscii .compact 0)).length ≤
      byteLength (json.encode Json.escapeAscii .inline 0) := length_compact_le _ json 0 0
  have hbound : (utf8Bytes (json.encode Json.escapeAscii .compact 0)).length ≤ 262144 :=
    hcompact.trans hsize
  rw [String.length_ofList, Base64.length_encode]
  omega

/-- The arguments that a member was built with, with this definition. -/
def FusionMember.args (member : FusionMember host) (definition : PyData) : MemberArgs where
  logicalNode := member.logicalNode.data
  upstreamNode := member.upstreamNode.data
  upstreamPort := member.upstreamPort.data
  inputPort := member.inputPort.data
  outputPort := member.outputPort.data
  inputContract := member.inputContract.data
  outputContract := member.outputContract.data
  definition := definition
  irFingerprint := member.irFingerprint.data

/-- What a member writes. -/
def memberDict (member : FusionMember host) (json : Json) : PyData :=
  .dict [(.str "input_contract", contractWire member.inputContract),
    (.str "input_port", member.inputPort.data),
    (.str "ir_fingerprint", member.irFingerprint.data),
    (.str "logical_node", member.logicalNode.data),
    (.str "output_contract", contractWire member.outputContract),
    (.str "output_port", member.outputPort.data),
    (.str "portable_plan_json", .str (String.ofList (Base64.encode (utf8Bytes
      (json.encode Json.escapeAscii .compact 0))))),
    (.str "upstream_node", member.upstreamNode.data),
    (.str "upstream_port", member.upstreamPort.data)]

theorem toDict_eq (member : FusionMember host) {json : Json}
    (hjson : (mutableCopy member.definition).image true = some json) :
    member.toDict = .ok (memberDict member json) := by
  unfold FusionMember.toDict encodePlan
  rw [hjson]
  rfl

theorem memberDict_json (member : FusionMember host) (json : Json) :
    JsonData (memberDict member json) :=
  ⟨⟨["input_contract", "input_port", "ir_fingerprint", "logical_node", "output_contract",
    "output_port", "portable_plan_json", "upstream_node", "upstream_port"], rfl, by decide⟩,
    contractWire_json _, trivial, trivial, trivial, contractWire_json _, trivial, trivial, trivial,
    trivial, trivial⟩

/-- A member is built from what it wrote with the definition that JSON read. -/
theorem fromDict_memberDict (member : FusionMember host) {json : Json}
    (hformed : json.WellFormed)
    (hsize : byteLength (json.encode Json.escapeAscii .inline 0) ≤ descriptorBound) :
    FusionMember.fromDict host (memberDict member json) =
      FusionMember.make host (member.args (.ofJson json)) := by
  have hclosed : closed memberFields (memberDict member json) = .ok () := rfl
  have hplan : (memberDict member json).get? "portable_plan_json" =
      some (.str (String.ofList (Base64.encode (utf8Bytes
        (json.encode Json.escapeAscii .compact 0))))) := rfl
  have hinput : ((memberDict member json).get? "input_contract").getD .none =
      contractWire member.inputContract := rfl
  have houtput : ((memberDict member json).get? "output_contract").getD .none =
      contractWire member.outputContract := rfl
  unfold FusionMember.fromDict
  rw [hclosed, ok_bind, hplan]
  simp only
  rw [if_neg (not_lt.mpr (length_encoded hsize)), decodePlan_encoded hformed, hinput, houtput,
    contractFromWire_wire, contractFromWire_wire]
  rfl

/-- A member with the same definition is the same member. -/
theorem FusionMember.eq_of_data {m : FusionMember host} {definition : PyData} {checked}
    (h : definition = m.definition) :
    { m with definition := definition, checked := checked } = m := by
  cases h
  rfl

/-- A member with JSON data is built again from its own data. -/
theorem make_args (member : FusionMember host) (hjson : JsonData member.definition) :
    FusionMember.make host (member.args member.definition) = .ok member := by
  obtain ⟨given, hfrozen, hchecked⟩ := member.checked
  have hgiven : given = member.definition := by
    rw [hfrozen] at hjson ⊢
    exact (deepFreeze_of_json hjson).symm
  subst hgiven
  unfold FusionMember.make FusionMember.args
  simp only [identifier_data, contract_data, ok_bind]
  split
  · rename_i error herror
    rw [hchecked] at herror
    cases herror
  · exact congrArg Except.ok (FusionMember.eq_of_data hfrozen.symm)

/-- The JSON that a member's definition is written as, and that it fits. -/
structure Written (member : FusionMember host) (json : Json) : Prop where
  image : (mutableCopy member.definition).image true = some json
  formed : json.WellFormed
  size : byteLength (json.encode Json.escapeAscii .inline 0) ≤ descriptorBound

/-- A definition with JSON data is read as it was written. -/
theorem definition_json (member : FusionMember host) (hjson : JsonData member.definition) :
    ∃ json, Written member json ∧ PyData.ofJson json = member.definition := by
  obtain ⟨given, hfrozen, hchecked⟩ := member.checked
  have hgiven : given = member.definition := by
    rw [hfrozen] at hjson ⊢
    exact (deepFreeze_of_json hjson).symm
  subst hgiven
  obtain ⟨json, himage, hformed, hback⟩ := PyData.ofJson_image hjson
  have hwritten : (mutableCopy member.definition).image true = some json := by
    rw [mutableCopy_json hjson, himage]
  refine ⟨json, ⟨hwritten, hformed, ?_⟩, hback⟩
  unfold checkDefinition at hchecked
  obtain ⟨-, hchecked⟩ := andThen_eq_ok.mp hchecked
  obtain ⟨-, hchecked⟩ := andThen_eq_ok.mp hchecked
  obtain ⟨text, htext, hchecked⟩ := bind_eq_ok.mp hchecked
  rw [mutableCopy_json hjson, himage] at htext
  obtain rfl := Option.some.inj (orRaised_eq_ok.mp htext)
  obtain ⟨hsize, -⟩ := andThen_eq_ok.mp hchecked
  have hwithin := Except.ok.inj (refuse_eq_ok.mp hsize)
  simpa using hwithin

/-! ## Descriptors -/

/-- `from_dict(json.loads(json.dumps(d.to_dict())))`. -/
def reread (d : FusionDescriptor host) : Except FusionError (FusionDescriptor host) := do
  let data ← d.toDict
  let json ← orRaised (data.image false)
  let back ← orRaised (Json.loads (json.encode Json.escapeAscii .inline 0))
  FusionDescriptor.fromDict host (.ofJson back)

/-- The descriptor that is read again validates, with the same fingerprint and the same
composed definition. -/
def SurvivesJson (d : FusionDescriptor host) : Prop :=
  ∃ d' fingerprint, reread d = .ok d' ∧ d.fingerprint = .ok fingerprint ∧
    d'.fingerprint = .ok fingerprint ∧ composeFusionDefinition d' = composeFusionDefinition d

/-- What the members, the source and the parameters carry is JSON data. -/
structure CarriesJson (d : FusionDescriptor host) : Prop where
  first : JsonData d.first.definition
  second : JsonData d.second.definition
  sourceBinding : JsonData d.sourceBinding
  parameters : JsonData d.parameters

/-- The members under their names, in key order. -/
theorem ofFields_two {a b : String} (h : a ≠ b) (x y : PyData) :
    (a < b ∧ PyData.ofFields [(a, x), (b, y)] = .dict [(.str a, x), (.str b, y)]) ∨
      b < a ∧ PyData.ofFields [(a, x), (b, y)] = .dict [(.str b, y), (.str a, x)] := by
  have hitems : orderedItems [(a, x), (b, y)] = putOrdered b y [(a, x)] := rfl
  rcases lt_or_gt_of_ne h with hlt | hlt
  · refine .inl ⟨hlt, ?_⟩
    unfold PyData.ofFields
    rw [hitems, putOrdered, if_neg hlt.not_gt, if_neg (Ne.symm h)]
    rfl
  · refine .inr ⟨hlt, ?_⟩
    unfold PyData.ofFields
    rw [hitems, putOrdered, if_pos hlt]
    rfl

theorem memberOrder_ofFields {a b : String} (h : a ≠ b) (x y : PyData) :
    memberOrder (.list [.str a, .str b]) (PyData.ofFields [(a, x), (b, y)]) = .ok (a, b) := by
  rcases ofFields_two h x y with ⟨-, heq⟩ | ⟨-, heq⟩
  · rw [heq, memberOrder]
    simp [sameKeys, h]
  · rw [heq, memberOrder]
    simp [sameKeys, h]

theorem itemOf_ofFields {a b : String} (h : a ≠ b) (x y : PyData) :
    itemOf a (PyData.ofFields [(a, x), (b, y)]) = .ok x ∧
      itemOf b (PyData.ofFields [(a, x), (b, y)]) = .ok y := by
  rcases ofFields_two h x y with ⟨-, heq⟩ | ⟨-, heq⟩
  · rw [heq]
    simp [itemOf, PyData.get?, orRaised, h]
  · rw [heq]
    simp [itemOf, PyData.get?, orRaised, h.symm]

theorem ofFields_json {a b : String} (h : a ≠ b) {x y : PyData} (hx : JsonData x)
    (hy : JsonData y) : JsonData (PyData.ofFields [(a, x), (b, y)]) := by
  rcases ofFields_two h x y with ⟨hlt, heq⟩ | ⟨hlt, heq⟩
  · rw [heq]
    exact ⟨⟨[a, b], rfl, by simpa using hlt⟩, hx, hy, trivial⟩
  · rw [heq]
    exact ⟨⟨[b, a], rfl, by simpa using hlt⟩, hy, hx, trivial⟩

/-- The arguments that a descriptor was built with, with these members and this data. -/
def FusionDescriptor.args (d : FusionDescriptor host) (first second : FusionMember host)
    (sourceBinding parameters : PyData) : DescriptorArgs host where
  sourceNode := d.sourceNode.data
  sourcePort := d.sourcePort.data
  sourceBinding := sourceBinding
  sourceContract := d.sourceContract.data
  targetIdentity := d.targetIdentity.data
  compilerName := d.compilerName.data
  compilerVersion := d.compilerVersion.data
  compilerEvidence := d.compilerEvidence.data
  policyDigest := d.policyDigest.data
  members := [first, second]
  parameters := parameters
  proofReferences := [.str (parquetCapabilityEvidence host)]
  schema := .str fusionSchema
  snapshotStrategy := .str snapshotStrategy

/-- What a descriptor writes. -/
def descriptorDict (d : FusionDescriptor host) (first second sourceBinding parameters : PyData) :
    PyData :=
  .dict [(.str "compiler_evidence", d.compilerEvidence.data),
    (.str "compiler_name", d.compilerName.data),
    (.str "compiler_version", d.compilerVersion.data),
    (.str "member_order", .list [d.first.logicalNode.data, d.second.logicalNode.data]),
    (.str "members", .ofFields
      [(d.first.logicalNode.text, first), (d.second.logicalNode.text, second)]),
    (.str "parameters", parameters),
    (.str "policy_digest", d.policyDigest.data),
    (.str "proof_references", .list [.str (parquetCapabilityEvidence host)]),
    (.str "schema", .str fusionSchema),
    (.str "snapshot_strategy", .str snapshotStrategy),
    (.str "source_binding", sourceBinding),
    (.str "source_contract", contractWire d.sourceContract),
    (.str "source_node", d.sourceNode.data),
    (.str "source_port", d.sourcePort.data),
    (.str "target_identity", d.targetIdentity.data)]

theorem descriptorDict_json (d : FusionDescriptor host) {first second sourceBinding
    parameters : PyData} (hnames : d.first.logicalNode.text ≠ d.second.logicalNode.text)
    (hfirst : JsonData first) (hsecond : JsonData second) (hbinding : JsonData sourceBinding)
    (hparameters : JsonData parameters) :
    JsonData (descriptorDict d first second sourceBinding parameters) :=
  ⟨⟨["compiler_evidence", "compiler_name", "compiler_version", "member_order", "members",
    "parameters", "policy_digest", "proof_references", "schema", "snapshot_strategy",
    "source_binding", "source_contract", "source_node", "source_port", "target_identity"], rfl,
    by decide⟩, trivial, trivial, trivial, ⟨trivial, trivial, trivial⟩,
    ofFields_json hnames hfirst hsecond, hparameters, trivial, ⟨trivial, trivial⟩, trivial,
    trivial, hbinding, contractWire_json _, trivial, trivial, trivial, trivial⟩

/-- A descriptor is built from what was written with the members that are built from theirs. -/
theorem fromDict_descriptorDict (d : FusionDescriptor host) {first second sourceBinding
    parameters : PyData} (hnames : d.first.logicalNode.text ≠ d.second.logicalNode.text) :
    FusionDescriptor.fromDict host (descriptorDict d first second sourceBinding parameters) =
      FusionMember.fromDict host first >>= fun firstMember =>
        FusionMember.fromDict host second >>= fun secondMember =>
          FusionDescriptor.make host
            (d.args firstMember secondMember sourceBinding parameters) := by
  have hclosed : closed descriptorFields
      (descriptorDict d first second sourceBinding parameters) = .ok () := rfl
  have hmembers : itemOf "members" (descriptorDict d first second sourceBinding parameters) =
      .ok (.ofFields
        [(d.first.logicalNode.text, first), (d.second.logicalNode.text, second)]) := rfl
  have horder : itemOf "member_order"
      (descriptorDict d first second sourceBinding parameters) =
      .ok (.list [.str d.first.logicalNode.text, .str d.second.logicalNode.text]) := rfl
  have hcontract : itemOf "source_contract"
      (descriptorDict d first second sourceBinding parameters) =
      .ok (contractWire d.sourceContract) := rfl
  obtain ⟨hitem, hitem'⟩ := itemOf_ofFields hnames first second
  unfold FusionDescriptor.fromDict
  rw [hclosed, ok_bind, hmembers, ok_bind, horder, ok_bind, memberOrder_ofFields hnames, ok_bind,
    hcontract, ok_bind, contractFromWire_wire, ok_bind, hitem, ok_bind]
  refine bind_congr fun firstMember => ?_
  rw [hitem', ok_bind]
  rfl

/-- Only the evidence is accepted as reference, and the members have different names. -/
theorem checked_descriptor {sourceNode sourcePort : Identifier} {sourceContract : Contract}
    {binding parameters : PyData} {first second : FusionMember host} {references : List PyData}
    (h : checkDescriptor host sourceNode sourcePort sourceContract binding first second parameters
      references = .ok ()) :
    references = [.str (parquetCapabilityEvidence host)] ∧
      first.logicalNode.text ≠ second.logicalNode.text := by
  unfold checkDescriptor at h
  obtain ⟨-, h⟩ := andThen_eq_ok.mp h
  obtain ⟨hmembers, h⟩ := andThen_eq_ok.mp h
  obtain ⟨-, h⟩ := andThen_eq_ok.mp h
  obtain ⟨-, h⟩ := andThen_eq_ok.mp h
  obtain ⟨-, h⟩ := andThen_eq_ok.mp h
  obtain ⟨-, h⟩ := andThen_eq_ok.mp h
  obtain ⟨-, h⟩ := andThen_eq_ok.mp h
  obtain ⟨-, h⟩ := andThen_eq_ok.mp h
  obtain ⟨hsource, -⟩ := andThen_eq_ok.mp h
  constructor
  · have hfound := refuse_eq_ok.mp hsource
    unfold unsupportedSource at hfound
    simp only [or_eq_false] at hfound
    have hreferences : areEvidence host references = true := by
      have := Except.ok.inj hfound.2.2.2.2.2.1
      simpa using this
    unfold areEvidence at hreferences
    rw [Bool.and_eq_true, decide_eq_true_eq] at hreferences
    obtain ⟨hlength, htext⟩ := hreferences
    obtain ⟨reference, rfl⟩ := List.length_eq_one_iff.mp hlength
    cases reference with
    | str text =>
        have htext : text = parquetCapabilityEvidence host := by simpa [isText] using htext
        rw [htext]
    | none => cases htext
    | bool b => cases htext
    | int n => cases htext
    | float repr => cases htext
    | list items => cases htext
    | set items => cases htext
    | dict entries => cases htext
    | object => cases htext
  · have hroute := Except.ok.inj (refuse_eq_ok.mp hmembers)
    unfold unsupportedMembers at hroute
    simp only [Bool.or_eq_false_iff, decide_eq_false_iff_not] at hroute
    intro heq
    have hne : first.logicalNode ≠ second.logicalNode := hroute.1.1.1.1.1.1.1.2
    apply hne
    cases hfirst : first.logicalNode
    cases hsecond : second.logicalNode
    rw [hfirst, hsecond] at heq
    cases heq
    rfl

/-- A descriptor with other data, but the same, is the same descriptor. -/
theorem FusionDescriptor.eq_of_data {d : FusionDescriptor host} {binding parameters : PyData}
    {checked} (hbinding : binding = d.sourceBinding) (hparameters : parameters = d.parameters) :
    { d with sourceBinding := binding, parameters := parameters, checked := checked } = d := by
  cases hbinding
  cases hparameters
  rfl

/-- A descriptor with JSON data is built again from its own data. -/
theorem make_descriptor_args (d : FusionDescriptor host) (hjson : CarriesJson d) :
    FusionDescriptor.make host (d.args d.first d.second d.sourceBinding d.parameters) = .ok d := by
  obtain ⟨binding, given, references, hbinding, hgiven, hchecked⟩ := d.checked
  have hsame : binding = d.sourceBinding := by
    have hdata := hjson.sourceBinding
    rw [hbinding] at hdata ⊢
    exact (deepFreeze_of_json hdata).symm
  have hsame' : given = d.parameters := by
    have hdata := hjson.parameters
    rw [hgiven] at hdata ⊢
    exact (deepFreeze_of_json hdata).symm
  obtain ⟨rfl, -⟩ := checked_descriptor hchecked
  subst hsame hsame'
  have hprotocol : refuse "PMADP403: invalid fusion protocol"
      (pure (!isText fusionSchema (some (.str fusionSchema))) <||>
        pure (!isText snapshotStrategy (some (.str snapshotStrategy)))) = .ok () := rfl
  have hclosed : closed bindingFields d.sourceBinding = .ok () := by
    unfold checkDescriptor at hchecked
    exact (andThen_eq_ok.mp hchecked).1
  unfold FusionDescriptor.make FusionDescriptor.args
  simp only [identifier_data, contract_data, ok_bind]
  rw [hprotocol, ok_bind, hclosed, ok_bind]
  split
  · rename_i error herror
    rw [hchecked] at herror
    cases herror
  · exact congrArg Except.ok (FusionDescriptor.eq_of_data hbinding.symm hgiven.symm)

/-- What is written of a descriptor, whatever its members carry. -/
theorem toDict_written (d : FusionDescriptor host) {first second : Json}
    (hfirst : Written d.first first) (hsecond : Written d.second second)
    (hbinding : JsonData d.sourceBinding) (hparameters : JsonData d.parameters) :
    d.toDict = .ok (descriptorDict d (memberDict d.first first) (memberDict d.second second)
        d.sourceBinding d.parameters) ∧
      JsonData (descriptorDict d (memberDict d.first first) (memberDict d.second second)
        d.sourceBinding d.parameters) := by
  obtain ⟨binding, given, references, -, -, hchecked⟩ := d.checked
  have hnames := (checked_descriptor hchecked).2
  constructor
  · unfold FusionDescriptor.toDict
    rw [toDict_eq d.first hfirst.image, ok_bind, toDict_eq d.second hsecond.image, ok_bind,
      mutableCopy_json hparameters, mutableCopy_json hbinding]
    rfl
  · exact descriptorDict_json d hnames (memberDict_json _ _) (memberDict_json _ _) hbinding
      hparameters

/-- A descriptor is built again from members with the definitions that JSON read. -/
theorem reread_written (d : FusionDescriptor host) {first second : Json}
    (hfirst : Written d.first first) (hsecond : Written d.second second)
    (hbinding : JsonData d.sourceBinding) (hparameters : JsonData d.parameters) :
    reread d = FusionMember.make host (d.first.args (.ofJson first)) >>= fun firstMember =>
      FusionMember.make host (d.second.args (.ofJson second)) >>= fun secondMember =>
        FusionDescriptor.make host
          (d.args firstMember secondMember d.sourceBinding d.parameters) := by
  obtain ⟨hdict, hdata⟩ := toDict_written d hfirst hsecond hbinding hparameters
  obtain ⟨binding, given, references, -, -, hchecked⟩ := d.checked
  have hnames := (checked_descriptor hchecked).2
  obtain ⟨json, himage, hformed, hback⟩ := PyData.ofJson_image hdata
  have hread : Json.loads (json.encode Json.escapeAscii .inline 0) = some json :=
    Json.loads_encode Json.escapeAscii_readable hformed
  unfold reread
  rw [hdict, ok_bind, himage false, orRaised, ok_bind, hread, orRaised, ok_bind, hback,
    fromDict_descriptorDict d hnames, fromDict_memberDict d.first hfirst.formed hfirst.size,
    fromDict_memberDict d.second hsecond.formed hsecond.size]

/-- Sent as JSON text, a descriptor with JSON data is the same descriptor. -/
theorem reread_json (d : FusionDescriptor host) (hjson : CarriesJson d) : reread d = .ok d := by
  obtain ⟨first, hfirst, hback⟩ := definition_json d.first hjson.first
  obtain ⟨second, hsecond, hback'⟩ := definition_json d.second hjson.second
  rw [reread_written d hfirst hsecond hjson.sourceBinding hjson.parameters, hback, hback',
    make_args d.first hjson.first, ok_bind, make_args d.second hjson.second, ok_bind]
  exact make_descriptor_args d hjson

/-- Every descriptor that validates and carries JSON data validates again when it is read
from its JSON text, with the same fingerprint and the same composed definition. -/
theorem survivesJson (d : FusionDescriptor host) (hjson : CarriesJson d) : SurvivesJson d := by
  obtain ⟨first, hfirst, -⟩ := definition_json d.first hjson.first
  obtain ⟨second, hsecond, -⟩ := definition_json d.second hjson.second
  obtain ⟨hdict, hdata⟩ := toDict_written d hfirst hsecond hjson.sourceBinding hjson.parameters
  obtain ⟨json, himage, -, -⟩ := PyData.ofJson_image hdata
  have hfingerprint : ∃ fingerprint, d.fingerprint = .ok fingerprint := by
    unfold FusionDescriptor.fingerprint fusionDigest
    rw [hdict, ok_bind, mutableCopy_json hdata, himage true]
    exact ⟨_, rfl⟩
  obtain ⟨fingerprint, hfingerprint⟩ := hfingerprint
  exact ⟨d, fingerprint, reread_json d hjson, hfingerprint, hfingerprint, rfl⟩

/-! ## Keys that are no texts -/

theorem get?_putEntry {key other : String} (h : other ≠ key) (item : PyData) :
    ∀ entries : List (DataKey × PyData),
      PyData.get? other (.dict (putEntry key item entries)) = PyData.get? other (.dict entries)
  | [] => by simp [putEntry, PyData.get?, Ne.symm h]
  | (k, value) :: rest => by
      have ih := get?_putEntry h item rest
      unfold PyData.get? at ih ⊢
      unfold putEntry
      cases k with
      | str name =>
          simp only
          split
          · rename_i heq
            subst heq
            simp [Ne.symm h]
          · split
            · simp [Ne.symm h]
            · by_cases hname : name = other
              · simp [hname]
              · simpa [hname] using ih
      | int n => simpa using ih
      | float repr => simpa using ih
      | bool b => simpa using ih
      | none => simpa using ih

theorem get?_setItem {key other : String} (h : other ≠ key) {item value value' : PyData}
    (hset : setItem key item value = .ok value') : value'.get? other = value.get? other := by
  cases value with
  | dict entries =>
      obtain rfl := Except.ok.inj hset
      exact get?_putEntry h item entries
  | none => cases hset
  | bool b => cases hset
  | int n => cases hset
  | float repr => cases hset
  | str s => cases hset
  | list items => cases hset
  | set items => cases hset
  | object => cases hset

/-- The composed definition keeps the registry versions of the first member. -/
theorem compose_registry {d : FusionDescriptor host} {composed : PyData}
    (h : composeFusionDefinition d = .ok composed) :
    composed.get? "registryVersions" =
      (mutableCopy d.first.definition).get? "registryVersions" := by
  unfold composeFusionDefinition at h
  obtain ⟨fingerprint, -, h⟩ := bind_eq_ok.mp h
  obtain ⟨named, hnamed, h⟩ := bind_eq_ok.mp h
  obtain ⟨inputs, -, h⟩ := bind_eq_ok.mp h
  obtain ⟨item, -, h⟩ := bind_eq_ok.mp h
  obtain ⟨input, -, h⟩ := bind_eq_ok.mp h
  obtain ⟨bound, hbound, h⟩ := bind_eq_ok.mp h
  obtain ⟨filter, -, h⟩ := bind_eq_ok.mp h
  obtain ⟨project, -, h⟩ := bind_eq_ok.mp h
  obtain ⟨acted, hacted, h⟩ := bind_eq_ok.mp h
  obtain ⟨outputs, -, h⟩ := bind_eq_ok.mp h
  obtain ⟨ended, hended, h⟩ := bind_eq_ok.mp h
  obtain ⟨required, -, h⟩ := bind_eq_ok.mp h
  obtain ⟨requirements, -, h⟩ := bind_eq_ok.mp h
  rw [get?_setItem (by decide) h, get?_setItem (by decide) hended, get?_setItem (by decide) hacted,
    get?_setItem (by decide) hbound, get?_setItem (by decide) hnamed]

theorem make_definition {args : MemberArgs} {member : FusionMember host}
    (h : FusionMember.make host args = .ok member) :
    member.definition = deepFreeze host args.definition := by
  unfold FusionMember.make at h
  obtain ⟨logicalNode, -, h⟩ := bind_eq_ok.mp h
  obtain ⟨upstreamNode, -, h⟩ := bind_eq_ok.mp h
  obtain ⟨upstreamPort, -, h⟩ := bind_eq_ok.mp h
  obtain ⟨inputPort, -, h⟩ := bind_eq_ok.mp h
  obtain ⟨outputPort, -, h⟩ := bind_eq_ok.mp h
  obtain ⟨irFingerprint, -, h⟩ := bind_eq_ok.mp h
  obtain ⟨inputContract, -, h⟩ := bind_eq_ok.mp h
  obtain ⟨outputContract, -, h⟩ := bind_eq_ok.mp h
  split at h
  · cases h
  · obtain rfl := Except.ok.inj h
    rfl

theorem make_first {d d' : FusionDescriptor host} {first second : FusionMember host}
    {binding parameters : PyData}
    (h : FusionDescriptor.make host (d.args first second binding parameters) = .ok d') :
    d'.first = first := by
  unfold FusionDescriptor.make at h
  obtain ⟨sourceNode, -, h⟩ := bind_eq_ok.mp h
  obtain ⟨sourcePort, -, h⟩ := bind_eq_ok.mp h
  obtain ⟨targetIdentity, -, h⟩ := bind_eq_ok.mp h
  obtain ⟨compilerName, -, h⟩ := bind_eq_ok.mp h
  obtain ⟨compilerVersion, -, h⟩ := bind_eq_ok.mp h
  obtain ⟨compilerEvidence, -, h⟩ := bind_eq_ok.mp h
  obtain ⟨policyDigest, -, h⟩ := bind_eq_ok.mp h
  obtain ⟨-, -, h⟩ := bind_eq_ok.mp h
  obtain ⟨sourceContract, -, h⟩ := bind_eq_ok.mp h
  obtain ⟨-, -, h⟩ := bind_eq_ok.mp h
  unfold FusionDescriptor.args at h
  simp only at h
  split at h
  · cases h
  · obtain rfl := Except.ok.inj h
    rfl

section Sample

def capabilityText : String :=
  "\x7b\"columns\":8,\"implementation\":\"bounded-local-snapshot/1\"," ++
    "\"max_bytes\":268435456,\"max_rows\":1000000," ++
    "\"pushdown\":[\"predicate\",\"projection\"]," ++
    "\"schema\":\"etlantic.polars_parquet_source/1\",\"types\":[\"boolean\",\"int64\"]\x7d"

def capabilityDigest : String :=
  "ae3e0d733b98a46f8441c640171111c0c7a7371cd294447416f23cc22db4666b"

def configText : String :=
  "\x7b\"max_bytes\":1048576,\"max_rows\":1000," ++
    "\"schema\":\"etlantic.polars_parquet_source/1\"\x7d"

def configDigest : String :=
  "c92d2784c99dea6822d34b0f0207bf558cc02db596fa7c735644f04fd353b23b"

/-- Digests of two texts, and marks on all others. -/
def sampleFusionSha256 (text : String) : String :=
  if text = capabilityText then capabilityDigest
  else if text = configText then configDigest
  else "~" ++ text

/-- A plan is known by its transformation. -/
def sampleFusionHost : FusionHost where
  sha256 := sampleFusionSha256
  planFingerprint definition :=
    match definition.get? "transformation" with
    | some (.str name) => some ("plan:" ++ name)
    | _ => none
  refrozen items := items
  sortable _ := true
  str _ := ""

def sampleAction (id action target : String) (parameters : PyData) : PyData :=
  .dict [(.str "id", .str id),
    (.str "kind", .dict [(.str "action", .str action), (.str "id", .str id),
      (.str "kind", .str "semanticAction"), (.str "parameters", parameters),
      (.str "target", .str target)]),
    (.str "objectRef", .str ("semanticActions." ++ id))]

def sampleDefinition (id action input output : String) (parameters versions : PyData) : PyData :=
  .dict [(.str "actions", .list [sampleAction id action input parameters]),
    (.str "errorMode", .str "fail"),
    (.str "inputs", .dict [(.str input, .dict [(.str "id", .str input)])]),
    (.str "lineage", .list []),
    (.str "outputs", .dict [(.str output, .dict [(.str "id", .str output)])]),
    (.str "parameters", .dict []),
    (.str "planIdentity", .str "dtcs.transform-plan/2"),
    (.str "profile", .str "portable"),
    (.str "registryVersions", versions),
    (.str "requirements", .dict [(.str "dependencies",
      expectedDependencies input output (.str id))]),
    (.str "rules", .list []),
    (.str "specificationVersion", .str "3.0.0"),
    (.str "transformation", .str id)]

def samplePredicate : PyData :=
  .dict [(.str "predicate", .dict [(.str "kind", .str "binary"),
    (.str "left", .dict [(.str "kind", .str "fieldRef"), (.str "target", .str "key")]),
    (.str "op", .str "eq"),
    (.str "right", .dict [(.str "kind", .str "fieldRef"), (.str "scope", .str "parameter"),
      (.str "target", .str "wanted")])])]

def sampleProjection : PyData := .dict [(.str "fields", .list [.str "key"])]

def sampleIdentifier (text : String) (h : text ≠ "" ∧ text.length ≤ 4096) : Identifier :=
  ⟨text, Identifier.nonEmpty_of h, Identifier.bounded_of h⟩

def sampleRows : Contract where
  id := sampleIdentifier "Row" (by decide)
  fingerprint := sampleIdentifier "row-1" (by decide)
  fields := [("flag", .boolean), ("key", .int64)]
  ordered := by unfold KeysOrdered; decide
  named := by decide
  nonEmpty := by decide
  bounded := by decide

def sampleKeys : Contract where
  id := sampleIdentifier "Key" (by decide)
  fingerprint := sampleIdentifier "key-1" (by decide)
  fields := [("key", .int64)]
  ordered := by unfold KeysOrdered; decide
  named := by decide
  nonEmpty := by decide
  bounded := by decide

def sampleFilter (versions : PyData)
    (checked : checkDefinition sampleFusionHost "rows" "kept" "plan:keep"
      (sampleDefinition "keep" "dtcs:filter" "rows" "kept" samplePredicate versions) = .ok ()) :
    FusionMember sampleFusionHost where
  logicalNode := sampleIdentifier "keep" (by decide)
  upstreamNode := sampleIdentifier "raw" (by decide)
  upstreamPort := sampleIdentifier "result" (by decide)
  inputPort := sampleIdentifier "rows" (by decide)
  outputPort := sampleIdentifier "kept" (by decide)
  inputContract := sampleRows
  outputContract := sampleRows
  definition := deepFreeze sampleFusionHost
    (sampleDefinition "keep" "dtcs:filter" "rows" "kept" samplePredicate versions)
  irFingerprint := sampleIdentifier "plan:keep" (by decide)
  checked := ⟨_, rfl, checked⟩

theorem sampleFilter_checked : checkDefinition sampleFusionHost "rows" "kept" "plan:keep"
    (sampleDefinition "keep" "dtcs:filter" "rows" "kept" samplePredicate (.dict [])) = .ok () := by
  decide +kernel

def sampleProject : FusionMember sampleFusionHost where
  logicalNode := sampleIdentifier "narrow" (by decide)
  upstreamNode := sampleIdentifier "keep" (by decide)
  upstreamPort := sampleIdentifier "kept" (by decide)
  inputPort := sampleIdentifier "kept" (by decide)
  outputPort := sampleIdentifier "narrowed" (by decide)
  inputContract := sampleRows
  outputContract := sampleKeys
  definition := deepFreeze sampleFusionHost
    (sampleDefinition "narrow" "dtcs:project" "kept" "narrowed" sampleProjection (.dict []))
  irFingerprint := sampleIdentifier "plan:narrow" (by decide)
  checked := ⟨_, rfl, by decide +kernel⟩

def sampleConfig : PyData :=
  .dict [(.str "max_bytes", .int 1048576), (.str "max_rows", .int 1000),
    (.str "schema", .str sourceSchema)]

def sampleBinding : PyData :=
  .dict [(.str "binding", .str "raw"), (.str "config", sampleConfig),
    (.str "config_fingerprint", .str ("sha256:" ++ configDigest)),
    (.str "format", .str "parquet"), (.str "kind", .str "source"),
    (.str "location", .str "raw.parquet"),
    (.str "metadata", .dict [(.str evidenceKey, .str ("sha256:" ++ capabilityDigest))]),
    (.str "provider", .str "polars-parquet"), (.str "provider_version", .str "1.0.0"),
    (.str "root_ref", .str "workspace"), (.str "secret_ref", .none)]

def sampleParameters : PyData := .dict [(.str "wanted", .int 1)]

/-- The checks of the sample descriptor with this filter. -/
def SampleChecked (first : FusionMember sampleFusionHost) : Prop :=
  checkDescriptor sampleFusionHost (sampleIdentifier "raw" (by decide))
    (sampleIdentifier "result" (by decide)) sampleRows sampleBinding first sampleProject
    sampleParameters [.str ("sha256:" ++ capabilityDigest)] = .ok ()

def sampleFusion (first : FusionMember sampleFusionHost) (checked : SampleChecked first) :
    FusionDescriptor sampleFusionHost where
  sourceNode := sampleIdentifier "raw" (by decide)
  sourcePort := sampleIdentifier "result" (by decide)
  sourceBinding := deepFreeze sampleFusionHost sampleBinding
  sourceContract := sampleRows
  targetIdentity := sampleIdentifier "kept-keys" (by decide)
  compilerName := sampleIdentifier "polars" (by decide)
  compilerVersion := sampleIdentifier "1" (by decide)
  compilerEvidence := sampleIdentifier "evidence" (by decide)
  policyDigest := sampleIdentifier "policy" (by decide)
  first := first
  second := sampleProject
  parameters := deepFreeze sampleFusionHost sampleParameters
  checked := ⟨_, _, _, rfl, rfl, checked⟩

theorem sampleFusion_checked : SampleChecked (sampleFilter (.dict []) sampleFilter_checked) := by
  unfold SampleChecked
  decide +kernel

/-- The sample descriptor carries JSON data. -/
theorem survivesJson_sample :
    SurvivesJson (sampleFusion (sampleFilter (.dict []) sampleFilter_checked)
      sampleFusion_checked) :=
  survivesJson _ {
    first := by decide +kernel
    second := by decide +kernel
    sourceBinding := by decide +kernel
    parameters := by decide +kernel }

def numberVersions : PyData := .dict [(.int 1, .str "2")]

def textVersions : PyData := .dict [(.str "1", .str "2")]

theorem numberFilter_checked : checkDefinition sampleFusionHost "rows" "kept" "plan:keep"
    (sampleDefinition "keep" "dtcs:filter" "rows" "kept" samplePredicate numberVersions) =
      .ok () := by
  decide +kernel

theorem textFilter_checked : checkDefinition sampleFusionHost "rows" "kept" "plan:keep"
    (sampleDefinition "keep" "dtcs:filter" "rows" "kept" samplePredicate textVersions) =
      .ok () := by
  decide +kernel

def numberFilter : FusionMember sampleFusionHost := sampleFilter numberVersions numberFilter_checked

def textFilter : FusionMember sampleFusionHost := sampleFilter textVersions textFilter_checked

theorem numberFusion_checked : SampleChecked numberFilter := by
  unfold SampleChecked
  decide +kernel

def numberFusion : FusionDescriptor sampleFusionHost :=
  sampleFusion numberFilter numberFusion_checked

/-- The two filters are written alike. -/
theorem image_numberFilter : (mutableCopy numberFilter.definition).image true =
    (mutableCopy textFilter.definition).image true := by
  rfl

theorem numberFusion_composes : (composeFusionDefinition numberFusion).isOk = true := by
  decide +kernel

/-- A definition may have a key that is a number. It is read back as a text, and the
composed definition has that text. -/
theorem not_survivesJson_number : ¬ SurvivesJson numberFusion := by
  rintro ⟨d', fingerprint, hreread, hfingerprint, -, hcompose⟩
  obtain ⟨first, hwritten, hback⟩ := definition_json textFilter (by decide +kernel)
  have hfirst : Written numberFusion.first first :=
    ⟨image_numberFilter.trans hwritten.image, hwritten.formed, hwritten.size⟩
  obtain ⟨second, hsecond, -⟩ := definition_json numberFusion.second (by decide +kernel)
  rw [reread_written numberFusion hfirst hsecond (by decide +kernel) (by decide +kernel),
    hback] at hreread
  obtain ⟨firstMember, hmake, hreread⟩ := bind_eq_ok.mp hreread
  obtain ⟨secondMember, -, hreread⟩ := bind_eq_ok.mp hreread
  have hread : d'.first.definition = deepFreeze sampleFusionHost textFilter.definition := by
    rw [make_first hreread]
    exact make_definition hmake
  obtain ⟨composed, hcomposed⟩ :
      ∃ composed, composeFusionDefinition numberFusion = .ok composed := by
    have hok := numberFusion_composes
    cases hresult : composeFusionDefinition numberFusion with
    | ok composed => exact ⟨composed, rfl⟩
    | error error =>
        rw [hresult] at hok
        cases hok
  have hnumber := compose_registry hcomposed
  have htext := compose_registry (hcompose.trans hcomposed)
  rw [hread, hnumber] at htext
  have hkeys : some numberVersions = some textVersions := htext
  cases hkeys

end Sample

end Etlantic.Transform.Fusion
