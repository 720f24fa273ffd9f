import Etlantic.Base.JsonCanonical
import Etlantic.Inference.Metadata

/-!
# What the sanitizer returns

Whatever `_json_safe` returns can be written as JSON text: its floats are numerals and its
objects have no key twice.  A control key decides about its value by a rule of its own, so
each rule is shown to return a document before the sanitizer itself.
-/

namespace Etlantic.Inference

open ControlPlane (PyError)
open Checked

/-! ## Documents -/

theorem dictOf_wellFormed {fields : List (String × Json)}
    (h : ∀ field ∈ fields, Json.WellFormed field.2) : Json.WellFormed (dictOf fields) := by
  refine ⟨(Dict.empty.setAll fields).nodup, Json.fieldsWellFormed_iff.mpr fun field hmem => ?_⟩
  exact h field (Dict.mem_of_mem_setAll hmem)

theorem texts_wellFormed (texts : List String) : Json.WellFormed (.arr (texts.map .str)) := by
  refine Json.itemsWellFormed_iff.mpr fun item hmem => ?_
  obtain ⟨text, -, rfl⟩ := List.mem_map.mp hmem
  exact trivial

/-! ## The control keys -/

/-- What the rule lets through is a document. -/
def Writes (rule : Meta → Except PyError Json) : Prop :=
  ∀ value result, rule value = .ok result → Json.WellFormed result

theorem checkedMapping_writes {label unsupported : String} {allowed : List String}
    {entry : String → Meta → Except PyError Json} (hentry : ∀ key, Writes (entry key)) :
    Writes (checkedMapping label unsupported allowed entry) := by
  intro value result h
  unfold checkedMapping at h
  obtain ⟨fields, -, hchecked⟩ := bind_eq_ok.mp h
  split at hchecked
  · cases hchecked
  obtain ⟨safe, hsafe, hresult⟩ := bind_eq_ok.mp hchecked
  obtain rfl := Except.ok.inj hresult
  refine dictOf_wellFormed fun field hmem => ?_
  obtain ⟨source, -, hsource⟩ := mem_of_mapM hsafe field hmem
  obtain ⟨written, hwritten, rfl⟩ := map_eq_ok hsource
  exact hentry source.1 source.2 written hwritten

theorem mapM_writes {rule : Meta → Except PyError Json} (hrule : Writes rule)
    {items : List Meta} {results : List Json} (h : items.mapM rule = .ok results) :
    Json.WellFormed (.arr results) := by
  refine Json.itemsWellFormed_iff.mpr fun result hmem => ?_
  obtain ⟨item, -, hitem⟩ := mem_of_mapM h result hmem
  exact hrule item result hitem

variable (host : MetadataHost)

theorem parserOption_writes (key : String) : Writes (parserOption host key) := by
  intro value result h
  unfold parserOption at h
  split at h
  · split at h
    · obtain rfl := Except.ok.inj h
      exact trivial
    · cases h
  split at h
  · split at h
    · split at h
      · obtain rfl := Except.ok.inj h
        exact trivial
      · cases h
    · cases h
  split at h
  · split at h
    · split at h
      · cases h
      · obtain rfl := Except.ok.inj h
        exact trivial
    · split at h
      · split at h
        · obtain rfl := Except.ok.inj h
          exact trivial
        · cases h
      · cases h
  split at h
  · split at h
    · obtain rfl := Except.ok.inj h
      exact trivial
    · cases h
  · cases h

theorem safeNullPolicy_writes : Writes safeNullPolicy := by
  intro value result h
  have hwell : ∀ (mode : String) (count : Int),
      Json.WellFormed (dictOf [("mode", .str mode), ("count", .int count)]) := by
    intro mode count
    exact dictOf_wellFormed (by simp [Json.WellFormed])
  unfold safeNullPolicy at h
  obtain ⟨policy, -, hchecked⟩ := bind_eq_ok.mp h
  split at hchecked
  · cases hchecked
  split at hchecked
  · cases hchecked
  split at hchecked
  · cases hchecked
  split at hchecked
  · split at hchecked
    · cases hchecked
    dsimp only at hchecked
    split at hchecked
    · obtain rfl := Except.ok.inj hchecked
      exact hwell _ _
    · split at hchecked
      · cases hchecked
      · split at hchecked
        · obtain rfl := Except.ok.inj hchecked
          exact hwell _ _
        · cases hchecked
  · cases hchecked

theorem providerCapability_writes (key : String) : Writes (providerCapability key) := by
  intro value result h
  unfold providerCapability at h
  split at h
  · obtain ⟨values, -, hchecked⟩ := bind_eq_ok.mp h
    split at hchecked
    · split at hchecked
      · obtain rfl := Except.ok.inj hchecked
        exact texts_wellFormed _
      · cases hchecked
    · cases hchecked
  · split at h
    · obtain rfl := Except.ok.inj h
      exact trivial
    · cases h

theorem operationList_writes : Writes operationList := by
  intro value result h
  unfold operationList at h
  obtain ⟨values, -, hchecked⟩ := bind_eq_ok.mp h
  split at hchecked
  · split at hchecked
    · obtain rfl := Except.ok.inj hchecked
      exact texts_wellFormed _
    · cases hchecked
  · cases hchecked

theorem safeCapabilities_writes : Writes safeCapabilities := by
  intro value result h
  unfold safeCapabilities at h
  split at h
  · obtain rfl := Except.ok.inj h
    exact trivial
  · exact checkedMapping_writes providerCapability_writes _ _ h
  · exact operationList_writes _ _ h
  · exact operationList_writes _ _ h
  · cases h

/-! ## Lineage -/

theorem lineageOperation_writes : Writes lineageOperation := by
  intro value result h
  unfold lineageOperation at h
  dsimp only at h
  split at h
  · obtain rfl := Except.ok.inj h
    exact trivial
  · obtain rfl := Except.ok.inj h
    exact trivial
  · obtain ⟨fields, -, hchecked⟩ := bind_eq_ok.mp h
    split at hchecked
    · cases hchecked
    split at hchecked
    · obtain rfl := Except.ok.inj hchecked
      exact dictOf_wellFormed (by simp [Json.WellFormed])
    split at hchecked
    · split at hchecked
      · obtain rfl := Except.ok.inj hchecked
        exact dictOf_wellFormed (by simp [Json.WellFormed])
      · cases hchecked
    split at hchecked
    · split at hchecked
      · obtain rfl := Except.ok.inj hchecked
        exact dictOf_wellFormed (by simp [Json.WellFormed])
      · cases hchecked
    · cases hchecked
  · cases h

theorem lineageItem_writes (key : String) : Writes (lineageItem host key) := by
  intro value result h
  unfold lineageItem at h
  split at h
  · split at h
    · obtain rfl := Except.ok.inj h
      exact trivial
    · cases h
  split at h
  · split at h
    · obtain rfl := Except.ok.inj h
      exact trivial
    · split at h
      · split at h
        · obtain rfl := Except.ok.inj h
          exact trivial
        · obtain rfl := Except.ok.inj h
          exact trivial
      · cases h
  split at h
  · obtain ⟨types, -, hchecked⟩ := bind_eq_ok.mp h
    split at hchecked
    · obtain rfl := Except.ok.inj hchecked
      refine dictOf_wellFormed fun field hmem => ?_
      obtain ⟨entry, -, rfl⟩ := List.mem_map.mp hmem
      exact trivial
    · cases hchecked
  split at h
  · split at h
    · cases h
    · obtain ⟨operations, -, hchecked⟩ := bind_eq_ok.mp h
      obtain ⟨safe, hsafe, hresult⟩ := bind_eq_ok.mp hchecked
      obtain rfl := Except.ok.inj hresult
      exact mapM_writes lineageOperation_writes hsafe
  obtain ⟨parts, -, hchecked⟩ := bind_eq_ok.mp h
  split at hchecked
  · obtain rfl := Except.ok.inj hchecked
    refine Json.itemsWellFormed_iff.mpr fun item hmem => ?_
    obtain ⟨text, -, rfl⟩ := List.mem_map.mp hmem
    exact trivial
  · cases hchecked

theorem lineageEntries_writes {allowed : List String} {fields : List (String × Meta)}
    {result : Json} (h : lineageEntries host allowed fields = .ok result) :
    Json.WellFormed result := by
  unfold lineageEntries at h
  obtain ⟨entries, hentries, hresult⟩ := bind_eq_ok.mp h
  obtain rfl := Except.ok.inj hresult
  refine dictOf_wellFormed fun entry hmem => ?_
  obtain ⟨field, -, hfield⟩ := mem_of_mapM hentries entry hmem
  obtain ⟨value, hvalue, rfl⟩ := map_eq_ok hfield
  exact checkedMapping_writes (lineageItem_writes host) _ _ hvalue

theorem safeLineage_writes : Writes (safeLineage host) := by
  intro value result h
  obtain ⟨fields, -, hentries⟩ := bind_eq_ok.mp h
  exact lineageEntries_writes host hentries

theorem safeLineageGraph_writes : Writes (safeLineageGraph host) := by
  intro value result h
  unfold safeLineageGraph at h
  obtain ⟨lineage, -, hchecked⟩ := bind_eq_ok.mp h
  split at hchecked
  · cases hchecked
  obtain ⟨version, hversion, hrest⟩ := bind_eq_ok.mp hchecked
  obtain ⟨fields, hfields, hresult⟩ := bind_eq_ok.mp hrest
  obtain rfl := Except.ok.inj hresult
  refine dictOf_wellFormed fun field hmem => ?_
  rcases List.mem_append.mp hmem with hmem | hmem
  · unfold graphVersion at hversion
    split at hversion
    · obtain rfl := Except.ok.inj hversion
      cases hmem
    · split at hversion
      · cases hversion
      · obtain rfl := Except.ok.inj hversion
        obtain rfl := List.mem_singleton.mp hmem
        exact trivial
    · cases hversion
  · unfold graphFields at hfields
    split at hfields
    · obtain rfl := Except.ok.inj hfields
      cases hmem
    · obtain ⟨source, -, hsource⟩ := bind_eq_ok.mp hfields
      obtain ⟨safe, hsafe, hsame⟩ := bind_eq_ok.mp hsource
      obtain rfl := Except.ok.inj hsame
      obtain rfl := List.mem_singleton.mp hmem
      exact lineageEntries_writes host hsafe

/-! ## The sanitizer -/

variable {host}

theorem underKey_writes {allowUnknown : Bool} {key : String} {value : Meta} {result : Json}
    (h : underKey host allowUnknown key value = some (.ok result)) : Json.WellFormed result := by
  unfold underKey at h
  dsimp only at h
  split at h
  · obtain rfl := Except.ok.inj (Option.some.inj h)
    unfold revisionFingerprint
    split <;> exact trivial
  split at h
  · split at h
    · obtain rfl := Except.ok.inj (Option.some.inj h)
      exact trivial
    · obtain rfl := Except.ok.inj (Option.some.inj h)
      exact trivial
  split at h
  · exact checkedMapping_writes (parserOption_writes host) _ _ (Option.some.inj h)
  split at h
  · exact safeNullPolicy_writes _ _ (Option.some.inj h)
  split at h
  · exact safeCapabilities_writes _ _ (Option.some.inj h)
  split at h
  · exact safeLineage_writes host _ _ (Option.some.inj h)
  split at h
  · exact safeLineageGraph_writes host _ _ (Option.some.inj h)
  split at h
  · obtain rfl := Except.ok.inj (Option.some.inj h)
    exact trivial
  split at h
  · obtain rfl := Except.ok.inj (Option.some.inj h)
    exact trivial
  · cases h

/-- What the key of a value decides. -/
def decidedBy (host : MetadataHost) (allowUnknown : Bool) (key : Option String) (value : Meta) :
    Option (Except PyError Json) :=
  key.bind fun key => underKey host allowUnknown key value

/-- A value without parts. -/
def Meta.isLeaf : Meta → Bool
  | .list _ => false
  | .set _ => false
  | .map _ => false
  | _ => true

theorem mem_sortedByKey {α : Type} {fields : List (String × α)} {field : String × α} :
    field ∈ sortedByKey fields ↔ field ∈ fields := List.mem_insertionSort _

theorem length_sortedByKey {α : Type} (fields : List (String × α)) :
    (sortedByKey fields).length = fields.length := List.length_insertionSort _ _

theorem safeItems_eq_map {depth : Nat} : ∀ items : List Meta,
    safeItems host depth items = items.map (jsonSafe host false Option.none depth)
  | [] => rfl
  | item :: rest => congrArg (jsonSafe host false Option.none depth item :: ·) (safeItems_eq_map rest)

theorem safeFields_eq_map {allowUnknown : Bool} {depth : Nat} :
    ∀ fields : List (String × Meta), safeFields host allowUnknown depth fields =
      fields.map fun field =>
        (field.1, jsonSafe host allowUnknown (some field.1) depth field.2)
  | [] => rfl
  | field :: rest => congrArg
      ((field.1, jsonSafe host allowUnknown (some field.1) depth field.2) :: ·)
      (safeFields_eq_map rest)

/-- The entries of a mapping, sanitized in the order of their keys. -/
def safeEntries (host : MetadataHost) (allowUnknown : Bool) (depth : Nat)
    (fields : List (String × Meta)) : Except PyError (List (String × Json)) :=
  collectFields (sortedByKey (fields.map fun field =>
    (field.1, jsonSafe host allowUnknown (some field.1) depth field.2)))

section

variable {allowUnknown : Bool} {key : Option String} {depth : Nat}

theorem jsonSafe_decided {value : Meta} {result : Except PyError Json}
    (h : decidedBy host allowUnknown key value = some result) :
    jsonSafe host allowUnknown key depth value = result := by
  unfold decidedBy at h
  cases value <;> simp only [jsonSafe, h]

theorem jsonSafe_leaf {value : Meta} (hleaf : value.isLeaf = true)
    (h : decidedBy host allowUnknown key value = Option.none) :
    jsonSafe host allowUnknown key depth value =
      if 6 < depth then .ok truncated else .ok (safeLeaf value) := by
  unfold decidedBy at h
  cases value with
  | list items => cases hleaf
  | set items => cases hleaf
  | map fields => cases hleaf
  | _ => simp only [jsonSafe, h]

theorem jsonSafe_list {items : List Meta}
    (h : decidedBy host allowUnknown key (.list items) = Option.none) :
    jsonSafe host allowUnknown key depth (.list items) =
      if 6 < depth then .ok truncated
      else (collectItems ((items.take 256).map (jsonSafe host false Option.none (depth + 1)))).map
        .arr := by
  unfold decidedBy at h
  simp only [jsonSafe, h, safeItems_eq_map, List.map_take]

theorem jsonSafe_set {items : List Meta}
    (h : decidedBy host allowUnknown key (.set items) = Option.none) :
    jsonSafe host allowUnknown key depth (.set items) =
      if 6 < depth then .ok truncated
      else if 256 < items.length then .ok (.arr [])
      else (collectItems (items.map (jsonSafe host false Option.none (depth + 1)))).map .arr := by
  unfold decidedBy at h
  simp only [jsonSafe, h, safeItems_eq_map]

theorem jsonSafe_map {fields : List (String × Meta)}
    (h : decidedBy host allowUnknown key (.map fields) = Option.none) :
    jsonSafe host allowUnknown key depth (.map fields) =
      if 6 < depth then .ok truncated
      else if 256 < fields.length then .ok (.obj [])
      else (safeEntries host (key.any (· ∈ structuralMapKeys)) (depth + 1) fields).map dictOf := by
  unfold decidedBy at h
  simp only [jsonSafe, h, safeFields_eq_map, safeEntries]

/-- Every entry comes from a field of the same name, and there are as many. -/
theorem safeEntries_eq_ok {fields : List (String × Meta)} {entries : List (String × Json)}
    (h : safeEntries host allowUnknown depth fields = .ok entries) :
    entries.length = fields.length ∧ ∀ entry ∈ entries, ∃ field ∈ fields, field.1 = entry.1 ∧
      jsonSafe host allowUnknown (some entry.1) depth field.2 = .ok entry.2 := by
  refine ⟨?_, fun entry hmem => ?_⟩
  · rw [← (forall₂_of_mapM h).length_eq, length_sortedByKey, List.length_map]
  · obtain ⟨source, hsource, hentry⟩ := mem_of_mapM h entry hmem
    obtain ⟨field, hfield, rfl⟩ := List.mem_map.mp (mem_sortedByKey.mp hsource)
    obtain ⟨value, hvalue, rfl⟩ := map_eq_ok hentry
    exact ⟨field, hfield, rfl, hvalue⟩

/-- The entries have the keys of the fields. -/
theorem safeEntries_keys {fields : List (String × Meta)} {entries : List (String × Json)}
    (h : safeEntries host allowUnknown depth fields = .ok entries) :
    (entries.map Prod.fst).Perm (fields.map Prod.fst) := by
  have hsame : ∀ {sources : List (String × Except PyError Json)} {entries : List (String × Json)},
      List.Forall₂ (fun source entry =>
        source.2.map (fun value => (source.1, value)) = .ok entry) sources entries →
          entries.map Prod.fst = sources.map Prod.fst := by
    intro sources entries hrelated
    induction hrelated with
    | nil => rfl
    | cons hentry _ ih =>
        obtain ⟨value, -, rfl⟩ := map_eq_ok hentry
        rw [List.map_cons, List.map_cons, ih]
  rw [hsame (forall₂_of_mapM h)]
  refine ((List.perm_insertionSort _ _).map Prod.fst).trans ?_
  rw [List.map_map]
  exact List.Perm.refl _

theorem safeEntries_ok {fields : List (String × Meta)}
    (h : ∀ field ∈ fields,
      ∃ value, jsonSafe host allowUnknown (some field.1) depth field.2 = .ok value) :
    ∃ entries, safeEntries host allowUnknown depth fields = .ok entries := by
  have hall : ∀ source ∈ sortedByKey (fields.map fun field =>
      (field.1, jsonSafe host allowUnknown (some field.1) depth field.2)),
        ∃ entry, source.2.map (fun value => (source.1, value)) = .ok entry ∧ True := by
    intro source hmem
    obtain ⟨field, hfield, rfl⟩ := List.mem_map.mp (mem_sortedByKey.mp hmem)
    obtain ⟨value, hvalue⟩ := h field hfield
    exact ⟨(field.1, value), by rw [hvalue]; rfl, trivial⟩
  obtain ⟨entries, hentries, -⟩ := exists_mapM hall
  exact ⟨entries, hentries⟩

end

theorem safeLeaf_wellFormed (value : Meta) : Json.WellFormed (safeLeaf value) := by
  cases value with
  | float numeral => exact numeral.property
  | _ => exact trivial

/-- `_json_safe` returns documents for the value. -/
def IsWritten (host : MetadataHost) (value : Meta) : Prop :=
  ∀ allowUnknown key depth result, jsonSafe host allowUnknown key depth value = .ok result →
    Json.WellFormed result

theorem isWritten_of_undecided {value : Meta}
    (h : ∀ allowUnknown key depth result, decidedBy host allowUnknown key value = Option.none →
      jsonSafe host allowUnknown key depth value = .ok result → Json.WellFormed result) :
    IsWritten host value := by
  intro allowUnknown key depth result hsafe
  cases hdecided : decidedBy host allowUnknown key value with
  | none => exact h allowUnknown key depth result hdecided hsafe
  | some decided =>
      rw [jsonSafe_decided hdecided] at hsafe
      subst hsafe
      cases key with
      | none => cases hdecided
      | some key => exact underKey_writes hdecided

theorem isWritten_leaf {value : Meta} (hleaf : value.isLeaf = true) : IsWritten host value := by
  refine isWritten_of_undecided fun allowUnknown key depth result hnone hsafe => ?_
  rw [jsonSafe_leaf hleaf hnone] at hsafe
  split at hsafe
  · obtain rfl := Except.ok.inj hsafe
    exact trivial
  · obtain rfl := Except.ok.inj hsafe
    exact safeLeaf_wellFormed value

theorem collectItems_writes {depth : Nat} {items : List Meta}
    (hitems : ∀ item ∈ items, IsWritten host item) {results : List Json}
    (h : collectItems (items.map (jsonSafe host false Option.none depth)) = .ok results) :
    Json.WellFormed (.arr results) := by
  refine Json.itemsWellFormed_iff.mpr fun result hmem => ?_
  obtain ⟨source, hsource, hresult⟩ := mem_of_mapM h result hmem
  obtain ⟨item, hitem, rfl⟩ := List.mem_map.mp hsource
  exact hitems item hitem false Option.none depth result hresult

mutual

theorem isWritten (host : MetadataHost) : ∀ value : Meta, IsWritten host value
  | .map fields => by
      have hfields := isWritten_fields host fields
      refine isWritten_of_undecided fun allowUnknown key depth result hnone hsafe => ?_
      rw [jsonSafe_map hnone] at hsafe
      split at hsafe
      · obtain rfl := Except.ok.inj hsafe
        exact trivial
      split at hsafe
      · obtain rfl := Except.ok.inj hsafe
        exact ⟨List.nodup_nil, trivial⟩
      · obtain ⟨entries, hentries, rfl⟩ := map_eq_ok hsafe
        refine dictOf_wellFormed fun entry hmem => ?_
        obtain ⟨field, hfield, -, hvalue⟩ := (safeEntries_eq_ok hentries).2 entry hmem
        exact hfields field hfield _ _ _ _ hvalue
  | .list items => by
      have hitems := isWritten_items host items
      refine isWritten_of_undecided fun allowUnknown key depth result hnone hsafe => ?_
      rw [jsonSafe_list hnone] at hsafe
      split at hsafe
      · obtain rfl := Except.ok.inj hsafe
        exact trivial
      · obtain ⟨results, hresults, rfl⟩ := map_eq_ok hsafe
        exact collectItems_writes (fun item hmem => hitems item (List.mem_of_mem_take hmem)) hresults
  | .set items => by
      have hitems := isWritten_items host items
      refine isWritten_of_undecided fun allowUnknown key depth result hnone hsafe => ?_
      rw [jsonSafe_set hnone] at hsafe
      split at hsafe
      · obtain rfl := Except.ok.inj hsafe
        exact trivial
      split at hsafe
      · obtain rfl := Except.ok.inj hsafe
        exact trivial
      · obtain ⟨results, hresults, rfl⟩ := map_eq_ok hsafe
        exact collectItems_writes hitems hresults
  | .none => isWritten_leaf rfl
  | .bool _ => isWritten_leaf rfl
  | .int _ => isWritten_leaf rfl
  | .float _ => isWritten_leaf rfl
  | .nonFinite => isWritten_leaf rfl
  | .str _ => isWritten_leaf rfl
  | .fingerprint _ => isWritten_leaf rfl
  | .stamp _ => isWritten_leaf rfl
  | .bytes _ => isWritten_leaf rfl
  | .other _ => isWritten_leaf rfl

theorem isWritten_items (host : MetadataHost) : ∀ items : List Meta,
    ∀ item ∈ items, IsWritten host item
  | [], item, hmem => by cases hmem
  | first :: rest, item, hmem => by
      have hfirst := isWritten host first
      have hrest := isWritten_items host rest
      rcases List.mem_cons.mp hmem with rfl | hmem
      · exact hfirst
      · exact hrest item hmem

theorem isWritten_fields (host : MetadataHost) : ∀ fields : List (String × Meta),
    ∀ field ∈ fields, IsWritten host field.2
  | [], field, hmem => by cases hmem
  | (key, value) :: rest, field, hmem => by
      have hfirst := isWritten host value
      have hrest := isWritten_fields host rest
      rcases List.mem_cons.mp hmem with rfl | hmem
      · exact hfirst
      · exact hrest field hmem

end

end Etlantic.Inference
