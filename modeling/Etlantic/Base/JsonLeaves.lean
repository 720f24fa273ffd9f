import Etlantic.Base.JsonCanonical

/-!
# Rewriting the leaves of a document

A rewriting of the leaves keeps the shape of a document: it commutes with the
ordering of the keys, and it leaves the document alone exactly when it leaves
every leaf alone.
-/

namespace Etlantic

namespace Json

/-- Neither an array nor an object. -/
def IsLeaf : Json → Prop
  | arr _ => False
  | obj _ => False
  | _ => True

mutual

/-- The document with `f` applied to its leaves. -/
def mapLeaves (f : Json → Json) : Json → Json
  | arr items => arr (mapLeavesItems f items)
  | obj fields => obj (mapLeavesFields f fields)
  | value => f value

def mapLeavesItems (f : Json → Json) : List Json → List Json
  | [] => []
  | item :: rest => mapLeaves f item :: mapLeavesItems f rest

def mapLeavesFields (f : Json → Json) : List (String × Json) → List (String × Json)
  | [] => []
  | (key, value) :: rest => (key, mapLeaves f value) :: mapLeavesFields f rest

end

mutual

/-- The leaves of a document. -/
def leaves : Json → List Json
  | arr items => leavesItems items
  | obj fields => leavesFields fields
  | value => [value]

def leavesItems : List Json → List Json
  | [] => []
  | item :: rest => leaves item ++ leavesItems rest

def leavesFields : List (String × Json) → List Json
  | [] => []
  | (_, value) :: rest => leaves value ++ leavesFields rest

end

variable {f g : Json → Json}

theorem mapLeaves_of_isLeaf {value : Json} (h : IsLeaf value) : mapLeaves f value = f value := by
  cases value with
  | arr items => exact h.elim
  | obj fields => exact h.elim
  | _ => simp [mapLeaves]

theorem leaves_of_isLeaf {value : Json} (h : IsLeaf value) : leaves value = [value] := by
  cases value with
  | arr items => exact h.elim
  | obj fields => exact h.elim
  | _ => simp [leaves]

theorem sorted_of_isLeaf {value : Json} (h : IsLeaf value) : sorted value = value := by
  cases value with
  | arr items => exact h.elim
  | obj fields => exact h.elim
  | _ => simp [sorted]

theorem mapLeavesFields_eq_map : ∀ fields : List (String × Json),
    mapLeavesFields f fields = fields.map fun e => (e.1, mapLeaves f e.2)
  | [] => rfl
  | (key, value) :: rest => by rw [mapLeavesFields, mapLeavesFields_eq_map rest, List.map_cons]

theorem leavesFields_eq_flatMap : ∀ fields : List (String × Json),
    leavesFields fields = fields.flatMap fun e => leaves e.2
  | [] => rfl
  | (key, value) :: rest => by rw [leavesFields, leavesFields_eq_flatMap rest, List.flatMap_cons]

mutual

theorem mapLeaves_mapLeaves (hg : ∀ value, IsLeaf value → IsLeaf (g value)) : ∀ value : Json,
    mapLeaves f (mapLeaves g value) = mapLeaves (fun leaf => f (g leaf)) value
  | .null => mapLeaves_of_isLeaf (hg .null trivial)
  | .bool b => mapLeaves_of_isLeaf (hg (.bool b) trivial)
  | .int n => mapLeaves_of_isLeaf (hg (.int n) trivial)
  | .float text => mapLeaves_of_isLeaf (hg (.float text) trivial)
  | .str text => mapLeaves_of_isLeaf (hg (.str text) trivial)
  | .arr items => by rw [mapLeaves, mapLeaves, mapLeaves, mapLeavesItems_mapLeavesItems hg items]
  | .obj fields => by
      rw [mapLeaves, mapLeaves, mapLeaves, mapLeavesFields_mapLeavesFields hg fields]

theorem mapLeavesItems_mapLeavesItems (hg : ∀ value, IsLeaf value → IsLeaf (g value)) :
    ∀ items : List Json, mapLeavesItems f (mapLeavesItems g items) =
      mapLeavesItems (fun leaf => f (g leaf)) items
  | [] => rfl
  | item :: rest => by
      rw [mapLeavesItems, mapLeavesItems, mapLeavesItems, mapLeaves_mapLeaves hg item,
        mapLeavesItems_mapLeavesItems hg rest]

theorem mapLeavesFields_mapLeavesFields (hg : ∀ value, IsLeaf value → IsLeaf (g value)) :
    ∀ fields : List (String × Json), mapLeavesFields f (mapLeavesFields g fields) =
      mapLeavesFields (fun leaf => f (g leaf)) fields
  | [] => rfl
  | (key, value) :: rest => by
      rw [mapLeavesFields, mapLeavesFields, mapLeavesFields, mapLeaves_mapLeaves hg value,
        mapLeavesFields_mapLeavesFields hg rest]

end

mutual

/-- A rewriting leaves a document alone when it leaves its leaves alone. -/
theorem mapLeaves_eq_self_iff : ∀ value : Json,
    mapLeaves f value = value ↔ ∀ leaf ∈ leaves value, f leaf = leaf
  | .null | .bool _ | .int _ | .float _ | .str _ => by
      simp [mapLeaves, leaves]
  | .arr items => by
      rw [mapLeaves, leaves, arr.injEq]
      exact mapLeavesItems_eq_self_iff items
  | .obj fields => by
      rw [mapLeaves, leaves, obj.injEq]
      exact mapLeavesFields_eq_self_iff fields

theorem mapLeavesItems_eq_self_iff : ∀ items : List Json,
    mapLeavesItems f items = items ↔ ∀ leaf ∈ leavesItems items, f leaf = leaf
  | [] => by simp [mapLeavesItems, leavesItems]
  | item :: rest => by
      rw [mapLeavesItems, leavesItems, List.cons.injEq, mapLeaves_eq_self_iff item,
        mapLeavesItems_eq_self_iff rest, List.forall_mem_append]

theorem mapLeavesFields_eq_self_iff : ∀ fields : List (String × Json),
    mapLeavesFields f fields = fields ↔ ∀ leaf ∈ leavesFields fields, f leaf = leaf
  | [] => by simp [mapLeavesFields, leavesFields]
  | (key, value) :: rest => by
      rw [mapLeavesFields, leavesFields, List.cons.injEq, Prod.mk.injEq, eq_self_iff_true, true_and,
        mapLeaves_eq_self_iff value, mapLeavesFields_eq_self_iff rest, List.forall_mem_append]

end

mutual

theorem leaves_mapLeaves (hf : ∀ value, IsLeaf value → IsLeaf (f value)) : ∀ value : Json,
    leaves (mapLeaves f value) = (leaves value).map f
  | .null => leaves_of_isLeaf (hf .null trivial)
  | .bool b => leaves_of_isLeaf (hf (.bool b) trivial)
  | .int n => leaves_of_isLeaf (hf (.int n) trivial)
  | .float text => leaves_of_isLeaf (hf (.float text) trivial)
  | .str text => leaves_of_isLeaf (hf (.str text) trivial)
  | .arr items => by rw [mapLeaves, leaves, leaves, leavesItems_mapLeavesItems hf items]
  | .obj fields => by rw [mapLeaves, leaves, leaves, leavesFields_mapLeavesFields hf fields]

theorem leavesItems_mapLeavesItems (hf : ∀ value, IsLeaf value → IsLeaf (f value)) :
    ∀ items : List Json, leavesItems (mapLeavesItems f items) = (leavesItems items).map f
  | [] => rfl
  | item :: rest => by
      rw [mapLeavesItems, leavesItems, leavesItems, leaves_mapLeaves hf item,
        leavesItems_mapLeavesItems hf rest, List.map_append]

theorem leavesFields_mapLeavesFields (hf : ∀ value, IsLeaf value → IsLeaf (f value)) :
    ∀ fields : List (String × Json),
      leavesFields (mapLeavesFields f fields) = (leavesFields fields).map f
  | [] => rfl
  | (key, value) :: rest => by
      rw [mapLeavesFields, leavesFields, leavesFields, leaves_mapLeaves hf value,
        leavesFields_mapLeavesFields hf rest, List.map_append]

end

mutual

/-- A rewriting of the leaves commutes with the ordering of the keys. -/
theorem sorted_mapLeaves (hf : ∀ value, IsLeaf value → IsLeaf (f value)) : ∀ value : Json,
    sorted (mapLeaves f value) = mapLeaves f (sorted value)
  | .null => sorted_of_isLeaf (hf .null trivial)
  | .bool b => sorted_of_isLeaf (hf (.bool b) trivial)
  | .int n => sorted_of_isLeaf (hf (.int n) trivial)
  | .float text => sorted_of_isLeaf (hf (.float text) trivial)
  | .str text => sorted_of_isLeaf (hf (.str text) trivial)
  | .arr items => by rw [mapLeaves, sorted, sorted, mapLeaves, sortedItems_mapLeavesItems hf items]
  | .obj fields => by
      rw [mapLeaves, sorted, sorted, mapLeaves, sortedFields_mapLeavesFields hf fields,
        mapLeavesFields_eq_map, mapLeavesFields_eq_map,
        map_insertionSort_keys (fun e => (e.1, mapLeaves f e.2)) fun _ => rfl]

theorem sortedItems_mapLeavesItems (hf : ∀ value, IsLeaf value → IsLeaf (f value)) :
    ∀ items : List Json, sortedItems (mapLeavesItems f items) = mapLeavesItems f (sortedItems items)
  | [] => rfl
  | item :: rest => by
      rw [mapLeavesItems, sortedItems, sortedItems, mapLeavesItems, sorted_mapLeaves hf item,
        sortedItems_mapLeavesItems hf rest]

theorem sortedFields_mapLeavesFields (hf : ∀ value, IsLeaf value → IsLeaf (f value)) :
    ∀ fields : List (String × Json),
      sortedFields (mapLeavesFields f fields) = mapLeavesFields f (sortedFields fields)
  | [] => rfl
  | (key, value) :: rest => by
      rw [mapLeavesFields, sortedFields, sortedFields, mapLeavesFields, sorted_mapLeaves hf value,
        sortedFields_mapLeavesFields hf rest]

end

mutual

/-- The ordering of the keys keeps the leaves. -/
theorem mem_leaves_sorted {leaf : Json} : ∀ value : Json,
    leaf ∈ leaves (sorted value) ↔ leaf ∈ leaves value
  | .null | .bool _ | .int _ | .float _ | .str _ => Iff.rfl
  | .arr items => by
      rw [sorted, leaves, leaves]
      exact mem_leavesItems_sortedItems items
  | .obj fields => by
      have hperm := (sortedFields fields).perm_insertionSort fun a b => a.1 ≤ b.1
      rw [sorted, leaves, leaves, leavesFields_eq_flatMap,
        (hperm.flatMap_right _).mem_iff, ← leavesFields_eq_flatMap]
      exact mem_leavesFields_sortedFields fields

theorem mem_leavesItems_sortedItems {leaf : Json} : ∀ items : List Json,
    leaf ∈ leavesItems (sortedItems items) ↔ leaf ∈ leavesItems items
  | [] => Iff.rfl
  | item :: rest => by
      rw [sortedItems, leavesItems, leavesItems, List.mem_append, List.mem_append,
        mem_leaves_sorted item, mem_leavesItems_sortedItems rest]

theorem mem_leavesFields_sortedFields {leaf : Json} : ∀ fields : List (String × Json),
    leaf ∈ leavesFields (sortedFields fields) ↔ leaf ∈ leavesFields fields
  | [] => Iff.rfl
  | (key, value) :: rest => by
      rw [sortedFields, leavesFields, leavesFields, List.mem_append, List.mem_append,
        mem_leaves_sorted value, mem_leavesFields_sortedFields rest]

end

mutual

theorem wellFormed_mapLeaves (hf : ∀ value, IsLeaf value → WellFormed value →
    WellFormed (f value)) : ∀ {value : Json}, WellFormed value → WellFormed (mapLeaves f value)
  | .null, h => hf .null trivial h
  | .bool b, h => hf (.bool b) trivial h
  | .int n, h => hf (.int n) trivial h
  | .float text, h => hf (.float text) trivial h
  | .str text, h => hf (.str text) trivial h
  | .arr items, h => by
      rw [mapLeaves]
      exact itemsWellFormed_mapLeavesItems hf h
  | .obj fields, h => by
      rw [mapLeaves]
      refine ⟨?_, fieldsWellFormed_mapLeavesFields hf h.2⟩
      rw [mapLeavesFields_eq_map, List.map_map]
      exact h.1

theorem itemsWellFormed_mapLeavesItems (hf : ∀ value, IsLeaf value → WellFormed value →
    WellFormed (f value)) : ∀ {items : List Json}, ItemsWellFormed items →
      ItemsWellFormed (mapLeavesItems f items)
  | [], h => h
  | _ :: _, h => ⟨wellFormed_mapLeaves hf h.1, itemsWellFormed_mapLeavesItems hf h.2⟩

theorem fieldsWellFormed_mapLeavesFields (hf : ∀ value, IsLeaf value → WellFormed value →
    WellFormed (f value)) : ∀ {fields : List (String × Json)}, FieldsWellFormed fields →
      FieldsWellFormed (mapLeavesFields f fields)
  | [], h => h
  | (_, _) :: _, h => ⟨wellFormed_mapLeaves hf h.1, fieldsWellFormed_mapLeavesFields hf h.2⟩

end

mutual

theorem sorted_sorted : ∀ value : Json, sorted (sorted value) = sorted value
  | .null | .bool _ | .int _ | .float _ | .str _ => rfl
  | .arr items => by rw [sorted, sorted, sortedItems_sortedItems items]
  | .obj fields => by
      rw [sorted, sorted, sortedFields_eq_map ((sortedFields fields).insertionSort _),
        ← map_insertionSort_keys (fun e => (e.1, sorted e.2)) fun _ => rfl,
        ← sortedFields_eq_map, sortedFields_sortedFields fields]
      exact congrArg obj (List.pairwise_insertionSort _ _).insertionSort_eq

theorem sortedItems_sortedItems : ∀ items : List Json,
    sortedItems (sortedItems items) = sortedItems items
  | [] => rfl
  | item :: rest => by
      rw [sortedItems, sortedItems, sorted_sorted item, sortedItems_sortedItems rest]

theorem sortedFields_sortedFields : ∀ fields : List (String × Json),
    sortedFields (sortedFields fields) = sortedFields fields
  | [] => rfl
  | (key, value) :: rest => by
      rw [sortedFields, sortedFields, sorted_sorted value, sortedFields_sortedFields rest]

end

end Json

end Etlantic
