import Etlantic.Base.JsonText

/-!
# Canonical JSON text

`dumps` with sorted keys is the plain compact text of the document whose objects
are sorted.  Read back, it gives that document, so two documents have the same
canonical text exactly when they are equal up to the order of their keys, and
the text is self-delimiting.
-/

namespace Etlantic

namespace Json

/-! ## Sorted documents -/

mutual

/-- The document with the fields of every object in key order. -/
def sorted : Json → Json
  | arr items => arr (sortedItems items)
  | obj fields => obj ((sortedFields fields).insertionSort (fun a b => a.1 ≤ b.1))
  | value => value

def sortedItems : List Json → List Json
  | [] => []
  | item :: rest => sorted item :: sortedItems rest

def sortedFields : List (String × Json) → List (String × Json)
  | [] => []
  | (key, value) :: rest => (key, sorted value) :: sortedFields rest

end

theorem sortedItems_eq_map : ∀ items : List Json, sortedItems items = items.map sorted
  | [] => rfl
  | item :: rest => by rw [sortedItems, sortedItems_eq_map rest, List.map_cons]

theorem sortedFields_eq_map : ∀ fields : List (String × Json),
    sortedFields fields = fields.map fun f => (f.1, sorted f.2)
  | [] => rfl
  | (key, value) :: rest => by rw [sortedFields, sortedFields_eq_map rest, List.map_cons]

theorem itemsWellFormed_iff : ∀ {items : List Json},
    ItemsWellFormed items ↔ ∀ item ∈ items, WellFormed item
  | [] => by simp [ItemsWellFormed]
  | item :: rest => by simp [ItemsWellFormed, itemsWellFormed_iff]

theorem fieldsWellFormed_iff : ∀ {fields : List (String × Json)},
    FieldsWellFormed fields ↔ ∀ f ∈ fields, WellFormed f.2
  | [] => by simp [FieldsWellFormed]
  | (key, value) :: rest => by simp [FieldsWellFormed, fieldsWellFormed_iff]

mutual

theorem wellFormed_sorted : ∀ {value : Json}, WellFormed value → WellFormed (sorted value)
  | .null, h | .bool _, h | .int _, h | .float _, h | .str _, h => h
  | .arr items, h => by
      rw [sorted, sortedItems_eq_map]
      refine itemsWellFormed_iff.mpr ?_
      intro item hitem
      obtain ⟨source, hsource, rfl⟩ := List.mem_map.mp hitem
      exact wellFormed_sorted (itemsWellFormed_iff.mp h source hsource)
  | .obj fields, h => by
      obtain ⟨hnodup, hfields⟩ := h
      have hperm := (sortedFields fields).perm_insertionSort (fun a b => a.1 ≤ b.1)
      have hkeys : (sortedFields fields).map Prod.fst = fields.map Prod.fst := by
        rw [sortedFields_eq_map, List.map_map]
        rfl
      rw [sorted]
      refine ⟨?_, fieldsWellFormed_iff.mpr ?_⟩
      · rw [(hperm.map Prod.fst).nodup_iff, hkeys]
        exact hnodup
      · intro f hf
        have hf := hperm.mem_iff.mp hf
        exact fieldsWellFormed_iff.mp (fieldsWellFormed_sortedFields hfields) f hf

theorem fieldsWellFormed_sortedFields : ∀ {fields : List (String × Json)},
    FieldsWellFormed fields → FieldsWellFormed (sortedFields fields)
  | [], h => h
  | (_, _) :: _, h => ⟨wellFormed_sorted h.1, fieldsWellFormed_sortedFields h.2⟩

end

/-! ## The canonical text is plain text -/

/-- `separators=(",", ":")`. -/
def Layout.compact : Layout where
  line _ := []
  gap _ := []
  colon := []
  line_blank := line_blank_nil
  gap_blank := line_blank_nil
  colon_blank := by simp

section

variable {escape : Char → List Char}

theorem renderItems_eq_map : ∀ items : List Json,
    renderItems escape items = items.map (render escape)
  | [] => rfl
  | item :: rest => by rw [renderItems, renderItems_eq_map rest, List.map_cons]

theorem renderFields_eq_map : ∀ fields : List (String × Json),
    renderFields escape fields =
      fields.map fun f => (f.1, quote escape f.1 ++ ':' :: render escape f.2)
  | [] => rfl
  | (key, value) :: rest => by rw [renderFields, renderFields_eq_map rest, List.map_cons]

theorem commaSep_encodeTail (level : Nat) (item : Json) : ∀ rest : List Json,
    commaSep ((item :: rest).map (encode escape .compact level)) =
      encode escape .compact level item ++ encodeTail escape .compact level rest
  | [] => (List.append_nil _).symm
  | next :: rest => by
      have ih := commaSep_encodeTail level next rest
      rw [List.map_cons] at ih ⊢
      rw [List.map_cons, commaSep, ih]
      · rfl
      · simp

/-- The text of one field. -/
def fieldText (escape : Char → List Char) (level : Nat) (f : String × Json) : List Char :=
  quote escape f.1 ++ ':' :: encode escape .compact level f.2

theorem commaSep_encodeFields (level : Nat) (f : String × Json) :
    ∀ rest : List (String × Json), commaSep ((f :: rest).map (fieldText escape level)) =
      fieldText escape level f ++ encodeFields escape .compact level rest
  | [] => (List.append_nil _).symm
  | (key, value) :: rest => by
      have ih := commaSep_encodeFields level (key, value) rest
      rw [List.map_cons] at ih ⊢
      rw [List.map_cons, commaSep, ih]
      · unfold fieldText
        rw [encodeFields]
        simp [Layout.compact]
      · simp

theorem encode_arr (level : Nat) : ∀ items : List Json,
    encode escape .compact level (arr items) =
      '[' :: commaSep (items.map (encode escape .compact (level + 1))) ++ [']']
  | [] => rfl
  | item :: rest => by
      rw [commaSep_encodeTail, encode]
      simp [Layout.compact]

theorem encode_obj (level : Nat) : ∀ fields : List (String × Json),
    encode escape .compact level (obj fields) =
      '{' :: commaSep (fields.map (fieldText escape (level + 1))) ++ ['}']
  | [] => rfl
  | (key, value) :: rest => by
      rw [commaSep_encodeFields, encode]
      simp [Layout.compact, fieldText]

theorem map_insertionSort_keys {α β : Type} (g : String × α → String × β)
    (hkey : ∀ f, (g f).1 = f.1) (fields : List (String × α)) :
    (fields.map g).insertionSort (fun a b => a.1 ≤ b.1) =
      (fields.insertionSort (fun a b => a.1 ≤ b.1)).map g := by
  refine (List.map_insertionSort (fun a b => a.1 ≤ b.1) (fun a b => a.1 ≤ b.1) g fields ?_).symm
  intro a _ b _
  rw [hkey, hkey]

mutual

/-- The canonical text of a document is the compact text of the sorted one. -/
theorem render_eq_encode : ∀ (value : Json) (level : Nat),
    render escape value = encode escape .compact level (sorted value)
  | .null, _ | .bool true, _ | .bool false, _ | .int _, _ | .float _, _ | .str _, _ => rfl
  | .arr items, level => by
      rw [render, sorted, encode_arr, renderItems_eq_map, sortedItems_eq_map,
        renderItems_eq_encode items (level + 1)]
  | .obj fields, level => by
      have hrender := map_insertionSort_keys
        (fun f => (f.1, quote escape f.1 ++ ':' :: render escape f.2)) (fun _ => rfl) fields
      have hsorted := map_insertionSort_keys (fun f => (f.1, sorted f.2)) (fun _ => rfl) fields
      rw [render, sorted, encode_obj, renderFields_eq_map, sortedFields_eq_map, sortFields,
        hrender, hsorted, List.map_map, List.map_map]
      congr 3
      refine List.map_congr_left ?_
      intro f hf
      have hf : f ∈ fields := (List.mem_insertionSort _).mp hf
      show quote escape f.1 ++ ':' :: render escape f.2 = fieldText escape (level + 1) (f.1, sorted f.2)
      rw [renderFields_eq_encode fields (level + 1) f hf]
      rfl

theorem renderItems_eq_encode : ∀ (items : List Json) (level : Nat),
    items.map (render escape) = (items.map sorted).map (encode escape .compact level)
  | [], _ => rfl
  | item :: rest, level => by
      rw [List.map_cons, List.map_cons, List.map_cons, render_eq_encode item level,
        renderItems_eq_encode rest level]

theorem renderFields_eq_encode : ∀ (fields : List (String × Json)) (level : Nat),
    ∀ f ∈ fields, render escape f.2 = encode escape .compact level (sorted f.2)
  | [], _, _, hf => absurd hf List.not_mem_nil
  | (key, value) :: rest, level, f, hf => by
      rcases List.mem_cons.mp hf with rfl | hf
      · exact render_eq_encode value level
      · exact renderFields_eq_encode rest level f hf

end

/-! ## Equal texts -/

/-- Canonical text is self-delimiting. -/
theorem render_append_inj (h : Readable escape) {a b : Json} {x y : List Char}
    (ha : WellFormed a) (hb : WellFormed b) (hx : Fresh x) (hy : Fresh y)
    (heq : render escape a ++ x = render escape b ++ y) : sorted a = sorted b ∧ x = y := by
  rw [render_eq_encode a 0, render_eq_encode b 0] at heq
  have hread := readValue_encode h (sorted a) 0
    ((encode escape .compact 0 (sorted a)).length + (encode escape .compact 0 (sorted b)).length) x
    (wellFormed_sorted ha) (Nat.le_add_right _ _) hx
  have hread' := readValue_encode h (sorted b) 0
    ((encode escape .compact 0 (sorted a)).length + (encode escape .compact 0 (sorted b)).length) y
    (wellFormed_sorted hb) (Nat.le_add_left _ _) hy
  rw [heq] at hread
  have hboth := Option.some.inj (hread.symm.trans hread')
  exact ⟨(Prod.mk.inj hboth).1, (Prod.mk.inj hboth).2⟩

/-- Two documents have the same canonical text exactly when they agree up to key order. -/
theorem dumps_eq_iff (h : Readable escape) {a b : Json} (ha : WellFormed a) (hb : WellFormed b) :
    dumps escape a = dumps escape b ↔ sorted a = sorted b := by
  constructor
  · intro heq
    have heq : render escape a = render escape b := by
      have := congrArg String.toList heq
      rwa [dumps, dumps, String.toList_ofList, String.toList_ofList] at this
    exact (render_append_inj h ha hb fresh_nil fresh_nil
      (by rw [List.append_nil, List.append_nil, heq])).1
  · intro heq
    unfold dumps
    rw [render_eq_encode a 0, render_eq_encode b 0, heq]

end

/-! ## Fields of a sorted object -/

theorem find?_eq_of_perm {α : Type} {l l' : List (String × α)} (hperm : l.Perm l')
    (hnodup : (l.map Prod.fst).Nodup) (key : String) :
    l.find? (fun f => f.1 = key) = l'.find? (fun f => f.1 = key) := by
  have hnodup' : (l'.map Prod.fst).Nodup := (hperm.map Prod.fst).nodup_iff.mp hnodup
  have hunique : ∀ {m : List (String × α)}, (m.map Prod.fst).Nodup → ∀ f ∈ m, f.1 = key →
      m.find? (fun f => f.1 = key) = some f := by
    intro m hm f hf hkey
    cases hfind : m.find? (fun f => f.1 = key) with
    | none =>
        have := List.find?_eq_none.mp hfind f hf
        exact absurd (by simpa using hkey) this
    | some g =>
        have hg := List.mem_of_find?_eq_some hfind
        have hgkey : g.1 = key := by simpa using List.find?_some hfind
        have hsame := List.inj_on_of_nodup_map hm hg hf (hgkey.trans hkey.symm)
        rw [hsame]
  cases hfind : l.find? (fun f => f.1 = key) with
  | none =>
      refine (List.find?_eq_none.mpr ?_).symm
      intro f hf
      exact List.find?_eq_none.mp hfind f (hperm.mem_iff.mpr hf)
  | some f =>
      have hf := hperm.mem_iff.mp (List.mem_of_find?_eq_some hfind)
      have hkey : f.1 = key := by simpa using List.find?_some hfind
      exact (hunique hnodup' f hf hkey).symm

theorem field?_sorted {fields : List (String × Json)} (hnodup : (fields.map Prod.fst).Nodup)
    (key : String) : (sorted (obj fields)).field? key = ((obj fields).field? key).map sorted := by
  have hkeys : ((sortedFields fields).map Prod.fst).Nodup := by
    rw [sortedFields_eq_map, List.map_map]
    exact hnodup
  have hperm := (sortedFields fields).perm_insertionSort (fun a b => a.1 ≤ b.1)
  rw [sorted, field?, field?, find?_eq_of_perm hperm ((hperm.map Prod.fst).nodup_iff.mpr hkeys) key,
    sortedFields_eq_map, List.find?_map, Option.map_map, Option.map_map]
  rfl

end Json

end Etlantic
