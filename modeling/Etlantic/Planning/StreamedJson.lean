import Etlantic.Base.JsonCanonical

/-!
# Streamed JSON

The planner hashes a plan in chunks and reserves the size of its text before it is
written.  Both are recursions of their own over the value, and both agree with the JSON
writer: the chunks are the bytes of the canonical text, and the size is the length of
the text that is written.
-/

namespace Etlantic.Planning

open Json (Layout encode encodeFields encodeTail escapeAscii escapeUnicode quote render sorted)

/-- `value[start : start + 4096] for start in range(0, len(value), 4096)`. -/
def slices (text : List Char) : List (List Char) :=
  (List.range ((text.length + 4095) / 4096)).map fun i => (text.drop (4096 * i)).take 4096

/-! ## Chunks -/

/-- The chunks of several values, with a comma before all but the first. -/
def separated : List (List (List Char)) → List (List Char)
  | [] => []
  | first :: rest => first ++ rest.flatMap fun chunks => [','] :: chunks

def textChunks (text : String) : List (List Char) :=
  ['"'] :: (slices text.toList).map (fun part => part.flatMap escapeUnicode) ++ [['"']]

mutual

/-- The texts that `canonical_chunks` encodes. -/
def chunkTexts : Json → List (List Char)
  | .str text => textChunks text
  | .obj fields => ['{'] :: separated (((fieldChunks fields).insertionSort
      fun a b => a.1 ≤ b.1).map Prod.snd) ++ [['}']]
  | .arr items => ['['] :: separated (itemChunks items) ++ [[']']]
  | value => [render escapeUnicode value]

def itemChunks : List Json → List (List (List Char))
  | [] => []
  | item :: rest => chunkTexts item :: itemChunks rest

def fieldChunks : List (String × Json) → List (String × List (List Char))
  | [] => []
  | (key, value) :: rest =>
      (key, textChunks key ++ [':'] :: chunkTexts value) :: fieldChunks rest

end

def utf8 (text : List Char) : ByteArray := (String.ofList text).toUTF8

def canonicalChunks (value : Json) : List ByteArray := (chunkTexts value).map utf8

/-- `b"".join(chunks)`, and what a digest is fed with. -/
def joined (chunks : List ByteArray) : ByteArray := chunks.foldr (· ++ ·) ByteArray.empty

/-! ## Sizes -/

def textSize (text : String) : Nat :=
  2 + ((slices text.toList).map fun part => (part.flatMap escapeAscii).length).sum

/-- The brackets, the commas and the white space of a container that is not empty. -/
def frameSize (indent : Option Int) (depth length : Nat) : Nat :=
  2 + (length - 1) + match indent with
    | none => 0
    | some n => length + 1 + (max 0 n).toNat * ((depth + 1) * length + depth)

mutual

def serializedSize (indent : Option Int) (depth : Nat) : Json → Nat
  | .str text => textSize text
  | .obj [] => 2
  | .obj (field :: rest) =>
      frameSize indent depth (rest.length + 1) + fieldsSize indent (depth + 1) (field :: rest)
  | .arr [] => 2
  | .arr (item :: rest) =>
      frameSize indent depth (rest.length + 1) + itemsSize indent (depth + 1) (item :: rest)
  | value => (render escapeAscii value).length

def itemsSize (indent : Option Int) (depth : Nat) : List Json → Nat
  | [] => 0
  | item :: rest => serializedSize indent depth item + itemsSize indent depth rest

def fieldsSize (indent : Option Int) (depth : Nat) : List (String × Json) → Nat
  | [] => 0
  | (key, value) :: rest =>
      textSize key + (if indent = none then 1 else 2) + serializedSize indent depth value +
        fieldsSize indent depth rest

end

/-- `materialize_wire`: the copy has its keys in order. -/
def materializeWire (value : Json) : Json := sorted value

/-- The layout of `indent`; without one, the separators are compact. -/
def layoutOf : Option Int → Layout
  | none => .compact
  | some n => .indented n.toNat

/-- `json.dumps(data, indent=indent, sort_keys=True)`, compact without an indent. -/
def dumpsSorted (indent : Option Int) (data : Json) : List Char :=
  encode escapeAscii (layoutOf indent) 0 (sorted data)

/-- The text that `adaptive_plan_to_json` returns for its view. -/
def writtenText (indent : Option Int) (view : Json) : List Char :=
  dumpsSorted indent (materializeWire view) ++ if indent = none then [] else ['\n']

/-! ## The chunks are the canonical text -/

theorem slices_flatten (text : List Char) : (slices text).flatten = text := by
  have htake : ∀ k, ((List.range k).map fun i => (text.drop (4096 * i)).take 4096).flatten =
      text.take (4096 * k) := by
    intro k
    induction k with
    | zero => rfl
    | succ k ih =>
        rw [List.range_succ, List.map_append, List.flatten_append, ih, Nat.mul_succ,
          List.take_add]
        simp
  unfold slices
  rw [htake, List.take_of_length_le]
  omega

/-- What is done with each character may be done slice by slice. -/
theorem slices_flatMap (escape : Char → List Char) (text : List Char) :
    ((slices text).map fun part => part.flatMap escape).flatten = text.flatMap escape := by
  have hparts : ∀ parts : List (List Char),
      (parts.map fun part => part.flatMap escape).flatten = parts.flatten.flatMap escape := by
    intro parts
    induction parts with
    | nil => rfl
    | cons part rest ih =>
        rw [List.map_cons, List.flatten_cons, List.flatten_cons, List.flatMap_append, ih]
  rw [hparts, slices_flatten]

theorem textChunks_flatten (text : String) : (textChunks text).flatten = quote escapeUnicode text := by
  unfold textChunks quote
  rw [List.flatten_append, List.flatten_cons, slices_flatMap]
  rfl

theorem separated_flatten : ∀ values : List (List (List Char)),
    (separated values).flatten = Json.commaSep (values.map List.flatten)
  | [] => rfl
  | [first] => by
      show (first ++ []).flatten = first.flatten
      rw [List.append_nil]
  | first :: second :: rest => by
      have ih := separated_flatten (second :: rest)
      have hcons : separated (first :: second :: rest) =
          first ++ [','] :: separated (second :: rest) := rfl
      rw [hcons, List.flatten_append, List.flatten_cons, ih]
      rfl

mutual

theorem chunkTexts_flatten : ∀ value : Json, (chunkTexts value).flatten = render escapeUnicode value
  | .null | .bool true | .bool false | .int _ | .float _ => List.append_nil _
  | .str text => textChunks_flatten text
  | .arr items => by
      rw [chunkTexts, render, List.flatten_append, List.flatten_cons, separated_flatten,
        itemChunks_flatten items]
      rfl
  | .obj fields => by
      have hsort : ((fieldChunks fields).insertionSort fun a b => a.1 ≤ b.1).map
          (fun f => (f.1, f.2.flatten)) =
            Json.sortFields (Json.renderFields escapeUnicode fields) := by
        rw [← fieldChunks_flatten fields]
        have hkeys := Json.map_insertionSort_keys
          (fun f : String × List (List Char) => (f.1, f.2.flatten)) (fun _ => rfl)
          (fieldChunks fields)
        exact hkeys.symm
      rw [chunkTexts, render, List.flatten_append, List.flatten_cons, separated_flatten,
        ← hsort, List.map_map, List.map_map]
      rfl

theorem itemChunks_flatten : ∀ items : List Json,
    (itemChunks items).map List.flatten = Json.renderItems escapeUnicode items
  | [] => rfl
  | item :: rest => by
      rw [itemChunks, Json.renderItems, List.map_cons, chunkTexts_flatten item,
        itemChunks_flatten rest]

theorem fieldChunks_flatten : ∀ fields : List (String × Json),
    (fieldChunks fields).map (fun f => (f.1, f.2.flatten)) =
      Json.renderFields escapeUnicode fields
  | [] => rfl
  | (key, value) :: rest => by
      rw [fieldChunks, Json.renderFields, List.map_cons, List.flatten_append,
        List.flatten_cons, textChunks_flatten, chunkTexts_flatten value, fieldChunks_flatten rest]
      rfl

end

theorem utf8_append (a b : List Char) : utf8 (a ++ b) = utf8 a ++ utf8 b := by
  unfold utf8
  rw [String.ofList_append]
  exact String.toByteArray_append

theorem joined_map_utf8 : ∀ texts : List (List Char),
    joined (texts.map utf8) = utf8 texts.flatten
  | [] => rfl
  | text :: rest => by
      have ih := joined_map_utf8 rest
      show utf8 text ++ joined (rest.map utf8) = _
      rw [ih, List.flatten_cons, utf8_append]

/-! ## The size is the length -/

/-- The white space of a line, by depth. -/
def lineSize (indent : Option Int) (depth : Nat) : Nat :=
  match indent with
  | none => 0
  | some n => 1 + (max 0 n).toNat * depth

theorem length_line (indent : Option Int) (depth : Nat) :
    ((layoutOf indent).line depth).length = lineSize indent depth := by
  cases indent with
  | none => rfl
  | some n =>
      have hmax : (max 0 n).toNat = n.toNat := by omega
      show ('\n' :: List.replicate (n.toNat * depth) ' ').length = 1 + (max 0 n).toNat * depth
      rw [List.length_cons, List.length_replicate, hmax, Nat.add_comm]

theorem length_gap (indent : Option Int) (depth : Nat) :
    ((layoutOf indent).gap depth).length = lineSize indent depth := by
  rw [← length_line]
  cases indent with
  | none => rfl
  | some n => rfl

theorem length_colon (indent : Option Int) :
    1 + (layoutOf indent).colon.length = if indent = none then 1 else 2 := by
  cases indent with
  | none => rfl
  | some n => rfl

theorem length_quote (text : String) : (quote escapeAscii text).length = textSize text := by
  have hparts : ∀ parts : List (List Char),
      (parts.map fun part => (part.flatMap escapeAscii).length).sum =
        (parts.map fun part => part.flatMap escapeAscii).flatten.length := by
    intro parts
    rw [List.length_flatten, List.map_map]
    rfl
  unfold quote textSize
  rw [hparts, slices_flatMap, List.length_append, List.length_cons, List.length_singleton]
  omega

/-- The brackets, the commas and the lines of a container with `length` entries. -/
theorem frameSize_eq (indent : Option Int) (depth rest : Nat) :
    frameSize indent depth (rest + 1) =
      2 + rest + (rest + 1) * lineSize indent (depth + 1) + lineSize indent depth := by
  unfold frameSize lineSize
  cases indent with
  | none =>
      show 2 + rest + 0 = 2 + rest + (rest + 1) * 0 + 0
      omega
  | some n =>
      show 2 + rest + (rest + 1 + 1 + (max 0 n).toNat * ((depth + 1) * (rest + 1) + depth)) =
        2 + rest + (rest + 1) * (1 + (max 0 n).toNat * (depth + 1)) +
          (1 + (max 0 n).toNat * depth)
      ring

mutual

/-- The size of a value is the length of its text, in the order that it has. -/
theorem length_encode (indent : Option Int) : ∀ (value : Json) (depth : Nat),
    (encode escapeAscii (layoutOf indent) depth value).length = serializedSize indent depth value
  | .null, _ | .bool true, _ | .bool false, _ | .int _, _ | .float _, _ => rfl
  | .str text, _ => length_quote text
  | .arr [], _ | .obj [], _ => rfl
  | .arr (item :: rest), depth => by
      have hitem := length_encode indent item (depth + 1)
      have hrest := length_encodeTail indent rest (depth + 1)
      rw [encode, serializedSize, itemsSize, frameSize_eq]
      simp only [List.length_cons, List.length_append, List.length_nil, length_line, hitem, hrest]
      ring
  | .obj ((key, value) :: rest), depth => by
      have hvalue := length_encode indent value (depth + 1)
      have hrest := length_encodeFields indent rest (depth + 1)
      rw [encode, serializedSize, fieldsSize, frameSize_eq, ← length_colon]
      simp only [List.length_cons, List.length_append, List.length_nil, length_line, hvalue,
        hrest, length_quote]
      ring

theorem length_encodeTail (indent : Option Int) : ∀ (items : List Json) (depth : Nat),
    (encodeTail escapeAscii (layoutOf indent) depth items).length =
      items.length * (1 + lineSize indent depth) + itemsSize indent depth items
  | [], _ => by
      rw [itemsSize, List.length_nil, Nat.zero_mul]
      rfl
  | item :: rest, depth => by
      have hitem := length_encode indent item depth
      have hrest := length_encodeTail indent rest depth
      rw [encodeTail, itemsSize]
      simp only [List.length_cons, List.length_append, length_gap, hitem, hrest]
      ring

theorem length_encodeFields (indent : Option Int) : ∀ (fields : List (String × Json))
    (depth : Nat), (encodeFields escapeAscii (layoutOf indent) depth fields).length =
      fields.length * (1 + lineSize indent depth) + fieldsSize indent depth fields
  | [], _ => by
      rw [fieldsSize, List.length_nil, Nat.zero_mul]
      rfl
  | (key, value) :: rest, depth => by
      have hvalue := length_encode indent value depth
      have hrest := length_encodeFields indent rest depth
      rw [encodeFields, fieldsSize, ← length_colon]
      simp only [List.length_cons, List.length_append, length_gap, hvalue, hrest, length_quote]
      ring

end

/-! ## The order of the keys -/

theorem itemsSize_eq_sum (indent : Option Int) (depth : Nat) : ∀ items : List Json,
    itemsSize indent depth items = (items.map (serializedSize indent depth)).sum
  | [] => rfl
  | item :: rest => by
      rw [itemsSize, itemsSize_eq_sum indent depth rest, List.map_cons, List.sum_cons]

/-- The size of one field. -/
def fieldSize (indent : Option Int) (depth : Nat) (field : String × Json) : Nat :=
  textSize field.1 + (if indent = none then 1 else 2) + serializedSize indent depth field.2

theorem fieldsSize_eq_sum (indent : Option Int) (depth : Nat) : ∀ fields : List (String × Json),
    fieldsSize indent depth fields = (fields.map (fieldSize indent depth)).sum
  | [] => rfl
  | (key, value) :: rest => by
      rw [fieldsSize, fieldsSize_eq_sum indent depth rest, List.map_cons, List.sum_cons]
      rfl

theorem serializedSize_obj (indent : Option Int) (depth : Nat) (fields : List (String × Json)) :
    serializedSize indent depth (.obj fields) = if fields = [] then 2 else
      frameSize indent depth fields.length +
        (fields.map (fieldSize indent (depth + 1))).sum := by
  cases fields with
  | nil => rfl
  | cons field rest =>
      rw [serializedSize, fieldsSize_eq_sum, if_neg (List.cons_ne_nil _ _), List.length_cons]

theorem serializedSize_arr (indent : Option Int) (depth : Nat) (items : List Json) :
    serializedSize indent depth (.arr items) = if items = [] then 2 else
      frameSize indent depth items.length +
        (items.map (serializedSize indent (depth + 1))).sum := by
  cases items with
  | nil => rfl
  | cons item rest =>
      rw [serializedSize, itemsSize_eq_sum, if_neg (List.cons_ne_nil _ _), List.length_cons]

mutual

theorem serializedSize_sorted (indent : Option Int) : ∀ (value : Json) (depth : Nat),
    serializedSize indent depth (sorted value) = serializedSize indent depth value
  | .null, _ | .bool _, _ | .int _, _ | .float _, _ | .str _, _ => rfl
  | .arr items, depth => by
      have hitems := itemSizes_sorted indent items (depth + 1)
      rw [sorted, Json.sortedItems_eq_map, serializedSize_arr, serializedSize_arr,
        List.length_map, List.map_map, hitems]
      simp only [List.map_eq_nil_iff]
  | .obj fields, depth => by
      have hfields := fieldSizes_sorted indent fields (depth + 1)
      have hperm : ((fields.map fun f => (f.1, sorted f.2)).insertionSort
          fun a b => a.1 ≤ b.1).Perm (fields.map fun f => (f.1, sorted f.2)) :=
        List.perm_insertionSort _ _
      have hnil : ((fields.map fun f => (f.1, sorted f.2)).insertionSort
          fun a b => a.1 ≤ b.1) = [] ↔ fields = [] := by
        rw [← List.length_eq_zero_iff, hperm.length_eq, List.length_map, List.length_eq_zero_iff]
      rw [sorted, Json.sortedFields_eq_map, serializedSize_obj, serializedSize_obj,
        hperm.length_eq, (hperm.map _).sum_nat, List.length_map, List.map_map, hfields]
      simp only [hnil]

theorem itemSizes_sorted (indent : Option Int) : ∀ (items : List Json) (depth : Nat),
    items.map (serializedSize indent depth ∘ sorted) = items.map (serializedSize indent depth)
  | [], _ => rfl
  | item :: rest, depth => by
      have hitem := serializedSize_sorted indent item depth
      rw [List.map_cons, List.map_cons, itemSizes_sorted indent rest depth, Function.comp_apply,
        hitem]

theorem fieldSizes_sorted (indent : Option Int) : ∀ (fields : List (String × Json)) (depth : Nat),
    fields.map (fieldSize indent depth ∘ fun f => (f.1, sorted f.2)) =
      fields.map (fieldSize indent depth)
  | [], _ => rfl
  | (key, value) :: rest, depth => by
      have hvalue := serializedSize_sorted indent value depth
      rw [List.map_cons, List.map_cons, fieldSizes_sorted indent rest depth, Function.comp_apply]
      unfold fieldSize
      rw [hvalue]

end

/-! ## What is hashed and what is written -/

theorem joined_canonicalChunks (value : Json) :
    joined (canonicalChunks value) = (Json.dumps escapeUnicode value).toUTF8 := by
  unfold canonicalChunks
  rw [joined_map_utf8, chunkTexts_flatten]
  rfl

theorem length_dumpsSorted (indent : Option Int) (value : Json) :
    (dumpsSorted indent (materializeWire value)).length = serializedSize indent 0 value := by
  unfold dumpsSorted materializeWire
  rw [length_encode, serializedSize_sorted, serializedSize_sorted]

/-- The chunks are the bytes of the canonical text, and the size, with the newline that
ends an indented text, is the length of the text that is written. -/
theorem streamed_exact (value : Json) (indent : Option Int) :
    joined (canonicalChunks value) = (Json.dumps escapeUnicode value).toUTF8 ∧
      serializedSize indent 0 value = (dumpsSorted indent (materializeWire value)).length ∧
      serializedSize indent 0 value + (if indent = none then 0 else 1) =
        (writtenText indent value).length := by
  refine ⟨joined_canonicalChunks value, (length_dumpsSorted indent value).symm, ?_⟩
  unfold writtenText
  rw [List.length_append, length_dumpsSorted]
  by_cases hnone : indent = none
  · rw [if_pos hnone, if_pos hnone]
    rfl
  · rw [if_neg hnone, if_neg hnone]
    rfl

end Etlantic.Planning
