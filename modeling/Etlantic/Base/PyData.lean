import Etlantic.Base.JsonCanonical
import Mathlib.Data.String.Basic

/-!
# Nested data and its JSON

`PyData` is what a program keeps in nested lists and mappings before it writes them as
JSON.  It has more values than JSON: sets, keys that are not texts, and objects that no
writer knows.  A mapping is its items in the order of their keys, because nothing that
is said here depends on another order.

`JsonData` values are those that JSON has.  Written and read back, they are themselves
(`ofJson_image`).
-/

namespace Etlantic

inductive DataKey where
  | str (s : String)
  | int (n : Int)
  | float (repr : String)
  | bool (b : Bool)
  | none
deriving DecidableEq

/-- A nested value.  A list may be a tuple; a set has its items in the order of iteration;
a float is finite. -/
inductive PyData where
  | none
  | bool (b : Bool)
  | int (n : Int)
  | float (repr : String)
  | str (s : String)
  | list (items : List PyData)
  | set (items : List PyData)
  | dict (entries : List (DataKey × PyData))
  | object

/-- The text of a key in an object. -/
def DataKey.text : DataKey → String
  | .str s => s
  | .int n => toString n
  | .float repr => repr
  | .bool true => "true"
  | .bool false => "false"
  | .none => "null"

def DataKey.isText : DataKey → Bool
  | .str _ => true
  | _ => false

def DataKey.isNumber : DataKey → Bool
  | .int _ => true
  | .float _ => true
  | .bool _ => true
  | _ => false

/-- `sorted(keys)` compares no text with a number, and `None` with nothing. -/
def comparableKeys (keys : List DataKey) : Bool :=
  keys.length ≤ 1 || keys.all DataKey.isText || keys.all DataKey.isNumber

/-! ## Items in key order -/

section Ordered

variable {κ ν : Type} [LinearOrder κ]

/-- `items[key] = value`, with the items in key order. -/
def putOrdered (key : κ) (value : ν) : List (κ × ν) → List (κ × ν)
  | [] => [(key, value)]
  | e :: rest =>
      if key < e.1 then (key, value) :: e :: rest
      else if key = e.1 then (key, value) :: rest
      else e :: putOrdered key value rest

/-- The items of several assignments. -/
def orderedItems (items : List (κ × ν)) : List (κ × ν) :=
  items.foldl (fun put e => putOrdered e.1 e.2 put) []

/-- The keys are in order. -/
def KeysOrdered (items : List (κ × ν)) : Prop := (items.map Prod.fst).Pairwise (· < ·)

theorem mem_keys_putOrdered {key k : κ} {value : ν} {items : List (κ × ν)} :
    k ∈ (putOrdered key value items).map Prod.fst ↔ k = key ∨ k ∈ items.map Prod.fst := by
  induction items with
  | nil => simp [putOrdered]
  | cons e rest ih =>
      unfold putOrdered
      split
      · simp
      · split
        · rename_i heq
          simp [heq]
        · rw [List.map_cons, List.mem_cons, ih, List.map_cons, List.mem_cons]
          exact or_left_comm

theorem KeysOrdered.put {items : List (κ × ν)} (h : KeysOrdered items) (key : κ) (value : ν) :
    KeysOrdered (putOrdered key value items) := by
  induction items with
  | nil => exact List.pairwise_singleton _ _
  | cons e rest ih =>
      obtain ⟨hfirst, hrest⟩ := List.pairwise_cons.mp h
      unfold putOrdered
      split
      · rename_i hlt
        refine List.pairwise_cons.mpr ⟨?_, h⟩
        intro k hk
        rcases List.mem_cons.mp hk with rfl | hk
        · exact hlt
        · exact hlt.trans (hfirst k hk)
      · split
        · rename_i heq
          subst heq
          exact h
        · rename_i hlt hne
          refine List.pairwise_cons.mpr ⟨?_, ih hrest⟩
          intro k hk
          rcases mem_keys_putOrdered.mp hk with rfl | hk
          · exact lt_of_le_of_ne (not_lt.mp hlt) fun heq => hne heq.symm
          · exact hfirst k hk

theorem keysOrdered_orderedItems (items : List (κ × ν)) : KeysOrdered (orderedItems items) := by
  have hfold : ∀ put : List (κ × ν), KeysOrdered put →
      KeysOrdered (items.foldl (fun put e => putOrdered e.1 e.2 put) put) := by
    induction items with
    | nil => exact fun put hput => hput
    | cons e rest ih => exact fun put hput => ih _ (hput.put e.1 e.2)
  exact hfold [] List.Pairwise.nil

/-- A key behind all others goes to the end. -/
theorem putOrdered_last {key : κ} {value : ν} {items : List (κ × ν)}
    (h : ∀ e ∈ items, e.1 < key) : putOrdered key value items = items ++ [(key, value)] := by
  induction items with
  | nil => rfl
  | cons e rest ih =>
      have hlt := h e List.mem_cons_self
      unfold putOrdered
      rw [if_neg hlt.not_gt, if_neg hlt.ne', ih fun e' he' => h e' (List.mem_cons_of_mem _ he')]
      rfl

theorem foldl_putOrdered {items : List (κ × ν)} : ∀ {put : List (κ × ν)},
    KeysOrdered (put ++ items) →
      items.foldl (fun put e => putOrdered e.1 e.2 put) put = put ++ items := by
  induction items with
  | nil => exact fun _ => (List.append_nil _).symm
  | cons e rest ih =>
      intro put h
      have hbehind : ∀ e' ∈ put, e'.1 < e.1 := by
        intro e' he'
        unfold KeysOrdered at h
        rw [List.map_append, List.pairwise_append] at h
        exact h.2.2 e'.1 (List.mem_map_of_mem he') e.1 List.mem_cons_self
      rw [List.foldl_cons, putOrdered_last hbehind, ih ?_]
      · rw [List.append_assoc]
        rfl
      · rw [List.append_assoc]
        exact h

/-- Assigned in key order, the items stay as they are. -/
theorem orderedItems_of_ordered {items : List (κ × ν)} (h : KeysOrdered items) :
    orderedItems items = items :=
  foldl_putOrdered h

end Ordered

namespace PyData

/-- `value[key]`, if it is a mapping with the key. -/
def get? (key : String) : PyData → Option PyData
  | .dict entries => (entries.find? fun e => e.1 = .str key).map Prod.snd
  | _ => Option.none

mutual

/-- What `json.dumps` writes, if it does not raise. -/
def image (sortKeys : Bool) : PyData → Option Json
  | .none => some .null
  | .bool b => some (.bool b)
  | .int n => some (.int n)
  | .float repr => some (.float repr)
  | .str s => some (.str s)
  | .list items => (imageItems sortKeys items).map .arr
  | .set _ => Option.none
  | .dict entries =>
      if sortKeys && !comparableKeys (entries.map Prod.fst) then Option.none
      else (imageFields sortKeys entries).map .obj
  | .object => Option.none

def imageItems (sortKeys : Bool) : List PyData → Option (List Json)
  | [] => some []
  | item :: rest => do
      let first ← image sortKeys item
      let others ← imageItems sortKeys rest
      return first :: others

def imageFields (sortKeys : Bool) : List (DataKey × PyData) → Option (List (String × Json))
  | [] => some []
  | (key, value) :: rest => do
      let first ← image sortKeys value
      let others ← imageFields sortKeys rest
      return (key.text, first) :: others

end

/-- A mapping with texts as keys. -/
def ofFields (fields : List (String × PyData)) : PyData :=
  .dict ((orderedItems fields).map fun f => (.str f.1, f.2))

mutual

/-- What a JSON reader returns. -/
def ofJson : Json → PyData
  | .null => .none
  | .bool b => .bool b
  | .int n => .int n
  | .float repr => .float repr
  | .str s => .str s
  | .arr items => .list (ofJsonItems items)
  | .obj fields => ofFields (ofJsonFields fields)

def ofJsonItems : List Json → List PyData
  | [] => []
  | item :: rest => ofJson item :: ofJsonItems rest

def ofJsonFields : List (String × Json) → List (String × PyData)
  | [] => []
  | (key, value) :: rest => (key, ofJson value) :: ofJsonFields rest

end

/-- The keys are texts, in order. -/
def TextKeys (entries : List (DataKey × PyData)) : Prop :=
  ∃ names : List String, entries.map Prod.fst = names.map DataKey.str ∧ names.Pairwise (· < ·)

mutual

/-- The value is one that JSON has. -/
def JsonData : PyData → Prop
  | .float repr => Json.isFloatNumeral repr.toList = true
  | .list items => JsonItems items
  | .set _ => False
  | .dict entries => TextKeys entries ∧ JsonFields entries
  | .object => False
  | _ => True

def JsonItems : List PyData → Prop
  | [] => True
  | item :: rest => JsonData item ∧ JsonItems rest

def JsonFields : List (DataKey × PyData) → Prop
  | [] => True
  | (_, value) :: rest => JsonData value ∧ JsonFields rest

end

/-- The texts among the keys. -/
def keyTexts : List (DataKey × PyData) → List String
  | [] => []
  | (.str name, _) :: rest => name :: keyTexts rest
  | _ :: rest => keyTexts rest

theorem keyTexts_of_names : ∀ {entries : List (DataKey × PyData)} {names : List String},
    entries.map Prod.fst = names.map DataKey.str → keyTexts entries = names
  | [], [], _ => rfl
  | [], _ :: _, h => by cases h
  | _ :: _, [], h => by cases h
  | (key, value) :: rest, name :: names, h => by
      obtain ⟨hkey, hrest⟩ := List.cons.inj h
      change key = .str name at hkey
      subst hkey
      rw [keyTexts, keyTexts_of_names hrest]

theorem textKeys_iff {entries : List (DataKey × PyData)} : TextKeys entries ↔
    entries.map Prod.fst = (keyTexts entries).map DataKey.str ∧
      (keyTexts entries).Pairwise (· < ·) := by
  constructor
  · rintro ⟨names, hnames, hordered⟩
    rw [keyTexts_of_names hnames]
    exact ⟨hnames, hordered⟩
  · rintro ⟨hnames, hordered⟩
    exact ⟨_, hnames, hordered⟩

instance (entries : List (DataKey × PyData)) : Decidable (TextKeys entries) :=
  decidable_of_iff _ textKeys_iff.symm

mutual

def decideJsonData : ∀ value : PyData, Decidable (JsonData value)
  | .none => isTrue trivial
  | .bool _ => isTrue trivial
  | .int _ => isTrue trivial
  | .float repr => inferInstanceAs (Decidable (Json.isFloatNumeral repr.toList = true))
  | .str _ => isTrue trivial
  | .list items => decideJsonItems items
  | .set _ => isFalse False.elim
  | .dict entries =>
      have := decideJsonFields entries
      inferInstanceAs (Decidable (TextKeys entries ∧ JsonFields entries))
  | .object => isFalse False.elim

def decideJsonItems : ∀ items : List PyData, Decidable (JsonItems items)
  | [] => isTrue trivial
  | item :: rest =>
      have := decideJsonData item
      have := decideJsonItems rest
      inferInstanceAs (Decidable (JsonData item ∧ JsonItems rest))

def decideJsonFields : ∀ entries : List (DataKey × PyData), Decidable (JsonFields entries)
  | [] => isTrue trivial
  | (_, value) :: rest =>
      have := decideJsonData value
      have := decideJsonFields rest
      inferInstanceAs (Decidable (JsonData value ∧ JsonFields rest))

end

instance (value : PyData) : Decidable (JsonData value) := decideJsonData value

theorem comparableKeys_of_textKeys {entries : List (DataKey × PyData)} (h : TextKeys entries) :
    comparableKeys (entries.map Prod.fst) = true := by
  obtain ⟨names, hnames, -⟩ := h
  have htexts : (names.map DataKey.str).all DataKey.isText = true := by
    rw [List.all_eq_true]
    intro key hkey
    obtain ⟨name, -, rfl⟩ := List.mem_map.mp hkey
    rfl
  unfold comparableKeys
  rw [hnames, htexts, Bool.or_true, Bool.true_or]

theorem jsonItems_iff {items : List PyData} : JsonItems items ↔ ∀ item ∈ items, JsonData item := by
  induction items with
  | nil => simp [JsonItems]
  | cons item rest ih => simp [JsonItems, ih]

theorem jsonFields_iff {entries : List (DataKey × PyData)} :
    JsonFields entries ↔ ∀ e ∈ entries, JsonData e.2 := by
  induction entries with
  | nil => simp [JsonFields]
  | cons e rest ih =>
      obtain ⟨key, value⟩ := e
      simp [JsonFields, ih]

/-- Fields in key order make a mapping in that order. -/
theorem ofFields_ordered {fields : List (String × PyData)} (h : KeysOrdered fields) :
    ofFields fields = .dict (fields.map fun f => (.str f.1, f.2)) := by
  unfold ofFields
  rw [orderedItems_of_ordered h]

theorem ofJsonFields_keys (fields : List (String × Json)) :
    (ofJsonFields fields).map Prod.fst = fields.map Prod.fst := by
  induction fields with
  | nil => rfl
  | cons field rest ih =>
      obtain ⟨key, value⟩ := field
      rw [ofJsonFields, List.map_cons, List.map_cons, ih]

/-- A list of pairs is its first and its second components. -/
theorem eq_of_components {α β : Type} : ∀ {l l' : List (α × β)},
    l.map Prod.fst = l'.map Prod.fst → l.map Prod.snd = l'.map Prod.snd → l = l'
  | [], [], _, _ => rfl
  | [], _ :: _, h, _ => by cases h
  | _ :: _, [], h, _ => by cases h
  | e :: l, e' :: l', h, h' => by
      obtain ⟨hfirst, hrest⟩ := List.cons.inj h
      obtain ⟨hsecond, hrest'⟩ := List.cons.inj h'
      rw [eq_of_components hrest hrest', Prod.ext hfirst hsecond]

mutual

/-- What JSON has is written, and what is read back is the same. -/
theorem ofJson_image : ∀ {value : PyData}, JsonData value →
    ∃ json, (∀ sortKeys, image sortKeys value = some json) ∧ json.WellFormed ∧ ofJson json = value
  | .none, _ => ⟨_, fun _ => rfl, trivial, rfl⟩
  | .bool b, _ => ⟨_, fun _ => rfl, trivial, rfl⟩
  | .int n, _ => ⟨_, fun _ => rfl, trivial, rfl⟩
  | .float repr, h => ⟨_, fun _ => rfl, h, rfl⟩
  | .str s, _ => ⟨_, fun _ => rfl, trivial, rfl⟩
  | .list items, h => by
      obtain ⟨texts, htexts, hformed, hback⟩ := ofJsonItems_image h
      refine ⟨.arr texts, ?_, hformed, ?_⟩
      · intro sortKeys
        rw [image, htexts]
        rfl
      · rw [ofJson, hback]
  | .set _, h => h.elim
  | .object, h => h.elim
  | .dict entries, h => by
      obtain ⟨fields, hfields, hkeys, hformed, hback⟩ := ofJsonFields_image h.2
      obtain ⟨names, hnames, hordered⟩ := h.1
      have htexts : fields.map Prod.fst = names := by
        have hmapped : entries.map (fun e => e.1.text) =
            (entries.map Prod.fst).map DataKey.text := by
          rw [List.map_map]
          rfl
        rw [hkeys, hmapped, hnames, List.map_map]
        exact List.map_id names
      have hordered' : KeysOrdered (ofJsonFields fields) := by
        unfold KeysOrdered
        rw [ofJsonFields_keys, htexts]
        exact hordered
      refine ⟨.obj fields, ?_, ⟨?_, hformed⟩, ?_⟩
      · intro sortKeys
        rw [image, comparableKeys_of_textKeys h.1, hfields]
        simp
      · rw [htexts]
        exact hordered.imp fun hlt => ne_of_lt hlt
      · rw [ofJson, ofFields_ordered hordered']
        refine congrArg dict (eq_of_components ?_ ?_)
        · rw [hnames, ← htexts, ← ofJsonFields_keys, List.map_map, List.map_map]
          rfl
        · rw [← hback, List.map_map]
          rfl

theorem ofJsonItems_image : ∀ {items : List PyData}, JsonItems items →
    ∃ texts, (∀ sortKeys, imageItems sortKeys items = some texts) ∧ Json.ItemsWellFormed texts ∧
      ofJsonItems texts = items
  | [], _ => ⟨[], fun _ => rfl, trivial, rfl⟩
  | item :: rest, h => by
      obtain ⟨first, hfirst, hformed, hback⟩ := ofJson_image h.1
      obtain ⟨others, hothers, hformed', hback'⟩ := ofJsonItems_image h.2
      refine ⟨first :: others, ?_, ⟨hformed, hformed'⟩, ?_⟩
      · intro sortKeys
        rw [imageItems, hfirst, hothers]
        rfl
      · rw [ofJsonItems, hback, hback']

theorem ofJsonFields_image : ∀ {entries : List (DataKey × PyData)}, JsonFields entries →
    ∃ fields, (∀ sortKeys, imageFields sortKeys entries = some fields) ∧
      fields.map Prod.fst = entries.map (fun e => e.1.text) ∧ Json.FieldsWellFormed fields ∧
        (ofJsonFields fields).map Prod.snd = entries.map Prod.snd
  | [], _ => ⟨[], fun _ => rfl, rfl, trivial, rfl⟩
  | (key, value) :: rest, h => by
      obtain ⟨first, hfirst, hformed, hback⟩ := ofJson_image h.1
      obtain ⟨others, hothers, hkeys, hformed', hback'⟩ := ofJsonFields_image h.2
      refine ⟨(key.text, first) :: others, ?_, ?_, ⟨hformed, hformed'⟩, ?_⟩
      · intro sortKeys
        rw [imageFields, hfirst, hothers]
        rfl
      · rw [List.map_cons, List.map_cons, hkeys]
      · rw [ofJsonFields, List.map_cons, List.map_cons, hback, hback']

end

end PyData

/-! ## Texts as bytes -/

/-- `text.encode()`. -/
def utf8Bytes (text : List Char) : List UInt8 := text.flatMap String.utf8EncodeChar

/-- `bytes.decode()`. -/
def utf8Text (bytes : List UInt8) : Option (List Char) :=
  (String.fromUTF8? bytes.toByteArray).map String.toList

theorem utf8Text_utf8Bytes (text : List Char) : utf8Text (utf8Bytes text) = some text := by
  have hbytes : (utf8Bytes text).toByteArray = (String.ofList text).toByteArray :=
    (String.toByteArray_ofList).symm
  have hvalid : (utf8Bytes text).toByteArray.IsValidUTF8 := by
    rw [hbytes]
    exact (String.ofList text).isValidUTF8
  have hsame : String.fromUTF8 (utf8Bytes text).toByteArray hvalid = String.ofList text :=
    String.toByteArray_inj.mp hbytes
  unfold utf8Text String.fromUTF8?
  rw [dif_pos hvalid, hsame, Option.map_some, String.toList_ofList]

theorem utf8Bytes_append (a b : List Char) : utf8Bytes (a ++ b) = utf8Bytes a ++ utf8Bytes b :=
  List.flatMap_append

theorem length_utf8Bytes_cons (c : Char) (text : List Char) :
    (utf8Bytes (c :: text)).length = c.utf8Size + (utf8Bytes text).length := by
  unfold utf8Bytes
  rw [List.flatMap_cons, List.length_append, String.length_utf8EncodeChar]

section Spaces

variable (escape : Char → List Char)

open Json (encode encodeTail encodeFields Layout)

mutual

/-- Spaces between the parts make a text longer. -/
theorem length_compact_le : ∀ (value : Json) (level level' : Nat),
    (utf8Bytes (encode escape .compact level value)).length ≤
      (utf8Bytes (encode escape .inline level' value)).length
  | .null, _, _ => Nat.le_refl _
  | .bool true, _, _ => Nat.le_refl _
  | .bool false, _, _ => Nat.le_refl _
  | .int _, _, _ => Nat.le_refl _
  | .float _, _, _ => Nat.le_refl _
  | .str _, _, _ => Nat.le_refl _
  | .arr [], _, _ => Nat.le_refl _
  | .arr (item :: rest), level, level' => by
      have hitem := length_compact_le item (level + 1) (level' + 1)
      have hrest := length_compactTail_le rest (level + 1) (level' + 1)
      simp only [encode, Layout.compact, Layout.inline, List.nil_append] at hitem hrest ⊢
      simp only [length_utf8Bytes_cons, utf8Bytes_append, List.length_append]
      omega
  | .obj [], _, _ => Nat.le_refl _
  | .obj ((key, value) :: rest), level, level' => by
      have hvalue := length_compact_le value (level + 1) (level' + 1)
      have hrest := length_compactFields_le rest (level + 1) (level' + 1)
      simp only [encode, Layout.compact, Layout.inline, List.nil_append, List.cons_append]
        at hvalue hrest ⊢
      simp only [length_utf8Bytes_cons, utf8Bytes_append, List.length_append]
      omega

theorem length_compactTail_le : ∀ (items : List Json) (level level' : Nat),
    (utf8Bytes (encodeTail escape .compact level items)).length ≤
      (utf8Bytes (encodeTail escape .inline level' items)).length
  | [], _, _ => Nat.le_refl _
  | item :: rest, level, level' => by
      have hitem := length_compact_le item level level'
      have hrest := length_compactTail_le rest level level'
      simp only [encodeTail, Layout.compact, Layout.inline, List.nil_append, List.cons_append]
        at hitem hrest ⊢
      simp only [length_utf8Bytes_cons, utf8Bytes_append, List.length_append]
      omega

theorem length_compactFields_le : ∀ (fields : List (String × Json)) (level level' : Nat),
    (utf8Bytes (encodeFields escape .compact level fields)).length ≤
      (utf8Bytes (encodeFields escape .inline level' fields)).length
  | [], _, _ => Nat.le_refl _
  | (key, value) :: rest, level, level' => by
      have hvalue := length_compact_le value level level'
      have hrest := length_compactFields_le rest level level'
      simp only [encodeFields, Layout.compact, Layout.inline, List.nil_append, List.cons_append]
        at hvalue hrest ⊢
      simp only [length_utf8Bytes_cons, utf8Bytes_append, List.length_append]
      omega

end

end Spaces

end Etlantic
