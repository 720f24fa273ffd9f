import Etlantic.Inference.Replay

/-!
# Conformance of the sampled records

The schema is compared with the records it was inferred from.  Nulls are always
accounted for; a required field can be absent when the record in which sampling
stopped makes up for it in the counts, and a value can stay outside the type of
its field where the type was joined or hinted but the value was not converted.
-/

namespace Etlantic.Inference.Records

/-! ## Specification -/

/-- The values of a logical type: nothing is said of an unknown type, an integer is a number. -/
def Belongs (type : LogicalType) (value : Value) : Prop :=
  type = .unknown ∨ value.typeOf = type ∨ (type = .number ∧ value.typeOf = .integer)

/-- A row as its schema describes it. -/
structure Conforms (schema : Schema) (row : List (Key × Value)) : Prop where
  required : ∀ f ∈ schema, f.required = true → Key.text f.name ∈ row.map Prod.fst
  nullable : ∀ f ∈ schema, (Key.text f.name, Value.none) ∈ row → f.nullable = true
  typed : ∀ f ∈ schema, ∀ value, (Key.text f.name, value) ∈ row → value ≠ .none →
    Belongs f.logicalType value

namespace Call

/-- The records traversed to their end. -/
def traversed (c : Call) : List Record := c.records.take c.sampled.1.replayPrefixCount

/-- What was read of the record in which sampling stopped, if it stopped inside one. -/
def leftOff (c : Call) : List Row := c.sampled.1.rows.drop c.sampled.1.replayPrefixCount

/-- Everything that was read, record by record. -/
def seen (c : Call) : List (List (String × Value)) :=
  c.traversed.map (fun record => keptEntries record.entries) ++ c.leftOff.map (·.entries)

/-- A value of the type was read for the field. -/
def Has (c : Call) (name : String) (type : LogicalType) : Prop :=
  type ≠ .null ∧ ∃ entries ∈ c.seen, ∃ value, (name, value) ∈ entries ∧ value.typeOf = type

end Call

/-- The record gives no value for the field. -/
def lacks (name : String) (entries : List (String × Value)) : Bool :=
  decide (name ∉ entries.map Prod.fst)

/-- The values that a column of the type holds once it is converted. -/
def Suits (type : LogicalType) (value : Value) : Prop :=
  Belongs type value ∨
    (type = .decimal ∧ ((∃ n, value = .integer n) ∨ ∃ text, value = .float text)) ∨
    (type = .datetime ∧ ∃ text, value = .date text)

def numericTypes : List LogicalType := [.integer, .decimal, .number]

def temporalTypes : List LogicalType := [.date, .datetime]

def nestedTypes : List LogicalType := [.object, .array]

/-- The values that stay outside the type of their field, by the types that the field was read
with and its hint. -/
inductive Unsuited (Has : LogicalType → Prop) (hint : Option LogicalType) (value : Value) : Prop
  /-- Next to a value of no supported type the hint is taken over unchecked. -/
  | unchecked (type : LogicalType) (hhint : hint = some type) (hunknown : Has .unknown)
      (htext : ¬ (type = .string ∧ ∃ other, Has other ∧ other ≠ .unknown))
      (hsuits : ¬ Suits type value)
  /-- A provider's number in a decimal column is not converted. -/
  | number (hdecimal : Has .decimal) (hnumeric : ∀ type, Has type → type ∈ numericTypes)
      (type : LogicalType) (text : String) (hforeign : value = .foreign type text)
      (htype : type ≠ .decimal)
  /-- A provider's date in a datetime column is not converted. -/
  | date (hdatetime : Has .datetime) (htemporal : ∀ type, Has type → type ∈ temporalTypes)
      (text : String) (hforeign : value = .foreign .date text)
  /-- Values of different types, some of them nested, are called objects. -/
  | nested (hknown : ¬ Has .unknown) (hnested : ∃ type ∈ nestedTypes, Has type)
      (hother : ∃ type, Has type ∧ type ≠ value.typeOf) (hobject : value.typeOf ≠ .object)

/-- The calls whose schema describes the records it was inferred from. -/
structure Settled (c : Call) : Prop where
  counted : ∀ row ∈ c.leftOff, ∀ name, row.contains name = true →
    c.traversed.countP (fun record => lacks name (keptEntries record.entries)) ≠ 1
  typed : ∀ record ∈ c.traversed, ∀ name value, (name, value) ∈ keptEntries record.entries →
    value ≠ .none → ¬ Unsuited (c.Has name) (c.hints.get? name) value

/-! ## Counting -/

/-- The statistics of one field are those of what was read. -/
structure Counts (rows : List (List (String × Value))) (name : String) (entry : Stats) : Prop where
  observed : entry.observed = rows.countP (fun entries => !lacks name entries)
  types : ∀ type, type ∈ entry.types ↔
    ∃ entries ∈ rows, ∃ value, (name, value) ∈ entries ∧ value.typeOf = type
  nodup : entry.types.Nodup
  nulls : 0 < entry.nulls ↔ ∃ entries ∈ rows, (name, Value.none) ∈ entries

/-- The statistics are those of what was read, and a field is known once it was read. -/
structure Tallied (rows : List (List (String × Value))) (stats : Dict String Stats) : Prop where
  counts : ∀ name, Counts rows name ((stats.get? name).getD {})
  known : ∀ name, stats.get? name ≠ none ↔ ∃ entries ∈ rows, name ∈ entries.map Prod.fst

theorem tallied_empty : Tallied [] Dict.empty where
  counts := fun name =>
    { observed := rfl
      types := by
        intro type
        constructor
        · intro h
          cases h
        · rintro ⟨entries, hmem, -⟩
          cases hmem
      nodup := List.nodup_nil
      nulls := by
        constructor
        · intro h
          cases h
        · rintro ⟨entries, hmem, -⟩
          cases hmem }
  known := by
    intro name
    constructor
    · intro h
      exact absurd rfl h
    · rintro ⟨entries, hmem, -⟩
      cases hmem

variable {rows : List (List (String × Value))} {entries : List (String × Value)}
  {stats : Dict String Stats} {name other : String} {entry : Stats} {value : Value}

theorem exists_mem_concat {P : List (String × Value) → Prop} :
    (∃ es ∈ rows ++ [entries], P es) ↔ (∃ es ∈ rows, P es) ∨ P entries := by
  constructor
  · rintro ⟨es, hes, h⟩
    rcases List.mem_append.mp hes with hes | hes
    · exact .inl ⟨es, hes, h⟩
    · rw [List.mem_singleton.mp hes] at h
      exact .inr h
  · rintro (⟨es, hes, h⟩ | h)
    · exact ⟨es, List.mem_append_left _ hes, h⟩
    · exact ⟨entries, List.mem_append_right _ List.mem_cons_self, h⟩

/-- A new row that holds nothing yet. -/
theorem Tallied.start (h : Tallied rows stats) : Tallied (rows ++ [[]]) stats where
  counts := by
    intro name
    obtain ⟨hobserved, htypes, hnodup, hnulls⟩ := h.counts name
    refine ⟨?_, ?_, hnodup, ?_⟩
    · rw [hobserved, List.countP_append]
      rfl
    · intro type
      rw [htypes, exists_mem_concat]
      simp
    · rw [hnulls, exists_mem_concat]
      simp
  known := by
    intro name
    rw [h.known, exists_mem_concat]
    simp

theorem lacks_concat_of_ne (hne : name ≠ other) :
    lacks other (entries ++ [(name, value)]) = lacks other entries := by
  unfold lacks
  simp [hne.symm]

theorem lacks_concat_self : lacks name (entries ++ [(name, value)]) = false := by
  unfold lacks
  simp

/-- What one value adds to the statistics of its field. -/
theorem Counts.observe (h : Counts (rows ++ [entries]) name entry)
    (hnew : name ∉ entries.map Prod.fst) :
    Counts (rows ++ [entries ++ [(name, if value.typeOf = .null then .none else value)]]) name
      (entry.observe value) := by
  obtain ⟨hobserved, htypes, hnodup, hnulls⟩ := h
  have habsent : ∀ v, (name, v) ∉ entries := fun v hmem =>
    hnew (List.mem_map_of_mem (f := Prod.fst) hmem)
  have htypeOf : (if value.typeOf = .null then Value.none else value).typeOf = value.typeOf := by
    split
    · rename_i hnull
      rw [hnull]
      rfl
    · rfl
  refine ⟨?_, ?_, ?_, ?_⟩
  · show entry.observed + 1 = _
    have hlacks : lacks name entries = true := decide_eq_true hnew
    rw [hobserved, List.countP_append, List.countP_append, List.countP_singleton,
      List.countP_singleton, hlacks, lacks_concat_self]
    rfl
  · intro type
    have hmem : type ∈ (entry.observe value).types ↔
        type ∈ entry.types ∨ type = value.typeOf := by
      show type ∈ (if value.typeOf ∈ entry.types then entry.types
        else entry.types ++ [value.typeOf]) ↔ _
      by_cases hseen : value.typeOf ∈ entry.types
      · rw [if_pos hseen]
        constructor
        · exact .inl
        · rintro (h | rfl)
          · exact h
          · exact hseen
      · rw [if_neg hseen, List.mem_append, List.mem_singleton]
    rw [hmem, htypes, exists_mem_concat, exists_mem_concat]
    simp only [habsent, false_and, exists_false, or_false, List.mem_append, List.mem_singleton,
      Prod.mk.injEq, true_and, false_or, exists_eq_left, htypeOf]
    rw [@eq_comm _ type]
  · show (if value.typeOf ∈ entry.types then entry.types
      else entry.types ++ [value.typeOf]).Nodup
    split
    · exact hnodup
    · rename_i hseen
      exact hnodup.append (List.nodup_singleton _)
        (List.disjoint_singleton.mpr hseen)
  · have hpos : 0 < (entry.observe value).nulls ↔ 0 < entry.nulls ∨ value.typeOf = .null := by
      show 0 < (if value.typeOf = .null then entry.nulls + 1 else entry.nulls) ↔ _
      by_cases hnull : value.typeOf = .null
      · simp [hnull]
      · simp [hnull]
    have hnone : Value.none = (if value.typeOf = .null then Value.none else value) ↔
        value.typeOf = .null := by
      by_cases hnull : value.typeOf = .null
      · simp [hnull]
      · rw [if_neg hnull]
        constructor
        · rintro rfl
          rfl
        · intro h
          exact absurd h hnull
    rw [hpos, hnulls, exists_mem_concat, exists_mem_concat]
    simp only [habsent, or_false, List.mem_append, List.mem_singleton, Prod.mk.injEq, true_and,
      false_or, hnone]

/-- A value adds nothing to the statistics of another field. -/
theorem Counts.frame (h : Counts (rows ++ [entries]) other entry) (hne : name ≠ other) :
    Counts (rows ++ [entries ++ [(name, value)]]) other entry := by
  obtain ⟨hobserved, htypes, hnodup, hnulls⟩ := h
  have hmem : ∀ v, (other, v) ∈ entries ++ [(name, value)] ↔ (other, v) ∈ entries := by
    intro v
    simp [hne.symm]
  refine ⟨?_, ?_, hnodup, ?_⟩
  · rw [hobserved, List.countP_append, List.countP_append, List.countP_singleton,
      List.countP_singleton, lacks_concat_of_ne hne]
  · intro type
    rw [htypes, exists_mem_concat, exists_mem_concat]
    simp only [hmem]
  · rw [hnulls, exists_mem_concat, exists_mem_concat, hmem]

theorem Tallied.observe (h : Tallied (rows ++ [entries]) stats)
    (hnew : name ∉ entries.map Prod.fst) :
    Tallied (rows ++ [entries ++ [(name, if value.typeOf = .null then .none else value)]])
      (stats.set name (((stats.get? name).getD {}).observe value)) where
  counts := by
    intro other
    by_cases hne : name = other
    · subst hne
      rw [Dict.get?_set_self]
      exact (h.counts name).observe hnew
    · rw [Dict.get?_set_ne _ _ hne]
      exact (h.counts other).frame hne
  known := by
    intro other
    by_cases hne : name = other
    · subst hne
      rw [Dict.get?_set_self, exists_mem_concat]
      simp
    · rw [Dict.get?_set_ne _ _ hne, h.known, exists_mem_concat, exists_mem_concat]
      simp [Ne.symm hne]

/-- The traversal of one record. -/
theorem scanFields_tallied {limits : InferenceLimits} {env : Environment} {i : Nat} :
    ∀ {fields : List (Key × Value)} {j : Nat} {stats stats' : Dict String Stats}
      {row row' : Row} {complete : Bool}, (fields.map Prod.fst).Nodup →
      (∀ name, row.get? name ≠ none → Key.text name ∉ fields.map Prod.fst) →
      Tallied (rows ++ [row.entries]) stats →
      scanFields limits env i j fields stats row = (stats', row', complete) →
      Tallied (rows ++ [row'.entries]) stats'
  | [], j, stats, stats', row, row', complete, _, _, ht, h => by
      unfold scanFields at h
      obtain ⟨rfl, hrow⟩ := Prod.mk.inj h
      obtain ⟨rfl, -⟩ := Prod.mk.inj hrow
      exact ht
  | (key, value) :: rest, j, stats, stats', row, row', complete, hnodup, hfresh, ht, h => by
      obtain ⟨hnew, hrest⟩ := List.nodup_cons.mp hnodup
      -- The traversal stops in front of the field.
      have hstop : (stats, row, false) = (stats', row', complete) →
          Tallied (rows ++ [row'.entries]) stats' := by
        intro heq
        obtain ⟨rfl, hrow⟩ := Prod.mk.inj heq
        obtain ⟨rfl, -⟩ := Prod.mk.inj hrow
        exact ht
      unfold scanFields at h
      split at h
      · exact hstop h
      cases hkey : key.name? with
      | none =>
          simp only [hkey] at h
          exact scanFields_tallied hrest (fun name hget hmem =>
            hfresh name hget (List.mem_cons_of_mem _ hmem)) ht h
      | some name =>
          simp only [hkey] at h
          obtain rfl := name?_eq_some hkey
          split at h
          · exact hstop h
          split at h
          · exact hstop h
          have habsent : row.get? name = none := by
            by_contra hget
            exact hfresh name hget List.mem_cons_self
          have hunread : name ∉ row.entries.map Prod.fst := by
            intro hmem
            obtain ⟨⟨given, v⟩, he, rfl⟩ := List.mem_map.mp hmem
            rw [Dict.mem_entries_iff.mp he] at habsent
            cases habsent
          refine scanFields_tallied hrest ?_ ?_ h
          · intro other hget hmem
            rw [Dict.get?_set] at hget
            by_cases hother : name = other
            · exact hnew (hother ▸ hmem)
            · rw [if_neg hother] at hget
              exact hfresh other hget (List.mem_cons_of_mem _ hmem)
          · rw [Dict.entries_set_of_absent habsent]
            exact ht.observe hunread

/-- What the sampling loop maintains. -/
structure Accounted (s : Sample) : Prop where
  tallied : Tallied (s.rows.map (·.entries)) s.stats
  length : s.rows.length = s.replayPrefixCount + s.incompleteRows

theorem accounted_empty : Accounted Sample.empty := ⟨tallied_empty, rfl⟩

/-- At most one record, the last, is left before its end. -/
theorem sampleFrom_accounted {limits : InferenceLimits} {env : Environment} :
    ∀ {records : List Record} {i : Nat} {s s' : Sample} {stop : Stop},
      Accounted s → s.incompleteRows = 0 → sampleFrom limits env i records s = (s', stop) →
      Accounted s' ∧ s'.incompleteRows ≤ 1
  | [], i, s, s', stop, ha, hzero, h => by
      obtain ⟨rfl, -⟩ := Prod.mk.inj h
      exact ⟨ha, by omega⟩
  | item :: rest, i, s, s', stop, ha, hzero, h => by
      have hcut : ∀ (t : Sample) (ending : Stop), Accounted t → t.incompleteRows = 0 →
          (t, ending) = (s', stop) → Accounted s' ∧ s'.incompleteRows ≤ 1 := by
        intro t ending ht htzero heq
        obtain ⟨rfl, -⟩ := Prod.mk.inj heq
        exact ⟨ht, by omega⟩
      unfold sampleFrom at h
      split at h
      · exact hcut s _ ha hzero h
      cases hest : env.estimate i with
      | size bytes =>
          simp only [hest] at h
          split at h
          · exact hcut s _ ha hzero h
          split at h
          · exact hcut { s with bytesObserved := s.bytesObserved + bytes } _
              ⟨ha.tallied, ha.length⟩ hzero h
          rcases hscan : scanFields limits env i 0 item.entries s.stats Dict.empty with
            ⟨stats, row, complete⟩
          rw [hscan] at h
          have ht : Tallied ((s.rows ++ [row]).map (·.entries)) stats := by
            rw [List.map_append]
            exact scanFields_tallied item.nodup (fun _ hget => absurd rfl hget)
              ha.tallied.start hscan
          have hlength : (s.rows ++ [row]).length = s.replayPrefixCount + s.incompleteRows + 1 := by
            rw [List.length_append, ha.length]
            rfl
          cases complete with
          | true =>
              refine sampleFrom_accounted ?_ ?_ h
              · refine ⟨ht, ?_⟩
                rw [hlength]
                show _ = s.replayPrefixCount + 1 + s.incompleteRows
                omega
              · exact hzero
          | false =>
              obtain ⟨rfl, -⟩ := Prod.mk.inj h
              refine ⟨⟨ht, ?_⟩, ?_⟩
              · rw [hlength]
                rfl
              · show s.incompleteRows + 1 ≤ 1
                omega
      | limitExceeded =>
          simp only [hest] at h
          exact hcut s _ ha hzero h
      | traversalExceeded =>
          simp only [hest] at h
          exact hcut s _ ha hzero h
      | timeout =>
          simp only [hest] at h
          exact hcut s _ ha hzero h
      | providerFailure =>
          simp only [hest] at h
          exact hcut s _ ha hzero h

/-! ## Joined types -/

/-- What `_promote` makes of the types of a field. -/
inductive Joined (types : List LogicalType) : LogicalType → Bool → Prop
  | empty (h : ∀ type ∈ types, type = .null) : Joined types .unknown false
  | unknown (mixed : Bool) (h : .unknown ∈ types)
      (hmixed : mixed = true ↔ ∃ type ∈ types, type ≠ .null ∧ type ≠ .unknown) :
      Joined types .unknown mixed
  | single (type : LogicalType) (hnull : type ≠ .null) (hunknown : type ≠ .unknown)
      (h : ∀ other ∈ types, other ≠ .null → other = type) : Joined types type false
  | number (h : ∀ type ∈ types, type ≠ .null → type = .integer ∨ type = .number) :
      Joined types .number false
  | decimal (hdecimal : .decimal ∈ types)
      (h : ∀ type ∈ types, type ≠ .null → type ∈ numericTypes) : Joined types .decimal false
  | datetime (hdatetime : .datetime ∈ types)
      (h : ∀ type ∈ types, type ≠ .null → type ∈ temporalTypes) : Joined types .datetime false
  | string (hunknown : .unknown ∉ types) (hnested : ∀ type ∈ nestedTypes, type ∉ types)
      (hnumeric : ∃ type ∈ types, type ≠ .null ∧ type ∉ numericTypes)
      (htemporal : ∃ type ∈ types, type ≠ .null ∧ type ∉ temporalTypes) :
      Joined types .string true
  | object (hunknown : .unknown ∉ types) (hnested : ∃ type ∈ nestedTypes, type ∈ types)
      (hother : ∀ type, ∃ other ∈ types, other ≠ .null ∧ other ≠ type) :
      Joined types .object true

theorem promote_joined {types : List LogicalType} (hnodup : types.Nodup) :
    Joined types (promote types).1 (promote types).2 := by
  have hmem : ∀ type, type ∈ types.filter (· ≠ .null) ↔ type ∈ types ∧ type ≠ .null := by
    intro type
    rw [List.mem_filter, decide_eq_true_eq]
  have hfiltered : (types.filter (· ≠ .null)).Nodup := hnodup.filter _
  unfold promote
  generalize types.filter (· ≠ .null) = nonNull at hmem hfiltered
  cases nonNull with
  | nil =>
      refine .empty ?_
      intro type htype
      by_contra hne
      cases (hmem type).mpr ⟨htype, hne⟩
  | cons first others =>
      have hmem : ∀ type, type ∈ types ∧ type ≠ .null ↔ type ∈ first :: others :=
        fun type => (hmem type).symm
      have hwithin : ∀ {allowed : List LogicalType},
          ((first :: others).all fun type => decide (type ∈ allowed)) = true →
          ∀ type ∈ types, type ≠ .null → type ∈ allowed := by
        intro allowed hall type htype hnull
        exact of_decide_eq_true (List.all_eq_true.mp hall type ((hmem type).mp ⟨htype, hnull⟩))
      have houtside : ∀ {allowed : List LogicalType},
          ¬ ((first :: others).all fun type => decide (type ∈ allowed)) = true →
          ∃ type ∈ types, type ≠ .null ∧ type ∉ allowed := by
        intro allowed hall
        by_contra hnone
        refine hall (List.all_eq_true.mpr ?_)
        intro type htype
        obtain ⟨hin, hnull⟩ := (hmem type).mpr htype
        by_contra hout
        exact hnone ⟨type, hin, hnull, fun h => hout (decide_eq_true h)⟩
      have htwo : others.isEmpty = false →
          ∀ type, ∃ other ∈ types, other ≠ .null ∧ other ≠ type := by
        intro hothers type
        obtain ⟨second, rest, rfl⟩ := List.exists_cons_of_ne_nil (l := others) (by
          rintro rfl
          cases hothers)
        have hfirst := (hmem first).mpr List.mem_cons_self
        have hsecond := (hmem second).mpr (List.mem_cons_of_mem _ List.mem_cons_self)
        by_cases heq : first = type
        · refine ⟨second, hsecond.1, hsecond.2, ?_⟩
          rintro rfl
          exact (List.nodup_cons.mp hfiltered).1 (heq ▸ List.mem_cons_self)
        · exact ⟨first, hfirst.1, hfirst.2, heq⟩
      have hknown : .unknown ∉ first :: others → LogicalType.unknown ∉ types := by
        intro hout hin
        exact hout ((hmem .unknown).mp ⟨hin, by decide⟩)
      dsimp only
      split
      · rename_i hunknown
        refine .unknown _ ((hmem .unknown).mpr hunknown).1 ?_
        constructor
        · intro hothers
          exact htwo (by simpa using hothers) .unknown
        · rintro ⟨type, htype, hnull, hne⟩
          cases others with
          | nil =>
              have hfirst := List.mem_singleton.mp hunknown
              have htype := List.mem_singleton.mp ((hmem type).mp ⟨htype, hnull⟩)
              exact absurd (htype.trans hfirst.symm) hne
          | cons second rest => rfl
      rename_i hunknown
      have hunknown := hknown hunknown
      split
      · rename_i hothers
        have hfirst := (hmem first).mpr List.mem_cons_self
        refine .single first hfirst.2 (fun h => hunknown (h ▸ hfirst.1)) ?_
        intro other hother hnull
        have hin := (hmem other).mp ⟨hother, hnull⟩
        rw [List.isEmpty_iff.mp hothers] at hin
        exact List.mem_singleton.mp hin
      rename_i hothers
      have htwo := htwo (Bool.not_eq_true _ ▸ hothers)
      split
      · rename_i hall
        refine .number ?_
        intro type htype hnull
        simpa using hwithin hall type htype hnull
      rename_i hnumber
      split
      · rename_i hall
        obtain ⟨type, htype, hnull, hout⟩ := houtside hnumber
        have hin := hwithin hall type htype hnull
        refine .decimal ?_ ?_
        · rcases List.mem_pair.mp hin with rfl | rfl
          · exact absurd List.mem_cons_self hout
          · exact htype
        · intro other hother hnull
          rcases List.mem_pair.mp (hwithin hall other hother hnull) with rfl | rfl <;> decide
      split
      · rename_i hall
        obtain ⟨type, htype, hnull, hout⟩ := houtside hnumber
        have hin := hwithin hall type htype hnull
        refine .decimal ?_ (hwithin hall)
        simp only [List.mem_cons, List.not_mem_nil, or_false, not_or] at hin hout
        rcases hin with rfl | rfl | rfl
        · exact absurd rfl hout.1
        · exact htype
        · exact absurd rfl hout.2
      rename_i hnumeric
      split
      · rename_i hall
        obtain ⟨type, htype, hnull, hne⟩ := htwo .date
        refine .datetime ?_ (hwithin hall)
        rcases List.mem_pair.mp (hwithin hall type htype hnull) with rfl | rfl
        · exact absurd rfl hne
        · exact htype
      rename_i htemporal
      split
      · rename_i hall
        refine .string hunknown ?_ (houtside hnumeric) (houtside htemporal)
        intro type hnested htype
        have hin := hwithin hall type htype (by
          rintro rfl
          exact absurd hnested (by decide))
        rcases List.mem_pair.mp hnested with rfl | rfl <;> exact absurd hin (by decide)
      · rename_i hall
        obtain ⟨type, htype, hnull, hout⟩ := houtside hall
        refine .object hunknown ⟨type, ?_, htype⟩ htwo
        cases type <;> first | decide | exact absurd rfl hnull | exact absurd htype hunknown |
          exact absurd (by decide) hout

theorem hinted_of_ne_unknown {logical : LogicalType} {hint : Option LogicalType}
    (h : logical ≠ .unknown) :
    hinted logical hint = logical ∨ (logical = .integer ∧ hinted logical hint = .number) := by
  unfold hinted
  cases hint with
  | none => exact .inl rfl
  | some type =>
      dsimp only
      rw [if_neg h]
      split
      · exact .inl rfl
      · rename_i hagree
        simp only [ne_eq, Bool.and_eq_true, decide_eq_true_eq, Bool.not_eq_true',
          Bool.and_eq_false_iff, decide_eq_false_iff_not, not_and, not_or, not_not] at hagree
        by_cases hsame : logical = type
        · exact .inl hsame.symm
        · exact .inr (hagree hsame)

theorem hinted_fixed {logical : LogicalType} {hint : Option LogicalType}
    (hunknown : logical ≠ .unknown) (hinteger : logical ≠ .integer) :
    hinted logical hint = logical := by
  rcases hinted_of_ne_unknown hunknown with hsame | ⟨hinteger', -⟩
  · exact hsame
  · exact absurd hinteger' hinteger

/-! ## Conversions -/

/-- The conversion of a value of a field. -/
def converted (host : Host) (mixed : Bool) (type : LogicalType) (value : Value) : Value :=
  if mixed then value.toText
  else if type = .decimal then value.toDecimal host
  else if type = .datetime then value.toDatetime host
  else value

theorem convert_of_find {host : Host} {fields : List InferredField} {f : InferredField}
    (h : fields.find? (·.field.name = name) = some f) :
    convert host fields name value = converted host f.mixed f.field.logicalType value := by
  unfold convert
  rw [h]
  rfl

theorem ne_none_of_typeOf (h : value.typeOf ≠ .null) : value ≠ .none := by
  rintro rfl
  exact h rfl

theorem belongs_toText (h : value ≠ .none) : Belongs .string value.toText := by
  refine .inr (.inl ?_)
  cases value <;> first | exact absurd rfl h | rfl

/-- Without the texts, a converted value is in its type when its type suits it. -/
theorem belongs_converted_iff {host : Host} {type : LogicalType} :
    Belongs type (converted host false type value) ↔ Suits type value := by
  unfold converted Suits
  rw [if_neg Bool.false_ne_true]
  by_cases hdecimal : type = .decimal
  · subst hdecimal
    cases value <;> simp [Value.toDecimal, Belongs, Value.typeOf, Value.isNan]
  · rw [if_neg hdecimal]
    by_cases hdatetime : type = .datetime
    · subst hdatetime
      cases value <;> simp [Value.toDatetime, Belongs, Value.typeOf, Value.isNan]
    · simp [hdecimal, hdatetime]

theorem converted_ne_none {host : Host} {mixed : Bool} {type : LogicalType} (h : value ≠ .none) :
    converted host mixed type value ≠ .none := by
  unfold converted
  cases value <;> first | exact absurd rfl h | skip
  all_goals
    split
    · simp [Value.toText]
    · split
      · simp [Value.toDecimal]
      · split <;> simp [Value.toDatetime]

/-- Where every value is supported, only provider values and nested ones are unsuited. -/
theorem not_unsuited {Has : LogicalType → Prop} {hint : Option LogicalType}
    (hknown : ¬ Has .unknown)
    (hnumber : Has .decimal → (∀ type, Has type → type ∈ numericTypes) →
      ∀ type text, value = .foreign type text → type = .decimal)
    (hdate : Has .datetime → (∀ type, Has type → type ∈ temporalTypes) →
      ∀ text, value ≠ .foreign .date text)
    (hnested : (∃ type ∈ nestedTypes, Has type) → (∃ type, Has type ∧ type ≠ value.typeOf) →
      value.typeOf = .object) :
    ¬ Unsuited Has hint value := by
  intro h
  cases h with
  | unchecked type hhint hunknown htext hsuits => exact hknown hunknown
  | number hdecimal hnumeric type text hforeign htype =>
      exact htype (hnumber hdecimal hnumeric type text hforeign)
  | date hdatetime htemporal text hforeign => exact hdate hdatetime htemporal text hforeign
  | nested hknown hsome hother hobject => exact hobject (hnested hsome hother)

theorem typeOf_foreign {type : LogicalType} {text : String} :
    (Value.foreign type text).typeOf = type := rfl

/-- A field with values of no supported type takes its hint over. -/
theorem belongs_hinted_iff (host : Host) {types : List LogicalType} {hint : Option LogicalType}
    {mixed : Bool} (hunknown : .unknown ∈ types)
    (hmixed : mixed = true ↔ ∃ type ∈ types, type ≠ .null ∧ type ≠ .unknown)
    (hnull : value.typeOf ≠ .null) :
    Belongs (hinted .unknown hint)
        (converted host (mixed && decide (hinted .unknown hint = .string)) (hinted .unknown hint)
          value) ↔
      ¬ Unsuited (fun type => type ≠ .null ∧ type ∈ types) hint value := by
  cases hint with
  | none =>
      refine iff_of_true (.inl rfl) ?_
      intro h
      cases h with
      | unchecked type hhint => cases hhint
      | number hdecimal hnumeric => exact absurd (hnumeric _ ⟨by decide, hunknown⟩) (by decide)
      | date hdatetime htemporal =>
          exact absurd (htemporal _ ⟨by decide, hunknown⟩) (by decide)
      | nested hknown => exact hknown ⟨by decide, hunknown⟩
  | some type =>
      have hhinted : hinted .unknown (some type) = type := rfl
      rw [hhinted]
      -- The hint is met by the texts, or by what suits it.
      by_cases htext : mixed = true ∧ type = .string
      · obtain ⟨rfl, rfl⟩ := htext
        obtain ⟨other, hother, hother_null, hne⟩ := hmixed.mp rfl
        refine iff_of_true (belongs_toText (ne_none_of_typeOf hnull)) ?_
        intro h
        cases h with
        | unchecked type hhint _ htext =>
            cases hhint
            exact htext ⟨rfl, other, ⟨hother_null, hother⟩, hne⟩
        | number hdecimal hnumeric =>
            exact absurd (hnumeric _ ⟨by decide, hunknown⟩) (by decide)
        | date hdatetime htemporal =>
            exact absurd (htemporal _ ⟨by decide, hunknown⟩) (by decide)
        | nested hknown => exact hknown ⟨by decide, hunknown⟩
      · have hplain : (mixed && decide (type = .string)) = false := by
          rw [Bool.and_eq_false_iff, decide_eq_false_iff_not]
          by_cases hm : mixed = true
          · exact .inr fun htype => htext ⟨hm, htype⟩
          · exact .inl (Bool.not_eq_true _ ▸ hm)
        rw [hplain, belongs_converted_iff]
        constructor
        · intro hsuits h
          cases h with
          | unchecked given hhint _ _ hunsuited =>
              cases hhint
              exact hunsuited hsuits
          | number hdecimal hnumeric =>
              exact absurd (hnumeric _ ⟨by decide, hunknown⟩) (by decide)
          | date hdatetime htemporal =>
              exact absurd (htemporal _ ⟨by decide, hunknown⟩) (by decide)
          | nested hknown => exact hknown ⟨by decide, hunknown⟩
        · intro h
          by_contra hsuits
          refine h (.unchecked type rfl ⟨by decide, hunknown⟩ ?_ hsuits)
          rintro ⟨rfl, other, ⟨hother_null, hother⟩, hne⟩
          exact htext ⟨hmixed.mpr ⟨other, hother, hother_null, hne⟩, rfl⟩

/-- In a decimal column only a provider's number is left as it is. -/
theorem belongs_decimal_iff (host : Host) {types : List LogicalType} {hint : Option LogicalType}
    (hdecimal : .decimal ∈ types)
    (hnumeric : ∀ type, type ≠ .null ∧ type ∈ types → type ∈ numericTypes)
    (hin : value.typeOf ∈ types) (hnull : value.typeOf ≠ .null) :
    Belongs .decimal (converted host false .decimal value) ↔
      ¬ Unsuited (fun type => type ≠ .null ∧ type ∈ types) hint value := by
  rw [belongs_converted_iff]
  constructor
  · intro hsuits
    refine not_unsuited ?_ ?_ ?_ ?_
    · intro hhas
      exact absurd (hnumeric _ hhas) (by decide)
    · rintro - - type text rfl
      rcases hsuits with (hnone | htype | ⟨hnone, -⟩) | ⟨-, ⟨n, heq⟩ | ⟨text', heq⟩⟩ |
        ⟨hnone, -⟩
      · cases hnone
      · exact htype
      · cases hnone
      · cases heq
      · cases heq
      · cases hnone
    · intro hhas
      exact absurd (hnumeric _ hhas) (by decide)
    · rintro ⟨type, hnested, hhas⟩
      have hnumber := hnumeric _ hhas
      rcases List.mem_pair.mp hnested with rfl | rfl <;> exact absurd hnumber (by decide)
  · intro hunsuited
    have hvalue := hnumeric _ ⟨hnull, hin⟩
    cases value with
    | integer n => exact .inr (.inl ⟨rfl, .inl ⟨n, rfl⟩⟩)
    | float text => exact .inr (.inl ⟨rfl, .inr ⟨text, rfl⟩⟩)
    | decimal text => exact .inl (.inr (.inl rfl))
    | foreign type text =>
        by_cases htype : type = .decimal
        · exact .inl (.inr (.inl htype))
        · exact absurd (.number ⟨by decide, hdecimal⟩ hnumeric type text rfl htype) hunsuited
    | none | boolean b | string text | binary text | date text | datetime text | object text
    | array text => simp [Value.typeOf, Value.isNan, numericTypes] at hvalue

/-- In a datetime column only a provider's date is left as it is. -/
theorem belongs_datetime_iff (host : Host) {types : List LogicalType} {hint : Option LogicalType}
    (hdatetime : .datetime ∈ types)
    (htemporal : ∀ type, type ≠ .null ∧ type ∈ types → type ∈ temporalTypes)
    (hin : value.typeOf ∈ types) (hnull : value.typeOf ≠ .null) :
    Belongs .datetime (converted host false .datetime value) ↔
      ¬ Unsuited (fun type => type ≠ .null ∧ type ∈ types) hint value := by
  rw [belongs_converted_iff]
  constructor
  · intro hsuits
    refine not_unsuited ?_ ?_ ?_ ?_
    · intro hhas
      exact absurd (htemporal _ hhas) (by decide)
    · intro hhas
      exact absurd (htemporal _ hhas) (by decide)
    · rintro - - text rfl
      rcases hsuits with (hnone | htype | ⟨hnone, -⟩) | ⟨hnone, -⟩ | ⟨-, text', heq⟩
      · cases hnone
      · cases htype
      · cases hnone
      · cases hnone
      · cases heq
    · rintro ⟨type, hnested, hhas⟩
      have htime := htemporal _ hhas
      rcases List.mem_pair.mp hnested with rfl | rfl <;> exact absurd htime (by decide)
  · intro hunsuited
    have hvalue := htemporal _ ⟨hnull, hin⟩
    cases value with
    | date text => exact .inr (.inr ⟨rfl, text, rfl⟩)
    | datetime text => exact .inl (.inr (.inl rfl))
    | foreign type text =>
        rcases List.mem_pair.mp hvalue with hdate | hdatetime'
        · rw [typeOf_foreign] at hdate
          subst hdate
          exact absurd (.date ⟨by decide, hdatetime⟩ htemporal text rfl) hunsuited
        · exact .inl (.inr (.inl hdatetime'))
    | float text =>
        simp only [Value.typeOf, temporalTypes] at hvalue
        split at hvalue <;> exact absurd hvalue (by decide)
    | none | boolean b | integer n | decimal text | string text | binary text | object text
    | array text => simp [Value.typeOf, Value.isNan, temporalTypes] at hvalue

/-- A value that was read belongs to the type of its field unless it is unsuited. -/
theorem belongs_inferred_iff (host : Host) {types : List LogicalType}
    {hint : Option LogicalType} (hnodup : types.Nodup) (hin : value.typeOf ∈ types)
    (hnull : value.typeOf ≠ .null) :
    Belongs (hinted (promote types).1 hint)
        (converted host
          ((promote types).2 && decide (hinted (promote types).1 hint = .string))
          (hinted (promote types).1 hint) value) ↔
      ¬ Unsuited (fun type => type ≠ .null ∧ type ∈ types) hint value := by
  have hjoined := promote_joined hnodup
  generalize (promote types).1 = logical at hjoined
  generalize (promote types).2 = mixed at hjoined
  cases hjoined with
  | empty h => exact absurd (h _ hin) hnull
  | unknown mixed hunknown hmixed => exact belongs_hinted_iff host hunknown hmixed hnull
  | single type hne hunknown h =>
      have hvalue : value.typeOf = logical := h _ hin hnull
      have hsame : ∀ other, other ≠ .null ∧ other ∈ types → other = logical :=
        fun other hother => h other hother.2 hother.1
      rw [Bool.false_and, belongs_converted_iff]
      refine iff_of_true ?_ (not_unsuited ?_ ?_ ?_ ?_)
      · rcases hinted_of_ne_unknown hunknown with hhinted | ⟨hinteger, hhinted⟩
        · rw [hhinted]
          exact .inl (.inr (.inl hvalue))
        · rw [hhinted]
          exact .inl (.inr (.inr ⟨rfl, hvalue.trans hinteger⟩))
      · intro hhas
        exact hunknown (hsame _ hhas).symm
      · rintro hdecimal - given text rfl
        exact hvalue.trans (hsame _ hdecimal).symm
      · rintro hdatetime - text rfl
        have hdate : LogicalType.date = .datetime := hvalue.trans (hsame _ hdatetime).symm
        cases hdate
      · rintro - ⟨other, hother, hdiffers⟩
        exact absurd ((hsame _ hother).trans hvalue.symm) hdiffers
  | number h =>
      have hhinted : hinted .number hint = .number := hinted_fixed (by decide) (by decide)
      have hout : ∀ type, type ≠ .null ∧ type ∈ types → type = .integer ∨ type = .number :=
        fun type htype => h type htype.2 htype.1
      rw [hhinted, Bool.false_and, belongs_converted_iff]
      refine iff_of_true ?_ (not_unsuited ?_ ?_ ?_ ?_)
      · rcases h _ hin hnull with hinteger | hnumber
        · exact .inl (.inr (.inr ⟨rfl, hinteger⟩))
        · exact .inl (.inr (.inl hnumber))
      · intro hhas
        rcases hout _ hhas with h | h <;> cases h
      · intro hhas
        rcases hout _ hhas with h | h <;> cases h
      · intro hhas
        rcases hout _ hhas with h | h <;> cases h
      · rintro ⟨type, hnested, hhas⟩
        rcases hout _ hhas with rfl | rfl <;> exact absurd hnested (by decide)
  | decimal hdecimal h =>
      rw [hinted_fixed (by decide) (by decide), Bool.false_and]
      exact belongs_decimal_iff host hdecimal (fun type htype => h type htype.2 htype.1) hin hnull
  | datetime hdatetime h =>
      rw [hinted_fixed (by decide) (by decide), Bool.false_and]
      exact belongs_datetime_iff host hdatetime (fun type htype => h type htype.2 htype.1) hin hnull
  | string hunknown hnested hnumeric htemporal =>
      have hhinted : hinted .string hint = .string := hinted_fixed (by decide) (by decide)
      rw [hhinted]
      refine iff_of_true (belongs_toText (ne_none_of_typeOf hnull)) (not_unsuited ?_ ?_ ?_ ?_)
      · intro hhas
        exact hunknown hhas.2
      · intro _ hall
        obtain ⟨type, htype, htype_null, hout⟩ := hnumeric
        exact absurd (hall _ ⟨htype_null, htype⟩) hout
      · intro _ hall
        obtain ⟨type, htype, htype_null, hout⟩ := htemporal
        exact absurd (hall _ ⟨htype_null, htype⟩) hout
      · rintro ⟨type, hin', hhas⟩
        exact absurd hhas.2 (hnested type hin')
  | object hunknown hnested hother =>
      have hhinted : hinted .object hint = .object := hinted_fixed (by decide) (by decide)
      obtain ⟨nested, hnested, hnested_in⟩ := hnested
      have hnested_null : nested ≠ .null := by
        rintro rfl
        exact absurd hnested (by decide)
      rw [hhinted]
      have hplain : converted host (true && decide (LogicalType.object = .string)) .object value =
          value := rfl
      rw [hplain]
      constructor
      · rintro (hnone | hobject | ⟨hnone, -⟩)
        · cases hnone
        · refine not_unsuited ?_ ?_ ?_ (fun _ _ => hobject)
          · intro hhas
            exact hunknown hhas.2
          · intro _ hall
            have hnumber := hall nested ⟨hnested_null, hnested_in⟩
            rcases List.mem_pair.mp hnested with rfl | rfl <;> exact absurd hnumber (by decide)
          · intro _ hall
            have htime := hall nested ⟨hnested_null, hnested_in⟩
            rcases List.mem_pair.mp hnested with rfl | rfl <;> exact absurd htime (by decide)
        · cases hnone
      · intro hunsuited
        by_contra hout
        refine hunsuited (.nested ?_ ⟨nested, hnested, hnested_null, hnested_in⟩ ?_ ?_)
        · intro hhas
          exact hunknown hhas.2
        · obtain ⟨other, hin', hnull', hne⟩ := hother value.typeOf
          exact ⟨other, ⟨hnull', hin'⟩, hne⟩
        · intro hobject
          exact hout (.inr (.inl hobject))

/-! ## One call -/

theorem find_inferFields {hints : Dict String LogicalType} {s : Sample}
    (h : s.stats.get? name = some entry) :
    (inferFields hints s).find? (·.field.name = name) = some (inferField hints s name entry) := by
  unfold inferFields
  rw [List.find?_map]
  have hassoc : ∀ {l : List (String × Stats)}, Dict.assoc name l = some entry →
      l.find? ((fun f : InferredField => decide (f.field.name = name)) ∘
        fun e => inferField hints s e.1 e.2) = some (name, entry) := by
    intro l hl
    induction l with
    | nil => cases hl
    | cons e rest ih =>
        unfold Dict.assoc at hl
        by_cases hname : e.1 = name
        · rw [if_pos hname] at hl
          rw [List.find?_cons_of_pos (by exact decide_eq_true hname)]
          exact congrArg some (Prod.ext hname (Option.some.inj hl))
        · rw [if_neg hname] at hl
          rw [List.find?_cons_of_neg (by simpa [inferField] using hname)]
          exact ih hl
  rw [hassoc h]
  rfl

theorem contains_iff {row : Row} : lacks name row.entries = false ↔ row.contains name = true := by
  unfold lacks
  rw [decide_eq_false_iff_not, not_not, Dict.contains_eq_true, List.mem_map]
  constructor
  · rintro ⟨⟨given, value⟩, hmem, rfl⟩
    exact ⟨value, Dict.mem_entries_iff.mp hmem⟩
  · rintro ⟨value, hget⟩
    exact ⟨(name, value), Dict.mem_entries_iff.mpr hget, rfl⟩

namespace Call

variable (c : Call)

theorem accounted : Accounted c.sampled.1 ∧ c.sampled.1.incompleteRows ≤ 1 :=
  sampleFrom_accounted accounted_empty rfl rfl

theorem kept_rows : (c.sampled.1.rows.take c.sampled.1.replayPrefixCount).map (·.entries) =
    c.traversed.map fun record => keptEntries record.entries := by
  have hsampled : sampleFrom c.limits c.env 0 c.records .empty = (c.sampled.1, c.sampled.2) := rfl
  obtain ⟨n, -, hcount, hrows, -⟩ := sampleFrom_spec rfl hsampled
  have hcount : c.sampled.1.replayPrefixCount = n := hcount.trans (Nat.zero_add n)
  unfold traversed
  rw [hrows, hcount]
  rfl

theorem seen_eq : c.seen = c.sampled.1.rows.map (·.entries) := by
  unfold seen leftOff
  rw [← c.kept_rows, ← List.map_append, List.take_append_drop]

theorem tallied : Tallied c.seen c.sampled.1.stats := by
  rw [c.seen_eq]
  exact c.accounted.1.tallied

theorem length_traversed : c.traversed.length = c.sampled.1.replayPrefixCount := by
  have hkept := congrArg List.length c.kept_rows
  rw [List.length_map, List.length_map, List.length_take] at hkept
  have hlength := c.accounted.1.length
  omega

theorem length_leftOff : c.leftOff.length = c.sampled.1.incompleteRows := by
  unfold leftOff
  rw [List.length_drop, c.accounted.1.length]
  omega

/-- The fields of the schema are those that were read. -/
theorem mem_schema {f : NormalizedField} : f ∈ c.schema ↔
    ∃ entry, c.sampled.1.stats.get? f.name = some entry ∧
      f = (inferField c.hints c.sampled.1 f.name entry).field := by
  unfold schema fields inferFields
  rw [List.map_map, List.mem_map]
  constructor
  · rintro ⟨⟨name, entry⟩, hmem, rfl⟩
    exact ⟨entry, Dict.mem_entries_iff.mp hmem, rfl⟩
  · rintro ⟨entry, hget, hf⟩
    exact ⟨(f.name, entry), Dict.mem_entries_iff.mpr hget, hf.symm⟩

/-- A field is required when at most the record in which sampling stopped makes up for its
absence. -/
theorem required_iff (hget : c.sampled.1.stats.get? name = some entry) :
    (inferField c.hints c.sampled.1 name entry).field.required = true ↔
      c.traversed.countP (fun record => lacks name (keptEntries record.entries)) ≤
        c.leftOff.countP (fun row => row.contains name) := by
  have hcounts := c.tallied.counts name
  rw [hget] at hcounts
  have hobserved := hcounts.observed
  unfold seen at hobserved
  rw [List.countP_append, List.countP_map, List.countP_map] at hobserved
  have hsplit := List.length_eq_countP_add_countP
    (fun record : Record => lacks name (keptEntries record.entries)) (l := c.traversed)
  have hcontains : c.leftOff.countP ((fun entries => !lacks name entries) ∘ (·.entries)) =
      c.leftOff.countP (fun row => row.contains name) := by
    refine List.countP_congr ?_
    intro row _
    show (!lacks name row.entries) = true ↔ _
    rw [Bool.not_eq_true', contains_iff]
  have hrows := c.accounted.1.length
  have hlength := c.length_traversed
  show decide (c.sampled.1.rows.length - entry.observed - c.sampled.1.incompleteRows = 0) = true ↔ _
  rw [decide_eq_true_eq]
  simp only [Function.comp_def, Option.getD_some, Bool.not_eq_true, Bool.decide_eq_false] at *
  omega

/-- Every null is counted. -/
theorem nullable_iff (hget : c.sampled.1.stats.get? name = some entry) :
    (inferField c.hints c.sampled.1 name entry).field.nullable = true ↔
      ∃ entries ∈ c.seen, (name, Value.none) ∈ entries := by
  have hcounts := c.tallied.counts name
  rw [hget] at hcounts
  show decide (0 < entry.nulls) = true ↔ _
  rw [decide_eq_true_eq]
  exact hcounts.nulls

/-- The types of a field are those it was read with. -/
theorem has_iff (hget : c.sampled.1.stats.get? name = some entry) {type : LogicalType} :
    c.Has name type ↔ type ≠ .null ∧ type ∈ entry.types := by
  have hcounts := c.tallied.counts name
  rw [hget] at hcounts
  unfold Has
  rw [← hcounts.types type]
  rfl

theorem mem_seen {record : Record} (h : record ∈ c.traversed) :
    keptEntries record.entries ∈ c.seen :=
  List.mem_append_left _ (List.mem_map_of_mem h)

/-- A field of a record that was traversed is known. -/
theorem known {record : Record} (h : record ∈ c.traversed)
    (hmem : (name, value) ∈ keptEntries record.entries) :
    ∃ entry, c.sampled.1.stats.get? name = some entry := by
  refine Option.ne_none_iff_exists'.mp ?_
  rw [c.tallied.known]
  exact ⟨_, c.mem_seen h, List.mem_map_of_mem (f := Prod.fst) hmem⟩

/-- A converted value of a record belongs to the type of its field unless it is unsuited. -/
theorem belongs_convert_iff (host : Host) {record : Record} (h : record ∈ c.traversed)
    (hmem : (name, value) ∈ keptEntries record.entries) (hnull : value.typeOf ≠ .null)
    (hget : c.sampled.1.stats.get? name = some entry) :
    Belongs (inferField c.hints c.sampled.1 name entry).field.logicalType
        (convert host c.fields name value) ↔
      ¬ Unsuited (c.Has name) (c.hints.get? name) value := by
  have hcounts := c.tallied.counts name
  rw [hget] at hcounts
  have hin : value.typeOf ∈ entry.types :=
    (hcounts.types _).mpr ⟨_, c.mem_seen h, value, hmem, rfl⟩
  have hhas : c.Has name = fun type => type ≠ .null ∧ type ∈ entry.types := by
    funext type
    exact propext (c.has_iff hget)
  have hfind : c.fields.find? (·.field.name = name) =
      some (inferField c.hints c.sampled.1 name entry) := find_inferFields hget
  rw [convert_of_find hfind, hhas]
  exact belongs_inferred_iff host hcounts.nodup hin hnull

end Call

/-- A kept value is `None` or has a type. -/
theorem kept_value {fields : List (Key × Value)} (h : (name, value) ∈ keptEntries fields)
    (hne : value ≠ .none) : value.typeOf ≠ .null := by
  unfold keptEntries at h
  obtain ⟨e, -, he⟩ := List.mem_filterMap.mp h
  obtain ⟨given, -, heq⟩ := Option.map_eq_some_iff.mp he
  obtain ⟨-, rfl⟩ := Prod.mk.inj heq
  intro hnull
  by_cases htype : e.2.typeOf = .null
  · exact hne (observed_of_null htype)
  · rw [observed_of_ne_null htype] at hnull
    exact htype hnull

theorem mem_prefixRow {host : Host} {fields : List InferredField} {record : Record}
    {name : String} {value : Value} :
    (Key.text name, value) ∈ prefixRow host fields record ↔
      ∃ raw, (name, raw) ∈ keptEntries record.entries ∧ convert host fields name raw = value := by
  unfold prefixRow
  rw [List.mem_map]
  constructor
  · rintro ⟨⟨given, raw⟩, hmem, heq⟩
    obtain ⟨hname, hvalue⟩ := Prod.mk.inj heq
    cases hname
    exact ⟨raw, hmem, hvalue⟩
  · rintro ⟨raw, hmem, rfl⟩
    exact ⟨(name, raw), hmem, rfl⟩

theorem mem_keys_prefixRow {host : Host} {fields : List InferredField} {record : Record}
    {name : String} :
    Key.text name ∈ (prefixRow host fields record).map Prod.fst ↔
      lacks name (keptEntries record.entries) = false := by
  unfold prefixRow lacks
  simp

theorem convert_eq_none {host : Host} {fields : List InferredField} {name : String}
    {value : Value} : convert host fields name value = .none ↔ value = .none := by
  constructor
  · intro h
    by_contra hne
    cases hfind : fields.find? (·.field.name = name) with
    | none =>
        unfold convert at h
        rw [hfind] at h
        exact hne h
    | some f =>
        rw [convert_of_find hfind] at h
        exact converted_ne_none hne h
  · rintro rfl
    exact convert_none host fields name

/-- Every record traversed to its end conforms to the schema exactly when the call is settled. -/
theorem conforms_iff (host : Host) (c : Call) :
    (∀ record ∈ c.traversed, Conforms c.schema (prefixRow host c.fields record)) ↔ Settled c := by
  constructor
  · intro h
    refine ⟨?_, ?_⟩
    · intro row hrow name hcontains hone
      have hread : ∃ entries ∈ c.seen, name ∈ entries.map Prod.fst := by
        refine ⟨row.entries, List.mem_append_right _ (List.mem_map_of_mem hrow), ?_⟩
        by_contra hout
        have hlacks : lacks name row.entries = false := contains_iff.mpr hcontains
        rw [lacks, decide_eq_true hout] at hlacks
        cases hlacks
      obtain ⟨entry, hget⟩ := Option.ne_none_iff_exists'.mp ((c.tallied.known name).mpr hread)
      have hrequired : (inferField c.hints c.sampled.1 name entry).field.required = true := by
        rw [c.required_iff hget, hone]
        exact List.countP_pos_iff.mpr ⟨row, hrow, hcontains⟩
      have hsome : 0 < c.traversed.countP fun record =>
          lacks name (keptEntries record.entries) := by
        omega
      obtain ⟨record, hrecord, hlacks⟩ := List.countP_pos_iff.mp hsome
      have hkey := (h record hrecord).required _ (c.mem_schema.mpr ⟨entry, hget, rfl⟩) hrequired
      have hhas : lacks name (keptEntries record.entries) = false := mem_keys_prefixRow.mp hkey
      rw [hhas] at hlacks
      cases hlacks
    · intro record hrecord name value hmem hne
      obtain ⟨entry, hget⟩ := c.known hrecord hmem
      refine (c.belongs_convert_iff host hrecord hmem (kept_value hmem hne) hget).mp ?_
      exact (h record hrecord).typed _ (c.mem_schema.mpr ⟨entry, hget, rfl⟩) _
        (mem_prefixRow.mpr ⟨value, hmem, rfl⟩) (fun hnone => hne (convert_eq_none.mp hnone))
  · intro h record hrecord
    refine ⟨?_, ?_, ?_⟩
    · intro f hf hrequired
      obtain ⟨entry, hget, hfield⟩ := c.mem_schema.mp hf
      rw [hfield, c.required_iff hget] at hrequired
      rw [mem_keys_prefixRow, ← Bool.not_eq_true]
      intro hlacks
      have hone : 0 < c.traversed.countP fun record =>
          lacks f.name (keptEntries record.entries) :=
        List.countP_pos_iff.mpr ⟨record, hrecord, hlacks⟩
      have hmade : c.leftOff.countP (fun row => row.contains f.name) ≤ 1 := by
        have hle : c.leftOff.countP (fun row => row.contains f.name) ≤ c.leftOff.length :=
          List.countP_le_length
        rw [c.length_leftOff] at hle
        exact Nat.le_trans hle c.accounted.2
      obtain ⟨row, hrow, hcontains⟩ :=
        List.countP_pos_iff.mp (Nat.lt_of_lt_of_le hone hrequired)
      exact h.counted row hrow f.name hcontains (by omega)
    · intro f hf hmem
      obtain ⟨entry, hget, hfield⟩ := c.mem_schema.mp hf
      obtain ⟨raw, hraw, hnone⟩ := mem_prefixRow.mp hmem
      rw [convert_eq_none.mp hnone] at hraw
      rw [hfield]
      exact (c.nullable_iff hget).mpr ⟨_, c.mem_seen hrecord, hraw⟩
    · intro f hf value hmem hne
      obtain ⟨entry, hget, hfield⟩ := c.mem_schema.mp hf
      obtain ⟨raw, hraw, rfl⟩ := mem_prefixRow.mp hmem
      have hraw_ne : raw ≠ .none := fun hnone => hne (convert_eq_none.mpr hnone)
      rw [hfield]
      exact (c.belongs_convert_iff host hrecord hraw (kept_value hraw hraw_ne) hget).mpr
        (h.typed record hrecord f.name raw hraw hraw_ne)

/-! ## A field made up for -/

/-- Three records with at most two fields each, read up to the second field of the third. -/
def shortCall : Call :=
  { records :=
      [Dict.empty.set (.text "a") (.integer 1),
        (Dict.empty.set (.text "a") (.integer 1)).set (.text "b") (.integer 2),
        (Dict.empty.set (.text "b") (.integer 2)).set (.text "c") (.integer 3)]
    failure := false
    limits := ⟨10, 2, none⟩
    hints := Dict.empty
    env := calm }

/-- The texts of short decimals and of dates at midnight. -/
def plainHost : Host := ⟨fun text => text, fun text => text ++ " 00:00:00"⟩

/-- The first record does not have the field `b`, which the record left inside makes required. -/
theorem absent_field_required : ¬ ∀ record ∈ shortCall.traversed,
    Conforms shortCall.schema (prefixRow plainHost shortCall.fields record) := by
  intro h
  have hfield : (⟨"b", .integer, true, false, none⟩ : NormalizedField) ∈ shortCall.schema := by
    decide
  have hkey := (h (Dict.empty.set (.text "a") (.integer 1)) List.mem_cons_self).required
    _ hfield rfl
  have habsent : lacks "b" (keptEntries
      (Dict.empty.set (Key.text "a") (Value.integer 1)).entries) = true := by decide
  rw [mem_keys_prefixRow.mp hkey] at habsent
  cases habsent

end Etlantic.Inference.Records
