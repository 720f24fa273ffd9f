import Etlantic.Inference.Records

/-!
# What the replay delivers

The replay is compared with the source, each record converted as the schema
says.  The prefix is rebuilt from what the sampling kept and the remainder is
the source itself, so the two agree exactly on the records that sampling does
not alter.
-/

namespace Etlantic.Inference.Records

/-! ## Specification -/

/-- The value that a schema makes of a value of one of its fields. -/
def convertBy (host : Host) (schema : Schema) (name : String) (value : Value) : Value :=
  match schema.find? (·.name = name) with
  | none => value
  | some f =>
      if f.logicalType = .string then value.toText
      else if f.logicalType = .decimal then value.toDecimal host
      else if f.logicalType = .datetime then value.toDatetime host
      else value

/-- A record as its schema delivers it. -/
def deliver (host : Host) (schema : Schema) (record : Record) : List (Key × Value) :=
  record.entries.map fun e =>
    match e.1 with
    | .text name => (e.1, convertBy host schema name e.2)
    | .other _ => e

/-- The replay yields every record exactly once, in order and converted by `delivery` alone; if a
failure prevents this, consuming it raises. -/
def Faithful (host : Host) (delivery : Schema → Record → List (Key × Value)) (c : Call) : Prop :=
  (c.replayed host = c.records.map (delivery c.schema) ∧ (c.failure = true → c.raises = true)) ∨
    (c.replayed host <+: c.records.map (delivery c.schema) ∧ c.raises = true)

/-- Sampling loses nothing of the record: its keys name fields, and its nulls are `None`. -/
def Clean (record : Record) : Prop :=
  ∀ e ∈ record.entries, e.1.name?.isSome = true ∧ (e.2.typeOf = .null → e.2 = .none)

/-- A text field whose sampled values were all of one type holds texts only. -/
def TextsKept (fields : List InferredField) (record : Record) : Prop :=
  ∀ e ∈ record.entries, ∀ name, e.1 = .text name → ∀ f,
    fields.find? (·.field.name = name) = some f → f.field.logicalType = .string →
    f.mixed = false → e.2.toText = e.2

/-- The calls whose replay is faithful. -/
structure Kept (c : Call) : Prop where
  opened : c.sampled.2 ≠ .abandoned
  clean : ∀ record ∈ c.records.take c.sampled.1.replayPrefixCount, Clean record
  texts : ∀ record ∈ c.records, TextsKept c.fields record

/-! ## Sampling -/

/-- The row that sampling keeps of a record it traverses to the end. -/
def keptEntries (entries : List (Key × Value)) : List (String × Value) :=
  entries.filterMap fun e => e.1.name?.map fun name => (name, e.2.observed)

theorem name?_eq_some {key : Key} {name : String} (h : key.name? = some name) :
    key = .text name := by
  cases key with
  | text given =>
      unfold Key.name? at h
      dsimp only at h
      split at h
      · cases h
      · rw [Option.some.inj h]
  | other repr => cases h

/-- A traversal to the end keeps the row of the record. -/
theorem scanFields_complete {limits : InferenceLimits} {env : Environment} {i : Nat} :
    ∀ {entries : List (Key × Value)} {j : Nat} {stats stats' : Dict String Stats}
      {row row' : Row}, (entries.map Prod.fst).Nodup →
      (∀ name, row.get? name ≠ none → Key.text name ∉ entries.map Prod.fst) →
      scanFields limits env i j entries stats row = (stats', row', true) →
      row'.entries = row.entries ++ keptEntries entries
  | [], j, stats, stats', row, row', _, _, h => by
      unfold scanFields at h
      obtain ⟨-, h⟩ := Prod.mk.inj h
      obtain ⟨rfl, -⟩ := Prod.mk.inj h
      exact (List.append_nil _).symm
  | (key, value) :: rest, j, stats, stats', row, row', hnodup, hfresh, h => by
      obtain ⟨hnew, hrest⟩ := List.nodup_cons.mp hnodup
      unfold scanFields at h
      split at h
      · obtain ⟨-, h⟩ := Prod.mk.inj h
        cases (Prod.mk.inj h).2
      cases hkey : key.name? with
      | none =>
          simp only [hkey] at h
          rw [scanFields_complete hrest (fun name hget hmem =>
            hfresh name hget (List.mem_cons_of_mem _ hmem)) h]
          unfold keptEntries
          rw [List.filterMap_cons_none (by rw [hkey]; rfl)]
      | some name =>
          simp only [hkey] at h
          obtain rfl := name?_eq_some hkey
          split at h
          · obtain ⟨-, h⟩ := Prod.mk.inj h
            cases (Prod.mk.inj h).2
          split at h
          · obtain ⟨-, h⟩ := Prod.mk.inj h
            cases (Prod.mk.inj h).2
          have habsent : row.get? name = none := by
            by_contra hget
            exact hfresh name hget List.mem_cons_self
          have hfresh' : ∀ other, (row.set name value.observed).get? other ≠ none →
              Key.text other ∉ rest.map Prod.fst := by
            intro other hget hmem
            rw [Dict.get?_set] at hget
            by_cases hother : name = other
            · exact hnew (hother ▸ hmem)
            · rw [if_neg hother] at hget
              exact hfresh other hget (List.mem_cons_of_mem _ hmem)
          rw [scanFields_complete hrest hfresh' h, Dict.entries_set_of_absent habsent]
          unfold keptEntries
          rw [List.filterMap_cons_some (b := (name, value.observed)) (by rw [hkey]; rfl),
            List.append_assoc]
          rfl

/-- What the sampling loop leaves: the rows of the records it took, and where it stopped. -/
theorem sampleFrom_spec {limits : InferenceLimits} {env : Environment} :
    ∀ {records : List Record} {i : Nat} {s s' : Sample} {stop : Stop},
      s.rows.length = s.replayPrefixCount →
      sampleFrom limits env i records s = (s', stop) →
      ∃ n ≤ records.length, s'.replayPrefixCount = s.replayPrefixCount + n ∧
        (s'.rows.take s'.replayPrefixCount).map (·.entries) =
          s.rows.map (·.entries) ++ (records.take n).map (fun r => keptEntries r.entries) ∧
        ((stop = .exhausted ∧ n = records.length) ∨ stop = .cut (records.drop n) ∨
          (stop = .abandoned ∧ n < records.length))
  | [], i, s, s', stop, hlen, h => by
      obtain ⟨rfl, rfl⟩ := Prod.mk.inj h
      refine ⟨0, Nat.le_refl 0, rfl, ?_, .inl ⟨rfl, rfl⟩⟩
      rw [← hlen, List.take_length, List.take_nil, List.map_nil, List.append_nil]
  | item :: rest, i, s, s', stop, hlen, h => by
      -- The loop stops in front of the record.
      have hcut : ∀ t : Sample, t.rows = s.rows → t.replayPrefixCount = s.replayPrefixCount →
          (t, Stop.cut (item :: rest)) = (s', stop) → ∃ n ≤ (item :: rest).length,
          s'.replayPrefixCount = s.replayPrefixCount + n ∧
          (s'.rows.take s'.replayPrefixCount).map (·.entries) = s.rows.map (·.entries) ++
            ((item :: rest).take n).map (fun r => keptEntries r.entries) ∧
          ((stop = .exhausted ∧ n = (item :: rest).length) ∨
            stop = .cut ((item :: rest).drop n) ∨
            (stop = .abandoned ∧ n < (item :: rest).length)) := by
        intro t hrows hcount heq
        obtain ⟨rfl, rfl⟩ := Prod.mk.inj heq
        refine ⟨0, Nat.zero_le _, hcount, ?_, .inr (.inl rfl)⟩
        rw [hrows, hcount, ← hlen, List.take_length, List.take_zero, List.map_nil,
          List.append_nil]
      unfold sampleFrom at h
      split at h
      · exact hcut s rfl rfl h
      cases hest : env.estimate i with
      | size bytes =>
          simp only [hest] at h
          split at h
          · exact hcut s rfl rfl h
          split at h
          · obtain ⟨rfl, rfl⟩ := Prod.mk.inj h
            refine ⟨0, Nat.zero_le _, rfl, ?_, .inr (.inr ⟨rfl, Nat.succ_pos _⟩)⟩
            rw [← hlen, List.take_length, List.take_zero, List.map_nil, List.append_nil]
          rcases hscan : scanFields limits env i 0 item.entries s.stats Dict.empty with
            ⟨stats, row, complete⟩
          rw [hscan] at h
          cases complete with
          | true =>
              have hrow : row.entries = keptEntries item.entries := by
                have hkept := scanFields_complete item.nodup (fun _ hget => absurd rfl hget) hscan
                exact hkept
              obtain ⟨n, hn, hcount, hrows, hstop⟩ := sampleFrom_spec (by simp [hlen]) h
              refine ⟨n + 1, Nat.succ_le_succ hn, ?_, ?_, ?_⟩
              · rw [hcount]
                show s.replayPrefixCount + 1 + n = s.replayPrefixCount + (n + 1)
                omega
              · rw [hrows]
                show (s.rows ++ [row]).map (·.entries) ++ _ = _
                rw [List.map_append, List.append_assoc, List.take_succ_cons, List.map_cons,
                  List.map_cons, List.map_nil, hrow, List.cons_append, List.nil_append]
              · rcases hstop with ⟨hstop, hall⟩ | hstop | ⟨hstop, hlt⟩
                · exact .inl ⟨hstop, by rw [hall, List.length_cons]⟩
                · exact .inr (.inl hstop)
                · exact .inr (.inr ⟨hstop, Nat.succ_lt_succ hlt⟩)
          | false =>
              obtain ⟨rfl, rfl⟩ := Prod.mk.inj h
              refine ⟨0, Nat.zero_le _, rfl, ?_, .inr (.inl rfl)⟩
              rw [← hlen, List.take_left', List.take_zero, List.map_nil, List.append_nil]
              rfl
      | limitExceeded =>
          simp only [hest] at h
          exact hcut s rfl rfl h
      | traversalExceeded =>
          simp only [hest] at h
          exact hcut s rfl rfl h
      | timeout =>
          simp only [hest] at h
          exact hcut s rfl rfl h
      | providerFailure =>
          simp only [hest] at h
          exact hcut s rfl rfl h

/-! ## One value -/

theorem convertBy_eq_none {host : Host} {schema : Schema} {name : String} {value : Value} :
    convertBy host schema name value = .none ↔ value = .none := by
  have htext : value.toText = .none ↔ value = .none := by
    cases value <;> simp [Value.toText]
  have hdecimal : value.toDecimal host = .none ↔ value = .none := by
    cases value <;> simp [Value.toDecimal]
  have hdatetime : value.toDatetime host = .none ↔ value = .none := by
    cases value <;> simp [Value.toDatetime]
  unfold convertBy
  split
  · exact Iff.rfl
  · split
    · exact htext
    · split
      · exact hdecimal
      · split
        · exact hdatetime
        · exact Iff.rfl

theorem convert_none (host : Host) (fields : List InferredField) (name : String) :
    convert host fields name .none = .none := by
  unfold convert
  split
  · rfl
  · split
    · rfl
    · split
      · rfl
      · split <;> rfl

theorem observed_of_null {value : Value} (h : value.typeOf = .null) : value.observed = .none := by
  unfold Value.observed
  by_cases hnan : value.isNan = true
  · simp [hnan]
  · simp [hnan, h]

theorem observed_of_ne_null {value : Value} (h : value.typeOf ≠ .null) :
    value.observed = value := by
  have hnan : ¬ value.isNan = true := by
    intro hnan
    exact h (by unfold Value.typeOf; rw [if_pos hnan])
  unfold Value.observed
  simp [hnan, h]

/-- Only a field that became a text is marked as mixed. -/
def MarksTexts (fields : List InferredField) : Prop :=
  ∀ f ∈ fields, f.mixed = true → f.field.logicalType = .string

theorem marksTexts_inferFields (hints : Dict String LogicalType) (s : Sample) :
    MarksTexts (inferFields hints s) := by
  intro f hf hmixed
  obtain ⟨e, -, rfl⟩ := List.mem_map.mp hf
  exact of_decide_eq_true (Bool.and_eq_true_iff.mp hmixed).2

/-- The two conversions differ on the values of a text field that is not mixed. -/
theorem convert_eq_iff {host : Host} {fields : List InferredField} (hmarks : MarksTexts fields)
    {name : String} {value : Value} :
    convert host fields name value = convertBy host (fields.map (·.field)) name value ↔
      ∀ f, fields.find? (·.field.name = name) = some f → f.field.logicalType = .string →
        f.mixed = false → value.toText = value := by
  have hfind : (fields.map (·.field)).find? (·.name = name) =
      (fields.find? (·.field.name = name)).map (·.field) := List.find?_map
  unfold convert convertBy
  rw [hfind]
  cases hf : fields.find? (·.field.name = name) with
  | none => simp
  | some f =>
      have hstring := hmarks f (List.mem_of_find?_eq_some hf)
      simp only [Option.map_some, Option.some.injEq, forall_eq']
      cases hmixed : f.mixed with
      | true => simp [hstring hmixed]
      | false =>
          by_cases htext : f.field.logicalType = .string
          · simp [htext, eq_comm]
          · simp [htext]

/-! ## One record -/

theorem map_filterMap_eq_map_iff {α β γ : Type*} {f : α → Option β} {g : β → γ} {d : α → γ} :
    ∀ {l : List α}, (l.filterMap f).map g = l.map d ↔
      ∀ x ∈ l, ∃ y, f x = some y ∧ g y = d x
  | [] => by simp
  | x :: l => by
      have hlength : ((x :: l).map d).length = l.length + 1 := by simp
      have hle : ((l.filterMap f).map g).length ≤ l.length := by
        rw [List.length_map]
        exact List.length_filterMap_le f l
      cases hx : f x with
      | none =>
          rw [List.filterMap_cons_none hx]
          constructor
          · intro h
            rw [h, hlength] at hle
            omega
          · intro h
            obtain ⟨y, hy, -⟩ := h x List.mem_cons_self
            rw [hx] at hy
            cases hy
      | some y =>
          rw [List.filterMap_cons_some hx, List.map_cons, List.map_cons, List.cons.injEq,
            map_filterMap_eq_map_iff, List.forall_mem_cons, hx]
          simp

/-- The row that the prefix delivers for a record. -/
def prefixRow (host : Host) (fields : List InferredField) (record : Record) :
    List (Key × Value) :=
  (keptEntries record.entries).map fun e => (.text e.1, convert host fields e.1 e.2)

/-- One entry survives the prefix when it is named, not a foreign null, and not a value that the
schema would turn into a text. -/
theorem prefix_entry_iff {host : Host} {fields : List InferredField} (hmarks : MarksTexts fields)
    {name : String} {value : Value} :
    convert host fields name value.observed =
        convertBy host (fields.map (·.field)) name value ↔
      (value.typeOf = .null → value = .none) ∧
        ∀ f, fields.find? (·.field.name = name) = some f → f.field.logicalType = .string →
          f.mixed = false → value.toText = value := by
  by_cases hnull : value.typeOf = .null
  · rw [observed_of_null hnull, convert_none, eq_comm, convertBy_eq_none]
    constructor
    · rintro rfl
      exact ⟨fun _ => rfl, fun _ _ _ _ => rfl⟩
    · rintro ⟨hnone, -⟩
      exact hnone hnull
  · rw [observed_of_ne_null hnull, convert_eq_iff hmarks]
    constructor
    · intro h
      exact ⟨fun h' => absurd h' hnull, h⟩
    · rintro ⟨-, h⟩
      exact h

theorem prefixRow_eq_deliver_iff {host : Host} {fields : List InferredField}
    (hmarks : MarksTexts fields) {record : Record} :
    prefixRow host fields record = deliver host (fields.map (·.field)) record ↔
      Clean record ∧ TextsKept fields record := by
  unfold prefixRow keptEntries deliver
  rw [map_filterMap_eq_map_iff]
  constructor
  · intro h
    constructor
    · intro e he
      obtain ⟨y, hy, heq⟩ := h e he
      obtain ⟨name, hname, rfl⟩ := Option.map_eq_some_iff.mp hy
      rw [name?_eq_some hname] at heq
      refine ⟨by rw [hname]; rfl, ?_⟩
      exact ((prefix_entry_iff hmarks).mp (Prod.mk.inj heq).2).1
    · intro e he given hgiven
      obtain ⟨y, hy, heq⟩ := h e he
      obtain ⟨name, hname, rfl⟩ := Option.map_eq_some_iff.mp hy
      have htext := name?_eq_some hname
      rw [htext] at heq
      obtain rfl : name = given := Key.text.inj (htext.symm.trans hgiven)
      exact ((prefix_entry_iff hmarks).mp (Prod.mk.inj heq).2).2
  · rintro ⟨hclean, htexts⟩ e he
    obtain ⟨hsome, hnull⟩ := hclean e he
    obtain ⟨name, hname⟩ := Option.isSome_iff_exists.mp hsome
    have htext := name?_eq_some hname
    refine ⟨(name, e.2.observed), by rw [hname]; rfl, ?_⟩
    rw [htext]
    refine Prod.ext rfl ?_
    exact (prefix_entry_iff hmarks).mpr ⟨hnull, htexts e he name htext⟩

theorem normalizeReplayRow_eq_deliver_iff {host : Host} {fields : List InferredField}
    (hmarks : MarksTexts fields) {record : Record} :
    normalizeReplayRow host fields record = deliver host (fields.map (·.field)) record ↔
      TextsKept fields record := by
  unfold normalizeReplayRow deliver
  rw [List.map_inj_left]
  constructor
  · intro h e he name hname
    have heq := h e he
    rw [hname] at heq
    exact (convert_eq_iff hmarks).mp (Prod.mk.inj heq).2
  · intro h e he
    cases hkey : e.1 with
    | other repr => rfl
    | text name =>
        refine Prod.ext rfl ?_
        exact (convert_eq_iff hmarks).mpr (h e he name hkey)

/-! ## One call -/

/-- A replay of full length that raises whenever its source failed is faithful just when every
record is delivered. -/
theorem faithful_iff_of_length {host : Host} {delivery : Schema → Record → List (Key × Value)}
    {c : Call} (hlength : (c.replayed host).length = c.records.length)
    (hraises : c.raises = c.failure) :
    Faithful host delivery c ↔ c.replayed host = c.records.map (delivery c.schema) := by
  constructor
  · rintro (⟨heq, -⟩ | ⟨hprefixed, -⟩)
    · exact heq
    · exact hprefixed.eq_of_length (by rw [hlength, List.length_map])
  · intro heq
    refine .inl ⟨heq, ?_⟩
    intro hfailure
    rw [hraises, hfailure]

/-- The rows of the prefix are those of the records taken. -/
theorem prefix_rows {host : Host} {fields : List InferredField} {rows : List Row}
    {records : List Record}
    (h : rows.map (·.entries) = records.map fun r => keptEntries r.entries) :
    rows.map (normalizedRow host fields) = records.map (prefixRow host fields) := by
  have hmap := congrArg (List.map fun es : List (String × Value) =>
    es.map fun e => (Key.text e.1, convert host fields e.1 e.2)) h
  rw [List.map_map, List.map_map] at hmap
  exact hmap

/-- The replay is faithful exactly on the calls that sampling does not alter. -/
theorem replay_faithful_iff (host : Host) (c : Call) :
    Faithful host (deliver host) c ↔ Kept c := by
  have hsampled : sampleFrom c.limits c.env 0 c.records .empty = (c.sampled.1, c.sampled.2) := rfl
  obtain ⟨n, hn, hcount, hrows, hstop⟩ := sampleFrom_spec rfl hsampled
  have hcount : c.sampled.1.replayPrefixCount = n := hcount.trans (Nat.zero_add n)
  have hmarks : MarksTexts c.fields := marksTexts_inferFields c.hints c.sampled.1
  have hprefixed : (c.sampled.1.rows.take c.sampled.1.replayPrefixCount).map
      (normalizedRow host c.fields) = (c.records.take n).map (prefixRow host c.fields) :=
    prefix_rows hrows
  -- A call that reaches the end or leaves a remainder differs record by record.
  have hkept : c.sampled.2 ≠ .abandoned →
      c.replayed host = (c.records.take n).map (prefixRow host c.fields) ++
        (c.records.drop n).map (normalizeReplayRow host c.fields) →
      c.raises = c.failure → (Faithful host (deliver host) c ↔ Kept c) := by
    intro hopened hreplayed hraises
    have hlength : (c.replayed host).length = c.records.length := by
      rw [hreplayed, List.length_append, List.length_map, List.length_map, List.length_take,
        List.length_drop]
      omega
    rw [faithful_iff_of_length hlength hraises, hreplayed]
    have hsplit : c.records.map (deliver host c.schema) =
        (c.records.take n).map (deliver host c.schema) ++
          (c.records.drop n).map (deliver host c.schema) := by
      rw [← List.map_append, List.take_append_drop]
    rw [hsplit]
    constructor
    · intro heq
      obtain ⟨htaken, hleft⟩ := List.append_inj heq (by rw [List.length_map, List.length_map])
      have htaken : ∀ r ∈ c.records.take n, Clean r ∧ TextsKept c.fields r := fun r hr =>
        (prefixRow_eq_deliver_iff hmarks).mp (List.map_inj_left.mp htaken r hr)
      have hleft : ∀ r ∈ c.records.drop n, TextsKept c.fields r := fun r hr =>
        (normalizeReplayRow_eq_deliver_iff hmarks).mp (List.map_inj_left.mp hleft r hr)
      refine ⟨hopened, fun r hr => (htaken r (hcount ▸ hr)).1, ?_⟩
      intro r hr
      rw [← List.take_append_drop n c.records] at hr
      rcases List.mem_append.mp hr with hr | hr
      · exact (htaken r hr).2
      · exact hleft r hr
    · intro hk
      have htaken : (c.records.take n).map (prefixRow host c.fields) =
          (c.records.take n).map (deliver host c.schema) := by
        refine List.map_inj_left.mpr ?_
        intro r hr
        exact (prefixRow_eq_deliver_iff hmarks).mpr
          ⟨hk.clean r (hcount.symm ▸ hr), hk.texts r (List.mem_of_mem_take hr)⟩
      have hleft : (c.records.drop n).map (normalizeReplayRow host c.fields) =
          (c.records.drop n).map (deliver host c.schema) := by
        refine List.map_inj_left.mpr ?_
        intro r hr
        exact (normalizeReplayRow_eq_deliver_iff hmarks).mpr
          (hk.texts r (List.mem_of_mem_drop hr))
      rw [htaken, hleft]
  rcases hstop with ⟨hstop, hall⟩ | hstop | ⟨hstop, hlt⟩
  · refine hkept (by rw [hstop]; intro h; cases h) ?_ (by simp only [Call.raises, hstop])
    simp only [Call.replayed, hstop]
    rw [hprefixed, hall, List.drop_length, List.map_nil, List.append_nil]
  · refine hkept (by rw [hstop]; intro h; cases h) ?_ (by simp only [Call.raises, hstop])
    simp only [Call.replayed, hstop]
    rw [hprefixed]
  · -- The abandoned call ends early and raises nothing.
    have hraises : c.raises = false := by simp only [Call.raises, hstop]
    have hreplayed : c.replayed host = (c.records.take n).map (prefixRow host c.fields) := by
      simp only [Call.replayed, hstop]
      exact hprefixed
    constructor
    · rintro (⟨heq, -⟩ | ⟨-, hraised⟩)
      · have hlength := congrArg List.length heq
        rw [hreplayed, List.length_map, List.length_take, List.length_map] at hlength
        omega
      · rw [hraises] at hraised
        cases hraised
    · intro hk
      exact absurd hstop hk.opened

/-! ## Records that the replay loses or alters -/

/-- Sampling without a limit of time or size, and records that open. -/
def calm : Environment :=
  ⟨fun _ => false, fun _ => .size 0, fun _ => false, fun _ _ => false, fun _ _ => false,
    fun _ _ => false⟩

def cell (value : Value) : Record := Dict.empty.set (.text "x") value

def call (records : List Record) (maxRows : Nat) (env : Environment) : Call :=
  ⟨records, false, ⟨maxRows, 64, none⟩, Dict.empty, env⟩

/-- A record whose iterator does not open ends the replay early, and a foreign null is delivered
as it is or as `None` depending on where sampling stopped. -/
theorem replay_loses_and_alters :
    (∀ host delivery, ¬ Faithful host delivery
      (call [cell (.integer 1), cell (.integer 2)] 10 { calm with iterFails := (· == 1) })) ∧
    ∀ host delivery,
      ¬ (Faithful host delivery (call [cell .none, cell (.float "nan")] 1 calm) ∧
        Faithful host delivery (call [cell .none, cell (.float "nan")] 2 calm)) := by
  constructor
  · rintro host delivery (⟨heq, -⟩ | ⟨-, hraised⟩)
    · cases congrArg List.length heq
    · cases hraised
  · rintro host delivery ⟨hone, htwo⟩
    have hschema : (call [cell .none, cell (.float "nan")] 1 calm).schema =
        (call [cell .none, cell (.float "nan")] 2 calm).schema := by decide
    rw [faithful_iff_of_length (by rfl) (by rfl)] at hone htwo
    rw [hschema] at hone
    have hsame := hone.trans htwo.symm
    have hsecond : [(Key.text "x", Value.float "nan")] = [(Key.text "x", Value.none)] :=
      (List.cons.inj (List.cons.inj hsame).2).1
    cases hsecond

end Etlantic.Inference.Records
