import Etlantic.Base.Checked
import Etlantic.Base.Dict
import Etlantic.Base.FirstOccurrence
import Etlantic.Base.Repr
import Mathlib.Algebra.Field.Rat

/-!
# Keys of rows in the local engine

`distinct` and `count_distinct` compare the `repr` of cells, and `aggregate` puts rows
into the buckets of a dictionary, where numbers are equal by value.  The operators agree
on rows where the two notions see the same repetitions.
-/

namespace Etlantic.Transform

/-- A hashable cell. -/
inductive Cell where
  | null
  | bool (b : Bool)
  | int (n : Int)
  /-- A finite `Decimal`, by sign, coefficient and exponent. -/
  | decimal (negative : Bool) (coefficient : Nat) (exponent : Int)
  | infinity (negative : Bool)
  /-- A quiet NaN, which equals nothing but the same object. -/
  | nan (negative : Bool) (payload : Option Nat) (object : Nat)
  | str (text : String)
  | date (year month day : Nat)
deriving DecidableEq

/-- Two cells are the same key of a dictionary just if these are the same. -/
inductive CellKey where
  | null
  | number (value : ℚ)
  | infinity (negative : Bool)
  | nan (object : Nat)
  | str (text : String)
  | date (year month day : Nat)
deriving DecidableEq

def Cell.key : Cell → CellKey
  | .null => .null
  | .bool b => .number (if b then 1 else 0)
  | .int n => .number n
  | .decimal negative coefficient exponent =>
      .number ((if negative then -(coefficient : ℚ) else coefficient) * (10 : ℚ) ^ exponent)
  | .infinity negative => .infinity negative
  | .nan _ _ object => .nan object
  | .str text => .str text
  | .date year month day => .date year month day

/-! ## `repr` -/

def signText (negative : Bool) : String := if negative then "-" else ""

/-- `str` of a finite `Decimal`. -/
def decimalText (negative : Bool) (coefficient : Nat) (exponent : Int) : String :=
  let digits := Nat.toDigits 10 coefficient
  let leftDigits := exponent + digits.length
  signText negative ++
    if exponent ≤ 0 ∧ -6 < leftDigits then
      if leftDigits ≤ 0 then
        "0." ++ String.ofList (List.replicate (-leftDigits).toNat '0' ++ digits)
      else if digits.length ≤ leftDigits then String.ofList digits
      else String.ofList (digits.take leftDigits.toNat) ++ "." ++
        String.ofList (digits.drop leftDigits.toNat)
    else
      (if digits.length ≤ 1 then String.ofList digits
        else String.ofList (digits.take 1) ++ "." ++ String.ofList (digits.drop 1)) ++
      if leftDigits = 1 then "" else
        "E" ++ (if leftDigits - 1 < 0 then "" else "+") ++ toString (leftDigits - 1)

section Repr

variable (isPrintable : Char → Bool)

/-- `repr` of a cell. -/
def Cell.repr : Cell → String
  | .null => "None"
  | .bool b => if b then "True" else "False"
  | .int n => toString n
  | .decimal negative coefficient exponent =>
      "Decimal('" ++ decimalText negative coefficient exponent ++ "')"
  | .infinity negative => "Decimal('" ++ signText negative ++ "Infinity')"
  | .nan negative payload _ =>
      "Decimal('" ++ signText negative ++ "NaN" ++ (payload.map toString).getD "" ++ "')"
  | .str text => String.ofList (Repr.text isPrintable text)
  | .date year month day => "datetime.date(" ++ toString year ++ ", " ++ toString month ++ ", " ++
      toString day ++ ")"

end Repr

/-! ## Rows -/

abbrev Row := Dict String Cell

/-- `r.get(k)`. -/
def cellOf (row : Row) (k : String) : Cell := (row.get? k).getD .null

section Operators

variable (isPrintable : Char → Bool)

/-- The pairs that make the key of a row; without key fields, those of all its fields. -/
def spelled (keys : List String) (row : Row) : List (String × String) :=
  if keys = [] then
    (row.entries.insertionSort fun a b => a.1 ≤ b.1).map fun e => (e.1, e.2.repr isPrintable)
  else keys.map fun k => (k, (cellOf row k).repr isPrintable)

/-- `repr(values)`. -/
def distinctKey (keys : List String) (row : Row) : List Char :=
  Repr.pairs isPrintable (spelled isPrintable keys row)

/-- `dtcs:distinct` and `dtcs:deduplicate`. -/
def distinct (keys : List String) (rows : List Row) : List Row :=
  FirstOccurrence.firsts (distinctKey isPrintable keys) [] rows

/-- `tuple(r.get(str(g)) for g in groups)`, as a key of a dictionary. -/
def groupKey (groupBy : List String) (row : Row) : List CellKey :=
  groupBy.map fun g => (cellOf row g).key

/-- A bucket holds the key that it was made for, as it is written there, and its rows. -/
abbrev Bucket := List Cell × List Row

/-- `buckets.setdefault(key, []).append(r)`. -/
def addToBucket (groupBy : List String) (buckets : Dict (List CellKey) Bucket) (row : Row) :
    Dict (List CellKey) Bucket :=
  match buckets.get? (groupKey groupBy row) with
  | none => buckets.set (groupKey groupBy row) (groupBy.map (cellOf row), [row])
  | some (cells, members) => buckets.set (groupKey groupBy row) (cells, members ++ [row])

def bucketsOf (groupBy : List String) (rows : List Row) : Dict (List CellKey) Bucket :=
  rows.foldl (addToBucket groupBy) Dict.empty

/-- The groups of `aggregate`: without group fields there is always one. -/
def groups (groupBy : List String) (rows : List Row) : List Bucket :=
  let buckets := bucketsOf groupBy rows
  if buckets.entries.isEmpty ∧ groupBy = [] then [([], [])] else buckets.entries.map Prod.snd

inductive AggregateFunction where
  | countAll
  | count
  | countDistinct
  /-- `sum`, `average`, `min` or `max`. -/
  | numeric (name : String)

structure Aggregate where
  name : String
  function : AggregateFunction
  field : String

/-- The values of a field that are not null. -/
def fieldValues (field : String) (members : List Row) : List Cell :=
  (members.map fun m => cellOf m field).filter fun v => v ≠ .null

variable {ε : Type} (numeric : String → List Cell → Except ε Cell)

def aggregateValue (a : Aggregate) (members : List Row) : Except ε Cell :=
  let vals := fieldValues a.field members
  match a.function with
  | .countAll => .ok (.int members.length)
  | .count => .ok (.int vals.length)
  | .countDistinct => .ok (.int (vals.map (Cell.repr isPrintable)).dedup.length)
  | .numeric name => numeric name vals

/-- `dtcs:aggregate`. -/
def aggregate (groupBy : List String) (aggs : List Aggregate) (rows : List Row) :
    Except ε (List Row) :=
  (groups groupBy rows).mapM fun bucket =>
    aggs.foldlM (fun item a => do
      let value ← aggregateValue isPrintable numeric a bucket.2
      return item.set a.name value) ((Dict.empty : Row).setAll (groupBy.zip bucket.1))

end Operators

/-! ## One notion of key -/

/-- The key fields of two rows are written alike; without key fields, all their fields. -/
def Alike (isPrintable : Char → Bool) (keys : List String) (row row' : Row) : Prop :=
  spelled isPrintable keys row = spelled isPrintable keys row'

/-- The key fields of two rows are equal as keys of a dictionary. -/
def SameKey (keys : List String) (row row' : Row) : Prop :=
  ∀ k ∈ keys, (cellOf row k).key = (cellOf row' k).key

/-- `distinct` keeps the first row of every group, and nothing else. -/
def OneRowPerGroup (isPrintable : Char → Bool) (keys : List String) (rows : List Row) : Prop :=
  (groups keys rows).map (fun bucket => bucket.2.head?) =
    (distinct isPrintable keys rows).map some

/-- The groups by the field whose key is not null. -/
def presentGroups (field : String) (rows : List Row) : List Bucket :=
  (groups [field] rows).filter fun bucket => bucket.1 ≠ [.null]

/-- `count_distinct` of a field is the number of its groups that are not null. -/
def CountsGroups {ε : Type} (isPrintable : Char → Bool)
    (numeric : String → List Cell → Except ε Cell) (field : String) (rows : List Row) : Prop :=
  ∀ name, aggregate isPrintable numeric [] [⟨name, .countDistinct, field⟩] rows =
    .ok [(Dict.empty : Row).set name (.int (presentGroups field rows).length)]

/-- A row repeats the key of an earlier one exactly if it repeats the writing of one; and
without key fields there is a row. -/
structure RepeatsAgree (isPrintable : Char → Bool) (keys : List String) (rows : List Row) :
    Prop where
  some_row : keys = [] → rows ≠ []
  same : ∀ before row after, rows = before ++ row :: after →
    ((∃ earlier ∈ before, Alike isPrintable keys earlier row) ↔
      ∃ earlier ∈ before, SameKey keys earlier row)

/-- As many cells equal an earlier one without being written like one as are written like
an earlier one without being equal to one. -/
def RepeatsBalance (isPrintable : Char → Bool) (field : String) (rows : List Row) : Prop :=
  FirstOccurrence.onlyNew (Cell.repr isPrintable) Cell.key [] (fieldValues field rows) =
    FirstOccurrence.onlyNew Cell.key (Cell.repr isPrintable) [] (fieldValues field rows)

section Buckets

variable {isPrintable : Char → Bool} {keys : List String} {rows : List Row} {row : Row}
  {field : String} {buckets : Dict (List CellKey) Bucket}

theorem sameKey_iff {row' : Row} : SameKey keys row row' ↔ groupKey keys row = groupKey keys row' :=
  List.map_inj_left.symm

theorem alike_iff {row' : Row} : Alike isPrintable keys row row' ↔
    distinctKey isPrintable keys row = distinctKey isPrintable keys row' :=
  ⟨fun h => congrArg (Repr.pairs isPrintable) h, Repr.pairs_inj⟩

/-- What the buckets of some rows hold, in the order in which they were made. -/
structure Bucketed (keys : List String) (rows : List Row)
    (buckets : Dict (List CellKey) Bucket) : Prop where
  entries : buckets.entries.map (fun e => (e.1, e.2.2.head?)) =
    (FirstOccurrence.firsts (groupKey keys) [] rows).map fun row => (groupKey keys row, some row)
  written : ∀ e ∈ buckets.entries, e.2.1.map Cell.key = e.1

/-- A key that is there keeps its place. -/
theorem entries_set_of_present {κ ν : Type} [DecidableEq κ] {d : Dict κ ν} {k : κ} {v old : ν}
    (h : d.get? k = some old) :
    (d.set k v).entries = d.entries.map fun e => if e.1 = k then (k, v) else e := by
  have hput : ∀ l : List (κ × ν), (l.map Prod.fst).Nodup → Dict.assoc k l = some old →
      Dict.put k v l = l.map fun e => if e.1 = k then (k, v) else e := by
    intro l
    induction l with
    | nil =>
        intro _ hnone
        cases hnone
    | cons e rest ih =>
        intro hnodup hsome
        obtain ⟨hnew, hnodup⟩ := List.nodup_cons.mp hnodup
        unfold Dict.assoc at hsome
        unfold Dict.put
        rw [List.map_cons]
        by_cases hk : e.1 = k
        · rw [if_pos hk, if_pos hk]
          have hrest : rest.map (fun e => if e.1 = k then (k, v) else e) = rest.map id := by
            refine List.map_congr_left fun other hother => if_neg fun hsame => hnew ?_
            rw [hk, ← hsame]
            exact List.mem_map_of_mem hother
          rw [hrest, List.map_id]
        · rw [if_neg hk] at hsome
          rw [if_neg hk, if_neg hk, ih hnodup hsome]
  exact hput d.entries d.nodup h

theorem bucketsOf_concat : bucketsOf keys (rows ++ [row]) =
    addToBucket keys (bucketsOf keys rows) row := by
  unfold bucketsOf
  rw [List.foldl_append]
  rfl

theorem bucketed_bucketsOf (keys : List String) (rows : List Row) :
    Bucketed keys rows (bucketsOf keys rows) := by
  induction rows using List.reverseRecOn with
  | nil =>
      refine ⟨rfl, fun e he => ?_⟩
      cases he
  | append_singleton rows row ih =>
      have hkeys : (bucketsOf keys rows).entries.map Prod.fst =
          (FirstOccurrence.firsts (groupKey keys) [] rows).map (groupKey keys) := by
        have hfst := congrArg (List.map Prod.fst) ih.entries
        rw [List.map_map, List.map_map] at hfst
        exact hfst
      have hmem : groupKey keys row ∈ (bucketsOf keys rows).entries.map Prod.fst ↔
          groupKey keys row ∈ rows.map (groupKey keys) := by
        rw [hkeys]
        exact (FirstOccurrence.keys_firsts (groupKey keys) rows).2 _
      rw [bucketsOf_concat]
      unfold addToBucket
      rcases hget : (bucketsOf keys rows).get? (groupKey keys row) with - | ⟨cells, members⟩
      · have hnew : groupKey keys row ∉ rows.map (groupKey keys) := by
          rw [← hmem]
          intro hin
          obtain ⟨e, he, hkey⟩ := List.mem_map.mp hin
          have hsome := Dict.mem_entries_iff.mp (show (e.1, e.2) ∈ _ from he)
          rw [hkey, hget] at hsome
          cases hsome
        have hset : ((bucketsOf keys rows).set (groupKey keys row)
            (keys.map (cellOf row), [row])).entries = (bucketsOf keys rows).entries ++
              [(groupKey keys row, (keys.map (cellOf row), [row]))] :=
          Dict.entries_set_of_absent hget
        refine ⟨?_, fun e he => ?_⟩
        · rw [hset, List.map_append, ih.entries, FirstOccurrence.firsts_concat, if_neg (by
            simpa using hnew), List.map_append]
          rfl
        · rw [hset] at he
          rcases List.mem_append.mp he with he | he
          · exact ih.written e he
          · rw [List.mem_singleton.mp he]
            exact List.map_map
      · have hentry := Dict.mem_entries_iff.mpr hget
        have hold : groupKey keys row ∈ rows.map (groupKey keys) :=
          hmem.mp (List.mem_map_of_mem (f := Prod.fst) hentry)
        have hset := entries_set_of_present (v := (cells, members ++ [row])) hget
        have hhead : (members ++ [row]).head? = members.head? := by
          have hin : (groupKey keys row, members.head?) ∈
              (bucketsOf keys rows).entries.map (fun e => (e.1, e.2.2.head?)) :=
            List.mem_map_of_mem (f := fun e => (e.1, e.2.2.head?)) hentry
          rw [ih.entries] at hin
          obtain ⟨first, -, heq⟩ := List.mem_map.mp hin
          have hsome := (Prod.mk.inj heq).2
          rcases members with - | ⟨m, rest⟩
          · cases hsome
          · rfl
        have hbucket : ∀ e ∈ (bucketsOf keys rows).entries, e.1 = groupKey keys row →
            e.2 = (cells, members) := by
          intro e he hkey
          have hsame := Dict.mem_entries_iff.mp (show (e.1, e.2) ∈ _ from he)
          rw [hkey, hget] at hsame
          exact (Option.some.inj hsame).symm
        refine ⟨?_, fun e he => ?_⟩
        · rw [hset, FirstOccurrence.firsts_concat, if_pos (.inr hold), List.append_nil,
            ← ih.entries, List.map_map]
          refine List.map_congr_left fun e he => ?_
          rw [Function.comp_apply]
          by_cases hkey : e.1 = groupKey keys row
          · rw [if_pos hkey, hbucket e he hkey, hkey, hhead]
          · rw [if_neg hkey]
        · rw [hset] at he
          obtain ⟨e', he', rfl⟩ := List.mem_map.mp he
          by_cases hkey : e'.1 = groupKey keys row
          · rw [if_pos hkey]
            have hwritten := ih.written e' he'
            rw [hbucket e' he' hkey, hkey] at hwritten
            exact hwritten
          · rw [if_neg hkey]
            exact ih.written e' he'

theorem groups_of_entries (h : ¬ (rows = [] ∧ keys = [])) :
    groups keys rows = (bucketsOf keys rows).entries.map Prod.snd := by
  refine if_neg fun hnone => h ⟨?_, hnone.2⟩
  have hentries := (bucketed_bucketsOf keys rows).entries
  rw [List.isEmpty_iff.mp hnone.1] at hentries
  have hempty := List.map_eq_nil_iff.mp hentries.symm
  rcases rows with - | ⟨row, rest⟩
  · rfl
  · unfold FirstOccurrence.firsts at hempty
    rw [if_neg List.not_mem_nil] at hempty
    cases hempty

theorem map_head_groups (h : ¬ (rows = [] ∧ keys = [])) :
    (groups keys rows).map (fun bucket => bucket.2.head?) =
      (FirstOccurrence.firsts (groupKey keys) [] rows).map some := by
  have hheads := congrArg (List.map Prod.snd) (bucketed_bucketsOf keys rows).entries
  rw [List.map_map, List.map_map] at hheads
  rw [groups_of_entries h, List.map_map]
  exact hheads

theorem oneRowPerGroup_iff :
    OneRowPerGroup isPrintable keys rows ↔ RepeatsAgree isPrintable keys rows := by
  by_cases hnone : rows = [] ∧ keys = []
  · obtain ⟨rfl, rfl⟩ := hnone
    refine iff_of_false ?_ fun h => h.some_row rfl rfl
    intro h
    cases h
  · have hsame : OneRowPerGroup isPrintable keys rows ↔
        FirstOccurrence.SameRepeats (distinctKey isPrintable keys) (groupKey keys) rows := by
      unfold OneRowPerGroup distinct
      rw [map_head_groups hnone, ← FirstOccurrence.firsts_eq_iff]
      exact (List.map_injective_iff.mpr (Option.some_injective _)).eq_iff.trans eq_comm
    rw [hsame]
    constructor
    · intro h
      refine ⟨fun hkeys hrows => hnone ⟨hrows, hkeys⟩, fun before row after hsplit => ?_⟩
      simp only [alike_iff, sameKey_iff]
      exact h before row after hsplit
    · intro h before row after hsplit
      have hrow := h.same before row after hsplit
      simp only [alike_iff, sameKey_iff] at hrow
      exact hrow

/-- Without group fields there is one group, also of no rows. -/
theorem groups_nil : groups [] rows = [([], rows)] := by
  by_cases hrows : rows = []
  · rw [hrows]
    rfl
  · have hentries : (bucketsOf [] rows).entries = [([], ([], rows))] := by
      induction rows using List.reverseRecOn with
      | nil => exact absurd rfl hrows
      | append_singleton rows row ih =>
          rw [bucketsOf_concat]
          by_cases hfirst : rows = []
          · rw [hfirst]
            rfl
          · have hget : (bucketsOf [] rows).get? [] = some ([], rows) := by
              rw [← Dict.mem_entries_iff, ih hfirst]
              exact List.mem_singleton_self _
            have hadd : addToBucket [] (bucketsOf [] rows) row =
                (bucketsOf [] rows).set [] ([], rows ++ [row]) := by
              unfold addToBucket groupKey
              rw [List.map_nil, hget]
            rw [hadd, entries_set_of_present hget, ih hfirst]
            rfl
    rw [groups_of_entries fun h => hrows h.1, hentries]
    rfl

theorem aggregate_countDistinct {ε : Type} (numeric : String → List Cell → Except ε Cell)
    (name : String) : aggregate isPrintable numeric [] [⟨name, .countDistinct, field⟩] rows =
      .ok [(Dict.empty : Row).set name
        (.int ((fieldValues field rows).map (Cell.repr isPrintable)).dedup.length)] := by
  unfold aggregate
  rw [groups_nil]
  rfl

theorem key_eq_null {cell : Cell} : cell.key = .null ↔ cell = .null := by
  cases cell <;> simp [Cell.key]

theorem length_presentGroups : (presentGroups field rows).length =
    ((fieldValues field rows).map Cell.key).dedup.length := by
  have hbuckets := bucketed_bucketsOf [field] rows
  have hkeys : (bucketsOf [field] rows).entries.map Prod.fst =
      (FirstOccurrence.firsts (groupKey [field]) [] rows).map (groupKey [field]) := by
    have hfst := congrArg (List.map Prod.fst) hbuckets.entries
    rw [List.map_map, List.map_map] at hfst
    exact hfst
  have hlength : (presentGroups field rows).length =
      (((bucketsOf [field] rows).entries.map Prod.fst).filter fun k => k ≠ [.null]).length := by
    have hfields : ¬ (rows = [] ∧ [field] = []) := fun h => List.cons_ne_nil _ _ h.2
    unfold presentGroups
    rw [groups_of_entries hfields, List.filter_map, List.filter_map, List.length_map,
      List.length_map]
    refine congrArg List.length (List.filter_congr fun e he => ?_)
    have hwritten := hbuckets.written e he
    show decide (e.2.1 ≠ [.null]) = decide (e.1 ≠ [.null])
    rw [← hwritten]
    refine decide_eq_decide.mpr (not_congr ?_)
    constructor
    · intro h
      rw [h]
      rfl
    · intro h
      obtain ⟨cell, hcell, hnull⟩ := List.map_eq_singleton_iff.mp h
      rw [hcell, key_eq_null.mp hnull]
  have hperm : (((bucketsOf [field] rows).entries.map Prod.fst).filter
      fun k => k ≠ [.null]).Perm (((fieldValues field rows).map Cell.key).dedup.map
        fun k => [k]) := by
    have hsingle : Function.Injective fun k : CellKey => [k] :=
      fun _ _ h => List.singleton_inj.mp h
    refine (List.perm_ext_iff_of_nodup ((bucketsOf [field] rows).nodup.filter _)
      ((List.nodup_dedup _).map hsingle)).mpr fun k => ?_
    rw [List.mem_filter, hkeys, (FirstOccurrence.keys_firsts (groupKey [field]) rows).2,
      List.mem_map, List.mem_map, decide_eq_true_eq]
    constructor
    · rintro ⟨⟨row, hrow, rfl⟩, hnull⟩
      refine ⟨(cellOf row field).key, List.mem_dedup.mpr (List.mem_map_of_mem ?_), rfl⟩
      refine List.mem_filter.mpr ⟨List.mem_map_of_mem hrow, decide_eq_true fun h => hnull ?_⟩
      show [(cellOf row field).key] = _
      rw [h]
      rfl
    · rintro ⟨key, hkey, rfl⟩
      obtain ⟨cell, hcell, rfl⟩ := List.mem_map.mp (List.mem_dedup.mp hkey)
      obtain ⟨hcell, hnull⟩ := List.mem_filter.mp hcell
      obtain ⟨row, hrow, rfl⟩ := List.mem_map.mp hcell
      refine ⟨⟨row, hrow, rfl⟩, fun h => of_decide_eq_true hnull ?_⟩
      exact key_eq_null.mp (List.singleton_inj.mp h)
  rw [hlength, hperm.length_eq, List.length_map]

theorem countsGroups_iff {ε : Type} (numeric : String → List Cell → Except ε Cell) :
    CountsGroups isPrintable numeric field rows ↔ RepeatsBalance isPrintable field rows := by
  have hlengths := FirstOccurrence.length_firsts_add (f := Cell.repr isPrintable) (g := Cell.key)
    (fieldValues field rows) []
  rw [List.map_nil, List.map_nil, FirstOccurrence.length_firsts, FirstOccurrence.length_firsts]
    at hlengths
  unfold CountsGroups RepeatsBalance
  simp only [aggregate_countDistinct, length_presentGroups]
  constructor
  · intro h
    have hitem := List.singleton_inj.mp (Except.ok.inj (h "n"))
    have hcell := congrArg (fun item : Row => item.get? "n") hitem
    simp only [Dict.get?_set, if_true] at hcell
    have hcount := Cell.int.inj (Option.some.inj hcell)
    omega
  · intro h name
    have hcount : ((fieldValues field rows).map (Cell.repr isPrintable)).dedup.length =
        ((fieldValues field rows).map Cell.key).dedup.length := by omega
    rw [hcount]

/-- `distinct`, `count_distinct` and the groups of `aggregate` have one notion of key on the
rows exactly if the two notions see the same repetitions there. -/
theorem keys_agree_iff {ε : Type} (isPrintable : Char → Bool)
    (numeric : String → List Cell → Except ε Cell) (keys : List String) (field : String)
    (rows : List Row) :
    OneRowPerGroup isPrintable keys rows ∧ CountsGroups isPrintable numeric field rows ↔
      RepeatsAgree isPrintable keys rows ∧ RepeatsBalance isPrintable field rows := by
  rw [oneRowPerGroup_iff, countsGroups_iff]

end Buckets

section Sample

/-- A row with one field. -/
def keyed (cell : Cell) : Row := Dict.empty.set "k" cell

/-- One and true are written differently, and are one key. -/
theorem one_and_true_disagree :
    ¬ OneRowPerGroup (fun _ => true) ["k"] [keyed (.int 1), keyed (.bool true)] ∧
    ¬ CountsGroups (fun _ => true) (fun _ _ => (.error "unsupported" : Except String Cell)) "k"
        [keyed (.int 1), keyed (.bool true)] := by
  refine ⟨fun h => ?_, fun h => ?_⟩
  · have hlength := congrArg List.length h
    rw [List.length_map, List.length_map] at hlength
    exact absurd hlength (by decide)
  · have hitem := (aggregate_countDistinct _ "n").symm.trans (h "n")
    have hcell := congrArg (fun item : Row => item.get? "n")
      (List.singleton_inj.mp (Except.ok.inj hitem))
    simp only [Dict.get?_set, if_true] at hcell
    have hcount := Cell.int.inj (Option.some.inj hcell)
    exact absurd hcount (by decide)

end Sample

end Etlantic.Transform
