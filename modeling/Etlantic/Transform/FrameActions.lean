import Etlantic.Base.Checked
import Etlantic.Base.Dict
import Etlantic.Base.FirstOccurrence
import Etlantic.Base.Repr
import Mathlib.Data.Finset.Image
import Mathlib.Data.Finset.Lattice.Basic
import Mathlib.Data.List.ReduceOption

/-!
# Frame actions on rows

The actions of one relation, as the local engine applies them to rows that are
dictionaries.  Which fields a row has afterwards does not depend on its values: it is read
off the actions alone.
-/

namespace Etlantic.Transform.Frame

open Checked

/-! ## Actions -/

/-- An item of a projection: a name, or a mapping with a name and an expression. -/
inductive ProjectItem where
  | field (name : String)
  | computed (name : String) (expression : Json)

def ProjectItem.name : ProjectItem → String
  | .field name => name
  | .computed name _ => name

/-- A key of `groupBy`: a name, or the mapping of a column. -/
inductive GroupKey where
  | field (name : String)
  | computed (key : List (String × Json))

/-- An entry of `agg`, with the callee and the arguments of its expression. -/
structure Aggregation where
  name : Option String
  callee : Option String
  args : List Json

structure SortKey where
  expression : Json
  descending : Bool
  nullsLast : Bool

inductive FrameAction where
  | filter (predicate : Json)
  | project (fields : List ProjectItem)
  | withFields (assignments : List (String × Json))
  /-- `dtcs:drop_fields`, or `dtcs:drop` for short. -/
  | dropFields (short : Bool) (fields : List String)
  /-- `dtcs:rename_fields`, or `dtcs:rename` for short. -/
  | renameFields (short : Bool) (mapping : Dict String String)
  | limit (count : Int)
  | distinct (keys : List String)
  | deduplicate (keys : List String)
  | sort (keys : List SortKey)
  | aggregate (groupBy : List GroupKey) (aggregates : List Aggregation)
  /-- An action outside the portable baseline. -/
  | other (action : String)

/-! ## Rows -/

section Rows

variable {V : Type}

/-- The fields of a row. -/
def fieldsOf (row : Dict String V) : Finset String := (row.entries.map Prod.fst).toFinset

theorem mem_fieldsOf {row : Dict String V} {k : String} :
    k ∈ fieldsOf row ↔ ∃ v, row.get? k = some v := by
  unfold fieldsOf
  rw [List.mem_toFinset, List.mem_map]
  constructor
  · rintro ⟨e, he, rfl⟩
    exact ⟨e.2, Dict.mem_entries_iff.mp he⟩
  · rintro ⟨v, hv⟩
    exact ⟨(k, v), Dict.mem_entries_iff.mpr hv, rfl⟩

@[simp] theorem fieldsOf_empty : fieldsOf (Dict.empty : Dict String V) = ∅ := rfl

@[simp] theorem fieldsOf_set (row : Dict String V) (k : String) (v : V) :
    fieldsOf (row.set k v) = insert k (fieldsOf row) := by
  ext k'
  rw [Finset.mem_insert, mem_fieldsOf, mem_fieldsOf]
  constructor
  · rintro ⟨w, hw⟩
    rcases Dict.get?_set_eq_some.mp hw with ⟨rfl, -⟩ | ⟨-, hold⟩
    · exact .inl rfl
    · exact .inr ⟨w, hold⟩
  · intro h
    by_cases hk : k = k'
    · exact ⟨v, hk ▸ Dict.get?_set_self row k v⟩
    · rcases h with heq | ⟨w, hw⟩
      · exact (hk heq.symm).elim
      · exact ⟨w, (Dict.get?_set_ne row v hk).trans hw⟩

theorem fieldsOf_setAll : ∀ (l : List (String × V)) (row : Dict String V),
    fieldsOf (row.setAll l) = fieldsOf row ∪ (l.map Prod.fst).toFinset
  | [], row => (Finset.union_empty _).symm
  | e :: l, row => by
      show fieldsOf ((row.set e.1 e.2).setAll l) = _
      rw [fieldsOf_setAll l, fieldsOf_set, List.map_cons, List.toFinset_cons, Finset.insert_union,
        Finset.union_insert]

theorem fieldsOf_restrict (p : String → Bool) (row : Dict String V) :
    fieldsOf (row.restrict p) = (fieldsOf row).filter fun k => p k = true := by
  ext k
  unfold fieldsOf Dict.restrict
  simp only [List.mem_toFinset, List.mem_map, List.mem_filter, Finset.mem_filter]
  constructor
  · rintro ⟨e, ⟨he, hp⟩, rfl⟩
    exact ⟨⟨e, he, rfl⟩, hp⟩
  · rintro ⟨⟨e, he, rfl⟩, hp⟩
    exact ⟨e, ⟨he, hp⟩, rfl⟩

end Rows

/-! ## The local engine -/

/-- What the engine uses of expressions, under the parameters of the run, and of values. -/
structure Engine (V K ε : Type) where
  null : V
  isNull : V → Bool
  /-- `_eval(node, row, params)`. -/
  eval : Json → Dict String V → Except ε V
  /-- `value is True`. -/
  isTrue : V → Bool
  isNaN : V → Bool
  /-- How two values that are not null are ordered, if they are. -/
  order : V → V → Except ε Ordering
  repr : V → String
  /-- A value as a part of a key of a dictionary, if it is hashable. -/
  hash : V → Except ε K
  /-- The value of an aggregation over the rows of a group. -/
  summary : Aggregation → List (Dict String V) → Except ε V
  /-- `str` of a mapping. -/
  text : List (String × Json) → String
  isPrintable : Char → Bool
  /-- `ValueError("local sort key values cannot contain NaN")`. -/
  nanKey : ε
  /-- `ValueError(f"unsupported action: {action}")`. -/
  unsupported : String → ε

/-- `fn.split(":")[-1]`. -/
def lastPart (callee : String) : String :=
  String.ofList (callee.toList.reverse.takeWhile (· ≠ ':')).reverse

/-- A text that counts as true. -/
def nonempty : Option String → Option String
  | some text => if text = "" then none else some text
  | none => none

section Engine

variable {V K ε : Type} [DecidableEq K] (E : Engine V K ε)

/-- `row.get(name)`. -/
def cell (row : Dict String V) (name : String) : V := (row.get? name).getD E.null

def projectRow (fields : List ProjectItem) (row : Dict String V) : Except ε (Dict String V) :=
  fields.foldlM (fun projected item =>
    match item with
    | .field name => .ok (projected.set name (cell E row name))
    | .computed name expression =>
        (E.eval expression row).map fun value => projected.set name value) Dict.empty

def assignRow (assignments : List (String × Json)) (row : Dict String V) :
    Except ε (Dict String V) := do
  let values ← assignments.mapM fun a => (E.eval a.2 row).map fun value => (a.1, value)
  return row.setAll values

def renameRow (mapping : Dict String String) (row : Dict String V) : Dict String V :=
  Dict.empty.setAll (row.entries.map fun e => ((mapping.get? e.1).getD e.1, e.2))

/-- `rows[:count]`. -/
def takeRows (count : Int) (rows : List (Dict String V)) : List (Dict String V) :=
  rows.take (if 0 ≤ count then count else rows.length + count).toNat

/-- `repr(values)` of a row for `distinct`. -/
def distinctKey (keys : List String) (row : Dict String V) : List Char :=
  Repr.pairs E.isPrintable
    (if keys = [] then
      (row.entries.insertionSort fun a b => a.1 ≤ b.1).map fun e => (e.1, E.repr e.2)
    else keys.map fun k => (k, E.repr (cell E row k)))

/-- `compare` for one key. -/
def compareKey (key : SortKey) (left right : V) : Except ε Ordering :=
  if E.isNull left || E.isNull right then
    .ok (if E.isNull left && E.isNull right then .eq
      else if E.isNull left = key.nullsLast then .gt else .lt)
  else (E.order left right).map fun result => if key.descending then result.swap else result

def compareKeys : List SortKey → List V → List V → Except ε Ordering
  | key :: keys, left :: lefts, right :: rights => do
      match ← compareKey E key left right with
      | .eq => compareKeys keys lefts rights
      | result => return result
  | _, _, _ => .ok .eq

/-- A row is put before the first row that is greater. -/
def insertRow (keys : List SortKey) (row : Dict String V × List V) :
    List (Dict String V × List V) → Except ε (List (Dict String V × List V))
  | [] => .ok [row]
  | other :: rest => do
      match ← compareKeys E keys other.2 row.2 with
      | .gt => return row :: other :: rest
      | _ => return other :: (← insertRow keys row rest)

def sortRows (keys : List SortKey) (rows : List (Dict String V)) :
    Except ε (List (Dict String V)) := do
  let values ← rows.mapM fun row => do
    let sortValues ← keys.mapM fun key => E.eval key.expression row
    if sortValues.any E.isNaN then .error E.nanKey else .ok (row, sortValues)
  let sorted ← values.foldlM (fun sorted row => insertRow E keys row sorted) []
  return sorted.map Prod.fst

/-- `str(g)`. -/
def GroupKey.spelling : GroupKey → String
  | .field name => name
  | .computed key => E.text key

/-- `a.get("name") or fn.split(":")[-1]`. -/
def Aggregation.outputName (a : Aggregation) : String :=
  (nonempty a.name).getD (lastPart ((nonempty a.callee).getD "dtcs:count_all"))

/-- A bucket holds the cells that it was made for, and its rows. -/
def addToBucket (groups : List String) (buckets : Dict (List K) (List V × List (Dict String V)))
    (row : Dict String V) : Except ε (Dict (List K) (List V × List (Dict String V))) := do
  let cells := groups.map (cell E row)
  let key ← cells.mapM E.hash
  match buckets.get? key with
  | none => return buckets.set key (cells, [row])
  | some (first, members) => return buckets.set key (first, members ++ [row])

/-- The row of a bucket. -/
def aggregateRow (groups : List String) (aggregates : List Aggregation)
    (bucket : List V × List (Dict String V)) : Except ε (Dict String V) :=
  aggregates.foldlM (fun item a =>
    (E.summary a bucket.2).map fun value => item.set a.outputName value)
    (Dict.empty.setAll (groups.zip bucket.1))

def aggregateRows (groups : List String) (aggregates : List Aggregation)
    (rows : List (Dict String V)) : Except ε (List (Dict String V)) := do
  let buckets ← rows.foldlM (addToBucket E groups) Dict.empty
  let members := buckets.entries.map Prod.snd
  (if members.isEmpty ∧ groups = [] then [([], [])] else members).mapM
    (aggregateRow E groups aggregates)

/-- `_apply`. -/
def apply (rows : List (Dict String V)) : FrameAction → Except ε (List (Dict String V))
  | .filter predicate => do
      let kept ← rows.mapM fun row => (E.eval predicate row).map fun value =>
        if E.isTrue value then some row else none
      return kept.reduceOption
  | .project fields => rows.mapM (projectRow E fields)
  | .withFields assignments => rows.mapM (assignRow E assignments)
  | .dropFields _ fields => .ok (rows.map (Dict.restrict fun k => k ∉ fields))
  | .renameFields _ mapping => .ok (rows.map (renameRow mapping))
  | .limit count => .ok (takeRows count rows)
  | .distinct keys => .ok (FirstOccurrence.firsts (distinctKey E keys) [] rows)
  | .deduplicate keys => .ok (FirstOccurrence.firsts (distinctKey E keys) [] rows)
  | .sort keys => sortRows E keys rows
  | .aggregate groupBy aggregates =>
      aggregateRows E (groupBy.map (GroupKey.spelling E)) aggregates rows
  | .other action => .error (E.unsupported action)

/-- The rows after all actions. -/
def run (actions : List FrameAction) (rows : List (Dict String V)) :
    Except ε (List (Dict String V)) := actions.foldlM (apply E) rows

end Engine

/-! ## Names -/

/-- How an action is read for the names of its fields. -/
structure Reading where
  /-- The short names of actions are understood. -/
  short : Bool
  groupName : GroupKey → Option String
  aggregateName : Aggregation → Option String

/-- The names of the fields after an action. -/
def FrameAction.namesAfter (R : Reading) (names : Finset String) : FrameAction → Finset String
  | .project fields => (fields.map ProjectItem.name).toFinset
  | .withFields assignments => names ∪ (assignments.map Prod.fst).toFinset
  | .dropFields short fields =>
      if short ∧ ¬R.short then names else names.filter (· ∉ fields)
  | .renameFields short mapping =>
      if short ∧ ¬R.short then names else names.image fun k => (mapping.get? k).getD k
  | .aggregate groupBy aggregates =>
      (groupBy.filterMap R.groupName).toFinset ∪ (aggregates.filterMap R.aggregateName).toFinset
  | _ => names

def namesAfter (R : Reading) (actions : List FrameAction) (names : Finset String) :
    Finset String := actions.foldl (FrameAction.namesAfter R) names

section Engine

variable {V K ε : Type} {E : Engine V K ε} {rows out : List (Dict String V)}
  {row projected : Dict String V} {names : Finset String}

variable (E) in
/-- The engine takes the text of a computed group key for its name. -/
def spelled : Reading := ⟨true, fun g => some (g.spelling E), fun a => some a.outputName⟩

/-! ## Every row has these fields -/

theorem fieldsOf_projectRow {fields : List ProjectItem} (h : projectRow E fields row = .ok projected) :
    fieldsOf projected = (fields.map ProjectItem.name).toFinset := by
  unfold projectRow at h
  induction fields using List.reverseRecOn generalizing projected with
  | nil =>
      obtain rfl := Except.ok.inj h
      rfl
  | append_singleton fields item ih =>
      obtain ⟨before, hbefore, hlast⟩ := foldlM_concat_ok h
      have hset : ∃ v, projected = before.set item.name v := by
        cases item with
        | field name => exact ⟨_, (Except.ok.inj hlast).symm⟩
        | computed name expression =>
            obtain ⟨v, -, hv⟩ := map_eq_ok hlast
            exact ⟨v, hv.symm⟩
      obtain ⟨v, rfl⟩ := hset
      rw [fieldsOf_set, ih hbefore, List.map_append, List.toFinset_append, Finset.union_comm]
      rfl

theorem names_of_assigned {assignments : List (String × Json)} {values : List (String × V)}
    (h : (assignments.mapM fun a => (E.eval a.2 row).map fun value => (a.1, value)) =
      .ok values) : values.map Prod.fst = assignments.map Prod.fst := by
  have hrel := forall₂_of_mapM h
  clear h
  induction hrel with
  | nil => rfl
  | cons hfirst _ ih =>
      obtain ⟨v, -, rfl⟩ := map_eq_ok hfirst
      rw [List.map_cons, List.map_cons, ih]

theorem fieldsOf_assignRow {assignments : List (String × Json)}
    (h : assignRow E assignments row = .ok projected) :
    fieldsOf projected = fieldsOf row ∪ (assignments.map Prod.fst).toFinset := by
  obtain ⟨values, hvalues, h⟩ := bind_eq_ok.mp h
  obtain rfl := Except.ok.inj h
  rw [fieldsOf_setAll, names_of_assigned hvalues]

theorem fieldsOf_renameRow (mapping : Dict String String) :
    fieldsOf (renameRow mapping row) =
      (fieldsOf row).image fun k => (mapping.get? k).getD k := by
  unfold renameRow
  rw [fieldsOf_setAll, fieldsOf_empty, Finset.empty_union, List.map_map]
  ext k
  unfold fieldsOf
  simp only [List.mem_toFinset, List.mem_map, Finset.mem_image, Function.comp]
  constructor
  · rintro ⟨e, he, rfl⟩
    exact ⟨e.1, ⟨e, he, rfl⟩, rfl⟩
  · rintro ⟨_, ⟨e, he, rfl⟩, rfl⟩
    exact ⟨e, he, rfl⟩

theorem mem_insertRow {keys : List SortKey} {row other : Dict String V × List V} :
    ∀ {sorted result : List (Dict String V × List V)}, insertRow E keys row sorted = .ok result →
      other ∈ result → other = row ∨ other ∈ sorted
  | [], result, h, hmem => by
      obtain rfl := Except.ok.inj h
      exact .inl (List.mem_singleton.mp hmem)
  | first :: rest, result, h, hmem => by
      unfold insertRow at h
      obtain ⟨ordering, -, h⟩ := bind_eq_ok.mp h
      cases ordering with
      | gt =>
          obtain rfl := Except.ok.inj h
          exact List.mem_cons.mp hmem
      | lt =>
          obtain ⟨inserted, hinserted, h⟩ := bind_eq_ok.mp h
          obtain rfl := Except.ok.inj h
          rcases List.mem_cons.mp hmem with rfl | hmem
          · exact .inr List.mem_cons_self
          · exact (mem_insertRow hinserted hmem).imp_right (List.mem_cons_of_mem _)
      | eq =>
          obtain ⟨inserted, hinserted, h⟩ := bind_eq_ok.mp h
          obtain rfl := Except.ok.inj h
          rcases List.mem_cons.mp hmem with rfl | hmem
          · exact .inr List.mem_cons_self
          · exact (mem_insertRow hinserted hmem).imp_right (List.mem_cons_of_mem _)

theorem mem_of_mem_inserted {keys : List SortKey} {entry : Dict String V × List V}
    {values sorted : List (Dict String V × List V)}
    (h : values.foldlM (fun sorted row => insertRow E keys row sorted) [] = .ok sorted)
    (hmem : entry ∈ sorted) : entry ∈ values := by
  induction values using List.reverseRecOn generalizing sorted with
  | nil =>
      obtain rfl := Except.ok.inj h
      cases hmem
  | append_singleton values value ih =>
      obtain ⟨before, hbefore, hlast⟩ := foldlM_concat_ok h
      rcases mem_insertRow hlast hmem with rfl | hold
      · exact List.mem_append_right _ List.mem_cons_self
      · exact List.mem_append_left _ (ih hbefore hold)

theorem mem_of_mem_sortRows {keys : List SortKey} (h : sortRows E keys rows = .ok out)
    (hmem : row ∈ out) : row ∈ rows := by
  obtain ⟨values, hvalues, h⟩ := bind_eq_ok.mp h
  obtain ⟨sorted, hsorted, h⟩ := bind_eq_ok.mp h
  obtain rfl := Except.ok.inj h
  obtain ⟨entry, hentry, rfl⟩ := List.mem_map.mp hmem
  obtain ⟨source, hsource, hvalue⟩ := mem_of_mapM hvalues entry (mem_of_mem_inserted hsorted hentry)
  obtain ⟨sortValues, -, hvalue⟩ := bind_eq_ok.mp hvalue
  split at hvalue
  · cases hvalue
  · obtain rfl := Except.ok.inj hvalue
    exact hsource

theorem fieldsOf_aggregateRow {groups : List String} {aggregates : List Aggregation}
    {bucket : List V × List (Dict String V)} (hcells : bucket.1.length = groups.length)
    (h : aggregateRow E groups aggregates bucket = .ok projected) :
    fieldsOf projected = groups.toFinset ∪ (aggregates.map Aggregation.outputName).toFinset := by
  unfold aggregateRow at h
  induction aggregates using List.reverseRecOn generalizing projected with
  | nil =>
      obtain rfl := Except.ok.inj h
      rw [fieldsOf_setAll, fieldsOf_empty, Finset.empty_union, List.map_fst_zip hcells.ge]
      exact (Finset.union_empty _).symm
  | append_singleton aggregates a ih =>
      obtain ⟨before, hbefore, hlast⟩ := foldlM_concat_ok h
      obtain ⟨v, -, rfl⟩ := map_eq_ok hlast
      rw [fieldsOf_set, ih hbefore, List.map_append, List.toFinset_append, Finset.insert_eq,
        Finset.union_comm, Finset.union_assoc]
      rfl

variable [DecidableEq K]

/-- The buckets are made for as many cells as there are group keys. -/
theorem length_of_mem_buckets {groups : List String}
    {buckets : Dict (List K) (List V × List (Dict String V))}
    (h : rows.foldlM (addToBucket E groups) Dict.empty = .ok buckets) :
    buckets.All fun _ bucket => bucket.1.length = groups.length := by
  induction rows using List.reverseRecOn generalizing buckets with
  | nil =>
      obtain rfl := Except.ok.inj h
      exact Dict.all_empty _
  | append_singleton rows row ih =>
      obtain ⟨before, hbefore, hlast⟩ := foldlM_concat_ok h
      have hall := ih hbefore
      obtain ⟨key, -, hlast⟩ := bind_eq_ok.mp hlast
      cases hget : before.get? key with
      | none =>
          rw [hget] at hlast
          obtain rfl := Except.ok.inj hlast
          exact hall.set (List.length_map _)
      | some bucket =>
          rw [hget] at hlast
          obtain rfl := Except.ok.inj hlast
          exact hall.set (hall key bucket hget)

theorem fieldsOf_aggregateRows {groups : List String} {aggregates : List Aggregation}
    (h : aggregateRows E groups aggregates rows = .ok out) (hmem : row ∈ out) :
    fieldsOf row = groups.toFinset ∪ (aggregates.map Aggregation.outputName).toFinset := by
  obtain ⟨buckets, hbuckets, h⟩ := bind_eq_ok.mp h
  obtain ⟨bucket, hbucket, hrow⟩ := mem_of_mapM h row hmem
  refine fieldsOf_aggregateRow ?_ hrow
  split at hbucket
  · rename_i hempty
    rw [List.mem_singleton.mp hbucket, hempty.2]
    rfl
  · obtain ⟨e, he, rfl⟩ := List.mem_map.mp hbucket
    exact length_of_mem_buckets hbuckets e.1 e.2 (Dict.mem_entries_iff.mp he)

/-- One action takes rows with the fields `names` to rows with the fields after it. -/
theorem fieldsOf_apply {action : FrameAction} (hrows : ∀ row ∈ rows, fieldsOf row = names)
    (h : apply E rows action = .ok out) :
    ∀ row ∈ out, fieldsOf row = action.namesAfter (spelled E) names := by
  intro row hmem
  cases action with
  | filter predicate =>
      obtain ⟨kept, hkept, h⟩ := bind_eq_ok.mp h
      obtain rfl := Except.ok.inj h
      obtain ⟨source, hsource, hrow⟩ := mem_of_mapM hkept _ (List.reduceOption_mem_iff.mp hmem)
      obtain ⟨v, -, hv⟩ := map_eq_ok hrow
      split at hv
      · obtain rfl := Option.some.inj hv
        exact hrows _ hsource
      · cases hv
  | project fields =>
      obtain ⟨source, -, hrow⟩ := mem_of_mapM h row hmem
      exact fieldsOf_projectRow hrow
  | withFields assignments =>
      obtain ⟨source, hsource, hrow⟩ := mem_of_mapM h row hmem
      rw [fieldsOf_assignRow hrow, hrows source hsource]
      rfl
  | dropFields short fields =>
      obtain rfl := Except.ok.inj h
      obtain ⟨source, hsource, rfl⟩ := List.mem_map.mp hmem
      rw [fieldsOf_restrict, hrows source hsource]
      simp [FrameAction.namesAfter, spelled]
  | renameFields short mapping =>
      obtain rfl := Except.ok.inj h
      obtain ⟨source, hsource, rfl⟩ := List.mem_map.mp hmem
      rw [fieldsOf_renameRow, hrows source hsource]
      simp [FrameAction.namesAfter, spelled]
  | limit count =>
      obtain rfl := Except.ok.inj h
      exact hrows row (List.mem_of_mem_take hmem)
  | distinct keys =>
      obtain rfl := Except.ok.inj h
      exact hrows row (FirstOccurrence.mem_of_mem_firsts hmem)
  | deduplicate keys =>
      obtain rfl := Except.ok.inj h
      exact hrows row (FirstOccurrence.mem_of_mem_firsts hmem)
  | sort keys => exact hrows row (mem_of_mem_sortRows h hmem)
  | aggregate groupBy aggregates =>
      have hfields := fieldsOf_aggregateRows h hmem
      simpa [FrameAction.namesAfter, spelled] using hfields
  | other action => cases h

/-- All rows that a run returns have the fields that its actions spell. -/
theorem fieldsOf_run {actions : List FrameAction} (hrows : ∀ row ∈ rows, fieldsOf row = names)
    (h : run E actions rows = .ok out) :
    ∀ row ∈ out, fieldsOf row = namesAfter (spelled E) actions names := by
  induction actions generalizing rows names with
  | nil =>
      obtain rfl := Except.ok.inj h
      exact hrows
  | cons action actions ih =>
      obtain ⟨next, hnext, h⟩ := bind_eq_ok.mp h
      exact ih (fieldsOf_apply hrows hnext) h

end Engine

end Etlantic.Transform.Frame
