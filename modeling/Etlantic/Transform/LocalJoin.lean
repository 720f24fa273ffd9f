import Etlantic.Transform.FrameActions
import Mathlib.Data.Finset.Sort
import Mathlib.Data.List.Zip
import Mathlib.Data.Multiset.Bind
import Mathlib.Data.String.Basic

/-!
# The local join

One nested loop serves all types of join.  Its results are related as the joins of tables are:
all of them come from the pairs of rows that match, and from the rows of one side that match
nothing.  Rows are compared without the order of their fields and up to `==`.
-/

namespace Etlantic.Transform.Frame

open Checked

/-! ## The action -/

inductive JoinType where
  | inner
  | left
  | right
  | full
  | semi
  | anti
  | cross
deriving DecidableEq

/-- The names of keys: a text, or a list. -/
inductive KeyNames where
  | one (name : String)
  | many (names : List String)

/-- `a or b`. -/
def keyNamesOr (a b : Option KeyNames) : Option KeyNames :=
  match a with
  | some (.one name) => if name = "" then b else a
  | some (.many names) => if names = [] then b else a
  | none => b

/-- `[keys] if isinstance(keys, str) else list(keys or [])`. -/
def listNames : Option KeyNames → List String
  | some (.one name) => [name]
  | some (.many names) => names
  | none => []

structure JoinParams where
  type : Option String
  leftKey : Option KeyNames
  leftKeys : Option KeyNames
  rightKey : Option KeyNames
  rightKeys : Option KeyNames
  nullSafe : Bool
  collisionPolicy : Option String

def JoinParams.leftNames (p : JoinParams) : List String :=
  listNames (keyNamesOr p.leftKey p.leftKeys)

def JoinParams.rightNames (p : JoinParams) : List String :=
  listNames (keyNamesOr (keyNamesOr p.rightKey p.rightKeys) (keyNamesOr p.leftKey p.leftKeys))

/-- `None`, `!=` and texts. -/
structure JoinHost (V : Type) where
  null : V
  isNull : V → Bool
  isNull_iff : ∀ v, isNull v = true ↔ v = null
  differs : V → V → Bool
  differs_comm : ∀ a b, differs a b = differs b a
  lower : String → String
  /-- `f"{sorted(names)}"`. -/
  sortedText : Finset String → String

/-- How a set of names is iterated. -/
structure Listing where
  list : Finset String → List String
  mem_list : ∀ names name, name ∈ list names ↔ name ∈ names

section Action

variable {V : Type} (host : JoinHost V)

def joinType (type : Option String) : Except String JoinType :=
  match host.lower (type.getD "inner") with
  | "inner" => .ok .inner
  | "left" => .ok .left
  | "right" => .ok .right
  | "full" => .ok .full
  | "outer" => .ok .full
  | "semi" => .ok .semi
  | "anti" => .ok .anti
  | "cross" => .ok .cross
  | how => .error ("unsupported join type: " ++ how)

/-- `zip(left, right, strict=True)`. -/
def zipStrict (left right : List String) : Except String (List (String × String)) :=
  if left.length < right.length then .error "zip() argument 2 is longer than argument 1"
  else if right.length < left.length then .error "zip() argument 2 is shorter than argument 1"
  else .ok (left.zip right)

/-- `row.get(name)`. -/
def valueAt (row : Dict String V) (name : String) : V := (row.get? name).getD host.null

/-- `matches`: the rows agree under every pair of keys. -/
def rowsMatch (how : JoinType) (pairs : List (String × String)) (nullSafe : Bool)
    (left right : Dict String V) : Bool :=
  how = .cross || pairs.all fun pair =>
    let a := valueAt host left pair.1
    let b := valueAt host right pair.2
    if host.isNull a || host.isNull b then nullSafe && host.isNull a && host.isNull b
    else !host.differs a b

/-- `{k for row in rows for k in row}`. -/
def allFields (rows : List (Dict String V)) : Finset String :=
  (rows.flatMap fun row => row.entries.map Prod.fst).toFinset

/-- The fields of both sides, apart from those that both sides use as one key. -/
def collisions (pairs : List (String × String)) (rows right : List (Dict String V)) :
    Finset String :=
  (allFields rows ∩ allFields right).filter fun name => (name, name) ∉ pairs

/-- `{**left_row, **right_row}`. -/
def mergeRows (left right : Dict String V) : Dict String V := left.setAll right.entries

variable (listing : Listing)

/-- `{k: None for k in names}`. -/
def nulls (names : Finset String) : List (String × V) :=
  (listing.list names).map fun name => (name, host.null)

/-- What one left row adds to the result and to the matched right rows. -/
def joinLeftRow (how : JoinType) (pairs : List (String × String)) (nullSafe : Bool)
    (leftFields rightFields : Finset String) (right : List (Dict String V))
    (state : List (Dict String V) × Finset Nat) (left : Dict String V) :
    List (Dict String V) × Finset Nat :=
  let found := right.zipIdx.filter fun e => rowsMatch host how pairs nullSafe left e.1
  if (how = .semi ∧ found ≠ []) ∨ (how = .anti ∧ found = []) then (state.1 ++ [left], state.2)
  else if how ≠ .semi ∧ how ≠ .anti then
    (state.1 ++ found.map (fun e => mergeRows left e.1) ++
        (if (how = .left ∨ how = .full) ∧ found = [] then
          [left.setAll (nulls host listing (rightFields \ leftFields))] else []),
      state.2 ∪ (found.map Prod.snd).toFinset)
  else state

/-- The loops over both sides. -/
def joinRows (how : JoinType) (pairs : List (String × String)) (nullSafe : Bool)
    (rows right : List (Dict String V)) : List (Dict String V) :=
  let leftFields := allFields rows
  let rightFields := allFields right
  let state := rows.foldl
    (joinLeftRow host listing how pairs nullSafe leftFields rightFields right) ([], ∅)
  if how = .right ∨ how = .full then
    state.1 ++ (right.zipIdx.filter fun e => e.2 ∉ state.2).map fun e =>
      mergeRows (Dict.empty.setAll (nulls host listing (leftFields \ rightFields))) e.1
  else state.1

/-- The action `dtcs:join`. -/
def join (p : JoinParams) (rows right : List (Dict String V)) :
    Except String (List (Dict String V)) := do
  let how ← joinType host p.type
  if host.lower (p.collisionPolicy.getD "fail") ≠ "fail" then
    .error "only collisionPolicy=fail is supported"
  else do
    let pairs ← zipStrict p.leftNames p.rightNames
    let colliding := collisions pairs rows right
    if colliding ≠ ∅ ∧ how ≠ .semi ∧ how ≠ .anti then
      .error ("join field collision: " ++ host.sortedText colliding)
    else return joinRows host listing how pairs p.nullSafe rows right

end Action

/-! ## What joins are -/

section Specification

variable {V : Type} (host : JoinHost V)

/-- Two cells are the same value, or equal ones. -/
def SameCell (a b : Option V) : Prop :=
  a = b ∨ ∃ v w, a = some v ∧ b = some w ∧ host.differs v w = false

/-- Two rows are equal, whatever the order of their fields. -/
def SameRow (a b : Dict String V) : Prop := ∀ name, SameCell host (a.get? name) (b.get? name)

/-- The same rows, each as often. -/
def SameRows (a b : List (Dict String V)) : Prop :=
  Multiset.Rel (SameRow host) (a : Multiset (Dict String V)) b

/-- The row with nulls in the fields that it lacks. -/
def Padded (names : Finset String) (row padded : Dict String V) : Prop :=
  ∀ name, padded.get? name =
    if name ∈ fieldsOf row then row.get? name else if name ∈ names then some host.null else none

/-- The rows of a side, which all have the same fields. -/
structure Side (V : Type) where
  rows : List (Dict String V)
  uniform : ∀ row ∈ rows, fieldsOf row = allFields rows

/-- Requests for all types of join under the same keys. -/
structure Requests where
  params : JoinParams
  type : JoinType → Option String
  reads : ∀ how, joinType host (type how) = .ok how
  policy : host.lower (params.collisionPolicy.getD "fail") = "fail"
  arity : params.leftNames.length = params.rightNames.length

variable {host} (R : Requests host)

def Requests.request (how : JoinType) : JoinParams := { R.params with type := R.type how }

/-- The request with the sides exchanged. -/
def Requests.swapped (how : JoinType) : JoinParams where
  type := R.type how
  leftKey := none
  leftKeys := some (.many R.params.rightNames)
  rightKey := none
  rightKeys := some (.many R.params.leftNames)
  nullSafe := R.params.nullSafe
  collisionPolicy := R.params.collisionPolicy

def Requests.pairs : List (String × String) := R.params.leftNames.zip R.params.rightNames

/-- The pair of rows agrees under the keys. -/
def Requests.agree (left right : Dict String V) : Bool :=
  rowsMatch host .inner R.pairs R.params.nullSafe left right

/-- Semi and anti join split the left rows into those with and those without a match. -/
structure Splits (rows right semi anti : List (Dict String V)) : Prop where
  whole : (semi ++ anti).Perm rows
  semi_eq : semi = rows.filter fun left => right.any (R.agree left)
  anti_eq : anti = rows.filter fun left => !right.any (R.agree left)

/-- How the results of the joins of two sides are related; `swapped` is the left join of the
exchanged sides. -/
structure Algebra (rows right : List (Dict String V)) (out : JoinType → List (Dict String V))
    (swapped : List (Dict String V)) : Prop where
  crossJoin : out .cross = (rows.product right).map fun pair => mergeRows pair.1 pair.2
  innerJoin : out .inner =
    ((rows.product right).filter fun pair => R.agree pair.1 pair.2).map fun pair =>
      mergeRows pair.1 pair.2
  leftJoin : ∃ padded, List.Forall₂ (Padded host (allFields right))
      (rows.filter fun left => !right.any (R.agree left)) padded ∧
    SameRows host (out .left) (out .inner ++ padded)
  rightJoin : SameRows host (out .right) swapped
  fullJoin : ∃ padded, List.Forall₂ (Padded host (allFields rows))
      (right.filter fun row => !rows.any fun left => R.agree left row) padded ∧
    SameRows host (out .full) (out .left ++ padded)
  fields : ∀ how, ∀ row ∈ out how, fieldsOf row =
    if how = .semi ∨ how = .anti then allFields rows else allFields rows ∪ allFields right

end Specification

/-! ## Rows -/

section Rows

variable {V : Type} {host : JoinHost V} {listing : Listing} {left right row : Dict String V}
  {names : Finset String}

theorem get?_mergeRows (name : String) :
    (mergeRows left right).get? name = (right.get? name).or (left.get? name) := by
  refine Option.ext fun v => ?_
  unfold mergeRows
  rw [Dict.get?_setAll, Option.or_eq_some_iff]
  have hnone : name ∉ right.entries.map Prod.fst ↔ right.get? name = none := by
    rw [Option.eq_none_iff_forall_ne_some, List.mem_map]
    constructor
    · intro h w hw
      exact h ⟨(name, w), Dict.mem_entries_iff.mpr hw, rfl⟩
    · rintro h ⟨e, he, rfl⟩
      exact h e.2 (Dict.mem_entries_iff.mp he)
  rw [hnone]
  refine or_congr_left ?_
  rw [← Dict.mem_entries_iff]
  constructor
  · rintro ⟨before, after, hsplit, -⟩
    rw [hsplit]
    exact List.mem_append_right _ List.mem_cons_self
  · intro hmem
    obtain ⟨before, after, hsplit⟩ := List.append_of_mem hmem
    have hnodup := right.nodup
    rw [hsplit, List.map_append, List.map_cons] at hnodup
    exact ⟨before, after, hsplit, (List.nodup_cons.mp (List.nodup_append.mp hnodup).2.1).1⟩

theorem get?_setAll_const (v : V) (name : String) : ∀ (l : List String) (row : Dict String V),
    (row.setAll (l.map fun k => (k, v))).get? name =
      if name ∈ l then some v else row.get? name
  | [], row => rfl
  | k :: l, row => by
      have ih := get?_setAll_const v name l (row.set k v)
      show ((row.set k v).setAll (l.map fun k => (k, v))).get? name = _
      rw [ih, Dict.get?_set]
      by_cases hmem : name ∈ l
      · rw [if_pos hmem, if_pos (List.mem_cons_of_mem _ hmem)]
      · by_cases hk : k = name
        · rw [if_neg hmem, if_pos hk, if_pos (hk ▸ List.mem_cons_self)]
        · have habsent : name ∉ k :: l := by
            rw [List.mem_cons, not_or]
            exact ⟨fun h => hk h.symm, hmem⟩
          rw [if_neg hmem, if_neg hk, if_neg habsent]

theorem get?_setAll_nulls (name : String) :
    (row.setAll (nulls host listing names)).get? name =
      if name ∈ names then some host.null else row.get? name := by
  unfold nulls
  rw [get?_setAll_const]
  simp only [listing.mem_list]

theorem mem_fieldsOf_iff {name : String} : name ∈ fieldsOf row ↔ row.get? name ≠ none := by
  rw [mem_fieldsOf, Option.ne_none_iff_exists']

theorem get?_eq_none {name : String} (h : name ∉ fieldsOf row) : row.get? name = none := by
  by_contra hne
  exact h (mem_fieldsOf_iff.mpr hne)

variable (listing) in
/-- The row that a left join gives to a left row without a match. -/
theorem padded_left {others : Finset String} (hrow : fieldsOf row = names) :
    Padded host others row (row.setAll (nulls host listing (others \ names))) := by
  intro name
  rw [get?_setAll_nulls, hrow]
  by_cases hname : name ∈ names
  · rw [if_pos hname, if_neg (by simp [hname])]
  · rw [if_neg hname, get?_eq_none (by rwa [hrow])]
    simp [hname]

variable (listing) in
/-- The row that a right join gives to a right row without a match. -/
theorem padded_right {others : Finset String} (hrow : fieldsOf row = names) :
    Padded host others row
      (mergeRows (Dict.empty.setAll (nulls host listing (others \ names))) row) := by
  intro name
  rw [get?_mergeRows, get?_setAll_nulls, Dict.get?_empty, hrow]
  by_cases hname : name ∈ names
  · have hfield : row.get? name ≠ none := by
      rw [← mem_fieldsOf_iff, hrow]
      exact hname
    obtain ⟨v, hv⟩ := Option.ne_none_iff_exists'.mp hfield
    rw [if_pos hname, hv, Option.some_or]
  · rw [if_neg hname, get?_eq_none (by rwa [hrow]), Option.none_or]
    simp [hname]

theorem fieldsOf_mergeRows : fieldsOf (mergeRows left right) = fieldsOf left ∪ fieldsOf right :=
  fieldsOf_setAll _ _

theorem Padded.fieldsOf_eq {padded : Dict String V} (h : Padded host names row padded) :
    fieldsOf padded = fieldsOf row ∪ names := by
  ext name
  rw [mem_fieldsOf_iff, Finset.mem_union, h name]
  by_cases hrow : name ∈ fieldsOf row
  · rw [if_pos hrow]
    exact ⟨fun _ => .inl hrow, fun _ => mem_fieldsOf_iff.mp hrow⟩
  · rw [if_neg hrow]
    by_cases hname : name ∈ names
    · simp [hname]
    · simp [hname, hrow]

theorem Padded.sameRow {padded padded' : Dict String V} (h : Padded host names row padded)
    (h' : Padded host names row padded') : SameRow host padded padded' := by
  intro name
  rw [h name, h' name]
  exact .inl rfl

theorem SameRow.refl (row : Dict String V) : SameRow host row row := fun _ => .inl rfl

theorem SameRows.of_perm {a b : List (Dict String V)} (h : a.Perm b) : SameRows host a b := by
  unfold SameRows
  rw [Multiset.coe_eq_coe.mpr h]
  exact Multiset.rel_refl_of_refl_on fun row _ => SameRow.refl row

theorem SameRows.append {a b c d : List (Dict String V)} (h : SameRows host a b)
    (h' : SameRows host c d) : SameRows host (a ++ c) (b ++ d) := by
  unfold SameRows at h h' ⊢
  rw [← Multiset.coe_add, ← Multiset.coe_add]
  exact h.add h'

theorem SameRows.of_forall₂ {a b : List (Dict String V)}
    (h : List.Forall₂ (SameRow host) a b) : SameRows host a b := by
  induction h with
  | nil => exact Multiset.Rel.zero
  | cons hfirst _ ih => exact Multiset.Rel.cons hfirst ih

/-! ## Matching -/

variable {pairs : List (String × String)} {nullSafe : Bool}

theorem rowsMatch_of_ne {how : JoinType} (h : how ≠ .cross) :
    rowsMatch host how pairs nullSafe left right =
      rowsMatch host .inner pairs nullSafe left right := by
  unfold rowsMatch
  simp [h]

theorem rowsMatch_swap : rowsMatch host .inner (pairs.map Prod.swap) nullSafe right left =
    rowsMatch host .inner pairs nullSafe left right := by
  unfold rowsMatch
  rw [List.all_map]
  congr 2
  funext pair
  simp only [Function.comp, Prod.fst_swap, Prod.snd_swap]
  rw [host.differs_comm, Bool.or_comm, Bool.and_right_comm]

/-- Under a key of one name, rows that match have the same cell. -/
theorem sameCell_of_match {name : String} (hpair : (name, name) ∈ pairs)
    (hmatch : rowsMatch host .inner pairs nullSafe left right = true)
    (hleft : name ∈ fieldsOf left) (hright : name ∈ fieldsOf right) :
    SameCell host (right.get? name) (left.get? name) := by
  obtain ⟨v, hv⟩ := mem_fieldsOf.mp hleft
  obtain ⟨w, hw⟩ := mem_fieldsOf.mp hright
  have hall : ∀ pair ∈ pairs, _ := List.all_eq_true.mp hmatch
  have hcell := hall (name, name) hpair
  simp only [valueAt, hv, hw, Option.getD_some] at hcell
  rw [hv, hw]
  split at hcell
  · rw [Bool.and_eq_true, Bool.and_eq_true, host.isNull_iff, host.isNull_iff] at hcell
    obtain ⟨⟨-, rfl⟩, rfl⟩ := hcell
    exact .inl rfl
  · refine .inr ⟨w, v, rfl, rfl, ?_⟩
    rw [host.differs_comm]
    simpa using hcell

/-- Two rows that match give the same row in both orders. -/
theorem sameRow_mergeRows {names others : Finset String} (hleft : fieldsOf left = names)
    (hright : fieldsOf right = others) (hfree : ∀ name ∈ names ∩ others, (name, name) ∈ pairs)
    (hmatch : rowsMatch host .inner pairs nullSafe left right = true) :
    SameRow host (mergeRows left right) (mergeRows right left) := by
  intro name
  rw [get?_mergeRows, get?_mergeRows]
  by_cases hl : name ∈ names
  · by_cases hr : name ∈ others
    · have hpair := hfree name (Finset.mem_inter.mpr ⟨hl, hr⟩)
      have hcell := sameCell_of_match hpair hmatch (hleft ▸ hl) (hright ▸ hr)
      obtain ⟨v, hv⟩ := mem_fieldsOf.mp (hleft ▸ hl)
      obtain ⟨w, hw⟩ := mem_fieldsOf.mp (hright ▸ hr)
      rw [hv, hw] at hcell ⊢
      exact hcell
    · have hnone : right.get? name = none := get?_eq_none (by rwa [hright])
      rw [hnone, Option.none_or, Option.or_none]
      exact .inl rfl
  · have hnone : left.get? name = none := get?_eq_none (by rwa [hleft])
    rw [hnone, Option.none_or, Option.or_none]
    exact .inl rfl

end Rows

/-! ## The loops -/

section Lists

variable {α β γ : Type}

theorem flatMap_ite (p : α → Bool) (f : α → γ) : ∀ l : List α,
    (l.flatMap fun a => if p a then [f a] else []) = (l.filter p).map f
  | [] => rfl
  | a :: l => by
      have ih := flatMap_ite p f l
      rw [List.flatMap_cons, ih]
      cases hp : p a <;> simp [hp]

/-- The pairs of two lists, one list after the other. -/
theorem perm_flatMap_swap (p : α → β → Bool) (f : α → β → γ) (ys : List β) : ∀ xs : List α,
    (xs.flatMap fun x => (ys.filter (p x)).map (f x)).Perm
      (ys.flatMap fun y => (xs.filter fun x => p x y).map fun x => f x y)
  | [] => by
      have hnil : (ys.flatMap fun _ : β => ([] : List γ)) = [] := by
        rw [List.flatMap_eq_nil_iff]
        exact fun _ _ => rfl
      exact hnil ▸ .nil
  | x :: xs => by
      have ih := perm_flatMap_swap p f ys xs
      have hsplit : (ys.flatMap fun y => ((x :: xs).filter fun x => p x y).map fun x => f x y) =
          ys.flatMap fun y => (if p x y then [f x y] else []) ++
            (xs.filter fun x => p x y).map fun x => f x y := by
        refine List.flatMap_congr fun y _ => ?_
        cases hp : p x y <;> simp [hp]
      rw [List.flatMap_cons, hsplit]
      have hfirst : (ys.flatMap fun y => if p x y then [f x y] else []) =
          (ys.filter (p x)).map (f x) := flatMap_ite (p x) (f x) ys
      rw [← hfirst]
      exact (ih.append_left _).trans (List.flatMap_append_perm ys _ _)

theorem filter_zipIdx_map (q : α → Bool) (f : α → γ) (l : List α) :
    ((l.zipIdx.filter fun e => q e.1).map fun e => f e.1) = (l.filter q).map f := by
  have hfst : l.zipIdx.map Prod.fst = l := List.zipIdx_map_fst 0 l
  conv_rhs => rw [← hfst]
  rw [List.filter_map, List.map_map]
  rfl

end Lists

section Loops

variable {V : Type} {host : JoinHost V} {listing : Listing} {how : JoinType}
  {pairs : List (String × String)} {nullSafe : Bool} {leftFields rightFields : Finset String}
  {right : List (Dict String V)}

variable (host listing how pairs nullSafe leftFields rightFields right) in
/-- The rows that a left row adds. -/
def addedRows (left : Dict String V) : List (Dict String V) :=
  match how with
  | .semi => if right.any (rowsMatch host .semi pairs nullSafe left) then [left] else []
  | .anti => if !right.any (rowsMatch host .anti pairs nullSafe left) then [left] else []
  | how =>
      (right.filter (rowsMatch host how pairs nullSafe left)).map (mergeRows left) ++
        if (how = .left ∨ how = .full) ∧ !right.any (rowsMatch host how pairs nullSafe left) then
          [left.setAll (nulls host listing (rightFields \ leftFields))] else []

theorem found_ne_nil {left : Dict String V} :
    (right.zipIdx.filter fun e => rowsMatch host how pairs nullSafe left e.1) ≠ [] ↔
      right.any (rowsMatch host how pairs nullSafe left) = true := by
  have hmap := filter_zipIdx_map (rowsMatch host how pairs nullSafe left) id right
  rw [List.map_id] at hmap
  rw [List.any_eq_true, ← not_iff_not, not_not]
  constructor
  · rintro hnil ⟨row, hrow, hmatch⟩
    have hmem : row ∈ right.filter (rowsMatch host how pairs nullSafe left) :=
      List.mem_filter.mpr ⟨hrow, hmatch⟩
    rw [← hmap, hnil] at hmem
    cases hmem
  · intro hnone
    have hnil : right.filter (rowsMatch host how pairs nullSafe left) = [] := by
      rw [List.filter_eq_nil_iff]
      intro row hrow hmatch
      exact hnone ⟨row, hrow, hmatch⟩
    rw [hnil, List.map_eq_nil_iff] at hmap
    exact hmap

/-- A left row adds its rows, and the right rows that it matches unless only left rows count. -/
theorem joinLeftRow_eq (state : List (Dict String V) × Finset Nat) (left : Dict String V) :
    (joinLeftRow host listing how pairs nullSafe leftFields rightFields right state left).1 =
      state.1 ++ addedRows host listing how pairs nullSafe leftFields rightFields right left ∧
    (how ≠ .semi → how ≠ .anti → ∀ i,
      i ∈ (joinLeftRow host listing how pairs nullSafe leftFields rightFields right state
        left).2 ↔ i ∈ state.2 ∨ ∃ row, (row, i) ∈ right.zipIdx ∧
          rowsMatch host how pairs nullSafe left row = true) := by
  have hmerge := filter_zipIdx_map (rowsMatch host how pairs nullSafe left) (mergeRows left) right
  have hindex : ∀ i, i ∈ ((right.zipIdx.filter fun e =>
      rowsMatch host how pairs nullSafe left e.1).map Prod.snd).toFinset ↔
        ∃ row, (row, i) ∈ right.zipIdx ∧ rowsMatch host how pairs nullSafe left row = true := by
    intro i
    simp only [List.mem_toFinset, List.mem_map, List.mem_filter]
    constructor
    · rintro ⟨e, ⟨he, hmatch⟩, rfl⟩
      exact ⟨e.1, he, hmatch⟩
    · rintro ⟨row, hrow, hmatch⟩
      exact ⟨(row, i), ⟨hrow, hmatch⟩, rfl⟩
  unfold joinLeftRow
  simp only
  by_cases hany : right.any (rowsMatch host how pairs nullSafe left) = true
  · have hne := found_ne_nil.mpr hany
    constructor
    · rw [hmerge]
      cases how <;> simp [addedRows, hne, hany]
    · intro hsemi hanti i
      rw [if_neg (by simp [hsemi, hanti]), if_pos ⟨hsemi, hanti⟩, Finset.mem_union, hindex]
  · have hnil := not_not.mp (mt found_ne_nil.mp hany)
    constructor
    · rw [hmerge]
      cases how <;> simp [addedRows, hnil, hany]
    · intro hsemi hanti i
      rw [if_neg (by simp [hsemi, hanti]), if_pos ⟨hsemi, hanti⟩, Finset.mem_union, hindex]

theorem fold_joinLeftRow (rows : List (Dict String V)) :
    (rows.foldl (joinLeftRow host listing how pairs nullSafe leftFields rightFields right)
      ([], ∅)).1 =
        rows.flatMap (addedRows host listing how pairs nullSafe leftFields rightFields right) ∧
    (how ≠ .semi → how ≠ .anti → ∀ i,
      i ∈ (rows.foldl (joinLeftRow host listing how pairs nullSafe leftFields rightFields right)
        ([], ∅)).2 ↔ ∃ left ∈ rows, ∃ row, (row, i) ∈ right.zipIdx ∧
          rowsMatch host how pairs nullSafe left row = true) := by
  induction rows using List.reverseRecOn with
  | nil => exact ⟨rfl, fun _ _ i => by simp⟩
  | append_singleton rows left ih =>
      rw [List.foldl_append, List.foldl_cons, List.foldl_nil]
      obtain ⟨hrows, hindex⟩ := @joinLeftRow_eq V host listing how pairs nullSafe leftFields
        rightFields right (rows.foldl (joinLeftRow host listing how pairs nullSafe leftFields
          rightFields right) ([], ∅)) left
      constructor
      · rw [hrows, ih.1, List.flatMap_append, List.flatMap_singleton]
      · intro hsemi hanti i
        rw [hindex hsemi hanti, ih.2 hsemi hanti]
        simp only [List.mem_append, List.mem_singleton, or_and_right, exists_or, exists_eq_left]

/-- The right rows that no left row matched. -/
theorem unmatched_right {rows : List (Dict String V)} (hsemi : how ≠ .semi) (hanti : how ≠ .anti)
    (f : Dict String V → Dict String V) :
    ((right.zipIdx.filter fun e => e.2 ∉ (rows.foldl (joinLeftRow host listing how pairs nullSafe
      leftFields rightFields right) ([], ∅)).2).map fun e => f e.1) =
      (right.filter fun row => !rows.any fun left =>
        rowsMatch host how pairs nullSafe left row).map f := by
  rw [← filter_zipIdx_map (fun row => !rows.any fun left =>
    rowsMatch host how pairs nullSafe left row) f right]
  refine congrArg (List.map _) (List.filter_congr fun e he => ?_)
  rw [Bool.eq_iff_iff, decide_eq_true_eq, (fold_joinLeftRow rows).2 hsemi hanti,
    Bool.not_eq_true', Bool.eq_false_iff, Ne, not_iff_not, List.any_eq_true]
  constructor
  · rintro ⟨left, hleft, row, hrow, hmatch⟩
    -- The index of a right row tells which one it is.
    have hsame : some row = some e.1 := by
      rw [← List.mem_zipIdx_iff_getElem?.mp hrow, ← List.mem_zipIdx_iff_getElem?.mp he]
    obtain rfl := Option.some.inj hsame
    exact ⟨left, hleft, hmatch⟩
  · rintro ⟨left, hleft, hmatch⟩
    exact ⟨left, hleft, e.1, he, hmatch⟩

theorem joinRows_eq (rows : List (Dict String V)) :
    joinRows host listing how pairs nullSafe rows right =
      rows.flatMap (addedRows host listing how pairs nullSafe (allFields rows) (allFields right)
        right) ++
      if how = .right ∨ how = .full then
        (right.filter fun row => !rows.any fun left =>
          rowsMatch host how pairs nullSafe left row).map
            (mergeRows (Dict.empty.setAll (nulls host listing (allFields rows \ allFields right))))
      else [] := by
  unfold joinRows
  simp only
  by_cases hhow : how = .right ∨ how = .full
  · have hsemi : how ≠ .semi := by
      rintro rfl
      simp at hhow
    have hanti : how ≠ .anti := by
      rintro rfl
      simp at hhow
    rw [if_pos hhow, if_pos hhow, (fold_joinLeftRow rows).1, unmatched_right hsemi hanti]
  · rw [if_neg hhow, if_neg hhow, (fold_joinLeftRow rows).1, List.append_nil]

end Loops

/-! ## All joins of two sides -/

section Joins

variable {V : Type} {host : JoinHost V} (R : Requests host) {listing : Listing}
  {rows right : List (Dict String V)}

/-- The pairs that agree, merged. -/
def Requests.agreeing (rows right : List (Dict String V)) : List (Dict String V) :=
  rows.flatMap fun left => (right.filter (R.agree left)).map (mergeRows left)

theorem zipStrict_of_length {left right : List String} (h : left.length = right.length) :
    zipStrict left right = .ok (left.zip right) := by
  unfold zipStrict
  rw [if_neg (by omega), if_neg (by omega)]

theorem join_request (how : JoinType)
    (h : collisions R.pairs rows right = ∅ ∨ how = .semi ∨ how = .anti) :
    join host listing (R.request how) rows right =
      .ok (joinRows host listing how R.pairs R.params.nullSafe rows right) := by
  have hzip : zipStrict (R.request how).leftNames (R.request how).rightNames = .ok R.pairs :=
    zipStrict_of_length R.arity
  have htype : joinType host (R.request how).type = .ok how := R.reads how
  have hpolicy : ¬host.lower ((R.request how).collisionPolicy.getD "fail") ≠ "fail" :=
    not_not.mpr R.policy
  unfold join
  rw [htype, ok_bind, if_neg hpolicy, hzip, ok_bind]
  simp only
  rw [if_neg]
  · rfl
  · rintro ⟨hcolliding, hsemi, hanti⟩
    rcases h with hfree | h | h
    · exact hcolliding hfree
    · exact hsemi h
    · exact hanti h

theorem swapped_leftNames (how : JoinType) :
    (R.swapped how).leftNames = R.params.rightNames := by
  unfold JoinParams.leftNames Requests.swapped
  rfl

theorem swapped_rightNames (how : JoinType) :
    (R.swapped how).rightNames = R.params.leftNames := by
  have harity := R.arity
  show listNames (if R.params.leftNames = [] then some (.many R.params.rightNames)
    else some (.many R.params.leftNames)) = _
  by_cases hnil : R.params.leftNames = []
  · rw [if_pos hnil]
    rw [hnil] at harity ⊢
    exact List.length_eq_zero_iff.mp harity.symm
  · rw [if_neg hnil]
    rfl

theorem collisions_swap : collisions (R.pairs.map Prod.swap) right rows =
    collisions R.pairs rows right := by
  unfold collisions
  rw [Finset.inter_comm]
  refine Finset.filter_congr fun name _ => ?_
  rw [not_iff_not, List.mem_map]
  constructor
  · rintro ⟨pair, hpair, heq⟩
    have hself : pair = (name, name) := by
      rw [← Prod.swap_swap pair, heq]
      rfl
    exact hself ▸ hpair
  · intro hpair
    exact ⟨_, hpair, rfl⟩

/-- The requests with the sides exchanged. -/
def Requests.flip : Requests host where
  params := R.swapped .left
  type := R.type
  reads := R.reads
  policy := R.policy
  arity := by
    rw [swapped_leftNames, swapped_rightNames]
    exact R.arity.symm

theorem flip_pairs : R.flip.pairs = R.pairs.map Prod.swap := by
  unfold Requests.pairs
  rw [List.zip_swap]
  show (R.swapped .left).leftNames.zip (R.swapped .left).rightNames = _
  rw [swapped_leftNames, swapped_rightNames]

theorem flip_agree (left right : Dict String V) : R.flip.agree right left = R.agree left right := by
  unfold Requests.agree
  rw [flip_pairs]
  exact rowsMatch_swap

theorem join_swapped (h : collisions R.pairs rows right = ∅) :
    join host listing (R.swapped .left) right rows =
      .ok (joinRows host listing .left R.flip.pairs R.params.nullSafe right rows) := by
  have hfree : collisions R.flip.pairs right rows = ∅ := by
    rw [flip_pairs, collisions_swap, h]
  exact join_request R.flip .left (.inl hfree)

/-- The rows of a left row, for the joins that merge the rows that agree. -/
theorem addedRows_eq {how : JoinType} (hsemi : how ≠ .semi) (hanti : how ≠ .anti)
    (hcross : how ≠ .cross) (left : Dict String V) :
    addedRows host listing how R.pairs R.params.nullSafe (allFields rows) (allFields right) right
        left =
      (right.filter (R.agree left)).map (mergeRows left) ++
        if (how = .left ∨ how = .full) ∧ !right.any (R.agree left) then
          [left.setAll (nulls host listing (allFields right \ allFields rows))] else [] := by
  have hmatch : rowsMatch host how R.pairs R.params.nullSafe left = R.agree left :=
    funext fun _ => rowsMatch_of_ne hcross
  cases how with
  | semi => exact absurd rfl hsemi
  | anti => exact absurd rfl hanti
  | cross => exact absurd rfl hcross
  | inner => simp only [addedRows, hmatch]
  | left => simp only [addedRows, hmatch]
  | right => simp only [addedRows, hmatch]
  | full => simp only [addedRows, hmatch]

theorem joinRows_inner : joinRows host listing .inner R.pairs R.params.nullSafe rows right =
    R.agreeing rows right := by
  rw [joinRows_eq, if_neg (by simp), List.append_nil]
  refine List.flatMap_congr fun left _ => ?_
  rw [addedRows_eq R (by simp) (by simp) (by simp)]
  simp

theorem joinRows_cross : joinRows host listing .cross R.pairs R.params.nullSafe rows right =
    (rows.product right).map fun pair => mergeRows pair.1 pair.2 := by
  rw [joinRows_eq, if_neg (by simp), List.append_nil]
  unfold List.product
  rw [List.map_flatMap]
  refine List.flatMap_congr fun left _ => ?_
  have hall : right.filter (rowsMatch host .cross R.pairs R.params.nullSafe left) = right :=
    List.filter_eq_self.mpr fun _ _ => rfl
  simp [addedRows, hall, Function.comp_def]

theorem joinRows_semi : joinRows host listing .semi R.pairs R.params.nullSafe rows right =
    rows.filter fun left => right.any (R.agree left) := by
  rw [joinRows_eq, if_neg (by simp), List.append_nil]
  have hadded : (rows.flatMap (addedRows host listing .semi R.pairs R.params.nullSafe
      (allFields rows) (allFields right) right)) =
        rows.flatMap fun left => if right.any (R.agree left) then [left] else [] := rfl
  rw [hadded, flatMap_ite (fun left => right.any (R.agree left)) (fun left => left), List.map_id']

theorem joinRows_anti : joinRows host listing .anti R.pairs R.params.nullSafe rows right =
    rows.filter fun left => !right.any (R.agree left) := by
  rw [joinRows_eq, if_neg (by simp), List.append_nil]
  have hadded : (rows.flatMap (addedRows host listing .anti R.pairs R.params.nullSafe
      (allFields rows) (allFields right) right)) =
        rows.flatMap fun left => if !right.any (R.agree left) then [left] else [] := rfl
  rw [hadded, flatMap_ite (fun left => !right.any (R.agree left)) (fun left => left),
    List.map_id']

theorem agreeing_eq : R.agreeing rows right =
    ((rows.product right).filter fun pair => R.agree pair.1 pair.2).map fun pair =>
      mergeRows pair.1 pair.2 := by
  unfold Requests.agreeing List.product
  rw [List.filter_flatMap, List.map_flatMap]
  refine List.flatMap_congr fun left _ => ?_
  rw [List.filter_map, List.map_map]
  rfl

/-- The rows of one side without a match, padded. -/
theorem perm_left_or_full {how : JoinType} (hhow : how = .left ∨ how = .full) :
    (rows.flatMap (addedRows host listing how R.pairs R.params.nullSafe (allFields rows)
      (allFields right) right)).Perm
        (R.agreeing rows right ++
          (rows.filter fun left => !right.any (R.agree left)).map fun left =>
            left.setAll (nulls host listing (allFields right \ allFields rows))) := by
  have hadded : (rows.flatMap (addedRows host listing how R.pairs R.params.nullSafe
      (allFields rows) (allFields right) right)) =
        rows.flatMap fun left => (right.filter (R.agree left)).map (mergeRows left) ++
          if !right.any (R.agree left) then
            [left.setAll (nulls host listing (allFields right \ allFields rows))] else [] := by
    refine List.flatMap_congr fun left _ => ?_
    rw [addedRows_eq R (by rintro rfl; simp at hhow) (by rintro rfl; simp at hhow)
      (by rintro rfl; simp at hhow)]
    simp [hhow]
  rw [hadded, ← flatMap_ite]
  exact (List.flatMap_append_perm rows _ _).symm

/-- The padded rows of a side without a match. -/
theorem padded_unmatched {others : Finset String} (q : Dict String V → Bool)
    {f : Dict String V → Dict String V} (hf : ∀ row ∈ rows, Padded host others row (f row)) :
    List.Forall₂ (Padded host others) (rows.filter q) ((rows.filter q).map f) := by
  rw [List.forall₂_map_right_iff, List.forall₂_same]
  intro row hrow
  exact hf row (List.mem_of_mem_filter hrow)

/-- However the names are listed, the padded rows are the same. -/
theorem sameRows_of_padded {others : Finset String} {a b c : List (Dict String V)}
    (h : List.Forall₂ (Padded host others) a b) (h' : List.Forall₂ (Padded host others) a c) :
    SameRows host b c := by
  refine SameRows.of_forall₂ ?_
  induction h generalizing c with
  | nil =>
      cases h'
      exact .nil
  | cons hfirst _ ih =>
      cases h' with
      | cons hfirst' hrest' => exact .cons (hfirst.sameRow hfirst') (ih hrest')

theorem mem_addedRows {how : JoinType} (hsemi : how ≠ .semi) (hanti : how ≠ .anti)
    {left row : Dict String V} {leftFields rightFields : Finset String}
    (h : row ∈ addedRows host listing how R.pairs R.params.nullSafe leftFields rightFields right
      left) :
    (∃ other ∈ right, row = mergeRows left other) ∨
      row = left.setAll (nulls host listing (rightFields \ leftFields)) := by
  have hunfold : addedRows host listing how R.pairs R.params.nullSafe leftFields rightFields right
      left = (right.filter (rowsMatch host how R.pairs R.params.nullSafe left)).map
        (mergeRows left) ++
        if (how = .left ∨ how = .full) ∧
            !right.any (rowsMatch host how R.pairs R.params.nullSafe left) then
          [left.setAll (nulls host listing (rightFields \ leftFields))] else [] := by
    cases how with
    | semi => exact absurd rfl hsemi
    | anti => exact absurd rfl hanti
    | cross => rfl
    | inner => rfl
    | left => rfl
    | right => rfl
    | full => rfl
  rw [hunfold, List.mem_append] at h
  rcases h with h | h
  · obtain ⟨other, hother, rfl⟩ := List.mem_map.mp h
    exact .inl ⟨other, List.mem_of_mem_filter hother, rfl⟩
  · split at h
    · exact .inr (List.mem_singleton.mp h)
    · cases h

variable (left others : Side V)

theorem fieldsOf_joinRows (how : JoinType) {row : Dict String V}
    (hrow : row ∈ joinRows host listing how R.pairs R.params.nullSafe left.rows others.rows) :
    fieldsOf row = if how = .semi ∨ how = .anti then allFields left.rows
      else allFields left.rows ∪ allFields others.rows := by
  by_cases hhow : how = .semi ∨ how = .anti
  · rw [if_pos hhow]
    refine left.uniform row ?_
    rcases hhow with rfl | rfl
    · rw [joinRows_semi] at hrow
      exact List.mem_of_mem_filter hrow
    · rw [joinRows_anti] at hrow
      exact List.mem_of_mem_filter hrow
  · rw [if_neg hhow]
    rw [not_or] at hhow
    rw [joinRows_eq, List.mem_append] at hrow
    rcases hrow with hrow | hrow
    · obtain ⟨source, hsource, hadded⟩ := List.mem_flatMap.mp hrow
      have hfields := left.uniform source hsource
      rcases mem_addedRows R hhow.1 hhow.2 hadded with ⟨other, hother, rfl⟩ | rfl
      · rw [fieldsOf_mergeRows, hfields, others.uniform other hother]
      · rw [(padded_left listing hfields).fieldsOf_eq, hfields]
    · split at hrow
      · obtain ⟨source, hsource, rfl⟩ := List.mem_map.mp hrow
        have hfields := others.uniform source (List.mem_of_mem_filter hsource)
        rw [(padded_right listing hfields).fieldsOf_eq, hfields, Finset.union_comm]
      · cases hrow

theorem joinRows_right : joinRows host listing .right R.pairs R.params.nullSafe rows right =
    R.agreeing rows right ++
      (right.filter fun row => !rows.any fun left => R.agree left row).map
        (mergeRows (Dict.empty.setAll
          (nulls host listing (allFields rows \ allFields right)))) := by
  have hmatch : ∀ left, rowsMatch host .right R.pairs R.params.nullSafe left = R.agree left :=
    fun _ => funext fun _ => rowsMatch_of_ne (by simp)
  rw [joinRows_eq, if_pos (.inl rfl)]
  simp only [hmatch]
  congr 1
  refine List.flatMap_congr fun left _ => ?_
  rw [addedRows_eq R (by simp) (by simp) (by simp)]
  simp

theorem sameRows_flatMap {α : Type} {f g : α → List (Dict String V)} : ∀ {l : List α},
    (∀ a ∈ l, SameRows host (f a) (g a)) → SameRows host (l.flatMap f) (l.flatMap g)
  | [], _ => SameRows.of_perm .nil
  | a :: l, h => by
      rw [List.flatMap_cons, List.flatMap_cons]
      have hrest := sameRows_flatMap fun b hb => h b (List.mem_cons_of_mem _ hb)
      exact (h a List.mem_cons_self).append hrest

theorem SameRows.trans_perm {a b c : List (Dict String V)} (h : a.Perm b)
    (h' : SameRows host b c) : SameRows host a c := by
  unfold SameRows at h' ⊢
  rwa [Multiset.coe_eq_coe.mpr h]

theorem SameRows.perm_trans {a b c : List (Dict String V)} (h : SameRows host a b)
    (h' : b.Perm c) : SameRows host a c := by
  unfold SameRows at h ⊢
  rwa [← Multiset.coe_eq_coe.mpr h']

/-- The pairs that agree give the same rows in both orders. -/
theorem sameRows_agreeing (hfree : collisions R.pairs left.rows others.rows = ∅) :
    SameRows host (R.agreeing left.rows others.rows) (R.flip.agreeing others.rows left.rows) := by
  have hpairs : ∀ name ∈ allFields left.rows ∩ allFields others.rows,
      (name, name) ∈ R.pairs := by
    intro name hname
    by_contra hpair
    have hmem : name ∈ collisions R.pairs left.rows others.rows :=
      Finset.mem_filter.mpr ⟨hname, hpair⟩
    rw [hfree] at hmem
    cases hmem
  refine SameRows.trans_perm (perm_flatMap_swap R.agree mergeRows others.rows left.rows) ?_
  refine sameRows_flatMap fun row hrow => SameRows.of_forall₂ ?_
  have hagree : R.flip.agree row = fun other => R.agree other row :=
    funext fun other => flip_agree R other row
  rw [hagree, List.forall₂_map_left_iff, List.forall₂_map_right_iff, List.forall₂_same]
  intro other hother
  obtain ⟨hother, hmatch⟩ := List.mem_filter.mp hother
  exact sameRow_mergeRows (left.uniform other hother) (others.uniform row hrow) hpairs hmatch

/-- A right join gives the rows of the left join of the exchanged sides. -/
theorem sameRows_swapped {listing' : Listing}
    (hfree : collisions R.pairs left.rows others.rows = ∅) :
    SameRows host (joinRows host listing .right R.pairs R.params.nullSafe left.rows others.rows)
      (joinRows host listing' .left R.flip.pairs R.params.nullSafe others.rows left.rows) := by
  have hleft := @perm_left_or_full V host R.flip listing' others.rows left.rows .left (.inl rfl)
  rw [joinRows_right, joinRows_eq, if_neg (by simp), List.append_nil]
  refine SameRows.perm_trans ?_ hleft.symm
  refine (sameRows_agreeing R left others hfree).append ?_
  have hagree : ∀ row, R.flip.agree row = fun other => R.agree other row :=
    fun row => funext fun other => flip_agree R other row
  have hpadded : ∀ row ∈ others.rows, Padded host (allFields left.rows) row _ := fun row hrow =>
    padded_right listing (others.uniform row hrow)
  have hpadded' : ∀ row ∈ others.rows, Padded host (allFields left.rows) row _ := fun row hrow =>
    padded_left listing' (others.uniform row hrow)
  simp only [hagree]
  exact sameRows_of_padded (padded_unmatched _ hpadded) (padded_unmatched _ hpadded')

/-- A full join adds to the left join the padded right rows without a match. -/
theorem sameRows_full {listing' : Listing} :
    SameRows host (joinRows host listing .full R.pairs R.params.nullSafe left.rows others.rows)
      (joinRows host listing' .left R.pairs R.params.nullSafe left.rows others.rows ++
        (others.rows.filter fun row => !left.rows.any fun left => R.agree left row).map
          (mergeRows (Dict.empty.setAll
            (nulls host listing (allFields left.rows \ allFields others.rows))))) := by
  have hleft := @perm_left_or_full V host R listing' left.rows others.rows .left (.inl rfl)
  have hfull := @perm_left_or_full V host R listing left.rows others.rows .full (.inr rfl)
  have hmatch : ∀ left, rowsMatch host .full R.pairs R.params.nullSafe left = R.agree left :=
    fun _ => funext fun _ => rowsMatch_of_ne (by simp)
  have hpadded : ∀ listing : Listing, ∀ row ∈ left.rows, Padded host (allFields others.rows) row
      (row.setAll (nulls host listing (allFields others.rows \ allFields left.rows))) :=
    fun listing row hrow => padded_left listing (left.uniform row hrow)
  rw [joinRows_eq, if_pos (.inr rfl), joinRows_eq, if_neg (by simp), List.append_nil]
  simp only [hmatch]
  refine SameRows.append ?_ (SameRows.of_perm (.refl _))
  refine SameRows.trans_perm hfull (SameRows.perm_trans ?_ hleft.symm)
  refine (SameRows.of_perm (.refl _)).append ?_
  exact sameRows_of_padded (padded_unmatched _ (hpadded listing))
    (padded_unmatched _ (hpadded listing'))

end Joins

/-- Semi and anti joins split the left rows; where no fields collide, all joins return, and
their results are related. -/
theorem joins_related {V : Type} {host : JoinHost V} (R : Requests host)
    (listing : JoinType → Listing) (listing' : Listing) (left right : Side V) :
    (∃ semi anti, join host (listing .semi) (R.request .semi) left.rows right.rows = .ok semi ∧
      join host (listing .anti) (R.request .anti) left.rows right.rows = .ok anti ∧
      Splits R left.rows right.rows semi anti) ∧
    (collisions R.pairs left.rows right.rows = ∅ → ∃ out swapped,
      (∀ how, join host (listing how) (R.request how) left.rows right.rows = .ok (out how)) ∧
      join host listing' (R.swapped .left) right.rows left.rows = .ok swapped ∧
      Algebra R left.rows right.rows out swapped) := by
  constructor
  · refine ⟨_, _, join_request R .semi (.inr (.inl rfl)),
      join_request R .anti (.inr (.inr rfl)), ?_⟩
    rw [joinRows_semi, joinRows_anti]
    exact ⟨List.filter_append_perm _ _, rfl, rfl⟩
  · intro hfree
    refine ⟨fun how =>
      joinRows host (listing how) how R.pairs R.params.nullSafe left.rows right.rows,
      _, fun how => join_request R how (.inl hfree), join_swapped R hfree, ?_⟩
    have hleft := @perm_left_or_full V host R (listing .left) left.rows right.rows .left (.inl rfl)
    constructor
    · exact joinRows_cross R
    · exact (joinRows_inner R).trans (agreeing_eq R)
    · refine ⟨_, padded_unmatched _ fun row hrow =>
        padded_left (listing .left) (left.uniform row hrow), ?_⟩
      show SameRows host (joinRows _ _ _ _ _ _ _) _
      rw [joinRows_eq, if_neg (by simp), List.append_nil, joinRows_inner]
      exact SameRows.of_perm hleft
    · exact sameRows_swapped R left right hfree
    · refine ⟨_, padded_unmatched _ fun row hrow =>
        padded_right (listing .full) (right.uniform row hrow), ?_⟩
      exact sameRows_full R left right
    · exact fun how row hrow => fieldsOf_joinRows R left right how hrow

/-! ## Two tables -/

/-- Cells are numbers or null. -/
def numberHost : JoinHost (Option Int) where
  null := none
  isNull := Option.isNone
  isNull_iff := by simp
  differs a b := a ≠ b
  differs_comm a b := by simp [eq_comm]
  lower text := text
  sortedText _ := ""

def nameOf : JoinType → String
  | .inner => "inner"
  | .left => "left"
  | .right => "right"
  | .full => "full"
  | .semi => "semi"
  | .anti => "anti"
  | .cross => "cross"

def onId : Requests numberHost where
  params := ⟨none, some (.one "id"), none, none, none, false, none⟩
  type how := some (nameOf how)
  reads how := by cases how <;> rfl
  policy := rfl
  arity := rfl

/-- Rows with an `id` and one more field. -/
def idRows (field : String) (cells : List (Option Int × Option Int)) :
    List (Dict String (Option Int)) :=
  cells.map fun cell => (Dict.empty.set "id" cell.1).set field cell.2

def orders : Side (Option Int) where
  rows := idRows "total" [(some 1, some 10), (none, some 20), (some 1, none), (some 2, some 5)]
  uniform := by decide

def customers : Side (Option Int) where
  rows := idRows "age" [(some 1, some 30), (some 3, none), (none, some 40)]
  uniform := by decide

theorem texts_trans : IsTrans String (· ≤ ·) := inferInstance

theorem texts_antisymm : Std.Antisymm fun a b : String => a ≤ b := inferInstance

def sortedListing : Listing where
  list names :=
    haveI := texts_trans
    haveI := texts_antisymm
    names.sort (· ≤ ·)
  mem_list names name := by simp

theorem joins_related_tables : collisions onId.pairs orders.rows customers.rows = ∅ ∧
    ∃ out swapped,
      (∀ how, join numberHost sortedListing (onId.request how) orders.rows customers.rows =
        .ok (out how)) ∧
      join numberHost sortedListing (onId.swapped .left) customers.rows orders.rows =
        .ok swapped ∧
      Algebra onId orders.rows customers.rows out swapped := by
  have hfree : collisions onId.pairs orders.rows customers.rows = ∅ := by decide
  exact ⟨hfree, (joins_related onId (fun _ => sortedListing) sortedListing orders customers).2
    hfree⟩

end Etlantic.Transform.Frame
