import Etlantic.Base.StableSort
import Etlantic.Transform.FrameActions

/-!
# The local sort

Sort keys are compared one after the other.  A key puts its nulls first or last whatever
its direction, and its direction reverses the other values only.  If the values of every key are
mutually ordered, this ranks all rows, and the sort keeps rows that tie as they came.
-/

namespace Etlantic.Transform.Frame

open Checked StableSort

/-! ## Keys -/

/-- A key as the action spells it: a name, or a mapping. -/
inductive SortKeySpec where
  | name (field : String)
  | mapping (expression : Option Json) (field column name direction nulls : Option String)

/-- `>`, `<` and `==` of two values, and what the sort raises. -/
structure Operators (V ε : Type) where
  greater : V → V → Except ε Bool
  less : V → V → Except ε Bool
  equal : V → V → Except ε Bool
  /-- `ValueError("local sort key values are not mutually orderable")`. -/
  notOrderable : ε
  /-- `ValueError("unsupported local sort key expression")`. -/
  unsupportedKey : ε

/-- `{"kind": "fieldRef", "target": name}`. -/
def fieldRef (target : Json) : Json := .obj [("kind", .str "fieldRef"), ("target", target)]

/-- `a or b` for texts that may be absent. -/
def firstNonempty (a b : Option String) : Option String :=
  match nonempty a with
  | some text => some text
  | none => b

section Action

variable {V K ε : Type} (E : Engine V K ε) (O : Operators V ε) (lower : String → String)

/-- The expression, the direction and the null placement of a key. -/
def sortKey : SortKeySpec → Except ε SortKey
  | .name field => .ok ⟨fieldRef (.str field), false, true⟩
  | .mapping expression field column name direction nulls =>
      let descending := lower (direction.getD "asc") = "desc"
      let nullsLast := lower (nulls.getD "last") = "last"
      match expression.getD .null with
      | .null =>
          let target := (firstNonempty (firstNonempty field column) name).elim .null .str
          .ok ⟨fieldRef target, descending, nullsLast⟩
      | .obj fields => .ok ⟨.obj fields, descending, nullsLast⟩
      | _ => .error O.unsupportedKey

/-- How `compare` orders two values that are not null. -/
def Operators.order (left right : V) : Except ε Ordering :=
  match O.greater left right, O.less left right with
  | .ok true, .ok false => .ok .gt
  | .ok false, .ok true => .ok .lt
  | .ok false, .ok false =>
      match O.equal left right with
      | .ok true => .ok .eq
      | _ => .error O.notOrderable
  | _, _ => .error O.notOrderable

/-- The engine with the order of the operators. -/
def Engine.withOperators : Engine V K ε := { E with order := O.order }

/-- The action `dtcs:sort`. -/
def sort (specs : List SortKeySpec) (rows : List (Dict String V)) :
    Except ε (List (Dict String V)) := do
  let keys ← specs.mapM (sortKey O lower)
  sortRows (E.withOperators O) keys rows

/-! ## What a sort is -/

/-- The values of a row under the keys. -/
def keyValues (keys : List SortKey) (row : Dict String V) : Except ε (List V) :=
  keys.mapM fun key => E.eval key.expression row

/-- The operators agree that this is how two values are ordered. -/
def Operators.Reports (a b : V) (o : Ordering) : Prop :=
  O.greater a b = .ok (o = .gt) ∧ O.less a b = .ok (o = .lt) ∧ O.equal a b = .ok (o = .eq)

/-- The values are mutually ordered: the operators put them in a total order, up to ties. -/
structure Operators.Orders (P : V → Prop) : Prop where
  answers : ∀ a b, P a → P b → ∃ o, O.Reports a b o ∧ O.Reports b a o.swap
  trans : ∀ a b c, P a → P b → P c →
    O.greater a b = .ok false → O.greater b c = .ok false → O.greater a c = .ok false

/-- Every key has a value in every row, never NaN, and those that are not null are mutually
ordered. -/
structure MutuallyOrdered (keys : List SortKey) (rows : List (Dict String V)) : Prop where
  values : ∀ key ∈ keys, ∀ row ∈ rows, ∃ v, E.eval key.expression row = .ok v ∧ E.isNaN v = false
  ordered : ∀ key ∈ keys, O.Orders fun v => E.isNull v = false ∧
    ∃ row ∈ rows, E.eval key.expression row = .ok v

/-- One value comes before the other. -/
def Precedes (key : SortKey) (a b : V) : Prop :=
  if E.isNull a then E.isNull b = false ∧ key.nullsLast = false
  else if E.isNull b then key.nullsLast = true
  else if key.descending then O.greater a b = .ok true
  else O.less a b = .ok true

/-- Two values tie: both are null, or they are equal. -/
def ties (a b : V) : Bool :=
  if E.isNull a then E.isNull b
  else !E.isNull b && match O.equal a b with
    | .ok equal => equal
    | .error _ => false

/-- The first key that does not tie decides. -/
def InOrder : List SortKey → List V → List V → Prop
  | key :: keys, a :: as, b :: bs =>
      Precedes E O key a b ∨ ties E O a b = true ∧ InOrder keys as bs
  | _, _, _ => True

def tied : List V → List V → Bool
  | a :: as, b :: bs => ties E O a b && tied as bs
  | _, _ => true

/-- Where all keys before a key tie, its nulls are on the side its option says. -/
def NullsPlaced : List SortKey → List V → List V → Prop
  | key :: keys, a :: as, b :: bs =>
      (if key.nullsLast then E.isNull a = true → E.isNull b = true
        else E.isNull b = true → E.isNull a = true) ∧
      (ties E O a b = true → NullsPlaced keys as bs)
  | _, _, _ => True

/-- Two rows with the same key values. -/
def sameKeys (keys : List SortKey) (row other : Dict String V) : Bool :=
  match keyValues E keys row, keyValues E keys other with
  | .ok as, .ok bs => tied E O as bs
  | _, _ => false

/-- `out` are the rows, sorted by the keys. -/
structure Sorts (keys : List SortKey) (rows out : List (Dict String V)) : Prop where
  perm : out.Perm rows
  inOrder : out.Pairwise fun a b => ∃ as bs, keyValues E keys a = .ok as ∧
    keyValues E keys b = .ok bs ∧ InOrder E O keys as bs
  stable : ∀ row ∈ rows, out.filter (sameKeys E O keys row) = rows.filter (sameKeys E O keys row)
  nulls : out.Pairwise fun a b => ∃ as bs, keyValues E keys a = .ok as ∧
    keyValues E keys b = .ok bs ∧ NullsPlaced E O keys as bs

end Action

/-! ## One key -/

section Keys

variable {V K ε : Type} {E : Engine V K ε} {O : Operators V ε} {key : SortKey}
  {keys : List SortKey} {P : V → Prop} {a b : V} {as bs : List V}

theorem Operators.Reports.order_eq {o : Ordering} (h : O.Reports a b o) : O.order a b = .ok o := by
  obtain ⟨hgreater, hless, hequal⟩ := h
  unfold Operators.order
  rw [hgreater, hless, hequal]
  cases o <;> rfl

variable (E O) in
/-- How two values of a key are ordered. -/
def keyOrdering (key : SortKey) (a b : V) : Ordering :=
  if E.isNull a || E.isNull b then
    if E.isNull a && E.isNull b then .eq else if E.isNull a = key.nullsLast then .gt else .lt
  else
    let result := match O.order a b with
      | .ok o => o
      | .error _ => .eq
    if key.descending then result.swap else result

/-- A value under a key: null, or one of those that are ordered. -/
abbrev Placed (E : Engine V K ε) (P : V → Prop) (v : V) : Prop := E.isNull v = false → P v

section Ordered

variable (h : O.Orders P)

include h

theorem Operators.Orders.order_eq (ha : P a) (hb : P b) :
    ∃ o, O.order a b = .ok o ∧ O.Reports a b o ∧ O.Reports b a o.swap := by
  obtain ⟨o, hab, hba⟩ := h.answers a b ha hb
  exact ⟨o, hab.order_eq, hab, hba⟩

theorem compareKey_eq (ha : Placed E P a) (hb : Placed E P b) :
    compareKey (E.withOperators O) key a b = .ok (keyOrdering E O key a b) := by
  have hnull : (E.withOperators O).isNull = E.isNull := rfl
  have horder : (E.withOperators O).order = O.order := rfl
  unfold compareKey keyOrdering
  rw [hnull, horder]
  cases hna : E.isNull a with
  | true => simp
  | false =>
      cases hnb : E.isNull b with
      | true => simp
      | false =>
          obtain ⟨o, ho, -⟩ := h.order_eq (ha hna) (hb hnb)
          rw [ho]
          rfl

/-- The order of the values that are not null. -/
theorem ranks_order : Ranks P fun a b => match O.order a b with
    | .ok o => o
    | .error _ => .eq := by
  constructor
  · intro a b ha hb
    obtain ⟨o, ho, -, hba⟩ := h.order_eq ha hb
    simp only [ho, hba.order_eq]
  · intro a b c ha hb hc hab hbc
    obtain ⟨o, ho, ⟨hgreater, -⟩, -⟩ := h.order_eq ha hb
    obtain ⟨o', ho', ⟨hgreater', -⟩, -⟩ := h.order_eq hb hc
    obtain ⟨o'', ho'', ⟨hgreater'', -⟩, -⟩ := h.order_eq ha hc
    simp only [ho, ho', ho''] at hab hbc ⊢
    intro hgt
    rw [decide_eq_false hab] at hgreater
    rw [decide_eq_false hbc] at hgreater'
    rw [h.trans a b c ha hb hc hgreater hgreater', hgt] at hgreater''
    simp at hgreater''

theorem ranks_keyOrdering : Ranks (Placed E P) (keyOrdering E O key) := by
  have hvalues := ranks_order h
  have hdirected : Ranks P fun a b =>
      if key.descending then
        (match O.order a b with | .ok o => o | .error _ => .eq : Ordering).swap
      else (match O.order a b with | .ok o => o | .error _ => .eq : Ordering) := by
    cases key.descending with
    | true => exact hvalues.reverse
    | false => exact hvalues
  constructor
  · intro a b ha hb
    unfold keyOrdering
    cases hna : E.isNull a with
    | true =>
        cases hnb : E.isNull b with
        | true => rfl
        | false => cases key.nullsLast <;> rfl
    | false =>
        cases hnb : E.isNull b with
        | true => cases key.nullsLast <;> rfl
        | false => exact hdirected.swap a b (ha hna) (hb hnb)
  · intro a b c ha hb hc
    unfold keyOrdering
    cases hna : E.isNull a with
    | true =>
        cases hnb : E.isNull b with
        | true => cases hnc : E.isNull c <;> cases key.nullsLast <;> simp
        | false => cases hnc : E.isNull c <;> cases key.nullsLast <;> simp
    | false =>
        cases hnb : E.isNull b with
        | true => cases hnc : E.isNull c <;> cases key.nullsLast <;> simp
        | false =>
            cases hnc : E.isNull c with
            | true => cases key.nullsLast <;> simp
            | false => exact hdirected.trans a b c (ha hna) (hb hnb) (hc hnc)

theorem keyOrdering_eq_lt (ha : Placed E P a) (hb : Placed E P b) :
    keyOrdering E O key a b = .lt ↔ Precedes E O key a b := by
  unfold keyOrdering Precedes
  cases hna : E.isNull a with
  | true => cases hnb : E.isNull b <;> cases key.nullsLast <;> simp
  | false =>
      cases hnb : E.isNull b with
      | true => cases key.nullsLast <;> simp
      | false =>
          obtain ⟨o, ho, ⟨hgreater, hless, -⟩, -⟩ := h.order_eq (ha hna) (hb hnb)
          simp only [ho, hgreater, hless]
          cases key.descending <;> cases o <;> simp

theorem keyOrdering_eq_eq (ha : Placed E P a) (hb : Placed E P b) :
    keyOrdering E O key a b = .eq ↔ ties E O a b = true := by
  unfold keyOrdering ties
  cases hna : E.isNull a with
  | true => cases hnb : E.isNull b <;> cases key.nullsLast <;> simp
  | false =>
      cases hnb : E.isNull b with
      | true => cases key.nullsLast <;> simp
      | false =>
          obtain ⟨o, ho, ⟨-, -, hequal⟩, -⟩ := h.order_eq (ha hna) (hb hnb)
          simp only [ho, hequal]
          cases key.descending <;> cases o <;> simp

end Ordered

/-- Nulls are on their side of whatever is in order. -/
theorem nulls_of_key (h : Precedes E O key a b ∨ ties E O a b = true) :
    if key.nullsLast then E.isNull a = true → E.isNull b = true
      else E.isNull b = true → E.isNull a = true := by
  unfold Precedes ties at h
  cases hna : E.isNull a with
  | true => cases hnb : E.isNull b <;> cases hlast : key.nullsLast <;> simp_all
  | false => cases hnb : E.isNull b <;> cases hlast : key.nullsLast <;> simp_all

end Keys

/-! ## All keys -/

section Keys

variable {V K ε : Type} {E : Engine V K ε} {O : Operators V ε} {rows : List (Dict String V)}
  {keys : List SortKey} {as bs : List V}

variable (E O) in
def keysOrdering : List SortKey → List V → List V → Ordering
  | key :: keys, a :: as, b :: bs => (keyOrdering E O key a b).then (keysOrdering keys as bs)
  | _, _, _ => .eq

/-- The values of a row under keys, each null or in the order of its key. -/
abbrev PlacedAll (E : Engine V K ε) (P : SortKey → V → Prop) (keys : List SortKey) (vs : List V) :
    Prop := List.Forall₂ (fun key v => Placed E (P key) v) keys vs

section Ordered

variable {P : SortKey → V → Prop} (h : ∀ key ∈ keys, O.Orders (P key))

include h

theorem compareKeys_eq (has : PlacedAll E P keys as) (hbs : PlacedAll E P keys bs) :
    compareKeys (E.withOperators O) keys as bs = .ok (keysOrdering E O keys as bs) := by
  induction has generalizing bs with
  | nil => cases hbs; rfl
  | @cons key a keys as ha _ ih =>
      cases hbs with
      | @cons _ b _ bs hb hbs =>
          have hkey : O.Orders (P key) := h key List.mem_cons_self
          have hrest := ih (fun key hmem => h key (List.mem_cons_of_mem _ hmem)) hbs
          unfold compareKeys keysOrdering
          rw [compareKey_eq hkey ha hb, ok_bind]
          cases keyOrdering E O key a b with
          | lt => rfl
          | gt => rfl
          | eq => simpa using hrest

theorem ranks_keysOrdering : Ranks (PlacedAll E P keys) (keysOrdering E O keys) := by
  induction keys with
  | nil =>
      constructor
      · intro as bs _ _
        cases as <;> cases bs <;> rfl
      · intro as bs cs _ _ _ _ _
        cases as <;> cases cs <;> simp [keysOrdering]
  | cons key keys ih =>
      have hkey : O.Orders (P key) := h key List.mem_cons_self
      have hrest := ih fun key hmem => h key (List.mem_cons_of_mem _ hmem)
      have hfirst : Ranks (PlacedAll E P (key :: keys)) fun as bs =>
          keyOrdering E O key (as.headD E.null) (bs.headD E.null) := by
        refine (ranks_keyOrdering hkey).comap (f := fun as : List V => as.headD E.null) ?_
        intro as has
        cases has with
        | cons ha _ => exact ha
      have hothers : Ranks (PlacedAll E P (key :: keys)) fun as bs =>
          keysOrdering E O keys as.tail bs.tail := by
        refine hrest.comap (f := List.tail) ?_
        intro as has
        cases has with
        | cons _ has => exact has
      refine (hfirst.andThen hothers).congr ?_
      intro as bs has hbs
      cases has
      cases hbs
      rfl

theorem keysOrdering_ne_gt (has : PlacedAll E P keys as) (hbs : PlacedAll E P keys bs) :
    keysOrdering E O keys as bs ≠ .gt ↔ InOrder E O keys as bs := by
  induction has generalizing bs with
  | nil => cases hbs; simp [keysOrdering, InOrder]
  | @cons key a keys as ha _ ih =>
      cases hbs with
      | @cons _ b _ bs hb hbs =>
          have hkey : O.Orders (P key) := h key List.mem_cons_self
          have hrest := ih (fun key hmem => h key (List.mem_cons_of_mem _ hmem)) hbs
          unfold keysOrdering InOrder
          rw [← keyOrdering_eq_lt hkey ha hb, ← keyOrdering_eq_eq hkey ha hb, ← hrest]
          cases keyOrdering E O key a b <;> simp

theorem keysOrdering_eq_eq (has : PlacedAll E P keys as) (hbs : PlacedAll E P keys bs) :
    keysOrdering E O keys as bs = .eq ↔ tied E O as bs = true := by
  induction has generalizing bs with
  | nil => cases hbs; simp [keysOrdering, tied]
  | @cons key a keys as ha _ ih =>
      cases hbs with
      | @cons _ b _ bs hb hbs =>
          have hkey : O.Orders (P key) := h key List.mem_cons_self
          have hrest := ih (fun key hmem => h key (List.mem_cons_of_mem _ hmem)) hbs
          unfold keysOrdering tied
          rw [Bool.and_eq_true, ← keyOrdering_eq_eq hkey ha hb, ← hrest]
          cases keyOrdering E O key a b <;> simp

/-- Rows that are in order have their nulls in place. -/
theorem nullsPlaced_of_inOrder (has : PlacedAll E P keys as) (hbs : PlacedAll E P keys bs)
    (horder : InOrder E O keys as bs) : NullsPlaced E O keys as bs := by
  induction has generalizing bs with
  | nil => cases hbs; trivial
  | @cons key a keys as ha _ ih =>
      cases hbs with
      | @cons _ b _ bs hb hbs =>
          have hkey : O.Orders (P key) := h key List.mem_cons_self
          refine ⟨nulls_of_key (horder.imp_right And.left), fun hties => ?_⟩
          rcases horder with hfirst | ⟨-, hrest⟩
          · rw [← keyOrdering_eq_lt hkey ha hb] at hfirst
            rw [← keyOrdering_eq_eq hkey ha hb, hfirst] at hties
            cases hties
          · exact ih (fun key hmem => h key (List.mem_cons_of_mem _ hmem)) hbs hrest

end Ordered

end Keys

/-! ## Rows -/

section Rows

variable {V K ε : Type} {E : Engine V K ε} {O : Operators V ε} {rows out : List (Dict String V)}
  {keys : List SortKey} {P : SortKey → V → Prop}

variable (E O) in
/-- How rows with their values are ordered. -/
def rowOrdering (keys : List SortKey) (a b : Dict String V × List V) : Ordering :=
  keysOrdering E O keys a.2 b.2

theorem insertRow_eq (h : ∀ key ∈ keys, O.Orders (P key)) {row : Dict String V × List V}
    (hrow : PlacedAll E P keys row.2) : ∀ {sorted : List (Dict String V × List V)},
    (∀ entry ∈ sorted, PlacedAll E P keys entry.2) →
      insertRow (E.withOperators O) keys row sorted =
        .ok (insertBehind (rowOrdering E O keys) row sorted)
  | [], _ => rfl
  | other :: rest, hsorted => by
      have hother : PlacedAll E P keys other.2 := hsorted other List.mem_cons_self
      have ih := insertRow_eq h hrow fun entry hmem => hsorted entry (List.mem_cons_of_mem _ hmem)
      unfold insertBehind at ih ⊢
      unfold insertRow
      rw [compareKeys_eq h hother hrow, ok_bind, List.orderedInsert_cons]
      show _ = Except.ok (if keysOrdering E O keys other.2 row.2 = .gt then _ else _)
      cases keysOrdering E O keys other.2 row.2 with
      | gt => rfl
      | lt =>
          simp only [ih]
          rfl
      | eq =>
          simp only [ih]
          rfl

theorem foldlM_insertRow (h : ∀ key ∈ keys, O.Orders (P key))
    {values : List (Dict String V × List V)}
    (hvalues : ∀ entry ∈ values, PlacedAll E P keys entry.2) :
    values.foldlM (fun sorted row => insertRow (E.withOperators O) keys row sorted) [] =
      .ok (sorted (rowOrdering E O keys) values) := by
  induction values using List.reverseRecOn with
  | nil => rfl
  | append_singleton values value ih =>
      have hbefore : ∀ entry ∈ values, PlacedAll E P keys entry.2 := fun entry hmem =>
        hvalues entry (List.mem_append_left _ hmem)
      rw [List.foldlM_append, ih hbefore, sorted_append_singleton, ok_bind, List.foldlM_cons,
        insertRow_eq h (hvalues value (by simp))]
      · rfl
      · intro entry hmem
        exact hbefore entry ((perm_sorted values).mem_iff.mp hmem)

/-- The values of the keys that the rows have. -/
theorem MutuallyOrdered.exists_values (h : MutuallyOrdered E O keys rows) {row : Dict String V}
    (hrow : row ∈ rows) : ∃ vs, keyValues E keys row = .ok vs ∧ vs.any E.isNaN = false ∧
      List.Forall₂ (fun key v => E.eval key.expression row = .ok v) keys vs := by
  obtain ⟨vs, hvs, hall⟩ := exists_mapM (f := fun key : SortKey => E.eval key.expression row)
    (R := fun key v => E.eval key.expression row = .ok v ∧ E.isNaN v = false) (by
      intro key hkey
      obtain ⟨v, hv, hnan⟩ := h.values key hkey row hrow
      exact ⟨v, hv, hv, hnan⟩)
  refine ⟨vs, hvs, ?_, hall.imp fun key v hv => hv.1⟩
  rw [List.any_eq_false]
  intro v hmem
  obtain ⟨key, hkey, hv⟩ := mem_of_mapM hvs v hmem
  obtain ⟨v', hv', hnan⟩ := h.values key hkey row hrow
  obtain rfl := Except.ok.inj (hv.symm.trans hv')
  simp [hnan]

/-- The rows with their values, as the sort pairs them. -/
def Paired (E : Engine V K ε) (keys : List SortKey) (row : Dict String V)
    (entry : Dict String V × List V) : Prop :=
  entry.1 = row ∧ keyValues E keys row = .ok entry.2 ∧
    List.Forall₂ (fun key v => E.eval key.expression row = .ok v) keys entry.2

theorem MutuallyOrdered.exists_entries (h : MutuallyOrdered E O keys rows) :
    ∃ values, (rows.mapM fun row => do
        let sortValues ← keyValues E keys row
        if sortValues.any E.isNaN then .error E.nanKey else .ok (row, sortValues)) = .ok values ∧
      List.Forall₂ (Paired E keys) rows values := by
  refine exists_mapM fun row hrow => ?_
  obtain ⟨vs, hvs, hnan, hall⟩ := h.exists_values hrow
  refine ⟨(row, vs), ?_, rfl, hvs, hall⟩
  rw [hvs, ok_bind, if_neg (by simp [hnan])]

theorem map_fst_paired {values : List (Dict String V × List V)}
    (h : List.Forall₂ (Paired E keys) rows values) : values.map Prod.fst = rows := by
  induction h with
  | nil => rfl
  | cons hfirst _ ih => rw [List.map_cons, hfirst.1, ih]

theorem mem_paired {values : List (Dict String V × List V)}
    (h : List.Forall₂ (Paired E keys) rows values) {entry : Dict String V × List V}
    (hmem : entry ∈ values) : entry.1 ∈ rows ∧ Paired E keys entry.1 entry := by
  induction h with
  | nil => cases hmem
  | cons hfirst _ ih =>
      rcases List.mem_cons.mp hmem with rfl | hmem
      · exact ⟨hfirst.1 ▸ List.mem_cons_self, hfirst.1 ▸ hfirst⟩
      · exact ⟨List.mem_cons_of_mem _ (ih hmem).1, (ih hmem).2⟩

/-- The values that the order of a key speaks about. -/
def valueOf (E : Engine V K ε) (rows : List (Dict String V)) (key : SortKey) (v : V) : Prop :=
  E.isNull v = false ∧ ∃ row ∈ rows, E.eval key.expression row = .ok v

theorem placedAll_of_paired {entry : Dict String V × List V} (hrow : entry.1 ∈ rows)
    (hpaired : Paired E keys entry.1 entry) : PlacedAll E (valueOf E rows) keys entry.2 :=
  hpaired.2.2.imp fun _ _ hv hnull => ⟨hnull, entry.1, hrow, hv⟩

end Rows

/-- Cells are numbers or null, and expressions are field references. -/
def numberEngine : Engine (Option Int) Int String where
  null := none
  isNull := Option.isNone
  eval := fun node row =>
    match node.field? "target" with
    | some (.str name) => .ok ((row.get? name).join)
    | _ => .error "unsupported expression"
  isTrue := fun _ => false
  isNaN := fun _ => false
  order := fun _ _ => .error "not orderable"
  repr := fun _ => ""
  hash := fun value => .ok (value.getD 0)
  summary := fun _ _ => .error "unsupported"
  text := fun _ => ""
  isPrintable := fun _ => false
  nanKey := "local sort key values cannot contain NaN"
  unsupported := fun action => "unsupported action: " ++ action

def numberOperators : Operators (Option Int) String where
  greater a b := .ok (b.getD 0 < a.getD 0)
  less a b := .ok (a.getD 0 < b.getD 0)
  equal a b := .ok (a.getD 0 = b.getD 0)
  notOrderable := "local sort key values are not mutually orderable"
  unsupportedKey := "unsupported local sort key expression"

theorem numberOperators_orders (P : Option Int → Prop) : numberOperators.Orders P where
  answers a b _ _ := by
    rcases lt_trichotomy (a.getD 0) (b.getD 0) with hlt | heq | hgt
    · have hne := hlt.ne
      have hne' := hlt.ne'
      refine ⟨.lt, ?_, ?_⟩ <;> simp [Operators.Reports, numberOperators, hlt, hlt.le, hne, hne']
    · refine ⟨.eq, ?_, ?_⟩ <;> simp [Operators.Reports, numberOperators, heq]
    · have hne := hgt.ne
      have hne' := hgt.ne'
      refine ⟨.gt, ?_, ?_⟩ <;> simp [Operators.Reports, numberOperators, hgt, hgt.le, hne, hne']
  trans a b c _ _ _ hab hbc := by
    simp only [numberOperators, Except.ok.injEq, decide_eq_false_iff_not, not_lt] at hab hbc ⊢
    exact hab.trans hbc

def lowerAscii (text : String) : String := String.ofList (text.toList.map Char.toLower)

def numberRow (a b : Option Int) : Dict String (Option Int) :=
  (Dict.empty.set "a" a).set "b" b

/-- First by `a` downwards with its nulls first, then by `b`. -/
def twoKeys : List SortKeySpec :=
  [.mapping none (some "a") none none (some "DESC") (some "first"), .name "b"]

def numberRows : List (Dict String (Option Int)) :=
  [numberRow (some 1) none, numberRow (some 2) (some 5), numberRow none (some 7),
    numberRow (some 1) (some 3)]

end Etlantic.Transform.Frame
