import Etlantic.ControlPlane.Redaction

/-!
# Redaction of frozen values

`deep_freeze` turns every mapping into a read-only one, and `redact_value` masks nothing in
a mapping that is not a `dict`.  So a frozen value hides what the value hides exactly if
the mappings that lists and tuples lead to have nothing that is masked.
-/

namespace Etlantic.Runtime.Frozen

open ControlPlane (Unicode redactMessage secretKeyRe)
open Regex (search)

/-! ## Values -/

inductive SequenceKind where
  | list
  | tuple
  | set
  | frozenset

inductive MappingKind where
  | dict
  /-- A mapping that is not a `dict`, such as `MappingProxyType`. -/
  | proxy

/-- A nested value.  A mapping is kept by the texts of its keys, a set in its order of
iteration, and a scalar that is not a text has no data here. -/
inductive Value where
  | secret
  | scalar
  | text (text : String)
  | seq (kind : SequenceKind) (items : List Value)
  | map (kind : MappingKind) (fields : List (String × Value))

/-- The kind that a sequence is frozen to. -/
def SequenceKind.frozen : SequenceKind → SequenceKind
  | .list => .tuple
  | .tuple => .tuple
  | .set => .frozenset
  | .frozenset => .frozenset

/-- `isinstance(value, (list, tuple))`. -/
def SequenceKind.ordered : SequenceKind → Bool
  | .list => true
  | .tuple => true
  | .set => false
  | .frozenset => false

mutual

def deepFreeze : Value → Value
  | .secret => .secret
  | .scalar => .scalar
  | .text s => .text s
  | .seq kind items => .seq kind.frozen (freezeItems items)
  | .map _ fields => .map .proxy (freezeFields fields)

def freezeItems : List Value → List Value
  | [] => []
  | item :: rest => deepFreeze item :: freezeItems rest

def freezeFields : List (String × Value) → List (String × Value)
  | [] => []
  | (key, item) :: rest => (key, deepFreeze item) :: freezeFields rest

end

mutual

def redactValue (u : Unicode) : Value → Value
  | .secret => .text "***"
  | .scalar => .scalar
  | .text s => .text (redactMessage u s)
  | .seq kind items => if kind.ordered then .seq .list (redactItems u items) else .seq kind items
  | .map .dict fields => .map .dict (redactFields u fields)
  | .map .proxy fields => .map .proxy fields

def redactItems (u : Unicode) : List Value → List Value
  | [] => []
  | item :: rest => redactValue u item :: redactItems u rest

def redactFields (u : Unicode) : List (String × Value) → List (String × Value)
  | [] => []
  | (key, item) :: rest =>
      (key, if search secretKeyRe key then .text "***" else redactValue u item) ::
        redactFields u rest

end

/-! ## What a value shows -/

mutual

/-- The texts in a value, each with its place. -/
def shown : Value → List (List Nat × String)
  | .secret => []
  | .scalar => []
  | .text s => [([], s)]
  | .seq _ items => shownItems 0 items
  | .map _ fields => shownFields 0 fields

def shownItems (i : Nat) : List Value → List (List Nat × String)
  | [] => []
  | item :: rest => (shown item).map (fun e => (i :: e.1, e.2)) ++ shownItems (i + 1) rest

def shownFields (i : Nat) : List (String × Value) → List (List Nat × String)
  | [] => []
  | (_, item) :: rest => (shown item).map (fun e => (i :: e.1, e.2)) ++ shownFields (i + 1) rest

end

/-- A text of `v` that `redact_value` of `v` does not show at its place. -/
def Hides (u : Unicode) (v : Value) (e : List Nat × String) : Prop :=
  e ∈ shown v ∧ e ∉ shown (redactValue u v)

/-- The frozen value, redacted, shows no text that the value, redacted, hides. -/
def StaysHidden (u : Unicode) (v : Value) : Prop :=
  ∀ e, Hides u v e → e ∉ shown (redactValue u (deepFreeze v))

mutual

/-- `redact_value` masks no text of the value: no text is changed, and nothing but the mask
stands under a sensitive key. -/
def Clean (u : Unicode) : Value → Prop
  | .secret => True
  | .scalar => True
  | .text s => redactMessage u s = s
  | .seq kind items => kind.ordered = true → CleanItems u items
  | .map .dict fields => CleanFields u fields
  | .map .proxy _ => True

def CleanItems (u : Unicode) : List Value → Prop
  | [] => True
  | item :: rest => Clean u item ∧ CleanItems u rest

def CleanFields (u : Unicode) : List (String × Value) → Prop
  | [] => True
  | (key, item) :: rest =>
      (if search secretKeyRe key then ∀ e ∈ shown item, e = ([], "***") else Clean u item) ∧
        CleanFields u rest

end

mutual

/-- Every `dict` that lists and tuples lead to is clean. -/
def CleanDicts (u : Unicode) : Value → Prop
  | .secret => True
  | .scalar => True
  | .text _ => True
  | .seq kind items => kind.ordered = true → CleanDictsItems u items
  | .map .dict fields => CleanFields u fields
  | .map .proxy _ => True

def CleanDictsItems (u : Unicode) : List Value → Prop
  | [] => True
  | item :: rest => CleanDicts u item ∧ CleanDictsItems u rest

end

/-! ## Freezing shows the same -/

mutual

@[simp] theorem shown_deepFreeze : ∀ v : Value, shown (deepFreeze v) = shown v
  | .secret => by simp [deepFreeze]
  | .scalar => by simp [deepFreeze]
  | .text s => by simp [deepFreeze]
  | .seq kind items => by
      rw [deepFreeze, shown, shown]
      exact shownItems_freezeItems items 0
  | .map kind fields => by
      rw [deepFreeze, shown, shown]
      exact shownFields_freezeFields fields 0

theorem shownItems_freezeItems : ∀ (items : List Value) (i : Nat),
    shownItems i (freezeItems items) = shownItems i items
  | [], _ => rfl
  | item :: rest, i => by
      rw [freezeItems, shownItems, shownItems, shown_deepFreeze item,
        shownItems_freezeItems rest (i + 1)]

theorem shownFields_freezeFields : ∀ (fields : List (String × Value)) (i : Nat),
    shownFields i (freezeFields fields) = shownFields i fields
  | [], _ => rfl
  | (key, item) :: rest, i => by
      rw [freezeFields, shownFields, shownFields, shown_deepFreeze item,
        shownFields_freezeFields rest (i + 1)]

end

/-! ## Places -/

variable {u : Unicode}

/-- What stands first among some items is not shown further on. -/
theorem le_of_mem_shownItems : ∀ {items : List Value} {i j : Nat} {p : List Nat} {s : String},
    (j :: p, s) ∈ shownItems i items → i ≤ j
  | [], _, _, _, _, h => by cases h
  | item :: rest, i, j, p, s, h => by
      rw [shownItems, List.mem_append, List.mem_map] at h
      rcases h with ⟨e, -, heq⟩ | h
      · exact ((List.cons.inj (Prod.mk.inj heq).1).1).le
      · exact (Nat.le_succ i).trans (le_of_mem_shownItems h)

theorem mem_shownItems_first {item : Value} {rest : List Value} {i : Nat} {p : List Nat}
    {s : String} : (i :: p, s) ∈ shownItems i (item :: rest) ↔ (p, s) ∈ shown item := by
  rw [shownItems, List.mem_append, List.mem_map]
  constructor
  · rintro (⟨e, he, heq⟩ | h)
    · obtain ⟨hpath, rfl⟩ := Prod.mk.inj heq
      obtain ⟨-, rfl⟩ := List.cons.inj hpath
      exact he
    · exact absurd (le_of_mem_shownItems h) (Nat.not_succ_le_self i)
  · intro h
    exact .inl ⟨(p, s), h, rfl⟩

theorem mem_shownItems_later {item : Value} {rest : List Value} {i j : Nat} {p : List Nat}
    {s : String} (hlt : i < j) :
    (j :: p, s) ∈ shownItems i (item :: rest) ↔ (j :: p, s) ∈ shownItems (i + 1) rest := by
  rw [shownItems, List.mem_append, List.mem_map]
  refine or_iff_right ?_
  rintro ⟨e, -, heq⟩
  exact (Nat.ne_of_lt hlt) (List.cons.inj (Prod.mk.inj heq).1).1

theorem path_of_mem_shownItems {items : List Value} {i : Nat} {e : List Nat × String}
    (h : e ∈ shownItems i items) : ∃ j p, e = (j :: p, e.2) ∧ i ≤ j := by
  induction items generalizing i with
  | nil => cases h
  | cons item rest ih =>
      rw [shownItems, List.mem_append, List.mem_map] at h
      rcases h with ⟨e', -, rfl⟩ | h
      · exact ⟨i, e'.1, rfl, Nat.le_refl i⟩
      · obtain ⟨j, p, heq, hle⟩ := ih h
        exact ⟨j, p, heq, (Nat.le_succ i).trans hle⟩

theorem shownFields_eq : ∀ (fields : List (String × Value)) (i : Nat),
    shownFields i fields = shownItems i (fields.map Prod.snd)
  | [], _ => rfl
  | (key, item) :: rest, i => by
      rw [shownFields, List.map_cons, shownItems, shownFields_eq rest]

/-! ## Texts that stay hidden -/

/-- What is in the first list and not in the second is not in the third. -/
def Keeps (all visible revealed : List (List Nat × String)) : Prop :=
  ∀ e ∈ all, e ∉ visible → e ∉ revealed

theorem keeps_of_eq {all visible revealed : List (List Nat × String)}
    (h : visible = revealed) : Keeps all visible revealed :=
  fun _ _ hnot => h ▸ hnot

theorem staysHidden_iff {v : Value} : StaysHidden u v ↔
    Keeps (shown v) (shown (redactValue u v)) (shown (redactValue u (deepFreeze v))) := by
  constructor
  · intro h e he hnot
    exact h e ⟨he, hnot⟩
  · rintro h e ⟨he, hnot⟩
    exact h e he hnot

/-- Sequences of one length keep what their items keep. -/
theorem keeps_cons {a b c : Value} {as bs cs : List Value} {i : Nat} :
    Keeps (shownItems i (a :: as)) (shownItems i (b :: bs)) (shownItems i (c :: cs)) ↔
      Keeps (shown a) (shown b) (shown c) ∧
        Keeps (shownItems (i + 1) as) (shownItems (i + 1) bs) (shownItems (i + 1) cs) := by
  constructor
  · intro h
    constructor
    · rintro ⟨p, s⟩ he hnot hin
      refine h (i :: p, s) (mem_shownItems_first.mpr he) ?_ (mem_shownItems_first.mpr hin)
      exact fun hb => hnot (mem_shownItems_first.mp hb)
    · intro e he hnot hin
      obtain ⟨j, p, heq, hle⟩ := path_of_mem_shownItems he
      rw [heq] at he hnot hin
      refine h _ ((mem_shownItems_later hle).mpr he) ?_ ((mem_shownItems_later hle).mpr hin)
      exact fun hb => hnot ((mem_shownItems_later hle).mp hb)
  · rintro ⟨hfirst, hrest⟩ e he hnot hin
    obtain ⟨j, p, heq, hle⟩ := path_of_mem_shownItems he
    rw [heq] at he hnot hin
    rcases Nat.eq_or_lt_of_le hle with rfl | hlt
    · refine hfirst _ (mem_shownItems_first.mp he) ?_ (mem_shownItems_first.mp hin)
      exact fun hb => hnot (mem_shownItems_first.mpr hb)
    · refine hrest _ ((mem_shownItems_later hlt).mp he) ?_ ((mem_shownItems_later hlt).mp hin)
      exact fun hb => hnot ((mem_shownItems_later hlt).mpr hb)

theorem keeps_text {all : List (List Nat × String)} {s : String} :
    Keeps all [([], s)] all ↔ ∀ e ∈ all, e = ([], s) := by
  constructor
  · intro h e he
    by_contra hne
    exact h e he (fun hmem => hne (List.mem_singleton.mp hmem)) he
  · intro h e he hnot
    exact absurd (List.mem_singleton.mpr (h e he)) hnot

mutual

/-- A clean value is one that hides nothing. -/
theorem clean_iff : ∀ v : Value, Keeps (shown v) (shown (redactValue u v)) (shown v) ↔ Clean u v
  | .secret => by
      refine iff_of_true ?_ (by simp [Clean])
      intro e he
      simp [shown] at he
  | .scalar => by
      refine iff_of_true ?_ (by simp [Clean])
      intro e he
      simp [shown] at he
  | .text s => by
      rw [redactValue, shown, shown, Clean, keeps_text]
      simp [eq_comm]
  | .seq kind items => by
      rw [redactValue, Clean]
      by_cases hkind : kind.ordered = true
      · rw [if_pos hkind, shown, shown, cleanItems_iff items 0]
        exact (imp_iff_right hkind).symm
      · rw [if_neg hkind]
        exact iff_of_true (keeps_of_eq rfl) fun h => absurd h hkind
  | .map .dict fields => by
      rw [redactValue, Clean, shown, shown]
      exact cleanFields_iff fields 0
  | .map .proxy fields => by
      rw [redactValue, Clean]
      exact iff_of_true (keeps_of_eq rfl) trivial

theorem cleanItems_iff : ∀ (items : List Value) (i : Nat),
    Keeps (shownItems i items) (shownItems i (redactItems u items)) (shownItems i items) ↔
      CleanItems u items
  | [], i => by
      rw [redactItems, CleanItems]
      exact iff_of_true (keeps_of_eq rfl) trivial
  | item :: rest, i => by
      rw [redactItems, CleanItems, keeps_cons, clean_iff item, cleanItems_iff rest (i + 1)]

theorem cleanFields_iff : ∀ (fields : List (String × Value)) (i : Nat),
    Keeps (shownFields i fields) (shownFields i (redactFields u fields)) (shownFields i fields) ↔
      CleanFields u fields
  | [], i => by
      rw [redactFields, CleanFields]
      exact iff_of_true (keeps_of_eq rfl) trivial
  | (key, item) :: rest, i => by
      have hrest := cleanFields_iff rest (i + 1)
      simp only [shownFields_eq] at hrest ⊢
      rw [redactFields, CleanFields, List.map_cons, List.map_cons, keeps_cons, hrest]
      refine and_congr_left fun _ => ?_
      by_cases hkey : search secretKeyRe key = true
      · simp only [hkey, if_true]
        rw [shown]
        exact keeps_text
      · simp only [hkey]
        exact clean_iff item

end

/-! ## Frozen values -/

theorem redactValue_frozen_map (kind : MappingKind) (fields : List (String × Value)) :
    shown (redactValue u (deepFreeze (.map kind fields))) = shown (.map kind fields) := by
  rw [deepFreeze, redactValue, shown, shown]
  exact shownFields_freezeFields fields 0

mutual

/-- Redacting the frozen value keeps hidden what redacting the value hides, exactly if every
`dict` that lists and tuples lead to is clean. -/
theorem keeps_frozen_iff : ∀ v : Value,
    Keeps (shown v) (shown (redactValue u v)) (shown (redactValue u (deepFreeze v))) ↔
      CleanDicts u v
  | .secret => by
      rw [deepFreeze, CleanDicts]
      exact iff_of_true (keeps_of_eq rfl) trivial
  | .scalar => by
      rw [deepFreeze, CleanDicts]
      exact iff_of_true (keeps_of_eq rfl) trivial
  | .text s => by
      rw [deepFreeze, CleanDicts]
      exact iff_of_true (keeps_of_eq rfl) trivial
  | .seq kind items => by
      rw [CleanDicts, deepFreeze, redactValue, redactValue]
      have hfrozen : kind.frozen.ordered = kind.ordered := by
        cases kind <;> rfl
      by_cases hkind : kind.ordered = true
      · rw [hfrozen, if_pos hkind, if_pos hkind, shown, shown, shown,
          keepsItems_frozen_iff items 0]
        exact (imp_iff_right hkind).symm
      · rw [hfrozen, if_neg hkind, if_neg hkind, shown, shown, shownItems_freezeItems]
        exact iff_of_true (keeps_of_eq rfl) fun h => absurd h hkind
  | .map .dict fields => by
      rw [redactValue_frozen_map, clean_iff, CleanDicts, Clean]
  | .map .proxy fields => by
      rw [redactValue_frozen_map, CleanDicts, redactValue]
      exact iff_of_true (keeps_of_eq rfl) trivial

theorem keepsItems_frozen_iff : ∀ (items : List Value) (i : Nat),
    Keeps (shownItems i items) (shownItems i (redactItems u items))
      (shownItems i (redactItems u (freezeItems items))) ↔ CleanDictsItems u items
  | [], i => by
      rw [freezeItems, CleanDictsItems]
      exact iff_of_true (keeps_of_eq rfl) trivial
  | item :: rest, i => by
      rw [freezeItems, redactItems, redactItems, CleanDictsItems, keeps_cons,
        keeps_frozen_iff item, keepsItems_frozen_iff rest (i + 1)]

end

/-- The tables do not matter where no text is redacted. -/
def sampleUnicode : Unicode := ⟨fun _ => false, fun _ => false, fun _ => false⟩

end Etlantic.Runtime.Frozen
