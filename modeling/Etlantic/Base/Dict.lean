import Mathlib.Data.List.Nodup
import Mathlib.Data.List.Basic

/-!
# Insertion-ordered dictionaries

A dictionary in the style of Python's `dict`: an association list whose keys
are pairwise distinct.  Overwriting a key keeps its position, a new key goes to
the end.  The distinctness of the keys is a field of the structure, so no lookup
lemma ever needs it as a hypothesis.
-/

namespace Etlantic

universe u v

/-- Pairs of texts serve as keys and as members of lists everywhere. -/
instance lawfulBEq_pair : LawfulBEq (String × String) := inferInstance

structure Dict (κ : Type u) (ν : Type v) where
  entries : List (κ × ν)
  nodup : (entries.map Prod.fst).Nodup

namespace Dict

variable {κ : Type u} {ν : Type v}

def empty : Dict κ ν := ⟨[], List.nodup_nil⟩

variable [DecidableEq κ]

/-- The value stored under `k` in a raw association list. -/
def assoc (k : κ) : List (κ × ν) → Option ν
  | [] => none
  | e :: rest => if e.1 = k then some e.2 else assoc k rest

/-- Overwrite in place, or append. -/
def put (k : κ) (v : ν) : List (κ × ν) → List (κ × ν)
  | [] => [(k, v)]
  | e :: rest => if e.1 = k then (k, v) :: rest else e :: put k v rest

theorem assoc_eq_some_of_mem {k : κ} {v : ν} : ∀ {l : List (κ × ν)},
    (l.map Prod.fst).Nodup → (k, v) ∈ l → assoc k l = some v
  | e :: rest, hnd, hmem => by
      obtain ⟨hfresh, hrest⟩ := List.nodup_cons.mp hnd
      rcases List.mem_cons.mp hmem with rfl | hmem
      · simp [assoc]
      · have hne : e.1 ≠ k := fun h =>
          hfresh (h ▸ List.mem_map_of_mem (f := Prod.fst) hmem)
        simpa [assoc, hne] using assoc_eq_some_of_mem hrest hmem

theorem mem_of_assoc {k : κ} {v : ν} : ∀ {l : List (κ × ν)},
    assoc k l = some v → (k, v) ∈ l
  | e :: rest, h => by
      unfold assoc at h
      split at h
      · rename_i hk
        cases h
        exact hk ▸ List.mem_cons_self
      · exact List.mem_cons_of_mem _ (mem_of_assoc h)

theorem mem_keys_put {k k' : κ} {v : ν} : ∀ {l : List (κ × ν)},
    k' ∈ (put k v l).map Prod.fst ↔ k' ∈ l.map Prod.fst ∨ k' = k
  | [] => by simp [put]
  | e :: rest => by
      have ih : k' ∈ (put k v rest).map Prod.fst ↔ k' ∈ rest.map Prod.fst ∨ k' = k :=
        mem_keys_put
      unfold put
      split
      · rename_i hk
        simp only [List.map_cons, List.mem_cons, hk]
        tauto
      · simp only [List.map_cons, List.mem_cons, ih]
        tauto

theorem nodup_put (k : κ) (v : ν) : ∀ {l : List (κ × ν)},
    (l.map Prod.fst).Nodup → ((put k v l).map Prod.fst).Nodup
  | [], _ => by simp [put]
  | e :: rest, hnd => by
      obtain ⟨hfresh, hrest⟩ := List.nodup_cons.mp hnd
      unfold put
      split
      · rename_i hk
        exact List.nodup_cons.mpr ⟨hk ▸ hfresh, hrest⟩
      · rename_i hk
        refine List.nodup_cons.mpr ⟨fun hmem => ?_, nodup_put k v hrest⟩
        rcases mem_keys_put.mp hmem with h | h
        · exact hfresh h
        · exact hk h

theorem assoc_put (k k' : κ) (v : ν) : ∀ l : List (κ × ν),
    assoc k' (put k v l) = if k = k' then some v else assoc k' l
  | [] => by simp [put, assoc]
  | e :: rest => by
      have ih := assoc_put k k' v rest
      by_cases hk : e.1 = k
      · by_cases hk' : k = k' <;> simp [put, assoc, hk, hk']
      · simp only [put, if_neg hk, assoc]
        by_cases hk' : e.1 = k'
        · have hne : k ≠ k' := fun h => hk (hk'.trans h.symm)
          simp [hk', hne]
        · simp [hk', ih]

/-! ## The dictionary operations -/

/-- `d.get(k)`. -/
def get? (d : Dict κ ν) (k : κ) : Option ν := assoc k d.entries

/-- `d[k] = v`. -/
def set (d : Dict κ ν) (k : κ) (v : ν) : Dict κ ν :=
  ⟨put k v d.entries, nodup_put k v d.nodup⟩

/-- `d.pop(k, None)`. -/
def erase (d : Dict κ ν) (k : κ) : Dict κ ν :=
  ⟨d.entries.filter (fun e => e.1 ≠ k), d.nodup.sublist (List.filter_sublist.map _)⟩

/-- `k in d`. -/
def contains (d : Dict κ ν) (k : κ) : Bool := (d.get? k).isSome

omit [DecidableEq κ] in
/-- `sum(p(k, v) for k, v in d.items())`. -/
def count (d : Dict κ ν) (p : κ → ν → Bool) : Nat := d.entries.countP (fun e => p e.1 e.2)

omit [DecidableEq κ] in
/-- `any(p(k, v) for k, v in d.items())`. -/
def any (d : Dict κ ν) (p : κ → ν → Bool) : Bool := d.entries.any (fun e => p e.1 e.2)

@[simp] theorem get?_empty (k : κ) : (empty : Dict κ ν).get? k = none := rfl

theorem get?_set (d : Dict κ ν) (k k' : κ) (v : ν) :
    (d.set k v).get? k' = if k = k' then some v else d.get? k' :=
  assoc_put k k' v d.entries

@[simp] theorem get?_set_self (d : Dict κ ν) (k : κ) (v : ν) : (d.set k v).get? k = some v := by
  simp [get?_set]

theorem get?_set_ne (d : Dict κ ν) {k k' : κ} (v : ν) (h : k ≠ k') :
    (d.set k v).get? k' = d.get? k' := by
  simp [get?_set, h]

/-- What is there stays when a free key is written. -/
theorem get?_set_fresh {d : Dict κ ν} {k k' : κ} {v w : ν} (hfresh : d.get? k = none)
    (hget : d.get? k' = some w) : (d.set k v).get? k' = some w :=
  (get?_set_ne d v fun hk => nomatch (hk ▸ hfresh).symm.trans hget).trans hget

theorem get?_set_eq_some {d : Dict κ ν} {k k' : κ} {v w : ν} :
    (d.set k v).get? k' = some w ↔ (k = k' ∧ v = w) ∨ (k ≠ k' ∧ d.get? k' = some w) := by
  rw [get?_set]
  by_cases h : k = k' <;> simp [h]

omit [DecidableEq κ] in
theorem ne_of_mem_tail {k k' : κ} {v' : ν} {rest : List (κ × ν)}
    (hnodup : (k :: rest.map Prod.fst).Nodup) (hmem : (k', v') ∈ rest) : k ≠ k' := fun heq =>
  (List.nodup_cons.mp hnodup).1 (List.mem_map.mpr ⟨(k', v'), hmem, heq.symm⟩)

/-- Writing the head of a list of rows leaves the other rows where they are. -/
theorem get?_set_of_mem_tail {d : Dict κ ν} {k : κ} {v : ν} {rest : List (κ × ν)}
    (hnodup : (k :: rest.map Prod.fst).Nodup) {k' : κ} {v' : ν} (hmem : (k', v') ∈ rest) :
    (d.set k v).get? k' = d.get? k' :=
  get?_set_ne d v (ne_of_mem_tail hnodup hmem)

theorem put_of_absent {k : κ} {v : ν} : ∀ {l : List (κ × ν)}, assoc k l = none →
    put k v l = l ++ [(k, v)]
  | [], _ => rfl
  | e :: rest, h => by
      unfold assoc at h
      by_cases hk : e.1 = k
      · simp [hk] at h
      · rw [if_neg hk] at h
        simp only [put, if_neg hk, List.cons_append, put_of_absent h]

/-- A new key goes to the end. -/
theorem entries_set_of_absent {d : Dict κ ν} {k : κ} {v : ν} (h : d.get? k = none) :
    (d.set k v).entries = d.entries ++ [(k, v)] :=
  put_of_absent h

theorem mem_entries_iff {d : Dict κ ν} {k : κ} {v : ν} :
    (k, v) ∈ d.entries ↔ d.get? k = some v :=
  ⟨assoc_eq_some_of_mem d.nodup, mem_of_assoc⟩

theorem assoc_filter_ne (k k' : κ) : ∀ l : List (κ × ν),
    assoc k' (l.filter (fun e => e.1 ≠ k)) = if k = k' then none else assoc k' l
  | [] => by simp [assoc]
  | e :: rest => by
      have ih := assoc_filter_ne k k' rest
      by_cases hk : e.1 = k
      · by_cases hk' : k = k' <;> simpa [List.filter_cons, assoc, hk, hk'] using ih
      · by_cases hk' : e.1 = k'
        · have hne : k ≠ k' := fun h => hk (hk'.trans h.symm)
          simp [assoc, hk', hne, hne.symm]
        · simpa [List.filter_cons, assoc, hk, hk'] using ih

theorem get?_erase (d : Dict κ ν) (k k' : κ) :
    (d.erase k).get? k' = if k = k' then none else d.get? k' :=
  assoc_filter_ne k k' d.entries

theorem contains_eq_false {d : Dict κ ν} {k : κ} : d.contains k = false ↔ d.get? k = none := by
  simp [contains]

theorem contains_eq_true {d : Dict κ ν} {k : κ} :
    d.contains k = true ↔ ∃ v, d.get? k = some v := by
  simp [contains, Option.isSome_iff_exists]

theorem any_eq_true {d : Dict κ ν} {p : κ → ν → Bool} :
    d.any p = true ↔ ∃ k v, d.get? k = some v ∧ p k v = true := by
  unfold any
  rw [List.any_eq_true]
  constructor
  · rintro ⟨⟨k, v⟩, hmem, hp⟩
    exact ⟨k, v, mem_entries_iff.mp hmem, hp⟩
  · rintro ⟨k, v, hget, hp⟩
    exact ⟨(k, v), mem_entries_iff.mpr hget, hp⟩

theorem any_eq_false {d : Dict κ ν} {p : κ → ν → Bool} :
    d.any p = false ↔ ∀ k v, d.get? k = some v → p k v = false := by
  constructor
  · intro h k v hget
    by_contra hp
    have htrue : d.any p = true := any_eq_true.mpr ⟨k, v, hget, by simpa using hp⟩
    simp [h] at htrue
  · intro h
    by_contra hany
    obtain ⟨k, v, hget, hp⟩ := any_eq_true.mp (by simpa using hany)
    simp [h k v hget] at hp

theorem countP_put_le (p : κ × ν → Bool) (k : κ) (v : ν) : ∀ l : List (κ × ν),
    (put k v l).countP p ≤ l.countP p + (if p (k, v) then 1 else 0)
  | [] => by
      rw [put, List.countP_singleton]
      simp
  | e :: rest => by
      have ih := countP_put_le p k v rest
      unfold put
      split
      · rw [List.countP_cons, List.countP_cons]
        omega
      · rw [List.countP_cons, List.countP_cons]
        omega

theorem countP_put_of_imp (p : κ × ν → Bool) {k : κ} {v old : ν}
    (h : p (k, v) = true → p (k, old) = true) : ∀ {l : List (κ × ν)},
    assoc k l = some old → (put k v l).countP p ≤ l.countP p
  | e :: rest, hget => by
      unfold assoc at hget
      unfold put
      split
      · rename_i hk
        rw [if_pos hk] at hget
        obtain rfl := Option.some.inj hget
        obtain rfl := hk
        rw [List.countP_cons, List.countP_cons]
        by_cases hv : p (e.1, v) = true
        · simp only [if_pos hv, if_pos (h hv), Nat.le_refl]
        · rw [if_neg hv]
          omega
      · rename_i hk
        rw [if_neg hk] at hget
        have ih := countP_put_of_imp p h hget
        rw [List.countP_cons, List.countP_cons]
        omega

/-- Writing an entry adds at most the entry to a count. -/
theorem count_set_le (d : Dict κ ν) (k : κ) (v : ν) (p : κ → ν → Bool) :
    (d.set k v).count p ≤ d.count p + (if p k v then 1 else 0) :=
  countP_put_le _ k v d.entries

/-- A value that counts only if its predecessor did adds nothing. -/
theorem count_set_of_imp {d : Dict κ ν} {k : κ} {v old : ν} {p : κ → ν → Bool}
    (hget : d.get? k = some old) (h : p k v = true → p k old = true) :
    (d.set k v).count p ≤ d.count p :=
  countP_put_of_imp _ h hget

theorem keys_prefix_put (k : κ) (v : ν) : ∀ l : List (κ × ν),
    l.map Prod.fst <+: (put k v l).map Prod.fst
  | [] => List.nil_prefix
  | e :: rest => by
      unfold put
      split
      · rename_i hk
        simp only [List.map_cons, hk, List.prefix_rfl]
      · rw [List.map_cons, List.map_cons]
        exact (List.prefix_cons_inj e.1).mpr (keys_prefix_put k v rest)

/-- The keys keep their places; a new one goes to the end. -/
theorem keys_prefix_set (d : Dict κ ν) (k : κ) (v : ν) :
    d.entries.map Prod.fst <+: (d.set k v).entries.map Prod.fst :=
  keys_prefix_put k v d.entries
theorem count_eq_zero {d : Dict κ ν} {p : κ → ν → Bool} :
    d.count p = 0 ↔ ∀ k v, d.get? k = some v → p k v = false := by
  unfold count
  rw [List.countP_eq_zero]
  constructor
  · intro h k v hget
    simpa using h (k, v) (mem_entries_iff.mpr hget)
  · rintro h ⟨k, v⟩ hmem
    simpa using h k v (mem_entries_iff.mp hmem)

theorem contains_set (d : Dict κ ν) (k k' : κ) (v : ν) :
    (d.set k v).contains k' = (decide (k = k') || d.contains k') := by
  unfold contains
  rw [get?_set]
  by_cases h : k = k' <;> simp [h]

/-! ## Writing several entries -/

/-- `d.update(l)`. -/
def setAll (d : Dict κ ν) (l : List (κ × ν)) : Dict κ ν := l.foldl (fun d e => d.set e.1 e.2) d

/-- What is found after an update is the last entry written under the key. -/
theorem get?_setAll {k : κ} {v : ν} : ∀ {l : List (κ × ν)} {d : Dict κ ν},
    (d.setAll l).get? k = some v ↔
      (∃ before after, l = before ++ (k, v) :: after ∧ k ∉ after.map Prod.fst) ∨
        (k ∉ l.map Prod.fst ∧ d.get? k = some v)
  | [], d => by simp [setAll]
  | e :: l, d => by
      have ih := get?_setAll (k := k) (v := v) (l := l) (d := d.set e.1 e.2)
      rw [show d.setAll (e :: l) = (d.set e.1 e.2).setAll l from rfl, ih, get?_set_eq_some]
      constructor
      · rintro (⟨before, after, rfl, hafter⟩ | ⟨hfresh, ⟨rfl, rfl⟩ | ⟨hne, hget⟩⟩)
        · exact .inl ⟨e :: before, after, rfl, hafter⟩
        · exact .inl ⟨[], l, rfl, hfresh⟩
        · refine .inr ⟨?_, hget⟩
          rw [List.map_cons, List.mem_cons, not_or]
          exact ⟨fun h => hne h.symm, hfresh⟩
      · rintro (⟨before, after, hsplit, hafter⟩ | ⟨hfresh, hget⟩)
        · cases before with
          | nil =>
              obtain ⟨rfl, rfl⟩ := List.cons.inj hsplit
              exact .inr ⟨hafter, .inl ⟨rfl, rfl⟩⟩
          | cons first before =>
              obtain ⟨rfl, rfl⟩ := List.cons.inj hsplit
              exact .inl ⟨before, after, rfl, hafter⟩
        · rw [List.map_cons, List.mem_cons, not_or] at hfresh
          exact .inr ⟨hfresh.2, .inr ⟨fun h => hfresh.1 h.symm, hget⟩⟩

/-- Without a key twice, the entries written are the entries found. -/
theorem get?_setAll_empty {l : List (κ × ν)} (h : (l.map Prod.fst).Nodup) {k : κ} {v : ν} :
    ((empty : Dict κ ν).setAll l).get? k = some v ↔ (k, v) ∈ l := by
  rw [get?_setAll, get?_empty]
  constructor
  · rintro (⟨before, after, rfl, -⟩ | ⟨-, hnone⟩)
    · exact List.mem_append_right _ List.mem_cons_self
    · cases hnone
  · intro hmem
    obtain ⟨before, after, rfl⟩ := List.append_of_mem hmem
    rw [List.map_append, List.map_cons] at h
    exact .inl ⟨before, after, rfl, (List.nodup_cons.mp (List.nodup_append.mp h).2.1).1⟩

theorem mem_of_mem_setAll {l : List (κ × ν)} {e : κ × ν}
    (h : e ∈ ((empty : Dict κ ν).setAll l).entries) : e ∈ l := by
  rcases get?_setAll.mp (mem_entries_iff.mp h) with ⟨before, after, rfl, -⟩ | ⟨-, hnone⟩
  · exact List.mem_append_right _ List.mem_cons_self
  · cases hnone

theorem length_put (k : κ) (v : ν) : ∀ l : List (κ × ν), (put k v l).length ≤ l.length + 1
  | [] => Nat.le_refl _
  | e :: rest => by
      have ih := length_put k v rest
      unfold put
      split
      · exact Nat.le_succ _
      · exact Nat.succ_le_succ ih

theorem length_setAll (l : List (κ × ν)) : ∀ d : Dict κ ν,
    (d.setAll l).entries.length ≤ d.entries.length + l.length := by
  induction l with
  | nil => exact fun d => Nat.le_refl _
  | cons e l ih =>
      intro d
      have hfirst : (d.set e.1 e.2).entries.length ≤ d.entries.length + 1 :=
        length_put e.1 e.2 d.entries
      have hrest := ih (d.set e.1 e.2)
      rw [List.length_cons]
      show ((d.set e.1 e.2).setAll l).entries.length ≤ _
      omega

/-! ## Properties of every entry -/

/-- Every entry has the property. -/
def All (d : Dict κ ν) (P : κ → ν → Prop) : Prop := ∀ k v, d.get? k = some v → P k v

theorem All.set {d : Dict κ ν} {P : κ → ν → Prop} {k : κ} {v : ν} (h : d.All P) (hnew : P k v) :
    (d.set k v).All P := by
  intro k' v' hget
  rcases get?_set_eq_some.mp hget with ⟨rfl, rfl⟩ | ⟨-, hold⟩
  · exact hnew
  · exact h k' v' hold

theorem All.mono {d : Dict κ ν} {P Q : κ → ν → Prop} (h : d.All P) (hpq : ∀ k v, P k v → Q k v) :
    d.All Q :=
  fun k v hget => hpq k v (h k v hget)

/-- No entry with `p` has `q`. -/
theorem count_and_eq_zero {d : Dict κ ν} {p q : κ → ν → Bool} :
    d.count (fun k v => p k v && q k v) = 0 ↔ d.All fun k v => p k v = true → q k v = false := by
  rw [count_eq_zero]
  refine forall₃_congr fun k v _ => ?_
  show (p k v && q k v) = false ↔ (p k v = true → q k v = false)
  cases p k v <;> simp

theorem all_empty (P : κ → ν → Prop) : (empty : Dict κ ν).All P := by
  intro k v h
  simp at h

/-! ## Restriction to some keys -/

omit [DecidableEq κ] in
@[ext] theorem ext {d d' : Dict κ ν} (h : d.entries = d'.entries) : d = d' := by
  cases d
  cases h
  rfl

omit [DecidableEq κ] in
/-- The entries whose keys have `p`, in their order. -/
def restrict (p : κ → Bool) (d : Dict κ ν) : Dict κ ν :=
  ⟨d.entries.filter fun e => p e.1, d.nodup.sublist (List.filter_sublist.map _)⟩

section Restrict

variable {p : κ → Bool} {d : Dict κ ν}

omit [DecidableEq κ] in
theorem restrict_restrict : (d.restrict p).restrict p = d.restrict p :=
  ext ((List.filter_filter ..).trans (by simp [restrict]))

theorem assoc_filter (k : κ) (hk : p k = true) : ∀ l : List (κ × ν),
    assoc k (l.filter fun e => p e.1) = assoc k l
  | [] => rfl
  | e :: rest => by
      have ih := assoc_filter k hk rest
      by_cases hp : p e.1 = true
      · simp only [List.filter_cons, if_pos hp, assoc, ih]
      · have hne : e.1 ≠ k := fun h => hp (h ▸ hk)
        simp only [List.filter_cons, if_neg hp, assoc, if_neg hne, ih]

theorem put_filter (k : κ) (v : ν) (hk : p k = true) : ∀ l : List (κ × ν),
    (put k v l).filter (fun e => p e.1) = put k v (l.filter fun e => p e.1)
  | [] => by simp [put, hk]
  | e :: rest => by
      have ih := put_filter k v hk rest
      by_cases hkey : e.1 = k
      · have hp : p e.1 = true := hkey ▸ hk
        simp [put, hkey, hk]
      · by_cases hp : p e.1 = true
        · simp [put, hkey, hp, ih]
        · simp [put, hkey, hp, ih]

theorem put_filter_other (k : κ) (v : ν) (hk : p k = false) : ∀ l : List (κ × ν),
    (put k v l).filter (fun e => p e.1) = l.filter fun e => p e.1
  | [] => by simp [put, hk]
  | e :: rest => by
      have ih := put_filter_other k v hk rest
      by_cases hkey : e.1 = k
      · have hp : p e.1 = false := hkey ▸ hk
        simp [put, hkey, hk]
      · simp only [put, if_neg hkey, List.filter_cons, ih]

theorem get?_restrict {k : κ} (hk : p k = true) : (d.restrict p).get? k = d.get? k :=
  assoc_filter k hk d.entries

theorem restrict_set {k : κ} {v : ν} (hk : p k = true) :
    (d.set k v).restrict p = (d.restrict p).set k v :=
  ext (put_filter k v hk d.entries)

theorem restrict_set_other {k : κ} {v : ν} (hk : p k = false) :
    (d.set k v).restrict p = d.restrict p :=
  ext (put_filter_other k v hk d.entries)

theorem restrict_erase (k : κ) : (d.erase k).restrict p = (d.restrict p).erase k := by
  refine ext ?_
  show (d.entries.filter _).filter _ = (d.entries.filter _).filter _
  rw [List.filter_filter, List.filter_filter]
  exact List.filter_congr fun e _ => Bool.and_comm ..

theorem restrict_erase_other {k : κ} (hk : p k = false) :
    (d.erase k).restrict p = d.restrict p := by
  refine ext ?_
  show (d.entries.filter _).filter _ = d.entries.filter _
  rw [List.filter_filter]
  refine List.filter_congr fun e _ => ?_
  by_cases he : e.1 = k
  · rw [he, hk]
    rfl
  · simp [he]

omit [DecidableEq κ] in
theorem any_restrict {q : κ → ν → Bool} (h : ∀ k v, (k, v) ∈ d.entries → q k v = true → p k = true) :
    (d.restrict p).any q = d.any q := by
  rw [Bool.eq_iff_iff]
  simp only [any, restrict, List.any_eq_true, List.mem_filter]
  constructor
  · rintro ⟨e, ⟨hmem, -⟩, hq⟩
    exact ⟨e, hmem, hq⟩
  · rintro ⟨e, hmem, hq⟩
    exact ⟨e, ⟨hmem, h e.1 e.2 hmem hq⟩, hq⟩

omit [DecidableEq κ] in
theorem filter_restrict {q : κ × ν → Bool} (h : ∀ e, q e = true → p e.1 = true) :
    (d.restrict p).entries.filter q = d.entries.filter q := by
  show (d.entries.filter fun e => p e.1).filter q = _
  rw [List.filter_filter]
  refine List.filter_congr fun e _ => ?_
  cases hq : q e with
  | false => exact Bool.false_and _
  | true => rw [h e hq, Bool.true_and]

omit [DecidableEq κ] in
theorem count_restrict {q : κ → ν → Bool} (h : ∀ k v, q k v = true → p k = true) :
    (d.restrict p).count q = d.count q := by
  show (d.restrict p).entries.countP _ = d.entries.countP _
  rw [List.countP_eq_length_filter, List.countP_eq_length_filter,
    filter_restrict fun e hq => h e.1 e.2 hq]

end Restrict

end Dict

end Etlantic
