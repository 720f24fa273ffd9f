import Mathlib.Data.List.Sort
import Mathlib.Order.Defs.LinearOrder

/-!
# Paging through a table by key

A reader asks for the keys behind a cursor, least first and at most so many, and
goes on behind the last key of the page.  The pages of a whole scan are the keys in
order: none is left out and none is read twice, whatever the sizes of the pages.
-/

namespace Etlantic.Keyset

universe u

variable {κ : Type u} [LinearOrder κ]

/-- The keys behind a cursor, least first. -/
def behind (after : Option κ) (keys : List κ) : List κ :=
  (keys.filter fun k => after.all (· < k)).insertionSort (· ≤ ·)

/-- The cursor behind a page, if keys remain. -/
def nextCursor (limit : Nat) (after : Option κ) (keys : List κ) : Option κ :=
  if limit < (behind after keys).length then ((behind after keys).take limit).getLast? else none

/-- The pages of a scan, with the limit of each, or none if the fuel does not last. -/
def pages (limit : Nat → Nat) (keys : List κ) : Nat → Nat → Option κ → Option (List (List κ))
  | 0, _, _ => none
  | fuel + 1, n, after =>
      match nextCursor (limit n) after keys with
      | none => some [(behind after keys).take (limit n)]
      | some cursor => (pages limit keys fuel (n + 1) (some cursor)).map
          ((behind after keys).take (limit n) :: ·)

variable {limit : Nat} {after : Option κ} {keys : List κ} {cursor k : κ}

theorem mem_behind : k ∈ behind after keys ↔ k ∈ keys ∧ after.all (· < k) = true := by
  rw [behind, List.mem_insertionSort, List.mem_filter]

theorem behind_none_perm (keys : List κ) : (behind none keys).Perm keys := by
  have hall : keys.filter (fun k => (none : Option κ).all (· < k)) = keys := by
    rw [List.filter_eq_self]
    intro k _
    rfl
  unfold behind
  rw [hall]
  exact List.perm_insertionSort _ keys

theorem behind_sorted (after : Option κ) (h : keys.Nodup) :
    (behind after keys).Pairwise (· < ·) := by
  have hle : (behind after keys).Pairwise (· ≤ ·) := List.pairwise_insertionSort _ _
  have hnodup : (behind after keys).Nodup :=
    (List.perm_insertionSort _ _).nodup_iff.mpr (h.filter _)
  exact (hle.and hnodup).imp fun h => lt_of_le_of_ne h.1 h.2

/-- Behind the last key of a page lies what the page left. -/
theorem behind_cursor (hnodup : keys.Nodup) (h : nextCursor limit after keys = some cursor) :
    behind (some cursor) keys = (behind after keys).drop limit := by
  unfold nextCursor at h
  split at h
  · have hsorted := behind_sorted after hnodup
    have hsplit := List.take_append_drop limit (behind after keys)
    rw [← hsplit, List.pairwise_append] at hsorted
    obtain ⟨hpage, hrest, hbefore⟩ := hsorted
    have hlast : cursor ∈ (behind after keys).take limit := List.mem_of_getLast? h
    obtain ⟨front, hfront⟩ := List.getLast?_eq_some_iff.mp h
    rw [hfront, List.pairwise_append] at hpage
    have hsame : ∀ k, k ∈ behind (some cursor) keys ↔ k ∈ (behind after keys).drop limit := by
      intro k
      constructor
      · intro hk
        obtain ⟨hmem, hlt⟩ := mem_behind.mp hk
        have hlt : cursor < k := by simpa using hlt
        have hafter : after.all (· < k) = true := by
          have hcursor := (mem_behind.mp (List.mem_of_mem_take hlast)).2
          cases after with
          | none => rfl
          | some a =>
              have ha : a < cursor := by simpa using hcursor
              simpa using ha.trans hlt
        have hbehind := mem_behind.mpr ⟨hmem, hafter⟩
        rw [← hsplit, List.mem_append] at hbehind
        rcases hbehind with hin | hin
        · rw [hfront, List.mem_append, List.mem_singleton] at hin
          rcases hin with hin | rfl
          · exact absurd hlt (not_lt.mpr (hpage.2.2 k hin cursor (List.mem_singleton_self _)).le)
          · exact absurd hlt (lt_irrefl _)
        · exact hin
      · intro hk
        have hkeys := (mem_behind.mp (List.mem_of_mem_drop hk)).1
        exact mem_behind.mpr ⟨hkeys, by simpa using hbefore cursor hlast k hk⟩
    have hperm : (behind (some cursor) keys).Perm ((behind after keys).drop limit) :=
      (List.perm_ext_iff_of_nodup ((behind_sorted _ hnodup).imp fun h => ne_of_lt h)
        (hrest.imp fun h => ne_of_lt h)).mpr hsame
    exact hperm.eq_of_pairwise (fun a b _ _ h h' => absurd h' (lt_asymm h))
      (behind_sorted _ hnodup) hrest
  · cases h

/-- The pages of a scan are the keys behind its cursor, in order. -/
theorem pages_complete {limit : Nat → Nat} (hnodup : keys.Nodup) (hlimit : ∀ n, 0 < limit n) :
    ∀ (fuel n : Nat) (after : Option κ), (behind after keys).length < fuel →
      ∃ read, pages limit keys fuel n after = some read ∧ read.flatten = behind after keys
  | fuel + 1, n, after, hfuel => by
      unfold pages
      cases hnext : nextCursor (limit n) after keys with
      | none =>
          refine ⟨_, rfl, ?_⟩
          rw [List.flatten_cons, List.flatten_nil, List.append_nil]
          apply List.take_of_length_le
          by_contra hmore
          have hpage : (behind after keys).take (limit n) ≠ [] := by
            intro hempty
            have hlen := congrArg List.length hempty
            rw [List.length_take, List.length_nil] at hlen
            have := hlimit n
            omega
          unfold nextCursor at hnext
          rw [if_pos (by omega), List.getLast?_eq_none_iff] at hnext
          exact hpage hnext
      | some cursor =>
          have hrest := behind_cursor hnodup hnext
          have hmore : limit n < (behind after keys).length := by
            unfold nextCursor at hnext
            split at hnext
            · assumption
            · cases hnext
          obtain ⟨read, hread, hflat⟩ := pages_complete hnodup hlimit fuel (n + 1) (some cursor) (by
            rw [hrest, List.length_drop]
            have := hlimit n
            omega)
          refine ⟨(behind after keys).take (limit n) :: read, ?_, ?_⟩
          · show (pages limit keys fuel (n + 1) (some cursor)).map _ = _
            rw [hread, Option.map_some]
          · rw [List.flatten_cons, hflat, hrest, List.take_append_drop]

end Etlantic.Keyset
