import Mathlib.Data.List.Forall2
import Etlantic.Base.PosixPath

/-!
# Namespaced paths

`namespaced_path` places the files of a policy below a root, in a directory for each of its
security domain, tenant and environment.  What is no letter, digit, hyphen, underscore or
dot in a segment is replaced by an underscore; a segment can still be a double dot.

So segments may leave the root, and two identifiers that differ only in replaced characters
share a directory.  `isolated_iff` says which segments do neither.
-/

namespace Etlantic.IoPolicy

open PosixPath

/-- `str.isalnum` of one character. -/
structure CharTable where
  isAlnum : Char → Bool
  slash : isAlnum '/' = false

structure SafeIoPolicy where
  tenant : String
  environment : String
  securityDomain : String

section Paths

variable (table : CharTable)

def isAllowed (ch : Char) : Bool := table.isAlnum ch || ch = '-' || ch = '_' || ch = '.'

def safeChar (ch : Char) : Char := if isAllowed table ch then ch else '_'

/-- `_safe_segment`. -/
def safeSegment (value : String) : String := String.ofList (value.toList.map (safeChar table))

/-- `namespaced_path`. -/
def namespacedPath (root : String) (parts : List String) (policy : Option SafeIoPolicy) :
    PurePath :=
  let base := parse root
  let dims :=
    match policy with
    | some policy => [safeSegment table policy.securityDomain, safeSegment table policy.tenant,
        safeSegment table policy.environment]
    | none => []
  base.joinpath (dims ++ parts.map (safeSegment table))

/-- The identifiers of a policy and the parts behind them. -/
def segments (policy : SafeIoPolicy) (parts : List String) : List String :=
  policy.securityDomain :: policy.tenant :: policy.environment :: parts

/-- The files of two policies are strictly below every root and apart from each other. -/
def Isolated (cwd : PurePath) (p q : SafeIoPolicy) (parts others : List String) : Prop :=
  ∀ root : String,
    let first := PurePath.normal cwd (namespacedPath table root parts (some p))
    let second := PurePath.normal cwd (namespacedPath table root others (some q))
    first.StrictlyBelow (PurePath.normal cwd (parse root)) ∧
      second.StrictlyBelow (PurePath.normal cwd (parse root)) ∧
        ¬ first.AtOrAbove second ∧ ¬ second.AtOrAbove first

/-- The character is an underscore or becomes one. -/
def isMasked (ch : Char) : Bool := ch = '_' || !isAllowed table ch

/-- Two texts differ at most in masked characters. -/
def Alike (a b : String) : Prop :=
  List.Forall₂ (fun c d => c = d ∨ (isMasked table c = true ∧ isMasked table d = true))
    a.toList b.toList

/-- A sequence of texts is the beginning of another one, up to masked characters. -/
def Begins (texts others : List String) : Prop :=
  ∃ front rest, others = front ++ rest ∧ List.Forall₂ (Alike table) texts front

/-- Both sequences stay where they start, and neither is the beginning of the other where
they lead. -/
def Apart (texts others : List String) : Prop :=
  ∃ first second, landing [] texts = some first ∧ landing [] others = some second ∧
    ¬ Begins table first second ∧ ¬ Begins table second first

variable {table}

section Segments

theorem safeChar_eq_underscore {c : Char} : safeChar table c = '_' ↔ isMasked table c = true := by
  unfold safeChar isMasked
  cases isAllowed table c <;> simp

theorem safeChar_of_not_masked {c : Char} (h : isMasked table c = false) :
    safeChar table c = c := by
  unfold isMasked at h
  rw [Bool.or_eq_false_iff, Bool.not_eq_false'] at h
  exact if_pos h.2

theorem safeChar_eq_iff {c d : Char} : safeChar table c = safeChar table d ↔
    c = d ∨ (isMasked table c = true ∧ isMasked table d = true) := by
  constructor
  · intro h
    cases hc : isMasked table c with
    | true =>
        rw [safeChar_eq_underscore.mpr hc] at h
        exact .inr ⟨rfl, safeChar_eq_underscore.mp h.symm⟩
    | false =>
        cases hd : isMasked table d with
        | true =>
            rw [safeChar_eq_underscore.mpr hd, safeChar_eq_underscore, hc] at h
            cases h
        | false =>
            rw [safeChar_of_not_masked hc, safeChar_of_not_masked hd] at h
            exact .inl h
  · rintro (rfl | ⟨hc, hd⟩)
    · rfl
    · rw [safeChar_eq_underscore.mpr hc, safeChar_eq_underscore.mpr hd]

theorem safeSegment_eq_iff {a b : String} :
    safeSegment table a = safeSegment table b ↔ Alike table a b := by
  unfold safeSegment Alike
  rw [String.ofList_inj, ← List.forall₂_eq_eq_eq, List.forall₂_map_left_iff,
    List.forall₂_map_right_iff]
  simp only [safeChar_eq_iff]

theorem safeChar_eq_dot {c : Char} : safeChar table c = '.' ↔ c = '.' := by
  constructor
  · intro h
    unfold safeChar at h
    split at h
    · exact h
    · exact absurd h (by decide)
  · rintro rfl
    exact if_pos (by simp [isAllowed])

theorem safeSegment_eq_dots {n : Nat} {s : String} :
    safeSegment table s = String.ofList (List.replicate n '.') ↔
      s = String.ofList (List.replicate n '.') := by
  have hs : s = String.ofList s.toList := String.ofList_toList.symm
  unfold safeSegment
  rw [String.ofList_inj, List.eq_replicate_iff, List.length_map]
  conv_rhs => rw [hs, String.ofList_inj, List.eq_replicate_iff]
  refine and_congr_right fun _ => ?_
  constructor
  · intro h c hc
    exact safeChar_eq_dot.mp (h _ (List.mem_map_of_mem hc))
  · intro h d hd
    obtain ⟨c, hc, rfl⟩ := List.mem_map.mp hd
    exact safeChar_eq_dot.mpr (h c hc)

theorem slash_not_mem_safeSegment (s : String) : '/' ∉ (safeSegment table s).toList := by
  unfold safeSegment
  rw [String.toList_ofList, List.mem_map]
  rintro ⟨c, -, hc⟩
  unfold safeChar at hc
  split at hc
  · rename_i hallowed
    rw [hc, isAllowed, table.slash] at hallowed
    exact absurd hallowed (by decide)
  · exact absurd hc (by decide)

theorem safeSegment_eq_empty {s : String} : safeSegment table s = "" ↔ s = "" :=
  safeSegment_eq_dots (n := 0)

theorem safeSegment_eq_dot {s : String} : safeSegment table s = "." ↔ s = "." :=
  safeSegment_eq_dots (n := 1)

theorem safeSegment_eq_parent {s : String} : safeSegment table s = ".." ↔ s = ".." :=
  safeSegment_eq_dots (n := 2)

theorem isKept_safeSegment (s : String) : isKept (safeSegment table s) = isKept s := by
  unfold isKept
  simp only [ne_eq, safeSegment_eq_empty, safeSegment_eq_dot]

end Segments

section Places

variable {cwd : PurePath} {p q : SafeIoPolicy} {parts others : List String}

theorem begins_iff {texts others : List String} :
    Begins table texts others ↔
      texts.map (safeSegment table) <+: others.map (safeSegment table) := by
  have halike : ∀ front : List String, List.Forall₂ (Alike table) texts front ↔
      texts.map (safeSegment table) = front.map (safeSegment table) := by
    intro front
    rw [← List.forall₂_eq_eq_eq, List.forall₂_map_left_iff, List.forall₂_map_right_iff]
    simp only [safeSegment_eq_iff]
  constructor
  · rintro ⟨front, rest, rfl, h⟩
    rw [List.map_append, (halike front).mp h]
    exact List.prefix_append _ _
  · intro h
    obtain ⟨front, ⟨rest, hrest⟩, hfront⟩ := List.prefix_map_iff.mp h
    exact ⟨front, rest, hrest.symm, (halike front).mpr hfront⟩

/-- Where a namespaced path leads from a root. -/
theorem normal_namespacedPath (root : String) :
    PurePath.normal cwd (namespacedPath table root parts (some p)) =
      ⟨(PurePath.normal cwd (parse root)).anchor,
        (((segments p parts).map (safeSegment table)).filter isKept).foldl push
          (PurePath.normal cwd (parse root)).parts⟩ := by
  have hplain : ∀ s ∈ (segments p parts).map (safeSegment table), '/' ∉ s.toList := by
    intro s hs
    obtain ⟨t, -, rfl⟩ := List.mem_map.mp hs
    exact slash_not_mem_safeSegment t
  have hpath : namespacedPath table root parts (some p) =
      (parse root).joinpath ((segments p parts).map (safeSegment table)) := rfl
  rw [hpath, joinpath_plain _ hplain, normal_append]

theorem landing_safeSegments (texts : List String) :
    landing [] (texts.map (safeSegment table)) =
      (landing [] texts).map (List.map (safeSegment table)) :=
  landing_map isKept_safeSegment (fun _ => safeSegment_eq_parent) texts []

/-- Segments that stay where they start lead to themselves below every root. -/
theorem normal_of_landing {result : List String} (root : String)
    (h : landing [] (segments p parts) = some result) :
    PurePath.normal cwd (namespacedPath table root parts (some p)) =
      ⟨(PurePath.normal cwd (parse root)).anchor,
        (PurePath.normal cwd (parse root)).parts ++ result.map (safeSegment table)⟩ := by
  have hsafe : landing [] ((segments p parts).map (safeSegment table)) =
      some (result.map (safeSegment table)) := by
    rw [landing_safeSegments, h]
    rfl
  have hwalk : (((segments p parts).map (safeSegment table)).filter isKept).foldl push
      ((PurePath.normal cwd (parse root)).parts ++ []) = _ := foldl_push_landing hsafe
  rw [List.append_nil] at hwalk
  rw [normal_namespacedPath, hwalk]

/-- Segments that leave where they start lead out of some root. -/
theorem exists_root_of_leaving (table : CharTable) (cwd : PurePath)
    (h : landing [] (segments p parts) = none) : ∃ root : String,
      ¬ (PurePath.normal cwd (namespacedPath table root parts (some p))).StrictlyBelow
        (PurePath.normal cwd (parse root)) := by
  have hsafe : landing [] ((segments p parts).map (safeSegment table)) = none := by
    rw [landing_safeSegments, h]
    rfl
  obtain ⟨name, hfresh, hslash, hkept, hdots⟩ :=
    exists_fresh ((segments p parts).map (safeSegment table))
  refine ⟨String.ofList ('/' :: name.toList), ?_⟩
  have hroot : PurePath.normal cwd (parse (String.ofList ('/' :: name.toList))) =
      ⟨"/", [name]⟩ := by
    rw [parse_root hslash hkept]
    unfold PurePath.normal
    rw [if_neg (show ("/" : String) ≠ "" by decide), List.foldl_cons, List.foldl_nil, push,
      if_neg hdots]
    rfl
  rintro ⟨⟨-, hhead⟩, -⟩
  rw [normal_namespacedPath, hroot] at hhead
  exact not_mem_foldl_push_of_leaving hfresh List.not_mem_nil hsafe
    (hhead.subset List.mem_cons_self)

/-- Paths below one root are apart just if their components are. -/
theorem atOrAbove_append_iff {anchor : String} {base first second : List String} :
    PurePath.AtOrAbove ⟨anchor, base ++ first⟩ ⟨anchor, base ++ second⟩ ↔ first <+: second := by
  unfold PurePath.AtOrAbove
  rw [List.prefix_append_right_inj]
  exact and_iff_right rfl

theorem strictlyBelow_of_not_begins {anchor : String} {base result other : List String}
    (h : ¬ Begins table result other) :
    PurePath.StrictlyBelow ⟨anchor, base ++ result.map (safeSegment table)⟩ ⟨anchor, base⟩ := by
  refine ⟨⟨rfl, List.prefix_append _ _⟩, ?_⟩
  intro heq
  rw [PurePath.mk.injEq, List.self_eq_append_right, List.map_eq_nil_iff] at heq
  rw [heq.2, begins_iff] at h
  exact h List.nil_prefix

/-- Namespaced paths of two policies are isolated below every root just if their segments
are apart. -/
theorem isolated_iff :
    Isolated table cwd p q parts others ↔
      Apart table (segments p parts) (segments q others) := by
  constructor
  · intro h
    cases hfirst : landing [] (segments p parts) with
    | none =>
        obtain ⟨root, hroot⟩ := exists_root_of_leaving table cwd hfirst
        exact absurd (h root).1 hroot
    | some first =>
        cases hsecond : landing [] (segments q others) with
        | none =>
            obtain ⟨root, hroot⟩ := exists_root_of_leaving table cwd hsecond
            exact absurd (h root).2.1 hroot
        | some second =>
            obtain ⟨-, -, hfs, hsf⟩ := h "/"
            rw [normal_of_landing "/" hfirst, normal_of_landing "/" hsecond,
              atOrAbove_append_iff, ← begins_iff] at hfs hsf
            exact ⟨first, second, hfirst, hsecond, hfs, hsf⟩
  · rintro ⟨first, second, hfirst, hsecond, hfs, hsf⟩ root
    rw [normal_of_landing root hfirst, normal_of_landing root hsecond]
    dsimp only
    rw [atOrAbove_append_iff, atOrAbove_append_iff, ← begins_iff, ← begins_iff]
    exact ⟨strictlyBelow_of_not_begins hfs, strictlyBelow_of_not_begins hsf, hfs, hsf⟩

end Places

end Paths

/-! ## Identifiers that share a directory -/

def asciiTable : CharTable := ⟨Char.isAlphanum, by decide⟩

/-- Two tenants that differ in a replaced character have the same files. -/
theorem not_isolated : ¬ ∀ (table : CharTable) (cwd : PurePath) (p q : SafeIoPolicy)
    (parts others : List String),
    (p.securityDomain ≠ q.securityDomain ∨ p.tenant ≠ q.tenant ∨ p.environment ≠ q.environment) →
      "" ∉ segments p [] → "" ∉ segments q [] → parts ≠ [] → others ≠ [] →
        Isolated table cwd p q parts others := by
  intro h
  obtain ⟨-, -, hnot, -⟩ := h asciiTable ⟨"/", []⟩ ⟨"acme/eu", "prod", "default"⟩
    ⟨"acme_eu", "prod", "default"⟩ ["rows.csv"] ["rows.csv"] (by decide) (by decide) (by decide)
    (by decide) (by decide) "/data"
  have hsame : safeSegment asciiTable "acme/eu" = safeSegment asciiTable "acme_eu" := by decide
  apply hnot
  simp only [namespacedPath, hsame]
  exact ⟨rfl, List.prefix_rfl⟩

end Etlantic.IoPolicy
