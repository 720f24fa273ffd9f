import Mathlib.Data.Fintype.EquivFin
import Mathlib.Data.List.Dedup
import Etlantic.Base.Text

/-!
# Paths

A path is an anchor and its components; empty components and single dots are dropped where
a text is read as a path.  A double dot is kept and takes back a component only when the
path is normalised, from the left to the right.

Components that never take back more than they brought lead to the same place behind every
path (`foldl_push_landing`).
-/

namespace Etlantic.PosixPath

structure PurePath where
  /-- Empty for a relative path. -/
  anchor : String
  parts : List String
deriving DecidableEq

def isKept (part : String) : Bool := part ≠ "" && part ≠ "."

/-- `PurePosixPath(text)`. -/
def parse (text : String) : PurePath where
  anchor :=
    if hasPrefix "/" text then
      if hasPrefix "//" text && !hasPrefix "///" text then "//" else "/"
    else ""
  parts := (splitAll '/' text).filter isKept

/-- `path / text`. -/
def PurePath.join (p : PurePath) (text : String) : PurePath :=
  if (parse text).anchor = "" then ⟨p.anchor, p.parts ++ (parse text).parts⟩ else parse text

def PurePath.joinpath (p : PurePath) (texts : List String) : PurePath := texts.foldl PurePath.join p

/-- One more component behind a normal path. -/
def push (stack : List String) (part : String) : List String :=
  if part = ".." then stack.dropLast else stack ++ [part]

/-- The absolute path without double dots, from a working directory. -/
def PurePath.normal (cwd p : PurePath) : PurePath :=
  if p.anchor = "" then ⟨cwd.anchor, p.parts.foldl push (cwd.parts.foldl push [])⟩
  else ⟨p.anchor, p.parts.foldl push []⟩

/-- A path equals another one or is an ancestor of it. -/
def PurePath.AtOrAbove (p q : PurePath) : Prop := p.anchor = q.anchor ∧ p.parts <+: q.parts

instance (p q : PurePath) : Decidable (p.AtOrAbove q) :=
  inferInstanceAs (Decidable (p.anchor = q.anchor ∧ p.parts <+: q.parts))

def PurePath.StrictlyBelow (q p : PurePath) : Prop := p.AtOrAbove q ∧ p ≠ q

/-- Where components lead, unless they take back more than they brought. -/
def landing : List String → List String → Option (List String)
  | stack, [] => some stack
  | stack, part :: rest =>
      if isKept part = false then landing stack rest
      else if part = ".." then
        if stack = [] then none else landing stack.dropLast rest
      else landing (stack ++ [part]) rest

section Reading

variable {s : String}

theorem splitAll_plain (h : '/' ∉ s.toList) : splitAll '/' s = [s] := by
  unfold splitAll
  rw [List.splitOn_eq_singleton h, List.map_singleton, String.ofList_toList]

theorem hasPrefix_slash_eq_false (h : '/' ∉ s.toList) : hasPrefix "/" s = false := by
  unfold hasPrefix
  rw [show "/".toList = ['/'] from rfl]
  cases hs : s.toList with
  | nil => rfl
  | cons c rest =>
      have hc : ('/' == c) = false := by
        rw [beq_eq_false_iff_ne]
        rintro rfl
        exact h (by rw [hs]; exact List.mem_cons_self)
      simp only [List.isPrefixOf, hc, Bool.false_and]

/-- A text without a slash is read as one component. -/
theorem parse_plain (h : '/' ∉ s.toList) : parse s = ⟨"", [s].filter isKept⟩ := by
  unfold parse
  rw [hasPrefix_slash_eq_false h, splitAll_plain h]
  rfl

theorem parse_root (h : '/' ∉ s.toList) (hs : isKept s = true) :
    parse (String.ofList ('/' :: s.toList)) = ⟨"/", [s]⟩ := by
  have hsplit : splitAll '/' (String.ofList ('/' :: s.toList)) = ["", s] := by
    unfold splitAll
    have hcons : List.splitOn '/' ([] ++ '/' :: s.toList) = [] :: s.toList.splitOn '/' :=
      List.splitOn_append_cons_self_of_not_mem List.not_mem_nil s.toList
    rw [String.toList_ofList, ← List.nil_append ('/' :: s.toList), hcons,
      List.splitOn_eq_singleton h, List.map_cons, List.map_singleton, String.ofList_toList,
      String.ofList_nil]
  have hslash : hasPrefix "/" (String.ofList ('/' :: s.toList)) = true := by
    unfold hasPrefix
    rw [String.toList_ofList]
    simp [List.isPrefixOf]
  have hslashes : hasPrefix "//" (String.ofList ('/' :: s.toList)) = false := by
    have hplain := hasPrefix_slash_eq_false h
    unfold hasPrefix at hplain ⊢
    rw [String.toList_ofList]
    simpa [List.isPrefixOf] using hplain
  unfold parse
  rw [hsplit, hslash, hslashes]
  have hfilter : ["", s].filter isKept = [s] := by
    have hempty : isKept "" = false := by decide
    rw [List.filter_cons_of_neg (by simp [hempty]), List.filter_cons_of_pos hs, List.filter_nil]
  rw [hfilter]
  rfl

theorem joinpath_plain : ∀ {texts : List String} (p : PurePath), (∀ s ∈ texts, '/' ∉ s.toList) →
    p.joinpath texts = ⟨p.anchor, p.parts ++ texts.filter isKept⟩
  | [], p, _ => by
      rw [List.filter_nil, List.append_nil]
      rfl
  | s :: rest, p, h => by
      have hs : '/' ∉ s.toList := h s List.mem_cons_self
      have hrest : ∀ t ∈ rest, '/' ∉ t.toList := fun t ht => h t (List.mem_cons_of_mem _ ht)
      have hjoin : p.join s = ⟨p.anchor, p.parts ++ [s].filter isKept⟩ := by
        unfold PurePath.join
        rw [parse_plain hs, if_pos rfl]
      have ih := joinpath_plain (p.join s) hrest
      unfold PurePath.joinpath at ih ⊢
      rw [List.foldl_cons, ih, hjoin, List.append_assoc, ← List.filter_append]
      rfl

end Reading

section Normal

variable {base stack parts : List String}

theorem normal_append (cwd : PurePath) (anchor : String) (parts more : List String) :
    PurePath.normal cwd ⟨anchor, parts ++ more⟩ =
      ⟨(PurePath.normal cwd ⟨anchor, parts⟩).anchor,
        more.foldl push (PurePath.normal cwd ⟨anchor, parts⟩).parts⟩ := by
  unfold PurePath.normal
  split <;> simp only [List.foldl_append]

theorem foldl_push_landing : ∀ {parts stack result : List String},
    landing stack parts = some result →
      (parts.filter isKept).foldl push (base ++ stack) = base ++ result
  | [], stack, result, h => by
      rw [landing, Option.some.injEq] at h
      rw [h]
      rfl
  | part :: rest, stack, result, h => by
      unfold landing at h
      by_cases hkept : isKept part = false
      · rw [if_pos hkept] at h
        rw [List.filter_cons_of_neg (by simp [hkept])]
        exact foldl_push_landing h
      · rw [if_neg hkept] at h
        rw [List.filter_cons_of_pos (by simpa using hkept), List.foldl_cons]
        by_cases hdots : part = ".."
        · rw [if_pos hdots] at h
          by_cases hempty : stack = []
          · rw [if_pos hempty] at h
            cases h
          · rw [if_neg hempty] at h
            rw [push, if_pos hdots, List.dropLast_append_of_ne_nil hempty]
            exact foldl_push_landing h
        · rw [if_neg hdots] at h
          rw [push, if_neg hdots, List.append_assoc]
          exact foldl_push_landing h

theorem mem_foldl_push {x : String} : ∀ {parts stack : List String},
    x ∈ parts.foldl push stack → x ∈ stack ∨ x ∈ parts
  | [], _, h => .inl h
  | part :: rest, stack, h => by
      rw [List.foldl_cons] at h
      rcases mem_foldl_push h with h | h
      · unfold push at h
        split at h
        · exact .inl (List.dropLast_subset _ h)
        · rcases List.mem_append.mp h with h | h
          · exact .inl h
          · exact .inr (List.mem_singleton.mp h ▸ List.mem_cons_self)
      · exact .inr (List.mem_cons_of_mem _ h)

/-- Components that take back more than they brought lead out of a directory whose name
is none of theirs. -/
theorem not_mem_foldl_push_of_leaving {root : String} : ∀ {parts stack : List String},
    root ∉ parts → root ∉ stack → landing stack parts = none →
      root ∉ (parts.filter isKept).foldl push (root :: stack)
  | [], _, _, _, h => by cases h
  | part :: rest, stack, hparts, hstack, h => by
      have hrest : root ∉ rest := fun hmem => hparts (List.mem_cons_of_mem _ hmem)
      unfold landing at h
      by_cases hkept : isKept part = false
      · rw [if_pos hkept] at h
        rw [List.filter_cons_of_neg (by simp [hkept])]
        exact not_mem_foldl_push_of_leaving hrest hstack h
      · rw [if_neg hkept] at h
        rw [List.filter_cons_of_pos (by simpa using hkept), List.foldl_cons]
        by_cases hdots : part = ".."
        · rw [if_pos hdots] at h
          rw [push, if_pos hdots]
          by_cases hempty : stack = []
          · subst hempty
            intro hmem
            rcases mem_foldl_push hmem with hmem | hmem
            · exact List.not_mem_nil hmem
            · exact hrest (List.mem_filter.mp hmem).1
          · rw [if_neg hempty] at h
            rw [List.dropLast_cons_of_ne_nil hempty]
            exact not_mem_foldl_push_of_leaving hrest
              (fun hmem => hstack (List.dropLast_subset _ hmem)) h
        · rw [if_neg hdots] at h
          rw [push, if_neg hdots]
          have hstack' : root ∉ stack ++ [part] := by
            intro hmem
            rcases List.mem_append.mp hmem with hmem | hmem
            · exact hstack hmem
            · exact hparts (List.mem_singleton.mp hmem ▸ List.mem_cons_self)
          exact not_mem_foldl_push_of_leaving hrest hstack' h

/-- A renaming of components that keeps what has a meaning in a path. -/
theorem landing_map {f : String → String} (hkept : ∀ s, isKept (f s) = isKept s)
    (hdots : ∀ s, f s = ".." ↔ s = "..") : ∀ (parts stack : List String),
      landing (stack.map f) (parts.map f) = (landing stack parts).map (List.map f)
  | [], _ => rfl
  | part :: rest, stack => by
      rw [List.map_cons, landing, landing, hkept]
      split
      · exact landing_map hkept hdots rest stack
      · simp only [hdots, List.map_eq_nil_iff]
        split
        · split
          · rfl
          · rw [← landing_map hkept hdots rest stack.dropLast, List.map_dropLast]
        · rw [← landing_map hkept hdots rest (stack ++ [part]), List.map_append]
          rfl

end Normal

/-- There is a name that none of the texts has. -/
theorem exists_fresh (texts : List String) :
    ∃ name : String, name ∉ texts ∧ '/' ∉ name.toList ∧ isKept name = true ∧ name ≠ ".." := by
  obtain ⟨n, hn⟩ := Infinite.exists_notMem_finset
    ((texts.map String.length).toFinset ∪ Finset.range 3)
  rw [Finset.mem_union, List.mem_toFinset, Finset.mem_range, not_or] at hn
  have hlength : (String.ofList (List.replicate n 'x')).length = n := by
    rw [String.length_ofList, List.length_replicate]
  have hne : ∀ s : String, s.length < 3 → String.ofList (List.replicate n 'x') ≠ s := by
    rintro s hs rfl
    exact hn.2 (hlength ▸ hs)
  refine ⟨String.ofList (List.replicate n 'x'), ?_, ?_, ?_, hne ".." (by decide)⟩
  · intro hmem
    exact hn.1 (hlength ▸ List.mem_map_of_mem hmem)
  · rw [String.toList_ofList, List.mem_replicate]
    rintro ⟨-, hx⟩
    exact absurd hx (by decide)
  · unfold isKept
    rw [Bool.and_eq_true, decide_eq_true_iff, decide_eq_true_iff]
    exact ⟨hne "" (by decide), hne "." (by decide)⟩

end Etlantic.PosixPath
