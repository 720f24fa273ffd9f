import Etlantic.Base.Dict
import Etlantic.Plan.Extensions

/-!
# Annotations of an optimized plan

`derive_optimized_plan` writes the rewrite hints of the chosen candidates into the
metadata of the plan: once as sanitized hints, and once more, key by key, what a candidate
asks for under `annotate`.  `PipelinePlan.from_dict` then refuses metadata that breaks the
rules of extension metadata.

The sanitizer drops keys by its own list and looks into mappings only; the annotations do
not pass through it.  So its keys are kept out of the plan exactly when no chosen candidate
has one inside a list of its hints or among its annotations.
-/

namespace Etlantic.Optimization

open ControlPlane (PyError)
open Plan

variable {host : PlanHost}

/-! ## The sanitizer -/

/-- `_SECRET_HINT_KEYS`. -/
def secretHintKeys : List String :=
  ["password", "secret", "token", "api_key", "apikey", "authorization", "credential",
    "credentials", "private_key", "access_key", "secret_key"]

/-- The keys `sanitize_hints` drops. -/
def isSecretHintKey (host : PlanHost) (key : String) : Bool :=
  lowerText host key ∈ secretHintKeys ||
    secretHintKeys.any fun fragment => containsText fragment (lowerText host key)

mutual

/-- The value kept for a hint: only mappings are looked into. -/
def sanitizeHint (host : PlanHost) : Json → Json
  | .obj fields => .obj (sanitizeHints host fields)
  | value => value

/-- `sanitize_hints`. -/
def sanitizeHints (host : PlanHost) : List (String × Json) → List (String × Json)
  | [] => []
  | (key, value) :: rest =>
      if isSecretHintKey host key then sanitizeHints host rest
      else (key, sanitizeHint host value) :: sanitizeHints host rest

end

/-! ## Candidates and plans -/

inductive CandidateDecision where
  | chosen
  | rejected
  | shadow
deriving DecidableEq

structure OptimizationCandidate where
  candidateId : String
  passId : String
  rewriteKind : String
  decision : CandidateDecision
  reason : String
  hints : List (String × Json)

structure PipelinePlan where
  /-- `_plan_metadata_strict` of the profile snapshot. -/
  strict : Bool
  metadata : Dict String Json
  /-- What `from_dict` raises about the other parts of the document, if anything. -/
  refused : Option PyError

/-- The entry of a chosen candidate under `rewrites`. -/
def rewriteOf (host : PlanHost) (candidate : OptimizationCandidate) : Json :=
  .obj [("candidate_id", .str candidate.candidateId), ("pass_id", .str candidate.passId),
    ("rewrite_kind", .str candidate.rewriteKind),
    ("hints", .obj (sanitizeHints host candidate.hints)), ("reason", .str candidate.reason)]

def annotationKey (key : String) : String := "etlantic.optimization." ++ key

/-- What a candidate asks for under `annotate`. -/
def annotateFields (candidate : OptimizationCandidate) : List (String × Json) :=
  match (Json.obj candidate.hints).field? "annotate" with
  | some (.obj fields) => fields.map fun field => (annotationKey field.1, field.2)
  | _ => []

def chosenOf (candidates : List OptimizationCandidate) : List OptimizationCandidate :=
  candidates.filter fun candidate => candidate.decision = .chosen

/-- The entries written to `annotations`, in order. -/
def annotationWrites (host : PlanHost) (candidates : List OptimizationCandidate) :
    List (String × Json) :=
  ("etlantic.optimization",
      .obj [("rewrites", .arr ((chosenOf candidates).map (rewriteOf host)))]) ::
    (chosenOf candidates).flatMap annotateFields

def annotations (host : PlanHost) (candidates : List OptimizationCandidate) : Dict String Json :=
  Dict.empty.setAll (annotationWrites host candidates)

/-- `derive_optimized_plan`. -/
def deriveOptimizedPlan (host : PlanHost) (baseline : PipelinePlan)
    (candidates : List OptimizationCandidate) : Except PyError PipelinePlan :=
  let metadata := baseline.metadata.setAll (annotations host candidates).entries
  match validateExtensionMetadata host "metadata" baseline.strict metadata.entries with
  | some error => .error error
  | none =>
      match baseline.refused with
      | some error => .error error
      | none => .ok { baseline with metadata := metadata }

/-! ## Keys the sanitizer drops -/

mutual

/-- No key of the value, at any depth, is one the sanitizer drops. -/
def clean (host : PlanHost) : Json → Bool
  | .obj fields => cleanFields host fields
  | .arr items => cleanItems host items
  | _ => true

def cleanItems (host : PlanHost) : List Json → Bool
  | [] => true
  | item :: rest => clean host item && cleanItems host rest

def cleanFields (host : PlanHost) : List (String × Json) → Bool
  | [] => true
  | (key, child) :: rest =>
      !isSecretHintKey host key && clean host child && cleanFields host rest

end

mutual

/-- The value has none of these keys but under one that is dropped on the way, and lists
are not looked into. -/
def cleanBesides (host : PlanHost) : Json → Bool
  | .obj fields => cleanBesidesFields host fields
  | value => clean host value

def cleanBesidesFields (host : PlanHost) : List (String × Json) → Bool
  | [] => true
  | (key, child) :: rest =>
      (isSecretHintKey host key || cleanBesides host child) && cleanBesidesFields host rest

end

mutual

theorem clean_sanitizeHint (host : PlanHost) : ∀ value : Json,
    clean host (sanitizeHint host value) = cleanBesides host value
  | .obj fields => by
      have hfields := cleanFields_sanitizeHints host fields
      simp only [sanitizeHint, clean, cleanBesides, hfields]
  | .arr items => by simp only [sanitizeHint, cleanBesides]
  | .null => by simp only [sanitizeHint, cleanBesides]
  | .bool _ => by simp only [sanitizeHint, cleanBesides]
  | .int _ => by simp only [sanitizeHint, cleanBesides]
  | .float _ => by simp only [sanitizeHint, cleanBesides]
  | .str _ => by simp only [sanitizeHint, cleanBesides]

/-- What the sanitizer leaves. -/
theorem cleanFields_sanitizeHints (host : PlanHost) : ∀ fields : List (String × Json),
    cleanFields host (sanitizeHints host fields) = cleanBesidesFields host fields
  | [] => by simp only [sanitizeHints, cleanFields, cleanBesidesFields]
  | (key, child) :: rest => by
      have hchild := clean_sanitizeHint host child
      have hrest := cleanFields_sanitizeHints host rest
      unfold sanitizeHints
      by_cases hkey : isSecretHintKey host key = true
      · rw [if_pos hkey, hrest]
        simp only [cleanBesidesFields, hkey, Bool.true_or, Bool.true_and]
      · have hkeep : isSecretHintKey host key = false := by simpa using hkey
        rw [if_neg hkey]
        simp only [cleanFields, cleanBesidesFields, hkeep, hchild, hrest, Bool.not_false,
          Bool.true_and, Bool.false_or]

end

/-- The keys that the entry of the rewrites has in any case. -/
def rewriteKeys : List String :=
  ["etlantic.optimization", "rewrites", "candidate_id", "pass_id", "rewrite_kind", "hints",
    "reason"]

theorem rewriteKeys_clean (host : PlanHost) {key : String} (h : key ∈ rewriteKeys) :
    isSecretHintKey host key = false := by
  have hclosed : ∀ key ∈ rewriteKeys, isAscii key = true ∧ asciiLower key ∉ secretHintKeys ∧
      secretHintKeys.all (fun fragment => !containsText fragment (asciiLower key)) = true := by
    decide +kernel
  obtain ⟨hascii, hlist, hfragments⟩ := hclosed key h
  unfold isSecretHintKey
  rw [lowerText_of_ascii hascii, decide_eq_false hlist, Bool.false_or, List.any_eq_false]
  intro fragment hmem
  simpa using List.all_eq_true.mp hfragments fragment hmem

theorem cleanItems_iff (host : PlanHost) (items : List Json) :
    cleanItems host items = true ↔ ∀ item ∈ items, clean host item = true := by
  induction items with
  | nil => simp [cleanItems]
  | cons item rest ih => simp only [cleanItems, Bool.and_eq_true, ih, List.forall_mem_cons]

theorem clean_rewriteOf (candidate : OptimizationCandidate) :
    clean host (rewriteOf host candidate) = cleanBesidesFields host candidate.hints := by
  have hkeys : ∀ key ∈ rewriteKeys, isSecretHintKey host key = false := fun _ h =>
    rewriteKeys_clean host h
  simp only [rewriteOf, clean, cleanFields, hkeys "candidate_id" (by decide),
    hkeys "pass_id" (by decide), hkeys "rewrite_kind" (by decide), hkeys "hints" (by decide),
    hkeys "reason" (by decide), cleanFields_sanitizeHints, Bool.not_false, Bool.true_and,
    Bool.and_true]

/-- An entry of the metadata has no key that the sanitizer drops. -/
def EntryClean (host : PlanHost) (key : String) (value : Json) : Prop :=
  isSecretHintKey host key = false ∧ clean host value = true

theorem entryClean_rewrites {candidates : List OptimizationCandidate} :
    EntryClean host "etlantic.optimization"
        (.obj [("rewrites", .arr (candidates.map (rewriteOf host)))]) ↔
      ∀ candidate ∈ candidates, cleanBesidesFields host candidate.hints = true := by
  have hkeys : ∀ key ∈ rewriteKeys, isSecretHintKey host key = false := fun _ h =>
    rewriteKeys_clean host h
  unfold EntryClean
  simp only [clean, cleanFields, hkeys "etlantic.optimization" (by decide),
    hkeys "rewrites" (by decide), Bool.not_false, Bool.true_and, Bool.and_true, true_and,
    cleanItems_iff, List.forall_mem_map, clean_rewriteOf]

/-! ## The metadata of the derived plan -/

theorem annotationKey_ne (key : String) : annotationKey key ≠ "etlantic.optimization" := by
  intro h
  have hlength : "etlantic.optimization.".length + key.length
      = "etlantic.optimization".length := by
    rw [← String.length_append]
    exact congrArg String.length h
  rw [show "etlantic.optimization.".length = 22 from rfl,
    show "etlantic.optimization".length = 21 from rfl] at hlength
  omega

/-- Nothing in an annotation that stays has a key of the sanitizer's list, and the hints have
such keys only where the sanitizer finds them. -/
structure KeepsOut (host : PlanHost) (candidates : List OptimizationCandidate) : Prop where
  hints : ∀ candidate ∈ chosenOf candidates, cleanBesidesFields host candidate.hints = true
  annotate : ∀ before key value after,
    (chosenOf candidates).flatMap annotateFields = before ++ (key, value) :: after →
      key ∈ after.map Prod.fst ∨ EntryClean host key value

/-- An annotation that no later one overwrites is what is found under its key. -/
theorem annotations_iff {candidates : List OptimizationCandidate} {key : String} {value : Json} :
    (annotations host candidates).get? key = some value ↔
      (key = "etlantic.optimization" ∧
        value = .obj [("rewrites", .arr ((chosenOf candidates).map (rewriteOf host)))]) ∨
      ∃ before after, (chosenOf candidates).flatMap annotateFields =
        before ++ (key, value) :: after ∧ key ∉ after.map Prod.fst := by
  have hprefixed : ∀ entry ∈ (chosenOf candidates).flatMap annotateFields,
      entry.1 ≠ "etlantic.optimization" := by
    intro entry hmem
    obtain ⟨candidate, -, hentry⟩ := List.mem_flatMap.mp hmem
    unfold annotateFields at hentry
    split at hentry
    · obtain ⟨field, -, rfl⟩ := List.mem_map.mp hentry
      exact annotationKey_ne field.1
    · cases hentry
  unfold annotations
  rw [Dict.get?_setAll, Dict.get?_empty]
  unfold annotationWrites
  constructor
  · rintro (⟨before, after, hsplit, hlast⟩ | ⟨-, hnone⟩)
    · cases before with
      | nil =>
          obtain ⟨hentry, rfl⟩ := List.cons.inj hsplit
          obtain ⟨rfl, rfl⟩ := Prod.mk.inj hentry
          exact .inl ⟨rfl, rfl⟩
      | cons first before =>
          obtain ⟨rfl, hrest⟩ := List.cons.inj hsplit
          exact .inr ⟨before, after, hrest, hlast⟩
    · cases hnone
  · rintro (⟨rfl, rfl⟩ | ⟨before, after, hsplit, hlast⟩)
    · refine .inl ⟨[], _, rfl, ?_⟩
      intro hmem
      obtain ⟨entry, hentry, hkey⟩ := List.mem_map.mp hmem
      exact hprefixed entry hentry hkey
    · rw [hsplit]
      refine .inl ⟨("etlantic.optimization", .obj [("rewrites",
        .arr ((chosenOf candidates).map (rewriteOf host)))]) :: before, after, rfl, hlast⟩

/-- The annotations are clean exactly when the candidates keep the keys out. -/
theorem annotations_clean {candidates : List OptimizationCandidate} :
    (annotations host candidates).All (EntryClean host) ↔ KeepsOut host candidates := by
  constructor
  · intro h
    refine ⟨?_, ?_⟩
    · exact entryClean_rewrites.mp (h _ _ (annotations_iff.mpr (.inl ⟨rfl, rfl⟩)))
    · intro before key value after hsplit
      by_cases hlater : key ∈ after.map Prod.fst
      · exact .inl hlater
      · exact .inr (h key value (annotations_iff.mpr (.inr ⟨before, after, hsplit, hlater⟩)))
  · intro h key value hget
    rcases annotations_iff.mp hget with ⟨rfl, rfl⟩ | ⟨before, after, hsplit, hlast⟩
    · exact entryClean_rewrites.mpr h.hints
    · exact (h.annotate before key value after hsplit).resolve_left hlast

/-- Under a key of the annotations the plan has the annotation. -/
theorem setAll_annotations {metadata : Dict String Json}
    {candidates : List OptimizationCandidate} {key : String} {value : Json}
    (hkey : (annotations host candidates).contains key = true) :
    (metadata.setAll (annotations host candidates).entries).get? key = some value ↔
      (annotations host candidates).get? key = some value := by
  obtain ⟨held, hheld⟩ := Dict.contains_eq_true.mp hkey
  have hentry := Dict.mem_entries_iff.mpr hheld
  rw [Dict.get?_setAll]
  constructor
  · rintro (⟨before, after, hsplit, -⟩ | ⟨habsent, -⟩)
    · refine Dict.mem_entries_iff.mp ?_
      rw [hsplit]
      exact List.mem_append_right _ List.mem_cons_self
    · exact absurd (List.mem_map_of_mem (f := Prod.fst) hentry) habsent
  · intro hget
    obtain ⟨before, after, hsplit⟩ := List.append_of_mem (Dict.mem_entries_iff.mpr hget)
    refine .inl ⟨before, after, hsplit, ?_⟩
    have hnodup := (annotations host candidates).nodup
    rw [hsplit, List.map_append, List.map_cons] at hnodup
    exact (List.nodup_cons.mp (List.nodup_append.mp hnodup).2.1).1

/-- The metadata that the optimizer wrote into the plan has no secret material by the rules
of plan metadata, and no key the sanitizer drops. -/
def SecretFree (host : PlanHost) (candidates : List OptimizationCandidate)
    (plan : PipelinePlan) : Prop :=
  rejectNestedSecretMaterial host "metadata" (.obj plan.metadata.entries) = none ∧
    ∀ key value, (annotations host candidates).contains key = true →
      plan.metadata.get? key = some value → EntryClean host key value

/-- A derived plan is free of secrets exactly when no chosen candidate has a key that the
sanitizer drops inside a list of its hints, or among its annotations that stay. -/
theorem derived_plan_secret_free_iff (host : PlanHost) (baseline plan : PipelinePlan)
    (candidates : List OptimizationCandidate)
    (h : deriveOptimizedPlan host baseline candidates = .ok plan) :
    SecretFree host candidates plan ↔ KeepsOut host candidates := by
  unfold deriveOptimizedPlan at h
  dsimp only at h
  split at h
  · cases h
  rename_i hvalid
  split at h
  · cases h
  obtain rfl := Except.ok.inj h
  have hmetadata := rejectNested_of_validate hvalid
  rw [← annotations_clean]
  constructor
  · rintro ⟨-, hclean⟩ key value hget
    have hkey : (annotations host candidates).contains key = true :=
      Dict.contains_eq_true.mpr ⟨value, hget⟩
    exact hclean key value hkey ((setAll_annotations hkey).mpr hget)
  · intro hclean
    exact ⟨hmetadata, fun key value hkey hget =>
      hclean key value ((setAll_annotations hkey).mp hget)⟩

def sampleHost : PlanHost where
  lower := asciiLower
  repr key := "'" ++ key ++ "'"

def sampleBaseline : PipelinePlan := ⟨false, .empty, none⟩

def sampleCandidate (hints : List (String × Json)) : OptimizationCandidate :=
  ⟨"c1", "fusion", "fuse", .chosen, "cheaper", hints⟩

def samplePlan (hints : List (String × Json)) : PipelinePlan :=
  { sampleBaseline with
    metadata := Dict.empty.setAll (annotations sampleHost [sampleCandidate hints]).entries }

theorem derive_sample {hints : List (String × Json)}
    (h : (validateExtensionMetadata sampleHost "metadata" false
      (samplePlan hints).metadata.entries).isNone = true) :
    deriveOptimizedPlan sampleHost sampleBaseline [sampleCandidate hints] =
      .ok (samplePlan hints) := by
  have hvalid := Option.isNone_iff_eq_none.mp h
  unfold deriveOptimizedPlan
  dsimp only
  rw [show validateExtensionMetadata sampleHost "metadata" sampleBaseline.strict
    (sampleBaseline.metadata.setAll
      (annotations sampleHost [sampleCandidate hints]).entries).entries = none from hvalid]
  rfl

/-- A candidate whose hints keep tokens for the sanitizer to drop. -/
def tokenHints : List (String × Json) :=
  [("auth_tokens", .str "abc"), ("stage", .obj [("auth_tokens", .str "abc")])]

theorem sample_plan_secret_free :
    SecretFree sampleHost [sampleCandidate tokenHints] (samplePlan tokenHints) ↔
      KeepsOut sampleHost [sampleCandidate tokenHints] :=
  derived_plan_secret_free_iff sampleHost sampleBaseline (samplePlan tokenHints) _
    (derive_sample (by decide +kernel))

/-- What the candidate asks to annotate is not sanitized. -/
def annotatingHints : List (String × Json) :=
  [("annotate", .obj [("auth_tokens", .str "abc")])]

theorem annotated_tokens_reach_plan :
    ∃ host baseline candidates plan,
      deriveOptimizedPlan host baseline candidates = .ok plan ∧
        ¬ SecretFree host candidates plan := by
  refine ⟨sampleHost, sampleBaseline, [sampleCandidate annotatingHints],
    samplePlan annotatingHints, derive_sample (by decide +kernel), ?_⟩
  rintro ⟨-, hclean⟩
  have hkey := (hclean "etlantic.optimization.auth_tokens" (.str "abc") (by decide +kernel)
    (by rfl)).1
  have hsecret : isSecretHintKey sampleHost "etlantic.optimization.auth_tokens" = true := by
    decide +kernel
  rw [hsecret] at hkey
  cases hkey

end Etlantic.Optimization
