import Etlantic.Base.Checked
import Etlantic.Base.Groups
import Etlantic.Base.Json
import Etlantic.Base.Repr
import Mathlib.Data.Finset.Image
import Mathlib.Data.List.Sort

/-!
# Selection of optimization candidates

`select_candidates` sends every candidate through a row of gates, each of which can only
take a decision back, and then keeps the best of those that are still chosen.  The others
are marked as dominated in their hints.  The winner is told by its id.
-/

namespace Etlantic.Optimization.Selection

open Checked

/-! ## Candidates -/

inductive Decision where
  | chosen
  | rejected
  | shadow
deriving DecidableEq

inductive ProofStatus where
  | proven
  | rejected
  | deferred
deriving DecidableEq

inductive PolicyResult where
  | accepted
  | rejected
  | notEvaluated
deriving DecidableEq

def PolicyResult.value : PolicyResult → String
  | .accepted => "accepted"
  | .rejected => "rejected"
  | .notEvaluated => "not_evaluated"

inductive CapabilityResult where
  | supported
  | unsupported
  | unknown
deriving DecidableEq

def CapabilityResult.value : CapabilityResult → String
  | .supported => "supported"
  | .unsupported => "unsupported"
  | .unknown => "unknown"

structure ProofObligation where
  kind : String
  status : ProofStatus
  detail : String
  boundaries : List String

/-- The entries of an evidence reference, as `str(value or "")`. -/
structure EvidenceRef where
  evidenceId : String
  kind : String

structure OptimizationCandidate (S : Type) where
  candidateId : String
  passId : String
  rewriteKind : String
  decision : Decision
  expectedBenefit : List (String × Json)
  proofs : List ProofObligation
  evidenceRefs : List EvidenceRef
  policyResult : PolicyResult
  capabilityResult : CapabilityResult
  reason : String
  costScores : Dict String S
  hints : Dict String Json

/-- `_KNOWN_REWRITE_KINDS`. -/
def knownRewriteKinds : List String :=
  ["pushdown", "pruning", "fusion", "materialization", "reuse", "repair_backfill",
    "implementation_selection", "cross_backend"]

/-! ## Evidence -/

structure EvidenceRecord where
  evidenceId : String
  kind : String
  subject : String
  /-- `json.dumps(value, sort_keys=True, default=str)`. -/
  value : String
  expiresAt : Option String

/-- The records under their ids. -/
structure EvidenceStore where
  byId : Dict String EvidenceRecord
  keyed : ∀ id record, byId.get? id = some record → record.evidenceId = id

/-- Scores are compared as floats are; texts are parsed and quoted as Python does it. -/
structure SelectionHost (S : Type) where
  zero : S
  greater : S → S → Bool
  less : S → S → Bool
  /-- The time of the call. -/
  now : Int
  /-- `datetime.fromisoformat(text.replace("Z", "+00:00"))`, in UTC if it names no zone. -/
  fromisoformat : String → Option Int
  isPrintable : Char → Bool
  /-- How a set of kinds is iterated. -/
  listKinds : Finset String → List String

section Evidence

variable {S : Type} (host : SelectionHost S)

/-- `is_stale`. -/
def isStale (record : EvidenceRecord) : Bool :=
  match record.expiresAt with
  | none => false
  | some text =>
      if text = "" then false
      else
        match host.fromisoformat text with
        | none => true
        | some expiry => expiry ≤ host.now

variable (store : EvidenceStore)

/-- `records()`. -/
def records : List EvidenceRecord :=
  (store.byId.entries.map Prod.snd).insertionSort fun a b => a.evidenceId ≤ b.evidenceId

/-- `by_kind(kind)`. -/
def byKind (kind : String) : List EvidenceRecord := (records store).filter (·.kind = kind)

/-- The records of one kind and subject. -/
def groups : Dict (String × String) (List EvidenceRecord) :=
  (records store).foldl (fun d record => d.append (record.kind, record.subject) record) .empty

/-- `conflicts()`. -/
def conflicts : List String :=
  ((groups store).entries.insertionSort fun a b =>
      a.1.1 < b.1.1 ∨ a.1.1 = b.1.1 ∧ a.1.2 ≤ b.1.2).filterMap fun e =>
    if 1 < (e.2.map EvidenceRecord.value).dedup.length then some (e.1.1 ++ ":" ++ e.1.2) else none

def staleIds : List String := ((records store).filter (isStale host)).map EvidenceRecord.evidenceId

def missingKinds (required : Finset String) : List String :=
  (host.listKinds required).filter fun kind => byKind store kind = []

end Evidence

/-! ## Diagnostics -/

inductive Severity where
  | warning
  | error
deriving DecidableEq

inductive DiagnosticData (S : Type) where
  | none
  | rewriteKind (kind : String)
  | budget (limits : List (String × S)) (scores : Dict String S)

structure Diagnostic (S : Type) where
  code : String
  severity : Severity
  message : String
  path : List String
  metadata : DiagnosticData S

/-- `", ".join(parts)`. -/
def joined (parts : List String) : String := String.intercalate ", " parts

/-- `sorted(set(parts))`. -/
def sortedSet (parts : List String) : List String := parts.dedup.insertionSort (· ≤ ·)

/-! ## The gates -/

section Gates

variable {S ε : Type} (host : SelectionHost S)

/-- `_reject_candidate`. -/
def rejectCandidate (candidate : OptimizationCandidate S) (reason : String) :
    OptimizationCandidate S :=
  { candidate with decision := .rejected, policyResult := .rejected, reason := reason }

/-- `_candidate_evidence_issues`: the code of a diagnostic, and a reason. -/
def candidateEvidenceIssues (store : EvidenceStore) (candidate : OptimizationCandidate S) :
    Option (String × String) :=
  let named := candidate.evidenceRefs.filter (·.evidenceId ≠ "")
  let missing := named.filter fun ref => store.byId.get? ref.evidenceId = none
  let missingKinds := named.filterMap fun ref =>
    match store.byId.get? ref.evidenceId with
    | none => if ref.kind = "" then none else some ref.kind
    | some record =>
        if ref.kind ≠ "" ∧ record.kind ≠ ref.kind ∧ byKind store ref.kind = [] then some ref.kind
        else none
  let stale := named.filter fun ref =>
    match store.byId.get? ref.evidenceId with
    | none => false
    | some record => ref.evidenceId ∈ staleIds host store || isStale host record
  if missing ≠ [] then
    some ("PMOPT100", "unresolved evidence ids: " ++
      joined (sortedSet (missing.map EvidenceRef.evidenceId)))
  else if missingKinds ≠ [] then
    some ("PMOPT100", "missing evidence kinds: " ++ joined (sortedSet missingKinds))
  else if stale ≠ [] then
    some ("PMOPT101", "stale evidence ids: " ++
      joined (sortedSet (stale.map EvidenceRef.evidenceId)))
  else none

/-- What is decided of a candidate so far. -/
structure Verdict (S : Type) where
  decision : Decision
  policy : PolicyResult
  reason : String
  diagnostics : List (Diagnostic S)

/-- `budget.exceeds(scores)`. -/
def exceeds (limits : List (String × S)) (scores : Dict String S) : List String :=
  (limits.filter fun limit => (scores.get? limit.1).any fun score =>
    host.greater score limit.2).map Prod.fst

def budgetGate (limits : List (String × S)) (scores : Dict String S)
    (candidate : OptimizationCandidate S) (v : Verdict S) : Verdict S :=
  let breached := exceeds host limits scores
  if breached = [] then v
  else
    let reason := "budget exceeded: " ++ joined breached
    { decision := .rejected
      policy := .rejected
      reason := reason
      diagnostics := v.diagnostics ++ [⟨"PMOPT130", .warning, reason,
        ["optimization", "budget", candidate.candidateId], .budget limits scores⟩] }

def proofGate (candidate : OptimizationCandidate S) (v : Verdict S) : Verdict S :=
  if candidate.proofs.any (·.status = .rejected) then
    { decision := .rejected
      policy := .rejected
      reason := "proof rejected"
      diagnostics := v.diagnostics ++ [⟨"PMOPT111", .error, "proof rejected",
        ["optimization", "proof", candidate.candidateId], .none⟩] }
  else if (candidate.proofs = [] ∨ candidate.proofs.any (·.status = .deferred)) ∧
      v.decision = .chosen then
    { v with
      decision := .rejected
      reason := "missing or deferred semantic proof"
      diagnostics := v.diagnostics ++ [⟨"PMOPT110", .warning, "missing or deferred semantic proof",
        ["optimization", "proof", candidate.candidateId], .none⟩] }
  else v

def capabilityGate (candidate : OptimizationCandidate S) (v : Verdict S) : Verdict S :=
  if candidate.capabilityResult ≠ .supported ∧ v.decision = .chosen then
    let reason := if candidate.capabilityResult = .unsupported then
        "backend capability unsupported"
      else "capability not confirmed (" ++ candidate.capabilityResult.value ++ ")"
    { v with
      decision := .rejected
      reason := reason
      diagnostics := v.diagnostics ++ [⟨"PMOPT121", .error, reason,
        ["optimization", "capability", candidate.candidateId], .none⟩] }
  else v

def policyGate (candidate : OptimizationCandidate S) (v : Verdict S) : Verdict S :=
  if candidate.policyResult ≠ .accepted ∧ v.decision = .chosen then
    let reason := if candidate.policyResult = .rejected then "policy rejected"
      else "policy not accepted (" ++ candidate.policyResult.value ++ ")"
    { decision := .rejected
      policy := .rejected
      reason := reason
      diagnostics := v.diagnostics ++ [⟨"PMOPT120", .error, reason,
        ["optimization", "policy", candidate.candidateId], .none⟩] }
  else v

/-- The gates behind the score, in order. -/
def judge (limits : List (String × S)) (scores : Dict String S)
    (candidate : OptimizationCandidate S) : Verdict S :=
  policyGate candidate (capabilityGate candidate (proofGate candidate
    (budgetGate host limits scores candidate
      ⟨candidate.decision, candidate.policyResult, candidate.reason, []⟩)))

/-- One turn of the loop over the candidates. -/
def scoreCandidate (store : EvidenceStore)
    (score : OptimizationCandidate S → Except ε (Dict String S)) (limits : List (String × S))
    (candidate : OptimizationCandidate S) :
    Except ε (OptimizationCandidate S × List (Diagnostic S)) :=
  if candidate.rewriteKind ∉ knownRewriteKinds then
    let kind := String.ofList (Repr.text host.isPrintable candidate.rewriteKind)
    .ok (rejectCandidate candidate ("unknown rewrite kind " ++ kind),
      [⟨"PMOPT112", .error, "Rewrite kind " ++ kind ++ " is not a known optimization kind; " ++
          "expansion/stream rewrites are rejected",
        ["optimization", "rewrite", candidate.candidateId], .rewriteKind candidate.rewriteKind⟩])
  else if conflicts store ≠ [] ∧ candidate.decision ≠ .rejected then
    .ok (rejectCandidate candidate "rejected due to conflicting evidence", [])
  else
    match candidateEvidenceIssues host store candidate, candidate.decision with
    | some (code, reason), .chosen =>
        .ok (rejectCandidate candidate ("rejected due to " ++ reason),
          [⟨code, .warning, "Candidate " ++ candidate.candidateId ++ ": " ++ reason,
            ["optimization", "evidence", candidate.candidateId], .none⟩])
    | _, _ => (score candidate).map fun scores =>
        let v := judge host limits scores candidate
        ({ candidate with
            decision := v.decision
            policyResult := v.policy
            reason := v.reason
            costScores := scores }, v.diagnostics)

/-- `min(chosen, key=lambda c: c.cost_scores.get(key, 0.0))`. -/
def cheapest (key : String) (first : OptimizationCandidate S)
    (rest : List (OptimizationCandidate S)) : OptimizationCandidate S :=
  let cost := fun c : OptimizationCandidate S => (c.costScores.get? key).getD host.zero
  rest.foldl (fun best c => if host.less (cost c) (cost best) then c else best) first

/-- A chosen candidate other than the best becomes a shadow that names it. -/
def dominate (key : String) (best candidate : OptimizationCandidate S) : OptimizationCandidate S :=
  if candidate.decision = .chosen ∧ candidate.candidateId ≠ best.candidateId then
    { candidate with
      decision := .shadow
      reason := "dominated by " ++ best.candidateId ++ " on " ++ key
      hints := (candidate.hints.set "dominated" (.bool true)).set "dominated_by"
        (.str best.candidateId) }
  else candidate

def refine (key : String) (scored : List (OptimizationCandidate S)) :
    List (OptimizationCandidate S) :=
  match scored.filter fun c => c.decision = .chosen with
  | first :: second :: rest =>
      scored.map (dominate key (cheapest host key first (second :: rest)))
  | _ => scored

/-- The diagnostics about the evidence store as a whole. -/
def evidenceDiagnostics (store : EvidenceStore) (candidates : List (OptimizationCandidate S)) :
    List (Diagnostic S) :=
  let required := ((candidates.flatMap fun c => c.evidenceRefs.map EvidenceRef.kind).filter
    (· ≠ "")).toFinset
  let missing := missingKinds host store required
  (if missing = [] then [] else
    [⟨"PMOPT100", .warning, "Missing evidence kinds: " ++ joined missing ++
      "; rejecting unjustified rewrites", ["optimization", "evidence"], .none⟩]) ++
  (if staleIds host store = [] then [] else
    [⟨"PMOPT101", .warning, "Stale evidence ids: " ++ joined (staleIds host store) ++
      "; rejecting unjustified rewrites", ["optimization", "evidence"], .none⟩]) ++
  (if conflicts store = [] then [] else
    [⟨"PMOPT102", .error, "Conflicting evidence subjects: " ++ joined (conflicts store) ++
      "; rejecting unjustified rewrites", ["optimization", "evidence"], .none⟩])

/-- `select_candidates`. -/
def selectCandidates (store : EvidenceStore)
    (score : OptimizationCandidate S → Except ε (Dict String S)) (limits : List (String × S))
    (objective : String) (candidates : List (OptimizationCandidate S)) :
    Except ε (List (OptimizationCandidate S) × List (Diagnostic S)) := do
  let scored ← candidates.mapM (scoreCandidate host store score limits)
  return (refine host objective (scored.map Prod.fst),
    evidenceDiagnostics host store candidates ++ scored.flatMap Prod.snd)

end Gates

/-! ## What the selection promises -/

section Promise

variable {S : Type} (host : SelectionHost S) (store : EvidenceStore)
  (limits : List (String × S))

/-- Records of one kind and subject have the same value. -/
def Agreed : Prop :=
  ∀ id id' record record', store.byId.get? id = some record → store.byId.get? id' = some record' →
    record.kind = record'.kind → record.subject = record'.subject → record.value = record'.value

/-- The returned candidate `out` of the candidate `c` is entitled to be chosen. -/
structure Justified (c out : OptimizationCandidate S) : Prop where
  wasChosen : c.decision = .chosen
  known : out.rewriteKind ∈ knownRewriteKinds
  proved : out.proofs ≠ []
  proven : ∀ proof ∈ out.proofs, proof.status ≠ .rejected ∧ proof.status ≠ .deferred
  capability : out.capabilityResult = .supported
  policy : out.policyResult = .accepted
  evidence : ∀ ref ∈ out.evidenceRefs, ref.evidenceId ≠ "" →
    ∃ record, store.byId.get? ref.evidenceId = some record ∧ isStale host record = false
  agreed : Agreed store
  budget : ∀ limit ∈ limits, ∀ score, out.costScores.get? limit.1 = some score →
    host.greater score limit.2 = false

/-- The candidate keeps its id, its proofs and its hints, but for the mark of a chosen
candidate that lost to another one. -/
structure Kept (result : List (OptimizationCandidate S)) (c out : OptimizationCandidate S) :
    Prop where
  candidateId : out.candidateId = c.candidateId
  proofs : out.proofs = c.proofs
  hints : out.hints = c.hints ∨ c.decision = .chosen ∧ out.decision = .shadow ∧
    ∃ winner ∈ result, winner.decision = .chosen ∧ winner.candidateId ≠ c.candidateId ∧
      out.hints = (c.hints.set "dominated" (.bool true)).set "dominated_by"
        (.str winner.candidateId)

def chosenOf (candidates : List (OptimizationCandidate S)) : List (OptimizationCandidate S) :=
  candidates.filter fun c => c.decision = .chosen

/-- What the selection promises of its result. -/
structure Selected (candidates result : List (OptimizationCandidate S)) : Prop where
  single : ((chosenOf candidates).map OptimizationCandidate.candidateId).Nodup →
    (chosenOf result).length ≤ 1
  justified : List.Forall₂ (fun c out => out.decision = .chosen → Justified host store limits c out)
    candidates result
  kept : List.Forall₂ (Kept result) candidates result

/-- A promise that takes no notice of marks and repeated ids. -/
structure SelectedUnmarked (candidates result : List (OptimizationCandidate S)) : Prop where
  single : (chosenOf result).length ≤ 1
  justified : List.Forall₂ (fun c out => out.decision = .chosen → Justified host store limits c out)
    candidates result
  kept : List.Forall₂ (fun c out => out.decision ≠ .chosen → out.candidateId = c.candidateId ∧
    out.hints = c.hints ∧ out.proofs = c.proofs) candidates result

end Promise

/-! ## Evidence -/

section Evidence

variable {S : Type} {host : SelectionHost S} {store : EvidenceStore}

theorem mem_records {record : EvidenceRecord} :
    record ∈ records store ↔ store.byId.get? record.evidenceId = some record := by
  unfold records
  rw [List.mem_insertionSort, List.mem_map]
  constructor
  · rintro ⟨e, he, rfl⟩
    have hget := Dict.mem_entries_iff.mp he
    rw [store.keyed _ _ hget]
    exact hget
  · intro hget
    exact ⟨_, Dict.mem_entries_iff.mpr hget, rfl⟩

theorem groups_groups : Dict.Groups (fun record : EvidenceRecord => (record.kind, record.subject))
    (records store) (groups store) := by
  unfold groups
  induction records store using List.reverseRecOn with
  | nil => exact Dict.groups_empty
  | append_singleton rows record ih =>
      rw [List.foldl_append]
      exact ih.append record

/-- A store without conflicts agrees on every kind and subject. -/
theorem agreed_of_conflicts (h : conflicts store = []) : Agreed store := by
  intro id id' record record' hget hget' hkind hsubject
  have hmem : record ∈ records store := by
    rw [mem_records, store.keyed _ _ hget]
    exact hget
  have hmem' : record' ∈ records store := by
    rw [mem_records, store.keyed _ _ hget']
    exact hget'
  obtain ⟨members, hmembers, hrecord⟩ :=
    List.mem_flatten.mp (groups_groups.perm.mem_iff.mpr hmem)
  have hrecord' : record' ∈ members := by
    rw [groups_groups.mem_iff hmembers hrecord hmem', hkind, hsubject]
  obtain ⟨key, hentry⟩ := Dict.mem_values.mp hmembers
  have hfew : ¬1 < (members.map EvidenceRecord.value).dedup.length := by
    intro hmany
    have hnone := List.filterMap_eq_nil_iff.mp h (key, members)
      ((List.mem_insertionSort _).mpr hentry)
    rw [if_pos hmany] at hnone
    cases hnone
  by_contra hne
  have hpair : [record.value, record'.value] ⊆ (members.map EvidenceRecord.value).dedup := by
    intro value hvalue
    rw [List.mem_dedup]
    rcases List.mem_cons.mp hvalue with rfl | hvalue
    · exact List.mem_map_of_mem hrecord
    · rw [List.mem_singleton.mp hvalue]
      exact List.mem_map_of_mem hrecord'
  have hnodup : [record.value, record'.value].Nodup := by simp [hne]
  exact hfew ((hnodup.subperm hpair).length_le)

/-- Without issues, every id that a candidate names stands for a record that is not stale. -/
theorem evidence_of_issues {c : OptimizationCandidate S}
    (h : candidateEvidenceIssues host store c = none) {ref : EvidenceRef}
    (href : ref ∈ c.evidenceRefs) (hnamed : ref.evidenceId ≠ "") :
    ∃ record, store.byId.get? ref.evidenceId = some record ∧ isStale host record = false := by
  have hmem : ref ∈ c.evidenceRefs.filter (·.evidenceId ≠ "") :=
    List.mem_filter.mpr ⟨href, by simpa using hnamed⟩
  unfold candidateEvidenceIssues at h
  simp only at h
  split at h
  · cases h
  · rename_i hmissing
    split at h
    · cases h
    · split at h
      · cases h
      · rename_i hstale
        rw [not_not, List.filter_eq_nil_iff] at hmissing hstale
        have hfound := hmissing ref hmem
        have hfresh := hstale ref hmem
        cases hget : store.byId.get? ref.evidenceId with
        | none => simp [hget] at hfound
        | some record =>
            simp only [hget, Bool.or_eq_true, not_or] at hfresh
            exact ⟨record, rfl, by simpa using hfresh.2⟩

end Evidence

/-! ## Gates -/

section Gates

variable {S ε : Type} {host : SelectionHost S} {store : EvidenceStore}
  {limits : List (String × S)} {scores : Dict String S} {c out : OptimizationCandidate S}
  {v : Verdict S}

theorem budgetGate_chosen (h : (budgetGate host limits scores c v).decision = .chosen) :
    budgetGate host limits scores c v = v ∧ exceeds host limits scores = [] := by
  unfold budgetGate at h ⊢
  simp only at h ⊢
  split at h
  · rename_i hbreached
    rw [if_pos hbreached]
    exact ⟨rfl, hbreached⟩
  · cases h

theorem proofGate_chosen (h : (proofGate c v).decision = .chosen) :
    proofGate c v = v ∧ c.proofs ≠ [] ∧
      ∀ proof ∈ c.proofs, proof.status ≠ .rejected ∧ proof.status ≠ .deferred := by
  unfold proofGate at h ⊢
  split at h
  · cases h
  · rename_i hrejected
    rw [if_neg hrejected]
    split at h
    · cases h
    · rename_i hdeferred
      rw [if_neg hdeferred]
      have hopen : ¬(c.proofs = [] ∨ c.proofs.any (·.status = .deferred) = true) := fun hopen =>
        hdeferred ⟨hopen, h⟩
      rw [not_or] at hopen
      refine ⟨rfl, hopen.1, fun proof hproof => ⟨?_, ?_⟩⟩
      · intro hstatus
        exact hrejected (List.any_eq_true.mpr ⟨proof, hproof, decide_eq_true hstatus⟩)
      · intro hstatus
        exact hopen.2 (List.any_eq_true.mpr ⟨proof, hproof, decide_eq_true hstatus⟩)

theorem capabilityGate_chosen (h : (capabilityGate c v).decision = .chosen) :
    capabilityGate c v = v ∧ c.capabilityResult = .supported := by
  unfold capabilityGate at h ⊢
  split at h
  · cases h
  · rename_i hgate
    rw [if_neg hgate]
    refine ⟨rfl, ?_⟩
    by_contra hne
    exact hgate ⟨hne, h⟩

theorem policyGate_chosen (h : (policyGate c v).decision = .chosen) :
    policyGate c v = v ∧ c.policyResult = .accepted := by
  unfold policyGate at h ⊢
  split at h
  · cases h
  · rename_i hgate
    rw [if_neg hgate]
    refine ⟨rfl, ?_⟩
    by_contra hne
    exact hgate ⟨hne, h⟩

/-- A candidate that is still chosen behind the gates has passed each of them. -/
structure Passed (host : SelectionHost S) (limits : List (String × S)) (scores : Dict String S)
    (c : OptimizationCandidate S) : Prop where
  wasChosen : c.decision = .chosen
  budget : exceeds host limits scores = []
  proved : c.proofs ≠ []
  proven : ∀ proof ∈ c.proofs, proof.status ≠ .rejected ∧ proof.status ≠ .deferred
  capability : c.capabilityResult = .supported
  policy : c.policyResult = .accepted

theorem judge_chosen (h : (judge host limits scores c).decision = .chosen) :
    (judge host limits scores c).policy = .accepted ∧ Passed host limits scores c := by
  unfold judge at h ⊢
  obtain ⟨hpolicy, haccepted⟩ := policyGate_chosen h
  rw [hpolicy] at h ⊢
  obtain ⟨hcapability, hsupported⟩ := capabilityGate_chosen h
  rw [hcapability] at h ⊢
  obtain ⟨hproof, hproved, hproven⟩ := proofGate_chosen h
  rw [hproof] at h ⊢
  obtain ⟨hbudget, hexceeds⟩ := budgetGate_chosen h
  rw [hbudget] at h ⊢
  exact ⟨haccepted, h, hexceeds, hproved, hproven, hsupported, haccepted⟩

/-- What a turn of the loop does to a candidate. -/
structure Scored (host : SelectionHost S) (store : EvidenceStore) (limits : List (String × S))
    (c out : OptimizationCandidate S) : Prop where
  candidateId : out.candidateId = c.candidateId
  proofs : out.proofs = c.proofs
  hints : out.hints = c.hints
  justified : out.decision = .chosen → Justified host store limits c out

theorem scored_rejectCandidate (reason : String) :
    Scored host store limits c (rejectCandidate c reason) :=
  ⟨rfl, rfl, rfl, fun h => by cases h⟩

theorem scoreCandidate_scored {score : OptimizationCandidate S → Except ε (Dict String S)}
    {diagnostics : List (Diagnostic S)}
    (h : scoreCandidate host store score limits c = .ok (out, diagnostics)) :
    Scored host store limits c out := by
  unfold scoreCandidate at h
  split at h
  · obtain ⟨rfl, -⟩ := Prod.mk.inj (Except.ok.inj h)
    exact scored_rejectCandidate _
  · rename_i hknown
    split at h
    · obtain ⟨rfl, -⟩ := Prod.mk.inj (Except.ok.inj h)
      exact scored_rejectCandidate _
    · rename_i hconflicts
      split at h
      · obtain ⟨rfl, -⟩ := Prod.mk.inj (Except.ok.inj h)
        exact scored_rejectCandidate _
      · rename_i hissues
        obtain ⟨scores, -, hout⟩ := map_eq_ok h
        obtain ⟨rfl, -⟩ := Prod.mk.inj hout
        refine ⟨rfl, rfl, rfl, fun hchosen => ?_⟩
        obtain ⟨haccepted, hpassed⟩ := judge_chosen hchosen
        have hnone : candidateEvidenceIssues host store c = none := by
          cases hfound : candidateEvidenceIssues host store c with
          | none => rfl
          | some issue => exact (hissues issue.1 issue.2 hfound hpassed.wasChosen).elim
        have hagreed : conflicts store = [] := by
          by_contra hne
          refine hconflicts ⟨hne, ?_⟩
          rw [hpassed.wasChosen]
          simp
        refine ⟨hpassed.wasChosen, not_not.mp hknown, hpassed.proved, hpassed.proven,
          hpassed.capability, haccepted, fun ref href hnamed =>
            evidence_of_issues hnone href hnamed, agreed_of_conflicts hagreed, ?_⟩
        intro limit hlimit value hvalue
        have hnot := List.filter_eq_nil_iff.mp (List.map_eq_nil_iff.mp hpassed.budget) limit hlimit
        have hvalue' : scores.get? limit.1 = some value := hvalue
        simpa [hvalue'] using hnot

end Gates

/-! ## The winner -/

section Winner

variable {S ε : Type} {host : SelectionHost S} {store : EvidenceStore}
  {limits : List (String × S)} {key : String} {best c : OptimizationCandidate S}
  {candidates scored : List (OptimizationCandidate S)}

theorem cheapest_mem (first : OptimizationCandidate S) (rest : List (OptimizationCandidate S)) :
    cheapest host key first rest ∈ first :: rest := by
  unfold cheapest
  induction rest using List.reverseRecOn with
  | nil => exact List.mem_cons_self
  | append_singleton rest last ih =>
      simp only [List.foldl_append, List.foldl_cons, List.foldl_nil]
      split
      · simp
      · rcases List.mem_cons.mp ih with heq | hmem
        · rw [heq]
          exact List.mem_cons_self
        · exact List.mem_cons_of_mem _ (List.mem_append_left _ hmem)

/-- What `refine` does: nothing to one winner, and a mark on all others that are chosen. -/
theorem refine_cases : (refine host key scored = scored ∧ (chosenOf scored).length ≤ 1) ∨
    ∃ best ∈ chosenOf scored, refine host key scored = scored.map (dominate key best) := by
  unfold refine
  have hchosen : (scored.filter fun c => c.decision = .chosen) = chosenOf scored := rfl
  rw [hchosen]
  cases hlist : chosenOf scored with
  | nil => exact .inl ⟨rfl, by simp⟩
  | cons first rest =>
      cases rest with
      | nil => exact .inl ⟨rfl, by simp⟩
      | cons second rest => exact .inr ⟨_, cheapest_mem first (second :: rest), rfl⟩

theorem dominate_chosen (h : (dominate key best c).decision = .chosen) :
    dominate key best c = c ∧ c.candidateId = best.candidateId := by
  unfold dominate at h ⊢
  split at h
  · cases h
  · rename_i hgate
    rw [if_neg hgate]
    refine ⟨rfl, ?_⟩
    by_contra hne
    exact hgate ⟨h, hne⟩

theorem dominate_self : dominate key best best = best := by
  unfold dominate
  rw [if_neg (fun h => h.2 rfl)]

/-- Ids that stand once among the chosen stand at most once behind the domination. -/
theorem length_chosenOf_dominate
    (hnodup : ((chosenOf scored).map OptimizationCandidate.candidateId).Nodup) :
    (chosenOf (scored.map (dominate key best))).length ≤ 1 := by
  have hsub : ((chosenOf (scored.map (dominate key best))).map
      OptimizationCandidate.candidateId).Sublist
        ((chosenOf scored).map OptimizationCandidate.candidateId) := by
    clear hnodup
    induction scored with
    | nil => exact List.Sublist.refl _
    | cons c scored ih =>
        unfold chosenOf at ih ⊢
        rw [List.map_cons, List.filter_cons, List.filter_cons]
        by_cases hchosen : (dominate key best c).decision = .chosen
        · have hsame := (dominate_chosen hchosen).1
          rw [hsame] at hchosen ⊢
          rw [if_pos (decide_eq_true hchosen), if_pos (decide_eq_true hchosen), List.map_cons,
            List.map_cons]
          exact ih.cons_cons _
        · rw [if_neg (by simpa using hchosen)]
          split
          · exact ih.cons _
          · exact ih
  have hsame : ∀ id ∈ (chosenOf (scored.map (dominate key best))).map
      OptimizationCandidate.candidateId, id = best.candidateId := by
    intro id hid
    obtain ⟨out, hout, rfl⟩ := List.mem_map.mp hid
    obtain ⟨hmem, hchosen⟩ := List.mem_filter.mp hout
    obtain ⟨c, -, rfl⟩ := List.mem_map.mp hmem
    have h := dominate_chosen (of_decide_eq_true hchosen)
    rw [h.1]
    exact h.2
  have hnodup' := hnodup.sublist hsub
  rw [List.eq_replicate_of_mem hsame] at hnodup'
  have hlength := List.nodup_replicate.mp hnodup'
  simpa using hlength

theorem chosen_ids_sublist (h : List.Forall₂ (Scored host store limits) candidates scored) :
    ((chosenOf scored).map OptimizationCandidate.candidateId).Sublist
      ((chosenOf candidates).map OptimizationCandidate.candidateId) := by
  induction h with
  | nil => exact List.Sublist.refl _
  | @cons c out candidates scored hfirst _ ih =>
      unfold chosenOf at ih ⊢
      rw [List.filter_cons, List.filter_cons]
      by_cases hchosen : out.decision = .chosen
      · have hwas := (hfirst.justified hchosen).wasChosen
        rw [if_pos (decide_eq_true hchosen), if_pos (decide_eq_true hwas), List.map_cons,
          List.map_cons, hfirst.candidateId]
        exact ih.cons_cons _
      · rw [if_neg (by simpa using hchosen)]
        split
        · exact ih.cons _
        · exact ih

end Winner

section Result

variable {S ε : Type} {host : SelectionHost S} {store : EvidenceStore}
  {limits : List (String × S)} {key : String}
  {candidates scored : List (OptimizationCandidate S)}

/-- Turns of the loop, and then the domination. -/
theorem selected_refine (h : List.Forall₂ (Scored host store limits) candidates scored) :
    Selected host store limits candidates (refine host key scored) := by
  have hsub := chosen_ids_sublist h
  rcases @refine_cases S host key scored with
    ⟨hsame, hfew⟩ | ⟨best, hbest, hmap⟩
  · rw [hsame]
    refine ⟨fun _ => hfew, h.imp fun c out hscored => hscored.justified, ?_⟩
    exact h.imp fun c out hscored => ⟨hscored.candidateId, hscored.proofs, .inl hscored.hints⟩
  · rw [hmap]
    obtain ⟨hbestMem, hbestChosen⟩ := List.mem_filter.mp hbest
    refine ⟨fun hnodup => length_chosenOf_dominate (hnodup.sublist hsub), ?_, ?_⟩
    · rw [List.forall₂_map_right_iff]
      refine h.imp fun c out hscored hchosen => ?_
      have hsame := (dominate_chosen hchosen).1
      rw [hsame] at hchosen ⊢
      exact hscored.justified hchosen
    · rw [List.forall₂_map_right_iff]
      refine h.imp fun c out hscored => ?_
      by_cases hlost : out.decision = .chosen ∧ out.candidateId ≠ best.candidateId
      · have hout : dominate key best out = _ := if_pos hlost
        rw [hout]
        refine ⟨hscored.candidateId, hscored.proofs, .inr ⟨(hscored.justified hlost.1).wasChosen,
          rfl, best, ?_, of_decide_eq_true hbestChosen, ?_, ?_⟩⟩
        · exact List.mem_map.mpr ⟨best, hbestMem, dominate_self⟩
        · rw [← hscored.candidateId]
          exact hlost.2.symm
        · rw [← hscored.hints]
      · have hout : dominate key best out = out := if_neg hlost
        rw [hout]
        exact ⟨hscored.candidateId, hscored.proofs, .inl hscored.hints⟩

end Result

/-- Scores are numbers. -/
def numberHost : SelectionHost Int where
  zero := 0
  greater a b := b < a
  less a b := a < b
  now := 0
  fromisoformat _ := none
  isPrintable _ := true
  listKinds _ := []

def emptyStore : EvidenceStore where
  byId := .empty
  keyed id record h := by simp at h

def pruning (candidateId : String) (benefit : Int) : OptimizationCandidate Int where
  candidateId := candidateId
  passId := "t"
  rewriteKind := "pruning"
  decision := .chosen
  expectedBenefit := []
  proofs := [⟨"dependency", .proven, "", []⟩]
  evidenceRefs := []
  policyResult := .accepted
  capabilityResult := .supported
  reason := ""
  costScores := Dict.empty.set "benefit" benefit
  hints := .empty

/-- A provider that scores a candidate by its own benefit. -/
def ownScores (c : OptimizationCandidate Int) : Except String (Dict String Int) := .ok c.costScores

end Etlantic.Optimization.Selection
