import Etlantic.ControlPlane.Durable.Effects

/-!
# Previews and shadow runs
-/

namespace Etlantic.ControlPlane.Durable

/-- `_parse(text) <= now`, with the errors of parsing and of comparing a time
without a time zone. -/
def parsedBy (host : Host) (text : String) (now : Instant) : Except PyError Bool :=
  match host.parse text with
  | none => .error (.valueError "Invalid isoformat string")
  | some (.naive _) => .error (.typeError "can't compare offset-naive and offset-aware datetimes")
  | some (.aware t) => .ok (t ≤ now)

def createPreview (host : Host) (env : Env) (ctx : ControlPlaneContext)
    (preview : PreviewWorkspace) (s : Store) : Outcome PreviewWorkspace :=
  if preview.scope ≠ ctx.scopeKey ∨ preview.quota < 1 then
    raise (forbidden "Preview must be scoped and have a positive quota") s
  else if preview.baseRevisionId = preview.candidateRevisionId then
    raise (.valueError "Preview candidate must differ from base revision") s
  else
    match parsedBy host preview.expiresAt (env.now [0]) with
    | .error error => raise error s
    | .ok true => raise (.valueError "Preview expiry must be in the future") s
    | .ok false =>
        let k := key ctx preview.previewId
        match s.previews.get? k with
        | some existing =>
            if existing = preview then ret existing s
            else raise (conflict "Preview id already exists with different inputs") s
        | none =>
            let active := s.previews.count (fun k row =>
              k.scope = ctx.scopeKey && row.cleanedAt = none)
            if preview.quota ≤ (active : Int) then
              raise (conflict "Preview workspace quota exceeded") s
            else ret preview { s with previews := s.previews.set k preview }

/-- The fingerprints a caller compares with a preview. -/
structure PreviewFingerprints where
  codeFingerprint : Option String
  planFingerprint : Option String
  policyFingerprint : Option String
  environmentFingerprint : Option String

/-- The names of the fingerprints that differ. -/
def staleReasons (given : PreviewFingerprints) (preview : PreviewWorkspace) : List String :=
  [("code_fingerprint", given.codeFingerprint, some preview.codeFingerprint),
    ("plan_fingerprint", given.planFingerprint, some preview.planFingerprint),
    ("policy_fingerprint", given.policyFingerprint, preview.policyFingerprint),
    ("environment_fingerprint", given.environmentFingerprint, preview.environmentFingerprint)]
  |>.filterMap (fun (name, given, stored) =>
    if given ≠ none ∧ given ≠ stored then some name else none)

def markPreviewStale (ctx : ControlPlaneContext) (previewId : String)
    (given : PreviewFingerprints) (s : Store) : Outcome PreviewWorkspace :=
  let k := key ctx previewId
  match s.previews.get? k with
  | none => raise (notFound "Preview not found") s
  | some preview =>
      let reasons := staleReasons given preview
      if reasons = [] then ret preview s
      else
        let updated :=
          { preview with stale := true, staleReason := some (String.intercalate "," reasons) }
        ret updated { s with previews := s.previews.set k updated }

def recordPreviewDiff (ctx : ControlPlaneContext) (diff : DiffRecord) (s : Store) :
    Outcome DiffRecord :=
  if diff.scope ≠ ctx.scopeKey then raise (notFound "Diff not found") s
  else if s.previews.contains (key ctx diff.previewId) = false then
    raise (notFound "Preview not found") s
  else ret diff { s with diffs := s.diffs.set (key ctx diff.diffId) diff }

/-- The first effect of a shadow run that is missing or authoritative. -/
def shadowEffectRefusal (s : Store) (scope : Scope) : List String → Option PyError
  | [] => none
  | effectId :: rest =>
      match s.effects.get? ⟨scope, effectId⟩ with
      | none => some (notFound "Effect not found")
      | some effect =>
          if effect.authoritative then
            some (forbidden "Shadow effects must be non-authoritative")
          else shadowEffectRefusal s scope rest

def authorizeShadowRun (ctx : ControlPlaneContext) (shadow : ShadowRunRecord) (s : Store) :
    Outcome ShadowRunRecord :=
  if shadow.scope ≠ ctx.scopeKey then raise (notFound "Shadow run not found") s
  else if shadow.productionAuthority then
    raise (forbidden "Shadow runs cannot claim production authority") s
  else if isBlank shadow.authorizedBy then
    raise (.valueError "shadow run requires authorized_by") s
  else
    match s.previews.get? (key ctx shadow.previewId) with
    | none => raise (notFound "Preview not found") s
    | some preview =>
        if preview.stale then raise (conflict "Stale preview cannot authorize shadow") s
        else if s.submissions.contains (key ctx shadow.submissionId) = false then
          raise (notFound "Submission not found") s
        else
          match shadowEffectRefusal s ctx.scopeKey shadow.effectIds with
          | some error => raise error s
          | none => ret shadow { s with shadows := s.shadows.set (key ctx shadow.shadowRunId) shadow }

/-- The loop of `cleanup_expired_previews`. -/
def cleanupPreviewRows (host : Host) (now : Instant) (scope : Scope) :
    List (Key × PreviewWorkspace) → List PreviewWorkspace → Store →
      Outcome (List PreviewWorkspace)
  | [], cleaned, s => ret cleaned s
  | (k, preview) :: rest, cleaned, s =>
      if k.scope = scope ∧ preview.cleanedAt = none then
        match parsedBy host preview.expiresAt now with
        | .error error => raise error s
        | .ok false => cleanupPreviewRows host now scope rest cleaned s
        | .ok true =>
            let done := { preview with cleanedAt := some (.iso now) }
            cleanupPreviewRows host now scope rest (cleaned ++ [done])
              { s with previews := s.previews.set k done }
      else cleanupPreviewRows host now scope rest cleaned s

def cleanupExpiredPreviews (host : Host) (env : Env) (ctx : ControlPlaneContext) (s : Store) :
    Outcome (List PreviewWorkspace) :=
  cleanupPreviewRows host (env.now [0]) ctx.scopeKey s.previews.entries [] s

end Etlantic.ControlPlane.Durable
