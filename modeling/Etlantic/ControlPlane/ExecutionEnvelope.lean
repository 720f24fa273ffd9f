import Etlantic.Base.JsonLeaves
import Etlantic.Runtime.RequestPolicies

/-!
# Execution envelopes

An envelope is made from a request and a plan, and reads its own wire form back
before it is accepted.  The request that comes back has floats for its seconds
and an adaptive plan records the request with its absolute paths replaced, so a
request is bound faithfully when it has neither integers nor absolute paths.
-/

namespace Etlantic.ControlPlane.Envelope

open Json (IsLeaf mapLeaves leaves sorted WellFormed)
open Runtime.Wire

/-! ## Texts and comparisons -/

/-- `_canonical_json`. -/
def canonicalJson (value : Json) : String := value.dumps Json.escapeUnicode

/-- An absolute path of either system, as `_safe_ref` sees it. -/
def isAbsolutePath (text : String) : Bool :=
  match text.toList with
  | '/' :: _ => true
  | '\\' :: _ => true
  | _ :: ':' :: c :: _ => c = '/' || c = '\\'
  | _ => false

/-- `f"path:{leaf}"` with the last part of the path. -/
def pathReference (text : String) : String :=
  let normalized := text.toList.map fun c => if c = '\\' then '/' else c
  let normalized := (normalized.reverse.dropWhile (· = '/')).reverse
  let leaf := (normalized.reverse.takeWhile (· ≠ '/')).reverse
  "path:" ++ (if leaf.isEmpty then "root" else String.ofList leaf)

def safeLeaf : Json → Json
  | .str text => .str (if isAbsolutePath text then pathReference text else text)
  | value => value

/-- `_safe_ref`. -/
def safeRef (value : Json) : Json := mapLeaves safeLeaf value

/-- The exact value of a float where it is an integer. -/
structure EnvelopeHost extends RequestHost where
  integral : String → Option Int

/-- Equal numbers have one form; a boolean is a number. -/
def comparableLeaf (host : EnvelopeHost) : Json → Json
  | .bool b => .int (if b then 1 else 0)
  | .float text =>
      match host.integral text with
      | some n => .int n
      | none => .float text
  | value => value

/-- `a == b` of two documents. -/
def equal (host : EnvelopeHost) (a b : Json) : Bool :=
  canonicalJson (mapLeaves (comparableLeaf host) a) =
    canonicalJson (mapLeaves (comparableLeaf host) b)

/-! ## Envelopes -/

/-- What an envelope reads of its plan: the settings and intents, or the request that an adaptive
plan records. -/
inductive PlanDocument where
  | pipeline (executionSettings intents : List (String × Json))
  | adaptive (request : Json)

namespace PlanDocument

/-- `_plan_settings`. -/
def settings : PlanDocument → List (String × Json)
  | pipeline executionSettings _ => executionSettings
  | adaptive _ => []

/-- `_plan_intents`. -/
def intents : PlanDocument → List (String × Json)
  | pipeline _ intents => intents
  | adaptive _ => []

end PlanDocument

inductive EnvelopeError where
  | raised (error : PyError)
  | unboundRequest
  | effectiveRequest
  | settingProvenance

def EnvelopeError.message : EnvelopeError → Option String
  | raised _ => none
  | unboundRequest => some "Adaptive plan does not bind the accepted run request"
  | effectiveRequest => some "Effective request does not match its plan and request"
  | settingProvenance => some "Setting provenance does not match resolved settings"

variable {host : EnvelopeHost}

def lift {α : Type} (x : Except PyError α) : Except EnvelopeError α := x.mapError .raised

/-- `stored_request or {}`. -/
def orEmpty : Json → Json
  | .null | .bool false | .int 0 | .str "" | .arr [] => .obj []
  | value => value

/-- `_effective_request`. -/
def effectiveRequest (plan : PlanDocument) (request : RunRequest host.toRequestHost) :
    Except EnvelopeError (RunRequest host.toRequestHost) :=
  match plan with
  | .pipeline executionSettings intents => lift (request.resolve executionSettings intents)
  | .adaptive stored =>
      if equal host (orEmpty stored) (.obj request.toDict) then .ok request
      else .error .unboundRequest

def undecodable : PyError := .valueError "Out of range float values are not JSON compliant"

/-- `json.loads(_canonical_json(value))`. -/
def reload (value : Json) : Except PyError Json :=
  match Json.loads (value.render Json.escapeUnicode) with
  | some value => .ok value
  | none => .error undecodable

/-- `_decode_plan` of the plan's wire form. -/
def decodePlan : PlanDocument → Except PyError PlanDocument
  | .pipeline executionSettings intents => do
      let executionSettings ← reload (.obj executionSettings)
      let intents ← reload (.obj intents)
      return .pipeline (mappingFields executionSettings) (mappingFields intents)
  | .adaptive stored => (reload stored).map .adaptive

def provenanceJson (entries : List (String × String)) : Json := .obj (textFields entries)

/-- `ExecutionEnvelope.create` up to the checks of the effective request and the provenance, which
`from_dict` makes on the wire form of what `create` derived. -/
def create (plan : PlanDocument) (profileName : String) (request : RunRequest host.toRequestHost) :
    Except EnvelopeError Unit := do
  let effective ← effectiveRequest plan request
  let provenance := request.settingProvenance plan.settings plan.intents profileName
  let plan ← lift (decodePlan plan)
  let request ← lift (RunRequest.fromDict host.toRequestHost request.toDict)
  let expected ← effectiveRequest plan request
  Checked.refuse (canonicalJson (.obj effective.toDict) ≠ canonicalJson (.obj expected.toDict))
    EnvelopeError.effectiveRequest
  Checked.refuse
    (canonicalJson (provenanceJson provenance) ≠
      canonicalJson (provenanceJson
        (request.settingProvenance plan.settings plan.intents profileName)))
    EnvelopeError.settingProvenance

/-- `ExecutionEnvelope.intent_fingerprint`. -/
def intentFingerprint (sha256 : String → String)
    (definitionId revisionSelector profileName : String)
    (request : RunRequest host.toRequestHost) : String :=
  sha256 (canonicalJson (.obj
    [("definition_id", .str definitionId), ("revision_selector", .str revisionSelector),
      ("profile_name", .str profileName), ("run_request", .obj request.toDict)]))

/-! ## Specification -/

/-- A plan made for a request: a pipeline plan takes nothing of it, an adaptive plan records it
with safe references. -/
def PlanDocument.MadeFor (request : RunRequest host.toRequestHost) : PlanDocument → Prop
  | .pipeline executionSettings intents =>
      WellFormed (.obj executionSettings) ∧ WellFormed (.obj intents)
  | .adaptive stored => stored = safeRef (.obj request.toDict)

/-- The request that came back stands for the request that was sent. -/
structure Faithful (sent back : RunRequest host.toRequestHost) : Prop where
  text : canonicalJson (.obj back.toDict) = canonicalJson (.obj sent.toDict)
  fingerprint : ∀ sha256 definitionId revisionSelector profileName,
    intentFingerprint sha256 definitionId revisionSelector profileName back =
      intentFingerprint sha256 definitionId revisionSelector profileName sent
  commutes : ∀ settings intents, back.resolve settings intents =
    sent.resolve settings intents >>= fun e =>
      RunRequest.fromDict host.toRequestHost e.toDict
  created : ∀ (plan : PlanDocument) (profileName : String), plan.MadeFor sent →
    ∀ error, create plan profileName sent = .error error → error.message = none

/-- The numbers of seconds of a request. -/
def seconds (request : RunRequest host.toRequestHost) : List Number :=
  request.retry.backoffSeconds :: (request.timeout.runSeconds.toList ++
    request.timeout.stepSeconds.toList ++ request.cancellation.abandonAfterSeconds.toList)

/-- A request without integers for seconds and without absolute paths. -/
structure Plain (request : RunRequest host.toRequestHost) : Prop where
  floats : ∀ n, Number.int n ∉ seconds request
  logical : ∀ text, Json.str text ∈ leaves (.obj request.toDict) → isAbsolutePath text = false

/-! ## Safe references -/

theorem safeLeaf_isLeaf (value : Json) (h : IsLeaf value) : IsLeaf (safeLeaf value) := by
  cases value <;> exact h

theorem comparableLeaf_isLeaf (value : Json) (h : IsLeaf value) :
    IsLeaf (comparableLeaf host value) := by
  cases value with
  | float text =>
      unfold comparableLeaf
      dsimp only
      split <;> exact trivial
  | bool b => exact trivial
  | _ => exact h

theorem comparableLeaf_wellFormed (value : Json) (_ : IsLeaf value) (h : WellFormed value) :
    WellFormed (comparableLeaf host value) := by
  cases value with
  | float text =>
      unfold comparableLeaf
      dsimp only
      split
      · exact trivial
      · exact h
  | bool b => exact trivial
  | _ => exact h

theorem safeLeaf_wellFormed (value : Json) (_ : IsLeaf value) (h : WellFormed value) :
    WellFormed (safeLeaf value) := by
  cases value <;> exact h

/-- The reference that replaces an absolute path is not one. -/
theorem pathReference_ne {text : String} (h : isAbsolutePath text = true) :
    pathReference text ≠ text := by
  intro heq
  have hpath : ∃ rest, text.toList = 'p' :: 'a' :: 't' :: 'h' :: ':' :: rest := by
    rw [← heq]
    unfold pathReference
    exact ⟨_, by rw [String.toList_append]; rfl⟩
  obtain ⟨rest, hrest⟩ := hpath
  unfold isAbsolutePath at h
  rw [hrest] at h
  cases h

theorem safeLeaf_eq_self_iff (value : Json) :
    safeLeaf value = value ↔ ∀ text, value = .str text → isAbsolutePath text = false := by
  cases value with
  | str text =>
      unfold safeLeaf
      dsimp only
      cases habsolute : isAbsolutePath text with
      | false => simp [habsolute]
      | true =>
          rw [if_pos rfl]
          refine iff_of_false ?_ ?_
          · intro h
            exact pathReference_ne habsolute (Json.str.inj h)
          · intro h
            rw [h text rfl] at habsolute
            cases habsolute
  | _ => exact iff_of_true rfl fun text h => by cases h

theorem safeRef_eq_self_iff (value : Json) :
    safeRef value = value ↔
      ∀ text, Json.str text ∈ leaves value → isAbsolutePath text = false := by
  unfold safeRef
  rw [Json.mapLeaves_eq_self_iff]
  constructor
  · intro h text hmem
    exact (safeLeaf_eq_self_iff _).mp (h _ hmem) text rfl
  · intro h leaf hmem
    refine (safeLeaf_eq_self_iff leaf).mpr ?_
    rintro text rfl
    exact h text hmem

theorem equal_refl (value : Json) : equal host value value = true := decide_eq_true rfl

theorem equal_sorted (value : Json) (h : WellFormed value) :
    equal host (sorted value) value = true := by
  unfold equal
  refine decide_eq_true ?_
  unfold canonicalJson
  have hsorted := Json.wellFormed_mapLeaves (f := comparableLeaf host) comparableLeaf_wellFormed
    (Json.wellFormed_sorted h)
  have hvalue := Json.wellFormed_mapLeaves (f := comparableLeaf host) comparableLeaf_wellFormed h
  rw [Json.dumps_eq_iff Json.escapeUnicode_readable hsorted hvalue,
    Json.sorted_mapLeaves comparableLeaf_isLeaf, Json.sorted_mapLeaves comparableLeaf_isLeaf,
    Json.sorted_sorted]

/-- A document equals its safe form only if it has no absolute path. -/
theorem safeRef_eq_of_equal {value : Json} (h : WellFormed value)
    (heq : equal host (safeRef value) value = true) : safeRef value = value := by
  have htexts := of_decide_eq_true heq
  have hsafe := Json.wellFormed_mapLeaves (f := comparableLeaf host) comparableLeaf_wellFormed
    (Json.wellFormed_mapLeaves safeLeaf_wellFormed h)
  have hvalue := Json.wellFormed_mapLeaves (f := comparableLeaf host) comparableLeaf_wellFormed h
  unfold canonicalJson at htexts
  have hsorted := (Json.dumps_eq_iff Json.escapeUnicode_readable hsafe hvalue).mp htexts
  -- The two rewritings of leaves commute, and both commute with the ordering of the keys.
  have hcommutes : mapLeaves (comparableLeaf host) (mapLeaves safeLeaf value) =
      mapLeaves safeLeaf (mapLeaves (comparableLeaf host) value) := by
    rw [Json.mapLeaves_mapLeaves safeLeaf_isLeaf, Json.mapLeaves_mapLeaves comparableLeaf_isLeaf]
    congr 1
    funext leaf
    cases leaf with
    | float text =>
        simp only [safeLeaf, comparableLeaf]
        split <;> rfl
    | _ => rfl
  rw [hcommutes, Json.sorted_mapLeaves safeLeaf_isLeaf, Json.mapLeaves_eq_self_iff] at hsorted
  refine (safeRef_eq_self_iff value).mpr ?_
  intro text hmem
  have hleaf : Json.str text ∈ leaves (sorted (mapLeaves (comparableLeaf host) value)) := by
    rw [Json.mem_leaves_sorted, Json.leaves_mapLeaves comparableLeaf_isLeaf]
    exact List.mem_map.mpr ⟨_, hmem, rfl⟩
  exact (safeLeaf_eq_self_iff _).mp (hsorted _ hleaf) text rfl

/-! ## The wire forms of a request -/

variable {sent back : RunRequest host.toRequestHost}

theorem reload_eq {value : Json} (h : WellFormed value) : reload value = .ok (sorted value) := by
  unfold reload
  rw [Json.render_eq_encode value 0,
    Json.loads_encode Json.escapeUnicode_readable (Json.wellFormed_sorted h)]

theorem toFloat_wellFormed {number result : Number}
    (h : number.toFloat host.toRequestHost = .ok result) (hnumber : WellFormed number.json) :
    WellFormed result.json := by
  cases number with
  | int n =>
      unfold Number.toFloat at h
      dsimp only at h
      cases hfloat : host.floatOfInt n with
      | none =>
          rw [hfloat] at h
          cases h
      | some text =>
          rw [hfloat] at h
          obtain rfl := Except.ok.inj h
          exact host.floatOfInt_numeral n text hfloat
  | float text =>
      obtain rfl := Except.ok.inj h
      exact hnumber

theorem optionToFloat_wellFormed {number result : Option Number}
    (h : optionToFloat host.toRequestHost number = .ok result)
    (hnumber : WellFormed (optionJson Number.json number)) :
    WellFormed (optionJson Number.json result) := by
  cases number with
  | none =>
      obtain rfl := Except.ok.inj h
      exact trivial
  | some number =>
      obtain ⟨value, hvalue, rfl⟩ := Checked.map_eq_ok h
      exact toFloat_wellFormed hvalue hnumber

/-- What coercion gives, part by part. -/
structure Coerced (sent back : RunRequest host.toRequestHost) : Prop where
  backoff : sent.retry.backoffSeconds.toFloat host.toRequestHost = .ok back.retry.backoffSeconds
  run : optionToFloat host.toRequestHost sent.timeout.runSeconds = .ok back.timeout.runSeconds
  step : optionToFloat host.toRequestHost sent.timeout.stepSeconds = .ok back.timeout.stepSeconds
  abandon : optionToFloat host.toRequestHost sent.cancellation.abandonAfterSeconds =
    .ok back.cancellation.abandonAfterSeconds
  rest : back = { sent with
    retry := { sent.retry with backoffSeconds := back.retry.backoffSeconds }
    timeout := back.timeout
    cancellation :=
      { sent.cancellation with abandonAfterSeconds := back.cancellation.abandonAfterSeconds } }

theorem coerced_of_trip
    (htrip : RunRequest.fromDict host.toRequestHost sent.toDict = .ok back) :
    Coerced sent back := by
  rw [RunRequest.fromDict_toDict] at htrip
  unfold RunRequest.coerced at htrip
  obtain ⟨backoff, hbackoff, htrip⟩ := Checked.bind_eq_ok.mp htrip
  obtain ⟨runSeconds, hrun, htrip⟩ := Checked.bind_eq_ok.mp htrip
  obtain ⟨stepSeconds, hstep, htrip⟩ := Checked.bind_eq_ok.mp htrip
  obtain ⟨abandonAfter, habandon, htrip⟩ := Checked.bind_eq_ok.mp htrip
  obtain rfl := Except.ok.inj htrip
  exact ⟨hbackoff, hrun, hstep, habandon, rfl⟩

theorem toFloat_ne_int {number result : Number} {n : Int}
    (h : number.toFloat host.toRequestHost = .ok result) : result ≠ .int n := by
  rintro rfl
  cases number with
  | int m =>
      unfold Number.toFloat at h
      dsimp only at h
      split at h <;> cases h
  | float text => cases h

theorem optionToFloat_ne_int {number : Option Number} {n : Int} :
    optionToFloat host.toRequestHost number ≠ .ok (some (.int n)) := by
  intro h
  cases number with
  | none => cases h
  | some number =>
      obtain ⟨value, hvalue, heq⟩ := Checked.map_eq_ok h
      exact toFloat_ne_int hvalue (Option.some.inj heq)

theorem toFloat_of_ne_int {number : Number} (h : ∀ n, number ≠ .int n) :
    number.toFloat host.toRequestHost = .ok number := by
  cases number with
  | int n => exact absurd rfl (h n)
  | float text => rfl

theorem optionToFloat_of_ne_int {number : Option Number} (h : ∀ n, number ≠ some (.int n)) :
    optionToFloat host.toRequestHost number = .ok number := by
  cases number with
  | none => rfl
  | some number =>
      have hnumber : number.toFloat host.toRequestHost = .ok number :=
        toFloat_of_ne_int fun n hn => h n (congrArg some hn)
      show (number.toFloat host.toRequestHost).map some = _
      rw [hnumber]
      rfl

theorem int_mem_seconds {n : Int} : Number.int n ∈ seconds sent ↔
    sent.retry.backoffSeconds = .int n ∨ sent.timeout.runSeconds = some (.int n) ∨
      sent.timeout.stepSeconds = some (.int n) ∨
      sent.cancellation.abandonAfterSeconds = some (.int n) := by
  unfold seconds
  simp only [List.mem_cons, List.mem_append, Option.mem_toList, or_assoc, eq_comm]

/-- A request without integers comes back as it is. -/
theorem back_eq_of_floats (h : ∀ n, Number.int n ∉ seconds sent)
    (htrip : RunRequest.fromDict host.toRequestHost sent.toDict = .ok back) : back = sent := by
  rw [RunRequest.fromDict_toDict] at htrip
  have hnone : ∀ n, ¬ (sent.retry.backoffSeconds = .int n ∨
      sent.timeout.runSeconds = some (.int n) ∨ sent.timeout.stepSeconds = some (.int n) ∨
      sent.cancellation.abandonAfterSeconds = some (.int n)) :=
    fun n hn => h n (int_mem_seconds.mpr hn)
  unfold RunRequest.coerced at htrip
  rw [toFloat_of_ne_int fun n hn => hnone n (.inl hn),
    optionToFloat_of_ne_int fun n hn => hnone n (.inr (.inl hn)),
    optionToFloat_of_ne_int fun n hn => hnone n (.inr (.inr (.inl hn))),
    optionToFloat_of_ne_int fun n hn => hnone n (.inr (.inr (.inr hn)))] at htrip
  exact (Except.ok.inj htrip).symm

theorem wellFormed_back (hsent : WellFormed (.obj sent.toDict))
    (htrip : RunRequest.fromDict host.toRequestHost sent.toDict = .ok back) :
    WellFormed (.obj back.toDict) := by
  obtain ⟨hbackoff, hrun, hstep, habandon, hrest⟩ := coerced_of_trip htrip
  obtain ⟨hkeys, hselection, hintent, hmaterialization, hretry, htimeout, hcancellation,
    hothers⟩ := hsent
  obtain ⟨hretryKeys, hattempts, hsentBackoff, hretryOn⟩ := hretry
  obtain ⟨htimeoutKeys, hsentRun, hsentStep, -⟩ := htimeout
  obtain ⟨hcancellationKeys, hcooperative, hsentAbandon, -⟩ := hcancellation
  rw [hrest]
  refine ⟨hkeys, hselection, hintent, hmaterialization, ?_, ?_, ?_, hothers⟩
  · exact ⟨hretryKeys, hattempts, toFloat_wellFormed hbackoff hsentBackoff, hretryOn⟩
  · exact ⟨htimeoutKeys, optionToFloat_wellFormed hrun hsentRun,
      optionToFloat_wellFormed hstep hsentStep, trivial⟩
  · exact ⟨hcancellationKeys, hcooperative, optionToFloat_wellFormed habandon hsentAbandon,
      trivial⟩

theorem number_of_sorted {a b : Number} (h : sorted a.json = sorted b.json) : a = b := by
  cases a <;> cases b <;> cases h <;> rfl

theorem option_of_sorted {a b : Option Number}
    (h : sorted (optionJson Number.json a) = sorted (optionJson Number.json b)) : a = b := by
  cases a with
  | none =>
      cases b with
      | none => rfl
      | some b => cases b <;> cases h
  | some a =>
      cases b with
      | none => cases a <;> cases h
      | some b => rw [number_of_sorted h]

/-- Documents with the same canonical text agree on every field. -/
theorem getD_of_canonicalJson {a b : List (String × Json)} (ha : WellFormed (.obj a))
    (hb : WellFormed (.obj b)) (h : sorted (.obj a) = sorted (.obj b)) (key : String) :
    sorted (getD a key .null) = sorted (getD b key .null) := by
  rw [← getD_inKeyOrder ha, ← getD_inKeyOrder hb]
  rw [sorted_obj, sorted_obj] at h
  rw [Json.obj.inj h]

/-- The same text leaves no room for an integer. -/
theorem floats_of_text (hsent : WellFormed (.obj sent.toDict))
    (htrip : RunRequest.fromDict host.toRequestHost sent.toDict = .ok back)
    (htext : canonicalJson (.obj back.toDict) = canonicalJson (.obj sent.toDict)) :
    ∀ n, Number.int n ∉ seconds sent := by
  have hback := wellFormed_back hsent htrip
  obtain ⟨hbackoff, hrun, hstep, habandon, -⟩ := coerced_of_trip htrip
  have hsorted := (Json.dumps_eq_iff Json.escapeUnicode_readable hback hsent).mp htext
  have hfield := getD_of_canonicalJson hback hsent hsorted
  have hretry : sorted back.retry.toDict = sorted sent.retry.toDict := by
    have h := hfield "retry"
    simpa only [RunRequest.toDict, getD_cons, String.reduceEq, if_true, if_false] using h
  have htimeout : sorted back.timeout.toDict = sorted sent.timeout.toDict := by
    have h := hfield "timeout"
    simpa only [RunRequest.toDict, getD_cons, String.reduceEq, if_true, if_false] using h
  have hcancellation : sorted back.cancellation.toDict = sorted sent.cancellation.toDict := by
    have h := hfield "cancellation"
    simpa only [RunRequest.toDict, getD_cons, String.reduceEq, if_true, if_false] using h
  obtain ⟨-, -, -, -, hbackRetry, hbackTimeout, hbackCancellation, -⟩ := hback
  obtain ⟨-, -, -, -, hsentRetry, hsentTimeout, hsentCancellation, -⟩ := hsent
  have hsameBackoff : back.retry.backoffSeconds = sent.retry.backoffSeconds := by
    have h := getD_of_canonicalJson hbackRetry hsentRetry hretry "backoff_seconds"
    simp only [getD_cons, String.reduceEq, if_true, if_false] at h
    exact number_of_sorted h
  have hsameRun : back.timeout.runSeconds = sent.timeout.runSeconds := by
    have h := getD_of_canonicalJson hbackTimeout hsentTimeout htimeout "run_seconds"
    simp only [getD_cons, if_true] at h
    exact option_of_sorted h
  have hsameStep : back.timeout.stepSeconds = sent.timeout.stepSeconds := by
    have h := getD_of_canonicalJson hbackTimeout hsentTimeout htimeout "step_seconds"
    simp only [getD_cons, String.reduceEq, if_true, if_false] at h
    exact option_of_sorted h
  have hsameAbandon : back.cancellation.abandonAfterSeconds =
      sent.cancellation.abandonAfterSeconds := by
    have h := getD_of_canonicalJson hbackCancellation hsentCancellation hcancellation
      "abandon_after_seconds"
    simp only [getD_cons, String.reduceEq, if_true, if_false] at h
    exact option_of_sorted h
  intro n hmem
  rcases int_mem_seconds.mp hmem with h | h | h | h
  · exact toFloat_ne_int hbackoff (hsameBackoff.trans h)
  · rw [hsameRun.trans h] at hrun
    exact optionToFloat_ne_int hrun
  · rw [hsameStep.trans h] at hstep
    exact optionToFloat_ne_int hstep
  · rw [hsameAbandon.trans h] at habandon
    exact optionToFloat_ne_int habandon

/-! ## Envelopes of a request -/

theorem refuse_error {bad : Prop} [Decidable bad] {error raised : EnvelopeError}
    (h : Checked.refuse bad error = .error raised) : bad := by
  by_contra hgood
  rw [Checked.refuse_eq_ok.mpr hgood] at h
  cases h

/-- Without settings and intents a request keeps its own values. -/
theorem resolve_nil : sent.resolve [] [] = .ok sent := by
  have hown : ∀ {α : Type} (explicit : Bool) (own : α) (read : Json → Except PyError α),
      effective explicit own .null read = .ok own := by
    intro α explicit own read
    unfold effective given
    rw [Bool.not_false, Bool.or_true, if_pos rfl]
  unfold RunRequest.resolve
  have hnull : ∀ key, getD [] key .null = .null := fun _ => rfl
  simp only [hnull, mappingFields, profileValue, given, Bool.false_eq_true, if_false, hown,
    Checked.ok_bind]
  exact sent.init_parts sent.retry sent.timeout sent.cancellation

theorem lift_ok {α : Type} (value : α) : lift (.ok value : Except PyError α) = .ok value := rfl

/-- A pipeline plan's envelope is refused for a request with an integer. -/
theorem create_integers (hsent : WellFormed (.obj sent.toDict))
    (htrip : RunRequest.fromDict host.toRequestHost sent.toDict = .ok back)
    (hmem : ∃ n, Number.int n ∈ seconds sent) (profileName : String) :
    create (.pipeline [] []) profileName sent = .error .effectiveRequest := by
  have hempty : reload (.obj []) = .ok (.obj []) := reload_eq ⟨List.nodup_nil, trivial⟩
  have hplan : decodePlan (.pipeline [] []) = .ok (.pipeline [] []) := by
    unfold decodePlan
    dsimp only
    rw [hempty, Checked.ok_bind, Checked.ok_bind]
    rfl
  have htexts : canonicalJson (.obj sent.toDict) ≠ canonicalJson (.obj back.toDict) := by
    intro h
    obtain ⟨n, hn⟩ := hmem
    exact floats_of_text hsent htrip h.symm n hn
  unfold create effectiveRequest
  dsimp only
  rw [resolve_nil, lift_ok, Checked.ok_bind, hplan, lift_ok, Checked.ok_bind, htrip, lift_ok,
    Checked.ok_bind]
  dsimp only
  rw [resolve_nil, lift_ok, Checked.ok_bind]
  unfold Checked.refuse
  rw [if_pos htexts]
  rfl

/-- An adaptive plan does not bind a request with an absolute path. -/
theorem create_paths (hsent : WellFormed (.obj sent.toDict))
    (hmem : ∃ text, Json.str text ∈ leaves (.obj sent.toDict) ∧ isAbsolutePath text = true)
    (profileName : String) :
    create (.adaptive (safeRef (.obj sent.toDict))) profileName sent =
      .error .unboundRequest := by
  have horEmpty : orEmpty (safeRef (.obj sent.toDict)) = safeRef (.obj sent.toDict) := rfl
  have hunequal : equal host (safeRef (.obj sent.toDict)) (.obj sent.toDict) = false := by
    rw [← Bool.not_eq_true]
    intro h
    obtain ⟨text, hleaf, habsolute⟩ := hmem
    rw [(safeRef_eq_self_iff _).mp (safeRef_eq_of_equal hsent h) text hleaf] at habsolute
    cases habsolute
  unfold create effectiveRequest
  dsimp only
  rw [horEmpty, hunequal]
  rfl

/-- The envelope of a plain request fails neither of its own checks. -/
theorem create_plain (hsent : WellFormed (.obj sent.toDict)) (hplain : Plain sent)
    (htrip : RunRequest.fromDict host.toRequestHost sent.toDict = .ok back)
    {plan : PlanDocument} (hplan : plan.MadeFor sent) (profileName : String)
    {error : EnvelopeError} (herror : create plan profileName sent = .error error) :
    error.message = none := by
  obtain rfl := back_eq_of_floats hplain.floats htrip
  have haccepted : ∀ {bad : Prop} [Decidable bad] {raised : EnvelopeError}, ¬ bad →
      Checked.refuse bad raised = .ok () := fun hgood => Checked.refuse_eq_ok.mpr hgood
  cases plan with
  | pipeline settings intents =>
      obtain ⟨hsettings, hintents⟩ := hplan
      have hdecoded : decodePlan (.pipeline settings intents) =
          .ok (.pipeline (inKeyOrder settings) (inKeyOrder intents)) := by
        unfold decodePlan
        dsimp only
        rw [reload_eq hsettings, Checked.ok_bind, reload_eq hintents, Checked.ok_bind]
        rfl
      unfold create effectiveRequest at herror
      dsimp only [PlanDocument.settings, PlanDocument.intents] at herror
      cases hresolved : back.resolve settings intents with
      | error raised =>
          rw [hresolved] at herror
          obtain rfl := Except.error.inj herror
          rfl
      | ok resolved =>
          rw [hresolved, lift_ok, Checked.ok_bind, hdecoded, lift_ok, Checked.ok_bind, htrip,
            lift_ok, Checked.ok_bind] at herror
          dsimp only at herror
          rw [back.resolve_inKeyOrder hsettings hintents, hresolved, lift_ok, Checked.ok_bind,
            haccepted (not_not_intro rfl), Checked.ok_bind] at herror
          have hdiffers := refuse_error herror
          exact absurd (congrArg (fun entries => canonicalJson (provenanceJson entries))
            (back.settingProvenance_inKeyOrder hsettings hintents profileName).symm) hdiffers
  | adaptive stored =>
      have hstored : stored = .obj back.toDict :=
        hplan.trans ((safeRef_eq_self_iff _).mpr hplain.logical)
      have hdecoded : decodePlan (.adaptive stored) = .ok (.adaptive (sorted stored)) := by
        unfold decodePlan
        dsimp only
        rw [reload_eq (hstored ▸ hsent)]
        rfl
      have hbinds : equal host (orEmpty stored) (.obj back.toDict) = true := by
        rw [hstored]
        exact equal_refl _
      have hstillBinds : equal host (orEmpty (sorted stored)) (.obj back.toDict) = true := by
        rw [hstored]
        exact equal_sorted _ hsent
      unfold create effectiveRequest at herror
      dsimp only [PlanDocument.settings, PlanDocument.intents] at herror
      rw [if_pos hbinds, Checked.ok_bind, hdecoded, lift_ok, Checked.ok_bind, htrip, lift_ok,
        Checked.ok_bind] at herror
      dsimp only at herror
      rw [if_pos hstillBinds, Checked.ok_bind, haccepted (not_not_intro rfl),
        Checked.ok_bind] at herror
      exact absurd rfl (refuse_error herror)

/-- The built-in functions as far as thirty seconds need them. -/
def plainHost : EnvelopeHost where
  lower := id
  repr text := "'" ++ text ++ "'"
  reprJson _ := "?"
  floatOfInt n := if n = 30 then some "30.0" else none
  floatOfInt_numeral := by
    intro n text h
    split at h
    · obtain rfl := Option.some.inj h
      decide
    · cases h
  toInt
    | .int n => .ok n
    | _ => .error (.typeError "int() argument must be a number")
  toFloat
    | .float text => .ok text
    | _ => .error (.typeError "float() argument must be a number")
  integral text := if text = "30.0" then some 30 else none

/-- `RunRequest(timeout=TimeoutPolicy(run_seconds=limit))`. -/
def timedRequest (limit : Number) : RunRequest plainHost.toRequestHost where
  selection := .all
  intent := .standard
  materialization := .default_
  retry := {}
  timeout := ⟨some limit, none⟩
  cancellation := {}
  parameterOverrides := []
  bindingOverrides := []
  implementationOverrides := []
  invalidation := .none_
  noWrite := false
  metadata := []
  extensions := []
  explicitSettings := timeoutSettings
  dry := by decide
  known := by decide
  clean := rfl

theorem wellFormed_stringsJson (texts : List String) : WellFormed (stringsJson texts) := by
  unfold stringsJson
  refine Json.itemsWellFormed_iff.mpr ?_
  intro item hitem
  obtain ⟨text, -, rfl⟩ := List.mem_map.mp hitem
  exact trivial

theorem timedRequest_wellFormed {limit : Number} (h : WellFormed limit.json) :
    WellFormed (.obj (timedRequest limit).toDict) := by
  refine ⟨by simp [RunRequest.toDict], ?_⟩
  have hzero : WellFormed (.float "0.0") := by
    show Json.isFloatNumeral _ = true
    decide
  simpa [RunRequest.toDict, timedRequest, RunSelection.toDict, RunSelection.all,
    RetryPolicy.toDict, TimeoutPolicy.toDict, CancellationPolicy.toDict, textFields, optionJson,
    Number.json, Json.FieldsWellFormed, WellFormed, wellFormed_stringsJson] using
    And.intro hzero h

theorem timedRequest_int_wellFormed : WellFormed (.obj (timedRequest (.int 30)).toDict) :=
  timedRequest_wellFormed (show WellFormed (.int 30) from trivial)

theorem timedRequest_float_wellFormed :
    WellFormed (.obj (timedRequest (.float "30.0")).toDict) := by
  refine timedRequest_wellFormed ?_
  show Json.isFloatNumeral _ = true
  decide

theorem timedRequest_trip : RunRequest.fromDict plainHost.toRequestHost
    (timedRequest (.int 30)).toDict = .ok (timedRequest (.float "30.0")) := by
  rw [RunRequest.fromDict_toDict]
  rfl

end Etlantic.ControlPlane.Envelope
