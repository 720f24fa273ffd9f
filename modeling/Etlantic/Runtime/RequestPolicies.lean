import Etlantic.Runtime.RequestTrip

/-!
# Resolved policies

`resolve_request_policies` fills in what a request does not set itself, from the
settings of a plan and then from its intents; `request_setting_provenance` says
where each setting comes from.  Both look at the settings by key only, so the
order in which a plan keeps them does not matter.
-/

namespace Etlantic.Runtime.Wire

open ControlPlane (PyError)

variable {host : RequestHost}

/-! ## Resolution -/

/-- `int(value)`; plans keep arrays as tuples and objects as mapping proxies. -/
def RequestHost.int (host : RequestHost) : Json → Except PyError Int
  | .arr _ => .error (.typeError ("int() argument must be a string, a bytes-like object or " ++
      "a real number, not 'tuple'"))
  | .obj _ => .error (.typeError ("int() argument must be a string, a bytes-like object or " ++
      "a real number, not 'mappingproxy'"))
  | value => host.toInt value

/-- `float(value)`. -/
def RequestHost.float (host : RequestHost) : Json → Except PyError Number
  | .arr _ => .error (.typeError
      "float() argument must be a string or a real number, not 'tuple'")
  | .obj _ => .error (.typeError
      "float() argument must be a string or a real number, not 'mappingproxy'")
  | value => (host.toFloat value).map Number.float

/-- The fields of a mapping, none of anything else. -/
def mappingFields : Json → List (String × Json)
  | .obj fields => fields
  | _ => []

/-- `value is not None`. -/
def given : Json → Bool
  | .null => false
  | _ => true

/-- `profile_value`. -/
def profileValue (settings : List (String × Json)) (settingKey : String)
    (group : List (String × Json)) (intentKey : String) : Json :=
  let value := getD settings settingKey .null
  if given value then value else getD group intentKey .null

/-- A value of the request, unless it is not explicit and there is a default. -/
def effective {α : Type} (explicit : Bool) (own : α) (default : Json)
    (read : Json → Except PyError α) : Except PyError α :=
  if explicit || !given default then .ok own else read default

/-- `resolve_request_policies`. -/
def RunRequest.resolve (r : RunRequest host) (settings intents : List (String × Json)) :
    Except PyError (RunRequest host) := do
  let retryIntent := mappingFields (getD intents "retry" .null)
  let timeoutIntent := mappingFields (getD intents "timeout" .null)
  let explicit := fun setting => decide (setting ∈ r.explicitSettings)
  let attempts ← effective (explicit "retry.max_attempts") r.retry.maxAttempts
    (profileValue settings "retry_max_attempts" retryIntent "max_attempts")
    fun value => (host.int value).map (max 1)
  let backoff ← effective (explicit "retry.backoff_seconds") r.retry.backoffSeconds
    (profileValue settings "retry_backoff_seconds" retryIntent "backoff_seconds") host.float
  let retryOn ← effective (explicit "retry.retry_on") r.retry.retryOn
    (getD retryIntent "retry_on" .null) (stringValues "retry.retry_on")
  let runTimeout ← effective (explicit "timeout.run_seconds") r.timeout.runSeconds
    (profileValue settings "timeout_seconds" timeoutIntent "seconds")
    fun value => (host.float value).map some
  let stepTimeout ← effective (explicit "timeout.step_seconds") r.timeout.stepSeconds
    (profileValue settings "step_timeout_seconds" timeoutIntent "step_seconds")
    fun value => (host.float value).map some
  RunRequest.init host
    { selection := some r.selection
      intent := r.intent
      materialization := r.materialization
      retry := some ⟨attempts, backoff, retryOn⟩
      timeout := some ⟨runTimeout, stepTimeout⟩
      cancellation := some r.cancellation
      parameterOverrides := r.parameterOverrides
      assetOverrides := r.bindingOverrides
      implementationOverrides := r.implementationOverrides
      invalidation := r.invalidation
      noWrite := r.noWrite
      metadata := r.metadata
      extensions := r.extensions
      explicitSettings := some r.explicitSettings }

/-! ## Provenance -/

/-- Entries in the order of their keys. -/
def byKey (entries : List (String × String)) : List (String × String) :=
  entries.insertionSort fun a b => a.1 ≤ b.1

/-- `request_setting_provenance`. -/
def RunRequest.settingProvenance (r : RunRequest host) (settings intents : List (String × Json))
    (profileName : String) : List (String × String) :=
  let retryIntent := mappingFields (getD intents "retry" .null)
  let timeoutIntent := mappingFields (getD intents "timeout" .null)
  let inherited := fun (setting : String) (nested : Json) (legacy : String) =>
    given (getD settings setting .null) || given nested || given (getD intents legacy .null)
  let source := fun (setting : String) (inherits : Bool) =>
    ("request." ++ setting,
      if setting ∈ r.explicitSettings then "request"
      else if inherits then "profile:" ++ profileName
      else "runtime.default")
  let own := fun (setting : String) (changed : Bool) =>
    ("request." ++ setting, if changed then "request" else "runtime.default")
  byKey <|
    (((settings.map Prod.fst).insertionSort (· ≤ ·)).map fun key =>
      ("execution_settings." ++ key, "profile:" ++ profileName)) ++
    [source "retry.max_attempts"
        (inherited "retry_max_attempts" (getD retryIntent "max_attempts" .null)
          "retry_max_attempts"),
      source "retry.backoff_seconds"
        (inherited "retry_backoff_seconds" (getD retryIntent "backoff_seconds" .null)
          "retry_backoff_seconds"),
      source "retry.retry_on"
        (given (getD retryIntent "retry_on" .null) || given (getD intents "retry_on" .null)),
      source "timeout.run_seconds"
        (inherited "timeout_seconds" (getD timeoutIntent "seconds" .null) "timeout_seconds"),
      source "timeout.step_seconds"
        (inherited "step_timeout_seconds" (getD timeoutIntent "step_seconds" .null)
          "step_timeout_seconds"),
      own "selection" (r.selection ≠ .all),
      own "intent" (r.intent ≠ .standard),
      own "materialization" (r.materialization ≠ .default_),
      own "cancellation" (r.cancellation ≠ {}),
      own "parameter_overrides" (!r.parameterOverrides.isEmpty),
      own "asset_overrides" (!r.bindingOverrides.isEmpty),
      own "implementation_overrides" (!r.implementationOverrides.isEmpty),
      own "invalidation" (r.invalidation ≠ .none_),
      own "no_write" r.noWrite,
      own "metadata" (!r.metadata.isEmpty),
      own "extensions" (!r.extensions.isEmpty)]

/-! ## Resolution and the wire -/

theorem host_float_eq_ok {value : Json} {number : Number} (h : host.float value = .ok number) :
    number.toFloat host = .ok number := by
  have hfloat : ∃ text, number = .float text := by
    unfold RequestHost.float at h
    split at h
    · cases h
    · cases h
    · obtain ⟨text, -, rfl⟩ := Checked.map_eq_ok h
      exact ⟨text, rfl⟩
  obtain ⟨text, rfl⟩ := hfloat
  rfl

/-- Coercing the own value before resolution gives what coercing afterwards gives. -/
theorem effective_cases {α : Type} {own own' : α} (read : Json → Except PyError α)
    {coerce : α → Except PyError α} (hown : coerce own = .ok own')
    (hread : ∀ value result, read value = .ok result → coerce result = .ok result)
    (explicit : Bool) (default : Json) :
    (∃ error, effective explicit own default read = .error error ∧
        effective explicit own' default read = .error error) ∨
      ∃ result result', effective explicit own default read = .ok result ∧
        coerce result = .ok result' ∧ effective explicit own' default read = .ok result' := by
  unfold effective
  by_cases h : (explicit || !given default) = true
  · rw [if_pos h, if_pos h]
    exact .inr ⟨own, own', rfl, hown, rfl⟩
  · rw [if_neg h, if_neg h]
    cases hvalue : read default with
    | error error => exact .inl ⟨error, rfl, rfl⟩
    | ok result => exact .inr ⟨result, result, rfl, hread default result hvalue, rfl⟩

theorem optionToFloat_float {value : Json} {result : Option Number}
    (h : (host.float value).map some = .ok result) : optionToFloat host result = .ok result := by
  obtain ⟨number, hnumber, rfl⟩ := Checked.map_eq_ok h
  show (number.toFloat host).map some = _
  rw [host_float_eq_ok hnumber]
  rfl

/-- Resolving the request that came back is resolving the request and sending the result. -/
theorem RunRequest.resolve_trip {r r' : RunRequest host}
    (htrip : RunRequest.fromDict host r.toDict = .ok r') (settings intents : List (String × Json)) :
    r'.resolve settings intents =
      r.resolve settings intents >>= fun e => RunRequest.fromDict host e.toDict := by
  simp only [RunRequest.fromDict_toDict] at htrip ⊢
  unfold RunRequest.coerced at htrip
  obtain ⟨backoff, hbackoff, htrip⟩ := Checked.bind_eq_ok.mp htrip
  obtain ⟨runSeconds, hrun, htrip⟩ := Checked.bind_eq_ok.mp htrip
  obtain ⟨stepSeconds, hstep, htrip⟩ := Checked.bind_eq_ok.mp htrip
  obtain ⟨abandonAfter, habandon, htrip⟩ := Checked.bind_eq_ok.mp htrip
  obtain rfl := Except.ok.inj htrip
  have hbackoff := effective_cases host.float hbackoff fun _ _ => host_float_eq_ok
  have hrun := effective_cases (fun value => (host.float value).map some) hrun
    fun _ _ => optionToFloat_float
  have hstep := effective_cases (fun value => (host.float value).map some) hstep
    fun _ _ => optionToFloat_float
  unfold RunRequest.resolve
  dsimp only
  -- One setting after the other: a default that cannot be read fails on both sides.
  generalize hattempts : effective (decide ("retry.max_attempts" ∈ r.explicitSettings)) _ _ _ =
    attempts
  cases attempts with
  | error error => rfl
  | ok attempts =>
      simp only [Checked.ok_bind]
      rcases hbackoff (decide ("retry.backoff_seconds" ∈ r.explicitSettings)) (profileValue settings
        "retry_backoff_seconds" (mappingFields (getD intents "retry" .null)) "backoff_seconds") with
        ⟨error, h, h'⟩ | ⟨ownBackoff, sentBackoff, h, hsentBackoff, h'⟩
      · rw [h, h']
        rfl
      rw [h, h']
      simp only [Checked.ok_bind]
      generalize effective (decide ("retry.retry_on" ∈ r.explicitSettings)) _ _ _ = retryOn
      cases retryOn with
      | error error => rfl
      | ok retryOn =>
          simp only [Checked.ok_bind]
          rcases hrun (decide ("timeout.run_seconds" ∈ r.explicitSettings)) (profileValue settings
            "timeout_seconds" (mappingFields (getD intents "timeout" .null)) "seconds") with
            ⟨error, h, h'⟩ | ⟨ownRun, sentRun, h, hsentRun, h'⟩
          · rw [h, h']
            rfl
          rw [h, h']
          simp only [Checked.ok_bind]
          rcases hstep (decide ("timeout.step_seconds" ∈ r.explicitSettings))
            (profileValue settings "step_timeout_seconds"
              (mappingFields (getD intents "timeout" .null)) "step_seconds") with
            ⟨error, h, h'⟩ | ⟨ownStep, sentStep, h, hsentStep, h'⟩
          · rw [h, h']
            rfl
          rw [h, h']
          simp only [Checked.ok_bind, r.init_parts]
          unfold RunRequest.coerced
          simp only [hsentBackoff, hsentRun, hsentStep, habandon, Checked.ok_bind]
          rfl

/-! ## Settings in another order -/

open Json (sorted WellFormed)

/-- The fields as canonical text keeps them. -/
def inKeyOrder (fields : List (String × Json)) : List (String × Json) :=
  (Json.sortedFields fields).insertionSort fun a b => a.1 ≤ b.1

theorem sorted_obj (fields : List (String × Json)) :
    sorted (.obj fields) = .obj (inKeyOrder fields) := rfl

variable {fields settings intents group : List (String × Json)}

theorem getD_inKeyOrder (h : WellFormed (.obj fields)) (key : String) :
    getD (inKeyOrder fields) key .null = sorted (getD fields key .null) := by
  unfold getD
  rw [← sorted_obj, Json.field?_sorted h.1]
  cases (Json.obj fields).field? key <;> rfl

theorem wellFormed_getD (h : WellFormed (.obj fields)) (key : String) :
    WellFormed (getD fields key .null) := by
  unfold getD Json.field?
  dsimp only
  cases hfind : fields.find? (fun f => f.1 = key) with
  | none => exact trivial
  | some f => exact Json.fieldsWellFormed_iff.mp h.2 f (List.mem_of_find?_eq_some hfind)

theorem given_sorted (value : Json) : given (sorted value) = given value := by
  cases value <;> rfl

theorem mappingFields_sorted (value : Json) :
    mappingFields (sorted value) = inKeyOrder (mappingFields value) := by
  cases value <;> rfl

theorem wellFormed_mappingFields {value : Json} (h : WellFormed value) :
    WellFormed (.obj (mappingFields value)) := by
  cases value with
  | obj fields => exact h
  | _ => exact ⟨List.nodup_nil, trivial⟩

theorem int_sorted (value : Json) : host.int (sorted value) = host.int value := by
  cases value <;> rfl

theorem float_sorted (value : Json) : host.float (sorted value) = host.float value := by
  cases value <;> rfl

theorem stringValues_sorted (name : String) (value : Json) :
    stringValues name (sorted value) = stringValues name value := by
  cases value with
  | arr items =>
      unfold stringValues
      rw [sorted, Json.sortedItems_eq_map]
      dsimp only
      induction items with
      | nil => rfl
      | cons item rest ih =>
          rw [List.map_cons, List.mapM_cons, List.mapM_cons, ih]
          cases item <;> rfl
  | _ => rfl

theorem profileValue_inKeyOrder (hsettings : WellFormed (.obj settings))
    (hgroup : WellFormed (.obj group)) (settingKey intentKey : String) :
    profileValue (inKeyOrder settings) settingKey (inKeyOrder group) intentKey =
      sorted (profileValue settings settingKey group intentKey) := by
  unfold profileValue
  dsimp only
  rw [getD_inKeyOrder hsettings, getD_inKeyOrder hgroup, given_sorted]
  split <;> rfl

theorem effective_sorted {α : Type} {read : Json → Except PyError α}
    (hread : ∀ value, read (sorted value) = read value) (explicit : Bool) (own : α)
    (default : Json) :
    effective explicit own (sorted default) read = effective explicit own default read := by
  unfold effective
  rw [given_sorted, hread]

/-- Resolution does not depend on the order of the settings. -/
theorem RunRequest.resolve_inKeyOrder (r : RunRequest host)
    (hsettings : WellFormed (.obj settings)) (hintents : WellFormed (.obj intents)) :
    r.resolve (inKeyOrder settings) (inKeyOrder intents) = r.resolve settings intents := by
  have hretry := wellFormed_mappingFields (wellFormed_getD hintents "retry")
  have htimeout := wellFormed_mappingFields (wellFormed_getD hintents "timeout")
  have hattempts : ∀ explicit own default,
      effective explicit own (sorted default) (fun value => (host.int value).map (max 1)) =
        effective explicit own default fun value => (host.int value).map (max 1) :=
    effective_sorted fun value => by rw [int_sorted]
  have hseconds : ∀ explicit own default,
      effective explicit own (sorted default) (fun value => (host.float value).map some) =
        effective explicit own default fun value => (host.float value).map some :=
    effective_sorted fun value => by rw [float_sorted]
  unfold RunRequest.resolve
  simp only [getD_inKeyOrder hintents, mappingFields_sorted, getD_inKeyOrder hretry,
    profileValue_inKeyOrder hsettings hretry, profileValue_inKeyOrder hsettings htimeout,
    hattempts, hseconds, effective_sorted float_sorted,
    effective_sorted (stringValues_sorted "retry.retry_on")]

theorem keys_inKeyOrder (fields : List (String × Json)) :
    ((inKeyOrder fields).map Prod.fst).insertionSort (· ≤ ·) =
      (fields.map Prod.fst).insertionSort (· ≤ ·) := by
  unfold inKeyOrder
  rw [List.map_insertionSort (fun a b : String × Json => a.1 ≤ b.1) (· ≤ ·) Prod.fst _
      (fun _ _ _ _ => Iff.rfl), Json.sortedFields_eq_map, List.map_map]
  exact (List.pairwise_insertionSort _ _).insertionSort_eq

/-- Neither does the provenance. -/
theorem RunRequest.settingProvenance_inKeyOrder (r : RunRequest host)
    (hsettings : WellFormed (.obj settings)) (hintents : WellFormed (.obj intents))
    (profileName : String) :
    r.settingProvenance (inKeyOrder settings) (inKeyOrder intents) profileName =
      r.settingProvenance settings intents profileName := by
  have hretry := wellFormed_mappingFields (wellFormed_getD hintents "retry")
  have htimeout := wellFormed_mappingFields (wellFormed_getD hintents "timeout")
  unfold RunRequest.settingProvenance
  simp only [keys_inKeyOrder, getD_inKeyOrder hintents, getD_inKeyOrder hsettings,
    mappingFields_sorted, getD_inKeyOrder hretry, getD_inKeyOrder htimeout, given_sorted]

end Etlantic.Runtime.Wire
