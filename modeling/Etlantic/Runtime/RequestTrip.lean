import Etlantic.Runtime.RunRequest

/-!
# The wire trip of a run request

A request that its own wire form gives back has floats for all its seconds; the
rest of it is unchanged.
-/

namespace Etlantic.Runtime.Wire

open ControlPlane (PyError)

variable {host : RequestHost}

/-! ## Reading what was written -/

theorem refuseUnknown_eq_ok {what : String} {allowed : Finset String}
    {data : List (String × Json)} (h : ∀ key ∈ data.map Prod.fst, key ∈ allowed) :
    refuseUnknown what allowed data = .ok () := by
  unfold refuseUnknown
  rw [Checked.refuse_eq_ok, not_not, Finset.sdiff_eq_empty_iff_subset]
  intro key hkey
  exact h key (List.mem_toFinset.mp hkey)

theorem getD_cons (key name : String) (value default : Json) (rest : List (String × Json)) :
    getD ((key, value) :: rest) name default =
      if key = name then value else getD rest name default := by
  show (((key, value) :: rest).find? (fun f => decide (f.1 = name)) |>.map Prod.snd).getD default =
    if key = name then value
    else ((rest.find? (fun f => decide (f.1 = name))).map Prod.snd).getD default
  by_cases h : key = name
  · rw [if_pos h, List.find?_cons_of_pos (by exact decide_eq_true h)]
    rfl
  · rw [if_neg h, List.find?_cons_of_neg (by simpa using h)]

theorem stringValues_stringsJson (name : String) (texts : List String) :
    stringValues name (stringsJson texts) = .ok texts := by
  unfold stringValues stringsJson
  dsimp only
  induction texts with
  | nil => rfl
  | cons text rest ih =>
      rw [List.map_cons, List.mapM_cons, ih]
      rfl

theorem inOrder_toFinset (texts : Finset String) : (inOrder texts).toFinset = texts :=
  Finset.sort_toFinset texts _

theorem textOrNull_optionJson (name : String) (text : Option String) :
    textOrNull name (optionJson Json.str text) = .ok text := by
  cases text <;> rfl

theorem number_json (name : String) (value : Number) : number name value.json = .ok value := by
  cases value <;> rfl

theorem numberOrNull_optionJson (name : String) (value : Option Number) :
    numberOrNull name (optionJson Number.json value) = .ok value := by
  cases value with
  | none => rfl
  | some value => cases value <;> rfl

theorem mapM_textFields (name : String) : ∀ texts : List (String × String),
    ((textFields texts).mapM fun e =>
      match e.2 with
      | .str text => (.ok (e.1, text) : Except PyError (String × String))
      | _ => .error (.typeError (name ++ " must map strings to strings"))) = .ok texts
  | [] => rfl
  | (key, text) :: rest => by
      unfold textFields
      rw [List.map_cons, List.mapM_cons]
      have hrest := mapM_textFields name rest
      unfold textFields at hrest
      rw [hrest]
      rfl

theorem mapM_parameters : ∀ parameters : List (String × List (String × Json)),
    ((parameters.map fun e => (e.1, Json.obj e.2)).mapM fun e =>
      match e.2 with
      | .obj values => (.ok (e.1, values) : Except PyError (String × List (String × Json)))
      | _ => .error (.typeError "parameter_overrides must map strings to objects")) =
        .ok parameters
  | [] => rfl
  | (key, values) :: rest => by
      rw [List.map_cons, List.mapM_cons, mapM_parameters rest]
      rfl

theorem member_value {α : Type} {class_ : String} {members : List α} {value : α → String} {m : α}
    (h : members.find? (fun other => value other = value m) = some m) :
    member host class_ members value (.str (value m)) = .ok m := by
  unfold member
  dsimp only
  rw [h]

theorem RunIntent.find_value (m : RunIntent) :
    RunIntent.members.find? (fun other => other.value = m.value) = some m := by
  cases m <;> decide

theorem MaterializationPolicy.find_value (m : MaterializationPolicy) :
    MaterializationPolicy.members.find? (fun other => other.value = m.value) = some m := by
  cases m <;> decide

theorem InvalidationMode.find_value (m : InvalidationMode) :
    InvalidationMode.members.find? (fun other => other.value = m.value) = some m := by
  cases m <;> decide

/-! ## Parts -/

theorem RunSelection.fromDict_toDict (s : RunSelection) :
    ∃ fields, s.toDict = .obj fields ∧ RunSelection.fromDict fields = .ok s := by
  refine ⟨_, rfl, ?_⟩
  unfold RunSelection.fromDict
  rw [refuseUnknown_eq_ok (by simp), Checked.ok_bind]
  simp only [getD_cons, String.reduceEq, if_true, if_false]
  rw [stringValues_stringsJson, stringValues_stringsJson, textOrNull_optionJson,
    textOrNull_optionJson]
  show Except.ok _ = _
  rw [inOrder_toFinset]

theorem readRetry_toDict (p : RetryPolicy) :
    ∃ fields, p.toDict = .obj fields ∧ readRetry fields = .ok p := by
  refine ⟨_, rfl, ?_⟩
  unfold readRetry
  rw [refuseUnknown_eq_ok (by simp), Checked.ok_bind]
  simp only [getD_cons, String.reduceEq, if_true, if_false]
  rw [number_json, stringValues_stringsJson]
  rfl

theorem readTimeout_toDict (p : TimeoutPolicy) :
    ∃ fields, p.toDict = .obj fields ∧ readTimeout fields = .ok p := by
  refine ⟨_, rfl, ?_⟩
  unfold readTimeout
  rw [refuseUnknown_eq_ok (by simp), Checked.ok_bind]
  simp only [getD_cons, String.reduceEq, if_true, if_false]
  rw [numberOrNull_optionJson, numberOrNull_optionJson]
  rfl

theorem readCancellation_toDict (p : CancellationPolicy) :
    ∃ fields, p.toDict = .obj fields ∧ readCancellation fields = .ok p := by
  refine ⟨_, rfl, ?_⟩
  unfold readCancellation
  rw [refuseUnknown_eq_ok (by simp), Checked.ok_bind]
  simp only [getD_cons, String.reduceEq, if_true, if_false]
  rw [numberOrNull_optionJson]
  rfl

/-! ## The whole request -/

/-- The request with a float for every number of seconds. -/
def RunRequest.coerced (r : RunRequest host) : Except PyError (RunRequest host) := do
  let backoff ← r.retry.backoffSeconds.toFloat host
  let runSeconds ← optionToFloat host r.timeout.runSeconds
  let stepSeconds ← optionToFloat host r.timeout.stepSeconds
  let abandonAfter ← optionToFloat host r.cancellation.abandonAfterSeconds
  return { r with
    retry := { r.retry with backoffSeconds := backoff }
    timeout := ⟨runSeconds, stepSeconds⟩
    cancellation := { r.cancellation with abandonAfterSeconds := abandonAfter } }

/-- What the constructor makes of arguments it accepts. -/
theorem RunRequest.init_eq_ok {a : Arguments} {r : RunRequest host}
    (hknown : a.explicit ⊆ validExplicitSettings)
    (hclean : Plan.validateExtensionMetadata host.toPlanHost extensionsPath true a.extensions =
      none)
    (hr : r =
      { selection := a.selection.getD .all
        intent := a.intent
        materialization := a.materialization
        retry := a.retry.getD {}
        timeout := a.timeout.getD {}
        cancellation := a.cancellation.getD {}
        parameterOverrides := a.parameterOverrides
        bindingOverrides := a.assetOverrides
        implementationOverrides := a.implementationOverrides
        invalidation := a.invalidation
        noWrite := decide (a.intent = .validate) || a.noWrite
        metadata := a.metadata
        extensions := a.extensions
        explicitSettings := a.explicit
        dry := fun h => by rw [decide_eq_true h, Bool.true_or]
        known := hknown
        clean := hclean }) :
    RunRequest.init host a = .ok r := by
  unfold RunRequest.init
  rw [dif_pos hknown]
  split
  · rename_i error herror
    rw [hclean] at herror
    cases herror
  · rw [hr]

theorem RunRequest.noWrite_eq (r : RunRequest host) :
    (decide (r.intent = .validate) || r.noWrite) = r.noWrite := by
  by_cases h : r.intent = .validate
  · rw [r.dry h, Bool.or_true]
  · rw [decide_eq_false h, Bool.false_or]

/-- The constructor accepts the parts of a request. -/
theorem RunRequest.init_parts (r : RunRequest host) (retry : RetryPolicy)
    (timeout : TimeoutPolicy) (cancellation : CancellationPolicy) :
    RunRequest.init host
      { selection := some r.selection
        intent := r.intent
        materialization := r.materialization
        retry := some retry
        timeout := some timeout
        cancellation := some cancellation
        parameterOverrides := r.parameterOverrides
        assetOverrides := r.bindingOverrides
        implementationOverrides := r.implementationOverrides
        invalidation := r.invalidation
        noWrite := r.noWrite
        metadata := r.metadata
        extensions := r.extensions
        explicitSettings := some r.explicitSettings } =
      .ok { r with retry := retry, timeout := timeout, cancellation := cancellation } := by
  refine RunRequest.init_eq_ok r.known r.clean ?_
  simp only [Option.getD_some, r.noWrite_eq]
  rfl

theorem mappingValue_eq {data fields : List (String × Json)} {name : String}
    (h : getD data name (.obj []) = .obj fields) : mappingValue data name = .ok fields := by
  unfold mappingValue
  rw [h]

/-- The wire gives the request back with floats for its seconds. -/
theorem RunRequest.fromDict_toDict (r : RunRequest host) :
    RunRequest.fromDict host r.toDict = r.coerced := by
  obtain ⟨selectionData, hselectionData, hselection⟩ := r.selection.fromDict_toDict
  obtain ⟨retryData, hretryData, hretry⟩ := readRetry_toDict r.retry
  obtain ⟨timeoutData, htimeoutData, htimeout⟩ := readTimeout_toDict r.timeout
  obtain ⟨cancellationData, hcancellationData, hcancellation⟩ :=
    readCancellation_toDict r.cancellation
  have hunknown : refuseUnknown "run-request" requestFields r.toDict = .ok () :=
    refuseUnknown_eq_ok (by simp [toDict, requestFields])
  have hselectionData : mappingValue r.toDict "selection" = .ok selectionData := by
    refine mappingValue_eq ?_
    simp only [toDict, getD_cons, String.reduceEq, if_true, hselectionData]
  have hretryData : mappingValue r.toDict "retry" = .ok retryData := by
    refine mappingValue_eq ?_
    simp only [toDict, getD_cons, String.reduceEq, if_true, if_false, hretryData]
  have htimeoutData : mappingValue r.toDict "timeout" = .ok timeoutData := by
    refine mappingValue_eq ?_
    simp only [toDict, getD_cons, String.reduceEq, if_true, if_false, htimeoutData]
  have hcancellationData : mappingValue r.toDict "cancellation" = .ok cancellationData := by
    refine mappingValue_eq ?_
    simp only [toDict, getD_cons, String.reduceEq, if_true, if_false, hcancellationData]
  have hparameters : readParameters r.toDict = .ok r.parameterOverrides := by
    have hfields : mappingValue r.toDict "parameter_overrides" =
        .ok (r.parameterOverrides.map fun e => (e.1, .obj e.2)) := by
      refine mappingValue_eq ?_
      simp only [toDict, getD_cons, String.reduceEq, if_true, if_false]
    unfold readParameters
    rw [hfields, Checked.ok_bind]
    exact mapM_parameters r.parameterOverrides
  have hmetadata : mappingValue r.toDict "metadata" = .ok r.metadata := by
    refine mappingValue_eq ?_
    simp only [toDict, getD_cons, String.reduceEq, if_true, if_false]
  have hextensions : mappingValue r.toDict "extensions" = .ok r.extensions := by
    refine mappingValue_eq ?_
    simp only [toDict, getD_cons, String.reduceEq, if_true, if_false]
  have hexplicit : readExplicit host r.toDict r.retry r.timeout = .ok r.explicitSettings := by
    have hfield : (Json.obj r.toDict).field? "explicit_settings" =
        some (stringsJson (inOrder r.explicitSettings)) := by
      simp [toDict, Json.field?]
    unfold readExplicit
    rw [hfield]
    dsimp only
    rw [stringValues_stringsJson]
    exact congrArg Except.ok (inOrder_toFinset r.explicitSettings)
  have hassets : stringMapping r.toDict "asset_overrides" = .ok r.bindingOverrides := by
    have hfields : mappingValue r.toDict "asset_overrides" =
        .ok (textFields r.bindingOverrides) := by
      refine mappingValue_eq ?_
      simp only [toDict, getD_cons, String.reduceEq, if_true, if_false]
    unfold stringMapping
    rw [hfields, Checked.ok_bind]
    exact mapM_textFields "asset_overrides" r.bindingOverrides
  have himplementations : stringMapping r.toDict "implementation_overrides" =
      .ok r.implementationOverrides := by
    have hfields : mappingValue r.toDict "implementation_overrides" =
        .ok (textFields r.implementationOverrides) := by
      refine mappingValue_eq ?_
      simp only [toDict, getD_cons, String.reduceEq, if_true, if_false]
    unfold stringMapping
    rw [hfields, Checked.ok_bind]
    exact mapM_textFields "implementation_overrides" r.implementationOverrides
  have hnoWrite : getD r.toDict "no_write" (.bool false) = .bool r.noWrite := by
    simp only [toDict, getD_cons, String.reduceEq, if_true, if_false]
  have hintent : getD r.toDict "intent" (.str "standard") = .str r.intent.value := by
    simp only [toDict, getD_cons, String.reduceEq, if_true, if_false]
  have hmaterialization : getD r.toDict "materialization" (.str "default") =
      .str r.materialization.value := by
    simp only [toDict, getD_cons, String.reduceEq, if_true, if_false]
  have hinvalidation : getD r.toDict "invalidation" (.str "none") =
      .str r.invalidation.value := by
    simp only [toDict, getD_cons, String.reduceEq, if_true, if_false]
  unfold RunRequest.fromDict RunRequest.coerced
  simp only [hunknown, hselectionData, hretryData, htimeoutData, hcancellationData, hselection,
    hretry, htimeout, hcancellation, hparameters, hmetadata, hextensions, hexplicit, hassets,
    himplementations, hnoWrite, hintent, hmaterialization, hinvalidation, Checked.ok_bind,
    member_value r.intent.find_value, member_value r.materialization.find_value,
    member_value r.invalidation.find_value, r.init_parts]
  rfl

end Etlantic.Runtime.Wire
