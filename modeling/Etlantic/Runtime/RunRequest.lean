import Etlantic.Base.Checked
import Etlantic.Base.JsonCanonical
import Etlantic.Plan.Extensions
import Mathlib.Data.Finset.Sort
import Mathlib.Data.String.Basic

/-!
# Run requests

`RunRequest` with its wire form.  The constructor keeps a number as the caller
passed it, an integer or a float; the decoder makes a float of every number of
seconds.  The rest of a request survives the wire unchanged.
-/

namespace Etlantic.Runtime.Wire

open ControlPlane (PyError)
open Plan (PlanHost validateExtensionMetadata)

/-! ## Values -/

/-- What requests use of the built-in `float`, `int` and `repr`. -/
structure RequestHost extends PlanHost where
  reprJson : Json → String
  /-- `repr(float(n))`, or none where `float` overflows. -/
  floatOfInt : Int → Option String
  /-- The `repr` of a float has a point or an exponent. -/
  floatOfInt_numeral : ∀ n text, floatOfInt n = some text →
    Json.isFloatNumeral text.toList = true
  /-- `int(value)`. -/
  toInt : Json → Except PyError Int
  /-- The `repr` of `float(value)`. -/
  toFloat : Json → Except PyError String

/-- An `int` or a `float`, the float known by its `repr`. -/
inductive Number where
  | int (n : Int)
  | float (text : String)
deriving DecidableEq

def Number.json : Number → Json
  | .int n => .int n
  | .float text => .float text

def optionJson {α : Type} (json : α → Json) : Option α → Json
  | none => .null
  | some value => json value

def overflow : PyError := .overflowError "int too large to convert to float"

/-- `float(value)`. -/
def Number.toFloat (host : RequestHost) : Number → Except PyError Number
  | .int n =>
      match host.floatOfInt n with
      | none => .error overflow
      | some text => .ok (.float text)
  | .float text => .ok (.float text)

/-- `float(value) if value is not None else None`. -/
def optionToFloat (host : RequestHost) : Option Number → Except PyError (Option Number)
  | none => .ok none
  | some value => (value.toFloat host).map some

/-- `float(value) != 0.0`. -/
def Number.nonzero (host : RequestHost) (value : Number) : Except PyError Bool :=
  match value with
  | .int n => ((Number.int n).toFloat host).map fun _ => decide (n ≠ 0)
  | .float text => .ok (decide (text ≠ "0.0" ∧ text ≠ "-0.0"))

def stringsJson (texts : List String) : Json := .arr (texts.map .str)

/-- A set of texts in order. -/
def inOrder (texts : Finset String) : List String := texts.sort (· ≤ ·)

/-! ## Choices -/

inductive RunIntent where
  | standard
  | initialize_
  | incremental
  | refresh
  | validate
  | repair
  | backfill
  | replay
  | resume
deriving DecidableEq

def RunIntent.value : RunIntent → String
  | .standard => "standard"
  | .initialize_ => "initialize"
  | .incremental => "incremental"
  | .refresh => "refresh"
  | .validate => "validate"
  | .repair => "repair"
  | .backfill => "backfill"
  | .replay => "replay"
  | .resume => "resume"

def RunIntent.members : List RunIntent :=
  [.standard, .initialize_, .incremental, .refresh, .validate, .repair, .backfill, .replay,
    .resume]

inductive MaterializationPolicy where
  | default_
  | none_
  | eager
  | durable
deriving DecidableEq

def MaterializationPolicy.value : MaterializationPolicy → String
  | .default_ => "default"
  | .none_ => "none"
  | .eager => "eager"
  | .durable => "durable"

def MaterializationPolicy.members : List MaterializationPolicy :=
  [.default_, .none_, .eager, .durable]

inductive InvalidationMode where
  | none_
  | target
  | downstream
  | closure
deriving DecidableEq

def InvalidationMode.value : InvalidationMode → String
  | .none_ => "none"
  | .target => "target"
  | .downstream => "downstream"
  | .closure => "closure"

def InvalidationMode.members : List InvalidationMode := [.none_, .target, .downstream, .closure]

/-- The member of an enumeration with the given value. -/
def member {α : Type} (host : RequestHost) (class_ : String) (members : List α)
    (value : α → String) (given : Json) : Except PyError α :=
  let found :=
    match given with
    | .str text => members.find? fun m => value m = text
    | _ => none
  match found with
  | some m => .ok m
  | none => .error (.valueError (host.reprJson given ++ " is not a valid " ++ class_))

/-! ## Policies -/

structure RetryPolicy where
  maxAttempts : Int := 1
  backoffSeconds : Number := .float "0.0"
  retryOn : List String := []
deriving DecidableEq

def RetryPolicy.toDict (p : RetryPolicy) : Json :=
  .obj [("max_attempts", .int p.maxAttempts), ("backoff_seconds", p.backoffSeconds.json),
    ("retry_on", stringsJson p.retryOn)]

structure TimeoutPolicy where
  runSeconds : Option Number := none
  stepSeconds : Option Number := none
deriving DecidableEq

def TimeoutPolicy.toDict (p : TimeoutPolicy) : Json :=
  .obj [("run_seconds", optionJson Number.json p.runSeconds),
    ("step_seconds", optionJson Number.json p.stepSeconds)]

structure CancellationPolicy where
  cooperative : Bool := true
  abandonAfterSeconds : Option Number := none
deriving DecidableEq

def CancellationPolicy.toDict (p : CancellationPolicy) : Json :=
  .obj [("cooperative", .bool p.cooperative),
    ("abandon_after_seconds", optionJson Number.json p.abandonAfterSeconds)]

structure RunSelection where
  kind : String
  nodes : List String := []
  tags : Finset String := ∅
  start : Option String := none
  end_ : Option String := none
deriving DecidableEq

def RunSelection.all : RunSelection := { kind := "all" }

def RunSelection.toDict (s : RunSelection) : Json :=
  .obj [("kind", .str s.kind), ("nodes", stringsJson s.nodes),
    ("tags", stringsJson (inOrder s.tags)), ("start", optionJson Json.str s.start),
    ("end", optionJson Json.str s.end_)]

/-! ## Requests -/

/-- `valid_explicit_settings`. -/
def validExplicitSettings : Finset String :=
  {"retry.max_attempts", "retry.backoff_seconds", "retry.retry_on", "timeout.run_seconds",
    "timeout.step_seconds"}

def extensionsPath : String := "run_request.extensions"

/-- A request that its constructor let through. -/
structure RunRequest (host : RequestHost) where
  selection : RunSelection
  intent : RunIntent
  materialization : MaterializationPolicy
  retry : RetryPolicy
  timeout : TimeoutPolicy
  cancellation : CancellationPolicy
  parameterOverrides : List (String × List (String × Json))
  bindingOverrides : List (String × String)
  implementationOverrides : List (String × String)
  invalidation : InvalidationMode
  noWrite : Bool
  metadata : List (String × Json)
  extensions : List (String × Json)
  explicitSettings : Finset String
  dry : intent = .validate → noWrite = true
  known : explicitSettings ⊆ validExplicitSettings
  clean : validateExtensionMetadata host.toPlanHost extensionsPath true extensions = none

/-- The arguments of the constructor. -/
structure Arguments where
  selection : Option RunSelection := none
  intent : RunIntent := .standard
  materialization : MaterializationPolicy := .default_
  retry : Option RetryPolicy := none
  timeout : Option TimeoutPolicy := none
  cancellation : Option CancellationPolicy := none
  parameterOverrides : List (String × List (String × Json)) := []
  assetOverrides : List (String × String) := []
  implementationOverrides : List (String × String) := []
  invalidation : InvalidationMode := .none_
  noWrite : Bool := false
  metadata : List (String × Json) := []
  extensions : List (String × Json) := []
  explicitSettings : Option (Finset String) := none

def retrySettings : Finset String :=
  {"retry.max_attempts", "retry.backoff_seconds", "retry.retry_on"}

def timeoutSettings : Finset String := {"timeout.run_seconds", "timeout.step_seconds"}

/-- What the arguments set explicitly: by default, the policies they give. -/
def Arguments.explicit (a : Arguments) : Finset String :=
  match a.explicitSettings with
  | some explicit => explicit
  | none =>
      (if a.retry.isSome then retrySettings else ∅) ∪
        (if a.timeout.isSome then timeoutSettings else ∅)

/-- `RunRequest.__init__`. -/
def RunRequest.init (host : RequestHost) (a : Arguments) : Except PyError (RunRequest host) :=
  if hknown : a.explicit ⊆ validExplicitSettings then
    match hclean : validateExtensionMetadata host.toPlanHost extensionsPath true a.extensions with
    | some error => .error error
    | none => .ok
        { selection := a.selection.getD .all
          intent := a.intent
          materialization := a.materialization
          retry := a.retry.getD {}
          timeout := a.timeout.getD {}
          cancellation := a.cancellation.getD {}
          parameterOverrides := a.parameterOverrides
          bindingOverrides := a.assetOverrides
          implementationOverrides := a.implementationOverrides
          invalidation := a.invalidation
          noWrite := decide (a.intent = .validate) || a.noWrite
          metadata := a.metadata
          extensions := a.extensions
          explicitSettings := a.explicit
          dry := by
            intro h
            rw [decide_eq_true h, Bool.true_or]
          known := hknown
          clean := hclean }
  else .error (.valueError ("Unknown explicit setting(s): " ++
    ", ".intercalate (inOrder (a.explicit \ validExplicitSettings))))

def textFields (texts : List (String × String)) : List (String × Json) :=
  texts.map fun e => (e.1, .str e.2)

def RunRequest.toDict {host : RequestHost} (r : RunRequest host) : List (String × Json) :=
  [("selection", r.selection.toDict),
    ("intent", .str r.intent.value),
    ("materialization", .str r.materialization.value),
    ("retry", r.retry.toDict),
    ("timeout", r.timeout.toDict),
    ("cancellation", r.cancellation.toDict),
    ("parameter_overrides", .obj (r.parameterOverrides.map fun e => (e.1, .obj e.2))),
    ("asset_overrides", .obj (textFields r.bindingOverrides)),
    ("implementation_overrides", .obj (textFields r.implementationOverrides)),
    ("invalidation", .str r.invalidation.value),
    ("no_write", .bool r.noWrite),
    ("metadata", .obj r.metadata),
    ("extensions", .obj r.extensions),
    ("explicit_settings", stringsJson (inOrder r.explicitSettings))]

/-! ## Decoding -/

/-- `data.get(name, default)`. -/
def getD (data : List (String × Json)) (name : String) (default : Json) : Json :=
  ((Json.obj data).field? name).getD default

/-- `unknown = set(data) - allowed`. -/
def refuseUnknown (what : String) (allowed : Finset String) (data : List (String × Json)) :
    Except PyError Unit :=
  let unknown := (data.map Prod.fst).toFinset \ allowed
  Checked.refuse (unknown ≠ ∅)
    (.valueError ("Unknown " ++ what ++ " field(s): " ++ ", ".intercalate (inOrder unknown)))

/-- `_string_values` of a list; the wire has no sets. -/
def stringValues (name : String) : Json → Except PyError (List String)
  | .arr items => items.mapM fun item =>
      match item with
      | .str text => .ok text
      | _ => .error (.typeError (name ++ " must be a list of strings"))
  | _ => .error (.typeError (name ++ " must be a list of strings"))

/-- A text or nothing. -/
def textOrNull (name : String) : Json → Except PyError (Option String)
  | .null => .ok none
  | .str text => .ok (some text)
  | _ => .error (.typeError (name ++ " must be a string or null"))

def RunSelection.fromDict (data : List (String × Json)) : Except PyError RunSelection := do
  refuseUnknown "run-selection" {"kind", "nodes", "tags", "start", "end"} data
  let kind ←
    match getD data "kind" (.str "all") with
    | .str kind => .ok kind
    | _ => .error (.typeError "selection.kind must be a string")
  let nodes ← stringValues "selection.nodes" (getD data "nodes" (.arr []))
  let tags ← stringValues "selection.tags" (getD data "tags" (.arr []))
  let start ← textOrNull "selection.start" (getD data "start" .null)
  let end_ ← textOrNull "selection.end" (getD data "end" .null)
  return { kind := kind, nodes := nodes, tags := tags.toFinset, start := start, end_ := end_ }

/-- A number, which no boolean is. -/
def number (name : String) : Json → Except PyError Number
  | .int n => .ok (.int n)
  | .float text => .ok (.float text)
  | _ => .error (.typeError (name ++ " must be a number"))

def numberOrNull (name : String) : Json → Except PyError (Option Number)
  | .null => .ok none
  | .int n => .ok (some (.int n))
  | .float text => .ok (some (.float text))
  | _ => .error (.typeError (name ++ " must be a number or null"))

/-- The retry fields of a request. -/
def readRetry (data : List (String × Json)) : Except PyError RetryPolicy := do
  refuseUnknown "retry" {"max_attempts", "backoff_seconds", "retry_on"} data
  let maxAttempts ←
    match getD data "max_attempts" (.int 1) with
    | .int n => .ok n
    | _ => .error (.typeError "retry.max_attempts must be an integer")
  let backoff ← number "retry.backoff_seconds" (getD data "backoff_seconds" (.float "0.0"))
  let retryOn ← stringValues "retry.retry_on" (getD data "retry_on" (.arr []))
  return ⟨maxAttempts, backoff, retryOn⟩

/-- The timeout fields of a request. -/
def readTimeout (data : List (String × Json)) : Except PyError TimeoutPolicy := do
  refuseUnknown "timeout" {"run_seconds", "step_seconds"} data
  let runSeconds ← numberOrNull "timeout.run_seconds" (getD data "run_seconds" .null)
  let stepSeconds ← numberOrNull "timeout.step_seconds" (getD data "step_seconds" .null)
  return ⟨runSeconds, stepSeconds⟩

/-- The cancellation fields of a request. -/
def readCancellation (data : List (String × Json)) : Except PyError CancellationPolicy := do
  refuseUnknown "cancellation" {"cooperative", "abandon_after_seconds"} data
  let cooperative ←
    match getD data "cooperative" (.bool true) with
    | .bool b => .ok b
    | _ => .error (.typeError "cancellation.cooperative must be a boolean")
  let abandonAfter ← numberOrNull "cancellation.abandon_after_seconds"
    (getD data "abandon_after_seconds" .null)
  return ⟨cooperative, abandonAfter⟩

/-- `mapping_value(name)`. -/
def mappingValue (data : List (String × Json)) (name : String) :
    Except PyError (List (String × Json)) :=
  match getD data name (.obj []) with
  | .obj fields => .ok fields
  | _ => .error (.typeError (name ++ " must be an object"))

/-- `string_mapping(name)`. -/
def stringMapping (data : List (String × Json)) (name : String) :
    Except PyError (List (String × String)) := do
  let fields ← mappingValue data name
  fields.mapM fun e =>
    match e.2 with
    | .str text => .ok (e.1, text)
    | _ => .error (.typeError (name ++ " must map strings to strings"))

def readParameters (data : List (String × Json)) :
    Except PyError (List (String × List (String × Json))) := do
  let fields ← mappingValue data "parameter_overrides"
  fields.mapM fun e =>
    match e.2 with
    | .obj values => .ok (e.1, values)
    | _ => .error (.typeError "parameter_overrides must map strings to objects")

/-- The explicit settings, which only a request with default policies can leave out. -/
def readExplicit (host : RequestHost) (data : List (String × Json)) (retry : RetryPolicy)
    (timeout : TimeoutPolicy) : Except PyError (Finset String) :=
  match (Json.obj data).field? "explicit_settings" with
  | some given => (stringValues "explicit_settings" given).map List.toFinset
  | none => do
      let changed : Except PyError Bool :=
        if retry.maxAttempts ≠ 1 then .ok true
        else do
          let backoff ← retry.backoffSeconds.nonzero host
          return backoff || !retry.retryOn.isEmpty || timeout.runSeconds.isSome ||
            timeout.stepSeconds.isSome
      let changed ← changed
      Checked.refuse (changed = true) (.valueError
        ("Run requests with non-default retry or timeout values " ++
          "must include explicit_settings"))
      return ∅

def requestFields : Finset String :=
  {"selection", "intent", "materialization", "retry", "timeout", "cancellation",
    "parameter_overrides", "asset_overrides", "implementation_overrides", "invalidation",
    "no_write", "metadata", "extensions", "explicit_settings"}

def RunRequest.fromDict (host : RequestHost) (data : List (String × Json)) :
    Except PyError (RunRequest host) := do
  refuseUnknown "run-request" requestFields data
  let selectionData ← mappingValue data "selection"
  let retryData ← mappingValue data "retry"
  let timeoutData ← mappingValue data "timeout"
  let cancellationData ← mappingValue data "cancellation"
  let selection ← RunSelection.fromDict selectionData
  let retry ← readRetry retryData
  let timeout ← readTimeout timeoutData
  let cancellation ← readCancellation cancellationData
  let parameters ← readParameters data
  let metadata ← mappingValue data "metadata"
  let extensions ← mappingValue data "extensions"
  let explicit ← readExplicit host data retry timeout
  let noWrite ←
    match getD data "no_write" (.bool false) with
    | .bool b => .ok b
    | _ => .error (.typeError "no_write must be a boolean")
  let intent ← member host "RunIntent" RunIntent.members RunIntent.value
    (getD data "intent" (.str "standard"))
  let materialization ← member host "MaterializationPolicy" MaterializationPolicy.members
    MaterializationPolicy.value (getD data "materialization" (.str "default"))
  let invalidation ← member host "InvalidationMode" InvalidationMode.members
    InvalidationMode.value (getD data "invalidation" (.str "none"))
  let backoff ← retry.backoffSeconds.toFloat host
  let runSeconds ← optionToFloat host timeout.runSeconds
  let stepSeconds ← optionToFloat host timeout.stepSeconds
  let abandonAfter ← optionToFloat host cancellation.abandonAfterSeconds
  let assets ← stringMapping data "asset_overrides"
  let implementations ← stringMapping data "implementation_overrides"
  RunRequest.init host
    { selection := some selection
      intent := intent
      materialization := materialization
      retry := some { retry with backoffSeconds := backoff }
      timeout := some ⟨runSeconds, stepSeconds⟩
      cancellation := some { cancellation with abandonAfterSeconds := abandonAfter }
      parameterOverrides := parameters
      assetOverrides := assets
      implementationOverrides := implementations
      invalidation := invalidation
      noWrite := noWrite
      metadata := metadata
      extensions := extensions
      explicitSettings := some explicit }

end Etlantic.Runtime.Wire
