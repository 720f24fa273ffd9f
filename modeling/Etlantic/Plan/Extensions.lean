import Etlantic.ControlPlane.Models

/-!
# Extension metadata

`validate_extension_metadata`: the budgets of plan metadata and the search for secret
material in it.  Bare keys only warn unless the profile is strict.
-/

namespace Etlantic.Plan

open ControlPlane (PyError)
open Regex

/-- What the plan layer uses of `str` and of the Unicode tables. -/
structure PlanHost where
  /-- `text.lower()` of a text that is not all ASCII. -/
  lower : String → String
  repr : String → String

def isAscii (text : String) : Bool := text.toList.all fun c => c.toNat < 128

def asciiLower (text : String) : String := String.ofList (text.toList.map Char.toLower)

/-- `text.lower()`. -/
def lowerText (host : PlanHost) (text : String) : String :=
  if isAscii text then asciiLower text else host.lower text

theorem lowerText_of_ascii {host : PlanHost} {text : String} (h : isAscii text = true) :
    lowerText host text = asciiLower text := if_pos h

/-- `needle in text`. -/
def containsText (needle text : String) : Bool :=
  text.toList.tails.any fun rest => needle.toList.isPrefixOf rest

/-- `text.endswith(suffix)`. -/
def hasSuffix (suffix text : String) : Bool := suffix.toList.isSuffixOf text.toList

/-! ## Secret-like keys -/

def isUpper (c : Char) : Bool := 'A' ≤ c ∧ c ≤ 'Z'

def isLower (c : Char) : Bool := 'a' ≤ c ∧ c ≤ 'z'

/-- `r"\1_\2"`. -/
def underscored (groups : List (Nat × List Char)) : List Char :=
  groupText groups 1 ++ '_' :: groupText groups 2

/-- `_normalize_metadata_key`. -/
def normalizeMetadataKey (key : String) : String :=
  let text := sub (seq (group 1 (some_ isUpper)) (group 2 (seq (cls isUpper) (cls isLower))))
    underscored key
  let text := sub (seq (group 1 (cls fun c => isLower c || isAsciiDigit c))
    (group 2 (cls isUpper))) underscored text
  let text := sub (some_ fun c => !(isUpper c || isLower c || isAsciiDigit c))
    (fun _ => ['_']) text
  String.ofList (((text.toList.dropWhile (· = '_')).reverse.dropWhile (· = '_')).reverse.map
    Char.toLower)

/-- `_STRICT_SECRET_KEYS`. -/
def strictSecretKeys : List String :=
  ["password", "passwd", "pwd", "secret", "secret_value", "token", "api_key", "api_token",
    "access_key", "access_token", "authorization", "aws_secret_access_key", "aws_access_key_id",
    "private_key", "client_secret", "credential", "credentials", "dsn", "connection_string",
    "jdbc_url", "database_url", "db_url"]

/-- `^` and `$` of a text without line breaks. -/
def atStart : Regex := notBehind fun _ => true

def atEnd : Regex := notAhead (cls fun _ => true)

/-- `_SECRET_KEY_FRAGMENT_RE`. -/
def secretKeyFragmentRe : Regex :=
  seqAll [alt atStart (lit "_"),
    altAll (["password", "passwd", "pwd", "secret_value", "token", "api_key", "api_token",
      "access_key", "access_token", "private_key", "client_secret", "credential", "credentials",
      "authorization", "dsn", "connection_string", "jdbc_url", "database_url", "db_url",
      "secret"].map word),
    atEnd]

/-- `_COMPACT_SECRET_KEY_SUFFIXES`. -/
def compactSecretKeySuffixes : List String :=
  ["secretvalue", "apikey", "apitoken", "accesskey", "accesstoken", "privatekey",
    "clientsecret", "connectionstring", "jdbcurl", "databaseurl", "dburl",
    "awssecretaccesskey", "awsaccesskeyid"]

/-- `_is_secret_like_key`. -/
def isSecretLikeKey (key : String) : Bool :=
  let text := normalizeMetadataKey key
  text ∈ strictSecretKeys || search secretKeyFragmentRe text ||
    compactSecretKeySuffixes.any fun suffix =>
      hasSuffix suffix (String.ofList (text.toList.filter (· ≠ '_')))

/-! ## Credential-bearing values -/

/-- `_URL_USERINFO_VALUE_RE`. -/
def urlUserinfoValueRe : Regex :=
  seqAll [cls isLetterFold, many (fun c => isLetterFold c || isAsciiDigit c || oneOf "+.-" c),
    lit "://", some_ (fun c => !(isSpace c || oneOf "/@" c)), lit "@"]

/-- `_SECRET_ASSIGNMENT_VALUE_RE`. -/
def secretAssignmentValueRe : Regex :=
  seqAll [alt atStart (cls fun c => isSpace c || oneOf "?&;" c),
    altAll [word "password", word "passwd", word "pwd", word "secret", word "secret_value",
      word "token", seqAll [word "api", opt (cls (oneOf "_-")), word "key"], word "credential",
      word "authorization"],
    many isSpace, cls (oneOf ":=")]

/-- `_BEARER_VALUE_RE`. -/
def bearerValueRe : Regex :=
  seqAll [atStart, word "bearer", some_ isSpace, some_ fun c => !isSpace c]

def userinfoError (path : String) : PyError :=
  .valueError (path ++ " contains a URL with userinfo credentials; " ++
    "failing closed under strict production metadata.")

def credentialError (path : String) : PyError :=
  .valueError (path ++ " contains a credential-bearing value; " ++
    "failing closed under strict production metadata.")

def secretKeyError (host : PlanHost) (path key : String) : PyError :=
  .valueError (path ++ " contains forbidden secret-like key " ++ host.repr key ++
    "; failing closed under strict production metadata.")

/-- The status of an authorization decision of plugin discovery. -/
def isAuthorizationStatus (path key : String) (child : Json) : Bool :=
  normalizeMetadataKey key = "authorization" && containsText "plugin_trust_records[" path &&
    match child with
    | .str text => text ∈ ["allowed", "denied", "skipped", "pending"]
    | _ => false

mutual

/-- `_reject_nested_secret_material`: what it raises. -/
def rejectNestedSecretMaterial (host : PlanHost) (path : String) : Json → Option PyError
  | .obj fields => rejectFields host path fields
  | .arr items => rejectItems host path 0 items
  | .str text =>
      if search urlUserinfoValueRe text then some (userinfoError path)
      else if search secretAssignmentValueRe text || search bearerValueRe text then
        some (credentialError path)
      else none
  | _ => none

def rejectItems (host : PlanHost) (path : String) : Nat → List Json → Option PyError
  | _, [] => none
  | index, item :: rest =>
      (rejectNestedSecretMaterial host (path ++ "[" ++ toString index ++ "]") item).or
        (rejectItems host path (index + 1) rest)

def rejectFields (host : PlanHost) (path : String) : List (String × Json) → Option PyError
  | [] => none
  | (key, child) :: rest =>
      if isSecretLikeKey key then
        if isAuthorizationStatus path key child then rejectFields host path rest
        else some (secretKeyError host path key)
      else
        (rejectNestedSecretMaterial host (path ++ "." ++ key) child).or
          (rejectFields host path rest)

end

/-! ## The validation -/

mutual

/-- `_max_depth`. -/
def maxDepth : Json → Nat
  | .obj fields => 1 + maxDepthFields fields
  | .arr items => 1 + maxDepthItems items
  | _ => 0

def maxDepthItems : List Json → Nat
  | [] => 0
  | item :: rest => max (maxDepth item) (maxDepthItems rest)

def maxDepthFields : List (String × Json) → Nat
  | [] => 0
  | (_, child) :: rest => max (maxDepth child) (maxDepthFields rest)

end

def maxMetadataDepth : Nat := 8

def maxMetadataBytes : Nat := 256 * 1024

/-- `CORE_METADATA_KEYS`. -/
def coreMetadataKeys : List String :=
  ["capabilities", "collection_points", "conversion_boundaries", "dataframe",
    "dataframe_protocol", "engine", "interchange", "lazy_supported", "ownership", "planner",
    "planner_version", "plugin_trust_records", "plugin_version", "region", "region_engine",
    "selected", "sliced", "spark", "spark_fusion", "spark_protocol", "spark_schema",
    "spark_streaming_stability", "sql", "sql_fusion", "sql_protocol", "sql_schema_mutations",
    "sql_transaction_scopes", "streaming", "validation_policy"]

/-- `_is_namespaced`. -/
def isNamespaced (key : String) : Bool :=
  key ∈ coreMetadataKeys || hasPrefix "etlantic." key || hasPrefix "plugin:" key

/-- `validate_extension_metadata`: what it raises. -/
def validateExtensionMetadata (host : PlanHost) (path : String) (strict : Bool)
    (metadata : List (String × Json)) : Option PyError :=
  if maxMetadataDepth < maxDepth (.obj metadata) then
    some (.valueError (path ++ " exceeds max nesting depth " ++ toString maxMetadataDepth ++
      " (got depth " ++ toString (maxDepth (.obj metadata)) ++ ")."))
  else
    let size := ((Json.obj metadata).dumps Json.escapeAscii).utf8ByteSize
    if maxMetadataBytes < size then
      some (.valueError (path ++ " exceeds size budget of " ++ toString maxMetadataBytes ++
        " bytes (got " ++ toString size ++ " bytes)."))
    else
      match rejectNestedSecretMaterial host path (.obj metadata) with
      | some error => some error
      | none =>
          let bare := (metadata.map Prod.fst).filter fun key => !isNamespaced key
          if strict && !bare.isEmpty then
            some (.valueError (path ++ " keys should use extension namespaces " ++
              "('etlantic.', 'plugin:'); got bare keys: [" ++
              ", ".intercalate ((bare.insertionSort (· ≤ ·)).map host.repr) ++ "]"))
          else none

theorem rejectNested_of_validate {host : PlanHost} {path : String} {strict : Bool}
    {metadata : List (String × Json)}
    (h : validateExtensionMetadata host path strict metadata = none) :
    rejectNestedSecretMaterial host path (.obj metadata) = none := by
  unfold validateExtensionMetadata at h
  split at h
  · cases h
  · dsimp only at h
    split at h
    · cases h
    · split at h
      · cases h
      · assumption

end Etlantic.Plan
