import Etlantic.Base.Json
import Etlantic.Base.Regex

/-!
# Redaction

`redact_message` and `redact_value` with their patterns, and the entry points
the control plane uses.  Each pattern is written out as in the source; the
classes that depend on the Unicode tables are a parameter.

Every pattern needs visible text to match, so redaction leaves blank text
blank (`redactMessage_of_blank`): evidence that is blank stays so.
-/

namespace Etlantic.ControlPlane

open Regex

/-- The character classes of `str` that come from the Unicode tables. -/
structure Unicode where
  isAlnum : Char → Bool
  isLower : Char → Bool
  isDigit : Char → Bool

/-- `\w`. -/
def Unicode.isWord (u : Unicode) (c : Char) : Bool := u.isAlnum c || c = '_'

/-- `\s*`. -/
def anySpace : Regex := many isSpace

/-- `[_-]?`. -/
def optSep : Regex := opt (cls (oneOf "_-"))

/-- `a[_-]?b` for consecutive parts. -/
def joined : List String → Regex
  | [] => Regex.empty
  | [part] => word part
  | part :: rest => seqAll [word part, optSep, joined rest]

/-- The secret names up to the optional `id` of an access key. -/
def credentialNames : List Regex :=
  [word "password", word "passwd", word "pwd", word "secret", word "token",
    joined ["api", "key"], word "credential", word "authorization"]

def awsNames : List Regex :=
  [joined ["aws", "secret", "access", "key"],
    seq (joined ["aws", "access", "key"]) (opt (seq optSep (word "id"))),
    joined ["access", "key"], joined ["private", "key"], word "dsn"]

/-- `_SECRET_KEY_RE`. -/
def secretKeyRe : Regex :=
  altAll (credentialNames ++
    [seqAll [notBehind (fun c => isLetterFold c || isAsciiDigit c), word "auth",
        notAhead (cls (fun c => isLetterFold c || isAsciiDigit c))],
      word "jwt", word "bearer"] ++ awsNames ++
    [joined ["connection", "string"], joined ["jdbc", "url"], joined ["database", "url"],
      joined ["db", "url"]])

/-- `_SECRET_INLINE_RE`. -/
def secretInlineRe : Regex :=
  seqAll [
    group 1 (altAll (credentialNames ++ [word "auth", word "jwt", word "bearer"] ++ awsNames ++
      [joined ["connection", "string"], joined ["jdbc", "url"]])),
    anySpace, cls (oneOf "=:"), anySpace, opt (cls (oneOf "'\"")),
    some_ (fun c => !(isSpace c || oneOf "'\",;" c))]

/-- `_BEARER_RE`. -/
def bearerRe : Regex :=
  seqAll [
    opt (seqAll [word "authorization", anySpace, cls (oneOf ":="), anySpace]),
    word "bearer", some_ isSpace,
    some_ (fun c => isLetterFold c || isAsciiDigit c || oneOf "-._~+/" c), many (oneOf "=")]

/-- `[A-Za-z0-9_-]`, case sensitive. -/
def isJwtChar (c : Char) : Bool :=
  ('a' ≤ c ∧ c ≤ 'z') ∨ ('A' ≤ c ∧ c ≤ 'Z') ∨ isAsciiDigit c ∨ oneOf "_-" c

/-- `_JWT_RE`. -/
def jwtRe (u : Unicode) : Regex :=
  seqAll [boundary u.isWord, lit "eyJ", some_ isJwtChar, lit ".", some_ isJwtChar, lit ".",
    some_ isJwtChar, boundary u.isWord]

/-- `_JSON_SECRET_RE`. -/
def jsonSecretRe : Regex :=
  seqAll [
    group 1 (seqAll [lit "\"",
      altAll (credentialNames ++ [word "auth", word "jwt", word "bearer"] ++ awsNames ++
        [word "connection_string", word "jdbc_url"]),
      lit "\"", anySpace, lit ":", anySpace]),
    lit "\"", many (fun c => c ≠ '"'), lit "\""]

/-- `_AUTH_HEADER_RE`. -/
def authHeaderRe (u : Unicode) : Regex :=
  seqAll [
    group 1 (seqAll [word "authorization", anySpace, cls (oneOf ":="), anySpace]),
    notAhead (seq (word "bearer") (boundary u.isWord)),
    group 2 (some_ (fun c => !(isSpace c || oneOf ",;" c)))]

/-- `_DSN_RE`. -/
def dsnRe (u : Unicode) : Regex :=
  seqAll [
    group 1 (seqAll [
      altAll [seq (word "postgres") (opt (word "ql")), word "mysql", word "mariadb", word "mssql",
        word "oracle", word "sqlite", word "mongodb", word "redis", word "rediss", word "amqp",
        word "amqps", word "couchdb", word "cassandra", seq (word "http") (opt (word "s"))],
      opt (seq (lit "+") (some_ u.isWord)), lit "://"]),
    group 2 (many (fun c => !(isSpace c || oneOf ":@/" c))), lit ":",
    group 3 (some_ (fun c => !(isSpace c || oneOf "@/" c))), lit "@"]

/-- `_URL_USERINFO_RE`. -/
def urlUserinfoRe : Regex :=
  seqAll [
    group 1 (seqAll [cls isLetterFold,
      many (fun c => isLetterFold c || isAsciiDigit c || oneOf "+.-" c), lit "://"]),
    group 2 (some_ (fun c => !(isSpace c || oneOf "@/" c))), lit "@"]

/-- `\1` followed by a literal text. -/
def keepFirst (text : String) (groups : List (Nat × List Char)) : List Char :=
  groupText groups 1 ++ text.toList

def redactMessage (u : Unicode) (message : String) : String :=
  if message = "" then message
  else
    let redacted := sub bearerRe (fun _ => "Bearer ***".toList) message
    let redacted := sub (jwtRe u) (fun _ => "***".toList) redacted
    let redacted := sub (authHeaderRe u) (keepFirst "***") redacted
    let redacted := sub jsonSecretRe (keepFirst "\"***\"") redacted
    let redacted := sub secretInlineRe (keepFirst "=***") redacted
    let redacted := sub (dsnRe u) (keepFirst "***@") redacted
    sub urlUserinfoRe (keepFirst "***@") redacted

mutual

def redactValue (u : Unicode) : Json → Json
  | .obj fields => .obj (redactFields u fields)
  | .arr items => .arr (redactItems u items)
  | .str text => .str (redactMessage u text)
  | value => value

def redactItems (u : Unicode) : List Json → List Json
  | [] => []
  | item :: rest => redactValue u item :: redactItems u rest

def redactFields (u : Unicode) : List (String × Json) → List (String × Json)
  | [] => []
  | (key, item) :: rest =>
      (key, if search secretKeyRe key then .str "***" else redactValue u item) ::
        redactFields u rest

end

/-- `redact_control_plane_payload` on a JSON object. -/
def redactControlPlanePayload (u : Unicode) (fields : List (String × Json)) :
    List (String × Json) :=
  redactFields u fields

def redactControlPlaneText (u : Unicode) (text : String) : String := redactMessage u text

/-! ## Redaction leaves blank text alone -/

theorem bearerRe_visible : visible bearerRe = true := by decide

theorem jwtRe_visible (u : Unicode) : visible (jwtRe u) = true := by
  have hlit : visible (lit "eyJ") = true := by decide
  simp only [jwtRe, seqAll, visible, hlit, Bool.true_or, Bool.or_true]

theorem authHeaderRe_visible (u : Unicode) : visible (authHeaderRe u) = true := by
  have hword : visible (word "authorization") = true := by decide
  simp only [authHeaderRe, seqAll, visible, hword, Bool.true_or]

theorem jsonSecretRe_visible : visible jsonSecretRe = true := by decide

theorem secretInlineRe_visible : visible secretInlineRe = true := by decide

theorem dsnRe_visible (u : Unicode) : visible (dsnRe u) = true := by
  have hlit : visible (lit "@") = true := by decide
  simp only [dsnRe, seqAll, visible, hlit, Bool.or_true]

theorem urlUserinfoRe_visible : visible urlUserinfoRe = true := by decide

theorem redactMessage_of_blank (u : Unicode) {message : String} (h : isBlank message = true) :
    redactMessage u message = message := by
  unfold redactMessage
  split
  · rfl
  · simp only [sub_of_blank bearerRe_visible _ h, sub_of_blank (jwtRe_visible u) _ h,
      sub_of_blank (authHeaderRe_visible u) _ h, sub_of_blank jsonSecretRe_visible _ h,
      sub_of_blank secretInlineRe_visible _ h, sub_of_blank (dsnRe_visible u) _ h,
      sub_of_blank urlUserinfoRe_visible _ h]

example : redactMessage ⟨Char.isAlphanum, Char.isLower, Char.isDigit⟩
    "https://a:b@db token=c" = "https://***@db token=***" := by
  decide +kernel

end Etlantic.ControlPlane
