import Etlantic.Base.Dict
import Mathlib.Data.List.Dedup

/-!
# Inference from records

`infer_records` samples a one-shot iterator of mappings, infers a schema and
hands back a replay of the source.  The sampling loop decides record by record
whether the record joins the prefix or is left to the remainder; what stops it
besides the row and field counts (the clock, the size estimate, a provider that
fails) comes from outside and is an `Environment`.
-/

namespace Etlantic.Inference.Records

/-! ## Values -/

inductive LogicalType where
  | null
  | boolean
  | integer
  | number
  | decimal
  | string
  | binary
  | date
  | datetime
  | object
  | array
  | unknown
deriving DecidableEq

/-- A cell. A float, a decimal, a date and so on is known by its `str`; `foreign` is a value of
another class, with the logical type that `_type_of` gives it. -/
inductive Value where
  | none
  | boolean (b : Bool)
  | integer (n : Int)
  | float (text : String)
  | decimal (text : String)
  | string (text : String)
  | binary (text : String)
  | date (text : String)
  | datetime (text : String)
  | object (text : String)
  | array (text : String)
  | foreign (type : LogicalType) (text : String)
deriving DecidableEq

/-- The texts of `Decimal(text)` and of `datetime.combine(date, time())`. -/
structure Host where
  decimalText : String → String
  midnightText : String → String

namespace Value

/-- `isinstance(value, float) and math.isnan(value)`. -/
def isNan : Value → Bool
  | .float text => text = "nan"
  | _ => false

/-- `_type_of`. -/
def typeOf (value : Value) : LogicalType :=
  if value.isNan then .null
  else
    match value with
    | .none => .null
    | .boolean _ => .boolean
    | .integer _ => .integer
    | .float _ => .number
    | .decimal _ => .decimal
    | .string _ => .string
    | .binary _ => .binary
    | .date _ => .date
    | .datetime _ => .datetime
    | .object _ => .object
    | .array _ => .array
    | .foreign type _ => type

/-- `str(value)`. -/
def str : Value → String
  | .none => "None"
  | .boolean b => if b then "True" else "False"
  | .integer n => toString n
  | .float text | .decimal text | .string text | .binary text | .date text | .datetime text
  | .object text | .array text | .foreign _ text => text

/-- `str(value)` in a text column. -/
def toText : Value → Value
  | .none => .none
  | value => .string value.str

/-- `Decimal(str(value))` of an integer or a float. -/
def toDecimal (host : Host) : Value → Value
  | .integer n => .decimal (host.decimalText (toString n))
  | .float text => .decimal (host.decimalText text)
  | value => value

/-- `datetime.combine(value, time())` of a date. -/
def toDatetime (host : Host) : Value → Value
  | .date text => .datetime (host.midnightText text)
  | value => value

/-- A value as the prefix keeps it: what counts as null becomes `None`. -/
def observed (value : Value) : Value :=
  let value := if value.isNan then .none else value
  if value.typeOf = .null then .none else value

end Value

/-- The key of a field: only a non-empty text names a field. -/
inductive Key where
  | text (name : String)
  | other (repr : String)
deriving DecidableEq

def Key.name? : Key → Option String
  | .text name => if name = "" then none else some name
  | .other _ => none

abbrev Record := Dict Key Value

abbrev Row := Dict String Value

/-! ## Sampling -/

structure InferenceLimits where
  maxRows : Nat
  maxFields : Nat
  materializedLimit : Option Nat

inductive Estimate where
  | size (bytes : Nat)
  | limitExceeded
  | traversalExceeded
  | timeout
  | providerFailure

/-- What the loop meets at each record, and at each field of it. -/
structure Environment where
  late : Nat → Bool
  estimate : Nat → Estimate
  iterFails : Nat → Bool
  fieldLate : Nat → Nat → Bool
  nextFails : Nat → Nat → Bool
  getFails : Nat → Nat → Bool

/-- `stats[name]`; the unknown type names only count as present or absent. -/
structure Stats where
  types : List LogicalType := []
  unknownTypes : Bool := false
  observed : Nat := 0
  nulls : Nat := 0

structure Sample where
  stats : Dict String Stats
  rows : List Row
  replayPrefixCount : Nat
  incompleteRows : Nat
  bytesObserved : Nat

def Sample.empty : Sample := ⟨Dict.empty, [], 0, 0, 0⟩

/-- One observed value. -/
def Stats.observe (entry : Stats) (value : Value) : Stats :=
  let type := value.typeOf
  { types := if type ∈ entry.types then entry.types else entry.types ++ [type]
    unknownTypes := entry.unknownTypes || type = .unknown
    observed := entry.observed + 1
    nulls := if type = .null then entry.nulls + 1 else entry.nulls }

/-- The fields of one record from position `j` on; the flag says that the record was traversed to
its end. -/
def scanFields (limits : InferenceLimits) (env : Environment) (i : Nat) :
    Nat → List (Key × Value) → Dict String Stats → Row → Dict String Stats × Row × Bool
  | j, [], stats, row => (stats, row, !(env.fieldLate i j || env.nextFails i j))
  | j, (key, value) :: rest, stats, row =>
      if env.fieldLate i j || env.nextFails i j || decide (limits.maxFields ≤ j) then
        (stats, row, false)
      else
        match key.name? with
        | none => scanFields limits env i (j + 1) rest stats row
        | some name =>
            if env.getFails i j then (stats, row, false)
            else if !stats.contains name && decide (limits.maxFields ≤ stats.entries.length) then
              (stats, row, false)
            else
              let value := if value.isNan then .none else value
              let entry := ((stats.get? name).getD {}).observe value
              scanFields limits env i (j + 1) rest (stats.set name entry)
                (row.set name (if value.typeOf = .null then .none else value))

/-- How sampling ended: at the end of the source, with a remainder, or at a record whose own
iterator could not be opened. -/
inductive Stop where
  | exhausted
  | cut (remainder : List Record)
  | abandoned

/-- The sampling loop from record `i` on. -/
def sampleFrom (limits : InferenceLimits) (env : Environment) :
    Nat → List Record → Sample → Sample × Stop
  | _, [], s => (s, .exhausted)
  | i, item :: rest, s =>
      if limits.maxRows ≤ i || env.late i then (s, .cut (item :: rest))
      else
        match env.estimate i with
        | .size bytes =>
            if limits.materializedLimit.any (· < s.bytesObserved + bytes) then
              (s, .cut (item :: rest))
            else
              let s := { s with bytesObserved := s.bytesObserved + bytes }
              if env.iterFails i then (s, .abandoned)
              else
                match scanFields limits env i 0 item.entries s.stats Dict.empty with
                | (stats, row, true) =>
                    sampleFrom limits env (i + 1) rest
                      { s with
                        stats := stats
                        rows := s.rows ++ [row]
                        replayPrefixCount := s.replayPrefixCount + 1 }
                | (stats, row, false) =>
                    ({ s with
                        stats := stats
                        rows := s.rows ++ [row]
                        incompleteRows := s.incompleteRows + 1 }, .cut (item :: rest))
        | _ => (s, .cut (item :: rest))

/-! ## The schema -/

/-- `_promote`: the common type, and whether the types are mixed. -/
def promote (types : List LogicalType) : LogicalType × Bool :=
  let nonNull := types.filter (· ≠ .null)
  let within := fun allowed : List LogicalType => nonNull.all fun t => decide (t ∈ allowed)
  match nonNull with
  | [] => (.unknown, false)
  | first :: others =>
      if .unknown ∈ nonNull then (.unknown, !others.isEmpty)
      else if others.isEmpty then (first, false)
      else if within [.integer, .number] then (.number, false)
      else if within [.integer, .decimal] then (.decimal, false)
      else if within [.integer, .decimal, .number] then (.decimal, false)
      else if within [.date, .datetime] then (.datetime, false)
      else if within [.boolean, .integer, .number, .decimal, .string, .date, .datetime, .binary]
      then (.string, true)
      else (.object, true)

/-- The type of a field after its hint. -/
def hinted (logical : LogicalType) (hint : Option LogicalType) : LogicalType :=
  match hint with
  | none => logical
  | some hint =>
      if logical = .unknown then hint
      else if logical ≠ hint && !(logical = .integer && hint = .number) then logical
      else hint

structure NormalizedField where
  name : String
  logicalType : LogicalType
  required : Bool
  nullable : Bool
  evidence : Option String
deriving DecidableEq

abbrev Schema := List NormalizedField

/-- The sampled field, with the mark of a field of mixed types that became a text. -/
structure InferredField where
  field : NormalizedField
  mixed : Bool

def inferField (hints : Dict String LogicalType) (s : Sample) (name : String) (entry : Stats) :
    InferredField :=
  let (promoted, mixed) := promote entry.types
  let logical := hinted promoted (hints.get? name)
  let missing := s.rows.length - entry.observed - s.incompleteRows
  { field :=
      { name := name
        logicalType := logical
        required := missing = 0
        nullable := 0 < entry.nulls
        evidence :=
          if logical = .unknown && !entry.unknownTypes then
            some (if entry.types = [.null] then "null_only" else "no_observed_values")
          else none }
    mixed := mixed && logical = .string }

def inferFields (hints : Dict String LogicalType) (s : Sample) : List InferredField :=
  s.stats.entries.map fun e => inferField hints s e.1 e.2

/-! ## The replay -/

/-- The conversion of one value: `mixed_fields`, `decimal_fields`, `datetime_fields`. -/
def convert (host : Host) (fields : List InferredField) (name : String) (value : Value) : Value :=
  match fields.find? (·.field.name = name) with
  | none => value
  | some f =>
      if f.mixed then value.toText
      else if f.field.logicalType = .decimal then value.toDecimal host
      else if f.field.logicalType = .datetime then value.toDatetime host
      else value

/-- `normalize_replay_row`. -/
def normalizeReplayRow (host : Host) (fields : List InferredField) (record : Record) :
    List (Key × Value) :=
  record.entries.map fun e =>
    match e.1 with
    | .text name => (e.1, convert host fields name e.2)
    | .other _ => e

/-- A retained row after the conversions. -/
def normalizedRow (host : Host) (fields : List InferredField) (row : Row) : List (Key × Value) :=
  row.entries.map fun e => (.text e.1, convert host fields e.1 e.2)

/-- A call of `infer_records` on a one-shot iterator, which fails after its records or ends. -/
structure Call where
  records : List Record
  failure : Bool
  limits : InferenceLimits
  hints : Dict String LogicalType
  env : Environment

namespace Call

def sampled (c : Call) : Sample × Stop := sampleFrom c.limits c.env 0 c.records Sample.empty

def fields (c : Call) : List InferredField := inferFields c.hints c.sampled.1

def schema (c : Call) : Schema := c.fields.map (·.field)

/-- What the replay yields. -/
def replayed (host : Host) (c : Call) : List (List (Key × Value)) :=
  let kept := (c.sampled.1.rows.take c.sampled.1.replayPrefixCount).map
    (normalizedRow host c.fields)
  match c.sampled.2 with
  | .cut remainder => kept ++ remainder.map (normalizeReplayRow host c.fields)
  | _ => kept

/-- The replay raises at its end: the source failed while it was sampled, or fails while its
remainder is consumed. -/
def raises (c : Call) : Bool :=
  match c.sampled.2 with
  | .abandoned => false
  | _ => c.failure

end Call

end Etlantic.Inference.Records
