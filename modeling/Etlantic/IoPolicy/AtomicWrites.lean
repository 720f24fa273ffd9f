import Mathlib.Data.List.Basic
import Etlantic.Base.Runs
import Etlantic.Base.Text

/-!
# Atomic writes

`write_text_safe` with its lock: a call makes the lock file of its destination, removes the
staging files that look abandoned, writes the text to a staging file of its own and moves
that over the destination.

The calls of one directory run interleaved, each operation on the file system being one
step.  An operation may fail, a call may be interrupted or its process may crash.
-/

namespace Etlantic.IoPolicy

abbrev Bytes := List UInt8

inductive OverwritePolicy where
  | reject
  | allow
  | atomicReplace
deriving DecidableEq

/-- What one call is asked for: the name of the resolved destination, the encoded text. -/
structure Request where
  destination : String
  payload : Bytes
  overwritePolicy : OverwritePolicy

/-! ## Names -/

/-- `_lock_path`. -/
def lockPath (destination : String) : String := destination ++ ".lock"

/-- `s.endswith(p)`. -/
def hasSuffix (p s : String) : Bool := p.toList.isSuffixOf s.toList

/-- The files that `_remove_abandoned_atomic_write_temps` looks at. -/
def isStagingOf (destination name : String) : Bool :=
  hasPrefix ("." ++ destination ++ ".") name && hasSuffix ".tmp" name

/-- The name of a new staging file, with the random part of `mkstemp`. -/
def stagingName (destination random : String) : String :=
  "." ++ destination ++ "." ++ random ++ ".tmp"

/-- Eight of the characters that `mkstemp` chooses from. -/
def isRandomPart (random : String) : Bool :=
  random.toList.length = 8 && random.toList.all fun c => c.isLower || c.isDigit || c = '_'

/-! ## The directory and the calls -/

variable {ι : Type}

/-- An entry of the directory. A regular file remembers the call that made it for staging. -/
inductive Entry (ι : Type) where
  | regular (writer : Option ι) (content : Bytes)
  | directory
  | special

abbrev Directory (ι : Type) := String → Option (Entry ι)

inductive Outcome where
  | written
  | failed
deriving DecidableEq

/-- How far a call has come. -/
inductive Stage where
  | waiting
  | locked
  | sweeping (candidates : List String)
  /-- A candidate is a regular file and is removed next. -/
  | removing (candidate : String) (candidates : List String)
  | swept
  | cleared
  /-- The staging file is open, and so many bytes are written. -/
  | staged (tmp : String) (count : Nat)
  | flushed (tmp : String)
  /-- An error is handled while there may be a staging file. -/
  | abandoning (tmp : String)
  | releasing (outcome : Outcome)
  | finished (outcome : Outcome)
  /-- The process is gone, behind or before the move over the destination. -/
  | crashed (published : Bool)
deriving DecidableEq

inductive Action where
  /-- A check before the lock raises. -/
  | deny
  | acquire (pid : Bytes)
  | timeout
  /-- The lock file is made, but writing to it fails. -/
  | acquireBroken
  /-- The names that the directory lists. Names that come or go meanwhile may be among them. -/
  | list (names : List String)
  /-- The next candidate is looked at. -/
  | inspect
  | remove
  | decide
  | create (random : String)
  | write (count : Nat)
  | flush
  | replace
  | discard
  | release
  /-- The next operation raises an `OSError`. -/
  | fail
  /-- A `KeyboardInterrupt` or the like. -/
  | interrupt
  | crash

/-- What a step of a call leads to, and whether it moved the staging file. -/
structure Change (ι : Type) where
  dir : Directory ι
  stage : Stage
  published : Bool

def Directory.set (dir : Directory ι) (name : String) (entry : Option (Entry ι)) : Directory ι :=
  fun other => if other = name then entry else dir other

/-- More bytes go to the file that the call has open, wherever that is. -/
def Directory.append [DecidableEq ι] (dir : Directory ι) (self : ι) (bytes : Bytes) :
    Directory ι := fun name =>
  match dir name with
  | some (.regular writer content) =>
      some (.regular writer (if writer = some self then content ++ bytes else content))
  | entry => entry

/-- The call has moved its staging file over the destination. -/
def Stage.published : Stage → Bool
  | .releasing .written => true
  | .finished .written => true
  | .crashed published => published
  | _ => false

section Steps

variable [DecidableEq ι]

/-- A step that leaves the files alone. -/
def quiet (dir : Directory ι) (stage : Stage) : Option (Change ι) := some ⟨dir, stage, false⟩

/-- `_acquire_lock` from its last attempt on, and the checks before it. -/
def startStep (r : Request) (dir : Directory ι) : Action → Option (Change ι)
  | .deny => quiet dir (.finished .failed)
  | .timeout => quiet dir (.finished .failed)
  | .interrupt => quiet dir (.finished .failed)
  | .acquire pid =>
      match dir (lockPath r.destination) with
      | none => some ⟨dir.set (lockPath r.destination) (some (.regular none pid)), .locked, false⟩
      | some _ => none
  | .acquireBroken =>
      match dir (lockPath r.destination) with
      | none =>
          some ⟨dir.set (lockPath r.destination) (some (.regular none [])), .finished .failed,
            false⟩
      | some _ => none
  | _ => none

/-- `_remove_abandoned_atomic_write_temps`, one file after the other. -/
def sweepStep (r : Request) (dir : Directory ι) : List String → Option (Change ι)
  | [] => quiet dir .swept
  | name :: rest =>
      if isStagingOf r.destination name then
        match dir name with
        | some (.regular _ _) => quiet dir (.removing name rest)
        | _ => quiet dir (.sweeping rest)
      else quiet dir (.sweeping rest)

def removeStep (dir : Directory ι) (candidate : String) (rest : List String) :
    Option (Change ι) :=
  match dir candidate with
  | none => quiet dir (.sweeping rest)
  | some .directory => quiet dir (.releasing .failed)
  | some _ => some ⟨dir.set candidate none, .sweeping rest, false⟩

/-- The second check of the overwrite policy. -/
def decideStep (r : Request) (dir : Directory ι) : Option (Change ι) :=
  if r.overwritePolicy = .reject ∧ (dir r.destination).isSome then
    quiet dir (.releasing .failed)
  else quiet dir .cleared

/-- `mkstemp`. -/
def createStep (r : Request) (self : ι) (dir : Directory ι) (random : String) :
    Option (Change ι) :=
  let tmp := stagingName r.destination random
  if isRandomPart random = true ∧ (dir tmp).isNone then
    some ⟨dir.set tmp (some (.regular (some self) [])), .staged tmp 0, false⟩
  else none

/-- `os.replace`. -/
def replaceStep (r : Request) (dir : Directory ι) (tmp : String) : Option (Change ι) :=
  match dir tmp with
  | none => quiet dir (.abandoning tmp)
  | some entry =>
      match dir r.destination with
      | some .directory => quiet dir (.abandoning tmp)
      | _ => some ⟨(dir.set tmp none).set r.destination (some entry), .releasing .written, true⟩

/-- The next step of a call. -/
def act (r : Request) (self : ι) (dir : Directory ι) : Stage → Action → Option (Change ι)
  | .finished _, _ => none
  | .crashed _, _ => none
  | stage, .crash => quiet dir (.crashed stage.published)
  | .waiting, action => startStep r dir action
  | .locked, .list names => quiet dir (.sweeping names)
  | .sweeping candidates, .inspect => sweepStep r dir candidates
  | .removing candidate rest, .remove => removeStep dir candidate rest
  | .swept, .decide => decideStep r dir
  | .cleared, .create random => createStep r self dir random
  | .staged tmp count, .write more =>
      if count + more ≤ r.payload.length then
        some ⟨dir.append self ((r.payload.drop count).take more), .staged tmp (count + more), false⟩
      else none
  | .staged tmp count, .flush =>
      if count = r.payload.length then quiet dir (.flushed tmp) else none
  | .flushed tmp, .replace => replaceStep r dir tmp
  -- an `Exception` unlinks the staging file before the lock is released
  | .staged tmp _, .fail => quiet dir (.abandoning tmp)
  | .flushed tmp, .fail => quiet dir (.abandoning tmp)
  | .abandoning tmp, .discard => some ⟨dir.set tmp none, .releasing .failed, false⟩
  | .abandoning _, .fail => quiet dir (.releasing .failed)
  | .releasing outcome, .release =>
      some ⟨dir.set (lockPath r.destination) none, .finished outcome, false⟩
  | .releasing outcome, .fail => quiet dir (.finished outcome)
  | .releasing outcome, .interrupt => quiet dir (.finished outcome)
  | _, .fail => quiet dir (.releasing .failed)
  | _, .interrupt => quiet dir (.releasing .failed)
  | _, _ => none

/-! ## Runs of several calls -/

structure State (ι : Type) where
  dir : Directory ι
  stage : ι → Stage
  /-- The calls that have moved their staging files, the last one first. -/
  writes : List ι

structure Event (ι : Type) where
  call : ι
  action : Action

def next (requests : ι → Request) (s : State ι) (e : Event ι) : State ι :=
  match act (requests e.call) e.call s.dir (s.stage e.call) e.action with
  | some change =>
      { dir := change.dir
        stage := fun c => if c = e.call then change.stage else s.stage c
        writes := if change.published then e.call :: s.writes else s.writes }
  | none => s

/-- No call has begun, whatever files there are. -/
structure Begun (s : State ι) : Prop where
  stage : ∀ c, s.stage c = .waiting
  writes : s.writes = []
  writers : ∀ name writer content, s.dir name = some (.regular writer content) → writer = none

end Steps

end Etlantic.IoPolicy
