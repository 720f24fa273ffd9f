import Etlantic.ControlPlane.Durable.Store

/-!
# Execution-route lifecycle and references

The store-wide lifecycle of a Prefect route and the schedule reservations that
hold it open.
-/

namespace Etlantic.ControlPlane.Durable

def routeLifecycleError : PyError :=
  .valueError "route lifecycle applies only to Prefect routes"

def routeReferenceError : PyError :=
  .valueError "route references apply only to Prefect routes"

def emptyReferenceError : PyError := .valueError "reference_id must be a non-empty string"

/-- The extensions of a refusal because the route is not active. -/
def inactiveRouteExtensions (route : String) (state : ExecutionRouteRecord) :
    List (String × Json) :=
  [("reason", .str ("execution_route_" ++ state.status.text)), ("execution_route", .str route),
    ("route_revision", .int state.revision)]

/-! ## Reading -/

/-- The argument checks of the three lifecycle readers. -/
def readPrefectRoute {α : Type} (route : String) (s : Store) (value : α) : Outcome α :=
  if isExecutionRoute route = false then raise routeError s
  else if isPrefectRoute route = false then raise routeLifecycleError s
  else ret value s

def getExecutionRouteState (route : String) (s : Store) : Outcome ExecutionRouteRecord :=
  readPrefectRoute route s (s.routeState route)

def executionRouteWorkload (route : String) (s : Store) : Outcome ExecutionRouteWorkload :=
  readPrefectRoute route s (s.executionRouteWorkload route)

def executionRouteReferenceCounts (route : String) (s : Store) :
    Outcome ExecutionRouteReferenceCounts :=
  readPrefectRoute route s (s.executionRouteReferenceCounts route)

/-! ## Reservations -/

def reserveExecutionRouteReference (route referenceId : String) (s : Store) : Outcome Unit :=
  if isExecutionRoute route = false then raise routeError s
  else if isPrefectRoute route = false then raise routeReferenceError s
  else if isBlank referenceId then raise emptyReferenceError s
  else
    let state := s.routeState route
    if state.status ≠ .active then
      raise (conflictWith "Execution route is not accepting new schedule references"
        (inactiveRouteExtensions route state)) s
    else
      ret () { s with executionRouteReferences :=
        s.executionRouteReferences.set route (insert referenceId (s.routeReferences route)) }

/-- `references.discard(reference_id)`, dropping a set that became empty. -/
def discardReference (route referenceId : String) (references : Finset String)
    (table : Dict String (Finset String)) : Dict String (Finset String) :=
  if references.erase referenceId = ∅ then table.erase route
  else table.set route (references.erase referenceId)

def releaseExecutionRouteReference (route referenceId : String) (s : Store) : Outcome Unit :=
  if isExecutionRoute route = false then raise routeError s
  else if isPrefectRoute route = false then raise routeReferenceError s
  else if isBlank referenceId then raise emptyReferenceError s
  else
    match s.executionRouteReferences.get? route with
    | none => ret () s
    | some references =>
        ret () { s with executionRouteReferences :=
          discardReference route referenceId references s.executionRouteReferences }

/-- One scoped reference is dropped from every route. -/
def discardEverywhere (referenceId : String) (table : Dict String (Finset String)) :
    Dict String (Finset String) :=
  table.entries.foldl (fun t e => discardReference e.1 referenceId e.2 t) table

def releaseExecutionRouteReferenceId (referenceId : String) (s : Store) : Outcome Unit :=
  if isBlank referenceId then raise emptyReferenceError s
  else ret () { s with
    executionRouteReferences := discardEverywhere referenceId s.executionRouteReferences }

/-! ## The lifecycle -/

/-- The last 64 entries. -/
def lastEntries {α : Type} (xs : List α) : List α := xs.drop (xs.length - 64)

/-- The refusals of an edge into `retired` or `cleanup_pending`. -/
def transitionRefusal (route : String) (status : ExecutionRouteLifecycle) (s : Store) :
    Option PyError :=
  let workload := s.executionRouteWorkload route
  let references := s.executionRouteReferenceCounts route
  if status = .retired then
    if workload.drained = false then
      some (conflictWith "Execution route still owns durable work or publication evidence"
        [("reason", .str "execution_route_not_drained"), ("workload", workload.toDict)])
    else if references.scheduleReservations ≠ 0 then
      some (conflictWith "Execution route still has scheduled references"
        [("reason", .str "execution_route_referenced"), ("references", references.toDict)])
    else none
  else if status = .cleanupPending then
    if workload.drained = false ∨ references.canonicalSubmissions ≠ 0 ∨
        references.scheduleReservations ≠ 0 then
      some (conflictWith "Execution route still has work or durable references"
        [("reason", .str "execution_route_referenced"), ("workload", workload.toDict),
          ("references", references.toDict)])
    else none
  else none

/-- The record after one status change. -/
def advanceRoute (ctx : ControlPlaneContext) (route : String) (prior : ExecutionRouteRecord)
    (status : ExecutionRouteLifecycle) (current : Instant) : ExecutionRouteRecord where
  executionRoute := route
  status := status
  revision := prior.revision + 1
  changedAt := some current
  history := lastEntries (prior.history ++ [{
    revision := prior.revision + 1
    fromStatus := prior.status
    toStatus := status
    changedAt := current
    principalSubject := ctx.principal.subject
    principalIssuer := ctx.principal.issuer }])

def transitionExecutionRouteState (env : Env) (ctx : ControlPlaneContext) (route : String)
    (expectedRevision : Int) (status : String) (now : Option Instant) (s : Store) :
    Outcome ExecutionRouteRecord :=
  if isExecutionRoute route = false then raise routeError s
  else if isPrefectRoute route = false then raise routeLifecycleError s
  else if expectedRevision < 0 then
    raise (.valueError "expected_revision must be a non-negative integer") s
  else
    match ExecutionRouteLifecycle.ofText? status with
    | none => raise (.valueError "unsupported execution route lifecycle state") s
    | some status =>
        let prior := s.routeState route
        if (prior.revision : Int) ≠ expectedRevision then
          raise (conflictWith "Execution route lifecycle revision is stale"
            [("reason", .str "stale_route_revision")]) s
        else if status = prior.status then ret prior s
        else if (prior.status, status) ∉ ExecutionRouteLifecycle.allowed then
          raise (conflictWith "Execution route lifecycle transition is invalid"
            [("reason", .str "invalid_route_transition")]) s
        else
          match transitionRefusal route status s with
          | some error => raise error s
          | none =>
              let updated := advanceRoute ctx route prior status (now.getD (env.now [0]))
              ret updated { s with
                executionRouteStates := s.executionRouteStates.set route updated }

end Etlantic.ControlPlane.Durable
