import Etlantic.ControlPlane.Redaction

/-!
# Control-plane identity, scope and errors

The immutable request scope (`ControlPlaneContext`) and the errors a store
operation can raise.  The checks of `ControlPlaneContext.__post_init__` are
fields of the structure.
-/

namespace Etlantic.ControlPlane

inductive PrincipalKind where
  | human
  | workload
  | service
deriving DecidableEq

def PrincipalKind.text : PrincipalKind → String
  | human => "human"
  | workload => "workload"
  | service => "service"

structure Principal where
  subject : String
  issuer : Option String
  kind : PrincipalKind
deriving DecidableEq

structure TenantRef where
  tenantId : String
deriving DecidableEq

structure WorkspaceRef where
  tenantId : String
  workspaceId : String
deriving DecidableEq

structure EnvironmentRef where
  name : String
deriving DecidableEq

structure SecurityDomain where
  domainId : String
deriving DecidableEq

structure ControlPlaneContext where
  principal : Principal
  tenant : TenantRef
  workspace : WorkspaceRef
  environment : EnvironmentRef
  securityDomain : SecurityDomain
  resourceOwnerId : Option String
  workspaceTenant : workspace.tenantId = tenant.tenantId
  ownerNonEmpty : resourceOwnerId.all (fun owner => !isBlank owner) = true
deriving DecidableEq

theorem workspace_ofTenant (tenantId workspaceId : String) :
    (WorkspaceRef.mk tenantId workspaceId).tenantId = (TenantRef.mk tenantId).tenantId := rfl

theorem none_ownerNonEmpty : (none : Option String).all (fun owner => !isBlank owner) = true := rfl

/-- The composite tenant/workspace key of scoped stores. -/
structure Scope where
  tenantId : String
  workspaceId : String
deriving DecidableEq

def ControlPlaneContext.scopeKey (ctx : ControlPlaneContext) : Scope :=
  ⟨ctx.tenant.tenantId, ctx.workspace.workspaceId⟩

/-- `Principal.identity_key`, given the digest function. -/
def Principal.identityKey (sha256 : String → String) (p : Principal) : String :=
  "principal:" ++ sha256 ((Json.arr [.str p.kind.text, .str (p.issuer.getD ""),
    .str p.subject]).dumps Json.escapeUnicode)

/-! ## Errors -/

structure ControlPlaneError where
  message : String
  code : String
  status : Nat
  type : String
  title : String
  extensions : List (String × Json)

namespace ControlPlaneError

def notFound (detail : String) : ControlPlaneError :=
  ⟨detail, "PMCP404", 404, "etlantic.control_plane/not_found", "Not Found", []⟩

def forbidden (detail : String) : ControlPlaneError :=
  ⟨detail, "PMCP403", 403, "etlantic.control_plane/forbidden", "Forbidden", []⟩

def conflict (detail : String) (extensions : List (String × Json)) : ControlPlaneError :=
  ⟨detail, "PMCP409", 409, "etlantic.control_plane/conflict", "Conflict", extensions⟩

end ControlPlaneError

/-- What an operation can raise. -/
inductive PyError where
  | controlPlane (error : ControlPlaneError)
  | valueError (message : String)
  | typeError (message : String)
  | overflowError (message : String)
  | keyError

def notFound (detail : String) : PyError := .controlPlane (.notFound detail)

def forbidden (detail : String) : PyError := .controlPlane (.forbidden detail)

def conflict (detail : String) : PyError := .controlPlane (.conflict detail [])

def conflictWith (detail : String) (extensions : List (String × Json)) : PyError :=
  .controlPlane (.conflict detail extensions)

/-- What a call on a store in the state `σ` gives back or raises, and the state it
leaves: writes made before an error stay. -/
structure Reply (σ α : Type) where
  result : Except PyError α
  state : σ

end Etlantic.ControlPlane
