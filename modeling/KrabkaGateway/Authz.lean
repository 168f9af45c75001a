import KrabkaGateway.Types

/-!
# Identities and authorization

Resolved callers, peer addresses and the authorizer of `authz/mod.rs` with the
checks `handlers.rs` makes through it. The authorizer itself is a parameter: any
function of the ACL cache and of the whole request.
-/

namespace KrabkaGateway

inductive AuthMethod where
  | anonymous
  | saslPlain
  | saslScramSha256
  | saslScramSha512
  | saslOAuthBearer
  | saslGssapi
  | mTls
  deriving DecidableEq, Repr

structure Principal where
  name : String
  authMethod : AuthMethod
  groups : List String
  deriving DecidableEq, Repr

/-- The identity of a caller nothing has authenticated. -/
def anonymousPrincipal : Principal where
  name := "ANONYMOUS"
  authMethod := .anonymous
  groups := []

inductive IpAddr where
  | v4 (bits : BitVec 32)
  | v6 (bits : BitVec 128)
  deriving DecidableEq, Repr

structure SocketAddr where
  ip : IpAddr
  port : UInt16
  deriving DecidableEq, Repr

/-- `0.0.0.0:0`, the host of a request without a peer address. -/
def unknownHost : SocketAddr where
  ip := .v4 0
  port := 0

/-- The kinds of resource the gateway asks about. -/
inductive ResourceType where
  | topic
  | group
  deriving DecidableEq, Repr

inductive AclOperation where
  | read
  | write
  deriving DecidableEq, Repr

structure AuthorizationRequest where
  principal : Principal
  host : SocketAddr
  resourceType : ResourceType
  resourceName : String
  operation : AclOperation
  deriving DecidableEq, Repr

inductive AuthorizationResult where
  | allow
  | deny
  deriving DecidableEq, Repr

/-- An authorizer over the current snapshot of the ACL cache. -/
structure GatewayAuthz (Cache : Type) where
  authorizer : Cache → AuthorizationRequest → AuthorizationResult
  cache : Cache

variable {Cache : Type}

def authorizeResource (authz : GatewayAuthz Cache) (principal : Principal) (host : SocketAddr)
    (resourceType : ResourceType) (resourceName : String) (operation : AclOperation) :
    AuthorizationResult :=
  authz.authorizer authz.cache { principal, host, resourceType, resourceName, operation }

def allowAll : GatewayAuthz Unit where
  authorizer _ _ := .allow
  cache := ()

end KrabkaGateway
