import KrabkaGateway.Forward.Handler

/-!
# Who may use the forward endpoint

A request to the forward endpoint passes the TLS acceptor of `serve.rs`, the layers
that `bin/gateway.rs` puts around its router and the bearer middleware of
`authz/auth_layer.rs`. Each of them may write the principal extension that the
endpoint reads. The token validator and the reading of a name out of a certificate
are parameters.
-/

namespace KrabkaGateway

/-- Checks a token at a time in milliseconds. -/
structure BearerValidator where
  validate : String → Int → Except String Principal

/-- A request inside the router: the headers under their lower-case names, the body and the
extensions. -/
structure HttpRequest where
  headers : List (String × Bytes)
  body : ByteArray
  peer : Option SocketAddr
  principal : Option Principal
  bearer : Option BearerValidator

/-! ## The TLS acceptor -/

/-- A TLS connection and the certificate chain the handshake verified, leaf first. -/
structure TlsConnection where
  peer : SocketAddr
  peerCertificates : Option (List Bytes)

def TlsConnection.Presented (connection : TlsConnection) : Prop :=
  ∃ leaf chain, connection.peerCertificates = some (leaf :: chain)

/-- The identity of the connection; `extractName` reads a name out of a certificate. -/
def peerPrincipal (extractName : Bytes → Option String) (connection : TlsConnection) :
    Option Principal := do
  let chain ← connection.peerCertificates
  let leaf ← chain.head?
  let name ← extractName leaf
  return { name, authMethod := .mTls, groups := [] }

/-- A request as the acceptor hands it to the router. -/
def serveTls (extractName : Bytes → Option String) (connection : TlsConnection)
    (headers : List (String × Bytes)) (body : ByteArray) : HttpRequest where
  headers := headers
  body := body
  peer := some connection.peer
  principal := peerPrincipal extractName connection
  bearer := none

/-! ## The bearer middleware -/

def headerText (value : Bytes) : Option (List Char) :=
  if value.all (fun byte => (32 ≤ byte && byte < 127) || byte == 9) then
    some (value.map (fun byte => Char.ofNat byte.toNat))
  else none

/-- The token of an `Authorization: Bearer` header. -/
def bearerToken (headers : List (String × Bytes)) : Option String := do
  let value ← headers.lookup "authorization"
  let text ← headerText value
  if "Bearer ".toList.isPrefixOf text then
    let token := text.drop "Bearer ".length
    if token.isEmpty then none else some (String.ofList token)
  else none

/-- A valid token replaces the principal of the connection; anything else falls through. -/
def resolvePrincipal (now : Int) (request : HttpRequest) : HttpRequest :=
  match request.bearer, bearerToken request.headers with
  | some validator, some token =>
    match validator.validate token now with
    | .ok principal => { request with principal := some principal }
    | .error _ => request
  | _, _ => request

/-! ## The router -/

namespace Forward

variable {Cache : Type}

/-- The application router, for a request to the forward endpoint: the validator extension
outermost, then the middleware, then the endpoint up to its local produce. -/
def appForward (state : AppState Cache) (bearer : Option BearerValidator) (now : Int)
    (request : HttpRequest) : Except Response GatewayRecord :=
  let resolved := resolvePrincipal now { request with bearer }
  receive state resolved.principal resolved.body

/-- The middleware takes a token of the request. -/
def TokenAccepted (bearer : Option BearerValidator) (now : Int)
    (headers : List (String × Bytes)) : Prop :=
  ∃ validator token principal, bearer = some validator ∧ bearerToken headers = some token ∧
    validator.validate token now = .ok principal

theorem presented_of_peerPrincipal {extractName : Bytes → Option String}
    {connection : TlsConnection} (known : (peerPrincipal extractName connection).isSome) :
    connection.Presented := by
  unfold peerPrincipal at known
  cases certificates : connection.peerCertificates with
  | none => simp [certificates] at known
  | some chain =>
    cases chain with
    | nil => simp [certificates] at known
    | cons leaf rest => exact ⟨leaf, rest, certificates⟩

/-- The middleware changes the principal only for a token it takes. -/
theorem resolvePrincipal_cases (now : Int) (request : HttpRequest) :
    (resolvePrincipal now request).principal = request.principal ∨
      TokenAccepted request.bearer now request.headers := by
  unfold resolvePrincipal
  split
  · rename_i validator token configured carried
    split
    · rename_i principal valid
      exact Or.inr ⟨validator, token, principal, configured, carried, valid⟩
    · exact Or.inl rfl
  · exact Or.inl rfl

/-- A token the middleware takes gives the endpoint a principal, whatever the connection. -/
theorem appForward_of_accepted {bearer : Option BearerValidator} {now : Int}
    {headers : List (String × Bytes)} (accepted : TokenAccepted bearer now headers)
    (state : AppState Cache) (extractName : Bytes → Option String) (connection : TlsConnection)
    (body : ByteArray) :
    ∃ principal, appForward state bearer now (serveTls extractName connection headers body) =
      receive state (some principal) body := by
  obtain ⟨validator, token, principal, configured, carried, valid⟩ := accepted
  refine ⟨principal, ?_⟩
  simp [appForward, resolvePrincipal, serveTls, configured, carried, valid]

/-- With TLS configured the endpoint goes on only with some principal. -/
theorem isSome_of_receive {state : AppState Cache} {peer : Option Principal} {body : ByteArray}
    {record : GatewayRecord} (secured : state.tls = true)
    (admits : receive state peer body = .ok record) : peer.isSome := by
  unfold receive at admits
  split at admits
  · contradiction
  · split at admits
    · contradiction
    · split at admits
      · contradiction
      · rename_i known
        simpa [secured, Option.isSome_iff_ne_none] using known

/-- An order another replica forwards. -/
def relayedOrder : GatewayRecord where
  topic := "orders"
  key := none
  value := [123, 125]
  bodyStructured := none
  headers := []
  partition := none
  timestampMs := none
  idempotencyKey := some "order-1"

def admin : Principal where
  name := "admin"
  authMethod := .saslPlain
  groups := []

/-- A TLS replica on which nobody but `admin` may write. -/
def adminOnly : AppState Unit where
  core :=
    { codec := rawCodec, dedup := none, forwarding := none, send := fun _ _ => .ok (0, 0) }
  authz :=
    { authorizer := fun _ request => if request.principal = admin then .allow else .deny
      cache := () }
  tls := true
  runtime := .default

theorem receive_relayedOrder (peer : Principal) :
    receive adminOnly (some peer) (forwardBody relayedOrder admin) = .ok relayedOrder := by
  have small : ¬ adminOnly.runtime.forwardMaxBody < forwardSize relayedOrder admin := by
    decide
  rw [receive_forwardBody, if_neg small]
  rfl

/-- With TLS configured, only connections with a client certificate get as far as the local
produce, exactly when the connection has one or the middleware takes no token of the request. -/
theorem forward_needs_certificate_iff (extractName : Bytes → Option String)
    (connection : TlsConnection) (bearer : Option BearerValidator) (now : Int)
    (headers : List (String × Bytes)) :
    (∀ (Cache : Type) (state : AppState Cache) (body : ByteArray) (record : GatewayRecord),
        state.tls = true →
        appForward state bearer now (serveTls extractName connection headers body) = .ok record →
        connection.Presented) ↔
      connection.Presented ∨ ¬ TokenAccepted bearer now headers := by
  constructor
  · intro needs
    by_cases accepted : TokenAccepted bearer now headers
    · obtain ⟨principal, reached⟩ := appForward_of_accepted accepted adminOnly extractName
        connection (forwardBody relayedOrder admin)
      rw [receive_relayedOrder] at reached
      exact Or.inl (needs Unit adminOnly _ _ rfl reached)
    · exact Or.inr accepted
  · intro condition Cache state body record secured admitted
    have known := isSome_of_receive secured admitted
    obtain same | accepted := (resolvePrincipal_cases now
      { serveTls extractName connection headers body with bearer })
    · rw [same] at known
      exact presented_of_peerPrincipal known
    · exact condition.resolve_right (not_not_intro accepted)

def tokenOnly : TlsConnection where
  peer := { ip := .v4 0x0a000005, port := 40312 }
  peerCertificates := none

def oneToken : BearerValidator where
  validate token _ :=
    if token = "t" then .ok { name := "alice", authMethod := .saslOAuthBearer, groups := [] }
    else .error "unknown token"

/-- The holder of a token, without a certificate, writes as the `admin` its body names. -/
theorem token_acts_as_admin :
    ¬ tokenOnly.Presented ∧
      appForward adminOnly (some oneToken) 0
        (serveTls (fun _ => none) tokenOnly
          [("authorization", [66, 101, 97, 114, 101, 114, 32, 116])]
          (forwardBody relayedOrder admin)) = .ok relayedOrder := by
  constructor
  · rintro ⟨leaf, chain, presented⟩
    contradiction
  · have accepted : TokenAccepted (some oneToken) 0
        [("authorization", [66, 101, 97, 114, 101, 114, 32, 116])] :=
      ⟨oneToken, "t", _, rfl, by decide, rfl⟩
    obtain ⟨principal, reached⟩ := appForward_of_accepted accepted adminOnly (fun _ => none)
      tokenOnly (forwardBody relayedOrder admin)
    rw [reached]
    exact receive_relayedOrder principal

end Forward

end KrabkaGateway
