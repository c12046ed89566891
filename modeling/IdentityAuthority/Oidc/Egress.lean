import IdentityAuthority.Core.Identifiers
import IdentityAuthority.Core.Facts
import IdentityAuthority.Networks.Blocks

/-!
# Vetted egress of the OIDC adapter

Which addresses the adapter connects to. A host grants networks to one client of one issuer of one
tenant; every address that a name resolves to, and every literal one, is inside such a network or
public.
-/

namespace IdentityAuthority

open Networks

/-- The networks that a host may grant: those of RFC 1918, and unique local addresses. -/
def privateParents : List IpNet :=
  [net4 10 0 0 0 8, net4 172 16 0 0 12, net4 192 168 0 0 16, net6 [0xfc00] 7]

/-- `private_network`. -/
def privateNetwork (network : IpNet) : Bool :=
  decide (network = network.trunc) && privateParents.any fun parent => parent.containsNet network

/-- The blocks of IPv4 that are not public. -/
def blockedV4 : List IpNet :=
  [net4 0 0 0 0 8, net4 10 0 0 0 8, net4 100 64 0 0 10, net4 127 0 0 0 8, net4 169 254 0 0 16,
    net4 172 16 0 0 12, net4 192 0 0 0 24, net4 192 0 2 0 24, net4 192 88 99 0 24,
    net4 192 168 0 0 16, net4 198 18 0 0 15, net4 198 51 100 0 24, net4 203 0 113 0 24,
    net4 224 0 0 0 3]

/-- The block of IPv6 that public addresses are in. -/
def globalV6 : IpNet := net6 [0x2000] 3

/-- The blocks inside it that are not public. -/
def blockedV6 : List IpNet :=
  [net6 [0x2001] 23, net6 [0x2001, 0xdb8] 32, net6 [0x2002] 16, net6 [0x3fff] 20]

/-- `IpAddr::is_loopback`. -/
def isLoopback : IpAddr → Bool
  | .v4 bits => (net4 127 0 0 0 8).contains (.v4 bits)
  | .v6 bits => decide (bits = 1)

/-- `allowed`. -/
def allowed (ip : IpAddr) (loopback : Bool) (cidrs : List IpNet) : Bool :=
  if loopback && isLoopback ip then true
  else if cidrs.any fun network => network.contains ip then true
  else
    match ip with
    | .v4 _ => !blockedV4.any fun net => net.contains ip
    | .v6 _ => if globalV6.contains ip then !blockedV6.any fun net => net.contains ip else false

/-- An address with a port, as a lookup answers it. -/
structure SocketAddr where
  ip : IpAddr
  port : ℕ
deriving DecidableEq

/-- Why a name is not resolved. -/
inductive ResolveError
  | lookup
  | egressDenied
deriving DecidableEq, Repr

/-- The resolver of a transport. -/
structure VettedResolver where
  loopback : Bool
  cidrs : List IpNet

/-- `VettedResolver::resolve`, of what the lookup of a name answers. -/
def VettedResolver.resolve (resolver : VettedResolver) (pending : Option (List SocketAddr)) :
    Except ResolveError (List SocketAddr) :=
  match pending with
  | none => .error .lookup
  | some addresses =>
    if addresses.isEmpty || addresses.any fun a => !allowed a.ip resolver.loopback resolver.cidrs
    then .error .egressDenied
    else .ok addresses

/-- A parsed URL, by its parts; the port is the one it names or the default of its scheme. -/
structure ParsedUrl where
  scheme : String
  host : Option String
  port : ℕ
  username : String
  password : Option String
  query : Option String
  fragment : Option String
deriving DecidableEq

/-- The origin of a URL; one without a host, or of another scheme, has none to compare. -/
def ParsedUrl.origin (url : ParsedUrl) : Option (String × String × ℕ) :=
  if url.scheme ∈ ["http", "https", "ws", "wss", "ftp"] then
    url.host.map fun host => (url.scheme, host, url.port)
  else none

/-- How texts are read as URLs and as addresses. -/
structure UrlReader where
  parse : String → Option ParsedUrl
  readIp : String → Option IpAddr

/-- `trim_matches(['[', ']'])`. -/
def trimBrackets (s : String) : String :=
  let bracket : Char → Bool := fun c => c = '[' || c = ']'
  String.ofList (((s.toList.dropWhile bracket).reverse.dropWhile bracket).reverse)

/-- The address that a URL names literally as its host. -/
def UrlReader.literal (reader : UrlReader) (url : ParsedUrl) : Option IpAddr :=
  url.host.bind fun host => reader.readIp (trimBrackets host)

/-- `parse_url`. -/
def parseUrl (reader : UrlReader) (value : String) (loopback : Bool) (cidrs : List IpNet) :
    Except FederationError ParsedUrl :=
  match reader.parse value with
  | none => .error .configuration
  | some u =>
    let local' := loopback && decide (u.scheme = "http") &&
      (decide (u.host = some "127.0.0.1") || decide (u.host = some "localhost"))
    if (!local' && decide (u.scheme ≠ "https")) || u.host.isNone || decide (u.username ≠ "") ||
        u.password.isSome || u.fragment.isSome || u.query.isSome then
      .error .configuration
    else if (reader.literal u).any fun ip => !allowed ip loopback cidrs then
      .error (.provider ⟨.binding, .egressDenied⟩)
    else .ok u

/-- Host-approved interpretation of a provider's authentication facts. -/
structure TrustedAssuranceProfile where
  tenant : Uuid
  issuer : String
  clientId : String
  keycloakTotp : Bool
deriving DecidableEq

/-- Host-owned permission for one tenant's exact upstream client to reach private networks. -/
structure PrivateProviderAccess where
  tenant : Uuid
  issuer : String
  clientId : String
  cidrs : List IpNet
deriving DecidableEq

/-- The permission is for a client of an issuer of a tenant. -/
def PrivateProviderAccess.isFor (grant : PrivateProviderAccess) (tenant : Uuid)
    (issuer clientId : String) : Bool :=
  decide (grant.tenant = tenant) && decide (grant.issuer = issuer) &&
    decide (grant.clientId = clientId)

/-- The protocol transport of a deployment. -/
structure HttpOidc where
  profiles : List TrustedAssuranceProfile
  privateAccess : List PrivateProviderAccess
  loopback : Bool

/-- `IssuerId::parse` and `ClientId::parse`: a text that is neither empty nor padded, without control
characters. -/
def identifierText (value : String) : Except FederationError Unit :=
  if decide (0 < value.utf8ByteSize) && trimmed value && printable value then .ok ()
  else .error .configuration

namespace HttpOidc

/-- `private_for`. -/
def privateFor (oidc : HttpOidc) (tenant : Uuid) (issuer clientId : String) : List IpNet :=
  match oidc.privateAccess.find? fun grant => grant.isFor tenant issuer clientId with
  | some grant => grant.cidrs
  | none => []

/-- The checks of `build` on the permissions, with the ones seen before. -/
def checkGrants (reader : UrlReader) (uuids : UuidFormat) :
    List (String × String × String) → List PrivateProviderAccess → Except FederationError Unit
  | _, [] => .ok ()
  | seen, grant :: rest =>
    let triple := (uuids.text grant.tenant, grant.issuer, grant.clientId)
    if grant.cidrs.isEmpty || decide (16 < grant.cidrs.length) ||
        (grant.cidrs.any fun n => !privateNetwork n) || !decide grant.cidrs.Nodup ||
        seen.contains triple then
      .error .configuration
    else do
      identifierText grant.issuer
      identifierText grant.clientId
      let _ ← parseUrl reader grant.issuer false grant.cidrs
      checkGrants reader uuids (triple :: seen) rest

/-- The checks of `build` on the profiles, with the ones seen before. -/
def checkProfiles (reader : UrlReader) (uuids : UuidFormat) (oidc : HttpOidc) :
    List (String × String × String) → List TrustedAssuranceProfile → Except FederationError Unit
  | _, [] => .ok ()
  | seen, p :: rest => do
    let _ ← parseUrl reader p.issuer oidc.loopback (oidc.privateFor p.tenant p.issuer p.clientId)
    let triple := (uuids.text p.tenant, p.issuer, p.clientId)
    if decide (p.clientId = "") || decide (256 < p.clientId.utf8ByteSize) || seen.contains triple then
      .error .configuration
    else checkProfiles reader uuids oidc (triple :: seen) rest

/-- `HttpOidc::build`. -/
def build (reader : UrlReader) (uuids : UuidFormat) (profiles : List TrustedAssuranceProfile)
    (privateAccess : List PrivateProviderAccess) (loopback : Bool) :
    Except FederationError HttpOidc :=
  if 128 < profiles.length ∨ 128 < privateAccess.length then .error .configuration
  else do
    checkGrants reader uuids [] privateAccess
    let result : HttpOidc := { profiles, privateAccess, loopback }
    checkProfiles reader uuids result [] profiles
    pure result

end HttpOidc

/-- The transport of one provider: the only origin it talks to, and its resolver. -/
structure Transport where
  origin : Option (String × String × ℕ)
  resolver : VettedResolver

/-- `HttpOidc::transport`, but for the certificates: both configured URLs are validated, the redirect
without any permission. -/
def HttpOidc.transport (reader : UrlReader) (oidc : HttpOidc) (tenant : Uuid)
    (issuer clientId redirectUri : String) : Except FederationError Transport := do
  let cidrs := oidc.privateFor tenant issuer clientId
  let _ ← parseUrl reader issuer oidc.loopback cidrs
  let _ ← parseUrl reader redirectUri oidc.loopback []
  let u ← parseUrl reader issuer oidc.loopback cidrs
  pure { origin := u.origin, resolver := ⟨oidc.loopback, cidrs⟩ }

/-- The addresses that a request of a transport connects to (`Transport::call`): a request to another
origin goes nowhere, a literal address is taken as it is, and a name goes through the resolver. -/
def Transport.addresses (reader : UrlReader) (transport : Transport) (url : ParsedUrl)
    (pending : Option (List SocketAddr)) : Except ResolveError (List IpAddr) :=
  if decide (url.origin ≠ transport.origin) || decide (url.username ≠ "") || url.password.isSome then
    .error .egressDenied
  else
    match reader.literal url with
    | some ip => .ok [ip]
    | none => (transport.resolver.resolve pending).map fun answers => answers.map SocketAddr.ip

end IdentityAuthority
