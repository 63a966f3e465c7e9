import IdaMcp.Foundation.IpAddr

namespace IdaMcp.HttpAccess

open Foundation Text

/-- `http::uri::Authority`: the host and the text of the port (empty where none is written), and what
`port_u16` gives for it. -/
structure Authority where
  host : Chars
  port : Chars
  portU16 : Option ℕ

abbrev HeaderValue := List UInt8

structure HeaderMap where
  host : List HeaderValue
  origin : List HeaderValue

def HeaderValue.toStr (value : HeaderValue) : Option Chars :=
  if value.all fun b => (32 ≤ b && b < 127) || b == 9 then some (value.map fun b => Char.ofNat b.toNat)
  else none

structure AccessResponse where
  status : ℕ
  message : Chars
deriving DecidableEq

structure SocketAddr where
  ip : IpAddr
  port : ℕ

def SocketAddr.display (addr : SocketAddr) : Chars :=
  match addr.ip with
  | .v4 .. => addr.ip.display ++ ':' :: Nat.toDigits 10 addr.port
  | .v6 _ => '[' :: addr.ip.display ++ ']' :: ':' :: Nat.toDigits 10 addr.port

structure NormalizedAuthority where
  host : Chars
  port : Option ℕ
deriving DecidableEq

def NormalizedAuthority.display (authority : NormalizedAuthority) : Chars :=
  match authority.port with
  | some port => authority.host ++ ':' :: Nat.toDigits 10 port
  | none => authority.host

def trimMatches (c : Char) (s : Chars) : Chars := (s.dropWhile (· == c)).rdropWhile (· == c)

def normalizeHost (host : Chars) : Chars := (trimMatches ']' (trimMatches '[' host)).map Char.toLower

def normalizeAuthority (host : Chars) (port : Option ℕ) : NormalizedAuthority where
  host := normalizeHost host
  port := port

inductive HostAllowList
  | any
  | restricted (hosts : List NormalizedAuthority)
deriving DecidableEq

structure HttpAccessPolicy where
  bindAddr : SocketAddr
  allowedOrigins : List Chars
  allowedHosts : HostAllowList

def cleanAllowlist (values : List Chars) : List Chars := (values.map trim).filter (· ≠ [])

def badRequest (message : String) : AccessResponse := ⟨400, message.toList⟩

def forbidden (message : Chars) : AccessResponse := ⟨403, message⟩

section Parser

variable (tryFrom : Chars → Option Authority)

def parseAllowedAuthority (allowed : Chars) : Option NormalizedAuthority :=
  let allowed := trim allowed
  if allowed = [] then none
  else match tryFrom allowed with
    | some authority => some (normalizeAuthority authority.host authority.portU16)
    | none => some (normalizeAuthority allowed none)

def collectHosts (hosts : List NormalizedAuthority) : List Chars → HostAllowList
  | [] => if hosts = [] then .any else .restricted hosts
  | value :: values =>
    let value := trim value
    if value = ['*'] then .any
    else if value = [] then collectHosts hosts values
    else match parseAllowedAuthority tryFrom value with
      | some authority => collectHosts (hosts ++ [authority]) values
      | none => collectHosts hosts values

def HostAllowList.fromCli (allowHost : Option (List Chars)) : HostAllowList :=
  match allowHost with
  | none => .restricted []
  | some values => collectHosts tryFrom [] values

def HostAllowList.contains (allowList : HostAllowList) (host : NormalizedAuthority) : Bool :=
  match allowList with
  | any => true
  | restricted allowedHosts => allowedHosts.any fun allowed =>
    decide (allowed.host = host.host) && match allowed.port with
      | some port => decide (host.port = some port)
      | none => true

def HttpAccessPolicy.fromCli (bindAddr : SocketAddr) (allowOrigin : List Chars)
    (allowHost : Option (List Chars)) : HttpAccessPolicy where
  bindAddr := bindAddr
  allowedOrigins := cleanAllowlist allowOrigin
  allowedHosts := HostAllowList.fromCli tryFrom allowHost

def HttpAccessPolicy.hostCheckDisabled (policy : HttpAccessPolicy) : Bool :=
  decide (policy.allowedHosts = .any)

def HttpAccessPolicy.hostPolicySummary (policy : HttpAccessPolicy) : Chars :=
  match policy.allowedHosts with
  | .any => "disabled; all Host values are allowed".toList
  | .restricted [] => "bind-derived IP hosts for ".toList ++ policy.bindAddr.display
  | .restricted extraHosts => "bind-derived IP hosts for ".toList ++ policy.bindAddr.display ++
      "; extra allowlist: ".toList ++ [','].intercalate (extraHosts.map NormalizedAuthority.display)

def portMatches (hostPort : Option ℕ) (bindPort : ℕ) : Bool :=
  match hostPort with
  | some port => port = bindPort
  | none => true

def HttpAccessPolicy.hostAllowedByBind (policy : HttpAccessPolicy) (host : NormalizedAuthority) : Bool :=
  let bindIp := policy.bindAddr.ip
  if portMatches host.port policy.bindAddr.port = false then false
  else if host.host = "localhost".toList then bindIp.isLoopback || bindIp.isUnspecified
  else match IpAddr.parse host.host with
    | none => false
    | some hostIp =>
      if bindIp.isUnspecified then true
      else if bindIp.isLoopback then hostIp.isLoopback
      else hostIp = bindIp

def HttpAccessPolicy.validateOrigin (policy : HttpAccessPolicy) (headers : HeaderMap) :
    Except AccessResponse Unit :=
  match headers.origin.head? with
  | none => .ok ()
  | some origin =>
    match origin.toStr with
    | none => .error (badRequest "Bad Request: invalid Origin")
    | some origin =>
      if policy.allowedOrigins.contains origin then .ok ()
      else .error (forbidden "Forbidden: Origin is not allowed".toList)

def parseHostHeader (headers : HeaderMap) : Except AccessResponse NormalizedAuthority :=
  match headers.host.head? with
  | none => .error (badRequest "Bad Request: missing Host header")
  | some host =>
    match host.toStr with
    | none => .error (badRequest "Bad Request: invalid Host header")
    | some host =>
      match tryFrom host with
      | some authority => .ok (normalizeAuthority authority.host authority.portU16)
      | none => .error (badRequest "Bad Request: invalid Host header")

def HttpAccessPolicy.validateHost (policy : HttpAccessPolicy) (headers : HeaderMap) :
    Except AccessResponse Unit := do
  let host ← parseHostHeader tryFrom headers
  if policy.hostCheckDisabled then .ok ()
  else if policy.hostAllowedByBind host || policy.allowedHosts.contains host then .ok ()
  else .error (forbidden ("Forbidden: Host header '".toList ++ host.display ++ "' is not allowed; ".toList ++
    policy.hostPolicySummary))

def HttpAccessPolicy.validate (policy : HttpAccessPolicy) (headers : HeaderMap) :
    Except AccessResponse Unit := do
  policy.validateOrigin headers
  policy.validateHost tryFrom headers

/-- What the inner service is called with, or the answer that keeps the request from it. -/
def call (policy : HttpAccessPolicy) (headers : HeaderMap) : Except AccessResponse HeaderMap :=
  match policy.validate tryFrom headers with
  | .error response => .error response
  | .ok () => .ok headers

end Parser

end IdaMcp.HttpAccess
