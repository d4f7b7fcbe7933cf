import FfVpn.Model.Config

/-!
# `dns.rs`: the embedded DNS server

A datagram that comes to the socket at the TUN address is forwarded to the DoH server by a task of
its own: a request, and one more for each redirect the client follows. A request goes over an open
connection to its origin or over a new one, and for a new one the host has to become an address: it
is one, or the client has an override for it, or the OS resolver is asked. `addDnsServer` makes the
OS resolver ask the same socket, so its query becomes a task like any other.
-/

set_option autoImplicit false

namespace FfVpn.Model.Dns

open FfVpn.Model.Config

/-- `MAX_UDP_DNS`, the size of the receive buffer. -/
def maxUdpDns : Nat := 4096

/-- How many redirects a client follows that was given no policy. -/
def maxRedirects : Nat := 10

/-! ## URLs and the HTTP client -/

/-- `url::Url`, with what comes after the authority as one text. -/
structure Url where
  scheme : String
  hostStr : Option String
  port : Option UInt16
  path : String
  deriving DecidableEq, Repr

/-- `Url::port_or_known_default`. -/
def Url.portOrKnownDefault (u : Url) : Option UInt16 :=
  u.port.or <|
    if u.scheme = "http" ∨ u.scheme = "ws" then some 80
    else if u.scheme = "https" ∨ u.scheme = "wss" then some 443
    else if u.scheme = "ftp" then some 21
    else none

/-- A URL that the client sends requests to. -/
structure HttpUrl where
  url : Url
  host : String
  hostStr_eq : url.hostStr = some host
  http : url.scheme = "http" ∨ url.scheme = "https"
  deriving DecidableEq

/-- `IntoUrl` refuses a URL without a host, and `send` a scheme other than these. -/
def Url.toHttp (u : Url) : Option HttpUrl :=
  match h : u.hostStr with
  | none => none
  | some host =>
    if hs : u.scheme = "http" ∨ u.scheme = "https" then some ⟨u, host, h, hs⟩ else none

/-- What a connection in the pool of the client is kept for. -/
structure Origin where
  scheme : String
  host : String
  port : Option UInt16
  deriving DecidableEq, Repr

def HttpUrl.origin (u : HttpUrl) : Origin := ⟨u.url.scheme, u.host, u.url.portOrKnownDefault⟩

/-- `reqwest::Client`: the overrides of its resolver. -/
structure Client where
  overrides : List (String × IpAddr × UInt16) := []

/-- The connector takes the brackets off an IPv6 literal. -/
def unbracket (host : String) : String :=
  String.ofList ((host.toList.dropWhile (· = '[')).reverse.dropWhile (· = ']')).reverse

/-- The host is an address as it stands. -/
def literal? (host : String) : Option IpAddr := parseIpAddr (unbracket host)

/-- How the connector gets the address of a host. -/
inductive Resolution
  | literal (ip : IpAddr)
  | pinned (addr : IpAddr × UInt16)
  /-- The OS resolver is asked. -/
  | system (name : String)
  deriving DecidableEq, Repr

def Client.resolve (client : Client) (host : String) : Resolution :=
  match literal? host with
  | some ip => .literal ip
  | none =>
    match client.overrides.lookup host with
    | some addr => .pinned addr
    | none => .system host

/-! ## DNS messages -/

structure Question where
  name : List (List UInt8)
  queryType : UInt16
  queryClass : UInt16
  deriving DecidableEq, Repr

/-- `ResponseCode::ServFail`. -/
def servFail : UInt16 := 2

/-- `hickory_proto::op::Message`, the part the proxy reads and writes. -/
structure Message where
  id : UInt16
  response : Bool
  opCode : UInt8
  responseCode : UInt16
  queries : List Question
  deriving DecidableEq, Repr

/-- The libraries the proxy calls, and the query the OS resolver sends for a name. -/
structure Externals where
  /-- `url::Url::parse`. -/
  parse : String → Option Url
  /-- `Url::join`, with the value of a `Location` header. -/
  join : Url → String → Option Url
  /-- `Message::from_vec`. -/
  fromVec : List UInt8 → Option Message
  /-- `Message::to_vec`. -/
  toVec : Message → Option (List UInt8)
  osQuery : String → List UInt8

variable (ext : Externals)

/-- `build_servfail`. -/
def buildServfail (query : List UInt8) : Option (List UInt8) := do
  let parsed ← ext.fromVec query
  ext.toVec {
    id := parsed.id
    response := true
    opCode := parsed.opCode
    responseCode := servFail
    queries := parsed.queries }

/-- `build_doh_client`. -/
def buildDohClient (cfg : AppConfig) : Client :=
  match cfg.dohServerIp, ext.parse cfg.dohServer with
  | some ip, some parsed =>
    match parsed.hostStr with
    | some host => { overrides := [(host, ip, parsed.portOrKnownDefault.getD 443)] }
    | none => {}
  | _, _ => {}

/-! ## The tasks -/

/-- Where a datagram comes from: a socket of an app, or the OS resolver's for one of the lookups
it was asked for by this process. -/
inductive Peer
  | app (port : Nat)
  | own (lookup : Nat)
  deriving DecidableEq, Repr

/-- What the request of a task waits for. -/
inductive Stage
  | connecting
  /-- The OS resolver, which has been asked in this lookup. -/
  | resolving (lookup : Nat)
  /-- The response. -/
  | connected
  deriving DecidableEq, Repr

/-- A spawned `forward_doh`: the request it is at, and how many redirects it has followed. -/
structure Forward where
  peer : Peer
  query : List UInt8
  url : HttpUrl
  redirects : Nat := 0
  stage : Stage := .connecting

/-- A datagram the proxy sends: the body of a response or `build_servfail`'s. -/
inductive Answer
  | doh (body : List UInt8)
  | servfail (message : List UInt8)
  deriving DecidableEq, Repr

/-- The proxy of a session, with what the OS resolver has been asked for so far. -/
structure Proxy where
  dohServer : String
  client : Client
  listening : Bool := true
  forwards : List Forward := []
  pool : List Origin := []
  lookups : List String := []
  sent : List (Peer × Answer) := []

/-- The URL the tasks post their queries to, if it is one to post to. -/
def dohUrl (dohServer : String) : Option HttpUrl := (ext.parse dohServer).bind Url.toHttp

/-- `spawn_dns_proxy`. -/
def Proxy.spawn (cfg : AppConfig) : Proxy :=
  { dohServer := cfg.dohServer, client := buildDohClient ext cfg }

/-- The `Err` arm of a task. -/
def Proxy.fail (s : Proxy) (peer : Peer) (query : List UInt8) : Proxy :=
  match buildServfail ext query with
  | some servfail => { s with sent := s.sent ++ [(peer, .servfail servfail)] }
  | none => s

section

variable (s : Proxy) (peer : Peer) (query : List UInt8)

@[simp] theorem fail_dohServer : (s.fail ext peer query).dohServer = s.dohServer := by
  unfold Proxy.fail
  split <;> rfl

@[simp] theorem fail_client : (s.fail ext peer query).client = s.client := by
  unfold Proxy.fail
  split <;> rfl

@[simp] theorem fail_forwards : (s.fail ext peer query).forwards = s.forwards := by
  unfold Proxy.fail
  split <;> rfl

@[simp] theorem fail_pool : (s.fail ext peer query).pool = s.pool := by
  unfold Proxy.fail
  split <;> rfl

@[simp] theorem fail_lookups : (s.fail ext peer query).lookups = s.lookups := by
  unfold Proxy.fail
  split <;> rfl

/-- A task that fails sends a `SERVFAIL` or nothing. -/
theorem mem_sent_fail {p : Peer × Answer} (hp : p ∈ (s.fail ext peer query).sent) :
    p ∈ s.sent ∨ ∃ m, p = (peer, .servfail m) := by
  unfold Proxy.fail at hp
  split at hp
  · next m _ =>
    rcases List.mem_append.mp hp with hp | hp
    · exact .inl hp
    · exact .inr ⟨m, by simpa using hp⟩
  · exact .inl hp

end

/-- `recv_from`, and `forward_doh` up to its first request. -/
def Proxy.receive (s : Proxy) (peer : Peer) (datagram : List UInt8) : Proxy :=
  let query := datagram.take maxUdpDns
  match dohUrl ext s.dohServer with
  | some url => { s with forwards := s.forwards ++ [{ peer := peer, query := query, url := url }] }
  | none => s.fail ext peer query

section

variable (s : Proxy) (peer : Peer) (datagram : List UInt8)

@[simp] theorem receive_dohServer : (s.receive ext peer datagram).dohServer = s.dohServer := by
  unfold Proxy.receive
  cases dohUrl ext s.dohServer <;> simp

@[simp] theorem receive_client : (s.receive ext peer datagram).client = s.client := by
  unfold Proxy.receive
  cases dohUrl ext s.dohServer <;> simp

@[simp] theorem receive_pool : (s.receive ext peer datagram).pool = s.pool := by
  unfold Proxy.receive
  cases dohUrl ext s.dohServer <;> simp

@[simp] theorem receive_lookups : (s.receive ext peer datagram).lookups = s.lookups := by
  unfold Proxy.receive
  cases dohUrl ext s.dohServer <;> simp

end

/-- A task gets a connection for its request, or asks the OS resolver for the host. -/
def Proxy.connect (s : Proxy) (i : Nat) (f : Forward) : Proxy :=
  let connected := { s with forwards := s.forwards.set i { f with stage := .connected } }
  if f.url.origin ∈ s.pool then connected
  else
    match s.client.resolve f.url.host with
    | .literal _ | .pinned _ => connected
    | .system name =>
      let lookup := s.lookups.length
      let asked := { s with
        forwards := s.forwards.set i { f with stage := .resolving lookup }
        lookups := s.lookups ++ [name] }
      if s.listening then asked.receive ext (.own lookup) (ext.osQuery name) else asked

/-- The OS resolver has got an answer to its query that is not a failure. -/
def Proxy.answered (s : Proxy) (lookup : Nat) : Bool :=
  s.sent.any fun
    | (peer, .doh _) => peer == .own lookup
    | (_, .servfail _) => false

/-- A response, and whether its connection stays in the pool. -/
structure Reply where
  status : Nat
  location : Option String := none
  body : List UInt8 := []
  kept : Bool := true
  deriving DecidableEq, Repr

/-- What a task does after a response. -/
inductive Next
  | answer (body : List UInt8)
  | follow (url : HttpUrl)
  | error

/-- The redirects of the client, then `error_for_status`, after so many redirects to this URL. A
redirect without a location that can be joined is a response like another. -/
def Reply.next (r : Reply) (url : HttpUrl) (redirects : Nat) : Next :=
  if r.status ∈ [301, 302, 303, 307, 308] then
    match r.location.bind (ext.join url.url) with
    | none => .answer r.body
    | some u =>
      if redirects < maxRedirects then
        match u.toHttp with
        | some url => .follow url
        | none => .error
      else .error
  else if 400 ≤ r.status ∧ r.status < 600 then .error
  else .answer r.body

/-- A connection after a response: in the pool, or closed. -/
def Proxy.pooled (s : Proxy) (origin : Origin) (kept : Bool) : Proxy :=
  { s with pool := if kept then origin :: s.pool.erase origin else s.pool.erase origin }

/-- A task gets the response to its request. -/
def Proxy.replied (s : Proxy) (i : Nat) (f : Forward) (r : Reply) : Proxy :=
  let s := s.pooled f.url.origin r.kept
  match r.next ext f.url f.redirects with
  | .answer body =>
    { s with forwards := s.forwards.eraseIdx i, sent := s.sent ++ [(f.peer, .doh body)] }
  | .follow url =>
    { s with
      forwards := s.forwards.set i
        { f with url := url, redirects := f.redirects + 1, stage := .connecting } }
  | .error => { s with forwards := s.forwards.eraseIdx i }.fail ext f.peer f.query

/-- What can happen. -/
inductive DnsAct
  | receive (port : Nat) (datagram : List UInt8)
  | connect (i : Nat)
  | resolved (i : Nat)
  | reply (i : Nat) (r : Reply)
  /-- No connection, or no response within the timeout. -/
  | fail (i : Nat)
  /-- An idle connection is closed. -/
  | close (origin : Origin)
  | cancel

/-- One step of the proxy, where `server` says which responses a query posted to a URL may get. -/
def Proxy.step (server : HttpUrl → List UInt8 → Reply → Bool) (s : Proxy) : DnsAct → Option Proxy
  | .receive port datagram =>
    if s.listening then some (s.receive ext (.app port) datagram) else none
  | .connect i => s.forwards[i]?.bind fun f =>
    if f.stage = .connecting then some (s.connect ext i f) else none
  | .resolved i => s.forwards[i]?.bind fun f =>
    match f.stage with
    | .resolving lookup =>
      if s.answered lookup then
        some { s with forwards := s.forwards.set i { f with stage := .connected } }
      else none
    | _ => none
  | .reply i r => s.forwards[i]?.bind fun f =>
    if f.stage = .connected ∧ server f.url f.query r = true then some (s.replied ext i f r)
    else none
  | .fail i => s.forwards[i]?.map fun f =>
    { s with forwards := s.forwards.eraseIdx i }.fail ext f.peer f.query
  | .close origin => some { s with pool := s.pool.erase origin }
  | .cancel => some { s with listening := false }

end FfVpn.Model.Dns
