import FfVpn.Library.Transition
import FfVpn.Model.Dns
import FfVpn.Model.Util

/-!
# What the DNS proxy asks the OS resolver for

The override of `build_doh_client` covers one name, and only where the config has an address for it.
A request to any other name asks the OS resolver, which asks the proxy. `Visited` says where the
requests for a query can go; the proxy answers on its own exactly when every such host is an address
or the name that is pinned. Where the DoH server itself has to be looked up, no query is ever
answered.
-/

set_option autoImplicit false

namespace FfVpn.Analysis.DnsLookups

open FfVpn.Library.Utf16 FfVpn.Library.Transition FfVpn.Model.Util FfVpn.Model.Config
  FfVpn.Model.Dns

/-- Nobody has asked the OS resolver for a name, no task waits for it, and no task is there for a
query of its own process. -/
structure SelfContained (s : Proxy) : Prop where
  lookups : s.lookups = []
  waits : ∀ f ∈ s.forwards, ∀ k, f.stage ≠ .resolving k
  peers : ∀ f ∈ s.forwards, ∀ k, f.peer ≠ .own k

section

variable (ext : Externals) (cfg : AppConfig) (server : HttpUrl → List UInt8 → Reply → Bool)

/-- The URLs that a request for the query can go to, each with the number of redirects to it. -/
inductive Visited (query : List UInt8) : HttpUrl → Nat → Prop
  | doh {u : HttpUrl} (hu : dohUrl ext cfg.dohServer = some u) : Visited query u 0
  | redirect {u v : HttpUrl} {n : Nat} {r : Reply} (hu : Visited query u n)
    (hr : server u query r = true) (hnext : r.next ext u n = .follow v) :
    Visited query v (n + 1)

/-- The host is an address, or the DoH server's and the config has an address for that one. -/
def Fixed (u : HttpUrl) : Prop :=
  (literal? u.host).isSome ∨
    cfg.dohServerIp.isSome ∧ ∃ d, dohUrl ext cfg.dohServer = some d ∧ u.host = d.host

end

variable {ext : Externals} {cfg : AppConfig} {server : HttpUrl → List UInt8 → Reply → Bool}

/-! ## The override -/

theorem toHttp_eq_some {u : Url} {d : HttpUrl} (h : u.toHttp = some d) : d.url = u := by
  unfold Url.toHttp at h
  split at h
  · cases h
  · split at h
    · cases h
      rfl
    · cases h

/-- Where there is a URL to post to, the override is for its host. -/
theorem overrides_eq {d : HttpUrl} (hd : dohUrl ext cfg.dohServer = some d) :
    (buildDohClient ext cfg).overrides = (cfg.dohServerIp.map fun ip =>
      (d.host, ip, d.url.portOrKnownDefault.getD 443)).toList := by
  obtain ⟨parsed, hparsed, hhttp⟩ := Option.bind_eq_some_iff.mp hd
  obtain rfl := toHttp_eq_some hhttp
  unfold buildDohClient
  cases cfg.dohServerIp with
  | none => rfl
  | some ip => simp [hparsed, d.hostStr_eq]

/-- The OS resolver is asked for the hosts that are not fixed, and for nothing else. -/
theorem resolve_eq_system {d u : HttpUrl} (hd : dohUrl ext cfg.dohServer = some d) {name : String} :
    (buildDohClient ext cfg).resolve u.host = .system name ↔ name = u.host ∧ ¬ Fixed ext cfg u := by
  unfold Client.resolve Fixed
  rw [overrides_eq hd]
  cases literal? u.host with
  | some ip => simp
  | none =>
    cases cfg.dohServerIp with
    | none => simp [eq_comm]
    | some ip =>
      by_cases hhost : u.host = d.host
      · simp [hhost, hd]
      · have hne : (u.host == d.host) = false := by simpa using hhost
        simp [hd, List.lookup_cons, hne, hhost, eq_comm]

/-! ## No lookup -/

theorem Visited.exists_dohUrl {query : List UInt8} {u : HttpUrl} {n : Nat}
    (h : Visited ext cfg server query u n) : ∃ d, dohUrl ext cfg.dohServer = some d := by
  induction h with
  | doh hu => exact ⟨_, hu⟩
  | redirect _ _ _ ih => exact ih

section

variable (ext cfg server)

/-- A task of an app whose requests, up to the one it is at, no lookup came before. -/
structure OnItsWay (f : Forward) : Prop where
  peer : ∀ k, f.peer ≠ .own k
  stage : ∀ k, f.stage ≠ .resolving k
  query : ∃ datagram : List UInt8, f.query = datagram.take maxUdpDns
  visited : Visited ext cfg server f.query f.url f.redirects

structure NoLookup (s : Proxy) : Prop where
  dohServer : s.dohServer = cfg.dohServer
  client : s.client = buildDohClient ext cfg
  lookups : s.lookups = []
  forwards : ∀ f ∈ s.forwards, OnItsWay ext cfg server f

end

theorem NoLookup.selfContained {s : Proxy} (h : NoLookup ext cfg server s) : SelfContained s :=
  ⟨h.lookups, fun f hf => (h.forwards f hf).stage, fun f hf => (h.forwards f hf).peer⟩

theorem NoLookup.spawn : NoLookup ext cfg server (Proxy.spawn ext cfg) :=
  ⟨rfl, rfl, rfl, by simp [Proxy.spawn]⟩

theorem NoLookup.fail {s : Proxy} (h : NoLookup ext cfg server s) (peer : Peer)
    (query : List UInt8) : NoLookup ext cfg server (s.fail ext peer query) :=
  ⟨by simpa using h.dohServer, by simpa using h.client, by simpa using h.lookups,
    by simpa using h.forwards⟩

/-- Another set of tasks that are all on their way. -/
theorem NoLookup.tasks {s : Proxy} (h : NoLookup ext cfg server s) {forwards : List Forward}
    (hforwards : ∀ f ∈ forwards, OnItsWay ext cfg server f) :
    NoLookup ext cfg server { s with forwards := forwards } :=
  ⟨h.dohServer, h.client, h.lookups, hforwards⟩

theorem NoLookup.set {s : Proxy} (h : NoLookup ext cfg server s) (i : Nat) {f : Forward}
    (hf : OnItsWay ext cfg server f) :
    NoLookup ext cfg server { s with forwards := s.forwards.set i f } := by
  refine h.tasks fun g hg => ?_
  rcases List.mem_or_eq_of_mem_set hg with hg | rfl
  · exact h.forwards g hg
  · exact hf

theorem NoLookup.erase {s : Proxy} (h : NoLookup ext cfg server s) (i : Nat) :
    NoLookup ext cfg server { s with forwards := s.forwards.eraseIdx i } :=
  h.tasks fun g hg => h.forwards g (List.mem_of_mem_eraseIdx hg)

theorem NoLookup.receive {s : Proxy} (h : NoLookup ext cfg server s) (port : Nat)
    (datagram : List UInt8) : NoLookup ext cfg server (s.receive ext (.app port) datagram) := by
  unfold Proxy.receive
  split
  · next u hu =>
    rw [h.dohServer] at hu
    refine h.tasks fun g hg => ?_
    rcases List.mem_append.mp hg with hg | hg
    · exact h.forwards g hg
    · obtain rfl := List.mem_singleton.mp hg
      exact ⟨by simp, by simp, ⟨datagram, rfl⟩, .doh hu⟩
  · exact h.fail _ _

/-- A request that goes to a fixed host gets its connection. -/
theorem NoLookup.connect {s : Proxy} (h : NoLookup ext cfg server s) {i : Nat} {f : Forward}
    (hf : OnItsWay ext cfg server f) (hfixed : Fixed ext cfg f.url) :
    NoLookup ext cfg server (s.connect ext i f) := by
  obtain ⟨d, hd⟩ := hf.visited.exists_dohUrl
  have hconnected : OnItsWay ext cfg server { f with stage := .connected } :=
    ⟨hf.peer, by simp, hf.query, hf.visited⟩
  unfold Proxy.connect
  split
  · exact h.set i hconnected
  · split
    · exact h.set i hconnected
    · exact h.set i hconnected
    · next name hname =>
      rw [h.client, resolve_eq_system hd] at hname
      exact absurd hfixed hname.2

theorem NoLookup.replied {s : Proxy} (h : NoLookup ext cfg server s) {i : Nat} {f : Forward}
    (hf : OnItsWay ext cfg server f) {r : Reply} (hr : server f.url f.query r = true) :
    NoLookup ext cfg server (s.replied ext i f r) := by
  have hpooled : NoLookup ext cfg server (s.pooled f.url.origin r.kept) :=
    ⟨h.dohServer, h.client, h.lookups, h.forwards⟩
  unfold Proxy.replied
  generalize s.pooled f.url.origin r.kept = t at hpooled
  cases hnext : r.next ext f.url f.redirects with
  | answer body =>
    have herase := hpooled.erase i
    exact ⟨herase.dohServer, herase.client, herase.lookups, herase.forwards⟩
  | follow url => exact hpooled.set i ⟨hf.peer, by simp, hf.query, .redirect hf.visited hr hnext⟩
  | error => exact (hpooled.erase i).fail _ _

/-- Where all hosts are fixed, no step asks the OS resolver. -/
theorem NoLookup.step {s s' : Proxy} {a : DnsAct} (h : NoLookup ext cfg server s)
    (hfixed : ∀ (datagram : List UInt8) u n,
      Visited ext cfg server (datagram.take maxUdpDns) u n → Fixed ext cfg u)
    (hstep : s.step ext server a = some s') : NoLookup ext cfg server s' := by
  have hforward {i : Nat} {f : Forward} (hf : s.forwards[i]? = some f) :
      OnItsWay ext cfg server f := h.forwards f (List.mem_of_getElem? hf)
  cases a with
  | receive port datagram =>
    simp only [Proxy.step, Option.ite_none_right_eq_some, Option.some.injEq] at hstep
    obtain ⟨-, rfl⟩ := hstep
    exact h.receive port datagram
  | connect i =>
    simp only [Proxy.step, Option.bind_eq_some_iff, Option.ite_none_right_eq_some,
      Option.some.injEq] at hstep
    obtain ⟨f, hf, -, rfl⟩ := hstep
    obtain ⟨datagram, hquery⟩ := (hforward hf).query
    exact h.connect (hforward hf) (hfixed datagram _ _ (hquery ▸ (hforward hf).visited))
  | resolved i =>
    simp only [Proxy.step, Option.bind_eq_some_iff] at hstep
    obtain ⟨f, hf, hstep⟩ := hstep
    cases hstage : f.stage with
    | resolving k => exact absurd hstage ((hforward hf).stage k)
    | connecting | connected => simp [hstage] at hstep
  | reply i r =>
    simp only [Proxy.step, Option.bind_eq_some_iff, Option.ite_none_right_eq_some,
      Option.some.injEq] at hstep
    obtain ⟨f, hf, ⟨-, hr⟩, rfl⟩ := hstep
    exact h.replied (hforward hf) hr
  | fail i =>
    simp only [Proxy.step, Option.map_eq_some_iff] at hstep
    obtain ⟨f, -, rfl⟩ := hstep
    exact (h.erase i).fail _ _
  | close origin =>
    obtain rfl := Option.some.inj hstep
    exact ⟨h.dohServer, h.client, h.lookups, h.forwards⟩
  | cancel =>
    obtain rfl := Option.some.inj hstep
    exact ⟨h.dohServer, h.client, h.lookups, h.forwards⟩

/-! ## A lookup -/

section

variable (ext cfg)

/-- The proxy with one task, at a request to a URL. -/
def atUrl (query : List UInt8) (u : HttpUrl) (n : Nat) : Proxy :=
  { Proxy.spawn ext cfg with
    forwards := [{ peer := .app 0, query := query, url := u, redirects := n }] }

end

/-- Without a connection, a request to a host that is not fixed asks the OS resolver. -/
theorem connect_atUrl (server : HttpUrl → List UInt8 → Reply → Bool) (query : List UInt8) (n : Nat)
    {d u : HttpUrl} (hd : dohUrl ext cfg.dohServer = some d) (hfixed : ¬ Fixed ext cfg u) :
    ∃ s, (atUrl ext cfg query u n).step ext server (.connect 0) = some s ∧
      s.lookups = [u.host] := by
  have hname := (resolve_eq_system (u := u) hd).mpr ⟨rfl, hfixed⟩
  refine ⟨_, rfl, ?_⟩
  simp [Proxy.connect, atUrl, Proxy.spawn, hname]

/-- At a fixed host the request gets a connection, and with a redirect the task goes on to the next
URL; the connection may close after that. -/
theorem redirect_atUrl {query : List UInt8} {d u v : HttpUrl} {n : Nat} {r : Reply}
    (hd : dohUrl ext cfg.dohServer = some d) (hfixed : Fixed ext cfg u)
    (hr : server u query r = true) (hnext : r.next ext u n = .follow v) :
    run (Proxy.step ext server) (atUrl ext cfg query u n)
      [.connect 0, .reply 0 r, .close u.origin] = some (atUrl ext cfg query v (n + 1)) := by
  have hconnect : (atUrl ext cfg query u n).step ext server (.connect 0) =
      some { Proxy.spawn ext cfg with forwards := [
        { peer := .app 0, query := query, url := u, redirects := n, stage := .connected }] } := by
    cases hresolve : (buildDohClient ext cfg).resolve u.host with
    | literal ip | pinned addr =>
      simp [Proxy.step, Proxy.connect, atUrl, Proxy.spawn, hresolve]
    | system name => exact absurd hfixed ((resolve_eq_system hd).mp hresolve).2
  have hclosed : (if r.kept then [u.origin] else []).erase u.origin = [] := by
    split <;> simp
  rw [run_cons, hconnect]
  simp [run_cons, Proxy.step, Proxy.replied, Proxy.pooled, hr, hnext, atUrl, Proxy.spawn, hclosed]

/-- While nothing is looked up, a query can come to every URL on its way. -/
theorem reachable_atUrl (hnone : ∀ s,
      Reachable (Proxy.step ext server) (Proxy.spawn ext cfg) s → s.lookups = [])
    {datagram : List UInt8} {d u : HttpUrl} {n : Nat} (hd : dohUrl ext cfg.dohServer = some d)
    (hvisited : Visited ext cfg server (datagram.take maxUdpDns) u n) :
    Reachable (Proxy.step ext server) (Proxy.spawn ext cfg)
      (atUrl ext cfg (datagram.take maxUdpDns) u n) ∧ Fixed ext cfg u := by
  have hfixed {u : HttpUrl} {n : Nat}
      (hreach : Reachable (Proxy.step ext server) (Proxy.spawn ext cfg)
        (atUrl ext cfg (datagram.take maxUdpDns) u n)) : Fixed ext cfg u := by
    by_contra hfixed
    obtain ⟨s, hs, hlookups⟩ := connect_atUrl server (datagram.take maxUdpDns) n hd hfixed
    simp [hnone s (hreach.next hs)] at hlookups
  induction hvisited with
  | @doh u hu =>
    have hreach : Reachable (Proxy.step ext server) (Proxy.spawn ext cfg)
        (atUrl ext cfg (datagram.take maxUdpDns) u 0) := by
      refine ⟨[.receive 0 datagram], ?_⟩
      simp [run_cons, Proxy.step, Proxy.receive, Proxy.spawn, hu, atUrl]
    exact ⟨hreach, hfixed hreach⟩
  | @redirect u v n r _ hr hnext ih =>
    obtain ⟨⟨as, has⟩, hu⟩ := ih
    have hreach : Reachable (Proxy.step ext server) (Proxy.spawn ext cfg)
        (atUrl ext cfg (datagram.take maxUdpDns) v (n + 1)) := by
      refine ⟨as ++ [.connect 0, .reply 0 r, .close u.origin], ?_⟩
      rw [run_append, has, Option.bind_some]
      exact redirect_atUrl hd hu hr hnext
    exact ⟨hreach, hfixed hreach⟩

/-- **The proxy answers on its own exactly when no request goes to a name but the pinned one**: for
every behaviour of the servers, in every state of every run. -/
theorem selfContained_iff_fixed (ext : Externals) (cfg : AppConfig)
    (server : HttpUrl → List UInt8 → Reply → Bool) :
    (∀ s, Reachable (Proxy.step ext server) (Proxy.spawn ext cfg) s → SelfContained s) ↔
      ∀ (datagram : List UInt8) u n,
        Visited ext cfg server (datagram.take maxUdpDns) u n → Fixed ext cfg u := by
  constructor
  · intro h datagram u n hvisited
    obtain ⟨d, hd⟩ := hvisited.exists_dohUrl
    exact (reachable_atUrl (fun s hs => (h s hs).lookups) hd hvisited).2
  · intro hfixed s hreach
    have hinv : NoLookup ext cfg server s :=
      hreach.invariant .spawn fun s a s' h hs => h.step hfixed hs
    exact hinv.selfContained

/-- A document that names a DoH server, with more members after it. -/
def namesServer (members : List String) : String :=
  String.join (
    ["\x7b\"bridge_rsa_id\":\"a\"", ",\"bridge_ed25519_id\":\"b\"",
      ",\"doh_server\":\"https://", "dns.google/dns-query\""] ++ members ++
    [",\"outbounds\":[\x7b\"tag\":\"proxy\"", ",\"protocol\":\"vless\"",
      ",\"settings\":\x7b\"vnext\":[", "\x7b\"address\":\"h\",\"port\":8090",
      ",\"users\":[\x7b\"id\":\"u\"", "\x7d]\x7d]\x7d,\"streamSettings\":",
      "\x7b\"network\":\"grpc\"", ",\"grpcSettings\":\x7b", "\"serviceName\":\"g\"\x7d",
      ",\"security\":\"reality\"", ",\"realitySettings\":\x7b", "\"serverName\":\"s\"",
      ",\"publicKey\":\"k\"", ",\"shortId\":\"i\"", ",\"fingerprint\":\"f\"\x7d\x7d\x7d]\x7d"])

/-- What `from_json` makes of it. -/
def namedServer (ip : Option IpAddr) : AppConfig where
  bridgeRsaId := "a"
  bridgeEd25519Id := "b"
  dohServer := "https://dns.google/dns-query"
  dohServerIp := ip
  outbound := {
    tag := "proxy"
    address := "h"
    port := 8090
    userId := "u"
    flow := ""
    grpcServiceName := "g"
    reality := { serverName := "s", publicKey := "k", shortId := "i", fingerprint := "f" } }
  user := {}

/-- A query for the addresses of a name. -/
def addressQuery (name : List String) : List UInt8 :=
  [0, 1, 1, 0, 0, 1, 0, 0, 0, 0, 0, 0] ++
    name.flatMap (fun l => UInt8.ofNat l.length :: asBytes l) ++ [0, 0, 1, 0, 1]

/-- The libraries on the texts below. -/
def dnsGoogle : Externals where
  parse s :=
    if s = "https://dns.google/dns-query" then
      some ⟨"https", some "dns.google", none, "/dns-query"⟩
    else none
  join _ location :=
    if location = "https://dns64.dns.google/dns-query" then
      some ⟨"https", some "dns64.dns.google", none, "/dns-query"⟩
    else none
  fromVec _ := none
  toVec _ := none
  osQuery name := addressQuery (name.splitOn ".")

/-- Any query has `from_json`'s own config look up the DoH server where it gives no address, and
with the address a server that the first one redirects to. -/
theorem other_names_are_looked_up :
    (AppConfig.fromJson (namesServer []) = .ok (namedServer none) ∧
      ∃ s, Reachable (Proxy.step dnsGoogle fun _ _ _ => true)
          (Proxy.spawn dnsGoogle (namedServer none)) s ∧ s.lookups = ["dns.google"]) ∧
    AppConfig.fromJson (namesServer [",\"doh_server_ip\":\"8.8.8.8\""]) =
        .ok (namedServer (some (.v4 [8, 8, 8, 8]))) ∧
      ∃ s, Reachable (Proxy.step dnsGoogle fun _ _ _ => true)
          (Proxy.spawn dnsGoogle (namedServer (some (.v4 [8, 8, 8, 8])))) s ∧
        s.lookups = ["dns64.dns.google"] := by
  refine ⟨⟨?_, ?_⟩, ?_, ?_⟩
  · apply eq_ok_of_toOption
    rw [AppConfig.fromJson, namesServer, utf16_join]
    decide +kernel
  · obtain ⟨s, hrun, hs⟩ := exists_of_run_map (Proxy.step dnsGoogle fun _ _ _ => true)
      (Proxy.spawn dnsGoogle (namedServer none))
      [.receive 40000 (addressQuery ["example", "org"]), .connect 0]
      (fun s => s.lookups == ["dns.google"]) (by decide +kernel)
    exact ⟨s, ⟨_, hrun⟩, by simpa using hs⟩
  · apply eq_ok_of_toOption
    rw [AppConfig.fromJson, namesServer, utf16_join]
    decide +kernel
  · obtain ⟨s, hrun, hs⟩ := exists_of_run_map (Proxy.step dnsGoogle fun _ _ _ => true)
      (Proxy.spawn dnsGoogle (namedServer (some (.v4 [8, 8, 8, 8]))))
      [.receive 40000 (addressQuery ["example", "org"]), .connect 0,
        .reply 0 { status := 307, location := some "https://dns64.dns.google/dns-query" },
        .connect 0]
      (fun s => s.lookups == ["dns64.dns.google"]) (by decide +kernel)
    exact ⟨s, ⟨_, hrun⟩, by simpa using hs⟩

/-! ## The circle -/

/-- Every task is still before its first response, over no connection, and all that was sent is
failures. -/
structure Stuck (ext : Externals) (cfg : AppConfig) (d : HttpUrl) (s : Proxy) : Prop where
  dohServer : s.dohServer = cfg.dohServer
  client : s.client = buildDohClient ext cfg
  pool : s.pool = []
  forwards : ∀ f ∈ s.forwards, f.url = d ∧ f.stage ≠ .connected
  sent : ∀ p ∈ s.sent, ∃ m, p.2 = .servfail m

variable {d : HttpUrl}

theorem Stuck.fail {s : Proxy} (h : Stuck ext cfg d s) (peer : Peer) (query : List UInt8) :
    Stuck ext cfg d (s.fail ext peer query) := by
  refine ⟨by simpa using h.dohServer, by simpa using h.client, by simpa using h.pool,
    by simpa using h.forwards, fun p hp => ?_⟩
  rcases mem_sent_fail ext s peer query hp with hp | ⟨m, rfl⟩
  · exact h.sent p hp
  · exact ⟨m, rfl⟩

theorem Stuck.receive {s : Proxy} (h : Stuck ext cfg d s)
    (hd : dohUrl ext cfg.dohServer = some d) (peer : Peer) (datagram : List UInt8) :
    Stuck ext cfg d (s.receive ext peer datagram) := by
  unfold Proxy.receive
  rw [h.dohServer, hd]
  refine ⟨rfl, h.client, h.pool, fun f hf => ?_, h.sent⟩
  rcases List.mem_append.mp hf with hf | hf
  · exact h.forwards f hf
  · obtain rfl := List.mem_singleton.mp hf
    exact ⟨rfl, by simp⟩

/-- The task asks the OS resolver, whose query becomes another task of the kind. -/
theorem Stuck.connect {s : Proxy} (h : Stuck ext cfg d s)
    (hd : dohUrl ext cfg.dohServer = some d) (hfixed : ¬ Fixed ext cfg d) {i : Nat} {f : Forward}
    (hf : f.url = d) : Stuck ext cfg d (s.connect ext i f) := by
  obtain rfl := hf
  have hname := (resolve_eq_system hd).mpr ⟨rfl, hfixed⟩
  have hasked : Stuck ext cfg f.url { s with
      forwards := s.forwards.set i { f with stage := .resolving s.lookups.length }
      lookups := s.lookups ++ [f.url.host] } := by
    refine ⟨h.dohServer, h.client, h.pool, fun g hg => ?_, h.sent⟩
    rcases List.mem_or_eq_of_mem_set hg with hg | rfl
    · exact h.forwards g hg
    · exact ⟨rfl, by simp⟩
  simp only [Proxy.connect, h.pool, h.client, hname, List.not_mem_nil, if_false]
  simp only [h.client, h.pool] at hasked
  split
  · exact hasked.receive hd _ _
  · exact hasked

theorem Stuck.step {s s' : Proxy} {a : DnsAct} (h : Stuck ext cfg d s)
    (hd : dohUrl ext cfg.dohServer = some d) (hfixed : ¬ Fixed ext cfg d)
    (hstep : s.step ext server a = some s') : Stuck ext cfg d s' := by
  have hforward {i : Nat} {f : Forward} (hf : s.forwards[i]? = some f) :
      f.url = d ∧ f.stage ≠ .connected := h.forwards f (List.mem_of_getElem? hf)
  cases a with
  | receive port datagram =>
    simp only [Proxy.step, Option.ite_none_right_eq_some, Option.some.injEq] at hstep
    obtain ⟨-, rfl⟩ := hstep
    exact h.receive hd _ _
  | connect i =>
    simp only [Proxy.step, Option.bind_eq_some_iff, Option.ite_none_right_eq_some,
      Option.some.injEq] at hstep
    obtain ⟨f, hf, -, rfl⟩ := hstep
    exact h.connect hd hfixed (hforward hf).1
  | resolved i =>
    -- an answer to the OS resolver would have to be one of those sent
    simp only [Proxy.step, Option.bind_eq_some_iff] at hstep
    obtain ⟨f, -, hstep⟩ := hstep
    cases hstage : f.stage with
    | resolving k =>
      simp only [hstage, Option.ite_none_right_eq_some, Proxy.answered, List.any_eq_true] at hstep
      obtain ⟨⟨⟨peer, answer⟩, hp, hanswer⟩, -⟩ := hstep
      obtain ⟨m, rfl⟩ := h.sent _ hp
      cases hanswer
    | connecting | connected => simp [hstage] at hstep
  | reply i r =>
    simp only [Proxy.step, Option.bind_eq_some_iff, Option.ite_none_right_eq_some] at hstep
    obtain ⟨f, hf, ⟨hstage, -⟩, -⟩ := hstep
    exact absurd hstage (hforward hf).2
  | fail i =>
    simp only [Proxy.step, Option.map_eq_some_iff] at hstep
    obtain ⟨f, -, rfl⟩ := hstep
    have herase : Stuck ext cfg d { s with forwards := s.forwards.eraseIdx i } :=
      ⟨h.dohServer, h.client, h.pool,
        fun g hg => h.forwards g (List.mem_of_mem_eraseIdx hg), h.sent⟩
    exact herase.fail _ _
  | close origin =>
    obtain rfl := Option.some.inj hstep
    exact ⟨h.dohServer, h.client, by simp [h.pool], h.forwards, h.sent⟩
  | cancel =>
    obtain rfl := Option.some.inj hstep
    exact ⟨h.dohServer, h.client, h.pool, h.forwards, h.sent⟩

/-- **Where the DoH server has to be looked up, no query is ever answered**: the lookup needs an
answer of the proxy, and all the proxy ever sends is failures. -/
theorem only_servfail (hd : dohUrl ext cfg.dohServer = some d) (hfixed : ¬ Fixed ext cfg d)
    {s : Proxy} (hreach : Reachable (Proxy.step ext server) (Proxy.spawn ext cfg) s) :
    ∀ p ∈ s.sent, ∃ m, p.2 = .servfail m := by
  have hstuck : Stuck ext cfg d s :=
    hreach.invariant ⟨rfl, rfl, rfl, by simp [Proxy.spawn], by simp [Proxy.spawn]⟩
      fun s a s' h hs => h.step hd hfixed hs
  exact hstuck.sent

/-- A query for the name servers of the root. -/
def rootServers : Message where
  id := 0xABCD
  response := false
  opCode := 0
  responseCode := 0
  queries := [⟨[], 2, 1⟩]

/-- The datagram of the query, or of the failure that answers it. -/
def rootDatagram (flags code : UInt8) : List UInt8 :=
  [0xAB, 0xCD, flags, code, 0, 1, 0, 0, 0, 0, 0, 0, 0, 0, 2, 0, 1]

/-- The libraries, with this query and the failure too. -/
def dnsGoogleRoot : Externals where
  parse := dnsGoogle.parse
  join := dnsGoogle.join
  osQuery := dnsGoogle.osQuery
  fromVec query := if query = rootDatagram 0 0 then some rootServers else none
  toVec m :=
    if m = { rootServers with response := true, responseCode := servFail } then
      some (rootDatagram 0x80 2)
    else none

/-- The query has the DoH server looked up, and when it fails an app is told so. -/
theorem only_servfail_root :
    ∃ s, Reachable (Proxy.step dnsGoogleRoot fun _ _ _ => true)
        (Proxy.spawn dnsGoogleRoot (namedServer none)) s ∧
      s.lookups = ["dns.google"] ∧ s.sent.length = 1 ∧ ∀ p ∈ s.sent, ∃ m, p.2 = .servfail m := by
  obtain ⟨s, hrun, hs⟩ := exists_of_run_map (Proxy.step dnsGoogleRoot fun _ _ _ => true)
    (Proxy.spawn dnsGoogleRoot (namedServer none))
    [.receive 40000 (rootDatagram 0 0), .connect 0, .fail 0]
    (fun s => s.lookups == ["dns.google"] && s.sent.length == 1) (by decide +kernel)
  simp only [Bool.and_eq_true, beq_iff_eq] at hs
  have hd : dohUrl dnsGoogleRoot (namedServer none).dohServer =
      some ⟨⟨"https", some "dns.google", none, "/dns-query"⟩, "dns.google", rfl, .inr rfl⟩ := by
    decide +kernel
  have hfixed : ¬ Fixed dnsGoogleRoot (namedServer none)
      ⟨⟨"https", some "dns.google", none, "/dns-query"⟩, "dns.google", rfl, .inr rfl⟩ := by
    rintro (hliteral | ⟨hip, -⟩)
    · revert hliteral
      decide +kernel
    · cases hip
  exact ⟨s, ⟨_, hrun⟩, hs.1, hs.2, only_servfail hd hfixed ⟨_, hrun⟩⟩

end FfVpn.Analysis.DnsLookups
