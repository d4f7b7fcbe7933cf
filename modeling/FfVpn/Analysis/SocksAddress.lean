import FfVpn.Analysis.IpText
import FfVpn.Analysis.SocksGrammar

/-!
# Is a SOCKS request dialled at the address it names

`socks5_read_request` turns the octets of a request into the text of an address, which `TorAddr`
reads again. Nothing is lost on the way: the text is read as the address the client wrote
(`dials_requested_address`).
-/

set_option autoImplicit false

namespace FfVpn.Analysis.SocksAddress

open FfVpn.Library.Stream FfVpn.Library.Stream.Proc FfVpn.Model.Util FfVpn.Model.Config
  FfVpn.Model.Hops FfVpn.Model.Socks FfVpn.Analysis.SocksGrammar

variable {τ : Type}

/-- The address type and the address, as a client writes them. -/
def addressBytes : IpAddr → List UInt8
  | .v4 octets => 0x01 :: octets
  | .v6 segments =>
    0x04 :: segments.flatMap fun s => [UInt8.ofNat (s.toNat / 256), UInt8.ofNat (s.toNat % 256)]

/-- `port.to_be_bytes()`. -/
def portBytes (port : UInt16) : List UInt8 :=
  [UInt8.ofNat (port.toNat / 256), UInt8.ofNat (port.toNat % 256)]

/-- A CONNECT request for an address. -/
def request (ip : IpAddr) (port : UInt16) : List UInt8 :=
  [0x05, 0x01, 0x00] ++ addressBytes ip ++ portBytes port

theorem u16FromBeBytes_portBytes (port : UInt16) :
    u16FromBeBytes (UInt8.ofNat (port.toNat / 256)) (UInt8.ofNat (port.toNat % 256)) = port := by
  have hlt := port.toNat_lt
  refine UInt16.toNat_inj.mp ?_
  rw [u16FromBeBytes, UInt16.toNat_ofNat', UInt8.toNat_ofNat', UInt8.toNat_ofNat']
  omega

/-- The request names the text of the address. -/
theorem target_of_address {ip : IpAddr} (h : IpText.WellFormed ip) (port : UInt16) :
    Target (addressBytes ip ++ portBytes port) (ipToString ip) port := by
  have hport := u16FromBeBytes_portBytes port
  cases ip with
  | v4 octets =>
    obtain ⟨a, b, c, d, rfl⟩ := IpText.exists_of_length_four h
    have := Target.ipv4 a b c d (UInt8.ofNat (port.toNat / 256)) (UInt8.ofNat (port.toNat % 256))
    rwa [hport] at this
  | v6 segments =>
    have hlen : segments.length = 8 := h
    have := Target.ipv6 (segments.flatMap fun s =>
      [UInt8.ofNat (s.toNat / 256), UInt8.ofNat (s.toNat % 256)])
      (UInt8.ofNat (port.toNat / 256)) (UInt8.ofNat (port.toNat % 256))
      (by simp [List.length_flatMap, hlen])
    rwa [hport] at this

/-- What the server makes of a request whose target it has read. -/
theorem socks5ReadRequest_of_target (torAddr : String → UInt16 → Option τ) {addr : List UInt8}
    {host : String} {port : UInt16} (h : Target addr host port) (rsv : UInt8) (rest : List UInt8)
    (log : List (SocksEvent τ)) :
    socks5ReadRequest torAddr ⟨0x05 :: 0x01 :: rsv :: (addr ++ rest), log⟩ =
      match torAddr host port with
      | some target => (.ok target, ⟨rest, log⟩)
      | none => (.error (.invalidTorAddr host port), ⟨rest, log⟩) := by
  obtain ⟨atyp, c, rfl⟩ : ∃ atyp c, addr = atyp :: c := by
    cases h <;> exact ⟨_, _, rfl⟩
  have hhead : readExact (SocksError.io : SocksError τ) 4
      (⟨0x05 :: 0x01 :: rsv :: (atyp :: c ++ rest), log⟩ : Channel (SocksEvent τ)) =
        (.ok ⟨[0x05, 0x01, rsv, atyp], rfl⟩, ⟨c ++ rest, log⟩) :=
    (Recognizes.readExact _ 4 _ _ _).mpr
      ⟨[0x05, 0x01, rsv, atyp], [], by simp, by simp, rfl, rfl⟩
  have htarget : (readTarget atyp : Sock τ (String × UInt16)) ⟨c ++ rest, log⟩ =
      (.ok (host, port), ⟨rest, log⟩) :=
    (recognizes_readTarget atyp _ _ _).mpr ⟨c, [], rfl, by simp, h, rfl⟩
  rw [socks5ReadRequest, bind_apply, hhead]
  simp only
  rw [if_neg (by simp [List.Vector.get]), bind_apply]
  have hatyp : List.Vector.get (⟨[0x05, 0x01, rsv, atyp], rfl⟩ : List.Vector UInt8 4) 3 = atyp :=
    rfl
  rw [hatyp, htarget]
  cases htor : torAddr host port <;> simp [htor, fail, pure_apply]

/-- What the server makes of a stream that begins with a greeting and the credentials. -/
theorem socks5Handshake_of_credentials (auth : String × String) {greeting credentials : List UInt8}
    (hgreeting : Greeting greeting)
    (hcredentials : Credentials (asBytes auth.1) (asBytes auth.2) credentials)
    (rest : List UInt8) :
    (socks5Handshake auth : Sock τ Unit) ⟨greeting ++ credentials ++ rest, []⟩ =
      (.ok (), ⟨rest, [.wrote [0x05, 0x02], .wrote [0x01, 0x00]]⟩) := by
  have hrec : Recognizes (socks5Handshake auth : Sock τ Unit) _ :=
    Recognizes.bind recognizes_selectMethod fun _ => recognizes_subnegotiate auth
  exact (hrec _ _ _).mpr ⟨greeting ++ credentials, _, rfl, rfl, (), greeting, credentials, _, _,
    rfl,
    rfl, ⟨hgreeting, rfl⟩, hcredentials, rfl⟩

/-- **A request is dialled at the address it names.** Behind the greeting and the credentials, a
CONNECT request for an address and a port is dialled exactly if `TorAddr` takes the text of that
address, and the text is that of no other address. -/
theorem dials_requested_address (torAddr : String → UInt16 → Option τ) (connect : τ → Bool)
    (auth : String × String) {greeting credentials : List UInt8} (hgreeting : Greeting greeting)
    (hcredentials : Credentials (asBytes auth.1) (asBytes auth.2) credentials) {ip : IpAddr}
    (hip : IpText.WellFormed ip) (port : UInt16) (rest : List UInt8) :
    ∃ host, parseIpAddr host = some ip ∧ ∀ target,
      .dial target ∈ (serveStream torAddr connect auth
        (greeting ++ credentials ++ (request ip port ++ rest))).log ↔
        torAddr host port = some target := by
  refine ⟨ipToString ip, IpText.parseIpAddr_ipToString hip, fun target => ?_⟩
  have hrun : accept torAddr auth ⟨greeting ++ credentials ++ (request ip port ++ rest), []⟩ =
      match torAddr (ipToString ip) port with
      | some target => (.ok target, ⟨rest, [.wrote [0x05, 0x02], .wrote [0x01, 0x00]]⟩)
      | none => (.error (.invalidTorAddr (ipToString ip) port),
          ⟨rest, [.wrote [0x05, 0x02], .wrote [0x01, 0x00]]⟩) := by
    rw [accept, bind_apply, socks5Handshake_of_credentials auth hgreeting hcredentials]
    have hrequest : request ip port ++ rest =
        0x05 :: 0x01 :: 0x00 :: (addressBytes ip ++ portBytes port ++ rest) := by
      simp [request]
    rw [hrequest]
    exact socks5ReadRequest_of_target torAddr (target_of_address hip port) 0x00 rest _
  rw [serveStream, handleSocksConn_apply, hrun]
  cases torAddr (ipToString ip) port with
  | none => simp
  | some target' =>
    cases hconn : connect target' <;> simp [hconn, eq_comm]

/-- `::1`, port 443. -/
theorem dials_loopback :
    ∃ host, parseIpAddr host = some (.v6 [0, 0, 0, 0, 0, 0, 0, 1]) ∧ ∀ target,
      .dial target ∈ (serveStream (fun host port => some (host, port)) (fun _ => true) ("a", "b")
        ([0x05, 0x01, 0x02] ++ [0x01, 0x01, 0x61, 0x01, 0x62] ++
          (request (.v6 [0, 0, 0, 0, 0, 0, 0, 1]) 443 ++ []))).log ↔
        some (host, (443 : UInt16)) = some target :=
  dials_requested_address _ _ ("a", "b") ⟨0x01, [0x02], rfl, rfl, by decide⟩
    ⟨0x01, 0x01, by decide +kernel, by decide +kernel, by decide +kernel⟩
    (show IpText.WellFormed (.v6 [0, 0, 0, 0, 0, 0, 0, 1]) from rfl) 443 []

end FfVpn.Analysis.SocksAddress
