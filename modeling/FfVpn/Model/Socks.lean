import FfVpn.Library.Stream
import FfVpn.Model.Util

/-!
# `arti_runtime.rs`: the SOCKS5 server in front of Tor

`socks5Handshake` is the method selection and the username/password subnegotiation,
`socks5ReadRequest` the CONNECT request, `handleSocksConn` the two of them followed by the dial and
the success reply. The server's own writes succeed. What `handleSocksConn` leaves unread is what
the first of the two copy tasks then reads from the client.

Two things are not in the repository and are parameters: `torAddr`, which is
`TorAddr::from((host, port))`, and `connect`, whether `client.connect(target)` succeeds.
-/

set_option autoImplicit false

namespace FfVpn.Model.Socks

open FfVpn.Library.Stream FfVpn.Library.Stream.Proc FfVpn.Model.Util

/-- How a connection fails. -/
inductive SocksError (τ : Type)
  | io
  | other (message : String)
  /-- `Error::Other(format!("bad host: {e}"))` -/
  | badHost (bytes : List UInt8)
  /-- `Error::Other(format!("invalid TorAddr: {e}"))` -/
  | invalidTorAddr (host : String) (port : UInt16)
  /-- `Error::Arti(format!("connect {target:?}: {e}"))` -/
  | connect (target : τ)

/-- What the server does besides reading. -/
inductive SocksEvent (τ : Type)
  | wrote (bytes : List UInt8)
  | dial (target : τ)
  | connected (target : τ)

/-- The server's side of one connection. -/
abbrev Sock (τ α : Type) : Type := Proc (SocksError τ) (SocksEvent τ) α

variable {τ : Type}

/-- `sock.write_all`. -/
def writeAll (bytes : List UInt8) : Sock τ Unit := perform (.wrote bytes)

/-- `sock.read_u8`. -/
def readU8 : Sock τ UInt8 := do
  let byte ← readExact .io 1
  pure (byte.get 0)

/-- `u16::from_be_bytes`. -/
def u16FromBeBytes (hi lo : UInt8) : UInt16 := UInt16.ofNat (hi.toNat * 256 + lo.toNat)

/-- `Display for Ipv4Addr`. -/
def ipv4ToString (a b c d : UInt8) : String :=
  ".".intercalate ([a, b, c, d].map fun x => toString x.toNat)

/-- `{:x}` of a 16-bit segment. -/
def hexSegment (n : Nat) : String := String.ofList (Nat.toDigits 16 n)

/-- The longest run of zero segments, the first of them where several are longest: the loop of
`Display for Ipv6Addr`, with `cur` and `best` as (start, length). -/
def longestZeros : Nat → Nat × Nat → Nat × Nat → List Nat → Nat × Nat
  | _, _, best, [] => best
  | i, cur, best, seg :: rest =>
    if seg = 0 then
      let cur' := (if cur.2 = 0 then i else cur.1, cur.2 + 1)
      longestZeros (i + 1) cur' (if cur'.2 > best.2 then cur' else best) rest
    else longestZeros (i + 1) (0, 0) best rest

/-- `Display for Ipv6Addr`: an IPv4-mapped address keeps its dotted form, and otherwise the longest
run of at least two zero segments is compressed. -/
def ipv6ToString (bytes : List UInt8) : String :=
  let byte := fun i => (bytes.getD i 0)
  let segments := (List.range 8).map fun i => (byte (2 * i)).toNat * 256 + (byte (2 * i + 1)).toNat
  let chunk := fun l : List Nat => ":".intercalate (l.map hexSegment)
  if segments.take 6 = [0, 0, 0, 0, 0, 0xffff] then
    "::ffff:" ++ ipv4ToString (byte 12) (byte 13) (byte 14) (byte 15)
  else
    let zeros := longestZeros 0 (0, 0) (0, 0) segments
    if zeros.2 > 1 then
      chunk (segments.take zeros.1) ++ "::" ++ chunk (segments.drop (zeros.1 + zeros.2))
    else chunk segments

/-- The method selection of `socks5_handshake`. -/
def selectMethod : Sock τ Unit := do
  let header ← readExact .io 2
  if header.get 0 ≠ 0x05 then
    fail (.other "not a SOCKS5 client")
  else do
    let methods ← readExact .io (header.get 1).toNat
    if 0x02 ∈ methods.toList then
      writeAll [0x05, 0x02]
    else do
      writeAll [0x05, 0xff]
      fail (.other "client refused user/pass auth")

/-- The subnegotiation of `socks5_handshake`: 1 ver, 1 ulen, ulen, 1 plen, plen. -/
def subnegotiate (auth : String × String) : Sock τ Unit := do
  let ver ← readU8
  if ver ≠ 0x01 then
    fail (.other "bad auth subnegotiation version")
  else do
    let ulen ← readU8
    let user ← readExact .io ulen.toNat
    let plen ← readU8
    let pass ← readExact .io plen.toNat
    let ok := ctEq user.toList (asBytes auth.1) && ctEq pass.toList (asBytes auth.2)
    writeAll [0x01, if ok then 0x00 else 0x01]
    if ok then pure () else fail (.other "invalid SOCKS5 credentials")

/-- `socks5_handshake`. -/
def socks5Handshake (auth : String × String) : Sock τ Unit := do
  selectMethod
  subnegotiate auth

/-- The last two bytes of a name that is read with its port. -/
theorem port_hi_lt (len : UInt8) : len.toNat < len.toNat + 2 := by omega

theorem port_lo_lt (len : UInt8) : len.toNat + 1 < len.toNat + 2 := by omega

/-- The target of a request, by its address type. -/
def readTarget (atyp : UInt8) : Sock τ (String × UInt16) :=
  if atyp = 0x01 then do
    let bytes ← readExact .io (4 + 2)
    pure (ipv4ToString (bytes.get 0) (bytes.get 1) (bytes.get 2) (bytes.get 3),
      u16FromBeBytes (bytes.get 4) (bytes.get 5))
  else if atyp = 0x03 then do
    let len ← readU8
    -- name and port are read together, the port from the last two bytes
    let buf ← readExact .io (len.toNat + 2)
    match String.fromUTF8? (buf.toList.take len.toNat).toByteArray with
    | none => fail (.badHost (buf.toList.take len.toNat))
    | some host =>
      pure (host, u16FromBeBytes (buf.get ⟨len.toNat, port_hi_lt len⟩)
        (buf.get ⟨len.toNat + 1, port_lo_lt len⟩))
  else if atyp = 0x04 then do
    let bytes ← readExact .io (16 + 2)
    pure (ipv6ToString (bytes.toList.take 16), u16FromBeBytes (bytes.get 16) (bytes.get 17))
  else
    fail (.other ("unsupported atyp " ++ toString atyp.toNat))

/-- `socks5_read_request`. -/
def socks5ReadRequest (torAddr : String → UInt16 → Option τ) : Sock τ τ := do
  let head ← readExact .io 4
  if head.get 0 ≠ 0x05 ∨ head.get 1 ≠ 0x01 then
    fail (.other ("unsupported SOCKS5 request " ++ toString head.toList))
  else do
    let (host, port) ← readTarget (head.get 3)
    match torAddr host port with
    | some target => pure target
    | none => fail (.invalidTorAddr host port)

/-- The reply `socks5_send_reply_success` writes: succeeded, bound to 0.0.0.0:0. -/
def successReply : List UInt8 := [0x05, 0x00, 0x00, 0x01, 0, 0, 0, 0, 0, 0]

/-- `handle_socks_conn` up to the byte pump. -/
def handleSocksConn (torAddr : String → UInt16 → Option τ) (connect : τ → Bool)
    (auth : String × String) : Sock τ Unit := do
  socks5Handshake auth
  let target ← socks5ReadRequest torAddr
  perform (.dial target)
  if connect target then do
    perform (.connected target)
    writeAll successReply
  else fail (.connect target)

/-- One connection whose client sends `stream`: what the server has done when it comes to the pump
or has given up, and what it has not read. -/
def serveStream (torAddr : String → UInt16 → Option τ) (connect : τ → Bool)
    (auth : String × String) (stream : List UInt8) : Channel (SocksEvent τ) :=
  (handleSocksConn torAddr connect auth ⟨stream, []⟩).2

end FfVpn.Model.Socks
