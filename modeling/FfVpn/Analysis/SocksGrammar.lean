import FfVpn.Model.Socks

/-!
# What the SOCKS5 server accepts

The grammar is stated on its own (`Greeting`, `Credentials`, `Target`, `Connect`, `Accepted`), and
each function of the server is shown to recognize its part of it: it returns exactly on the inputs
of the grammar, having read nothing more. The rules of `FfVpn.Library.Stream` put the parts
together.
-/

set_option autoImplicit false

namespace FfVpn.Analysis.SocksGrammar

open FfVpn.Library.Stream FfVpn.Library.Stream.Proc FfVpn.Model.Util FfVpn.Model.Socks

variable {τ : Type}

/-- `05 n methods[n]` with `02` among the methods. -/
def Greeting (c : List UInt8) : Prop :=
  ∃ n methods, c = 0x05 :: n :: methods ∧ methods.length = n.toNat ∧ (0x02 : UInt8) ∈ methods

/-- `01 ulen user plen pass` with the given user and password. -/
def Credentials (user pass c : List UInt8) : Prop :=
  ∃ ulen plen : UInt8, c = 0x01 :: ulen :: (user ++ plen :: pass) ∧ user.length = ulen.toNat ∧
    pass.length = plen.toNat

/-- An address type, an address of it and a port: the bytes, the host text and the port. -/
inductive Target : List UInt8 → String → UInt16 → Prop
  | ipv4 (a b c d hi lo : UInt8) :
    Target [0x01, a, b, c, d, hi, lo] (ipv4ToString a b c d) (u16FromBeBytes hi lo)
  | domain (len : UInt8) (host : String) (hi lo : UInt8) :
    (asBytes host).length = len.toNat →
    Target (0x03 :: len :: (asBytes host ++ [hi, lo])) host (u16FromBeBytes hi lo)
  | ipv6 (bytes : List UInt8) (hi lo : UInt8) :
    bytes.length = 16 →
    Target (0x04 :: (bytes ++ [hi, lo])) (ipv6ToString bytes) (u16FromBeBytes hi lo)

/-- `05 01 rsv` and a target that `TorAddr` accepts. -/
def Connect (torAddr : String → UInt16 → Option τ) (c : List UInt8) (target : τ) : Prop :=
  ∃ rsv addr host port, c = 0x05 :: 0x01 :: rsv :: addr ∧ Target addr host port ∧
    torAddr host port = some target

/-- The whole of what a client sends before its payload. -/
def Accepted (torAddr : String → UInt16 → Option τ) (user pass c : List UInt8) (target : τ) :
    Prop :=
  ∃ greeting credentials connect, c = greeting ++ credentials ++ connect ∧ Greeting greeting ∧
    Credentials user pass credentials ∧ Connect torAddr connect target

theorem recognizes_readU8 :
    Recognizes (readU8 : Sock τ UInt8) fun c b ev => c = [b] ∧ ev = [] := by
  refine (Recognizes.bind (Recognizes.readExact _ 1) fun v => Recognizes.pure (v.get 0)).congr ?_
  intro c b ev
  constructor
  · rintro ⟨v, c₁, c₂, ev₁, ev₂, rfl, rfl, ⟨rfl, rfl⟩, rfl, rfl, rfl⟩
    obtain ⟨x, hx⟩ := List.length_eq_one_iff.mp v.2
    have hv : v = ⟨[x], rfl⟩ := Subtype.ext hx
    subst hv
    exact ⟨rfl, rfl⟩
  · rintro ⟨rfl, rfl⟩
    exact ⟨⟨[b], rfl⟩, [b], [], [], [], rfl, rfl, ⟨rfl, rfl⟩, rfl, rfl, rfl⟩

theorem recognizes_selectMethod :
    Recognizes (selectMethod : Sock τ Unit) fun c _ ev =>
      Greeting c ∧ ev = [.wrote [0x05, 0x02]] := by
  refine (Recognizes.bind (Recognizes.readExact _ 2) fun v => Recognizes.ite (Recognizes.fail _)
    (Recognizes.bind (Recognizes.readExact _ (v.get 1).toNat) fun methods =>
      Recognizes.ite (Recognizes.perform _)
        (Recognizes.bind (Recognizes.perform _) fun _ => Recognizes.fail _))).congr ?_
  intro c a ev
  constructor
  · rintro ⟨v, c₁, c₂, ev₁, ev₂, rfl, rfl, ⟨rfl, rfl⟩, hrest⟩
    rcases hrest with ⟨-, hfalse⟩ | ⟨hver, methods, c₃, c₄, ev₃, ev₄, rfl, rfl, ⟨rfl, rfl⟩, hrest⟩
    · exact hfalse.elim
    rcases hrest with ⟨hmem, rfl, rfl⟩ | ⟨-, _, _, _, _, _, -, -, -, hfalse⟩
    · obtain ⟨x, n, hxn⟩ := List.length_eq_two.mp v.2
      have hv : v = ⟨[x, n], rfl⟩ := Subtype.ext hxn
      subst hv
      have hx : x = 0x05 := not_not.mp hver
      subst hx
      exact ⟨⟨n, methods.toList, by simp [List.Vector.toList], methods.2, hmem⟩, rfl⟩
    · exact hfalse.elim
  · rintro ⟨⟨n, methods, rfl, hlen, hmem⟩, rfl⟩
    exact ⟨⟨[0x05, n], rfl⟩, [0x05, n], methods, [], _, rfl, rfl, ⟨rfl, rfl⟩,
      .inr ⟨by simp [List.Vector.get], ⟨methods, hlen⟩, methods, [], [], _, by simp, rfl,
        ⟨rfl, rfl⟩, .inl ⟨hmem, rfl, rfl⟩⟩⟩

theorem recognizes_subnegotiate (auth : String × String) :
    Recognizes (subnegotiate auth : Sock τ Unit) fun c _ ev =>
      Credentials (asBytes auth.1) (asBytes auth.2) c ∧ ev = [.wrote [0x01, 0x00]] := by
  refine (Recognizes.bind recognizes_readU8 fun ver => Recognizes.ite (Recognizes.fail _)
    (Recognizes.bind recognizes_readU8 fun ulen =>
      Recognizes.bind (Recognizes.readExact _ ulen.toNat) fun user =>
      Recognizes.bind recognizes_readU8 fun plen =>
      Recognizes.bind (Recognizes.readExact _ plen.toNat) fun pass =>
      Recognizes.bind (Recognizes.perform _) fun _ =>
      Recognizes.ite (Recognizes.pure _) (Recognizes.fail _))).congr ?_
  intro c a ev
  constructor
  · rintro ⟨ver, c₁, c₂, ev₁, ev₂, rfl, rfl, ⟨rfl, rfl⟩, hrest⟩
    rcases hrest with ⟨-, hfalse⟩ | ⟨hver, hrest⟩
    · exact hfalse.elim
    obtain ⟨ulen, c₃, c₄, ev₃, ev₄, rfl, rfl, ⟨rfl, rfl⟩, user, c₅, c₆, ev₅, ev₆, rfl, rfl,
      ⟨rfl, rfl⟩, plen, c₇, c₈, ev₇, ev₈, rfl, rfl, ⟨rfl, rfl⟩, pass, c₉, c₁₀, ev₉, ev₁₀, rfl, rfl,
      ⟨rfl, rfl⟩, _, c₁₁, c₁₂, ev₁₁, ev₁₂, rfl, rfl, ⟨rfl, rfl⟩, hok⟩ := hrest
    rcases hok with ⟨hok, rfl, -, rfl⟩ | ⟨-, hfalse⟩
    · have hboth := hok
      rw [Bool.and_eq_true, ctEq_iff, ctEq_iff] at hboth
      refine ⟨⟨ulen, plen, ?_, ?_, ?_⟩, by simp [hok]⟩
      · rw [not_not.mp hver, ← hboth.1, ← hboth.2]
        simp
      · rw [← hboth.1]
        exact user.2
      · rw [← hboth.2]
        exact pass.2
    · exact hfalse.elim
  · rintro ⟨⟨ulen, plen, rfl, hu, hp⟩, rfl⟩
    have hok : (ctEq (asBytes auth.1) (asBytes auth.1) &&
        ctEq (asBytes auth.2) (asBytes auth.2)) = true := by
      rw [Bool.and_eq_true, ctEq_iff, ctEq_iff]
      exact ⟨rfl, rfl⟩
    refine ⟨0x01, [0x01], _, [], _, rfl, rfl, ⟨rfl, rfl⟩, .inr ⟨by simp, ?_⟩⟩
    refine ⟨ulen, [ulen], _, [], _, rfl, rfl, ⟨rfl, rfl⟩, ?_⟩
    refine ⟨⟨asBytes auth.1, hu⟩, asBytes auth.1, _, [], _, rfl, rfl, ⟨rfl, rfl⟩, ?_⟩
    refine ⟨plen, [plen], _, [], _, rfl, rfl, ⟨rfl, rfl⟩, ?_⟩
    refine ⟨⟨asBytes auth.2, hp⟩, asBytes auth.2, [], [], _, (List.append_nil _).symm, rfl,
      ⟨rfl, rfl⟩, ?_⟩
    refine ⟨(), [], [], [.wrote [0x01, 0x00]], [], rfl, rfl, ⟨rfl, ?_⟩, .inl ⟨hok, rfl, rfl, rfl⟩⟩
    simp only [List.Vector.toList, hok, if_true]

/-- A list of `n + 2` bytes is its first `n` bytes and its last two. -/
theorem eq_take_append_two {n : Nat} (v : List.Vector UInt8 (n + 2)) :
    v.toList = v.toList.take n ++ [v.get ⟨n, by omega⟩, v.get ⟨n + 1, by omega⟩] := by
  have hlen : v.toList.length = n + 2 := v.2
  have hget : ∀ i : Fin (n + 2), v.get i = v.toList.get ⟨i.1, by omega⟩ := fun i => rfl
  rw [hget, hget, List.get_eq_getElem, List.get_eq_getElem]
  conv_lhs => rw [← List.take_append_drop n v.toList]
  congr 1
  rw [List.drop_eq_getElem_cons (by omega), List.drop_eq_getElem_cons (by omega),
    List.drop_eq_nil_of_le (by omega)]

/-- The bytes of a name followed by a port, read as one buffer. -/
theorem vector_of_append {n : Nat} {l : List UInt8} (hlen : l.length = n) (hi lo : UInt8) :
    ∃ v : List.Vector UInt8 (n + 2), v.toList = l ++ [hi, lo] ∧ v.toList.take n = l ∧
      v.get ⟨n, by omega⟩ = hi ∧ v.get ⟨n + 1, by omega⟩ = lo := by
  subst hlen
  refine ⟨⟨l ++ [hi, lo], by simp⟩, rfl, by simp [List.Vector.toList], ?_, ?_⟩
  · simp [List.Vector.get]
  · simp [List.Vector.get]

theorem recognizes_readTarget_ipv4 :
    Recognizes (readTarget 0x01 : Sock τ (String × UInt16)) fun c target ev =>
      Target (0x01 :: c) target.1 target.2 ∧ ev = [] := by
  unfold readTarget
  rw [if_pos rfl]
  refine (Recognizes.bind (Recognizes.readExact _ 6) fun v => Recognizes.pure _).congr ?_
  rintro c ⟨host, port⟩ ev
  constructor
  · rintro ⟨v, c₁, c₂, ev₁, ev₂, rfl, rfl, ⟨rfl, rfl⟩, rfl, htarget, rfl⟩
    obtain ⟨rfl, rfl⟩ := Prod.mk.injEq .. ▸ htarget
    obtain ⟨l, hl⟩ := v
    match l, hl with
    | [a, b, c, d, hi, lo], _ => exact ⟨.ipv4 a b c d hi lo, rfl⟩
  · rintro ⟨h, rfl⟩
    cases h with
    | ipv4 a b c d hi lo =>
      exact ⟨⟨[a, b, c, d, hi, lo], rfl⟩, _, [], [], [], rfl, rfl, ⟨rfl, rfl⟩, rfl, rfl, rfl⟩

/-- A name and its port, once they are read, are recognized where the name is UTF-8. -/
theorem recognizes_name (len : UInt8) (v : List.Vector UInt8 (len.toNat + 2)) :
    Recognizes (match String.fromUTF8? (v.toList.take len.toNat).toByteArray with
      | none => fail (.badHost (v.toList.take len.toNat))
      | some host => pure (host, u16FromBeBytes (v.get ⟨len.toNat, port_hi_lt len⟩)
          (v.get ⟨len.toNat + 1, port_lo_lt len⟩)) : Sock τ (String × UInt16)) fun c target ev =>
      asBytes target.1 = v.toList.take len.toNat ∧
        target.2 = u16FromBeBytes (v.get ⟨len.toNat, port_hi_lt len⟩)
          (v.get ⟨len.toNat + 1, port_lo_lt len⟩) ∧ c = [] ∧ ev = [] := by
  cases hdec : String.fromUTF8? (v.toList.take len.toNat).toByteArray with
  | none =>
    refine (Recognizes.fail _).congr ?_
    intro c target ev
    simp only [false_iff, not_and]
    intro hbytes
    rw [← fromUTF8?_eq_some, hdec] at hbytes
    cases hbytes
  | some host =>
    refine (Recognizes.pure _).congr ?_
    rintro c ⟨name, port⟩ ev
    have hiff : asBytes name = v.toList.take len.toNat ↔ name = host := by
      rw [← fromUTF8?_eq_some, hdec, Option.some.injEq, eq_comm]
    simp only [Prod.mk.injEq, hiff]
    tauto

theorem recognizes_readTarget_domain :
    Recognizes (readTarget 0x03 : Sock τ (String × UInt16)) fun c target ev =>
      Target (0x03 :: c) target.1 target.2 ∧ ev = [] := by
  unfold readTarget
  rw [if_neg (by decide), if_pos rfl]
  refine (Recognizes.bind recognizes_readU8 fun len =>
    Recognizes.bind (Recognizes.readExact _ (len.toNat + 2)) fun v =>
      recognizes_name len v).congr ?_
  rintro c ⟨host, port⟩ ev
  constructor
  · rintro ⟨len, c₁, c₂, ev₁, ev₂, rfl, rfl, ⟨rfl, rfl⟩, v, c₃, c₄, ev₃, ev₄, rfl, rfl,
      ⟨rfl, rfl⟩, hhost, hport, rfl, rfl⟩
    simp only at hhost hport
    subst hport
    have hlen : (asBytes host).length = len.toNat := by
      rw [hhost, List.length_take]
      have : v.toList.length = len.toNat + 2 := v.2
      omega
    have htarget := Target.domain len host (v.get ⟨len.toNat, port_hi_lt len⟩)
      (v.get ⟨len.toNat + 1, port_lo_lt len⟩) hlen
    rw [hhost, ← eq_take_append_two] at htarget
    exact ⟨by simpa using htarget, rfl⟩
  · rintro ⟨h, rfl⟩
    cases h with
    | domain len host hi lo hlen =>
      obtain ⟨v, hv, htake, hhi, hlo⟩ := vector_of_append hlen hi lo
      refine ⟨len, [len], _, [], [], rfl, rfl, ⟨rfl, rfl⟩, v, _, [], [], [],
        (List.append_nil _).symm, rfl, ⟨hv.symm, rfl⟩, htake.symm, ?_, rfl, rfl⟩
      rw [hhi, hlo]
      rfl

theorem recognizes_readTarget_ipv6 :
    Recognizes (readTarget 0x04 : Sock τ (String × UInt16)) fun c target ev =>
      Target (0x04 :: c) target.1 target.2 ∧ ev = [] := by
  unfold readTarget
  rw [if_neg (by decide), if_neg (by decide), if_pos rfl]
  refine (Recognizes.bind (Recognizes.readExact _ 18) fun v => Recognizes.pure _).congr ?_
  rintro c ⟨host, port⟩ ev
  constructor
  · rintro ⟨v, c₁, c₂, ev₁, ev₂, rfl, rfl, ⟨rfl, rfl⟩, rfl, htarget, rfl⟩
    obtain ⟨rfl, rfl⟩ := Prod.mk.injEq .. ▸ htarget
    have hlen : (v.toList.take 16).length = 16 := by
      rw [List.length_take]
      have : v.toList.length = 18 := v.2
      omega
    have htarget := Target.ipv6 (v.toList.take 16) (v.get 16) (v.get 17) hlen
    have hsplit : v.toList = v.toList.take 16 ++ [v.get 16, v.get 17] := eq_take_append_two v
    rw [← hsplit] at htarget
    exact ⟨by simpa using htarget, rfl⟩
  · rintro ⟨h, rfl⟩
    cases h with
    | ipv6 bytes hi lo hlen =>
      obtain ⟨v, hv, htake, hhi, hlo⟩ := vector_of_append hlen hi lo
      refine ⟨v, _, [], [], [], (List.append_nil _).symm, rfl, ⟨hv.symm, rfl⟩, rfl, ?_, rfl⟩
      rw [htake]
      exact Prod.ext rfl (by rw [← hhi, ← hlo]; rfl)

theorem recognizes_readTarget (atyp : UInt8) :
    Recognizes (readTarget atyp : Sock τ (String × UInt16)) fun c target ev =>
      Target (atyp :: c) target.1 target.2 ∧ ev = [] := by
  by_cases h1 : atyp = 0x01
  · subst h1
    exact recognizes_readTarget_ipv4
  by_cases h3 : atyp = 0x03
  · subst h3
    exact recognizes_readTarget_domain
  by_cases h4 : atyp = 0x04
  · subst h4
    exact recognizes_readTarget_ipv6
  unfold readTarget
  rw [if_neg h1, if_neg h3, if_neg h4]
  refine (Recognizes.fail _).congr ?_
  rintro c ⟨host, port⟩ ev
  simp only [false_iff, not_and]
  intro h
  cases h with
  | ipv4 => exact absurd rfl h1
  | domain => exact absurd rfl h3
  | ipv6 => exact absurd rfl h4

/-- The rest of a request, once its target is read. -/
theorem recognizes_torAddr (torAddr : String → UInt16 → Option τ) (target : String × UInt16) :
    Recognizes (match target with
      | (host, port) => match torAddr host port with
        | some target => pure target
        | none => fail (.invalidTorAddr host port) : Sock τ τ) fun c t ev =>
      torAddr target.1 target.2 = some t ∧ c = [] ∧ ev = [] := by
  obtain ⟨host, port⟩ := target
  cases htor : torAddr host port with
  | none =>
    simp only [htor]
    refine (Recognizes.fail _).congr ?_
    intro c t ev
    simp
  | some t =>
    simp only [htor]
    refine (Recognizes.pure _).congr ?_
    intro c t' ev
    rw [Option.some.injEq, eq_comm (a := t')]
    tauto

theorem recognizes_socks5ReadRequest (torAddr : String → UInt16 → Option τ) :
    Recognizes (socks5ReadRequest torAddr : Sock τ τ) fun c target ev =>
      Connect torAddr c target ∧ ev = [] := by
  refine (Recognizes.bind (Recognizes.readExact _ 4) fun head => Recognizes.ite (Recognizes.fail _)
    (Recognizes.bind (recognizes_readTarget (head.get 3)) (recognizes_torAddr torAddr))).congr ?_
  intro c target ev
  constructor
  · rintro ⟨head, c₁, c₂, ev₁, ev₂, rfl, rfl, ⟨rfl, rfl⟩, hrest⟩
    rcases hrest with ⟨-, hfalse⟩ | ⟨hver, hostport, c₃, c₄, ev₃, ev₄, rfl, rfl, ⟨haddr, rfl⟩,
      htor, rfl, rfl⟩
    · exact hfalse.elim
    rw [not_or, not_not, not_not] at hver
    obtain ⟨l, hl⟩ := head
    match l, hl with
    | [ver, cmd, rsv, atyp], _ =>
      obtain ⟨rfl, rfl⟩ : ver = 0x05 ∧ cmd = 0x01 := hver
      exact ⟨⟨rsv, atyp :: c₃, hostport.1, hostport.2, by simp [List.Vector.toList], haddr, htor⟩,
        rfl⟩
  · rintro ⟨⟨rsv, addr, host, port, rfl, haddr, htor⟩, rfl⟩
    obtain ⟨atyp, c₃, rfl⟩ : ∃ atyp c₃, addr = atyp :: c₃ := by
      cases haddr <;> exact ⟨_, _, rfl⟩
    refine ⟨⟨[0x05, 0x01, rsv, atyp], rfl⟩, [0x05, 0x01, rsv, atyp], c₃, [], [], rfl, rfl,
      ⟨rfl, rfl⟩, .inr ⟨?_, (host, port), c₃, [], [], [], (List.append_nil _).symm, rfl,
        ⟨haddr, rfl⟩, htor, rfl, rfl⟩⟩
    simp [List.Vector.get]

/-- Handshake and request together: what the server reads before it dials. -/
def accept (torAddr : String → UInt16 → Option τ) (auth : String × String) : Sock τ τ := do
  socks5Handshake auth
  socks5ReadRequest torAddr

/-- **The server's input grammar.** -/
theorem recognizes_accept (torAddr : String → UInt16 → Option τ) (auth : String × String) :
    Recognizes (accept torAddr auth) fun c target ev =>
      Accepted torAddr (asBytes auth.1) (asBytes auth.2) c target ∧
        ev = [.wrote [0x05, 0x02], .wrote [0x01, 0x00]] := by
  refine (Recognizes.bind (Recognizes.bind recognizes_selectMethod fun _ =>
    recognizes_subnegotiate auth) fun _ => recognizes_socks5ReadRequest torAddr).congr ?_
  intro c target ev
  constructor
  · rintro ⟨_, c₁, c₂, ev₁, ev₂, rfl, rfl, ⟨_, c₃, c₄, ev₃, ev₄, rfl, rfl, ⟨hgreet, rfl⟩,
      hcred, rfl⟩, hconn, rfl⟩
    exact ⟨⟨c₃, c₄, c₂, rfl, hgreet, hcred, hconn⟩, rfl⟩
  · rintro ⟨⟨c₁, c₂, c₃, rfl, hgreet, hcred, hconn⟩, rfl⟩
    exact ⟨(), _, c₃, _, [], rfl, rfl, ⟨(), c₁, c₂, _, _, rfl, rfl, ⟨hgreet, rfl⟩, hcred, rfl⟩,
      hconn, rfl⟩

/-- The two-byte messages of the negotiation. -/
def Negotiation (w : SocksEvent τ) : Prop :=
  ∃ bytes : List UInt8, w = .wrote bytes ∧ bytes.length = 2

theorem performs_write (a b : UInt8) : Performs (writeAll [a, b] : Sock τ Unit) Negotiation :=
  Performs.perform ⟨[a, b], rfl, rfl⟩

theorem performs_readU8 : Performs (readU8 : Sock τ UInt8) Negotiation :=
  Performs.bind (Performs.readExact _ _ _) fun _ => Performs.pure _ _

theorem performs_selectMethod : Performs (selectMethod : Sock τ Unit) Negotiation :=
  Performs.bind (Performs.readExact _ _ _) fun _ => Performs.ite (Performs.fail _ _)
    (Performs.bind (Performs.readExact _ _ _) fun _ => Performs.ite (performs_write _ _)
      (Performs.bind (performs_write _ _) fun _ => Performs.fail _ _))

theorem performs_subnegotiate (auth : String × String) :
    Performs (subnegotiate auth : Sock τ Unit) Negotiation :=
  Performs.bind performs_readU8 fun _ => Performs.ite (Performs.fail _ _)
    (Performs.bind performs_readU8 fun _ => Performs.bind (Performs.readExact _ _ _) fun _ =>
      Performs.bind performs_readU8 fun _ => Performs.bind (Performs.readExact _ _ _) fun _ =>
      Performs.bind (performs_write _ _) fun _ =>
        Performs.ite (Performs.pure _ _) (Performs.fail _ _))

theorem performs_readTarget (atyp : UInt8) :
    Performs (readTarget atyp : Sock τ (String × UInt16)) Negotiation := by
  unfold readTarget
  refine Performs.ite (Performs.bind (Performs.readExact _ _ _) fun _ => Performs.pure _ _)
    (Performs.ite (Performs.bind performs_readU8 fun len => Performs.bind (Performs.readExact _ _ _)
      fun v => ?_) (Performs.ite (Performs.bind (Performs.readExact _ _ _) fun _ =>
        Performs.pure _ _) (Performs.fail _ _)))
  cases String.fromUTF8? (v.toList.take len.toNat).toByteArray with
  | none => exact Performs.fail _ _
  | some host => exact Performs.pure _ _

theorem performs_socks5ReadRequest (torAddr : String → UInt16 → Option τ) :
    Performs (socks5ReadRequest torAddr : Sock τ τ) Negotiation := by
  refine Performs.bind (Performs.readExact _ _ _) fun _ => Performs.ite (Performs.fail _ _)
    (Performs.bind (performs_readTarget _) ?_)
  rintro ⟨host, port⟩
  cases htor : torAddr host port with
  | none => simpa only [htor] using Performs.fail _ _
  | some t => simpa only [htor] using Performs.pure _ _

/-- Before the dial the server only writes two-byte messages. -/
theorem performs_accept (torAddr : String → UInt16 → Option τ) (auth : String × String) :
    Performs (accept torAddr auth) Negotiation :=
  Performs.bind (Performs.bind performs_selectMethod fun _ => performs_subnegotiate auth)
    fun _ => performs_socks5ReadRequest torAddr

/-- `handle_socks_conn` is the accepting part followed by the dial. -/
theorem handleSocksConn_apply (torAddr : String → UInt16 → Option τ) (connect : τ → Bool)
    (auth : String × String) (s : Channel (SocksEvent τ)) :
    handleSocksConn torAddr connect auth s = match accept torAddr auth s with
      | (.error e, s') => (.error e, s')
      | (.ok target, s') =>
        if connect target then
          (.ok (), { s' with log := s'.log ++ [.dial target, .connected target,
            .wrote successReply] })
        else (.error (.connect target), { s' with log := s'.log ++ [.dial target] }) := by
  simp only [handleSocksConn, accept, bind_apply]
  rcases socks5Handshake auth s with ⟨r | a, s₁⟩
  · rfl
  cases hreq : socks5ReadRequest torAddr s₁ with
  | mk r s₂ =>
    cases r with
    | error e => simp only [hreq]
    | ok target =>
      cases hconn : connect target <;>
        simp [hreq, hconn, bind_apply, perform, fail, writeAll]

/-- What the server makes of a stream that begins with an accepted request. -/
theorem serveStream_of_accepted (torAddr : String → UInt16 → Option τ) (connect : τ → Bool)
    (auth : String × String) {stream req rest : List UInt8} {target : τ}
    (hstream : stream = req ++ rest)
    (hacc : Accepted torAddr (asBytes auth.1) (asBytes auth.2) req target) :
    (serveStream torAddr connect auth stream).input = rest ∧
      (serveStream torAddr connect auth stream).log =
        [.wrote [0x05, 0x02], .wrote [0x01, 0x00], .dial target] ++
          if connect target then [.connected target, .wrote successReply] else [] := by
  have hrun : accept torAddr auth ⟨stream, []⟩ =
      (.ok target, ⟨rest, [.wrote [0x05, 0x02], .wrote [0x01, 0x00]]⟩) :=
    (recognizes_accept torAddr auth _ _ _).mpr ⟨req, _, hstream, rfl, hacc, rfl⟩
  rw [serveStream, handleSocksConn_apply, hrun]
  cases hconn : connect target <;> simp [hconn]

/-- Of any other stream it makes the negotiation and nothing more. -/
theorem serveStream_of_not_accepted (torAddr : String → UInt16 → Option τ) (connect : τ → Bool)
    (auth : String × String) {stream : List UInt8}
    (hno : ¬ ∃ req rest target, stream = req ++ rest ∧
      Accepted torAddr (asBytes auth.1) (asBytes auth.2) req target) :
    ∀ w ∈ (serveStream torAddr connect auth stream).log, Negotiation w := by
  obtain ⟨ev, hlog, hev⟩ := performs_accept torAddr auth ⟨stream, []⟩
  rw [serveStream, handleSocksConn_apply]
  cases hrun : accept torAddr auth ⟨stream, []⟩ with
  | mk r s' =>
    cases r with
    | error e =>
      rw [hrun] at hlog
      simp only [List.nil_append] at hlog
      simpa only [hlog] using hev
    | ok target =>
      obtain ⟨c, _, hin, -, hacc, -⟩ := (recognizes_accept torAddr auth _ _ _).mp hrun
      exact absurd ⟨c, s'.input, target, hin, hacc⟩ hno

/-- In the log of an accepted request the reply stands behind the dial it answers. -/
theorem dial_before_reply {target : τ} {connected : Bool} {l₁ l₂ : List (SocksEvent τ)}
    (h : [.wrote [0x05, 0x02], .wrote [0x01, 0x00], .dial target] ++
        (if connected then [.connected target, .wrote successReply] else []) =
      l₁ ++ .wrote successReply :: l₂) :
    .dial target ∈ l₁ ∧ .connected target ∈ l₁ := by
  rcases l₁ with _ | ⟨x, _ | ⟨y, _ | ⟨z, _ | ⟨u, l⟩⟩⟩⟩ <;>
    cases connected <;> simp [successReply] at h
  obtain ⟨-, -, rfl, rfl, -⟩ := h
  simp

/-- **The SOCKS5 server accepts exactly its grammar.** For every byte stream: the server dials a
target exactly when the stream begins with a greeting, the configured credentials and a CONNECT
request for that target; it has then read exactly that beginning, so the pump starts at the rest of
the stream; and the success reply is written only after the dial succeeded. -/
theorem handle_socks_conn_dials_iff_accepted (torAddr : String → UInt16 → Option τ)
    (connect : τ → Bool) (auth : String × String) (stream : List UInt8) :
    (∀ target, .dial target ∈ (serveStream torAddr connect auth stream).log ↔
      ∃ req rest, stream = req ++ rest ∧
        Accepted torAddr (asBytes auth.1) (asBytes auth.2) req target) ∧
    (∀ req rest target, stream = req ++ rest →
      Accepted torAddr (asBytes auth.1) (asBytes auth.2) req target →
      (serveStream torAddr connect auth stream).input = rest ∧
      (serveStream torAddr connect auth stream).log =
        [.wrote [0x05, 0x02], .wrote [0x01, 0x00], .dial target] ++
          if connect target then [.connected target, .wrote successReply] else []) ∧
    (∀ l₁ l₂, (serveStream torAddr connect auth stream).log = l₁ ++ .wrote successReply :: l₂ →
      ∃ target, .dial target ∈ l₁ ∧ .connected target ∈ l₁) := by
  have haccepted : ∀ req rest target, stream = req ++ rest →
      Accepted torAddr (asBytes auth.1) (asBytes auth.2) req target →
      (serveStream torAddr connect auth stream).input = rest ∧
      (serveStream torAddr connect auth stream).log =
        [.wrote [0x05, 0x02], .wrote [0x01, 0x00], .dial target] ++
          if connect target then [.connected target, .wrote successReply] else [] :=
    fun _ _ _ => serveStream_of_accepted torAddr connect auth
  by_cases hsome : ∃ req rest target, stream = req ++ rest ∧
      Accepted torAddr (asBytes auth.1) (asBytes auth.2) req target
  · obtain ⟨req, rest, target, hstream, hacc⟩ := hsome
    obtain ⟨-, hlog⟩ := haccepted req rest target hstream hacc
    refine ⟨fun t => ⟨fun hdial => ?_, ?_⟩, haccepted, fun l₁ l₂ hsplit => ?_⟩
    · rw [hlog] at hdial
      have ht : t = target := by
        cases hconn : connect target <;> simpa [hconn] using hdial
      exact ⟨req, rest, hstream, ht ▸ hacc⟩
    · rintro ⟨req', rest', hstream', hacc'⟩
      rw [(haccepted req' rest' t hstream' hacc').2]
      simp
    · rw [hlog] at hsplit
      exact ⟨target, dial_before_reply hsplit⟩
  · have hneg := serveStream_of_not_accepted torAddr connect auth hsome
    refine ⟨fun t => ⟨fun hdial => ?_, ?_⟩, haccepted, fun l₁ l₂ hsplit => ?_⟩
    · obtain ⟨bytes, hbytes, -⟩ := hneg _ hdial
      cases hbytes
    · rintro ⟨req, rest, hstream, hacc⟩
      exact absurd ⟨req, rest, t, hstream, hacc⟩ hsome
    · obtain ⟨bytes, hbytes, hlen⟩ := hneg (.wrote successReply) (by rw [hsplit]; simp)
      cases hbytes
      simp [successReply] at hlen

end FfVpn.Analysis.SocksGrammar
