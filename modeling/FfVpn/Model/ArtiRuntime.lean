import FfVpn.Model.Config
import FfVpn.Model.SocksConn

/-!
# `arti_runtime.rs`: the Arti task

`run` bootstraps the Tor client, sets the exit country on it, binds the SOCKS listener and accepts
until the session's token is cancelled; `spawn_arti` cancels the token when `run` has returned. Each
connection gets a clone of the client, with the preferences that the client has at that time, and
goes on by itself. `countryCode` is `str::parse::<tor_geoip::CountryCode>`, of an external crate.
-/

set_option autoImplicit false

namespace FfVpn.Model.ArtiRuntime

open FfVpn.Model.SocksConn

variable {τ γ : Type}

/-- The exit country of the client's `StreamPrefs`. A code that is none is ignored. -/
def streamPrefs (countryCode : String → Option γ) (cfg : Config.AppConfig) : Option γ :=
  cfg.user.exitCountry.bind countryCode

/-- Where `run` is; `client` is the exit country of its client. -/
inductive Phase (γ : Type)
  /-- The directories, the configuration and the bootstrap. -/
  | bootstrapping
  | binding (client : Option γ)
  | listening (client : Option γ)
  /-- Before the `cancel.cancel()` of `spawn_arti`. -/
  | returned
  | ended

/-- A task of `handle_socks_conn`, and its clone of the client. -/
structure Handler (τ γ : Type) where
  client : Option γ
  conn : Connection τ

/-- The Arti task and the tasks it has spawned. -/
structure Arti (τ γ : Type) where
  phase : Phase γ := .bootstrapping
  cancelled : Bool := false
  handlers : List (Handler τ γ) := []

/-- What can happen. -/
inductive ArtiAct
  | bootstrap (ok : Bool)
  | bind (ok : Bool)
  | accept (ok : Bool)
  /-- Somebody cancels the token. -/
  | cancel
  /-- The loop takes its branch for the token. -/
  | seeCancel
  | exit
  | handler (i : Nat) (act : ConnAct)

/-- A handler sees the token. -/
def seesCancel : ConnAct → Bool
  | .cancel => true
  | _ => false

/-- One step, for a configuration and the username and password of the endpoint. -/
def Arti.step (countryCode : String → Option γ) (torAddr : String → UInt16 → Option τ)
    (cfg : Config.AppConfig) (auth : String × String) (s : Arti τ γ) :
    ArtiAct → Option (Arti τ γ)
  | .bootstrap ok =>
    match s.phase with
    | .bootstrapping =>
      some { s with phase := if ok then .binding (streamPrefs countryCode cfg) else .returned }
    | _ => none
  | .bind ok =>
    match s.phase with
    | .binding client => some { s with phase := if ok then .listening client else .returned }
    | _ => none
  | .accept ok =>
    match s.phase with
    | .listening client =>
      some { s with handlers := if ok then s.handlers ++ [⟨client, {}⟩] else s.handlers }
    | _ => none
  | .cancel => some { s with cancelled := true }
  | .seeCancel =>
    match s.phase with
    | .listening _ => if s.cancelled then some { s with phase := .returned } else none
    | _ => none
  | .exit =>
    match s.phase with
    | .returned => some { s with phase := .ended, cancelled := true }
    | _ => none
  | .handler i act =>
    if seesCancel act && !s.cancelled then none
    else s.handlers[i]?.bind fun h =>
      (h.conn.step torAddr auth act).map fun conn =>
        { s with handlers := s.handlers.set i { h with conn := conn } }

end FfVpn.Model.ArtiRuntime
