import FfVpn.Analysis.ImportStart
import FfVpn.Analysis.IntentDelivery
import FfVpn.Analysis.LeafText

/-!
# From the user's choice to the route

A configuration crosses five texts between the state of the app and the router of Leaf #2: the JSON
of `toJson`, the extra of the intent, the JSON of `startTunnel` with the exit country, the core's
own configuration, and the text of `main_engine_config`. Here the crossings are put together, over
any run of the app: the intent that reaches the service, and what the core makes of it.
-/

set_option autoImplicit false

namespace FfVpn.Analysis.StartedRoute

open FfVpn.Library.Transition FfVpn.Library.Utf16 FfVpn.Library.Json FfVpn.Model
  FfVpn.Model.Service FfVpn.Model.Controller FfVpn.Model.Hops FfVpn.Model.LeafText
  FfVpn.Analysis.LastIntent FfVpn.Analysis.IntentDelivery FfVpn.Analysis.ConfigAgreement
  FfVpn.Analysis.ImportStart FfVpn.Analysis.LeafText

/-- `jsonEncode(cfg.toJson())`: it writes no lone surrogate, so that it is a text. -/
def encodeConfig (c : ConfigService.AppConfig) : String :=
  (toString? (ConfigService.jsonEncode c.toJson)).getD ""

theorem utf16_encodeConfig (c : ConfigService.AppConfig) :
    utf16 (encodeConfig c) = ConfigService.jsonEncode c.toJson := by
  obtain ⟨text, htext⟩ := wellFormed_jsonEncode c
  rw [encodeConfig, ← htext, toString?_utf16]
  rfl

/-- What `startTunnel` and `NativeBridge.start` make of the extras of an intent. -/
def startedConfig (channel : Units → Units) (jni : Units → Option String) (extras : StartExtras) :
    Option Config.AppConfig := do
  let configJson ← extras.config
  let text ← StartConfig.startText (channel (utf16 configJson))
    (extras.exitCountry.map fun code => channel (utf16 code))
  Config.AppConfig.fromStr (← jni text)

/-- The extras of an intent hold the configuration they were written from. -/
theorem startedConfig_connectArgs (channel : Units → Units) (jni : Units → Option String)
    (ui : VpnState ConfigService.AppConfig) (c : ConfigService.AppConfig) :
    startedConfig channel jni (connectArgs ui (encodeConfig c)) =
      StartConfig.nativeConfig channel jni c ui.exitCountry := by
  simp only [startedConfig, connectArgs, StartConfig.nativeConfig, utf16_encodeConfig,
    Option.bind_eq_bind, Option.bind_some]

/-- The start intent of a `connect()` was written from a configuration and a state. -/
theorem exists_chosen {init : App ConfigService.AppConfig}
    {as : List (AppAct ConfigService.AppConfig)} {i : Nat} {args : StartExtras}
    (h : Chosen encodeConfig init as i args) :
    ∃ c, TookIn (App.step encodeConfig) init as (.connect i) (fun m => m.ui.config = some c) ∧
      TookIn (App.step encodeConfig) init as (.resume i) fun m =>
        GoesOn encodeConfig i args m ∧ args = connectArgs m.ui (encodeConfig c) := by
  obtain ⟨config, ⟨before, after, m, has, hrun, hconfig⟩, hresume⟩ := h
  obtain ⟨c, hc, rfl⟩ := Option.map_eq_some_iff.mp hconfig
  exact ⟨c, ⟨before, after, m, has, hrun, hc⟩, hresume⟩

/-- **What the user has chosen is where the traffic goes.** In every run of the app, let a start
intent have been sent for a `connect()`. It carries the configuration that the state had when the
call was made, with the country and the lists that it had when the call went on to
`channel.connect`. If the core can start with that configuration at all, then it starts with its
fields and that country, a blank one dropped, and Leaf #2 sends every address over the configured
hops and over nothing else. -/
theorem started_route {channel : Units → Units} {jni : Units → Option String}
    (hchannel : ∀ s : String, channel (utf16 s) = utf16 s)
    (hjni : ∀ s : String, jni (utf16 s) = some s) (ui : VpnState ConfigService.AppConfig)
    (as : List (AppAct ConfigService.AppConfig)) (s : App ConfigService.AppConfig)
    (hrun : run (App.step encodeConfig) { ui := ui } as = some s) (i : Nat) (args : StartExtras)
    (hsent : (.connect i, .start args) ∈ sent encodeConfig { ui := ui } as) :
    ∃ c country,
      TookIn (App.step encodeConfig) { ui := ui } as (.connect i)
        (fun m => m.ui.config = some c) ∧
      TookIn (App.step encodeConfig) { ui := ui } as (.resume i)
        (fun m => GoesOn encodeConfig i args m ∧ m.ui.exitCountry = country ∧
          args = connectArgs m.ui (encodeConfig c)) ∧
      (Startable c → ∃ r, startedConfig channel jni args = some r ∧ SameFields c r ∧
        r.user.exitCountry = chosenCountry country ∧
        ∀ ctx artiSocks, IpText.WellFormed ctx.tunAddr → IpText.WellFormed artiSocks.addr.ip →
          ∃ config, readEngineConfig (mainEngineConfig r ctx artiSocks) = some config ∧
            ∀ fuel ip, config.route (fuel + 3) ip = some (configuredHops r artiSocks)) := by
  obtain ⟨args', hargs, hchosen⟩ := (deliveryInv_of_run hrun).starts i _ hsent
  obtain rfl : args = args' := Intent.start.inj hargs
  obtain ⟨c, hconnect, before, after, m, has, hm, hgoes, hwritten⟩ := exists_chosen hchosen
  refine ⟨c, m.ui.exitCountry, hconnect, ⟨before, after, m, has, hm, hgoes, rfl, hwritten⟩,
    fun hstart => ?_⟩
  obtain ⟨r, hr, hsame, hcountry⟩ := exists_config_of_startable hstart m.ui.exitCountry
  refine ⟨r, ?_, hsame, hcountry, fun ctx artiSocks htun hsocks => ?_⟩
  · rw [hwritten, startedConfig_connectArgs, nativeConfig_eq hchannel hjni hstart.strings, hr]
  · exact ⟨_, read_mainEngineConfig r htun hsocks, route_engineConfig r ctx artiSocks⟩

theorem startable_upstream : Startable (upstreamConfig none) :=
  ⟨by decide, by simp [upstreamConfig], wellFormedStrings_upstream (by simp)⟩

/-- The user picks a country while the permission is asked for. -/
def picksCountry : List (AppAct ConfigService.AppConfig) :=
  [.permit true, .connect 0, .control 0 none, .setCountry (some "DE"), .resume 0, .control 0 none]

theorem picksCountry_connect {before after : List (AppAct ConfigService.AppConfig)}
    (h : picksCountry = before ++ .connect 0 :: after) : before = [.permit true] := by
  have hsplit : [.permit true] ++ .connect 0 :: picksCountry.drop 2 =
      before ++ .connect 0 :: after := h
  exact ((List.append_cons_inj_of_notMem (by simp) (by simp [picksCountry])).mp hsplit).1.symm

/-- Over a channel and a JNI call that carry well-formed strings unchanged. -/
theorem started_route_picksCountry :
    ∃ args, (.connect 0, .start args) ∈
        sent encodeConfig { ui := { config := some (upstreamConfig none) } } picksCountry ∧
      ∃ r, startedConfig id toString? args = some r ∧ SameFields (upstreamConfig none) r := by
  obtain ⟨s, args, hrun, hsent⟩ : ∃ s args,
      run (App.step encodeConfig) { ui := { config := some (upstreamConfig none) } } picksCountry =
        some s ∧
      (.connect 0, .start args) ∈
        sent encodeConfig { ui := { config := some (upstreamConfig none) } } picksCountry :=
    ⟨_, _, rfl, List.mem_singleton_self _⟩
  have hid : ∀ t : String, id (utf16 t) = utf16 t := fun _ => rfl
  obtain ⟨c, country, ⟨before, after, m, has, hm, hconfig⟩, -, hstarts⟩ :=
    started_route hid toString?_utf16 _ _ s hrun 0 args hsent
  obtain rfl := picksCountry_connect has
  obtain rfl := Option.some.inj hm
  obtain rfl := Option.some.inj hconfig
  obtain ⟨r, hr, hsame, -⟩ := hstarts startable_upstream
  exact ⟨args, hsent, r, hr, hsame⟩

end FfVpn.Analysis.StartedRoute
