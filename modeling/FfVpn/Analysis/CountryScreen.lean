import FfVpn.Analysis.ArtiStreams
import FfVpn.Analysis.PacketTunnel
import FfVpn.Model.CountryScreen

/-!
# The picked country is the country of the exit

The two platforms differ on blank countries only, and the core ignores texts that are no codes; the
screen sets neither. Where countries are picked on it, the country that the user has picked is that
of every stream that Arti opens, on either platform (`picked_country_streams`).
-/

set_option autoImplicit false

namespace FfVpn.Analysis.CountryScreen

open FfVpn.Library.Transition FfVpn.Library.Utf16 FfVpn.Model FfVpn.Model.Service
  FfVpn.Model.StartConfig FfVpn.Model.Controller FfVpn.Model.CountryScreen FfVpn.Model.PacketTunnel
  FfVpn.Model.ArtiRuntime FfVpn.Analysis.LastIntent FfVpn.Analysis.IntentDelivery
  FfVpn.Analysis.ConfigAgreement FfVpn.Analysis.ImportStart FfVpn.Analysis.StartedRoute
  FfVpn.Analysis.PacketTunnel FfVpn.Analysis.SocksTranscript FfVpn.Analysis.ArtiStreams

variable {κ : Type} {encode : κ → String}

/-! ## What the screen sets -/

/-- Countries are set by taps only. -/
def FromScreen (a : AppAct κ) : Prop := ∀ v, a = .setCountry v → ∃ code ∈ countries, a = tap code

/-- The countries that taps set. -/
def choices : List (Option String) := countries.map fun code => onChanged (some code)

/-- A choice is no country or one that is not blank. -/
theorem choices_not_blank :
    ∀ v ∈ choices, ∀ code ∈ v, ¬ isNullOrBlank (some (utf16 code)) = true := by
  decide

/-- A choice is no country or a code of two capitals. -/
theorem choices_capitals : choices.all (fun v => v.all fun code =>
    code.toList.length == 2 && code.toList.all Char.isUpper) = true := by
  decide

/-- A country changes with `setCountry` only. -/
theorem exitCountry_step {s s' : App κ} {a : AppAct κ} (h : s.step encode a = some s') :
    s'.ui.exitCountry = s.ui.exitCountry ∨ a = .setCountry s'.ui.exitCountry := by
  cases a with
  | setCountry code =>
    obtain rfl := Option.some.inj h
    exact .inr rfl
  | deliver =>
    simp only [App.step] at h
    split at h
    · cases h
    · next event rest _ =>
      obtain rfl := Option.some.inj h
      left
      cases event <;> simp only [VpnState.onEvent]
  | _ =>
    left
    simp only [App.step] at h
    repeat' split at h
    all_goals cases h
    all_goals rfl

theorem exitCountry_choices {s s' : App κ} {as : List (AppAct κ)} (hscreen : ∀ a ∈ as, FromScreen a)
    (hs : s.ui.exitCountry ∈ choices) (hrun : run (App.step encode) s as = some s') :
    s'.ui.exitCountry ∈ choices := by
  induction as generalizing s with
  | nil =>
    obtain rfl : s = s' := by simpa using hrun
    exact hs
  | cons a as ih =>
    obtain ⟨m, hm, hrest⟩ := run_cons_eq_some.mp hrun
    obtain ⟨ha, has⟩ := List.forall_mem_cons.mp hscreen
    refine ih has ?_ hrest
    rcases exitCountry_step hm with hsame | hset
    · rw [hsame]
      exact hs
    · obtain ⟨code, hcode, htap⟩ := ha _ hset
      have hpicked : m.ui.exitCountry = onChanged (some code) :=
        AppAct.setCountry.inj (hset.symm.trans htap)
      rw [hpicked]
      exact List.mem_map.mpr ⟨code, hcode, rfl⟩

/-! ## What the core reads -/

/-- Nothing is dropped of a choice, on either platform. -/
theorem country_of_choice {v : Option String} (hv : v ∈ choices) :
    chosenCountry v = v ∧ iosCountry v = v := by
  have hblank := choices_not_blank v hv
  have hchosen : chosenCountry v = v := by
    cases v with
    | none => rfl
    | some code =>
      rw [chosenCountry, Option.map_some, if_neg (hblank code rfl)]
  refine ⟨hchosen, ?_⟩
  rw [← (chosenCountry_eq_iff v).mpr fun code hcode h => absurd h (hblank code hcode)]
  exact hchosen

/-- Capital codes are codes to `tor_geoip`. -/
theorem isSome_countryCode {γ : Type} {countryCode : String → Option γ}
    (hcode : ∀ a b : Char, a.isUpper = true → b.isUpper = true →
      (countryCode (String.ofList [a, b])).isSome = true)
    {v : Option String} (hv : v ∈ choices) : (v.bind countryCode).isSome = v.isSome := by
  cases v with
  | none => rfl
  | some code =>
    have hcapitals := List.all_eq_true.mp choices_capitals _ hv
    simp only [Option.all_some, Bool.and_eq_true, beq_iff_eq, List.all_eq_true] at hcapitals
    obtain ⟨hlen, hupper⟩ := hcapitals
    obtain ⟨a, b, hab⟩ := List.length_eq_two.mp hlen
    rw [hab] at hupper
    have hsome := hcode a b (hupper a (by simp)) (hupper b (by simp))
    rw [← hab, String.ofList_toList] at hsome
    exact hsome

/-- **The picked country is the country of the exit.** Where countries are picked on the screen, in
every run of the app: a start intent carries the configuration that the state had when its
`connect()` was called, and the country it had when the call went on to `channel.connect`; both
platforms, given what the intent carries, start the core with one and the same `AppConfig`, that
configuration with that country; and in every run of the Arti task with it, every handler has a
client with this exit country, one of the codes that Tor knows if one was picked, and dials only
what its client has requested with the endpoint's credentials. -/
theorem picked_country_streams {τ γ : Type} {channel : Units → Units}
    {jni : Units → Option String} {j : Serialization} {countryCode : String → Option γ}
    (hchannel : ∀ s : String, channel (utf16 s) = utf16 s)
    (hjni : ∀ s : String, jni (utf16 s) = some s) (hj : j.Documented)
    (hcode : ∀ a b : Char, a.isUpper = true → b.isUpper = true →
      (countryCode (String.ofList [a, b])).isSome = true)
    (torAddr : String → UInt16 → Option τ)
    (ui : VpnState ConfigService.AppConfig) (hui : ui.exitCountry ∈ choices)
    (as : List (AppAct ConfigService.AppConfig)) (hscreen : ∀ a ∈ as, FromScreen a)
    (s : App ConfigService.AppConfig)
    (hrun : run (App.step encodeConfig) { ui := ui } as = some s) (i : Nat) (args : StartExtras)
    (hsent : (.connect i, .start args) ∈ sent encodeConfig { ui := ui } as) :
    ∃ c country,
      TookIn (App.step encodeConfig) { ui := ui } as (.connect i)
        (fun m => m.ui.config = some c) ∧
      TookIn (App.step encodeConfig) { ui := ui } as (.resume i)
        (fun m => GoesOn encodeConfig i args m ∧ m.ui.exitCountry = country ∧
          args = connectArgs m.ui (encodeConfig c)) ∧
      (country.bind countryCode).isSome = country.isSome ∧
      (Startable c → ∃ r, startedConfig channel jni args = some r ∧
        startedOnIos j (encodeConfig c) args.exitCountry = some r ∧ SameFields c r ∧
        r.user.exitCountry = country ∧
        ∀ auth acts, AllStates (Arti.step countryCode torAddr r auth)
          (fun t => ∀ h ∈ t.handlers, h.client = country.bind countryCode ∧
            ∀ target, .dial target ∈ h.conn.log →
              ∃ rest, Requested torAddr auth h.conn target rest) {} acts) := by
  obtain ⟨args', hargs, hchosen⟩ := (deliveryInv_of_run hrun).starts i _ hsent
  obtain rfl : args = args' := Intent.start.inj hargs
  obtain ⟨c, hconnect, before, after, m, has, hm, hgoes, hwritten⟩ := exists_chosen hchosen
  have hbefore : ∀ a ∈ before, FromScreen a :=
    fun a ha => hscreen a (has ▸ List.mem_append_left _ ha)
  have hchoice : m.ui.exitCountry ∈ choices := exitCountry_choices hbefore hui hm
  obtain ⟨hkept, hios⟩ := country_of_choice hchoice
  refine ⟨c, m.ui.exitCountry, hconnect, ⟨before, after, m, has, hm, hgoes, rfl, hwritten⟩,
    isSome_countryCode hcode hchoice, fun hstart => ?_⟩
  subst hwritten
  obtain ⟨r, hr, hsame, -⟩ := exists_config_of_startable hstart none
  have hbase : Config.AppConfig.decode (.obj (configMembers c)) = some r := by
    simpa [userMembers, isNullOrBlank] using hr
  refine ⟨{ r with user := { exitCountry := m.ui.exitCountry } }, ?_, ?_, { hsame with }, rfl,
    fun auth acts => ?_⟩
  · rw [startedConfig_connectArgs, nativeConfig_eq hchannel hjni hstart.strings,
      decode_userMembers hbase, hkept]
  · change startedOnIos j (encodeConfig c) m.ui.exitCountry = _
    rw [startedOnIos_eq hj hstart hbase, hios]
  · refine (artiInv_run acts).mono fun t ht h hmem => ?_
    obtain ⟨hclient, hinv⟩ := ht.handlers h hmem
    exact ⟨hclient, fun target hdial => requested_of_dial hinv hdial⟩

theorem fromScreen_picksCountry : ∀ a ∈ picksCountry, FromScreen a := by
  intro a ha v hset
  subst hset
  have hv : v = some "DE" := by simpa [picksCountry] using ha
  subst hv
  exact ⟨"DE", by decide, rfl⟩

theorem picksCountry_resume {before after : List (AppAct ConfigService.AppConfig)}
    (h : picksCountry = before ++ .resume 0 :: after) : before = picksCountry.take 4 := by
  have hsplit : picksCountry.take 4 ++ .resume 0 :: picksCountry.drop 5 =
      before ++ .resume 0 :: after := h
  have hfirst : AppAct.resume 0 ∉ picksCountry.take 4 := by simp [picksCountry]
  have hlast : AppAct.resume 0 ∉ picksCountry.drop 5 := by simp [picksCountry]
  exact ((List.append_cons_inj_of_notMem hfirst hlast).mp hsplit).1.symm

/-- Germany is picked, and a handler is asked for a stream. -/
def oneStream : List ArtiAct :=
  [.bootstrap true, .bind true, .accept true, .handler 0 (.send [0x05, 0x01, 0x02]),
    .handler 0 (.negotiate 3)]

/-- Its exit is in Germany. -/
theorem picked_country_streams_germany :
    ∃ args, (.connect 0, .start args) ∈
        sent encodeConfig { ui := { config := some (upstreamConfig none) } } picksCountry ∧
      ∃ r t, startedConfig id toString? args = some r ∧
        run (Arti.step some (fun host port => some (host, port)) r ("a", "b")) {} oneStream =
          some t ∧ t.handlers.length = 1 ∧ ∀ h ∈ t.handlers, h.client = some "DE" := by
  obtain ⟨s, args, hrun, hsent⟩ : ∃ s args,
      run (App.step encodeConfig) { ui := { config := some (upstreamConfig none) } } picksCountry =
        some s ∧
      (.connect 0, .start args) ∈
        sent encodeConfig { ui := { config := some (upstreamConfig none) } } picksCountry :=
    ⟨_, _, rfl, List.mem_singleton_self _⟩
  have hid : ∀ t : String, id (utf16 t) = utf16 t := fun _ => rfl
  obtain ⟨c, country, ⟨before, after, m, has, hm, hconfig⟩,
      ⟨before', after', m', has', hm', -, hcountry, -⟩, -, hstarts⟩ :=
    @picked_country_streams _ _ id toString? inOrder some hid toString?_utf16 documented_inOrder
      (fun _ _ _ _ => rfl) (fun host port => some (host, port)) _ (by decide) _
      fromScreen_picksCountry s hrun 0 args hsent
  obtain rfl := picksCountry_connect has
  obtain rfl := Option.some.inj hm
  obtain rfl := Option.some.inj hconfig
  obtain rfl := picksCountry_resume has'
  obtain rfl := Option.some.inj hm'
  obtain rfl : country = some "DE" := hcountry.symm
  obtain ⟨r, hr, -, -, -, hstreams⟩ := hstarts startable_upstream
  obtain ⟨t, ht, hlen⟩ : ∃ t,
      run (Arti.step some (fun host port => some (host, port)) r ("a", "b")) {} oneStream =
        some t ∧ t.handlers.length = 1 := ⟨_, rfl, rfl⟩
  exact ⟨args, hsent, r, t, hr, ht, hlen,
    fun h hmem => ((hstreams ("a", "b") oneStream).last ht h hmem).1⟩

end FfVpn.Analysis.CountryScreen
