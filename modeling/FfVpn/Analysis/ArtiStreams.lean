import FfVpn.Analysis.SocksTranscript
import FfVpn.Model.ArtiRuntime

/-!
# The streams of the Arti task

However many connections are accepted, and in whatever order they and the task go on: each handler
has a client with the exit country of the configuration, and dials what its own client has requested
with the endpoint's credentials (`artiInv_run`, `requested_of_dial`).
-/

set_option autoImplicit false

namespace FfVpn.Analysis.ArtiStreams

open FfVpn.Library.Transition FfVpn.Model FfVpn.Model.Socks FfVpn.Model.SocksConn
  FfVpn.Model.ArtiRuntime FfVpn.Analysis.SocksTranscript

variable {τ γ : Type}

/-- A dial was requested. -/
theorem requested_of_dial {torAddr : String → UInt16 → Option τ} {auth : String × String}
    {c : Connection τ} (h : ConnInv torAddr auth c) {target : τ} (hdial : .dial target ∈ c.log) :
    ∃ rest, Requested torAddr auth c target rest := by
  have hundialed : ¬ Undialed torAddr auth c := by
    intro hundialed
    have hnone := (negotiation_of_negotiate torAddr auth ⟨c.sent.take c.seen, []⟩ rfl).2 target
    rw [← hundialed.log] at hnone
    exact hnone hdial
  unfold ConnInv at h
  split at h
  · exact absurd h hundialed
  · obtain ⟨hreq, hlog⟩ := h
    obtain rfl : target = _ := by simpa [hlog, dialLog] using hdial
    exact ⟨_, hreq⟩
  · obtain ⟨hreq, hlog, -⟩ := h
    obtain rfl : target = _ := by simpa [hlog, dialLog] using hdial
    exact ⟨_, hreq⟩
  · rcases h with h | ⟨target', rest, hreq, hlog⟩
    · exact absurd h hundialed
    · obtain rfl : target = target' := by
        rcases hlog with hlog | hlog <;> simpa [hlog, dialLog] using hdial
      exact ⟨rest, hreq⟩

variable (countryCode : String → Option γ) (torAddr : String → UInt16 → Option τ)
  (cfg : Config.AppConfig) (auth : String × String)

/-- The client of the task, once it has one. -/
def clientOf : Phase γ → Option (Option γ)
  | .binding client | .listening client => some client
  | _ => none

structure ArtiInv (s : Arti τ γ) : Prop where
  client : ∀ client ∈ clientOf s.phase, client = streamPrefs countryCode cfg
  handlers : ∀ h ∈ s.handlers, h.client = streamPrefs countryCode cfg ∧ ConnInv torAddr auth h.conn

variable {countryCode torAddr cfg auth}

theorem ArtiInv.step {s s' : Arti τ γ} {a : ArtiAct} (h : ArtiInv countryCode torAddr cfg auth s)
    (hs : s.step countryCode torAddr cfg auth a = some s') :
    ArtiInv countryCode torAddr cfg auth s' := by
  cases a with
  | cancel =>
    obtain rfl := Option.some.inj hs
    exact ⟨h.client, h.handlers⟩
  | bootstrap ok =>
    simp only [Arti.step] at hs
    split at hs
    · obtain rfl := Option.some.inj hs
      refine ⟨?_, h.handlers⟩
      cases ok <;> simp [clientOf]
    · cases hs
  | bind ok =>
    simp only [Arti.step] at hs
    split at hs
    · next client hphase =>
      obtain rfl := Option.some.inj hs
      refine ⟨?_, h.handlers⟩
      have hclient := h.client client (by simp [hphase, clientOf])
      cases ok <;> simp [clientOf, hclient]
    · cases hs
  | accept ok =>
    simp only [Arti.step] at hs
    split at hs
    · next client hphase =>
      obtain rfl := Option.some.inj hs
      refine ⟨h.client, ?_⟩
      have hclient := h.client client (by simp [hphase, clientOf])
      cases ok with
      | false => exact h.handlers
      | true =>
        intro handler hmem
        rcases List.mem_append.mp hmem with hmem | hmem
        · exact h.handlers handler hmem
        · obtain rfl := List.mem_singleton.mp hmem
          exact ⟨hclient, Nat.le_refl 0, rfl⟩
    · cases hs
  | seeCancel =>
    simp only [Arti.step] at hs
    split at hs
    · simp only [Option.ite_none_right_eq_some, Option.some.injEq] at hs
      obtain ⟨-, rfl⟩ := hs
      exact ⟨by simp [clientOf], h.handlers⟩
    · cases hs
  | exit =>
    simp only [Arti.step] at hs
    split at hs
    · obtain rfl := Option.some.inj hs
      exact ⟨by simp [clientOf], h.handlers⟩
    · cases hs
  | handler i act =>
    simp only [Arti.step, Option.ite_none_left_eq_some, Option.bind_eq_some_iff,
      Option.map_eq_some_iff] at hs
    obtain ⟨-, handler, hi, conn, hconn, rfl⟩ := hs
    refine ⟨h.client, fun handler' hmem => ?_⟩
    obtain ⟨hclient, hinv⟩ := h.handlers handler (List.mem_of_getElem? hi)
    rcases List.mem_or_eq_of_mem_set hmem with hmem | rfl
    · exact h.handlers handler' hmem
    · exact ⟨hclient, hinv.step hconn⟩

theorem artiInv_run (acts : List ArtiAct) :
    AllStates (Arti.step countryCode torAddr cfg auth) (ArtiInv countryCode torAddr cfg auth) {}
      acts :=
  AllStates.of_invariant (fun _ _ _ h hs => h.step hs) acts ⟨by simp [clientOf], by simp⟩

end FfVpn.Analysis.ArtiStreams
