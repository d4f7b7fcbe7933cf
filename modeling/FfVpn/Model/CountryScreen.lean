import FfVpn.Model.Controller

/-!
# The exit country screen

`country_screen.dart`: the list of codes, the empty one for any country, and what a tap on one of
its tiles sets.
-/

set_option autoImplicit false

namespace FfVpn.Model.CountryScreen

open FfVpn.Model.Controller

/-- The codes of `_countries`. -/
def countries : List String :=
  ["", "AT", "CH", "CZ", "DE", "ES", "FI", "FR", "GB", "IE", "IS", "JP", "NL", "NO", "PL", "SE",
    "SG", "US"]

/-- The country that `onChanged` sets. -/
def onChanged (v : Option String) : Option String :=
  match v with
  | none => none
  | some code => if code.isEmpty then none else some code

/-- A tap on the tile of a code. -/
def tap {κ : Type} (code : String) : AppAct κ := .setCountry (onChanged (some code))

end FfVpn.Model.CountryScreen
