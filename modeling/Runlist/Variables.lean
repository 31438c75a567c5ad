import Runlist.Json.Basic

/-!
# Variables

* `Variables`: values by name.
* `Variables.assign`: one set of variables over another.
-/

namespace Runlist

/-- Values by name. -/
abbrev Variables := Fields

/-- **The variables with those of a source over them**: where both have a name, the source
counts. -/
def Variables.assign (target source : Variables) : Variables :=
  source.foldl (fun vars (name, value) => Fields.insert vars name value) target

end Runlist
