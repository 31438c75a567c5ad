import Runlist.Variables

/-!
# Rendered parameters

* `Module`: the parameters of an action, rendered.
* `Module.strings`: the ones that are strings.
-/

namespace Runlist

/-- The parameters of an action, rendered. -/
structure Module where
  params : Fields
deriving Inhabited, Repr

namespace Module

/-- The parameters that are strings. -/
def strings (m : Module) : List (String × String) :=
  m.params.filterMap fun (key, value) => value.string?.map fun s => (key, s)

/-- The module without a parameter. -/
def erase (m : Module) (key : String) : Module := ⟨m.params.erase key⟩

/-- The number of parameters. -/
def size (m : Module) : Nat := m.params.length

/-- The parameters as a value. -/
def toJson (m : Module) : Json := .object m.params

end Module

end Runlist
