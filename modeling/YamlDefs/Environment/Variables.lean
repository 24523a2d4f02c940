/-!
# Environment variables

* `Variables`: the variables of a run by name.
* `Variables.setAbsent`: gives a variable a value unless it has one.
-/

namespace YamlDefs

/-- Environment variables; of equal names the first counts. -/
abbrev Variables := List (String × String)

/-- The variables with a value for a name, unless the name has one already. -/
def Variables.setAbsent (vars : Variables) (name value : String) : Variables :=
  if (vars.lookup name).isSome then vars else (name, value) :: vars

end YamlDefs
