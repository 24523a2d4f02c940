/-!
# Logging

A library writes the lines of a log to the standard error, as far as a filter lets them through. The
filter comes from a variable of the environment, or else from the settings.

* `Logger`: such a library.
* `Logger.filter`: the filter of a run.
* `Logger.Documented`: what such a library is documented to do.
-/

namespace YamlDefs

/-- A library that writes a log. A filter is given by its text. -/
structure Logger where
  /-- Whether a text is one of a filter. -/
  isFilter : String → Bool
  /-- Sets up the log with a filter, or tells in its own words what goes wrong. It is told whether
  there is a log already. -/
  install : (taken : Bool) → (filter : String) → Except String Unit

/-- The filter for the value of a variable, if it has one, and a level. A value that is no filter
does not count. -/
def Logger.filter (l : Logger) (value : Option String) (level : String) : String :=
  (value.filter l.isFilter).getD level

/-- What such a library is documented to do: the first log of a process can be set up with any
filter. -/
structure Logger.Documented (l : Logger) : Prop where
  first : ∀ filter, l.install false filter = .ok ()

end YamlDefs
