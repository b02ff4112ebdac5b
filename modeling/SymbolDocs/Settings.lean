import SymbolDocs.Path
set_option autoImplicit false

/-!
# Settings

The settings of a documentation store and of the log of a host.

## Main definitions

* `StoreSettings` — how a store reads documentation.
* `LogSettings` — where a host logs.
* `LogSettings.defaultDirectory` — the log directory below a home directory.
-/

namespace SymbolDocs

/-- How a store reads documentation. -/
structure StoreSettings where
  /-- The extension of the documentation file beside a compiled unit. -/
  extension : Text := "xml".toList
  /-- The name of the elements that document a symbol. -/
  memberElement : Text := "member".toList
  /-- Whether malformed documentation beside a unit is an error; else the unit counts as
  undocumented. -/
  strictOwners : Bool := false
  deriving DecidableEq, Repr

/-- Where a host logs. -/
structure LogSettings where
  /-- The directory of the log files. -/
  directory : Text
  /-- Whether the log is shown as well. -/
  toStderr : Bool := false
  /-- The filter where the environment sets none. -/
  filter : Text := "info".toList
  deriving DecidableEq, Repr

namespace LogSettings

/-- The log directory below a home directory; without one, below the working directory. -/
def defaultDirectory (home : Option Text) : Text :=
  let names := [".memberdoc".toList, "logs".toList].map Path.ofText
  Path.text (names.foldl Path.join (Path.ofText (home.getD ['.'])))

/-- The settings for a home directory. -/
def default (home : Option Text) : LogSettings :=
  { directory := defaultDirectory home }

end LogSettings

end SymbolDocs
