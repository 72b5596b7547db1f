import CourseBlueprint.Dict
import CourseBlueprint.Schema

/-!
# Configuration

A `Config` is what a deployment can choose: the marker that migration identifiers of copies start
with, the kinds whose locks are not enforced, and columns beyond the built-in ones. Names in it are
only checked when a `Rulebook` is made of it: the registry of all columns, and the `Settings`.
-/

namespace CourseBlueprint

/-- The choices of a deployment, names as they were given. -/
structure Config where
  /-- What the migration identifier of every copy starts with. -/
  marker : String
  /-- The names of the kinds whose locks are not enforced. -/
  exemptKinds : Option (List String)
  /-- More columns, by the name of the kind and that of the category. -/
  extraColumns : Option (Dict (Dict (List String)))
deriving DecidableEq

/-- What the rules of saving depend on. -/
structure Settings where
  marker : String
  exempt : Kind → Bool

/-- All that a deployment fixes once. -/
structure Rulebook where
  config : Config
  registry : Registry
  settings : Settings

namespace Config

/-- The marker when none is chosen. -/
def usualMarker : String := "mastercourse_"

/-- The configuration without any choice. -/
def usual : Config := ⟨usualMarker, none, none⟩

instance : Inhabited Config := ⟨usual⟩

/-- The built-in columns and those of the configuration. -/
def registry (c : Config) : Result Registry :=
  (c.extraColumns.getD ∅).entries.foldlM (fun r (kindName, categories) => do
    let k ← Kind.ofName kindName
    categories.entries.foldlM (fun r (name, columns) => r.restrictNamed k name columns) r)
    Registry.builtin

/-- The settings, if all kinds named exist. -/
def settings (c : Config) : Result Settings := do
  let kinds ← (c.exemptKinds.getD []).mapM Kind.ofName
  return ⟨c.marker, fun k => decide (k ∈ kinds)⟩

/-- The rulebook of a configuration. -/
def rulebook (c : Config) : Result Rulebook := do
  let registry ← c.registry
  let settings ← c.settings
  return ⟨c, registry, settings⟩

end Config

namespace Settings

/-- The settings without any choice. -/
def usual : Settings := ⟨Config.usualMarker, fun _ => false⟩

/-- The exempt kinds, in their order. -/
def exemptKinds (s : Settings) : List Kind := Kind.all.filter s.exempt

/-- Whether a text starts with the marker. -/
def marks (s : Settings) (migrationId : String) : Bool :=
  s.marker.toList.isPrefixOf migrationId.toList

end Settings

end CourseBlueprint
