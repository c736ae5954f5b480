import Autogen.Graph.Store

/-!
# Differences between configurations

A value that depends on the configuration, recorded as the value in a baseline configuration and
the configurations in which it is another one.

## Main definitions

* `joinList` — a list as one text.
* `ConfigDiff`, `ConfigDiff.of`, `ConfigDiff.valueFor` — the record, its making and its reading.
* `Target.includesDiff`, `Target.definitionsDiff`, `Target.uicOptionsDiff` — the records of a
  target.
-/

namespace Autogen

/-- The elements of a list as one text, between separators. -/
def joinList (items : List String) : String :=
  Text.join (String.singleton listSeparator) items

/-- A baseline value and the configurations whose value differs from it. -/
structure ConfigDiff where
  baseline : String
  overrides : OrderedMap String String
deriving DecidableEq

namespace ConfigDiff

/-- The configurations whose values are computed, in this order. -/
def evaluated (baseline : String) (configs : List String) : List String :=
  baseline :: configs

/-- The record of a value that depends on the configuration. -/
def of (baseline : String) (configs : List String) (compute : String → String) : ConfigDiff where
  baseline := compute baseline
  overrides := .ofList <|
    (configs.map fun config => (config, compute config)).filter (·.2 ≠ compute baseline)

/-- The value in a configuration. -/
def valueFor (d : ConfigDiff) (config : String) : String :=
  (d.overrides.get? config).getD d.baseline

end ConfigDiff

namespace Target

/-- The include directories by configuration. -/
def includesDiff (t : Target) (baseline : String) (configs : List String) : ConfigDiff :=
  .of baseline configs fun config => joinList (t.includeDirectoriesFor config)

/-- The compile definitions by configuration. -/
def definitionsDiff (t : Target) (baseline : String) (configs : List String) : ConfigDiff :=
  .of baseline configs fun config => joinList (t.compileDefinitionsFor config)

/-- The uic options by configuration. -/
def uicOptionsDiff (t : Target) (baseline : String) (configs : List String) : ConfigDiff :=
  .of baseline configs fun config => joinList (t.autouicOptionsFor config)

end Target

end Autogen
