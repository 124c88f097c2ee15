import EntryLint.JsonDoc.Basic
import EntryLint.Registry
import EntryLint.Tool

/-!
# Listings

What the registry holds, as JSON documents: the rules with their texts under the default policy,
and the presets with their severities, both sorted by name.
-/

namespace EntryLint.Listing

/-- The entry of a rule, under the name it is registered by. -/
def ruleEntry (name : String) (rule : Rule) : JsonDoc :=
  .object
    [("name", .string name), ("type", .string rule.info.type),
      ("description", .string rule.info.description),
      ("recommended", .bool rule.info.recommended),
      ("messages", .object ((rule.messages {}).map fun (id, text) => (id, .string text)))]

/-- The entries of some rules. The first rule that cannot be loaded ends the listing. -/
def ruleEntries (library : Library) :
    List String → Registry → Except RegistryError (List JsonDoc) × Registry
  | [], registry => (.ok [], registry)
  | name :: names, registry =>
    match registry.rule library name with
    | (.error e, registry) => (.error e, registry)
    | (.ok rule, registry) =>
      match ruleEntries library names registry with
      | (.error e, registry) => (.error e, registry)
      | (.ok entries, registry) => (.ok (ruleEntry name rule :: entries), registry)

/-- All registered rules. -/
def rules (library : Library) (registry : Registry) :
    Except RegistryError JsonDoc × Registry :=
  match ruleEntries library registry.ruleNames registry with
  | (.error e, registry) => (.error e, registry)
  | (.ok entries, registry) =>
    let plugin : JsonDoc :=
      .object [("name", .string Tool.name), ("version", .string Tool.version)]
    (.ok (.object [("plugin", plugin), ("rules", .array entries)]), registry)

/-- The severities of a preset. -/
def presetEntry (preset : Preset) : JsonDoc :=
  .object (preset.map fun (name, severity) => (name, .string severity.name))

/-- All registered presets. -/
def configs (registry : Registry) : Except RegistryError JsonDoc := do
  let entries ← registry.presetNames.mapM fun name => do
    return (name, presetEntry (← registry.preset name))
  return .object [("configs", .object entries)]

end EntryLint.Listing
