import Schemata.Resource.Conversion
import Schemata.Time.Instant

/-! The registry of resources, in the order in which their names came in. -/

namespace Schemata

/-- A resource with the times of its first and its last write. -/
structure RegistryEntry where
  resource : Resource
  created : Instant
  updated : Instant
  deriving DecidableEq, Repr

/-- Entries by resource name. -/
abbrev Registry := Keyed RegistryEntry

/-- The routes of one resource in a navigation menu. -/
structure NavigationEntry where
  name : String
  list : String
  create : String
  edit : String
  view : String
  label : String
  icon : String
  description : String
  deriving DecidableEq, Repr

def NavigationEntry.ofResource (r : Resource) : NavigationEntry where
  name := r.plural
  list := "/" ++ r.plural
  create := "/" ++ r.plural ++ "/create"
  edit := "/" ++ r.plural ++ "/:id/edit"
  view := "/" ++ r.plural ++ "/:id"
  label := r.pluralLabel
  icon := r.icon
  description := r.description

def NavigationEntry.toJson (n : NavigationEntry) : Json :=
  .obj [("name", .str n.name), ("list", .str n.list), ("create", .str n.create),
    ("edit", .str n.edit), ("show", .str n.view), ("label", .str n.label), ("icon", .str n.icon),
    ("description", .str n.description)]

namespace Registry

/-- Writes a resource under its name. The time of the first write is taken from an earlier
registry. -/
def write (now : Instant) (earlier registry : Registry) (resource : Resource) : Registry :=
  let created := ((earlier.lookup resource.name).map (·.created)).getD now
  registry.put resource.name ⟨resource, created, now⟩

def register (now : Instant) (registry : Registry) (resource : Resource) : Registry :=
  registry.write now registry resource

/-- The registry without a name, and whether the name was there. -/
def unregister (registry : Registry) (name : String) : Registry × Bool :=
  (registry.without name, (registry.lookup name).isSome)

/-- Removes names, or everything, and writes resources. A resource that was there before keeps the
time of its first write, even when it is removed and written in one step. -/
def replace (now : Instant) (registry : Registry) (resources : List Resource)
    (remove : List String) (clear : Bool) : Registry :=
  let kept := if clear then [] else remove.foldl Keyed.without registry
  resources.foldl (write now registry) kept

def resource? (registry : Registry) (name : String) : Option Resource :=
  (registry.lookup name).map (·.resource)

def resources (registry : Registry) : List Resource := registry.map (·.2.resource)

/-- Resource names by plural name. Of several resources with one plural name the last counts. -/
def pluralIndex (registry : Registry) : Keyed String :=
  Keyed.ofList (registry.map fun (name, entry) => (entry.resource.plural, name))

/-- The resource whose name the index has for a plural name. A resource without a name is not found
this way. -/
def byPlural? (registry : Registry) (plural : String) : Option Resource :=
  match registry.pluralIndex.lookup plural with
  | some name => if name = "" then none else registry.resource? name
  | none => none

def toJson (registry : Registry) : Json :=
  .obj (registry.map fun (name, entry) => (name, entry.resource.toJson))

/-- How many fields resources have together. -/
def fieldCount (resources : List Resource) : Nat :=
  resources.foldl (fun count r => count + r.fields.length) 0

/-- Counts of resources and of their fields. -/
def stats (registry : Registry) : Json :=
  let resources := registry.resources
  let row (r : Resource) : Json :=
    .obj [("name", .str r.name), ("fields", .int r.fields.length), ("plural", .str r.plural)]
  .obj [("total_resources", .int resources.length),
    ("total_fields", .int (fieldCount resources)),
    ("resources", .arr (resources.map row))]

/-- The fields of a resource other than the audit columns. -/
def businessFields (registry : Registry) (name : String) : List ResourceField :=
  (registry.resource? name).elim [] fun r =>
    r.fields.filter fun field => !auditNames.contains field.name

/-- One look-up field for each link of a resource. -/
def linkFields (registry : Registry) (name : String) : List ResourceField :=
  (registry.resource? name).elim [] fun r => r.links.map fun link =>
    { name := link.foreignKey, type := .text, required := false, displayName := humanize link.name,
      filterable := true, sortable := true, related? := some link.related }

def navigation (registry : Registry) : List NavigationEntry :=
  registry.resources.map NavigationEntry.ofResource

end Registry

end Schemata
