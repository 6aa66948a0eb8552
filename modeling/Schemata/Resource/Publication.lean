import Schemata.Resource.Registry

/-! Publishing schemas into a registry. Tables are converted one by one; those that cannot be are
reported and left out. -/

namespace Schemata

/-- What became of the tables or entries of one publication. -/
structure Registration where
  registered : List String
  failed : List String
  fieldCount : Nat
  errors : List String
  deriving DecidableEq, Repr

namespace Registration

def none : Registration := ⟨[], [], 0, []⟩

def success (r : Registration) : Bool := r.failed.isEmpty

def toJson (r : Registration) : Json :=
  .obj [("success", .bool r.success), ("resources_registered", Json.ofStrings r.registered),
    ("resources_failed", Json.ofStrings r.failed), ("total_fields", .int r.fieldCount),
    ("errors", Json.ofStrings r.errors)]

/-- Counts a resource. -/
def accept (r : Registration) (resource : Resource) : Registration :=
  { r with
    registered := r.registered ++ [resource.name]
    fieldCount := r.fieldCount + resource.fields.length }

/-- Reports a name with the count of its invalid fields. -/
def refuse (r : Registration) (verb name : String) (faults : Nat) : Registration :=
  { r with
    failed := r.failed ++ [name]
    errors := r.errors ++ [s!"Failed to {verb} {name}: {faults} invalid field(s)"] }

end Registration

/-- Converts a table, or counts the fields that stand in the way. -/
abbrev Converter := Table → Except Nat Resource

/-- The conversion that always succeeds. -/
def Converter.usual : Converter := fun table => .ok table.toResource

/-- Settles named candidates in order: the resources that were found, and the report. -/
def gather {α : Type} (verb : String) (nameOf : α → String) (convert : α → Except Nat Resource)
    (candidates : List α) : List Resource × Registration :=
  candidates.foldl
    (fun (resources, report) candidate =>
      match convert candidate with
      | .ok resource => (resources ++ [resource], report.accept resource)
      | .error faults => (resources, report.refuse verb (nameOf candidate) faults))
    ([], .none)

def convertTables (convert : Converter) (tables : List Table) : List Resource × Registration :=
  gather "register" Table.name convert tables

namespace Registry

/-- Registers every table of a schema, instead of or beside what is there. -/
def registerSchema (convert : Converter) (now : Instant) (registry : Registry) (schema : Schema)
    (clear : Bool) : Registry × Registration :=
  let (resources, report) := convertTables convert schema.tables
  (registry.replace now resources [] clear, report)

/-- Registers every table of a schema and removes the tables of the previous one that are gone. -/
def publish (convert : Converter) (now : Instant) (registry : Registry) (schema : Schema)
    (previous? : Option Schema) : Registry × Registration :=
  let (resources, report) := convertTables convert schema.tables
  let gone := previous?.elim [] fun previous =>
    previous.tableNames.filter fun name => !schema.tableNames.contains name
  (registry.replace now resources gone false, report)

/-- Registers only the tables whose names are not known yet. -/
def sync (convert : Converter) (now : Instant) (registry : Registry) (schema : Schema) :
    Registry × Registration :=
  let pending := schema.tables.filter fun table => (registry.lookup table.name).isNone
  let (resources, report) := convertTables convert pending
  (registry.replace now resources [] false, report)

/-- Reads an exported entry, or counts the faults of its shape. -/
def readEntry (entry : String × Json) : Except Nat Resource :=
  match Resource.decode entry.2 with
  | .valid resource => .ok resource
  | .invalid errors => .error errors.length

/-- Replaces the whole registry by exported entries, those of wrong shape left out. -/
def importEntries (now : Instant) (registry : Registry) (exported : Members) :
    Registry × Registration :=
  let (resources, report) := gather "import" Prod.fst readEntry exported
  (registry.replace now resources [] true, report)

end Registry

end Schemata
