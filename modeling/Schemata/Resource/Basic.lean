import Schemata.Shape.Decode

/-! Resources: what a generic view needs to know of a table. -/

namespace Schemata

/-- How a field is shown and edited. -/
inductive FieldType where
  | text | number | date | boolean | email | url | phone | textarea | select | currency | status
  deriving DecidableEq, Repr

namespace FieldType

def all : List FieldType := [
  .text, .number, .date, .boolean, .email, .url, .phone, .textarea, .select, .currency, .status]

def word : FieldType → String
  | text => "text"
  | number => "number"
  | date => "date"
  | boolean => "boolean"
  | email => "email"
  | url => "url"
  | phone => "phone"
  | textarea => "textarea"
  | select => "select"
  | currency => "currency"
  | status => "status"

/-- The type that a word names, spelled exactly. -/
def ofWord? (s : String) : Option FieldType := all.find? fun t => t.word == s

end FieldType

inductive LinkKind where
  | belongsTo | hasMany | hasOne | manyToMany
  deriving DecidableEq, Repr

namespace LinkKind

def all : List LinkKind := [.belongsTo, .hasMany, .hasOne, .manyToMany]

def word : LinkKind → String
  | belongsTo => "belongsTo"
  | hasMany => "hasMany"
  | hasOne => "hasOne"
  | manyToMany => "manyToMany"

end LinkKind

structure ResourceField where
  name : String
  type : FieldType
  required : Bool
  displayName : String
  filterable : Bool
  sortable : Bool
  related? : Option String
  deriving DecidableEq, Repr

/-- A relationship of a resource to another one. -/
structure ResourceLink where
  name : String
  kind : LinkKind
  related : String
  foreignKey : String
  deriving DecidableEq, Repr

structure Resource where
  name : String
  plural : String
  singularLabel : String
  pluralLabel : String
  icon : String
  description : String
  color : String
  fields : List ResourceField
  links : List ResourceLink
  route : String
  deriving DecidableEq, Repr

namespace ResourceField

def ofMembers (m : Members) : Checked ResourceField :=
  ResourceField.mk <$> Decode.required m "name" Decode.string
    <*> Decode.optional m ["type"] .text (Decode.choice FieldType.all FieldType.word)
    <*> Decode.optional m ["required"] false Decode.boolean
    <*> Decode.required m "display_name" Decode.string
    <*> Decode.optional m ["filterable"] true Decode.boolean
    <*> Decode.optional m ["sortable"] true Decode.boolean
    <*> Decode.optional m ["related_resource"] none (Decode.nullable Decode.string)

def decode : Json → Checked ResourceField := Decode.record "ResourceField" ofMembers

def toJson (f : ResourceField) : Json :=
  .obj [("name", .str f.name), ("type", .str f.type.word), ("required", .bool f.required),
    ("display_name", .str f.displayName), ("filterable", .bool f.filterable),
    ("sortable", .bool f.sortable), ("related_resource", Json.ofOption .str f.related?)]

end ResourceField

namespace ResourceLink

def ofMembers (m : Members) : Checked ResourceLink :=
  ResourceLink.mk <$> Decode.required m "name" Decode.string
    <*> Decode.optional m ["type"] .belongsTo (Decode.choice LinkKind.all LinkKind.word)
    <*> Decode.required m "related_resource" Decode.string
    <*> Decode.required m "foreign_key_column" Decode.string

def decode : Json → Checked ResourceLink := Decode.record "ResourceRelationship" ofMembers

def toJson (l : ResourceLink) : Json :=
  .obj [("name", .str l.name), ("type", .str l.kind.word), ("related_resource", .str l.related),
    ("foreign_key_column", .str l.foreignKey)]

end ResourceLink

namespace Resource

def ofMembers (m : Members) : Checked Resource :=
  Resource.mk <$> Decode.required m "name" Decode.string
    <*> Decode.required m "plural_name" Decode.string
    <*> Decode.required m "singular_label" Decode.string
    <*> Decode.required m "plural_label" Decode.string
    <*> Decode.optional m ["icon"] "Database" Decode.string
    <*> Decode.optional m ["description"] "" Decode.string
    <*> Decode.optional m ["color"] "blue" Decode.string
    <*> Decode.optional m ["fields"] [] (Decode.list ResourceField.decode)
    <*> Decode.optional m ["relationships"] [] (Decode.list ResourceLink.decode)
    <*> Decode.required m "route" Decode.string

def decode : Json → Checked Resource := Decode.record "CompiledEntity" ofMembers

def toJson (r : Resource) : Json :=
  .obj [("name", .str r.name), ("plural_name", .str r.plural),
    ("singular_label", .str r.singularLabel), ("plural_label", .str r.pluralLabel),
    ("icon", .str r.icon), ("description", .str r.description), ("color", .str r.color),
    ("fields", .arr (r.fields.map ResourceField.toJson)),
    ("relationships", .arr (r.links.map ResourceLink.toJson)), ("route", .str r.route)]

end Resource

end Schemata
