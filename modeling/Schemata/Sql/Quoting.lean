/-! Quoted names and quoted text in statements. A quote inside is written twice, so what stands
between the outer quotes can never end them. -/

namespace Schemata.Sql

/-- Writes every occurrence of the quote twice. -/
def doubleQuotes (quote : Char) : List Char → List Char
  | [] => []
  | c :: rest =>
    if c = quote then quote :: quote :: doubleQuotes quote rest else c :: doubleQuotes quote rest

/-- Reads every doubled quote as one, from left to right; a single one stays. -/
def undoubleQuotes (quote : Char) : List Char → List Char
  | a :: b :: rest =>
    if a = quote ∧ b = quote then quote :: undoubleQuotes quote rest
    else a :: undoubleQuotes quote (b :: rest)
  | cs => cs
termination_by cs => cs.length

/-- Text between two quotes. -/
def enquote (quote : Char) (cs : List Char) : List Char :=
  quote :: doubleQuotes quote cs ++ [quote]

/-- A name of a table, column, index, constraint, policy, trigger or function. -/
def identifier (name : String) : String := .ofList (enquote '"' name.toList)

/-- A text value. -/
def literal (text : String) : String := .ofList (enquote '\'' text.toList)

/-- A table name, after the name of its schema when that is given and not empty. -/
def qualified (table : String) (schema? : Option String) : String :=
  match schema? with
  | some schema => if schema = "" then identifier table else identifier schema ++ "." ++
      identifier table
  | none => identifier table

end Schemata.Sql
