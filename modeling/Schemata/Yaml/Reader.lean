import Schemata.Yaml.Document

/-! Reading data values from documents that are laid out by indentation. -/

namespace Schemata.Yaml

/-- The characters that a text may hold: no controls but tabs and line breaks. -/
def isAllowed (c : Char) : Bool :=
  let n := c.toNat
  c == '\t' || c == '\n' || c == '\r' || n == 0x85 || (0x20 ≤ n && n ≤ 0x7E)
    || (0xA0 ≤ n && n ≤ 0xD7FF) || (0xE000 ≤ n && n ≤ 0xFFFD) || 0x10000 ≤ n

/-- The value of a text with one document. A text without any stands for nothing. -/
def read (text : List Char) : Except Fault Json := do
  match text.dropWhile isAllowed with
  | c :: rest => throw (.character c.toNat (text.length - (rest.length + 1)))
  | [] => match ← (Tokens.ofText text).document? with
    | none => return .null
    | some root => match root.misfit? with
      | some misfit => throw misfit.fault
      | none => return root.value

/-- Reads a text, or says what is wrong with it. -/
def ofText (text : String) : Except String Json :=
  (read text.toList).mapError fun fault => fault.message text.toList

end Schemata.Yaml
