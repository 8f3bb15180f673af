import Payphone.Text

/-!
Structured output: values of JSON with members in a given order, and their indented form.
-/
namespace Payphone

inductive Json
  | null
  | boolean (value : Bool)
  | number (value : Nat)
  | text (value : String)
  | array (items : List Json)
  | object (members : List (String × Json))

namespace Json

def ofByte (x : UInt8) : Json := number x.toNat

def ofBytes (bytes : List UInt8) : Json := array (bytes.map ofByte)

/-! The indented form: every item and every member on a line of its own, two blanks deeper than its parent. -/

def escape (c : Char) : String :=
  if c = '"' then "\\\""
  else if c = '\\' then "\\\\"
  else if c = '\n' then "\\n"
  else if c = '\r' then "\\r"
  else if c = '\t' then "\\t"
  else if c = '\x08' then "\\b"
  else if c = '\x0c' then "\\f"
  else if c.toNat < 0x20 then "\\u" ++ Text.hex 4 c.toNat
  else String.singleton c

def quote (s : String) : String := "\"" ++ String.join (s.toList.map escape) ++ "\""

/-- The start of a line at a depth. -/
def margin (depth : Nat) : String := Text.blanks (2 * depth)

/-- Lines between two brackets; brackets with nothing between them stand side by side. -/
def bracketed (depth : Nat) (opening closing : String) (lines : List String) : String :=
  if lines.isEmpty then opening ++ closing
  else opening ++ "\n" ++ ",\n".intercalate lines ++ "\n" ++ margin depth ++ closing

mutual

/-- The form of a value whose first line begins at `depth`. -/
def pretty (depth : Nat) : Json → String
  | null => "null"
  | boolean value => if value then "true" else "false"
  | number value => Text.decimal value
  | text value => quote value
  | array items => bracketed depth "[" "]" (prettyItems (depth + 1) items)
  | object members => bracketed depth "\x7b" "\x7d" (prettyMembers (depth + 1) members)

def prettyItems (depth : Nat) : List Json → List String
  | [] => []
  | item :: rest => (margin depth ++ pretty depth item) :: prettyItems depth rest

def prettyMembers (depth : Nat) : List (String × Json) → List String
  | [] => []
  | (name, value) :: rest =>
    (margin depth ++ quote name ++ ": " ++ pretty depth value) :: prettyMembers depth rest

end

def render (j : Json) : String := pretty 0 j

end Json

end Payphone
