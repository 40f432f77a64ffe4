import Flowchart.Text.Hex

set_option autoImplicit false

/-!
# JSON

JSON values and their text in ASCII, one entry a line.

## Main definitions

* `Flowchart.Json`: strings, integers, arrays and objects with ordered entries.
* `Flowchart.Json.render`: the text of a value, indented by two spaces a level.

## Design

Only the kinds of values that charts need are there. An object is the list of its entries, so the
order in which it is written is part of the value.
-/

namespace Flowchart

/-- A JSON value. -/
inductive Json where
  | string (s : String)
  | integer (n : Int)
  | array (items : List Json)
  | object (entries : List (String × Json))

namespace Json

/-! ### Strings -/

/-- The `\u` escape of one UTF-16 unit. -/
def escapeUnit (n : Nat) : List Char :=
  '\\' :: 'u' :: Text.hexDigits 4 n

/-- The written form of a character: printable ASCII stands for itself, a character above U+FFFF is
a pair of surrogate escapes. -/
def escapeChar (c : Char) : List Char :=
  if c = '"' ∨ c = '\\' then ['\\', c]
  else if c = '\n' then ['\\', 'n']
  else if c = '\r' then ['\\', 'r']
  else if c = '\t' then ['\\', 't']
  else if c = '\x0c' then ['\\', 'f']
  else if c = '\x08' then ['\\', 'b']
  else if 0x20 ≤ c.toNat ∧ c.toNat < 0x7f then [c]
  else if c.toNat < 0x10000 then escapeUnit c.toNat
  else
    let n := c.toNat - 0x10000
    escapeUnit (0xd800 + n / 0x400) ++ escapeUnit (0xdc00 + n % 0x400)

/-- A string between quotation marks. -/
def renderString (s : String) : String :=
  String.ofList ('"' :: s.toList.flatMap escapeChar ++ ['"'])

/-! ### Values -/

/-- The start of a line at a level. -/
def newline (level : Nat) : String :=
  String.ofList ('\n' :: List.replicate (2 * level) ' ')

/-- Written entries between two brackets, each on a line of its own; nothing stands between the
brackets if there are none. -/
def bracketed (opening closing : String) (level : Nat) : List String → String
  | [] => opening ++ closing
  | items =>
    opening ++ newline (level + 1) ++ ("," ++ newline (level + 1)).intercalate items
      ++ newline level ++ closing

mutual

/-- The text of a value whose first line is already indented to a level. -/
def renderAt (level : Nat) : Json → String
  | .string s => renderString s
  | .integer n => toString n
  | .array items => bracketed "[" "]" level (renderItems (level + 1) items)
  | .object entries => bracketed "\x7b" "\x7d" level (renderEntries (level + 1) entries)

/-- The texts of the items of an array. -/
def renderItems (level : Nat) : List Json → List String
  | [] => []
  | item :: items => renderAt level item :: renderItems level items

/-- The texts of the entries of an object. -/
def renderEntries (level : Nat) : List (String × Json) → List String
  | [] => []
  | (key, value) :: entries =>
    (renderString key ++ ": " ++ renderAt level value) :: renderEntries level entries

end

/-- The text of a value. -/
def render (value : Json) : String :=
  renderAt 0 value

end Json

end Flowchart
