import Flowchart.Text.Hex
import Flowchart.Text.Printable

set_option autoImplicit false

/-!
# Quoted text

Text between quotation marks, as messages show a word that the reader has to tell apart from the
sentence around it.

## Main definitions

* `Flowchart.Text.quote`: a text between apostrophes or, if it holds an apostrophe and no quotation
  mark, between quotation marks.

## Design

The delimiter and the backslash take a backslash, line feed, carriage return and tab have names of
their own, and every other unprintable character is written by its code in two, four or eight
hexadecimal digits, whichever is the least that holds it.
-/

namespace Flowchart.Text

/-- The written form of one character between two marks. -/
def quoteChar (mark c : Char) : List Char :=
  if c = mark ∨ c = '\\' then ['\\', c]
  else if c = '\n' then ['\\', 'n']
  else if c = '\r' then ['\\', 'r']
  else if c = '\t' then ['\\', 't']
  else if isPrintable c then [c]
  else if c.toNat < 0x100 then '\\' :: 'x' :: hexDigits 2 c.toNat
  else if c.toNat < 0x10000 then '\\' :: 'u' :: hexDigits 4 c.toNat
  else '\\' :: 'U' :: hexDigits 8 c.toNat

/-- The mark that a text is quoted by. -/
def quoteMark (cs : List Char) : Char :=
  if '\'' ∈ cs ∧ '"' ∉ cs then '"' else '\''

/-- A text between its quotation marks. -/
def quote (s : String) : String :=
  let mark := quoteMark s.toList
  String.ofList (mark :: s.toList.flatMap (quoteChar mark) ++ [mark])

end Flowchart.Text
