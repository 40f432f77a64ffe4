import Flowchart.Text.Blank
import Flowchart.Text.Hex

set_option autoImplicit false

/-!
# Fingerprint markers

A document records the fingerprint of each section in a comment that does not show. Reading them
back tolerates blanks around the parts of a marker and digits in either case.

## Main definitions

* `Flowchart.Marker.render`: the marker of a fingerprint.
* `Flowchart.Marker.recorded`: the fingerprints that a document records.

## Design

A marker holds no opening bracket behind its first character, so two markers never overlap, and
trying every position of the document finds the same markers as going on behind each one found.
-/

namespace Flowchart.Marker

/-- The marker of a fingerprint. -/
def render (hash : String) : String :=
  "<!-- flow-hash: " ++ hash ++ " -->"

/-- The digits of the marker at the head of a text, if there is one. -/
def digitsAt? (cs : List Char) : Option (List Char) := do
  let cs ← "<!--".toList.isPrefixOf? cs
  let cs ← "flow-hash:".toList.isPrefixOf? (cs.dropWhile Text.isBlank)
  let cs := cs.dropWhile Text.isBlank
  let digits := cs.takeWhile Text.isHexDigit
  let rest := (cs.dropWhile Text.isHexDigit).dropWhile Text.isBlank
  if digits ≠ [] ∧ ("-->".toList.isPrefixOf? rest).isSome then some digits else none

/-- The digits of all markers in a text, in order. -/
def recordedDigits : List Char → List (List Char)
  | [] => []
  | c :: cs =>
    match digitsAt? (c :: cs) with
    | some digits => digits :: recordedDigits cs
    | none => recordedDigits cs

/-- The fingerprints that a document records, in lower case. -/
def recorded (document : String) : List String :=
  (recordedDigits document.toList).map fun digits => String.ofList (digits.map Char.toLower)

end Flowchart.Marker
