import Flowchart.Text.Blank

set_option autoImplicit false

/-!
# Spacing

One-line text: every run of blanks becomes a single space and the ends are trimmed. Labels are
compared and fingerprinted in this form, so that layout never changes a fingerprint, and long
labels are cut to a fixed width.

## Main definitions

* `Flowchart.Text.collapse`: one space for each run of blanks.
* `Flowchart.Text.normalize`: collapsed and trimmed text.
* `Flowchart.Text.shorten`: text of at most `labelWidth` characters.
-/

namespace Flowchart.Text

/-! ### Normal form -/

/-- One space in place of each run of blanks: the last blank of a run stands for the run. -/
def collapse : List Char → List Char
  | [] => []
  | c :: cs =>
    if isBlank c then
      if cs.head?.any isBlank then collapse cs else ' ' :: collapse cs
    else c :: collapse cs

/-- The normal form of a text has single spaces between its words and none at its ends. -/
def normalize (s : String) : String :=
  String.ofList (trimBlank (collapse s.toList))

@[simp] theorem toList_normalize (s : String) :
    (normalize s).toList = trimBlank (collapse s.toList) :=
  String.toList_ofList

/-! ### Width -/

/-- The greatest number of characters in a label. -/
def labelWidth : Nat := 64

/-- What a cut label ends in. -/
def ellipsis : List Char := ['.', '.', '.']

/-- Characters cut to the label width; a cut is marked by an ellipsis, which counts. -/
def cut (cs : List Char) : List Char :=
  if cs.length ≤ labelWidth then cs else cs.take (labelWidth - ellipsis.length) ++ ellipsis

/-- A text cut to the label width. -/
def shorten (s : String) : String :=
  String.ofList (cut s.toList)

@[simp] theorem toList_shorten (s : String) : (shorten s).toList = cut s.toList :=
  String.toList_ofList

/-- **A cut text fits the label width.** -/
theorem length_cut_le (cs : List Char) : (cut cs).length ≤ labelWidth := by
  unfold cut
  split
  · assumption
  · simp only [labelWidth, ellipsis, List.length_append, List.length_take, List.length_cons,
      List.length_nil]
    omega

end Flowchart.Text
