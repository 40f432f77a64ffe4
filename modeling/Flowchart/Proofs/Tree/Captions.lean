import Flowchart.Proofs.Text.Words
import Mathlib.Logic.Function.Basic

set_option relaxedAutoImplicit false
set_option autoImplicit false

/-!
# What captions tell apart

A caption is made of the normal form of a text, so the layout of a tree leaves no trace in it. What
is wider than a label is cut, and then only its first characters count: captions are the same for
texts that differ behind the cut, and for a text that spells out what is left by the cut of another.
In all other cases different normal forms have different captions.

## Main definitions

* `Flowchart.Text.CutsTo`: characters wider than a label, and those that are shown of them.

## Main results

* `Flowchart.Text.cut_eq_iff`: which characters are cut to the same.
* `Flowchart.Tree.caption_exact`: which texts have the same normal form, and which trees have the
  same caption.
-/

namespace Flowchart

/-! ## Cutting -/

namespace Text

variable {cs ds : List Char}

/-- Whether characters are wider than a label, and others are what is shown of them: the first
characters and an ellipsis. -/
def CutsTo (cs ds : List Char) : Prop :=
  64 < cs.length ∧ ds = cs.take 61 ++ ['.', '.', '.']

/-- What is shown of characters that are cut is as wide as a label. -/
lemma CutsTo.length_eq (h : CutsTo cs ds) : ds.length = 64 := by
  obtain ⟨hwide, rfl⟩ := h
  rw [List.length_append, List.length_take_of_le (by omega)]
  rfl

/-- Characters that fit a label are not cut. -/
lemma cut_of_le (h : cs.length ≤ 64) : cut cs = cs :=
  if_pos h

/-- Nothing else is shown of characters that fit a label. -/
lemma not_cutsTo_of_le (h : cs.length ≤ 64) : ¬ CutsTo cs ds := fun hcut =>
  absurd hcut.1 (Nat.not_lt_of_le h)

/-- Characters that are wider than a label are cut. -/
lemma cutsTo_cut (h : 64 < cs.length) : CutsTo cs (cut cs) :=
  ⟨h, if_neg (Nat.not_le_of_lt h)⟩

/-- Characters are cut to some that fit a label if they are the same or are shown like them. -/
lemma cut_eq_iff_of_le (hds : ds.length ≤ 64) : cut cs = ds ↔ cs = ds ∨ CutsTo cs ds := by
  rcases Nat.lt_or_ge 64 cs.length with hcs | hcs
  · have hcut := cutsTo_cut hcs
    constructor
    · rintro rfl
      exact .inr hcut
    · rintro (rfl | h)
      · omega
      · rw [hcut.2, h.2]
  · rw [cut_of_le hcs]
    exact ⟨.inl, fun h => h.resolve_right (not_cutsTo_of_le hcs)⟩

/-- **Characters are cut to the same** exactly if they are the same, or both are wider than a label
and start alike, or one of them is what is shown of the other. -/
lemma cut_eq_iff : cut cs = cut ds ↔ cs = ds ∨
    (64 < cs.length ∧ 64 < ds.length ∧ cs.take 61 = ds.take 61) ∨ CutsTo cs ds ∨ CutsTo ds cs := by
  rcases Nat.lt_or_ge 64 cs.length with hcs | hcs <;>
    rcases Nat.lt_or_ge 64 ds.length with hds | hds
  · rw [(cutsTo_cut hcs).2, (cutsTo_cut hds).2, List.append_left_inj]
    constructor
    · exact fun h => .inr (.inl ⟨hcs, hds, h⟩)
    · rintro (rfl | ⟨-, -, h⟩ | h | h)
      · rfl
      · exact h
      · exact absurd h.length_eq hds.ne'
      · exact absurd h.length_eq hcs.ne'
  · have hnarrow : ¬ CutsTo ds cs := not_cutsTo_of_le hds
    simp only [cut_of_le hds, cut_eq_iff_of_le hds, Nat.not_lt_of_le hds, hnarrow, and_false,
      false_and, false_or, or_false]
  · have hnarrow : ¬ CutsTo cs ds := not_cutsTo_of_le hcs
    rw [eq_comm, cut_of_le hcs, cut_eq_iff_of_le hcs, eq_comm]
    simp only [Nat.not_lt_of_le hcs, hnarrow, false_and, false_or]
  · simp only [cut_of_le hcs, cut_of_le hds, Nat.not_lt_of_le hcs, not_cutsTo_of_le hcs,
      not_cutsTo_of_le hds, false_and, or_false]

end Text

/-! ## Captions -/

namespace Tree

open Text

/-- Captions are the same if and only if the normal forms are cut to the same. -/
lemma caption_eq_iff {t u : Tree} : t.caption = u.caption ↔
    cut (normalize t.text).toList = cut (normalize u.text).toList := by
  rw [← String.toList_inj, caption, caption, toList_shorten, toList_shorten]

/-- A caption fits a label. -/
lemma length_caption_le (t : Tree) : t.caption.length ≤ 64 := by
  rw [← String.length_toList, caption, toList_shorten]
  exact length_cut_le _

/-- **Normal forms and captions.** The normal form of a text is determined by its words, which are
its runs of characters without blanks at their full length, and the words by the normal form. It is
its own normal form.

The caption of a tree is at most as wide as a label, and in normal form even if the cut is next to
a space. Nothing but the normal form of the text of the tree counts for it. Two trees have the same
caption exactly if their texts have the same normal form, or if both normal forms are wider than a
label and agree up to the cut, or if one is and the other spells out what is shown of it.

**Proof sketch.** Neither collapsing nor trimming touches a word, and a text in normal form is
nothing but its words with single spaces between them (`normalize_eq_iff`). An ellipsis holds no
blank and is not empty, so a cut keeps the normal form (`normal_caption`). All that is cut is as
wide as a label and ends in an ellipsis, so it is compared by what is left of it (`cut_eq_iff`). -/
theorem caption_exact :
    (∀ x : String, ∃ rs, Locates x.toList rs ∧ rs.map Stretch.run = words x.toList) ∧
      (∀ x y : String, normalize x = normalize y ↔ words x.toList = words y.toList) ∧
      (∀ x : String, normalize (normalize x) = normalize x) ∧
      (∀ t : Tree, t.caption.length ≤ 64 ∧ normalize t.caption = t.caption) ∧
      Function.FactorsThrough caption (fun t => normalize t.text) ∧
      ∀ t u : Tree,
        let x := normalize t.text
        let y := normalize u.text
        t.caption = u.caption ↔ x = y ∨
          (64 < x.length ∧ 64 < y.length ∧ x.toList.take 61 = y.toList.take 61) ∨
          CutsTo x.toList y.toList ∨ CutsTo y.toList x.toList := by
  refine ⟨fun x => exists_locates x.toList, fun x y => normalize_eq_iff, fun x => ?_, fun t => ?_,
    fun t u h => ?_, fun t u => ?_⟩
  · exact (normal_normalize x).normalize_eq
  · exact ⟨length_caption_le t, (normal_caption t).normalize_eq⟩
  · exact congrArg shorten h
  · simp only [caption_eq_iff, cut_eq_iff, String.toList_inj, String.length_toList]

/-- An expression that starts with a name of sixty letters. -/
def longNamed (tail : List Char) : Tree :=
  .node ⟨0, "binary_expression", true, none, 1, String.ofList (List.replicate 60 'a' ++ tail)⟩ []

/-- The normal form of such an expression, if the name ends before a blank. -/
lemma toList_normalize_longNamed {c : Char} (hc : isBlank c = true) (tail : List Char) :
    (normalize (longNamed (c :: tail)).text).toList =
      [' '].intercalate (List.replicate 60 'a' :: words tail) := by
  have hname : IsWord (List.replicate 60 'a') :=
    ⟨List.cons_ne_nil _ _, List.forall_mem_replicate.mpr (.inr (by decide))⟩
  have hfirst : BlankFirst (c :: tail) := fun d hd => Option.some.inj hd ▸ hc
  have htext : (longNamed (c :: tail)).text.toList = List.replicate 60 'a' ++ c :: tail :=
    String.toList_ofList
  rw [toList_normalize_eq_intercalate, htext, words_append hname hfirst, words_cons_blank hc]

/-- **Cuts next to a space.** The name and the space behind it are what is left by a cut. So two
layouts of an expression have the same caption, and so have an expression that goes on differently
and a text that spells out the ellipsis. -/
theorem caption_exact_of_cut :
    let sum := longNamed [' ', '\n', '+', ' ', 'b', 'c']
    let sum' := longNamed ['\t', '+', ' ', 'b', 'c', ' ']
    let difference := longNamed [' ', '-', ' ', 'b', 'c']
    let dotted := longNamed [' ', '.', '.', '.']
    (normalize sum.text = normalize sum'.text ∧ sum.caption = sum'.caption) ∧
      (normalize sum.text ≠ normalize difference.text ∧ sum.caption = difference.caption) ∧
      normalize sum.text ≠ normalize dotted.text ∧ sum.caption = dotted.caption := by
  intro sum sum' difference dotted
  obtain ⟨-, -, -, -, hfactors, hcaption⟩ := caption_exact
  have hsum : (normalize sum.text).toList = List.replicate 60 'a' ++ [' ', '+', ' ', 'b', 'c'] :=
    toList_normalize_longNamed rfl _
  have hsum' : (normalize sum'.text).toList = List.replicate 60 'a' ++ [' ', '+', ' ', 'b', 'c'] :=
    toList_normalize_longNamed rfl _
  have hdifference : (normalize difference.text).toList =
      List.replicate 60 'a' ++ [' ', '-', ' ', 'b', 'c'] :=
    toList_normalize_longNamed rfl _
  have hdotted : (normalize dotted.text).toList =
      List.replicate 60 'a' ++ [' ', '.', '.', '.'] :=
    toList_normalize_longNamed rfl _
  have hlayout : normalize sum.text = normalize sum'.text := by
    rw [← String.toList_inj, hsum, hsum']
  refine ⟨⟨hlayout, hfactors hlayout⟩, ⟨?_, (hcaption _ _).mpr ?_⟩, ?_, (hcaption _ _).mpr ?_⟩
  · rw [Ne, ← String.toList_inj, hsum, hdifference]
    decide
  · refine .inr (.inl ?_)
    rw [← String.length_toList, ← String.length_toList, hsum, hdifference]
    decide
  · rw [Ne, ← String.toList_inj, hsum, hdotted]
    decide
  · refine .inr (.inr (.inl ?_))
    rw [hsum, hdotted]
    exact ⟨by decide, rfl⟩

end Tree

end Flowchart
