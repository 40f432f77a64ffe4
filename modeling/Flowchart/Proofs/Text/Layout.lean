import Flowchart.Graph.Diagram
import Flowchart.Proofs.Text.Lines
import Flowchart.Tree.Caption
import Mathlib.Data.List.Chain

set_option relaxedAutoImplicit false
set_option autoImplicit false

/-!
# Layout of labels

Which part of the layout of a text survives in a diagram. A diagram trims its labels but keeps the
blanks inside them, while the normal form that fingerprints are made of collapses these too. The two
agree on texts that are evenly spaced, and all labels that are made of captions are.

## Main definitions

* `Flowchart.Text.Spaced`: characters with single spaces between words.
* `Flowchart.Text.Normal`: characters in normal form.
* `Flowchart.Text.EvenlySpaced`, `Flowchart.Text.Solid`: evenly spaced texts, and texts without
  blanks.

## Main results

* `Flowchart.Tree.normal_caption`: captions are in normal form.
* `Flowchart.Diagram.escape_eq_of_normalize_eq`: evenly spaced labels with the same normal form are
  shown alike.
-/

namespace Flowchart

namespace Text

/-! ## Spacing -/

/-- Characters that are evenly spaced: every blank is a space, and no two blanks are adjacent. -/
structure Spaced (cs : List Char) : Prop where
  space : ∀ c ∈ cs, isBlank c = true → c = ' '
  apart : cs.IsChain fun c d => isBlank c = true → isBlank d = false

/-- Characters without blanks at their ends. -/
structure Trimmed (cs : List Char) : Prop where
  first : ∀ c ∈ cs.head?, isBlank c = false
  last : ∀ c ∈ cs.getLast?, isBlank c = false

/-- Characters in normal form: single spaces between words, and none at the ends. -/
structure Normal (cs : List Char) : Prop where
  spaced : Spaced cs
  trimmed : Trimmed cs

/-- A text that is evenly spaced. -/
def EvenlySpaced (s : String) : Prop :=
  Spaced s.toList

/-- A text without blanks. -/
def Solid (s : String) : Prop :=
  ∀ c ∈ s.toList, isBlank c = false

lemma solid_iff {s : String} : Solid s ↔ s.toList.all (fun c => !isBlank c) = true := by
  simp [Solid]

instance (s : String) : Decidable (Solid s) :=
  decidable_of_iff _ solid_iff.symm

section Spacing

variable {cs ds : List Char}

/-- A part of evenly spaced characters is evenly spaced. -/
lemma Spaced.of_isInfix (h : Spaced cs) (hds : ds <:+: cs) : Spaced ds :=
  ⟨fun c hc => h.space c (hds.subset hc), List.IsChain.infix h.apart hds⟩

/-- Evenly spaced characters are a single line. -/
lemma Spaced.lineFeed_not_mem (h : Spaced cs) : '\n' ∉ cs := fun hmem =>
  absurd (h.space _ hmem (by decide)) (by decide)

/-- Evenly spaced characters may follow others if no two blanks meet. -/
lemma Spaced.append (hcs : Spaced cs) (hds : Spaced ds)
    (hmeet : ∀ c ∈ cs.getLast?, ∀ d ∈ ds.head?, isBlank c = true → isBlank d = false) :
    Spaced (cs ++ ds) := by
  refine ⟨fun c hc => ?_, List.isChain_append.mpr ⟨hcs.apart, hds.apart, hmeet⟩⟩
  rcases List.mem_append.mp hc with hc | hc
  · exact hcs.space c hc
  · exact hds.space c hc

/-- Collapsing keeps whether a text starts with a blank. -/
lemma any_head?_collapse (cs : List Char) :
    (collapse cs).head?.any isBlank = cs.head?.any isBlank := by
  induction cs with
  | nil => rfl
  | cons c cs ih =>
    rw [collapse]
    split_ifs with hc hnext
    · rw [ih, hnext]
      simp [hc]
    · simp only [List.head?_cons, Option.any_some, hc]
      decide
    · rfl

/-- **Collapsed characters are evenly spaced.** -/
lemma spaced_collapse (cs : List Char) : Spaced (collapse cs) := by
  refine ⟨fun c hc => eq_space_of_mem_collapse hc, ?_⟩
  induction cs with
  | nil => exact .nil
  | cons c cs ih =>
    rw [collapse]
    split_ifs with hc hnext
    · exact ih
    · refine ih.cons fun d hd _ => ?_
      have hhead := any_head?_collapse cs
      rw [Option.mem_def.mp hd, Option.any_some] at hhead
      rw [hhead]
      exact Bool.eq_false_iff.mpr hnext
    · exact ih.cons fun d _ hblank => absurd hblank hc

/-- Evenly spaced characters are collapsed. -/
lemma Spaced.collapse_eq (h : Spaced cs) : collapse cs = cs := by
  induction cs with
  | nil => rfl
  | cons c cs ih =>
    obtain ⟨hnext, htail⟩ := List.isChain_cons.mp h.apart
    have hcs : Spaced cs := ⟨fun d hd => h.space d (List.mem_cons_of_mem _ hd), htail⟩
    rw [collapse, ih hcs]
    split_ifs with hc hblank
    · obtain ⟨d, hd, hdblank⟩ := (Option.any_eq_true _ _).mp hblank
      rw [hnext d hd hc] at hdblank
      cases hdblank
    · rw [h.space c List.mem_cons_self hc]
    · rfl

/-- Characters are evenly spaced if and only if they are collapsed. -/
lemma spaced_iff : Spaced cs ↔ collapse cs = cs := by
  refine ⟨Spaced.collapse_eq, fun h => ?_⟩
  rw [← h]
  exact spaced_collapse cs

instance (cs : List Char) : Decidable (Spaced cs) :=
  decidable_of_iff _ spaced_iff.symm

end Spacing

instance (s : String) : Decidable (EvenlySpaced s) :=
  inferInstanceAs (Decidable (Spaced s.toList))

/-- A text without blanks is evenly spaced. -/
lemma Solid.even {s : String} (h : Solid s) : EvenlySpaced s := by
  refine ⟨fun c hc hblank => ?_, ?_⟩
  · rw [h c hc] at hblank
    cases hblank
  · have hall : s.toList.Pairwise fun c d => isBlank c = true → isBlank d = false :=
      List.pairwise_of_forall_mem_list fun _ _ d hd _ => h d hd
    exact hall.isChain

/-- Texts without blanks in a row have none. -/
lemma Solid.append {s t : String} (hs : Solid s) (ht : Solid t) : Solid (s ++ t) := by
  intro c hc
  rw [String.toList_append] at hc
  exact (List.mem_append.mp hc).elim (hs c) (ht c)

/-- The digits of a number are no blanks. -/
lemma solid_toString (n : ℕ) : Solid (toString n) := by
  intro c hc
  rw [Nat.toString_eq_ofList_toDigits, String.toList_ofList] at hc
  have hdigit := Nat.isDigit_of_mem_toDigits (by decide) (by decide) hc
  simp only [Char.isDigit, Bool.and_eq_true, decide_eq_true_eq, ge_iff_le,
    UInt32.le_iff_toNat_le] at hdigit
  have hlow : 0x30 ≤ c.toNat := hdigit.1
  have hhigh : c.toNat ≤ 0x39 := hdigit.2
  simp only [isBlank, Bool.or_eq_false_iff, Bool.and_eq_false_iff, decide_eq_false_iff_not,
    beq_eq_false_iff_ne]
  omega

/-! ## Trimming -/

section Trimming

variable {cs : List Char}

/-- What is left behind leading blanks starts with no blank. -/
lemma isBlank_of_mem_head?_dropWhile {c : Char} (h : c ∈ (cs.dropWhile isBlank).head?) :
    isBlank c = false := by
  have hfirst := List.head?_dropWhile_not isBlank cs
  rwa [Option.mem_def.mp h] at hfirst

/-- Trimmed characters are a part of the others. -/
lemma trimBlank_isInfix (cs : List Char) : trimBlank cs <:+: cs := by
  have hback : ((cs.dropWhile isBlank).reverse.dropWhile isBlank).reverse <:+:
      (cs.dropWhile isBlank).reverse.reverse :=
    List.reverse_infix.mpr (List.dropWhile_suffix isBlank).isInfix
  rw [List.reverse_reverse] at hback
  exact hback.trans (List.dropWhile_suffix isBlank).isInfix

/-- **Trimmed characters have no blanks at their ends.** -/
lemma trimmed_trimBlank (cs : List Char) : Trimmed (trimBlank cs) := by
  set front := cs.dropWhile isBlank with hfront
  obtain ⟨blanks, hblanks⟩ := List.dropWhile_suffix (l := front.reverse) isBlank
  refine ⟨fun c hc => ?_, fun c hc => ?_⟩
  · -- the first character left is the first of what is left behind leading blanks
    rw [trimBlank, ← hfront, List.head?_reverse] at hc
    have hlast : c ∈ front.head? := by
      rw [← List.getLast?_reverse, ← hblanks, List.getLast?_append, Option.mem_def.mp hc]
      rfl
    exact isBlank_of_mem_head?_dropWhile hlast
  · rw [trimBlank, List.getLast?_reverse] at hc
    exact isBlank_of_mem_head?_dropWhile hc

/-- Nothing is dropped of characters that start with no blank. -/
lemma dropWhile_of_head? (h : ∀ c ∈ cs.head?, isBlank c = false) : cs.dropWhile isBlank = cs := by
  cases cs with
  | nil => rfl
  | cons c cs => exact List.dropWhile_cons_of_neg (by simp [h c rfl])

/-- Characters without blanks at their ends are trimmed. -/
lemma Trimmed.trimBlank_eq (h : Trimmed cs) : trimBlank cs = cs := by
  rw [trimBlank, dropWhile_of_head? h.first, dropWhile_of_head? (by simpa using h.last),
    List.reverse_reverse]

/-- Trimmed and collapsed characters are in normal form. -/
lemma normal_normalize (s : String) : Normal (normalize s).toList := by
  rw [toList_normalize]
  exact ⟨(spaced_collapse _).of_isInfix (trimBlank_isInfix _), trimmed_trimBlank _⟩

/-- **A text in normal form is its own normal form.** -/
lemma Normal.normalize_eq {s : String} (h : Normal s.toList) : normalize s = s := by
  rw [← String.toList_inj, toList_normalize, h.spaced.collapse_eq, h.trimmed.trimBlank_eq]

/-- The normal form of an evenly spaced text is the trimmed text. -/
lemma EvenlySpaced.toList_normalize {s : String} (h : EvenlySpaced s) :
    (normalize s).toList = trimBlank s.toList := by
  rw [Text.toList_normalize, h.collapse_eq]

end Trimming

/-! ## Captions -/

/-- Cutting a text keeps its normal form. -/
lemma Normal.cut {cs : List Char} (h : Normal cs) : Normal (cut cs) := by
  unfold Text.cut
  split_ifs with hlength
  · exact h
  · have hdots : Spaced ellipsis := by decide
    refine ⟨(h.spaced.of_isInfix (List.take_prefix _ _).isInfix).append hdots ?_, ?_, ?_⟩
    · rintro c - d hd -
      obtain rfl := Option.some.inj hd
      decide
    · intro c hc
      cases cs with
      | nil => exact absurd (Nat.zero_le _) hlength
      | cons d cs =>
        obtain rfl := Option.some.inj hc
        exact h.trimmed.first d rfl
    · intro c hc
      rw [List.getLast?_append] at hc
      obtain rfl := Option.some.inj hc
      decide

end Text

namespace Tree

/-- **Captions are in normal form.** -/
lemma normal_caption (t : Tree) : Text.Normal t.caption.toList := by
  rw [caption, Text.toList_shorten]
  exact (Text.normal_normalize _).cut

/-- Evenly spaced text before a caption is evenly spaced. -/
lemma even_append_caption {lead : String} (h : Text.EvenlySpaced lead) (t : Tree) :
    Text.EvenlySpaced (lead ++ t.caption) := by
  rw [Text.EvenlySpaced, String.toList_append]
  exact h.append (normal_caption t).spaced fun _ _ d hd _ => (normal_caption t).trimmed.first d hd

/-- A word and the caption of a tree, if there is one, are evenly spaced. -/
lemma even_captioned {word : String} (h : Text.EvenlySpaced (word ++ " ")) (tree : Option Tree) :
    Text.EvenlySpaced (captioned word tree) := by
  cases tree with
  | none => exact h.of_isInfix ⟨[], [' '], by simp [captioned]⟩
  | some t => exact even_append_caption h t

end Tree

/-! ## Labels in diagrams -/

namespace Diagram

section Escape

open Text

variable {cs : List Char}

/-- A blank that breaks no line is written as itself. -/
lemma escapeChar_of_blank {c : Char} (hc : isBlank c = true) (hfeed : c ≠ '\n') :
    escapeChar c = [c] := by
  have hquote : ¬ (c = '\\' ∨ c = '"') := by
    rintro (rfl | rfl) <;> exact absurd hc (by decide)
  rw [escapeChar, if_neg hquote, if_neg hfeed]

/-- The written form of a character that is no blank has no blanks at its ends. -/
lemma ends_escapeChar {c : Char} (h : isBlank c = false) :
    (∃ d, (escapeChar c).head? = some d ∧ isBlank d = false) ∧
      ∃ d, (escapeChar c).getLast? = some d ∧ isBlank d = false := by
  unfold escapeChar
  split_ifs with hquote hfeed
  · exact ⟨⟨'\\', rfl, by decide⟩, ⟨c, rfl, h⟩⟩
  · exact ⟨⟨'<', rfl, by decide⟩, ⟨'>', rfl, by decide⟩⟩
  · exact ⟨⟨c, rfl, h⟩, ⟨c, rfl, h⟩⟩

/-- Leading blanks may be dropped before or after characters are written, if blanks are written as
themselves and nothing else starts with one. -/
lemma dropWhile_flatMap {f : Char → List Char} (hblank : ∀ c ∈ cs, isBlank c = true → f c = [c])
    (hother : ∀ c ∈ cs, isBlank c = false → ∃ d, (f c).head? = some d ∧ isBlank d = false) :
    (cs.flatMap f).dropWhile isBlank = (cs.dropWhile isBlank).flatMap f := by
  induction cs with
  | nil => rfl
  | cons c cs ih =>
    obtain ⟨hblank', hblanks⟩ := List.forall_mem_cons.mp hblank
    obtain ⟨hother', hothers⟩ := List.forall_mem_cons.mp hother
    cases hc : isBlank c with
    | true =>
      rw [List.flatMap_cons, hblank' hc, List.singleton_append, List.dropWhile_cons_of_pos hc,
        List.dropWhile_cons_of_pos hc, ih hblanks hothers]
    | false =>
      obtain ⟨d, hd, hdblank⟩ := hother' hc
      obtain ⟨ds, hds⟩ := List.head?_eq_some_iff.mp hd
      rw [List.dropWhile_cons_of_neg (by simp [hc]), List.flatMap_cons, hds, List.cons_append,
        List.dropWhile_cons_of_neg (by simp [hdblank])]

/-- **The characters of a single line** may be trimmed before or after they are written. -/
lemma trimBlank_escape (h : '\n' ∉ cs) :
    trimBlank (cs.flatMap escapeChar) = (trimBlank cs).flatMap escapeChar := by
  have hspace : ∀ c ∈ cs, isBlank c = true → escapeChar c = [c] := fun c hc hblank =>
    escapeChar_of_blank hblank (ne_of_mem_of_not_mem hc h)
  have hfront : (cs.flatMap escapeChar).dropWhile isBlank =
      (cs.dropWhile isBlank).flatMap escapeChar :=
    dropWhile_flatMap hspace fun c _ hc => (ends_escapeChar hc).1
  have hback : ((cs.dropWhile isBlank).reverse.flatMap (List.reverse ∘ escapeChar)).dropWhile
      isBlank =
      ((cs.dropWhile isBlank).reverse.dropWhile isBlank).flatMap (List.reverse ∘ escapeChar) := by
    refine dropWhile_flatMap (fun c hc hblank => ?_) fun c _ hc => ?_
    · have hmem := List.dropWhile_subset _ (List.mem_reverse.mp hc)
      rw [Function.comp_apply, hspace c hmem hblank, List.reverse_singleton]
    · rw [Function.comp_apply, List.head?_reverse]
      exact (ends_escapeChar hc).2
  rw [trimBlank, hfront, List.reverse_flatMap, hback, List.reverse_flatMap, trimBlank]
  simp [Function.comp_def]

/-- **Evenly spaced labels with the same normal form** are shown alike. -/
lemma escape_eq_of_normalize_eq {l l' : String} (h : EvenlySpaced l) (h' : EvenlySpaced l')
    (heq : normalize l = normalize l') : escape l = escape l' := by
  have htrim : trimBlank l.toList = trimBlank l'.toList := by
    rw [← h.toList_normalize, ← h'.toList_normalize, heq]
  rw [escape, escape, trimBlank_escape h.lineFeed_not_mem, trimBlank_escape h'.lineFeed_not_mem,
    htrim]

end Escape

end Diagram

end Flowchart
