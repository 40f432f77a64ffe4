import Flowchart.Text.Spacing
import Mathlib.Data.List.Induction
import Mathlib.Tactic.Common

set_option relaxedAutoImplicit false
set_option autoImplicit false

/-!
# Lines

Texts that are joined from lines, and what can be read back from them. A line that holds a separator
only once falls apart there in one way, and a text falls apart into whatever stands before its lines
and the lines themselves, if the first of the lines can be told from the others.

## Main definitions

* `Flowchart.Text.newLines`: lines, each behind a line feed.

## Main results

* `Flowchart.Text.newLines_inj`: what stands before the last line of a sort, that line, and the
  lines behind it are determined by the whole text.
* `Flowchart.Text.lineFeed_not_mem_normalize`: a text in normal form is a single line.
-/

namespace Flowchart.Text

/-! ## Separators -/

section Separators

variable {α : Type} {x : α} {a a' b b' : List α}

/-- The elements of one sort at the beginning, the first of another sort and what is behind it are
determined by the whole. -/
lemma split_end {p : α → Prop} {y y' : α} (ha : ∀ z ∈ a, p z) (ha' : ∀ z ∈ a', p z) (hy : ¬ p y)
    (hy' : ¬ p y') (h : a ++ y :: b = a' ++ y' :: b') : a = a' ∧ y = y' ∧ b = b' := by
  induction a generalizing a' with
  | nil =>
    cases a' with
    | nil => exact ⟨rfl, List.cons.inj h⟩
    | cons z a' => exact absurd ((List.cons.inj h).1 ▸ ha' z List.mem_cons_self) hy
  | cons z a ih =>
    cases a' with
    | nil => exact absurd ((List.cons.inj h).1 ▸ ha z List.mem_cons_self) hy'
    | cons z' a' =>
      obtain ⟨rfl, hrest⟩ := List.cons.inj h
      obtain ⟨rfl, hends⟩ := ih (fun z hz => ha z (List.mem_cons_of_mem _ hz))
        (fun z hz => ha' z (List.mem_cons_of_mem _ hz)) hrest
      exact ⟨rfl, hends⟩

/-- What stands before the first separator and behind it is determined by the whole. -/
lemma split_first (ha : x ∉ a) (ha' : x ∉ a') (h : a ++ x :: b = a' ++ x :: b') :
    a = a' ∧ b = b' := by
  obtain ⟨hfront, -, hback⟩ := split_end (p := (· ≠ x)) (fun _ hz => ne_of_mem_of_not_mem hz ha)
    (fun _ hz => ne_of_mem_of_not_mem hz ha') (by simp) (by simp) h
  exact ⟨hfront, hback⟩

/-- What stands before the last separator and behind it is determined by the whole. -/
lemma split_last (hb : x ∉ b) (hb' : x ∉ b') (h : a ++ x :: b = a' ++ x :: b') :
    a = a' ∧ b = b' := by
  have hreverse : b.reverse ++ x :: a.reverse = b'.reverse ++ x :: a'.reverse := by
    simpa using congrArg List.reverse h
  obtain ⟨hbs, has⟩ := split_first (by simpa using hb) (by simpa using hb') hreverse
  exact ⟨List.reverse_inj.mp has, List.reverse_inj.mp hbs⟩

/-- Two rows of different sorts, one behind the other, are determined by the whole. -/
lemma split_sorts {p : α → Prop} (ha : ∀ y ∈ a, p y) (ha' : ∀ y ∈ a', p y) (hb : ∀ y ∈ b, ¬ p y)
    (hb' : ∀ y ∈ b', ¬ p y) (h : a ++ b = a' ++ b') : a = a' ∧ b = b' := by
  induction a generalizing a' with
  | nil =>
    cases a' with
    | nil => exact ⟨rfl, h⟩
    | cons y a' =>
      have hy : y ∈ b := by
        rw [show b = y :: (a' ++ b') from h]
        exact List.mem_cons_self
      exact absurd (ha' y List.mem_cons_self) (hb y hy)
  | cons y a ih =>
    cases a' with
    | nil =>
      have hy : y ∈ b' := by
        rw [show b' = y :: (a ++ b) from h.symm]
        exact List.mem_cons_self
      exact absurd (ha y List.mem_cons_self) (hb' y hy)
    | cons y' a' =>
      obtain ⟨rfl, hrest⟩ := List.cons.inj h
      obtain ⟨rfl, rfl⟩ := ih (fun z hz => ha z (List.mem_cons_of_mem _ hz))
        (fun z hz => ha' z (List.mem_cons_of_mem _ hz)) hrest
      exact ⟨rfl, rfl⟩

end Separators

/-! ## Joined lines -/

/-- Lines, each behind a line feed. -/
def newLines (ls : List (List Char)) : List Char :=
  ls.flatMap fun l => '\n' :: l

/-- A text that is joined from lines is the first line and then the others, each behind a line feed.
-/
lemma toList_intercalate (l : String) (ls : List String) :
    ("\n".intercalate (l :: ls)).toList = l.toList ++ newLines (ls.map String.toList) := by
  induction ls generalizing l with
  | nil => simp [newLines]
  | cons l' ls ih =>
    rw [String.intercalate_cons_cons, String.toList_append, String.toList_append, ih]
    simp [newLines]

/-- **Lines behind a text.** If texts that end in lines are equal, the lines of one of them are the
last lines of the other.

**Proof sketch.** Induction on the lines from the last one on: the last line stands behind the last
line feed. -/
lemma newLines_suffix {o o' : List Char} {ls ls' : List (List Char)} (hls : ∀ l ∈ ls, '\n' ∉ l)
    (hls' : ∀ l ∈ ls', '\n' ∉ l) (h : o ++ newLines ls = o' ++ newLines ls') :
    ∃ pre, (ls = pre ++ ls' ∧ o' = o ++ newLines pre) ∨
      (ls' = pre ++ ls ∧ o = o' ++ newLines pre) := by
  induction ls using List.reverseRecOn generalizing ls' with
  | nil => exact ⟨ls', .inr ⟨(List.append_nil ls').symm, by simpa [newLines] using h⟩⟩
  | append_singleton init l ih =>
    rcases List.eq_nil_or_concat ls' with rfl | ⟨init', l', rfl⟩
    · exact ⟨init ++ [l], .inl ⟨(List.append_nil _).symm, by simpa [newLines] using h.symm⟩⟩
    · rw [List.concat_eq_append] at h hls' ⊢
      have hlast : (o ++ newLines init) ++ '\n' :: l = (o' ++ newLines init') ++ '\n' :: l' := by
        simpa [newLines] using h
      obtain ⟨hinit, rfl⟩ := split_last (hls l (by simp)) (hls' l' (by simp)) hlast
      obtain ⟨pre, ⟨rfl, ho⟩ | ⟨rfl, ho⟩⟩ :=
        ih (fun k hk => hls k (by simp [hk])) (fun k hk => hls' k (by simp [hk])) hinit
      · exact ⟨pre, .inl ⟨List.append_assoc _ _ _, ho⟩⟩
      · exact ⟨pre, .inr ⟨List.append_assoc _ _ _, ho⟩⟩

/-- **The last line of a sort** in a text determines the text before it and the lines behind it, as
long as no line behind it is of that sort. -/
lemma newLines_inj {p : List Char → Prop} {o o' m m' : List Char} {ls ls' : List (List Char)}
    (hfeed : ∀ l ∈ m :: ls, '\n' ∉ l) (hfeed' : ∀ l ∈ m' :: ls', '\n' ∉ l) (hm : p m) (hm' : p m')
    (hls : ∀ l ∈ ls, ¬ p l) (hls' : ∀ l ∈ ls', ¬ p l)
    (h : o ++ newLines (m :: ls) = o' ++ newLines (m' :: ls')) : o = o' ∧ m = m' ∧ ls = ls' := by
  obtain ⟨pre, ⟨hpre, ho⟩ | ⟨hpre, ho⟩⟩ := newLines_suffix hfeed hfeed' h
  · cases pre with
    | nil =>
      obtain ⟨rfl, rfl⟩ := List.cons.inj hpre
      exact ⟨by simpa [newLines] using ho.symm, rfl, rfl⟩
    | cons l pre =>
      have hmem : m' ∈ ls := by
        rw [(List.cons.inj hpre).2]
        simp
      exact absurd hm' (hls m' hmem)
  · cases pre with
    | nil =>
      obtain ⟨rfl, rfl⟩ := List.cons.inj hpre
      exact ⟨by simpa [newLines] using ho, rfl, rfl⟩
    | cons l pre =>
      have hmem : m ∈ ls' := by
        rw [(List.cons.inj hpre).2]
        simp
      exact absurd hm (hls' m hmem)

/-! ## Normal forms -/

/-- Every blank in a collapsed text is a space. -/
lemma eq_space_of_mem_collapse {cs : List Char} {c : Char} (h : c ∈ collapse cs)
    (hc : isBlank c = true) : c = ' ' := by
  induction cs with
  | nil => cases h
  | cons d cs ih =>
    rw [collapse] at h
    split_ifs at h with hd hnext
    · exact ih h
    · rcases List.mem_cons.mp h with rfl | h
      · rfl
      · exact ih h
    · rcases List.mem_cons.mp h with rfl | h
      · exact absurd hc hd
      · exact ih h

/-- Trimming adds nothing. -/
lemma mem_of_mem_trimBlank {cs : List Char} {c : Char} (h : c ∈ trimBlank cs) : c ∈ cs := by
  have hback := List.dropWhile_subset _ (List.mem_reverse.mp h)
  exact List.dropWhile_subset _ (List.mem_reverse.mp hback)

/-- **A text in normal form is a single line.** -/
lemma lineFeed_not_mem_normalize (s : String) : '\n' ∉ (normalize s).toList := by
  intro h
  rw [toList_normalize] at h
  have hspace := eq_space_of_mem_collapse (mem_of_mem_trimBlank h) (by decide)
  exact absurd hspace (by decide)

end Flowchart.Text
