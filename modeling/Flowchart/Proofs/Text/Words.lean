import Flowchart.Proofs.Text.Layout
import Mathlib.Data.List.TakeWhile

set_option relaxedAutoImplicit false
set_option autoImplicit false

/-!
# Words

The words of a text are its runs of characters without blanks, each at its full length. The normal
form of a text consists of its words and of single spaces between them. So texts have the same
normal form exactly if they have the same words in the same order, and nothing but their layout may
differ.

## Main definitions

* `Flowchart.Text.words`: the words of a text in their order.
* `Flowchart.Text.Stretch.IsWordOf`: a stretch of a text that is a word at its full length.
* `Flowchart.Text.Locates`: all stretches of a text that are words, from left to right.

## Main results

* `Flowchart.Text.exists_locates`: the words of a text are what stands at the stretches of it that
  are words at their full length.
* `Flowchart.Text.toList_normalize_eq_intercalate`: the normal form of a text is made of its words.
* `Flowchart.Text.normalize_eq_iff`: texts have the same normal form exactly if they have the same
  words.
-/

namespace Flowchart.Text

variable {c : Char} {w cs : List Char}

/-! ## The words of a text -/

/-- The words of a text: what stands between its blanks, as far as anything does. -/
def words (cs : List Char) : List (List Char) :=
  (cs.splitOnP isBlank).filter fun w => !w.isEmpty

/-- Characters that make a word: at least one, and no blank among them. -/
structure IsWord (w : List Char) : Prop where
  nonempty : w ≠ []
  solid : ∀ c ∈ w, isBlank c = false

/-- Characters that no word before them runs on into: the first is a blank, if there is one. -/
def BlankFirst (cs : List Char) : Prop :=
  ∀ c ∈ cs.head?, isBlank c = true

/-- Characters that do not run on into a word behind them: the last is a blank, if there is one. -/
def BlankLast (cs : List Char) : Prop :=
  ∀ c ∈ cs.getLast?, isBlank c = true

/-- The first character of a word is no blank. -/
lemma IsWord.not_blankFirst (hw : IsWord w) (cs : List Char) : ¬ BlankFirst (w ++ cs) := by
  obtain ⟨c, tail, rfl⟩ := List.exists_cons_of_ne_nil hw.nonempty
  intro h
  have hblank : isBlank c = true := h c rfl
  rw [hw.solid c List.mem_cons_self] at hblank
  cases hblank

/-- The last character of a word is no blank. -/
lemma IsWord.not_blankLast (hw : IsWord w) : ¬ BlankLast w := by
  intro h
  have hblank := h _ (List.getLast?_eq_some_getLast hw.nonempty)
  rw [hw.solid _ (List.getLast_mem hw.nonempty)] at hblank
  cases hblank

/-- A word is all that comes before the next blank. -/
lemma IsWord.takeWhile_append (hw : IsWord w) (hcs : BlankFirst cs) :
    (w ++ cs).takeWhile (fun c => !isBlank c) = w := by
  rw [List.takeWhile_append_of_pos (by simpa using hw.solid)]
  cases cs with
  | nil => simp
  | cons c cs => simp [hcs c rfl]

@[simp] lemma words_nil : words [] = [] := rfl

/-- A blank is no part of a word. -/
lemma words_cons_blank (hc : isBlank c = true) (cs : List Char) : words (c :: cs) = words cs := by
  rw [words, List.splitOnP_cons_eq_if_modifyHead, if_pos hc, List.filter_cons_of_neg (by simp),
    words]

/-- A word ends before a blank. -/
lemma words_append (hw : IsWord w) (hcs : BlankFirst cs) : words (w ++ cs) = w :: words cs := by
  have hkeep : (!w.isEmpty) = true := by simpa using hw.nonempty
  cases cs with
  | nil =>
    rw [List.append_nil, words, List.splitOnP_eq_singleton hw.solid, List.filter_cons, if_pos hkeep]
    rfl
  | cons c cs =>
    have hc : isBlank c = true := hcs c rfl
    rw [words_cons_blank hc, words, List.splitOnP_append_cons_of_forall_mem hw.solid c hc,
      List.filter_cons, if_pos hkeep, words]

/-- **Induction on the words of a text**: a text is empty, or it starts with a blank or with a word
at its full length. -/
@[elab_as_elim]
lemma word_induction {motive : List Char → Prop} (nil : motive [])
    (blank : ∀ c cs, isBlank c = true → motive cs → motive (c :: cs))
    (word : ∀ w cs, IsWord w → BlankFirst cs → motive cs → motive (w ++ cs)) :
    ∀ cs, motive cs
  | [] => nil
  | c :: cs => by
    cases hc : isBlank c with
    | true => exact blank c cs hc (word_induction nil blank word cs)
    | false =>
      let tail := cs.takeWhile fun d => !isBlank d
      let rest := cs.dropWhile fun d => !isBlank d
      have hword : IsWord (c :: tail) := by
        refine ⟨List.cons_ne_nil _ _, List.forall_mem_cons.mpr ⟨hc, fun d hd => ?_⟩⟩
        simpa using List.mem_takeWhile_imp hd
      have hrest : BlankFirst rest := by
        intro d hd
        have hfirst := List.head?_dropWhile_not (fun d => !isBlank d) cs
        rw [Option.mem_def.mp hd] at hfirst
        simpa using hfirst
      have hsplit : c :: tail ++ rest = c :: cs :=
        congrArg (c :: ·) List.takeWhile_append_dropWhile
      rw [← hsplit]
      exact word _ rest hword hrest (word_induction nil blank word rest)
termination_by cs => cs.length
decreasing_by
  · exact Nat.lt_succ_of_le (List.length_dropWhile_le _ _)
  · exact Nat.lt_succ_self _

/-! ## Where words stand -/

/-- A stretch of a text, with what stands before it and behind it. -/
structure Stretch where
  front : List Char
  run : List Char
  back : List Char

namespace Stretch

/-- Whether a stretch is a word of a text at its full length: there is no blank in it, and on either
side of it the text ends or has a blank, so that no longer stretch is a word too. -/
structure IsWordOf (r : Stretch) (cs : List Char) : Prop where
  whole : r.front ++ (r.run ++ r.back) = cs
  isWord : IsWord r.run
  front : BlankLast r.front
  back : BlankFirst r.back

/-- The same stretch of a text that has more characters at its beginning. -/
def behind (w : List Char) (r : Stretch) : Stretch :=
  { r with front := w ++ r.front }

variable {r : Stretch}

/-- A word stays a word behind other characters, if these do not run on into it. -/
lemma IsWordOf.behind (h : r.IsWordOf cs) (hw : r.front = [] → BlankLast w) :
    (r.behind w).IsWordOf (w ++ cs) where
  whole := by rw [Stretch.behind, List.append_assoc, h.whole]
  isWord := h.isWord
  front := by
    by_cases hnil : r.front = []
    · simpa [Stretch.behind, hnil] using hw hnil
    · intro c hc
      rw [Stretch.behind, List.getLast?_append_of_ne_nil _ hnil] at hc
      exact h.front c hc
  back := h.back

/-- A word behind other characters is a word without them. -/
lemma IsWordOf.of_behind (h : (r.behind w).IsWordOf (w ++ cs)) : r.IsWordOf cs where
  whole := by
    have hwhole := h.whole
    rw [Stretch.behind, List.append_assoc] at hwhole
    exact List.append_cancel_left hwhole
  isWord := h.isWord
  front := fun c hc => h.front c <| by
    rw [Stretch.behind, List.getLast?_append, Option.mem_def.mp hc]
    rfl
  back := h.back

/-- No word stands before a blank at the beginning. -/
lemma IsWordOf.front_ne_nil (h : r.IsWordOf cs) (hcs : BlankFirst cs) : r.front ≠ [] := by
  intro hnil
  have hwhole := h.whole
  rw [hnil, List.nil_append] at hwhole
  exact h.isWord.not_blankFirst r.back (hwhole ▸ hcs)

/-- A word at the beginning of a text is the only one there. -/
lemma IsWordOf.eq_of_front (h : r.IsWordOf (w ++ cs)) (hw : IsWord w) (hcs : BlankFirst cs)
    (hnil : r.front = []) : r = ⟨[], w, cs⟩ := by
  have hwhole := h.whole
  rw [hnil, List.nil_append] at hwhole
  have hrun : r.run = w := by
    rw [← h.isWord.takeWhile_append h.back, hwhole, hw.takeWhile_append hcs]
  rw [hrun] at hwhole
  have hback : r.back = cs := List.append_cancel_left hwhole
  rw [← hnil, ← hrun, ← hback]

/-- Every other word stands behind the first one. -/
lemma IsWordOf.exists_behind (h : r.IsWordOf (w ++ cs)) (hw : IsWord w) (hnil : r.front ≠ []) :
    ∃ r' : Stretch, r = r'.behind w := by
  rcases List.append_eq_append_iff.mp h.whole with ⟨tail, htail, -⟩ | ⟨front, hfront, -⟩
  · -- else a part of the word `w` would stand before `r`
    have hword : IsWord r.front :=
      ⟨hnil, fun c hc => hw.solid c (htail ▸ List.mem_append_left _ hc)⟩
    exact absurd h.front hword.not_blankLast
  · exact ⟨⟨front, r.run, r.back⟩, by rw [Stretch.behind, ← hfront]⟩

end Stretch

/-- Whether stretches are all the words of a text, each once and from left to right. -/
structure Locates (cs : List Char) (rs : List Stretch) : Prop where
  increasing : rs.Pairwise fun r r' => r.front.length < r'.front.length
  mem_iff : ∀ r, r ∈ rs ↔ r.IsWordOf cs

namespace Locates

variable {rs : List Stretch}

/-- Further characters at the beginning move all words alike. -/
lemma increasing_behind (h : Locates cs rs) (w : List Char) :
    (rs.map (Stretch.behind w)).Pairwise fun r r' => r.front.length < r'.front.length := by
  rw [List.pairwise_map]
  refine h.increasing.imp fun {r r'} hlt => ?_
  simp only [Stretch.behind, List.length_append]
  omega

/-- The empty text has no words. -/
lemma nil : Locates [] [] where
  increasing := .nil
  mem_iff := by
    intro r
    refine iff_of_false List.not_mem_nil fun h => ?_
    have hrun := (List.append_eq_nil_iff.mp (List.append_eq_nil_iff.mp h.whole).2).1
    exact h.isWord.nonempty hrun

/-- A blank at the beginning is before all words. -/
lemma blank (hc : isBlank c = true) (h : Locates cs rs) :
    Locates (c :: cs) (rs.map (.behind [c])) where
  increasing := h.increasing_behind [c]
  mem_iff := by
    intro r
    have hfirst : BlankFirst (c :: cs) := fun d hd => Option.some.inj hd ▸ hc
    have hlast : BlankLast [c] := fun d hd => Option.some.inj hd ▸ hc
    rw [List.mem_map]
    constructor
    · rintro ⟨r', hr', rfl⟩
      exact ((h.mem_iff r').mp hr').behind fun _ => hlast
    · intro hr
      obtain ⟨d, front, hfront⟩ := List.exists_cons_of_ne_nil (hr.front_ne_nil hfirst)
      have hwhole := hr.whole
      rw [hfront] at hwhole
      obtain rfl : d = c := (List.cons.inj hwhole).1
      have heq : Stretch.behind [d] ⟨front, r.run, r.back⟩ = r := by
        rw [Stretch.behind, List.singleton_append, ← hfront]
      exact ⟨_, (h.mem_iff _).mpr (Stretch.IsWordOf.of_behind (heq ▸ hr)), heq⟩

/-- A word at the beginning is before all others. -/
lemma word (hw : IsWord w) (hcs : BlankFirst cs) (h : Locates cs rs) :
    Locates (w ++ cs) (⟨[], w, cs⟩ :: rs.map (.behind w)) where
  increasing := by
    refine List.pairwise_cons.mpr ⟨fun r hr => ?_, h.increasing_behind w⟩
    obtain ⟨r', -, rfl⟩ := List.mem_map.mp hr
    have hlength := List.length_pos_of_ne_nil hw.nonempty
    simp only [Stretch.behind, List.length_nil, List.length_append]
    omega
  mem_iff := by
    intro r
    rw [List.mem_cons, List.mem_map]
    constructor
    · rintro (rfl | ⟨r', hr', rfl⟩)
      · exact ⟨rfl, hw, nofun, hcs⟩
      · have hword := (h.mem_iff r').mp hr'
        exact hword.behind fun hnil => absurd hnil (hword.front_ne_nil hcs)
    · intro hr
      by_cases hnil : r.front = []
      · exact .inl (hr.eq_of_front hw hcs hnil)
      · obtain ⟨r', rfl⟩ := hr.exists_behind hw hnil
        exact .inr ⟨r', (h.mem_iff r').mpr hr.of_behind, rfl⟩

end Locates

/-- **The words of a text** are what stands at the stretches of it that are words at their full
length, from left to right. -/
lemma exists_locates (cs : List Char) :
    ∃ rs, Locates cs rs ∧ rs.map Stretch.run = words cs := by
  induction cs using word_induction with
  | nil => exact ⟨[], .nil, rfl⟩
  | blank c cs hc ih =>
    obtain ⟨rs, hrs, hruns⟩ := ih
    refine ⟨_, hrs.blank hc, ?_⟩
    rw [words_cons_blank hc, ← hruns, List.map_map]
    rfl
  | word w cs hw hcs ih =>
    obtain ⟨rs, hrs, hruns⟩ := ih
    refine ⟨_, hrs.word hw hcs, ?_⟩
    rw [words_append hw hcs, ← hruns, List.map_cons, List.map_map]
    rfl

/-! ## Words in normal forms -/

/-- A word is collapsed. -/
lemma collapse_append (hw : ∀ c ∈ w, isBlank c = false) (cs : List Char) :
    collapse (w ++ cs) = w ++ collapse cs := by
  induction w with
  | nil => rfl
  | cons c w ih =>
    obtain ⟨hc, hw⟩ := List.forall_mem_cons.mp hw
    rw [List.cons_append, collapse, if_neg (by simp [hc]), ih hw, List.cons_append]

/-- Collapsing keeps that no word runs on into a text. -/
lemma BlankFirst.collapse (h : BlankFirst cs) : BlankFirst (collapse cs) := by
  cases cs with
  | nil => exact h
  | cons c cs =>
    intro d hd
    have hhead := any_head?_collapse (c :: cs)
    rw [Option.mem_def.mp hd] at hhead
    exact hhead.trans (h c rfl)

/-- **Collapsing keeps the words** of a text. -/
lemma words_collapse (cs : List Char) : words (collapse cs) = words cs := by
  induction cs using word_induction with
  | nil => rfl
  | blank c cs hc ih =>
    rw [words_cons_blank hc, collapse, if_pos hc]
    split_ifs
    · exact ih
    · rw [words_cons_blank (by decide), ih]
  | word w cs hw hcs ih =>
    rw [collapse_append hw.solid, words_append hw hcs.collapse, words_append hw hcs, ih]

/-- Blanks at the beginning are no part of a word. -/
lemma words_dropWhile (cs : List Char) : words (cs.dropWhile isBlank) = words cs := by
  induction cs with
  | nil => rfl
  | cons c cs ih =>
    cases hc : isBlank c with
    | true => rw [List.dropWhile_cons_of_pos hc, ih, words_cons_blank hc]
    | false => rw [List.dropWhile_cons_of_neg (by simp [hc])]

/-- Blanks at the end are no part of a word. -/
lemma words_append_blanks {blanks : List Char} (h : ∀ c ∈ blanks, isBlank c = true)
    (cs : List Char) : words (cs ++ blanks) = words cs := by
  have hblanks : words blanks = [] := by
    have hdrop : blanks.dropWhile isBlank = [] := List.dropWhile_eq_nil_iff.mpr h
    rw [← words_dropWhile, hdrop, words_nil]
  induction cs using word_induction with
  | nil => exact hblanks
  | blank c cs hc ih => rw [List.cons_append, words_cons_blank hc, ih, words_cons_blank hc]
  | word w cs hw hcs ih =>
    have hfirst : BlankFirst (cs ++ blanks) := by
      intro c hc
      cases cs with
      | nil => exact h c (List.mem_of_mem_head? hc)
      | cons d cs => exact hcs c hc
    rw [List.append_assoc, words_append hw hfirst, ih, words_append hw hcs]

/-- **Trimming keeps the words** of a text. -/
lemma words_trimBlank (cs : List Char) : words (trimBlank cs) = words cs := by
  let front := cs.dropWhile isBlank
  let blanks := (front.reverse.takeWhile isBlank).reverse
  have hsplit : trimBlank cs ++ blanks = front := by
    rw [trimBlank, ← List.reverse_append, List.takeWhile_append_dropWhile, List.reverse_reverse]
  have hblanks : ∀ c ∈ blanks, isBlank c = true := fun c hc =>
    List.mem_takeWhile_imp (List.mem_reverse.mp hc)
  calc
    words (trimBlank cs) = words (trimBlank cs ++ blanks) := (words_append_blanks hblanks _).symm
    _ = words front := by rw [hsplit]
    _ = words cs := words_dropWhile cs

/-- **The normal form of a text** has the words of the text. -/
lemma words_normalize (s : String) : words (normalize s).toList = words s.toList := by
  rw [toList_normalize, words_trimBlank, words_collapse]

/-- Behind its leading blanks an evenly spaced text that ends in no blank consists of its words,
with single spaces between them. -/
lemma Spaced.intercalate_words (h : Spaced cs) (hlast : ∀ c ∈ cs.getLast?, isBlank c = false) :
    [' '].intercalate (words cs) = cs.dropWhile isBlank := by
  induction cs using word_induction with
  | nil => rfl
  | blank c cs hc ih =>
    rw [words_cons_blank hc, List.dropWhile_cons_of_pos hc]
    refine ih (h.of_isInfix (List.suffix_cons c cs).isInfix) fun d hd => hlast d ?_
    rw [List.getLast?_cons, Option.mem_def.mp hd]
    rfl
  | word w cs hw hcs ih =>
    have hfirst : ∀ c ∈ (w ++ cs).head?, isBlank c = false := by
      intro c hc
      rw [List.head?_append_of_ne_nil _ hw.nonempty] at hc
      exact hw.solid c (List.mem_of_mem_head? hc)
    rw [words_append hw hcs, dropWhile_of_head? hfirst]
    cases cs with
    | nil => simp
    | cons c cs =>
      have hspaced : Spaced (c :: cs) := h.of_isInfix (List.suffix_append w _).isInfix
      have hc : isBlank c = true := hcs c rfl
      obtain ⟨hnext, -⟩ := List.isChain_cons.mp hspaced.apart
      have hrest : [' '].intercalate (words (c :: cs)) = cs := by
        rw [ih hspaced fun d hd => hlast d (List.mem_getLast?_append_of_mem_getLast? hd),
          List.dropWhile_cons_of_pos hc, dropWhile_of_head? fun d hd => hnext d hd hc]
      -- a word follows the space, since the text does not end in it
      have hne : words (c :: cs) ≠ [] := by
        intro hnil
        rw [hnil] at hrest
        have hblank := hlast c (by simp [← hrest])
        rw [hc] at hblank
        cases hblank
      rw [List.intercalate_cons_of_ne_nil hne, hrest, hspaced.space c List.mem_cons_self hc]
      simp

/-- **Characters in normal form** are their words, with single spaces between them. -/
lemma Normal.intercalate_words (h : Normal cs) : [' '].intercalate (words cs) = cs := by
  rw [h.spaced.intercalate_words h.trimmed.last, dropWhile_of_head? h.trimmed.first]

/-- **The normal form of a text** is made of the words of the text. -/
lemma toList_normalize_eq_intercalate (s : String) :
    (normalize s).toList = [' '].intercalate (words s.toList) := by
  rw [← words_normalize, (normal_normalize s).intercalate_words]

/-- **Texts have the same normal form** exactly if they have the same words in the same order. -/
lemma normalize_eq_iff {s t : String} : normalize s = normalize t ↔
    words s.toList = words t.toList := by
  constructor
  · intro h
    rw [← words_normalize s, h, words_normalize]
  · intro h
    rw [← String.toList_inj, toList_normalize_eq_intercalate, h,
      ← toList_normalize_eq_intercalate]

end Flowchart.Text
