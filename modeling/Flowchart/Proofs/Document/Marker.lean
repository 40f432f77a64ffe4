import Flowchart.Document.Marker
import Mathlib.Data.List.Basic
import Mathlib.Data.List.Chain
import Mathlib.Data.List.TakeWhile
import Mathlib.Tactic.Common

set_option relaxedAutoImplicit false
set_option autoImplicit false

/-!
# Finding markers

A marker is made of few characters, and the opening bracket stands only at its start. So whether a
marker stands somewhere is not changed by what follows behind any other character, and the markers
of a text are those up to such a character and those from there on: nothing before or behind a
marker hides it or merges with it.

## Main definitions

* `Flowchart.Marker.Foreign`: the characters that stand in no marker but at its start.
* `Flowchart.Marker.IsMarker`: the texts that are markers.
* `Flowchart.Marker.Records`: what a text records wherever it stands.

## Main results

* `Flowchart.Marker.recordedDigits_append`: a text may be cut in front of any foreign character.
* `Flowchart.Marker.recorded_append_render`: a marker is found whatever stands around it.
* `Flowchart.Marker.Records.intercalate`: lines in a row record what each of them does.
-/

namespace Flowchart

namespace Marker

/-! ## Reading up to a foreign character -/

/-- A character that stands in no marker, but for the bracket at its start. -/
structure Foreign (x : Char) : Prop where
  blank : Text.isBlank x = false
  digit : Text.isHexDigit x = false
  opening : x ∉ "!--".toList
  word : x ∉ "flow-hash:".toList
  closing : x ∉ "-->".toList

instance (x : Char) : Decidable (Foreign x) :=
  decidable_of_iff (Text.isBlank x = false ∧ Text.isHexDigit x = false ∧ x ∉ "!--".toList ∧
      x ∉ "flow-hash:".toList ∧ x ∉ "-->".toList)
    ⟨fun ⟨h₁, h₂, h₃, h₄, h₅⟩ => ⟨h₁, h₂, h₃, h₄, h₅⟩,
      fun ⟨h₁, h₂, h₃, h₄, h₅⟩ => ⟨h₁, h₂, h₃, h₄, h₅⟩⟩

section Foreign

variable {x : Char} {p : Char → Bool} {pattern : List Char} (cs rest : List Char)

/-- A class of characters without `x` is dropped up to `x` at most. -/
lemma dropWhile_foreign (hp : p x = false) :
    (cs ++ x :: rest).dropWhile p = cs.dropWhile p ++ x :: rest := by
  induction cs with
  | nil => simp [hp]
  | cons c cs ih =>
    rw [List.cons_append, List.dropWhile_cons, List.dropWhile_cons, ih]
    split_ifs <;> rfl

/-- A class of characters without `x` is taken up to `x` at most. -/
lemma takeWhile_foreign (hp : p x = false) :
    (cs ++ x :: rest).takeWhile p = cs.takeWhile p := by
  induction cs with
  | nil => simp [hp]
  | cons c cs ih =>
    rw [List.cons_append, List.takeWhile_cons, List.takeWhile_cons, ih]

/-- A word without `x` is read before `x` or not at all. -/
lemma isPrefixOf?_foreign (h : x ∉ pattern) :
    pattern.isPrefixOf? (cs ++ x :: rest) =
      (pattern.isPrefixOf? cs).map fun tail => tail ++ x :: rest := by
  induction pattern generalizing cs with
  | nil => rfl
  | cons y pattern ih =>
    obtain ⟨hy, hpattern⟩ := not_or.mp (fun hor => h (List.mem_cons.mpr hor))
    cases cs with
    | nil => simp [List.isPrefixOf?, Ne.symm hy]
    | cons c cs =>
      rw [List.cons_append, List.isPrefixOf?, List.isPrefixOf?, ih cs hpattern]
      split_ifs <;> rfl

end Foreign

/-! ## Cutting a text -/

variable {x : Char}

/-- **What follows behind a place from a foreign character on** does not change whether a marker
stands there. -/
lemma digitsAt?_foreign (hx : Foreign x) (c : Char) (cs rest : List Char) :
    digitsAt? (c :: (cs ++ x :: rest)) = digitsAt? (c :: cs) := by
  have hopening : ∀ tail, "<!--".toList.isPrefixOf? (c :: tail) =
      if '<' == c then "!--".toList.isPrefixOf? tail else none := fun _ => rfl
  have hblank : ∀ cs, (cs ++ x :: rest).dropWhile Text.isBlank =
      cs.dropWhile Text.isBlank ++ x :: rest := fun cs => dropWhile_foreign cs rest hx.blank
  have hhex : ∀ cs, (cs ++ x :: rest).dropWhile Text.isHexDigit =
      cs.dropWhile Text.isHexDigit ++ x :: rest := fun cs => dropWhile_foreign cs rest hx.digit
  unfold digitsAt?
  rw [hopening, hopening, isPrefixOf?_foreign cs rest hx.opening]
  split_ifs
  · cases "!--".toList.isPrefixOf? cs with
    | none => rfl
    | some cs₁ =>
      simp only [Option.map_some, Option.bind_eq_bind, Option.bind_some, hblank]
      rw [isPrefixOf?_foreign _ rest hx.word]
      cases "flow-hash:".toList.isPrefixOf? (cs₁.dropWhile Text.isBlank) with
      | none => rfl
      | some cs₂ =>
        simp only [Option.map_some, Option.bind_some, hblank, hhex]
        rw [takeWhile_foreign _ rest hx.digit, isPrefixOf?_foreign _ rest hx.closing,
          Option.isSome_map]
  · rfl

/-- **A text may be cut in front of any foreign character**: its markers are those of both parts. -/
lemma recordedDigits_append (hx : Foreign x) (cs rest : List Char) :
    recordedDigits (cs ++ x :: rest) = recordedDigits cs ++ recordedDigits (x :: rest) := by
  induction cs with
  | nil => rfl
  | cons c cs ih =>
    rw [List.cons_append, recordedDigits, recordedDigits, digitsAt?_foreign hx, ih]
    cases digitsAt? (c :: cs) with
    | none => rfl
    | some digits => rfl

/-- No marker starts in a text without brackets, whatever follows. -/
lemma recordedDigits_plain {cs : List Char} (h : '<' ∉ cs) (rest : List Char) :
    recordedDigits (cs ++ rest) = recordedDigits rest := by
  induction cs with
  | nil => rfl
  | cons c cs ih =>
    obtain ⟨hc, hcs⟩ := not_or.mp (fun hor => h (List.mem_cons.mpr hor))
    have hnone : digitsAt? (c :: (cs ++ rest)) = none := by
      simp [digitsAt?, List.isPrefixOf?, hc]
    rw [List.cons_append, recordedDigits, hnone]
    exact ih hcs

/-- No marker starts in a text whose brackets open no comments. -/
lemma recordedDigits_tags {cs : List Char} (h : cs.IsChain fun c d => c = '<' → d ≠ '!')
    (hlast : cs.getLast? ≠ some '<') (rest : List Char) :
    recordedDigits (cs ++ rest) = recordedDigits rest := by
  induction cs with
  | nil => rfl
  | cons c cs ih =>
    cases cs with
    | nil =>
      have hc : c ≠ '<' := fun heq => hlast (by rw [heq]; rfl)
      exact recordedDigits_plain (by simpa using Ne.symm hc) rest
    | cons d ds =>
      obtain ⟨hcd, hds⟩ := List.isChain_cons_cons.mp h
      have hnone : digitsAt? (c :: (d :: (ds ++ rest))) = none := by
        simp only [digitsAt?, String.reduceToList, List.isPrefixOf?]
        by_cases hc : c = '<'
        · simp [Ne.symm (hcd hc)]
        · simp [Ne.symm hc]
      rw [List.cons_append, List.cons_append, recordedDigits, hnone]
      exact ih hds (by simpa using hlast)

/-! ## Markers -/

/-- Whether a text is a marker of some digits: a comment that holds `flow-hash:` and the digits,
with blanks before, between and behind these parts. -/
inductive IsMarker : List Char → List Char → Prop where
  | of_parts {before within behind digits : List Char} :
    (∀ c ∈ before, Text.isBlank c = true) → (∀ c ∈ within, Text.isBlank c = true) →
    (∀ c ∈ behind, Text.isBlank c = true) →
    digits ≠ [] → (∀ c ∈ digits, Text.isHexDigit c = true) →
    IsMarker ("<!--".toList ++ (before ++ ("flow-hash:".toList ++
      (within ++ (digits ++ (behind ++ "-->".toList)))))) digits

variable {marker digits : List Char}

/-- A hexadecimal digit is no blank. -/
lemma isBlank_of_isHexDigit {c : Char} (h : Text.isHexDigit c = true) : Text.isBlank c = false := by
  simp only [Text.isHexDigit, Bool.or_eq_true, Bool.and_eq_true, decide_eq_true_eq] at h
  simp only [Text.isBlank, Bool.or_eq_false_iff, Bool.and_eq_false_iff, decide_eq_false_iff_not,
    beq_eq_false_iff_ne]
  omega

/-- A class of characters is dropped up to the first character of another class. -/
lemma dropWhile_append_cons {p : Char → Bool} {cs : List Char} (h : ∀ c ∈ cs, p c = true) {c : Char}
    (hc : p c = false) (rest : List Char) : (cs ++ c :: rest).dropWhile p = c :: rest := by
  rw [List.dropWhile_append_of_pos h, List.dropWhile_cons_of_neg (by simp [hc])]

/-- The opening bracket stands at the start of a marker and nowhere else in it. -/
lemma IsMarker.exists_eq_cons (h : IsMarker marker digits) :
    ∃ tail, marker = '<' :: tail ∧ '<' ∉ tail := by
  obtain @⟨before, within, behind, digits, hbefore, hwithin, hbehind, -, hdigits⟩ := h
  have hblank : ∀ blanks : List Char, (∀ c ∈ blanks, Text.isBlank c = true) → '<' ∉ blanks :=
    fun blanks hblanks hmem => absurd (hblanks _ hmem) (by decide)
  have hdigit : '<' ∉ digits := fun hmem => absurd (hdigits _ hmem) (by decide)
  refine ⟨"!--".toList ++ (before ++ ("flow-hash:".toList ++
    (within ++ (digits ++ (behind ++ "-->".toList))))), rfl, ?_⟩
  simp only [List.mem_append, hblank before hbefore, hblank within hwithin, hblank behind hbehind,
    hdigit, false_or]
  decide

/-- **A marker is read where it stands.** -/
lemma digitsAt?_marker (h : IsMarker marker digits) (rest : List Char) :
    digitsAt? (marker ++ rest) = some digits := by
  obtain @⟨before, within, behind, digits, hbefore, hwithin, hbehind, hne, hdigits⟩ := h
  obtain ⟨d, ds, rfl⟩ := List.exists_cons_of_ne_nil hne
  have hd : Text.isBlank d = false := isBlank_of_isHexDigit (hdigits d List.mem_cons_self)
  set tail := behind ++ '-' :: ("->".toList ++ rest) with htail
  have hstop : tail.takeWhile Text.isHexDigit = [] ∧ tail.dropWhile Text.isHexDigit = tail := by
    cases behind with
    | nil => exact ⟨rfl, rfl⟩
    | cons b bs =>
      have hb : Text.isHexDigit b ≠ true := fun hdigit => by
        have := isBlank_of_isHexDigit hdigit
        rw [hbehind b List.mem_cons_self] at this
        cases this
      exact ⟨List.takeWhile_cons_of_neg hb, List.dropWhile_cons_of_neg hb⟩
  have hsplit : "<!--".toList ++ (before ++ ("flow-hash:".toList ++
      (within ++ (d :: ds ++ (behind ++ "-->".toList))))) ++ rest =
      "<!--".toList ++
        (before ++ 'f' :: ("low-hash:".toList ++ (within ++ d :: (ds ++ tail)))) := by
    simp [htail]
  have hname : "flow-hash:".toList.isPrefixOf?
      ('f' :: ("low-hash:".toList ++ (within ++ d :: (ds ++ tail)))) =
      some (within ++ d :: (ds ++ tail)) := rfl
  have hopening : ∀ cs, "<!--".toList.isPrefixOf? ("<!--".toList ++ cs) = some cs := fun _ => rfl
  have hclosing : ("-->".toList.isPrefixOf? (tail.dropWhile Text.isBlank)).isSome = true := by
    rw [htail, dropWhile_append_cons hbehind (by decide)]
    rfl
  have htake : (d :: (ds ++ tail)).takeWhile Text.isHexDigit = d :: ds := by
    rw [← List.cons_append, List.takeWhile_append_of_pos hdigits, hstop.1, List.append_nil]
  have hdrop : (d :: (ds ++ tail)).dropWhile Text.isHexDigit = tail := by
    rw [← List.cons_append, List.dropWhile_append_of_pos hdigits, hstop.2]
  have hf : Text.isBlank 'f' = false := by decide
  rw [hsplit]
  simp only [digitsAt?, hopening, Option.bind_eq_bind, Option.bind_some,
    dropWhile_append_cons hbefore hf, hname, dropWhile_append_cons hwithin hd, htake, hdrop,
    hclosing]
  simp

/-- **What is read is a marker.** -/
lemma exists_marker {cs : List Char} (h : digitsAt? cs = some digits) :
    ∃ marker rest, IsMarker marker digits ∧ cs = marker ++ rest := by
  have hblanks : ∀ cs : List Char, ∀ c ∈ cs.takeWhile Text.isBlank, Text.isBlank c = true :=
    fun cs c hc => List.mem_takeWhile_imp hc
  unfold digitsAt? at h
  simp only [Option.bind_eq_bind, Option.bind_eq_some_iff, Option.ite_none_right_eq_some,
    List.isPrefixOf?_eq_some_iff_append_eq, Option.isSome_iff_exists, Option.some.injEq] at h
  obtain ⟨cs₁, rfl, cs₂, hname, ⟨hne, rest, hclosing⟩, rfl⟩ := h
  set digits := (cs₂.dropWhile Text.isBlank).takeWhile Text.isHexDigit with hdigits
  set tail := (cs₂.dropWhile Text.isBlank).dropWhile Text.isHexDigit with htail
  refine ⟨_, rest, .of_parts (hblanks cs₁) (hblanks cs₂) (hblanks tail) hne
    (fun c hc => List.mem_takeWhile_imp hc), ?_⟩
  have hcs₁ : cs₁ = cs₁.takeWhile Text.isBlank ++ ("flow-hash:".toList ++ cs₂) := by
    rw [hname, List.takeWhile_append_dropWhile]
  have hcs₂ : cs₂ = cs₂.takeWhile Text.isBlank ++ (digits ++ tail) := by
    rw [hdigits, htail, List.takeWhile_append_dropWhile, List.takeWhile_append_dropWhile]
  have hrest : tail = tail.takeWhile Text.isBlank ++ ("-->".toList ++ rest) := by
    rw [hclosing, List.takeWhile_append_dropWhile]
  conv_lhs => rw [hcs₁, hcs₂, hrest]
  simp only [List.append_assoc]

/-- **A marker is the first marker** of a text that starts with it, and the others are those behind
it. -/
lemma recordedDigits_marker (h : IsMarker marker digits) (rest : List Char) :
    recordedDigits (marker ++ rest) = digits :: recordedDigits rest := by
  have hread := digitsAt?_marker h rest
  obtain ⟨tail, rfl, htail⟩ := h.exists_eq_cons
  rw [List.cons_append] at hread ⊢
  rw [recordedDigits, hread, recordedDigits_plain htail]

/-- What is written for a fingerprint is a marker of its digits. -/
lemma isMarker_render {hash : String} (hne : hash.toList ≠ [])
    (hdigits : ∀ c ∈ hash.toList, Text.isHexDigit c = true) :
    IsMarker (render hash).toList hash.toList := by
  have hspace : ∀ c ∈ [' '], Text.isBlank c = true := List.all_eq_true.mp rfl
  have hparts := IsMarker.of_parts hspace hspace hspace hne hdigits
  unfold render
  rw [String.toList_append, String.toList_append, List.append_assoc]
  exact hparts

/-- **A marker is found whatever stands around it**, and it hides no other marker. -/
theorem recorded_append_render {hash : String} (hne : hash.toList ≠ [])
    (hdigits : ∀ c ∈ hash.toList, Text.isHexDigit c = true) (before behind : String) :
    recorded (before ++ render hash ++ behind) =
      recorded before ++ String.ofList (hash.toList.map Char.toLower) :: recorded behind := by
  have hmarker := isMarker_render hne hdigits
  have hread := recordedDigits_marker hmarker behind.toList
  obtain ⟨tail, htext, -⟩ := hmarker.exists_eq_cons
  rw [htext, List.cons_append] at hread
  rw [recorded, String.toList_append, String.toList_append, List.append_assoc, htext,
    List.cons_append, recordedDigits_append (by decide), hread, List.map_append]
  rfl

/-! ## What a text records wherever it stands -/

/-- Whether a text records some fingerprints wherever it stands: no marker starts in it and runs on
into what stands behind it. -/
def Records (s : String) (found : List String) : Prop :=
  ∀ t : String, recorded (s ++ t) = found ++ recorded t

namespace Records

variable {s s' : String} {found found' ls : List String}

/-- What a text records wherever it stands is what it records by itself. -/
lemma eq (h : Records s found) : recorded s = found := by
  have hempty := h ""
  rw [String.append_empty] at hempty
  exact hempty.trans (List.append_nil found)

/-- A text that records something wherever it stands records it by itself. -/
lemma self (h : Records s found) : Records s (recorded s) :=
  h.eq.symm ▸ h

/-- The empty text records nothing. -/
lemma empty : Records "" [] := by
  intro t
  simp

/-- Two texts in a row record what both do. -/
lemma append (h : Records s found) (h' : Records s' found') :
    Records (s ++ s') (found ++ found') := by
  intro t
  rw [String.append_assoc, h, h', List.append_assoc]

/-- A text without brackets records nothing. -/
lemma plain (h : '<' ∉ s.toList) : Records s [] := by
  intro t
  rw [recorded, String.toList_append, recordedDigits_plain h, recorded, List.nil_append]

/-- Tags record nothing. -/
lemma tags (h : s.toList.IsChain fun c d => c = '<' → d ≠ '!')
    (hlast : s.toList.getLast? ≠ some '<') : Records s [] := by
  intro t
  rw [recorded, String.toList_append, recordedDigits_tags h hlast, recorded, List.nil_append]

/-- A text before a foreign character records what it does by itself. -/
lemma quoted {x : Char} {tail : List Char} (s : String) (hx : Foreign x)
    (hs' : s'.toList = x :: tail) (h : '<' ∉ s'.toList) : Records (s ++ s') (recorded s) := by
  intro t
  have hcut : recorded (s ++ s' ++ t) = recorded s ++ recorded (s' ++ t) := by
    simp only [recorded, String.toList_append, hs', List.append_assoc, List.cons_append,
      recordedDigits_append hx, List.map_append]
  rw [hcut, plain h t, List.nil_append]

/-- A marker records its fingerprint. -/
lemma render {hash : String} (hne : hash.toList ≠ [])
    (hdigits : ∀ c ∈ hash.toList, Text.isHexDigit c = true) :
    Records (Marker.render hash) [String.ofList (hash.toList.map Char.toLower)] := by
  intro t
  have hread := recorded_append_render hne hdigits "" t
  rwa [String.empty_append] at hread

/-- **Lines in a row** record what each of them does. -/
lemma intercalate (h : ∀ l ∈ ls, Records l (recorded l)) :
    Records ("\n".intercalate ls) (ls.flatMap recorded) := by
  have hfeed : Records "\n" [] := plain (by decide)
  induction ls with
  | nil => exact empty
  | cons l ls ih =>
    obtain ⟨hl, hls⟩ := List.forall_mem_cons.mp h
    by_cases hnil : ls = []
    · subst hnil
      simpa using hl
    · rw [String.intercalate_cons_of_ne_nil hnil, List.flatMap_cons]
      have hall := (hl.append hfeed).append (ih hls)
      rwa [List.append_nil] at hall

end Records

end Marker

end Flowchart
