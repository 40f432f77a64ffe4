import Flowchart.Json
import Flowchart.Proofs.Digest.Hex
import Flowchart.Proofs.Text.Lines

set_option relaxedAutoImplicit false
set_option autoImplicit false

/-!
# Reading JSON texts

The text of a JSON value determines the value. A written character can be told from what is behind
it, and so can a string, which ends at the first quotation mark that is not escaped. A number ends
where a comma or a line feed stands, and an array or an object ends at the bracket behind its last
entry. So different values have different texts.

## Main definitions

* `Flowchart.Text.hexValue`: the number that hexadecimal digits write.
* `Flowchart.Json.readChar?`, `Flowchart.Json.readNumber`: the first character of a written string,
  and a written number.
* `Flowchart.Json.Told`: whether an item can be told from a text that starts with it.

## Main results

* `Flowchart.Text.hexValue_hexDigits`: hexadecimal digits are read back.
* `Flowchart.Json.readChar?_escapeChar`, `Flowchart.Json.readNumber_toString`: written characters
  and numbers are read back.
* `Flowchart.Json.told_renderAt`: a value can be told from a text that starts with it.
* `Flowchart.Json.render_injective`: different values have different texts.
-/

namespace Flowchart

/-! ## Hexadecimal digits -/

namespace Text

/-- The value of a lowercase hexadecimal digit. -/
def digitValue (c : Char) : ℕ :=
  if c.toNat < 0x61 then c.toNat - 0x30 else c.toNat - 0x57

/-- The number that hexadecimal digits write. -/
def hexValue (digits : List Char) : ℕ :=
  digits.foldl (fun n c => 16 * n + digitValue c) 0

/-- The digit of a value has that value. -/
lemma digitValue_digitChar {d : ℕ} (h : d < 16) : digitValue (Nat.digitChar d) = d := by
  have hall : ∀ d < 16, digitValue (Nat.digitChar d) = d := by decide
  exact hall d h

/-- A last digit counts once, and the digits before it sixteen times. -/
lemma hexValue_append_singleton (digits : List Char) (c : Char) :
    hexValue (digits ++ [c]) = 16 * hexValue digits + digitValue c := by
  simp [hexValue]

/-- Zeros in front do not count. -/
lemma hexValue_replicate_append (count : ℕ) (digits : List Char) :
    hexValue (List.replicate count '0' ++ digits) = hexValue digits := by
  induction count with
  | zero => rfl
  | succ count ih => exact ih

/-- The digits of a number write the number. -/
lemma hexValue_toDigits (n : ℕ) : hexValue (Nat.toDigits 16 n) = n := by
  induction n using Nat.strongRecOn with
  | ind n ih =>
    rw [Nat.toDigits_eq_if (by decide)]
    split_ifs with hn
    · simpa [hexValue] using digitValue_digitChar hn
    · rw [hexValue_append_singleton, ih (n / 16) (by omega),
        digitValue_digitChar (Nat.mod_lt n (by decide))]
      omega

/-- **Padded digits** write the number. -/
lemma hexValue_hexDigits (width n : ℕ) : hexValue (hexDigits width n) = n := by
  rw [hexDigits, hexValue_replicate_append, hexValue_toDigits]

/-- Digits that fit are padded to the width. -/
lemma length_hexDigits {width n : ℕ} (h : (Nat.toDigits 16 n).length ≤ width) :
    (hexDigits width n).length = width := by
  simp only [hexDigits, List.length_append, List.length_replicate]
  omega

end Text

namespace Json

/-! ## Strings -/

/-- The character that a letter behind a backslash stands for. -/
def unescape (c : Char) : Char :=
  if c = 'n' then '\n'
  else if c = 'r' then '\r'
  else if c = 't' then '\t'
  else if c = 'f' then '\x0c'
  else if c = 'b' then '\x08'
  else c

/-- The first character of a written string, and what is behind it; there is none at the quotation
mark that ends the string. -/
def readChar? : List Char → Option (Char × List Char)
  | [] => none
  | '"' :: _ => none
  | '\\' :: 'u' :: cs =>
    let n := Text.hexValue (cs.take 4)
    if 0xd800 ≤ n ∧ n < 0xdc00 then
      let n' := Text.hexValue ((cs.drop 6).take 4)
      some (Char.ofNat (0x10000 + (n - 0xd800) * 0x400 + (n' - 0xdc00)), cs.drop 10)
    else some (Char.ofNat n, cs.drop 4)
  | '\\' :: c :: cs => some (unescape c, cs)
  | c :: cs => some (c, cs)

/-- The digits of a UTF-16 unit in front of a text are its first four characters. -/
lemma take_hexDigits {n : ℕ} (h : n < 0x10000) (cs : List Char) :
    (Text.hexDigits 4 n ++ cs).take 4 = Text.hexDigits 4 n ∧
      (Text.hexDigits 4 n ++ cs).drop 4 = cs := by
  have hdigits : (Nat.toDigits 16 n).length ≤ 4 :=
    (Nat.length_toDigits_le_iff (by decide) (by decide)).mpr h
  have hlength := Text.length_hexDigits hdigits
  exact ⟨List.take_left' hlength, List.drop_left' hlength⟩

/-- A character that is no surrogate is read back from its unit. -/
lemma readChar?_escapeUnit {n : ℕ} (h : n < 0x10000) (hn : ¬ (0xd800 ≤ n ∧ n < 0xdc00))
    (cs : List Char) : readChar? (escapeUnit n ++ cs) = some (Char.ofNat n, cs) := by
  obtain ⟨htake, hdrop⟩ := take_hexDigits h cs
  simp only [escapeUnit, List.cons_append, readChar?, htake, hdrop, Text.hexValue_hexDigits, hn,
    if_false]

/-- A character beyond the units is read back from its two surrogates. -/
lemma readChar?_surrogates {n : ℕ} (h : n < 0x100000) (cs : List Char) :
    readChar? (escapeUnit (0xd800 + n / 0x400) ++ (escapeUnit (0xdc00 + n % 0x400) ++ cs)) =
      some (Char.ofNat (0x10000 + n), cs) := by
  obtain ⟨htake, hdrop⟩ := take_hexDigits (n := 0xd800 + n / 0x400) (by omega)
    (escapeUnit (0xdc00 + n % 0x400) ++ cs)
  obtain ⟨htake', hdrop'⟩ := take_hexDigits (n := 0xdc00 + n % 0x400) (by omega) cs
  set first := Text.hexDigits 4 (0xd800 + n / 0x400) with hfirst
  set second := Text.hexDigits 4 (0xdc00 + n % 0x400) with hsecond
  -- behind the first four digits stand the two characters that introduce the second four
  have hskip : (first ++ (escapeUnit (0xdc00 + n % 0x400) ++ cs)).drop 6 = second ++ cs := by
    rw [show 6 = 4 + 2 from rfl, ← List.drop_drop, hdrop]
    rfl
  have hrest : (first ++ (escapeUnit (0xdc00 + n % 0x400) ++ cs)).drop 10 = cs := by
    rw [show 10 = 6 + 4 from rfl, ← List.drop_drop, hskip, hdrop']
  have hhigh : 0xd800 ≤ 0xd800 + n / 0x400 ∧ 0xd800 + n / 0x400 < 0xdc00 := by omega
  have hvalue : Text.hexValue first = 0xd800 + n / 0x400 := Text.hexValue_hexDigits _ _
  have hvalue' : Text.hexValue second = 0xdc00 + n % 0x400 := Text.hexValue_hexDigits _ _
  conv_lhs => rw [escapeUnit, ← hfirst, List.cons_append, List.cons_append]
  simp only [readChar?, htake, hskip, htake', hrest, hvalue, hvalue', hhigh, and_self, if_true]
  have hsum : 0x10000 + (0xd800 + n / 0x400 - 0xd800) * 0x400 +
      (0xdc00 + n % 0x400 - 0xdc00) = 0x10000 + n := by omega
  rw [hsum]

/-- **Written characters are read back**, whatever is behind them. -/
lemma readChar?_escapeChar (c : Char) (cs : List Char) :
    readChar? (escapeChar c ++ cs) = some (c, cs) := by
  unfold escapeChar
  split_ifs with hmark hfeed hreturn htab hform hback hplain hunit
  · rcases hmark with rfl | rfl <;> rfl
  · rw [hfeed]; rfl
  · rw [hreturn]; rfl
  · rw [htab]; rfl
  · rw [hform]; rfl
  · rw [hback]; rfl
  · obtain ⟨hquote, hslash⟩ := not_or.mp hmark
    simp [readChar?, hslash]
  · have hvalid : c.toNat < 0xd800 ∨ 0xdfff < c.toNat ∧ c.toNat < 0x110000 := c.valid
    rw [readChar?_escapeUnit hunit (by omega), Char.ofNat_toNat]
  · have hvalid : c.toNat < 0xd800 ∨ 0xdfff < c.toNat ∧ c.toNat < 0x110000 := c.valid
    dsimp only
    rw [List.append_assoc, readChar?_surrogates (by omega)]
    have hsum : 0x10000 + (c.toNat - 0x10000) = c.toNat := by omega
    rw [hsum, Char.ofNat_toNat]

/-- The characters of a written string and what is behind it are determined by the whole. -/
lemma flatMap_escapeChar_inj {s s' cs cs' : List Char}
    (h : s.flatMap escapeChar ++ '"' :: cs = s'.flatMap escapeChar ++ '"' :: cs') :
    s = s' ∧ cs = cs' := by
  have hread := congrArg readChar? h
  induction s generalizing s' with
  | nil =>
    cases s' with
    | nil => exact ⟨rfl, List.tail_eq_of_cons_eq h⟩
    | cons c' s' =>
      rw [List.flatMap_cons, List.append_assoc, readChar?_escapeChar] at hread
      cases hread
  | cons c s ih =>
    rw [List.flatMap_cons, List.append_assoc, readChar?_escapeChar] at hread
    cases s' with
    | nil => cases hread
    | cons c' s' =>
      rw [List.flatMap_cons, List.append_assoc, readChar?_escapeChar, Option.some.injEq,
        Prod.mk.injEq] at hread
      obtain ⟨rfl, hrest⟩ := hread
      obtain ⟨rfl, hcs⟩ := ih hrest (congrArg readChar? hrest)
      exact ⟨rfl, hcs⟩

/-- **A string can be told** from every text that starts with it. -/
lemma renderString_inj {s s' : String} {cs cs' : List Char}
    (h : (renderString s).toList ++ cs = (renderString s').toList ++ cs') : s = s' ∧ cs = cs' := by
  simp only [renderString, String.toList_ofList, List.cons_append, List.append_assoc,
    List.nil_append, List.cons.injEq, true_and] at h
  obtain ⟨hs, hcs⟩ := flatMap_escapeChar_inj h
  exact ⟨String.toList_inj.mp hs, hcs⟩

/-! ## Numbers -/

/-- The number that decimal digits write, with a minus sign in front if it is negative. -/
def readNumber : List Char → Int
  | '-' :: digits => -(Nat.ofDigitChars 10 digits 0 : ℕ)
  | digits => (Nat.ofDigitChars 10 digits 0 : ℕ)

/-- A number is written in decimal digits, with a minus sign in front if it is negative. -/
lemma toList_toString (n : Int) : (toString n).toList =
    if 0 ≤ n then Nat.toDigits 10 n.toNat else '-' :: Nat.toDigits 10 (-n).toNat := by
  rw [Int.toString_eq_repr, Int.repr_eq_if]
  split_ifs
  · rw [Nat.repr_eq_ofList_toDigits, String.toList_ofList]
  · simp [Nat.repr_eq_ofList_toDigits]

/-- Decimal digits are digits. -/
lemma isDigit_of_mem_toDigits {n : ℕ} {c : Char} (h : c ∈ Nat.toDigits 10 n) : c.isDigit = true :=
  Nat.isDigit_of_mem_toDigits (b := 10) (by decide) (Nat.le_refl 10) h

/-- The characters of a number are digits or a minus sign. -/
lemma mem_toList_toString {n : Int} {c : Char} (h : c ∈ (toString n).toList) :
    c = '-' ∨ c.isDigit = true := by
  rw [toList_toString] at h
  split_ifs at h
  · exact .inr (isDigit_of_mem_toDigits h)
  · exact (List.mem_cons.mp h).imp_right isDigit_of_mem_toDigits

/-- **Numbers are read back.** -/
lemma readNumber_toString (n : Int) : readNumber (toString n).toList = n := by
  rw [toList_toString]
  split_ifs with hn
  · obtain ⟨c, rest, hdigits⟩ :=
      List.exists_cons_of_ne_nil (Nat.toDigits_ne_nil (n := n.toNat) (b := 10))
    have hc : c ≠ '-' := by
      rintro rfl
      have := isDigit_of_mem_toDigits (n := n.toNat) (hdigits ▸ List.mem_cons_self)
      revert this
      decide
    have hread : readNumber (c :: rest) = (Nat.ofDigitChars 10 (c :: rest) 0 : ℕ) := by
      simp [readNumber, hc]
    rw [hdigits, hread, ← hdigits, Nat.ofDigitChars_ten_toDigits]
    omega
  · rw [readNumber, Nat.ofDigitChars_ten_toDigits]
    omega

/-! ## Items in a row -/

/-- What stands behind an item: a comma, or the start of the next line. -/
def Stops (cs : List Char) : Prop :=
  ∃ c rest, cs = c :: rest ∧ (c = ',' ∨ c = '\n')

section Told

variable {α : Type} {text : α → String} {level : ℕ} {opening closing : String} {c : Char}
  {xs ys : List α} {cs cs' : List Char}

/-- Whether an item can be told from every text that starts with it, as far as items are. -/
def Told (text : α → String) (x : α) : Prop :=
  ∀ y cs cs', Stops cs → Stops cs' → (text x).toList ++ cs = (text y).toList ++ cs' →
    x = y ∧ cs = cs'

/-- What stands behind the first of several texts between brackets. -/
def behindFirst (level : ℕ) (closing : String) (cs : List Char) : List String → List Char
  | [] => (newline level).toList ++ (closing.toList ++ cs)
  | t :: ts =>
    ',' :: ((newline (level + 1)).toList ++ (t.toList ++ behindFirst level closing cs ts))

/-- The start of a line is a line feed and blanks. -/
lemma exists_newline (level : ℕ) : ∃ blanks, (newline level).toList = '\n' :: blanks :=
  ⟨_, String.toList_ofList⟩

/-- Behind the first of several texts stands a comma or the start of a line. -/
lemma stops_behindFirst (level : ℕ) (closing : String) (cs : List Char) (ts : List String) :
    Stops (behindFirst level closing cs ts) := by
  cases ts with
  | nil =>
    obtain ⟨blanks, hblanks⟩ := exists_newline level
    exact ⟨'\n', _, by rw [behindFirst, hblanks, List.cons_append], .inr rfl⟩
  | cons t ts => exact ⟨',', _, rfl, .inl rfl⟩

/-- Texts between brackets, by the first of them and what stands behind it. -/
lemma toList_bracketed_cons (opening closing : String) (level : ℕ) (t : String) (ts : List String)
    (cs : List Char) :
    (bracketed opening closing level (t :: ts)).toList ++ cs =
      opening.toList ++ ((newline (level + 1)).toList ++
        (t.toList ++ behindFirst level closing cs ts)) := by
  have hbehind : ∀ (t : String) (ts : List String),
      (("," ++ newline (level + 1)).intercalate (t :: ts)).toList ++
        ((newline level).toList ++ (closing.toList ++ cs)) =
      t.toList ++ behindFirst level closing cs ts := by
    intro t ts
    induction ts generalizing t with
    | nil => simp [behindFirst]
    | cons t' ts ih =>
      rw [String.intercalate_cons_cons, String.toList_append, String.toList_append,
        String.toList_append, List.append_assoc, List.append_assoc, List.append_assoc, ih]
      rfl
  rw [← hbehind]
  simp [bracketed, List.append_assoc]

/-- Items that can be told are determined by what stands behind them. -/
lemma behindFirst_inj (hxs : ∀ x ∈ xs, Told text x)
    (h : behindFirst level closing cs (xs.map text) =
      behindFirst level closing cs' (ys.map text)) : xs = ys ∧ cs = cs' := by
  obtain ⟨blanks, hblanks⟩ := exists_newline level
  induction xs generalizing ys with
  | nil =>
    cases ys with
    | nil =>
      have hrest := List.append_cancel_left h
      exact ⟨rfl, List.append_cancel_left hrest⟩
    | cons y ys =>
      simp [behindFirst, hblanks] at h
  | cons x xs ih =>
    obtain ⟨hx, hrest⟩ := List.forall_mem_cons.mp hxs
    cases ys with
    | nil => simp [behindFirst, hblanks] at h
    | cons y ys =>
      have hitems := List.append_cancel_left (List.tail_eq_of_cons_eq h)
      obtain ⟨rfl, hbehind⟩ := hx y _ _ (stops_behindFirst ..) (stops_behindFirst ..) hitems
      obtain ⟨rfl, hcs⟩ := ih hrest hbehind
      exact ⟨rfl, hcs⟩

/-- **Items between brackets** can be told from a text that starts with the first bracket. -/
lemma bracketed_inj (hclosing : closing.toList = [c]) (hc : c ≠ '\n') (hxs : ∀ x ∈ xs, Told text x)
    (h : (bracketed opening closing level (xs.map text)).toList ++ cs =
      (bracketed opening closing level (ys.map text)).toList ++ cs') : xs = ys ∧ cs = cs' := by
  obtain ⟨blanks, hblanks⟩ := exists_newline (level + 1)
  have hempty : ∀ cs, (bracketed opening closing level []).toList ++ cs =
      opening.toList ++ c :: cs := by
    simp [bracketed, hclosing]
  cases xs with
  | nil =>
    cases ys with
    | nil =>
      rw [List.map_nil, hempty, hempty] at h
      exact ⟨rfl, List.tail_eq_of_cons_eq (List.append_cancel_left h)⟩
    | cons y ys =>
      rw [List.map_nil, hempty, List.map_cons, toList_bracketed_cons, hblanks] at h
      exact absurd (List.cons.inj (List.append_cancel_left h)).1 hc
  | cons x xs =>
    obtain ⟨hx, hrest⟩ := List.forall_mem_cons.mp hxs
    cases ys with
    | nil =>
      rw [List.map_nil, hempty, List.map_cons, toList_bracketed_cons, hblanks] at h
      exact absurd (List.cons.inj (List.append_cancel_left h)).1.symm hc
    | cons y ys =>
      rw [List.map_cons, List.map_cons, toList_bracketed_cons, toList_bracketed_cons] at h
      have hitems := List.append_cancel_left (List.append_cancel_left h)
      obtain ⟨rfl, hbehind⟩ := hx y _ _ (stops_behindFirst ..) (stops_behindFirst ..) hitems
      obtain ⟨rfl, hcs⟩ := behindFirst_inj hrest hbehind
      exact ⟨rfl, hcs⟩

end Told

/-! ## Values -/

/-- Induction on values: of the items of an array and the values in an object it is known already.
-/
theorem inductionOn {P : Json → Prop} (string : ∀ s, P (.string s)) (integer : ∀ n, P (.integer n))
    (array : ∀ items, (∀ item ∈ items, P item) → P (.array items))
    (object : ∀ entries, (∀ entry ∈ entries, P entry.2) → P (.object entries)) :
    ∀ v, P v
  | .string s => string s
  | .integer n => integer n
  | .array items => array items fun item _ => inductionOn string integer array object item
  | .object entries => object entries fun entry _ => inductionOn string integer array object entry.2
termination_by v => sizeOf v
decreasing_by
  · simp only [Json.array.sizeOf_spec]
    have := List.sizeOf_lt_of_mem ‹_ ∈ items›
    omega
  · simp only [Json.object.sizeOf_spec]
    have := List.sizeOf_lt_of_mem ‹_ ∈ entries›
    have : sizeOf entry.2 < sizeOf entry := by
      cases entry
      simp only [Prod.mk.sizeOf_spec]
      omega
    omega

/-- The text of an entry of an object. -/
def renderEntry (level : ℕ) (entry : String × Json) : String :=
  renderString entry.1 ++ ": " ++ renderAt level entry.2

/-- The texts of the items of an array are those of each. -/
lemma renderItems_eq (level : ℕ) (items : List Json) :
    renderItems level items = items.map (renderAt level) := by
  induction items with
  | nil => rw [renderItems, List.map_nil]
  | cons item items ih => rw [renderItems, ih, List.map_cons]

/-- The texts of the entries of an object are those of each. -/
lemma renderEntries_eq (level : ℕ) (entries : List (String × Json)) :
    renderEntries level entries = entries.map (renderEntry level) := by
  induction entries with
  | nil => rw [renderEntries, List.map_nil]
  | cons entry entries ih => rw [renderEntries, ih, List.map_cons, renderEntry]

/-- The sort of a value by its first character; all numbers are of one sort. -/
def sortOf (c : Char) : Char :=
  if c = '"' ∨ c = '[' ∨ c = '\x7b' then c else '0'

/-- The sort of a value. -/
def sort : Json → Char
  | .string _ => '"'
  | .integer _ => '0'
  | .array _ => '['
  | .object _ => '\x7b'

/-- The texts between brackets start with the first bracket. -/
lemma exists_bracketed (opening closing : String) (level : ℕ) (ts : List String) :
    ∃ rest, (bracketed opening closing level ts).toList = opening.toList ++ rest := by
  cases ts with
  | nil => exact ⟨closing.toList, by simp [bracketed]⟩
  | cons t ts => exact ⟨_, by simpa using toList_bracketed_cons opening closing level t ts []⟩

/-- **The sort of a value** can be seen at its first character. -/
lemma exists_renderAt (level : ℕ) (v : Json) :
    ∃ c rest, (renderAt level v).toList = c :: rest ∧ sortOf c = v.sort := by
  cases v with
  | string s => exact ⟨'"', _, by rw [renderAt, renderString, String.toList_ofList]; rfl, rfl⟩
  | integer n =>
    rw [renderAt]
    have hne : (toString n).toList ≠ [] := by
      rw [toList_toString]
      split_ifs
      · exact Nat.toDigits_ne_nil
      · exact List.cons_ne_nil _ _
    obtain ⟨c, rest, hdigits⟩ := List.exists_cons_of_ne_nil hne
    refine ⟨c, rest, hdigits, if_neg ?_⟩
    have hc : c = '-' ∨ c.isDigit = true := mem_toList_toString (hdigits ▸ List.mem_cons_self)
    rintro (rfl | rfl | rfl) <;> revert hc <;> decide
  | array items =>
    obtain ⟨rest, hrest⟩ := exists_bracketed "[" "]" level (renderItems (level + 1) items)
    exact ⟨'[', rest, by rw [renderAt, hrest]; rfl, rfl⟩
  | object entries =>
    obtain ⟨rest, hrest⟩ :=
      exists_bracketed "\x7b" "\x7d" level (renderEntries (level + 1) entries)
    exact ⟨'\x7b', rest, by rw [renderAt, hrest]; rfl, rfl⟩

/-- Values whose texts start alike are of one sort. -/
lemma sort_eq {level : ℕ} {v w : Json} {cs cs' : List Char}
    (h : (renderAt level v).toList ++ cs = (renderAt level w).toList ++ cs') : v.sort = w.sort := by
  obtain ⟨c, rest, hv, hsort⟩ := exists_renderAt level v
  obtain ⟨c', rest', hw, hsort'⟩ := exists_renderAt level w
  rw [hv, hw] at h
  obtain ⟨rfl, -⟩ := List.cons.inj h
  rw [← hsort, ← hsort']

/-- An entry of an object can be told if its value can. -/
lemma told_renderEntry {level : ℕ} {entry : String × Json}
    (h : Told (renderAt level) entry.2) : Told (renderEntry level) entry := by
  intro entry' cs cs' hcs hcs' htexts
  simp only [renderEntry, String.toList_append, List.append_assoc] at htexts
  obtain ⟨hkey, hvalues⟩ := renderString_inj htexts
  obtain ⟨hvalue, hrest⟩ := h entry'.2 cs cs' hcs hcs' (List.append_cancel_left hvalues)
  exact ⟨Prod.ext hkey hvalue, hrest⟩

/-- **A value can be told** from every text that starts with it and goes on with a comma or a line
feed.

**Proof sketch.** Induction on the value. The first character tells the sort. A string ends at its
quotation mark and a number at the comma or line feed behind it; the items of an array and the
entries of an object can be told one after the other. -/
theorem told_renderAt (level : ℕ) (v : Json) : Told (renderAt level) v := by
  induction v using Json.inductionOn generalizing level with
  | string s =>
    intro w cs cs' _ _ h
    cases w with
    | string s' =>
      obtain ⟨rfl, hrest⟩ := renderString_inj (by simpa only [renderAt] using h)
      exact ⟨rfl, hrest⟩
    | _ => cases sort_eq h
  | integer n =>
    rintro w _ _ ⟨c, rest, rfl, hc⟩ ⟨c', rest', rfl, hc'⟩ h
    cases w with
    | integer n' =>
      have hdigits : ∀ n : Int, ∀ x ∈ (toString n).toList, ¬ (x = ',' ∨ x = '\n') := by
        intro n x hx hstop
        have hx' := mem_toList_toString hx
        rcases hstop with rfl | rfl <;> revert hx' <;> decide
      simp only [renderAt] at h
      obtain ⟨hn, rfl, rfl⟩ := Text.split_end (hdigits n) (hdigits n') (not_not.mpr hc)
        (not_not.mpr hc') h
      have hvalue : n = n' := by rw [← readNumber_toString n, hn, readNumber_toString]
      exact ⟨congrArg Json.integer hvalue, rfl⟩
    | _ => cases sort_eq h
  | array items ih =>
    intro w cs cs' _ _ h
    cases w with
    | array items' =>
      simp only [renderAt, renderItems_eq] at h
      obtain ⟨rfl, hrest⟩ := bracketed_inj (c := ']') rfl (by decide)
        (fun item hitem => ih item hitem (level + 1)) h
      exact ⟨rfl, hrest⟩
    | _ => cases sort_eq h
  | object entries ih =>
    intro w cs cs' _ _ h
    cases w with
    | object entries' =>
      simp only [renderAt, renderEntries_eq] at h
      obtain ⟨rfl, hrest⟩ := bracketed_inj (c := '\x7d') rfl (by decide)
        (fun entry hentry => told_renderEntry (ih entry hentry (level + 1))) h
      exact ⟨rfl, hrest⟩
    | _ => cases sort_eq h

/-- **Different values have different texts.** -/
theorem render_injective : Function.Injective render := by
  intro v w h
  have hstops : Stops ['\n'] := ⟨'\n', [], rfl, .inr rfl⟩
  exact (told_renderAt 0 v w ['\n'] ['\n'] hstops hstops (by rw [← render, h, render])).1

end Json

end Flowchart
