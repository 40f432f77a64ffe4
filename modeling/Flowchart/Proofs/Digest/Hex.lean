import Flowchart.Digest.Sha256
import Mathlib.Tactic.Common

set_option relaxedAutoImplicit false
set_option autoImplicit false

/-!
# Hexadecimal digests

A digest is written in hexadecimal digits, the letters among them in lower case.

## Main results

* `Flowchart.Sha256.lowerHex_of_mem_hex`: every character of a digest is such a digit.
* `Flowchart.Sha256.le_length_hex`: a digest has 64 digits or more.
-/

namespace Flowchart

namespace Text

/-- A hexadecimal digit, in lower case if it is a letter. -/
def LowerHex (c : Char) : Prop :=
  isHexDigit c = true ∧ c.toLower = c

/-- The digits of a number in base sixteen are the sixteen digit characters. -/
lemma exists_digit_of_mem_toDigits {n : ℕ} {c : Char} (h : c ∈ Nat.toDigits 16 n) :
    ∃ d < 16, c = Nat.digitChar d := by
  induction n using Nat.strongRecOn with
  | ind n ih =>
    rw [Nat.toDigits_eq_if (by decide)] at h
    split_ifs at h with hn
    · exact ⟨n, hn, List.mem_singleton.mp h⟩
    · rcases List.mem_append.mp h with h | h
      · exact ih (n / 16) (by omega) h
      · exact ⟨n % 16, Nat.mod_lt n (by decide), List.mem_singleton.mp h⟩

/-- The digit characters are lower-case hexadecimal digits. -/
lemma lowerHex_digitChar {d : ℕ} (h : d < 16) : LowerHex (Nat.digitChar d) := by
  have hall : ∀ d < 16, isHexDigit (Nat.digitChar d) = true ∧
      (Nat.digitChar d).toLower = Nat.digitChar d := by decide
  exact hall d h

/-- A number is written in lower-case hexadecimal digits. -/
lemma lowerHex_of_mem_hexDigits {width n : ℕ} {c : Char} (h : c ∈ hexDigits width n) :
    LowerHex c := by
  rcases List.mem_append.mp h with h | h
  · rw [List.eq_of_mem_replicate h]
    exact ⟨by decide, by decide⟩
  · obtain ⟨d, hd, rfl⟩ := exists_digit_of_mem_toDigits h
    exact lowerHex_digitChar hd

/-- A number is written in as many digits as the width or more. -/
lemma le_length_hexDigits (width n : ℕ) : width ≤ (hexDigits width n).length := by
  simp only [hexDigits, List.length_append, List.length_replicate]
  omega

end Text

namespace Sha256

/-- **A digest is written in lower-case hexadecimal digits.** -/
lemma lowerHex_of_mem_hex {message : List UInt8} {c : Char} (h : c ∈ (hex message).toList) :
    Text.LowerHex c := by
  rw [hex, String.toList_ofList] at h
  obtain ⟨w, -, hw⟩ := List.mem_flatMap.mp h
  exact Text.lowerHex_of_mem_hexDigits hw

/-- **A digest has 64 digits or more**: eight for each of its words. -/
lemma le_length_hex (message : List UInt8) : 64 ≤ (hex message).toList.length := by
  have hword := fun w : UInt32 => Text.le_length_hexDigits 8 w.toNat
  set s := digest message with hs
  rw [hex, String.toList_ofList, State.toList, ← hs]
  simp only [List.flatMap_cons, List.flatMap_nil, List.length_append, List.length_nil]
  have := hword s.a
  have := hword s.b
  have := hword s.c
  have := hword s.d
  have := hword s.e
  have := hword s.f
  have := hword s.g
  have := hword s.h
  omega

/-- A digest is not empty. -/
lemma hex_ne_empty (message : List UInt8) : (hex message).toList ≠ [] := by
  have hlength := le_length_hex message
  exact List.ne_nil_of_length_pos (by omega)

end Sha256

end Flowchart
