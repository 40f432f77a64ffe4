import Flowchart.Proofs.Document.Marker

set_option relaxedAutoImplicit false
set_option autoImplicit false

/-!
# Scans of documents

The fingerprints that a document records are those of a scan from its first character to its last:
where a marker stands it is taken and the scan goes on behind it, and elsewhere one character is
passed over. A marker can be put between any two texts, and the scans of both are not disturbed.

## Main definitions

* `Flowchart.Marker.Scans`: the digits of the markers that a scan takes.
* `Flowchart.Marker.Reads`: the fingerprints that a scan of a document reads.

## Main results

* `Flowchart.Marker.scans_iff`: trying every position gives what a scan takes.
* `Flowchart.Marker.recorded_splice`: a marker between two texts.
-/

namespace Flowchart.Marker

/-! ## Scans -/

/-- What a scan of a text takes: the digits of the first marker, and then what a scan of the text
behind this marker takes. -/
inductive Scans : List Char → List (List Char) → Prop where
  | done : Scans [] []
  | skip {c : Char} {cs : List Char} {found : List (List Char)} :
    (∀ marker digits rest, IsMarker marker digits → c :: cs ≠ marker ++ rest) →
    Scans cs found → Scans (c :: cs) found
  | take {marker digits rest : List Char} {found : List (List Char)} :
    IsMarker marker digits → Scans rest found → Scans (marker ++ rest) (digits :: found)

variable {cs : List Char} {found : List (List Char)}

/-- Where no marker stands, none is read. -/
lemma digitsAt?_eq_none
    (h : ∀ marker digits rest, IsMarker marker digits → cs ≠ marker ++ rest) :
    digitsAt? cs = none := by
  by_contra hread
  obtain ⟨digits, hdigits⟩ := Option.ne_none_iff_exists'.mp hread
  obtain ⟨marker, rest, hmarker, hcs⟩ := exists_marker hdigits
  exact h marker digits rest hmarker hcs

/-- A scan takes what is found by trying every position. -/
lemma Scans.eq (h : Scans cs found) : recordedDigits cs = found := by
  induction h with
  | done => rfl
  | skip hnone _ ih => rw [recordedDigits, digitsAt?_eq_none hnone, ih]
  | take hmarker _ ih => rw [recordedDigits_marker hmarker, ih]

/-- Every text has a scan.

**Proof sketch.** By induction on the length of the text: a marker is not empty, so what stands
behind it is shorter. -/
lemma scans_recordedDigits : ∀ cs : List Char, Scans cs (recordedDigits cs)
  | [] => .done
  | c :: cs => by
    by_cases h : ∃ marker digits rest, IsMarker marker digits ∧ c :: cs = marker ++ rest
    · obtain ⟨marker, digits, rest, hmarker, heq⟩ := h
      have hshorter : rest.length < (c :: cs).length := by
        obtain ⟨tail, rfl, -⟩ := hmarker.exists_eq_cons
        rw [heq, List.length_append, List.length_cons]
        omega
      rw [heq, recordedDigits_marker hmarker]
      exact .take hmarker (scans_recordedDigits rest)
    · have hnone : ∀ marker digits rest, IsMarker marker digits → c :: cs ≠ marker ++ rest :=
        fun marker digits rest hmarker heq => h ⟨marker, digits, rest, hmarker, heq⟩
      rw [recordedDigits, digitsAt?_eq_none hnone]
      exact .skip hnone (scans_recordedDigits cs)
termination_by cs => cs.length
decreasing_by
  · exact hshorter
  · exact Nat.lt_succ_self _

/-- **Trying every position gives what a scan takes**: markers do not overlap. -/
lemma scans_iff : Scans cs found ↔ recordedDigits cs = found :=
  ⟨Scans.eq, fun h => h ▸ scans_recordedDigits cs⟩

/-! ## Fingerprints -/

/-- The fingerprints that a scan of a document reads: the digits of the markers, in lower case. -/
def Reads (document : String) (hashes : List String) : Prop :=
  ∃ found, Scans document.toList found ∧ hashes = found.map fun digits =>
    (String.ofList digits).toLower

/-- Digits in lower case. -/
lemma toLower_ofList (digits : List Char) :
    (String.ofList digits).toLower = String.ofList (digits.map Char.toLower) := by
  have hmap : (String.ofList digits).toLower = (String.ofList digits).map Char.toLower := rfl
  rw [← String.toList_inj, hmap, String.toList_map, String.toList_ofList, String.toList_ofList]

/-- A document records what a scan of it reads. -/
lemma reads_iff {document : String} {hashes : List String} :
    Reads document hashes ↔ recorded document = hashes := by
  simp only [Reads, scans_iff, toLower_ofList, exists_eq_left']
  exact eq_comm

/-- **A marker between two texts.** A document records the fingerprints that a scan of it reads,
which takes the first marker and goes on behind it. Whatever stands before and behind a marker of a
fingerprint, also if it is a part of a marker itself, the marker is neither hidden nor changed, and
it hides no other one: what is recorded is what the text before it records, the fingerprint in lower
case, and what the text behind it records.

**Proof sketch.** No character of a marker is an opening bracket but the first. So no marker starts
before the bracket and ends behind it (`recordedDigits_append`), and none starts inside of the
marker, whatever follows (`recordedDigits_marker`). -/
theorem recorded_splice {hash : String} (hne : hash ≠ "")
    (hdigits : ∀ c ∈ hash.toList, Text.isHexDigit c = true) (before behind : String) :
    (∀ document hashes, Reads document hashes ↔ recorded document = hashes) ∧
      recorded (before ++ render hash ++ behind) =
        recorded before ++ [hash.toLower] ++ recorded behind := by
  refine ⟨fun document hashes => reads_iff, ?_⟩
  have hlist : hash.toList ≠ [] := fun h => hne (String.toList_eq_nil_iff.mp h)
  have hlower : hash.toLower = String.ofList (hash.toList.map Char.toLower) := by
    rw [← toLower_ofList, String.ofList_toList]
  rw [recorded_append_render hlist hdigits, hlower, List.append_assoc, List.singleton_append]

/-- **A marker behind half a marker and before what looks like the rest of one.** -/
theorem recorded_splice_of_halves :
    "0aF" ≠ "" ∧ (∀ c ∈ "0aF".toList, Text.isHexDigit c = true) ∧
      recorded ("<!-- flow-hash: ab" ++ render "0aF" ++ " flow-hash: 12 --> <!--flow-hash:7E-->") =
        ["0af", "7e"] := by
  have hdigits : ∀ c ∈ "0aF".toList, Text.isHexDigit c = true := List.all_eq_true.mp rfl
  have hparts : recorded "<!-- flow-hash: ab" = [] ∧
      recorded " flow-hash: 12 --> <!--flow-hash:7E-->" = ["7e"] := by
    decide
  have hlower : "0aF".toLower = "0af" := (toLower_ofList ['0', 'a', 'F']).trans (by decide)
  refine ⟨by decide, hdigits, ?_⟩
  rw [(recorded_splice (by decide) hdigits _ _).2, hparts.1, hparts.2, hlower]
  rfl

end Flowchart.Marker
