import Flowchart.Proofs.Command.Checking
import Flowchart.Proofs.Command.Disk

set_option relaxedAutoImplicit false
set_option autoImplicit false

/-!
# Printed sections and documents

The two ways to print artifacts agree. Sections are printed line by line, each line with its end,
and a document is joined from its lines and printed as one. So a printed document is its title, an
empty line and the printed sections, and a document that is saved in a file lacks the last end of a
line only.

## Main results

* `Flowchart.Run.unlines_eq_intercalate`: printed lines are joined lines with an end.
* `Flowchart.Run.unlines_document`: a printed document is its title and the printed sections.
* `Flowchart.Run.rendering_agrees`: what runs print and save for the same files.
-/

namespace Flowchart.Run

variable {d : Disk}

/-! ## Printed lines -/

/-- A line in front of other lines. -/
lemma unlines_cons (line : String) (lines : List String) :
    unlines (line :: lines) = line ++ "\n" ++ unlines lines := by
  simp [unlines]

/-- **Printed lines** are the joined lines with an end, unless there is none. -/
lemma unlines_eq_intercalate {lines : List String} (h : lines ≠ []) :
    unlines lines = "\n".intercalate lines ++ "\n" := by
  induction lines with
  | nil => exact absurd rfl h
  | cons line lines ih =>
    by_cases hnil : lines = []
    · subst hnil
      simp [unlines]
    · rw [unlines_cons, ih hnil, String.intercalate_cons_of_ne_nil hnil]
      simp only [String.append_assoc]

/-- **A printed document** is its title, an empty line, and the printed sections of its artifacts.
-/
lemma unlines_document (title : String) (artifacts : List Artifact) :
    unlines [Document.render title artifacts] =
      "# " ++ title ++ "\n\n" ++ unlines (artifacts.flatMap Artifact.documentLines) := by
  have hlines : ["# " ++ title, ""] ++ artifacts.flatMap Artifact.documentLines ≠ [] := by simp
  calc unlines [Document.render title artifacts]
      = "\n".intercalate (["# " ++ title, ""] ++ artifacts.flatMap Artifact.documentLines) ++
          "\n" := by
        simp [unlines, Document.render]
    _ = unlines (["# " ++ title, ""] ++ artifacts.flatMap Artifact.documentLines) :=
        (unlines_eq_intercalate hlines).symm
    _ = unlines ["# " ++ title, ""] ++ unlines (artifacts.flatMap Artifact.documentLines) :=
        unlines_append _ _
    _ = "# " ++ title ++ "\n\n" ++ unlines (artifacts.flatMap Artifact.documentLines) := by
        have hblank : "\n" ++ "\n" = "\n\n" := rfl
        simp [unlines, String.append_assoc, ← hblank]

/-! ## Runs -/

/-- A document that can be saved is saved in its file, and nothing is printed. -/
lemma rendering_of_not_fails {name : String}
    (h : ∀ failure, ¬ (Access.output name).Fails d failure) (title : String)
    (artifacts : List Artifact) :
    (rendering d (some name) title artifacts).ending = .status statusDone ∧
      (rendering d (some name) title artifacts).printed = "" ∧
      (rendering d (some name) title artifacts).disk.read (.ofString name) =
        .ok (Text.Utf8.encode (Document.render title artifacts)) := by
  set bytes := Text.Utf8.encode (Document.render title artifacts) with hbytes
  have herror : (d.save (.ofString name) bytes).error = none :=
    Option.eq_none_iff_forall_ne_some.mpr fun error herror => h _ (.output herror)
  have hread := Disk.read_save herror
  unfold Disk.save at herror hread
  simp only [rendering, ← hbytes, herror, true_and]
  exact hread

/-- **What runs print and save for the same files.** If the source files can be read, a run that
renders them under a title prints the title, an empty line, and exactly what a run prints that shows
their sections, also if there are no artifacts at all. If an output can be written, a run that
renders to it leaves a file that holds this text without its last end of a line.

**Proof sketch.** All runs load the same artifacts (`run_of_readable`), and what is printed of a
document are its lines (`unlines_document`). What is saved is read back (`Disk.read_save`). -/
theorem rendering_agrees (parser : Parser) {files : List String}
    (hread : ∀ a ∈ Access.sources (files.map Path.ofString), ∀ failure, ¬ a.Fails d failure)
    (title : String) {shown rendered : List String} {verbose verbose' : Bool}
    (hshown : Invocation.parse shown = .ok ⟨verbose, some (.sections false none, files)⟩)
    (hrendered : Invocation.parse rendered = .ok ⟨verbose', some (.rendering none title, files)⟩) :
    (run parser d shown).ending = .status 0 ∧ (run parser d rendered).ending = .status 0 ∧
      (run parser d rendered).printed =
        "# " ++ title ++ "\n\n" ++ (run parser d shown).printed ∧
      ∀ saved verbose name,
        Invocation.parse saved = .ok ⟨verbose, some (.rendering (some name) title, files)⟩ →
        (∀ failure, ¬ (Access.output name).Fails d failure) →
        (run parser d saved).ending = .status 0 ∧ (run parser d saved).printed = "" ∧
          ∃ text, (run parser d rendered).printed = text ++ "\n" ∧
            (run parser d saved).disk.read (.ofString name) = .ok (Text.Utf8.encode text) := by
  obtain ⟨hshow, hshowText, -⟩ := run_of_readable parser hread hshown
  obtain ⟨hrender, hrenderText, -⟩ := run_of_readable parser hread hrendered
  refine ⟨hshow, hrender, ?_, fun saved verbose'' name hsaved hwrite => ?_⟩
  · rw [hrenderText, hshowText]
    exact unlines_document title _
  · obtain ⟨hsave, hsaveText, hsaveDisk⟩ := run_of_readable parser hread hsaved
    obtain ⟨hending, hprinted, hfile⟩ := rendering_of_not_fails hwrite title
      ((files.map Path.ofString).flatMap (artifactsOf parser d))
    rw [hsave, hsaveText, hsaveDisk, hrenderText]
    refine ⟨hending, hprinted, _, ?_, hfile⟩
    simp [perform, rendering, unlines]

/-- **A script with a contract and a scenario** is shown as their sections and rendered as its title
and these, and **a file without artifacts** is shown as nothing and rendered as the title alone. The
document that is saved below a directory that was missing is the printed one. -/
theorem rendering_agrees_of_files :
    ((artifactsOf shopParser shopDisk (.ofString "cart.ts")).map Artifact.heading =
        ["## Contract: `cart.add`", "## Scenario: `checkout`"] ∧
      (run shopParser shopDisk ["show", "cart.ts"]).printed =
        unlines ((artifactsOf shopParser shopDisk (.ofString "cart.ts")).flatMap
          Artifact.documentLines) ∧
      (run shopParser shopDisk ["render", "cart.ts", "--title", "T"]).printed =
        "# " ++ "T" ++ "\n\n" ++ (run shopParser shopDisk ["show", "cart.ts"]).printed ∧
      ∃ text,
        (run shopParser shopDisk ["render", "cart.ts", "--title", "T"]).printed = text ++ "\n" ∧
        (run shopParser shopDisk
            ["render", "cart.ts", "--title", "T", "-o", "docs/flows.md"]).disk.read
          (.ofString "docs/flows.md") = .ok (Text.Utf8.encode text)) ∧
    (run shopParser shopDisk ["show", "empty.ts"]).printed = "" ∧
      (run shopParser shopDisk ["render", "empty.ts", "--title", "T"]).printed =
        "# " ++ "T" ++ "\n\n" ++ (run shopParser shopDisk ["show", "empty.ts"]).printed ∧
      ∃ text,
        (run shopParser shopDisk ["render", "empty.ts", "--title", "T"]).printed = text ++ "\n" ∧
        (run shopParser shopDisk
            ["render", "empty.ts", "--title", "T", "-o", "docs/flows.md"]).disk.read
          (.ofString "docs/flows.md") = .ok (Text.Utf8.encode text) := by
  have hcart : ∀ a ∈ Access.sources (["cart.ts"].map Path.ofString), ∀ failure,
      ¬ a.Fails shopDisk failure := readable_shopDisk (by simp)
  have hempty : ∀ a ∈ Access.sources (["empty.ts"].map Path.ofString), ∀ failure,
      ¬ a.Fails shopDisk failure := readable_shopDisk (by simp)
  have hsaved : (shopDisk.save (.ofString "docs/flows.md") []).error = none := by
    decide +kernel
  have hwrite : ∀ failure, ¬ (Access.output "docs/flows.md").Fails shopDisk failure := by
    intro failure h
    cases h with
    | @output _ bytes error herror =>
      rw [Disk.error_save _ _ bytes [], hsaved] at herror
      cases herror
  constructor
  · have hshown : Invocation.parse ["show", "cart.ts"] =
        .ok ⟨false, some (.sections false none, ["cart.ts"])⟩ := rfl
    obtain ⟨-, -, hprinted, hfile⟩ := rendering_agrees shopParser hcart "T" hshown
      (rfl : Invocation.parse ["render", "cart.ts", "--title", "T"] =
        .ok ⟨false, some (.rendering none "T", ["cart.ts"])⟩)
    refine ⟨artifactsOf_shopDisk.1, ?_, hprinted, (hfile _ false "docs/flows.md" rfl hwrite).2.2⟩
    rw [(run_of_readable shopParser hcart hshown).2.1]
    simp [perform, sections]
  · have hshown : Invocation.parse ["show", "empty.ts"] =
        .ok ⟨false, some (.sections false none, ["empty.ts"])⟩ := rfl
    obtain ⟨-, -, hprinted, hfile⟩ := rendering_agrees shopParser hempty "T" hshown
      (rfl : Invocation.parse ["render", "empty.ts", "--title", "T"] =
        .ok ⟨false, some (.rendering none "T", ["empty.ts"])⟩)
    refine ⟨?_, hprinted, (hfile _ false "docs/flows.md" rfl hwrite).2.2⟩
    rw [(run_of_readable shopParser hempty hshown).2.1]
    simp [perform, sections, artifactsOf_shopDisk.2, unlines]

end Flowchart.Run
