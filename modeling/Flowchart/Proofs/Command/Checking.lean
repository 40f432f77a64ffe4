import Flowchart.Proofs.Command.Ending
import Flowchart.Proofs.Document.Comparison
import Flowchart.Proofs.Source.Location

set_option relaxedAutoImplicit false
set_option autoImplicit false

/-!
# Checking documents

What a run finds that compares a document with files. The files are read one after the other, so a
run is given the artifacts of each file as often as the file is named. But whether the document is
up to date depends on the set of the artifacts only, and so does how the run ends.

## Main results

* `Flowchart.Run.ending_checking_congr`: a comparison ends in the same way for the same artifacts.
* `Flowchart.Run.ending_run_congr`: so does a run for the same files.
* `Flowchart.Run.checking_exact`: what is found, and what the order of the files does to it.
-/

namespace Flowchart

/-- The same files have the same accesses. -/
lemma Access.mem_sources_congr {files files' : List Path}
    (h : ∀ path, path ∈ files ↔ path ∈ files') (a : Access) :
    a ∈ sources files ↔ a ∈ sources files' := by
  simp only [sources, List.mem_map, List.mem_filter, h]

namespace Run

variable {d : Disk} {document : Option String}

/-- A comparison with the text of a document ends by whether something is wrong. -/
lemma ending_comparing (verbose : Bool) (path : Path) (artifacts : List Artifact) (text : String) :
    (comparing d verbose path artifacts text).ending =
      if (Drift.check artifacts text).isCurrent then .status statusDone
      else .status statusOutdated := by
  unfold comparing
  dsimp only
  split_ifs <;> rfl

/-- A task that compares a document ends by whether something is wrong with the text of it, if that
can be read. -/
lemma ending_perform_checking {name text : String}
    (h : readText d (.ofString name) = .done [] text) (verbose : Bool) (artifacts : List Artifact) :
    (perform d verbose (.checking (some name)) artifacts).ending =
      if (Drift.check artifacts text).isCurrent then .status statusDone
      else .status statusOutdated := by
  unfold perform checking
  dsimp only
  rw [h]
  exact ending_comparing verbose _ artifacts text

/-- **How a comparison ends** does not depend on the order or the repetitions of the artifacts, and
not on what is told of it. -/
lemma ending_checking_congr {artifacts artifacts' : List Artifact}
    (h : ∀ a, a ∈ artifacts ↔ a ∈ artifacts') (verbose verbose' : Bool) :
    (checking d verbose document artifacts).ending =
      (checking d verbose' document artifacts').ending := by
  cases document with
  | none => rfl
  | some name =>
    unfold checking
    dsimp only
    generalize readText d (.ofString name) = reading
    obtain ⟨lines, result⟩ := reading
    cases result with
    | error e => dsimp only
    | ok text =>
      dsimp only
      rw [ending_comparing, ending_comparing, Drift.isCurrent_congr h]

/-- **How a run that compares a document with files ends** does not depend on the order or the
repetitions of the files, if they can be read. -/
lemma ending_run_congr (parser : Parser) {arguments arguments' files files' : List String}
    {verbose verbose' : Bool}
    (hparse : Invocation.parse arguments = .ok ⟨verbose, some (.checking document, files)⟩)
    (hparse' : Invocation.parse arguments' = .ok ⟨verbose', some (.checking document, files')⟩)
    (h : ∀ file, file ∈ files ↔ file ∈ files')
    (hread : ∀ a ∈ Access.sources (files.map Path.ofString), ∀ failure, ¬ a.Fails d failure) :
    (run parser d arguments).ending = (run parser d arguments').ending := by
  have hpaths : ∀ path, path ∈ files.map Path.ofString ↔ path ∈ files'.map Path.ofString := by
    intro path
    simp only [List.mem_map, h]
  have hread' : ∀ a ∈ Access.sources (files'.map Path.ofString), ∀ failure,
      ¬ a.Fails d failure :=
    fun a ha => hread a ((Access.mem_sources_congr hpaths a).mpr ha)
  rw [(run_of_readable parser hread hparse).1, (run_of_readable parser hread' hparse').1]
  simp only [perform]
  refine ending_checking_congr (fun a => ?_) verbose verbose'
  simp only [List.mem_flatMap, hpaths]

/-- **What is found when artifacts are compared with a document.** For all artifacts and every
document, the two passes over the artifacts and over the recorded fingerprints find the following.
Outdated are the artifacts, in their order and as often as they are given, whose fingerprints are
not recorded. Orphaned are the recorded fingerprints that no artifact has, each once, in the order
in which they appear first. Nothing is wrong if and only if the recorded fingerprints are those of
the artifacts, as sets, and if and only if there is nothing to describe. So the order and the
repetitions of the artifacts change neither what is orphaned nor whether something is wrong, and a
run that compares a document with files that can be read ends in the same way in whatever order and
however often the files are named.

**Proof sketch.** The first pass is a selection (`Comparison.foldl_passArtifact`), and the second
one keeps what is new, because what it has seen is what it has kept
(`Comparison.SeenOrphaned.foldl_passRecorded`). A run loads the artifacts of one file after the
other (`run_of_readable`), so the same files give the same artifacts. -/
theorem checking_exact (artifacts : List Artifact) (document : String) :
    let recorded := Marker.recorded document
    let drift := Drift.check artifacts document
    (Comparison.passes artifacts document).drift = drift ∧
      drift.outdated = artifacts.filter (fun a => a.hash ∉ recorded) ∧
      drift.orphaned.Nodup ∧
      (∀ hash, hash ∈ drift.orphaned ↔ hash ∈ recorded ∧ ∀ a ∈ artifacts, a.hash ≠ hash) ∧
      (drift.orphaned.Pairwise fun h h' => recorded.idxOf h < recorded.idxOf h') ∧
      (drift.isCurrent = true ↔
        recorded.toFinset = (artifacts.map Artifact.hash).toFinset) ∧
      (drift.isCurrent = true ↔ drift.describe = []) ∧
      (∀ artifacts', (∀ a, a ∈ artifacts' ↔ a ∈ artifacts) →
        (Drift.check artifacts' document).isCurrent = drift.isCurrent ∧
          (Drift.check artifacts' document).orphaned = drift.orphaned) ∧
      ∀ (parser : Parser) (d : Disk) (arguments arguments' : List String)
        (verbose verbose' : Bool) (name : Option String) (files files' : List String),
        Invocation.parse arguments = .ok ⟨verbose, some (.checking name, files)⟩ →
        Invocation.parse arguments' = .ok ⟨verbose', some (.checking name, files')⟩ →
        (∀ file, file ∈ files ↔ file ∈ files') →
        (∀ a ∈ Access.sources (files.map Path.ofString), ∀ failure, ¬ a.Fails d failure) →
        (run parser d arguments).ending = (run parser d arguments').ending := by
  intro recorded drift
  have houtdated : drift.outdated = artifacts.filter fun a => a.hash ∉ recorded := rfl
  refine ⟨Comparison.drift_passes artifacts document, houtdated,
    Drift.nodup_orphaned artifacts document, fun hash => Drift.mem_orphaned_iff,
    Drift.pairwise_orphaned artifacts document, Drift.isCurrent_check_iff,
    drift.isCurrent_iff_describe,
    fun artifacts' h => ⟨Drift.isCurrent_congr h, Drift.orphaned_congr h⟩, ?_⟩
  intro parser d arguments arguments' verbose verbose' name files files' hparse hparse' h hread
  exact ending_run_congr parser hparse hparse' h hread

/-- The script of a shop: a contract in a variable, and a scenario with one step, which calls it. -/
def shopText : String :=
  "const add = define('cart.add', \x7b transition: (s) => s \x7d);\n" ++
    "scenario('checkout', () => [step(add)]);\n"

/-- The tree of the script. -/
def shopScript : Tree :=
  (Tree.ofRows (Text.Utf8.encode shopText) [
    .ofKind 0 "program" 0 99 none,
    .ofKind 1 "lexical_declaration" 0 57 none,
    .ofKind 2 "variable_declarator" 6 56 none,
    .ofKind 3 "identifier" 6 9 (some "name"),
    .ofKind 3 "call_expression" 12 56 (some "value"),
    .ofKind 4 "identifier" 12 18 (some "function"),
    .ofKind 4 "arguments" 18 56 (some "arguments"),
    .ofKind 5 "string" 19 29 none,
    .ofKind 6 "string_fragment" 20 28 none,
    .ofKind 5 "object" 31 55 none,
    .ofKind 6 "pair" 33 53 none,
    .ofKind 7 "property_identifier" 33 43 (some "key"),
    .ofKind 7 "arrow_function" 45 53 (some "value"),
    .ofKind 8 "formal_parameters" 45 48 none,
    .ofKind 9 "required_parameter" 46 47 none,
    .ofKind 10 "identifier" 46 47 none,
    .ofKind 8 "identifier" 52 53 (some "body"),
    .ofKind 1 "expression_statement" 58 98 none,
    .ofKind 2 "call_expression" 58 97 none,
    .ofKind 3 "identifier" 58 66 (some "function"),
    .ofKind 3 "arguments" 66 97 (some "arguments"),
    .ofKind 4 "string" 67 77 none,
    .ofKind 5 "string_fragment" 68 76 none,
    .ofKind 4 "arrow_function" 79 96 none,
    .ofKind 5 "formal_parameters" 79 81 none,
    .ofKind 5 "array" 85 96 (some "body"),
    .ofKind 6 "call_expression" 86 95 none,
    .ofKind 7 "identifier" 86 90 (some "function"),
    .ofKind 7 "arguments" 90 95 (some "arguments"),
    .ofKind 8 "identifier" 91 94 none]).getD .blank

/-- A grammar that knows the script. -/
def shopParser : Parser :=
  .ofKnown [((.typescript, shopText), shopScript)]

/-- A document that records two fingerprints. -/
def shopDocument : String :=
  "<!-- flow-hash: 0 -->\n<!-- flow-hash: 1f -->\n"

/-- A disk with the script, an empty source file, and the document. -/
def shopDisk : Disk :=
  ⟨[], [(["cart.ts"], .file (Text.Utf8.encode shopText)), (["empty.ts"], .file []),
    (["flows.md"], .file (Text.Utf8.encode shopDocument))]⟩

/-- The texts on the disk of the shop. -/
lemma readText_shopDisk :
    readText shopDisk (.ofString "cart.ts") = .done [] shopText ∧
      readText shopDisk (.ofString "empty.ts") = .done [] "" ∧
      readText shopDisk (.ofString "flows.md") = .done [] shopDocument := by
  have hpaths : Path.ofString "cart.ts" = ⟨.working, ["cart.ts"]⟩ ∧
      Path.ofString "empty.ts" = ⟨.working, ["empty.ts"]⟩ ∧
      Path.ofString "flows.md" = ⟨.working, ["flows.md"]⟩ := by
    decide +kernel
  have hscript : Text.Utf8.decode (Text.Utf8.encode shopText) = .ok shopText := by decide +kernel
  have hdocument : Text.Utf8.decode (Text.Utf8.encode shopDocument) = .ok shopDocument := by
    decide +kernel
  rw [hpaths.1, hpaths.2.1, hpaths.2.2]
  exact ⟨readText_of_decode rfl hscript (by decide +kernel), readText_of_decode rfl rfl rfl,
    readText_of_decode rfl hdocument (by decide +kernel)⟩

/-- The source files of the shop can be read, in whatever order and however often they are named. -/
lemma readable_shopDisk {files : List String}
    (h : ∀ file ∈ files, file = "cart.ts" ∨ file = "empty.ts") :
    ∀ a ∈ Access.sources (files.map Path.ofString), ∀ failure, ¬ a.Fails shopDisk failure := by
  intro a ha failure hfails
  simp only [Access.sources, List.mem_map, List.mem_filter] at ha
  obtain ⟨path, ⟨⟨file, hfile, rfl⟩, -⟩, rfl⟩ := ha
  cases hfails with
  | source hfails =>
    rcases h file hfile with rfl | rfl
    · exact not_readFails readText_shopDisk.1 failure hfails
    · exact not_readFails readText_shopDisk.2.1 failure hfails

/-- The artifacts of the shop are those of its contract and its scenario. -/
lemma artifactsOf_shopDisk :
    (artifactsOf shopParser shopDisk (.ofString "cart.ts")).map Artifact.heading =
        ["## Contract: `cart.add`", "## Scenario: `checkout`"] ∧
      artifactsOf shopParser shopDisk (.ofString "empty.ts") = [] := by
  have hlanguages : Language.ofPath? (.ofString "cart.ts") = some .typescript ∧
      Language.ofPath? (.ofString "empty.ts") = some .typescript := by
    decide +kernel
  have hscript : shopParser .typescript shopText = shopScript := by
    simp [shopParser, Parser.ofKnown]
  have hblank : shopParser .typescript "" = .blank := rfl
  have howners : shopScript.contractSites.map (fun s => (OwnerKind.contract, s.name)) ++
      (shopScript.scenarioSites.filter fun s => s.body.isSome).map
        (fun s => (OwnerKind.scenario, s.name)) =
      [(.contract, "cart.add"), (.scenario, "checkout")] := by
    decide +kernel
  have hcart := (documents_artifactsOf shopParser hlanguages.1 readText_shopDisk.1).map_owner
  have hempty := (documents_artifactsOf shopParser hlanguages.2 readText_shopDisk.2.1).map_owner
  rw [hscript, Tree.map_owners, howners] at hcart
  rw [hblank, Tree.map_owners] at hempty
  refine ⟨?_, List.map_eq_nil_iff.mp hempty⟩
  have hheading : Artifact.heading = (fun owner : OwnerKind × String =>
      "## " ++ owner.1.title ++ ": `" ++ owner.2 ++ "`") ∘ fun a => (a.ownerKind, a.ownerId) := rfl
  rw [hheading, ← List.map_map, hcart]
  rfl

/-- **Naming a file twice**, and naming the files the other way round, ends a run in the same way:
the document records fingerprints that neither the contract nor the scenario has. -/
theorem checking_exact_of_repeated :
    (artifactsOf shopParser shopDisk (.ofString "cart.ts")).map Artifact.heading =
        ["## Contract: `cart.add`", "## Scenario: `checkout`"] ∧
      Marker.recorded shopDocument = ["0", "1f"] ∧
      (run shopParser shopDisk
          ["check", "--doc", "flows.md", "cart.ts", "empty.ts", "cart.ts"]).ending =
        (run shopParser shopDisk ["check", "empty.ts", "cart.ts", "--doc", "flows.md"]).ending ∧
      (run shopParser shopDisk ["check", "empty.ts", "cart.ts", "--doc", "flows.md"]).ending =
        .status 1 := by
  have hfiles : ∀ file, file ∈ ["cart.ts", "empty.ts", "cart.ts"] ↔
      file ∈ ["empty.ts", "cart.ts"] := by
    intro file
    simp only [List.mem_cons, List.not_mem_nil, or_false]
    tauto
  have hread : ∀ a ∈ Access.sources (["cart.ts", "empty.ts", "cart.ts"].map Path.ofString),
      ∀ failure, ¬ a.Fails shopDisk failure := readable_shopDisk (by simp)
  have hread' : ∀ a ∈ Access.sources (["empty.ts", "cart.ts"].map Path.ofString),
      ∀ failure, ¬ a.Fails shopDisk failure := readable_shopDisk (by simp)
  have hrecorded : Marker.recorded shopDocument = ["0", "1f"] := by decide +kernel
  obtain ⟨-, -, -, -, -, -, -, -, hruns⟩ := checking_exact [] ""
  refine ⟨artifactsOf_shopDisk.1, hrecorded,
    hruns _ _ _ _ false false (some "flows.md") _ _ rfl rfl hfiles hread, ?_⟩
  have hparse : Invocation.parse ["check", "empty.ts", "cart.ts", "--doc", "flows.md"] =
      .ok ⟨false, some (.checking (some "flows.md"), ["empty.ts", "cart.ts"])⟩ := rfl
  have hdraft : ∀ a ∈ (["empty.ts", "cart.ts"].map Path.ofString).flatMap
      (artifactsOf shopParser shopDisk), a.OfDraft := by
    intro a ha
    obtain ⟨path, -, ha⟩ := List.mem_flatMap.mp ha
    exact ofDraft_artifactsOf shopParser shopDisk path a ha
  -- no artifact has a fingerprint as short as this one
  have hstale : "0" ∈ Marker.recorded shopDocument := by simp [hrecorded]
  have hcurrent := Drift.not_current_of_short hdraft hstale (by decide)
  have hending := ending_perform_checking readText_shopDisk.2.2 false
    ((["empty.ts", "cart.ts"].map Path.ofString).flatMap (artifactsOf shopParser shopDisk))
  rw [hcurrent, if_neg Bool.false_ne_true] at hending
  exact (run_of_readable shopParser hread' hparse).1.trans hending

end Run

end Flowchart
