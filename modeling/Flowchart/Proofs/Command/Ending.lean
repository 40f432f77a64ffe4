import Flowchart.Command.Run
import Flowchart.Proofs.Document.Freshness

set_option relaxedAutoImplicit false
set_option autoImplicit false

/-!
# Endings of runs

How a run of the program ends. A run looks up its source files, and then the document to compare
with or the file to write to. The first access that fails decides how it ends: a reading that the
disk refuses is reported, and any other failure is a fault that ends the run without a status.

## Main definitions

* `Flowchart.Access`: an access to the disk.
* `Flowchart.Task.accesses`: the accesses of a task, in their order.
* `Flowchart.Access.Fails`: how a run ends at an access that fails.
* `Flowchart.Access.Stops`: how a run ends at the first access that fails.

## Main results

* `Flowchart.Run.run_of_readable`: what a run leaves behind if its source files can be read.
* `Flowchart.Run.execute_ends`: a task on files ends at the first access that fails.
* `Flowchart.Run.fault_of_output`: an output that cannot be written ends the run by a fault.
* `Flowchart.Run.ending_of_accepted`: how the run of an accepted command line ends.
-/

namespace Flowchart

/-! ## Accesses -/

/-- An access to the disk. -/
inductive Access where
  /-- Reading a source file. -/
  | source (path : Path)
  /-- Reading the document to compare with, whose name may have been dropped. -/
  | document (name : Option String)
  /-- Writing the document to a file. -/
  | output (name : String)
  deriving DecidableEq

/-- The access of a task behind its source files, if it has one. -/
def Task.lastAccess? : Task → Option Access
  | .sections _ _ => none
  | .rendering output _ => output.map .output
  | .checking document => some (.document document)

/-- The accesses to source files; those that no grammar reads are not looked up. -/
def Access.sources (files : List Path) : List Access :=
  (files.filter fun path => (Language.ofPath? path).isSome).map .source

/-- The accesses of a task on files: the source files, and then the task's own. -/
def Task.accesses (task : Task) (files : List Path) : List Access :=
  Access.sources files ++ task.lastAccess?.toList

/-- Making the directory of a path and writing bytes to the path. -/
def Disk.save (d : Disk) (path : Path) (bytes : List UInt8) : Disk.Change :=
  (d.makeDirectories path.parent).andThen fun d => d.write path bytes

/-- How a run ends by a failure, and what it reports of it. -/
structure Failure where
  ending : Ending
  reported : List String

/-- How a reading fails. -/
inductive Disk.ReadFails (d : Disk) (path : Path) : Failure → Prop where
  /-- The disk refuses it, which is reported. -/
  | refused {reason : DiskError.Reason} {place : Path} :
      d.read path = .error (.refused reason place) →
      ReadFails d path ⟨.status Run.statusUnusable,
        ["Error reading " ++ path.toString ++ ": " ++ (DiskError.refused reason place).message]⟩
  /-- The path holds a null character. -/
  | nullCharacter :
      d.read path = .error .nullCharacter → ReadFails d path ⟨.fault (.disk .nullCharacter), []⟩
  /-- The file is no text. -/
  | undecodable {bytes : List UInt8} {fault : Text.Utf8.Fault} :
      d.read path = .ok bytes → Text.Utf8.decode bytes = .error fault →
      ReadFails d path ⟨.fault (.undecodable fault), []⟩

namespace Access

variable {d : Disk}

/-- How a run ends at an access that fails. -/
inductive Fails (d : Disk) : Access → Failure → Prop where
  | source {path : Path} {failure : Failure} :
      d.ReadFails path failure → Fails d (.source path) failure
  | document {name : String} {failure : Failure} :
      d.ReadFails (.ofString name) failure → Fails d (.document (some name)) failure
  | unnamed : Fails d (.document none) ⟨.fault .unnamed, []⟩
  /-- Whatever is written, a file that cannot be written is a fault. -/
  | output {name : String} {bytes : List UInt8} {error : DiskError} :
      (d.save (.ofString name) bytes).error = some error →
      Fails d (.output name) ⟨.fault (.disk error), []⟩

/-- How a run ends at the first access that fails. -/
inductive Stops (d : Disk) : List Access → Failure → Prop where
  | here {a : Access} {rest : List Access} {failure : Failure} :
      a.Fails d failure → Stops d (a :: rest) failure
  | later {a : Access} {rest : List Access} {failure : Failure} :
      (∀ failure, ¬ a.Fails d failure) → Stops d rest failure → Stops d (a :: rest) failure

/-- The first of several files is looked up before the others, if some grammar reads it. -/
lemma sources_cons (path : Path) (files : List Path) :
    sources (path :: files) =
      if (Language.ofPath? path).isSome then .source path :: sources files else sources files := by
  unfold sources
  rw [List.filter_cons]
  split_ifs <;> rfl

/-- The first of several files is the first that fails, or it can be read and another one is. -/
lemma stops_sources_cons {path : Path} {files : List Path} {failure : Failure}
    (h : Stops d (sources (path :: files)) failure) :
    ((Language.ofPath? path).isSome = true ∧ d.ReadFails path failure) ∨
      ((Language.ofPath? path).isSome = true → ∀ failure, ¬ d.ReadFails path failure) ∧
        Stops d (sources files) failure := by
  rw [sources_cons] at h
  split_ifs at h with hsupported
  · cases h with
    | here hfails =>
      cases hfails with
      | source hfails => exact .inl ⟨hsupported, hfails⟩
    | later hnot hrest => exact .inr ⟨fun _ _ hfails => hnot _ (.source hfails), hrest⟩
  · exact .inr ⟨fun hsome => absurd hsome hsupported, h⟩

/-- If no access to several files fails, the first of them can be read, and so can the others. -/
lemma readable_sources_cons {path : Path} {files : List Path}
    (h : ∀ a ∈ sources (path :: files), ∀ failure, ¬ a.Fails d failure) :
    ((Language.ofPath? path).isSome = true → ∀ failure, ¬ d.ReadFails path failure) ∧
      ∀ a ∈ sources files, ∀ failure, ¬ a.Fails d failure := by
  rw [sources_cons] at h
  split_ifs at h with hsupported
  · obtain ⟨hpath, hrest⟩ := List.forall_mem_cons.mp h
    exact ⟨fun _ _ hfails => hpath _ (.source hfails), hrest⟩
  · exact ⟨fun hsome => absurd hsome hsupported, h⟩

/-- Some access is the first that fails, or none fails. -/
lemma stops_or_not (d : Disk) (accesses : List Access) :
    (∃ failure, Stops d accesses failure) ∨ ∀ a ∈ accesses, ∀ failure, ¬ a.Fails d failure := by
  induction accesses with
  | nil => exact .inr fun a ha => absurd ha List.not_mem_nil
  | cons a rest ih =>
    by_cases hfails : ∃ failure, a.Fails d failure
    · obtain ⟨failure, hfailure⟩ := hfails
      exact .inl ⟨failure, .here hfailure⟩
    · have hnot := not_exists.mp hfails
      rcases ih with ⟨failure, hstops⟩ | hnone
      · exact .inl ⟨failure, .later hnot hstops⟩
      · exact .inr (List.forall_mem_cons.mpr ⟨hnot, hnone⟩)

/-- Nothing is reported of a fault. -/
lemma Fails.reported_of_fault {a : Access} {fault : Fault} {failure : Failure}
    (h : a.Fails d failure) (hfault : failure.ending = .fault fault) :
    failure = ⟨.fault fault, []⟩ := by
  have hread : ∀ path, d.ReadFails path failure → failure = ⟨.fault fault, []⟩ := fun path h => by
    cases h <;> cases hfault <;> rfl
  cases h with
  | source h => exact hread _ h
  | document h => exact hread _ h
  | unnamed => cases hfault; rfl
  | output _ => cases hfault; rfl

/-- The run stops at an access that fails. -/
lemma Stops.exists_fails {accesses : List Access} {failure : Failure}
    (h : Stops d accesses failure) : ∃ a ∈ accesses, a.Fails d failure := by
  induction h with
  | here hfails => exact ⟨_, List.mem_cons_self, hfails⟩
  | later _ _ ih =>
    obtain ⟨a, ha, hfails⟩ := ih
    exact ⟨a, List.mem_cons_of_mem _ ha, hfails⟩

/-- In two rows of accesses one of the first row is the first that fails, or one of the second. -/
lemma stops_append {before after : List Access} {failure : Failure}
    (h : Stops d (before ++ after) failure) :
    Stops d before failure ∨
      (∀ a ∈ before, ∀ failure, ¬ a.Fails d failure) ∧ Stops d after failure := by
  induction before with
  | nil => exact .inr ⟨fun a ha => absurd ha List.not_mem_nil, h⟩
  | cons a before ih =>
    cases h with
    | here hfails => exact .inl (.here hfails)
    | later hnot hrest =>
      rcases ih hrest with hbefore | ⟨hnone, hafter⟩
      · exact .inl (.later hnot hbefore)
      · exact .inr ⟨List.forall_mem_cons.mpr ⟨hnot, hnone⟩, hafter⟩

end Access

namespace Disk

variable {d : Disk} {path : Path}

/-- Whether a file can be written does not depend on what is written. -/
lemma error_save (d : Disk) (path : Path) (bytes bytes' : List UInt8) :
    (d.save path bytes).error = (d.save path bytes').error := by
  have hwrite : ∀ d : Disk, (d.write path bytes).error = (d.write path bytes').error := fun d => by
    unfold write
    cases d.locate path with
    | error e => rfl
    | ok place =>
      simp only
      cases d.at? place with
      | none => rfl
      | some entry => cases entry <;> rfl
  unfold save Change.andThen
  split_ifs
  · rfl
  · exact hwrite _

/-- Only the directory itself is made unless one above it is missing. -/
lemma makeDirectories_eq (h : (d.makeDirectory path).error ≠ some (.refused .missing path)) :
    d.makeDirectories path = d.ensureDirectory path := by
  unfold makeDirectories
  cases hnames : path.names.reverse with
  | nil =>
    have hpath : path = ⟨path.root, []⟩ := by
      rw [← List.reverse_eq_nil_iff.mp hnames]
    rw [ensureAll, ← hpath]
  | cons name names =>
    have hpath : path = ⟨path.root, (name :: names).reverse⟩ := by
      rw [← hnames, List.reverse_reverse]
    rw [ensureAll, ← hpath, if_neg h]

/-- No directory is made in a place where something stands. -/
lemma makeDirectory_of_at? {place : Place} {entry : Entry} (hplace : d.locate path = .ok place)
    (hentry : d.at? place = some entry) :
    d.makeDirectory path = ⟨d, some (.refused .exists path)⟩ := by
  simp only [makeDirectory, hplace, hentry]

/-- A directory stands in the place that its path leads to. -/
lemma exists_place_of_isDirectory (h : d.isDirectory path = true) :
    ∃ place, d.locate path = .ok place ∧ d.at? place = some .directory := by
  unfold isDirectory at h
  cases hplace : d.locate path with
  | error e =>
    rw [hplace] at h
    cases h
  | ok place =>
    rw [hplace] at h
    exact ⟨place, rfl, beq_iff_eq.mp h⟩

/-- **A directory cannot be written to.** -/
lemma save_of_isDirectory (hparent : d.isDirectory path.parent = true)
    (h : d.isDirectory path = true) (bytes : List UInt8) :
    (d.save path bytes).error = some (.refused .isDirectory path) := by
  obtain ⟨above, habove, hdirectory⟩ := exists_place_of_isDirectory hparent
  obtain ⟨place, hplace, hentry⟩ := exists_place_of_isDirectory h
  have hmake := makeDirectory_of_at? habove hdirectory
  have hnothing : d.makeDirectories path.parent = ⟨d, none⟩ := by
    rw [makeDirectories_eq (by simp [hmake]), ensureDirectory, hmake, hparent]
    rfl
  have hsave : d.save path bytes = d.write path bytes := by
    rw [save, hnothing]
    rfl
  rw [hsave]
  simp only [write, hplace, hentry]

/-- **No file can be written below a file.** -/
lemma save_of_file {place : Place} {content : List UInt8}
    (hplace : d.locate path.parent = .ok place) (hfile : d.at? place = some (.file content))
    (bytes : List UInt8) : (d.save path bytes).error = some (.refused .exists path.parent) := by
  have hmake := makeDirectory_of_at? hplace hfile
  have hnot : d.isDirectory path.parent = false := by
    simp [isDirectory, hplace, hfile]
  have hfails : d.makeDirectories path.parent = ⟨d, some (.refused .exists path.parent)⟩ := by
    rw [makeDirectories_eq (by simp [hmake]), ensureDirectory, hmake, hnot]
    rfl
  rw [save, hfails]
  rfl

end Disk

namespace Run

variable {d : Disk} {path : Path} {failure : Failure}

/-! ## Readings -/

/-- A reading that fails ends the run as it fails. -/
lemma readText_of_fails (h : d.ReadFails path failure) :
    readText d path = .stop failure.reported failure.ending := by
  cases h with
  | refused hread => simp [readText, hread]
  | nullCharacter hread => simp [readText, hread]
  | undecodable hread hdecode => simp [readText, hread, hdecode]

/-- A file that is text is read with unified line ends. -/
lemma readText_of_decode {bytes : List UInt8} {text unified : String}
    (hread : d.read path = .ok bytes) (hdecode : Text.Utf8.decode bytes = .ok text)
    (hunified : Text.Utf8.unifyNewlines text = unified) : readText d path = .done [] unified := by
  simp only [readText, hread, hdecode, hunified]

/-- A reading that gives a text does not fail. -/
lemma not_readFails {lines : List String} {text : String} (h : readText d path = .done lines text)
    (failure : Failure) : ¬ d.ReadFails path failure := by
  intro hfails
  rw [readText_of_fails hfails] at h
  cases h

/-- A reading that does not fail gives a text. -/
lemma exists_readText (h : ∀ failure, ¬ d.ReadFails path failure) :
    ∃ text, readText d path = .done [] text := by
  cases hread : d.read path with
  | error e =>
    cases e with
    | refused reason place => exact absurd (.refused hread) (h _)
    | nullCharacter => exact absurd (.nullCharacter hread) (h _)
  | ok bytes =>
    cases hdecode : Text.Utf8.decode bytes with
    | error fault => exact absurd (.undecodable hread hdecode) (h _)
    | ok text => exact ⟨_, readText_of_decode hread hdecode rfl⟩

/-! ## Source files -/

variable (parser : Parser) (verbose : Bool)

/-- A text always gives artifacts. -/
lemma exists_extract (path : Path) (text : String) :
    ∃ lines artifacts, extract parser verbose path text = .done lines artifacts := by
  obtain ⟨r, hr, -⟩ := Report.exists_ofFile path fun language => parser language text
  unfold extract
  rw [hr]
  exact ⟨_, _, rfl⟩

/-- A source file that cannot be read ends the run. -/
lemma loadFile_of_fails (h : (Language.ofPath? path).isSome = true)
    (hfails : d.ReadFails path failure) :
    loadFile parser d verbose path = .stop failure.reported failure.ending := by
  rw [loadFile, if_neg (by simpa [Option.isSome_iff_ne_none] using h), readText_of_fails hfails]
  rfl

/-- The artifacts of a file; one that cannot be read has none. -/
def artifactsOf (parser : Parser) (d : Disk) (path : Path) : List Artifact :=
  (loadFile parser d false path).result.toOption.getD []

/-- Notes do not change what a file gives. -/
lemma result_loadFile (d : Disk) (path : Path) :
    (loadFile parser d verbose path).result = (loadFile parser d false path).result := by
  unfold loadFile
  split_ifs
  · rfl
  · unfold Step.bind
    cases (readText d path).result with
    | error e => rfl
    | ok text =>
      simp only [extract]
      cases Report.ofFile path fun language => parser language text <;> rfl

/-- A file gives its artifacts if it can be read; one that no grammar reads gives none. -/
lemma exists_loadFile
    (h : (Language.ofPath? path).isSome = true → ∀ failure, ¬ d.ReadFails path failure) :
    ∃ lines, loadFile parser d verbose path = .done lines (artifactsOf parser d path) := by
  have hfound : ∃ lines artifacts, loadFile parser d verbose path = .done lines artifacts := by
    by_cases hsupported : (Language.ofPath? path).isSome = true
    · obtain ⟨text, htext⟩ := exists_readText (h hsupported)
      obtain ⟨lines, artifacts, hextract⟩ := exists_extract parser verbose path text
      refine ⟨lines, artifacts, ?_⟩
      rw [loadFile, if_neg (by simpa [Option.isSome_iff_ne_none] using hsupported), htext]
      simp [Step.bind, Step.done, hextract]
    · exact ⟨_, _, by rw [loadFile, if_pos (by simpa using hsupported)]⟩
  obtain ⟨lines, artifacts, hfile⟩ := hfound
  have hartifacts : artifactsOf parser d path = artifacts := by
    rw [artifactsOf, ← result_loadFile parser verbose, hfile]
    rfl
  exact ⟨lines, by rw [hartifacts, hfile]⟩

/-- The artifacts of a file are those of drafts. -/
lemma ofDraft_artifactsOf (d : Disk) (path : Path) :
    ∀ a ∈ artifactsOf parser d path, a.OfDraft := by
  have hnone : ∀ a ∈ ([] : List Artifact), a.OfDraft := fun a ha => absurd ha List.not_mem_nil
  unfold artifactsOf loadFile
  split_ifs
  · exact hnone
  · unfold Step.bind
    cases (readText d path).result with
    | error e => exact hnone
    | ok text =>
      obtain ⟨r, hr, howned⟩ := Report.exists_ofFile path fun language => parser language text
      simp only [extract, hr]
      exact howned.ofDraft

/-- The artifacts of a file are those of the owners in its script. -/
lemma documents_artifactsOf {language : Language} {text : String}
    (hlanguage : Language.ofPath? path = some language) (htext : readText d path = .done [] text) :
    Report.Documents (parser language text).owners ⟨artifactsOf parser d path, []⟩ := by
  obtain ⟨r, hr, hdocuments⟩ := Report.exists_documents path (parser language text)
  have hfile : Report.ofFile path (fun language => parser language text) = .ok r := by
    simp only [Report.ofFile, hlanguage, hr]
  have hartifacts : artifactsOf parser d path = r.artifacts := by
    simp [artifactsOf, loadFile, hlanguage, htext, Step.bind, Step.done, extract, hfile,
      Except.toOption]
  rw [hartifacts]
  exact hdocuments

/-- Behind a file that gives artifacts the others are loaded. -/
lemma load_cons {files : List Path} {lines : List String} {found : List Artifact}
    (h : loadFile parser d verbose path = .done lines found) :
    load parser d verbose (path :: files) =
      ⟨lines ++ (load parser d verbose files).reported,
        (load parser d verbose files).result.map (found ++ ·)⟩ := by
  rw [load, h]
  rcases hload : load parser d verbose files with ⟨more, _ | _⟩ <;>
    simp [Step.bind, Step.done, Step.stop, Except.map]

/-- **Source files** are loaded up to the first that cannot be read, which ends the run. -/
lemma exists_load_of_stops {files : List Path} (h : Access.Stops d (Access.sources files) failure) :
    ∃ earlier, load parser d verbose files =
      .stop (earlier ++ failure.reported) failure.ending := by
  induction files with
  | nil => cases h
  | cons path files ih =>
    rcases Access.stops_sources_cons h with ⟨hsupported, hfails⟩ | ⟨hnot, hrest⟩
    · refine ⟨[], ?_⟩
      rw [load, loadFile_of_fails parser verbose hsupported hfails]
      rfl
    · obtain ⟨lines, hfile⟩ := exists_loadFile parser verbose hnot
      obtain ⟨earlier, hload⟩ := ih hrest
      refine ⟨lines ++ earlier, ?_⟩
      rw [load_cons parser verbose hfile, hload, List.append_assoc]
      rfl

/-- **Source files** that can be read give the artifacts of one after the other. -/
lemma exists_load {files : List Path}
    (h : ∀ a ∈ Access.sources files, ∀ failure, ¬ a.Fails d failure) :
    ∃ lines, load parser d verbose files = .done lines (files.flatMap (artifactsOf parser d)) := by
  induction files with
  | nil => exact ⟨[], rfl⟩
  | cons path files ih =>
    obtain ⟨hpath, hfiles⟩ := Access.readable_sources_cons h
    obtain ⟨lines, hfile⟩ := exists_loadFile parser verbose hpath
    obtain ⟨more, hload⟩ := ih hfiles
    refine ⟨lines ++ more, ?_⟩
    rw [load_cons parser verbose hfile, hload]
    rfl

/-! ## Tasks -/

/-- The outcome of writing a document, by how writing it ends. -/
lemma rendering_some (name title : String) (artifacts : List Artifact) :
    ∃ bytes, (∀ error, (d.save (.ofString name) bytes).error = some error →
        (rendering d (some name) title artifacts).ending = .fault (.disk error) ∧
          (rendering d (some name) title artifacts).reported = "") ∧
      ((d.save (.ofString name) bytes).error = none →
        (rendering d (some name) title artifacts).ending = .status statusDone) := by
  refine ⟨Text.Utf8.encode (Document.render title artifacts), fun error h => ?_, fun h => ?_⟩
  · unfold Disk.save at h
    simp [rendering, h]
  · unfold Disk.save at h
    simp [rendering, h]

/-- **A task whose own access fails** ends the run as the access fails. -/
lemma perform_of_fails {task : Task} {access : Access} (haccess : task.lastAccess? = some access)
    (h : access.Fails d failure) (artifacts : List Artifact) :
    (perform d verbose task artifacts).ending = failure.ending ∧
      (perform d verbose task artifacts).reported = unlines failure.reported := by
  cases task with
  | sections json owner => cases haccess
  | rendering output title =>
    obtain ⟨name, rfl, rfl⟩ := Option.map_eq_some_iff.mp haccess
    cases h with
    | @output _ bytes error herror =>
      obtain ⟨bytes', hfails, -⟩ := rendering_some (d := d) name title artifacts
      obtain ⟨hending, hreported⟩ := hfails error
        ((Disk.error_save d (.ofString name) bytes' bytes).trans herror)
      rw [perform, hending, hreported]
      exact ⟨rfl, rfl⟩
  | checking document =>
    obtain rfl := Option.some.inj haccess
    cases h with
    | unnamed => exact ⟨rfl, rfl⟩
    | document hfails =>
      rw [perform]
      unfold checking
      simp only [readText_of_fails hfails, Step.stop, and_self]

/-- **A task whose own access does not fail** ends with a status. -/
lemma perform_of_not_fails {task : Task}
    (h : ∀ a ∈ task.lastAccess?, ∀ failure, ¬ a.Fails d failure) (artifacts : List Artifact) :
    (perform d verbose task artifacts).ending = .status statusDone ∨
      (perform d verbose task artifacts).ending = .status statusOutdated := by
  cases task with
  | sections json owner =>
    simp only [perform, sections]
    split
    · exact .inr rfl
    · exact .inl rfl
  | rendering output title =>
    cases output with
    | none => exact .inl rfl
    | some name =>
      obtain ⟨bytes, -, hdone⟩ := rendering_some (d := d) name title artifacts
      refine .inl (hdone (Option.eq_none_iff_forall_ne_some.mpr fun error herror => ?_))
      exact h _ rfl _ (.output herror)
  | checking document =>
    cases document with
    | none => exact absurd .unnamed (h _ rfl _)
    | some name =>
      obtain ⟨text, htext⟩ := exists_readText fun failure hfails =>
        h _ rfl failure (.document hfails)
      rw [perform]
      unfold checking
      simp only [htext, Step.done, comparing]
      split_ifs
      · exact .inl rfl
      · exact .inr rfl

/-! ## Command lines -/

/-- A run ends where its files cannot be loaded, and nothing is printed or changed. -/
lemma execute_of_stop {task : Task} {files lines : List String} {ending : Ending}
    (h : load parser d verbose (files.map Path.ofString) = .stop lines ending) :
    execute parser d verbose task files = ⟨ending, "", unlines lines, d⟩ := by
  simp only [execute, h, Step.stop]

/-- A run with loaded files does the task. -/
lemma execute_of_done {task : Task} {files lines : List String} {artifacts : List Artifact}
    (h : load parser d verbose (files.map Path.ofString) = .done lines artifacts) :
    execute parser d verbose task files =
      { perform d verbose task artifacts with
        reported := unlines lines ++ (perform d verbose task artifacts).reported } := by
  simp only [execute, h, Step.done]

/-- The outcome of a task on files, if these can be read. -/
lemma execute_of_load {task : Task} {files : List String} {lines : List String}
    {artifacts : List Artifact}
    (h : load parser d verbose (files.map Path.ofString) = .done lines artifacts) :
    (execute parser d verbose task files).ending = (perform d verbose task artifacts).ending ∧
      (execute parser d verbose task files).reported =
        unlines lines ++ (perform d verbose task artifacts).reported := by
  rw [execute_of_done parser verbose h]
  exact ⟨rfl, rfl⟩

/-- A run for files that can be read leaves behind what its task with their artifacts does, besides
what was reported of loading them. -/
lemma run_of_readable {files : List String}
    (hread : ∀ a ∈ Access.sources (files.map Path.ofString), ∀ failure, ¬ a.Fails d failure)
    {arguments : List String} {verbose : Bool} {task : Task}
    (hparse : Invocation.parse arguments = .ok ⟨verbose, some (task, files)⟩) :
    let outcome := perform d verbose task ((files.map Path.ofString).flatMap (artifactsOf parser d))
    (run parser d arguments).ending = outcome.ending ∧
      (run parser d arguments).printed = outcome.printed ∧
      (run parser d arguments).disk = outcome.disk := by
  obtain ⟨lines, hdone⟩ := exists_load parser verbose hread
  rw [run, hparse]
  dsimp only
  rw [execute_of_done parser verbose hdone]
  exact ⟨rfl, rfl, rfl⟩

/-- Lines behind lines. -/
lemma unlines_append (lines lines' : List String) :
    unlines (lines ++ lines') = unlines lines ++ unlines lines' := by
  simp [unlines]

/-- **A task on files ends at the first access that fails**, and with a status if none fails. -/
lemma execute_ends (d : Disk) (task : Task) (files : List String) :
    (∀ failure, Access.Stops d (task.accesses (files.map Path.ofString)) failure →
      (execute parser d verbose task files).ending = failure.ending ∧
        ∃ earlier, (execute parser d verbose task files).reported =
          unlines (earlier ++ failure.reported)) ∧
    ((∀ failure, ¬ Access.Stops d (task.accesses (files.map Path.ofString)) failure) →
      (execute parser d verbose task files).ending = .status 0 ∨
        (execute parser d verbose task files).ending = .status 1) := by
  constructor
  · intro failure hstops
    rcases Access.stops_append hstops with hsource | ⟨hnone, hlast⟩
    · obtain ⟨earlier, hstop⟩ := exists_load_of_stops parser verbose hsource
      rw [execute_of_stop parser verbose hstop]
      exact ⟨rfl, earlier, rfl⟩
    · obtain ⟨lines, hdone⟩ := exists_load parser verbose hnone
      obtain ⟨hending, hreported⟩ := execute_of_load parser verbose hdone
      cases haccess : task.lastAccess? with
      | none =>
        rw [haccess] at hlast
        cases hlast
      | some access =>
        rw [haccess] at hlast
        have hfails : access.Fails d failure := by
          cases hlast with
          | here hfails => exact hfails
          | later _ hrest => cases hrest
        obtain ⟨hends, hreports⟩ := perform_of_fails verbose haccess hfails _
        refine ⟨hending.trans hends, lines, ?_⟩
        rw [hreported, hreports, unlines_append]
  · intro hnone
    rcases Access.stops_or_not d (task.accesses (files.map Path.ofString)) with
      ⟨failure, hstops⟩ | hnot
    · exact absurd hstops (hnone failure)
    · obtain ⟨hsources, hlast⟩ := List.forall_mem_append.mp hnot
      obtain ⟨lines, hdone⟩ := exists_load parser verbose hsources
      rw [(execute_of_load parser verbose hdone).1]
      exact perform_of_not_fails verbose (fun a ha => hlast a (Option.mem_toList.mpr ha)) _

/-- **An output that cannot be written** ends the run by a fault, once its source files are read: it
is a directory, or what it should be made in is a file. -/
theorem fault_of_output {files : List String} (name title : String)
    (hsources : ∀ a ∈ Access.sources (files.map Path.ofString), ∀ failure, ¬ a.Fails d failure) :
    (d.isDirectory (Path.ofString name).parent = true → d.isDirectory (.ofString name) = true →
      (execute parser d verbose (.rendering (some name) title) files).ending =
        .fault (.disk (.refused .isDirectory (.ofString name)))) ∧
    ∀ place content, d.locate (Path.ofString name).parent = .ok place →
      d.at? place = some (.file content) →
      (execute parser d verbose (.rendering (some name) title) files).ending =
        .fault (.disk (.refused .exists (Path.ofString name).parent)) := by
  obtain ⟨lines, hdone⟩ := exists_load parser verbose hsources
  have hfails : ∀ error, (d.save (.ofString name) []).error = some error →
      (execute parser d verbose (.rendering (some name) title) files).ending =
        .fault (.disk error) := fun error herror => by
    rw [(execute_of_load parser verbose hdone).1]
    exact (perform_of_fails verbose rfl (.output herror) _).1
  exact ⟨fun hparent hname => hfails _ (Disk.save_of_isDirectory hparent hname []),
    fun place content hplace hfile => hfails _ (Disk.save_of_file hplace hfile [])⟩

/-- **How an accepted command line ends.** Without a command the run cannot be carried out. A task
on files ends at the first access to the disk that fails: with status 2 and a line that says so if
the disk refuses a reading, and otherwise by a fault. If no access fails, it ends with status 0 or
1. So the run ends without a status exactly if a file that is read is no text, if a path holds a
null character, if the name of the document was dropped, or if the output cannot be written.

**Proof sketch.** The source files are loaded up to the first that cannot be read, by induction on
their list (`exists_load_of_stops`), and the task behind them has at most one access of its own
(`perform_of_fails`). A chart never has an edge without an end, so a text that was read always gives
artifacts (`exists_extract`). -/
theorem ending_of_accepted (d : Disk) {arguments : List String} {i : Invocation}
    (h : Invocation.parse arguments = .ok i) :
    (i.command = none → (run parser d arguments).ending = .status 2) ∧
      ∀ task files, i.command = some (task, files) →
        (∀ failure, Access.Stops d (task.accesses (files.map Path.ofString)) failure →
          (run parser d arguments).ending = failure.ending ∧
            ∃ earlier, (run parser d arguments).reported =
              unlines (earlier ++ failure.reported)) ∧
        ((∀ failure, ¬ Access.Stops d (task.accesses (files.map Path.ofString)) failure) →
          (run parser d arguments).ending = .status 0 ∨
            (run parser d arguments).ending = .status 1) ∧
        ∀ fault, (run parser d arguments).ending = .fault fault ↔
          Access.Stops d (task.accesses (files.map Path.ofString)) ⟨.fault fault, []⟩ := by
  obtain ⟨verbose, command⟩ := i
  refine ⟨fun hcommand => ?_, fun task files hcommand => ?_⟩
  · obtain rfl : command = none := hcommand
    rw [run, h]
    rfl
  · obtain rfl : command = some (task, files) := hcommand
    have hrun : run parser d arguments = execute parser d verbose task files := by
      rw [run, h]
    rw [hrun]
    obtain ⟨hstops, hnone⟩ := execute_ends parser verbose d task files
    refine ⟨hstops, hnone, fun fault => ⟨fun hfault => ?_, fun hfirst => (hstops _ hfirst).1⟩⟩
    rcases Access.stops_or_not d (task.accesses (files.map Path.ofString)) with
      ⟨failure, hfirst⟩ | hnot
    · obtain ⟨a, -, hfails⟩ := hfirst.exists_fails
      obtain rfl := hfails.reported_of_fault ((hstops _ hfirst).1.symm.trans hfault)
      exact hfirst
    · have hstatus := hnone fun failure hfirst => by
        obtain ⟨a, ha, hfails⟩ := hfirst.exists_fails
        exact hnot a ha failure hfails
      rcases hstatus with hstatus | hstatus <;> rw [hstatus] at hfault <;> cases hfault

/-- A disk with nothing on it but the file `a.ts`, which holds a byte that is no text. -/
def brokenDisk : Disk :=
  ⟨[], [(["a.ts"], .file [0xff])]⟩

/-- **A source file that is not there** is reported, and the run ends with status 2. -/
theorem ending_of_missing :
    Invocation.parse ["show", "gone.ts"] = .ok ⟨false, some (.sections false none, ["gone.ts"])⟩ ∧
      (run (Parser.ofKnown []) brokenDisk ["show", "gone.ts"]).ending = .status 2 := by
  have hparse : Invocation.parse ["show", "gone.ts"] =
      .ok ⟨false, some (.sections false none, ["gone.ts"])⟩ := rfl
  have haccesses : (Task.sections false none).accesses (["gone.ts"].map Path.ofString) =
      [.source ⟨.working, ["gone.ts"]⟩] := by
    decide +kernel
  have hread : brokenDisk.read ⟨.working, ["gone.ts"]⟩ =
      .error (.refused .missing ⟨.working, ["gone.ts"]⟩) := by
    decide +kernel
  have hstops : ∃ lines, Access.Stops brokenDisk
      ((Task.sections false none).accesses (["gone.ts"].map Path.ofString)) ⟨.status 2, lines⟩ := by
    rw [haccesses]
    exact ⟨_, .here (.source (.refused hread))⟩
  obtain ⟨lines, hfirst⟩ := hstops
  have hruns := (ending_of_accepted (Parser.ofKnown []) brokenDisk hparse).2 _ _ rfl
  exact ⟨hparse, (hruns.1 _ hfirst).1⟩

/-- **A source file that is no text** ends the run without a status, and nothing is reported. -/
theorem ending_of_undecodable :
    Invocation.parse ["show", "a.ts"] = .ok ⟨false, some (.sections false none, ["a.ts"])⟩ ∧
      (run (Parser.ofKnown []) brokenDisk ["show", "a.ts"]).ending =
        .fault (.undecodable ⟨.badStart, 0, [0xff]⟩) ∧
      (run (Parser.ofKnown []) brokenDisk ["show", "a.ts"]).reported = "" := by
  refine ⟨rfl, ?_, ?_⟩
  · decide +kernel
  · decide +kernel

end Run

end Flowchart
