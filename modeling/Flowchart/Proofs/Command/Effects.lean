import Flowchart.Proofs.Command.Checking
import Flowchart.Proofs.Command.Disk
import Flowchart.Proofs.Command.Settings

set_option relaxedAutoImplicit false
set_option autoImplicit false

/-!
# Effects of runs

What a run prints and changes. A run that cannot be carried out, because the disk refuses a reading,
prints nothing and leaves the disk as it is, wherever the reading stands among the others. A run
changes the disk only when it renders to a file, and then only behind the reading of all its source
files: it changes the file that it names, and makes missing directories above it.

## Main definitions

* `Flowchart.Access.Refused`: a reading that the disk refuses.

## Main results

* `Flowchart.Access.stops_of_refused`: behind accesses without a fault, a refused reading ends the
  run as one that cannot be carried out.
* `Flowchart.Run.untouched_of_unusable`: a run that cannot be carried out changes nothing.
* `Flowchart.Run.disk_execute`: the disk behind a task on files.
* `Flowchart.Run.effects_confined`: what a run prints and changes.
-/

namespace Flowchart

namespace Access

variable {d : Disk}

/-! ## Refused readings -/

/-- A reading that the disk refuses. -/
inductive Refused (d : Disk) : Access → Prop where
  | source {path place : Path} {reason : DiskError.Reason} :
      d.read path = .error (.refused reason place) → Refused d (.source path)
  | document {name : String} {place : Path} {reason : DiskError.Reason} :
      d.read (.ofString name) = .error (.refused reason place) → Refused d (.document (some name))

/-- A refused reading ends a run as one that cannot be carried out. -/
lemma Refused.exists_fails {a : Access} (h : a.Refused d) :
    ∃ failure, a.Fails d failure ∧ failure.ending = .status Run.statusUnusable := by
  cases h with
  | source hread => exact ⟨_, .source (.refused hread), rfl⟩
  | document hread => exact ⟨_, .document (.refused hread), rfl⟩

/-- An access that fails is a refused reading or a fault. -/
lemma Fails.unusable_or_fault {a : Access} {failure : Failure} (h : a.Fails d failure) :
    failure.ending = .status Run.statusUnusable ∨ ∃ fault, failure = ⟨.fault fault, []⟩ := by
  have hread : ∀ path, d.ReadFails path failure →
      failure.ending = .status Run.statusUnusable ∨ ∃ fault, failure = ⟨.fault fault, []⟩ :=
    fun path h => by
      cases h with
      | refused _ => exact .inl rfl
      | nullCharacter _ => exact .inr ⟨_, rfl⟩
      | undecodable _ _ => exact .inr ⟨_, rfl⟩
  cases h with
  | source h => exact hread _ h
  | document h => exact hread _ h
  | unnamed => exact .inr ⟨_, rfl⟩
  | output _ => exact .inr ⟨_, rfl⟩

/-- **Behind accesses without a fault, a refused reading** ends the run as one that cannot be
carried out, by itself or because an earlier reading is refused. -/
lemma stops_of_refused {before : List Access} {bad : Access} (hbad : bad.Refused d)
    (hbefore : ∀ a ∈ before, ∀ fault, ¬ a.Fails d ⟨.fault fault, []⟩) (after : List Access) :
    ∃ failure, Stops d (before ++ bad :: after) failure ∧
      failure.ending = .status Run.statusUnusable := by
  induction before with
  | nil =>
    obtain ⟨failure, hfails, hending⟩ := hbad.exists_fails
    exact ⟨failure, .here hfails, hending⟩
  | cons a before ih =>
    obtain ⟨hfault, hrest⟩ := List.forall_mem_cons.mp hbefore
    by_cases hfails : ∃ failure, a.Fails d failure
    · obtain ⟨failure, hfailure⟩ := hfails
      refine ⟨failure, .here hfailure, hfailure.unusable_or_fault.resolve_right ?_⟩
      rintro ⟨fault, rfl⟩
      exact hfault fault hfailure
    · obtain ⟨failure, hstops, hending⟩ := ih hrest
      exact ⟨failure, .later (not_exists.mp hfails) hstops, hending⟩

end Access

namespace Run

variable {d : Disk} (parser : Parser) (verbose : Bool)

/-! ## Tasks -/

/-- A comparison ends at its document without an effect, or it compares the text that was read. -/
lemma checking_cases (d : Disk) (document : Option String) (artifacts : List Artifact) :
    (∃ ending reported, checking d verbose document artifacts = ⟨ending, "", reported, d⟩) ∨
      ∃ path text,
        checking d verbose document artifacts = comparing d verbose path artifacts text := by
  cases document with
  | none => exact .inl ⟨_, _, rfl⟩
  | some name =>
    unfold checking
    dsimp only
    generalize readText d (.ofString name) = reading
    obtain ⟨lines, result⟩ := reading
    cases result with
    | error e => exact .inl ⟨_, _, rfl⟩
    | ok text => exact .inr ⟨_, text, rfl⟩

/-- A comparison leaves the disk as it is. -/
lemma disk_checking (document : Option String) (artifacts : List Artifact) :
    (checking d verbose document artifacts).disk = d := by
  rcases checking_cases verbose d document artifacts with
    ⟨ending, reported, hstop⟩ | ⟨path, text, hcompare⟩
  · rw [hstop]
  · rw [hcompare]
    unfold comparing
    dsimp only
    split_ifs <;> rfl

/-- A comparison that cannot be carried out prints nothing. -/
lemma printed_checking {document : Option String} {artifacts : List Artifact}
    (h : (checking d verbose document artifacts).ending = .status statusUnusable) :
    (checking d verbose document artifacts).printed = "" := by
  rcases checking_cases verbose d document artifacts with
    ⟨ending, reported, hstop⟩ | ⟨path, text, hcompare⟩
  · rw [hstop]
  · rw [hcompare, ending_comparing] at h
    split_ifs at h <;> cases h

/-- A task that does not name an output leaves the disk as it is. -/
lemma disk_perform {task : Task} (h : ∀ name title, task ≠ .rendering (some name) title)
    (artifacts : List Artifact) : (perform d verbose task artifacts).disk = d := by
  cases task with
  | sections json owner =>
    simp only [perform, sections]
    split <;> rfl
  | rendering output title =>
    cases output with
    | none => rfl
    | some name => exact absurd rfl (h name title)
  | checking document =>
    rw [perform]
    exact disk_checking verbose document artifacts

/-- Rendering to an output saves the document in it. -/
lemma disk_rendering (name title : String) (artifacts : List Artifact) :
    (rendering d (some name) title artifacts).disk =
      (d.save (.ofString name) (Text.Utf8.encode (Document.render title artifacts))).disk := by
  simp only [rendering, Disk.save]
  split <;> rfl

/-- A task that cannot be carried out prints nothing. -/
lemma printed_perform {task : Task} {artifacts : List Artifact}
    (h : (perform d verbose task artifacts).ending = .status statusUnusable) :
    (perform d verbose task artifacts).printed = "" ∧
      ∀ name title, task ≠ .rendering (some name) title := by
  cases task with
  | sections json owner =>
    simp only [perform, sections] at h
    split at h <;> cases h
  | rendering output title =>
    cases output with
    | none => cases h
    | some name =>
      simp only [perform, rendering] at h
      split at h <;> cases h
  | checking document =>
    rw [perform] at h ⊢
    exact ⟨printed_checking verbose h, by simp⟩

/-! ## Tasks on files -/

/-- A run ends at a source file without an effect, or it does the task on the artifacts of all
source files. -/
lemma execute_cases (d : Disk) (task : Task) (files : List String) :
    (∃ lines ending, execute parser d verbose task files = ⟨ending, "", unlines lines, d⟩) ∨
      (∀ a ∈ Access.sources (files.map Path.ofString), ∀ failure, ¬ a.Fails d failure) ∧
        ∃ lines, execute parser d verbose task files =
          let outcome := perform d verbose task
            ((files.map Path.ofString).flatMap (artifactsOf parser d))
          { outcome with reported := unlines lines ++ outcome.reported } := by
  rcases Access.stops_or_not d (Access.sources (files.map Path.ofString)) with
    ⟨failure, hstops⟩ | hsources
  · obtain ⟨earlier, hstop⟩ := exists_load_of_stops parser verbose hstops
    exact .inl ⟨_, _, execute_of_stop parser verbose hstop⟩
  · obtain ⟨lines, hdone⟩ := exists_load parser verbose hsources
    exact .inr ⟨hsources, lines, execute_of_done parser verbose hdone⟩

/-- **A run that cannot be carried out changes nothing**, and prints nothing. -/
lemma untouched_of_unusable {task : Task} {files : List String}
    (h : (execute parser d verbose task files).ending = .status statusUnusable) :
    (execute parser d verbose task files).printed = "" ∧
      (execute parser d verbose task files).disk = d := by
  rcases execute_cases parser verbose d task files with ⟨lines, ending, hstop⟩ | ⟨-, lines, hdone⟩
  · rw [hstop]
    exact ⟨rfl, rfl⟩
  · rw [hdone] at h ⊢
    obtain ⟨hprinted, htask⟩ := printed_perform verbose h
    exact ⟨hprinted, disk_perform verbose htask _⟩

/-- **The disk behind a task on files** is the one before it, unless all source files could be read
and their document is saved in an output. -/
lemma disk_execute (d : Disk) (task : Task) (files : List String) :
    (execute parser d verbose task files).disk = d ∨
      ∃ name title, task = .rendering (some name) title ∧
        (∀ a ∈ Access.sources (files.map Path.ofString), ∀ failure, ¬ a.Fails d failure) ∧
        (execute parser d verbose task files).disk =
          (d.save (.ofString name) (Text.Utf8.encode (Document.render title
            ((files.map Path.ofString).flatMap (artifactsOf parser d))))).disk := by
  rcases execute_cases parser verbose d task files with
    ⟨lines, ending, hstop⟩ | ⟨hsources, lines, hdone⟩
  · exact .inl (by rw [hstop])
  · rw [hdone]
    by_cases htask : ∀ name title, task ≠ .rendering (some name) title
    · exact .inl (disk_perform verbose htask _)
    · push Not at htask
      obtain ⟨name, title, rfl⟩ := htask
      refine .inr ⟨name, title, rfl, hsources, ?_⟩
      dsimp only
      rw [perform, disk_rendering]

/-! ## Command lines -/

/-- **What a run prints and changes.** If the disk refuses to read a source file or the document to
compare with, and no reading before it is a fault, then the run ends with status 2, prints nothing
and leaves the disk as it is, wherever the reading stands. And if a run leaves another disk, then it
renders to an output that is named and not empty, and all its source files could be read: what
changed is the file that the name leads to, which holds the document of the artifacts of all files,
and the directories above it that were missing.

**Proof sketch.** Some reading is the first that is refused (`Access.stops_of_refused`), and a run
with status 2 has done nothing yet (`untouched_of_unusable`). A task changes the disk by saving the
document only (`disk_execute`), which puts entries where no directory stands and so keeps every
other place (`Disk.changed_save`). The option for the output drops an empty name, and no other
option can name one (`Invocation.output_ne`). -/
theorem effects_confined (d : Disk) (arguments : List String) :
    (∀ verbose task files before bad after,
      Invocation.parse arguments = .ok ⟨verbose, some (task, files)⟩ →
      task.accesses (files.map Path.ofString) = before ++ bad :: after →
      bad.Refused d → (∀ a ∈ before, ∀ fault, ¬ a.Fails d ⟨.fault fault, []⟩) →
      (run parser d arguments).ending = .status 2 ∧ (run parser d arguments).printed = "" ∧
        (run parser d arguments).disk = d) ∧
    ((run parser d arguments).disk ≠ d →
      ∃ verbose name title files,
        Invocation.parse arguments = .ok ⟨verbose, some (.rendering (some name) title, files)⟩ ∧
        name ≠ "" ∧
        (∀ a ∈ Access.sources (files.map Path.ofString), ∀ failure, ¬ a.Fails d failure) ∧
        let d' := (run parser d arguments).disk
        let artifacts := (files.map Path.ofString).flatMap (artifactsOf parser d)
        ∀ place, d'.at? place ≠ d.at? place →
          (d'.locate (.ofString name) = .ok place ∧
            d'.at? place = some (.file (Text.Utf8.encode (Document.render title artifacts)))) ∨
          (d.at? place = none ∧ d'.at? place = some .directory ∧
            ∃ above ∈ (Path.ofString name).ancestors, d'.locate above = .ok place)) := by
  have hrun : ∀ {verbose task files},
      Invocation.parse arguments = .ok ⟨verbose, some (task, files)⟩ →
      run parser d arguments = execute parser d verbose task files := fun hparse => by
    rw [run, hparse]
  constructor
  · intro verbose task files before bad after hparse haccesses hbad hbefore
    obtain ⟨failure, hstops, hending⟩ := Access.stops_of_refused hbad hbefore after
    rw [← haccesses] at hstops
    rw [hrun hparse]
    have hunusable := ((execute_ends parser verbose d task files).1 failure hstops).1.trans hending
    exact ⟨hunusable, untouched_of_unusable parser verbose hunusable⟩
  · intro hchanged
    cases hparse : Invocation.parse arguments with
    | error r =>
      -- a refused command line
      refine absurd ?_ hchanged
      simp only [run, hparse, refused]
      cases r.halt <;> rfl
    | ok i =>
      obtain ⟨verbose, _ | ⟨task, files⟩⟩ := i
      · refine absurd ?_ hchanged
        simp only [run, hparse]
      · rw [hrun hparse] at hchanged ⊢
        rcases disk_execute parser verbose d task files with
          hsame | ⟨name, title, rfl, hsources, hsaved⟩
        · exact absurd hsame hchanged
        · refine ⟨verbose, name, title, files, rfl, ?_, hsources, fun place hplace => ?_⟩
          · exact fun hempty => Invocation.output_ne hparse (congrArg some hempty)
          · rw [hsaved] at hplace ⊢
            exact Disk.changed_save d _ _ hplace

/-- A disk with two source files on it, and the document `flows.md`. -/
def sourceDisk : Disk :=
  ⟨[], [(["a.ts"], .file []), (["b.ts"], .file []), (["flows.md"], .file [])]⟩

/-- **A missing file behind one that can be read** ends the run without an effect, and a run that
leaves another disk has named its output. -/
theorem effects_confined_of_missing :
    ((run (Parser.ofKnown []) sourceDisk ["show", "a.ts", "gone.ts"]).ending = .status 2 ∧
      (run (Parser.ofKnown []) sourceDisk ["show", "a.ts", "gone.ts"]).printed = "" ∧
      (run (Parser.ofKnown []) sourceDisk ["show", "a.ts", "gone.ts"]).disk = sourceDisk) ∧
    ∃ verbose name title files,
      Invocation.parse ["render", "a.ts", "-o", "docs/flows.md"] =
          .ok ⟨verbose, some (.rendering (some name) title, files)⟩ ∧ name ≠ "" := by
  have haccesses : (Task.sections false none).accesses (["a.ts", "gone.ts"].map Path.ofString) =
      [.source ⟨.working, ["a.ts"]⟩] ++ .source ⟨.working, ["gone.ts"]⟩ :: [] := by
    decide +kernel
  have hread : sourceDisk.read ⟨.working, ["a.ts"]⟩ = .ok [] := by decide +kernel
  have hgone : sourceDisk.read ⟨.working, ["gone.ts"]⟩ =
      .error (.refused .missing ⟨.working, ["gone.ts"]⟩) := by
    decide +kernel
  have hbefore : ∀ a ∈ [Access.source ⟨.working, ["a.ts"]⟩], ∀ fault,
      ¬ a.Fails sourceDisk ⟨.fault fault, []⟩ := by
    refine List.forall_mem_singleton.mpr fun fault h => ?_
    cases h with
    | source h => exact not_readFails (readText_of_decode hread rfl rfl) _ h
  have hchanged : (run (Parser.ofKnown []) sourceDisk
      ["render", "a.ts", "-o", "docs/flows.md"]).disk ≠ sourceDisk := by
    decide +kernel
  refine ⟨(effects_confined (Parser.ofKnown []) sourceDisk ["show", "a.ts", "gone.ts"]).1 false
    (.sections false none) _ _ _ _ rfl haccesses (.source hgone) hbefore, ?_⟩
  obtain ⟨verbose, name, title, files, hparse, hname, -⟩ :=
    (effects_confined (Parser.ofKnown []) sourceDisk ["render", "a.ts", "-o", "docs/flows.md"]).2
      hchanged
  exact ⟨verbose, name, title, files, hparse, hname⟩

/-- **A path that holds a null character** is not looked up and no text is read, but it ends the run
by a fault before the missing file behind it is refused. -/
theorem fault_before_missing :
    Invocation.parse ["show", "a\x00.ts", "gone.ts"] =
        .ok ⟨false, some (.sections false none, ["a\x00.ts", "gone.ts"])⟩ ∧
      (Task.sections false none).accesses (["a\x00.ts", "gone.ts"].map Path.ofString) =
        [.source ⟨.working, ["a\x00.ts"]⟩] ++ .source ⟨.working, ["gone.ts"]⟩ :: [] ∧
      (Access.source ⟨.working, ["gone.ts"]⟩).Refused sourceDisk ∧
      (∀ a ∈ [Access.source ⟨.working, ["a\x00.ts"]⟩], ∀ fault,
        ¬ a.Fails sourceDisk ⟨.fault (.undecodable fault), []⟩) ∧
      (run (Parser.ofKnown []) sourceDisk ["show", "a\x00.ts", "gone.ts"]).ending =
        .fault (.disk .nullCharacter) := by
  have hgone : sourceDisk.read ⟨.working, ["gone.ts"]⟩ =
      .error (.refused .missing ⟨.working, ["gone.ts"]⟩) := by
    decide +kernel
  have hnull : sourceDisk.read ⟨.working, ["a\x00.ts"]⟩ = .error .nullCharacter := by
    decide +kernel
  refine ⟨rfl, by decide +kernel, .source hgone, ?_, by decide +kernel⟩
  refine List.forall_mem_singleton.mpr fun fault h => ?_
  cases h with
  | source h =>
    cases h with
    | undecodable hread _ =>
      rw [hnull] at hread
      cases hread

end Run

end Flowchart
