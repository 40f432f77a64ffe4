import Flowchart.Proofs.Command.Ending
import Mathlib.Data.List.Infix

set_option relaxedAutoImplicit false
set_option autoImplicit false

/-!
# Changes of a disk

What the operations on a disk change. An operation puts an entry in one place at most, and leaves
every other place as it is: in the places above it something stands already, because names lead to
it. No operation takes a directory away, so whatever a path led to it still leads to.

## Main definitions

* `Flowchart.Disk.Grounded`: something stands in every place above a place.
* `Flowchart.Disk.Keeps`: a disk that has all directories of another one.
* `Flowchart.Disk.Makes`: a disk on which some directories were made.
* `Flowchart.Path.ancestors`: the paths of the directories above what a path names.

## Main results

* `Flowchart.Disk.grounded_of_locate`: something stands above every place that a path leads to.
* `Flowchart.Disk.at?_put_of_ne`: an entry does not change other places.
* `Flowchart.Disk.Keeps.locate`: paths lead to the same places when directories are kept.
* `Flowchart.Disk.makes_makeDirectories`: only missing directories are made.
* `Flowchart.Disk.changed_save`: what saving bytes in a file changes.
* `Flowchart.Disk.read_save`: saved bytes are read back.
-/

namespace Flowchart

/-- The paths of the directories above what a path names, from the first one on. -/
def Path.ancestors (path : Path) : List Path :=
  path.names.dropLast.inits.map fun names => ⟨path.root, names⟩

namespace Disk

variable {d d' d'' : Disk} {place other : Place} {path : Path} {entry : Entry}

/-! ## Places -/

/-- Something stands in every place above a place. -/
def Grounded (d : Disk) (place : Place) : Prop :=
  ∀ above, above <+: place → above ≠ place → (d.at? above).isSome = true

/-- Nothing is above the root directory. -/
lemma grounded_nil (d : Disk) : d.Grounded [] :=
  fun _ habove hne => absurd (List.prefix_nil.mp habove) hne

/-- Something stands in the places above the working directory. -/
lemma grounded_working (d : Disk) : d.Grounded d.working := by
  intro above habove _
  unfold at?
  cases d.entries.find? fun e => e.1 == above with
  | some e => rfl
  | none => simp [List.isPrefixOf_iff_prefix.mpr habove]

/-- The way up from a place that something stands above. -/
lemma Grounded.dropLast (h : d.Grounded place) : d.Grounded place.dropLast := by
  intro above habove hne
  refine h above (habove.trans (List.dropLast_prefix place)) fun heq => hne ?_
  subst heq
  exact habove.eq_of_length_le (by simp)

/-- The way down to a name in a place where something stands. -/
lemma Grounded.concat (h : d.Grounded place) (hplace : (d.at? place).isSome = true)
    (name : String) : d.Grounded (place ++ [name]) := by
  intro above habove hne
  have hprefix : above <+: place := (List.prefix_concat_iff.mp habove).resolve_left hne
  by_cases heq : above = place
  · rw [heq]
    exact hplace
  · exact h above hprefix heq

/-- A name is looked up in a directory, and the other names from there. -/
lemma follow_cons_eq_ok_iff {name : String} {names : List String} :
    d.follow place (name :: names) = .ok other ↔
      (d.at? place = some .directory ∧ name.utf8ByteSize ≤ nameLimit) ∧
        d.follow (if name = ".." then place.dropLast else place ++ [name]) names = .ok other := by
  rw [follow]
  cases hentry : d.at? place with
  | none => simp
  | some entry =>
    cases entry with
    | file bytes => simp
    | directory =>
      by_cases hlong : nameLimit < name.utf8ByteSize
      · simp [hlong, Nat.not_le_of_lt hlong]
      · simp [hlong, Nat.not_lt.mp hlong]

/-- Something stands above the place that names lead to. -/
lemma grounded_of_follow {names : List String} (hplace : d.Grounded place)
    (h : d.follow place names = .ok other) : d.Grounded other := by
  induction names generalizing place with
  | nil =>
    cases h
    exact hplace
  | cons name names ih =>
    obtain ⟨⟨hentry, -⟩, hrest⟩ := follow_cons_eq_ok_iff.mp h
    refine ih ?_ hrest
    split_ifs
    · exact hplace.dropLast
    · exact hplace.concat (by rw [hentry]; rfl) name

/-- The place from which the names of a path are looked up. -/
def start (d : Disk) (path : Path) : Place :=
  if path.root = .working then d.working else []

/-- A path leads to a place if its names do from its start, unless it cannot be looked up. -/
lemma locate_eq_ok_iff : d.locate path = .ok place ↔
    ('\x00' ∉ path.toString.toList ∧ path.toString.utf8ByteSize ≤ pathLimit) ∧
      d.follow (d.start path) path.names = .ok place := by
  unfold locate start
  by_cases hnull : '\x00' ∈ path.toString.toList
  · simp [hnull]
  · by_cases hlong : pathLimit < path.toString.utf8ByteSize
    · simp [hnull, hlong]
    · rw [if_neg hnull, if_neg hlong]
      cases d.follow (if path.root = .working then d.working else []) path.names <;>
        simp [Except.mapError, hnull, Nat.not_lt.mp hlong]

/-- **Something stands above every place that a path leads to.** -/
lemma grounded_of_locate (h : d.locate path = .ok place) : d.Grounded place := by
  obtain ⟨-, hfollow⟩ := locate_eq_ok_iff.mp h
  refine grounded_of_follow ?_ hfollow
  unfold start
  split_ifs
  · exact d.grounded_working
  · exact d.grounded_nil

/-! ## Entries -/

/-- An entry stands in the place that it is put in. -/
lemma at?_put_self (d : Disk) (place : Place) (entry : Entry) :
    (d.put place entry).at? place = some entry := by
  simp [at?, put]

/-- The other listed entries stay. -/
lemma find?_put (hne : other ≠ place) (entry : Entry) :
    ((d.put place entry).entries.find? fun e => e.1 == other) =
      d.entries.find? fun e => e.1 == other := by
  rw [put, List.find?_cons_of_neg (by simpa using hne.symm), List.find?_filter]
  congr 1
  funext e
  by_cases heq : e.1 = other
  · simp [heq, hne]
  · simp [heq]

/-- Something is listed below a place that is not above the new entry if something was. -/
lemma any_put (hother : ¬ other <+: place) (entry : Entry) :
    ((d.put place entry).entries.any fun e => other.isPrefixOf e.1) =
      d.entries.any fun e => other.isPrefixOf e.1 := by
  have hhead : other.isPrefixOf place = false :=
    Bool.eq_false_iff.mpr (mt List.isPrefixOf_iff_prefix.mp hother)
  rw [put, List.any_cons, hhead, Bool.false_or, List.any_filter]
  congr 1
  funext e
  by_cases heq : e.1 = place
  · simp [heq, hhead]
  · simp [heq]

/-- **An entry does not change other places.** A place above it counts as a directory because of it,
but something stands there anyway. -/
lemma at?_put_of_ne (hplace : d.Grounded place) (hne : other ≠ place) (entry : Entry) :
    (d.put place entry).at? other = d.at? other := by
  by_cases hother : other <+: place
  · have hsome := hplace other hother hne
    have hbelow : ((d.put place entry).entries.any fun e => other.isPrefixOf e.1) = true := by
      simp [put, List.isPrefixOf_iff_prefix.mpr hother]
    unfold at? at hsome ⊢
    rw [find?_put hne, hbelow]
    cases hlisted : d.entries.find? fun e => e.1 == other with
    | some e => rfl
    | none =>
      simp only [hlisted] at hsome
      simp only [Bool.or_true, if_true]
      split_ifs at hsome ⊢ with habove
      · rfl
      · cases hsome
  · unfold at?
    rw [find?_put hne, any_put hother]
    rfl

/-- Only the place of a new entry changes. -/
lemma eq_of_at?_put_ne (hplace : d.Grounded place)
    (h : (d.put place entry).at? other ≠ d.at? other) : other = place := by
  by_contra hne
  exact h (at?_put_of_ne hplace hne entry)

/-! ## Directories are kept -/

/-- A disk with the same working directory that has all directories of another one. -/
structure Keeps (d d' : Disk) : Prop where
  working : d'.working = d.working
  directory : ∀ place, d.at? place = some .directory → d'.at? place = some .directory

namespace Keeps

/-- A disk has its own directories. -/
lemma refl (d : Disk) : d.Keeps d :=
  ⟨rfl, fun _ h => h⟩

/-- Directories are kept by one change after the other. -/
lemma trans (h : d.Keeps d') (h' : d'.Keeps d'') : d.Keeps d'' :=
  ⟨h'.working.trans h.working, fun place hplace => h'.directory place (h.directory place hplace)⟩

/-- Names lead to the same place. -/
lemma follow (h : d.Keeps d') {names : List String} (hfollow : d.follow place names = .ok other) :
    d'.follow place names = .ok other := by
  induction names generalizing place with
  | nil => exact hfollow
  | cons name names ih =>
    obtain ⟨⟨hentry, hname⟩, hrest⟩ := follow_cons_eq_ok_iff.mp hfollow
    exact follow_cons_eq_ok_iff.mpr ⟨⟨h.directory place hentry, hname⟩, ih hrest⟩

/-- **A path leads to the same place** when directories are kept. -/
lemma locate (h : d.Keeps d') (hlocate : d.locate path = .ok place) :
    d'.locate path = .ok place := by
  rw [locate_eq_ok_iff] at hlocate ⊢
  have hstart : d'.start path = d.start path := by
    rw [start, start, h.working]
  rw [hstart]
  exact ⟨hlocate.1, h.follow hlocate.2⟩

end Keeps

/-- Directories are kept by an entry in a place above which something stands, if no directory stands
in the place itself. -/
lemma keeps_put (hplace : d.Grounded place) (hnone : d.at? place ≠ some .directory)
    (entry : Entry) : d.Keeps (d.put place entry) := by
  refine ⟨rfl, fun other hother => ?_⟩
  have hne : other ≠ place := fun heq => hnone (heq ▸ hother)
  rw [at?_put_of_ne hplace hne, hother]

/-! ## Making directories -/

/-- A disk on which directories were made where nothing stood, each in a place that one of some
paths leads to. -/
structure Makes (paths : List Path) (d d' : Disk) : Prop where
  keeps : d.Keeps d'
  made : ∀ place, d'.at? place ≠ d.at? place →
    d.at? place = none ∧ d'.at? place = some .directory ∧
      ∃ path ∈ paths, d'.locate path = .ok place

namespace Makes

variable {paths paths' : List Path}

/-- Nothing was made. -/
lemma refl (paths : List Path) (d : Disk) : d.Makes paths d :=
  ⟨.refl d, fun _ h => absurd rfl h⟩

/-- Directories were made for some of the paths. -/
lemma mono (h : d.Makes paths d') (hsub : paths ⊆ paths') : d.Makes paths' d' := by
  refine ⟨h.keeps, fun place hne => ?_⟩
  obtain ⟨hnone, hdirectory, path, hpath, hlocate⟩ := h.made place hne
  exact ⟨hnone, hdirectory, path, hsub hpath, hlocate⟩

/-- Directories were made, and then further ones. -/
lemma trans (h : d.Makes paths d') (h' : d'.Makes paths d'') : d.Makes paths d'' := by
  refine ⟨h.keeps.trans h'.keeps, fun place hne => ?_⟩
  by_cases hlater : d''.at? place = d'.at? place
  · rw [hlater] at hne ⊢
    obtain ⟨hnone, hdirectory, path, hpath, hlocate⟩ := h.made place hne
    exact ⟨hnone, hdirectory, path, hpath, h'.keeps.locate hlocate⟩
  · obtain ⟨hnone, hdirectory, hpath⟩ := h'.made place hlater
    by_cases hearlier : d'.at? place = d.at? place
    · exact ⟨hearlier ▸ hnone, hdirectory, hpath⟩
    · -- the directory made first would not be kept
      obtain ⟨-, hmade, -⟩ := h.made place hearlier
      rw [hmade] at hnone
      cases hnone

end Makes

/-- A directory is made where nothing stands, and otherwise nothing is changed. -/
lemma makeDirectory_cases (d : Disk) (path : Path) :
    (d.makeDirectory path).disk = d ∨
      ∃ place, d.locate path = .ok place ∧ d.at? place = none ∧
        (d.makeDirectory path).disk = d.put place .directory := by
  unfold makeDirectory
  cases hlocate : d.locate path with
  | error e => exact .inl rfl
  | ok place =>
    cases hentry : d.at? place with
    | some entry => exact .inl (by simp only [hentry])
    | none => exact .inr ⟨place, rfl, hentry, by simp only [hentry]⟩

/-- One directory is made, or nothing. -/
lemma makes_makeDirectory (d : Disk) (path : Path) :
    d.Makes [path] (d.makeDirectory path).disk := by
  rcases d.makeDirectory_cases path with hsame | ⟨place, hlocate, hnone, hput⟩
  · rw [hsame]
    exact .refl _ d
  · rw [hput]
    have hplace := grounded_of_locate hlocate
    have hkeeps := keeps_put hplace (by simp [hnone]) .directory
    refine ⟨hkeeps, fun other hne => ?_⟩
    obtain rfl := eq_of_at?_put_ne hplace hne
    exact ⟨hnone, at?_put_self d other _, path, List.mem_singleton_self path,
      hkeeps.locate hlocate⟩

/-- One directory is made, or nothing because there is one. -/
lemma makes_ensureDirectory (d : Disk) (path : Path) :
    d.Makes [path] (d.ensureDirectory path).disk := by
  unfold ensureDirectory
  dsimp only
  split_ifs
  · exact .refl _ d
  · exact d.makes_makeDirectory path

/-- A directory is made with those above it, which the first of its names lead to. -/
lemma makes_ensureAll (root : Path.Root) (names : List String) (d : Disk) :
    d.Makes (names.reverse.inits.map fun above => ⟨root, above⟩) (ensureAll root names d).disk := by
  induction names generalizing d with
  | nil => exact d.makes_ensureDirectory ⟨root, []⟩
  | cons name names ih =>
    have hself : ∀ d' : Disk,
        d'.Makes ((name :: names).reverse.inits.map fun above => ⟨root, above⟩)
          (d'.ensureDirectory ⟨root, (name :: names).reverse⟩).disk := fun d' =>
      (d'.makes_ensureDirectory _).mono fun path hpath => by
        rw [List.mem_singleton.mp hpath]
        exact List.mem_map.mpr ⟨_, (List.mem_inits _ _).mpr (List.prefix_refl _), rfl⟩
    have habove := (ih d).mono fun path hpath => by
      obtain ⟨above, hprefix, rfl⟩ := List.mem_map.mp hpath
      have hlonger : above <+: (name :: names).reverse := by
        rw [List.reverse_cons]
        exact ((List.mem_inits _ _).mp hprefix).trans (List.prefix_append _ _)
      exact List.mem_map.mpr ⟨above, (List.mem_inits _ _).mpr hlonger, rfl⟩
    unfold ensureAll
    dsimp only
    split_ifs
    · unfold Change.andThen
      split_ifs
      · exact habove
      · exact habove.trans (hself _)
    · exact hself d

/-- **Only missing directories are made**: the one that a path leads to and those above it. -/
lemma makes_makeDirectories (d : Disk) (path : Path) :
    d.Makes (path.names.inits.map fun above => ⟨path.root, above⟩)
      (d.makeDirectories path).disk := by
  have h := makes_ensureAll path.root path.names.reverse d
  rwa [List.reverse_reverse] at h

/-! ## Saving a file -/

/-- Bytes are written where no directory stands, and otherwise nothing is changed. -/
lemma write_cases (d : Disk) (path : Path) (bytes : List UInt8) :
    (d.write path bytes).disk = d ∧ (d.write path bytes).error ≠ none ∨
      ∃ place, d.locate path = .ok place ∧ d.at? place ≠ some .directory ∧
        (d.write path bytes).disk = d.put place (.file bytes) := by
  unfold write
  cases hlocate : d.locate path with
  | error e => exact .inl ⟨rfl, by simp⟩
  | ok place =>
    cases hentry : d.at? place with
    | none => exact .inr ⟨place, rfl, by simp [hentry], by simp only [hentry]⟩
    | some entry =>
      cases entry with
      | directory => exact .inl ⟨by simp only [hentry], by simp [hentry]⟩
      | file content => exact .inr ⟨place, rfl, by simp [hentry], by simp only [hentry]⟩

/-- Directories are made, and then the file is written unless they cannot be made. -/
lemma save_cases (d : Disk) (path : Path) (bytes : List UInt8) :
    ∃ made : Disk, d.Makes path.ancestors made ∧
      ((d.save path bytes).disk = made ∧ (d.save path bytes).error ≠ none ∨
        d.save path bytes = made.write path bytes) := by
  refine ⟨(d.makeDirectories path.parent).disk, d.makes_makeDirectories path.parent, ?_⟩
  unfold save Change.andThen
  split_ifs with herror
  · exact .inl ⟨rfl, Option.isSome_iff_ne_none.mp herror⟩
  · exact .inr rfl

/-- Directories are kept when bytes are written, and only the file that the path leads to changes.
-/
lemma changed_write (d : Disk) (path : Path) (bytes : List UInt8) :
    d.Keeps (d.write path bytes).disk ∧
      ∀ place, (d.write path bytes).disk.at? place ≠ d.at? place →
        (d.write path bytes).disk.locate path = .ok place ∧
          (d.write path bytes).disk.at? place = some (.file bytes) := by
  rcases d.write_cases path bytes with ⟨hsame, -⟩ | ⟨place, hlocate, hentry, hput⟩
  · rw [hsame]
    exact ⟨.refl d, fun _ h => absurd rfl h⟩
  · rw [hput]
    have hplace := grounded_of_locate hlocate
    have hkeeps := keeps_put hplace hentry (.file bytes)
    refine ⟨hkeeps, fun other hne => ?_⟩
    obtain rfl := eq_of_at?_put_ne hplace hne
    exact ⟨hkeeps.locate hlocate, at?_put_self d other _⟩

/-- **What saving bytes in a file changes**: the file that the path leads to holds them, and the
missing directories above it are there. No other place changes. -/
lemma changed_save (d : Disk) (path : Path) (bytes : List UInt8) {place : Place}
    (h : (d.save path bytes).disk.at? place ≠ d.at? place) :
    ((d.save path bytes).disk.locate path = .ok place ∧
        (d.save path bytes).disk.at? place = some (.file bytes)) ∨
      (d.at? place = none ∧ (d.save path bytes).disk.at? place = some .directory ∧
        ∃ above ∈ path.ancestors, (d.save path bytes).disk.locate above = .ok place) := by
  obtain ⟨made, hmakes, ⟨hdisk, -⟩ | hsave⟩ := d.save_cases path bytes
  · rw [hdisk] at h ⊢
    exact .inr (hmakes.made place h)
  · obtain ⟨hkeeps, hwritten⟩ := made.changed_write path bytes
    rw [hsave] at h ⊢
    by_cases hlater : (made.write path bytes).disk.at? place = made.at? place
    · rw [hlater] at h ⊢
      obtain ⟨hnone, hdirectory, above, habove, hlocate⟩ := hmakes.made place h
      exact .inr ⟨hnone, hdirectory, above, habove, hkeeps.locate hlocate⟩
    · exact .inl (hwritten place hlater)

/-- **Saved bytes are read back** if saving them does not fail. -/
lemma read_save {bytes : List UInt8} (h : (d.save path bytes).error = none) :
    (d.save path bytes).disk.read path = .ok bytes := by
  obtain ⟨made, -, ⟨-, herror⟩ | hsave⟩ := d.save_cases path bytes
  · exact absurd h herror
  · rw [hsave] at h ⊢
    rcases made.write_cases path bytes with ⟨-, herror⟩ | ⟨place, hlocate, hentry, hput⟩
    · exact absurd h herror
    · have hkeeps := keeps_put (grounded_of_locate hlocate) hentry (.file bytes)
      rw [hput, read]
      simp only [hkeeps.locate hlocate, at?_put_self]

end Disk

end Flowchart
