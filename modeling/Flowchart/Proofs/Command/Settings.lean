import Flowchart.Command.Invocation
import Mathlib.Tactic.Lemma
import Mathlib.Tactic.SplitIfs

set_option relaxedAutoImplicit false
set_option autoImplicit false

/-!
# Settings

What holds of the settings that arguments make. Every option that is read in the arguments of a
command is one of the options of its grammar, however it is cut, clustered or given its value. So a
property of settings that holds without options, and that no option of the grammar breaks, holds
whatever the arguments are.

## Main definitions

* `Flowchart.Options.Opt.Keeps`: an option keeps a property of settings.
* `Flowchart.Options.Token.Within`: a token holds no other options than given ones.

## Main results

* `Flowchart.Options.Grammar.settings_of_parse`: what options keep holds of all settings.
* `Flowchart.Invocation.output_ne`: an output that is named has a name that is not empty.
-/

namespace Flowchart.Options

variable {σ : Type} {options : List (Opt σ)} {P : σ → Prop}

/-! ## Options that are read -/

/-- The names of options belong to them. -/
lemma mem_of_mem_nameTable {entry : String × Opt σ} (h : entry ∈ nameTable options) :
    entry.2 ∈ options := by
  obtain ⟨o, ho, hentry⟩ := List.mem_flatMap.mp h
  obtain ⟨name, -, rfl⟩ := List.mem_map.mp hentry
  exact ho

/-- The option of a name is one of the options. -/
lemma mem_of_named? {name : String} {o : Opt σ} (h : named? options name = some o) :
    o ∈ options := by
  obtain ⟨entry, hentry, rfl⟩ := Option.map_eq_some_iff.mp h
  exact mem_of_mem_nameTable (List.mem_of_find?_eq_some hentry)

/-- An argument is read as one of the options. -/
lemma mem_of_mem_readings {cs : List Char} {r : Reading σ} (h : r ∈ readings options cs) :
    r.option ∈ options := by
  unfold readings at h
  split_ifs at h
  · obtain ⟨⟨name, o⟩, hentry, hr⟩ := List.mem_filterMap.mp h
    dsimp only at hr
    split_ifs at hr
    cases hr
    exact mem_of_mem_nameTable hentry
  · obtain ⟨⟨name, o⟩, hentry, hr⟩ := List.mem_filterMap.mp h
    dsimp only at hr
    split_ifs at hr <;> cases hr <;> exact mem_of_mem_nameTable hentry

/-- A token holds no other options than given ones. -/
def Token.Within (options : List (Opt σ)) (t : Token σ) : Prop :=
  ∀ text r, t = .option text (some r) → r.option ∈ options

/-- An argument holds no other options than those of the grammar. -/
lemma within_of_classify {argument : String} {t : Token σ} (h : classify options argument = .ok t) :
    t.Within options := by
  rintro text r rfl
  unfold classify at h
  dsimp only at h
  split at h
  · split at h
    · -- a full name
      rename_i o _ hnamed
      cases h
      exact mem_of_named? hnamed
    · -- a full name in front of an equals sign
      rename_i o _ hnamed
      cases h
      exact mem_of_named? hnamed
    · split at h
      · split at h <;> cases h
      · -- the only reading of a cut name
        rename_i r' hreadings
        cases h
        exact mem_of_mem_readings (hreadings ▸ List.mem_singleton_self r)
      · cases h
  · cases h

/-- Arguments hold no other options than those of the grammar. -/
lemma within_of_tokens {arguments : List String} {ts : List (Token σ)}
    (h : tokens options arguments = .ok ts) : ∀ t ∈ ts, t.Within options := by
  induction arguments generalizing ts with
  | nil =>
    cases h
    exact fun t ht => absurd ht List.not_mem_nil
  | cons argument arguments ih =>
    unfold tokens at h
    split_ifs at h
    · cases h
      intro t ht
      rintro text r rfl
      simp at ht
    · cases hfirst : classify options argument with
      | error m =>
        rw [hfirst] at h
        cases h
      | ok t =>
        cases hrest : tokens options arguments with
        | error m =>
          rw [hfirst, hrest] at h
          cases h
        | ok more =>
          rw [hfirst, hrest] at h
          cases h
          exact List.forall_mem_cons.mpr ⟨within_of_classify hfirst, ih hrest⟩

/-! ## Options in one argument -/

/-- A cluster holds no other options than given ones. -/
structure Cluster.Within (options : List (Opt σ)) (c : Cluster σ) : Prop where
  complete : ∀ e ∈ c.complete, e.1 ∈ options
  pending : ∀ o, c.pending = some o → o ∈ options

/-- An option with its value. -/
lemma Cluster.within_single {o : Opt σ} (ho : o ∈ options) (value : Option String) :
    (⟨[(o, value)], none⟩ : Cluster σ).Within options :=
  ⟨by simpa using ho, by simp⟩

/-- An option that has no text attached. -/
lemma Cluster.within_bare {o : Opt σ} (ho : o ∈ options) : (Cluster.bare o).Within options := by
  unfold bare
  split_ifs
  · exact ⟨by simp, by simpa using ho⟩
  · exact within_single ho none

/-- An option and more of them. -/
lemma Cluster.Within.after {o : Opt σ} (ho : o ∈ options) {c : Cluster σ}
    (h : c.Within options) : (Cluster.after o c).Within options :=
  ⟨List.forall_mem_cons.mpr ⟨ho, h.complete⟩, h.pending⟩

/-- The options behind a short option are options of the grammar too. -/
lemma within_of_cluster {o : Opt σ} (ho : o ∈ options) {short : Bool} {text : List Char}
    {c : Cluster σ} (h : cluster options o short text = .ok c) : c.Within options := by
  induction text generalizing o short c with
  | nil =>
    unfold cluster at h
    split_ifs at h
    cases h
    exact Cluster.within_single ho _
  | cons letter text ih =>
    unfold cluster at h
    split at h
    · cases h
      exact Cluster.within_single ho _
    · split at h
      · cases h
      · rename_i next hnext
        have hmem : next ∈ options := by
          split_ifs at hnext
          exact mem_of_named? hnext
        split at h
        · cases h
          exact (Cluster.within_bare hmem).after ho
        · cases hrest : cluster options next true text with
          | error m =>
            rw [hrest] at h
            cases h
          | ok more =>
            rw [hrest] at h
            cases h
            exact (ih hmem hrest).after ho

/-- The options in an argument are options of the grammar. -/
lemma Reading.within_of_cluster {r : Reading σ} (hr : r.option ∈ options) {c : Cluster σ}
    (h : r.cluster options = .ok c) : c.Within options := by
  unfold Reading.cluster at h
  split at h
  · cases h
    exact Cluster.within_bare hr
  · exact Options.within_of_cluster hr h

/-! ## Settings -/

/-- An option keeps a property of settings. -/
def Opt.Keeps (P : σ → Prop) (o : Opt σ) : Prop :=
  match o.effect with
  | .help => True
  | .flag set => ∀ settings, P settings → P (set settings)
  | .value set => ∀ value settings, P settings → P (set value settings)

/-- Options in their order keep what each of them keeps. -/
lemma keeps_applyAll {applied : List (Opt σ × Option String)} (h : ∀ e ∈ applied, e.1.Keeps P)
    {settings settings' : σ} (hsettings : P settings)
    (happly : applyAll applied settings = .ok settings') : P settings' := by
  induction applied generalizing settings with
  | nil =>
    cases happly
    exact hsettings
  | cons e applied ih =>
    obtain ⟨o, text⟩ := e
    obtain ⟨ho, hrest⟩ := List.forall_mem_cons.mp h
    unfold Opt.Keeps at ho
    unfold applyAll at happly
    cases heffect : o.effect with
    | help =>
      rw [heffect] at happly
      cases happly
    | flag set =>
      rw [heffect] at happly ho
      exact ih hrest (ho _ hsettings) happly
    | value set =>
      rw [heffect] at happly ho
      exact ih hrest (ho _ _ hsettings) happly

/-- A run of words changes no settings. -/
lemma Parsed.settings_close (p : Parsed σ) (run : List (Token σ)) :
    (p.close run).settings = p.settings := by
  unfold close
  dsimp only
  split_ifs <;> rfl

/-- Reading tokens keeps what the options of the grammar keep. -/
lemma keeps_consume {g : Grammar σ} (hkeeps : ∀ o ∈ g.options, o.Keeps P) {ts run : List (Token σ)}
    {p p' : Parsed σ} (hts : ∀ t ∈ ts, t.Within g.options) (hp : P p.settings)
    (h : consume g p run ts = .ok p') : P p'.settings := by
  have hclose : ∀ {p : Parsed σ} {run : List (Token σ)}, P p.settings → P (p.close run).settings :=
    fun hp => by rwa [Parsed.settings_close]
  fun_induction consume g p run ts with
  | case1 p run =>
    cases h
    exact hclose hp
  | case2 p run rest ih => exact ih (List.forall_mem_cons.mp hts).2 hp h
  | case3 p run word rest hcommand =>
    cases h
    exact hp
  | case4 p run word rest hwords ih => exact ih (List.forall_mem_cons.mp hts).2 hp h
  | case5 p run text rest closed ih => exact ih (List.forall_mem_cons.mp hts).2 (hclose hp) h
  | case6 | case7 | case9 | case11 => cases h
  | case8 p run text r closed c hcluster rest hpending settings happly ih =>
    -- the options of the argument are complete
    obtain ⟨hfirst, hrest⟩ := List.forall_mem_cons.mp hts
    have hwithin := Reading.within_of_cluster (hfirst text r rfl) hcluster
    have hall : ∀ e ∈ c.complete, e.1.Keeps P := fun e he => hkeeps _ (hwithin.complete e he)
    exact ih hrest (keeps_applyAll hall (hclose hp) happly) h
  | case10 p run text r closed c hcluster o word rest hpending settings happly ih =>
    -- the last option takes its value from the next argument
    obtain ⟨hfirst, hmore⟩ := List.forall_mem_cons.mp hts
    have hwithin := Reading.within_of_cluster (hfirst text r rfl) hcluster
    have hall : ∀ e ∈ c.complete ++ [(o, some word)], e.1.Keeps P :=
      List.forall_mem_append.mpr ⟨fun e he => hkeeps _ (hwithin.complete e he),
        List.forall_mem_singleton.mpr (hkeeps o (hwithin.pending o hpending))⟩
    exact ih (List.forall_mem_cons.mp hmore).2 (keeps_applyAll hall (hclose hp) happly) h

/-- **What options keep holds of all settings** that arguments make, if it holds of the settings
without options. -/
lemma Grammar.settings_of_parse {g : Grammar σ} (hkeeps : ∀ o ∈ g.options, o.Keeps P) {settings : σ}
    (hsettings : P settings) {arguments : List String} {p : Parsed σ}
    (h : g.parse settings arguments = .ok p) : P p.settings := by
  unfold parse at h
  split at h
  · cases h
  · rename_i ts htokens
    exact keeps_consume hkeeps (within_of_tokens htokens) hsettings h

end Flowchart.Options

namespace Flowchart.Invocation

open Options

variable {σ : Type}

/-- No option of rendering names an empty output. -/
lemma keeps_renderingGrammar :
    ∀ o ∈ renderingGrammar.options, o.Keeps fun settings => settings.1 ≠ some "" := by
  have hnonempty : ∀ value, nonempty value ≠ some "" := fun value h => by
    simp [nonempty, Option.filter_eq_some_iff] at h
  intro o ho
  simp only [renderingGrammar, List.mem_cons, List.not_mem_nil, or_false] at ho
  rcases ho with rfl | rfl | rfl
  · trivial
  · exact fun value settings _ => hnonempty value
  · exact fun value settings h => h

variable {output : Option String} {title : String} {files : List String}

/-- A command that is completed has the task that its settings make. -/
lemma task_of_complete {p : Parsed σ} {task : Option Task} {task' : Task}
    {missing extras : List String} (h : complete p task missing = .ok ((task', files), extras)) :
    task = some task' := by
  unfold complete at h
  split at h <;> cases h
  rfl

/-- A result that follows another one comes from a value of that one. -/
lemma exists_of_bind {α β ε : Type} {x : Except ε α} {f : α → Except ε β} {b : β}
    (h : x >>= f = .ok b) : ∃ a, x = .ok a ∧ f a = .ok b := by
  cases x with
  | error e => cases h
  | ok a => exact ⟨a, rfl, h⟩

/-- What concerns a topic is the result itself if there is one. -/
lemma eq_ok_of_refuse {α : Type} {topic : Usage.Topic} {result : Except Halt α} {a : α}
    (h : refuse topic result = .ok a) : result = .ok a := by
  cases result with
  | error halt => cases h
  | ok b =>
    cases h
    rfl

/-- A command that renders to a named output has a name for it that is not empty. -/
lemma output_ne_of_parseCommand {verb : Usage.Verb} {arguments extras : List String}
    (h : parseCommand verb arguments = .ok ((.rendering output title, files), extras)) :
    output ≠ some "" := by
  cases verb with
  | sections =>
    obtain ⟨p, -, hcomplete⟩ := exists_of_bind h
    cases task_of_complete hcomplete
  | rendering =>
    obtain ⟨p, hparse, hcomplete⟩ := exists_of_bind h
    cases task_of_complete hcomplete
    exact Grammar.settings_of_parse keeps_renderingGrammar (by simp) hparse
  | checking =>
    obtain ⟨p, -, hcomplete⟩ := exists_of_bind h
    obtain ⟨document, -, htask⟩ := Option.map_eq_some_iff.mp (task_of_complete hcomplete)
    cases htask

/-- **An output that is named has a name that is not empty.** -/
lemma output_ne {arguments : List String} {verbose : Bool}
    (h : parse arguments = .ok ⟨verbose, some (.rendering output title, files)⟩) :
    output ≠ some "" := by
  obtain ⟨p, -, hoperands⟩ := exists_of_bind h
  obtain ⟨⟨command, extras⟩, hcommand, hinvocation⟩ := exists_of_bind hoperands
  obtain rfl : command = some (.rendering output title, files) := by
    dsimp only at hinvocation
    split at hinvocation <;> cases hinvocation
    rfl
  unfold parseOperands at hcommand
  split at hcommand
  · cases hcommand
  · cases hcommand
  · split at hcommand
    · cases hcommand
    · obtain ⟨⟨command, more⟩, hparse, hsome⟩ := exists_of_bind hcommand
      cases hsome
      exact output_ne_of_parseCommand (eq_ok_of_refuse hparse)

end Flowchart.Invocation
