import TemplateSelectors.Batch
import TemplateSelectors.Proofs.Discovery
import TemplateSelectors.Proofs.SlowPath

/-!
# A run treats every file by itself

A migration goes through the files that it found, reads each as the project is by then, and goes
on whatever becomes of it.  In the end each of them is as if it had been migrated alone: what is
written, reported and shown about it depends on its own content only, and all other files are as
they were.
-/

set_option autoImplicit false

namespace TemplateSelectors

/-! ## What a file gives rise to -/

/-- A source that can be parsed can be migrated. -/
theorem migrateSource_cases (options : PromoteOptions) (source : Text) :
    (∃ error, Template.parse source = .error error ∧
      migrateSource options source = .error (.parse error)) ∨
    ∃ template result, Template.parse source = .ok template ∧
      migrateSource options source = .ok result ∧ result.changed = (result.output != source) := by
  cases parsed : Template.parse source with
  | error error =>
      left
      exact ⟨error, rfl, by rw [migrateSource, parsed]⟩
  | ok template =>
      right
      have promoted := Template.promote_eq options (Template.keywords_of_parse parsed)
      rw [migrateSource, parsed]
      simp only [promoted]
      exact ⟨template, _, rfl, rfl, rfl⟩

namespace Content

/-- Why the file at `path` cannot be migrated: it is no text, or a text that does not parse. -/
def failure? (path : Text) : Content → Option FileFailure
  | .binary _ => some ⟨path, .read, notText⟩
  | .text source =>
      match Template.parse source with
      | .error error => some ⟨path, .parse, error.message⟩
      | .ok _ => none

/-- The text before and after a migration, if it makes a difference. -/
def change? (options : PromoteOptions) : Content → Option (Text × Text)
  | .binary _ => none
  | .text source =>
      match migrateSource options source with
      | .error _ => none
      | .ok result => if result.output = source then none else some (source, result.output)

def migrated (options : PromoteOptions) (content : Content) : Content :=
  match content.change? options with
  | some (_, output) => .text output
  | none => content

theorem change?_of_failure? {options : PromoteOptions} {path : Text} {content : Content}
    (failed : (content.failure? path).isSome = true) : content.change? options = none := by
  cases content with
  | binary bytes => rfl
  | text source =>
      rcases migrateSource_cases options source with
        ⟨error, parsed, migrating⟩ | ⟨template, result, parsed, -, -⟩
      · rw [change?, migrating]
      · rw [failure?, parsed] at failed
        cases failed

end Content

/-- A file that a search has found, by the names that lead to it, with its content. -/
abbrev Found := List Text × Content

namespace Found

def path (file : Found) : Text :=
  FilePath.ofNames file.1

def failure? (file : Found) : Option FileFailure :=
  file.2.failure? (path file)

def changedPath? (options : PromoteOptions) (file : Found) : Option Text :=
  (file.2.change? options).map fun _ => path file

def diff? (options : PromoteOptions) (file : Found) : Option Text :=
  (file.2.change? options).map fun texts => unifiedDiff (path file) texts.1 texts.2

/-- What is shown about a file: why it failed, if it did, and that it is done. -/
def events (file : Found) : List ProgressEvent :=
  (failure? file).toList.map (fun failure => .interrupt failure.render) ++ [.tick]

end Found

/-! ## Projects with other contents -/

namespace Project

/-- The project in which `f` is done to what some files hold. -/
def mapContents (f : Content → Content) (places : List (List Text)) (project : Project) : Project :=
  { project with
    files := project.files.map fun file =>
      if file.1 ∈ places then (file.1, f file.2) else file }

section

variable {f : Content → Content} {places : List (List Text)} {place : List Text}
  {project : Project} {content : Content}

theorem fst_mapContents :
    (project.mapContents f places).files.map Prod.fst = project.files.map Prod.fst := by
  rw [mapContents, List.map_map]
  refine List.map_congr_left fun file _ => ?_
  rw [Function.comp_apply]
  split <;> rfl

theorem mapContents_nil : project.mapContents f [] = project := by
  simp [mapContents]

theorem mapContents_cons (fresh : place ∉ places) :
    (project.mapContents f [place]).mapContents f places =
      project.mapContents f (place :: places) := by
  simp only [mapContents, List.map_map]
  congr 1
  refine List.map_congr_left fun file _ => ?_
  rw [Function.comp_apply]
  by_cases here : file.1 = place
  · simp [here, fresh]
  · simp [here]

theorem mem_mapContents (member : (place, content) ∈ project.files) (other : place ∉ places) :
    (place, content) ∈ (project.mapContents f places).files :=
  List.mem_map.mpr ⟨_, member, if_neg other⟩

theorem eq_of_mem (once : (project.files.map Prod.fst).Nodup)
    (member : (place, content) ∈ project.files) {file : List Text × Content}
    (inside : file ∈ project.files) (same : file.1 = place) : file = (place, content) :=
  List.inj_on_of_nodup_map once inside member same

theorem find?_of_mem (once : (project.files.map Prod.fst).Nodup)
    (member : (place, content) ∈ project.files) : project.find? place = some content := by
  rw [find?]
  cases found : project.files.find? fun file => file.1 == place with
  | none => exact absurd (List.find?_eq_none.mp found _ member) (by simp)
  | some file =>
      have here : file.1 = place := by simpa using List.find?_some found
      rw [eq_of_mem once member (List.mem_of_find?_eq_some found) here]
      rfl

theorem find?_mapContents :
    (project.mapContents f places).find? place =
      (project.find? place).map fun content => if place ∈ places then f content else content := by
  have names : (fun file : List Text × Content => file.1 == place) ∘
      (fun file => if file.1 ∈ places then (file.1, f file.2) else file) =
      fun file => file.1 == place := by
    funext file
    rw [Function.comp_apply]
    split <;> rfl
  rw [find?, find?, mapContents, List.find?_map, names]
  cases found : project.files.find? fun file => file.1 == place with
  | none => rfl
  | some file =>
      have here : file.1 = place := by simpa using List.find?_some found
      simp only [Option.map_some, here]
      split <;> rfl

theorem write_eq_mapContents (once : (project.files.map Prod.fst).Nodup)
    (member : (place, content) ∈ project.files) :
    project.write place (f content) = project.mapContents f [place] := by
  rw [write, find?_of_mem once member]
  simp only [Option.isSome_some, if_true, mapContents, List.mem_singleton]
  congr 1
  refine List.map_congr_left fun file inside => ?_
  split
  · next here =>
      rw [eq_of_mem once member inside here]
  · rfl

theorem mapContents_of_fixed (once : (project.files.map Prod.fst).Nodup)
    (member : (place, content) ∈ project.files) (fixed : f content = content) :
    project.mapContents f [place] = project := by
  have same : project.files.map (fun file =>
      if file.1 ∈ [place] then (file.1, f file.2) else file) = project.files := by
    conv_rhs => rw [← List.map_id project.files]
    refine List.map_congr_left fun file inside => ?_
    split
    · next here =>
        rw [eq_of_mem once member inside (List.mem_singleton.mp here), fixed]
        rfl
    · rfl
  rw [mapContents, same]

end

end Project

/-! ## Steps -/

namespace MigrationState

/-- From one state to another, some files have been treated, each by itself. -/
structure Treated (config : MigrateConfig) (root : List Text) (files : List Found)
    (before after : MigrationState) : Prop where
  project : after.project =
    if config.dryRun then before.project
    else before.project.mapContents (Content.migrated config.options)
      (files.map fun file => root ++ file.1)
  scanned : after.report.filesScanned = before.report.filesScanned
  changed : after.report.changed =
    before.report.changed ++ files.filterMap (Found.changedPath? config.options)
  failures : after.report.failures = before.report.failures ++ files.filterMap Found.failure?
  diffs : after.report.diffs = before.report.diffs ++
    if config.dryRun then files.filterMap (Found.diff? config.options) else []
  progress : after.progress = before.progress ++ files.flatMap Found.events

section

variable {config : MigrateConfig} {root : List Text}

theorem treated_nil (state : MigrationState) : Treated config root [] state state where
  project := by simp [Project.mapContents_nil]
  scanned := rfl
  changed := by simp
  failures := by simp
  diffs := by simp
  progress := by simp

theorem Treated.cons {file : Found} {files : List Found} {first second third : MigrationState}
    (one : Treated config root [file] first second) (more : Treated config root files second third)
    (fresh : file.1 ∉ files.map Prod.fst) : Treated config root (file :: files) first third where
  project := by
    have elsewhere : root ++ file.1 ∉ files.map fun file => root ++ file.1 := by
      rw [List.mem_map]
      rintro ⟨other, inside, same⟩
      exact fresh (List.mem_map.mpr ⟨other, inside, List.append_cancel_left same⟩)
    rw [more.project, one.project]
    split
    · rfl
    · rw [List.map_singleton, Project.mapContents_cons elsewhere, List.map_cons]
  scanned := more.scanned.trans one.scanned
  changed := by
    rw [more.changed, one.changed, List.append_assoc, ← List.filterMap_append,
      List.singleton_append]
  failures := by
    rw [more.failures, one.failures, List.append_assoc, ← List.filterMap_append,
      List.singleton_append]
  diffs := by
    rw [more.diffs, one.diffs, List.append_assoc]
    split
    · rw [← List.filterMap_append, List.singleton_append]
    · rfl
  progress := by
    rw [more.progress, one.progress, List.append_assoc, ← List.flatMap_append,
      List.singleton_append]

theorem treated_single {file : Found} {before after : MigrationState}
    (project : after.project =
      if config.dryRun then before.project
      else before.project.mapContents (Content.migrated config.options) [root ++ file.1])
    (report : after.report =
      { before.report with
        changed := before.report.changed ++ (Found.changedPath? config.options file).toList
        failures := before.report.failures ++ (Found.failure? file).toList
        diffs := before.report.diffs ++
          if config.dryRun then (Found.diff? config.options file).toList else [] })
    (progress : after.progress = before.progress ++ Found.events file) :
    Treated config root [file] before after where
  project := project
  scanned := by rw [report]
  changed := by rw [report, List.filterMap_cons]; cases Found.changedPath? config.options file <;> rfl
  failures := by rw [report, List.filterMap_cons]; cases Found.failure? file <;> rfl
  diffs := by rw [report, List.filterMap_cons]; cases Found.diff? config.options file <;> rfl
  progress := by rw [progress, List.flatMap_singleton]

@[simp]
theorem note_project (events : List LogEvent) (state : MigrationState) :
    (state.note events).project = state.project := rfl

@[simp]
theorem note_report (events : List LogEvent) (state : MigrationState) :
    (state.note events).report = state.report := rfl

@[simp]
theorem note_progress (events : List LogEvent) (state : MigrationState) :
    (state.note events).progress = state.progress := rfl

theorem note_note (first second : List LogEvent) (state : MigrationState) :
    (state.note first).note second = state.note (first ++ second) := by
  simp [note]

/-- What can become of a file that is there, whatever is noted down about it. -/
theorem migrateFile_cases (config : MigrateConfig) {state : MigrationState} {names : List Text}
    {content : Content} (found : state.project.find? (root ++ names) = some content) :
    ∃ log,
      (∃ failure, Found.failure? (names, content) = some failure ∧
        state.migrateFile config root names = (state.note log, some failure)) ∨
      (Found.failure? (names, content) = none ∧ content.change? config.options = none ∧
        state.migrateFile config root names = (state.note log, none)) ∨
      ∃ source output, Found.failure? (names, content) = none ∧
        content.change? config.options = some (source, output) ∧
        state.migrateFile config root names =
          ((state.note log).change config root names source output, none) := by
  rw [migrateFile, found]
  cases content with
  | binary bytes => exact ⟨[], .inl ⟨_, rfl, by simp [note, Found.path]⟩⟩
  | text source =>
      simp only [Found.failure?, Content.failure?, Content.change?]
      rcases migrateSource_cases config.options source with
        ⟨error, parsed, migrating⟩ | ⟨template, result, parsed, migrating, differs⟩
      · rw [parsed, migrating]
        refine ⟨migrationLog config.options source ++
          [.unparsed error source (FilePath.ofNames names)], .inl ⟨_, rfl, ?_⟩⟩
        simp only [note_note]
        rfl
      · rw [parsed, migrating]
        by_cases same : result.output = source
        · refine ⟨migrationLog config.options source ++ [.unchanged (FilePath.ofNames names)],
            .inr (.inl ⟨rfl, if_pos same, ?_⟩)⟩
          simp only [differs, same, bne_self_eq_false, Bool.false_eq_true, if_false, note_note]
        · refine ⟨migrationLog config.options source,
            .inr (.inr ⟨source, result.output, rfl, if_neg same, ?_⟩)⟩
          simp only [differs, bne_iff_ne.mpr same, if_true]

/-- One step treats one file: it fails, stays as it is or changes. -/
theorem treated_next {state : MigrationState} {file : Found}
    (once : (state.project.files.map Prod.fst).Nodup)
    (member : (root ++ file.1, file.2) ∈ state.project.files) :
    Treated config root [file] state (state.next config root file.1) := by
  obtain ⟨names, content⟩ := file
  have unchanged : content.change? config.options = none →
      state.project.mapContents (Content.migrated config.options) [root ++ names] =
        state.project := by
    intro kept
    refine Project.mapContents_of_fixed once member ?_
    rw [Content.migrated, kept]
  obtain ⟨log, cases⟩ := migrateFile_cases config (Project.find?_of_mem once member)
  rcases cases with
    ⟨failure, failed, result⟩ | ⟨fine, kept, result⟩ | ⟨source, output, fine, change, result⟩
  · have kept : content.change? config.options = none :=
      Content.change?_of_failure? (Option.isSome_of_eq_some failed)
    rw [next, result]
    refine treated_single ?_ ?_ ?_
    · simp [fail, unchanged kept]
    · simp [fail, Found.changedPath?, Found.diff?, kept, failed]
    · simp [fail, Found.events, failed]
  · rw [next, result]
    refine treated_single ?_ ?_ ?_
    · simp [unchanged kept]
    · simp [Found.changedPath?, Found.diff?, kept, fine]
    · simp [Found.events, fine]
  · have written : state.project.write (root ++ names) (.text output) =
        state.project.mapContents (Content.migrated config.options) [root ++ names] := by
      rw [← Project.write_eq_mapContents once member, Content.migrated, change]
    rw [next, result]
    refine treated_single ?_ ?_ ?_
    · cases dry : config.dryRun <;> simp [MigrationState.change, dry, written]
    · cases dry : config.dryRun <;>
        simp [MigrationState.change, dry, Found.changedPath?, Found.diff?, Found.path, change,
          fine]
    · cases dry : config.dryRun <;> simp [MigrationState.change, dry, Found.events, fine]

/-- A run over files that are there treats them all. -/
theorem treated_foldl {files : List Found} {state : MigrationState}
    (once : (state.project.files.map Prod.fst).Nodup) (distinct : (files.map Prod.fst).Nodup)
    (members : ∀ file ∈ files, (root ++ file.1, file.2) ∈ state.project.files) :
    Treated config root files state ((files.map Prod.fst).foldl (next config root) state) := by
  induction files generalizing state with
  | nil => exact treated_nil state
  | cons file files inductionHypothesis =>
      rw [List.map_cons, List.nodup_cons] at distinct
      obtain ⟨fresh, distinct⟩ := distinct
      have one : Treated config root [file] state (state.next config root file.1) :=
        treated_next once (members file (by simp))
      refine one.cons (inductionHypothesis ?_ distinct ?_) fresh
      · rw [one.project]
        split
        · exact once
        · rw [Project.fst_mapContents]
          exact once
      · -- the file that was just treated is none of those to come
        intro other inside
        have there := members other (by simp [inside])
        rw [one.project]
        split
        · exact there
        · refine Project.mem_mapContents there ?_
          rw [List.map_singleton, List.mem_singleton]
          intro same
          exact fresh (List.mem_map.mpr ⟨other, inside, List.append_cancel_left same⟩)

theorem Treated.find? {files : List Found} {before after : MigrationState}
    (treated : Treated config root files before after) (place : List Text) :
    after.project.find? place = (before.project.find? place).map fun content =>
      if config.dryRun = false ∧ place ∈ files.map (fun file => root ++ file.1) then
        content.migrated config.options
      else content := by
  rw [treated.project]
  cases dry : config.dryRun with
  | true => simp
  | false =>
      rw [if_neg Bool.false_ne_true, Project.find?_mapContents]
      by_cases there : place ∈ files.map fun file => root ++ file.1
      · simp only [there, and_self, if_true]
      · simp only [there, and_false, if_false]

theorem Treated.places {files : List Found} {before after : MigrationState}
    (treated : Treated config root files before after) :
    after.project.files.map Prod.fst = before.project.files.map Prod.fst ∧
      after.project.directories = before.project.directories := by
  rw [treated.project]
  split
  · exact ⟨rfl, rfl⟩
  · exact ⟨Project.fst_mapContents, rfl⟩

end

end MigrationState

/-! ## Runs -/

theorem MigrateConfig.exists_search {config : MigrateConfig} {project : Project}
    {found : List (List Text × Content)} (discovered : config.discover project = .ok found) :
    ∃ root filter, config.root = some root ∧ found = project.search root filter := by
  rw [discover] at discovered
  split at discovered
  · cases discovered
  · next root given =>
      split at discovered
      · split at discovered
        · cases discovered
        · next filter reading =>
            cases discovered
            exact ⟨root, filter, given, rfl⟩
      · cases discovered

open MigrationState

theorem filterMap_sublist_map {α β : Type} {f : α → Option β} {g : α → β}
    (told : ∀ a b, f a = some b → b = g a) (as : List α) :
    (as.filterMap f).Sublist (as.map g) := by
  induction as with
  | nil => exact .slnil
  | cons a as inductionHypothesis =>
      rw [List.map_cons]
      cases result : f a with
      | none =>
          rw [List.filterMap_cons_none result]
          exact .cons _ inductionHypothesis
      | some b =>
          rw [List.filterMap_cons_some result, told a b result]
          exact .cons_cons _ inductionHypothesis

theorem Found.eq_path_of_changedPath? {options : PromoteOptions} {file : Found} {path : Text}
    (changed : Found.changedPath? options file = some path) : path = Found.path file := by
  rw [Found.changedPath?, Option.map_eq_some_iff] at changed
  obtain ⟨texts, -, same⟩ := changed
  exact same.symm

theorem Found.eq_path_of_failure? {file : Found} {path : Text}
    (failed : (Found.failure? file).map FileFailure.path = some path) : path = Found.path file := by
  obtain ⟨names, content⟩ := file
  rw [Option.map_eq_some_iff] at failed
  obtain ⟨failure, failed, rfl⟩ := failed
  cases content with
  | binary bytes =>
      cases failed
      rfl
  | text source =>
      rw [Found.failure?, Content.failure?] at failed
      split at failed
      · cases failed
        rfl
      · cases failed

theorem nodup_paths {project : Project} (wellFormed : project.WellFormed) {root : List Text}
    {found : List Found} (distinct : (found.map Prod.fst).Nodup)
    (members : ∀ file ∈ found, (root ++ file.1, file.2) ∈ project.files) :
    (found.map Found.path).Nodup := by
  have valid : ∀ file ∈ found, ∀ name ∈ file.1, FilePath.IsName name := by
    intro file inside name member
    exact wellFormed.named _ (members file inside) name (by simp [member])
  have same : found.map Found.path = (found.map Prod.fst).map FilePath.ofNames := by
    rw [List.map_map]
    rfl
  rw [same]
  refine distinct.map_on ?_
  intro first inFirst second inSecond equal
  obtain ⟨firstFile, isFirst, rfl⟩ := List.mem_map.mp inFirst
  obtain ⟨secondFile, isSecond, rfl⟩ := List.mem_map.mp inSecond
  exact FilePath.ofNames_inj (valid _ isFirst) (valid _ isSecond) equal

theorem disjoint_of_nodup {options : PromoteOptions} {found : List Found}
    (paths : (found.map Found.path).Nodup) :
    ∀ path ∈ found.filterMap (Found.changedPath? options),
      path ∉ (found.filterMap Found.failure?).map FileFailure.path := by
  intro path inChanged inFailures
  obtain ⟨file, inside, changed⟩ := List.mem_filterMap.mp inChanged
  rw [List.map_filterMap] at inFailures
  obtain ⟨other, inside', failed⟩ := List.mem_filterMap.mp inFailures
  have same : other = file := List.inj_on_of_nodup_map paths inside' inside
    ((Found.eq_path_of_failure? failed).symm.trans (Found.eq_path_of_changedPath? changed))
  subst same
  obtain ⟨failure, failed, -⟩ := Option.map_eq_some_iff.mp failed
  rw [Found.changedPath?, Content.change?_of_failure? (Option.isSome_of_eq_some failed)] at changed
  cases changed

/-- What a run says about the files that it found, in their order and about each at most once. -/
structure MigrationReport.TellsOf (config : MigrateConfig) (found : List Found)
    (report : MigrationReport) : Prop where
  scanned : report.filesScanned = found.length
  changed : report.changed = found.filterMap (Found.changedPath? config.options)
  failures : report.failures = found.filterMap Found.failure?
  diffs : report.diffs = if config.dryRun then found.filterMap (Found.diff? config.options) else []
  diffEach : config.dryRun = true → report.diffs.length = report.changed.length
  changedOrder : report.changed.Sublist (found.map Found.path)
  changedOnce : report.changed.Nodup
  failuresOrder : (report.failures.map FileFailure.path).Sublist (found.map Found.path)
  failuresOnce : (report.failures.map FileFailure.path).Nodup
  disjoint : ∀ path ∈ report.changed, path ∉ report.failures.map FileFailure.path

/-- What a run leaves of a project: a file that was found holds what the migration makes of it, or
on a dry run what it held, and everything else is as it was. -/
structure Project.BecomesBy (config : MigrateConfig) (root : List Text) (found : List Found)
    (before after : Project) : Prop where
  written : ∀ file ∈ found, before.find? (root ++ file.1) = some file.2 ∧
    after.find? (root ++ file.1) =
      some (if config.dryRun then file.2 else file.2.migrated config.options)
  untouched : ∀ place, (∀ file ∈ found, place ≠ root ++ file.1) →
    after.find? place = before.find? place
  places : after.files.map Prod.fst = before.files.map Prod.fst
  directories : after.directories = before.directories

section

variable {config : MigrateConfig} {root : List Text} {found : List Found}
  {before after : MigrationState}

theorem MigrationState.Treated.tellsOf (treated : Treated config root found before after)
    (fresh : before.report = ⟨found.length, [], [], []⟩) (paths : (found.map Found.path).Nodup) :
    after.report.TellsOf config found := by
  have changed : after.report.changed = found.filterMap (Found.changedPath? config.options) := by
    rw [treated.changed, fresh, List.nil_append]
  have failures : after.report.failures = found.filterMap Found.failure? := by
    rw [treated.failures, fresh, List.nil_append]
  have diffs : after.report.diffs =
      if config.dryRun then found.filterMap (Found.diff? config.options) else [] := by
    rw [treated.diffs, fresh, List.nil_append]
  have changedOrder : after.report.changed.Sublist (found.map Found.path) := by
    rw [changed]
    exact filterMap_sublist_map (fun _ _ => Found.eq_path_of_changedPath?) found
  have failuresOrder :
      (after.report.failures.map FileFailure.path).Sublist (found.map Found.path) := by
    rw [failures, List.map_filterMap]
    exact filterMap_sublist_map (fun _ _ => Found.eq_path_of_failure?) found
  refine ⟨?_, changed, failures, diffs, ?_, changedOrder, changedOrder.nodup paths, failuresOrder,
    failuresOrder.nodup paths, ?_⟩
  · rw [treated.scanned, fresh]
  · intro dry
    rw [diffs, changed, if_pos dry, List.length_filterMap_eq_countP,
      List.length_filterMap_eq_countP]
    simp only [Found.diff?, Found.changedPath?, Option.isSome_map]
  · rw [changed, failures]
    exact disjoint_of_nodup paths

theorem MigrationState.Treated.becomesBy (treated : Treated config root found before after)
    (once : (before.project.files.map Prod.fst).Nodup)
    (members : ∀ file ∈ found, (root ++ file.1, file.2) ∈ before.project.files) :
    before.project.BecomesBy config root found after.project := by
  refine ⟨?_, ?_, treated.places.1, treated.places.2⟩
  · intro file inside
    have held := Project.find?_of_mem once (members file inside)
    have there : root ++ file.1 ∈ found.map fun file => root ++ file.1 :=
      List.mem_map_of_mem inside
    refine ⟨held, ?_⟩
    rw [treated.find?, held]
    cases config.dryRun <;> simp [there]
  · intro place elsewhere
    have away : place ∉ found.map fun file => root ++ file.1 := by
      rw [List.mem_map]
      rintro ⟨file, inside, same⟩
      exact elsewhere file inside same.symm
    rw [treated.find?]
    simp [away]

end

/-- A run whose files can be found goes through them from a fresh start. -/
theorem runMigration_eq {project : Project} {config : MigrateConfig} {found : List Found}
    {root : List Text} (given : config.root = some root)
    (discovered : config.discover project = .ok found) :
    ∃ start : MigrationState, start.project = project ∧ start.report = ⟨found.length, [], [], []⟩ ∧
      start.progress = openingEvents "Migrating" found.length ∧
      let ended := (found.map Prod.fst).foldl (next config root) start
      (runMigration config project).result = .ok ended.report ∧
        (runMigration config project).progress = ended.progress ++ [.finish] ∧
        (runMigration config project).project = ended.project := by
  rw [runMigration, discovered, given]
  exact ⟨_, rfl, rfl, rfl, rfl, rfl, rfl⟩

/-- A run treats each file that it finds as if it were alone: in the project, in the report and in
what it shows. -/
theorem runMigration_pointwise {project : Project} (wellFormed : project.WellFormed)
    {config : MigrateConfig} {found : List Found}
    (discovered : config.discover project = .ok found) :
    ∃ root report, config.root = some root ∧
      (runMigration config project).result = .ok report ∧
      project.BecomesBy config root found (runMigration config project).project ∧
      report.TellsOf config found ∧
      (runMigration config project).progress =
        [.step 1 "Looking for templates...",
          .step 2 ("Migrating " ++ toString found.length ++ " templates..."),
          .start found.length] ++ found.flatMap Found.events ++ [.finish] := by
  obtain ⟨root, filter, given, search⟩ := MigrateConfig.exists_search discovered
  have members : ∀ file ∈ found, (root ++ file.1, file.2) ∈ project.files := by
    rw [search]
    exact fun file inside => (Project.mem_search_iff.mp inside).1
  have distinct : (found.map Prod.fst).Nodup := search ▸ Project.nodup_search wellFormed root filter
  obtain ⟨start, rfl, fresh, opened, result, progress, left⟩ := runMigration_eq given discovered
  have treated : Treated config root found start
      ((found.map Prod.fst).foldl (next config root) start) :=
    treated_foldl wellFormed.once distinct members
  refine ⟨root, _, given, result, ?_, ?_, ?_⟩
  · rw [left]
    exact treated.becomesBy wellFormed.once members
  · exact treated.tellsOf fresh (nodup_paths wellFormed distinct members)
  · rw [progress, treated.progress, opened]
    rfl

/-- A template with a selector between a file that is no text and one that does not parse. -/
def mixedProject : Project where
  files :=
    [([['a'], ['p']], .text "\x7b\x7b".toList), ([['a'], ['b']], .binary [255]),
      ([['a'], ['f']], .text "\x7b\x7bf t\x7d\x7d".toList),
      ([['o']], .text "\x7b\x7bf t\x7d\x7d".toList)]
  directories := []

def mixedConfig : MigrateConfig where
  cwd := ['.']
  root := some []
  patterns := ["a/*".toList]
  options := ⟨letterPattern, true⟩
  dryRun := false

theorem runMigration_pointwise_mixedProject :
    mixedProject.WellFormed ∧ ∃ found root report,
      mixedConfig.discover mixedProject = .ok found ∧
      (runMigration mixedConfig mixedProject).result = .ok report ∧
      mixedProject.BecomesBy mixedConfig root found
        (runMigration mixedConfig mixedProject).project ∧
      (runMigration mixedConfig mixedProject).project.find? [['a'], ['f']] =
        some (.text "\x7b\x7bf t=true\x7d\x7d".toList) ∧
      report.changed = ["a/f".toList] ∧
      report.failures.map (fun failure => (failure.path, failure.stage)) =
        [("a/b".toList, .read), ("a/p".toList, .parse)] := by
  have wellFormed : mixedProject.WellFormed := ⟨by decide, by decide⟩
  have discovered : mixedConfig.discover mixedProject = .ok
      [([['a'], ['b']], .binary [255]), ([['a'], ['f']], .text "\x7b\x7bf t\x7d\x7d".toList),
        ([['a'], ['p']], .text "\x7b\x7b".toList)] := by
    cbv
  obtain ⟨root, report, given, result, becomes, tells, -⟩ :=
    runMigration_pointwise wellFormed discovered
  obtain rfl : [] = root := Option.some.inj given
  refine ⟨wellFormed, _, [], report, discovered, result, becomes, ?_, ?_, ?_⟩
  · have told := (becomes.written ([['a'], ['f']], .text "\x7b\x7bf t\x7d\x7d".toList)
      (by decide)).2
    refine told.trans (congrArg some ?_)
    cbv
  · rw [tells.changed]
    cbv
  · rw [tells.failures]
    cbv

end TemplateSelectors
