import TemplateSelectors.Proofs.BatchRun

/-!
# Runs that agree

From the same project, a dry run says what a run that writes is going to do, and a check meets the
same troubles as a migration.  In each case two loops are compared file by file: what either says
about a file depends on the content that the file had at the start, so a run that writes as it goes
can be set beside one that does not.
-/

set_option autoImplicit false

namespace TemplateSelectors

open MigrationState

theorem runMigration_of_undiscovered {project : Project} {config : MigrateConfig}
    {error : MigrateError} (undiscovered : config.discover project = .error error) :
    runMigration config project = ⟨.error error, [], [], project⟩ := by
  rw [runMigration, undiscovered]

/-- The files that are found lie below the root, each under names of its own. -/
theorem MigrateConfig.exists_root {project : Project} (wellFormed : project.WellFormed)
    {config : MigrateConfig} {found : List Found}
    (discovered : config.discover project = .ok found) :
    ∃ root, config.root = some root ∧ (found.map Prod.fst).Nodup ∧
      ∀ file ∈ found, (root ++ file.1, file.2) ∈ project.files := by
  obtain ⟨root, filter, given, rfl⟩ := MigrateConfig.exists_search discovered
  refine ⟨root, given, Project.nodup_search wellFormed root filter, ?_⟩
  intro file inside
  exact (Project.mem_search_iff.mp inside).1

theorem runMigration_treats {project : Project} (wellFormed : project.WellFormed)
    {config : MigrateConfig} {found : List Found}
    (discovered : config.discover project = .ok found) {root : List Text}
    (given : config.root = some root) :
    ∃ start ended, start.project = project ∧ start.report = ⟨found.length, [], [], []⟩ ∧
      Treated config root found start ended ∧
      (runMigration config project).result = .ok ended.report ∧
      (runMigration config project).project = ended.project := by
  obtain ⟨_, given', distinct, members⟩ := MigrateConfig.exists_root wellFormed discovered
  cases given.symm.trans given'
  obtain ⟨start, rfl, fresh, -, result, -, left⟩ := runMigration_eq given discovered
  exact ⟨start, _, rfl, fresh, treated_foldl wellFormed.once distinct members, result, left⟩

/-! ## Dry runs -/

theorem Content.change?_eq_some {options : PromoteOptions} {content : Content} {old new : Text}
    (change : content.change? options = some (old, new)) :
    content = .text old ∧ content.migrated options = .text new ∧ old ≠ new := by
  have migrated : content.migrated options = .text new := by
    rw [Content.migrated, change]
  cases content with
  | binary bytes => cases change
  | text source =>
      rw [Content.change?] at change
      split at change
      · cases change
      · split at change
        · cases change
        · next differs =>
            cases change
            exact ⟨rfl, migrated, Ne.symm differs⟩

/-- `diff` tells what becomes of the file at `path` from one project to the other. -/
def Project.DiffersBy (root : List Text) (before after : Project) (path diff : Text) : Prop :=
  ∃ names old new, path = FilePath.ofNames names ∧
    before.find? (root ++ names) = some (.text old) ∧
    after.find? (root ++ names) = some (.text new) ∧ old ≠ new ∧ diff = unifiedDiff path old new

theorem forall₂_diffs {options : PromoteOptions} {found : List Found} {tells : Text → Text → Prop}
    (each : ∀ file ∈ found, ∀ old new, file.2.change? options = some (old, new) →
      tells (Found.path file) (unifiedDiff (Found.path file) old new)) :
    List.Forall₂ tells (found.filterMap (Found.changedPath? options))
      (found.filterMap (Found.diff? options)) := by
  induction found with
  | nil => exact .nil
  | cons file found inductionHypothesis =>
      have later := inductionHypothesis fun other inside =>
        each other (List.mem_cons_of_mem _ inside)
      cases change : file.2.change? options with
      | none =>
          simpa only [List.filterMap_cons, Found.changedPath?, Found.diff?, change,
            Option.map_none] using later
      | some texts =>
          have first := each file List.mem_cons_self texts.1 texts.2 change
          simpa only [List.filterMap_cons, Found.changedPath?, Found.diff?, change,
            Option.map_some] using List.Forall₂.cons first later

/-- A dry run leaves the project alone and foretells the run that writes: the same report, and for
each file that changes the difference between what it holds and what is going to be written. -/
theorem runMigration_foretold {project : Project} (wellFormed : project.WellFormed)
    (config : MigrateConfig) :
    let dry := runMigration { config with dryRun := true } project
    let real := runMigration { config with dryRun := false } project
    dry.project = project ∧
      ((∃ error, dry.result = .error error ∧ real.result = .error error ∧
          real.project = project) ∨
        ∃ root told done, config.root = some root ∧
          dry.result = .ok told ∧ real.result = .ok done ∧
          told.filesScanned = done.filesScanned ∧ told.changed = done.changed ∧
          told.failures = done.failures ∧
          List.Forall₂ (project.DiffersBy root real.project) told.changed told.diffs) := by
  intro dry real
  cases discovered : config.discover project with
  | error error =>
      have dryError : dry = ⟨.error error, [], [], project⟩ :=
        runMigration_of_undiscovered discovered
      have realError : real = ⟨.error error, [], [], project⟩ :=
        runMigration_of_undiscovered discovered
      rw [dryError, realError]
      exact ⟨rfl, .inl ⟨error, rfl, rfl, rfl⟩⟩
  | ok found =>
      obtain ⟨root, given, -, members⟩ := MigrateConfig.exists_root wellFormed discovered
      have dryRun : MigrateConfig.discover { config with dryRun := true } project = .ok found :=
        discovered
      have realRun : MigrateConfig.discover { config with dryRun := false } project = .ok found :=
        discovered
      obtain ⟨start, ended, same, fresh, treated, result, left⟩ :=
        runMigration_treats wellFormed dryRun given
      obtain ⟨start', ended', same', fresh', treated', result', left'⟩ :=
        runMigration_treats wellFormed realRun given
      have untouched : dry.project = project := by
        rw [left, treated.project, if_pos rfl, same]
      refine ⟨untouched, .inr ⟨root, _, _, given, result, result', ?_, ?_, ?_, ?_⟩⟩
      · rw [treated.scanned, treated'.scanned, fresh, fresh']
      · rw [treated.changed, treated'.changed, fresh, fresh']
      · rw [treated.failures, treated'.failures, fresh, fresh']
      · rw [treated.changed, treated.diffs, fresh, if_pos rfl, List.nil_append, List.nil_append]
        apply forall₂_diffs
        intro file inside old new change
        obtain ⟨held, migrated, differs⟩ := Content.change?_eq_some change
        have before : project.find? (root ++ file.1) = some file.2 :=
          Project.find?_of_mem wellFormed.once (members file inside)
        have there : root ++ file.1 ∈ found.map fun file => root ++ file.1 :=
          List.mem_map_of_mem inside
        refine ⟨file.1, old, new, rfl, ?_, ?_, differs, rfl⟩
        · rw [before, held]
        · rw [left', treated'.find?, same', before, Option.map_some, if_pos ⟨rfl, there⟩]
          exact congrArg some migrated

def mixedFound : List Found :=
  [([['a'], ['b']], .binary [255]), ([['a'], ['f']], .text "\x7b\x7bf t\x7d\x7d".toList),
    ([['a'], ['p']], .text "\x7b\x7b".toList)]

theorem discover_mixedProject : mixedConfig.discover mixedProject = .ok mixedFound := by
  cbv

theorem runMigration_foretold_mixedProject :
    let dry := runMigration { mixedConfig with dryRun := true } mixedProject
    let real := runMigration { mixedConfig with dryRun := false } mixedProject
    mixedProject.WellFormed ∧ dry.project = mixedProject ∧
      ∃ told done, dry.result = .ok told ∧ real.result = .ok done ∧
        told.filesScanned = done.filesScanned ∧ told.changed = done.changed ∧
        told.failures = done.failures ∧ told.changed = ["a/f".toList] ∧
        List.Forall₂ (mixedProject.DiffersBy [] real.project) told.changed told.diffs := by
  intro dry real
  have wellFormed : mixedProject.WellFormed := ⟨by decide, by decide⟩
  have dryRun : MigrateConfig.discover { mixedConfig with dryRun := true } mixedProject =
      .ok mixedFound := discover_mixedProject
  obtain ⟨start, ended, -, fresh, treated, result, -⟩ :=
    runMigration_treats wellFormed dryRun rfl
  obtain ⟨untouched, outcome⟩ := runMigration_foretold wellFormed mixedConfig
  rcases outcome with
    ⟨error, failed, -⟩ | ⟨root, told, done, given, tells, does, scanned, changed, failures, diffs⟩
  · rw [result] at failed
    cases failed
  · obtain rfl : [] = root := Option.some.inj given
    refine ⟨wellFormed, untouched, told, done, tells, does, scanned, changed, failures, ?_, diffs⟩
    cases result.symm.trans tells
    rw [treated.changed, fresh]
    cbv

/-! ## Checks -/

theorem runCheck_of_undiscovered {project : Project} {config : MigrateConfig}
    {error : MigrateError} (undiscovered : config.discover project = .error error) :
    runCheck config project = ⟨.error error, [], [], project⟩ := by
  rw [runCheck, undiscovered]

theorem Template.hash_of_parse {source : Text} {template : Template}
    (parsed : Template.parse source = .ok template) :
    ∀ tag ∈ template.everyTag, tag.hash.isSome = true := by
  intro tag member
  obtain ⟨_, _, _, _, _, read⟩ := Template.exists_read_of_parse parsed tag member
  exact (Tag.standsFor_of_read read).wellFormed.keywords

/-- Parsing is the only stage at which the migration of a source can fail. -/
theorem migrateSource_eq_error_iff {options : PromoteOptions} {source : Text}
    {error : MigrateError} :
    migrateSource options source = .error error ↔
      ∃ fault, Template.parse source = .error fault ∧ error = .parse fault := by
  rcases migrateSource_cases options source with
    ⟨fault, parsed, migrating⟩ | ⟨template, result, parsed, migrating, -⟩
  · rw [migrating, parsed]
    constructor
    · intro same
      cases same
      exact ⟨fault, rfl, rfl⟩
    · rintro ⟨other, same, rfl⟩
      cases same
      rfl
  · rw [migrating, parsed]
    constructor
    · intro impossible
      cases impossible
    · rintro ⟨_, impossible, _⟩
      cases impossible

theorem migrateSource_outcome_changed_iff (options : PromoteOptions) {source : Text}
    {template : Template} (parsed : Template.parse source = .ok template) :
    (∃ result, migrateSource options source = .ok result ∧ result.outcome.changed = true) ↔
      template.selectorHits options.pattern ≠ [] := by
  by_cases settled : template.selectorHits options.pattern = []
  · rw [migrateSource_of_settled parsed options settled]
    simp [settled, PromotionOutcome.unchanged]
  · obtain ⟨differs, migrating⟩ := migrateSource_of_found parsed options settled
    have changed := (Template.outcome_changed_iff options
      (Template.keywords_of_parse parsed)).mpr settled
    rw [migrating]
    simp [settled, changed]

namespace Found

def selectors (pattern : SelectorPattern) (file : Found) : List FoundSelector :=
  (checkContent pattern (path file) file.2).toOption.getD []

/-- A check and a migration give the same account of a file that fails. -/
theorem checkFailure?_eq (pattern : SelectorPattern) (file : Found) :
    checkFailure? (checkContent pattern (path file) file.2) = failure? file := by
  obtain ⟨names, content⟩ := file
  cases content with
  | binary bytes => rfl
  | text source =>
      rw [failure?, Content.failure?, checkContent]
      cases Template.parse source with
      | error fault => rfl
      | ok template => rfl

theorem path_of_mem_selectors {pattern : SelectorPattern} {file : Found} {selector : FoundSelector}
    (listed : selector ∈ selectors pattern file) : selector.path = path file := by
  obtain ⟨names, content⟩ := file
  rw [selectors] at listed
  cases content with
  | binary bytes => cases listed
  | text source =>
      rw [checkContent] at listed
      cases parsed : Template.parse source with
      | error fault =>
          rw [parsed] at listed
          cases listed
      | ok template =>
          rw [parsed] at listed
          obtain ⟨hit, -, rfl⟩ := List.mem_map.mp listed
          rfl

theorem selectors_ne_nil_iff (options : PromoteOptions) (file : Found) :
    selectors options.pattern file ≠ [] ↔ ∃ source result, file.2 = .text source ∧
      migrateSource options source = .ok result ∧ result.outcome.changed = true := by
  obtain ⟨names, content⟩ := file
  rw [selectors]
  cases content with
  | binary bytes =>
      constructor
      · intro listed
        exact absurd rfl listed
      · rintro ⟨source, _, impossible, _⟩
        cases impossible
  | text source =>
      have here : (∃ other result, Content.text source = .text other ∧
          migrateSource options other = .ok result ∧ result.outcome.changed = true) ↔
          ∃ result, migrateSource options source = .ok result ∧
            result.outcome.changed = true := by
        simp
      rw [here, checkContent]
      cases parsed : Template.parse source with
      | error fault =>
          have failing : migrateSource options source = .error (.parse fault) :=
            migrateSource_eq_error_iff.mpr ⟨fault, parsed, rfl⟩
          rw [failing]
          simp [Except.toOption]
      | ok template =>
          rw [migrateSource_outcome_changed_iff options parsed]
          simp [Except.toOption]

end Found

theorem runCheck_eq {project : Project} {config : MigrateConfig} {found : List Found}
    (discovered : config.discover project = .ok found) :
    (runCheck config project).result = .ok ⟨found.length,
      found.flatMap (Found.selectors config.options.pattern), found.filterMap Found.failure?⟩ := by
  rw [runCheck, discovered]
  simp only [List.length_map, List.flatMap_map, List.filterMap_map]
  refine congrArg Except.ok ?_
  refine congrArg (CheckReport.mk _ _) ?_
  exact List.filterMap_congr fun file _ => Found.checkFailure?_eq config.options.pattern file

/-- A source fails to migrate exactly when it does not parse, and with that error; so a check
scans as many files as a migration and reports the same failures, and it lists a selector in
exactly those files that the rule of the migration changes. -/
theorem runCheck_meets_failures {project : Project} (wellFormed : project.WellFormed)
    (config : MigrateConfig) :
    (∀ source template, Template.parse source = .ok template →
      ∀ tag ∈ template.everyTag, tag.hash.isSome = true) ∧
    (∀ options source error, migrateSource options source = .error error ↔
      ∃ fault, Template.parse source = .error fault ∧ error = .parse fault) ∧
    ((∃ error, (runCheck config project).result = .error error ∧
        (runMigration config project).result = .error error) ∨
      ∃ found checked migrated, config.discover project = .ok found ∧
        (runCheck config project).result = .ok checked ∧
        (runMigration config project).result = .ok migrated ∧
        checked.filesScanned = migrated.filesScanned ∧ checked.failures = migrated.failures ∧
        (∀ selector ∈ checked.selectors, ∃ file ∈ found, selector.path = Found.path file) ∧
        ∀ file ∈ found, (∃ selector ∈ checked.selectors, selector.path = Found.path file) ↔
          ∃ source result, file.2 = .text source ∧
            migrateSource config.options source = .ok result ∧
            result.outcome.changed = true) := by
  refine ⟨fun _ _ parsed => Template.hash_of_parse parsed,
    fun _ _ _ => migrateSource_eq_error_iff, ?_⟩
  cases discovered : config.discover project with
  | error error =>
      left
      rw [runCheck_of_undiscovered discovered, runMigration_of_undiscovered discovered]
      exact ⟨error, rfl, rfl⟩
  | ok found =>
      right
      obtain ⟨root, given, distinct, members⟩ := MigrateConfig.exists_root wellFormed discovered
      obtain ⟨start, ended, -, fresh, treated, result, -⟩ :=
        runMigration_treats wellFormed discovered given
      refine ⟨found, _, _, rfl, runCheck_eq discovered, result, ?_, ?_, ?_, ?_⟩
      · rw [treated.scanned, fresh]
      · rw [treated.failures, fresh, List.nil_append]
      · intro selector listed
        obtain ⟨file, inside, here⟩ := List.mem_flatMap.mp listed
        exact ⟨file, inside, Found.path_of_mem_selectors here⟩
      · intro file inside
        rw [← Found.selectors_ne_nil_iff]
        constructor
        · -- a path names one file only, so the selector is one of this file
          rintro ⟨selector, listed, same⟩
          obtain ⟨other, inside', here⟩ := List.mem_flatMap.mp listed
          have path := (Found.path_of_mem_selectors here).symm.trans same
          have paths := nodup_paths wellFormed distinct members
          rw [List.inj_on_of_nodup_map paths inside' inside path] at here
          exact List.ne_nil_of_mem here
        · intro listed
          obtain ⟨selector, here⟩ := List.exists_mem_of_ne_nil _ listed
          exact ⟨selector, List.mem_flatMap.mpr ⟨file, inside, here⟩,
            Found.path_of_mem_selectors here⟩

theorem runCheck_meets_failures_mixedProject :
    mixedProject.WellFormed ∧ ∃ checked migrated,
      (runCheck mixedConfig mixedProject).result = .ok checked ∧
      (runMigration mixedConfig mixedProject).result = .ok migrated ∧
      checked.filesScanned = migrated.filesScanned ∧ checked.failures = migrated.failures ∧
      checked.failures.map (fun failure => (failure.path, failure.stage)) =
        [("a/b".toList, .read), ("a/p".toList, .parse)] ∧
      ((∃ selector ∈ checked.selectors, selector.path = "a/f".toList) ↔
        ∃ source result, Content.text "\x7b\x7bf t\x7d\x7d".toList = .text source ∧
          migrateSource mixedConfig.options source = .ok result ∧
          result.outcome.changed = true) ∧
      checked.selectors.map FoundSelector.selector = [['t']] := by
  have wellFormed : mixedProject.WellFormed := ⟨by decide, by decide⟩
  have checking := runCheck_eq discover_mixedProject
  obtain ⟨-, -, outcome⟩ := runCheck_meets_failures wellFormed mixedConfig
  rcases outcome with
    ⟨error, failed, -⟩ |
      ⟨found, checked, migrated, finds, checks, migrates, scanned, failures, -, each⟩
  · rw [checking] at failed
    cases failed
  · cases finds.symm.trans discover_mixedProject
    cases checks.symm.trans checking
    refine ⟨wellFormed, _, migrated, checks, migrates, scanned, failures, ?_, ?_, ?_⟩
    · cbv
    · exact each ([['a'], ['f']], .text "\x7b\x7bf t\x7d\x7d".toList) (by decide)
    · cbv

end TemplateSelectors
