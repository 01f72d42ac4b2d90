import Mathlib.Data.List.Nodup
import TemplateSelectors.Project
import TemplateSelectors.Proofs.GlobEndings

/-!
# What a search finds

A search lists the files below a directory in the order of their names, each once.  It leaves out
a directory whose tried entry is excluded, and so may miss files that pass.  It misses none if
every exclusion ends in a slash and two stars, or in a character that stands for itself and is
not the name of the tried entry.
-/

set_option autoImplicit false

namespace TemplateSelectors

namespace FilePath

/-! ## The order of names -/

theorem compareLists_eq {α : Type} (compare : α → α → Ordering) (as bs : List α) :
    compareLists compare as bs = List.compareLex compare as bs := by
  induction as generalizing bs with
  | nil => cases bs <;> rfl
  | cons a as inductionHypothesis =>
      cases bs with
      | nil => rfl
      | cons b bs =>
          rw [compareLists, List.compareLex_cons_cons, inductionHypothesis]

instance lawfulEqCmp_toNat : Std.LawfulEqCmp (compareOn Char.toNat) where
  compare_self := Std.compare_self
  eq_of_compare same := Char.toNat_inj.mp (Std.compare_eq_iff_eq.mp same)

theorem compareTexts_eq : compareTexts = List.compareLex (compareOn Char.toNat) := by
  funext first second
  exact compareLists_eq _ _ _

theorem compareNames_eq :
    compareNames = List.compareLex (List.compareLex (compareOn Char.toNat)) := by
  funext first second
  rw [← compareTexts_eq]
  exact compareLists_eq _ _ _

instance transCmp_compareNames : Std.TransCmp compareNames := by
  rw [compareNames_eq]
  infer_instance

instance lawfulEqCmp_compareNames : Std.LawfulEqCmp compareNames := by
  rw [compareNames_eq]
  infer_instance

/-! ## Paths of names -/

/-- Whether a text can be the name of a file or a directory. -/
def IsName (name : Text) : Prop :=
  name ≠ [] ∧ '/' ∉ name

instance (name : Text) : Decidable (IsName name) :=
  inferInstanceAs (Decidable (_ ∧ _))

theorem ofNames_cons (name : Text) {names : List Text} (more : names ≠ []) :
    ofNames (name :: names) = name ++ '/' :: ofNames names := by
  cases names with
  | nil => exact absurd rfl more
  | cons next names => rfl

@[simp]
theorem ofNames_singleton (name : Text) : ofNames [name] = name := by
  simp [ofNames, Text.join]

theorem ofNames_append {front back : List Text} (nonempty : front ≠ []) (more : back ≠ []) :
    ofNames (front ++ back) = ofNames front ++ '/' :: ofNames back := by
  induction front with
  | nil => exact absurd rfl nonempty
  | cons name front inductionHypothesis =>
      cases front with
      | nil => rw [List.singleton_append, ofNames_cons name more, ofNames_singleton]
      | cons next front =>
          rw [List.cons_append, ofNames_cons name (by simp), ofNames_cons name (by simp),
            inductionHypothesis (by simp), List.append_assoc, List.cons_append]

theorem getLast?_ofNames {names : List Text} (valid : ∀ name ∈ names, IsName name)
    (nonempty : names ≠ []) : ∃ c, (ofNames names).getLast? = some c ∧ c ≠ '/' := by
  induction names with
  | nil => exact absurd rfl nonempty
  | cons name names inductionHypothesis =>
      by_cases more : names = []
      · subst more
        obtain ⟨nonempty, noSlash⟩ := valid name (by simp)
        refine ⟨name.getLast nonempty, ?_, ?_⟩
        · rw [ofNames_singleton, List.getLast?_eq_some_getLast nonempty]
        · intro slash
          exact noSlash (slash ▸ List.getLast_mem nonempty)
      · obtain ⟨c, last, other⟩ :=
          inductionHypothesis (fun name member => valid name (by simp [member])) more
        refine ⟨c, ?_, other⟩
        rw [ofNames_cons name more, List.getLast?_append, List.getLast?_cons, last]
        rfl

theorem child_ofNames {names : List Text} (valid : ∀ name ∈ names, IsName name)
    (nonempty : names ≠ []) (entry : Text) :
    child (ofNames names) entry = ofNames names ++ '/' :: entry := by
  obtain ⟨c, last, other⟩ := getLast?_ofNames valid nonempty
  rw [child, if_neg]
  rintro (empty | slash)
  · rw [empty] at last
    cases last
  · rw [last] at slash
    exact other (Option.some.inj slash)

theorem splitOnChar_plain {mark : Char} {text : Text} (plain : mark ∉ text) :
    splitOnChar mark text = [text] := by
  induction text with
  | nil => rfl
  | cons c text inductionHypothesis =>
      rw [List.mem_cons, not_or] at plain
      rw [splitOnChar, if_neg (Ne.symm plain.1), inductionHypothesis plain.2]

theorem splitOnChar_append {mark : Char} {front : Text} (plain : mark ∉ front) (rest : Text) :
    splitOnChar mark (front ++ mark :: rest) = front :: splitOnChar mark rest := by
  induction front with
  | nil => rw [List.nil_append, splitOnChar, if_pos rfl]
  | cons c front inductionHypothesis =>
      rw [List.mem_cons, not_or] at plain
      rw [List.cons_append, splitOnChar, if_neg (Ne.symm plain.1), inductionHypothesis plain.2]

/-- The names of a path are what stands between its slashes. -/
theorem splitOnChar_ofNames {names : List Text} (valid : ∀ name ∈ names, IsName name)
    (nonempty : names ≠ []) : splitOnChar '/' (ofNames names) = names := by
  induction names with
  | nil => exact absurd rfl nonempty
  | cons name names inductionHypothesis =>
      have noSlash := (valid name (by simp)).2
      by_cases more : names = []
      · subst more
        rw [ofNames_singleton, splitOnChar_plain noSlash]
      · rw [ofNames_cons name more, splitOnChar_append noSlash,
          inductionHypothesis (fun name member => valid name (by simp [member])) more]

theorem ofNames_inj {first second : List Text} (firstValid : ∀ name ∈ first, IsName name)
    (secondValid : ∀ name ∈ second, IsName name) (same : ofNames first = ofNames second) :
    first = second := by
  have nonempty : ∀ {names : List Text}, (∀ name ∈ names, IsName name) → names ≠ [] →
      ofNames names ≠ [] := by
    intro names valid more empty
    obtain ⟨c, last, -⟩ := getLast?_ofNames valid more
    rw [empty] at last
    cases last
  by_cases noFirst : first = []
  · subst noFirst
    by_contra other
    exact nonempty secondValid (Ne.symm other) same.symm
  · by_cases noSecond : second = []
    · subst noSecond
      exact absurd same (nonempty firstValid noFirst)
    · rw [← splitOnChar_ofNames firstValid noFirst, same, splitOnChar_ofNames secondValid noSecond]

end FilePath

namespace FileFilter

/-! ## What is excluded with a directory -/

theorem exists_of_mem_readGlobs {patterns : List Text} {globs : List Glob}
    (reading : readGlobs patterns = .ok globs) {glob : Glob} (member : glob ∈ globs) :
    ∃ pattern ∈ patterns, Glob.read pattern = .ok glob := by
  induction patterns generalizing globs with
  | nil =>
      cases reading
      cases member
  | cons pattern patterns inductionHypothesis =>
      rw [readGlobs] at reading
      split at reading
      · cases reading
      · next first found =>
          cases others : readGlobs patterns with
          | error error =>
              rw [others] at reading
              cases reading
          | ok rest =>
              rw [others] at reading
              cases reading
              rcases List.mem_cons.mp member with rfl | later
              · exact ⟨pattern, by simp, found⟩
              · obtain ⟨source, inside, read⟩ := inductionHypothesis others later
                exact ⟨source, by simp [inside], read⟩

/-- The exclusions of a filter come from the patterns behind an exclamation mark. -/
theorem readGlobs_of_read {patterns : List Text} {filter : FileFilter}
    (reading : read patterns = .ok filter) :
    readGlobs (patterns.filterMap exclusion?) = .ok filter.exclusions ∧
      readGlobs standingPatterns = .ok filter.standing := by
  simp only [read] at reading
  split at reading
  · cases reading
  · split at reading
    · cases reading
    · split at reading
      · cases reading
      · next exclusions found =>
          cases standing : readGlobs standingPatterns with
          | error error =>
              rw [standing] at reading
              cases reading
          | ok globs =>
              rw [standing] at reading
              cases reading
              exact ⟨found, rfl⟩

/-- Patterns about whose filter something can be told have one. -/
theorem exists_read_of_map {α : Type} {patterns : List Text} {f : FileFilter → α} {value : α}
    (facts : (read patterns).toOption.map f = some value) :
    ∃ filter, read patterns = .ok filter ∧ f filter = value := by
  cases reading : read patterns with
  | error error =>
      rw [reading] at facts
      cases facts
  | ok filter =>
      rw [reading] at facts
      exact ⟨filter, rfl, Option.some.inj facts⟩

theorem judgesDirectories_standing :
    ∀ pattern ∈ standingPatterns, Glob.judgesDirectories pattern = true := by
  decide

theorem matchesAny_below {patterns : List Text} {globs : List Glob}
    (reading : readGlobs patterns = .ok globs)
    (judge : ∀ pattern ∈ patterns, Glob.judgesDirectories pattern = true) {directory : Text}
    (tried : matchesAny globs (directory ++ ['/', '_']) = true) (entry : Text) :
    matchesAny globs (directory ++ '/' :: entry) = true := by
  obtain ⟨glob, member, matched⟩ := List.any_eq_true.mp tried
  obtain ⟨pattern, inside, read⟩ := exists_of_mem_readGlobs reading member
  exact List.any_eq_true.mpr
    ⟨glob, member, Glob.isMatch_of_judgesDirectories read (judge pattern inside) matched entry⟩

/-- Nothing passes in a directory that is left out, if the exclusions judge directories. -/
theorem excludes_below {patterns : List Text} {filter : FileFilter}
    (reading : read patterns = .ok filter)
    (judge : ∀ pattern ∈ patterns.filterMap exclusion?, Glob.judgesDirectories pattern = true)
    {directory : Text} (tried : filter.excludes (directory ++ ['/', '_']) = true) (entry : Text) :
    filter.excludes (directory ++ '/' :: entry) = true := by
  obtain ⟨exclusions, standing⟩ := readGlobs_of_read reading
  rw [excludes, Bool.or_eq_true] at tried ⊢
  rcases tried with always | given
  · exact .inl (matchesAny_below standing judgesDirectories_standing always entry)
  · exact .inr (matchesAny_below exclusions judge given entry)

end FileFilter

namespace Project

/-! ## Searching -/

/-- A project as a directory holds one: a file is there once, and its names are names. -/
structure WellFormed (project : Project) : Prop where
  once : (project.files.map Prod.fst).Nodup
  named : ∀ file ∈ project.files, ∀ name ∈ file.1, FilePath.IsName name

theorem below?_iff {front names rest : List Text} :
    below? front names = some rest ↔ names = front ++ rest := by
  induction front generalizing names with
  | nil => simp [below?, eq_comm]
  | cons a front inductionHypothesis =>
      cases names with
      | nil => simp [below?]
      | cons b names =>
          rw [below?, List.cons_append, List.cons.injEq]
          split
          · next same => rw [inductionHypothesis, same]; simp
          · next other => simp [Ne.symm other]

theorem mem_ancestors_iff {names directory : List Text} :
    directory ∈ ancestors names ↔
      directory ≠ [] ∧ ∃ name rest, names = directory ++ name :: rest := by
  rw [ancestors, List.mem_map]
  constructor
  · rintro ⟨n, inside, rfl⟩
    rw [List.mem_range] at inside
    have shorter : n + 1 < names.length := by omega
    refine ⟨?_, names.get ⟨n + 1, shorter⟩, names.drop (n + 2), ?_⟩
    · intro taken
      rw [List.take_eq_nil_iff] at taken
      rcases taken with impossible | empty
      · omega
      · subst empty
        cases shorter
    · calc names = names.take (n + 1) ++ names.drop (n + 1) := (List.take_append_drop _ _).symm
        _ = _ := by rw [List.drop_eq_getElem_cons shorter]; rfl
  · rintro ⟨inner, name, rest, rfl⟩
    have positive : 0 < directory.length := List.length_pos_iff.mpr inner
    refine ⟨directory.length - 1, ?_, ?_⟩
    · rw [List.mem_range, List.length_append, List.length_cons]
      omega
    · rw [Nat.sub_add_cancel positive, List.take_left]

theorem mem_search_iff {project : Project} {root : List Text} {filter : FileFilter}
    {names : List Text} {content : Content} :
    (names, content) ∈ project.search root filter ↔
      (root ++ names, content) ∈ project.files ∧ filter.passes (FilePath.ofNames names) = true ∧
        ∀ directory ∈ ancestors names,
          filter.excludesDirectory (FilePath.ofNames directory) = false := by
  rw [search, (List.mergeSort_perm _ _).mem_iff, List.mem_filter, List.mem_filterMap]
  have inFiles : (∃ file ∈ project.files,
      (below? root file.1).map (fun names => (names, file.2)) = some (names, content)) ↔
      (root ++ names, content) ∈ project.files := by
    constructor
    · rintro ⟨⟨place, kept⟩, member, found⟩
      obtain ⟨rest, below, same⟩ := Option.map_eq_some_iff.mp found
      cases same
      rw [below?_iff] at below
      exact below ▸ member
    · intro member
      refine ⟨_, member, ?_⟩
      rw [below?_iff.mpr rfl]
      rfl
  rw [inFiles, isFound, Bool.and_eq_true, List.all_eq_true]
  simp only [Bool.not_eq_true']
  exact and_congr_right fun _ => and_comm

theorem nodup_search {project : Project} (wellFormed : project.WellFormed) (root : List Text)
    (filter : FileFilter) : ((project.search root filter).map Prod.fst).Nodup := by
  have below : ((project.files.filterMap fun file =>
      (below? root file.1).map fun names => (names, file.2)).map Prod.fst).Nodup := by
    have same : ((project.files.filterMap fun file =>
        (below? root file.1).map fun names => (names, file.2)).map Prod.fst) =
        (project.files.map Prod.fst).filterMap (below? root) := by
      rw [List.map_filterMap, List.filterMap_map]
      congr 1
      funext file
      simp [Function.comp_def]
    rw [same]
    refine List.Nodup.filterMap ?_ wellFormed.once
    intro first second names inFirst inSecond
    rw [below?_iff.mp inFirst, below?_iff.mp inSecond]
  rw [search]
  refine ((List.mergeSort_perm _ _).map Prod.fst).nodup_iff.mpr ?_
  exact (List.filter_sublist.map Prod.fst).nodup below

theorem pairwise_search {project : Project} (wellFormed : project.WellFormed) (root : List Text)
    (filter : FileFilter) :
    (project.search root filter).Pairwise fun first second =>
      FilePath.compareNames first.1 second.1 = .lt := by
  have sorted : (project.search root filter).Pairwise fun first second =>
      (FilePath.compareNames first.1 second.1).isLE = true := by
    refine List.pairwise_mergeSort ?_ ?_ _
    · intro first second third
      exact Std.TransCmp.isLE_trans
    · intro first second
      have swapped : FilePath.compareNames second.1 first.1 =
          (FilePath.compareNames first.1 second.1).swap := Std.OrientedCmp.eq_swap
      rw [swapped]
      cases FilePath.compareNames first.1 second.1 <;> rfl
  have once : (project.search root filter).Pairwise fun first second => first.1 ≠ second.1 :=
    List.pairwise_map.mp (nodup_search wellFormed root filter)
  refine (sorted.and once).imp ?_
  rintro first second ⟨atMost, other⟩
  cases order : FilePath.compareNames first.1 second.1 with
  | lt => rfl
  | eq => exact absurd (Std.LawfulEqCmp.eq_of_compare order) other
  | gt =>
      rw [order] at atMost
      cases atMost

/-- Where exclusions judge directories, a file that passes lies in no directory that is left out. -/
theorem ancestors_of_passes {project : Project} (wellFormed : project.WellFormed)
    {root names : List Text} {content : Content} (member : (root ++ names, content) ∈ project.files)
    {patterns : List Text} {filter : FileFilter} (reading : FileFilter.read patterns = .ok filter)
    (judge : ∀ pattern ∈ patterns.filterMap FileFilter.exclusion?,
      Glob.judgesDirectories pattern = true)
    (passed : filter.passes (FilePath.ofNames names) = true) {directory : List Text}
    (onTheWay : directory ∈ ancestors names) :
    filter.excludesDirectory (FilePath.ofNames directory) = false := by
  obtain ⟨inner, name, rest, rfl⟩ := mem_ancestors_iff.mp onTheWay
  have valid : ∀ name ∈ directory, FilePath.IsName name := by
    intro name inside
    exact wellFormed.named _ member name (by simp [inside])
  rw [FilePath.ofNames_append inner (by simp), FileFilter.passes, Bool.and_eq_true] at passed
  rw [Bool.eq_false_iff, FileFilter.excludesDirectory, FilePath.child_ofNames valid inner]
  intro tried
  rw [FileFilter.excludes_below reading judge tried] at passed
  cases passed.1

/-- A search lists the files that pass, in the order of their names and each once, except those in
a directory whose tried entry is excluded.  There are no such exceptions if every exclusion ends
in a slash and two stars, or in a character that stands for itself and is not the tried name. -/
theorem search_finds_passing {project : Project} (wellFormed : project.WellFormed)
    (root : List Text) {patterns : List Text} {filter : FileFilter}
    (reading : FileFilter.read patterns = .ok filter) :
    ((project.search root filter).Pairwise fun first second =>
      FilePath.compareNames first.1 second.1 = .lt) ∧
    (∀ names content, (names, content) ∈ project.search root filter ↔
      (root ++ names, content) ∈ project.files ∧ filter.passes (FilePath.ofNames names) = true ∧
        ∀ directory name rest, names = directory ++ name :: rest → directory ≠ [] →
          filter.excludesDirectory (FilePath.ofNames directory) = false) ∧
    ((∀ pattern ∈ patterns.filterMap FileFilter.exclusion?,
        Glob.judgesDirectories pattern = true) →
      ∀ names content, (names, content) ∈ project.search root filter ↔
        (root ++ names, content) ∈ project.files ∧
          filter.passes (FilePath.ofNames names) = true) := by
  refine ⟨pairwise_search wellFormed root filter, ?_, ?_⟩
  · intro names content
    rw [mem_search_iff]
    refine and_congr_right fun _ => and_congr_right fun _ => ?_
    constructor
    · intro kept directory name rest same inner
      exact kept directory (mem_ancestors_iff.mpr ⟨inner, name, rest, same⟩)
    · intro kept directory onTheWay
      obtain ⟨inner, name, rest, same⟩ := mem_ancestors_iff.mp onTheWay
      exact kept directory name rest same inner
  · intro judge names content
    rw [mem_search_iff]
    constructor
    · rintro ⟨member, passed, -⟩
      exact ⟨member, passed⟩
    · rintro ⟨member, passed⟩
      exact ⟨member, passed, fun _ onTheWay =>
        ancestors_of_passes wellFormed member reading judge passed onTheWay⟩

/-- Files in two directories, not in order. -/
def scatteredFiles : Project where
  files :=
    [([['w'], ['l'], ['y']], .text []), ([['w'], ['v'], ['x']], .text []),
      ([['w'], ['l'], ['_']], .text []), ([['w'], ['l'], ['o']], .text [])]
  directories := []

theorem search_finds_passing_scatteredFiles :
    scatteredFiles.WellFormed ∧ ∃ filter,
      FileFilter.read ["**".toList, "!v/**".toList, "!**/o".toList] = .ok filter ∧
      ([['l'], ['_']], .text []) ∈ scatteredFiles.search [['w']] filter ∧
      ([['v'], ['x']], .text []) ∉ scatteredFiles.search [['w']] filter ∧
      ([['l'], ['o']], .text []) ∉ scatteredFiles.search [['w']] filter := by
  have wellFormed : scatteredFiles.WellFormed := ⟨by decide, by decide⟩
  have facts : ((FileFilter.read ["**".toList, "!v/**".toList, "!**/o".toList]).toOption.map
      fun filter => ["l/_".toList, "v/x".toList, "l/o".toList].map filter.passes) =
      some [true, false, false] := by
    decide +kernel
  obtain ⟨filter, reading, told⟩ := FileFilter.exists_read_of_map facts
  simp only [List.map_cons, List.map_nil, List.cons.injEq, and_true] at told
  obtain ⟨passed, vendored, old⟩ := told
  have found := (search_finds_passing wellFormed [['w']] reading).2.2 (by decide)
  refine ⟨wellFormed, filter, reading, (found _ _).mpr ⟨by decide, passed⟩, ?_, ?_⟩
  · intro inside
    exact absurd ((found _ _).mp inside).2 (Bool.eq_false_iff.mp vendored)
  · intro inside
    exact absurd ((found _ _).mp inside).2 (Bool.eq_false_iff.mp old)

/-- An exclusion of names that begin like the tried one takes whole directories away. -/
theorem search_misses_passing :
    ∃ (project : Project) (filter : FileFilter),
      project.WellFormed ∧ FileFilter.read ["**/*.hbs".toList, "!**/_*".toList] = .ok filter ∧
      project.files = [(["app".toList, "x.hbs".toList], .text [])] ∧
      filter.passes "app/x.hbs".toList = true ∧ project.search [] filter = [] := by
  have facts : ((FileFilter.read ["**/*.hbs".toList, "!**/_*".toList]).toOption.map fun filter =>
      (filter.passes "app/x.hbs".toList,
        (⟨[(["app".toList, "x.hbs".toList], .text [])], []⟩ : Project).search [] filter)) =
      some (true, []) := by
    decide +kernel
  obtain ⟨filter, reading, told⟩ := FileFilter.exists_read_of_map facts
  rw [Prod.mk.injEq] at told
  exact ⟨_, filter, ⟨by decide, by decide⟩, reading, rfl, told.1, told.2⟩

end Project

end TemplateSelectors
