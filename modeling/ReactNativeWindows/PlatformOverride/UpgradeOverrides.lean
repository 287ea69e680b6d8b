import ReactNativeWindows.PlatformOverride.MarkUpToDate

/-! What an upgrade of the overrides leaves in the manifest. -/
namespace PlatformOverride

open Concurrency Control
open GitReactFileRepository (Version Buffer Stat)

variable {libs : Libraries} {Files : Type}

/-! ### What the strategies find -/

def ValidationStrategy.Finds (strategy : ValidationStrategy) (overrideRepo : FileRepository)
    (reactRepo : ReactFileRepository) (err : ValidationError) : Prop :=
  ∃ found, strategy overrideRepo reactRepo = .ok found ∧ err ∈ found

/-- Everything that a strategy finds names one override, and says something else than that its base
has changed. -/
def ValidationStrategy.Reports (strategy : ValidationStrategy) (overrideName : String) : Prop :=
  ∀ overrideRepo reactRepo err, strategy.Finds overrideRepo reactRepo err →
    err.overrideName = overrideName ∧ err.type ≠ .outOfDate

def Base.OutOfDate (libs : Libraries) (reactRepo : ReactFileRepository) (base : Base) : Prop :=
  ∃ hash, hashFileOrDirectory libs base.path reactRepo.toFileRepository none = .ok (some hash) ∧
    hash ≠ "" ∧ hash ≠ base.hash

theorem Base.IsCurrent.not_outOfDate {reactRepo : ReactFileRepository} {base : Base}
    (h : base.IsCurrent libs reactRepo) : ¬base.OutOfDate libs reactRepo := by
  rintro ⟨hash, hHash, -, hNe⟩
  rw [h.2] at hHash
  cases hHash
  exact hNe rfl

namespace ValidationStrategies

variable {overrideName base : String}

theorem overrideFileExists_reports : (overrideFileExists overrideName).Reports overrideName := by
  rintro overrideRepo reactRepo err ⟨found, h, hMem⟩
  obtain ⟨type, -, h⟩ := bind_eq_ok.mp h
  cases type <;> obtain rfl := pure_eq_ok.mp h <;> simp_all

theorem baseFileExists_reports : (baseFileExists overrideName base).Reports overrideName := by
  rintro overrideRepo reactRepo err ⟨found, h, hMem⟩
  obtain ⟨type, -, h⟩ := bind_eq_ok.mp h
  cases type <;> obtain rfl := pure_eq_ok.mp h <;> simp_all

theorem overrideDirectoryExists_reports :
    (overrideDirectoryExists overrideName).Reports overrideName := by
  rintro overrideRepo reactRepo err ⟨found, h, hMem⟩
  obtain ⟨type, -, h⟩ := bind_eq_ok.mp h
  cases type <;> obtain rfl := pure_eq_ok.mp h <;> simp_all

theorem baseDirectoryExists_reports :
    (baseDirectoryExists overrideName base).Reports overrideName := by
  rintro overrideRepo reactRepo err ⟨found, h, hMem⟩
  obtain ⟨type, -, h⟩ := bind_eq_ok.mp h
  cases type <;> obtain rfl := pure_eq_ok.mp h <;> simp_all

theorem overrideCopyOfBase_reports :
    (overrideCopyOfBase libs overrideName base).Reports overrideName := by
  rintro overrideRepo reactRepo err ⟨found, h, hMem⟩
  obtain ⟨hashes, -, h⟩ := bind_eq_ok.mp h
  cases hashes with
  | none =>
    obtain rfl := pure_eq_ok.mp h
    cases hMem
  | some hashes =>
    obtain rfl := pure_eq_ok.mp h
    split at hMem <;> simp_all

theorem overrideDifferentFromBase_reports :
    (overrideDifferentFromBase libs overrideName base).Reports overrideName := by
  rintro overrideRepo reactRepo err ⟨found, h, hMem⟩
  obtain ⟨hashes, -, h⟩ := bind_eq_ok.mp h
  cases hashes with
  | none =>
    obtain rfl := pure_eq_ok.mp h
    cases hMem
  | some hashes =>
    obtain rfl := pure_eq_ok.mp h
    split at hMem <;> simp_all

theorem baseUpToDate_finds {expectedBaseHash : String} {overrideRepo : FileRepository}
    {reactRepo : ReactFileRepository} {err : ValidationError} :
    (baseUpToDate libs overrideName base expectedBaseHash).Finds overrideRepo reactRepo err ↔
      err = ⟨.outOfDate, overrideName⟩ ∧
        ∃ hash, hashFileOrDirectory libs base reactRepo.toFileRepository none = .ok (some hash) ∧
          hash ≠ "" ∧ hash ≠ expectedBaseHash := by
  constructor
  · rintro ⟨found, h, hMem⟩
    obtain ⟨hash, hHash, h⟩ := bind_eq_ok.mp h
    cases hash with
    | none =>
      obtain rfl := pure_eq_ok.mp h
      cases hMem
    | some hash =>
      simp only at h
      split at h
      · obtain rfl := pure_eq_ok.mp h
        cases hMem
      · rename_i hTruthy
        obtain rfl := pure_eq_ok.mp h
        split at hMem
        · cases hMem
        · rename_i hNe
          exact ⟨List.mem_singleton.mp hMem, hash, hHash, hTruthy, hNe⟩
  · rintro ⟨rfl, hash, hHash, hTruthy, hNe⟩
    refine ⟨[⟨.outOfDate, overrideName⟩], bind_eq_ok.mpr ⟨some hash, hHash, ?_⟩, List.mem_singleton_self _⟩
    simp only [if_neg hTruthy, if_neg hNe]
    rfl

end ValidationStrategies

variable {override : Override}

open ValidationStrategies in
theorem Override.mem_validationStrategies {strategy : ValidationStrategy} :
    strategy ∈ override.validationStrategies libs →
      strategy.Reports override.name ∨
        ∃ base, override.base? = some base ∧
          strategy = baseUpToDate libs override.name base.path base.hash := by
  intro hMem
  cases override with
  | platform overrideFile =>
    obtain rfl := List.mem_singleton.mp hMem
    exact .inl overrideFileExists_reports
  | patch override | derived override =>
    simp only [Override.validationStrategies, BaseFileOverride.validationStrategies,
      List.mem_append, List.mem_cons, List.not_mem_nil, or_false] at hMem
    rcases hMem with (rfl | rfl | rfl) | rfl
    · exact .inl baseFileExists_reports
    · exact .inl overrideFileExists_reports
    · exact .inr ⟨_, rfl, rfl⟩
    · exact .inl overrideDifferentFromBase_reports
  | copy override =>
    simp only [Override.validationStrategies, BaseFileOverride.validationStrategies,
      List.mem_append, List.mem_cons, List.not_mem_nil, or_false] at hMem
    rcases hMem with (rfl | rfl | rfl) | rfl
    · exact .inl baseFileExists_reports
    · exact .inl overrideFileExists_reports
    · exact .inr ⟨_, rfl, rfl⟩
    · exact .inl overrideCopyOfBase_reports
  | directoryCopy override =>
    simp only [Override.validationStrategies, List.mem_cons, List.not_mem_nil, or_false] at hMem
    rcases hMem with rfl | rfl | rfl | rfl
    · exact .inl overrideDirectoryExists_reports
    · exact .inl baseDirectoryExists_reports
    · exact .inr ⟨_, rfl, rfl⟩
    · exact .inl overrideCopyOfBase_reports

theorem Override.baseUpToDate_mem {base : Base} (h : override.base? = some base) :
    ValidationStrategies.baseUpToDate libs override.name base.path base.hash ∈
      override.validationStrategies libs := by
  cases override with
  | platform overrideFile => cases h
  | patch override | derived override | copy override | directoryCopy override =>
    cases h
    simp [Override.validationStrategies, BaseFileOverride.validationStrategies, Override.name]

variable {overrideRepo : FileRepository} {reactRepo : ReactFileRepository}

def Override.Finds (libs : Libraries) (overrideRepo : FileRepository)
    (reactRepo : ReactFileRepository) (override : Override) (err : ValidationError) : Prop :=
  ∃ strategy ∈ override.validationStrategies libs, strategy.Finds overrideRepo reactRepo err

theorem Override.Finds.overrideName {err : ValidationError}
    (h : override.Finds libs overrideRepo reactRepo err) : err.overrideName = override.name := by
  obtain ⟨strategy, hMem, hFinds⟩ := h
  rcases mem_validationStrategies hMem with hReports | ⟨base, -, rfl⟩
  · exact (hReports overrideRepo reactRepo err hFinds).1
  · rw [(ValidationStrategies.baseUpToDate_finds.mp hFinds).1]

variable {overrideName : String}

theorem Override.finds_outOfDate :
    override.Finds libs overrideRepo reactRepo ⟨.outOfDate, overrideName⟩ ↔
      override.name = overrideName ∧
        ∃ base, override.base? = some base ∧ base.OutOfDate libs reactRepo := by
  constructor
  · rintro ⟨strategy, hMem, hFinds⟩
    rcases mem_validationStrategies hMem with hReports | ⟨base, hBase, rfl⟩
    · exact absurd rfl (hReports overrideRepo reactRepo _ hFinds).2
    · obtain ⟨hErr, hash, hHash⟩ := ValidationStrategies.baseUpToDate_finds.mp hFinds
      cases hErr
      exact ⟨rfl, base, hBase, hash, hHash⟩
  · rintro ⟨rfl, base, hBase, hOutOfDate⟩
    exact ⟨_, baseUpToDate_mem hBase, ValidationStrategies.baseUpToDate_finds.mpr ⟨rfl, hOutOfDate⟩⟩

namespace Manifest

variable {manifest : Manifest} {turns : List ℕ} {errors : List ValidationError}

/-- What the turns of the validation tasks do: they add errors that a strategy finds. -/
def Adds (strategies : List ValidationStrategy) (overrideRepo : FileRepository)
    (reactRepo : ReactFileRepository) (errors after : List ValidationError) : Prop :=
  ∃ more, after = errors ++ more ∧
    ∀ err ∈ more, ∃ strategy ∈ strategies, strategy.Finds overrideRepo reactRepo err

variable {strategies : List ValidationStrategy}

theorem Adds.of_run {after : List ValidationError}
    (h : Relation.ReflTransGen (Adds strategies overrideRepo reactRepo) errors after) :
    Adds strategies overrideRepo reactRepo errors after := by
  induction h with
  | refl => exact ⟨[], (List.append_nil _).symm, nofun⟩
  | tail _ hStep ih =>
    obtain ⟨first, rfl, hFirst⟩ := ih
    obtain ⟨second, rfl, hSecond⟩ := hStep
    refine ⟨first ++ second, List.append_assoc _ _ _, fun err hErr => ?_⟩
    exact (List.mem_append.mp hErr).elim (hFirst err) (hSecond err)

variable {strategy : ValidationStrategy}

theorem Adds.stable :
    Async.Stable (Adds strategies overrideRepo reactRepo) fun s =>
      ∃ found, strategy overrideRepo reactRepo = .ok found ∧ ∀ err ∈ found, err ∈ s := by
  rintro s t ⟨more, rfl, -⟩ ⟨found, hFound, hAll⟩
  exact ⟨found, hFound, fun err hErr => List.mem_append_left more (hAll err hErr)⟩

theorem validationTask_meets (hMem : strategy ∈ strategies) :
    (validationTask overrideRepo reactRepo strategy).Meets (Adds strategies overrideRepo reactRepo)
      (fun _ s => ∃ found, strategy overrideRepo reactRepo = .ok found ∧ ∀ err ∈ found, err ∈ s)
      (fun _ => True) := by
  apply Async.Meets.write _ Adds.stable
  rintro s t - h
  obtain ⟨found, hFound, h⟩ := bind_eq_ok.mp h
  obtain rfl := pure_eq_ok.mp h
  refine ⟨⟨found, rfl, fun err hErr => ⟨strategy, hMem, found, hFound, hErr⟩⟩, found, hFound, ?_⟩
  exact fun err hErr => List.mem_append_right s hErr

/-- Validation reports what the strategies find, and files that are missing. -/
theorem mem_validate (h : manifest.validate libs overrideRepo reactRepo turns = .ok errors) :
    (∀ err ∈ errors, (∃ file, manifest.isMissing libs file = true ∧ err = ⟨.missingFromManifest, file⟩) ∨
        ∃ override ∈ manifest.overrides, override.Finds libs overrideRepo reactRepo err) ∧
      ∀ override ∈ manifest.overrides, ∀ err,
        override.Finds libs overrideRepo reactRepo err → err ∈ errors := by
  obtain ⟨files, -, h⟩ := bind_eq_ok.mp h
  obtain ⟨⟨all, values⟩, hRun, h⟩ := bind_eq_ok.mp h
  obtain rfl := pure_eq_ok.mp h
  let strategies := manifest.overrides.flatMap (·.validationStrategies libs)
  have hTasks : (Async.mapLimit 30 turns
        (strategies.map (validationTask overrideRepo reactRepo))).Meets
      (Adds strategies overrideRepo reactRepo) _ _ :=
    Async.Meets.mapLimit_map (fun strategy hMem => validationTask_meets hMem)
      (fun _ _ _ _ _ => trivial) (fun _ _ => Adds.stable)
  obtain ⟨hValues, hAdds⟩ := hTasks.run (fun _ _ => trivial) hRun
  obtain ⟨more, rfl, hMore⟩ := Adds.of_run hAdds
  simp only [List.mem_insertionSort]
  constructor
  · intro err hErr
    rcases List.mem_append.mp hErr with hMissing | hErr
    · obtain ⟨file, hFile, rfl⟩ := List.mem_map.mp hMissing
      exact .inl ⟨file, (List.mem_filter.mp hFile).2, rfl⟩
    · obtain ⟨strategy, hMem, hFinds⟩ := hMore err hErr
      obtain ⟨override, hOverride, hStrategy⟩ := List.mem_flatMap.mp hMem
      exact .inr ⟨override, hOverride, strategy, hStrategy, hFinds⟩
  · rintro override hOverride err ⟨strategy, hStrategy, found, hFound, hErr⟩
    have hMem : strategy ∈ strategies := List.mem_flatMap.mpr ⟨override, hOverride, hStrategy⟩
    obtain ⟨-, -, again, hAgain, hAll⟩ := exists_right_of_mem hValues hMem
    rw [hFound] at hAgain
    cases hAgain
    exact hAll err hErr

/-- A base is reported to be out of date exactly if its hash is another than its override says. -/
theorem outOfDate_mem_validate
    (h : manifest.validate libs overrideRepo reactRepo turns = .ok errors) {overrideName : String} :
    ⟨.outOfDate, overrideName⟩ ∈ errors ↔
      ∃ override ∈ manifest.overrides, override.name = overrideName ∧
        ∃ base, override.base? = some base ∧ base.OutOfDate libs reactRepo := by
  obtain ⟨hErrors, hAll⟩ := mem_validate h
  constructor
  · intro hMem
    rcases hErrors _ hMem with ⟨file, -, hErr⟩ | ⟨override, hOverride, hFinds⟩
    · cases hErr
    · exact ⟨override, hOverride, Override.finds_outOfDate.mp hFinds⟩
  · rintro ⟨override, hOverride, hOutOfDate⟩
    exact hAll override hOverride _ (Override.finds_outOfDate.mpr hOutOfDate)

theorem ne_of_isMissing (hLibs : libs.Lawful) {file : String} {override : Override}
    (hMissing : manifest.isMissing libs file = true) (hMem : override ∈ manifest.overrides) :
    override.name ≠ libs.normalizePath file := by
  intro hName
  have hIncludes : override.includesFile libs file = true := by
    cases override with
    | platform overrideFile | patch override | derived override | copy override =>
      exact decide_eq_true hName.symm
    | directoryCopy override =>
      rw [Override.includesFile, ← hName]
      exact decide_eq_true (hLibs.split_relative _)
  have hAny : manifest.overrides.any (·.includesFile libs file) = true :=
    List.any_eq_true.mpr ⟨override, hMem, hIncludes⟩
  simp [isMissing, hAny] at hMissing

end Manifest

/-! ### Upgrades -/

/-- Whatever the others do, an upgrade ends with a result about its own override. -/
def Names (overrideName : String) (result : UpgradeResult) (_ : Files) : Prop :=
  result.overrideName = overrideName

/-- All that a task can be said to do among arbitrary others. -/
theorem meets_trivial {ε σ α : Type} (task : Async ε σ α) :
    task.Meets (fun _ _ => True) (fun _ _ => True) (fun _ => True) := by
  induction task with
  | done value => exact fun _ _ => trivial
  | turn act next ih =>
    exact ⟨fun _ _ => True, fun _ _ _ _ _ => ⟨trivial, trivial⟩,
      fun answer => ⟨fun _ _ _ _ => trivial, ih answer⟩⟩

/-- The result depends only on how the task goes on after its first part. -/
theorem Names.after {α : Type} {task : Async String Files α}
    {next : α → Async String Files UpgradeResult}
    (h : ∀ value, (next value).Meets (fun _ _ => True) (Names overrideName) (fun _ => True)) :
    (task >>= next).Meets (fun _ _ => True) (Names overrideName) (fun _ => True) :=
  (meets_trivial task).bind h

theorem Names.throw {error : String} :
    (Async.throw error : Async String Files UpgradeResult).Meets (fun _ _ => True)
      (Names overrideName) (fun _ => True) :=
  Async.Meets.throw

theorem Names.result {filesWritten hasConflicts : Bool} :
    (pure ⟨overrideName, filesWritten, hasConflicts⟩ : Async String Files UpgradeResult).Meets
      (fun _ _ => True) (Names overrideName) (fun _ => True) :=
  fun _ _ => rfl

namespace UpgradeStrategies

variable {overrideName base : String} {ctx : UpgradeContext Files}

theorem threeWayMerge_meets {baseVersion : Version} :
    (threeWayMerge libs overrideName base baseVersion ctx).Meets (fun _ _ => True)
      (Names overrideName) (fun _ => True) := by
  apply Names.after
  rintro (_ | ovrContent)
  · exact Names.throw
  apply Names.after
  intro ovrAsPatch
  split
  · exact Names.throw
  apply Names.after
  rintro ⟨_ | patchedFile, hasConflicts⟩
  · exact Names.result
  simp only
  split
  · exact Names.after fun _ => Names.result
  · exact Names.result

theorem copyFile_meets :
    (copyFile overrideName base ctx).Meets (fun _ _ => True) (Names overrideName)
      (fun _ => True) := by
  apply Names.after
  rintro (_ | newContent)
  · exact Names.throw
  · exact Names.after fun _ => Names.result

theorem copyDirectory_meets :
    (copyDirectory libs overrideName base ctx).Meets (fun _ _ => True) (Names overrideName)
      (fun _ => True) := by
  apply Names.after
  intro basePaths
  apply Names.after
  intro overridePaths
  exact Names.after fun _ => Names.result

end UpgradeStrategies

open UpgradeStrategies in
theorem Override.upgradeStrategy_meets (override : Override) (ctx : UpgradeContext Files) :
    (override.upgradeStrategy libs ctx).Meets (fun _ _ => True) (Names override.name)
      (fun _ => True) := by
  cases override with
  | platform overrideFile => exact Names.result
  | patch override | derived override => exact threeWayMerge_meets
  | copy override => exact copyFile_meets
  | directoryCopy override => exact copyDirectory_meets

theorem upgrade_spec {limit : ℕ} {turns : List ℕ} {overrides : List Override}
    {ctx : UpgradeContext Files} {files written : Files} {results : List UpgradeResult}
    (h : (Async.mapLimit limit turns (overrides.map (·.upgradeStrategy libs ctx))).run files =
      .ok (written, results)) :
    results.map UpgradeResult.overrideName = overrides.map Override.name := by
  have hTasks : (Async.mapLimit limit turns (overrides.map (·.upgradeStrategy libs ctx))).Meets
      (fun _ _ => True) _ _ :=
    Async.Meets.mapLimit_map (fun override _ => override.upgradeStrategy_meets ctx)
      (fun _ _ _ _ _ => trivial) (fun _ _ _ _ _ hNames => hNames)
  exact map_eq_map_of_forall₂ (hTasks.run (fun _ _ => trivial) h).1 fun _ _ hNames => hNames

namespace ManifestContext

variable {ctx : ManifestContext Files} {turns : Turns} {man : Serialized.Manifest} {files : Files}
  {upgraded : Upgraded Files} {errors : List ValidationError}

/-- The override had no validation error, or its upgrade says that it wrote files. -/
def UpToDate (errors : List ValidationError) (results : List UpgradeResult) (overrideName : String) :
    Prop :=
  (∀ err ∈ errors, err.overrideName ≠ overrideName) ∨
    ∃ result ∈ results, result.overrideName = overrideName ∧ result.filesWritten = true

structure Bookkeeping (libs : Libraries) (ctx : ManifestContext Files) (man : Serialized.Manifest)
    (errors : List ValidationError) (upgraded : Upgraded Files) : Prop where
  names : (upgraded.manifest.overrides.map (·.name libs)).Perm (man.overrides.map (·.name libs))
  /-- Each entry is of the same kind as before and about the same base. -/
  same : ∀ before ∈ man.overrides, ∀ after ∈ upgraded.manifest.overrides,
    after.name libs = before.name libs → after.kind = before.kind ∧
      (after.base? libs upgraded.manifest.baseVersion).map Base.path =
        (before.base? libs man.baseVersion).map Base.path
  updated : ∀ after ∈ upgraded.manifest.overrides,
    UpToDate errors upgraded.results (after.name libs) →
      ∀ base, after.base? libs upgraded.manifest.baseVersion = some base →
        base.version = ctx.reactNativeVersion ∧
          hashFileOrDirectory libs base.path ctx.reactRepo.toFileRepository none = .ok (some base.hash)
  untouched : ∀ before ∈ man.overrides, ∀ after ∈ upgraded.manifest.overrides,
    after.name libs = before.name libs → ¬UpToDate errors upgraded.results (before.name libs) →
      after.base? libs upgraded.manifest.baseVersion = before.base? libs man.baseVersion
  results : ∀ overrideName, overrideName ∈ upgraded.results.map UpgradeResult.overrideName ↔
    ⟨.outOfDate, overrideName⟩ ∈ errors
  /-- What is still out of date is what was so and was not written to. -/
  again : ∀ nextTurns nextFiles nextErrors,
    ctx.validateManifest libs nextTurns upgraded.manifest nextFiles = .ok nextErrors →
      ∀ overrideName, ⟨.outOfDate, overrideName⟩ ∈ nextErrors ↔
        ⟨.outOfDate, overrideName⟩ ∈ errors ∧
          ∀ result ∈ upgraded.results, result.overrideName = overrideName →
            result.filesWritten = false

variable {overrides : List Override} {overrideName : String} {override : Override}

theorem name_of_findOverride (h : findOverride libs overrides overrideName = some override) :
    override.name = libs.normalizePath overrideName :=
  of_decide_eq_true (List.find?_eq_some_iff_getElem.mp h).1

theorem findOverride_eq_some (hNodup : (overrides.map Override.name).Nodup) :
    findOverride libs overrides overrideName = some override ↔
      override ∈ overrides ∧ override.name = libs.normalizePath overrideName := by
  constructor
  · intro h
    exact ⟨List.mem_of_find?_eq_some h, name_of_findOverride h⟩
  · rintro ⟨hMem, hName⟩
    cases hFind : findOverride libs overrides overrideName with
    | none => exact absurd (decide_eq_true hName) (List.find?_eq_none.mp hFind override hMem)
    | some found =>
      rw [List.inj_on_of_nodup_map hNodup (List.mem_of_find?_eq_some hFind) hMem
        ((name_of_findOverride hFind).trans hName.symm)]

variable {manifest : Manifest}

theorem fromSerialized_ok (h : Manifest.fromSerialized libs man = .ok manifest) :
    List.Forall₂ (fun before override => deserializeOverride libs man.baseVersion before = .ok override)
        man.overrides manifest.overrides ∧
      (manifest.overrides.map Override.name).Nodup := by
  obtain ⟨overrides, hOverrides, h⟩ := bind_eq_ok.mp h
  split at h
  · rename_i hNodup
    obtain rfl := pure_eq_ok.mp h
    exact ⟨mapM_eq_ok hOverrides, hNodup⟩
  · cases h

theorem mem_upToDateOverrides (hLibs : libs.Lawful) {results : List UpgradeResult}
    (hNodup : (manifest.overrides.map Override.name).Nodup)
    (hNormal : ∀ override ∈ manifest.overrides, libs.normalizePath override.name = override.name)
    (hErrors : ∀ err ∈ errors,
      (∃ file, manifest.isMissing libs file = true ∧ err = ⟨.missingFromManifest, file⟩) ∨
        ∃ override ∈ manifest.overrides, err.overrideName = override.name)
    (hResults : ∀ result ∈ results, ∃ override ∈ manifest.overrides, result.overrideName = override.name)
    (hMem : override ∈ manifest.overrides) :
    override.name ∈ (upToDateOverrides libs manifest.overrides errors results).map libs.normalizePath ↔
      UpToDate errors results override.name := by
  have hOwn := hNormal override hMem
  have hFound : some override ∈ errors.map (findOverride libs manifest.overrides ·.overrideName) ↔
      ∃ err ∈ errors, err.overrideName = override.name := by
    simp only [List.mem_map, findOverride_eq_some hNodup]
    refine exists_congr fun err => and_congr_right fun hErr => ?_
    constructor
    · rintro ⟨-, hName⟩
      rcases hErrors err hErr with ⟨file, hMissing, rfl⟩ | ⟨other, hOther, hEq⟩
      · exact absurd hName (Manifest.ne_of_isMissing hLibs hMissing hMem)
      · rw [hName, hEq, hNormal other hOther]
    · intro hName
      exact ⟨hMem, by rw [hName, hOwn]⟩
  rw [upToDateOverrides, List.map_append, List.mem_append, UpToDate]
  refine or_congr ?_ ?_
  · simp only [List.mem_map, List.mem_filter, decide_eq_true_eq]
    constructor
    · rintro ⟨overrideName, ⟨other, ⟨hOther, hNot⟩, rfl⟩, hName⟩ err hErr hEq
      rw [hNormal other hOther] at hName
      obtain rfl := List.inj_on_of_nodup_map hNodup hOther hMem hName
      exact hNot (List.mem_map.mp (hFound.mpr ⟨err, hErr, hEq⟩))
    · intro hNone
      refine ⟨override.name, ⟨override, ⟨hMem, fun hSome => ?_⟩, rfl⟩, hOwn⟩
      obtain ⟨err, hErr, hEq⟩ := hFound.mp (List.mem_map.mpr hSome)
      exact hNone err hErr hEq
  · simp only [List.mem_map, List.mem_filter]
    constructor
    · rintro ⟨overrideName, ⟨result, ⟨hResult, hWritten⟩, rfl⟩, hName⟩
      obtain ⟨other, hOther, hEq⟩ := hResults result hResult
      rw [hEq, hNormal other hOther] at hName
      exact ⟨result, hResult, hEq.trans hName, hWritten⟩
    · rintro ⟨result, hResult, hName, hWritten⟩
      exact ⟨override.name, ⟨result, ⟨hResult, hWritten⟩, hName⟩, hOwn⟩

structure Phases (libs : Libraries) (ctx : ManifestContext Files) (man : Serialized.Manifest)
    (errors : List ValidationError) (upgraded : Upgraded Files) (manifest : Manifest)
    (overrides : List Override) : Prop where
  read : List.Forall₂ (fun before override =>
    deserializeOverride libs man.baseVersion before = .ok override) man.overrides manifest.overrides
  nodup : (manifest.overrides.map Override.name).Nodup
  outOfDate : ∀ overrideName, ⟨.outOfDate, overrideName⟩ ∈ errors ↔
    ∃ override ∈ manifest.overrides, override.name = overrideName ∧
      ∃ base, override.base? = some base ∧ base.OutOfDate libs ctx.reactRepo
  results : ∀ overrideName, overrideName ∈ upgraded.results.map UpgradeResult.overrideName ↔
    ⟨.outOfDate, overrideName⟩ ∈ errors
  marked : List.Forall₂ (fun override after =>
    (UpToDate errors upgraded.results override.name → override.Renews libs ctx.reactRepo after) ∧
      (¬UpToDate errors upgraded.results override.name → after = override))
    manifest.overrides overrides
  version : upgraded.manifest.baseVersion = some ctx.reactNativeVersion
  written : upgraded.manifest.overrides.Perm
    (overrides.map (·.serialize libs (some ctx.reactNativeVersion)))

theorem overrideOf_ok {err : ValidationError} (h : overrideOf libs overrides err = .ok override) :
    override ∈ overrides ∧ override.name = libs.normalizePath err.overrideName := by
  rw [overrideOf] at h
  split at h
  · rename_i found hFind
    obtain rfl := pure_eq_ok.mp h
    exact ⟨List.mem_of_find?_eq_some hFind, name_of_findOverride hFind⟩
  · cases h

/-- What is upgraded is what was found to be out of date. -/
theorem mem_outOfDateOverrides {outOfDateOverrides : List Override}
    (hNormal : ∀ err ∈ errors, err.type = .outOfDate →
      libs.normalizePath err.overrideName = err.overrideName)
    (h : (errors.filter (·.type = .outOfDate)).mapM (overrideOf libs overrides) =
      .ok outOfDateOverrides) (overrideName : String) :
    overrideName ∈ outOfDateOverrides.map Override.name ↔ ⟨.outOfDate, overrideName⟩ ∈ errors := by
  have hMatch := mapM_eq_ok h
  constructor
  · intro hMem
    obtain ⟨override, hOverride, rfl⟩ := List.mem_map.mp hMem
    obtain ⟨⟨type, name⟩, hErr, hOf⟩ := exists_left_of_mem hMatch hOverride
    obtain ⟨hErr, hType⟩ := List.mem_filter.mp hErr
    obtain rfl : type = .outOfDate := of_decide_eq_true hType
    rw [(overrideOf_ok hOf).2, hNormal _ hErr rfl]
    exact hErr
  · intro hErr
    have hFilter : ⟨.outOfDate, overrideName⟩ ∈ errors.filter (·.type = .outOfDate) :=
      List.mem_filter.mpr ⟨hErr, decide_eq_true rfl⟩
    obtain ⟨override, hOverride, hOf⟩ := exists_right_of_mem hMatch hFilter
    have hName : override.name = overrideName := (overrideOf_ok hOf).2.trans (hNormal _ hErr rfl)
    exact hName ▸ List.mem_map_of_mem hOverride

theorem upgradeOverrides_ok (hLibs : libs.Lawful)
    (hErrors : ctx.validateManifest libs turns.validation man files = .ok errors)
    (h : ctx.upgradeOverrides libs turns man files = .ok upgraded) :
    ∃ manifest overrides, Phases libs ctx man errors upgraded manifest overrides := by
  obtain ⟨manifest, hManifest, h⟩ := bind_eq_ok.mp h
  obtain ⟨found, hFound, h⟩ := bind_eq_ok.mp h
  obtain ⟨outOfDateOverrides, hOutOfDate, h⟩ := bind_eq_ok.mp h
  obtain ⟨⟨written, results⟩, hUpgrade, h⟩ := bind_eq_ok.mp h
  obtain ⟨⟨overrides, values⟩, hMarking, h⟩ := bind_eq_ok.mp h
  obtain rfl := pure_eq_ok.mp h
  have hSame : found = errors := by
    rw [validateManifest, hManifest] at hErrors
    exact Except.ok.inj (hFound.symm.trans hErrors)
  subst hSame
  obtain ⟨hRead, hNodup⟩ := fromSerialized_ok hManifest
  have hSound : ∀ override ∈ manifest.overrides, override.Sound libs ctx.reactNativeVersion := by
    intro override hMem
    obtain ⟨before, -, hBefore⟩ := exists_left_of_mem hRead hMem
    exact (deserializeOverride_ok hLibs ctx.reactNativeVersion hBefore).2.2.2
  have hOutOfDateErrors : ∀ overrideName, ⟨.outOfDate, overrideName⟩ ∈ found ↔
      ∃ override ∈ manifest.overrides, override.name = overrideName ∧
        ∃ base, override.base? = some base ∧ base.OutOfDate libs ctx.reactRepo :=
    fun _ => Manifest.outOfDate_mem_validate hFound
  have hNormal : ∀ err ∈ found, err.type = .outOfDate →
      libs.normalizePath err.overrideName = err.overrideName := by
    rintro ⟨type, overrideName⟩ hErr rfl
    obtain ⟨override, hMem, rfl, -⟩ := (hOutOfDateErrors overrideName).mp hErr
    exact (hSound override hMem).name
  have hResults : ∀ overrideName, overrideName ∈ results.map UpgradeResult.overrideName ↔
      ⟨.outOfDate, overrideName⟩ ∈ found := by
    intro overrideName
    rw [upgrade_spec hUpgrade]
    exact mem_outOfDateOverrides hNormal hOutOfDate overrideName
  have hSorted := List.perm_insertionSort
    (fun a b : UpgradeResult => libs.localeLe a.overrideName b.overrideName = true) results
  refine ⟨manifest, overrides, hRead, hNodup, hOutOfDateErrors, ?_, ?_, rfl, ?_⟩
  · intro overrideName
    rw [← hResults]
    exact (hSorted.map _).mem_iff
  · apply forall₂_imp_of_mem (marking_spec hSound hNodup hMarking)
    intro override hMem after _ hMarked
    have hUpToDate : override.name ∈
        (upToDateOverrides libs manifest.overrides found results).map libs.normalizePath ↔
          UpToDate found results override.name := by
      apply mem_upToDateOverrides hLibs hNodup (fun other hOther => (hSound other hOther).name) _ _ hMem
      · intro err hErr
        refine ((Manifest.mem_validate hFound).1 err hErr).imp_right ?_
        rintro ⟨other, hOther, hFinds⟩
        exact ⟨other, hOther, hFinds.overrideName⟩
      · intro result hResult
        have hErr := (hResults _).mp (List.mem_map_of_mem hResult)
        obtain ⟨other, hOther, hName, -⟩ := (hOutOfDateErrors _).mp hErr
        exact ⟨other, hOther, hName.symm⟩
    have hSame : UpToDate found results override.name ↔
        UpToDate found (results.insertionSort fun a b => libs.localeLe a.overrideName b.overrideName)
          override.name := by
      simp only [UpToDate, hSorted.mem_iff]
    rw [← hSame, ← hUpToDate]
    split at hMarked
    · rename_i hIn
      exact ⟨fun _ => hMarked, fun hOut => absurd hIn hOut⟩
    · rename_i hOut
      exact ⟨fun hIn => absurd hIn hOut, fun _ => hMarked⟩
  · exact (List.perm_insertionSort _ _).map _

namespace Phases

variable {manifest : Manifest} {overrides : List Override}

structure Entry (libs : Libraries) (ctx : ManifestContext Files) (man : Serialized.Manifest)
    (errors : List ValidationError) (upgraded : Upgraded Files) (before : Serialized.Override)
    (override renewed : Override) (after : Serialized.Override) : Prop where
  nameBefore : override.name = before.name libs
  kindBefore : override.kind = before.kind
  baseBefore : override.base? = before.base? libs man.baseVersion
  name : after.name libs = renewed.name
  kind : after.kind = renewed.kind
  base : after.base? libs upgraded.manifest.baseVersion = renewed.base?
  marked : UpToDate errors upgraded.results override.name →
    override.Renews libs ctx.reactRepo renewed
  unmarked : ¬UpToDate errors upgraded.results override.name → renewed = override

variable {before : Serialized.Override} {override : Override}

theorem Entry.names {after : Serialized.Override} {renewed : Override}
    (h : Entry libs ctx man errors upgraded before override renewed after) :
    after.name libs = before.name libs := by
  rw [h.name, ← h.nameBefore]
  by_cases hUpToDate : UpToDate errors upgraded.results override.name
  · exact (h.marked hUpToDate).name
  · rw [h.unmarked hUpToDate]

theorem entry (hLibs : libs.Lawful) (h : Phases libs ctx man errors upgraded manifest overrides)
    {renewed : Override} (hRead : deserializeOverride libs man.baseVersion before = .ok override)
    (hMarked : (UpToDate errors upgraded.results override.name →
        override.Renews libs ctx.reactRepo renewed) ∧
      (¬UpToDate errors upgraded.results override.name → renewed = override)) :
    Entry libs ctx man errors upgraded before override renewed
      (renewed.serialize libs (some ctx.reactNativeVersion)) := by
  obtain ⟨hName, hKind, hBase, hSound⟩ := deserializeOverride_ok hLibs ctx.reactNativeVersion hRead
  have hRenewed : renewed.Sound libs ctx.reactNativeVersion := by
    by_cases hUpToDate : UpToDate errors upgraded.results override.name
    · exact (hMarked.1 hUpToDate).sound
    · exact hMarked.2 hUpToDate ▸ hSound
  obtain ⟨hName', hKind', hBase'⟩ := serialize_eq hLibs hRenewed
  rw [← h.version] at hBase'
  exact ⟨hName, hKind, hBase, hName', hKind', h.version ▸ hBase', hMarked.1, hMarked.2⟩

theorem exists_entry_of_after (hLibs : libs.Lawful)
    (h : Phases libs ctx man errors upgraded manifest overrides) {after : Serialized.Override}
    (hAfter : after ∈ upgraded.manifest.overrides) :
    ∃ before ∈ man.overrides, ∃ override ∈ manifest.overrides, ∃ renewed,
      Entry libs ctx man errors upgraded before override renewed after := by
  obtain ⟨renewed, hRenewed, rfl⟩ := List.mem_map.mp (h.written.mem_iff.mp hAfter)
  obtain ⟨override, hOverride, hMarked⟩ := exists_left_of_mem h.marked hRenewed
  obtain ⟨before, hBefore, hRead⟩ := exists_left_of_mem h.read hOverride
  exact ⟨before, hBefore, override, hOverride, renewed, h.entry hLibs hRead hMarked⟩

theorem exists_entry (hLibs : libs.Lawful)
    (h : Phases libs ctx man errors upgraded manifest overrides)
    (hOverride : override ∈ manifest.overrides) :
    ∃ before ∈ man.overrides, ∃ renewed, ∃ after ∈ upgraded.manifest.overrides,
      Entry libs ctx man errors upgraded before override renewed after := by
  obtain ⟨renewed, hRenewed, hMarked⟩ := exists_right_of_mem h.marked hOverride
  obtain ⟨before, hBefore, hRead⟩ := exists_left_of_mem h.read hOverride
  exact ⟨before, hBefore, renewed, _, h.written.mem_iff.mpr (List.mem_map_of_mem hRenewed),
    h.entry hLibs hRead hMarked⟩

theorem names (hLibs : libs.Lawful) (h : Phases libs ctx man errors upgraded manifest overrides) :
    manifest.overrides.map Override.name = man.overrides.map (·.name libs) :=
  map_eq_map_of_forall₂ h.read fun _ _ hRead =>
    (deserializeOverride_ok hLibs ctx.reactNativeVersion hRead).1

theorem names_after (hLibs : libs.Lawful)
    (h : Phases libs ctx man errors upgraded manifest overrides) :
    (upgraded.manifest.overrides.map (·.name libs)).Perm (man.overrides.map (·.name libs)) := by
  have hMarked : List.Forall₂ (fun override renewed : Override =>
      (renewed.serialize libs (some ctx.reactNativeVersion)).name libs = override.name)
      manifest.overrides overrides := by
    apply forall₂_imp_of_mem h.marked
    intro override hOverride renewed _ hMarked
    obtain ⟨before, -, hRead⟩ := exists_left_of_mem h.read hOverride
    have hEntry := h.entry hLibs hRead hMarked
    exact hEntry.names.trans hEntry.nameBefore.symm
  have hWritten := h.written.map (·.name libs)
  rw [List.map_map] at hWritten
  rw [← h.names hLibs, ← map_eq_map_of_forall₂ hMarked fun _ _ hName => hName]
  exact hWritten

/-- Entries of the old manifest are told apart by their names. -/
theorem eq_of_name (hLibs : libs.Lawful)
    (h : Phases libs ctx man errors upgraded manifest overrides) {other : Serialized.Override}
    (hBefore : before ∈ man.overrides) (hOther : other ∈ man.overrides)
    (hName : before.name libs = other.name libs) : before = other :=
  List.inj_on_of_nodup_map (h.names hLibs ▸ h.nodup) hBefore hOther hName

end Phases

/-- What the manifest is like after an upgrade, whatever turns the tasks take. -/
theorem upgradeOverrides_bookkeeping (hLibs : libs.Lawful)
    (hErrors : ctx.validateManifest libs turns.validation man files = .ok errors)
    (h : ctx.upgradeOverrides libs turns man files = .ok upgraded) :
    Bookkeeping libs ctx man errors upgraded := by
  obtain ⟨manifest, overrides, hPhases⟩ := upgradeOverrides_ok hLibs hErrors h
  constructor
  · exact hPhases.names_after hLibs
  · intro before hBefore after hAfter hName
    obtain ⟨other, hOther, override, -, renewed, hEntry⟩ := hPhases.exists_entry_of_after hLibs hAfter
    obtain rfl := hPhases.eq_of_name hLibs hBefore hOther (hName.symm.trans hEntry.names)
    rw [hEntry.kind, hEntry.base, ← hEntry.kindBefore, ← hEntry.baseBefore]
    by_cases hUpToDate : UpToDate errors upgraded.results override.name
    · exact ⟨(hEntry.marked hUpToDate).kind, (hEntry.marked hUpToDate).path⟩
    · rw [hEntry.unmarked hUpToDate]
      exact ⟨rfl, rfl⟩
  · intro after hAfter hUpToDate base hBase
    obtain ⟨before, -, override, -, renewed, hEntry⟩ := hPhases.exists_entry_of_after hLibs hAfter
    rw [hEntry.names, ← hEntry.nameBefore] at hUpToDate
    rw [hEntry.base] at hBase
    exact (hEntry.marked hUpToDate).current base hBase
  · intro before hBefore after hAfter hName hNot
    obtain ⟨other, hOther, override, -, renewed, hEntry⟩ := hPhases.exists_entry_of_after hLibs hAfter
    obtain rfl := hPhases.eq_of_name hLibs hBefore hOther (hName.symm.trans hEntry.names)
    rw [← hEntry.nameBefore] at hNot
    rw [hEntry.base, hEntry.unmarked hNot, hEntry.baseBefore]
  · exact hPhases.results
  · intro nextTurns nextFiles nextErrors hNext overrideName
    obtain ⟨next, hManifest, hNext⟩ := bind_eq_ok.mp hNext
    obtain ⟨hRead, -⟩ := fromSerialized_ok hManifest
    rw [Manifest.outOfDate_mem_validate hNext, hPhases.outOfDate]
    constructor
    · rintro ⟨reread, hReread, rfl, base, hBase, hOutOfDate⟩
      obtain ⟨after, hAfter, hOk⟩ := exists_left_of_mem hRead hReread
      obtain ⟨hName, -, hSame, -⟩ := deserializeOverride_ok hLibs ctx.reactNativeVersion hOk
      obtain ⟨before, -, override, hOverride, renewed, hEntry⟩ :=
        hPhases.exists_entry_of_after hLibs hAfter
      rw [hSame, hEntry.base] at hBase
      have hNames : reread.name = override.name :=
        hName.trans (hEntry.names.trans hEntry.nameBefore.symm)
      have hNot : ¬UpToDate errors upgraded.results override.name := fun hUpToDate =>
        ((hEntry.marked hUpToDate).current base hBase).not_outOfDate hOutOfDate
      rw [hEntry.unmarked hNot] at hBase
      refine ⟨⟨override, hOverride, hNames.symm, base, hBase, hOutOfDate⟩, ?_⟩
      intro result hResult hResultName
      by_contra hWritten
      exact hNot (.inr ⟨result, hResult, hResultName.trans hNames, Bool.not_eq_false _ ▸ hWritten⟩)
    · rintro ⟨⟨override, hOverride, rfl, base, hBase, hOutOfDate⟩, hResults⟩
      have hNot : ¬UpToDate errors upgraded.results override.name := by
        rintro (hNone | ⟨result, hResult, hName, hWritten⟩)
        · have hErr := (hPhases.outOfDate override.name).mpr
            ⟨override, hOverride, rfl, base, hBase, hOutOfDate⟩
          exact hNone _ hErr rfl
        · rw [hResults result hResult hName] at hWritten
          cases hWritten
      obtain ⟨before, -, renewed, after, hAfter, hEntry⟩ := hPhases.exists_entry hLibs hOverride
      obtain ⟨reread, hReread, hOk⟩ := exists_right_of_mem hRead hAfter
      obtain ⟨hName, -, hSame, -⟩ := deserializeOverride_ok hLibs ctx.reactNativeVersion hOk
      rw [hEntry.base, hEntry.unmarked hNot, hBase] at hSame
      exact ⟨reread, hReread, hName.trans (hEntry.names.trans hEntry.nameBefore.symm), base, hSame,
        hOutOfDate⟩

end ManifestContext
end PlatformOverride

namespace PlatformOverride.ManifestContext

open GitReactFileRepository (Version Buffer Stat)

namespace Sample

/-- Relative paths without `.` and `..`, and the SHA-1 of the contents that occur: the base of `d`
has changed to what `d` is already, and `c` is not the copy that it should be. -/
def libs : Libraries where
  toUnix := id
  normalize := id
  relative a b := if a = b then "" else if b = a ++ "/f" then "f" else "../" ++ b
  join a b := a ++ "/" ++ b
  isAbsolute _ := false
  split path := if path = "" then [""] else ["..", path]
  toUtf8 _ := none
  digest fed :=
    if fed = [.inr [0x31]] then "356a192b7913b04c54574d18c28d46e6395428ab"
    else if fed = [.inr [0x32]] then "da4b9237bacccdf19c0760cab7aec4a8359010b0"
    else if fed = [.inr [0x31], .inl "f"] then "bd3890d2a3e58ad32d304b28c6b00ba03dad5e91"
    else ""
  localeLe a b := a = "c" || b = "d"
  sortLe a b := a = b

def base : FileRepository where
  listFiles globs := .ok (if globs = some ["b/**"] then ["b/f"] else [])
  readFile path := .ok (if path = "b/f" ∨ path = "x" then some [0x31] else none)
  stat path := .ok
    (if path = "b" then .directory else if path = "b/f" ∨ path = "x" then .file else .none)

structure Files where
  c : Buffer
  f : Buffer
  writes : ℕ
  deriving DecidableEq

def files : Files := ⟨[0x32], [0x31], 0⟩

def overrideRepo : WritableFileRepository Files where
  read files :=
    { listFiles := fun globs => .ok (if globs = some ["d/**"] then ["d/f"] else [])
      readFile := fun path => .ok
        (if path = "c" then some files.c else if path = "d/f" then some files.f else none)
      stat := fun path => .ok
        (if path = "d" then .directory else if path = "d/f" ∨ path = "c" then .file else .none) }
  writeFile path content files :=
    match content with
    | .inr bytes =>
      if path = "c" then .ok { files with c := bytes, writes := files.writes + 1 }
      else .ok { files with f := bytes, writes := files.writes + 1 }
    | .inl _ => .error "not used"
  deleteFile _ _ := .error "not used"

def ctx : ManifestContext Files where
  overrideRepo := overrideRepo
  gitReactRepo := ⟨fun _ => base, fun _ _ _ => .ok [], fun _ _ _ => .ok (none, false)⟩
  reactNativeVersion := "2"
  allowConflicts := false

def man : Serialized.Manifest where
  includePatterns := some []
  excludePatterns := none
  baseVersion := some "1"
  overrides :=
    [.directoryCopy ⟨"d", "b", none, "6d344bd26b84333d0984a3794601d69aa99eb1d3", none⟩,
      .copy ⟨"c", "x", some "2", "356a192b7913b04c54574d18c28d46e6395428ab", none⟩]

def upgraded : Upgraded Files where
  manifest :=
    { includePatterns := some []
      excludePatterns := none
      baseVersion := some "2"
      overrides :=
        [.copy ⟨"c", "x", none, "356a192b7913b04c54574d18c28d46e6395428ab", none⟩,
          .directoryCopy ⟨"d", "b", none, "bd3890d2a3e58ad32d304b28c6b00ba03dad5e91", none⟩] }
  results := [⟨"d", true, false⟩]
  files := files

theorem lawful : libs.Lawful := ⟨fun _ => rfl, fun _ => rfl, fun p => by simp [libs]⟩

def turns : Turns := ⟨[2, 0], [0], fun _ => [0], []⟩

def errors : List ValidationError := [⟨.overrideDifferentFromBase, "c"⟩, ⟨.outOfDate, "d"⟩]

end Sample

/-- Nothing is written for `d`, and still it is not out of date any more; `c` has an error and no
upgrade, and its version is the new one, as before. -/
theorem marked_without_writing :
    Sample.ctx.validateManifest Sample.libs Sample.turns.validation Sample.man Sample.files =
        .ok Sample.errors ∧
      Sample.ctx.upgradeOverrides Sample.libs Sample.turns Sample.man Sample.files =
        .ok Sample.upgraded ∧
      Sample.upgraded.files = Sample.files ∧
      Sample.ctx.validateManifest Sample.libs [] Sample.upgraded.manifest Sample.files =
        .ok [⟨.overrideDifferentFromBase, "c"⟩] ∧
      Sample.upgraded.manifest.overrides.map
          (fun after => (after.base? Sample.libs Sample.upgraded.manifest.baseVersion).map Base.version) =
        [some "2", some "2"] :=
  ⟨rfl, rfl, rfl, rfl, rfl⟩

theorem sample_bookkeeping :
    Bookkeeping Sample.libs Sample.ctx Sample.man Sample.errors Sample.upgraded :=
  upgradeOverrides_bookkeeping Sample.lawful (show Sample.ctx.validateManifest Sample.libs
    Sample.turns.validation Sample.man Sample.files = .ok Sample.errors from rfl) rfl

end PlatformOverride.ManifestContext
