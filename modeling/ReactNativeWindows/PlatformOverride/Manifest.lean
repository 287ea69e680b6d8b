import ReactNativeWindows.PlatformOverride.Override

/-! Manifests of overrides, and the upgrade of all that are out of date. -/
namespace PlatformOverride

open Concurrency
open GitReactFileRepository (Version)

structure Manifest where
  includePatterns : Option (List String)
  excludePatterns : Option (List String)
  baseVersion : Option Version
  overrides : List Override
  deriving DecidableEq

variable (libs : Libraries) {Files : Type}

namespace Manifest

def fromSerialized (man : Serialized.Manifest) : Except String Manifest := do
  let overrides ← man.overrides.mapM (deserializeOverride libs man.baseVersion)
  if (overrides.map Override.name).Nodup then
    return ⟨man.includePatterns, man.excludePatterns, man.baseVersion, overrides⟩
  else throw "Cannot construct a manifest with duplicate overrides"

variable (manifest : Manifest)

def globs : List String :=
  manifest.includePatterns.getD ["**"] ++ (manifest.excludePatterns.getD []).map ("!" ++ ·)

def isMissing (file : String) : Bool :=
  file ≠ "overrides.json" && "..".toList.isPrefixOf (libs.relative "node_modules" file).toList &&
    !manifest.overrides.any (·.includesFile libs file)

/-- Adds what a strategy finds to the errors that all of them share. -/
def validationTask (overrideRepo : FileRepository) (reactRepo : ReactFileRepository)
    (strategy : ValidationStrategy) : Async String (List ValidationError) Unit :=
  Async.write fun errors => return errors ++ (← strategy overrideRepo reactRepo)

/-- The tasks that validate the overrides take their turns as `turns` says. -/
def validate (overrideRepo : FileRepository) (reactRepo : ReactFileRepository) (turns : List ℕ) :
    Except String (List ValidationError) := do
  let overrideFiles ← overrideRepo.listFiles (some manifest.globs)
  let missingFromManifest := overrideFiles.filter (manifest.isMissing libs)
  let validationTasks := manifest.overrides.flatMap (·.validationStrategies libs)
  let tasks := validationTasks.map (validationTask overrideRepo reactRepo)
  let (errors, _) ← (Async.mapLimit 30 turns tasks).run
    (missingFromManifest.map fun missingFile => ⟨.missingFromManifest, missingFile⟩)
  return errors.insertionSort fun a b => libs.localeLe a.overrideName b.overrideName

def serialize : Serialized.Manifest where
  includePatterns := manifest.includePatterns
  excludePatterns := manifest.excludePatterns
  baseVersion := manifest.baseVersion
  overrides :=
    (manifest.overrides.insertionSort fun a b => libs.localeLe a.name b.name).map
      (·.serialize libs manifest.baseVersion)

end Manifest

def findOverrideIndex (overrides : List Override) (overrideName : String) : Option ℕ :=
  overrides.findIdx? fun override => override.name = libs.normalizePath overrideName

def findOverride (overrides : List Override) (overrideName : String) : Option Override :=
  overrides.find? fun override => override.name = libs.normalizePath overrideName

/-- Makes the up-to-date form of an override, and in a later turn assigns it to the object that was
found. -/
def markUpToDate (factory : OverrideFactory) (overrideName : String) :
    Async String (List Override) Unit := do
  let (i, upToDateOverride) ← Async.read fun overrides =>
    match findOverrideIndex libs overrides overrideName, findOverride libs overrides overrideName with
    | some i, some override => return (i, ← override.createUpdated libs factory)
    | _, _ => .error ("Override '" ++ overrideName ++ "' does not exist")
  Async.write fun overrides => return overrides.set i upToDateOverride

def MAX_CONCURRENT_TASKS : ℕ := 30

structure ManifestContext (Files : Type) where
  overrideRepo : WritableFileRepository Files
  gitReactRepo : VersionedRepository
  reactNativeVersion : Version
  allowConflicts : Bool

/-- Which task takes the next turn, in each of the loops over tasks. -/
structure Turns where
  validation : List ℕ
  upgrade : List ℕ
  copying : String → List ℕ
  marking : List ℕ

structure Upgraded (Files : Type) where
  manifest : Serialized.Manifest
  results : List UpgradeResult
  files : Files
  deriving DecidableEq

namespace ManifestContext

variable (ctx : ManifestContext Files)

def reactRepo : ReactFileRepository := bindVersion ctx.gitReactRepo ctx.reactNativeVersion

def upgradeContext (turns : Turns) : UpgradeContext Files :=
  ⟨ctx.gitReactRepo, ctx.overrideRepo, ctx.reactNativeVersion, ctx.allowConflicts, turns.copying⟩

def validateManifest (turns : List ℕ) (man : Serialized.Manifest) (files : Files) :
    Except String (List ValidationError) := do
  let manifest ← Manifest.fromSerialized libs man
  manifest.validate libs (ctx.overrideRepo.read files) ctx.reactRepo turns

def overrideOf (overrides : List Override) (err : ValidationError) : Except String Override :=
  match findOverride libs overrides err.overrideName with
  | some override => return override
  | none => throw "Cannot read properties of null (reading 'upgradeStrategy')"

def upToDateOverrides (overrides : List Override) (validationErrors : List ValidationError)
    (upgradeResults : List UpgradeResult) : List String :=
  let withErrors := validationErrors.map fun err => findOverride libs overrides err.overrideName
  (overrides.filter fun override => some override ∉ withErrors).map Override.name ++
    (upgradeResults.filter UpgradeResult.filesWritten).map UpgradeResult.overrideName

def upgradeOverrides (turns : Turns) (man : Serialized.Manifest) (files : Files) :
    Except String (Upgraded Files) := do
  let manifest ← Manifest.fromSerialized libs man
  let validationErrors ←
    manifest.validate libs (ctx.overrideRepo.read files) ctx.reactRepo turns.validation
  let outOfDateOverrides ← (validationErrors.filter (·.type = .outOfDate)).mapM
    (overrideOf libs manifest.overrides)
  let upgradeTasks := outOfDateOverrides.map fun override =>
    override.upgradeStrategy libs (ctx.upgradeContext turns)
  let (written, upgradeResults) ←
    (Async.mapLimit MAX_CONCURRENT_TASKS turns.upgrade upgradeTasks).run files
  let upToDate := upToDateOverrides libs manifest.overrides validationErrors upgradeResults
  let factory : OverrideFactory := ⟨ctx.reactRepo, ctx.overrideRepo.read written⟩
  let (overrides, _) ← (Async.mapLimit MAX_CONCURRENT_TASKS turns.marking
    (upToDate.map (markUpToDate libs factory))).run manifest.overrides
  let upgraded : Manifest :=
    { manifest with overrides := overrides, baseVersion := some ctx.reactNativeVersion }
  return ⟨upgraded.serialize libs,
    upgradeResults.insertionSort fun a b => libs.localeLe a.overrideName b.overrideName, written⟩

end ManifestContext
end PlatformOverride
