import ReactNativeWindows.Numbers.Double
import ReactNativeWindows.PlatformOverride.FileRepository

/-! Overrides with their strategies to validate and to upgrade them, and their serialized forms. -/
namespace PlatformOverride

open Concurrency
open Numbers (Double)
open GitReactFileRepository (Version Buffer Stat)

namespace Serialized

structure FileOverride where
  file : String
  baseFile : String
  baseVersion : Option Version
  baseHash : String
  issue : Option Double
  deriving DecidableEq

structure DirectoryCopyOverride where
  directory : String
  baseDirectory : String
  baseVersion : Option Version
  baseHash : String
  issue : Option Double
  deriving DecidableEq

inductive Override where
  | platform (file : String)
  | patch (override : FileOverride)
  | derived (override : FileOverride)
  | copy (override : FileOverride)
  | directoryCopy (override : DirectoryCopyOverride)
  deriving DecidableEq

structure Manifest where
  includePatterns : Option (List String)
  excludePatterns : Option (List String)
  baseVersion : Option Version
  overrides : List Override
  deriving DecidableEq

end Serialized

inductive ErrorType where
  | missingFromManifest | overrideNotFound | baseNotFound | expectedFile | expectedDirectory
  | outOfDate | overrideDifferentFromBase | overrideSameAsBase
  deriving DecidableEq

structure ValidationError where
  type : ErrorType
  overrideName : String
  deriving DecidableEq

abbrev ValidationStrategy := FileRepository → ReactFileRepository → Except String (List ValidationError)

variable (libs : Libraries)

namespace ValidationStrategies

def overrideFileExists (overrideName : String) : ValidationStrategy := fun overrideRepo _ => do
  match ← overrideRepo.stat overrideName with
  | .file => return []
  | .directory => return [⟨.expectedFile, overrideName⟩]
  | .none => return [⟨.overrideNotFound, overrideName⟩]

def baseFileExists (overrideName baseFile : String) : ValidationStrategy := fun _ reactRepo => do
  match ← reactRepo.stat baseFile with
  | .file => return []
  | .directory => return [⟨.expectedFile, overrideName⟩]
  | .none => return [⟨.baseNotFound, overrideName⟩]

def overrideDirectoryExists (overrideName : String) : ValidationStrategy := fun overrideRepo _ => do
  match ← overrideRepo.stat overrideName with
  | .file => return [⟨.expectedDirectory, overrideName⟩]
  | .directory => return []
  | .none => return [⟨.overrideNotFound, overrideName⟩]

def baseDirectoryExists (overrideName baseDirectory : String) : ValidationStrategy :=
  fun _ reactRepo => do
    match ← reactRepo.stat baseDirectory with
    | .file => return [⟨.expectedDirectory, overrideName⟩]
    | .directory => return []
    | .none => return [⟨.baseNotFound, overrideName⟩]

def baseUpToDate (overrideName base expectedBaseHash : String) : ValidationStrategy :=
  fun _ reactRepo => do
    match ← hashFileOrDirectory libs base reactRepo.toFileRepository none with
    | none => return []
    | some hash =>
      if hash = "" then return []
      else return if hash = expectedBaseHash then [] else [⟨.outOfDate, overrideName⟩]

def bothHashes (overrideName base : String) (insensitivity : Option Insensitivity)
    (overrideRepo : FileRepository) (reactRepo : ReactFileRepository) :
    Except String (Option (Option String × Option String)) := do
  if (← overrideRepo.stat overrideName) = .none then return none
  if (← reactRepo.stat base) = .none then return none
  let overrideHash ← hashFileOrDirectory libs overrideName overrideRepo insensitivity
  let baseHash ← hashFileOrDirectory libs base reactRepo.toFileRepository insensitivity
  return some (overrideHash, baseHash)

def overrideCopyOfBase (overrideName base : String) : ValidationStrategy :=
  fun overrideRepo reactRepo => do
    match ← bothHashes libs overrideName base none overrideRepo reactRepo with
    | none => return []
    | some (overrideHash, baseHash) =>
      return if overrideHash = baseHash then [] else [⟨.overrideDifferentFromBase, overrideName⟩]

def overrideDifferentFromBase (overrideName base : String) : ValidationStrategy :=
  fun overrideRepo reactRepo => do
    match ← bothHashes libs overrideName base (some .whitespace) overrideRepo reactRepo with
    | none => return []
    | some (overrideHash, baseHash) =>
      return if overrideHash = baseHash then [⟨.overrideSameAsBase, overrideName⟩] else []

end ValidationStrategies

structure UpgradeResult where
  overrideName : String
  filesWritten : Bool
  hasConflicts : Bool
  deriving DecidableEq

variable {Files : Type}

/-- What an upgrade works on, and the turns that the files of a copied directory take. -/
structure UpgradeContext (Files : Type) where
  gitReactRepo : VersionedRepository
  overrideRepo : WritableFileRepository Files
  newVersion : Version
  allowConflicts : Bool
  turns : String → List ℕ

abbrev UpgradeStrategy (Files : Type) := UpgradeContext Files → Async String Files UpgradeResult

namespace UpgradeStrategies

def assumeUpToDate (overrideName : String) : UpgradeStrategy Files := fun _ =>
  .done ⟨overrideName, false, false⟩

def prettyPatched (hasConflicts : Bool) (patchedFile : Buffer) : Content :=
  match hasConflicts, libs.toUtf8 patchedFile with
  | true, some text =>
    .inl ((text.replace "<<<<<<< ours" "<<<<<<< Upstream").replace
      ">>>>>>> theirs" ">>>>>>> Override")
  | _, _ => .inr patchedFile

def threeWayMerge (overrideName baseFile : String) (baseVersion : Version) :
    UpgradeStrategy Files := fun ctx => do
  match ← Async.read fun files => (ctx.overrideRepo.read files).readFile overrideName with
  | none => Async.throw ("Could not read " ++ overrideName)
  | some ovrContent =>
    let ovrAsPatch ← Async.read fun _ =>
      ctx.gitReactRepo.generatePatch baseFile baseVersion ovrContent
    if ovrAsPatch = [] then
      Async.throw ("Generated patch for " ++ overrideName ++ " was empty")
    else
      let patched ← Async.read fun _ =>
        ctx.gitReactRepo.getPatchedFile baseFile ctx.newVersion ovrAsPatch
      match patched with
      | (none, hasConflicts) => return ⟨overrideName, false, hasConflicts⟩
      | (some patchedFile, hasConflicts) =>
        if !hasConflicts || ctx.allowConflicts then
          Async.write (ctx.overrideRepo.writeFile overrideName
            (prettyPatched libs hasConflicts patchedFile))
          return ⟨overrideName, true, hasConflicts⟩
        else return ⟨overrideName, false, hasConflicts⟩

def copyFile (overrideName baseFile : String) : UpgradeStrategy Files := fun ctx => do
  match ← Async.read fun _ => (ctx.gitReactRepo.version ctx.newVersion).readFile baseFile with
  | none => Async.throw ("Could not read " ++ baseFile ++ "@" ++ ctx.newVersion)
  | some newContent =>
    Async.write (ctx.overrideRepo.writeFile overrideName (.inr newContent))
    return ⟨overrideName, true, false⟩

/-- Files of the same content but different line endings are not replaced. -/
def copyTask (overrideDirectory baseDirectory : String) (ctx : UpgradeContext Files) (f : String) :
    Async String Files Unit := do
  let basePath := libs.join baseDirectory f
  let overridePath := libs.join overrideDirectory f
  let baseRepo := ctx.gitReactRepo.version ctx.newVersion
  let baseHash ← Async.read fun _ => hashFileOrDirectory libs basePath baseRepo none
  let overrideHash ← Async.read fun files =>
    hashFileOrDirectory libs overridePath (ctx.overrideRepo.read files) none
  if baseHash = overrideHash then return ()
  else
    match ← Async.read fun _ => baseRepo.readFile basePath with
    | none => Async.throw "The data argument must be of type string or a Buffer. Received null"
    | some content => Async.write (ctx.overrideRepo.writeFile overridePath (.inr content))

def copyDirectory (overrideDirectory baseDirectory : String) : UpgradeStrategy Files := fun ctx => do
  let basePaths ← Async.read fun _ =>
    (ctx.gitReactRepo.version ctx.newVersion).listFiles (some [baseDirectory ++ "/**"])
  let baseFiles := basePaths.map (libs.relative baseDirectory)
  let overridePaths ← Async.read fun files =>
    (ctx.overrideRepo.read files).listFiles (some [overrideDirectory ++ "/**"])
  let overrideFiles := overridePaths.map (libs.relative overrideDirectory)
  let deleteTasks := (overrideFiles.filter (· ∉ baseFiles)).map fun f =>
    Async.write (ctx.overrideRepo.deleteFile (libs.join overrideDirectory f))
  let copyTasks := baseFiles.map (copyTask libs overrideDirectory baseDirectory ctx)
  let tasks := deleteTasks ++ copyTasks
  let _ ← Async.mapLimit tasks.length (ctx.turns overrideDirectory) tasks
  return ⟨overrideDirectory, true, false⟩

end UpgradeStrategies

structure BaseFileOverride where
  overrideFile : String
  baseFile : String
  baseVersion : Version
  baseHash : String
  issueNumber : Option Double
  deriving DecidableEq

structure DirectoryCopyOverride where
  directory : String
  baseDirectory : String
  baseVersion : Version
  baseHash : String
  issue : Option Double
  deriving DecidableEq

inductive Override where
  | platform (overrideFile : String)
  | patch (override : BaseFileOverride)
  | derived (override : BaseFileOverride)
  | copy (override : BaseFileOverride)
  | directoryCopy (override : DirectoryCopyOverride)
  deriving DecidableEq

namespace BaseFileOverride

def new (file baseFile : String) (baseVersion : Version) (baseHash : String) (issue : Option Double) :
    BaseFileOverride :=
  ⟨libs.normalizePath file, libs.normalizePath baseFile, baseVersion, baseHash, issue⟩

def serializeBase (override : BaseFileOverride) (defaultBaseVersion : Option Version) :
    Serialized.FileOverride where
  file := libs.unixPath override.overrideFile
  baseFile := libs.unixPath override.baseFile
  baseVersion := if defaultBaseVersion = some override.baseVersion then none else some override.baseVersion
  baseHash := override.baseHash
  issue := override.issueNumber

def validationStrategies (override : BaseFileOverride) : List ValidationStrategy :=
  [ValidationStrategies.baseFileExists override.overrideFile override.baseFile,
    ValidationStrategies.overrideFileExists override.overrideFile,
    ValidationStrategies.baseUpToDate libs override.overrideFile override.baseFile override.baseHash]

end BaseFileOverride

namespace DirectoryCopyOverride

def new (directory baseDirectory : String) (baseVersion : Version) (baseHash : String)
    (issue : Option Double) : DirectoryCopyOverride :=
  ⟨libs.normalizePath directory, libs.normalizePath baseDirectory, baseVersion, baseHash, issue⟩

end DirectoryCopyOverride

namespace Override

def name : Override → String
  | platform overrideFile => overrideFile
  | patch override | derived override | copy override => override.overrideFile
  | directoryCopy override => override.directory

def includesFile (filename : String) : Override → Bool
  | platform overrideFile => libs.normalizePath filename = overrideFile
  | patch override | derived override | copy override =>
    libs.normalizePath filename = override.overrideFile
  | directoryCopy override =>
    (libs.split (libs.relative override.directory (libs.normalizePath filename))).head? ≠ some ".."

def serialize (defaultBaseVersion : Option Version) : Override → Serialized.Override
  | platform overrideFile => .platform (libs.unixPath overrideFile)
  | patch override => .patch (override.serializeBase libs defaultBaseVersion)
  | derived override => .derived (override.serializeBase libs defaultBaseVersion)
  | copy override => .copy (override.serializeBase libs defaultBaseVersion)
  | directoryCopy override =>
    .directoryCopy
      { directory := libs.unixPath override.directory
        baseDirectory := libs.unixPath override.baseDirectory
        baseVersion :=
          if defaultBaseVersion = some override.baseVersion then none
          else some override.baseVersion
        baseHash := override.baseHash
        issue := override.issue }

def upgradeStrategy : Override → UpgradeStrategy Files
  | platform overrideFile => UpgradeStrategies.assumeUpToDate overrideFile
  | patch override | derived override =>
    UpgradeStrategies.threeWayMerge libs override.overrideFile override.baseFile override.baseVersion
  | copy override => UpgradeStrategies.copyFile override.overrideFile override.baseFile
  | directoryCopy override =>
    UpgradeStrategies.copyDirectory libs override.directory override.baseDirectory

def validationStrategies : Override → List ValidationStrategy
  | platform overrideFile => [ValidationStrategies.overrideFileExists overrideFile]
  | patch override | derived override =>
    override.validationStrategies libs ++
      [ValidationStrategies.overrideDifferentFromBase libs override.overrideFile override.baseFile]
  | copy override =>
    override.validationStrategies libs ++
      [ValidationStrategies.overrideCopyOfBase libs override.overrideFile override.baseFile]
  | directoryCopy override =>
    [ValidationStrategies.overrideDirectoryExists override.directory,
      ValidationStrategies.baseDirectoryExists override.directory override.baseDirectory,
      ValidationStrategies.baseUpToDate libs override.directory override.baseDirectory
        override.baseHash,
      ValidationStrategies.overrideCopyOfBase libs override.directory override.baseDirectory]

end Override

/-- An empty version counts as none. The message goes on with the override itself. -/
def mergeBaseVersion (baseVersion defaultBaseVersion : Option Version) : Except String Version :=
  match (baseVersion.filter (· ≠ "")).or (defaultBaseVersion.filter (· ≠ "")) with
  | some version => .ok version
  | none => .error
      "The following override should declare a baseVersion if the manifest does not provide a default"

def BaseFileOverride.fromSerialized (defaultBaseVersion : Option Version)
    (serialized : Serialized.FileOverride) : Except String BaseFileOverride := do
  let baseVersion ← mergeBaseVersion serialized.baseVersion defaultBaseVersion
  return .new libs serialized.file serialized.baseFile baseVersion serialized.baseHash serialized.issue

def DirectoryCopyOverride.fromSerialized (defaultBaseVersion : Option Version)
    (serialized : Serialized.DirectoryCopyOverride) : Except String DirectoryCopyOverride := do
  let baseVersion ← mergeBaseVersion serialized.baseVersion defaultBaseVersion
  return .new libs serialized.directory serialized.baseDirectory baseVersion serialized.baseHash
    serialized.issue

def deserializeOverride (defaultBaseVersion : Option Version) :
    Serialized.Override → Except String Override
  | .platform file => return .platform (libs.normalizePath file)
  | .copy serialized =>
    return .copy (← BaseFileOverride.fromSerialized libs defaultBaseVersion serialized)
  | .directoryCopy serialized =>
    return .directoryCopy
      (← DirectoryCopyOverride.fromSerialized libs defaultBaseVersion serialized)
  | .derived serialized =>
    return .derived (← BaseFileOverride.fromSerialized libs defaultBaseVersion serialized)
  | .patch serialized =>
    return .patch (← BaseFileOverride.fromSerialized libs defaultBaseVersion serialized)

structure OverrideFactory where
  reactRepo : ReactFileRepository
  overrideRepo : FileRepository

namespace OverrideFactory

variable (factory : OverrideFactory)

def checkOverrideExists (overridePath : String) (type : Stat) : Except String Unit := do
  if libs.isAbsolute overridePath then
    throw ("Expected override path to be repo relative. Got '" ++ overridePath ++ "'")
  if (← factory.overrideRepo.stat overridePath) ≠ type then
    throw ("Could not find " ++ (if type = .file then "file" else "directory") ++
      " at repo relative path '" ++ overridePath ++ "'")

def getBaseInfo (basePath : String) : Except String (Version × String) := do
  if libs.isAbsolute basePath then
    throw ("Expected base path to be repo relative. Got '" ++ basePath ++ "'")
  if (← factory.reactRepo.stat basePath) = .none then
    throw ("Could not find base file/directory '" ++ basePath ++ "'")
  match ← hashFileOrDirectory libs basePath factory.reactRepo.toFileRepository none with
  | some baseHash => return (factory.reactRepo.getVersion, baseHash)
  -- Not reached, as the base exists.
  | none => throw ("No hash of '" ++ basePath ++ "'")

def createPlatformOverride (file : String) : Except String Override := do
  factory.checkOverrideExists libs file .file
  return .platform (libs.normalizePath file)

/-- What `createCopyOverride`, `createDerivedOverride` and `createPatchOverride` have in common. -/
def createBaseFileOverride (file baseFile : String) (issue : Option Double) :
    Except String BaseFileOverride := do
  factory.checkOverrideExists libs file .file
  let (baseVersion, baseHash) ← factory.getBaseInfo libs baseFile
  return .new libs file baseFile baseVersion baseHash issue

def createCopyOverride (file baseFile : String) (issue : Option Double) : Except String Override :=
  return .copy (← factory.createBaseFileOverride libs file baseFile issue)

def createDerivedOverride (file baseFile : String) (issue : Option Double) : Except String Override :=
  return .derived (← factory.createBaseFileOverride libs file baseFile issue)

def createPatchOverride (file baseFile : String) (issue : Option Double) : Except String Override :=
  return .patch (← factory.createBaseFileOverride libs file baseFile issue)

def createDirectoryCopyOverride (directory baseDirectory : String) (issue : Option Double) :
    Except String Override := do
  factory.checkOverrideExists libs directory .directory
  let (baseVersion, baseHash) ← factory.getBaseInfo libs baseDirectory
  return .directoryCopy (.new libs directory baseDirectory baseVersion baseHash issue)

end OverrideFactory

/-- Whether a number is neither zero nor NaN. -/
def isTruthy : Double → Bool
  | .finite value _ => value ≠ 0
  | .infinity _ => true
  | .nan => false

/-- A derived override forgets an issue that is zero or NaN. -/
def Override.createUpdated (factory : OverrideFactory) : Override → Except String Override
  | platform overrideFile => factory.createPlatformOverride libs overrideFile
  | copy override =>
    factory.createCopyOverride libs override.overrideFile override.baseFile override.issueNumber
  | derived override =>
    factory.createDerivedOverride libs override.overrideFile override.baseFile
      (override.issueNumber.filter isTruthy)
  | patch override =>
    factory.createPatchOverride libs override.overrideFile override.baseFile override.issueNumber
  | directoryCopy override =>
    factory.createDirectoryCopyOverride libs override.directory override.baseDirectory override.issue

end PlatformOverride
