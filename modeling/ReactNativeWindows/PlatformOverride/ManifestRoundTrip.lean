import ReactNativeWindows.PlatformOverride.Effective
import ReactNativeWindows.PlatformOverride.ParseManifest

/-! A manifest that is written to JSON and read again. -/
namespace PlatformOverride

open Control
open Numbers (Double)
open GitReactFileRepository (Version)

/-- Whether JSON has the number. -/
def isFinite : Double → Bool
  | .finite _ _ => true
  | .infinity _ | .nan => false

namespace Serialized

def Override.issue? : Override → Option Double
  | platform _ => none
  | patch override | derived override | copy override => override.issue
  | directoryCopy override => override.issue

/-- Whether the issue of an override, if it has one, is not written as null. -/
def Override.isWritable (override : Override) : Bool := override.issue?.all isFinite

theorem FileOverride.ofJson_toJson (type : String) {override : FileOverride}
    (h : override.issue.all isFinite) : FileOverride.ofJson (override.toJson type) = .ok override := by
  obtain ⟨file, baseFile, baseVersion, baseHash, issue⟩ := override
  rcases baseVersion with _ | version <;> rcases issue with _ | _ | _ | _ <;> first | rfl | cases h

theorem DirectoryCopyOverride.ofJson_toJson {override : DirectoryCopyOverride}
    (h : (Override.directoryCopy override).isWritable) :
    DirectoryCopyOverride.ofJson (Override.directoryCopy override).toJson = .ok override := by
  obtain ⟨directory, baseDirectory, baseVersion, baseHash, issue⟩ := override
  rcases baseVersion with _ | version <;> rcases issue with _ | _ | _ | _ <;> first | rfl | cases h

/-- Only the override of a directory has the member that tells the two kinds of copies apart. -/
theorem Override.ofJson_toJson {override : Override} (h : override.isWritable) :
    Override.ofJson override.toJson = .ok override := by
  cases override with
  | platform file => rfl
  | patch override =>
    show (FileOverride.ofJson (override.toJson "patch")).bind _ = _
    rw [FileOverride.ofJson_toJson "patch" h]
    rfl
  | derived override =>
    show (FileOverride.ofJson (override.toJson "derived")).bind _ = _
    rw [FileOverride.ofJson_toJson "derived" h]
    rfl
  | copy override =>
    have hDirectory : (override.toJson "copy").get? "directory" = none := by
      obtain ⟨file, baseFile, baseVersion, baseHash, issue⟩ := override
      cases baseVersion <;> cases issue <;> rfl
    show (if ((override.toJson "copy").get? "directory").isSome then _ else
      (FileOverride.ofJson (override.toJson "copy")).bind _) = _
    rw [hDirectory, FileOverride.ofJson_toJson "copy" h]
    rfl
  | directoryCopy override =>
    show (DirectoryCopyOverride.ofJson (Override.directoryCopy override).toJson).bind _ = _
    rw [DirectoryCopyOverride.ofJson_toJson h]
    rfl

def patternsMember (patterns : Option (List String)) : Option Json :=
  patterns.map fun patterns => .array (patterns.map .string)

namespace Manifest

theorem get?_toJson (man : Manifest) :
    man.toJson.get? "includePatterns" = patternsMember man.includePatterns ∧
      man.toJson.get? "excludePatterns" = patternsMember man.excludePatterns ∧
      man.toJson.get? "baseVersion" = man.baseVersion.map .string ∧
      man.toJson.get? "overrides" = some (.array (man.overrides.map Override.toJson)) := by
  obtain ⟨includePatterns, excludePatterns, baseVersion, overrides⟩ := man
  cases includePatterns <;> cases excludePatterns <;> cases baseVersion <;>
    exact ⟨rfl, rfl, rfl, rfl⟩

theorem readPatterns_eq {json : Json} {name : String} {patterns : Option (List String)}
    (h : json.get? name = patternsMember patterns) : readPatterns json name = patterns := by
  rw [readPatterns, h]
  cases patterns with
  | none => rfl
  | some patterns =>
    show some ((patterns.map Json.string).filterMap _) = _
    rw [List.filterMap_map]
    exact congrArg some List.filterMap_some

theorem ofJson_toJson {man : Manifest} (h : man.overrides.all Override.isWritable) :
    Manifest.ofJson man.toJson = .ok man := by
  obtain ⟨hInclude, hExclude, hVersion, hOverrides⟩ := man.get?_toJson
  have hRead : readVersion man.toJson = man.baseVersion := by
    rw [readVersion, hVersion]
    cases man.baseVersion <;> rfl
  rw [Manifest.ofJson, hOverrides, readPatterns_eq hInclude, readPatterns_eq hExclude, hRead]
  show ((man.overrides.map Override.toJson).mapM Override.ofJson).bind _ = _
  rw [mapM_map_eq_ok fun override hMem => Override.ofJson_toJson (List.all_eq_true.mp h override hMem)]
  rfl

end Manifest
end Serialized

structure Override.Declared (libs : Libraries) (override : Override) : Prop where
  name : libs.normalizePath override.name = override.name
  path : ∀ base, override.base? = some base → libs.normalizePath base.path = base.path
  version : ∀ base, override.base? = some base → base.version ≠ ""

variable {libs : Libraries}

variable {override : Override}

/-- Whether the issue of an override, if it has one, is a number of JSON. -/
def Override.isWritable (override : Override) : Bool :=
  (override.base?.bind Base.issue).all isFinite

namespace Manifest

variable (libs) in
def reread (manifest : Manifest) : Except String Manifest := do
  let parsed ← Serialized.parseManifest (manifest.serialize libs).toJson
  Manifest.fromSerialized libs (← Serialized.Manifest.ofJson parsed)

variable (libs) in
def sorted (manifest : Manifest) : List Override :=
  manifest.overrides.insertionSort fun a b => libs.localeLe a.name b.name

variable {manifest : Manifest}

end Manifest
end PlatformOverride
