import ReactNativeWindows.Control.Results
import ReactNativeWindows.PlatformOverride.Manifest

/-! What an override is, apart from how its version is stored: its name, its kind, and its base with
the effective version. -/
namespace PlatformOverride

open Concurrency Control
open Numbers (Double)
open GitReactFileRepository (Version)

inductive Kind where
  | platform | patch | derived | copy | directoryCopy
  deriving DecidableEq

structure Base where
  path : String
  version : Version
  hash : String
  issue : Option Double
  deriving DecidableEq

variable {libs : Libraries} {Files : Type}

namespace Override

def kind : Override → Kind
  | platform _ => .platform
  | patch _ => .patch
  | derived _ => .derived
  | copy _ => .copy
  | directoryCopy _ => .directoryCopy

def base? : Override → Option Base
  | platform _ => none
  | patch override | derived override | copy override =>
    some ⟨override.baseFile, override.baseVersion, override.baseHash, override.issueNumber⟩
  | directoryCopy override =>
    some ⟨override.baseDirectory, override.baseVersion, override.baseHash, override.issue⟩

end Override

/-- `||` on the version of an override and the default of its manifest. -/
def effectiveBaseVersion (baseVersion defaultBaseVersion : Option Version) : Version :=
  ((baseVersion.filter (· ≠ "")).or defaultBaseVersion).getD ""

namespace Serialized.Override

def kind : Serialized.Override → Kind
  | platform _ => .platform
  | patch _ => .patch
  | derived _ => .derived
  | copy _ => .copy
  | directoryCopy _ => .directoryCopy

def name (libs : Libraries) : Serialized.Override → String
  | platform file => libs.normalizePath file
  | patch override | derived override | copy override => libs.normalizePath override.file
  | directoryCopy override => libs.normalizePath override.directory

def base? (libs : Libraries) (defaultBaseVersion : Option Version) :
    Serialized.Override → Option Base
  | platform _ => none
  | patch override | derived override | copy override =>
    some ⟨libs.normalizePath override.baseFile,
      effectiveBaseVersion override.baseVersion defaultBaseVersion, override.baseHash,
      override.issue⟩
  | directoryCopy override =>
    some ⟨libs.normalizePath override.baseDirectory,
      effectiveBaseVersion override.baseVersion defaultBaseVersion, override.baseHash,
      override.issue⟩

end Serialized.Override

variable {version : Version}

theorem filter_truthy (h : version ≠ "") : (some version).filter (· ≠ "") = some version := by
  rw [Option.filter_some, if_pos (decide_eq_true h)]

variable {default : Option Version}

theorem mergeBaseVersion_ok {own : Option Version} (h : mergeBaseVersion own default = .ok version) :
    version ≠ "" ∧ effectiveBaseVersion own default = version := by
  rw [mergeBaseVersion] at h
  split at h
  · rename_i found hFound
    cases h
    rw [effectiveBaseVersion]
    rcases Option.or_eq_some_iff.mp hFound with hOwn | ⟨hOwn, hDefault⟩
    · rw [hOwn]
      exact ⟨of_decide_eq_true (Option.filter_eq_some_iff.mp hOwn).2, rfl⟩
    · obtain ⟨rfl, hTruthy⟩ := Option.filter_eq_some_iff.mp hDefault
      rw [hOwn]
      exact ⟨of_decide_eq_true hTruthy, rfl⟩
  · cases h

/-- A version is left out when it is the default, and so it is read back. -/
theorem effectiveBaseVersion_serialize {default : Version} (h : version ≠ "" ∨ version = default) :
    effectiveBaseVersion (if some default = some version then none else some version) (some default) =
      version := by
  rw [effectiveBaseVersion]
  split
  · rename_i hEq
    cases hEq
    rfl
  · rename_i hNe
    have hTruthy : version ≠ "" := h.resolve_right fun hEq => hNe (congrArg some hEq.symm)
    rw [filter_truthy hTruthy]
    rfl

theorem BaseFileOverride.fromSerialized_ok {serialized : Serialized.FileOverride}
    {override : BaseFileOverride} (h : fromSerialized libs default serialized = .ok override) :
    override.overrideFile = libs.normalizePath serialized.file ∧
      override.baseFile = libs.normalizePath serialized.baseFile ∧
      override.baseVersion = effectiveBaseVersion serialized.baseVersion default ∧
      override.baseVersion ≠ "" ∧ override.baseHash = serialized.baseHash ∧
      override.issueNumber = serialized.issue := by
  obtain ⟨version, hVersion, h⟩ := bind_eq_ok.mp h
  obtain rfl := pure_eq_ok.mp h
  obtain ⟨hTruthy, hEffective⟩ := mergeBaseVersion_ok hVersion
  exact ⟨rfl, rfl, hEffective.symm, hTruthy, rfl, rfl⟩

theorem DirectoryCopyOverride.fromSerialized_ok {serialized : Serialized.DirectoryCopyOverride}
    {override : DirectoryCopyOverride} (h : fromSerialized libs default serialized = .ok override) :
    override.directory = libs.normalizePath serialized.directory ∧
      override.baseDirectory = libs.normalizePath serialized.baseDirectory ∧
      override.baseVersion = effectiveBaseVersion serialized.baseVersion default ∧
      override.baseVersion ≠ "" ∧ override.baseHash = serialized.baseHash ∧
      override.issue = serialized.issue := by
  obtain ⟨version, hVersion, h⟩ := bind_eq_ok.mp h
  obtain rfl := pure_eq_ok.mp h
  obtain ⟨hTruthy, hEffective⟩ := mergeBaseVersion_ok hVersion
  exact ⟨rfl, rfl, hEffective.symm, hTruthy, rfl, rfl⟩

/-- What the paths and the version of an override that was read or made are like. -/
structure Override.Sound (libs : Libraries) (default : Version) (override : Override) : Prop where
  name : libs.normalizePath override.name = override.name
  path : ∀ base, override.base? = some base → libs.normalizePath base.path = base.path
  version : ∀ base, override.base? = some base → base.version ≠ "" ∨ base.version = default

theorem Override.Sound.platform {file : String} {default : Version}
    (h : libs.normalizePath file = file) : (Override.platform file).Sound libs default where
  name := h
  path base hBase := by simp [Override.base?] at hBase
  version base hBase := by simp [Override.base?] at hBase

variable {override : Override}

/-- Reading keeps all that an override is. -/
theorem deserializeOverride_ok (hLibs : libs.Lawful) {serialized : Serialized.Override}
    (current : Version) (h : deserializeOverride libs default serialized = .ok override) :
    override.name = serialized.name libs ∧ override.kind = serialized.kind ∧
      override.base? = serialized.base? libs default ∧ override.Sound libs current := by
  have hNormal := hLibs.normalizePath_normalizePath
  cases serialized with
  | platform file =>
    obtain rfl := pure_eq_ok.mp h
    exact ⟨rfl, rfl, rfl, .platform (hNormal file)⟩
  | patch serialized | derived serialized | copy serialized =>
    obtain ⟨found, hFound, h⟩ := bind_eq_ok.mp h
    obtain rfl := pure_eq_ok.mp h
    obtain ⟨hName, hPath, hVersion, hTruthy, hHash, hIssue⟩ := BaseFileOverride.fromSerialized_ok hFound
    refine ⟨hName, rfl, ?_, ?_, ?_, ?_⟩
    · rw [Override.base?, hPath, hVersion, hHash, hIssue, Serialized.Override.base?]
    · rw [Override.name, hName, hNormal]
    · rintro base ⟨⟩
      rw [hPath, hNormal]
    · rintro base ⟨⟩
      exact .inl hTruthy
  | directoryCopy serialized =>
    obtain ⟨found, hFound, h⟩ := bind_eq_ok.mp h
    obtain rfl := pure_eq_ok.mp h
    obtain ⟨hName, hPath, hVersion, hTruthy, hHash, hIssue⟩ :=
      DirectoryCopyOverride.fromSerialized_ok hFound
    refine ⟨hName, rfl, ?_, ?_, ?_, ?_⟩
    · rw [Override.base?, hPath, hVersion, hHash, hIssue, Serialized.Override.base?]
    · rw [Override.name, hName, hNormal]
    · rintro base ⟨⟩
      rw [hPath, hNormal]
    · rintro base ⟨⟩
      exact .inl hTruthy

/-- Writing keeps all that an override is, although the default version is another. -/
theorem serialize_eq (hLibs : libs.Lawful) {default : Version} (h : override.Sound libs default) :
    (override.serialize libs (some default)).name libs = override.name ∧
      (override.serialize libs (some default)).kind = override.kind ∧
      (override.serialize libs (some default)).base? libs (some default) = override.base? := by
  have hPath : ∀ p, libs.normalizePath p = p → libs.normalizePath (libs.unixPath p) = p := by
    intro p hp
    have hUnix := hLibs.normalizePath_unixPath p
    rwa [hp] at hUnix
  cases override with
  | platform overrideFile => exact ⟨hPath _ h.name, rfl, rfl⟩
  | patch override | derived override | copy override =>
    refine ⟨hPath _ h.name, rfl, ?_⟩
    simp only [Override.serialize, BaseFileOverride.serializeBase, Serialized.Override.base?,
      Override.base?, hPath _ (h.path _ rfl), effectiveBaseVersion_serialize (h.version _ rfl)]
  | directoryCopy override =>
    refine ⟨hPath _ h.name, rfl, ?_⟩
    simp only [Override.serialize, Serialized.Override.base?, Override.base?,
      hPath _ (h.path _ rfl), effectiveBaseVersion_serialize (h.version _ rfl)]

end PlatformOverride
