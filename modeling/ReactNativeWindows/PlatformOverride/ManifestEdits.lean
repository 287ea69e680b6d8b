import ReactNativeWindows.Control.Loops
import ReactNativeWindows.PlatformOverride.ManifestRoundTrip
import ReactNativeWindows.PlatformOverride.MarkUpToDate

/-! Manifests that are edited while overrides wait to be marked as up to date. -/
namespace PlatformOverride

open Control
open GitReactFileRepository (Version)

variable (libs : Libraries)

def Override.construct : Override → Override
  | platform overrideFile => platform (libs.normalizePath overrideFile)
  | patch override =>
    patch (.new libs override.overrideFile override.baseFile override.baseVersion
      override.baseHash override.issueNumber)
  | derived override =>
    derived (.new libs override.overrideFile override.baseFile override.baseVersion
      override.baseHash override.issueNumber)
  | copy override =>
    copy (.new libs override.overrideFile override.baseFile override.baseVersion
      override.baseHash override.issueNumber)
  | directoryCopy override =>
    directoryCopy (.new libs override.directory override.baseDirectory override.baseVersion
      override.baseHash override.issue)

/-- The objects of overrides by reference, a manifest that lists some of them, and the objects that
are to be marked with what they were when their up-to-date form was asked for. -/
structure EditedManifest where
  includePatterns : Option (List String)
  excludePatterns : Option (List String)
  baseVersion : Option Version
  overrides : List ℕ
  object : ℕ → Override
  objects : ℕ
  awaiting : List (ℕ × Override)

namespace EditedManifest

variable (s : EditedManifest)

def listOverrides : List Override := s.overrides.map s.object

def manifest : Manifest where
  includePatterns := s.includePatterns
  excludePatterns := s.excludePatterns
  baseVersion := s.baseVersion
  overrides := s.listOverrides

def hasOverride (overrideName : String) : Bool :=
  s.listOverrides.any fun override => override.name = libs.normalizePath overrideName

def findOverride (overrideName : String) : Option ℕ :=
  match findOverrideIndex libs s.listOverrides overrideName with
  | none => none
  | some idx => s.overrides[idx]?

def addOverride (reference : ℕ) : Except String EditedManifest :=
  if s.hasOverride libs (s.object reference).name then
    .error ("Trying to add duplicate override '" ++ (s.object reference).name ++ "'")
  else .ok { s with overrides := s.overrides ++ [reference] }

def removeOverride (overrideName : String) : Bool × EditedManifest :=
  match findOverrideIndex libs s.listOverrides overrideName with
  | none => (false, s)
  | some idx => (true, { s with overrides := s.overrides.eraseIdx idx })

def setBaseVersion (baseVersion : Option Version) : EditedManifest :=
  { s with baseVersion := baseVersion }

def markUpToDate (overrideName : String) : Except String EditedManifest :=
  match s.findOverride libs overrideName with
  | none => .error ("Override '" ++ overrideName ++ "' does not exist")
  | some reference => .ok { s with awaiting := s.awaiting ++ [(reference, s.object reference)] }

/-- The up-to-date form is made, or making it throws, and it is assigned to the object. -/
def assign (idx : ℕ) (factory : OverrideFactory) : EditedManifest :=
  match s.awaiting[idx]? with
  | none => s
  | some (reference, override) =>
    let awaiting := s.awaiting.eraseIdx idx
    match override.createUpdated libs factory with
    | .error _ => { s with awaiting := awaiting }
    | .ok upToDateOverride =>
      { s with
        object := Function.update s.object reference upToDateOverride, awaiting := awaiting }

def sort : EditedManifest :=
  { s with
    overrides := s.overrides.insertionSort fun a b =>
      libs.localeLe (s.object a).name (s.object b).name }

end EditedManifest

inductive Edit where
  | construct (override : Override)
  | addOverride (reference : ℕ)
  | removeOverride (overrideName : String)
  | setBaseVersion (baseVersion : Option Version)
  | markUpToDate (overrideName : String)
  | assign (idx : ℕ) (factory : OverrideFactory)
  | serialize

namespace EditedManifest

variable (s : EditedManifest)

/-- What throws leaves the manifest as it was. A reference is one of an object that was made. -/
def step : Edit → EditedManifest
  | .construct override =>
    { s with
      object := Function.update s.object s.objects (override.construct libs)
      objects := s.objects + 1 }
  | .addOverride reference =>
    if reference < s.objects then (s.addOverride libs reference).toOption.getD s else s
  | .removeOverride overrideName => (s.removeOverride libs overrideName).2
  | .setBaseVersion baseVersion => s.setBaseVersion baseVersion
  | .markUpToDate overrideName => (s.markUpToDate libs overrideName).toOption.getD s
  | .assign idx factory => s.assign libs idx factory
  | .serialize => s.sort libs

def run (edits : List Edit) : EditedManifest := edits.foldl (step libs) s

end EditedManifest

/-- The versions that come in with an edit are not empty. -/
def Edit.Versioned : Edit → Prop
  | .construct override => ∀ base, override.base? = some base → base.version ≠ ""
  | .assign _ factory => factory.reactRepo.getVersion ≠ ""
  | _ => True

variable {libs}

variable {override : Override}

theorem Override.Declared.sound (h : override.Declared libs) (default : Version) :
    override.Sound libs default :=
  ⟨h.name, h.path, fun base hBase => .inl (h.version base hBase)⟩

theorem Override.construct_declared (hLibs : libs.Lawful)
    (h : ∀ base, override.base? = some base → base.version ≠ "") :
    (override.construct libs).Declared libs := by
  have hNormal := hLibs.normalizePath_normalizePath
  cases override with
  | platform overrideFile =>
    have hSound : (Override.platform (libs.normalizePath overrideFile)).Sound libs "" :=
      .platform (hNormal overrideFile)
    exact ⟨hSound.name, hSound.path, fun base hBase => by simp [construct, base?] at hBase⟩
  | patch override | derived override | copy override | directoryCopy override =>
    refine ⟨hNormal _, ?_, ?_⟩
    · rintro base ⟨⟩
      exact hNormal _
    · have hVersion := h _ rfl
      rintro base ⟨⟩
      exact hVersion

/-- The up-to-date form of an override has its name, and the version of the repository. -/
theorem Override.createUpdated_declared {factory : OverrideFactory} {updated : Override}
    (hDeclared : override.Declared libs) (hVersion : factory.reactRepo.getVersion ≠ "")
    (h : override.createUpdated libs factory = .ok updated) :
    updated.name = override.name ∧ updated.Declared libs := by
  have hRenews := override.createUpdated_renews (hDeclared.sound "") h
  refine ⟨hRenews.name, hRenews.sound.name, hRenews.sound.path, ?_⟩
  intro base hBase
  rw [(hRenews.current base hBase).1]
  exact hVersion

namespace EditedManifest

variable {s : EditedManifest}

/-- The names are unique, and objects that are listed or awaited are made and have their names. -/
structure Kept (libs : Libraries) (s : EditedManifest) : Prop where
  declared : ∀ reference < s.objects, (s.object reference).Declared libs
  listed : ∀ reference ∈ s.overrides, reference < s.objects
  names : (s.overrides.map fun reference => (s.object reference).name).Nodup
  awaiting : ∀ awaited ∈ s.awaiting, awaited.1 < s.objects ∧
    awaited.2.name = (s.object awaited.1).name ∧ awaited.2.Declared libs

theorem Kept.nodup (h : s.Kept libs) : (s.listOverrides.map Override.name).Nodup := by
  rw [listOverrides, List.map_map]
  exact h.names

variable {overrideName : String}

theorem hasOverride_iff :
    s.hasOverride libs overrideName ↔
      ∃ reference ∈ s.overrides, (s.object reference).name = libs.normalizePath overrideName := by
  simp [hasOverride, listOverrides]

theorem mem_of_findOverride {reference : ℕ} (h : s.findOverride libs overrideName = some reference) :
    reference ∈ s.overrides ∧ (s.object reference).name = libs.normalizePath overrideName := by
  rw [findOverride] at h
  split at h
  · cases h
  · rename_i idx hIndex
    refine ⟨List.mem_of_getElem? h, ?_⟩
    obtain ⟨hBound, hName, -⟩ := List.findIdx?_eq_some_iff_getElem.mp hIndex
    obtain ⟨hLength, rfl⟩ := List.getElem?_eq_some_iff.mp h
    simpa [listOverrides] using hName

namespace Kept

variable {override : Override}

theorem construct (h : s.Kept libs) (hLibs : libs.Lawful)
    (hVersions : ∀ base, override.base? = some base → base.version ≠ "") :
    (s.step libs (.construct override)).Kept libs := by
  have hOld : ∀ reference < s.objects,
      (s.step libs (.construct override)).object reference = s.object reference :=
    fun reference hReference => Function.update_of_ne hReference.ne _ _
  have hNames : (s.overrides.map fun reference =>
        ((s.step libs (.construct override)).object reference).name) =
      s.overrides.map fun reference => (s.object reference).name := by
    apply List.map_congr_left
    intro reference hMem
    rw [hOld reference (h.listed reference hMem)]
  constructor
  · intro reference hReference
    rcases Nat.lt_succ_iff_lt_or_eq.mp hReference with hLt | rfl
    · rw [hOld reference hLt]
      exact h.declared reference hLt
    · show (Function.update s.object s.objects (override.construct libs) s.objects).Declared libs
      rw [Function.update_self]
      exact override.construct_declared hLibs hVersions
  · exact fun reference hMem => (h.listed reference hMem).trans (Nat.lt_succ_self _)
  · show (s.overrides.map _).Nodup
    rw [hNames]
    exact h.names
  · intro awaited hMem
    obtain ⟨hLt, hName, hDeclared⟩ := h.awaiting awaited hMem
    refine ⟨hLt.trans (Nat.lt_succ_self _), ?_, hDeclared⟩
    rw [hOld awaited.1 hLt]
    exact hName

variable {t : EditedManifest}

theorem addOverride (h : s.Kept libs) {reference : ℕ} (hReference : reference < s.objects)
    (hAdd : s.addOverride libs reference = .ok t) : t.Kept libs := by
  rw [EditedManifest.addOverride] at hAdd
  split at hAdd
  · cases hAdd
  · rename_i hNew
    cases hAdd
    refine ⟨h.declared, ?_, ?_, h.awaiting⟩
    · intro other hMem
      rcases List.mem_append.mp hMem with hOld | hLast
      · exact h.listed other hOld
      · rw [List.mem_singleton.mp hLast]
        exact hReference
    · rw [hasOverride_iff, (h.declared reference hReference).name] at hNew
      rw [List.map_append, List.map_singleton, ← List.concat_eq_append, List.nodup_concat]
      refine ⟨?_, h.names⟩
      intro hMem
      obtain ⟨other, hOther, hName⟩ := List.mem_map.mp hMem
      exact hNew ⟨other, hOther, hName⟩

variable {overrides : List ℕ}

variable (h : s.Kept libs)
include h

theorem sublist (hSub : overrides.Sublist s.overrides) :
    ({ s with overrides := overrides } : EditedManifest).Kept libs :=
  ⟨h.declared, fun reference hMem => h.listed reference (hSub.subset hMem),
    h.names.sublist (hSub.map _), h.awaiting⟩

theorem perm (hPerm : overrides.Perm s.overrides) :
    ({ s with overrides := overrides } : EditedManifest).Kept libs :=
  ⟨h.declared, fun reference hMem => h.listed reference (hPerm.mem_iff.mp hMem),
    (hPerm.map _).nodup_iff.mpr h.names, h.awaiting⟩

theorem removeOverride (overrideName : String) :
    (s.removeOverride libs overrideName).2.Kept libs := by
  rw [EditedManifest.removeOverride]
  split
  · exact h
  · exact h.sublist (List.eraseIdx_sublist _ _)

theorem markUpToDate {overrideName : String} (hMark : s.markUpToDate libs overrideName = .ok t) :
    t.Kept libs := by
  rw [EditedManifest.markUpToDate] at hMark
  split at hMark
  · cases hMark
  · rename_i reference hFind
    cases hMark
    refine ⟨h.declared, h.listed, h.names, ?_⟩
    intro awaited hMem
    rcases List.mem_append.mp hMem with hOld | hLast
    · exact h.awaiting awaited hOld
    · obtain rfl := List.mem_singleton.mp hLast
      have hMade := h.listed reference (mem_of_findOverride hFind).1
      exact ⟨hMade, rfl, h.declared reference hMade⟩

/-- An object may get other fields, as long as it keeps its name. -/
theorem update {reference : ℕ} (hName : override.name = (s.object reference).name)
    (hDeclared : override.Declared libs) {awaiting : List (ℕ × Override)}
    (hSub : awaiting.Sublist s.awaiting) :
    ({ s with object := Function.update s.object reference override, awaiting := awaiting } :
      EditedManifest).Kept libs := by
  have hNames : ∀ other,
      (Function.update s.object reference override other).name = (s.object other).name := by
    intro other
    by_cases hOther : other = reference
    · rw [hOther, Function.update_self, hName]
    · rw [Function.update_of_ne hOther]
  constructor
  · intro other hLt
    by_cases hOther : other = reference
    · show (Function.update s.object reference override other).Declared libs
      rw [hOther, Function.update_self]
      exact hDeclared
    · show (Function.update s.object reference override other).Declared libs
      rw [Function.update_of_ne hOther]
      exact h.declared other hLt
  · exact h.listed
  · show (s.overrides.map fun other => (Function.update s.object reference override other).name).Nodup
    simp only [hNames]
    exact h.names
  · intro awaited hMem
    obtain ⟨hLt, hAwaited, hOld⟩ := h.awaiting awaited (hSub.subset hMem)
    exact ⟨hLt, hAwaited.trans (hNames awaited.1).symm, hOld⟩

theorem assign {factory : OverrideFactory} (hVersion : factory.reactRepo.getVersion ≠ "") (idx : ℕ) :
    (s.assign libs idx factory).Kept libs := by
  rw [EditedManifest.assign]
  split
  · exact h
  · rename_i reference override hAwaited
    have hSub : (s.awaiting.eraseIdx idx).Sublist s.awaiting := List.eraseIdx_sublist _ _
    obtain ⟨-, hName, hDeclared⟩ := h.awaiting _ (List.mem_of_getElem? hAwaited)
    cases hUpdated : override.createUpdated libs factory with
    | error msg =>
      exact ⟨h.declared, h.listed, h.names, fun awaited hMem => h.awaiting awaited (hSub.subset hMem)⟩
    | ok updated =>
      obtain ⟨hSame, hDone⟩ := override.createUpdated_declared hDeclared hVersion hUpdated
      exact h.update (hSame.trans hName) hDone hSub

theorem step (hLibs : libs.Lawful) {edit : Edit} (hEdit : edit.Versioned) :
    (s.step libs edit).Kept libs := by
  cases edit with
  | construct override => exact h.construct hLibs hEdit
  | addOverride reference =>
    rw [EditedManifest.step]
    split
    · rename_i hReference
      cases hAdd : s.addOverride libs reference with
      | error msg => exact h
      | ok t => exact h.addOverride hReference hAdd
    · exact h
  | removeOverride overrideName => exact h.removeOverride overrideName
  | setBaseVersion baseVersion => exact ⟨h.declared, h.listed, h.names, h.awaiting⟩
  | markUpToDate overrideName =>
    rw [EditedManifest.step]
    cases hMark : s.markUpToDate libs overrideName with
    | error msg => exact h
    | ok t => exact h.markUpToDate hMark
  | assign idx factory => exact h.assign hEdit idx
  | serialize => exact h.perm (List.perm_insertionSort _ _)

theorem run (hLibs : libs.Lawful) {edits : List Edit} (hEdits : ∀ edit ∈ edits, edit.Versioned) :
    (s.run libs edits).Kept libs :=
  foldl_keeps (P := EditedManifest.Kept libs) h fun _ edit hMem hNow =>
    hNow.step hLibs (hEdits edit hMem)

end Kept

variable {manifest : Manifest}

/-- Two spellings of a name are the same for all functions, and these agree on it. -/
structure Agrees (libs : Libraries) (s : EditedManifest) (overrideName spelling : String) : Prop where
  has : s.hasOverride libs overrideName = s.hasOverride libs spelling
  find : s.findOverride libs overrideName = s.findOverride libs spelling
  remove : s.removeOverride libs overrideName = s.removeOverride libs spelling
  has_eq_find : s.hasOverride libs overrideName = (s.findOverride libs overrideName).isSome
  removed : (s.removeOverride libs overrideName).1 = s.hasOverride libs overrideName
  found : ∀ reference, s.findOverride libs overrideName = some reference →
    reference ∈ s.overrides ∧ (s.object reference).name = libs.normalizePath overrideName
  rest : (s.removeOverride libs overrideName).2.listOverrides =
    s.listOverrides.filter fun override => override.name ≠ libs.normalizePath overrideName

end EditedManifest

end PlatformOverride

namespace PlatformOverride.EditSample

def libs : Libraries where
  toUnix := id
  normalize := id
  relative _ _ := ""
  join a b := a ++ "/" ++ b
  isAbsolute _ := false
  split path := [path]
  toUtf8 _ := none
  digest _ := ""
  localeLe _ _ := true
  sortLe _ _ := true

theorem lawful : libs.Lawful := ⟨fun _ => rfl, fun _ => rfl, fun _ => by simp [libs]⟩

def json : Json :=
  .object [("baseVersion", .string "1"), ("overrides", .array [.object
    [("type", .string "copy"), ("file", .string "a"), ("baseFile", .string "b"),
      ("baseHash", .string "h"), ("issue", .number (.infinity false))]])]

def man (issue : Option Numbers.Double) : Serialized.Manifest :=
  ⟨none, none, some "1", [.copy ⟨"a", "b", none, "h", issue⟩]⟩

def manifest (issue : Option Numbers.Double) : Manifest :=
  ⟨none, none, some "1", [.copy ⟨"a", "b", "1", "h", issue⟩]⟩

/-- The copy is replaced by a patch at another version, which becomes the default. -/
def edits : List Edit :=
  [.construct (.patch ⟨"c", "d", "2", "h", none⟩), .addOverride 1, .setBaseVersion (some "2"),
    .removeOverride "a"]

end PlatformOverride.EditSample
