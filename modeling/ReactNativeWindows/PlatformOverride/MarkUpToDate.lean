import ReactNativeWindows.PlatformOverride.Effective

/-! Marking overrides as up to date while other overrides are being marked. -/
namespace PlatformOverride

open Concurrency Control
open Numbers (Double)
open GitReactFileRepository (Version)

variable {libs : Libraries} {factory : OverrideFactory}

def Base.IsCurrent (libs : Libraries) (reactRepo : ReactFileRepository) (base : Base) : Prop :=
  base.version = reactRepo.getVersion ∧
    hashFileOrDirectory libs base.path reactRepo.toFileRepository none = .ok (some base.hash)

/-- The second override is the first one made anew from the repository. -/
structure Override.Renews (libs : Libraries) (reactRepo : ReactFileRepository)
    (override renewed : Override) : Prop where
  name : renewed.name = override.name
  kind : renewed.kind = override.kind
  path : renewed.base?.map Base.path = override.base?.map Base.path
  sound : renewed.Sound libs reactRepo.getVersion
  current : ∀ base, renewed.base? = some base → base.IsCurrent libs reactRepo

namespace OverrideFactory

theorem getBaseInfo_ok {basePath : String} {version : Version} {hash : String}
    (h : factory.getBaseInfo libs basePath = .ok (version, hash)) :
    version = factory.reactRepo.getVersion ∧
      hashFileOrDirectory libs basePath factory.reactRepo.toFileRepository none =
        .ok (some hash) := by
  rw [getBaseInfo] at h
  split at h
  · cases h
  obtain ⟨-, -, h⟩ := bind_eq_ok.mp h
  obtain ⟨type, -, h⟩ := bind_eq_ok.mp h
  split at h
  · cases h
  obtain ⟨-, -, h⟩ := bind_eq_ok.mp h
  obtain ⟨found, hFound, h⟩ := bind_eq_ok.mp h
  cases found with
  | none => cases h
  | some baseHash =>
    cases h
    exact ⟨rfl, hFound⟩

variable {issue : Option Double}

theorem createBaseFileOverride_ok {file baseFile : String} {override : BaseFileOverride}
    (h : factory.createBaseFileOverride libs file baseFile issue = .ok override) :
    ∃ hash, override = .new libs file baseFile factory.reactRepo.getVersion hash issue ∧
      hashFileOrDirectory libs baseFile factory.reactRepo.toFileRepository none =
        .ok (some hash) := by
  obtain ⟨-, -, h⟩ := bind_eq_ok.mp h
  obtain ⟨⟨version, hash⟩, hInfo, h⟩ := bind_eq_ok.mp h
  obtain rfl := pure_eq_ok.mp h
  obtain ⟨rfl, hHash⟩ := getBaseInfo_ok hInfo
  exact ⟨hash, rfl, hHash⟩

theorem createDirectoryCopyOverride_ok {directory baseDirectory : String} {override : Override}
    (h : factory.createDirectoryCopyOverride libs directory baseDirectory issue = .ok override) :
    ∃ hash, override =
        .directoryCopy (.new libs directory baseDirectory factory.reactRepo.getVersion hash issue) ∧
      hashFileOrDirectory libs baseDirectory factory.reactRepo.toFileRepository none =
        .ok (some hash) := by
  obtain ⟨-, -, h⟩ := bind_eq_ok.mp h
  obtain ⟨⟨version, hash⟩, hInfo, h⟩ := bind_eq_ok.mp h
  obtain rfl := pure_eq_ok.mp h
  obtain ⟨rfl, hHash⟩ := getBaseInfo_ok hInfo
  exact ⟨hash, rfl, hHash⟩

end OverrideFactory

theorem Override.createUpdated_renews {override updated : Override} {version : Version}
    (hSound : override.Sound libs version)
    (h : override.createUpdated libs factory = .ok updated) :
    override.Renews libs factory.reactRepo updated := by
  cases override with
  | platform overrideFile =>
    obtain ⟨-, -, h⟩ := bind_eq_ok.mp h
    obtain rfl := pure_eq_ok.mp h
    have hName : libs.normalizePath overrideFile = overrideFile := hSound.name
    rw [hName]
    refine ⟨rfl, rfl, rfl, .platform hName, ?_⟩
    intro base hBase
    simp [Override.base?] at hBase
  | patch override | derived override | copy override =>
    obtain ⟨made, hMade, h⟩ := bind_eq_ok.mp h
    obtain rfl := pure_eq_ok.mp h
    obtain ⟨hash, rfl, hHash⟩ := OverrideFactory.createBaseFileOverride_ok hMade
    have hName : libs.normalizePath override.overrideFile = override.overrideFile := hSound.name
    have hPath : libs.normalizePath override.baseFile = override.baseFile := hSound.path _ rfl
    rw [BaseFileOverride.new, hName, hPath]
    refine ⟨rfl, rfl, rfl, ⟨hName, ?_, ?_⟩, ?_⟩
    · rintro base ⟨⟩
      exact hPath
    · rintro base ⟨⟩
      exact .inr rfl
    · rintro base ⟨⟩
      exact ⟨rfl, hHash⟩
  | directoryCopy override =>
    obtain ⟨hash, rfl, hHash⟩ := OverrideFactory.createDirectoryCopyOverride_ok h
    have hName : libs.normalizePath override.directory = override.directory := hSound.name
    have hPath : libs.normalizePath override.baseDirectory = override.baseDirectory :=
      hSound.path _ rfl
    rw [DirectoryCopyOverride.new, hName, hPath]
    refine ⟨rfl, rfl, rfl, ⟨hName, ?_, ?_⟩, ?_⟩
    · rintro base ⟨⟩
      exact hPath
    · rintro base ⟨⟩
      exact .inr rfl
    · rintro base ⟨⟩
      exact ⟨rfl, hHash⟩

namespace Override.Renews

variable {reactRepo : ReactFileRepository} {override first second : Override}

theorem trans (h : override.Renews libs reactRepo first) (hNext : first.Renews libs reactRepo second) :
    override.Renews libs reactRepo second where
  name := hNext.name.trans h.name
  kind := hNext.kind.trans h.kind
  path := hNext.path.trans h.path
  sound := hNext.sound
  current := hNext.current

/-- Two overrides made anew from one have the same name, kind and base. -/
theorem again (hFirst : override.Renews libs reactRepo first)
    (hSecond : override.Renews libs reactRepo second) : first.Renews libs reactRepo second where
  name := hSecond.name.trans hFirst.name.symm
  kind := hSecond.kind.trans hFirst.kind.symm
  path := hSecond.path.trans hFirst.path.symm
  sound := hSecond.sound
  current := hSecond.current

end Override.Renews

/-- What the turns of the marking tasks do: overrides among `names` are made anew. -/
def Marks (libs : Libraries) (reactRepo : ReactFileRepository) (names : List String)
    (overrides marked : List Override) : Prop :=
  List.Forall₂ (fun override after =>
    after = override ∨ override.name ∈ names ∧ override.Renews libs reactRepo after) overrides marked

namespace Marks

variable {reactRepo : ReactFileRepository} {marks : List String} {s t u : List Override} {i : ℕ}
  {override : Override}

theorem refl (s : List Override) : Marks libs reactRepo marks s s :=
  List.forall₂_same.mpr fun _ _ => .inl rfl

theorem trans (h : Marks libs reactRepo marks s t) (hNext : Marks libs reactRepo marks t u) :
    Marks libs reactRepo marks s u := by
  induction h generalizing u with
  | nil => exact hNext
  | cons hHead hTail ih =>
    cases hNext with
    | cons hHead' hTail' =>
      refine .cons ?_ (ih hTail')
      rcases hHead with rfl | ⟨hName, hRenews⟩
      · exact hHead'
      · rcases hHead' with rfl | ⟨-, hRenews'⟩
        · exact .inr ⟨hName, hRenews⟩
        · exact .inr ⟨hName, hRenews.trans hRenews'⟩

theorem getElem? (h : Marks libs reactRepo marks s t) (hGet : s[i]? = some override) :
    ∃ after, t[i]? = some after ∧ (after = override ∨ override.Renews libs reactRepo after) := by
  induction h generalizing i with
  | nil => cases hGet
  | @cons x y s t hHead hTail ih =>
    cases i with
    | zero =>
      obtain rfl := Option.some.inj hGet
      exact ⟨y, rfl, hHead.imp_right And.right⟩
    | succ i => exact ih hGet

theorem set {updated : Override} (hGet : s[i]? = some override) (hName : override.name ∈ marks)
    (hRenews : override.Renews libs reactRepo updated) :
    Marks libs reactRepo marks s (s.set i updated) := by
  induction s generalizing i with
  | nil => cases hGet
  | cons x s ih =>
    cases i with
    | zero =>
      obtain rfl := Option.some.inj hGet
      exact .cons (.inr ⟨hName, hRenews⟩) (refl s)
    | succ i => exact .cons (.inl rfl) (ih hGet)

theorem names (h : Marks libs reactRepo marks s t) :
    t.map Override.name = s.map Override.name := by
  apply map_eq_map_of_forall₂ h
  rintro override after (rfl | ⟨-, hRenews⟩)
  · rfl
  · exact hRenews.name

theorem sound (h : Marks libs reactRepo marks s t)
    (hSound : ∀ override ∈ s, override.Sound libs reactRepo.getVersion) :
    ∀ override ∈ t, override.Sound libs reactRepo.getVersion := by
  intro override hMem
  obtain ⟨before, hBefore, hAfter⟩ := exists_left_of_mem h hMem
  rcases hAfter with rfl | ⟨-, hRenews⟩
  · exact hSound _ hBefore
  · exact hRenews.sound

end Marks

def IsMarked (libs : Libraries) (reactRepo : ReactFileRepository) (overrideName : String)
    (overrides : List Override) : Prop :=
  ∃ (i : ℕ) (override : Override), overrides[i]? = some override ∧
    override.name = libs.normalizePath overrideName ∧
    ∀ base, override.base? = some base → base.IsCurrent libs reactRepo

variable {overrideName : String}

theorem getElem?_findOverrideIndex {overrides : List Override} {i : ℕ} {override : Override}
    (hIndex : findOverrideIndex libs overrides overrideName = some i)
    (hFind : findOverride libs overrides overrideName = some override) :
    overrides[i]? = some override ∧ override.name = libs.normalizePath overrideName := by
  have hGet : overrides[i]? = some override := by
    rw [findOverride, List.find?_eq_bind_findIdx?_getElem?, ← findOverrideIndex, hIndex] at hFind
    exact hFind
  exact ⟨hGet, of_decide_eq_true (List.find?_eq_some_iff_getElem.mp hFind).1⟩

variable {names : List String}

theorem IsMarked.stable {reactRepo : ReactFileRepository} :
    Async.Stable (Marks libs reactRepo names) (IsMarked libs reactRepo overrideName) := by
  rintro s t hMarks ⟨i, override, hGet, hName, hCurrent⟩
  obtain ⟨after, hAfter, rfl | hRenews⟩ := hMarks.getElem? hGet
  · exact ⟨i, _, hAfter, hName, hCurrent⟩
  · exact ⟨i, after, hAfter, hRenews.name.trans hName, hRenews.current⟩

/-- A task marks its own override, while others mark theirs. -/
theorem markUpToDate_meets (hMem : libs.normalizePath overrideName ∈ names) :
    (markUpToDate libs factory overrideName).Meets (Marks libs factory.reactRepo names)
      (fun _ => IsMarked libs factory.reactRepo overrideName)
      (fun s => ∀ override ∈ s, override.Sound libs factory.reactRepo.getVersion) := by
  let found (answer : ℕ × Override) (s : List Override) : Prop :=
    ∃ override, s[answer.1]? = some override ∧ override.name = libs.normalizePath overrideName ∧
      override.Renews libs factory.reactRepo answer.2
  refine Async.Meets.bind (?_ : Async.Meets _ found _ _) fun answer => ?_
  · refine Async.Meets.read Marks.refl ?_ ?_
    · intro s answer hSound h
      split at h
      · rename_i i override hIndex hFind
        obtain ⟨updated, hUpdated, h⟩ := bind_eq_ok.mp h
        obtain rfl := pure_eq_ok.mp h
        obtain ⟨hGet, hName⟩ := getElem?_findOverrideIndex hIndex hFind
        have hOverride := hSound override (List.mem_of_getElem? hGet)
        exact ⟨override, hGet, hName, override.createUpdated_renews hOverride hUpdated⟩
      · cases h
    · rintro ⟨i, updated⟩ s t hMarks ⟨override, hGet, hName, hRenews⟩
      obtain ⟨after, hAfter, rfl | hAgain⟩ := hMarks.getElem? hGet
      · exact ⟨_, hAfter, hName, hRenews⟩
      · exact ⟨after, hAfter, hAgain.name.trans hName, hAgain.again hRenews⟩
  · apply Async.Meets.write _ IsMarked.stable
    rintro s t ⟨override, hGet, hName, hRenews⟩ h
    obtain rfl := pure_eq_ok.mp h
    refine ⟨Marks.set hGet (hName ▸ hMem) hRenews, answer.1, answer.2, ?_, ?_, hRenews.current⟩
    · rw [List.getElem?_set_self (List.getElem?_eq_some_iff.mp hGet).1]
    · exact hRenews.name.trans hName

/-- When all tasks are done, exactly the overrides with the given names are made anew. -/
theorem marking_spec {overrideNames : List String} {limit : ℕ} {turns : List ℕ}
    {overrides marked : List Override} {values : List Unit}
    (hSound : ∀ override ∈ overrides, override.Sound libs factory.reactRepo.getVersion)
    (hNodup : (overrides.map Override.name).Nodup)
    (h : (Async.mapLimit limit turns (overrideNames.map (markUpToDate libs factory))).run overrides =
      .ok (marked, values)) :
    List.Forall₂ (fun override after =>
      if override.name ∈ overrideNames.map libs.normalizePath then
        override.Renews libs factory.reactRepo after
      else after = override) overrides marked := by
  let names := overrideNames.map libs.normalizePath
  have hMeets : ∀ overrideName ∈ overrideNames,
      (markUpToDate libs factory overrideName).Meets (Marks libs factory.reactRepo names)
        (fun _ => IsMarked libs factory.reactRepo overrideName)
        (fun s => ∀ override ∈ s, override.Sound libs factory.reactRepo.getVersion) :=
    fun overrideName hMem => markUpToDate_meets (List.mem_map_of_mem hMem)
  have hStable : Async.Stable (Marks libs factory.reactRepo names)
      (fun s => ∀ override ∈ s, override.Sound libs factory.reactRepo.getVersion) :=
    fun s t hMarks => hMarks.sound
  have hTasks : (Async.mapLimit limit turns (overrideNames.map (markUpToDate libs factory))).Meets
      (Marks libs factory.reactRepo names) _ _ :=
    Async.Meets.mapLimit_map hMeets (fun _ => hStable) (fun _ _ => IsMarked.stable)
  obtain ⟨hValues, hRun⟩ := hTasks.run (fun _ _ => hSound) h
  have hMarks : Marks libs factory.reactRepo names overrides marked := by
    clear hValues h
    induction hRun with
    | refl => exact .refl _
    | tail _ hStep ih => exact ih.trans hStep
  have hNames : marked.map Override.name = overrides.map Override.name := hMarks.names
  apply forall₂_imp_of_mem hMarks
  intro override hOverride after hAfter hStep
  split
  · rename_i hMem
    obtain ⟨overrideName, hName, hEq⟩ := List.mem_map.mp hMem
    obtain ⟨-, -, i, found, hGet, hFound, hCurrent⟩ := exists_right_of_mem hValues hName
    rcases hStep with rfl | ⟨-, hRenews⟩
    · have hSame : found = after := by
        apply List.inj_on_of_nodup_map (hNames ▸ hNodup) (List.mem_of_getElem? hGet) hAfter
        rw [hFound, hEq]
      exact ⟨rfl, rfl, rfl, hSound _ hOverride, hSame ▸ hCurrent⟩
    · exact hRenews
  · rename_i hMem
    exact hStep.resolve_right fun hMarked => hMem hMarked.1

end PlatformOverride
