import Mathlib.Data.List.Nodup
import ReactNativeWindows.Control.Alternation

/-! The views that pointers hover, as `HandleIncomingPointerEvent` keeps them. What it keeps is found by
the `pointerId` of an event, and the calls are made with the pointer's own id. -/
namespace Fabric

open Control (Alternating isOpen)

variable {View : Type}

/-- `OnPointerEntered` and `OnPointerExited` of a view, with the pointer of their arguments. -/
inductive HoverCall (View : Type) where
  | entered (pointer : ℕ) (view : View)
  | exited (pointer : ℕ) (view : View)
  deriving DecidableEq

def HoverCall.view : HoverCall View → View
  | .entered _ view | .exited _ view => view

/-- The newest call comes first. A destroyed view is not found any more. `path` are the touchable views on
the path from the last target of a pointer to the root. -/
structure HoveredViews (View : Type) where
  m_currentlyHoveredViewsPerPointer : ℕ → List View
  destroyed : View → Bool
  calls : List (HoverCall View)
  path : ℕ → List View

namespace HoveredViews

def initial : HoveredViews View := ⟨fun _ => [], fun _ => false, [], fun _ => []⟩

def currentlyHoveredViews (s : HoveredViews View) (pointerId : ℕ) : List View :=
  (s.m_currentlyHoveredViewsPerPointer pointerId).filter fun view => !s.destroyed view

def enter (pointer : ℕ) (calls : List (HoverCall View)) (view : View) : List (HoverCall View) :=
  .entered pointer view :: calls

def exit (pointer : ℕ) (calls : List (HoverCall View)) (view : View) : List (HoverCall View) :=
  .exited pointer view :: calls

variable [DecidableEq View]

/-- The views on the path are entered from the root to the target, the others exited from the target to
the root. -/
def handleIncomingPointerEvent (s : HoveredViews View) (pointer pointerId : ℕ)
    (eventPathViews : List View) : HoveredViews View :=
  let currentlyHoveredViews := s.currentlyHoveredViews pointerId
  let viewsToEnter := eventPathViews.reverse.filter fun view => view ∉ currentlyHoveredViews
  let viewsToEmitLeaveEventsTo := currentlyHoveredViews.filter fun view => view ∉ eventPathViews
  { s with
    m_currentlyHoveredViewsPerPointer :=
      Function.update s.m_currentlyHoveredViewsPerPointer pointerId eventPathViews
    calls := viewsToEmitLeaveEventsTo.foldl (exit pointer) (viewsToEnter.foldl (enter pointer) s.calls)
    path := Function.update s.path pointer eventPathViews }

def withoutTarget (s : HoveredViews View) (pointer : ℕ) : HoveredViews View :=
  { s with path := Function.update s.path pointer [] }

def hovers (calls : List (HoverCall View)) (pointer : ℕ) (view : View) : Bool :=
  isOpen (.entered pointer view) (.exited pointer view) calls

def hoversNothing (s : HoveredViews View) (pointer : ℕ) : Bool :=
  s.calls.all fun call => s.destroyed call.view || !hovers s.calls pointer call.view

def InTurn (calls : List (HoverCall View)) : Prop :=
  ∀ pointer view, Alternating (.entered pointer view) (.exited pointer view) calls

variable {calls : List (HoverCall View)} {pointer : ℕ}

theorem hovers_enter (pointer other : ℕ) (view seen : View) (calls : List (HoverCall View)) :
    hovers (enter pointer calls view) other seen = true ↔
      (other = pointer ∧ seen = view) ∨ hovers calls other seen = true := by
  rw [hovers, enter]
  by_cases hSame : other = pointer ∧ seen = view
  · obtain ⟨rfl, rfl⟩ := hSame
    rw [Control.isOpen_begins]
    exact iff_of_true rfl (Or.inl ⟨rfl, rfl⟩)
  · rw [Control.isOpen_other]
    · exact ⟨Or.inr, fun h => h.resolve_left hSame⟩
    · intro hEq
      cases hEq
      exact hSame ⟨rfl, rfl⟩
    · exact nofun

theorem hovers_exit (pointer other : ℕ) (view seen : View) (calls : List (HoverCall View)) :
    hovers (exit pointer calls view) other seen = true ↔
      ¬ (other = pointer ∧ seen = view) ∧ hovers calls other seen = true := by
  rw [hovers, exit]
  by_cases hSame : other = pointer ∧ seen = view
  · obtain ⟨rfl, rfl⟩ := hSame
    have hNe : HoverCall.exited other seen ≠ .entered other seen := nofun
    rw [Control.isOpen_ends hNe]
    exact iff_of_false Bool.noConfusion fun h => h.1 ⟨rfl, rfl⟩
  · rw [Control.isOpen_other]
    · exact ⟨fun h => ⟨hSame, h⟩, fun h => h.2⟩
    · exact nofun
    · intro hEq
      cases hEq
      exact hSame ⟨rfl, rfl⟩

variable {view : View}

theorem InTurn.enter (h : InTurn calls) (hNot : hovers calls pointer view = false) :
    InTurn (enter pointer calls view) := by
  intro other seen
  by_cases hSame : other = pointer ∧ seen = view
  · obtain ⟨rfl, rfl⟩ := hSame
    exact (h other seen).begin nofun hNot
  · apply (h other seen).other
    · intro hEq
      cases hEq
      exact hSame ⟨rfl, rfl⟩
    · exact nofun

theorem InTurn.exit (h : InTurn calls) (hHovers : hovers calls pointer view = true) :
    InTurn (exit pointer calls view) := by
  intro other seen
  by_cases hSame : other = pointer ∧ seen = view
  · obtain ⟨rfl, rfl⟩ := hSame
    exact (h other seen).end nofun hHovers
  · apply (h other seen).other
    · exact nofun
    · intro hEq
      cases hEq
      exact hSame ⟨rfl, rfl⟩

theorem InTurn.enterAll (h : InTurn calls) {views : List View} (hNodup : views.Nodup)
    (hNot : ∀ view ∈ views, hovers calls pointer view = false) :
    InTurn (views.foldl (HoveredViews.enter pointer) calls) ∧
      ∀ other seen, hovers (views.foldl (HoveredViews.enter pointer) calls) other seen = true ↔
        (other = pointer ∧ seen ∈ views) ∨ hovers calls other seen = true := by
  induction views generalizing calls with
  | nil =>
    refine ⟨h, fun other seen => ⟨Or.inr, fun hHovers => hHovers.resolve_left ?_⟩⟩
    rintro ⟨-, hMem⟩
    cases hMem
  | cons view views ih =>
    obtain ⟨hFresh, hRest⟩ := List.nodup_cons.mp hNodup
    have hEntered := h.enter (hNot view List.mem_cons_self)
    have hStill : ∀ later ∈ views, hovers (HoveredViews.enter pointer calls view) pointer later =
        false := by
      intro later hMem
      apply Bool.eq_false_iff.mpr
      rw [Ne, hovers_enter]
      rintro (⟨-, rfl⟩ | hHovers)
      · exact hFresh hMem
      · exact Bool.eq_false_iff.mp (hNot later (List.mem_cons_of_mem _ hMem)) hHovers
    obtain ⟨hInTurn, hAll⟩ := ih hEntered hRest hStill
    refine ⟨hInTurn, fun other seen => ?_⟩
    rw [List.foldl_cons, hAll, hovers_enter, List.mem_cons]
    constructor
    · rintro (⟨hSame, hMem⟩ | ⟨hSame, hEq⟩ | hHovers)
      · exact Or.inl ⟨hSame, Or.inr hMem⟩
      · exact Or.inl ⟨hSame, Or.inl hEq⟩
      · exact Or.inr hHovers
    · rintro (⟨hSame, hEq | hMem⟩ | hHovers)
      · exact Or.inr (Or.inl ⟨hSame, hEq⟩)
      · exact Or.inl ⟨hSame, hMem⟩
      · exact Or.inr (Or.inr hHovers)

theorem InTurn.exitAll (h : InTurn calls) {views : List View} (hNodup : views.Nodup)
    (hHovered : ∀ view ∈ views, hovers calls pointer view = true) :
    InTurn (views.foldl (HoveredViews.exit pointer) calls) ∧
      ∀ other seen, hovers (views.foldl (HoveredViews.exit pointer) calls) other seen = true ↔
        ¬ (other = pointer ∧ seen ∈ views) ∧ hovers calls other seen = true := by
  induction views generalizing calls with
  | nil =>
    refine ⟨h, fun other seen => ⟨fun hHovers => ⟨?_, hHovers⟩, fun hHovers => hHovers.2⟩⟩
    rintro ⟨-, hMem⟩
    cases hMem
  | cons view views ih =>
    obtain ⟨hFresh, hRest⟩ := List.nodup_cons.mp hNodup
    have hExited := h.exit (hHovered view List.mem_cons_self)
    have hStill : ∀ later ∈ views, hovers (HoveredViews.exit pointer calls view) pointer later =
        true := by
      intro later hMem
      rw [hovers_exit]
      refine ⟨?_, hHovered later (List.mem_cons_of_mem _ hMem)⟩
      rintro ⟨-, rfl⟩
      exact hFresh hMem
    obtain ⟨hInTurn, hAll⟩ := ih hExited hRest hStill
    refine ⟨hInTurn, fun other seen => ?_⟩
    rw [List.foldl_cons, hAll, hovers_exit, List.mem_cons]
    constructor
    · rintro ⟨hNotLater, hNotView, hHovers⟩
      refine ⟨?_, hHovers⟩
      rintro ⟨hSame, hEq | hMem⟩
      · exact hNotView ⟨hSame, hEq⟩
      · exact hNotLater ⟨hSame, hMem⟩
    · rintro ⟨hNot, hHovers⟩
      refine ⟨?_, ?_, hHovers⟩
      · rintro ⟨hSame, hMem⟩
        exact hNot ⟨hSame, Or.inr hMem⟩
      · rintro ⟨hSame, hEq⟩
        exact hNot ⟨hSame, Or.inl hEq⟩

/-- What holds where each pointer has at most one key, and no two pointers have the same one: the views
that a pointer hovers are those on its path, and are kept by its key. -/
structure Keyed (s : HoveredViews View) (key : ℕ → Option ℕ) : Prop where
  injective : ∀ pointer other pointerId, key pointer = some pointerId → key other = some pointerId →
    pointer = other
  inTurn : InTurn s.calls
  nodup : ∀ pointerId, (s.m_currentlyHoveredViewsPerPointer pointerId).Nodup
  keyed : ∀ pointer pointerId view, key pointer = some pointerId → s.destroyed view = false →
    (hovers s.calls pointer view = true ↔ view ∈ s.m_currentlyHoveredViewsPerPointer pointerId)
  keyless : ∀ pointer view, key pointer = none → s.destroyed view = false →
    hovers s.calls pointer view = false
  unowned : ∀ pointerId, (∀ pointer, key pointer ≠ some pointerId) →
    s.m_currentlyHoveredViewsPerPointer pointerId = []
  onPath : ∀ pointer view, s.destroyed view = false →
    (hovers s.calls pointer view = true ↔ view ∈ s.path pointer)

variable {s : HoveredViews View} {key : ℕ → Option ℕ} {pointerId : ℕ} {eventPathViews : List View}

omit [DecidableEq View] in
theorem mem_currentlyHoveredViews : view ∈ s.currentlyHoveredViews pointerId ↔
    view ∈ s.m_currentlyHoveredViewsPerPointer pointerId ∧ s.destroyed view = false := by
  rw [currentlyHoveredViews, List.mem_filter, Bool.not_eq_true']

theorem handle_hovered (s : HoveredViews View) (pointer pointerId : ℕ) (eventPathViews : List View) :
    (s.handleIncomingPointerEvent pointer pointerId eventPathViews).m_currentlyHoveredViewsPerPointer =
      Function.update s.m_currentlyHoveredViewsPerPointer pointerId eventPathViews := rfl

theorem handle_path (s : HoveredViews View) (pointer pointerId : ℕ) (eventPathViews : List View) :
    (s.handleIncomingPointerEvent pointer pointerId eventPathViews).path =
      Function.update s.path pointer eventPathViews := rfl

theorem Keyed.handle (h : s.Keyed key) (hKey : key pointer = some pointerId)
    (hNodup : eventPathViews.Nodup) (hAlive : ∀ view ∈ eventPathViews, s.destroyed view = false) :
    (s.handleIncomingPointerEvent pointer pointerId eventPathViews).Keyed key := by
  have hEnterNodup : (eventPathViews.reverse.filter fun view =>
      view ∉ s.currentlyHoveredViews pointerId).Nodup :=
    (List.nodup_reverse.mpr hNodup).filter _
  have hNot : ∀ view ∈ eventPathViews.reverse.filter fun view =>
      view ∉ s.currentlyHoveredViews pointerId, hovers s.calls pointer view = false := by
    intro view hMem
    obtain ⟨hPath, hFresh⟩ := List.mem_filter.mp hMem
    have hView := hAlive view (List.mem_reverse.mp hPath)
    apply Bool.eq_false_iff.mpr
    intro hHovers
    apply of_decide_eq_true hFresh
    exact mem_currentlyHoveredViews.mpr ⟨(h.keyed pointer pointerId view hKey hView).mp hHovers, hView⟩
  obtain ⟨hEntered, hAllEntered⟩ := h.inTurn.enterAll hEnterNodup hNot
  have hExitNodup : ((s.currentlyHoveredViews pointerId).filter fun view =>
      view ∉ eventPathViews).Nodup := ((h.nodup pointerId).filter _).filter _
  have hHovered : ∀ view ∈ (s.currentlyHoveredViews pointerId).filter fun view =>
      view ∉ eventPathViews, hovers ((eventPathViews.reverse.filter fun view =>
        view ∉ s.currentlyHoveredViews pointerId).foldl (HoveredViews.enter pointer) s.calls)
          pointer view = true := by
    intro view hMem
    obtain ⟨hCurrent, hView⟩ := mem_currentlyHoveredViews.mp (List.mem_filter.mp hMem).1
    exact (hAllEntered pointer view).mpr
      (Or.inr ((h.keyed pointer pointerId view hKey hView).mpr hCurrent))
  obtain ⟨hExited, hAll⟩ := hEntered.exitAll hExitNodup hHovered
  have hPointer : ∀ view, s.destroyed view = false →
      (hovers (s.handleIncomingPointerEvent pointer pointerId eventPathViews).calls pointer view =
        true ↔ view ∈ eventPathViews) := by
    intro view hView
    have hCurrent : view ∈ s.currentlyHoveredViews pointerId ↔
        hovers s.calls pointer view = true := by
      rw [mem_currentlyHoveredViews, h.keyed pointer pointerId view hKey hView]
      exact and_iff_left hView
    rw [handleIncomingPointerEvent, hAll, hAllEntered, List.mem_filter, List.mem_filter,
      List.mem_reverse, decide_eq_true_eq, decide_eq_true_eq, hCurrent]
    constructor
    · rintro ⟨hStays, ⟨-, hPath, -⟩ | hHovers⟩
      · exact hPath
      · by_contra hPath
        exact hStays ⟨rfl, hHovers, hPath⟩
    · intro hPath
      refine ⟨fun hLeaves => hLeaves.2.2 hPath, ?_⟩
      by_cases hHovers : hovers s.calls pointer view = true
      · exact Or.inr hHovers
      · exact Or.inl ⟨rfl, hPath, hHovers⟩
  have hOther : ∀ other view, other ≠ pointer →
      hovers (s.handleIncomingPointerEvent pointer pointerId eventPathViews).calls other view =
        hovers s.calls other view := by
    intro other view hNe
    apply Bool.eq_iff_iff.mpr
    rw [handleIncomingPointerEvent, hAll, hAllEntered]
    constructor
    · rintro ⟨-, ⟨hSame, -⟩ | hHovers⟩
      · exact absurd hSame hNe
      · exact hHovers
    · exact fun hHovers => ⟨fun hSame => hNe hSame.1, Or.inr hHovers⟩
  constructor
  · exact h.injective
  · exact hExited
  · intro otherId
    simp only [handleIncomingPointerEvent]
    by_cases hSame : otherId = pointerId
    · rw [hSame, Function.update_self]
      exact hNodup
    · rw [Function.update_of_ne hSame]
      exact h.nodup otherId
  · intro other otherId view hOtherKey hView
    by_cases hSame : other = pointer
    · cases hSame
      cases hKey.symm.trans hOtherKey
      rw [hPointer view hView, handle_hovered, Function.update_self]
    · have hNe : otherId ≠ pointerId := by
        rintro rfl
        exact hSame (h.injective other pointer otherId hOtherKey hKey)
      rw [hOther other view hSame, h.keyed other otherId view hOtherKey hView,
        handle_hovered, Function.update_of_ne hNe]
  · intro other view hNone hView
    have hNe : other ≠ pointer := by
      rintro rfl
      exact absurd (hKey.symm.trans hNone) (Option.some_ne_none pointerId)
    rw [hOther other view hNe]
    exact h.keyless other view hNone hView
  · intro otherId hUnowned
    have hNe : otherId ≠ pointerId := by
      rintro rfl
      exact hUnowned pointer hKey
    simp only [handleIncomingPointerEvent, Function.update_of_ne hNe]
    exact h.unowned otherId hUnowned
  · intro other view hView
    by_cases hSame : other = pointer
    · cases hSame
      rw [hPointer view hView, handle_path, Function.update_self]
    · rw [hOther other view hSame, h.onPath other view hView, handle_path,
        Function.update_of_ne hSame]

theorem Keyed.add (h : s.Keyed key) (hNone : key pointer = none)
    (hUnowned : ∀ other, key other ≠ some pointerId) :
    s.Keyed (Function.update key pointer (some pointerId)) := by
  constructor
  · intro first second otherId hFirst hSecond
    by_cases hFirstSame : first = pointer
    · by_cases hSecondSame : second = pointer
      · exact hFirstSame.trans hSecondSame.symm
      · rw [hFirstSame, Function.update_self] at hFirst
        rw [Function.update_of_ne hSecondSame] at hSecond
        cases hFirst
        exact absurd hSecond (hUnowned second)
    · rw [Function.update_of_ne hFirstSame] at hFirst
      by_cases hSecondSame : second = pointer
      · rw [hSecondSame, Function.update_self] at hSecond
        cases hSecond
        exact absurd hFirst (hUnowned first)
      · rw [Function.update_of_ne hSecondSame] at hSecond
        exact h.injective first second otherId hFirst hSecond
  · exact h.inTurn
  · exact h.nodup
  · intro other otherId view hKey hView
    by_cases hSame : other = pointer
    · rw [hSame, Function.update_self] at hKey
      cases hKey
      rw [hSame, h.unowned pointerId hUnowned, h.keyless pointer view hNone hView]
      exact iff_of_false Bool.noConfusion List.not_mem_nil
    · rw [Function.update_of_ne hSame] at hKey
      exact h.keyed other otherId view hKey hView
  · intro other view hOther hView
    by_cases hSame : other = pointer
    · rw [hSame]
      exact h.keyless pointer view hNone hView
    · rw [Function.update_of_ne hSame] at hOther
      exact h.keyless other view hOther hView
  · intro otherId hOther
    apply h.unowned otherId
    intro other hKey
    have hNe : other ≠ pointer := by
      rintro rfl
      exact absurd (hKey.symm.trans hNone) (Option.some_ne_none otherId)
    apply hOther other
    rw [Function.update_of_ne hNe]
    exact hKey
  · exact h.onPath

theorem Keyed.drop (h : s.Keyed key) (hKey : key pointer = some pointerId)
    (hEmpty : s.m_currentlyHoveredViewsPerPointer pointerId = []) :
    s.Keyed (Function.update key pointer none) := by
  have hOld : ∀ other otherId, Function.update key pointer none other = some otherId →
      other ≠ pointer ∧ key other = some otherId := by
    intro other otherId hOther
    by_cases hSame : other = pointer
    · rw [hSame, Function.update_self] at hOther
      cases hOther
    · rw [Function.update_of_ne hSame] at hOther
      exact ⟨hSame, hOther⟩
  constructor
  · intro first second otherId hFirst hSecond
    exact h.injective first second otherId (hOld first otherId hFirst).2 (hOld second otherId hSecond).2
  · exact h.inTurn
  · exact h.nodup
  · exact fun other otherId view hOther => h.keyed other otherId view (hOld other otherId hOther).2
  · intro other view hOther hView
    by_cases hSame : other = pointer
    · apply Bool.eq_false_iff.mpr
      rw [hSame, Ne, h.keyed pointer pointerId view hKey hView, hEmpty]
      exact List.not_mem_nil
    · rw [Function.update_of_ne hSame] at hOther
      exact h.keyless other view hOther hView
  · intro otherId hUnowned
    by_cases hSame : otherId = pointerId
    · rw [hSame]
      exact hEmpty
    · apply h.unowned otherId
      intro other hOther
      have hNe : other ≠ pointer := by
        rintro rfl
        cases hKey.symm.trans hOther
        exact hSame rfl
      apply hUnowned other
      rw [Function.update_of_ne hNe]
      exact hOther
  · exact h.onPath

theorem Keyed.handleNothing (h : s.Keyed key)
    (hEmpty : ∀ view ∈ s.m_currentlyHoveredViewsPerPointer pointerId, s.destroyed view = true)
    (hPath : ∀ view ∈ s.path pointer, s.destroyed view = true) :
    (s.handleIncomingPointerEvent pointer pointerId []).Keyed key := by
  have hCurrent : s.currentlyHoveredViews pointerId = [] := by
    apply List.filter_eq_nil_iff.mpr
    intro view hMem
    rw [hEmpty view hMem]
    exact Bool.noConfusion
  have hCalls : (s.handleIncomingPointerEvent pointer pointerId []).calls = s.calls := by
    simp only [handleIncomingPointerEvent, hCurrent]
    rfl
  constructor
  · exact h.injective
  · rw [hCalls]
    exact h.inTurn
  · intro otherId
    rw [handle_hovered]
    by_cases hSame : otherId = pointerId
    · rw [hSame, Function.update_self]
      exact List.nodup_nil
    · rw [Function.update_of_ne hSame]
      exact h.nodup otherId
  · intro other otherId view hKey hView
    rw [hCalls, handle_hovered, h.keyed other otherId view hKey hView]
    by_cases hSame : otherId = pointerId
    · rw [hSame, Function.update_self]
      refine iff_of_false (fun hMem => ?_) List.not_mem_nil
      exact absurd (hView.symm.trans (hEmpty view hMem)) Bool.noConfusion
    · rw [Function.update_of_ne hSame]
  · rw [hCalls]
    exact h.keyless
  · intro otherId hUnowned
    rw [handle_hovered]
    by_cases hSame : otherId = pointerId
    · rw [hSame, Function.update_self]
    · rw [Function.update_of_ne hSame]
      exact h.unowned otherId hUnowned
  · intro other view hView
    rw [hCalls, handle_path, h.onPath other view hView]
    by_cases hSame : other = pointer
    · rw [hSame, Function.update_self]
      refine iff_of_false (fun hMem => ?_) List.not_mem_nil
      exact absurd (hView.symm.trans (hPath view hMem)) Bool.noConfusion
    · rw [Function.update_of_ne hSame]

theorem Keyed.withoutTarget (h : s.Keyed key)
    (hPath : ∀ view ∈ s.path pointer, s.destroyed view = true) :
    (s.withoutTarget pointer).Keyed key := by
  refine ⟨h.injective, h.inTurn, h.nodup, h.keyed, h.keyless, h.unowned, fun other view hView => ?_⟩
  rw [HoveredViews.withoutTarget, h.onPath other view hView]
  by_cases hSame : other = pointer
  · simp only [hSame, Function.update_self]
    refine iff_of_false (fun hMem => ?_) List.not_mem_nil
    exact absurd (hView.symm.trans (hPath view hMem)) Bool.noConfusion
  · simp only [Function.update_of_ne hSame]

theorem hovers_of_hoversNothing (h : s.hoversNothing pointer = true)
    (hView : s.destroyed view = false) : hovers s.calls pointer view = false := by
  cases hHovers : hovers s.calls pointer view with
  | false => rfl
  | true =>
    have hMem := Control.mem_of_isOpen hHovers
    have hCall := List.all_eq_true.mp h _ hMem
    rw [HoverCall.view, hView, hHovers] at hCall
    cases hCall

theorem Keyed.destroy (h : s.Keyed key) (view : View) :
    Keyed { s with destroyed := Function.update s.destroyed view true } key := by
  have hAlive : ∀ other, Function.update s.destroyed view true other = false →
      s.destroyed other = false := by
    intro other hView
    by_cases hSame : other = view
    · rw [hSame, Function.update_self] at hView
      cases hView
    · rwa [Function.update_of_ne hSame] at hView
  constructor
  · exact h.injective
  · exact h.inTurn
  · exact h.nodup
  · exact fun other otherId seen hKey hView => h.keyed other otherId seen hKey (hAlive seen hView)
  · exact fun other seen hNone hView => h.keyless other seen hNone (hAlive seen hView)
  · exact h.unowned
  · exact fun other seen hView => h.onPath other seen (hAlive seen hView)

end HoveredViews

end Fabric
