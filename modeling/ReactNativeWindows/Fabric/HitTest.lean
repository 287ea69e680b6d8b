import Mathlib

/-! `hitTest` of views and scroll views under a root, which is a view itself. -/
namespace Fabric.HitTesting

universe u

variable {Scalar : Type u}

structure Point (Scalar : Type u) where
  x : Scalar
  y : Scalar
  deriving DecidableEq

structure LayoutMetrics (Scalar : Type u) where
  origin : Point Scalar
  width : Scalar
  height : Scalar
  pointScaleFactor : Scalar

inductive PointerEventsMode where
  | auto
  | none
  | boxNone
  | boxOnly
  deriving DecidableEq

/-- A `ViewComponentView`, which may clip its content to its bounds, or a `ScrollViewComponentView`. -/
inductive Kind (Scalar : Type u) where
  | view (clipsContentToBounds : Bool)
  | scrollView (scrollPosition : Point Scalar)

structure ViewState (Scalar : Type u) where
  tag : ℤ
  m_layoutMetrics : LayoutMetrics Scalar
  pointerEvents : PointerEventsMode
  kind : Kind Scalar

inductive ComponentView (Scalar : Type u) where
  | mk (state : ViewState Scalar) (m_children : List (ComponentView Scalar))

namespace ViewState

/-- The flag is set, or the mode is `Auto` or the given one. -/
def accepts (state : ViewState Scalar) (ignorePointerEvents : Bool) (mode : PointerEventsMode) : Bool :=
  ignorePointerEvents || state.pointerEvents == .auto || state.pointerEvents == mode

variable [Sub Scalar] [Add Scalar] [Div Scalar] [Zero Scalar] [LE Scalar] [DecidableLE Scalar]

def ptLocal (state : ViewState Scalar) (pt : Point Scalar) : Point Scalar :=
  ⟨pt.x - state.m_layoutMetrics.origin.x, pt.y - state.m_layoutMetrics.origin.y⟩

def isPointInside (state : ViewState Scalar) (ptLocal : Point Scalar) : Bool :=
  decide (0 ≤ ptLocal.x ∧ ptLocal.x ≤ state.m_layoutMetrics.width ∧ 0 ≤ ptLocal.y ∧
    ptLocal.y ≤ state.m_layoutMetrics.height)

def ptContent (state : ViewState Scalar) (ptLocal : Point Scalar) : Point Scalar :=
  match state.kind with
  | .view _ => ptLocal
  | .scrollView scrollPosition =>
    ⟨ptLocal.x + scrollPosition.x / state.m_layoutMetrics.pointScaleFactor,
      ptLocal.y + scrollPosition.y / state.m_layoutMetrics.pointScaleFactor⟩

end ViewState

variable [Sub Scalar] [Add Scalar] [Div Scalar] [Zero Scalar] [LE Scalar] [DecidableLE Scalar]

mutual

/-- The tag, and `localPt` after the call. -/
def hitTest : ComponentView Scalar → Point Scalar → Point Scalar → Bool → ℤ × Point Scalar
  | .mk state m_children, pt, localPt, ignorePointerEvents =>
    let ptLocal := state.ptLocal pt
    let isPointInside := state.isPointInside ptLocal
    match state.kind with
    | .view clipsContentToBounds =>
      let scan := if state.accepts ignorePointerEvents .boxNone && (isPointInside || !clipsContentToBounds)
        then anyHitTestHelper m_children (-1) (state.ptContent ptLocal) localPt else (false, -1, localPt)
      if scan.1 then scan.2
      else if state.accepts ignorePointerEvents .boxOnly && isPointInside then (state.tag, ptLocal)
      else (-1, scan.2.2)
    | .scrollView _ =>
      if state.accepts ignorePointerEvents .boxOnly && isPointInside then
        let scan := if state.accepts ignorePointerEvents .boxNone
          then anyHitTestHelper m_children (-1) (state.ptContent ptLocal) localPt else (false, -1, localPt)
        if scan.1 then scan.2
        else if state.accepts ignorePointerEvents .boxOnly then (state.tag, scan.2.2)
        else (-1, scan.2.2)
      else (-1, localPt)

/-- Whether a child was hit, and `targetTag` and `localPt` after the loop, which begins at the end. The
children are called with the default flag. -/
def anyHitTestHelper : List (ComponentView Scalar) → ℤ → Point Scalar → Point Scalar →
    Bool × ℤ × Point Scalar
  | [], targetTag, _, localPt => (false, targetTag, localPt)
  | child :: children, targetTag, ptContent, localPt =>
    let later := anyHitTestHelper children targetTag ptContent localPt
    if later.1 then later
    else
      let result := hitTest child ptContent later.2.2 false
      (result.1 != -1, result)

end

omit [Sub Scalar] [Add Scalar] [Div Scalar] [Zero Scalar] [LE Scalar] [DecidableLE Scalar] in
theorem ComponentView.induct {P : ComponentView Scalar → Prop}
    (h : ∀ state children, (∀ child ∈ children, P child) → P (.mk state children))
    (view : ComponentView Scalar) : P view :=
  @ComponentView.rec Scalar P (fun children => ∀ child ∈ children, P child) h
    (by simp) (fun _ _ hChild hRest => List.forall_mem_cons.mpr ⟨hChild, hRest⟩) view

structure Place (Scalar : Type u) where
  state : ViewState Scalar
  point : Point Scalar
  isRoot : Bool

structure Visit (Scalar : Type u) where
  place : Place Scalar
  above : List (Place Scalar)

def Visit.push (outer : Place Scalar) (visit : Visit Scalar) : Visit Scalar :=
  ⟨visit.place, visit.above ++ [outer]⟩

mutual

/-- The views of a tree, children before their parents and later children first. -/
def visits (isRoot : Bool) : ComponentView Scalar → Point Scalar → List (Visit Scalar)
  | .mk state children, pt =>
    (visitsBelow children (state.ptContent (state.ptLocal pt))).map
      (Visit.push ⟨state, state.ptLocal pt, isRoot⟩) ++ [⟨⟨state, state.ptLocal pt, isRoot⟩, []⟩]

def visitsBelow : List (ComponentView Scalar) → Point Scalar → List (Visit Scalar)
  | [], _ => []
  | child :: children, pt => visitsBelow children pt ++ visits false child pt

end

mutual

def tags : ComponentView Scalar → List ℤ
  | .mk state children => tagsBelow children ++ [state.tag]

def tagsBelow : List (ComponentView Scalar) → List ℤ
  | [] => []
  | child :: children => tagsBelow children ++ tags child

end

omit [Zero Scalar] [LE Scalar] [DecidableLE Scalar] in
theorem map_visits_tag (view : ComponentView Scalar) (isRoot : Bool) (pt : Point Scalar) :
    (visits isRoot view pt).map (·.place.state.tag) = tags view := by
  induction view using ComponentView.induct generalizing isRoot pt with
  | h state children ih =>
    have hBelow : (visitsBelow children (state.ptContent (state.ptLocal pt))).map (·.place.state.tag) =
        tagsBelow children := by
      generalize state.ptContent (state.ptLocal pt) = ptContent
      induction children with
      | nil => rfl
      | cons child children ihChildren =>
        rw [visitsBelow, tagsBelow, List.map_append, ih child List.mem_cons_self,
          ihChildren fun other hOther => ih other (List.mem_cons_of_mem _ hOther)]
    rw [visits, tags, List.map_append, List.map_map, ← hBelow]
    rfl

namespace Place

def contains (place : Place Scalar) : Bool := place.state.isPointInside place.point

def isScrollView (place : Place Scalar) : Bool :=
  match place.state.kind with
  | .view _ => false
  | .scrollView _ => true

/-- The point is outside of the bounds to which the content is clipped. -/
def clipsAway (place : Place Scalar) : Bool :=
  match place.state.kind with
  | .view clipsContentToBounds => !place.contains && clipsContentToBounds
  | .scrollView _ => !place.contains

end Place

/-- The view contains the point and takes it, and its ancestors let it through. With the flag all modes
are as good as `Auto`. -/
def Visit.takes (ignorePointerEvents : Bool) (visit : Visit Scalar) : Bool :=
  visit.place.contains && visit.place.state.accepts ignorePointerEvents .boxOnly &&
    visit.above.all fun outer => outer.state.accepts ignorePointerEvents .boxNone && !outer.clipsAway

/-- The first view that takes the point, and the point in its coordinates, are found. -/
def HitsTopmost (root : ComponentView Scalar) (pt localPt : Point Scalar) (ignorePointerEvents : Bool) :
    Prop :=
  match (visits true root pt).find? (Visit.takes ignorePointerEvents) with
  | some visit => hitTest root pt localPt ignorePointerEvents = (visit.place.state.tag, visit.place.point)
  | none => (hitTest root pt localPt ignorePointerEvents).1 = -1

/-- The flag is known to the root only, and a scroll view scans no children where it would not be hit
itself. -/
def Place.passes (ignorePointerEvents : Bool) (outer : Place Scalar) : Bool :=
  outer.state.accepts (ignorePointerEvents && outer.isRoot) .boxNone && !outer.clipsAway &&
    (!outer.isScrollView || outer.state.accepts (ignorePointerEvents && outer.isRoot) .boxOnly)

def Visit.found (ignorePointerEvents : Bool) (visit : Visit Scalar) : Bool :=
  visit.place.contains &&
    visit.place.state.accepts (ignorePointerEvents && visit.place.isRoot) .boxOnly &&
    visit.above.all (Place.passes ignorePointerEvents)

/-- A scroll view leaves `localPt` as it was. -/
def outcome (localPt : Point Scalar) : Option (Visit Scalar) → ℤ × Point Scalar
  | none => (-1, localPt)
  | some visit =>
    (visit.place.state.tag, if visit.place.isScrollView then localPt else visit.place.point)

section Found
variable {ignorePointerEvents : Bool}

omit [Sub Scalar] [Add Scalar] [Div Scalar] in
theorem found_push (outer : Place Scalar) (visit : Visit Scalar) :
    (visit.push outer).found ignorePointerEvents =
      (outer.passes ignorePointerEvents && visit.found ignorePointerEvents) := by
  simp only [Visit.found, Visit.push, List.all_append, List.all_cons, List.all_nil, Bool.and_true]
  ac_rfl

theorem find_visits (isRoot : Bool) (state : ViewState Scalar) (children : List (ComponentView Scalar))
    (pt localPt : Point Scalar) :
    outcome localPt ((visits isRoot (.mk state children) pt).find? (Visit.found ignorePointerEvents)) =
      if Place.passes ignorePointerEvents ⟨state, state.ptLocal pt, isRoot⟩ = true ∧
          ((visitsBelow children (state.ptContent (state.ptLocal pt))).find?
            (Visit.found ignorePointerEvents)).isSome = true then
        outcome localPt ((visitsBelow children (state.ptContent (state.ptLocal pt))).find?
          (Visit.found ignorePointerEvents))
      else if state.accepts (ignorePointerEvents && isRoot) .boxOnly = true ∧
          state.isPointInside (state.ptLocal pt) = true then
        outcome localPt (some ⟨⟨state, state.ptLocal pt, isRoot⟩, []⟩)
      else (-1, localPt) := by
  have hSelf : [(⟨⟨state, state.ptLocal pt, isRoot⟩, []⟩ : Visit Scalar)].find?
      (Visit.found ignorePointerEvents) =
        if state.accepts (ignorePointerEvents && isRoot) .boxOnly = true ∧
            state.isPointInside (state.ptLocal pt) = true then
          some ⟨⟨state, state.ptLocal pt, isRoot⟩, []⟩ else none := by
    by_cases hTakes : state.accepts (ignorePointerEvents && isRoot) .boxOnly = true ∧
        state.isPointInside (state.ptLocal pt) = true
    · rw [if_pos hTakes, List.find?_cons_of_pos]
      simp [Visit.found, Place.contains, hTakes]
    · rw [if_neg hTakes, List.find?_cons_of_neg, List.find?_nil]
      simpa [Visit.found, Place.contains, and_comm] using hTakes
  have hPush : Visit.found ignorePointerEvents ∘ Visit.push ⟨state, state.ptLocal pt, isRoot⟩ =
      fun visit : Visit Scalar => (Place.mk state (state.ptLocal pt) isRoot).passes ignorePointerEvents &&
        visit.found ignorePointerEvents := funext (found_push _)
  have hGuard : ∀ (passes : Bool) (views : List (Visit Scalar)),
      views.find? (fun visit => passes && visit.found ignorePointerEvents) =
        if passes then views.find? (Visit.found ignorePointerEvents) else none := by
    intro passes views
    cases passes
    · exact List.find?_eq_none.mpr fun visit _ => Bool.false_ne_true
    · simp
  rw [visits, List.find?_append, List.find?_map, hPush, hGuard, hSelf]
  generalize (visitsBelow children (state.ptContent (state.ptLocal pt))).find?
    (Visit.found ignorePointerEvents) = below
  -- The views below come first, and are found where the point gets through to them.
  by_cases hPasses : (Place.mk state (state.ptLocal pt) isRoot).passes ignorePointerEvents = true
  · rw [if_pos hPasses]
    cases below with
    | none =>
      simp only [Option.map_none, Option.none_or, Option.isSome_none, Bool.false_eq_true, and_false, if_false]
      split <;> rfl
    | some visit =>
      simp only [Option.map_some, Option.some_or, Option.isSome_some, hPasses, and_true, if_true]
      rfl
  · rw [if_neg hPasses]
    simp only [Option.map_none, Option.none_or, hPasses]
    split <;> rfl

variable {children : List (ComponentView Scalar)}

theorem anyHitTestHelper_eq {pt : Point Scalar}
    (hTags : ∀ visit ∈ visitsBelow children pt, visit.place.state.tag ≠ -1)
    (hChildren : ∀ child ∈ children, ∀ localPt, hitTest child pt localPt false =
      outcome localPt ((visits false child pt).find? (Visit.found ignorePointerEvents)))
    (targetTag : ℤ) (localPt : Point Scalar) :
    let below := (visitsBelow children pt).find? (Visit.found ignorePointerEvents)
    let scan := anyHitTestHelper children targetTag pt localPt
    scan.1 = below.isSome ∧ scan.2.2 = (outcome localPt below).2 ∧
      (below.isSome = true → scan.2 = outcome localPt below) := by
  induction children with
  | nil => simp [visitsBelow, anyHitTestHelper, outcome]
  | cons child children ih =>
    simp only [visitsBelow, List.mem_append] at hTags
    obtain ⟨hFound, hPoint, hResult⟩ := ih (fun visit hVisit => hTags visit (.inl hVisit))
      fun other hOther => hChildren other (List.mem_cons_of_mem _ hOther)
    simp only [visitsBelow, List.find?_append, anyHitTestHelper, hFound, hPoint]
    cases hLater : (visitsBelow children pt).find? (Visit.found ignorePointerEvents) with
    | some visit =>
      rw [hLater] at hFound hPoint hResult
      simp [hFound, hResult]
    | none =>
      simp only [Option.isSome_none, Bool.false_eq_true, if_false, Option.none_or, outcome,
        hChildren child List.mem_cons_self]
      cases hFirst : (visits false child pt).find? (Visit.found ignorePointerEvents) with
      | none => simp
      | some visit =>
        have hTag := hTags visit (.inr (List.mem_of_find?_eq_some hFirst))
        simp [hTag]

omit [Zero Scalar] [LE Scalar] [DecidableLE Scalar] in
theorem visits_subset {child : ComponentView Scalar} (hChild : child ∈ children) (pt : Point Scalar) :
    visits false child pt ⊆ visitsBelow children pt := by
  induction children with
  | nil => cases hChild
  | cons first children ih =>
    rw [visitsBelow]
    rcases List.mem_cons.mp hChild with rfl | hLater
    · exact List.subset_append_right _ _
    · exact List.Subset.trans (ih hLater) (List.subset_append_left _ _)

/-- The first view that is found gives the result. -/
theorem hitTest_eq (view : ComponentView Scalar) (isRoot : Bool) (pt localPt : Point Scalar)
    (hTags : ∀ visit ∈ visits isRoot view pt, visit.place.state.tag ≠ -1) :
    hitTest view pt localPt (ignorePointerEvents && isRoot) =
      outcome localPt ((visits isRoot view pt).find? (Visit.found ignorePointerEvents)) := by
  induction view using ComponentView.induct generalizing isRoot pt localPt with
  | h state children ih =>
    have hBelow : ∀ visit ∈ visitsBelow children (state.ptContent (state.ptLocal pt)),
        visit.place.state.tag ≠ -1 := by
      intro visit hVisit
      refine hTags (visit.push ⟨state, state.ptLocal pt, isRoot⟩) ?_
      rw [visits]
      exact List.mem_append_left _ (List.mem_map_of_mem hVisit)
    have hChildren : ∀ child ∈ children, ∀ localPt,
        hitTest child (state.ptContent (state.ptLocal pt)) localPt false = outcome localPt
          ((visits false child (state.ptContent (state.ptLocal pt))).find?
            (Visit.found ignorePointerEvents)) := by
      intro child hChild localPt
      rw [← ih child hChild false _ localPt fun visit hVisit => hBelow visit (visits_subset hChild _ hVisit),
        Bool.and_false]
    obtain ⟨hFound, hPoint, hResult⟩ := anyHitTestHelper_eq hBelow hChildren (-1) localPt
    rw [find_visits]
    generalize (visitsBelow children (state.ptContent (state.ptLocal pt))).find?
      (Visit.found ignorePointerEvents) = below at hFound hPoint hResult ⊢
    have hContains : (Place.mk state (state.ptLocal pt) isRoot).contains =
      state.isPointInside (state.ptLocal pt) := rfl
    cases hKind : state.kind with
    | view clipsContentToBounds =>
      have hPasses : (Place.mk state (state.ptLocal pt) isRoot).passes ignorePointerEvents =
          (state.accepts (ignorePointerEvents && isRoot) .boxNone &&
            (state.isPointInside (state.ptLocal pt) || !clipsContentToBounds)) := by
        simp [Place.passes, Place.clipsAway, Place.isScrollView, hKind, hContains]
      simp only [hitTest, hKind, ← hPasses]
      cases (Place.mk state (state.ptLocal pt) isRoot).passes ignorePointerEvents with
      | false => simp [outcome, Place.isScrollView, hKind]
      | true =>
        cases below with
        | none => simp [hFound, hPoint, outcome, Place.isScrollView, hKind]
        | some visit => simp [hFound, hResult]
    | scrollView scrollPosition =>
      have hPasses : (Place.mk state (state.ptLocal pt) isRoot).passes ignorePointerEvents =
          (state.accepts (ignorePointerEvents && isRoot) .boxNone && state.isPointInside (state.ptLocal pt) &&
            state.accepts (ignorePointerEvents && isRoot) .boxOnly) := by
        simp [Place.passes, Place.clipsAway, Place.isScrollView, hKind, hContains]
      simp only [hitTest, hKind, hPasses]
      -- Nothing is scanned where the scroll view would not be hit itself.
      by_cases hSelf : state.accepts (ignorePointerEvents && isRoot) .boxOnly = true ∧
          state.isPointInside (state.ptLocal pt) = true
      · cases hThrough : state.accepts (ignorePointerEvents && isRoot) .boxNone with
        | false => simp [hSelf, outcome, Place.isScrollView, hKind]
        | true =>
          cases below with
          | none => simp [hSelf, hFound, hPoint, outcome, Place.isScrollView, hKind]
          | some visit => simp [hSelf, hFound, hResult]
      · simp only [Bool.and_eq_true, hSelf, if_false]
        rw [if_neg]
        intro hThrough
        exact hSelf ⟨hThrough.1.2, hThrough.1.1.2⟩

variable {visit : Visit Scalar}

omit [Sub Scalar] [Add Scalar] [Div Scalar] in
theorem takes_of_found (hFound : visit.found ignorePointerEvents = true) :
    visit.takes ignorePointerEvents = true := by
  have hAccepts : ∀ (state : ViewState Scalar) (isRoot : Bool) (mode : PointerEventsMode),
      state.accepts (ignorePointerEvents && isRoot) mode = true → state.accepts ignorePointerEvents mode = true := by
    intro state isRoot mode
    cases ignorePointerEvents
    · exact id
    · exact fun _ => rfl
  simp only [Visit.found, Visit.takes, Bool.and_eq_true, List.all_eq_true, Place.passes] at hFound ⊢
  obtain ⟨⟨hContains, hSelf⟩, hAbove⟩ := hFound
  refine ⟨⟨hContains, hAccepts _ _ _ hSelf⟩, fun outer hOuter => ?_⟩
  exact ⟨hAccepts _ _ _ (hAbove outer hOuter).1.1, (hAbove outer hOuter).1.2⟩

omit [Sub Scalar] [Add Scalar] [Div Scalar] in
theorem find_found {views : List (Visit Scalar)}
    (hFirst : views.find? (Visit.takes ignorePointerEvents) = some visit)
    (hFound : visit.found ignorePointerEvents = true) :
    views.find? (Visit.found ignorePointerEvents) = some visit := by
  rw [List.find?_eq_some_iff_append] at hFirst ⊢
  obtain ⟨-, before, after, hViews, hBefore⟩ := hFirst
  refine ⟨hFound, before, after, hViews, fun other hOther => ?_⟩
  have hNotTaken := hBefore other hOther
  rw [Bool.not_eq_true'] at hNotTaken ⊢
  exact Bool.eq_false_iff.mpr fun hOtherFound => by simp [takes_of_found hOtherFound] at hNotTaken

end Found

/-- The topmost view is hit exactly where it is also the first that is found, which needs that without the
flag below the root the modes admit it too, and that no scroll view above it is `BoxNone`; and `localPt`
must already be right where it is a scroll view. -/
theorem hits_topmost_iff (root : ComponentView Scalar) (pt localPt : Point Scalar)
    (ignorePointerEvents : Bool) (hDistinct : (tags root).Nodup) (hTags : -1 ∉ tags root) :
    HitsTopmost root pt localPt ignorePointerEvents ↔
      ∀ visit, (visits true root pt).find? (Visit.takes ignorePointerEvents) = some visit →
        visit.found ignorePointerEvents = true ∧
          (visit.place.isScrollView = true → localPt = visit.place.point) := by
  rw [← map_visits_tag root true pt] at hDistinct hTags
  have hTagOf : ∀ visit ∈ visits true root pt, visit.place.state.tag ≠ -1 := by
    intro visit hVisit hTag
    exact hTags (List.mem_map.mpr ⟨visit, hVisit, hTag⟩)
  have hResult : hitTest root pt localPt (ignorePointerEvents && true) = outcome localPt
      ((visits true root pt).find? (Visit.found ignorePointerEvents)) := hitTest_eq root true pt localPt hTagOf
  rw [Bool.and_true] at hResult
  rw [HitsTopmost, hResult]
  cases hFirst : (visits true root pt).find? (Visit.takes ignorePointerEvents) with
  | none =>
    have hNone : (visits true root pt).find? (Visit.found ignorePointerEvents) = none := by
      rw [List.find?_eq_none] at hFirst ⊢
      exact fun visit hVisit hFound => hFirst visit hVisit (takes_of_found hFound)
    simp [hNone, outcome]
  | some visit =>
    simp only [Option.some.injEq, forall_eq']
    by_cases hFound : visit.found ignorePointerEvents = true
    · rw [find_found hFirst hFound]
      cases hScroll : visit.place.isScrollView <;> simp [outcome, hFound, hScroll]
    · refine iff_of_false ?_ fun hExact => hFound hExact.1
      intro hHit
      have hTag := congrArg Prod.fst hHit
      cases hOther : (visits true root pt).find? (Visit.found ignorePointerEvents) with
      | none =>
        rw [hOther] at hTag
        exact hTagOf visit (List.mem_of_find?_eq_some hFirst) hTag.symm
      | some other =>
        rw [hOther] at hTag
        have hSame : other = visit := List.inj_on_of_nodup_map hDistinct
          (List.mem_of_find?_eq_some hOther) (List.mem_of_find?_eq_some hFirst) hTag
        exact hFound (hSame ▸ List.find?_some hOther)

def box (tag : ℤ) (pointerEvents : PointerEventsMode) (kind : Kind ℤ) (m_children : List (ComponentView ℤ)) :
    ComponentView ℤ :=
  .mk ⟨tag, ⟨⟨0, 0⟩, 10, 10, 1⟩, pointerEvents, kind⟩ m_children

theorem box_hits_topmost :
    HitsTopmost (box 1 .boxNone (.view true)
      [box 2 .auto (.scrollView ⟨0, 3⟩) [box 3 .boxOnly (.view false) []], box 4 .none (.view false) []])
      ⟨5, 5⟩ ⟨0, 0⟩ false := by
  refine (hits_topmost_iff _ _ _ _ (by decide) (by decide)).mpr ?_
  intro visit hVisit
  cases hVisit
  exact ⟨rfl, Bool.noConfusion⟩

/-- The children do not get the flag, a scroll view does not report the point, and one that is `BoxNone`
hides its children. -/
theorem topmost_missed :
    ¬ HitsTopmost (box 1 .auto (.view true) [box 2 .none (.view true) []]) ⟨5, 5⟩ ⟨0, 0⟩ true ∧
      ¬ HitsTopmost (box 1 .auto (.view true) [box 2 .auto (.scrollView ⟨0, 0⟩) []]) ⟨5, 5⟩ ⟨0, 0⟩ false ∧
      ¬ HitsTopmost (box 1 .auto (.view true)
        [box 2 .boxNone (.scrollView ⟨0, 0⟩) [box 3 .auto (.view true) []]]) ⟨5, 5⟩ ⟨0, 0⟩ false := by
  refine ⟨?_, ?_, ?_⟩
  · show ¬ (_ = _)
    decide
  · show ¬ (_ = _)
    decide
  · show ¬ (_ = _)
    decide

end Fabric.HitTesting
