import ReactNativeWindows.Control.Alternation
import ReactNativeWindows.Control.Traces

/-! The scroll events that a `CompScrollerVisual` fires as its `InteractionTracker` goes from state to
state. Positions are left out. -/
namespace Fabric

open Control (Throughout Allowed Along Alternating isOpen)

inductive InteractionTrackerState where
  | idle
  | interacting
  | inertia
  | customAnimation
  deriving DecidableEq

inductive ScrollEvent where
  | scrollPositionChanged
  | scrollBeginDrag
  | scrollEndDrag
  | scrollMomentumBegin
  | scrollMomentumEnd
  deriving DecidableEq

/-- The tracker is in a state that the request brought about, 0 for the user. The newest of the fired
events comes first. -/
structure CompScrollerVisual where
  state : InteractionTrackerState
  requestId : ℕ
  m_inertia : Bool
  m_custom : Bool
  m_interacting : Bool
  fired : List ScrollEvent

namespace CompScrollerVisual

def initial : CompScrollerVisual := ⟨.idle, 0, false, false, false, []⟩

def fire (visual : CompScrollerVisual) (event : ScrollEvent) : CompScrollerVisual :=
  { visual with fired := event :: visual.fired }

def fireIf (visual : CompScrollerVisual) (condition : Bool) (event : ScrollEvent) : CompScrollerVisual :=
  if condition then visual.fire event else visual

def customAnimationStateEntered (visual : CompScrollerVisual) : CompScrollerVisual :=
  { visual with m_custom := true, m_inertia := false }

def idleStateEntered (visual : CompScrollerVisual) (requestId : ℕ) : CompScrollerVisual :=
  let visual := visual.fireIf visual.m_inertia .scrollMomentumEnd
  let visual := visual.fireIf (visual.m_interacting && requestId == 0) .scrollEndDrag
  { visual with m_custom := false, m_inertia := false, m_interacting := false }

def inertiaStateEntered (visual : CompScrollerVisual) (requestId : ℕ) : CompScrollerVisual :=
  let visual := { visual with m_custom := false, m_inertia := true }
  let visual := visual.fireIf (!visual.m_interacting && requestId == 0) .scrollBeginDrag
  let visual := visual.fireIf (visual.m_interacting && requestId == 0) .scrollEndDrag
  visual.fire .scrollMomentumBegin

def interactingStateEntered (visual : CompScrollerVisual) : CompScrollerVisual :=
  { visual with m_interacting := true }.fire .scrollBeginDrag

def valuesChanged (visual : CompScrollerVisual) (requestId : ℕ) : CompScrollerVisual :=
  let visual := visual.fireIf (!visual.m_interacting && requestId == 0) .scrollBeginDrag
  { visual with m_interacting := true }.fire .scrollPositionChanged

/-- An animation is on its way before the tracker says so. -/
def scrollBy (visual : CompScrollerVisual) (animate : Bool) : CompScrollerVisual :=
  if animate then { visual with m_custom := true } else visual

/-- Where the tracker goes from its state. What is requested while the user interacts is ignored; and
inertia and animations end by themselves or through a request. -/
def canEnter (visual : CompScrollerVisual) (requestId : ℕ) : InteractionTrackerState → Prop
  | .idle => visual.state ≠ .idle ∧ (requestId = 0 → visual.requestId = 0) ∧
      (visual.state = .interacting → requestId = 0)
  | .interacting => visual.state ≠ .interacting ∧ requestId = 0
  | .inertia => visual.state = .interacting → requestId = 0
  | .customAnimation => visual.state ≠ .interacting ∧ requestId ≠ 0

instance (visual : CompScrollerVisual) (requestId : ℕ) :
    (state : InteractionTrackerState) → Decidable (visual.canEnter requestId state)
  | .idle => inferInstanceAs (Decidable (visual.state ≠ .idle ∧
      (requestId = 0 → visual.requestId = 0) ∧ (visual.state = .interacting → requestId = 0)))
  | .interacting => inferInstanceAs (Decidable (visual.state ≠ .interacting ∧ requestId = 0))
  | .inertia => inferInstanceAs (Decidable (visual.state = .interacting → requestId = 0))
  | .customAnimation => inferInstanceAs (Decidable (visual.state ≠ .interacting ∧ requestId ≠ 0))

/-- At rest only a request changes the position, elsewhere what brought the tracker there. -/
def canChangeValues (visual : CompScrollerVisual) (requestId : ℕ) : Prop :=
  if visual.state = .idle then requestId ≠ 0 else requestId = visual.requestId

instance (visual : CompScrollerVisual) (requestId : ℕ) :
    Decidable (visual.canChangeValues requestId) :=
  inferInstanceAs (Decidable
    (if visual.state = .idle then requestId ≠ 0 else requestId = visual.requestId))

inductive Event where
  | stateEntered (state : InteractionTrackerState) (requestId : ℕ)
  | valuesChanged (requestId : ℕ)
  | scrollBy (animate : Bool)

def stateEntered (visual : CompScrollerVisual) (state : InteractionTrackerState) (requestId : ℕ) :
    CompScrollerVisual :=
  match state with
  | .idle => visual.idleStateEntered requestId
  | .interacting => visual.interactingStateEntered
  | .inertia => visual.inertiaStateEntered requestId
  | .customAnimation => visual.customAnimationStateEntered

def step (visual : CompScrollerVisual) : Event → Option CompScrollerVisual
  | .stateEntered state requestId =>
    if visual.canEnter requestId state then
      some { visual.stateEntered state requestId with state, requestId }
    else none
  | .valuesChanged requestId =>
    if visual.canChangeValues requestId then some (visual.valuesChanged requestId) else none
  | .scrollBy animate => some (visual.scrollBy animate)

def dragged (visual : CompScrollerVisual) : Bool :=
  isOpen .scrollBeginDrag .scrollEndDrag visual.fired

def moving (visual : CompScrollerVisual) : Bool :=
  isOpen .scrollMomentumBegin .scrollMomentumEnd visual.fired

/-- Drags and momenta begin and end in turn, and none is open at rest. -/
structure InTurn (visual : CompScrollerVisual) : Prop where
  drag : Alternating .scrollBeginDrag .scrollEndDrag visual.fired
  momentum : Alternating .scrollMomentumBegin .scrollMomentumEnd visual.fired
  closed : visual.state = .idle → visual.dragged = false ∧ visual.moving = false

def isDragEvent (event : ScrollEvent) : Bool :=
  event = .scrollBeginDrag || event = .scrollEndDrag

def Programmatic (visual : CompScrollerVisual) (event : Event) (next : CompScrollerVisual) : Prop :=
  match event with
  | .stateEntered _ requestId | .valuesChanged requestId =>
    requestId ≠ 0 → next.fired.filter isDragEvent = visual.fired.filter isDragEvent
  | .scrollBy _ => next.fired = visual.fired

/-- No inertia comes before another one or an animation until the tracker rests, the user brings it about
from a drag only, and his one does not come to rest by itself. -/
def orderly (visual : CompScrollerVisual) : Event → Prop
  | .stateEntered .idle requestId => visual.state = .inertia → requestId ≠ 0
  | .stateEntered .inertia requestId =>
    visual.m_inertia = false ∧ (requestId = 0 → visual.state = .interacting)
  | .stateEntered .customAnimation _ => visual.m_inertia = false
  | _ => True

/-- What is fired so far, on the way through a callback as well. -/
structure Alternates (visual : CompScrollerVisual) : Prop where
  drag : Alternating .scrollBeginDrag .scrollEndDrag visual.fired
  momentum : Alternating .scrollMomentumBegin .scrollMomentumEnd visual.fired

section Alternates

variable {visual : CompScrollerVisual} {drag : Bool}

theorem Alternates.endMomentum (h : visual.Alternates) {moving : Bool}
    (hMoving : visual.moving = moving) :
    (visual.fireIf moving .scrollMomentumEnd).Alternates ∧
      (visual.fireIf moving .scrollMomentumEnd).moving = false ∧
      (visual.fireIf moving .scrollMomentumEnd).dragged = visual.dragged := by
  cases moving with
  | false => exact ⟨h, hMoving, rfl⟩
  | true =>
    refine ⟨⟨?_, ?_⟩, rfl, rfl⟩
    · exact h.drag.other (by decide) (by decide)
    · exact h.momentum.end (by decide) hMoving

theorem Alternates.endDrag (h : visual.Alternates) (hDrag : visual.dragged = drag) :
    (visual.fireIf drag .scrollEndDrag).Alternates ∧
      (visual.fireIf drag .scrollEndDrag).dragged = false ∧
      (visual.fireIf drag .scrollEndDrag).moving = visual.moving := by
  cases drag with
  | false => exact ⟨h, hDrag, rfl⟩
  | true =>
    refine ⟨⟨?_, ?_⟩, rfl, rfl⟩
    · exact h.drag.end (by decide) hDrag
    · exact h.momentum.other (by decide) (by decide)

theorem Alternates.beginDrag (h : visual.Alternates) (hDrag : visual.dragged = false) :
    (visual.fire .scrollBeginDrag).Alternates := by
  constructor
  · exact h.drag.begin (by decide) hDrag
  · exact h.momentum.other (by decide) (by decide)

theorem Alternates.beginMomentum (h : visual.Alternates) (hMoving : visual.moving = false) :
    (visual.fire .scrollMomentumBegin).Alternates := by
  constructor
  · exact h.drag.other (by decide) (by decide)
  · exact h.momentum.begin (by decide) hMoving

theorem Alternates.changePosition (h : visual.Alternates) :
    (visual.fire .scrollPositionChanged).Alternates := by
  constructor
  · exact h.drag.other (by decide) (by decide)
  · exact h.momentum.other (by decide) (by decide)

end Alternates

@[simp]
theorem m_inertia_fireIf (visual : CompScrollerVisual) (condition : Bool) (event : ScrollEvent) :
    (visual.fireIf condition event).m_inertia = visual.m_inertia := by
  cases condition with
  | false | true => rfl

@[simp]
theorem m_interacting_fireIf (visual : CompScrollerVisual) (condition : Bool) (event : ScrollEvent) :
    (visual.fireIf condition event).m_interacting = visual.m_interacting := by
  cases condition with
  | false | true => rfl

@[simp]
theorem fired_fireIf (visual : CompScrollerVisual) (condition : Bool) (event : ScrollEvent) :
    (visual.fireIf condition event).fired =
      if condition then event :: visual.fired else visual.fired := by
  cases condition with
  | false | true => rfl

theorem idleStateEntered_fired (visual : CompScrollerVisual) (requestId : ℕ) :
    (visual.idleStateEntered requestId).fired =
      if visual.m_interacting && requestId == 0 then
        .scrollEndDrag :: if visual.m_inertia then .scrollMomentumEnd :: visual.fired else visual.fired
      else if visual.m_inertia then .scrollMomentumEnd :: visual.fired else visual.fired := by
  simp only [CompScrollerVisual.idleStateEntered, fired_fireIf, m_interacting_fireIf]

theorem inertiaStateEntered_fired (visual : CompScrollerVisual) (requestId : ℕ) :
    (visual.inertiaStateEntered requestId).fired = .scrollMomentumBegin ::
      if visual.m_interacting && requestId == 0 then
        .scrollEndDrag :: if !visual.m_interacting && requestId == 0 then
          .scrollBeginDrag :: visual.fired else visual.fired
      else if !visual.m_interacting && requestId == 0 then
        .scrollBeginDrag :: visual.fired else visual.fired := by
  simp only [CompScrollerVisual.inertiaStateEntered, fire, fired_fireIf, m_interacting_fireIf]

theorem valuesChanged_fired (visual : CompScrollerVisual) (requestId : ℕ) :
    (visual.valuesChanged requestId).fired = .scrollPositionChanged ::
      if !visual.m_interacting && requestId == 0 then .scrollBeginDrag :: visual.fired
      else visual.fired := by
  simp only [CompScrollerVisual.valuesChanged, fire, fired_fireIf]

/-- A drag is open while the user interacts, a momentum while `m_inertia` says so. -/
structure Following (visual : CompScrollerVisual) : Prop where
  alternates : visual.Alternates
  dragged : visual.dragged = decide (visual.state = .interacting)
  moving : visual.moving = visual.m_inertia
  idle : visual.state = .idle → visual.m_inertia = false
  byUser : visual.state = .interacting → visual.requestId = 0
  interacting : visual.state = .interacting ∨ visual.state = .inertia → visual.requestId = 0 →
    visual.m_interacting = true
  byRequest : visual.state = .customAnimation → visual.requestId ≠ 0

theorem following_initial : initial.Following := by
  constructor
  · exact ⟨trivial, trivial⟩
  · rfl
  · rfl
  · exact fun _ => rfl
  · exact fun _ => rfl
  · exact fun hState => hState.elim nofun nofun
  · exact nofun

variable {visual t : CompScrollerVisual} {event : Event} {requestId : ℕ}

variable (h : visual.Following)
include h

theorem Following.inTurn : visual.InTurn := by
  refine ⟨h.alternates.drag, h.alternates.momentum, fun hIdle => ⟨?_, ?_⟩⟩
  · rw [h.dragged, hIdle]
    rfl
  · rw [h.moving, h.idle hIdle]

/-- What was a drag is one no more. -/
theorem Following.idleStateEntered (hEnter : visual.canEnter requestId .idle)
    (hOrderly : visual.orderly (.stateEntered .idle requestId)) :
    Following { visual.idleStateEntered requestId with state := .idle, requestId } := by
  have hEnd : (visual.m_interacting && requestId == 0) = visual.dragged := by
    rw [h.dragged]
    cases hState : visual.state with
    | idle => exact absurd hState hEnter.1
    | interacting =>
      have hUser := hEnter.2.2 hState
      simp [hUser, h.interacting (Or.inl hState) (h.byUser hState)]
    | inertia => simp [hOrderly hState]
    | customAnimation =>
      have hRequest : requestId ≠ 0 := fun hUser => h.byRequest hState (hEnter.2.1 hUser)
      simp [hRequest]
  obtain ⟨hAlternates, hMoving, hDragged⟩ := h.alternates.endMomentum h.moving
  obtain ⟨hEnded, hNotDragged, hSame⟩ := hAlternates.endDrag rfl
  rw [hDragged, ← hEnd] at hEnded hNotDragged hSame
  have hEq : visual.idleStateEntered requestId =
      { (visual.fireIf visual.m_inertia .scrollMomentumEnd).fireIf
          (visual.m_interacting && requestId == 0) .scrollEndDrag with
        m_custom := false, m_inertia := false, m_interacting := false } := by
    simp only [CompScrollerVisual.idleStateEntered, m_interacting_fireIf]
  rw [hEq]
  constructor
  · exact ⟨hEnded.drag, hEnded.momentum⟩
  · exact hNotDragged
  · exact hSame.trans hMoving
  · exact fun _ => rfl
  · exact nofun
  · exact fun hState => hState.elim nofun nofun
  · exact nofun

theorem Following.interactingStateEntered (hEnter : visual.canEnter requestId .interacting) :
    Following { visual.interactingStateEntered with state := .interacting, requestId } := by
  have hClosed : visual.dragged = false := by
    rw [h.dragged]
    exact decide_eq_false hEnter.1
  have hBegun := h.alternates.beginDrag hClosed
  constructor
  · exact ⟨hBegun.drag, hBegun.momentum⟩
  · rfl
  · exact h.moving
  · exact nofun
  · exact fun _ => hEnter.2
  · exact fun _ _ => rfl
  · exact nofun

theorem Following.inertiaStateEntered (hEnter : visual.canEnter requestId .inertia)
    (hOrderly : visual.orderly (.stateEntered .inertia requestId)) :
    Following { visual.inertiaStateEntered requestId with state := .inertia, requestId } := by
  have hUser : requestId = 0 → visual.m_interacting = true := by
    intro hZero
    have hState := hOrderly.2 hZero
    exact h.interacting (Or.inl hState) (h.byUser hState)
  have hNone : (!visual.m_interacting && requestId == 0) = false := by
    by_cases hZero : requestId = 0
    · simp [hUser hZero]
    · simp [hZero]
  have hEnd : (visual.m_interacting && requestId == 0) = visual.dragged := by
    rw [h.dragged]
    by_cases hZero : requestId = 0
    · simp [hZero, hUser hZero, hOrderly.2 hZero]
    · have hState : visual.state ≠ .interacting := fun hState => hZero (hEnter hState)
      simp [hZero, hState]
  obtain ⟨hEnded, hNotDragged, hSame⟩ := h.alternates.endDrag rfl
  rw [← hEnd] at hEnded hNotDragged hSame
  have hMoving := hSame.trans (h.moving.trans hOrderly.1)
  have hBegun := hEnded.beginMomentum hMoving
  have hFired : (visual.inertiaStateEntered requestId).fired =
      ((visual.fireIf (visual.m_interacting && requestId == 0) .scrollEndDrag).fire
        .scrollMomentumBegin).fired := by
    simp only [inertiaStateEntered_fired, fire, fired_fireIf, hNone, Bool.false_eq_true, if_false]
  constructor
  · constructor
    · show Alternating _ _ (visual.inertiaStateEntered requestId).fired
      rw [hFired]
      exact hBegun.drag
    · show Alternating _ _ (visual.inertiaStateEntered requestId).fired
      rw [hFired]
      exact hBegun.momentum
  · show isOpen _ _ (visual.inertiaStateEntered requestId).fired = false
    rw [hFired]
    exact hNotDragged
  · show isOpen _ _ (visual.inertiaStateEntered requestId).fired =
      (visual.inertiaStateEntered requestId).m_inertia
    rw [hFired]
    simp only [CompScrollerVisual.inertiaStateEntered, fire, m_inertia_fireIf]
    rfl
  · intro hState
    cases hState
  · intro hState
    cases hState
  · intro _ hZero
    simp only [CompScrollerVisual.inertiaStateEntered, fire, m_interacting_fireIf]
    exact hUser hZero
  · intro hState
    cases hState

theorem Following.customAnimationStateEntered (hEnter : visual.canEnter requestId .customAnimation)
    (hOrderly : visual.orderly (.stateEntered .customAnimation requestId)) :
    Following { visual.customAnimationStateEntered with state := .customAnimation, requestId } := by
  constructor
  · exact ⟨h.alternates.drag, h.alternates.momentum⟩
  · exact h.dragged.trans (decide_eq_false hEnter.1)
  · exact h.moving.trans hOrderly
  · exact nofun
  · exact nofun
  · exact fun hState => hState.elim nofun nofun
  · exact fun _ => hEnter.2

/-- No values change by the user before he interacts. -/
theorem Following.valuesChanged (hChange : visual.canChangeValues requestId) :
    (visual.valuesChanged requestId).Following := by
  have hNone : (!visual.m_interacting && requestId == 0) = false := by
    by_cases hZero : requestId = 0
    · have hState : visual.state = .interacting ∨ visual.state = .inertia := by
        rw [canChangeValues] at hChange
        cases hState : visual.state with
        | idle =>
          rw [if_pos hState] at hChange
          exact absurd hZero hChange
        | interacting => exact Or.inl rfl
        | inertia => exact Or.inr rfl
        | customAnimation =>
          rw [if_neg (by rw [hState]; decide)] at hChange
          exact absurd (hChange.symm.trans hZero) (h.byRequest hState)
      have hCurrent : visual.requestId = 0 := by
        rw [canChangeValues, if_neg] at hChange
        · exact hChange.symm.trans hZero
        · rcases hState with hState | hState
          · rw [hState]
            decide
          · rw [hState]
            decide
      simp [h.interacting hState hCurrent]
    · simp [hZero]
  have hChanged := h.alternates.changePosition
  simp only [CompScrollerVisual.valuesChanged, hNone]
  constructor
  · exact ⟨hChanged.drag, hChanged.momentum⟩
  · exact h.dragged
  · exact h.moving
  · exact h.idle
  · exact h.byUser
  · exact fun _ _ => rfl
  · exact h.byRequest

theorem Following.scrollBy (animate : Bool) : (visual.scrollBy animate).Following := by
  cases animate with
  | false => exact h
  | true =>
    exact ⟨⟨h.alternates.drag, h.alternates.momentum⟩, h.dragged, h.moving, h.idle, h.byUser,
      h.interacting, h.byRequest⟩

theorem Following.next (hOrderly : visual.orderly event) (hStep : visual.step event = some t) :
    t.Following := by
  cases event with
  | stateEntered state requestId =>
    simp only [step] at hStep
    split at hStep
    next hEnter =>
      cases hStep
      cases state with
      | idle => exact h.idleStateEntered hEnter hOrderly
      | interacting => exact h.interactingStateEntered hEnter
      | inertia => exact h.inertiaStateEntered hEnter hOrderly
      | customAnimation => exact h.customAnimationStateEntered hEnter hOrderly
    next => cases hStep
  | valuesChanged requestId =>
    simp only [step] at hStep
    split at hStep
    next hChange =>
      cases hStep
      exact h.valuesChanged hChange
    next => cases hStep
  | scrollBy animate =>
    cases hStep
    exact h.scrollBy animate

omit h

theorem not_moving_of_inertia (h : Alternating .scrollMomentumBegin .scrollMomentumEnd
    (visual.inertiaStateEntered requestId).fired) : visual.moving = false := by
  rw [inertiaStateEntered_fired] at h
  have hClosed := h.1 rfl
  cases hEnds : visual.m_interacting && requestId == 0 with
  | false | true =>
    cases hBegins : !visual.m_interacting && requestId == 0 with
    | false | true =>
      rw [hEnds, hBegins] at hClosed
      exact hClosed

/-- A momentum is open that `m_inertia` has forgotten, or a drag that `m_interacting` does not know. -/
def Doomed (visual : CompScrollerVisual) : Prop :=
  visual.moving = true ∧ (visual.m_inertia = false ∨
    (visual.state = .inertia ∧ visual.requestId = 0 ∧ visual.m_interacting = false ∧
      visual.dragged = true))

/-- The drag and the momentum of the lost are not closed by an idle tracker. -/
theorem Doomed.not_idle (h : visual.Doomed) (hInTurn : visual.InTurn) : visual.state ≠ .idle := by
  intro hIdle
  exact absurd (h.1.symm.trans (hInTurn.closed hIdle).2) Bool.noConfusion

theorem Doomed.next (h : visual.Doomed) (hStep : visual.step event = some t) (hInTurn : t.InTurn) :
    t.Doomed := by
  obtain ⟨hMoving, hDoomed⟩ := h
  cases event with
  | stateEntered state requestId =>
    simp only [step] at hStep
    split at hStep
    next hEnter =>
      cases hStep
      cases state with
      | idle =>
        exfalso
        obtain ⟨hDragClosed, hMomentumClosed⟩ := hInTurn.closed rfl
        rcases hDoomed with hInertia | ⟨-, -, hInteracting, hDragged⟩
        · have hOpen : isOpen .scrollMomentumBegin .scrollMomentumEnd
              (visual.idleStateEntered requestId).fired = true := by
            rw [idleStateEntered_fired, hInertia]
            cases visual.m_interacting && requestId == 0 with
            | false | true => exact hMoving
          exact absurd (hOpen.symm.trans hMomentumClosed) Bool.noConfusion
        · have hOpen : isOpen .scrollBeginDrag .scrollEndDrag
              (visual.idleStateEntered requestId).fired = true := by
            rw [idleStateEntered_fired, hInteracting]
            cases visual.m_inertia with
            | false | true => exact hDragged
          exact absurd (hOpen.symm.trans hDragClosed) Bool.noConfusion
      | interacting =>
        rcases hDoomed with hInertia | ⟨-, -, -, hDragged⟩
        · exact ⟨hMoving, Or.inl hInertia⟩
        · have hClosed := hInTurn.drag.1 rfl
          exact absurd (hDragged.symm.trans hClosed) Bool.noConfusion
      | inertia =>
        have hClosed := not_moving_of_inertia hInTurn.momentum
        exact absurd (hMoving.symm.trans hClosed) Bool.noConfusion
      | customAnimation => exact ⟨hMoving, Or.inl rfl⟩
    next => cases hStep
  | valuesChanged requestId =>
    simp only [step] at hStep
    split at hStep
    next hChange =>
      cases hStep
      have hSame : (visual.valuesChanged requestId).moving = visual.moving := by
        rw [moving, valuesChanged_fired]
        cases !visual.m_interacting && requestId == 0 with
        | false | true => rfl
      rcases hDoomed with hInertia | ⟨hState, hUser, hInteracting, hDragged⟩
      · refine ⟨hSame.trans hMoving, Or.inl ?_⟩
        simp only [CompScrollerVisual.valuesChanged, fire, m_inertia_fireIf]
        exact hInertia
      · exfalso
        rw [canChangeValues, if_neg (by rw [hState]; decide), hUser] at hChange
        have hDrag := hInTurn.drag
        rw [valuesChanged_fired, hInteracting, hChange] at hDrag
        have hClosed := hDrag.2.2.1 rfl
        exact absurd (hDragged.symm.trans hClosed) Bool.noConfusion
    next => cases hStep
  | scrollBy animate =>
    cases hStep
    cases animate with
    | false | true => exact ⟨hMoving, hDoomed⟩

/-- A step out of order fires an event out of turn, or loses what is open. -/
theorem Following.slip (h : visual.Following) (hSlip : ¬ visual.orderly event)
    (hStep : visual.step event = some t) (hInTurn : t.InTurn) : t.Doomed := by
  cases event with
  | stateEntered state requestId =>
    simp only [step] at hStep
    split at hStep
    next hEnter =>
      cases hStep
      cases state with
      | idle =>
        -- the user's inertia ends, and its drag has ended before
        exfalso
        simp only [orderly, Classical.not_imp, ne_eq, not_not] at hSlip
        obtain ⟨hState, hZero⟩ := hSlip
        have hInteracting := h.interacting (Or.inr hState) (hEnter.2.1 hZero)
        have hDrag : Alternating .scrollBeginDrag .scrollEndDrag
            (visual.idleStateEntered requestId).fired := hInTurn.drag
        rw [idleStateEntered_fired, hInteracting, hZero] at hDrag
        have hOpen := hDrag.2.1 rfl
        have hClosed : visual.dragged = false := by
          rw [h.dragged, hState]
          rfl
        cases hInertia : visual.m_inertia with
        | false | true =>
          rw [hInertia] at hOpen
          exact absurd (hOpen.symm.trans hClosed) Bool.noConfusion
      | interacting => exact absurd trivial hSlip
      | inertia =>
        have hNotMoving := not_moving_of_inertia hInTurn.momentum
        rw [orderly, not_and, Classical.not_imp] at hSlip
        obtain ⟨hZero, hState⟩ := hSlip (h.moving.symm.trans hNotMoving)
        have hClosed : visual.dragged = false := by
          rw [h.dragged]
          exact decide_eq_false hState
        have hDrag : Alternating .scrollBeginDrag .scrollEndDrag
            (visual.inertiaStateEntered requestId).fired := hInTurn.drag
        rw [inertiaStateEntered_fired, hZero] at hDrag
        cases hInteracting : visual.m_interacting with
        | true =>
          rw [hInteracting] at hDrag
          have hOpen := hDrag.2.2.2.1 rfl
          exact absurd (hOpen.symm.trans hClosed) Bool.noConfusion
        | false =>
          -- the wheel begins a drag that nothing ends
          refine ⟨?_, Or.inr ⟨rfl, hZero, ?_, ?_⟩⟩
          · show isOpen _ _ (visual.inertiaStateEntered requestId).fired = true
            rw [inertiaStateEntered_fired]
            rfl
          · show (visual.inertiaStateEntered requestId).m_interacting = false
            simp only [CompScrollerVisual.inertiaStateEntered, fire, m_interacting_fireIf]
            exact hInteracting
          · show isOpen _ _ (visual.inertiaStateEntered requestId).fired = true
            rw [inertiaStateEntered_fired, hInteracting, hZero]
            rfl
      | customAnimation =>
        have hInertia : visual.m_inertia = true := (Bool.not_eq_false _).mp hSlip
        exact ⟨h.moving.trans hInertia, Or.inl rfl⟩
    next => cases hStep
  | valuesChanged requestId => exact absurd trivial hSlip
  | scrollBy animate => exact absurd trivial hSlip

/-- Only user input fires drag events, or what follows it. -/
theorem programmatic_of_step (hStep : visual.step event = some t) : visual.Programmatic event t := by
  cases event with
  | stateEntered state requestId =>
    simp only [step] at hStep
    split at hStep
    next hEnter =>
      cases hStep
      intro hRequest
      have hNotUser : ∀ condition : Bool, (condition && requestId == 0) = false := by
        intro condition
        simp [hRequest]
      cases state with
      | idle =>
        show (visual.idleStateEntered requestId).fired.filter isDragEvent = _
        rw [idleStateEntered_fired, hNotUser]
        cases visual.m_inertia with
        | false | true => rfl
      | interacting => exact absurd hEnter.2 hRequest
      | inertia =>
        show (visual.inertiaStateEntered requestId).fired.filter isDragEvent = _
        rw [inertiaStateEntered_fired, hNotUser, hNotUser]
        rfl
      | customAnimation => rfl
    next => cases hStep
  | valuesChanged requestId =>
    simp only [step] at hStep
    split at hStep
    next hChange =>
      cases hStep
      intro hRequest
      have hNotUser : (!visual.m_interacting && requestId == 0) = false := by simp [hRequest]
      rw [valuesChanged_fired, hNotUser]
      rfl
    next => cases hStep
  | scrollBy animate =>
    cases hStep
    cases animate with
    | false | true => rfl

/-- What is requested fires no drag event in any run. Where the steps are orderly, drags and momenta begin
and end in turn and none is open at rest; and a run that comes to rest with that was orderly. -/
theorem scroll_events_in_turn (events : List Event) :
    Along step Programmatic initial events ∧
      (Allowed step orderly initial events → Throughout step InTurn initial events) ∧
      ∀ last, events.foldlM step initial = some last → last.state = .idle →
        Throughout step InTurn initial events → Allowed step orderly initial events := by
  refine ⟨?_, ?_, ?_⟩
  · exact Control.along_of_step (P := fun _ => True) trivial (fun _ _ _ _ _ => trivial)
      fun _ _ _ _ hStep => programmatic_of_step hStep
  · intro hOrderly
    have hFollowing := hOrderly.throughout following_initial fun _ _ _ hInv hOk hStep =>
      hInv.next hOk hStep
    exact hFollowing.imp fun _ hInv => hInv.inTurn
  · intro last hRun hIdle hInTurn
    apply hInTurn.allowed (P := Following) (D := Doomed) hRun
    · exact fun hLast hDoomed => hDoomed.not_idle hLast hIdle
    · exact following_initial
    · exact fun _ _ _ hInv hOk hStep => hInv.next hOk hStep
    · exact fun _ _ _ hInv hSlip hStep hNext => hInv.slip hSlip hStep hNext
    · exact fun _ _ _ hDoomed hStep hNext => hDoomed.next hStep hNext

/-- A fling: the drag ends when the user lets go, and once more at rest. -/
theorem fling_out_of_turn :
    ¬ Throughout step InTurn initial
      [.stateEntered .interacting 0, .stateEntered .inertia 0, .stateEntered .idle 0] := by
  intro h
  have hEnd := (h.last rfl).drag
  exact absurd (hEnd.2.1 rfl) Bool.noConfusion

end CompScrollerVisual

end Fabric
