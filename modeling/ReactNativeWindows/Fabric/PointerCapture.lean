import Mathlib.Data.List.Nodup
import ReactNativeWindows.Control.Traces

/-! Pointer capture in `CompositionEventHandler`. The capturing view is known by its tag only, and the
views come and go in the `ComponentViewRegistry`. -/
namespace Fabric

open Control (Throughout Allowed Along)

variable {PointerId Tag : Type}

/-- What is left to do of a call that tells a view of its loss, and waits for that view. -/
inductive CaptureCall (PointerId Tag : Type) where
  | capturePointer (pointerId : PointerId) (tag : Tag)
  | releasePointerCapture
  | onPointerCaptureLost (capturedPointers : List PointerId)

/-- A tag of -1 is none here. `calls` has the innermost call first, and `told` the newest
`OnPointerCaptureLost`. -/
structure PointerCapture (PointerId Tag : Type) where
  m_registry : Tag → Bool
  rootComponentView : Bool
  m_pointerCapturingComponentTag : Option Tag
  m_capturedPointers : List PointerId
  calls : List (CaptureCall PointerId Tag)
  told : List Tag
  crashed : Bool

inductive Fault where
  | nullView
  | assertionFailed

inductive PointerEventKind where
  | pressed
  | moved
  | released
  | exited
  deriving DecidableEq

namespace PointerCapture

def initial : PointerCapture PointerId Tag := ⟨fun _ => false, false, none, [], [], [], false⟩

/-- Where no view is registered a build with assertions stops. One without them gives a descriptor with a
null view, as the guards of the callers have it. -/
def componentViewDescriptorWithTag (asserts : Bool) (s : PointerCapture PointerId Tag)
    (tag : Option Tag) : Except Fault (Option Tag) :=
  match tag.filter s.m_registry with
  | some tag => .ok (some tag)
  | none => if asserts then .error .assertionFailed else .ok none

def dereference (view : Option Tag) : Except Fault Tag :=
  match view with
  | some tag => .ok tag
  | none => .error .nullView

section Handlers

variable [DecidableEq PointerId] [DecidableEq Tag] (asserts : Bool)

/-- `hitTest` is what the root view finds at the point, a mounted view or none. -/
def getTargetPointerArgs (s : PointerCapture PointerId Tag) (pointerId : PointerId)
    (hitTest : Option Tag) : Except Fault (Option Tag) :=
  if s.rootComponentView = false then .ok none
  else if pointerId ∈ s.m_capturedPointers then do
    let tag := s.m_pointerCapturingComponentTag
    let _ ← dereference (← s.componentViewDescriptorWithTag asserts tag)
    .ok tag
  else .ok hitTest

/-- A handler up to the place where its target's own handler runs. `onPointerExited` needs no target. -/
def handle (s : PointerCapture PointerId Tag) (kind : PointerEventKind) (pointerId : PointerId)
    (hitTest : Option Tag) : Except Fault Unit := do
  let tag ← s.getTargetPointerArgs asserts pointerId hitTest
  if tag.isNone || kind = .exited then .ok ()
  else do
    let _ ← dereference (← s.componentViewDescriptorWithTag asserts tag)
    .ok ()

def insertCapturedPointer (s : PointerCapture PointerId Tag) (pointerId : PointerId) (tag : Tag) :
    PointerCapture PointerId Tag :=
  { s with
    m_pointerCapturingComponentTag := some tag
    m_capturedPointers := s.m_capturedPointers.insert pointerId }

def resetIfEmpty (s : PointerCapture PointerId Tag) : PointerCapture PointerId Tag :=
  if s.m_capturedPointers = [] then { s with m_pointerCapturingComponentTag := none } else s

/-- `OnPointerCaptureLost` of a view begins, inside of the call. -/
def tell (s : PointerCapture PointerId Tag) (tag : Tag) (call : CaptureCall PointerId Tag) :
    PointerCapture PointerId Tag :=
  { s with told := tag :: s.told, calls := call :: s.calls }

def capturePointer (s : PointerCapture PointerId Tag) (pointerId : PointerId) (tag : Tag) :
    Except Fault (PointerCapture PointerId Tag) :=
  match s.m_pointerCapturingComponentTag with
  | none => .ok (s.insertCapturedPointer pointerId tag)
  | some capturing => do
    let s := { s with m_capturedPointers := [] }
    match ← s.componentViewDescriptorWithTag asserts (some capturing) with
    | some view => .ok (s.tell view (.capturePointer pointerId tag))
    | none => .ok (s.insertCapturedPointer pointerId tag)

def releasePointerCapture (s : PointerCapture PointerId Tag) (pointerId : PointerId)
    (tag : Option Tag) : Except Fault (PointerCapture PointerId Tag) :=
  if s.m_pointerCapturingComponentTag = tag ∧ pointerId ∈ s.m_capturedPointers then do
    let s := { s with m_capturedPointers := s.m_capturedPointers.erase pointerId }
    match ← s.componentViewDescriptorWithTag asserts s.m_pointerCapturingComponentTag with
    | some view => .ok (s.tell view .releasePointerCapture)
    | none => .ok s.resetIfEmpty
  else .ok s

def onPointerCaptureLost (s : PointerCapture PointerId Tag) : PointerCapture PointerId Tag :=
  if s.m_pointerCapturingComponentTag = none then s
  else { s with calls := .onPointerCaptureLost s.m_capturedPointers :: s.calls }

def proceed (s : PointerCapture PointerId Tag) :
    Option (Except Fault (PointerCapture PointerId Tag)) :=
  match s.calls with
  | [] => none
  | .capturePointer pointerId tag :: calls =>
    some (.ok ({ s with calls }.insertCapturedPointer pointerId tag))
  | .releasePointerCapture :: calls => some (.ok { s with calls }.resetIfEmpty)
  | .onPointerCaptureLost [] :: calls =>
    some (.ok { s with calls, m_pointerCapturingComponentTag := none })
  | .onPointerCaptureLost (pointerId :: rest) :: calls =>
    some ({ s with calls := .onPointerCaptureLost rest :: calls }.releasePointerCapture asserts
      pointerId s.m_pointerCapturingComponentTag)

def orCrash (s : PointerCapture PointerId Tag) :
    Except Fault (PointerCapture PointerId Tag) → PointerCapture PointerId Tag
  | .ok next => next
  | .error _ => { s with crashed := true }

/-- What happens on the UI thread. While a call waits for a view or dispatches a canceled touch, anything
else may happen. `proceed` lets the innermost call go on. -/
inductive Event (PointerId Tag : Type) where
  | register (tag : Tag)
  | unregister (tag : Tag)
  | setRootComponentView (present : Bool)
  | capturePointer (pointerId : PointerId) (tag : Tag)
  | releasePointerCapture (pointerId : PointerId) (tag : Tag)
  | onPointerCaptureLost
  | proceed
  | pointer (kind : PointerEventKind) (pointerId : PointerId) (hitTest : Option Tag)

/-- A released pointer that has no active touch is not looked at. What is hit is registered: views are
removed from their parents before they are deleted. -/
def step (s : PointerCapture PointerId Tag) (event : Event PointerId Tag) :
    Option (PointerCapture PointerId Tag) :=
  if s.crashed then none
  else match event with
    | .register tag => some { s with m_registry := Function.update s.m_registry tag true }
    | .unregister tag => some { s with m_registry := Function.update s.m_registry tag false }
    | .setRootComponentView present => some { s with rootComponentView := present }
    | .capturePointer pointerId tag => some (s.orCrash (s.capturePointer asserts pointerId tag))
    | .releasePointerCapture pointerId tag =>
      some (s.orCrash (s.releasePointerCapture asserts pointerId (some tag)))
    | .onPointerCaptureLost => some s.onPointerCaptureLost
    | .proceed => (s.proceed asserts).map s.orCrash
    | .pointer kind pointerId hitTest =>
      if hitTest.all s.m_registry then
        some (s.orCrash ((s.handle asserts kind pointerId hitTest).map fun _ => s))
      else none

end Handlers

/-- No null view is dereferenced and no assertion fails, and between the calls a view captures exactly
where pointers are captured. -/
structure Consistent (s : PointerCapture PointerId Tag) : Prop where
  alive : s.crashed = false
  captures : s.calls = [] → (s.m_pointerCapturingComponentTag = none ↔ s.m_capturedPointers = [])

/-- A registered view that loses its last captured pointer, or the capture to another one, is told. -/
def TellsLoss (s : PointerCapture PointerId Tag) (_ : Event PointerId Tag)
    (t : PointerCapture PointerId Tag) : Prop :=
  ∀ tag, s.m_pointerCapturingComponentTag = some tag → s.m_capturedPointers ≠ [] →
    s.m_registry tag = true →
      (t.m_capturedPointers = [] ∨ t.m_pointerCapturingComponentTag ≠ some tag) → t.told = tag :: s.told

def Registered (s : PointerCapture PointerId Tag) : Prop :=
  ∀ tag, s.m_pointerCapturingComponentTag = some tag → s.m_registry tag = true

/-- The view that captures a pointer is registered when the pointer has an event, and no view captures a
pointer while another one loses the capture. With assertions, the view is also registered when it loses a
pointer. -/
def orderly (asserts : Bool) (s : PointerCapture PointerId Tag) : Event PointerId Tag → Prop
  | .pointer _ pointerId _ =>
    pointerId ∈ s.m_capturedPointers → s.rootComponentView = true → s.Registered
  | .capturePointer _ _ =>
    (∀ call ∈ s.calls, call = .releasePointerCapture) ∧ (asserts = true → s.Registered)
  | .releasePointerCapture pointerId tag => asserts = true →
    s.m_pointerCapturingComponentTag = some tag → pointerId ∈ s.m_capturedPointers → s.Registered
  | .proceed => asserts = true → ∀ pointerId rest calls,
    s.calls = .onPointerCaptureLost (pointerId :: rest) :: calls → pointerId ∈ s.m_capturedPointers →
      s.Registered
  | _ => True

/-- Under a view that waits to capture, only releases wait. -/
def Nested : List (CaptureCall PointerId Tag) → Prop
  | [] => True
  | .capturePointer _ _ :: calls => (∀ call ∈ calls, call = .releasePointerCapture) ∧ Nested calls
  | _ :: calls => Nested calls

theorem nested_of_releases {calls : List (CaptureCall PointerId Tag)}
    (h : ∀ call ∈ calls, call = .releasePointerCapture) : Nested calls := by
  induction calls with
  | nil => trivial
  | cons call calls ih =>
    rw [h call List.mem_cons_self]
    exact ih fun other hMem => h other (List.mem_cons_of_mem _ hMem)

structure Kept (s : PointerCapture PointerId Tag) (current : List PointerId) : Prop where
  alive : s.crashed = false
  nodup : s.m_capturedPointers.Nodup
  capturing : s.m_capturedPointers ≠ [] → s.m_pointerCapturingComponentTag ≠ none
  captures : s.calls = [] → s.m_pointerCapturingComponentTag ≠ none → s.m_capturedPointers ≠ []
  nested : Nested s.calls
  waiting : ∀ pointerId tag, .capturePointer pointerId tag ∈ s.calls → s.m_capturedPointers = []
  losing : ∀ pointers, .onPointerCaptureLost pointers ∈ s.calls →
    ∀ pointerId ∈ s.m_capturedPointers, pointerId ∈ current ∨ pointerId ∈ pointers

variable [DecidableEq PointerId] [DecidableEq Tag] {asserts : Bool} {s t : PointerCapture PointerId Tag}
  {pointerId : PointerId} {tag : Tag} {current : List PointerId}

omit [DecidableEq PointerId] [DecidableEq Tag] in
theorem kept_initial : (initial : PointerCapture PointerId Tag).Kept [] := by
  constructor
  · rfl
  · exact List.nodup_nil
  · exact fun hNe => absurd rfl hNe
  · exact fun _ hNe => absurd rfl hNe
  · trivial
  · exact fun _ _ hMem => nomatch hMem
  · exact fun _ hMem => nomatch hMem

omit [DecidableEq Tag] in
/-- A view captures a pointer while no other call than a release waits. -/
theorem kept_insert (hAlive : s.crashed = false) (hNodup : s.m_capturedPointers.Nodup)
    (hCalls : ∀ call ∈ s.calls, call = .releasePointerCapture) (pointerId : PointerId)
    (tag : Tag) : (s.insertCapturedPointer pointerId tag).Kept [] := by
  constructor
  · exact hAlive
  · exact hNodup.insert
  · exact fun _ => Option.some_ne_none tag
  · intro _ _ hNil
    have hMem : pointerId ∈ s.m_capturedPointers.insert pointerId := List.mem_insert_self
    rw [show s.m_capturedPointers.insert pointerId = [] from hNil] at hMem
    cases hMem
  · exact nested_of_releases hCalls
  · intro _ _ hMem
    cases hCalls _ hMem
  · intro _ hMem
    cases hCalls _ hMem

omit [DecidableEq PointerId] [DecidableEq Tag] in
theorem componentViewDescriptorWithTag_of_registered (h : s.m_registry tag = true) :
    s.componentViewDescriptorWithTag asserts (some tag) = .ok (some tag) := by
  rw [componentViewDescriptorWithTag, Option.filter_some, if_pos h]

omit [DecidableEq PointerId] [DecidableEq Tag] in
theorem componentViewDescriptorWithTag_of_not {view : Option Tag}
    (h : ∀ tag, view = some tag → s.m_registry tag ≠ true) :
    s.componentViewDescriptorWithTag asserts view =
      if asserts then .error .assertionFailed else .ok none := by
  have hNone : view.filter s.m_registry = none := by
    cases view with
    | none => rfl
    | some tag => rw [Option.filter_some, if_neg (h tag rfl)]
  rw [componentViewDescriptorWithTag, hNone]

omit [DecidableEq Tag] in
theorem Kept.capturePointer (h : s.Kept [])
    (hCalls : ∀ call ∈ s.calls, call = .releasePointerCapture)
    (hFound : asserts = true → s.Registered) (pointerId : PointerId) (tag : Tag) :
    ∃ next, s.capturePointer asserts pointerId tag = .ok next ∧ next.Kept [] := by
  rw [PointerCapture.capturePointer]
  split
  next => exact ⟨_, rfl, kept_insert h.alive h.nodup hCalls pointerId tag⟩
  next capturing hCapturing =>
    by_cases hRegistered : s.m_registry capturing = true
    · have hView : componentViewDescriptorWithTag asserts { s with m_capturedPointers := [] }
          (some capturing) = .ok (some capturing) :=
        componentViewDescriptorWithTag_of_registered hRegistered
      dsimp only
      rw [hView]
      refine ⟨_, rfl, ?_⟩
      constructor
      · exact h.alive
      · exact List.nodup_nil
      · exact fun hNe => absurd rfl hNe
      · exact fun hNil => absurd hNil (List.cons_ne_nil _ _)
      · exact ⟨hCalls, nested_of_releases hCalls⟩
      · exact fun _ _ _ => rfl
      · exact fun _ _ _ hMem => nomatch hMem
    · have hNot : asserts ≠ true := fun hAsserts => hRegistered (hFound hAsserts capturing hCapturing)
      have hView : componentViewDescriptorWithTag asserts { s with m_capturedPointers := [] }
          (some capturing) = .ok none := by
        rw [componentViewDescriptorWithTag_of_not fun tag hTag => Option.some.inj hTag ▸ hRegistered,
          if_neg hNot]
      dsimp only
      rw [hView]
      refine ⟨_, rfl, ?_⟩
      apply kept_insert
      · exact h.alive
      · exact List.nodup_nil
      · exact hCalls

/-- What a release does: nothing, or a view is told of the pointer it loses, or there is none to tell. -/
theorem releasePointerCapture_cases (asserts : Bool) (s : PointerCapture PointerId Tag)
    (pointerId : PointerId) (tag : Option Tag) :
    (s.releasePointerCapture asserts pointerId tag = .ok s ∧
        (s.m_pointerCapturingComponentTag = tag → pointerId ∉ s.m_capturedPointers)) ∨
      (s.m_pointerCapturingComponentTag = tag ∧ pointerId ∈ s.m_capturedPointers ∧
        ((∃ view, s.m_pointerCapturingComponentTag = some view ∧ s.m_registry view = true ∧
          s.releasePointerCapture asserts pointerId tag =
            .ok ({ s with m_capturedPointers := s.m_capturedPointers.erase pointerId }.tell view
              .releasePointerCapture)) ∨
        ((∀ view, s.m_pointerCapturingComponentTag = some view → s.m_registry view ≠ true) ∧
          s.releasePointerCapture asserts pointerId tag =
            if asserts then .error .assertionFailed
            else .ok { s with
              m_capturedPointers := s.m_capturedPointers.erase pointerId }.resetIfEmpty))) := by
  rw [releasePointerCapture]
  split
  next hErase =>
    refine Or.inr ⟨hErase.1, hErase.2, ?_⟩
    by_cases hView : ∃ view, s.m_pointerCapturingComponentTag = some view ∧ s.m_registry view = true
    · obtain ⟨view, hTag, hRegistered⟩ := hView
      have hFound : componentViewDescriptorWithTag asserts
          { s with m_capturedPointers := s.m_capturedPointers.erase pointerId }
            s.m_pointerCapturingComponentTag = .ok (some view) := by
        rw [hTag]
        exact componentViewDescriptorWithTag_of_registered hRegistered
      refine Or.inl ⟨view, hTag, hRegistered, ?_⟩
      dsimp only
      rw [hFound]
      rfl
    · have hNone : ∀ view, s.m_pointerCapturingComponentTag = some view → s.m_registry view ≠ true :=
        fun view hTag hRegistered => hView ⟨view, hTag, hRegistered⟩
      have hLost : componentViewDescriptorWithTag asserts
          { s with m_capturedPointers := s.m_capturedPointers.erase pointerId }
            s.m_pointerCapturingComponentTag = if asserts then .error .assertionFailed else .ok none :=
        componentViewDescriptorWithTag_of_not hNone
      refine Or.inr ⟨hNone, ?_⟩
      dsimp only
      rw [hLost]
      cases asserts <;> rfl
  next hErase => exact Or.inl ⟨rfl, fun hTag hMem => hErase ⟨hTag, hMem⟩⟩

omit [DecidableEq PointerId] [DecidableEq Tag] in
/-- A call of the last release has returned. -/
theorem kept_resetIfEmpty (hAlive : s.crashed = false) (hNodup : s.m_capturedPointers.Nodup)
    (hCapturing : s.m_capturedPointers ≠ [] → s.m_pointerCapturingComponentTag ≠ none)
    (hNested : Nested s.calls)
    (hWaiting : ∀ pointerId tag, .capturePointer pointerId tag ∈ s.calls → s.m_capturedPointers = [])
    (hLosing : ∀ pointers, .onPointerCaptureLost pointers ∈ s.calls →
      ∀ pointerId ∈ s.m_capturedPointers, pointerId ∈ current ∨ pointerId ∈ pointers) :
    s.resetIfEmpty.Kept current := by
  rw [resetIfEmpty]
  split
  next hEmpty =>
    constructor
    · exact hAlive
    · exact hNodup
    · exact fun hNe => absurd hEmpty hNe
    · exact fun _ hNe => absurd rfl hNe
    · exact hNested
    · exact hWaiting
    · exact hLosing
  next hSome => exact ⟨hAlive, hNodup, hCapturing, fun _ _ => hSome, hNested, hWaiting, hLosing⟩

theorem Kept.releasePointerCapture (h : s.Kept current) {tag : Option Tag}
    (hFound : asserts = true → s.m_pointerCapturingComponentTag = tag →
      pointerId ∈ s.m_capturedPointers → s.Registered) :
    ∃ next, s.releasePointerCapture asserts pointerId tag = .ok next ∧ next.Kept current := by
  have hNodup := h.nodup.erase pointerId
  have hCapturing : s.m_capturedPointers.erase pointerId ≠ [] →
      s.m_pointerCapturingComponentTag ≠ none := by
    intro hNe
    apply h.capturing
    intro hNil
    exact hNe (by rw [hNil]; rfl)
  have hWaiting : ∀ other tag, .capturePointer other tag ∈ s.calls →
      s.m_capturedPointers.erase pointerId = [] := by
    intro other tag hMem
    rw [h.waiting other tag hMem]
    rfl
  have hLosing : ∀ pointers, .onPointerCaptureLost pointers ∈ s.calls →
      ∀ other ∈ s.m_capturedPointers.erase pointerId, other ∈ current ∨ other ∈ pointers :=
    fun pointers hMem other hOther => h.losing pointers hMem other (List.mem_of_mem_erase hOther)
  rcases s.releasePointerCapture_cases asserts pointerId tag with
    ⟨hEq, -⟩ | ⟨hTag, hMem, ⟨view, -, -, hEq⟩ | ⟨hNone, hEq⟩⟩
  · exact ⟨s, hEq, h⟩
  · refine ⟨_, hEq, ?_⟩
    constructor
    · exact h.alive
    · exact hNodup
    · exact hCapturing
    · exact fun hNil => absurd hNil (List.cons_ne_nil _ _)
    · exact h.nested
    · intro other tag hMem
      exact hWaiting other tag ((List.mem_cons.mp hMem).resolve_left nofun)
    · intro pointers hMem
      exact hLosing pointers ((List.mem_cons.mp hMem).resolve_left nofun)
  · have hNot : asserts ≠ true := by
      intro hAsserts
      obtain ⟨view, hView⟩ := Option.ne_none_iff_exists'.mp (h.capturing (List.ne_nil_of_mem hMem))
      exact hNone view hView (hFound hAsserts hTag hMem view hView)
    rw [if_neg hNot] at hEq
    refine ⟨_, hEq, ?_⟩
    apply kept_resetIfEmpty
    · exact h.alive
    · exact hNodup
    · exact hCapturing
    · exact h.nested
    · exact hWaiting
    · exact hLosing

omit [DecidableEq PointerId] [DecidableEq Tag] in
theorem resetIfEmpty_capturedPointers (s : PointerCapture PointerId Tag) :
    s.resetIfEmpty.m_capturedPointers = s.m_capturedPointers := by
  rw [resetIfEmpty]
  split
  next => rfl
  next => rfl

/-- The capturing view has lost the pointer. -/
theorem Kept.notMem_release (h : s.Kept current)
    (hReleased : s.releasePointerCapture asserts pointerId s.m_pointerCapturingComponentTag = .ok t) :
    pointerId ∉ t.m_capturedPointers := by
  rcases s.releasePointerCapture_cases asserts pointerId s.m_pointerCapturingComponentTag with
    ⟨hEq, hNot⟩ | ⟨-, -, ⟨view, -, -, hEq⟩ | ⟨-, hEq⟩⟩
  · cases hEq.symm.trans hReleased
    exact hNot rfl
  · cases hEq.symm.trans hReleased
    exact h.nodup.not_mem_erase
  · rw [hEq] at hReleased
    split at hReleased
    next => cases hReleased
    next =>
      cases hReleased
      rw [resetIfEmpty_capturedPointers]
      exact h.nodup.not_mem_erase

omit [DecidableEq PointerId] [DecidableEq Tag] in
theorem Kept.onPointerCaptureLost (h : s.Kept []) : s.onPointerCaptureLost.Kept [] := by
  rw [PointerCapture.onPointerCaptureLost]
  split
  next => exact h
  next =>
    constructor
    · exact h.alive
    · exact h.nodup
    · exact h.capturing
    · exact fun hNil => absurd hNil (List.cons_ne_nil _ _)
    · exact h.nested
    · intro pointerId tag hMem
      exact h.waiting pointerId tag ((List.mem_cons.mp hMem).resolve_left nofun)
    · intro pointers hMem pointerId hCaptured
      rcases List.mem_cons.mp hMem with hNew | hOld
      · cases hNew
        exact Or.inr hCaptured
      · exact h.losing pointers hOld pointerId hCaptured

theorem Kept.proceed (h : s.Kept []) {result : Except Fault (PointerCapture PointerId Tag)}
    (hFound : s.orderly asserts .proceed) (hProceed : s.proceed asserts = some result) :
    ∃ next, result = .ok next ∧ next.Kept [] := by
  rw [PointerCapture.proceed] at hProceed
  split at hProceed
  next => cases hProceed
  next pointerId tag calls hCalls =>
    cases hProceed
    have hNested := h.nested
    rw [hCalls] at hNested
    refine ⟨_, rfl, ?_⟩
    apply kept_insert
    · exact h.alive
    · exact h.nodup
    · exact hNested.1
  next calls hCalls =>
    cases hProceed
    have hNested := h.nested
    have hWaiting := h.waiting
    have hLosing := h.losing
    rw [hCalls] at hNested hWaiting hLosing
    refine ⟨_, rfl, ?_⟩
    apply kept_resetIfEmpty
    · exact h.alive
    · exact h.nodup
    · exact h.capturing
    · exact hNested
    · exact fun pointerId tag hMem => hWaiting pointerId tag (List.mem_cons_of_mem _ hMem)
    · exact fun pointers hMem => hLosing pointers (List.mem_cons_of_mem _ hMem)
  next calls hCalls =>
    cases hProceed
    have hNested := h.nested
    have hLosing := h.losing
    rw [hCalls] at hNested hLosing
    have hEmpty : s.m_capturedPointers = [] := by
      apply List.eq_nil_iff_forall_not_mem.mpr
      intro pointerId hMem
      rcases hLosing [] List.mem_cons_self pointerId hMem with hNone | hNone
      · cases hNone
      · cases hNone
    refine ⟨_, rfl, ?_⟩
    constructor
    · exact h.alive
    · exact h.nodup
    · exact fun hNe => absurd hEmpty hNe
    · exact fun _ hNe => absurd rfl hNe
    · exact hNested
    · exact fun _ _ _ => hEmpty
    · intro pointers hMem
      exact hLosing pointers (List.mem_cons_of_mem _ hMem)
  next pointerId rest calls hCalls =>
    cases hProceed
    have hNested := h.nested
    have hWaiting := h.waiting
    have hLosing := h.losing
    rw [hCalls] at hNested hWaiting hLosing
    have hCurrent : Kept { s with calls := .onPointerCaptureLost rest :: calls } [pointerId] := by
      constructor
      · exact h.alive
      · exact h.nodup
      · exact h.capturing
      · exact fun hNil => absurd hNil (List.cons_ne_nil _ _)
      · exact hNested
      · intro other tag hMem
        apply hWaiting other tag
        exact List.mem_cons_of_mem _ ((List.mem_cons.mp hMem).resolve_left nofun)
      · intro pointers hMem other hCaptured
        rcases List.mem_cons.mp hMem with hNew | hOld
        · cases hNew
          rcases hLosing (pointerId :: rest) List.mem_cons_self other hCaptured with hNone | hIn
          · cases hNone
          · exact (List.mem_cons.mp hIn).imp_left List.mem_singleton.mpr
        · have hIn := hLosing pointers (List.mem_cons_of_mem _ hOld) other hCaptured
          exact Or.inr (hIn.resolve_left List.not_mem_nil)
    obtain ⟨next, hEq, hReleased⟩ := hCurrent.releasePointerCapture
      fun hAsserts _ hMem => hFound hAsserts pointerId rest calls hCalls hMem
    have hGone := hCurrent.notMem_release hEq
    refine ⟨next, hEq, hReleased.alive, hReleased.nodup, hReleased.capturing, hReleased.captures,
      hReleased.nested, hReleased.waiting, fun pointers hMem other hCaptured => Or.inr ?_⟩
    apply (hReleased.losing pointers hMem other hCaptured).resolve_left
    intro hSame
    cases List.mem_singleton.mp hSame
    exact hGone hCaptured

omit [DecidableEq Tag] in
/-- The handlers find their views where the capturing one is registered. -/
theorem Kept.handle_ok (h : s.Kept []) {kind : PointerEventKind} {hitTest : Option Tag}
    (hHit : hitTest.all s.m_registry = true)
    (hOrderly : s.orderly asserts (.pointer kind pointerId hitTest)) :
    s.handle asserts kind pointerId hitTest = .ok () := by
  have hFound : ∀ tag, s.m_registry tag = true →
      (if (some tag).isNone || kind = .exited then .ok ()
        else do
          let _ ← dereference (← s.componentViewDescriptorWithTag asserts (some tag))
          .ok ()) = (.ok () : Except Fault Unit) := by
    intro tag hRegistered
    rw [componentViewDescriptorWithTag_of_registered hRegistered]
    split
    next => rfl
    next => rfl
  rw [handle, getTargetPointerArgs]
  split
  next => rfl
  next hRoot =>
    split
    next hCaptured =>
      obtain ⟨tag, hTag⟩ := Option.ne_none_iff_exists'.mp
        (h.capturing (List.ne_nil_of_mem hCaptured))
      have hRegistered := hOrderly hCaptured ((Bool.not_eq_false _).mp hRoot) tag hTag
      dsimp only
      rw [hTag, componentViewDescriptorWithTag_of_registered hRegistered]
      exact hFound tag hRegistered
    next =>
      cases hitTest with
      | none => rfl
      | some tag => exact hFound tag hHit

variable {event : Event PointerId Tag}

theorem Kept.next (h : s.Kept []) (hOrderly : s.orderly asserts event)
    (hStep : s.step asserts event = some t) : t.Kept [] := by
  rw [step.eq_def, if_neg (Bool.eq_false_iff.mp h.alive)] at hStep
  cases event with
  | register tag | unregister tag | setRootComponentView present =>
    cases hStep
    exact ⟨h.alive, h.nodup, h.capturing, h.captures, h.nested, h.waiting, h.losing⟩
  | capturePointer pointerId tag =>
    obtain ⟨next, hEq, hKept⟩ := h.capturePointer hOrderly.1 hOrderly.2 pointerId tag
    simp only [hEq] at hStep
    cases hStep
    exact hKept
  | releasePointerCapture pointerId tag =>
    obtain ⟨next, hEq, hKept⟩ := h.releasePointerCapture hOrderly
    simp only [hEq] at hStep
    cases hStep
    exact hKept
  | onPointerCaptureLost =>
    cases hStep
    exact h.onPointerCaptureLost
  | proceed =>
    obtain ⟨result, hProceed, hEq⟩ := Option.map_eq_some_iff.mp hStep
    obtain ⟨next, rfl, hKept⟩ := h.proceed hOrderly hProceed
    cases hEq
    exact hKept
  | pointer kind pointerId hitTest =>
    simp only at hStep
    split at hStep
    next hHit =>
      rw [h.handle_ok hHit hOrderly] at hStep
      cases hStep
      exact h
    next => cases hStep

omit [DecidableEq PointerId] [DecidableEq Tag] in
theorem Kept.consistent (h : s.Kept []) : s.Consistent := by
  refine ⟨h.alive, fun hCalls => ⟨fun hTag => ?_, fun hEmpty => ?_⟩⟩
  · by_contra hSome
    exact h.capturing hSome hTag
  · by_contra hTag
    exact h.captures hCalls hTag hEmpty

theorem told_of_release (hTag : s.m_pointerCapturingComponentTag = some tag)
    (hCaptured : s.m_capturedPointers ≠ []) (hRegistered : s.m_registry tag = true)
    {released : Option Tag} {crash : PointerCapture PointerId Tag}
    (hLoss : (crash.orCrash
        (s.releasePointerCapture asserts pointerId released)).m_capturedPointers = [] ∨
      (crash.orCrash
        (s.releasePointerCapture asserts pointerId released)).m_pointerCapturingComponentTag ≠
          some tag) :
    (crash.orCrash (s.releasePointerCapture asserts pointerId released)).told = tag :: s.told := by
  rcases s.releasePointerCapture_cases asserts pointerId released with
    ⟨hEq, -⟩ | ⟨-, -, ⟨view, hFound, -, hEq⟩ | ⟨hNone, -⟩⟩
  · rw [hEq] at hLoss
    rcases hLoss with hEmpty | hOther
    · exact absurd hEmpty hCaptured
    · exact absurd hTag hOther
  · cases hTag.symm.trans hFound
    rw [hEq]
    rfl
  · exact absurd hRegistered (hNone tag hTag)

theorem Kept.tellsLoss (h : s.Kept []) (hStep : s.step asserts event = some t) :
    s.TellsLoss event t := by
  intro tag hTag hCaptured hRegistered hLoss
  have hSame : t.m_capturedPointers = s.m_capturedPointers →
      t.m_pointerCapturingComponentTag ≠ s.m_pointerCapturingComponentTag := by
    intro hEq hStill
    rw [hEq, hStill] at hLoss
    rcases hLoss with hEmpty | hOther
    · exact hCaptured hEmpty
    · exact hOther hTag
  rw [step.eq_def, if_neg (Bool.eq_false_iff.mp h.alive)] at hStep
  cases event with
  | register tag | unregister tag | setRootComponentView present =>
    cases hStep
    exact absurd rfl (hSame rfl)
  | capturePointer pointerId other =>
    cases hStep
    have hView : componentViewDescriptorWithTag asserts { s with m_capturedPointers := [] } (some tag) =
        .ok (some tag) := componentViewDescriptorWithTag_of_registered hRegistered
    rw [PointerCapture.capturePointer]
    split
    next hNone => exact absurd (hTag.symm.trans hNone) (Option.some_ne_none tag)
    next capturing hCapturing =>
      cases hTag.symm.trans hCapturing
      dsimp only
      rw [hView]
      rfl
  | releasePointerCapture pointerId other =>
    cases hStep
    exact told_of_release hTag hCaptured hRegistered hLoss
  | onPointerCaptureLost =>
    cases hStep
    rw [PointerCapture.onPointerCaptureLost] at hSame
    split at hSame
    next => exact absurd rfl (hSame rfl)
    next => exact absurd rfl (hSame rfl)
  | proceed =>
    simp only [PointerCapture.proceed] at hStep
    split at hStep
    next => cases hStep
    next pointerId other calls hCalls =>
      exact absurd (h.waiting pointerId other (hCalls ▸ List.mem_cons_self)) hCaptured
    next calls hCalls =>
      cases hStep
      rw [orCrash, resetIfEmpty, if_neg hCaptured] at hSame
      exact absurd rfl (hSame rfl)
    next calls hCalls =>
      exfalso
      obtain ⟨pointerId, hMem⟩ := List.exists_mem_of_ne_nil _ hCaptured
      have hIn := h.losing [] (hCalls ▸ List.mem_cons_self) pointerId hMem
      rcases hIn with hNone | hNone
      · cases hNone
      · cases hNone
    next pointerId rest calls hCalls =>
      cases hStep
      have hSameTag : PointerCapture.m_pointerCapturingComponentTag
          { s with calls := .onPointerCaptureLost rest :: calls } = some tag := hTag
      exact told_of_release hSameTag hCaptured hRegistered hLoss
  | pointer kind pointerId hitTest =>
    simp only at hStep
    split at hStep
    next =>
      cases hStep
      cases hHandled : s.handle asserts kind pointerId hitTest with
      | ok _ =>
        rw [hHandled] at hSame
        exact absurd rfl (hSame rfl)
      | error fault =>
        rw [hHandled] at hSame
        exact absurd rfl (hSame rfl)
    next => cases hStep

/-- In a run where the capturing view is registered whenever a captured pointer has an event (with
assertions, also when a pointer is captured, released or lost), and no view captures while another one
loses the capture, nothing crashes, a view captures exactly where pointers are captured, and a registered
view that loses its last one is told. -/
theorem capture_consistent (asserts : Bool) (events : List (Event PointerId Tag))
    (h : Allowed (step asserts) (orderly asserts) initial events) :
    Throughout (step asserts) Consistent initial events ∧
      Along (step asserts) TellsLoss initial events := by
  have hStart : (initial : PointerCapture PointerId Tag).Kept [] := kept_initial
  constructor
  · have hKept : Throughout (step asserts) (fun s => s.Kept []) initial events :=
      h.throughout hStart fun s event t hInv hOk hStep => hInv.next hOk hStep
    exact hKept.imp fun s hInv => hInv.consistent
  · apply h.along (P := fun s => s.Kept []) hStart
    · exact fun s event t hInv hOk hStep => hInv.next hOk hStep
    · exact fun s event t hInv _ hStep => hInv.tellsLoss hStep

/-- A view captures a pointer, is told of its move and releases it, in a build with assertions. -/
theorem released_consistent :
    Throughout (step true) Consistent (initial : PointerCapture Bool Bool)
        [.setRootComponentView true, .register true, .capturePointer true true,
          .pointer .moved true none, .releasePointerCapture true true, .proceed] ∧
      Along (step true) TellsLoss (initial : PointerCapture Bool Bool)
        [.setRootComponentView true, .register true, .capturePointer true true,
          .pointer .moved true none, .releasePointerCapture true true, .proceed] := by
  apply capture_consistent
  refine ⟨trivial, fun _ hRoot => ⟨trivial, fun _ hRegister => ⟨?_, fun _ hCapture => ⟨?_, fun _ hMove =>
    ⟨?_, fun _ hRelease => ⟨?_, fun _ _ => trivial⟩⟩⟩⟩⟩⟩
  · cases hRoot
    cases hRegister
    refine ⟨fun call hMem => ?_, fun _ tag hTag => ?_⟩
    · cases hMem
    · cases hTag
  · cases hRoot
    cases hRegister
    cases hCapture
    intro _ _ tag hTag
    cases hTag
    rfl
  · cases hRoot
    cases hRegister
    cases hCapture
    cases hMove
    intro _ _ _ tag hTag
    cases hTag
    rfl
  · cases hRoot
    cases hRegister
    cases hCapture
    cases hMove
    cases hRelease
    intro _ pointerId rest calls hCalls
    cases hCalls

/-- The capturing view is gone when its pointer moves; and a view that is told of a lost capture takes
another one. -/
theorem stale_capture_inconsistent :
    ¬ Throughout (step false) Consistent (initial : PointerCapture Bool Bool)
        [.setRootComponentView true, .register true, .capturePointer true true, .unregister true,
          .pointer .moved true none] ∧
      ¬ Throughout (step false) Consistent (initial : PointerCapture Bool Bool)
        [.register true, .capturePointer true true, .onPointerCaptureLost, .proceed,
          .capturePointer false true, .proceed, .proceed, .proceed] := by
  constructor
  · intro h
    exact absurd (h.last rfl).alive Bool.noConfusion
  · intro h
    have hEmpty := ((h.last rfl).captures rfl).mp rfl
    cases hEmpty

end PointerCapture

end Fabric
