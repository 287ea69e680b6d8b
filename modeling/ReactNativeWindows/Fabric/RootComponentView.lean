import ReactNativeWindows.Control.Fuel
import ReactNativeWindows.Fabric.ComponentView

/-! The focus of a root view: which component has it, how it is moved, and how it leaves components
that are unmounted. -/
namespace Fabric

open Control

universe u

inductive FocusNavigationDirection where
  | none
  | next
  | previous
  | first
  | last
  deriving DecidableEq

inductive FocusNavigationReason where
  | restore
  | first
  | last
  deriving DecidableEq

inductive FocusState where
  | unfocused
  | pointer
  | keyboard
  | programmatic
  deriving DecidableEq

/-- What a component is told, as the original source of the event. -/
inductive FocusNotice (ι : Type u) where
  | lostFocus (source : ι)
  | gotFocus (source : ι) (direction : FocusNavigationDirection)

structure RootComponentView (ι Θ : Type u) where
  views : Views ι Θ
  m_focusedComponent : Option ι
  m_focusState : FocusState
  m_useKeyboardForProgrammaticFocus : Bool
  /-- What components were told so far, newest first. -/
  notices : List (FocusNotice ι)

inductive NullPointer where
  | nullPointer

abbrev Focusing (α : Type u) := Except (Stop NullPointer) α

/-- What a handler of a losing or a getting focus event asks for. -/
inductive FocusRequest (ι : Type u) where
  | tryCancel
  | trySetNewFocusedComponent (view : ι)

/-- What the views and the handlers answer during one operation. -/
structure FocusAnswers (ι : Type u) where
  focusable : ι → Bool
  losingFocus : List (FocusRequest ι)
  gettingFocus : List (FocusRequest ι)

variable {ι Θ : Type u} [DecidableEq ι] [DecidableEq Θ]

def firstFound (find : ι → Option (Option ι)) : List ι → Option (Option ι)
  | [] => some none
  | view :: views => do
    match ← find view with
    | some found => some (some found)
    | none => firstFound find views

variable (answers : FocusAnswers ι)

def navigateFocusHelper (views : Views ι Θ) (reason : FocusNavigationReason) :
    ℕ → ι → Option (Option ι)
  | 0, _ => none
  | fuel + 1, view =>
    if reason = .first ∧ answers.focusable view then some (some view)
    else do
      let children := (views view).m_children
      match ← firstFound (navigateFocusHelper views reason fuel)
        (if reason = .first then children else children.reverse) with
      | some found => some (some found)
      | none => if reason = .last ∧ answers.focusable view then some (some view) else some none

def findFirstFocusableElement (views : Views ι Θ) (fuel : ℕ) (searchScope : ι) : Option (Option ι) :=
  navigateFocusHelper answers views .first fuel searchScope

def findLastFocusableElement (views : Views ι Θ) (fuel : ℕ) (searchScope : ι) : Option (Option ι) :=
  navigateFocusHelper answers views .last fuel searchScope

/-- What an event's arguments hold after one request. -/
def FocusRequest.newFocusedComponent (views : Views ι Θ) (fuel : ℕ) (old new : Option ι) :
    FocusRequest ι → Option (Option ι)
  | tryCancel => some old
  | trySetNewFocusedComponent view =>
    if answers.focusable view then some (some view)
    else do
      match ← findFirstFocusableElement answers views fuel view with
      | some target => some (some target)
      | none => some new

def newFocusedComponent (views : Views ι Θ) (fuel : ℕ) (old : Option ι)
    (requests : List (FocusRequest ι)) (new : Option ι) : Option (Option ι) :=
  requests.foldlM (fun new request => request.newFocusedComponent answers views fuel old new) new

namespace RootComponentView

def setFocusedComponent (self : RootComponentView ι Θ) (value : Option ι)
    (direction : FocusNavigationDirection) (focusState : FocusState) : RootComponentView ι Θ :=
  if self.m_focusedComponent = value then self
  else
    let self := match self.m_focusedComponent with
      | some focused => { self with notices := .lostFocus focused :: self.notices }
      | none => self
    match value with
    | none => self
    | some view =>
      { self with
        m_focusedComponent := some view
        m_focusState :=
          if focusState = .programmatic then
            if self.m_useKeyboardForProgrammaticFocus = false ∨ self.m_focusState = .pointer then
              .pointer
            else .keyboard
          else focusState
        notices := .gotFocus view direction :: self.notices }

variable (root : ι)

def askRoot (self : RootComponentView ι Θ) (fuel : ℕ) (view : ι) :
    Focusing (Option ι × RootComponentView ι Θ) := do
  let (found, views) ← fueled (rootComponentView (· = root) fuel view self.views)
  return (found, { self with views })

/-- The view itself or, if it does not take focus, one within it that does. -/
def focusTarget (self : RootComponentView ι Θ) (fuel : ℕ) (direction : FocusNavigationDirection) :
    Option ι → Focusing (Option ι)
  | none => return none
  | some view =>
    if answers.focusable view then return some view
    else if direction = .last ∨ direction = .previous then
      fueled (findLastFocusableElement answers self.views fuel view)
    else fueled (findFirstFocusableElement answers self.views fuel view)

/-- What the focused component's handlers leave of a target; without one there are none to ask. -/
def onLosingFocus (self : RootComponentView ι Θ) (fuel : ℕ) (target : Option ι) :
    Focusing (Option ι) :=
  match self.m_focusedComponent with
  | none => return target
  | some focused =>
    fueled (newFocusedComponent answers self.views fuel (some focused) answers.losingFocus target)

def moveFocus (self : RootComponentView ι Θ) (fuel : ℕ) (target : Option ι)
    (direction : FocusNavigationDirection) (focusState : FocusState) :
    Focusing (RootComponentView ι Θ) := do
  match ← self.onLosingFocus answers fuel target with
  | none => return self.setFocusedComponent none direction focusState
  | some new =>
    let getting ← fueled
      (newFocusedComponent answers self.views fuel self.m_focusedComponent answers.gettingFocus
        (some new))
    match ← self.askRoot root fuel new with
    | (none, _) => throw (Stop.fault .nullPointer)
    | (some _, self) => return self.setFocusedComponent getting direction focusState

def trySetFocusedComponent (self : RootComponentView ι Θ) (fuel : ℕ) (view : Option ι)
    (direction : FocusNavigationDirection) (focusState : FocusState)
    (forceNoSelectionIfCannotMove : Bool) : Focusing (Bool × RootComponentView ι Θ) := do
  match ← self.focusTarget answers fuel direction view with
  | none =>
    if view.isSome ∧ forceNoSelectionIfCannotMove = false then return (false, self)
    else
      let self ← self.moveFocus answers root fuel none direction focusState
      return (true, self)
  | some target =>
    let (found, self) ← self.askRoot root fuel target
    if found ≠ some root then return (false, self)
    else
      let self ← self.moveFocus answers root fuel (some target) direction focusState
      return (true, self)

def navigateFocus (self : RootComponentView ι Θ) (fuel : ℕ) (reason : FocusNavigationReason) :
    Focusing (Bool × RootComponentView ι Θ) := do
  if reason = .restore ∧ self.m_focusedComponent.isSome then return (true, self)
  else
    let view ← fueled (if reason = .last then findLastFocusableElement answers self.views fuel root
      else findFirstFocusableElement answers self.views fuel root)
    match view with
    | none => return (false, self)
    | some view =>
      let (_, self) ← self.trySetFocusedComponent answers root fuel (some view)
        (if reason = .first then .first else .last) .programmatic false
      return (true, self)

def nextView (views : Views ι Θ) : ℕ → ι → Option (Option ι)
  | 0, _ => none
  | fuel + 1, current =>
    match (views current).m_parent with
    | none => some none
    | some parent =>
      let parentsChildren := (views parent).m_children
      match parentsChildren[parentsChildren.idxOf current + 1]? with
      | some next => some (some next)
      | none => nextView views fuel parent

def lastDeepChild (views : Views ι Θ) : ℕ → ι → Option ι
  | 0, _ => none
  | fuel + 1, current =>
    match (views current).m_children.getLast? with
    | none => some current
    | some child => lastDeepChild views fuel child

variable (fn : ι → RootComponentView ι Θ → Focusing (Bool × RootComponentView ι Θ))

/-- The walk from a view to what comes after it, until the function says that it is done. -/
def walkForward : ℕ → ι → RootComponentView ι Θ → Focusing (Bool × RootComponentView ι Θ)
  | 0, _, _ => throw .fuel
  | fuel + 1, view, self => do
    match ← fn view self with
    | (true, self) => return (true, self)
    | (false, self) =>
      match (self.views view).m_children with
      | child :: _ => walkForward fuel child self
      | [] =>
        match ← fueled (nextView self.views fuel view) with
        | some next => walkForward fuel next self
        | none => return (false, self)

def walkBackward : ℕ → ι → RootComponentView ι Θ → Focusing (Bool × RootComponentView ι Θ)
  | 0, _, _ => throw .fuel
  | fuel + 1, current, self =>
    match (self.views current).m_parent with
    | none => return (false, self)
    | some parent =>
      let children := (self.views parent).m_children
      match children.idxOf current with
      | index + 1 => do
        match children[index]? with
        | none => throw (Stop.fault .nullPointer)
        | some previous =>
          let lastChild ← fueled (lastDeepChild self.views fuel previous)
          match ← fn lastChild self with
          | (true, self) => return (true, self)
          | (false, self) => walkBackward fuel lastChild self
      | 0 => do
        match ← fn parent self with
        | (true, self) => return (true, self)
        | (false, self) => walkBackward fuel parent self

def walkTree (view : ι) (forward : Bool) (fuel : ℕ) (self : RootComponentView ι Θ) :
    Focusing (Bool × RootComponentView ι Θ) :=
  if forward then walkForward fn fuel view self else walkBackward fn fuel view self

/-- Sets the focus to a view that a walk comes by, unless it has the focus or takes none. -/
def tryFocusOn (fuel : ℕ) (currentlyFocused : ι) (next : Bool) (focusState : FocusState) (view : ι)
    (self : RootComponentView ι Θ) : Focusing (Bool × RootComponentView ι Θ) := do
  if view = currentlyFocused then return (false, self)
  else if answers.focusable view = false then return (false, self)
  else
    match ← self.askRoot root fuel view with
    | (none, _) => throw (Stop.fault .nullPointer)
    | (some _, self) =>
      self.trySetFocusedComponent answers root fuel (some view)
        (if next then .next else .previous) focusState false

/-- `departed` says that something outside the island took the focus. -/
def tryMoveFocus (self : RootComponentView ι Θ) (fuel : ℕ) (next : Bool) (focusState : FocusState)
    (departed : Bool) : Focusing (Bool × RootComponentView ι Θ) := do
  match self.m_focusedComponent with
  | none => self.navigateFocus answers root fuel (if next then .first else .last)
  | some focused =>
    match ← walkTree (tryFocusOn answers root fuel focused next focusState) focused next fuel
      self with
    | (true, self) => return (true, self)
    | (false, self) =>
      if departed then return (true, self)
      else self.navigateFocus answers root fuel (if next then .first else .last)

def stop (self : RootComponentView ι Θ) : RootComponentView ι Θ :=
  self.setFocusedComponent none .none .programmatic

variable (emptyTheme : Θ)

def mountChildComponentView (self : RootComponentView ι Θ) (fuel : ℕ) (v child : ι) (index : ℕ) :
    Focusing (RootComponentView ι Θ) := do
  let views ← fueled
    (Fabric.mountChildComponentView (· = root) emptyTheme fuel v child index self.views)
  return { self with views }

/-- A view loses its parent. If it has the focus, its old parent gets it. -/
def leaveParent (self : RootComponentView ι Θ) (fuel : ℕ) (v : ι) :
    Focusing (RootComponentView ι Θ) := do
  match (self.views v).m_parent with
  | none => return self
  | some oldParent =>
    let (oldRootView, self) ← self.askRoot root fuel v
    let self := { self with
      views := Function.update self.views v
        { self.views v with m_rootView := none, m_parent := none } }
    if oldRootView = some root ∧ self.m_focusedComponent = some v then
      let (_, self) ← self.trySetFocusedComponent answers root fuel (some oldParent) .none
        .programmatic true
      return self
    else return self

def unmountChildComponentView (self : RootComponentView ι Θ) (fuel : ℕ) (v child : ι) (index : ℕ) :
    Focusing (RootComponentView ι Θ) := do
  let self := { self with
    views := Function.update self.views v
      { self.views v with m_children := (self.views v).m_children.eraseIdx index } }
  let self ← self.leaveParent answers root fuel child
  let views ← fueled (onUnmounted fuel child self.views)
  return { self with views }

end RootComponentView
end Fabric
