import ReactNativeWindows.Collections.Forest

/-! Component views: their children and parents, when they are mounted, their themes, and the root
views that they remember. -/
namespace Fabric

open Collections Collections.Forest

universe u v

structure ComponentView (ι : Type u) (Θ : Type v) where
  m_children : List ι
  m_parent : Option ι
  m_mounted : Bool
  m_rootView : Option ι
  m_theme : Option Θ
  /-- The mounted and unmounted events so far, newest first. -/
  notified : List Bool
  /-- A mounted view was mounted once more. -/
  asserted : Bool

abbrev Views (ι : Type u) (Θ : Type v) := ι → ComponentView ι Θ

variable {ι : Type u} {Θ : Type v} [DecidableEq ι] [DecidableEq Θ]

def onMounted : ℕ → ι → Views ι Θ → Option (Views ι Θ) :=
  walk ComponentView.m_children
    (fun view => some { view with m_mounted := true, asserted := view.asserted || view.m_mounted })
    (fun view => { view with notified := true :: view.notified })

def onUnmounted : ℕ → ι → Views ι Θ → Option (Views ι Θ) :=
  walk ComponentView.m_children
    (fun view => if view.m_mounted then some { view with m_mounted := false } else none)
    (fun view => { view with notified := false :: view.notified })

/-- Sets the theme of a view and of the views within it, unless the view has it already. -/
def theme (value : Θ) : ℕ → ι → Views ι Θ → Option (Views ι Θ) :=
  walk ComponentView.m_children (fun view => if view.m_theme = some value then none else some view)
    (fun view => { view with m_theme := some value })

variable (isRoot : ι → Bool) (emptyTheme : Θ)

/-- The root view, which is remembered on the way. -/
def rootComponentView : ℕ → ι → Views ι Θ → Option (Option ι × Views ι Θ)
  | 0, _, _ => none
  | fuel + 1, v, views =>
    if isRoot v then some (some v, views)
    else
      match (views v).m_rootView with
      | some root => some (some root, views)
      | none =>
        match (views v).m_parent with
        | none => some (none, views)
        | some parent => do
          let (root, views) ← rootComponentView fuel parent views
          return (root, Function.update views v { views v with m_rootView := root })

/-- A view gets another parent, or none. Focus leaves a view that gets none, which does not change
the tree. -/
def setParent (fuel : ℕ) (v : ι) (parent : Option ι) (views : Views ι Θ) : Option (Views ι Θ) :=
  if (views v).m_parent = parent then some views
  else do
    let (_, views) ← rootComponentView isRoot fuel v views
    let views := Function.update views v { views v with m_rootView := none, m_parent := parent }
    match parent with
    | none => some views
    | some parent => theme ((views parent).m_theme.getD emptyTheme) fuel v views

def mountChildComponentView (fuel : ℕ) (v child : ι) (index : ℕ) (views : Views ι Θ) :
    Option (Views ι Θ) := do
  let views := Function.update views v
    { views v with m_children := (views v).m_children.insertIdx index child }
  let views ← setParent isRoot emptyTheme fuel child (some v) views
  if (views v).m_mounted then onMounted fuel child views else some views

def unmountChildComponentView (fuel : ℕ) (v child : ι) (index : ℕ) (views : Views ι Θ) :
    Option (Views ι Θ) := do
  let views := Function.update views v
    { views v with m_children := (views v).m_children.eraseIdx index }
  let views ← setParent isRoot emptyTheme fuel child none views
  onUnmounted fuel child views

inductive Event (ι : Type u) where
  | mount (v child : ι) (index : ℕ)
  | unmount (v child : ι) (index : ℕ)
  | askRoot (v : ι)

def Views.parent (views : Views ι Θ) (x : ι) : Option ι := (views x).m_parent

def Views.children (views : Views ι Θ) (x : ι) : List ι := (views x).m_children

/-- Only a view that has no parent, and is no root, is mounted, and not into itself; and a child is
unmounted from where it is. -/
def Event.Enabled (views : Views ι Θ) : Event ι → Prop
  | mount v child index => (views child).m_parent = none ∧ isRoot child = false ∧
      ¬Within views.parent child v ∧ index ≤ (views v).m_children.length
  | unmount v child index => (views v).m_children[index]? = some child
  | askRoot _ => True

def Event.apply (fuel : ℕ) (views : Views ι Θ) : Event ι → Option (Views ι Θ)
  | mount v child index => mountChildComponentView isRoot emptyTheme fuel v child index views
  | unmount v child index => unmountChildComponentView isRoot emptyTheme fuel v child index views
  | askRoot v => (rootComponentView isRoot fuel v views).map Prod.snd

/-- At first each view is for itself, and only roots are mounted. -/
structure Views.Initial (views : Views ι Θ) : Prop where
  children : ∀ x, (views x).m_children = []
  parent : ∀ x, (views x).m_parent = none
  mounted : ∀ x, isRoot x = false → (views x).m_mounted = false
  rootView : ∀ x, (views x).m_rootView = none
  notified : ∀ x, (views x).notified = []
  asserted : ∀ x, (views x).asserted = false

inductive Reachable (accepted : Views ι Θ → Event ι → Prop) : Views ι Θ → Prop
  | initial {views : Views ι Θ} : views.Initial isRoot → Reachable accepted views
  | step {views next : Views ι Θ} {event : Event ι} {fuel : ℕ} (prior : Reachable accepted views)
      (enabled : event.Enabled isRoot views) (accept : accepted views event)
      (last : event.apply isRoot emptyTheme fuel views = some next) : Reachable accepted next

def Event.Forgets (views : Views ι Θ) : Event ι → Prop
  | unmount _ child _ => ∀ x, Within views.parent child x → x ≠ child → (views x).m_rootView = none
  | _ => True

end Fabric
