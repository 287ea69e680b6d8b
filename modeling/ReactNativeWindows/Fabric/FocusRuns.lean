import ReactNativeWindows.Collections.ForestOrder
import ReactNativeWindows.Fabric.FocusMoves
import ReactNativeWindows.Fabric.RememberedRoots

/-! Runs in which views are mounted and unmounted while the focus moves: it stays in the tree. -/
namespace Fabric

open Collections Collections.Forest Control

universe u

inductive FocusEvent (ι : Type u) where
  | mount (v child : ι) (index : ℕ)
  | unmount (v child : ι) (index : ℕ)
  | trySetFocusedComponent (view : Option ι) (direction : FocusNavigationDirection)
      (focusState : FocusState) (forceNoSelectionIfCannotMove : Bool)
  | tryMoveFocus (next : Bool) (focusState : FocusState) (departed : Bool)
  | navigateFocus (reason : FocusNavigationReason)
  | stop

variable {ι Θ : Type u} [DecidableEq ι]

namespace FocusEvent

open RootComponentView

/-- Views are mounted and unmounted as they can be, and handlers set the focus to components that are
in the tree. -/
def Enabled (root : ι) (answers : FocusAnswers ι) (state : RootComponentView ι Θ) : FocusEvent ι → Prop
  | mount v child index => Event.Enabled (· = root) state.views (.mount v child index)
  | unmount v child index => Event.Enabled (· = root) state.views (.unmount v child index) ∧
      ∀ u, .trySetNewFocusedComponent u ∈ answers.losingFocus ++ answers.gettingFocus →
        Within state.views.parent root u ∧ ¬Within state.views.parent child u
  | stop => True
  | _ => Handlers root state.views answers.losingFocus ∧ Handlers root state.views answers.gettingFocus

/-- When an event keeps the focus in the tree. The focused component may be unmounted, if something
else takes the focus, but not what it is within; the focus is not given up; and a component that is no
longer in the tree does not answer its root. -/
def Keeps (root : ι) (answers : FocusAnswers ι) (state : RootComponentView ι Θ) : FocusEvent ι → Prop
  | unmount v child _ =>
    let found := fun u => ∃ x, Within state.views.parent u x ∧ ¬Within state.views.parent child x ∧
      answers.focusable x = true
    (∀ f, state.m_focusedComponent = some f → Within state.views.parent child f → f = child) ∧
      (state.m_focusedComponent = some child →
        Settles found False (found v) answers.losingFocus ∧
          Settles found False True answers.gettingFocus)
  | trySetFocusedComponent view _ _ force =>
    (∀ v, view = some v → Honest answers root state.views v) ∧
      (state.m_focusedComponent ≠ none → (view = none ∨ force = true) →
        (∀ v, view = some v → ¬Focusable answers state.views v) →
          Settles (Focusable answers state.views) True False answers.losingFocus)
  | stop => state.m_focusedComponent = none
  | _ => True

variable [DecidableEq Θ]

def apply (answers : FocusAnswers ι) (root : ι) (emptyTheme : Θ) (fuel : ℕ)
    (state : RootComponentView ι Θ) : FocusEvent ι → Focusing (RootComponentView ι Θ)
  | mount v child index => state.mountChildComponentView root emptyTheme fuel v child index
  | unmount v child index => state.unmountChildComponentView answers root fuel v child index
  | trySetFocusedComponent view direction focusState force => do
    let (_, state) ← state.trySetFocusedComponent answers root fuel view direction focusState force
    return state
  | tryMoveFocus next focusState departed => do
    let (_, state) ← state.tryMoveFocus answers root fuel next focusState departed
    return state
  | navigateFocus reason => do
    let (_, state) ← state.navigateFocus answers root fuel reason
    return state
  | stop => return state.stop

end FocusEvent

variable [DecidableEq Θ]

inductive FocusReachable (root : ι) (emptyTheme : Θ)
    (accepted : FocusAnswers ι → RootComponentView ι Θ → FocusEvent ι → Prop) :
    RootComponentView ι Θ → Prop
  | initial {state : RootComponentView ι Θ} (alone : state.views.Initial (· = root))
      (unfocused : state.m_focusedComponent = none) (silent : state.notices = []) :
      FocusReachable root emptyTheme accepted state
  | step {state next : RootComponentView ι Θ} {answers : FocusAnswers ι} {event : FocusEvent ι}
      {fuel : ℕ} (prior : FocusReachable root emptyTheme accepted state)
      (enabled : event.Enabled root answers state) (accept : accepted answers state event)
      (last : event.apply answers root emptyTheme fuel state = .ok next) :
      FocusReachable root emptyTheme accepted next

namespace RootComponentView

variable {root : ι} {emptyTheme : Θ} {state next : RootComponentView ι Θ} {answers : FocusAnswers ι}

/-- What holds in every run: the views are a tree, and the focus is in it. -/
structure Sane (root : ι) (emptyTheme : Θ) (state : RootComponentView ι Θ) : Prop where
  tree : Tree (· = root) emptyTheme state.views
  focused : Focused root state.views state

namespace Sane

omit [DecidableEq Θ] in
theorem of_focused (h : Sane root emptyTheme state) (hNext : Focused root state.views next) :
    Sane root emptyTheme next := by
  refine ⟨h.tree.of_remembers hNext.remembers, ?_⟩
  refine ⟨⟨.refl next.views, hNext.caches, hNext.told⟩, ?_⟩
  rw [hNext.remembers.parent]
  exact hNext.within

omit [DecidableEq Θ] in
theorem root_parent (h : Sane root emptyTheme state) : state.views.parent root = none :=
  h.tree.roots root (decide_eq_true rfl)

omit [DecidableEq Θ] in
theorem tryMoveFocus_meets (h : Sane root emptyTheme state)
    (hLosingIn : Handlers root state.views answers.losingFocus)
    (hGettingIn : Handlers root state.views answers.gettingFocus) (forward : Bool)
    (focusState : FocusState) (departed : Bool) :
    ∃ bound, ∀ fuel, Meets (bound < fuel) (fun moved => Focused root state.views moved.2)
      (state.tryMoveFocus answers root fuel forward focusState departed) := by
  have hForest := h.tree.forest
  obtain ⟨up, down, hRank⟩ := hForest.ranked
  obtain ⟨size, hSizes⟩ := hForest.exists_size
  obtain ⟨rest, hFirst, hRest⟩ := hForest.exists_rest hSizes
  obtain ⟨before, hLast, hBefore⟩ := hForest.exists_before hSizes
  have hSize : ∀ v, 0 < size v := by
    intro v
    rw [hSizes]
    omega
  cases hFocus : state.m_focusedComponent with
  | none =>
    refine ⟨up root + down root, fun fuel => ?_⟩
    rw [tryMoveFocus, hFocus]
    exact h.focused.navigateFocus_meets hForest hRank id hLosingIn hGettingIn
  | some f =>
    refine ⟨up root + down root + (size f + rest f + before f), fun fuel => ?_⟩
    rw [tryMoveFocus, hFocus]
    have hFuel : up root + down root + (size f + rest f + before f) < fuel →
        up root + down root < fuel := by omega
    have hView := h.focused.within f hFocus
    have hFn : ∀ view walked, Within state.views.parent root view →
        Focused root state.views walked → Meets _ (fun moved => Focused root state.views moved.2)
          (tryFocusOn answers root fuel f forward focusState view walked) :=
      fun view walked hIn hWalked =>
        hWalked.tryFocusOn_meets hForest hRank hFuel hLosingIn hGettingIn hIn
    have hWalk : Meets (up root + down root + (size f + rest f + before f) < fuel)
        (fun moved => Focused root state.views moved.2)
        (walkTree (tryFocusOn answers root fuel f forward focusState) f forward fuel state) := by
      rw [walkTree]
      split
      · exact h.focused.walkForward_meets hForest hRank h.root_parent hFn hFirst hSize hRest hView
          (by omega)
      · exact h.focused.walkBackward_meets hForest hRank h.root_parent hFn hLast hSize hBefore hView
          (by omega)
    apply hWalk.bind
    rintro ⟨moved, walked⟩ hWalked
    cases moved with
    | true => exact hWalked
    | false =>
      simp only
      split
      · exact hWalked
      · exact hWalked.navigateFocus_meets hForest hRank hFuel hLosingIn hGettingIn

variable {index : ℕ}

/-- A view that is mounted has not the focus, and the others stay where they are. -/
theorem mount_meets (h : Sane root emptyTheme state) {v child : ι}
    (hEnabled : Event.Enabled (· = root) state.views (.mount v child index)) :
    ∃ bound, ∀ fuel, Meets (bound < fuel) (Sane root emptyTheme)
      (state.mountChildComponentView root emptyTheme fuel v child index) := by
  obtain ⟨bound, hEnds⟩ := exists_mount h.tree hEnabled
  refine ⟨bound, fun fuel => ?_⟩
  have hRun : Meets (bound < fuel) (fun views =>
      Fabric.mountChildComponentView (· = root) emptyTheme fuel v child index state.views = some views)
      (fueled (Fabric.mountChildComponentView (· = root) emptyTheme fuel v child index state.views) :
        Focusing _) :=
    .of_fueled (fun _ hViews => hViews) (hEnds fuel)
  apply hRun.bind
  intro views hViews
  obtain ⟨asked, linked, found, hAsked, rfl, hLinked, hOut, hIn⟩ := mount_cells h.tree hEnabled hViews
  obtain ⟨-, -, hKept⟩ := mounted_linked h.tree hEnabled hLinked
  obtain ⟨-, hRemembered⟩ :=
    children_changed state.views v ((state.views v).m_children.insertIdx index child)
  have hEdited : Caches root (Function.update state.views v { state.views v with
      m_children := (state.views v).m_children.insertIdx index child }) := by
    intro x r hr
    rw [hRemembered] at hr
    exact h.focused.caches x r hr
  obtain ⟨hCaches, -, -⟩ := rootComponentView_own hEdited hAsked
  have hCells : ∀ x, (views x).m_rootView = (Function.update asked child
      { asked child with m_rootView := none, m_parent := some v } x).m_rootView ∧
        views.parent x = Views.parent (Function.update asked child
          { asked child with m_rootView := none, m_parent := some v }) x := by
    intro x
    by_cases hx : Within state.views.parent child x
    · rw [Views.parent, Views.parent, hIn x hx]
      exact ⟨rfl, rfl⟩
    · rw [Views.parent, Views.parent, hOut x hx]
      exact ⟨rfl, rfl⟩
  have hParents : views.parent = Views.parent _ := funext fun x => (hCells x).2
  refine ⟨h.tree.of_mount hEnabled hViews, ⟨.refl views, ?_, h.focused.told.of_eq rfl rfl⟩, ?_⟩
  · intro x r hr
    rw [(hCells x).1] at hr
    by_cases hChild : x = child
    · rw [hChild, Function.update_self] at hr
      cases hr
    · rw [Function.update_of_ne hChild] at hr
      exact hCaches x r hr
  · intro f hf
    rw [hParents]
    exact hKept root f (h.focused.within f hf)

abbrev withoutChild (views : Views ι Θ) (v : ι) (index : ℕ) : Views ι Θ :=
  Function.update views v { views v with m_children := (views v).m_children.eraseIdx index }

omit [DecidableEq Θ] in
theorem leaveParent_meets (h : Sane root emptyTheme state) {v child : ι}
    (hEnabled : FocusEvent.Enabled root answers state (.unmount v child index))
    (hKeeps : FocusEvent.Keeps root answers state (.unmount v child index)) {up down : ι → ℕ}
    (hRank : ∀ c p, state.views.parent c = some p → up p < up c ∧ down c < down p) {fuel : ℕ}
    {enough : Prop} (hRootFuel : enough → up root + down root < fuel)
    (hChildFuel : enough → up child < fuel) :
    Meets enough (fun left => ∃ linked, Relinked state.views linked v child none
        ((state.views v).m_children.eraseIdx index) ∧ Focused root linked left)
      (leaveParent answers root { state with views := withoutChild state.views v index } fuel
        child) := by
  obtain ⟨hListed, hHandlers⟩ := hEnabled
  obtain ⟨hOutside, hMoves⟩ := hKeeps
  have hOld := h.tree.parent_of_listed hListed
  have hNe : child ≠ v := by
    rintro rfl
    exact h.tree.forest.not_within_parent hOld (.refl child)
  obtain ⟨hParents, hRemembered⟩ : (withoutChild state.views v index).parent = state.views.parent ∧
      ∀ x, (withoutChild state.views v index x).m_rootView = (state.views x).m_rootView :=
    children_changed state.views v ((state.views v).m_children.eraseIdx index)
  have hParent : (withoutChild state.views v index child).m_parent = some v := by
    rw [withoutChild, Function.update_of_ne hNe]
    exact hOld
  rw [leaveParent, hParent]
  have hAsk : Meets enough (fun asked : Option ι × RootComponentView ι Θ =>
      rootComponentView (· = root) fuel child (withoutChild state.views v index) =
        some (asked.1, asked.2.views) ∧
      asked.2.m_focusedComponent = state.m_focusedComponent ∧ asked.2.notices = state.notices)
      (askRoot root { state with views := withoutChild state.views v index } fuel child) := by
    have hRun : Meets enough (fun found =>
        rootComponentView (· = root) fuel child (withoutChild state.views v index) = some found)
        (fueled (rootComponentView (· = root) fuel child (withoutChild state.views v index)) :
          Focusing _) := by
      apply Meets.of_fueled
      · exact fun _ hFound => hFound
      · intro hEnough
        apply exists_rootComponentView _ (hChildFuel hEnough)
        rw [hParents]
        exact fun c p hp => (hRank c p hp).1
    rw [askRoot]
    apply hRun.bind
    intro found hFound
    exact ⟨hFound, rfl, rfl⟩
  apply hAsk.bind
  rintro ⟨found, asked⟩ ⟨hAsked, hFocus, hNotices⟩
  have hEdited : Caches root (withoutChild state.views v index) := by
    intro x r hr
    rw [hRemembered] at hr
    exact h.focused.caches x r hr
  obtain ⟨hCachesAsked, -, hOwn⟩ := rootComponentView_own hEdited hAsked
  rw [hParents] at hOwn
  let linked : Views ι Θ := Function.update asked.views child
    { asked.views child with m_rootView := none, m_parent := none }
  have hLinked : Relinked state.views linked v child none
      ((state.views v).m_children.eraseIdx index) :=
    .of_asked (rootComponentView_remembers hAsked)
  obtain ⟨hForest, -, hWithin⟩ := h.tree.unmounted_linked hListed hLinked
  have hCaches : Caches root linked := by
    intro x r hr
    by_cases hChild : x = child
    · rw [hChild, show linked child = _ from Function.update_self ..] at hr
      cases hr
    · rw [show linked x = _ from Function.update_of_ne hChild ..] at hr
      exact hCachesAsked x r hr
  have hSteady : Steady root linked { asked with views := linked } :=
    ⟨.refl linked, hCaches, h.focused.told.of_eq hNotices hFocus⟩
  have hRoot := h.root_parent
  have hLinkedRank : ∀ c p, linked.parent c = some p → up p < up c ∧ down c < down p := by
    intro c p hp
    rw [hLinked.parent_eq] at hp
    split at hp
    · cases hp
    · exact hRank c p hp
  have hKept : ∀ x, Within state.views.parent root x → ¬Within state.views.parent child x →
      Within linked.parent root x :=
    fun x hIn hNot => (hWithin root x).mpr ⟨hIn, fun hBoth => absurd hBoth hNot⟩
  simp only
  split
  · rename_i hLeaves
    obtain ⟨-, hChildFocus⟩ := hLeaves
    have hChildFocused : state.m_focusedComponent = some child := hFocus ▸ hChildFocus
    obtain ⟨hLosing, hGetting⟩ := hMoves hChildFocused
    have hIn : Within linked.parent root v := by
      have hNotRoot : child ≠ root := by
        rintro rfl
        rw [hRoot] at hOld
        cases hOld
      obtain ⟨p, hp, hUp⟩ := (h.focused.within child hChildFocused).of_ne hNotRoot
      rw [hOld] at hp
      cases hp
      exact hKept v hUp (h.tree.forest.not_within_parent hOld)
    have hFound : ∀ u, (∃ x, Within state.views.parent u x ∧ ¬Within state.views.parent child x ∧
        answers.focusable x = true) → Focusable answers linked u := by
      rintro u ⟨x, hBelow, hNot, hFocusable⟩
      exact ⟨x, (hWithin u x).mpr ⟨hBelow, fun hBoth => absurd hBoth hNot⟩, hFocusable⟩
    have hLosingIn : Handlers root linked answers.losingFocus := by
      intro u hu
      obtain ⟨hTree, hNot⟩ := hHandlers u (List.mem_append_left _ hu)
      exact hKept u hTree hNot
    have hGettingIn : Handlers root linked answers.gettingFocus := by
      intro u hu
      obtain ⟨hTree, hNot⟩ := hHandlers u (List.mem_append_right _ hu)
      exact hKept u hTree hNot
    have hMove : Meets enough _
        (trySetFocusedComponent answers root { asked with views := linked } fuel (some v) .none
          .programmatic true) :=
      hSteady.trySetFocusedComponent_meets hForest hLinkedRank hRootFuel hLosingIn hGettingIn
        (fun u hu => Option.some.inj hu ▸ ⟨root, hIn, hRootFuel⟩)
        (fun u hu => Option.some.inj hu ▸ honest_of_within hIn) False.elim
        (fun _ settled hSettled _ =>
          hLosing.imp (fun u _ => hFound u) fun hv => hSettled v rfl (hFound v hv))
        (fun _ => hGetting.imp (fun u _ => hFound u) id)
    apply hMove.bind
    rintro ⟨moved, left⟩ ⟨hNext, -, hMoved, hForce⟩
    obtain rfl : moved = true := hForce rfl fun u hu => Option.some.inj hu ▸ hIn
    exact ⟨linked, hLinked, hNext.focused_of_moved (hMoved rfl)⟩
  · rename_i hStays
    refine ⟨linked, hLinked, hSteady, fun f hf => ?_⟩
    have hFocused : state.m_focusedComponent = some f := hFocus ▸ hf
    have hIn := h.focused.within f hFocused
    apply hKept f hIn
    intro hBelow
    have hEq := hOutside f hFocused hBelow
    rw [hEq] at hIn hf
    exact hStays ⟨hOwn hIn, hf⟩

omit [DecidableEq Θ] in
theorem unmount_meets (h : Sane root emptyTheme state) {v child : ι}
    (hEnabled : FocusEvent.Enabled root answers state (.unmount v child index))
    (hKeeps : FocusEvent.Keeps root answers state (.unmount v child index)) :
    ∃ bound, ∀ fuel, Meets (bound < fuel) (Sane root emptyTheme)
      (state.unmountChildComponentView answers root fuel v child index) := by
  obtain ⟨up, down, hRank⟩ := h.tree.forest.ranked
  refine ⟨up root + down root + up child + down child, fun fuel => ?_⟩
  rw [unmountChildComponentView]
  apply (h.leaveParent_meets hEnabled hKeeps hRank (by omega) (by omega)).bind
  rintro left ⟨linked, hLinked, hLeft⟩
  obtain ⟨hListed, -⟩ := hEnabled
  have hLeftLinked : Relinked state.views left.views v child none
      ((state.views v).m_children.eraseIdx index) := by
    intro x
    obtain ⟨remembered, hx⟩ := hLinked x
    obtain ⟨other, hOther⟩ := hLeft.remembers x
    exact ⟨other, by rw [hOther, hx]⟩
  obtain ⟨hForest, -, hWithin⟩ := h.tree.unmounted_linked hListed hLeftLinked
  have hRun : Meets (up root + down root + up child + down child < fuel)
      (fun views => onUnmounted fuel child left.views = some views)
      (fueled (onUnmounted fuel child left.views) : Focusing _) := by
    apply Meets.of_fueled
    · exact fun _ hViews => hViews
    · intro hEnough
      have hDown : ∀ c p, left.views.parent c = some p → down c < down p := by
        intro c p hp
        rw [hLeftLinked.parent_eq] at hp
        split at hp
        · cases hp
        · exact (hRank c p hp).2
      exact exists_onUnmounted hForest hDown (fun _ => rfl) (by omega)
  apply hRun.bind
  intro views hViews
  obtain ⟨hOut, hIn⟩ := h.tree.unlinked_cells hListed hLeftLinked hViews
  have hCells : ∀ x, (views x).m_rootView = (left.views x).m_rootView ∧
      views.parent x = left.views.parent x := by
    intro x
    by_cases hx : Within state.views.parent child x
    · rw [Views.parent, Views.parent, hIn x hx]
      exact ⟨rfl, rfl⟩
    · rw [Views.parent, Views.parent, hOut x hx]
      exact ⟨rfl, rfl⟩
  have hParents : views.parent = left.views.parent := funext fun x => (hCells x).2
  refine ⟨h.tree.of_unlinked hListed hLeftLinked hViews, ⟨.refl views, ?_, hLeft.told.of_eq rfl rfl⟩,
    ?_⟩
  · intro x r hr
    rw [(hCells x).1] at hr
    exact hLeft.caches x r hr
  · intro f hf
    rw [hParents, hLeft.remembers.parent]
    exact hLeft.within f hf

/-- Every event that keeps the focus in the tree comes to an end, and leaves it there. -/
theorem apply_meets (h : Sane root emptyTheme state) {event : FocusEvent ι}
    (hEnabled : event.Enabled root answers state) (hKeeps : event.Keeps root answers state) :
    ∃ bound, ∀ fuel, Meets (bound < fuel) (Sane root emptyTheme)
      (event.apply answers root emptyTheme fuel state) := by
  cases event with
  | mount v child index => exact h.mount_meets hEnabled
  | unmount v child index => exact h.unmount_meets hEnabled hKeeps
  | trySetFocusedComponent view direction focusState force =>
    obtain ⟨hLosingIn, hGettingIn⟩ := hEnabled
    obtain ⟨hHonest, hGivenUp⟩ := hKeeps
    obtain ⟨up, down, hRank⟩ := h.tree.forest.ranked
    obtain ⟨bound, hBound⟩ : ∃ bound, ∀ v, view = some v → up v + down v ≤ bound := by
      cases view with
      | none => exact ⟨0, nofun⟩
      | some v => exact ⟨up v + down v, fun u hu => Option.some.inj hu ▸ Nat.le_refl _⟩
    refine ⟨up root + down root + bound, fun fuel => ?_⟩
    have hViewFuel : ∀ v, view = some v → ∃ top, Within state.views.parent top v ∧
        (up root + down root + bound < fuel → up top + down top < fuel) := by
      intro v hv
      refine ⟨v, .refl v, fun hEnough => ?_⟩
      have hLe := hBound v hv
      omega
    have hMove : Meets (up root + down root + bound < fuel) _
        (state.trySetFocusedComponent answers root fuel view direction focusState force) :=
      h.focused.trySetFocusedComponent_meets h.tree.forest hRank (by omega) hLosingIn hGettingIn
        hViewFuel hHonest fun hSome settled hFound hStays => by
          by_cases hSettled : settled
          · exact (settles_true _ _).imp (fun _ _ hu => hu) fun _ => hSettled
          apply (hGivenUp hSome _ fun v hv hFocusable => hSettled (hFound v hv hFocusable)).imp
            (fun _ _ hu => hu) False.elim
          by_contra hNeither
          obtain ⟨hNotNone, hNotForced⟩ := not_or.mp hNeither
          exact hSettled (hStays (Option.isSome_iff_ne_none.mpr hNotNone)
            (Bool.not_eq_true _ ▸ hNotForced))
    apply hMove.bind
    intro moved hMoved
    exact h.of_focused hMoved
  | tryMoveFocus forward focusState departed =>
    obtain ⟨bound, hMove⟩ := h.tryMoveFocus_meets hEnabled.1 hEnabled.2 forward focusState departed
    refine ⟨bound, fun fuel => ?_⟩
    apply (hMove fuel).bind
    intro moved hMoved
    exact h.of_focused hMoved
  | navigateFocus reason =>
    obtain ⟨up, down, hRank⟩ := h.tree.forest.ranked
    refine ⟨up root + down root, fun fuel => ?_⟩
    have hMove : Meets (up root + down root < fuel) _
        (state.navigateFocus answers root fuel reason) :=
      h.focused.navigateFocus_meets h.tree.forest hRank id hEnabled.1 hEnabled.2
    apply hMove.bind
    intro moved hMoved
    exact h.of_focused hMoved
  | stop =>
    refine ⟨0, fun fuel => ?_⟩
    have hNone : state.m_focusedComponent = none := hKeeps
    show Sane root emptyTheme state.stop
    rw [RootComponentView.stop, RootComponentView.setFocusedComponent, if_pos hNone]
    exact h

end Sane
end RootComponentView

open RootComponentView

theorem FocusReachable.sane {root : ι} {emptyTheme : Θ}
    {accepted : FocusAnswers ι → RootComponentView ι Θ → FocusEvent ι → Prop}
    {state : RootComponentView ι Θ}
    (hAccepted : ∀ answers state event, accepted answers state event → event.Keeps root answers state)
    (h : FocusReachable root emptyTheme accepted state) : Sane root emptyTheme state := by
  induction h with
  | @initial state alone unfocused silent =>
    have hTold : ∀ x, state.told x = [] := by
      intro x
      rw [told, silent]
      rfl
    refine ⟨.of_initial alone, ⟨.refl state.views, ?_, ?_, ?_⟩, ?_⟩
    · intro x r hr
      rw [alone.rootView] at hr
      cases hr
    · intro x
      rw [hTold]
      exact .singleton false
    · intro x
      rw [hTold, unfocused]
      constructor <;> intro h <;> cases h
    · intro f hf
      rw [unfocused] at hf
      cases hf
  | @step state next answers event fuel prior enabled accept last ih =>
    obtain ⟨bound, hMeets⟩ := ih.apply_meets enabled (hAccepted _ _ _ accept)
    exact (hMeets fuel).of_eq_ok last

/-- The focus is in the tree in every run whose events keep it there, components are told in turns that
they got and lost it, and every such event comes to an end. -/
theorem FocusReachable.focus_in_tree {root : ι} {emptyTheme : Θ}
    {accepted : FocusAnswers ι → RootComponentView ι Θ → FocusEvent ι → Prop}
    {state : RootComponentView ι Θ}
    (hAccepted : ∀ answers state event, accepted answers state event → event.Keeps root answers state)
    (h : FocusReachable root emptyTheme accepted state) :
    (∀ f, state.m_focusedComponent = some f → Within state.views.parent root f) ∧
    (∀ x, List.IsChain (· ≠ ·) (state.told x ++ [false]) ∧
      ((state.told x).head?.getD false = true ↔ state.m_focusedComponent = some x)) ∧
    (∀ value direction focusState,
      (state.setFocusedComponent value direction focusState).m_focusedComponent = value ↔
        (value = none → state.m_focusedComponent = none)) ∧
    ∀ (answers : FocusAnswers ι) (event : FocusEvent ι), event.Enabled root answers state →
      event.Keeps root answers state →
      (∃ fuel next, event.apply answers root emptyTheme fuel state = .ok next) ∧
        ∀ fuel fault, event.apply answers root emptyTheme fuel state ≠ .error (.fault fault) := by
  have hSane := h.sane hAccepted
  refine ⟨hSane.focused.within, fun x => ?_, state.setFocusedComponent_eq_iff,
    fun answers event hEnabled hKeeps => ?_⟩
  · exact ⟨hSane.focused.told.alternate x, hSane.focused.told.focused x⟩
  · obtain ⟨bound, hMeets⟩ := hSane.apply_meets hEnabled hKeeps
    refine ⟨?_, fun fuel fault hFault => ?_⟩
    · obtain ⟨next, hNext, -⟩ := (hMeets (bound + 1)).exists_ok (Nat.lt_succ_self bound)
      exact ⟨bound + 1, next, hNext⟩
    · have hMeet := hMeets fuel
      rw [hFault] at hMeet
      exact hMeet

def lonelyRoot : RootComponentView ℕ Unit :=
  { views := lonelyViews, m_focusedComponent := none, m_focusState := .unfocused,
    m_useKeyboardForProgrammaticFocus := true, notices := [] }

def willing : FocusAnswers ℕ := { focusable := fun _ => true, losingFocus := [], gettingFocus := [] }

variable {state : RootComponentView ℕ Unit}

theorem willing_mount {v child : ℕ} (hView : (state.views v).m_parent = none)
    (hChild : (state.views child).m_parent = none) (hNe : child ≠ v) (hRoot : child ≠ 0) :
    FocusEvent.Enabled 0 willing state (.mount v child 0) := by
  have hAlone : decide (child = 0) = false := decide_eq_false hRoot
  show Event.Enabled (· = 0) state.views (.mount v child 0)
  exact alone_enabled hView hChild hNe hAlone

theorem willing_unmount {v child index : ℕ}
    (hListed : (state.views v).m_children[index]? = some child) :
    FocusEvent.Enabled 0 willing state (.unmount v child index) :=
  ⟨listed_enabled hListed, nofun⟩

theorem willing_focus (state : RootComponentView ℕ Unit) (view : Option ℕ)
    (focusState : FocusState) :
    FocusEvent.Enabled 0 willing state (.trySetFocusedComponent view .none focusState false) :=
  ⟨nofun, nofun⟩

/-- A handler of getting the focus passes it on to another view. -/
def passing : FocusAnswers ℕ :=
  { willing with gettingFocus := [.trySetNewFocusedComponent 2] }

theorem passing_focus (hWithin : Within state.views.parent 0 2) (view : Option ℕ)
    (focusState : FocusState) :
    FocusEvent.Enabled 0 passing state (.trySetFocusedComponent view .none focusState false) := by
  refine ⟨nofun, fun u hMem => ?_⟩
  cases List.mem_singleton.mp hMem
  exact hWithin

theorem keeps_first {answers : FocusAnswers ℕ} (hNone : state.m_focusedComponent = none) {v : ℕ}
    (hWithin : Within state.views.parent 0 v) (focusState : FocusState) :
    FocusEvent.Keeps 0 answers state (.trySetFocusedComponent (some v) .none focusState false) :=
  ⟨fun _ hv => Option.some.inj hv ▸ honest_of_within hWithin, fun hSome => absurd hNone hSome⟩

/-- The focus goes to the root when a view that has it is taken out of the root. -/
theorem keeps_unmount {child index : ℕ} (hFocused : state.m_focusedComponent = some child)
    (hChild : child ≠ 0) (hRoot : state.views.parent 0 = none) :
    FocusEvent.Keeps 0 willing state (.unmount 0 child index) := by
  refine ⟨fun f hf _ => Option.some.inj (hf.symm.trans hFocused), fun _ => ⟨⟨0, .refl 0, ?_, rfl⟩, trivial⟩⟩
  exact fun hWithin => hChild (hWithin.eq_of_parent_none hRoot)

/-- The focus is passed on to the second of two views, and is in the tree still when this one is
unmounted. -/
theorem focused_in_tree : ∃ before after : RootComponentView ℕ Unit,
    before.m_focusedComponent = some 2 ∧ after.m_focusedComponent = some 0 ∧
      after.told 2 = [false, true] ∧ Within after.views.parent 0 0 := by
  have hStart : FocusReachable 0 () (fun answers state event => event.Keeps 0 answers state)
      lonelyRoot :=
    .initial lonelyViews_initial rfl rfl
  have hOne : FocusReachable 0 () (fun answers state event => event.Keeps 0 answers state) _ :=
    .step hStart (willing_mount rfl rfl (by decide) (by decide)) trivial
      (rfl : FocusEvent.apply willing 0 () 2 lonelyRoot (.mount 0 2 0) = .ok _)
  have hTwo : FocusReachable 0 () (fun answers state event => event.Keeps 0 answers state) _ :=
    .step hOne (willing_mount rfl rfl (by decide) (by decide)) trivial
      (rfl : FocusEvent.apply willing 0 () 2 _ (.mount 0 1 0) = .ok _)
  have hFocused : FocusReachable 0 () (fun answers state event => event.Keeps 0 answers state) _ :=
    .step hTwo (passing_focus (.of_parent rfl) (some 1) .pointer)
      (keeps_first rfl (.of_parent rfl) .pointer)
      (rfl : FocusEvent.apply passing 0 () 3 _ (.trySetFocusedComponent (some 1) .none .pointer false) =
        .ok _)
  have hUnmounted : FocusReachable 0 () (fun answers state event => event.Keeps 0 answers state) _ :=
    .step hFocused (willing_unmount rfl) (keeps_unmount rfl (by decide) rfl)
      (rfl : FocusEvent.apply willing 0 () 4 _ (.unmount 0 2 1) = .ok _)
  obtain ⟨before, after, -, hAfter, hBefore, hMoved, hTold⟩ : ∃ before after : RootComponentView ℕ Unit,
      FocusReachable 0 () (fun answers state event => event.Keeps 0 answers state) before ∧
      FocusReachable 0 () (fun answers state event => event.Keeps 0 answers state) after ∧
      before.m_focusedComponent = some 2 ∧ after.m_focusedComponent = some 0 ∧
        after.told 2 = [false, true] :=
    ⟨_, _, hFocused, hUnmounted, rfl, rfl, rfl⟩
  exact ⟨before, after, hBefore, hMoved, hTold,
    (hAfter.focus_in_tree fun _ _ _ hKeeps => hKeeps).1 0 hMoved⟩

/-- A view within an unmounted one keeps the focus. It also keeps it when the focus is set to none, and
is told twice that it lost it. -/
theorem focus_left_behind : ∃ state : RootComponentView ℕ Unit,
    FocusReachable 0 () (fun _ _ _ => True) state ∧ state.m_focusedComponent = some 2 ∧
      (state.views 2).m_parent = some 1 ∧ (state.views 1).m_parent = none ∧
      (state.setFocusedComponent none .none .programmatic).m_focusedComponent = some 2 ∧
      state.stop.stop.told 2 = [false, false, true] := by
  have hStart : FocusReachable 0 () (fun _ _ _ => True) lonelyRoot :=
    .initial lonelyViews_initial rfl rfl
  have hBelow : FocusReachable 0 () (fun _ _ _ => True) _ :=
    .step hStart (willing_mount rfl rfl (by decide) (by decide)) trivial
      (rfl : FocusEvent.apply willing 0 () 2 lonelyRoot (.mount 1 2 0) = .ok _)
  have hMounted : FocusReachable 0 () (fun _ _ _ => True) _ :=
    .step hBelow (willing_mount rfl rfl (by decide) (by decide)) trivial
      (rfl : FocusEvent.apply willing 0 () 3 _ (.mount 0 1 0) = .ok _)
  have hFocused : FocusReachable 0 () (fun _ _ _ => True) _ :=
    .step hMounted (willing_focus _ (some 2) .pointer) trivial
      (rfl : FocusEvent.apply willing 0 () 4 _ (.trySetFocusedComponent (some 2) .none .pointer false) =
        .ok _)
  have hUnmounted : FocusReachable 0 () (fun _ _ _ => True) _ :=
    .step hFocused (willing_unmount rfl) trivial
      (rfl : FocusEvent.apply willing 0 () 4 _ (.unmount 0 1 0) = .ok _)
  exact ⟨_, hUnmounted, rfl, rfl, rfl, rfl, rfl⟩

end Fabric
