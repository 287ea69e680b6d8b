import ReactNativeWindows.Collections.PreOrder
import ReactNativeWindows.Control.Results
import ReactNativeWindows.Fabric.FocusRuns

/-! The order in which the focus goes through a tree when no handler asks for anything: the views that
take focus come in pre-order, and after the last one comes the first. -/
namespace Fabric

open Collections Collections.Forest Control

universe u

variable {ι Θ : Type u} [DecidableEq ι]

def quiet (focusable : ι → Bool) : FocusAnswers ι where
  focusable := focusable
  losingFocus := []
  gettingFocus := []

section Runs

variable [DecidableEq Θ] {root : ι} {emptyTheme : Θ} {views next : Views ι Θ} {v child : ι} {index : ℕ}
  {fuel : ℕ}

omit [DecidableEq Θ] in
theorem caches_children (h : Caches root views) (children : List ι) :
    Caches root (Function.update views v { views v with m_children := children }) := by
  intro x r hr
  rw [(children_changed views v children).2] at hr
  exact h x r hr

omit [DecidableEq Θ] in
theorem caches_unlinked (h : Caches root views) (child : ι) (parent : Option ι) :
    Caches root (Function.update views child
      { views child with m_rootView := none, m_parent := parent }) := by
  intro x r hr
  by_cases hEq : x = child
  · rw [hEq, Function.update_self] at hr
    cases hr
  · rw [Function.update_of_ne hEq] at hr
    exact h x r hr

theorem caches_mount (hTree : Tree (· = root) emptyTheme views) (h : Caches root views)
    (hEnabled : Event.Enabled (· = root) views (.mount v child index))
    (hRun : mountChildComponentView (· = root) emptyTheme fuel v child index views = some next) :
    Caches root next := by
  obtain ⟨asked, linked, found, hAsked, rfl, -, hOut, hIn⟩ := mount_cells hTree hEnabled hRun
  have hLinked := caches_unlinked (rootComponentView_own (caches_children h _) hAsked).1 child (some v)
  intro x r hr
  by_cases hx : Within views.parent child x
  · rw [hIn x hx] at hr
    exact hLinked x r hr
  · rw [hOut x hx] at hr
    exact hLinked x r hr

theorem caches_unmount (hTree : Tree (· = root) emptyTheme views) (h : Caches root views)
    (hEnabled : Event.Enabled (· = root) views (.unmount v child index))
    (hRun : unmountChildComponentView (· = root) emptyTheme fuel v child index views = some next) :
    Caches root next := by
  obtain ⟨asked, linked, found, hAsked, rfl, -, hOut, hIn⟩ := hTree.unmount_cells hEnabled hRun
  have hLinked := caches_unlinked (rootComponentView_own (caches_children h _) hAsked).1 child none
  intro x r hr
  by_cases hx : Within views.parent child x
  · rw [hIn x hx] at hr
    exact hLinked x r hr
  · rw [hOut x hx] at hr
    exact hLinked x r hr

/-- Views remember the only root there is, or none. -/
theorem Reachable.caches {accepted : Views ι Θ → Event ι → Prop}
    (h : Reachable (· = root) emptyTheme accepted views) : Caches root views := by
  induction h with
  | initial hInitial =>
    intro x r hr
    rw [hInitial.rootView x] at hr
    cases hr
  | @step views next event fuel prior enabled _ last ih =>
    cases event with
    | mount v child index => exact caches_mount prior.tree ih enabled last
    | unmount v child index => exact caches_unmount prior.tree ih enabled last
    | askRoot v =>
      obtain ⟨⟨found, asked⟩, hAsked, hEq⟩ := Option.map_eq_some_iff.mp last
      cases hEq
      exact (rootComponentView_own ih hAsked).1

end Runs

/-! ### The search -/

omit [DecidableEq ι] in
theorem firstFound_eq {find : ι → Option (Option ι)} {f : ι → Option ι} {vs : List ι}
    (h : ∀ v ∈ vs, find v = some (f v)) : firstFound find vs = some (vs.findSome? f) := by
  induction vs with
  | nil => rfl
  | cons v vs ih =>
    have hRest := ih fun w hw => h w (List.mem_cons_of_mem v hw)
    rw [firstFound, h v List.mem_cons_self, List.findSome?_cons]
    cases f v with
    | some x => rfl
    | none => exact hRest

section Search

variable {answers : FocusAnswers ι} {views : Views ι Θ} {fuel : ℕ} {down : ι → ℕ}
  (hForest : IsForest views.parent views.children)
  (hDown : ∀ c p, views.parent c = some p → down c < down p)

include hDown

omit [DecidableEq ι] in
theorem findFirst_eq {v : ι} (hFuel : down v < fuel) :
    findFirstFocusableElement answers views fuel v =
      some ((hForest.preOrder v).find? answers.focusable) := by
  rw [findFirstFocusableElement]
  induction fuel generalizing v with
  | zero => exact absurd hFuel (Nat.not_lt_zero _)
  | succ fuel ih =>
    have hChildren : ∀ c ∈ (views v).m_children,
        navigateFocusHelper answers views .first fuel c =
          some ((hForest.preOrder c).find? answers.focusable) := by
      intro c hMem
      have hLt := hDown c v ((hForest.mem_children c v).mp hMem)
      exact ih (by omega)
    rw [navigateFocusHelper, hForest.preOrder_eq, List.find?_cons, List.find?_flatMap]
    cases hOwn : answers.focusable v with
    | true => simp
    | false =>
      simp only [Bool.false_eq_true, and_false, if_false, if_true, firstFound_eq hChildren,
        Option.bind_eq_bind, Option.bind_some]
      show _ = some ((views v).m_children.findSome? _)
      cases (views v).m_children.findSome? fun c => (hForest.preOrder c).find? answers.focusable with
      | some x | none => rfl

omit [DecidableEq ι] in
theorem findLast_eq {v : ι} (hFuel : down v < fuel) :
    findLastFocusableElement answers views fuel v =
      some ((hForest.preOrder v).reverse.find? answers.focusable) := by
  rw [findLastFocusableElement]
  induction fuel generalizing v with
  | zero => exact absurd hFuel (Nat.not_lt_zero _)
  | succ fuel ih =>
    have hChildren : ∀ c ∈ (views v).m_children.reverse,
        navigateFocusHelper answers views .last fuel c =
          some ((hForest.preOrder c).reverse.find? answers.focusable) := by
      intro c hMem
      have hLt := hDown c v ((hForest.mem_children c v).mp (List.mem_reverse.mp hMem))
      exact ih (by omega)
    have hOrder : (hForest.preOrder v).reverse =
        ((views v).m_children.reverse.flatMap fun c => (hForest.preOrder c).reverse) ++ [v] := by
      rw [hForest.preOrder_eq, List.reverse_cons, List.reverse_flatMap]
      rfl
    rw [navigateFocusHelper, hOrder, List.find?_append, List.find?_flatMap]
    simp only [reduceCtorEq, false_and, if_false, firstFound_eq hChildren, Option.bind_eq_bind,
      Option.bind_some, true_and]
    cases (views v).m_children.reverse.findSome?
        fun c => (hForest.preOrder c).reverse.find? answers.focusable with
    | some x => rfl
    | none =>
      cases hOwn : answers.focusable v with
      | true | false => simp [hOwn]

end Search

namespace RootComponentView

variable {root : ι} {tree : Views ι Θ} {state next : RootComponentView ι Θ} {up down : ι → ℕ} {fuel : ℕ}

/-! ### One view that takes focus -/

structure SameTree (root : ι) (tree : Views ι Θ) (state : RootComponentView ι Θ) : Prop where
  remembers : Remembers tree state.views
  caches : Caches root state.views

omit [DecidableEq ι] in
theorem SameTree.forest (h : SameTree root tree state) (hForest : IsForest tree.parent tree.children) :
    IsForest state.views.parent state.views.children := by
  rw [h.remembers.parent, h.remembers.children]
  exact hForest

omit [DecidableEq ι] in
/-- One order fits the tree, whatever views remember. -/
theorem SameTree.preOrder_eq (h : SameTree root tree state)
    (hForest : IsForest tree.parent tree.children) (v : ι) :
    (h.forest hForest).preOrder v = hForest.preOrder v := by
  induction v using hForest.children_induction with
  | _ v ih =>
    have hChildren : state.views.children v = tree.children v := congrFun h.remembers.children v
    rw [(h.forest hForest).preOrder_eq, hForest.preOrder_eq, hChildren, List.flatMap_def,
      List.flatMap_def, List.map_congr_left ih]

section Moves

variable (hRank : ∀ c p, tree.parent c = some p → up p < up c ∧ down c < down p)
  (hFuel : up root + down root < fuel) (focusable : ι → Bool)

include hRank hFuel

theorem SameTree.askRoot_eq (h : SameTree root tree state) {x : ι} (hx : Within tree.parent root x) :
    ∃ asked, state.askRoot root fuel x = .ok (some root, asked) ∧ SameTree root tree asked ∧
      asked.m_focusedComponent = state.m_focusedComponent := by
  have hRanks : ∀ c p, state.views.parent c = some p → up p < up c ∧ down c < down p := by
    rw [h.remembers.parent]
    exact hRank
  have hWithin : Within state.views.parent root x := by
    rw [h.remembers.parent]
    exact hx
  obtain ⟨⟨found, views⟩, hAsked⟩ : ∃ result,
      rootComponentView (· = root) fuel x state.views = some result :=
    exists_rootComponentView_within hRanks hWithin (Nat.lt_of_lt_of_le hFuel (Nat.le_add_right _ _))
  obtain ⟨hCaches, -, hOwn⟩ := rootComponentView_own h.caches hAsked
  obtain rfl := hOwn hWithin
  refine ⟨{ state with views }, ?_, ⟨h.remembers.trans (rootComponentView_remembers hAsked), hCaches⟩, rfl⟩
  rw [askRoot, hAsked]
  rfl

theorem SameTree.trySetFocusedComponent_eq (h : SameTree root tree state) {x : ι}
    (hx : Within tree.parent root x) (hFocusable : focusable x = true)
    (direction : FocusNavigationDirection) (focusState : FocusState) :
    ∃ moved, state.trySetFocusedComponent (quiet focusable) root fuel (some x) direction focusState
        false = .ok (true, moved) ∧ SameTree root tree moved ∧ moved.m_focusedComponent = some x := by
  obtain ⟨asked, hAsked, hSame, hFocus⟩ := h.askRoot_eq hRank hFuel hx
  obtain ⟨again, hAgain, hSameAgain, -⟩ := hSame.askRoot_eq hRank hFuel hx
  have hTarget : state.focusTarget (quiet focusable) fuel direction (some x) = .ok (some x) := by
    rw [focusTarget]
    exact if_pos hFocusable
  have hLosing : asked.onLosingFocus (quiet focusable) fuel (some x) = .ok (some x) := by
    rw [onLosingFocus]
    cases asked.m_focusedComponent with
    | none | some focused => rfl
  have hMove : asked.moveFocus (quiet focusable) root fuel (some x) direction focusState =
      .ok (again.setFocusedComponent (some x) direction focusState) := by
    simp only [moveFocus, hLosing, ok_bind, hAgain]
    rfl
  refine ⟨again.setFocusedComponent (some x) direction focusState, ?_, ?_, ?_⟩
  · simp only [trySetFocusedComponent, hTarget, ok_bind, hAsked, ne_eq, not_true_eq_false, if_false,
      hMove]
    rfl
  · refine ⟨?_, ?_⟩
    · rw [setFocusedComponent_views]
      exact hSameAgain.remembers
    · rw [setFocusedComponent_views]
      exact hSameAgain.caches
  · exact (setFocusedComponent_eq_iff again (some x) direction focusState).mpr (by simp)

theorem SameTree.tryFocusOn_eq (h : SameTree root tree state) {x : ι}
    (hx : Within tree.parent root x) (currentlyFocused : ι) (forward : Bool) (focusState : FocusState) :
    ∃ moved, tryFocusOn (quiet focusable) root fuel currentlyFocused forward focusState x state =
        .ok (decide (x ≠ currentlyFocused) && focusable x, moved) ∧ SameTree root tree moved ∧
      moved.m_focusedComponent = if x ≠ currentlyFocused ∧ focusable x = true then some x
        else state.m_focusedComponent := by
  rw [tryFocusOn]
  by_cases hOwn : x = currentlyFocused
  · refine ⟨state, ?_, h, ?_⟩
    · simp [hOwn]
      rfl
    · simp [hOwn]
  by_cases hFocusable : focusable x = true
  · obtain ⟨asked, hAsked, hSame, -⟩ := h.askRoot_eq hRank hFuel hx
    obtain ⟨moved, hMoved, hSameMoved, hFocus⟩ := hSame.trySetFocusedComponent_eq hRank hFuel focusable hx
      hFocusable (if forward then .next else .previous) focusState
    refine ⟨moved, ?_, hSameMoved, ?_⟩
    · have hTakes : ¬(quiet focusable).focusable x = false := by simpa [quiet] using hFocusable
      rw [if_neg hOwn, if_neg hTakes, hAsked]
      show trySetFocusedComponent (quiet focusable) root asked fuel (some x) _ focusState false = _
      rw [hMoved]
      simp [hOwn, hFocusable]
    · rw [hFocus, if_pos ⟨hOwn, hFocusable⟩]
  · have hNot : (quiet focusable).focusable x = false := by simpa [quiet] using hFocusable
    refine ⟨state, ?_, h, ?_⟩
    · rw [if_neg hOwn, if_pos hNot]
      simp [hFocusable]
      rfl
    · rw [if_neg fun hBoth => hFocusable hBoth.2]

end Moves

/-! ### Walks -/

def visitUntil (fn : ι → RootComponentView ι Θ → Focusing (Bool × RootComponentView ι Θ)) :
    List ι → RootComponentView ι Θ → Focusing (Bool × RootComponentView ι Θ)
  | [], self => return (false, self)
  | view :: views, self => do
    match ← fn view self with
    | (true, self) => return (true, self)
    | (false, self) => visitUntil fn views self

section Walks

variable {fn : ι → RootComponentView ι Θ → Focusing (Bool × RootComponentView ι Θ)}
  (hForest : IsForest tree.parent tree.children)
  (hRank : ∀ c p, tree.parent c = some p → up p < up c ∧ down c < down p)
  (hTop : tree.parent root = none)
  (hFn : ∀ view state, Within tree.parent root view → SameTree root tree state →
    ∃ done next, fn view state = .ok (done, next) ∧ SameTree root tree next)

variable {views : Views ι Θ} {view : ι}

include hRank hTop in
/-- The walk goes on with the first view that comes after those within this one. -/
theorem nextView_eq (fuel : ℕ) (hSame : Remembers tree views) (hView : Within tree.parent root view)
    (hFuel : down root < fuel + down view) :
    (nextView views fuel view = some none ∧ hForest.afterNode view = []) ∨
      ∃ s, nextView views fuel view = some (some s) ∧ Within tree.parent root s ∧
        hForest.afterNode view = hForest.preOrder s ++ hForest.afterNode s := by
  induction fuel generalizing view with
  | zero =>
    have hLe := down_le hRank hView
    omega
  | succ fuel ih =>
    have hParents : (views view).m_parent = tree.parent view := congrFun hSame.parent view
    rw [nextView, hParents]
    cases hParent : tree.parent view with
    | none => exact .inl ⟨rfl, hForest.afterNode_of_none hParent⟩
    | some p =>
      have hChildren : (views p).m_children = tree.children p := congrFun hSame.children p
      obtain ⟨q, hq, hUp⟩ := hView.of_ne fun hEq => by
        rw [hEq, hTop] at hParent
        cases hParent
      rw [hParent] at hq
      cases hq
      simp only [hChildren]
      cases hNext : (tree.children p)[(tree.children p).idxOf view + 1]? with
      | some s =>
        have hMem := (hForest.mem_children s p).mp (List.mem_of_getElem? hNext)
        exact .inr ⟨s, rfl, hUp.trans (.of_parent hMem),
          hForest.afterNode_of_sibling hParent hNext⟩
      | none =>
        rw [hForest.afterNode_of_last hParent hNext]
        have hDown := (hRank view p hParent).2
        exact ih hUp (by omega)

include hRank in
theorem lastDeepChild_eq (fuel : ℕ) (hSame : Remembers tree views) (hFuel : down view < fuel) :
    ∃ last, lastDeepChild views fuel view = some last ∧ Within tree.parent view last ∧
      hForest.beforeNode view ++ hForest.preOrder view = hForest.beforeNode last ++ [last] := by
  induction fuel generalizing view with
  | zero => exact absurd hFuel (Nat.not_lt_zero _)
  | succ fuel ih =>
    have hChildren : (views view).m_children = tree.children view := congrFun hSame.children view
    rw [lastDeepChild, hChildren]
    cases hChild : (tree.children view).getLast? with
    | none =>
      refine ⟨view, rfl, .refl view, ?_⟩
      rw [hForest.preOrder_leaf (List.getLast?_eq_none_iff.mp hChild)]
    | some child =>
      have hParent := (hForest.mem_children child view).mp (List.mem_of_getLast? hChild)
      have hDown := (hRank child view hParent).2
      obtain ⟨last, hLast, hWithin, hBefore⟩ := @ih child (by omega)
      refine ⟨last, hLast, (Within.of_parent hParent).trans hWithin, ?_⟩
      rw [hForest.beforeNode_of_last hChild, hBefore]

include hRank hTop hFn

theorem walkForward_eq (fuel : ℕ) (h : SameTree root tree state)
    (hView : Within tree.parent root view)
    (hFuel : (hForest.preOrder view ++ hForest.afterNode view).length + down root < fuel) :
    walkForward fn fuel view state =
      visitUntil fn (hForest.preOrder view ++ hForest.afterNode view) state := by
  induction fuel generalizing view state with
  | zero => exact absurd hFuel (Nat.not_lt_zero _)
  | succ fuel ih =>
    obtain ⟨done, next, hDone, hNext⟩ := hFn view state hView h
    have hChildren : (next.views view).m_children = tree.children view :=
      congrFun hNext.remembers.children view
    cases hKids : tree.children view with
    | cons c cs =>
      have hParent := (hForest.mem_children c view).mp (hKids ▸ List.mem_cons_self)
      have hOrder := hForest.preOrder_append_after hKids
      rw [hOrder, List.length_cons] at hFuel
      have hRest := ih hNext (hView.trans (.of_parent hParent)) (by omega)
      rw [walkForward, hOrder, visitUntil, hDone]
      cases done with
      | true => rfl
      | false =>
        simp only [ok_bind, hChildren, hKids]
        exact hRest
    | nil =>
      have hOrder : hForest.preOrder view = [view] := hForest.preOrder_leaf hKids
      rw [hOrder, List.singleton_append, List.length_cons] at hFuel
      rw [walkForward, hOrder, List.singleton_append, visitUntil, hDone]
      cases done with
      | true => rfl
      | false =>
        simp only [ok_bind, hChildren, hKids]
        rcases nextView_eq hForest hRank hTop fuel hNext.remembers hView (by omega) with
          ⟨hNone, hAfter⟩ | ⟨s, hSome, hWithin, hAfter⟩
        · rw [hAfter, hNone]
          rfl
        · rw [hAfter] at hFuel
          rw [hAfter, hSome]
          exact ih hNext hWithin (by omega)

theorem walkBackward_eq (fuel : ℕ) (h : SameTree root tree state)
    (hView : Within tree.parent root view)
    (hFuel : (hForest.beforeNode view).length + down root < fuel) :
    walkBackward fn fuel view state = visitUntil fn (hForest.beforeNode view).reverse state := by
  induction fuel generalizing view state with
  | zero => exact absurd hFuel (Nat.not_lt_zero _)
  | succ fuel ih =>
    have hParents : (state.views view).m_parent = tree.parent view :=
      congrFun h.remembers.parent view
    rw [walkBackward, hParents]
    cases hParent : tree.parent view with
    | none =>
      rw [hForest.beforeNode_of_none hParent]
      rfl
    | some p =>
      have hChildren : (state.views p).m_children = tree.children p :=
        congrFun h.remembers.children p
      obtain ⟨q, hq, hUp⟩ := hView.of_ne fun hEq => by
        rw [hEq, hTop] at hParent
        cases hParent
      rw [hParent] at hq
      cases hq
      simp only [hChildren]
      cases hIdx : (tree.children p).idxOf view with
      | zero =>
        have hBefore := hForest.beforeNode_of_first hParent hIdx
        rw [hBefore, List.length_append, List.length_singleton] at hFuel
        obtain ⟨done, next, hDone, hNext⟩ := hFn p state hUp h
        rw [hBefore, List.reverse_append, List.reverse_singleton, List.singleton_append,
          visitUntil]
        simp only [hDone]
        cases done with
        | true => rfl
        | false => exact ih hNext hUp (by omega)
      | succ index =>
        have hLength : index < (tree.children p).length := by
          have hLt := hForest.idxOf_lt hParent
          omega
        have hPrevious := List.getElem?_eq_getElem hLength
        have hIn : tree.parent (tree.children p)[index] = some p :=
          (hForest.mem_children _ p).mp (List.getElem_mem hLength)
        have hLe := down_le hRank hUp
        have hLt := (hRank _ p hIn).2
        obtain ⟨last, hLast, hWithin, hDeep⟩ := lastDeepChild_eq hForest hRank fuel h.remembers
          (lt_of_lt_of_le hLt (by omega) : down (tree.children p)[index] < fuel)
        have hBefore := (hForest.beforeNode_of_sibling hParent hIdx hPrevious).trans hDeep
        rw [hBefore, List.length_append, List.length_singleton] at hFuel
        have hLastIn := (hUp.trans (.of_parent hIn)).trans hWithin
        obtain ⟨done, next, hDone, hNext⟩ := hFn last state hLastIn h
        rw [hBefore, List.reverse_append, List.reverse_singleton, List.singleton_append,
          visitUntil]
        simp only [hPrevious, hLast]
        show (fn last state >>= _) = _
        simp only [hDone]
        cases done with
        | true => rfl
        | false => exact ih hNext hLastIn (by omega)

end Walks

/-! ### One move -/

theorem find?_of_notMem {f : ι} {views : List ι} (h : f ∉ views) (focusable : ι → Bool) :
    (views.find? fun x => decide (x ≠ f) && focusable x) = views.find? focusable := by
  refine List.find?_congr fun x hx => ?_
  have hNe : x ≠ f := fun hEq => h (hEq ▸ hx)
  simp [hNe]

section Moves

variable (hForest : IsForest tree.parent tree.children)
  (hRank : ∀ c p, tree.parent c = some p → up p < up c ∧ down c < down p)
  (hTop : tree.parent root = none) (hFuel : up root + down root < fuel) (focusable : ι → Bool)
include hRank hFuel

/-- The focus is set to the first visited view that takes it and has it not yet. -/
theorem SameTree.visitUntil_tryFocusOn (h : SameTree root tree state) {views : List ι}
    (hViews : ∀ x ∈ views, Within tree.parent root x) (currentlyFocused : ι) (forward : Bool)
    (focusState : FocusState) :
    ∃ moved, visitUntil (tryFocusOn (quiet focusable) root fuel currentlyFocused forward focusState)
        views state = .ok ((views.find? fun x => decide (x ≠ currentlyFocused) && focusable x).isSome,
          moved) ∧ SameTree root tree moved ∧
      moved.m_focusedComponent =
        (views.find? fun x => decide (x ≠ currentlyFocused) && focusable x).or
          state.m_focusedComponent := by
  induction views generalizing state with
  | nil => exact ⟨state, rfl, h, rfl⟩
  | cons x views ih =>
    obtain ⟨moved, hMoved, hSame, hFocus⟩ := h.tryFocusOn_eq hRank hFuel focusable
      (hViews x List.mem_cons_self) currentlyFocused forward focusState
    rw [visitUntil, hMoved, ok_bind, List.find?_cons]
    cases hTakes : decide (x ≠ currentlyFocused) && focusable x with
    | true =>
      rw [if_pos (by simpa using hTakes)] at hFocus
      exact ⟨moved, rfl, hSame, hFocus⟩
    | false =>
      rw [if_neg (by simpa using hTakes)] at hFocus
      obtain ⟨last, hLast, hSameLast, hFocusLast⟩ := ih hSame fun y hy =>
        hViews y (List.mem_cons_of_mem x hy)
      rw [hFocus] at hFocusLast
      exact ⟨last, hLast, hSameLast, hFocusLast⟩

include hForest in
theorem SameTree.navigateFocus_eq (h : SameTree root tree state) (forward : Bool) :
    let order := if forward then hForest.preOrder root else (hForest.preOrder root).reverse
    ∃ moved, state.navigateFocus (quiet focusable) root fuel (if forward then .first else .last) =
        .ok ((order.find? focusable).isSome, moved) ∧ SameTree root tree moved ∧
      moved.m_focusedComponent = (order.find? focusable).or state.m_focusedComponent := by
  intro order
  have hDowns : ∀ c p, state.views.parent c = some p → down c < down p := by
    rw [h.remembers.parent]
    exact fun c p hParent => (hRank c p hParent).2
  have hRoot : down root < fuel := by omega
  have hSearch : (if (if forward then FocusNavigationReason.first else .last) = .last then
      findLastFocusableElement (quiet focusable) state.views fuel root
      else findFirstFocusableElement (quiet focusable) state.views fuel root) =
        some (order.find? focusable) := by
    cases forward with
    | true => exact (findFirst_eq (h.forest hForest) hDowns hRoot).trans (by
        rw [h.preOrder_eq hForest]
        rfl)
    | false => exact (findLast_eq (h.forest hForest) hDowns hRoot).trans (by
        rw [h.preOrder_eq hForest]
        rfl)
  have hRestore : ¬((if forward then FocusNavigationReason.first else .last) = .restore ∧
      state.m_focusedComponent.isSome) := by
    cases forward with
    | true | false => simp
  rw [navigateFocus, if_neg hRestore, hSearch]
  simp only [fueled, ok_bind]
  cases hFound : order.find? focusable with
  | none => exact ⟨state, rfl, h, rfl⟩
  | some x =>
    have hMem : x ∈ hForest.preOrder root := by
      have hIn := List.mem_of_find?_eq_some hFound
      cases forward with
      | true => exact hIn
      | false => exact List.mem_reverse.mp hIn
    obtain ⟨moved, hMoved, hSame, hFocus⟩ := h.trySetFocusedComponent_eq hRank hFuel
      focusable (hForest.mem_preOrder.mp hMem) (List.find?_some hFound)
      (if (if forward then FocusNavigationReason.first else .last) = .first then .first else .last)
      .programmatic
    refine ⟨moved, ?_, hSame, hFocus⟩
    simp only [hMoved, ok_bind]
    rfl

include hForest hTop in
/-- A move from a view goes on to the next one that takes focus; from the last it goes to the first. -/
theorem SameTree.tryMoveFocus_eq (h : SameTree root tree state) {f : ι} {before after : List ι}
    (hOrder : hForest.preOrder root = before ++ f :: after)
    (hFocused : state.m_focusedComponent = some f)
    (hWalkFuel : (hForest.preOrder root).length + down root < fuel) (forward : Bool)
    (focusState : FocusState) :
    let others := if forward then after ++ hForest.preOrder root
      else before.reverse ++ (hForest.preOrder root).reverse
    ∃ moved, state.tryMoveFocus (quiet focusable) root fuel forward focusState false =
        .ok ((others.find? focusable).isSome, moved) ∧ SameTree root tree moved ∧
      moved.m_focusedComponent = some ((others.find? focusable).getD f) := by
  intro others
  have hNodup := hForest.nodup_preOrder root
  have hView : Within tree.parent root f := hForest.mem_preOrder.mp (hOrder ▸ by simp)
  have hCut := hOrder ▸ hNodup
  have hNotBefore : f ∉ before := fun hMem =>
    List.disjoint_of_nodup_append hCut hMem List.mem_cons_self
  have hNotAfter : f ∉ after := (List.nodup_cons.mp hCut.of_append_right).1
  obtain ⟨hBefore, hAfter⟩ : hForest.beforeNode f = before ∧
      hForest.preOrder f ++ hForest.afterNode f = f :: after := by
    have hSplit := hForest.preOrder_split hTop hView
    rw [hForest.preOrder_eq f, List.append_assoc, List.cons_append] at hSplit
    rw [hForest.preOrder_eq f, List.cons_append]
    have hEq := hOrder.symm.trans hSplit
    obtain ⟨rfl, -, rfl⟩ := (List.append_cons_inj_of_notMem hNotBefore hNotAfter).mp hEq
    exact ⟨rfl, rfl⟩
  have hFn : ∀ view state, Within tree.parent root view → SameTree root tree state →
      ∃ done next, tryFocusOn (quiet focusable) root fuel f forward focusState view state =
        .ok (done, next) ∧ SameTree root tree next := by
    intro view state hIn hState
    obtain ⟨moved, hMoved, hSame, -⟩ := hState.tryFocusOn_eq hRank hFuel focusable hIn f forward
      focusState
    exact ⟨_, moved, hMoved, hSame⟩
  let visited := if forward then f :: after else before.reverse
  have hVisited : ∀ x ∈ visited, Within tree.parent root x := by
    intro x hx
    refine hForest.mem_preOrder.mp ?_
    rw [hOrder]
    cases forward with
    | true => exact List.mem_append_right _ hx
    | false => exact List.mem_append_left _ (List.mem_reverse.mp hx)
  have hWalk : walkTree (tryFocusOn (quiet focusable) root fuel f forward focusState) f forward fuel
      state = visitUntil (tryFocusOn (quiet focusable) root fuel f forward focusState) visited state := by
    have hLength : (before ++ f :: after).length + down root < fuel := hOrder ▸ hWalkFuel
    rw [List.length_append] at hLength
    rw [walkTree]
    cases forward with
    | true =>
      have hRun := walkForward_eq hForest hRank hTop hFn fuel h hView (by
        rw [hAfter]
        omega)
      rw [hAfter] at hRun
      exact hRun
    | false =>
      have hRun := walkBackward_eq hForest hRank hTop hFn fuel h hView (by
        rw [hBefore]
        omega)
      rw [hBefore] at hRun
      exact hRun
  have hFind : (visited.find? fun x => decide (x ≠ f) && focusable x) =
      (if forward then after else before.reverse).find? focusable := by
    cases forward with
    | true => exact (List.find?_cons_of_neg (by simp)).trans (find?_of_notMem hNotAfter focusable)
    | false => exact find?_of_notMem (mt List.mem_reverse.mp hNotBefore) focusable
  have hOthers : others.find? focusable = ((if forward then after else before.reverse).find? focusable).or
      ((if forward then hForest.preOrder root else (hForest.preOrder root).reverse).find? focusable) := by
    cases forward with
    | true | false => exact List.find?_append
  obtain ⟨walked, hWalked, hSame, hFocus⟩ := h.visitUntil_tryFocusOn hRank hFuel focusable hVisited f
    forward focusState
  rw [hFind] at hWalked hFocus
  rw [tryMoveFocus, hFocused]
  simp only [hWalk, hWalked, ok_bind]
  rw [hOthers]
  cases hPart : (if forward then after else before.reverse).find? focusable with
  | some x =>
    rw [hPart] at hFocus
    exact ⟨walked, rfl, hSame, hFocus⟩
  | none =>
    rw [hPart, hFocused] at hFocus
    obtain ⟨moved, hMoved, hSameMoved, hFocusMoved⟩ :=
      hSame.navigateFocus_eq hForest hRank hFuel focusable forward
    refine ⟨moved, hMoved, hSameMoved, hFocusMoved.trans ?_⟩
    rw [hFocus]
    cases (if forward then hForest.preOrder root else (hForest.preOrder root).reverse).find?
        focusable with
    | some x => rfl
    | none => rfl

end Moves

/-! ### Many moves -/

def tabs (root : ι) (focusable : ι → Bool) (fuel : ℕ) (forward : Bool) :
    List FocusState → RootComponentView ι Θ → Focusing (RootComponentView ι Θ)
  | [], self => return self
  | focusState :: focusStates, self => do
    let (_, self) ← self.tryMoveFocus (quiet focusable) root fuel forward focusState false
    tabs root focusable fuel forward focusStates self

variable {i : ℕ}

omit [DecidableEq ι] in
/-- The order is cut at one of the views that take focus. -/
theorem exists_split {order : List ι} {focusable : ι → Bool}
    (hi : i < (order.filter focusable).length) :
    ∃ before after, order = before ++ (order.filter focusable)[i] :: after ∧
      before.filter focusable = (order.filter focusable).take i ∧
      after.filter focusable = (order.filter focusable).drop (i + 1) := by
  have hCut : order.filter focusable = (order.filter focusable).take i ++
      (order.filter focusable)[i] :: (order.filter focusable).drop (i + 1) := by
    conv_lhs => rw [← List.take_append_drop i (order.filter focusable), List.drop_eq_getElem_cons hi]
  obtain ⟨front, rest, hOrder, hFront, hRest⟩ := List.filter_eq_append_iff.mp hCut
  obtain ⟨skipped, after, rfl, hSkipped, -, hAfter⟩ := List.filter_eq_cons_iff.mp hRest
  refine ⟨front ++ skipped, after, ?_, ?_, hAfter⟩
  · rw [List.append_assoc]
    exact hOrder
  · rw [List.filter_append, List.filter_eq_nil_iff.mpr hSkipped, List.append_nil, hFront]

variable {stops : List ι}

omit [DecidableEq ι] in
theorem head?_next (hi : i < stops.length) :
    (stops.drop (i + 1) ++ stops).head? = stops[(i + 1) % stops.length]? := by
  by_cases hLast : i + 1 < stops.length
  · rw [Nat.mod_eq_of_lt hLast, List.drop_eq_getElem_cons hLast, List.getElem?_eq_getElem hLast]
    rfl
  · rw [List.drop_eq_nil_of_le (by omega), show i + 1 = stops.length by omega, Nat.mod_self,
      List.nil_append, List.head?_eq_getElem?]

omit [DecidableEq ι] in
theorem head?_previous (hi : i < stops.length) :
    ((stops.take i).reverse ++ stops.reverse).head? =
      stops[(i + (stops.length - 1)) % stops.length]? := by
  cases i with
  | zero =>
    rw [Nat.zero_add, Nat.mod_eq_of_lt (by omega), List.take_zero, List.reverse_nil, List.nil_append,
      List.head?_reverse, List.getLast?_eq_getElem?]
  | succ i =>
    have hIndex : (i + 1 + (stops.length - 1)) % stops.length = i := by
      rw [show i + 1 + (stops.length - 1) = i + stops.length by omega, Nat.add_mod_right,
        Nat.mod_eq_of_lt (by omega)]
    rw [hIndex, List.take_succ_eq_append_getElem (by omega), List.reverse_append,
      List.getElem?_eq_getElem (by omega)]
    rfl

def stride (stops : List ι) (forward : Bool) : ℕ := if forward then 1 else stops.length - 1

section Moves

variable (hForest : IsForest tree.parent tree.children)
  (hRank : ∀ c p, tree.parent c = some p → up p < up c ∧ down c < down p)
  (hTop : tree.parent root = none) (hFuel : up root + down root < fuel)
  (hWalkFuel : (hForest.preOrder root).length + down root < fuel) (focusable : ι → Bool)
include hRank hTop hFuel hWalkFuel

/-- One move from a view that takes focus. -/
theorem SameTree.tryMoveFocus_stop (h : SameTree root tree state) {i : ℕ}
    (hi : i < ((hForest.preOrder root).filter focusable).length)
    (hFocused : state.m_focusedComponent = ((hForest.preOrder root).filter focusable)[i]?)
    (forward : Bool) (focusState : FocusState) :
    let stops := (hForest.preOrder root).filter focusable
    ∃ moved, state.tryMoveFocus (quiet focusable) root fuel forward focusState false =
        .ok (true, moved) ∧ SameTree root tree moved ∧
      moved.m_focusedComponent = stops[(i + stride stops forward) % stops.length]? := by
  intro stops
  obtain ⟨before, after, hOrder, hBefore, hAfter⟩ := exists_split hi
  rw [List.getElem?_eq_getElem hi] at hFocused
  obtain ⟨moved, hMoved, hSame, hFocus⟩ := h.tryMoveFocus_eq hForest hRank hTop hFuel focusable hOrder
    hFocused hWalkFuel forward focusState
  have hTarget : (if forward then after ++ hForest.preOrder root
      else before.reverse ++ (hForest.preOrder root).reverse).find? focusable =
        stops[(i + stride stops forward) % stops.length]? := by
    rw [← List.head?_filter]
    cases forward with
    | true =>
      rw [if_pos rfl, List.filter_append, hAfter]
      exact head?_next hi
    | false =>
      rw [if_neg Bool.false_ne_true, List.filter_append, List.filter_reverse, List.filter_reverse,
        hBefore]
      exact head?_previous hi
  have hLt : (i + stride stops forward) % stops.length < stops.length :=
    Nat.mod_lt _ (Nat.lt_of_le_of_lt (Nat.zero_le i) hi)
  rw [hTarget, List.getElem?_eq_getElem hLt] at hMoved hFocus
  refine ⟨moved, hMoved, hSame, ?_⟩
  rw [hFocus, List.getElem?_eq_getElem hLt]
  rfl

/-- Many moves from a view that takes focus. -/
theorem SameTree.tabs_eq (h : SameTree root tree state) {i : ℕ}
    (hi : i < ((hForest.preOrder root).filter focusable).length)
    (hFocused : state.m_focusedComponent = ((hForest.preOrder root).filter focusable)[i]?)
    (forward : Bool) (focusStates : List FocusState) :
    let stops := (hForest.preOrder root).filter focusable
    ∃ moved, state.tabs root focusable fuel forward focusStates = .ok moved ∧
      SameTree root tree moved ∧ moved.m_focusedComponent =
        stops[(i + focusStates.length * stride stops forward) % stops.length]? := by
  intro stops
  induction focusStates generalizing state i with
  | nil =>
    refine ⟨state, rfl, h, ?_⟩
    rw [List.length_nil, Nat.zero_mul, Nat.add_zero, Nat.mod_eq_of_lt hi]
    exact hFocused
  | cons focusState focusStates ih =>
    obtain ⟨moved, hMoved, hSame, hFocus⟩ := h.tryMoveFocus_stop hForest hRank hTop hFuel hWalkFuel
      focusable hi hFocused forward focusState
    have hLt : (i + stride stops forward) % stops.length < stops.length :=
      Nat.mod_lt _ (Nat.lt_of_le_of_lt (Nat.zero_le i) hi)
    obtain ⟨last, hLast, hSameLast, hFocusLast⟩ := ih hSame hLt hFocus
    refine ⟨last, ?_, hSameLast, ?_⟩
    · rw [tabs, hMoved]
      exact hLast
    · rw [hFocusLast, Nat.mod_add_mod, List.length_cons, Nat.succ_mul, Nat.add_assoc,
        Nat.add_comm (stride stops forward)]

end Moves

/-! ### Around the tree -/

theorem backward_iff {n j : ℕ} (m : ℕ) (hi : i < n) (hj : j < n) :
    (i + m * (n - 1)) % n = j ↔ (j + m) % n = i := by
  have hSum : i + m * (n - 1) + m = i + m * n := by
    obtain ⟨n, rfl⟩ : ∃ k, n = k + 1 := ⟨n - 1, by omega⟩
    rw [Nat.add_sub_cancel]
    ring
  have hForward : (i + m * (n - 1)) % n = j ↔ i + m * (n - 1) ≡ j [MOD n] := by
    rw [Nat.ModEq, Nat.mod_eq_of_lt hj]
  have hBackward : (j + m) % n = i ↔ j + m ≡ i [MOD n] := by
    rw [Nat.ModEq, Nat.mod_eq_of_lt hi]
  have hAround : i + m * n ≡ i [MOD n] := by
    rw [Nat.ModEq, Nat.add_mul_mod_self_right]
  rw [hForward, hBackward]
  constructor
  · intro hEq
    have hAdd := hEq.add_right m
    rw [hSum] at hAdd
    exact hAdd.symm.trans hAround
  · intro hEq
    refine Nat.ModEq.add_right_cancel' m ?_
    rw [hSum]
    exact hAround.trans hEq.symm

/-- Going around once, each place is reached once. -/
theorem existsUnique_forward {n j : ℕ} (hi : i < n) (hj : j < n) :
    ∃! k, k < n ∧ (i + (k + 1)) % n = j := by
  refine ⟨(j + (n - 1 - i)) % n, ⟨Nat.mod_lt _ (by omega), ?_⟩, ?_⟩
  · rw [Nat.add_comm (_ % n), ← Nat.add_assoc, Nat.add_mod_mod,
      show i + 1 + (j + (n - 1 - i)) = j + n by omega, Nat.add_mod_right, Nat.mod_eq_of_lt hj]
  · rintro k ⟨hk, hPlace⟩
    have hStart : i + 1 + k ≡ j + n [MOD n] := by
      rw [Nat.ModEq, Nat.add_mod_right, Nat.mod_eq_of_lt hj, Nat.add_assoc, Nat.add_comm 1]
      exact hPlace
    have hSame : i + 1 + (j + (n - 1 - i)) = j + n := by omega
    rw [← hSame] at hStart
    have hCancel : k ≡ j + (n - 1 - i) [MOD n] := Nat.ModEq.add_left_cancel' (i + 1) hStart
    rw [← Nat.mod_eq_of_lt hk]
    exact hCancel

omit [DecidableEq ι] in
theorem existsUnique_stride {j : ℕ} (hi : i < stops.length) (hj : j < stops.length) (forward : Bool) :
    ∃! k, k < stops.length ∧ (i + (k + 1) * stride stops forward) % stops.length = j := by
  cases forward with
  | true =>
    simp only [stride, if_true, Nat.mul_one]
    exact existsUnique_forward hi hj
  | false =>
    simp only [stride, Bool.false_eq_true, if_false, backward_iff _ hi hj]
    exact existsUnique_forward hj hi

/-- The focus goes around the views that take it, as the order of all views has them. A move from
another view goes to the nearest of them, and nowhere when there is none. -/
structure TabOrder (root : ι) (order : List ι) (focusable : ι → Bool) (fuel : ℕ)
    (state : RootComponentView ι Θ) : Prop where
  first : findFirstFocusableElement (quiet focusable) state.views fuel root =
    some (order.filter focusable).head?
  last : findLastFocusableElement (quiet focusable) state.views fuel root =
    some (order.filter focusable).getLast?
  unfocused : state.m_focusedComponent = none → ∀ forward focusState,
    ∃ moved, state.tryMoveFocus (quiet focusable) root fuel forward focusState false =
        .ok (!(order.filter focusable).isEmpty, moved) ∧
      moved.m_focusedComponent =
        if forward then (order.filter focusable).head? else (order.filter focusable).getLast?
  next : ∀ before f after, order = before ++ f :: after → state.m_focusedComponent = some f →
    ∀ focusState, ∃ moved,
      state.tryMoveFocus (quiet focusable) root fuel true focusState false =
        .ok (!(order.filter focusable).isEmpty, moved) ∧
      moved.m_focusedComponent = some (((after ++ order).filter focusable).head?.getD f)
  previous : ∀ before f after, order = before ++ f :: after → state.m_focusedComponent = some f →
    ∀ focusState, ∃ moved,
      state.tryMoveFocus (quiet focusable) root fuel false focusState false =
        .ok (!(order.filter focusable).isEmpty, moved) ∧
      moved.m_focusedComponent = some (((order ++ before).filter focusable).getLast?.getD f)
  around : ∀ i < (order.filter focusable).length,
    state.m_focusedComponent = (order.filter focusable)[i]? → ∀ focusStates,
      ∃ moved, state.tabs root focusable fuel true focusStates = .ok moved ∧
        moved.m_focusedComponent =
          (order.filter focusable)[(i + focusStates.length) % (order.filter focusable).length]?
  back : ∀ i < (order.filter focusable).length,
    state.m_focusedComponent = (order.filter focusable)[i]? → ∀ focusStates,
      ∃ moved, state.tabs root focusable fuel false focusStates = .ok moved ∧
        ∃ j < (order.filter focusable).length,
          (j + focusStates.length) % (order.filter focusable).length = i ∧
            moved.m_focusedComponent = (order.filter focusable)[j]?
  inverse : ∀ f, state.m_focusedComponent = some f → f ∈ order.filter focusable →
    ∀ forward focusState otherState, ∃ moved back,
      state.tryMoveFocus (quiet focusable) root fuel forward focusState false = .ok (true, moved) ∧
        moved.tryMoveFocus (quiet focusable) root fuel (!forward) otherState false =
          .ok (true, back) ∧ back.m_focusedComponent = some f
  once : ∀ f, state.m_focusedComponent = some f → f ∈ order.filter focusable →
    ∀ forward focusState, ∀ x ∈ order.filter focusable,
      ∃! k, k < (order.filter focusable).length ∧
        ∃ moved, state.tabs root focusable fuel forward (List.replicate (k + 1) focusState) = .ok moved ∧
          moved.m_focusedComponent = some x

section Around

variable (hForest : IsForest tree.parent tree.children)
  (hRank : ∀ c p, tree.parent c = some p → up p < up c ∧ down c < down p)
  (hTop : tree.parent root = none) (hFuel : up root + down root < fuel)
  (hWalkFuel : (hForest.preOrder root).length + down root < fuel) (focusable : ι → Bool)

omit [DecidableEq ι] in
theorem isSome_find? {order part : List ι} (h : ∀ x ∈ part, x ∈ order) :
    ((part ++ order).find? focusable).isSome = !(order.filter focusable).isEmpty := by
  rw [← List.head?_filter, List.filter_append]
  cases hStops : order.filter focusable with
  | nil =>
    have hNone : part.filter focusable = [] := by
      rw [List.filter_eq_nil_iff] at hStops ⊢
      exact fun x hx => hStops x (h x hx)
    rw [hNone]
    rfl
  | cons x xs => simp

include hRank hTop hFuel hWalkFuel

variable (h : SameTree root tree state)
include h

theorem SameTree.next_eq {f : ι} {before after : List ι}
    (hOrder : hForest.preOrder root = before ++ f :: after)
    (hFocused : state.m_focusedComponent = some f) (focusState : FocusState) :
    ∃ moved, state.tryMoveFocus (quiet focusable) root fuel true focusState false =
        .ok (!((hForest.preOrder root).filter focusable).isEmpty, moved) ∧
      moved.m_focusedComponent =
        some (((after ++ hForest.preOrder root).filter focusable).head?.getD f) := by
  obtain ⟨moved, hMoved, -, hFocus⟩ := h.tryMoveFocus_eq hForest hRank hTop hFuel focusable hOrder
    hFocused hWalkFuel true focusState
  have hPart : ∀ x ∈ after, x ∈ hForest.preOrder root := by
    intro x hx
    rw [hOrder]
    simp [hx]
  rw [if_pos rfl] at hMoved hFocus
  rw [isSome_find? focusable hPart] at hMoved
  rw [List.head?_filter]
  exact ⟨moved, hMoved, hFocus⟩

theorem SameTree.previous_eq {f : ι} {before after : List ι}
    (hOrder : hForest.preOrder root = before ++ f :: after)
    (hFocused : state.m_focusedComponent = some f) (focusState : FocusState) :
    ∃ moved, state.tryMoveFocus (quiet focusable) root fuel false focusState false =
        .ok (!((hForest.preOrder root).filter focusable).isEmpty, moved) ∧
      moved.m_focusedComponent =
        some (((hForest.preOrder root ++ before).filter focusable).getLast?.getD f) := by
  obtain ⟨moved, hMoved, -, hFocus⟩ := h.tryMoveFocus_eq hForest hRank hTop hFuel focusable hOrder
    hFocused hWalkFuel false focusState
  have hPart : ∀ x ∈ before.reverse, x ∈ (hForest.preOrder root).reverse := by
    intro x hx
    rw [List.mem_reverse] at hx ⊢
    rw [hOrder]
    exact List.mem_append_left _ hx
  rw [if_neg Bool.false_ne_true] at hMoved hFocus
  rw [isSome_find? focusable hPart, List.filter_reverse, List.isEmpty_reverse] at hMoved
  rw [← List.head?_reverse, ← List.filter_reverse, List.reverse_append, List.head?_filter]
  exact ⟨moved, hMoved, hFocus⟩

theorem SameTree.inverse {i : ℕ} (hi : i < ((hForest.preOrder root).filter focusable).length)
    (hFocused : state.m_focusedComponent = ((hForest.preOrder root).filter focusable)[i]?)
    (forward : Bool) (focusState otherState : FocusState) :
    ∃ moved back, state.tryMoveFocus (quiet focusable) root fuel forward focusState false =
        .ok (true, moved) ∧
      moved.tryMoveFocus (quiet focusable) root fuel (!forward) otherState false = .ok (true, back) ∧
        back.m_focusedComponent = state.m_focusedComponent := by
  obtain ⟨moved, hMoved, hSame, hFocus⟩ := h.tryMoveFocus_stop hForest hRank hTop hFuel hWalkFuel
    focusable hi hFocused forward focusState
  have hLt := Nat.mod_lt (i + stride ((hForest.preOrder root).filter focusable) forward)
    (Nat.lt_of_le_of_lt (Nat.zero_le i) hi)
  obtain ⟨back, hBack, -, hFocusBack⟩ := hSame.tryMoveFocus_stop hForest hRank hTop hFuel hWalkFuel
    focusable hLt hFocus (!forward) otherState
  refine ⟨moved, back, hMoved, hBack, ?_⟩
  have hAround : ∀ stops : List ι, i < stops.length →
      (i + stride stops forward + stride stops (!forward)) % stops.length = i := by
    intro stops hStops
    have hSum : i + stride stops forward + stride stops (!forward) = i + stops.length := by
      cases forward with
      | true =>
        show i + 1 + (stops.length - 1) = _
        omega
      | false =>
        show i + (stops.length - 1) + 1 = _
        omega
    rw [hSum, Nat.add_mod_right, Nat.mod_eq_of_lt hStops]
  rw [hFocusBack, Nat.mod_add_mod, hAround _ hi, hFocused]

/-- In as many moves as there are views that take focus, each of them gets it once. -/
theorem SameTree.once {i : ℕ} (hi : i < ((hForest.preOrder root).filter focusable).length)
    (hFocused : state.m_focusedComponent = ((hForest.preOrder root).filter focusable)[i]?)
    (forward : Bool) (focusState : FocusState) {x : ι}
    (hx : x ∈ (hForest.preOrder root).filter focusable) :
    ∃! k, k < ((hForest.preOrder root).filter focusable).length ∧
      ∃ moved, state.tabs root focusable fuel forward (List.replicate (k + 1) focusState) = .ok moved ∧
        moved.m_focusedComponent = some x := by
  have hNodup : ((hForest.preOrder root).filter focusable).Nodup :=
    (hForest.nodup_preOrder root).filter _
  obtain ⟨j, hj, rfl⟩ := List.getElem_of_mem hx
  have hReached : ∀ k, (∃ moved,
      state.tabs root focusable fuel forward (List.replicate (k + 1) focusState) = .ok moved ∧
        moved.m_focusedComponent = some ((hForest.preOrder root).filter focusable)[j]) ↔
      (i + (k + 1) * stride ((hForest.preOrder root).filter focusable) forward) %
        ((hForest.preOrder root).filter focusable).length = j := by
    intro k
    obtain ⟨moved, hMoved, -, hFocus⟩ := h.tabs_eq hForest hRank hTop hFuel hWalkFuel focusable hi
      hFocused forward (List.replicate (k + 1) focusState)
    rw [List.length_replicate] at hFocus
    have hLt := Nat.mod_lt
      (i + (k + 1) * stride ((hForest.preOrder root).filter focusable) forward)
      (Nat.lt_of_le_of_lt (Nat.zero_le i) hi)
    constructor
    · rintro ⟨other, hOther, hSet⟩
      rw [hMoved] at hOther
      cases hOther
      rw [hFocus, List.getElem?_eq_getElem hLt] at hSet
      exact (hNodup.getElem_inj_iff).mp (Option.some.inj hSet)
    · intro hEq
      refine ⟨moved, hMoved, ?_⟩
      rw [hFocus, hEq, List.getElem?_eq_getElem hj]
  simp only [hReached]
  exact existsUnique_stride hi hj forward

omit hTop hWalkFuel in
theorem SameTree.unfocused_eq (hNone : state.m_focusedComponent = none) (forward : Bool)
    (focusState : FocusState) :
    ∃ moved, state.tryMoveFocus (quiet focusable) root fuel forward focusState false =
        .ok (!((hForest.preOrder root).filter focusable).isEmpty, moved) ∧
      moved.m_focusedComponent = if forward then ((hForest.preOrder root).filter focusable).head?
        else ((hForest.preOrder root).filter focusable).getLast? := by
  obtain ⟨moved, hMoved, -, hFocus⟩ :=
    h.navigateFocus_eq hForest hRank hFuel focusable forward
  have hIsSome : ∀ views : List ι, (views.find? focusable).isSome = !(views.filter focusable).isEmpty :=
    fun views => isSome_find? focusable (List.forall_mem_nil (· ∈ views))
  rw [hIsSome] at hMoved
  rw [hNone, Option.or_none, ← List.head?_filter] at hFocus
  rw [tryMoveFocus, hNone]
  cases forward with
  | true => exact ⟨moved, hMoved, hFocus⟩
  | false =>
    rw [if_neg Bool.false_ne_true, if_neg Bool.false_ne_true, List.filter_reverse,
      List.isEmpty_reverse] at hMoved
    rw [if_neg Bool.false_ne_true, List.filter_reverse, List.head?_reverse] at hFocus
    exact ⟨moved, hMoved, hFocus⟩

end Around

variable {emptyTheme : Θ} [DecidableEq Θ]

/-- The tab order of every mounted tree is its pre-order. -/
theorem tab_order {accepted : Views ι Θ → Event ι → Prop} (state : RootComponentView ι Θ)
    (h : Reachable (· = root) emptyTheme accepted state.views) (focusable : ι → Bool) :
    ∃ bound, ∀ fuel, bound < fuel →
      TabOrder root (h.tree.forest.preOrder root) focusable fuel state := by
  have hForest := h.tree.forest
  have hTop : state.views.parent root = none := h.tree.roots root (decide_eq_true rfl)
  obtain ⟨up, down, hRank⟩ := id hForest.ranked
  have hDown : ∀ c p, state.views.parent c = some p → down c < down p :=
    fun c p hParent => (hRank c p hParent).2
  have hSame : SameTree root state.views state := ⟨.refl _, h.caches⟩
  refine ⟨up root + down root + (hForest.preOrder root).length, fun fuel hBound => ?_⟩
  have hFuel : up root + down root < fuel := by omega
  have hWalkFuel : (hForest.preOrder root).length + down root < fuel := by omega
  have hPlace : ∀ f, f ∈ (hForest.preOrder root).filter focusable →
      ∃ i, i < ((hForest.preOrder root).filter focusable).length ∧
        some f = ((hForest.preOrder root).filter focusable)[i]? := by
    intro f hf
    obtain ⟨i, hi, hEq⟩ := List.getElem_of_mem hf
    exact ⟨i, hi, by rw [List.getElem?_eq_getElem hi, hEq]⟩
  constructor
  case first =>
    rw [List.head?_filter]
    exact findFirst_eq hForest hDown (by omega)
  case last =>
    rw [← List.head?_reverse, ← List.filter_reverse, List.head?_filter]
    exact findLast_eq hForest hDown (by omega)
  case unfocused => exact hSame.unfocused_eq hForest hRank hFuel focusable
  case next =>
    intro before f after hOrder hFocused
    exact hSame.next_eq hForest hRank hTop hFuel hWalkFuel focusable hOrder hFocused
  case previous =>
    intro before f after hOrder hFocused
    exact hSame.previous_eq hForest hRank hTop hFuel hWalkFuel focusable hOrder hFocused
  case around =>
    intro i hi hFocused focusStates
    obtain ⟨moved, hMoved, -, hFocus⟩ :=
      hSame.tabs_eq hForest hRank hTop hFuel hWalkFuel focusable hi hFocused true focusStates
    refine ⟨moved, hMoved, ?_⟩
    rw [hFocus, stride, if_pos rfl, Nat.mul_one]
  case back =>
    intro i hi hFocused focusStates
    obtain ⟨moved, hMoved, -, hFocus⟩ :=
      hSame.tabs_eq hForest hRank hTop hFuel hWalkFuel focusable hi hFocused false focusStates
    have hLt := Nat.mod_lt (i + focusStates.length * stride ((hForest.preOrder root).filter focusable)
      false) (Nat.lt_of_le_of_lt (Nat.zero_le i) hi)
    exact ⟨moved, hMoved, _, hLt, (backward_iff _ hi hLt).mp rfl, hFocus⟩
  case inverse =>
    intro f hFocused hf forward focusState otherState
    obtain ⟨i, hi, hEq⟩ := hPlace f hf
    rw [← hFocused] at hEq ⊢
    exact hSame.inverse hForest hRank hTop hFuel hWalkFuel focusable hi hEq forward focusState
      otherState
  case once =>
    intro f hFocused hf forward focusState x hx
    obtain ⟨i, hi, hEq⟩ := hPlace f hf
    exact hSame.once hForest hRank hTop hFuel hWalkFuel focusable hi (hFocused.trans hEq) forward
      focusState hx

/-- Two views are mounted into a root. -/
theorem two_views_tab_order : ∃ (views : Views ℕ Unit)
    (h : Reachable (· = 0) () (fun _ _ => True) views),
    h.tree.forest.preOrder 0 = [0, 1, 2] ∧
      ∃ bound, ∀ fuel, bound < fuel → TabOrder 0 (h.tree.forest.preOrder 0) (· ≠ 0) fuel
        { lonelyRoot with views, m_focusedComponent := some 2 } := by
  obtain ⟨one, two, hMountOne, hMountTwo, hTop, hAlone, hRoot, hFirst, hSecond⟩ :
      ∃ one two, Event.apply (· = 0) () 2 lonelyViews (.mount 0 2 0) = some one ∧
        Event.apply (· = 0) () 3 one (.mount 0 1 0) = some two ∧ (one 0).m_parent = none ∧
          (one 1).m_parent = none ∧ Views.children two 0 = [1, 2] ∧ Views.children two 1 = [] ∧
            Views.children two 2 = [] := by
    refine ⟨_, _, rfl, rfl, ?_, ?_, ?_, ?_, ?_⟩
    · rfl
    · rfl
    · rfl
    · rfl
    · rfl
  have hOne : Reachable (· = 0) () (fun _ _ => True) one :=
    .step (.initial lonelyViews_initial) (alone_enabled rfl rfl (by decide) rfl) trivial hMountOne
  have hTwo : Reachable (· = 0) () (fun _ _ => True) two :=
    .step hOne (alone_enabled hTop hAlone (by decide) rfl) trivial hMountTwo
  refine ⟨two, hTwo, ?_, tab_order
    { lonelyRoot with views := two, m_focusedComponent := some 2 } hTwo (· ≠ 0)⟩
  rw [IsForest.preOrder_eq, hRoot, List.flatMap_cons, List.flatMap_singleton,
    IsForest.preOrder_leaf _ hFirst, IsForest.preOrder_leaf _ hSecond]
  rfl

end RootComponentView
end Fabric
