import ReactNativeWindows.Fabric.FocusSearch

/-! Moves of the focus: where it ends, and what components are told of it. -/
namespace Fabric

open Collections Collections.Forest Control

universe u

variable {ι Θ : Type u} [DecidableEq ι]

/-- Whether a component is told that it got the focus, or that it lost it. -/
def FocusNotice.about (x : ι) : FocusNotice ι → Option Bool
  | lostFocus source => if source = x then some false else none
  | gotFocus source _ => if source = x then some true else none

namespace RootComponentView

def told (self : RootComponentView ι Θ) (x : ι) : List Bool :=
  self.notices.filterMap (FocusNotice.about x)

/-- Components are told in turns that they got the focus and that they lost it, and the last one that
got it has it. -/
structure Told (state : RootComponentView ι Θ) : Prop where
  alternate : ∀ x, List.IsChain (· ≠ ·) (state.told x ++ [false])
  focused : ∀ x, (state.told x).head?.getD false = true ↔ state.m_focusedComponent = some x

theorem setFocusedComponent_eq_iff (self : RootComponentView ι Θ) (value : Option ι)
    (direction : FocusNavigationDirection) (focusState : FocusState) :
    (self.setFocusedComponent value direction focusState).m_focusedComponent = value ↔
      (value = none → self.m_focusedComponent = none) := by
  rw [setFocusedComponent]
  split
  · rename_i hSame
    exact ⟨fun _ hNone => hSame.trans hNone, fun _ => hSame⟩
  rename_i hOther
  cases value with
  | some view => exact ⟨fun _ => nofun, fun _ => rfl⟩
  | none =>
    constructor
    · intro hNone _
      cases hFocused : self.m_focusedComponent with
      | none => rfl
      | some focused =>
        rw [hFocused] at hNone
        have hKept : some focused = none := hNone
        cases hKept
    · exact fun hNone => absurd (hNone rfl) hOther

theorem setFocusedComponent_views (self : RootComponentView ι Θ) (value : Option ι)
    (direction : FocusNavigationDirection) (focusState : FocusState) :
    (self.setFocusedComponent value direction focusState).views = self.views := by
  rw [setFocusedComponent]
  split
  · rfl
  · cases self.m_focusedComponent <;> cases value <;> rfl

variable {state next : RootComponentView ι Θ}

theorem Told.of_eq (h : Told state) (hNotices : next.notices = state.notices)
    (hFocused : next.m_focusedComponent = state.m_focusedComponent) : Told next := by
  have hTold : ∀ x, next.told x = state.told x := fun x => by rw [told, hNotices]; rfl
  constructor
  · intro x
    rw [hTold]
    exact h.alternate x
  · intro x
    rw [hTold, hFocused]
    exact h.focused x

theorem Told.lost (h : Told state) {focused : ι} (hFocused : state.m_focusedComponent = some focused) :
    Told { state with
      m_focusedComponent := none, notices := .lostFocus focused :: state.notices } := by
  have hTold : ∀ x, told { state with
      m_focusedComponent := none, notices := .lostFocus focused :: state.notices } x =
        if focused = x then false :: state.told x else state.told x := by
    intro x
    by_cases hx : focused = x
    · rw [told, if_pos hx, List.filterMap_cons_some (by rw [FocusNotice.about, if_pos hx])]
      rfl
    · rw [told, if_neg hx, List.filterMap_cons_none (by rw [FocusNotice.about, if_neg hx])]
      rfl
  constructor
  · intro x
    rw [hTold]
    by_cases hx : focused = x
    · rw [if_pos hx]
      apply alternate_cons (h.alternate x)
      rw [(h.focused x).mpr (hx ▸ hFocused)]
      exact nofun
    · rw [if_neg hx]
      exact h.alternate x
  · intro x
    rw [hTold]
    by_cases hx : focused = x
    · rw [if_pos hx]
      exact ⟨nofun, nofun⟩
    · rw [if_neg hx, h.focused, hFocused]
      exact ⟨fun hEq => absurd (Option.some.inj hEq) hx, nofun⟩

theorem Told.got (h : Told state) (hFocused : state.m_focusedComponent = none) (view : ι)
    (direction : FocusNavigationDirection) (focusState : FocusState) :
    Told { state with
      m_focusedComponent := some view, m_focusState := focusState,
      notices := .gotFocus view direction :: state.notices } := by
  have hTold : ∀ x, told { state with
      m_focusedComponent := some view, m_focusState := focusState,
      notices := .gotFocus view direction :: state.notices } x =
        if view = x then true :: state.told x else state.told x := by
    intro x
    by_cases hx : view = x
    · rw [told, if_pos hx, List.filterMap_cons_some (by rw [FocusNotice.about, if_pos hx])]
      rfl
    · rw [told, if_neg hx, List.filterMap_cons_none (by rw [FocusNotice.about, if_neg hx])]
      rfl
  have hNot : ∀ x, (state.told x).head?.getD false ≠ true := by
    intro x hx
    rw [h.focused, hFocused] at hx
    cases hx
  constructor
  · intro x
    rw [hTold]
    by_cases hx : view = x
    · rw [if_pos hx]
      exact alternate_cons (h.alternate x) (hNot x).symm
    · rw [if_neg hx]
      exact h.alternate x
  · intro x
    rw [hTold]
    by_cases hx : view = x
    · rw [if_pos hx]
      exact ⟨fun _ => congrArg some hx, fun _ => rfl⟩
    · rw [if_neg hx]
      exact ⟨fun hTrue => absurd hTrue (hNot x), fun hEq => absurd (Option.some.inj hEq) hx⟩

theorem Told.setFocusedComponent (h : Told state) {value : Option ι}
    (hValue : value = none → state.m_focusedComponent = none) (direction : FocusNavigationDirection)
    (focusState : FocusState) : Told (state.setFocusedComponent value direction focusState) := by
  rw [RootComponentView.setFocusedComponent]
  split
  · exact h
  rename_i hOther
  cases value with
  | none => exact absurd (hValue rfl) hOther
  | some view =>
    cases hFocused : state.m_focusedComponent with
    | none => exact h.got hFocused view direction _
    | some focused => exact (h.lost hFocused).got rfl view direction _

structure Steady (root : ι) (tree : Views ι Θ) (state : RootComponentView ι Θ) : Prop where
  remembers : Remembers tree state.views
  caches : Caches root state.views
  told : Told state

def InTree (root : ι) (tree : Views ι Θ) (component : Option ι) : Prop :=
  ∃ x, component = some x ∧ Within tree.parent root x

def Handlers (root : ι) (tree : Views ι Θ) (requests : List (FocusRequest ι)) : Prop :=
  ∀ v, .trySetNewFocusedComponent v ∈ requests → Within tree.parent root v

section Moves

variable {answers : FocusAnswers ι} {root : ι} {tree : Views ι Θ} {up down : ι → ℕ} {enough : Prop}
  {fuel : ℕ} {direction : FocusNavigationDirection} {focusState : FocusState}
  (hForest : IsForest tree.parent tree.children)
  (hRank : ∀ c p, tree.parent c = some p → up p < up c ∧ down c < down p)
  (hFuel : enough → up root + down root < fuel)

theorem Steady.forest (h : Steady root tree state) (hForest : IsForest tree.parent tree.children) :
    IsForest state.views.parent state.views.children := by
  rw [h.remembers.parent, h.remembers.children]
  exact hForest

theorem Steady.focusable_iff (h : Steady root tree state) (v : ι) :
    Focusable answers state.views v ↔ Focusable answers tree v := by
  rw [Focusable, h.remembers.parent]
  rfl

include hRank in
omit [DecidableEq ι] in
theorem down_le {top x : ι} (hWithin : Within tree.parent top x) : down x ≤ down top :=
  hWithin.induction (P := fun x => down x ≤ down top) (Nat.le_refl _) fun c p hParent _ ih =>
    Nat.le_trans (Nat.le_of_lt (hRank c p hParent).2) ih

include hRank in
theorem Steady.askRoot_meets (h : Steady root tree state) {top x : ι}
    (hWithin : Within tree.parent top x) (hTopFuel : enough → up top + down top < fuel) :
    Meets enough (fun asked => Steady root tree asked.2 ∧
        asked.2.m_focusedComponent = state.m_focusedComponent ∧
        (∀ r, asked.1 = some r → r = root) ∧ (Within tree.parent root x → asked.1 = some root) ∧
        ∃ views, rootComponentView (· = root) fuel x state.views = some (asked.1, views))
      (state.askRoot root fuel x) := by
  have hRun : Meets enough
      (fun found => rootComponentView (· = root) fuel x state.views = some found)
      (fueled (rootComponentView (· = root) fuel x state.views) : Focusing _) := by
    apply Meets.of_fueled
    · exact fun _ hFound => hFound
    · intro hEnough
      have hRanks : ∀ c p, state.views.parent c = some p → up p < up c ∧ down c < down p := by
        rw [h.remembers.parent]
        exact hRank
      rw [← h.remembers.parent] at hWithin
      have hLt := hTopFuel hEnough
      exact exists_rootComponentView_within hRanks hWithin (Nat.lt_of_lt_of_le hLt (Nat.le_add_right _ _))
  apply hRun.bind
  rintro ⟨found, views⟩ hFound
  obtain ⟨hCaches, hRoot, hOwn⟩ := rootComponentView_own h.caches hFound
  rw [h.remembers.parent] at hOwn
  have hRemembers := h.remembers.trans (rootComponentView_remembers hFound)
  exact ⟨⟨hRemembers, hCaches, h.told.of_eq rfl rfl⟩, rfl, hRoot, hOwn, views, hFound⟩

theorem Steady.setFocusedComponent (h : Steady root tree state) {value : Option ι}
    (hValue : value = none → state.m_focusedComponent = none) :
    Steady root tree (state.setFocusedComponent value direction focusState) ∧
      (state.setFocusedComponent value direction focusState).m_focusedComponent = value := by
  refine ⟨⟨?_, ?_, h.told.setFocusedComponent hValue direction focusState⟩, ?_⟩
  · rw [setFocusedComponent_views]
    exact h.remembers
  · rw [setFocusedComponent_views]
    exact h.caches
  · exact (setFocusedComponent_eq_iff state value direction focusState).mpr hValue

variable {kept : Prop}

include hForest hRank in
theorem Steady.newFocusedComponent_meets (h : Steady root tree state)
    {requests : List (FocusRequest ι)} (hRequests : Handlers root tree requests) {settled : Prop}
    {ok : Option ι → Prop} (hTree : ∀ x, Within tree.parent root x → ok (some x))
    {old new : Option ι} (hOld : kept → ok old) (hNew : settled → ok new)
    (hSettles : Settles (Focusable answers tree) kept settled requests)
    (hFuel : enough → down root < fuel) :
    Meets enough ok
      (fueled (newFocusedComponent answers state.views fuel old requests new) : Focusing _) := by
  have hParent := h.remembers.parent
  apply Meets.of_fueled
  · intro result hResult
    have hIn : ∀ v, .trySetNewFocusedComponent v ∈ requests → Within state.views.parent root v := by
      rw [hParent]
      exact hRequests
    have hTop : ∀ x, Within state.views.parent root x → ok (some x) := by
      rw [hParent]
      exact hTree
    have hSame : Settles (Focusable answers state.views) kept settled requests :=
      hSettles.imp (fun v _ hv => (h.focusable_iff v).mpr hv) id
    exact newFocusedComponent_spec (h.forest hForest) hIn hTop hOld hNew hSame hResult
  · intro hEnough
    apply exists_newFocusedComponent (h.forest hForest)
    · rw [hParent]
      exact fun c p hp => (hRank c p hp).2
    · intro v hv
      exact Nat.lt_of_le_of_lt (down_le hRank (hRequests v hv)) (hFuel hEnough)

include hForest hRank hFuel in
/-- The focus ends in the tree, unless none had it and none was to get it. -/
theorem Steady.moveFocus_meets (h : Steady root tree state)
    (hLosingIn : Handlers root tree answers.losingFocus)
    (hGettingIn : Handlers root tree answers.gettingFocus) {target : Option ι}
    (hTarget : ∀ t, target = some t → Within tree.parent root t)
    (hOld : kept → ∀ f, state.m_focusedComponent = some f → Within tree.parent root f)
    (hLosing : state.m_focusedComponent ≠ none →
      Settles (Focusable answers tree) kept (target ≠ none) answers.losingFocus)
    (hGetting : state.m_focusedComponent ≠ none →
      Settles (Focusable answers tree) kept True answers.gettingFocus) :
    Meets enough (fun next => Steady root tree next ∧
        ((state.m_focusedComponent = none ∧ next.m_focusedComponent = none) ∨
          InTree root tree next.m_focusedComponent))
      (state.moveFocus answers root fuel target direction focusState) := by
  have hDownFuel : enough → down root < fuel := by
    intro hEnough
    have hLt := hFuel hEnough
    omega
  have hSettled : ∀ t : Option ι, (∀ x, t = some x → Within tree.parent root x) → t ≠ none →
      InTree root tree t := by
    intro t hIn hSome
    obtain ⟨x, rfl⟩ := Option.ne_none_iff_exists'.mp hSome
    exact ⟨x, rfl, hIn x rfl⟩
  have hKept : kept → state.m_focusedComponent ≠ none → InTree root tree state.m_focusedComponent :=
    fun hKeep => hSettled _ (hOld hKeep)
  rw [moveFocus]
  have hLose : Meets enough
      (fun losing => (state.m_focusedComponent = none ∧ losing = target) ∨ InTree root tree losing)
      (state.onLosingFocus answers fuel target) := by
    rw [onLosingFocus]
    cases hFocused : state.m_focusedComponent with
    | none => exact .inl ⟨rfl, rfl⟩
    | some focused =>
      have hSome : state.m_focusedComponent ≠ none := by
        rw [hFocused]
        exact nofun
      rw [hFocused] at hKept
      apply h.newFocusedComponent_meets hForest hRank hLosingIn _ _ _ (hLosing hSome) hDownFuel
      · exact fun x hx => .inr ⟨x, rfl, hx⟩
      · exact fun hKeep => .inr (hKept hKeep nofun)
      · exact fun hTargetSome => .inr (hSettled target hTarget hTargetSome)
  apply hLose.bind
  intro losing hLosing
  cases losing with
  | none =>
    have hNone : state.m_focusedComponent = none :=
      hLosing.elim And.left fun hIn => nomatch hIn
    obtain ⟨hSteady, hFocus⟩ := h.setFocusedComponent fun _ : none = none => hNone
    exact ⟨hSteady, .inl ⟨hNone, hFocus⟩⟩
  | some new =>
    have hNew : Within tree.parent root new := by
      rcases hLosing with ⟨-, hEq⟩ | ⟨x, hx, hIn⟩
      · exact hTarget new hEq.symm
      · cases hx
        exact hIn
    have hGet : Meets enough
        (fun getting => (state.m_focusedComponent = none ∧ getting = none) ∨ InTree root tree getting)
        (fueled (newFocusedComponent answers state.views fuel state.m_focusedComponent
          answers.gettingFocus (some new)) : Focusing _) := by
      by_cases hSome : state.m_focusedComponent = none
      · apply h.newFocusedComponent_meets hForest hRank hGettingIn _ _ _ (settles_true _ _) hDownFuel
        · exact fun x hx => .inr ⟨x, rfl, hx⟩
        · exact fun _ => .inl ⟨hSome, hSome⟩
        · exact fun _ => .inr ⟨new, rfl, hNew⟩
      · apply h.newFocusedComponent_meets hForest hRank hGettingIn _ _ _ (hGetting hSome) hDownFuel
        · exact fun x hx => .inr ⟨x, rfl, hx⟩
        · exact fun hKeep => .inr (hKept hKeep hSome)
        · exact fun _ => .inr ⟨new, rfl, hNew⟩
    apply hGet.bind
    intro getting hGetting
    apply (h.askRoot_meets hRank hNew hFuel).bind
    rintro ⟨found, asked⟩ ⟨hSteady, hSame, -, hOwn, -⟩
    obtain rfl : found = some root := hOwn hNew
    have hValue : getting = none → asked.m_focusedComponent = none := by
      rintro rfl
      rw [hSame]
      exact hGetting.elim And.left fun hIn => nomatch hIn
    obtain ⟨hNext, hFocus⟩ := hSteady.setFocusedComponent hValue
    refine ⟨hNext, ?_⟩
    rw [hFocus]
    exact hGetting

include hForest hRank in
theorem Steady.focusTarget_meets (h : Steady root tree state) {view : Option ι}
    (hViewFuel : ∀ v, view = some v → enough → down v < fuel) :
    Meets enough (fun target =>
        (∀ t, target = some t →
            (∃ v, view = some v ∧ Within tree.parent v t) ∧ answers.focusable t = true) ∧
          (target = none → ∀ v, view = some v → ¬Focusable answers tree v))
      (state.focusTarget answers fuel direction view) := by
  cases view with
  | none => exact ⟨nofun, fun _ => nofun⟩
  | some v =>
    have hSearch : ∀ reason, reason ≠ .restore → Meets enough (fun target =>
        (∀ t, target = some t →
            (∃ v', some v = some v' ∧ Within tree.parent v' t) ∧ answers.focusable t = true) ∧
          (target = none → ∀ v', some v = some v' → ¬Focusable answers tree v'))
        (fueled (navigateFocusHelper answers state.views reason fuel v) : Focusing _) := by
      intro reason hReason
      apply Meets.of_fueled
      · intro target hTarget
        obtain ⟨hSome, hNone⟩ := navigateFocusHelper_spec (h.forest hForest) hReason hTarget
        rw [h.focusable_iff] at hNone
        rw [h.remembers.parent] at hSome
        refine ⟨fun t ht => ⟨⟨v, rfl, (hSome t ht).1⟩, (hSome t ht).2⟩, fun ht v' hv' => ?_⟩
        cases hv'
        exact hNone ht
      · intro hEnough
        have hDown : ∀ c p, state.views.parent c = some p → down c < down p := by
          rw [h.remembers.parent]
          exact fun c p hParent => (hRank c p hParent).2
        exact exists_navigateFocusHelper (h.forest hForest) hDown (hViewFuel v rfl hEnough)
    rw [focusTarget]
    split
    · rename_i hFocusable
      refine ⟨fun t ht => ?_, nofun⟩
      cases ht
      exact ⟨⟨v, rfl, .refl v⟩, hFocusable⟩
    split
    · exact hSearch .last nofun
    · exact hSearch .first nofun

def Honest (answers : FocusAnswers ι) (root : ι) (views : Views ι Θ) (v : ι) : Prop :=
  ∀ x fuel next, Within views.parent v x → answers.focusable x = true →
    rootComponentView (· = root) fuel x views = some (some root, next) → Within views.parent root x

variable {views : Views ι Θ}

theorem honest_of_within {v : ι} (h : Within views.parent root v) : Honest answers root views v :=
  fun _ _ _ hBelow _ _ => h.trans hBelow

include hForest hRank hFuel in
/-- Either nothing is moved, or the focus ends in the tree, unless none had it and none was to get
it. -/
theorem Steady.trySetFocusedComponent_meets (h : Steady root tree state)
    (hLosingIn : Handlers root tree answers.losingFocus)
    (hGettingIn : Handlers root tree answers.gettingFocus) {view : Option ι}
    (hViewFuel : ∀ v, view = some v →
      ∃ top, Within tree.parent top v ∧ (enough → up top + down top < fuel))
    (hHonest : ∀ v, view = some v → Honest answers root state.views v) {force : Bool}
    (hOld : kept → ∀ f, state.m_focusedComponent = some f → Within tree.parent root f)
    (hLosing : state.m_focusedComponent ≠ none → ∀ settled : Prop,
      (∀ v, view = some v → Focusable answers tree v → settled) →
        (view.isSome → force = false → settled) →
          Settles (Focusable answers tree) kept settled answers.losingFocus)
    (hGetting : state.m_focusedComponent ≠ none →
      Settles (Focusable answers tree) kept True answers.gettingFocus) :
    Meets enough (fun moved => Steady root tree moved.2 ∧
        (moved.1 = false → moved.2.m_focusedComponent = state.m_focusedComponent) ∧
        (moved.1 = true →
          (state.m_focusedComponent = none ∧ moved.2.m_focusedComponent = none) ∨
            InTree root tree moved.2.m_focusedComponent) ∧
        (force = true → (∀ v, view = some v → Within tree.parent root v) → moved.1 = true))
      (state.trySetFocusedComponent answers root fuel view direction focusState force) := by
  have hDownFuel : ∀ v, view = some v → enough → down v < fuel := by
    intro v hv hEnough
    obtain ⟨top, hAbove, hTopFuel⟩ := hViewFuel v hv
    have hLe := down_le hRank hAbove
    have hLt := hTopFuel hEnough
    omega
  rw [trySetFocusedComponent]
  apply (h.focusTarget_meets hForest hRank hDownFuel).bind
  rintro target ⟨hFound, hNothing⟩
  cases target with
  | none =>
    simp only
    split
    · rename_i hStay
      refine ⟨h, fun _ => rfl, nofun, fun hForce => ?_⟩
      rw [hStay.2] at hForce
      cases hForce
    · rename_i hGo
      have hMove : Meets enough _ (state.moveFocus answers root fuel none direction focusState) :=
        h.moveFocus_meets hForest hRank hFuel hLosingIn hGettingIn nofun hOld
          (fun hSome => hLosing hSome _
            (fun v hv hFocusable => absurd hFocusable (hNothing rfl v hv))
            (fun hSome hForce => absurd ⟨hSome, hForce⟩ hGo)) hGetting
      apply hMove.bind
      intro next hNext
      exact ⟨hNext.1, nofun, fun _ => hNext.2, fun _ _ => rfl⟩
  | some t =>
    obtain ⟨⟨v, rfl, hWithin⟩, hFocusable⟩ := hFound t rfl
    obtain ⟨top, hAbove, hTopFuel⟩ := hViewFuel v rfl
    apply (h.askRoot_meets hRank (hAbove.trans hWithin) hTopFuel).bind
    rintro ⟨found, asked⟩ ⟨hSteady, hSame, -, hOwn, views, hAsked⟩
    simp only
    split
    · rename_i hOther
      refine ⟨hSteady, fun _ => hSame, nofun, fun _ hIn => ?_⟩
      exact absurd (hOwn ((hIn v rfl).trans hWithin)) hOther
    · rename_i hThis
      rw [not_not] at hThis
      subst hThis
      have hTarget : Within tree.parent root t := by
        rw [← h.remembers.parent] at hWithin ⊢
        exact hHonest v rfl t fuel views hWithin hFocusable hAsked
      rw [← hSame] at hOld hLosing hGetting ⊢
      have hMove : Meets enough _
          (asked.moveFocus answers root fuel (some t) direction focusState) :=
        hSteady.moveFocus_meets hForest hRank hFuel hLosingIn hGettingIn
          (fun x hx => Option.some.inj hx ▸ hTarget) hOld
          (fun hSome => hLosing hSome _ (fun _ _ _ => nofun) (fun _ _ => nofun)) hGetting
      apply hMove.bind
      intro next hNext
      exact ⟨hNext.1, nofun, fun _ => hNext.2, fun _ _ => rfl⟩

structure Focused (root : ι) (tree : Views ι Θ) (state : RootComponentView ι Θ) : Prop extends
    Steady root tree state where
  within : ∀ f, state.m_focusedComponent = some f → Within tree.parent root f

theorem Steady.focused_of_moved (h : Steady root tree next)
    (hMoved : (state.m_focusedComponent = none ∧ next.m_focusedComponent = none) ∨
      InTree root tree next.m_focusedComponent) : Focused root tree next := by
  refine ⟨h, fun f hf => ?_⟩
  rcases hMoved with ⟨-, hNone⟩ | ⟨x, hx, hWithin⟩
  · rw [hNone] at hf
    cases hf
  · rw [hx] at hf
    cases hf
    exact hWithin

theorem Focused.of_steady (h : Focused root tree state) (hNext : Steady root tree next)
    (hSame : next.m_focusedComponent = state.m_focusedComponent) : Focused root tree next :=
  ⟨hNext, fun f hf => h.within f (hSame ▸ hf)⟩

include hForest hRank hFuel in
theorem Focused.trySetFocusedComponent_meets (h : Focused root tree state)
    (hLosingIn : Handlers root tree answers.losingFocus)
    (hGettingIn : Handlers root tree answers.gettingFocus) {view : Option ι}
    (hViewFuel : ∀ v, view = some v →
      ∃ top, Within tree.parent top v ∧ (enough → up top + down top < fuel))
    (hHonest : ∀ v, view = some v → Honest answers root state.views v) {force : Bool}
    (hLosing : state.m_focusedComponent ≠ none → ∀ settled : Prop,
      (∀ v, view = some v → Focusable answers tree v → settled) →
        (view.isSome → force = false → settled) →
          Settles (Focusable answers tree) True settled answers.losingFocus) :
    Meets enough (fun moved => Focused root tree moved.2)
      (state.trySetFocusedComponent answers root fuel view direction focusState force) := by
  apply (h.toSteady.trySetFocusedComponent_meets hForest hRank hFuel hLosingIn hGettingIn hViewFuel
    hHonest (fun _ => h.within) hLosing (fun _ => settles_true _ _)).imp
  rintro ⟨moved, last⟩ ⟨hSteady, hStay, hMove, -⟩
  cases moved with
  | false => exact h.of_steady hSteady (hStay rfl)
  | true => exact hSteady.focused_of_moved (hMove rfl)

variable (hTop : tree.parent root = none) (hLosingIn : Handlers root tree answers.losingFocus)
  (hGettingIn : Handlers root tree answers.gettingFocus)

include hForest hRank hFuel hLosingIn hGettingIn in
theorem Focused.navigateFocus_meets (h : Focused root tree state) {reason : FocusNavigationReason} :
    Meets enough (fun moved => Focused root tree moved.2)
      (state.navigateFocus answers root fuel reason) := by
  rw [navigateFocus]
  split
  · exact h
  have hSearch : Meets enough (fun view => ∀ v, view = some v →
      Within tree.parent root v ∧ answers.focusable v = true)
      (fueled (if reason = .last then findLastFocusableElement answers state.views fuel root
        else findFirstFocusableElement answers state.views fuel root) : Focusing _) := by
    have hAny : ∀ reason, reason ≠ .restore → Meets enough (fun view => ∀ v, view = some v →
        Within tree.parent root v ∧ answers.focusable v = true)
        (fueled (navigateFocusHelper answers state.views reason fuel root) : Focusing _) := by
      intro reason hReason
      apply Meets.of_fueled
      · intro view hView
        rw [← h.remembers.parent]
        exact (navigateFocusHelper_spec (h.forest hForest) hReason hView).1
      · intro hEnough
        have hDown : ∀ c p, state.views.parent c = some p → down c < down p := by
          rw [h.remembers.parent]
          exact fun c p hParent => (hRank c p hParent).2
        have hLt := hFuel hEnough
        exact exists_navigateFocusHelper (h.forest hForest) hDown (by omega)
    split
    · exact hAny .last nofun
    · exact hAny .first nofun
  apply hSearch.bind
  intro view hView
  cases view with
  | none => exact h
  | some v =>
    obtain ⟨hWithin, hFocusable⟩ := hView v rfl
    have hMove : Meets enough (fun moved => Focused root tree moved.2)
        (state.trySetFocusedComponent answers root fuel (some v)
          (if reason = .first then .first else .last) .programmatic false) := by
      apply h.trySetFocusedComponent_meets hForest hRank _ hLosingIn hGettingIn
      · intro v' hv'
        cases hv'
        exact ⟨root, hWithin, hFuel⟩
      · intro v' hv'
        cases hv'
        apply honest_of_within
        rw [h.remembers.parent]
        exact hWithin
      · intro _ settled hFound _
        exact (settles_true _ _).imp (fun _ _ hv => hv)
          fun _ => hFound v rfl ⟨v, .refl v, hFocusable⟩
      · exact hFuel
    apply hMove.bind
    intro moved hMoved
    exact hMoved

include hForest hRank hFuel hLosingIn hGettingIn in
theorem Focused.tryFocusOn_meets (h : Focused root tree state) {currentlyFocused view : ι}
    (hView : Within tree.parent root view) {forward : Bool} :
    Meets enough (fun moved => Focused root tree moved.2)
      (tryFocusOn answers root fuel currentlyFocused forward focusState view state) := by
  rw [tryFocusOn]
  split
  · exact h
  split
  · exact h
  rename_i hFocusable
  rw [Bool.not_eq_false] at hFocusable
  apply (h.askRoot_meets hRank hView hFuel).bind
  rintro ⟨found, asked⟩ ⟨hSteady, hSame, -, hOwn, -⟩
  obtain rfl : found = some root := hOwn hView
  apply (h.of_steady hSteady hSame).trySetFocusedComponent_meets hForest hRank hFuel hLosingIn
    hGettingIn
  · intro v hv
    cases hv
    exact ⟨root, hView, hFuel⟩
  · intro v hv
    cases hv
    apply honest_of_within
    rw [hSteady.remembers.parent]
    exact hView
  · intro _ settled hFound _
    exact (settles_true _ _).imp (fun _ _ hv => hv)
      fun _ => hFound view rfl ⟨view, .refl view, hFocusable⟩

variable {size rest before : ι → ℕ}
  {fn : ι → RootComponentView ι Θ → Focusing (Bool × RootComponentView ι Θ)}
  (hFn : ∀ view state, Within tree.parent root view → Focused root tree state →
    Meets enough (fun moved => Focused root tree moved.2) (fn view state))

include hForest hRank hTop in
/-- After all that is within a view, a walk goes on with a view of the tree that has less after it. -/
theorem nextView_spec (hSame : Remembers tree views) (hRest : ∀ c p, tree.parent c = some p →
      (∀ s, (tree.children p)[(tree.children p).idxOf c + 1]? = some s → size s + rest s = rest c) ∧
        ((tree.children p)[(tree.children p).idxOf c + 1]? = none → rest c = rest p)) {view : ι}
    (hView : Within tree.parent root view) :
    (∀ found s, nextView views fuel view = some found → found = some s →
      Within tree.parent root s ∧ size s + rest s = rest view) ∧
        (down root < fuel + down view → ∃ found, nextView views fuel view = some found) := by
  induction fuel generalizing view with
  | zero =>
    refine ⟨nofun, fun hLt => ?_⟩
    have hLe := down_le hRank hView
    omega
  | succ fuel ih =>
    have hParents : (views view).m_parent = tree.parent view := congrFun hSame.parent view
    rw [nextView, hParents]
    cases hParent : tree.parent view with
    | none =>
      refine ⟨fun found s hFound hs => ?_, fun _ => ⟨none, rfl⟩⟩
      cases hFound
      cases hs
    | some p =>
      have hChildren : (views p).m_children = tree.children p := congrFun hSame.children p
      obtain ⟨q, hq, hUp⟩ := hView.of_ne fun hEq => by
        rw [hEq, hTop] at hParent
        cases hParent
      rw [hParent] at hq
      cases hq
      obtain ⟨hSome, hNone⟩ := hRest view p hParent
      simp only [hChildren]
      cases hNext : (tree.children p)[(tree.children p).idxOf view + 1]? with
      | some next =>
        refine ⟨fun found s hFound hs => ?_, fun _ => ⟨_, rfl⟩⟩
        cases hFound
        cases hs
        have hMem := (hForest.mem_children next p).mp (List.mem_of_getElem? hNext)
        exact ⟨hUp.trans (.of_parent hMem), hSome next hNext⟩
      | none =>
        obtain ⟨hSpec, hEnds⟩ := ih hUp
        rw [hNone hNext]
        refine ⟨hSpec, fun hLt => hEnds ?_⟩
        have hDown := (hRank view p hParent).2
        omega

include hForest hRank in
omit [DecidableEq ι] in
theorem lastDeepChild_spec (hSame : Remembers tree views)
    (hLast : ∀ v c, (tree.children v).getLast? = some c → before c + size c = before v + size v)
    (hSize : ∀ v, 0 < size v) {view : ι} :
    (∀ found, lastDeepChild views fuel view = some found →
      Within tree.parent view found ∧ before found < before view + size view) ∧
        (down view < fuel → ∃ found, lastDeepChild views fuel view = some found) := by
  induction fuel generalizing view with
  | zero => exact ⟨nofun, fun hLt => absurd hLt (Nat.not_lt_zero _)⟩
  | succ fuel ih =>
    have hChildren : (views view).m_children = tree.children view := congrFun hSame.children view
    rw [lastDeepChild, hChildren]
    cases hChild : (tree.children view).getLast? with
    | none =>
      refine ⟨fun found hFound => ?_, fun _ => ⟨view, rfl⟩⟩
      cases hFound
      exact ⟨.refl view, Nat.lt_add_of_pos_right (hSize view)⟩
    | some child =>
      have hParent := (hForest.mem_children child view).mp (List.mem_of_getLast? hChild)
      obtain ⟨hSpec, hEnds⟩ := @ih child
      refine ⟨fun found hFound => ?_, fun hLt => hEnds ?_⟩
      · obtain ⟨hWithin, hBefore⟩ := hSpec found hFound
        rw [← hLast view child hChild]
        exact ⟨(Within.of_parent hParent).trans hWithin, hBefore⟩
      · have hDown := (hRank child view hParent).2
        omega

include hForest hRank hTop hFn in
theorem Focused.walkForward_meets (h : Focused root tree state)
    (hFirst : ∀ v c cs, tree.children v = c :: cs → size c + rest c < size v + rest v)
    (hSize : ∀ v, 0 < size v)
    (hRest : ∀ c p, tree.parent c = some p →
      (∀ s, (tree.children p)[(tree.children p).idxOf c + 1]? = some s → size s + rest s = rest c) ∧
        ((tree.children p)[(tree.children p).idxOf c + 1]? = none → rest c = rest p))
    {fuel : ℕ} {view : ι} (hView : Within tree.parent root view)
    (hWalkFuel : enough → size view + rest view + down root < fuel) :
    Meets enough (fun moved => Focused root tree moved.2) (walkForward fn fuel view state) := by
  induction fuel generalizing view state with
  | zero => exact fun hEnough => absurd (hWalkFuel hEnough) (Nat.not_lt_zero _)
  | succ fuel ih =>
    rw [walkForward]
    apply (hFn view state hView h).bind
    rintro ⟨done, state⟩ hState
    cases done with
    | true => exact hState
    | false =>
      have hChildren : (state.views view).m_children = tree.children view :=
        congrFun hState.remembers.children view
      simp only [hChildren]
      cases hKids : tree.children view with
      | cons c cs =>
        have hParent := (hForest.mem_children c view).mp (hKids ▸ List.mem_cons_self)
        apply ih hState (hView.trans (.of_parent hParent))
        intro hEnough
        have hLt := hWalkFuel hEnough
        have hLess := hFirst view c cs hKids
        omega
      | nil =>
        obtain ⟨hSpec, hEnds⟩ := nextView_spec hForest hRank hTop hState.remembers hRest hView
        have hNext : Meets enough (fun found => ∀ s, found = some s →
            Within tree.parent root s ∧ size s + rest s = rest view)
            (fueled (nextView state.views fuel view) : Focusing _) := by
          apply Meets.of_fueled
          · exact fun found hFound s hs => hSpec found s hFound hs
          · intro hEnough
            apply hEnds
            have hLt := hWalkFuel hEnough
            have hPos := hSize view
            omega
        apply hNext.bind
        intro found hFound
        cases found with
        | none => exact hState
        | some s =>
          obtain ⟨hWithin, hLess⟩ := hFound s rfl
          apply ih hState hWithin
          intro hEnough
          have hLt := hWalkFuel hEnough
          have hPos := hSize view
          omega

include hForest hRank hTop hFn in
theorem Focused.walkBackward_meets (h : Focused root tree state)
    (hLast : ∀ v c, (tree.children v).getLast? = some c → before c + size c = before v + size v)
    (hSize : ∀ v, 0 < size v)
    (hBefore : ∀ c p, tree.parent c = some p → before p < before c ∧
      ∀ i s, (tree.children p).idxOf c = i + 1 → (tree.children p)[i]? = some s →
        before s + size s = before c)
    {fuel : ℕ} {view : ι} (hView : Within tree.parent root view)
    (hWalkFuel : enough → before view + down root < fuel) :
    Meets enough (fun moved => Focused root tree moved.2) (walkBackward fn fuel view state) := by
  induction fuel generalizing view state with
  | zero => exact fun hEnough => absurd (hWalkFuel hEnough) (Nat.not_lt_zero _)
  | succ fuel ih =>
    have hParents : (state.views view).m_parent = tree.parent view :=
      congrFun h.remembers.parent view
    rw [walkBackward, hParents]
    cases hParent : tree.parent view with
    | none => exact h
    | some p =>
      have hChildren : (state.views p).m_children = tree.children p :=
        congrFun h.remembers.children p
      obtain ⟨q, hq, hUp⟩ := hView.of_ne fun hEq => by
        rw [hEq, hTop] at hParent
        cases hParent
      rw [hParent] at hq
      cases hq
      obtain ⟨hAbove, hSibling⟩ := hBefore view p hParent
      simp only [hChildren]
      cases hIdx : (tree.children p).idxOf view with
      | zero =>
        apply (hFn p state hUp h).bind
        rintro ⟨done, state⟩ hState
        cases done with
        | true => exact hState
        | false =>
          apply ih hState hUp
          intro hEnough
          have hLt := hWalkFuel hEnough
          omega
      | succ index =>
        have hMem : view ∈ tree.children p := (hForest.mem_children view p).mpr hParent
        have hLength : index < (tree.children p).length := by
          have hLt := List.idxOf_lt_length_iff.mpr hMem
          omega
        have hPrevious := List.getElem?_eq_getElem hLength
        have hIn : tree.parent (tree.children p)[index] = some p :=
          (hForest.mem_children _ p).mp (List.getElem_mem hLength)
        simp only [hPrevious]
        obtain ⟨hSpec, hEnds⟩ := lastDeepChild_spec hForest hRank h.remembers hLast hSize
        have hDeep : Meets enough (fun found =>
            Within tree.parent (tree.children p)[index] found ∧ before found <
              before (tree.children p)[index] + size (tree.children p)[index])
            (fueled (lastDeepChild state.views fuel (tree.children p)[index]) : Focusing _) := by
          apply Meets.of_fueled
          · exact hSpec
          · intro hEnough
            apply hEnds
            have hLt := hWalkFuel hEnough
            have hLe := down_le hRank (hUp.trans (.of_parent hIn))
            omega
        apply hDeep.bind
        rintro found ⟨hWithin, hFoundBefore⟩
        have hFoundIn := (hUp.trans (.of_parent hIn)).trans hWithin
        apply (hFn found state hFoundIn h).bind
        rintro ⟨done, state⟩ hState
        cases done with
        | true => exact hState
        | false =>
          apply ih hState hFoundIn
          intro hEnough
          have hLt := hWalkFuel hEnough
          have hEq := hSibling index _ hIdx hPrevious
          omega

end Moves

end RootComponentView
end Fabric
