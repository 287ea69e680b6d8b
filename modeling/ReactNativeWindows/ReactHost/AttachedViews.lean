import ReactNativeWindows.ReactHost.UnloadIds

/-! The views that are attached to a host, and how an instance that is unloading leaves them. -/
namespace ReactHost

universe u

variable {Options ViewOptions : Type u} {h t : Host Options ViewOptions}

namespace Host

structure Attached (h : Host Options ViewOptions) : Prop where
  attached_iff : ∀ view, view ∈ h.m_viewHosts ↔ (h.views view).m_viewInstance = true
  nodup : h.m_viewHosts.Nodup
  inited : ∀ view, (h.views view).m_isViewInstanceInited = true → (h.views view).m_viewInstance = true

/-- While an instance is unloading, an attached view that it does not skip is uninited, and no instance
has it once its future has completed. -/
structure Uninits (h : Host Options ViewOptions) (views skipped : List ℕ) : Prop where
  unloading : h.m_isInstanceUnloading = true
  nodup : views.Nodup
  uninited : ∀ view ∈ h.m_viewHosts, view ∉ skipped → (h.views view).m_isViewInstanceInited = false
  left : ∀ view ∈ h.m_viewHosts, view ∉ skipped → view ∉ views → (h.views view).initedAgainst = none

theorem setView_views_self (view : ℕ) (v : ViewHost ViewOptions) : (h.setView view v).views view = v :=
  Function.update_self ..

theorem setView_views_of_ne {view other : ℕ} (hOther : other ≠ view) (v : ViewHost ViewOptions) :
    (h.setView view v).views other = h.views other := Function.update_of_ne hOther ..

theorem Attached.of_views (hAttached : h.Attached) (hHosts : t.m_viewHosts = h.m_viewHosts)
    (hInstance : ∀ view, (t.views view).m_viewInstance = (h.views view).m_viewInstance)
    (hInited : ∀ view, (t.views view).m_isViewInstanceInited = true →
      (h.views view).m_isViewInstanceInited = true ∨ (h.views view).m_viewInstance = true) :
    t.Attached where
  attached_iff view := by
    rw [hHosts, hInstance]
    exact hAttached.attached_iff view
  nodup := hHosts ▸ hAttached.nodup
  inited view hView := by
    rw [hInstance]
    rcases hInited view hView with hBefore | hNow
    · exact hAttached.inited view hBefore
    · exact hNow

theorem Attached.of_eq (hAttached : h.Attached) (hHosts : t.m_viewHosts = h.m_viewHosts)
    (hViews : t.views = h.views) : t.Attached := by
  apply hAttached.of_views hHosts
  · intro view
    rw [hViews]
  · intro view hInited
    rw [hViews] at hInited
    exact Or.inl hInited

theorem Attached.setView (hAttached : h.Attached) {view : ℕ} {v : ViewHost ViewOptions}
    (hInstance : v.m_viewInstance = (h.views view).m_viewInstance)
    (hInited : v.m_isViewInstanceInited = true →
      (h.views view).m_isViewInstanceInited = true ∨ (h.views view).m_viewInstance = true) :
    (h.setView view v).Attached := by
  apply hAttached.of_views
  · rfl
  · intro other
    by_cases hOther : other = view
    · subst hOther
      rw [setView_views_self]
      exact hInstance
    · rw [setView_views_of_ne hOther]
  · intro other hBefore
    by_cases hOther : other = view
    · subst hOther
      rw [setView_views_self] at hBefore
      exact hInited hBefore
    · rw [setView_views_of_ne hOther] at hBefore
      exact Or.inl hBefore

end Host

theorem Inits.attached (hAttached : h.Attached) {view : ℕ} {result : Option ActionResult}
    (hInit : Inits h view t result) : t.Attached := by
  cases hInit with
  | already | canceled => exact hAttached
  | init instance_ uninited loaded can =>
    simp only [Host.canInit, Bool.and_eq_true] at can
    exact hAttached.setView rfl fun _ => Or.inr can.2

namespace Host

theorem attached_beginsUnload (hAttached : h.Attached) : h.beginsUnload.Attached := by
  apply hAttached.of_views
  · rfl
  · intro view
    unfold beginsUnload
    dsimp only
    split <;> rfl
  · intro view hInited
    unfold beginsUnload at hInited
    dsimp only at hInited
    split at hInited
    next => cases hInited
    next => exact Or.inl hInited

theorem attached_loads (hAttached : h.Attached) (options : ReactOptions Options) :
    (h.loads options).Attached := by
  apply hAttached.of_views
  · rfl
  · intro view
    unfold loads
    dsimp only
    split <;> rfl
  · intro view hInited
    unfold loads at hInited
    dsimp only at hInited
    split at hInited
    next hCan => exact Or.inr ((hAttached.attached_iff view).mp hCan.1)
    next => exact Or.inl hInited

theorem attached_withViewOptions (hAttached : h.Attached) (view : ℕ) (options : Option ViewOptions) :
    (h.withViewOptions view options).Attached := by
  cases options with
  | none => exact hAttached
  | some options => exact hAttached.setView rfl Or.inl

theorem Attached.starts (hAttached : h.Attached) {action : Action Options ViewOptions}
    (hStart : Starts h action t) : t.Attached := by
  cases hStart with
  | unload => exact attached_beginsUnload hAttached
  | load options => exact attached_loads hAttached options
  | canceledUninit view =>
    have hClears : (h.clearsUninit view).Attached := hAttached.setView rfl Or.inl
    exact hClears.of_eq rfl rfl
  | uninit view id newest current attached =>
    have hClears : (h.clearsUninit view).Attached := hAttached.setView rfl Or.inl
    have hUninits := hClears.setView (v := ((h.clearsUninit view).views view).uninitRootView) rfl
      fun hInited => absurd hInited Bool.noConfusion
    exact hUninits.of_eq rfl rfl
  | @init view options uninited next result inits =>
    have hNext := inits.attached (attached_withViewOptions hAttached view options)
    cases result <;> exact hNext.of_eq rfl rfl
  | _ => exact hAttached.of_eq rfl rfl

/-- Posting an unload of a view changes its ids only. -/
theorem posted_view (event : Event Options ViewOptions) (view : ℕ) :
    ((h.posted event).views view).m_viewInstance = (h.views view).m_viewInstance ∧
      ((h.posted event).views view).m_isViewInstanceInited = (h.views view).m_isViewInstanceInited ∧
      ((h.posted event).views view).initedAgainst = (h.views view).initedAgainst ∧
      ((h.posted event).views view).calls = (h.views view).calls := by
  have hUninit (unloaded : ℕ) :
      ((h.postsUninit unloaded).views view).m_viewInstance = (h.views view).m_viewInstance ∧
        ((h.postsUninit unloaded).views view).m_isViewInstanceInited =
          (h.views view).m_isViewInstanceInited ∧
        ((h.postsUninit unloaded).views view).initedAgainst = (h.views view).initedAgainst ∧
        ((h.postsUninit unloaded).views view).calls = (h.views view).calls := by
    by_cases hView : view = unloaded
    · subst hView
      simp [postsUninit, makeUninitViewInstanceAction, Host.setView, appended]
    · simp [postsUninit, makeUninitViewInstanceAction, Host.setView, appended, hView]
  cases event with
  | reloadViewInstance unloaded options | unloadViewInstance unloaded => exact hUninit unloaded
  | _ => exact ⟨rfl, rfl, rfl, rfl⟩

theorem posted_m_viewHosts (event : Event Options ViewOptions) :
    (h.posted event).m_viewHosts = h.m_viewHosts := by
  cases event <;> rfl

theorem attached_attaches (hAttached : h.Attached) {view : ℕ}
    (hDetached : (h.views view).m_viewInstance = false) : (h.attaches view).Attached where
  attached_iff other := by
    by_cases hOther : other = view
    · subst hOther
      constructor
      · intro _
        exact congrArg ViewHost.m_viewInstance (setView_views_self ..)
      · intro _
        exact List.mem_append_right _ List.mem_cons_self
    · have hViews : (h.attaches view).views other = h.views other := setView_views_of_ne hOther _
      rw [hViews, ← hAttached.attached_iff other]
      simp [attaches, hOther]
  nodup := by
    have hNew : view ∉ h.m_viewHosts := by
      intro hMem
      exact absurd (hDetached.symm.trans ((hAttached.attached_iff view).mp hMem)) Bool.noConfusion
    have hConcat := hAttached.nodup.concat hNew
    rwa [List.concat_eq_append] at hConcat
  inited other hInited := by
    by_cases hOther : other = view
    · subst hOther
      exact congrArg ViewHost.m_viewInstance (setView_views_self ..)
    · have hViews : (h.attaches view).views other = h.views other := setView_views_of_ne hOther _
      rw [hViews] at hInited ⊢
      exact hAttached.inited other hInited

theorem attached_detaches (hAttached : h.Attached) (view : ℕ) : (h.detaches view).Attached where
  attached_iff other := by
    by_cases hOther : other = view
    · subst hOther
      have hViews : ((h.detaches other).views other).m_viewInstance = false :=
        congrArg ViewHost.m_viewInstance (setView_views_self ..)
      rw [hViews]
      simp [detaches, Host.setView]
    · have hViews : (h.detaches view).views other = h.views other := setView_views_of_ne hOther _
      rw [hViews, ← hAttached.attached_iff other]
      simp [detaches, Host.setView, hOther]
  nodup := hAttached.nodup.filter _
  inited other hInited := by
    by_cases hOther : other = view
    · subst hOther
      have hViews : ((h.detaches other).views other).m_isViewInstanceInited = false :=
        congrArg ViewHost.m_isViewInstanceInited (setView_views_self ..)
      exact absurd (hViews.symm.trans hInited) Bool.noConfusion
    · have hViews : (h.detaches view).views other = h.views other := setView_views_of_ne hOther _
      rw [hViews] at hInited ⊢
      exact hAttached.inited other hInited

end Host

namespace ViewHost
variable (v : ViewHost ViewOptions)

@[simp] theorem uninited_m_viewInstance : v.uninited.m_viewInstance = v.m_viewInstance := by
  unfold uninited
  split <;> rfl

@[simp] theorem uninited_m_isViewInstanceInited :
    v.uninited.m_isViewInstanceInited = v.m_isViewInstanceInited := by
  unfold uninited
  split <;> rfl

@[simp] theorem uninited_calls : v.uninited.calls = v.calls := by
  unfold uninited
  split <;> rfl

theorem uninited_initedAgainst (hUninited : v.m_isViewInstanceInited = false) :
    v.uninited.initedAgainst = none := by
  simp [uninited, hUninited]

end ViewHost

namespace Host

theorem Attached.uninited (hAttached : h.Attached) (view : ℕ) :
    (h.setView view (h.views view).uninited).Attached := by
  apply hAttached.setView
  · exact (h.views view).uninited_m_viewInstance
  · intro hInited
    rw [ViewHost.uninited_m_isViewInstanceInited] at hInited
    exact Or.inl hInited

variable {label : Label Options ViewOptions}

theorem Attached.moves (hMove : Moves h label t) (hAttached : h.Attached) : t.Attached := by
  cases hMove with
  | post event posts =>
    apply hAttached.of_views (posted_m_viewHosts event)
    · exact fun view => (posted_view event view).1
    · intro view hInited
      rw [(posted_view event view).2.1] at hInited
      exact Or.inl hInited
  | start action actions ready first starts =>
    have hStarted : (h.started action actions).Attached := hAttached.of_eq rfl rfl
    exact hStarted.starts starts
  | attach view detached inits => exact inits.attached (attached_attaches hAttached detached)
  | detach view => exact attached_detaches hAttached view
  | uninited view | viewUninited succeeded view => exact (hAttached.uninited view).of_eq rfl rfl
  | _ => exact hAttached.of_eq rfl rfl

/-- An unload of the instance uninits the attached views but for those that it skips or that are left. -/
theorem uninits_beginsUnload (hAttached : h.Attached) {skipped : List ℕ}
    (hSkipped : ∀ view ∈ h.m_viewHosts, view ∉ skipped → h.unloadsView view = false →
      (h.views view).m_isViewInstanceInited = false ∧ (h.views view).initedAgainst = none) :
    h.beginsUnload.Uninits (h.m_viewHosts.filter h.unloadsView) skipped := by
  refine ⟨rfl, hAttached.nodup.filter _, ?_, ?_⟩
  · intro view hView hNot
    unfold beginsUnload
    dsimp only
    split
    next => rfl
    next hKept => exact (hSkipped view hView hNot (Bool.eq_false_iff.mpr hKept)).1
  · intro view hView hNot hWaits
    have hKept : ¬h.unloadsView view = true := fun hUnloads =>
      hWaits (List.mem_filter.mpr ⟨hView, hUnloads⟩)
    have hSame : h.beginsUnload.views view = h.views view := if_neg hKept
    rw [hSame]
    exact (hSkipped view hView hNot (Bool.eq_false_iff.mpr hKept)).2

variable {views skipped : List ℕ}

/-- The start of another action does not unload the instance. -/
theorem uninits_of_starts (hAttached : h.Attached) {action : Action Options ViewOptions}
    (hStart : Starts h action t) (hStage : t.stage = .unloading views skipped) :
    t.Uninits views skipped := by
  cases hStart with
  | unload =>
    obtain ⟨rfl, rfl⟩ := Stage.unloading.inj hStage
    apply uninits_beginsUnload hAttached
    intro view hView hNot hKept
    exact absurd (List.mem_filter.mpr ⟨hView, by rw [hKept]; rfl⟩) hNot
  | @init view options uninited next result inits =>
    cases result <;> exact absurd hStage Stage.noConfusion
  | _ => exact absurd hStage Stage.noConfusion

theorem uninits_of_start_move (hAttached : h.Attached) {action : Action Options ViewOptions}
    {actions : List (Action Options ViewOptions)} (hMove : Moves h (.start action actions) t)
    (hStage : t.stage = .unloading views skipped) : t.Uninits views skipped := by
  cases hMove with
  | start _ _ ready first starts =>
    have hStarted : (h.started action actions).Attached := hAttached.of_eq rfl rfl
    exact uninits_of_starts hStarted starts hStage

theorem uninits_of_attaches (hAttached : h.Attached) (hUninits : h.Uninits views skipped) {view : ℕ}
    (hDetached : (h.views view).m_viewInstance = false) {result : Option ActionResult}
    (hInit : Inits (h.attaches view) view t result) : t.Uninits views skipped := by
  have hNever : (h.attaches view).Uninits views skipped := by
    have hUninited : (h.views view).m_isViewInstanceInited = false := by
      by_contra hInited
      have hInstance := hAttached.inited view ((Bool.not_eq_false _).mp hInited)
      exact absurd (hDetached.symm.trans hInstance) Bool.noConfusion
    refine ⟨hUninits.unloading, hUninits.nodup, ?_, ?_⟩
    · intro other hOther hSkipped
      by_cases hView : other = view
      · subst hView
        exact (congrArg ViewHost.m_isViewInstanceInited (setView_views_self ..)).trans hUninited
      · have hViews : (h.attaches view).views other = h.views other := setView_views_of_ne hView _
        rw [hViews]
        have hBefore : other ∈ h.m_viewHosts := by simpa [attaches, hView] using hOther
        exact hUninits.uninited other hBefore hSkipped
    · intro other hOther hSkipped hWaits
      by_cases hView : other = view
      · subst hView
        exact congrArg ViewHost.initedAgainst (setView_views_self ..)
      · have hViews : (h.attaches view).views other = h.views other := setView_views_of_ne hView _
        rw [hViews]
        have hBefore : other ∈ h.m_viewHosts := by simpa [attaches, hView] using hOther
        exact hUninits.left other hBefore hSkipped hWaits
  cases hInit with
  | already | canceled => exact hNever
  | init instance_ uninited loaded can =>
    have hUnloading : (h.attaches view).m_isInstanceUnloading = true := hUninits.unloading
    simp [canInit, hUnloading] at can

theorem Uninits.of_eq (hUninits : h.Uninits views skipped)
    (hUnloading : t.m_isInstanceUnloading = h.m_isInstanceUnloading)
    (hHosts : ∀ view ∈ t.m_viewHosts, view ∈ h.m_viewHosts) (hInited : ∀ view ∈ t.m_viewHosts,
      (t.views view).m_isViewInstanceInited = (h.views view).m_isViewInstanceInited)
    (hLeft : ∀ view ∈ t.m_viewHosts,
      (t.views view).initedAgainst = (h.views view).initedAgainst) :
    t.Uninits views skipped where
  unloading := hUnloading.trans hUninits.unloading
  nodup := hUninits.nodup
  uninited view hView hSkipped :=
    (hInited view hView).trans (hUninits.uninited view (hHosts view hView) hSkipped)
  left view hView hSkipped hWaits :=
    (hLeft view hView).trans (hUninits.left view (hHosts view hView) hSkipped hWaits)

/-- A future of `UninitRootView` completes. -/
theorem Uninits.uninited_view (hUninits : h.Uninits views skipped) (view : ℕ) :
    (h.setView view (h.views view).uninited).Uninits (views.erase view) skipped where
  unloading := hUninits.unloading
  nodup := hUninits.nodup.erase view
  uninited other hOther hSkipped := by
    by_cases hView : other = view
    · subst hView
      rw [setView_views_self, ViewHost.uninited_m_isViewInstanceInited]
      exact hUninits.uninited other hOther hSkipped
    · rw [setView_views_of_ne hView]
      exact hUninits.uninited other hOther hSkipped
  left other hOther hSkipped hWaits := by
    by_cases hView : other = view
    · subst hView
      rw [setView_views_self]
      exact ViewHost.uninited_initedAgainst _ (hUninits.uninited other hOther hSkipped)
    · rw [setView_views_of_ne hView]
      apply hUninits.left other hOther hSkipped
      intro hMem
      exact hWaits ((List.mem_erase_of_ne hView).mpr hMem)

/-- `kept` are the skipped views that may stay inited. -/
theorem uninits_moves (hMove : Moves h label t) (hAttached : h.Attached) (kept : List ℕ → List ℕ)
    (hStarts : ∀ action actions, label = .start action actions → ∀ views skipped,
      t.stage = .unloading views skipped → t.Uninits views (kept skipped))
    (hUninits : ∀ views skipped, h.stage = .unloading views skipped → h.Uninits views (kept skipped))
    (views skipped : List ℕ) (hStage : t.stage = .unloading views skipped) :
    t.Uninits views (kept skipped) := by
  cases hMove with
  | post event posts =>
    rw [posted_stage] at hStage
    apply (hUninits views skipped hStage).of_eq
    · cases event <;> rfl
    · intro view hView
      rw [posted_m_viewHosts] at hView
      exact hView
    · exact fun view _ => (posted_view event view).2.1
    · exact fun view _ => (posted_view event view).2.2.1
  | start action actions => exact hStarts action actions rfl views skipped hStage
  | attach view detached inits =>
    rw [inits.actionQueue_eq.2.2] at hStage
    exact uninits_of_attaches hAttached (hUninits views skipped hStage) detached inits
  | detach view attached =>
    have hOther (other : ℕ) (hMem : other ∈ (h.detaches view).m_viewHosts) :
        other ∈ h.m_viewHosts ∧ (h.detaches view).views other = h.views other := by
      have hNe : other ≠ view := by
        have hKept := (List.mem_filter.mp hMem).2
        simpa using hKept
      exact ⟨(List.mem_filter.mp hMem).1, setView_views_of_ne hNe _⟩
    apply (hUninits views skipped hStage).of_eq
    · rfl
    · exact fun other hMem => (hOther other hMem).1
    · intro other hMem
      rw [(hOther other hMem).2]
    · intro other hMem
      rw [(hOther other hMem).2]
  | uninited view waiting skips unloading waits =>
    obtain ⟨rfl, rfl⟩ := Stage.unloading.inj hStage
    have hNext := (hUninits waiting skips unloading).uninited_view view
    exact ⟨hNext.unloading, hNext.nodup, hNext.uninited, hNext.left⟩
  | _ => exact absurd hStage Stage.noConfusion

end Host

/-- No instance has the view unless the view is inited. -/
def ViewHost.Left (v : ViewHost ViewOptions) : Prop :=
  v.m_isViewInstanceInited = false → v.initedAgainst = none

theorem ViewHost.left_initRootView (v : ViewHost ViewOptions) (instance_ : ℕ) :
    (v.initRootView instance_).Left := fun hUninited => Bool.noConfusion hUninited

theorem ViewHost.left_uninited (v : ViewHost ViewOptions) : v.uninited.Left := by
  intro hUninited
  rw [uninited_m_isViewInstanceInited] at hUninited
  exact uninited_initedAgainst v hUninited

def Stage.awaits (view : ℕ) : Stage → Prop
  | .uniniting uninited => uninited = view
  | .unloading views _ => view ∈ views
  | _ => False

namespace Host

/-- The attached views are left, but for those whose futures are awaited. -/
def LeavesViews (h : Host Options ViewOptions) : Prop :=
  ∀ view ∈ h.m_viewHosts, (h.views view).Left ∨ h.stage.awaits view

def LeftViews (h : Host Options ViewOptions) : Prop := ∀ view ∈ h.m_viewHosts, (h.views view).Left

theorem LeavesViews.left (hLeaves : h.LeavesViews) (hStage : ∀ view, ¬h.stage.awaits view) : h.LeftViews :=
  fun view hView => (hLeaves view hView).resolve_right (hStage view)

theorem LeftViews.leaves (hLeft : h.LeftViews) (hHosts : t.m_viewHosts = h.m_viewHosts)
    (hViews : t.views = h.views) : t.LeavesViews := by
  intro view hView
  rw [hHosts] at hView
  rw [hViews]
  exact Or.inl (hLeft view hView)

theorem Ready.not_awaits (hReady : h.Ready) (view : ℕ) : ¬h.stage.awaits view := by
  rcases hReady with hIdle | hCompleted
  · rw [hIdle]
    exact id
  · rw [hCompleted]
    exact id

theorem LeavesViews.setView (hLeaves : h.LeavesViews) {view : ℕ} {v : ViewHost ViewOptions}
    (hView : view ∈ h.m_viewHosts → v.Left ∨ h.stage.awaits view) : (h.setView view v).LeavesViews := by
  intro other hOther
  by_cases hSame : other = view
  · subst hSame
    rw [setView_views_self]
    exact hView hOther
  · rw [setView_views_of_ne hSame]
    exact hLeaves other hOther

theorem LeftViews.setView (hLeft : h.LeftViews) {view : ℕ} {v : ViewHost ViewOptions}
    (hView : view ∈ h.m_viewHosts → v.Left) : (h.setView view v).LeftViews := by
  intro other hOther
  by_cases hSame : other = view
  · subst hSame
    rw [setView_views_self]
    exact hView hOther
  · rw [setView_views_of_ne hSame]
    exact hLeft other hOther

theorem LeftViews.inits (hLeft : h.LeftViews) {view : ℕ} {result : Option ActionResult}
    (hInit : Inits h view t result) : t.LeftViews := by
  cases hInit with
  | already | canceled => exact hLeft
  | init instance_ => exact hLeft.setView fun _ => (h.views view).left_initRootView instance_

theorem LeftViews.withViewOptions (hLeft : h.LeftViews) (view : ℕ) (options : Option ViewOptions) :
    (h.withViewOptions view options).LeftViews := by
  cases options with
  | none => exact hLeft
  | some options => exact hLeft.setView fun hView => hLeft view hView

theorem leavesViews_of_starts {action : Action Options ViewOptions} (hStart : Starts h action t)
    (hLeft : h.LeftViews) : t.LeavesViews := by
  have hClears (view : ℕ) : (h.clearsUninit view).LeftViews := hLeft.setView fun hView => hLeft view hView
  cases hStart with
  | unload =>
    intro view hView
    by_cases hUnloads : h.unloadsView view = true
    · exact Or.inr (List.mem_filter.mpr ⟨hView, hUnloads⟩)
    · have hSame : h.beginsUnload.views view = h.views view := if_neg hUnloads
      rw [hSame]
      exact Or.inl (hLeft view hView)
  | load options =>
    intro view hView
    apply Or.inl
    unfold loads
    dsimp only
    split
    · exact (h.views view).left_initRootView h.instances
    · exact hLeft view hView
  | canceledUninit view => exact (hClears view).leaves rfl rfl
  | uninit view =>
    intro other hOther
    by_cases hSame : other = view
    · exact Or.inr hSame.symm
    · apply Or.inl
      have hViews : ((h.clearsUninit view).setView view
          ((h.clearsUninit view).views view).uninitRootView).views other =
            (h.clearsUninit view).views other := setView_views_of_ne hSame _
      rw [hViews]
      exact hClears view other hOther
  | @init view options uninited next result inits =>
    have hNext := (hLeft.withViewOptions view options).inits inits
    cases result <;> exact hNext.leaves rfl rfl
  | _ => exact hLeft.leaves rfl rfl

theorem LeavesViews.moves (hMove : Moves h label t) (hLeaves : h.LeavesViews) : t.LeavesViews := by
  cases hMove with
  | post event posts =>
    intro view hView
    rw [posted_m_viewHosts] at hView
    obtain ⟨-, hInited, hAgainst, -⟩ := posted_view (h := h) event view
    rw [ViewHost.Left, hInited, hAgainst, posted_stage]
    exact hLeaves view hView
  | start action actions ready first starts =>
    have hStarted : (h.started action actions).LeftViews := hLeaves.left ready.not_awaits
    exact leavesViews_of_starts starts hStarted
  | attach view detached inits =>
    have hAttaches : (h.attaches view).LeavesViews := by
      intro other hOther
      by_cases hSame : other = view
      · subst hSame
        exact Or.inl fun _ => congrArg ViewHost.initedAgainst (setView_views_self ..)
      · have hViews : (h.attaches view).views other = h.views other := setView_views_of_ne hSame _
        rw [hViews]
        exact hLeaves other (by simpa [attaches, hSame] using hOther)
    cases inits with
    | already | canceled => exact hAttaches
    | init instance_ =>
      exact hAttaches.setView fun _ => Or.inl (((h.attaches view).views view).left_initRootView instance_)
  | detach view attached =>
    intro other hOther
    have hKept := List.mem_filter.mp hOther
    have hNe : other ≠ view := by simpa using hKept.2
    have hViews : (h.detaches view).views other = h.views other := setView_views_of_ne hNe _
    rw [hViews]
    exact hLeaves other hKept.1
  | uninited view views skipped unloading waits =>
    intro other hOther
    by_cases hSame : other = view
    · subst hSame
      apply Or.inl
      have hViews := setView_views_self (h := h) other (h.views other).uninited
      exact (congrArg ViewHost.Left hViews).mpr (h.views other).left_uninited
    · have hViews : (h.setView view (h.views view).uninited).views other = h.views other :=
        setView_views_of_ne hSame _
      have hBefore := hLeaves other hOther
      rw [unloading] at hBefore
      rw [show ({ h.setView view (h.views view).uninited with
        stage := Stage.unloading (views.erase view) skipped } : Host Options ViewOptions).views other =
          h.views other from hViews]
      exact hBefore.imp_right (List.mem_erase_of_ne hSame).mpr
  | viewUninited succeeded view uniniting =>
    intro other hOther
    apply Or.inl
    by_cases hSame : other = view
    · subst hSame
      have hViews := setView_views_self (h := h) other (h.views other).uninited
      exact (congrArg ViewHost.Left hViews).mpr (h.views other).left_uninited
    · have hViews : (h.setView view (h.views view).uninited).views other = h.views other :=
        setView_views_of_ne hSame _
      have hBefore := hLeaves other hOther
      rw [uniniting] at hBefore
      have hLeft := hBefore.resolve_right fun hEq => hSame hEq.symm
      exact (congrArg ViewHost.Left hViews).mpr hLeft
  | destroy skipped instance_ hStage | unloaded skipped hStage =>
    have hNone (view : ℕ) : ¬h.stage.awaits view := hStage ▸ List.not_mem_nil
    exact (hLeaves.left hNone).leaves rfl rfl
  | destroyed _ hStage | loaded hStage | failed hStage | updated _ hStage | inited _ _ hStage
  | complete _ hStage | rest hStage =>
    have hNone (view : ℕ) : ¬h.stage.awaits view := hStage ▸ id
    exact (hLeaves.left hNone).leaves rfl rfl

end Host

variable {options : ReactOptions Options} {viewOptions : ViewOptions}
  {ok : Host Options ViewOptions → Event Options ViewOptions → Prop}

namespace Host

theorem attached_initial (options : ReactOptions Options) (viewOptions : ViewOptions) :
    (initial options viewOptions).Attached where
  attached_iff _ := ⟨fun hMem => absurd hMem List.not_mem_nil, Bool.noConfusion⟩
  nodup := .nil
  inited _ hInited := nomatch hInited

end Host

theorem Runs.attached (run : Runs ok (.initial options viewOptions) h) : h.Attached :=
  (run.invariant (Host.attached_initial options viewOptions)
    fun _ hMove _ hAttached => hAttached.moves hMove).2

theorem Runs.uninits (run : Runs ok (.initial options viewOptions) h) {views skipped : List ℕ}
    (hStage : h.stage = .unloading views skipped) : h.Uninits views skipped := by
  have hInvariant := run.invariant (I := fun s => s.Attached ∧
    ∀ views skipped, s.stage = .unloading views skipped → s.Uninits views skipped)
    ⟨Host.attached_initial options viewOptions, fun _ _ hIdle => nomatch hIdle⟩
    (by
      intro s next label _ hMove _ hHolds
      refine ⟨hHolds.1.moves hMove, ?_⟩
      intro views skipped hStage
      apply Host.uninits_moves hMove hHolds.1 id _ hHolds.2 views skipped hStage
      rintro action actions rfl views skipped hStage
      exact Host.uninits_of_start_move hHolds.1 hMove hStage)
  exact hInvariant.2.2 views skipped hStage

theorem Runs.leavesViews (run : Runs ok (.initial options viewOptions) h) : h.LeavesViews :=
  (run.invariant (fun _ hView => absurd hView List.not_mem_nil)
    fun _ hMove _ hLeaves => hLeaves.moves hMove).2

end ReactHost
