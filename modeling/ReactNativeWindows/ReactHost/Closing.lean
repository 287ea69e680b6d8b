import ReactNativeWindows.ReactHost.InstanceLifeTime

/-! The unload that closes a host: where it is, and what it leaves. -/
namespace ReactHost

open Control

universe u

variable {Options ViewOptions : Type u} {h t : Host Options ViewOptions}

def Event.postsUnload : Event Options ViewOptions → Bool
  | .reloadInstance _ | .unloadInstance | .close => true
  | _ => false

namespace Host

/-- The unload that completes the closing promise has been posted and not started. -/
def closingWaits (h : Host Options ViewOptions) : Bool :=
  match h.whenClosed with
  | some id => id ∈ h.unloadIds
  | none => false

/-- The ids in the queue are newer than that of the unload in progress. -/
def Dated (h : Host Options ViewOptions) : Prop :=
  ∀ reason id, h.current = some (.unloadInstance reason id) →
    id ≤ h.m_nextUnloadActionId ∧ ∀ waiting ∈ h.unloadIds, id < waiting

/-- The future of `Destroy` has completed for every instance that is not being destroyed. -/
def Gone (h : Host Options ViewOptions) : Prop :=
  ∀ i ∈ h.destroyed, i ∈ h.gone ∨ h.stage = .destroying i

end Host

variable {result : Option ActionResult}

theorem Inits.gone_eq {view : ℕ} (hInit : Inits h view t result) :
    t.gone = h.gone ∧ t.m_inspectorPageId = h.m_inspectorPageId ∧
      t.m_notifyWhenClosed = h.m_notifyWhenClosed ∧ t.whenClosed = h.whenClosed ∧
      t.closed = h.closed := by
  cases hInit <;> exact ⟨rfl, rfl, rfl, rfl, rfl⟩

variable {action : Action Options ViewOptions}

/-- An action in progress does not set the result of the closing promise. -/
theorem Starts.closed_eq (hStart : Starts h action t) :
    t.gone = h.gone ∧ t.m_notifyWhenClosed = h.m_notifyWhenClosed ∧ t.whenClosed = h.whenClosed ∧
      t.closed = h.closed := by
  cases hStart with
  | @init view options uninited next result inits =>
    obtain ⟨hGone, -, hNotify, hWhen, hClosed⟩ := inits.gone_eq
    cases options <;> cases result <;> exact ⟨hGone, hNotify, hWhen, hClosed⟩
  | _ => exact ⟨rfl, rfl, rfl, rfl⟩

namespace Host

theorem posted_gone (event : Event Options ViewOptions) : (h.posted event).gone = h.gone := by
  cases event <;> rfl

theorem Gone.of_eq (hGone : h.Gone) (hDestroyed : t.destroyed = h.destroyed) (hSame : t.gone = h.gone)
    (hStage : ∀ i, h.stage = .destroying i → t.stage = .destroying i) : t.Gone := by
  intro i hMem
  rw [hDestroyed] at hMem
  rw [hSame]
  rcases hGone i hMem with hLeft | hDestroying
  · exact Or.inl hLeft
  · exact Or.inr (hStage i hDestroying)

variable {label : Label Options ViewOptions}

theorem Gone.moves (hMove : Moves h label t) (hGone : h.Gone) : t.Gone := by
  cases hMove with
  | post event =>
    apply hGone.of_eq (posted_sameInstance event).destroyed (posted_gone event)
    intro i hStage
    exact (posted_stage event).trans hStage
  | start action actions ready first starts =>
    have hDestroyed : t.destroyed = h.destroyed := by
      rcases starts.sameInstance with hSame | ⟨options, rfl, -, -, rfl⟩
      · exact hSame.destroyed
      · rfl
    apply hGone.of_eq hDestroyed starts.closed_eq.1
    intro i hStage
    rcases ready with hIdle | hCompleted
    · exact absurd (hIdle.symm.trans hStage) Stage.noConfusion
    · exact absurd (hCompleted.symm.trans hStage) Stage.noConfusion
  | attach view detached inits =>
    apply hGone.of_eq inits.sameInstance.destroyed inits.gone_eq.1
    intro i hStage
    exact inits.actionQueue_eq.2.2.trans hStage
  | detach => exact hGone
  | destroy skipped instance_ unloading loaded =>
    intro i hMem
    rcases List.mem_append.mp hMem with hOld | hNew
    · rcases hGone i hOld with hLeft | hDestroying
      · exact Or.inl hLeft
      · exact absurd (unloading.symm.trans hDestroying) Stage.noConfusion
    · rw [List.mem_singleton.mp hNew]
      exact Or.inr rfl
  | destroyed instance_ destroying =>
    intro i hMem
    rcases hGone i hMem with hLeft | hDestroying
    · exact Or.inl (List.mem_append_left _ hLeft)
    · obtain rfl := Stage.destroying.inj (destroying.symm.trans hDestroying)
      exact Or.inl (List.mem_append_right _ List.mem_cons_self)
  | rest hStage | uninited _ _ _ hStage | unloaded _ hStage | loaded hStage | failed hStage
  | updated _ hStage | inited _ _ hStage | viewUninited _ _ hStage | complete _ hStage =>
    apply hGone.of_eq
    · rfl
    · rfl
    · intro i hDestroying
      exact absurd (hStage.symm.trans hDestroying) Stage.noConfusion

theorem posted_unloadIds (event : Event Options ViewOptions) :
    (h.posted event).unloadIds = h.unloadIds ∨
      (h.posted event).unloadIds = h.unloadIds ++ [h.m_nextUnloadActionId + 1] := by
  cases event with
  | reloadInstance | unloadInstance | close =>
    apply Or.inr
    simp [posted, postsUnload, makeUnloadInstanceAction, closes, appended, unloadIds,
      List.filterMap_append, Action.unloadId]
  | reloadViewInstance | unloadViewInstance =>
    apply Or.inl
    simp [posted, postsUninit, makeUninitViewInstanceAction, setView, appended, unloadIds,
      List.filterMap_append, Action.unloadId]
  | _ => exact Or.inl rfl

theorem posted_m_nextUnloadActionId (event : Event Options ViewOptions) :
    h.m_nextUnloadActionId ≤ (h.posted event).m_nextUnloadActionId := by
  cases event with
  | reloadInstance | unloadInstance | close => exact Nat.le_succ _
  | _ => exact Nat.le_refl _

theorem Dated.of_eq (hDated : h.Dated) (hQueue : t.m_actionQueue = h.m_actionQueue)
    (hCurrent : t.current = h.current) (hNext : t.m_nextUnloadActionId = h.m_nextUnloadActionId) :
    t.Dated := by
  intro reason id hUnload
  rw [hCurrent] at hUnload
  rw [hNext, unloadIds, hQueue]
  exact hDated reason id hUnload

theorem Dated.moves (hQueued : h.Queued) (hMove : Moves h label t) (hDated : h.Dated) :
    t.Dated := by
  cases hMove with
  | post event =>
    intro reason id hUnload
    rw [posted_current] at hUnload
    obtain ⟨hIssued, hLater⟩ := hDated reason id hUnload
    refine ⟨Nat.le_trans hIssued (posted_m_nextUnloadActionId event), ?_⟩
    intro waiting hMem
    rcases posted_unloadIds (h := h) event with hSame | hNew
    · rw [hSame] at hMem
      exact hLater waiting hMem
    · rw [hNew] at hMem
      rcases List.mem_append.mp hMem with hOld | hLast
      · exact hLater waiting hOld
      · rw [List.mem_singleton.mp hLast]
        exact Nat.lt_succ_of_le hIssued
  | start action actions ready first starts =>
    intro reason id hUnload
    rw [starts.current_eq] at hUnload
    obtain rfl := Option.some.inj hUnload
    have hTickets := hQueued.unloads
    unfold unloadIds at hTickets ⊢
    rw [first] at hTickets
    have hNext : t.m_nextUnloadActionId = h.m_nextUnloadActionId := by cases starts <;> rfl
    rw [starts.actionQueue_eq, hNext]
    refine ⟨(hTickets.bounds id List.mem_cons_self).2, ?_⟩
    intro waiting hMem
    exact (List.pairwise_cons.mp hTickets.increasing).1 waiting hMem
  | rest => exact fun _ _ hUnload => nomatch hUnload
  | attach view detached inits =>
    exact hDated.of_eq inits.actionQueue_eq.1 inits.actionQueue_eq.2.1 inits.sameIds.nextUnload
  | detach => exact hDated
  | _ =>
    apply hDated.of_eq
    · rfl
    · rfl
    · rfl

structure Left (h : Host Options ViewOptions) : Prop where
  reactInstance : h.m_reactInstance = none
  page : h.m_inspectorPageId = false

/-- Where the unload is that closes the host: in the queue as the newest one, waiting for the views, past
the call of `Destroy`, or over. -/
inductive ClosingAt (h : Host Options ViewOptions) (closing : ℕ) : Prop where
  | waiting (posted : .unloadInstance .closeHost closing ∈ h.m_actionQueue.m_actions)
      (newest : h.m_pendingUnloadActionId = closing) (unclosed : h.closed = [])
  | unloading (current : h.current = some (.unloadInstance .closeHost closing))
      (views skipped : List ℕ) (stage : h.stage = .unloading views skipped) (unclosed : h.closed = [])
  | leaving (current : h.current = some (.unloadInstance .closeHost closing)) (left : h.Left)
      (stage : (∃ i, h.stage = .destroying i) ∨ ∃ result, h.stage = .completing result)
      (unclosed : h.closed = [])
  | ended (later : ∀ id ∈ h.unloadIds, closing < id) (left : h.Left)
      (gone : ∀ i < h.instances, i ∈ h.gone) (result : ActionResult) (closed : h.closed = [result])
      (past : ∀ reason, h.current = some (.unloadInstance reason closing) → h.stage = .completed)

structure Closing (h : Host Options ViewOptions) : Prop where
  opened : h.m_notifyWhenClosed = true → h.whenClosed = none ∧ h.closed = []
  closing : h.m_notifyWhenClosed = false →
    ∃ id, h.whenClosed = some id ∧ id ≤ h.m_nextUnloadActionId ∧ h.ClosingAt id

structure SameHost (h t : Host Options ViewOptions) : Prop where
  queue : t.m_actionQueue = h.m_actionQueue
  current : t.current = h.current
  pending : t.m_pendingUnloadActionId = h.m_pendingUnloadActionId
  closed : t.closed = h.closed
  instances : t.instances = h.instances
  reactInstance : t.m_reactInstance = h.m_reactInstance
  page : t.m_inspectorPageId = h.m_inspectorPageId
  gone : ∀ i ∈ h.gone, i ∈ t.gone

theorem ClosingAt.of_same {closing : ℕ} (hClosing : h.ClosingAt closing) (hSame : h.SameHost t)
    (hUnloading : ∀ views skipped, h.stage = .unloading views skipped →
      ∃ views skipped, t.stage = .unloading views skipped)
    (hDestroying : ∀ i, h.stage = .destroying i →
      (∃ i, t.stage = .destroying i) ∨ ∃ result, t.stage = .completing result)
    (hCompleting : ∀ result, h.stage = .completing result → t.stage = .completing result)
    (hCompleted : h.stage = .completed → t.stage = .completed) : t.ClosingAt closing := by
  have hLeft (left : h.Left) : t.Left :=
    ⟨hSame.reactInstance.trans left.reactInstance, hSame.page.trans left.page⟩
  cases hClosing with
  | waiting posted newest unclosed =>
    apply ClosingAt.waiting
    · rw [hSame.queue]
      exact posted
    · exact hSame.pending.trans newest
    · exact hSame.closed.trans unclosed
  | unloading current views skipped stage unclosed =>
    obtain ⟨views, skipped, hStage⟩ := hUnloading views skipped stage
    exact .unloading (hSame.current.trans current) views skipped hStage (hSame.closed.trans unclosed)
  | leaving current left stage unclosed =>
    apply ClosingAt.leaving (hSame.current.trans current) (hLeft left)
    · rcases stage with ⟨i, hStage⟩ | ⟨result, hStage⟩
      · exact hDestroying i hStage
      · exact Or.inr ⟨result, hCompleting result hStage⟩
    · exact hSame.closed.trans unclosed
  | ended later left gone result closed past =>
    apply ClosingAt.ended
    · intro id hMem
      rw [unloadIds, hSame.queue] at hMem
      exact later id hMem
    · exact hLeft left
    · intro i hMade
      rw [hSame.instances] at hMade
      exact hSame.gone i (gone i hMade)
    · exact hSame.closed.trans closed
    · intro reason hCurrent
      rw [hSame.current] at hCurrent
      exact hCompleted (past reason hCurrent)

end Host

theorem Inits.sameHost {view : ℕ} (hInit : Inits h view t result) : h.SameHost t := by
  cases hInit <;> exact ⟨rfl, rfl, rfl, rfl, rfl, rfl, rfl, fun _ => id⟩

/-- Only the newest unload changes the pending id. -/
theorem Starts.pending_eq (hStart : Starts h action t) :
    t.m_pendingUnloadActionId = h.m_pendingUnloadActionId ∨
      ∃ reason, action = .unloadInstance reason h.m_pendingUnloadActionId ∧ t = h.beginsUnload := by
  cases action with
  | unloadInstance reason id =>
    cases hStart with
    | unload _ _ newest => exact Or.inr ⟨reason, newest ▸ rfl, rfl⟩
    | oldUnload => exact Or.inl rfl
  | loadInstance options => exact Or.inl hStart.sameIds_of_load.unload
  | uninitViewInstance view id => cases hStart <;> exact Or.inl rfl
  | initViewInstance view options => exact Or.inl hStart.sameIds_of_init.unload

/-- Only a load of an open host changes the inspector page. -/
theorem Starts.page_eq (hStart : Starts h action t) (hClosed : h.isClosed = true) :
    t.m_inspectorPageId = h.m_inspectorPageId := by
  cases hStart with
  | load options opened => exact absurd (opened.symm.trans hClosed) Bool.noConfusion
  | @init view options uninited next result inits =>
    have hPage := inits.gone_eq.2.1
    cases options <;> cases result <;> exact hPage
  | _ => rfl

namespace Host

variable {closing : ℕ} {action : Action Options ViewOptions}
  {actions : List (Action Options ViewOptions)}

theorem waiting_starts (hQueued : h.Queued)
    (hActions : h.m_actionQueue.m_actions = action :: actions)
    (hPosted : .unloadInstance .closeHost closing ∈ h.m_actionQueue.m_actions)
    (hNewest : h.m_pendingUnloadActionId = closing) (hUnclosed : h.closed = [])
    (hStart : Starts (h.started action actions) action t) : t.ClosingAt closing := by
  have hTickets := hQueued.unloads
  unfold unloadIds at hTickets
  rw [hActions] at hTickets hPosted
  have hStarted : (h.started action actions).m_pendingUnloadActionId = closing := hNewest
  have hClosed : t.closed = [] := hStart.closed_eq.2.2.2.trans hUnclosed
  rcases hStart.pending_eq with hSame | ⟨reason, hAction, hBegins⟩
  · rcases List.mem_cons.mp hPosted with rfl | hBehind
    · exfalso
      have hZero : t.m_pendingUnloadActionId ≠ closing := by
        cases hStart with
        | unload => exact Nat.ne_of_lt hTickets.head_pos
        | oldUnload _ _ old => exact absurd hStarted.symm old
      exact hZero (hSame.trans hStarted)
    · apply ClosingAt.waiting _ (hSame.trans hStarted) hClosed
      rw [hStart.actionQueue_eq]
      exact hBehind
  · rw [hStarted] at hAction
    subst hAction
    have hReason : reason = .closeHost := by
      rcases List.mem_cons.mp hPosted with hHead | hBehind
      · cases hHead
        rfl
      · have hLater := (List.pairwise_cons.mp hTickets.increasing).1 closing
          (List.mem_filterMap.mpr ⟨_, hBehind, rfl⟩)
        exact absurd hLater (Nat.lt_irrefl _)
    subst hReason
    apply ClosingAt.unloading (hStart.current_eq.trans rfl) _ _ _ hClosed
    · exact (h.started (.unloadInstance .closeHost closing) actions).m_viewHosts.filter
        (h.started (.unloadInstance .closeHost closing) actions).unloadsView
    · exact (h.started (.unloadInstance .closeHost closing) actions).m_viewHosts.filter fun view =>
        !(h.started (.unloadInstance .closeHost closing) actions).unloadsView view
    · rw [hBegins]
      rfl

theorem ended_starts (hClosed : h.isClosed = true)
    (hActions : h.m_actionQueue.m_actions = action :: actions)
    (hLater : ∀ id ∈ h.unloadIds, closing < id) (hLeft : h.Left)
    (hGone : ∀ i < h.instances, i ∈ h.gone) {result : ActionResult} (hResult : h.closed = [result])
    (hStart : Starts (h.started action actions) action t) : t.ClosingAt closing := by
  have hSame : h.SameInstance t := by
    rcases hStart.sameInstance with hSame | ⟨options, rfl, opened, -⟩
    · exact ⟨hSame.1, hSame.2, hSame.3⟩
    · exact absurd (opened.symm.trans hClosed) Bool.noConfusion
  apply ClosingAt.ended
  · intro id hMem
    rw [unloadIds, hStart.actionQueue_eq] at hMem
    apply hLater id
    rw [unloadIds, hActions]
    exact List.filterMap_subset _ (List.subset_cons_self _ _) hMem
  · exact ⟨hSame.reactInstance.trans hLeft.reactInstance, (hStart.page_eq hClosed).trans hLeft.page⟩
  · intro i hMade
    rw [hSame.instances] at hMade
    rw [hStart.closed_eq.1]
    exact hGone i hMade
  · exact hStart.closed_eq.2.2.2.trans hResult
  · intro reason hCurrent
    rw [hStart.current_eq] at hCurrent
    obtain rfl := Option.some.inj hCurrent
    have hMem : closing ∈ h.unloadIds := by
      rw [unloadIds, hActions]
      exact List.mem_cons_self
    exact absurd (hLater closing hMem) (Nat.lt_irrefl _)

theorem posted_closing (event : Event Options ViewOptions)
    (hUndisturbed : event.postsUnload = true → closing ∉ h.unloadIds)
    (hIssued : closing ≤ h.m_nextUnloadActionId) (hClosing : h.ClosingAt closing) :
    (h.posted event).ClosingAt closing := by
  have hSame := posted_sameInstance (h := h) event
  have hClosed : (h.posted event).closed = h.closed := by cases event <;> rfl
  have hPage : (h.posted event).m_inspectorPageId = h.m_inspectorPageId := by cases event <;> rfl
  have hLeft (left : h.Left) : (h.posted event).Left :=
    ⟨hSame.reactInstance.trans left.reactInstance, hPage.trans left.page⟩
  cases hClosing with
  | waiting posted newest unclosed =>
    have hView : event.postsUnload ≠ true := fun hPosts =>
      hUndisturbed hPosts (List.mem_filterMap.mpr ⟨_, posted, rfl⟩)
    apply ClosingAt.waiting _ _ (hClosed.trans unclosed)
    · cases event with
      | reloadInstance | unloadInstance | close => exact absurd rfl hView
      | reloadViewInstance =>
        exact List.mem_append_left _ (List.mem_append_left _ posted)
      | unloadViewInstance => exact List.mem_append_left _ posted
      | _ => exact posted
    · cases event with
      | reloadInstance | unloadInstance | close => exact absurd rfl hView
      | _ => exact newest
  | unloading current views skipped stage unclosed =>
    exact .unloading ((posted_current event).trans current) views skipped
      ((posted_stage event).trans stage) (hClosed.trans unclosed)
  | leaving current left stage unclosed =>
    apply ClosingAt.leaving ((posted_current event).trans current) (hLeft left)
    · rw [posted_stage]
      exact stage
    · exact hClosed.trans unclosed
  | ended later left gone result closed past =>
    apply ClosingAt.ended
    · intro id hMem
      rcases posted_unloadIds (h := h) event with hIds | hNew
      · rw [hIds] at hMem
        exact later id hMem
      · rw [hNew] at hMem
        rcases List.mem_append.mp hMem with hOld | hLast
        · exact later id hOld
        · rw [List.mem_singleton.mp hLast]
          exact Nat.lt_succ_of_le hIssued
    · exact hLeft left
    · intro i hMade
      rw [hSame.instances] at hMade
      rw [posted_gone]
      exact gone i hMade
    · exact hClosed.trans closed
    · intro reason hCurrent
      rw [posted_current] at hCurrent
      rw [posted_stage]
      exact past reason hCurrent

theorem closingResult_self {reason : UnloadReason}
    (hCurrent : h.current = some (.unloadInstance reason closing))
    (hWhen : h.whenClosed = some closing) (result : ActionResult) :
    h.closingResult result = [result] := by
  simp [closingResult, hCurrent, hWhen]

theorem closingResult_other (hWhen : h.whenClosed = some closing)
    (hOther : ∀ reason, h.current ≠ some (.unloadInstance reason closing)) (result : ActionResult) :
    h.closingResult result = [] := by
  unfold closingResult
  split
  next reason id waiting hCurrent hWaiting =>
    obtain rfl := Option.some.inj (hWhen.symm.trans hWaiting)
    rw [if_neg]
    rintro rfl
    exact hOther reason hCurrent
  next => rfl

variable {label : Label Options ViewOptions}

theorem ClosingAt.moves (hQueued : h.Queued) (hOwns : h.Owns) (hDated : h.Dated) (hGone : h.Gone)
    (hClosed : h.isClosed = true) (hWhen : h.whenClosed = some closing)
    (hIssued : closing ≤ h.m_nextUnloadActionId) (hMove : Moves h label t)
    (hUndisturbed : ∀ event, label = .call event → event.postsUnload = true →
      closing ∉ h.unloadIds) (hClosing : h.ClosingAt closing) : t.ClosingAt closing := by
  cases hMove with
  | post event posts => exact posted_closing event (hUndisturbed event rfl) hIssued hClosing
  | start action actions ready first starts =>
    have hIdle (stage : Stage) (hStage : h.stage = stage) : stage = .idle ∨ stage = .completed :=
      hStage ▸ ready
    cases hClosing with
    | waiting posted newest unclosed =>
      exact waiting_starts hQueued first posted newest unclosed starts
    | unloading current views skipped stage unclosed =>
      rcases hIdle _ stage with hIdle | hCompleted
      · cases hIdle
      · cases hCompleted
    | leaving current left stage unclosed =>
      rcases stage with ⟨i, hStage⟩ | ⟨result, hStage⟩
      · rcases hIdle _ hStage with hIdle | hCompleted
        · cases hIdle
        · cases hCompleted
      · rcases hIdle _ hStage with hIdle | hCompleted
        · cases hIdle
        · cases hCompleted
    | ended later left gone result closed past =>
      exact ended_starts hClosed first later left gone closed starts
  | rest completed empty =>
    cases hClosing with
    | waiting posted =>
      rw [empty] at posted
      cases posted
    | unloading current views skipped stage => cases completed.symm.trans stage
    | leaving current left stage =>
      rcases stage with ⟨i, hStage⟩ | ⟨result, hStage⟩
      · cases completed.symm.trans hStage
      · cases completed.symm.trans hStage
    | ended later left gone result closed past =>
      apply ClosingAt.ended
      · intro id hMem
        cases hMem
      · exact ⟨left.reactInstance, left.page⟩
      · exact gone
      · exact closed
      · intro reason hCurrent
        cases hCurrent
  | attach view detached inits =>
    have hStage := inits.actionQueue_eq.2.2
    have hSame := inits.sameHost
    apply hClosing.of_same ⟨hSame.1, hSame.2, hSame.3, hSame.4, hSame.5, hSame.6, hSame.7, hSame.8⟩
    · exact fun views skipped hBefore => ⟨views, skipped, hStage.trans hBefore⟩
    · exact fun i hBefore => Or.inl ⟨i, hStage.trans hBefore⟩
    · exact fun result hBefore => hStage.trans hBefore
    · exact fun hBefore => hStage.trans hBefore
  | detach view attached =>
    apply hClosing.of_same
    · exact ⟨rfl, rfl, rfl, rfl, rfl, rfl, rfl, fun _ => id⟩
    · exact fun views skipped hBefore => ⟨views, skipped, hBefore⟩
    · exact fun i hBefore => Or.inl ⟨i, hBefore⟩
    · exact fun result hBefore => hBefore
    · exact fun hBefore => hBefore
  | destroy skipped instance_ unloading loaded =>
    cases hClosing with
    | waiting posted newest unclosed => exact .waiting posted newest unclosed
    | unloading current views skipped stage unclosed =>
      have hReason : h.reason = .closeHost := by
        unfold reason
        rw [current]
      exact .leaving current ⟨rfl, if_pos hReason⟩ (Or.inl ⟨instance_, rfl⟩) unclosed
    | leaving current left | ended later left =>
      rw [left.reactInstance] at loaded
      cases loaded
  | unloaded skipped unloading none_ =>
    cases hClosing with
    | waiting posted newest unclosed => exact .waiting posted newest unclosed
    | unloading current views skipped stage unclosed =>
      have hReason : h.reason = .closeHost := by
        unfold reason
        rw [current]
      exact .leaving current ⟨none_, if_pos hReason⟩ (Or.inr ⟨_, rfl⟩) unclosed
    | leaving current left stage =>
      rcases stage with ⟨i, hStage⟩ | ⟨result, hStage⟩
      · cases unloading.symm.trans hStage
      · cases unloading.symm.trans hStage
    | ended later left gone result closed past =>
      apply ClosingAt.ended
      · exact later
      · refine ⟨left.reactInstance, ?_⟩
        change (if h.reason = .closeHost then false else h.m_inspectorPageId) = false
        rw [left.page, ite_self]
      · exact gone
      · exact closed
      · intro reason hCurrent
        cases unloading.symm.trans (past reason hCurrent)
  | complete result completing =>
    cases hClosing with
    | waiting posted newest unclosed =>
      have hOther (reason : UnloadReason) :
          h.current ≠ some (.unloadInstance reason closing) := by
        intro hCurrent
        have hLater := (hDated reason closing hCurrent).2 closing
          (List.mem_filterMap.mpr ⟨_, posted, rfl⟩)
        exact absurd hLater (Nat.lt_irrefl _)
      apply ClosingAt.waiting
      · exact posted
      · exact newest
      · change h.closed ++ h.closingResult result = []
        rw [closingResult_other hWhen hOther, unclosed, List.append_nil]
    | unloading current views skipped stage => cases completing.symm.trans stage
    | leaving current left stage unclosed =>
      apply ClosingAt.ended
      · exact (hDated .closeHost closing current).2
      · exact ⟨left.reactInstance, left.page⟩
      · intro i hMade
        rcases hOwns.made i hMade with hDestroyed | hStored
        · rcases hGone i hDestroyed with hLeft | hDestroying
          · exact hLeft
          · cases completing.symm.trans hDestroying
        · rw [left.reactInstance] at hStored
          cases hStored
      · change h.closed ++ h.closingResult result = [result]
        rw [closingResult_self current hWhen, unclosed, List.nil_append]
      · exact fun _ _ => rfl
    | ended later left gone result closed past =>
      have hOther (reason : UnloadReason) :
          h.current ≠ some (.unloadInstance reason closing) := by
        intro hCurrent
        cases completing.symm.trans (past reason hCurrent)
      apply ClosingAt.ended
      · exact later
      · exact ⟨left.reactInstance, left.page⟩
      · exact gone
      · change h.closed ++ h.closingResult _ = [result]
        rw [closingResult_other hWhen hOther, closed, List.append_nil]
      · exact fun _ _ => rfl
  | uninited view views skipped hStage =>
    apply hClosing.of_same
    · exact ⟨rfl, rfl, rfl, rfl, rfl, rfl, rfl, fun _ => id⟩
    · exact fun _ _ _ => ⟨_, _, rfl⟩
    · exact fun i hBefore => absurd (hStage.symm.trans hBefore) Stage.noConfusion
    · exact fun result hBefore => absurd (hStage.symm.trans hBefore) Stage.noConfusion
    · exact fun hBefore => absurd (hStage.symm.trans hBefore) Stage.noConfusion
  | destroyed instance_ hStage =>
    apply hClosing.of_same
    · exact ⟨rfl, rfl, rfl, rfl, rfl, rfl, rfl, fun i hMem => List.mem_append_left _ hMem⟩
    · exact fun _ _ hBefore => absurd (hStage.symm.trans hBefore) Stage.noConfusion
    · exact fun _ _ => Or.inr ⟨_, rfl⟩
    · exact fun result hBefore => absurd (hStage.symm.trans hBefore) Stage.noConfusion
    · exact fun hBefore => absurd (hStage.symm.trans hBefore) Stage.noConfusion
  | loaded hStage | failed hStage | updated _ hStage | inited _ _ hStage | viewUninited _ _ hStage =>
    apply hClosing.of_same
    · exact ⟨rfl, rfl, rfl, rfl, rfl, rfl, rfl, fun _ => id⟩
    · exact fun _ _ hBefore => absurd (hStage.symm.trans hBefore) Stage.noConfusion
    · exact fun i hBefore => absurd (hStage.symm.trans hBefore) Stage.noConfusion
    · exact fun result hBefore => absurd (hStage.symm.trans hBefore) Stage.noConfusion
    · exact fun hBefore => absurd (hStage.symm.trans hBefore) Stage.noConfusion

/-- A move other than a call of `Close` does not close the host. -/
theorem moves_whenClosed (hMove : Moves h label t) (hLabel : label ≠ .call .close) :
    t.m_notifyWhenClosed = h.m_notifyWhenClosed ∧ t.whenClosed = h.whenClosed ∧
      h.m_nextUnloadActionId ≤ t.m_nextUnloadActionId ∧
      (h.whenClosed = none → t.closed = h.closed) := by
  cases hMove with
  | post event posts =>
    cases event with
    | close => exact absurd rfl hLabel
    | reloadInstance | unloadInstance => exact ⟨rfl, rfl, Nat.le_succ _, fun _ => rfl⟩
    | _ => exact ⟨rfl, rfl, Nat.le_refl _, fun _ => rfl⟩
  | start action actions ready first starts =>
    obtain ⟨-, hNotify, hWhen, hClosed⟩ := starts.closed_eq
    refine ⟨hNotify, hWhen, ?_, fun _ => hClosed⟩
    have hNext : t.m_nextUnloadActionId = h.m_nextUnloadActionId := by
      cases action with
      | unloadInstance | uninitViewInstance => cases starts <;> rfl
      | loadInstance => exact starts.sameIds_of_load.nextUnload
      | initViewInstance => exact starts.sameIds_of_init.nextUnload
    rw [hNext]
  | attach view detached inits =>
    obtain ⟨-, -, hNotify, hWhen, hClosed⟩ := inits.gone_eq
    exact ⟨hNotify, hWhen, Nat.le_of_eq inits.sameIds.nextUnload.symm, fun _ => hClosed⟩
  | complete result completing =>
    refine ⟨rfl, rfl, Nat.le_refl _, ?_⟩
    intro hNone
    change h.closed ++ h.closingResult result = h.closed
    unfold closingResult
    rw [hNone]
    split
    next hWaiting => cases hWaiting
    next => exact List.append_nil _
  | _ => exact ⟨rfl, rfl, Nat.le_refl _, fun _ => rfl⟩

theorem Closing.moves (hQueued : h.Queued) (hOwns : h.Owns) (hDated : h.Dated) (hGone : h.Gone)
    (hMove : Moves h label t)
    (hUndisturbed : ∀ event, label = .call event → event.postsUnload = true →
      h.closingWaits = false) (hClosing : h.Closing) : t.Closing := by
  have hNotIn {closing : ℕ} (hWhen : h.whenClosed = some closing) (event : Event Options ViewOptions)
      (hLabel : label = .call event) (hPosts : event.postsUnload = true) : closing ∉ h.unloadIds := by
    have hWaits := hUndisturbed event hLabel hPosts
    simpa [closingWaits, hWhen] using hWaits
  by_cases hLabel : label = .call .close
  · subst hLabel
    cases hMove with
    | post =>
      constructor
      · exact fun hOpen => absurd hOpen Bool.noConfusion
      · intro _
        cases hNotify : h.m_notifyWhenClosed with
        | true =>
          have hFirst : (h.posted .close).whenClosed = some (h.m_nextUnloadActionId + 1) := by
            simp [posted, closes, postsUnload, makeUnloadInstanceAction, appended, hNotify]
          refine ⟨h.m_nextUnloadActionId + 1, hFirst, Nat.le_refl _, ?_⟩
          apply ClosingAt.waiting
          · exact List.mem_append_right _ List.mem_cons_self
          · rfl
          · exact (hClosing.opened hNotify).2
        | false =>
          obtain ⟨closing, hWhen, hIssued, hAt⟩ := hClosing.closing hNotify
          have hSame : (h.posted .close).whenClosed = h.whenClosed := by
            simp [posted, closes, postsUnload, makeUnloadInstanceAction, appended, hNotify]
          refine ⟨closing, hSame.trans hWhen, Nat.le_succ_of_le hIssued, ?_⟩
          exact posted_closing .close (fun hPosts => hNotIn hWhen .close rfl hPosts) hIssued hAt
  · obtain ⟨hNotify, hWhen, hNext, hResults⟩ := moves_whenClosed hMove hLabel
    constructor
    · intro hOpen
      rw [hNotify] at hOpen
      obtain ⟨hNone, hUnclosed⟩ := hClosing.opened hOpen
      exact ⟨hWhen.trans hNone, (hResults hNone).trans hUnclosed⟩
    · intro hShut
      rw [hNotify] at hShut
      obtain ⟨closing, hClosingId, hIssued, hAt⟩ := hClosing.closing hShut
      refine ⟨closing, hWhen.trans hClosingId, Nat.le_trans hIssued hNext, ?_⟩
      have hClosed : h.isClosed = true := by
        unfold isClosed
        rw [hShut]
        rfl
      apply hAt.moves hQueued hOwns hDated hGone hClosed hClosingId hIssued hMove
      exact hNotIn hClosingId

theorem dated_initial (options : ReactOptions Options) (viewOptions : ViewOptions) :
    (initial options viewOptions).Dated := fun _ _ hUnload => nomatch hUnload

theorem gone_initial (options : ReactOptions Options) (viewOptions : ViewOptions) :
    (initial options viewOptions).Gone := fun _ hMem => absurd hMem List.not_mem_nil

theorem closing_initial (options : ReactOptions Options) (viewOptions : ViewOptions) :
    (initial options viewOptions).Closing where
  opened _ := ⟨rfl, rfl⟩
  closing hShut := absurd hShut Bool.noConfusion

end Host
end ReactHost
