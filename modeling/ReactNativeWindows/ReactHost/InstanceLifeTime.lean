import ReactNativeWindows.ReactHost.UnloadIds

/-! A host has one instance at a time: the one before has been destroyed, and its views uninited. -/
namespace ReactHost

universe u

variable {Options ViewOptions : Type u} {h t : Host Options ViewOptions}

namespace Host

/-- Every instance that was made is the one in the host or has been destroyed, and where an unload is
over the host has none, unless a newer unload canceled it. -/
structure Owns (h : Host Options ViewOptions) : Prop where
  made : ∀ i < h.instances, i ∈ h.destroyed ∨ h.m_reactInstance = some i
  alive : ∀ i, h.m_reactInstance = some i → i < h.instances ∧ i ∉ h.destroyed
  past : ∀ i ∈ h.destroyed, i < h.instances
  unloaded : ∀ reason id, h.current = some (.unloadInstance reason id) →
    (∃ views skipped, h.stage = .unloading views skipped) ∨ h.m_reactInstance = none ∨
      h.m_pendingUnloadActionId ≠ 0

structure SameInstance (h t : Host Options ViewOptions) : Prop where
  reactInstance : t.m_reactInstance = h.m_reactInstance
  instances : t.instances = h.instances
  destroyed : t.destroyed = h.destroyed

end Host

theorem Inits.sameInstance {view : ℕ} {result : Option ActionResult} (hInit : Inits h view t result) :
    h.SameInstance t := by
  cases hInit <;> exact ⟨rfl, rfl, rfl⟩

/-- Only a load that is not canceled makes an instance. -/
theorem Starts.sameInstance {action : Action Options ViewOptions} (hStart : Starts h action t) :
    h.SameInstance t ∨ ∃ options, action = .loadInstance options ∧ h.isClosed = false ∧
      h.m_pendingUnloadActionId = 0 ∧ t = h.loads options := by
  cases hStart with
  | load options opened current => exact Or.inr ⟨options, rfl, opened, current, rfl⟩
  | @init view options uninited next result inits =>
    have hSame := inits.sameInstance
    cases options <;> cases result <;> exact Or.inl ⟨hSame.1, hSame.2, hSame.3⟩
  | _ => exact Or.inl ⟨rfl, rfl, rfl⟩

/-- An unload in progress unloads, or is canceled by a newer one. -/
theorem Starts.unloading {reason : UnloadReason} {id : ℕ} {actions : List (Action Options ViewOptions)}
    (hQueued : h.Queued)
    (hActions : h.m_actionQueue.m_actions = .unloadInstance reason id :: actions)
    (hStart : Starts (h.started (.unloadInstance reason id) actions) (.unloadInstance reason id) t) :
    (∃ views skipped, t.stage = .unloading views skipped) ∨ t.m_pendingUnloadActionId ≠ 0 := by
  have hTickets := hQueued.unloads
  unfold Host.unloadIds at hTickets
  rw [hActions] at hTickets
  cases hStart with
  | unload => exact Or.inl ⟨_, _, rfl⟩
  | oldUnload _ _ old =>
    apply Or.inr
    intro hZero
    have hNone := hTickets.newest_eq_zero_iff.mp hZero
    cases hNone

namespace Host

theorem posted_pending (event : Event Options ViewOptions) (hPending : h.m_pendingUnloadActionId ≠ 0) :
    (h.posted event).m_pendingUnloadActionId ≠ 0 := by
  cases event with
  | reloadInstance | unloadInstance | close => exact Nat.succ_ne_zero _
  | _ => exact hPending

theorem posted_sameInstance (event : Event Options ViewOptions) : h.SameInstance (h.posted event) := by
  cases event <;> exact ⟨rfl, rfl, rfl⟩

theorem posted_current (event : Event Options ViewOptions) : (h.posted event).current = h.current := by
  cases event <;> rfl

/-- Changes in which the instance stays, and an unload goes on or is over. -/
theorem Owns.of_same (hOwns : h.Owns) (hSame : h.SameInstance t) (hCurrent : t.current = h.current)
    (hPending : h.m_pendingUnloadActionId ≠ 0 → t.m_pendingUnloadActionId ≠ 0)
    (hStage : ∀ views skipped, h.stage = .unloading views skipped →
      ∃ views skipped, t.stage = .unloading views skipped) : t.Owns where
  made i hMade := by
    rw [hSame.instances] at hMade
    rw [hSame.destroyed, hSame.reactInstance]
    exact hOwns.made i hMade
  alive i hAlive := by
    rw [hSame.reactInstance] at hAlive
    rw [hSame.instances, hSame.destroyed]
    exact hOwns.alive i hAlive
  past i hPast := by
    rw [hSame.destroyed] at hPast
    rw [hSame.instances]
    exact hOwns.past i hPast
  unloaded reason id hUnload := by
    rw [hCurrent] at hUnload
    rw [hSame.reactInstance]
    rcases hOwns.unloaded reason id hUnload with ⟨views, skipped, hUnloading⟩ | hNone | hNewer
    · exact Or.inl (hStage views skipped hUnloading)
    · exact Or.inr (Or.inl hNone)
    · exact Or.inr (Or.inr (hPending hNewer))

/-- The instance has been destroyed by the time a load makes the next. -/
theorem Owns.before_load (hOwns : h.Owns) (hQueued : h.Queued) (hReady : h.Ready)
    {options : ReactOptions Options} {actions : List (Action Options ViewOptions)}
    (hActions : h.m_actionQueue.m_actions = .loadInstance options :: actions)
    (hPending : h.m_pendingUnloadActionId = 0) :
    h.m_reactInstance = none ∧ ∀ i < h.instances, i ∈ h.destroyed := by
  obtain ⟨reason, id, hCurrent⟩ := hQueued.before_load hActions
  have hNone : h.m_reactInstance = none := by
    rcases hOwns.unloaded reason id hCurrent with ⟨views, skipped, hUnloading⟩ | hNone | hNewer
    · rcases hReady with hIdle | hCompleted
      · exact absurd (hIdle.symm.trans hUnloading) Stage.noConfusion
      · exact absurd (hCompleted.symm.trans hUnloading) Stage.noConfusion
    · exact hNone
    · exact absurd hPending hNewer
  refine ⟨hNone, ?_⟩
  intro i hMade
  rcases hOwns.made i hMade with hDestroyed | hAlive
  · exact hDestroyed
  · rw [hNone] at hAlive
    cases hAlive

theorem Owns.moves (hQueued : h.Queued) {label : Label Options ViewOptions} (hMove : Moves h label t)
    (hOwns : h.Owns) : t.Owns := by
  cases hMove with
  | post event posts =>
    apply hOwns.of_same (posted_sameInstance event) (posted_current event) (posted_pending event)
    intro views skipped hStage
    exact ⟨views, skipped, (posted_stage event).trans hStage⟩
  | start action actions ready first starts =>
    have hCurrent := starts.current_eq
    rcases starts.sameInstance with hSame | ⟨options, rfl, opened, current, rfl⟩
    · refine ⟨?_, ?_, ?_, ?_⟩
      · intro i hMade
        rw [hSame.instances] at hMade
        rw [hSame.destroyed, hSame.reactInstance]
        exact hOwns.made i hMade
      · intro i hAlive
        rw [hSame.reactInstance] at hAlive
        rw [hSame.instances, hSame.destroyed]
        exact hOwns.alive i hAlive
      · intro i hPast
        rw [hSame.destroyed] at hPast
        rw [hSame.instances]
        exact hOwns.past i hPast
      · intro reason id hUnload
        rw [hCurrent] at hUnload
        obtain rfl := Option.some.inj hUnload
        rcases starts.unloading hQueued first with hUnloading | hNewer
        · exact Or.inl hUnloading
        · exact Or.inr (Or.inr hNewer)
    · obtain ⟨hNone, hDestroyed⟩ := hOwns.before_load hQueued ready first current
      refine ⟨?_, ?_, ?_, ?_⟩
      · intro i hMade
        rcases Nat.lt_succ_iff_lt_or_eq.mp hMade with hOld | rfl
        · exact Or.inl (hDestroyed i hOld)
        · exact Or.inr rfl
      · intro i hAlive
        obtain rfl := Option.some.inj hAlive
        refine ⟨Nat.lt_succ_self _, ?_⟩
        intro hPast
        exact absurd (hOwns.past _ hPast) (Nat.lt_irrefl _)
      · intro i hPast
        exact Nat.lt_succ_of_lt (hOwns.past i hPast)
      · intro reason id hUnload
        rw [hCurrent] at hUnload
        cases Option.some.inj hUnload
  | rest completed empty =>
    refine ⟨hOwns.made, hOwns.alive, hOwns.past, ?_⟩
    intro reason id hUnload
    cases hUnload
  | attach view detached inits =>
    obtain ⟨-, hCurrent, hStage⟩ := inits.actionQueue_eq
    have hIds := inits.sameIds.unload
    have hSame := inits.sameInstance
    apply hOwns.of_same ⟨hSame.1, hSame.2, hSame.3⟩ hCurrent
    · intro hPending
      rw [hIds]
      exact hPending
    · intro views skipped hUnloading
      exact ⟨views, skipped, hStage.trans hUnloading⟩
  | detach view attached =>
    exact hOwns.of_same ⟨rfl, rfl, rfl⟩ rfl id fun views skipped hStage => ⟨views, skipped, hStage⟩
  | uninited view views skipped unloading waits =>
    apply hOwns.of_same
    · exact ⟨rfl, rfl, rfl⟩
    · rfl
    · exact id
    · exact fun _ _ _ => ⟨_, _, rfl⟩
  | destroy skipped instance_ unloading loaded =>
    refine ⟨?_, ?_, ?_, ?_⟩
    · intro i hMade
      rcases hOwns.made i hMade with hDestroyed | hAlive
      · exact Or.inl (List.mem_append_left _ hDestroyed)
      · obtain rfl := Option.some.inj (loaded.symm.trans hAlive)
        exact Or.inl (List.mem_append_right _ List.mem_cons_self)
    · intro i hAlive
      cases hAlive
    · intro i hPast
      rcases List.mem_append.mp hPast with hOld | hNew
      · exact hOwns.past i hOld
      · rw [List.mem_singleton.mp hNew]
        exact (hOwns.alive instance_ loaded).1
    · exact fun _ _ _ => Or.inr (Or.inl rfl)
  | unloaded skipped unloading none_ =>
    exact ⟨hOwns.made, hOwns.alive, hOwns.past, fun _ _ _ => Or.inr (Or.inl none_)⟩
  | destroyed _ hStage | loaded hStage | failed hStage | updated _ hStage | inited _ _ hStage
  | viewUninited _ _ hStage | complete _ hStage =>
    apply hOwns.of_same
    · exact ⟨rfl, rfl, rfl⟩
    · rfl
    · exact id
    · intro views skipped hUnloading
      exact absurd (hStage.symm.trans hUnloading) Stage.noConfusion

theorem owns_initial (options : ReactOptions Options) (viewOptions : ViewOptions) :
    (initial options viewOptions).Owns where
  made _ hMade := absurd hMade (Nat.not_lt_zero _)
  alive _ hAlive := nomatch hAlive
  past _ hPast := nomatch hPast
  unloaded _ _ hUnload := nomatch hUnload

end Host

variable {options : ReactOptions Options} {viewOptions : ViewOptions}
  {ok : Host Options ViewOptions → Event Options ViewOptions → Prop}

theorem Runs.owns (run : Runs ok (.initial options viewOptions) h) : h.Owns :=
  (run.invariant (Host.owns_initial options viewOptions)
    fun hQueued hMove _ hOwns => hOwns.moves hQueued hMove).2

namespace Host

/-- A load that goes on to make an instance finds none in the host, and those before it destroyed. No
other step makes one, and none takes it out of the host without a call of `Destroy`. -/
structure OneInstance (h : Host Options ViewOptions) : Prop where
  load : ∀ options actions, h.stage = .completed →
    h.m_actionQueue.m_actions = .loadInstance options :: actions → h.m_pendingUnloadActionId = 0 →
    h.m_reactInstance = none ∧ ∀ i < h.instances, i ∈ h.destroyed
  make : ∀ event t, h.step event = some (.ok t) → t.instances ≠ h.instances →
    h.m_reactInstance = none ∧ t.m_reactInstance = some h.instances ∧ t.destroyed = h.destroyed ∧
      ∀ i < h.instances, i ∈ h.destroyed
  keep : ∀ event t i, h.step event = some (.ok t) → h.m_reactInstance = some i →
    t.m_reactInstance = some i ∨ t.m_reactInstance = none ∧ t.destroyed = h.destroyed ++ [i]

end Host

variable {event : Event Options ViewOptions}

theorem call_instance (hMove : Moves h (.call event) t) :
    h.SameInstance t ∨ ∃ i skipped, h.stage = .unloading [] skipped ∧ h.m_reactInstance = some i ∧
      t.m_reactInstance = none ∧ t.instances = h.instances ∧ t.destroyed = h.destroyed ++ [i] := by
  cases hMove with
  | post event => exact Or.inl (Host.posted_sameInstance event)
  | attach view detached inits =>
    have hSame := inits.sameInstance
    exact Or.inl ⟨hSame.1, hSame.2, hSame.3⟩
  | destroy skipped i unloading loaded =>
    exact Or.inr ⟨i, skipped, unloading, loaded, rfl, rfl, rfl⟩
  | _ => exact Or.inl ⟨rfl, rfl, rfl⟩

theorem step_instance (hSerial : h.Serial) (hQueued : h.Queued) (hStep : h.StepMoves event t) :
    h.SameInstance t ∨
      (∃ i skipped, h.stage = .unloading [] skipped ∧ h.m_reactInstance = some i ∧
        t.m_reactInstance = none ∧ t.instances = h.instances ∧ t.destroyed = h.destroyed ++ [i]) ∨
      ∃ options actions, event = .startNext ∧ h.Ready ∧ h.isClosed = false ∧
        h.m_actionQueue.m_actions = .loadInstance options :: actions ∧ h.m_pendingUnloadActionId = 0 ∧
        t = (h.started (.loadInstance options) actions).loads options := by
  cases hStep with
  | call invoking move =>
    rcases call_instance move with hSame | hDestroy
    · exact Or.inl hSame
    · exact Or.inr (Or.inl hDestroy)
  | next startNext move =>
    cases move with
    | start _ _ ready first starts =>
      rcases starts.sameInstance with hSame | ⟨options, rfl, opened, current, rfl⟩
      · exact Or.inl ⟨hSame.1, hSame.2, hSame.3⟩
      · exact Or.inr (Or.inr ⟨options, _, startNext, ready, opened, first, current, rfl⟩)
  | post rests posts call move =>
    cases move with
    | start _ _ ready first starts =>
      have hPosted := Host.posted_sameInstance (h := h) event
      rcases starts.sameInstance with hSame | ⟨options, rfl, -⟩
      · exact Or.inl ⟨hSame.1.trans hPosted.1, hSame.2.trans hPosted.2, hSame.3.trans hPosted.3⟩
      · have hCurrent := (Host.posted_current event).trans (hSerial.current_eq rests)
        obtain ⟨reason, id, hBefore⟩ := (hQueued.posted event).before_load first
        rw [hCurrent] at hBefore
        cases hBefore

namespace Host

theorem oneInstance (run : Runs ok (.initial options viewOptions) h) : h.OneInstance where
  load options actions hCompleted hActions hPending :=
    run.owns.before_load run.queued (Or.inr hCompleted) hActions hPending
  make event t hStep hMade := by
    rcases step_instance run.serial run.queued (run.stepMoves hStep) with hSame | hDestroy | hLoad
    · exact absurd hSame.instances hMade
    · obtain ⟨i, skipped, -, -, -, hInstances, -⟩ := hDestroy
      exact absurd hInstances hMade
    · obtain ⟨options, actions, -, hReady, -, hActions, hPending, rfl⟩ := hLoad
      obtain ⟨hNone, hDestroyed⟩ := run.owns.before_load run.queued hReady hActions hPending
      exact ⟨hNone, rfl, rfl, hDestroyed⟩
  keep event t i hStep hAlive := by
    rcases step_instance run.serial run.queued (run.stepMoves hStep) with hSame | hDestroy | hLoad
    · exact Or.inl (hSame.reactInstance.trans hAlive)
    · obtain ⟨j, skipped, -, hStored, hNone, -, hDestroyed⟩ := hDestroy
      obtain rfl := Option.some.inj (hAlive.symm.trans hStored)
      exact Or.inr ⟨hNone, hDestroyed⟩
    · obtain ⟨options, actions, -, hReady, -, hActions, hPending, rfl⟩ := hLoad
      obtain ⟨hNone, -⟩ := run.owns.before_load run.queued hReady hActions hPending
      rw [hNone] at hAlive
      cases hAlive

end Host
end ReactHost
