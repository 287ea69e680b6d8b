import ReactNativeWindows.ReactNative.Animated.LifeCycle

/-! What holds in every run of composition animations, and what a stopped animation that never
started leaves behind. -/
namespace ReactNative.Animated.System

variable {s : System} {phase : AnimationId → Phase} {id other : AnimationId} {tag : Tag}
  {valueNodes : Tag → Bool}

theorem Reachable.simulates (hs : Reachable valueNodes s) : ∃ phase, s.Simulates phase := by
  induction hs with
  | initial => exact ⟨_, Simulates.initial valueNodes⟩
  | step action prior allowed last ih =>
    obtain ⟨phase, hSim⟩ := ih
    obtain ⟨t, hStep, hNext⟩ := hSim.step allowed
    cases hStep.symm.trans last
    exact hNext

/-- The animation was asked for, and neither waits for another one nor has a batch. -/
def atEnd (s : System) (id : AnimationId) : Bool :=
  s.isRequested id && decide (id ∉ s.manager.startedBatches) && !s.isDeferred id

namespace Simulates

theorem atEnd_eq (s : System) (id : AnimationId) :
    s.atEnd id =
      (!(s.view id).tags.isEmpty && decide ((s.view id).batches = 0) && !s.isDeferred id) := by
  rw [atEnd, isRequested_eq]
  congr 2
  exact decide_eq_decide.mpr List.count_eq_zero.symm

/-- The end of an animation is told once, with what has become of it. -/
theorem callsOf_eq (hSim : s.Simulates phase) (id : AnimationId) :
    s.callsOf id = if s.atEnd id then [!decide (id ∈ s.stopped)] else [] := by
  have hCalls : s.callsOf id = (s.view id).calls := rfl
  have hStopped : decide (id ∈ s.stopped) = (s.view id).stopped := rfl
  rw [hCalls, hStopped, atEnd_eq]
  cases hPhase : phase id with
  | fresh =>
    obtain ⟨driver, hView⟩ := hSim.fits hPhase
    rw [hView]
    rfl
  | deferred tag =>
    rw [hSim.fits hPhase, hSim.isDeferred_iff.mpr ⟨tag, hPhase⟩]
    rfl
  | running tag | stopping tag =>
    rw [hSim.fits hPhase]
    rfl
  | dropped tag | interrupted tag | finished tag =>
    have hNot : s.isDeferred id = false := Bool.eq_false_iff.mpr fun h => by
      obtain ⟨value, hValue⟩ := hSim.isDeferred_iff.mp h
      rw [hPhase] at hValue
      cases hValue
    obtain ⟨driver, hView⟩ := hSim.fits hPhase
    rw [hView, hNot]
    rfl

theorem batches_nodup (hSim : s.Simulates phase) : s.manager.startedBatches.Nodup := by
  rw [List.nodup_iff_count_le_one]
  intro id
  have hView := hSim.views id
  have hBatches : s.manager.startedBatches.count id = (s.view id).batches := rfl
  rw [hBatches]
  cases hPhase : phase id with
  | running tag | stopping tag =>
    rw [hSim.fits hPhase]
  | deferred tag =>
    rw [hSim.fits hPhase]
    exact Nat.zero_le 1
  | fresh | dropped tag | interrupted tag | finished tag =>
    obtain ⟨driver, hView⟩ := hSim.fits hPhase
    rw [hView]
    exact Nat.zero_le 1

/-- An animation has a batch in two of its phases. -/
theorem hasBatch_of_mem (hSim : s.Simulates phase) (hMem : id ∈ s.manager.startedBatches)
    (hRequested : (id, tag) ∈ s.requested) : (phase id).hasBatch tag := by
  have hBatch : 0 < (s.view id).batches := List.count_pos_iff.mpr hMem
  have hTag := mem_tags.mpr hRequested
  cases hPhase : phase id with
  | running value =>
    rw [hSim.fits hPhase] at hTag
    exact .inl (List.mem_singleton.mp hTag ▸ rfl)
  | stopping value =>
    rw [hSim.fits hPhase] at hTag
    exact .inr (List.mem_singleton.mp hTag ▸ rfl)
  | deferred value =>
    rw [hSim.fits hPhase] at hBatch
    cases hBatch
  | fresh | dropped value | interrupted value | finished value =>
    obtain ⟨driver, hView⟩ := hSim.fits hPhase
    rw [hView] at hBatch
    cases hBatch

theorem mem_of_stopping (hSim : s.Simulates phase) (h : phase id = .stopping tag) :
    id ∈ s.manager.startedBatches := by
  have hBatch : s.manager.startedBatches.count id = 1 := congrArg View.batches (hSim.fits h)
  exact List.count_pos_iff.mp (by omega)

theorem pending_iff (hSim : s.Simulates phase) :
    id ∈ s.manager.pendingCompletionAnimations ↔
      (∃ tag, phase id = .stopping tag) ∨ id ∈ s.stoppedDeferred := by
  have hPending : id ∈ s.manager.pendingCompletionAnimations ↔ (s.view id).pending = true :=
    (decide_eq_true_iff ..).symm
  have hDropped : id ∈ s.stoppedDeferred ↔ (s.view id).stoppedDeferred = true :=
    (decide_eq_true_iff ..).symm
  rw [hPending, hDropped]
  cases hPhase : phase id with
  | running tag | stopping tag | deferred tag =>
    rw [hSim.fits hPhase]
    simp
  | fresh | dropped tag | interrupted tag | finished tag =>
    obtain ⟨driver, hView⟩ := hSim.fits hPhase
    rw [hView]
    simp

end Simulates

/-- The collections when no batch is outstanding. -/
theorem Simulates.quiet (hSim : s.Simulates phase) (hQuiet : s.manager.startedBatches = []) :
    s.manager.valuesWithStoppedAnimation = ∅ ∧
      (∀ tag, s.manager.deferredAnimationForValues tag = none) ∧
      (s.manager.pendingCompletionAnimations = ∅ ↔ s.stoppedDeferred = []) := by
  have hNone : ∀ id tag, phase id ≠ .stopping tag := fun id tag hPhase => by
    have hMem := hSim.mem_of_stopping hPhase
    rw [hQuiet] at hMem
    cases hMem
  refine ⟨?_, fun tag => ?_, ?_⟩
  · rw [Finset.eq_empty_iff_forall_notMem]
    intro tag hMem
    obtain ⟨id, hPhase⟩ := (hSim.stopped tag).mp hMem
    exact hNone id tag hPhase
  · apply hSim.free
    intro id hPhase
    obtain ⟨other, hOther⟩ := hSim.orderly.waits hPhase
    exact hNone other tag hOther
  · rw [Finset.eq_empty_iff_forall_notMem, List.eq_nil_iff_forall_not_mem]
    apply forall_congr'
    intro id
    rw [hSim.pending_iff, or_iff_right fun ⟨tag, hPhase⟩ => hNone id tag hPhase]

theorem life_cycle (hs : Reachable valueNodes s) :
    (∀ action, s.Allowed action → ∃ t, s.step action = .ok t) ∧
      (∀ id, s.callsOf id = if s.atEnd id then [!decide (id ∈ s.stopped)] else []) ∧
      s.manager.startedBatches.Nodup ∧
      (∀ id other tag, (id, tag) ∈ s.requested → (other, tag) ∈ s.requested →
        id ∈ s.manager.startedBatches → other ∈ s.manager.startedBatches → id = other) ∧
      (s.manager.startedBatches = [] →
        s.manager.valuesWithStoppedAnimation = ∅ ∧
          (∀ tag, s.manager.deferredAnimationForValues tag = none) ∧
          (s.manager.pendingCompletionAnimations = ∅ ↔ s.stoppedDeferred = [])) := by
  obtain ⟨phase, hSim⟩ := hs.simulates
  refine ⟨fun action hAllowed => ?_, hSim.callsOf_eq, hSim.batches_nodup, ?_, hSim.quiet⟩
  · obtain ⟨t, hStep, -⟩ := hSim.step hAllowed
    exact ⟨t, hStep⟩
  · intro id other tag hId hOther hMem hMem'
    exact hSim.orderly.alone (hSim.hasBatch_of_mem hMem hId) (hSim.hasBatch_of_mem hMem' hOther)

/-- Take actions as long as they are allowed and do not fail. -/
def run (s : System) : List Action → Option System
  | [] => some s
  | action :: actions =>
    if s.Allowed action then
      match s.step action with
      | .ok t => t.run actions
      | .error _ => none
    else none

theorem Reachable.run (hs : Reachable valueNodes s) {actions : List Action} {t : System}
    (hRun : s.run actions = some t) : Reachable valueNodes t := by
  induction actions generalizing s with
  | nil =>
    cases hRun
    exact hs
  | cons action actions ih =>
    rw [System.run] at hRun
    split at hRun
    · rename_i hAllowed
      split at hRun
      · rename_i next hStep
        exact ih (.step action hs hAllowed hStep) hRun
      · cases hRun
    · cases hRun

theorem exists_reachable (P : System → Prop) [DecidablePred P] (actions : List Action)
    (h : (((initial valueNodes).run actions).any fun s => decide (P s)) = true) :
    ∃ s, Reachable valueNodes s ∧ P s := by
  obtain ⟨s, hRun, hP⟩ := (Option.any_eq_true ..).mp h
  exact ⟨s, Reachable.initial.run hRun, of_decide_eq_true hP⟩

/-- An animation takes over from one that is stopped, and finishes. -/
theorem take_over : ∃ s : System, s.manager.endCallbacks = [(2, true), (1, false)] ∧
    s.manager.pendingCompletionAnimations = ∅ := by
  obtain ⟨s, hs, hQuiet, hCalls, hDropped⟩ : ∃ s, Reachable (fun _ => true) s ∧
      s.manager.startedBatches = [] ∧ s.manager.endCallbacks = [(2, true), (1, false)] ∧
        s.stoppedDeferred = [] :=
    exists_reachable _
      [.startAnimatingNode 1 10, .stopAnimation 1, .startAnimatingNode 2 10, .completeBatch 1,
        .completeBatch 2]
      (by decide)
  exact ⟨s, hCalls, ((life_cycle hs).2.2.2.2 hQuiet).2.2.mpr hDropped⟩

/-- The second animation is stopped before it starts, and its driver stays for good. -/
theorem deferred_driver_stays : ∃ s, Reachable (fun _ => true) s ∧
    s.manager.startedBatches = [] ∧ s.manager.pendingCompletionAnimations = {2} :=
  exists_reachable _
    [.startAnimatingNode 1 10, .stopAnimation 1, .startAnimatingNode 2 10, .stopAnimation 2,
      .completeBatch 1]
    (by decide)

end ReactNative.Animated.System
