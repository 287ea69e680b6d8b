import Mathlib.Algebra.GroupWithZero.Nat
import ReactNativeWindows.ReactHost.ActionOrder

/-! Every action that was posted is started and completes, as long as the futures of actions do. -/
namespace ReactHost.AsyncActionQueue

open Concurrency Concurrency.Machine

universe u

variable {Error : Type u} {h h' : Heap Error} {frame : Frame Error} {F : Multiset (Frame Error)}
  {calls forks : List (Frame Error)}

/-- Steps when no more actions are posted: the code of actions and continuations returns, and the
futures of actions complete. -/
def Settles (s t : Config (Heap Error) (Frame Error) Empty) : Prop :=
  (∃ thread, (machine Error).step s (.run thread .returns) = some t) ∨
    ∃ i result inQueue, (machine Error).step s (.call (.completed i result inQueue)) = some t

def Frame.weight : Frame Error → ℕ
  | action _ | continuation _ | startNext => 1
  | completed _ _ _ => 2
  | completeAction _ _ => 4
  | then_ _ => 5
  | postAction => 12
  | postActions count => 13 * count + 1

def Heap.weight (h : Heap Error) : ℕ :=
  10 * h.queue.m_actions.length + 3 * (h.started.length - h.results.length) + 4 * h.waiting.length

def rank (h : Heap Error) (F : Multiset (Frame Error)) : ℕ := h.weight + total Frame.weight F

theorem Inv.results_le (hInv : Inv h F) : h.results.length ≤ h.started.length := by
  have hSubset : h.results.map Prod.fst ⊆ h.started := by
    intro i hMem
    obtain ⟨result, hResult, rfl⟩ := List.mem_map.mp hMem
    exact hInv.results result hResult
  have hLe := (hInv.distinct.subperm hSubset).length_le
  rwa [List.length_map] at hLe

theorem complete_weight {i : ℕ} {result : Maybe Error} (hInv : Inv h F)
    (hComplete : h.complete i result = some h') : h'.weight + 3 = h.weight := by
  have hLe := (hInv.completes hComplete true).results_le
  rw [Heap.complete] at hComplete
  split at hComplete
  · cases hComplete
    simp only [Heap.weight, List.length_append, List.length_singleton] at hLe ⊢
    omega
  · cases hComplete

theorem total_coe (calls : List (Frame Error)) :
    total Frame.weight (calls : Multiset (Frame Error)) = (calls.map Frame.weight).sum := rfl

theorem invokeAction_weight (h : Heap Error) (entry : Option ℕ) :
    (h.invokeAction entry).1.weight + ((h.invokeAction entry).2.map Frame.weight).sum ≤
      h.weight + 9 * entry.toList.length := by
  cases entry with
  | none => exact Nat.le_refl _
  | some i =>
    simp only [Heap.invokeAction, Heap.weight, List.length_append, List.length_singleton,
      List.map_cons, List.map_nil, List.sum_cons, List.sum_nil, Frame.weight, Option.toList_some]
    omega

theorem postAction_length (q : AsyncActionQueue ℕ) (entry : ℕ) :
    (q.postAction entry).1.m_actions.length + (q.postAction entry).2.toList.length =
      q.m_actions.length + 1 := by
  rw [AsyncActionQueue.postAction]
  split
  · rfl
  · exact List.length_append

theorem startNext_length (q : AsyncActionQueue ℕ) :
    q.startNext.1.m_actions.length + q.startNext.2.toList.length = q.m_actions.length := by
  rw [AsyncActionQueue.startNext]
  split
  · rename_i hActions
    rw [hActions]
    rfl
  · rename_i hActions
    rw [hActions]
    rfl

theorem rank_exec (hInv : Inv h (frame ::ₘ F))
    (hExec : exec h frame .returns = some (.next h' calls forks)) :
    h'.weight + total Frame.weight (calls : Multiset (Frame Error)) +
      total Frame.weight (forks : Multiset (Frame Error)) < h.weight + frame.weight := by
  cases frame with
  | postAction =>
    simp only [exec, Option.some.injEq, Outcome.next.injEq] at hExec
    obtain ⟨rfl, rfl, rfl⟩ := hExec
    have hQueue := postAction_length h.queue h.posted
    have hWeight := invokeAction_weight
      { h with queue := (h.queue.postAction h.posted).1, posted := h.posted + 1 }
      (h.queue.postAction h.posted).2
    have hEntry : (h.queue.postAction h.posted).2.toList.length ≤ 1 := Option.length_toList_le
    simp only [total_coe, List.map_nil, List.sum_nil, Frame.weight, Heap.weight] at hWeight ⊢
    omega
  | postActions count =>
    cases count with
    | zero =>
      cases hExec
      exact Nat.lt_succ_self _
    | succ count =>
      cases hExec
      simp only [total_coe, List.map_cons, List.map_nil,
        List.sum_cons, List.sum_nil, Frame.weight]
      omega
  | action i | continuation i =>
    cases hExec
    exact Nat.lt_succ_self _
  | then_ i =>
    simp only [exec] at hExec
    split at hExec <;> cases hExec
    · simp only [total_coe, List.map_cons, List.map_nil,
        List.sum_cons, List.sum_nil, Frame.weight]
      omega
    · simp only [total_coe, List.map_nil, List.sum_nil, Frame.weight,
        Heap.weight, List.length_append, List.length_singleton]
      omega
  | completed i result inQueue =>
    simp only [exec] at hExec
    split at hExec
    · rename_i hMem
      have hLength := List.length_erase_add_one hMem
      split at hExec <;> cases hExec
      all_goals
        simp only [total_coe, List.map_cons, List.map_nil, List.sum_cons, List.sum_nil, Frame.weight,
          Heap.weight]
        omega
    · cases hExec
      simp only [total_coe, List.map_nil, List.sum_nil, Frame.weight]
      omega
  | completeAction i result =>
    cases hExec
    simp only [total_coe, List.map_cons, List.map_nil,
      List.sum_cons, List.sum_nil, Frame.weight, Heap.weight]
    omega
  | startNext =>
    simp only [exec, Option.some.injEq, Outcome.next.injEq] at hExec
    obtain ⟨rfl, rfl, rfl⟩ := hExec
    have hQueue := startNext_length h.queue
    have hWeight := invokeAction_weight { h with queue := h.queue.startNext.1 } h.queue.startNext.2
    simp only [total_coe, List.map_nil, List.sum_nil, Frame.weight, Heap.weight] at hWeight ⊢
    omega

variable {s t : Config (Heap Error) (Frame Error) Empty}

/-- A step leaves less to do. -/
theorem settles_next (hInv : Inv s.heap s.frames) (hStep : Settles s t) :
    Inv t.heap t.frames ∧ rank t.heap t.frames < rank s.heap s.frames := by
  rcases hStep with ⟨thread, hStep⟩ | ⟨i, result, inQueue, hStep⟩
  · rcases step_cases hStep with ⟨j, choice, frame, rest, heap, calls, forks, hMove, hTop, hExec, -, rfl⟩ |
      ⟨-, -, -, -, why, -⟩ | ⟨frame, heap, hMove, -⟩
    · cases hMove
      obtain ⟨hBefore, hAfter⟩ := frames_resume hTop calls forks
      simp only [Config.frames, hBefore] at hInv ⊢
      rw [hAfter]
      refine ⟨hInv.exec hExec, ?_⟩
      have hRank := rank_exec hInv hExec
      rw [rank, rank, total_add, total_add, total_cons]
      omega
    · cases why
    · cases hMove
  · rcases step_cases hStep with ⟨j, choice, frame, rest, heap, calls, forks, hMove, -⟩ |
      ⟨-, -, -, -, why, -⟩ | ⟨frame, heap, hMove, hStart, -, rfl⟩
    · cases hMove
    · cases why
    · cases hMove
      have hFrames : (⟨heap, s.threads ++ [[.completed i result inQueue]], none⟩ :
          Config (Heap Error) (Frame Error) Empty).frames = .completed i result inQueue ::ₘ s.frames := by
        rw [Config.frames, List.flatten_append, ← Multiset.coe_add, add_comm]
        rfl
      have hWeight := complete_weight hInv hStart
      rw [hFrames, rank, rank, total_cons]
      refine ⟨hInv.completes hStart inQueue, ?_⟩
      simp only [Frame.weight]
      omega

/-- When nothing is in progress, the future of an action has yet to complete, or all is done. -/
theorem Inv.quiet (hInv : Inv h 0) :
    (h.started = List.range h.posted ∧ h.delivered.map Prod.fst = List.range h.posted) ∨
      ∃ i, ∀ result, (h.complete i result).isSome = true := by
  obtain ⟨token, hTokens, hLength, hStarted⟩ := hInv.token
  rw [tokens, gather_zero, zero_add, Multiset.coe_eq_coe] at hTokens
  cases hWaiting : h.waiting with
  | nil =>
    rw [hWaiting, List.map_nil, List.nil_perm] at hTokens
    rw [hTokens] at hLength hStarted
    have hIdle := hInv.idle (by
      cases hInvoking : h.queue.m_isInvoking with
      | false => rfl
      | true =>
        rw [hInvoking] at hLength
        cases hLength)
    have hOrder := hInv.order
    rw [hIdle, List.append_nil] at hOrder
    rw [List.reduceOption_nil, List.append_nil, hOrder] at hStarted
    exact .inl ⟨hOrder, hStarted⟩
  | cons i waiting =>
    right
    use i
    intro result
    have hMem : some i ∈ tokens h 0 := by
      rw [tokens, gather_zero, zero_add, hWaiting]
      exact Multiset.mem_coe.mpr List.mem_cons_self
    have hNot : h.isCompleted i = false := by
      cases hDone : h.isCompleted i with
      | false => rfl
      | true =>
        have hWoken := hInv.woken i (hWaiting ▸ List.mem_cons_self) hDone
        cases hWoken
    have hIn : i ∈ h.started := by
      rw [← (hInv.alone hMem).2.2]
      exact List.mem_append_right _ List.mem_cons_self
    rw [Heap.complete, if_pos ⟨hIn, hNot⟩]
    rfl

/-- No frame waits for another one. -/
theorem exec_returns (h : Heap Error) (frame : Frame Error) :
    ∃ outcome, exec h frame .returns = some outcome := by
  cases frame with
  | postActions count =>
    cases count with
    | zero | succ count => exact ⟨_, rfl⟩
  | then_ i =>
    simp only [exec]
    split
    · exact ⟨_, rfl⟩
    · exact ⟨_, rfl⟩
  | completed i result inQueue =>
    simp only [exec]
    split
    · split
      · exact ⟨_, rfl⟩
      · exact ⟨_, rfl⟩
    · exact ⟨_, rfl⟩
  | _ => exact ⟨_, rfl⟩

theorem settles (hCrashed : s.crashed = none) (hInv : Inv s.heap s.frames) :
    Control.Inevitably Settles (fun t => t.Quiet ∧ t.heap.started = List.range t.heap.posted ∧
      t.heap.delivered.map Prod.fst = List.range t.heap.posted) s := by
  apply Control.Inevitably.of_rank (fun s => rank s.heap s.frames)
    (I := fun s => s.crashed = none ∧ Inv s.heap s.frames) _ s ⟨hCrashed, hInv⟩
  rintro s ⟨hCrashed, hInv⟩
  have hSteps : ∀ t, Settles s t → (t.crashed = none ∧ Inv t.heap t.frames) ∧
      rank t.heap t.frames < rank s.heap s.frames := by
    intro t hStep
    obtain ⟨hNext, hLess⟩ := settles_next hInv hStep
    refine ⟨⟨?_, hNext⟩, hLess⟩
    cases hSome : t.crashed with
    | none => rfl
    | some why => cases why
  by_cases hQuiet : s.Quiet
  · have hFrames := hInv
    rw [Config.quiet_frames hQuiet] at hFrames
    rcases hFrames.quiet with ⟨hStarted, hDelivered⟩ | ⟨i, hComplete⟩
    · exact .inl ⟨hQuiet, hStarted, hDelivered⟩
    · obtain ⟨next, hNext⟩ := Option.isSome_iff_exists.mp (hComplete (.ok ()))
      refine .inr ⟨⟨⟨next, s.threads ++ [[.completed i (.ok ()) true]], none⟩, .inr ⟨i, .ok (), true, ?_⟩⟩,
        hSteps⟩
      simp only [step, hCrashed, machine, hNext, Option.map_some]
  · simp only [Config.Quiet, not_forall] at hQuiet
    obtain ⟨thread, hMem, hThread⟩ := hQuiet
    obtain ⟨i, hi, hGet⟩ := List.mem_iff_getElem.mp hMem
    obtain ⟨frame, rest, rfl⟩ := List.exists_cons_of_ne_nil hThread
    have hTop : s.threads[i]? = some (frame :: rest) := by rw [List.getElem?_eq_getElem hi, hGet]
    obtain ⟨outcome, hExec⟩ := exec_returns s.heap frame
    have hStep : ((machine Error).step s (.run i .returns)).isSome = true := by
      simp [step, hCrashed, hTop, machine, hExec]
    obtain ⟨t, ht⟩ := Option.isSome_iff_exists.mp hStep
    exact .inr ⟨⟨t, .inl ⟨i, ht⟩⟩, hSteps⟩

def Frame.isStartNext : Frame Error → Bool
  | startNext => true
  | _ => false

/-- An action is in progress from its start until `CompleteAction` is done with it. -/
def InProgress (s : Config (Heap Error) (Frame Error) Empty) : Prop :=
  s.heap.delivered.length < s.heap.started.length ∨ 0 < tally Frame.isStartNext s.frames

theorem Inv.invoking (hInv : Inv s.heap s.frames) :
    s.heap.queue.m_isInvoking = false ↔ ¬InProgress s ∧ s.heap.queue.m_actions = [] := by
  obtain ⟨token, hTokens, hLength, hStarted⟩ := hInv.token
  constructor
  · intro hNot
    rw [hNot] at hLength
    rw [List.length_eq_zero_iff.mp hLength] at hTokens hStarted
    refine ⟨fun hProgress => ?_, hInv.idle hNot⟩
    rcases hProgress with hLess | hNext
    · have hSame := congrArg List.length hStarted
      rw [List.reduceOption_nil, List.append_nil, List.length_map] at hSame
      omega
    · obtain ⟨frame, hMem, hFrame⟩ := exists_of_tally_pos hNext
      have hToken : frame.token = some none := by
        cases frame <;> first
          | rfl
          | cases hFrame
      have hSome : none ∈ tokens s.heap s.frames := by
        rw [tokens, Multiset.mem_add]
        exact .inl ((Multiset.mem_filterMap _ _).mpr ⟨frame, hMem, hToken⟩)
      rw [hTokens] at hSome
      cases hSome
  · rintro ⟨hProgress, -⟩
    cases hInvoking : s.heap.queue.m_isInvoking with
    | false => rfl
    | true =>
      rw [hInvoking] at hLength
      obtain ⟨x, rfl⟩ := List.length_eq_one_iff.mp hLength
      apply absurd _ hProgress
      cases x with
      | some i =>
        left
        rw [← hStarted, List.length_append, List.length_map]
        exact Nat.lt_succ_self _
      | none =>
        right
        have hMem : none ∈ tokens s.heap s.frames := by
          rw [hTokens]
          exact Multiset.mem_coe.mpr List.mem_cons_self
        rw [tokens, Multiset.mem_add] at hMem
        rcases hMem with hMem | hMem
        · obtain ⟨frame, hFrame, hToken⟩ := (Multiset.mem_filterMap _ _).mp hMem
          apply tally_pos hFrame
          cases frame <;> first
            | rfl
            | cases hToken
        · simp at hMem

/-- In every order of posts, of what actions and continuations do, and of completed futures: actions
are started in the order in which they were posted, each once, and only when the future of every action
before has completed; what the future of an action completed with is delivered once, in that order; the
flag says whether an action is in progress; and all actions are started and all results delivered, as
long as the code of actions returns and their futures complete. -/
theorem actions_in_order (hs : Reachable (machine Error) Always (.initial Error) s) :
    s.heap.started ++ s.heap.queue.m_actions = List.range s.heap.posted ∧
      (∀ i ∈ s.heap.started, ∀ j < i, ∃ result, (j, result) ∈ s.heap.results) ∧
      (s.heap.delivered.map Prod.fst <+: s.heap.started ∧ s.heap.delivered ⊆ s.heap.results ∧
        (s.heap.results.map Prod.fst).Nodup) ∧
      (s.heap.queue.m_isInvoking = false ↔ ¬InProgress s ∧ s.heap.queue.m_actions = []) ∧
      Control.Inevitably Settles (fun t => t.Quiet ∧ t.heap.started = List.range t.heap.posted ∧
        t.heap.delivered.map Prod.fst = List.range t.heap.posted) s := by
  have hInv := (invariant Always).reachable hs
  have hCrashed : s.crashed = none := by
    cases hSome : s.crashed with
    | none => rfl
    | some why => cases why
  obtain ⟨token, -, -, hStarted⟩ := hInv.token
  refine ⟨hInv.order, fun i hMem j hLess => isCompleted_iff.mp (hInv.prior i hMem j hLess), ?_,
    hInv.invoking, settles hCrashed hInv⟩
  exact ⟨⟨_, hStarted⟩, hInv.delivered, hInv.distinct⟩

/-- Two actions are posted together, and the first posts a third. Its future has completed when it
returns; that of the next one is completed by another thread. -/
theorem three_actions_in_order :
    ∃ s, Reachable (machine String) Always (.initial String) s ∧
      s.heap.delivered = [(0, .ok ()), (1, .error "failed")] ∧ s.heap.started = [0, 1, 2] ∧
        ∀ i ∈ s.heap.started, ∀ j < i, ∃ result, (j, result) ∈ s.heap.results := by
  obtain ⟨s, hs, hDelivered, hStarted⟩ : ∃ s, Reachable (machine String) Always (.initial String) s ∧
      s.heap.delivered = [(0, .ok ()), (1, .error "failed")] ∧ s.heap.started = [0, 1, 2] :=
    exists_reachable _
      [.call (.postActions 2), .run 0 .returns, .run 0 .returns, .run 0 .postAction, .run 0 .returns,
        .run 0 (.complete 0 (.ok ())), .run 0 .returns, .run 0 .returns, .run 0 .returns,
        .run 0 .returns, .run 0 .returns, .run 0 .returns, .run 0 .returns, .run 0 .returns,
        .run 0 .returns, .run 0 .returns, .call (.completed 1 (.error "failed") false),
        .run 1 .returns, .run 2 .returns, .run 2 .returns, .run 2 .returns]
      (by decide)
  exact ⟨s, hs, hDelivered, hStarted, (actions_in_order hs).2.1⟩

end ReactHost.AsyncActionQueue
