import Mathlib.Tactic.Abel
import ReactNativeWindows.ReactHost.JSCallQueue

/-! Calls are delivered in the order in which they were made. -/
namespace ReactHost.JSCallQueue

open Concurrency

universe u

variable {Call : Type u} {h h' : Heap Call} {frame : Frame Call} {F : Multiset (Frame Call)}
  {calls forks : List (Frame Call)}

def Frame.held : Frame Call → Option (JSCallEntry Call)
  | callFunctionOnModule entry | callEntry entry => some entry
  | _ => none

/-- The entries that wait or are on their way. -/
def pending (h : Heap Call) (F : Multiset (Frame Call)) : Multiset (JSCallEntry Call) :=
  ↑h.m_jsCallQueue + gather Frame.held F

def entries (h : Heap Call) (F : Multiset (Frame Call)) : Multiset (JSCallEntry Call) :=
  ↑h.delivered + pending h F

/-- What a locked block of `CallJsFunction` does: the call is ignored, made at once, or waits. -/
theorem callJsFunction_cases (h : Heap Call) (call : Call) :
    h.callJsFunction call = (false, { h with calls := h.calls ++ [call] }) ∨
    (h.m_state = .loaded ∧ h.m_jsCallQueue = [] ∧ h.callJsFunction call =
      (true, { h with
        calls := h.calls ++ [call]
        accepted := h.accepted ++ [(h.calls.length, call)] })) ∨
    ((h.m_state = .loaded → h.m_jsCallQueue ≠ []) ∧ h.callJsFunction call =
      (false, { h with
        calls := h.calls ++ [call]
        accepted := h.accepted ++ [(h.calls.length, call)]
        m_jsCallQueue := h.m_jsCallQueue ++ [(h.calls.length, call)] }) ∧
      (h.m_state = .loading ∨ h.m_state = .waitingForDebugger ∨ h.m_state = .loaded)) := by
  rw [Heap.callJsFunction]
  by_cases hDirect : h.m_state = .loaded ∧ h.m_jsCallQueue = []
  · exact .inr (.inl ⟨hDirect.1, hDirect.2, if_pos hDirect⟩)
  by_cases hWaits : h.m_state = .loading ∨ h.m_state = .waitingForDebugger ∨ h.m_state = .loaded
  · refine .inr (.inr ⟨fun hLoaded hEmpty => hDirect ⟨hLoaded, hEmpty⟩, ?_, hWaits⟩)
    simp only [if_neg hDirect, if_pos hWaits]
  · left
    simp only [if_neg hDirect, if_neg hWaits]

/-- A delivery changes nothing but what was delivered. -/
theorem deliver_eq (h : Heap Call) (entry : JSCallEntry Call) (queued : Bool) :
    ∃ delivered late, h.deliver entry queued = { h with delivered := delivered, late := late } ∧
      (h.m_bridgelessReactInstance = true → delivered = h.delivered ++ [entry]) ∧
      (delivered = h.delivered ++ [entry] ∨ delivered = h.delivered) ∧
      (late = h.late ∨ queued = true ∧ h.abandoned = true) := by
  rw [Heap.deliver]
  by_cases hInstance : h.m_bridgelessReactInstance = true
  · rw [if_pos hInstance]
    refine ⟨_, _, rfl, fun _ => rfl, .inl rfl, ?_⟩
    by_cases hLate : queued = true ∧ h.abandoned = true
    · exact .inr hLate
    · exact .inl (if_neg hLate)
  · rw [if_neg hInstance]
    exact ⟨h.delivered, h.late, rfl, fun hTrue => absurd hTrue hInstance, .inr rfl, .inl rfl⟩

/-- The queue is empty, and nothing comes to it any more. -/
def Settled (h : Heap Call) : Prop :=
  h.m_jsCallQueue = [] ∧ h.m_state ≠ .loading ∧ h.m_state ≠ .waitingForDebugger

/-- What a step does to the state and the queue. -/
theorem settled_exec (hSettled : Settled h) (hExec : exec h frame = .next h' calls forks) :
    Settled h' := by
  obtain ⟨hEmpty, hLoading, hWaiting⟩ := hSettled
  cases frame with
  | callJsFunction call =>
    rcases callJsFunction_cases h call with hCase | ⟨-, -, hCase⟩ | ⟨hFull, -, hState⟩
    · simp only [exec, hCase] at hExec
      cases hExec
      exact ⟨hEmpty, hLoading, hWaiting⟩
    · simp only [exec, hCase] at hExec
      cases hExec
      exact ⟨hEmpty, hLoading, hWaiting⟩
    · rcases hState with hState | hState | hState
      · exact absurd hState hLoading
      · exact absurd hState hWaiting
      · exact absurd hEmpty (hFull hState)
  | callFunctionOnModule entry =>
    obtain ⟨delivered, late, hDeliver, -⟩ := deliver_eq h entry false
    simp only [exec, hDeliver] at hExec
    cases hExec
    exact ⟨hEmpty, hLoading, hWaiting⟩
  | callEntry entry =>
    obtain ⟨delivered, late, hDeliver, -⟩ := deliver_eq h entry true
    simp only [exec, hDeliver] at hExec
    cases hExec
    exact ⟨hEmpty, hLoading, hWaiting⟩
  | drainJSCallQueue =>
    simp only [exec] at hExec
    split at hExec
    · rename_i hQueue
      rw [hEmpty] at hQueue
      cases hQueue
    · cases hExec
      exact ⟨hEmpty, hLoading, hWaiting⟩
  | onWaitingForDebugger =>
    simp only [exec, if_neg hLoading] at hExec
    cases hExec
    exact ⟨hEmpty, hLoading, hWaiting⟩
  | bundleLoaded | onReactInstanceLoaded errorCode | destroy =>
    simp only [exec] at hExec
    split at hExec <;> cases hExec
    all_goals exact ⟨hEmpty, hLoading, hWaiting⟩
  | abandonJSCallQueue =>
    simp only [exec] at hExec
    split at hExec <;> cases hExec
    · exact ⟨rfl, hLoading, hWaiting⟩
    · exact ⟨hEmpty, hLoading, hWaiting⟩
  | setLoaded | setLoadError | onError | onJSError | unload =>
    cases hExec; exact ⟨hEmpty, nofun, nofun⟩
  | releaseInstance => cases hExec; exact ⟨hEmpty, hLoading, hWaiting⟩

def Frame.rank : Frame Call → ℕ
  | callFunctionOnModule _ | drainJSCallQueue | abandonJSCallQueue | releaseInstance
  | onWaitingForDebugger => 1
  | callEntry _ | setLoaded | onError => 2
  | callJsFunction _ | setLoadError | unload => 3
  | onReactInstanceLoaded _ | destroy => 4
  | bundleLoaded => 5
  | onJSError => 6

/-- The steps that only change the state of the instance. -/
def Frame.isOther : Frame Call → Bool
  | callJsFunction _ | callFunctionOnModule _ | callEntry _ | abandonJSCallQueue => false
  | _ => true

/-- What a step does to calls: all that can happen to them. -/
inductive Effect (h : Heap Call) : Frame Call → Heap Call → List (Frame Call) → Prop where
  | ignored (call : Call) :
      Effect h (.callJsFunction call) { h with calls := h.calls ++ [call] } []
  | direct (call : Call) (loaded : h.m_state = .loaded) (empty : h.m_jsCallQueue = []) :
      Effect h (.callJsFunction call)
        { h with
          calls := h.calls ++ [call]
          accepted := h.accepted ++ [(h.calls.length, call)] }
        [.callFunctionOnModule (h.calls.length, call)]
  | waits (call : Call) (full : h.m_state = .loaded → h.m_jsCallQueue ≠ [])
      (state : h.m_state = .loading ∨ h.m_state = .waitingForDebugger ∨ h.m_state = .loaded) :
      Effect h (.callJsFunction call)
        { h with
          calls := h.calls ++ [call]
          accepted := h.accepted ++ [(h.calls.length, call)]
          m_jsCallQueue := h.m_jsCallQueue ++ [(h.calls.length, call)] } []
  | called (entry : JSCallEntry Call) (delivered : List (JSCallEntry Call))
      (alive : h.m_bridgelessReactInstance = true → delivered = h.delivered ++ [entry])
      (some_ : delivered = h.delivered ++ [entry] ∨ delivered = h.delivered) :
      Effect h (.callFunctionOnModule entry) { h with delivered := delivered } []
  | taken (entry : JSCallEntry Call) (entries : List (JSCallEntry Call))
      (loaded : h.m_state = .loaded) (queue : h.m_jsCallQueue = entry :: entries) :
      Effect h .drainJSCallQueue { h with m_jsCallQueue := entries } [.callEntry entry]
  | calledEntry (entry : JSCallEntry Call) (delivered late : List (JSCallEntry Call))
      (alive : h.m_bridgelessReactInstance = true → delivered = h.delivered ++ [entry])
      (some_ : delivered = h.delivered ++ [entry] ∨ delivered = h.delivered)
      (onTime : h.abandoned = false → late = h.late) :
      Effect h (.callEntry entry) { h with delivered := delivered, late := late } [.drainJSCallQueue]
  | emptied (state : h.m_state = .hasError ∨ h.m_state = .unloaded) :
      Effect h .abandonJSCallQueue { h with m_jsCallQueue := [], abandoned := true } []
  | kept : Effect h .abandonJSCallQueue h []
  | other (frame : Frame Call) (state : ReactInstanceState) (isLoaded isDestroyed instance_ failed : Bool)
      (calls : List (Frame Call)) (hFrame : frame.isOther = true)
      (hCalls : ∀ f ∈ calls, f.held = none)
      (hRank : total Frame.rank (calls : Multiset (Frame Call)) < frame.rank) :
      Effect h frame
        { h with
          m_state := state, m_isLoaded := isLoaded, m_isDestroyed := isDestroyed
          m_bridgelessReactInstance := instance_, failed := failed } calls

theorem effect_of_exec (hExec : exec h frame = .next h' calls forks) :
    forks = [] ∧ Effect h frame h' calls := by
  cases frame with
  | callJsFunction call =>
    rcases callJsFunction_cases h call with hCase | ⟨hLoaded, hEmpty, hCase⟩ | ⟨hFull, hCase, hState⟩
    · simp only [exec, hCase] at hExec
      cases hExec
      exact ⟨rfl, .ignored call⟩
    · simp only [exec, hCase] at hExec
      cases hExec
      exact ⟨rfl, .direct call hLoaded hEmpty⟩
    · simp only [exec, hCase] at hExec
      cases hExec
      exact ⟨rfl, .waits call hFull hState⟩
  | callFunctionOnModule entry =>
    obtain ⟨delivered, late, hDeliver, hAlive, hSome, hLate⟩ := deliver_eq h entry false
    obtain rfl : late = h.late := hLate.resolve_right nofun
    simp only [exec, hDeliver] at hExec
    cases hExec
    exact ⟨rfl, .called entry delivered hAlive hSome⟩
  | callEntry entry =>
    obtain ⟨delivered, late, hDeliver, hAlive, hSome, hLate⟩ := deliver_eq h entry true
    simp only [exec, hDeliver] at hExec
    cases hExec
    refine ⟨rfl, .calledEntry entry delivered late hAlive hSome fun hNot => ?_⟩
    exact hLate.resolve_right fun hBoth => by simp [hNot] at hBoth
  | drainJSCallQueue =>
    simp only [exec] at hExec
    split at hExec
    · rename_i hLoaded hQueue
      cases hExec
      exact ⟨rfl, .taken _ _ hLoaded hQueue⟩
    · cases hExec
      exact ⟨rfl, .other _ h.m_state h.m_isLoaded h.m_isDestroyed h.m_bridgelessReactInstance h.failed
        [] rfl nofun Nat.one_pos⟩
  | abandonJSCallQueue =>
    simp only [exec] at hExec
    split at hExec
    · rename_i hState
      cases hExec
      exact ⟨rfl, .emptied hState⟩
    · cases hExec
      exact ⟨rfl, .kept⟩
  | onReactInstanceLoaded errorCode =>
    simp only [exec] at hExec
    split at hExec <;> cases hExec
    · exact ⟨rfl, .other _ _ _ _ _ _ _ rfl nofun (by simp [Frame.rank])⟩
    · cases errorCode
      all_goals exact ⟨rfl, .other _ _ _ _ _ _ _ rfl (by simp [Frame.held]) (by simp [total, Frame.rank])⟩
  | onWaitingForDebugger | bundleLoaded | destroy =>
    simp only [exec] at hExec
    split at hExec <;> cases hExec
    all_goals exact ⟨rfl, .other _ _ _ _ _ _ _ rfl (by simp [Frame.held]) (by simp [total, Frame.rank])⟩
  | setLoaded | setLoadError | onError | onJSError | unload | releaseInstance =>
    cases hExec
    exact ⟨rfl, .other _ _ _ _ _ _ _ rfl (by simp [Frame.held]) (by simp [total, Frame.rank])⟩

theorem Frame.held_of_isOther (h : frame.isOther = true) : frame.held = none := by
  cases frame <;> first
    | rfl
    | cases h

theorem gather_held (calls : List (Frame Call)) (F : Multiset (Frame Call)) :
    gather Frame.held ((calls : Multiset (Frame Call)) + F) =
      (calls.filterMap Frame.held : Multiset (JSCallEntry Call)) + gather Frame.held F :=
  Multiset.filterMap_add ..

/-- What a step leaves of the entries, by what the frames hold before and after it. -/
theorem entries_step (h h' : Heap Call) (frame : Frame Call) (calls : List (Frame Call))
    (F : Multiset (Frame Call)) :
    entries h' (↑calls + F) =
        ↑(h'.delivered ++ (h'.m_jsCallQueue ++ calls.filterMap Frame.held)) + gather Frame.held F ∧
      entries h (frame ::ₘ F) =
        ↑(h.delivered ++ (h.m_jsCallQueue ++ frame.held.toList)) + gather Frame.held F := by
  constructor
  · rw [entries, pending, gather_held, ← Multiset.coe_add, ← Multiset.coe_add, add_assoc, add_assoc]
  · have hOne := gather_held [frame] F
    rw [cons_frames, nil_frames] at hOne
    rw [entries, pending, hOne, ← Multiset.coe_add, ← Multiset.coe_add, add_assoc, add_assoc]
    cases hHeld : frame.held with
    | none => rw [List.filterMap_cons_none hHeld]; rfl
    | some entry => rw [List.filterMap_cons_some hHeld]; rfl

section Delivery
variable {delivered : List (JSCallEntry Call)} {entry : JSCallEntry Call}

theorem delivered_perm (hDelivered : delivered = h.delivered ++ [entry])
    (queue : List (JSCallEntry Call)) :
    (delivered ++ (queue ++ [])).Perm (h.delivered ++ (queue ++ [entry])) := by
  rw [hDelivered, List.append_nil, List.append_assoc]
  apply List.Perm.append_left
  exact (List.perm_append_comm : ([entry] ++ queue).Perm (queue ++ [entry]))

theorem delivered_subperm
    (hDelivered : delivered = h.delivered ++ [entry] ∨ delivered = h.delivered)
    (queue : List (JSCallEntry Call)) :
    (delivered ++ (queue ++ [])).Subperm (h.delivered ++ (queue ++ [entry])) := by
  rcases hDelivered with hAll | hNone
  · exact (delivered_perm hAll queue).subperm
  · rw [hNone]
    apply List.Sublist.subperm
    exact ((List.nil_sublist [entry]).append_left queue).append_left h.delivered

end Delivery

/-- A call becomes an entry, or is ignored; else entries only get lost, and do so only when the
instance is gone or failed. -/
theorem entries_of_effect (hEffect : Effect h frame h' calls) (F : Multiset (Frame Call)) :
    (∃ call, h'.calls = h.calls ++ [call] ∧
      entries h' (↑calls + F) = (h.calls.length, call) ::ₘ entries h (frame ::ₘ F) ∧
        h'.accepted = h.accepted ++ [(h.calls.length, call)]) ∨
    (∃ call, h'.calls = h.calls ++ [call] ∧ entries h' (↑calls + F) = entries h (frame ::ₘ F) ∧
      h'.accepted = h.accepted) ∨
    h'.calls = h.calls ∧ h'.accepted = h.accepted ∧
      entries h' (↑calls + F) ≤ entries h (frame ::ₘ F) ∧
        (h.m_bridgelessReactInstance = true → h.m_state ≠ .hasError → h.m_state ≠ .unloaded →
          entries h' (↑calls + F) = entries h (frame ::ₘ F)) := by
  obtain ⟨hAfter, hBefore⟩ := entries_step h h' frame calls F
  rw [hAfter, hBefore]
  cases hEffect with
  | ignored call => exact .inr (.inl ⟨call, rfl, rfl, rfl⟩)
  | direct call loaded empty =>
    left
    use call, rfl
    simp only [empty, List.filterMap_cons, List.filterMap_nil, Frame.held, Option.toList_none,
      List.nil_append, List.append_nil, ← Multiset.coe_add, Multiset.coe_singleton]
    rw [← Multiset.singleton_add]
    exact ⟨by abel, trivial⟩
  | waits call full state =>
    left
    use call, rfl
    simp only [List.filterMap_nil, Frame.held, Option.toList_none, List.append_nil,
      ← Multiset.coe_add, Multiset.coe_singleton]
    rw [← Multiset.singleton_add]
    exact ⟨by abel, trivial⟩
  | called entry delivered alive some_ | calledEntry entry delivered late alive some_ onTime =>
    refine .inr (.inr ⟨rfl, rfl, ?_, fun hAlive _ _ => ?_⟩)
    · exact add_le_add_left (Multiset.coe_le.mpr (delivered_subperm some_ _)) _
    · exact congrArg (· + _) (Multiset.coe_eq_coe.mpr (delivered_perm (alive hAlive) _))
  | taken entry rest loaded queue =>
    have hPerm : (h.delivered ++ (rest ++ [entry])).Perm (h.delivered ++ (h.m_jsCallQueue ++ [])) := by
      rw [queue, List.append_nil]
      exact (List.perm_append_singleton entry rest).append_left _
    have hSame := Multiset.coe_eq_coe.mpr hPerm
    exact .inr (.inr ⟨rfl, rfl, (congrArg (· + _) hSame).le, fun _ _ _ => congrArg (· + _) hSame⟩)
  | emptied state =>
    refine .inr (.inr ⟨rfl, rfl, ?_, fun _ hError hUnloaded => ?_⟩)
    · apply add_le_add_left
      apply Multiset.coe_le.mpr
      apply List.Sublist.subperm
      exact (List.nil_sublist _).append_left h.delivered
    · exact absurd state (not_or.mpr ⟨hError, hUnloaded⟩)
  | kept => exact .inr (.inr ⟨rfl, rfl, le_refl _, fun _ _ _ => rfl⟩)
  | other _ state isLoaded isDestroyed instance_ failed _ hFrame hCalls _ =>
    right; right
    have hNone : calls.filterMap Frame.held = [] := by
      simpa [List.filterMap_eq_nil_iff] using hCalls
    rw [hNone, Frame.held_of_isOther hFrame]
    exact ⟨rfl, rfl, le_refl _, fun _ _ _ => rfl⟩

end ReactHost.JSCallQueue
