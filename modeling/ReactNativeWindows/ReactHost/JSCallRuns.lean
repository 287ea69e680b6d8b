import ReactNativeWindows.ReactHost.JSCallOrder

/-! Runs of threads that call JS functions while the instance loads, fails or is destroyed. -/
namespace ReactHost.JSCallQueue

open Concurrency Concurrency.Machine

universe u

variable {Call : Type u} {h h' : Heap Call} {frame : Frame Call} {F : Multiset (Frame Call)}
  {calls forks : List (Frame Call)}

def Frame.isDrain : Frame Call → Bool
  | setLoaded | drainJSCallQueue | callEntry _ => true
  | _ => false

def Frame.isDraining : Frame Call → Bool
  | drainJSCallQueue | callEntry _ => true
  | _ => false

def Frame.isRelease : Frame Call → Bool
  | releaseInstance => true
  | _ => false

/-- An instance that did not fail and was not destroyed: whatever waits in the queue of a loaded one
is about to be taken out. -/
structure Alive (h : Heap Call) (F : Multiset (Frame Call)) : Prop where
  instance_ : h.m_bridgelessReactInstance = true
  noError : h.m_state ≠ .hasError
  notUnloaded : h.m_state ≠ .unloaded
  noRelease : tally Frame.isRelease F = 0
  accepted : (h.accepted : Multiset (JSCallEntry Call)) = entries h F
  drains : h.m_state = .loaded → h.m_jsCallQueue ≠ [] → 0 < tally Frame.isDraining F

/-- What holds in every run: only one thread drains the queue, and nothing waits behind a call that
is made at once. -/
structure Kept (h : Heap Call) (F : Multiset (Frame Call)) : Prop where
  ticket : ∀ entry ∈ entries h F, h.calls[entry.1]? = some entry.2
  distinct : ((entries h F).map Prod.fst).Nodup
  one : tally Frame.isDrain F ≤ 1
  loaded : 0 < tally Frame.isDrain F → h.m_isLoaded = true
  direct : 0 < tally Frame.isDirect F → Settled h
  abandoned : h.abandoned = true → Settled h
  alive : h.failed = false → Alive h F

theorem drain_of_exec (hExec : exec h frame = .next h' calls forks) :
    (h'.m_isLoaded = h.m_isLoaded ∧
        tally Frame.isDrain (calls : Multiset (Frame Call)) ≤ frame.isDrain.toNat) ∨
      h.m_isLoaded = false ∧ h'.m_isLoaded = true ∧
        tally Frame.isDrain (calls : Multiset (Frame Call)) ≤ 1 := by
  cases frame with
  | callJsFunction call =>
    left
    rcases callJsFunction_cases h call with hCase | ⟨-, -, hCase⟩ | ⟨-, hCase, -⟩
    all_goals
      simp only [exec, hCase] at hExec
      cases hExec
      exact ⟨rfl, Nat.le_refl 0⟩
  | callFunctionOnModule entry =>
    left
    obtain ⟨delivered, late, hDeliver, -⟩ := deliver_eq h entry false
    simp only [exec, hDeliver] at hExec
    cases hExec
    exact ⟨rfl, Nat.le_refl 0⟩
  | callEntry entry =>
    left
    obtain ⟨delivered, late, hDeliver, -⟩ := deliver_eq h entry true
    simp only [exec, hDeliver] at hExec
    cases hExec
    exact ⟨rfl, Nat.le_refl 1⟩
  | onReactInstanceLoaded errorCode =>
    simp only [exec] at hExec
    split at hExec
    · cases hExec
      exact .inl ⟨rfl, Nat.le_refl 0⟩
    · rename_i hNotLoaded
      cases hExec
      right
      refine ⟨by simpa using hNotLoaded, rfl, ?_⟩
      cases errorCode
      · exact Nat.le_refl 1
      · exact Nat.zero_le 1
  | drainJSCallQueue =>
    left
    simp only [exec] at hExec
    split at hExec <;> cases hExec
    · exact ⟨rfl, Nat.le_refl 1⟩
    · exact ⟨rfl, Nat.zero_le 1⟩
  | bundleLoaded | abandonJSCallQueue | destroy | onWaitingForDebugger =>
    left
    simp only [exec] at hExec
    split at hExec <;> cases hExec
    all_goals exact ⟨rfl, Nat.le_refl 0⟩
  | setLoaded | setLoadError | onError | onJSError | unload | releaseInstance =>
    left
    cases hExec
    exact ⟨rfl, Nat.le_refl _⟩

/-- The calls that were made, and the entries among them, only become more. -/
theorem Kept.entries_exec (hKept : Kept h (frame ::ₘ F)) (hEffect : Effect h frame h' calls) :
    (∀ entry ∈ entries h' (↑calls + F), h'.calls[entry.1]? = some entry.2) ∧
      ((entries h' (↑calls + F)).map Prod.fst).Nodup := by
  rcases entries_of_effect hEffect F with ⟨call, hCalls, hEntries, -⟩ | ⟨call, hCalls, hEntries, -⟩ |
    ⟨hCalls, -, hLe, -⟩
  · rw [hCalls, hEntries]
    constructor
    · intro entry hMem
      rcases Multiset.mem_cons.mp hMem with rfl | hMem
      · simp
      · rw [List.getElem?_append_left (List.getElem?_eq_some_iff.mp (hKept.ticket entry hMem)).1]
        exact hKept.ticket entry hMem
    · rw [Multiset.map_cons, Multiset.nodup_cons]
      refine ⟨fun hMem => ?_, hKept.distinct⟩
      obtain ⟨entry, hEntry, hTicket⟩ := Multiset.mem_map.mp hMem
      have hLess := (List.getElem?_eq_some_iff.mp (hKept.ticket entry hEntry)).1
      simp only at hTicket
      omega
  · rw [hCalls, hEntries]
    refine ⟨fun entry hMem => ?_, hKept.distinct⟩
    rw [List.getElem?_append_left (List.getElem?_eq_some_iff.mp (hKept.ticket entry hMem)).1]
    exact hKept.ticket entry hMem
  · rw [hCalls]
    exact ⟨fun entry hMem => hKept.ticket entry (Multiset.mem_of_le hLe hMem),
      Multiset.nodup_of_le (Multiset.map_le_map hLe) hKept.distinct⟩

/-- A step that neither fails nor destroys the instance: what it leaves of it, and who drains the
queue after it. -/
theorem alive_of_exec (hExec : exec h frame = .next h' calls forks) (hFailed : h'.failed = false) :
    h.failed = false ∧
      (frame.isRelease = false → h'.m_bridgelessReactInstance = h.m_bridgelessReactInstance) ∧
      (h'.m_state = h.m_state ∨ h'.m_state = .loaded ∨ h'.m_state = .waitingForDebugger) ∧
      tally Frame.isRelease (calls : Multiset (Frame Call)) = 0 ∧
      (h'.m_state = .loaded → h'.m_jsCallQueue ≠ [] →
        h.m_state = .loaded ∧ h.m_jsCallQueue ≠ [] ∧ frame.isDraining = false ∨
          0 < tally Frame.isDraining (calls : Multiset (Frame Call))) := by
  cases frame with
  | callJsFunction call =>
    rcases callJsFunction_cases h call with hCase | ⟨-, hEmpty, hCase⟩ | ⟨hFull, hCase, -⟩
    · simp only [exec, hCase] at hExec
      cases hExec
      exact ⟨hFailed, fun _ => rfl, .inl rfl, rfl, fun hLoaded hQueue => .inl ⟨hLoaded, hQueue, rfl⟩⟩
    · simp only [exec, hCase] at hExec
      cases hExec
      exact ⟨hFailed, fun _ => rfl, .inl rfl, rfl, fun _ hQueue => absurd hEmpty hQueue⟩
    · simp only [exec, hCase] at hExec
      cases hExec
      exact ⟨hFailed, fun _ => rfl, .inl rfl, rfl, fun hLoaded _ => .inl ⟨hLoaded, hFull hLoaded, rfl⟩⟩
  | callFunctionOnModule entry =>
    obtain ⟨delivered, late, hDeliver, -⟩ := deliver_eq h entry false
    simp only [exec, hDeliver] at hExec
    cases hExec
    exact ⟨hFailed, fun _ => rfl, .inl rfl, rfl, fun hLoaded hQueue => .inl ⟨hLoaded, hQueue, rfl⟩⟩
  | callEntry entry =>
    obtain ⟨delivered, late, hDeliver, -⟩ := deliver_eq h entry true
    simp only [exec, hDeliver] at hExec
    cases hExec
    exact ⟨hFailed, fun _ => rfl, .inl rfl, rfl, fun _ _ => .inr Nat.one_pos⟩
  | drainJSCallQueue =>
    simp only [exec] at hExec
    split at hExec
    · cases hExec
      exact ⟨hFailed, fun _ => rfl, .inl rfl, rfl, fun _ _ => .inr Nat.one_pos⟩
    · rename_i hDone
      cases hExec
      refine ⟨hFailed, fun _ => rfl, .inl rfl, rfl, fun hLoaded hQueue => ?_⟩
      obtain ⟨entry, entries, hCons⟩ := List.exists_cons_of_ne_nil hQueue
      exact absurd hCons (hDone entry entries hLoaded)
  | abandonJSCallQueue =>
    simp only [exec] at hExec
    split at hExec <;> cases hExec
    · exact ⟨hFailed, fun _ => rfl, .inl rfl, rfl, fun _ hQueue => absurd rfl hQueue⟩
    · exact ⟨hFailed, fun _ => rfl, .inl rfl, rfl, fun hLoaded hQueue => .inl ⟨hLoaded, hQueue, rfl⟩⟩
  | onReactInstanceLoaded errorCode =>
    simp only [exec] at hExec
    split at hExec <;> cases hExec
    all_goals
      refine ⟨hFailed, fun _ => rfl, .inl rfl, ?_, fun hLoaded hQueue => .inl ⟨hLoaded, hQueue, rfl⟩⟩
    · rfl
    · cases errorCode <;> rfl
  | onWaitingForDebugger =>
    simp only [exec] at hExec
    split at hExec <;> cases hExec
    · exact ⟨hFailed, fun _ => rfl, .inr (.inr rfl), rfl, fun hLoaded => by cases hLoaded⟩
    · exact ⟨hFailed, fun _ => rfl, .inl rfl, rfl, fun hLoaded hQueue => .inl ⟨hLoaded, hQueue, rfl⟩⟩
  | bundleLoaded | destroy =>
    simp only [exec] at hExec
    split at hExec <;> cases hExec
    all_goals
      exact ⟨hFailed, fun _ => rfl, .inl rfl, rfl, fun hLoaded hQueue => .inl ⟨hLoaded, hQueue, rfl⟩⟩
  | setLoaded =>
    cases hExec
    exact ⟨hFailed, fun _ => rfl, .inr (.inl rfl), rfl, fun _ _ => .inr Nat.one_pos⟩
  | setLoadError | onError | onJSError | unload =>
    cases hExec
    cases hFailed
  | releaseInstance =>
    cases hExec
    exact ⟨hFailed, fun hNot => (by cases hNot), .inl rfl, rfl, fun hLoaded hQueue => .inl ⟨hLoaded, hQueue, rfl⟩⟩

theorem Alive.exec (hAlive : h.failed = false → Alive h (frame ::ₘ F))
    (hExec : exec h frame = .next h' calls forks) (hFailed : h'.failed = false) :
    Alive h' (↑calls + F) := by
  obtain ⟨hNotFailed, hInstance, hState, hReleases, hDrains⟩ := alive_of_exec hExec hFailed
  obtain ⟨instance_, noError, notUnloaded, noRelease, accepted, drains⟩ := hAlive hNotFailed
  have hRelease : frame.isRelease = false ∧ tally Frame.isRelease F = 0 := by
    rw [tally_cons] at noRelease
    constructor
    · cases hFrame : frame.isRelease with
      | false => rfl
      | true => simp [hFrame] at noRelease
    · omega
  have hAccepted : (h'.accepted : Multiset (JSCallEntry Call)) = entries h' (↑calls + F) := by
    rcases entries_of_effect (effect_of_exec hExec).2 F with ⟨call, -, hEntries, hMore⟩ |
      ⟨call, -, hEntries, hSame⟩ | ⟨-, hSame, -, hEntries⟩
    · rw [hEntries, hMore, ← Multiset.coe_add, accepted, Multiset.coe_singleton, add_comm,
        Multiset.singleton_add]
    · rw [hEntries, hSame, accepted]
    · rw [hEntries instance_ noError notUnloaded, hSame, accepted]
  constructor
  · rw [hInstance hRelease.1, instance_]
  · rcases hState with hState | hState | hState
    · rwa [hState]
    · rw [hState]
      simp
    · rw [hState]
      simp
  · rcases hState with hState | hState | hState
    · rwa [hState]
    · rw [hState]
      simp
    · rw [hState]
      simp
  · rw [tally_add, hReleases, hRelease.2]
  · exact hAccepted
  · intro hLoaded hQueue
    rw [tally_add]
    rcases hDrains hLoaded hQueue with ⟨hWas, hFull, hFrame⟩ | hCalls
    · have hMore := drains hWas hFull
      rw [tally_cons_neg hFrame] at hMore
      omega
    · omega

/-- A call is made at once only when the queue is empty and stays so. -/
theorem direct_of_effect (hEffect : Effect h frame h' calls)
    (hDirect : 0 < tally Frame.isDirect (calls : Multiset (Frame Call))) :
    h.m_state = .loaded ∧ h.m_jsCallQueue = [] ∧ h'.m_state = .loaded ∧ h'.m_jsCallQueue = [] := by
  cases hEffect with
  | direct call loaded empty => exact ⟨loaded, empty, loaded, empty⟩
  | other _ _ _ _ _ _ _ _ hCalls _ =>
    obtain ⟨f, hMem, hFrame⟩ := exists_of_tally_pos hDirect
    have hHeld := hCalls f hMem
    cases f <;> first
      | exact Bool.noConfusion hFrame
      | exact absurd hHeld (Option.some_ne_none _)
  | ignored | waits | called | taken | calledEntry | emptied | kept => cases hDirect

theorem Kept.exec (hKept : Kept h (frame ::ₘ F)) (hExec : exec h frame = .next h' calls forks) :
    Kept h' (↑calls + (↑forks + F)) := by
  obtain ⟨rfl, hEffect⟩ := effect_of_exec hExec
  obtain ⟨hTicket, hDistinct⟩ := hKept.entries_exec hEffect
  rw [nil_frames]
  have hOne := hKept.one
  have hLoaded := hKept.loaded
  rw [tally_cons] at hOne hLoaded
  have hDrain := drain_of_exec hExec
  refine ⟨hTicket, hDistinct, ?_, ?_, ?_, ?_, fun hFailed => .exec hKept.alive hExec hFailed⟩
  · rw [tally_add]
    rcases hDrain with ⟨-, hLe⟩ | ⟨hNot, -, hLe⟩
    · omega
    · by_contra hMore
      rw [hLoaded (by omega)] at hNot
      cases hNot
  · rw [tally_add]
    rcases hDrain with ⟨hSame, hLe⟩ | ⟨-, hNow, -⟩
    · intro hPos
      rw [hSame]
      exact hLoaded (by omega)
    · exact fun _ => hNow
  · rw [tally_add]
    intro hPos
    by_cases hCalls : 0 < tally Frame.isDirect (calls : Multiset (Frame Call))
    · obtain ⟨-, -, hState, hEmpty⟩ := direct_of_effect hEffect hCalls
      exact ⟨hEmpty, by simp [hState], by simp [hState]⟩
    · apply settled_exec _ hExec
      apply hKept.direct
      rw [tally_cons]
      omega
  · intro hAbandoned
    cases hEffect with
    | emptied state =>
      refine ⟨rfl, ?_, ?_⟩
      · rcases state with hState | hState
        all_goals simp [hState]
      · rcases state with hState | hState
        all_goals simp [hState]
    | _ => exact settled_exec (hKept.abandoned hAbandoned) hExec

theorem Frame.held_of_isCall (hCall : frame.isCall = true) :
    frame.held = none ∧ frame.isDrain = false ∧ frame.isDirect = false ∧ frame.isRelease = false ∧
      frame.isTaken = false := by
  cases frame <;> first
    | exact ⟨rfl, rfl, rfl, rfl, rfl⟩
    | cases hCall

theorem start_eq_some (hStart : (machine Call).start h frame = some h') :
    frame.isCall = true ∧ h' = h := by
  simp only [machine] at hStart
  split at hStart
  · rename_i hCall
    exact ⟨hCall, (Option.some.inj hStart).symm⟩
  · cases hStart

/-- Every run keeps the entries. -/
theorem kept (ok : Heap Call → Frame Call → Multiset (Frame Call) → Prop) :
    Invariant (machine Call) ok (Heap.initial Call) Kept where
  initial := by
    refine ⟨?_, ?_, Nat.zero_le 1, by simp [Heap.initial], by simp [Heap.initial], by simp [Heap.initial], fun _ => ?_⟩
    · simp [entries, pending, Heap.initial]
    · simp [entries, pending, Heap.initial]
    · refine ⟨rfl, ?_, ?_, rfl, rfl, ?_⟩ <;> simp [Heap.initial]
  start := by
    intro h h' frame F hKept hStart
    obtain ⟨hCall, rfl⟩ := start_eq_some hStart
    obtain ⟨hHeld, hDrain, hDirect, hRelease, -⟩ := Frame.held_of_isCall hCall
    have hEntries : entries h' (frame ::ₘ F) = entries h' F := by
      rw [entries, pending, gather_cons_none hHeld, entries, pending]
    obtain ⟨hTicket, hDistinct, hOne, hLoaded, hSettled, hAbandoned, hAlive⟩ := hKept
    constructor
    · rwa [hEntries]
    · rwa [hEntries]
    · rwa [tally_cons_neg hDrain]
    · rwa [tally_cons_neg hDrain]
    · rwa [tally_cons_neg hDirect]
    · exact hAbandoned
    · intro hFailed
      obtain ⟨hInstance, hError, hUnloaded, hNone, hAccepted, hDrains⟩ := hAlive hFailed
      constructor
      · exact hInstance
      · exact hError
      · exact hUnloaded
      · rwa [tally_cons_neg hRelease]
      · rwa [hEntries]
      · exact fun hState hQueue => tally_pos_push (hDrains hState hQueue) frame
  exec := by
    intro h frame F choice h' calls forks hKept _ hExec
    exact hKept.exec (Option.some.inj hExec)

/-- The tickets of what was delivered, is on its way and waits, in the order of the calls. -/
structure InOrder (h : Heap Call) (F : Multiset (Frame Call)) : Prop where
  order : ∃ flying : List (JSCallEntry Call), gather Frame.held F = ↑flying ∧ flying.length ≤ 1 ∧
    ((h.delivered ++ (flying ++ h.m_jsCallQueue)).map Prod.fst).Pairwise (· < ·)
  late : h.late = []
  abandoned : h.abandoned = true → tally Frame.isTaken F = 0

theorem gather_eq_zero_of_tally (hTaken : tally Frame.isTaken F = 0)
    (hDirect : tally Frame.isDirect F = 0) : gather Frame.held F = 0 := by
  have hNone : tally (fun frame : Frame Call => frame.isTaken || frame.isDirect) F = 0 := by
    rw [tally, Multiset.countP_eq_zero]
    intro f hMem hEither
    rcases Bool.or_eq_true_iff.mp hEither with hFrame | hFrame
    · exact absurd (tally_pos hMem hFrame) (by omega)
    · exact absurd (tally_pos hMem hFrame) (by omega)
  apply gather_eq_zero hNone
  intro f hFrame
  cases f <;> first
    | rfl
    | cases hFrame

/-- What is delivered, on its way or waits has tickets of calls that were made. -/
theorem Kept.ticket_lt (hKept : Kept h F) {flying : List (JSCallEntry Call)}
    (hFlying : gather Frame.held F = ↑flying) :
    ∀ ticket ∈ (h.delivered ++ (flying ++ h.m_jsCallQueue)).map Prod.fst, ticket < h.calls.length := by
  intro ticket hMem
  obtain ⟨entry, hEntry, rfl⟩ := List.mem_map.mp hMem
  have hEntries : entry ∈ entries h F := by
    rw [entries, pending, hFlying]
    simp only [List.mem_append] at hEntry
    simp only [Multiset.mem_add, Multiset.mem_coe]
    tauto
  exact (List.getElem?_eq_some_iff.mp (hKept.ticket entry hEntries)).1

theorem pairwise_snoc {entries : List (JSCallEntry Call)} (entry : JSCallEntry Call)
    (hEntries : (entries.map Prod.fst).Pairwise (· < ·))
    (hLess : ∀ ticket ∈ entries.map Prod.fst, ticket < entry.1) :
    ((entries ++ [entry]).map Prod.fst).Pairwise (· < ·) := by
  rw [List.map_append, List.pairwise_append]
  refine ⟨hEntries, List.pairwise_singleton _ _, fun ticket hMem other hOther => ?_⟩
  rw [List.map_cons, List.map_nil, List.mem_singleton] at hOther
  rw [hOther]
  exact hLess ticket hMem

variable {entry : JSCallEntry Call}

/-- The call on its way is the only one, and is the next to be delivered. -/
theorem InOrder.flying_eq (hOrder : InOrder h (frame ::ₘ F)) (hHeld : frame.held = some entry) :
    gather Frame.held F = 0 ∧
      ((h.delivered ++ (entry :: h.m_jsCallQueue)).map Prod.fst).Pairwise (· < ·) := by
  obtain ⟨flying, hFlying, hOne, hSorted⟩ := hOrder.order
  rw [gather_cons_some hHeld] at hFlying
  have hLength := congrArg Multiset.card hFlying
  rw [Multiset.card_cons, Multiset.coe_card] at hLength
  have hNone : gather Frame.held F = 0 := by
    rw [← Multiset.card_eq_zero]
    omega
  rw [hNone, Multiset.cons_zero, ← Multiset.coe_singleton, Multiset.coe_eq_coe] at hFlying
  rw [← List.singleton_perm.mp hFlying] at hSorted
  exact ⟨hNone, hSorted⟩

theorem delivered_sorted {before delivered queue : List (JSCallEntry Call)}
    (hDelivered : delivered = before ++ [entry] ∨ delivered = before)
    (hSorted : ((before ++ (entry :: queue)).map Prod.fst).Pairwise (· < ·)) :
    ((delivered ++ ([] ++ queue)).map Prod.fst).Pairwise (· < ·) := by
  rcases hDelivered with rfl | rfl
  · rwa [List.nil_append, List.append_assoc]
  · apply List.Pairwise.sublist _ hSorted
    apply List.Sublist.map
    exact (List.sublist_cons_self entry queue).append_left _

theorem InOrder.exec (hOrder : InOrder h (frame ::ₘ F)) (hKept : Kept h (frame ::ₘ F))
    (hOrderly : Orderly h frame F) (hEffect : Effect h frame h' calls) :
    InOrder h' (↑calls + F) := by
  obtain ⟨flying, hFlying, hOne, hSorted⟩ := hOrder.order
  have hLate := hOrder.late
  have hAbandoned := hOrder.abandoned
  have hLess := hKept.ticket_lt hFlying
  cases hEffect with
  | ignored call =>
    rw [gather_cons_none rfl] at hFlying
    rw [nil_frames]
    rw [tally_cons_neg rfl] at hAbandoned
    exact ⟨⟨flying, hFlying, hOne, hSorted⟩, hLate, hAbandoned⟩
  | direct call loaded empty =>
    obtain ⟨hTaken, hDirect⟩ := hOrderly loaded empty
    have hNone := gather_eq_zero_of_tally hTaken hDirect
    rw [empty] at hSorted hLess
    rw [gather_cons_none rfl, hNone, eq_comm, Multiset.coe_eq_zero] at hFlying
    subst hFlying
    rw [List.nil_append, List.append_nil] at hSorted hLess
    rw [tally_cons_neg rfl] at hAbandoned
    rw [cons_frames, nil_frames]
    refine ⟨⟨[(h.calls.length, call)], ?_, Nat.le_refl 1, ?_⟩, hLate, ?_⟩
    · have hHeld : (Frame.callFunctionOnModule (h.calls.length, call)).held = some _ := rfl
      rw [gather_cons_some hHeld, hNone]
      rfl
    · simp only [empty, List.append_nil]
      exact pairwise_snoc _ hSorted hLess
    · rwa [tally_cons_neg rfl]
  | waits call full state =>
    rw [gather_cons_none rfl] at hFlying
    rw [nil_frames]
    rw [tally_cons_neg rfl] at hAbandoned
    refine ⟨⟨flying, hFlying, hOne, ?_⟩, hLate, hAbandoned⟩
    have hMore := pairwise_snoc (h.calls.length, call) hSorted hLess
    rwa [List.append_assoc, List.append_assoc] at hMore
  | called entry delivered alive some_ =>
    obtain ⟨hNone, hNext⟩ := InOrder.flying_eq hOrder rfl
    rw [nil_frames]
    rw [tally_cons_neg rfl] at hAbandoned
    exact ⟨⟨[], hNone, Nat.zero_le 1, delivered_sorted some_ hNext⟩, hLate, hAbandoned⟩
  | taken entry rest loaded queue =>
    have hTaken : tally Frame.isTaken F = 0 := by
      have hDrain := hKept.one
      rw [tally_cons_pos rfl] at hDrain
      have hLe : tally Frame.isTaken F ≤ tally Frame.isDrain F := by
        apply tally_le_tally
        intro f hFrame
        cases f <;> first
          | rfl
          | cases hFrame
      omega
    have hDirect : tally Frame.isDirect F = 0 := by
      by_contra hSome
      have hSettled := hKept.direct (by rw [tally_cons_neg rfl]; omega)
      rw [hSettled.1] at queue
      cases queue
    have hNone := gather_eq_zero_of_tally hTaken hDirect
    rw [gather_cons_none rfl, hNone, eq_comm, Multiset.coe_eq_zero] at hFlying
    subst hFlying
    rw [cons_frames, nil_frames]
    refine ⟨⟨[entry], ?_, Nat.le_refl 1, ?_⟩, hLate, fun hGone => ?_⟩
    · have hHeld : (Frame.callEntry entry).held = some entry := rfl
      rw [gather_cons_some hHeld, hNone]
      rfl
    · rwa [queue] at hSorted
    · have hSettled := hKept.abandoned hGone
      rw [hSettled.1] at queue
      cases queue
  | calledEntry entry delivered late alive some_ onTime =>
    obtain ⟨hNone, hNext⟩ := InOrder.flying_eq hOrder rfl
    have hNotAbandoned : h.abandoned = false := by
      by_contra hGone
      have hZero := hAbandoned (Bool.not_eq_false _ ▸ hGone)
      rw [tally_cons_pos rfl] at hZero
      cases hZero
    rw [cons_frames, nil_frames]
    refine ⟨⟨[], ?_, Nat.zero_le 1, delivered_sorted some_ hNext⟩, ?_, fun hGone => ?_⟩
    · rw [gather_cons_none rfl, hNone]
      rfl
    · rw [onTime hNotAbandoned, hLate]
    · rw [hNotAbandoned] at hGone
      cases hGone
  | emptied state =>
    rw [gather_cons_none rfl] at hFlying
    rw [nil_frames]
    refine ⟨⟨flying, hFlying, hOne, ?_⟩, hLate, fun _ => hOrderly state⟩
    apply List.Pairwise.sublist _ hSorted
    apply List.Sublist.map
    exact ((List.nil_sublist h.m_jsCallQueue).append_left flying).append_left h.delivered
  | kept =>
    rw [gather_cons_none rfl] at hFlying
    rw [tally_cons_neg rfl] at hAbandoned
    rw [nil_frames]
    exact ⟨⟨flying, hFlying, hOne, hSorted⟩, hLate, hAbandoned⟩
  | other frame state isLoaded isDestroyed instance_ failed calls hFrame hCalls _ =>
    have hNone := Frame.held_of_isOther hFrame
    have hTaken : ∀ f : Frame Call, f.held = none → f.isTaken = false := by
      intro f hHeld
      cases f <;> first
        | rfl
        | cases hHeld
    rw [gather_cons_none hNone] at hFlying
    rw [tally_cons_neg (hTaken frame hNone)] at hAbandoned
    refine ⟨⟨flying, ?_, hOne, hSorted⟩, hLate, ?_⟩
    · rwa [gather_calls_none hCalls]
    · rwa [tally_calls_neg fun f hMem => hTaken f (hCalls f hMem)]

theorem inOrder :
    Invariant (machine Call) (fun h frame F => Orderly h frame F ∧ Kept h (frame ::ₘ F))
      (Heap.initial Call) InOrder where
  initial := ⟨⟨[], rfl, Nat.zero_le 1, List.Pairwise.nil⟩, rfl, nofun⟩
  start := by
    intro h h' frame F hOrder hStart
    obtain ⟨hCall, rfl⟩ := start_eq_some hStart
    obtain ⟨hHeld, -, -, -, hTaken⟩ := Frame.held_of_isCall hCall
    obtain ⟨hSorted, hLate, hAbandoned⟩ := hOrder
    constructor
    · rwa [gather_cons_none hHeld]
    · exact hLate
    · rwa [tally_cons_neg hTaken]
  exec := by
    intro h frame F choice h' calls forks hOrder hOk hExec
    obtain ⟨rfl, hEffect⟩ := effect_of_exec (Option.some.inj hExec)
    rw [nil_frames]
    exact hOrder.exec hOk.2 hOk.1 hEffect

theorem rank_exec (hExec : exec h frame = .next h' calls forks) :
    forks = [] ∧ 2 * h'.m_jsCallQueue.length + total Frame.rank (calls : Multiset (Frame Call)) <
      2 * h.m_jsCallQueue.length + frame.rank := by
  obtain ⟨rfl, hEffect⟩ := effect_of_exec hExec
  use rfl
  cases hEffect with
  | ignored call => exact Nat.lt_add_of_pos_right (by decide : 0 < 3)
  | direct call loaded empty => exact Nat.add_lt_add_left (by decide : 1 < 3) _
  | waits call full state =>
    simp only [List.length_append, List.length_singleton, Frame.rank, Multiset.coe_nil, total_zero]
    omega
  | called entry delivered alive some_ | calledEntry entry delivered late alive some_ onTime
  | kept => exact Nat.lt_succ_self _
  | taken entry rest loaded queue =>
    simp only [queue, List.length_cons, Frame.rank, Multiset.coe_singleton, total_singleton]
    omega
  | emptied state =>
    simp only [List.length_nil, Frame.rank, Multiset.coe_nil, total_zero]
    omega
  | other frame state isLoaded isDestroyed instance_ failed calls hFrame hCalls hRank =>
    exact Nat.add_lt_add_left hRank _

theorem accepted_of_effect (hEffect : Effect h frame h' calls) : h.accepted <+: h'.accepted := by
  cases hEffect with
  | direct | waits => exact List.prefix_append _ _
  | _ => exact List.prefix_refl _

theorem progress (accepted : List (JSCallEntry Call)) :
    Progress (machine Call) Always (fun h F => Kept h F ∧ accepted <+: h.accepted)
      fun h F => 2 * h.m_jsCallQueue.length + total Frame.rank F where
  go _ := ⟨(), rfl⟩
  crash := by
    intro h frame F choice why
    cases why
  next := by
    rintro h frame F choice h' calls forks ⟨hKept, hPrefix⟩ - hExec
    have hNext := Option.some.inj hExec
    obtain ⟨rfl, hRank⟩ := rank_exec hNext
    use ⟨hKept.exec hNext, hPrefix.trans (accepted_of_effect (effect_of_exec hNext).2)⟩
    rw [nil_frames, total_add, total_cons]
    omega

variable {s : Config (Heap Call) (Frame Call) Empty}

/-- In every order of steps of all threads: the calls that reach the instance are calls that were
made, in the order in which they were made, none of them twice, and none of them that was in the
queue when it was emptied; and if the instance is loaded and did not fail, all calls that were
accepted are delivered. -/
theorem delivered_in_order (hs : Reachable (machine Call) Orderly (Heap.initial Call) s) :
    (s.heap.delivered.map Prod.fst).Pairwise (· < ·) ∧
      (∀ entry ∈ s.heap.delivered, s.heap.calls[entry.1]? = some entry.2) ∧ s.heap.late = [] ∧
      Control.Inevitably (machine Call).Runs
        (fun t => t.Quiet ∧ s.heap.accepted <+: t.heap.accepted ∧
          (t.heap.m_state = .loaded → t.heap.failed = false →
            t.heap.accepted.Perm t.heap.delivered)) s := by
  obtain ⟨hKept, hOrder⟩ := ((kept Orderly).and inOrder).reachable hs
  obtain ⟨flying, -, -, hSorted⟩ := hOrder.order
  rw [List.map_append, List.pairwise_append] at hSorted
  refine ⟨hSorted.1, fun entry hMem => ?_, hOrder.late, ?_⟩
  · apply hKept.ticket
    rw [entries, Multiset.mem_add]
    exact .inl hMem
  · have hNotCrashed : s.crashed = none := by
      cases hCrashed : s.crashed with
      | none => rfl
      | some why => cases why
    have hQuiet := (progress s.heap.accepted).quiet hNotCrashed ⟨hKept, List.prefix_refl _⟩
    apply hQuiet.mono
    rintro t ⟨hDone, hKept, hPrefix⟩
    refine ⟨hDone, hPrefix, fun hLoaded hFailed => ?_⟩
    obtain ⟨-, -, -, -, hAccepted, hDrains⟩ := hKept.alive hFailed
    have hEmpty : t.heap.m_jsCallQueue = [] := by
      by_contra hQueue
      exact absurd (hDrains hLoaded hQueue) (Nat.lt_irrefl 0)
    rw [entries, pending, hEmpty, gather_zero, Multiset.coe_nil, add_zero, add_zero] at hAccepted
    exact Multiset.coe_eq_coe.mp hAccepted

/-- Also when calls overtake others: what is delivered are calls that were made, none of them twice;
one thread drains the queue; and a loaded instance that did not fail gets all calls it accepted. -/
theorem delivered_once (hs : Reachable (machine Call) Always (Heap.initial Call) s) :
    (s.heap.delivered.map Prod.fst).Nodup ∧
      (∀ entry ∈ s.heap.delivered, s.heap.calls[entry.1]? = some entry.2) ∧
      tally Frame.isDrain s.frames ≤ 1 ∧
      (s.Quiet → s.heap.m_state = .loaded → s.heap.failed = false →
        s.heap.accepted.Perm s.heap.delivered) := by
  have hKept := (kept Always).reachable hs
  have hDistinct := hKept.distinct
  rw [entries, Multiset.map_add] at hDistinct
  refine ⟨?_, fun entry hMem => ?_, hKept.one, fun hQuiet hLoaded hFailed => ?_⟩
  · exact Multiset.coe_nodup.mp (Multiset.nodup_add.mp hDistinct).1
  · apply hKept.ticket
    rw [entries, Multiset.mem_add]
    exact .inl hMem
  · obtain ⟨-, -, -, -, hAccepted, hDrains⟩ := hKept.alive hFailed
    rw [Config.quiet_frames hQuiet] at hAccepted hDrains
    have hEmpty : s.heap.m_jsCallQueue = [] := by
      by_contra hQueue
      exact absurd (hDrains hLoaded hQueue) (Nat.lt_irrefl 0)
    rw [entries, pending, hEmpty, gather_zero, Multiset.coe_nil, add_zero, add_zero] at hAccepted
    exact Multiset.coe_eq_coe.mp hAccepted

/-- Two calls are made while the instance loads; both are delivered, in their order. -/
theorem loading_calls_delivered :
    ∃ s, Reachable (machine ℕ) Orderly (Heap.initial ℕ) s ∧
      s.heap.delivered.map Prod.snd = [10, 20] ∧ (s.heap.delivered.map Prod.fst).Pairwise (· < ·) := by
  obtain ⟨s, hs, hDelivered⟩ : ∃ s, Reachable (machine ℕ) Orderly (Heap.initial ℕ) s ∧
      s.heap.delivered.map Prod.snd = [10, 20] := exists_reachable _
    [.call (.callJsFunction 10), .run 0 (), .call (.callJsFunction 20), .run 1 (),
      .call .bundleLoaded, .run 2 (), .run 2 (), .run 2 (), .run 2 (), .run 2 (), .run 2 (), .run 2 ()]
    (by decide)
  exact ⟨s, hs, hDelivered, (delivered_in_order hs).1⟩

/-- Three calls: one waits until the instance is loaded, another one overtakes it, and a third one is
made at once. -/
theorem call_delivered_once : ∃ s : Config (Heap ℕ) (Frame ℕ) Empty,
    s.heap.delivered.map Prod.snd = [20, 10, 30] ∧ (s.heap.delivered.map Prod.fst).Nodup ∧
      s.heap.accepted.Perm s.heap.delivered := by
  obtain ⟨s, hs, hDelivered, hQuiet, hLoaded, hFailed⟩ :
      ∃ s, Reachable (machine ℕ) Always (Heap.initial ℕ) s ∧
        s.heap.delivered.map Prod.snd = [20, 10, 30] ∧ s.Quiet ∧ s.heap.m_state = .loaded ∧
          s.heap.failed = false := exists_reachable _
    [.call (.callJsFunction 10), .run 0 (), .call .bundleLoaded, .run 1 (), .run 1 (), .run 1 (),
      .run 1 (), .call (.callJsFunction 20), .run 2 (), .run 2 (), .run 1 (), .run 1 (),
      .call (.callJsFunction 30), .run 3 (), .run 3 ()]
    (by decide)
  obtain ⟨hNodup, -, -, hAll⟩ := delivered_once hs
  exact ⟨s, hDelivered, hNodup, hAll hQuiet hLoaded hFailed⟩

/-- The last call that waited is taken out of the queue, and before it is made another thread makes a
call that finds the queue empty; or the instance is destroyed first. -/
theorem overtaken_and_late :
    (∃ s, Reachable (machine ℕ) Always (Heap.initial ℕ) s ∧ s.heap.calls = [10, 20] ∧
      s.heap.delivered.map Prod.snd = [20, 10]) ∧
    ∃ s, Reachable (machine ℕ) Always (Heap.initial ℕ) s ∧ s.heap.late.map Prod.snd = [10] := by
  constructor
  · exact exists_reachable _
      [.call (.callJsFunction 10), .run 0 (), .call .bundleLoaded, .run 1 (), .run 1 (), .run 1 (),
        .run 1 (), .call (.callJsFunction 20), .run 2 (), .run 2 (), .run 1 ()]
      (by decide)
  · exact exists_reachable _
      [.call (.callJsFunction 10), .run 0 (), .call .bundleLoaded, .run 1 (), .run 1 (), .run 1 (),
        .run 1 (), .call .destroy, .run 2 (), .run 2 (), .run 2 (), .run 1 ()]
      (by decide)

end ReactHost.JSCallQueue
