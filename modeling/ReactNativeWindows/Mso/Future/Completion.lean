import ReactNativeWindows.Mso.Future.FutureEffects

/-! How futures are completed, for clients that call any method on any future from
any thread. -/
namespace Mso.Futures

open Concurrency

universe u v

variable {FutureId : Type u} {ErrorCode : Type v}

namespace FutureState

def beforeInvoke : FutureState → Bool
  | pending | posting | posted => true
  | _ => false

def isMultiPost : FutureState → Bool
  | pending | settingResult | succeeded | failed => true
  | _ => false

def isSettingResult : FutureState → Bool
  | settingResult => true
  | _ => false

variable {state : FutureState}

theorem eq_settingResult (h : state.isSettingResult = true) : state = settingResult := by
  cases state <;> first | rfl | cases h

/-- States before the invocation are left for good, and only they lead to it. -/
theorem beforeInvoke_of_transition {next : FutureState} (h : state.transition next = true) :
    (if next = invoking then 1 else 0) + next.beforeInvoke.toNat ≤ state.beforeInvoke.toNat := by
  cases state <;> cases next <;> first | decide | cases h

theorem isMultiPost_of_transition {next : FutureState} (h : state.transition next = true)
    (hMulti : state.isMultiPost = true) (hNext : next ≠ posting) : next.isMultiPost = true := by
  cases state <;> cases next <;>
    first | rfl | exact absurd rfl hNext | exact absurd h (by decide) | exact absurd hMulti (by decide)

theorem multiPostTransition_of_transition {next : FutureState} (h : state.transition next = true)
    (hMulti : state.isMultiPost = true) (hNext : next.isMultiPost = true) :
    state.multiPostTransition next = true := by
  cases state <;> cases next <;>
    first | rfl | exact absurd h (by decide) | exact absurd hMulti (by decide) |
      exact absurd hNext (by decide)

end FutureState

namespace Method

def isTryPostInternal : Method FutureId ErrorCode → Bool
  | tryPostInternal _ _ => true
  | _ => false

variable {method : Method FutureId ErrorCode}

theorem isTryPostInternal_of_target (h : method.target = .posting) :
    method.isTryPostInternal = true := by
  cases method <;> first | rfl | cases h

@[simp] theorem isTryPostInternal_again (method : Method FutureId ErrorCode) :
    method.again.isTryPostInternal = method.isTryPostInternal := by
  cases method <;> rfl

def isSetFailed : Method FutureId ErrorCode → Bool
  | setFailed => true
  | _ => false

theorem newContinuation_eq_invoked {continuation : Continuation FutureId}
    (hOpen : continuation ≠ .invoked) (hInvoked : method.newContinuation continuation = .invoked) :
    method.target.isDone = true := by
  cases method with
  | trySetSuccess | setFailed => rfl
  | trySetInvoking | tryStartSetValue | startAwaiting | tryStartSetError | trySetPosted
  | tryPostInternal => exact absurd hInvoked hOpen

@[simp] theorem isSetFailed_again (method : Method FutureId ErrorCode) :
    method.again.isSetFailed = method.isSetFailed := by
  cases method <;> rfl

end Method

def MadeTraits.diagram (traits : MadeTraits) (state next : FutureState) : Bool :=
  if traits.options.isMultiPost then state.multiPostTransition next else state.transition next

namespace Event
variable [DecidableEq FutureId]

def isReturnTrue (p : FutureId) : Event FutureId ErrorCode → Bool
  | returnTrue q => decide (q = p)
  | _ => false

def isInvoke (p : FutureId) : Event FutureId ErrorCode → Bool
  | invoke q _ => decide (q = p)
  | _ => false

end Event

namespace Frame

def completes [DecidableEq FutureId] (p : FutureId) : Frame FutureId ErrorCode → Bool
  | succeeded q _ | failed q _ | returnTrue q => decide (q = p)
  | _ => false

/-- Frames of `TrySetError` between `TryStartSetError` and the exchange of `SetFailed`. -/
def setsError [DecidableEq FutureId] (p : FutureId) : Frame FutureId ErrorCode → Bool
  | errorStarted q _ => decide (q = p)
  | call method q _ | exchange method q _ _ => method.isSetFailed && decide (q = p)
  | _ => false

def inSetFailed : Frame FutureId ErrorCode → Bool
  | call method _ _ | exchange method _ _ _ => method.isSetFailed
  | failed _ _ => true
  | _ => false

/-- An exchange goes along an arrow of the diagram, only ordinary futures are
posted, and nobody takes the placeholder for a continuation. -/
def Sound (traits : FutureId → MadeTraits) : Frame FutureId ErrorCode → Prop
  | call method p _ =>
    method.isTryPostInternal = true → (traits p).options.isMultiPost = false
  | exchange method p isSynchronous data =>
    (∃ linked, (traits p).attempt isSynchronous linked method data.state = .exchange) ∧
      (method.isTryPostInternal = true → (traits p).options.isMultiPost = false)
  | succeeded _ continuation | failed _ continuation => continuation ≠ .invoked
  | _ => True

end Frame

/-- A future that was completed once returned true to one call, and its task was
invoked at most once, only after the states before. -/
structure Completion [DecidableEq FutureId] (traits : FutureId → MadeTraits)
    (h : Heap FutureId ErrorCode) (F : Multiset (Frame FutureId ErrorCode)) : Prop where
  sound : ∀ f ∈ F, f.Sound traits
  invoked : ∀ p, (h.futures p).data.continuation = .invoked →
    (h.futures p).data.state.isDone = true
  multiPost : ∀ p, (traits p).options.isMultiPost = true →
    (h.futures p).data.state.isMultiPost = true
  completed : ∀ p, h.events.countP (Event.isReturnTrue p) + tally (Frame.completes p) F =
    (h.futures p).data.state.isDone.toNat
  invokedOnce : ∀ p, h.events.countP (Event.isInvoke p) +
    (h.futures p).data.state.beforeInvoke.toNat ≤ 1

namespace Completion
variable [DecidableEq FutureId] {traits : FutureId → MadeTraits}
  {h h' : Heap FutureId ErrorCode} {frame : Frame FutureId ErrorCode}
  {calls : List (Frame FutureId ErrorCode)} {F : Multiset (Frame FutureId ErrorCode)}

theorem initial : Completion traits (Heap.initial : Heap FutureId ErrorCode) 0 where
  sound _ hMem := absurd hMem (Multiset.notMem_zero _)
  invoked _ hInvoked := by cases hInvoked
  multiPost _ _ := rfl
  completed _ := rfl
  invokedOnce _ := Nat.le_refl 1

theorem sound_calls (hInv : Completion traits h (frame ::ₘ F))
    (hCalls : ∀ f ∈ calls, f.Sound traits) : ∀ f ∈ ↑calls + F, f.Sound traits := by
  intro f hMem
  rw [Multiset.mem_add, Multiset.mem_coe] at hMem
  rcases hMem with hMem | hMem
  · exact hCalls f hMem
  · exact hInv.sound f (Multiset.mem_cons_of_mem hMem)

/-- A step that leaves all states alone. -/
theorem step (hInv : Completion traits h (frame ::ₘ F))
    (hState : ∀ q, (h'.futures q).data.state = (h.futures q).data.state)
    (hContinuation : ∀ q, (h'.futures q).data.continuation = .invoked →
      (h.futures q).data.continuation = .invoked ∨ (h.futures q).data.state.isDone = true)
    (hSound : ∀ f ∈ calls, f.Sound traits)
    (hReturns : ∀ q, h'.events.countP (Event.isReturnTrue q) +
      tally (Frame.completes q) (↑calls + F : Multiset (Frame FutureId ErrorCode)) =
        h.events.countP (Event.isReturnTrue q) + tally (Frame.completes q) (frame ::ₘ F))
    (hInvokes : ∀ q, h'.events.countP (Event.isInvoke q) = h.events.countP (Event.isInvoke q)) :
    Completion traits h' (↑calls + F) where
  sound := hInv.sound_calls hSound
  invoked q hInvoked := by
    rw [hState q]
    exact (hContinuation q hInvoked).elim (hInv.invoked q) id
  multiPost q := by
    rw [hState q]
    exact hInv.multiPost q
  completed q := by
    rw [hState q, hReturns q]
    exact hInv.completed q
  invokedOnce q := by
    rw [hState q, hInvokes q]
    exact hInv.invokedOnce q

variable {method : Method FutureId ErrorCode} {isSynchronous : Bool}

/-- A successful compare-exchange, and nothing else on packed words. -/
theorem exchange {p : FutureId}
    (hInv : Completion traits h (.exchange method p isSynchronous (h.futures p).data ::ₘ F))
    (hSelf : (h'.futures p).data =
      ⟨method.target, method.newContinuation (h.futures p).data.continuation⟩)
    (hOthers : ∀ q ≠ p, (h'.futures q).data = (h.futures q).data)
    (hSound : ∀ f ∈ calls, f.Sound traits)
    (hReturns : ∀ q, h'.events.countP (Event.isReturnTrue q) +
      tally (Frame.completes q) (↑calls + F : Multiset (Frame FutureId ErrorCode)) =
        h.events.countP (Event.isReturnTrue q) + tally (Frame.completes q) F +
          if q = p then method.target.isDone.toNat else 0)
    (hInvokes : ∀ q, h'.events.countP (Event.isInvoke q) = h.events.countP (Event.isInvoke q) +
      if q = p ∧ method.target = .invoking then 1 else 0) : Completion traits h' (↑calls + F) := by
  obtain ⟨⟨linked, hAttempt⟩, hOrdinary⟩ := hInv.sound _ (Multiset.mem_cons_self ..)
  have hArrow := attempt_transition hAttempt
  have hOpen := not_isDone_of_transition hArrow
  constructor
  case sound => exact hInv.sound_calls hSound
  case invoked =>
    intro q hInvoked
    by_cases hSame : q = p
    · subst hSame
      rw [hSelf] at hInvoked ⊢
      refine Method.newContinuation_eq_invoked (fun hOld => ?_) hInvoked
      rw [hInv.invoked q hOld] at hOpen
      cases hOpen
    · rw [hOthers q hSame] at hInvoked ⊢
      exact hInv.invoked q hInvoked
  case multiPost =>
    intro q hMulti
    by_cases hSame : q = p
    · subst hSame
      rw [hSelf]
      refine FutureState.isMultiPost_of_transition hArrow (hInv.multiPost q hMulti) fun hPosting => ?_
      rw [hOrdinary (Method.isTryPostInternal_of_target hPosting)] at hMulti
      cases hMulti
    · rw [hOthers q hSame]
      exact hInv.multiPost q hMulti
  case completed =>
    intro q
    have hCompleted := hInv.completed q
    rw [tally_cons_neg rfl] at hCompleted
    rw [hReturns q, hCompleted]
    by_cases hSame : q = p
    · subst hSame
      rw [if_pos rfl, hSelf, hOpen]
      exact Nat.zero_add _
    · rw [if_neg hSame, hOthers q hSame, Nat.add_zero]
  case invokedOnce =>
    intro q
    have hOnce := hInv.invokedOnce q
    rw [hInvokes q]
    by_cases hSame : q = p
    · subst hSame
      have hLeft := FutureState.beforeInvoke_of_transition hArrow
      simp only [hSelf, true_and]
      omega
    · rw [if_neg (fun hBoth => hSame hBoth.1), hOthers q hSame]
      exact hOnce

omit [DecidableEq FutureId] in
theorem sound_startTask (p : FutureId) :
    ∀ f ∈ (startTask traits p : List (Frame FutureId ErrorCode)), f.Sound traits := by
  intro f hMem
  simp only [startTask] at hMem
  split at hMem <;> simp only [List.mem_cons, List.not_mem_nil, or_false] at hMem
  · rcases hMem with rfl | rfl
    · trivial
    · exact fun hPost => by cases hPost
  · subst hMem
    exact fun hPost => by cases hPost

theorem not_completes_startTask (p q : FutureId) :
    ∀ f ∈ (startTask traits p : List (Frame FutureId ErrorCode)), f.completes q = false := by
  intro f hMem
  simp only [startTask] at hMem
  split at hMem <;> simp only [List.mem_cons, List.not_mem_nil, or_false] at hMem
  · rcases hMem with rfl | rfl <;> rfl
  · subst hMem
    rfl

theorem afterExchange {p : FutureId}
    (hInv : Completion traits h (.exchange method p isSynchronous (h.futures p).data ::ₘ F))
    (hAfter : AfterExchange traits (h.setData p
      ⟨method.target, method.newContinuation (h.futures p).data.continuation⟩)
      p isSynchronous (h.futures p).data.continuation method h' calls) :
    Completion traits h' (↑calls + F) := by
  have hOthers : ∀ data, ∀ q ≠ p, ((h.setData p data).futures q).data = (h.futures q).data :=
    fun data q hNe => h.setData_data_of_ne data hNe
  have hOpen : (h.futures p).data.continuation ≠ .invoked := by
    intro hInvoked
    obtain ⟨⟨linked, hAttempt⟩, -⟩ := hInv.sound _ (Multiset.mem_cons_self ..)
    have hState := not_isDone_of_transition (attempt_transition hAttempt)
    rw [hInv.invoked p hInvoked] at hState
    cases hState
  cases hAfter with
  | invokeTask hNone hTask =>
    refine hInv.exchange (by simp) (by simpa using hOthers _) (by simp [Frame.Sound]) ?_ ?_
    · simp [tally_cons, Frame.completes, Event.isReturnTrue, Method.target, FutureState.isDone]
    · simp [Event.isInvoke, Method.target, List.countP_cons, eq_comm]
  | invokeParentValue hNone hTask | invokeError hError =>
    refine hInv.exchange (by simp) (by simpa using hOthers _)
      (by simp [Frame.Sound, Method.isTryPostInternal]) ?_ ?_
    · simp [tally_cons, Frame.completes, Event.isReturnTrue, Method.target, FutureState.isDone]
    · simp [Event.isInvoke, Method.target, List.countP_cons, eq_comm]
  | invokeCatch hError hTaken =>
    rcases hTaken with rfl | rfl
    all_goals
      refine hInv.exchange (by simp) (by simpa using hOthers _) (by simp [Frame.Sound]) ?_ ?_
      · simp [tally_cons, Frame.completes, Event.isReturnTrue, Method.target, FutureState.isDone]
      · simp [Event.isInvoke, Method.target, List.countP_cons, eq_comm]
  | startValue =>
    refine hInv.exchange (by simp) (hOthers _)
      (by simp [Frame.Sound, Method.isTryPostInternal]) ?_ ?_
    · simp [tally_cons, Frame.completes, Method.target, FutureState.isDone]
    · simp [Method.target]
  | startAwaiting | setPosted =>
    refine hInv.exchange (by simp) (hOthers _) (by simp) ?_ ?_
    · simp [Method.target, FutureState.isDone]
    · simp [Method.target]
  | succeed =>
    refine hInv.exchange (by simp) (hOthers _) (by simpa [Frame.Sound] using hOpen) ?_ ?_
    · intro q
      by_cases hSame : p = q <;>
        simp [tally_cons, Frame.completes, Method.target, FutureState.isDone, hSame, eq_comm,
          Nat.add_assoc]
    · simp [Method.target]
  | startError =>
    refine hInv.exchange (by simp) (hOthers _) (by simp [Frame.Sound]) ?_ ?_
    · simp [tally_cons, Frame.completes, Method.target, FutureState.isDone]
    · simp [Method.target]
  | fail =>
    refine hInv.exchange (by simp) (by simpa using hOthers _) (by simpa [Frame.Sound] using hOpen)
      ?_ ?_
    · intro q
      by_cases hSame : p = q <;>
        simp [tally_cons, Frame.completes, Event.isReturnTrue, Method.target, FutureState.isDone,
          hSame, eq_comm, Nat.add_assoc]
    · simp [Event.isInvoke, Method.target]
  | post hLink =>
    refine hInv.exchange (by simp) (by simpa using hOthers _) (sound_startTask p) ?_ ?_
    · intro q
      rw [tally_calls_neg (not_completes_startTask p q)]
      simp [Event.isReturnTrue, Method.target, FutureState.isDone]
    · simp [Event.isInvoke, Method.target]
  | postLinked hParent | postFailed hParent hCatch =>
    refine hInv.exchange (by simp) (by simpa using hOthers _) ?_ ?_ ?_
    · exact List.forall_mem_append.mpr ⟨sound_startTask p, by simp [Frame.Sound]⟩
    · intro q
      rw [← Multiset.coe_add, add_assoc, tally_calls_neg (not_completes_startTask p q)]
      simp [tally_cons, Frame.completes, Event.isReturnTrue, Method.target, FutureState.isDone]
    · simp [Event.isInvoke, Method.target]

variable {client : Heap FutureId ErrorCode → Frame FutureId ErrorCode → Bool}

/-- A client starts calls that are sound, and completes nothing by starting them. -/
theorem startCall {current parentError : Option FutureId} {call : Frame FutureId ErrorCode}
    {F : Multiset (Frame FutureId ErrorCode)} (hInv : Completion traits h F)
    (hStart : startCall client current parentError h call = some h') :
    Completion traits h' (call ::ₘ F) := by
  obtain ⟨hCall, -, hCases⟩ := startCall_cases hStart
  have hSound : call.Sound traits := by
    cases call with
    | call method p isSynchronous =>
      intro hPost
      cases method <;> first | (simp [Frame.isCall] at hCall; done) | cases hPost
    | addContinuation | tryPostInternal | errorStarted | returnTrue | postContinuation | taskPost
    | taskInvoke | taskCatch | addContinuationExchange => trivial
    | exchange | succeeded | failed => cases hCall
  have hCompletes : ∀ q, call.completes q = false := by
    intro q
    cases call <;> first | rfl | cases hCall
  have hEvents : ∀ q, h'.events.countP (Event.isReturnTrue q) =
      h.events.countP (Event.isReturnTrue q) ∧
      h'.events.countP (Event.isInvoke q) = h.events.countP (Event.isInvoke q) := by
    intro q
    rcases hCases with ⟨p, c, -, rfl⟩ | ⟨-, rfl⟩ <;> simp [Event.isReturnTrue, Event.isInvoke]
  have hFutures : h'.futures = h.futures := by
    rcases hCases with ⟨p, c, -, rfl⟩ | ⟨-, rfl⟩ <;> rfl
  constructor
  case sound =>
    intro f hMem
    rcases Multiset.mem_cons.mp hMem with rfl | hMem
    · exact hSound
    · exact hInv.sound f hMem
  case invoked => simpa only [hFutures] using hInv.invoked
  case multiPost => simpa only [hFutures] using hInv.multiPost
  case completed =>
    intro q
    rw [tally_cons_neg (hCompletes q), (hEvents q).1, hFutures]
    exact hInv.completed q
  case invokedOnce =>
    intro q
    rw [(hEvents q).2, hFutures]
    exact hInv.invokedOnce q

variable [DecidableEq ErrorCode]

theorem moveError_data (futureError : ErrorRef FutureId ErrorCode) (p q : FutureId) :
    ((moveError h p futureError).futures q).data = (h.futures q).data ∧
      (moveError h p futureError).events = h.events := by
  cases futureError with
  | value error => simp [moveError]
  | errorOf r =>
    simp only [moveError]
    split <;> simp

theorem effect (hInv : Completion traits h (frame ::ₘ F))
    (hEffect : Effect traits client h frame h' calls) : Completion traits h' (↑calls + F) := by
  have hFrameSound := hInv.sound _ (Multiset.mem_cons_self ..)
  cases hEffect with
  | exchange hAfter => exact hInv.afterExchange hAfter
  | load hFrame hAttempt =>
    refine hInv.step (fun _ => rfl) (fun _ => .inl) ?_ ?_ (fun _ => rfl)
    · simp only [List.forall_mem_singleton, Frame.Sound]
      refine ⟨⟨_, hAttempt⟩, ?_⟩
      cases hFrame with
      | call => exact hFrameSound
      | exchange data => exact hFrameSound.2
    · cases hFrame <;> simp [tally_cons, Frame.completes]
  | wait hFrame hAttempt =>
    refine hInv.step (fun _ => rfl) (fun _ => .inl) ?_ ?_ (fun _ => rfl)
    · simp only [List.forall_mem_singleton, Frame.Sound, Method.isTryPostInternal_again]
      cases hFrame with
      | call => exact hFrameSound
      | exchange data => exact hFrameSound.2
    · cases hFrame <;> simp [tally_cons, Frame.completes]
  | returnFalse hFrame hAttempt =>
    refine hInv.step (fun _ => rfl) (fun _ => .inl) (by simp) ?_ (fun _ => rfl)
    cases hFrame <;> simp [tally_cons, Frame.completes]
  | link hFrame =>
    refine hInv.step (by simp) (by simpa using fun _ => Or.inl) (by simp [Frame.Sound]) ?_ (by simp)
    cases hFrame <;> simp [tally_cons, Frame.completes]
  | @addDone p c hDone hLink =>
    refine hInv.step (fun q => ?_) (fun q => ?_) (by simp [Frame.Sound]) ?_ (fun _ => rfl)
    · by_cases hSame : q = p
      · simp [hSame]
      · rw [h.setData_data_of_ne _ hSame]
    · by_cases hSame : q = p
      · simp [hSame, hDone]
      · rw [h.setData_data_of_ne _ hSame]
        exact .inl
    · simp [tally_cons, Frame.completes]
  | @add p c hOpen =>
    refine hInv.step (fun q => ?_) (fun q => ?_) (by simp) ?_ (fun _ => rfl)
    · by_cases hSame : q = p
      · simp [hSame]
      · rw [h.setData_data_of_ne _ hSame]
    · by_cases hSame : q = p
      · simp [hSame]
      · rw [h.setData_data_of_ne _ hSame]
        exact .inl
    · simp [tally_cons, Frame.completes]
  | @succeeded p continuation hOpen =>
    have hSame : ∀ q, ((if (traits p).options.useParentValue then h
        else h.setLink p none).futures q).data = (h.futures q).data := by
      intro q
      split <;> simp
    have hEvents : (if (traits p).options.useParentValue then h else h.setLink p none).events =
        h.events := by
      split <;> simp
    refine hInv.step (by simp [hSame]) (by simpa [hSame] using fun _ => Or.inl)
      (by simp [Frame.Sound]) ?_ (by simp [hEvents])
    simp [tally_cons, Frame.completes, hEvents]
  | @errorStarted p futureError =>
    have hSame := moveError_data (h := h) futureError p
    refine hInv.step (by simp [hSame]) (by simpa [hSame] using fun _ => Or.inl)
      (by simp [Frame.Sound, Method.isTryPostInternal]) ?_ (fun q => by rw [(hSame q).2])
    intro q
    rw [(hSame q).2]
    simp [tally_cons, Frame.completes]
  | failed hOpen =>
    refine hInv.step (by simp) (by simpa using fun _ => Or.inl) (by simp [Frame.Sound]) ?_ (by simp)
    simp [tally_cons, Frame.completes]
  | @returnTrue p =>
    refine hInv.step (fun _ => rfl) (fun _ => .inl) (by simp) ?_ (by simp [Event.isInvoke])
    intro q
    by_cases hSame : p = q
    · simp only [nil_frames, Heap.log_events, List.countP_cons, tally_cons, Frame.completes,
        Event.isReturnTrue, hSame, decide_true, if_true, Bool.toNat_true]
      omega
    · simp [tally_cons, Frame.completes, Event.isReturnTrue, hSame]
  | postNone =>
    exact hInv.step (fun _ => rfl) (fun _ => .inl) (by simp)
      (by simp [tally_cons, Frame.completes]) (fun _ => rfl)
  | postContinuation | multiPostSucceeded hMulti hParent | multiPostFailed hMulti hParent =>
    exact hInv.step (fun _ => rfl) (fun _ => .inl) (by simp [Frame.Sound])
      (by simp [tally_cons, Frame.completes, Event.isReturnTrue]) (by simp [Event.isInvoke])
  | tryPostInternal hOrdinary =>
    exact hInv.step (fun _ => rfl) (fun _ => .inl) (by simp [Frame.Sound, hOrdinary])
      (by simp [tally_cons, Frame.completes]) (fun _ => rfl)
  | callbackReturns hFrame =>
    have hCompletes : ∀ q, frame.completes q = false := by
      cases frame <;> first | exact fun _ => rfl | cases hFrame
    refine hInv.step (fun _ => rfl) (fun _ => .inl) (by simp) (fun q => ?_) (fun _ => rfl)
    rw [nil_frames, tally_cons_neg (hCompletes q)]
  | callbackCalls hFrame hStart =>
    simpa using hInv.startCall hStart

/-- A future moves only along the arrows of its state diagram. -/
theorem effect_state (hInv : Completion traits h (frame ::ₘ F))
    (hEffect : Effect traits client h frame h' calls) (q : FutureId) :
    (h'.futures q).data.state = (h.futures q).data.state ∨
      (traits q).diagram (h.futures q).data.state (h'.futures q).data.state = true := by
  cases hEffect with
  | @exchange method p isSynchronous _ _ hAfter =>
    have hAfterInv := hInv.afterExchange hAfter
    obtain ⟨⟨linked, hAttempt⟩, -⟩ := hInv.sound _ (Multiset.mem_cons_self ..)
    have hArrow := attempt_transition hAttempt
    have hData := hAfter.data q
    by_cases hSame : q = p
    · subst hSame
      rw [Heap.setData_data_self] at hData
      refine .inr ?_
      rw [MadeTraits.diagram]
      split
      · rename_i hMulti
        refine FutureState.multiPostTransition_of_transition ?_ (hInv.multiPost q hMulti)
          (hAfterInv.multiPost q hMulti)
        rw [hData]
        exact hArrow
      · rw [hData]
        exact hArrow
    · rw [hData, h.setData_data_of_ne _ hSame]
      exact .inl rfl
  | @addDone p c | @add p c =>
    by_cases hSame : q = p
    · simp [hSame]
    · rw [h.setData_data_of_ne _ hSame]
      exact .inl rfl
  | callbackCalls hFrame hStart =>
    obtain ⟨-, -, ⟨p, c, -, rfl⟩ | ⟨-, rfl⟩⟩ := startCall_cases hStart <;> exact .inl rfl
  | succeeded hOpen =>
    split <;> simp
  | @errorStarted p futureError => simp [moveError_data (h := h) futureError p q]
  | load | wait | returnFalse | link | failed | returnTrue | postNone | postContinuation
  | multiPostSucceeded | multiPostFailed | tryPostInternal | callbackReturns => simp

end Completion

/-- No `TrySetSuccess` completes a future whose result another thread is setting to
an error: it would find the state SettingResult of that thread, not of its own. -/
def SuccessNotStolen [DecidableEq FutureId] (h : Heap FutureId ErrorCode)
    (frame : Frame FutureId ErrorCode) (F : Multiset (Frame FutureId ErrorCode)) : Prop :=
  match frame with
  | .exchange (.trySetSuccess _) p _ data =>
    (h.futures p).data = data → data.state = .settingResult → tally (Frame.setsError p) F = 0
  | _ => True

instance [DecidableEq FutureId] (h : Heap FutureId ErrorCode) (frame : Frame FutureId ErrorCode)
    (F : Multiset (Frame FutureId ErrorCode)) : Decidable (SuccessNotStolen h frame F) := by
  unfold SuccessNotStolen
  split <;> infer_instance

/-- At most one call sets the result of a future to an error, and only in the states
that `owner` allows. -/
def ErrorOwned [DecidableEq FutureId] (owner : FutureState → Bool) (h : Heap FutureId ErrorCode)
    (F : Multiset (Frame FutureId ErrorCode)) : Prop :=
  ∀ p, tally (Frame.setsError p) F ≤ (owner (h.futures p).data.state).toNat

namespace ErrorOwned
variable [DecidableEq FutureId] {traits : FutureId → MadeTraits} {owner : FutureState → Bool}
  {h h' : Heap FutureId ErrorCode} {frame : Frame FutureId ErrorCode}
  {calls : List (Frame FutureId ErrorCode)} {F : Multiset (Frame FutureId ErrorCode)}
  {client : Heap FutureId ErrorCode → Frame FutureId ErrorCode → Bool}

theorem step (hOwned : ErrorOwned owner h (frame ::ₘ F))
    (hState : ∀ q, (h'.futures q).data.state = (h.futures q).data.state)
    (hTally : ∀ q, tally (Frame.setsError q) (↑calls + F : Multiset (Frame FutureId ErrorCode)) ≤
      tally (Frame.setsError q) (frame ::ₘ F)) : ErrorOwned owner h' (↑calls + F) := by
  intro q
  rw [hState q]
  exact (hTally q).trans (hOwned q)

theorem not_setsError_startTask (p q : FutureId) :
    ∀ f ∈ (startTask traits p : List (Frame FutureId ErrorCode)), f.setsError q = false := by
  intro f hMem
  simp only [startTask] at hMem
  split at hMem <;> simp only [List.mem_cons, List.not_mem_nil, or_false] at hMem
  · rcases hMem with rfl | rfl <;> rfl
  · subst hMem
    rfl

variable {method : Method FutureId ErrorCode} {isSynchronous : Bool}

/-- What a successful exchange leaves for others: only `TryStartSetError` hands on
an error to set, on the future that it exchanged. -/
theorem tally_afterExchange {p : FutureId} {continuation : Continuation FutureId}
    (hAfter : AfterExchange traits h p isSynchronous continuation method h' calls)
    (F : Multiset (Frame FutureId ErrorCode)) (q : FutureId) :
    tally (Frame.setsError q) (↑calls + F : Multiset (Frame FutureId ErrorCode)) =
      tally (Frame.setsError q) F ∨
    q = p ∧ method.target = .settingResult ∧
      tally (Frame.setsError q) (↑calls + F : Multiset (Frame FutureId ErrorCode)) =
        tally (Frame.setsError q) F + 1 := by
  cases hAfter with
  | startError =>
    by_cases hSame : p = q
    · exact .inr ⟨hSame.symm, rfl, by simp [tally_cons, Frame.setsError, hSame]⟩
    · exact .inl (by simp [tally_cons, Frame.setsError, hSame])
  | post hLink => exact .inl (tally_calls_neg (not_setsError_startTask p q) F)
  | postLinked | postFailed =>
    refine .inl ?_
    rw [← Multiset.coe_add, add_assoc, tally_calls_neg (not_setsError_startTask p q)]
    simp [tally_cons, Frame.setsError]
  | invokeTask | invokeParentValue | invokeCatch | invokeError | startValue | startAwaiting
  | succeed | fail | setPosted =>
    exact .inl (by simp [tally_cons, Frame.setsError, Method.isSetFailed])

variable {call : Frame FutureId ErrorCode}

theorem not_setsError_call {current parentError : Option FutureId}
    (hCall : call.isCall current parentError = true) (q : FutureId) : call.setsError q = false := by
  cases call with
  | call method p isSynchronous =>
    cases method <;> first | rfl | simp [Frame.isCall] at hCall
  | addContinuation | tryPostInternal | returnTrue | postContinuation | taskPost | taskInvoke
  | taskCatch | addContinuationExchange | succeeded | failed => rfl
  | exchange | errorStarted => cases hCall

theorem exchange {p : FutureId}
    (hOwned : ErrorOwned owner h (.exchange method p isSynchronous (h.futures p).data ::ₘ F))
    (hSetting : owner .settingResult = true)
    (hOnly : ∀ state, owner state = true → state = .settingResult ∨ state.isDone = true)
    (hArrow : (h.futures p).data.state.transition method.target = true)
    (hOk : owner .succeeded = true ∨
      SuccessNotStolen h (.exchange method p isSynchronous (h.futures p).data) F)
    (hAfter : AfterExchange traits (h.setData p
      ⟨method.target, method.newContinuation (h.futures p).data.continuation⟩)
      p isSynchronous (h.futures p).data.continuation method h' calls) :
    ErrorOwned owner h' (↑calls + F) := by
  intro q
  have hBefore := hOwned q
  rw [tally_cons] at hBefore
  by_cases hSame : q = p
  · subst hSame
    -- The state SettingResult is left only by `SetFailed`, which is the one setter of
    -- an error then, and by `TrySetSuccess`, which meets none or leads to an owner.
    have hNone : tally (Frame.setsError q) F = 0 ∨
        tally (Frame.setsError q) F ≤ 1 ∧ owner method.target = true ∧ method.target.isDone = true := by
      by_cases hState : (h.futures q).data.state = .settingResult
      · rw [hState] at hArrow
        rw [hState, hSetting, Bool.toNat_true] at hBefore
        cases method with
        | trySetSuccess crashIfFailed =>
          rcases hOk with hSucceeded | hNotStolen
          · exact .inr ⟨by omega, hSucceeded, rfl⟩
          · exact .inl (hNotStolen rfl hState)
        | setFailed =>
          simp only [Frame.setsError, Method.isSetFailed, decide_true, Bool.true_and,
            Bool.toNat_true] at hBefore
          exact .inl (by omega)
        | trySetInvoking | tryStartSetValue | startAwaiting | tryStartSetError | trySetPosted
        | tryPostInternal => cases hArrow
      · have hFree : owner (h.futures q).data.state = false := by
          by_contra hOwns
          rcases hOnly _ (Bool.eq_true_of_not_eq_false hOwns) with hSetting | hDone
          · exact hState hSetting
          · rw [not_isDone_of_transition hArrow] at hDone
            cases hDone
        rw [hFree, Bool.toNat_false] at hBefore
        exact .inl (by omega)
    rw [hAfter.data q, Heap.setData_data_self]
    rcases tally_afterExchange hAfter F q with hTally | ⟨-, hTarget, hTally⟩
    · rw [hTally]
      rcases hNone with hZero | ⟨hOne, hOwner, -⟩
      · rw [hZero]
        exact Nat.zero_le _
      · rwa [hOwner]
    · rcases hNone with hZero | ⟨-, -, hDone⟩
      · rw [hTally, hZero, hTarget, hSetting]
        exact Nat.le_refl 1
      · rw [hTarget] at hDone
        cases hDone
  · rw [hAfter.data q, h.setData_data_of_ne _ hSame]
    rcases tally_afterExchange hAfter F q with hTally | ⟨hp, -⟩
    · rw [hTally]
      omega
    · exact absurd hp hSame

theorem startCall {current parentError : Option FutureId} {F : Multiset (Frame FutureId ErrorCode)}
    (hOwned : ErrorOwned owner h F) (hStart : startCall client current parentError h call = some h') :
    ErrorOwned owner h' (call ::ₘ F) := by
  intro q
  obtain ⟨hCall, -, hCases⟩ := startCall_cases hStart
  rw [tally_cons_neg (not_setsError_call hCall q)]
  rcases hCases with ⟨p, c, -, rfl⟩ | ⟨-, rfl⟩ <;> exact hOwned q

variable [DecidableEq ErrorCode]

theorem effect (hInv : Completion traits h (frame ::ₘ F))
    (hOwned : ErrorOwned owner h (frame ::ₘ F)) (hSetting : owner .settingResult = true)
    (hOnly : ∀ state, owner state = true → state = .settingResult ∨ state.isDone = true)
    (hOk : owner .succeeded = true ∨ SuccessNotStolen h frame F)
    (hEffect : Effect traits client h frame h' calls) : ErrorOwned owner h' (↑calls + F) := by
  cases hEffect with
  | exchange hAfter =>
    obtain ⟨⟨linked, hAttempt⟩, -⟩ := hInv.sound _ (Multiset.mem_cons_self ..)
    exact hOwned.exchange hSetting hOnly (attempt_transition hAttempt) hOk hAfter
  | load hFrame hAttempt | wait hFrame hAttempt =>
    refine hOwned.step (fun _ => rfl) fun q => ?_
    cases hFrame <;> simp [tally_cons, Frame.setsError]
  | returnFalse hFrame hAttempt | callbackReturns hFrame =>
    refine hOwned.step (fun _ => rfl) fun q => ?_
    rw [nil_frames, tally_cons]
    exact Nat.le_add_right ..
  | link hFrame =>
    refine hOwned.step (by simp) fun q => ?_
    cases hFrame <;> simp [tally_cons, Frame.setsError]
  | @addDone p c hDone hLink | @add p c hOpen =>
    refine hOwned.step (fun q => ?_) fun q => by simp [tally_cons, Frame.setsError]
    by_cases hSame : q = p
    · simp [hSame]
    · rw [h.setData_data_of_ne _ hSame]
  | succeeded hOpen =>
    refine hOwned.step (fun q => ?_) fun q => by simp [tally_cons, Frame.setsError]
    split <;> simp
  | @errorStarted p futureError =>
    refine hOwned.step (fun q => ?_) fun q => ?_
    · rw [(Completion.moveError_data futureError p q).1]
    · simp [tally_cons, Frame.setsError, Method.isSetFailed]
  | failed hOpen =>
    exact hOwned.step (by simp) fun q => by simp [tally_cons, Frame.setsError]
  | callbackCalls hFrame hStart =>
    rw [cons_frames, cons_frames, nil_frames]
    exact hOwned.startCall hStart
  | returnTrue | postNone | postContinuation | multiPostSucceeded | multiPostFailed
  | tryPostInternal =>
    exact hOwned.step (fun _ => rfl) fun q => by
      simp [tally_cons, Frame.setsError, Method.isSetFailed]

/-- The checks of `SetFailed` hold. -/
theorem no_crash (hInv : Completion traits h F)
    (hOwned : ErrorOwned FutureState.isSettingResult h F) (hMem : frame ∈ F)
    (hFrame : frame.inSetFailed = true) (choice : Choice FutureId ErrorCode) (why : String) :
    exec traits client h frame choice ≠ some (.crash why) := by
  have hState : ∀ p, frame.setsError p = true → (h.futures p).data.state = .settingResult := by
    intro p hSets
    have hPos := tally_pos hMem hSets
    have hOne := hOwned p
    refine FutureState.eq_settingResult ?_
    by_contra hOther
    rw [Bool.eq_false_of_not_eq_true hOther, Bool.toNat_false] at hOne
    omega
  have hLoad : ∀ p isSynchronous, (h.futures p).data.state = .settingResult →
      afterLoad traits h .setFailed p isSynchronous ≠ some (.crash why) := by
    intro p isSynchronous hSetting
    simp [afterLoad, FutureTraits.attempt, FutureTraits.setFailed, hSetting]
  cases frame with
  | call method p isSynchronous =>
    cases method <;> first | (simp [Frame.inSetFailed, Method.isSetFailed] at hFrame; done) | skip
    exact hLoad p isSynchronous (hState p (by simp [Frame.setsError, Method.isSetFailed]))
  | exchange method p isSynchronous data =>
    cases method <;> first | (simp [Frame.inSetFailed, Method.isSetFailed] at hFrame; done) | skip
    have hSetting := hState p (by simp [Frame.setsError, Method.isSetFailed])
    simp only [exec]
    split
    · exact hLoad p isSynchronous hSetting
    · split
      · simp [afterExchange]
      · exact hLoad p isSynchronous hSetting
  | failed p continuation =>
    have hOpen : continuation ≠ .invoked := hInv.sound _ hMem
    simp [exec, hOpen]
  | addContinuation | addContinuationExchange | succeeded | errorStarted | returnTrue
  | postContinuation | tryPostInternal | taskPost | taskInvoke | taskCatch => cases hFrame

end ErrorOwned

section Runs
variable [DecidableEq FutureId] [DecidableEq ErrorCode] {traits : FutureId → MadeTraits}
  {client : Heap FutureId ErrorCode → Frame FutureId ErrorCode → Bool}

theorem completion_invariant (ok : Heap FutureId ErrorCode → Frame FutureId ErrorCode →
      Multiset (Frame FutureId ErrorCode) → Prop) :
    Machine.Invariant (futures traits client) ok .initial (Completion traits) where
  initial := Completion.initial
  start hInv hStart := hInv.startCall hStart
  exec hInv _ hExec := by
    obtain ⟨rfl, hEffect⟩ := exec_effect hExec
    rw [nil_frames]
    exact hInv.effect hEffect

variable
  {ok : Heap FutureId ErrorCode → Frame FutureId ErrorCode → Multiset (Frame FutureId ErrorCode) → Prop}

theorem errorOwned_invariant (owner : FutureState → Bool) (hSetting : owner .settingResult = true)
    (hOnly : ∀ state, owner state = true → state = .settingResult ∨ state.isDone = true)
    (hOk : ∀ h frame F, ok h frame F → owner .succeeded = true ∨ SuccessNotStolen h frame F) :
    Machine.Invariant (futures traits client)
      (fun h frame F => ok h frame F ∧ Completion traits h (frame ::ₘ F)) .initial
      (ErrorOwned owner) where
  initial _ := Nat.zero_le _
  start hOwned hStart := hOwned.startCall hStart
  exec hOwned hBoth hExec := by
    obtain ⟨rfl, hEffect⟩ := exec_effect hExec
    rw [nil_frames]
    exact hOwned.effect hBoth.2 hSetting hOnly (hOk _ _ _ hBoth.1) hEffect

omit [DecidableEq FutureId] in
theorem MadeTraits.not_isDone_of_diagram {traits : MadeTraits} {state next : FutureState}
    (h : traits.diagram state next = true) : state.isDone = false := by
  rw [MadeTraits.diagram] at h
  split at h
  · cases state <;> first | rfl | cases next <;> cases h
  · exact not_isDone_of_transition h

variable {s : Config (Heap FutureId ErrorCode) (Frame FutureId ErrorCode) String}

theorem moves_along_diagram {t : Config (Heap FutureId ErrorCode) (Frame FutureId ErrorCode) String}
    (hs : Machine.Reachable (futures traits client) ok .initial s)
    {move : Move (Frame FutureId ErrorCode) (Choice FutureId ErrorCode)}
    (hStep : (futures traits client).step s move = some t) (p : FutureId) :
    (t.heap.futures p).data.state = (s.heap.futures p).data.state ∨
      (traits p).diagram (s.heap.futures p).data.state (t.heap.futures p).data.state = true := by
  refine (completion_invariant ok).moves
    (fun h h' => (h'.futures p).data.state = (h.futures p).data.state ∨
      (traits p).diagram (h.futures p).data.state (h'.futures p).data.state = true)
    (fun _ => .inl rfl) ?_ ?_ hs hStep
  · intro h h' frame F _ hStart
    obtain ⟨-, -, ⟨q, c, -, rfl⟩ | ⟨-, rfl⟩⟩ := startCall_cases hStart <;> exact .inl rfl
  · intro h frame F choice h' calls forks hInv hExec
    exact hInv.effect_state (exec_effect hExec).2 p

/-- In every run a future keeps to its diagram, stays Succeeded or Failed, returns
true to at most one completing call, and its task is invoked at most once. -/
theorem futures_complete_once (hs : Machine.Reachable (futures traits client) ok .initial s)
    (p : FutureId) :
    s.heap.events.countP (Event.isReturnTrue p) ≤ 1 ∧
    s.heap.events.countP (Event.isInvoke p) ≤ 1 ∧
    ∀ move t, (futures traits client).step s move = some t →
      ((t.heap.futures p).data.state = (s.heap.futures p).data.state ∨
        (traits p).diagram (s.heap.futures p).data.state (t.heap.futures p).data.state = true) ∧
      ((s.heap.futures p).data.state.isDone = true →
        (t.heap.futures p).data.state = (s.heap.futures p).data.state) := by
  have hInv := (completion_invariant ok).reachable hs
  have hCompleted := hInv.completed p
  have hInvoked := hInv.invokedOnce p
  have hOne := (s.heap.futures p).data.state.isDone.toNat_le
  refine ⟨by omega, by omega, fun move t hStep => ?_⟩
  have hMoves := moves_along_diagram hs hStep p
  refine ⟨hMoves, fun hDone => hMoves.resolve_right fun hArrow => ?_⟩
  rw [MadeTraits.not_isDone_of_diagram hArrow] at hDone
  cases hDone

/-- Where no `TrySetSuccess` steals the result of a `TrySetError`, no thread reaches a
crash in `SetFailed` either. -/
theorem futures_complete_without_crash
    {s : Config (Heap FutureId ErrorCode) (Frame FutureId ErrorCode) String}
    (hs : Machine.Reachable (futures traits client) SuccessNotStolen .initial s) :
    (∀ frame ∈ s.frames, frame.inSetFailed = true → ∀ choice why,
      (futures traits client).exec s.heap frame choice ≠ some (.crash why)) ∧
    ∀ p, s.heap.events.countP (Event.isReturnTrue p) ≤ 1 ∧
      ((traits p).options.isMultiPost = false → s.heap.events.countP (Event.isInvoke p) ≤ 1) ∧
      ∀ move t, (futures traits client).step s move = some t →
        ((t.heap.futures p).data.state = (s.heap.futures p).data.state ∨
          (traits p).diagram (s.heap.futures p).data.state (t.heap.futures p).data.state = true) ∧
        ((s.heap.futures p).data.state.isDone = true →
          (t.heap.futures p).data.state = (s.heap.futures p).data.state) := by
  obtain ⟨hInv, hOwned⟩ :=
    ((completion_invariant SuccessNotStolen).and
      (errorOwned_invariant FutureState.isSettingResult rfl
        (fun _ hState => .inl (FutureState.eq_settingResult hState)) fun _ _ _ => .inr)).reachable hs
  refine ⟨fun frame hMem hFrame choice why => hOwned.no_crash hInv hMem hFrame choice why, ?_⟩
  intro p
  obtain ⟨hReturns, hInvokes, hMoves⟩ := futures_complete_once hs p
  exact ⟨hReturns, fun _ => hInvokes, hMoves⟩

end Runs

/-- A shared future 0 without a task, an ordinary continuation 1, and others like `WhenAll`. -/
def sharedTraits : Fin 3 → MadeTraits
  | 0 => ⟨⟨⟨true, false, false, false⟩, 0, false, false, false⟩, rfl⟩
  | 1 => ⟨⟨⟨false, false, false, false⟩, 0, false, true, false⟩, rfl⟩
  | _ => ⟨⟨⟨false, false, true, false⟩, 0, false, true, true⟩, rfl⟩

def promiseVoid : MadeTraits :=
  ⟨⟨⟨false, false, false, false⟩, 0, false, false, false⟩, rfl⟩

/-- Two threads set a promise, and one of them returns true. -/
theorem promise_completes_once :
    ∃ s : Config (Heap Unit Nat) (Frame Unit Nat) String,
      s.Quiet ∧ (s.heap.futures ()).data.state = .succeeded ∧
      s.heap.events.countP (Event.isReturnTrue ()) ≤ 1 := by
  obtain ⟨s, hs, hQuiet, hState⟩ := Machine.exists_reachable
    (fun s : Config (Heap Unit Nat) (Frame Unit Nat) String =>
      s.Quiet ∧ (s.heap.futures ()).data.state = .succeeded)
    ([.call (.call (.trySetSuccess false) () false), .call (.call (.trySetSuccess false) () false),
      .run 0 .go, .run 1 .go] ++ List.replicate 4 (.run 0 .go) ++ [.run 1 .go])
    (by decide : (Option.any _ ((futures (fun _ => promiseVoid) fun _ _ => true).runSchedule
      SuccessNotStolen (.initial .initial) _)) = true)
  exact ⟨s, hQuiet, hState, ((futures_complete_without_crash hs).2 ()).1⟩

/-- A promise crashes in `SetFailed`: one thread is between `TryStartSetError` and
`SetFailed`, and another sets the promise to success. -/
theorem promise_crashes :
    ∃ s : Config (Heap Unit Nat) (Frame Unit Nat) String,
      Machine.Reachable (futures (fun _ => promiseVoid) fun _ _ => true) Always .initial s ∧
      s.crashed = some "State: Succeeded. Cannot move to Failed state" :=
  Machine.exists_reachable _
    [.call (.call (.tryStartSetError (.value (some 7)) false) () false), .run 0 .go, .run 0 .go,
      .call (.call (.trySetSuccess false) () false), .run 1 .go, .run 1 .go,
      .run 0 .go, .run 0 .go]
    (by decide)

end Mso.Futures
