import ReactNativeWindows.Mso.Future.Completion

/-! The error of a failed future, and the paths that its continuations take. -/
namespace Mso.Futures

open Concurrency

universe u v

variable {FutureId : Type u} {ErrorCode : Type v}

namespace FutureState

/-- States in which `m_error` is what to invoke with, or what the future failed with. -/
def holdsError : FutureState → Bool
  | posting | posted | failed => true
  | _ => false

/-- What `TryStartSetError` leaves behind, even if another thread sets the result. -/
def isErrorStarted : FutureState → Bool
  | settingResult | succeeded => true
  | _ => false

theorem isErrorStarted_only (state : FutureState) (h : state.isErrorStarted = true) :
    state = settingResult ∨ state.isDone = true := by
  cases state <;> first | exact .inl rfl | exact .inr rfl | cases h

variable {state : FutureState}

theorem ne_pending_of_transition {next : FutureState} (h : state.transition next = true) :
    next ≠ pending := by
  cases state <;> cases next <;> first | exact FutureState.noConfusion | cases h

theorem not_beforeInvoke_of_transition {next : FutureState} (h : state.transition next = true)
    (hLeft : state.beforeInvoke = false) : next.beforeInvoke = false := by
  cases state <;> cases next <;>
    first | rfl | exact absurd hLeft (by decide) | exact absurd h (by decide)

theorem holdsError_of_beforeInvoke (hLeft : state ≠ pending) (hBefore : state.beforeInvoke = true) :
    state.holdsError = true := by
  cases state <;> first | rfl | exact absurd rfl hLeft | cases hBefore

theorem holdsError_of_transition {next : FutureState} (h : state.transition next = true)
    (hLeft : state ≠ pending) (hBefore : next.beforeInvoke = true) :
    state.holdsError = true ∧ next.holdsError = true ∧ state.beforeInvoke = true := by
  cases state <;> cases next <;>
    first | exact ⟨rfl, rfl, rfl⟩ | exact absurd rfl hLeft | exact absurd hBefore (by decide) |
      exact absurd h (by decide)

end FutureState

section References
variable [DecidableEq FutureId]

def ErrorRef.isErrorOf (q : FutureId) : ErrorRef FutureId ErrorCode → Bool
  | errorOf p => decide (p = q)
  | value _ => false

def Method.refersTo (q : FutureId) : Method FutureId ErrorCode → Bool
  | tryStartSetError futureError _ => futureError.isErrorOf q
  | _ => false

@[simp] theorem Method.refersTo_again (q : FutureId) (method : Method FutureId ErrorCode) :
    method.again.refersTo q = method.refersTo q := by
  cases method <;> rfl

def Frame.refersTo (q : FutureId) : Frame FutureId ErrorCode → Bool
  | taskCatch _ parentError => decide (parentError = q)
  | errorStarted _ futureError => futureError.isErrorOf q
  | call method _ _ | exchange method _ _ _ => method.refersTo q
  | _ => false

end References

/-- No `TrySetError` moves the error of a failed future to another future. -/
def FailedErrorStays [DecidableEq ErrorCode] (h : Heap FutureId ErrorCode)
    (frame : Frame FutureId ErrorCode) (_ : Multiset (Frame FutureId ErrorCode)) : Prop :=
  match frame with
  | .errorStarted p (.errorOf q) => (h.futures q).data.state = .failed →
      (h.futures q).error = none ∨ (h.futures p).error = (h.futures q).error
  | _ => True

instance [DecidableEq ErrorCode] (h : Heap FutureId ErrorCode) (frame : Frame FutureId ErrorCode)
    (F : Multiset (Frame FutureId ErrorCode)) : Decidable (FailedErrorStays h frame F) :=
  match frame with
  | .errorStarted _ (.errorOf _) => inferInstanceAs (Decidable (_ → _ ∨ _))
  | .errorStarted _ (.value _) | .call .. | .exchange .. | .addContinuation .. | .addContinuationExchange ..
  | .succeeded .. | .failed .. | .returnTrue _ | .postContinuation .. | .tryPostInternal .. | .taskPost _
  | .taskInvoke _ | .taskCatch .. => isTrue trivial

/-- A failed future keeps the error that it failed with, and so do its continuations
until they are invoked with it. -/
structure ErrorKept [DecidableEq FutureId] (traits : FutureId → MadeTraits)
    (h : Heap FutureId ErrorCode) (F : Multiset (Frame FutureId ErrorCode)) : Prop where
  succeeded : ∀ p continuation, .succeeded p continuation ∈ F →
    (h.futures p).data.state = .succeeded
  refers : ∀ f ∈ F, ∀ q, f.refersTo q = true → (h.futures q).data.state.beforeInvoke = false
  kept : ∀ p e, .setFailed p (some e) ∈ h.events →
    (h.futures p).data.state = .failed ∧ (h.futures p).error = some e
  postedDone : ∀ p c, .posting (some p) c ∈ h.events → (h.futures p).data.state.isDone = true
  postedOnce : ∀ parent c, .posting parent c ∈ h.events → (h.futures c).data.state ≠ .pending
  invoked : ∀ c path, .invoke c path ∈ h.events → (h.futures c).data.state.beforeInvoke = false
  posted : ∀ p c e, .posting (some p) c ∈ h.events → .setFailed p (some e) ∈ h.events →
    (traits c).options.callTaskInvokeOnError = false →
    ((h.futures c).data.state.beforeInvoke = true → (h.futures c).error = some e) ∧
      ∀ path, .invoke c path ∈ h.events → path = .taskCatch (some e)
  multiPost : ∀ p c path, .multiPost p c path ∈ h.events →
    (h.futures p).data.state.isDone = true ∧
      ∀ e, .setFailed p (some e) ∈ h.events → path = .taskCatch (some e)

def Event.Fits (traits : FutureId → MadeTraits) (h : Heap FutureId ErrorCode) :
    Event FutureId ErrorCode → Prop
  | setFailed p error => (h.futures p).data.state = .failed ∧ (h.futures p).error = error ∧
      (∀ c, .posting (some p) c ∉ h.events) ∧ ∀ c path, .multiPost p c path ∉ h.events
  | posting parent c => (h.futures c).data.state ≠ .pending ∧ (∀ path, .invoke c path ∉ h.events) ∧
      ∀ p, parent = some p → (h.futures p).data.state.isDone = true ∧
        ∀ e, .setFailed p (some e) ∈ h.events →
          (traits c).options.callTaskInvokeOnError = false → (h.futures c).error = some e
  | invoke c path => (h.futures c).data.state.beforeInvoke = false ∧
      ∀ p e, .posting (some p) c ∈ h.events → .setFailed p (some e) ∈ h.events →
        (traits c).options.callTaskInvokeOnError = false → path = .taskCatch (some e)
  | multiPost p _ path => (h.futures p).data.state.isDone = true ∧
      ∀ e, .setFailed p (some e) ∈ h.events → path = .taskCatch (some e)
  | addContinuation _ _ | tryPostInternal _ _ | returnTrue _ => True

structure Frame.Follows [DecidableEq FutureId] (method : Method FutureId ErrorCode) (p : FutureId)
    (f : Frame FutureId ErrorCode) : Prop where
  succeeded : ∀ q continuation, f = .succeeded q continuation → q = p ∧ method.target = .succeeded
  refers : ∀ q, f.refersTo q = true →
    method.refersTo q = true ∨ q = p ∧ method.target.beforeInvoke = false

theorem startTask_follows [DecidableEq FutureId] (traits : FutureId → MadeTraits)
    (method : Method FutureId ErrorCode) (p : FutureId) :
    ∀ f ∈ startTask traits p, f.Follows method p := by
  intro f hMem
  simp only [startTask] at hMem
  split at hMem <;> simp only [List.mem_cons, List.not_mem_nil, or_false] at hMem
  · rcases hMem with rfl | rfl <;> exact ⟨by simp, fun q hRefers => by cases hRefers⟩
  · subst hMem
    exact ⟨by simp, fun q hRefers => by cases hRefers⟩

theorem AfterExchange.follows [DecidableEq FutureId] {traits : FutureId → MadeTraits}
    {h h' : Heap FutureId ErrorCode} {p : FutureId} {isSynchronous : Bool}
    {continuation : Continuation FutureId} {method : Method FutureId ErrorCode}
    {calls : List (Frame FutureId ErrorCode)}
    (hAfter : AfterExchange traits h p isSynchronous continuation method h' calls) :
    ∀ f ∈ calls, f.Follows method p := by
  cases hAfter with
  | startAwaiting | setPosted => simp
  | post hLink => exact startTask_follows traits _ p
  | postLinked | postFailed =>
    refine List.forall_mem_append.mpr ⟨startTask_follows traits _ p, ?_⟩
    rw [List.forall_mem_singleton]
    exact ⟨by simp, fun q hRefers => by cases hRefers⟩
  | invokeTask | invokeParentValue | startValue | fail =>
    rw [List.forall_mem_singleton]
    exact ⟨by simp, fun q hRefers => by cases hRefers⟩
  | invokeCatch | invokeError =>
    rw [List.forall_mem_singleton]
    exact ⟨by simp, fun q hRefers => .inr ⟨(of_decide_eq_true hRefers).symm, rfl⟩⟩
  | startError =>
    rw [List.forall_mem_singleton]
    exact ⟨by simp, fun q hRefers => .inl hRefers⟩
  | succeed =>
    rw [List.forall_mem_singleton]
    refine ⟨?_, fun q hRefers => by cases hRefers⟩
    rintro q k hSame
    cases hSame
    exact ⟨rfl, rfl⟩

namespace ErrorKept
variable [DecidableEq FutureId] {traits : FutureId → MadeTraits}
  {h h' : Heap FutureId ErrorCode} {frame : Frame FutureId ErrorCode}
  {calls : List (Frame FutureId ErrorCode)} {F : Multiset (Frame FutureId ErrorCode)}

theorem initial : ErrorKept traits (Heap.initial : Heap FutureId ErrorCode) 0 where
  succeeded _ _ hMem := absurd hMem (Multiset.notMem_zero _)
  refers _ hMem := absurd hMem (Multiset.notMem_zero _)
  kept _ _ hMem := absurd hMem List.not_mem_nil
  postedDone _ _ hMem := absurd hMem List.not_mem_nil
  postedOnce _ _ hMem := absurd hMem List.not_mem_nil
  invoked _ _ hMem := absurd hMem List.not_mem_nil
  posted _ _ _ hMem := absurd hMem List.not_mem_nil
  multiPost _ _ _ hMem := absurd hMem List.not_mem_nil

theorem log (hInv : ErrorKept traits h F) {event : Event FutureId ErrorCode}
    (hFits : event.Fits traits h) : ErrorKept traits (h.log event) F := by
  constructor
  case succeeded => exact hInv.succeeded
  case refers => exact hInv.refers
  case kept =>
    intro p e hMem
    rcases List.mem_cons.mp hMem with rfl | hMem
    · exact ⟨hFits.1, hFits.2.1⟩
    · exact hInv.kept p e hMem
  case postedDone =>
    intro p c hMem
    rcases List.mem_cons.mp hMem with rfl | hMem
    · exact (hFits.2.2 p rfl).1
    · exact hInv.postedDone p c hMem
  case postedOnce =>
    intro parent c hMem
    rcases List.mem_cons.mp hMem with rfl | hMem
    · exact hFits.1
    · exact hInv.postedOnce parent c hMem
  case invoked =>
    intro c path hMem
    rcases List.mem_cons.mp hMem with rfl | hMem
    · exact hFits.1
    · exact hInv.invoked c path hMem
  case posted =>
    intro p c e hPosting hFailed hCatch
    rcases List.mem_cons.mp hPosting with rfl | hPosted
    · have hBefore : .setFailed p (some e) ∈ h.events := by simpa using hFailed
      refine ⟨fun _ => (hFits.2.2 p rfl).2 e hBefore hCatch, fun path hInvoke => ?_⟩
      exact absurd (by simpa using hInvoke) (hFits.2.1 path)
    · rcases List.mem_cons.mp hFailed with rfl | hBefore
      · exact absurd hPosted (hFits.2.2.1 c)
      · obtain ⟨hHeld, hPath⟩ := hInv.posted p c e hPosted hBefore hCatch
        refine ⟨hHeld, fun path hInvoke => ?_⟩
        rcases List.mem_cons.mp hInvoke with rfl | hInvoked
        · exact hFits.2 p e hPosted hBefore hCatch
        · exact hPath path hInvoked
  case multiPost =>
    intro p c path hMem
    rcases List.mem_cons.mp hMem with rfl | hPosted
    · exact ⟨hFits.1, fun e hFailed => hFits.2 e (by simpa using hFailed)⟩
    · refine ⟨(hInv.multiPost p c path hPosted).1, fun e hFailed => ?_⟩
      rcases List.mem_cons.mp hFailed with rfl | hBefore
      · exact absurd hPosted (hFits.2.2.2 c path)
      · exact (hInv.multiPost p c path hPosted).2 e hBefore

/-- A step that records nothing and leaves the errors alone that futures hold. -/
theorem advance (hInv : ErrorKept traits h (frame ::ₘ F)) (hEvents : h'.events = h.events)
    (hMoves : ∀ q, (h'.futures q).data.state = (h.futures q).data.state ∨
      (h.futures q).data.state.transition (h'.futures q).data.state = true)
    (hError : ∀ q, (h.futures q).data.state.holdsError = true →
      (h'.futures q).data.state.holdsError = true → (h.futures q).error ≠ none →
        (h'.futures q).error = (h.futures q).error)
    (hCalls : ∀ f ∈ calls,
      (∀ q k, f = .succeeded q k → (h'.futures q).data.state = .succeeded) ∧
        ∀ q, f.refersTo q = true → (h'.futures q).data.state.beforeInvoke = false) :
    ErrorKept traits h' (↑calls + F) := by
  have hDone : ∀ q, (h.futures q).data.state.isDone = true →
      (h'.futures q).data.state = (h.futures q).data.state := by
    intro q hOld
    refine (hMoves q).resolve_right fun hArrow => ?_
    rw [not_isDone_of_transition hArrow] at hOld
    cases hOld
  have hBefore : ∀ q, (h.futures q).data.state.beforeInvoke = false →
      (h'.futures q).data.state.beforeInvoke = false := by
    intro q hOld
    rcases hMoves q with hSame | hArrow
    · rwa [hSame]
    · exact FutureState.not_beforeInvoke_of_transition hArrow hOld
  constructor
  case succeeded =>
    intro p k hMem
    rw [Multiset.mem_add, Multiset.mem_coe] at hMem
    rcases hMem with hMem | hMem
    · exact (hCalls _ hMem).1 p k rfl
    · have hOld := hInv.succeeded p k (Multiset.mem_cons_of_mem hMem)
      rw [hDone p (by rw [hOld]; rfl), hOld]
  case refers =>
    intro f hMem q hRefers
    rw [Multiset.mem_add, Multiset.mem_coe] at hMem
    rcases hMem with hMem | hMem
    · exact (hCalls f hMem).2 q hRefers
    · exact hBefore q (hInv.refers f (Multiset.mem_cons_of_mem hMem) q hRefers)
  case kept =>
    intro p e hMem
    rw [hEvents] at hMem
    obtain ⟨hState, hOld⟩ := hInv.kept p e hMem
    have hNew : (h'.futures p).data.state = .failed := by
      rw [hDone p (by rw [hState]; rfl), hState]
    refine ⟨hNew, ?_⟩
    rw [hError p (by rw [hState]; rfl) (by rw [hNew]; rfl) (by simp [hOld]), hOld]
  case postedDone =>
    intro p c hMem
    rw [hEvents] at hMem
    have hOld := hInv.postedDone p c hMem
    rwa [hDone p hOld]
  case postedOnce =>
    intro parent c hMem
    rw [hEvents] at hMem
    rcases hMoves c with hSame | hArrow
    · rw [hSame]
      exact hInv.postedOnce parent c hMem
    · exact FutureState.ne_pending_of_transition hArrow
  case invoked =>
    intro c path hMem
    rw [hEvents] at hMem
    exact hBefore c (hInv.invoked c path hMem)
  case posted =>
    intro p c e hPosting hFailed hCatch
    rw [hEvents] at hPosting hFailed ⊢
    obtain ⟨hOld, hPath⟩ := hInv.posted p c e hPosting hFailed hCatch
    refine ⟨fun hNew => ?_, hPath⟩
    have hStates : (h.futures c).data.state.holdsError = true ∧
        (h'.futures c).data.state.holdsError = true ∧
        (h.futures c).data.state.beforeInvoke = true := by
      rcases hMoves c with hSame | hArrow
      · have hNotPending := hInv.postedOnce _ c hPosting
        rw [hSame] at hNew ⊢
        have hHolds := FutureState.holdsError_of_beforeInvoke hNotPending hNew
        exact ⟨hHolds, hHolds, hNew⟩
      · exact FutureState.holdsError_of_transition hArrow (hInv.postedOnce _ c hPosting) hNew
    have hHeld := hOld hStates.2.2
    rw [hError c hStates.1 hStates.2.1 (by simp [hHeld]), hHeld]
  case multiPost =>
    intro p c path hMem
    rw [hEvents] at hMem ⊢
    obtain ⟨hOld, hPath⟩ := hInv.multiPost p c path hMem
    exact ⟨by rwa [hDone p hOld], hPath⟩

variable {method : Method FutureId ErrorCode} {p : FutureId} {isSynchronous : Bool}

/-- A successful compare-exchange, and nothing else but on the link and error of its future. -/
theorem exchanged (h₁ : Heap FutureId ErrorCode)
    (hInv : ErrorKept traits h (.exchange method p isSynchronous (h.futures p).data ::ₘ F))
    (hArrow : (h.futures p).data.state.transition method.target = true)
    (hEvents : h₁.events = h.events) (hData : ∀ q, (h₁.futures q).data = ((h.setData p
      ⟨method.target, method.newContinuation (h.futures p).data.continuation⟩).futures q).data)
    (hOthers : ∀ q ≠ p, (h₁.futures q).error = (h.futures q).error)
    (hSelf : (h₁.futures p).error = (h.futures p).error ∨
      (h.futures p).data.state.holdsError = false ∨ method.target.holdsError = false)
    (hCalls : ∀ f ∈ calls, f.Follows method p) : ErrorKept traits h₁ (↑calls + F) := by
  have hTarget : (h₁.futures p).data.state = method.target := by
    rw [hData p, Heap.setData_data_self]
  have hState : ∀ q ≠ p, (h₁.futures q).data.state = (h.futures q).data.state := fun q hNe => by
    rw [hData q, h.setData_data_of_ne _ hNe]
  have hMoves : ∀ q, (h₁.futures q).data.state = (h.futures q).data.state ∨
      (h.futures q).data.state.transition (h₁.futures q).data.state = true := by
    intro q
    by_cases hSame : q = p
    · rw [hSame, hTarget]
      exact .inr hArrow
    · exact .inl (hState q hSame)
  refine hInv.advance hEvents hMoves (fun q hOld hNew hSome => ?_) fun f hMem => ⟨?_, ?_⟩
  · by_cases hSame : q = p
    · subst hSame
      rw [hTarget] at hNew
      rcases hSelf with hError | hNotHeld | hNotHeld
      · exact hError
      · rw [hNotHeld] at hOld
        cases hOld
      · rw [hNotHeld] at hNew
        cases hNew
    · exact hOthers q hSame
  · intro q k hFrame
    obtain ⟨rfl, hSucceeded⟩ := (hCalls f hMem).succeeded q k hFrame
    rw [hTarget, hSucceeded]
  · intro q hRefers
    rcases (hCalls f hMem).refers q hRefers with hMethod | ⟨rfl, hLeft⟩
    · have hOld := hInv.refers _ (Multiset.mem_cons_self ..) q hMethod
      rcases hMoves q with hSame | hStep
      · rwa [hSame]
      · exact FutureState.not_beforeInvoke_of_transition hStep hOld
    · rwa [hTarget]

theorem fits_invoke (h₁ : Heap FutureId ErrorCode) {path : Path FutureId ErrorCode}
    (hInv : ErrorKept traits h F) (hBefore : (h.futures p).data.state.beforeInvoke = true)
    (hLeft : (h₁.futures p).data.state.beforeInvoke = false) (hEvents : h₁.events = h.events)
    (hPath : ∀ e, (h.futures p).error = some e → path = .taskCatch (some e)) :
    (Event.invoke p path).Fits traits h₁ := by
  refine ⟨hLeft, fun q e hPosting hFailed hCatch => hPath e ?_⟩
  rw [hEvents] at hPosting hFailed
  exact (hInv.posted q p e hPosting hFailed hCatch).1 hBefore

theorem not_invoked (hInv : ErrorKept traits h F)
    (hBefore : (h.futures p).data.state.beforeInvoke = true) (path : Path FutureId ErrorCode) :
    .invoke p path ∉ h.events := by
  intro hMem
  rw [hInv.invoked p path hMem] at hBefore
  cases hBefore

theorem afterExchange {linked : Bool}
    (hInv : ErrorKept traits h (.exchange method p isSynchronous (h.futures p).data ::ₘ F))
    (hAttempt : (traits p).attempt isSynchronous linked method (h.futures p).data.state = .exchange)
    (hAfter : AfterExchange traits (h.setData p
      ⟨method.target, method.newContinuation (h.futures p).data.continuation⟩)
      p isSynchronous (h.futures p).data.continuation method h' calls) :
    ErrorKept traits h' (↑calls + F) := by
  have hArrow := attempt_transition hAttempt
  have hOpen := not_isDone_of_transition hArrow
  have hFollows := hAfter.follows
  have hInvoking : method.target = .invoking → (h.futures p).data.state.beforeInvoke = true := by
    intro hTarget
    rw [hTarget] at hArrow
    generalize (h.futures p).data.state = state at hArrow
    cases state <;> first | rfl | cases hArrow
  have hPosting : method.target = .posting → (h.futures p).data.state.beforeInvoke = true := by
    intro hTarget
    rw [hTarget] at hArrow
    generalize (h.futures p).data.state = state at hArrow
    cases state <;> first | rfl | cases hArrow
  -- `g` is the heap right after the exchange, where nothing but a packed word changed.
  obtain ⟨g, hg⟩ : ∃ g, g = h.setData p
      ⟨method.target, method.newContinuation (h.futures p).data.continuation⟩ := ⟨_, rfl⟩
  rw [← hg] at hAfter
  have hTarget : (g.futures p).data.state = method.target := by
    rw [hg, Heap.setData_data_self]
  have hError : ∀ q, (g.futures q).error = (h.futures q).error := by
    intro q
    rw [hg, Heap.setData_error]
  have hEvents : g.events = h.events := by rw [hg, Heap.setData_events]
  have hStep : ∀ h₁ : Heap FutureId ErrorCode, h₁.events = g.events →
      (∀ q, (h₁.futures q).data = (g.futures q).data) →
      (∀ q ≠ p, (h₁.futures q).error = (g.futures q).error) →
      ((h₁.futures p).error = (g.futures p).error ∨ (h.futures p).data.state.holdsError = false ∨
        method.target.holdsError = false) → ErrorKept traits h₁ (↑calls + F) := by
    intro h₁ hSame hData hOthers hSelf
    rw [hError p] at hSelf
    exact hInv.exchanged h₁ hArrow (hSame.trans hEvents) (fun q => by rw [hData q, hg])
      (fun q hNe => by rw [hOthers q hNe, hError q]) hSelf hFollows
  have hSetting := hStep g rfl (fun _ => rfl) (fun _ _ => rfl) (.inl rfl)
  cases hAfter with
  | startValue | startAwaiting | succeed | startError | setPosted => exact hSetting
  | invokeTask hNone hTask | invokeParentValue hNone hTask =>
    rw [hError] at hNone
    exact hSetting.log (hInv.fits_invoke _ (hInvoking rfl) (by rw [hTarget]; rfl) hEvents
      (by simp [hNone]))
  | invokeError hSome =>
    rw [hError] at hSome
    exact hSetting.log (hInv.fits_invoke _ (hInvoking rfl) (by rw [hTarget]; rfl) hEvents
      (by simp [hSome]))
  | invokeCatch hSome hTaken =>
    rw [hError] at hSome
    rcases hTaken with rfl | rfl
    · exact hSetting.log (hInv.fits_invoke _ (hInvoking rfl) (by rw [hTarget]; rfl) hEvents
        (by simp [hSome]))
    · have hTaken := hStep (g.setError p none) rfl (by simp)
        (fun q hNe => Heap.setError_error_of_ne _ _ hNe) (.inr (.inr rfl))
      exact hTaken.log (hInv.fits_invoke _ (hInvoking rfl)
        (by rw [Heap.setError_data, hTarget]; rfl) hEvents (by simp [hSome]))
  | fail =>
    refine hSetting.log ⟨hTarget, rfl, fun c hMem => ?_, fun c path hMem => ?_⟩
    · rw [hInv.postedDone p c (hEvents ▸ hMem)] at hOpen
      cases hOpen
    · rw [(hInv.multiPost p c path (hEvents ▸ hMem)).1] at hOpen
      cases hOpen
  | post hLink =>
    have hPosted := hStep (g.setLink p none) rfl (by simp) (by simp) (by simp)
    refine hPosted.log ⟨by simp [hTarget, Method.target], fun path hMem => ?_, by simp⟩
    exact hInv.not_invoked (hPosting rfl) path (hEvents ▸ hMem)
  | @postLinked parent crashIfFailed hParent =>
    have hPosted := hStep ((g.setLink p none).setLink p (some parent)) rfl (by simp) (by simp)
      (by simp)
    refine hPosted.log ⟨by simp [hTarget, Method.target], fun path hMem => ?_, ?_⟩
    · exact hInv.not_invoked (hPosting rfl) path (hEvents ▸ hMem)
    · rintro q ⟨⟩
      simp only [Heap.setLink_data]
      refine ⟨by rcases hParent with hState | ⟨hState, -⟩ <;> rw [hState] <;> rfl, ?_⟩
      intro e hFailed hCatch
      rcases hParent with hState | ⟨-, hInvokeOnError⟩
      · rw [(hSetting.kept parent e hFailed).1] at hState
        cases hState
      · rw [hInvokeOnError] at hCatch
        cases hCatch
  | @postFailed parent crashIfFailed hParent hCatch =>
    have hPosted := hStep ((g.setLink p none).setError p (g.futures parent).error) rfl (by simp)
      (fun q hNe => by rw [Heap.setError_error_of_ne _ _ hNe, Heap.setLink_error])
      (.inr (.inl ?_))
    · refine hPosted.log ⟨by simp [hTarget, Method.target], fun path hMem => ?_, ?_⟩
      · exact hInv.not_invoked (hPosting rfl) path (hEvents ▸ hMem)
      · rintro q ⟨⟩
        simp only [Heap.setError_data, Heap.setLink_data, Heap.setError_error_self]
        refine ⟨by rw [hParent]; rfl, fun e hFailed _ => (hSetting.kept parent e hFailed).2⟩
    · have hState : (h.futures p).data.state = .pending :=
        FutureTraits.tryPostInternal_exchange hAttempt
      rw [hState]
      rfl

/-- A step after which futures have the same states and errors. -/
theorem stay (hInv : ErrorKept traits h (frame ::ₘ F)) (hEvents : h'.events = h.events)
    (hState : ∀ q, (h'.futures q).data.state = (h.futures q).data.state)
    (hError : ∀ q, (h'.futures q).error = (h.futures q).error)
    (hCalls : ∀ f ∈ calls, (∀ q k, f ≠ .succeeded q k) ∧
      ∀ q, f.refersTo q = true → frame.refersTo q = true) :
    ErrorKept traits h' (↑calls + F) := by
  refine hInv.advance hEvents (fun q => .inl (hState q)) (fun q _ _ _ => hError q)
    fun f hMem => ⟨fun q k hFrame => absurd hFrame ((hCalls f hMem).1 q k), fun q hRefers => ?_⟩
  rw [hState q]
  exact hInv.refers _ (Multiset.mem_cons_self ..) q ((hCalls f hMem).2 q hRefers)

variable {client : Heap FutureId ErrorCode → Frame FutureId ErrorCode → Bool}

/-- A client may refer to an error only from the callback that got it. -/
theorem startCall {current parentError : Option FutureId} {call : Frame FutureId ErrorCode}
    {F : Multiset (Frame FutureId ErrorCode)} (hInv : ErrorKept traits h F)
    (hParent : ∀ q, parentError = some q → (h.futures q).data.state.beforeInvoke = false)
    (hStart : startCall client current parentError h call = some h') :
    ErrorKept traits h' (call ::ₘ F) := by
  obtain ⟨hCall, -, hCases⟩ := startCall_cases hStart
  have hRefers : ∀ q, call.refersTo q = true → parentError = some q := by
    intro q hRef
    cases call with
    | call method p isSynchronous =>
      cases method with
      | tryStartSetError futureError crashIfFailed =>
        cases futureError with
        | value error => cases hRef
        | errorOf r =>
          obtain rfl : r = q := of_decide_eq_true hRef
          simp only [Frame.isCall, Bool.and_eq_true, decide_eq_true_eq] at hCall
          exact hCall.2.2
      | trySetInvoking | tryStartSetValue | startAwaiting | trySetSuccess | setFailed
      | trySetPosted | tryPostInternal => cases hRef
    | taskCatch | errorStarted | exchange => cases hCall
    | addContinuation | addContinuationExchange | succeeded | failed | returnTrue
    | postContinuation | tryPostInternal | taskPost | taskInvoke => cases hRef
  have hPushed : ErrorKept traits h (call ::ₘ F) :=
    { hInv with
      succeeded := by
        intro p k hMem
        rcases Multiset.mem_cons.mp hMem with rfl | hMem
        · cases hCall
        · exact hInv.succeeded p k hMem
      refers := by
        intro f hMem q hRef
        rcases Multiset.mem_cons.mp hMem with rfl | hMem
        · exact hParent q (hRefers q hRef)
        · exact hInv.refers f hMem q hRef }
  rcases hCases with ⟨p, c, -, rfl⟩ | ⟨-, rfl⟩
  · exact hPushed.log trivial
  · exact hPushed

variable [DecidableEq ErrorCode]

/-- `m_error = std::move(futureError)` changes no error that a future holds, but that of
a failed future. -/
theorem moveError_error {futureError : ErrorRef FutureId ErrorCode}
    (hInv : ErrorKept traits h (.errorStarted p futureError ::ₘ F))
    (hOwned : (h.futures p).data.state.isErrorStarted = true)
    (hOk : FailedErrorStays h (.errorStarted p futureError) F) {q : FutureId}
    (hHolds : (h.futures q).data.state.holdsError = true) (hSome : (h.futures q).error ≠ none) :
    ((moveError h p futureError).futures q).error = (h.futures q).error := by
  have hNe : q ≠ p := by
    rintro rfl
    generalize (h.futures q).data.state = state at hOwned hHolds
    cases state <;> first | exact absurd hOwned (by decide) | exact absurd hHolds (by decide)
  cases futureError with
  | value error => exact Heap.setError_error_of_ne _ _ hNe
  | errorOf r =>
    simp only [moveError]
    split
    · rfl
    · rename_i hDiffer
      rw [Heap.setError_error_of_ne _ _ hNe]
      refine Heap.setError_error_of_ne _ _ fun hSame => ?_
      subst hSame
      have hLeft := hInv.refers _ (Multiset.mem_cons_self ..) q (by simp [Frame.refersTo,
        ErrorRef.isErrorOf])
      have hFailed : (h.futures q).data.state = .failed := by
        generalize (h.futures q).data.state = state at hLeft hHolds
        cases state <;> first | rfl | exact absurd hHolds (by decide) |
          exact absurd hLeft (by decide)
      exact (hOk hFailed).elim hSome hDiffer

theorem effect (hCompletion : Completion traits h (frame ::ₘ F))
    (hOwned : ErrorOwned FutureState.isErrorStarted h (frame ::ₘ F))
    (hInv : ErrorKept traits h (frame ::ₘ F)) (hOk : FailedErrorStays h frame F)
    (hEffect : Effect traits client h frame h' calls) : ErrorKept traits h' (↑calls + F) := by
  cases hEffect with
  | exchange hAfter =>
    obtain ⟨⟨linked, hAttempt⟩, -⟩ := hCompletion.sound _ (Multiset.mem_cons_self ..)
    exact hInv.afterExchange hAttempt hAfter
  | load hFrame hAttempt | wait hFrame hAttempt =>
    refine hInv.stay rfl (fun _ => rfl) (fun _ => rfl) ?_
    cases hFrame <;> simp [Frame.refersTo]
  | returnFalse hFrame hAttempt | postNone | callbackReturns hFrame =>
    exact hInv.stay rfl (fun _ => rfl) (fun _ => rfl) (by simp)
  | link hFrame | failed hOpen => exact hInv.stay rfl (by simp) (by simp) (by simp [Frame.refersTo])
  | @addDone p c hDone hLink =>
    refine hInv.stay rfl (fun q => ?_) (by simp) (by simp [Frame.refersTo])
    by_cases hSame : q = p
    · simp [hSame]
    · rw [h.setData_data_of_ne _ hSame]
  | @add p c hOpen =>
    refine hInv.stay rfl (fun q => ?_) (by simp) (by simp)
    by_cases hSame : q = p
    · simp [hSame]
    · rw [h.setData_data_of_ne _ hSame]
  | @succeeded p continuation hOpen =>
    have hState : (h.futures p).data.state = .succeeded :=
      hInv.succeeded p continuation (Multiset.mem_cons_self ..)
    refine hInv.advance ?_ (fun q => .inl ?_) (fun q hHolds _ _ => ?_) (by simp [Frame.refersTo])
    · split <;> rfl
    · split <;> simp
    · have hNe : q ≠ p := by
        rintro rfl
        rw [hState] at hHolds
        cases hHolds
      rw [Heap.setError_error_of_ne _ _ hNe]
      split <;> simp
  | @errorStarted p futureError =>
    have hSetter : (h.futures p).data.state.isErrorStarted = true := by
      have hOne := hOwned p
      rw [tally_cons_pos (by simp [Frame.setsError])] at hOne
      by_contra hNot
      rw [Bool.eq_false_of_not_eq_true hNot, Bool.toNat_false] at hOne
      omega
    refine hInv.advance (Completion.moveError_data futureError p p).2 (fun q => .inl ?_)
      (fun q hHolds _ hSome => hInv.moveError_error hSetter hOk hHolds hSome)
      (by simp [Frame.refersTo, Method.refersTo])
    rw [(Completion.moveError_data futureError p q).1]
  | returnTrue =>
    exact ErrorKept.log (h := h) (hInv.stay rfl (fun _ => rfl) (fun _ => rfl) (by simp)) trivial
  | @postContinuation p c =>
    exact ErrorKept.log (h := h)
      (hInv.stay rfl (fun _ => rfl) (fun _ => rfl) (by simp [Frame.refersTo])) trivial
  | @multiPostSucceeded p c crashIfFailed hMulti hParent =>
    refine ErrorKept.log (h := h) (hInv.stay rfl (fun _ => rfl) (fun _ => rfl)
      (by simp [Frame.refersTo])) ⟨by rw [hParent]; rfl, fun e hFailed => ?_⟩
    rw [(hInv.kept p e hFailed).1] at hParent
    cases hParent
  | @multiPostFailed p c crashIfFailed hMulti hParent =>
    refine ErrorKept.log (h := h) (hInv.advance rfl (fun _ => .inl rfl) (fun _ _ _ _ => rfl) ?_)
      ⟨by rw [hParent]; rfl, fun e hFailed => ?_⟩
    · simp [Frame.refersTo, hParent, FutureState.beforeInvoke]
    rw [(hInv.kept p e hFailed).2]
  | tryPostInternal hOrdinary =>
    exact hInv.stay rfl (fun _ => rfl) (fun _ => rfl) (by simp [Frame.refersTo, Method.refersTo])
  | @callbackCalls _ call _ c parentError hFrame hStart =>
    rw [cons_frames, cons_frames, nil_frames]
    refine hInv.startCall (fun q hq => ?_) hStart
    refine hInv.refers _ (Multiset.mem_cons_self ..) q ?_
    subst hq
    cases frame <;> first | (cases hFrame; exact decide_eq_true rfl) | cases hFrame

end ErrorKept

section Runs
variable [DecidableEq FutureId] [DecidableEq ErrorCode] {traits : FutureId → MadeTraits}
  {client : Heap FutureId ErrorCode → Frame FutureId ErrorCode → Bool}

theorem errorKept_invariant :
    Machine.Invariant (futures traits client)
      (fun h frame F => FailedErrorStays h frame F ∧ Completion traits h (frame ::ₘ F) ∧
        ErrorOwned FutureState.isErrorStarted h (frame ::ₘ F)) .initial (ErrorKept traits) where
  initial := ErrorKept.initial
  start hInv hStart := hInv.startCall (fun _ hNone => by cases hNone) hStart
  exec hInv hOk hExec := by
    obtain ⟨rfl, hEffect⟩ := exec_effect hExec
    rw [nil_frames]
    exact hInv.effect hOk.2.1 hOk.2.2 hOk.1 hEffect

/-- Where no error is moved out of a failed future, a future that failed with an error
stays so, and each continuation that it posts takes the path of that error. -/
theorem failed_keeps_error
    {s : Config (Heap FutureId ErrorCode) (Frame FutureId ErrorCode) String}
    (hs : Machine.Reachable (futures traits client) FailedErrorStays .initial s) {p : FutureId}
    {e : ErrorCode} (hFailed : .setFailed p (some e) ∈ s.heap.events) :
    ((s.heap.futures p).data.state = .failed ∧ (s.heap.futures p).error = some e) ∧
    (∀ c path, .posting (some p) c ∈ s.heap.events →
      (traits c).options.callTaskInvokeOnError = false → .invoke c path ∈ s.heap.events →
        path = .taskCatch (some e)) ∧
    ∀ c path, .multiPost p c path ∈ s.heap.events → path = .taskCatch (some e) := by
  have hInv := ((((completion_invariant FailedErrorStays).and
    (errorOwned_invariant FutureState.isErrorStarted rfl FutureState.isErrorStarted_only
      fun _ _ _ _ => .inl rfl)).and errorKept_invariant).reachable hs).2
  refine ⟨hInv.kept p e hFailed, fun c path hPosting hCatch hInvoke => ?_, fun c path hPosted => ?_⟩
  · exact (hInv.posted p c e hPosting hFailed hCatch).2 path hInvoke
  · exact (hInv.multiPost p c path hPosted).2 e hFailed

end Runs

section Witnesses

/-- A shared future 0 without a task, a continuation 1 with a `TaskInvoke` only, and
others like `WhenAny`. -/
def sharedErrorTraits : Fin 3 → MadeTraits := sharedTraits

/-- A continuation takes the path of the error that its parent failed with. -/
theorem continuation_catches_error :
    ∃ s : Config (Heap (Fin 3) Nat) (Frame (Fin 3) Nat) String,
      s.Quiet ∧ .invoke 1 (.taskCatch (some 7)) ∈ s.heap.events ∧
      ((s.heap.futures 0).data.state = .failed ∧ (s.heap.futures 0).error = some 7) := by
  obtain ⟨s, hs, hQuiet, hInvoke, hFailed⟩ := Machine.exists_reachable
    (fun s : Config (Heap (Fin 3) Nat) (Frame (Fin 3) Nat) String =>
      s.Quiet ∧ .invoke 1 (.taskCatch (some 7)) ∈ s.heap.events ∧
        .setFailed 0 (some 7) ∈ s.heap.events)
    ([.call (.addContinuation 0 1), .run 0 .go, .run 0 .go,
      .call (.call (.tryStartSetError (.value (some 7)) false) 0 false)] ++
      List.replicate 22 (.run 1 .go))
    (by decide : (Option.any _ ((futures sharedErrorTraits fun _ _ => true).runSchedule
      FailedErrorStays (.initial .initial) _)) = true)
  exact ⟨s, hQuiet, hInvoke, (failed_keeps_error hs hFailed).1⟩

/-- `WhenAnyTaskCatch` moves the error out of a failed future, and the continuation
that is added next takes the path of success. -/
theorem continuation_misses_error :
    ∃ s : Config (Heap (Fin 3) Nat) (Frame (Fin 3) Nat) String,
      Machine.Reachable (futures sharedErrorTraits fun _ _ => true) Always .initial s ∧
      .setFailed 0 (some 7) ∈ s.heap.events ∧ (s.heap.futures 0).error = none ∧
      .posting (some 0) 1 ∈ s.heap.events ∧ .invoke 1 (.taskInvoke none) ∈ s.heap.events :=
  Machine.exists_reachable _
    ([.call (.addContinuation 0 2), .run 0 .go, .run 0 .go,
      .call (.call (.tryStartSetError (.value (some 7)) false) 0 false)] ++
      List.replicate 8 (.run 1 .go) ++
      [.run 1 (.callFromTask (.call (.tryStartSetError (.errorOf 0) false) 2 true)),
        .run 1 .go, .run 1 .go, .run 1 .go, .call (.addContinuation 0 1)] ++
      List.replicate 8 (.run 2 .go))
    (by decide)

end Witnesses

end Mso.Futures
