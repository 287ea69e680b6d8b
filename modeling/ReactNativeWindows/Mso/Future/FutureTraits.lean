import ReactNativeWindows.Mso.Future.PackedData

/-! The traits of a future, and what each method of `FutureImpl` makes of the state
that it reads: whether it goes on to its compare-exchange. -/
namespace Mso.Futures

universe u v

structure FutureOptions where
  isShared : Bool
  useParentValue : Bool
  isMultiPost : Bool
  callTaskInvokeOnError : Bool
  deriving DecidableEq

/-- The callbacks count only as present or null. -/
structure FutureTraits where
  options : FutureOptions
  valueSize : Nat
  taskPost : Bool
  taskInvoke : Bool
  taskCatch : Bool
  deriving DecidableEq

def makeFuture (traits : FutureTraits) : Except String Unit :=
  if traits.options.useParentValue && traits.valueSize != 0 then
    .error "FutureOptions::UseParentValue requires that future does not have its own value."
  else if traits.taskPost && !(traits.taskInvoke || traits.taskCatch) then
    .error "TaskInvoke or TaskCatch callback is required if TaskPost callback is present."
  else if traits.options.isMultiPost && traits.taskPost then
    .error "MultiPost must not have TaskPost callback"
  else if traits.options.isMultiPost && !traits.taskInvoke then
    .error "MultiPost must have TaskInvoke callback"
  else if traits.options.isMultiPost && !traits.taskCatch then
    .error "MultiPost must have TaskCatch callback"
  else if traits.options.isMultiPost && traits.options.useParentValue then
    .error "MultiPost cannot use parent value"
  else
    .ok ()

structure MadeTraits extends FutureTraits where
  made : makeFuture toFutureTraits = .ok ()

/-- Where `TrySetError` takes the error from: a value, or the error of a future that
its caller refers to. -/
inductive ErrorRef (FutureId : Type u) (ErrorCode : Type v) where
  | value (error : Option ErrorCode)
  | errorOf (future : FutureId)
  deriving DecidableEq

/-- The methods that load the packed word and change it with a compare-exchange.
A successful `TryStartSetValue` and `TryStartSetError` lead to the second step. -/
inductive Method (FutureId : Type u) (ErrorCode : Type v) where
  | trySetInvoking (waitCycles : Nat) (crashIfFailed : Bool)
  | tryStartSetValue (crashIfFailed : Bool)
  | startAwaiting
  | trySetSuccess (crashIfFailed : Bool)
  | tryStartSetError (futureError : ErrorRef FutureId ErrorCode) (crashIfFailed : Bool)
  | setFailed
  | trySetPosted
  | tryPostInternal (parent : Option FutureId) (crashIfFailed : Bool)
  deriving DecidableEq

/-- What a method makes of a state that it read. -/
inductive Attempt where
  | exchange
  | wait
  | returnFalse
  | crash (why : String)
  deriving DecidableEq

def unexpectedState (state : FutureState) (crashIfFailed : Bool) (errorMessage : String) : Attempt :=
  if crashIfFailed then .crash ("State: " ++ state.toString ++ ". " ++ errorMessage)
  else .returnFalse

namespace FutureTraits
variable (traits : FutureTraits)

def isVoidValue : Bool := traits.valueSize == 0

/-- `waitCycles` is what is left before the decrement. -/
def trySetInvoking (isSynchronous : Bool) (waitCycles : Nat) (crashIfFailed : Bool) :
    FutureState → Attempt
  | .posting =>
    if isSynchronous then .exchange
    else if waitCycles ≤ 1 then
      unexpectedState .posting crashIfFailed "Cannot move to Invoking state"
    else .wait
  | .posted => .exchange
  | state => unexpectedState state crashIfFailed "Cannot move to Invoking state"

def tryStartSetValue (isSynchronous crashIfFailed : Bool) (state : FutureState) : Attempt :=
  if traits.isVoidValue then
    if crashIfFailed then .crash "Value must not be of void type" else .returnFalse
  else
    match state with
    | .pending =>
      if !traits.options.isMultiPost && traits.taskInvoke then
        unexpectedState state crashIfFailed "TaskInvoke must be called before setting value."
      else .exchange
    | .invoking =>
      if isSynchronous then .exchange
      else unexpectedState state crashIfFailed
        "Value can be set from Invoking state only synchronously"
    | .awaiting => .exchange
    | _ => unexpectedState state crashIfFailed "We cannot move to SettingResult from this state."

def startAwaiting : FutureState → Attempt
  | .invoking => .exchange
  | _ => .crash "Current state must be FutureState::Invoking"

def trySetSuccess (isSynchronous crashIfFailed : Bool) (state : FutureState) : Attempt :=
  match state with
  | .pending =>
    if !traits.options.isMultiPost && traits.taskInvoke then
      unexpectedState state crashIfFailed "Task must be invoked before moving to Succeeded state."
    else if !traits.options.isMultiPost && traits.options.useParentValue then
      unexpectedState state crashIfFailed
        "Futures that use parent value must move to Posting state before moving to Succeeded state."
    else if !traits.isVoidValue then
      unexpectedState state crashIfFailed
        "Non-void value must be set before moving to Succeeded state."
    else .exchange
  | .posting =>
    if traits.taskInvoke then
      unexpectedState state crashIfFailed "Task must be invoked before moving to Succeeded state."
    else if !isSynchronous then
      unexpectedState state crashIfFailed
        "From Posting state we can move to Succeeded state only synchronously."
    else if !traits.options.useParentValue then
      unexpectedState state crashIfFailed
        "We can only move to Succeeded state from Posting state if future uses parent value."
    else .exchange
  | .invoking =>
    if !isSynchronous then
      unexpectedState state crashIfFailed
        "From Invoking state we can move to Succeeded state only synchronously."
    else if !traits.isVoidValue then
      unexpectedState state crashIfFailed
        "Non-void value must be set before moving to Succeeded state."
    else .exchange
  | .awaiting =>
    if !traits.isVoidValue then
      unexpectedState state crashIfFailed
        "Non-void value must be set before moving to Succeeded state."
    else .exchange
  | .settingResult => .exchange
  | _ => unexpectedState state crashIfFailed "Cannot move to Succeeded state."

/-- `linked` says that `m_link` is not null. -/
def tryStartSetError (isSynchronous linked crashIfFailed : Bool) (state : FutureState) : Attempt :=
  match state with
  | .pending =>
    if linked then
      unexpectedState state crashIfFailed
        "Error cannot be set from Pending state if future is a part of linked list"
    else .exchange
  | .posted | .awaiting => .exchange
  | .posting => if isSynchronous then .exchange else .wait
  | .invoking =>
    if isSynchronous then .exchange
    else unexpectedState state crashIfFailed
      "Error can be set from Invoking state only synchronously"
  | _ => unexpectedState state crashIfFailed "From this state we cannot set error"

def setFailed : FutureState → Attempt
  | .settingResult => .exchange
  | state => unexpectedState state true "Cannot move to Failed state"

def trySetPosted : FutureState → Attempt
  | .posting => .exchange
  | _ => .returnFalse

def tryPostInternal (linked crashIfFailed : Bool) : FutureState → Attempt
  | .pending => .exchange
  | state =>
    if linked then .crash "State must be FutureState::Pending if m_link is not null"
    else unexpectedState state crashIfFailed "Post expects Pending state"

variable {FutureId : Type u} {ErrorCode : Type v}

/-- The body of the loop of each method, up to its compare-exchange. -/
def attempt (isSynchronous linked : Bool) : Method FutureId ErrorCode → FutureState → Attempt
  | .trySetInvoking waitCycles crashIfFailed =>
    FutureTraits.trySetInvoking isSynchronous waitCycles crashIfFailed
  | .tryStartSetValue crashIfFailed => traits.tryStartSetValue isSynchronous crashIfFailed
  | .startAwaiting => FutureTraits.startAwaiting
  | .trySetSuccess crashIfFailed => traits.trySetSuccess isSynchronous crashIfFailed
  | .tryStartSetError _ crashIfFailed =>
    FutureTraits.tryStartSetError isSynchronous linked crashIfFailed
  | .setFailed => FutureTraits.setFailed
  | .trySetPosted => FutureTraits.trySetPosted
  | .tryPostInternal _ crashIfFailed => FutureTraits.tryPostInternal linked crashIfFailed

end FutureTraits

namespace Method
variable {FutureId : Type u} {ErrorCode : Type v}

def target : Method FutureId ErrorCode → FutureState
  | trySetInvoking _ _ => .invoking
  | tryStartSetValue _ | tryStartSetError _ _ => .settingResult
  | startAwaiting => .awaiting
  | trySetSuccess _ => .succeeded
  | setFailed => .failed
  | trySetPosted => .posted
  | tryPostInternal _ _ => .posting

end Method

/-- The arrows of the state diagram of an ordinary future. -/
def FutureState.transition : FutureState → FutureState → Bool
  | .pending, .succeeded | .pending, .settingResult | .pending, .posting => true
  | .posting, .succeeded | .posting, .invoking | .posting, .posted
  | .posting, .settingResult => true
  | .posted, .invoking | .posted, .settingResult => true
  | .invoking, .succeeded | .invoking, .awaiting | .invoking, .settingResult => true
  | .awaiting, .succeeded | .awaiting, .settingResult => true
  | .settingResult, .succeeded | .settingResult, .failed => true
  | _, _ => false

def FutureState.multiPostTransition : FutureState → FutureState → Bool
  | .pending, .succeeded | .pending, .settingResult => true
  | .settingResult, .succeeded | .settingResult, .failed => true
  | _, _ => false

section Attempts
variable {traits : FutureTraits} {isSynchronous linked crashIfFailed : Bool} {state : FutureState}

@[simp] theorem unexpectedState_ne_exchange (state : FutureState) (crashIfFailed : Bool)
    (errorMessage : String) : unexpectedState state crashIfFailed errorMessage ≠ .exchange := by
  unfold unexpectedState
  split <;> simp

namespace FutureTraits

theorem trySetInvoking_exchange {cycles : Nat}
    (h : trySetInvoking isSynchronous cycles crashIfFailed state = .exchange) :
    state = .posting ∧ isSynchronous = true ∨ state = .posted := by
  cases state <;> simp only [trySetInvoking, unexpectedState_ne_exchange] at h
  case posting =>
    split at h
    · exact .inl ⟨rfl, ‹_›⟩
    · split at h <;> simp at h
  case posted => exact .inr rfl

theorem tryStartSetValue_exchange
    (h : traits.tryStartSetValue isSynchronous crashIfFailed state = .exchange) :
    state = .pending ∨ state = .invoking ∧ isSynchronous = true ∨ state = .awaiting := by
  simp only [tryStartSetValue] at h
  split at h
  · split at h <;> cases h
  · cases state <;> simp only [unexpectedState_ne_exchange] at h
    case pending => exact .inl rfl
    case invoking =>
      split at h
      · exact .inr (.inl ⟨rfl, ‹_›⟩)
      · simp at h
    case awaiting => exact .inr (.inr rfl)

theorem startAwaiting_exchange (h : startAwaiting state = .exchange) : state = .invoking := by
  cases state <;> cases h
  rfl

theorem trySetSuccess_exchange
    (h : traits.trySetSuccess isSynchronous crashIfFailed state = .exchange) :
    state = .pending ∨ (state = .posting ∨ state = .invoking) ∧ isSynchronous = true ∨
      state = .awaiting ∨ state = .settingResult := by
  cases state <;> simp only [trySetSuccess, unexpectedState_ne_exchange] at h
  case pending => exact .inl rfl
  case awaiting => exact .inr (.inr (.inl rfl))
  case settingResult => exact .inr (.inr (.inr rfl))
  case posting =>
    split at h
    · simp at h
    split at h
    · simp at h
    exact .inr (.inl ⟨.inl rfl, by simp_all⟩)
  case invoking =>
    split at h
    · simp at h
    exact .inr (.inl ⟨.inr rfl, by simp_all⟩)

theorem tryStartSetError_exchange
    (h : tryStartSetError isSynchronous linked crashIfFailed state = .exchange) :
    state = .pending ∨ (state = .posting ∨ state = .invoking) ∧ isSynchronous = true ∨
      state = .posted ∨ state = .awaiting := by
  cases state <;> simp only [tryStartSetError, unexpectedState_ne_exchange] at h
  case pending => exact .inl rfl
  case posted => exact .inr (.inr (.inl rfl))
  case awaiting => exact .inr (.inr (.inr rfl))
  case posting =>
    split at h
    · exact .inr (.inl ⟨.inl rfl, ‹_›⟩)
    · cases h
  case invoking =>
    split at h
    · exact .inr (.inl ⟨.inr rfl, ‹_›⟩)
    · simp at h

theorem setFailed_exchange (h : setFailed state = .exchange) : state = .settingResult := by
  cases state <;> simp_all [setFailed]

theorem trySetPosted_exchange (h : trySetPosted state = .exchange) : state = .posting := by
  cases state <;> cases h
  rfl

theorem tryPostInternal_exchange (h : tryPostInternal linked crashIfFailed state = .exchange) :
    state = .pending := by
  cases state <;> simp only [tryPostInternal] at h
  case pending => rfl
  all_goals split at h <;> simp at h

end FutureTraits

variable {FutureId : Type u} {ErrorCode : Type v} {method : Method FutureId ErrorCode}

/-- A method goes on to its compare-exchange only along an arrow of the diagram. -/
theorem attempt_transition (h : traits.attempt isSynchronous linked method state = .exchange) :
    state.transition method.target = true := by
  cases method with
  | trySetInvoking =>
    rcases FutureTraits.trySetInvoking_exchange h with ⟨rfl, -⟩ | rfl <;> rfl
  | tryStartSetValue =>
    rcases FutureTraits.tryStartSetValue_exchange h with rfl | ⟨rfl, -⟩ | rfl <;> rfl
  | startAwaiting =>
    obtain rfl := FutureTraits.startAwaiting_exchange h
    rfl
  | trySetSuccess =>
    rcases FutureTraits.trySetSuccess_exchange h with rfl | ⟨rfl | rfl, -⟩ | rfl | rfl <;> rfl
  | tryStartSetError =>
    rcases FutureTraits.tryStartSetError_exchange h with rfl | ⟨rfl | rfl, -⟩ | rfl | rfl <;> rfl
  | setFailed =>
    obtain rfl := FutureTraits.setFailed_exchange h
    rfl
  | trySetPosted =>
    obtain rfl := FutureTraits.trySetPosted_exchange h
    rfl
  | tryPostInternal =>
    obtain rfl := FutureTraits.tryPostInternal_exchange h
    rfl

theorem not_isDone_of_transition {state next : FutureState} (h : state.transition next = true) :
    state.isDone = false := by
  cases state <;> first | rfl | cases next <;> cases h

end Attempts

end Mso.Futures
