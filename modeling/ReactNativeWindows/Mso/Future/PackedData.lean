import Mathlib.Logic.Function.Defs

/-! The word in which a future packs its state and its first continuation. The
three low bits of an address that is aligned by 8 are free for the state. -/
namespace Mso.Futures

universe u

inductive FutureState where
  | pending
  | posting
  | posted
  | invoking
  | awaiting
  | settingResult
  | succeeded
  | failed
  deriving DecidableEq

namespace FutureState

def toString : FutureState → String
  | pending => "Pending"
  | posting => "Posting"
  | posted => "Posted"
  | invoking => "Invoking"
  | awaiting => "Awaiting"
  | settingResult => "SettingResult"
  | succeeded => "Succeeded"
  | failed => "Failed"

def isDone : FutureState → Bool
  | succeeded | failed => true
  | _ => false

def toBits : FutureState → BitVec 64
  | pending => 0
  | posting => 1
  | posted => 2
  | invoking => 3
  | awaiting => 4
  | settingResult => 5
  | succeeded => 6
  | failed => 7

/-- The cast of a word to the enumeration, where only `StateMask` remains of the word. -/
def ofBits (bits : BitVec 64) : FutureState :=
  if bits = 0 then pending
  else if bits = 1 then posting
  else if bits = 2 then posted
  else if bits = 3 then invoking
  else if bits = 4 then awaiting
  else if bits = 5 then settingResult
  else if bits = 6 then succeeded
  else failed

theorem ofBits_toBits (state : FutureState) : ofBits state.toBits = state := by
  cases state <;> decide

end FutureState

structure FuturePackedData where
  value : BitVec 64
  deriving DecidableEq

namespace FuturePackedData

def stateMask : BitVec 64 := 0b0111

def continuationMask : BitVec 64 := ~~~stateMask

/-- A fake address that stands for continuations that were already invoked. -/
def continuationInvoked : BitVec 64 := -1 &&& continuationMask

def getState (data : FuturePackedData) : FutureState := .ofBits (data.value &&& stateMask)

def getContinuation (data : FuturePackedData) : BitVec 64 := data.value &&& continuationMask

def make (state : FutureState) (continuation : BitVec 64) : FuturePackedData :=
  ⟨continuation ||| state.toBits⟩

def Aligned (continuation : BitVec 64) : Prop := continuation &&& continuationMask = continuation

variable {continuation : BitVec 64}

theorem Aligned.and_stateMask (h : Aligned continuation) : continuation &&& stateMask = 0#64 := by
  have hMasks : continuationMask &&& stateMask = 0#64 := by decide
  rw [← h, BitVec.and_assoc, hMasks, BitVec.and_zero]

theorem getState_make (h : Aligned continuation) (state : FutureState) :
    (make state continuation).getState = state := by
  have hState : state.toBits &&& stateMask = state.toBits := by cases state <;> decide
  rw [getState, make, BitVec.and_or_distrib_right, h.and_stateMask, hState, BitVec.zero_or,
    FutureState.ofBits_toBits]

theorem getContinuation_make (h : Aligned continuation) (state : FutureState) :
    (make state continuation).getContinuation = continuation := by
  have hState : state.toBits &&& continuationMask = 0#64 := by cases state <;> decide
  rw [getContinuation, make, BitVec.and_or_distrib_right, h, hState, BitVec.or_zero]

end FuturePackedData

/-- The continuation pointer: null, a future, or the placeholder that stands for
continuations that were already invoked. -/
inductive Continuation (FutureId : Type u) where
  | null
  | future (continuation : FutureId)
  | invoked
  deriving DecidableEq

/-- What the packed word stands for. -/
structure StateAndContinuation (FutureId : Type u) where
  state : FutureState
  continuation : Continuation FutureId
  deriving DecidableEq

/-- Where the futures are: each at an address of its own, aligned, and neither null
nor the placeholder. -/
structure Layout (FutureId : Type u) where
  address : FutureId → BitVec 64
  aligned : ∀ future, FuturePackedData.Aligned (address future)
  notNull : ∀ future, address future ≠ 0#64
  notInvoked : ∀ future, address future ≠ FuturePackedData.continuationInvoked
  injective : Function.Injective address

namespace Layout
variable {FutureId : Type u} (layout : Layout FutureId)

def pointer : Continuation FutureId → BitVec 64
  | .null => 0#64
  | .future continuation => layout.address continuation
  | .invoked => FuturePackedData.continuationInvoked

def pack (data : StateAndContinuation FutureId) : FuturePackedData :=
  .make data.state (layout.pointer data.continuation)

theorem pointer_aligned (continuation : Continuation FutureId) :
    FuturePackedData.Aligned (layout.pointer continuation) := by
  cases continuation with
  | null => exact BitVec.zero_and
  | future continuation => exact layout.aligned continuation
  | invoked =>
    have hAligned : FuturePackedData.continuationInvoked &&& FuturePackedData.continuationMask =
      FuturePackedData.continuationInvoked := by decide
    exact hAligned

theorem pointer_injective : Function.Injective layout.pointer := by
  have hInvoked : FuturePackedData.continuationInvoked ≠ 0#64 := by decide
  intro left right hSame
  cases left <;> cases right <;> simp only [pointer] at hSame
  case future.future left right => rw [layout.injective hSame]
  case future.null left => exact absurd hSame (layout.notNull left)
  case null.future right => exact absurd hSame.symm (layout.notNull right)
  case future.invoked left => exact absurd hSame (layout.notInvoked left)
  case invoked.future right => exact absurd hSame.symm (layout.notInvoked right)
  case null.invoked => exact absurd hSame.symm hInvoked
  case invoked.null => exact absurd hSame hInvoked
  all_goals rfl

@[simp] theorem getState_pack (data : StateAndContinuation FutureId) :
    (layout.pack data).getState = data.state :=
  FuturePackedData.getState_make (layout.pointer_aligned _) _

@[simp] theorem getContinuation_pack (data : StateAndContinuation FutureId) :
    (layout.pack data).getContinuation = layout.pointer data.continuation :=
  FuturePackedData.getContinuation_make (layout.pointer_aligned _) _

/-- Comparing packed words is comparing what they stand for, so that one
compare-exchange decides on the state and on the continuation. -/
theorem pack_injective : Function.Injective layout.pack := by
  rintro ⟨state, continuation⟩ ⟨state', continuation'⟩ hSame
  have hState := congrArg FuturePackedData.getState hSame
  have hContinuation := congrArg FuturePackedData.getContinuation hSame
  rw [getState_pack, getState_pack] at hState
  rw [getContinuation_pack, getContinuation_pack] at hContinuation
  rw [StateAndContinuation.mk.injEq]
  exact ⟨hState, layout.pointer_injective hContinuation⟩

end Layout

end Mso.Futures
