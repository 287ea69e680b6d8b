import Mathlib
import ReactNativeWindows.Mso.Future.FutureTraits

/-! The memory of a future, which holds `FutureWeakRef`, `FutureImpl`, and, where there are any, a
`FutureCallback`, the value and the task. -/
namespace Mso.Futures

inductive Build where
  | bits32
  | bits64

namespace Build
variable (build : Build)

def sizeofPointer : ℕ :=
  match build with
  | bits32 => 4
  | bits64 => 8

/-- Where `size_t` wraps around. -/
def sizeLimit : ℕ :=
  match build with
  | bits32 => 4294967296
  | bits64 => 18446744073709551616

/-- The table of methods, the traits, the packed word, the link, the error and the size of the task. -/
def sizeofFutureImpl : ℕ := 6 * build.sizeofPointer

/-- Two tables of methods, and eight bytes with the counter and the flag. -/
def sizeofFutureCallback : ℕ := 2 * build.sizeofPointer + 8

end Build

def objectAlignment : ℕ := 8

def isAligned (ptr : ℕ) : Bool := ptr % objectAlignment == 0

/-- The mask clears the three low bits. -/
def getAlignedSize (build : Build) (size : ℕ) : ℕ :=
  (size + objectAlignment - 1) % build.sizeLimit / objectAlignment * objectAlignment

structure ByteArrayView where
  data : ℕ
  size : ℕ
  deriving DecidableEq

def ByteArrayView.null : ByteArrayView := ⟨0, 0⟩

structure Block where
  memory : ℕ
  memorySize : ℕ
  future : ℕ
  callback : ℕ
  value : ℕ
  taskBuffer : ByteArrayView
  deriving DecidableEq

/-- `MakeFuture` after its checks of the traits. `allocateEx` gives the address of a block of this size. -/
def allocateFuture (build : Build) (traits : FutureTraits) (taskSize : ℕ) (taskBuffer : Bool)
    (allocateEx : ℕ → ℕ) : Except String Block := do
  makeFuture traits
  let memorySize := objectAlignment
  let futureImplOffset := getAlignedSize build memorySize
  let memorySize := (futureImplOffset + build.sizeofFutureImpl) % build.sizeLimit
  let futureCallbackOffset := getAlignedSize build memorySize
  let memorySize := (futureCallbackOffset + if traits.taskPost then build.sizeofFutureCallback else 0) %
    build.sizeLimit
  let valueOffset := getAlignedSize build memorySize
  let memorySize := (valueOffset + traits.valueSize) % build.sizeLimit
  let taskOffset := getAlignedSize build memorySize
  let memorySize := (taskOffset + taskSize) % build.sizeLimit
  if taskSize ≠ 0 ∧ taskBuffer = false then
    .error "taskBuffer pointer must not be null for not zero taskSize"
  else
    let memory := allocateEx memorySize
    if isAligned memory = false then .error "memory for FutureImpl must be aligned."
    else if 0 < traits.valueSize ∧ isAligned (memory + valueOffset) = false then
      .error "*value must be aligned."
    else if 0 < taskSize ∧ isAligned (memory + taskOffset) = false then
      .error "taskBuffer->Data() must be aligned."
    else if taskSize = 0 ∧ taskBuffer = true then .error "taskBuffer must be null"
    else
      .ok ⟨memory, memorySize, memory + futureImplOffset, memory + futureCallbackOffset,
        memory + valueOffset, if 0 < taskSize then ⟨memory + taskOffset, taskSize⟩ else .null⟩

section FutureImpl
variable (build : Build) (traits : FutureTraits) (taskSize future : ℕ)

def getCallback : ByteArrayView :=
  if traits.taskPost then
    ⟨future + getAlignedSize build build.sizeofFutureImpl, build.sizeofFutureCallback⟩
  else .null

def sizeBeforeValue : ℕ :=
  if traits.taskPost then
    (build.sizeofFutureCallback + getAlignedSize build build.sizeofFutureImpl) % build.sizeLimit
  else build.sizeofFutureImpl

def getValueInternal : ByteArrayView :=
  if 0 < traits.valueSize then
    ⟨future + getAlignedSize build (sizeBeforeValue build traits), traits.valueSize⟩
  else .null

def getTask : ByteArrayView :=
  if 0 < taskSize then
    let memorySize := sizeBeforeValue build traits
    let memorySize := if 0 < traits.valueSize then
      (traits.valueSize + getAlignedSize build memorySize) % build.sizeLimit else memorySize
    ⟨future + getAlignedSize build memorySize, taskSize⟩
  else .null

def getFutureImpl (callback : ℕ) : ℕ := callback - build.sizeofFutureImpl

end FutureImpl

def Block.areas (block : Block) (build : Build) (traits : FutureTraits) : List ByteArrayView :=
  [⟨block.memory, objectAlignment⟩, ⟨block.future, build.sizeofFutureImpl⟩,
    ⟨block.callback, if traits.taskPost then build.sizeofFutureCallback else 0⟩,
    ⟨block.value, traits.valueSize⟩, block.taskBuffer]

def ByteArrayView.Apart (area other : ByteArrayView) : Prop :=
  ∀ address, ¬(area.data ≤ address ∧ address < area.data + area.size ∧
    other.data ≤ address ∧ address < other.data + other.size)

/-- The methods find the areas that were reserved, none of them overlaps another one or the end of the
block, and the value is aligned as its type asks. -/
structure Block.LaidOut (block : Block) (build : Build) (traits : FutureTraits) (taskSize alignment : ℕ) :
    Prop where
  callback : traits.taskPost = true →
    getCallback build traits block.future = ⟨block.callback, build.sizeofFutureCallback⟩
  back : traits.taskPost = true →
    getFutureImpl build (getCallback build traits block.future).data = block.future
  value : 0 < traits.valueSize →
    getValueInternal build traits block.future = ⟨block.value, traits.valueSize⟩
  task : getTask build traits taskSize block.future = block.taskBuffer
  apart : (block.areas build traits).Pairwise ByteArrayView.Apart
  inside : ∀ area ∈ block.areas build traits,
    block.memory ≤ area.data ∧ area.data + area.size ≤ block.memory + block.memorySize
  aligned : 0 < traits.valueSize → alignment ∣ block.value

/-- The alignments that `ValueTraits` admits. -/
def Admitted (build : Build) (alignment : ℕ) : Prop :=
  (∃ power, alignment = 2 ^ power) ∧ alignment ≤ build.sizeofPointer * 2

theorem Admitted.cases {build : Build} {alignment : ℕ} (h : Admitted build alignment) :
    alignment ∣ 8 ∨ alignment = 16 ∧ build = .bits64 := by
  obtain ⟨⟨power, rfl⟩, hLe⟩ := h
  have hPower : power ≤ 4 := by
    by_contra hMore
    have hBig : 2 ^ 5 ≤ 2 ^ power := Nat.pow_le_pow_right Nat.two_pos (by omega)
    cases build <;> simp only [Build.sizeofPointer] at hLe <;> omega
  rcases Nat.lt_or_eq_of_le hPower with hLess | rfl
  · exact .inl (pow_dvd_pow 2 (by omega : power ≤ 3))
  · cases build with
    | bits32 => simp [Build.sizeofPointer] at hLe
    | bits64 => exact .inr ⟨rfl, rfl⟩

/-- The bytes before the value. -/
def valueOffset (build : Build) (traits : FutureTraits) : ℕ :=
  8 + build.sizeofFutureImpl + if traits.taskPost then build.sizeofFutureCallback else 0

/-- The whole block, as a number without a limit. -/
def fullSize (build : Build) (traits : FutureTraits) (taskSize : ℕ) : ℕ :=
  valueOffset build traits + (traits.valueSize + 7) / 8 * 8 + taskSize

section Layout
variable {build : Build} {traits : FutureTraits} {taskSize alignment : ℕ} {taskBuffer : Bool}
  {allocateEx : ℕ → ℕ} {block : Block}

def taskOffset (build : Build) (traits : FutureTraits) : ℕ :=
  getAlignedSize build ((valueOffset build traits + traits.valueSize) % build.sizeLimit)

/-- The sizes in front of the value need no rounding. -/
theorem allocateFuture_ok (h : allocateFuture build traits taskSize taskBuffer allocateEx = .ok block)
    (hTask : 0 < taskSize) : block.memory % 8 = 0 ∧
      block.memorySize = (taskOffset build traits + taskSize) % build.sizeLimit ∧
      block.future = block.memory + 8 ∧ block.callback = block.memory + (8 + build.sizeofFutureImpl) ∧
      block.value = block.memory + valueOffset build traits ∧
      block.taskBuffer = ⟨block.memory + taskOffset build traits, taskSize⟩ := by
  have hImpl : getAlignedSize build objectAlignment = 8 := by cases build <;> rfl
  have hCallback : getAlignedSize build ((8 + build.sizeofFutureImpl) % build.sizeLimit) =
      8 + build.sizeofFutureImpl := by cases build <;> rfl
  have hValue : getAlignedSize build ((8 + build.sizeofFutureImpl +
      if traits.taskPost then build.sizeofFutureCallback else 0) % build.sizeLimit) =
        valueOffset build traits := by
    rw [valueOffset]
    cases traits.taskPost <;> cases build <;> rfl
  cases hMade : makeFuture traits with
  | error => simp [allocateFuture, hMade, bind, Except.bind] at h
  | ok =>
    simp only [allocateFuture, hMade, bind, Except.bind, hImpl, hCallback, hValue, if_pos hTask] at h
    rw [← taskOffset] at h
    split_ifs at h with hNull hMemory
    obtain rfl := Except.ok.inj h
    refine ⟨?_, rfl, rfl, rfl, rfl, rfl⟩
    simpa [isAligned, objectAlignment] using hMemory

theorem valueOffset_mod (build : Build) (traits : FutureTraits) : valueOffset build traits % 8 = 0 := by
  rw [valueOffset]
  cases traits.taskPost <;> cases build <;> rfl

theorem Build.sizeLimit_mod (build : Build) : build.sizeLimit % 8 = 0 := by
  cases build <;> rfl

/-- A block of this size is inside of `size_t`. -/
theorem taskOffset_eq
    (h : valueOffset build traits + (traits.valueSize + 7) / 8 * 8 < build.sizeLimit) :
    taskOffset build traits = valueOffset build traits + (traits.valueSize + 7) / 8 * 8 := by
  have hEight := valueOffset_mod build traits
  have hLimit := build.sizeLimit_mod
  have hSum : (valueOffset build traits + traits.valueSize) % build.sizeLimit =
      valueOffset build traits + traits.valueSize := Nat.mod_eq_of_lt (by omega)
  rw [taskOffset, getAlignedSize, objectAlignment, hSum, Nat.mod_eq_of_lt (by omega)]
  omega

theorem before_value (build : Build) (traits : FutureTraits) :
    getAlignedSize build (sizeBeforeValue build traits) + 8 = valueOffset build traits := by
  rw [valueOffset, sizeBeforeValue]
  cases traits.taskPost <;> cases build <;> rfl

theorem getTask_eq (hTask : 0 < taskSize) (future : ℕ)
    (h : valueOffset build traits + (traits.valueSize + 7) / 8 * 8 < build.sizeLimit) :
    (getTask build traits taskSize future).data + 8 = future + taskOffset build traits := by
  have hBefore := before_value build traits
  have hLimit := build.sizeLimit_mod
  rw [taskOffset_eq h, getTask, if_pos hTask]
  dsimp only
  split_ifs with hSize
  · have hSum : (traits.valueSize + getAlignedSize build (sizeBeforeValue build traits)) % build.sizeLimit =
        traits.valueSize + getAlignedSize build (sizeBeforeValue build traits) :=
      Nat.mod_eq_of_lt (by omega)
    have hEight : getAlignedSize build (sizeBeforeValue build traits) % 8 = 0 := Nat.mul_mod_left _ _
    rw [hSum]
    generalize getAlignedSize build (sizeBeforeValue build traits) = before at *
    rw [getAlignedSize, objectAlignment, Nat.mod_eq_of_lt (by omega)]
    omega
  · omega

/-- Nothing wraps around where the areas are inside of the block and apart. -/
theorem fits_of_laidOut (h : allocateFuture build traits taskSize taskBuffer allocateEx = .ok block)
    (hTask : 0 < taskSize) (hLaid : block.LaidOut build traits taskSize alignment) :
    fullSize build traits taskSize < build.sizeLimit := by
  obtain ⟨-, hSize, -, -, hValue, hBuffer⟩ := allocateFuture_ok h hTask
  have hLess : block.memorySize < build.sizeLimit := by
    rw [hSize]
    exact Nat.mod_lt _ (by cases build <;> decide)
  have hValueIn := (hLaid.inside ⟨block.value, traits.valueSize⟩ (by simp [Block.areas])).2
  have hTaskIn := (hLaid.inside block.taskBuffer (by simp [Block.areas])).2
  simp only [hValue, hBuffer] at hValueIn hTaskIn
  have hTaskOffset : taskOffset build traits ≠ 0 := by
    intro hZero
    have hApart := (List.pairwise_cons.mp hLaid.apart).1 block.taskBuffer (by simp)
    exact hApart block.memory (by simp [hBuffer, hZero, objectAlignment, hTask])
  have hSum : (valueOffset build traits + traits.valueSize) % build.sizeLimit =
      valueOffset build traits + traits.valueSize := Nat.mod_eq_of_lt (by omega)
  have hRound : valueOffset build traits + (traits.valueSize + 7) / 8 * 8 < build.sizeLimit := by
    by_contra hWrap
    refine hTaskOffset ?_
    rw [taskOffset, getAlignedSize, objectAlignment, hSum]
    have hEight := valueOffset_mod build traits
    have hLimit := build.sizeLimit_mod
    have hOver : valueOffset build traits + traits.valueSize + 8 - 1 - build.sizeLimit < 8 := by omega
    have hMod : (valueOffset build traits + traits.valueSize + 8 - 1) % build.sizeLimit =
        valueOffset build traits + traits.valueSize + 8 - 1 - build.sizeLimit := by
      rw [Nat.mod_eq_sub_mod (by omega), Nat.mod_eq_of_lt (by omega)]
    omega
  rw [fullSize, ← taskOffset_eq hRound]
  omega

/-- The value begins at a multiple of 16 only behind a callback, if the block does. -/
theorem dvd_value_iff (hAlignment : Admitted build alignment) (hMemory : block.memory % 8 = 0) :
    alignment ∣ block.memory + valueOffset build traits ↔
      alignment ≤ 8 ∨ (block.memory % 16 = 0 ↔ traits.taskPost = true) := by
  have hEight := valueOffset_mod build traits
  rcases hAlignment.cases with hSmall | ⟨rfl, rfl⟩
  · exact iff_of_true (hSmall.trans (by omega)) (.inl (Nat.le_of_dvd (by decide) hSmall))
  · rw [Nat.dvd_iff_mod_eq_zero, valueOffset]
    cases traits.taskPost <;>
      simp [Build.sizeofFutureImpl, Build.sizeofFutureCallback, Build.sizeofPointer] <;> omega

/-- The methods find what was reserved. A value that has to be aligned by two pointers of 64 bits is so
if it stands behind a callback, or in a block that is not itself aligned so. -/
theorem memory_layout_iff
    (hMake : allocateFuture build traits taskSize taskBuffer allocateEx = .ok block)
    (hTask : 0 < taskSize) (hAlignment : Admitted build alignment) :
    block.LaidOut build traits taskSize alignment ↔ fullSize build traits taskSize < build.sizeLimit ∧
      (traits.valueSize = 0 ∨ alignment ≤ 8 ∨ (block.memory % 16 = 0 ↔ traits.taskPost = true)) := by
  obtain ⟨hMemory, hSize, hFuture, hCallback, hValue, hBuffer⟩ := allocateFuture_ok hMake hTask
  rw [← dvd_value_iff hAlignment hMemory, ← hValue]
  constructor
  · intro hLaid
    refine ⟨fits_of_laidOut hMake hTask hLaid, ?_⟩
    exact (Nat.eq_zero_or_pos traits.valueSize).imp_right hLaid.aligned
  · rintro ⟨hFits, hAligned⟩
    rw [fullSize] at hFits
    have hRound := taskOffset_eq (lt_of_le_of_lt (Nat.le_add_right _ taskSize) hFits)
    have hFull : block.memorySize = taskOffset build traits + taskSize := by
      rw [hSize, hRound, Nat.mod_eq_of_lt hFits]
    have hBefore := before_value build traits
    have hImpl : getAlignedSize build build.sizeofFutureImpl = build.sizeofFutureImpl := by
      cases build <;> rfl
    have hOffset : 8 + build.sizeofFutureImpl + (if traits.taskPost then build.sizeofFutureCallback else 0) =
      valueOffset build traits := rfl
    constructor
    case callback =>
      intro hPost
      rw [getCallback, if_pos hPost, hImpl, hFuture, hCallback, Nat.add_assoc]
    case back =>
      intro hPost
      rw [getCallback, if_pos hPost, hImpl, getFutureImpl, Nat.add_sub_cancel]
    case value =>
      intro hPos
      rw [getValueInternal, if_pos hPos, ByteArrayView.mk.injEq]
      exact ⟨by omega, rfl⟩
    case task =>
      have hData := getTask_eq hTask block.future (lt_of_le_of_lt (Nat.le_add_right _ taskSize) hFits)
      have hTaskData : (getTask build traits taskSize block.future).data =
          block.memory + taskOffset build traits := by omega
      have hTaskSize : (getTask build traits taskSize block.future).size = taskSize := by
        rw [getTask, if_pos hTask]
      rw [hBuffer]
      exact congrArg₂ ByteArrayView.mk hTaskData hTaskSize
    case apart =>
      have hApart : ∀ {area other : ByteArrayView}, area.data + area.size ≤ other.data →
          area.Apart other := by
        intro area other hLe address hBoth
        omega
      simp only [Block.areas, List.pairwise_cons, List.mem_cons, List.not_mem_nil, or_false, forall_eq_or_imp,
        forall_eq, objectAlignment]
      simp only [hFuture, hCallback, hValue, hBuffer]
      refine ⟨⟨?_, ?_, ?_, ?_⟩, ⟨?_, ?_, ?_⟩, ⟨?_, ?_⟩, ?_, by simp⟩ <;> apply hApart <;> dsimp only <;> omega
    case inside =>
      simp only [Block.areas, List.mem_cons, List.not_mem_nil, or_false, forall_eq_or_imp, forall_eq,
        objectAlignment, hFull]
      simp only [hFuture, hCallback, hValue, hBuffer]
      refine ⟨?_, ?_, ?_, ?_, ?_⟩ <;> omega
    case aligned => exact fun hPos => hAligned.resolve_left hPos.ne'

end Layout

def withValue (taskPost : Bool) : FutureTraits := ⟨⟨false, false, false, false⟩, 16, taskPost, true, false⟩

/-- The allocator gives blocks that begin at a multiple of 16. -/
def withValueBlock (taskPost : Bool) : Block :=
  if taskPost then ⟨4096, 104, 4104, 4152, 4176, ⟨4192, 8⟩⟩
  else ⟨4096, 80, 4104, 4152, 4152, ⟨4168, 8⟩⟩

theorem allocate_withValue (taskPost : Bool) :
    allocateFuture .bits64 (withValue taskPost) 8 true (fun _ => 4096) = .ok (withValueBlock taskPost) := by
  cases taskPost <;> rfl

theorem admitted_two_pointers : Admitted .bits64 16 := ⟨⟨4, rfl⟩, le_rfl⟩

theorem posted_value_laidOut : (withValueBlock true).LaidOut .bits64 (withValue true) 8 16 :=
  (memory_layout_iff (allocate_withValue true) (by decide) admitted_two_pointers).mpr
    ⟨by decide, .inr (.inr (iff_of_true rfl rfl))⟩

/-- Without a callback the value is eight bytes off. -/
theorem plain_value_misaligned : ¬ (∀ block,
    allocateFuture .bits64 (withValue false) 8 true (fun _ => 4096) = .ok block →
      Admitted .bits64 16 → block.LaidOut .bits64 (withValue false) 8 16) := by
  intro hAll
  have hValue : 16 ∣ (withValueBlock false).value :=
    (hAll _ (allocate_withValue false) admitted_two_pointers).aligned (by decide)
  exact absurd hValue (by decide)

end Mso.Futures
