import ReactNativeWindows.Control.Traces

/-! Queue local values: locking one swaps it with a TLS variable of the thread, and the guard of the
lock swaps them back. -/
namespace Mso

open Control (Throughout Allowed Along)

/-- What the pointer of a TLS variable or of a queue refers to: something that was there before, or a
value that `new TValue{}` made. -/
inductive LocalValue where
  | other (address : ℕ)
  | created (number : ℕ)
  deriving DecidableEq

inductive LocalValueSwapAction where
  | lock | unlock
  deriving DecidableEq

/-- A null pointer is `none`. -/
structure QueueLocalValueEntry where
  m_data : Option LocalValue
  m_isLocked : Bool

/-- A guard of a lock that succeeded. What the TLS variable held before the lock and right after it is
kept for the statements. -/
structure DispatchLocalValueGuard (Queue Variable : Type) where
  queue : Queue
  tlsValue : Variable
  before : Option LocalValue
  value : Option LocalValue

def DispatchLocalValueGuard.key {Queue Variable : Type}
    (guard : DispatchLocalValueGuard Queue Variable) : Queue × Variable :=
  (guard.queue, guard.tlsValue)

/-- Each thread has the TLS variables and the guards of its own, the innermost guard first. An entry
that is not in the map of its queue yet is one with no data. `left` is what the last holder of a value
had in its TLS variable when it unlocked. -/
structure LocalValues (Queue Thread Variable : Type) where
  tlsValues : Thread → Variable → Option LocalValue
  localValues : Queue × Variable → QueueLocalValueEntry
  guards : Thread → List (DispatchLocalValueGuard Queue Variable)
  created : ℕ
  left : Queue × Variable → Option (Option LocalValue)

/-- Swaps both, and returns the local value, the TLS value and the number of values made so far. -/
def swapDispatchLocalValue (created : ℕ) (localValue tlsValue : Option LocalValue) :
    Option LocalValue × Option LocalValue × ℕ :=
  if tlsValue = none ∧ localValue = none then (tlsValue, some (.created created), created + 1)
  else (tlsValue, localValue, created)

theorem swap_localValue (created : ℕ) (localValue tlsValue : Option LocalValue) :
    (swapDispatchLocalValue created localValue tlsValue).1 = tlsValue := by
  rw [swapDispatchLocalValue]
  split
  · rfl
  · rfl

theorem swap_of_ne {localValue tlsValue : Option LocalValue} (h : tlsValue = none → localValue ≠ none)
    (created : ℕ) :
    swapDispatchLocalValue created localValue tlsValue = (tlsValue, localValue, created) := by
  rw [swapDispatchLocalValue, if_neg fun hBoth => h hBoth.1 hBoth.2]

/-- The two are never both null after a swap. -/
theorem swap_ne {created : ℕ} {localValue tlsValue : Option LocalValue}
    (h : (swapDispatchLocalValue created localValue tlsValue).2.1 = none) : tlsValue ≠ none := by
  intro hTls
  rw [swapDispatchLocalValue] at h
  split at h
  next => cases h
  next hBoth => exact hBoth ⟨hTls, h⟩

namespace LocalValues

variable {Queue Thread Variable : Type} [DecidableEq Queue] [DecidableEq Thread]
  [DecidableEq Variable]

def initial (tlsValues : Thread → Variable → Option ℕ) : LocalValues Queue Thread Variable :=
  ⟨fun thread tlsValue => (tlsValues thread tlsValue).map .other, fun _ => ⟨none, false⟩,
    fun _ => [], 0, fun _ => none⟩

def setTls (s : LocalValues Queue Thread Variable) (thread : Thread) (tlsValue : Variable)
    (value : Option LocalValue) : LocalValues Queue Thread Variable :=
  let values := Function.update (s.tlsValues thread) tlsValue value
  { s with tlsValues := Function.update s.tlsValues thread values }

def setEntry (s : LocalValues Queue Thread Variable) (queue : Queue) (tlsValue : Variable)
    (entry : QueueLocalValueEntry) : LocalValues Queue Thread Variable :=
  { s with localValues := Function.update s.localValues (queue, tlsValue) entry }

def setGuards (s : LocalValues Queue Thread Variable) (thread : Thread)
    (guards : List (DispatchLocalValueGuard Queue Variable)) : LocalValues Queue Thread Variable :=
  { s with guards := Function.update s.guards thread guards }

/-- `QueueService::TrySwapLocalValue`, under the mutex of the queue; `none` where it returns false. -/
def trySwapLocalValue (s : LocalValues Queue Thread Variable) (thread : Thread) (queue : Queue)
    (tlsValue : Variable) (action : LocalValueSwapAction) :
    Option (LocalValues Queue Thread Variable) :=
  let entry := s.localValues (queue, tlsValue)
  if (action = .lock ∧ entry.m_isLocked = false) ∨ (action = .unlock ∧ entry.m_isLocked = true) then
    let swapped := swapDispatchLocalValue s.created entry.m_data (s.tlsValues thread tlsValue)
    let s := s.setEntry queue tlsValue ⟨swapped.1, action = .lock⟩
    some { s.setTls thread tlsValue swapped.2.1 with created := swapped.2.2 }
  else none

/-- `DispatchQueue::LockLocalValue`; its guard is an empty one where the value is locked already. -/
def lockLocalValue (s : LocalValues Queue Thread Variable) (thread : Thread) (queue : Queue)
    (tlsValue : Variable) : LocalValues Queue Thread Variable :=
  match s.trySwapLocalValue thread queue tlsValue .lock with
  | none => s
  | some t =>
    let guard := ⟨queue, tlsValue, s.tlsValues thread tlsValue, t.tlsValues thread tlsValue⟩
    t.setGuards thread (guard :: t.guards thread)

def unlockLocalValue (s : LocalValues Queue Thread Variable) (thread : Thread) :
    Option (LocalValues Queue Thread Variable) :=
  match s.guards thread with
  | [] => none
  | guard :: outer =>
    let t := (s.trySwapLocalValue thread guard.queue guard.tlsValue .unlock).getD s
    let held := s.tlsValues thread guard.tlsValue
    some { t.setGuards thread outer with
      left := Function.update s.left (guard.queue, guard.tlsValue) (some held) }

end LocalValues

/-- A thread locks a value, destroys its innermost guard, or sets a TLS variable for which it has no
guard. -/
inductive LocalValueEvent (Queue Thread Variable : Type) where
  | lock (thread : Thread) (queue : Queue) (tlsValue : Variable)
  | unlock (thread : Thread)
  | assign (thread : Thread) (tlsValue : Variable) (value : Option ℕ)

namespace LocalValues

variable {Queue Thread Variable : Type} [DecidableEq Queue] [DecidableEq Thread]
  [DecidableEq Variable]

def step (s : LocalValues Queue Thread Variable) :
    LocalValueEvent Queue Thread Variable → Option (LocalValues Queue Thread Variable)
  | .lock thread queue tlsValue => some (s.lockLocalValue thread queue tlsValue)
  | .unlock thread => s.unlockLocalValue thread
  | .assign thread tlsValue value =>
    if (s.guards thread).all (·.tlsValue ≠ tlsValue) then
      some (s.setTls thread tlsValue (value.map .other))
    else none

def Locked (s : LocalValues Queue Thread Variable) (queue : Queue) (tlsValue : Variable) : Prop :=
  ∃ thread, (queue, tlsValue) ∈ (s.guards thread).map DispatchLocalValueGuard.key

/-- No second lock of a value succeeds, and a TLS variable holds after the unlock what it held before
the lock. -/
def Kept (s : LocalValues Queue Thread Variable) (event : LocalValueEvent Queue Thread Variable)
    (t : LocalValues Queue Thread Variable) : Prop :=
  match event with
  | .lock _ queue tlsValue => s.Locked queue tlsValue → t = s
  | .unlock thread => ∀ guard outer, s.guards thread = guard :: outer →
      t.guards thread = outer ∧ t.tlsValues thread guard.tlsValue = guard.before
  | .assign .. => True

/-- A lock that succeeds gives the value that the last holder left, and a new one to the first. -/
def Given (s : LocalValues Queue Thread Variable) (event : LocalValueEvent Queue Thread Variable)
    (t : LocalValues Queue Thread Variable) : Prop :=
  match event with
  | .lock thread queue tlsValue => ¬ s.Locked queue tlsValue →
      ∃ value, t.tlsValues thread tlsValue = some value ∧
        (s.left (queue, tlsValue) = some (some value) ∨
          (s.left (queue, tlsValue) = none ∧ value = .created s.created))
  | _ => True

/-- While values are locked for a TLS variable, it points to what the innermost of the locks gave. -/
def Pointed (s : LocalValues Queue Thread Variable) : Prop :=
  ∀ thread tlsValue guard, (s.guards thread).find? (·.tlsValue = tlsValue) = some guard →
    s.tlsValues thread tlsValue = guard.value ∧ guard.value ≠ none

def roomy (s : LocalValues Queue Thread Variable) : LocalValueEvent Queue Thread Variable → Prop
  | .lock thread queue tlsValue => ¬ s.Locked queue tlsValue →
      (s.localValues (queue, tlsValue)).m_data = none → s.tlsValues thread tlsValue = none
  | _ => True

/-- The guards can be destroyed from the innermost one on: each finds its value in the TLS variable and
what that held before in the entry of its queue. -/
def Nested (localValues : Queue × Variable → QueueLocalValueEntry)
    (tlsValues : Variable → Option LocalValue) :
    List (DispatchLocalValueGuard Queue Variable) → Prop
  | [] => True
  | guard :: outer =>
    tlsValues guard.tlsValue = guard.value ∧ (localValues guard.key).m_data = guard.before ∧
      (guard.value = none → guard.before ≠ none) ∧
      Nested localValues (Function.update tlsValues guard.tlsValue guard.before) outer

structure Inv (s : LocalValues Queue Thread Variable) : Prop where
  nested : ∀ thread, Nested s.localValues (s.tlsValues thread) (s.guards thread)
  locked : ∀ queue tlsValue,
    (s.localValues (queue, tlsValue)).m_isLocked = true ↔ s.Locked queue tlsValue
  distinct : ∀ thread, ((s.guards thread).map DispatchLocalValueGuard.key).Nodup
  alone : ∀ thread other key, key ∈ (s.guards thread).map DispatchLocalValueGuard.key →
    key ∈ (s.guards other).map DispatchLocalValueGuard.key → thread = other
  unlocked : ∀ key, (s.localValues key).m_isLocked = false →
    (s.localValues key).m_data = (s.left key).getD none

variable {localValues localValues' : Queue × Variable → QueueLocalValueEntry}
  {tlsValues : Variable → Option LocalValue}
  {guards : List (DispatchLocalValueGuard Queue Variable)}

omit [DecidableEq Queue] in
theorem Nested.congr (h : Nested localValues tlsValues guards)
    (hSame : ∀ guard ∈ guards, localValues' guard.key = localValues guard.key) :
    Nested localValues' tlsValues guards := by
  induction guards generalizing tlsValues with
  | nil => trivial
  | cons guard outer ih =>
    obtain ⟨hValue, hBefore, hNone, hOuter⟩ := h
    refine ⟨hValue, ?_, hNone, ?_⟩
    · rw [hSame guard List.mem_cons_self]
      exact hBefore
    · exact ih hOuter fun other hMem => hSame other (List.mem_cons_of_mem _ hMem)

omit [DecidableEq Queue] in
/-- A TLS variable without a guard can change. -/
theorem Nested.assign (h : Nested localValues tlsValues guards) {tlsValue : Variable}
    (hFree : ∀ guard ∈ guards, guard.tlsValue ≠ tlsValue) (value : Option LocalValue) :
    Nested localValues (Function.update tlsValues tlsValue value) guards := by
  induction guards generalizing tlsValues with
  | nil => trivial
  | cons guard outer ih =>
    obtain ⟨hValue, hBefore, hNone, hOuter⟩ := h
    have hNe : guard.tlsValue ≠ tlsValue := hFree guard List.mem_cons_self
    refine ⟨?_, hBefore, hNone, ?_⟩
    · rw [Function.update_of_ne hNe]
      exact hValue
    · rw [Function.update_comm hNe.symm]
      exact ih hOuter fun other hMem => hFree other (List.mem_cons_of_mem _ hMem)

omit [DecidableEq Queue] in
theorem Nested.find (h : Nested localValues tlsValues guards) {tlsValue : Variable}
    {guard : DispatchLocalValueGuard Queue Variable}
    (hFind : guards.find? (·.tlsValue = tlsValue) = some guard) :
    tlsValues tlsValue = guard.value := by
  induction guards generalizing tlsValues with
  | nil => cases hFind
  | cons first outer ih =>
    obtain ⟨hValue, -, -, hOuter⟩ := h
    by_cases hFirst : first.tlsValue = tlsValue
    · simp only [List.find?_cons, hFirst, decide_true, Option.some.injEq] at hFind
      rw [← hFind, ← hFirst]
      exact hValue
    · simp only [List.find?_cons, hFirst, decide_false] at hFind
      have hLater := ih hOuter hFind
      rwa [Function.update_of_ne fun hEq => hFirst hEq.symm] at hLater

def given (s : LocalValues Queue Thread Variable) (thread : Thread) (queue : Queue)
    (tlsValue : Variable) : Option LocalValue × ℕ :=
  (swapDispatchLocalValue s.created (s.localValues (queue, tlsValue)).m_data
    (s.tlsValues thread tlsValue)).2

def afterLock (s : LocalValues Queue Thread Variable) (thread : Thread) (queue : Queue)
    (tlsValue : Variable) : LocalValues Queue Thread Variable :=
  let before := s.tlsValues thread tlsValue
  let value := (s.given thread queue tlsValue).1
  ⟨Function.update s.tlsValues thread (Function.update (s.tlsValues thread) tlsValue value),
    Function.update s.localValues (queue, tlsValue) ⟨before, true⟩,
    Function.update s.guards thread (⟨queue, tlsValue, before, value⟩ :: s.guards thread),
    (s.given thread queue tlsValue).2, s.left⟩

theorem lockLocalValue_cases (s : LocalValues Queue Thread Variable) (thread : Thread)
    (queue : Queue) (tlsValue : Variable) :
    ((s.localValues (queue, tlsValue)).m_isLocked = true ∧
        s.lockLocalValue thread queue tlsValue = s) ∨
      ((s.localValues (queue, tlsValue)).m_isLocked = false ∧
        s.lockLocalValue thread queue tlsValue = s.afterLock thread queue tlsValue) := by
  cases hLocked : (s.localValues (queue, tlsValue)).m_isLocked with
  | true =>
    refine Or.inl ⟨rfl, ?_⟩
    simp [lockLocalValue, trySwapLocalValue, hLocked]
  | false =>
    refine Or.inr ⟨rfl, ?_⟩
    simp [lockLocalValue, trySwapLocalValue, hLocked, afterLock, given, swap_localValue, setGuards,
      setTls, setEntry]

/-- The state after the innermost guard of the thread is destroyed. -/
def afterUnlock (s : LocalValues Queue Thread Variable) (thread : Thread)
    (guard : DispatchLocalValueGuard Queue Variable)
    (outer : List (DispatchLocalValueGuard Queue Variable)) : LocalValues Queue Thread Variable :=
  let values := Function.update (s.tlsValues thread) guard.tlsValue guard.before
  ⟨Function.update s.tlsValues thread values,
    Function.update s.localValues guard.key ⟨guard.value, false⟩,
    Function.update s.guards thread outer, s.created,
    Function.update s.left guard.key (some guard.value)⟩

variable {s t : LocalValues Queue Thread Variable} {thread : Thread} {queue : Queue}
  {tlsValue : Variable} {guard : DispatchLocalValueGuard Queue Variable}
  {outer : List (DispatchLocalValueGuard Queue Variable)}

/-- The innermost guard finds its value in the TLS variable and puts back what was there before. -/
theorem Inv.unlockLocalValue (h : s.Inv) (hGuards : s.guards thread = guard :: outer) :
    s.unlockLocalValue thread = some (s.afterUnlock thread guard outer) := by
  have hNested := h.nested thread
  rw [hGuards] at hNested
  obtain ⟨hValue, hBefore, hNone, -⟩ := hNested
  have hLocked : (s.localValues (guard.queue, guard.tlsValue)).m_isLocked = true := by
    apply (h.locked guard.queue guard.tlsValue).mpr
    refine ⟨thread, ?_⟩
    rw [hGuards]
    exact List.mem_map_of_mem List.mem_cons_self
  have hData : (s.localValues (guard.queue, guard.tlsValue)).m_data = guard.before := hBefore
  simp [LocalValues.unlockLocalValue, hGuards, trySwapLocalValue, hLocked, hData, hValue,
    swap_of_ne hNone, afterUnlock, setGuards, setTls, setEntry, DispatchLocalValueGuard.key]

omit [DecidableEq Queue] [DecidableEq Thread] in
theorem Inv.notMem (h : s.Inv) (hFree : (s.localValues (queue, tlsValue)).m_isLocked = false)
    (other : Thread) : (queue, tlsValue) ∉ (s.guards other).map DispatchLocalValueGuard.key := by
  intro hMem
  have hLocked := (h.locked queue tlsValue).mpr ⟨other, hMem⟩
  exact absurd (hLocked.symm.trans hFree) Bool.noConfusion

theorem mem_keys_afterLock (other : Thread) (key : Queue × Variable) :
    key ∈ ((s.afterLock thread queue tlsValue).guards other).map DispatchLocalValueGuard.key ↔
      (other = thread ∧ key = (queue, tlsValue)) ∨
        key ∈ (s.guards other).map DispatchLocalValueGuard.key := by
  simp only [afterLock]
  by_cases hOther : other = thread
  · cases hOther
    simp [DispatchLocalValueGuard.key]
  · simp [hOther]

theorem Inv.lock (h : s.Inv) (hFree : (s.localValues (queue, tlsValue)).m_isLocked = false) :
    (s.afterLock thread queue tlsValue).Inv := by
  have hNew := h.notMem hFree
  have hEntries : ∀ other, ∀ guard ∈ s.guards other,
      (s.afterLock thread queue tlsValue).localValues guard.key = s.localValues guard.key := by
    intro other guard hMem
    apply Function.update_of_ne
    intro hKey
    exact hNew other (hKey ▸ List.mem_map_of_mem hMem)
  constructor
  · intro other
    by_cases hOther : other = thread
    · cases hOther
      have hNested := (h.nested thread).congr (hEntries thread)
      simp only [afterLock, Function.update_self] at hNested ⊢
      refine ⟨Function.update_self .., ?_, swap_ne, ?_⟩
      · simp [DispatchLocalValueGuard.key]
      · rw [Function.update_idem, Function.update_eq_self]
        exact hNested
    · have hNested := (h.nested other).congr (hEntries other)
      simp only [afterLock, Function.update_of_ne hOther] at hNested ⊢
      exact hNested
  · intro otherQueue other
    rw [show (s.afterLock thread queue tlsValue).Locked otherQueue other ↔
        (otherQueue, other) = (queue, tlsValue) ∨ s.Locked otherQueue other by
      constructor
      · rintro ⟨holder, hMem⟩
        rcases (mem_keys_afterLock holder _).mp hMem with ⟨-, hKey⟩ | hOld
        · exact Or.inl hKey
        · exact Or.inr ⟨holder, hOld⟩
      · rintro (hKey | ⟨holder, hOld⟩)
        · exact ⟨thread, (mem_keys_afterLock thread _).mpr (Or.inl ⟨rfl, hKey⟩)⟩
        · exact ⟨holder, (mem_keys_afterLock holder _).mpr (Or.inr hOld)⟩]
    simp only [afterLock]
    by_cases hKey : (otherQueue, other) = (queue, tlsValue)
    · simp [hKey]
    · rw [Function.update_of_ne hKey, h.locked]
      exact (or_iff_right hKey).symm
  · intro other
    by_cases hOther : other = thread
    · cases hOther
      simp only [afterLock, Function.update_self, List.map_cons, List.nodup_cons]
      exact ⟨hNew thread, h.distinct thread⟩
    · simp only [afterLock, Function.update_of_ne hOther]
      exact h.distinct other
  · intro one other key hOne hOther
    rcases (mem_keys_afterLock one key).mp hOne with ⟨rfl, rfl⟩ | hOldOne
    · rcases (mem_keys_afterLock other _).mp hOther with ⟨rfl, -⟩ | hOld
      · rfl
      · exact absurd hOld (hNew other)
    · rcases (mem_keys_afterLock other _).mp hOther with ⟨rfl, rfl⟩ | hOld
      · exact absurd hOldOne (hNew one)
      · exact h.alone one other key hOldOne hOld
  · intro key hUnlocked
    simp only [afterLock] at hUnlocked ⊢
    by_cases hKey : key = (queue, tlsValue)
    · rw [hKey, Function.update_self] at hUnlocked
      cases hUnlocked
    · rw [Function.update_of_ne hKey] at hUnlocked ⊢
      exact h.unlocked key hUnlocked

theorem mem_keys_afterUnlock (hGuards : s.guards thread = guard :: outer)
    (hDistinct : ((s.guards thread).map DispatchLocalValueGuard.key).Nodup)
    (hAlone : ∀ other, guard.key ∈ (s.guards other).map DispatchLocalValueGuard.key → other = thread)
    (other : Thread) (key : Queue × Variable) :
    key ∈ ((s.afterUnlock thread guard outer).guards other).map DispatchLocalValueGuard.key ↔
      key ≠ guard.key ∧ key ∈ (s.guards other).map DispatchLocalValueGuard.key := by
  rw [hGuards, List.map_cons, List.nodup_cons] at hDistinct
  simp only [afterUnlock]
  by_cases hOther : other = thread
  · rw [hOther, Function.update_self, hGuards, List.map_cons, List.mem_cons]
    constructor
    · intro hMem
      exact ⟨fun hKey => hDistinct.1 (hKey ▸ hMem), Or.inr hMem⟩
    · intro hMem
      exact hMem.2.resolve_left hMem.1
  · rw [Function.update_of_ne hOther]
    constructor
    · intro hMem
      exact ⟨fun hKey => hOther (hAlone other (hKey ▸ hMem)), hMem⟩
    · exact And.right

theorem Inv.unlock (h : s.Inv) (hGuards : s.guards thread = guard :: outer) :
    (s.afterUnlock thread guard outer).Inv := by
  have hTop : guard.key ∈ (s.guards thread).map DispatchLocalValueGuard.key := by
    rw [hGuards]
    exact List.mem_map_of_mem List.mem_cons_self
  have hKeys := mem_keys_afterUnlock hGuards (h.distinct thread)
    fun other hMem => h.alone other thread guard.key hMem hTop
  have hEntries : ∀ other, ∀ old ∈ (s.afterUnlock thread guard outer).guards other,
      (s.afterUnlock thread guard outer).localValues old.key = s.localValues old.key := by
    intro other old hMem
    apply Function.update_of_ne
    exact ((hKeys other old.key).mp (List.mem_map_of_mem hMem)).1
  constructor
  · intro other
    by_cases hOther : other = thread
    · cases hOther
      have hNested := h.nested thread
      rw [hGuards] at hNested
      obtain ⟨-, -, -, hOuter⟩ := hNested
      have hEntriesOuter := hEntries thread
      simp only [afterUnlock, Function.update_self] at hEntriesOuter ⊢
      exact hOuter.congr hEntriesOuter
    · have hEntriesOther := hEntries other
      simp only [afterUnlock, Function.update_of_ne hOther] at hEntriesOther ⊢
      exact (h.nested other).congr hEntriesOther
  · intro otherQueue other
    rw [show (s.afterUnlock thread guard outer).Locked otherQueue other ↔
        (otherQueue, other) ≠ guard.key ∧ s.Locked otherQueue other by
      constructor
      · rintro ⟨holder, hMem⟩
        have hOld := (hKeys holder _).mp hMem
        exact ⟨hOld.1, holder, hOld.2⟩
      · rintro ⟨hNe, holder, hMem⟩
        exact ⟨holder, (hKeys holder _).mpr ⟨hNe, hMem⟩⟩]
    simp only [afterUnlock]
    by_cases hKey : (otherQueue, other) = guard.key
    · simp [hKey]
    · rw [Function.update_of_ne hKey, h.locked]
      exact (and_iff_right hKey).symm
  · intro other
    by_cases hOther : other = thread
    · have hDistinct := h.distinct thread
      rw [hGuards, List.map_cons, List.nodup_cons] at hDistinct
      simp only [afterUnlock, hOther, Function.update_self]
      exact hDistinct.2
    · simp only [afterUnlock, Function.update_of_ne hOther]
      exact h.distinct other
  · intro one other key hOne hOther
    exact h.alone one other key ((hKeys one key).mp hOne).2 ((hKeys other key).mp hOther).2
  · intro key hUnlocked
    simp only [afterUnlock] at hUnlocked ⊢
    by_cases hKey : key = guard.key
    · rw [hKey, Function.update_self, Function.update_self]
      rfl
    · rw [Function.update_of_ne hKey] at hUnlocked
      rw [Function.update_of_ne hKey, Function.update_of_ne hKey]
      exact h.unlocked key hUnlocked

omit [DecidableEq Queue] in
theorem Inv.assign (h : s.Inv) (hFree : ∀ guard ∈ s.guards thread, guard.tlsValue ≠ tlsValue)
    (value : Option LocalValue) : (s.setTls thread tlsValue value).Inv := by
  refine ⟨fun other => ?_, h.locked, h.distinct, h.alone, h.unlocked⟩
  simp only [setTls]
  by_cases hOther : other = thread
  · cases hOther
    rw [Function.update_self]
    exact (h.nested thread).assign hFree value
  · rw [Function.update_of_ne hOther]
    exact h.nested other

omit [DecidableEq Queue] [DecidableEq Thread] in
theorem inv_initial (values : Thread → Variable → Option ℕ) :
    (initial values : LocalValues Queue Thread Variable).Inv := by
  refine ⟨fun _ => trivial, fun queue tlsValue => ?_, fun _ => List.nodup_nil, ?_, fun _ _ => rfl⟩
  · constructor
    · intro hLocked
      cases hLocked
    · rintro ⟨thread, hMem⟩
      cases hMem
  · intro one other key hMem
    cases hMem

variable {event : LocalValueEvent Queue Thread Variable}

/-- What each event does: a lock finds the value locked or swaps, an unlock swaps back, and an assignment
is to a TLS variable without a guard. -/
theorem Inv.step_cases (h : s.Inv) (hStep : s.step event = some t) :
    (∃ thread queue tlsValue, event = .lock thread queue tlsValue ∧
        ((s.Locked queue tlsValue ∧ t = s) ∨
          (¬ s.Locked queue tlsValue ∧ t = s.afterLock thread queue tlsValue))) ∨
      (∃ thread guard outer, event = .unlock thread ∧ s.guards thread = guard :: outer ∧
        t = s.afterUnlock thread guard outer) ∨
      ∃ thread tlsValue value, event = .assign thread tlsValue value ∧
        (∀ guard ∈ s.guards thread, guard.tlsValue ≠ tlsValue) ∧
          t = s.setTls thread tlsValue (value.map .other) := by
  cases event with
  | lock thread queue tlsValue =>
    refine Or.inl ⟨thread, queue, tlsValue, rfl, ?_⟩
    have hLock : s.lockLocalValue thread queue tlsValue = t := Option.some.inj hStep
    rcases s.lockLocalValue_cases thread queue tlsValue with ⟨hLocked, hEq⟩ | ⟨hFree, hEq⟩
    · exact Or.inl ⟨(h.locked queue tlsValue).mp hLocked, hLock.symm.trans hEq⟩
    · refine Or.inr ⟨fun hLocked => ?_, hLock.symm.trans hEq⟩
      exact absurd (((h.locked queue tlsValue).mpr hLocked).symm.trans hFree) Bool.noConfusion
  | unlock thread =>
    have hUnlock : s.unlockLocalValue thread = some t := hStep
    cases hGuards : s.guards thread with
    | nil => simp [LocalValues.unlockLocalValue, hGuards] at hUnlock
    | cons guard outer =>
      rw [h.unlockLocalValue hGuards, Option.some_inj] at hUnlock
      exact Or.inr (Or.inl ⟨thread, guard, outer, rfl, hGuards, hUnlock.symm⟩)
  | assign thread tlsValue value =>
    rw [step] at hStep
    split at hStep
    next hFree =>
      refine Or.inr (Or.inr ⟨thread, tlsValue, value, rfl, fun guard hMem => ?_, ?_⟩)
      · simpa using List.all_eq_true.mp hFree guard hMem
      · exact (Option.some.inj hStep).symm
    next => cases hStep

omit [DecidableEq Queue] [DecidableEq Thread] in
theorem Inv.free (h : s.Inv) (hNot : ¬ s.Locked queue tlsValue) :
    (s.localValues (queue, tlsValue)).m_isLocked = false := by
  rw [← Bool.not_eq_true]
  exact fun hLocked => hNot ((h.locked queue tlsValue).mp hLocked)

theorem Inv.next (h : s.Inv) (hStep : s.step event = some t) : t.Inv := by
  rcases h.step_cases hStep with ⟨thread, queue, tlsValue, -, ⟨-, rfl⟩ | ⟨hNot, rfl⟩⟩ |
    ⟨thread, guard, outer, -, hGuards, rfl⟩ | ⟨thread, tlsValue, value, -, hFree, rfl⟩
  · exact h
  · exact h.lock (h.free hNot)
  · exact h.unlock hGuards
  · exact h.assign hFree _

theorem Inv.kept (h : s.Inv) (hStep : s.step event = some t) : s.Kept event t := by
  rcases h.step_cases hStep with ⟨thread, queue, tlsValue, rfl, ⟨-, rfl⟩ | ⟨hNot, -⟩⟩ |
    ⟨thread, guard, outer, rfl, hGuards, rfl⟩ | ⟨thread, tlsValue, value, rfl, -, -⟩
  · exact fun _ => rfl
  · exact fun hLocked => absurd hLocked hNot
  · intro top rest hTop
    cases hGuards.symm.trans hTop
    simp [afterUnlock]
  · trivial

/-- No holder has found or left a null pointer. -/
structure Filled (s : LocalValues Queue Thread Variable) : Prop where
  guards : ∀ thread, ∀ guard ∈ s.guards thread, guard.value ≠ none
  left : ∀ key, s.left key ≠ some none

omit [DecidableEq Queue] [DecidableEq Thread] in
theorem Filled.given (h : s.Filled) (hInv : s.Inv) (hNot : ¬ s.Locked queue tlsValue)
    (hRoomy : (s.localValues (queue, tlsValue)).m_data = none → s.tlsValues thread tlsValue = none) :
    ∃ value, (s.given thread queue tlsValue).1 = some value ∧
      (s.left (queue, tlsValue) = some (some value) ∨
        (s.left (queue, tlsValue) = none ∧ value = .created s.created)) := by
  have hData := hInv.unlocked _ (hInv.free hNot)
  cases hLeft : s.left (queue, tlsValue) with
  | none =>
    rw [hLeft, Option.getD_none] at hData
    refine ⟨.created s.created, ?_, Or.inr ⟨rfl, rfl⟩⟩
    rw [LocalValues.given, hRoomy hData, hData, swapDispatchLocalValue]
    rfl
  | some last =>
    rw [hLeft, Option.getD_some] at hData
    cases last with
    | none => exact absurd hLeft (h.left _)
    | some value =>
      refine ⟨value, ?_, Or.inl rfl⟩
      rw [LocalValues.given, hData, swap_of_ne fun _ => Option.some_ne_none value]

theorem Filled.next (h : s.Filled) (hInv : s.Inv) (hRoomy : s.roomy event)
    (hStep : s.step event = some t) : t.Filled := by
  rcases hInv.step_cases hStep with ⟨thread, queue, tlsValue, rfl, ⟨-, rfl⟩ | ⟨hNot, rfl⟩⟩ |
    ⟨thread, guard, outer, -, hGuards, rfl⟩ | ⟨thread, tlsValue, value, -, -, rfl⟩
  · exact h
  · refine ⟨fun other guard hMem => ?_, h.left⟩
    simp only [afterLock] at hMem
    by_cases hOther : other = thread
    · rw [hOther, Function.update_self, List.mem_cons] at hMem
      rcases hMem with rfl | hOld
      · obtain ⟨value, hValue, -⟩ := h.given hInv hNot (hRoomy hNot)
        rw [hValue]
        exact Option.some_ne_none value
      · exact h.guards thread guard hOld
    · rw [Function.update_of_ne hOther] at hMem
      exact h.guards other guard hMem
  · have hValue : guard.value ≠ none := h.guards thread guard (hGuards ▸ List.mem_cons_self)
    constructor
    · intro other old hMem
      simp only [afterUnlock] at hMem
      by_cases hOther : other = thread
      · rw [hOther, Function.update_self] at hMem
        exact h.guards thread old (hGuards ▸ List.mem_cons_of_mem _ hMem)
      · rw [Function.update_of_ne hOther] at hMem
        exact h.guards other old hMem
    · intro key
      simp only [afterUnlock]
      by_cases hKey : key = guard.key
      · rw [hKey, Function.update_self]
        exact fun hNone => hValue (Option.some.inj hNone)
      · rw [Function.update_of_ne hKey]
        exact h.left key
  · exact ⟨h.guards, h.left⟩

omit [DecidableEq Queue] [DecidableEq Thread] in
theorem Filled.pointed (h : s.Filled) (hInv : s.Inv) : s.Pointed := by
  intro thread tlsValue guard hFind
  exact ⟨(hInv.nested thread).find hFind, h.guards thread guard (List.mem_of_find?_eq_some hFind)⟩

theorem Filled.gives (h : s.Filled) (hInv : s.Inv) (hRoomy : s.roomy event)
    (hStep : s.step event = some t) : s.Given event t := by
  rcases hInv.step_cases hStep with ⟨thread, queue, tlsValue, rfl, ⟨hLocked, -⟩ | ⟨hNot, rfl⟩⟩ |
    ⟨thread, guard, outer, rfl, -, -⟩ | ⟨thread, tlsValue, value, rfl, -, -⟩
  · exact fun hNot => absurd hLocked hNot
  · intro _
    obtain ⟨value, hValue, hLeft⟩ := h.given hInv hNot (hRoomy hNot)
    refine ⟨value, ?_, hLeft⟩
    simpa [afterLock] using hValue
  · trivial
  · trivial

/-- A lock without room gives a null pointer. -/
theorem Inv.roomy (h : s.Inv) (event : LocalValueEvent Queue Thread Variable)
    (hGiven : ∀ t, s.step event = some t → s.Given event t) : s.roomy event := by
  cases event with
  | lock thread queue tlsValue =>
    intro hNot hData
    by_contra hFull
    have hLock : s.step (.lock thread queue tlsValue) = some (s.afterLock thread queue tlsValue) := by
      rcases s.lockLocalValue_cases thread queue tlsValue with ⟨hLocked, -⟩ | ⟨-, hEq⟩
      · exact absurd ((h.locked queue tlsValue).mp hLocked) hNot
      · exact congrArg some hEq
    obtain ⟨value, hValue, -⟩ := hGiven _ hLock hNot
    simp only [afterLock, Function.update_self, LocalValues.given, hData] at hValue
    rw [swap_of_ne fun hNone => absurd hNone hFull] at hValue
    cases hValue
  | unlock thread | assign thread tlsValue value => trivial

/-- In every run no second lock of a value succeeds and an unlock restores the TLS variable; and each
lock that succeeds gives what the last holder left, or a new value to the first one, exactly where the
value exists or the TLS variable is null at each of them. -/
theorem local_values_iff (values : Thread → Variable → Option ℕ)
    (events : List (LocalValueEvent Queue Thread Variable)) :
    Along step Kept (initial values) events ∧
      (Along step Given (initial values) events ∧ Throughout step Pointed (initial values) events ↔
        Allowed step LocalValues.roomy (initial values) events) := by
  have hStart : (initial values : LocalValues Queue Thread Variable).Inv := inv_initial values
  constructor
  · exact Control.along_of_step hStart (fun _ _ _ hInv hStep => hInv.next hStep)
      fun _ _ _ hInv hStep => hInv.kept hStep
  constructor
  · intro hGiven
    exact hGiven.1.allowed hStart (fun _ _ _ hInv hStep _ => hInv.next hStep)
      fun _ event hInv hNext => hInv.roomy event hNext
  · intro hRoomy
    have hFilled : (initial values : LocalValues Queue Thread Variable).Filled := by
      constructor
      · intro thread guard hMem
        cases hMem
      · intro key hLeft
        cases hLeft
    have hKeep : ∀ (s : LocalValues Queue Thread Variable) event t, (s.Filled ∧ s.Inv) →
        s.roomy event → s.step event = some t → t.Filled ∧ t.Inv :=
      fun _ _ _ hBoth hOk hStep => ⟨hBoth.1.next hBoth.2 hOk hStep, hBoth.2.next hStep⟩
    constructor
    · exact hRoomy.along ⟨hFilled, hStart⟩ hKeep fun _ _ _ hBoth hOk hStep =>
        hBoth.1.gives hBoth.2 hOk hStep
    · have hBoth := hRoomy.throughout ⟨hFilled, hStart⟩ hKeep
      exact hBoth.imp fun _ hState => hState.1.pointed hState.2

/-- Two queues over one TLS variable: the lock of the second finds the value of the first in it. -/
theorem nested_lock_gives_null :
    ¬ Along step Given (initial fun _ _ => none : LocalValues Bool Unit Unit)
      [.lock () false (), .lock () true ()] := by
  intro hGiven
  obtain ⟨value, hValue, -⟩ := ((hGiven _ rfl).2 _ rfl).1 (fun ⟨_, hMem⟩ => by
    simp [lockLocalValue, trySwapLocalValue, initial, setGuards, setTls, setEntry,
      DispatchLocalValueGuard.key] at hMem)
  cases hValue

end LocalValues

end Mso
