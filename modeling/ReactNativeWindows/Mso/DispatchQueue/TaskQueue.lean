import Mathlib.Data.List.Basic

/-! The task queue of a dispatch queue: tasks are pushed to one buffer and popped
from another by a moving index, and the two are swapped when the latter runs dry. -/
namespace Mso

universe u

/-- The buffer that tasks are popped from. Slots before `index` are moved out. -/
structure TaskReadBuffer (Task : Type u) where
  buffer : List Task
  index : Nat
  index_le : index ≤ buffer.length

namespace TaskReadBuffer
variable {Task : Type u}

def empty : TaskReadBuffer Task := ⟨[], 0, Nat.le_refl 0⟩

def tryDequeue (self : TaskReadBuffer Task) : Option Task × TaskReadBuffer Task :=
  if h : self.index < self.buffer.length then
    (some self.buffer[self.index], ⟨self.buffer, self.index + 1, h⟩)
  else
    (none, self)

/-- The read buffer now holding `buffer`, and the old one without its moved-out slots. -/
def swapBuffer (self : TaskReadBuffer Task) (buffer : List Task) :
    TaskReadBuffer Task × List Task :=
  (⟨buffer, 0, Nat.zero_le _⟩, self.buffer.drop self.index)

def size (self : TaskReadBuffer Task) : Nat := self.buffer.length - self.index

def isEmpty (self : TaskReadBuffer Task) : Bool := self.index == self.buffer.length

def toList (self : TaskReadBuffer Task) : List Task := self.buffer.drop self.index

theorem isEmpty_iff (self : TaskReadBuffer Task) : self.isEmpty = true ↔ self.toList = [] := by
  have hIndex := self.index_le
  simp only [isEmpty, toList, beq_iff_eq, List.drop_eq_nil_iff]
  omega

@[simp] theorem size_eq (self : TaskReadBuffer Task) : self.size = self.toList.length := by
  simp [size, toList]

@[simp] theorem tryDequeue_fst (self : TaskReadBuffer Task) :
    self.tryDequeue.1 = self.toList.head? := by
  by_cases h : self.index < self.buffer.length
  · simp [tryDequeue, toList, h]
  · simp [tryDequeue, toList, h]

@[simp] theorem tryDequeue_toList (self : TaskReadBuffer Task) :
    self.tryDequeue.2.toList = self.toList.tail := by
  by_cases h : self.index < self.buffer.length
  · simp [tryDequeue, toList, h]
  · have hDone : self.buffer.length ≤ self.index := Nat.le_of_not_lt h
    simp [tryDequeue, toList, h, List.drop_eq_nil_of_le, hDone]

end TaskReadBuffer

/-- `weakOwnerPtr` tells whether the owner is alive; `strongOwnerPtr`, whether the
queue keeps it alive. -/
structure TaskQueue (Task : Type u) where
  writeBuffer : List Task
  readBuffer : TaskReadBuffer Task
  weakOwnerPtr : Bool
  strongOwnerPtr : Bool

namespace TaskQueue
variable {Task : Type u}

/-- A new queue of a live owner. -/
def empty : TaskQueue Task := ⟨[], .empty, true, false⟩

def size (self : TaskQueue Task) : Nat := self.readBuffer.size + self.writeBuffer.length

def isEmpty (self : TaskQueue Task) : Bool :=
  self.readBuffer.isEmpty && self.writeBuffer.isEmpty

def enqueue (self : TaskQueue Task) (task : Task) : TaskQueue Task :=
  { self with
    writeBuffer := self.writeBuffer ++ [task]
    strongOwnerPtr := if self.isEmpty then self.weakOwnerPtr else self.strongOwnerPtr }

def refill (self : TaskQueue Task) : TaskQueue Task :=
  if self.readBuffer.isEmpty && !self.writeBuffer.isEmpty then
    { self with
      readBuffer := (self.readBuffer.swapBuffer self.writeBuffer).1
      writeBuffer := (self.readBuffer.swapBuffer self.writeBuffer).2 }
  else
    self

def tryDequeue (self : TaskQueue Task) : Option Task × TaskQueue Task :=
  let (task, readBuffer) := self.refill.readBuffer.tryDequeue
  let dequeued := { self.refill with readBuffer := readBuffer }
  (task, if task.isSome && dequeued.isEmpty then { dequeued with strongOwnerPtr := false } else dequeued)

/-- Append all tasks to `tasks`; the flag tells whether there was one. -/
def dequeueAll (self : TaskQueue Task) (tasks : List Task) :
    Bool × List Task × TaskQueue Task :=
  if self.isEmpty then
    (false, tasks, self)
  else
    let (readBuffer, read) :=
      if self.readBuffer.isEmpty then (self.readBuffer, []) else self.readBuffer.swapBuffer []
    (true, tasks ++ read ++ self.writeBuffer,
      { self with readBuffer := readBuffer, writeBuffer := [], strongOwnerPtr := false })

def toList (self : TaskQueue Task) : List Task := self.readBuffer.toList ++ self.writeBuffer

@[simp] theorem empty_toList : (empty : TaskQueue Task).toList = [] := rfl

@[simp] theorem size_eq (self : TaskQueue Task) : self.size = self.toList.length := by
  simp [size, toList]

@[simp] theorem isEmpty_eq (self : TaskQueue Task) : self.isEmpty = self.toList.isEmpty := by
  rw [Bool.eq_iff_iff, List.isEmpty_iff, isEmpty, Bool.and_eq_true, self.readBuffer.isEmpty_iff,
    List.isEmpty_iff, toList, List.append_eq_nil_iff]

@[simp] theorem enqueue_toList (self : TaskQueue Task) (task : Task) :
    (self.enqueue task).toList = self.toList ++ [task] := by
  simp [enqueue, toList]

theorem refill_toList (self : TaskQueue Task) : self.refill.toList = self.toList := by
  simp only [refill]
  split
  · rename_i h
    have hRead := self.readBuffer.isEmpty_iff.mp (Bool.and_eq_true_iff.mp h).1
    simp only [TaskReadBuffer.toList] at hRead
    simp [toList, TaskReadBuffer.swapBuffer, TaskReadBuffer.toList, hRead]
  · rfl

/-- After the swap the next task, if any, is in the read buffer. -/
theorem refill_read (self : TaskQueue Task) :
    self.refill.readBuffer.toList = [] → self.refill.writeBuffer = [] := by
  simp only [refill]
  split
  · rename_i h
    intro hRead
    simp only [TaskReadBuffer.toList, TaskReadBuffer.swapBuffer, List.drop_zero] at hRead
    simp [hRead] at h
  · rename_i h
    intro hRead
    simpa [self.readBuffer.isEmpty_iff.mpr hRead] using h

@[simp] theorem tryDequeue_fst (self : TaskQueue Task) :
    self.tryDequeue.1 = self.toList.head? := by
  rw [← self.refill_toList]
  simp only [tryDequeue, TaskReadBuffer.tryDequeue_fst, toList]
  cases hRead : self.refill.readBuffer.toList with
  | nil => simp [self.refill_read hRead]
  | cons task rest => simp

@[simp] theorem tryDequeue_toList (self : TaskQueue Task) :
    self.tryDequeue.2.toList = self.toList.tail := by
  rw [← self.refill_toList]
  have hTail : self.refill.readBuffer.toList.tail ++ self.refill.writeBuffer =
      self.refill.toList.tail := by
    rw [toList]
    cases hRead : self.refill.readBuffer.toList with
    | nil => simp [self.refill_read hRead]
    | cons task rest => simp
  rw [← hTail]
  simp only [tryDequeue]
  split <;> simp [toList]

theorem dequeueAll_tasks (self : TaskQueue Task) (tasks : List Task) :
    (self.dequeueAll tasks).2.1 = tasks ++ self.toList := by
  simp only [dequeueAll]
  split
  · rename_i h
    rw [isEmpty_eq, List.isEmpty_iff] at h
    simp [h]
  · split
    · rename_i h
      simp [toList, self.readBuffer.isEmpty_iff.mp h]
    · simp [toList, TaskReadBuffer.swapBuffer, TaskReadBuffer.toList]

@[simp] theorem dequeueAll_toList (self : TaskQueue Task) (tasks : List Task) :
    (self.dequeueAll tasks).2.2.toList = [] := by
  simp only [dequeueAll]
  split
  · rename_i h
    rwa [isEmpty_eq, List.isEmpty_iff] at h
  · split
    · rename_i h
      simp [toList, self.readBuffer.isEmpty_iff.mp h]
    · simp [toList, TaskReadBuffer.swapBuffer, TaskReadBuffer.toList]

section Runs
variable {queue : TaskQueue Task} {list : List Task}

/-- A method called by the owner, and for `DequeueAll` what the vector of the caller holds already. -/
inductive Call (Task : Type u) where
  | enqueue (task : Task)
  | tryDequeue
  | dequeueAll (tasks : List Task)

inductive Answer (Task : Type u) where
  | enqueued
  | dequeued (task : Option Task)
  | dequeuedAll (found : Bool) (tasks : List Task)

def call (self : TaskQueue Task) : Call Task → Answer Task × TaskQueue Task
  | .enqueue task => (.enqueued, self.enqueue task)
  | .tryDequeue => (.dequeued self.tryDequeue.1, self.tryDequeue.2)
  | .dequeueAll tasks =>
    let (found, all, dequeued) := self.dequeueAll tasks
    (.dequeuedAll found all, dequeued)

def answers {σ : Type u} (call : σ → Call Task → Answer Task × σ) :
    σ → List (Call Task) → List (Answer Task) × σ
  | s, [] => ([], s)
  | s, first :: calls =>
    let rest := answers call (call s first).2 calls
    ((call s first).1 :: rest.1, rest.2)

def listCall (list : List Task) : Call Task → Answer Task × List Task
  | .enqueue task => (.enqueued, list ++ [task])
  | .tryDequeue => (.dequeued list.head?, list.tail)
  | .dequeueAll tasks => (.dequeuedAll (!list.isEmpty) (tasks ++ list), [])

def Call.put : Call Task → List Task
  | .enqueue task => [task]
  | _ => []

def Call.taken : Call Task → Answer Task → List Task
  | .dequeueAll tasks, .dequeuedAll _ all => all.drop tasks.length
  | _, .dequeued task => task.toList
  | _, _ => []

structure Stands (queue : TaskQueue Task) (list : List Task) : Prop where
  toList : queue.toList = list
  alive : queue.weakOwnerPtr = true
  held : queue.strongOwnerPtr = !list.isEmpty

theorem refill_owners (queue : TaskQueue Task) :
    queue.refill.weakOwnerPtr = queue.weakOwnerPtr ∧ queue.refill.strongOwnerPtr = queue.strongOwnerPtr := by
  simp only [refill]
  split <;> simp

theorem Stands.enqueue (h : queue.Stands list) (task : Task) :
    (queue.enqueue task).Stands (list ++ [task]) := by
  refine ⟨by simp [h.toList], h.alive, ?_⟩
  cases list <;> simp [TaskQueue.enqueue, h.toList, h.alive, h.held]

theorem Stands.tryDequeue (h : queue.Stands list) : queue.tryDequeue.2.Stands list.tail := by
  have hTail : queue.tryDequeue.2.toList = list.tail := by rw [tryDequeue_toList, h.toList]
  obtain ⟨hWeak, hStrong⟩ := queue.refill_owners
  have hFirst : queue.refill.readBuffer.tryDequeue.1 = list.head? := by
    simpa [TaskQueue.tryDequeue, h.toList] using queue.tryDequeue_fst
  refine ⟨hTail, ?_, ?_⟩
  · rw [← h.alive, ← hWeak]
    simp only [TaskQueue.tryDequeue]
    split <;> rfl
  · have hRest : ({ queue.refill with readBuffer := queue.refill.readBuffer.tryDequeue.2 } :
        TaskQueue Task).toList = list.tail := by
      rw [← hTail]
      simp only [TaskQueue.tryDequeue]
      split <;> rfl
    simp only [TaskQueue.tryDequeue, isEmpty_eq, hRest, hFirst]
    -- The reference is dropped with the last task.
    cases list with
    | nil => simp [hStrong, h.held]
    | cons task list => cases list <;> simp [hStrong, h.held]

theorem Stands.dequeueAll (h : queue.Stands list) (tasks : List Task) :
    (queue.dequeueAll tasks).1 = !list.isEmpty ∧ (queue.dequeueAll tasks).2.2.Stands [] := by
  have hNone := queue.dequeueAll_toList tasks
  cases list with
  | nil =>
    have hEmpty : queue.isEmpty = true := by simp [h.toList]
    rw [TaskQueue.dequeueAll, if_pos hEmpty]
    exact ⟨rfl, h⟩
  | cons task list =>
    have hFull : ¬queue.isEmpty = true := by simp [h.toList]
    rw [TaskQueue.dequeueAll, if_neg hFull] at hNone ⊢
    exact ⟨rfl, hNone, h.alive, rfl⟩

theorem Stands.call (h : queue.Stands list) (call : Call Task) :
    (queue.call call).1 = (listCall list call).1 ∧ (queue.call call).2.Stands (listCall list call).2 := by
  cases call with
  | enqueue task => exact ⟨rfl, h.enqueue task⟩
  | tryDequeue => exact ⟨by simp [TaskQueue.call, listCall, h.toList], h.tryDequeue⟩
  | dequeueAll tasks =>
    obtain ⟨hFound, hStands⟩ := h.dequeueAll tasks
    refine ⟨?_, hStands⟩
    simp [TaskQueue.call, listCall, hFound, dequeueAll_tasks, h.toList]

theorem Stands.answers (h : queue.Stands list) (calls : List (Call Task)) :
    (answers TaskQueue.call queue calls).1 = (answers listCall list calls).1 ∧
      (answers TaskQueue.call queue calls).2.Stands (answers listCall list calls).2 := by
  induction calls generalizing queue list with
  | nil => exact ⟨rfl, h⟩
  | cons call calls ih =>
    obtain ⟨hAnswer, hNext⟩ := h.call call
    obtain ⟨hRest, hLast⟩ := ih hNext
    exact ⟨congrArg₂ List.cons hAnswer hRest, hLast⟩

/-- What comes out of a list, and what stays, is what was there and what went in. -/
theorem taken_listCall (list : List Task) (calls : List (Call Task)) :
    (calls.zipWith Call.taken (answers listCall list calls).1).flatten ++ (answers listCall list calls).2 =
      list ++ calls.flatMap Call.put := by
  induction calls generalizing list with
  | nil => simp [answers]
  | cons call calls ih =>
    have hFirst : call.taken (listCall list call).1 ++ (listCall list call).2 = list ++ call.put := by
      cases call with
      | tryDequeue => cases list <;> simp [listCall, Call.taken, Call.put]
      | _ => simp [listCall, Call.taken, Call.put]
    rw [answers, List.zipWith_cons_cons, List.flatten_cons, List.append_assoc, ih, ← List.append_assoc,
      hFirst, List.flatMap_cons, List.append_assoc]

/-- The queue answers as a list does, and keeps its owner alive as long as there are tasks. -/
theorem taskQueue_fifo (calls : List (Call Task)) :
    let (given, queue) := answers TaskQueue.call empty calls
    let (expected, list) := answers listCall [] calls
    given = expected ∧ (calls.zipWith Call.taken given).flatten ++ list = calls.flatMap Call.put ∧
      queue.size = list.length ∧ queue.isEmpty = list.isEmpty ∧
      queue.readBuffer.index ≤ queue.readBuffer.buffer.length ∧
      queue.strongOwnerPtr = !list.isEmpty := by
  have hEmpty : (empty : TaskQueue Task).Stands [] := ⟨rfl, rfl, rfl⟩
  obtain ⟨hGiven, hStands⟩ := hEmpty.answers calls
  refine ⟨hGiven, ?_, ?_, ?_, TaskReadBuffer.index_le _, hStands.held⟩
  · rw [hGiven, taken_listCall, List.nil_append]
  · rw [size_eq, hStands.toList]
  · rw [isEmpty_eq, hStands.toList]

end Runs
end TaskQueue
end Mso
