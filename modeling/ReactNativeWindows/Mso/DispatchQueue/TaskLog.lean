import Mathlib.Algebra.Order.Group.Multiset

/-! The history of the tasks of a queue: the order in which they were accepted into
it, were taken out of it, and began to be invoked. -/
namespace Mso

universe u

structure TaskLog (Task : Type u) where
  accepted : List Task
  dequeued : List Task
  invoked : List Task

namespace TaskLog
variable {Task : Type u}

def empty : TaskLog Task := ⟨[], [], []⟩

def accept (log : TaskLog Task) (task : Task) : TaskLog Task :=
  { log with accepted := log.accepted ++ [task] }

def dequeue (log : TaskLog Task) (task : Task) : TaskLog Task :=
  { log with dequeued := log.dequeued ++ [task] }

def invoke (log : TaskLog Task) (task : Task) : TaskLog Task :=
  { log with invoked := log.invoked ++ [task] }

/-- The log accounts for every task: `tasks` are in the queue, in order, and
`taken` are those of running threads that are about to invoke them. -/
structure Accounts (log : TaskLog Task) (tasks : List Task) (taken : Multiset Task) : Prop where
  accepted : log.accepted = log.dequeued ++ tasks
  dequeued : (log.dequeued : Multiset Task) = log.invoked + taken

namespace Accounts
variable {log : TaskLog Task} {tasks : List Task} {taken : Multiset Task}

theorem empty : (empty : TaskLog Task).Accounts [] 0 := ⟨rfl, rfl⟩

theorem accept (h : log.Accounts tasks taken) (task : Task) :
    (log.accept task).Accounts (tasks ++ [task]) taken :=
  ⟨by simp [TaskLog.accept, h.accepted], h.dequeued⟩

variable {task : Task}

theorem dequeue (h : log.Accounts (task :: tasks) taken) :
    (log.dequeue task).Accounts tasks (task ::ₘ taken) where
  accepted := by simp [TaskLog.dequeue, h.accepted]
  dequeued := by
    rw [TaskLog.dequeue, ← Multiset.coe_add, h.dequeued, Multiset.coe_singleton, add_assoc,
      ← Multiset.singleton_add, add_comm taken]

theorem invoke (h : log.Accounts tasks (task ::ₘ taken)) :
    (log.invoke task).Accounts tasks taken where
  accepted := h.accepted
  dequeued := by
    rw [TaskLog.invoke, h.dequeued, ← Multiset.coe_add, Multiset.coe_singleton, add_assoc,
      Multiset.singleton_add]

theorem invoke_prefix (h : log.Accounts tasks {task}) (hOrder : log.invoked <+: log.dequeued) :
    (log.invoke task).invoked <+: (log.invoke task).dequeued := by
  obtain ⟨rest, hRest⟩ := hOrder
  have hTaken : ((log.invoked ++ rest : List Task) : Multiset Task) = log.invoked + {task} :=
    hRest ▸ h.dequeued
  rw [← Multiset.coe_add, add_right_inj] at hTaken
  have hSingle : rest = [task] := Multiset.coe_eq_singleton.mp hTaken
  simp only [TaskLog.invoke, ← hRest, hSingle]
  exact List.prefix_rfl

theorem prefix_accepted (h : log.Accounts tasks taken) : log.dequeued <+: log.accepted := by
  rw [h.accepted]
  exact List.prefix_append ..

theorem accepted_perm (h : log.Accounts tasks taken) :
    (log.accepted : Multiset Task) = log.invoked + taken + tasks := by
  rw [h.accepted, ← Multiset.coe_add, h.dequeued]

end Accounts
end TaskLog
end Mso
