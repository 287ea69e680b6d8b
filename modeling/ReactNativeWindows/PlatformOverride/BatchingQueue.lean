import ReactNativeWindows.Collections.Entries

/-! `BatchingQueue`: queues of actions for each key, one of which is pumped at a time. -/
namespace PlatformOverride

open Collections (Entries)

universe u v

structure BatchingQueue (κ : Type u) (α : Type v) where
  keyedQueues : Entries κ (List α)
  currentKey : Option κ

namespace BatchingQueue

variable {κ : Type u} {α : Type v} [DecidableEq κ]

def empty : BatchingQueue κ α := ⟨[], none⟩

/-- The queue of a key, where a missing one is empty. -/
def queueOf (queue : BatchingQueue κ α) (key : κ) : List α :=
  (queue.keyedQueues.lookup key).getD []

/-- The queue with a new action, and the key to pump if that is not done already. Keys that are
not `truthy` count as no key. -/
def enqueue (truthy : κ → Bool) (queue : BatchingQueue κ α) (key : κ) (action : α) :
    BatchingQueue κ α × Option κ :=
  let keyedQueues := Entries.set key (queue.queueOf key ++ [action]) queue.keyedQueues
  if queue.currentKey.any truthy then (⟨keyedQueues, queue.currentKey⟩, none)
  else (⟨keyedQueues, some key⟩, some key)

def shift (queue : BatchingQueue κ α) (key : κ) : Option (α × BatchingQueue κ α) :=
  match queue.queueOf key with
  | action :: rest =>
    some (action, { queue with keyedQueues := Entries.set key rest queue.keyedQueues })
  | [] => none

/-- One round of the search for the longest queue. -/
def longer (best : Option κ × ℕ) (entry : κ × List α) : Option κ × ℕ :=
  if entry.2.length > best.2 then (some entry.1, entry.2.length) else best

def finish (queue : BatchingQueue κ α) : BatchingQueue κ α × Option κ :=
  let keyedQueues := match queue.currentKey with
    | some key => Entries.erase key queue.keyedQueues
    | none => queue.keyedQueues
  let nextKey := (keyedQueues.foldl longer (none, 0)).1
  (⟨keyedQueues, nextKey⟩, nextKey)

variable {queue next : BatchingQueue κ α} {key other : κ} {action : α} {truthy : κ → Bool}

theorem queueOf_enqueue (truthy : κ → Bool) (queue : BatchingQueue κ α) (key other : κ)
    (action : α) : (queue.enqueue truthy key action).1.queueOf other =
      if other = key then queue.queueOf key ++ [action] else queue.queueOf other := by
  have hLookup : ((Entries.set key (queue.queueOf key ++ [action])
      queue.keyedQueues).lookup other).getD [] =
        if other = key then queue.queueOf key ++ [action] else queue.queueOf other := by
    rw [Entries.lookup_set]
    split
    · rename_i hSame
      rw [hSame, List.lookup_cons_self, Option.getD_some]
    · rename_i hOther
      rw [Entries.lookup_cons_of_ne hOther, queueOf]
  rw [enqueue]
  split <;> exact hLookup

theorem keyedQueues_enqueue (truthy : κ → Bool) (queue : BatchingQueue κ α) (key : κ)
    (action : α) : (queue.enqueue truthy key action).1.keyedQueues =
      Entries.set key (queue.queueOf key ++ [action]) queue.keyedQueues := by
  rw [enqueue]
  split <;> rfl

theorem queueOf_shift (h : queue.shift key = some (action, next)) :
    queue.queueOf key = action :: next.queueOf key ∧
      (∀ other ≠ key, next.queueOf other = queue.queueOf other) ∧
      next = { queue with
        keyedQueues := Entries.set key (next.queueOf key) queue.keyedQueues } := by
  rw [shift] at h
  split at h
  · rename_i first rest hQueue
    cases h
    have hRest : BatchingQueue.queueOf
        { queue with keyedQueues := Entries.set key rest queue.keyedQueues } key = rest := by
      rw [queueOf, Entries.lookup_set, List.lookup_cons_self, Option.getD_some]
    refine ⟨?_, fun other hOther => ?_, ?_⟩
    · rw [hQueue, hRest]
    · rw [queueOf, Entries.lookup_set, Entries.lookup_cons_of_ne hOther, queueOf]
    · rw [hRest]
  · cases h

theorem queueOf_of_shift_none (h : queue.shift key = none) : queue.queueOf key = [] := by
  rw [shift] at h
  split at h
  · cases h
  · assumption

variable {best : Option κ × ℕ}

omit [DecidableEq κ] in
theorem longer_ne_none (h : best.1.isSome = true) (entry : κ × List α) :
    (longer best entry).1.isSome = true := by
  rw [longer]
  split
  · rfl
  · exact h

omit [DecidableEq κ] in
theorem foldl_longer_isSome (entries : Entries κ (List α)) (best : Option κ × ℕ)
    (h : best.1.isSome = true) : (entries.foldl longer best).1.isSome = true := by
  induction entries generalizing best with
  | nil => exact h
  | cons entry entries ih => exact ih _ (longer_ne_none h entry)

variable {entries : Entries κ (List α)}

omit [DecidableEq κ] in
/-- Only when all queues are empty there is no next one. -/
theorem eq_nil_of_foldl_longer (h : (entries.foldl longer (none, 0)).1 = none) :
    ∀ entry ∈ entries, entry.2 = [] := by
  induction entries with
  | nil => exact fun _ hMem => by cases hMem
  | cons entry entries ih =>
    rw [List.foldl_cons, longer] at h
    split at h
    · have hSome := foldl_longer_isSome entries (some entry.1, entry.2.length) rfl
      rw [h] at hSome
      cases hSome
    · rename_i hLength
      intro other hMem
      rcases List.mem_cons.mp hMem with rfl | hRest
      · exact List.length_eq_zero_iff.mp (by omega)
      · exact ih h other hRest

omit [DecidableEq κ] in
theorem mem_of_foldl_longer (h : (entries.foldl longer best).1 = some key) :
    best.1 = some key ∨ key ∈ entries.map Prod.fst := by
  induction entries generalizing best with
  | nil => exact .inl h
  | cons entry entries ih =>
    rcases ih h with hBest | hRest
    · rw [longer] at hBest
      split at hBest
      · exact .inr (Option.some.inj hBest ▸ List.mem_cons_self)
      · exact .inl hBest
    · exact .inr (List.mem_cons_of_mem _ hRest)

/-- The end of a batch takes nothing out of the queues. -/
theorem queueOf_finish (hCurrent : queue.currentKey = some key) (hEmpty : queue.queueOf key = [])
    (hNodup : (queue.keyedQueues.map Prod.fst).Nodup) (other : κ) :
    queue.finish.1.queueOf other = queue.queueOf other := by
  rw [finish, hCurrent]
  show ((Entries.erase key queue.keyedQueues).lookup other).getD [] = queue.queueOf other
  by_cases hSame : other = key
  · subst hSame
    rw [hEmpty]
    cases hLookup : (Entries.erase other queue.keyedQueues).lookup other with
    | none => rfl
    | some rest =>
      have hMem := Entries.lookup_isSome_iff.mp (Option.isSome_of_eq_some hLookup)
      exact absurd rfl (Entries.mem_keys_erase hNodup hMem).1
  · rw [Entries.lookup_erase_of_ne hSame, queueOf]

/-- Without a next batch nothing is queued. -/
theorem queueOf_of_finish_none (hCurrent : queue.currentKey = some key)
    (hEmpty : queue.queueOf key = []) (hNodup : (queue.keyedQueues.map Prod.fst).Nodup)
    (h : queue.finish.2 = none) (other : κ) : queue.queueOf other = [] := by
  rw [← queueOf_finish hCurrent hEmpty hNodup other]
  rw [finish, hCurrent] at h ⊢
  show ((Entries.erase key queue.keyedQueues).lookup other).getD [] = []
  cases hLookup : (Entries.erase key queue.keyedQueues).lookup other with
  | none => rfl
  | some rest => exact eq_nil_of_foldl_longer h _ (Entries.mem_of_lookup hLookup)

end BatchingQueue

end PlatformOverride
