import ReactNativeWindows.Concurrency.Progress
import ReactNativeWindows.PlatformOverride.GitReactFileRepository

/-! Calls on a `GitReactFileRepository` run one at a time, those of one version in the order in
which they were issued. -/
namespace PlatformOverride.GitReactFileRepository

open Collections (Entries)
open Concurrency

universe u

namespace Frame

/-- The call whose action is run. -/
def call? : Frame → Option Call
  | checkoutVersion call | tryCheckoutLocal call | fetchFullRef call | fetch call
  | checkoutBranch call | checkoutForce call | fn call | write call | diff call _ | apply call _
  | readPatched call _ _ | reset call _ | settle call _ => some call
  | enqueue _ | pumpQueue _ => none

def key? : Frame → Option Version
  | pumpQueue key => some key
  | frame => frame.call?.map Call.version

def isWorker (frame : Frame) : Bool := frame.key?.isSome

def work : Frame → ℕ
  | pumpQueue _ => 1
  | settle _ _ => 2
  | reset _ _ => 3
  | readPatched _ _ _ => 4
  | apply _ _ | diff _ _ => 5
  | write _ => 6
  | fn _ => 7
  | checkoutForce _ => 8
  | checkoutBranch _ => 9
  | fetch _ => 10
  | fetchFullRef _ => 11
  | tryCheckoutLocal _ => 12
  | checkoutVersion _ => 13
  | enqueue _ => 30

end Frame

section Queued
variable {Tree : Type u}

structure Queued (h : Heap Tree) (F : Multiset Frame) : Prop where
  token : tally Frame.isWorker F = if h.batchingQueue.currentKey.isSome then 1 else 0
  keys : ∀ frame ∈ F, ∀ key, frame.key? = some key → h.batchingQueue.currentKey = some key
  nodup : (h.batchingQueue.keyedQueues.map Prod.fst).Nodup
  current : ∀ key, h.batchingQueue.currentKey = some key →
    key ∈ h.batchingQueue.keyedQueues.map Prod.fst
  named : ∀ key ∈ h.batchingQueue.keyedQueues.map Prod.fst, key ≠ ""
  valid : ∀ call, .enqueue call ∈ F → call.version ≠ ""
  idle : h.batchingQueue.currentKey = none → ∀ key, h.batchingQueue.queueOf key = []
  order : ∀ key, h.issued.filter (fun call => call.version = key) =
    h.started.filter (fun call => call.version = key) ++ h.batchingQueue.queueOf key
  running : ∀ frame ∈ F, ∀ call, frame.call? = some call →
    h.started = h.settled.map Prod.fst ++ [call]
  rest : (∀ frame ∈ F, frame.call? = none) → h.started = h.settled.map Prod.fst

/-- What the queue and the history of the calls are depends on these alone. -/
def Heap.SameCalls (h h' : Heap Tree) : Prop :=
  h'.batchingQueue = h.batchingQueue ∧ h'.issued = h.issued ∧ h'.started = h.started ∧
    h'.settled = h.settled

namespace Queued
variable {h h' : Heap Tree} {F : Multiset Frame} {frame next : Frame} {call : Call} {key : Version}

theorem initial (branches : Version → Bool) (head : Option Version) (tree : Tree) :
    Queued (Heap.initial branches head tree) 0 where
  token := rfl
  keys _ hMem := by cases hMem
  nodup := List.nodup_nil
  current _ h := by cases h
  named _ hMem := by cases hMem
  valid _ hMem := by cases hMem
  idle _ _ := rfl
  order _ := rfl
  running _ hMem := by cases hMem
  rest _ := rfl

theorem key_of_call (h : frame.call? = some call) : frame.key? = some call.version := by
  cases frame <;> cases h <;> rfl

theorem isWorker_of_call (h : frame.call? = some call) : frame.isWorker = true := by
  rw [Frame.isWorker, key_of_call h]
  rfl

theorem call_none (h : frame.isWorker = false) : frame.call? = none := by
  cases hCall : frame.call? with
  | none => rfl
  | some call =>
    rw [isWorker_of_call hCall] at h
    cases h

/-- While a worker is executed there is no other one. -/
theorem alone (hQueued : Queued h (frame ::ₘ F)) (hWorker : frame.isWorker = true) :
    h.batchingQueue.currentKey.isSome = true ∧ tally Frame.isWorker F = 0 ∧
      ∀ other ∈ F, other.isWorker = false := by
  have hToken := hQueued.token
  rw [tally_cons_pos hWorker] at hToken
  split at hToken
  · rename_i hSome
    have hNone : tally Frame.isWorker F = 0 := by omega
    exact ⟨hSome, hNone, fun other hMem =>
      Bool.eq_false_iff.mpr (Multiset.countP_eq_zero.mp hNone other hMem)⟩
  · omega

/-- The action of the call that is run goes on. -/
theorem goes (hQueued : Queued h (frame ::ₘ F)) (hFrame : frame.call? = some call)
    (hNext : next.call? = some call) (hSame : h.SameCalls h') : Queued h' (next ::ₘ F) := by
  obtain ⟨hQueue, hIssued, hStarted, hSettled⟩ := hSame
  obtain ⟨hSome, hNone, hOthers⟩ := hQueued.alone (isWorker_of_call hFrame)
  have hRunning := hQueued.running frame (Multiset.mem_cons_self ..) call hFrame
  have hKey := hQueued.keys frame (Multiset.mem_cons_self ..) _ (key_of_call hFrame)
  constructor
  · rw [hQueue, tally_cons_pos (isWorker_of_call hNext), hNone, if_pos hSome]
  · intro other hMem key hOther
    rw [hQueue]
    rcases Multiset.mem_cons.mp hMem with rfl | hOld
    · rwa [← hOther, key_of_call hNext]
    · exact hQueued.keys other (Multiset.mem_cons_of_mem hOld) key hOther
  · rw [hQueue]
    exact hQueued.nodup
  · rw [hQueue]
    exact hQueued.current
  · rw [hQueue]
    exact hQueued.named
  · intro other hMem
    rcases Multiset.mem_cons.mp hMem with rfl | hOld
    · cases hNext
    · exact hQueued.valid other (Multiset.mem_cons_of_mem hOld)
  · rw [hQueue]
    exact hQueued.idle
  · rw [hQueue, hIssued, hStarted]
    exact hQueued.order
  · intro other hMem otherCall hOther
    rw [hStarted, hSettled]
    rcases Multiset.mem_cons.mp hMem with rfl | hOld
    · rw [hNext] at hOther
      cases hOther
      exact hRunning
    · rw [call_none (hOthers other hOld)] at hOther
      cases hOther
  · intro hAll
    rw [hAll next (Multiset.mem_cons_self ..)] at hNext
    cases hNext

/-- The action of the call has ended, and the pump goes on. -/
theorem settles {outcome : Except String Result} (hQueued : Queued h (.settle call outcome ::ₘ F)) :
    Queued { h with settled := h.settled ++ [(call, outcome)] }
      (.pumpQueue call.version ::ₘ F) := by
  obtain ⟨hSome, hNone, hOthers⟩ := hQueued.alone rfl
  have hRunning := hQueued.running _ (Multiset.mem_cons_self ..) call rfl
  have hKey := hQueued.keys _ (Multiset.mem_cons_self ..) call.version rfl
  refine ⟨?_, ?_, hQueued.nodup, hQueued.current, hQueued.named, ?_, hQueued.idle, hQueued.order,
    ?_, ?_⟩
  · rw [tally_cons_pos rfl, hNone, if_pos hSome]
  · intro other hMem key hOther
    rcases Multiset.mem_cons.mp hMem with rfl | hOld
    · rwa [← hOther]
    · exact hQueued.keys other (Multiset.mem_cons_of_mem hOld) key hOther
  · intro other hMem
    rcases Multiset.mem_cons.mp hMem with hNew | hOld
    · cases hNew
    · exact hQueued.valid other (Multiset.mem_cons_of_mem hOld)
  · intro other hMem otherCall hOther
    rcases Multiset.mem_cons.mp hMem with rfl | hOld
    · cases hOther
    · rw [call_none (hOthers other hOld)] at hOther
      cases hOther
  · intro _
    rw [List.map_append]
    exact hRunning

/-- A client has made a call. -/
theorem issues (hQueued : Queued h F) {used : List ℕ} (hVersion : call.version ≠ "") :
    Queued { h with used := used } (.enqueue call ::ₘ F) := by
  refine ⟨?_, ?_, hQueued.nodup, hQueued.current, hQueued.named, ?_, hQueued.idle, hQueued.order,
    ?_, ?_⟩
  · rw [tally_cons_neg rfl]
    exact hQueued.token
  · intro other hMem key hOther
    rcases Multiset.mem_cons.mp hMem with rfl | hOld
    · cases hOther
    · exact hQueued.keys other hOld key hOther
  · intro other hMem
    rcases Multiset.mem_cons.mp hMem with hNew | hOld
    · cases hNew
      exact hVersion
    · exact hQueued.valid other hOld
  · intro other hMem otherCall hOther
    rcases Multiset.mem_cons.mp hMem with rfl | hOld
    · cases hOther
    · exact hQueued.running other hOld otherCall hOther
  · exact fun hAll => hQueued.rest fun other hMem => hAll other (Multiset.mem_cons_of_mem hMem)

theorem version_of_mem (hQueued : Queued h F) (hMem : call ∈ h.batchingQueue.queueOf key) :
    call.version = key := by
  have hIssued : call ∈ h.issued.filter fun call => call.version = key := by
    rw [hQueued.order key]
    exact List.mem_append_right _ hMem
  exact of_decide_eq_true (List.mem_filter.mp hIssued).2

/-- Between two actions every call that was started is settled. -/
theorem started_eq (hQueued : Queued h (.pumpQueue key ::ₘ F)) :
    h.started = h.settled.map Prod.fst := by
  obtain ⟨-, -, hOthers⟩ := hQueued.alone rfl
  apply hQueued.rest
  intro other hMem
  rcases Multiset.mem_cons.mp hMem with rfl | hOld
  · rfl
  · exact call_none (hOthers other hOld)

theorem shifts {queue : BatchingQueue Version Call}
    (hQueued : Queued h (.pumpQueue key ::ₘ F))
    (hShift : h.batchingQueue.shift key = some (call, queue)) :
    call.version = key ∧ Queued { h with batchingQueue := queue, started := h.started ++ [call] }
      (.checkoutVersion call ::ₘ F) := by
  obtain ⟨hSome, hNone, hOthers⟩ := hQueued.alone rfl
  obtain ⟨hQueue, hOther, hNext⟩ := BatchingQueue.queueOf_shift hShift
  have hKey : h.batchingQueue.currentKey = some key :=
    hQueued.keys _ (Multiset.mem_cons_self ..) key rfl
  have hVersion : call.version = key :=
    hQueued.version_of_mem (by rw [hQueue]; exact List.mem_cons_self)
  have hCurrent : queue.currentKey = some key := by rw [hNext, ← hKey]
  have hMem : key ∈ h.batchingQueue.keyedQueues.map Prod.fst := hQueued.current key hKey
  have hKeys : queue.keyedQueues.map Prod.fst = h.batchingQueue.keyedQueues.map Prod.fst := by
    rw [hNext, Entries.keys_set, if_pos hMem]
  refine ⟨hVersion, ?_, ?_, ?_, ?_, ?_, ?_, ?_, ?_, ?_, ?_⟩
  · rw [tally_cons_pos rfl, hNone, hCurrent]
    rfl
  · intro other hIn otherKey hOtherKey
    rcases Multiset.mem_cons.mp hIn with rfl | hOld
    · cases hOtherKey
      rw [hVersion]
      exact hCurrent
    · have hNot := hOthers other hOld
      rw [Frame.isWorker, hOtherKey] at hNot
      cases hNot
  · rw [hKeys]
    exact hQueued.nodup
  · intro other hEq
    rw [hKeys]
    rw [hCurrent] at hEq
    cases hEq
    exact hMem
  · rw [hKeys]
    exact hQueued.named
  · intro other hIn
    rcases Multiset.mem_cons.mp hIn with hNew | hOld
    · cases hNew
    · exact hQueued.valid other (Multiset.mem_cons_of_mem hOld)
  · intro hIdle
    rw [hCurrent] at hIdle
    cases hIdle
  · intro other
    have hOrder := hQueued.order other
    by_cases hSame : other = key
    · subst hSame
      have hOne : [call].filter (fun call => call.version = other) = [call] :=
        List.filter_cons_of_pos (decide_eq_true hVersion)
      rw [hOrder, hQueue, List.filter_append, hOne, List.append_assoc, List.singleton_append]
    · have hOne : [call].filter (fun call => call.version = other) = [] :=
        List.filter_cons_of_neg fun hEq => hSame ((of_decide_eq_true hEq).symm.trans hVersion)
      rw [hOrder, List.filter_append, hOne, List.append_nil, hOther other hSame]
  · intro other hIn otherCall hOtherCall
    rcases Multiset.mem_cons.mp hIn with rfl | hOld
    · cases hOtherCall
      rw [hQueued.started_eq]
    · rw [call_none (hOthers other hOld)] at hOtherCall
      cases hOtherCall
  · intro hAll
    have hNew := hAll (.checkoutVersion call) (Multiset.mem_cons_self ..)
    cases hNew

/-- A batch ends, and the pump goes on with the next one if there is one. -/
theorem finishes (hQueued : Queued h (.pumpQueue key ::ₘ F))
    (hShift : h.batchingQueue.shift key = none) :
    Queued { h with batchingQueue := h.batchingQueue.finish.1 }
      (↑(h.batchingQueue.finish.2.map Frame.pumpQueue).toList + F) := by
  obtain ⟨hSome, hNone, hOthers⟩ := hQueued.alone rfl
  have hKey : h.batchingQueue.currentKey = some key :=
    hQueued.keys _ (Multiset.mem_cons_self ..) key rfl
  have hEmpty := BatchingQueue.queueOf_of_shift_none hShift
  have hCurrent : h.batchingQueue.finish.1.currentKey = h.batchingQueue.finish.2 := rfl
  have hKeys : h.batchingQueue.finish.1.keyedQueues =
      Entries.erase key h.batchingQueue.keyedQueues := by
    rw [BatchingQueue.finish, hKey]
  have hMem : ∀ other ∈ (↑(h.batchingQueue.finish.2.map Frame.pumpQueue).toList + F :
      Multiset Frame), (∃ next, h.batchingQueue.finish.2 = some next ∧ other = .pumpQueue next) ∨
        other ∈ F := by
    intro other hOther
    rcases Multiset.mem_add.mp hOther with hNew | hOld
    · obtain ⟨next, hNext, rfl⟩ := Option.map_eq_some_iff.mp
        (Option.mem_toList.mp (Multiset.mem_coe.mp hNew))
      exact .inl ⟨next, hNext, rfl⟩
    · exact .inr hOld
  constructor
  · rw [tally_add, hNone, hCurrent]
    cases h.batchingQueue.finish.2 <;> rfl
  · intro other hOther otherKey hOtherKey
    rcases hMem other hOther with ⟨next, hNext, rfl⟩ | hOld
    · cases hOtherKey
      exact hNext
    · have hNot := hOthers other hOld
      rw [Frame.isWorker, hOtherKey] at hNot
      cases hNot
  · rw [hKeys]
    exact Entries.nodup_erase hQueued.nodup key
  · intro next hNext
    rw [hCurrent, BatchingQueue.finish, hKey] at hNext
    rw [hKeys]
    exact (BatchingQueue.mem_of_foldl_longer hNext).resolve_left (by simp)
  · intro other hOther
    rw [hKeys] at hOther
    exact hQueued.named other (Entries.mem_keys_erase hQueued.nodup hOther).2
  · intro call hCall
    rcases hMem _ hCall with ⟨next, -, hEq⟩ | hOld
    · cases hEq
    · exact hQueued.valid call (Multiset.mem_cons_of_mem hOld)
  · intro hIdle other
    rw [BatchingQueue.queueOf_finish hKey hEmpty hQueued.nodup]
    exact BatchingQueue.queueOf_of_finish_none hKey hEmpty hQueued.nodup hIdle other
  · intro other
    rw [BatchingQueue.queueOf_finish hKey hEmpty hQueued.nodup]
    exact hQueued.order other
  · intro other hOther call hCall
    rcases hMem other hOther with ⟨next, -, rfl⟩ | hOld
    · cases hCall
    · rw [call_none (hOthers other hOld)] at hCall
      cases hCall
  · exact fun _ => hQueued.started_eq

theorem enqueue_pump (hQueued : Queued h F) (call : Call) :
    (h.batchingQueue.enqueue truthy call.version call).2 =
        (if h.batchingQueue.currentKey.isSome then none else some call.version) ∧
      (h.batchingQueue.enqueue truthy call.version call).1.currentKey =
        some (h.batchingQueue.currentKey.getD call.version) := by
  cases hKey : h.batchingQueue.currentKey with
  | none =>
    rw [BatchingQueue.enqueue, hKey]
    exact ⟨rfl, rfl⟩
  | some key =>
    have hNamed : truthy key = true :=
      decide_eq_true (hQueued.named key (hQueued.current key hKey))
    rw [BatchingQueue.enqueue, hKey, Option.any_some, if_pos hNamed]
    exact ⟨rfl, rfl⟩

/-- A call is issued, and a pump is started if there is none. -/
theorem enqueues (hQueued : Queued h (.enqueue call ::ₘ F)) :
    Queued { h with
        batchingQueue := (h.batchingQueue.enqueue truthy call.version call).1
        issued := h.issued ++ [call] }
      (↑(((h.batchingQueue.enqueue truthy call.version call).2).map
        Frame.pumpQueue).toList + F) := by
  have hVersion : call.version ≠ "" := hQueued.valid call (Multiset.mem_cons_self ..)
  obtain ⟨hPump, hCurrent⟩ := hQueued.enqueue_pump call
  have hKeys := BatchingQueue.keyedQueues_enqueue truthy h.batchingQueue call.version call
  have hToken := hQueued.token
  rw [tally_cons_neg rfl] at hToken
  have hMem : ∀ other ∈ (↑(((h.batchingQueue.enqueue truthy call.version call).2).map
      Frame.pumpQueue).toList + F : Multiset Frame),
        (h.batchingQueue.currentKey = none ∧ other = .pumpQueue call.version) ∨ other ∈ F := by
    intro other hOther
    rcases Multiset.mem_add.mp hOther with hNew | hOld
    · rw [hPump] at hNew
      cases hKey : h.batchingQueue.currentKey with
      | none =>
        rw [hKey] at hNew
        exact .inl ⟨rfl, List.mem_singleton.mp hNew⟩
      | some key =>
        rw [hKey] at hNew
        cases hNew
    · exact .inr hOld
  constructor
  · rw [tally_add, hToken, hPump, hCurrent]
    cases h.batchingQueue.currentKey <;> rfl
  · intro other hOther key hOtherKey
    rw [hCurrent]
    rcases hMem other hOther with ⟨hNone, rfl⟩ | hOld
    · cases hOtherKey
      rw [hNone, Option.getD_none]
    · rw [hQueued.keys other (Multiset.mem_cons_of_mem hOld) key hOtherKey, Option.getD_some]
  · rw [hKeys]
    exact Entries.nodup_set hQueued.nodup _ _
  · intro key hKey
    rw [hCurrent] at hKey
    cases hKey
    rw [hKeys, Entries.keys_set]
    cases hOld : h.batchingQueue.currentKey with
    | none =>
      rw [Option.getD_none]
      split
      · assumption
      · exact List.mem_append_right _ (List.mem_singleton_self _)
    | some key =>
      have hIn := hQueued.current key hOld
      rw [Option.getD_some]
      split
      · exact hIn
      · exact List.mem_append_left _ hIn
  · intro key hKey
    rw [hKeys, Entries.keys_set] at hKey
    split at hKey
    · exact hQueued.named key hKey
    · rcases List.mem_append.mp hKey with hOld | hNew
      · exact hQueued.named key hOld
      · rw [List.mem_singleton.mp hNew]
        exact hVersion
  · intro other hOther
    rcases hMem _ hOther with ⟨-, hEq⟩ | hOld
    · cases hEq
    · exact hQueued.valid other (Multiset.mem_cons_of_mem hOld)
  · intro hIdle
    rw [hCurrent] at hIdle
    cases hIdle
  · intro key
    rw [BatchingQueue.queueOf_enqueue, List.filter_append, hQueued.order key]
    split
    · rename_i hSame
      have hOne : [call].filter (fun call => call.version = key) = [call] :=
        List.filter_cons_of_pos (decide_eq_true hSame.symm)
      rw [hOne, hSame, List.append_assoc]
    · rename_i hOther
      have hOne : [call].filter (fun call => call.version = key) = [] :=
        List.filter_cons_of_neg fun hEq => hOther (of_decide_eq_true hEq).symm
      rw [hOne, List.append_nil]
  · intro other hOther otherCall hCall
    rcases hMem other hOther with ⟨-, rfl⟩ | hOld
    · cases hCall
    · exact hQueued.running other (Multiset.mem_cons_of_mem hOld) otherCall hCall
  · intro hAll
    apply hQueued.rest
    intro other hOther
    rcases Multiset.mem_cons.mp hOther with rfl | hOld
    · rfl
    · exact hAll other (Multiset.mem_add.mpr (.inr hOld))

end Queued

section Exec
variable {workspace : Workspace Tree} {h h' : Heap Tree} {F : Multiset Frame} {frame : Frame}
  {call : Call} {calls forks : List Frame}

/-- What a step of an action can do. -/
theorem exec_call (hFrame : frame.call? = some call) (hSettle : ∀ outcome, frame ≠ .settle call outcome)
    (hExec : exec workspace h frame () = some (.next h' calls forks)) :
    ∃ next, calls = [next] ∧ forks = [] ∧ next.call? = some call ∧ next.work < frame.work ∧
      h.SameCalls h' := by
  cases frame
  case enqueue | pumpQueue => cases hFrame
  case settle _ outcome =>
    cases hFrame
    exact absurd rfl (hSettle outcome)
  all_goals
    cases hFrame
    simp only [exec, reads, ensureFile, forceCheckout] at hExec
    repeat' split at hExec
    all_goals
      cases hExec
      exact ⟨_, rfl, rfl, rfl, by simp [Frame.work], rfl, rfl, rfl, rfl⟩

def weight (actions : List Call) : ℕ := 15 * actions.length + 3

def rank (h : Heap Tree) (F : Multiset Frame) : ℕ :=
  Entries.weigh weight h.batchingQueue.keyedQueues + total Frame.work F

theorem weigh_enqueue (queue : BatchingQueue Version Call)
    (call : Call) :
    Entries.weigh weight (queue.enqueue truthy call.version call).1.keyedQueues ≤
      Entries.weigh weight queue.keyedQueues + 18 := by
  rw [BatchingQueue.keyedQueues_enqueue]
  have hSet := Entries.weigh_set weight call.version (queue.queueOf call.version ++ [call])
    queue.keyedQueues
  unfold BatchingQueue.queueOf at hSet ⊢
  cases hLookup : queue.keyedQueues.lookup call.version with
  | none | some actions =>
    rw [hLookup] at hSet
    simp [weight] at hSet ⊢
    omega

theorem weigh_shift {queue next : BatchingQueue Version Call} {key : Version}
    (hShift : queue.shift key = some (call, next)) :
    Entries.weigh weight next.keyedQueues + 15 = Entries.weigh weight queue.keyedQueues := by
  obtain ⟨hQueue, -, hNext⟩ := BatchingQueue.queueOf_shift hShift
  have hSet := Entries.weigh_set weight key (next.queueOf key) queue.keyedQueues
  rw [hNext]
  rw [BatchingQueue.queueOf] at hQueue
  cases hLookup : queue.keyedQueues.lookup key with
  | none =>
    rw [hLookup] at hQueue
    cases hQueue
  | some actions =>
    rw [hLookup] at hQueue hSet
    rw [Option.getD_some] at hQueue
    simp [hQueue, weight] at hSet ⊢
    omega

theorem weigh_finish {queue : BatchingQueue Version Call} {key : Version}
    (hKey : queue.currentKey = some key) (hMem : key ∈ queue.keyedQueues.map Prod.fst)
    (hShift : queue.shift key = none) :
    Entries.weigh weight queue.finish.1.keyedQueues + 3 =
      Entries.weigh weight queue.keyedQueues := by
  have hErase := Entries.weigh_erase weight key queue.keyedQueues
  have hEmpty := BatchingQueue.queueOf_of_shift_none hShift
  obtain ⟨actions, hLookup⟩ := Option.isSome_iff_exists.mp (Entries.lookup_isSome_iff.mpr hMem)
  rw [BatchingQueue.queueOf, hLookup, Option.getD_some] at hEmpty
  rw [hLookup, hEmpty] at hErase
  rw [BatchingQueue.finish, hKey]
  exact hErase

theorem total_pump (pump : Option Version) (F : Multiset Frame) :
    total Frame.work (↑(pump.map Frame.pumpQueue).toList + F) ≤ total Frame.work F + 1 := by
  cases pump with
  | none => exact (total_add ..).trans_le (by simp)
  | some key => simp [total_cons, Frame.work]

theorem Queued.exec (hQueued : Queued h (frame ::ₘ F))
    (hExec : exec workspace h frame () = some (.next h' calls forks)) :
    Queued h' (↑calls + (↑forks + F)) ∧
      rank h' (↑calls + (↑forks + F)) < rank h (frame ::ₘ F) := by
  cases frame
  case enqueue call =>
    simp only [GitReactFileRepository.exec] at hExec
    cases hExec
    have hWeigh := weigh_enqueue h.batchingQueue call
    have hPump := total_pump (h.batchingQueue.enqueue truthy call.version call).2 F
    refine ⟨by simpa using hQueued.enqueues, ?_⟩
    simp only [rank, nil_frames, total_cons, Frame.work]
    omega
  case pumpQueue key =>
    simp only [GitReactFileRepository.exec] at hExec
    split at hExec
    · rename_i call queue hShift
      cases hExec
      have hWeigh := weigh_shift hShift
      refine ⟨by simpa using (hQueued.shifts hShift).2, ?_⟩
      simp only [rank, cons_frames, nil_frames, total_cons, Frame.work]
      omega
    · rename_i hShift
      cases hExec
      have hKey := hQueued.keys _ (Multiset.mem_cons_self ..) key rfl
      have hWeigh := weigh_finish hKey (hQueued.current key hKey) hShift
      have hPump := total_pump h.batchingQueue.finish.2 F
      refine ⟨by simpa using hQueued.finishes hShift, ?_⟩
      simp only [rank, nil_frames, total_cons, Frame.work]
      omega
  case settle call outcome =>
    cases hExec
    refine ⟨by simpa using hQueued.settles, ?_⟩
    simp [rank, total_cons, Frame.work]
  all_goals
    obtain ⟨next, rfl, rfl, hNext, hWork, hSame⟩ := exec_call rfl (fun _ h => by cases h) hExec
    refine ⟨by simpa using hQueued.goes rfl hNext hSame, ?_⟩
    simp only [rank, hSame.1, cons_frames, nil_frames, total_cons]
    omega

end Exec

end Queued

section Runs
variable {Tree : Type u} {workspace : Workspace Tree} {branches : Version → Bool}
  {head : Option Version} {tree : Tree}
  {ok : Heap Tree → Frame → Multiset Frame → Prop} {t : Config (Heap Tree) Frame String}

theorem queued_invariant :
    Machine.Invariant (repository workspace) ok (.initial branches head tree) Queued where
  initial := Queued.initial branches head tree
  start {h h' frame F} hQueued hStart := by
    simp only [repository] at hStart
    split at hStart
    · rename_i call
      split at hStart
      · cases hStart
      · rename_i hNew
        cases hStart
        exact hQueued.issues (not_or.mp hNew).2
    · cases hStart
  exec hQueued _ hExec := (hQueued.exec hExec).1

theorem progress : Machine.Progress (repository workspace) Always Queued rank where
  go {h frame F} _ := ⟨(), rfl⟩
  crash {h frame F choice why} _ _ hExec := by
    cases frame <;> simp only [repository, exec, reads, ensureFile] at hExec <;>
      (repeat' split at hExec) <;> cases hExec
  next hQueued _ hExec := hQueued.exec hExec

end Runs

end PlatformOverride.GitReactFileRepository
