import Mathlib
import ReactNativeWindows.Concurrency.FairRuns

/-! The `TaskSequencer` of a `WinRTWebSocketResource`. Calls of `QueueTaskAsync` come from any threads,
and a turn is one atomic action of a call or of its coroutine. -/
namespace Networking

open Concurrency

universe u

variable {Call : Type u}

inductive Next (Call : Type u) where
  | null
  | handle (call : Call)
  | completed
  deriving DecidableEq

inductive Phase where
  | absent
  | suspended
  | swapped
  | chained
  | resumed
  | running
  | finished
  | completed
  deriving DecidableEq

inductive TaskEvent (Call : Type u) where
  | started (call : Call)
  | finished (call : Call)

/-- Each call has its own `ChainedTask`, and one was there before all calls. `node` is the one that a
call has taken out of `m_latest`, and `resumers` counts the threads that have a handle and are about to
resume it. The calls that swapped and the events are listed from the oldest on. -/
structure TaskSequencer (Call : Type u) where
  m_latest : Option Call
  m_next : Option Call → Next Call
  node : Call → Option Call
  phase : Call → Phase
  resumers : Call → ℕ
  queued : List Call
  log : List (TaskEvent Call)
  faulted : Bool

/-- A turn of `QueueTaskAsync`, of the thread that resumes a coroutine, or of the coroutine: it comes back
to its apartment and starts the task, which finishes by return or exception, and the destructor of the
`Completer` is run. -/
inductive Turn (Call : Type u) where
  | queueTaskAsync (call : Call)
  | swap (call : Call)
  | continueWith (call : Call)
  | resume (call : Call)
  | start (call : Call)
  | finish (call : Call)
  | complete (call : Call)
  deriving DecidableEq

namespace TaskSequencer

def initial : TaskSequencer Call where
  m_latest := none
  m_next := fun node => if node.isNone then .completed else .null
  node := fun _ => none
  phase := fun _ => .absent
  resumers := fun _ => 0
  queued := []
  log := []
  faulted := false

section Turns

variable [DecidableEq Call]

@[simp]
def enter (s : TaskSequencer Call) (call : Call) (phase : Phase) : TaskSequencer Call :=
  { s with phase := Function.update s.phase call phase }

@[simp]
def exchange (s : TaskSequencer Call) (node : Option Call) (next : Next Call) : TaskSequencer Call :=
  { s with m_next := Function.update s.m_next node next }

@[simp]
def handOver (s : TaskSequencer Call) (call : Call) : TaskSequencer Call :=
  { s with resumers := Function.update s.resumers call (s.resumers call + 1) }

def swap (s : TaskSequencer Call) (call : Call) : TaskSequencer Call :=
  { s.enter call .swapped with
    m_latest := some call
    node := Function.update s.node call s.m_latest
    queued := s.queued ++ [call] }

def continueWith (s : TaskSequencer Call) (call : Call) : TaskSequencer Call :=
  let after := (s.exchange (s.node call) (.handle call)).enter call .chained
  if s.m_next (s.node call) = .null then after else after.handOver call

/-- Only a coroutine that is suspended may be resumed. -/
def resume (s : TaskSequencer Call) (call : Call) : TaskSequencer Call :=
  let after := { s with resumers := Function.update s.resumers call (s.resumers call - 1) }
  if s.phase call = .chained then after.enter call .resumed else { after with faulted := true }

/-- There is no coroutine at the address that stands for completion. -/
def complete (s : TaskSequencer Call) (call : Call) : TaskSequencer Call :=
  let after := (s.exchange (some call) .completed).enter call .completed
  match s.m_next (some call) with
  | .null => after
  | .handle waiter => after.handOver waiter
  | .completed => { after with faulted := true }

/-- A turn changes nothing where it cannot be taken. -/
def turn (turn : Turn Call) (s : TaskSequencer Call) : TaskSequencer Call :=
  match turn with
  | .queueTaskAsync call => if s.phase call = .absent then s.enter call .suspended else s
  | .swap call => if s.phase call = .suspended then s.swap call else s
  | .continueWith call => if s.phase call = .swapped then s.continueWith call else s
  | .resume call => if 0 < s.resumers call then s.resume call else s
  | .start call =>
    if s.phase call = .resumed then { s.enter call .running with log := s.log ++ [.started call] } else s
  | .finish call =>
    if s.phase call = .running then { s.enter call .finished with log := s.log ++ [.finished call] } else s
  | .complete call => if s.phase call = .finished then s.complete call else s

end Turns

/-! ### Chains -/

/-- Each call has taken out what the one before has put in. -/
def Chained (node : Call → Option Call) : Option Call → List Call → Option Call → Prop
  | first, [], last => first = last
  | first, call :: calls, last => node call = first ∧ Chained node (some call) calls last

section Chains

variable {node : Call → Option Call} {first last : Option Call} {call : Call} {front calls : List Call}

theorem Chained.map_eq (h : Chained node first calls last) :
    first :: calls.map some = calls.map node ++ [last] := by
  induction calls generalizing first with
  | nil => simpa [Chained] using h
  | cons call calls ih => simp [h.1, ih h.2]

theorem chained_append : Chained node first (front ++ calls) last ↔
    ∃ middle, Chained node first front middle ∧ Chained node middle calls last := by
  induction front generalizing first with
  | nil => simp [Chained]
  | cons call front ih => simp [Chained, ih, and_assoc]

theorem Chained.push [DecidableEq Call] (h : Chained node first calls last) (hNew : call ∉ calls) :
    Chained (Function.update node call last) first (calls ++ [call]) (some call) := by
  induction calls generalizing first with
  | nil =>
    obtain rfl : first = last := h
    exact ⟨Function.update_self .., rfl⟩
  | cons other calls ih =>
    obtain ⟨hOther, hNew⟩ := List.ne_and_not_mem_of_not_mem_cons hNew
    exact ⟨by rw [Function.update_of_ne hOther.symm, h.1], ih h.2 hNew⟩

end Chains

/-! ### The invariant -/

def done (s : TaskSequencer Call) : Option Call → Bool
  | none => true
  | some call => s.phase call = .completed

/-- What a node points to before a call continues with it. -/
def opened (s : TaskSequencer Call) (node : Option Call) : Next Call :=
  if s.done node then .completed else .null

inductive Link (s : TaskSequencer Call) (call : Call) : Prop where
  | swapped (phase : s.phase call = .swapped) (resumers : s.resumers call = 0)
      (next : s.m_next (s.node call) = s.opened (s.node call))
  | waiting (phase : s.phase call = .chained) (resumers : s.resumers call = 0)
      (before : s.done (s.node call) = false) (next : s.m_next (s.node call) = .handle call)
  | handed (phase : s.phase call = .chained) (resumers : s.resumers call = 1)
      (before : s.done (s.node call) = true)
  | begun (phase : s.phase call ∈ [Phase.resumed, .running, .finished, .completed])
      (resumers : s.resumers call = 0) (before : s.done (s.node call) = true)

def record (s : TaskSequencer Call) (call : Call) : List (TaskEvent Call) :=
  match s.phase call with
  | .running => [.started call]
  | .finished | .completed => [.started call, .finished call]
  | _ => []

structure Linked (s : TaskSequencer Call) : Prop where
  chained : Chained s.node none s.queued s.m_latest
  nodup : s.queued.Nodup
  fresh : ∀ call ∉ s.queued, s.phase call ∈ [Phase.absent, .suspended] ∧ s.resumers call = 0 ∧
    s.m_next (some call) = .null
  link : ∀ call ∈ s.queued, s.Link call
  latest : s.m_next s.m_latest = s.opened s.m_latest
  log : s.log = s.queued.flatMap s.record
  sound : s.faulted = false

section Steps

variable {s t : TaskSequencer Call} {call other : Call}

theorem Linked.initial : Linked (initial : TaskSequencer Call) where
  chained := rfl
  nodup := List.nodup_nil
  fresh := fun call _ => by simp [TaskSequencer.initial]
  link := fun call hMem => absurd hMem List.not_mem_nil
  latest := rfl
  log := rfl
  sound := rfl

theorem Linked.nodes_nodup (h : s.Linked) : (s.queued.map s.node ++ [s.m_latest]).Nodup := by
  rw [← h.chained.map_eq, List.nodup_cons]
  exact ⟨by simp, h.nodup.map (Option.some_injective _)⟩

/-- A node is taken out of `m_latest` by one call. -/
theorem Linked.node_ne (h : s.Linked) (hCall : call ∈ s.queued) (hOther : other ∈ s.queued)
    (hNe : other ≠ call) : s.node other ≠ s.node call := fun hEq =>
  hNe (List.inj_on_of_nodup_map h.nodes_nodup.of_append_left hOther hCall hEq)

theorem Linked.node_ne_latest (h : s.Linked) (hCall : call ∈ s.queued) : s.node call ≠ s.m_latest :=
  fun hEq => List.disjoint_of_nodup_append h.nodes_nodup (List.mem_map_of_mem hCall) (by simp [hEq])

theorem Linked.mem_of_node (h : s.Linked) (hCall : call ∈ s.queued) (hNode : s.node call = some other) :
    other ∈ s.queued := by
  have hMem : some other ∈ none :: s.queued.map some := by
    rw [h.chained.map_eq, ← hNode]
    exact List.mem_append_left _ (List.mem_map_of_mem hCall)
  simpa using hMem

theorem Linked.mem_of_latest (h : s.Linked) (hLatest : s.m_latest = some other) : other ∈ s.queued := by
  have hMem : some other ∈ none :: s.queued.map some := by
    rw [h.chained.map_eq, hLatest]
    exact List.mem_append_right _ List.mem_cons_self
  simpa using hMem

theorem Linked.mem_queued (h : s.Linked) (hPhase : s.phase call ∉ [Phase.absent, .suspended]) :
    call ∈ s.queued := by
  by_contra hFresh
  exact hPhase (h.fresh call hFresh).1

/-- After a call that is not completed no task has begun. -/
theorem record_eq_nil {calls : List Call} {last : Option Call}
    (hChained : Chained s.node (some call) calls last) (hLinks : ∀ other ∈ calls, s.Link other)
    (hCall : s.phase call ≠ .completed) : calls.flatMap s.record = [] := by
  induction calls generalizing call with
  | nil => rfl
  | cons next calls ih =>
    have hBefore : s.done (s.node next) = false := by simpa [hChained.1, done] using hCall
    have hPhase : s.phase next = .swapped ∨ s.phase next = .chained := by
      cases hLinks next List.mem_cons_self with
      | swapped phase => exact .inl phase
      | waiting phase => exact .inr phase
      | handed _ _ before | begun _ _ before => simp [hBefore] at before
    have hRest := ih hChained.2 (fun other hMem => hLinks other (List.mem_cons_of_mem _ hMem))
      (by rcases hPhase with hPhase | hPhase <;> simp [hPhase])
    rw [List.flatMap_cons, hRest, record]
    rcases hPhase with hPhase | hPhase <;> simp [hPhase]

theorem done_congr {node : Option Call} (h : ∀ call, node = some call →
    (t.phase call = .completed ↔ s.phase call = .completed)) : t.done node = s.done node := by
  cases node with
  | none => rfl
  | some call => simp [done, h call rfl]

theorem Link.of_same (h : s.Link call) (hPhase : t.phase call = s.phase call)
    (hResumers : t.resumers call = s.resumers call) (hDone : t.done (t.node call) = s.done (s.node call))
    (hNext : t.m_next (t.node call) = s.m_next (s.node call)) : t.Link call := by
  cases h with
  | swapped phase resumers next =>
    exact .swapped (hPhase.trans phase) (hResumers.trans resumers)
      (by rw [hNext, next, opened, opened, hDone])
  | waiting phase resumers before next =>
    exact .waiting (hPhase.trans phase) (hResumers.trans resumers) (hDone.trans before) (hNext.trans next)
  | handed phase resumers before =>
    exact .handed (hPhase.trans phase) (hResumers.trans resumers) (hDone.trans before)
  | begun phase resumers before =>
    exact .begun (hPhase ▸ phase) (hResumers.trans resumers) (hDone.trans before)

variable [DecidableEq Call]

variable {events : List (TaskEvent Call)}

/-- A step of a queued call that is not completed and does not become so. -/
theorem Linked.advance (h : s.Linked) (hMem : call ∈ s.queued) (hBefore : s.phase call ≠ .completed)
    (hAfter : t.phase call ≠ .completed) (hLatest : t.m_latest = s.m_latest)
    (hNode : t.node = s.node) (hQueued : t.queued = s.queued)
    (hPhase : ∀ other, other ≠ call → t.phase other = s.phase other)
    (hResumers : ∀ other, other ≠ call → t.resumers other = s.resumers other)
    (hNext : ∀ node, node ≠ s.node call → t.m_next node = s.m_next node) (hLink : t.Link call)
    (hRecord : t.record call = s.record call ++ events) (hLog : t.log = s.log ++ events)
    (hSound : t.faulted = false) : t.Linked := by
  have hDone : ∀ node, t.done node = s.done node := by
    refine fun node => done_congr fun other _ => ?_
    by_cases hEq : other = call
    · simp [hEq, hBefore, hAfter]
    · rw [hPhase other hEq]
  constructor
  case chained => rw [hNode, hQueued, hLatest]; exact h.chained
  case nodup => rw [hQueued]; exact h.nodup
  case fresh =>
    intro other hFresh
    rw [hQueued] at hFresh
    have hNe : other ≠ call := fun hEq => hFresh (hEq ▸ hMem)
    have hAway : some other ≠ s.node call := fun hEq => hFresh (h.mem_of_node hMem hEq.symm)
    rw [hPhase other hNe, hResumers other hNe, hNext _ hAway]
    exact h.fresh other hFresh
  case link =>
    intro other hOther
    rw [hQueued] at hOther
    by_cases hEq : other = call
    · rw [hEq]
      exact hLink
    · exact (h.link other hOther).of_same (hPhase other hEq) (hResumers other hEq) (by rw [hNode, hDone])
        (by rw [hNode, hNext _ (h.node_ne hMem hOther hEq)])
  case latest =>
    rw [hLatest, opened, hDone, hNext _ (h.node_ne_latest hMem).symm]
    exact h.latest
  case log =>
    obtain ⟨front, back, hSplit⟩ := List.append_of_mem hMem
    have hNodup := hSplit ▸ h.nodup
    have hChained := hSplit ▸ h.chained
    obtain ⟨_, -, -, hTail⟩ := chained_append.mp hChained
    have hSilent : back.flatMap s.record = [] := record_eq_nil hTail
      (fun other hOther => h.link other (hSplit ▸ by simp [hOther])) hBefore
    have hOthers : ∀ calls : List Call, call ∉ calls → calls.flatMap t.record = calls.flatMap s.record := by
      intro calls hNot
      refine List.flatMap_congr fun other hOther => ?_
      rw [record, record, hPhase other fun hEq => hNot (hEq ▸ hOther)]
    have hNotFront : call ∉ front := fun hIn =>
      List.disjoint_of_nodup_append hNodup hIn List.mem_cons_self
    have hNotBack := (List.nodup_cons.mp hNodup.of_append_right).1
    rw [hLog, h.log, hQueued, hSplit, List.flatMap_append, List.flatMap_append, List.flatMap_cons,
      List.flatMap_cons, hOthers front hNotFront, hOthers back hNotBack, hSilent, hRecord]
    simp
  case sound => exact hSound

theorem done_enter (hFresh : call ∉ s.queued) (phase : Phase) (node : Option Call)
    (hNode : ∀ other, node = some other → other ∈ s.queued) :
    (s.enter call phase).done node = s.done node := by
  refine done_congr fun other hOther => ?_
  have hNe : other ≠ call := fun hEq => hFresh (hEq ▸ hNode other hOther)
  simp [hNe]

theorem Linked.enter_record (h : s.Linked) (hFresh : call ∉ s.queued) (phase : Phase) :
    s.queued.flatMap (s.enter call phase).record = s.log := by
  rw [h.log]
  refine List.flatMap_congr fun other hMem => ?_
  have hNe : other ≠ call := fun hEq => hFresh (hEq ▸ hMem)
  simp [record, enter, hNe]

theorem Linked.queueTaskAsync (h : s.Linked) (hPhase : s.phase call = .absent) :
    (s.enter call .suspended).Linked := by
  have hFresh : call ∉ s.queued := by
    intro hMem
    cases h.link call hMem <;> simp_all
  have hDone := done_enter hFresh .suspended
  constructor
  case chained => exact h.chained
  case nodup => exact h.nodup
  case fresh =>
    intro other hNot
    have hOther := h.fresh other hNot
    by_cases hEq : other = call
    · exact ⟨by simp [enter, hEq], hOther.2⟩
    · simpa [enter, hEq] using hOther
  case link =>
    intro other hMem
    have hNe : other ≠ call := fun hEq => hFresh (hEq ▸ hMem)
    exact (h.link other hMem).of_same (Function.update_of_ne hNe ..) rfl
      (hDone _ fun _ hEq => h.mem_of_node hMem hEq) rfl
  case latest =>
    have hOpened : (s.enter call .suspended).opened s.m_latest = s.opened s.m_latest := by
      rw [opened, opened, hDone _ fun _ hEq => h.mem_of_latest hEq]
    exact h.latest.trans hOpened.symm
  case log => exact (h.enter_record hFresh _).symm
  case sound => exact h.sound

theorem Linked.swap (h : s.Linked) (hPhase : s.phase call = .suspended) : (s.swap call).Linked := by
  have hFresh : call ∉ s.queued := by
    intro hMem
    cases h.link call hMem <;> simp_all
  obtain ⟨-, hResumers, hNull⟩ := h.fresh call hFresh
  have hDone := done_enter hFresh .swapped
  have hLatest : (s.swap call).done s.m_latest = s.done s.m_latest :=
    hDone _ fun _ hEq => h.mem_of_latest hEq
  constructor
  case chained => exact h.chained.push hFresh
  case nodup => exact h.nodup.append (List.nodup_singleton call) (by simpa using hFresh)
  case fresh =>
    intro other hNot
    have hNe : other ≠ call := fun hEq => hNot (by simp [TaskSequencer.swap, hEq])
    simpa [TaskSequencer.swap, enter, hNe] using h.fresh other fun hMem =>
      hNot (List.mem_append_left _ hMem)
  case link =>
    intro other hMem
    rcases List.mem_append.mp hMem with hOld | hNew
    · have hNe : other ≠ call := fun hEq => hFresh (hEq ▸ hOld)
      have hNode : (s.swap call).node other = s.node other := Function.update_of_ne hNe ..
      exact (h.link other hOld).of_same (Function.update_of_ne hNe ..) rfl
        (by rw [hNode]; exact hDone _ fun _ hEq => h.mem_of_node hOld hEq) (by rw [hNode]; rfl)
    · obtain rfl := List.mem_singleton.mp hNew
      have hNode : (s.swap other).node other = s.m_latest := Function.update_self ..
      refine .swapped (Function.update_self ..) hResumers ?_
      rw [hNode, opened, hLatest]
      exact h.latest
  case latest =>
    have hOpen : (s.swap call).done (some call) = false := by simp [done, TaskSequencer.swap, enter]
    rw [opened]
    exact hNull.trans (if_neg (by simpa [TaskSequencer.swap] using hOpen)).symm
  case log =>
    have hRecord : (s.swap call).record call = [] := by simp [record, TaskSequencer.swap, enter]
    show s.log = (s.queued ++ [call]).flatMap (s.swap call).record
    rw [List.flatMap_append, List.flatMap_singleton, hRecord, List.append_nil]
    exact (h.enter_record hFresh .swapped).symm
  case sound => exact h.sound

/-- The coroutine waits for the task before, or is resumed by its own thread when that is completed. -/
theorem Linked.continueWith (h : s.Linked) (hPhase : s.phase call = .swapped) :
    (s.continueWith call).Linked := by
  have hMem : call ∈ s.queued := h.mem_queued (by simp [hPhase])
  have hDone : ∀ node, ((s.exchange (s.node call) (.handle call)).enter call .chained).done node =
      s.done node := by
    refine fun node => done_congr fun other _ => ?_
    by_cases hEq : other = call <;> simp [hEq, hPhase]
  obtain ⟨hResumers, hNext⟩ : s.resumers call = 0 ∧ s.m_next (s.node call) = s.opened (s.node call) := by
    cases h.link call hMem with
    | swapped phase resumers next => exact ⟨resumers, next⟩
    | waiting phase | handed phase | begun phase => simp [hPhase] at phase
  rw [TaskSequencer.continueWith, hNext, opened]
  cases hBefore : s.done (s.node call) with
  | true =>
    exact h.advance hMem (by simp [hPhase]) (by simp) rfl rfl rfl
      (fun other hNe => by simp [hNe]) (fun other hNe => by simp [hNe]) (fun node hNe => by simp [hNe])
      (.handed (by simp) (by simp [hResumers]) ((hDone _).trans hBefore)) (by simp [record, hPhase])
      (List.append_nil s.log).symm h.sound
  | false =>
    exact h.advance hMem (by simp [hPhase]) (by simp) rfl rfl rfl
      (fun other hNe => by simp [hNe]) (fun _ _ => rfl) (fun node hNe => by simp [hNe])
      (.waiting (by simp) hResumers ((hDone _).trans hBefore) (by simp)) (by simp [record, hPhase])
      (List.append_nil s.log).symm h.sound

variable {resumers : Call → ℕ}

/-- The coroutine goes on after the task before is completed. -/
theorem Linked.goOn (h : s.Linked) (hMem : call ∈ s.queued) (hBefore : s.phase call ≠ .completed)
    {phase : Phase} (hPhase : phase ∈ [Phase.resumed, .running, .finished])
    (hDone : s.done (s.node call) = true) (hNone : resumers call = 0)
    (hOthers : ∀ other, other ≠ call → resumers other = s.resumers other)
    (hRecord : (s.enter call phase).record call = s.record call ++ events) :
    { s.enter call phase with resumers := resumers, log := s.log ++ events }.Linked := by
  have hAfter : phase ≠ .completed := by
    rintro rfl
    simp at hPhase
  refine h.advance hMem hBefore (by simpa using hAfter) rfl rfl rfl (fun other hNe => by simp [hNe])
    hOthers (fun _ _ => rfl) (.begun ?_ hNone ?_) hRecord rfl h.sound
  · simp only [enter, Function.update_self]
    exact List.mem_append_left [Phase.completed] hPhase
  · refine (done_congr fun other hNode => ?_).trans hDone
    have hNe : other ≠ call := by
      rintro rfl
      rw [show s.node other = some other from hNode] at hDone
      exact hBefore (of_decide_eq_true hDone)
    simp [hNe]

omit [DecidableEq Call] in
theorem Linked.begun_of_phase (h : s.Linked) (hPhase : s.phase call ∈ [Phase.resumed, .running, .finished]) :
    call ∈ s.queued ∧ s.done (s.node call) = true ∧ s.resumers call = 0 := by
  have hMem : call ∈ s.queued := h.mem_queued fun hOther => by
    rcases List.mem_pair.mp hOther with hOther | hOther <;> simp [hOther] at hPhase
  cases h.link call hMem with
  | begun _ resumers before => exact ⟨hMem, before, resumers⟩
  | swapped phase | waiting phase | handed phase => simp [phase] at hPhase

theorem Linked.resume (h : s.Linked) (hResumers : 0 < s.resumers call) : (s.resume call).Linked := by
  have hMem : call ∈ s.queued := by
    by_contra hFresh
    rw [(h.fresh call hFresh).2.1] at hResumers
    exact Nat.lt_irrefl 0 hResumers
  obtain ⟨hPhase, hOne, hBefore⟩ : s.phase call = .chained ∧ s.resumers call = 1 ∧
      s.done (s.node call) = true := by
    cases h.link call hMem with
    | handed phase resumers before => exact ⟨phase, resumers, before⟩
    | swapped _ resumers | waiting _ resumers | begun _ resumers => omega
  have hNone : Function.update s.resumers call (s.resumers call - 1) call = 0 := by simp [hOne]
  have hRecord : (s.enter call .resumed).record call = s.record call ++ [] := by simp [record, hPhase]
  have hOn := h.goOn hMem (by simp [hPhase]) (by simp) hBefore hNone
    (fun other hNe => Function.update_of_ne hNe ..) hRecord
  rw [List.append_nil] at hOn
  rw [TaskSequencer.resume, if_pos hPhase]
  exact hOn

/-- A call is completed, and who comes after it gets a link that fits. -/
theorem Linked.completed (h : s.Linked) (hPhase : s.phase call = .finished)
    (hFresh : ∀ other ∉ s.queued, resumers other = s.resumers other)
    (hOthers : ∀ other ∈ s.queued, s.node other ≠ some call → resumers other = s.resumers other)
    (hAfter : ∀ other ∈ s.queued, s.node other = some call →
      { (s.exchange (some call) .completed).enter call .completed with resumers := resumers }.Link other) :
    { (s.exchange (some call) .completed).enter call .completed with resumers := resumers }.Linked := by
  obtain ⟨hMem, hBefore, hResumers⟩ := h.begun_of_phase (by simp [hPhase] : s.phase call ∈ _)
  have hDone : ∀ node, node ≠ some call → { (s.exchange (some call) .completed).enter call .completed with
      resumers := resumers }.done node = s.done node := by
    refine fun node hNode => done_congr fun other hOther => ?_
    have hNe : other ≠ call := fun hEq => hNode (hEq ▸ hOther)
    simp [hNe]
  have hSelf : s.node call ≠ some call := fun hEq => by simp [hEq, done, hPhase] at hBefore
  constructor
  case chained => exact h.chained
  case nodup => exact h.nodup
  case fresh =>
    intro other hNot
    have hNe : other ≠ call := fun hEq => hNot (hEq ▸ hMem)
    simpa [hNe, hFresh other hNot] using h.fresh other hNot
  case link =>
    intro other hOther
    by_cases hNode : s.node other = some call
    · exact hAfter other hOther hNode
    · by_cases hEq : other = call
      · subst hEq
        exact .begun (by simp) ((hOthers other hMem hSelf).trans hResumers) ((hDone _ hSelf).trans hBefore)
      · exact (h.link other hOther).of_same (by simp [hEq]) (hOthers other hOther hNode) (hDone _ hNode)
          (Function.update_of_ne hNode ..)
  case latest =>
    by_cases hLatest : s.m_latest = some call
    · simp [opened, done, hLatest]
    · exact (Function.update_of_ne hLatest ..).trans (h.latest.trans
        (congrArg (fun isDone => if isDone = true then Next.completed else .null) (hDone _ hLatest).symm))
  case log =>
    refine h.log.trans (List.flatMap_congr fun other _ => ?_)
    by_cases hEq : other = call <;> simp [record, hEq, hPhase]
  case sound => exact h.sound

/-- Whoever has taken the node out of `m_latest` finds it completed, or is resumed. -/
theorem Linked.complete (h : s.Linked) (hPhase : s.phase call = .finished) : (s.complete call).Linked := by
  have hMem : call ∈ s.queued := (h.begun_of_phase (by simp [hPhase])).1
  have hNotDone : s.done (some call) = false := by simp [done, hPhase]
  have hLinks : ∀ other ∈ s.queued, s.node other = some call →
      s.resumers other = 0 ∧ (s.phase other = .swapped ∧ s.m_next (some call) = .null ∨
        s.phase other = .chained ∧ s.m_next (some call) = .handle other) := by
    intro other hOther hNode
    cases h.link other hOther with
    | swapped phase resumers next =>
      refine ⟨resumers, .inl ⟨phase, ?_⟩⟩
      rwa [hNode, opened, hNotDone] at next
    | waiting phase resumers before next => exact ⟨resumers, .inr ⟨phase, hNode ▸ next⟩⟩
    | handed _ _ before | begun _ _ before => simp [hNode, hNotDone] at before
  rw [TaskSequencer.complete]
  have hNextOf : s.m_next (some call) = .null ∨ ∃ other ∈ s.queued, s.node other = some call ∧
      s.m_next (some call) = .handle other := by
    have hIn : some call ∈ s.queued.map s.node ++ [s.m_latest] := by
      rw [← h.chained.map_eq]
      simp [hMem]
    rcases List.mem_append.mp hIn with hTaken | hLatest
    · obtain ⟨other, hOther, hNode⟩ := List.mem_map.mp hTaken
      rcases (hLinks other hOther hNode).2 with ⟨-, hNull⟩ | ⟨-, hHandle⟩
      · exact .inl hNull
      · exact .inr ⟨other, hOther, hNode, hHandle⟩
    · have hLast := h.latest
      rw [← List.mem_singleton.mp hLatest, opened, hNotDone] at hLast
      exact .inl hLast
  rcases hNextOf with hNull | ⟨waiter, hWaiter, hNode, hHandle⟩
  · rw [hNull]
    refine h.completed hPhase (fun _ _ => rfl) (fun _ _ _ => rfl) fun other hOther hNode => ?_
    obtain ⟨hNone, ⟨hSwapped, -⟩ | ⟨-, hHandle⟩⟩ := hLinks other hOther hNode
    · have hNe : other ≠ call := fun hEq => by simp [hEq, hPhase] at hSwapped
      exact .swapped (by simp [hNe, hSwapped]) hNone (by simp [hNode, opened, done])
    · simp [hNull] at hHandle
  · rw [hHandle]
    refine h.completed hPhase (fun other hNot => ?_) (fun other _ hOther => ?_)
      fun other hOther hSame => ?_
    · have hNe : other ≠ waiter := fun hEq => hNot (hEq ▸ hWaiter)
      simp [hNe]
    · have hNe : other ≠ waiter := fun hEq => hOther (hEq ▸ hNode)
      simp [hNe]
    · obtain rfl : other = waiter := by
        by_contra hNe
        exact h.node_ne hWaiter hOther hNe (hSame.trans hNode.symm)
      obtain ⟨hNone, ⟨-, hNull⟩ | ⟨hChained, -⟩⟩ := hLinks other hOther hNode
      · simp [hHandle] at hNull
      · have hNe : other ≠ call := fun hEq => by simp [hEq, hPhase] at hChained
        exact .handed (by simp [hNe, hChained]) (by simp [hNone]) (by simp [hNode, done])

theorem Linked.turn (h : s.Linked) (turn : Turn Call) : (TaskSequencer.turn turn s).Linked := by
  have hGo : ∀ {call}, s.phase call ∈ [Phase.resumed, .running] → ∀ {phase events},
      phase ∈ [Phase.resumed, .running, .finished] →
      (s.enter call phase).record call = s.record call ++ events →
      { s.enter call phase with log := s.log ++ events }.Linked := by
    intro call hPhase phase events hNext hRecord
    obtain ⟨hMem, hBefore, hResumers⟩ := h.begun_of_phase (List.mem_append_left [Phase.finished] hPhase)
    exact h.goOn hMem (fun hEq => by simp [hEq] at hPhase) hNext hBefore hResumers (fun _ _ => rfl) hRecord
  cases turn <;> rw [TaskSequencer.turn] <;> split
  · exact h.queueTaskAsync ‹_›
  · exact h
  · exact h.swap ‹_›
  · exact h
  · exact h.continueWith ‹_›
  · exact h
  · exact h.resume ‹_›
  · exact h
  · exact hGo (by simp [*]) (by simp) (by simp [record, *])
  · exact h
  · exact hGo (by simp [*]) (by simp) (by simp [record, *])
  · exact h
  · exact h.complete ‹_›
  · exact h

/-! ### The order of the tasks -/

def ranTask (call : Call) : List (TaskEvent Call) :=
  [.started call, .finished call]

/-- The tasks have started and finished one after the other, as their calls swapped, and one may be
running still. -/
structure InTurn (s : TaskSequencer Call) : Prop where
  nodup : s.queued.Nodup
  sound : s.faulted = false
  log : ∃ ran rest, s.queued = ran ++ rest ∧ (s.log = ran.flatMap ranTask ∨
    ∃ call others, rest = call :: others ∧ s.log = ran.flatMap ranTask ++ [.started call])

omit [DecidableEq Call] in
theorem record_cases (call : Call) :
    s.record call = [] ∧ s.phase call ≠ .completed ∨
      s.record call = [.started call] ∧ s.phase call ≠ .completed ∨ s.record call = ranTask call := by
  cases hPhase : s.phase call <;> simp [record, ranTask, hPhase]

omit [DecidableEq Call] in
theorem log_in_turn {first last : Option Call} {calls : List Call}
    (hChained : Chained s.node first calls last) (hLinks : ∀ call ∈ calls, s.Link call) :
    ∃ ran rest, calls = ran ++ rest ∧ (calls.flatMap s.record = ran.flatMap ranTask ∨
      ∃ call others, rest = call :: others ∧
        calls.flatMap s.record = ran.flatMap ranTask ++ [.started call]) := by
  induction calls generalizing first with
  | nil => exact ⟨[], [], rfl, .inl rfl⟩
  | cons call calls ih =>
    have hRest : ∀ other ∈ calls, s.Link other := fun other hMem => hLinks other (List.mem_cons_of_mem _ hMem)
    rcases s.record_cases call with ⟨hNone, hPhase⟩ | ⟨hStarted, hPhase⟩ | hRan
    · refine ⟨[], call :: calls, rfl, .inl ?_⟩
      rw [List.flatMap_cons, hNone, record_eq_nil hChained.2 hRest hPhase]
      rfl
    · refine ⟨[], call :: calls, rfl, .inr ⟨call, calls, rfl, ?_⟩⟩
      rw [List.flatMap_cons, hStarted, record_eq_nil hChained.2 hRest hPhase]
      rfl
    · obtain ⟨ran, rest, rfl, hLog⟩ := ih hChained.2 hRest
      refine ⟨call :: ran, rest, rfl, hLog.imp (fun hLog => ?_) ?_⟩
      · rw [List.flatMap_cons, hRan, hLog, List.flatMap_cons]
      · rintro ⟨current, others, hSplit, hLog⟩
        refine ⟨current, others, hSplit, ?_⟩
        rw [List.flatMap_cons, hRan, hLog, List.flatMap_cons, List.append_assoc]

omit [DecidableEq Call] in
theorem Linked.inTurn (h : s.Linked) : s.InTurn where
  nodup := h.nodup
  sound := h.sound
  log := by
    obtain ⟨ran, rest, hSplit, hLog⟩ := log_in_turn h.chained h.link
    exact ⟨ran, rest, hSplit, h.log ▸ hLog⟩

/-! ### Each task runs -/

/-- Two for each turn of its own that a call has before it. -/
def weight : Phase → ℕ
  | .absent => 14
  | .suspended => 12
  | .swapped => 10
  | .chained => 8
  | .resumed => 6
  | .running => 4
  | .finished => 2
  | .completed => 0

def rank [Fintype Call] (s : TaskSequencer Call) : ℕ :=
  ∑ call, weight (s.phase call) + ∑ call, s.resumers call

theorem sum_update [Fintype Call] (f : Call → ℕ) (call : Call) (value : ℕ) :
    ∑ other, Function.update f call value other + f call = ∑ other, f other + value := by
  rw [Finset.sum_update_of_mem (Finset.mem_univ call), Finset.sdiff_singleton_eq_erase,
    ← Finset.add_sum_erase Finset.univ f (Finset.mem_univ call)]
  omega

theorem rank_lt [Fintype Call] {phase : Phase} (hPhase : t.phase = Function.update s.phase call phase)
    (hWeight : weight phase + 2 ≤ weight (s.phase call))
    (hResumers : t.resumers = s.resumers ∨
      ∃ waiter, t.resumers = Function.update s.resumers waiter (s.resumers waiter + 1)) :
    t.rank < s.rank := by
  have hMore : ∑ other, t.resumers other ≤ ∑ other, s.resumers other + 1 := by
    rcases hResumers with hSame | ⟨waiter, hMore⟩
    · simp [hSame]
    · have hSum := sum_update s.resumers waiter (s.resumers waiter + 1)
      rw [hMore]
      omega
  have hLess := sum_update (weight ∘ s.phase) call (weight phase)
  rw [← Function.comp_update, ← hPhase] at hLess
  simp only [Function.comp_apply] at hLess
  rw [rank, rank]
  omega

theorem rank_resume [Fintype Call] (hResumers : 0 < s.resumers call) : (s.resume call).rank < s.rank := by
  have hSum := sum_update s.resumers call (s.resumers call - 1)
  have hPhases : ∑ other, weight ((s.resume call).phase other) ≤ ∑ other, weight (s.phase other) := by
    refine Finset.sum_le_sum fun other _ => ?_
    rw [TaskSequencer.resume]
    split
    · by_cases hEq : other = call <;> simp [weight, *]
    · rfl
  have hNow : (s.resume call).resumers = Function.update s.resumers call (s.resumers call - 1) := by
    rw [TaskSequencer.resume]
    split <;> rfl
  rw [rank, rank, hNow]
  omega

theorem rank_turn [Fintype Call] (turn : Turn Call) (s : TaskSequencer Call) :
    TaskSequencer.turn turn s = s ∨ (TaskSequencer.turn turn s).rank < s.rank := by
  cases turn <;> rw [TaskSequencer.turn] <;> split
  case continueWith.isTrue call hPhase =>
    right
    rw [TaskSequencer.continueWith]
    split
    · exact rank_lt rfl (by simp [weight, hPhase]) (.inl rfl)
    · exact rank_lt rfl (by simp [weight, hPhase]) (.inr ⟨call, rfl⟩)
  case complete.isTrue call hPhase =>
    right
    rw [TaskSequencer.complete]
    split
    · exact rank_lt rfl (by simp [weight, hPhase]) (.inl rfl)
    · exact rank_lt rfl (by simp [weight, hPhase]) (.inr ⟨_, rfl⟩)
    · exact rank_lt rfl (by simp [weight, hPhase]) (.inl rfl)
  case resume.isTrue hResumers => exact .inr (rank_resume hResumers)
  any_goals exact .inl rfl
  all_goals exact .inr (rank_lt rfl (by simp [weight, *]) (.inl rfl))

/-- Where no turn changes anything, a call waits or is completed. -/
theorem phase_of_settled (hSettled : ∀ turn, TaskSequencer.turn turn s = s) (call : Call) :
    s.resumers call = 0 ∧ (s.phase call = .chained ∨ s.phase call = .completed) := by
  have hPhases : ∀ turn, (TaskSequencer.turn turn s).phase call = s.phase call := fun turn => by
    rw [hSettled turn]
  constructor
  · have hResume := congrArg (fun t => t.resumers call) (hSettled (.resume call))
    simp only [TaskSequencer.turn, TaskSequencer.resume] at hResume
    split at hResume
    · split at hResume <;> simp at hResume <;> omega
    · omega
  · cases hPhase : s.phase call with
    | chained => exact .inl rfl
    | completed => exact .inr rfl
    | absent => simpa [TaskSequencer.turn, hPhase] using hPhases (.queueTaskAsync call)
    | suspended => simpa [TaskSequencer.turn, TaskSequencer.swap, hPhase] using hPhases (.swap call)
    | swapped =>
      have hSame := hPhases (.continueWith call)
      rw [TaskSequencer.turn, if_pos hPhase, TaskSequencer.continueWith] at hSame
      split at hSame <;> simp [hPhase] at hSame
    | resumed => simpa [TaskSequencer.turn, hPhase] using hPhases (.start call)
    | running => simpa [TaskSequencer.turn, hPhase] using hPhases (.finish call)
    | finished =>
      have hSame := hPhases (.complete call)
      rw [TaskSequencer.turn, if_pos hPhase, TaskSequencer.complete] at hSame
      split at hSame <;> simp [hPhase] at hSame

theorem Linked.completed_of_settled (h : s.Linked) (hSettled : ∀ turn, TaskSequencer.turn turn s = s)
    (call : Call) : call ∈ s.queued ∧ s.phase call = .completed := by
  have hQueued : ∀ call, call ∈ s.queued := fun call => h.mem_queued fun hOther => by
    rcases (phase_of_settled hSettled call).2 with hPhase | hPhase <;> simp [hPhase] at hOther
  have hAll : ∀ {first last calls}, Chained s.node first calls last → s.done first = true →
      ∀ call ∈ calls, s.phase call = .completed := by
    intro first last calls hChained hFirst
    induction calls generalizing first with
    | nil => simp
    | cons call calls ih =>
      have hCall : s.phase call = .completed := by
        obtain ⟨hResumers, hPhase | hPhase⟩ := phase_of_settled hSettled call
        · cases h.link call (hQueued call) with
          | waiting _ _ before => simp [hChained.1, hFirst] at before
          | swapped phase | begun phase => simp [hPhase] at phase
          | handed _ resumers => omega
        · exact hPhase
      exact List.forall_mem_cons.mpr ⟨hCall, ih hChained.2 (by simp [done, hCall])⟩
  exact ⟨hQueued call, hAll h.chained rfl call (hQueued call)⟩

end Steps

variable [DecidableEq Call]

/-- Each task starts after the one queued before it has finished, in the order of the swaps, and where
everybody gets turns again and again each one runs. -/
theorem tasks_in_turn (schedule : ℕ → Turn Call) :
    (∀ turns, (afterTurns turn schedule initial turns).InTurn) ∧
      (Finite Call → Fair (fun _ => True) schedule → ∃ turns,
        (∀ call, call ∈ (afterTurns turn schedule initial turns).queued) ∧
        (afterTurns turn schedule initial turns).log =
          (afterTurns turn schedule initial turns).queued.flatMap ranTask) := by
  have hLinked : ∀ turns, (afterTurns turn schedule initial turns).Linked :=
    afterTurns_keeps Linked.initial fun turn _ h => h.turn turn
  refine ⟨fun turns => (hLinked turns).inTurn, fun hFinite hFair => ?_⟩
  have := Fintype.ofFinite Call
  obtain ⟨turns, hSettled⟩ := hFair.settles rank rank_turn initial
  have hDone := (hLinked turns).completed_of_settled fun turn => hSettled turn trivial
  refine ⟨turns, fun call => (hDone call).1, (hLinked turns).log.trans ?_⟩
  exact List.flatMap_congr fun call _ => by simp [record, ranTask, (hDone call).2]

def secondFirst (turns : ℕ) : Turn Bool :=
  [.queueTaskAsync true, .queueTaskAsync false, .swap true, .swap false, .continueWith false,
    .complete true, .continueWith true, .resume true, .start true, .finish true, .resume false,
    .start false, .finish false, .complete false].getD (turns % 14) (.swap true)

theorem tasks_in_turn_second_first : ∃ turns,
    (∀ call, call ∈ (afterTurns turn secondFirst initial turns).queued) ∧
      (afterTurns turn secondFirst initial turns).log =
        (afterTurns turn secondFirst initial turns).queued.flatMap ranTask := by
  have hListed : ∀ turn, ∃ index, index < 14 ∧ secondFirst index = turn := by
    intro turn
    cases turn <;> rename_i call <;> revert call <;> decide
  refine (tasks_in_turn secondFirst).2 inferInstance fun turn _ turns => ?_
  obtain ⟨index, hIndex, rfl⟩ := hListed turn
  obtain ⟨later, hLater, hEq⟩ := fair_mod 14 index hIndex turns
  refine ⟨later, hLater, ?_⟩
  have hMod : later % 14 = index := hEq
  rw [secondFirst, hMod, secondFirst, Nat.mod_eq_of_lt hIndex]

end TaskSequencer
end Networking
