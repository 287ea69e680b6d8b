import Mathlib.Algebra.BigOperators.Group.Multiset.Basic

/-! Threads over one shared heap. A thread is a stack of frames; one move
executes the top frame of one thread, or lets a client start a call on a new
thread. The scheduler is not restricted, so runs are all interleavings. -/
namespace Concurrency

universe u v w x

/-- What the top frame of a thread does: it is replaced by the frames `calls`,
and each frame of `forks` starts a thread of its own; or the process dies. -/
inductive Outcome (Heap : Type u) (Frame : Type v) (Crash : Type w) where
  | next (heap : Heap) (calls forks : List Frame)
  | crash (why : Crash)

/-- A program: the effect of a frame, where `Choice` resolves what the frame
leaves open (`none` is a blocked frame), and the calls that clients may start. -/
structure Machine (Heap : Type u) (Frame : Type v) (Choice : Type x) (Crash : Type w) where
  exec : Heap → Frame → Choice → Option (Outcome Heap Frame Crash)
  start : Heap → Frame → Option Heap

structure Config (Heap : Type u) (Frame : Type v) (Crash : Type w) where
  heap : Heap
  threads : List (List Frame)
  crashed : Option Crash

inductive Move (Frame : Type v) (Choice : Type x) where
  | run (thread : Nat) (choice : Choice)
  | call (frame : Frame)

variable {Heap : Type u} {Frame : Type v} {Choice : Type x} {Crash : Type w}

/-- All frames of all threads, with the stacking forgotten. -/
def Config.frames (s : Config Heap Frame Crash) : Multiset Frame :=
  (s.threads.flatten : Multiset Frame)

def Config.initial (heap : Heap) : Config Heap Frame Crash := ⟨heap, [], none⟩

def Config.Quiet (s : Config Heap Frame Crash) : Prop := ∀ thread ∈ s.threads, thread = []

instance (s : Config Heap Frame Crash) : Decidable s.Quiet :=
  inferInstanceAs (Decidable (∀ thread ∈ s.threads, thread = []))

/-- Resume thread `i` with `calls` above `rest`, and start the forked threads. -/
def resume (threads : List (List Frame)) (i : Nat) (calls rest : List Frame)
    (forks : List Frame) : List (List Frame) :=
  threads.set i (calls ++ rest) ++ forks.map fun frame => [frame]

namespace Machine
variable (M : Machine Heap Frame Choice Crash)

def step (s : Config Heap Frame Crash) :
    Move Frame Choice → Option (Config Heap Frame Crash)
  | .run i choice =>
    match s.crashed, s.threads[i]? with
    | none, some (frame :: rest) =>
      (M.exec s.heap frame choice).map fun
        | .next heap calls forks => ⟨heap, resume s.threads i calls rest forks, none⟩
        | .crash why => ⟨s.heap, s.threads, some why⟩
    | _, _ => none
  | .call frame =>
    match s.crashed with
    | none => (M.start s.heap frame).map fun heap => ⟨heap, s.threads ++ [[frame]], none⟩
    | some _ => none

/-- `ok heap frame others` is asked of every executed frame: `others` are the
frames of the other threads and those below it on its own. -/
def Allowed (ok : Heap → Frame → Multiset Frame → Prop) (s : Config Heap Frame Crash) :
    Move Frame Choice → Prop
  | .run i _ =>
    match s.threads[i]? with
    | some (frame :: rest) => ok s.heap frame (s.threads.set i rest).flatten
    | _ => True
  | .call _ => True

instance (ok : Heap → Frame → Multiset Frame → Prop)
    [∀ heap frame F, Decidable (ok heap frame F)] (s : Config Heap Frame Crash)
    (move : Move Frame Choice) : Decidable (Allowed ok s move) :=
  match move with
  | .call _ => isTrue trivial
  | .run i _ =>
    match h : s.threads[i]? with
    | some (frame :: rest) =>
      decidable_of_iff (ok s.heap frame (s.threads.set i rest).flatten) (by simp [Allowed, h])
    | some [] => isTrue (by simp [Allowed, h])
    | none => isTrue (by simp [Allowed, h])

def runSchedule (ok : Heap → Frame → Multiset Frame → Prop)
    [∀ heap frame F, Decidable (ok heap frame F)] (s : Config Heap Frame Crash) :
    List (Move Frame Choice) → Option (Config Heap Frame Crash)
  | [] => some s
  | move :: moves =>
    if Allowed ok s move then (M.step s move).bind fun t => runSchedule ok t moves else none

inductive Reachable (ok : Heap → Frame → Multiset Frame → Prop) (heap : Heap) :
    Config Heap Frame Crash → Prop where
  | initial : Reachable ok heap (Config.initial heap)
  | step {s t : Config Heap Frame Crash} (move : Move Frame Choice)
      (prior : Reachable ok heap s) (allowed : Allowed ok s move)
      (last : M.step s move = some t) : Reachable ok heap t

end Machine

def Always : Heap → Frame → Multiset Frame → Prop := fun _ _ _ => True

instance (heap : Heap) (frame : Frame) (F : Multiset Frame) : Decidable (Always heap frame F) :=
  isTrue trivial

variable {threads : List (List Frame)}

private theorem flatten_set_of_getElem? {i : Nat} {thread : List Frame}
    (h : threads[i]? = some thread) (changed : List Frame) :
    ∃ others : List Frame, (threads.flatten : Multiset Frame) = ↑(thread ++ others) ∧
      ((threads.set i changed).flatten : Multiset Frame) = ↑(changed ++ others) := by
  obtain ⟨hi, rfl⟩ := List.getElem?_eq_some_iff.mp h
  refine ⟨(threads.take i).flatten ++ (threads.drop (i + 1)).flatten, ?_, ?_⟩
  · rw [Multiset.coe_eq_coe]
    have hSplit : threads = threads.take i ++ threads[i] :: threads.drop (i + 1) := by simp
    conv_lhs => rw [hSplit, List.flatten_append, List.flatten_cons]
    exact List.perm_append_comm_assoc ..
  · rw [Multiset.coe_eq_coe, List.set_eq_take_append_cons_drop, if_pos hi,
      List.flatten_append, List.flatten_cons]
    exact List.perm_append_comm_assoc ..

private theorem flatten_forks (forks : List Frame) :
    (forks.map fun frame => [frame]).flatten = forks := by
  induction forks with
  | nil => rfl
  | cons frame forks ih => simp [ih]

variable {frame : Frame}

/-- The frames before and after a thread runs: only the executed one is gone. -/
theorem frames_resume {i : Nat} {rest : List Frame} (h : threads[i]? = some (frame :: rest))
    (calls forks : List Frame) :
    (threads.flatten : Multiset Frame) = frame ::ₘ ↑(threads.set i rest).flatten ∧
      ((resume threads i calls rest forks).flatten : Multiset Frame) =
        ↑calls + (↑forks + ↑(threads.set i rest).flatten) := by
  obtain ⟨others, hBefore, hRest⟩ := flatten_set_of_getElem? h rest
  obtain ⟨others', hBefore', hAfter⟩ := flatten_set_of_getElem? h (calls ++ rest)
  have hOthers : (others : Multiset Frame) = others' := by
    have hSame := hBefore.symm.trans hBefore'
    rwa [← Multiset.coe_add, ← Multiset.coe_add, add_right_inj] at hSame
  constructor
  · rw [hBefore, hRest]
    simp
  · rw [resume, List.flatten_append, flatten_forks, ← Multiset.coe_add, hAfter, hRest]
    simp only [← Multiset.coe_add, hOthers]
    rw [add_assoc, add_assoc, add_comm (forks : Multiset Frame), add_assoc]

/-- Frames pushed on those of the other threads, one at a time. -/
@[simp] theorem nil_frames (F : Multiset Frame) : (([] : List Frame) : Multiset Frame) + F = F :=
  zero_add F

@[simp] theorem cons_frames (frame : Frame) (calls : List Frame) (F : Multiset Frame) :
    ((frame :: calls : List Frame) : Multiset Frame) + F = frame ::ₘ (↑calls + F) := by
  rw [← Multiset.cons_coe, Multiset.cons_add]

/-- How many of the frames are at one of the program points `p`. -/
def tally (p : Frame → Bool) (F : Multiset Frame) : Nat := F.countP (p · = true)

@[simp] theorem tally_zero (p : Frame → Bool) : tally p 0 = 0 := rfl

theorem tally_cons (p : Frame → Bool) (frame : Frame) (F : Multiset Frame) :
    tally p (frame ::ₘ F) = tally p F + (p frame).toNat := by
  cases h : p frame <;> simp [tally, h]

theorem tally_singleton (p : Frame → Bool) (frame : Frame) :
    tally p {frame} = (p frame).toNat := by
  rw [← Multiset.cons_zero, tally_cons, tally_zero, Nat.zero_add]

variable {p : Frame → Bool}

theorem tally_cons_pos (h : p frame = true) (F : Multiset Frame) :
    tally p (frame ::ₘ F) = tally p F + 1 := by
  rw [tally_cons, h]
  rfl

theorem tally_cons_neg (h : p frame = false) (F : Multiset Frame) :
    tally p (frame ::ₘ F) = tally p F := by
  rw [tally_cons, h]
  rfl

theorem tally_add (p : Frame → Bool) (F G : Multiset Frame) :
    tally p (F + G) = tally p F + tally p G := Multiset.countP_add _ F G

variable {F : Multiset Frame}

theorem exists_of_tally_pos (h : 0 < tally p F) :
    ∃ frame ∈ F, p frame = true := Multiset.countP_pos.mp h

theorem tally_pos (hMem : frame ∈ F) (h : p frame = true) :
    0 < tally p F := Multiset.countP_pos.mpr ⟨frame, hMem, h⟩

theorem tally_pos_push (h : 0 < tally p F) (frame : Frame) : 0 < tally p (frame ::ₘ F) := by
  rw [tally_cons]
  omega

theorem tally_pos_replace {next : Frame} (hNext : p frame = true → p next = true)
    (h : 0 < tally p (frame ::ₘ F)) : 0 < tally p (next ::ₘ F) := by
  cases hOld : p frame with
  | true =>
    rw [tally_cons_pos (hNext hOld)]
    exact Nat.succ_pos _
  | false =>
    rw [tally_cons_neg hOld] at h
    exact tally_pos_push h next

variable {calls : List Frame}

theorem tally_calls_neg (h : ∀ frame ∈ calls, p frame = false) (F : Multiset Frame) :
    tally p (↑calls + F) = tally p F := by
  induction calls with
  | nil => simp
  | cons frame calls ih =>
    rw [cons_frames, tally_cons_neg (h frame List.mem_cons_self)]
    exact ih fun f hMem => h f (List.mem_cons_of_mem _ hMem)

theorem tally_calls_pos (h : ∀ frame ∈ calls, p frame = true) (F : Multiset Frame) :
    tally p (↑calls + F) = tally p F + calls.length := by
  induction calls with
  | nil => simp
  | cons frame calls ih =>
    rw [cons_frames, tally_cons_pos (h frame List.mem_cons_self),
      ih fun f hMem => h f (List.mem_cons_of_mem _ hMem), List.length_cons]
    omega

/-- Program points that are among others are not more. -/
theorem tally_le_tally {q : Frame → Bool} (h : ∀ frame, p frame = true → q frame = true)
    (F : Multiset Frame) : tally p F ≤ tally q F := by
  induction F using Multiset.induction with
  | empty => exact Nat.le_refl _
  | cons frame F ih =>
    rw [tally_cons, tally_cons]
    cases hp : p frame with
    | false => simpa using Nat.le_add_right_of_le ih
    | true => simpa [h frame hp] using ih

def total (weight : Frame → Nat) (F : Multiset Frame) : Nat := (F.map weight).sum

@[simp] theorem total_zero (weight : Frame → Nat) : total weight 0 = 0 := rfl

theorem total_cons (weight : Frame → Nat) (frame : Frame) (F : Multiset Frame) :
    total weight (frame ::ₘ F) = total weight F + weight frame := by
  rw [total, Multiset.map_cons, Multiset.sum_cons, Nat.add_comm]
  rfl

theorem total_singleton (weight : Frame → Nat) (frame : Frame) :
    total weight {frame} = weight frame := by
  rw [← Multiset.cons_zero, total_cons, total_zero, Nat.zero_add]

theorem total_add (weight : Frame → Nat) (F G : Multiset Frame) :
    total weight (F + G) = total weight F + total weight G := by
  rw [total, Multiset.map_add, Multiset.sum_add]
  rfl

variable {weight : Frame → Nat}

/-- What those of the frames hold that hold something. -/
def gather {α : Type w} (held : Frame → Option α) (F : Multiset Frame) : Multiset α :=
  F.filterMap held

section Gather
variable {α : Type w} {held : Frame → Option α} {frame : Frame}

@[simp] theorem gather_zero : gather held 0 = 0 := rfl

theorem gather_cons_none (h : held frame = none) (F : Multiset Frame) :
    gather held (frame ::ₘ F) = gather held F := Multiset.filterMap_cons_none _ _ h

theorem gather_cons_some {a : α} (h : held frame = some a) (F : Multiset Frame) :
    gather held (frame ::ₘ F) = a ::ₘ gather held F := Multiset.filterMap_cons_some _ _ _ h

theorem gather_cons_congr {next : Frame} (h : held next = held frame) (F : Multiset Frame) :
    gather held (next ::ₘ F) = gather held (frame ::ₘ F) := by
  rw [gather, gather, Multiset.filterMap_cons, Multiset.filterMap_cons, h]

theorem gather_calls_none {calls : List Frame} (h : ∀ frame ∈ calls, held frame = none)
    (F : Multiset Frame) : gather held (↑calls + F) = gather held F := by
  induction calls with
  | nil => simp
  | cons frame calls ih =>
    rw [cons_frames, gather_cons_none (h frame List.mem_cons_self)]
    exact ih fun f hMem => h f (List.mem_cons_of_mem _ hMem)

theorem gather_calls_map {call : α → Frame} (h : ∀ a, held (call a) = some a) (as : List α)
    (F : Multiset Frame) : gather held (↑(as.map call) + F) = ↑as + gather held F := by
  induction as with
  | nil => simp
  | cons a as ih =>
    rw [List.map_cons, cons_frames, gather_cons_some (h a), ih, ← Multiset.cons_coe,
      Multiset.cons_add]

theorem gather_eq_zero {p : Frame → Bool} {F : Multiset Frame} (hNone : tally p F = 0)
    (h : ∀ frame, p frame = false → held frame = none) : gather held F = 0 := by
  rw [Multiset.eq_zero_iff_forall_notMem]
  intro a hMem
  obtain ⟨frame, hFrame, hHeld⟩ := (Multiset.mem_filterMap _ _).mp hMem
  cases hp : p frame with
  | true =>
    have := tally_pos hFrame hp
    omega
  | false =>
    rw [h frame hp] at hHeld
    cases hHeld

end Gather

namespace Machine
variable {M : Machine Heap Frame Choice Crash}

variable {s : Config Heap Frame Crash} {move : Move Frame Choice}

/-- What one move can do, said once: run a frame, crash in it, or start a call. -/
theorem step_cases {t : Config Heap Frame Crash} (h : M.step s move = some t) :
    (∃ i choice frame rest heap calls forks, move = .run i choice ∧
      s.threads[i]? = some (frame :: rest) ∧
      M.exec s.heap frame choice = some (.next heap calls forks) ∧ s.crashed = none ∧
      t = ⟨heap, resume s.threads i calls rest forks, none⟩) ∨
    (∃ i choice frame rest why, move = .run i choice ∧
      s.threads[i]? = some (frame :: rest) ∧
      M.exec s.heap frame choice = some (.crash why) ∧ s.crashed = none ∧
      t = ⟨s.heap, s.threads, some why⟩) ∨
    (∃ frame heap, move = .call frame ∧ M.start s.heap frame = some heap ∧
      s.crashed = none ∧ t = ⟨heap, s.threads ++ [[frame]], none⟩) := by
  cases move with
  | call frame =>
    simp only [step] at h
    split at h
    · rename_i hc
      obtain ⟨heap, hStart, rfl⟩ := Option.map_eq_some_iff.mp h
      exact .inr (.inr ⟨frame, heap, rfl, hStart, hc, rfl⟩)
    · cases h
  | run i choice =>
    simp only [step] at h
    split at h
    · rename_i frame rest hc hi
      obtain ⟨outcome, hExec, rfl⟩ := Option.map_eq_some_iff.mp h
      cases outcome with
      | next heap calls forks =>
        exact .inl ⟨i, choice, frame, rest, heap, calls, forks, rfl, hi, hExec, hc, rfl⟩
      | crash why =>
        exact .inr (.inl ⟨i, choice, frame, rest, why, rfl, hi, hExec, hc, rfl⟩)
    · cases h

/-- An invariant of the heap and the frames in progress. Interference is
covered because `F` stands for the frames of all other threads. -/
structure Invariant (M : Machine Heap Frame Choice Crash)
    (ok : Heap → Frame → Multiset Frame → Prop) (heap : Heap)
    (Inv : Heap → Multiset Frame → Prop) : Prop where
  initial : Inv heap 0
  start : ∀ {h h' frame F}, Inv h F → M.start h frame = some h' → Inv h' (frame ::ₘ F)
  exec : ∀ {h frame F choice h' calls forks}, Inv h (frame ::ₘ F) → ok h frame F →
    M.exec h frame choice = some (.next h' calls forks) → Inv h' (↑calls + (↑forks + F))

variable {ok : Heap → Frame → Multiset Frame → Prop} {heap : Heap}
  {Inv : Heap → Multiset Frame → Prop}

theorem Invariant.reachable (hInv : Invariant M ok heap Inv) (hs : Reachable M ok heap s) :
    Inv s.heap s.frames := by
  induction hs with
  | initial => exact hInv.initial
  | @step s t move prior allowed last ih =>
    rcases step_cases last with ⟨i, choice, frame, rest, heap, calls, forks, rfl, hi, hExec, -, rfl⟩ |
      ⟨i, choice, frame, rest, why, rfl, hi, hExec, -, rfl⟩ |
      ⟨frame, heap, rfl, hStart, -, rfl⟩
    · obtain ⟨hBefore, hAfter⟩ := frames_resume hi calls forks
      simp only [Config.frames, hBefore] at ih
      simp only [Config.frames, hAfter]
      simp only [Allowed, hi] at allowed
      exact hInv.exec ih allowed hExec
    · exact ih
    · have hNext := hInv.start ih hStart
      rw [← Multiset.singleton_add, add_comm] at hNext
      simpa [Config.frames, ← Multiset.coe_add] using hNext

theorem Invariant.crash (hInv : Invariant M ok heap Inv) {P : Crash → Prop}
    (hCrash : ∀ {h frame F choice why}, Inv h (frame ::ₘ F) → ok h frame F →
      M.exec h frame choice = some (.crash why) → P why) (hs : Reachable M ok heap s) :
    ∀ why, s.crashed = some why → P why := by
  induction hs with
  | initial => simp [Config.initial]
  | @step s t move prior allowed last ih =>
    rcases step_cases last with ⟨i, choice, frame, rest, heap, calls, forks, rfl, hi, hExec, -, rfl⟩ |
      ⟨i, choice, frame, rest, why, rfl, hi, hExec, -, rfl⟩ |
      ⟨frame, heap, rfl, hStart, -, rfl⟩
    · simp
    · intro why' hWhy
      cases hWhy
      have hFrames := hInv.reachable prior
      simp only [Config.frames, (frames_resume hi [] []).1] at hFrames
      simp only [Allowed, hi] at allowed
      exact hCrash hFrames allowed hExec
    · simp

/-- What every step of an invariant state does to the heap, every move of a run does. -/
theorem Invariant.moves (hInv : Invariant M ok heap Inv) (R : Heap → Heap → Prop)
    (hRefl : ∀ h, R h h) (hStart : ∀ {h h' frame F}, Inv h F → M.start h frame = some h' → R h h')
    (hExec : ∀ {h frame F choice h' calls forks}, Inv h (frame ::ₘ F) →
      M.exec h frame choice = some (.next h' calls forks) → R h h') {t : Config Heap Frame Crash}
    (hs : Reachable M ok heap s) (hStep : M.step s move = some t) : R s.heap t.heap := by
  have hFrames := hInv.reachable hs
  rcases step_cases hStep with ⟨i, choice, frame, rest, heap, calls, forks, -, hi, hNext, -, rfl⟩ |
    ⟨i, choice, frame, rest, why, -, -, -, -, rfl⟩ | ⟨frame, heap, -, hCall, -, rfl⟩
  · simp only [Config.frames, (frames_resume hi calls forks).1] at hFrames
    exact hExec hFrames hNext
  · exact hRefl _
  · exact hStart hFrames hCall

/-- Two invariants of the same runs hold together. -/
theorem Invariant.and {Inv' : Heap → Multiset Frame → Prop}
    (h : Invariant M ok heap Inv)
    (h' : Invariant M (fun heap frame F => ok heap frame F ∧ Inv heap (frame ::ₘ F)) heap Inv') :
    Invariant M ok heap fun heap F => Inv heap F ∧ Inv' heap F where
  initial := ⟨h.initial, h'.initial⟩
  start hi hs := ⟨h.start hi.1 hs, h'.start hi.2 hs⟩
  exec hi hok he := ⟨h.exec hi.1 hok he, h'.exec hi.2 ⟨hok, hi.1⟩ he⟩

theorem Config.quiet_frames (h : s.Quiet) : s.frames = 0 := by
  simp only [Config.frames, Multiset.coe_eq_zero, List.flatten_eq_nil_iff]
  exact h

section Schedules
variable [∀ heap frame F, Decidable (ok heap frame F)]

/-- A schedule that runs to an end proves its last state reachable. -/
theorem Reachable.of_runSchedule {s t : Config Heap Frame Crash} (hs : Reachable M ok heap s)
    (moves : List (Move Frame Choice)) (h : M.runSchedule ok s moves = some t) :
    Reachable M ok heap t := by
  induction moves generalizing s with
  | nil =>
    cases h
    exact hs
  | cons move moves ih =>
    simp only [runSchedule] at h
    split at h
    · rename_i hAllowed
      obtain ⟨middle, hStep, hRest⟩ := Option.bind_eq_some_iff.mp h
      exact ih (.step move hs hAllowed hStep) hRest
    · cases h

/-- A property of the last state of a schedule holds in some reachable state. -/
theorem exists_reachable (P : Config Heap Frame Crash → Prop) [DecidablePred P]
    (moves : List (Move Frame Choice))
    (h : ((M.runSchedule ok (.initial heap) moves).any fun s => decide (P s)) = true) :
    ∃ s, Reachable M ok heap s ∧ P s := by
  obtain ⟨s, hRun, hP⟩ := (Option.any_eq_true ..).mp h
  exact ⟨s, .of_runSchedule .initial moves hRun, of_decide_eq_true hP⟩

end Schedules

end Machine
end Concurrency
