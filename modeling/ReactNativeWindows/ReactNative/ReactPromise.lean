import ReactNativeWindows.Concurrency.Threads

/-! Promises that native modules settle. Copies of a `ReactPromise` share one
atomic state; any number of threads copies, settles and destroys them. -/
namespace ReactNative.ReactPromise
open Concurrency

universe u

inductive State where
  | Pending | Resolved | Rejected
  deriving DecidableEq

structure ReactError (V : Type u) where
  Code : String
  Message : String
  UserInfo : V

def ErrorDefaultCode : String := "EUNSPECIFIED"

def ErrorDefaultMessage : String := "Error not specified."

/-- The arguments of a callback, where `V` are the values that modules write.
`userInfo` is null where `none`. -/
inductive Args (V : Type u) where
  | resolved (value : V)
  | rejected (code message : String) (userInfo : Option V)
  deriving DecidableEq

/-- The members that settle a promise; both overloads of `Reject` that take
a text are `RejectText`. -/
inductive Call (V : Type u) where
  | Resolve (value : V)
  | Reject (error : ReactError V)
  | RejectText (errorMessage : String)

variable {V : Type u}

namespace Call

def newState : Call V → State
  | Resolve _ => .Resolved
  | Reject _ | RejectText _ => .Rejected

/-- What is written to `m_writer`. -/
def writes : Call V → Args V
  | Resolve value => .resolved value
  | Reject error => .rejected (if error.Code ≠ "" then error.Code else ErrorDefaultCode)
      (if error.Message ≠ "" then error.Message else ErrorDefaultMessage) (some error.UserInfo)
  | RejectText errorMessage => .rejected ErrorDefaultCode errorMessage none

end Call

/-- `live` counts the objects whose destructor has not been called, `made` are the
settling calls made by holders and destructors, `called` holds the arguments that
`m_resolve` or `m_reject` got. -/
structure Heap (V : Type u) where
  state : State
  useCount : Nat
  live : Nat
  made : List (Call V)
  called : List (Args V)

namespace Heap

def initial : Heap V := ⟨.Pending, 1, 1, [], []⟩

def makes (h : Heap V) (call : Call V) : Heap V := { h with made := h.made ++ [call] }

end Heap

inductive Frame (V : Type u) where
  | copy
  | settle (call : Call V)
  | exchange (call : Call V)
  | callback (call : Call V)
  | destroy
  | release

/-- How often a promise in a state calls back: never if `m_resolve` is empty. -/
def reports (m_resolve : Bool) : State → Nat
  | .Pending => 0
  | .Resolved => m_resolve.toNat
  | .Rejected => 1

/-- The test of the loop in `TrySetState`. -/
def attempt (h : Heap V) (call : Call V) : List (Frame V) :=
  if h.state = .Pending then [.exchange call] else []

/-- The choice is a spurious failure of `compare_exchange_weak`. -/
@[grind =]
def exec (m_resolve : Bool) (h : Heap V) :
    Frame V → Bool → Option (Outcome (Heap V) (Frame V) Empty)
  -- The members after `m_state` are copied.
  | .copy, _ => some (.next h [] [])
  | .settle call, _ => some (.next h (attempt h call) [])
  | .exchange call, spurious =>
    if h.state ≠ .Pending ∨ spurious then some (.next h (attempt h call) [])
    else some (.next { h with state := call.newState }
      (if reports m_resolve call.newState = 0 then [] else [.callback call]) [])
  | .callback call, _ => some (.next { h with called := h.called ++ [call.writes] } [] [])
  -- The destructor: the test of `use_count()`, and last the release of `m_state`.
  | .destroy, _ =>
    if h.useCount = 1 then
      some (.next (h.makes (.RejectText "Promise destroyed."))
        [.settle (.RejectText "Promise destroyed."), .release] [])
    else some (.next h [.release] [])
  | .release, _ => some (.next { h with useCount := h.useCount - 1 } [] [])

/-- What the holders of the objects do. An object may even be destroyed while a
call on it runs, which only adds runs. -/
def start (h : Heap V) : Frame V → Option (Heap V)
  | .copy => if 0 < h.live then some { h with live := h.live + 1, useCount := h.useCount + 1 } else none
  | .settle call => if 0 < h.live then some (h.makes call) else none
  | .destroy => if 0 < h.live then some { h with live := h.live - 1 } else none
  | _ => none

def machine (V : Type u) (m_resolve : Bool) :
    Machine (Heap V) (Frame V) Bool Empty where
  exec := exec m_resolve
  start := start

namespace Frame

/-- Destructors before their test of the count, and after it. -/
def tests : Frame V → Bool
  | destroy => true
  | _ => false

def releases : Frame V → Bool
  | release => true
  | _ => false

def calls : Frame V → Bool
  | callback _ => true
  | _ => false

/-- The call that the frame works for. -/
def settles : Frame V → Option (Call V)
  | settle call | exchange call | callback call => some call
  | _ => none

/-- Those through which a pending promise can still be settled. -/
def attends : Frame V → Bool
  | settle _ | exchange _ | destroy => true
  | _ => false

end Frame

/-- No destructor tests the count while another is between its test and its release. -/
def DestroysInTurn (_ : Heap V) (frame : Frame V)
    (F : Multiset (Frame V)) : Prop :=
  frame.tests = true → tally Frame.releases F = 0

instance (h : Heap V) (frame : Frame V) (F : Multiset (Frame V)) :
    Decidable (DestroysInTurn h frame F) :=
  inferInstanceAs (Decidable (_ → _))

structure Inv (m_resolve : Bool) (h : Heap V) (F : Multiset (Frame V)) : Prop where
  count : h.useCount = h.live + tally Frame.tests F + tally Frame.releases F
  fires : h.called.length + tally Frame.calls F = reports m_resolve h.state
  knows : ∀ call, .callback call ∈ F → call.newState = h.state
  logged : ∀ frame ∈ F, ∀ call ∈ frame.settles, call ∈ h.made
  called : ∀ args ∈ h.called, ∃ call ∈ h.made, call.writes = args ∧ call.newState = h.state

def Attended (h : Heap V) (F : Multiset (Frame V)) : Prop :=
  h.state = .Pending → 0 < h.live + tally Frame.attends F

section Steps
variable {m_resolve : Bool} {h h' : Heap V} {frame : Frame V}
  {F : Multiset (Frame V)}

theorem newState_ne_pending (call : Call V) : call.newState ≠ .Pending := by
  cases call <;> simp [Call.newState]

theorem reports_le (m_resolve : Bool) (state : State) : reports m_resolve state ≤ 1 := by
  cases state <;> simp [reports, Bool.toNat_le]

theorem code_ne_empty {call : Call V} {code message : String} {userInfo : Option V}
    (h : call.writes = .rejected code message userInfo) : code ≠ "" := by
  cases call with
  | Resolve value => cases h
  | Reject error =>
    simp only [Call.writes, Args.rejected.injEq] at h
    rw [← h.1]
    split
    · assumption
    · decide
  | RejectText errorMessage =>
    cases h
    decide

theorem start_cases (hStart : start h frame = some h') :
    0 < h.live ∧ h'.state = h.state ∧ h'.called = h.called ∧ h'.made = h.made ++ frame.settles.toList ∧
      frame.calls = false ∧
      h'.useCount + h.live =
        h.useCount + h'.live + frame.tests.toNat + frame.releases.toNat ∧
      h.live ≤ h'.live + frame.attends.toNat := by
  cases frame with
  | copy | settle call | destroy =>
    simp only [start, Option.ite_none_right_eq_some, Option.some.injEq] at hStart
    obtain ⟨hLive, rfl⟩ := hStart
    simp only [Heap.makes, Frame.settles, Frame.calls, Frame.tests, Frame.releases, Frame.attends,
      Option.toList, List.append_nil, Bool.toNat_true, Bool.toNat_false, true_and]
    omega
  | exchange call | callback call | release => cases hStart

theorem Inv.start (hInv : Inv m_resolve h F) (hStart : start h frame = some h') :
    Inv m_resolve h' (frame ::ₘ F) := by
  obtain ⟨-, hState, hCalled, hMade, hCalls, hCount, -⟩ := start_cases hStart
  refine ⟨?_, ?_, fun call hMem => ?_, fun other hMem call hCall => ?_, fun args hMem => ?_⟩
  · have := hInv.count
    rw [tally_cons, tally_cons]
    omega
  · rw [tally_cons_neg hCalls, hState, hCalled, hInv.fires]
  · rw [hState]
    rcases Multiset.mem_cons.mp hMem with rfl | hMem
    · cases hCalls
    · exact hInv.knows call hMem
  · rw [hMade]
    rcases Multiset.mem_cons.mp hMem with rfl | hMem
    · exact List.mem_append_right _ (Option.mem_toList.mpr hCall)
    · exact List.mem_append_left _ (hInv.logged other hMem call hCall)
  · rw [hCalled] at hMem
    obtain ⟨call, hCall, hWrites⟩ := hInv.called args hMem
    rw [hMade, hState]
    exact ⟨call, List.mem_append_left _ hCall, hWrites⟩

theorem Inv.makes (hInv : Inv m_resolve h F) (call : Call V) : Inv m_resolve (h.makes call) F := by
  refine ⟨hInv.count, hInv.fires, hInv.knows, fun frame hMem other hOther => ?_, fun args hMem => ?_⟩
  · exact List.mem_append_left _ (hInv.logged frame hMem other hOther)
  · obtain ⟨other, hOther, hWrites⟩ := hInv.called args hMem
    exact ⟨other, List.mem_append_left _ hOther, hWrites⟩

/-- A step that neither settles nor calls back. -/
theorem Inv.quietly (hInv : Inv m_resolve h (frame ::ₘ F)) {calls : List (Frame V)}
    (hCalls : ∀ next ∈ frame :: calls, next.calls = false)
    (hSettles : ∀ next ∈ calls, ∀ call ∈ next.settles, call ∈ h.made)
    (hCount : tally Frame.tests ((calls : Multiset _) + F) +
        tally Frame.releases ((calls : Multiset _) + F) =
      tally Frame.tests (frame ::ₘ F) + tally Frame.releases (frame ::ₘ F)) :
    Inv m_resolve h (↑calls + F) := by
  have hNext : ∀ next ∈ calls, next.calls = false := fun next hMem =>
    hCalls next (List.mem_cons_of_mem _ hMem)
  refine ⟨?_, ?_, fun call hMem => ?_, fun next hMem call hCall => ?_, hInv.called⟩
  · rw [hInv.count, Nat.add_assoc, Nat.add_assoc, hCount]
  · rw [tally_calls_neg hNext, ← hInv.fires, tally_cons_neg (hCalls frame List.mem_cons_self)]
  · rcases Multiset.mem_add.mp hMem with hMem | hMem
    · cases hNext _ (Multiset.mem_coe.mp hMem)
    · exact hInv.knows call (Multiset.mem_cons_of_mem hMem)
  · rcases Multiset.mem_add.mp hMem with hMem | hMem
    · exact hSettles next (Multiset.mem_coe.mp hMem) call hCall
    · exact hInv.logged next (Multiset.mem_cons_of_mem hMem) call hCall

theorem Inv.attempt (hInv : Inv m_resolve h (frame ::ₘ F)) (hCalls : frame.calls = false)
    (hTests : frame.tests = false) (hReleases : frame.releases = false) {call : Call V}
    (hSettles : frame.settles = some call) : Inv m_resolve h (↑(attempt h call) + F) := by
  have hNext (next : Frame V) (hMem : next ∈ ReactPromise.attempt h call) : next = .exchange call := by
    obtain ⟨-, rfl⟩ : h.state = .Pending ∧ next = .exchange call := by
      simpa [ReactPromise.attempt] using hMem
    rfl
  refine hInv.quietly (fun next hMem => ?_) (fun next hMem other hOther => ?_) ?_
  · rcases List.mem_cons.mp hMem with rfl | hMem
    · exact hCalls
    · rw [hNext next hMem]
      rfl
  · obtain rfl := hNext next hMem
    obtain rfl := Option.some.inj hOther
    exact hInv.logged frame (Multiset.mem_cons_self ..) call hSettles
  · rw [tally_cons_neg hTests, tally_cons_neg hReleases, ReactPromise.attempt]
    split <;> simp [tally_cons, Frame.tests, Frame.releases]

/-- The one exchange that succeeds. Nobody was called before it. -/
theorem Inv.exchanged {call : Call V} (hInv : Inv m_resolve h (.exchange call ::ₘ F))
    (hPending : h.state = .Pending) :
    Inv m_resolve { h with state := call.newState }
      (↑(if reports m_resolve call.newState = 0 then [] else [Frame.callback call]) + F) := by
  have hCount := hInv.count
  have hFires := hInv.fires
  rw [tally_cons_neg rfl, tally_cons_neg rfl] at hCount
  rw [hPending, tally_cons_neg rfl] at hFires
  obtain ⟨hCalled, hNone⟩ := Nat.add_eq_zero_iff.mp hFires
  have hEmpty := List.length_eq_zero_iff.mp hCalled
  have hOthers : ∀ other, Frame.callback other ∉ F := by
    intro other hMem
    have := tally_pos (p := Frame.calls) hMem rfl
    omega
  have hLogged (next : Frame V) (hMem : next ∈ F) (other : Call V) (hOther : other ∈ next.settles) :
      other ∈ h.made := hInv.logged next (Multiset.mem_cons_of_mem hMem) other hOther
  split
  · rename_i hZero
    rw [nil_frames]
    exact ⟨hCount, by rw [hCalled, hNone, hZero], fun other hMem => absurd hMem (hOthers other), hLogged,
      by simp [hEmpty]⟩
  · have hOne := reports_le m_resolve call.newState
    rw [cons_frames, nil_frames]
    refine ⟨?_, ?_, fun other hMem => ?_, fun next hMem other hOther => ?_, by simp [hEmpty]⟩
    · rw [tally_cons_neg rfl, tally_cons_neg rfl]
      exact hCount
    · rw [tally_cons_pos rfl, hCalled, hNone]
      dsimp only
      omega
    · rcases Multiset.mem_cons.mp hMem with hSame | hMem
      · cases hSame
        rfl
      · exact absurd hMem (hOthers other)
    · rcases Multiset.mem_cons.mp hMem with rfl | hMem
      · exact hInv.logged (.exchange call) (Multiset.mem_cons_self ..) other hOther
      · exact hLogged next hMem other hOther

theorem Inv.exec (hInv : Inv m_resolve h (frame ::ₘ F)) {choice : Bool}
    {calls forks : List (Frame V)}
    (hExec : exec m_resolve h frame choice = some (.next h' calls forks)) :
    Inv m_resolve h' (↑calls + (↑forks + F)) := by
  have hFires := hInv.fires
  have hCount := hInv.count
  cases frame with
  | copy =>
    cases hExec
    rw [nil_frames F]
    exact hInv.quietly (by simp [Frame.calls]) (by simp) (by simp [tally_cons, Frame.tests, Frame.releases])
  | settle call =>
    cases hExec
    rw [nil_frames]
    exact hInv.attempt rfl rfl rfl rfl
  | exchange call =>
    simp only [ReactPromise.exec] at hExec
    split at hExec <;> cases hExec <;> rw [nil_frames F]
    · exact hInv.attempt rfl rfl rfl rfl
    · rename_i hWins
      exact hInv.exchanged (not_not.mp fun hState => hWins (.inl hState))
  | callback call =>
    cases hExec
    rw [tally_cons_neg rfl, tally_cons_neg rfl] at hCount
    rw [tally_cons_pos rfl] at hFires
    rw [nil_frames, nil_frames]
    refine ⟨hCount, ?_, fun other hMem => hInv.knows other (Multiset.mem_cons_of_mem hMem),
      fun next hMem => hInv.logged next (Multiset.mem_cons_of_mem hMem), ?_⟩
    · rw [← hFires, List.length_append, List.length_singleton]
      omega
    · intro args hMem
      rcases List.mem_append.mp hMem with hMem | hMem
      · exact hInv.called args hMem
      · obtain rfl := List.mem_singleton.mp hMem
        exact ⟨call, hInv.logged (.callback call) (Multiset.mem_cons_self ..) call rfl, rfl,
          hInv.knows call (Multiset.mem_cons_self ..)⟩
  | destroy =>
    simp only [ReactPromise.exec] at hExec
    split at hExec <;> cases hExec <;> rw [nil_frames F]
    · refine (hInv.makes _).quietly (by simp [Frame.calls]) ?_ ?_
      · simp [Frame.settles, Heap.makes]
      · simp [tally_cons, Frame.tests, Frame.releases]
        omega
    · refine hInv.quietly (by simp [Frame.calls]) (by simp [Frame.settles]) ?_
      simp [tally_cons, Frame.tests, Frame.releases]
      omega
  | release =>
    cases hExec
    rw [tally_cons_neg rfl, tally_cons_pos rfl] at hCount
    rw [tally_cons_neg rfl] at hFires
    rw [nil_frames, nil_frames]
    refine ⟨?_, hFires, fun other hMem => hInv.knows other (Multiset.mem_cons_of_mem hMem),
      fun next hMem => hInv.logged next (Multiset.mem_cons_of_mem hMem), hInv.called⟩
    simp only [hCount]
    omega

theorem attended_of_start (hStart : start h frame = some h') : Attended h' (frame ::ₘ F) := by
  intro hPending
  obtain ⟨hLive, -, -, -, -, -, hNext⟩ := start_cases hStart
  rw [tally_cons]
  omega

theorem Attended.exec (hAttended : Attended h (frame ::ₘ F)) (hInv : Inv m_resolve h (frame ::ₘ F))
    (hOk : DestroysInTurn h frame F) {choice : Bool} {calls forks : List (Frame V)}
    (hExec : exec m_resolve h frame choice = some (.next h' calls forks)) :
    Attended h' (↑calls + (↑forks + F)) := by
  intro hPending
  cases frame with
  | copy | release =>
    cases hExec
    have hBefore := hAttended hPending
    rw [tally_cons_neg rfl] at hBefore
    rwa [nil_frames, nil_frames]
  | settle call =>
    cases hExec
    rw [nil_frames, attempt, if_pos hPending, cons_frames, tally_cons_pos rfl]
    exact Nat.succ_pos _
  | exchange call =>
    simp only [ReactPromise.exec] at hExec
    split at hExec <;> cases hExec
    · rw [nil_frames, attempt, if_pos hPending, cons_frames, tally_cons_pos rfl]
      exact Nat.succ_pos _
    · exact absurd hPending (newState_ne_pending call)
  | callback call =>
    cases hExec
    exact absurd ((hInv.knows call (Multiset.mem_cons_self ..)).trans hPending)
      (newState_ne_pending call)
  | destroy =>
    simp only [ReactPromise.exec] at hExec
    split at hExec <;> cases hExec <;> rw [nil_frames F]
    · rw [cons_frames, tally_cons_pos rfl]
      exact Nat.succ_pos _
    · -- Nobody is past its test, so a count above one stands for others that attend.
      rename_i hOthers
      have hCount := hInv.count
      have hTests : tally Frame.tests F ≤ tally Frame.attends F :=
        tally_le_tally (fun frame => by cases frame <;> simp [Frame.tests, Frame.attends]) F
      have hReleases := hOk rfl
      rw [tally_cons_pos rfl, tally_cons_neg rfl] at hCount
      rw [cons_frames, nil_frames, tally_cons_neg rfl]
      omega

end Steps

theorem invariant (m_resolve : Bool)
    (ok : Heap V → Frame V → Multiset (Frame V) → Prop) :
    Machine.Invariant (machine V m_resolve) ok .initial (Inv m_resolve) where
  initial := ⟨rfl, rfl, by simp, by simp, by simp [Heap.initial]⟩
  start := Inv.start
  exec hInv _ hExec := hInv.exec hExec

theorem attended_invariant (m_resolve : Bool) :
    Machine.Invariant (machine V m_resolve)
      (fun h frame F => DestroysInTurn h frame F ∧ Inv m_resolve h (frame ::ₘ F)) .initial
      Attended where
  initial _ := Nat.one_pos
  start _ hStart := attended_of_start hStart
  exec hAttended hOk hExec := hAttended.exec hOk.2 hOk.1 hExec

variable {m_resolve : Bool}

/-- However the calls interleave, a promise calls back at most once, with what one of
the calls made writes, whose state the promise is left in; its code is never empty; and it
has called back once no call is in progress. -/
theorem callback_at_most_once {s : Config (Heap V) (Frame V) Empty}
    (hs : Machine.Reachable (machine V m_resolve) Always .initial s) :
    s.heap.called.length ≤ 1 ∧
    (∀ args ∈ s.heap.called, ∃ call ∈ s.heap.made,
      call.writes = args ∧ call.newState = s.heap.state) ∧
    (∀ code message userInfo, .rejected code message userInfo ∈ s.heap.called → code ≠ "") ∧
    (s.Quiet → s.heap.called.length = reports m_resolve s.heap.state) := by
  have hInv := (invariant m_resolve Always).reachable hs
  have hFires := hInv.fires
  refine ⟨?_, hInv.called, fun code message userInfo hMem => ?_, fun hQuiet => ?_⟩
  · have := reports_le m_resolve s.heap.state
    omega
  · obtain ⟨call, -, hWrites, -⟩ := hInv.called _ hMem
    exact code_ne_empty hWrites
  · rwa [Machine.Config.quiet_frames hQuiet, tally_zero] at hFires

/-- A copy is rejected while the other one resolves. -/
theorem resolved_calls_back :
    ∃ s : Config (Heap Nat) (Frame Nat) Empty, s.heap.called.length = 1 := by
  obtain ⟨s, hs, hQuiet, hState⟩ := Machine.exists_reachable
    (fun s : Config (Heap Nat) (Frame Nat) Empty => s.Quiet ∧ s.heap.state = .Resolved)
    [.call .copy, .run 0 true, .call (.settle (.Resolve 7)), .call (.settle (.RejectText "")),
      .run 2 true, .run 1 true, .run 1 true, .run 1 false, .run 2 false, .run 1 true]
    (by decide : (Option.any _ ((machine Nat true).runSchedule Always (.initial .initial) _)) = true)
  exact ⟨s, by rw [(callback_at_most_once hs).2.2.2 hQuiet, hState, reports, Bool.toNat_true]⟩

/-- Destructors that take turns never lose a promise: when its last object is
gone it has been settled, by a call or by the destructor. -/
theorem settled_at_last {s : Config (Heap V) (Frame V) Empty}
    (hs : Machine.Reachable (machine V m_resolve) DestroysInTurn .initial s)
    (hQuiet : s.Quiet) (hGone : s.heap.live = 0) :
    s.heap.state ≠ .Pending ∧ s.heap.called.length = reports m_resolve s.heap.state ∧
      s.heap.useCount = 0 := by
  obtain ⟨hInv, hAttended⟩ :=
    ((invariant m_resolve DestroysInTurn).and (attended_invariant m_resolve)).reachable hs
  have hFires := hInv.fires
  have hCount := hInv.count
  simp only [Machine.Config.quiet_frames hQuiet, tally_zero, hGone, Attended] at hFires hCount hAttended
  exact ⟨fun hPending => absurd (hAttended hPending) (Nat.lt_irrefl 0), hFires, hCount⟩

theorem destroyed_rejects :
    ∃ s : Config (Heap Nat) (Frame Nat) Empty,
      s.heap.called = [.rejected "EUNSPECIFIED" "Promise destroyed." none] ∧ s.heap.useCount = 0 := by
  obtain ⟨s, hs, hQuiet, hGone, hCalled⟩ := Machine.exists_reachable
    (fun s : Config (Heap Nat) (Frame Nat) Empty => s.Quiet ∧ s.heap.live = 0 ∧
      s.heap.called = [.rejected "EUNSPECIFIED" "Promise destroyed." none])
    [.call .copy, .run 0 true, .call .destroy, .call .destroy, .run 1 true, .run 1 true, .run 2 true,
      .run 2 true, .run 2 false, .run 2 true, .run 2 true]
    (by decide :
      (Option.any _ ((machine Nat true).runSchedule DestroysInTurn (.initial .initial) _)) = true)
  exact ⟨s, hCalled, (settled_at_last hs hQuiet hGone).2.2⟩

/-- Two destructors that both find the other's reference leave the promise pending. -/
theorem overlapping_destructors_forget :
    ∃ s : Config (Heap Nat) (Frame Nat) Empty,
      Machine.Reachable (machine Nat true) Always .initial s ∧
        s.heap.useCount = 0 ∧ s.heap.state = .Pending :=
  Machine.exists_reachable _
    [.call .copy, .call .destroy, .call .destroy, .run 1 true, .run 2 true, .run 1 true, .run 2 true]
    (by decide)

end ReactNative.ReactPromise
