import ReactNativeWindows.Concurrency.Threads
import ReactNativeWindows.Control.Inevitably

/-! Machines whose frames neither wait for each other nor go on for ever. -/
namespace Concurrency.Machine

universe u v w x

variable {Heap : Type u} {Frame : Type v} {Choice : Type x} {Crash : Type w}
  {M : Machine Heap Frame Choice Crash} {Inv : Heap → Multiset Frame → Prop}
  {ok : Heap → Frame → Multiset Frame → Prop}

/-- A step of a thread, while no client starts a call. -/
def Runs (M : Machine Heap Frame Choice Crash) (s t : Config Heap Frame Crash) : Prop :=
  ∃ thread choice, M.step s (.run thread choice) = some t

/-- Every frame can be executed, and the frames that come in its place have a smaller rank. -/
structure Progress (M : Machine Heap Frame Choice Crash) (ok : Heap → Frame → Multiset Frame → Prop)
    (Inv : Heap → Multiset Frame → Prop) (rank : Heap → Multiset Frame → ℕ) : Prop where
  go : ∀ {h frame F}, Inv h (frame ::ₘ F) → ∃ choice, (M.exec h frame choice).isSome = true
  crash : ∀ {h frame F choice why}, Inv h (frame ::ₘ F) → ok h frame F →
    M.exec h frame choice ≠ some (.crash why)
  next : ∀ {h frame F choice h' calls forks}, Inv h (frame ::ₘ F) → ok h frame F →
    M.exec h frame choice = some (.next h' calls forks) →
      Inv h' (↑calls + (↑forks + F)) ∧ rank h' (↑calls + (↑forks + F)) < rank h (frame ::ₘ F)

/-- Some thread is at a step that is not allowed. -/
def Refused (ok : Heap → Frame → Multiset Frame → Prop) (s : Config Heap Frame Crash) : Prop :=
  ∃ i frame rest, s.threads[i]? = some (frame :: rest) ∧ ¬ok s.heap frame (s.threads.set i rest).flatten

/-- All that is in progress ends, in whatever order it is run, as long as the steps are allowed. -/
theorem Progress.quiet_or_refused {rank : Heap → Multiset Frame → ℕ} (hProgress : Progress M ok Inv rank)
    {s : Config Heap Frame Crash} (hCrashed : s.crashed = none) (hInv : Inv s.heap s.frames) :
    Control.Inevitably M.Runs (fun t => Refused ok t ∨ (t.Quiet ∧ Inv t.heap 0)) s := by
  apply Control.Inevitably.of_rank (fun s => rank s.heap s.frames)
    (I := fun s => s.crashed = none ∧ Inv s.heap s.frames) _ s ⟨hCrashed, hInv⟩
  rintro s ⟨hCrashed, hInv⟩
  by_cases hQuiet : s.Quiet
  · rw [Config.quiet_frames hQuiet] at hInv
    exact .inl (.inr ⟨hQuiet, hInv⟩)
  by_cases hRefused : Refused ok s
  · exact .inl (.inl hRefused)
  right
  constructor
  · simp only [Config.Quiet, not_forall] at hQuiet
    obtain ⟨thread, hMem, hThread⟩ := hQuiet
    obtain ⟨i, hi, hGet⟩ := List.mem_iff_getElem.mp hMem
    obtain ⟨frame, rest, rfl⟩ := List.exists_cons_of_ne_nil hThread
    have hTop : s.threads[i]? = some (frame :: rest) := by rw [List.getElem?_eq_getElem hi, hGet]
    have hFrames : Inv s.heap (frame ::ₘ ↑(s.threads.set i rest).flatten) := by
      rw [← (frames_resume hTop [] []).1]
      exact hInv
    obtain ⟨choice, hSome⟩ := hProgress.go hFrames
    obtain ⟨outcome, hExec⟩ := Option.isSome_iff_exists.mp hSome
    have hStep : (M.step s (.run i choice)).isSome = true := by
      simp [step, hCrashed, hTop, hExec]
    obtain ⟨t, ht⟩ := Option.isSome_iff_exists.mp hStep
    exact ⟨t, i, choice, ht⟩
  · have hAllowed : ∀ {i frame rest}, s.threads[i]? = some (frame :: rest) →
        ok s.heap frame (s.threads.set i rest).flatten :=
      fun hTop => by_contra fun hNot => hRefused ⟨_, _, _, hTop, hNot⟩
    rintro t ⟨i, choice, hStep⟩
    rcases step_cases hStep with ⟨i, choice, frame, rest, heap, calls, forks, -, hTop, hExec, -, rfl⟩ |
      ⟨i, choice, frame, rest, why, -, hTop, hExec, -, rfl⟩ | ⟨frame, heap, hMove, -⟩
    · obtain ⟨hBefore, hAfter⟩ := frames_resume hTop calls forks
      simp only [Config.frames, hBefore] at hInv ⊢
      obtain ⟨hNext, hRank⟩ := hProgress.next hInv (hAllowed hTop) hExec
      rw [hAfter]
      exact ⟨⟨trivial, hNext⟩, hRank⟩
    · simp only [Config.frames, (frames_resume hTop [] []).1] at hInv
      exact absurd hExec (hProgress.crash hInv (hAllowed hTop))
    · cases hMove

/-- Where all steps are allowed, all that is in progress ends. -/
theorem Progress.quiet {rank : Heap → Multiset Frame → ℕ} (hProgress : Progress M Always Inv rank)
    {s : Config Heap Frame Crash} (hCrashed : s.crashed = none) (hInv : Inv s.heap s.frames) :
    Control.Inevitably M.Runs (fun t => t.Quiet ∧ Inv t.heap 0) s := by
  apply (hProgress.quiet_or_refused hCrashed hInv).mono
  rintro t (⟨_, _, _, -, hNot⟩ | hQuiet)
  · exact absurd trivial hNot
  · exact hQuiet

end Concurrency.Machine
