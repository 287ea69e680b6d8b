import ReactNativeWindows.PlatformOverride.IsolatedCalls

/-! What the calls on a `GitReactFileRepository` are settled with: the outcome of the action of a call, as
if it were alone on the tree of its version, or an error of its own checkout. -/
namespace PlatformOverride.GitReactFileRepository

open Concurrency

universe u

section Action
variable {Tree : Type u} (workspace : Workspace Tree)

namespace Call
variable (call : Call) (tree : Tree) (filename : String)

def command (command : Command) : Except String Unit :=
  match call.failure command with
  | some message => .error message
  | none => .ok ()

def reads (result : Result) : Except String Result := do
  call.command .read
  return result

def ensureFile : Except String Unit := do
  call.command .stat
  match workspace.stat tree filename with
  | .none => .error ("Cannot find file \"" ++ filename ++ "\" in react-native@" ++ call.version)
  | .directory => .error ("\"" ++ filename ++ "\" refers to a directory")
  | .file => return ()

def diff (changed : Tree) : Except String Result := do
  call.command .diff
  return .patch (workspace.diff tree changed filename)

def readPatched (hasConflicts : Bool) : Except String Result :=
  call.reads (.patched (workspace.readFile tree filename) hasConflicts)

def catchConflicts (message : String) : Except String Result :=
  if includes message "with conflicts" then
    if includes message "Cannot merge binary files" then return .patched none true
    else call.readPatched workspace tree filename true
  else .error message

def apply (patchContent : String) : Except String Result :=
  match call.failure .apply with
  | some message => call.catchConflicts workspace tree filename message
  | none =>
    match workspace.apply tree patchContent with
    | (tree, none) => call.readPatched workspace tree filename false
    | (tree, some message) => call.catchConflicts workspace tree filename message

/-- What the tree is changed for. -/
def change : Except String Result := do
  call.command .writeFile
  match call.operation with
  | .generatePatch filename newContent =>
    call.diff workspace tree filename (workspace.writeFile tree filename newContent)
  | .getPatchedFile filename patchContent => call.apply workspace tree filename patchContent
  | _ => .error ""

/-- The `finally` block. -/
def restoring (outcome : Except String Result) : Except String Result := do
  call.command .reset
  outcome

def action : Except String Result :=
  match call.operation with
  | .listFiles globs => call.reads (.files (workspace.listFiles tree globs))
  | .readFile filename => call.reads (.content (workspace.readFile tree filename))
  | .stat filename => call.reads (.stat (workspace.stat tree filename))
  | .generatePatch filename _ | .getPatchedFile filename _ => do
    call.ensureFile workspace tree filename
    call.restoring (call.change workspace tree)

/-- The errors of the checkout of a call. -/
inductive CheckoutFails : String → Prop where
  | fetchFullRef {message : String} (h : call.failure .fetchFullRef = some message) :
    CheckoutFails message
  | fetch {message : String} (h : call.failure .fetch = some message) :
    CheckoutFails (fetchError workspace call message)
  | checkoutBranch {message : String} (h : call.failure .checkoutBranch = some message) :
    CheckoutFails (fetchError workspace call message)
  | branchExists (h : (call.failure .checkoutLocal).isSome = true) :
    CheckoutFails (fetchError workspace call
      ("fatal: a branch named '" ++ call.version ++ "' already exists"))
  | switch {head : Option Tree} {tree : Tree} {message : String}
    (h : workspace.switch head tree (workspace.treeOf call.version) = .error message) :
    CheckoutFails (fetchError workspace call message)

/-- The outcomes that are the call's own. -/
def Own (outcome : Except String Result) : Prop :=
  outcome = call.action workspace (workspace.treeOf call.version) ∨
    ∃ message, outcome = .error message ∧ call.CheckoutFails workspace message

end Call

/-- The outcome of what is left of an action. -/
def Frame.rest (h : Heap Tree) : Frame → Option (Except String Result)
  | fn call => some (call.action workspace h.tree)
  | write call => some (call.restoring (call.change workspace h.tree))
  | diff call filename => some (call.restoring
    (call.diff workspace ((h.head.map workspace.treeOf).getD h.tree) filename h.tree))
  | apply call filename => some (call.restoring (call.apply workspace h.tree filename h.scratch))
  | readPatched call filename hasConflicts =>
    some (call.restoring (call.readPatched workspace h.tree filename hasConflicts))
  | reset call outcome => some (call.restoring outcome)
  | settle _ outcome => some outcome
  | _ => none

/-- A branch that is there already was not checked out because this failed. -/
def Frame.Owns (h : Heap Tree) : Frame → Prop
  | fetchFullRef call | fetch call | checkoutBranch call =>
    (h.branches call.version).isSome = true → (call.failure .checkoutLocal).isSome = true
  | frame => ∀ call outcome, frame.call? = some call → frame.rest workspace h = some outcome →
    call.Own workspace outcome

structure Settling (h : Heap Tree) (F : Multiset Frame) : Prop where
  owns : ∀ frame ∈ F, frame.Owns workspace h
  settled : ∀ entry ∈ h.settled, entry.1.Own workspace entry.2

variable {workspace} {h h' : Heap Tree} {F : Multiset Frame} {frame : Frame} {call : Call}
  {calls forks : List Frame} {outcome : Except String Result}

theorem Call.command_none {command : Command} (h : call.failure command = none) :
    call.command command = .ok () := by rw [Call.command, h]

theorem Call.command_some {command : Command} {message : String}
    (h : call.failure command = some message) : call.command command = .error message := by
  rw [Call.command, h]

theorem owns_of_not_worker (h : Heap Tree) (hFrame : frame.isWorker = false) :
    frame.Owns workspace h := by
  cases frame
  case enqueue => exact fun _ _ hCall => nomatch hCall
  all_goals cases hFrame

theorem owns_fn (hAt : h.IsAt workspace call.version) : (Frame.fn call).Owns workspace h := by
  intro other outcome hCall hRest
  cases hCall
  cases hRest
  rw [hAt.tree]
  exact .inl rfl

theorem owns_settle (hOwn : call.Own workspace outcome) :
    (Frame.settle call outcome).Owns workspace h := by
  intro other result hCall hRest
  cases hCall
  cases hRest
  exact hOwn

theorem catchConflicts_rest {tree : Tree} {filename message : String}
    (hExec : (if includes message "with conflicts" then
        if includes message "Cannot merge binary files" then
          .next { h with tree := tree } [.reset call (.ok (.patched none true))] []
        else .next { h with tree := tree } [.readPatched call filename true] []
      else .next { h with tree := tree } [.reset call (.error message)] [] :
        Outcome (Heap Tree) Frame String) = .next h' calls forks) :
    ∃ next, calls = [next] ∧ next.call? = some call ∧ next.rest workspace h' =
      some (call.restoring (call.catchConflicts workspace tree filename message)) := by
  rw [Call.catchConflicts]
  split at hExec
  next hConflicts =>
    rw [if_pos hConflicts]
    split at hExec
    next hBinary =>
      cases hExec
      rw [if_pos hBinary]
      exact ⟨_, rfl, rfl, rfl⟩
    next hText =>
      cases hExec
      rw [if_neg hText]
      exact ⟨_, rfl, rfl, rfl⟩
  next hOther =>
    cases hExec
    rw [if_neg hOther]
    exact ⟨_, rfl, rfl, rfl⟩

/-- A step of an action leaves its outcome as it was. -/
theorem exec_rest (hCall : frame.call? = some call) (hFits : frame.Fits workspace h)
    (hRest : frame.rest workspace h = some outcome)
    (hSettle : ∀ other result, frame ≠ .settle other result)
    (hExec : exec workspace h frame () = some (.next h' calls forks)) :
    ∃ next, calls = [next] ∧ next.call? = some call ∧ next.rest workspace h' = some outcome := by
  cases frame
  case settle => exact absurd rfl (hSettle _ _)
  case enqueue | pumpQueue => cases hCall
  case checkoutVersion | tryCheckoutLocal | fetchFullRef | fetch | checkoutBranch | checkoutForce =>
    cases hRest
  all_goals
    cases hCall
    cases hRest
    simp only [exec] at hExec
  case fn =>
    have hAt : h.IsAt workspace call.version := hFits
    rw [Call.action]
    cases hOperation : call.operation
    all_goals simp only [hOperation] at hExec ⊢
    case listFiles | readFile | stat =>
      rw [GitReactFileRepository.reads] at hExec
      split at hExec
      next message hFails =>
        cases hExec
        refine ⟨_, rfl, rfl, ?_⟩
        rw [Call.reads, Call.command_some hFails]
        rfl
      next hReads =>
        cases hExec
        refine ⟨_, rfl, rfl, ?_⟩
        rw [Call.reads, Call.command_none hReads]
        rfl
    case generatePatch filename _ | getPatchedFile filename _ =>
      rw [GitReactFileRepository.ensureFile, hAt.checkedOut] at hExec
      rw [Call.ensureFile]
      split at hExec
      next message hFails =>
        cases hExec
        refine ⟨_, rfl, rfl, ?_⟩
        rw [Call.command_some hFails]
        rfl
      next hFound =>
        rw [Call.command_none hFound]
        cases hStat : workspace.stat h.tree filename
        all_goals
          simp only [hStat] at hExec ⊢
          cases hExec
          exact ⟨_, rfl, rfl, rfl⟩
  case write =>
    have hAt : h.IsAt workspace call.version := hFits
    rw [Call.change]
    split at hExec
    next message _ hFails =>
      cases hExec
      refine ⟨_, rfl, rfl, ?_⟩
      rw [Call.command_some hFails]
      rfl
    next filename newContent hWritten hOperation =>
      cases hExec
      refine ⟨_, rfl, rfl, ?_⟩
      rw [Call.command_none hWritten, hOperation, Frame.rest, hAt.head, hAt.tree]
      rfl
    next filename patchContent hWritten hOperation =>
      cases hExec
      refine ⟨_, rfl, rfl, ?_⟩
      rw [Call.command_none hWritten, hOperation]
      rfl
    next hWritten hPatch hPatched =>
      cases hExec
      refine ⟨_, rfl, rfl, ?_⟩
      rw [Call.command_none hWritten]
      split
      next hOperation => exact absurd hOperation (hPatch _ _)
      next hOperation => exact absurd hOperation (hPatched _ _)
      next => rfl
  case diff =>
    rw [Call.diff]
    split at hExec
    next message _ hFails =>
      cases hExec
      refine ⟨_, rfl, rfl, ?_⟩
      rw [Call.command_some hFails]
      rfl
    next hDiff =>
      cases hExec
      refine ⟨_, rfl, rfl, ?_⟩
      rw [Call.command_none hDiff]
      rfl
  case apply =>
    rw [Call.apply]
    cases hFails : call.failure .apply with
    | some message =>
      simp only [hFails] at hExec ⊢
      exact catchConflicts_rest (Option.some.inj hExec)
    | none =>
      simp only [hFails] at hExec ⊢
      generalize workspace.apply h.tree h.scratch = applied at hExec ⊢
      obtain ⟨tree, error⟩ := applied
      cases error with
      | none =>
        cases hExec
        exact ⟨_, rfl, rfl, rfl⟩
      | some message => exact catchConflicts_rest (Option.some.inj hExec)
  case readPatched =>
    rw [Call.readPatched, Call.reads]
    split at hExec
    next message hFails =>
      cases hExec
      refine ⟨_, rfl, rfl, ?_⟩
      rw [Call.command_some hFails]
      rfl
    next hRead =>
      cases hExec
      refine ⟨_, rfl, rfl, ?_⟩
      rw [Call.command_none hRead]
      rfl
  case reset =>
    rw [Call.restoring]
    split at hExec
    next message hFails =>
      cases hExec
      refine ⟨_, rfl, rfl, ?_⟩
      rw [Call.command_some hFails]
      rfl
    next hReset =>
      cases hExec
      refine ⟨_, rfl, rfl, ?_⟩
      rw [Call.command_none hReset]
      rfl

/-- The checkout of a call. -/
theorem checkout_owns (hCall : frame.call? = some call) (hRest : frame.rest workspace h = none)
    (hFits : frame.Fits workspace h) (hOwns : frame.Owns workspace h)
    (hNext : ∀ next ∈ calls, next.Fits workspace h') (hRestores : Restores h frame F)
    (hExec : exec workspace h frame () = some (.next h' calls forks)) :
    ∀ next ∈ calls, next.Owns workspace h' := by
  cases frame
  case enqueue | pumpQueue => cases hCall
  case fn | write | diff | apply | readPatched | reset | settle => cases hRest
  all_goals
    cases hCall
    simp only [exec] at hExec
  case checkoutVersion =>
    split at hExec
    · cases hExec
      exact List.forall_mem_singleton.mpr (owns_fn (hNext _ List.mem_cons_self))
    · cases hExec
      exact List.forall_mem_singleton.mpr fun _ _ _ hNone => by cases hNone
  case tryCheckoutLocal =>
    split at hExec
    · cases hExec
      exact List.forall_mem_singleton.mpr (owns_fn (hNext _ List.mem_cons_self))
    · rename_i hLocal
      cases hExec
      refine List.forall_mem_singleton.mpr fun hBranch => ?_
      obtain ⟨commit, hCommit⟩ := Option.isSome_iff_exists.mp hBranch
      rw [Option.isSome_iff_ne_none]
      exact fun hNone => hLocal commit hNone hCommit
  case fetchFullRef =>
    split at hExec
    · rename_i message hFails
      cases hExec
      exact List.forall_mem_singleton.mpr
        (owns_settle (.inr ⟨message, rfl, .fetchFullRef hFails⟩))
    · cases hExec
      exact List.forall_mem_singleton.mpr hOwns
  case fetch =>
    split at hExec
    · rename_i message hFails
      cases hExec
      exact List.forall_mem_singleton.mpr (owns_settle (.inr ⟨_, rfl, .fetch hFails⟩))
    · cases hExec
      exact List.forall_mem_singleton.mpr hOwns
  case checkoutBranch =>
    split at hExec
    · rename_i message _ _ hFails
      cases hExec
      exact List.forall_mem_singleton.mpr (owns_settle (.inr ⟨_, rfl, .checkoutBranch hFails⟩))
    · rename_i hBranch
      cases hExec
      have hLocal : (call.failure .checkoutLocal).isSome = true :=
        hOwns (Option.isSome_iff_exists.mpr ⟨_, hBranch⟩)
      exact List.forall_mem_singleton.mpr (owns_settle (.inr ⟨_, rfl, .branchExists hLocal⟩))
    · rename_i hFetchHead
      cases hFetchHead.symm.trans hFits.2
    · rename_i hFetchHead
      cases hFetchHead.symm.trans hFits.2
      split at hExec
      · rename_i message hSwitch
        cases hExec
        exact List.forall_mem_singleton.mpr (owns_settle (.inr ⟨_, rfl, .switch hSwitch⟩))
      · cases hExec
        exact List.forall_mem_singleton.mpr fun _ _ _ hNone => by cases hNone
  case checkoutForce =>
    have hBranch : h.branches call.version = some call.version := hFits
    have hSucceeds : call.failure .checkoutForce = none := hRestores
    rw [hBranch, hSucceeds] at hExec
    cases hExec
    exact List.forall_mem_singleton.mpr (owns_fn (hNext _ List.mem_cons_self))

/-- The frames of an action rely on it that what it ends with is its own. -/
theorem exec_owns (hCall : frame.call? = some call) (hFits : frame.Fits workspace h)
    (hOwns : frame.Owns workspace h) (hNext : ∀ next ∈ calls, next.Fits workspace h')
    (hRestores : Restores h frame F) (hSettle : ∀ other result, frame ≠ .settle other result)
    (hExec : exec workspace h frame () = some (.next h' calls forks)) :
    ∀ next ∈ calls, next.Owns workspace h' := by
  cases hRest : frame.rest workspace h with
  | none => exact checkout_owns hCall hRest hFits hOwns hNext hRestores hExec
  | some outcome =>
    obtain ⟨next, rfl, hSame, hLater⟩ := exec_rest hCall hFits hRest hSettle hExec
    have hOwn : call.Own workspace outcome := by
      cases frame
      case fn | write | diff | apply | readPatched | reset | settle =>
        exact hOwns call outcome hCall hRest
      all_goals cases hRest
    rw [List.forall_mem_singleton]
    cases next
    case fetchFullRef | fetch | checkoutBranch => cases hLater
    all_goals
      intro other result hOther hResult
      cases hSame.symm.trans hOther
      cases hLater.symm.trans hResult
      exact hOwn

namespace Settling

theorem initial (branches : Version → Bool) (head : Option Version) (tree : Tree) :
    Settling workspace (Heap.initial branches head tree) 0 where
  owns _ hMem := by cases hMem
  settled _ hMem := by cases hMem

/-- Frames rely on nothing that the queue or the history of the calls says. -/
theorem owns_congr (h h' : Heap Tree) (hTree : h'.tree = h.tree) (hHead : h'.head = h.head)
    (hBranches : h'.branches = h.branches) (hScratch : h'.scratch = h.scratch) (frame : Frame) :
    frame.Owns workspace h' ↔ frame.Owns workspace h := by
  cases frame <;> simp only [Frame.Owns, Frame.rest, hTree, hHead, hBranches, hScratch]

theorem step (hQueued : Queued h (frame ::ₘ F)) (hIsolated : Isolated workspace h (frame ::ₘ F))
    (hInv : Settling workspace h (frame ::ₘ F)) (hRestores : Restores h frame F)
    (hExec : exec workspace h frame () = some (.next h' calls forks)) :
    Settling workspace h' (↑calls + (↑forks + F)) := by
  have hOwns := hInv.owns frame (Multiset.mem_cons_self ..)
  have hOwnsF : ∀ other ∈ F, other.Owns workspace h := fun other hMem =>
    hInv.owns other (Multiset.mem_cons_of_mem hMem)
  have hFits := hIsolated.fits frame (Multiset.mem_cons_self ..)
  cases hCall : frame.call? with
  | some call =>
    obtain ⟨-, -, hOthers⟩ := hQueued.alone (Queued.isWorker_of_call hCall)
    by_cases hSettle : ∃ other outcome, frame = .settle other outcome
    · obtain ⟨other, outcome, rfl⟩ := hSettle
      cases hExec
      constructor
      · intro next hMem
        rw [nil_frames] at hMem
        rcases Multiset.mem_add.mp hMem with hNew | hOld
        · rw [List.mem_singleton.mp (Multiset.mem_coe.mp hNew)]
          exact nofun
        · exact owns_of_not_worker _ (hOthers next hOld)
      · intro entry hMem
        rcases List.mem_append.mp hMem with hOld | hNew
        · exact hInv.settled entry hOld
        · rw [List.mem_singleton.mp hNew]
          exact hOwns other outcome rfl rfl
    · have hNotSettle : ∀ other outcome, frame ≠ .settle other outcome := fun other outcome hEq =>
        hSettle ⟨other, outcome, hEq⟩
      obtain ⟨-, -, hForks, -, -, hSame⟩ :=
        exec_call hCall (fun outcome hEq => hNotSettle call outcome hEq) hExec
      obtain ⟨-, hNext⟩ := exec_fits hCall hIsolated.named hFits hRestores hExec
      have hNextOwns := exec_owns hCall hFits hOwns hNext hRestores hNotSettle hExec
      constructor
      · intro next hMem
        rw [hForks, nil_frames] at hMem
        rcases Multiset.mem_add.mp hMem with hNew | hOld
        · exact hNextOwns next hNew
        · exact owns_of_not_worker _ (hOthers next hOld)
      · rw [hSame.2.2.2]
        exact hInv.settled
  | none =>
    cases frame
    case enqueue call =>
      simp only [GitReactFileRepository.exec] at hExec
      cases hExec
      refine ⟨fun next hMem => ?_, hInv.settled⟩
      rw [nil_frames] at hMem
      rcases Multiset.mem_add.mp hMem with hNew | hOld
      · obtain ⟨key, -, rfl⟩ := Option.map_eq_some_iff.mp
          (Option.mem_toList.mp (Multiset.mem_coe.mp hNew))
        exact nofun
      · exact (owns_congr _ _ rfl rfl rfl rfl next).mpr (hOwnsF next hOld)
    case pumpQueue key =>
      obtain ⟨-, -, hOthers⟩ := hQueued.alone rfl
      simp only [GitReactFileRepository.exec] at hExec
      split at hExec
      · cases hExec
        refine ⟨fun next hMem => ?_, hInv.settled⟩
        rw [nil_frames] at hMem
        rcases Multiset.mem_add.mp hMem with hNew | hOld
        · rw [List.mem_singleton.mp (Multiset.mem_coe.mp hNew)]
          exact nofun
        · exact owns_of_not_worker _ (hOthers next hOld)
      · cases hExec
        refine ⟨fun next hMem => ?_, hInv.settled⟩
        rw [nil_frames] at hMem
        rcases Multiset.mem_add.mp hMem with hNew | hOld
        · obtain ⟨next, -, rfl⟩ := Option.map_eq_some_iff.mp
            (Option.mem_toList.mp (Multiset.mem_coe.mp hNew))
          exact nofun
        · exact owns_of_not_worker _ (hOthers next hOld)
    all_goals cases hCall

end Settling

end Action

section Runs
variable {Tree : Type u} {workspace : Workspace Tree} {branches : Version → Bool}
  {head : Option Version} {tree : Tree} {t : Config (Heap Tree) Frame String}

theorem isolated_invariant :
    Machine.Invariant (repository workspace)
      (fun h frame F => Restores h frame F ∧ Queued h (frame ::ₘ F)) (.initial branches head tree)
      (Isolated workspace) where
  initial := Isolated.initial branches head tree
  start {h h' frame F} hInv hStart := by
    simp only [repository] at hStart
    split at hStart
    · split at hStart
      · cases hStart
      · rename_i call _
        cases hStart
        obtain ⟨hClean, hSame⟩ := Isolated.fits_congr workspace h
          { h with used := call.id :: h.used } rfl rfl rfl rfl rfl
        refine ⟨hInv.named, fun other hMem => ?_, fun hIdle => hClean.mpr (hInv.clean hIdle)⟩
        rcases Multiset.mem_cons.mp hMem with rfl | hOld
        · trivial
        · exact (hSame other).mpr (hInv.fits other hOld)
    · cases hStart
  exec hInv hOk hExec := hInv.step hOk.2 hOk.1 hExec

theorem settling_invariant :
    Machine.Invariant (repository workspace)
      (fun h frame F => Restores h frame F ∧ Queued h (frame ::ₘ F) ∧
        Isolated workspace h (frame ::ₘ F)) (.initial branches head tree)
      (Settling workspace) where
  initial := Settling.initial branches head tree
  start {h h' frame F} hInv hStart := by
    simp only [repository] at hStart
    split at hStart
    · split at hStart
      · cases hStart
      · rename_i call _
        cases hStart
        refine ⟨fun other hMem => ?_, hInv.settled⟩
        rcases Multiset.mem_cons.mp hMem with rfl | hOld
        · exact fun _ _ hNone => by cases hNone
        · exact (Settling.owns_congr h _ rfl rfl rfl rfl other).mpr (hInv.owns other hOld)
    · cases hStart
  exec hInv hOk hExec := hInv.step hOk.2.1 hOk.2.2 hOk.1 hExec

/-- Nothing is queued or in progress, and everything was started and settled. -/
theorem Queued.quiet {h : Heap Tree} (hQueued : Queued h 0) (key : Version) :
    h.issued.filter (fun call => call.version = key) =
      (h.settled.map Prod.fst).filter fun call => call.version = key := by
  have hIdle : h.batchingQueue.currentKey = none := by
    have hToken := hQueued.token
    split at hToken
    · cases hToken
    · rename_i hNone
      exact Option.not_isSome_iff_eq_none.mp hNone
  have hStarted := hQueued.rest fun _ hMem => by cases hMem
  rw [hQueued.order key, hQueued.idle hIdle key, List.append_nil, hStarted]

theorem isolated
    (ht : Machine.Reachable (repository workspace) Restores (.initial branches head tree) t) :
    tally Frame.isWorker t.frames ≤ 1 ∧
      (∀ key, t.heap.issued.filter (fun call => call.version = key) =
        t.heap.started.filter (fun call => call.version = key) ++
          t.heap.batchingQueue.queueOf key) ∧
      (t.heap.started = t.heap.settled.map Prod.fst ∨
        ∃ call, t.heap.started = t.heap.settled.map Prod.fst ++ [call]) ∧
      (∀ call, .fn call ∈ t.frames ∨ .write call ∈ t.frames →
        t.heap.tree = workspace.treeOf call.version) ∧
      (∀ call outcome, (call, outcome) ∈ t.heap.settled → call.Own workspace outcome) ∧
      Control.Inevitably (repository workspace).Runs (fun u => u.Quiet ∧ ∀ key,
        u.heap.issued.filter (fun call => call.version = key) =
          (u.heap.settled.map Prod.fst).filter fun call => call.version = key) t := by
  have hQueuedInvariant : Machine.Invariant (repository workspace) Restores
      (.initial branches head tree) Queued := queued_invariant
  obtain ⟨⟨hQueued, hIsolated⟩, hSettling⟩ :=
    ((hQueuedInvariant.and isolated_invariant).and settling_invariant).reachable ht
  have hCrashed : t.crashed = none := Option.eq_none_iff_forall_ne_some.mpr fun why hWhy =>
    hQueuedInvariant.crash (P := fun _ => False)
      (fun hQueued _ hExec => progress.crash hQueued trivial hExec) ht why hWhy
  refine ⟨?_, hQueued.order, ?_, ?_, fun call outcome => hSettling.settled (call, outcome), ?_⟩
  · rw [hQueued.token]
    split <;> decide
  · by_cases hRunning : ∃ frame ∈ t.frames, ∃ call, frame.call? = some call
    · obtain ⟨frame, hMem, call, hCall⟩ := hRunning
      exact .inr ⟨call, hQueued.running frame hMem call hCall⟩
    · refine .inl (hQueued.rest fun frame hMem => ?_)
      exact Option.eq_none_iff_forall_ne_some.mpr fun call hCall =>
        hRunning ⟨frame, hMem, call, hCall⟩
  · rintro call (hMem | hMem)
    all_goals
      have hAt : t.heap.IsAt workspace call.version := hIsolated.fits _ hMem
      exact hAt.tree
  · exact (progress.quiet hCrashed hQueued).mono fun u hQuiet =>
      ⟨hQuiet.1, fun key => hQuiet.2.quiet key⟩

/-- Whatever commands fail, one call at a time works on the repository, the calls for a version are
started in their order, and all of them are settled in the end. -/
theorem serialized
    (ht : Machine.Reachable (repository workspace) Always (.initial branches head tree) t) :
    tally Frame.isWorker t.frames ≤ 1 ∧
      (∀ key, t.heap.issued.filter (fun call => call.version = key) =
        t.heap.started.filter (fun call => call.version = key) ++
          t.heap.batchingQueue.queueOf key) ∧
      Control.Inevitably (repository workspace).Runs (fun u => u.Quiet ∧ ∀ key,
        u.heap.issued.filter (fun call => call.version = key) =
          (u.heap.settled.map Prod.fst).filter fun call => call.version = key) t := by
  have hInvariant : Machine.Invariant (repository workspace) Always (.initial branches head tree)
      Queued := queued_invariant
  have hQueued := hInvariant.reachable ht
  have hCrashed : t.crashed = none := Option.eq_none_iff_forall_ne_some.mpr fun why hWhy =>
    hInvariant.crash (P := fun _ => False)
      (fun hQueued _ hExec => progress.crash hQueued trivial hExec) ht why hWhy
  refine ⟨?_, hQueued.order, (progress.quiet hCrashed hQueued).mono fun u hQuiet =>
    ⟨hQuiet.1, fun key => hQuiet.2.quiet key⟩⟩
  rw [hQueued.token]
  split <;> decide

end Runs

/-- Trees that are named after their versions, and consist of one file with that name. -/
def named : Workspace Version where
  treeOf version := version
  fullRef version := "refs/tags/v" ++ version
  listFiles tree _ := [tree]
  readFile tree _ := some (tree.toList.map fun c => c.toNat.toUInt8)
  stat _ _ := .file
  writeFile _ filename _ := filename
  switch _ _ target := .ok target
  diff _ tree _ := tree
  apply tree _ := (tree, none)

def listFiles (id : ℕ) (version : Version) (failure : Command → Option String) : Call :=
  ⟨id, version, .listFiles none, failure⟩

/-- Two versions, one after the other. -/
theorem two_versions : ∃ t : Config (Heap Version) Frame String,
    t.heap.settled.map (fun entry => (entry.1.id, entry.2.toOption)) =
        [(1, some (.files ["1"])), (2, some (.files ["2"]))] ∧
      tally Frame.isWorker t.frames ≤ 1 := by
  obtain ⟨t, ht, hSettled⟩ : ∃ t : Config (Heap Version) Frame String,
      Machine.Reachable (repository named) Restores (.initial (fun _ => false) none "") t ∧
        t.heap.settled.map (fun entry => (entry.1.id, entry.2.toOption)) =
          [(1, some (.files ["1"])), (2, some (.files ["2"]))] :=
    Machine.exists_reachable _
      ([.call (.enqueue (listFiles 1 "1" fun _ => none)),
          .call (.enqueue (listFiles 2 "2" fun _ => none)), .run 0 (), .run 1 ()] ++
        List.replicate 20 (.run 0 ()))
      (by decide)
  exact ⟨t, hSettled, (isolated ht).1⟩

theorem failed_call_serialized : ∃ t : Config (Heap Version) Frame String,
    t.heap.settled.length = 1 ∧ tally Frame.isWorker t.frames ≤ 1 := by
  obtain ⟨t, ht, hSettled⟩ : ∃ t : Config (Heap Version) Frame String,
      Machine.Reachable (repository named) Always (.initial (fun _ => false) none "") t ∧
        t.heap.settled.length = 1 :=
    Machine.exists_reachable _
      (.call (.enqueue (listFiles 1 "1" fun _ => some "")) :: List.replicate 6 (.run 0 ()))
      (by decide)
  exact ⟨t, hSettled, (serialized ht).1⟩

/-- The last command of the checkout of version 2 fails: version 1 counts as checked out still,
and the next call for it lists the files of version 2. -/
theorem wrong_tree_after_failed_checkout : ∃ t : Config (Heap Version) Frame String,
    Machine.Reachable (repository named) Always (.initial (fun _ => false) none "") t ∧ t.Quiet ∧
      t.heap.settled.map (fun entry => (entry.1.id, entry.1.version, entry.2.toOption)) =
        [(1, "1", some (.files ["1"])), (2, "2", none), (3, "1", some (.files ["2"]))] :=
  Machine.exists_reachable _
    ([.call (.enqueue (listFiles 1 "1" fun _ => none)),
        .call (.enqueue (listFiles 2 "2" fun command =>
          if command = .checkoutForce then some "fatal: Unable to create index.lock" else none)),
        .run 0 (), .run 1 ()] ++ List.replicate 19 (.run 0 ()) ++
      [.call (.enqueue (listFiles 3 "1" fun _ => none))] ++ List.replicate 6 (.run 2 ()))
    (by decide)

end PlatformOverride.GitReactFileRepository
