import ReactNativeWindows.PlatformOverride.QueuedCalls

/-! The working tree that the calls on a `GitReactFileRepository` find. -/
namespace PlatformOverride.GitReactFileRepository

open Concurrency

universe u

section Isolated
variable {Tree : Type u} (workspace : Workspace Tree)

/-- The working tree is that of the version, and so is what the repository knows. -/
structure Heap.IsAt (h : Heap Tree) (version : Version) : Prop where
  checkedOut : h.checkedOutVersion = some version
  head : h.head = some version
  tree : h.tree = workspace.treeOf version

def Heap.Clean (h : Heap Tree) : Prop :=
  ∀ version, h.checkedOutVersion = some version → h.IsAt workspace version

def Frame.Fits (h : Heap Tree) : Frame → Prop
  | enqueue _ => True
  | pumpQueue _ | checkoutVersion _ | tryCheckoutLocal _ | fetchFullRef _ | fetch _
  | settle _ _ => h.Clean workspace
  | checkoutBranch call => h.Clean workspace ∧ h.fetchHead = some call.version
  | checkoutForce call => h.branches call.version = some call.version
  | fn call | write call => h.IsAt workspace call.version
  | diff call _ | apply call _ | readPatched call _ _ | reset call _ =>
    h.checkedOutVersion = some call.version ∧ h.head = some call.version

def Heap.Named (h : Heap Tree) : Prop :=
  ∀ version commit, h.branches version = some commit → commit = version

structure Isolated (h : Heap Tree) (F : Multiset Frame) : Prop where
  named : h.Named
  fits : ∀ frame ∈ F, frame.Fits workspace h
  clean : h.batchingQueue.currentKey = none → h.Clean workspace

/-- A step that does not leave the tree of one version to the next call: neither the last command
of `fetchAndCheckout` fails, after which the branch is checked out already, nor `reset`. -/
def Restores {Tree : Type u} (_ : Heap Tree) (frame : Frame) (_ : Multiset Frame) : Prop :=
  match frame with
  | .checkoutForce call => call.failure .checkoutForce = none
  | .reset call _ => call.failure .reset = none
  | _ => True

instance (h : Heap Tree) (frame : Frame) (F : Multiset Frame) :
    Decidable (Restores h frame F) := by
  unfold Restores
  split <;> infer_instance

variable {workspace} {h h' : Heap Tree} {F : Multiset Frame} {frame : Frame} {call : Call}
  {calls forks : List Frame}

theorem fits_of_not_worker (h : Heap Tree) (hFrame : frame.isWorker = false) :
    frame.Fits workspace h := by
  cases frame
  case enqueue => trivial
  all_goals cases hFrame

theorem Heap.IsAt.clean {version : Version} (hAt : h.IsAt workspace version) :
    h.Clean workspace := by
  intro other hOther
  rw [hAt.checkedOut] at hOther
  cases hOther
  exact hAt

theorem isAt_forceCheckout (hNamed : h.Named) {commit : Version}
    (hCommit : h.branches call.version = some commit) :
    (forceCheckout workspace h call commit).IsAt workspace call.version := by
  have hSame : commit = call.version := hNamed _ _ hCommit
  exact ⟨rfl, congrArg some hSame, congrArg workspace.treeOf hSame⟩

/-- A step of an action leaves behind what the rest of it relies on. -/
theorem exec_fits (hFrame : frame.call? = some call) (hNamed : h.Named)
    (hFits : frame.Fits workspace h) (hRestores : Restores h frame F)
    (hExec : exec workspace h frame () = some (.next h' calls forks)) :
    h'.Named ∧ ∀ next ∈ calls, next.Fits workspace h' := by
  cases frame
  case enqueue | pumpQueue => cases hFrame
  all_goals
    cases hFrame
    simp only [exec] at hExec
  case checkoutVersion =>
    split at hExec
    · rename_i hCheckedOut
      cases hExec
      exact ⟨hNamed, List.forall_mem_singleton.mpr (hFits _ hCheckedOut)⟩
    · cases hExec
      exact ⟨hNamed, List.forall_mem_singleton.mpr hFits⟩
  case tryCheckoutLocal =>
    split at hExec
    · rename_i commit _ hCommit
      cases hExec
      exact ⟨hNamed, List.forall_mem_singleton.mpr (isAt_forceCheckout hNamed hCommit)⟩
    · cases hExec
      exact ⟨hNamed, List.forall_mem_singleton.mpr hFits⟩
  case fetchFullRef =>
    split at hExec <;> cases hExec <;> exact ⟨hNamed, List.forall_mem_singleton.mpr hFits⟩
  case fetch =>
    split at hExec
    · cases hExec
      exact ⟨hNamed, List.forall_mem_singleton.mpr hFits⟩
    · cases hExec
      have hClean : Heap.Clean workspace { h with fetchHead := some call.version } :=
        fun version hVersion =>
          ⟨hVersion, (hFits version hVersion).head, (hFits version hVersion).tree⟩
      exact ⟨hNamed, List.forall_mem_singleton.mpr ⟨hClean, rfl⟩⟩
  case checkoutBranch =>
    split at hExec
    case h_4 =>
      rename_i commit _ _ hFetchHead
      have hCommit : commit = call.version := Option.some.inj (hFetchHead.symm.trans hFits.2)
      split at hExec
      · cases hExec
        exact ⟨hNamed, List.forall_mem_singleton.mpr hFits.1⟩
      · cases hExec
        constructor
        · intro version other hBranch
          change Function.update h.branches call.version (some commit) version = some other at hBranch
          by_cases hSame : version = call.version
          · subst hSame
            rw [Function.update_self] at hBranch
            exact (Option.some.inj hBranch).symm.trans hCommit
          · rw [Function.update_of_ne hSame] at hBranch
            exact hNamed version other hBranch
        · have hNew : Function.update h.branches call.version (some commit) call.version =
              some call.version := by rw [Function.update_self, hCommit]
          exact List.forall_mem_singleton.mpr hNew
    all_goals
      cases hExec
      exact ⟨hNamed, List.forall_mem_singleton.mpr hFits.1⟩
  case checkoutForce =>
    have hBranch : h.branches call.version = some call.version := hFits
    have hSucceeds : call.failure .checkoutForce = none := hRestores
    rw [hBranch, hSucceeds] at hExec
    cases hExec
    exact ⟨hNamed, List.forall_mem_singleton.mpr (isAt_forceCheckout hNamed hBranch)⟩
  case fn =>
    have hAt : h.IsAt workspace call.version := hFits
    simp only [reads, ensureFile] at hExec
    repeat' split at hExec
    all_goals
      cases hExec
      first
        | exact ⟨hNamed, List.forall_mem_singleton.mpr hAt⟩
        | exact ⟨hNamed, List.forall_mem_singleton.mpr hAt.clean⟩
  case write =>
    have hAt : h.IsAt workspace call.version := hFits
    split at hExec <;> cases hExec <;>
      exact ⟨hNamed, List.forall_mem_singleton.mpr ⟨hAt.checkedOut, hAt.head⟩⟩
  case diff =>
    split at hExec <;> cases hExec <;> exact ⟨hNamed, List.forall_mem_singleton.mpr hFits⟩
  case apply =>
    repeat' split at hExec
    all_goals
      cases hExec
      exact ⟨hNamed, List.forall_mem_singleton.mpr hFits⟩
  case readPatched =>
    split at hExec <;> cases hExec <;> exact ⟨hNamed, List.forall_mem_singleton.mpr hFits⟩
  case reset =>
    have hSucceeds : call.failure .reset = none := hRestores
    obtain ⟨hCheckedOut, hHead⟩ := hFits
    rw [hSucceeds] at hExec
    cases hExec
    refine ⟨hNamed, List.forall_mem_singleton.mpr (Heap.IsAt.clean ⟨hCheckedOut, hHead, ?_⟩)⟩
    show (h.head.map workspace.treeOf).getD h.tree = _
    rw [hHead]
    rfl
  case settle =>
    cases hExec
    exact ⟨hNamed, List.forall_mem_singleton.mpr fun version hVersion =>
      ⟨hVersion, (hFits version hVersion).head, (hFits version hVersion).tree⟩⟩

namespace Isolated

theorem initial (branches : Version → Bool) (head : Option Version) (tree : Tree) :
    Isolated workspace (Heap.initial branches head tree) 0 where
  named version commit hBranch := by
    change (if branches version then some version else none) = some commit at hBranch
    split at hBranch
    · exact (Option.some.inj hBranch).symm
    · cases hBranch
  fits _ hMem := by cases hMem
  clean _ _ hCheckedOut := by cases hCheckedOut

/-- Frames rely on nothing that the queue or the history of the calls says. -/
theorem fits_congr (workspace : Workspace Tree) (h h' : Heap Tree) (hTree : h'.tree = h.tree)
    (hHead : h'.head = h.head) (hBranches : h'.branches = h.branches) (hFetchHead : h'.fetchHead = h.fetchHead)
    (hCheckedOut : h'.checkedOutVersion = h.checkedOutVersion) :
    (h'.Clean workspace ↔ h.Clean workspace) ∧
      ∀ frame : Frame, frame.Fits workspace h' ↔ frame.Fits workspace h := by
  have hAt : ∀ version, h'.IsAt workspace version ↔ h.IsAt workspace version := fun version =>
    ⟨fun hAt => ⟨hCheckedOut ▸ hAt.checkedOut, hHead ▸ hAt.head, hTree ▸ hAt.tree⟩,
      fun hAt => ⟨hCheckedOut ▸ hAt.checkedOut, hHead ▸ hAt.head, hTree ▸ hAt.tree⟩⟩
  have hClean : h'.Clean workspace ↔ h.Clean workspace := by
    simp only [Heap.Clean, hCheckedOut, hAt]
  refine ⟨hClean, fun frame => ?_⟩
  cases frame <;> simp only [Frame.Fits, hClean, hAt, hBranches, hFetchHead, hCheckedOut, hHead]

theorem step (hQueued : Queued h (frame ::ₘ F)) (hInv : Isolated workspace h (frame ::ₘ F))
    (hRestores : Restores h frame F)
    (hExec : exec workspace h frame () = some (.next h' calls forks)) :
    Isolated workspace h' (↑calls + (↑forks + F)) := by
  have hFits := hInv.fits frame (Multiset.mem_cons_self ..)
  have hFitsF : ∀ other ∈ F, other.Fits workspace h := fun other hMem =>
    hInv.fits other (Multiset.mem_cons_of_mem hMem)
  cases hCall : frame.call? with
  | some call =>
    have hWorker := Queued.isWorker_of_call hCall
    obtain ⟨hSome, -, hOthers⟩ := hQueued.alone hWorker
    obtain ⟨hNamed, hNext⟩ := exec_fits hCall hInv.named hFits hRestores hExec
    have hQueue : h'.batchingQueue = h.batchingQueue ∧ forks = [] := by
      by_cases hSettle : ∃ outcome, frame = .settle call outcome
      · obtain ⟨outcome, rfl⟩ := hSettle
        cases hExec
        exact ⟨rfl, rfl⟩
      · obtain ⟨-, -, hForks, -, -, hSame⟩ :=
          exec_call hCall (fun outcome hEq => hSettle ⟨outcome, hEq⟩) hExec
        exact ⟨hSame.1, hForks⟩
    obtain ⟨hQueue, rfl⟩ := hQueue
    refine ⟨hNamed, fun other hMem => ?_, fun hIdle => ?_⟩
    · rw [nil_frames] at hMem
      rcases Multiset.mem_add.mp hMem with hNew | hOld
      · exact hNext other hNew
      · exact fits_of_not_worker h' (hOthers other hOld)
    · rw [hQueue] at hIdle
      rw [hIdle] at hSome
      cases hSome
  | none =>
    cases frame
    case enqueue call =>
      simp only [GitReactFileRepository.exec] at hExec
      cases hExec
      obtain ⟨hClean, hSame⟩ := fits_congr workspace h { h with
          batchingQueue := (h.batchingQueue.enqueue truthy call.version call).1
          issued := h.issued ++ [call] } rfl rfl rfl rfl rfl
      obtain ⟨hPump, hCurrent⟩ := hQueued.enqueue_pump call
      refine ⟨hInv.named, fun other hMem => ?_, fun hIdle => ?_⟩
      · rw [nil_frames] at hMem
        rcases Multiset.mem_add.mp hMem with hNew | hOld
        · obtain ⟨key, hKey, rfl⟩ := Option.map_eq_some_iff.mp
            (Option.mem_toList.mp (Multiset.mem_coe.mp hNew))
          rw [hPump] at hKey
          split at hKey
          · cases hKey
          · rename_i hNone
            exact hClean.mpr (hInv.clean (Option.not_isSome_iff_eq_none.mp hNone))
        · exact (hSame other).mpr (hFitsF other hOld)
      · rw [hCurrent] at hIdle
        cases hIdle
    case pumpQueue key =>
      obtain ⟨-, -, hOthers⟩ := hQueued.alone rfl
      simp only [GitReactFileRepository.exec] at hExec
      split at hExec
      · rename_i call queue hShift
        cases hExec
        have hClean := (fits_congr workspace h
          { h with batchingQueue := queue, started := h.started ++ [call] }
          rfl rfl rfl rfl rfl).1.mpr hFits
        refine ⟨hInv.named, fun other hMem => ?_, fun _ => hClean⟩
        rw [nil_frames] at hMem
        rcases Multiset.mem_add.mp hMem with hNew | hOld
        · rw [List.mem_singleton.mp (Multiset.mem_coe.mp hNew)]
          exact hClean
        · exact fits_of_not_worker _ (hOthers other hOld)
      · cases hExec
        have hClean := (fits_congr workspace h
          { h with batchingQueue := h.batchingQueue.finish.1 } rfl rfl rfl rfl rfl).1.mpr hFits
        refine ⟨hInv.named, fun other hMem => ?_, fun _ => hClean⟩
        rw [nil_frames] at hMem
        rcases Multiset.mem_add.mp hMem with hNew | hOld
        · obtain ⟨next, -, rfl⟩ := Option.map_eq_some_iff.mp
            (Option.mem_toList.mp (Multiset.mem_coe.mp hNew))
          exact hClean
        · exact fits_of_not_worker _ (hOthers other hOld)
    all_goals cases hCall

end Isolated

end Isolated

end PlatformOverride.GitReactFileRepository
