import Mathlib.Data.List.ReduceOption
import ReactNativeWindows.Control.Inevitably
import ReactNativeWindows.ReactHost.AsyncActionQueue

/-! Actions run one at a time, in the order in which they were posted. -/
namespace ReactHost.AsyncActionQueue

open Concurrency Concurrency.Machine

universe u

variable {Error : Type u} {h h' : Heap Error} {frame : Frame Error} {F : Multiset (Frame Error)}

/-- The part of the queue that a frame has: an action whose result is not delivered, or the start of
the next action. -/
def Frame.token : Frame Error → Option (Option ℕ)
  | then_ i | completeAction i _ => some (some i)
  | startNext => some none
  | _ => none

def Frame.result : Frame Error → Option (ℕ × Maybe Error)
  | completed i result _ | completeAction i result => some (i, result)
  | _ => none

def Frame.completes (i : ℕ) : Frame Error → Bool
  | completed j _ _ => i = j
  | _ => false

def tokens (h : Heap Error) (F : Multiset (Frame Error)) : Multiset (Option ℕ) :=
  gather Frame.token F + ↑(h.waiting.map some)

/-- The invariant of the queue: at most one action is in progress, and it is the last that was
started. -/
structure Inv (h : Heap Error) (F : Multiset (Frame Error)) : Prop where
  order : h.started ++ h.queue.m_actions = List.range h.posted
  idle : h.queue.m_isInvoking = false → h.queue.m_actions = []
  token : ∃ token : List (Option ℕ), tokens h F = ↑token ∧
    token.length = h.queue.m_isInvoking.toNat ∧
      h.delivered.map Prod.fst ++ token.reduceOption = h.started
  prior : ∀ i ∈ h.started, ∀ j < i, h.isCompleted j = true
  results : ∀ result ∈ h.results, result.1 ∈ h.started
  distinct : (h.results.map Prod.fst).Nodup
  delivered : ∀ result ∈ h.delivered, result ∈ h.results
  known : ∀ result ∈ gather Frame.result F, result ∈ h.results
  woken : ∀ i ∈ h.waiting, h.isCompleted i = true → 0 < tally (Frame.completes i) F

def Frame.isNeutral : Frame Error → Bool
  | postAction | postActions _ | action _ | continuation _ => true
  | _ => false

theorem Frame.neutral (hNeutral : frame.isNeutral = true) :
    frame.token = none ∧ frame.result = none ∧ ∀ i, frame.completes i = false := by
  cases frame <;> first
    | exact ⟨rfl, rfl, fun _ => rfl⟩
    | cases hNeutral

theorem inv_neutral (hNeutral : frame.isNeutral = true) : Inv h (frame ::ₘ F) ↔ Inv h F := by
  obtain ⟨hToken, hResult, hCompletes⟩ := Frame.neutral hNeutral
  have hTokens : tokens h (frame ::ₘ F) = tokens h F := by
    rw [tokens, gather_cons_none hToken, tokens]
  constructor
  · intro hInv
    refine { hInv with token := hTokens ▸ hInv.token, known := ?_, woken := fun i hMem hDone => ?_ }
    · rw [← gather_cons_none hResult]
      exact hInv.known
    · rw [← tally_cons_neg (hCompletes i)]
      exact hInv.woken i hMem hDone
  · intro hInv
    refine { hInv with token := hTokens.symm ▸ hInv.token, known := ?_, woken := ?_ }
    · rw [gather_cons_none hResult]
      exact hInv.known
    · exact fun i hMem hDone => tally_pos_push (hInv.woken i hMem hDone) frame

theorem Inv.alone (hInv : Inv h F) {x : Option ℕ} (hMem : x ∈ tokens h F) :
    tokens h F = {x} ∧ h.queue.m_isInvoking = true ∧
      h.delivered.map Prod.fst ++ x.toList = h.started := by
  obtain ⟨token, hTokens, hLength, hStarted⟩ := hInv.token
  rw [hTokens] at hMem ⊢
  cases token with
  | nil => cases hMem
  | cons y token =>
    have hLe := Bool.toNat_le h.queue.m_isInvoking
    rw [List.length_cons] at hLength
    have hNil : token = [] := by
      rw [← List.length_eq_zero_iff]
      omega
    subst hNil
    obtain rfl : x = y := List.mem_singleton.mp hMem
    refine ⟨rfl, ?_, ?_⟩
    · cases hInvoking : h.queue.m_isInvoking with
      | true => rfl
      | false =>
        rw [hInvoking] at hLength
        cases hLength
    · rw [← hStarted]
      cases x <;> rfl

theorem Inv.alone_frame (hInv : Inv h (frame ::ₘ F)) {x : Option ℕ} (hToken : frame.token = some x) :
    gather Frame.token F = 0 ∧ h.waiting = [] ∧ h.queue.m_isInvoking = true ∧
      h.delivered.map Prod.fst ++ x.toList = h.started := by
  have hCons : tokens h (frame ::ₘ F) = x ::ₘ tokens h F := by
    rw [tokens, gather_cons_some hToken, Multiset.cons_add, tokens]
  obtain ⟨hOne, hInvoking, hStarted⟩ := hInv.alone (hCons ▸ Multiset.mem_cons_self x _)
  rw [hCons, ← Multiset.cons_zero, Multiset.cons_inj_right, tokens,
    ← Multiset.card_eq_zero, Multiset.card_add, Nat.add_eq_zero_iff, Multiset.card_eq_zero,
    Multiset.card_eq_zero, Multiset.coe_eq_zero, List.map_eq_nil_iff] at hOne
  exact ⟨hOne.1, hOne.2, hInvoking, hStarted⟩

variable {i : ℕ}

theorem isCompleted_iff : h.isCompleted i = true ↔ ∃ result, (i, result) ∈ h.results := by
  rw [Heap.isCompleted, List.any_eq_true]
  constructor
  · rintro ⟨⟨j, result⟩, hMem, hSame⟩
    obtain rfl : j = i := of_decide_eq_true hSame
    exact ⟨result, hMem⟩
  · rintro ⟨result, hMem⟩
    exact ⟨(i, result), hMem, decide_eq_true rfl⟩

/-- All actions that were started have completed when their results are delivered. -/
theorem Inv.completed (hInv : Inv h F) (hDelivered : h.delivered.map Prod.fst = h.started)
    (hMem : i ∈ h.started) : h.isCompleted i = true := by
  rw [← hDelivered] at hMem
  obtain ⟨⟨j, result⟩, hResult, rfl⟩ := List.mem_map.mp hMem
  exact isCompleted_iff.mpr ⟨result, hInv.delivered _ hResult⟩

theorem prefix_range {xs : List ℕ} {n : ℕ} (h : xs <+: List.range n) : xs = List.range xs.length := by
  have hTake := List.prefix_iff_eq_take.mp h
  have hLength := h.length_le
  rw [List.length_range] at hLength
  rwa [List.take_range, Nat.min_eq_left hLength] at hTake

/-- An action that is started has the queue, and all before it have completed. -/
theorem Inv.starts {actions : List ℕ} {posted : ℕ} (hInv : Inv h F) (hNone : tokens h F = 0)
    (hDelivered : h.delivered.map Prod.fst = h.started)
    (hOrder : (h.started ++ [i]) ++ actions = List.range posted) :
    Inv { h with
        queue := { m_actions := actions, m_isInvoking := true }
        posted := posted
        started := h.started ++ [i] } (.then_ i ::ₘ F) := by
  have hRange : h.started = List.range h.started.length :=
    prefix_range ((List.prefix_append _ [i]).trans ⟨actions, hOrder⟩)
  have hMore : h.started ++ [i] = List.range (h.started.length + 1) := by
    have hAll := prefix_range ⟨actions, hOrder⟩
    rwa [List.length_append, List.length_singleton] at hAll
  constructor
  · exact hOrder
  · exact nofun
  · refine ⟨[some i], ?_, rfl, ?_⟩
    · rw [tokens] at hNone ⊢
      have hToken : (Frame.then_ i : Frame Error).token = some (some i) := rfl
      rw [gather_cons_some hToken, Multiset.cons_add, hNone]
      rfl
    · rw [hDelivered]
      rfl
  · intro j hMem k hLess
    simp only [hMore, List.mem_range] at hMem
    apply hInv.completed hDelivered
    rw [hRange, List.mem_range]
    omega
  · exact fun result hMem => List.mem_append_left _ (hInv.results result hMem)
  · exact hInv.distinct
  · exact hInv.delivered
  · rw [gather_cons_none rfl]
    exact hInv.known
  · exact fun j hMem hDone => tally_pos_push (hInv.woken j hMem hDone) _

theorem Inv.waits (hInv : Inv h F) (hInvoking : h.queue.m_isInvoking = true) :
    Inv { h with
        queue := { h.queue with m_actions := h.queue.m_actions ++ [h.posted] }
        posted := h.posted + 1 } F := by
  refine { hInv with order := ?_, idle := fun hNot => ?_ }
  · simp only [← List.append_assoc, hInv.order, List.range_succ]
  · simp only [hInvoking, Bool.true_eq_false] at hNot

variable {result : Maybe Error}

/-- The future of an action completes. -/
theorem Inv.completes (hInv : Inv h F) (hComplete : h.complete i result = some h') (inQueue : Bool) :
    Inv h' (.completed i result inQueue ::ₘ F) := by
  rw [Heap.complete] at hComplete
  split at hComplete
  · rename_i hNew
    obtain ⟨hStarted, hNot⟩ := hNew
    cases hComplete
    obtain ⟨order, idle, token, prior, results, distinct, delivered, known, woken⟩ := hInv
    have hMore : ∀ j, h.isCompleted j = true →
        ({ h with results := h.results ++ [(i, result)] } : Heap Error).isCompleted j = true := by
      intro j hDone
      rw [isCompleted_iff] at hDone ⊢
      obtain ⟨other, hMem⟩ := hDone
      exact ⟨other, List.mem_append_left _ hMem⟩
    constructor
    · exact order
    · exact idle
    · rwa [tokens, gather_cons_none rfl]
    · exact fun j hMem k hLess => hMore k (prior j hMem k hLess)
    · intro other hMem
      rcases List.mem_append.mp hMem with hMem | hMem
      · exact results other hMem
      · rw [List.mem_singleton.mp hMem]
        exact hStarted
    · rw [List.map_append, List.nodup_append_comm]
      refine List.nodup_cons.mpr ⟨fun hMem => ?_, distinct⟩
      obtain ⟨⟨j, other⟩, hOther, hSame⟩ := List.mem_map.mp hMem
      obtain rfl : j = i := hSame
      rw [isCompleted_iff.mpr ⟨other, hOther⟩] at hNot
      cases hNot
    · exact fun other hMem => List.mem_append_left _ (delivered other hMem)
    · have hResult : (Frame.completed i result inQueue).result = some (i, result) := rfl
      rw [gather_cons_some hResult]
      intro other hMem
      rcases Multiset.mem_cons.mp hMem with rfl | hMem
      · exact List.mem_append_right _ List.mem_cons_self
      · exact List.mem_append_left _ (known other hMem)
    · intro j hMem hDone
      obtain ⟨other, hOther⟩ := isCompleted_iff.mp hDone
      rcases List.mem_append.mp hOther with hOther | hOther
      · exact tally_pos_push (woken j hMem (isCompleted_iff.mpr ⟨other, hOther⟩)) _
      · have hSame : j = i := congrArg Prod.fst (List.mem_singleton.mp hOther)
        rw [hSame]
        have hSelf : (Frame.completed i result inQueue).completes i = true := decide_eq_true rfl
        rw [tally_cons_pos hSelf]
        exact Nat.succ_pos _
  · cases hComplete

theorem known_of_cons (hKnown : ∀ result ∈ gather Frame.result (frame ::ₘ F), result ∈ h.results) :
    ∀ result ∈ gather Frame.result F, result ∈ h.results := by
  intro result hMem
  apply hKnown
  cases hFrame : frame.result with
  | none => rwa [gather_cons_none hFrame]
  | some other =>
    rw [gather_cons_some hFrame]
    exact Multiset.mem_cons_of_mem hMem

/-- A frame is replaced by another one with the same part of the queue. -/
theorem Inv.replaces {next : Frame Error} (hInv : Inv h (frame ::ₘ F))
    (hToken : next.token = frame.token) (hKnown : ∀ result ∈ next.result, result ∈ h.results)
    (hCompletes : ∀ i, frame.completes i = false) : Inv h (next ::ₘ F) := by
  refine { hInv with token := ?_, known := ?_, woken := ?_ }
  · rw [tokens, gather_cons_congr hToken]
    exact hInv.token
  · intro result hMem
    cases hNext : next.result with
    | none =>
      rw [gather_cons_none hNext] at hMem
      exact known_of_cons hInv.known result hMem
    | some other =>
      rw [gather_cons_some hNext] at hMem
      rcases Multiset.mem_cons.mp hMem with rfl | hMem
      · exact hKnown _ hNext
      · exact known_of_cons hInv.known result hMem
  · intro i hMem hDone
    have hWoken := hInv.woken i hMem hDone
    rw [tally_cons_neg (hCompletes i)] at hWoken
    exact tally_pos_push hWoken next

/-- `Then` on a future that has not completed. -/
theorem Inv.registers (hInv : Inv h (.then_ i ::ₘ F)) (hNot : h.isCompleted i = false) :
    Inv { h with waiting := h.waiting ++ [i] } F := by
  obtain ⟨hNone, hWaiting, hInvoking, hStarted⟩ := hInv.alone_frame rfl
  refine { hInv with
    token := ⟨[some i], ?_, ?_, hStarted⟩
    known := known_of_cons hInv.known
    woken := fun j hMem hDone => ?_ }
  · rw [tokens, hNone, hWaiting]
    rfl
  · rw [hInvoking]
    rfl
  · simp only [hWaiting, List.nil_append, List.mem_singleton] at hMem
    rw [hMem] at hDone
    rw [← Bool.not_eq_true] at hNot
    exact absurd hDone hNot

/-- The continuation runs when the future has completed. -/
theorem Inv.fires {inQueue : Bool} (hInv : Inv h (.completed i result inQueue ::ₘ F))
    (hMem : i ∈ h.waiting) :
    Inv { h with waiting := h.waiting.erase i } (.completeAction i result ::ₘ F) := by
  have hToken : some i ∈ tokens h (.completed i result inQueue ::ₘ F) := by
    rw [tokens, Multiset.mem_add, Multiset.mem_coe]
    exact .inr (List.mem_map_of_mem hMem)
  obtain ⟨hOne, hInvoking, hStarted⟩ := hInv.alone hToken
  have hParts : gather Frame.token F = 0 ∧ h.waiting = [i] := by
    rw [tokens, gather_cons_none rfl] at hOne
    have hCard := congrArg Multiset.card hOne
    rw [Multiset.card_add, Multiset.coe_card, List.length_map, Multiset.card_singleton] at hCard
    have hSome := List.length_pos_of_mem hMem
    constructor
    · rw [← Multiset.card_eq_zero]
      omega
    · obtain ⟨j, hOnly⟩ := List.length_eq_one_iff.mp (show h.waiting.length = 1 by omega)
      rw [hOnly] at hMem
      rw [hOnly, List.mem_singleton.mp hMem]
  have hResult : (Frame.completed i result inQueue).result = some (i, result) := rfl
  have hNext : (Frame.completeAction i result).result = some (i, result) := rfl
  refine { hInv with token := ⟨[some i], ?_, ?_, hStarted⟩, known := ?_, woken := ?_ }
  · have hHas : (Frame.completeAction i result).token = some (some i) := rfl
    rw [tokens, gather_cons_some hHas, hParts.1, hParts.2, List.erase_cons_head]
    rfl
  · rw [hInvoking]
    rfl
  · rw [gather_cons_some hNext, ← gather_cons_some hResult]
    exact hInv.known
  · simp only [hParts.2, List.erase_cons_head]
    exact nofun

/-- Nobody waits for the future yet. -/
theorem Inv.early {inQueue : Bool} (hInv : Inv h (.completed i result inQueue ::ₘ F))
    (hMem : i ∉ h.waiting) : Inv h F := by
  have hToken := hInv.token
  rw [tokens, gather_cons_none rfl] at hToken
  refine { hInv with token := hToken, known := known_of_cons hInv.known, woken := ?_ }
  intro j hWaits hDone
  have hWoken := hInv.woken j hWaits hDone
  have hOther : (Frame.completed i result inQueue).completes j = false := by
    apply decide_eq_false
    rintro rfl
    exact hMem hWaits
  rwa [tally_cons_neg hOther] at hWoken

theorem Inv.delivers (hInv : Inv h (.completeAction i result ::ₘ F)) :
    Inv { h with delivered := h.delivered ++ [(i, result)] } (.startNext ::ₘ F) := by
  obtain ⟨hNone, hWaiting, hInvoking, hStarted⟩ := hInv.alone_frame rfl
  have hResult : (Frame.completeAction i result).result = some (i, result) := rfl
  have hKnown := hInv.known
  rw [gather_cons_some hResult] at hKnown
  refine { hInv with
    token := ⟨[none], ?_, ?_, ?_⟩
    delivered := fun other hMem => ?_
    known := ?_
    woken := ?_ }
  · have hHas : (Frame.startNext : Frame Error).token = some none := rfl
    rw [tokens, gather_cons_some hHas, hNone, hWaiting]
    rfl
  · rw [hInvoking]
    rfl
  · rw [← hStarted, List.map_append]
    exact List.append_nil _
  · rcases List.mem_append.mp hMem with hMem | hMem
    · exact hInv.delivered other hMem
    · rw [List.mem_singleton.mp hMem]
      exact hKnown _ (Multiset.mem_cons_self ..)
  · rw [gather_cons_none rfl]
    exact fun other hMem => hKnown other (Multiset.mem_cons_of_mem hMem)
  · simp only [hWaiting]
    exact nofun

/-- Once an action has completed, the queue is as if no other had been posted. -/
theorem Inv.releases (hInv : Inv h (.startNext ::ₘ F)) :
    Inv { h with
        queue := { m_actions := [], m_isInvoking := false }
        posted := h.started.length } F := by
  obtain ⟨hNone, hWaiting, hInvoking, hStarted⟩ := hInv.alone_frame rfl
  refine { hInv with
    order := ?_
    idle := fun _ => rfl
    token := ⟨[], ?_, rfl, hStarted⟩
    known := known_of_cons hInv.known
    woken := ?_ }
  · rw [List.append_nil]
    exact prefix_range ⟨_, hInv.order⟩
  · rw [tokens, hNone, hWaiting]
    rfl
  · simp only [hWaiting]
    exact nofun

theorem Inv.postAction (hInv : Inv h F) (choice : UserStep Error) :
    ∃ next calls, exec h .postAction choice = some (.next next calls []) ∧ Inv next (↑calls + F) := by
  cases hInvoking : h.queue.m_isInvoking with
  | true =>
    have hPost : h.queue.postAction h.posted =
        ({ h.queue with m_actions := h.queue.m_actions ++ [h.posted] }, none) := by
      rw [AsyncActionQueue.postAction, if_neg]
      simp [hInvoking]
    simp only [exec, hPost, Heap.invokeAction]
    refine ⟨_, _, rfl, ?_⟩
    rw [nil_frames]
    exact hInv.waits hInvoking
  | false =>
    have hEmpty := hInv.idle hInvoking
    have hPost : h.queue.postAction h.posted =
        ({ m_actions := [], m_isInvoking := true }, some h.posted) := by
      rw [AsyncActionQueue.postAction, hInvoking, hEmpty, invokeAction, hEmpty]
      rfl
    simp only [exec, hPost, Heap.invokeAction]
    refine ⟨_, _, rfl, ?_⟩
    rw [cons_frames, inv_neutral rfl, cons_frames, nil_frames]
    obtain ⟨token, hTokens, hLength, hStarted⟩ := hInv.token
    rw [hInvoking] at hLength
    obtain rfl := List.length_eq_zero_iff.mp hLength
    apply hInv.starts hTokens
    · rwa [List.reduceOption_nil, List.append_nil] at hStarted
    · have hOrder := hInv.order
      rw [hEmpty, List.append_nil] at hOrder
      rw [hOrder, List.append_nil, List.range_succ]

theorem Inv.startNext (hInv : Inv h (.startNext ::ₘ F)) (choice : UserStep Error) :
    ∃ next calls, exec h .startNext choice = some (.next next calls []) ∧ Inv next (↑calls + F) := by
  obtain ⟨hNone, hWaiting, -, hStarted⟩ := hInv.alone_frame rfl
  have hOrder := hInv.order
  cases hActions : h.queue.m_actions with
  | nil =>
    have hNext : h.queue.startNext = ({ m_actions := [], m_isInvoking := false }, none) := by
      simp only [AsyncActionQueue.startNext, hActions]
    have hPosted : h.started.length = h.posted := by
      have hLength := congrArg List.length hOrder
      rwa [hActions, List.append_nil, List.length_range] at hLength
    have hReleased := hInv.releases
    rw [hPosted] at hReleased
    simp only [exec, hNext, Heap.invokeAction]
    refine ⟨_, _, rfl, ?_⟩
    rwa [nil_frames]
  | cons i actions =>
    have hNext : h.queue.startNext = ({ m_actions := actions, m_isInvoking := true }, some i) := by
      simp only [AsyncActionQueue.startNext, hActions, invokeAction]
    simp only [exec, hNext, Heap.invokeAction]
    refine ⟨_, _, rfl, ?_⟩
    rw [cons_frames, inv_neutral rfl, cons_frames, nil_frames]
    apply hInv.releases.starts
    · rw [tokens, hNone, hWaiting]
      rfl
    · rwa [Option.toList_none, List.append_nil] at hStarted
    · rwa [hActions, List.append_cons] at hOrder

variable {choice : UserStep Error}

/-- The code of an action or a continuation, which may do anything. -/
theorem Inv.userCode (hInv : Inv h F) (hNeutral : frame.isNeutral = true)
    {calls forks : List (Frame Error)}
    (hExec : userCode h frame choice = some (.next h' calls forks)) :
    Inv h' (↑calls + (↑forks + F)) := by
  cases choice with
  | returns =>
    cases hExec
    rwa [nil_frames, nil_frames]
  | postAction | postActions count =>
    cases hExec
    rwa [cons_frames, inv_neutral rfl, cons_frames, inv_neutral hNeutral, nil_frames, nil_frames]
  | complete i result =>
    obtain ⟨next, hComplete, hNext⟩ := Option.map_eq_some_iff.mp hExec
    cases hNext
    rw [cons_frames, cons_frames, Multiset.cons_swap, inv_neutral hNeutral, nil_frames, nil_frames]
    exact hInv.completes hComplete true

theorem Inv.exec (hInv : Inv h (frame ::ₘ F)) {calls forks : List (Frame Error)}
    (hExec : exec h frame choice = some (.next h' calls forks)) :
    Inv h' (↑calls + (↑forks + F)) := by
  cases frame with
  | postAction =>
    obtain ⟨next, nextCalls, hNext, hInv⟩ := ((inv_neutral rfl).mp hInv).postAction choice
    rw [hNext] at hExec
    cases hExec
    rwa [nil_frames]
  | postActions count =>
    rw [inv_neutral rfl] at hInv
    cases count with
    | zero =>
      cases hExec
      rwa [nil_frames, nil_frames]
    | succ count =>
      cases hExec
      rwa [cons_frames, inv_neutral rfl, cons_frames, inv_neutral rfl, nil_frames, nil_frames]
  | action i | continuation i => exact ((inv_neutral rfl).mp hInv).userCode rfl hExec
  | then_ i =>
    simp only [AsyncActionQueue.exec] at hExec
    split at hExec
    · rename_i result hLookup
      cases hExec
      rw [cons_frames, nil_frames, nil_frames]
      have hToken : (Frame.completeAction i result).token = (Frame.then_ i : Frame Error).token := rfl
      apply hInv.replaces hToken _ fun _ => rfl
      rintro other ⟨⟩
      obtain ⟨before, after, hResults, -⟩ := List.lookup_eq_some_iff.mp hLookup
      rw [hResults]
      exact List.mem_append_right _ List.mem_cons_self
    · rename_i hLookup
      cases hExec
      rw [nil_frames, nil_frames]
      apply hInv.registers
      cases hDone : h.isCompleted i with
      | false => rfl
      | true =>
        obtain ⟨result, hMem⟩ := isCompleted_iff.mp hDone
        have hOther := List.lookup_eq_none_iff.mp hLookup (i, result) hMem
        simp at hOther
  | completed i result inQueue =>
    simp only [AsyncActionQueue.exec] at hExec
    split at hExec
    · rename_i hMem
      split at hExec <;> cases hExec
      all_goals
        simp only [cons_frames, nil_frames]
        exact hInv.fires hMem
    · rename_i hMem
      cases hExec
      rw [nil_frames, nil_frames]
      exact hInv.early hMem
  | completeAction i result =>
    cases hExec
    rw [cons_frames, inv_neutral rfl, cons_frames, nil_frames, nil_frames]
    exact hInv.delivers
  | startNext =>
    obtain ⟨next, nextCalls, hNext, hInv⟩ := hInv.startNext choice
    rw [hNext] at hExec
    cases hExec
    rwa [nil_frames]

theorem start_eq_some (hStart : (machine Error).start h frame = some h') :
    (frame.isNeutral = true ∧ h' = h) ∨
      ∃ i result inQueue, frame = .completed i result inQueue ∧ h.complete i result = some h' := by
  cases frame with
  | postAction | postActions =>
    cases hStart
    exact .inl ⟨rfl, rfl⟩
  | completed i result inQueue => exact .inr ⟨i, result, inQueue, rfl, hStart⟩
  | _ => cases hStart

theorem invariant (ok : Heap Error → Frame Error → Multiset (Frame Error) → Prop) :
    Invariant (machine Error) ok (.initial Error) Inv where
  initial :=
    ⟨rfl, fun _ => rfl, ⟨[], rfl, rfl, rfl⟩, nofun, nofun, List.nodup_nil, nofun, nofun, nofun⟩
  start := by
    intro h h' frame F hInv hStart
    rcases start_eq_some hStart with ⟨hNeutral, rfl⟩ | ⟨i, result, inQueue, rfl, hComplete⟩
    · rwa [inv_neutral hNeutral]
    · exact hInv.completes hComplete inQueue
  exec hInv _ hExec := hInv.exec hExec

end ReactHost.AsyncActionQueue
