import ReactNativeWindows.Concurrency.Threads
import ReactNativeWindows.Networking.OriginPolicyHttpFilter

/-! Runs of `OriginPolicyHttpFilter::SendRequestAsync` over one `RedirectHttpFilter`, whose
`AllowAutoRedirect` is switched off for preflight requests. -/
namespace Networking.PreflightRedirects

open Concurrency OriginPolicyHttpFilter

/-- A request that went out, with the `coAllowAutoRedirect` of its run in the inner filter. -/
structure Sent where
  isPreflight : Bool
  allowAutoRedirect : Bool
  deriving DecidableEq

structure Heap where
  allowAutoRedirect : Bool
  sent : List Sent

def Heap.initial : Heap := ⟨true, []⟩

/-- Program points of `SendRequestAsync`, up to the suspension in which a response is awaited. -/
inductive Frame where
  | sendRequest (request : HttpRequestMessage)
  | disableRedirect (request : HttpRequestMessage)
  | sendPreflight (request : HttpRequestMessage)
  | awaitPreflight (request : HttpRequestMessage) (coAllowAutoRedirect : Bool)
  | preflightThrown
  | enableRedirect (request : HttpRequestMessage) (response : HttpResponseMessage)
  | validatePreflight (request : HttpRequestMessage) (response : HttpResponseMessage)
  | sendInner (request : HttpRequestMessage) (policy : OriginPolicy)
  | awaitResponse (coAllowAutoRedirect : Bool)

/-- What the inner filter does while it is awaited: it follows a redirect, or comes back. -/
inductive Choice where
  | go
  | redirect
  | answer (response : HttpResponseMessage)
  | throw
  deriving DecidableEq

def Heap.send (h : Heap) (isPreflight allowAutoRedirect : Bool) : Heap :=
  { h with sent := ⟨isPreflight, allowAutoRedirect⟩ :: h.sent }

def Frame.inPreflight : Frame → Bool
  | sendPreflight _ | awaitPreflight _ _ | preflightThrown | enableRedirect _ _ => true
  | sendRequest _ | disableRedirect _ | validatePreflight _ _ | sendInner _ _
  | awaitResponse _ => false

/-- How a step goes on after one of the checks, which may throw to the caller. -/
def afterCheck {α : Type} (h : Heap) (result : Except Failure α) (next : α → List Frame) :
    Outcome Heap Frame String :=
  match result with
  | .ok a => .next h (next a) []
  | .error (.thrown _) => .next h [] []
  | .error .crashed => .crash "access violation"

section Exec
variable (P : Platform) (filter : OriginPolicyHttpFilter) (options : RuntimeOptions)

@[grind =]
def exec (h : Heap) (frame : Frame) (choice : Choice) : Option (Outcome Heap Frame String) :=
  match frame with
  | .sendRequest request =>
    some (afterCheck h (filter.prepareRequest options request) fun (request, policy) =>
      if policy = .crossOriginResourceSharing then [.disableRedirect request]
      else [.sendInner request policy])
  | .disableRedirect request =>
    some (.next { h with allowAutoRedirect := false } [.sendPreflight request] [])
  | .sendPreflight request =>
    match filter.preflightRequest request with
    | .ok _ =>
      some (.next (h.send true h.allowAutoRedirect)
        [.awaitPreflight request h.allowAutoRedirect] [])
    | .error (.thrown _) => some (.next h [.preflightThrown] [])
    | .error .crashed => some (.crash "access violation")
  | .awaitPreflight request coAllowAutoRedirect =>
    match choice with
    | .redirect =>
      if coAllowAutoRedirect then some (.next (h.send true coAllowAutoRedirect) [frame] [])
      else none
    | .answer response => some (.next h [.enableRedirect request response] [])
    | .throw => some (.next h [.preflightThrown] [])
    | .go => none
  | .preflightThrown => some (.next h [] [])
  | .enableRedirect request response =>
    some (.next { h with allowAutoRedirect := true } [.validatePreflight request response] [])
  | .validatePreflight request response =>
    some (afterCheck h (filter.validatePreflightResponse P request response) fun _ =>
      [.sendInner request .crossOriginResourceSharing])
  | .sendInner request policy =>
    match filter.insertOrigin request policy with
    | .ok _ =>
      some (.next (h.send false h.allowAutoRedirect) [.awaitResponse h.allowAutoRedirect] [])
    | .error (.thrown _) => some (.next h [] [])
    | .error .crashed => some (.crash "access violation")
  | .awaitResponse coAllowAutoRedirect =>
    match choice with
    | .redirect =>
      if coAllowAutoRedirect then some (.next (h.send false coAllowAutoRedirect) [frame] [])
      else none
    | .answer _ | .throw => some (.next h [] [])
    | .go => none

/-- The program: any number of requests, on any threads. -/
def requestsOverOneFilter : Machine Heap Frame Choice String where
  exec := exec P filter options
  start h frame :=
    match frame with
    | .sendRequest _ => some h
    | _ => none

end Exec

/-- A preflight fails only beside another one that is in flight, and other requests are only sent while
none is. -/
def NoOverlap (_ : Heap) (frame : Frame) (others : Multiset Frame) : Prop :=
  match frame with
  | .preflightThrown => 0 < tally Frame.inPreflight others
  | .sendInner _ _ => tally Frame.inPreflight others = 0
  | _ => True

instance (h : Heap) (frame : Frame) (others : Multiset Frame) :
    Decidable (NoOverlap h frame others) := by
  unfold NoOverlap
  split <;> infer_instance

structure FlagRestored (h : Heap) (F : Multiset Frame) : Prop where
  inFlight : h.allowAutoRedirect = false → 0 < tally Frame.inPreflight F
  sent : ∀ request ∈ h.sent, request.isPreflight = false → request.allowAutoRedirect = true
  awaiting : ∀ coAllowAutoRedirect, Frame.awaitResponse coAllowAutoRedirect ∈ F →
    coAllowAutoRedirect = true

section Steps

variable {h : Heap} {F : Multiset Frame} {frame : Frame}

variable {calls : List Frame}

/-- A step that leaves the heap alone keeps the invariant if it keeps a preflight in flight. -/
theorem FlagRestored.move (hInv : FlagRestored h (frame ::ₘ F))
    (hFlight : h.allowAutoRedirect = false → frame.inPreflight = true →
      0 < tally Frame.inPreflight (↑calls + F))
    (hAwait : ∀ coAllowAutoRedirect, Frame.awaitResponse coAllowAutoRedirect ∈ calls →
      coAllowAutoRedirect = true) : FlagRestored h (↑calls + F) where
  sent := hInv.sent
  inFlight hFlag := by
    cases hFrame : frame.inPreflight with
    | true => exact hFlight hFlag hFrame
    | false =>
      have hOthers := hInv.inFlight hFlag
      rw [tally_cons_neg hFrame] at hOthers
      obtain ⟨other, hMem, hOther⟩ := exists_of_tally_pos hOthers
      exact tally_pos (Multiset.mem_add.mpr (.inr hMem)) hOther
  awaiting coAllowAutoRedirect hMem := by
    rcases Multiset.mem_add.mp hMem with hCall | hOther
    · exact hAwait coAllowAutoRedirect hCall
    · exact hInv.awaiting coAllowAutoRedirect (Multiset.mem_cons_of_mem hOther)

/-- The end of a frame outside of a preflight. -/
theorem FlagRestored.finish (hInv : FlagRestored h (frame ::ₘ F))
    (hFrame : frame.inPreflight = false) : FlagRestored h (↑([] : List Frame) + F) :=
  hInv.move (fun _ hIn => absurd (hFrame.symm.trans hIn) (by decide)) fun _ hMem => by cases hMem

theorem FlagRestored.next {call : Frame} (hInv : FlagRestored h (frame ::ₘ F))
    (hFlight : frame.inPreflight = true → call.inPreflight = true)
    (hAwait : ∀ coAllowAutoRedirect, call = .awaitResponse coAllowAutoRedirect →
      coAllowAutoRedirect = true) : FlagRestored h (↑[call] + F) := by
  refine hInv.move (fun _ hIn => ?_) fun coAllowAutoRedirect hMem =>
    hAwait _ (List.mem_singleton.mp hMem).symm
  rw [cons_frames, nil_frames]
  exact tally_pos (Multiset.mem_cons_self ..) (hFlight hIn)

theorem FlagRestored.send {isPreflight allowAutoRedirect : Bool} (hInv : FlagRestored h F)
    (hSent : isPreflight = false → allowAutoRedirect = true) :
    FlagRestored (h.send isPreflight allowAutoRedirect) F where
  inFlight := hInv.inFlight
  sent request hMem hOther := by
    rcases List.mem_cons.mp hMem with rfl | hEarlier
    · exact hSent hOther
    · exact hInv.sent request hEarlier hOther
  awaiting := hInv.awaiting

variable {h' : Heap}

/-- A step that goes on after a check. -/
theorem FlagRestored.check {α : Type} {result : Except Failure α} {next : α → List Frame}
    {forks : List Frame} (hInv : FlagRestored h (frame ::ₘ F)) (hFrame : frame.inPreflight = false)
    (hNext : ∀ a, result = .ok a → ∃ call, next a = [call] ∧
      ∀ coAllowAutoRedirect, call ≠ .awaitResponse coAllowAutoRedirect)
    (hCheck : some (afterCheck h result next) = some (.next h' calls forks)) :
    FlagRestored h' (↑calls + (↑forks + F)) := by
  simp only [afterCheck] at hCheck
  split at hCheck
  · rename_i a
    obtain ⟨call, hCall, hNot⟩ := hNext a rfl
    cases hCheck
    rw [hCall, nil_frames]
    exact hInv.next (fun hIn => absurd (hFrame.symm.trans hIn) (by decide))
      fun coAllowAutoRedirect hSame => absurd hSame (hNot coAllowAutoRedirect)
  · cases hCheck
    rw [nil_frames]
    exact hInv.finish hFrame
  · cases hCheck

/-- Where no preflight is in flight, a request that is about to be sent finds the flag on. -/
theorem FlagRestored.allowAutoRedirect_of_none {request : HttpRequestMessage} {policy : OriginPolicy}
    (hInv : FlagRestored h (.sendInner request policy ::ₘ F)) (hNone : tally Frame.inPreflight F = 0) :
    h.allowAutoRedirect = true := by
  by_contra hFlag
  have hFlight := hInv.inFlight (Bool.eq_false_iff.mpr hFlag)
  rw [tally_cons_neg rfl, hNone] at hFlight
  exact absurd hFlight (Nat.lt_irrefl 0)

variable {P : Platform} {filter : OriginPolicyHttpFilter} {options : RuntimeOptions}

theorem exec_flagRestored {choice : Choice} {forks : List Frame}
    (hInv : FlagRestored h (frame ::ₘ F)) (hOk : NoOverlap h frame F)
    (hExec : exec P filter options h frame choice = some (.next h' calls forks)) :
    FlagRestored h' (↑calls + (↑forks + F)) := by
  cases frame with
  | sendRequest request =>
    refine hInv.check rfl (fun prepared _ => ?_) hExec
    by_cases hPolicy : prepared.2 = .crossOriginResourceSharing
    · exact ⟨.disableRedirect prepared.1, by simp [hPolicy], by simp⟩
    · exact ⟨.sendInner prepared.1 prepared.2, by simp [hPolicy], by simp⟩
  | disableRedirect request =>
    cases hExec
    rw [nil_frames]
    refine ⟨fun _ => ?_, hInv.sent, ?_⟩
    · rw [cons_frames, nil_frames]
      exact tally_pos (Multiset.mem_cons_self ..) rfl
    · have hNext : FlagRestored h (↑[Frame.sendPreflight request] + F) :=
        hInv.next (fun _ => rfl) (by simp)
      exact hNext.awaiting
  | sendPreflight request =>
    simp only [exec] at hExec
    split at hExec
    · cases hExec
      rw [nil_frames]
      exact (hInv.next (fun _ => rfl) (by simp)).send (by simp)
    · cases hExec
      rw [nil_frames]
      exact hInv.next (fun _ => rfl) (by simp)
    · cases hExec
  | awaitPreflight request coAllowAutoRedirect =>
    cases choice with
    | redirect =>
      simp only [exec] at hExec
      split at hExec
      · cases hExec
        rw [nil_frames]
        exact (hInv.next (fun _ => rfl) (by simp)).send (by simp)
      · cases hExec
    | answer response | throw =>
      cases hExec
      rw [nil_frames]
      exact hInv.next (fun _ => rfl) (by simp)
    | go => cases hExec
  | preflightThrown =>
    cases hExec
    rw [nil_frames]
    refine hInv.move (fun _ _ => ?_) (by simp)
    rw [nil_frames]
    exact hOk
  | enableRedirect request response =>
    cases hExec
    rw [nil_frames]
    refine ⟨by simp, hInv.sent, ?_⟩
    intro coAllowAutoRedirect hMem
    rw [cons_frames, nil_frames] at hMem
    rcases Multiset.mem_cons.mp hMem with hCall | hOther
    · cases hCall
    · exact hInv.awaiting coAllowAutoRedirect (Multiset.mem_cons_of_mem hOther)
  | validatePreflight request response =>
    exact hInv.check rfl (fun _ _ => ⟨_, rfl, by simp⟩) hExec
  | sendInner request policy =>
    have hFlag := hInv.allowAutoRedirect_of_none hOk
    simp only [exec] at hExec
    split at hExec
    · cases hExec
      rw [nil_frames]
      refine (hInv.next (fun hIn => by cases hIn) ?_).send fun _ => hFlag
      intro coAllowAutoRedirect hSame
      cases hSame
      exact hFlag
    · cases hExec
      rw [nil_frames]
      exact hInv.finish rfl
    · cases hExec
  | awaitResponse coAllowAutoRedirect =>
    have hAllow := hInv.awaiting coAllowAutoRedirect (Multiset.mem_cons_self ..)
    cases choice with
    | redirect =>
      simp only [exec] at hExec
      split at hExec
      · cases hExec
        rw [nil_frames]
        refine (hInv.next (fun hIn => by cases hIn) ?_).send fun _ => hAllow
        intro other hSame
        cases hSame
        exact hAllow
      · rename_i hNot
        exact absurd hAllow hNot
    | answer response | throw =>
      cases hExec
      rw [nil_frames]
      exact hInv.finish rfl
    | go => cases hExec

theorem insertOrigin_ne_thrown {request : HttpRequestMessage} {policy : OriginPolicy}
    {error : HResultError} : filter.insertOrigin request policy ≠ .error (.thrown error) := by
  rw [insertOrigin]
  split
  · split <;> simp
  · simp

/-- While a preflight has the flag off, no step outside of the condition keeps it as it should be. -/
theorem overlap_breaks {choice : Choice} {forks : List Frame} (hFlag : h.allowAutoRedirect = false)
    (hNot : ¬NoOverlap h frame F)
    (hExec : exec P filter options h frame choice = some (.next h' calls forks)) :
    (h'.allowAutoRedirect = false ∧ tally Frame.inPreflight (↑calls + (↑forks + F)) = 0) ∨
      ∃ request ∈ h'.sent, request.isPreflight = false ∧ request.allowAutoRedirect = false := by
  cases frame with
  | preflightThrown =>
    cases hExec
    refine .inl ⟨hFlag, ?_⟩
    rw [nil_frames, nil_frames]
    exact Nat.eq_zero_of_not_pos hNot
  | sendInner request policy =>
    simp only [exec] at hExec
    split at hExec
    · cases hExec
      exact .inr ⟨⟨false, h.allowAutoRedirect⟩, List.mem_cons_self, rfl, hFlag⟩
    · rename_i error hThrown
      exact absurd hThrown insertOrigin_ne_thrown
    · cases hExec
  | sendRequest | disableRedirect | sendPreflight | awaitPreflight | enableRedirect
  | validatePreflight | awaitResponse => exact absurd trivial hNot

end Steps

section Runs

variable {P : Platform} {filter : OriginPolicyHttpFilter} {options : RuntimeOptions}

theorem flagRestored_invariant : Machine.Invariant (requestsOverOneFilter P filter options)
    NoOverlap .initial FlagRestored where
  initial := ⟨by simp [Heap.initial], by simp [Heap.initial], by simp⟩
  start {h h' frame F} hInv hStart := by
    simp only [requestsOverOneFilter] at hStart
    split at hStart
    · cases hStart
      refine ⟨fun hFlag => tally_pos_push (hInv.inFlight hFlag) _, hInv.sent, ?_⟩
      intro coAllowAutoRedirect hMem
      rcases Multiset.mem_cons.mp hMem with hCall | hOther
      · cases hCall
      · exact hInv.awaiting coAllowAutoRedirect hOther
    · cases hStart
  exec hInv hOk hExec := exec_flagRestored hInv hOk hExec

/-- Whatever the requests and their order: where no other request is sent while a preflight is in flight,
and a preflight that fails is not the last one in flight, the flag is on again when no preflight is in
flight, and no other request goes out with the flag off. -/
theorem flag_restored {s : Config Heap Frame String}
    (hs : Machine.Reachable (requestsOverOneFilter P filter options) NoOverlap .initial s) :
    ((∀ frame ∈ s.frames, frame.inPreflight = false) → s.heap.allowAutoRedirect = true) ∧
      ∀ request ∈ s.heap.sent, request.isPreflight = false →
        request.allowAutoRedirect = true := by
  have hInv := flagRestored_invariant.reachable hs
  refine ⟨fun hNone => ?_, hInv.sent⟩
  by_contra hFlag
  rw [Bool.not_eq_true] at hFlag
  obtain ⟨frame, hMem, hFrame⟩ := exists_of_tally_pos (hInv.inFlight hFlag)
  rw [hNone frame hMem] at hFrame
  cases hFrame

end Runs

section Witnesses

def noPlatform : Platform := ⟨fun _ => none, fun _ => none, fun _ => false, fun _ => false⟩

def pageFilter : OriginPolicyHttpFilter := ⟨some ⟨"http", "a.example", 80, "", "", "/"⟩⟩

def corsOptions : RuntimeOptions := ⟨3, false, false, false, false, false⟩

def putRequest : HttpRequestMessage :=
  ⟨⟨"PUT", 9⟩, ⟨"http", "b.example", 80, "", "", "/"⟩, [], none, ⟨some ⟨1, [], "", false⟩, none, none⟩⟩

def getRequest : HttpRequestMessage :=
  ⟨.Get, ⟨"http", "a.example", 80, "", "", "/"⟩, [], none, ⟨some ⟨2, [], "", false⟩, none, none⟩⟩

def allowPut : HttpResponseMessage :=
  ⟨200, none, [("Access-Control-Allow-Origin", "*"), ("Access-Control-Allow-Methods", "PUT")]⟩

/-- A PUT whose preflight is answered, with the flag on again when it goes out. -/
theorem put_after_preflight : ∃ s : Config Heap Frame String,
    s.heap.sent = [⟨false, true⟩, ⟨true, false⟩] ∧
      ((∀ frame ∈ s.frames, frame.inPreflight = false) → s.heap.allowAutoRedirect = true) := by
  obtain ⟨s, hs, hSent⟩ := Machine.exists_reachable
    (fun s : Config Heap Frame String => s.heap.sent = [⟨false, true⟩, ⟨true, false⟩])
    [.call (.sendRequest putRequest), .run 0 .go, .run 0 .go, .run 0 .go,
      .run 0 (.answer allowPut), .run 0 .go, .run 0 .go, .run 0 .go]
    (by decide : (Option.any _ ((requestsOverOneFilter noPlatform pageFilter
      corsOptions).runSchedule NoOverlap (.initial .initial) _)) = true)
  exact ⟨s, hSent, (flag_restored hs).1⟩

/-- A preflight that fails leaves the flag off, and a later request goes out without it; and so does a
request that is sent while a preflight is in flight. -/
theorem preflight_leaves_flag :
    (∃ s : Config Heap Frame String,
      Machine.Reachable (requestsOverOneFilter noPlatform pageFilter corsOptions) Always .initial s ∧
        s.Quiet ∧ s.heap.allowAutoRedirect = false ∧ (⟨false, false⟩ : Sent) ∈ s.heap.sent) ∧
      ∃ s : Config Heap Frame String,
        Machine.Reachable (requestsOverOneFilter noPlatform pageFilter corsOptions) Always .initial s ∧
          s.heap.sent = [⟨false, false⟩, ⟨true, false⟩] := by
  constructor
  · exact Machine.exists_reachable
      (fun s : Config Heap Frame String =>
        s.Quiet ∧ s.heap.allowAutoRedirect = false ∧ (⟨false, false⟩ : Sent) ∈ s.heap.sent)
      [.call (.sendRequest putRequest), .run 0 .go, .run 0 .go, .run 0 .go, .run 0 .throw,
        .run 0 .go, .call (.sendRequest getRequest), .run 1 .go, .run 1 .go,
        .run 1 (.answer ⟨200, none, []⟩)]
      (by decide : (Option.any _ ((requestsOverOneFilter noPlatform pageFilter
        corsOptions).runSchedule Always (.initial .initial) _)) = true)
  · exact Machine.exists_reachable
      (fun s : Config Heap Frame String => s.heap.sent = [⟨false, false⟩, ⟨true, false⟩])
      [.call (.sendRequest putRequest), .run 0 .go, .run 0 .go, .run 0 .go,
        .call (.sendRequest getRequest), .run 1 .go, .run 1 .go]
      (by decide : (Option.any _ ((requestsOverOneFilter noPlatform pageFilter
        corsOptions).runSchedule Always (.initial .initial) _)) = true)

end Witnesses

end Networking.PreflightRedirects
