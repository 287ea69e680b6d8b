import ReactNativeWindows.Networking.WebSocketMessages

/-! Runs of a web socket resource. -/
namespace Networking.WinRTWebSocketResource

variable {decode : Decode} {r t : Resource}

theorem Clean.of_eq (h : Clean decode r) (hSequencer : t.m_sequencer = r.m_sequencer)
    (hWriter : t.m_writer = r.m_writer) (hType : t.messageType = r.messageType)
    (hDoomed : Doomed r.m_readyState r.m_backgroundQueue → Doomed t.m_readyState t.m_backgroundQueue) :
    Clean decode t := by
  rw [Clean] at h ⊢
  rw [hSequencer, hWriter, hType]
  split at h
  · exact h.imp_right hDoomed
  · exact h
  · exact h.imp_right hDoomed

/-- Nothing is in progress that has written. -/
theorem clean_of_isNew (hNew : ∀ task ∈ r.m_sequencer, task.isNew = true)
    (h : r.m_writer = [] ∨ Doomed r.m_readyState r.m_backgroundQueue) : Clean decode r := by
  rw [Clean]
  split
  · rename_i hTasks
    rw [hTasks] at hNew
    cases hNew _ List.mem_cons_self
  · rename_i hTasks
    rw [hTasks] at hNew
    cases hNew _ List.mem_cons_self
  · exact h

theorem Clean.post (h : Clean decode r) (item : BackgroundItem) : Clean decode (r.post item) :=
  h.of_eq rfl rfl rfl fun hDoomed => hDoomed.append [item]

namespace Resource.Inv

variable (h : r.Inv decode)
include h

/-- What is posted by calls and events that are no writes. -/
theorem post (item : BackgroundItem) (hWrites : item.writes = none)
    (hNew : ∀ task, item = .queueTask task → task.isNew = true) (hResume : item ≠ .resumeWrite) :
    (r.post item).Inv decode :=
  ⟨h.sequenced.post hWrites hNew hResume, h.clean.post item, h.flushed⟩

theorem fail (message : String) (type : ErrorType) :
    (r.fail message type).Inv decode := h.post _ rfl nofun nofun

theorem postCalling (item : CallingItem) : (r.postCalling item).Inv decode :=
  ⟨h.sequenced, h.clean.of_eq rfl rfl rfl id, h.flushed⟩

theorem handle (handled : Handled) : (r.handle handled).Inv decode :=
  ⟨h.sequenced, h.clean.of_eq rfl rfl rfl id, h.flushed⟩

theorem close (code : ℕ) (reason : String) : (r.close code reason).Inv decode := by
  have hSet : ({ r with m_closeCode := code, m_closeReason := reason } : Resource).Inv decode :=
    ⟨h.sequenced, h.clean.of_eq rfl rfl rfl id, h.flushed⟩
  apply hSet.post (.queueTask .close) rfl _ nofun
  rintro task ⟨⟩
  rfl

theorem enqueueWrite (message : Message) : (r.enqueueWrite message).Inv decode := by
  refine ⟨h.sequenced.enqueueWrite, ?_, fun call flush hMem => ?_⟩
  · exact h.clean.of_eq rfl rfl rfl fun hDoomed => hDoomed.append _
  · obtain ⟨m, hCall, hFlush⟩ := h.flushed call flush hMem
    refine ⟨m, ?_, hFlush⟩
    simp only [Resource.enqueueWrite, Resource.post]
    rwa [List.getElem?_append_left (List.getElem?_eq_some_iff.mp hCall).1]

theorem connect (answer : Answer) : (r.connect answer).Inv decode := by
  cases answer with
  | accepted =>
    apply h.post (.queueTask .connect) rfl _ nofun
    rintro task ⟨⟩
    rfl
  | refused error discards => exact h.fail error .connection

theorem onMessageReceived (message : ReceivedMessage) :
    (r.onMessageReceived message).Inv decode := by
  cases message with
  | data response isBinary => exact h.postCalling _
  | aborted => exact (h.close 1007 abortedMessage).fail abortedMessage .connection
  | failed error => exact h.fail error .receive

theorem onClosed : r.onClosed.Inv decode :=
  (h.post _ rfl nofun nofun : (r.post .onClosed).Inv decode).postCalling .closeHandler

theorem runCalling (hStep : r.runCalling = some t) : t.Inv decode := by
  rw [Resource.runCalling] at hStep
  split at hStep
  · cases hStep
  · rename_i item rest _
    have hRest : ({ r with m_callingQueue := rest } : Resource).Inv decode :=
      ⟨h.sequenced, h.clean.of_eq rfl rfl rfl id, h.flushed⟩
    cases item with
    | readHandler response isBinary | closeHandler | errorHandler message type =>
      cases hStep
      exact hRest.handle _
    | connectHandler =>
      cases hStep
      obtain ⟨hSequenced, hClean, hFlushed⟩ := hRest.handle .connect
      rw [afterConnect]
      split
      · rename_i tasks hTasks
        rw [hTasks] at hSequenced
        refine ⟨hSequenced.drop rfl rfl, ?_, hFlushed⟩
        apply clean_of_isNew hSequenced.waiting
        rwa [Clean, hTasks] at hClean
      · exact ⟨hSequenced, hClean, hFlushed⟩

theorem runBackground (hOrderly : Orderly r .runBackground) (hStep : r.runBackground = some t) :
    t.Inv decode := by
  rw [Resource.runBackground] at hStep
  split at hStep
  · cases hStep
  rename_i item items hItems
  obtain ⟨hSequenced, hClean, hFlushed⟩ := h
  rw [hItems] at hSequenced
  cases item with
  | queueTask task =>
    cases hStep
    refine ⟨hSequenced.queue, ?_, hFlushed⟩
    have hPop : Doomed r.m_readyState r.m_backgroundQueue → Doomed r.m_readyState items := by
      rw [hItems]
      exact fun hDoomed => hDoomed.pop rfl
    cases hTasks : r.m_sequencer with
    | nil =>
      rw [Clean, hTasks] at hClean
      apply clean_of_isNew
      · intro other hMem
        rw [List.mem_singleton.mp hMem]
        exact hSequenced.posted task List.mem_cons_self
      · exact hClean.imp_right hPop
    | cons first tasks =>
      rw [Clean, hTasks] at hClean
      cases first with
      | writing call message => exact hClean.imp_right hPop
      | storing call message => exact hClean
      | _ => exact hClean.imp_right hPop
  | resumeWrite =>
    cases hStep
    obtain ⟨call, message, tasks, hTasks⟩ := hSequenced.exists_writing
    rw [hTasks] at hSequenced
    rw [Clean, hTasks, hItems] at hClean
    have hStoring := hSequenced.resume
    simp only [Resource.resumeWrite, hTasks]
    by_cases hOpened : r.m_readyState = .opened
    · rw [if_neg (not_not_intro hOpened)]
      refine ⟨hStoring, ?_, hFlushed⟩
      -- the state is still `Open`, so no failure was posted before
      have hNotDoomed : ¬Doomed r.m_readyState (.resumeWrite :: items) := by
        intro hDoomed
        rcases hDoomed.shut with hShut | hShut
        · rw [hShut] at hOpened
          cases hOpened
        · rw [hShut] at hOpened
          cases hOpened
      exact hClean.resolve_right hNotDoomed
    · rw [if_pos hOpened]
      refine ⟨hStoring.finish none, ?_, fun call' flush hMem => ?_⟩
      · apply clean_of_isNew hStoring.waiting
        right; left
        cases hState : r.m_readyState with
        | connecting => exact absurd hState (hOrderly (by simp only [Resource.resumes, hItems]))
        | opened => exact absurd hState hOpened
        | closing => exact .inl rfl
        | closed => exact .inr rfl
      · rcases List.mem_append.mp hMem with hMem | hMem
        · exact hFlushed call' flush hMem
        · cases List.mem_singleton.mp hMem
  | fail message type =>
    cases hStep
    exact ⟨hSequenced.pop rfl nofun, hClean.of_eq rfl rfl rfl fun _ => .inl (.inr rfl), hFlushed⟩
  | onClosed =>
    cases hStep
    exact ⟨hSequenced.pop rfl nofun, hClean.of_eq rfl rfl rfl fun _ => .inl (.inr rfl), hFlushed⟩

omit h

/-- What was left in the writer is sent with the message, unless nothing is sent any more. -/
theorem performWrite {call : ℕ} {message : Message} {tasks : List SequencedTask} {answer : Answer}
    (hSequenced : Sequenced (.write call message :: tasks) r.m_backgroundQueue r.finished r.calls)
    (hClean : r.m_writer = [] ∨ Doomed r.m_readyState r.m_backgroundQueue)
    (hFlushed : ∀ call flush, (call, some flush) ∈ r.finished →
      ∃ message, r.calls[call]? = some message ∧ message.flush decode = some flush) :
    ((({ r with m_sequencer := .writing call message :: tasks } : Resource).performWrite decode message
      answer).post .resumeWrite).Inv decode := by
  have hNone : r.m_backgroundQueue.count .resumeWrite = 0 := hSequenced.resumes
  have hFail (error : String) :
      ((({ r with
          m_sequencer := .writing call message :: tasks
          messageType := message.messageType } : Resource).fail error .send).post .resumeWrite).Inv
        decode := by
    have hPosted := hSequenced.post (rfl : (BackgroundItem.fail error .send).writes = none) nofun nofun
    refine ⟨hPosted.start, .inr ?_, hFlushed⟩
    show Doomed r.m_readyState (r.m_backgroundQueue ++ [.fail error .send] ++ [.resumeWrite])
    rw [List.append_assoc]
    exact doomed_fail r.m_readyState hNone error .send [.resumeWrite]
  cases answer with
  | refused error discards => exact hFail error
  | accepted =>
    cases hPayload : message.payload decode with
    | none =>
      simp only [Resource.performWrite, hPayload]
      exact hFail "E_INVALIDARG"
    | some bytes =>
      simp only [Resource.performWrite, hPayload]
      refine ⟨hSequenced.start, ?_, hFlushed⟩
      rcases hClean with hEmpty | hDoomed
      · left
        simp only [Message.flush, hPayload, Resource.post, hEmpty, List.nil_append, Option.map_some]
      · exact .inr (hDoomed.append [.resumeWrite])

theorem runTask (h : r.Inv decode) {answer : Answer} (hOrderly : Orderly r (.runTask answer))
    (hStep : r.runTask decode answer = some t) : t.Inv decode := by
  obtain ⟨hSequenced, hClean, hFlushed⟩ := h
  cases hTasks : r.m_sequencer with
  | nil =>
    simp only [Resource.runTask, hTasks] at hStep
    cases hStep
  | cons task tasks =>
    rw [hTasks] at hSequenced
    rw [Clean, hTasks] at hClean
    have hNew : ∀ other ∈ tasks, other.isNew = true := hSequenced.waiting
    cases task with
    | connected | writing call message =>
      simp only [Resource.runTask, hTasks] at hStep
      cases hStep
    | connect | close =>
      cases answer with
      | accepted =>
        simp only [Resource.runTask, hTasks] at hStep
        cases hStep
        exact ⟨hSequenced.replace rfl rfl, hClean, hFlushed⟩
      | refused error discards =>
        simp only [Resource.runTask, hTasks] at hStep
        cases hStep
        apply fail
        exact ⟨hSequenced.drop rfl rfl, clean_of_isNew hNew hClean, hFlushed⟩
    | connecting =>
      cases answer with
      | accepted =>
        simp only [Resource.runTask, hTasks] at hStep
        have hConnecting := hOrderly.1 (by simp only [Resource.connects, hTasks])
        cases hStep
        apply postCalling
        refine ⟨hSequenced.replace rfl rfl, hClean.imp_right fun hDoomed => ?_, hFlushed⟩
        rcases hDoomed with (hShut | hShut) | hFail
        · rw [hShut] at hConnecting
          cases hConnecting
        · rw [hShut] at hConnecting
          cases hConnecting
        · exact .inr hFail
      | refused error discards =>
        simp only [Resource.runTask, hTasks] at hStep
        cases hStep
        apply fail
        exact ⟨hSequenced.drop rfl rfl, clean_of_isNew hNew hClean, hFlushed⟩
    | write call message =>
      simp only [Resource.runTask, hTasks] at hStep
      cases hStep
      exact performWrite hSequenced hClean hFlushed
    | storing call message =>
      have hNone : r.m_backgroundQueue.count .resumeWrite = 0 := hSequenced.resumes
      cases answer with
      | accepted =>
        simp only [Resource.runTask, hTasks] at hStep
        cases hStep
        refine ⟨hSequenced.finish _, clean_of_isNew hNew (.inl rfl), fun call' flush hMem => ?_⟩
        rcases List.mem_append.mp hMem with hMem | hMem
        · exact hFlushed call' flush hMem
        · cases List.mem_singleton.mp hMem
          exact ⟨message, hSequenced.known _ List.mem_cons_self, hClean⟩
      | refused error discards =>
        simp only [Resource.runTask, hTasks] at hStep
        cases hStep
        have hPosted := (hSequenced.finish none).post
          (rfl : (BackgroundItem.fail error .send).writes = none) nofun nofun
        refine ⟨hPosted, ?_, fun call' flush hMem => ?_⟩
        · exact clean_of_isNew hNew (.inr (doomed_fail _ hNone error .send []))
        · rcases List.mem_append.mp hMem with hMem | hMem
          · exact hFlushed call' flush hMem
          · cases List.mem_singleton.mp hMem
    | closing =>
      simp only [Resource.runTask, hTasks] at hStep
      cases hStep
      exact ⟨hSequenced.drop rfl rfl, clean_of_isNew hNew (.inr (.inl (.inl rfl))), hFlushed⟩

theorem step (h : r.Inv decode) {action : Action} (hOrderly : Orderly r action)
    (hStep : r.step decode action = some t) : t.Inv decode := by
  cases action with
  | connect answer => cases hStep; exact h.connect answer
  | send message => cases hStep; exact h.enqueueWrite ⟨message, false⟩
  | sendBinary base64String => cases hStep; exact h.enqueueWrite ⟨base64String, true⟩
  | close code reason => cases hStep; exact h.close code reason
  | onMessageReceived message => cases hStep; exact h.onMessageReceived message
  | onClosed => cases hStep; exact h.onClosed
  | runBackground => exact h.runBackground hOrderly hStep
  | runCalling => exact h.runCalling hStep
  | runTask answer => exact h.runTask hOrderly hStep

theorem initial (decode : Decode) : Resource.initial.Inv decode :=
  ⟨⟨rfl, nofun, nofun, nofun, rfl⟩, .inl rfl, nofun⟩

theorem runs (h : Runs decode Orderly .initial r) : r.Inv decode := by
  induction h with
  | refl => exact .initial decode
  | step action prior allowed last ih => exact ih.step allowed last

end Resource.Inv

theorem ReadyState.value_le_closed (state : ReadyState) : state.value ≤ ReadyState.closed.value := by
  cases state <;> decide

theorem runBackground_forward (hStep : r.runBackground = some t) :
    r.m_readyState.value ≤ t.m_readyState.value := by
  rw [Resource.runBackground] at hStep
  split at hStep
  · cases hStep
  rename_i item items _
  cases item with
  | queueTask task => cases hStep; exact Nat.le_refl _
  | resumeWrite =>
    cases hStep
    rw [Resource.resumeWrite]
    split
    · split
      · exact Nat.le_refl _
      · exact Nat.le_refl _
    · exact Nat.le_refl _
  | fail message type | onClosed => cases hStep; exact ReadyState.value_le_closed _

theorem runCalling_state (hStep : r.runCalling = some t) : t.m_readyState = r.m_readyState := by
  rw [Resource.runCalling] at hStep
  split at hStep
  · cases hStep
  rename_i item items _
  cases item with
  | connectHandler =>
    cases hStep
    rw [Resource.afterConnect]
    split
    · rfl
    · rfl
  | _ => cases hStep; rfl

theorem performWrite_state (message : Message) (answer : Answer) :
    (r.performWrite decode message answer).m_readyState = r.m_readyState := by
  unfold Resource.performWrite
  cases answer with
  | refused error discards => rfl
  | accepted => cases message.payload decode <;> rfl

theorem runTask_forward {answer : Answer} (hOrderly : Orderly r (.runTask answer))
    (hStep : r.runTask decode answer = some t) : r.m_readyState.value ≤ t.m_readyState.value := by
  unfold Resource.runTask at hStep
  split at hStep
  · cases hStep; exact Nat.le_refl _
  · cases hStep; exact Nat.le_refl _
  · rename_i hTasks
    have hConnecting := hOrderly.1 (by simp only [Resource.connects, hTasks])
    cases hStep
    rw [hConnecting]
    exact Nat.zero_le _
  · cases hStep; exact Nat.le_refl _
  · cases hStep
    show r.m_readyState.value ≤ (Resource.performWrite decode _ _ _).m_readyState.value
    rw [performWrite_state]
  · cases hStep; exact Nat.le_refl _
  · cases hStep; exact Nat.le_refl _
  · cases hStep; exact Nat.le_refl _
  · cases hStep; exact Nat.le_refl _
  · rename_i hTasks
    have hNotClosed := hOrderly.2 (by simp only [Resource.closes, hTasks])
    cases hStep
    show r.m_readyState.value ≤ ReadyState.closing.value
    cases hState : r.m_readyState with
    | closed => exact absurd hState hNotClosed
    | _ => decide
  · cases hStep
  · cases hStep
  · cases hStep

theorem step_forward {action : Action} (hOrderly : Orderly r action)
    (hStep : r.step decode action = some t) : r.m_readyState.value ≤ t.m_readyState.value := by
  cases action with
  | runBackground => exact runBackground_forward hStep
  | runCalling => exact Nat.le_of_eq (congrArg ReadyState.value (runCalling_state hStep).symm)
  | runTask answer => exact runTask_forward hOrderly hStep
  | connect answer | onMessageReceived answer => cases hStep; cases answer <;> exact Nat.le_refl _
  | send | sendBinary | close | onClosed => cases hStep; exact Nat.le_refl _

theorem Runs.forward (h : Runs decode Orderly r t) : r.m_readyState.value ≤ t.m_readyState.value := by
  induction h with
  | refl => exact Nat.le_refl _
  | step action prior allowed last ih => exact Nat.le_trans ih (step_forward allowed last)

section Schedules
variable {ok : Resource → Action → Prop} [∀ r action, Decidable (ok r action)]

def runSchedule (decode : Decode) (ok : Resource → Action → Prop) [∀ r action, Decidable (ok r action)]
    (r : Resource) : List Action → Option Resource
  | [] => some r
  | action :: actions =>
    if ok r action then (r.step decode action).bind fun s => runSchedule decode ok s actions else none

theorem Runs.of_schedule {s : Resource} (actions : List Action) (h : Runs decode ok r s)
    (hRun : runSchedule decode ok s actions = some t) : Runs decode ok r t := by
  induction actions generalizing s with
  | nil => cases hRun; exact h
  | cons action actions ih =>
    simp only [runSchedule] at hRun
    split at hRun
    · rename_i hOk
      obtain ⟨next, hNext, hRest⟩ := Option.bind_eq_some_iff.mp hRun
      exact ih (h.step action hOk hNext) hRest
    · cases hRun

theorem exists_run (P : Resource → Prop) [DecidablePred P] (actions : List Action)
    (h : ((runSchedule decode ok r actions).any fun s => decide (P s)) = true) :
    ∃ s, Runs decode ok r s ∧ P s := by
  obtain ⟨s, hRun, hP⟩ := (Option.any_eq_true ..).mp h
  exact ⟨s, .of_schedule actions .refl hRun, of_decide_eq_true hP⟩

end Schedules

/-- The state never moves back. The writes that ended are those of the first calls, in the order of the
calls, and what was flushed for one of them are the bytes of its call, with its type. -/
theorem messages_of_calls (h : Runs decode Orderly .initial r) :
    (∀ t, Runs decode Orderly r t → r.m_readyState.value ≤ t.m_readyState.value) ∧
      r.finished.map Prod.fst <+: List.range r.calls.length ∧
      ∀ call flush, (call, some flush) ∈ r.finished →
        ∃ message, r.calls[call]? = some message ∧ message.flush decode = some flush := by
  obtain ⟨hSequenced, -, hFlushed⟩ := Resource.Inv.runs h
  refine ⟨fun t hRuns => hRuns.forward, ?_, hFlushed⟩
  rw [← hSequenced.order]
  exact List.prefix_append _ _

/-- The text `Aw==` is that of the byte 3. -/
def decodeThree : Decode := fun text => if text = [65, 119, 61, 61] then some [3] else none

/-- A text and a binary message are sent; a third is abandoned when the socket has closed. -/
theorem two_messages_sent :
    ∃ r, Runs decodeThree Orderly .initial r ∧
      r.finished = [(0, some ⟨.utf8, [1, 2]⟩), (1, some ⟨.binary, [3]⟩), (2, none)] ∧
        r.finished.map Prod.fst <+: List.range r.calls.length := by
  obtain ⟨r, hRuns, hFinished⟩ : ∃ r, Runs decodeThree Orderly .initial r ∧
      r.finished = [(0, some ⟨.utf8, [1, 2]⟩), (1, some ⟨.binary, [3]⟩), (2, none)] := exists_run _
    [.connect .accepted, .send [1, 2], .sendBinary [65, 119, 61, 61], .runBackground, .runTask .accepted,
      .runTask .accepted, .runCalling, .runBackground, .runBackground, .runTask .accepted,
      .runBackground, .runTask .accepted, .runTask .accepted, .runBackground, .runTask .accepted,
      .send [4], .onClosed, .runBackground, .runBackground, .runTask .accepted, .runBackground]
    (by decide)
  exact ⟨r, hRuns, hFinished, (messages_of_calls hRuns).2.1⟩

/-- A message that was sent too early is sent with the next one, and a state that was `Closed` is
`Closing` after a call of `Close`. -/
theorem merged_and_reopened :
    (∃ r, Runs decodeThree (fun _ _ => True) .initial r ∧
      r.calls = [⟨[1, 2], false⟩, ⟨[65, 119, 61, 61], true⟩] ∧
      r.finished = [(0, none), (1, some ⟨.binary, [1, 2, 3]⟩)]) ∧
    ∃ r, Runs decodeThree (fun _ _ => True) .initial r ∧ r.m_readyState = .closed ∧
      ∃ t, Runs decodeThree (fun _ _ => True) r t ∧ t.m_readyState = .closing := by
  constructor
  · exact exists_run _
      [.send [1, 2], .runBackground, .runTask .accepted, .runBackground, .connect .accepted,
        .sendBinary [65, 119, 61, 61], .runBackground, .runTask .accepted, .runTask .accepted, .runCalling,
        .runBackground, .runTask .accepted, .runBackground, .runTask .accepted]
      (by decide)
  · obtain ⟨r, hRuns, hClosed, hThen⟩ : ∃ r, Runs decodeThree (fun _ _ => True) .initial r ∧
        r.m_readyState = .closed ∧ ((runSchedule decodeThree (fun _ _ => True) r
          [.close 1000 "", .runBackground, .runTask .accepted, .runTask .accepted]).any
            fun t => decide (t.m_readyState = .closing)) = true :=
      exists_run _
        [.connect .accepted, .runBackground, .runTask .accepted, .runTask .accepted, .runCalling,
          .onClosed, .runBackground]
        (by decide)
    exact ⟨r, hRuns, hClosed, exists_run _ _ hThen⟩

end Networking.WinRTWebSocketResource
