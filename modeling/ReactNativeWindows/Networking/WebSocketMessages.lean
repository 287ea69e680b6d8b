import Mathlib.Data.List.Basic
import ReactNativeWindows.Networking.WinRTWebSocketResource

/-! Every message that the socket sends is that of one call, and they are sent in the order of the
calls. -/
namespace Networking.WinRTWebSocketResource

/-- The write that a task or an item of the background queue is about. -/
def SequencedTask.writes : SequencedTask → Option (ℕ × Message)
  | write call message | writing call message | storing call message => some (call, message)
  | _ => none

def BackgroundItem.writes : BackgroundItem → Option (ℕ × Message)
  | queueTask task => task.writes
  | _ => none

def SequencedTask.isNew : SequencedTask → Bool
  | connect | write _ _ | close => true
  | _ => false

def SequencedTask.isWriting : SequencedTask → Bool
  | writing _ _ => true
  | _ => false

/-- Whether the task in progress waits for the background queue. -/
def isWriting : List SequencedTask → Bool
  | [] => false
  | task :: _ => task.isWriting

def unfinished (tasks : List SequencedTask) (items : List BackgroundItem) : List (ℕ × Message) :=
  tasks.filterMap SequencedTask.writes ++ items.filterMap BackgroundItem.writes

/-- The sequencer and the background queue have all writes that have not ended, in the order of the
calls; only the first task has started, and only it may be resumed by the background queue. -/
structure Sequenced (tasks : List SequencedTask) (items : List BackgroundItem)
    (finished : List (ℕ × Option Flush)) (calls : List Message) : Prop where
  order : finished.map Prod.fst ++ (unfinished tasks items).map Prod.fst = List.range calls.length
  known : ∀ write ∈ unfinished tasks items, calls[write.1]? = some write.2
  waiting : ∀ task ∈ tasks.tail, task.isNew = true
  posted : ∀ task, .queueTask task ∈ items → task.isNew = true
  resumes : items.count .resumeWrite = (isWriting tasks).toNat

section Sequenced
variable {task next : SequencedTask} {tasks : List SequencedTask} {item : BackgroundItem}
  {items : List BackgroundItem} {finished : List (ℕ × Option Flush)} {calls : List Message}
  {call : ℕ} {message : Message}

theorem isWriting_of_isNew (hNew : ∀ task ∈ tasks, task.isNew = true) : isWriting tasks = false := by
  cases tasks with
  | nil => rfl
  | cons task tasks =>
    have hTask := hNew task List.mem_cons_self
    cases task <;> first
      | rfl
      | cases hTask

theorem Sequenced.post (h : Sequenced tasks items finished calls) (hWrites : item.writes = none)
    (hNew : ∀ task, item = .queueTask task → task.isNew = true) (hResume : item ≠ .resumeWrite) :
    Sequenced tasks (items ++ [item]) finished calls := by
  have hSame : unfinished tasks (items ++ [item]) = unfinished tasks items := by
    simp [unfinished, hWrites]
  refine ⟨?_, ?_, h.waiting, fun task hMem => ?_, ?_⟩
  · rw [hSame, h.order]
  · rw [hSame]
    exact h.known
  · rcases List.mem_append.mp hMem with hMem | hMem
    · exact h.posted task hMem
    · exact hNew task (List.mem_singleton.mp hMem).symm
  · rw [List.count_append, h.resumes, List.count_singleton, beq_eq_false_iff_ne.mpr hResume]
    rfl

/-- A call of `Send` or `SendBinary`. -/
theorem Sequenced.enqueueWrite (h : Sequenced tasks items finished calls) :
    Sequenced tasks (items ++ [.queueTask (.write calls.length message)]) finished
      (calls ++ [message]) := by
  have hMore : unfinished tasks (items ++ [.queueTask (.write calls.length message)]) =
      unfinished tasks items ++ [(calls.length, message)] := by
    simp [unfinished, BackgroundItem.writes, SequencedTask.writes]
  refine ⟨?_, fun write hMem => ?_, h.waiting, fun task hMem => ?_, ?_⟩
  · rw [hMore, List.map_append, ← List.append_assoc, h.order, List.length_append,
      List.length_singleton, List.range_succ]
    rfl
  · rw [hMore] at hMem
    rcases List.mem_append.mp hMem with hMem | hMem
    · have hKnown := h.known write hMem
      rwa [List.getElem?_append_left (List.getElem?_eq_some_iff.mp hKnown).1]
    · rw [List.mem_singleton.mp hMem]
      exact List.getElem?_concat_length ..
  · rcases List.mem_append.mp hMem with hMem | hMem
    · exact h.posted task hMem
    · cases List.mem_singleton.mp hMem
      rfl
  · rw [List.count_append, h.resumes]
    rfl

/-- The task in progress goes on. -/
theorem Sequenced.replace (h : Sequenced (task :: tasks) items finished calls)
    (hWrites : next.writes = task.writes) (hWriting : next.isWriting = task.isWriting) :
    Sequenced (next :: tasks) items finished calls := by
  have hSame : unfinished (next :: tasks) items = unfinished (task :: tasks) items := by
    simp only [unfinished, List.filterMap_cons, hWrites]
  refine ⟨?_, ?_, h.waiting, h.posted, ?_⟩
  · rw [hSame, h.order]
  · rw [hSame]
    exact h.known
  · rw [h.resumes, isWriting, isWriting, hWriting]

theorem Sequenced.start (h : Sequenced (.write call message :: tasks) items finished calls) :
    Sequenced (.writing call message :: tasks) (items ++ [.resumeWrite]) finished calls := by
  have hSame : unfinished (.writing call message :: tasks) (items ++ [.resumeWrite]) =
      unfinished (.write call message :: tasks) items := by
    simp [unfinished, SequencedTask.writes, BackgroundItem.writes]
  refine ⟨?_, ?_, h.waiting, fun task hMem => ?_, ?_⟩
  · rw [hSame, h.order]
  · rw [hSame]
    exact h.known
  · rcases List.mem_append.mp hMem with hMem | hMem
    · exact h.posted task hMem
    · cases List.mem_singleton.mp hMem
  · rw [List.count_append, h.resumes]
    rfl

theorem Sequenced.exists_writing (h : Sequenced tasks (.resumeWrite :: items) finished calls) :
    ∃ call message rest, tasks = .writing call message :: rest := by
  have hOne := h.resumes
  rw [List.count_cons_self] at hOne
  cases tasks with
  | nil => cases hOne
  | cons task rest =>
    cases task with
    | writing call message => exact ⟨call, message, rest, rfl⟩
    | _ => cases hOne

theorem Sequenced.resume
    (h : Sequenced (.writing call message :: tasks) (.resumeWrite :: items) finished calls) :
    Sequenced (.storing call message :: tasks) items finished calls := by
  refine ⟨h.order, h.known, h.waiting, fun task hMem => h.posted task (List.mem_cons_of_mem _ hMem), ?_⟩
  have hOne := h.resumes
  rw [List.count_cons_self] at hOne
  exact Nat.succ_injective hOne

/-- The task in progress ends, and is no write. -/
theorem Sequenced.drop (h : Sequenced (task :: tasks) items finished calls)
    (hWrites : task.writes = none) (hWriting : task.isWriting = false) :
    Sequenced tasks items finished calls := by
  have hSame : unfinished (task :: tasks) items = unfinished tasks items := by
    simp only [unfinished, List.filterMap_cons_none hWrites]
  refine ⟨?_, ?_, fun task hMem => h.waiting task (List.mem_of_mem_tail hMem), h.posted, ?_⟩
  · rw [← hSame, h.order]
  · rw [← hSame]
    exact h.known
  · have hRest : isWriting tasks = false := isWriting_of_isNew h.waiting
    rw [h.resumes, isWriting, hWriting, hRest]

theorem Sequenced.finish (h : Sequenced (.storing call message :: tasks) items finished calls)
    (flushed : Option Flush) : Sequenced tasks items (finished ++ [(call, flushed)]) calls := by
  refine ⟨?_, fun write hMem => h.known write (List.mem_cons_of_mem _ hMem),
    fun task hMem => h.waiting task (List.mem_of_mem_tail hMem), h.posted, ?_⟩
  · rw [← h.order, List.map_append, List.append_assoc]
    rfl
  · have hRest : isWriting tasks = false := isWriting_of_isNew h.waiting
    rw [h.resumes, hRest]
    rfl

theorem Sequenced.queue (h : Sequenced tasks (.queueTask task :: items) finished calls) :
    Sequenced (tasks ++ [task]) items finished calls := by
  have hNew := h.posted task List.mem_cons_self
  have hSame : unfinished (tasks ++ [task]) items = unfinished tasks (.queueTask task :: items) := by
    simp only [unfinished, List.filterMap_append, List.filterMap_cons, List.filterMap_nil,
      BackgroundItem.writes, List.append_assoc]
    cases task.writes <;> rfl
  refine ⟨?_, ?_, ?_, fun other hMem => h.posted other (List.mem_cons_of_mem _ hMem), ?_⟩
  · rw [hSame, h.order]
  · rw [hSame]
    exact h.known
  · intro other hMem
    cases tasks with
    | nil => cases hMem
    | cons first rest =>
      rcases List.mem_append.mp hMem with hMem | hMem
      · exact h.waiting other hMem
      · rwa [List.mem_singleton.mp hMem]
  · have hResumes := h.resumes
    rw [List.count_cons_of_ne (by nofun)] at hResumes
    rw [hResumes]
    cases tasks with
    | nil =>
      have hTask : isWriting [task] = false :=
        isWriting_of_isNew fun other hMem => List.mem_singleton.mp hMem ▸ hNew
      rw [List.nil_append, hTask]
      rfl
    | cons first rest => rfl

theorem Sequenced.pop (h : Sequenced tasks (item :: items) finished calls)
    (hWrites : item.writes = none) (hResume : item ≠ .resumeWrite) :
    Sequenced tasks items finished calls := by
  have hSame : unfinished tasks (item :: items) = unfinished tasks items := by
    simp only [unfinished, List.filterMap_cons_none hWrites]
  refine ⟨?_, ?_, h.waiting, fun task hMem => h.posted task (List.mem_cons_of_mem _ hMem), ?_⟩
  · rw [← hSame, h.order]
  · rw [← hSame]
    exact h.known
  · rw [← h.resumes, List.count_cons_of_ne hResume]

end Sequenced

/-- The state is `Open` no more, and will not be again. -/
def Shut (state : ReadyState) : Prop := state = .closing ∨ state = .closed

def BackgroundItem.isFail : BackgroundItem → Bool
  | fail _ _ => true
  | _ => false

def BackgroundItem.isResume : BackgroundItem → Bool
  | resumeWrite => true
  | _ => false

/-- The state is `Open` no more, at the latest when the write in progress goes on. -/
def Doomed (state : ReadyState) (items : List BackgroundItem) : Prop :=
  Shut state ∨ ∃ item ∈ items.takeWhile fun item => !item.isResume, item.isFail = true

section Doomed
variable {state : ReadyState} {item : BackgroundItem} {items : List BackgroundItem}

theorem Doomed.append (h : Doomed state items) (more : List BackgroundItem) :
    Doomed state (items ++ more) := by
  rcases h with hShut | ⟨item, hMem, hFail⟩
  · exact .inl hShut
  · right
    use item
    rw [List.takeWhile_append]
    split
    · exact ⟨List.mem_append_left _ ((List.takeWhile_sublist _).subset hMem), hFail⟩
    · exact ⟨hMem, hFail⟩

theorem Doomed.shut (h : Doomed state (.resumeWrite :: items)) : Shut state := by
  rcases h with hShut | ⟨item, hMem, hFail⟩
  · exact hShut
  · cases hMem

theorem Doomed.pop (h : Doomed state (item :: items)) (hFail : item.isFail = false) :
    Doomed state items := by
  rcases h with hShut | ⟨other, hMem, hOther⟩
  · exact .inl hShut
  · rw [List.takeWhile_cons] at hMem
    split at hMem
    · rcases List.mem_cons.mp hMem with rfl | hMem
      · rw [hFail] at hOther
        cases hOther
      · exact .inr ⟨other, hMem, hOther⟩
    · cases hMem

/-- A failure is posted while no write waits for the background queue. -/
theorem doomed_fail (state : ReadyState) (hNone : items.count .resumeWrite = 0) (error : String)
    (type : ErrorType) (more : List BackgroundItem) : Doomed state (items ++ .fail error type :: more) := by
  right
  use .fail error type
  rw [List.takeWhile_append_of_pos]
  · exact ⟨List.mem_append_right _ List.mem_cons_self, rfl⟩
  · intro item hMem
    cases item with
    | resumeWrite => exact absurd hMem (List.count_eq_zero.mp hNone)
    | _ => rfl

end Doomed

variable (decode : Decode)

/-- The writer has the bytes of the write in progress and nothing else, or nothing will be sent. -/
def Clean (r : Resource) : Prop :=
  match r.m_sequencer with
  | .writing _ message :: _ =>
    message.flush decode = some ⟨r.messageType, r.m_writer⟩ ∨
      Doomed r.m_readyState r.m_backgroundQueue
  | .storing _ message :: _ => message.flush decode = some ⟨r.messageType, r.m_writer⟩
  | _ => r.m_writer = [] ∨ Doomed r.m_readyState r.m_backgroundQueue

structure Resource.Inv (r : Resource) : Prop where
  sequenced : Sequenced r.m_sequencer r.m_backgroundQueue r.finished r.calls
  clean : Clean decode r
  flushed : ∀ call flush, (call, some flush) ∈ r.finished →
    ∃ message, r.calls[call]? = some message ∧ message.flush decode = some flush

end Networking.WinRTWebSocketResource
