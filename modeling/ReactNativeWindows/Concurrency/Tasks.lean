import Mathlib.Data.List.Forall2
import Mathlib.Logic.Relation

/-! Asynchronous tasks that take turns on a shared state, a limited number of them at a time, and
rules of pre- and postconditions for them. -/
namespace Concurrency

/-- A task as what it does in its next turn. Between two of its turns other tasks take theirs. -/
inductive Async (ε σ α : Type) : Type 1
  | done (value : α)
  | turn {Answer : Type} (act : σ → Except ε (σ × Answer)) (next : Answer → Async ε σ α)

variable {ε σ α β ι : Type}

namespace Async

def bind (task : Async ε σ α) (f : α → Async ε σ β) : Async ε σ β :=
  match task with
  | done value => f value
  | turn act next => turn act fun answer => (next answer).bind f

instance : Monad (Async ε σ) where
  pure := done
  bind := bind

def read (f : σ → Except ε α) : Async ε σ α := turn (fun s => (f s).map fun answer => (s, answer)) done

def write (f : σ → Except ε σ) : Async ε σ Unit := turn (fun s => (f s).map fun t => (t, ())) done

def throw (error : ε) : Async ε σ α :=
  turn (fun _ => .error error) (fun answer : Empty => answer.elim)

def unfinished : Async ε σ α → Bool
  | done _ => false
  | turn _ _ => true

def run : Async ε σ α → σ → Except ε (σ × α)
  | done value, s => .ok (s, value)
  | turn act next, s =>
    match act s with
    | .ok (t, answer) => (next answer).run t
    | .error error => .error error

def inOrder : List (Async ε σ α) → Async ε σ (List α)
  | [] => done []
  | task :: tasks => task.bind fun value => (inOrder tasks).bind fun values => done (value :: values)

/-- Lets tasks run together. The schedule names the one that takes the next turn, and what it
leaves is done in order. A task is started when fewer than `limit` of those before it are
unfinished. -/
def mapLimit (limit : ℕ) : List ℕ → List (Async ε σ α) → Async ε σ (List α)
  | [], tasks => inOrder tasks
  | i :: schedule, tasks =>
    match tasks[i]? with
    | some (turn act next) =>
      if (tasks.take i).countP unfinished < limit then
        turn act fun answer => mapLimit limit schedule (tasks.set i (next answer))
      else mapLimit limit schedule tasks
    | _ => mapLimit limit schedule tasks

def Stable (R : σ → σ → Prop) (P : σ → Prop) : Prop := ∀ ⦃s t⦄, R s t → P s → P t

/-- Every turn of the task is a step of `R`, and as long as the turns of the others are too, it
leads from `pre` to `post`. -/
def Meets (R : σ → σ → Prop) (post : α → σ → Prop) : Async ε σ α → (σ → Prop) → Prop
  | done value, pre => ∀ s, pre s → post value s
  | @turn _ _ _ Answer act next, pre =>
    ∃ mid : Answer → σ → Prop,
      (∀ s t answer, pre s → act s = .ok (t, answer) → R s t ∧ mid answer t) ∧
      ∀ answer, Stable R (mid answer) ∧ (next answer).Meets R post (mid answer)

variable {R : σ → σ → Prop} {pre pre' : σ → Prop} {post : α → σ → Prop}

namespace Meets

variable {task : Async ε σ α}

theorem weaken (h : task.Meets R post pre) (hPre : ∀ s, pre' s → pre s) :
    task.Meets R post pre' := by
  cases task with
  | done value => exact fun s hs => h s (hPre s hs)
  | turn act next =>
    obtain ⟨mid, hAct, hNext⟩ := h
    exact ⟨mid, fun s t answer hs => hAct s t answer (hPre s hs), hNext⟩

theorem bind {f : α → Async ε σ β} {last : β → σ → Prop} (h : task.Meets R post pre)
    (hNext : ∀ value, (f value).Meets R last (post value)) : (task.bind f).Meets R last pre := by
  induction task generalizing pre with
  | done value => exact (hNext value).weaken h
  | turn act next ih =>
    obtain ⟨mid, hAct, hMid⟩ := h
    exact ⟨mid, hAct, fun answer => ⟨(hMid answer).1, ih answer (hMid answer).2⟩⟩

theorem read {f : σ → Except ε α} (hRefl : ∀ s, R s s)
    (h : ∀ s answer, pre s → f s = .ok answer → post answer s)
    (hStable : ∀ answer, Stable R (post answer)) : (Async.read f).Meets R post pre := by
  refine ⟨post, fun s t answer hs hAct => ?_, fun answer => ⟨hStable answer, fun s hs => hs⟩⟩
  cases hRead : f s with
  | error error => simp [hRead, Except.map] at hAct
  | ok found =>
    simp only [hRead, Except.map, Except.ok.injEq, Prod.mk.injEq] at hAct
    obtain ⟨rfl, rfl⟩ := hAct
    exact ⟨hRefl s, h s _ hs hRead⟩

theorem write {f : σ → Except ε σ} {post : Unit → σ → Prop}
    (h : ∀ s t, pre s → f s = .ok t → R s t ∧ post () t) (hStable : Stable R (post ())) :
    (Async.write f).Meets R post pre := by
  refine ⟨post, fun s t answer hs hAct => ?_, fun answer => ⟨hStable, fun s hs => hs⟩⟩
  cases hWrite : f s with
  | error error => simp [hWrite, Except.map] at hAct
  | ok written =>
    simp only [hWrite, Except.map, Except.ok.injEq, Prod.mk.injEq] at hAct
    obtain ⟨rfl, -⟩ := hAct
    exact h s _ hs hWrite

theorem throw {error : ε} : (Async.throw error : Async ε σ α).Meets R post pre :=
  ⟨fun answer => answer.elim, fun _ _ answer => answer.elim, fun answer => answer.elim⟩

theorem exists_pre {κ : Type*} {pre : κ → σ → Prop} (h : ∀ k, task.Meets R post (pre k)) :
    task.Meets R post (fun s => ∃ k, pre k s) := by
  induction task generalizing pre with
  | done value =>
    rintro s ⟨k, hs⟩
    exact h k s hs
  | turn act next ih =>
    choose mid hAct hMid using h
    refine ⟨fun answer s => ∃ k, mid k answer s, ?_, fun answer => ⟨?_, ?_⟩⟩
    · rintro s t answer ⟨k, hs⟩ hTurn
      obtain ⟨hStep, hAnswer⟩ := hAct k s t answer hs hTurn
      exact ⟨hStep, k, hAnswer⟩
    · rintro s t hStep ⟨k, hs⟩
      exact ⟨k, (hMid k answer).1 hStep hs⟩
    · exact ih answer fun k => (hMid k answer).2

/-- What no turn changes stays beside the pre- and postcondition. -/
theorem frame {F : σ → Prop} (hStable : Stable R F) (h : task.Meets R post pre) :
    task.Meets R (fun value s => post value s ∧ F s) (fun s => pre s ∧ F s) := by
  induction task generalizing pre with
  | done value => exact fun s hs => ⟨h s hs.1, hs.2⟩
  | turn act next ih =>
    obtain ⟨mid, hAct, hMid⟩ := h
    refine ⟨fun answer s => mid answer s ∧ F s, fun s t answer hs hTurn => ?_, fun answer => ⟨?_, ?_⟩⟩
    · obtain ⟨hStep, hAnswer⟩ := hAct s t answer hs.1 hTurn
      exact ⟨hStep, hAnswer, hStable hStep hs.2⟩
    · exact fun s t hStep hs => ⟨(hMid answer).1 hStep hs.1, hStable hStep hs.2⟩
    · exact ih answer (hMid answer).2

/-- A task that runs undisturbed reaches its postcondition, by its own turns. -/
theorem run {s t : σ} {value : α} (h : task.Meets R post pre) (hs : pre s)
    (hRun : task.run s = .ok (t, value)) : post value t ∧ Relation.ReflTransGen R s t := by
  induction task generalizing pre s with
  | done found =>
    cases hRun
    exact ⟨h _ hs, .refl⟩
  | turn act next ih =>
    obtain ⟨mid, hAct, hMid⟩ := h
    rw [Async.run] at hRun
    split at hRun
    · rename_i u answer hTurn
      obtain ⟨hStep, hAnswer⟩ := hAct s u answer hs hTurn
      obtain ⟨hPost, hRest⟩ := ih answer (hMid answer).2 hAnswer hRun
      exact ⟨hPost, hRest.head hStep⟩
    · cases hRun

end Meets

def Ready (R : σ → σ → Prop) (post : ι → α → σ → Prop) (items : List ι) (tasks : List (Async ε σ α))
    (s : σ) : Prop :=
  List.Forall₂ (fun item task => ∃ P, (Stable R P ∧ task.Meets R (post item) P) ∧ P s) items tasks

variable {post : ι → α → σ → Prop} {items : List ι} {tasks : List (Async ε σ α)}

theorem Ready.stable : Stable R (Ready R post items tasks) := by
  intro s t hStep hReady
  apply List.Forall₂.imp _ hReady
  rintro item task ⟨P, ⟨hStable, hMeets⟩, hP⟩
  exact ⟨P, ⟨hStable, hMeets⟩, hStable hStep hP⟩

theorem Ready.set {s t : σ} {i : ℕ} {Answer : Type} {act : σ → Except ε (σ × Answer)}
    {next : Answer → Async ε σ α} {answer : Answer} (h : Ready R post items tasks s)
    (hGet : tasks[i]? = some (turn act next)) (hAct : act s = .ok (t, answer)) :
    R s t ∧ Ready R post items (tasks.set i (next answer)) t := by
  induction h generalizing i with
  | nil => cases hGet
  | @cons item task items tasks hHead hTail ih =>
    cases i with
    | zero =>
      obtain rfl := Option.some.inj hGet
      obtain ⟨P, ⟨-, mid, hMid, hNext⟩, hP⟩ := hHead
      obtain ⟨hStep, hAnswer⟩ := hMid s t answer hP hAct
      exact ⟨hStep, .cons ⟨mid answer, hNext answer, hAnswer⟩ (Ready.stable hStep hTail)⟩
    | succ i =>
      obtain ⟨hStep, hReady⟩ := ih hGet
      obtain ⟨P, ⟨hStable, hMeets⟩, hP⟩ := hHead
      exact ⟨hStep, .cons ⟨P, ⟨hStable, hMeets⟩, hStable hStep hP⟩ hReady⟩

theorem Meets.inOrder (hPost : ∀ item value, Stable R (post item value)) :
    (inOrder tasks).Meets R (fun values s => List.Forall₂ (post · · s) items values)
      (Ready R post items tasks) := by
  induction tasks generalizing items with
  | nil =>
    intro s hReady
    cases hReady
    exact .nil
  | cons task tasks ih =>
    cases items with
    | nil =>
      have hNever : (Async.inOrder (task :: tasks)).Meets R
          (fun values s => List.Forall₂ (post · · s) [] values)
          (fun _ => ∃ never : Empty, never.elim) :=
        exists_pre fun never => never.elim
      apply hNever.weaken
      intro s hReady
      cases hReady
    | cons item items =>
      have hFirst : task.Meets R (fun value s => post item value s ∧ Ready R post items tasks s)
          (fun s => (∃ P : { P // Stable R P ∧ task.Meets R (post item) P }, P.1 s) ∧
            Ready R post items tasks s) :=
        frame Ready.stable (exists_pre fun P => P.2.2)
      rw [Async.inOrder]
      apply bind (hFirst.weaken _)
      · intro value
        apply bind ((ih.frame (hPost item value)).weaken fun s hs => hs.symm)
        exact fun values s hs => .cons hs.2 hs.1
      · rintro s (_ | ⟨⟨P, hP, hs⟩, hReady⟩)
        exact ⟨⟨⟨P, hP⟩, hs⟩, hReady⟩

variable {schedule : List ℕ}

theorem Meets.mapLimit {limit : ℕ} (hPost : ∀ item value, Stable R (post item value)) :
    (mapLimit limit schedule tasks).Meets R (fun values s => List.Forall₂ (post · · s) items values)
      (Ready R post items tasks) := by
  induction schedule generalizing tasks with
  | nil => exact Meets.inOrder hPost
  | cons i schedule ih =>
    rw [Async.mapLimit]
    split
    · rename_i Answer act next hGet
      split
      · refine ⟨fun answer => Ready R post items (tasks.set i (next answer)), ?_, ?_⟩
        · exact fun s t answer hReady hAct => hReady.set hGet hAct
        · exact fun answer => ⟨Ready.stable, ih⟩
      · exact ih
    · exact ih

/-- Tasks that meet their postconditions while the others take their turns all do when they run
together. -/
theorem Meets.mapLimit_map {limit : ℕ} {task : ι → Async ε σ α} {pre : ι → σ → Prop}
    (hMeets : ∀ item ∈ items, (task item).Meets R (post item) (pre item))
    (hPre : ∀ item, Stable R (pre item)) (hPost : ∀ item value, Stable R (post item value)) :
    (Async.mapLimit limit schedule (items.map task)).Meets R
      (fun values s => List.Forall₂ (post · · s) items values) (fun s => ∀ item ∈ items, pre item s) := by
  apply (Meets.mapLimit hPost).weaken
  intro s hs
  rw [Ready, List.forall₂_map_right_iff, List.forall₂_same]
  exact fun item hItem => ⟨pre item, ⟨hPre item, hMeets item hItem⟩, hs item hItem⟩

end Async
end Concurrency
