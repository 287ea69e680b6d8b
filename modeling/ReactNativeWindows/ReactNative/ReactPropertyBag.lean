import Mathlib.Data.Fintype.Pi
import ReactNativeWindows.Concurrency.History
import ReactNativeWindows.Concurrency.Threads

/-! Property bags: maps under a mutex each, where an entry may hold null. Client
code creates the values of `GetOrCreate` outside of the lock. -/
namespace ReactNative.PropertyBag

open Concurrency

universe u v w

variable {Bag : Type u} {Name : Type v} {Value : Type w}

/-- A map entry is absent, null (`some none`) or a value. -/
abbrev Entries (Name : Type v) (Value : Type w) := Name → Option (Option Value)

/-- The operations with what they got from outside; `GetOrCreate` may have called
`createValue`, which returned `newValue`. -/
inductive Op (Bag : Type u) (Name : Type v) (Value : Type w) where
  | get (bag : Bag) (name : Name)
  | getOrCreate (bag : Bag) (name : Name) (newValue : Option Value)
  | set (bag : Bag) (name : Name) (value : Option Value)
  | copyFrom (bag other : Bag)
  deriving DecidableEq

/-- Calls before their first locked section, `GetOrCreate` before its call of
`createValue`, and before its second locked section. -/
inductive Frame (Bag : Type u) (Name : Type v) (Value : Type w) where
  | get (bag : Bag) (name : Name)
  | getOrCreate (bag : Bag) (name : Name)
  | createValue (bag : Bag) (name : Name)
  | store (bag : Bag) (name : Name) (newValue : Option Value)
  | set (bag : Bag) (name : Name) (value : Option Value)
  | copyFrom (bag other : Bag)

/-- `createValue` is client code: it calls other methods, and returns a value or null. -/
inductive Choice (Bag : Type u) (Name : Type v) (Value : Type w) where
  | go
  | callFromCreate (call : Frame Bag Name Value)
  | returnValue (newValue : Option Value)

structure Heap (Bag : Type u) (Name : Type v) (Value : Type w) where
  entries : Bag → Entries Name Value
  history : List (Op Bag Name Value × Option Value)

def Heap.initial : Heap Bag Name Value := ⟨fun _ _ => none, []⟩

/-- What clients may call. -/
def Frame.isCall : Frame Bag Name Value → Bool
  | get _ _ | getOrCreate _ _ | set _ _ _ | copyFrom _ _ => true
  | createValue _ _ | store _ _ _ => false

section Exec
variable [DecidableEq Bag] [DecidableEq Name]

def Heap.setEntry (h : Heap Bag Name Value) (bag : Bag) (name : Name)
    (entry : Option (Option Value)) : Heap Bag Name Value :=
  { h with entries := Function.update h.entries bag (Function.update (h.entries bag) name entry) }

def Heap.setEntries (h : Heap Bag Name Value) (bag : Bag) (entries : Entries Name Value) :
    Heap Bag Name Value :=
  { h with entries := Function.update h.entries bag entries }

def Heap.log (h : Heap Bag Name Value) (op : Op Bag Name Value) (result : Option Value) :
    Heap Bag Name Value :=
  { h with history := (op, result) :: h.history }

/-- `Get`, where a null entry reads as an absent one. -/
def Heap.read (h : Heap Bag Name Value) (bag : Bag) (name : Name) : Option Value :=
  match h.entries bag name with
  | some entry => entry
  | none => none

/-- `std::map::emplace` of all entries of `other`: entries that are there stay. -/
def emplaceAll (entries other : Entries Name Value) : Entries Name Value :=
  fun name => match entries name with
    | some entry => some entry
    | none => other name

@[grind =]
def exec (h : Heap Bag Name Value) (frame : Frame Bag Name Value)
    (choice : Choice Bag Name Value) :
    Option (Outcome (Heap Bag Name Value) (Frame Bag Name Value) String) :=
  match frame with
  | .get bag name =>
    let result := h.read bag name
    some (.next (h.log (.get bag name) result) [] [])
  | .getOrCreate bag name =>
    match h.read bag name with
    | some result => some (.next (h.log (.getOrCreate bag name none) (some result)) [] [])
    | none => some (.next h [.createValue bag name] [])
  | .createValue bag name =>
    match choice with
    | .callFromCreate call => if call.isCall then some (.next h [call, frame] []) else none
    | .returnValue newValue => some (.next h [.store bag name newValue] [])
    | .go => none
  | .store bag name newValue =>
    -- `m_entries[propertyName]` leaves a null entry behind when there is none.
    let entry := match h.read bag name with
      | some value => some value
      | none => newValue
    some (.next ((h.setEntry bag name (some entry)).log (.getOrCreate bag name newValue) entry)
      [] [])
  | .set bag name value =>
    let result := h.read bag name
    let entry := match value with
      | some value => some (some value)
      | none => none
    some (.next ((h.setEntry bag name entry).log (.set bag name value) result) [] [])
  | .copyFrom bag other =>
    if bag = other then
      some (.crash "resource deadlock would occur")
    else
      let entries := emplaceAll (h.entries bag) (h.entries other)
      some (.next ((h.setEntries bag entries).log (.copyFrom bag other) none) [] [])

def propertyBags :
    Machine (Heap Bag Name Value) (Frame Bag Name Value) (Choice Bag Name Value) String where
  exec := exec
  start h frame := if frame.isCall then some h else none

/-- Abstract maps, in which absent names read as null. -/
abbrev Maps (Bag : Type u) (Name : Type v) (Value : Type w) := Bag → Name → Option Value

def Maps.apply (maps : Maps Bag Name Value) : Op Bag Name Value → Maps Bag Name Value × Option Value
  | .get bag name => (maps, maps bag name)
  | .getOrCreate bag name newValue =>
    let value := (maps bag name).or newValue
    (Function.update maps bag (Function.update (maps bag) name value), value)
  | .set bag name value =>
    (Function.update maps bag (Function.update (maps bag) name value), maps bag name)
  | .copyFrom bag other =>
    (Function.update maps bag fun name => (maps bag name).or (maps other name), none)

end Exec

/-- `CopyFrom` finds no null entry in the place of a value, and no bag is its own source. -/
def CopiesValues (h : Heap Bag Name Value) (frame : Frame Bag Name Value)
    (_ : Multiset (Frame Bag Name Value)) : Prop :=
  match frame with
  | .copyFrom bag other => bag ≠ other ∧
      ∀ name, h.entries bag name = some none → h.read other name = none
  | _ => True

instance [DecidableEq Bag] [Fintype Name] [DecidableEq Value] (h : Heap Bag Name Value)
    (frame : Frame Bag Name Value) (F : Multiset (Frame Bag Name Value)) :
    Decidable (CopiesValues h frame F) := by
  unfold CopiesValues
  split <;> infer_instance

section Refinement
variable [DecidableEq Bag] [DecidableEq Name] (h : Heap Bag Name Value)

omit [DecidableEq Bag] [DecidableEq Name] in
@[simp] theorem log_read (op : Op Bag Name Value) (result : Option Value) :
    (h.log op result).read = h.read := rfl

@[simp] theorem setEntry_read (bag : Bag) (name : Name) (entry : Option (Option Value)) :
    (h.setEntry bag name entry).read =
      Function.update h.read bag (Function.update (h.read bag) name (entry.getD none)) := by
  funext b n
  by_cases hBag : b = bag
  · subst hBag
    by_cases hName : n = name
    · subst hName
      cases entry <;> simp [Heap.read, Heap.setEntry]
    · simp [Heap.read, Heap.setEntry, hName]
  · simp [Heap.read, Heap.setEntry, hBag]

omit [DecidableEq Name] in
theorem emplaceAll_read {bag other : Bag}
    (hNull : ∀ name, h.entries bag name = some none → h.read other name = none) :
    (h.setEntries bag (emplaceAll (h.entries bag) (h.entries other))).read =
      Function.update h.read bag fun name => (h.read bag name).or (h.read other name) := by
  funext b n
  by_cases hBag : b = bag
  · subst hBag
    have hNull := hNull n
    simp only [Heap.read, Heap.setEntries, emplaceAll, Function.update_self] at hNull ⊢
    cases hEntry : h.entries b n with
    | none => simp
    | some value =>
      cases value with
      | none => simp [hNull hEntry]
      | some value => simp
  · simp [Heap.read, Heap.setEntries, hBag]

variable {frame : Frame Bag Name Value} {choice : Choice Bag Name Value}
  {F : Multiset (Frame Bag Name Value)}

/-- Every locked section that ends an operation answers as the abstract map does. -/
theorem exec_replays {h' : Heap Bag Name Value} {calls forks : List (Frame Bag Name Value)}
    {initial : Maps Bag Name Value} (hReplays : Replays Maps.apply initial h.history h.read)
    (hOk : CopiesValues h frame F) (hExec : exec h frame choice = some (.next h' calls forks)) :
    Replays Maps.apply initial h'.history h'.read := by
  cases frame with
  | get bag name =>
    cases hExec
    exact .cons hReplays rfl
  | getOrCreate bag name =>
    simp only [exec] at hExec
    split at hExec <;> cases hExec
    · rename_i result hRead
      refine .cons hReplays ?_
      simp only [Maps.apply, hRead, Option.some_or, log_read, Prod.mk.injEq, and_true]
      rw [← hRead, Function.update_eq_self, Function.update_eq_self]
    · exact hReplays
  | createValue bag name =>
    cases choice with
    | callFromCreate call =>
      simp only [exec] at hExec
      split at hExec <;> cases hExec
      exact hReplays
    | returnValue newValue =>
      cases hExec
      exact hReplays
    | go => cases hExec
  | store bag name newValue =>
    cases hExec
    refine .cons hReplays ?_
    cases hRead : h.read bag name <;> simp [Maps.apply, hRead]
  | set bag name value =>
    cases hExec
    refine .cons hReplays ?_
    cases value <;> simp [Maps.apply]
  | copyFrom bag other =>
    simp only [exec, if_neg hOk.1] at hExec
    cases hExec
    refine .cons hReplays ?_
    rw [log_read, emplaceAll_read h hOk.2]
    rfl

/-- Only `CopyFrom` of a bag into itself locks a mutex twice. -/
theorem exec_ne_crash {why : String} (hOk : CopiesValues h frame F) :
    exec h frame choice ≠ some (.crash why) := by
  intro hExec
  cases frame with
  | copyFrom bag other =>
    simp only [exec, if_neg hOk.1] at hExec
    cases hExec
  | getOrCreate | createValue =>
    simp only [exec] at hExec
    split at hExec
    all_goals first | cases hExec | (split at hExec <;> cases hExec)
  | get | store | set => cases hExec

end Refinement

section Runs
variable [DecidableEq Bag] [DecidableEq Name]

theorem replays_invariant : Machine.Invariant propertyBags CopiesValues
    (Heap.initial : Heap Bag Name Value)
    fun h _ => Replays Maps.apply (fun _ _ => none) h.history h.read where
  initial := .nil
  start {h h' frame F} hReplays hStart := by
    simp only [propertyBags] at hStart
    split at hStart <;> cases hStart
    exact hReplays
  exec hReplays hOk hExec := exec_replays _ hReplays hOk hExec

def Op.isGetOrCreate (bag : Bag) (name : Name) : Op Bag Name Value → Prop
  | getOrCreate b n _ => b = bag ∧ n = name
  | _ => False

def Op.isSet (bag : Bag) (name : Name) : Op Bag Name Value → Prop
  | set b n _ => b = bag ∧ n = name
  | _ => False

variable {op : Op Bag Name Value}

/-- Only `Set` changes a value. -/
theorem apply_keeps {maps : Maps Bag Name Value} {bag : Bag} {name : Name} {value : Value}
    (hValue : maps bag name = some value) (hNotSet : ¬op.isSet bag name) :
    (Maps.apply maps op).1 bag name = some value := by
  cases op with
  | get => exact hValue
  | getOrCreate b n newValue | copyFrom b n =>
    by_cases hBag : bag = b
    · subst hBag
      simp [Maps.apply, Function.update_apply, hValue]
      try (rintro rfl; simp [hValue])
    · simp [Maps.apply, hBag, hValue]
  | set b n v =>
    have hOther : ¬(bag = b ∧ name = n) := fun hBoth => hNotSet ⟨hBoth.1.symm, hBoth.2.symm⟩
    by_cases hBag : bag = b
    · subst hBag
      have hName : name ≠ n := fun hSame => hOther ⟨rfl, hSame⟩
      simp [Maps.apply, hName, hValue]
    · simp [Maps.apply, hBag, hValue]

theorem apply_getOrCreate {maps maps' : Maps Bag Name Value} {bag : Bag} {name : Name}
    {result : Option Value} (hOp : op.isGetOrCreate bag name)
    (hApply : Maps.apply maps op = (maps', result)) :
    maps' bag name = result ∧ ∀ value, maps bag name = some value → result = some value := by
  cases op with
  | getOrCreate b n newValue =>
    obtain ⟨rfl, rfl⟩ := hOp
    cases hApply
    refine ⟨by simp, fun value hValue => by simp [hValue]⟩
  | get | set | copyFrom => cases hOp

/-- Property bags are abstract maps, and hand out one value for a name: without a `Set`
in between, each `GetOrCreate` returns what an earlier one returned, if that was not null. -/
theorem propertyBags_refine_maps
    {s : Config (Heap Bag Name Value) (Frame Bag Name Value) String}
    (hs : Machine.Reachable propertyBags CopiesValues .initial s) :
    s.crashed = none ∧
    Replays Maps.apply (fun _ _ => none) s.heap.history s.heap.read ∧
    ∀ bag name value after between before first second result,
      s.heap.history = after ++ (second, result) :: between ++ (first, some value) :: before →
      first.isGetOrCreate bag name → second.isGetOrCreate bag name →
      (∀ event ∈ between, ¬event.1.isSet bag name) → result = some value := by
  have hReplays := replays_invariant.reachable hs
  refine ⟨?_, hReplays, ?_⟩
  · refine Option.eq_none_iff_forall_ne_some.mpr ?_
    refine replays_invariant.crash (P := fun _ => False) ?_ hs
    intro h frame F choice why hInv hOk hExec
    exact exec_ne_crash h hOk hExec
  · intro bag name value after between before first second result hHistory hFirst hSecond hNone
    rw [hHistory, List.append_assoc] at hReplays
    obtain ⟨t, hUntil, -⟩ := hReplays.stretch (P := fun _ => True) fun _ _ _ _ => trivial
    cases hUntil with
    | cons hBetween hApplied =>
      obtain ⟨u, hCreated, hKept⟩ := hBetween.stretch (P := fun maps => maps bag name = some value)
        fun event hMem maps hValue => apply_keeps hValue (hNone event hMem)
      cases hCreated with
      | cons hBefore hCreate =>
        exact (apply_getOrCreate hSecond hApplied).2 value
          (hKept (apply_getOrCreate hFirst hCreate).1)

end Runs

section Witnesses

/-- Two threads create a value for a name, and both get the first one that is stored. -/
theorem getOrCreate_same_value :
    ∃ s : Config (Heap (Fin 2) (Fin 2) Nat) (Frame (Fin 2) (Fin 2) Nat) String,
      s.heap.history = [(.getOrCreate 0 0 (some 8), some 7), (.getOrCreate 0 0 (some 7), some 7)] ∧
      s.crashed = none ∧
      Replays Maps.apply (fun _ _ => none) s.heap.history s.heap.read := by
  obtain ⟨s, hs, hHistory⟩ := Machine.exists_reachable
    (fun s : Config (Heap (Fin 2) (Fin 2) Nat) (Frame (Fin 2) (Fin 2) Nat) String =>
      s.heap.history = [(.getOrCreate 0 0 (some 8), some 7), (.getOrCreate 0 0 (some 7), some 7)])
    [.call (.getOrCreate 0 0), .call (.getOrCreate 0 0), .run 0 .go, .run 1 .go,
      .run 0 (.returnValue (some 7)), .run 1 (.returnValue (some 8)), .run 0 .go, .run 1 .go]
    (by decide : (Option.any _ (propertyBags.runSchedule CopiesValues (.initial .initial) _)) = true)
  exact ⟨s, hHistory, (propertyBags_refine_maps hs).1, (propertyBags_refine_maps hs).2.1⟩

/-- A creator that returns null leaves an entry that `CopyFrom` does not replace: no
abstract map gives these results. -/
theorem copyFrom_keeps_null :
    ∃ s : Config (Heap (Fin 2) (Fin 2) Nat) (Frame (Fin 2) (Fin 2) Nat) String,
      Machine.Reachable propertyBags Always .initial s ∧ s.Quiet ∧
      ¬∃ maps, Replays Maps.apply (fun _ _ => none) s.heap.history maps := by
  obtain ⟨s, hs, hQuiet, hHistory⟩ := Machine.exists_reachable
    (fun s : Config (Heap (Fin 2) (Fin 2) Nat) (Frame (Fin 2) (Fin 2) Nat) String =>
      s.Quiet ∧ s.heap.history = [(.get 0 0, none), (.copyFrom 0 1, none),
        (.set 1 0 (some 7), none), (.getOrCreate 0 0 none, none)])
    [.call (.getOrCreate 0 0), .run 0 .go, .run 0 (.returnValue none), .run 0 .go,
      .call (.set 1 0 (some 7)), .run 1 .go, .call (.copyFrom 0 1), .run 2 .go,
      .call (.get 0 0), .run 3 .go]
    (by decide : (Option.any _ (propertyBags.runSchedule Always (.initial .initial) _)) = true)
  refine ⟨s, hs, hQuiet, ?_⟩
  rw [hHistory]
  rintro ⟨maps, hReplays⟩
  cases hReplays with
  | cons hCopied hGet =>
    cases hCopied with
    | cons hSet hCopy =>
      cases hSet with
      | cons hCreated hSet =>
        cases hCreated with
        | cons hEmpty hCreate =>
          cases hEmpty
          cases hCreate
          cases hSet
          cases hCopy
          have hRead := (Prod.mk.inj hGet).2
          exact absurd hRead (by decide)

end Witnesses

end ReactNative.PropertyBag
