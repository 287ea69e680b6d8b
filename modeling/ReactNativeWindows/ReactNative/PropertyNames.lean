import ReactNativeWindows.Control.Traces

/-! Property names and their namespaces. Tables refer to them weakly: an object is alive as long as a client, a
call in progress or, for a namespace, a name that is alive refers to it. -/
namespace ReactNative.PropertyNames

open Control (Throughout)

abbrev NamespaceId := ℕ
abbrev NameId := ℕ
abbrev TableId := ℕ

/-- All objects with their data, and the tables. Those of the namespaces are `s_namespaces`, whose pointer is
published by a compare-exchange, and `s_globalNamespace`. Each namespace has its own table of local names. -/
structure Heap where
  namespaceNames : NamespaceId → String
  nextNamespace : NamespaceId
  names : NameId → NamespaceId × String
  nextName : NameId
  namespaces : Option TableId
  nextTable : TableId
  namespaceTables : TableId → String → Option NamespaceId
  globalNamespace : Option NamespaceId
  localNames : NamespaceId → String → Option NameId

namespace Heap

def empty : Heap where
  namespaceNames _ := ""
  nextNamespace := 0
  names _ := (0, "")
  nextName := 0
  namespaces := none
  nextTable := 0
  namespaceTables _ _ := none
  globalNamespace := none
  localNames _ _ := none

variable (h : Heap)

def makeTable : Heap := { h with nextTable := h.nextTable + 1 }

def publishTable (table : TableId) : Heap := { h with namespaces := some table }

def makeNamespace (namespaceName : String) : Heap :=
  { h with
    namespaceNames := Function.update h.namespaceNames h.nextNamespace namespaceName
    nextNamespace := h.nextNamespace + 1 }

def makeName (ns : NamespaceId) (localName : String) : Heap :=
  { h with
    names := Function.update h.names h.nextName (ns, localName)
    nextName := h.nextName + 1 }

def setNamespace (table : TableId) (namespaceName : String) (value : NamespaceId) : Heap :=
  let entries := Function.update (h.namespaceTables table) namespaceName (some value)
  { h with namespaceTables := Function.update h.namespaceTables table entries }

def setGlobalNamespace (value : NamespaceId) : Heap := { h with globalNamespace := some value }

def setLocalName (ns : NamespaceId) (localName : String) (value : NameId) : Heap :=
  let entries := Function.update (h.localNames ns) localName (some value)
  { h with localNames := Function.update h.localNames ns entries }

end Heap

/-- Where a call stands, with its local variables: before the load of `s_namespaces` and before its exchange,
before the two locked sections of `GetOrCreate` and `GlobalNamespace`, before the value is released that
another one was found for, and before it returns. `GlobalNamespace` goes on to a local name in a `GetName`
without a namespace. -/
inductive Call where
  | loadNamespaces (namespaceName : String)
  | exchangeNamespaces (namespaceName : String) (newNamespaces : TableId)
  | findNamespace (namespaceName : String) (namespaces : TableId)
  | storeNamespace (namespaceName : String) (namespaces : TableId) (newValue : NamespaceId)
  | findGlobal (localName : Option String)
  | storeGlobal (localName : Option String) (newValue : NamespaceId)
  | dropNamespace (newValue : NamespaceId) (result : NamespaceId) (localName : Option String)
  | returnNamespace (result : NamespaceId)
  | findName (ns : NamespaceId) (localName : String)
  | storeName (ns : NamespaceId) (localName : String) (newValue : NameId)
  | dropName (ns : NamespaceId) (newValue result : NameId)
  | returnName (ns : NamespaceId) (result : NameId)

namespace Call

/-- The namespaces to which the call refers: one it was given or has found, and one it has made. -/
def namespaces : Call → List NamespaceId
  | .storeNamespace _ _ newValue | .storeGlobal _ newValue => [newValue]
  | .dropNamespace newValue result _ => [newValue, result]
  | .returnNamespace result => [result]
  | .findName ns _ | .storeName ns _ _ | .dropName ns _ _ | .returnName ns _ => [ns]
  | .loadNamespaces _ | .exchangeNamespaces _ _ | .findNamespace _ _ | .findGlobal _ => []

/-- The name that the call has made, until it has taken it for its result or released it. -/
def newName : Call → List NameId
  | .storeName _ _ newValue | .dropName _ newValue _ => [newValue]
  | _ => []

def result : Call → List NameId
  | .dropName _ _ result | .returnName _ result => [result]
  | _ => []

end Call

structure State where
  heap : Heap
  calls : List Call
  heldNamespaces : List NamespaceId
  heldNames : List NameId

namespace State

variable (s : State)

def initial : State := ⟨.empty, [], [], []⟩

/-- The names that clients hold and that calls return. Any other name that is alive is one that a call in
progress has made, and that no one else can refer to. -/
def sharedNames : List NameId := s.heldNames ++ s.calls.flatMap Call.result

def aliveNames : List NameId := s.sharedNames ++ s.calls.flatMap Call.newName

def aliveNamespaces : List NamespaceId :=
  s.heldNamespaces ++ s.calls.flatMap Call.namespaces ++ s.aliveNames.map fun name => (s.heap.names name).1

/-- `weak_ref::get`. -/
def getNamespace (reference : Option NamespaceId) : Option NamespaceId :=
  reference.filter fun ns => ns ∈ s.aliveNamespaces

def getName (reference : Option NameId) : Option NameId :=
  reference.filter fun name => name ∈ s.aliveNames

end State

inductive Next where
  | goto (call : Call)
  | returned (ns : NamespaceId)
  | returnedName (name : NameId)

def gotNamespace (result : NamespaceId) : Option String → Next
  | none => .goto (.returnNamespace result)
  | some localName => .goto (.findName result localName)

/-- One section of a call. `weak` is whether the relaxed load reads an old null, and whether the weak
compare-exchange fails for no reason. -/
@[grind =]
def exec (s : State) (weak : Bool) : Call → Heap × Next
  | .loadNamespaces namespaceName =>
    match if weak then none else s.heap.namespaces with
    | some namespaces => (s.heap, .goto (.findNamespace namespaceName namespaces))
    | none => (s.heap.makeTable, .goto (.exchangeNamespaces namespaceName s.heap.nextTable))
  | .exchangeNamespaces namespaceName newNamespaces =>
    match s.heap.namespaces with
    | some namespaces => (s.heap, .goto (.findNamespace namespaceName namespaces))
    | none =>
      if weak then (s.heap.makeTable, .goto (.exchangeNamespaces namespaceName s.heap.nextTable))
      else (s.heap.publishTable newNamespaces, .goto (.findNamespace namespaceName newNamespaces))
  | .findNamespace namespaceName namespaces =>
    match s.getNamespace (s.heap.namespaceTables namespaces namespaceName) with
    | some result => (s.heap, .goto (.returnNamespace result))
    | none =>
      (s.heap.makeNamespace namespaceName,
        .goto (.storeNamespace namespaceName namespaces s.heap.nextNamespace))
  | .storeNamespace namespaceName namespaces newValue =>
    match s.getNamespace (s.heap.namespaceTables namespaces namespaceName) with
    | some result => (s.heap, .goto (.dropNamespace newValue result none))
    | none =>
      (s.heap.setNamespace namespaces namespaceName newValue, .goto (.returnNamespace newValue))
  | .findGlobal localName =>
    match s.getNamespace s.heap.globalNamespace with
    | some result => (s.heap, gotNamespace result localName)
    | none => (s.heap.makeNamespace "", .goto (.storeGlobal localName s.heap.nextNamespace))
  | .storeGlobal localName newValue =>
    match s.getNamespace s.heap.globalNamespace with
    | some result => (s.heap, .goto (.dropNamespace newValue result localName))
    | none => (s.heap.setGlobalNamespace newValue, gotNamespace newValue localName)
  | .dropNamespace _ result localName => (s.heap, gotNamespace result localName)
  | .returnNamespace result => (s.heap, .returned result)
  | .findName ns localName =>
    match s.getName (s.heap.localNames ns localName) with
    | some result => (s.heap, .goto (.returnName ns result))
    | none => (s.heap.makeName ns localName, .goto (.storeName ns localName s.heap.nextName))
  | .storeName ns localName newValue =>
    match s.getName (s.heap.localNames ns localName) with
    | some result => (s.heap, .goto (.dropName ns newValue result))
    | none => (s.heap.setLocalName ns localName newValue, .goto (.returnName ns newValue))
  | .dropName ns _ result => (s.heap, .goto (.returnName ns result))
  | .returnName _ result => (s.heap, .returnedName result)

/-- The calls of clients, one section of a call in progress, and what clients do with what they hold: they
copy it, release it, and ask a name for its namespace. -/
inductive Event where
  | getNamespace (namespaceName : String)
  | globalNamespace
  | getName (ns : Option NamespaceId) (localName : String)
  | run (call : ℕ) (weak : Bool)
  | copyNamespace (ns : NamespaceId)
  | copyName (name : NameId)
  | namespaceOf (name : NameId)
  | releaseNamespace (ns : NamespaceId)
  | releaseName (name : NameId)

def State.start (s : State) (call : Call) : State := { s with calls := s.calls ++ [call] }

def step (s : State) : Event → Option State
  | .getNamespace namespaceName =>
    some (s.start (if namespaceName = "" then .findGlobal none else .loadNamespaces namespaceName))
  | .globalNamespace => some (s.start (.findGlobal none))
  | .getName none localName => some (s.start (.findGlobal (some localName)))
  | .getName (some ns) localName =>
    if ns ∈ s.heldNamespaces then some (s.start (.findName ns localName)) else none
  | .run index weak =>
    s.calls[index]?.map fun call =>
      let (heap, next) := exec s weak call
      match next with
      | .goto next => { s with heap := heap, calls := s.calls.set index next }
      | .returned ns =>
        { s with heap := heap, calls := s.calls.eraseIdx index, heldNamespaces := ns :: s.heldNamespaces }
      | .returnedName name =>
        { s with heap := heap, calls := s.calls.eraseIdx index, heldNames := name :: s.heldNames }
  | .copyNamespace ns =>
    if ns ∈ s.heldNamespaces then some { s with heldNamespaces := ns :: s.heldNamespaces } else none
  | .copyName name =>
    if name ∈ s.heldNames then some { s with heldNames := name :: s.heldNames } else none
  | .namespaceOf name =>
    if name ∈ s.heldNames then
      some { s with heldNamespaces := (s.heap.names name).1 :: s.heldNamespaces }
    else none
  | .releaseNamespace ns =>
    if ns ∈ s.heldNamespaces then some { s with heldNamespaces := s.heldNamespaces.erase ns } else none
  | .releaseName name =>
    if name ∈ s.heldNames then some { s with heldNames := s.heldNames.erase name } else none

namespace Heap

/-- The object is in the table of its name, and is found there. -/
structure HasNamespace (h : Heap) (ns : NamespaceId) : Prop where
  lt : ns < h.nextNamespace
  global : h.namespaceNames ns = "" → h.globalNamespace = some ns
  entry : h.namespaceNames ns ≠ "" → ∃ table, h.namespaces = some table ∧
    h.namespaceTables table (h.namespaceNames ns) = some ns

structure HasName (h : Heap) (name : NameId) : Prop where
  lt : name < h.nextName
  entry : h.localNames (h.names name).1 (h.names name).2 = some name
  hasNamespace : h.HasNamespace (h.names name).1

/-- What the tables refer to has the name under which it is found, dead or alive. Only the published table of
namespaces has entries. -/
structure Consistent (h : Heap) : Prop where
  tables : ∀ table key ns, h.namespaceTables table key = some ns →
    h.namespaces = some table ∧ key ≠ "" ∧ ns < h.nextNamespace ∧ h.namespaceNames ns = key
  global : ∀ ns, h.globalNamespace = some ns → ns < h.nextNamespace ∧ h.namespaceNames ns = ""
  locals : ∀ ns key name, h.localNames ns key = some name → name < h.nextName ∧ h.names name = (ns, key)

def Fine (h : Heap) : Call → Prop
  | .loadNamespaces namespaceName => namespaceName ≠ ""
  | .exchangeNamespaces namespaceName _ => namespaceName ≠ ""
  | .findNamespace namespaceName namespaces => namespaceName ≠ "" ∧ h.namespaces = some namespaces
  | .storeNamespace namespaceName namespaces newValue =>
    namespaceName ≠ "" ∧ h.namespaces = some namespaces ∧ newValue < h.nextNamespace ∧
      h.namespaceNames newValue = namespaceName
  | .findGlobal _ => True
  | .storeGlobal _ newValue => newValue < h.nextNamespace ∧ h.namespaceNames newValue = ""
  | .dropNamespace _ result _ => h.HasNamespace result
  | .returnNamespace result => h.HasNamespace result
  | .findName ns _ => h.HasNamespace ns
  | .storeName ns localName newValue =>
    h.HasNamespace ns ∧ newValue < h.nextName ∧ h.names newValue = (ns, localName)
  | .dropName ns _ result => h.HasNamespace ns ∧ h.HasName result
  | .returnName ns result => h.HasNamespace ns ∧ h.HasName result

def FineNext (h : Heap) : Next → Prop
  | .goto call => h.Fine call
  | .returned ns => h.HasNamespace ns
  | .returnedName name => h.HasName name

end Heap

/-- What clients hold and what calls have found is in the tables. -/
structure Invariant (s : State) : Prop where
  consistent : s.heap.Consistent
  calls : ∀ call ∈ s.calls, s.heap.Fine call
  namespaces : ∀ ns ∈ s.heldNamespaces, s.heap.HasNamespace ns
  names : ∀ name ∈ s.heldNames, s.heap.HasName name

/-- Objects keep their data, and those that are alive keep their entries. -/
structure Grows (s : State) (h' : Heap) : Prop where
  consistent : h'.Consistent
  nextNamespace_le : s.heap.nextNamespace ≤ h'.nextNamespace
  nextName_le : s.heap.nextName ≤ h'.nextName
  namespaces : ∀ table, s.heap.namespaces = some table → h'.namespaces = some table
  namespaceNames : ∀ ns < s.heap.nextNamespace, h'.namespaceNames ns = s.heap.namespaceNames ns
  names : ∀ name < s.heap.nextName, h'.names name = s.heap.names name
  global : ∀ ns ∈ s.aliveNamespaces, s.heap.globalNamespace = some ns → h'.globalNamespace = some ns
  tables : ∀ ns ∈ s.aliveNamespaces, ∀ table key, s.heap.namespaceTables table key = some ns →
    h'.namespaceTables table key = some ns
  locals : ∀ name ∈ s.aliveNames, ∀ ns key, s.heap.localNames ns key = some name →
    h'.localNames ns key = some name

section Grows
variable {s : State} {h' : Heap}

variable {ns : NamespaceId}

theorem Grows.hasNamespace (hGrows : Grows s h') (hAlive : ns ∈ s.aliveNamespaces)
    (h : s.heap.HasNamespace ns) : h'.HasNamespace ns := by
  have hName := hGrows.namespaceNames ns h.lt
  constructor
  · exact Nat.lt_of_lt_of_le h.lt hGrows.nextNamespace_le
  · intro hEmpty
    rw [hName] at hEmpty
    exact hGrows.global ns hAlive (h.global hEmpty)
  · intro hKey
    rw [hName] at hKey ⊢
    obtain ⟨table, hTable, hEntry⟩ := h.entry hKey
    exact ⟨table, hGrows.namespaces table hTable, hGrows.tables ns hAlive table _ hEntry⟩

variable {name : NameId}

theorem aliveNamespaces_of_name (hAlive : name ∈ s.aliveNames) :
    (s.heap.names name).1 ∈ s.aliveNamespaces :=
  List.mem_append_right _ (List.mem_map_of_mem hAlive)

theorem Grows.hasName (hGrows : Grows s h') (hAlive : name ∈ s.aliveNames) (h : s.heap.HasName name) :
    h'.HasName name := by
  have hData := hGrows.names name h.lt
  constructor
  · exact Nat.lt_of_lt_of_le h.lt hGrows.nextName_le
  · rw [hData]
    exact hGrows.locals name hAlive _ _ h.entry
  · rw [hData]
    exact hGrows.hasNamespace (aliveNamespaces_of_name hAlive) h.hasNamespace

variable {call : Call}

theorem aliveNamespaces_of_call (hCall : call ∈ s.calls) (h : ns ∈ call.namespaces) :
    ns ∈ s.aliveNamespaces :=
  List.mem_append_left _ (List.mem_append_right _ (List.mem_flatMap.mpr ⟨call, hCall, h⟩))

theorem aliveNames_of_result (hCall : call ∈ s.calls) (h : name ∈ call.result) :
    name ∈ s.aliveNames :=
  List.mem_append_left _ (List.mem_append_right _ (List.mem_flatMap.mpr ⟨call, hCall, h⟩))

/-- What a call knows stays true while others go on. -/
theorem Grows.fine (hGrows : Grows s h') (hCall : call ∈ s.calls) (h : s.heap.Fine call) :
    h'.Fine call := by
  have hNamespace : ∀ ns ∈ call.namespaces, s.heap.HasNamespace ns → h'.HasNamespace ns :=
    fun ns hMem => hGrows.hasNamespace (aliveNamespaces_of_call hCall hMem)
  have hName : ∀ name ∈ call.result, s.heap.HasName name → h'.HasName name :=
    fun name hMem => hGrows.hasName (aliveNames_of_result hCall hMem)
  cases call with
  | loadNamespaces namespaceName | exchangeNamespaces namespaceName newNamespaces => exact h
  | findNamespace namespaceName namespaces => exact ⟨h.1, hGrows.namespaces _ h.2⟩
  | storeNamespace namespaceName namespaces newValue =>
    obtain ⟨hKey, hTable, hLt, hData⟩ := h
    exact ⟨hKey, hGrows.namespaces _ hTable, Nat.lt_of_lt_of_le hLt hGrows.nextNamespace_le,
      (hGrows.namespaceNames _ hLt).trans hData⟩
  | findGlobal localName => trivial
  | storeGlobal localName newValue =>
    obtain ⟨hLt, hData⟩ := h
    exact ⟨Nat.lt_of_lt_of_le hLt hGrows.nextNamespace_le, (hGrows.namespaceNames _ hLt).trans hData⟩
  | dropNamespace newValue result localName =>
    exact hNamespace result (List.mem_cons_of_mem _ List.mem_cons_self) h
  | returnNamespace result | findName result localName => exact hNamespace result List.mem_cons_self h
  | storeName ns localName newValue =>
    obtain ⟨hNs, hLt, hData⟩ := h
    exact ⟨hNamespace ns List.mem_cons_self hNs, Nat.lt_of_lt_of_le hLt hGrows.nextName_le,
      (hGrows.names _ hLt).trans hData⟩
  | dropName ns newValue result | returnName ns result =>
    exact ⟨hNamespace ns List.mem_cons_self h.1, hName result List.mem_cons_self h.2⟩

/-! The operations on the heap. -/

theorem Grows.same (h : s.heap.Consistent) : Grows s s.heap := by
  constructor
  · exact h
  · exact Nat.le_refl _
  · exact Nat.le_refl _
  · intro table hTable
    exact hTable
  · intro ns _
    rfl
  · intro name _
    rfl
  · intro ns _ hGlobal
    exact hGlobal
  · intro ns _ table key hEntry
    exact hEntry
  · intro name _ ns key hEntry
    exact hEntry

theorem Grows.makeTable (h : s.heap.Consistent) : Grows s s.heap.makeTable := by
  have hConsistent : s.heap.makeTable.Consistent := ⟨h.tables, h.global, h.locals⟩
  exact { Grows.same h with consistent := hConsistent }

theorem Grows.publishTable (h : s.heap.Consistent) (hNone : s.heap.namespaces = none) (table : TableId) :
    Grows s (s.heap.publishTable table) := by
  have hConsistent : (s.heap.publishTable table).Consistent := by
    constructor
    · intro other key ns hEntry
      exact nomatch hNone.symm.trans (h.tables other key ns hEntry).1
    · exact h.global
    · exact h.locals
  have hNamespaces (other : TableId) (hOther : s.heap.namespaces = some other) :
      (s.heap.publishTable table).namespaces = some other := nomatch hNone.symm.trans hOther
  exact { Grows.same h with consistent := hConsistent, namespaces := hNamespaces }

theorem makeNamespace_of_lt {h : Heap} (hLt : ns < h.nextNamespace) (namespaceName : String) :
    (h.makeNamespace namespaceName).namespaceNames ns = h.namespaceNames ns :=
  Function.update_of_ne (Nat.ne_of_lt hLt) ..

theorem makeNamespace_self (h : Heap) (namespaceName : String) :
    (h.makeNamespace namespaceName).namespaceNames h.nextNamespace = namespaceName :=
  Function.update_self ..

theorem Grows.makeNamespace (h : s.heap.Consistent) (namespaceName : String) :
    Grows s (s.heap.makeNamespace namespaceName) := by
  have hConsistent : (s.heap.makeNamespace namespaceName).Consistent := by
    constructor
    · intro table key ns hEntry
      obtain ⟨hTable, hKey, hLt, hData⟩ := h.tables table key ns hEntry
      exact ⟨hTable, hKey, Nat.lt_succ_of_lt hLt, (makeNamespace_of_lt hLt namespaceName).trans hData⟩
    · intro ns hGlobal
      obtain ⟨hLt, hData⟩ := h.global ns hGlobal
      exact ⟨Nat.lt_succ_of_lt hLt, (makeNamespace_of_lt hLt namespaceName).trans hData⟩
    · exact h.locals
  exact { Grows.same h with
    consistent := hConsistent
    nextNamespace_le := Nat.le_succ _
    namespaceNames := fun _ hLt => makeNamespace_of_lt hLt namespaceName }

theorem makeName_of_lt {h : Heap} (hLt : name < h.nextName) (ns : NamespaceId) (localName : String) :
    (h.makeName ns localName).names name = h.names name :=
  Function.update_of_ne (Nat.ne_of_lt hLt) ..

theorem makeName_self (h : Heap) (ns : NamespaceId) (localName : String) :
    (h.makeName ns localName).names h.nextName = (ns, localName) :=
  Function.update_self ..

theorem Grows.makeName (h : s.heap.Consistent) (ns : NamespaceId) (localName : String) :
    Grows s (s.heap.makeName ns localName) := by
  have hConsistent : (s.heap.makeName ns localName).Consistent := by
    constructor
    · exact h.tables
    · exact h.global
    · intro other key name hEntry
      obtain ⟨hLt, hData⟩ := h.locals other key name hEntry
      exact ⟨Nat.lt_succ_of_lt hLt, (makeName_of_lt hLt ns localName).trans hData⟩
  exact { Grows.same h with
    consistent := hConsistent
    nextName_le := Nat.le_succ _
    names := fun _ hLt => makeName_of_lt hLt ns localName }

theorem getNamespace_eq_some {reference : Option NamespaceId}
    (h : s.getNamespace reference = some ns) : reference = some ns := by
  rw [State.getNamespace, Option.filter_eq_some_iff] at h
  exact h.1

theorem not_alive_of_getNamespace (h : s.getNamespace (some ns) = none) :
    ns ∉ s.aliveNamespaces := by
  intro hAlive
  rw [State.getNamespace, Option.filter_some, if_pos (decide_eq_true hAlive)] at h
  cases h

theorem getName_eq_some {reference : Option NameId} (h : s.getName reference = some name) :
    reference = some name := by
  rw [State.getName, Option.filter_eq_some_iff] at h
  exact h.1

theorem not_alive_of_getName (h : s.getName (some name) = none) : name ∉ s.aliveNames := by
  intro hAlive
  rw [State.getName, Option.filter_some, if_pos (decide_eq_true hAlive)] at h
  cases h

theorem update_entry {ι κ ν : Type} [DecidableEq ι] [DecidableEq κ] (tables : ι → κ → ν) (table other : ι)
    (name key : κ) (value : ν) :
    Function.update tables table (Function.update (tables table) name value) other key
      = if other = table ∧ key = name then value else tables other key := by
  by_cases hTable : other = table
  · rw [hTable, Function.update_self, Function.update_apply]
    simp only [true_and]
  · rw [Function.update_of_ne hTable, if_neg (fun hBoth => hTable hBoth.1)]

theorem setNamespace_tables (h : Heap) (table : TableId) (namespaceName : String) (value : NamespaceId)
    (other : TableId) (key : String) :
    (h.setNamespace table namespaceName value).namespaceTables other key
      = if other = table ∧ key = namespaceName then some value else h.namespaceTables other key :=
  update_entry h.namespaceTables table other namespaceName key (some value)

variable {newValue : NamespaceId}

theorem Grows.setNamespace (h : s.heap.Consistent) {namespaceName : String} {namespaces : TableId}
    (hFine : s.heap.Fine (.storeNamespace namespaceName namespaces newValue))
    (hNone : s.getNamespace (s.heap.namespaceTables namespaces namespaceName) = none) :
    Grows s (s.heap.setNamespace namespaces namespaceName newValue) := by
  obtain ⟨hKey, hTable, hLt, hData⟩ := hFine
  have hConsistent : (s.heap.setNamespace namespaces namespaceName newValue).Consistent := by
    constructor
    · intro table key ns hEntry
      rw [setNamespace_tables] at hEntry
      split at hEntry
      next hBoth =>
        cases hEntry
        rw [hBoth.1, hBoth.2]
        exact ⟨hTable, hKey, hLt, hData⟩
      next => exact h.tables table key ns hEntry
    · exact h.global
    · exact h.locals
  -- the entry that is replaced is of a namespace that is gone
  have hTables (ns : NamespaceId) (hAlive : ns ∈ s.aliveNamespaces) (table : TableId) (key : String)
      (hEntry : s.heap.namespaceTables table key = some ns) :
      (s.heap.setNamespace namespaces namespaceName newValue).namespaceTables table key = some ns := by
    rw [setNamespace_tables]
    split
    next hBoth =>
      rw [← hBoth.1, ← hBoth.2, hEntry] at hNone
      exact absurd hAlive (not_alive_of_getNamespace hNone)
    next => exact hEntry
  exact { Grows.same h with consistent := hConsistent, tables := hTables }

theorem Grows.setGlobalNamespace (h : s.heap.Consistent) {localName : Option String}
    (hFine : s.heap.Fine (.storeGlobal localName newValue))
    (hNone : s.getNamespace s.heap.globalNamespace = none) :
    Grows s (s.heap.setGlobalNamespace newValue) := by
  have hConsistent : (s.heap.setGlobalNamespace newValue).Consistent := by
    constructor
    · exact h.tables
    · intro ns hGlobal
      cases hGlobal
      exact hFine
    · exact h.locals
  have hKept (ns : NamespaceId) (hAlive : ns ∈ s.aliveNamespaces)
      (hGlobal : s.heap.globalNamespace = some ns) :
      (s.heap.setGlobalNamespace newValue).globalNamespace = some ns := by
    rw [hGlobal] at hNone
    exact absurd hAlive (not_alive_of_getNamespace hNone)
  exact { Grows.same h with consistent := hConsistent, global := hKept }

theorem setLocalName_locals (h : Heap) (ns : NamespaceId) (localName : String) (value : NameId)
    (other : NamespaceId) (key : String) :
    (h.setLocalName ns localName value).localNames other key
      = if other = ns ∧ key = localName then some value else h.localNames other key :=
  update_entry h.localNames ns other localName key (some value)

theorem Grows.setLocalName (h : s.heap.Consistent) {localName : String} {newValue : NameId}
    (hFine : s.heap.Fine (.storeName ns localName newValue))
    (hNone : s.getName (s.heap.localNames ns localName) = none) :
    Grows s (s.heap.setLocalName ns localName newValue) := by
  obtain ⟨-, hLt, hData⟩ := hFine
  have hConsistent : (s.heap.setLocalName ns localName newValue).Consistent := by
    constructor
    · exact h.tables
    · exact h.global
    · intro other key name hEntry
      rw [setLocalName_locals] at hEntry
      split at hEntry
      next hBoth =>
        cases hEntry
        rw [hBoth.1, hBoth.2]
        exact ⟨hLt, hData⟩
      next => exact h.locals other key name hEntry
  have hLocals (name : NameId) (hAlive : name ∈ s.aliveNames) (other : NamespaceId) (key : String)
      (hEntry : s.heap.localNames other key = some name) :
      (s.heap.setLocalName ns localName newValue).localNames other key = some name := by
    rw [setLocalName_locals]
    split
    next hBoth =>
      rw [← hBoth.1, ← hBoth.2, hEntry] at hNone
      exact absurd hAlive (not_alive_of_getName hNone)
    next => exact hEntry
  exact { Grows.same h with consistent := hConsistent, locals := hLocals }

end Grows

section Exec
variable {h : Heap} {s : State} {weak : Bool}

variable {ns : NamespaceId}

theorem Heap.Consistent.hasNamespace_of_table (hConsistent : h.Consistent) {table : TableId}
    {key : String} (hEntry : h.namespaceTables table key = some ns) : h.HasNamespace ns := by
  obtain ⟨hTable, hKey, hLt, hData⟩ := hConsistent.tables table key ns hEntry
  constructor
  · exact hLt
  · intro hEmpty
    exact absurd (hData.symm.trans hEmpty) hKey
  · intro _
    rw [hData]
    exact ⟨table, hTable, hEntry⟩

theorem Heap.Consistent.hasNamespace_of_global (hConsistent : h.Consistent)
    (hGlobal : h.globalNamespace = some ns) : h.HasNamespace ns := by
  obtain ⟨hLt, hData⟩ := hConsistent.global ns hGlobal
  constructor
  · exact hLt
  · intro _
    exact hGlobal
  · intro hKey
    exact absurd hData hKey

theorem Heap.Consistent.hasName_of_local (hConsistent : h.Consistent) {key : String} {name : NameId}
    (hNs : h.HasNamespace ns) (hEntry : h.localNames ns key = some name) : h.HasName name := by
  obtain ⟨hLt, hData⟩ := hConsistent.locals ns key name hEntry
  constructor
  · exact hLt
  · rw [hData]
    exact hEntry
  · rw [hData]
    exact hNs

theorem fineNext_gotNamespace {result : NamespaceId} (hResult : h.HasNamespace result)
    (localName : Option String) : h.FineNext (gotNamespace result localName) := by
  cases localName <;> exact hResult

variable (weak) in
/-- A section of a call keeps what others know, and goes on with what it knows. -/
theorem exec_spec (hConsistent : s.heap.Consistent) {call : Call} (hFine : s.heap.Fine call) :
    Grows s (exec s weak call).1 ∧ (exec s weak call).1.FineNext (exec s weak call).2 := by
  have hSame := Grows.same hConsistent
  cases call with
  | loadNamespaces namespaceName =>
    rw [exec]
    split
    next namespaces hLoad =>
      rw [Option.ite_none_left_eq_some] at hLoad
      exact ⟨hSame, hFine, hLoad.2⟩
    next => exact ⟨Grows.makeTable hConsistent, hFine⟩
  | exchangeNamespaces namespaceName newNamespaces =>
    rw [exec]
    split
    next namespaces hNamespaces => exact ⟨hSame, hFine, hNamespaces⟩
    next hNone =>
      split
      next => exact ⟨Grows.makeTable hConsistent, hFine⟩
      next => exact ⟨Grows.publishTable hConsistent hNone newNamespaces, hFine, rfl⟩
  | findNamespace namespaceName namespaces =>
    rw [exec]
    split
    next result hGet =>
      exact ⟨hSame, hConsistent.hasNamespace_of_table (getNamespace_eq_some hGet)⟩
    next =>
      exact ⟨Grows.makeNamespace hConsistent namespaceName, hFine.1, hFine.2, Nat.lt_succ_self _,
        makeNamespace_self ..⟩
  | storeNamespace namespaceName namespaces newValue =>
    rw [exec]
    split
    next result hGet =>
      exact ⟨hSame, hConsistent.hasNamespace_of_table (getNamespace_eq_some hGet)⟩
    next hNone =>
      have hGrows := Grows.setNamespace hConsistent hFine hNone
      have hEntry : (s.heap.setNamespace namespaces namespaceName newValue).namespaceTables namespaces
          namespaceName = some newValue := by
        rw [setNamespace_tables, if_pos ⟨rfl, rfl⟩]
      exact ⟨hGrows, hGrows.consistent.hasNamespace_of_table hEntry⟩
  | findGlobal localName =>
    rw [exec]
    split
    next result hGet =>
      have hGlobal := getNamespace_eq_some hGet
      exact ⟨hSame, fineNext_gotNamespace (hConsistent.hasNamespace_of_global hGlobal) localName⟩
    next => exact ⟨Grows.makeNamespace hConsistent "", Nat.lt_succ_self _, makeNamespace_self ..⟩
  | storeGlobal localName newValue =>
    rw [exec]
    split
    next result hGet => exact ⟨hSame, hConsistent.hasNamespace_of_global (getNamespace_eq_some hGet)⟩
    next hNone =>
      have hGrows := Grows.setGlobalNamespace hConsistent hFine hNone
      exact ⟨hGrows, fineNext_gotNamespace (hGrows.consistent.hasNamespace_of_global rfl) localName⟩
  | dropNamespace newValue result localName => exact ⟨hSame, fineNext_gotNamespace hFine localName⟩
  | returnNamespace result | dropName ns newValue result => exact ⟨hSame, hFine⟩
  | findName ns localName =>
    rw [exec]
    split
    next result hGet =>
      exact ⟨hSame, hFine, hConsistent.hasName_of_local hFine (getName_eq_some hGet)⟩
    next =>
      have hNs : (s.heap.makeName ns localName).HasNamespace ns := ⟨hFine.lt, hFine.global, hFine.entry⟩
      exact ⟨Grows.makeName hConsistent ns localName, hNs, Nat.lt_succ_self _, makeName_self ..⟩
  | storeName ns localName newValue =>
    rw [exec]
    split
    next result hGet =>
      exact ⟨hSame, hFine.1, hConsistent.hasName_of_local hFine.1 (getName_eq_some hGet)⟩
    next hNone =>
      have hGrows := Grows.setLocalName hConsistent hFine hNone
      have hNs : (s.heap.setLocalName ns localName newValue).HasNamespace ns :=
        ⟨hFine.1.lt, hFine.1.global, hFine.1.entry⟩
      have hEntry : (s.heap.setLocalName ns localName newValue).localNames ns localName
          = some newValue := by
        rw [setLocalName_locals, if_pos ⟨rfl, rfl⟩]
      exact ⟨hGrows, hNs, hGrows.consistent.hasName_of_local hNs hEntry⟩
  | returnName ns result => exact ⟨hSame, hFine.2⟩

end Exec

section Runs
variable {s t : State}

theorem Invariant.initial : Invariant .initial := by
  constructor
  · constructor
    · nofun
    · nofun
    · nofun
  · nofun
  · nofun
  · nofun

theorem heldNamespaces_alive {ns : NamespaceId} (h : ns ∈ s.heldNamespaces) : ns ∈ s.aliveNamespaces :=
  List.mem_append_left _ (List.mem_append_left _ h)

theorem heldNames_alive {name : NameId} (h : name ∈ s.heldNames) : name ∈ s.aliveNames :=
  List.mem_append_left _ (List.mem_append_left _ h)

variable {heldNamespaces : List NamespaceId} {heldNames : List NameId}

/-- What holds while one call goes on and the others wait. -/
theorem Invariant.grow (h : Invariant s) {heap : Heap} (hGrows : Grows s heap) {calls : List Call}
    (hCalls : ∀ call ∈ calls, call ∈ s.calls ∨ heap.Fine call)
    (hNamespaces : ∀ ns ∈ heldNamespaces, ns ∈ s.heldNamespaces ∨ heap.HasNamespace ns)
    (hNames : ∀ name ∈ heldNames, name ∈ s.heldNames ∨ heap.HasName name) :
    Invariant ⟨heap, calls, heldNamespaces, heldNames⟩ := by
  constructor
  · exact hGrows.consistent
  · intro call hMem
    rcases hCalls call hMem with hOld | hNew
    · exact hGrows.fine hOld (h.calls call hOld)
    · exact hNew
  · intro ns hMem
    rcases hNamespaces ns hMem with hOld | hNew
    · exact hGrows.hasNamespace (heldNamespaces_alive hOld) (h.namespaces ns hOld)
    · exact hNew
  · intro name hMem
    rcases hNames name hMem with hOld | hNew
    · exact hGrows.hasName (heldNames_alive hOld) (h.names name hOld)
    · exact hNew

theorem Invariant.start (h : Invariant s) {call : Call} (hFine : s.heap.Fine call) :
    Invariant (s.start call) := by
  apply h.grow (Grows.same h.consistent)
  · intro other hMem
    rcases List.mem_append.mp hMem with hOld | hNew
    · exact .inl hOld
    · cases List.mem_singleton.mp hNew
      exact .inr hFine
  · intro ns hMem
    exact .inl hMem
  · intro name hMem
    exact .inl hMem

theorem Invariant.run (h : Invariant s) {index : ℕ} {call : Call} {weak : Bool}
    (hCall : s.calls[index]? = some call) (hStep : step s (.run index weak) = some t) : Invariant t := by
  have hMem : call ∈ s.calls := List.mem_of_getElem? hCall
  obtain ⟨hGrows, hNext⟩ := exec_spec weak h.consistent (h.calls call hMem)
  rw [step, hCall, Option.map_some] at hStep
  cases hStep
  generalize exec s weak call = result at hGrows hNext ⊢
  obtain ⟨heap, next⟩ := result
  dsimp only at hGrows hNext ⊢
  cases next with
  | goto next =>
    apply h.grow hGrows
    · intro other hOther
      rcases List.mem_or_eq_of_mem_set hOther with hOld | rfl
      · exact .inl hOld
      · exact .inr hNext
    · intro ns hNs
      exact .inl hNs
    · intro name hName
      exact .inl hName
  | returned ns =>
    apply h.grow hGrows
    · intro other hOther
      exact .inl (List.mem_of_mem_eraseIdx hOther)
    · intro other hOther
      rcases List.mem_cons.mp hOther with rfl | hOld
      · exact .inr hNext
      · exact .inl hOld
    · intro name hName
      exact .inl hName
  | returnedName name =>
    apply h.grow hGrows
    · intro other hOther
      exact .inl (List.mem_of_mem_eraseIdx hOther)
    · intro ns hNs
      exact .inl hNs
    · intro other hOther
      rcases List.mem_cons.mp hOther with rfl | hOld
      · exact .inr hNext
      · exact .inl hOld

/-- What clients do with what they hold changes neither the objects nor the calls. -/
theorem Invariant.hold (h : Invariant s)
    (hNamespaces : ∀ ns ∈ heldNamespaces, s.heap.HasNamespace ns)
    (hNames : ∀ name ∈ heldNames, s.heap.HasName name) :
    Invariant { s with heldNamespaces := heldNamespaces, heldNames := heldNames } :=
  ⟨h.consistent, h.calls, hNamespaces, hNames⟩

theorem Invariant.step (h : Invariant s) {event : Event} (hStep : step s event = some t) :
    Invariant t := by
  cases event with
  | getNamespace namespaceName =>
    cases hStep
    apply h.start
    split
    next => trivial
    next hName => exact hName
  | globalNamespace =>
    cases hStep
    exact h.start trivial
  | getName ns localName =>
    cases ns with
    | none =>
      cases hStep
      exact h.start trivial
    | some ns =>
      obtain ⟨hHeld, hEq⟩ := Option.ite_none_right_eq_some.mp hStep
      cases hEq
      exact h.start (h.namespaces ns hHeld)
  | run index weak =>
    cases hCall : s.calls[index]? with
    | none =>
      rw [PropertyNames.step, hCall] at hStep
      cases hStep
    | some call => exact h.run hCall hStep
  | copyNamespace ns =>
    obtain ⟨hHeld, hEq⟩ := Option.ite_none_right_eq_some.mp hStep
    cases hEq
    exact h.hold (List.forall_mem_cons.mpr ⟨h.namespaces ns hHeld, h.namespaces⟩) h.names
  | copyName name =>
    obtain ⟨hHeld, hEq⟩ := Option.ite_none_right_eq_some.mp hStep
    cases hEq
    exact h.hold h.namespaces (List.forall_mem_cons.mpr ⟨h.names name hHeld, h.names⟩)
  | namespaceOf name =>
    obtain ⟨hHeld, hEq⟩ := Option.ite_none_right_eq_some.mp hStep
    cases hEq
    have hNamespace := (h.names name hHeld).hasNamespace
    exact h.hold (List.forall_mem_cons.mpr ⟨hNamespace, h.namespaces⟩) h.names
  | releaseNamespace ns =>
    obtain ⟨hHeld, hEq⟩ := Option.ite_none_right_eq_some.mp hStep
    cases hEq
    exact h.hold (fun other hOther => h.namespaces other (List.mem_of_mem_erase hOther)) h.names
  | releaseName name =>
    obtain ⟨hHeld, hEq⟩ := Option.ite_none_right_eq_some.mp hStep
    cases hEq
    exact h.hold h.namespaces fun other hOther => h.names other (List.mem_of_mem_erase hOther)

end Runs

/-! ### Main results -/

def Heap.fullName (h : Heap) (name : NameId) : String × String :=
  (h.namespaceNames (h.names name).1, (h.names name).2)

/-- Namespaces in the tables are found by their names. -/
theorem Heap.HasNamespace.ext {h : Heap} {first second : NamespaceId} (hFirst : h.HasNamespace first)
    (hSecond : h.HasNamespace second) (hName : h.namespaceNames first = h.namespaceNames second) :
    first = second := by
  by_cases hEmpty : h.namespaceNames first = ""
  · have hGlobal := hFirst.global hEmpty
    rw [hName] at hEmpty
    exact Option.some.inj (hGlobal.symm.trans (hSecond.global hEmpty))
  · obtain ⟨table, hTable, hEntry⟩ := hFirst.entry hEmpty
    rw [hName] at hEmpty hEntry
    obtain ⟨table', hTable', hEntry'⟩ := hSecond.entry hEmpty
    cases hTable.symm.trans hTable'
    exact Option.some.inj (hEntry.symm.trans hEntry')

theorem Heap.HasName.ext {h : Heap} {first second : NameId} (hFirst : h.HasName first)
    (hSecond : h.HasName second) (hName : h.fullName first = h.fullName second) : first = second := by
  obtain ⟨hNamespaceName, hLocal⟩ := Prod.ext_iff.mp hName
  have hNs := hFirst.hasNamespace.ext hSecond.hasNamespace hNamespaceName
  have hEntry := hFirst.entry
  rw [hNs, show (h.names first).2 = (h.names second).2 from hLocal] at hEntry
  exact Option.some.inj (hEntry.symm.trans hSecond.entry)

end ReactNative.PropertyNames
