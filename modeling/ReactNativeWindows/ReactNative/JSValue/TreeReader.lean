import ReactNativeWindows.ReactNative.JSValue.JSValue

/-! `JSValueTreeReader`, a cursor that walks a `JSValue` with a stack of its open containers. -/
namespace ReactNative

/-- An open container, with its members from the iterator on. Only the iterator of its own
kind is in use. -/
structure StackEntry where
  value : JSNode StdString
  item : List (JSNode StdString)
  property : List (StdString × JSNode StdString)

structure JSValueTreeReader where
  current : JSNode StdString
  isInContainer : Bool
  stack : List StackEntry

namespace JSNode

variable {S : Type}

def type : JSNode S → JSValueType
  | .null => .null
  | .object _ => .object
  | .array _ => .array
  | .string _ => .string
  | .boolean _ => .boolean
  | .int64 _ => .int64
  | .double _ => .double

def tryGetObject : JSNode S → Option (List (S × JSNode S))
  | .object properties => some properties
  | _ => none

def tryGetArray : JSNode S → Option (List (JSNode S))
  | .array items => some items
  | _ => none

def isContainer : JSNode S → Bool
  | .object _ => true
  | .array _ => true
  | _ => false

end JSNode

namespace JSValueTreeReader

def make (value : JSNode StdString) : JSValueTreeReader := ⟨value, false, []⟩

def setCurrentValue (r : JSValueTreeReader) (value : JSNode StdString) : JSValueTreeReader :=
  { r with current := value, isInContainer := !value.isContainer }

def skipEmpty (r : JSValueTreeReader) : JSValueTreeReader :=
  { r with isInContainer := !r.stack.isEmpty }

/-- Back to the container of the top entry, whose members are used up. -/
def leave (entry : StackEntry) (below : List StackEntry) : JSValueTreeReader :=
  ⟨entry.value, !below.isEmpty, below⟩

def getNextObjectProperty (C : StringConversions) (r : JSValueTreeReader) :
    Option HString × JSValueTreeReader :=
  if !r.isInContainer then
    match r.current.tryGetObject with
    | some ((name, value) :: rest) =>
      (some (C.toHString name),
        { r with stack := ⟨r.current, [], (name, value) :: rest⟩ :: r.stack }.setCurrentValue value)
    | some [] => (none, r.skipEmpty)
    | none => (none, r)
  else
    match r.stack with
    | [] => (none, r)
    | entry :: below =>
      match entry.value.tryGetObject, entry.property.tail with
      | some _, (name, value) :: rest =>
        (some (C.toHString name),
          { r with stack := { entry with property := (name, value) :: rest } :: below
            }.setCurrentValue value)
      | some _, [] => (none, leave entry below)
      | none, _ => (none, r)

def getNextArrayItem (r : JSValueTreeReader) : Option Unit × JSValueTreeReader :=
  if !r.isInContainer then
    match r.current.tryGetArray with
    | some (value :: rest) =>
      (some (), { r with stack := ⟨r.current, value :: rest, []⟩ :: r.stack }.setCurrentValue value)
    | some [] => (none, r.skipEmpty)
    | none => (none, r)
  else
    match r.stack with
    | [] => (none, r)
    | entry :: below =>
      match entry.value.tryGetArray, entry.item.tail with
      | some _, value :: rest =>
        (some (), { r with stack := { entry with item := value :: rest } :: below
          }.setCurrentValue value)
      | some _, [] => (none, leave entry below)
      | none, _ => (none, r)

def getString (C : StringConversions) (r : JSValueTreeReader) : HString :=
  match r.current with
  | .string value => C.toHString value
  | _ => C.toHString []

def getBoolean (r : JSValueTreeReader) : Bool :=
  match r.current with
  | .boolean value => value
  | _ => false

def getInt64 (r : JSValueTreeReader) : Int64 :=
  match r.current with
  | .int64 value => value
  | _ => 0

def getDouble (r : JSValueTreeReader) : Numbers.Double :=
  match r.current with
  | .double value => value
  | _ => .finite 0 Numbers.representable_zero

end JSValueTreeReader

/-- `JSValueTreeReader` as an `IJSValueReader`. -/
def treeReader (C : StringConversions) : IJSValueReader JSValueTreeReader where
  valueType r := r.current.type
  getNextObjectProperty := JSValueTreeReader.getNextObjectProperty C
  getNextArrayItem := JSValueTreeReader.getNextArrayItem
  getString := JSValueTreeReader.getString C
  getBoolean := JSValueTreeReader.getBoolean
  getInt64 := JSValueTreeReader.getInt64
  getDouble := JSValueTreeReader.getDouble

namespace JSValueTreeReader

variable (C : StringConversions)

/-- The cursor has come to a value: a container is not entered yet. -/
def opened (value : JSNode StdString) (stack : List StackEntry) : JSValueTreeReader :=
  ⟨value, !value.isContainer && !stack.isEmpty, stack⟩

def closed (value : JSNode StdString) (stack : List StackEntry) : JSValueTreeReader :=
  ⟨value, !stack.isEmpty, stack⟩

theorem make_eq_opened (value : JSNode StdString) : make value = opened value [] := by
  simp [make, opened]

theorem make_eq_closed (value : JSNode StdString) : make value = closed value [] := rfl

variable {value : JSNode StdString}

theorem opened_scalar (h : value.isContainer = false) (stack : List StackEntry) :
    opened value stack = closed value stack := by
  simp [opened, closed, h]

/-- A scalar is shown where the cursor stands. -/
theorem presents_scalar (h : value.isContainer = false) (stack : List StackEntry) :
    Presents (treeReader C) (opened value stack) (value.present C) (closed value stack) := by
  rw [opened_scalar h]
  cases value with
  | null => exact .null rfl
  | object properties | array items => cases h
  | string value => exact .string (s := closed (.string value) stack) rfl
  | boolean value => exact .boolean (s := closed (.boolean value) stack) rfl
  | int64 value => exact .int64 (s := closed (.int64 value) stack) rfl
  | double value => exact .double (s := closed (.double value) stack) rfl

/-- The reader has these properties of an object still to show: all of them where it has come
to the object, and those behind the one at the top of the stack where it is done with that. -/
inductive PropertiesAhead (properties : List (StdString × JSNode StdString))
    (stack : List StackEntry) : List (StdString × JSNode StdString) → JSValueTreeReader → Prop where
  | enter : PropertiesAhead properties stack properties (opened (.object properties) stack)
  | next (last : JSNode StdString) (first : StdString × JSNode StdString)
      (rest : List (StdString × JSNode StdString)) :
      PropertiesAhead properties stack rest
        (closed last (⟨.object properties, [], first :: rest⟩ :: stack))

/-- The reader has these items of an array still to show. -/
inductive ItemsAhead (items : List (JSNode StdString)) (stack : List StackEntry) :
    List (JSNode StdString) → JSValueTreeReader → Prop where
  | enter : ItemsAhead items stack items (opened (.array items) stack)
  | next (last first : JSNode StdString) (rest : List (JSNode StdString)) :
      ItemsAhead items stack rest (closed last (⟨.array items, first :: rest, []⟩ :: stack))

variable {properties : List (StdString × JSNode StdString)} {stack : List StackEntry}
  {r : JSValueTreeReader}

theorem next_property {rest : List (StdString × JSNode StdString)} {name : StdString}
    (h : PropertiesAhead properties stack ((name, value) :: rest) r) :
    getNextObjectProperty C r = (some (C.toHString name),
      opened value (⟨.object properties, [], (name, value) :: rest⟩ :: stack)) := by
  cases h with
  | enter =>
    simp [getNextObjectProperty, opened, setCurrentValue, JSNode.isContainer,
      JSNode.tryGetObject]
  | next last first =>
    simp [getNextObjectProperty, closed, opened, setCurrentValue, JSNode.tryGetObject]

theorem last_property (h : PropertiesAhead properties stack [] r) :
    getNextObjectProperty C r = (none, closed (.object properties) stack) := by
  cases h with
  | enter =>
    simp [getNextObjectProperty, opened, closed, skipEmpty, JSNode.isContainer,
      JSNode.tryGetObject]
  | next last first => simp [getNextObjectProperty, closed, leave, JSNode.tryGetObject]

theorem next_item {items rest : List (JSNode StdString)}
    (h : ItemsAhead items stack (value :: rest) r) :
    getNextArrayItem r =
      (some (), opened value (⟨.array items, value :: rest, []⟩ :: stack)) := by
  cases h with
  | enter =>
    simp [getNextArrayItem, opened, setCurrentValue, JSNode.isContainer, JSNode.tryGetArray]
  | next last first =>
    simp [getNextArrayItem, closed, opened, setCurrentValue, JSNode.tryGetArray]

theorem last_item {items : List (JSNode StdString)} (h : ItemsAhead items stack [] r) :
    getNextArrayItem r = (none, closed (.array items) stack) := by
  cases h with
  | enter =>
    simp [getNextArrayItem, opened, closed, skipEmpty, JSNode.isContainer, JSNode.tryGetArray]
  | next last first => simp [getNextArrayItem, closed, leave, JSNode.tryGetArray]

mutual

/-- The reader shows the value at its cursor, at any depth, and is done with it then. -/
theorem presents : ∀ (v : JSNode StdString) (stack : List StackEntry),
    Presents (treeReader C) (opened v stack) (v.present C) (closed v stack)
  | .object properties, _ => .object rfl (presentsProperties properties .enter)
  | .array items, _ => .array rfl (presentsItems items .enter)
  | .null, stack | .string _, stack | .boolean _, stack | .int64 _, stack | .double _, stack =>
    presents_scalar C rfl stack

theorem presentsProperties : ∀ (rest : List (StdString × JSNode StdString))
    {properties : List (StdString × JSNode StdString)} {stack : List StackEntry}
    {r : JSValueTreeReader}, PropertiesAhead properties stack rest r →
    PresentsProperties (treeReader C) r (JSNode.presentProperties C rest)
      (closed (.object properties) stack)
  | [], _, _, _, h => .nil (last_property C h)
  | (name, value) :: rest, _, _, _, h =>
    .cons (next_property C h) (presents value _)
      (presentsProperties rest (.next value (name, value) rest))

theorem presentsItems : ∀ (rest : List (JSNode StdString)) {items : List (JSNode StdString)}
    {stack : List StackEntry} {r : JSValueTreeReader}, ItemsAhead items stack rest r →
    PresentsItems (treeReader C) r (JSNode.presentItems C rest) (closed (.array items) stack)
  | [], _, _, _, h => .nil (last_item h)
  | value :: rest, _, _, _, h =>
    .cons (next_item h) (presents value _) (presentsItems rest (.next value value rest))

end

end JSValueTreeReader

end ReactNative
