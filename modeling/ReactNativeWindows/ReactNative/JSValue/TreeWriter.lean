import ReactNativeWindows.ReactNative.JSValue.JSValue

/-! `JSValueTreeWriter`, which builds a `JSValue` from the calls of a writer. -/
namespace ReactNative

inductive ContainerType where
  | none | object | array
  deriving DecidableEq

structure ContainerInfo where
  type : ContainerType
  propertyName : StdString
  object : StdMap StdString (JSNode StdString)
  array : List (JSNode StdString)

def ContainerInfo.make (type : ContainerType) : ContainerInfo := ⟨type, [], [], []⟩

/-- The containers that are open, the outermost of type `none`. -/
structure JSValueTreeWriter where
  containerStack : List ContainerInfo
  resultValue : JSNode StdString

namespace JSValueTreeWriter

def make : JSValueTreeWriter := ⟨[.make .none], .null⟩

def takeValue (w : JSValueTreeWriter) : JSNode StdString := w.resultValue

def push (w : JSValueTreeWriter) (type : ContainerType) : JSValueTreeWriter :=
  { w with containerStack := .make type :: w.containerStack }

/-- A value on top of `below`. The property name is moved from, and empty then. -/
def writeValue (w : JSValueTreeWriter) (value : JSNode StdString) : Option JSValueTreeWriter :=
  match w.containerStack with
  | [] => none
  | top :: below =>
    match top.type with
    | .none => some { w with resultValue := value }
    | .object =>
      let object := StdMap.emplace top.propertyName value top.object
      some { w with containerStack := { top with object := object, propertyName := [] } :: below }
    | .array => some { w with containerStack := { top with array := top.array ++ [value] } :: below }

def writePropertyName (C : StringConversions) (w : JSValueTreeWriter) (name : HString) :
    Option JSValueTreeWriter :=
  match w.containerStack with
  | [] => none
  | top :: below =>
    if top.type = .object then
      some { w with containerStack := { top with propertyName := C.toString name } :: below }
    else none

/-- `WriteObjectEnd` and `WriteArrayEnd`: the open container becomes a value of the one below. -/
def writeEnd (w : JSValueTreeWriter) (type : ContainerType)
    (value : ContainerInfo → JSNode StdString) : Option JSValueTreeWriter :=
  match w.containerStack with
  | [] => none
  | top :: below =>
    if top.type = type then { w with containerStack := below }.writeValue (value top) else none

/-- A call of the writer; `none` where `VerifyElseCrash` stops the process. -/
def write (C : StringConversions) (w : JSValueTreeWriter) : WriterCall → Option JSValueTreeWriter
  | .writeNull => w.writeValue .null
  | .writeBoolean value => w.writeValue (.boolean value)
  | .writeInt64 value => w.writeValue (.int64 value)
  | .writeDouble value => w.writeValue (.double value)
  | .writeString value => w.writeValue (.string (C.toString value))
  | .writeObjectBegin => some (w.push .object)
  | .writePropertyName name => w.writePropertyName C name
  | .writeObjectEnd => w.writeEnd .object fun top => .object top.object
  | .writeArrayBegin => some (w.push .array)
  | .writeArrayEnd => w.writeEnd .array fun top => .array top.array

variable (C : StringConversions)

def inObject (w : JSValueTreeWriter) (entries : StdMap StdString (JSNode StdString)) :
    JSValueTreeWriter :=
  { w with containerStack := ⟨.object, [], entries, []⟩ :: w.containerStack }

def inArray (w : JSValueTreeWriter) (items : List (JSNode StdString)) : JSValueTreeWriter :=
  { w with containerStack := ⟨.array, [], [], items⟩ :: w.containerStack }

/-- The open object waits for the value of a property. -/
def named (w : JSValueTreeWriter) (entries : StdMap StdString (JSNode StdString))
    (name : StdString) : JSValueTreeWriter :=
  { w with containerStack := ⟨.object, name, entries, []⟩ :: w.containerStack }

theorem write_name (w : JSValueTreeWriter) (entries : StdMap StdString (JSNode StdString))
    (name : HString) :
    write C (w.inObject entries) (.writePropertyName name) =
      some (w.named entries (C.toString name)) := by
  simp [write, writePropertyName, inObject, named]

theorem write_named (w : JSValueTreeWriter) (entries : StdMap StdString (JSNode StdString))
    (name : StdString) (value : JSNode StdString) :
    (w.named entries name).writeValue value =
      some (w.inObject (StdMap.emplace name value entries)) := by
  simp [writeValue, inObject, named]

theorem write_item (w : JSValueTreeWriter) (items : List (JSNode StdString))
    (value : JSNode StdString) :
    (w.inArray items).writeValue value = some (w.inArray (items ++ [value])) := by
  simp [writeValue, inArray]

theorem write_objectEnd (w : JSValueTreeWriter) (entries : StdMap StdString (JSNode StdString)) :
    write C (w.inObject entries) .writeObjectEnd = w.writeValue (.object entries) := by
  simp [write, writeEnd, inObject]

theorem write_arrayEnd (w : JSValueTreeWriter) (items : List (JSNode StdString)) :
    write C (w.inArray items) .writeArrayEnd = w.writeValue (.array items) := by
  simp [write, writeEnd, inArray]

mutual

/-- The calls of a tree write one value, on top of whatever is open. -/
theorem write_node : ∀ (v : JSNode StdString) (w : JSValueTreeWriter),
    (v.writeTo C).foldlM (write C) w = w.writeValue ((v.present C).collect C)
  | .object properties, w => by
    have hBegin : write C w .writeObjectBegin = some (w.inObject []) := rfl
    rw [JSNode.writeTo, List.foldlM_cons, hBegin, Option.bind_eq_bind, Option.bind_some,
      List.foldlM_append, write_properties properties w [], Option.bind_eq_bind,
      Option.bind_some, List.foldlM_cons, write_objectEnd]
    simp only [List.foldlM_nil, bind_pure]
    rfl
  | .array items, w => by
    have hBegin : write C w .writeArrayBegin = some (w.inArray []) := rfl
    rw [JSNode.writeTo, List.foldlM_cons, hBegin, Option.bind_eq_bind, Option.bind_some,
      List.foldlM_append, write_items items w [], Option.bind_eq_bind, Option.bind_some,
      List.foldlM_cons, write_arrayEnd]
    simp only [List.foldlM_nil, bind_pure]
    rfl
  | .null, w | .string _, w | .boolean _, w | .int64 _, w | .double _, w => by
    rw [JSNode.writeTo, List.foldlM_cons]
    simp only [List.foldlM_nil, bind_pure]
    rfl

theorem write_properties : ∀ (properties : List (StdString × JSNode StdString))
    (w : JSValueTreeWriter) (entries : StdMap StdString (JSNode StdString)),
    (JSNode.writePropertiesTo C properties).foldlM (write C) (w.inObject entries) =
      some (w.inObject (StdMap.emplaceAll
        (JSNode.collectProperties C (JSNode.presentProperties C properties)) entries))
  | [], w, entries => rfl
  | (name, value) :: rest, w, entries => by
    rw [JSNode.writePropertiesTo, List.foldlM_cons, write_name, Option.bind_eq_bind,
      Option.bind_some, List.foldlM_append, write_node value, write_named,
      Option.bind_eq_bind, Option.bind_some, write_properties rest]
    rfl

theorem write_items : ∀ (items : List (JSNode StdString)) (w : JSValueTreeWriter)
    (array : List (JSNode StdString)),
    (JSNode.writeItemsTo C items).foldlM (write C) (w.inArray array) =
      some (w.inArray (array ++ JSNode.collectItems C (JSNode.presentItems C items)))
  | [], w, array => by
    rw [JSNode.presentItems, JSNode.collectItems, List.append_nil]
    rfl
  | value :: rest, w, array => by
    rw [JSNode.writeItemsTo, List.foldlM_append, write_node value, write_item,
      Option.bind_eq_bind, Option.bind_some, write_items rest, List.append_assoc,
      List.singleton_append]
    rfl

end

end JSValueTreeWriter

end ReactNative
