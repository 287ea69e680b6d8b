import ReactNativeWindows.Control.Simulation
import ReactNativeWindows.ReactNative.JSValue.JSValue
import ReactNativeWindows.Unicode.Transcoding

/-! The protocol of an `IJSValueWriter`: which sequences of calls write one value, and which
value. The value keeps every property as it was written, repeated names among them. -/
namespace ReactNative

open Unicode

def windowsStrings : StringConversions := ⟨toUtf16, toUtf8⟩

abbrev Written := JSNode (List Char)

/-- A container that is being written; an object may wait for the value of a property. -/
inductive OpenContainer where
  | object (entries : List (List Char × Written)) (name : Option (List Char))
  | array (items : List Written)

inductive WriterState where
  | start
  | building (top : OpenContainer) (below : List OpenContainer)
  | finished (value : Written)

namespace WriterState

def put (value : Written) : WriterState → Option WriterState
  | .start => some (.finished value)
  | .building (.object entries (some name)) below =>
    some (.building (.object (entries ++ [(name, value)]) none) below)
  | .building (.object _ none) _ => none
  | .building (.array items) below => some (.building (.array (items ++ [value])) below)
  | .finished _ => none

def begin (container : OpenContainer) : WriterState → Option WriterState
  | .start => some (.building container [])
  | .building (.object _ none) _ => none
  | .building top below => some (.building container (top :: below))
  | .finished _ => none

def ended (value : Written) : List OpenContainer → Option WriterState
  | [] => some (.finished value)
  | top :: below => put value (.building top below)

def write (s : WriterState) : WriterCall → Option WriterState
  | .writeNull => put .null s
  | .writeBoolean value => put (.boolean value) s
  | .writeInt64 value => put (.int64 value) s
  | .writeDouble value => put (.double value) s
  | .writeString value => put (.string (decodeUtf16 value)) s
  | .writeObjectBegin => begin (.object [] none) s
  | .writePropertyName name =>
    match s with
    | .building (.object entries none) below =>
      some (.building (.object entries (some (decodeUtf16 name))) below)
    | _ => none
  | .writeObjectEnd =>
    match s with
    | .building (.object entries none) below => ended (.object entries) below
    | _ => none
  | .writeArrayBegin => begin (.array []) s
  | .writeArrayEnd =>
    match s with
    | .building (.array items) below => ended (.array items) below
    | _ => none

/-- A container begins exactly where a value may stand, and ends as that value. -/
theorem begin_or_none (container : OpenContainer) (s : WriterState) :
    (∃ below, begin container s = some (.building container below) ∧
      ∀ value, ended value below = put value s) ∨
      (begin container s = none ∧ ∀ value, put value s = none) := by
  cases s with
  | start => exact Or.inl ⟨[], rfl, fun _ => rfl⟩
  | building top below =>
    cases top with
    | object entries name =>
      cases name with
      | none => exact Or.inr ⟨rfl, fun _ => rfl⟩
      | some name => exact Or.inl ⟨_, rfl, fun _ => rfl⟩
    | array items => exact Or.inl ⟨_, rfl, fun _ => rfl⟩
  | finished value => exact Or.inr ⟨rfl, fun _ => rfl⟩

end WriterState

namespace JSNode

mutual

def texts : JSNode StdString → Written
  | .null => .null
  | .object properties => .object (textsOfProperties properties)
  | .array items => .array (textsOfItems items)
  | .string value => .string (decodeUtf8 value)
  | .boolean value => .boolean value
  | .int64 value => .int64 value
  | .double value => .double value

def textsOfProperties : List (StdString × JSNode StdString) → List (List Char × Written)
  | [] => []
  | (name, value) :: rest => (decodeUtf8 name, value.texts) :: textsOfProperties rest

def textsOfItems : List (JSNode StdString) → List Written
  | [] => []
  | value :: rest => value.texts :: textsOfItems rest

end

theorem textsOfProperties_eq_map (properties : List (StdString × JSNode StdString)) :
    textsOfProperties properties = properties.map (Prod.map decodeUtf8 texts) := by
  induction properties with
  | nil => rfl
  | cons property rest ih =>
    rw [textsOfProperties, ih, List.map_cons]
    rfl

end JSNode

namespace WriterState

theorem decodeUtf16_toHString (value : StdString) :
    decodeUtf16 (windowsStrings.toHString value) = decodeUtf8 value := by
  show decodeUtf16 (utf16 (decodeUtf8 value)) = decodeUtf8 value
  rw [decodeUtf16_utf16]

mutual

/-- The calls of a tree write it as one value. -/
theorem write_node : ∀ (v : JSNode StdString) (s : WriterState),
    (v.writeTo windowsStrings).foldlM write s = put v.texts s
  | .object properties, s => by
    rw [JSNode.writeTo, List.foldlM_cons, write]
    rcases begin_or_none (.object [] none) s with ⟨below, hBegin, hEnd⟩ | ⟨hBegin, hNone⟩
    · rw [hBegin, Option.bind_eq_bind, Option.bind_some, List.foldlM_append,
        write_properties properties [] below, Option.bind_eq_bind, Option.bind_some,
        List.foldlM_cons, JSNode.texts, ← hEnd]
      simp only [List.foldlM_nil, bind_pure]
      rfl
    · rw [hBegin, hNone]
      rfl
  | .array items, s => by
    rw [JSNode.writeTo, List.foldlM_cons, write]
    rcases begin_or_none (.array []) s with ⟨below, hBegin, hEnd⟩ | ⟨hBegin, hNone⟩
    · rw [hBegin, Option.bind_eq_bind, Option.bind_some, List.foldlM_append,
        write_items items [] below, Option.bind_eq_bind, Option.bind_some,
        List.foldlM_cons, JSNode.texts, ← hEnd]
      simp only [List.foldlM_nil, bind_pure]
      rfl
    · rw [hBegin, hNone]
      rfl
  | .string value, s => by
    rw [JSNode.writeTo, List.foldlM_cons, write, decodeUtf16_toHString]
    simp only [List.foldlM_nil, bind_pure]
    rfl
  | .null, s | .boolean _, s | .int64 _, s | .double _, s => by
    rw [JSNode.writeTo, List.foldlM_cons]
    simp only [List.foldlM_nil, bind_pure]
    rfl

theorem write_properties : ∀ (properties : List (StdString × JSNode StdString))
    (entries : List (List Char × Written)) (below : List OpenContainer),
    (JSNode.writePropertiesTo windowsStrings properties).foldlM write
        (.building (.object entries none) below) =
      some (.building (.object (entries ++ JSNode.textsOfProperties properties) none) below)
  | [], entries, below => by
    rw [JSNode.textsOfProperties, List.append_nil]
    rfl
  | (name, value) :: rest, entries, below => by
    have hName : write (.building (.object entries none) below)
        (.writePropertyName (windowsStrings.toHString name)) =
          some (.building (.object entries (some (decodeUtf8 name))) below) := by
      rw [← decodeUtf16_toHString name]
      rfl
    rw [JSNode.writePropertiesTo, List.foldlM_cons, hName, Option.bind_eq_bind,
      Option.bind_some, List.foldlM_append, write_node value, put, Option.bind_eq_bind,
      Option.bind_some, write_properties rest, JSNode.textsOfProperties, List.append_assoc,
      List.singleton_append]

theorem write_items : ∀ (items : List (JSNode StdString)) (array : List Written)
    (below : List OpenContainer),
    (JSNode.writeItemsTo windowsStrings items).foldlM write (.building (.array array) below) =
      some (.building (.array (array ++ JSNode.textsOfItems items)) below)
  | [], array, below => by
    rw [JSNode.textsOfItems, List.append_nil]
    rfl
  | value :: rest, array, below => by
    rw [JSNode.writeItemsTo, List.foldlM_append, write_node value, put, Option.bind_eq_bind,
      Option.bind_some, write_items rest, JSNode.textsOfItems, List.append_assoc,
      List.singleton_append]

end

end WriterState

end ReactNative
