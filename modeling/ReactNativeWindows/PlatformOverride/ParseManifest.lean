import ReactNativeWindows.PlatformOverride.Manifest

/-! Manifests in JSON, and how they are read again. -/
namespace PlatformOverride

open Numbers (Double)
open GitReactFileRepository (Version)

inductive Json where
  | null
  | bool (value : Bool)
  | number (value : Double)
  | string (value : String)
  | array (items : List Json)
  | object (members : List (String × Json))

namespace Json

def ofNumber : Double → Json
  | .finite value representable => .number (.finite value representable)
  | .infinity _ | .nan => .null

/-- Members that are undefined are not written. -/
def ofMembers (members : List (String × Option Json)) : Json :=
  .object (members.filterMap fun member => member.2.map fun value => (member.1, value))

def get? (name : String) : Json → Option Json
  | .object members => members.lookup name
  | _ => none

end Json

namespace Serialized

def FileOverride.toJson (type : String) (override : FileOverride) : Json :=
  .ofMembers
    [("type", some (.string type)), ("file", some (.string override.file)),
      ("baseFile", some (.string override.baseFile)),
      ("baseVersion", override.baseVersion.map .string),
      ("baseHash", some (.string override.baseHash)), ("issue", override.issue.map .ofNumber)]

def Override.toJson : Override → Json
  | platform file => .ofMembers [("type", some (.string "platform")), ("file", some (.string file))]
  | patch override => override.toJson "patch"
  | derived override => override.toJson "derived"
  | copy override => override.toJson "copy"
  | directoryCopy override =>
    .ofMembers
      [("type", some (.string "copy")), ("directory", some (.string override.directory)),
        ("baseDirectory", some (.string override.baseDirectory)),
        ("baseVersion", override.baseVersion.map .string),
        ("baseHash", some (.string override.baseHash)), ("issue", override.issue.map .ofNumber)]

/-- What is read of a manifest that was written by `JSON.stringify`. -/
def Manifest.toJson (man : Manifest) : Json :=
  .ofMembers
    [("includePatterns", man.includePatterns.map fun patterns => .array (patterns.map .string)),
      ("excludePatterns", man.excludePatterns.map fun patterns => .array (patterns.map .string)),
      ("baseVersion", man.baseVersion.map .string),
      ("overrides", some (.array (man.overrides.map Override.toJson)))]

end Serialized

/-- Whether a value, or undefined, is of a type of `io-ts`. -/
abbrev Codec := Option Json → Bool

namespace Codec

def undefined : Codec
  | none => true
  | some _ => false

def string : Codec
  | some (.string _) => true
  | _ => false

def number : Codec
  | some (.number _) => true
  | _ => false

def literal (text : String) : Codec
  | some (.string value) => value = text
  | _ => false

def union (codecs : List Codec) : Codec := fun value => codecs.any fun codec => codec value

def array (codec : Codec) : Codec
  | some (.array items) => items.all fun item => codec (some item)
  | _ => false

def type (props : List (String × Codec)) : Codec
  | some (.object members) => props.all fun prop => prop.2 (members.lookup prop.1)
  | _ => false

end Codec

namespace Serialized

def PlatformOverrideType : Codec := .type [("type", .literal "platform"), ("file", .string)]

def fileOverrideType (type : String) : Codec :=
  .type
    [("type", .literal type), ("file", .string), ("baseFile", .string),
      ("baseVersion", .union [.undefined, .string]), ("baseHash", .string),
      ("issue", .union [.undefined, .number])]

def PatchOverrideType : Codec := fileOverrideType "patch"

def DerivedOverrideType : Codec := fileOverrideType "derived"

def CopyOverrideType : Codec := fileOverrideType "copy"

def DirectoryCopyOverrideType : Codec :=
  .type
    [("type", .literal "copy"), ("directory", .string), ("baseDirectory", .string),
      ("baseVersion", .union [.undefined, .string]), ("baseHash", .string),
      ("issue", .union [.undefined, .number])]

def OverrideType : Codec :=
  .union
    [PlatformOverrideType, PatchOverrideType, DerivedOverrideType, CopyOverrideType,
      DirectoryCopyOverrideType]

def ManifestType : Codec :=
  .type
    [("includePatterns", .union [.undefined, .array .string]),
      ("excludePatterns", .union [.undefined, .array .string]),
      ("baseVersion", .union [.undefined, .string]), ("overrides", .array OverrideType)]

def parseManifest (parsed : Json) : Except String Json :=
  if ManifestType (some parsed) then .ok parsed
  else .error "Could not parse manifest. Is it valid?"

/-- A member that is used as a path or a hash. -/
def readString (json : Json) (name : String) : Except String String :=
  match json.get? name with
  | some (.string value) => .ok value
  | _ => .error "Cannot read properties of undefined (reading 'replace')"

def readVersion (json : Json) : Option Version :=
  match json.get? "baseVersion" with
  | some (.string value) => some value
  | _ => none

def readIssue (json : Json) : Option Double :=
  match json.get? "issue" with
  | some (.number value) => some value
  | _ => none

def FileOverride.ofJson (json : Json) : Except String FileOverride := do
  return ⟨← readString json "file", ← readString json "baseFile", readVersion json,
    ← readString json "baseHash", readIssue json⟩

def DirectoryCopyOverride.ofJson (json : Json) : Except String DirectoryCopyOverride := do
  return ⟨← readString json "directory", ← readString json "baseDirectory", readVersion json,
    ← readString json "baseHash", readIssue json⟩

/-- The override that `deserializeOverride` takes the value for. -/
def Override.ofJson (json : Json) : Except String Override := do
  let type ← readString json "type"
  if type = "platform" then return .platform (← readString json "file")
  else if type = "copy" then
    if (json.get? "directory").isSome then
      return .directoryCopy (← DirectoryCopyOverride.ofJson json)
    else return .copy (← FileOverride.ofJson json)
  else if type = "derived" then return .derived (← FileOverride.ofJson json)
  else return .patch (← FileOverride.ofJson json)

def readPatterns (json : Json) (name : String) : Option (List String) :=
  match json.get? name with
  | some (.array items) => some (items.filterMap fun item =>
    match item with
    | .string value => some value
    | _ => none)
  | _ => none

def Manifest.ofJson (json : Json) : Except String Manifest := do
  let overrides :=
    match json.get? "overrides" with
    | some (.array items) => items
    | _ => []
  return ⟨readPatterns json "includePatterns", readPatterns json "excludePatterns",
    readVersion json, ← overrides.mapM Override.ofJson⟩

end Serialized
end PlatformOverride
