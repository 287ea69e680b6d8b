import Mathlib.Data.List.Sort
import ReactNativeWindows.Concurrency.Tasks
import ReactNativeWindows.PlatformOverride.GitReactFileRepository

/-! Paths, the repositories that overrides and their bases live in, and hashes of their files. -/
namespace PlatformOverride

open Concurrency
open GitReactFileRepository (Version Buffer Stat)

abbrev Content := String ⊕ Buffer

/-- What `path`, `upath`, `isutf8`, `crypto` and the language compute. -/
structure Libraries where
  toUnix : String → String
  normalize : String → String
  relative : String → String → String
  join : String → String → String
  isAbsolute : String → Bool
  /-- A path split at `path.sep`. -/
  split : String → List String
  /-- The text of a buffer, if it is one in UTF-8. -/
  toUtf8 : Buffer → Option String
  /-- The SHA-1 of contents that are fed one after the other, in hexadecimal digits. -/
  digest : List Content → String
  /-- Whether `localeCompare` in English does not put the first after the second. -/
  localeLe : String → String → Bool
  /-- The order of `sort`, by UTF-16 code units. -/
  sortLe : String → String → Bool

variable (libs : Libraries)

namespace Libraries

def unixPath (filepath : String) : String := libs.toUnix filepath

def normalizePath (filepath : String) : String := libs.normalize (libs.unixPath filepath)

/-- Converting a path twice changes nothing more, and the relative path from a path to itself does
not lead out of it. -/
structure Lawful : Prop where
  unixPath_unixPath : ∀ p, libs.unixPath (libs.unixPath p) = libs.unixPath p
  normalizePath_normalizePath : ∀ p, libs.normalizePath (libs.normalizePath p) = libs.normalizePath p
  split_relative : ∀ p, (libs.split (libs.relative p p)).head? ≠ some ".."

variable {libs}

theorem Lawful.normalizePath_unixPath (h : libs.Lawful) (p : String) :
    libs.normalizePath (libs.unixPath (libs.normalizePath p)) = libs.normalizePath p := by
  have hUnix : libs.normalizePath (libs.unixPath (libs.normalizePath p)) =
      libs.normalizePath (libs.normalizePath p) := by
    rw [normalizePath, h.unixPath_unixPath, ← normalizePath]
  rw [hUnix, h.normalizePath_normalizePath]

end Libraries

structure FileRepository where
  listFiles : Option (List String) → Except String (List String)
  readFile : String → Except String (Option Buffer)
  stat : String → Except String Stat

structure ReactFileRepository extends FileRepository where
  getVersion : Version

structure WritableFileRepository (Files : Type) where
  read : Files → FileRepository
  writeFile : String → Content → Files → Except String Files
  deleteFile : String → Files → Except String Files

/-- The React Native repository at any version, and its patches. -/
structure VersionedRepository where
  version : Version → FileRepository
  generatePatch : String → Version → Buffer → Except String Buffer
  getPatchedFile : String → Version → Buffer → Except String (Option Buffer × Bool)

def bindVersion (repository : VersionedRepository) (version : Version) : ReactFileRepository :=
  { repository.version version with getVersion := version }

inductive Insensitivity where
  | none | lineEnding | whitespace
  deriving DecidableEq

/-- Puts a carriage return before each line feed that has none. -/
def toCrlf (afterReturn : Bool) : List Char → List Char
  | [] => []
  | c :: rest =>
    if c = '\n' ∧ !afterReturn then '\r' :: c :: toCrlf false rest
    else c :: toCrlf (c = '\r') rest

/-- What `\s` matches. -/
def isSpace (c : Char) : Bool :=
  (9 ≤ c.toNat ∧ c.toNat ≤ 13) ∨ (0x2000 ≤ c.toNat ∧ c.toNat ≤ 0x200A) ∨
    c.toNat ∈ [0x20, 0xA0, 0x1680, 0x2028, 0x2029, 0x202F, 0x205F, 0x3000, 0xFEFF]

def trim (text : List Char) : List Char :=
  ((text.dropWhile isSpace).reverse.dropWhile isSpace).reverse

/-- Puts one space in the place of each run of white space. -/
def collapse (afterSpace : Bool) : List Char → List Char
  | [] => []
  | c :: rest =>
    if isSpace c then (if afterSpace then [] else [' ']) ++ collapse true rest
    else c :: collapse false rest

def normalizeContent (content : Content) (insensitivity : Option Insensitivity) : Content :=
  let text :=
    match content with
    | .inl text => some text
    | .inr buffer => libs.toUtf8 buffer
  match text, insensitivity.getD .lineEnding with
  | some text, .lineEnding => .inl (String.ofList (toCrlf false text.toList))
  | some text, .whitespace => .inl (String.ofList (collapse false (trim text.toList)))
  | _, _ => content

structure Hasher where
  fed : List Content
  insensitivity : Option Insensitivity

namespace Hasher

def feedContent (hasher : Hasher) (content : Content) : Hasher :=
  { hasher with fed := hasher.fed ++ [normalizeContent libs content hasher.insensitivity] }

def digest (hasher : Hasher) : String := libs.digest hasher.fed

end Hasher

def hashContent (content : Content) (insensitivity : Option Insensitivity) : String :=
  (Hasher.feedContent libs ⟨[], insensitivity⟩ content).digest libs

def readToHash (repo : FileRepository) (name : String) : Except String Content := do
  match ← repo.readFile name with
  | some content => return .inr content
  | none => throw "Cannot read properties of null (reading 'length')"

def feedFile (name : String) (repo : FileRepository) (hasher : Hasher) (file : String) :
    Except String Hasher := do
  let contents ← readToHash repo file
  let platformIndependentPath := libs.unixPath (libs.relative name (libs.normalizePath file))
  return (hasher.feedContent libs contents).feedContent libs (.inl platformIndependentPath)

def hashFileOrDirectory (name : String) (repo : FileRepository)
    (insensitivity : Option Insensitivity) : Except String (Option String) := do
  match ← repo.stat name with
  | .none => return none
  | .file =>
    let content ← readToHash repo name
    return some (hashContent libs content insensitivity)
  | .directory =>
    let subfiles ← repo.listFiles (some [libs.unixPath name ++ "/**"])
    let sorted := subfiles.insertionSort fun a b => libs.sortLe a b
    let hasher ← sorted.foldlM (feedFile libs name repo) ⟨[], insensitivity⟩
    return some (hasher.digest libs)

end PlatformOverride
