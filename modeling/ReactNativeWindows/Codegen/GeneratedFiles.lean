import Mathlib.Data.List.AList
import Mathlib.Data.List.DropRight

/-! Writing generated files to their directory, and checking whether the directory has them. -/
namespace Codegen.Output

abbrev Text := List Char

structure Segment where
  name : String
  plain : name ≠ "" ∧ name ≠ "." ∧ name ≠ ".."
  deriving DecidableEq

def Segment.isHidden (segment : Segment) : Bool := segment.name.toList.head? = some '.'

structure Location where
  drive : String
  segments : List Segment
  deriving DecidableEq

def Location.below (directory : Location) (name : List Segment) : Location :=
  { directory with segments := directory.segments ++ name }

/-- A normalized path. On Windows a path may begin at the root of whatever drive is current; a
relative one may begin with some `..`. -/
inductive Path where
  | full (drive : String) (segments : List Segment)
  | rooted (segments : List Segment)
  | relative (parents : ℕ) (segments : List Segment)
  deriving DecidableEq

namespace Path

def join (name : List Segment) : Path → Path
  | full drive segments => full drive (segments ++ name)
  | rooted segments => rooted (segments ++ name)
  | relative parents segments => relative parents (segments ++ name)

def resolve (cwd : Location) : Path → Location
  | full drive segments => ⟨drive, segments⟩
  | rooted segments => ⟨cwd.drive, segments⟩
  | relative parents segments => ⟨cwd.drive, cwd.segments.rdrop parents ++ segments⟩

/-- `path.normalize` of an absolute path that globby returns. -/
def ofLocation (location : Location) : Path := full location.drive location.segments

end Path

abbrev FileSystem := AList fun _ : Location => Text

def unixLines : Text → Text
  | '\r' :: '\n' :: rest => '\n' :: unixLines rest
  | c :: rest => c :: unixLines rest
  | [] => []

/-- What the process runs in: which directories match the directory of a pattern, which globby
reads as a pattern too, and where the file system fails. -/
structure Environment where
  cwd : Location
  directoryMatches : (pattern directory : Location) → Bool
  cannotDelete : Location → Bool
  cannotRead : Location → Bool
  cannotWrite : Location → Bool

structure Generation where
  outputDirectory : Path
  files : AList fun _ : List Segment => Text
  named : ∀ name ∈ files, name ≠ []
  unix : ∀ name contents, files.lookup name = some contents → unixLines contents = contents

/-- `[dir/**, dir/**/.*]`: `**` goes into no hidden directory, and finds no hidden file; `.*` finds
those. -/
def Environment.lists (env : Environment) (pattern location : Location) : Bool :=
  (List.range location.segments.length).any fun depth =>
    env.directoryMatches pattern { location with segments := location.segments.take depth } &&
      (location.segments.drop depth).dropLast.all (!·.isHidden)

def Environment.globby (env : Environment) (pattern : Location) (fs : FileSystem) :
    List Location :=
  fs.keys.filter (env.lists pattern)

def normalizeFileMap (files : AList fun _ : List Segment => Text) (outputDir : Path) :
    List (Path × Text) :=
  files.entries.map fun file => (outputDir.join file.1, file.2)

/-- Whether a file is missing or has other contents. To read it may throw. -/
def hasChanges (env : Environment) (fs : FileSystem) (file : Path × Text) : Option Bool :=
  let (fileName, contents) := file
  let location := fileName.resolve env.cwd
  match fs.lookup location with
  | none => some true
  | some currentContents =>
    if env.cannotRead location then none else some (unixLines currentContents ≠ contents)

/-- `none` if the check throws. Every file is looked at, also after one that has changed. -/
def checkFilesForChanges (env : Environment) (map : List (Path × Text)) (outputDir : Path)
    (fs : FileSystem) : Option Bool :=
  let outputDir := outputDir.resolve env.cwd
  let allExistingFiles := env.globby outputDir fs
  let allGeneratedFiles := map.map Prod.fst
  if allExistingFiles.length ≠ allGeneratedFiles.length ∨
      !allGeneratedFiles.all fun filepath => filepath.resolve env.cwd ∈ allExistingFiles then some true
  else
    (map.mapM (hasChanges env fs)).map fun changes => changes.any id

/-- What is announced before it is tried. -/
inductive Action where
  | deleting (existingFile : Location)
  | writing (fileName : Path)

/-- Where a write has got to. A file that cannot be deleted ends it with an exception. -/
structure Writing where
  fs : FileSystem
  actions : List Action
  success : Bool
  threw : Bool

def deleteExisting (env : Environment) (allGeneratedFiles : List Path) (s : Writing)
    (existingFile : Location) : Writing :=
  if s.threw || Path.ofLocation existingFile ∈ allGeneratedFiles then s
  else
    let s := { s with actions := s.actions ++ [Action.deleting existingFile] }
    if env.cannotDelete existingFile then { s with threw := true }
    else { s with fs := s.fs.erase existingFile }

def writeFile (env : Environment) (s : Writing) (file : Path × Text) : Writing :=
  let (fileName, contents) := file
  let location := fileName.resolve env.cwd
  if env.cannotRead location then { s with success := false }
  else if (s.fs.lookup location).map unixLines = some contents then s
  else
    let s := { s with actions := s.actions ++ [Action.writing fileName] }
    if env.cannotWrite location then { s with success := false }
    else { s with fs := s.fs.insert location contents }

def writeMapToFiles (env : Environment) (map : List (Path × Text)) (outputDir : Path)
    (fs : FileSystem) : Writing :=
  let outputDir := outputDir.resolve env.cwd
  let allExistingFiles := env.globby outputDir fs
  let allGeneratedFiles := map.map Prod.fst
  let s := allExistingFiles.foldl (deleteExisting env allGeneratedFiles) ⟨fs, [], true, false⟩
  if s.threw then s else map.foldl (writeFile env) s

namespace Generation

variable (env : Environment) (g : Generation)

def check (fs : FileSystem) : Option Bool :=
  checkFilesForChanges env (normalizeFileMap g.files g.outputDirectory) g.outputDirectory fs

def write (fs : FileSystem) : Writing :=
  writeMapToFiles env (normalizeFileMap g.files g.outputDirectory) g.outputDirectory fs

def directory : Location := g.outputDirectory.resolve env.cwd

/-- The files that the two patterns find are those of the map, up to the ends of lines. -/
structure UpToDate (fs : FileSystem) : Prop where
  generated : ∀ name contents, g.files.lookup name = some contents →
    env.lists (g.directory env) ((g.directory env).below name) = true ∧
      (fs.lookup ((g.directory env).below name)).map unixLines = some contents
  noOther : ∀ location ∈ fs, env.lists (g.directory env) location = true →
    ∃ name ∈ g.files, location = (g.directory env).below name

end Generation

end Codegen.Output
