import ReactNativeWindows.Codegen.GeneratedFiles

/-! When the check for changed files agrees with the write of the files. -/
namespace Codegen.Output

variable {env : Environment} {g : Generation} {fs : FileSystem} {s : Writing}

namespace Generation

def paths (g : Generation) : List Path :=
  (normalizeFileMap g.files g.outputDirectory).map Prod.fst

variable {location : Location}

end Generation

section Deletions

variable {paths : List Path} {existing : List Location}

variable {location : Location}

end Deletions

section Writes

variable {map : List (Path × Text)}

end Writes

namespace Generation

def checkedOut : FileSystem :=
  AList.singleton ⟨"C:", [⟨"app", by decide⟩, ⟨"codegen", by decide⟩, ⟨"Spec.g.h", by decide⟩]⟩
    ['a', '\r', '\n']

end Generation

end Codegen.Output
