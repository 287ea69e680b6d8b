import ReactNativeWindows.Encoding.LittleEndian

/-! The cache files of prepared scripts. -/
namespace ScriptStore

open Control Encoding

/-- The width of `size_t`. -/
inductive Arch where
  | x86 | x64

def Arch.bits : Arch → ℕ
  | .x86 => 32
  | .x64 => 64

structure Buffer (arch : Arch) where
  bytes : List UInt8
  size_lt : bytes.length < 2 ^ arch.bits

structure ScriptSignature where
  url : List Char
  version : UInt64

structure JSRuntimeSignature where
  runtimeName : List Char
  version : UInt64

/-- "RNWPREP" -/
def PERSIST_MAGIC : List UInt8 := [0x52, 0x4e, 0x57, 0x50, 0x52, 0x45, 0x50]

def PERSIST_EOF : List UInt8 := [0x45, 0x4f, 0x46]

/-- The prefix consists of the magic, a byte of padding, the versions of the script and the runtime,
the size and the hash. -/
def sizeofPrefix : ℕ := 64

def sizeofSuffix : ℕ := 3

def LONG_MAX : ℕ := 2 ^ 31 - 1

abbrev Digest := Vector UInt8 32

variable {arch : Arch} (sha256 : List UInt8 → Digest)

/-- Hashing fails for inputs that are too large. -/
def GetSHA256Hash (file : List UInt8) (offset cb : ℕ) : Except Fault (Option Digest) := do
  if cb > LONG_MAX then return none
  let data ← read file offset cb
  return some (sha256 data)

def bufferViewBuffer (file : Buffer arch) (offset size : ℕ) : Except Fault (List UInt8) :=
  if size > file.bytes.length - offset then .error .terminated
  else read file.bytes offset size

def newBuffer (script : List UInt8) (scriptVersion runtimeVersion : UInt64) : Option (List UInt8) :=
  let buffer := List.replicate (sizeofPrefix + script.length + sizeofSuffix) 0
  let buffer := overwrite buffer 0 PERSIST_MAGIC
  let buffer := overwrite buffer 8 (littleEndian 8 scriptVersion.toNat)
  let buffer := overwrite buffer 16 (littleEndian 8 runtimeVersion.toNat)
  let buffer := overwrite buffer 24 (littleEndian 8 script.length)
  match GetSHA256Hash sha256 script 0 script.length with
  | .ok (some hash) =>
    let buffer := overwrite buffer 32 hash.toList
    let buffer := overwrite buffer sizeofPrefix script
    some (overwrite buffer (sizeofPrefix + script.length) PERSIST_EOF)
  | _ => none

/-- What is in a cache file, if it is for these versions. -/
def tryGetPreparedScript (file : Buffer arch) (scriptVersion runtimeVersion : UInt64) :
    Except Fault (Option (List UInt8)) := do
  if !(← strncmp file.bytes PERSIST_MAGIC) then return none
  if (← readUInt64 file.bytes 8) ≠ scriptVersion.toNat then return none
  if (← readUInt64 file.bytes 16) ≠ runtimeVersion.toNat then return none
  let sizeInBytes ← readUInt64 file.bytes 24
  -- the subtractions wrap around
  let expected := (file.bytes.length + 2 ^ arch.bits - sizeofPrefix - sizeofSuffix) % 2 ^ arch.bits
  if sizeInBytes ≠ expected then return none
  let size := sizeInBytes % 2 ^ arch.bits
  match ← GetSHA256Hash sha256 file.bytes sizeofPrefix size with
  | none => return none
  | some hash =>
    if hash.toList ≠ (← read file.bytes 32 32) then return none
    if !(← strncmp (file.bytes.drop (sizeofPrefix + sizeInBytes)) PERSIST_EOF) then return none
    let script ← bufferViewBuffer file sizeofPrefix size
    return some script

abbrev BufferStore (arch : Arch) := List Char → Option (Buffer arch)

def makeFileName (c : Char) : Char :=
  if c = '\\' ∨ c = '/' ∨ c = ':' ∨ c = '.' then '_' else c

/-- The name of a cache file has the last characters of the address in it, and none without a runtime
name. -/
def getPreparedScriptFileName (scriptSignature : ScriptSignature)
    (runtimeSignature : JSRuntimeSignature) (prepareTag : Option (List Char)) : Option (List Char) :=
  let scriptUrl := scriptSignature.url
  let name := "prep_".toList ++ scriptUrl.drop (if scriptUrl.length < 64 then 0 else scriptUrl.length - 64)
  let name := name.map makeFileName
  if runtimeSignature.runtimeName = [] then none
  else
    let name := name ++ ['_'] ++ runtimeSignature.runtimeName
    let name := match prepareTag with
      | some tag => name ++ ['_'] ++ tag
      | none => name
    some (name ++ ".cache".toList)

def persistPreparedScript (store : BufferStore arch) (script : Buffer arch)
    (scriptMetadata : ScriptSignature) (runtimeMetadata : JSRuntimeSignature)
    (prepareTag : Option (List Char)) : Option (BufferStore arch) := do
  let bytes ← newBuffer sha256 script.bytes scriptMetadata.version runtimeMetadata.version
  let name ← getPreparedScriptFileName scriptMetadata runtimeMetadata prepareTag
  if h : bytes.length < 2 ^ arch.bits then
    return Function.update store name (some ⟨bytes, h⟩)
  else none

/-- Looks a script up, unless the program ends as there is no runtime name. -/
def BufferStore.tryGetPreparedScript (store : BufferStore arch) (scriptSignature : ScriptSignature)
    (runtimeSignature : JSRuntimeSignature) (prepareTag : Option (List Char)) :
    Except Fault (Option (List UInt8)) :=
  match getPreparedScriptFileName scriptSignature runtimeSignature prepareTag with
  | none => .error .terminated
  | some name =>
    match store name with
    | none => .ok none
    | some file =>
      ScriptStore.tryGetPreparedScript sha256 file scriptSignature.version
        runtimeSignature.version

/-- The layout of cache files. -/
def encode (padding : UInt8) (scriptVersion runtimeVersion : UInt64) (script : List UInt8) : List UInt8 :=
  PERSIST_MAGIC ++ [padding] ++ littleEndian 8 scriptVersion.toNat ++
    littleEndian 8 runtimeVersion.toNat ++ littleEndian 8 script.length ++
    (sha256 script).toList ++ script ++ PERSIST_EOF


variable {script : List UInt8}

theorem newBuffer_eq (h : script.length ≤ LONG_MAX) (scriptVersion runtimeVersion : UInt64) :
    newBuffer sha256 script scriptVersion runtimeVersion =
      some (encode sha256 0 scriptVersion runtimeVersion script) := by
  have hHash : GetSHA256Hash sha256 script 0 script.length = .ok (some (sha256 script)) := by
    rw [GetSHA256Hash, if_neg (Nat.not_lt.mpr h), read_of_le (by omega), List.drop_zero,
      List.take_length]
    rfl
  have hZeros : List.replicate (sizeofPrefix + script.length + sizeofSuffix) (0 : UInt8) =
      [] ++ List.replicate (7 + (1 + (8 + (8 + (8 + (32 + (script.length + 3))))))) 0 := by
    rw [List.nil_append, sizeofPrefix, sizeofSuffix]
    congr 1
    omega
  -- the byte of padding stays zero
  have hPadding : ∀ rest, List.replicate (1 + rest) (0 : UInt8) = [0] ++ List.replicate rest 0 :=
    fun rest => by rw [Nat.add_comm]; rfl
  have hEnd : List.replicate 3 (0 : UInt8) = List.replicate (3 + 0) 0 := rfl
  rw [newBuffer, hHash]
  simp only [hZeros]
  rw [overwrite_replicate, hPadding, ← List.append_assoc, overwrite_replicate, overwrite_replicate,
    overwrite_replicate, overwrite_replicate, overwrite_replicate, hEnd, overwrite_replicate,
    List.replicate_zero, List.append_nil, List.nil_append, encode]
  all_goals simp [PERSIST_MAGIC, PERSIST_EOF, sizeofPrefix]
  omega

theorem length_encode (padding : UInt8) (scriptVersion runtimeVersion : UInt64)
    (script : List UInt8) :
    (encode sha256 padding scriptVersion runtimeVersion script).length = script.length + 67 := by
  simp [encode, PERSIST_MAGIC, PERSIST_EOF]
  omega

theorem two_pow_bits (arch : Arch) : LONG_MAX + 67 < 2 ^ arch.bits := by
  cases arch <;> decide

/-- What is stored is found again. -/
theorem tryGetPreparedScript_encode {file : Buffer arch} {padding : UInt8}
    {scriptVersion runtimeVersion : UInt64}
    (h : file.bytes = encode sha256 padding scriptVersion runtimeVersion script)
    (hSize : script.length ≤ LONG_MAX) :
    tryGetPreparedScript sha256 file scriptVersion runtimeVersion = .ok (some script) := by
  have hLength : file.bytes.length = script.length + 67 := by rw [h, length_encode]
  have hBits := two_pow_bits arch
  have hMagic : strncmp file.bytes PERSIST_MAGIC = .ok true := by
    rw [strncmp_eq (by decide), if_pos]
    rw [h]
    simp only [encode, List.append_assoc]
    exact List.prefix_append _ _
  have hVersion : readUInt64 file.bytes 8 = .ok scriptVersion.toNat := by
    have hSplit : file.bytes = (PERSIST_MAGIC ++ [padding]) ++ (littleEndian 8 scriptVersion.toNat ++
        (littleEndian 8 runtimeVersion.toNat ++ littleEndian 8 script.length ++
          (sha256 script).toList ++ script ++ PERSIST_EOF)) := by
      simp only [h, encode, List.append_assoc]
    exact readUInt64_of_eq hSplit scriptVersion.toNat_lt rfl
  have hRuntime : readUInt64 file.bytes 16 = .ok runtimeVersion.toNat := by
    have hSplit : file.bytes =
        (PERSIST_MAGIC ++ [padding] ++ littleEndian 8 scriptVersion.toNat) ++
          (littleEndian 8 runtimeVersion.toNat ++ (littleEndian 8 script.length ++
            (sha256 script).toList ++ script ++ PERSIST_EOF)) := by
      simp only [h, encode, List.append_assoc]
    exact readUInt64_of_eq hSplit runtimeVersion.toNat_lt (by simp [PERSIST_MAGIC])
  have hStored : readUInt64 file.bytes 24 = .ok script.length := by
    have hSplit : file.bytes =
        (PERSIST_MAGIC ++ [padding] ++ littleEndian 8 scriptVersion.toNat ++
          littleEndian 8 runtimeVersion.toNat) ++ (littleEndian 8 script.length ++
            ((sha256 script).toList ++ script ++ PERSIST_EOF)) := by
      simp only [h, encode, List.append_assoc]
    exact readUInt64_of_eq hSplit (Nat.lt_of_le_of_lt hSize (by decide)) (by simp [PERSIST_MAGIC])
  have hDigest : read file.bytes 32 32 = .ok (sha256 script).toList := by
    have hSplit : file.bytes =
        (PERSIST_MAGIC ++ [padding] ++ littleEndian 8 scriptVersion.toNat ++
          littleEndian 8 runtimeVersion.toNat ++ littleEndian 8 script.length) ++
            ((sha256 script).toList ++ (script ++ PERSIST_EOF)) := by
      simp only [h, encode, List.append_assoc]
    exact read_of_eq hSplit (by simp [PERSIST_MAGIC]) Vector.length_toList
  have hSplit : file.bytes =
      (PERSIST_MAGIC ++ [padding] ++ littleEndian 8 scriptVersion.toNat ++
        littleEndian 8 runtimeVersion.toNat ++ littleEndian 8 script.length ++
          (sha256 script).toList) ++ (script ++ PERSIST_EOF) := by
    simp only [h, encode, List.append_assoc]
  have hBefore : (PERSIST_MAGIC ++ [padding] ++ littleEndian 8 scriptVersion.toNat ++
      littleEndian 8 runtimeVersion.toNat ++ littleEndian 8 script.length ++
        (sha256 script).toList).length = sizeofPrefix := by
    simp [PERSIST_MAGIC, sizeofPrefix]
  have hScript : read file.bytes sizeofPrefix script.length = .ok script :=
    read_of_eq hSplit hBefore rfl
  have hEnd : strncmp (file.bytes.drop (sizeofPrefix + script.length)) PERSIST_EOF = .ok true := by
    rw [hSplit, ← List.drop_drop, ← hBefore, List.drop_left, List.drop_left]
    rfl
  have hHash : GetSHA256Hash sha256 file.bytes sizeofPrefix script.length =
      .ok (some (sha256 script)) := by
    rw [GetSHA256Hash, if_neg (Nat.not_lt.mpr hSize), hScript]
    rfl
  have hExpected : (file.bytes.length + 2 ^ arch.bits - sizeofPrefix - sizeofSuffix) % 2 ^ arch.bits =
      script.length := by
    have hSame : file.bytes.length + 2 ^ arch.bits - sizeofPrefix - sizeofSuffix =
        script.length + 2 ^ arch.bits := by
      rw [sizeofPrefix, sizeofSuffix]
      omega
    rw [hSame, Nat.add_mod_right, Nat.mod_eq_of_lt (by omega)]
  have hView : bufferViewBuffer file sizeofPrefix script.length = .ok script := by
    rw [bufferViewBuffer, if_neg, hScript]
    rw [sizeofPrefix]
    omega
  have hMod : script.length % 2 ^ arch.bits = script.length := Nat.mod_eq_of_lt (by omega)
  simp only [tryGetPreparedScript, ok_bind, hMagic, hVersion, hRuntime, hStored, hExpected, hMod,
    hHash, hDigest, hEnd, hView]
  simp
  rfl

variable {sha256}

theorem GetSHA256Hash_eq_some {file : List UInt8} {offset cb : ℕ} {hash : Digest}
    (h : GetSHA256Hash sha256 file offset cb = .ok (some hash)) :
    cb ≤ LONG_MAX ∧ ∃ data, read file offset cb = .ok data ∧ hash = sha256 data := by
  rw [GetSHA256Hash] at h
  split at h
  · cases h
  · rename_i hSize
    obtain ⟨data, hData, h⟩ := bind_eq_ok.mp h
    cases h
    exact ⟨Nat.not_lt.mp hSize, data, hData, rfl⟩

theorem read_of_bufferViewBuffer {file : Buffer arch} {offset size : ℕ}
    (h : bufferViewBuffer file offset size = .ok script) :
    read file.bytes offset size = .ok script := by
  rw [bufferViewBuffer] at h
  split at h
  · cases h
  · exact h

/-- What is found was stored. -/
theorem encode_of_tryGetPreparedScript {file : Buffer arch} {scriptVersion runtimeVersion : UInt64}
    (h : tryGetPreparedScript sha256 file scriptVersion runtimeVersion = .ok (some script)) :
    ∃ padding, file.bytes = encode sha256 padding scriptVersion runtimeVersion script := by
  rw [tryGetPreparedScript] at h
  obtain ⟨magic, hMagic, h⟩ := bind_eq_ok.mp h
  split at h
  · cases h
  rename_i hMagicTrue
  obtain ⟨version, hVersion, h⟩ := bind_eq_ok.mp h
  split at h
  · cases h
  rename_i hVersionEq
  obtain ⟨runtime, hRuntime, h⟩ := bind_eq_ok.mp h
  split at h
  · cases h
  rename_i hRuntimeEq
  obtain ⟨sizeInBytes, hStored, h⟩ := bind_eq_ok.mp h
  dsimp only at h
  split at h
  · cases h
  rename_i hSizeEq
  obtain ⟨hash, hHash, h⟩ := bind_eq_ok.mp h
  cases hash with
  | none => cases h
  | some hash =>
    obtain ⟨stored, hDigest, h⟩ := bind_eq_ok.mp h
    split at h
    · cases h
    rename_i hDigestEq
    obtain ⟨eof, hEof, h⟩ := bind_eq_ok.mp h
    split at h
    · cases h
    rename_i hEofTrue
    obtain ⟨found, hView, h⟩ := bind_eq_ok.mp h
    cases h
    obtain ⟨-, data, hData, rfl⟩ := GetSHA256Hash_eq_some hHash
    have hFound := read_of_bufferViewBuffer hView
    rw [hData] at hFound
    cases hFound
    rw [Bool.not_eq_true, Bool.not_eq_false'] at hMagicTrue hEofTrue
    rw [hMagicTrue] at hMagic
    rw [hEofTrue] at hEof
    obtain ⟨rest, hBytes⟩ := prefix_of_strncmp (by decide) hMagic
    have hEofPrefix : PERSIST_EOF <+: file.bytes.drop (sizeofPrefix + sizeInBytes) :=
      prefix_of_strncmp (by decide) hEof
    -- the size is the one of the whole file without prefix and suffix
    have hLong : sizeofPrefix + sizeInBytes + 3 ≤ file.bytes.length := by
      have hLe := hEofPrefix.length_le
      rw [List.length_drop] at hLe
      have hEofLength : PERSIST_EOF.length = 3 := rfl
      omega
    have hLt := file.size_lt
    have hSame : file.bytes.length + 2 ^ arch.bits - sizeofPrefix - sizeofSuffix =
        file.bytes.length - 67 + 2 ^ arch.bits := by
      rw [sizeofPrefix] at hLong
      rw [sizeofPrefix, sizeofSuffix]
      omega
    rw [not_not, hSame, Nat.add_mod_right, Nat.mod_eq_of_lt (by omega)] at hSizeEq
    have hMod : sizeInBytes % 2 ^ arch.bits = sizeInBytes := Nat.mod_eq_of_lt (by omega)
    rw [hMod] at hData
    obtain ⟨hScriptDrop, hScriptSize⟩ := drop_of_read hData
    have hEnd : PERSIST_EOF = file.bytes.drop (sizeofPrefix + sizeInBytes) := by
      apply hEofPrefix.eq_of_length
      rw [List.length_drop, hSizeEq]
      rw [sizeofPrefix] at hLong ⊢
      show 3 = _
      omega
    have hDrop : file.bytes.drop 8 = littleEndian 8 scriptVersion.toNat ++
        (littleEndian 8 runtimeVersion.toNat ++ (littleEndian 8 script.length ++
          ((sha256 script).toList ++ (script ++ PERSIST_EOF)))) := by
      rw [not_not] at hVersionEq hRuntimeEq hDigestEq
      rw [drop_of_readUInt64 hVersion, drop_of_readUInt64 hRuntime, drop_of_readUInt64 hStored,
        (drop_of_read hDigest).1, show 32 + 32 = sizeofPrefix from rfl, hScriptDrop, ← hEnd,
        hVersionEq, hRuntimeEq, hScriptSize, hDigestEq]
    cases rest with
    | nil =>
      have hShort : file.bytes.length = 7 := by rw [← hBytes]; rfl
      rw [sizeofPrefix] at hLong
      omega
    | cons padding rest =>
      have hRest : file.bytes.drop 8 = rest := by rw [← hBytes]; rfl
      refine ⟨padding, ?_⟩
      simp only [encode, List.append_assoc]
      rw [← hDrop, hRest, ← hBytes]
      rfl

/-- A file is long enough for the versions and the size, or differs before in what is expected. -/
def Recognizable (file : Buffer arch) (scriptVersion runtimeVersion : UInt64) : Prop :=
  32 ≤ file.bytes.length ∨
    (¬PERSIST_MAGIC <+: file.bytes ∧ ¬file.bytes <+: PERSIST_MAGIC) ∨
    (16 ≤ file.bytes.length ∧ readUInt64 file.bytes 8 ≠ .ok scriptVersion.toNat) ∨
    (24 ≤ file.bytes.length ∧ readUInt64 file.bytes 16 ≠ .ok runtimeVersion.toNat)

variable {file : Buffer arch} {scriptVersion runtimeVersion : UInt64}

variable (sha256) in
/-- Once the size is read, all reads are within the bounds. -/
theorem exists_result_of_le (h : 32 ≤ file.bytes.length) :
    ∃ result, tryGetPreparedScript sha256 file scriptVersion runtimeVersion = .ok result := by
  obtain ⟨version, hVersion⟩ := readUInt64_of_le (show 8 + 8 ≤ file.bytes.length by omega)
  obtain ⟨runtime, hRuntime⟩ := readUInt64_of_le (show 16 + 8 ≤ file.bytes.length by omega)
  obtain ⟨sizeInBytes, hStored⟩ := readUInt64_of_le (show 24 + 8 ≤ file.bytes.length from h)
  have hMagic : ∃ magic, strncmp file.bytes PERSIST_MAGIC = .ok magic := by
    rw [strncmp_eq (by decide)]
    split
    · exact ⟨_, rfl⟩
    · rw [if_neg]
      · exact ⟨_, rfl⟩
      · intro hPrefix
        have hLe := hPrefix.length_le
        have hLength : PERSIST_MAGIC.length = 7 := rfl
        omega
  obtain ⟨magic, hMagic⟩ := hMagic
  simp only [tryGetPreparedScript, hMagic, hVersion, hRuntime, hStored, ok_bind]
  split
  · exact ⟨_, rfl⟩
  split
  · exact ⟨_, rfl⟩
  split
  · exact ⟨_, rfl⟩
  split
  · exact ⟨_, rfl⟩
  rename_i hSizeEq
  rw [not_not] at hSizeEq
  have hLt : sizeInBytes < 2 ^ arch.bits := hSizeEq ▸ Nat.mod_lt _ (Nat.two_pow_pos _)
  rw [Nat.mod_eq_of_lt hLt, GetSHA256Hash]
  by_cases hLarge : sizeInBytes > LONG_MAX
  · rw [if_pos hLarge]
    exact ⟨none, rfl⟩
  rw [if_neg hLarge]
  -- the size of a shorter file would have wrapped around
  have hBits := two_pow_bits arch
  have hFile := file.size_lt
  have hLong : 67 ≤ file.bytes.length := by
    by_contra hShort
    rw [sizeofPrefix, sizeofSuffix, Nat.mod_eq_of_lt (by omega)] at hSizeEq
    omega
  have hSame : file.bytes.length + 2 ^ arch.bits - sizeofPrefix - sizeofSuffix =
      file.bytes.length - 67 + 2 ^ arch.bits := by
    rw [sizeofPrefix, sizeofSuffix]
    omega
  rw [hSame, Nat.add_mod_right, Nat.mod_eq_of_lt (by omega)] at hSizeEq
  have hRead : sizeofPrefix + sizeInBytes ≤ file.bytes.length := by
    rw [sizeofPrefix]
    omega
  have hEnd : (file.bytes.drop (sizeofPrefix + sizeInBytes)).length = PERSIST_EOF.length := by
    rw [List.length_drop, sizeofPrefix]
    show _ = 3
    omega
  have hEof : ∃ eof, strncmp (file.bytes.drop (sizeofPrefix + sizeInBytes)) PERSIST_EOF = .ok eof := by
    rw [strncmp_eq (by decide)]
    split
    · exact ⟨_, rfl⟩
    · rename_i hNot
      rw [if_neg]
      · exact ⟨_, rfl⟩
      · intro hPrefix
        exact hNot (hPrefix.eq_of_length hEnd ▸ List.prefix_refl _)
  obtain ⟨eof, hEof⟩ := hEof
  rw [read_of_le hRead, read_of_le (by omega)]
  simp only [ok_bind, pure_bind, hEof]
  split
  · exact ⟨_, rfl⟩
  split
  · exact ⟨_, rfl⟩
  rw [bufferViewBuffer, if_neg (by omega), read_of_le hRead]
  exact ⟨_, rfl⟩

variable (sha256) in
/-- Without the size, a read is out of bounds unless something was wrong before. -/
theorem recognizable_of_lt (hShort : file.bytes.length < 32) {result : Option (List UInt8)}
    (h : tryGetPreparedScript sha256 file scriptVersion runtimeVersion = .ok result) :
    Recognizable file scriptVersion runtimeVersion := by
  rw [tryGetPreparedScript] at h
  obtain ⟨magic, hMagic, h⟩ := bind_eq_ok.mp h
  by_cases hPrefix : PERSIST_MAGIC <+: file.bytes
  · rw [strncmp_eq (by decide), if_pos hPrefix] at hMagic
    cases hMagic
    rw [if_neg (by decide)] at h
    obtain ⟨version, hVersion, h⟩ := bind_eq_ok.mp h
    have hLong : 16 ≤ file.bytes.length := by
      by_contra hNot
      rw [readUInt64_of_lt (by omega)] at hVersion
      cases hVersion
    split at h
    · rename_i hNe
      refine .inr (.inr (.inl ⟨hLong, ?_⟩))
      rw [hVersion]
      exact fun hEq => hNe (Except.ok.inj hEq)
    obtain ⟨runtime, hRuntime, h⟩ := bind_eq_ok.mp h
    have hLonger : 24 ≤ file.bytes.length := by
      by_contra hNot
      rw [readUInt64_of_lt (by omega)] at hRuntime
      cases hRuntime
    split at h
    · rename_i hNe
      refine .inr (.inr (.inr ⟨hLonger, ?_⟩))
      rw [hRuntime]
      exact fun hEq => hNe (Except.ok.inj hEq)
    obtain ⟨sizeInBytes, hStored, -⟩ := bind_eq_ok.mp h
    rw [readUInt64_of_lt (by omega)] at hStored
    cases hStored
  · refine .inr (.inl ⟨hPrefix, fun hStart => ?_⟩)
    rw [strncmp_eq (by decide), if_neg hPrefix, if_pos hStart] at hMagic
    cases hMagic

variable (sha256) in
theorem exists_result_of_recognizable (h : Recognizable file scriptVersion runtimeVersion) :
    ∃ result, tryGetPreparedScript sha256 file scriptVersion runtimeVersion = .ok result := by
  by_cases hLong : 32 ≤ file.bytes.length
  · exact exists_result_of_le sha256 hLong
  rw [tryGetPreparedScript]
  by_cases hPrefix : PERSIST_MAGIC <+: file.bytes
  · rw [strncmp_eq (by decide), if_pos hPrefix, ok_bind, if_neg (by decide)]
    obtain hLe | ⟨hNot, -⟩ | ⟨hLonger, hVersion⟩ | ⟨hLonger, hRuntime⟩ := h
    · exact absurd hLe hLong
    · exact absurd hPrefix hNot
    · obtain ⟨version, hRead⟩ := readUInt64_of_le (show 8 + 8 ≤ file.bytes.length from hLonger)
      rw [hRead, ok_bind]
      split
      · exact ⟨none, rfl⟩
      · rename_i hEq
        rw [not_not.mp hEq] at hRead
        exact absurd hRead hVersion
    · obtain ⟨version, hRead⟩ := readUInt64_of_le (show 8 + 8 ≤ file.bytes.length by omega)
      obtain ⟨runtime, hNext⟩ := readUInt64_of_le (show 16 + 8 ≤ file.bytes.length from hLonger)
      rw [hRead, ok_bind]
      split
      · exact ⟨none, rfl⟩
      · rw [hNext, ok_bind]
        split
        · exact ⟨none, rfl⟩
        · rename_i hEq
          rw [not_not.mp hEq] at hNext
          exact absurd hNext hRuntime
  · rw [strncmp_eq (by decide), if_neg hPrefix, if_neg]
    · exact ⟨none, rfl⟩
    · intro hStart
      obtain hLe | ⟨-, hNot⟩ | ⟨hLonger, -⟩ | ⟨hLonger, -⟩ := h
      · exact hLong hLe
      · exact hNot hStart
      · have hLe := hStart.length_le
        have hLength : PERSIST_MAGIC.length = 7 := rfl
        omega
      · have hLe := hStart.length_le
        have hLength : PERSIST_MAGIC.length = 7 := rfl
        omega

section Store

variable {store : BufferStore arch} {script : Buffer arch} {scriptSignature : ScriptSignature}
  {runtimeSignature : JSRuntimeSignature} {prepareTag : Option (List Char)}

variable (sha256) in
/-- Scripts are stored unless they are too large to be hashed. -/
theorem exists_persistPreparedScript (hSize : script.bytes.length ≤ LONG_MAX)
    (hName : runtimeSignature.runtimeName ≠ []) :
    ∃ next, persistPreparedScript sha256 store script scriptSignature runtimeSignature prepareTag =
      some next := by
  have hBits := two_pow_bits arch
  have hFits : (encode sha256 0 scriptSignature.version runtimeSignature.version script.bytes).length <
      2 ^ arch.bits := by
    rw [length_encode]
    omega
  rw [persistPreparedScript, newBuffer_eq sha256 hSize, getPreparedScriptFileName, if_neg hName]
  exact ⟨_, dif_pos hFits⟩

theorem newBuffer_eq_some {scriptVersion runtimeVersion : UInt64} {bytes buffer : List UInt8}
    (h : newBuffer sha256 bytes scriptVersion runtimeVersion = some buffer) :
    bytes.length ≤ LONG_MAX := by
  by_contra hLarge
  rw [newBuffer, GetSHA256Hash, if_pos (Nat.not_le.mp hLarge)] at h
  cases h

/-- What was stored is found under the same signatures and tag. -/
theorem tryGetPreparedScript_persisted {next : BufferStore arch}
    (h : persistPreparedScript sha256 store script scriptSignature runtimeSignature prepareTag =
      some next) :
    next.tryGetPreparedScript sha256 scriptSignature runtimeSignature prepareTag =
      .ok (some script.bytes) := by
  obtain ⟨bytes, hBytes, h⟩ := Option.bind_eq_some_iff.mp h
  obtain ⟨name, hName, h⟩ := Option.bind_eq_some_iff.mp h
  have hSize := newBuffer_eq_some hBytes
  rw [newBuffer_eq sha256 hSize] at hBytes
  cases hBytes
  split at h
  · cases h
    rw [BufferStore.tryGetPreparedScript, hName]
    simp only [Function.update_self]
    exact tryGetPreparedScript_encode sha256 rfl hSize
  · cases h

end Store

/-- A stored script is found again, and whatever is found was stored. This takes a file that is long
enough for its size to be read, or that is wrong before. -/
theorem preparedScript_faithful (sha256 : List UInt8 → Digest) :
    (∀ (store next : BufferStore arch) (script : Buffer arch) (scriptSignature : ScriptSignature)
        (runtimeSignature : JSRuntimeSignature) (prepareTag : Option (List Char)),
      persistPreparedScript sha256 store script scriptSignature runtimeSignature prepareTag =
          some next →
        next.tryGetPreparedScript sha256 scriptSignature runtimeSignature prepareTag =
          .ok (some script.bytes)) ∧
    ∀ (file : Buffer arch) (scriptVersion runtimeVersion : UInt64),
      (∃ result, tryGetPreparedScript sha256 file scriptVersion runtimeVersion = .ok result ∧
        ∀ script, result = some script →
          ∃ padding, file.bytes = encode sha256 padding scriptVersion runtimeVersion script) ↔
        Recognizable file scriptVersion runtimeVersion := by
  refine ⟨fun _ _ _ _ _ _ h => tryGetPreparedScript_persisted h, fun file script runtime => ?_⟩
  constructor
  · rintro ⟨result, hResult, -⟩
    by_cases hLong : 32 ≤ file.bytes.length
    · exact .inl hLong
    · exact recognizable_of_lt sha256 (Nat.not_le.mp hLong) hResult
  · intro h
    obtain ⟨result, hResult⟩ := exists_result_of_recognizable sha256 h
    refine ⟨result, hResult, ?_⟩
    rintro script rfl
    exact encode_of_tryGetPreparedScript hResult

def emptyDigest : Digest :=
  #v[0xe3, 0xb0, 0xc4, 0x42, 0x98, 0xfc, 0x1c, 0x14, 0x9a, 0xfb, 0xf4, 0xc8, 0x99, 0x6f, 0xb9, 0x24,
    0x27, 0xae, 0x41, 0xe4, 0x64, 0x9b, 0x93, 0x4c, 0xa4, 0x95, 0x99, 0x1b, 0x78, 0x52, 0xb8, 0x55]

theorem empty_persisted : ∃ next : BufferStore .x64,
    persistPreparedScript (fun _ => emptyDigest) (fun _ => none) ⟨[], by decide⟩
        ⟨"index.bundle".toList, 7⟩ ⟨"Hermes".toList, 3⟩ none = some next ∧
      next.tryGetPreparedScript (fun _ => emptyDigest) ⟨"index.bundle".toList, 7⟩
        ⟨"Hermes".toList, 3⟩ none = .ok (some []) := by
  have hStored : ∃ next : BufferStore .x64,
      persistPreparedScript (fun _ => emptyDigest) (fun _ => none) ⟨[], by decide⟩
        ⟨"index.bundle".toList, 7⟩ ⟨"Hermes".toList, 3⟩ none = some next :=
    exists_persistPreparedScript (fun _ => emptyDigest) (by decide) (by decide)
  obtain ⟨next, hNext⟩ := hStored
  exact ⟨next, hNext, (preparedScript_faithful _).1 _ _ _ _ _ _ hNext⟩

def truncated : Buffer .x64 := ⟨PERSIST_MAGIC, by decide⟩

theorem truncated_outOfBounds : ¬∀ (sha256 : List UInt8 → Digest) (arch : Arch) (file : Buffer arch)
    (scriptVersion runtimeVersion : UInt64),
    ∃ result, tryGetPreparedScript sha256 file scriptVersion runtimeVersion = .ok result ∧
      ∀ script, result = some script →
        ∃ padding, file.bytes = encode sha256 padding scriptVersion runtimeVersion script := by
  intro hAll
  obtain ⟨result, hResult, -⟩ := hAll (fun _ => emptyDigest) .x64 truncated 7 3
  cases hResult

end ScriptStore
