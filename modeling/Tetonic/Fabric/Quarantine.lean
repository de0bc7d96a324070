import Tetonic.Fabric.Results
set_option autoImplicit false

/-! The quarantine of the artifacts that come with a result: their bytes must be there, be the
ones that were signed, and be neither archives nor programs, under paths that mean the same on
every system. -/

namespace Tetonic.Fabric
open Lib

inductive ArtifactError where
  | digestMismatch (expected actual : String)
  | invalidStateTransition (message : String)
  | quarantineRejected (message : String)
  deriving DecidableEq, Repr

structure QuarantineLimits where
  maxBytes : UInt64
  maxDeclaredPaths : Nat
  (maxArchiveEntries maxArchiveUncompressedBytes : UInt64)
  allowExecutable : Bool

def QuarantineLimits.upTo (maxBytes : UInt64) : QuarantineLimits :=
  ⟨maxBytes, 10000, 10000, 524288000, false⟩

structure QuarantineInspection where
  declaredPaths : List String
  (archiveEntries archiveUncompressedBytes : Option UInt64)
  executableContent : Bool

def isControl (c : Char) : Bool := decide (c.toNat < 0x20) || (0x7f ≤ c.toNat && c.toNat ≤ 0x9f)

def endsWithDotOrSpace (part : List Char) : Bool :=
  part.getLast?.any fun c => c == '.' || c == ' '

def trimEndSpace (part : List Char) : List Char :=
  (part.reverse.dropWhile Text.whiteSpace).reverse

def deviceStem (part : List Char) : List Char :=
  (trimEndSpace (part.takeWhile (· ≠ '.'))).map Char.toUpper

def isDeviceName (stem : List Char) : Bool :=
  ["CON", "PRN", "AUX", "NUL", "CONIN$", "CONOUT$"].any (fun name => stem == name.toList) ||
    ["COM", "LPT"].any fun port =>
      ["1", "2", "3", "4", "5", "6", "7", "8", "9", "¹", "²", "³"].any fun n =>
        stem == port.toList ++ n.toList

def isSafeComponent (part : List Char) : Bool :=
  !endsWithDotOrSpace part && !isDeviceName (deviceStem part) && part != ['.', '.'] &&
    part != ['.'] && part != []

def isSafeWorkspacePath (path : String) : Bool :=
  let text := path.toList
  let normalized := text.map fun c => if c == '\\' then '/' else c
  !(text == [] || text.head? == some '/' || text.head? == some '\\') &&
    !(text.any fun c => isControl c || [':', '<', '>', '"', '|', '?', '*'].contains c) &&
    !Text.holds normalized "://".toList &&
    (normalized.splitOn '/').all isSafeComponent

def programMagic : List (List UInt8) :=
  [[0x23, 0x21], [0x4d, 0x5a], [0x7f, 0x45, 0x4c, 0x46], [0xca, 0xfe, 0xba, 0xbe],
    [0xcf, 0xfa, 0xed, 0xfe], [0xce, 0xfa, 0xed, 0xfe], [0xfe, 0xed, 0xfa, 0xce],
    [0xfe, 0xed, 0xfa, 0xcf], [0xbe, 0xba, 0xfe, 0xca], [0xca, 0xfe, 0xba, 0xbf],
    [0xbf, 0xba, 0xfe, 0xca]]

def programExtensions : List String :=
  [".exe", ".dll", ".so", ".dylib", ".bat", ".cmd", ".ps1", ".sh", ".vbs", ".vbe", ".wsf",
    ".wsh", ".hta", ".com", ".scr", ".cpl", ".pif", ".msi", ".msp", ".js", ".jse", ".psm1",
    ".psd1", ".lnk", ".url"]

def archiveMagic : List (List UInt8) :=
  [[0x50, 0x4b, 0x03, 0x04], [0x50, 0x4b, 0x05, 0x06], [0x50, 0x4b, 0x07, 0x08], [0x1f, 0x8b],
    [0x42, 0x5a, 0x68], [0xfd, 0x37, 0x7a, 0x58, 0x5a, 0x00],
    [0x37, 0x7a, 0xbc, 0xaf, 0x27, 0x1c], [0x52, 0x61, 0x72, 0x21], [0x28, 0xb5, 0x2f, 0xfd],
    [0x4d, 0x53, 0x43, 0x46]]

def archiveExtensions : List String :=
  [".zip", ".tar", ".gz", ".tgz", ".bz2", ".tbz2", ".xz", ".txz", ".7z", ".rar", ".zst", ".cab",
    ".jar", ".war", ".whl"]

def beginsWithOne (magic : List (List UInt8)) (bytes : List UInt8) : Bool :=
  magic.any fun m => m.isPrefixOf bytes

/-- The path ends in one of these extensions, in capitals or not. -/
def endsWithOne (extensions : List String) (path : String) : Bool :=
  extensions.any fun ext => ext.toList.isSuffixOf (path.toList.map Char.toLower)

def looksExecutable (bytes : List UInt8) (declaredPath : Option String) : Bool :=
  beginsWithOne programMagic bytes || declaredPath.any (endsWithOne programExtensions)

def isTar (bytes : List UInt8) : Bool :=
  (bytes.drop 257).take 5 == [0x75, 0x73, 0x74, 0x61, 0x72]

def inspectRemoteBytes (bytes : List UInt8) (declaredPaths : List String) :
    Except ArtifactError QuarantineInspection :=
  if beginsWithOne archiveMagic bytes || isTar bytes ||
      declaredPaths.any (endsWithOne archiveExtensions) then
    .error (.quarantineRejected
      "archive payload requires bounded local extraction; unsupported by quarantine")
  else
    .ok ⟨declaredPaths, none, none, looksExecutable bytes none ||
      declaredPaths.any fun path => looksExecutable bytes (some path)⟩

structure RemoteArtifact where
  contentDigest : String
  schemaVersion : UInt32
  sizeBytes : UInt64

def validateRemoteArtifactWith (art : RemoteArtifact) (actualDigest : String)
    (limits : QuarantineLimits) (inspection : QuarantineInspection) :
    Except ArtifactError Unit :=
  if art.contentDigest ≠ actualDigest then
    .error (.digestMismatch art.contentDigest actualDigest)
  else if art.schemaVersion ≠ 1 then
    .error (.invalidStateTransition
      ("Unknown artifact schema version: " ++ toString art.schemaVersion))
  else if art.sizeBytes > limits.maxBytes then
    .error (.quarantineRejected ("artifact size " ++ toString art.sizeBytes ++
      " exceeds limit " ++ toString limits.maxBytes))
  else if inspection.declaredPaths.length > limits.maxDeclaredPaths then
    .error (.quarantineRejected "too many declared paths")
  else
    match inspection.declaredPaths.find? (fun path => !isSafeWorkspacePath path) with
    | some path => .error (.quarantineRejected ("unsafe path: " ++ path))
    | none =>
      if inspection.archiveEntries.any fun n => decide (n > limits.maxArchiveEntries) then
        .error (.quarantineRejected "archive entry count exceeds limit (possible archive bomb)")
      else if inspection.archiveUncompressedBytes.any fun n =>
          decide (n > limits.maxArchiveUncompressedBytes) then
        .error (.quarantineRejected
          "archive uncompressed size exceeds limit (possible archive bomb)")
      else if inspection.archiveUncompressedBytes.any fun n =>
          decide (art.sizeBytes > 0) && decide (n / art.sizeBytes > 100) then
        .error (.quarantineRejected "archive compression ratio exceeds policy")
      else if inspection.executableContent && !limits.allowExecutable then
        .error (.quarantineRejected "executable payload rejected by quarantine policy")
      else .ok ()

section
variable {V : Type} (codec : Codec V)

def ArtifactError.text : ArtifactError → String
  | .digestMismatch expected actual =>
    "digest mismatch: expected ContentDigest(" ++ codec.quote expected ++
      "), actual ContentDigest(" ++ codec.quote actual ++ ")"
  | .invalidStateTransition message => "invalid state transition: " ++ message
  | .quarantineRejected message => "quarantine rejected: " ++ message

/-- The disposition that a failed validation leads to, read off its message. -/
def artifactRejection (e : ArtifactError) : EnvelopeValidationOutcome :=
  match e with
  | .digestMismatch _ _ => ⟨.rejectedDigestMismatch, e.text codec⟩
  | .quarantineRejected message =>
    let mentions := fun part : String => Text.holds message.toList part.toList
    if mentions "executable" then ⟨.rejectedExecutablePayload, message⟩
    else if mentions "path" || mentions "unsafe" then ⟨.rejectedPathUnsafe, message⟩
    else if mentions "size" || mentions "archive" then ⟨.rejectedOversized, message⟩
    else ⟨.rejectedSchema, e.text codec⟩
  | .invalidStateTransition _ => ⟨.rejectedSchema, e.text codec⟩

/-- What is wrong with one artifact and the bytes that came for it. -/
def quarantineFault (limits : QuarantineLimits) (artifactBytes : List (String × List UInt8))
    (art : SignedArtifactReference) : Option EnvelopeValidationOutcome :=
  match artifactBytes.filter (fun entry => entry.1 = art.artifactId) with
  | [entry] =>
    let bytes := entry.2
    let size := UInt64.ofNat bytes.length
    if size ≠ art.sizeBytes ∨ size > limits.maxBytes then
      some ⟨.rejectedOversized, "artifact " ++ art.artifactId ++
        " byte size differs from signed size or exceeds limit"⟩
    else if "sha256:" ++ codec.sha256Hex bytes ≠ art.digest then
      some ⟨.rejectedDigestMismatch, "artifact " ++ art.artifactId ++ " digest mismatch"⟩
    else
      match inspectRemoteBytes bytes art.declaredPaths with
      | .error e => some ⟨.rejectedVerification, e.text codec⟩
      | .ok inspection =>
        match validateRemoteArtifactWith ⟨art.digest, 1, art.sizeBytes⟩ art.digest limits
            inspection with
        | .error e => some (artifactRejection codec e)
        | .ok () => none
  | _ =>
    some ⟨.rejectedDigestMismatch,
      "artifact " ++ art.artifactId ++ " requires exactly one local byte payload"⟩

/-- `quarantine_artifacts`: the first artifact's fault, if one has any. -/
def quarantineArtifacts (envelope : ResultEnvelope V) (expected : ExpectedResultBinding)
    (artifactBytes : List (String × List UInt8)) : Option EnvelopeValidationOutcome :=
  envelope.body.artifacts.findSome? (quarantineFault codec
    (.upTo (max expected.outputLimits.maxArtifactSize 1)) artifactBytes)

end

end Tetonic.Fabric
