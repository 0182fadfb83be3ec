import Gltf.Bytes

/-!
The GLB container: a header with magic, version and total length, a JSON chunk, and further chunks.
`Glb.read` takes the JSON chunk and the first binary chunk; `Glb.write` pads both to multiples of
four bytes.
-/

namespace Gltf.Glb

def magic : Bytes := [0x67, 0x6c, 0x54, 0x46]

def version : Nat := 2

def jsonType : Nat := 0x4E4F534A

def binaryType : Nat := 0x004E4942

inductive Problem where
  | tooShort
  | badMagic
  | unsupportedVersion (found : Nat)
  | pastEnd (declared actual : Nat)
  | noJsonChunk (declared : Nat)
  | notJsonType
  | jsonPastEnd
  | chunkPastEnd
deriving DecidableEq, Repr

def Problem.message : Problem → String
  | .tooShort => "Too short to be a valid GLB."
  | .badMagic => "GLB does not start with the expected magic value 'glTF'."
  | .unsupportedVersion found =>
      s!"Only binary glTF version 2 is supported, found version {found}."
  | .pastEnd declared actual =>
      s!"GLB extends past the end of the buffer: declared length {declared}, actual {actual}."
  | .noJsonChunk declared => s!"GLB declared length {declared} is too short to hold a JSON chunk."
  | .notJsonType => "GLB JSON chunk does not have the expected chunkType 'JSON'."
  | .jsonPastEnd => "GLB JSON chunk extends past the end of the buffer."
  | .chunkPastEnd => "GLB chunk extends past the end of the buffer."

inductive Warning where
  | misplacedBinary (index : Nat)
  | repeatedBinary (index : Nat)
deriving DecidableEq, Repr

def Warning.message : Warning → String
  | .misplacedBinary index =>
      s!"GLB BIN chunk is chunk {index}, expected it directly after the JSON chunk."
  | .repeatedBinary index => s!"GLB chunk {index} is a second BIN chunk and was ignored."

structure Chunk where
  type : Nat
  payload : Bytes
deriving DecidableEq, Repr

structure Contents where
  json : Bytes
  binary : Option Bytes
  warnings : List Warning
deriving DecidableEq, Repr

def isGlb (bs : Bytes) : Bool := bs.take 4 == magic

/-- Splits bytes into chunks; fewer than eight bytes at the end hold none. -/
def chunks? (bs : Bytes) : Option (List Chunk) :=
  if h : bs.length < 8 then some []
  else
    let length := Bytes.natAt bs 0 4
    if bs.length < 8 + length then none
    else
      (chunks? (bs.drop (8 + length))).map
        (⟨Bytes.natAt bs 4 4, (bs.drop 8).take length⟩ :: ·)
termination_by bs.length
decreasing_by simp only [List.length_drop]; omega

/-- The chunks of binary type with their indices; the JSON chunk has index 0. -/
def binaryChunks (index : Nat) : List Chunk → List (Nat × Bytes)
  | [] => []
  | chunk :: chunks =>
      if chunk.type = binaryType then (index, chunk.payload) :: binaryChunks (index + 1) chunks
      else binaryChunks (index + 1) chunks

/-- What to say of the binary chunks: the first should directly follow the JSON chunk, and there
should be no more. -/
def binaryWarnings : List (Nat × Bytes) → List Warning
  | [] => []
  | (index, _) :: more =>
      (if index = 1 then [] else [.misplacedBinary index]) ++ more.map fun c => .repeatedBinary c.1

def read (bs : Bytes) : Except Problem Contents :=
  let length := Bytes.natAt bs 8 4
  let jsonLength := Bytes.natAt bs 12 4
  if bs.length < 12 then .error .tooShort
  else if bs.take 4 ≠ magic then .error .badMagic
  else if Bytes.natAt bs 4 4 ≠ version then .error (.unsupportedVersion (Bytes.natAt bs 4 4))
  else if bs.length < length then .error (.pastEnd length bs.length)
  else if length < 20 then .error (.noJsonChunk length)
  else if Bytes.natAt bs 16 4 ≠ jsonType then .error .notJsonType
  else if length < 20 + jsonLength then .error .jsonPastEnd
  else
    match chunks? ((bs.take length).drop (20 + jsonLength)) with
    | none => .error .chunkPastEnd
    | some chunks =>
        let binaries := binaryChunks 1 chunks
        .ok {
          json := (bs.drop 20).take jsonLength
          binary := binaries.head?.map (·.2)
          warnings := binaryWarnings binaries }

def writeChunk (type : Nat) (payload : Bytes) : Bytes :=
  Bytes.ofNatLE 4 payload.length ++ Bytes.ofNatLE 4 type ++ payload

def write (json : Bytes) (binary : Option Bytes) : Bytes :=
  let body := writeChunk jsonType (Bytes.padTo4 json 0x20) ++
    match binary with
    | some payload => writeChunk binaryType (Bytes.padTo4 payload 0)
    | none => []
  magic ++ Bytes.ofNatLE 4 version ++ Bytes.ofNatLE 4 (12 + body.length) ++ body

example : (read (write [0x7b, 0x7d] (some [1]))).toOption =
    some ⟨[0x7b, 0x7d, 0x20, 0x20], some [1, 0, 0, 0], []⟩ := by decide +kernel

end Gltf.Glb
