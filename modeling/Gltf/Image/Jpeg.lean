import Gltf.Bytes
import Gltf.Image.RasterProblem

/-!
Headers of JPEG images: segments that begin with a marker, up to the one before the pixels. An image
is identified by its header; what follows it is not decoded.
-/

namespace Gltf.Jpeg

def signature : Bytes := [0xff, 0xd8, 0xff]

/-- What a marker announces. -/
inductive MarkerKind where
  /-- The extent of the image and its channels. -/
  | frame
  /-- Tables of quantization. -/
  | tables
  /-- The pixels. -/
  | scan
  /-- Data of an application, by number. -/
  | application (n : Nat)
  | otherSegment
  /-- A marker that stands alone. -/
  | alone
deriving DecidableEq, Repr

def MarkerKind.ofByte? (b : UInt8) : Option MarkerKind :=
  let n := b.toNat
  if n < 0xc0 ∨ n = 0xff then none
  else if n = 0xda then some .scan
  else if n = 0xdb then some .tables
  else if 0xe0 ≤ n ∧ n ≤ 0xef then some (.application (n - 0xe0))
  else if n ∈ [0xc4, 0xcc, 0xdc, 0xdd, 0xdf, 0xfe] then some .otherSegment
  else if n = 0xc8 ∨ 0xd0 ≤ n ∧ n ≤ 0xd9 ∨ 0xf0 ≤ n then some .alone
  else some .frame

/-- The next marker: what follows one or more bytes of ones, unless that is zero. Other bytes are
passed over; `isOpen` says that a byte of ones went before. -/
def marker? (isOpen : Bool) : Bytes → Option (UInt8 × Bytes)
  | [] => none
  | b :: bs =>
      if b = 0xff then marker? true bs
      else if isOpen ∧ b ≠ 0 then some (b, bs)
      else marker? false bs

/-- A segment without its length, which counts itself, and what follows it. -/
def segment (bs : Bytes) : Except RasterProblem (Bytes × Bytes) :=
  let size := Bytes.natAtBE bs 0 2 - 2
  let payload := (bs.drop 2).take size
  if (bs.take 2).length < 2 then .error .unidentified
  else if payload.length < size then .error .truncatedPart
  else .ok (payload, bs.drop (2 + size))

/-- Width and height of a frame of eight bits per sample and one, three or four channels, each of
which is described by three bytes. -/
def extent (frame : Bytes) : Except RasterProblem (Nat × Nat) :=
  if frame.length < 6 ∨ frame.length % 3 ≠ 0 ∨ Bytes.natAtBE frame 0 1 ≠ 8 ∨
      Bytes.natAtBE frame 5 1 ∉ [1, 3, 4] then
    .error .unidentified
  else .ok (Bytes.natAtBE frame 3 2, Bytes.natAtBE frame 1 2)

/-- Whether tables are complete: each has a byte that says whether its 64 numbers take one byte or
two. The fuel is any bound on the number of tables. -/
def hasWholeTables : Nat → Bytes → Bool
  | 0, tables => tables.isEmpty
  | fuel + 1, tables =>
      match tables with
      | [] => true
      | kind :: rest =>
          let size := if kind.toNat < 16 then 64 else 128
          (rest.take size).length == size && hasWholeTables fuel (rest.drop size)

/-- Whether the data of an application hold the fixed fields that their name promises. -/
def hasFields (application : Nat) (payload : Bytes) : Bool :=
  let jfif : Bytes := [0x4a, 0x46, 0x49, 0x46]
  let adobe : Bytes := [0x41, 0x64, 0x6f, 0x62, 0x65]
  if application = 0 ∧ payload.take 4 = jfif ∨ application = 14 ∧ payload.take 5 = adobe then
    7 ≤ payload.length
  else true

/-- The extent that the segments before the pixels declare last, if they do. The fuel is any bound
on their number. -/
def readHeader : Nat → Option (Nat × Nat) → Bytes → Except RasterProblem (Option (Nat × Nat))
  | 0, _, _ => .error .unidentified
  | fuel + 1, declared, bs =>
      match marker? false bs with
      | none => .error .unidentified
      | some (marker, rest) =>
          match MarkerKind.ofByte? marker with
          | none => .error .unidentified
          | some .alone => readHeader fuel declared rest
          | some kind => do
              let (payload, rest) ← segment rest
              match kind with
              | .scan => .ok declared
              | .frame =>
                  let declared ← extent payload
                  readHeader fuel (some declared) rest
              | .tables =>
                  if hasWholeTables payload.length payload then readHeader fuel declared rest
                  else .error .unidentified
              | .application n =>
                  if hasFields n payload then readHeader fuel declared rest
                  else .error .unidentified
              | _ => readHeader fuel declared rest

/-- What is wrong with the header, or else with the pixels, which are not decoded. -/
def refusal (bs : Bytes) : RasterProblem :=
  let read : Except RasterProblem Unit := do
    match ← readHeader bs.length none (bs.drop 2) with
    | some (width, height) =>
        if width = 0 ∨ height = 0 then .error .unidentified else checkExtent width height
    | none => .error .unidentified
  match read with
  | .ok () => .brokenPixels
  | .error problem => problem

end Gltf.Jpeg
