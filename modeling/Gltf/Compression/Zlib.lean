import Gltf.Compression.Deflate

/-!
The zlib format: two bytes of header, a deflate stream, and a checksum of the decoded bytes. What
follows the stream is ignored.
-/

namespace Gltf.Zlib

inductive Problem where
  | truncated
  | header
  | method
  | windowSize
  | dictionary
  | checksum
  | deflate (problem : Deflate.Problem)
deriving DecidableEq, Repr

def Problem.message : Problem → String
  | .truncated => "Error -5 while decompressing data: incomplete or truncated stream"
  | .header => "Error -3 while decompressing data: incorrect header check"
  | .method => "Error -3 while decompressing data: unknown compression method"
  | .windowSize => "Error -3 while decompressing data: invalid window size"
  | .dictionary => "Error 2 while decompressing data"
  | .checksum => "Error -3 while decompressing data: incorrect data check"
  | .deflate problem => s!"Error -3 while decompressing data: {problem.message}"

/-- The Adler-32 checksum: the sum of the bytes, and the sum of all its intermediate values. -/
def adler32 (bs : Bytes) : Nat :=
  let (a, b) := bs.foldl
    (fun (a, b) byte =>
      let a := (a + byte.toNat) % 65521
      (a, (b + a) % 65521))
    (1, 0)
  b * 65536 + a

def checkHeader (method flags : UInt8) : Option Problem :=
  if (256 * method.toNat + flags.toNat) % 31 ≠ 0 then some .header
  else if method.toNat % 16 ≠ 8 then some .method
  else if 7 < method.toNat / 16 then some .windowSize
  else if flags.toNat.testBit 5 then some .dictionary
  else none

/-- How decoding ends: with the stream or with a problem, which show once so many bytes are touched,
or for want of input or of room. -/
inductive Ending where
  | complete (touched : Nat)
  | stalled (problem : Problem)
  | full
  | failed (problem : Problem) (touched : Nat)
deriving DecidableEq, Repr

/-- A dictionary is asked for by a checksum, and there is none to give. -/
def withoutDictionary (stream : Bytes) : Problem :=
  if stream.length < 4 then .truncated else .dictionary

def endingOfStop : Deflate.Stop → Ending
  | .truncated => .stalled .truncated
  | .invalid problem touched => .failed (.deflate problem) touched
  | .full => .full

/-- Decodes a stream, up to a limit if there is one. -/
def inflate (limit : Option Nat) (bs : Bytes) : Deflate.Output × Ending :=
  match bs with
  | method :: flags :: stream =>
      match checkHeader method flags with
      | some .dictionary => (#[], .stalled (withoutDictionary stream))
      | some problem => (#[], .failed problem 2)
      | none =>
          match Deflate.inflate limit ((BitStream.ofBytes bs).drop 16) with
          | .error halt => (halt.out, endingOfStop halt.stop)
          | .ok (out, s) =>
              let check := (bs.drop s.touched).take 4
              let touched := s.touched + 4
              if check.length < 4 then (out, .stalled .truncated)
              else if Bytes.toNatBE check ≠ adler32 out.bytes then (out, .failed .checksum touched)
              else (out, .complete touched)
  | _ => (#[], .stalled .truncated)

def decompress (bs : Bytes) : Except Problem Bytes :=
  match inflate none bs with
  | (out, .complete _) => .ok out.bytes
  | (_, .stalled problem) => .error problem
  | (_, .full) => .error .truncated
  | (_, .failed problem _) => .error problem

end Gltf.Zlib
