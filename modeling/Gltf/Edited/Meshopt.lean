import Gltf.Edited.Decoding

/-!
Meshopt decoding of a root record that a caller has edited. The decoder is handed the values as they
stand, and only its own failures are reported as such; other faults end the run.
-/

namespace Gltf.Edited.Meshopt

open Gltf.Meshopt (spliceAt)

/-- What a decoder is asked for: elements of some number and size from a source. -/
structure Request where
  source : Value
  count : Value
  byteStride : Value
  mode : Value
  filter : Value

abbrev Decoder (m : Type → Type) := Request → m (Except String Bytes)

def hasData (buffers index : Value) : Except Fault Bool := do
  if ← index.isIndexOf buffers then
    .ok !(← (← buffers.element index).field "data").isNull
  else .ok false

def Request.ofCompression (buffers compression : Value) : Except Fault Request := do
  let buffer ← buffers.element (← compression.field "buffer")
  let start ← compression.field "byte_offset"
  let stop ← start.plus (← compression.field "byte_length")
  .ok {
    source := ← (← buffer.field "data").slice start stop
    count := ← compression.field "count"
    byteStride := ← compression.field "byte_stride"
    mode := ← compression.field "mode"
    filter := ← compression.field "filter" }

/-- So many zeros. -/
def zeros (length : Value) : Except Fault Bytes := do
  let n ← length.integer
  let size ← Value.allocation n
  if n < 0 then .error .negativeLength else .ok (List.replicate size 0)

/-- The bytes that a value of a buffer stands for; an integer stands for zeros. -/
def bytesOf : Value → Except Fault Bytes
  | .bytes bs => .ok bs
  | v => zeros v

/-- The data of a buffer, zeros where it has none yet. -/
def dataOrZeros (buffer : Value) : Except Fault Bytes := do
  let data ← buffer.field "data"
  if data.isNull then bytesOf (← buffer.field "byte_length") else bytesOf data

/-- The data of a view's buffer with content put in. -/
def stored (buffers view : Value) (content : Bytes) : Except Fault Bytes := do
  let data ← dataOrZeros (← buffers.element (← view.field "buffer"))
  let stop ← (← view.field "byte_offset").plus (.ofInt content.length)
  let _ ← Value.allocation (max 0 ((← stop.integer) - data.length))
  .ok (spliceAt data ((← stop.integer) - content.length) content)

variable {m : Type → Type} [Monad m]

def decodeFrom (decode : Decoder m) (i : Nat) (buffers view compression : Value) : Run m Unit := do
  let request ← Run.ask (Request.ofCompression buffers compression)
  match ← (decode request : m _) with
  | .error text => Run.report (.bufferView i (.failed text))
  | .ok content =>
      let expected ← Run.ask (request.count.times request.byteStride)
      if expected.isNumber (.int content.length) then
        let data ← Run.ask (stored buffers view content)
        let target ← Run.ask (view.field "buffer")
        Run.change "buffers" (withFields · target [("data", .bytes data)])
        Run.countDecoded
      else Run.report (.bufferView i (.wrongSize content.length expected))

def decodeView (decoder : Option (Decoder m)) (i : Nat) (view : Value) : Run m Unit := do
  match ← Run.ask (view.extension? Schema.meshoptCompression), decoder with
  | none, _ => pure ()
  | some _, none => Run.report (.bufferView i .noDecoder)
  | some compression, some decode =>
      let buffers := (← Run.root).field "buffers"
      let source := compression.field "buffer"
      if !(← Run.ask (hasData buffers source)) then
        Run.report (.bufferView i (.noSource source))
      else
        let target ← Run.ask (view.field "buffer")
        if !(← Run.ask (target.isIndexOf buffers)) then
          Run.report (.bufferView i (.noTarget target))
        else decodeFrom decode i buffers view (.record compression)

/-- Decodes all compressed views. -/
def decodeAll (decoder : Option (Decoder m)) (root : Record) : m (Except Fault Unit × Progress) :=
  let run : Run m Unit := Run.forElements (root.field "buffer_views") (decodeView decoder)
  run.run.run { root }

end Gltf.Edited.Meshopt
