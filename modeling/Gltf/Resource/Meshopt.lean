import Gltf.Document

/-!
Buffer views with meshopt compression. A decoder turns the compressed bytes, which lie in a buffer
of their own, into the content of the view, and that is spliced into the buffer of the view.
-/

namespace Gltf.Meshopt

/-- What is coded. A record may hold another value than the ones that are known; it is handed on. -/
inductive Mode where
  | attributes
  | triangles
  | indices
  | other (value : Json)

namespace Mode

def ofJson : Json → Mode
  | .string "ATTRIBUTES" => .attributes
  | .string "TRIANGLES" => .triangles
  | .string "INDICES" => .indices
  | value => .other value

def toJson : Mode → Json
  | .attributes => .string "ATTRIBUTES"
  | .triangles => .string "TRIANGLES"
  | .indices => .string "INDICES"
  | .other value => value

theorem toJson_ofJson (value : Json) : (ofJson value).toJson = value := by
  unfold ofJson
  split <;> rfl

end Mode

/-- How decoded elements are to be changed, or another value that a record holds instead. -/
inductive Filter where
  | none
  | octahedral
  | quaternion
  | exponential
  | other (value : Json)

namespace Filter

def ofJson : Json → Filter
  | .string "NONE" => .none
  | .string "OCTAHEDRAL" => .octahedral
  | .string "QUATERNION" => .quaternion
  | .string "EXPONENTIAL" => .exponential
  | value => .other value

def toJson : Filter → Json
  | .none => .string "NONE"
  | .octahedral => .string "OCTAHEDRAL"
  | .quaternion => .string "QUATERNION"
  | .exponential => .string "EXPONENTIAL"
  | .other value => value

theorem toJson_ofJson (value : Json) : (ofJson value).toJson = value := by
  unfold ofJson
  split <;> rfl

end Filter

/-- Where the compressed bytes of a view lie and how they are coded. -/
structure Compression where
  buffer : Int
  byteOffset : Int
  byteLength : Int
  byteStride : Int
  count : Int
  mode : Mode
  filter : Filter

def Compression.ofRecord (r : Record) : Compression where
  buffer := r.intField "buffer" (-1)
  byteOffset := r.intField "byte_offset" 0
  byteLength := r.intField "byte_length" 0
  byteStride := r.intField "byte_stride" 0
  count := r.intField "count" 0
  mode := ((r.field "mode").json?.map Mode.ofJson).getD .attributes
  filter := ((r.field "filter").json?.map Filter.ofJson).getD .none

/-- The compression of a view, if its extension was read as a record. -/
def compression? (v : BufferView) : Option Compression :=
  (v.attachments.typed? Schema.meshoptCompression.extensionName
    Schema.meshoptCompression.name).map Compression.ofRecord

/-- Decodes bytes into so many elements of so many bytes. -/
abbrev Decoder (m : Type → Type) := Bytes → Int → Int → Mode → Filter → m (Except String Bytes)

/-- Why a view is not decoded; `ι` is the type of indices and sizes. -/
inductive Problem (ι : Type) where
  | noDecoder
  | noSource (buffer : ι)
  | noTarget (buffer : ι)
  | failed (text : String)
  | wrongSize (found : Nat) (expected : ι)
deriving DecidableEq, Repr

def Problem.message {ι : Type} [ToString ι] : Problem ι → String
  | .noDecoder =>
      s!"{Schema.meshoptCompression.extensionName} present but no meshopt decoder is configured"
  | .noSource buffer => s!"meshopt source buffer {buffer} has no data"
  | .noTarget buffer => s!"references missing buffer {buffer}"
  | .failed text => s!"meshopt decoding failed: {text}"
  | .wrongSize found expected => s!"meshopt decoder returned {found} bytes, expected {expected}"

/-- A buffer without data whose declared length is negative cannot be filled. -/
structure NegativeLength where
  length : Int
deriving DecidableEq, Repr

/-- The data of a buffer, zeros where it has none yet. -/
def dataOrZeros (b : Buffer) : Except NegativeLength Bytes :=
  match b.data with
  | some data => .ok data
  | none =>
      if b.byteLength < 0 then .error ⟨b.byteLength⟩
      else .ok (List.replicate b.byteLength.toNat 0)

/-- The data with content put in from an offset on; it grows where the content goes past its end. -/
def spliceAt (data : Bytes) (offset : Int) (content : Bytes) : Bytes :=
  let stop := offset + content.length
  let grown := data ++ List.replicate (stop - data.length).toNat 0
  Bytes.splice grown offset stop content

/-- The compressed bytes. -/
def source? (buffers : List Buffer) (c : Compression) : Option Bytes := do
  let data ← (← elementAt? buffers c.buffer).data
  some (Bytes.slice data c.byteOffset (c.byteOffset + c.byteLength))

/-- What became of a view. -/
inductive Outcome where
  | problem (problem : Problem Int)
  | decoded (buffers : List Buffer)

variable {m : Type → Type} [Monad m]

/-- The buffers with decoded content in the buffer of its view. -/
def store (buffers : List Buffer) (view : BufferView) (target : Buffer) (c : Compression)
    (content : Bytes) : Except NegativeLength Outcome :=
  if (content.length : Int) ≠ c.count * c.byteStride then
    .ok (.problem (.wrongSize content.length (c.count * c.byteStride)))
  else
    match dataOrZeros target with
    | .error e => .error e
    | .ok data =>
        .ok (.decoded (buffers.set view.buffer.toNat
          { target with data := some (spliceAt data view.byteOffset content) }))

def decodeView (decoder : Option (Decoder m)) (buffers : List Buffer) (view : BufferView)
    (c : Compression) : m (Except NegativeLength Outcome) :=
  match decoder with
  | none => pure (.ok (.problem .noDecoder))
  | some decode =>
      match source? buffers c with
      | none => pure (.ok (.problem (.noSource c.buffer)))
      | some source =>
          match elementAt? buffers view.buffer with
          | none => pure (.ok (.problem (.noTarget view.buffer)))
          | some target => do
              match ← decode source c.count c.byteStride c.mode c.filter with
              | .error text => pure (.ok (.problem (.failed text)))
              | .ok content => pure (store buffers view target c content)

/-- The buffers after decoding, the number of views decoded, and the problems with the indices of
their views. Decoding may break off at a buffer that cannot be filled. -/
structure Result where
  buffers : List Buffer
  decoded : Nat := 0
  problems : List (Nat × Problem Int) := []
  fault : Option NegativeLength := none

/-- Decodes views in their order, each with the buffers as the ones before have left them. -/
def decodeViews (decoder : Option (Decoder m)) (i : Nat) (r : Result) :
    List BufferView → m Result
  | [] => pure r
  | view :: views =>
      match compression? view with
      | none => decodeViews decoder (i + 1) r views
      | some c => do
          match ← decodeView decoder r.buffers view c with
          | .error cause => pure { r with fault := some cause }
          | .ok (.problem problem) =>
              decodeViews decoder (i + 1) { r with problems := r.problems ++ [(i, problem)] } views
          | .ok (.decoded buffers) =>
              decodeViews decoder (i + 1) { r with buffers, decoded := r.decoded + 1 } views

/-- Decodes all compressed views of a document. -/
def decodeAll (decoder : Option (Decoder m)) (d : Document) : m Result :=
  decodeViews decoder 0 { buffers := d.buffers } d.bufferViews

end Gltf.Meshopt
