import Gltf.Image.Jpeg
import Gltf.Image.Png
import Gltf.Image.Transcode
import Gltf.Text.Case

/-!
Image payloads. The format is told from the leading bytes; a declared media type only has to be a
supported one. KTX2 pixels come from a transcoder, which runs in a monad of the caller's choice.
-/

namespace Gltf.Image

inductive MediaType where
  | png
  | jpeg
  | ktx2
  | webp
deriving DecidableEq, Repr

def MediaType.name : MediaType → String
  | .png => "image/png"
  | .jpeg => "image/jpeg"
  | .ktx2 => "image/ktx2"
  | .webp => "image/webp"

/-- The media types that are decoded. -/
def supportedNames : List String := [MediaType.png.name, MediaType.jpeg.name, MediaType.ktx2.name]

/-- Whether a declared media type rules an image out; an empty one declares nothing. -/
def isRefused (mimeType : String) : Bool :=
  !mimeType.isEmpty && !supportedNames.contains (Text.lowerString mimeType)

/-- The media type that leading bytes tell. -/
def sniff? (bs : Bytes) : Option MediaType :=
  if bs.take 8 = Png.signature then some .png
  else if bs.take 3 = Jpeg.signature then some .jpeg
  else if Ktx2.isKtx2 bs then some .ktx2
  else if bs.take 4 = [0x52, 0x49, 0x46, 0x46] ∧ (bs.drop 8).take 4 = [0x57, 0x45, 0x42, 0x50] then
    some .webp
  else none

inductive Problem where
  | unsupportedMediaType (name : String)
  | unsupportedFormat (name : String)
  | unrecognized
  | tooLarge (text : String)
  | undecodable (text : String)
  | container (problem : Ktx2.Problem)
  | transcoding (problem : Ktx2.TranscodeProblem)
deriving DecidableEq, Repr

def Problem.message : Problem → String
  | .unsupportedMediaType name => s!"Unsupported image MIME type '{name}'"
  | .unsupportedFormat name => s!"Unsupported image format '{name}'"
  | .unrecognized => "Unrecognized image format"
  | .tooLarge text => s!"Image is too large to decode: {text}"
  | .undecodable text => s!"Could not decode image: {text}"
  | .container problem => problem.message
  | .transcoding problem => problem.message

def ofRaster (problem : RasterProblem) : Problem :=
  match problem with
  | .tooManyPixels _ => .tooLarge problem.message
  | _ => .undecodable problem.message

/-- Makes the pixels of all levels of a KTX2 file, one behind the other. -/
abbrev Transcoder (m : Type → Type) :=
  Bytes → Ktx2.Layout → m (Except Ktx2.TranscodeProblem Bytes)

/-- The image of a layout and its pixels, if they are as many as the layout says. -/
def ofPixels (l : Ktx2.Layout) (pixels : Bytes) : Except Problem ImageData :=
  if pixels.length ≠ l.totalSize then
    .error (.transcoding (.totalSize pixels.length l.totalSize))
  else
    .ok {
      width := l.header.width
      height := max 1 l.header.height
      channels := l.channels
      format := l.format
      mips := l.mips
      pixels }

variable {m : Type → Type} [Monad m]

def decodeKtx2 (targets : Ktx2.Targets) (transcoder : Option (Transcoder m)) (bs : Bytes) :
    m (Except Problem ImageData) :=
  match Ktx2.layout bs targets with
  | .error problem => pure (.error (.container problem))
  | .ok l => do
      let transcoded ←
        match transcoder with
        | some transcode => transcode bs l
        | none => pure (Ktx2.plainPixels bs l)
      match transcoded with
      | .error problem => pure (.error (.transcoding problem))
      | .ok pixels => pure (ofPixels l pixels)

def decode (targets : Ktx2.Targets) (transcoder : Option (Transcoder m)) (mimeType : Option String)
    (bs : Bytes) : m (Except Problem ImageData) :=
  let declared := mimeType.getD ""
  if isRefused declared then pure (.error (.unsupportedMediaType declared))
  else
    match sniff? bs with
    | some .ktx2 => decodeKtx2 targets transcoder bs
    | some .png => pure ((Png.decode bs).mapError ofRaster)
    | some .jpeg => pure (.error (ofRaster (Jpeg.refusal bs)))
    | some .webp => pure (.error (.unsupportedFormat MediaType.webp.name))
    | none => pure (.error .unrecognized)

/-- What is said of a payload that is read on its own: its image, or else why there is none. -/
structure ReadResult where
  image : Option ImageData
  errors : List String
  warnings : List String
deriving DecidableEq, Repr

def ReadResult.of : Except Problem ImageData → ReadResult
  | .ok image => ⟨some image, [], []⟩
  | .error problem => ⟨none, [problem.message], []⟩

def read (targets : Ktx2.Targets) (transcoder : Option (Transcoder m)) (mimeType : Option String)
    (bs : Bytes) : m ReadResult := do
  pure (.of (← decode targets transcoder mimeType bs))

end Gltf.Image
