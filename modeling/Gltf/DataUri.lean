import Gltf.Text.Base64
import Gltf.Text.Blank
import Gltf.Text.Case
import Gltf.Text.Percent
import Gltf.Text.Split

/-!
Data URIs: `data:`, a media type with parameters, a comma and the data, which is percent-encoded,
or base64 when a parameter says so. Blanks in base64 data and missing padding at its end are
forgiven.
-/

namespace Gltf

structure DataUri where
  mimeType : String
  data : Bytes
deriving DecidableEq, Repr

namespace DataUri

inductive Problem where
  | otherScheme
  | noSeparator
  | base64 (problem : Base64.Problem)
deriving DecidableEq, Repr

def Problem.message : Problem → String
  | .otherScheme => "Not a data URI."
  | .noSeparator => "Data URI has no ',' separating the header from the data."
  | .base64 problem => s!"Invalid base64 data in data URI: {problem.message}"

def scheme : List Char := ['d', 'a', 't', 'a', ':']

/-- Whether a URI has the data scheme, in any case. -/
def isDataUri (uri : String) : Bool := Text.lower (uri.toList.take 5) == scheme

/-- A part of the header as it is compared. -/
def normalize (part : List Char) : List Char := Text.lower (Text.trim part)

def isSkipped (b : UInt8) : Bool := b == 0x20 || b == 0x09 || b == 0x0d || b == 0x0a

/-- The base64 text in a payload, padded to whole quads. -/
def base64Text (payload : List Char) : Bytes :=
  Bytes.padTo4 ((Percent.decode payload).filter (!isSkipped ·)) Base64.paddingByte

def decodeParts (header payload : List Char) : Except Problem DataUri :=
  let parts := Text.splitOn ';' header
  let mime := normalize (parts.headD [])
  let mimeType := if mime.isEmpty then "text/plain" else String.ofList mime
  if parts.tail.any (normalize · == ['b', 'a', 's', 'e', '6', '4']) then
    match Base64.decode (base64Text payload) with
    | .ok data => .ok ⟨mimeType, data⟩
    | .error problem => .error (.base64 problem)
  else .ok ⟨mimeType, Percent.decode payload⟩

def decode (uri : String) : Except Problem DataUri :=
  if isDataUri uri then
    match Text.cut ',' (uri.toList.drop 5) with
    | some (header, payload) => decodeParts header payload
    | none => .error .noSeparator
  else .error .otherScheme

end DataUri

end Gltf
