import Gltf.Glb
import Gltf.Json.Printer
import Gltf.Text.Utf8

/-!
Writing JSON values to containers. A string stands for the text of a document rather than for a
value.
-/

namespace Gltf.Glb

def documentText : Json → List Char
  | .string text => text.toList
  | value => value.compact

def writeValue (value : Json) (binary : Option Bytes) : Bytes :=
  write (Utf8.encode (documentText value)) binary

end Gltf.Glb
