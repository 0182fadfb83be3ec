import Gltf.Image.Pixels
import Gltf.Schema.Extensions

/-!
Documents. The objects that the later stages of reading look into have structures of their own; the
others stay records. `Document.ofRecord` takes a root record apart and `Document.toRecord` puts one
together. A field whose value is of another kind than its structure has room for is read as the
initial value of its type.
-/

namespace Gltf

inductive ComponentType where
  | byte
  | unsignedByte
  | short
  | unsignedShort
  | unsignedInt
  | float
deriving DecidableEq, Repr

namespace ComponentType

def all : List ComponentType := [.byte, .unsignedByte, .short, .unsignedShort, .unsignedInt, .float]

def code : ComponentType → Int
  | .byte => 5120
  | .unsignedByte => 5121
  | .short => 5122
  | .unsignedShort => 5123
  | .unsignedInt => 5125
  | .float => 5126

def ofCode? (code : Int) : Option ComponentType := all.find? (·.code == code)

end ComponentType

inductive AccessorType where
  | scalar
  | vec2
  | vec3
  | vec4
  | mat2
  | mat3
  | mat4
deriving DecidableEq, Repr

namespace AccessorType

def all : List AccessorType := [.scalar, .vec2, .vec3, .vec4, .mat2, .mat3, .mat4]

def name : AccessorType → String
  | .scalar => "SCALAR"
  | .vec2 => "VEC2"
  | .vec3 => "VEC3"
  | .vec4 => "VEC4"
  | .mat2 => "MAT2"
  | .mat3 => "MAT3"
  | .mat4 => "MAT4"

def ofName? (name : String) : Option AccessorType := all.find? (·.name == name)

end AccessorType

structure SparseIndices where
  bufferView : Int := -1
  byteOffset : Int := 0
  /-- The type of the indices, if it is a known one. -/
  componentType : Option ComponentType := some .unsignedByte
  attachments : Attachments := {}

structure SparseValues where
  bufferView : Int := -1
  byteOffset : Int := 0
  attachments : Attachments := {}

structure Sparse where
  count : Int := 0
  indices : SparseIndices := {}
  values : SparseValues := {}
  attachments : Attachments := {}

structure Accessor where
  bufferView : Option Int := none
  byteOffset : Int := 0
  componentType : ComponentType := .byte
  normalized : Bool := false
  count : Int := 0
  type : AccessorType := .scalar
  max : List Binary64 := []
  min : List Binary64 := []
  sparse : Option Sparse := none
  name : Option String := none
  attachments : Attachments := {}

structure Buffer where
  uri : Option String := none
  byteLength : Int := 0
  name : Option String := none
  /-- The content, once it is resolved. -/
  data : Option Bytes := none
  attachments : Attachments := {}

structure BufferView where
  buffer : Int := -1
  byteOffset : Int := 0
  byteLength : Int := 0
  byteStride : Option Int := none
  target : Option Int := none
  name : Option String := none
  attachments : Attachments := {}

structure ImageSource where
  uri : Option String := none
  mimeType : Option String := none
  bufferView : Option Int := none
  name : Option String := none
  /-- The pixels, once they are decoded. -/
  image : Option ImageData := none
  attachments : Attachments := {}

structure MeshPrimitive where
  attributes : Table String Int := []
  indices : Option Int := none
  material : Option Int := none
  mode : Int := 4
  targets : List (Table String Int) := []
  attachments : Attachments := {}

structure Mesh where
  primitives : List MeshPrimitive := []
  weights : List Binary64 := []
  name : Option String := none
  attachments : Attachments := {}

structure Asset where
  copyright : Option String := none
  generator : Option String := none
  version : String := ""
  minVersion : Option String := none
  attachments : Attachments := {}

structure Document where
  extensionsUsed : List String := []
  extensionsRequired : List String := []
  accessors : List Accessor := []
  animations : List Record := []
  asset : Asset := {}
  buffers : List Buffer := []
  bufferViews : List BufferView := []
  cameras : List Record := []
  images : List ImageSource := []
  materials : List Record := []
  meshes : List Mesh := []
  nodes : List Record := []
  samplers : List Record := []
  scene : Option Int := none
  scenes : List Record := []
  skins : List Record := []
  textures : List Record := []
  attachments : Attachments := {}

/-- The element that a document index names; negative indices and those past the end name none. -/
def elementAt? {α : Type} (elements : List α) (index : Int) : Option α :=
  if index < 0 then none else elements[index.toNat]?

namespace Record

def intField (r : Record) (name : String) (initial : Int) : Int :=
  ((r.field name).int?).getD initial

def stringField? (r : Record) (name : String) : Option String := (r.field name).string?

def floatsField (r : Record) (name : String) : List Binary64 :=
  (r.field name).items.filterMap Value.float?

/-- The records of a list; any other item counts as an empty one. -/
def recordsField (r : Record) (name : String) : List Record :=
  (r.field name).items.map fun v => v.record?.getD empty

def componentField? (r : Record) (name : String) : Option ComponentType :=
  (r.field name).int?.bind ComponentType.ofCode?

/-- The integers of a map. -/
def intEntries (v : Value) : Table String Int :=
  v.entries.filterMap fun (key, v) => v.int?.map (key, ·)

/-- The record of an object that carries nothing beside its fields. -/
def plain (name : String) (fields : List (String × Value)) : Record :=
  .mk ⟨name, []⟩ fields [] .null []

/-- The record of a type with these fields. -/
def make (t : ObjectType) (fields : List (String × Value)) (a : Attachments) : Record :=
  .mk t.lineage fields a.extensions a.extras a.unknown

end Record

namespace Value

def ofInt? (n : Option Int) : Value := ofOption ofInt n

def ofString? (s : Option String) : Value := ofOption ofString s

def ofFloats (xs : List Binary64) : Value := .list (xs.map ofFloat)

def ofStrings (ss : List String) : Value := .list (ss.map ofString)

def ofRecords (rs : List Record) : Value := .list (rs.map .record)

def ofInts (entries : Table String Int) : Value := .map (entries.map fun (key, n) => (key, ofInt n))

end Value

namespace SparseIndices

def ofRecord (r : Record) : SparseIndices where
  bufferView := r.intField "buffer_view" (-1)
  byteOffset := r.intField "byte_offset" 0
  componentType := r.componentField? "component_type"
  attachments := r.attachments

def toRecord (s : SparseIndices) : Record :=
  .make Schema.sparseIndices
    [("buffer_view", .ofInt s.bufferView), ("byte_offset", .ofInt s.byteOffset),
      ("component_type", .ofInt? (s.componentType.map ComponentType.code))]
    s.attachments

end SparseIndices

namespace SparseValues

def ofRecord (r : Record) : SparseValues where
  bufferView := r.intField "buffer_view" (-1)
  byteOffset := r.intField "byte_offset" 0
  attachments := r.attachments

def toRecord (s : SparseValues) : Record :=
  .make Schema.sparseValues
    [("buffer_view", .ofInt s.bufferView), ("byte_offset", .ofInt s.byteOffset)]
    s.attachments

end SparseValues

namespace Sparse

def ofRecord (r : Record) : Sparse where
  count := r.intField "count" 0
  indices := ((r.field "indices").record?.map SparseIndices.ofRecord).getD {}
  values := ((r.field "values").record?.map SparseValues.ofRecord).getD {}
  attachments := r.attachments

def toRecord (s : Sparse) : Record :=
  .make Schema.sparse
    [("count", .ofInt s.count), ("indices", .record s.indices.toRecord),
      ("values", .record s.values.toRecord)]
    s.attachments

end Sparse

namespace Accessor

def ofRecord (r : Record) : Accessor where
  bufferView := (r.field "buffer_view").int?
  byteOffset := r.intField "byte_offset" 0
  componentType := (r.componentField? "component_type").getD .byte
  normalized := (r.field "normalized").isTrue
  count := r.intField "count" 0
  type := ((r.stringField? "type").bind AccessorType.ofName?).getD .scalar
  max := r.floatsField "max"
  min := r.floatsField "min"
  sparse := (r.field "sparse").record?.map Sparse.ofRecord
  name := r.stringField? "name"
  attachments := r.attachments

def toRecord (a : Accessor) : Record :=
  .make Schema.accessor
    [("buffer_view", .ofInt? a.bufferView), ("byte_offset", .ofInt a.byteOffset),
      ("component_type", .ofInt a.componentType.code), ("normalized", .ofBool a.normalized),
      ("count", .ofInt a.count), ("type", .ofString a.type.name), ("max", .ofFloats a.max),
      ("min", .ofFloats a.min), ("sparse", .ofOption (fun s => .record s.toRecord) a.sparse),
      ("name", .ofString? a.name)]
    a.attachments

end Accessor

namespace Buffer

def ofRecord (r : Record) : Buffer where
  uri := r.stringField? "uri"
  byteLength := r.intField "byte_length" 0
  name := r.stringField? "name"
  data := (r.field "data").bytes?
  attachments := r.attachments

def toRecord (b : Buffer) : Record :=
  .make Schema.buffer
    [("uri", .ofString? b.uri), ("byte_length", .ofInt b.byteLength), ("name", .ofString? b.name),
      ("data", .ofOption .bytes b.data)]
    b.attachments

end Buffer

namespace BufferView

def ofRecord (r : Record) : BufferView where
  buffer := r.intField "buffer" (-1)
  byteOffset := r.intField "byte_offset" 0
  byteLength := r.intField "byte_length" 0
  byteStride := (r.field "byte_stride").int?
  target := (r.field "target").int?
  name := r.stringField? "name"
  attachments := r.attachments

def toRecord (v : BufferView) : Record :=
  .make Schema.bufferView
    [("buffer", .ofInt v.buffer), ("byte_offset", .ofInt v.byteOffset),
      ("byte_length", .ofInt v.byteLength), ("byte_stride", .ofInt? v.byteStride),
      ("target", .ofInt? v.target), ("name", .ofString? v.name)]
    v.attachments

end BufferView

namespace MipPosition

def ofRecord (r : Record) : MipPosition where
  offset := (r.intField "byte_offset" 0).toNat
  size := (r.intField "byte_size" 0).toNat

def toRecord (p : MipPosition) : Record :=
  .plain "MipPosition" [("byte_offset", .ofInt p.offset), ("byte_size", .ofInt p.size)]

end MipPosition

namespace ImageData

def ofRecord (r : Record) : ImageData where
  width := (r.intField "width" 0).toNat
  height := (r.intField "height" 0).toNat
  channels := (r.intField "channels" 4).toNat
  bytesPerChannel := (r.intField "bytes_per_channel" 1).toNat
  format := ((r.stringField? "compressed_pixel_format").bind PixelFormat.ofName?).getD .none
  mips := (r.recordsField "mip_positions").map MipPosition.ofRecord
  pixels := ((r.field "pixel_data").bytes?).getD []

def toRecord (i : ImageData) : Record :=
  .plain "ImageData"
    [("width", .ofInt i.width), ("height", .ofInt i.height), ("channels", .ofInt i.channels),
      ("bytes_per_channel", .ofInt i.bytesPerChannel),
      ("compressed_pixel_format", .ofString i.format.name),
      ("mip_positions", .ofRecords (i.mips.map MipPosition.toRecord)),
      ("pixel_data", .bytes i.pixels)]

end ImageData

namespace ImageSource

def ofRecord (r : Record) : ImageSource where
  uri := r.stringField? "uri"
  mimeType := r.stringField? "mime_type"
  bufferView := (r.field "buffer_view").int?
  name := r.stringField? "name"
  image := (r.field "image_data").record?.map ImageData.ofRecord
  attachments := r.attachments

def toRecord (i : ImageSource) : Record :=
  .make Schema.image
    [("uri", .ofString? i.uri), ("mime_type", .ofString? i.mimeType),
      ("buffer_view", .ofInt? i.bufferView), ("name", .ofString? i.name),
      ("image_data", .ofOption (fun image => .record image.toRecord) i.image)]
    i.attachments

end ImageSource

namespace MeshPrimitive

def ofRecord (r : Record) : MeshPrimitive where
  attributes := Record.intEntries (r.field "attributes")
  indices := (r.field "indices").int?
  material := (r.field "material").int?
  mode := r.intField "mode" 4
  targets := (r.field "targets").items.map Record.intEntries
  attachments := r.attachments

def toRecord (p : MeshPrimitive) : Record :=
  .make Schema.meshPrimitive
    [("attributes", .ofInts p.attributes), ("indices", .ofInt? p.indices),
      ("material", .ofInt? p.material), ("mode", .ofInt p.mode),
      ("targets", .list (p.targets.map .ofInts))]
    p.attachments

end MeshPrimitive

namespace Mesh

def ofRecord (r : Record) : Mesh where
  primitives := (r.recordsField "primitives").map MeshPrimitive.ofRecord
  weights := r.floatsField "weights"
  name := r.stringField? "name"
  attachments := r.attachments

def toRecord (m : Mesh) : Record :=
  .make Schema.mesh
    [("primitives", .ofRecords (m.primitives.map MeshPrimitive.toRecord)),
      ("weights", .ofFloats m.weights), ("name", .ofString? m.name)]
    m.attachments

end Mesh

namespace Asset

def ofRecord (r : Record) : Asset where
  copyright := r.stringField? "copyright"
  generator := r.stringField? "generator"
  version := (r.stringField? "version").getD ""
  minVersion := r.stringField? "min_version"
  attachments := r.attachments

def toRecord (a : Asset) : Record :=
  .make Schema.asset
    [("copyright", .ofString? a.copyright), ("generator", .ofString? a.generator),
      ("version", .ofString a.version), ("min_version", .ofString? a.minVersion)]
    a.attachments

end Asset

namespace Document

def ofRecord (r : Record) : Document where
  extensionsUsed := (r.field "extensions_used").items.filterMap Value.string?
  extensionsRequired := (r.field "extensions_required").items.filterMap Value.string?
  accessors := (r.recordsField "accessors").map Accessor.ofRecord
  animations := r.recordsField "animations"
  asset := ((r.field "asset").record?.map Asset.ofRecord).getD {}
  buffers := (r.recordsField "buffers").map Buffer.ofRecord
  bufferViews := (r.recordsField "buffer_views").map BufferView.ofRecord
  cameras := r.recordsField "cameras"
  images := (r.recordsField "images").map ImageSource.ofRecord
  materials := r.recordsField "materials"
  meshes := (r.recordsField "meshes").map Mesh.ofRecord
  nodes := r.recordsField "nodes"
  samplers := r.recordsField "samplers"
  scene := (r.field "scene").int?
  scenes := r.recordsField "scenes"
  skins := r.recordsField "skins"
  textures := r.recordsField "textures"
  attachments := r.attachments

def toRecord (d : Document) : Record :=
  .make Schema.root
    [("extensions_used", .ofStrings d.extensionsUsed),
      ("extensions_required", .ofStrings d.extensionsRequired),
      ("accessors", .ofRecords (d.accessors.map Accessor.toRecord)),
      ("animations", .ofRecords d.animations), ("asset", .record d.asset.toRecord),
      ("buffers", .ofRecords (d.buffers.map Buffer.toRecord)),
      ("buffer_views", .ofRecords (d.bufferViews.map BufferView.toRecord)),
      ("cameras", .ofRecords d.cameras),
      ("images", .ofRecords (d.images.map ImageSource.toRecord)),
      ("materials", .ofRecords d.materials),
      ("meshes", .ofRecords (d.meshes.map Mesh.toRecord)), ("nodes", .ofRecords d.nodes),
      ("samplers", .ofRecords d.samplers), ("scene", .ofInt? d.scene),
      ("scenes", .ofRecords d.scenes), ("skins", .ofRecords d.skins),
      ("textures", .ofRecords d.textures)]
    d.attachments

end Document

end Gltf
