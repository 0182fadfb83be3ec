import Gltf.Schema.Shape

/-!
The object types of glTF 2.0, from the leaves up to the document root.
-/

namespace Gltf.Schema

/-- The kind that every object is, most generally. -/
def baseName : String := "ExtensibleObject"

def base : ObjectType := .mk ⟨baseName, []⟩ "" [] [] []

def objectType (name : String) (requiredFields : List String) (properties : List Property) :
    ObjectType :=
  .mk ⟨name, [baseName]⟩ "" requiredFields properties []

def index : Form := .number .int32

def size : Form := .number .int64

def real : Form := .number .float64

def reals : Shape := .required (.list (.required real))

/-- A property that is null until it is read. -/
def optional (key field : String) (form : Form) : Property :=
  .mk key field (.optional form) .null

def name : Property := optional "name" "name" .string

def integer (key field : String) (form : Form) (initial : Int) : Property :=
  .mk key field (.required form) (.ofInt initial)

def number (key field : String) (initial : Binary64) : Property :=
  .mk key field (.required real) (.ofFloat initial)

def flag (key field : String) : Property :=
  .mk key field (.required .bool) (.ofBool false)

def text (key field : String) : Property :=
  .mk key field (.required .string) (.ofString "")

def numbers (key field : String) (initial : List Binary64) : Property :=
  .mk key field reals (.list (initial.map .ofFloat))

def listOf (key field : String) (form : Form) : Property :=
  .mk key field (.required (.list (.required form))) (.list [])

def indexMap (key field : String) : Property :=
  .mk key field (.required (.map (.required index))) (.map [])

def part (key field : String) (type : ObjectType) : Property :=
  .mk key field (.required (.object type)) (.record type.blank)

def intMember (key field : String) (e : IntEnum) (initial : Int) : Property :=
  .mk key field (.required (.intEnum e)) (.ofInt initial)

def stringMember (key field : String) (e : StringEnum) (initial : String) : Property :=
  .mk key field (.required (.stringEnum e)) (.ofString initial)

def zero : Binary64 := ⟨0⟩

def half : Binary64 := ⟨0x3fe0000000000000⟩

def one : Binary64 := ⟨0x3ff0000000000000⟩

def componentType : IntEnum := ⟨"ComponentType", [5120, 5121, 5122, 5123, 5125, 5126]⟩

def accessorType : StringEnum :=
  ⟨"AccessorType", ["SCALAR", "VEC2", "VEC3", "VEC4", "MAT2", "MAT3", "MAT4"]⟩

def primitiveMode : IntEnum := ⟨"PrimitiveMode", [0, 1, 2, 3, 4, 5, 6]⟩

def bufferViewTarget : IntEnum := ⟨"BufferViewTarget", [34962, 34963]⟩

def magFilter : IntEnum := ⟨"MagFilter", [9728, 9729]⟩

def minFilter : IntEnum := ⟨"MinFilter", [9728, 9729, 9984, 9985, 9986, 9987]⟩

def wrapMode : IntEnum := ⟨"WrapMode", [33071, 33648, 10497]⟩

def alphaMode : StringEnum := ⟨"AlphaMode", ["OPAQUE", "MASK", "BLEND"]⟩

def cameraType : StringEnum := ⟨"CameraType", ["perspective", "orthographic"]⟩

def interpolation : StringEnum := ⟨"Interpolation", ["LINEAR", "STEP", "CUBICSPLINE"]⟩

def asset : ObjectType :=
  objectType "Asset" ["version"]
    [optional "copyright" "copyright" .string, optional "generator" "generator" .string,
      text "version" "version", optional "minVersion" "min_version" .string]

def sparseIndices : ObjectType :=
  objectType "AccessorSparseIndices" ["buffer_view", "component_type"]
    [integer "bufferView" "buffer_view" index (-1), integer "byteOffset" "byte_offset" size 0,
      intMember "componentType" "component_type" componentType 5121]

def sparseValues : ObjectType :=
  objectType "AccessorSparseValues" ["buffer_view"]
    [integer "bufferView" "buffer_view" index (-1), integer "byteOffset" "byte_offset" size 0]

def sparse : ObjectType :=
  objectType "AccessorSparse" ["count", "indices", "values"]
    [integer "count" "count" size 0, part "indices" "indices" sparseIndices,
      part "values" "values" sparseValues]

def accessor : ObjectType :=
  objectType "Accessor" ["component_type", "count", "type"]
    [optional "bufferView" "buffer_view" index, integer "byteOffset" "byte_offset" size 0,
      intMember "componentType" "component_type" componentType 5120,
      flag "normalized" "normalized", integer "count" "count" size 0,
      stringMember "type" "type" accessorType "SCALAR", numbers "max" "max" [],
      numbers "min" "min" [], optional "sparse" "sparse" (.object sparse), name]

def animationChannelTarget : ObjectType :=
  objectType "AnimationChannelTarget" ["path"] [optional "node" "node" index, text "path" "path"]

def animationChannel : ObjectType :=
  objectType "AnimationChannel" ["sampler", "target"]
    [integer "sampler" "sampler" index (-1), part "target" "target" animationChannelTarget]

def animationSampler : ObjectType :=
  objectType "AnimationSampler" ["input", "output"]
    [integer "input" "input" index (-1),
      stringMember "interpolation" "interpolation" interpolation "LINEAR",
      integer "output" "output" index (-1)]

def animation : ObjectType :=
  objectType "Animation" ["channels", "samplers"]
    [listOf "channels" "channels" (.object animationChannel),
      listOf "samplers" "samplers" (.object animationSampler), name]

def buffer : ObjectType :=
  .mk ⟨"Buffer", [baseName]⟩ "" ["byte_length"]
    [optional "uri" "uri" .string, integer "byteLength" "byte_length" size 0, name] ["data"]

def bufferView : ObjectType :=
  objectType "BufferView" ["buffer", "byte_length"]
    [integer "buffer" "buffer" index (-1), integer "byteOffset" "byte_offset" size 0,
      integer "byteLength" "byte_length" size 0, optional "byteStride" "byte_stride" size,
      optional "target" "target" (.intEnum bufferViewTarget), name]

def cameraOrthographic : ObjectType :=
  objectType "CameraOrthographic" ["xmag", "ymag", "zfar", "znear"]
    [number "xmag" "xmag" zero, number "ymag" "ymag" zero, number "zfar" "zfar" zero,
      number "znear" "znear" zero]

def cameraPerspective : ObjectType :=
  objectType "CameraPerspective" ["yfov", "znear"]
    [optional "aspectRatio" "aspect_ratio" real, number "yfov" "yfov" zero,
      optional "zfar" "zfar" real, number "znear" "znear" zero]

def camera : ObjectType :=
  objectType "Camera" ["type"]
    [optional "orthographic" "orthographic" (.object cameraOrthographic),
      optional "perspective" "perspective" (.object cameraPerspective),
      stringMember "type" "type" cameraType "perspective", name]

def image : ObjectType :=
  .mk ⟨"Image", [baseName]⟩ "" []
    [optional "uri" "uri" .string, optional "mimeType" "mime_type" .string,
      optional "bufferView" "buffer_view" index, name]
    ["image_data"]

def textureInfoProperties : List Property :=
  [integer "index" "index" index (-1), integer "texCoord" "tex_coord" size 0]

def textureInfo : ObjectType := objectType "TextureInfo" ["index"] textureInfoProperties

def normalTextureInfo : ObjectType :=
  .mk ⟨"MaterialNormalTextureInfo", ["TextureInfo", baseName]⟩ "" ["index"]
    (textureInfoProperties ++ [number "scale" "scale" one]) []

def occlusionTextureInfo : ObjectType :=
  .mk ⟨"MaterialOcclusionTextureInfo", ["TextureInfo", baseName]⟩ "" ["index"]
    (textureInfoProperties ++ [number "strength" "strength" one]) []

def pbrMetallicRoughness : ObjectType :=
  objectType "MaterialPbrMetallicRoughness" []
    [numbers "baseColorFactor" "base_color_factor" [one, one, one, one],
      optional "baseColorTexture" "base_color_texture" (.object textureInfo),
      number "metallicFactor" "metallic_factor" one,
      number "roughnessFactor" "roughness_factor" one,
      optional "metallicRoughnessTexture" "metallic_roughness_texture" (.object textureInfo)]

def material : ObjectType :=
  objectType "Material" []
    [name, optional "pbrMetallicRoughness" "pbr_metallic_roughness" (.object pbrMetallicRoughness),
      optional "normalTexture" "normal_texture" (.object normalTextureInfo),
      optional "occlusionTexture" "occlusion_texture" (.object occlusionTextureInfo),
      optional "emissiveTexture" "emissive_texture" (.object textureInfo),
      numbers "emissiveFactor" "emissive_factor" [zero, zero, zero],
      stringMember "alphaMode" "alpha_mode" alphaMode "OPAQUE",
      number "alphaCutoff" "alpha_cutoff" half, flag "doubleSided" "double_sided"]

def meshPrimitive : ObjectType :=
  objectType "MeshPrimitive" ["attributes"]
    [indexMap "attributes" "attributes", optional "indices" "indices" index,
      optional "material" "material" index, intMember "mode" "mode" primitiveMode 4,
      listOf "targets" "targets" (.map (.required index))]

def mesh : ObjectType :=
  objectType "Mesh" ["primitives"]
    [listOf "primitives" "primitives" (.object meshPrimitive), numbers "weights" "weights" [], name]

def node : ObjectType :=
  objectType "Node" []
    [optional "camera" "camera" index, listOf "children" "children" index,
      optional "skin" "skin" index,
      numbers "matrix" "matrix"
        [one, zero, zero, zero, zero, one, zero, zero, zero, zero, one, zero, zero, zero, zero, one],
      optional "mesh" "mesh" index, numbers "rotation" "rotation" [zero, zero, zero, one],
      numbers "scale" "scale" [one, one, one],
      numbers "translation" "translation" [zero, zero, zero], numbers "weights" "weights" [], name]

def sampler : ObjectType :=
  objectType "Sampler" []
    [optional "magFilter" "mag_filter" (.intEnum magFilter),
      optional "minFilter" "min_filter" (.intEnum minFilter),
      intMember "wrapS" "wrap_s" wrapMode 10497, intMember "wrapT" "wrap_t" wrapMode 10497, name]

def scene : ObjectType := objectType "Scene" [] [listOf "nodes" "nodes" index, name]

def skin : ObjectType :=
  objectType "Skin" ["joints"]
    [optional "inverseBindMatrices" "inverse_bind_matrices" index,
      optional "skeleton" "skeleton" index, listOf "joints" "joints" index, name]

def texture : ObjectType :=
  objectType "Texture" []
    [optional "sampler" "sampler" index, optional "source" "source" index, name]

/-- The root of a document. -/
def root : ObjectType :=
  objectType "Gltf" ["asset"]
    [listOf "extensionsUsed" "extensions_used" .string,
      listOf "extensionsRequired" "extensions_required" .string,
      listOf "accessors" "accessors" (.object accessor),
      listOf "animations" "animations" (.object animation), part "asset" "asset" asset,
      listOf "buffers" "buffers" (.object buffer),
      listOf "bufferViews" "buffer_views" (.object bufferView),
      listOf "cameras" "cameras" (.object camera), listOf "images" "images" (.object image),
      listOf "materials" "materials" (.object material),
      listOf "meshes" "meshes" (.object mesh), listOf "nodes" "nodes" (.object node),
      listOf "samplers" "samplers" (.object sampler), optional "scene" "scene" index,
      listOf "scenes" "scenes" (.object scene), listOf "skins" "skins" (.object skin),
      listOf "textures" "textures" (.object texture)]

def coreTypes : List ObjectType :=
  [base, asset, sparseIndices, sparseValues, sparse, accessor, animationChannelTarget,
    animationChannel, animationSampler, animation, buffer, bufferView, cameraOrthographic,
    cameraPerspective, camera, image, textureInfo, normalTextureInfo, occlusionTextureInfo,
    pbrMetallicRoughness, material, meshPrimitive, mesh, node, sampler, scene, skin, texture, root]

end Gltf.Schema
