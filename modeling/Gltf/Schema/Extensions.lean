import Gltf.Schema.Core

/-!
The object types of the extensions that are read out of the box.
-/

namespace Gltf.Schema

def extensionType (name extensionName : String) (requiredFields : List String)
    (properties : List Property) : ObjectType :=
  .mk ⟨name, [baseName]⟩ extensionName requiredFields properties []

def meshoptMode : StringEnum := ⟨"MeshoptMode", ["ATTRIBUTES", "TRIANGLES", "INDICES"]⟩

def meshoptFilter : StringEnum :=
  ⟨"MeshoptFilter", ["NONE", "OCTAHEDRAL", "QUATERNION", "EXPONENTIAL"]⟩

/-- Positions relative to a center. -/
def cesiumRtc : ObjectType :=
  extensionType "CesiumRtc" "CESIUM_RTC" ["center"]
    [numbers "center" "center" [zero, zero, zero]]

/-- Compressed geometry of a mesh primitive: where it lies, and the number that each attribute has
in it. -/
def dracoMeshCompression : ObjectType :=
  extensionType "KhrDracoMeshCompression" "KHR_draco_mesh_compression"
    ["buffer_view", "attributes"]
    [integer "bufferView" "buffer_view" index (-1), indexMap "attributes" "attributes"]

/-- Compressed content of a buffer view: where it lies and how it is coded. -/
def meshoptCompression : ObjectType :=
  extensionType "ExtMeshoptCompression" "EXT_meshopt_compression"
    ["buffer", "byte_length", "byte_stride", "count", "mode"]
    [integer "buffer" "buffer" index (-1), integer "byteOffset" "byte_offset" size 0,
      integer "byteLength" "byte_length" size 0, integer "byteStride" "byte_stride" size 0,
      integer "count" "count" size 0, stringMember "mode" "mode" meshoptMode "ATTRIBUTES",
      stringMember "filter" "filter" meshoptFilter "NONE"]

/-- Marks a buffer that only stands in for decompressed content. -/
def meshoptCompressionBuffer : ObjectType :=
  extensionType "ExtMeshoptCompressionBuffer" "EXT_meshopt_compression" []
    [flag "fallback" "fallback"]

def textureBasisu : ObjectType :=
  extensionType "KhrTextureBasisu" "KHR_texture_basisu" ["source"]
    [integer "source" "source" index (-1)]

def textureTransform : ObjectType :=
  extensionType "KhrTextureTransform" "KHR_texture_transform" []
    [numbers "offset" "offset" [zero, zero], number "rotation" "rotation" zero,
      numbers "scale" "scale" [one, one], optional "texCoord" "tex_coord" size]

def materialsUnlit : ObjectType := extensionType "KhrMaterialsUnlit" "KHR_materials_unlit" [] []

def meshGpuInstancing : ObjectType :=
  extensionType "ExtMeshGpuInstancing" "EXT_mesh_gpu_instancing" ["attributes"]
    [indexMap "attributes" "attributes"]

def extensionTypes : List ObjectType :=
  [cesiumRtc, dracoMeshCompression, meshoptCompression, meshoptCompressionBuffer, textureBasisu,
    textureTransform, materialsUnlit, meshGpuInstancing]

def allTypes : List ObjectType := coreTypes ++ extensionTypes

end Gltf.Schema
