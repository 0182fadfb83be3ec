import Gltf.CommandLine.Request
import Gltf.File.Path
import Gltf.Json.Printer
import Gltf.Ktx2.Layout
import Gltf.Reader

/-!
What the commands print: a summary of a document or the mip layout of a texture, as lines or as
JSON.
-/

namespace Gltf.CommandLine

/-- An exit status, and the texts for the output and for messages. -/
structure Outcome where
  status : Nat
  output : String := ""
  messages : String := ""
deriving DecidableEq, Repr

def counts (d : Document) : List (String × Nat) :=
  [("accessors", d.accessors.length), ("animations", d.animations.length),
    ("buffers", d.buffers.length), ("buffer_views", d.bufferViews.length),
    ("cameras", d.cameras.length), ("images", d.images.length),
    ("materials", d.materials.length), ("meshes", d.meshes.length), ("nodes", d.nodes.length),
    ("samplers", d.samplers.length), ("scenes", d.scenes.length), ("skins", d.skins.length),
    ("textures", d.textures.length)]

def strings (ss : List String) : Json := .array (ss.map .string)

def natural (n : Nat) : Json := .number (.int n)

def documentMembers (d : Document) : List (String × Json) :=
  [("asset_version", .string d.asset.version),
    ("counts", .object ((counts d).map fun (name, count) => (name, natural count))),
    ("extensions_used", strings d.extensionsUsed),
    ("root_extensions", strings ((Table.keys d.attachments.extensions).mergeSort (· ≤ ·))),
    ("decoded_images", natural (d.images.countP (·.image.isSome)))]

def summary (r : ReadResult) : Json :=
  .object ([("ok", .bool r.isOk), ("errors", strings r.errors), ("warnings", strings r.warnings)] ++
    (r.document?.map documentMembers).getD [])

def jsonText (value : Json) : String := unlines [String.ofList (value.indented 0)]

def documentLines (d : Document) : List String :=
  let version := if d.asset.version = "" then "(missing)" else d.asset.version
  [s!"  Asset version: {version}"] ++
    ((counts d).filter (0 < ·.2)).map (fun (name, count) => s!"  {name}: {count}") ++
    if d.extensionsUsed = [] then []
    else [s!"  Extensions used: {commaSeparated d.extensionsUsed}"]

def resultLines (path : File.Path) (r : ReadResult) : List String :=
  let verdict := if r.isOk then "OK" else "FAILED"
  [s!"[{verdict}] Read {path.text}"] ++ (r.document?.map documentLines).getD [] ++
    [s!"  Errors: {r.errors.length}", s!"  Warnings: {r.warnings.length}"]

def messageLines (flags : Flags) (r : ReadResult) : List String :=
  r.errors.map (s!"error: {·}") ++
    if flags.quiet then [] else r.warnings.map (s!"warning: {·}")

def inspectOutcome (path : File.Path) (flags : Flags) (r : ReadResult) : Outcome where
  status := if r.isOk then 0 else 1
  output :=
    if flags.json then jsonText (summary r).sorted
    else if flags.quiet then ""
    else unlines (resultLines path r)
  messages := if flags.json then "" else unlines (messageLines flags r)

def layoutJson (l : Ktx2.Layout) : Json :=
  .object [("width", natural l.header.width), ("height", natural l.header.height),
    ("vk_format", natural l.header.vkFormat), ("level_count", natural l.header.levelCount),
    ("supercompression_scheme", natural l.header.supercompression),
    ("target_format", .string l.format.name), ("channels", natural l.channels),
    ("mip_positions", .array (l.mips.map fun place =>
      .object [("byte_offset", natural place.offset), ("byte_size", natural place.size)]))]

def layoutLines (path : File.Path) (l : Ktx2.Layout) : List String :=
  let h := l.header
  let title := s!"{path.text}: {h.width}x{h.height} vkFormat={h.vkFormat} levelCount={h.levelCount}"
  let levels := l.mips.zipIdx.map fun (place, i) =>
    s!"  level {i}: offset={place.offset} size={place.size}"
  title ::
    if levels = [] then ["  base image only (mips may be generated at runtime)"] else levels

def mipsOutcome (path : File.Path) (flags : Flags) (l : Ktx2.Layout) : Outcome where
  status := 0
  output :=
    if flags.json then jsonText (layoutJson l)
    else if flags.quiet then ""
    else unlines (layoutLines path l)

end Gltf.CommandLine
