import Gltf.Edited.AccessorView
import Gltf.Edited.Draco
import Gltf.Edited.Meshopt
import Gltf.Glb.Value
import Gltf.Main
import Gltf.Proofs.Accessor.Elements
import Gltf.Proofs.Accessor.Faults
import Gltf.Proofs.Accessor.Footprint
import Gltf.Proofs.Binary64.Nearest
import Gltf.Proofs.DataUri
import Gltf.Proofs.File.Containment
import Gltf.Proofs.Glb.Values
import Gltf.Proofs.Image.Containers
import Gltf.Proofs.Image.Placement
import Gltf.Proofs.Json.Coercion
import Gltf.Proofs.Json.FaultPlaces
import Gltf.Proofs.Ktx2.Descriptor
import Gltf.Proofs.Ktx2.Encoding
import Gltf.Proofs.Options.History
import Gltf.Proofs.Reading.Conformance
import Gltf.Proofs.Reading.Fields
import Gltf.Proofs.Reading.Locations
import Gltf.Proofs.Reading.Replacement
import Gltf.Proofs.Reading.Rewriting
import Gltf.Proofs.Reading.States
import Gltf.Proofs.Resource.Dangling
import Gltf.Proofs.Resource.Dropping
import Gltf.Proofs.Resource.Independence
import Gltf.Proofs.Resource.Isolation
import Gltf.Proofs.Resource.Naming
import Gltf.Proofs.Resource.Outcome
import Gltf.Proofs.Resource.Requests
import Gltf.Proofs.Resource.SourceRanges
import Gltf.Proofs.Resource.Splices
