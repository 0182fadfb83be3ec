import Gltf.Options
import Gltf.Proofs.Table
import Mathlib

/-!
Choices and null. A choice takes null whether or not null is listed beside its forms; the object
types of glTF and of the extensions read out of the box list it in every choice, however deep, and
callers may register types that do not.
-/

namespace Gltf

mutual

/-- Whether every choice inside a form lists null. -/
def Form.listsNulls : Form → Bool
  | .list item => item.listsNulls
  | .map item => item.listsNulls
  | .object t => t.listsNulls
  | _ => true
termination_by structural form => form

def Shape.listsNulls : Shape → Bool
  | .required form => form.listsNulls
  | .optional form => form.listsNulls
  | .choice forms _ listsNull => listsNull && formsListNulls forms
termination_by structural shape => shape

def formsListNulls : List Form → Bool
  | [] => true
  | form :: forms => form.listsNulls && formsListNulls forms
termination_by structural forms => forms

def ObjectType.listsNulls : ObjectType → Bool
  | .mk _ _ _ properties _ => propertiesListNulls properties
termination_by structural t => t

def Property.listsNulls : Property → Bool
  | .mk _ _ shape _ => shape.listsNulls
termination_by structural p => p

def propertiesListNulls : List Property → Bool
  | [] => true
  | p :: properties => p.listsNulls && propertiesListNulls properties
termination_by structural properties => properties

end

theorem formsListNulls_iff (forms : List Form) :
    formsListNulls forms = true ↔ ∀ form ∈ forms, form.listsNulls = true := by
  induction forms with
  | nil => simp [formsListNulls]
  | cons form forms ih => simp [formsListNulls, ih]

theorem propertiesListNulls_iff (properties : List Property) :
    propertiesListNulls properties = true ↔ ∀ p ∈ properties, p.shape.listsNulls = true := by
  induction properties with
  | nil => simp [propertiesListNulls]
  | cons p properties ih =>
      obtain ⟨key, field, shape, initial⟩ := p
      simp [propertiesListNulls, Property.listsNulls, Property.shape, ih]

theorem ObjectType.listsNulls_iff (t : ObjectType) :
    t.listsNulls = true ↔ ∀ p ∈ t.properties, p.shape.listsNulls = true := by
  obtain ⟨lineage, extensionName, requiredFields, properties, derived⟩ := t
  exact propertiesListNulls_iff properties

namespace Schema

theorem listsNulls_of_mem : ∀ t ∈ allTypes, t.listsNulls = true := by
  decide

end Schema

namespace Options

/-- Whether every choice in the object types registered as handlers lists null. -/
def ListsNulls (o : Options) : Prop :=
  ∀ key t, (key, Handler.record t) ∈ o.registry → t.listsNulls = true

theorem mem_registry_of_lookup {o : Options} {chain : List String} {name : String} {h : Handler}
    (hlookup : o.lookup chain name = some h) : ∃ key, (key, h) ∈ o.registry := by
  obtain ⟨kind, -, hget⟩ := List.exists_of_findSome?_eq_some hlookup
  exact ⟨(kind, name), Table.mem_of_get? hget⟩

theorem handler?_eq_some_iff {o : Options} {chain : List String} {name : String} {h : Handler} :
    o.handler? chain name = some h ↔
      o.resolve chain name = .typed ∧ o.lookup chain name = some h := by
  rw [handler?]
  split_ifs with htyped
  · simp [htyped]
  · simp [htyped]

theorem mem_registry_of_handler? {o : Options} {chain : List String} {name : String} {h : Handler}
    (hhandler : o.handler? chain name = some h) : ∃ key, (key, h) ∈ o.registry :=
  mem_registry_of_lookup (handler?_eq_some_iff.1 hhandler).2

theorem ListsNulls.of_handler? {o : Options} (ho : o.ListsNulls) {chain : List String}
    {name : String} {t : ObjectType} (h : o.handler? chain name = some (.record t)) :
    t.listsNulls = true := by
  obtain ⟨key, hmem⟩ := mem_registry_of_handler? h
  exact ho key t hmem

theorem mem_allTypes_of_default {key : String × String} {t : ObjectType}
    (h : (key, Handler.record t) ∈ Registry.default) : t ∈ Schema.allTypes := by
  apply List.mem_append_right
  simp only [Registry.default, List.mem_cons, Prod.mk.injEq, Handler.record.injEq,
    List.not_mem_nil, or_false] at h
  simp only [Schema.extensionTypes, List.mem_cons, List.not_mem_nil, or_false]
  tauto

theorem function_notMem_default (key : String × String) (function : String)
    (read : List (String × Json) → Except String Reported) :
    (key, Handler.function function read) ∉ Registry.default := by
  simp [Registry.default]

theorem listsNulls_default : ListsNulls {} :=
  fun _ t hmem => Schema.listsNulls_of_mem t (mem_allTypes_of_default hmem)

end Options

namespace Schema

/-- A type as a caller may register it, with a choice that does not list null. -/
def vendorMix : ObjectType :=
  extensionType "VendorMix" "VENDOR_mix" []
    [.mk "choice" "choice" (.choice [.number .uint8, .bool] "typing.Union[int, bool]" false)
      (.ofInt 0)]

end Schema

/-- That type for extensions of scenes. -/
def Options.withVendorMix : Options :=
  { registry := Table.put Registry.default ("Scene", "VENDOR_mix") (.record Schema.vendorMix) }

end Gltf
