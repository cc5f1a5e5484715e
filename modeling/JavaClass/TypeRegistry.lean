import JavaClass.Error
import JavaClass.JavaType
import Std.Data.HashMap

/-!
# Registries of types

A registry hands out types such that there is one instance for every descriptor. An instance is
known by its number, so two types from one registry are equal exactly when they have one number.

- `TypeRegistry.primitive`, `TypeRegistry.classType`, `TypeRegistry.array`, `TypeRegistry.method`:
  the instance of a type that is put together from instances of its parts.
-/

namespace JavaClass

/-- A type that a registry handed out. -/
structure TypeInstance where
  /-- The number of the instance in its registry. -/
  number : Nat
  /-- The type. -/
  type : JavaType
deriving DecidableEq, Repr, Inhabited

/-- The types handed out so far. -/
structure TypeRegistry where
  /-- The instance for every descriptor that was asked for. -/
  instances : Std.HashMap String TypeInstance := {}

namespace TypeRegistry

/-- The registry that has handed out nothing. -/
def empty : TypeRegistry := {}

/-- The instance of a type, which is the one with its descriptor if there is one. -/
def intern (registry : TypeRegistry) (type : JavaType) : TypeInstance × TypeRegistry :=
  let descriptor := type.render
  match registry.instances[descriptor]? with
  | some found => (found, registry)
  | none =>
    let fresh := ⟨registry.instances.size, type⟩
    (fresh, ⟨registry.instances.insert descriptor fresh⟩)

/-- The instance of a primitive type or `void`. -/
def primitive (registry : TypeRegistry) (base : BaseType) : TypeInstance × TypeRegistry :=
  registry.intern (.primitive base)

/-- The instance of a class or an interface, which must have a binary name. -/
def classType (registry : TypeRegistry) (name : String) :
    Except Error TypeInstance × TypeRegistry :=
  if JavaType.isBinaryName name.toList then
    let (found, registry) := registry.intern (.classType name)
    (.ok found, registry)
  else (.error (.notDescriptor (JavaType.classType name).render), registry)

/-- The array type with more dimensions than a given one, and the type of its elements. An array is
flat: its elements are no arrays. -/
def flatten (element : JavaType) (dimensions : Nat) : Nat × JavaType :=
  match element with
  | .array inner element => (inner + dimensions, element)
  | element => (dimensions, element)

/-- The instance of the type with so many more dimensions than a given one. It must have a dimension
at all, and elements that arrays can hold. -/
def array (registry : TypeRegistry) (element : TypeInstance) (dimensions : Nat) :
    Except Error TypeInstance × TypeRegistry :=
  let (dimensions, element) := flatten element.type dimensions
  let type := JavaType.array dimensions element
  if dimensions = 0 ∨ element.isElement = false then
    (.error (.notDescriptor type.render), registry)
  else
    let (found, registry) := registry.intern type
    (.ok found, registry)

/-- The instance of the type of methods that take and return given types. -/
def method (registry : TypeRegistry) (result : TypeInstance) (arguments : List TypeInstance) :
    Except Error TypeInstance × TypeRegistry :=
  let type := JavaType.method result.type (arguments.map (·.type))
  if result.type.isMethod ∨ arguments.any (!·.type.isElement) then
    (.error (.notDescriptor type.render), registry)
  else
    let (found, registry) := registry.intern type
    (.ok found, registry)

end TypeRegistry

end JavaClass
