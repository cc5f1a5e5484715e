import JavaClass.AccessFlags
import JavaClass.Attribute.Format

/-!
# Fields and methods

A member of a class has flags, a name, a descriptor and attributes. Fields and methods differ in the
flags that they carry.

- `Member.read`, `Member.write`: members in a class file.
- `Member.body?`: the body of a method.
-/

namespace JavaClass

/-- A field or a method. -/
structure Member (declaration : Declaration) where
  /-- The access flags. -/
  flags : AccessFlags declaration
  /-- The index of the name. -/
  name : ConstantIndex
  /-- The index of the descriptor. -/
  descriptor : ConstantIndex
  /-- The attributes, in order. -/
  attributes : List Attribute := []
deriving DecidableEq, Repr, Inhabited

/-- A field of a class. -/
abbrev Field := Member .field

/-- A method of a class. -/
abbrev Method := Member .method

namespace Member

variable {declaration : Declaration}

/-- Reads a member. There must be strings at the indices of its name and its descriptor. -/
def read (pool : ConstantPool) : Reader (Member declaration) := do
  let flags ← AccessFlags.read
  let name ← Reader.ofExcept (pool.stringIndex (← Reader.u2))
  let descriptor ← Reader.ofExcept (pool.stringIndex (← Reader.u2))
  let attributes ← Attribute.readList pool
  return { flags, name, descriptor, attributes }

/-- The bytes of a member. -/
def write (member : Member declaration) : Except Error Bytes := do
  let attributes ← Attribute.writeList member.attributes
  return member.flags.toBytes ++ Bytes.ofU2 member.name ++ Bytes.ofU2 member.descriptor ++
    attributes

/-- The first method body among some attributes, with its attributes. -/
def bodyOf? : List Attribute → Option (MethodBody × List Attribute)
  | [] => none
  | .code body attributes :: _ => some (body, attributes)
  | _ :: others => bodyOf? others

/-- The body of a method, with its attributes. -/
def body? (member : Member declaration) : Option (MethodBody × List Attribute) :=
  bodyOf? member.attributes

/-- Changes the first method body among some attributes. -/
def modifyBodyOf (change : MethodBody → List Attribute → MethodBody × List Attribute) :
    List Attribute → List Attribute
  | [] => []
  | .code body attributes :: others =>
    let (body, attributes) := change body attributes
    .code body attributes :: others
  | other :: others => other :: modifyBodyOf change others

/-- Changes the body of a method, if it has one. -/
def modifyBody (member : Member declaration)
    (change : MethodBody → List Attribute → MethodBody × List Attribute) : Member declaration :=
  { member with attributes := modifyBodyOf change member.attributes }

end Member

end JavaClass
