import JavaClass.Writer

/-!
# Access flags

Flags of classes, fields and methods. A flag set is a word of 16 bits; which bits have a name, and
which name, depends on what carries the flags. Bits without a name are kept and not shown.
-/

namespace JavaClass

/-- What carries flags. -/
inductive Declaration where
  | type | field | method
deriving DecidableEq, Repr

namespace Declaration

/-- The flags that have a name, with their keywords in the order in which they are shown. -/
def keywords : Declaration → List (UInt16 × String)
  | type =>
    [(0x0001, "public"), (0x0010, "final"), (0x0020, "super"), (0x0200, "interface"),
      (0x0400, "abstract"), (0x1000, "synthetic"), (0x2000, "annotation"), (0x4000, "enum"),
      (0x8000, "module")]
  | field =>
    [(0x0001, "public"), (0x0002, "private"), (0x0004, "protected"), (0x0008, "static"),
      (0x0010, "final"), (0x0040, "volatile"), (0x0080, "transient"), (0x1000, "synthetic"),
      (0x4000, "enum")]
  | method =>
    [(0x0001, "public"), (0x0002, "private"), (0x0004, "protected"), (0x0008, "static"),
      (0x0010, "final"), (0x0020, "synchronized"), (0x0040, "bridge"), (0x0080, "varargs"),
      (0x0100, "native"), (0x0400, "abstract"), (0x0800, "strict"), (0x1000, "synthetic")]

end Declaration

/-- A set of flags. -/
structure AccessFlags (declaration : Declaration) where
  /-- The flags, a bit each. -/
  bits : UInt16
deriving DecidableEq, Repr, Inhabited

namespace AccessFlags

variable {declaration : Declaration}

/-- Whether all flags of a second set are in the first. -/
def contains (flags other : AccessFlags declaration) : Bool :=
  flags.bits &&& other.bits = other.bits

/-- Whether some flag is in both sets. -/
def intersects (flags other : AccessFlags declaration) : Bool := flags.bits &&& other.bits ≠ 0

/-- Whether there are no flags. -/
def isEmpty (flags : AccessFlags declaration) : Bool := flags.bits = 0

/-- The flags of both sets. -/
def union (flags other : AccessFlags declaration) : AccessFlags declaration :=
  ⟨flags.bits ||| other.bits⟩

/-- The flags that have a name. -/
def named (declaration : Declaration) : AccessFlags declaration :=
  ⟨declaration.keywords.foldl (fun bits flag => bits ||| flag.1) 0⟩

/-- The flags of a set that have no name. -/
def unnamed (flags : AccessFlags declaration) : AccessFlags declaration :=
  ⟨flags.bits &&& ~~~(named declaration).bits⟩

/-- The keywords of the flags, separated by spaces. -/
def render (flags : AccessFlags declaration) : String :=
  " ".intercalate ((declaration.keywords.filter fun flag => flags.contains ⟨flag.1⟩).map (·.2))

/-- Reads flags, with and without a name. -/
def read : Reader (AccessFlags declaration) := do return ⟨← Reader.u2⟩

/-- The bytes of flags. -/
def toBytes (flags : AccessFlags declaration) : Bytes := Bytes.ofU2 flags.bits

end AccessFlags

/-- The flags of a class that was just opened: public, and marked as following the current rules for
calling the methods of a super class. -/
def AccessFlags.opened : AccessFlags .type := ⟨0x0021⟩

/-- The flags of methods that have no body: native and abstract. -/
def AccessFlags.bodiless : AccessFlags .method := ⟨0x0500⟩

end JavaClass
