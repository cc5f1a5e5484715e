import JavaClass.Writer

/-!
# Versions

The version of the format that a class file follows. Versions are ordered by their major and then by
their minor number, although the minor number is written first.
-/

namespace JavaClass

/-- A version of the class file format. -/
structure Version where
  /-- The number that is raised with each edition of the platform. -/
  major : UInt16
  /-- The number below it. -/
  minor : UInt16
deriving DecidableEq, Repr

namespace Version

/-- The version for edition 8 of the platform. -/
def java8 : Version := ⟨52, 0⟩

/-- The version for edition 11 of the platform. -/
def java11 : Version := ⟨55, 0⟩

/-- The version for edition 15 of the platform. -/
def java15 : Version := ⟨59, 0⟩

/-- The version that classes have unless another is asked for. -/
def default : Version := java15

instance : Inhabited Version := ⟨default⟩

/-- The order of versions. -/
instance : Ord Version where
  compare first second := (compare first.major second.major).then (compare first.minor second.minor)

/-- A version in listings. -/
def render (version : Version) : String := toString version.major ++ "." ++ toString version.minor

/-- Reads a version. -/
def read : Reader Version := do
  let minor ← Reader.u2
  let major ← Reader.u2
  return { major, minor }

/-- The bytes of a version. -/
def toBytes (version : Version) : Bytes := Bytes.ofU2 version.minor ++ Bytes.ofU2 version.major

end Version

end JavaClass
