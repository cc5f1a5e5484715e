import JavaClass.Error
import JavaClass.Text.Utf16
import Std.Data.HashMap

/-!
# Constant pools

A constant pool only grows. Its indices start at 1, and a constant of two slots is found under the
first of them only. Beside the constants, a pool keeps the first index of each, so that a constant
that is there already is found without a search.

- `ConstantPool.push` adds a constant, `ConstantPool.intern` adds it unless it is there.
- `ConstantPool.get` finds a constant by index.
- `ConstantPool.text`, `ConstantPool.className`, `ConstantPool.nameAndType`: what constants refer
  to.
-/

namespace JavaClass

/-- The constants of a class file. -/
structure ConstantPool where
  /-- The constants with their indices. -/
  constants : OffsetArray Constant := .startingAt 1
  /-- The first index of every constant. -/
  firstIndex : Std.HashMap Constant ConstantIndex := {}

namespace ConstantPool

instance : Inhabited ConstantPool := ⟨{}⟩

/-- The pool without constants. -/
def empty : ConstantPool := {}

/-- Pools are equal when they hold the same constants at the same indices. -/
instance : BEq ConstantPool where
  beq first second := first.constants.sameEntries second.constants

/-- The number of constants. -/
def length (pool : ConstantPool) : Nat := pool.constants.size

/-- The number of slots that the constants take up. -/
def size (pool : ConstantPool) : Nat := pool.constants.totalWidth

/-- Whether there are no constants. -/
def isEmpty (pool : ConstantPool) : Bool := pool.constants.isEmpty

/-- The offset of the next constant. -/
def next (pool : ConstantPool) : Nat := pool.constants.next

/-- The constants with their indices, in order. -/
def toList (pool : ConstantPool) : List (ConstantIndex × Constant) :=
  pool.constants.toList.map fun (offset, constant) => (UInt16.ofNat offset, constant)

/-- The first offset that no constant can reach into. -/
def limit : Nat := 0xFFFF

/-- Adds a constant at the end, even if an equal one is there already. The constant must end before
the limit; a pool without room for it stays as it is. -/
def push (pool : ConstantPool) (constant : Constant) : Except Error ConstantIndex × ConstantPool :=
  let ⟨constants, firstIndex⟩ := pool
  let offset := constants.next
  if offset + width constant > limit then
    (.error (.poolFull constant offset), ⟨constants, firstIndex⟩)
  else
    let index := UInt16.ofNat offset
    (.ok index, ⟨constants.push constant, firstIndex.insertIfNew constant index⟩)

/-- A constant is refused exactly if it would end past the limit. -/
theorem push_eq (pool : ConstantPool) (constant : Constant) :
    pool.push constant =
      if pool.next + width constant > limit then
        (.error (.poolFull constant pool.next), pool)
      else
        (.ok (UInt16.ofNat pool.next),
          { constants := pool.constants.push constant
            firstIndex := pool.firstIndex.insertIfNew constant (UInt16.ofNat pool.next) }) := rfl

/-- The first index of a constant, which is added if it is not there. -/
def intern (pool : ConstantPool) (constant : Constant) :
    Except Error ConstantIndex × ConstantPool :=
  match pool.firstIndex[constant]? with
  | some index => (.ok index, pool)
  | none => pool.push constant

/-- The constant at an index. -/
def get (pool : ConstantPool) (index : ConstantIndex) : Except Error Constant :=
  match pool.constants.get? index.toNat with
  | some constant => .ok constant
  | none => .error (.noConstantAt index)

/-! ## Following indices -/

/-- The error for a constant that is not of the expected kind. -/
def mismatch (index : ConstantIndex) (expected : String) (found : Constant) : Error :=
  .wrongKind index expected found.kindName

/-- The text at an index. A string that is not text is refused. -/
def text (pool : ConstantPool) (index : ConstantIndex) : Except Error String := do
  match ← pool.get index with
  | .utf8 text => return text
  | .utf16 _ => throw (.unpairedSurrogate index)
  | found => throw (mismatch index "Utf8" found)

/-- The text at an index, with a replacement character for every unpaired surrogate. -/
def textLossy (pool : ConstantPool) (index : ConstantIndex) : Except Error String := do
  match ← pool.get index with
  | .utf8 text => return text
  | .utf16 units => return Utf16.toTextLossy units
  | found => throw (mismatch index "Utf8" found)

/-- The name of the class at an index. -/
def className (pool : ConstantPool) (index : ConstantIndex) : Except Error String := do
  match ← pool.get index with
  | .classRef name => pool.text name
  | found => throw (mismatch index "Class" found)

/-- The name and the descriptor at an index. -/
def nameAndType (pool : ConstantPool) (index : ConstantIndex) : Except Error (String × String) := do
  match ← pool.get index with
  | .nameAndType name descriptor => return (← pool.text name, ← pool.text descriptor)
  | found => throw (mismatch index "NameAndType" found)

/-- Yields an index if there is a string at it. -/
def stringIndex (pool : ConstantPool) (index : ConstantIndex) : Except Error ConstantIndex := do
  match ← pool.get index with
  | .utf8 _ | .utf16 _ => return index
  | found => throw (mismatch index "Utf8" found)

/-- Yields an index if there is a class at it. -/
def classIndex (pool : ConstantPool) (index : ConstantIndex) : Except Error ConstantIndex := do
  match ← pool.get index with
  | .classRef _ => return index
  | found => throw (mismatch index "Class" found)

end ConstantPool

end JavaClass
