import JavaClass.Bisection

/-!
# Arrays with offsets

Elements of different widths, found by the sum of the widths of the elements before them. A class
file needs this twice: for the constant pool, which starts at 1 and where some constants take two
slots, and for method code, where the offset of an instruction is its program counter.

- `OffsetArray.push`, `OffsetArray.append`: the operations that add elements.
- `OffsetArray.lookup`: finds an element by its offset, or says where the offset falls.
-/

namespace JavaClass

/-- Elements that take up some number of places. -/
class HasWidth (α : Type) where
  /-- The number of places that an element takes up. -/
  width : α → Nat

export HasWidth (width)

/-- An array of elements with their offsets. -/
structure OffsetArray (α : Type) where
  /-- The elements, each behind its offset. -/
  entries : Array (Nat × α)
  /-- The offset of the first element. -/
  start : Nat
  /-- The offset of the next element to be added. -/
  next : Nat
deriving DecidableEq, Repr

namespace OffsetArray

variable {α : Type}

/-- The array without elements whose first element will have the offset `start`. -/
def startingAt (start : Nat) : OffsetArray α := ⟨#[], start, start⟩

/-- The array without elements that starts at offset 0. -/
def empty : OffsetArray α := startingAt 0

instance : Inhabited (OffsetArray α) := ⟨empty⟩

/-- The number of elements. -/
def size (array : OffsetArray α) : Nat := array.entries.size

/-- Whether there are no elements. -/
def isEmpty (array : OffsetArray α) : Bool := array.entries.isEmpty

/-- The sum of the widths of the elements. -/
def totalWidth (array : OffsetArray α) : Nat := array.next - array.start

/-- The elements with their offsets, in order. -/
def toList (array : OffsetArray α) : List (Nat × α) := array.entries.toList

/-- The elements without their offsets, in order. -/
def elements (array : OffsetArray α) : List α := array.toList.map (·.2)

/-- Adds an element at the end. -/
def push [HasWidth α] (array : OffsetArray α) (element : α) : OffsetArray α where
  entries := array.entries.push (array.next, element)
  start := array.start
  next := array.next + width element

@[simp]
theorem toList_push [HasWidth α] (array : OffsetArray α) (element : α) :
    (array.push element).toList = array.toList ++ [(array.next, element)] := by
  simp [toList, push]

@[simp]
theorem elements_push [HasWidth α] (array : OffsetArray α) (element : α) :
    (array.push element).elements = array.elements ++ [element] := by
  simp [elements]

@[simp]
theorem next_push [HasWidth α] (array : OffsetArray α) (element : α) :
    (array.push element).next = array.next + width element := rfl

@[simp]
theorem start_push [HasWidth α] (array : OffsetArray α) (element : α) :
    (array.push element).start = array.start := rfl

@[simp]
theorem size_push [HasWidth α] (array : OffsetArray α) (element : α) :
    (array.push element).size = array.size + 1 := by
  simp [size, push]

/-- Adds elements at the end, one after another. -/
def append [HasWidth α] (array : OffsetArray α) (elements : List α) : OffsetArray α :=
  elements.foldl push array

@[simp]
theorem append_nil [HasWidth α] (array : OffsetArray α) : array.append [] = array := rfl

@[simp]
theorem append_cons [HasWidth α] (array : OffsetArray α) (element : α) (elements : List α) :
    array.append (element :: elements) = (array.push element).append elements := rfl

/-- What is appended stands behind the elements, in order. -/
theorem elements_append [HasWidth α] (array : OffsetArray α) (added : List α) :
    (array.append added).elements = array.elements ++ added := by
  induction added generalizing array with
  | nil => simp
  | cons element added ih => simp [ih]

/-- The array of some elements that starts at offset 0. -/
def ofList [HasWidth α] (elements : List α) : OffsetArray α := empty.append elements

/-- Whether two arrays hold equal elements at equal offsets. Where they would have started without
elements does not matter. -/
def sameEntries [BEq α] (first second : OffsetArray α) : Bool := first.entries == second.entries

/-- The answer to a look-up by offset. -/
inductive Lookup (α : Type) where
  /-- The element at an offset, and its number. -/
  | found (number : Nat) (element : α)
  /-- The offset falls into the element in front of the one with this number, or before the first
  element, whose number is 0. -/
  | inside (number : Nat)
  /-- The offset falls into the last element, or is past all elements. -/
  | tooLarge
deriving DecidableEq, Repr

/-- The number of entries at or before an offset. -/
def countUpTo (array : OffsetArray α) (offset : Nat) : Nat :=
  bisect (fun i => array.entries[i]?.any (·.1 ≤ offset)) 0 array.size

/-- Finds the element at an offset. Of elements at the same offset, which only elements without
width can be, the last one is found. An offset inside an element is reported with the number of the
element after it, and inside the last one as too large. -/
def lookup (array : OffsetArray α) (offset : Nat) : Lookup α :=
  let count := array.countUpTo offset
  -- Offsets ascend, so the last entry that is not past the offset is the only candidate.
  let here? := if 0 < count then array.entries[count - 1]? else none
  match here?.filter (·.1 = offset) with
  | some (_, element) => .found (count - 1) element
  | none => if count = array.size then .tooLarge else .inside count

/-- The element at an offset, if there is one. -/
def get? (array : OffsetArray α) (offset : Nat) : Option α :=
  match array.lookup offset with
  | .found _ element => some element
  | _ => none

/-- The elements behind their offsets, in brackets. -/
def render (showElement : α → String) (array : OffsetArray α) : String :=
  let shown := array.toList.map fun (offset, element) => "#" ++ toString offset ++ " = " ++
    showElement element
  "[" ++ String.intercalate ", " shown ++ "]"

end OffsetArray

end JavaClass
