/-!
# Types of values and methods

The types that descriptors stand for.

- `JavaType.render`: the descriptor of a type. `toList_render` says what it consists of.
- `JavaType.isBinaryName`: the names that classes can have.
- `JavaType.isElement`: the types that arrays can hold and methods can take.
-/

namespace JavaClass

/-- Primitive types, and `void`, which occurs as the type that a method returns. -/
inductive BaseType where
  | byte | char | double | float | int | long | short | boolean | void
deriving DecidableEq, Repr

namespace BaseType

/-- All base types. -/
def all : List BaseType := [byte, char, double, float, int, long, short, boolean, void]

/-- The letter of a base type in descriptors. -/
def code : BaseType → Char
  | byte => 'B'
  | char => 'C'
  | double => 'D'
  | float => 'F'
  | int => 'I'
  | long => 'J'
  | short => 'S'
  | boolean => 'Z'
  | void => 'V'

/-- The base type with a letter. -/
def ofCode? (letter : Char) : Option BaseType := all.find? (·.code = letter)

/-- The name of a base type. -/
def name : BaseType → String
  | byte => "Byte"
  | char => "Char"
  | double => "Double"
  | float => "Float"
  | int => "Int"
  | long => "Long"
  | short => "Short"
  | boolean => "Boolean"
  | void => "Void"

@[simp]
theorem ofCode?_code (base : BaseType) : ofCode? base.code = some base := by
  cases base <;> rfl

end BaseType

/-- The type of a value or of a method. -/
inductive JavaType where
  /-- A primitive type or `void`. -/
  | primitive (base : BaseType)
  /-- A class or an interface, by its binary name. -/
  | classType (name : String)
  /-- An array with a number of dimensions. -/
  | array (dimensions : Nat) (element : JavaType)
  /-- A method with the types that it returns and takes. -/
  | method (result : JavaType) (arguments : List JavaType)
deriving Repr, Inhabited

namespace JavaType

mutual

/-- Decides whether two types are equal. -/
def decEq : (first second : JavaType) → Decidable (first = second)
  | primitive a, primitive b => decidable_of_iff (a = b) (by simp)
  | classType a, classType b => decidable_of_iff (a = b) (by simp)
  | array m a, array n b =>
    have := decEq a b
    decidable_of_iff (m = n ∧ a = b) (by simp)
  | method a as, method b bs =>
    have := decEq a b
    have := decEqList as bs
    decidable_of_iff (a = b ∧ as = bs) (by simp)
  | primitive _, classType _ | primitive _, array .. | primitive _, method ..
  | classType _, primitive _ | classType _, array .. | classType _, method ..
  | array .., primitive _ | array .., classType _ | array .., method ..
  | method .., primitive _ | method .., classType _ | method .., array .. =>
    isFalse (by simp)

/-- Decides whether two lists of types are equal. -/
def decEqList : (first second : List JavaType) → Decidable (first = second)
  | [], [] => isTrue rfl
  | a :: as, b :: bs =>
    match decEq a b with
    | isFalse h => isFalse (by simp [h])
    | isTrue h =>
      match decEqList as bs with
      | isFalse h' => isFalse (by simp [h'])
      | isTrue h' => isTrue (by rw [h, h'])
  | [], _ :: _ | _ :: _, [] => isFalse (by simp)

end

instance : DecidableEq JavaType := decEq

/-- Whether a type is `void`. -/
def isVoid : JavaType → Bool
  | primitive .void => true
  | _ => false

/-- Whether a type is that of a method. -/
def isMethod : JavaType → Bool
  | method .. => true
  | _ => false

/-- The types that a method takes. A type of values takes none. -/
def arguments : JavaType → List JavaType
  | method _ arguments => arguments
  | _ => []

/-- The type that a method returns. -/
def result? : JavaType → Option JavaType
  | method result _ => some result
  | _ => none

mutual

/-- The characters of the descriptor of a type. -/
def renderChars : JavaType → List Char
  | primitive base => [base.code]
  | classType name => 'L' :: name.toList ++ [';']
  | array dimensions element => List.replicate dimensions '[' ++ element.renderChars
  | method result arguments => '(' :: renderEach arguments ++ ')' :: result.renderChars

/-- The characters of the descriptors of some types, one after another. -/
def renderEach : List JavaType → List Char
  | [] => []
  | type :: types => type.renderChars ++ renderEach types

end

mutual

/-- Writes the descriptor of a type behind some characters, all of which are held last first. -/
def renderOnto (written : List Char) : JavaType → List Char
  | primitive base => base.code :: written
  | classType name => ';' :: name.toList.reverseAux ('L' :: written)
  | array dimensions element =>
    element.renderOnto ((List.replicate dimensions '[').reverseAux written)
  | method result arguments => result.renderOnto (')' :: renderEachOnto ('(' :: written) arguments)

/-- Writes the descriptors of some types behind some characters. -/
def renderEachOnto (written : List Char) : List JavaType → List Char
  | [] => written
  | type :: types => renderEachOnto (type.renderOnto written) types

end

/-- The descriptor of a type. -/
def render (type : JavaType) : String := String.ofList (type.renderOnto []).reverse

mutual

/-- Written last first, a descriptor is its characters in reverse. -/
theorem renderOnto_eq (written : List Char) :
    (type : JavaType) → type.renderOnto written = type.renderChars.reverse ++ written
  | primitive base => rfl
  | classType name => by simp [renderOnto, renderChars, List.reverseAux_eq]
  | array dimensions element => by
    simp [renderOnto, renderChars, renderOnto_eq _ element, List.reverseAux_eq]
  | method result arguments => by
    simp [renderOnto, renderChars, renderOnto_eq _ result, renderEachOnto_eq _ arguments]

/-- The same for the descriptors of some types. -/
theorem renderEachOnto_eq (written : List Char) :
    (types : List JavaType) → renderEachOnto written types = (renderEach types).reverse ++ written
  | [] => rfl
  | type :: types => by
    simp [renderEachOnto, renderEach, renderOnto_eq _ type, renderEachOnto_eq _ types]

end

/-- A descriptor consists of the characters that `renderChars` says. -/
@[simp]
theorem toList_render (type : JavaType) : type.render.toList = type.renderChars := by
  simp [render, renderOnto_eq]

/-- Whether a part of a binary name is an identifier: not empty, and without the characters that
descriptors give a meaning. -/
def isIdentifier (part : List Char) : Bool :=
  !part.isEmpty && part.all fun c => c != '.' && c != ';' && c != '['

/-- Whether a text is a binary name: identifiers separated by slashes. -/
def isBinaryName (name : List Char) : Bool := (name.splitOn '/').all isIdentifier

/-- Whether arrays can hold values of a type, and methods can take them. -/
def isElement (type : JavaType) : Bool := !type.isVoid && !type.isMethod

end JavaType

end JavaClass
