import JavaClass.ConstantPool
import JavaClass.Decimal.Layout

/-!
# Describing constants

A constant is shown in listings along with what it refers to. What cannot be resolved is shown as a
question mark.
-/

namespace JavaClass.ConstantPool

/-- What is shown for an index that cannot be resolved. -/
def unresolved : String := "?"

/-- The string at an index, as shown. -/
def showText (pool : ConstantPool) (index : ConstantIndex) : String :=
  (pool.textLossy index).toOption.getD unresolved

/-- The name of the class at an index, as shown. -/
def showClass (pool : ConstantPool) (index : ConstantIndex) : String :=
  (pool.className index).toOption.getD unresolved

/-- The name and the descriptor at an index, as shown. -/
def showNameAndType (pool : ConstantPool) (index : ConstantIndex) : String :=
  match pool.nameAndType index with
  | .ok (name, descriptor) => name ++ ":" ++ descriptor
  | .error _ => unresolved

open Text Decimal in
/-- A constant along with what it refers to. -/
def describeConstant (pool : ConstantPool) : Constant → String
  | .utf8 text => quoted text
  | .utf16 units => quoted (Utf16.toTextLossy units)
  | .integer value => toString value.toInt
  | .float bits => literal.render .single bits.toNat ++ "f"
  | .long value => toString value.toInt ++ "l"
  | .double bits => literal.render .double bits.toNat ++ "d"
  | .classRef name => pool.showText name
  | .string text => quoted (pool.showText text)
  | .fieldRef owner member | .methodRef owner member | .interfaceMethodRef owner member =>
    pool.showClass owner ++ "." ++ pool.showNameAndType member
  | .nameAndType name descriptor => pool.showText name ++ ":" ++ pool.showText descriptor
  | .methodHandle kind member => kind.name ++ " #" ++ toString member
  | .methodType descriptor => pool.showText descriptor
  | .invokeDynamic bootstrapMethod member =>
    toString bootstrapMethod ++ ":" ++ pool.showNameAndType member

/-- The constant at an index along with what it refers to. -/
def describe (pool : ConstantPool) (index : ConstantIndex) : String :=
  match pool.get index with
  | .ok constant => pool.describeConstant constant
  | .error _ => unresolved

end JavaClass.ConstantPool
