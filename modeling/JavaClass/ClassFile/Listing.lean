import JavaClass.ClassFile
import JavaClass.ConstantPool.Describe

/-!
# Listings

A listing shows a class file to a reader, in the manner of an assembler: its header, its constants,
its fields and its methods. What cannot be resolved in the constant pool is shown as a question
mark.
-/

namespace JavaClass.ClassFile

/-- The lines of a listing, in order. -/
abbrev Lines := List String

/-- A text filled up with spaces on the left. -/
def padLeft (width : Nat) (text : String) : String := String.ofList (text.toList.leftpad width ' ')

/-- A text filled up with spaces on the right. -/
def padRight (width : Nat) (text : String) : String :=
  String.ofList (text.toList.rightpad width ' ')

/-- The start of a line about something that carries flags. -/
def directive {declaration : Declaration} (word : String) (flags : AccessFlags declaration) :
    String :=
  let keywords := flags.render
  if keywords.isEmpty then s!".{word} " else s!".{word} {keywords} "

/-- The line of an instruction, with the constant that it refers to. -/
def listInstruction (pool : ConstantPool) (offset : Nat) (instruction : Instruction) : String :=
  let place := padLeft 4 (toString offset)
  match instruction.constantIndex? with
  | some index => s!"  {place}: {padRight 24 instruction.render}// {pool.describe index}"
  | none => s!"  {place}: {instruction.render}"

/-- The line of an exception handler. -/
def listHandler (pool : ConstantPool) (handler : ExceptionHandler) : String :=
  let caught := match handler.catchType with
    | some index => pool.showClass index
    | none => "any"
  s!"  .catch {caught} from {handler.startPc} to {handler.endPc} using {handler.handlerPc}"

/-- The lines of an attribute of a method body. -/
def listLineNumbers : Attribute → Lines
  | .lineNumberTable _ entries => entries.map fun entry => s!"  .line {entry.line} {entry.startPc}"
  | _ => []

/-- The lines of a method body. -/
def listBody (pool : ConstantPool) (body : MethodBody) (attributes : List Attribute) : Lines :=
  [s!"  .limit stack {body.maxStack}", s!"  .limit locals {body.maxLocals}"] ++
    body.instructions.toList.map (fun (offset, instruction) =>
      listInstruction pool offset instruction) ++
    body.handlers.map (listHandler pool) ++ attributes.flatMap listLineNumbers

/-- The lines of the header of a class file. -/
def listHeader (file : ClassFile) : Lines :=
  let pool := file.constants
  let extended := match file.superName with
    | .ok (some name) => [s!".super {name}"]
    | _ => []
  let sources := file.attributes.filterMap fun
    | .sourceFile _ source => some s!".source {pool.showText source}"
    | _ => none
  let implemented := file.interfaces.map fun index => s!".implements {pool.showClass index}"
  [s!".version {file.version.render}",
      directive "class" file.flags ++ pool.showClass file.thisClass] ++
    extended ++ implemented ++ sources

/-- The line of a constant. -/
def listConstant (pool : ConstantPool) (index : ConstantIndex) (constant : Constant) : String :=
  let place := padLeft 6 s!"#{index}"
  s!"{place} = {padRight 18 constant.kindName} {pool.describe index}"

/-- The lines of a field. -/
def listField (pool : ConstantPool) (field : Field) : Lines :=
  let values := field.attributes.map fun
    | .constantValue _ value => s!" = {pool.describe value}"
    | _ => ""
  let descriptor := pool.showText field.descriptor
  ["", directive "field" field.flags ++ pool.showText field.name ++ " " ++ descriptor ++
    String.join values]

/-- The lines of a method. -/
def listMethod (pool : ConstantPool) (method : Method) : Lines :=
  let body := match method.body? with
    | some (body, attributes) => listBody pool body attributes
    | none => []
  ["", directive "method" method.flags ++ pool.showText method.name ++
    pool.showText method.descriptor] ++ body ++ [".end method"]

/-- The lines of a class file. -/
def lines (file : ClassFile) : Lines :=
  let pool := file.constants
  listHeader file ++ [""] ++
    pool.toList.map (fun (index, constant) => listConstant pool index constant) ++
    file.fields.flatMap (listField pool) ++ file.methods.flatMap (listMethod pool)

/-- The listing of a class file. -/
def listing (file : ClassFile) : String := String.join (file.lines.map (· ++ "\n"))

end JavaClass.ClassFile
