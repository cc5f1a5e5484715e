import JavaClass.Draft.PoolDraft
import JavaClass.ClassFile

/-!
# Drafts of classes

A class file that is being put together. Its constants are a draft of their own until it is
finished.

- `ClassDraft.openClass`: a new class.
- `ClassDraft.Editing`: operations on a draft. One that fails keeps the constants it added.
- `ClassDraft.declareField`, `ClassDraft.setSuperClass` and others: parts of the class. Methods are
  drafts of their own.
- `ClassDraft.build`: the finished class file.
-/

namespace JavaClass

/-- Something that was noticed while a class was put together. -/
inductive DraftWarning where
  /-- Instructions were given for a method that has no body. -/
  | droppedInstructions (count : Nat)
deriving DecidableEq, Repr

/-- The message for a warning. -/
def DraftWarning.message : DraftWarning → String
  | .droppedInstructions count => s!"dropping {count} instructions from a method without a body"

/-- A class file that is being put together. -/
structure ClassDraft where
  /-- The constants so far. -/
  constants : PoolDraft
  /-- The class file, without its constants. -/
  file : ClassFile
  /-- What was noticed, the last first. -/
  warnings : List DraftWarning := []

namespace ClassDraft

/-- The super class of a class that was just opened. -/
def defaultSuperClass : String := "java/lang/Object"

/-- A new class with a name. The class is public and has the default super class and version. -/
def openClass (name : String) : Except Error ClassDraft :=
  let (opened, constants) := PoolDraft.empty.run do
    let thisClass ← PoolDraft.addClass name
    let superClass ← PoolDraft.addClass defaultSuperClass
    return (thisClass, superClass)
  opened.map fun (thisClass, superClass) =>
    { constants
      file :=
        { version := .default, constants := .empty, flags := .opened, thisClass,
          superClass := some superClass } }

/-- The finished class file. -/
def build (draft : ClassDraft) : ClassFile :=
  { draft.file with constants := draft.constants.pool }

/-- An operation on a draft. It leaves a draft whether it succeeds or not. -/
abbrev Editing (α : Type) := ExceptT Error (StateM ClassDraft) α

/-- Runs an operation. -/
def run {α : Type} (draft : ClassDraft) (operation : Editing α) : Except Error α × ClassDraft :=
  StateT.run (ExceptT.run operation) draft

@[simp]
theorem run_pure {α : Type} (draft : ClassDraft) (value : α) :
    draft.run (pure value) = (.ok value, draft) := rfl

@[simp]
theorem run_throw {α : Type} (draft : ClassDraft) (cause : Error) :
    draft.run (throw cause : Editing α) = (.error cause, draft) := rfl

/-- The second of two operations is run on the draft that the first leaves, unless that one
fails. -/
theorem run_bind {α β : Type} (draft : ClassDraft) (first : Editing α) (second : α → Editing β) :
    draft.run (first >>= second) =
      match draft.run first with
      | (.ok value, next) => next.run (second value)
      | (.error cause, next) => (.error cause, next) := by
  simp only [run, ExceptT.run, StateT.run, bind, ExceptT.bind, ExceptT.mk, StateT.bind]
  rcases first draft with ⟨_ | _, next⟩ <;> rfl

/-- Does an operation on the constants of the class. -/
def adding {α : Type} (operation : PoolDraft.Adding α) : Editing α :=
  ExceptT.mk fun ⟨constants, file, warnings⟩ =>
    let (result, constants) := constants.run operation
    (result, ⟨constants, file, warnings⟩)

@[simp]
theorem run_adding {α : Type} (draft : ClassDraft) (operation : PoolDraft.Adding α) :
    draft.run (adding operation) =
      ((draft.constants.run operation).1,
        { draft with constants := (draft.constants.run operation).2 }) := rfl

/-- Changes the class file. -/
def modifyFile (change : ClassFile → ClassFile) : Editing Unit :=
  modify fun ⟨constants, file, warnings⟩ => ⟨constants, change file, warnings⟩

@[simp]
theorem run_modifyFile (draft : ClassDraft) (change : ClassFile → ClassFile) :
    draft.run (modifyFile change) = (.ok (), { draft with file := change draft.file }) := rfl

/-- Sets the version. -/
def setVersion (version : Version) : Editing Unit :=
  modifyFile fun file => { file with version }

/-- Sets the access flags. -/
def setFlags (flags : AccessFlags .type) : Editing Unit :=
  modifyFile fun file => { file with flags }

/-- Adds access flags. -/
def addFlags (flags : AccessFlags .type) : Editing Unit :=
  modifyFile fun file => { file with flags := file.flags.union flags }

/-- Sets the super class. -/
def setSuperClass (name : String) : Editing Unit := do
  let superClass ← adding (PoolDraft.addClass name)
  modifyFile fun file => { file with superClass := some superClass }

/-- Adds an interface, unless the class implements it already. -/
def addInterface (name : String) : Editing Unit := do
  let interface ← adding (PoolDraft.addClass name)
  -- Equal names have equal indices, as no constant is added twice.
  modifyFile fun file =>
    if file.interfaces.contains interface then file
    else { file with interfaces := file.interfaces ++ [interface] }

/-- Sets the file that the class is compiled from, in place of any that was set before. -/
def setSourceFile (source : String) : Editing Unit := do
  let name ← adding (PoolDraft.addUtf8 Attribute.sourceFileName)
  let source ← adding (PoolDraft.addUtf8 source)
  modifyFile fun file =>
    { file with attributes := Attribute.remove file.attributes name ++ [.sourceFile name source] }

/-- The attributes of a field that starts with a value, or with none. -/
def valueAttributes : Option ConstantIndex → PoolDraft.Adding (List Attribute)
  | none => return []
  | some value => do
    let name ← PoolDraft.addUtf8 Attribute.constantValueName
    return [.constantValue name value]

/-- Declares a field, which can start with a constant as its value. The field must be of a type that
values have. -/
def declareField (name : String) (type : JavaType) (flags : AccessFlags .field)
    (value : Option ConstantIndex) : Editing Unit := do
  -- What arrays can hold is what fields can hold.
  if !type.isElement then throw (.notDescriptor type.render)
  let name ← adding (PoolDraft.addUtf8 name)
  let descriptor ← adding (PoolDraft.addUtf8 type.render)
  let attributes ← adding (valueAttributes value)
  modifyFile fun file =>
    { file with fields := file.fields ++ [{ flags, name, descriptor, attributes }] }

end ClassDraft

end JavaClass
