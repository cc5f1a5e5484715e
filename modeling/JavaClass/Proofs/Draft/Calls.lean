import JavaClass.Draft.MethodDraft
import JavaClass.Proofs.Draft.Meaning

/-!
# Calls on drafts of classes

A class is put together by calls, any of which can fail. A method is put together by calls of its
own, until it is left or dropped, and no other call on the class can be made in between.

- `MethodDraft.Call`, `ClassDraft.Call`: the calls.
- `MethodDraft.performAll`, `ClassDraft.performAll`: what a number of calls leaves.
- `ClassDraft.performAll_induction`: what every call preserves, every number of calls preserves.
- `ClassDraft.run_editing`: most calls on a class add constants and then change the class file.
-/

namespace JavaClass

/-! ## Methods -/

namespace MethodDraft

/-- A call on a method that is being put together. -/
inductive Call where
  /-- A constant is added to those of the class. -/
  | add (addition : PoolDraft.Addition)
  /-- A block is added. -/
  | createBlock
  /-- The block that instructions go to is set. -/
  | setInsertionPoint (point : InsertionPoint)
  /-- The number of local variables is set. -/
  | setLocalsLimit (maxLocals : UInt16)
  /-- An instruction is added. -/
  | pushInstruction (instruction : Instruction)
  /-- An instruction is made and added. -/
  | makeInstruction (opcode : Opcode) (operands : Bytes)

/-- How a method is ended. -/
inductive Ending where
  /-- The method is added to its class. -/
  | leave
  /-- The method is given up. -/
  | drop
deriving DecidableEq, Repr

/-- The method that a call leaves. One that is refused leaves the method as it was, save that an
addition can fail when it has added some of its constants. -/
def perform (draft : MethodDraft) : Call → MethodDraft
  | .add addition => (draft.adding addition.adding).2
  | .createBlock => draft.createBlock.2
  | .setInsertionPoint point => (draft.setInsertionPoint? point).getD draft
  | .setLocalsLimit maxLocals => draft.setLocalsLimit maxLocals
  | .pushInstruction instruction => draft.pushInstruction instruction
  | .makeInstruction opcode operands => (draft.makeInstruction opcode operands).toOption.getD draft

/-- The method that some calls leave. -/
def performAll (draft : MethodDraft) (calls : List Call) : MethodDraft := calls.foldl perform draft

/-- A call adds a constant, or leaves all but the body of the method as it is. -/
theorem perform_cases (draft : MethodDraft) (call : Call) :
    (∃ addition : PoolDraft.Addition, draft.perform call = (draft.adding addition.adding).2) ∨
      (draft.perform call).owner = draft.owner ∧ (draft.perform call).method = draft.method ∧
        (draft.perform call).codeName = draft.codeName := by
  cases call with
  | add addition => exact .inl ⟨addition, rfl⟩
  | createBlock | setLocalsLimit | pushInstruction => exact .inr ⟨rfl, rfl, rfl⟩
  | setInsertionPoint point =>
    rw [perform, setInsertionPoint?]
    split <;> exact .inr ⟨rfl, rfl, rfl⟩
  | makeInstruction opcode operands =>
    rw [perform, makeInstruction]
    cases Instruction.make opcode operands <;> exact .inr ⟨rfl, rfl, rfl⟩

/-- Ends a method. -/
def close (draft : MethodDraft) : Ending → Except Error Unit × ClassDraft
  | .leave => draft.leave
  | .drop => (.ok (), draft.drop)

/-- Makes some calls on a method that could be entered, and ends it. -/
def finish (entered : Except (Error × ClassDraft) MethodDraft) (calls : List Call)
    (ending : Ending) : Except Error Unit × ClassDraft :=
  match entered with
  | .error (cause, owner) => (.error cause, owner)
  | .ok draft => (draft.performAll calls).close ending

/-- What every call preserves is preserved by any number of calls. -/
theorem performAll_induction {motive : MethodDraft → Prop}
    (perform : ∀ draft call, motive draft → motive (draft.perform call)) {draft : MethodDraft}
    (h : motive draft) (calls : List Call) : motive (draft.performAll calls) := by
  induction calls generalizing draft with
  | nil => exact h
  | cons call calls ih => exact ih (perform draft call h)

end MethodDraft

/-! ## Classes -/

namespace ClassDraft

/-- A call on a class that is being put together. Methods are put together by calls of their own. -/
inductive Call where
  /-- The version is set. -/
  | setVersion (version : Version)
  /-- The access flags are set. -/
  | setFlags (flags : AccessFlags .type)
  /-- Access flags are added. -/
  | addFlags (flags : AccessFlags .type)
  /-- The super class is set. -/
  | setSuperClass (name : String)
  /-- An interface is added. -/
  | addInterface (name : String)
  /-- The file that the class is compiled from is set. -/
  | setSourceFile (source : String)
  /-- A constant is added. -/
  | add (addition : PoolDraft.Addition)
  /-- A field is declared. -/
  | declareField (name : String) (type : JavaType) (flags : AccessFlags .field)
    (value : Option ConstantIndex)
  /-- A method is entered, put together and ended. -/
  | method (name : String) (type : JavaType) (flags : AccessFlags .method)
    (calls : List MethodDraft.Call) (ending : MethodDraft.Ending)
  /-- A constructor is entered, put together and ended. -/
  | constructor (type : JavaType) (flags : AccessFlags .method) (calls : List MethodDraft.Call)
    (ending : MethodDraft.Ending)

/-- The answer to a call, and the class that the call leaves. The calls on a method answer with the
answer to its last call, unless the method could not be entered. -/
def perform (draft : ClassDraft) : Call → Except Error Unit × ClassDraft
  | .setVersion version => draft.run (setVersion version)
  | .setFlags flags => draft.run (setFlags flags)
  | .addFlags flags => draft.run (addFlags flags)
  | .setSuperClass name => draft.run (setSuperClass name)
  | .addInterface name => draft.run (addInterface name)
  | .setSourceFile source => draft.run (setSourceFile source)
  | .add addition => draft.run do let _ ← adding addition.adding
  | .declareField name type flags value => draft.run (declareField name type flags value)
  | .method name type flags calls ending =>
    MethodDraft.finish (MethodDraft.enter draft name type flags) calls ending
  | .constructor type flags calls ending =>
    MethodDraft.finish (MethodDraft.enterConstructor draft type flags) calls ending

/-- Those of some calls that succeed, and the class that all of the calls leave. -/
def performAll (draft : ClassDraft) : List Call → List Call × ClassDraft
  | [] => ([], draft)
  | call :: calls =>
    let (answer, next) := draft.perform call
    let (succeeded, last) := next.performAll calls
    (if answer.isOk then call :: succeeded else succeeded, last)

/-- What is true of a class and the calls on it that succeeded stays true, if every call preserves
it. -/
theorem performAll_induction {motive : List Call → ClassDraft → Prop}
    (perform : ∀ done draft call, motive done draft →
      motive (if (draft.perform call).1.isOk then done ++ [call] else done) (draft.perform call).2)
    {done : List Call} {draft : ClassDraft} (h : motive done draft) (calls : List Call) :
    motive (done ++ (draft.performAll calls).1) (draft.performAll calls).2 := by
  induction calls generalizing done draft with
  | nil =>
    rw [performAll, List.append_nil]
    exact h
  | cons call calls ih =>
    have hrest := ih (perform done draft call h)
    rw [performAll]
    by_cases hok : (draft.perform call).1.isOk
    · rw [if_pos hok, List.append_assoc, List.singleton_append] at hrest
      simpa only [if_pos hok] using hrest
    · rw [if_neg hok] at hrest
      simpa only [if_neg hok] using hrest

/-! ## Editing class files -/

/-- Adds constants, then changes the class file by what was added. -/
def editing {α : Type} (operation : PoolDraft.Adding α) (change : α → ClassFile → ClassFile) :
    Editing Unit := do
  modifyFile (change (← adding operation))

/-- If the constants cannot be added, the class file stays as it is. -/
theorem run_editing {α : Type} (draft : ClassDraft) (operation : PoolDraft.Adding α)
    (change : α → ClassFile → ClassFile) :
    draft.run (editing operation change) =
      match draft.constants.run operation with
      | (.ok value, constants) =>
        (.ok (), { draft with constants, file := change value draft.file })
      | (.error cause, constants) => (.error cause, { draft with constants }) := by
  rw [editing, run_bind, run_adding]
  rcases draft.constants.run operation with ⟨_ | value, constants⟩ <;> rfl

/-- Operations that do the same on every draft are equal. -/
theorem editing_ext {α : Type} {first second : Editing α}
    (h : ∀ draft : ClassDraft, draft.run first = draft.run second) : first = second :=
  funext h

@[simp]
theorem adding_pure {α : Type} (value : α) : adding (pure value) = pure value :=
  editing_ext fun _ => rfl

/-- Constants that are added one after another can be added in one operation. -/
@[simp]
theorem adding_bind {α β : Type} (first : PoolDraft.Adding α) (second : α → PoolDraft.Adding β) :
    adding (first >>= second) = adding first >>= fun value => adding (second value) := by
  -- Both sides go on from the constants that the first operation leaves.
  apply editing_ext
  intro draft
  rw [run_adding, run_bind, run_adding, PoolDraft.run_bind]
  rcases draft.constants.run first with ⟨_ | value, constants⟩ <;> rfl

/-- What is added for the file that a class is compiled from. -/
def sourceParts (source : String) : PoolDraft.Adding (ConstantIndex × ConstantIndex) := do
  let name ← PoolDraft.addUtf8 Attribute.sourceFileName
  let source ← PoolDraft.addUtf8 source
  return (name, source)

theorem setSourceFile_eq_editing (source : String) :
    setSourceFile source = editing (sourceParts source) fun (name, source) file =>
      { file with
        attributes := Attribute.remove file.attributes name ++ [.sourceFile name source] } := by
  simp only [setSourceFile, editing, sourceParts, adding_bind, adding_pure, bind_assoc, pure_bind]

/-- What is added for a field. -/
def fieldParts (name : String) (type : JavaType) (flags : AccessFlags .field)
    (value : Option ConstantIndex) : PoolDraft.Adding Field := do
  let name ← PoolDraft.addUtf8 name
  let descriptor ← PoolDraft.addUtf8 type.render
  let attributes ← valueAttributes value
  return { flags, name, descriptor, attributes }

theorem declareField_eq_editing (name : String) {type : JavaType} (htype : type.isElement)
    (flags : AccessFlags .field) (value : Option ConstantIndex) :
    declareField name type flags value =
      editing (fieldParts name type flags value) fun field file =>
        { file with fields := file.fields ++ [field] } := by
  simp only [declareField, htype, Bool.not_true, Bool.false_eq_true, ↓reduceIte, editing,
    fieldParts, adding_bind, adding_pure, bind_assoc, pure_bind]

/-- A field of a type that no value has is refused before anything is added. -/
theorem declareField_eq_throw (name : String) {type : JavaType} (htype : ¬ type.isElement)
    (flags : AccessFlags .field) (value : Option ConstantIndex) :
    declareField name type flags value = throw (.notDescriptor type.render) := by
  apply editing_ext
  intro draft
  simp only [declareField, htype, Bool.not_false, ↓reduceIte, run_bind, run_throw]

end ClassDraft

end JavaClass
