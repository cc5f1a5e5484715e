import JavaClass.ConstantPool
import JavaClass.JavaType

/-!
# Drafts of constant pools

A pool that is being put together, with a table for every kind of constant. The tables are keyed by
what makes up a constant, which for a reference are the indices of its parts, so that a constant
which is there already is found and never added again.

- `PoolDraft.Adding`: operations that add constants. One that fails keeps what it added before.
- `PoolDraft.findOrAdd`: the step that all of them consist of.
- `PoolDraft.addUtf8` to `PoolDraft.addInvokeDynamic`: one operation for each kind of constant.
- `PoolDraft.run_bind` and others: what a run of an operation consists of.
-/

namespace JavaClass

/-- The indices of the constants of a draft, by their kinds and by what makes them up. -/
structure PoolTables where
  /-- The indices of texts. -/
  utf8s : Std.HashMap String ConstantIndex := {}
  /-- The indices of classes, by those of their names. -/
  classes : Std.HashMap ConstantIndex ConstantIndex := {}
  /-- The indices of string literals, by those of their texts. -/
  strings : Std.HashMap ConstantIndex ConstantIndex := {}
  /-- The indices of `int` literals. -/
  integers : Std.HashMap Int32 ConstantIndex := {}
  /-- The indices of `float` literals, by their bits. -/
  floats : Std.HashMap UInt32 ConstantIndex := {}
  /-- The indices of `long` literals. -/
  longs : Std.HashMap Int64 ConstantIndex := {}
  /-- The indices of `double` literals, by their bits. -/
  doubles : Std.HashMap UInt64 ConstantIndex := {}
  /-- The indices of names with types, by those of the names and of the descriptors. -/
  nameAndTypes : Std.HashMap (ConstantIndex × ConstantIndex) ConstantIndex := {}
  /-- The indices of fields, by those of their classes and of their names with types. -/
  fieldRefs : Std.HashMap (ConstantIndex × ConstantIndex) ConstantIndex := {}
  /-- The indices of methods of classes, by those of the same parts. -/
  methodRefs : Std.HashMap (ConstantIndex × ConstantIndex) ConstantIndex := {}
  /-- The indices of methods of interfaces, by those of the same parts. -/
  interfaceMethodRefs : Std.HashMap (ConstantIndex × ConstantIndex) ConstantIndex := {}
  /-- The indices of method handles, by their kinds and by the indices of the members. -/
  methodHandles : Std.HashMap (ReferenceKind × ConstantIndex) ConstantIndex := {}
  /-- The indices of method types, by those of their descriptors. -/
  methodTypes : Std.HashMap ConstantIndex ConstantIndex := {}
  /-- The indices of call sites, by their bootstrap methods and by the indices of their names with
  types. -/
  invokeDynamics : Std.HashMap (UInt16 × ConstantIndex) ConstantIndex := {}

/-- A constant pool that is being put together. -/
structure PoolDraft where
  /-- The constants so far. -/
  pool : ConstantPool := {}
  /-- Where the constants of every kind are. -/
  tables : PoolTables := {}

namespace PoolDraft

instance : Inhabited PoolDraft := ⟨{}⟩

/-- The draft without constants. -/
def empty : PoolDraft := {}

/-- An operation on a draft. It leaves a draft whether it succeeds or not. -/
abbrev Adding (α : Type) := ExceptT Error (StateM PoolDraft) α

/-- Runs an operation. -/
def run {α : Type} (draft : PoolDraft) (operation : Adding α) : Except Error α × PoolDraft :=
  StateT.run (ExceptT.run operation) draft

@[simp]
theorem run_pure {α : Type} (draft : PoolDraft) (value : α) :
    draft.run (pure value) = (.ok value, draft) := rfl

@[simp]
theorem run_throw {α : Type} (draft : PoolDraft) (cause : Error) :
    draft.run (throw cause : Adding α) = (.error cause, draft) := rfl

@[simp]
theorem run_liftM {α : Type} (draft : PoolDraft) (result : Except Error α) :
    draft.run (liftM result) = (result, draft) := rfl

/-- The second of two operations is run on the draft that the first leaves, unless that one
fails. -/
theorem run_bind {α β : Type} (draft : PoolDraft) (first : Adding α) (second : α → Adding β) :
    draft.run (first >>= second) =
      match draft.run first with
      | (.ok value, next) => next.run (second value)
      | (.error cause, next) => (.error cause, next) := by
  simp only [run, ExceptT.run, StateT.run, bind, ExceptT.bind, ExceptT.mk, StateT.bind]
  rcases first draft with ⟨_ | _, next⟩ <;> rfl

@[simp]
theorem run_get (draft : PoolDraft) : draft.run get = (.ok draft, draft) := rfl

@[simp]
theorem run_modify (draft : PoolDraft) (change : PoolDraft → PoolDraft) :
    draft.run (modify change) = (.ok (), change draft) := rfl

/-- Adds a constant, even if it is there already. -/
def push (constant : Constant) : Adding ConstantIndex := ExceptT.mk fun ⟨pool, tables⟩ =>
  let (added, pool) := pool.push constant
  (added, ⟨pool, tables⟩)

@[simp]
theorem run_push (draft : PoolDraft) (constant : Constant) :
    draft.run (push constant) =
      ((draft.pool.push constant).1, ⟨(draft.pool.push constant).2, draft.tables⟩) := rfl

/-- One of the tables of a draft. -/
structure Table (κ : Type) where
  /-- The index of the constant that a key makes up. -/
  find? : PoolTables → κ → Option ConstantIndex
  /-- Notes the index of the constant that a key makes up. -/
  note : PoolTables → κ → ConstantIndex → PoolTables

/-- The index of the constant that a key makes up. A constant that is not in its table is added to
the pool, and noted if there is room for it. -/
def findOrAdd {κ : Type} (table : Table κ) (key : κ) (constant : Constant) :
    Adding ConstantIndex := do
  match table.find? (← get).tables key with
  | some index => return index
  | none =>
    -- A pool without room ends the operation here, and the table learns nothing.
    let index ← push constant
    modify fun ⟨pool, tables⟩ => ⟨pool, table.note tables key index⟩
    return index

/-- A constant is looked for in its table first, and pushed if it is not there. -/
theorem run_findOrAdd {κ : Type} (draft : PoolDraft) (table : Table κ) (key : κ)
    (constant : Constant) :
    draft.run (findOrAdd table key constant) =
      match table.find? draft.tables key with
      | some index => (.ok index, draft)
      | none =>
        match draft.pool.push constant with
        | (.ok index, pool) => (.ok index, ⟨pool, table.note draft.tables key index⟩)
        | (.error cause, pool) => (.error cause, ⟨pool, draft.tables⟩) := by
  rw [findOrAdd, run_bind, run_get]
  cases h : table.find? draft.tables key with
  | some index => simp [h]
  | none =>
    simp only [h, run_bind, run_push]
    rcases draft.pool.push constant with ⟨_ | index, pool⟩ <;> simp

namespace Table

/-- The table of texts. -/
def utf8s : Table String :=
  ⟨fun t k => t.utf8s[k]?, fun t k i => { t with utf8s := t.utf8s.insert k i }⟩

/-- The table of classes. -/
def classes : Table ConstantIndex :=
  ⟨fun t k => t.classes[k]?, fun t k i => { t with classes := t.classes.insert k i }⟩

/-- The table of string literals. -/
def strings : Table ConstantIndex :=
  ⟨fun t k => t.strings[k]?, fun t k i => { t with strings := t.strings.insert k i }⟩

/-- The table of `int` literals. -/
def integers : Table Int32 :=
  ⟨fun t k => t.integers[k]?, fun t k i => { t with integers := t.integers.insert k i }⟩

/-- The table of `float` literals. -/
def floats : Table UInt32 :=
  ⟨fun t k => t.floats[k]?, fun t k i => { t with floats := t.floats.insert k i }⟩

/-- The table of `long` literals. -/
def longs : Table Int64 :=
  ⟨fun t k => t.longs[k]?, fun t k i => { t with longs := t.longs.insert k i }⟩

/-- The table of `double` literals. -/
def doubles : Table UInt64 :=
  ⟨fun t k => t.doubles[k]?, fun t k i => { t with doubles := t.doubles.insert k i }⟩

/-- The table of names with types. -/
def nameAndTypes : Table (ConstantIndex × ConstantIndex) :=
  ⟨fun t k => t.nameAndTypes[k]?,
    fun t k i => { t with nameAndTypes := t.nameAndTypes.insert k i }⟩

/-- The table of fields. -/
def fieldRefs : Table (ConstantIndex × ConstantIndex) :=
  ⟨fun t k => t.fieldRefs[k]?, fun t k i => { t with fieldRefs := t.fieldRefs.insert k i }⟩

/-- The table of methods of classes. -/
def methodRefs : Table (ConstantIndex × ConstantIndex) :=
  ⟨fun t k => t.methodRefs[k]?, fun t k i => { t with methodRefs := t.methodRefs.insert k i }⟩

/-- The table of methods of interfaces. -/
def interfaceMethodRefs : Table (ConstantIndex × ConstantIndex) :=
  ⟨fun t k => t.interfaceMethodRefs[k]?,
    fun t k i => { t with interfaceMethodRefs := t.interfaceMethodRefs.insert k i }⟩

/-- The table of method handles. -/
def methodHandles : Table (ReferenceKind × ConstantIndex) :=
  ⟨fun t k => t.methodHandles[k]?,
    fun t k i => { t with methodHandles := t.methodHandles.insert k i }⟩

/-- The table of method types. -/
def methodTypes : Table ConstantIndex :=
  ⟨fun t k => t.methodTypes[k]?, fun t k i => { t with methodTypes := t.methodTypes.insert k i }⟩

/-- The table of call sites. -/
def invokeDynamics : Table (UInt16 × ConstantIndex) :=
  ⟨fun t k => t.invokeDynamics[k]?,
    fun t k i => { t with invokeDynamics := t.invokeDynamics.insert k i }⟩

end Table

/-! ## Adding constants -/

/-- The index of a text. -/
def addUtf8 (text : String) : Adding ConstantIndex := findOrAdd .utf8s text (.utf8 text)

/-- The index of a class with a name. -/
def addClass (name : String) : Adding ConstantIndex := do
  let name ← addUtf8 name
  findOrAdd .classes name (.classRef name)

/-- The index of a `java.lang.String` literal. -/
def addString (text : String) : Adding ConstantIndex := do
  let text ← addUtf8 text
  findOrAdd .strings text (.string text)

/-- The index of an `int` literal. -/
def addInteger (value : Int32) : Adding ConstantIndex := findOrAdd .integers value (.integer value)

/-- The index of a `float` literal, by its bits. -/
def addFloat (bits : UInt32) : Adding ConstantIndex := findOrAdd .floats bits (.float bits)

/-- The index of a `long` literal. -/
def addLong (value : Int64) : Adding ConstantIndex := findOrAdd .longs value (.long value)

/-- The index of a `double` literal, by its bits. -/
def addDouble (bits : UInt64) : Adding ConstantIndex := findOrAdd .doubles bits (.double bits)

/-- The index of the name and the type of a member. -/
def addNameAndType (name : String) (type : JavaType) : Adding ConstantIndex := do
  let name ← addUtf8 name
  let descriptor ← addUtf8 type.render
  findOrAdd .nameAndTypes (name, descriptor) (.nameAndType name descriptor)

/-- The index of a field of a class. -/
def addFieldRef (owner name : String) (type : JavaType) : Adding ConstantIndex := do
  let owner ← addClass owner
  let member ← addNameAndType name type
  findOrAdd .fieldRefs (owner, member) (.fieldRef owner member)

/-- Refuses a type that is not that of a method. -/
def expectMethod (type : JavaType) : Except Error Unit :=
  if type.isMethod then .ok () else .error (.notMethodType type.render)

/-- The index of a method of a class. -/
def addMethodRef (owner name : String) (type : JavaType) : Adding ConstantIndex := do
  expectMethod type
  let owner ← addClass owner
  let member ← addNameAndType name type
  findOrAdd .methodRefs (owner, member) (.methodRef owner member)

/-- The index of a method of an interface. -/
def addInterfaceMethodRef (owner name : String) (type : JavaType) : Adding ConstantIndex := do
  expectMethod type
  let owner ← addClass owner
  let member ← addNameAndType name type
  findOrAdd .interfaceMethodRefs (owner, member) (.interfaceMethodRef owner member)

/-- The index of a method handle. The member is not looked at. -/
def addMethodHandle (kind : ReferenceKind) (member : ConstantIndex) : Adding ConstantIndex :=
  findOrAdd .methodHandles (kind, member) (.methodHandle kind member)

/-- The index of a method type. -/
def addMethodType (type : JavaType) : Adding ConstantIndex := do
  expectMethod type
  let descriptor ← addUtf8 type.render
  findOrAdd .methodTypes descriptor (.methodType descriptor)

/-- The index of a call site that is computed when first reached. -/
def addInvokeDynamic (bootstrapMethod : UInt16) (name : String) (type : JavaType) :
    Adding ConstantIndex := do
  expectMethod type
  let member ← addNameAndType name type
  findOrAdd .invokeDynamics (bootstrapMethod, member) (.invokeDynamic bootstrapMethod member)

end PoolDraft

end JavaClass
