import JavaClass.Draft.PoolDraft
import JavaClass.Proofs.ConstantPool

/-!
# Drafts of pools only intern

A draft of a pool looks constants up in tables of its own, one for each kind. It nonetheless does
what interning the parts of a constant one after another does, without any table but that of the
pool.

- `PoolDraft.Addition`: the operations that add constants, and `PoolDraft.Addition.interned`: the
  interning that each of them comes down to.
- `PoolDraft.Consistent`: the tables of a draft agree with its pool, which holds no constant twice.
- `PoolDraft.Refines`: an operation on consistent drafts does what an operation on pools does.
- `PoolDraft.trace_eq_internTrace`: every run of additions does what interning does.
-/

namespace JavaClass

/-! ## Operations that intern -/

namespace ConstantPool

/-- An operation on a pool. It leaves a pool whether it succeeds or not. -/
abbrev Interning (α : Type) := ExceptT Error (StateM ConstantPool) α

/-- Runs an operation. -/
def run {α : Type} (pool : ConstantPool) (operation : Interning α) :
    Except Error α × ConstantPool :=
  StateT.run (ExceptT.run operation) pool

/-- Interns a constant. -/
def interning (constant : Constant) : Interning ConstantIndex :=
  ExceptT.mk fun pool => pool.intern constant

@[simp]
theorem run_pure {α : Type} (pool : ConstantPool) (value : α) :
    pool.run (pure value) = (.ok value, pool) := rfl

@[simp]
theorem run_interning (pool : ConstantPool) (constant : Constant) :
    pool.run (interning constant) = pool.intern constant := rfl

/-- An operation goes on from the pool that its first step leaves, unless that one fails. -/
theorem run_bind {α β : Type} (pool : ConstantPool) (first : Interning α)
    (second : α → Interning β) :
    pool.run (first >>= second) =
      match pool.run first with
      | (.ok value, next) => next.run (second value)
      | (.error cause, next) => (.error cause, next) := by
  simp only [run, ExceptT.run, StateT.run, bind, ExceptT.bind, ExceptT.mk, StateT.bind]
  rcases first pool with ⟨_ | _, next⟩ <;> rfl

end ConstantPool

/-- The index that the table for the kind of a constant has for it. Strings of units have no
table. -/
def PoolTables.find? (tables : PoolTables) : Constant → Option ConstantIndex
  | .utf8 text => tables.utf8s[text]?
  | .utf16 _ => none
  | .integer value => tables.integers[value]?
  | .float bits => tables.floats[bits]?
  | .long value => tables.longs[value]?
  | .double bits => tables.doubles[bits]?
  | .classRef name => tables.classes[name]?
  | .string text => tables.strings[text]?
  | .fieldRef owner member => tables.fieldRefs[(owner, member)]?
  | .methodRef owner member => tables.methodRefs[(owner, member)]?
  | .interfaceMethodRef owner member => tables.interfaceMethodRefs[(owner, member)]?
  | .nameAndType name descriptor => tables.nameAndTypes[(name, descriptor)]?
  | .methodHandle kind member => tables.methodHandles[(kind, member)]?
  | .methodType descriptor => tables.methodTypes[descriptor]?
  | .invokeDynamic bootstrapMethod member => tables.invokeDynamics[(bootstrapMethod, member)]?

namespace PoolDraft

open ConstantPool (Interning interning)

/-- A call that adds a constant to a draft, with what makes it up. -/
inductive Addition where
  /-- A text. -/
  | utf8 (text : String)
  /-- A class with a name. -/
  | classRef (name : String)
  /-- A string literal. -/
  | string (text : String)
  /-- An `int` literal. -/
  | integer (value : Int32)
  /-- A `float` literal, by its bits. -/
  | float (bits : UInt32)
  /-- A `long` literal. -/
  | long (value : Int64)
  /-- A `double` literal, by its bits. -/
  | double (bits : UInt64)
  /-- The name and the type of a member. -/
  | nameAndType (name : String) (type : JavaType)
  /-- A field of a class. -/
  | fieldRef (owner name : String) (type : JavaType)
  /-- A method of a class. -/
  | methodRef (owner name : String) (type : JavaType)
  /-- A method of an interface. -/
  | interfaceMethodRef (owner name : String) (type : JavaType)
  /-- A method handle for a member that is given by its index. -/
  | methodHandle (kind : ReferenceKind) (member : ConstantIndex)
  /-- A method type. -/
  | methodType (type : JavaType)
  /-- A call site that is computed when first reached. -/
  | invokeDynamic (bootstrapMethod : UInt16) (name : String) (type : JavaType)

namespace Addition

/-- The operation of a draft that a call runs. -/
def adding : Addition → Adding ConstantIndex
  | utf8 text => addUtf8 text
  | classRef name => addClass name
  | string text => addString text
  | integer value => addInteger value
  | float bits => addFloat bits
  | long value => addLong value
  | double bits => addDouble bits
  | nameAndType name type => addNameAndType name type
  | fieldRef owner name type => addFieldRef owner name type
  | methodRef owner name type => addMethodRef owner name type
  | interfaceMethodRef owner name type => addInterfaceMethodRef owner name type
  | methodHandle kind member => addMethodHandle kind member
  | methodType type => addMethodType type
  | invokeDynamic bootstrapMethod name type => addInvokeDynamic bootstrapMethod name type

/-- The parts of a class, interned in order. -/
def internClass (name : String) : Interning ConstantIndex := do
  let name ← interning (.utf8 name)
  interning (.classRef name)

/-- The parts of a name with a type, interned in order. -/
def internNameAndType (name : String) (type : JavaType) : Interning ConstantIndex := do
  let name ← interning (.utf8 name)
  let descriptor ← interning (.utf8 type.render)
  interning (.nameAndType name descriptor)

/-- The parts of a constant that a call adds, interned in order. The first error ends the call. -/
def interned : Addition → Interning ConstantIndex
  | utf8 text => interning (.utf8 text)
  | classRef name => internClass name
  | string text => do
    let text ← interning (.utf8 text)
    interning (.string text)
  | integer value => interning (.integer value)
  | float bits => interning (.float bits)
  | long value => interning (.long value)
  | double bits => interning (.double bits)
  | nameAndType name type => internNameAndType name type
  | fieldRef owner name type => do
    let owner ← internClass owner
    let member ← internNameAndType name type
    interning (.fieldRef owner member)
  | methodRef owner name type => do
    expectMethod type
    let owner ← internClass owner
    let member ← internNameAndType name type
    interning (.methodRef owner member)
  | interfaceMethodRef owner name type => do
    expectMethod type
    let owner ← internClass owner
    let member ← internNameAndType name type
    interning (.interfaceMethodRef owner member)
  | methodHandle kind member => interning (.methodHandle kind member)
  | methodType type => do
    expectMethod type
    let descriptor ← interning (.utf8 type.render)
    interning (.methodType descriptor)
  | invokeDynamic bootstrapMethod name type => do
    expectMethod type
    let member ← internNameAndType name type
    interning (.invokeDynamic bootstrapMethod member)

end Addition

/-- The answers to some calls one after another, each with the pool that it leaves. -/
def trace (draft : PoolDraft) : List Addition → List (Except Error ConstantIndex × ConstantPool)
  | [] => []
  | addition :: additions =>
    let (answer, next) := draft.run addition.adding
    (answer, next.pool) :: next.trace additions

end PoolDraft

/-- The answers to the interning that some calls come down to, each with the pool that it leaves. -/
def ConstantPool.internTrace (pool : ConstantPool) :
    List PoolDraft.Addition → List (Except Error ConstantIndex × ConstantPool)
  | [] => []
  | addition :: additions =>
    let (answer, next) := pool.run addition.interned
    (answer, next) :: next.internTrace additions

namespace PoolDraft

open ConstantPool (Interning interning)

/-! ## Tables -/

/-- A table is for the constants that its keys make up: it finds them and no others, and noting one
changes nothing about any other constant. -/
structure Table.IsFor {κ : Type} (table : Table κ) (make : κ → Constant) : Prop where
  find?_eq : ∀ tables key, table.find? tables key = tables.find? (make key)
  find?_note : ∀ tables key index constant,
    (table.note tables key index).find? constant =
      if make key = constant then some index else tables.find? constant

/-- The tables of a draft, with the constants that each of them is for. -/
inductive Table.Serves : {κ : Type} → Table κ → (κ → Constant) → Prop where
  | utf8s : Serves .utf8s .utf8
  | classes : Serves .classes .classRef
  | strings : Serves .strings .string
  | integers : Serves .integers .integer
  | floats : Serves .floats .float
  | longs : Serves .longs .long
  | doubles : Serves .doubles .double
  | nameAndTypes : Serves .nameAndTypes fun key => .nameAndType key.1 key.2
  | fieldRefs : Serves .fieldRefs fun key => .fieldRef key.1 key.2
  | methodRefs : Serves .methodRefs fun key => .methodRef key.1 key.2
  | interfaceMethodRefs : Serves .interfaceMethodRefs fun key => .interfaceMethodRef key.1 key.2
  | methodHandles : Serves .methodHandles fun key => .methodHandle key.1 key.2
  | methodTypes : Serves .methodTypes .methodType
  | invokeDynamics : Serves .invokeDynamics fun key => .invokeDynamic key.1 key.2

/-- Every table of a draft is for its constants alone. -/
theorem Table.Serves.isFor {κ : Type} {table : Table κ} {make : κ → Constant}
    (h : table.Serves make) : table.IsFor make := by
  -- A table and a constant of another kind have nothing to do with each other; one and its own
  -- are a look-up behind an insertion.
  cases h <;> refine ⟨fun _ _ => rfl, fun tables key index constant => ?_⟩ <;> cases constant <;>
    simp [PoolTables.find?, Table.utf8s, Table.classes, Table.strings, Table.integers,
      Table.floats, Table.longs, Table.doubles, Table.nameAndTypes, Table.fieldRefs,
      Table.methodRefs, Table.interfaceMethodRefs, Table.methodHandles, Table.methodTypes,
      Table.invokeDynamics, Std.HashMap.getElem?_insert, Prod.ext_iff]

/-! ## Drafts and pools -/

/-- The pool of a draft was filled and holds no constant twice, and the tables find every constant
where the pool does. -/
structure Consistent (draft : PoolDraft) : Prop where
  /-- The pool was filled by pushing and interning. -/
  reachable : draft.pool.Reachable
  /-- No two constants of the pool are equal. -/
  nodup : draft.pool.constants.elements.Nodup
  /-- The tables find the constants that the pool knows, at the same indices. -/
  find?_eq : ∀ constant, draft.tables.find? constant = draft.pool.firstIndex[constant]?

/-- The draft without constants is consistent. -/
theorem consistent_empty : Consistent empty where
  reachable := .empty
  nodup := List.nodup_nil
  find?_eq constant := by
    cases constant <;> simp [empty, PoolTables.find?]

/-- A consistent draft holds no string of units: no table would find it. -/
theorem Consistent.not_mem_utf16 {draft : PoolDraft} (h : draft.Consistent)
    (units : List UInt16) : Constant.utf16 units ∉ draft.pool.constants.elements :=
  h.reachable.firstIndex_eq_none_iff.mp (h.find?_eq (.utf16 units)).symm

/-- An operation on consistent drafts does what an operation on their pools does: it yields the same
value or error, leaves the same pool, and leaves a consistent draft. -/
def Refines {α : Type} (adding : Adding α) (interning : Interning α) : Prop :=
  ∀ draft : PoolDraft, draft.Consistent →
    (draft.run adding).2.Consistent ∧
      ((draft.run adding).1, (draft.run adding).2.pool) = draft.pool.run interning

namespace Refines

variable {α β : Type}

/-- Looking a constant up in its table, and adding it if it is not there, interns it. -/
theorem findOrAdd {κ : Type} {table : Table κ} {make : κ → Constant} (h : table.Serves make)
    (key : κ) : Refines (findOrAdd table key (make key)) (interning (make key)) := by
  intro draft hdraft
  obtain ⟨hfind, hnote⟩ := h.isFor
  rw [run_findOrAdd, hfind, hdraft.find?_eq, ConstantPool.run_interning]
  cases hfirst : draft.pool.firstIndex[make key]? with
  | some index => exact ⟨hdraft, (ConstantPool.intern_of_known hfirst).symm⟩
  | none =>
    rw [ConstantPool.intern_of_unknown hfirst]
    -- What no table finds the pool does not know either, so both push the constant.
    by_cases room : draft.pool.HasRoom (make key)
    · rw [ConstantPool.push_of_hasRoom room]
      refine ⟨⟨hdraft.reachable.add room, ?_, fun constant => ?_⟩, rfl⟩
      · -- The constant was not there before, so it is there once.
        have hnew := hdraft.reachable.firstIndex_eq_none_iff.mp hfirst
        rw [ConstantPool.elements_add, List.nodup_append]
        refine ⟨hdraft.nodup, List.nodup_singleton _, ?_⟩
        rintro found hmem added hadded rfl
        rw [List.mem_singleton.mp hadded] at hmem
        exact hnew hmem
      · rw [hnote, ConstantPool.firstIndex_add, hdraft.find?_eq]
        by_cases heq : make key = constant
        · rw [if_pos heq, if_pos heq, ← heq, hfirst]
          rfl
        · rw [if_neg heq, if_neg heq, Option.or_none]
    · rw [ConstantPool.push_of_not_hasRoom room]
      exact ⟨hdraft, rfl⟩

/-- What yields a value or an error without a look at the constants is the same for both. -/
theorem lift (result : Except Error α) : Refines (liftM result) (liftM result) :=
  fun _ hdraft => ⟨hdraft, rfl⟩

/-- One operation after another does what the other operations do one after another. -/
theorem bind {first : Adding α} {first' : Interning α} {second : α → Adding β}
    {second' : α → Interning β} (hfirst : Refines first first')
    (hsecond : ∀ value, Refines (second value) (second' value)) :
    Refines (first >>= second) (first' >>= second') := by
  intro draft hdraft
  -- The second operation starts from a consistent draft, unless the first one ends the run.
  obtain ⟨hconsistent, heq⟩ := hfirst draft hdraft
  rw [run_bind, ConstantPool.run_bind, ← heq]
  rcases hrun : draft.run first with ⟨_ | value, next⟩
  · rw [hrun] at hconsistent
    exact ⟨hconsistent, rfl⟩
  · rw [hrun] at hconsistent
    exact hsecond value next hconsistent

end Refines

/-! ## Additions -/

theorem refines_addUtf8 (text : String) : Refines (addUtf8 text) (interning (.utf8 text)) :=
  .findOrAdd .utf8s text

theorem refines_addClass (name : String) : Refines (addClass name) (Addition.internClass name) :=
  .bind (refines_addUtf8 name) fun index => .findOrAdd .classes index

theorem refines_addNameAndType (name : String) (type : JavaType) :
    Refines (addNameAndType name type) (Addition.internNameAndType name type) :=
  .bind (refines_addUtf8 name) fun nameIndex =>
    .bind (refines_addUtf8 type.render) fun descriptor =>
      .findOrAdd .nameAndTypes (nameIndex, descriptor)

/-- Every call that adds a constant does what interning its parts does. -/
theorem Addition.refines (addition : Addition) : Refines addition.adding addition.interned := by
  cases addition with
  | utf8 text => exact refines_addUtf8 text
  | classRef name => exact refines_addClass name
  | string text => exact .bind (refines_addUtf8 text) fun index => .findOrAdd .strings index
  | integer value => exact .findOrAdd .integers value
  | float bits => exact .findOrAdd .floats bits
  | long value => exact .findOrAdd .longs value
  | double bits => exact .findOrAdd .doubles bits
  | nameAndType name type => exact refines_addNameAndType name type
  | fieldRef owner name type =>
    exact .bind (refines_addClass owner) fun ownerIndex =>
      .bind (refines_addNameAndType name type) fun member =>
        .findOrAdd .fieldRefs (ownerIndex, member)
  | methodRef owner name type =>
    exact .bind (.lift _) fun _ => .bind (refines_addClass owner) fun ownerIndex =>
      .bind (refines_addNameAndType name type) fun member =>
        .findOrAdd .methodRefs (ownerIndex, member)
  | interfaceMethodRef owner name type =>
    exact .bind (.lift _) fun _ => .bind (refines_addClass owner) fun ownerIndex =>
      .bind (refines_addNameAndType name type) fun member =>
        .findOrAdd .interfaceMethodRefs (ownerIndex, member)
  | methodHandle kind member => exact .findOrAdd .methodHandles (kind, member)
  | methodType type =>
    exact .bind (.lift _) fun _ => .bind (refines_addUtf8 type.render) fun descriptor =>
      .findOrAdd .methodTypes descriptor
  | invokeDynamic bootstrapMethod name type =>
    exact .bind (.lift _) fun _ => .bind (refines_addNameAndType name type) fun member =>
      .findOrAdd .invokeDynamics (bootstrapMethod, member)

/-! ## Runs -/

/-- A run of calls on a consistent draft answers as interning does, and leaves no constant twice. -/
theorem Consistent.trace {draft : PoolDraft} (h : draft.Consistent) (additions : List Addition) :
    draft.trace additions = draft.pool.internTrace additions ∧
      ∀ step ∈ draft.trace additions, step.2.constants.elements.Nodup := by
  induction additions generalizing draft with
  | nil => exact ⟨rfl, List.forall_mem_nil _⟩
  | cons addition additions ih =>
    obtain ⟨hconsistent, heq⟩ := addition.refines draft h
    obtain ⟨htrace, hnodup⟩ := ih hconsistent
    rw [PoolDraft.trace, ConstantPool.internTrace, ← heq]
    exact ⟨congrArg _ htrace, List.forall_mem_cons.mpr ⟨hconsistent.nodup, hnodup⟩⟩

/-- Whatever calls are made on a new draft, each answers, and leaves a pool, as if the parts of its
constant had been interned into a pool without the tables of the draft; and no pool that is left
holds two equal constants. -/
theorem trace_eq_internTrace (additions : List Addition) :
    empty.trace additions = ConstantPool.empty.internTrace additions ∧
      ∀ step ∈ empty.trace additions, step.2.constants.elements.Nodup :=
  consistent_empty.trace additions

end PoolDraft

end JavaClass
