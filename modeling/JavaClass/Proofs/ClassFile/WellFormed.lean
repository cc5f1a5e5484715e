import JavaClass.Proofs.Attribute.WellFormed
import JavaClass.Proofs.ClassFile

/-!
# Class files that are read back

A class file is well-formed if its indices point at constants of the kinds that they are used for,
and its attributes have the names of their kinds at every depth. Every well-formed class file is
read back from its bytes, whatever stands behind them.

- `ClassFile.Holds`: the attributes of a class file at every depth.
- `ClassFile.WellFormed`: well-formed class files.
- `ClassFile.ofBytes_toBytes_append`: what was written is read back.
-/

namespace JavaClass

/-- Fields and methods are read back if there are strings at their indices and their attributes are
well-formed. -/
theorem Member.reads_read_of_write {declaration : Declaration} {pool : ConstantPool}
    {member : Member declaration} (hnamed : member.IsNamed pool)
    (hattributes : ∀ attr ∈ member.attributes, attr.WellFormed pool) {bytes : Bytes}
    (hwrite : member.write = .ok bytes) (rest : Bytes) :
    (Member.read pool).Reads (bytes ++ rest) [] member rest := by
  obtain ⟨attributes, hbytes, rfl⟩ := Member.write_eq_ok.mp hwrite
  refine Member.reads_read.mpr ⟨hnamed, attributes ++ rest, List.append_assoc .., ?_⟩
  exact Attribute.reads_readList_of_write hattributes hbytes rest

namespace ClassFile

variable {file : ClassFile}

/-- An attribute of a class file, of one of its fields or of one of its methods. -/
def HasAttribute (file : ClassFile) (attr : Attribute) : Prop :=
  (∃ field ∈ file.fields, attr ∈ field.attributes) ∨
    (∃ method ∈ file.methods, attr ∈ method.attributes) ∨ attr ∈ file.attributes

/-- An attribute that hangs on a class file at some depth. -/
def Holds (file : ClassFile) (attr : Attribute) : Prop :=
  ∃ outer, file.HasAttribute outer ∧ attr.Occurs outer

/-- A class file whose indices point at constants of the kinds that they are used for, and whose
attributes are what their names say. -/
structure WellFormed (file : ClassFile) : Prop where
  /-- The pool was filled by pushing and interning. -/
  reachable : file.constants.Reachable
  /-- No string of units in the pool is text. -/
  canonical : ∀ constant ∈ file.constants.constants.elements, constant.Canonical
  /-- There is a class at the index of the class itself. -/
  thisClass : file.constants.IsClass file.thisClass
  /-- There is a class at the index of the super class, if there is such an index. -/
  superClass : ∀ index, file.superClass = some index → file.constants.IsClass index
  /-- There are classes at the indices of the interfaces. -/
  interfaces : ∀ index ∈ file.interfaces, file.constants.IsClass index
  /-- There are strings at the indices of the names and the descriptors of fields. -/
  fields : ∀ field ∈ file.fields, field.IsNamed file.constants
  /-- There are strings at the indices of the names and the descriptors of methods. -/
  methods : ∀ method ∈ file.methods, method.IsNamed file.constants
  /-- At the index of the name of an attribute is the name of its kind. -/
  names : ∀ attr, file.Holds attr → file.constants.text attr.name = .ok attr.kindName
  /-- There is a string at the index of the file that a class was compiled from. -/
  sourceFiles : ∀ name source, file.Holds (.sourceFile name source) →
    file.constants.IsString source
  /-- The code of a method starts at offset 0 and was filled with instructions. -/
  code : ∀ body attributes, file.Holds (.code body attributes) → body.instructions.FilledFrom 0
  /-- No handler catches the class at index 0. -/
  catchTypes : ∀ body attributes, file.Holds (.code body attributes) →
    ∀ handler ∈ body.handlers, handler.catchType ≠ some 0

/-- A class file is well-formed if its sections can be read back and its attributes are
well-formed. -/
theorem wellFormed_of_attributes (hfront : file.HasSoundFront)
    (hfields : ∀ field ∈ file.fields, field.IsNamed file.constants)
    (hmethods : ∀ method ∈ file.methods, method.IsNamed file.constants)
    (h : ∀ attr, file.HasAttribute attr → attr.WellFormed file.constants) : file.WellFormed := by
  -- An attribute at some depth occurs in one that hangs on the class file or on a member.
  have hsound : ∀ attr, file.Holds attr → attr.IsSound file.constants :=
    fun attr ⟨outer, houter, hoccurs⟩ => h outer houter attr hoccurs
  exact
    { reachable := hfront.constants.reachable
      canonical := hfront.constants.constants
      thisClass := hfront.thisClass
      superClass := fun index hindex => (hfront.superClass index hindex).2
      interfaces := hfront.interfaces
      fields := hfields
      methods := hmethods
      names := fun attr hattr => (hsound attr hattr).1
      sourceFiles := fun name source hattr => (hsound _ hattr).2
      code := fun body attributes hattr => (hsound _ hattr).2.1
      catchTypes := fun body attributes hattr => (hsound _ hattr).2.2 }

namespace WellFormed

/-- The attributes of a well-formed class file are well-formed. -/
theorem attributes (h : file.WellFormed) {attr : Attribute} (hattr : file.HasAttribute attr) :
    attr.WellFormed file.constants := by
  intro found hoccurs
  have hholds : file.Holds found := ⟨attr, hattr, hoccurs⟩
  refine ⟨h.names found hholds, ?_⟩
  cases found with
  | sourceFile name source => exact h.sourceFiles name source hholds
  | constantValue name value => trivial
  | code body attributes =>
    exact ⟨h.code body attributes hholds, h.catchTypes body attributes hholds⟩
  | lineNumberTable name lines => trivial

/-- The sections of a well-formed class file up to the fields can be read back. -/
theorem hasSoundFront (h : file.WellFormed) : file.HasSoundFront where
  constants := ⟨h.reachable, h.canonical⟩
  thisClass := h.thisClass
  superClass := fun index hindex => by
    refine ⟨?_, h.superClass index hindex⟩
    -- Index 0 would stand for no super class, but there is no class at it.
    rintro rfl
    exact h.reachable.not_isClass_zero (h.superClass 0 hindex)
  interfaces := h.interfaces

/-- A well-formed class file is read from where it is written. -/
theorem reads_read_of_toBytes (h : file.WellFormed) {bytes : Bytes}
    (hwrite : file.toBytes = .ok bytes) (rest : Bytes) :
    ClassFile.read.Reads (bytes ++ rest) [] file rest := by
  obtain ⟨front, fields, methods, attributes, hfront, hfields, hmethods, hattributes, rfl⟩ :=
    toBytes_eq_ok.mp hwrite
  refine reads_read.mpr ⟨h.hasSoundFront, front, fields ++ (methods ++ (attributes ++ rest)), [],
    methods ++ (attributes ++ rest), [], attributes ++ rest, [], hfront,
    by simp only [List.append_assoc], ?_, ?_, ?_, rfl⟩
  · refine Reader.reads_table_of_write (fun field hmem bytes rest hbytes => ?_) hfields _
    exact Member.reads_read_of_write (h.fields field hmem)
      (fun attr hattr => h.attributes (.inl ⟨field, hmem, hattr⟩)) hbytes rest
  · refine Reader.reads_table_of_write (fun method hmem bytes rest hbytes => ?_) hmethods _
    exact Member.reads_read_of_write (h.methods method hmem)
      (fun attr hattr => h.attributes (.inr (.inl ⟨method, hmem, hattr⟩))) hbytes rest
  · exact Attribute.reads_readList_of_write (fun attr hattr => h.attributes (.inr (.inr hattr)))
      hattributes rest

end WellFormed

/-- A well-formed class file is read back from its bytes. What stands behind them is left, and
nothing is reported. -/
theorem ofBytes_toBytes_append (h : file.WellFormed) {bytes : Bytes}
    (hwrite : file.toBytes = .ok bytes) (rest : Bytes) :
    ofBytes (bytes ++ rest) = ⟨[], .ok (file, rest)⟩ :=
  h.reads_read_of_toBytes hwrite rest

/-- The instruction that ends a method without a result. -/
def returnFromMethod : Instruction := ⟨.returnVoid, [], rfl, rfl⟩

/-- A class with a method that does nothing. -/
def withEmptyMethod : ClassFile where
  version := .default
  constants := ConstantPool.empty.addAll
    [.utf8 "Main", .classRef 1, .utf8 "run", .utf8 "()V", .utf8 Attribute.codeName]
  flags := .opened
  thisClass := 2
  superClass := none
  methods :=
    [{ flags := ⟨0x0009⟩, name := 3, descriptor := 4
       attributes :=
        [.code
          { name := 5, maxStack := 0, maxLocals := 1, handlers := []
            instructions := .ofList [returnFromMethod] } []] }]

/-- The class with a method that does nothing is well-formed. -/
theorem wellFormed_withEmptyMethod : withEmptyMethod.WellFormed := by
  have hreachable : withEmptyMethod.constants.Reachable :=
    ConstantPool.reachable_addAll .empty (by decide)
  have hget : ∀ {index constant},
      (index.toNat, constant) ∈ withEmptyMethod.constants.constants.toList →
        withEmptyMethod.constants.get index = .ok constant := hreachable.get_eq_ok_iff.mpr
  have hcode : ∀ attr, withEmptyMethod.HasAttribute attr →
      attr.WellFormed withEmptyMethod.constants := by
    rintro attr (⟨field, hfield, -⟩ | ⟨method, hmethod, hattr⟩ | hattr)
    · cases hfield
    · obtain rfl := List.mem_singleton.mp hmethod
      obtain rfl := List.mem_singleton.mp hattr
      have hname : withEmptyMethod.constants.text 5 = .ok Attribute.codeName :=
        ConstantPool.text_eq_ok_iff.mpr (hget (by decide))
      exact Attribute.wellFormed_code_iff.mpr
        ⟨⟨hname, .append .startingAt _, List.forall_mem_nil _⟩, List.forall_mem_nil _⟩
    · cases hattr
  refine wellFormed_of_attributes ⟨⟨hreachable, by decide⟩, ⟨1, hget (by decide)⟩, ?_, ?_⟩
    ?_ ?_ hcode
  · rintro index ⟨⟩
  · exact List.forall_mem_nil _
  · exact List.forall_mem_nil _
  · intro method hmethod
    obtain rfl := List.mem_singleton.mp hmethod
    exact ⟨.inl ⟨"run", hget (by decide)⟩, .inl ⟨"()V", hget (by decide)⟩⟩

/-- The class with a method that does nothing is read back in front of another byte. -/
theorem ofBytes_toBytes_withEmptyMethod :
    ∃ bytes, withEmptyMethod.WellFormed ∧ withEmptyMethod.toBytes = .ok bytes ∧
      ofBytes (bytes ++ [0xFF]) = ⟨[], .ok (withEmptyMethod, [0xFF])⟩ :=
  ⟨_, wellFormed_withEmptyMethod, rfl,
    ofBytes_toBytes_append wellFormed_withEmptyMethod rfl [0xFF]⟩

end ClassFile

end JavaClass
