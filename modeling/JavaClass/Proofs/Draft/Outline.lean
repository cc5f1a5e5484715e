import JavaClass.Proofs.Draft.Calls

/-!
# Classes by their names

A class file refers to names by index. Its outline tells the same by the names themselves.

- `Outline`: what is known of a class by names.
- `Outline.of`: what the calls on a class say about it. `Outline.of_append_singleton`: what one more
  call adds.
- `ClassFile.Represents`: a class file is what an outline says, once its indices are resolved.
- `ClassFile.Represents.extends`: it stays so when the pool is extended.
-/

namespace JavaClass

open ConstantPool (Extends)

/-! ## Outlines -/

/-- A field or a method by its name and its descriptor. -/
structure MemberOutline (declaration : Declaration) where
  /-- The access flags. -/
  flags : AccessFlags declaration
  /-- The name. -/
  name : String
  /-- The descriptor. -/
  descriptor : String

/-- A field by its name and its descriptor. -/
structure FieldOutline extends MemberOutline .field where
  /-- The index of the value that the field starts with. -/
  value : Option ConstantIndex

/-- A class by names instead of indices. -/
structure Outline where
  /-- The name of the class. -/
  name : String
  /-- The name of the super class. -/
  superName : String
  /-- The names of the interfaces, in order. -/
  interfaces : List String
  /-- The fields, in order. -/
  fields : List FieldOutline
  /-- The methods, in order. -/
  methods : List (MemberOutline .method)
  /-- The file that the class is compiled from. -/
  sourceFile : Option String

namespace ClassDraft.Call

/-- The super class that a call sets. -/
@[simp]
def superName? : Call → Option String
  | .setSuperClass name => some name
  | _ => none

/-- The interface that a call adds. -/
@[simp]
def interface? : Call → Option String
  | .addInterface name => some name
  | _ => none

/-- The source file that a call sets. -/
@[simp]
def sourceFile? : Call → Option String
  | .setSourceFile source => some source
  | _ => none

/-- The field that a call declares. -/
@[simp]
def field? : Call → Option FieldOutline
  | .declareField name type flags value => some { flags, name, descriptor := type.render, value }
  | _ => none

/-- The method that a call adds, which it does if the method is left. -/
@[simp]
def method? : Call → Option (MemberOutline .method)
  | .method name type flags _ .leave => some { flags, name, descriptor := type.render }
  | .constructor type flags _ .leave =>
    some { flags, name := MethodDraft.constructorName, descriptor := type.render }
  | _ => none

end ClassDraft.Call

namespace Outline

open ClassDraft (Call)

/-- What some calls say about a class with a name: the super class that was set last, the interfaces
without repeats in the order in which they were first added, all fields and methods in order, and
the source file that was set last. -/
def of (name : String) (calls : List Call) : Outline where
  name
  superName := (calls.filterMap Call.superName?).getLast?.getD ClassDraft.defaultSuperClass
  interfaces := (calls.filterMap Call.interface?).eraseDups
  fields := calls.filterMap Call.field?
  methods := calls.filterMap Call.method?
  sourceFile := (calls.filterMap Call.sourceFile?).getLast?

/-- An outline with what one more call says. -/
def after (outline : Outline) : Call → Outline
  | .setSuperClass name => { outline with superName := name }
  | .addInterface name =>
    if name ∈ outline.interfaces then outline
    else { outline with interfaces := outline.interfaces ++ [name] }
  | .setSourceFile source => { outline with sourceFile := some source }
  | .declareField name type flags value =>
    { outline with fields := outline.fields ++ [{ flags, name, descriptor := type.render, value }] }
  | .method name type flags _ .leave =>
    { outline with methods := outline.methods ++ [{ flags, name, descriptor := type.render }] }
  | .constructor type flags _ .leave =>
    { outline with
      methods := outline.methods ++
        [{ flags, name := MethodDraft.constructorName, descriptor := type.render }] }
  | .setVersion _ | .setFlags _ | .addFlags _ | .add _ | .method _ _ _ _ .drop
  | .constructor _ _ _ .drop => outline

/-- A name that is there already is not repeated. -/
theorem eraseDups_append_singleton (names : List String) (name : String) :
    (names ++ [name]).eraseDups =
      if name ∈ names.eraseDups then names.eraseDups else names.eraseDups ++ [name] := by
  by_cases hmem : name ∈ names
  · simp [List.eraseDups_append, List.removeAll, hmem]
  · simp [List.eraseDups_append, List.removeAll, List.eraseDups_cons, hmem]

/-- One more call adds what it says. -/
theorem of_append_singleton (name : String) (calls : List Call) (call : Call) :
    of name (calls ++ [call]) = (of name calls).after call := by
  -- Every part of an outline is collected from the calls that say something about it.
  have hone {α : Type} (says? : Call → Option α) :
      (calls ++ [call]).filterMap says? = calls.filterMap says? ++ (says? call).toList := by
    cases h : says? call <;> simp [h]
  simp only [of, hone]
  cases call with
  | addInterface interface =>
    simp only [after, Call.superName?, Call.interface?, Call.sourceFile?, Call.field?, Call.method?,
      Option.toList_none, Option.toList_some, List.append_nil, eraseDups_append_singleton]
    by_cases hmem : interface ∈ (calls.filterMap Call.interface?).eraseDups
    · rw [if_pos hmem, if_pos hmem]
    · rw [if_neg hmem, if_neg hmem]
  | method _ _ _ _ ending => cases ending <;> simp [after]
  | constructor _ _ _ ending => cases ending <;> simp [after]
  | setSuperClass | setSourceFile | declareField | setVersion | setFlags | addFlags | add =>
    simp [after]

end Outline

/-! ## Class files -/

namespace MemberOutline

/-- A field or a method has the flags, the name and the descriptor of an outline. -/
structure Fits {declaration : Declaration} (outline : MemberOutline declaration)
    (pool : ConstantPool) (member : Member declaration) : Prop where
  flags : member.flags = outline.flags
  name : pool.text member.name = .ok outline.name
  descriptor : pool.text member.descriptor = .ok outline.descriptor

/-- A member keeps its name and its descriptor when a pool is extended. -/
theorem Fits.extends {declaration : Declaration} {outline : MemberOutline declaration}
    {before after : ConstantPool} {member : Member declaration} (h : outline.Fits before member)
    (hextends : Extends before after) : outline.Fits after member where
  flags := h.flags
  name := hextends.text h.name
  descriptor := hextends.text h.descriptor

/-- The attributes of a member are no part of its outline. -/
theorem Fits.withAttributes {declaration : Declaration} {outline : MemberOutline declaration}
    {pool : ConstantPool} {member : Member declaration} (h : outline.Fits pool member)
    (attributes : List Attribute) : outline.Fits pool { member with attributes } where
  flags := h.flags
  name := h.name
  descriptor := h.descriptor

end MemberOutline

namespace FieldOutline

/-- The attributes of a field are what its value makes of them: there are none without a value, and
one that holds the index of the value otherwise. -/
def HasValue (pool : ConstantPool) (attributes : List Attribute) :
    (value : Option ConstantIndex) → Prop
  | none => attributes = []
  | some value => ∃ name, pool.text name = .ok Attribute.constantValueName ∧
      attributes = [.constantValue name value]

/-- A field is what an outline says. -/
structure Fits (outline : FieldOutline) (pool : ConstantPool) (field : Field) : Prop where
  member : outline.toMemberOutline.Fits pool field
  value : HasValue pool field.attributes outline.value

theorem HasValue.extends {before after : ConstantPool} {attributes : List Attribute}
    {value : Option ConstantIndex} (h : HasValue before attributes value)
    (hextends : Extends before after) : HasValue after attributes value := by
  cases value with
  | none => exact h
  | some value =>
    obtain ⟨name, hname, hattributes⟩ := h
    exact ⟨name, hextends.text hname, hattributes⟩

/-- A field stays what an outline says when a pool is extended. -/
theorem Fits.extends {outline : FieldOutline} {before after : ConstantPool} {field : Field}
    (h : outline.Fits before field) (hextends : Extends before after) :
    outline.Fits after field where
  member := h.member.extends hextends
  value := h.value.extends hextends

end FieldOutline

namespace ClassFile

variable {file : ClassFile} {outline : Outline}

/-- A class file has a super class with a name exactly if there is a class with that name at the
index of its super class. -/
theorem superName_eq_ok_some_iff {name : String} :
    file.superName = .ok (some name) ↔
      ∃ index, file.superClass = some index ∧ file.constants.className index = .ok name := by
  rw [superName]
  cases file.superClass with
  | none => simp
  | some index =>
    have hmap : Option.mapM file.constants.className (some index) =
        (file.constants.className index).map some := rfl
    rw [hmap, map_eq_ok]
    simp

/-- The attributes of a class are what its source file makes of them: there are none without one,
and a single one otherwise. -/
def HasSourceFile (pool : ConstantPool) (attributes : List Attribute) :
    (sourceFile : Option String) → Prop
  | none => attributes = []
  | some source => ∃ name file, pool.text name = .ok Attribute.sourceFileName ∧
      pool.text file = .ok source ∧ attributes = [.sourceFile name file]

theorem HasSourceFile.extends {before after : ConstantPool} {attributes : List Attribute}
    {sourceFile : Option String} (h : HasSourceFile before attributes sourceFile)
    (hextends : Extends before after) : HasSourceFile after attributes sourceFile := by
  cases sourceFile with
  | none => exact h
  | some source =>
    obtain ⟨name, file, hname, hfile, hattributes⟩ := h
    exact ⟨name, file, hextends.text hname, hextends.text hfile, hattributes⟩

/-- A class file is what an outline says, when its indices are resolved against its own pool. -/
structure Represents (file : ClassFile) (outline : Outline) : Prop where
  /-- The class has its name. -/
  name : file.name = .ok outline.name
  /-- The super class has its name. -/
  superName : file.superName = .ok (some outline.superName)
  /-- The interfaces have their names, in order. -/
  interfaces : List.Forall₂ (fun index name => file.constants.className index = .ok name)
    file.interfaces outline.interfaces
  /-- The fields are those of the outline, in order. -/
  fields : List.Forall₂ (fun field outline => outline.Fits file.constants field)
    file.fields outline.fields
  /-- The methods are those of the outline, in order. -/
  methods : List.Forall₂ (fun method outline => outline.Fits file.constants method)
    file.methods outline.methods
  /-- The only attribute is that for the source file, if there is one. -/
  sourceFile : HasSourceFile file.constants file.attributes outline.sourceFile

/-- The version and the access flags are no part of an outline. -/
theorem Represents.withHeader (h : file.Represents outline) (version : Version)
    (flags : AccessFlags .type) :
    ({ file with version, flags } : ClassFile).Represents outline where
  name := h.name
  superName := h.superName
  interfaces := h.interfaces
  fields := h.fields
  methods := h.methods
  sourceFile := h.sourceFile

/-- A class file stays what an outline says when its pool is extended. -/
theorem Represents.extends (h : file.Represents outline) {pool : ConstantPool}
    (hextends : Extends file.constants pool) :
    ({ file with constants := pool } : ClassFile).Represents outline where
  name := hextends.className h.name
  superName := by
    obtain ⟨index, hindex, hname⟩ := superName_eq_ok_some_iff.mp h.superName
    exact superName_eq_ok_some_iff.mpr ⟨index, hindex, hextends.className hname⟩
  interfaces := h.interfaces.imp fun _ _ => hextends.className
  fields := h.fields.imp fun _ _ hfits => hfits.extends hextends
  methods := h.methods.imp fun _ _ hfits => hfits.extends hextends
  sourceFile := h.sourceFile.extends hextends

end ClassFile

end JavaClass
