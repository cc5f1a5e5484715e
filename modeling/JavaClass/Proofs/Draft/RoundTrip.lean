import JavaClass.Proofs.ClassFile.WellFormed
import JavaClass.Proofs.Draft.ClassDraft

/-!
# Classes that were built are read back

Whatever calls are made on a new class, the class that is built is well-formed: its indices point at
constants of the kinds that they are used for, its attributes have the names of their kinds, and its
code starts at offset 0. So it is read back from its bytes.

- `PoolDraft.Consistent.canonical`: the pool of a draft holds constants that can be read.
- `ClassDraft.HasSoundBodies`, `MethodDraft.HasSoundBody`: what drafts keep of the bodies of
  methods.
- `ClassDraft.Valid.wellFormed_build`: drafts that keep it are built into well-formed classes.
- `ClassDraft.ofBytes_toBytes_build`: a class that was built and written is read back.
-/

namespace JavaClass

open ConstantPool (Extends)
open PoolDraft (Adding Yields)

/-! ## Parts of classes that were built -/

/-- The pool of a consistent draft holds no string of units: no table would find it. -/
theorem PoolDraft.Consistent.canonical {draft : PoolDraft} (h : draft.Consistent) :
    draft.pool.Canonical := by
  refine ⟨h.reachable, fun constant hmem => ?_⟩
  cases constant with
  | utf16 units => exact absurd hmem (h.not_mem_utf16 units)
  | _ => trivial

/-- What every pair of two lists says about its first part is true of the first list. -/
theorem forall_mem_of_forall₂ {α β : Type} {R : α → β → Prop} {P : α → Prop} {first : List α}
    {second : List β} (h : List.Forall₂ R first second) (himp : ∀ a b, R a b → P a) :
    ∀ a ∈ first, P a :=
  ((List.forall₂_and_left _ _).mp (h.imp fun a b hab => ⟨himp a b hab, hab⟩)).1

/-- A class with a name is one. -/
theorem ConstantPool.isClass_of_className {pool : ConstantPool} {index : ConstantIndex}
    {name : String} (h : pool.className index = .ok name) : pool.IsClass index := by
  obtain ⟨nameIndex, hget, -⟩ := className_eq_ok_iff.mp h
  exact ⟨nameIndex, hget⟩

/-- A member with a name and a descriptor has strings at their indices. -/
theorem MemberOutline.Fits.isNamed {declaration : Declaration} {outline : MemberOutline declaration}
    {pool : ConstantPool} {member : Member declaration} (h : outline.Fits pool member) :
    member.IsNamed pool :=
  ⟨ConstantPool.isString_of_text h.name, ConstantPool.isString_of_text h.descriptor⟩

/-- The attribute for the value of a field is well-formed. -/
theorem FieldOutline.HasValue.wellFormed {pool : ConstantPool} {attributes : List Attribute}
    {value : Option ConstantIndex} (h : HasValue pool attributes value) :
    ∀ attr ∈ attributes, attr.WellFormed pool := by
  cases value with
  | none =>
    obtain rfl : attributes = [] := h
    exact List.forall_mem_nil _
  | some value =>
    obtain ⟨name, hname, rfl⟩ := h
    exact List.forall_mem_singleton.mpr
      (Attribute.wellFormed_of_not_code (by simp) ⟨hname, trivial⟩)

/-- The attribute for the source file of a class is well-formed. -/
theorem ClassFile.HasSourceFile.wellFormed {pool : ConstantPool} {attributes : List Attribute}
    {sourceFile : Option String} (h : HasSourceFile pool attributes sourceFile) :
    ∀ attr ∈ attributes, attr.WellFormed pool := by
  cases sourceFile with
  | none =>
    obtain rfl : attributes = [] := h
    exact List.forall_mem_nil _
  | some source =>
    obtain ⟨name, file, hname, hfile, rfl⟩ := h
    exact List.forall_mem_singleton.mpr (Attribute.wellFormed_of_not_code (by simp)
      ⟨hname, ConstantPool.isString_of_text hfile⟩)

/-! ## Attributes under an extended pool -/

/-- A string stays one when a pool is extended. -/
theorem ConstantPool.Extends.isString {before after : ConstantPool} (h : Extends before after)
    {index : ConstantIndex} (hstring : before.IsString index) : after.IsString index := by
  rcases hstring with ⟨text, hget⟩ | ⟨units, hget⟩
  · exact .inl ⟨text, h hget⟩
  · exact .inr ⟨units, h hget⟩

/-- A well-formed attribute stays so when a pool is extended. -/
theorem Attribute.WellFormed.extends {before after : ConstantPool} {attr : Attribute}
    (h : attr.WellFormed before) (hextends : Extends before after) : attr.WellFormed after := by
  intro found hoccurs
  obtain ⟨hname, hcontents⟩ := h found hoccurs
  refine ⟨hextends.text hname, ?_⟩
  cases found with
  | sourceFile name file => exact hextends.isString hcontents
  | code body attributes => exact hcontents
  | constantValue name value => trivial
  | lineNumberTable name lines => trivial

/-! ## Bodies of methods -/

namespace ClassDraft

variable {draft : ClassDraft}

/-- The constants of a draft are consistent, and the attributes of its methods are well-formed. -/
structure HasSoundBodies (draft : ClassDraft) : Prop where
  consistent : draft.constants.Consistent
  bodies : ∀ method ∈ draft.file.methods, ∀ attr ∈ method.attributes,
    attr.WellFormed draft.constants.pool

namespace HasSoundBodies

/-- What leaves the methods alone keeps their bodies. -/
theorem of_methods_eq (h : draft.HasSoundBodies) {file : ClassFile}
    (hmethods : file.methods = draft.file.methods) :
    ({ draft with file } : ClassDraft).HasSoundBodies :=
  ⟨h.consistent, hmethods ▸ h.bodies⟩

/-- Adding constants keeps the bodies, be it successful or not. -/
theorem of_yields (h : draft.HasSoundBodies) {α : Type} {operation : Adding α}
    {Means : ConstantPool → α → Prop} (hyields : Yields operation Means) :
    ({ draft with constants := (draft.constants.run operation).2 } :
      ClassDraft).HasSoundBodies := by
  obtain ⟨hconsistent, hextends, -⟩ := hyields draft.constants h.consistent
  exact ⟨hconsistent, fun method hmethod attr hattr =>
    (h.bodies method hmethod attr hattr).extends hextends⟩

/-- A change of the class file that leaves the methods alone keeps their bodies, once constants have
been added. -/
theorem editing (h : draft.HasSoundBodies) {α : Type} {operation : Adding α}
    {Means : ConstantPool → α → Prop} (hyields : Yields operation Means)
    {change : α → ClassFile → ClassFile}
    (hchange : ∀ value file, (change value file).methods = file.methods) :
    (draft.run (ClassDraft.editing operation change)).2.HasSoundBodies := by
  have hadded := h.of_yields hyields
  rw [run_editing]
  rcases hrun : draft.constants.run operation with ⟨cause | value, constants⟩
  · rw [hrun] at hadded
    exact hadded
  · rw [hrun] at hadded
    exact hadded.of_methods_eq (hchange value draft.file)

end HasSoundBodies

end ClassDraft

namespace MethodDraft

variable {draft : MethodDraft}

/-- The methods of the class have sound bodies. The method itself has none yet, and the name for one
is at its index. -/
structure HasSoundBody (draft : MethodDraft) : Prop where
  owner : draft.owner.HasSoundBodies
  attributes : draft.method.attributes = []
  codeName : draft.owner.constants.pool.text draft.codeName = .ok Attribute.codeName

/-- A body has the name of its attribute, code from offset 0 on, and no handlers. -/
theorem hasSoundContents_of_body {body : MethodBody} (h : draft.body = .ok body) :
    body.name = draft.codeName ∧ body.instructions.FilledFrom 0 ∧ body.handlers = [] := by
  unfold MethodDraft.body at h
  dsimp only at h
  split at h
  · cases h
  split at h
  · cases h
  · cases h
    exact ⟨rfl, .append .startingAt _, rfl⟩

/-- A method that was entered has no body yet; if it could not be entered, the class keeps its
bodies. -/
theorem hasSoundBody_of_enter {owner : ClassDraft} (h : owner.HasSoundBodies) (name : String)
    (type : JavaType) (flags : AccessFlags .method) :
    match enter owner name type flags with
    | .ok draft => draft.HasSoundBody
    | .error (_, owner) => owner.HasSoundBodies := by
  have hyields := yields_entering name type flags
  have howner := h.of_yields hyields
  have hmeans := (hyields owner.constants h.consistent).2.2
  rw [enter, ClassDraft.run_adding]
  rcases hrun : owner.constants.run (entering name type flags) with ⟨cause | entered, constants⟩
  · rw [hrun] at howner
    exact howner
  · rw [hrun] at howner hmeans
    obtain ⟨-, hattributes, hcodeName⟩ := hmeans entered rfl
    exact ⟨howner, hattributes, hcodeName⟩

/-- Every call on a method keeps the bodies of its class. -/
theorem HasSoundBody.perform (h : draft.HasSoundBody) (call : Call) :
    (draft.perform call).HasSoundBody := by
  -- A call adds a constant to the class, or it leaves both the class and the method as they are.
  rcases draft.perform_cases call with ⟨addition, heq⟩ | ⟨howner, hmethod, hcodeName⟩
  · have hextends := (addition.yields draft.owner.constants h.owner.consistent).2.1
    rw [heq]
    exact ⟨h.owner.of_yields addition.yields, h.attributes, hextends.text h.codeName⟩
  · exact ⟨howner ▸ h.owner, hmethod ▸ h.attributes, howner ▸ hcodeName ▸ h.codeName⟩

/-- A method that is left has a sound body or none. -/
theorem HasSoundBody.leave (h : draft.HasSoundBody) : draft.leave.2.HasSoundBodies := by
  rw [MethodDraft.leave]
  cases hbody : draft.body with
  | error cause => exact h.owner
  | ok body =>
    obtain ⟨hname, hfilled, hhandlers⟩ := hasSoundContents_of_body hbody
    -- The method gets the body as its only attribute, or it has none.
    have hmethod : ∀ attr ∈ (if draft.method.flags.intersects .bodiless then draft.method
        else { draft.method with
          attributes := draft.method.attributes ++ [.code body []] }).attributes,
        attr.WellFormed draft.owner.constants.pool := by
      rw [h.attributes]
      split
      · rw [h.attributes]
        exact List.forall_mem_nil _
      · refine List.forall_mem_singleton.mpr (Attribute.wellFormed_code_iff.mpr ⟨⟨?_, ?_⟩, ?_⟩)
        · exact (congrArg _ hname).trans h.codeName
        · exact ⟨hfilled, hhandlers ▸ List.forall_mem_nil _⟩
        · exact List.forall_mem_nil _
    exact ⟨h.owner.consistent,
      List.forall_mem_append.mpr ⟨h.owner.bodies, List.forall_mem_singleton.mpr hmethod⟩⟩

/-- A method that is entered and ended keeps the bodies of its class. -/
theorem hasSoundBodies_finish {owner : ClassDraft} (h : owner.HasSoundBodies) (name : String)
    (type : JavaType) (flags : AccessFlags .method) (calls : List Call) (ending : Ending) :
    (finish (enter owner name type flags) calls ending).2.HasSoundBodies := by
  have hentered := hasSoundBody_of_enter h name type flags
  cases henter : enter owner name type flags with
  | error refused =>
    rw [henter] at hentered
    exact hentered
  | ok draft =>
    rw [henter] at hentered
    have hcalls := performAll_induction (motive := HasSoundBody)
      (fun draft call hdraft => hdraft.perform call) hentered calls
    cases ending with
    | leave => exact hcalls.leave
    | drop => exact hcalls.owner

end MethodDraft

/-! ## Runs of calls -/

namespace ClassDraft

variable {draft : ClassDraft} {outline : Outline}

/-- Every call keeps the bodies of methods sound. -/
theorem HasSoundBodies.perform (h : draft.HasSoundBodies) (call : Call) :
    (draft.perform call).2.HasSoundBodies := by
  cases call with
  | setVersion version => exact h.of_methods_eq rfl
  | setFlags flags => exact h.of_methods_eq rfl
  | addFlags flags => exact h.of_methods_eq rfl
  | setSuperClass name => exact h.editing (PoolDraft.yields_addClass name) fun _ _ => rfl
  | addInterface name =>
    refine h.editing (PoolDraft.yields_addClass name) fun index file => ?_
    split <;> rfl
  | setSourceFile source =>
    rw [ClassDraft.perform, setSourceFile_eq_editing]
    exact h.editing (yields_sourceParts source) fun _ _ => rfl
  | add addition =>
    have hadded := h.of_yields addition.yields
    rw [ClassDraft.perform, run_bind, run_adding]
    rcases hrun : draft.constants.run addition.adding with ⟨cause | index, constants⟩
    · rw [hrun] at hadded
      exact hadded
    · rw [hrun] at hadded
      exact hadded
  | declareField name type flags value =>
    rw [ClassDraft.perform]
    by_cases htype : type.isElement
    · rw [declareField_eq_editing name htype]
      exact h.editing (yields_fieldParts name type flags value) fun _ _ => rfl
    · rw [declareField_eq_throw name htype]
      exact h
  | method name type flags calls ending =>
    exact MethodDraft.hasSoundBodies_finish h name type flags calls ending
  | constructor type flags calls ending =>
    exact MethodDraft.hasSoundBodies_finish h MethodDraft.constructorName type flags calls ending

/-- Every run of calls does. -/
theorem HasSoundBodies.performAll (h : draft.HasSoundBodies) (calls : List Call) :
    (draft.performAll calls).2.HasSoundBodies := by
  induction calls generalizing draft with
  | nil => exact h
  | cons call calls ih => exact ih (h.perform call)

/-- A draft for an outline without methods has no bodies. -/
theorem Valid.hasSoundBodies (h : draft.Valid outline) (hmethods : outline.methods = []) :
    draft.HasSoundBodies := by
  have hnone := h.represents.methods
  rw [hmethods, List.forall₂_nil_right_iff] at hnone
  exact ⟨h.consistent, fun method hmethod => absurd (hnone ▸ hmethod) List.not_mem_nil⟩

/-- A draft is built into a well-formed class. -/
theorem Valid.wellFormed_build (h : draft.Valid outline) (hbodies : draft.HasSoundBodies) :
    draft.build.WellFormed := by
  have hrepresents := h.represents
  refine ClassFile.wellFormed_of_attributes ⟨h.consistent.canonical, ?_, ?_, ?_⟩ ?_ ?_ ?_
  · exact ConstantPool.isClass_of_className hrepresents.name
  · intro index hindex
    -- A super class at index 0 would be read as none, but no constant is there.
    obtain ⟨found, hfound, hname⟩ := ClassFile.superName_eq_ok_some_iff.mp hrepresents.superName
    obtain rfl := Option.some.inj (hfound.symm.trans hindex)
    have hclass := ConstantPool.isClass_of_className hname
    exact ⟨fun hzero => h.consistent.reachable.not_isClass_zero (hzero ▸ hclass), hclass⟩
  · exact forall_mem_of_forall₂ hrepresents.interfaces fun _ _ => ConstantPool.isClass_of_className
  · exact forall_mem_of_forall₂ hrepresents.fields fun _ _ hfits => hfits.member.isNamed
  · exact forall_mem_of_forall₂ hrepresents.methods fun _ _ hfits => hfits.isNamed
  · rintro attr (⟨field, hfield, hattr⟩ | ⟨method, hmethod, hattr⟩ | hattr)
    · exact forall_mem_of_forall₂ hrepresents.fields
        (fun _ _ hfits => hfits.value.wellFormed) field hfield attr hattr
    · exact hbodies.bodies method hmethod attr hattr
    · exact hrepresents.sourceFile.wellFormed attr hattr

/-- Whatever calls are made on a new class, in any order and whether they succeed or fail, the class
that is built is read back from its bytes, if it can be written. Nothing is reported and nothing is
left, and the class that was read is written as the same bytes. -/
theorem ofBytes_toBytes_build (name : String) :
    ∃ draft, openClass name = .ok draft ∧ ∀ (calls : List Call) (bytes : Bytes),
      (draft.performAll calls).2.build.toBytes = .ok bytes →
        ∃ file, ClassFile.ofBytes bytes = ⟨[], .ok (file, [])⟩ ∧
          file = (draft.performAll calls).2.build ∧ file.toBytes = .ok bytes := by
  obtain ⟨draft, hopen, hvalid⟩ := exists_openClass name
  refine ⟨draft, hopen, fun calls bytes hwrite => ⟨_, ?_, rfl, hwrite⟩⟩
  have hwell := (hvalid.performAll calls).wellFormed_build
    ((hvalid.hasSoundBodies rfl).performAll calls)
  have hread := hwell.reads_read_of_toBytes hwrite []
  rwa [List.append_nil] at hread

/-- Calls that add a method which does nothing. -/
def addingEmptyMethod : List Call :=
  [.method "run" (.method (.primitive .void) []) ⟨0x0009⟩
    [.pushInstruction ClassFile.returnFromMethod] .leave]

/-- For instance, a class with a method that does nothing. -/
theorem ofBytes_toBytes_build_emptyMethod :
    ∃ draft bytes, openClass "Main" = .ok draft ∧
      (draft.performAll addingEmptyMethod).2.build.toBytes = .ok bytes ∧
      ∃ file, ClassFile.ofBytes bytes = ⟨[], .ok (file, [])⟩ ∧
        file = (draft.performAll addingEmptyMethod).2.build ∧ file.toBytes = .ok bytes := by
  obtain ⟨draft, hopen, hread⟩ := ofBytes_toBytes_build "Main"
  obtain ⟨bytes, hwrite⟩ :
      ∃ bytes, (draft.performAll addingEmptyMethod).2.build.toBytes = .ok bytes := by
    have hopened := hopen
    have hdescriptor : (JavaType.method (.primitive .void) []).render = "()V" := by decide
    -- Four constants are added for the class, and three for its method.
    simp [openClass, PoolDraft.addClass, PoolDraft.addUtf8, PoolDraft.run_bind,
      PoolDraft.run_findOrAdd, PoolDraft.Table.utf8s, PoolDraft.Table.classes, PoolDraft.empty,
      ConstantPool.empty, ConstantPool.push_eq, ConstantPool.next, ConstantPool.limit,
      OffsetArray.startingAt, OffsetArray.push, width, Except.map, defaultSuperClass,
      -bind_pure_comp] at hopened
    subst hopened
    simp [addingEmptyMethod, performAll, perform, MethodDraft.enter, MethodDraft.entering,
      PoolDraft.expectMethod, JavaType.isMethod, JavaType.arguments, hdescriptor,
      Attribute.codeName, PoolDraft.addUtf8, PoolDraft.run_bind, PoolDraft.run_findOrAdd,
      PoolDraft.Table.utf8s, ConstantPool.push_eq, ConstantPool.next, ConstantPool.limit,
      OffsetArray.push, width, -adding_bind, -bind_pure_comp]
    exact ⟨_, rfl⟩
  exact ⟨draft, bytes, hopen, hwrite, hread addingEmptyMethod bytes hwrite⟩

end ClassDraft

end JavaClass
