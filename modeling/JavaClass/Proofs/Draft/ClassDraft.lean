import JavaClass.Proofs.Draft.Outline

/-!
# Drafts of classes hold what was said

Whatever calls are made on a new class, whether they succeed or fail, the class that is built is
what the calls that succeeded say, name by name.

- `ClassDraft.Valid`, `MethodDraft.Valid`: the invariants of drafts.
- `ClassDraft.Leads`: a call that succeeds leaves a draft for another outline, and one that fails a
  draft for the same.
- `ClassDraft.Valid.editing`: the step that most calls consist of. `ClassDraft.Valid.perform`: every
  call does what it says.
- `ClassDraft.represents_build`: what a run of calls builds.
-/

namespace JavaClass

open ConstantPool (Extends)
open PoolDraft (Adding Yields)

/-- Indices of classes and names of classes determine each other in the pool of a draft. -/
theorem PoolDraft.Consistent.biUnique_className {draft : PoolDraft} (h : draft.Consistent) :
    Relator.BiUnique fun index name => draft.pool.className index = .ok name := by
  constructor
  · intro first second name hfirst hsecond
    exact h.reachable.class_index_unique h.nodup hfirst hsecond
  · intro index first second hfirst hsecond
    exact Except.ok.inj (hfirst.symm.trans hsecond)

namespace ClassDraft

variable {draft : ClassDraft} {outline next : Outline}

/-- The constants of a draft are consistent, and the class that it is built into is what an outline
says. -/
structure Valid (draft : ClassDraft) (outline : Outline) : Prop where
  /-- The constants are those of a consistent draft. -/
  consistent : draft.constants.Consistent
  /-- The class file is what the outline says. -/
  represents : draft.build.Represents outline

/-- A call that succeeds leaves a draft for the next outline, one that fails a draft for the outline
before. -/
def Leads (before next : Outline) : Except Error Unit × ClassDraft → Prop
  | (.ok _, draft) => draft.Valid next
  | (.error _, draft) => draft.Valid before

/-! ## Parts of classes -/

/-- What is added for a source file are the name of the attribute and that of the file. -/
theorem yields_sourceParts (source : String) :
    Yields (sourceParts source) fun pool parts =>
      pool.text parts.1 = .ok Attribute.sourceFileName ∧ pool.text parts.2 = .ok source := by
  refine (Yields.bind (PoolDraft.yields_addUtf8 _) (PoolDraft.lasting_text _) fun name =>
    .bind (PoolDraft.yields_addUtf8 source) (PoolDraft.lasting_text source) fun file =>
      .pure (name, file)).imp ?_
  rintro pool parts ⟨name, hname, file, hfile, rfl⟩
  exact ⟨hname, hfile⟩

/-- The attributes that are added for a field say its value. -/
theorem yields_valueAttributes (value : Option ConstantIndex) :
    Yields (valueAttributes value) fun pool attributes =>
      FieldOutline.HasValue pool attributes value := by
  cases value with
  | none => exact .pure []
  | some value =>
    refine (Yields.bind (PoolDraft.yields_addUtf8 _) (PoolDraft.lasting_text _) fun name =>
      .pure [Attribute.constantValue name value]).imp ?_
    exact fun pool attributes h => h

/-- What is added for a field is what was said about it. -/
theorem yields_fieldParts (name : String) (type : JavaType) (flags : AccessFlags .field)
    (value : Option ConstantIndex) :
    Yields (fieldParts name type flags value) fun pool field =>
      FieldOutline.Fits { flags, name, descriptor := type.render, value } pool field := by
  refine (Yields.bind (PoolDraft.yields_addUtf8 name) (PoolDraft.lasting_text name)
    fun nameIndex => .bind (PoolDraft.yields_addUtf8 type.render) (PoolDraft.lasting_text _)
      fun descriptor => .bind (yields_valueAttributes value)
        (fun _ _ hextends _ hvalue => hvalue.extends hextends) fun attributes => .pure _).imp ?_
  rintro pool field ⟨nameIndex, hname, descriptor, hdescriptor, attributes, hattributes, rfl⟩
  exact ⟨⟨rfl, hname, hdescriptor⟩, hattributes⟩

/-! ## Calls on a class -/

namespace Valid

/-- Adding constants leaves a draft for the same outline, be it successful or not. -/
theorem of_yields (h : draft.Valid outline) {α : Type} {operation : Adding α}
    {Means : ConstantPool → α → Prop} (hyields : Yields operation Means) :
    ({ draft with constants := (draft.constants.run operation).2 } : ClassDraft).Valid outline := by
  obtain ⟨hconsistent, hextends, -⟩ := hyields draft.constants h.consistent
  exact ⟨hconsistent, h.represents.extends hextends⟩

/-- A change of the class file that makes it what another outline says, once constants have been
added, leads to that outline. -/
theorem editing (h : draft.Valid outline) {α : Type} {operation : Adding α}
    {Means : ConstantPool → α → Prop} (hyields : Yields operation Means)
    {change : α → ClassFile → ClassFile}
    (hchange : ∀ {draft : ClassDraft}, draft.Valid outline → ∀ {value},
      Means draft.constants.pool value →
        ({ draft with file := change value draft.file } : ClassDraft).build.Represents next) :
    Leads outline next (draft.run (ClassDraft.editing operation change)) := by
  -- The constants that were added before a failure change nothing about the class file.
  have hvalid := h.of_yields hyields
  have hmeans := (hyields draft.constants h.consistent).2.2
  rw [run_editing]
  rcases hrun : draft.constants.run operation with ⟨cause | value, constants⟩
  · rw [hrun] at hvalid
    exact hvalid
  · rw [hrun] at hvalid hmeans
    exact ⟨hvalid.consistent, hchange hvalid (hmeans value rfl)⟩

/-- Where the name of its attribute is, there is no attribute left of a source file. -/
theorem remove_eq_nil (h : draft.Valid outline) {name : ConstantIndex}
    (hname : draft.constants.pool.text name = .ok Attribute.sourceFileName) :
    Attribute.remove draft.file.attributes name = [] := by
  have hsource := h.represents.sourceFile
  cases hfile : outline.sourceFile with
  | none =>
    rw [hfile] at hsource
    have hattributes : draft.file.attributes = [] := hsource
    rw [hattributes]
    rfl
  | some source =>
    rw [hfile] at hsource
    obtain ⟨found, file, hfound, -, hattributes⟩ := hsource
    -- The attribute that is there has its name at the only index of that text.
    have hindex : found = name :=
      h.consistent.reachable.text_index_unique h.consistent.nodup hfound hname
    have hattributes : draft.file.attributes = [.sourceFile found file] := hattributes
    rw [hattributes, hindex]
    simp [Attribute.remove, Attribute.name]

/-- Setting the super class leads to an outline with that super class. -/
theorem setSuperClass (h : draft.Valid outline) (name : String) :
    Leads outline (outline.after (.setSuperClass name)) (draft.run (setSuperClass name)) := by
  refine h.editing (PoolDraft.yields_addClass name) fun {draft} hdraft {index} hindex => ?_
  exact { hdraft.represents with
    superName := ClassFile.superName_eq_ok_some_iff.mpr ⟨index, rfl, hindex⟩ }

/-- Adding an interface leads to an outline with that interface. -/
theorem addInterface (h : draft.Valid outline) (name : String) :
    Leads outline (outline.after (.addInterface name)) (draft.run (addInterface name)) := by
  refine h.editing (PoolDraft.yields_addClass name) fun {draft} hdraft {index} hindex => ?_
  -- The index is among those of the interfaces exactly if the name is among their names.
  have hmem : index ∈ draft.file.interfaces ↔ name ∈ outline.interfaces :=
    List.rel_mem hdraft.consistent.biUnique_className hindex hdraft.represents.interfaces
  by_cases hname : name ∈ outline.interfaces
  · rw [Outline.after, if_pos hname, if_pos (List.contains_iff_mem.mpr (hmem.mpr hname))]
    exact hdraft.represents
  · rw [Outline.after, if_neg hname, if_neg (mt List.contains_iff_mem.mp (mt hmem.mp hname))]
    exact { hdraft.represents with
      interfaces := List.rel_append hdraft.represents.interfaces (.cons hindex .nil) }

/-- Setting the source file leads to an outline with that file, in place of any other. -/
theorem setSourceFile (h : draft.Valid outline) (source : String) :
    Leads outline (outline.after (.setSourceFile source)) (draft.run (setSourceFile source)) := by
  rw [setSourceFile_eq_editing]
  refine h.editing (yields_sourceParts source) fun {draft} hdraft {parts} ⟨hname, hsource⟩ => ?_
  have hremove : Attribute.remove draft.file.attributes parts.1 = [] :=
    hdraft.remove_eq_nil hname
  have hattributes : Attribute.remove draft.file.attributes parts.1 ++
      [.sourceFile parts.1 parts.2] = [.sourceFile parts.1 parts.2] := by
    rw [hremove, List.nil_append]
  exact { hdraft.represents with sourceFile := ⟨parts.1, parts.2, hname, hsource, hattributes⟩ }

/-- Declaring a field leads to an outline with one more field. -/
theorem declareField (h : draft.Valid outline) (name : String) (type : JavaType)
    (flags : AccessFlags .field) (value : Option ConstantIndex) :
    Leads outline (outline.after (.declareField name type flags value))
      (draft.run (declareField name type flags value)) := by
  by_cases htype : type.isElement
  · rw [declareField_eq_editing name htype]
    refine h.editing (yields_fieldParts name type flags value)
      fun {draft} hdraft {field} hfits => ?_
    exact { hdraft.represents with
      fields := List.rel_append hdraft.represents.fields (.cons hfits .nil) }
  · -- A refused field leaves the draft as it was.
    rw [declareField_eq_throw name htype]
    exact h

end Valid

end ClassDraft

/-! ## Methods -/

namespace MethodDraft

open ClassDraft (Leads)

variable {draft : MethodDraft} {outline : Outline} {member : MemberOutline .method}

/-- The class of a method is what an outline says, and the method is what was said about it. -/
structure Valid (draft : MethodDraft) (outline : Outline) (member : MemberOutline .method) :
    Prop where
  /-- The class is what the outline says. -/
  owner : draft.owner.Valid outline
  /-- The method has its flags, its name and its descriptor. -/
  method : member.Fits draft.owner.constants.pool draft.method

/-- What is added for a method is what was said about it, with no body yet, and the name of the
attribute that holds a body. -/
theorem yields_entering (name : String) (type : JavaType) (flags : AccessFlags .method) :
    Yields (entering name type flags) fun pool entered =>
      MemberOutline.Fits { flags, name, descriptor := type.render } pool entered.1 ∧
        entered.1.attributes = [] ∧ pool.text entered.2.1 = .ok Attribute.codeName := by
  refine .bind_lift ?_
  dsimp only
  split
  · exact .throw_bind _ _
  · refine (Yields.bind (PoolDraft.yields_addUtf8 name) (PoolDraft.lasting_text name)
      fun nameIndex => .bind (PoolDraft.yields_addUtf8 type.render) (PoolDraft.lasting_text _)
        fun descriptor => .bind (PoolDraft.yields_addUtf8 _) (PoolDraft.lasting_text _)
          fun codeName => .pure _).imp ?_
    rintro pool entered ⟨nameIndex, hname, descriptor, hdescriptor, codeName, hcodeName, rfl⟩
    exact ⟨⟨rfl, hname, hdescriptor⟩, rfl, hcodeName⟩

/-- A method that was entered is valid; if it could not be, the class still is. -/
theorem valid_of_enter {owner : ClassDraft} (h : owner.Valid outline) (name : String)
    (type : JavaType) (flags : AccessFlags .method) :
    match enter owner name type flags with
    | .ok draft => draft.Valid outline { flags, name, descriptor := type.render }
    | .error (_, owner) => owner.Valid outline := by
  have hyields := yields_entering name type flags
  have howner := h.of_yields hyields
  have hmeans := (hyields owner.constants h.consistent).2.2
  rw [enter, ClassDraft.run_adding]
  rcases hrun : owner.constants.run (entering name type flags) with ⟨cause | entered, constants⟩
  · rw [hrun] at howner
    exact howner
  · rw [hrun] at howner hmeans
    exact ⟨howner, (hmeans entered rfl).1⟩

/-- Every call on a method leaves the method and its class what they are. -/
theorem Valid.perform (h : draft.Valid outline member) (call : Call) :
    (draft.perform call).Valid outline member := by
  rcases draft.perform_cases call with ⟨addition, heq⟩ | ⟨howner, hmethod, -⟩
  · have hextends := (addition.yields draft.owner.constants h.owner.consistent).2.1
    rw [heq]
    exact ⟨h.owner.of_yields addition.yields, h.method.extends hextends⟩
  · exact ⟨howner ▸ h.owner, howner ▸ hmethod ▸ h.method⟩

/-- A method that is left is added to its class, unless its body is too large. -/
theorem Valid.leave (h : draft.Valid outline member) :
    Leads outline { outline with methods := outline.methods ++ [member] } draft.leave := by
  rw [MethodDraft.leave]
  cases draft.body with
  | error cause => exact h.owner
  | ok body =>
    -- With a body or without one, the method is the one that was entered.
    have hmethod : member.Fits draft.owner.constants.pool
        (if draft.method.flags.intersects .bodiless then draft.method
          else { draft.method with attributes := draft.method.attributes ++ [.code body []] }) := by
      split
      · exact h.method
      · exact h.method.withAttributes _
    exact ⟨h.owner.consistent, { h.owner.represents with
      methods := List.rel_append h.owner.represents.methods (.cons hmethod .nil) }⟩

/-- A method that is entered and ended is added to its class if it is left successfully. -/
theorem leads_finish {owner : ClassDraft} (h : owner.Valid outline) (name : String)
    (type : JavaType) (flags : AccessFlags .method) (calls : List Call) :
    Leads outline
        { outline with methods := outline.methods ++ [{ flags, name, descriptor := type.render }] }
        (finish (enter owner name type flags) calls .leave) ∧
      Leads outline outline (finish (enter owner name type flags) calls .drop) := by
  have hvalid := valid_of_enter h name type flags
  cases hentered : enter owner name type flags with
  | error refused =>
    rw [hentered] at hvalid
    exact ⟨hvalid, hvalid⟩
  | ok draft =>
    rw [hentered] at hvalid
    -- No call on the method changes what it is or what its class says.
    have hcalls := performAll_induction
      (motive := fun draft => draft.Valid outline { flags, name, descriptor := type.render })
      (fun draft call hdraft => hdraft.perform call) hvalid calls
    exact ⟨hcalls.leave, hcalls.owner⟩

end MethodDraft

/-! ## Runs of calls -/

namespace ClassDraft

variable {draft : ClassDraft} {outline : Outline}

/-- Every call that succeeds adds to an outline what the call says, and every call that fails leaves
the outline. -/
theorem Valid.perform (h : draft.Valid outline) (call : Call) :
    Leads outline (outline.after call) (draft.perform call) := by
  cases call with
  | setVersion version => exact ⟨h.consistent, h.represents.withHeader version draft.file.flags⟩
  | setFlags flags => exact ⟨h.consistent, h.represents.withHeader draft.file.version flags⟩
  | addFlags flags =>
    exact ⟨h.consistent, h.represents.withHeader draft.file.version (draft.file.flags.union flags)⟩
  | setSuperClass name => exact h.setSuperClass name
  | addInterface name => exact h.addInterface name
  | setSourceFile source => exact h.setSourceFile source
  | add addition =>
    have hvalid := h.of_yields addition.yields
    rw [ClassDraft.perform, run_bind, run_adding]
    rcases hrun : draft.constants.run addition.adding with ⟨cause | index, constants⟩
    · rw [hrun] at hvalid
      exact hvalid
    · rw [hrun] at hvalid
      exact hvalid
  | declareField name type flags value => exact h.declareField name type flags value
  | method name type flags calls ending =>
    have hfinish := MethodDraft.leads_finish h name type flags calls
    cases ending with
    | leave => exact hfinish.1
    | drop => exact hfinish.2
  | constructor type flags calls ending =>
    have hfinish := MethodDraft.leads_finish h MethodDraft.constructorName type flags calls
    cases ending with
    | leave => exact hfinish.1
    | drop => exact hfinish.2

/-- A new class can always be opened, and nothing was said about it yet but its name. Most of its
pool is free. -/
theorem exists_openClass_next_le (name : String) :
    ∃ draft, openClass name = .ok draft ∧ draft.Valid (Outline.of name []) ∧
      draft.constants.pool.next ≤ 5 := by
  -- Two classes and their names take up four slots, for which there is room in the empty pool.
  obtain ⟨thisClass, named, hthis, hnamed, hnext⟩ :=
    PoolDraft.exists_addClass PoolDraft.consistent_empty name (by decide)
  have room : named.pool.next + 2 ≤ ConstantPool.limit :=
    Nat.le_trans (Nat.add_le_add_right hnext 2) (by decide)
  obtain ⟨superClass, constants, hsuper, hconstants, hnext'⟩ :=
    PoolDraft.exists_addClass hnamed defaultSuperClass room
  have hname : named.pool.className thisClass = .ok name := by
    have := (PoolDraft.yields_addClass name .empty PoolDraft.consistent_empty).2.2 thisClass
    rw [hthis] at this
    exact this rfl
  -- The name was added first, and still means the same when the super class has been added.
  have hsuperYields := PoolDraft.yields_addClass defaultSuperClass named hnamed
  rw [hsuper] at hsuperYields
  obtain ⟨-, hextends, hsuperName⟩ := hsuperYields
  have hopen : openClass name = .ok
      { constants
        file :=
          { version := .default, constants := .empty, flags := .opened, thisClass,
            superClass := some superClass } } := by
    rw [openClass, PoolDraft.run_bind, hthis]
    simp only [PoolDraft.run_bind, hsuper, PoolDraft.run_pure]
    rfl
  refine ⟨_, hopen, ⟨hconstants, ?_⟩, Nat.le_trans hnext' (Nat.add_le_add_right hnext 2)⟩
  exact
    { name := hextends.className hname
      superName := ClassFile.superName_eq_ok_some_iff.mpr ⟨superClass, rfl, hsuperName _ rfl⟩
      interfaces := .nil
      fields := .nil
      methods := .nil
      sourceFile := rfl }

/-- A new class can always be opened, and nothing was said about it yet but its name. -/
theorem exists_openClass (name : String) :
    ∃ draft, openClass name = .ok draft ∧ draft.Valid (Outline.of name []) := by
  obtain ⟨draft, hopen, hvalid, -⟩ := exists_openClass_next_le name
  exact ⟨draft, hopen, hvalid⟩

/-- A run of calls leaves a draft for the outline that the calls that succeeded say. -/
theorem Valid.performAll {name : String} (h : draft.Valid (Outline.of name []))
    (calls : List Call) :
    (draft.performAll calls).2.Valid (Outline.of name (draft.performAll calls).1) := by
  refine performAll_induction (motive := fun done draft => draft.Valid (Outline.of name done))
    ?_ h calls
  intro done draft call h
  have hleads := h.perform call
  rw [← Outline.of_append_singleton] at hleads
  rcases hperform : draft.perform call with ⟨cause | answer, next⟩
  · rw [hperform] at hleads
    exact hleads
  · rw [hperform] at hleads
    exact hleads

/-- Whatever calls are made on a new class, in any order and whether they succeed or fail, the class
that is built is what the calls that succeeded say. -/
theorem represents_build (name : String) :
    ∃ draft, openClass name = .ok draft ∧ ∀ calls : List Call,
      (draft.performAll calls).2.build.Represents
        (Outline.of name (draft.performAll calls).1) := by
  obtain ⟨draft, hopen, hvalid⟩ := exists_openClass name
  exact ⟨draft, hopen, fun calls => (hvalid.performAll calls).represents⟩

end ClassDraft

end JavaClass
