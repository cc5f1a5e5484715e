import JavaClass.Proofs.Draft.Meaning

/-!
# References between added constants

The tables of a draft are keyed by indices, so whether they find the right constant depends on what
the indices stand for. A constant is only added once its parts are there. So it refers to constants
before it, of the kinds that belong there, and following its indices leads back to the arguments of
the call that added it. As no two constants of a draft are equal, no two indices lead to the same
arguments.

- `ConstantPool.IsAcyclic`: every constant refers to earlier ones, of the right kinds.
- `PoolDraft.KeepsAcyclic`: an operation keeps it that way, and `PoolDraft.Addition.keepsAcyclic`:
  every call does, whether it succeeds or not.
- `PoolDraft.Meaning`: the kind of a constant and the arguments that it is made up of, and
  `PoolDraft.Denotes`: how they are found by following indices.
- `PoolDraft.internsFaithfully`: in every run of calls, references are acyclic, indices lead back to
  arguments, and equal indices stand for equal arguments.
-/

namespace JavaClass

open ConstantPool (Extends)

/-! ## References -/

/-- The indices in a constant, with the kind of constant that each of them is for. That of a method
handle is for a member of any kind, and is taken as it is given. -/
def Constant.references : Constant → List (ConstantIndex × String)
  | classRef name => [(name, "Utf8")]
  | string text => [(text, "Utf8")]
  | methodType descriptor => [(descriptor, "Utf8")]
  | nameAndType name descriptor => [(name, "Utf8"), (descriptor, "Utf8")]
  | fieldRef owner member | methodRef owner member | interfaceMethodRef owner member =>
    [(owner, "Class"), (member, "NameAndType")]
  | invokeDynamic _ member => [(member, "NameAndType")]
  | utf8 _ | utf16 _ | integer _ | float _ | long _ | double _ | methodHandle .. => []

namespace ConstantPool

variable {pool : ConstantPool} {constant : Constant} {index : ConstantIndex}

/-- There is a constant of a kind at an index. -/
def HasKind (pool : ConstantPool) (index : ConstantIndex) (kind : String) : Prop :=
  ∃ constant, pool.get index = .ok constant ∧ constant.kindName = kind

/-- A pool has everything that a constant refers to. -/
def Supports (pool : ConstantPool) (constant : Constant) : Prop :=
  ∀ reference ∈ constant.references, pool.HasKind reference.1 reference.2

/-- Every constant of a pool refers to constants before it, and these are of the kinds that its
indices are for. -/
def IsAcyclic (pool : ConstantPool) : Prop :=
  ∀ ⦃index constant⦄, pool.get index = .ok constant →
    ∀ reference ∈ constant.references,
      reference.1 < index ∧ pool.HasKind reference.1 reference.2

/-- A constant of a kind stays where it is. -/
theorem Extends.hasKind {before after : ConstantPool} (h : Extends before after) {kind : String}
    (hkind : before.HasKind index kind) : after.HasKind index kind := by
  obtain ⟨constant, hget, hkind⟩ := hkind
  exact ⟨constant, h hget, hkind⟩

theorem hasKind_of_text {text : String} (h : pool.text index = .ok text) :
    pool.HasKind index "Utf8" :=
  ⟨.utf8 text, text_eq_ok_iff.mp h, rfl⟩

theorem hasKind_of_className {name : String} (h : pool.className index = .ok name) :
    pool.HasKind index "Class" := by
  obtain ⟨nameIndex, hget, -⟩ := className_eq_ok_iff.mp h
  exact ⟨.classRef nameIndex, hget, rfl⟩

theorem hasKind_of_nameAndType {parts : String × String}
    (h : pool.nameAndType index = .ok parts) : pool.HasKind index "NameAndType" := by
  obtain ⟨nameIndex, descriptorIndex, hget, -⟩ := nameAndType_eq_ok_iff.mp h
  exact ⟨.nameAndType nameIndex descriptorIndex, hget, rfl⟩

/-- What is found in a pool stands before the next offset. -/
theorem Reachable.lt_next (h : pool.Reachable) (hget : pool.get index = .ok constant) :
    index.toNat < pool.next := by
  have hbounds := (h.filled.bounds (h.get_eq_ok_iff.mp hget)).2
  have := constant.width_pos
  unfold next
  omega

namespace IsAcyclic

theorem empty : IsAcyclic empty := by
  intro index constant hget
  exact absurd (Reachable.empty.mem_of_get hget) List.not_mem_nil

/-- A constant can be added once everything that it refers to is there. -/
theorem add (hacyclic : pool.IsAcyclic) (h : pool.Reachable) (room : pool.HasRoom constant)
    (hsupports : pool.Supports constant) : (pool.add constant).IsAcyclic := by
  intro index found hget reference hreference
  rw [h.get_add room] at hget
  split at hget
  · -- The new constant stands at the end, so all that was found before stands before it.
    obtain rfl : constant = found := Except.ok.inj hget
    obtain ⟨target, htarget, hkind⟩ := hsupports reference hreference
    have hlt := h.lt_next htarget
    subst index
    refine ⟨?_, target, Extends.add h room htarget, hkind⟩
    rwa [UInt16.lt_iff_toNat_lt, Reachable.toNat_next room]
  · obtain ⟨hlt, hkind⟩ := hacyclic hget reference hreference
    exact ⟨hlt, (Extends.add h room).hasKind hkind⟩

/-- Interning keeps references in order, whether it finds a constant, adds or refuses it. -/
theorem intern (hacyclic : pool.IsAcyclic) (h : pool.Reachable)
    (hsupports : pool.Supports constant) : (pool.intern constant).2.IsAcyclic := by
  obtain ⟨index, -, heq⟩ | ⟨-, room, heq⟩ | ⟨-, -, heq⟩ := h.intern_cases constant
  · rwa [heq]
  · rw [heq]
    exact hacyclic.add h room hsupports
  · rwa [heq]

end IsAcyclic

end ConstantPool

namespace PoolDraft

variable {α β : Type}

/-! ## Operations that keep references in order -/

/-- A fact about a pool that is not lost when the pool is extended. -/
def Stable (Given : ConstantPool → Prop) : Prop :=
  ∀ ⦃before after : ConstantPool⦄, Extends before after → Given before → Given after

/-- What is given stays so, with the meaning of one more value. -/
theorem Stable.and {Given : ConstantPool → Prop} {Means : ConstantPool → α → Prop}
    (h : Stable Given) (hlasting : Lasting Means) (value : α) :
    Stable fun pool => Given pool ∧ Means pool value :=
  fun _ _ hextends given => ⟨h hextends given.1, hlasting hextends given.2⟩

/-- An operation that is run on a consistent draft with acyclic references leaves such references.
It may rely on what is given, such as the meaning of the indices that it puts into a constant. -/
def KeepsAcyclic (Given : ConstantPool → Prop) (adding : Adding α) : Prop :=
  ∀ draft : PoolDraft, draft.Consistent → draft.pool.IsAcyclic → Given draft.pool →
    (draft.run adding).2.pool.IsAcyclic

namespace KeepsAcyclic

variable {Given : ConstantPool → Prop}

/-- A constant is found or added in order if its parts are there. -/
theorem findOrAdd {κ : Type} {table : Table κ} {make : κ → Constant} (h : table.Serves make)
    (key : κ) (hgiven : ∀ ⦃pool⦄, Given pool → pool.Supports (make key)) :
    KeepsAcyclic Given (findOrAdd table key (make key)) := by
  intro draft hdraft hacyclic given
  obtain ⟨-, heq⟩ := Refines.findOrAdd h key draft hdraft
  rw [(Prod.mk.inj heq).2]
  exact hacyclic.intern hdraft.reachable (hgiven given)

/-- A constant without parts is found or added in order. -/
theorem findOrAdd_of_nil {κ : Type} {table : Table κ} {make : κ → Constant}
    (h : table.Serves make) (key : κ) (hnil : (make key).references = []) :
    KeepsAcyclic Given (PoolDraft.findOrAdd table key (make key)) :=
  findOrAdd h key fun _ _ => by rw [ConstantPool.Supports, hnil]; exact List.forall_mem_nil _

/-- The second of two operations may rely on what the first one yields. -/
theorem bind {first : Adding α} {second : α → Adding β} {Means : ConstantPool → α → Prop}
    (hfirst : KeepsAcyclic Given first) (hyields : Yields first Means)
    (hstable : Stable Given)
    (hsecond : ∀ value, KeepsAcyclic (fun pool => Given pool ∧ Means pool value) (second value)) :
    KeepsAcyclic Given (first >>= second) := by
  intro draft hdraft hacyclic given
  have hkept := hfirst draft hdraft hacyclic given
  obtain ⟨hconsistent, hextends, hmeans⟩ := hyields draft hdraft
  rw [run_bind]
  rcases hrun : draft.run first with ⟨cause | value, next⟩
  · rwa [hrun] at hkept
  · rw [hrun] at hkept hconsistent hextends hmeans
    exact hsecond value next hconsistent hkept ⟨hstable hextends given, hmeans value rfl⟩

/-- An operation that comes after a test adds nothing if the test fails. -/
theorem bind_lift {adding : Adding α} {result : Except Error β} (h : KeepsAcyclic Given adding) :
    KeepsAcyclic Given (do let _ ← result; adding) := by
  intro draft hdraft hacyclic given
  rw [run_bind, run_liftM]
  cases result with
  | error cause => exact hacyclic
  | ok value => exact h draft hdraft hacyclic given

end KeepsAcyclic

section

variable {Given : ConstantPool → Prop}

theorem keepsAcyclic_addUtf8 (text : String) : KeepsAcyclic Given (addUtf8 text) :=
  .findOrAdd_of_nil .utf8s text rfl

theorem keepsAcyclic_addClass (hstable : Stable Given) (name : String) :
    KeepsAcyclic Given (addClass name) := by
  refine .bind (keepsAcyclic_addUtf8 name) (yields_addUtf8 name) hstable fun nameIndex => ?_
  refine .findOrAdd .classes nameIndex fun pool given => ?_
  exact List.forall_mem_singleton.mpr (ConstantPool.hasKind_of_text given.2)

theorem keepsAcyclic_addNameAndType (hstable : Stable Given) (name : String) (type : JavaType) :
    KeepsAcyclic Given (addNameAndType name type) := by
  refine .bind (keepsAcyclic_addUtf8 name) (yields_addUtf8 name) hstable fun nameIndex => ?_
  refine .bind (keepsAcyclic_addUtf8 type.render) (yields_addUtf8 type.render)
    (hstable.and (lasting_text name) nameIndex) fun descriptor => ?_
  refine .findOrAdd .nameAndTypes (nameIndex, descriptor) fun pool given => ?_
  obtain ⟨⟨-, hname⟩, hdescriptor⟩ := given
  refine List.forall_mem_cons.mpr ⟨ConstantPool.hasKind_of_text hname, ?_⟩
  exact List.forall_mem_singleton.mpr (ConstantPool.hasKind_of_text hdescriptor)

end

namespace Addition

/-- Members of all kinds refer to a class and to a name with a type. -/
theorem keepsAcyclic_member {table : Table (ConstantIndex × ConstantIndex)}
    {make : ConstantIndex → ConstantIndex → Constant}
    (h : table.Serves fun key => make key.1 key.2) (owner name : String) (type : JavaType)
    (hreferences : ∀ ownerIndex member, (make ownerIndex member).references =
      [(ownerIndex, "Class"), (member, "NameAndType")]) :
    KeepsAcyclic (fun _ => True) (do
      let owner ← addClass owner
      let member ← addNameAndType name type
      findOrAdd table (owner, member) (make owner member)) := by
  have hstable : Stable fun _ => True := fun _ _ _ => id
  refine .bind (keepsAcyclic_addClass hstable owner) (yields_addClass owner) hstable
    fun ownerIndex => ?_
  have hstable' := hstable.and (lasting_className owner) ownerIndex
  refine .bind (keepsAcyclic_addNameAndType hstable' name type) (yields_addNameAndType name type)
    hstable' fun member => ?_
  refine .findOrAdd h (ownerIndex, member) fun pool given => ?_
  obtain ⟨⟨-, howner⟩, hmember⟩ := given
  rw [ConstantPool.Supports, hreferences]
  refine List.forall_mem_cons.mpr ⟨ConstantPool.hasKind_of_className howner, ?_⟩
  exact List.forall_mem_singleton.mpr (ConstantPool.hasKind_of_nameAndType hmember)

/-- Every call keeps references acyclic, whether it succeeds or fails halfway. -/
theorem keepsAcyclic (addition : Addition) : KeepsAcyclic (fun _ => True) addition.adding := by
  have hstable : Stable fun _ => True := fun _ _ _ => id
  cases addition with
  | utf8 text => exact keepsAcyclic_addUtf8 text
  | classRef name => exact keepsAcyclic_addClass hstable name
  | string text =>
    refine .bind (keepsAcyclic_addUtf8 text) (yields_addUtf8 text) hstable fun textIndex => ?_
    refine .findOrAdd .strings textIndex fun pool given => ?_
    exact List.forall_mem_singleton.mpr (ConstantPool.hasKind_of_text given.2)
  | integer value => exact .findOrAdd_of_nil .integers value rfl
  | float bits => exact .findOrAdd_of_nil .floats bits rfl
  | long value => exact .findOrAdd_of_nil .longs value rfl
  | double bits => exact .findOrAdd_of_nil .doubles bits rfl
  | nameAndType name type => exact keepsAcyclic_addNameAndType hstable name type
  | fieldRef owner name type =>
    exact keepsAcyclic_member .fieldRefs owner name type fun _ _ => rfl
  | methodRef owner name type =>
    exact .bind_lift (keepsAcyclic_member .methodRefs owner name type fun _ _ => rfl)
  | interfaceMethodRef owner name type =>
    exact .bind_lift (keepsAcyclic_member .interfaceMethodRefs owner name type fun _ _ => rfl)
  | methodHandle kind member => exact .findOrAdd_of_nil .methodHandles (kind, member) rfl
  | methodType type =>
    refine .bind_lift (.bind (keepsAcyclic_addUtf8 type.render) (yields_addUtf8 type.render)
      hstable fun descriptor => ?_)
    refine .findOrAdd .methodTypes descriptor fun pool given => ?_
    exact List.forall_mem_singleton.mpr (ConstantPool.hasKind_of_text given.2)
  | invokeDynamic bootstrapMethod name type =>
    refine .bind_lift (.bind (keepsAcyclic_addNameAndType hstable name type)
      (yields_addNameAndType name type) hstable fun member => ?_)
    refine .findOrAdd .invokeDynamics (bootstrapMethod, member) fun pool given => ?_
    exact List.forall_mem_singleton.mpr (ConstantPool.hasKind_of_nameAndType given.2)

end Addition

/-! ## Arguments, found again -/

/-- The kind of a constant with the arguments that it is made up of. Types are told by their
descriptors, and the member of a method handle by its index. -/
inductive Meaning where
  | utf8 (text : String)
  | classRef (name : String)
  | string (text : String)
  | integer (value : Int32)
  | float (bits : UInt32)
  | long (value : Int64)
  | double (bits : UInt64)
  | nameAndType (name descriptor : String)
  | fieldRef (owner name descriptor : String)
  | methodRef (owner name descriptor : String)
  | interfaceMethodRef (owner name descriptor : String)
  | methodHandle (kind : ReferenceKind) (member : ConstantIndex)
  | methodType (descriptor : String)
  | invokeDynamic (bootstrapMethod : UInt16) (name descriptor : String)
deriving DecidableEq

/-- What a call adds. -/
def Addition.meaning : Addition → Meaning
  | utf8 text => .utf8 text
  | classRef name => .classRef name
  | string text => .string text
  | integer value => .integer value
  | float bits => .float bits
  | long value => .long value
  | double bits => .double bits
  | nameAndType name type => .nameAndType name type.render
  | fieldRef owner name type => .fieldRef owner name type.render
  | methodRef owner name type => .methodRef owner name type.render
  | interfaceMethodRef owner name type => .interfaceMethodRef owner name type.render
  | methodHandle kind member => .methodHandle kind member
  | methodType type => .methodType type.render
  | invokeDynamic bootstrapMethod name type => .invokeDynamic bootstrapMethod name type.render

/-- What a constant of a pool means: its indices are followed to what they stand for. -/
inductive Denotes (pool : ConstantPool) : Constant → Meaning → Prop where
  | utf8 (text : String) : Denotes pool (.utf8 text) (.utf8 text)
  | integer (value : Int32) : Denotes pool (.integer value) (.integer value)
  | float (bits : UInt32) : Denotes pool (.float bits) (.float bits)
  | long (value : Int64) : Denotes pool (.long value) (.long value)
  | double (bits : UInt64) : Denotes pool (.double bits) (.double bits)
  | classRef {index : ConstantIndex} {name : String} (hname : pool.text index = .ok name) :
    Denotes pool (.classRef index) (.classRef name)
  | string {index : ConstantIndex} {text : String} (htext : pool.text index = .ok text) :
    Denotes pool (.string index) (.string text)
  | methodType {index : ConstantIndex} {descriptor : String}
    (hdescriptor : pool.text index = .ok descriptor) :
    Denotes pool (.methodType index) (.methodType descriptor)
  | nameAndType {first second : ConstantIndex} {name descriptor : String}
    (hname : pool.text first = .ok name) (hdescriptor : pool.text second = .ok descriptor) :
    Denotes pool (.nameAndType first second) (.nameAndType name descriptor)
  | fieldRef {first second : ConstantIndex} {owner name descriptor : String}
    (howner : pool.className first = .ok owner)
    (hmember : pool.nameAndType second = .ok (name, descriptor)) :
    Denotes pool (.fieldRef first second) (.fieldRef owner name descriptor)
  | methodRef {first second : ConstantIndex} {owner name descriptor : String}
    (howner : pool.className first = .ok owner)
    (hmember : pool.nameAndType second = .ok (name, descriptor)) :
    Denotes pool (.methodRef first second) (.methodRef owner name descriptor)
  | interfaceMethodRef {first second : ConstantIndex} {owner name descriptor : String}
    (howner : pool.className first = .ok owner)
    (hmember : pool.nameAndType second = .ok (name, descriptor)) :
    Denotes pool (.interfaceMethodRef first second) (.interfaceMethodRef owner name descriptor)
  | methodHandle (kind : ReferenceKind) (member : ConstantIndex) :
    Denotes pool (.methodHandle kind member) (.methodHandle kind member)
  | invokeDynamic (bootstrapMethod : UInt16) {index : ConstantIndex} {name descriptor : String}
    (hmember : pool.nameAndType index = .ok (name, descriptor)) :
    Denotes pool (.invokeDynamic bootstrapMethod index)
      (.invokeDynamic bootstrapMethod name descriptor)

namespace Denotes

variable {pool : ConstantPool} {first second : Constant} {meaning other : Meaning}

/-- A constant means one thing only. -/
theorem meaning_unique (h : Denotes pool first meaning) (h' : Denotes pool first other) :
    meaning = other := by
  -- Both meanings are of the kind of the constant, and come from the same indices.
  cases h <;> cases h' <;> simp_all

/-- A pool that holds no constant twice has one constant with a meaning. -/
theorem constant_unique (h : Denotes pool first meaning) (h' : Denotes pool second meaning)
    (hreachable : pool.Reachable) (hnodup : pool.constants.elements.Nodup) : first = second := by
  have htexts {text : String} {i j : ConstantIndex} (hi : pool.text i = .ok text)
      (hj : pool.text j = .ok text) : i = j := hreachable.text_index_unique hnodup hi hj
  have hclasses {name : String} {i j : ConstantIndex} (hi : pool.className i = .ok name)
      (hj : pool.className j = .ok name) : i = j := hreachable.class_index_unique hnodup hi hj
  have hmembers {parts : String × String} {i j : ConstantIndex}
      (hi : pool.nameAndType i = .ok parts) (hj : pool.nameAndType j = .ok parts) : i = j :=
    hreachable.nameAndType_index_unique hnodup hi hj
  -- Both constants are of the kind of the meaning, and what their parts mean is the same.
  cases h with
  | utf8 | integer | float | long | double | methodHandle => cases h'; rfl
  | classRef hname => cases h' with | classRef hname' => rw [htexts hname hname']
  | string htext => cases h' with | string htext' => rw [htexts htext htext']
  | methodType hdescriptor =>
    cases h' with | methodType hdescriptor' => rw [htexts hdescriptor hdescriptor']
  | nameAndType hname hdescriptor =>
    cases h' with
    | nameAndType hname' hdescriptor' =>
      rw [htexts hname hname', htexts hdescriptor hdescriptor']
  | fieldRef howner hmember =>
    cases h' with
    | fieldRef howner' hmember' => rw [hclasses howner howner', hmembers hmember hmember']
  | methodRef howner hmember =>
    cases h' with
    | methodRef howner' hmember' => rw [hclasses howner howner', hmembers hmember hmember']
  | interfaceMethodRef howner hmember =>
    cases h' with
    | interfaceMethodRef howner' hmember' =>
      rw [hclasses howner howner', hmembers hmember hmember']
  | invokeDynamic bootstrapMethod hmember =>
    cases h' with | invokeDynamic _ hmember' => rw [hmembers hmember hmember']

end Denotes

namespace Addition

variable {pool : ConstantPool} {index : ConstantIndex}

/-- Where the arguments of a call are found, there is a constant that means them. -/
theorem exists_denotes {addition : Addition} (h : addition.Means pool index) :
    ∃ constant, pool.get index = .ok constant ∧ Denotes pool constant addition.meaning := by
  cases addition with
  | utf8 text => exact ⟨_, ConstantPool.text_eq_ok_iff.mp h, .utf8 text⟩
  | integer value => exact ⟨_, h, .integer value⟩
  | float bits => exact ⟨_, h, .float bits⟩
  | long value => exact ⟨_, h, .long value⟩
  | double bits => exact ⟨_, h, .double bits⟩
  | methodHandle kind member => exact ⟨_, h, .methodHandle kind member⟩
  | classRef name =>
    obtain ⟨nameIndex, hget, hname⟩ := ConstantPool.className_eq_ok_iff.mp h
    exact ⟨_, hget, .classRef (ConstantPool.text_eq_ok_iff.mpr hname)⟩
  | string text =>
    obtain ⟨textIndex, hget, htext⟩ := h
    exact ⟨_, hget, .string htext⟩
  | methodType type =>
    obtain ⟨descriptor, hget, hdescriptor⟩ := h
    exact ⟨_, hget, .methodType hdescriptor⟩
  | nameAndType name type =>
    obtain ⟨nameIndex, descriptor, hget, hname, hdescriptor⟩ :=
      ConstantPool.nameAndType_eq_ok_iff.mp h
    exact ⟨_, hget, .nameAndType (ConstantPool.text_eq_ok_iff.mpr hname)
      (ConstantPool.text_eq_ok_iff.mpr hdescriptor)⟩
  | fieldRef owner name type =>
    obtain ⟨ownerIndex, member, hget, howner, hmember⟩ := h
    exact ⟨_, hget, .fieldRef howner hmember⟩
  | methodRef owner name type =>
    obtain ⟨ownerIndex, member, hget, howner, hmember⟩ := h
    exact ⟨_, hget, .methodRef howner hmember⟩
  | interfaceMethodRef owner name type =>
    obtain ⟨ownerIndex, member, hget, howner, hmember⟩ := h
    exact ⟨_, hget, .interfaceMethodRef howner hmember⟩
  | invokeDynamic bootstrapMethod name type =>
    obtain ⟨member, hget, hmember⟩ := h
    exact ⟨_, hget, .invokeDynamic bootstrapMethod hmember⟩

/-- What a call means by an index is not lost when the pool is extended. -/
theorem lasting_means (addition : Addition) : Lasting addition.Means := by
  intro before after hextends index h
  cases addition with
  | utf8 text => exact lasting_text text hextends h
  | classRef name => exact lasting_className name hextends h
  | nameAndType name type => exact lasting_nameAndType _ hextends h
  | integer | float | long | double | methodHandle => exact hextends h
  | string text =>
    obtain ⟨textIndex, hget, htext⟩ := h
    exact ⟨textIndex, hextends hget, hextends.text htext⟩
  | methodType type =>
    obtain ⟨descriptor, hget, hdescriptor⟩ := h
    exact ⟨descriptor, hextends hget, hextends.text hdescriptor⟩
  | fieldRef | methodRef | interfaceMethodRef =>
    obtain ⟨ownerIndex, member, hget, howner, hmember⟩ := h
    exact ⟨ownerIndex, member, hextends hget, hextends.className howner,
      hextends.nameAndType hmember⟩
  | invokeDynamic bootstrapMethod name type =>
    obtain ⟨member, hget, hmember⟩ := h
    exact ⟨member, hextends hget, hextends.nameAndType hmember⟩

end Addition

/-- Two calls mean the same by an index exactly if their indices are the same. -/
theorem Consistent.index_eq_iff {draft : PoolDraft} (h : draft.Consistent)
    {addition other : Addition} {first second : ConstantIndex}
    (hfirst : addition.Means draft.pool first) (hsecond : other.Means draft.pool second) :
    first = second ↔ addition.meaning = other.meaning := by
  obtain ⟨constant, hget, hdenotes⟩ := Addition.exists_denotes hfirst
  obtain ⟨constant', hget', hdenotes'⟩ := Addition.exists_denotes hsecond
  constructor
  · rintro rfl
    obtain rfl : constant = constant' := Except.ok.inj (hget.symm.trans hget')
    exact hdenotes.meaning_unique hdenotes'
  · intro heq
    rw [heq] at hdenotes
    obtain rfl := hdenotes.constant_unique hdenotes' h.reachable h.nodup
    exact h.reachable.index_unique h.nodup hget hget'

/-! ## Runs -/

/-- A run of calls on a draft leaves one after the other pools of consistent drafts, in which
references are acyclic and all constants of the first draft are where they were. -/
theorem Consistent.exists_of_mem_trace {draft : PoolDraft} (h : draft.Consistent)
    (hacyclic : draft.pool.IsAcyclic) {additions : List Addition}
    {step : Except Error ConstantIndex × ConstantPool} (hstep : step ∈ draft.trace additions) :
    ∃ later : PoolDraft, later.pool = step.2 ∧ later.Consistent ∧ later.pool.IsAcyclic ∧
      Extends draft.pool later.pool := by
  induction additions generalizing draft with
  | nil => exact absurd hstep List.not_mem_nil
  | cons addition additions ih =>
    obtain ⟨hconsistent, hextends, -⟩ := addition.yields draft h
    have hkept := addition.keepsAcyclic draft h hacyclic trivial
    rcases List.mem_cons.mp hstep with rfl | hlater
    · exact ⟨_, rfl, hconsistent, hkept, hextends⟩
    · obtain ⟨later, hpool, hlater, hacyclic', hextends'⟩ := ih hconsistent hkept hlater
      exact ⟨later, hpool, hlater, hacyclic', hextends.trans hextends'⟩

/-- The index that a call of a run answers means the arguments of the call, in the pool that the
call leaves and in all that later calls leave. -/
theorem Consistent.means_trace {draft : PoolDraft} (h : draft.Consistent)
    (hacyclic : draft.pool.IsAcyclic) {additions : List Addition} {addition : Addition}
    {i j : Nat} {index : ConstantIndex} {answer : Except Error ConstantIndex}
    {pool later : ConstantPool} (hij : i ≤ j) (haddition : additions[i]? = some addition)
    (hindex : (draft.trace additions)[i]? = some (.ok index, pool))
    (hlater : (draft.trace additions)[j]? = some (answer, later)) :
    addition.Means later index := by
  induction additions generalizing draft i j with
  | nil => exact absurd haddition (by simp)
  | cons first additions ih =>
    obtain ⟨hconsistent, hextends, hmeans⟩ := first.yields draft h
    have hkept := first.keepsAcyclic draft h hacyclic trivial
    cases i with
    | zero =>
      obtain rfl : first = addition := Option.some.inj haddition
      obtain ⟨hanswer, hpool⟩ := Prod.mk.inj (Option.some.inj hindex)
      have hmeans := hmeans index hanswer
      cases j with
      | zero =>
        obtain ⟨-, rfl⟩ := Prod.mk.inj (Option.some.inj hlater)
        exact hmeans
      | succ j =>
        -- The later calls start from the draft that this one leaves.
        obtain ⟨last, rfl, -, -, hlast⟩ :=
          hconsistent.exists_of_mem_trace hkept (List.mem_of_getElem? hlater)
        exact first.lasting_means hlast hmeans
    | succ i =>
      cases j with
      | zero => exact absurd hij (Nat.not_succ_le_zero i)
      | succ j =>
        exact ih hconsistent hkept (Nat.le_of_succ_le_succ hij) haddition hindex hlater

/-- Two calls of a run answer the same index exactly if they mean the same. -/
theorem Consistent.trace_index_eq_iff {draft : PoolDraft} (h : draft.Consistent)
    (hacyclic : draft.pool.IsAcyclic) {additions : List Addition} {addition other : Addition}
    {i j : Nat} {first second : ConstantIndex} {pool pool' : ConstantPool}
    (haddition : additions[i]? = some addition) (hother : additions[j]? = some other)
    (hfirst : (draft.trace additions)[i]? = some (.ok first, pool))
    (hsecond : (draft.trace additions)[j]? = some (.ok second, pool')) :
    first = second ↔ addition.meaning = other.meaning := by
  -- Both indices are looked up in what the later of the two calls leaves.
  obtain ⟨k, answer, last, hik, hjk, hlast⟩ : ∃ k answer last, i ≤ k ∧ j ≤ k ∧
      (draft.trace additions)[k]? = some (answer, last) := by
    rcases Nat.le_total i j with hij | hji
    · exact ⟨j, _, _, hij, Nat.le_refl j, hsecond⟩
    · exact ⟨i, _, _, Nat.le_refl i, hji, hfirst⟩
  have hmeans := h.means_trace hacyclic hik haddition hfirst hlast
  have hmeans' := h.means_trace hacyclic hjk hother hsecond hlast
  obtain ⟨later, rfl, hlater, -, -⟩ :=
    h.exists_of_mem_trace hacyclic (List.mem_of_getElem? hlast)
  exact hlater.index_eq_iff hmeans hmeans'

/-- What a run of calls on a new draft does with the indices that it hands out and puts into
constants. Calls are told by their places in the run. -/
structure InternsFaithfully (additions : List Addition) : Prop where
  /-- Whatever a call leaves, be it successful or not, every index in a constant is smaller than
  that of the constant, and stands for a constant of the kind that belongs there. -/
  acyclic : ∀ step ∈ empty.trace additions, step.2.IsAcyclic
  /-- All strings are texts. -/
  texts : ∀ step ∈ empty.trace additions, ∀ index units, step.2.get index ≠ .ok (.utf16 units)
  /-- An index leads back to the arguments of the call that answered it, at once and after all
  later calls. -/
  means : ∀ {i j : Nat} {addition : Addition} {index : ConstantIndex}
    {answer : Except Error ConstantIndex} {pool later : ConstantPool}, i ≤ j →
    additions[i]? = some addition → (empty.trace additions)[i]? = some (.ok index, pool) →
    (empty.trace additions)[j]? = some (answer, later) → addition.Means later index
  /-- Two calls answer the same index exactly if they are for the same kind of constant and their
  arguments are the same. -/
  index_eq_iff : ∀ {i j : Nat} {addition other : Addition} {first second : ConstantIndex}
    {pool pool' : ConstantPool}, additions[i]? = some addition → additions[j]? = some other →
    (empty.trace additions)[i]? = some (.ok first, pool) →
    (empty.trace additions)[j]? = some (.ok second, pool') →
      (first = second ↔ addition.meaning = other.meaning)

/-- Whatever calls are made on a new draft, failing ones included, its references are acyclic and of
the right kinds, and the indices that it hands out tell apart the arguments that they were handed
out for. -/
theorem internsFaithfully (additions : List Addition) : InternsFaithfully additions where
  acyclic step hstep := by
    obtain ⟨later, hpool, -, hacyclic, -⟩ := consistent_empty.exists_of_mem_trace .empty hstep
    rwa [← hpool]
  texts step hstep index units hget := by
    obtain ⟨later, hpool, hlater, -, -⟩ := consistent_empty.exists_of_mem_trace .empty hstep
    rw [← hpool] at hget
    exact hlater.not_mem_utf16 units (hlater.reachable.mem_of_get hget)
  means := consistent_empty.means_trace .empty
  index_eq_iff := consistent_empty.trace_index_eq_iff .empty

end PoolDraft

end JavaClass
