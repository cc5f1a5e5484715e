import JavaClass.Proofs.Draft.PoolDraft

/-!
# What added indices mean

Adding constants leaves every constant where it is, whether it succeeds or not. What an index means
when it is handed out is hence what it means ever after.

- `PoolDraft.Yields`: an operation yields values with a meaning, and leaves all others theirs.
- `PoolDraft.Addition.Means`: the arguments of a call, found again at an index.
- `PoolDraft.Addition.yields`: every call that adds a constant yields an index that means its
  arguments.
- `PoolDraft.exists_addUtf8`, `PoolDraft.exists_addClass`: texts and classes can be added as long as
  there is room.
-/

namespace JavaClass.PoolDraft

open ConstantPool (Extends)

variable {α β : Type}

/-! ## Meanings -/

/-- A meaning of values that is not lost when a pool is extended. -/
def Lasting (Means : ConstantPool → α → Prop) : Prop :=
  ∀ ⦃before after : ConstantPool⦄, Extends before after → ∀ ⦃value⦄, Means before value →
    Means after value

/-- An operation on a consistent draft leaves a consistent one, in which all constants are where
they were. If it yields a value, that value means something in the pool that is left. -/
def Yields (adding : Adding α) (Means : ConstantPool → α → Prop) : Prop :=
  ∀ draft : PoolDraft, draft.Consistent →
    (draft.run adding).2.Consistent ∧ Extends draft.pool (draft.run adding).2.pool ∧
      ∀ value, (draft.run adding).1 = .ok value → Means (draft.run adding).2.pool value

namespace Yields

variable {Means : ConstantPool → α → Prop}

/-- What is yielded without adding anything is what it is. -/
theorem pure (value : α) : Yields (pure value) fun _ found => found = value := by
  intro draft hdraft
  refine ⟨hdraft, .refl draft.pool, ?_⟩
  rintro _ ⟨⟩
  rfl

/-- An operation whose first step fails adds nothing. -/
theorem throw_bind (cause : Error) (second : β → Adding α) :
    Yields (throw cause >>= second) Means := by
  intro draft hdraft
  rw [run_bind, run_throw]
  refine ⟨hdraft, .refl draft.pool, ?_⟩
  rintro _ ⟨⟩

/-- What yields a value or an error without a look at the constants adds none. -/
theorem lift (result : Except Error α) :
    Yields (liftM result) fun _ value => result = .ok value :=
  fun draft hdraft => ⟨hdraft, .refl draft.pool, fun _ hvalue => hvalue⟩

/-- A value keeps its meaning where that can be told in other words. -/
theorem imp {adding : Adding α} {Means' : ConstantPool → α → Prop} (h : Yields adding Means)
    (himp : ∀ ⦃pool value⦄, Means pool value → Means' pool value) : Yields adding Means' := by
  intro draft hdraft
  obtain ⟨hconsistent, hextends, hmeans⟩ := h draft hdraft
  exact ⟨hconsistent, hextends, fun value hvalue => himp (hmeans value hvalue)⟩

/-- Looking a constant up in its table, and adding it if it is not there, yields its index. -/
theorem findOrAdd {κ : Type} {table : Table κ} {make : κ → Constant} (h : table.Serves make)
    (key : κ) :
    Yields (findOrAdd table key (make key)) fun pool index => pool.get index = .ok (make key) := by
  intro draft hdraft
  obtain ⟨hconsistent, heq⟩ := Refines.findOrAdd h key draft hdraft
  obtain ⟨hanswer, hpool⟩ := Prod.mk.injEq .. ▸ heq
  refine ⟨hconsistent, ?_, ?_⟩
  · rw [hpool]
    exact .intern hdraft.reachable (make key)
  · intro index hindex
    rw [hpool]
    exact hdraft.reachable.get_of_intern (hanswer ▸ hindex)

/-- What the first of two operations yields still means the same after the second. -/
theorem bind {first : Adding α} {second : α → Adding β} {Means' : α → ConstantPool → β → Prop}
    (hfirst : Yields first Means) (hlasting : Lasting Means)
    (hsecond : ∀ value, Yields (second value) (Means' value)) :
    Yields (first >>= second) fun pool result => ∃ value, Means pool value ∧
      Means' value pool result := by
  intro draft hdraft
  obtain ⟨hconsistent, hextends, hmeans⟩ := hfirst draft hdraft
  rw [run_bind]
  rcases hrun : draft.run first with ⟨cause | value, next⟩
  · rw [hrun] at hconsistent hextends
    refine ⟨hconsistent, hextends, ?_⟩
    rintro _ ⟨⟩
  · rw [hrun] at hconsistent hextends hmeans
    obtain ⟨hconsistent', hextends', hmeans'⟩ := hsecond value next hconsistent
    -- What the second operation adds does not change what the first value means.
    refine ⟨hconsistent', hextends.trans hextends', fun result hresult => ?_⟩
    exact ⟨value, hlasting hextends' (hmeans value rfl), hmeans' result hresult⟩

/-- An operation that comes after a test adds nothing if the test fails. -/
theorem bind_lift {adding : Adding α} {result : Except Error β} (h : Yields adding Means) :
    Yields (do let _ ← result; adding) Means :=
  (bind (lift result) (fun _ _ _ _ hvalue => hvalue) fun _ => h).imp
    fun _ _ ⟨_, _, hmeans⟩ => hmeans

end Yields

/-! ## Texts, classes, names with types -/

theorem lasting_text (text : String) : Lasting fun pool index => pool.text index = .ok text :=
  fun _ _ hextends _ => hextends.text

theorem lasting_className (name : String) :
    Lasting fun pool index => pool.className index = .ok name :=
  fun _ _ hextends _ => hextends.className

theorem lasting_nameAndType (parts : String × String) :
    Lasting fun pool index => pool.nameAndType index = .ok parts :=
  fun _ _ hextends _ => hextends.nameAndType

theorem yields_addUtf8 (text : String) :
    Yields (addUtf8 text) fun pool index => pool.text index = .ok text :=
  (Yields.findOrAdd .utf8s text).imp fun _ _ => ConstantPool.text_eq_ok_iff.mpr

theorem yields_addClass (name : String) :
    Yields (addClass name) fun pool index => pool.className index = .ok name := by
  refine (Yields.bind (yields_addUtf8 name) (lasting_text name) fun nameIndex =>
    .findOrAdd .classes nameIndex).imp ?_
  rintro pool index ⟨nameIndex, hname, hget⟩
  exact ConstantPool.className_eq_ok_iff.mpr
    ⟨nameIndex, hget, ConstantPool.text_eq_ok_iff.mp hname⟩

theorem yields_addNameAndType (name : String) (type : JavaType) :
    Yields (addNameAndType name type) fun pool index =>
      pool.nameAndType index = .ok (name, type.render) := by
  refine (Yields.bind (yields_addUtf8 name) (lasting_text name) fun nameIndex =>
    .bind (yields_addUtf8 type.render) (lasting_text type.render) fun descriptor =>
      .findOrAdd .nameAndTypes (nameIndex, descriptor)).imp ?_
  rintro pool index ⟨nameIndex, hname, descriptor, hdescriptor, hget⟩
  exact ConstantPool.nameAndType_eq_ok_iff.mpr ⟨nameIndex, descriptor, hget,
    ConstantPool.text_eq_ok_iff.mp hname, ConstantPool.text_eq_ok_iff.mp hdescriptor⟩

/-! ## All additions -/

namespace Addition

/-- At an index is a constant for a member of a class. -/
def MeansMember (make : ConstantIndex → ConstantIndex → Constant) (owner name : String)
    (type : JavaType) (pool : ConstantPool) (index : ConstantIndex) : Prop :=
  ∃ ownerIndex member, pool.get index = .ok (make ownerIndex member) ∧
    pool.className ownerIndex = .ok owner ∧ pool.nameAndType member = .ok (name, type.render)

/-- At an index is the constant that a call adds, and it refers to the arguments of the call. -/
def Means : Addition → ConstantPool → ConstantIndex → Prop
  | utf8 text, pool, index => pool.text index = .ok text
  | classRef name, pool, index => pool.className index = .ok name
  | string text, pool, index =>
    ∃ textIndex, pool.get index = .ok (.string textIndex) ∧ pool.text textIndex = .ok text
  | integer value, pool, index => pool.get index = .ok (.integer value)
  | float bits, pool, index => pool.get index = .ok (.float bits)
  | long value, pool, index => pool.get index = .ok (.long value)
  | double bits, pool, index => pool.get index = .ok (.double bits)
  | nameAndType name type, pool, index => pool.nameAndType index = .ok (name, type.render)
  | fieldRef owner name type, pool, index => MeansMember .fieldRef owner name type pool index
  | methodRef owner name type, pool, index => MeansMember .methodRef owner name type pool index
  | interfaceMethodRef owner name type, pool, index =>
    MeansMember .interfaceMethodRef owner name type pool index
  | methodHandle kind member, pool, index => pool.get index = .ok (.methodHandle kind member)
  | methodType type, pool, index =>
    ∃ descriptor, pool.get index = .ok (.methodType descriptor) ∧
      pool.text descriptor = .ok type.render
  | invokeDynamic bootstrapMethod name type, pool, index =>
    ∃ member, pool.get index = .ok (.invokeDynamic bootstrapMethod member) ∧
      pool.nameAndType member = .ok (name, type.render)

/-- Members of all kinds are added in the same way. -/
theorem yields_member {table : Table (ConstantIndex × ConstantIndex)}
    {make : ConstantIndex → ConstantIndex → Constant}
    (h : table.Serves fun key => make key.1 key.2) (owner name : String) (type : JavaType) :
    Yields (do
        let owner ← addClass owner
        let member ← addNameAndType name type
        findOrAdd table (owner, member) (make owner member))
      (MeansMember make owner name type) := by
  refine (Yields.bind (yields_addClass owner) (lasting_className owner) fun ownerIndex =>
    .bind (yields_addNameAndType name type) (lasting_nameAndType _) fun member =>
      .findOrAdd h (ownerIndex, member)).imp ?_
  rintro pool index ⟨ownerIndex, howner, member, hmember, hget⟩
  exact ⟨ownerIndex, member, hget, howner, hmember⟩

/-- Every call that adds a constant yields an index that means its arguments. -/
theorem yields (addition : Addition) : Yields addition.adding addition.Means := by
  cases addition with
  | utf8 text => exact yields_addUtf8 text
  | classRef name => exact yields_addClass name
  | string text =>
    refine (Yields.bind (yields_addUtf8 text) (lasting_text text) fun textIndex =>
      .findOrAdd .strings textIndex).imp ?_
    rintro pool index ⟨textIndex, htext, hget⟩
    exact ⟨textIndex, hget, htext⟩
  | integer value => exact .findOrAdd .integers value
  | float bits => exact .findOrAdd .floats bits
  | long value => exact .findOrAdd .longs value
  | double bits => exact .findOrAdd .doubles bits
  | nameAndType name type => exact yields_addNameAndType name type
  | fieldRef owner name type => exact yields_member .fieldRefs owner name type
  | methodRef owner name type => exact .bind_lift (yields_member .methodRefs owner name type)
  | interfaceMethodRef owner name type =>
    exact .bind_lift (yields_member .interfaceMethodRefs owner name type)
  | methodHandle kind member => exact .findOrAdd .methodHandles (kind, member)
  | methodType type =>
    refine .bind_lift ((Yields.bind (yields_addUtf8 type.render) (lasting_text type.render)
      fun descriptor => .findOrAdd .methodTypes descriptor).imp ?_)
    rintro pool index ⟨descriptor, hdescriptor, hget⟩
    exact ⟨descriptor, hget, hdescriptor⟩
  | invokeDynamic bootstrapMethod name type =>
    refine .bind_lift ((Yields.bind (yields_addNameAndType name type) (lasting_nameAndType _)
      fun member => .findOrAdd .invokeDynamics (bootstrapMethod, member)).imp ?_)
    rintro pool index ⟨member, hmember, hget⟩
    exact ⟨member, hget, hmember⟩

end Addition

/-! ## Room for texts and classes -/

/-- A constant is found or added if there is room for it. -/
theorem exists_findOrAdd {κ : Type} {table : Table κ} {make : κ → Constant} (h : table.Serves make)
    (key : κ) {draft : PoolDraft} (hdraft : draft.Consistent)
    (room : draft.pool.HasRoom (make key)) :
    ∃ index next, draft.run (findOrAdd table key (make key)) = (.ok index, next) ∧
      next.Consistent ∧ next.pool.next ≤ draft.pool.next + width (make key) := by
  obtain ⟨hconsistent, heq⟩ := Refines.findOrAdd h key draft hdraft
  obtain ⟨hanswer, hpool⟩ := Prod.mk.injEq .. ▸ heq
  obtain ⟨index, hindex, hnext⟩ := hdraft.reachable.exists_intern room
  refine ⟨index, _, Prod.ext (hanswer.trans hindex) rfl, hconsistent, ?_⟩
  rw [hpool]
  exact hnext

/-- A text is found or added if there is room for it. -/
theorem exists_addUtf8 {draft : PoolDraft} (h : draft.Consistent) (text : String)
    (room : draft.pool.next + 1 ≤ ConstantPool.limit) :
    ∃ index next, draft.run (addUtf8 text) = (.ok index, next) ∧ next.Consistent ∧
      next.pool.next ≤ draft.pool.next + 1 :=
  exists_findOrAdd .utf8s text h room

/-- A class is found or added if there is room for it and its name. -/
theorem exists_addClass {draft : PoolDraft} (h : draft.Consistent) (name : String)
    (room : draft.pool.next + 2 ≤ ConstantPool.limit) :
    ∃ index next, draft.run (addClass name) = (.ok index, next) ∧ next.Consistent ∧
      next.pool.next ≤ draft.pool.next + 2 := by
  -- The name takes up at most one slot, which leaves another one for the class.
  obtain ⟨nameIndex, named, hname, hnamed, hnext⟩ :=
    exists_addUtf8 h name (Nat.le_of_succ_le room)
  have room' : named.pool.HasRoom (.classRef nameIndex) :=
    Nat.le_trans (Nat.add_le_add_right hnext 1) room
  obtain ⟨index, next, hindex, hconsistent, hnext'⟩ :=
    exists_findOrAdd .classes nameIndex hnamed room'
  refine ⟨index, next, ?_, hconsistent, Nat.le_trans hnext' (Nat.add_le_add_right hnext 1)⟩
  rw [addClass, run_bind, hname]
  exact hindex

end JavaClass.PoolDraft
