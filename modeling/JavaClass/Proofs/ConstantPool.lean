import JavaClass.ConstantPool
import JavaClass.Proofs.OffsetArray
import JavaClass.Proofs.Writing
import Mathlib.Data.List.Nodup

/-!
# Constant pools that were filled

A pool is filled by pushing and interning constants. Whatever was pushed, interned or refused, every
constant stays at its index, and the first index of every constant is known.

- `ConstantPool.Reachable`: the pools that were filled.
- `ConstantPool.Reachable.induction`: every such pool comes from adding one constant after another.
- `ConstantPool.Reachable.eq_addAll`: such a pool is determined by its constants.
- `ConstantPool.Reachable.get_eq_ok_iff`: what stands at an index.
- `ConstantPool.Reachable.firstIndex_eq`: the first index of a constant.
- `ConstantPool.Reachable.intern_cases`: what interning can do.
- `ConstantPool.Extends`: one pool finds at every index what another finds there.
-/

namespace JavaClass

/-- Every constant takes up a slot. -/
theorem Constant.width_pos (constant : Constant) : 0 < width constant := by
  cases constant <;> exact Nat.succ_pos _

/-- No constant takes up more than two slots. -/
theorem Constant.width_le (constant : Constant) : width constant ≤ 2 := by
  cases constant <;> simp [width]

namespace ConstantPool

variable {pool : ConstantPool} {constant : Constant} {index : ConstantIndex}

/-! ## Adding a constant -/

/-- A pool with one more constant at its end. -/
def add (pool : ConstantPool) (constant : Constant) : ConstantPool where
  constants := pool.constants.push constant
  firstIndex := pool.firstIndex.insertIfNew constant (UInt16.ofNat pool.next)

/-- A pool has room for a constant that ends before the limit. -/
def HasRoom (pool : ConstantPool) (constant : Constant) : Prop :=
  pool.next + width constant ≤ limit

instance : Decidable (pool.HasRoom constant) := by unfold HasRoom; infer_instance

@[simp]
theorem next_empty : empty.next = 1 := rfl

@[simp]
theorem next_add : (pool.add constant).next = pool.next + width constant := rfl

@[simp]
theorem elements_add :
    (pool.add constant).constants.elements = pool.constants.elements ++ [constant] :=
  OffsetArray.elements_push ..

/-- A constant that is added is known by its index, unless it was known before. -/
theorem firstIndex_add (wanted : Constant) :
    (pool.add constant).firstIndex[wanted]? =
      pool.firstIndex[wanted]?.or
        (if constant = wanted then some (UInt16.ofNat pool.next) else none) := by
  -- The table keeps the index of a constant that it knows and learns that of any other.
  rw [add, Std.HashMap.getElem?_insertIfNew]
  by_cases heq : constant = wanted
  · subst heq
    by_cases hmem : constant ∈ pool.firstIndex
    · rw [Std.HashMap.getElem?_eq_some_getElem hmem]
      simp [hmem]
    · rw [Std.HashMap.getElem?_eq_none hmem]
      simp [hmem]
  · simp [heq]

theorem push_of_hasRoom (h : pool.HasRoom constant) :
    pool.push constant = (.ok (UInt16.ofNat pool.next), pool.add constant) := by
  rw [push_eq, if_neg (Nat.not_lt.mpr h), add]

theorem push_of_not_hasRoom (h : ¬ pool.HasRoom constant) :
    pool.push constant = (.error (.poolFull constant pool.next), pool) := by
  rw [push_eq, if_pos (Nat.lt_of_not_le h)]

theorem intern_of_known (h : pool.firstIndex[constant]? = some index) :
    pool.intern constant = (.ok index, pool) := by
  rw [intern, h]

theorem intern_of_unknown (h : pool.firstIndex[constant]? = none) :
    pool.intern constant = pool.push constant := by
  rw [intern, h]

/-! ## Pools that were filled -/

/-- The pools that come from the one without constants by pushing and interning, successfully or
not. -/
inductive Reachable : ConstantPool → Prop where
  /-- The pool without constants. -/
  | empty : Reachable empty
  /-- The pool that a push leaves. -/
  | push {pool : ConstantPool} (h : Reachable pool) (constant : Constant) :
    Reachable (pool.push constant).2
  /-- The pool that interning leaves. -/
  | intern {pool : ConstantPool} (h : Reachable pool) (constant : Constant) :
    Reachable (pool.intern constant).2

namespace Reachable

/-- A constant can be added as long as there is room. -/
theorem add (h : pool.Reachable) (room : pool.HasRoom constant) :
    (pool.add constant).Reachable := by
  have := h.push constant
  rwa [push_of_hasRoom room] at this

/-- What holds of the pool without constants, and stays true when a constant is added for which
there is room, holds of every pool. -/
@[elab_as_elim]
theorem induction {motive : (pool : ConstantPool) → pool.Reachable → Prop}
    (empty : motive ConstantPool.empty .empty)
    (add : ∀ (pool : ConstantPool) (constant : Constant) (h : pool.Reachable)
      (room : pool.HasRoom constant), motive pool h → motive (pool.add constant) (h.add room))
    {pool : ConstantPool} (h : pool.Reachable) : motive pool h := by
  -- A push that is refused leaves the pool as it is, so only additions are left to look at.
  have push : ∀ {pool : ConstantPool} (constant : Constant) (h : pool.Reachable), motive pool h →
      ∀ h' : (pool.push constant).2.Reachable, motive (pool.push constant).2 h' := by
    intro pool constant h ih h'
    by_cases room : pool.HasRoom constant
    · simp only [push_of_hasRoom room] at h' ⊢
      exact add pool constant h room ih
    · simp only [push_of_not_hasRoom room] at h' ⊢
      exact ih
  induction h with
  | empty => exact empty
  | push h constant ih => exact push constant h ih _
  | @intern pool h constant ih =>
    have h' := h.intern constant
    change motive (pool.intern constant).2 h'
    -- Interning leaves the pool if it knows the constant, and pushes it otherwise.
    cases hfirst : pool.firstIndex[constant]? with
    | some index =>
      simp only [intern_of_known hfirst] at h' ⊢
      exact ih
    | none =>
      simp only [intern_of_unknown hfirst] at h' ⊢
      exact push constant h ih h'

/-- The constants of a pool are an array that was filled from offset 1 on. -/
theorem filled (h : pool.Reachable) : pool.constants.FilledFrom 1 := by
  induction h using induction with
  | empty => exact .startingAt
  | add pool constant _ _ ih => exact ih.push constant

/-- No constant reaches past the limit. -/
theorem next_le (h : pool.Reachable) : pool.next ≤ limit := by
  induction h using induction with
  | empty => decide
  | add pool constant _ room _ => exact room

theorem next_pos (h : pool.Reachable) : 0 < pool.next := by
  rw [next, h.filled.next_eq]
  omega

/-- The offsets of a pool ascend. -/
theorem ascending (h : pool.Reachable) : pool.constants.Ascending :=
  h.filled.ascending Constant.width_pos

/-- The offset of a constant is an index. -/
theorem toNat_ofNat (h : pool.Reachable) {offset : Nat}
    (hmem : (offset, constant) ∈ pool.constants.toList) : (UInt16.ofNat offset).toNat = offset := by
  -- The constant ends before the limit, so its offset is a number of two bytes.
  have hbounds := h.filled.bounds hmem
  have hnext := h.next_le
  unfold limit next at hnext
  exact UInt16.toNat_ofNat_of_lt (by rw [UInt16.size]; omega)

/-- The next offset is an index as long as there is room for a constant. -/
theorem toNat_next (room : pool.HasRoom constant) : (UInt16.ofNat pool.next).toNat = pool.next := by
  have := constant.width_pos
  unfold HasRoom limit at room
  exact UInt16.toNat_ofNat_of_lt (by rw [UInt16.size]; omega)

/-! ## Constants by index -/

/-- A pool finds at an index exactly the constant with that offset. -/
theorem get_eq_ok_iff (h : pool.Reachable) :
    pool.get index = .ok constant ↔ (index.toNat, constant) ∈ pool.constants.toList := by
  rw [← OffsetArray.get?_eq_some_iff h.ascending, get]
  split <;> simp [*]

/-- What a pool finds is one of its constants. -/
theorem mem_of_get (h : pool.Reachable) (hget : pool.get index = .ok constant) :
    constant ∈ pool.constants.elements :=
  List.mem_map.mpr ⟨_, h.get_eq_ok_iff.mp hget, rfl⟩

/-- What a pool does not find, it reports by its index. -/
theorem get_eq (pool : ConstantPool) (index : ConstantIndex) :
    pool.get index = match pool.constants.get? index.toNat with
      | some constant => .ok constant
      | none => .error (.noConstantAt index) := rfl

/-- A constant that was added is found at the offset that was next; all others are where they
were. -/
theorem get_add (h : pool.Reachable) (room : pool.HasRoom constant) :
    (pool.add constant).get index =
      if index = UInt16.ofNat pool.next then .ok constant else pool.get index := by
  -- There was room, so the next offset is not cut off when it is made an index.
  have hiff : index = UInt16.ofNat pool.next ↔ index.toNat = pool.constants.next := by
    rw [← UInt16.toNat_inj, toNat_next room, next]
  simp only [get_eq, ConstantPool.add, h.filled.get?_push Constant.width_pos, hiff]
  by_cases heq : index.toNat = pool.constants.next
  · rw [if_pos heq, if_pos heq]
  · rw [if_neg heq, if_neg heq]

/-- There is no constant at index 0. -/
theorem get_zero (h : pool.Reachable) : pool.get 0 ≠ .ok constant := by
  intro hget
  have := (h.filled.bounds (h.get_eq_ok_iff.mp hget)).1
  exact absurd this (by decide)

/-! ## First indices -/

/-- The first index of a constant is that of the first entry which is equal to it. -/
theorem firstIndex_eq (h : pool.Reachable) (wanted : Constant) :
    pool.firstIndex[wanted]? =
      (pool.constants.toList.find? (·.2 = wanted)).map fun entry => UInt16.ofNat entry.1 := by
  induction h using induction with
  | empty => simp [ConstantPool.empty, OffsetArray.startingAt, OffsetArray.toList]
  | add pool constant h room ih =>
    -- The new entry comes last, so it is found only where no earlier one is equal.
    have hentries : (pool.add constant).constants.toList =
        pool.constants.toList ++ [(pool.next, constant)] := OffsetArray.toList_push ..
    rw [firstIndex_add, hentries, List.find?_append, Option.map_or, ih]
    congr 1
    by_cases heq : constant = wanted <;> simp [heq]

/-- A constant is known exactly if it is there. -/
theorem firstIndex_eq_none_iff (h : pool.Reachable) :
    pool.firstIndex[constant]? = none ↔ constant ∉ pool.constants.elements := by
  rw [h.firstIndex_eq, Option.map_eq_none_iff, List.find?_eq_none]
  simp only [OffsetArray.elements, List.mem_map, decide_eq_true_eq, not_exists, not_and]

/-- A known constant stands at its index. -/
theorem get_of_firstIndex (h : pool.Reachable) (hfirst : pool.firstIndex[constant]? = some index) :
    pool.get index = .ok constant := by
  rw [h.firstIndex_eq, Option.map_eq_some_iff] at hfirst
  obtain ⟨⟨offset, found⟩, hfind, rfl⟩ := hfirst
  have hmem := List.mem_of_find?_eq_some hfind
  obtain rfl : found = constant := by simpa using List.find?_some hfind
  rw [h.get_eq_ok_iff, h.toNat_ofNat hmem]
  exact hmem

/-- A pool that holds no constant twice holds it at one index. -/
theorem index_unique (h : pool.Reachable) (hnodup : pool.constants.elements.Nodup)
    {first second : ConstantIndex} (hfirst : pool.get first = .ok constant)
    (hsecond : pool.get second = .ok constant) : first = second := by
  rw [h.get_eq_ok_iff] at hfirst hsecond
  rw [← UInt16.toNat_inj]
  -- Entries that differ in the offset alone would be two equal elements.
  exact congrArg Prod.fst (List.inj_on_of_nodup_map hnodup hfirst hsecond rfl)

/-! ## Interning -/

/-- Interning yields the index of a constant that is there, adds one that is not, or refuses it for
lack of room. -/
theorem intern_cases (h : pool.Reachable) (constant : Constant) :
    (∃ index, pool.get index = .ok constant ∧ pool.intern constant = (.ok index, pool)) ∨
      (constant ∉ pool.constants.elements ∧ pool.HasRoom constant ∧
        pool.intern constant = (.ok (UInt16.ofNat pool.next), pool.add constant)) ∨
      (constant ∉ pool.constants.elements ∧ ¬ pool.HasRoom constant ∧
        pool.intern constant = (.error (.poolFull constant pool.next), pool)) := by
  cases hfirst : pool.firstIndex[constant]? with
  | some index => exact .inl ⟨index, h.get_of_firstIndex hfirst, intern_of_known hfirst⟩
  | none =>
    have hnew := h.firstIndex_eq_none_iff.mp hfirst
    rw [intern_of_unknown hfirst]
    by_cases room : pool.HasRoom constant
    · exact .inr (.inl ⟨hnew, room, push_of_hasRoom room⟩)
    · exact .inr (.inr ⟨hnew, room, push_of_not_hasRoom room⟩)

/-- Where interning says that a constant is, there it is. -/
theorem get_of_intern (h : pool.Reachable) (hintern : (pool.intern constant).1 = .ok index) :
    (pool.intern constant).2.get index = .ok constant := by
  obtain ⟨found, hget, heq⟩ | ⟨-, room, heq⟩ | ⟨-, -, heq⟩ := h.intern_cases constant
  · rw [heq] at hintern ⊢
    cases hintern
    exact hget
  · rw [heq] at hintern ⊢
    cases hintern
    rw [h.get_add room, if_pos rfl]
  · rw [heq] at hintern
    cases hintern

/-- A pool with room for a constant interns it, and gets no longer than by the constant. -/
theorem exists_intern (h : pool.Reachable) (room : pool.HasRoom constant) :
    ∃ index, (pool.intern constant).1 = .ok index ∧
      (pool.intern constant).2.next ≤ pool.next + width constant := by
  obtain ⟨index, -, heq⟩ | ⟨-, -, heq⟩ | ⟨-, full, -⟩ := h.intern_cases constant
  · exact ⟨index, by rw [heq], by rw [heq]; exact Nat.le_add_right ..⟩
  · exact ⟨_, by rw [heq], by rw [heq]; exact Nat.le_refl _⟩
  · exact absurd room full

end Reachable

/-! ## Adding many constants -/

/-- A pool with some more constants at its end. -/
def addAll (pool : ConstantPool) (constants : List Constant) : ConstantPool :=
  constants.foldl add pool

@[simp]
theorem addAll_nil (pool : ConstantPool) : pool.addAll [] = pool := rfl

@[simp]
theorem addAll_cons (pool : ConstantPool) (constants : List Constant) :
    pool.addAll (constant :: constants) = (pool.add constant).addAll constants := rfl

theorem addAll_append (pool : ConstantPool) (first second : List Constant) :
    pool.addAll (first ++ second) = (pool.addAll first).addAll second := List.foldl_append

theorem constants_addAll (pool : ConstantPool) (constants : List Constant) :
    (pool.addAll constants).constants = pool.constants.append constants := by
  induction constants generalizing pool with
  | nil => rfl
  | cons constant constants ih => exact ih (pool.add constant)

theorem elements_addAll (pool : ConstantPool) (constants : List Constant) :
    (pool.addAll constants).constants.elements = pool.constants.elements ++ constants := by
  rw [constants_addAll, OffsetArray.elements_append]

theorem next_addAll (pool : ConstantPool) (constants : List Constant) :
    (pool.addAll constants).next = pool.next + (constants.map width).sum := by
  rw [next, constants_addAll, OffsetArray.next_append, next]

/-- A filled pool is what its constants make up. -/
theorem Reachable.eq_addAll (h : pool.Reachable) :
    pool = ConstantPool.empty.addAll pool.constants.elements := by
  induction h using Reachable.induction with
  | empty => rfl
  | add pool constant h room ih =>
    rw [elements_add, addAll_append, ← ih]
    rfl

/-- Filled pools that are equal hold the same constants and know the same indices of them. -/
theorem Reachable.eq_of_elements {other : ConstantPool} (h : pool.Reachable)
    (hother : other.Reachable) (heq : pool.constants.elements = other.constants.elements) :
    pool = other := by
  rw [h.eq_addAll, hother.eq_addAll, heq]

/-! ## Pools that extend others -/

/-- One pool finds at every index what another finds there. -/
def Extends (before after : ConstantPool) : Prop :=
  ∀ ⦃index constant⦄, before.get index = .ok constant → after.get index = .ok constant

namespace Extends

theorem refl (pool : ConstantPool) : Extends pool pool := fun _ _ h => h

theorem trans {first second third : ConstantPool} (h : Extends first second)
    (h' : Extends second third) : Extends first third := fun _ _ hget => h' (h hget)

/-- A pool extends the one that it was before a constant was added. -/
theorem add (h : pool.Reachable) (room : pool.HasRoom constant) :
    Extends pool (pool.add constant) := by
  intro index found hget
  rw [h.get_add room, if_neg]
  · exact hget
  · rintro rfl
    -- No constant of the pool reaches up to its end.
    rw [h.get_eq_ok_iff, Reachable.toNat_next room] at hget
    have := (h.filled.bounds hget).2
    have := found.width_pos
    unfold next at *
    omega

/-- Interning leaves every constant where it is, whether it succeeds or not. -/
theorem intern (h : pool.Reachable) (constant : Constant) :
    Extends pool (pool.intern constant).2 := by
  obtain ⟨index, -, heq⟩ | ⟨-, room, heq⟩ | ⟨-, -, heq⟩ := h.intern_cases constant
  · rw [heq]
    exact .refl pool
  · rw [heq]
    exact .add h room
  · rw [heq]
    exact .refl pool

end Extends

/-! ## Texts and classes -/

/-- There is a text at an index exactly if there is a string that is text. -/
theorem text_eq_ok_iff {text : String} :
    pool.text index = .ok text ↔ pool.get index = .ok (.utf8 text) := by
  simp only [ConstantPool.text, bind_eq_ok]
  constructor
  · rintro ⟨found, hget, htext⟩
    split at htext
    · rwa [pure_eq_ok.mp htext] at hget
    · cases htext
    · cases htext
  · intro hget
    exact ⟨_, hget, rfl⟩

/-- There is a class with a name at an index exactly if there is a class and its name is a text. -/
theorem className_eq_ok_iff {name : String} :
    pool.className index = .ok name ↔
      ∃ nameIndex, pool.get index = .ok (.classRef nameIndex) ∧
        pool.get nameIndex = .ok (.utf8 name) := by
  simp only [ConstantPool.className, bind_eq_ok]
  constructor
  · rintro ⟨found, hget, hname⟩
    split at hname
    · exact ⟨_, hget, text_eq_ok_iff.mp hname⟩
    · cases hname
  · rintro ⟨nameIndex, hget, hname⟩
    exact ⟨_, hget, text_eq_ok_iff.mpr hname⟩

/-- There are a name and a descriptor at an index exactly if there is such a constant and both its
parts are texts. -/
theorem nameAndType_eq_ok_iff {name descriptor : String} :
    pool.nameAndType index = .ok (name, descriptor) ↔
      ∃ nameIndex descriptorIndex, pool.get index = .ok (.nameAndType nameIndex descriptorIndex) ∧
        pool.get nameIndex = .ok (.utf8 name) ∧
        pool.get descriptorIndex = .ok (.utf8 descriptor) := by
  simp only [ConstantPool.nameAndType, bind_eq_ok]
  constructor
  · rintro ⟨found, hget, hparts⟩
    split at hparts
    · simp only [bind_eq_ok] at hparts
      obtain ⟨foundName, hname, foundDescriptor, hdescriptor, heq⟩ := hparts
      cases heq
      exact ⟨_, _, hget, text_eq_ok_iff.mp hname, text_eq_ok_iff.mp hdescriptor⟩
    · cases hparts
  · rintro ⟨nameIndex, descriptorIndex, hget, hname, hdescriptor⟩
    refine ⟨_, hget, ?_⟩
    simp only [text_eq_ok_iff.mpr hname, text_eq_ok_iff.mpr hdescriptor]
    rfl

namespace Extends

variable {before after : ConstantPool}

/-- A text stays where it is. -/
theorem text (h : Extends before after) {text : String} (htext : before.text index = .ok text) :
    after.text index = .ok text :=
  text_eq_ok_iff.mpr (h (text_eq_ok_iff.mp htext))

/-- A class keeps its name. -/
theorem className (h : Extends before after) {name : String}
    (hname : before.className index = .ok name) : after.className index = .ok name := by
  obtain ⟨nameIndex, hget, htext⟩ := className_eq_ok_iff.mp hname
  exact className_eq_ok_iff.mpr ⟨nameIndex, h hget, h htext⟩

/-- A name with a type keeps both. -/
theorem nameAndType (h : Extends before after) {parts : String × String}
    (hparts : before.nameAndType index = .ok parts) : after.nameAndType index = .ok parts := by
  obtain ⟨nameIndex, descriptorIndex, hget, hname, hdescriptor⟩ := nameAndType_eq_ok_iff.mp hparts
  exact nameAndType_eq_ok_iff.mpr ⟨nameIndex, descriptorIndex, h hget, h hname, h hdescriptor⟩

end Extends

/-- A pool that holds no constant twice has one index for every text. -/
theorem Reachable.text_index_unique (h : pool.Reachable) (hnodup : pool.constants.elements.Nodup)
    {text : String} {first second : ConstantIndex} (hfirst : pool.text first = .ok text)
    (hsecond : pool.text second = .ok text) : first = second :=
  h.index_unique hnodup (text_eq_ok_iff.mp hfirst) (text_eq_ok_iff.mp hsecond)

/-- A pool that holds no constant twice has one index for the class with a name. -/
theorem Reachable.class_index_unique (h : pool.Reachable) (hnodup : pool.constants.elements.Nodup)
    {name : String} {first second : ConstantIndex} (hfirst : pool.className first = .ok name)
    (hsecond : pool.className second = .ok name) : first = second := by
  obtain ⟨firstName, hfirst, hfirstName⟩ := className_eq_ok_iff.mp hfirst
  obtain ⟨secondName, hsecond, hsecondName⟩ := className_eq_ok_iff.mp hsecond
  -- The names are one constant, hence so are the classes.
  obtain rfl := h.index_unique hnodup hfirstName hsecondName
  exact h.index_unique hnodup hfirst hsecond

/-- A pool that holds no constant twice has one index for a name with its type. -/
theorem Reachable.nameAndType_index_unique (h : pool.Reachable)
    (hnodup : pool.constants.elements.Nodup) {parts : String × String}
    {first second : ConstantIndex} (hfirst : pool.nameAndType first = .ok parts)
    (hsecond : pool.nameAndType second = .ok parts) : first = second := by
  obtain ⟨name, descriptor⟩ := parts
  obtain ⟨firstName, firstDescriptor, hfirst, hname, hdescriptor⟩ :=
    nameAndType_eq_ok_iff.mp hfirst
  obtain ⟨secondName, secondDescriptor, hsecond, hname', hdescriptor'⟩ :=
    nameAndType_eq_ok_iff.mp hsecond
  obtain rfl := h.index_unique hnodup hname hname'
  obtain rfl := h.index_unique hnodup hdescriptor hdescriptor'
  exact h.index_unique hnodup hfirst hsecond

/-- There is a class at an index. -/
def IsClass (pool : ConstantPool) (index : ConstantIndex) : Prop :=
  ∃ name, pool.get index = .ok (.classRef name)

/-- There is a string at an index, be it text or not. -/
def IsString (pool : ConstantPool) (index : ConstantIndex) : Prop :=
  (∃ text, pool.get index = .ok (.utf8 text)) ∨ ∃ units, pool.get index = .ok (.utf16 units)

/-- An index is accepted as that of a class exactly if there is one. -/
theorem classIndex_eq_ok_iff {found : ConstantIndex} :
    pool.classIndex index = .ok found ↔ found = index ∧ pool.IsClass index := by
  simp only [ConstantPool.classIndex, bind_eq_ok, IsClass]
  constructor
  · rintro ⟨constant, hget, hfound⟩
    split at hfound
    · exact ⟨(pure_eq_ok.mp hfound).symm, _, hget⟩
    · cases hfound
  · rintro ⟨rfl, name, hget⟩
    exact ⟨_, hget, rfl⟩

/-- An index is accepted as that of a string exactly if there is one. -/
theorem stringIndex_eq_ok_iff {found : ConstantIndex} :
    pool.stringIndex index = .ok found ↔ found = index ∧ pool.IsString index := by
  simp only [ConstantPool.stringIndex, bind_eq_ok, IsString]
  constructor
  · rintro ⟨constant, hget, hfound⟩
    split at hfound
    · exact ⟨(pure_eq_ok.mp hfound).symm, .inl ⟨_, hget⟩⟩
    · exact ⟨(pure_eq_ok.mp hfound).symm, .inr ⟨_, hget⟩⟩
    · cases hfound
  · rintro ⟨rfl, ⟨text, hget⟩ | ⟨units, hget⟩⟩
    · exact ⟨_, hget, rfl⟩
    · exact ⟨_, hget, rfl⟩

/-- A text is what it is, also where unpaired surrogates would be replaced. -/
theorem textLossy_of_text {text : String} (h : pool.text index = .ok text) :
    pool.textLossy index = .ok text := by
  rw [ConstantPool.textLossy, text_eq_ok_iff.mp h]
  rfl

/-- Where a text is, there is a string. -/
theorem isString_of_text {text : String} (h : pool.text index = .ok text) : pool.IsString index :=
  .inl ⟨text, text_eq_ok_iff.mp h⟩

/-- There is no class at index 0. -/
theorem Reachable.not_isClass_zero (h : pool.Reachable) : ¬ pool.IsClass 0 := by
  rintro ⟨name, hget⟩
  exact h.get_zero hget

end ConstantPool

end JavaClass
