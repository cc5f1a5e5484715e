import JavaClass.Proofs.JavaType
import JavaClass.TypeRegistry

/-!
# What registries hand out

Whichever way a registry is asked for a type, it does the same: it hands out the type if that has a
descriptor and refuses it otherwise. So it is enough to look at this one operation.

- `TypeRegistry.handOut`: hands out a type or refuses it.
- `TypeRegistry.primitive_eq`, `TypeRegistry.classType_eq`, `TypeRegistry.array_eq`,
  `TypeRegistry.method_eq`: the ways to ask for a type.
- `TypeRegistry.Holds`: the registry knows an instance by the descriptor of its type.
- `TypeRegistry.Sound`: what a registry that was filled by these operations satisfies.
- `TypeRegistry.Gives`: what handing out a type does to a registry.
-/

namespace JavaClass.TypeRegistry

variable {registry before between after : TypeRegistry} {inst other : TypeInstance}
  {type : JavaType}

/-! ## One operation for all -/

/-- Hands out a type, or refuses one that has no descriptor. -/
def handOut (registry : TypeRegistry) (type : JavaType) :
    Except Error TypeInstance × TypeRegistry :=
  if type.WellFormed then (.ok (registry.intern type).1, (registry.intern type).2)
  else (.error (.notDescriptor type.render), registry)

theorem handOut_of_wellFormed (h : type.WellFormed) :
    registry.handOut type = (.ok (registry.intern type).1, (registry.intern type).2) :=
  if_pos h

theorem handOut_of_not_wellFormed (h : ¬ type.WellFormed) :
    registry.handOut type = (.error (.notDescriptor type.render), registry) :=
  if_neg h

/-- Base types are never refused. -/
theorem primitive_eq (registry : TypeRegistry) (base : BaseType) :
    registry.handOut (.primitive base) =
      (.ok (registry.primitive base).1, (registry.primitive base).2) :=
  handOut_of_wellFormed (.primitive base)

/-- A class is refused exactly if its name is that of no class. -/
theorem classType_eq (registry : TypeRegistry) (name : String) :
    registry.classType name = registry.handOut (.classType name) := by
  unfold classType
  by_cases hname : JavaType.IsClassName name.toList
  · rw [if_pos (JavaType.isBinaryName_iff.mpr hname), handOut_of_wellFormed (.classType hname)]
  · have hbinary : ¬ JavaType.isBinaryName name.toList = true :=
      fun h => hname (JavaType.isBinaryName_iff.mp h)
    have hrefused : ¬ (JavaType.classType name).WellFormed :=
      fun h => hname (JavaType.wellFormed_classType.mp h)
    rw [if_neg hbinary, handOut_of_not_wellFormed hrefused]

/-- The type with some more dimensions than a given one. -/
def arrayOf (element : JavaType) (dimensions : Nat) : JavaType :=
  .array (flatten element dimensions).1 (flatten element dimensions).2

/-- A type that is no array is what its arrays hold. -/
theorem arrayOf_of_not_isArray (h : type.isArray = false) (dimensions : Nat) :
    arrayOf type dimensions = .array dimensions type := by
  cases type with
  | array => exact absurd h (by simp [JavaType.isArray])
  | _ => rfl

/-- The elements of an array are no arrays, and well-formed if the type is from which it was
made. -/
theorem flatten_spec (h : type.WellFormed) (dimensions : Nat) :
    (flatten type dimensions).2.WellFormed ∧ (flatten type dimensions).2.isArray = false := by
  cases h with
  | array _ helement hflat => exact ⟨helement, hflat⟩
  | primitive base => exact ⟨.primitive base, rfl⟩
  | classType hname => exact ⟨.classType hname, rfl⟩
  | method hresult hreturned harguments hvalues =>
    exact ⟨.method hresult hreturned harguments hvalues, rfl⟩

/-- An array of a type that was handed out is refused if it has no dimension, or elements that
arrays cannot hold. -/
theorem array_eq (h : inst.type.WellFormed) (dimensions : Nat) :
    registry.array inst dimensions = registry.handOut (arrayOf inst.type dimensions) := by
  obtain ⟨helement, hflat⟩ := flatten_spec h dimensions
  unfold array
  simp only
  split
  · next hrefused =>
    refine (handOut_of_not_wellFormed fun hwell => ?_).symm
    obtain ⟨hdimensions, -, -, hvalue⟩ := JavaType.wellFormed_array.mp hwell
    rcases hrefused with hzero | hvoid
    · exact absurd hzero (Nat.ne_of_gt hdimensions)
    · exact absurd (hvalue.symm.trans hvoid) (by decide)
  · next haccepted =>
    rw [not_or, Bool.not_eq_false] at haccepted
    exact (handOut_of_wellFormed
      (.array (Nat.pos_of_ne_zero haccepted.1) helement hflat haccepted.2)).symm

/-- A method of types that were handed out is refused if it returns a method, or takes what is no
value. -/
theorem method_eq {result : TypeInstance} {arguments : List TypeInstance}
    (hresult : result.type.WellFormed) (harguments : ∀ inst ∈ arguments, inst.type.WellFormed) :
    registry.method result arguments =
      registry.handOut (.method result.type (arguments.map (·.type))) := by
  unfold method
  simp only
  split
  · next hrefused =>
    refine (handOut_of_not_wellFormed fun hwell => ?_).symm
    obtain ⟨⟨-, hreturned⟩, -, hvalues⟩ := JavaType.wellFormed_method.mp hwell
    rcases hrefused with hmethod | hany
    · exact absurd (hreturned.symm.trans hmethod) (by decide)
    · obtain ⟨inst, hmem, hno⟩ := List.any_eq_true.mp hany
      rw [hvalues _ (List.mem_map_of_mem hmem)] at hno
      exact absurd hno (by decide)
  · next haccepted =>
    rw [not_or, Bool.not_eq_true, Bool.not_eq_true, List.any_eq_false] at haccepted
    refine (handOut_of_wellFormed (.method hresult haccepted.1 ?_ ?_)).symm
    · simpa using harguments
    · simpa using haccepted.2

/-! ## Registries that were filled -/

/-- A registry knows an instance by the descriptor of its type. -/
def Holds (registry : TypeRegistry) (inst : TypeInstance) : Prop :=
  registry.instances[inst.type.render]? = some inst

/-- A registry whose instances have descriptors by which they are known, and numbers of their own
below that of the next instance. -/
structure Sound (registry : TypeRegistry) : Prop where
  /-- Every instance is known by its descriptor. -/
  holds {descriptor : String} {inst : TypeInstance} :
    registry.instances[descriptor]? = some inst → inst.type.render = descriptor
  /-- Every instance has a descriptor. -/
  wellFormed {inst : TypeInstance} : registry.Holds inst → inst.type.WellFormed
  /-- The next number is that of no instance. -/
  number_lt {inst : TypeInstance} : registry.Holds inst → inst.number < registry.instances.size
  /-- No two instances have one number. -/
  number_inj {inst other : TypeInstance} :
    registry.Holds inst → registry.Holds other → inst.number = other.number → inst = other

/-- A registry keeps the instances of another. -/
def Keeps (before after : TypeRegistry) : Prop := ∀ ⦃inst⦄, before.Holds inst → after.Holds inst

theorem Keeps.refl (registry : TypeRegistry) : registry.Keeps registry := fun _ h => h

theorem Keeps.trans (first : before.Keeps between) (second : between.Keeps after) :
    before.Keeps after := fun _ h => second (first h)

/-- Handing out a type leaves a registry that holds an instance of this type and keeps all
others. -/
structure Gives (before : TypeRegistry) (type : JavaType) (found : TypeInstance)
    (after : TypeRegistry) : Prop where
  sound : after.Sound
  keeps : before.Keeps after
  holds : after.Holds found
  type_eq : found.type = type

/-- What happened before a type was handed out may be counted in. -/
theorem Gives.of_keeps {found : TypeInstance} (first : before.Keeps between)
    (second : between.Gives type found after) : before.Gives type found after :=
  ⟨second.sound, first.trans second.keeps, second.holds, second.type_eq⟩

/-- The registry that has handed out nothing is sound. -/
theorem Sound.empty : empty.Sound where
  holds h := by simp [TypeRegistry.empty] at h
  wellFormed h := by simp [Holds, TypeRegistry.empty] at h
  number_lt h := by simp [Holds, TypeRegistry.empty] at h
  number_inj h := by simp [Holds, TypeRegistry.empty] at h

namespace Sound

/-- Instances of one type are one instance. -/
theorem eq_of_type_eq (hinst : registry.Holds inst) (hother : registry.Holds other)
    (h : inst.type = other.type) : inst = other := by
  unfold Holds at hinst hother
  rw [h, hother] at hinst
  exact (Option.some.inj hinst).symm

/-- A registry with one more instance, whose descriptor was not known, holds this one and all that
it held. -/
theorem holds_insert_iff (fresh : TypeInstance)
    (hnew : registry.instances[fresh.type.render]? = none) :
    Holds ⟨registry.instances.insert fresh.type.render fresh⟩ inst ↔
      inst = fresh ∨ registry.Holds inst := by
  unfold Holds
  rw [Std.HashMap.getElem?_insert]
  split
  · next heq =>
    rw [beq_iff_eq] at heq
    rw [← heq, hnew]
    simp [eq_comm]
  · next hne =>
    rw [beq_iff_eq] at hne
    refine ⟨.inr, fun h => h.resolve_left fun heq => ?_⟩
    exact hne (by rw [heq])

/-- A registry stays sound when it gets an instance of a type that it did not know, with the next
number. -/
theorem insert (h : registry.Sound) (htype : type.WellFormed)
    (hnew : registry.instances[type.render]? = none) :
    Sound ⟨registry.instances.insert type.render ⟨registry.instances.size, type⟩⟩ := by
  have hsize : (registry.instances.insert type.render ⟨registry.instances.size, type⟩).size =
      registry.instances.size + 1 := by
    rw [Std.HashMap.size_insert, if_neg]
    rw [Std.HashMap.mem_iff_isSome_getElem?, hnew]
    decide
  have hholds {inst : TypeInstance} :=
    @holds_insert_iff registry inst ⟨registry.instances.size, type⟩ hnew
  constructor
  case holds =>
    intro descriptor inst hfound
    rw [Std.HashMap.getElem?_insert] at hfound
    split at hfound
    · next heq =>
      rw [← Option.some.inj hfound]
      exact beq_iff_eq.mp heq
    · exact h.holds hfound
  case wellFormed =>
    intro inst hinst
    rcases hholds.mp hinst with rfl | hold
    · exact htype
    · exact h.wellFormed hold
  case number_lt =>
    intro inst hinst
    rw [hsize]
    rcases hholds.mp hinst with rfl | hold
    · exact Nat.lt_succ_self _
    · exact Nat.lt_succ_of_lt (h.number_lt hold)
  case number_inj =>
    intro inst other hinst hother heq
    -- The new number is the number of instances before, and all of theirs are below it.
    rcases hholds.mp hinst with rfl | hold <;> rcases hholds.mp hother with rfl | hotherOld
    · rfl
    · exact absurd heq.symm (Nat.ne_of_lt (h.number_lt hotherOld))
    · exact absurd heq (Nat.ne_of_lt (h.number_lt hold))
    · exact h.number_inj hold hotherOld heq

/-- Interning a type that has a descriptor hands it out. -/
theorem gives_intern (h : registry.Sound) (htype : type.WellFormed) :
    registry.Gives type (registry.intern type).1 (registry.intern type).2 := by
  unfold intern
  simp only
  split
  · next found hfound =>
    have hrender := h.holds hfound
    have hheld : registry.Holds found := by
      unfold Holds
      rw [hrender, hfound]
    -- The instance under this descriptor is one of this type, as no other type has it.
    have htypes := (JavaType.WellFormed.render_inj (h.wellFormed hheld) htype).mp hrender
    exact ⟨h, .refl registry, hheld, htypes⟩
  · next hnew =>
    refine ⟨h.insert htype hnew, fun inst hold => ?_, ?_, rfl⟩
    · exact (holds_insert_iff ⟨registry.instances.size, type⟩ hnew).mpr (.inr hold)
    · exact (holds_insert_iff ⟨registry.instances.size, type⟩ hnew).mpr (.inl rfl)

/-- A registry hands out a type that has a descriptor, and nothing else happens to it. -/
theorem handOut_cases (h : registry.Sound) (type : JavaType) :
    (type.WellFormed ∧ ∃ found after, registry.handOut type = (.ok found, after) ∧
        registry.Gives type found after) ∨
      (¬ type.WellFormed ∧
        registry.handOut type = (.error (.notDescriptor type.render), registry)) := by
  by_cases htype : type.WellFormed
  · exact .inl ⟨htype, _, _, handOut_of_wellFormed htype, h.gives_intern htype⟩
  · exact .inr ⟨htype, handOut_of_not_wellFormed htype⟩

end Sound

end JavaClass.TypeRegistry
