import JavaClass.Proofs.TypeRegistry.Descriptor

/-!
# Runs of registries

A registry is asked for one type after another, by any of the calls that it answers, with instances
that were returned before. Whatever was asked and refused, the instances that one registry returned
are told apart by their types, and these by their descriptors.

- `TypeRegistry.Call`, `TypeRegistry.perform`: calls that ask for a type.
- `TypeRegistry.Reachable`, `TypeRegistry.Returned`: the registries and the instances there are.
- `TypeRegistry.Run`: calls on one registry.
- `TypeRegistry.Canonical`: what is true of the instances that a registry returned.
- `TypeRegistry.canonical_of_run`: it is true of every run.
-/

namespace JavaClass.TypeRegistry

/-! ## Calls -/

/-- A call that asks a registry for a type. -/
inductive Call where
  /-- A primitive type or `void`. -/
  | primitive (base : BaseType)
  /-- A class or an interface, by its name. -/
  | classType (name : String)
  /-- A type with more dimensions than a given one. -/
  | array (element : TypeInstance) (dimensions : Nat)
  /-- The methods that take and return given types. -/
  | method (result : TypeInstance) (arguments : List TypeInstance)
  /-- The type of a descriptor. -/
  | parse (descriptor : String)

namespace Call

/-- The instances that a call takes. -/
def parts : Call → List TypeInstance
  | array element _ => [element]
  | method result arguments => result :: arguments
  | _ => []

/-- A call asks for a type. -/
def Asks : Call → JavaType → Prop
  | primitive base, type => type = .primitive base
  | classType name, type => type = .classType name
  | array element dimensions, type => type = arrayOf element.type dimensions
  | method result arguments, type => type = .method result.type (arguments.map (·.type))
  | parse descriptor, type => type.render = descriptor

end Call

/-- The answer to a call, and the registry that the call leaves. -/
def perform (registry : TypeRegistry) : Call → Except Error TypeInstance × TypeRegistry
  | .primitive base => (.ok (registry.primitive base).1, (registry.primitive base).2)
  | .classType name => registry.classType name
  | .array element dimensions => registry.array element dimensions
  | .method result arguments => registry.method result arguments
  | .parse descriptor => registry.parse descriptor

variable {registry after : TypeRegistry} {call : Call} {found : TypeInstance}
  {history : List (Call × TypeInstance)}

/-- A call serves: it leaves every instance, and what it returns is an instance of the type that it
asks for. -/
structure Serves (registry : TypeRegistry) (call : Call) : Prop where
  sound : (registry.perform call).2.Sound
  keeps : registry.Keeps (registry.perform call).2
  returns {found : TypeInstance} :
    (registry.perform call).1 = .ok found →
      call.Asks found.type ∧ (registry.perform call).2.Holds found

/-- A call that hands out a type that it asks for serves. -/
theorem Serves.of_gives {type : JavaType} (heq : registry.perform call = (.ok found, after))
    (hgives : registry.Gives type found after) (hasks : call.Asks type) :
    registry.Serves call := by
  constructor <;> rw [heq]
  · exact hgives.sound
  · exact hgives.keeps
  · intro other hother
    obtain rfl := Except.ok.inj hother
    exact ⟨hgives.type_eq ▸ hasks, hgives.holds⟩

/-- A call that is refused serves if it leaves every instance. -/
theorem Serves.of_error {cause : Error} (heq : registry.perform call = (.error cause, after))
    (hsound : after.Sound) (hkeeps : registry.Keeps after) : registry.Serves call := by
  constructor <;> rw [heq]
  · exact hsound
  · exact hkeeps
  · intro other hother
    cases hother

/-- A call that does nothing but to hand out a type that it asks for serves. -/
theorem Sound.serves_of_eq_handOut (h : registry.Sound) {type : JavaType} (hasks : call.Asks type)
    (heq : registry.perform call = registry.handOut type) : registry.Serves call := by
  rcases h.handOut_cases type with ⟨-, found, after, hcall, hgives⟩ | ⟨-, hcall⟩
  · exact .of_gives (heq.trans hcall) hgives hasks
  · exact .of_error (heq.trans hcall) h (.refl registry)

/-- Every call serves that takes instances with descriptors. -/
theorem Sound.serves (h : registry.Sound) (call : Call)
    (hparts : ∀ part ∈ call.parts, part.type.WellFormed) : registry.Serves call := by
  cases call with
  | primitive base => exact h.serves_of_eq_handOut rfl (primitive_eq registry base).symm
  | classType name => exact h.serves_of_eq_handOut rfl (classType_eq registry name)
  | array element dimensions =>
    have helement := hparts element List.mem_cons_self
    exact h.serves_of_eq_handOut rfl (array_eq helement dimensions)
  | method result arguments =>
    obtain ⟨hresult, harguments⟩ := List.forall_mem_cons.mp hparts
    exact h.serves_of_eq_handOut rfl (method_eq hresult harguments)
  | parse descriptor =>
    by_cases hsome : ∃ type : JavaType, type.WellFormed ∧ type.render = descriptor
    · obtain ⟨type, htype, rfl⟩ := hsome
      obtain ⟨found, after, hgives, hparse⟩ := parse_render htype h
      exact .of_gives hparse hgives rfl
    · obtain ⟨after, hparse, hsound, hkeeps⟩ := parse_of_forall_ne h fun type htype heq =>
        hsome ⟨type, htype, heq⟩
      exact .of_error hparse hsound hkeeps

/-! ## Registries and instances that there are -/

mutual

/-- The registries that come from the one that has handed out nothing by calls. The instances that
a call takes may come from any registry. -/
inductive Reachable : TypeRegistry → Prop where
  /-- The registry that has handed out nothing. -/
  | empty : Reachable empty
  /-- The registry that a call leaves. -/
  | perform {registry : TypeRegistry} {call : Call} (h : Reachable registry)
    (hparts : ∀ part ∈ call.parts, Returned part) : Reachable (registry.perform call).2

/-- The instances that were returned by registries. -/
inductive Returned : TypeInstance → Prop where
  /-- The instance that a call returns. -/
  | perform {registry : TypeRegistry} {call : Call} {found : TypeInstance}
    (h : Reachable registry) (hparts : ∀ part ∈ call.parts, Returned part)
    (hfound : (registry.perform call).1 = .ok found) : Returned found

end

mutual

/-- Every registry is sound. -/
theorem Reachable.sound : {registry : TypeRegistry} → registry.Reachable → registry.Sound
  | _, .empty => .empty
  | _, @Reachable.perform _ call h hparts =>
    (h.sound.serves call fun part hpart => (hparts part hpart).wellFormed).sound

/-- Every instance that was returned has a descriptor. -/
theorem Returned.wellFormed : {found : TypeInstance} → Returned found → found.type.WellFormed
  | _, @Returned.perform _ call _ h hparts hfound =>
    have hserves := h.sound.serves call fun part hpart => (hparts part hpart).wellFormed
    hserves.sound.wellFormed (hserves.returns hfound).2

end

/-! ## Runs -/

/-- Calls on one registry, of which those that returned an instance are listed with it. A call takes
instances that were returned by this registry before. -/
inductive Run : List (Call × TypeInstance) → TypeRegistry → Prop where
  /-- No call has been made. -/
  | nil : Run [] empty
  /-- A call returns an instance. -/
  | returned {history : List (Call × TypeInstance)} {registry after : TypeRegistry} {call : Call}
    {found : TypeInstance} (h : Run history registry)
    (hparts : ∀ part ∈ call.parts, ∃ earlier, (earlier, part) ∈ history)
    (hcall : registry.perform call = (.ok found, after)) : Run (history ++ [(call, found)]) after
  /-- A call is refused. -/
  | refused {history : List (Call × TypeInstance)} {registry after : TypeRegistry} {call : Call}
    {cause : Error} (h : Run history registry)
    (hparts : ∀ part ∈ call.parts, ∃ earlier, (earlier, part) ∈ history)
    (hcall : registry.perform call = (.error cause, after)) : Run history after

/-- What a run keeps: the registry is sound and holds every instance that was returned. These are of
the types that the calls asked for, and the calls took such instances. -/
structure Run.Kept (history : List (Call × TypeInstance)) (registry : TypeRegistry) : Prop where
  sound : registry.Sound
  holds : ∀ step ∈ history, registry.Holds step.2
  asks : ∀ step ∈ history, step.1.Asks step.2.type
  parts : ∀ step ∈ history, ∀ part ∈ step.1.parts, ∃ earlier, (earlier, part) ∈ history

namespace Run

/-- The instances that a registry returned have descriptors. -/
theorem Kept.wellFormed (h : Kept history registry) (step : Call × TypeInstance)
    (hstep : step ∈ history) : step.2.type.WellFormed :=
  h.sound.wellFormed (h.holds step hstep)

/-- The instances that a call takes have descriptors if they were returned. -/
theorem Kept.wellFormed_parts (h : Kept history registry)
    (hparts : ∀ part ∈ call.parts, ∃ earlier, (earlier, part) ∈ history) :
    ∀ part ∈ call.parts, part.type.WellFormed := by
  intro part hpart
  obtain ⟨earlier, hmem⟩ := hparts part hpart
  exact h.wellFormed (earlier, part) hmem

/-- Every run keeps this. -/
theorem kept (h : Run history registry) : Kept history registry := by
  induction h with
  | nil => exact ⟨.empty, by simp, by simp, by simp⟩
  | @returned history registry after call found h hparts hcall ih =>
    obtain ⟨hsound, hkeeps, hreturns⟩ := ih.sound.serves call (ih.wellFormed_parts hparts)
    rw [hcall] at hsound hkeeps hreturns
    -- All earlier instances are still held, and the new one is held and of the type asked for.
    obtain ⟨hasks, hholds⟩ := hreturns rfl
    have there {part : TypeInstance} : (∃ earlier, (earlier, part) ∈ history) →
        ∃ earlier, (earlier, part) ∈ history ++ [(call, found)] := by
      rintro ⟨earlier, hmem⟩
      exact ⟨earlier, List.mem_append_left _ hmem⟩
    refine ⟨hsound, ?_, ?_, ?_⟩ <;> rw [List.forall_mem_append, List.forall_mem_singleton]
    · exact ⟨fun step hstep => hkeeps (ih.holds step hstep), hholds⟩
    · exact ⟨ih.asks, hasks⟩
    · exact ⟨fun step hstep part hpart => there (ih.parts step hstep part hpart),
        fun part hpart => there (hparts part hpart)⟩
  | @refused history registry after call cause h hparts hcall ih =>
    -- Parsing may have handed out types before it was refused, but no instance was lost.
    obtain ⟨hsound, hkeeps, -⟩ := ih.sound.serves call (ih.wellFormed_parts hparts)
    rw [hcall] at hsound hkeeps
    exact ⟨hsound, fun step hstep => hkeeps (ih.holds step hstep), ih.asks, ih.parts⟩

end Run

/-! ## Instances and their types -/

/-- What is true of the instances that a registry returned. -/
structure Canonical (history : List (Call × TypeInstance)) (registry : TypeRegistry) : Prop where
  /-- They have descriptors. -/
  wellFormed : ∀ step ∈ history, step.2.type.WellFormed
  /-- Two of them are one instance exactly if they are of one type. -/
  number_eq_iff : ∀ first ∈ history, ∀ second ∈ history,
    first.2.number = second.2.number ↔ first.2.type = second.2.type
  /-- They are of one type exactly if they have one descriptor. -/
  type_eq_iff : ∀ first ∈ history, ∀ second ∈ history,
    first.2.type = second.2.type ↔ first.2.type.render = second.2.type.render
  /-- Their descriptors are parsed as these very instances. -/
  parse_render : ∀ step ∈ history, (registry.parse step.2.type.render).1 = .ok step.2
  /-- An array of an array is the one with the dimensions of both, and the instance that was
  returned if one of them was asked for before. -/
  array_array : ∀ element inner grid, (.array element inner, grid) ∈ history → ∀ outer,
    ∃ found after, registry.array grid outer = (.ok found, after) ∧
      registry.array element (inner + outer) = (.ok found, after) ∧
      ∀ step ∈ history, step.1 = .array grid outer ∨ step.1 = .array element (inner + outer) →
        step.2 = found

/-- Dimensions that are added to those of an array add up. -/
theorem arrayOf_arrayOf (type : JavaType) (inner outer : Nat) :
    arrayOf (arrayOf type inner) outer = arrayOf type (inner + outer) := by
  cases type <;> simp [arrayOf, flatten, Nat.add_assoc]

/-- An array may have more dimensions than it has. -/
theorem wellFormed_arrayOf {type : JavaType} {inner : Nat} (h : (arrayOf type inner).WellFormed)
    (outer : Nat) : (arrayOf (arrayOf type inner) outer).WellFormed := by
  obtain ⟨hdimensions, helement, hflat, hvalue⟩ := JavaType.wellFormed_array.mp h
  exact .array (Nat.le_add_right_of_le hdimensions) helement hflat hvalue

namespace Run.Kept

/-- Instances that were returned have one number exactly if they are of one type. -/
theorem number_eq_iff (h : Kept history registry) {first second : Call × TypeInstance}
    (hfirst : first ∈ history) (hsecond : second ∈ history) :
    first.2.number = second.2.number ↔ first.2.type = second.2.type := by
  have hholds := h.holds first hfirst
  have hother := h.holds second hsecond
  constructor
  · intro hnumbers
    rw [h.sound.number_inj hholds hother hnumbers]
  · intro htypes
    rw [Sound.eq_of_type_eq hholds hother htypes]

/-- The descriptor of an instance that was returned is parsed as this instance. -/
theorem parse_render (h : Kept history registry) {step : Call × TypeInstance}
    (hstep : step ∈ history) : (registry.parse step.2.type.render).1 = .ok step.2 := by
  obtain ⟨found, after, hgives, hparse⟩ :=
    TypeRegistry.parse_render (h.wellFormed step hstep) h.sound
  have hheld := hgives.keeps (h.holds step hstep)
  rw [hparse, Sound.eq_of_type_eq hgives.holds hheld hgives.type_eq]

/-- An array of an array that was returned is the one with the dimensions of both. -/
theorem array_array (h : Kept history registry) {element grid : TypeInstance} {inner : Nat}
    (hgrid : (.array element inner, grid) ∈ history) (outer : Nat) :
    ∃ found after, registry.array grid outer = (.ok found, after) ∧
      registry.array element (inner + outer) = (.ok found, after) ∧
      ∀ step ∈ history, step.1 = .array grid outer ∨ step.1 = .array element (inner + outer) →
        step.2 = found := by
  have hasked : grid.type = arrayOf element.type inner := h.asks _ hgrid
  have helement := h.wellFormed_parts (h.parts _ hgrid) element List.mem_cons_self
  have hinner := h.wellFormed _ hgrid
  have hwell : (arrayOf element.type (inner + outer)).WellFormed := by
    rw [← arrayOf_arrayOf]
    exact wellFormed_arrayOf (hasked ▸ hinner) outer
  -- Both calls ask for this type.
  obtain ⟨-, found, after, hcall, hgives⟩ :=
    (h.sound.handOut_cases (arrayOf element.type (inner + outer))).resolve_right
      fun hrefused => hrefused.1 hwell
  refine ⟨found, after, ?_, ?_, fun step hstep hcalls => ?_⟩
  · rw [array_eq hinner, hasked, arrayOf_arrayOf, hcall]
  · rw [array_eq helement, hcall]
  · have htype : step.2.type = arrayOf element.type (inner + outer) := by
      have hasks := h.asks step hstep
      rcases hcalls with heq | heq <;> rw [heq] at hasks
      · exact hasks.trans (by rw [hasked, arrayOf_arrayOf])
      · exact hasks
    exact Sound.eq_of_type_eq (hgives.keeps (h.holds step hstep)) hgives.holds
      (htype.trans hgives.type_eq.symm)

end Run.Kept

/-- Whatever calls were made on a registry, the instances that it returned are told apart by their
types, and these by their descriptors. -/
theorem canonical_of_run (h : Run history registry) : Canonical history registry := by
  have hkept := h.kept
  constructor
  case wellFormed => exact hkept.wellFormed
  case number_eq_iff =>
    intro first hfirst second hsecond
    exact hkept.number_eq_iff hfirst hsecond
  case type_eq_iff =>
    intro first hfirst second hsecond
    have hwell := hkept.wellFormed first hfirst
    exact (hwell.render_inj (hkept.wellFormed second hsecond)).symm
  case parse_render =>
    intro step hstep
    exact hkept.parse_render hstep
  case array_array =>
    intro element inner grid hgrid outer
    exact hkept.array_array hgrid outer

/-- For instance, an array of integers that is asked for and then parsed, with a call in between
that is refused. -/
theorem canonical_of_run_grid :
    ∃ int grid registry,
      Run [(.primitive .int, int), (.array int 2, grid), (.parse "[[I", grid)] registry ∧
        Canonical [(.primitive .int, int), (.array int 2, grid), (.parse "[[I", grid)]
          registry := by
  have hgives := Sound.empty.gives_intern (.primitive .int)
  generalize hprimitive : empty.intern (.primitive .int) = answer at hgives
  obtain ⟨int, first⟩ := answer
  have hwell : int.type.WellFormed := hgives.sound.wellFormed hgives.holds
  have hint : Run [(.primitive .int, int)] first := by
    refine .returned .nil (by simp [Call.parts]) ?_
    rw [perform, primitive, hprimitive]
  -- An array must have a dimension.
  have hrefused : first.perform (.array int 0) = (.error (.notDescriptor "I"), first) := by
    rw [perform, array_eq hwell, hgives.type_eq, handOut_of_not_wellFormed (by decide)]
    rfl
  have hfailed : Run [(.primitive .int, int)] first :=
    .refused hint (by simp [Call.parts]) hrefused
  rcases hgives.sound.handOut_cases (arrayOf int.type 2) with
    ⟨-, grid, second, hcall, hmade⟩ | ⟨hnot, -⟩
  · have harray : first.perform (.array int 2) = (.ok grid, second) :=
      (array_eq hwell 2).trans hcall
    have hgrid : Run [(.primitive .int, int), (.array int 2, grid)] second :=
      .returned hfailed (by simp [Call.parts]) harray
    rw [hgives.type_eq] at hmade
    obtain ⟨parsed, third, hparsed, hparse⟩ :=
      @parse_render second (.array 2 (.primitive .int)) (by decide) hmade.sound
    have hsame : parsed = grid := Sound.eq_of_type_eq hparsed.holds (hparsed.keeps hmade.holds)
      (hparsed.type_eq.trans hmade.type_eq.symm)
    have hagain : second.perform (.parse "[[I") = (.ok grid, third) := by
      rw [hsame] at hparse
      exact hparse
    have hall : Run [(.primitive .int, int), (.array int 2, grid), (.parse "[[I", grid)] third :=
      .returned hgrid (by simp [Call.parts]) hagain
    exact ⟨int, grid, third, hall, canonical_of_run hall⟩
  · rw [hgives.type_eq] at hnot
    exact absurd (by decide) hnot

end JavaClass.TypeRegistry
