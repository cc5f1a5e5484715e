import JavaClass.Proofs.TypeRegistry
import JavaClass.TypeRegistry.Descriptor
import Mathlib.Data.List.TakeWhile

/-!
# Parsing is the inverse of rendering

The machine that parses descriptors is not recursive, but types are. In front of the descriptor of a
type, the machine stacks the type and goes on with what it had to do before, whatever that is and
whatever follows the descriptor. In front of anything else it stops.

- `DescriptorMachine.run_of_cons`: runs action by action.
- `DescriptorMachine.Makes`, `DescriptorMachine.makes_method`: what is made of the parts of a type.
- `DescriptorMachine.Reads`, `DescriptorMachine.reads_of_wellFormed`: descriptors are read.
- `DescriptorMachine.Refuses`, `DescriptorMachine.startsWithType_or_refuses`: nothing else is read.
- `TypeRegistry.parse_render`, `TypeRegistry.parse_of_forall_ne`: what parsing answers.
-/

namespace JavaClass

namespace DescriptorMachine

variable {registry after : TypeRegistry} {rest : List Char} {actions : List DescriptorAction}
  {values innermost : List TypeInstance} {arguments : List (List TypeInstance)}
  {inst : TypeInstance} {type : JavaType}

/-! ## Runs action by action -/

/-- A run without actions is at its end. -/
theorem run_of_nil {machine : DescriptorMachine} (h : machine.actions = []) :
    machine.run = (machine.finish, machine.registry) := by
  rw [run]
  split
  · rfl
  · next heq => exact absurd (h.symm.trans heq) (by simp)

/-- A run is what the next action does, and a run from there unless it stops the machine. -/
theorem run_of_cons {machine : DescriptorMachine} {action : DescriptorAction}
    (h : machine.actions = action :: actions) :
    machine.run =
      match step { machine with actions } action with
      | .error (fault, after) => (.error fault, after)
      | .ok next => next.run := by
  rw [run]
  split
  · next heq => exact absurd (h.symm.trans heq) (by simp)
  · next heq =>
    obtain ⟨rfl, rfl⟩ := List.cons.inj (h.symm.trans heq)
    split <;> simp_all

theorem run_cons (action : DescriptorAction) :
    run ⟨registry, rest, action :: actions, values, arguments⟩ =
      match step ⟨registry, rest, actions, values, arguments⟩ action with
      | .error (fault, after) => (.error fault, after)
      | .ok next => next.run :=
  run_of_cons rfl

/-! ## What the actions do -/

/-- The machine where the arguments of a method end or go on. -/
def atArguments (registry : TypeRegistry) (rest : List Char) (actions : List DescriptorAction)
    (values : List TypeInstance) (arguments : List (List TypeInstance)) : DescriptorMachine :=
  ⟨registry, (afterArgument rest actions).1, (afterArgument rest actions).2, values, arguments⟩

/-- At a parenthesis, the arguments end. -/
theorem atArguments_close :
    atArguments registry (')' :: rest) actions values arguments =
      ⟨registry, rest, .getType :: actions, values, arguments⟩ := rfl

/-- At anything else, there is another argument. -/
theorem atArguments_go_on (h : rest.head? ≠ some ')') :
    atArguments registry rest actions values arguments =
      ⟨registry, rest, .getType :: .addArgument :: actions, values, arguments⟩ := by
  unfold atArguments afterArgument
  split
  · exact absurd rfl h
  · rfl

theorem getType_base (base : BaseType) :
    getType ⟨registry, base.code :: rest, actions, values, arguments⟩ =
      .ok ⟨(registry.primitive base).2, rest, actions, (registry.primitive base).1 :: values,
        arguments⟩ := by
  cases base <;> rfl

theorem getType_class {name : List Char} (h : ∀ c ∈ name, c ≠ ';') :
    getType ⟨registry, 'L' :: (name ++ ';' :: rest), actions, values, arguments⟩ =
      withValue ⟨{}, rest, actions, values, arguments⟩ .badName
        (registry.classType (String.ofList name)) := by
  have hname : (name ++ ';' :: rest).takeWhile (· != ';') = name := by
    rw [List.takeWhile_append_of_pos (by simpa using h), List.takeWhile_cons_of_neg (by simp),
      List.append_nil]
  simp only [getType, hname, List.drop_left]

theorem getType_openName (h : ';' ∉ rest) :
    getType ⟨registry, 'L' :: rest, actions, values, arguments⟩ = .error (.openName, registry) := by
  have hname : rest.takeWhile (· != ';') = rest :=
    List.takeWhile_eq_self_iff.mpr fun c hc => bne_iff_ne.mpr fun heq => h (heq ▸ hc)
  simp only [getType, hname, List.drop_length]

theorem getType_badCode {letter : Char} (hclass : letter ≠ 'L') (hbracket : letter ≠ '[')
    (hopen : letter ≠ '(') (hbase : BaseType.ofCode? letter = none) :
    getType ⟨registry, letter :: rest, actions, values, arguments⟩ =
      .error (.badCode, registry) := by
  unfold getType
  simp only
  split <;> simp_all

/-- Brackets end at another character or at the end of the input. -/
theorem exists_brackets : (input : List Char) →
    ∃ more tail, input = List.replicate more '[' ++ tail ∧ tail.head? ≠ some '['
  | [] => ⟨0, [], rfl, by simp⟩
  | c :: input => by
    by_cases hbracket : c = '['
    · obtain ⟨more, tail, heq, hend⟩ := exists_brackets input
      refine ⟨more + 1, tail, ?_, hend⟩
      rw [hbracket, heq, List.replicate_succ, List.cons_append]
    · exact ⟨0, c :: input, rfl, by simpa using hbracket⟩

theorem getType_brackets (more : Nat) (h : rest.head? ≠ some '[') :
    getType ⟨registry, '[' :: (List.replicate more '[' ++ rest), actions, values, arguments⟩ =
      .ok ⟨registry, rest, .getType :: .makeArray (1 + more) :: actions, values, arguments⟩ := by
  have hinner : (List.replicate more '[' ++ rest).takeWhile (· == '[') =
      List.replicate more '[' := by
    rw [List.takeWhile_append_of_pos (by simp)]
    cases rest with
    | nil => simp
    | cons c rest => rw [List.takeWhile_cons_of_neg (by simpa using h), List.append_nil]
  have hrest : (List.replicate more '[' ++ rest).drop more = rest :=
    List.drop_left' List.length_replicate
  simp only [getType, hinner, hrest, List.length_replicate]

theorem getType_open :
    getType ⟨registry, '(' :: rest, actions, values, arguments⟩ =
      .ok (atArguments registry rest (.makeMethod :: actions) values ([] :: arguments)) := rfl

theorem addArgument_of_isElement (h : inst.type.isElement = true) :
    addArgument ⟨registry, rest, actions, inst :: values, innermost :: arguments⟩ =
      .ok (atArguments registry rest actions values ((inst :: innermost) :: arguments)) := by
  simp only [addArgument, h, if_true]
  rfl

theorem addArgument_of_not_isElement (h : ¬ inst.type.isElement = true) :
    addArgument ⟨registry, rest, actions, inst :: values, arguments⟩ =
      .error (.badArgument, registry) := by
  simp only [addArgument, h]
  rfl

theorem makeArray_cons (h : inst.type.WellFormed) (dimensions : Nat) :
    makeArray dimensions ⟨registry, rest, actions, inst :: values, arguments⟩ =
      withValue ⟨{}, rest, actions, values, arguments⟩ .badElement
        (registry.handOut (TypeRegistry.arrayOf inst.type dimensions)) := by
  rw [← TypeRegistry.array_eq h]
  rfl

theorem makeMethod_cons (hresult : inst.type.WellFormed)
    (harguments : ∀ argument ∈ innermost, argument.type.WellFormed) :
    makeMethod ⟨registry, rest, actions, inst :: values, innermost :: arguments⟩ =
      withValue ⟨{}, rest, actions, values, arguments⟩ .badResult
        (registry.handOut (.method inst.type (innermost.reverse.map (·.type)))) := by
  rw [← TypeRegistry.method_eq hresult (by simpa using harguments)]
  rfl

/-- A type that has a descriptor is handed out and stacked. -/
theorem exists_withValue (h : registry.Sound) (htype : type.WellFormed) :
    ∃ found after, registry.Gives type found after ∧ ∀ (machine : DescriptorMachine) fault,
      machine.withValue fault (registry.handOut type) =
        .ok { machine with registry := after, values := found :: machine.values } := by
  refine ⟨_, _, h.gives_intern htype, fun machine fault => ?_⟩
  rw [TypeRegistry.handOut_of_wellFormed htype]
  rfl

/-- A type that has no descriptor stops the machine. -/
theorem withValue_of_not_wellFormed (h : ¬ type.WellFormed) (machine : DescriptorMachine)
    (fault : DescriptorFault) :
    machine.withValue fault (registry.handOut type) = .error (fault, registry) := by
  rw [TypeRegistry.handOut_of_not_wellFormed h]
  rfl

/-! ## Descriptors are read -/

/-- The machine reads a type: in front of its descriptor, it stacks the type and goes on behind it
with what it had to do before. -/
def Reads (type : JavaType) : Prop :=
  ∀ ⦃registry : TypeRegistry⦄, registry.Sound → ∀ rest actions values arguments,
    ∃ found after, registry.Gives type found after ∧
      run ⟨registry, type.renderChars ++ rest, .getType :: actions, values, arguments⟩ =
        run ⟨after, rest, actions, found :: values, arguments⟩

/-- Arguments of which each is read are added to those of the innermost method, up to the
parenthesis behind which its result is read. -/
theorem reads_arguments {types : List JavaType} (hreads : ∀ type ∈ types, Reads type)
    (hwell : ∀ type ∈ types, type.WellFormed) (hvalues : ∀ type ∈ types, type.isElement = true)
    (h : registry.Sound) (rest : List Char) (actions : List DescriptorAction)
    (values innermost : List TypeInstance) (arguments : List (List TypeInstance)) :
    ∃ (found : List TypeInstance) (after : TypeRegistry), after.Sound ∧ registry.Keeps after ∧
      found.map (·.type) = types ∧
      run (atArguments registry (JavaType.renderEach types ++ ')' :: rest) actions values
          (innermost :: arguments)) =
        run ⟨after, rest, .getType :: actions, values,
          (found.reverse ++ innermost) :: arguments⟩ := by
  -- Behind an argument, the machine is again where the arguments end or go on, with one more.
  induction types generalizing registry innermost with
  | nil => exact ⟨[], registry, h, .refl registry, rfl, rfl⟩
  | cons type types ih =>
    obtain ⟨hreads, hreadsAll⟩ := List.forall_mem_cons.mp hreads
    obtain ⟨hwell, hwellAll⟩ := List.forall_mem_cons.mp hwell
    obtain ⟨hvalue, hvaluesAll⟩ := List.forall_mem_cons.mp hvalues
    obtain ⟨found, between, hgives, hrun⟩ :=
      hreads h (JavaType.renderEach types ++ ')' :: rest) (.addArgument :: actions) values
        (innermost :: arguments)
    obtain ⟨more, after, hsound, hkeeps, htypes, hrest⟩ :=
      ih hreadsAll hwellAll hvaluesAll hgives.sound (found :: innermost)
    have hstart : (type.renderChars ++ (JavaType.renderEach types ++ ')' :: rest)).head? ≠
        some ')' := by
      obtain ⟨_, heq⟩ := hwell.exists_renderChars_eq
      rw [heq]
      simpa using type.lead_ne_close
    have hadd : step ⟨between, JavaType.renderEach types ++ ')' :: rest, actions, found :: values,
        innermost :: arguments⟩ .addArgument =
          .ok (atArguments between (JavaType.renderEach types ++ ')' :: rest) actions values
            ((found :: innermost) :: arguments)) :=
      addArgument_of_isElement (by rwa [hgives.type_eq])
    refine ⟨found :: more, after, hsound, hgives.keeps.trans hkeeps, ?_, ?_⟩
    · rw [List.map_cons, hgives.type_eq, htypes]
    · rw [JavaType.renderEach, List.append_assoc, atArguments_go_on hstart, hrun, run_cons, hadd,
        List.reverse_cons, List.append_assoc]
      exact hrest

/-- The machine makes a type: in front of its text, it does what it has to do before and then hands
the type out. A type that has no descriptor can be made, too, and is refused then. -/
def Makes (type : JavaType) : Prop :=
  ∀ ⦃registry : TypeRegistry⦄, registry.Sound → ∀ rest actions values arguments,
    ∃ (fault : DescriptorFault) (between : TypeRegistry), between.Sound ∧ registry.Keeps between ∧
      run ⟨registry, type.renderChars ++ rest, .getType :: actions, values, arguments⟩ =
        match withValue ⟨{}, rest, actions, values, arguments⟩ fault (between.handOut type) with
        | .error (fault, after) => (.error fault, after)
        | .ok next => next.run

/-- A type that is made and has a descriptor is read. -/
theorem Makes.reads (h : Makes type) (htype : type.WellFormed) : Reads type := by
  intro registry hsound rest actions values arguments
  obtain ⟨fault, between, hbetween, hkeeps, hrun⟩ := h hsound rest actions values arguments
  obtain ⟨found, after, hgives, hvalue⟩ := exists_withValue hbetween htype
  refine ⟨found, after, hgives.of_keeps hkeeps, ?_⟩
  rw [hrun, hvalue]

theorem makes_primitive (base : BaseType) : Makes (.primitive base) := by
  intro registry hsound rest actions values arguments
  refine ⟨.badCode, registry, hsound, .refl registry, ?_⟩
  rw [JavaType.renderChars, List.singleton_append, run_cons, step, getType_base,
    TypeRegistry.primitive_eq]
  rfl

/-- A class is made if its name ends at the semicolon behind it. -/
theorem makes_class {name : String} (h : ∀ c ∈ name.toList, c ≠ ';') :
    Makes (.classType name) := by
  intro registry hsound rest actions values arguments
  refine ⟨.badName, registry, hsound, .refl registry, ?_⟩
  have hchars : (JavaType.classType name).renderChars ++ rest =
      'L' :: (name.toList ++ ';' :: rest) := by
    simp [JavaType.renderChars]
  rw [hchars, run_cons, step, getType_class h, String.ofList_toList, TypeRegistry.classType_eq]

theorem renderChars_array (more : Nat) (element : JavaType) :
    (JavaType.array (1 + more) element).renderChars =
      '[' :: (List.replicate more '[' ++ element.renderChars) := by
  rw [JavaType.renderChars, Nat.add_comm, List.replicate_succ, List.cons_append]

/-- An array is made of elements that are read and no arrays. Such would add their brackets to its
own. -/
theorem makes_array {element : JavaType} (hreads : Reads element) (helement : element.WellFormed)
    (hflat : element.isArray = false) (more : Nat) : Makes (.array (1 + more) element) := by
  intro registry hsound rest actions values arguments
  obtain ⟨inner, between, hinner, hread⟩ :=
    hreads hsound rest (.makeArray (1 + more) :: actions) values arguments
  refine ⟨.badElement, between, hinner.sound, hinner.keeps, ?_⟩
  have hend : (element.renderChars ++ rest).head? ≠ some '[' := by
    obtain ⟨_, heq⟩ := helement.exists_renderChars_eq
    rw [heq]
    simpa using JavaType.lead_ne_bracket hflat
  rw [renderChars_array, List.cons_append, List.append_assoc, run_cons, step,
    getType_brackets more hend]
  simp only
  rw [hread, run_cons, step, makeArray_cons (by rwa [hinner.type_eq]), hinner.type_eq,
    TypeRegistry.arrayOf_of_not_isArray hflat]

/-- A method is made of values and a result that are read. -/
theorem makes_method {types : List JavaType} {result : JavaType}
    (hreads : ∀ type ∈ types, Reads type) (hwell : ∀ type ∈ types, type.WellFormed)
    (hvalues : ∀ type ∈ types, type.isElement = true) (hreturns : Reads result)
    (hresult : result.WellFormed) : Makes (.method result types) := by
  intro registry hsound rest actions values arguments
  obtain ⟨taken, between, hbetween, hkeeps, htypes, hread⟩ :=
    reads_arguments hreads hwell hvalues hsound (result.renderChars ++ rest)
      (.makeMethod :: actions) values [] arguments
  obtain ⟨returned, after, hgives, hlast⟩ :=
    hreturns hbetween rest (.makeMethod :: actions) values (taken.reverse :: arguments)
  refine ⟨.badResult, after, hgives.sound, hkeeps.trans hgives.keeps, ?_⟩
  have hchars : (JavaType.method result types).renderChars ++ rest =
      '(' :: (JavaType.renderEach types ++ ')' :: (result.renderChars ++ rest)) := by
    simp [JavaType.renderChars]
  have htaken : ∀ inst ∈ taken.reverse, inst.type.WellFormed := fun inst hinst =>
    hwell _ (htypes ▸ List.mem_map_of_mem (List.mem_reverse.mp hinst))
  rw [hchars, run_cons, step, getType_open]
  simp only
  rw [hread, List.append_nil, hlast, run_cons, step,
    makeMethod_cons (by rwa [hgives.type_eq]) htaken, hgives.type_eq, List.reverse_reverse, htypes]

/-- Every type that has a descriptor is read. -/
theorem reads_of_wellFormed (h : type.WellFormed) : Reads type := by
  induction h with
  | primitive base => exact (makes_primitive base).reads (.primitive base)
  | classType hname => exact (makes_class hname.ne_semicolon).reads (.classType hname)
  | array hdimensions helement hflat hvalue ih =>
    obtain ⟨more, rfl⟩ := Nat.exists_eq_add_of_le hdimensions
    exact (makes_array ih helement hflat more).reads (.array hdimensions helement hflat hvalue)
  | method hresult hreturned harguments hvalues ihresult iharguments =>
    exact (makes_method iharguments harguments hvalues ihresult hresult).reads
      (.method hresult hreturned harguments hvalues)

/-! ## Nothing else is read -/

/-- A run stops without a type. What was handed out before stays. -/
def Stops (registry : TypeRegistry) (machine : DescriptorMachine) : Prop :=
  ∃ fault after, machine.run = (.error fault, after) ∧ after.Sound ∧ registry.Keeps after

/-- The machine refuses an input: in front of it, it stops, whatever it had to do. -/
def Refuses (input : List Char) : Prop :=
  ∀ ⦃registry : TypeRegistry⦄, registry.Sound → ∀ actions values arguments,
    Stops registry ⟨registry, input, .getType :: actions, values, arguments⟩

/-- The machine refuses an input where the arguments of a method end or go on. -/
def RefusesArguments (input : List Char) : Prop :=
  ∀ ⦃registry : TypeRegistry⦄, registry.Sound → ∀ actions values innermost arguments,
    Stops registry (atArguments registry input actions values (innermost :: arguments))

/-- An input starts with the descriptor of a type. -/
def StartsWithType (input : List Char) : Prop :=
  ∃ (type : JavaType) (rest : List Char), type.WellFormed ∧ input = type.renderChars ++ rest

/-- An input starts with the descriptors of arguments and the parenthesis that closes them. -/
def StartsWithArguments (input : List Char) : Prop :=
  ∃ (types : List JavaType) (rest : List Char), (∀ type ∈ types, type.WellFormed) ∧
    (∀ type ∈ types, type.isElement = true) ∧ input = JavaType.renderEach types ++ ')' :: rest

/-- A run stops where the next action stops it. -/
theorem stops_of_step (h : registry.Sound) {action : DescriptorAction} (fault : DescriptorFault)
    (hstep : step ⟨registry, rest, actions, values, arguments⟩ action = .error (fault, registry)) :
    Stops registry ⟨registry, rest, action :: actions, values, arguments⟩ := by
  refine ⟨fault, registry, ?_, h, .refl registry⟩
  rw [run_cons, hstep]

/-- A run that comes to a machine that stops does so, too. -/
theorem Stops.of_run_eq {machine next : DescriptorMachine} (hrun : machine.run = next.run)
    (hkeeps : registry.Keeps after) (h : Stops after next) : Stops registry machine := by
  obtain ⟨fault, last, hlast, hsound, hkept⟩ := h
  exact ⟨fault, last, hrun.trans hlast, hsound, hkeeps.trans hkept⟩

/-- A descriptor is not empty. -/
theorem length_lt_of_eq (h : type.WellFormed) {input : List Char}
    (heq : input = type.renderChars ++ rest) : rest.length < input.length := by
  obtain ⟨tail, hchars⟩ := h.exists_renderChars_eq
  rw [heq, hchars, List.cons_append, List.length_cons, List.length_append]
  omega

/-- Where the machine reads or refuses every input, it reads or refuses arguments. -/
theorem startsWithArguments_or_refuses (input : List Char)
    (hall : ∀ shorter : List Char, shorter.length ≤ input.length →
      StartsWithType shorter ∨ Refuses shorter) :
    StartsWithArguments input ∨ RefusesArguments input := by
  by_cases hend : input.head? = some ')'
  · obtain ⟨tail, rfl⟩ := List.head?_eq_some_iff.mp hend
    exact .inl ⟨[], tail, by simp, by simp, rfl⟩
  rcases hall input (Nat.le_refl _) with ⟨type, rest, htype, hinput⟩ | hrefuses
  · have hshorter := length_lt_of_eq htype hinput
    have hread {registry : TypeRegistry} (hsound : registry.Sound)
        (actions : List DescriptorAction) (values innermost : List TypeInstance)
        (arguments : List (List TypeInstance)) :
        ∃ found after, registry.Gives type found after ∧
          run (atArguments registry input actions values (innermost :: arguments)) =
            run ⟨after, rest, .addArgument :: actions, found :: values,
              innermost :: arguments⟩ := by
      rw [atArguments_go_on hend, hinput]
      exact reads_of_wellFormed htype hsound _ _ _ _
    by_cases hvalue : type.isElement = true
    · -- What is behind the argument is shorter, as no descriptor is empty.
      rcases startsWithArguments_or_refuses rest fun shorter h => hall shorter (by omega) with
        ⟨types, tail, hwell, hvalues, hrest⟩ | hrefuses
      · refine .inl ⟨type :: types, tail, ?_, ?_, ?_⟩
        · exact List.forall_mem_cons.mpr ⟨htype, hwell⟩
        · exact List.forall_mem_cons.mpr ⟨hvalue, hvalues⟩
        · rw [hinput, hrest, JavaType.renderEach, List.append_assoc]
      · refine .inr fun registry hsound actions values innermost arguments => ?_
        obtain ⟨found, after, hgives, hrun⟩ := hread hsound actions values innermost arguments
        refine .of_run_eq ?_ hgives.keeps
          (hrefuses hgives.sound actions values (found :: innermost) arguments)
        rw [hrun, run_cons, step, addArgument_of_isElement (by rwa [hgives.type_eq])]
    · refine .inr fun registry hsound actions values innermost arguments => ?_
      obtain ⟨found, after, hgives, hrun⟩ := hread hsound actions values innermost arguments
      refine .of_run_eq hrun hgives.keeps (stops_of_step hgives.sound .badArgument ?_)
      rw [step, addArgument_of_not_isElement (by rwa [hgives.type_eq])]
  · refine .inr fun registry hsound actions values innermost arguments => ?_
    rw [atArguments_go_on hend]
    exact hrefuses hsound _ _ _
termination_by input.length

/-- A type that is made and has no descriptor is refused. -/
theorem Makes.refuses (h : Makes type) (htype : ¬ type.WellFormed) (rest : List Char) :
    Refuses (type.renderChars ++ rest) := by
  intro registry hsound actions values arguments
  obtain ⟨fault, between, hbetween, hkeeps, hrun⟩ := h hsound rest actions values arguments
  refine ⟨fault, between, ?_, hbetween, hkeeps⟩
  rw [hrun, withValue_of_not_wellFormed htype]

/-- A type that is made is read or refused. -/
theorem Makes.startsWithType_or_refuses (h : Makes type) (rest : List Char) :
    StartsWithType (type.renderChars ++ rest) ∨ Refuses (type.renderChars ++ rest) := by
  by_cases htype : type.WellFormed
  · exact .inl ⟨type, rest, htype, rfl⟩
  · exact .inr (h.refuses htype rest)

/-- A class is read if it has a name that ends. -/
theorem class_or_refuses (rest : List Char) :
    StartsWithType ('L' :: rest) ∨ Refuses ('L' :: rest) := by
  by_cases hmem : ';' ∈ rest
  · obtain ⟨name, tail, rfl, hends⟩ := List.eq_append_cons_of_mem hmem
    have hname : ∀ c ∈ (String.ofList name).toList, c ≠ ';' := by
      rw [String.toList_ofList]
      exact fun c hc heq => hends (heq ▸ hc)
    have hchars : 'L' :: (name ++ ';' :: tail) =
        (JavaType.classType (String.ofList name)).renderChars ++ tail := by
      simp [JavaType.renderChars]
    rw [hchars]
    exact (makes_class hname).startsWithType_or_refuses tail
  · refine .inr fun registry hsound actions values arguments =>
      stops_of_step hsound .openName ?_
    exact getType_openName hmem

/-- An array is read if its elements are and arrays can hold them. -/
theorem array_or_refuses (more : Nat) {tail : List Char} (hend : tail.head? ≠ some '[')
    (h : StartsWithType tail ∨ Refuses tail) :
    StartsWithType ('[' :: (List.replicate more '[' ++ tail)) ∨
      Refuses ('[' :: (List.replicate more '[' ++ tail)) := by
  rcases h with ⟨type, rest, htype, rfl⟩ | hrefuses
  · -- All brackets were taken, so no array is in front of the rest.
    have hflat : type.isArray = false := by
      by_contra harray
      obtain ⟨_, heq⟩ := htype.exists_renderChars_eq
      rw [heq, JavaType.lead_of_isArray (by simpa using harray)] at hend
      exact hend rfl
    rw [← List.append_assoc, ← List.cons_append, ← renderChars_array]
    exact (makes_array (reads_of_wellFormed htype) htype hflat more).startsWithType_or_refuses rest
  · refine .inr fun registry hsound actions values arguments => ?_
    refine .of_run_eq ?_ (.refl registry)
      (hrefuses hsound (.makeArray (1 + more) :: actions) values arguments)
    rw [run_cons, step, getType_brackets more hend]

/-- A method is read if its arguments and its result are, and it does not return a method. -/
theorem method_or_refuses (rest : List Char)
    (hall : ∀ shorter : List Char, shorter.length ≤ rest.length →
      StartsWithType shorter ∨ Refuses shorter) :
    StartsWithType ('(' :: rest) ∨ Refuses ('(' :: rest) := by
  have hopen (registry : TypeRegistry) (actions : List DescriptorAction)
      (values : List TypeInstance) (arguments : List (List TypeInstance)) :
      run ⟨registry, '(' :: rest, .getType :: actions, values, arguments⟩ =
        run (atArguments registry rest (.makeMethod :: actions) values ([] :: arguments)) := by
    rw [run_cons, step, getType_open]
  rcases startsWithArguments_or_refuses rest hall with
    ⟨types, tail, hwell, hvalues, rfl⟩ | hrefuses
  · have hreads := fun type htype => reads_of_wellFormed (hwell type htype)
    rcases hall tail (by simp; omega) with ⟨result, after, hresult, rfl⟩ | hrefuses
    · have hchars : '(' :: (JavaType.renderEach types ++ ')' :: (result.renderChars ++ after)) =
          (JavaType.method result types).renderChars ++ after := by
        simp [JavaType.renderChars]
      rw [hchars]
      exact (makes_method hreads hwell hvalues (reads_of_wellFormed hresult)
        hresult).startsWithType_or_refuses after
    · -- The arguments are read, and the machine stops in front of the result.
      refine .inr fun registry hsound actions values arguments => ?_
      obtain ⟨taken, between, hbetween, hkeeps, -, hread⟩ := reads_arguments hreads hwell hvalues
        hsound tail (.makeMethod :: actions) values [] arguments
      exact .of_run_eq ((hopen ..).trans hread) hkeeps (hrefuses hbetween _ _ _)
  · refine .inr fun registry hsound actions values arguments => ?_
    exact .of_run_eq (hopen ..) (.refl registry) (hrefuses hsound _ _ _ _)

/-- Any other character must be the letter of a base type. -/
theorem base_or_refuses {letter : Char} (hclass : letter ≠ 'L') (hbracket : letter ≠ '[')
    (hopen : letter ≠ '(') (rest : List Char) :
    StartsWithType (letter :: rest) ∨ Refuses (letter :: rest) := by
  cases hbase : BaseType.ofCode? letter with
  | some base =>
    rw [BaseType.ofCode?_eq_some_iff.mp hbase]
    exact .inl ⟨.primitive base, rest, .primitive base, rfl⟩
  | none =>
    refine .inr fun registry hsound actions values arguments => stops_of_step hsound .badCode ?_
    exact getType_badCode hclass hbracket hopen hbase

/-- In front of every input, the machine reads a type or stops. -/
theorem startsWithType_or_refuses (input : List Char) : StartsWithType input ∨ Refuses input := by
  match input with
  | [] =>
    refine .inr fun registry hsound actions values arguments =>
      stops_of_step hsound .endOfInput ?_
    rfl
  | letter :: rest =>
    by_cases hclass : letter = 'L'
    · exact hclass ▸ class_or_refuses rest
    by_cases hbracket : letter = '['
    · obtain ⟨more, tail, heq, hend⟩ := exists_brackets rest
      have hshorter : tail.length ≤ rest.length := by
        rw [heq, List.length_append]
        exact Nat.le_add_left _ _
      rw [hbracket, heq]
      exact array_or_refuses more hend (startsWithType_or_refuses tail)
    by_cases hopen : letter = '('
    · exact hopen ▸ method_or_refuses rest fun shorter _ => startsWithType_or_refuses shorter
    exact base_or_refuses hclass hbracket hopen rest
termination_by input.length
decreasing_by all_goals simp; omega

end DescriptorMachine

namespace TypeRegistry

open DescriptorMachine

variable {registry : TypeRegistry} {type : JavaType}

/-- Parsing is a run of the machine in front of the whole descriptor. -/
theorem parse_of_run {descriptor : String} {found : Except DescriptorFault TypeInstance}
    {after : TypeRegistry}
    (h : run ⟨registry, descriptor.toList, [.getType], [], []⟩ = (found, after)) :
    registry.parse descriptor = (found.mapError fun _ => .notDescriptor descriptor, after) := by
  rw [parse, start, h]

/-- Where the descriptor of a type ends, the run does. -/
theorem run_of_reads (htype : type.WellFormed) (h : registry.Sound) (rest : List Char) :
    ∃ found after, registry.Gives type found after ∧
      run ⟨registry, type.renderChars ++ rest, [.getType], [], []⟩ =
        (if rest = [] then .ok found else .error .leftover, after) := by
  obtain ⟨found, after, hgives, hrun⟩ := reads_of_wellFormed htype h rest [] [] []
  refine ⟨found, after, hgives, ?_⟩
  rw [hrun, run_of_nil rfl]
  cases rest <;> rfl

/-- The descriptor of a type is parsed as this type. -/
theorem parse_render (htype : type.WellFormed) (h : registry.Sound) :
    ∃ found after, registry.Gives type found after ∧
      registry.parse type.render = (.ok found, after) := by
  obtain ⟨found, after, hgives, hrun⟩ := run_of_reads htype h []
  rw [List.append_nil, if_pos rfl, ← JavaType.toList_render] at hrun
  exact ⟨found, after, hgives, parse_of_run hrun⟩

/-- A text that is the descriptor of no type is refused as a whole. Types that were handed out
before stay. -/
theorem parse_of_forall_ne {descriptor : String} (h : registry.Sound)
    (hnone : ∀ type : JavaType, type.WellFormed → type.render ≠ descriptor) :
    ∃ after, registry.parse descriptor = (.error (.notDescriptor descriptor), after) ∧
      after.Sound ∧ registry.Keeps after := by
  rcases startsWithType_or_refuses descriptor.toList with ⟨type, rest, htype, heq⟩ | hrefuses
  · obtain ⟨found, after, hgives, hrun⟩ := run_of_reads htype h rest
    rw [← heq] at hrun
    -- If nothing followed the descriptor of the type, the text would be one.
    have hrest : rest ≠ [] := fun hnil => hnone type htype <| by
      rw [← String.toList_inj, JavaType.toList_render, heq, hnil, List.append_nil]
    rw [if_neg hrest] at hrun
    exact ⟨after, parse_of_run hrun, hgives.sound, hgives.keeps⟩
  · obtain ⟨fault, after, hrun, hsound, hkeeps⟩ := hrefuses h [] [] []
    exact ⟨after, parse_of_run hrun, hsound, hkeeps⟩

end TypeRegistry

end JavaClass
