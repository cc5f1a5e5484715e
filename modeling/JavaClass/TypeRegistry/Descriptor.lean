import JavaClass.TypeRegistry

/-!
# Parsing descriptors

Descriptors are parsed by a stack machine. It holds the actions that are still to be done, the types
that were read and not yet used, and the arguments so far of every method that is still open.

- `DescriptorMachine.step`: one action.
- `DescriptorMachine.weight_step_lt`: every action lowers a weight that starts at three times the
  length of the input, so the machine stops.
- `TypeRegistry.parse`: the type of a descriptor.
-/

namespace JavaClass

/-- An action of the machine. -/
inductive DescriptorAction where
  /-- Read a type. -/
  | getType
  /-- Move the last type to the arguments of the innermost open method. -/
  | addArgument
  /-- Make the last type an array of so many dimensions. -/
  | makeArray (dimensions : Nat)
  /-- Close the innermost open method, which returns the last type. -/
  | makeMethod
deriving DecidableEq, Repr

/-- Why the machine stopped without a type. -/
inductive DescriptorFault where
  /-- A type was expected and the input was at its end. -/
  | endOfInput
  /-- The name of a class has no end. -/
  | openName
  /-- The name of a class is no binary name. -/
  | badName
  /-- No type starts with this character. -/
  | badCode
  /-- Methods cannot take this type. -/
  | badArgument
  /-- Arrays cannot hold this type. -/
  | badElement
  /-- Methods cannot return this type. -/
  | badResult
  /-- An action found no type to work on. -/
  | missingValue
  /-- An action found no open method. -/
  | missingArguments
  /-- The input went on after the type. -/
  | leftover
deriving DecidableEq, Repr

/-- The state of the machine. -/
structure DescriptorMachine where
  /-- The types handed out so far. -/
  registry : TypeRegistry
  /-- The input that is left. -/
  rest : List Char
  /-- The actions still to be done, the next one first. -/
  actions : List DescriptorAction
  /-- The types that were read and not yet used, the last one first. -/
  values : List TypeInstance
  /-- The arguments of the open methods, the innermost method and the last argument first. -/
  arguments : List (List TypeInstance)

namespace DescriptorMachine

/-- The machine in front of a descriptor. -/
def start (registry : TypeRegistry) (descriptor : List Char) : DescriptorMachine :=
  { registry, rest := descriptor, actions := [.getType], values := [], arguments := [] }

/-- The state after an action, or why there is none and the types handed out until then. -/
abbrev Result := Except (DescriptorFault × TypeRegistry) DescriptorMachine

/-- Stacks a type that was made, unless it could not be made. -/
def withValue (machine : DescriptorMachine) (fault : DescriptorFault) :
    Except Error TypeInstance × TypeRegistry → Result
  | (.ok value, registry) => .ok { machine with registry, values := value :: machine.values }
  | (.error _, registry) => .error (fault, registry)

/-- What to do after the parenthesis that opens a method, or after an argument: if the arguments
end here the result is read, else another argument. -/
def afterArgument (rest : List Char) (actions : List DescriptorAction) :
    List Char × List DescriptorAction :=
  match rest with
  | ')' :: rest => (rest, .getType :: actions)
  | rest => (rest, .getType :: .addArgument :: actions)

/-- Reads a type: a primitive one and a class at once, while arrays and methods are made once their
parts are read. -/
def getType (machine : DescriptorMachine) : Result :=
  let ⟨registry, rest, actions, values, arguments⟩ := machine
  match rest with
  | [] => .error (.endOfInput, registry)
  | 'L' :: rest =>
    let name := rest.takeWhile (· != ';')
    match rest.drop name.length with
    | [] => .error (.openName, registry)
    | _ :: rest =>
      withValue ⟨{}, rest, actions, values, arguments⟩ .badName
        (registry.classType (String.ofList name))
  | '[' :: rest =>
    let inner := rest.takeWhile (· == '[')
    .ok ⟨registry, rest.drop inner.length, .getType :: .makeArray (1 + inner.length) :: actions,
      values, arguments⟩
  | '(' :: rest =>
    let (rest, actions) := afterArgument rest (.makeMethod :: actions)
    .ok ⟨registry, rest, actions, values, [] :: arguments⟩
  | letter :: rest =>
    match BaseType.ofCode? letter with
    | none => .error (.badCode, registry)
    | some base =>
      let (value, registry) := registry.primitive base
      .ok ⟨registry, rest, actions, value :: values, arguments⟩

/-- Moves the last type to the arguments of the innermost open method. -/
def addArgument (machine : DescriptorMachine) : Result :=
  let ⟨registry, rest, actions, values, arguments⟩ := machine
  match values with
  | [] => .error (.missingValue, registry)
  | value :: values =>
    if value.type.isElement then
      match arguments with
      | [] => .error (.missingArguments, registry)
      | innermost :: arguments =>
        let (rest, actions) := afterArgument rest actions
        .ok ⟨registry, rest, actions, values, (value :: innermost) :: arguments⟩
    else .error (.badArgument, registry)

/-- Makes the last type an array. -/
def makeArray (dimensions : Nat) (machine : DescriptorMachine) : Result :=
  let ⟨registry, rest, actions, values, arguments⟩ := machine
  match values with
  | [] => .error (.missingValue, registry)
  | value :: values =>
    withValue ⟨{}, rest, actions, values, arguments⟩ .badElement (registry.array value dimensions)

/-- Closes the innermost open method. -/
def makeMethod (machine : DescriptorMachine) : Result :=
  let ⟨registry, rest, actions, values, arguments⟩ := machine
  match values with
  | [] => .error (.missingValue, registry)
  | value :: values =>
    match arguments with
    | [] => .error (.missingArguments, registry)
    | innermost :: arguments =>
      withValue ⟨{}, rest, actions, values, arguments⟩ .badResult
        (registry.method value innermost.reverse)

/-- Does an action that was taken from those still to be done. -/
def step (machine : DescriptorMachine) : DescriptorAction → Result
  | .getType => machine.getType
  | .addArgument => machine.addArgument
  | .makeArray dimensions => machine.makeArray dimensions
  | .makeMethod => machine.makeMethod

/-! ## Termination -/

/-- The number of actions still to be done other than to read a type. -/
def pending (actions : List DescriptorAction) : Nat := actions.countP (· != .getType)

/-- One, if the next action is not to read a type. -/
def turn (actions : List DescriptorAction) : Nat :=
  if actions.head? = some .getType then 0 else 1

/-- What every action lowers: three for each character that is left, one for each action other than
to read a type, and one if such an action is next. -/
def weight (machine : DescriptorMachine) : Nat :=
  3 * machine.rest.length + pending machine.actions + turn machine.actions

/-- No turn takes more than one. -/
theorem turn_le (actions : List DescriptorAction) : turn actions ≤ 1 := by
  unfold turn; split <;> omega

@[simp]
theorem pending_cons (action : DescriptorAction) (actions : List DescriptorAction) :
    pending (action :: actions) = pending actions + if action = .getType then 0 else 1 := by
  by_cases h : action = .getType <;> simp [pending, h]

@[simp]
theorem turn_cons (action : DescriptorAction) (actions : List DescriptorAction) :
    turn (action :: actions) = if action = .getType then 0 else 1 := by
  simp [turn]

section Actions

variable {registry : TypeRegistry} {rest : List Char} {actions : List DescriptorAction}
  {values : List TypeInstance} {arguments : List (List TypeInstance)} {next : DescriptorMachine}

/-- To stack a type leaves the weight as it is. -/
theorem weight_withValue {machine : DescriptorMachine} {fault : DescriptorFault}
    {made : Except Error TypeInstance × TypeRegistry}
    (h : machine.withValue fault made = .ok next) : next.weight = machine.weight := by
  obtain ⟨_ | value, registry⟩ := made
  · simp [withValue] at h
  · simp only [withValue, Except.ok.injEq] at h
    subst h
    rfl

/-- Behind an argument, a character is used up, or an action is added but it is the turn of one that
reads a type. -/
theorem weight_afterArgument_le (registry : TypeRegistry) (rest : List Char)
    (actions : List DescriptorAction) (values : List TypeInstance)
    (arguments : List (List TypeInstance)) :
    weight ⟨registry, (afterArgument rest actions).1, (afterArgument rest actions).2, values,
      arguments⟩ ≤ 3 * rest.length + pending actions + 1 := by
  unfold afterArgument
  split
  · simp only [weight, pending_cons, turn_cons, ↓reduceIte, List.length_cons]
    omega
  · simp only [weight, pending_cons, turn_cons, reduceCtorEq, ↓reduceIte]
    omega

/-- To read a type uses up a character at least, which outweighs the actions that are added. -/
theorem weight_getType_lt (h : getType ⟨registry, rest, actions, values, arguments⟩ = .ok next) :
    next.weight < weight ⟨registry, rest, .getType :: actions, values, arguments⟩ := by
  have hturn := turn_le actions
  simp only [getType] at h
  split at h
  · cases h
  · -- Behind the name of a class, its end is used up as well.
    split at h
    · cases h
    · next hdrop =>
      have hlength := congrArg List.length hdrop
      rw [weight_withValue h]
      simp only [List.length_drop, List.length_cons] at hlength
      simp only [weight, pending_cons, turn_cons, ↓reduceIte, List.length_cons]
      omega
  · cases h
    simp only [weight, pending_cons, turn_cons, reduceCtorEq, ↓reduceIte, List.length_cons,
      List.length_drop]
    omega
  · next tail =>
    have hle := weight_afterArgument_le registry tail (.makeMethod :: actions) values
      ([] :: arguments)
    cases h
    simp only [weight, pending_cons, turn_cons, reduceCtorEq, ↓reduceIte, List.length_cons] at hle ⊢
    omega
  · split at h
    · cases h
    · cases h
      simp only [weight, pending_cons, turn_cons, ↓reduceIte, List.length_cons]
      omega

/-- To add an argument uses up a character, or the action is back, but behind one that reads a
type. -/
theorem weight_addArgument_lt
    (h : addArgument ⟨registry, rest, actions, values, arguments⟩ = .ok next) :
    next.weight < weight ⟨registry, rest, .addArgument :: actions, values, arguments⟩ := by
  simp only [addArgument] at h
  split at h
  · cases h
  · next value values =>
    split at h
    · split at h
      · cases h
      · next innermost arguments =>
        have hle := weight_afterArgument_le registry rest actions values
          ((value :: innermost) :: arguments)
        cases h
        simp only [weight, pending_cons, turn_cons, reduceCtorEq, ↓reduceIte] at hle ⊢
        omega
    · cases h

/-- To make an array, the action is used up. -/
theorem weight_makeArray_lt {dimensions : Nat}
    (h : makeArray dimensions ⟨registry, rest, actions, values, arguments⟩ = .ok next) :
    next.weight < weight ⟨registry, rest, .makeArray dimensions :: actions, values, arguments⟩ := by
  have hturn := turn_le actions
  simp only [makeArray] at h
  split at h
  · cases h
  · rw [weight_withValue h]
    simp only [weight, pending_cons, turn_cons, reduceCtorEq, ↓reduceIte]
    omega

/-- To close a method, the action is used up. -/
theorem weight_makeMethod_lt
    (h : makeMethod ⟨registry, rest, actions, values, arguments⟩ = .ok next) :
    next.weight < weight ⟨registry, rest, .makeMethod :: actions, values, arguments⟩ := by
  have hturn := turn_le actions
  simp only [makeMethod] at h
  split at h
  · cases h
  · split at h
    · cases h
    · rw [weight_withValue h]
      simp only [weight, pending_cons, turn_cons, reduceCtorEq, ↓reduceIte]
      omega

end Actions

/-- Every action that does not stop the machine lowers the weight. -/
theorem weight_step_lt {machine next : DescriptorMachine} {action : DescriptorAction}
    {actions : List DescriptorAction} (hactions : machine.actions = action :: actions)
    (h : step { machine with actions } action = .ok next) : next.weight < machine.weight := by
  obtain ⟨registry, rest, todo, values, arguments⟩ := machine
  obtain rfl : todo = action :: actions := hactions
  cases action with
  | getType => exact weight_getType_lt h
  | addArgument => exact weight_addArgument_lt h
  | makeArray dimensions => exact weight_makeArray_lt h
  | makeMethod => exact weight_makeMethod_lt h

/-- The type that a machine without actions has read. All of the input must be used. -/
def finish (machine : DescriptorMachine) : Except DescriptorFault TypeInstance :=
  match machine.values, machine.rest with
  | [value], [] => .ok value
  | [], _ => .error .missingValue
  | _, _ => .error .leftover

/-- Runs a machine until no action is left to do. -/
def run (machine : DescriptorMachine) : Except DescriptorFault TypeInstance × TypeRegistry :=
  match hactions : machine.actions with
  | [] => (machine.finish, machine.registry)
  | action :: actions =>
    match h : step { machine with actions } action with
    | .error (fault, registry) => (.error fault, registry)
    | .ok next =>
      have := weight_step_lt hactions h
      next.run
termination_by machine.weight

end DescriptorMachine

/-- The type of a descriptor. A text that is none is refused as a whole, whatever is wrong with it;
the types that were read before that was found stay in the registry. -/
def TypeRegistry.parse (registry : TypeRegistry) (descriptor : String) :
    Except Error TypeInstance × TypeRegistry :=
  let (found, registry) := (DescriptorMachine.start registry descriptor.toList).run
  (found.mapError fun _ => .notDescriptor descriptor, registry)

end JavaClass
