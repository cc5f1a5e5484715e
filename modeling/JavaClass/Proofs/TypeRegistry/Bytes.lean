import JavaClass.Proofs.Text.Utf8
import JavaClass.Proofs.TypeRegistry.Calls

/-!
# Parsing the bytes of a descriptor

A descriptor is parsed on its bytes: a position among them says how far it was read, and the name of
a class is sliced from the text. A slice that starts or ends inside a character would be a panic. It
never comes to that, whatever the text is, because the positions are found by looking for characters
of one byte.

- `ByteMachine`, `ByteMachine.step`: the machine that parses descriptors, on bytes.
- `ByteMachine.Ends`: how a run of it ends.
- `ByteMachine.Agree`, `ByteMachine.agree_step`: it does what the machine on characters does.
- `ByteMachine.ends_iff`: so its runs end as those of the other do.
- `TypeRegistry.parse_spec`: what parsing answers.
-/

namespace JavaClass

/-- Why a machine on bytes has no state to go on from. -/
inductive ByteStop where
  /-- The text is refused. -/
  | fault (fault : DescriptorFault) (registry : TypeRegistry)
  /-- A slice that does not exist was asked for. -/
  | panic

/-- The state of the machine on bytes. -/
structure ByteMachine where
  /-- The types handed out so far. -/
  registry : TypeRegistry
  /-- The number of bytes that were read. -/
  position : Nat
  /-- The actions still to be done, the next one first. -/
  actions : List DescriptorAction
  /-- The types that were read and not yet used, the last one first. -/
  values : List TypeInstance
  /-- The arguments of the open methods, the innermost method and the last argument first. -/
  arguments : List (List TypeInstance)

namespace ByteMachine

/-- The state after an action, or why there is none. -/
abbrev Result := Except ByteStop ByteMachine

/-- The base type whose letter is a byte. -/
def baseType? (byte : UInt8) : Option BaseType := BaseType.all.find? (·.code.toUInt8 = byte)

/-- The bytes from a position on, if there is such a position. -/
def from? (bytes : Bytes) (position : Nat) : Option Bytes :=
  if position ≤ bytes.length then some (bytes.drop position) else none

/-- The state after an action that has read nothing. -/
def atPosition (position : Nat) : DescriptorMachine.Result → Result
  | .error (fault, registry) => .error (.fault fault registry)
  | .ok ⟨registry, _, actions, values, arguments⟩ =>
    .ok ⟨registry, position, actions, values, arguments⟩

/-- Does an action that reads nothing. -/
def onStacks (machine : ByteMachine) (action : DescriptorAction) : Result :=
  let ⟨registry, position, actions, values, arguments⟩ := machine
  atPosition position (DescriptorMachine.step ⟨registry, [], actions, values, arguments⟩ action)

/-- The machine where the arguments of a method end or go on. -/
def atArguments (bytes : Bytes) (machine : ByteMachine) : ByteMachine :=
  if bytes[machine.position]? = some ')'.toUInt8 then
    { machine with position := machine.position + 1, actions := .getType :: machine.actions }
  else { machine with actions := .getType :: .addArgument :: machine.actions }

/-- Reads the name of a class and the semicolon behind it. -/
def getClass (descriptor : String) (machine : ByteMachine) : Result :=
  let ⟨registry, position, actions, values, arguments⟩ := machine
  match from? (Utf8.encode descriptor.toList) position with
  | none => .error .panic
  | some rest =>
    match rest.findIdx? (· == ';'.toUInt8) with
    | none => .error (.fault .openName registry)
    | some length =>
      match Utf8.slice? descriptor position (position + length) with
      | none => .error .panic
      | some name =>
        match registry.classType name with
        | (.ok value, registry) =>
          .ok ⟨registry, position + length + 1, actions, value :: values, arguments⟩
        | (.error _, registry) => .error (.fault .badName registry)

/-- Reads the brackets of an array behind the first. -/
def getBrackets (bytes : Bytes) (machine : ByteMachine) : Result :=
  let ⟨registry, position, actions, values, arguments⟩ := machine
  let more := ((bytes.drop position).takeWhile (· == '['.toUInt8)).length
  .ok ⟨registry, position + more, .getType :: .makeArray (1 + more) :: actions, values, arguments⟩

/-- Reads a type. -/
def getType (descriptor : String) (machine : ByteMachine) : Result :=
  let ⟨registry, position, actions, values, arguments⟩ := machine
  let bytes := Utf8.encode descriptor.toList
  match bytes[position]? with
  | none => .error (.fault .endOfInput registry)
  | some byte =>
    if byte = 'L'.toUInt8 then
      getClass descriptor ⟨registry, position + 1, actions, values, arguments⟩
    else if byte = '['.toUInt8 then
      getBrackets bytes ⟨registry, position + 1, actions, values, arguments⟩
    else if byte = '('.toUInt8 then
      .ok (atArguments bytes ⟨registry, position + 1, .makeMethod :: actions, values,
        [] :: arguments⟩)
    else
      match baseType? byte with
      | none => .error (.fault .badCode registry)
      | some base =>
        let (value, registry) := registry.primitive base
        .ok ⟨registry, position + 1, actions, value :: values, arguments⟩

/-- Moves the last type to the arguments of the innermost open method. -/
def addArgument (descriptor : String) (machine : ByteMachine) : Result :=
  let ⟨registry, position, actions, values, arguments⟩ := machine
  match values with
  | [] => .error (.fault .missingValue registry)
  | value :: values =>
    if value.type.isElement then
      match arguments with
      | [] => .error (.fault .missingArguments registry)
      | innermost :: arguments =>
        .ok (atArguments (Utf8.encode descriptor.toList)
          ⟨registry, position, actions, values, (value :: innermost) :: arguments⟩)
    else .error (.fault .badArgument registry)

/-- Does an action that was taken from those still to be done. -/
def step (descriptor : String) (machine : ByteMachine) : DescriptorAction → Result
  | .getType => machine.getType descriptor
  | .addArgument => machine.addArgument descriptor
  | .makeArray dimensions => machine.onStacks (.makeArray dimensions)
  | .makeMethod => machine.onStacks .makeMethod

/-- The type that a machine without actions has read. All of the bytes must be used. -/
def finish (descriptor : String) (machine : ByteMachine) : Except DescriptorFault TypeInstance :=
  match machine.values with
  | [] => .error .missingValue
  | [value] =>
    if machine.position = (Utf8.encode descriptor.toList).length then .ok value
    else .error .leftover
  | _ => .error .leftover

/-! ## Both machines agree -/

/-- The machine on bytes that has read some characters and is otherwise like one on characters. -/
def behind (read : List Char) (machine : DescriptorMachine) : ByteMachine :=
  ⟨machine.registry, (Utf8.encode read).length, machine.actions, machine.values, machine.arguments⟩

/-- Two machines in front of the same rest of a text do the same: both stop for the same reason, or
they are in front of the same rest again. -/
inductive Agree (descriptor : String) : DescriptorMachine.Result → Result → Prop where
  /-- Both stop. -/
  | fault (fault : DescriptorFault) (registry : TypeRegistry) :
    Agree descriptor (.error (fault, registry)) (.error (.fault fault registry))
  /-- Both go on. -/
  | next {read : List Char} {machine : DescriptorMachine}
    (h : descriptor.toList = read ++ machine.rest) :
    Agree descriptor (.ok machine) (.ok (behind read machine))

namespace Agree

variable {descriptor : String} {result : DescriptorMachine.Result}

/-- The machine on characters has no way to panic, so the one on bytes has none where they agree. -/
theorem not_panic : ¬ Agree descriptor result (.error .panic) := by
  intro h
  cases h

/-- Where the machine on bytes refuses the text, so does the one on characters. -/
theorem eq_of_fault {fault : DescriptorFault} {after : TypeRegistry}
    (h : Agree descriptor result (.error (.fault fault after))) :
    result = .error (fault, after) := by
  cases h
  rfl

/-- Where the machine on bytes goes on, so does the one on characters. -/
theorem exists_of_next {next : ByteMachine} (h : Agree descriptor result (.ok next)) :
    ∃ read machine, descriptor.toList = read ++ machine.rest ∧ next = behind read machine ∧
      result = .ok machine := by
  cases h with
  | next hnext => exact ⟨_, _, hnext, rfl, rfl⟩

end Agree

section Agreement

variable {descriptor : String} {read rest : List Char} {registry : TypeRegistry}
  {actions : List DescriptorAction} {values : List TypeInstance}
  {arguments : List (List TypeInstance)}

/-- The bytes from the position of a machine on are those of the rest. -/
theorem drop_encode (h : descriptor.toList = read ++ rest) :
    (Utf8.encode descriptor.toList).drop (Utf8.encode read).length = Utf8.encode rest := by
  rw [h, Utf8.encode_append, List.drop_left]

/-- The byte at the position of a machine is the first of the rest. -/
theorem getElem?_encode (h : descriptor.toList = read ++ rest) :
    (Utf8.encode descriptor.toList)[(Utf8.encode read).length]? = (Utf8.encode rest).head? := by
  rw [← drop_encode h, List.head?_drop]

/-- A machine that has read one more character below 128 is one byte further. -/
theorem length_encode_snoc {ascii : Char} (h : ascii.toNat ≤ 127) :
    (Utf8.encode (read ++ [ascii])).length = (Utf8.encode read).length + 1 := by
  rw [Utf8.encode_append, List.length_append, Utf8.encode_cons, Utf8.utf8EncodeChar_of_ascii h]
  rfl

/-- Both machines end the arguments of a method or go on with them. -/
theorem agree_atArguments (h : descriptor.toList = read ++ rest) :
    Agree descriptor
      (.ok (DescriptorMachine.atArguments registry rest actions values arguments))
      (.ok (atArguments (Utf8.encode descriptor.toList)
        (behind read ⟨registry, rest, actions, values, arguments⟩))) := by
  have hascii : ')'.toNat ≤ 127 := by decide
  unfold atArguments
  simp only [behind, getElem?_encode h, Utf8.head?_encode_eq_some_iff hascii]
  by_cases hclose : rest.head? = some ')'
  · obtain ⟨tail, rfl⟩ := List.head?_eq_some_iff.mp hclose
    rw [if_pos hclose, DescriptorMachine.atArguments_close, ← length_encode_snoc hascii]
    exact .next (by rw [h, List.append_assoc, List.singleton_append])
  · rw [if_neg hclose, DescriptorMachine.atArguments_go_on hclose]
    exact .next h

/-- Both machines read the name of a class. It ends before a semicolon, where the text can be
cut. -/
theorem agree_getClass (h : descriptor.toList = read ++ rest) :
    Agree descriptor
      (DescriptorMachine.getType ⟨registry, 'L' :: rest, actions, values, arguments⟩)
      (getClass descriptor (behind read ⟨registry, rest, actions, values, arguments⟩)) := by
  have hascii : ';'.toNat ≤ 127 := by decide
  have hfrom : from? (Utf8.encode descriptor.toList) (Utf8.encode read).length =
      some (Utf8.encode rest) := by
    rw [from?, drop_encode h, if_pos]
    rw [h, Utf8.encode_append]
    exact (List.sublist_append_left _ _).length_le
  simp only [getClass, behind, hfrom]
  by_cases hmem : ';' ∈ rest
  · obtain ⟨name, after, rfl, hends⟩ := List.eq_append_cons_of_mem hmem
    have hlength : (Utf8.encode read).length + (Utf8.encode name).length + 1 =
        (Utf8.encode (read ++ name ++ [';'])).length := by
      rw [length_encode_snoc hascii, Utf8.encode_append, List.length_append]
    rw [DescriptorMachine.getType_class fun c hc heq => hends (heq ▸ hc)]
    simp only [Utf8.findIdx?_encode_append hascii hends, Utf8.slice?_of_eq h, hlength]
    cases registry.classType (String.ofList name) with
    | mk answer made =>
      cases answer with
      | ok value => exact .next (by simp [h])
      | error cause => exact .fault ..
  · rw [DescriptorMachine.getType_openName hmem]
    simp only [Utf8.findIdx?_encode_eq_none hascii hmem]
    exact .fault ..

/-- Both machines read all brackets of an array. -/
theorem agree_brackets (h : descriptor.toList = read ++ rest) :
    Agree descriptor
      (DescriptorMachine.getType ⟨registry, '[' :: rest, actions, values, arguments⟩)
      (getBrackets (Utf8.encode descriptor.toList)
        (behind read ⟨registry, rest, actions, values, arguments⟩)) := by
  have hascii : '['.toNat ≤ 127 := by decide
  have hall : ∀ c ∈ rest.takeWhile (· == '['), c.toNat ≤ 127 := fun c hc => by
    have heq : c = '[' := by simpa using List.mem_takeWhile_imp hc
    rwa [heq]
  have hrest : rest.takeWhile (· == '[') ++ rest.drop (rest.takeWhile (· == '[')).length = rest :=
    List.prefix_iff_eq_append.mp (List.takeWhile_prefix _)
  have hposition : (Utf8.encode read).length + (rest.takeWhile (· == '[')).length =
      (Utf8.encode (read ++ rest.takeWhile (· == '['))).length := by
    rw [Utf8.encode_append, List.length_append, Utf8.length_encode_of_ascii hall]
  simp only [getBrackets, behind, drop_encode h, Utf8.takeWhile_encode hascii,
    Utf8.length_encode_of_ascii hall, hposition]
  exact .next (by rw [h, List.append_assoc, hrest])

/-- A byte stands for the base type that its character stands for. -/
theorem baseType?_eq {byte : UInt8} {c : Char}
    (h : ∀ {a : Char}, a.toNat ≤ 127 → (byte = a.toUInt8 ↔ c = a)) :
    baseType? byte = BaseType.ofCode? c := by
  have hcodes : ∀ base : BaseType, base.code.toUInt8 = byte ↔ base.code = c := fun base => by
    rw [eq_comm, h (by cases base <;> decide), eq_comm]
  simp only [baseType?, BaseType.ofCode?, hcodes]

/-- Both machines read a type. -/
theorem agree_getType (h : descriptor.toList = read ++ rest) :
    Agree descriptor
      (DescriptorMachine.getType ⟨registry, rest, actions, values, arguments⟩)
      (getType descriptor (behind read ⟨registry, rest, actions, values, arguments⟩)) := by
  unfold getType
  simp only [behind, getElem?_encode h]
  cases rest with
  | nil => exact .fault ..
  | cons c rest =>
    have hread : descriptor.toList = (read ++ [c]) ++ rest := by
      rw [h, List.append_assoc, List.singleton_append]
    obtain ⟨byte, bytes, hbytes⟩ := List.exists_cons_of_ne_nil
      (Utf8.encode_eq_nil_iff.not.mpr (List.cons_ne_nil c rest))
    have hhead : (Utf8.encode (c :: rest)).head? = some byte := by rw [hbytes, List.head?_cons]
    -- The byte tells every character below 128 from all others.
    have hbyte {a : Char} (ha : a.toNat ≤ 127) : byte = a.toUInt8 ↔ c = a := by
      have := @Utf8.head?_encode_eq_some_iff a ha (c :: rest)
      rwa [hhead, List.head?_cons, Option.some.injEq, Option.some.injEq] at this
    simp only [hhead]
    by_cases hclass : c = 'L'
    · rw [if_pos ((hbyte (by decide)).mpr hclass),
        ← length_encode_snoc (by decide : 'L'.toNat ≤ 127)]
      subst hclass
      exact agree_getClass hread
    rw [if_neg fun heq => hclass ((hbyte (by decide)).mp heq)]
    by_cases hbracket : c = '['
    · rw [if_pos ((hbyte (by decide)).mpr hbracket),
        ← length_encode_snoc (by decide : '['.toNat ≤ 127)]
      subst hbracket
      exact agree_brackets hread
    rw [if_neg fun heq => hbracket ((hbyte (by decide)).mp heq)]
    by_cases hopen : c = '('
    · rw [if_pos ((hbyte (by decide)).mpr hopen)]
      subst hopen
      rw [← length_encode_snoc (by decide : '('.toNat ≤ 127), DescriptorMachine.getType_open]
      exact agree_atArguments hread
    rw [if_neg fun heq => hopen ((hbyte (by decide)).mp heq), baseType?_eq hbyte]
    cases hbase : BaseType.ofCode? c with
    | none =>
      rw [DescriptorMachine.getType_badCode hclass hbracket hopen hbase]
      exact .fault ..
    | some base =>
      obtain rfl := BaseType.ofCode?_eq_some_iff.mp hbase
      rw [DescriptorMachine.getType_base]
      have hascii : base.code.toNat ≤ 127 := by cases base <;> decide
      simp only [← length_encode_snoc hascii]
      exact .next hread

/-- Both machines move the last type to the arguments. -/
theorem agree_addArgument (h : descriptor.toList = read ++ rest) :
    Agree descriptor
      (DescriptorMachine.addArgument ⟨registry, rest, actions, values, arguments⟩)
      (addArgument descriptor (behind read ⟨registry, rest, actions, values, arguments⟩)) := by
  cases values with
  | nil => exact .fault ..
  | cons value values =>
    by_cases hvalue : value.type.isElement = true
    · simp only [addArgument, behind, hvalue, if_true]
      cases arguments with
      | nil =>
        simp only [DescriptorMachine.addArgument, hvalue, if_true]
        exact .fault ..
      | cons innermost arguments =>
        rw [DescriptorMachine.addArgument_of_isElement hvalue]
        exact agree_atArguments h
    · rw [DescriptorMachine.addArgument_of_not_isElement hvalue]
      simp only [addArgument, behind, hvalue]
      exact .fault ..

/-- Both machines stack a type that was made. -/
theorem agree_withValue (h : descriptor.toList = read ++ rest) (fault : DescriptorFault)
    (made : Except Error TypeInstance × TypeRegistry) :
    Agree descriptor
      (DescriptorMachine.withValue ⟨registry, rest, actions, values, arguments⟩ fault made)
      (atPosition (Utf8.encode read).length
        (DescriptorMachine.withValue ⟨registry, [], actions, values, arguments⟩ fault made)) := by
  obtain ⟨answer, after⟩ := made
  cases answer with
  | ok value => exact .next h
  | error cause => exact .fault ..

/-- Both machines make an array of the last type. -/
theorem agree_makeArray (h : descriptor.toList = read ++ rest) (dimensions : Nat) :
    Agree descriptor
      (DescriptorMachine.makeArray dimensions ⟨registry, rest, actions, values, arguments⟩)
      (onStacks (behind read ⟨registry, rest, actions, values, arguments⟩)
        (.makeArray dimensions)) := by
  cases values with
  | nil => exact .fault ..
  | cons value values => exact agree_withValue h _ _

/-- Both machines close a method. -/
theorem agree_makeMethod (h : descriptor.toList = read ++ rest) :
    Agree descriptor
      (DescriptorMachine.makeMethod ⟨registry, rest, actions, values, arguments⟩)
      (onStacks (behind read ⟨registry, rest, actions, values, arguments⟩) .makeMethod) := by
  cases values with
  | nil => exact .fault ..
  | cons value values =>
    cases arguments with
    | nil => exact .fault ..
    | cons innermost arguments => exact agree_withValue h _ _

/-- Both machines do the same. -/
theorem agree_step {machine : DescriptorMachine} (h : descriptor.toList = read ++ machine.rest)
    (action : DescriptorAction) :
    Agree descriptor (machine.step action) (step descriptor (behind read machine) action) := by
  cases action with
  | getType => exact agree_getType h
  | addArgument => exact agree_addArgument h
  | makeArray dimensions => exact agree_makeArray h dimensions
  | makeMethod => exact agree_makeMethod h

/-- All characters were read exactly if all bytes were. -/
theorem finish_behind {machine : DescriptorMachine}
    (h : descriptor.toList = read ++ machine.rest) :
    finish descriptor (behind read machine) = machine.finish := by
  have hend : (Utf8.encode read).length = (Utf8.encode descriptor.toList).length ↔
      machine.rest = [] := by
    rw [h, Utf8.encode_append, List.length_append, Nat.left_eq_add, List.length_eq_zero_iff,
      Utf8.encode_eq_nil_iff]
  obtain ⟨registry, rest, actions, values, arguments⟩ := machine
  match values, rest with
  | [], _ => rfl
  | _ :: _ :: _, [] | _ :: _ :: _, _ :: _ => rfl
  | [value], [] => exact if_pos (hend.mpr rfl)
  | [value], c :: rest => exact if_neg (hend.not.mpr (List.cons_ne_nil c rest))

end Agreement

/-! ## Runs -/

/-- A run of the machine ends with a type or the reason why there is none, and with the types handed
out until then. If the program panics, it ends with nothing. -/
inductive Ends (descriptor : String) :
    ByteMachine → Option (Except DescriptorFault TypeInstance × TypeRegistry) → Prop where
  /-- No action is left to do. -/
  | done {machine : ByteMachine} (hactions : machine.actions = []) :
    Ends descriptor machine (some (machine.finish descriptor, machine.registry))
  /-- An action refuses the text. -/
  | fault {machine : ByteMachine} {action : DescriptorAction} {actions : List DescriptorAction}
    {fault : DescriptorFault} {after : TypeRegistry}
    (hactions : machine.actions = action :: actions)
    (hstep : step descriptor { machine with actions } action = .error (.fault fault after)) :
    Ends descriptor machine (some (.error fault, after))
  /-- An action panics. -/
  | panic {machine : ByteMachine} {action : DescriptorAction} {actions : List DescriptorAction}
    (hactions : machine.actions = action :: actions)
    (hstep : step descriptor { machine with actions } action = .error .panic) :
    Ends descriptor machine none
  /-- The run goes on after an action. -/
  | next {machine next : ByteMachine} {action : DescriptorAction} {actions : List DescriptorAction}
    {outcome : Option (Except DescriptorFault TypeInstance × TypeRegistry)}
    (hactions : machine.actions = action :: actions)
    (hstep : step descriptor { machine with actions } action = .ok next)
    (h : Ends descriptor next outcome) : Ends descriptor machine outcome

/-- Both machines do the same when they take the next action. -/
theorem agree_take {descriptor : String} {read : List Char} {machine : DescriptorMachine}
    (h : descriptor.toList = read ++ machine.rest) (action : DescriptorAction)
    (actions : List DescriptorAction) :
    Agree descriptor (DescriptorMachine.step { machine with actions } action)
      (step descriptor { behind read machine with actions } action) :=
  @agree_step descriptor read { machine with actions } h action

/-- The machine on bytes ends as the one on characters does. -/
theorem ends_run {descriptor : String} {read : List Char} {machine : DescriptorMachine}
    (h : descriptor.toList = read ++ machine.rest) :
    Ends descriptor (behind read machine) (some machine.run) := by
  match hactions : machine.actions with
  | [] =>
    rw [DescriptorMachine.run_of_nil hactions, ← finish_behind h]
    exact .done hactions
  | action :: actions =>
    have hagree := agree_take h action actions
    rw [DescriptorMachine.run_of_cons hactions]
    generalize hchars : DescriptorMachine.step { machine with actions } action = result at hagree
    generalize hbytes : step descriptor { behind read machine with actions } action = stepped
      at hagree
    cases hagree with
    | fault => exact .fault hactions hbytes
    | next hnext =>
      have hweight := DescriptorMachine.weight_step_lt hactions hchars
      exact .next hactions hbytes (ends_run hnext)
termination_by machine.weight

/-- It ends in no other way. -/
theorem eq_run_of_ends {descriptor : String} {read : List Char} {machine : DescriptorMachine}
    {outcome : Option (Except DescriptorFault TypeInstance × TypeRegistry)}
    (h : descriptor.toList = read ++ machine.rest)
    (hends : Ends descriptor (behind read machine) outcome) : outcome = some machine.run := by
  generalize hstart : behind read machine = start at hends
  -- The machine on bytes stays behind one on characters, which takes the same actions.
  induction hends generalizing machine read with
  | done hactions =>
    subst hstart
    rw [DescriptorMachine.run_of_nil hactions, finish_behind h]
    rfl
  | @fault start action actions fault after hactions hstep =>
    subst hstart
    have hagree := agree_take h action actions
    rw [hstep] at hagree
    rw [DescriptorMachine.run_of_cons hactions, hagree.eq_of_fault]
  | @panic start action actions hactions hstep =>
    subst hstart
    have hagree := agree_take h action actions
    rw [hstep] at hagree
    exact absurd hagree Agree.not_panic
  | @next start next action actions outcome hactions hstep hends ih =>
    subst hstart
    have hagree := agree_take h action actions
    rw [hstep] at hagree
    obtain ⟨read, machine, hnext, rfl, heq⟩ := hagree.exists_of_next
    rw [DescriptorMachine.run_of_cons hactions, heq]
    exact ih hnext rfl

/-- Runs of both machines end in the same way. -/
theorem ends_iff {descriptor : String} {read : List Char} {machine : DescriptorMachine}
    {outcome : Option (Except DescriptorFault TypeInstance × TypeRegistry)}
    (h : descriptor.toList = read ++ machine.rest) :
    Ends descriptor (behind read machine) outcome ↔ outcome = some machine.run := by
  constructor
  · intro hends
    exact eq_run_of_ends h hends
  · rintro rfl
    exact ends_run h

/-- The machine in front of a text. -/
def start (registry : TypeRegistry) : ByteMachine :=
  { registry, position := 0, actions := [.getType], values := [], arguments := [] }

end ByteMachine

namespace TypeRegistry

/-- Parsing the bytes of a text ends with an answer and the registry that it leaves. If the program
panics, it ends with nothing. -/
def ParsesBytes (registry : TypeRegistry) (descriptor : String)
    (outcome : Option (Except Error TypeInstance × TypeRegistry)) : Prop :=
  ∃ ended, ByteMachine.Ends descriptor (ByteMachine.start registry) ended ∧
    outcome = ended.map fun (found, after) =>
      (found.mapError fun _ => .notDescriptor descriptor, after)

/-- Parsing the bytes of a text is parsing the text. -/
theorem parsesBytes_iff {registry : TypeRegistry} {descriptor : String}
    {outcome : Option (Except Error TypeInstance × TypeRegistry)} :
    registry.ParsesBytes descriptor outcome ↔ outcome = some (registry.parse descriptor) := by
  have hall : descriptor.toList = [] ++ (DescriptorMachine.start registry descriptor.toList).rest :=
    rfl
  constructor
  · rintro ⟨ended, hends, rfl⟩
    rw [(ByteMachine.ends_iff hall).mp hends]
    rfl
  · rintro rfl
    exact ⟨_, (ByteMachine.ends_iff hall).mpr rfl, rfl⟩

/-- A text is parsed as a type exactly if it is the descriptor of that type, and every other text is
refused as a whole. The same comes of parsing its bytes, which does not panic. -/
theorem parse_spec {registry : TypeRegistry} (h : registry.Reachable) (descriptor : String) :
    (∀ type : JavaType,
      (∃ found, (registry.parse descriptor).1 = .ok found ∧ found.type = type) ↔
        type.WellFormed ∧ type.render = descriptor) ∧
    ((∀ type : JavaType, type.WellFormed → type.render ≠ descriptor) →
      (registry.parse descriptor).1 = .error (.notDescriptor descriptor)) ∧
    ∀ outcome, registry.ParsesBytes descriptor outcome ↔
      outcome = some (registry.parse descriptor) := by
  refine ⟨fun type => ?_, fun hnone => ?_, fun outcome => parsesBytes_iff⟩
  · constructor
    · rintro ⟨found, hfound, rfl⟩
      by_cases hsome : ∃ type : JavaType, type.WellFormed ∧ type.render = descriptor
      · obtain ⟨type, htype, rfl⟩ := hsome
        obtain ⟨other, after, hgives, hparse⟩ := parse_render htype h.sound
        rw [hparse] at hfound
        obtain rfl := Except.ok.inj hfound
        exact ⟨hgives.type_eq ▸ htype, congrArg JavaType.render hgives.type_eq⟩
      · obtain ⟨after, hparse, -, -⟩ := parse_of_forall_ne h.sound fun type htype heq =>
          hsome ⟨type, htype, heq⟩
        rw [hparse] at hfound
        cases hfound
    · rintro ⟨htype, rfl⟩
      obtain ⟨found, after, hgives, hparse⟩ := parse_render htype h.sound
      exact ⟨found, by rw [hparse], hgives.type_eq⟩
  · obtain ⟨after, hparse, -, -⟩ := parse_of_forall_ne h.sound hnone
    rw [hparse]

/-- For instance, a method that takes a class whose name has a character of two bytes. -/
theorem parse_spec_twoByteName :
    empty.Reachable ∧ ∃ found, (empty.parse "(L\u03b2/x;[I)V").1 = .ok found ∧
      found.type = .method (.primitive .void)
        [.classType "\u03b2/x", .array 1 (.primitive .int)] :=
  ⟨.empty, ((parse_spec .empty "(L\u03b2/x;[I)V").1 _).mpr ⟨by decide, by decide⟩⟩

end TypeRegistry

end JavaClass
