import JavaClass.Proofs.TypeRegistry.Bytes

/-!
# The stacks of the machine that parses descriptors

Actions take types and the arguments of open methods off two stacks. They are never asked to take
what is not there, whatever the text is: in front of every action, the actions still to be done find
what they need one after the other and leave a single type. This is a property of the actions and of
the heights of both stacks alone.

- `DescriptorAction.Balance`: the actions find what they need and leave a single type.
- `DescriptorMachine.goesWell_step`: every action keeps it, or refuses the text for a reason of its
  own.
- `ByteMachine.Takes`: what a run has come to after so many actions.
- `ByteMachine.Sustains`, `ByteMachine.Takes.sustains`: the machine stays balanced and loses weight
  with every action.
- `ByteMachine.KeepsStacks`, `ByteMachine.keepsStacks`: how runs go and how long they are.
-/

namespace JavaClass

/-! ## Actions that find what they need -/

/-- The actions find what they need, one after the other, when so many types are stacked and so many
methods are open, and they leave one type and no open method. An action that reads a type stacks it
in the end, even if that takes other actions. -/
def DescriptorAction.Balance : List DescriptorAction → (types methods : Nat) → Prop
  | [], types, methods => types = 1 ∧ methods = 0
  | .getType :: actions, types, methods => Balance actions (types + 1) methods
  -- The argument is taken off the stack, but a type is read before the next action.
  | .addArgument :: actions, types, methods =>
    1 ≤ types ∧ 1 ≤ methods ∧ Balance actions types methods
  | .makeArray _ :: actions, types, methods => 1 ≤ types ∧ Balance actions types methods
  | .makeMethod :: actions, types, methods =>
    1 ≤ types ∧ 1 ≤ methods ∧ Balance actions types (methods - 1)

section Balance

variable {action : DescriptorAction} {actions : List DescriptorAction} {types methods : Nat}

/-- Every action that does not read a type finds one. -/
theorem DescriptorAction.Balance.one_le_types (h : Balance (action :: actions) types methods)
    (hother : action ≠ .getType) : 1 ≤ types := by
  cases action with
  | getType => exact absurd rfl hother
  | addArgument | makeArray | makeMethod => exact h.1

/-- Every action on the arguments of a method finds an open method. -/
theorem DescriptorAction.Balance.one_le_methods (h : Balance (action :: actions) types methods)
    (hmethod : action = .addArgument ∨ action = .makeMethod) : 1 ≤ methods := by
  rcases hmethod with rfl | rfl
  · exact h.2.1
  · exact h.2.1

end Balance

/-- An action found nothing to work on. -/
def DescriptorFault.IsMissing (fault : DescriptorFault) : Prop :=
  fault = .missingValue ∨ fault = .missingArguments

instance (fault : DescriptorFault) : Decidable fault.IsMissing :=
  inferInstanceAs (Decidable (_ ∨ _))

namespace DescriptorMachine

open DescriptorAction (Balance)

variable {registry : TypeRegistry} {rest : List Char} {actions : List DescriptorAction}
  {values : List TypeInstance} {arguments : List (List TypeInstance)}

/-- The actions of a machine find what they need. -/
def Balanced (machine : DescriptorMachine) : Prop :=
  Balance machine.actions machine.values.length machine.arguments.length

/-- In front of a text, one type is to be read. -/
theorem balanced_start (registry : TypeRegistry) (descriptor : List Char) :
    (start registry descriptor).Balanced := ⟨rfl, rfl⟩

/-- An action goes well if it leaves a balanced machine, or refuses the text for another reason than
that it found nothing to work on. -/
def GoesWell : Result → Prop
  | .ok next => next.Balanced
  | .error (fault, _) => ¬ fault.IsMissing

/-- To stack a type that was made goes well. -/
theorem goesWell_withValue {fault : DescriptorFault} (hfault : ¬ fault.IsMissing)
    (h : Balance actions (values.length + 1) arguments.length)
    (made : Except Error TypeInstance × TypeRegistry) :
    GoesWell (withValue ⟨registry, rest, actions, values, arguments⟩ fault made) := by
  obtain ⟨_ | value, after⟩ := made
  · exact hfault
  · exact h

/-- Where the arguments of an open method end or go on, a type is read next. -/
theorem balanced_atArguments (hopen : 1 ≤ arguments.length)
    (h : Balance actions (values.length + 1) arguments.length) :
    (atArguments registry rest actions values arguments).Balanced := by
  by_cases hclose : rest.head? = some ')'
  · obtain ⟨tail, rfl⟩ := List.head?_eq_some_iff.mp hclose
    rw [atArguments_close]
    exact h
  · rw [atArguments_go_on hclose]
    -- The type that is read is the argument.
    exact ⟨Nat.le_add_left 1 _, hopen, h⟩

/-- To read a type goes well. -/
theorem goesWell_getType (h : Balance actions (values.length + 1) arguments.length) :
    GoesWell (getType ⟨registry, rest, actions, values, arguments⟩) := by
  unfold getType
  dsimp only
  split
  · exact (by decide : ¬ DescriptorFault.endOfInput.IsMissing)
  · -- The name of a class ends or does not.
    split
    · exact (by decide : ¬ DescriptorFault.openName.IsMissing)
    · exact goesWell_withValue (by decide) h _
  · -- The elements of an array are read before it is made.
    exact ⟨Nat.le_add_left 1 _, h⟩
  · -- A method is closed after its result is read.
    refine balanced_atArguments (Nat.le_add_left 1 _) ?_
    exact ⟨Nat.le_add_left 1 _, Nat.le_add_left 1 _, h⟩
  · split
    · exact (by decide : ¬ DescriptorFault.badCode.IsMissing)
    · exact h

/-- To add an argument goes well where there is a type and an open method. -/
theorem goesWell_addArgument (htypes : 1 ≤ values.length) (hopen : 1 ≤ arguments.length)
    (h : Balance actions values.length arguments.length) :
    GoesWell (addArgument ⟨registry, rest, actions, values, arguments⟩) := by
  obtain ⟨value, values, rfl⟩ := List.exists_cons_of_length_pos htypes
  obtain ⟨innermost, arguments, rfl⟩ := List.exists_cons_of_length_pos hopen
  by_cases hvalue : value.type.isElement = true
  · rw [addArgument_of_isElement hvalue]
    exact balanced_atArguments hopen h
  · rw [addArgument_of_not_isElement hvalue]
    exact (by decide : ¬ DescriptorFault.badArgument.IsMissing)

/-- To make an array goes well where there is a type. -/
theorem goesWell_makeArray (htypes : 1 ≤ values.length)
    (h : Balance actions values.length arguments.length) (dimensions : Nat) :
    GoesWell (makeArray dimensions ⟨registry, rest, actions, values, arguments⟩) := by
  obtain ⟨value, values, rfl⟩ := List.exists_cons_of_length_pos htypes
  exact goesWell_withValue (by decide) h _

/-- To close a method goes well where there is a type and an open method. -/
theorem goesWell_makeMethod (htypes : 1 ≤ values.length) (hopen : 1 ≤ arguments.length)
    (h : Balance actions values.length (arguments.length - 1)) :
    GoesWell (makeMethod ⟨registry, rest, actions, values, arguments⟩) := by
  obtain ⟨value, values, rfl⟩ := List.exists_cons_of_length_pos htypes
  obtain ⟨innermost, arguments, rfl⟩ := List.exists_cons_of_length_pos hopen
  exact goesWell_withValue (by decide) h _

/-- The next action of a balanced machine goes well. -/
theorem goesWell_step {machine : DescriptorMachine} {action : DescriptorAction}
    (h : machine.Balanced) (hactions : machine.actions = action :: actions) :
    GoesWell (step { machine with actions } action) := by
  rw [Balanced, hactions] at h
  cases action with
  | getType => exact goesWell_getType h
  | addArgument =>
    obtain ⟨htypes, hopen, h⟩ := h
    exact goesWell_addArgument htypes hopen h
  | makeArray dimensions =>
    obtain ⟨htypes, h⟩ := h
    exact goesWell_makeArray htypes h dimensions
  | makeMethod =>
    obtain ⟨htypes, hopen, h⟩ := h
    exact goesWell_makeMethod htypes hopen h

end DescriptorMachine

namespace ByteMachine

variable {descriptor : String} {total count : Nat} {first machine : ByteMachine} {result : Result}

/-! ## Runs action by action -/

/-- What a run has come to after so many actions, the last of which may have stopped it. -/
inductive Takes (descriptor : String) (first : ByteMachine) : Nat → Result → Prop where
  /-- No action was taken. -/
  | start : Takes descriptor first 0 (.ok first)
  /-- The next action was taken. -/
  | next {count : Nat} {machine : ByteMachine} {action : DescriptorAction}
    {actions : List DescriptorAction} (h : Takes descriptor first count (.ok machine))
    (hactions : machine.actions = action :: actions) :
    Takes descriptor first (count + 1) (step descriptor { machine with actions } action)

/-- A run that has come to a result is at its end, with an outcome. -/
inductive Concludes (descriptor : String) :
    Result → Option (Except DescriptorFault TypeInstance × TypeRegistry) → Prop where
  /-- No action is left to do. -/
  | done {machine : ByteMachine} (hactions : machine.actions = []) :
    Concludes descriptor (.ok machine) (some (machine.finish descriptor, machine.registry))
  /-- An action refused the text. -/
  | fault (fault : DescriptorFault) (after : TypeRegistry) :
    Concludes descriptor (.error (.fault fault after)) (some (.error fault, after))
  /-- An action panicked. -/
  | panic : Concludes descriptor (.error .panic) none

/-- A run that ends does so after some number of actions. -/
theorem Ends.exists_takes {outcome : Option (Except DescriptorFault TypeInstance × TypeRegistry)}
    (h : Ends descriptor machine outcome) (htakes : Takes descriptor first count (.ok machine)) :
    ∃ count result, Takes descriptor first count result ∧ Concludes descriptor result outcome := by
  -- By induction on what is left of the run, behind the actions that were taken.
  induction h generalizing count with
  | done hactions => exact ⟨count, _, htakes, .done hactions⟩
  | fault hactions hstep =>
    refine ⟨count + 1, _, htakes.next hactions, ?_⟩
    rw [hstep]
    exact .fault ..
  | panic hactions hstep =>
    refine ⟨count + 1, _, htakes.next hactions, ?_⟩
    rw [hstep]
    exact .panic
  | next hactions hstep hends ih =>
    have hnext := htakes.next hactions
    rw [hstep] at hnext
    exact ih hnext

/-- What holds of a run that started from a machine with some weight and has taken so many actions:
it has come to a balanced machine that has lost weight with every action, or the text was refused,
but not for the lack of something to work on. -/
inductive Sustains (descriptor : String) (total count : Nat) : Result → Prop where
  /-- The run goes on. -/
  | next {read : List Char} {machine : DescriptorMachine}
    (h : descriptor.toList = read ++ machine.rest) (hbalanced : machine.Balanced)
    (hweight : count + machine.weight ≤ total) :
    Sustains descriptor total count (.ok (behind read machine))
  /-- The text was refused. -/
  | fault {fault : DescriptorFault} (after : TypeRegistry) (hfault : ¬ fault.IsMissing)
    (hcount : count ≤ total + 1) : Sustains descriptor total count (.error (.fault fault after))

/-- This is kept by every action. -/
theorem Sustains.step (h : Sustains descriptor total count (.ok machine))
    {action : DescriptorAction} {actions : List DescriptorAction}
    (hactions : machine.actions = action :: actions) :
    Sustains descriptor total (count + 1) (step descriptor { machine with actions } action) := by
  cases h with
  | @next read machine h hbalanced hweight =>
    -- The machine on characters takes the same action, and it goes well there.
    have hagree := agree_take h action actions
    have hgoes := DescriptorMachine.goesWell_step hbalanced hactions
    generalize hchars : DescriptorMachine.step { machine with actions } action = result
      at hagree hgoes
    generalize step descriptor { behind read machine with actions } action = stepped at hagree
    cases hagree with
    | fault fault after => exact .fault after hgoes (by omega)
    | next hnext =>
      have hlt := DescriptorMachine.weight_step_lt hactions hchars
      exact .next hnext hgoes (by omega)

/-- It holds of every run, from the machine in front of the text on. -/
theorem Takes.sustains {registry : TypeRegistry}
    (h : Takes descriptor (ByteMachine.start registry) count result) :
    Sustains descriptor (3 * descriptor.toList.length) count result := by
  induction h with
  | start =>
    have hbalanced := DescriptorMachine.balanced_start registry descriptor.toList
    have hweight := Nat.le_of_eq (Nat.zero_add (3 * descriptor.toList.length))
    exact @Sustains.next descriptor _ 0 [] _ rfl hbalanced hweight
  | next _ hactions ih => exact ih.step hactions

namespace Sustains

/-- No more actions are taken than the machine weighed at first, and one more. -/
theorem count_le (h : Sustains descriptor total count result) : count ≤ total + 1 := by
  cases h with
  | next _ _ hweight => omega
  | fault _ _ hcount => exact hcount

/-- Where a run goes on, the actions find what they need. -/
theorem balance (h : Sustains descriptor total count (.ok machine)) :
    DescriptorAction.Balance machine.actions machine.values.length machine.arguments.length := by
  cases h with
  | next _ hbalanced _ => exact hbalanced

end Sustains

/-! ## Runs in front of a text -/

/-- How the machine runs in front of a text. -/
structure KeepsStacks (registry : TypeRegistry) (descriptor : String) : Prop where
  /-- It takes no more actions than three for each byte and one more. -/
  count_le : ∀ count result, Takes descriptor (start registry) count result →
    count ≤ 3 * (Utf8.encode descriptor.toList).length + 1
  /-- It comes to an end, from which the answer to parsing the text is made. -/
  ends : ∃ count result found after, Takes descriptor (start registry) count result ∧
    Concludes descriptor result (some (found, after)) ∧
    registry.parse descriptor = (found.mapError fun _ => .notDescriptor descriptor, after)
  /-- In front of every action that does not read a type, there is a type to work on. -/
  values_ne_nil : ∀ count machine action actions,
    Takes descriptor (start registry) count (.ok machine) → machine.actions = action :: actions →
    action ≠ .getType → machine.values ≠ []
  /-- In front of every action on the arguments of a method, there is an open method. -/
  arguments_ne_nil : ∀ count machine action actions,
    Takes descriptor (start registry) count (.ok machine) → machine.actions = action :: actions →
    action = .addArgument ∨ action = .makeMethod → machine.arguments ≠ []
  /-- An action that stops the machine refuses the text, but not because there was nothing to work
  on. -/
  fault_ne : ∀ count stop, Takes descriptor (start registry) count (.error stop) →
    ∃ fault after, stop = .fault fault after ∧ fault ≠ .missingValue ∧ fault ≠ .missingArguments
  /-- When no action is left to do, one type is stacked and no method is open. So the text can only
  be refused because it goes on behind the type. -/
  finish_eq : ∀ count machine, Takes descriptor (start registry) count (.ok machine) →
    machine.actions = [] → ∃ value, machine.values = [value] ∧ machine.arguments = [] ∧
      machine.finish descriptor =
        if machine.position = (Utf8.encode descriptor.toList).length then .ok value
        else .error .leftover

/-- In front of any text, the machine takes no type and no open method that is not there, and it
comes to an end soon. -/
theorem keepsStacks (registry : TypeRegistry) (descriptor : String) :
    KeepsStacks registry descriptor where
  count_le := by
    intro count result htakes
    have hcount := htakes.sustains.count_le
    -- The machine weighs characters, of which there are no more than bytes.
    have hbytes := Utf8.length_le_length_encode descriptor.toList
    omega
  ends := by
    have hall : descriptor.toList =
        [] ++ (DescriptorMachine.start registry descriptor.toList).rest := rfl
    obtain ⟨count, result, htakes, hconcludes⟩ := (ends_run hall).exists_takes .start
    exact ⟨count, result, _, _, htakes, hconcludes, TypeRegistry.parse_of_run rfl⟩
  values_ne_nil := by
    intro count machine action actions htakes hactions hother
    have hbalance := htakes.sustains.balance
    rw [hactions] at hbalance
    apply List.ne_nil_of_length_pos
    exact hbalance.one_le_types hother
  arguments_ne_nil := by
    intro count machine action actions htakes hactions hmethod
    have hbalance := htakes.sustains.balance
    rw [hactions] at hbalance
    apply List.ne_nil_of_length_pos
    exact hbalance.one_le_methods hmethod
  fault_ne := by
    intro count stop htakes
    cases htakes.sustains with
    | @fault fault after hfault _ => exact ⟨fault, after, rfl, not_or.mp hfault⟩
  finish_eq := by
    intro count machine htakes hactions
    have hbalance := htakes.sustains.balance
    rw [hactions] at hbalance
    obtain ⟨hvalues, harguments⟩ := hbalance
    obtain ⟨value, hvalue⟩ := List.length_eq_one_iff.mp hvalues
    refine ⟨value, hvalue, List.length_eq_zero_iff.mp harguments, ?_⟩
    rw [finish, hvalue]

end ByteMachine

end JavaClass
