import JavaClass.ConstantPool.Describe
import JavaClass.Proofs.ConstantPool.Format

/-!
# What is shown for references

A class is shown by its name, and a member by its name and its descriptor. Where one of them is no
text, a replacement character stands for every unpaired surrogate. A reference to a member of a
class needs them to be texts: what is no text is a question mark in it, just as what is not there.
So not every reference is shown by what is shown for the class and the member that it refers to.

- `ConstantPool.IsText`: there is a text at an index, and not only a string.
- `ConstantPool.RefersTo`: a constant refers to a member of a class.
- `ConstantPool.ShowsReferences`: what is shown for references, and when it is made up of what is
  shown for what they refer to. `ConstantPool.showsReferences`: this is so in all pools.
- `ConstantPool.not_forall_describe_eq`: a field of a class whose name is no text.
-/

namespace JavaClass.ConstantPool

variable {pool : ConstantPool} {index owner member ownerName name descriptor : ConstantIndex}

/-- There is a text at an index. -/
def IsText (pool : ConstantPool) (index : ConstantIndex) : Prop :=
  ∃ text, pool.text index = .ok text

instance (pool : ConstantPool) (index : ConstantIndex) : Decidable (pool.IsText index) :=
  match h : pool.text index with
  | .ok text => isTrue ⟨text, h⟩
  | .error _ => isFalse fun ⟨_, htext⟩ => nomatch h.symm.trans htext

/-- The constant at an index refers to a member of a class, both given by their indices. -/
inductive RefersTo (pool : ConstantPool) (index owner member : ConstantIndex) : Prop where
  /-- The member is a field. -/
  | field (h : pool.get index = .ok (.fieldRef owner member))
  /-- The member is a method of a class. -/
  | method (h : pool.get index = .ok (.methodRef owner member))
  /-- The member is a method of an interface. -/
  | interfaceMethod (h : pool.get index = .ok (.interfaceMethodRef owner member))

/-! ## Strings that are no texts -/

theorem showText_of_text {text : String} (h : pool.text index = .ok text) :
    pool.showText index = text := by
  rw [showText, textLossy_of_text h]
  rfl

/-- In a pool that was read, a string that is no text is shown with a replacement character. -/
theorem Canonical.showText_ne_unresolved (h : pool.Canonical) (hstring : pool.IsString index)
    (htext : ¬ pool.IsText index) : pool.showText index ≠ unresolved := by
  obtain ⟨text, hget⟩ | ⟨units, hget⟩ := hstring
  · exact absurd ⟨text, text_eq_ok_iff.mpr hget⟩ htext
  · have hshown : pool.showText index = Utf16.toTextLossy units := by
      rw [showText, textLossy, hget]
      rfl
    intro heq
    have hmem := h.replacement_mem hget
    rw [← hshown, heq] at hmem
    exact absurd hmem (by decide)

/-! ## Classes and members -/

theorem describe_class (h : pool.get owner = .ok (.classRef ownerName)) :
    pool.describe owner = pool.showText ownerName := by
  rw [describe, h]
  rfl

theorem describe_member (h : pool.get member = .ok (.nameAndType name descriptor)) :
    pool.describe member = pool.showText name ++ ":" ++ pool.showText descriptor := by
  rw [describe, h]
  rfl

/-- A class is shown in a reference as it is by itself if its name is a text. -/
theorem showClass_eq (h : pool.get owner = .ok (.classRef ownerName)) :
    pool.showClass owner = if pool.IsText ownerName then pool.describe owner else unresolved := by
  have hname : pool.className owner = pool.text ownerName := by
    rw [className, h]
    rfl
  rw [showClass, hname, describe_class h]
  split
  · next htext =>
    obtain ⟨text, htext⟩ := htext
    rw [showText_of_text htext, htext]
    rfl
  · next htext =>
    cases hfound : pool.text ownerName with
    | ok text => exact absurd ⟨text, hfound⟩ htext
    | error cause => rfl

/-- A member is shown in a reference as it is by itself if its name and its descriptor are texts. -/
theorem showNameAndType_eq (h : pool.get member = .ok (.nameAndType name descriptor)) :
    pool.showNameAndType member =
      if pool.IsText name ∧ pool.IsText descriptor then pool.describe member else unresolved := by
  rw [showNameAndType, describe_member h]
  cases hfound : pool.nameAndType member with
  | ok parts =>
    obtain ⟨nameIndex, descriptorIndex, hget, hname, hdescriptor⟩ := nameAndType_eq_ok_iff.mp hfound
    rw [h] at hget
    cases hget
    have htext := text_eq_ok_iff.mpr hname
    have htext' := text_eq_ok_iff.mpr hdescriptor
    rw [if_pos ⟨⟨_, htext⟩, _, htext'⟩, showText_of_text htext, showText_of_text htext']
  | error cause =>
    rw [if_neg]
    rintro ⟨⟨first, hname⟩, second, hdescriptor⟩
    have hparts := nameAndType_eq_ok_iff.mpr
      ⟨name, descriptor, h, text_eq_ok_iff.mp hname, text_eq_ok_iff.mp hdescriptor⟩
    rw [hfound] at hparts
    cases hparts

/-- No text with a colon in it is shown for what cannot be resolved. -/
theorem colon_not_mem_unresolved : ':' ∉ unresolved.toList := by decide

theorem colon_mem (first second : String) : ':' ∈ (first ++ ":" ++ second).toList := by
  simp

/-- A class is shown alike in both places if its name is a text, or is shown as one that is not
there. -/
theorem showClass_eq_describe_iff (h : pool.get owner = .ok (.classRef ownerName)) :
    pool.showClass owner = pool.describe owner ↔
      pool.IsText ownerName ∨ pool.describe owner = unresolved := by
  rw [showClass_eq h]
  split
  · simp [*]
  · simp [*, eq_comm]

/-- A member is shown alike in both places only if both its parts are texts, as no colon is shown
otherwise. -/
theorem showNameAndType_eq_describe_iff
    (h : pool.get member = .ok (.nameAndType name descriptor)) :
    pool.showNameAndType member = pool.describe member ↔
      pool.IsText name ∧ pool.IsText descriptor := by
  rw [showNameAndType_eq h]
  split
  · simp [*]
  · next hnone =>
    refine iff_of_false (fun heq => ?_) hnone
    have hmem := colon_mem (pool.showText name) (pool.showText descriptor)
    rw [← describe_member h, ← heq] at hmem
    exact colon_not_mem_unresolved hmem

/-! ## References -/

theorem RefersTo.describe_eq (h : pool.RefersTo index owner member) :
    pool.describe index = pool.showClass owner ++ "." ++ pool.showNameAndType member := by
  rw [describe]
  cases h with
  | field h | method h | interfaceMethod h => rw [h]; rfl

/-- A reference is made up of what is shown for a class and a member exactly if both are shown
alike in it. -/
theorem RefersTo.describe_eq_iff (h : pool.RefersTo index owner member)
    (howner : pool.get owner = .ok (.classRef ownerName))
    (hmember : pool.get member = .ok (.nameAndType name descriptor)) :
    pool.describe index = pool.describe owner ++ "." ++ pool.describe member ↔
      pool.showClass owner = pool.describe owner ∧
        pool.showNameAndType member = pool.describe member := by
  rw [h.describe_eq]
  constructor
  · intro heq
    by_cases hclass : pool.showClass owner = pool.describe owner
    · rw [hclass, String.append_right_inj] at heq
      exact ⟨hclass, heq⟩
    · by_cases hparts : pool.showNameAndType member = pool.describe member
      · rw [hparts, String.append_left_inj, String.append_left_inj] at heq
        exact ⟨heq, hparts⟩
      · -- Neither is shown alike, so the reference has no colon in it.
        have hmem : ':' ∈ (pool.describe owner ++ "." ++ pool.describe member).toList := by
          rw [describe_member hmember, String.toList_append]
          exact List.mem_append_right _ (colon_mem ..)
        rw [showClass_eq_describe_iff howner, not_or] at hclass
        rw [showNameAndType_eq_describe_iff hmember] at hparts
        rw [← heq, showClass_eq howner, if_neg hclass.1, showNameAndType_eq hmember,
          if_neg hparts] at hmem
        exact absurd hmem (by decide)
  · rintro ⟨hclass, hparts⟩
    rw [hclass, hparts]

/-- What a pool shows for references. -/
structure ShowsReferences (pool : ConstantPool) : Prop where
  /-- A reference shows its class and its member as they are by themselves, as far as what they
  are called is text, and as unresolved otherwise. -/
  describe_reference : ∀ ⦃index owner member ownerName name descriptor⦄,
    pool.RefersTo index owner member → pool.get owner = .ok (.classRef ownerName) →
    pool.get member = .ok (.nameAndType name descriptor) →
      pool.describe index =
        (if pool.IsText ownerName then pool.describe owner else unresolved) ++ "." ++
          (if pool.IsText name ∧ pool.IsText descriptor then pool.describe member else unresolved)
  /-- So it is not always made up of what is shown for the class and the member. -/
  describe_reference_eq_iff : ∀ ⦃index owner member ownerName name descriptor⦄,
    pool.RefersTo index owner member → pool.get owner = .ok (.classRef ownerName) →
    pool.get member = .ok (.nameAndType name descriptor) →
      (pool.describe index = pool.describe owner ++ "." ++ pool.describe member ↔
        (pool.IsText ownerName ∨ pool.describe owner = unresolved) ∧
          pool.IsText name ∧ pool.IsText descriptor)
  /-- In a pool that was read, it is exactly if the strings are texts. -/
  of_canonical : ∀ ⦃index owner member ownerName name descriptor⦄, pool.Canonical →
    pool.RefersTo index owner member → pool.get owner = .ok (.classRef ownerName) →
    pool.get member = .ok (.nameAndType name descriptor) → pool.IsString ownerName →
      (pool.describe index = pool.describe owner ++ "." ++ pool.describe member ↔
        pool.IsText ownerName ∧ pool.IsText name ∧ pool.IsText descriptor)
  /-- A member that a bootstrap method yields is shown behind the number of the method. -/
  describe_dynamic : ∀ ⦃index bootstrapMethod member name descriptor⦄,
    pool.get index = .ok (.invokeDynamic bootstrapMethod member) →
    pool.get member = .ok (.nameAndType name descriptor) →
      pool.describe index = toString bootstrapMethod ++ ":" ++
        (if pool.IsText name ∧ pool.IsText descriptor then pool.describe member else unresolved)
  /-- It is not always made up of the number and what is shown for the member. -/
  describe_dynamic_eq_iff : ∀ ⦃index bootstrapMethod member name descriptor⦄,
    pool.get index = .ok (.invokeDynamic bootstrapMethod member) →
    pool.get member = .ok (.nameAndType name descriptor) →
      (pool.describe index = toString bootstrapMethod ++ ":" ++ pool.describe member ↔
        pool.IsText name ∧ pool.IsText descriptor)

/-- Any pool shows a class and a member in a reference as it does by themselves as far as what they
are called is text, and as unresolved otherwise. -/
theorem showsReferences (pool : ConstantPool) : pool.ShowsReferences := by
  have hiff ⦃index owner member ownerName name descriptor : ConstantIndex⦄
      (h : pool.RefersTo index owner member) (howner : pool.get owner = .ok (.classRef ownerName))
      (hmember : pool.get member = .ok (.nameAndType name descriptor)) :
      pool.describe index = pool.describe owner ++ "." ++ pool.describe member ↔
        (pool.IsText ownerName ∨ pool.describe owner = unresolved) ∧
          pool.IsText name ∧ pool.IsText descriptor := by
    rw [h.describe_eq_iff howner hmember, showClass_eq_describe_iff howner,
      showNameAndType_eq_describe_iff hmember]
  have hdynamic ⦃index member : ConstantIndex⦄ ⦃bootstrapMethod : UInt16⦄
      (h : pool.get index = .ok (.invokeDynamic bootstrapMethod member)) :
      pool.describe index = toString bootstrapMethod ++ ":" ++ pool.showNameAndType member := by
    rw [describe, h]
    rfl
  refine ⟨?_, hiff, ?_, ?_, ?_⟩
  · intro index owner member ownerName name descriptor h howner hmember
    rw [h.describe_eq, showClass_eq howner, showNameAndType_eq hmember]
  · intro index owner member ownerName name descriptor hpool h howner hmember hstring
    have hresolved (htext : ¬ pool.IsText ownerName) : pool.describe owner ≠ unresolved := by
      rw [describe_class howner]
      exact hpool.showText_ne_unresolved hstring htext
    rw [hiff h howner hmember, or_iff_left_of_imp fun hunresolved =>
      Classical.byContradiction fun htext => hresolved htext hunresolved]
  · intro index bootstrapMethod member name descriptor h hmember
    rw [hdynamic h, showNameAndType_eq hmember]
  · intro index bootstrapMethod member name descriptor h hmember
    rw [hdynamic h, String.append_right_inj, showNameAndType_eq_describe_iff hmember]

/-- A pool with a method, and a member that a bootstrap method yields. -/
def printing : ConstantPool :=
  ConstantPool.empty.addAll [.utf8 "java/io/PrintStream", .classRef 1, .utf8 "println",
    .utf8 "(Ljava/lang/String;)V", .nameAndType 3 4, .methodRef 2 5, .invokeDynamic 7 5]

/-- For instance, both are shown with what is shown for the name and the descriptor. -/
theorem showsReferences_printing :
    printing.describe 6 = printing.describe 2 ++ "." ++ printing.describe 5 ∧
      printing.describe 7 = "7:" ++ printing.describe 5 ∧
      printing.describe 6 = "java/io/PrintStream.println:(Ljava/lang/String;)V" := by
  have hreachable : printing.Reachable := reachable_addAll .empty (by decide)
  have hget {index : ConstantIndex} {constant : Constant}
      (hmem : (index.toNat, constant) ∈ printing.constants.toList) :
      printing.get index = .ok constant := hreachable.get_eq_ok_iff.mpr hmem
  have howner : printing.get 2 = .ok (.classRef 1) := hget (by decide)
  have hmember : printing.get 5 = .ok (.nameAndType 3 4) := hget (by decide)
  have hmethod : printing.RefersTo 6 2 5 := .method (hget (by decide))
  have hdynamic : printing.get 7 = .ok (.invokeDynamic 7 5) := hget (by decide)
  have hownerName : printing.text 1 = .ok "java/io/PrintStream" :=
    text_eq_ok_iff.mpr (hget (by decide))
  have hname : printing.text 3 = .ok "println" := text_eq_ok_iff.mpr (hget (by decide))
  have hdescriptor : printing.text 4 = .ok "(Ljava/lang/String;)V" :=
    text_eq_ok_iff.mpr (hget (by decide))
  have hcomposed :=
    ((showsReferences printing).describe_reference_eq_iff hmethod howner hmember).mpr
      ⟨.inl ⟨_, hownerName⟩, ⟨_, hname⟩, _, hdescriptor⟩
  have hnumbered :=
    ((showsReferences printing).describe_dynamic_eq_iff hdynamic hmember).mpr
      ⟨⟨_, hname⟩, _, hdescriptor⟩
  refine ⟨hcomposed, hnumbered, ?_⟩
  rw [hcomposed, describe_class howner, describe_member hmember, showText_of_text hownerName,
    showText_of_text hname, showText_of_text hdescriptor]
  decide

/-- A pool with a field of a class whose name is half of a character. -/
def surrogateOwner : ConstantPool :=
  ConstantPool.empty.addAll
    [.utf16 [0xD800], .classRef 1, .utf8 "f", .utf8 "I", .nameAndType 3 4, .fieldRef 2 5]

/-- What is shown for a reference is not always made up of what is shown for the class and the
member, even if all strings are there. -/
theorem not_forall_describe_eq :
    ¬ ∀ (pool : ConstantPool) (index owner member ownerName name descriptor : ConstantIndex),
      pool.RefersTo index owner member → pool.get owner = .ok (.classRef ownerName) →
      pool.IsString ownerName → pool.get member = .ok (.nameAndType name descriptor) →
      pool.IsString name → pool.IsString descriptor →
        pool.describe index = pool.describe owner ++ "." ++ pool.describe member := by
  intro h
  have hreachable : surrogateOwner.Reachable := reachable_addAll .empty (by decide)
  have hget {index : ConstantIndex} {constant : Constant}
      (hmem : (index.toNat, constant) ∈ surrogateOwner.constants.toList) :
      surrogateOwner.get index = .ok constant := hreachable.get_eq_ok_iff.mpr hmem
  have hfield : surrogateOwner.get 6 = .ok (.fieldRef 2 5) := hget (by decide)
  have howner : surrogateOwner.get 2 = .ok (.classRef 1) := hget (by decide)
  have hownerName : surrogateOwner.get 1 = .ok (.utf16 [0xD800]) := hget (by decide)
  have hmember : surrogateOwner.get 5 = .ok (.nameAndType 3 4) := hget (by decide)
  have hname : surrogateOwner.get 3 = .ok (.utf8 "f") := hget (by decide)
  have hdescriptor : surrogateOwner.get 4 = .ok (.utf8 "I") := hget (by decide)
  have heq := h surrogateOwner 6 2 5 1 3 4 (.field hfield) howner (.inr ⟨_, hownerName⟩) hmember
    (.inl ⟨_, hname⟩) (.inl ⟨_, hdescriptor⟩)
  have htext : ¬ surrogateOwner.IsText 1 := by
    rintro ⟨text, htext⟩
    rw [text_eq_ok_iff, hownerName] at htext
    cases htext
  -- The class is shown as a replacement character by itself, and as unresolved in the reference.
  rw [(RefersTo.field hfield).describe_eq_iff howner hmember, showClass_eq howner, if_neg htext,
    describe_class howner, showText, textLossy, hownerName] at heq
  exact absurd heq.1 (by decide)

end JavaClass.ConstantPool
