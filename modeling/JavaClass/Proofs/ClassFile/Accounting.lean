import JavaClass.Proofs.Attribute.Accounting
import JavaClass.Proofs.ClassFile.WellFormed

/-!
# Class files that are written back

A class file that was read can be written, if no method body in it has more code than a method can
have. The bytes that are missing are those that were reported lost, and if nothing was reported, the
bytes are those that were read.

- `Member.accounts_read`: the reader of members accounts for the bytes that it takes.
- `ClassFile.exists_toBytes_of_ofBytes`: what was read is written back.
-/

namespace JavaClass

/-- The attributes of a member were read out of bytes that are accounted for. -/
theorem Member.accounts_read {declaration : Declaration} {pool : ConstantPool}
    (hpool : pool.Canonical) :
    (Member.read pool : Reader (Member declaration)).Accounts
      (fun member => ∀ attr ∈ member.attributes, attr.CodeFits) Member.write := by
  intro input reports member rest hreads hfits
  obtain ⟨-, between, rfl, hattributes⟩ := Member.reads_read.mp hreads
  obtain ⟨taken, written, rfl, hwrite, haccounted⟩ :=
    Attribute.accounts_readList hpool hattributes hfits
  exact ⟨member.frontBytes ++ taken, member.frontBytes ++ written, by rw [List.append_assoc],
    Member.write_eq_ok.mpr ⟨written, hwrite, rfl⟩, (Accounted.refl _).append haccounted⟩

namespace ClassFile

variable {file : ClassFile} {bytes rest : Bytes} {reports : List Diagnostic}

/-- A class file that was read can be written, if the code in it is as short as code can be. Of the
bytes that were consumed, it has all but those that were reported lost, and the very same if nothing
was reported. -/
theorem exists_toBytes_of_ofBytes (h : ofBytes bytes = ⟨reports, .ok (file, rest)⟩)
    (hfits : ∀ body attributes, file.Holds (.code body attributes) →
      body.codeLength ≤ MethodBody.maxCodeLength) :
    ∃ consumed written, bytes = consumed ++ rest ∧ file.toBytes = .ok written ∧
      consumed.length = written.length + lostBytes reports ∧
      (reports = [] → bytes = written ++ rest) := by
  obtain ⟨hsound, front, _, _, _, _, _, _, hfront, rfl, hfields, hmethods, hattributes, rfl⟩ :=
    reads_read.mp h
  have hpool := hsound.constants
  have hall : ∀ attr, file.HasAttribute attr → attr.CodeFits :=
    fun attr hattr body attributes hoccurs => hfits body attributes ⟨attr, hattr, hoccurs⟩
  obtain ⟨takenFields, fields, rfl, hwriteFields, accountedFields⟩ :=
    (Member.accounts_read hpool).table "fields" hfields
      fun field hmem attr hattr => hall attr (.inl ⟨field, hmem, hattr⟩)
  obtain ⟨takenMethods, methods, rfl, hwriteMethods, accountedMethods⟩ :=
    (Member.accounts_read hpool).table "methods" hmethods
      fun method hmem attr hattr => hall attr (.inr (.inl ⟨method, hmem, hattr⟩))
  obtain ⟨takenAttributes, attributes, rfl, hwriteAttributes, accountedAttributes⟩ :=
    Attribute.accounts_readList hpool hattributes fun attr hattr => hall attr (.inr (.inr hattr))
  -- The front is written as it was read; fields, methods and attributes account for themselves.
  have haccounted := (Accounted.refl front).append
    (accountedFields.append (accountedMethods.append accountedAttributes))
  refine ⟨_, _, ?_, toBytes_eq_ok.mpr ⟨front, fields, methods, attributes, hfront, hwriteFields,
    hwriteMethods, hwriteAttributes, rfl⟩, haccounted.length_eq, fun hnil => ?_⟩
  · simp only [List.append_assoc]
  · rw [← haccounted.eq_of_nil hnil]
    simp only [List.append_assoc]

/-- A class with an attribute that is skipped and a method body that declares two bytes too many, in
front of another byte. -/
def bytesWithLosses : Bytes :=
  magic ++ Version.default.toBytes ++
    -- The pool: the name of the class, the class and the names of the attributes.
    [0, 5, 1, 0, 1, 0x41, 7, 0, 1, 1, 0, 4, 0x43, 0x6F, 0x64, 0x65, 1, 0, 1, 0x58] ++
    [0, 0x21, 0, 2, 0, 0, 0, 0, 0, 0, 0, 0, 0, 2] ++
    [0, 4, 0, 0, 0, 3, 1, 2, 3] ++
    [0, 3, 0, 0, 0, 15, 0, 0, 0, 1, 0, 0, 0, 1, 0xB1, 0, 0, 0, 0, 0xAA, 0xBB] ++
    [0xFF]

/-- The method body in the class with losses. -/
def bodyWithLosses : MethodBody where
  name := 3
  maxStack := 0
  maxLocals := 1
  instructions := .ofList [returnFromMethod]
  handlers := []

/-- The class with losses is written back without the nine bytes of the attribute that is skipped
and the two bytes that are not used. -/
theorem exists_toBytes_of_bytesWithLosses :
    ∃ file reports consumed written,
      ofBytes bytesWithLosses = ⟨reports, .ok (file, [0xFF])⟩ ∧
      (∀ body attributes, file.Holds (.code body attributes) →
        body.codeLength ≤ MethodBody.maxCodeLength) ∧
      lostBytes reports = 11 ∧ bytesWithLosses = consumed ++ [0xFF] ∧
      file.toBytes = .ok written ∧ consumed.length = written.length + 11 := by
  have hreports : (ofBytes bytesWithLosses).reports =
      [.skippedAttribute "X" 3, .unusedBytes "Code" 15 13] := by decide +kernel
  have hsections : ((ofBytes bytesWithLosses).outcome.map fun (file, rest) =>
      (file.fields, file.methods, file.attributes, rest)) =
        .ok ([], [], [.code bodyWithLosses []], [0xFF]) := by decide +kernel
  obtain ⟨⟨file, rest⟩, houtcome, hsections⟩ := map_eq_ok.mp hsections
  simp only [Prod.mk.injEq] at hsections
  obtain ⟨hfields, hmethods, hattributes, rfl⟩ := hsections
  have hread : ofBytes bytesWithLosses =
      ⟨[.skippedAttribute "X" 3, .unusedBytes "Code" 15 13], .ok (file, [0xFF])⟩ :=
    Reader.ext_reading hreports houtcome
  have hfits : ∀ body attributes, file.Holds (.code body attributes) →
      body.codeLength ≤ MethodBody.maxCodeLength := by
    rintro body attributes ⟨outer, houter, hoccurs⟩
    simp only [HasAttribute, hfields, hmethods, hattributes, List.not_mem_nil, false_and,
      exists_false, List.mem_singleton, false_or] at houter
    subst houter
    simp only [Attribute.occurs_code_iff, List.not_mem_nil, false_and, exists_false, or_false,
      Attribute.code.injEq] at hoccurs
    obtain ⟨rfl, -⟩ := hoccurs
    decide
  obtain ⟨consumed, written, hconsumed, hwritten, hlen, -⟩ := exists_toBytes_of_ofBytes hread hfits
  exact ⟨file, _, consumed, written, hread, hfits, rfl, hconsumed, hwritten, hlen⟩

end ClassFile

end JavaClass
