import JavaClass.Proofs.Attribute.Accounting
import JavaClass.Proofs.Attribute.Length
import JavaClass.Proofs.Writing.Refusing

/-!
# Attributes that are refused

Attributes can be read that cannot be written: four bytes say how long code is, but no method can
have as much code as four bytes can say. This is the only reason. All other numbers of an attribute
that was read fit into what they were read from, and the attributes in it were read as well.

- `Attribute.HasLongCode`: there is code in an attribute that is too long for a method.
- `Attribute.codeFits_of_write`: what is written has no such code.
- `Attribute.IsWritable`: the attributes in an attribute are written if they have no such code.
- `Attribute.writableUnless_readList`: what is read is not written only if it has such code.
-/

namespace JavaClass.Attribute

variable {attr : Attribute} {cause : Error}

/-- In an attribute there is code that is too long for a method, and the cause is its length. -/
def HasLongCode (attr : Attribute) (cause : Error) : Prop :=
  ∃ body attributes, Occurs (.code body attributes) attr ∧
    MethodBody.maxCodeLength < body.codeLength ∧ cause = .codeTooLong body.codeLength

/-- Code that is too long for one of the attributes of a method body is so for the body. -/
theorem HasLongCode.nested {body : MethodBody} {attributes : List Attribute}
    (h : attr.HasLongCode cause) (hmem : attr ∈ attributes) :
    (code body attributes).HasLongCode cause := by
  obtain ⟨inner, innermost, hoccurs, hlong, rfl⟩ := h
  exact ⟨inner, innermost, .nested hmem hoccurs, hlong, rfl⟩

/-- In an attribute that is no method body there is no code. -/
theorem codeFits_of_not_code (h : ∀ body attributes, attr ≠ .code body attributes) :
    attr.CodeFits := by
  intro body attributes hoccurs
  rw [occurs_iff_of_not_code h] at hoccurs
  exact absurd hoccurs.symm (h body attributes)

/-- In a method body there is its own code and that of its attributes. -/
theorem codeFits_code_iff {body : MethodBody} {attributes : List Attribute} :
    (code body attributes).CodeFits ↔
      body.codeLength ≤ MethodBody.maxCodeLength ∧ ∀ attr ∈ attributes, attr.CodeFits := by
  constructor
  · intro h
    exact ⟨h body attributes .self,
      fun attr hmem inner innermost hoccurs => h inner innermost (.nested hmem hoccurs)⟩
  · rintro ⟨hle, hnested⟩ inner innermost hoccurs
    obtain heq | ⟨outer, hmem, hoccurs⟩ := occurs_code_iff.mp hoccurs
    · obtain ⟨rfl, rfl⟩ := Attribute.code.inj heq
      exact hle
    · exact hnested outer hmem inner innermost hoccurs

/-! ## Lengths -/

/-- A sum of lengths has all of them. -/
theorem exists_length_of_totalLengthFrom {attributes : List Attribute} {total sum : Nat}
    (h : totalLengthFrom total attributes = .ok sum) (hmem : attr ∈ attributes) :
    ∃ length, attr.length = .ok length := by
  obtain ⟨lengths, hlengths, -⟩ := totalLengthFrom_eq_ok_iff.mp h
  have hlength : attr.length ∈ attributes.map Attribute.length := List.mem_map_of_mem hmem
  rw [hlengths] at hlength
  obtain ⟨length, -, hlength⟩ := List.mem_map.mp hlength
  exact ⟨length, hlength.symm⟩

/-- A sum of lengths lacks one of them if there is none. -/
theorem exists_of_totalLengthFrom_eq_error {attributes : List Attribute} {total : Nat}
    (h : totalLengthFrom total attributes = .error cause) :
    ∃ attr ∈ attributes, attr.length = .error cause := by
  induction attributes generalizing total with
  | nil => cases h
  | cons first others ih =>
    rw [totalLengthFrom, bind_eq_error] at h
    obtain hfirst | ⟨length, -, hothers⟩ := h
    · exact ⟨first, List.mem_cons_self, hfirst⟩
    · obtain ⟨attr, hmem, hattr⟩ := ih hothers
      exact ⟨attr, List.mem_cons_of_mem first hmem, hattr⟩

/-- A method body has no length because of its code; or, if the code is not too long, because of one
of its attributes, or because four bytes cannot say the sum. -/
theorem length_code_eq_error {body : MethodBody} {attributes : List Attribute}
    (h : (code body attributes).length = .error cause) :
    MethodBody.maxCodeLength < body.codeLength ∧ cause = .codeTooLong body.codeLength ∨
      body.codeLength ≤ MethodBody.maxCodeLength ∧
        (totalLengthFrom 0 attributes = .error cause ∨
          ∃ total, totalLengthFrom 0 attributes = .ok total ∧
            bodyLength body total = .error cause) := by
  rw [Attribute.length] at h
  split at h
  · next hlong =>
    cases h
    exact .inl ⟨hlong, rfl⟩
  · next hshort => exact .inr ⟨Nat.le_of_not_lt hshort, bind_eq_error.mp h⟩

/-- An attribute has a length only if no code in it is too long. -/
theorem codeFits_of_length {length : UInt32} (h : attr.length = .ok length) : attr.CodeFits := by
  induction attr using induction generalizing length with
  | sourceFile name file | constantValue name value | lineNumberTable name lines =>
    exact codeFits_of_not_code (by simp)
  | code body attributes ih =>
    obtain ⟨hle, total, htotal, -⟩ := length_code_eq_ok.mp h
    refine codeFits_code_iff.mpr ⟨hle, fun attr hmem => ?_⟩
    obtain ⟨length, hlength⟩ := exists_length_of_totalLengthFrom htotal hmem
    exact ih attr hmem hlength

/-- An attribute is written only if no code in it is too long. -/
theorem codeFits_of_write {bytes : Bytes} (h : attr.write = .ok bytes) : attr.CodeFits := by
  obtain ⟨length, -, hlength, -⟩ := write_eq_ok.mp h
  exact codeFits_of_length hlength

/-- Attributes are written only if no code in them is too long. -/
theorem codeFits_of_writeList {attributes : List Attribute} {bytes : Bytes}
    (h : writeList attributes = .ok bytes) (hmem : attr ∈ attributes) : attr.CodeFits := by
  obtain ⟨count, body, -, hbody, -⟩ := writeTable_eq_ok.mp h
  obtain ⟨piece, hpiece, -⟩ := exists_write_of_mem hbody hmem
  exact codeFits_of_write hpiece

/-- Where there is no length, nothing is written. -/
theorem write_of_length_eq_error (h : attr.length = .error cause) : attr.write = .error cause := by
  cases attr with
  | sourceFile name file | constantValue name value | lineNumberTable name lines
  | code body attributes =>
    rw [write, h]
    rfl

/-! ## Refusals -/

/-- An attribute in an attribute is written if no code in it is too long. -/
def IsWritable (attr : Attribute) : Prop :=
  ∀ found, Occurs found attr → found.CodeFits → ∃ bytes, found.write = .ok bytes

/-- An attribute that would be written if its code were short has a length in the same case. -/
theorem IsWritable.exists_length (h : attr.IsWritable) (hfits : attr.CodeFits) :
    ∃ length, attr.length = .ok length := by
  obtain ⟨bytes, hwrite⟩ := h attr .self hfits
  obtain ⟨length, -, hlength, -⟩ := write_eq_ok.mp hwrite
  exact ⟨length, hlength⟩

/-- An attribute has no length only for code that is too long, at the depth at which it stands. -/
theorem IsWritable.hasLongCode_of_length (hwritable : attr.IsWritable)
    (h : attr.length = .error cause) : attr.HasLongCode cause := by
  induction attr using induction with
  | sourceFile name file | constantValue name value => cases h
  | lineNumberTable name lines =>
    obtain ⟨length, hlength⟩ := hwritable.exists_length (codeFits_of_not_code (by simp))
    rw [hlength] at h
    cases h
  | code body attributes ih =>
    have hnested (attr : Attribute) (hmem : attr ∈ attributes) : attr.IsWritable :=
      fun found hoccurs => hwritable found (.nested hmem hoccurs)
    obtain ⟨hlong, rfl⟩ | ⟨hshort, htotal | ⟨total, htotal, -⟩⟩ := length_code_eq_error h
    · exact ⟨body, attributes, .self, hlong, rfl⟩
    · -- The first attribute without a length is the cause.
      obtain ⟨attr, hmem, hattr⟩ := exists_of_totalLengthFrom_eq_error htotal
      exact (ih attr hmem (hnested attr hmem) hattr).nested hmem
    · -- All code is short, so there is a length.
      have hfits : (code body attributes).CodeFits := by
        refine codeFits_code_iff.mpr ⟨hshort, fun attr hmem => ?_⟩
        obtain ⟨length, hlength⟩ := exists_length_of_totalLengthFrom htotal hmem
        exact codeFits_of_length hlength
      obtain ⟨length, hlength⟩ := hwritable.exists_length hfits
      rw [hlength] at h
      cases h

/-- An attribute is refused only for code that is too long. -/
theorem IsWritable.hasLongCode (hwritable : attr.IsWritable) (h : attr.write = .error cause) :
    attr.HasLongCode cause := by
  -- The length is worked out first, so its cause is the one that is given.
  rcases hlength : attr.length with cause' | length
  · rw [write_of_length_eq_error hlength] at h
    cases h
    exact hwritable.hasLongCode_of_length hlength
  · obtain ⟨bytes, hwrite⟩ := hwritable attr .self (codeFits_of_length hlength)
    rw [hwrite] at h
    cases h

/-! ## What is read -/

variable {pool : ConstantPool} {input rest : Bytes} {reports : List Diagnostic}

/-- A reader of attributes yields ones that are writable. -/
def YieldsWritable (reader : Reader (List Attribute)) : Prop :=
  ∀ ⦃input reports attributes rest⦄, reader.Reads input reports attributes rest →
    ∀ attr ∈ attributes, attr.IsWritable

/-- What is known of the readers for the attributes of method bodies. -/
structure IsFaithful (pool : ConstantPool) (reader : Reader (List Attribute)) : Prop where
  /-- They yield well-formed attributes. -/
  wellFormed : YieldsWellFormed pool reader
  /-- They account for the bytes that they take. -/
  accounts : AccountsForAttributes reader
  /-- They yield attributes that are writable. -/
  writable : YieldsWritable reader

/-- An attribute that is read is writable if those in it are. -/
theorem isWritable_of_reads_readWith (hpool : pool.Canonical)
    {nested : Nat → Reader (List Attribute)} (hnested : ∀ length, IsFaithful pool (nested length))
    (h : (readWith pool nested).Reads input reports (some attr) rest) : attr.IsWritable := by
  intro found hoccurs hfits
  cases hoccurs with
  | self =>
    -- An attribute that accounts for its bytes is one that can be written.
    have haccounts := accounts_readWith hpool (fun length => (hnested length).wellFormed)
      fun length => (hnested length).accounts
    obtain ⟨-, written, -, hwrite, -⟩ := haccounts h fun _ heq => Option.some.inj heq ▸ hfits
    exact ⟨written, hwrite⟩
  | nested hmem hoccurs =>
    -- What hangs on a method body was read by the reader for its attributes.
    obtain ⟨header, body, -, -, -, -, ⟨-, hnone, -⟩ | ⟨_, before, unused, hsome, -, -, -, hcontents,
      -⟩⟩ := reads_readWith.mp h
    · cases hnone
    · cases hsome
      obtain ⟨front, between, -, -, -, hread⟩ := hcontents
      exact (hnested _).writable hread _ hmem found hoccurs hfits

/-- Attributes that are read are writable if those in them are. -/
theorem yieldsWritable_readListWith (hpool : pool.Canonical)
    {nested : Nat → Reader (List Attribute)} (hnested : ∀ length, IsFaithful pool (nested length)) :
    YieldsWritable (readListWith pool nested) := by
  intro input reports attributes rest h
  exact forall_of_reads_readListWith
    (fun _ _ _ _ hread => isWritable_of_reads_readWith hpool hnested hread) h

/-- The readers for the attributes of method bodies are faithful at every depth. -/
theorem isFaithful_readNested (hpool : pool.Canonical) (length : Nat) :
    IsFaithful pool (readNested pool length) := by
  refine readNested_induction (motive := IsFaithful pool) (fun cause => ?_) (fun nested ih => ?_)
    length
  · exact ⟨fun _ _ _ _ h => absurd h Reader.reads_fail, fun _ _ _ _ h => absurd h Reader.reads_fail,
      fun _ _ _ _ h => absurd h Reader.reads_fail⟩
  · exact ⟨yieldsWellFormed_readListWith hpool fun length => (ih length).wellFormed,
      accounts_readListWith hpool (fun length => (ih length).wellFormed)
        fun length => (ih length).accounts,
      yieldsWritable_readListWith hpool ih⟩

/-- Attributes that were read are refused only if there is code in one of them that is too long. -/
theorem writableUnless_readList (hpool : pool.Canonical) :
    (readList pool).WritableUnless
      (fun attributes cause => ∃ attr ∈ attributes, attr.HasLongCode cause) writeList := by
  intro input reports attributes rest hreads cause herror
  have hlt := length_lt_of_reads_readListWith hreads
  have hwritable := yieldsWritable_readListWith hpool (isFaithful_readNested hpool) hreads
  obtain ⟨hle, -⟩ | ⟨attr, hmem, hattr⟩ := exists_of_writeTable_eq_error herror
  · omega
  · exact ⟨attr, hmem, (hwritable attr hmem).hasLongCode hattr⟩

end JavaClass.Attribute
