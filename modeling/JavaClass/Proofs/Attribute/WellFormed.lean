import JavaClass.Proofs.Attribute.Reading
import JavaClass.Proofs.ConstantPool.Format

/-!
# Well-formed attributes

An attribute is well-formed if, at every depth, attributes have the names of their kinds and sound
contents. Whatever is read is well-formed, and whatever is well-formed is read back as it was
written.

- `Attribute.WellFormed`: well-formed attributes.
- `Attribute.readNested_induction`: what holds of the readers of attributes at every depth.
- `Attribute.yieldsWellFormed_readList`: attributes that are read are well-formed.
- `Attribute.reads_readList_of_write`: well-formed attributes are read back.
-/

namespace JavaClass.Attribute

variable {pool : ConstantPool} {attr : Attribute} {input rest : Bytes} {reports : List Diagnostic}

/-- An attribute has the name of its kind and sound contents, its attributes aside. -/
def IsSound (pool : ConstantPool) (attr : Attribute) : Prop :=
  pool.text attr.name = .ok attr.kindName ∧ attr.HasSoundContents pool

/-- An attribute and all attributes in it are sound. -/
def WellFormed (pool : ConstantPool) (attr : Attribute) : Prop :=
  ∀ found, Occurs found attr → found.IsSound pool

/-- A method body is well-formed if it is sound and its attributes are well-formed. -/
theorem wellFormed_code_iff {body : MethodBody} {attributes : List Attribute} :
    (code body attributes).WellFormed pool ↔
      (code body attributes).IsSound pool ∧ ∀ attr ∈ attributes, attr.WellFormed pool := by
  constructor
  · intro h
    exact ⟨h _ .self, fun attr hmem found hoccurs => h found (.nested hmem hoccurs)⟩
  · rintro ⟨hsound, hnested⟩ found hoccurs
    obtain rfl | ⟨outer, hmem, hoccurs⟩ := occurs_code_iff.mp hoccurs
    · exact hsound
    · exact hnested outer hmem found hoccurs

/-- An attribute that is no method body is well-formed if it is sound. -/
theorem wellFormed_of_not_code (h : ∀ body attributes, attr ≠ .code body attributes)
    (hsound : attr.IsSound pool) : attr.WellFormed pool := by
  intro found hoccurs
  rw [occurs_iff_of_not_code h] at hoccurs
  rwa [hoccurs]

/-- The code of a well-formed attribute was laid out from offset 0 on. -/
theorem WellFormed.isLaidOut (h : attr.WellFormed pool) : attr.IsLaidOut :=
  fun _ _ hoccurs => ⟨0, (h _ hoccurs).2.1⟩

/-! ## What is read is well-formed -/

/-- What holds of a reader that runs out of input, and of a reader of attributes if it holds of the
readers for the attributes in them, holds of the reader for the attributes of a method body. -/
theorem readNested_induction {motive : Reader (List Attribute) → Prop}
    (fail : ∀ ending, motive (Reader.fail (.endOfInput ending)))
    (list : ∀ nested : Nat → Reader (List Attribute), (∀ length, motive (nested length)) →
      motive (readListWith pool nested)) (length : Nat) : motive (readNested pool length) := by
  induction length using Nat.strongRecOn with
  | ind length ih =>
    rw [readNested]
    refine list _ fun inner => ?_
    split
    · next hlt => exact ih inner hlt
    · exact fail _

/-- The names of kinds have no replacement characters. -/
theorem replacement_not_mem_kindName (attr : Attribute) :
    Utf16.replacement ∉ attr.kindName.toList := by
  cases attr <;> simp only [kindName] <;> decide

/-- A known name in a pool that was read is a text: unpaired surrogates would have been replaced. -/
theorem text_of_textLossy (hpool : pool.Canonical) {name : ConstantIndex}
    (h : pool.textLossy name = .ok attr.kindName) : pool.text name = .ok attr.kindName := by
  simp only [ConstantPool.textLossy, bind_eq_ok] at h
  obtain ⟨found, hget, htext⟩ := h
  split at htext
  · rw [ConstantPool.text_eq_ok_iff, hget, pure_eq_ok.mp htext]
  · next units =>
    -- A string of units shows a replacement character, which is in no name of a kind.
    have hmem := hpool.replacement_mem hget
    rw [pure_eq_ok.mp htext] at hmem
    exact absurd hmem (replacement_not_mem_kindName attr)
  · cases htext

/-- A reader of attributes yields well-formed ones only. -/
def YieldsWellFormed (pool : ConstantPool) (reader : Reader (List Attribute)) : Prop :=
  ∀ ⦃input reports attributes rest⦄, reader.Reads input reports attributes rest →
    ∀ attr ∈ attributes, attr.WellFormed pool

/-- An attribute that is read is well-formed if those in it are. -/
theorem wellFormed_of_reads_readWith (hpool : pool.Canonical)
    {nested : Nat → Reader (List Attribute)}
    (hnested : ∀ length, YieldsWellFormed pool (nested length))
    (h : (readWith pool nested).Reads input reports (some attr) rest) : attr.WellFormed pool := by
  obtain ⟨header, body, -, htext, -, -, ⟨-, hnone, -⟩ | ⟨_, before, unused, hsome, hname, hkind,
    hsound, hcontents, -⟩⟩ := reads_readWith.mp h
  · cases hnone
  · cases hsome
    -- The name was compared after replacing surrogates, but there were none to replace.
    rw [← hkind, ← hname] at htext
    have hsound : attr.IsSound pool := ⟨text_of_textLossy hpool htext, hsound⟩
    cases attr with
    | code body attributes =>
      obtain ⟨front, between, -, -, -, hread⟩ := hcontents
      exact wellFormed_code_iff.mpr ⟨hsound, hnested _ hread⟩
    | _ => exact wellFormed_of_not_code (by simp) hsound

/-- Attributes that are read are well-formed if those in them are. -/
theorem yieldsWellFormed_readListWith (hpool : pool.Canonical)
    {nested : Nat → Reader (List Attribute)}
    (hnested : ∀ length, YieldsWellFormed pool (nested length)) :
    YieldsWellFormed pool (readListWith pool nested) := by
  intro input reports attributes rest h
  exact forall_of_reads_readListWith
    (fun _ _ _ _ hread => wellFormed_of_reads_readWith hpool hnested hread) h

/-- The attributes of a method body that are read are well-formed. -/
theorem yieldsWellFormed_readNested (hpool : pool.Canonical) (length : Nat) :
    YieldsWellFormed pool (readNested pool length) := by
  refine readNested_induction (motive := YieldsWellFormed pool) ?_ ?_ length
  · intro cause input reports attributes rest h
    exact absurd h Reader.reads_fail
  · intro nested ih
    exact yieldsWellFormed_readListWith hpool ih

/-- Attributes that are read are well-formed. -/
theorem yieldsWellFormed_readList (hpool : pool.Canonical) :
    YieldsWellFormed pool (readList pool) :=
  yieldsWellFormed_readListWith hpool (yieldsWellFormed_readNested hpool)

/-! ## What is well-formed is read back -/

/-- A sound attribute is read from its header and its contents if these are read. -/
theorem reads_readWith_of_contents {nested : Nat → Reader (List Attribute)} {contents : Bytes}
    {length : UInt32} (hsound : attr.IsSound pool) (hlen : contents.length = length.toNat)
    (hcontents : attr.ReadsContents (nested length.toNat) contents [] []) :
    (readWith pool nested).Reads (headerBytes attr.name length ++ contents ++ rest) [] (some attr)
      rest := by
  refine reads_readWith.mpr ⟨⟨attr.name, attr.kindName, length⟩, contents,
    ConstantPool.isString_of_text hsound.1, ConstantPool.textLossy_of_text hsound.1, hlen, rfl,
    .inr ⟨attr, [], [], rfl, rfl, rfl, hsound.2, hcontents, rfl⟩⟩

/-- Attributes are read back if each of them is. -/
theorem reads_readListWith_of_write {nested : Nat → Reader (List Attribute)}
    {attributes : List Attribute} {bytes : Bytes}
    (h : ∀ attr ∈ attributes, ∀ bytes rest, attr.write = .ok bytes →
      (readWith pool nested).Reads (bytes ++ rest) [] (some attr) rest)
    (hwrite : writeList attributes = .ok bytes) (rest : Bytes) :
    (readListWith pool nested).Reads (bytes ++ rest) [] attributes rest := by
  obtain ⟨count, body, hcount, hbody, rfl⟩ := writeTable_eq_ok.mp hwrite
  refine reads_readListWith.mpr ⟨count, attributes.map some, body ++ rest, by simp, ?_, by simp⟩
  rw [hcount]
  exact Reader.reads_times_of_write some h hbody rest

/-- A well-formed attribute is read back, by any reader that reads the attributes of a method body
of its length as they are to be read. -/
theorem reads_readWith_of_write (h : attr.WellFormed pool) {bytes : Bytes}
    (hwrite : attr.write = .ok bytes) {nested : Nat → Reader (List Attribute)}
    (hnested : ∀ length, attr.length = .ok length →
      nested length.toNat = readNested pool length.toNat) (rest : Bytes) :
    (readWith pool nested).Reads (bytes ++ rest) [] (some attr) rest := by
  induction attr using induction generalizing bytes nested rest with
  | sourceFile name file | constantValue name value | lineNumberTable name lines =>
    obtain ⟨length, contents, -, hcontents, hlen, rfl⟩ :=
      exists_contents_of_write h.isLaidOut hwrite
    refine reads_readWith_of_contents (h _ .self) hlen ?_
    exact ⟨rfl, contents, hcontents, (List.append_nil contents).symm⟩
  | code body attributes ih =>
    obtain ⟨length, _, hlength, hcontents, hlen, rfl⟩ :=
      exists_contents_of_write h.isLaidOut hwrite
    obtain ⟨hsound, hattributes⟩ := wellFormed_code_iff.mp h
    simp only [writeContents, bind_eq_ok, pure_eq_ok] at hcontents
    obtain ⟨front, hfront, list, hlist, rfl⟩ := hcontents
    -- Left are the length of the code, which is limited, and the attributes of the body.
    refine reads_readWith_of_contents hsound hlen ⟨front, list, ?_, hfront, rfl, ?_⟩
    · have hle := (length_code_eq_ok.mp hlength).1
      unfold MethodBody.maxCodeLength at hle
      omega
    · rw [hnested length hlength, readNested, ← List.append_nil list]
      refine reads_readListWith_of_write (fun attr hmem piece rest hpiece => ?_) hlist []
      refine ih attr hmem (hattributes attr hmem) hpiece (fun inner hinner => ?_) rest
      -- The attribute is part of the body, so it is shorter.
      refine if_pos ?_
      obtain ⟨count, all, -, hall, rfl⟩ := writeTable_eq_ok.mp hlist
      obtain ⟨piece', hpiece', hinfix⟩ := exists_write_of_mem hall hmem
      have hle := hinfix.length_le
      obtain ⟨inner', hinner', hlenInner⟩ := length_write (hattributes attr hmem).isLaidOut hpiece'
      rw [hinner, Except.ok.injEq] at hinner'
      subst hinner'
      unfold headerLength at hlenInner
      simp only [List.length_append] at hlen
      omega

/-- Well-formed attributes are read back. -/
theorem reads_readList_of_write {attributes : List Attribute}
    (h : ∀ attr ∈ attributes, attr.WellFormed pool) {bytes : Bytes}
    (hwrite : writeList attributes = .ok bytes) (rest : Bytes) :
    (readList pool).Reads (bytes ++ rest) [] attributes rest :=
  reads_readListWith_of_write (fun attr hmem _ rest hbytes =>
    reads_readWith_of_write (h attr hmem) hbytes (fun _ _ => rfl) rest) hwrite rest

end JavaClass.Attribute
