import JavaClass.Proofs.Attribute.Announced
import JavaClass.Proofs.ConstantPool.Refusing

/-!
# Class files announce their errors

When a class file is read, what is reported and how the read ends agree. An opcode that cannot be
decoded is reported if and only if it is the error, once and last, as it was found in the code of a
method body. All other reports are about losses.

- `Member.obeys_read`, `ClassFile.obeys_readBehind`: the readers of the sections behind the pool.
- `ClassFile.IsAnnouncing`: how the reports and the errors of reading some bytes agree;
  `ClassFile.isAnnouncing` says that they do for all bytes.
-/

namespace JavaClass

open Reader

/-! ## Sections -/

theorem Version.obeys_read : Version.read.Obeys Conduct.plain :=
  obeys_u2.bind fun _ => obeys_u2.map _

theorem AccessFlags.obeys_read {declaration : Declaration} :
    (AccessFlags.read : Reader (AccessFlags declaration)).Obeys Conduct.plain :=
  obeys_u2.map _

/-- No error about a constant is reported. -/
theorem Constant.MayFail.announcement?_eq {cause : Error} (h : Constant.MayFail cause) :
    cause.announcement? = none := by
  unfold Constant.MayFail at h
  split at h
  · rfl
  · rfl
  · rfl
  · rfl
  · cases h

namespace ConstantPool

/-- Nothing is reported about pools. -/
theorem obeys_read : ConstantPool.read.Obeys Conduct.plain where
  reported := fun _ _ _ _ h => ((inverts_read ..).mp h).1
  suffix := fun _ _ _ _ h => delimited_read.suffix h
  failed := by
    intro input reports cause h
    obtain ⟨rfl, -⟩ := fails_read.mp h
    obtain hconstant | ⟨count, rfl⟩ := cause_of_fails_read h
    · exact ⟨rfl, hconstant.announcement?_eq⟩
    · exact ⟨rfl, rfl⟩

end ConstantPool

/-- Members announce the errors of their attributes. -/
theorem Member.obeys_read {declaration : Declaration} (pool : ConstantPool) :
    (Member.read pool : Reader (Member declaration)).Obeys
      (Conduct.announcing (Attribute.IsCodeRefused pool)) :=
  (Conduct.obeys_announcing AccessFlags.obeys_read).bind fun _ => obeys_u2.bind fun _ =>
    (Conduct.obeys_announcing (pool.obeys_stringIndex _)).bind fun _ => obeys_u2.bind fun _ =>
      (Conduct.obeys_announcing (pool.obeys_stringIndex _)).bind fun _ =>
        (Attribute.obeys_readList pool).map _

namespace ClassFile

theorem obeys_readMagic : readMagic.Obeys Conduct.plain := by
  refine (obeys_fixed magic.length).bind ?_
  rintro ⟨found, -⟩
  simp only
  split
  · exact obeys_pure ()
  · exact obeys_fail fun _ => ⟨rfl, rfl⟩

theorem obeys_readClassIndex (pool : ConstantPool) : (readClassIndex pool).Obeys Conduct.plain :=
  obeys_u2.bind pool.obeys_classIndex

theorem obeys_readSuperClass (pool : ConstantPool) : (readSuperClass pool).Obeys Conduct.plain := by
  refine obeys_u2.bind fun index => ?_
  split
  · exact obeys_pure none
  · exact (pool.obeys_classIndex index).map some

/-- Reads what stands behind the pool of a class file. -/
def readBehind (version : Version) (constants : ConstantPool) : Reader ClassFile := do
  let flags ← AccessFlags.read
  let thisClass ← readClassIndex constants
  let superClass ← readSuperClass constants
  let interfaces ← Reader.table (readClassIndex constants)
  let fields ← Reader.table (Member.read constants)
  let methods ← Reader.table (Member.read constants)
  let attributes ← Attribute.readList constants
  return { version, constants, flags, thisClass, superClass, interfaces, fields, methods,
           attributes }

/-- A class file is read up to the end of its pool, and then behind it. -/
theorem read_eq :
    ClassFile.read =
      (do
        readMagic
        let version ← Version.read
        let constants ← ConstantPool.read
        readBehind version constants) :=
  rfl

/-- What stands behind a pool announces the errors of the attributes in it. -/
theorem obeys_readBehind (version : Version) (pool : ConstantPool) :
    (readBehind version pool).Obeys (Conduct.announcing (Attribute.IsCodeRefused pool)) :=
  (Conduct.obeys_announcing AccessFlags.obeys_read).bind fun _ =>
    (Conduct.obeys_announcing (obeys_readClassIndex pool)).bind fun _ =>
      (Conduct.obeys_announcing (obeys_readSuperClass pool)).bind fun _ =>
        (Conduct.obeys_announcing (obeys_readClassIndex pool)).table.bind fun _ =>
          (Member.obeys_read pool).table.bind fun _ => (Member.obeys_read pool).table.bind fun _ =>
            (Attribute.obeys_readList pool).map _

/-! ## Reports and errors -/

variable {bytes : Bytes} {reports : List Diagnostic} {cause : Error}

/-- What is reported about a class file is reported behind its pool. -/
theorem exists_reads_readBehind {file : ClassFile} {rest : Bytes}
    (h : ClassFile.read.Reads bytes reports file rest) :
    ∃ version pool behind, (readBehind version pool).Reads behind reports file rest := by
  rw [read_eq] at h
  simp only [reads_bind_of_silent fun _ _ _ _ => reads_readMagic, Version.inverts_read.reads_bind,
    ConstantPool.inverts_read.reads_bind] at h
  obtain ⟨_, _, -, version, _, -, pool, behind, -, h⟩ := h
  exact ⟨version, pool, behind, h⟩

/-- A class file is refused plainly, or for what stands behind its pool. -/
theorem fails_read (h : ClassFile.read.Fails bytes reports cause) :
    Conduct.plain.Failed bytes reports cause ∨
      ∃ version pool behind, ConstantPool.read.Reads (bytes.drop 8) [] pool behind ∧
        (readBehind version pool).Fails behind reports cause := by
  rw [read_eq] at h
  obtain hmagic | ⟨_, _, hmagic, hafterMagic⟩ := fails_bind_of_plain obeys_readMagic h
  · exact .inl hmagic
  obtain hversion | ⟨version, _, hversion, hafterVersion⟩ :=
    fails_bind_of_plain Version.obeys_read hafterMagic
  · exact .inl hversion
  obtain hpool | ⟨pool, behind, hpool, hbehind⟩ :=
    fails_bind_of_plain ConstantPool.obeys_read hafterVersion
  · exact .inl hpool
  -- The magic number and the version are eight bytes.
  obtain ⟨-, rfl⟩ := reads_readMagic.mp hmagic
  obtain ⟨-, -, _, ⟨⟩, rfl⟩ := (Version.inverts_read ..).mp hversion
  exact .inr ⟨version, pool, behind, hpool, hbehind⟩

/-- Behind the pool of a class file stands a method body. Up to a place its code decodes; there, a
byte is refused as an opcode. -/
def RefusesOpcode (bytes : Bytes) (announcement : Diagnostic) (cause : Error) : Prop :=
  ∃ pool behind, ConstantPool.read.Reads (bytes.drop 8) [] pool behind ∧
    ∃ frame : Attribute.Frame pool, frame.toBytes <:+: behind ∧
      frame.header.text = Attribute.codeName ∧
      ∃ (array : Attribute.CodeArray frame.body) (place : Nat), place < array.code.length ∧
        (∃ front, Instruction.decodeAll (array.code.take place) = ⟨[], .ok (front, [])⟩) ∧
        Instruction.Stops place (array.code.drop place) [announcement] cause

/-- How the reports and the errors of reading some bytes as a class file agree. -/
structure IsAnnouncing (bytes : Bytes) : Prop where
  /-- If a class file is read, all reports are about losses. -/
  read : ∀ reports file rest, ofBytes bytes = ⟨reports, .ok (file, rest)⟩ →
    ∀ diagnostic ∈ reports, diagnostic.IsLoss
  /-- An error about an opcode is reported last. As all other reports are about losses, it is
  reported once. -/
  announced : ∀ reports cause announcement, ofBytes bytes = ⟨reports, .error cause⟩ →
    cause.announcement? = some announcement →
      ¬ announcement.IsLoss ∧ ∃ losses, reports = losses ++ [announcement] ∧
        ∀ diagnostic ∈ losses, diagnostic.IsLoss
  /-- The offset in it is that of the opcode in the code of a method body. -/
  located : ∀ reports cause announcement, ofBytes bytes = ⟨reports, .error cause⟩ →
    cause.announcement? = some announcement → RefusesOpcode bytes announcement cause
  /-- If the error is another one, all reports are about losses. -/
  silent : ∀ reports cause, ofBytes bytes = ⟨reports, .error cause⟩ → cause.announcement? = none →
    ∀ diagnostic ∈ reports, diagnostic.IsLoss

/-- What is reported about an error is not that something was lost. -/
theorem not_isLoss_of_announcement? {announcement : Diagnostic}
    (h : cause.announcement? = some announcement) : ¬ announcement.IsLoss := by
  unfold Error.announcement? at h
  split at h <;> cases h <;> exact id

/-- Losses are reported, and then the error that ends the read. -/
theorem isAnnounced_of_fails (h : ClassFile.read.Fails bytes reports cause) :
    cause.IsAnnounced reports := by
  obtain ⟨rfl, hcause⟩ | ⟨version, pool, behind, -, hbehind⟩ := fails_read h
  · exact Error.isAnnounced_nil hcause
  · exact ((obeys_readBehind version pool).failed hbehind).1

/-- An error that is reported is about an opcode in the code of a method body. -/
theorem refusesOpcode_of_fails {announcement : Diagnostic}
    (h : ClassFile.read.Fails bytes reports cause)
    (hannouncement : cause.announcement? = some announcement) :
    RefusesOpcode bytes announcement cause := by
  obtain ⟨-, hnone⟩ | ⟨version, pool, behind, hpool, hbehind⟩ := fails_read h
  · rw [hannouncement] at hnone
    cases hnone
  · have hsome : cause.announcement?.isSome := by
      rw [hannouncement]
      rfl
    obtain ⟨_, hinfix, frame, rfl, htext, array, hrefused⟩ :=
      ((obeys_readBehind version pool).failed hbehind).2 hsome
    obtain ⟨place, hlt, hfront, hstops⟩ :=
      (Instruction.decodesExactly array.code).stopped _ _ hrefused
    -- What was reported where decoding stopped is what announces the error.
    rw [hannouncement] at hstops
    exact ⟨pool, behind, hpool, frame, hinfix, htext, array, place, hlt, hfront, hstops⟩

/-- Whatever the bytes are, what is reported about them agrees with how the read ends. -/
theorem isAnnouncing (bytes : Bytes) : IsAnnouncing bytes where
  read := by
    intro reports file rest h
    obtain ⟨version, pool, behind, hbehind⟩ := exists_reads_readBehind h
    exact (obeys_readBehind version pool).reported hbehind
  announced := by
    intro reports cause announcement h hannouncement
    obtain ⟨losses, hlosses, rfl⟩ := isAnnounced_of_fails h
    refine ⟨not_isLoss_of_announcement? hannouncement, losses, ?_, hlosses⟩
    rw [hannouncement]
    rfl
  located := fun _ _ _ h hannouncement => refusesOpcode_of_fails h hannouncement
  silent := by
    intro reports cause h hnone
    obtain ⟨losses, hlosses, rfl⟩ := isAnnounced_of_fails h
    rwa [hnone, Option.toList_none, List.append_nil]

/-- In the class with losses, the code of the method body is made a switch. The loss in front of it
is reported before. -/
example :
    (ofBytes (bytesWithLosses.set 65 0xAA)).reports =
      [.skippedAttribute "X" 3, .unsupportedOpcode 0xAA 0] := by
  decide +kernel

end ClassFile

end JavaClass
