import JavaClass.Proofs.ClassFile.Accounting
import JavaClass.Proofs.Reading.Delimited

/-!
# Class files find their own end

Every section of a class file says itself where it ends. What stands behind a class file does not
change how it is read, and a class file that is cut off is found to be so at every cut.

- `Constant.delimited_read`, `ConstantPool.delimited_read`, `Attribute.delimited_readList`,
  `Member.delimited_read`, `ClassFile.delimited_read`: the readers of the sections.
- `ClassFile.IsSelfDelimiting`: what a class file that goes on, one that is cut off and one that is
  refused are read as; `ClassFile.isSelfDelimiting` says that this holds of all bytes.
-/

namespace JavaClass

open Reader

/-! ## Sections -/

theorem ReferenceKind.delimited_read : ReferenceKind.read.Delimited := by
  refine delimited_u1.bind fun byte => ?_
  split
  · exact delimited_pure _
  · exact delimited_fail _

/-- The fields of a constant end where those of its kind do, and a string where its count says. -/
theorem Constant.delimited_readFields (tag : UInt8) : (readFields tag).Delimited := by
  unfold readFields
  split
  case h_1 =>
    exact delimited_u2.bind fun count => (delimited_bytes count.toNat).bind fun bytes =>
      (delimited_ofExcept _).map ofUnits
  -- The kinds of one word.
  case h_2 | h_3 => exact delimited_u4.map _
  case h_4 | h_5 => exact delimited_u8.map _
  case h_6 | h_7 | h_13 => exact delimited_u2.map _
  -- The kinds of two indices.
  case h_8 | h_9 | h_10 | h_11 | h_14 => exact delimited_u2.bind fun _ => delimited_u2.map _
  case h_12 => exact ReferenceKind.delimited_read.bind fun _ => delimited_u2.map _
  case h_15 => exact delimited_fail _

theorem Constant.delimited_read : Constant.read.Delimited :=
  delimited_u1.bind delimited_readFields

namespace ConstantPool

theorem delimited_readNext (count : UInt16) (pool : ConstantPool) :
    (readNext count pool).Delimited := by
  refine Constant.delimited_read.bind fun constant => ?_
  split
  · exact delimited_fail _
  · split
    · exact delimited_pure _
    · exact delimited_fail _

/-- A pool ends where its declared slots are filled. -/
theorem delimited_read : ConstantPool.read.Delimited := by
  refine delimited_u2.bind fun count => ?_
  split
  · exact delimited_fail _
  · exact Delimited.iterate (delimited_readNext count) count.toNat empty

end ConstantPool

theorem Version.delimited_read : Version.read.Delimited :=
  delimited_u2.bind fun _ => delimited_u2.map _

theorem AccessFlags.delimited_read {declaration : Declaration} :
    (AccessFlags.read : Reader (AccessFlags declaration)).Delimited :=
  delimited_u2.map _

namespace Attribute

variable (pool : ConstantPool)

theorem delimited_readHeader : (readHeader pool).Delimited :=
  delimited_u2.bind fun _ => (delimited_ofExcept _).bind fun _ =>
    (delimited_ofExcept _).bind fun _ => delimited_u4.map _

theorem delimited_reportUnused (header : Header) (unused : Bytes) :
    (reportUnused header unused).Delimited := by
  unfold reportUnused
  split
  · exact delimited_pure ()
  · exact delimited_report _

/-- An attribute ends where its header says. Its body is read on its own, so running out of the body
is the same as running out of the input, and it does not matter what the reader for nested
attributes makes of it. -/
theorem delimited_readWith (readNested : Nat → Reader (List Attribute)) :
    (readWith pool readNested).Delimited := by
  refine (delimited_readHeader pool).bind fun header => (delimited_bytes _).bind fun body => ?_
  split
  · exact (delimited_report _).bind fun _ => delimited_pure none
  · refine (delimited_within body _).bind fun found => ?_
    exact (delimited_reportUnused header _).bind fun _ => delimited_pure _

theorem delimited_readList : (readList pool).Delimited :=
  (delimited_readWith pool (readNested pool)).table.map _

end Attribute

theorem Member.delimited_read {declaration : Declaration} (pool : ConstantPool) :
    (Member.read pool : Reader (Member declaration)).Delimited :=
  AccessFlags.delimited_read.bind fun _ => delimited_u2.bind fun _ =>
    (delimited_ofExcept _).bind fun _ => delimited_u2.bind fun _ =>
      (delimited_ofExcept _).bind fun _ => (Attribute.delimited_readList pool).map _

namespace ClassFile

theorem delimited_readMagic : readMagic.Delimited := by
  refine (delimited_fixed magic.length).bind ?_
  rintro ⟨found, -⟩
  simp only
  split
  · exact delimited_pure ()
  · exact delimited_fail _

theorem delimited_readClassIndex (pool : ConstantPool) : (readClassIndex pool).Delimited :=
  delimited_u2.bind fun _ => delimited_ofExcept _

theorem delimited_readSuperClass (pool : ConstantPool) : (readSuperClass pool).Delimited := by
  refine delimited_u2.bind fun index => ?_
  split
  · exact delimited_pure none
  · exact (delimited_ofExcept _).map some

/-- A class file ends where its sections do. -/
theorem delimited_read : ClassFile.read.Delimited :=
  delimited_readMagic.bind fun _ => Version.delimited_read.bind fun _ =>
    ConstantPool.delimited_read.bind fun pool => AccessFlags.delimited_read.bind fun _ =>
      (delimited_readClassIndex pool).bind fun _ => (delimited_readSuperClass pool).bind fun _ =>
        (delimited_readClassIndex pool).table.bind fun _ =>
          (Member.delimited_read pool).table.bind fun _ =>
            (Member.delimited_read pool).table.bind fun _ =>
              (Attribute.delimited_readList pool).map _

/-- What reading some bytes has to do with reading more of them and with reading less. -/
structure IsSelfDelimiting (bytes : Bytes) : Prop where
  /-- What stands behind a class file is left, and changes nothing else. -/
  append : ∀ reports file rest more, ofBytes bytes = ⟨reports, .ok (file, rest)⟩ →
    ofBytes (bytes ++ more) = ⟨reports, .ok (file, rest ++ more)⟩
  /-- A class file ends in front of what is left. If less of it is there, the input ends too early,
  and what is reported up to there is what is reported first about all of it. -/
  cut : ∀ reports file rest, ofBytes bytes = ⟨reports, .ok (file, rest)⟩ →
    ∃ consumed, bytes = consumed ++ rest ∧ ∀ n < consumed.length,
      ∃ before ending, before <+: reports ∧
        ofBytes (bytes.take n) = ⟨before, .error (.endOfInput ending)⟩
  /-- Bytes that are refused for another reason than that they end are refused for it, with the same
  reports, whatever stands behind them. -/
  append_error : ∀ reports cause more, (∀ ending, cause ≠ .endOfInput ending) →
    ofBytes bytes = ⟨reports, .error cause⟩ → ofBytes (bytes ++ more) = ⟨reports, .error cause⟩

/-- Class files are self-delimiting, and it is always found out that one is cut off. -/
theorem isSelfDelimiting (bytes : Bytes) : IsSelfDelimiting bytes where
  append := fun _ _ _ more hread => delimited_read.append hread more
  cut := by
    intro reports file rest hread
    obtain ⟨consumed, rfl, -⟩ := delimited_read.exists_taken hread
    refine ⟨consumed, rfl, fun n hn => ?_⟩
    -- All that is cut off is longer than what is left, as the cut is inside the class file.
    have hsplit : ClassFile.read.Reads ((consumed ++ rest).take n ++ (consumed ++ rest).drop n)
        reports file rest := by
      rwa [List.take_append_drop]
    have hlt : rest.length < ((consumed ++ rest).drop n).length := by
      rw [List.length_drop, List.length_append]
      omega
    exact delimited_read.cut hsplit hlt
  append_error := fun _ _ more hcause herror => delimited_read.append_error hcause herror more

/-- A class with losses stands in front of another byte. It is read in the same way in front of one
more, and in front of none; with one byte less it is cut off, and the loss in front of the cut is
reported as before. -/
theorem isSelfDelimiting_bytesWithLosses :
    ∃ file skipped unused,
      ofBytes bytesWithLosses = ⟨[skipped, unused], .ok (file, [0xFF])⟩ ∧
      ofBytes (bytesWithLosses ++ [0xEE]) = ⟨[skipped, unused], .ok (file, [0xFF, 0xEE])⟩ ∧
      ∃ before ending, before <+: [skipped, unused] ∧
        ofBytes (bytesWithLosses.take 71) = ⟨before, .error (.endOfInput ending)⟩ := by
  obtain ⟨file, hread⟩ : ∃ file, ofBytes bytesWithLosses =
      ⟨[.skippedAttribute "X" 3, .unusedBytes "Code" 15 13], .ok (file, [0xFF])⟩ := by
    have hreports : (ofBytes bytesWithLosses).reports =
        [.skippedAttribute "X" 3, .unusedBytes "Code" 15 13] := by decide +kernel
    have hrest : (ofBytes bytesWithLosses).outcome.map Prod.snd = .ok [0xFF] := by decide +kernel
    obtain ⟨⟨file, rest⟩, houtcome, rfl⟩ := map_eq_ok.mp hrest
    exact ⟨file, Reader.ext_reading hreports houtcome⟩
  refine ⟨file, _, _, hread, (isSelfDelimiting bytesWithLosses).append _ _ _ [0xEE] hread, ?_⟩
  obtain ⟨consumed, hconsumed, hcut⟩ := (isSelfDelimiting bytesWithLosses).cut _ _ _ hread
  -- All but the last byte belong to the class.
  have hlen : consumed.length + 1 = 73 := by
    have htotal : bytesWithLosses.length = 73 := by decide
    rw [← htotal, hconsumed, List.length_append, List.length_singleton]
  exact hcut 71 (by omega)

end ClassFile

end JavaClass
