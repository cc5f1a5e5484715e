import JavaClass.Proofs.Attribute.WellFormed

/-!
# Bytes that are lost

A reader of attributes drops what it skips and what the reader of a body leaves, and reports both.
Every byte that it takes is then either written again or reported, at whatever depth it stood, and
is counted once.

- `lostBytes`: the number of bytes that reports say are lost.
- `Accounted`: the bytes that were taken are those that are written and those that were lost.
- `Reader.Accounts`: a reader accounts for all bytes that it takes.
- `Attribute.accounts_readList`: the reader of attributes accounts for them.
-/

namespace JavaClass

/-- The number of bytes that are lost to what is reported: a skipped attribute with its header, or
what an attribute declares beyond what its kind makes use of. -/
def Diagnostic.lostBytes : Diagnostic → Nat
  | .skippedAttribute _ length => Attribute.headerLength + length.toNat
  | .unusedBytes _ declared consumed => declared.toNat - consumed.toNat
  | .unsupportedOpcode .. | .unknownOpcode .. => 0

/-- The number of bytes that are lost to all that is reported. -/
def lostBytes (reports : List Diagnostic) : Nat := (reports.map Diagnostic.lostBytes).sum

@[simp]
theorem lostBytes_nil : lostBytes [] = 0 := rfl

@[simp]
theorem lostBytes_append (before after : List Diagnostic) :
    lostBytes (before ++ after) = lostBytes before + lostBytes after := by
  rw [lostBytes, List.map_append, List.sum_append, lostBytes, lostBytes]

/-- Bytes that were taken are as many as those that are written and those that are reported lost
together, and they are those that are written if nothing is reported. -/
structure Accounted (taken written : Bytes) (reports : List Diagnostic) : Prop where
  /-- No byte is lost without a report, or reported twice. -/
  length_eq : taken.length = written.length + lostBytes reports
  /-- Where nothing is reported, every byte is what it was. -/
  eq_of_nil : reports = [] → taken = written

namespace Accounted

/-- Bytes that are written as they were taken are accounted for. -/
theorem refl (bytes : Bytes) : Accounted bytes bytes [] := ⟨rfl, fun _ => rfl⟩

/-- Bytes that are accounted for one after the other are accounted for together. -/
theorem append {taken taken' written written' : Bytes} {before after : List Diagnostic}
    (h : Accounted taken written before) (h' : Accounted taken' written' after) :
    Accounted (taken ++ taken') (written ++ written') (before ++ after) where
  length_eq := by
    rw [List.length_append, List.length_append, lostBytes_append, h.length_eq, h'.length_eq]
    omega
  eq_of_nil := fun hnil => by
    obtain ⟨hbefore, hafter⟩ := List.append_eq_nil_iff.mp hnil
    rw [h.eq_of_nil hbefore, h'.eq_of_nil hafter]

end Accounted

namespace Reader

variable {α : Type} {reader : Reader α} {Fits : α → Prop} {write : α → Except Error Bytes}

/-- Whenever a reader succeeds with a value that fits, the value can be written, and the bytes that
the reader took are accounted for. -/
def Accounts (reader : Reader α) (Fits : α → Prop) (write : α → Except Error Bytes) : Prop :=
  ∀ ⦃input reports value rest⦄, reader.Reads input reports value rest → Fits value →
    ∃ taken written, input = taken ++ rest ∧ write value = .ok written ∧
      Accounted taken written reports

/-- A repetition accounts for what it takes if its reader does. -/
theorem Accounts.times (h : reader.Accounts Fits write) (n : Nat) :
    (times n reader).Accounts (fun values => ∀ value ∈ values, Fits value) (writeAll write) := by
  induction n with
  | zero =>
    intro input reports values rest hreads _
    obtain ⟨rfl, rfl, rfl⟩ := reads_times_zero.mp hreads
    exact ⟨[], [], rfl, rfl, .refl []⟩
  | succ n ih =>
    intro input reports values rest hreads hfits
    obtain ⟨_, first, between, _, others, hfirst, hothers, rfl, rfl⟩ := reads_times_succ.mp hreads
    obtain ⟨hfitsFirst, hfitsOthers⟩ := List.forall_mem_cons.mp hfits
    obtain ⟨head, writtenHead, rfl, hwriteHead, hhead⟩ := h hfirst hfitsFirst
    obtain ⟨tail, writtenTail, rfl, hwriteTail, htail⟩ := ih hothers hfitsOthers
    exact ⟨head ++ tail, writtenHead ++ writtenTail, by rw [List.append_assoc],
      writeAll_cons_eq_ok.mpr ⟨_, _, hwriteHead, hwriteTail, rfl⟩, hhead.append htail⟩

/-- A table accounts for what it takes if the reader of its entries does. -/
theorem Accounts.table (h : reader.Accounts Fits write) (what : String) :
    (table reader).Accounts (fun values => ∀ value ∈ values, Fits value)
      (writeTable what write) := by
  intro input reports values rest hreads hfits
  obtain ⟨count, between, rfl, htimes⟩ := reads_table.mp hreads
  have hlen := length_of_reads_times htimes
  obtain ⟨taken, written, rfl, hwrite, haccounted⟩ := h.times _ htimes hfits
  exact ⟨Bytes.ofU2 count ++ taken, Bytes.ofU2 count ++ written, by rw [List.append_assoc],
    writeTable_eq_ok.mpr ⟨count, written, hlen.symm, hwrite, rfl⟩,
    (Accounted.refl _).append haccounted⟩

end Reader

namespace Attribute

variable {pool : ConstantPool} {attr : Attribute} {reports : List Diagnostic}

/-- The code of all method bodies in an attribute is as short as code can be. -/
def CodeFits (attr : Attribute) : Prop :=
  ∀ body attributes, Occurs (.code body attributes) attr →
    body.codeLength ≤ MethodBody.maxCodeLength

/-- No more bytes are left than were declared, so the difference is that of the numbers. -/
theorem toNat_length_sub {header : Header} {unused : Bytes}
    (h : unused.length ≤ header.length.toNat) :
    (header.length - UInt32.ofNat unused.length).toNat = header.length.toNat - unused.length := by
  have hlt := header.length.toNat_lt
  have hof : (UInt32.ofNat unused.length).toNat = unused.length :=
    UInt32.toNat_ofNat_of_lt (by rw [UInt32.size]; omega)
  rw [UInt32.toNat_sub_of_le _ _ (by rwa [UInt32.le_iff_toNat_le, hof]), hof]

/-- A report about unused bytes says how many they are. -/
theorem lostBytes_unusedReport {header : Header} {unused : Bytes}
    (h : unused.length ≤ header.length.toNat) :
    lostBytes (unusedReport header unused) = unused.length := by
  have hsub := toNat_length_sub h
  cases unused with
  | nil => rfl
  | cons byte unused =>
    simp only [unusedReport, List.isEmpty_cons, Bool.false_eq_true, ↓reduceIte, lostBytes,
      List.map_cons, List.map_nil, Diagnostic.lostBytes, List.sum_cons, List.sum_nil, hsub]
    omega

/-- Nothing is reported about unused bytes only if there are none. -/
theorem eq_nil_of_unusedReport {header : Header} {unused : Bytes}
    (h : unusedReport header unused = []) : unused = [] := by
  cases unused with
  | nil => rfl
  | cons byte unused => cases h

/-- The contents of an attribute that were read are accounted for if those of its attributes are. -/
theorem exists_contents_of_reads {nested : Reader (List Attribute)} {input rest : Bytes}
    (hnested : nested.Accounts (fun attributes => ∀ attr ∈ attributes, attr.CodeFits) writeList)
    (hfits : attr.CodeFits) (h : attr.ReadsContents nested input reports rest) :
    ∃ taken contents, input = taken ++ rest ∧ attr.writeContents = .ok contents ∧
      Accounted taken contents reports := by
  cases attr with
  | sourceFile name file | constantValue name value | lineNumberTable name lines =>
    obtain ⟨rfl, contents, hcontents, rfl⟩ := h
    exact ⟨contents, contents, rfl, hcontents, .refl contents⟩
  | code body attributes =>
    obtain ⟨front, between, -, hfront, rfl, hreads⟩ := h
    obtain ⟨taken, written, rfl, hwrite, haccounted⟩ := hnested hreads
      fun attr hmem body attributes hoccurs => hfits body attributes (.nested hmem hoccurs)
    exact ⟨front ++ taken, front ++ written, by rw [List.append_assoc],
      bind_eq_ok.mpr ⟨front, hfront, bind_eq_ok.mpr ⟨written, hwrite, rfl⟩⟩,
      (Accounted.refl front).append haccounted⟩

/-- A reader accounts for attributes whose code is as short as code can be. -/
abbrev AccountsForAttributes (reader : Reader (List Attribute)) : Prop :=
  reader.Accounts (fun attributes => ∀ attr ∈ attributes, attr.CodeFits) writeList

/-- The bytes of what was made of an attribute: none if it was skipped. -/
def writeResult : Option Attribute → Except Error Bytes
  | none => .ok []
  | some attr => attr.write

/-- An attribute that was read is accounted for with the bytes that its header declares, if those in
it are. -/
theorem accounts_readWith (hpool : pool.Canonical) {nested : Nat → Reader (List Attribute)}
    (hwellFormed : ∀ length, YieldsWellFormed pool (nested length))
    (hnested : ∀ length, AccountsForAttributes (nested length)) :
    (readWith pool nested).Accounts (fun result => ∀ attr, result = some attr → attr.CodeFits)
      writeResult := by
  intro input reports result rest hreads hfits
  obtain ⟨header, body, -, -, hlen, rfl, ⟨-, rfl, rfl⟩ | ⟨attr, before, unused, rfl, hname, -, -,
    hcontents, rfl⟩⟩ := reads_readWith.mp hreads
  · -- A skipped attribute is lost as a whole.
    refine ⟨headerBytes header.name header.length ++ body, [], rfl, rfl, ?_, by simp⟩
    simp [lostBytes, Diagnostic.lostBytes, hlen]
  · have hlaidOut := (wellFormed_of_reads_readWith hpool hwellFormed hreads).isLaidOut
    obtain ⟨taken, contents, rfl, hcontents, haccounted⟩ :=
      exists_contents_of_reads (hnested _) (hfits attr rfl) hcontents
    have hlt := header.length.toNat_lt
    have hlengths := haccounted.length_eq
    rw [List.length_append] at hlen
    obtain ⟨length, hlength, hlenContents⟩ := exists_length_of_writeContents hlaidOut
      (fun body attributes heq => hfits attr rfl body attributes (heq ▸ .self)) hcontents (by omega)
    refine ⟨_, headerBytes attr.name length ++ contents, rfl,
      write_eq_ok.mpr ⟨length, contents, hlength, hcontents, rfl⟩, ?_, ?_⟩
    · simp only [List.length_append, length_headerBytes, lostBytes_append,
        @lostBytes_unusedReport header unused (by omega)]
      omega
    · intro hnil
      obtain ⟨hbefore, hunused⟩ := List.append_eq_nil_iff.mp hnil
      obtain rfl := eq_nil_of_unusedReport hunused
      obtain rfl := haccounted.eq_of_nil hbefore
      -- Nothing was dropped, so the length is the one that was declared.
      obtain rfl : length = header.length := by
        rw [← UInt32.toNat_inj, hlenContents, ← hlen, List.length_nil, Nat.add_zero]
      rw [hname, List.append_nil]

/-- The bytes of what was made of attributes are those of the attributes that were not skipped. -/
theorem writeAll_writeResult_eq_ok {results : List (Option Attribute)} {bytes : Bytes} :
    writeAll writeResult results = .ok bytes ↔
      writeAll write (results.filterMap id) = .ok bytes := by
  induction results generalizing bytes with
  | nil => rfl
  | cons result results ih =>
    cases result with
    | none => simp [writeAll_cons_eq_ok, writeResult, ih]
    | some attr => simp [writeAll_cons_eq_ok, writeResult, ih]

/-- No attribute is skipped without a report. -/
theorem isSome_of_reads_readWith {nested : Nat → Reader (List Attribute)}
    {result : Option Attribute} {input rest : Bytes}
    (h : (readWith pool nested).Reads input [] result rest) : result.isSome := by
  obtain ⟨header, body, -, -, -, -, ⟨-, -, hnil⟩ | ⟨attr, _, _, rfl, -⟩⟩ := reads_readWith.mp h
  · cases hnil
  · rfl

/-- Attributes that were read are accounted for if those in them are. The count in front of them is
smaller if some were skipped. -/
theorem accounts_readListWith (hpool : pool.Canonical) {nested : Nat → Reader (List Attribute)}
    (hwellFormed : ∀ length, YieldsWellFormed pool (nested length))
    (hnested : ∀ length, AccountsForAttributes (nested length)) :
    AccountsForAttributes (readListWith pool nested) := by
  intro input reports attributes rest hreads hfits
  obtain ⟨count, results, between, rfl, htimes, rfl⟩ := reads_readListWith.mp hreads
  obtain ⟨taken, written, rfl, hwrite, haccounted⟩ :=
    (accounts_readWith hpool hwellFormed hnested).times _ htimes
      fun result hmem attr heq => hfits attr (List.mem_filterMap.mpr ⟨result, hmem, heq⟩)
  rw [writeAll_writeResult_eq_ok] at hwrite
  have hlen := Reader.length_of_reads_times htimes
  have hle := List.length_filterMap_le id results
  have hlt := count.toNat_lt
  -- The count that is written is that of the attributes that were not skipped.
  refine ⟨Bytes.ofU2 count ++ taken,
    Bytes.ofU2 (UInt16.ofNat (results.filterMap id).length) ++ written, by rw [List.append_assoc],
    writeTable_eq_ok.mpr ⟨_, written, UInt16.toNat_ofNat_of_lt (by rw [UInt16.size]; omega), hwrite,
      rfl⟩, ?_, ?_⟩
  · simp only [List.length_append, Bytes.length_ofU2, haccounted.length_eq, Nat.add_assoc]
  · rintro rfl
    -- Without a report nothing was skipped, so the count is the one that was read.
    have hsome : (results.filterMap id).length = results.length :=
      List.filterMap_length_eq_length.mpr
        (Reader.forall_of_reads_times_silent (fun _ _ _ h => isSome_of_reads_readWith h) htimes)
    rw [haccounted.eq_of_nil rfl, hsome, hlen, UInt16.ofNat_toNat]

/-- Attributes of a method body that were read are accounted for. -/
theorem accounts_readNested (hpool : pool.Canonical) (length : Nat) :
    AccountsForAttributes (readNested pool length) := by
  refine (readNested_induction
    (motive := fun reader => YieldsWellFormed pool reader ∧ AccountsForAttributes reader)
    (fun cause => ?_) (fun nested ih => ?_) length).2
  · exact ⟨fun _ _ _ _ h => absurd h Reader.reads_fail, fun _ _ _ _ h => absurd h Reader.reads_fail⟩
  · exact ⟨yieldsWellFormed_readListWith hpool fun length => (ih length).1,
      accounts_readListWith hpool (fun length => (ih length).1) fun length => (ih length).2⟩

/-- Attributes that were read are accounted for. -/
theorem accounts_readList (hpool : pool.Canonical) : AccountsForAttributes (readList pool) :=
  accounts_readListWith hpool (yieldsWellFormed_readNested hpool) (accounts_readNested hpool)

end Attribute

end JavaClass
