import JavaClass.Proofs.Writing
import Mathlib.Algebra.GroupWithZero.Nat
import Mathlib.Data.List.Forall2

/-!
# Numbers and tables in bytes

What a format demands of bytes, told without a writer: a number of fixed size has its highest byte
first, and a table is a count of two bytes and as many entries as it says. Bytes cannot say a number
that is too large for them, so no count of a table that is laid out like this was cut short.

- `Bytes.number`: the number that bytes say.
- `Bytes.Says`: so many bytes say a number.
- `IsTable`: bytes that are a table.
- `isTable_of_writeTable`: a table that is written is one.
-/

namespace JavaClass

namespace Bytes

/-- The number whose digits to the base 256 are some bytes, the highest one first. -/
def number (bytes : Bytes) : Nat := bytes.foldl (fun n byte => n * 0x100 + byte.toNat) 0

/-- So many bytes say a number. -/
structure Says (bytes : Bytes) (size n : Nat) : Prop where
  /-- There are so many bytes. -/
  length_eq : bytes.length = size
  /-- The bytes are the digits of the number. -/
  number_eq : bytes.number = n

/-- Digits behind a number make it greater by less than one unit of its lowest digit. -/
theorem foldl_digits_lt (bytes : Bytes) (n : Nat) :
    bytes.foldl (fun n byte => n * 0x100 + byte.toNat) n < (n + 1) * 0x100 ^ bytes.length := by
  induction bytes generalizing n with
  | nil => simp
  | cons byte bytes ih =>
    have hbyte := byte.toNat_lt
    calc
      bytes.foldl (fun n byte => n * 0x100 + byte.toNat) (n * 0x100 + byte.toNat)
          < (n * 0x100 + byte.toNat + 1) * 0x100 ^ bytes.length := ih _
      _ ≤ (n + 1) * 0x100 * 0x100 ^ bytes.length := Nat.mul_le_mul_right _ (by omega)
      _ = (n + 1) * 0x100 ^ (byte :: bytes).length := by
        rw [List.length_cons, Nat.pow_succ', Nat.mul_assoc]

/-- What so many bytes can say is bounded. -/
theorem Says.lt {bytes : Bytes} {size n : Nat} (h : bytes.Says size n) : n < 0x100 ^ size := by
  have hlt := foldl_digits_lt bytes 0
  rw [Nat.zero_add, Nat.one_mul, h.length_eq] at hlt
  rw [← h.number_eq]
  exact hlt

/-- A word of two bytes says its number. -/
theorem says_ofU2 (value : UInt16) : (ofU2 value).Says 2 value.toNat := by
  have hlt := value.toNat_lt
  refine ⟨rfl, ?_⟩
  simp only [number, ofU2, List.foldl_cons, List.foldl_nil, UInt8.toNat_ofNat']
  omega

/-- A word of four bytes says its number. -/
theorem says_ofU4 (value : UInt32) : (ofU4 value).Says 4 value.toNat := by
  have hlt := value.toNat_lt
  refine ⟨rfl, ?_⟩
  simp only [number, ofU4, List.foldl_cons, List.foldl_nil, UInt8.toNat_ofNat']
  omega

end Bytes

variable {α : Type} {IsEntry : α → Bytes → Prop} {entries : List α} {bytes : Bytes}

/-- Some bytes are a count of two bytes and as many entries. -/
inductive IsTable (IsEntry : α → Bytes → Prop) : List α → Bytes → Prop where
  /-- The pieces behind the count are the entries, one after another. -/
  | intro {count : Bytes} {entries : List α} {pieces : List Bytes}
    (hcount : count.Says 2 entries.length) (hpieces : List.Forall₂ IsEntry entries pieces) :
    IsTable IsEntry entries (count ++ pieces.flatten)

/-- Two bytes can say how many entries a table has. -/
theorem IsTable.length_lt (h : IsTable IsEntry entries bytes) : entries.length < 0x10000 := by
  obtain ⟨hcount, -⟩ := h
  exact hcount.lt

variable {write : α → Except Error Bytes}

/-- Entries that are written are pieces, one after another. -/
theorem exists_pieces_of_writeAll (hwrite : writeAll write entries = .ok bytes)
    (h : ∀ entry ∈ entries, ∀ piece, write entry = .ok piece → IsEntry entry piece) :
    ∃ pieces, List.Forall₂ IsEntry entries pieces ∧ bytes = pieces.flatten := by
  induction entries generalizing bytes with
  | nil =>
    cases hwrite
    exact ⟨[], .nil, rfl⟩
  | cons entry entries ih =>
    obtain ⟨head, tail, hhead, htail, rfl⟩ := writeAll_cons_eq_ok.mp hwrite
    obtain ⟨hfirst, hothers⟩ := List.forall_mem_cons.mp h
    obtain ⟨pieces, hpieces, rfl⟩ := ih htail hothers
    exact ⟨head :: pieces, .cons (hfirst head hhead) hpieces, rfl⟩

/-- A table that is written is a table of what its entries are written as. -/
theorem isTable_of_writeTable {what : String} (hwrite : writeTable what write entries = .ok bytes)
    (h : ∀ entry ∈ entries, ∀ piece, write entry = .ok piece → IsEntry entry piece) :
    IsTable IsEntry entries bytes := by
  obtain ⟨count, all, hcount, hall, rfl⟩ := writeTable_eq_ok.mp hwrite
  obtain ⟨pieces, hpieces, rfl⟩ := exists_pieces_of_writeAll hall h
  exact .intro (hcount ▸ Bytes.says_ofU2 count) hpieces

/-- A table of entries that are never refused is a table of their bytes. -/
theorem isTable_of_writeTable_ok {what : String} {toBytes : α → Bytes}
    (hwrite : writeTable what (fun entry => .ok (toBytes entry)) entries = .ok bytes) :
    IsTable (fun entry piece => piece = toBytes entry) entries bytes :=
  isTable_of_writeTable hwrite fun _ _ _ hpiece => (Except.ok.inj hpiece).symm

end JavaClass
