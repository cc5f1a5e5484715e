import JavaClass.OffsetArray
import Mathlib.Algebra.GroupWithZero.Nat
import Mathlib.Tactic.Common

/-!
# Arrays that were filled

An array with offsets is filled by adding elements to one without any. Its offsets are then the sums
of the widths before them, and a look-up finds exactly what was added.

- `OffsetArray.FilledFrom`: the arrays that were filled.
- `OffsetArray.FilledFrom.eq_append`: such an array is determined by its start and its elements.
- `OffsetArray.FilledFrom.offset_eq`: the offsets of a filled array.
- `OffsetArray.lookup_eq_found_iff`, `OffsetArray.get?_eq_some_iff`: what a look-up finds.
- `OffsetArray.FilledFrom.get?_push`: what a look-up finds when one more element was added.
-/

namespace JavaClass.OffsetArray

variable {α : Type}

/-! ## Look-up in ascending offsets -/

/-- Offsets ascend strictly. -/
def Ascending (array : OffsetArray α) : Prop :=
  array.toList.Pairwise fun first second => first.1 < second.1

/-- Of two entries, the one that comes first has the smaller offset. -/
theorem Ascending.lt {array : OffsetArray α} (h : array.Ascending) {i j : Nat} (hij : i < j)
    {first second : Nat × α} (hfirst : array.entries[i]? = some first)
    (hsecond : array.entries[j]? = some second) : first.1 < second.1 := by
  obtain ⟨hi, rfl⟩ := Array.getElem?_eq_some_iff.mp hfirst
  obtain ⟨hj, rfl⟩ := Array.getElem?_eq_some_iff.mp hsecond
  have hpairs := List.pairwise_iff_getElem.mp h i j (by simpa [toList]) (by simpa [toList]) hij
  simpa [toList] using hpairs

/-- The entries at or before an offset are the first ones. -/
theorem lt_countUpTo_iff {array : OffsetArray α} (h : array.Ascending) {i offset : Nat}
    {entry : Nat × α} (hentry : array.entries[i]? = some entry) :
    i < array.countUpTo offset ↔ entry.1 ≤ offset := by
  have hsize : i < array.size := (Array.getElem?_eq_some_iff.mp hentry).1
  rw [countUpTo, lt_bisect_iff _ (Nat.zero_le i) hsize, hentry]
  · simp
  · intro i j hij hj
    obtain ⟨second, hsecond, hle⟩ := (Option.any_eq_true ..).mp hj
    have hi : i < array.entries.size := by
      have := (Array.getElem?_eq_some_iff.mp hsecond).1
      omega
    have hfirst := Array.getElem?_eq_getElem hi
    -- An entry before one that is not past the offset is not past it either.
    refine (Option.any_eq_true ..).mpr ⟨_, hfirst, ?_⟩
    rcases Nat.eq_or_lt_of_le hij with rfl | hlt
    · rw [hsecond, Option.some.injEq] at hfirst
      rwa [← hfirst]
    · have := h.lt hlt hfirst hsecond
      simp only [decide_eq_true_eq] at hle ⊢
      omega

/-- There are no more entries at or before an offset than there are entries. -/
theorem countUpTo_le_size (array : OffsetArray α) (offset : Nat) :
    array.countUpTo offset ≤ array.size :=
  (bisect_mem _ 0 array.size (Nat.zero_le _)).2

/-- The entries at or before the offset of an entry are those up to it. -/
theorem countUpTo_eq {array : OffsetArray α} (h : array.Ascending) {i : Nat} {entry : Nat × α}
    (hentry : array.entries[i]? = some entry) : array.countUpTo entry.1 = i + 1 := by
  have hlt : i < array.countUpTo entry.1 := (lt_countUpTo_iff h hentry).mpr (Nat.le_refl _)
  -- If the count were greater, the next entry would not be past the offset of this one.
  by_contra hne
  have hle := array.countUpTo_le_size entry.1
  have hsize : i + 1 < array.entries.size := by unfold size at hle; omega
  have hnext := Array.getElem?_eq_getElem hsize
  have hgt := h.lt (Nat.lt_succ_self i) hentry hnext
  have := (lt_countUpTo_iff h hnext).mp (by omega : i + 1 < array.countUpTo entry.1)
  omega

/-- A look-up finds exactly the entry with the offset. -/
theorem lookup_eq_found_iff {array : OffsetArray α} (h : array.Ascending) {offset number : Nat}
    {element : α} :
    array.lookup offset = .found number element ↔
      array.entries[number]? = some (offset, element) := by
  constructor
  · intro hfound
    unfold lookup at hfound
    dsimp only at hfound
    split at hfound
    · next found heq =>
      -- The entry that is found is the last one at or before the offset, and it has the offset.
      rw [Option.filter_eq_some_iff, decide_eq_true_eq] at heq
      obtain ⟨hentry, rfl⟩ := heq
      obtain ⟨rfl, rfl⟩ := Lookup.found.inj hfound
      split at hentry
      · exact hentry
      · cases hentry
    · split at hfound <;> cases hfound
  · intro hentry
    have hfilter : (some (offset, element)).filter (fun entry => decide (entry.1 = offset)) =
        some (offset, element) := by simp
    simp [lookup, countUpTo_eq h hentry, hentry, hfilter]

/-- The element at an offset is the one that has it. -/
theorem get?_eq_some_iff {array : OffsetArray α} (h : array.Ascending) {offset : Nat}
    {element : α} : array.get? offset = some element ↔ (offset, element) ∈ array.toList := by
  have hmem : (offset, element) ∈ array.toList ↔
      ∃ number, array.lookup offset = .found number element := by
    simp only [lookup_eq_found_iff h, toList, List.mem_iff_getElem?, Array.getElem?_toList]
  rw [hmem, get?]
  split
  · next number found heq => simp [heq]
  · next hnone =>
    constructor
    · intro hfound
      cases hfound
    · rintro ⟨number, hfound⟩
      exact absurd hfound (hnone number element)

/-! ## Filled arrays -/

variable [HasWidth α]

/-- The arrays that come from adding elements to the one without any that starts at an offset. -/
inductive FilledFrom (start : Nat) : OffsetArray α → Prop where
  /-- The array without elements is filled. -/
  | startingAt : FilledFrom start (startingAt start)
  /-- A filled array stays filled when an element is added. -/
  | push {array : OffsetArray α} (element : α) :
    FilledFrom start array → FilledFrom start (array.push element)

/-- Elements can be added all at once or in two parts. -/
theorem append_append (array : OffsetArray α) (first second : List α) :
    array.append (first ++ second) = (array.append first).append second := List.foldl_append

/-- What is added takes up the sum of its widths. -/
theorem next_append (array : OffsetArray α) (elements : List α) :
    (array.append elements).next = array.next + (elements.map width).sum := by
  induction elements generalizing array with
  | nil => simp
  | cons element elements ih =>
    rw [append_cons, ih, next_push, List.map_cons, List.sum_cons, Nat.add_assoc]

@[simp]
theorem start_append (array : OffsetArray α) (elements : List α) :
    (array.append elements).start = array.start := by
  induction elements generalizing array with
  | nil => rfl
  | cons element elements ih => rw [append_cons, ih, start_push]

namespace FilledFrom

variable {start : Nat} {array : OffsetArray α}

/-- A filled array stays filled when elements are added. -/
theorem append (h : FilledFrom start array) (elements : List α) :
    FilledFrom start (array.append elements) := by
  induction elements generalizing array with
  | nil => exact h
  | cons element elements ih => exact ih (h.push element)

/-- A filled array is what its elements make up. -/
theorem eq_append (h : FilledFrom start array) :
    array = (OffsetArray.startingAt start).append array.elements := by
  induction h with
  | startingAt => rfl
  | push element h ih =>
    rw [elements_push, append_append, ← ih]
    rfl

theorem start_eq (h : FilledFrom start array) : array.start = start := by
  rw [h.eq_append, start_append]
  rfl

/-- The elements of a filled array take up what lies between its start and its end. -/
theorem next_eq (h : FilledFrom start array) :
    array.next = start + (array.elements.map width).sum := by
  conv_lhs => rw [h.eq_append, next_append]
  rfl

/-- A filled array takes up the sum of the widths of its elements. -/
theorem totalWidth_eq (h : FilledFrom start array) :
    array.totalWidth = (array.elements.map width).sum := by
  rw [totalWidth, h.next_eq, h.start_eq]
  omega

/-- Every element of a filled array lies between its start and its end. -/
theorem bounds (h : FilledFrom start array) {offset : Nat} {element : α}
    (hmem : (offset, element) ∈ array.toList) :
    start ≤ offset ∧ offset + width element ≤ array.next := by
  induction h with
  | startingAt => cases hmem
  | @push array last h ih =>
    rw [next_push]
    rw [toList_push, List.mem_append, List.mem_singleton, Prod.mk.injEq] at hmem
    obtain hmem | ⟨rfl, rfl⟩ := hmem
    · obtain ⟨hlow, hhigh⟩ := ih hmem
      exact ⟨hlow, by omega⟩
    · -- The last element starts where the array ended before.
      have := h.next_eq
      exact ⟨by omega, Nat.le_refl _⟩

/-- The offset of an element is the start and the sum of the widths of the elements before it. -/
theorem offset_eq (h : FilledFrom start array) {number : Nat} {entry : Nat × α}
    (hentry : array.toList[number]? = some entry) :
    entry.1 = start + ((array.toList.take number).map fun before => width before.2).sum := by
  induction h with
  | startingAt => cases hentry
  | @push array last h ih =>
    rw [toList_push] at hentry ⊢
    rcases Nat.lt_or_ge number array.toList.length with hlt | hge
    · rw [List.getElem?_append_left hlt] at hentry
      rw [List.take_append_of_le_length (Nat.le_of_lt hlt)]
      exact ih hentry
    · -- The last element comes after all others, and starts where they end.
      rw [List.getElem?_append_right hge, List.getElem?_singleton] at hentry
      split at hentry
      · next hnumber =>
        obtain rfl := Option.some.inj hentry
        have hlength : number = array.toList.length := by omega
        rw [hlength, List.take_left, h.next_eq, elements, List.map_map]
        rfl
      · cases hentry

/-- What stands at a place of a filled array: the element, behind the start and the sum of the
widths of the elements before it. -/
theorem getElem?_toList (h : FilledFrom start array) (number : Nat) :
    array.toList[number]? = array.elements[number]?.map fun element =>
      (start + ((array.elements.take number).map width).sum, element) := by
  rw [elements, List.getElem?_map, Option.map_map]
  cases hentry : array.toList[number]? with
  | none => rfl
  | some entry =>
    have hoffset := h.offset_eq hentry
    rw [Option.map_some, Function.comp_apply, ← List.map_take, List.map_map]
    exact congrArg some (Prod.ext hoffset rfl)

/-- Every place between the start and the end of a filled array is taken up by an element. -/
theorem exists_entry_of_lt (h : FilledFrom start array) {place : Nat} (hstart : start ≤ place)
    (hnext : place < array.next) :
    ∃ entry ∈ array.toList, entry.1 ≤ place ∧ place < entry.1 + width entry.2 := by
  induction h with
  | startingAt => exact absurd hnext (Nat.not_lt.mpr hstart)
  | @push array last h ih =>
    rw [toList_push]
    rcases Nat.lt_or_ge place array.next with hlt | hge
    · obtain ⟨entry, hmem, hbounds⟩ := ih hlt
      exact ⟨entry, List.mem_append_left _ hmem, hbounds⟩
    · exact ⟨(array.next, last), List.mem_append_right _ List.mem_cons_self, hge, hnext⟩

/-- No element starts inside another one. -/
theorem not_mem_of_inside (h : FilledFrom start array) {entry : Nat × α}
    (hmem : entry ∈ array.toList) {offset : Nat} (hlow : entry.1 < offset)
    (hhigh : offset < entry.1 + width entry.2) (element : α) :
    (offset, element) ∉ array.toList := by
  induction h with
  | startingAt => cases hmem
  | @push array last h ih =>
    intro hinside
    rw [toList_push, List.mem_append, List.mem_singleton] at hmem hinside
    rcases hmem with hmem | rfl
    · rcases hinside with hinside | hinside
      · exact ih hmem hinside
      · -- The last element starts where all others have ended.
        have hbounds := h.bounds hmem
        have hoffset : offset = array.next := congrArg Prod.fst hinside
        omega
    · rcases hinside with hinside | hinside
      · have hbounds := h.bounds hinside
        change array.next < offset at hlow
        omega
      · have hoffset : offset = array.next := congrArg Prod.fst hinside
        change array.next < offset at hlow
        omega

/-- If every element that was added takes up some place, no two of them have the same offset. -/
theorem ascending_of_forall_mem (h : FilledFrom start array)
    (hpos : ∀ element ∈ array.elements, 0 < width element) : array.Ascending := by
  induction h with
  | startingAt => exact List.Pairwise.nil
  | @push array last h ih =>
    rw [elements_push, List.forall_mem_append] at hpos
    rw [Ascending, toList_push, List.pairwise_append]
    refine ⟨ih hpos.1, List.pairwise_singleton .., ?_⟩
    -- All elements that were there before end where the last one starts.
    rintro ⟨offset, element⟩ hmem entry hlast
    obtain rfl := List.mem_singleton.mp hlast
    have := h.bounds hmem
    have := hpos.1 element (List.mem_map_of_mem hmem)
    change offset < array.next
    omega

/-- If every element takes up some place, no two elements have the same offset. -/
theorem ascending (h : FilledFrom start array) (hpos : ∀ element : α, 0 < width element) :
    array.Ascending :=
  h.ascending_of_forall_mem fun element _ => hpos element

/-- When an element was added, a look-up finds it at its offset, and what it found before
elsewhere. -/
theorem get?_push (h : FilledFrom start array) (hpos : ∀ element : α, 0 < width element)
    (element : α) (offset : Nat) :
    (array.push element).get? offset =
      if offset = array.next then some element else array.get? offset := by
  refine Option.ext fun found => ?_
  rw [get?_eq_some_iff ((h.push element).ascending hpos), toList_push, List.mem_append,
    List.mem_singleton, Prod.mk.injEq]
  split
  · next heq =>
    subst heq
    -- No element that was there before reaches up to the end.
    have hnot : (array.next, found) ∉ array.toList := fun hmem => by
      have := h.bounds hmem
      have := hpos found
      omega
    simp [hnot, eq_comm]
  · next hne => simp [hne, get?_eq_some_iff (h.ascending hpos)]

end FilledFrom

/-- The array of some elements is filled from offset 0 on. -/
theorem filledFrom_ofList (elements : List α) : FilledFrom 0 (ofList elements) :=
  FilledFrom.startingAt.append elements

@[simp]
theorem elements_ofList (added : List α) : (ofList added).elements = added :=
  elements_append empty added

end JavaClass.OffsetArray
