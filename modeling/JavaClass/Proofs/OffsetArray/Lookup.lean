import JavaClass.Constant
import JavaClass.Proofs.OffsetArray

/-!
# What look-ups by offset answer

An array is filled by adding elements one by one or several at a time. If every element takes up
some place, an element is found exactly at its offset, whatever is added behind it. Every other
offset is a miss, and how it is answered is told by the element that it falls into.

- `OffsetArray.Addition`, `OffsetArray.addAll`: calls that add elements, and runs of them.
- `OffsetArray.Arranges`: an array numbers its elements by their widths, and finds them.
- `OffsetArray.arranges_addAll`: every run leaves such an array, and what is found stays found.
- `OffsetArray.IsMiss`, `OffsetArray.FallsInto`: offsets at which no element starts.
- `OffsetArray.ClassifiesMisses`, `OffsetArray.FilledFrom.classifiesMisses`: how they are answered.
-/

namespace JavaClass.OffsetArray

variable {α : Type} {array : OffsetArray α}

/-! ## Entries -/

/-- A look-up goes through the entries in order. -/
theorem getElem?_entries (array : OffsetArray α) (number : Nat) :
    array.entries[number]? = array.toList[number]? := by
  rw [toList, Array.getElem?_toList]

/-- Every number that is less than the size is that of an entry. -/
theorem exists_getElem?_toList {number : Nat} (h : number < array.size) :
    ∃ entry, array.toList[number]? = some entry := by
  rw [← getElem?_entries]
  exact ⟨_, Array.getElem?_eq_getElem h⟩

/-- In ascending offsets, an entry is one of those that are counted up to an offset exactly if it is
not behind it. -/
theorem lt_countUpTo_iff_of_toList (h : array.Ascending) {number offset : Nat} {entry : Nat × α}
    (hentry : array.toList[number]? = some entry) :
    number < array.countUpTo offset ↔ entry.1 ≤ offset := by
  rw [← getElem?_entries] at hentry
  exact lt_countUpTo_iff h hentry

/-! ## Misses -/

/-- No element starts at an offset. -/
def IsMiss (array : OffsetArray α) (offset : Nat) : Prop := offset ∉ array.toList.map (·.1)

instance (array : OffsetArray α) (offset : Nat) : Decidable (array.IsMiss offset) :=
  inferInstanceAs (Decidable (offset ∉ _))

/-- No element starts at a miss. -/
theorem IsMiss.ne {offset number : Nat} (h : array.IsMiss offset) {entry : Nat × α}
    (hentry : array.toList[number]? = some entry) : entry.1 ≠ offset := by
  rintro rfl
  exact h (List.mem_map_of_mem (List.mem_of_getElem? hentry))

/-- In ascending offsets, misses are what a look-up does not find. -/
theorem isMiss_iff (h : array.Ascending) {offset : Nat} :
    array.IsMiss offset ↔ ∀ number element, array.lookup offset ≠ .found number element := by
  constructor
  · intro hmiss number element hfound
    rw [lookup_eq_found_iff h, getElem?_entries] at hfound
    exact hmiss.ne hfound rfl
  · intro hnone hmem
    obtain ⟨entry, hentry, rfl⟩ := List.mem_map.mp hmem
    obtain ⟨number, hnumber⟩ := List.mem_iff_getElem?.mp hentry
    apply hnone number entry.2
    rwa [lookup_eq_found_iff h, getElem?_entries]

/-- A miss is answered with the number of elements that start before it, or as too large if that is
all of them. -/
theorem IsMiss.lookup_eq {offset : Nat} (h : array.IsMiss offset) :
    array.lookup offset =
      if array.countUpTo offset = array.size then .tooLarge
      else .inside (array.countUpTo offset) := by
  unfold lookup
  dsimp only
  split
  · next found heq =>
    -- An entry that is found is one with the offset.
    rw [Option.filter_eq_some_iff, decide_eq_true_eq] at heq
    obtain ⟨hentry, rfl⟩ := heq
    split at hentry
    · rw [getElem?_entries] at hentry
      exact absurd rfl (h.ne hentry)
    · cases hentry
  · rfl

/-! ## Additions -/

variable [HasWidth α] {start : Nat}

/-- A call that adds elements at the end. -/
inductive Addition (α : Type) where
  /-- One element is added. -/
  | push (element : α)
  /-- Elements are added, one after another. -/
  | append (elements : List α)

/-- The elements that a call adds. -/
def Addition.elements : Addition α → List α
  | push element => [element]
  | append elements => elements

/-- The array after a call. -/
def add (array : OffsetArray α) : Addition α → OffsetArray α
  | .push element => array.push element
  | .append elements => array.append elements

/-- The array after some calls. -/
def addAll (array : OffsetArray α) (additions : List (Addition α)) : OffsetArray α :=
  additions.foldl add array

/-- The elements that some calls add, in order. -/
def added (additions : List (Addition α)) : List α := additions.flatMap Addition.elements

/-- A call adds its elements one after another. -/
theorem add_eq_append (array : OffsetArray α) (addition : Addition α) :
    array.add addition = array.append addition.elements := by
  cases addition <;> rfl

/-- Calls add their elements one after another. -/
theorem addAll_eq_append (array : OffsetArray α) (additions : List (Addition α)) :
    array.addAll additions = array.append (added additions) := by
  induction additions generalizing array with
  | nil => rfl
  | cons addition additions ih =>
    calc array.addAll (addition :: additions)
      _ = (array.add addition).addAll additions := rfl
      _ = (array.append addition.elements).append (added additions) := by
        rw [ih, add_eq_append]
      _ = array.append (added (addition :: additions)) := by
        rw [← append_append, added, added, List.flatMap_cons]

/-- An array numbers some elements from an offset on by their widths, and finds them. -/
structure Arranges (array : OffsetArray α) (start : Nat) (elements : List α) : Prop where
  /-- The elements are there in order, each behind the start and the widths of those before it. -/
  getElem?_toList : ∀ number : Nat, array.toList[number]? = elements[number]?.map fun element =>
    (start + ((elements.take number).map width).sum, element)
  /-- The next offset is the start and the widths of all elements. -/
  next_eq : array.next = start + (elements.map width).sum
  /-- The total width is that of all elements. -/
  totalWidth_eq : array.totalWidth = (elements.map width).sum
  /-- No element ends behind the next offset, so none of the sums that were taken is greater. -/
  end_le_next : ∀ entry ∈ array.toList, entry.1 + width entry.2 ≤ array.next
  /-- An element is found, with its number, exactly at its offset. -/
  lookup_eq_found_iff : ∀ (offset number : Nat) element,
    array.lookup offset = .found number element ↔ array.toList[number]? = some (offset, element)

/-- A filled array numbers its elements by their widths, and finds them if all take up some
place. -/
theorem FilledFrom.arranges (h : FilledFrom start array)
    (hpos : ∀ element ∈ array.elements, 1 ≤ width element) :
    array.Arranges start array.elements where
  getElem?_toList := h.getElem?_toList
  next_eq := h.next_eq
  totalWidth_eq := h.totalWidth_eq
  end_le_next _ hmem := (h.bounds hmem).2
  lookup_eq_found_iff offset number element := by
    rw [OffsetArray.lookup_eq_found_iff (h.ascending_of_forall_mem hpos), getElem?_entries]

/-- What is found at an offset in two arrays that number elements from one offset on is the same if
the elements of the first are the first of those of the second. -/
theorem Arranges.lookup_of_append {longer : OffsetArray α} {elements more : List α}
    (h : array.Arranges start elements) (hlonger : longer.Arranges start (elements ++ more))
    {offset number : Nat} {element : α} (hfound : array.lookup offset = .found number element) :
    longer.lookup offset = .found number element := by
  rw [h.lookup_eq_found_iff, h.getElem?_toList, Option.map_eq_some_iff] at hfound
  obtain ⟨there, hthere, heq⟩ := hfound
  obtain ⟨hnumber, -⟩ := List.getElem?_eq_some_iff.mp hthere
  -- The elements before this one are the same in both, and so are their widths.
  rw [hlonger.lookup_eq_found_iff, hlonger.getElem?_toList, List.getElem?_append_left hnumber,
    List.take_append_of_le_length (Nat.le_of_lt hnumber), hthere, Option.map_some, heq]

/-- Calls that add elements, each of which takes up some place, leave an array that numbers them by
their widths and finds them. What is found stays found whatever else is added. -/
theorem arranges_addAll (start : Nat) (additions : List (Addition α))
    (hpos : ∀ element ∈ added additions, 1 ≤ width element) :
    ((startingAt start).addAll additions).Arranges start (added additions) ∧
      ∀ more : List (Addition α), (∀ element ∈ added more, 1 ≤ width element) →
        ∀ (offset number : Nat) element,
          ((startingAt start).addAll additions).lookup offset = .found number element →
          (((startingAt start).addAll additions).addAll more).lookup offset =
            .found number element := by
  have hrun (elements : List α) (hall : ∀ element ∈ elements, 1 ≤ width element) :
      ((startingAt start).append elements).Arranges start elements := by
    have helements : ((startingAt start).append elements).elements = elements :=
      elements_append (startingAt start) elements
    have harranges := (FilledFrom.startingAt.append elements : FilledFrom start _).arranges
      (by rwa [helements])
    rwa [helements] at harranges
  simp only [addAll_eq_append, ← append_append]
  refine ⟨hrun _ hpos, fun more hmore offset number element hfound => ?_⟩
  have hall : ∀ element ∈ added additions ++ added more, 1 ≤ width element :=
    List.forall_mem_append.mpr ⟨hpos, hmore⟩
  exact (hrun _ hpos).lookup_of_append (hrun _ hall) hfound

/-- For instance, a constant of two slots is found behind one of one slot, and still is when others
were added. -/
theorem arranges_addAll_slots :
    ((startingAt 1).addAll [.push (.integer 8), .append [.long 7]]).Arranges 1
        [Constant.integer 8, .long 7] ∧
      (((startingAt 1).addAll [.push (.integer 8), .append [.long 7]]).addAll
        [.append [Constant.double 0, .integer 9]]).lookup 2 = .found 1 (.long 7) := by
  obtain ⟨harranges, hstays⟩ :=
    arranges_addAll 1 [.push (Constant.integer 8), .append [.long 7]] (by decide)
  refine ⟨harranges, hstays [.append [.double 0, .integer 9]] (by decide) 2 1 (.long 7) ?_⟩
  exact (harranges.lookup_eq_found_iff ..).mpr (by decide)

/-! ## Misses by the elements around them -/

/-- An offset falls into the element with a number, behind its start and before its end. -/
def FallsInto (array : OffsetArray α) (offset number : Nat) : Prop :=
  ∃ entry ∈ array.toList[number]?, entry.1 < offset ∧ offset < entry.1 + width entry.2

instance (array : OffsetArray α) (offset number : Nat) :
    Decidable (array.FallsInto offset number) :=
  inferInstanceAs (Decidable (∃ entry ∈ array.toList[number]?, _))

namespace FilledFrom

/-- An element starts where the one before it ends. -/
theorem offset_succ (h : FilledFrom start array) {number : Nat} {entry after : Nat × α}
    (hentry : array.toList[number]? = some entry)
    (hafter : array.toList[number + 1]? = some after) : after.1 = entry.1 + width entry.2 := by
  have hoffset := h.offset_eq hentry
  rw [h.offset_eq hafter, List.take_add_one, hentry, List.map_append, List.sum_append, hoffset]
  simp [Nat.add_assoc]

/-- The last element ends at the next offset. -/
theorem next_eq_end (h : FilledFrom start array) {number : Nat} {entry : Nat × α}
    (hentry : array.toList[number]? = some entry) (hlast : array.size = number + 1) :
    array.next = entry.1 + width entry.2 := by
  cases h with
  | startingAt => cases hentry
  | @push array last h =>
    rw [size_push, Nat.add_right_cancel_iff] at hlast
    have hlength : number = array.toList.length := by
      rw [← hlast, toList, Array.length_toList, size]
    rw [toList_push, hlength, List.getElem?_concat_length, Option.some.injEq] at hentry
    rw [← hentry, next_push]

/-- No element of an array that is not empty starts at or before an offset exactly if the array
starts behind the offset. -/
theorem countUpTo_eq_zero_iff (h : FilledFrom start array) (hasc : array.Ascending)
    (hne : 0 < array.size) {offset : Nat} : array.countUpTo offset = 0 ↔ offset < start := by
  -- The first element starts where the array does.
  obtain ⟨first, hfirst⟩ := exists_getElem?_toList hne
  have hstart : first.1 = start := h.offset_eq hfirst
  have hcount : 0 < array.countUpTo offset ↔ first.1 ≤ offset :=
    lt_countUpTo_iff_of_toList hasc hfirst
  omega

/-- An element is the last to start at or before an offset exactly if it does and, unless it is the
last of all, ends behind it. -/
theorem countUpTo_eq_succ_iff (h : FilledFrom start array) (hasc : array.Ascending)
    {number offset : Nat} {entry : Nat × α} (hentry : array.toList[number]? = some entry) :
    array.countUpTo offset = number + 1 ↔
      entry.1 ≤ offset ∧ (number + 1 < array.size → offset < entry.1 + width entry.2) := by
  have hcount : number < array.countUpTo offset ↔ entry.1 ≤ offset :=
    lt_countUpTo_iff_of_toList hasc hentry
  have hle := array.countUpTo_le_size offset
  rcases Nat.lt_or_ge (number + 1) array.size with hmore | hlast
  · -- The element behind it starts where it ends.
    obtain ⟨after, hafter⟩ := exists_getElem?_toList hmore
    have hsucc := h.offset_succ hentry hafter
    have hcountSucc : number + 1 < array.countUpTo offset ↔ after.1 ≤ offset :=
      lt_countUpTo_iff_of_toList hasc hafter
    omega
  · omega

/-- A miss is answered as too large if it is behind all elements, but also inside the last one. -/
theorem lookup_eq_tooLarge_iff (h : FilledFrom start array) (hasc : array.Ascending)
    (hne : 0 < array.size) {offset : Nat} (hmiss : array.IsMiss offset) :
    array.lookup offset = .tooLarge ↔
      array.next ≤ offset ∨ array.FallsInto offset (array.size - 1) := by
  obtain ⟨last, hlast⟩ := exists_getElem?_toList (Nat.sub_one_lt_of_lt hne)
  have hstarts := hmiss.ne hlast
  have hend := h.next_eq_end hlast (by omega)
  have hcount : array.countUpTo offset = array.size - 1 + 1 ↔ _ :=
    h.countUpTo_eq_succ_iff hasc hlast
  -- Whether the offset is behind the last element or inside it makes no difference.
  calc array.lookup offset = .tooLarge
    _ ↔ array.countUpTo offset = array.size := by
      rw [hmiss.lookup_eq]
      split
      · next heq => exact iff_of_true rfl heq
      · next hless => simp only [hless, reduceCtorEq]
    _ ↔ last.1 < offset := by omega
    _ ↔ array.next ≤ offset ∨ last.1 < offset ∧ offset < last.1 + width last.2 := by omega
    _ ↔ array.next ≤ offset ∨ array.FallsInto offset (array.size - 1) := by
      simp only [FallsInto, hlast, Option.mem_some_iff, exists_eq_left']

/-- A miss is answered as inside the element behind the one that it falls into, and before the first
element as inside the first one. -/
theorem lookup_eq_inside_iff (h : FilledFrom start array) (hasc : array.Ascending)
    (hne : 0 < array.size) {offset number : Nat} (hmiss : array.IsMiss offset) :
    array.lookup offset = .inside number ↔
      offset < start ∧ number = 0 ∨
        ∃ before, number = before + 1 ∧ number < array.size ∧ array.FallsInto offset before := by
  have hlookup : array.lookup offset = .inside number ↔
      array.countUpTo offset = number ∧ number < array.size := by
    have hle := array.countUpTo_le_size offset
    rw [hmiss.lookup_eq]
    split
    · next heq => exact iff_of_false nofun (by omega)
    · next hless =>
      rw [Lookup.inside.injEq]
      exact iff_self_and.mpr fun heq => by omega
  rw [hlookup]
  -- With no element before the offset, it is before the first one; otherwise, it is inside the
  -- last element before it.
  cases number with
  | zero =>
    rw [h.countUpTo_eq_zero_iff hasc hne]
    simp [hne]
  | succ before =>
    have hright : (offset < start ∧ before + 1 = 0 ∨ ∃ number, before + 1 = number + 1 ∧
        before + 1 < array.size ∧ array.FallsInto offset number) ↔
          before + 1 < array.size ∧ array.FallsInto offset before := by
      simp
    rw [hright, and_comm]
    refine and_congr_right fun hmore => ?_
    obtain ⟨entry, hentry⟩ := exists_getElem?_toList (Nat.lt_of_succ_lt hmore)
    have hstarts := hmiss.ne hentry
    rw [h.countUpTo_eq_succ_iff hasc hentry]
    simp only [FallsInto, hentry, Option.mem_some_iff, exists_eq_left']
    omega

end FilledFrom

/-- How offsets at which no element starts are answered. -/
structure ClassifiesMisses (array : OffsetArray α) (start : Nat) : Prop where
  /-- Misses are what a look-up does not find. -/
  isMiss_iff : ∀ offset, array.IsMiss offset ↔
    ∀ number element, array.lookup offset ≠ .found number element
  /-- A miss is too large if it is behind all elements, but also inside the last one. -/
  tooLarge_iff : ∀ offset, array.IsMiss offset →
    (array.lookup offset = .tooLarge ↔
      array.next ≤ offset ∨ array.FallsInto offset (array.size - 1))
  /-- A miss before the first element is told by the number of that, and one inside an element that
  is not the last by the number of the element behind it. -/
  inside_iff : ∀ offset number, array.IsMiss offset →
    (array.lookup offset = .inside number ↔
      offset < start ∧ number = 0 ∨
        ∃ before, number = before + 1 ∧ number < array.size ∧ array.FallsInto offset before)

/-- An array with elements, all of which take up some place, answers a miss by the element that it
falls into. -/
theorem FilledFrom.classifiesMisses (h : FilledFrom start array) (hne : array.toList ≠ [])
    (hpos : ∀ element ∈ array.elements, 1 ≤ width element) : array.ClassifiesMisses start := by
  have hasc : array.Ascending := h.ascending_of_forall_mem hpos
  have hsize : 0 < array.size := by
    rw [size, ← Array.length_toList]
    exact List.length_pos_iff.mpr hne
  exact {
    isMiss_iff := fun _ => OffsetArray.isMiss_iff hasc
    tooLarge_iff := fun _ hmiss => h.lookup_eq_tooLarge_iff hasc hsize hmiss
    inside_iff := fun _ _ hmiss => h.lookup_eq_inside_iff hasc hsize hmiss }

/-- Constants of two slots around one of one slot. -/
def aroundOneSlot : OffsetArray Constant :=
  (startingAt 1).append [.long 7, .integer 8, .long 9]

/-- For instance, the second slot of the first constant is told by the number of the second one, and
that of the last constant is too large. -/
theorem classifiesMisses_aroundOneSlot :
    FilledFrom 1 aroundOneSlot ∧ aroundOneSlot.lookup 0 = .inside 0 ∧
      aroundOneSlot.lookup 2 = .inside 1 ∧ aroundOneSlot.lookup 5 = .tooLarge := by
  have hfilled : FilledFrom 1 aroundOneSlot := FilledFrom.startingAt.append _
  obtain ⟨-, htooLarge, hinside⟩ := hfilled.classifiesMisses (by decide) (by decide)
  refine ⟨hfilled, ?_, ?_, ?_⟩
  · exact (hinside 0 0 (by decide)).mpr (.inl ⟨by decide, rfl⟩)
  · exact (hinside 2 1 (by decide)).mpr (.inr ⟨0, rfl, by decide, by decide⟩)
  · exact (htooLarge 5 (by decide)).mpr (.inr (by decide))

/-- A miss that is told by a number need not fall into the element with that number or before the
first one, and one that is told to be too large need not be behind all elements. -/
theorem not_forall_lookup_miss :
    (¬ ∀ (start : Nat) (array : OffsetArray Constant) (offset number : Nat),
      FilledFrom start array → array.toList ≠ [] → array.IsMiss offset →
      array.lookup offset = .inside number →
        array.FallsInto offset number ∨ offset < start ∧ number = 0) ∧
    ¬ ∀ (start : Nat) (array : OffsetArray Constant) (offset : Nat),
      FilledFrom start array → array.toList ≠ [] → array.IsMiss offset →
      array.lookup offset = .tooLarge → array.next ≤ offset := by
  have hfilled : FilledFrom 1 aroundOneSlot := FilledFrom.startingAt.append _
  have hasc : aroundOneSlot.Ascending := hfilled.ascending_of_forall_mem (by decide)
  constructor
  · intro h
    -- The second slot of the first constant is told by the number of the second one.
    have hlookup : aroundOneSlot.lookup 2 = .inside 1 :=
      (hfilled.lookup_eq_inside_iff hasc (by decide) (by decide)).mpr
        (.inr ⟨0, rfl, by decide, by decide⟩)
    have hanswer := h 1 aroundOneSlot 2 1 hfilled (by decide) (by decide) hlookup
    exact absurd hanswer (by decide)
  · intro h
    -- The second slot of the last constant is too large.
    have hlookup : aroundOneSlot.lookup 5 = .tooLarge :=
      (hfilled.lookup_eq_tooLarge_iff hasc (by decide) (by decide)).mpr (.inr (by decide))
    have hanswer := h 1 aroundOneSlot 5 hfilled (by decide) (by decide) hlookup
    exact absurd hanswer (by decide)

end JavaClass.OffsetArray
