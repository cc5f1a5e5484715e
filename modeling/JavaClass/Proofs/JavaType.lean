import JavaClass.JavaType

/-!
# The grammar of descriptors

Which types there are, and that a descriptor spells one of them at most: where the descriptor of a
type begins, nothing but that type can be read, whatever follows it.

- `JavaType.IsClassName`: the names that classes can have, by the parts of a name.
- `JavaType.WellFormed`: the types that have a descriptor.
- `JavaType.WellFormed.eq_of_append_eq`: descriptors are read in one way only.
- `JavaType.WellFormed.render_inj`: no two types have one descriptor.
-/

namespace JavaClass

/-- Two texts of which each ends before the first of some characters are equal if they are equal
together with what follows, and so is what follows. -/
theorem append_cons_inj_of_ends {p : Char → Bool} {first second after rest : List Char}
    {x y : Char} (hfirst : ∀ c ∈ first, p c) (hsecond : ∀ c ∈ second, p c) (hx : ¬ p x)
    (hy : ¬ p y) (h : first ++ x :: after = second ++ y :: rest) :
    first = second ∧ x :: after = y :: rest := by
  -- Both are what can be taken from the whole text.
  have htake : first = second := by
    have htaken := congrArg (List.takeWhile p) h
    rwa [List.takeWhile_append_of_pos hfirst, List.takeWhile_append_of_pos hsecond,
      List.takeWhile_cons_of_neg hx, List.takeWhile_cons_of_neg hy, List.append_nil,
      List.append_nil] at htaken
  subst htake
  exact ⟨rfl, List.append_cancel_left h⟩

namespace BaseType

/-- Base types have different letters. -/
theorem code_inj {first second : BaseType} (h : first.code = second.code) : first = second := by
  have := congrArg ofCode? h
  simpa only [ofCode?_code, Option.some.injEq] using this

/-- The letter of a base type stands for nothing else in a descriptor. -/
theorem code_ne (base : BaseType) :
    base.code ≠ 'L' ∧ base.code ≠ '[' ∧ base.code ≠ '(' ∧ base.code ≠ ')' := by
  cases base <;> decide

/-- A letter stands for a base type if it is the letter of that type. -/
theorem ofCode?_eq_some_iff {letter : Char} {base : BaseType} :
    ofCode? letter = some base ↔ letter = base.code := by
  constructor
  · intro h
    have hfound := List.find?_some h
    exact (of_decide_eq_true hfound).symm
  · intro h
    rw [h, ofCode?_code]

end BaseType

namespace JavaType

/-! ## Names of classes -/

/-- A part of the name of a class. -/
def IsPart (part : List Char) : Prop :=
  part ≠ [] ∧ ∀ c ∈ part, c ≠ '.' ∧ c ≠ ';' ∧ c ≠ '[' ∧ c ≠ '/'

/-- A class is named by one or more parts with slashes between them. -/
def IsClassName (name : List Char) : Prop :=
  ∃ parts ≠ [], (∀ part ∈ parts, IsPart part) ∧ name = ['/'].intercalate parts

/-- A part is an identifier without a slash. -/
theorem isPart_iff {part : List Char} : IsPart part ↔ isIdentifier part ∧ '/' ∉ part := by
  unfold IsPart isIdentifier
  simp only [Bool.and_eq_true, Bool.not_eq_true', List.isEmpty_eq_false_iff, List.all_eq_true,
    bne_iff_ne, ne_eq]
  constructor
  · rintro ⟨hne, h⟩
    refine ⟨⟨hne, fun c hc => ?_⟩, fun hslash => (h '/' hslash).2.2.2 rfl⟩
    obtain ⟨hdot, hsemicolon, hbracket, -⟩ := h c hc
    exact ⟨⟨hdot, hsemicolon⟩, hbracket⟩
  · rintro ⟨⟨hne, h⟩, hslash⟩
    refine ⟨hne, fun c hc => ?_⟩
    obtain ⟨⟨hdot, hsemicolon⟩, hbracket⟩ := h c hc
    exact ⟨hdot, hsemicolon, hbracket, fun heq => hslash (heq ▸ hc)⟩

/-- What is between two slashes has none. -/
theorem slash_notMem_of_mem_splitOn {part : List Char} :
    (name : List Char) → part ∈ name.splitOn '/' → '/' ∉ part
  | [], h => by
    rw [List.splitOn_nil, List.mem_singleton] at h
    exact h ▸ List.not_mem_nil
  | c :: name, h => by
    rw [List.splitOn_cons_eq_if_modifyHead] at h
    obtain ⟨head, tail, hsplit⟩ := List.exists_cons_of_ne_nil (List.splitOn_ne_nil '/' name)
    have ih : ∀ part ∈ head :: tail, '/' ∉ part := fun part hpart =>
      slash_notMem_of_mem_splitOn name (hsplit ▸ hpart)
    rw [hsplit] at h
    -- A slash ends a part without characters, and any other character belongs to the first part.
    split at h
    · rcases List.mem_cons.mp h with rfl | htail
      · exact List.not_mem_nil
      · exact ih part htail
    · next hc =>
      rw [List.modifyHead_cons] at h
      rcases List.mem_cons.mp h with rfl | htail
      · intro hslash
        rcases List.mem_cons.mp hslash with heq | hmem
        · exact hc (beq_iff_eq.mpr heq.symm)
        · exact ih head List.mem_cons_self hmem
      · exact ih part (List.mem_cons_of_mem _ htail)

/-- Parts that are joined by slashes hold nothing but the characters of the parts and slashes. -/
theorem mem_of_mem_intercalate {c : Char} :
    {parts : List (List Char)} → c ∈ ['/'].intercalate parts → c = '/' ∨ ∃ part ∈ parts, c ∈ part
  | [], h => by simp at h
  | [part], h => .inr ⟨part, List.mem_singleton_self _, by simpa using h⟩
  | part :: next :: parts, h => by
    rw [List.intercalate_cons_cons, List.mem_append, List.mem_append, List.mem_singleton] at h
    rcases h with (hpart | hslash) | hparts
    · exact .inr ⟨part, List.mem_cons_self, hpart⟩
    · exact .inl hslash
    · rcases mem_of_mem_intercalate hparts with hslash | ⟨found, hfound, hc⟩
      · exact .inl hslash
      · exact .inr ⟨found, List.mem_cons_of_mem _ hfound, hc⟩

/-- Splitting a name at its slashes tells whether it is one. -/
theorem isBinaryName_iff {name : List Char} : isBinaryName name ↔ IsClassName name := by
  unfold isBinaryName
  rw [List.all_eq_true]
  constructor
  · intro h
    refine ⟨name.splitOn '/', List.splitOn_ne_nil _ _, fun part hpart => ?_,
      (List.intercalate_splitOn '/').symm⟩
    exact isPart_iff.mpr ⟨h part hpart, slash_notMem_of_mem_splitOn name hpart⟩
  · rintro ⟨parts, hne, hparts, rfl⟩ part hpart
    rw [List.splitOn_intercalate '/' (fun part hpart => (isPart_iff.mp (hparts part hpart)).2)
      hne] at hpart
    exact (isPart_iff.mp (hparts part hpart)).1

instance : DecidablePred IsClassName := fun _ => decidable_of_iff _ isBinaryName_iff

/-- The name of a class ends before a semicolon. -/
theorem IsClassName.ne_semicolon {name : List Char} (h : IsClassName name) :
    ∀ c ∈ name, c ≠ ';' := by
  obtain ⟨parts, -, hparts, rfl⟩ := h
  intro c hc
  rcases mem_of_mem_intercalate hc with rfl | ⟨part, hpart, hmem⟩
  · decide
  · exact ((hparts part hpart).2 c hmem).2.1

/-! ## Types that have a descriptor -/

/-- Whether a type is an array. -/
def isArray : JavaType → Bool
  | array .. => true
  | _ => false

/-- The types that have a descriptor. Arrays are flat, and neither they nor the arguments of methods
are `void` or methods. -/
inductive WellFormed : JavaType → Prop where
  /-- A primitive type or `void`. -/
  | primitive (base : BaseType) : WellFormed (.primitive base)
  /-- A class that has a name. -/
  | classType {name : String} (hname : IsClassName name.toList) : WellFormed (.classType name)
  /-- An array with a dimension at least. -/
  | array {dimensions : Nat} {element : JavaType} (hdimensions : 1 ≤ dimensions)
    (helement : WellFormed element) (hflat : element.isArray = false)
    (hvalue : element.isElement = true) : WellFormed (.array dimensions element)
  /-- A method that takes values. -/
  | method {result : JavaType} {arguments : List JavaType} (hresult : WellFormed result)
    (hreturned : result.isMethod = false)
    (harguments : ∀ argument ∈ arguments, WellFormed argument)
    (hvalues : ∀ argument ∈ arguments, argument.isElement = true) :
    WellFormed (.method result arguments)

theorem wellFormed_classType {name : String} :
    (classType name).WellFormed ↔ IsClassName name.toList :=
  ⟨fun h => by cases h; assumption, .classType⟩

theorem wellFormed_array {dimensions : Nat} {element : JavaType} :
    (array dimensions element).WellFormed ↔
      1 ≤ dimensions ∧ element.WellFormed ∧ element.isArray = false ∧ element.isElement = true := by
  constructor
  · intro h
    cases h with
    | array hdimensions helement hflat hvalue => exact ⟨hdimensions, helement, hflat, hvalue⟩
  · rintro ⟨hdimensions, helement, hflat, hvalue⟩
    exact .array hdimensions helement hflat hvalue

theorem wellFormed_method {result : JavaType} {arguments : List JavaType} :
    (method result arguments).WellFormed ↔
      (result.WellFormed ∧ result.isMethod = false) ∧
        (∀ argument ∈ arguments, argument.WellFormed) ∧
          ∀ argument ∈ arguments, argument.isElement = true := by
  constructor
  · intro h
    cases h with
    | method hresult hreturned harguments hvalues =>
      exact ⟨⟨hresult, hreturned⟩, harguments, hvalues⟩
  · rintro ⟨⟨hresult, hreturned⟩, harguments, hvalues⟩
    exact .method hresult hreturned harguments hvalues

mutual

/-- Decides whether a type has a descriptor. -/
def decWellFormed : (type : JavaType) → Decidable type.WellFormed
  | primitive base => isTrue (.primitive base)
  | classType _ => decidable_of_iff _ wellFormed_classType.symm
  | array _ element =>
    have := decWellFormed element
    decidable_of_iff _ wellFormed_array.symm
  | method result arguments =>
    have := decWellFormed result
    have := decAllWellFormed arguments
    decidable_of_iff _ wellFormed_method.symm

/-- Decides whether all of some types have a descriptor. -/
def decAllWellFormed : (types : List JavaType) → Decidable (∀ type ∈ types, type.WellFormed)
  | [] => isTrue fun _ h => absurd h List.not_mem_nil
  | type :: types =>
    have := decWellFormed type
    have := decAllWellFormed types
    decidable_of_iff _ List.forall_mem_cons.symm

end

instance : DecidablePred WellFormed := decWellFormed

/-- The character that a descriptor starts with, which tells what kind of type it is. -/
def lead : JavaType → Char
  | primitive base => base.code
  | classType _ => 'L'
  | array .. => '['
  | method .. => '('

/-- No type is mistaken for the end of the arguments of a method. -/
theorem lead_ne_close (type : JavaType) : type.lead ≠ ')' := by
  cases type with
  | primitive base => exact base.code_ne.2.2.2
  | classType | array | method => simp [lead]

theorem lead_of_isArray {type : JavaType} (h : type.isArray = true) : type.lead = '[' := by
  cases type with
  | array => rfl
  | primitive | classType | method => simp [isArray] at h

/-- Only arrays add a bracket to those of an array. -/
theorem lead_ne_bracket {type : JavaType} (h : type.isArray = false) : type.lead ≠ '[' := by
  cases type with
  | primitive base => exact base.code_ne.2.1
  | array => simp [isArray] at h
  | classType | method => simp [lead]

namespace WellFormed

/-- A descriptor starts with the character that tells its kind. -/
theorem exists_renderChars_eq {type : JavaType} (h : type.WellFormed) :
    ∃ rest, type.renderChars = type.lead :: rest := by
  cases h with
  | primitive base => exact ⟨[], rfl⟩
  | classType hname => exact ⟨_, rfl⟩
  | @array dimensions element hdimensions =>
    obtain ⟨less, rfl⟩ := Nat.exists_eq_add_of_le' hdimensions
    exact ⟨List.replicate less '[' ++ element.renderChars, rfl⟩
  | method => exact ⟨_, rfl⟩

/-- Two descriptors that start texts which are equal tell the same kind. -/
theorem lead_eq_of_append_eq {type other : JavaType} {rest after : List Char}
    (htype : type.WellFormed) (hother : other.WellFormed)
    (h : type.renderChars ++ rest = other.renderChars ++ after) : type.lead = other.lead := by
  obtain ⟨_, heq⟩ := htype.exists_renderChars_eq
  obtain ⟨_, hotherEq⟩ := hother.exists_renderChars_eq
  rw [heq, hotherEq] at h
  exact (List.cons.inj h).1

/-- Arguments of which each is read in one way only are read in one way only, up to the parenthesis
that closes them. -/
theorem renderEach_append_inj {rest after : List Char} :
    {first second : List JavaType} →
    (hread : ∀ type ∈ first, ∀ {other : JavaType} {rest after : List Char}, other.WellFormed →
      type.renderChars ++ rest = other.renderChars ++ after → type = other ∧ rest = after) →
    (hfirst : ∀ type ∈ first, type.WellFormed) → (hsecond : ∀ type ∈ second, type.WellFormed) →
    renderEach first ++ ')' :: rest = renderEach second ++ ')' :: after →
    first = second ∧ rest = after
  | [], [], _, _, _, h => by simpa [renderEach] using h
  -- Where one list ends there is a parenthesis, with which no argument starts.
  | [], other :: _, _, _, hsecond, h => by
    obtain ⟨_, heq⟩ := (hsecond other List.mem_cons_self).exists_renderChars_eq
    rw [renderEach, renderEach, heq] at h
    exact absurd (List.cons.inj h).1.symm other.lead_ne_close
  | type :: _, [], _, hfirst, _, h => by
    obtain ⟨_, heq⟩ := (hfirst type List.mem_cons_self).exists_renderChars_eq
    rw [renderEach, renderEach, heq] at h
    exact absurd (List.cons.inj h).1 type.lead_ne_close
  | type :: first, other :: second, hread, hfirst, hsecond, h => by
    rw [renderEach, renderEach, List.append_assoc, List.append_assoc] at h
    obtain ⟨rfl, hrest⟩ :=
      hread type List.mem_cons_self (hsecond other List.mem_cons_self) h
    obtain ⟨rfl, rfl⟩ := renderEach_append_inj
      (fun type htype => hread type (List.mem_cons_of_mem _ htype))
      (fun type htype => hfirst type (List.mem_cons_of_mem _ htype))
      (fun type htype => hsecond type (List.mem_cons_of_mem _ htype)) hrest
    exact ⟨rfl, rfl⟩

/-- The name of a class is read in one way only, as it ends before the first semicolon. -/
theorem name_eq_of_append_eq {name other : String} {rest after : List Char}
    (hname : IsClassName name.toList) (hother : IsClassName other.toList)
    (h : (JavaType.classType name).renderChars ++ rest =
      (JavaType.classType other).renderChars ++ after) :
    name = other ∧ rest = after := by
  have hnames : name.toList ++ ';' :: rest = other.toList ++ ';' :: after := by
    simpa [renderChars] using h
  obtain ⟨htext, hrest⟩ := append_cons_inj_of_ends (p := (· ≠ ';'))
    (by simpa using hname.ne_semicolon) (by simpa using hother.ne_semicolon)
    (by simp) (by simp) hnames
  exact ⟨String.toList_inj.mp htext, (List.cons.inj hrest).2⟩

/-- The brackets of an array are read in one way only. They end where the descriptor of the element
starts, which is that of no array. -/
theorem dimensions_eq_of_append_eq {first second : Nat} {element other : JavaType}
    {rest after : List Char} (helement : element.WellFormed) (hflat : element.isArray = false)
    (hother : other.WellFormed) (hotherFlat : other.isArray = false)
    (h : (JavaType.array first element).renderChars ++ rest =
      (JavaType.array second other).renderChars ++ after) :
    first = second ∧ element.renderChars ++ rest = other.renderChars ++ after := by
  obtain ⟨tail, heq⟩ := helement.exists_renderChars_eq
  obtain ⟨otherTail, hotherEq⟩ := hother.exists_renderChars_eq
  have hbrackets : List.replicate first '[' ++ element.lead :: (tail ++ rest) =
      List.replicate second '[' ++ other.lead :: (otherTail ++ after) := by
    simpa [renderChars, heq, hotherEq] using h
  obtain ⟨hreplicate, hrest⟩ := append_cons_inj_of_ends (p := (· = '['))
    (by simp) (by simp) (by simpa using lead_ne_bracket hflat)
    (by simpa using lead_ne_bracket hotherFlat) hbrackets
  refine ⟨by simpa using congrArg List.length hreplicate, ?_⟩
  rw [heq, hotherEq]
  exact hrest

/-- A descriptor is read in one way only: a text that starts with descriptors of two types starts
with one, which is that of both. -/
theorem eq_of_append_eq {type other : JavaType} {rest after : List Char} (htype : type.WellFormed)
    (hother : other.WellFormed) (h : type.renderChars ++ rest = other.renderChars ++ after) :
    type = other ∧ rest = after := by
  -- The first character tells that both are of one kind, and then the parts are read in turn.
  induction htype generalizing other rest after with
  | primitive base =>
    have hlead := lead_eq_of_append_eq (.primitive base) hother h
    cases hother with
    | primitive otherBase =>
      exact ⟨congrArg _ (BaseType.code_inj hlead), (List.cons.inj h).2⟩
    | _ => simp [lead, base.code_ne] at hlead
  | classType hname =>
    have hlead := lead_eq_of_append_eq (.classType hname) hother h
    cases hother with
    | classType hotherName =>
      obtain ⟨rfl, rfl⟩ := name_eq_of_append_eq hname hotherName h
      exact ⟨rfl, rfl⟩
    | primitive base => exact absurd hlead.symm base.code_ne.1
    | _ => simp [lead] at hlead
  | array hdimensions helement hflat hvalue ih =>
    have hlead := lead_eq_of_append_eq (.array hdimensions helement hflat hvalue) hother h
    cases hother with
    | array _ hotherElement hotherFlat _ =>
      obtain ⟨rfl, helements⟩ :=
        dimensions_eq_of_append_eq helement hflat hotherElement hotherFlat h
      obtain ⟨rfl, rfl⟩ := ih hotherElement helements
      exact ⟨rfl, rfl⟩
    | primitive base => exact absurd hlead.symm base.code_ne.2.1
    | _ => simp [lead] at hlead
  | @method result arguments hresult hreturned harguments hvalues ihresult iharguments =>
    have hlead :=
      lead_eq_of_append_eq (.method hresult hreturned harguments hvalues) hother h
    cases hother with
    | @method otherResult otherArguments hotherResult _ hotherArguments _ =>
      have hopened : renderEach arguments ++ ')' :: (result.renderChars ++ rest) =
          renderEach otherArguments ++ ')' :: (otherResult.renderChars ++ after) := by
        simpa [renderChars] using h
      obtain ⟨rfl, hreturn⟩ :=
        renderEach_append_inj iharguments harguments hotherArguments hopened
      obtain ⟨rfl, rfl⟩ := ihresult hotherResult hreturn
      exact ⟨rfl, rfl⟩
    | primitive base => exact absurd hlead.symm base.code_ne.2.2.1
    | _ => simp [lead] at hlead

/-- No two types have one descriptor. -/
theorem render_inj {type other : JavaType} (htype : type.WellFormed) (hother : other.WellFormed) :
    type.render = other.render ↔ type = other := by
  refine ⟨fun h => ?_, congrArg render⟩
  have hchars : type.renderChars ++ [] = other.renderChars ++ [] := by
    rw [← toList_render, ← toList_render, h]
  exact (htype.eq_of_append_eq hother hchars).1

end WellFormed

example : WellFormed
    (.method (.primitive .void) [.array 2 (.classType "a/b"), .primitive .int]) := by
  decide

end JavaType

end JavaClass
