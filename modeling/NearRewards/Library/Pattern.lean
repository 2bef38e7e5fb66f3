import Mathlib.Data.List.Basic

/-! Simple patterns: a few alternatives, each made of words and of stretches of space, that
start at a word boundary and may have to end at one. A search finds the first place where an
alternative matches, and the first alternative that does. -/

/-- When a letter of a pattern matches a character, which characters make up words, and which
are space. -/
structure Alphabet where
  same : Char → Char → Bool
  word : Char → Bool
  space : Char → Bool

inductive Piece where
  | text (letters : List Char)
  | spaces (least : ℕ)

structure Pattern where
  alternatives : List (List Piece)
  closed : Bool

namespace Pattern
variable (alphabet : Alphabet)

/-- Exactly one of the two is in a word. -/
def boundary (before after : Option Char) : Bool := before.any alphabet.word != after.any alphabet.word

/-- The letters taken from the front of the text, and what is left of it. -/
def spell : List Char → List Char → Option (List Char × List Char)
  | [], text => some ([], text)
  | _ :: _, [] => none
  | letter :: letters, c :: text =>
    if alphabet.same letter c then (spell letters text).map fun (taken, rest) => (c :: taken, rest) else none

def take (text : List Char) : Piece → Option (List Char × List Char)
  | .text letters => spell alphabet letters text
  -- what comes after it is no space, so that there is no other way to take it
  | .spaces least =>
    let (taken, rest) := text.span alphabet.space
    if least ≤ taken.length then some (taken, rest) else none

def takeAll : List Piece → List Char → Option (List Char × List Char)
  | [], text => some ([], text)
  | piece :: pieces, text => do
    let (taken, rest) ← take alphabet text piece
    let (more, rest) ← takeAll pieces rest
    return (taken ++ more, rest)

variable (pattern : Pattern)

/-- What the pattern matches at the front of the text, given the character before it. -/
def here (before : Option Char) (text : List Char) : Option (List Char) :=
  if boundary alphabet before text.head? then
    pattern.alternatives.findSome? fun pieces => do
      let (taken, rest) ← takeAll alphabet pieces text
      if pattern.closed = true ∧ ¬boundary alphabet (taken.getLast?.or before) rest.head? then none else some taken
  else none

def searchFrom (before : Option Char) : List Char → Option (List Char)
  | [] => pattern.here alphabet before []
  | c :: rest =>
    match pattern.here alphabet before (c :: rest) with
    | some hit => some hit
    | none => searchFrom (some c) rest

def search (text : List Char) : Option (List Char) := pattern.searchFrom alphabet none text

variable {alphabet} {pattern}

theorem searchFrom_eq_none {before : Option Char} {text : List Char} :
    pattern.searchFrom alphabet before text = none ↔
      ∀ front back, text = front ++ back → pattern.here alphabet (front.getLast?.or before) back = none := by
  induction text generalizing before with
  | nil =>
    constructor
    · intro missed front back split
      obtain ⟨rfl, rfl⟩ := List.append_eq_nil_iff.mp split.symm
      exact missed
    · exact fun nowhere => nowhere [] [] rfl
  | cons c rest ih =>
    have later : ∀ front : List Char, (front.getLast?.or (some c)) = (c :: front).getLast?.or before := by
      intro front
      rw [List.getLast?_cons]
      cases front.getLast? <;> rfl
    constructor
    · intro missed front back split
      unfold searchFrom at missed
      split at missed
      next => cases missed
      next none_ =>
        rcases List.cons_eq_append_iff.mp split with ⟨rfl, rfl⟩ | ⟨tail, rfl, rfl⟩
        · exact none_
        · rw [← later]
          exact ih.mp missed tail back rfl
    · intro nowhere
      unfold searchFrom
      have first : pattern.here alphabet before (c :: rest) = none := nowhere [] (c :: rest) rfl
      rw [first]
      refine ih.mpr fun front back split => ?_
      rw [later]
      exact nowhere (c :: front) back (by rw [split, List.cons_append])

/-- Nothing is found only where the pattern matches nowhere. -/
theorem search_eq_none {text : List Char} :
    pattern.search alphabet text = none ↔
      ∀ front back, text = front ++ back → pattern.here alphabet front.getLast? back = none := by
  unfold search
  rw [searchFrom_eq_none]
  simp

variable (alphabet) in
/-- The text spells the word. -/
def Spells (word text : List Char) : Prop := List.Forall₂ (fun letter c => alphabet.same letter c = true) word text

theorem spell_append {word middle : List Char} (spelled : Spells alphabet word middle) (back : List Char) :
    spell alphabet word (middle ++ back) = some (middle, back) := by
  induction spelled with
  | nil => rfl
  | @cons letter c word middle same spelled ih =>
    rw [List.cons_append, spell, if_pos same, ih]
    rfl

theorem spell_eq_some {word text taken rest : List Char} (spelled : spell alphabet word text = some (taken, rest)) :
    text = taken ++ rest ∧ Spells alphabet word taken := by
  induction word generalizing text taken with
  | nil =>
    cases spelled
    exact ⟨rfl, .nil⟩
  | cons letter word ih =>
    cases text with
    | nil => cases spelled
    | cons c text =>
      unfold spell at spelled
      split at spelled
      next same =>
        obtain ⟨⟨more, left⟩, later, whole⟩ := Option.map_eq_some_iff.mp spelled
        cases whole
        obtain ⟨rfl, letters⟩ := ih later
        exact ⟨rfl, .cons same letters⟩
      next => cases spelled

/-- One of these words, and not as part of a longer one. -/
def words (list : List (List Char)) : Pattern where
  alternatives := list.map fun word => [.text word]
  closed := true

variable (alphabet) in
/-- The word stands in the text, by itself. -/
def Stands (word text : List Char) : Prop :=
  ∃ front middle back, text = front ++ (middle ++ back) ∧ Spells alphabet word middle ∧
    boundary alphabet front.getLast? middle.head? = true ∧ boundary alphabet middle.getLast? back.head? = true

theorem takeAll_text {word text : List Char} :
    takeAll alphabet [.text word] text = spell alphabet word text := by
  have took : take alphabet text (.text word) = spell alphabet word text := rfl
  unfold takeAll
  rw [took]
  cases spell alphabet word text with
  | none => rfl
  | some pair => simp [takeAll]

/-- No word is found exactly where none of them stands. -/
theorem words_search_eq_none {list : List (List Char)} (filled : [] ∉ list) {text : List Char} :
    (words list).search alphabet text = none ↔ ∀ word ∈ list, ¬Stands alphabet word text := by
  rw [search_eq_none]
  constructor
  · rintro nowhere word listed ⟨front, middle, back, split, spelled, opened, closed⟩
    have some_ : middle ≠ [] := by
      rintro rfl
      cases spelled
      exact filled listed
    have unmatched := nowhere front (middle ++ back) split
    unfold here at unmatched
    rw [List.head?_append_of_ne_nil _ some_, if_pos opened, List.findSome?_eq_none_iff] at unmatched
    have untaken := unmatched [.text word] (List.mem_map_of_mem (f := fun word => [Piece.text word]) listed)
    have last : middle.getLast?.or front.getLast? = middle.getLast? := by
      rw [List.getLast?_eq_some_getLast some_]
      rfl
    rw [takeAll_text, spell_append spelled back] at untaken
    simp [words, last, closed] at untaken
  · intro absent front back split
    unfold here
    split
    next opened =>
      rw [List.findSome?_eq_none_iff]
      intro pieces listed
      obtain ⟨word, among, rfl⟩ := List.mem_map.mp listed
      rw [takeAll_text]
      cases spelled : spell alphabet word back with
      | none => rfl
      | some took =>
        obtain ⟨taken, rest⟩ := took
        obtain ⟨rfl, letters⟩ := spell_eq_some spelled
        have some_ : taken ≠ [] := by
          rintro rfl
          cases letters
          exact filled among
        have last : taken.getLast?.or front.getLast? = taken.getLast? := by
          rw [List.getLast?_eq_some_getLast some_]
          rfl
        rw [List.head?_append_of_ne_nil _ some_] at opened
        refine if_pos ⟨rfl, fun closed => absent word among ⟨front, taken, rest, split, letters, opened, ?_⟩⟩
        rwa [last] at closed
    next => rfl

end Pattern
