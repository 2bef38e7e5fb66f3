import Mathlib.Data.List.Infix

/-! Lower-casing text, and looking for words in the result. Outside ASCII the mapping is a
table, which may look at the text around a character. A word of ASCII letters is found in
lower-cased text exactly where it is spelled, in any case. -/

namespace Casing

def Ascii (c : Char) : Prop := c.toNat < 0x80

instance (c : Char) : Decidable (Ascii c) := inferInstanceAs (Decidable (_ < _))

/-- The two characters outside ASCII whose lower case brings in an ASCII letter. -/
def kelvin : Char := '\u212a'

def dottedI : Char := '\u0130'

/-- How the other characters outside ASCII are lower-cased. -/
structure Table where
  lower : (before : List Char) → (c : Char) → (after : List Char) → List Char
  shown : ∀ before c after, lower before c after ≠ []
  outside : ∀ before c after, ¬Ascii c → ∀ lowered ∈ lower before c after, ¬Ascii lowered

variable (table : Table)

def lowerChar (before : List Char) (c : Char) (after : List Char) : List Char :=
  if Ascii c then [c.toLower]
  else if c = kelvin then ['k']
  else if c = dottedI then ['i', '\u0307']
  else table.lower before c after

def lowerFrom (before : List Char) : List Char → List Char
  | [] => []
  | c :: after => lowerChar table before c after ++ lowerFrom (before ++ [c]) after

/-- The whole text in lower case. -/
def lower (text : List Char) : List Char := lowerFrom table [] text

/-- The text spells the word, in any case. -/
def Says (word text : List Char) : Prop := word <:+: text.map Char.toLower

instance (word text : List Char) : Decidable (Says word text) := inferInstanceAs (Decidable (_ <:+: _))

/-- Words the two exceptional characters cannot take part in: no `k`, no `i` at the end. -/
def Plain : List Char → Prop
  | [] => True
  | c :: rest => Ascii c ∧ c ≠ 'k' ∧ (c = 'i' → rest ≠ []) ∧ Plain rest

instance Plain.decidable : (word : List Char) → Decidable (Plain word)
  | [] => inferInstanceAs (Decidable True)
  | _ :: rest =>
    have := Plain.decidable rest
    inferInstanceAs (Decidable (_ ∧ _ ∧ _ ∧ _))

theorem toLower_of_not_ascii {c : Char} (foreign : ¬Ascii c) : c.toLower = c := by
  unfold Char.toLower
  refine dif_neg ?_
  rintro ⟨_, upper⟩
  exact foreign (Nat.lt_of_le_of_lt (UInt32.le_iff_toNat_le.mp upper) (by decide))

section Words
variable {table} {word : List Char} {before after : List Char} {c : Char}

theorem lowerChar_ne_nil : lowerChar table before c after ≠ [] := by
  unfold lowerChar
  split_ifs
  · exact List.cons_ne_nil _ _
  · exact List.cons_ne_nil _ _
  · exact List.cons_ne_nil _ _
  · exact table.shown before c after

/-- No plain word starts inside what a character outside ASCII is lower-cased to. -/
theorem no_match (plain : Plain word) (filled : word ≠ []) (foreign : ¬Ascii c) {first last : List Char}
    (split : lowerChar table before c after = first ++ last) (reached : last ≠ []) (rest : List Char) :
    ¬word <+: last ++ rest := by
  obtain ⟨letter, word, rfl⟩ := List.exists_cons_of_ne_nil filled
  obtain ⟨ascii, notK, more, plain⟩ := plain
  obtain ⟨head, last, rfl⟩ := List.exists_cons_of_ne_nil reached
  intro starts
  obtain ⟨rfl, continues⟩ := List.cons_prefix_cons.mp starts
  unfold lowerChar at split
  rw [if_neg foreign] at split
  split_ifs at split with isKelvin isDotted
  · have member : letter ∈ ['k'] := by rw [split]; simp
    exact notK (List.mem_singleton.mp member)
  · cases first with
    | nil =>
      obtain ⟨same, dot⟩ := List.cons.inj split
      obtain ⟨next, word, rfl⟩ := List.exists_cons_of_ne_nil (more same.symm)
      rw [← dot] at continues
      obtain ⟨rfl, _⟩ := List.cons_prefix_cons.mp continues
      exact absurd plain.1 (by decide)
    | cons _ first =>
      have member : letter ∈ ['\u0307'] := by rw [(List.cons.inj split).2]; simp
      rw [List.mem_singleton.mp member] at ascii
      exact absurd ascii (by decide)
  · have member : letter ∈ table.lower before c after := by rw [split]; simp
    exact table.outside before c after foreign letter member ascii

/-- Text in which no occurrence of the word starts can be left out. -/
theorem infix_append_skip {text rest : List Char}
    (never : ∀ first last, text = first ++ last → last ≠ [] → ¬word <+: last ++ rest) :
    word <:+: text ++ rest ↔ word <:+: rest := by
  induction text with
  | nil => rfl
  | cons c text ih =>
    rw [List.cons_append, List.infix_cons_iff,
      ih (fun first last split reached => never (c :: first) last (by rw [split, List.cons_append]) reached)]
    exact or_iff_right (never [] (c :: text) rfl (List.cons_ne_nil _ _))

theorem prefix_lowerFrom (plain : Plain word) (text : List Char) :
    word <+: lowerFrom table before text ↔ word <+: text.map Char.toLower := by
  induction word generalizing before text with
  | nil => simp
  | cons letter word ih =>
    cases text with
    | nil => rfl
    | cons c text =>
      rw [lowerFrom, List.map_cons]
      by_cases ascii : Ascii c
      · rw [lowerChar, if_pos ascii, List.singleton_append, List.cons_prefix_cons, List.cons_prefix_cons, ih plain.2.2.2]
      · constructor
        · intro starts
          exact absurd starts (no_match plain (List.cons_ne_nil _ _) ascii (List.nil_append _).symm lowerChar_ne_nil _)
        · intro starts
          obtain ⟨rfl, _⟩ := List.cons_prefix_cons.mp starts
          rw [toLower_of_not_ascii ascii] at plain
          exact absurd plain.1 ascii

theorem infix_lowerFrom (plain : Plain word) (filled : word ≠ []) (text : List Char) :
    word <:+: lowerFrom table before text ↔ Says word text := by
  unfold Says
  induction text generalizing before with
  | nil => rfl
  | cons c text ih =>
    have start : word <+: lowerFrom table before (c :: text) ↔ _ := prefix_lowerFrom plain (c :: text)
    rw [lowerFrom] at start ⊢
    rw [List.map_cons] at start ⊢
    by_cases ascii : Ascii c
    · rw [lowerChar, if_pos ascii, List.singleton_append, List.infix_cons_iff, List.infix_cons_iff, ih]
      rw [lowerChar, if_pos ascii, List.singleton_append] at start
      rw [start]
    · rw [infix_append_skip (fun _ _ split reached => no_match plain filled ascii split reached _), ih, List.infix_cons_iff]
      refine ⟨Or.inr, ?_⟩
      rintro (starts | inside)
      · exact absurd (start.mpr starts) (no_match plain filled ascii (List.nil_append _).symm lowerChar_ne_nil _)
      · exact inside

variable (table) in
/-- A plain word is in the lower-cased text exactly where the text spells it. -/
theorem infix_lower_iff (plain : Plain word) (filled : word ≠ []) (text : List Char) :
    word <:+: lower table text ↔ Says word text :=
  infix_lowerFrom plain filled text

/-- Two texts with a break between them: no word is spelled across it. -/
theorem says_append {first last : List Char}
    (apart : (∀ c ∈ first.getLast?, c.toLower ∉ word) ∨ ∀ c ∈ last.head?, c.toLower ∉ word) :
    Says word (first ++ last) ↔ Says word first ∨ Says word last := by
  unfold Says
  rw [List.map_append]
  constructor
  · intro inside
    rcases List.infix_append_iff_ne_nil.mp inside with front | back | ⟨left, right, some_, more, rfl, ends, starts⟩
    · exact Or.inl front
    · exact Or.inr back
    · exfalso
      rcases apart with apart | apart
      · have reached : first ≠ [] := by
          rintro rfl
          exact some_ (List.suffix_nil.mp ends)
        have same := ends.getLast some_
        rw [List.getLast_map] at same
        refine apart (first.getLast reached) (List.getLast?_eq_some_getLast reached) ?_
        rw [← same]
        exact List.mem_append_left _ (List.getLast_mem some_)
      · have reached : last ≠ [] := by
          rintro rfl
          exact more (List.prefix_nil.mp starts)
        have same := starts.head more
        rw [List.head_map] at same
        refine apart (last.head reached) (List.head?_eq_some_head reached) ?_
        rw [← same]
        exact List.mem_append_right _ (List.head_mem more)
  · rintro (front | back)
    · exact List.infix_append_of_infix_left front
    · exact List.infix_append_of_infix_right back

end Words
end Casing
