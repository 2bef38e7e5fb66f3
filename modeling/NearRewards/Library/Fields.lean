import Mathlib.Data.List.Basic

/-! Lines made of words. A line gives back its words as long as none of them contains a
space, and a number is given back by its decimal digits. -/

namespace Fields

def line (words : List (List Char)) : List Char := [' '].intercalate words

theorem line_cons (word next : List Char) (rest : List (List Char)) :
    line (word :: next :: rest) = word ++ ' ' :: line (next :: rest) := by
  rw [line, List.intercalate_cons_of_ne_nil (List.cons_ne_nil _ _), List.append_assoc]
  rfl

theorem line_singleton (word : List Char) : line [word] = word := List.intercalate_singleton

/-- Text that can be one word of a line. -/
def Word (text : List Char) : Prop := ' ' ∉ text

instance (text : List Char) : Decidable (Word text) := inferInstanceAs (Decidable (_ ∉ _))

theorem line_injective {words others : List (List Char)} (plain : ∀ word ∈ words, Word word)
    (plainToo : ∀ word ∈ others, Word word) (some : words ≠ []) (someToo : others ≠ []) (same : line words = line others) :
    words = others :=
  calc
    words = (line words).splitOn ' ' := (List.splitOn_intercalate ' ' plain some).symm
    _ = (line others).splitOn ' ' := by rw [same]
    _ = others := List.splitOn_intercalate ' ' plainToo someToo

def decimal (n : ℕ) : List Char := (toString n).toList

theorem decimal_eq (n : ℕ) : decimal n = Nat.toDigits 10 n := Nat.toList_repr

theorem decimal_injective : Function.Injective decimal := by
  intro first second same
  rw [decimal_eq, decimal_eq] at same
  have read := congrArg (fun digits => Nat.ofDigitChars 10 digits 0) same
  simpa using read

theorem word_decimal (n : ℕ) : Word (decimal n) := by
  intro space
  rw [decimal_eq] at space
  have digit := Nat.isDigit_of_mem_toDigits (by decide) (by decide) space
  simp at digit

/-- The words of labelled values. -/
def labelled (labels : List String) (values : List (List Char)) : List (List Char) :=
  labels.zipWith (fun label value => label.toList ++ value) values

theorem labelled_injective (labels : List String) {values others : List (List Char)} (length : values.length = labels.length)
    (lengthToo : others.length = labels.length) (same : labelled labels values = labelled labels others) : values = others := by
  induction labels generalizing values others with
  | nil => rw [List.length_eq_zero_iff.mp length, List.length_eq_zero_iff.mp lengthToo]
  | cons label labels ih =>
    obtain ⟨value, values, rfl⟩ := List.exists_cons_of_length_eq_add_one length
    obtain ⟨other, others, rfl⟩ := List.exists_cons_of_length_eq_add_one lengthToo
    obtain ⟨head, tail⟩ := List.cons.inj same
    rw [List.append_cancel_left head, ih (Nat.succ.inj length) (Nat.succ.inj lengthToo) tail]

theorem Word.append {first second : List Char} (word : Word first) (rest : Word second) : Word (first ++ second) := by
  intro space
  rcases List.mem_append.mp space with left | right
  · exact word left
  · exact rest right

theorem word_labelled {labels : List String} {values : List (List Char)} (plain : ∀ label ∈ labels, Word label.toList)
    (plainToo : ∀ value ∈ values, Word value) : ∀ word ∈ labelled labels values, Word word := by
  intro word member
  obtain ⟨i, bound, rfl⟩ := List.getElem_of_mem member
  simp only [labelled, List.getElem_zipWith]
  exact (plain _ (List.getElem_mem _)).append (plainToo _ (List.getElem_mem _))

end Fields
