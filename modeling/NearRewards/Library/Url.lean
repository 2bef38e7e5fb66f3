import Mathlib.Data.List.DropRight
import NearRewards.Library.Casing

/-! URLs of the form `scheme://authority`, followed by nothing or by a path, a query or a
fragment. The authority is user information up to its last `@`, a host and a port. -/

/-- None of these characters is in the text. -/
def Avoids (text chars : List Char) : Prop := ∀ c ∈ text, c ∉ chars

instance (text chars : List Char) : Decidable (Avoids text chars) := List.decidableBAll _ _

/-- The parts a URL's text is made of; the delimiters are where the next part begins. -/
structure Url where
  scheme : List Char
  authority : List Char
  tail : List Char
  named : scheme ≠ []
  scheme_closed : Avoids scheme [':', '/', '?', '#']
  authority_closed : Avoids authority ['/', '?', '#']
  tail_opens : ∀ c ∈ tail.head?, c ∈ ['/', '?', '#']

namespace Url

def separator : List Char := [':', '/', '/']

def text (url : Url) : List Char := url.scheme ++ (separator ++ (url.authority ++ url.tail))

/-- Text up to a delimiter and from it on can only be cut in one way. -/
private theorem cut_unique {inside : Char → Prop} {first last rest rest' : List Char} (closed : ∀ c ∈ first, inside c)
    (closed' : ∀ c ∈ last, inside c) (opens : ∀ c ∈ rest.head?, ¬inside c) (opens' : ∀ c ∈ rest'.head?, ¬inside c)
    (same : first ++ rest = last ++ rest') : first = last ∧ rest = rest' := by
  induction first generalizing last with
  | nil =>
    cases last with
    | nil => exact ⟨rfl, same⟩
    | cons c last =>
      subst same
      exact absurd (closed' c List.mem_cons_self) (opens c rfl)
  | cons c first ih =>
    cases last with
    | nil =>
      subst same
      exact absurd (closed c List.mem_cons_self) (opens' c rfl)
    | cons c' last =>
      obtain ⟨rfl, equal⟩ := List.cons.inj same
      obtain ⟨rfl, tails⟩ := ih (fun c member => closed c (List.mem_cons_of_mem _ member))
        (fun c member => closed' c (List.mem_cons_of_mem _ member)) equal
      exact ⟨rfl, tails⟩

/-- The text determines the parts. -/
theorem text_injective {url other : Url} (same : url.text = other.text) : url = other := by
  have opens : ∀ rest : List Char, ∀ c ∈ (separator ++ rest).head?, ¬c ∉ [':', '/', '?', '#'] := by
    intro rest c first
    cases first
    decide
  obtain ⟨schemes, rests⟩ := cut_unique url.scheme_closed other.scheme_closed (opens _) (opens _) same
  obtain ⟨authorities, tails⟩ := cut_unique url.authority_closed other.authority_closed
    (fun c first => not_not.mpr (url.tail_opens c first)) (fun c first => not_not.mpr (other.tail_opens c first))
    (List.append_cancel_left rests)
  cases url
  cases other
  cases schemes
  cases authorities
  cases tails
  rfl

section Authority
variable (url : Url)

/-- Everything up to the last `@`. -/
def userinfo : List Char := url.authority.rdropWhile (· ≠ '@')

def hostinfo : List Char := url.authority.rtakeWhile (· ≠ '@')

/-- An address in brackets may hold colons of its own. -/
def bracketed : List Char :=
  match url.hostinfo with
  | '[' :: _ => url.hostinfo.takeWhile (· ≠ ']')
  | _ => []

def unbracketed : List Char := url.hostinfo.drop url.bracketed.length

def host : List Char := url.bracketed ++ url.unbracketed.takeWhile (· ≠ ':')

/-- The port, with the colon in front of it. -/
def port : List Char := url.unbracketed.dropWhile (· ≠ ':')

theorem bracketed_prefix : url.bracketed <+: url.hostinfo := by
  unfold bracketed
  split
  · exact List.takeWhile_prefix _
  · exact List.nil_prefix

theorem hostinfo_eq : url.hostinfo = url.host ++ url.port := by
  rw [host, port, List.append_assoc, List.takeWhile_append_dropWhile]
  exact List.prefix_append_drop url.bracketed_prefix

theorem authority_eq : url.authority = url.userinfo ++ (url.host ++ url.port) := by
  rw [← hostinfo_eq]
  exact (List.rdropWhile_append_rtakeWhile ..).symm

/-- User information ends with its `@`. -/
theorem userinfo_ends : ∀ c ∈ url.userinfo.getLast?, c = '@' := by
  intro c last
  obtain ⟨reached, rfl⟩ := List.mem_getLast?_eq_getLast last
  have stopped := List.rdropWhile_last_not (· ≠ '@') url.authority reached
  exact Decidable.not_not.mp (fun other => stopped (decide_eq_true other))

theorem port_opens : ∀ c ∈ url.port.head?, c = ':' := by
  intro c first
  have stopped := List.head?_dropWhile_not (· ≠ ':') url.unbracketed
  rw [port] at first
  rw [Option.mem_def.mp first] at stopped
  simpa using stopped

end Authority

open Casing

def delimiters : List Char := [':', '/', '?', '#', '@']

section Words
variable {word : List Char}

private theorem toLower_notMem (letters : Avoids word delimiters) {c : Char} (delimiter : c ∈ delimiters) : c.toLower ∉ word := by
  have same : ∀ c ∈ delimiters, c.toLower = c := by simp [delimiters]
  rw [same c delimiter]
  exact fun member => letters c member delimiter

/-- A word without delimiters is spelled in one of the parts, never across two. -/
theorem says_text_iff (letters : Avoids word delimiters) (filled : word ≠ []) (url : Url) :
    Says word url.text ↔
      Says word url.scheme ∨ Says word url.userinfo ∨ Says word url.host ∨ Says word url.port ∨ Says word url.tail := by
  have silent : ¬Says word separator := by
    intro spelled
    obtain ⟨c, word, rfl⟩ := List.exists_cons_of_ne_nil filled
    have member : c ∈ separator.map Char.toLower := spelled.subset List.mem_cons_self
    have delimits : ∀ c ∈ separator.map Char.toLower, c ∈ delimiters := by simp [separator, delimiters]
    exact letters c List.mem_cons_self (delimits c member)
  have afterScheme : Says word url.text ↔ Says word url.scheme ∨ Says word (separator ++ (url.authority ++ url.tail)) := by
    refine says_append (Or.inr ?_)
    intro c first
    cases first
    exact toLower_notMem letters (by decide)
  have afterSeparator : Says word (separator ++ (url.authority ++ url.tail)) ↔ Says word (url.authority ++ url.tail) := by
    refine (says_append (Or.inl ?_)).trans (or_iff_right silent)
    intro c last
    cases last
    exact toLower_notMem letters (by decide)
  have afterAuthority : Says word (url.authority ++ url.tail) ↔ Says word url.authority ∨ Says word url.tail := by
    refine says_append (Or.inr ?_)
    intro c first
    have opens : ∀ c ∈ ['/', '?', '#'], c ∈ delimiters := by simp [delimiters]
    exact toLower_notMem letters (opens c (url.tail_opens c first))
  have afterUserinfo : Says word url.authority ↔ Says word url.userinfo ∨ Says word (url.host ++ url.port) := by
    rw [authority_eq]
    refine says_append (Or.inl ?_)
    intro c last
    rw [url.userinfo_ends c last]
    exact toLower_notMem letters (by decide)
  have afterHost : Says word (url.host ++ url.port) ↔ Says word url.host ∨ Says word url.port := by
    refine says_append (Or.inr ?_)
    intro c first
    rw [url.port_opens c first]
    exact toLower_notMem letters (by decide)
  rw [afterScheme, afterSeparator, afterAuthority, afterUserinfo, afterHost, or_assoc, or_assoc]

end Words
end Url
