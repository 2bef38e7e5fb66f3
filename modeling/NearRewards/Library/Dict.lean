import Mathlib.Data.List.Induction
import Mathlib.Data.List.Perm.Basic
import Mathlib.Data.List.Sort

/-! Dictionaries that remember the order their keys came in. Assigning to a key that is
there leaves it in its place. -/

@[ext]
structure Dict (κ : Type*) (ν : Type*) where
  entries : List (κ × ν)
  nodup : (entries.map Prod.fst).Nodup

namespace Dict
variable {κ ν : Type*}

def empty : Dict κ ν := ⟨[], List.nodup_nil⟩

instance : EmptyCollection (Dict κ ν) := ⟨empty⟩

def size (dict : Dict κ ν) : ℕ := dict.entries.length

def keys (dict : Dict κ ν) : List κ := dict.entries.map Prod.fst

def filter (dict : Dict κ ν) (keep : κ × ν → Bool) : Dict κ ν :=
  ⟨dict.entries.filter keep, dict.nodup.sublist (List.filter_sublist.map Prod.fst)⟩

variable [DecidableEq κ] (dict : Dict κ ν)

def get? (key : κ) : Option ν := dict.entries.lookup key

private def assign (key : κ) (value : ν) (entry : κ × ν) : κ × ν := if entry.1 = key then (key, value) else entry

private theorem assign_key (key : κ) (value : ν) (entry : κ × ν) : (assign key value entry).1 = entry.1 := by
  unfold assign
  split
  next same => exact same.symm
  next => rfl

def insert (key : κ) (value : ν) : Dict κ ν :=
  if member : key ∈ dict.keys then
    { entries := dict.entries.map (assign key value)
      nodup := by
        rw [List.map_map]
        exact (List.map_congr_left fun entry _ => assign_key key value entry).symm ▸ dict.nodup }
  else
    { entries := dict.entries ++ [(key, value)]
      nodup := by
        rw [List.map_append, List.nodup_append]
        refine ⟨dict.nodup, List.nodup_singleton _, ?_⟩
        intro first present last same equal
        have found : first = key := equal.trans (List.mem_singleton.mp same)
        exact member (found ▸ present) }

def erase (key : κ) : Dict κ ν := dict.filter fun entry => entry.1 ≠ key

/-- A dictionary comprehension: a key met again keeps its place and takes the later value. -/
def ofList (entries : List (κ × ν)) : Dict κ ν := entries.foldl (fun dict entry => dict.insert entry.1 entry.2) ∅

section Lemmas
variable {dict}

theorem get?_eq_some {key : κ} {value : ν} : dict.get? key = some value ↔ (key, value) ∈ dict.entries := by
  constructor
  · intro found
    obtain ⟨first, last, split, _⟩ := List.lookup_eq_some_iff.mp found
    rw [split]
    exact List.mem_append_right _ List.mem_cons_self
  · intro member
    obtain ⟨first, last, split⟩ := List.append_of_mem member
    refine List.lookup_eq_some_iff.mpr ⟨first, last, split, fun entry present => ?_⟩
    have distinct := dict.nodup
    rw [split, List.map_append, List.map_cons, List.nodup_append] at distinct
    exact bne_iff_ne.mpr fun same => distinct.2.2 _ (List.mem_map_of_mem present) _ List.mem_cons_self same.symm

theorem mem_keys {key : κ} : key ∈ dict.keys ↔ ∃ value, dict.get? key = some value := by
  unfold keys
  rw [List.mem_map]
  constructor
  · rintro ⟨⟨_, value⟩, member, rfl⟩
    exact ⟨value, get?_eq_some.mpr member⟩
  · rintro ⟨value, found⟩
    exact ⟨_, get?_eq_some.mp found, rfl⟩

theorem get?_filter {keep : κ × ν → Bool} {key : κ} {value : ν} :
    (dict.filter keep).get? key = some value ↔ dict.get? key = some value ∧ keep (key, value) = true := by
  rw [get?_eq_some, get?_eq_some]
  exact List.mem_filter

theorem get?_insert (key other : κ) (value : ν) :
    (dict.insert key value).get? other = if other = key then some value else dict.get? other := by
  ext held
  rw [get?_eq_some]
  unfold insert
  split
  next member =>
    rw [List.mem_map]
    by_cases same : other = key
    · subst same
      rw [if_pos rfl]
      constructor
      · rintro ⟨entry, _, equal⟩
        unfold assign at equal
        split at equal
        next => rw [(Prod.mk.injEq _ _ _ _).mp equal |>.2]
        next different => exact absurd (congrArg Prod.fst equal) different
      · intro equal
        obtain ⟨old, found⟩ := mem_keys.mp member
        exact ⟨_, get?_eq_some.mp found, by simp [assign, Option.some.inj equal]⟩
    · rw [if_neg same, get?_eq_some]
      constructor
      · rintro ⟨entry, present, equal⟩
        unfold assign at equal
        split at equal
        next => exact absurd (congrArg Prod.fst equal).symm same
        next => exact equal ▸ present
      · exact fun present => ⟨_, present, if_neg same⟩
  next absent =>
    rw [List.mem_append, List.mem_singleton, Prod.mk.injEq]
    by_cases same : other = key
    · subst same
      rw [if_pos rfl]
      constructor
      · rintro (present | ⟨_, equal⟩)
        · exact absurd (List.mem_map_of_mem present) absent
        · rw [equal]
      · exact fun equal => Or.inr ⟨rfl, (Option.some.inj equal).symm⟩
    · rw [if_neg same, get?_eq_some]
      exact or_iff_left fun equal => same equal.1

theorem get?_erase (key other : κ) : (dict.erase key).get? other = if other = key then none else dict.get? other := by
  ext held
  rw [erase, get?_filter, decide_eq_true_eq]
  split
  next same => simp [same]
  next different => simp [different]

omit [DecidableEq κ] in
/-- A filter first applied more widely changes nothing. -/
theorem filter_filter_of_imp {narrow wide : κ × ν → Bool} (wider : ∀ entry, narrow entry = true → wide entry = true) :
    (dict.filter wide).filter narrow = dict.filter narrow := by
  ext1
  refine List.filter_filter.trans (List.filter_congr fun entry _ => ?_)
  cases chosen : narrow entry with
  | false => rfl
  | true => exact wider entry chosen

theorem filter_erase (keep : κ × ν → Bool) (key : κ) : (dict.erase key).filter keep = (dict.filter keep).erase key := by
  ext1
  exact List.filter_comm _ _ _

omit [DecidableEq κ] in
theorem size_filter_le (keep : κ × ν → Bool) : (dict.filter keep).size ≤ dict.size := List.length_filter_le _ _

/-- A comprehension holds the last value of each key. -/
theorem get?_ofList (entries : List (κ × ν)) (key : κ) : (ofList entries).get? key = entries.reverse.lookup key := by
  induction entries using List.reverseRecOn with
  | nil => rfl
  | append_singleton entries entry ih =>
    unfold ofList at ih ⊢
    rw [List.foldl_append, List.foldl_cons, List.foldl_nil, get?_insert, ih, List.reverse_concat, List.lookup_cons]
    by_cases same : key = entry.1
    · simp [same]
    · rw [if_neg same, beq_false_of_ne same]

theorem mem_of_ofList {entries : List (κ × ν)} {key : κ} {value : ν} (found : (ofList entries).get? key = some value) :
    (key, value) ∈ entries := by
  rw [get?_ofList, List.lookup_eq_some_iff] at found
  obtain ⟨before, after, split, _⟩ := found
  rw [← List.mem_reverse, split]
  exact List.mem_append_right _ List.mem_cons_self

theorem size_ne_zero {key : κ} {value : ν} (found : dict.get? key = some value) : dict.size ≠ 0 :=
  List.length_pos_of_mem (get?_eq_some.mp found) |>.ne'

theorem size_insert_le (key : κ) (value : ν) : (dict.insert key value).size ≤ dict.size + 1 := by
  unfold insert size
  split <;> simp

/-- Erasing key after key keeps the entries of all other keys. -/
theorem entries_foldl_erase (gone : List (κ × ν)) :
    (gone.foldl (fun dict entry => dict.erase entry.1) dict).entries =
      dict.entries.filter fun entry => entry.1 ∉ gone.map Prod.fst := by
  induction gone generalizing dict with
  | nil => simp
  | cons first rest ih =>
    rw [List.foldl_cons, ih, erase, filter, List.filter_filter]
    congr 1
    funext entry
    by_cases same : entry.1 = first.1 <;> simp [same]

end Lemmas
end Dict
