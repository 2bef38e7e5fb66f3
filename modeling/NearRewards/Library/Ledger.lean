import Mathlib.Algebra.Order.BigOperators.Group.Finset
import Mathlib.Algebra.Order.Ring.Int
import Mathlib.Data.Finmap

/-! Finite maps read as ledgers: every key has a balance, zero where the map holds
nothing, and the total of the ledger is a sum over its keys. -/

abbrev Ledger (κ : Type*) (ν : Type*) := Finmap fun _ : κ => ν

namespace Ledger
variable {κ : Type*} [DecidableEq κ] {ν : Type*} (weight : ν → ℤ)

def balance (ledger : Ledger κ ν) (key : κ) : ℤ := ((ledger.lookup key).map weight).getD 0

def total (ledger : Ledger κ ν) : ℤ := ∑ key ∈ ledger.keys, balance weight ledger key

theorem mem_keys_iff {ledger : Ledger κ ν} {key : κ} : key ∈ ledger.keys ↔ ∃ value, ledger.lookup key = some value := by
  rw [Finmap.mem_keys, Finmap.mem_iff]

theorem lookup_none {ledger : Ledger κ ν} {key : κ} (absent : key ∉ ledger.keys) : ledger.lookup key = none :=
  Finmap.lookup_eq_none.mpr (fun member => absent (Finmap.mem_keys.mpr member))

theorem keys_insert (ledger : Ledger κ ν) (key : κ) (value : ν) :
    (ledger.insert key value).keys = insert key ledger.keys := by
  ext other
  simp only [Finmap.mem_keys, Finmap.mem_insert, Finset.mem_insert]

/-- Overwriting a key reads back the new value there and the old map elsewhere. -/
theorem lookup_insert (ledger : Ledger κ ν) (key other : κ) (value : ν) :
    (ledger.insert key value).lookup other = if other = key then some value else ledger.lookup other := by
  split
  next same => rw [same, Finmap.lookup_insert]
  next different => exact Finmap.lookup_insert_of_ne _ different

theorem insert_self {ledger : Ledger κ ν} {key : κ} {value : ν} (found : ledger.lookup key = some value) :
    ledger.insert key value = ledger := by
  apply Finmap.ext_lookup
  intro other
  rw [lookup_insert]
  split
  next same => rw [same, found]
  next => rfl

@[simp] theorem balance_id (ledger : Ledger κ ℤ) (key : κ) : balance id ledger key = (ledger.lookup key).getD 0 := by
  simp [balance]

theorem balance_of_lookup {ledger : Ledger κ ν} {key : κ} {value : ν} (found : ledger.lookup key = some value) :
    balance weight ledger key = weight value := by
  simp [balance, found]

theorem balance_of_lookup_none {ledger : Ledger κ ν} {key : κ} (missing : ledger.lookup key = none) :
    balance weight ledger key = 0 := by
  simp [balance, missing]

theorem balance_of_notMem {ledger : Ledger κ ν} {key : κ} (absent : key ∉ ledger.keys) :
    balance weight ledger key = 0 :=
  balance_of_lookup_none weight (lookup_none absent)

theorem balance_insert (ledger : Ledger κ ν) (key other : κ) (value : ν) :
    balance weight (ledger.insert key value) other = if other = key then weight value else balance weight ledger other := by
  unfold balance
  rw [lookup_insert]
  split <;> rfl

/-- Keys outside the ledger weigh nothing, so any larger set of keys gives the same total. -/
theorem total_eq_sum {ledger : Ledger κ ν} {keys : Finset κ} (covers : ledger.keys ⊆ keys) :
    total weight ledger = ∑ key ∈ keys, balance weight ledger key :=
  Finset.sum_subset covers (fun _ _ absent => balance_of_notMem weight absent)

/-- One entry moves the total by the difference between the new and the old balance. -/
theorem total_insert (ledger : Ledger κ ν) (key : κ) (value : ν) :
    total weight (ledger.insert key value) = total weight ledger - balance weight ledger key + weight value := by
  have member : key ∈ insert key ledger.keys := Finset.mem_insert_self _ _
  have before := total_eq_sum weight (Finset.subset_insert key ledger.keys)
  have after : total weight (ledger.insert key value) =
      ∑ other ∈ insert key ledger.keys, balance weight (ledger.insert key value) other := by
    rw [total, keys_insert]
  have rest : ∑ other ∈ (insert key ledger.keys).erase key, balance weight (ledger.insert key value) other =
      ∑ other ∈ (insert key ledger.keys).erase key, balance weight ledger other := by
    apply Finset.sum_congr rfl
    intro other present
    rw [balance_insert, if_neg (Finset.ne_of_mem_erase present)]
  rw [before, after, ← Finset.add_sum_erase _ _ member, ← Finset.add_sum_erase _ _ member, rest,
    balance_insert, if_pos rfl]
  omega

theorem balance_pos {ledger : Ledger κ ν} (positive : ∀ key value, ledger.lookup key = some value → 0 < weight value)
    {key : κ} (member : key ∈ ledger.keys) : 0 < balance weight ledger key := by
  obtain ⟨value, found⟩ := mem_keys_iff.mp member
  rw [balance_of_lookup weight found]
  exact positive key value found

theorem balance_nonneg {ledger : Ledger κ ν} (positive : ∀ key value, ledger.lookup key = some value → 0 < weight value)
    (key : κ) : 0 ≤ balance weight ledger key := by
  by_cases member : key ∈ ledger.keys
  · exact (balance_pos weight positive member).le
  · exact (balance_of_notMem weight member).ge

/-- With positive entries only, a key is in the ledger exactly when its balance is not zero. -/
theorem mem_keys_iff_balance {ledger : Ledger κ ν}
    (positive : ∀ key value, ledger.lookup key = some value → 0 < weight value) {key : κ} :
    key ∈ ledger.keys ↔ balance weight ledger key ≠ 0 :=
  ⟨fun member => (balance_pos weight positive member).ne', fun held => by
    by_contra absent
    exact held (balance_of_notMem weight absent)⟩

/-- A ledger with positive entries only is determined by its balances. -/
theorem eq_of_balance (distinct : weight.Injective) {ledger other : Ledger κ ν}
    (positive : ∀ key value, ledger.lookup key = some value → 0 < weight value)
    (positiveToo : ∀ key value, other.lookup key = some value → 0 < weight value)
    (same : ∀ key, balance weight ledger key = balance weight other key) : ledger = other := by
  apply Finmap.ext_lookup
  intro key
  have equal := same key
  cases found : ledger.lookup key with
  | none =>
    rw [balance_of_lookup_none weight found] at equal
    cases held : other.lookup key with
    | none => rfl
    | some value =>
      rw [balance_of_lookup weight held] at equal
      exact absurd equal (positiveToo key value held).ne
  | some value =>
    rw [balance_of_lookup weight found] at equal
    have more := positive key value found
    cases held : other.lookup key with
    | none =>
      rw [balance_of_lookup_none weight held] at equal
      exact absurd equal more.ne'
    | some stored =>
      rw [balance_of_lookup weight held] at equal
      rw [distinct equal]

theorem balance_le_total {ledger : Ledger κ ν} (positive : ∀ key value, ledger.lookup key = some value → 0 < weight value)
    (key : κ) : balance weight ledger key ≤ total weight ledger := by
  by_cases member : key ∈ ledger.keys
  · exact Finset.single_le_sum (fun other _ => balance_nonneg weight positive other) member
  · rw [balance_of_notMem weight member]
    exact Finset.sum_nonneg (fun other _ => balance_nonneg weight positive other)

end Ledger

namespace Ledger
variable {κ : Type*} {ν : Type*} {κ' : Type*} {ν' : Type*}

/-- Rename the keys, one to one, and translate the values. -/
def relabel (rename : κ → κ') (distinct : rename.Injective) (translate : ν → ν') (ledger : Ledger κ ν) : Ledger κ' ν' where
  entries := ledger.entries.map (fun entry => ⟨rename entry.1, translate entry.2⟩)
  nodupKeys := by
    rw [← Multiset.nodup_keys, Multiset.keys, Multiset.map_map]
    have keys : (ledger.entries.map Sigma.fst).map rename = ledger.entries.map (fun entry => rename entry.1) := by
      rw [Multiset.map_map]
      rfl
    exact keys ▸ (Multiset.nodup_keys.mpr ledger.nodupKeys).map distinct

section Relabel
variable {rename : κ → κ'} (distinct : rename.Injective) (translate : ν → ν')

variable [DecidableEq κ']

theorem lookup_relabel_none {ledger : Ledger κ ν} {name : κ'} (foreign : ∀ key, rename key ≠ name) :
    (relabel rename distinct translate ledger).lookup name = none := by
  rw [Finmap.lookup_eq_none, Finmap.mem_def]
  intro member
  simp only [relabel, Multiset.keys, Multiset.map_map, Multiset.mem_map] at member
  obtain ⟨entry, _, same⟩ := member
  exact foreign entry.1 same

variable [DecidableEq κ]

theorem lookup_relabel (ledger : Ledger κ ν) (key : κ) :
    (relabel rename distinct translate ledger).lookup (rename key) = (ledger.lookup key).map translate := by
  induction ledger using Finmap.induction_on with
  | H ledger => exact @List.dlookup_map _ _ _ (fun _ => ν') _ _ ledger.entries _ distinct (fun _ => translate) key

theorem relabel_insert (ledger : Ledger κ ν) (key : κ) (value : ν) :
    relabel rename distinct translate (ledger.insert key value) =
      (relabel rename distinct translate ledger).insert (rename key) (translate value) := by
  apply Finmap.ext_lookup
  intro name
  rw [lookup_insert]
  by_cases known : ∃ other, rename other = name
  · obtain ⟨other, rfl⟩ := known
    simp only [lookup_relabel, lookup_insert, distinct.eq_iff]
    split <;> rfl
  · have foreign : ∀ other, rename other ≠ name := fun other same => known ⟨other, same⟩
    rw [lookup_relabel_none distinct translate foreign, lookup_relabel_none distinct translate foreign,
      if_neg (fun same => foreign key same.symm)]

end Relabel

end Ledger
