import NearRewards.Library.Borsh
import NearRewards.Library.Ledger

/-! One key-value storage shared by several collections, which the first byte of a key tells
apart. What a program writes there is an overlay; overlays of different keys commute. -/

abbrev Storage := Bytes → Option Bytes

namespace Storage

def set (storage : Storage) (key value : Bytes) : Storage := fun other => if other = key then some value else storage other

@[simp] theorem set_same (storage : Storage) (key value : Bytes) : storage.set key value key = some value := if_pos rfl

theorem set_other {storage : Storage} {key other value : Bytes} (different : other ≠ key) :
    storage.set key value other = storage other :=
  if_neg different

/-- Writing the value that is there already. -/
theorem set_held {storage : Storage} {key value : Bytes} (held : storage key = some value) : storage.set key value = storage := by
  funext other
  by_cases same : other = key
  · rw [same, set_same, held]
  · exact set_other same

/-- The keys that start with a byte. -/
def Tagged (tag : UInt8) (key : Bytes) : Prop := key.head? = some tag

instance (tag : UInt8) (key : Bytes) : Decidable (Tagged tag key) := inferInstanceAs (Decidable (_ = _))

def Agree (tag : UInt8) (first last : Storage) : Prop := ∀ key, Tagged tag key → first key = last key

theorem Agree.symm {tag : UInt8} {first last : Storage} (agree : Agree tag first last) : Agree tag last first :=
  fun key tagged => (agree key tagged).symm

/-- One storage is the other with some keys written, each to one value or removed. -/
structure Overlaid (written : Bytes → Option Bytes → Prop) (before after : Storage) : Prop where
  inside : ∀ key value, written key value → after key = value
  outside : ∀ key, (∀ value, ¬written key value) → after key = before key

section Overlays
variable {written other : Bytes → Option Bytes → Prop} {storage first last both after : Storage}

/-- The storage already holds what is to be written. -/
theorem Overlaid.refl (held : ∀ key value, written key value → storage key = value) : Overlaid written storage storage :=
  ⟨held, fun _ _ => rfl⟩

/-- Another write, to a key of the overlay or to a new one. -/
theorem Overlaid.set {key value : Bytes} (overlaid : Overlaid written storage after) (now : other key (some value))
    (single : ∀ new, other key new → new = some value)
    (same : ∀ kept, kept ≠ key → ∀ old, other kept old ↔ written kept old) :
    Overlaid other storage (after.set key value) := by
  refine ⟨?_, ?_⟩
  · intro kept old writes
    by_cases equal : kept = key
    · subst equal
      rw [set_same, single old writes]
    · rw [set_other equal]
      exact overlaid.inside kept old ((same kept equal old).mp writes)
  · intro kept untouched
    have different : kept ≠ key := by
      rintro rfl
      exact untouched _ now
    rw [set_other different]
    exact overlaid.outside kept (fun old writes => untouched old ((same kept different old).mpr writes))

/-- Overlays that share no key can be laid in either order. -/
theorem Overlaid.commute (disjoint : ∀ key old new, written key old → ¬other key new)
    (start : Overlaid written storage first) (then_ : Overlaid other first both)
    (start' : Overlaid other storage last) (then_' : Overlaid written last after) : both = after := by
  funext key
  by_cases one : ∃ value, written key value
  · obtain ⟨value, writes⟩ := one
    rw [then_.outside key (fun new => disjoint key value new writes), start.inside key value writes,
      then_'.inside key value writes]
  · have untouched : ∀ value, ¬written key value := fun value writes => one ⟨value, writes⟩
    rw [then_'.outside key untouched]
    by_cases two : ∃ value, other key value
    · obtain ⟨value, writes⟩ := two
      rw [then_.inside key value writes, start'.inside key value writes]
    · have spared : ∀ value, ¬other key value := fun value writes => two ⟨value, writes⟩
      rw [then_.outside key spared, start.outside key untouched, start'.outside key spared]

end Overlays
end Storage

/-- A map kept in the storage under a prefix. The handle is what its owner stores of it. -/
structure UnorderedMap (K : Type) where
  Handle : Type
  [borsh : Borsh Handle]
  new : Bytes → Handle
  get : Handle → Storage → K → Option Bytes
  insert : Handle → Storage → K → Bytes → Storage × Handle

attribute [instance] UnorderedMap.borsh

namespace UnorderedMap
variable {K : Type} [DecidableEq K]

/-- What is relied on of such a map: opened under a one-byte prefix it behaves as a finite
map, it touches only the keys that start with that byte, and the value of a key it already
has is replaced in place. Its length is a 64-bit number. -/
structure Lawful (map : UnorderedMap K) (tag : UInt8) (Holds : map.Handle → Storage → Ledger K Bytes → Prop)
    (cell : map.Handle → Storage → K → Bytes) : Prop where
  new : ∀ {storage}, (∀ key, Storage.Tagged tag key → storage key = none) → Holds (map.new [tag]) storage ∅
  get : ∀ {handle storage entries}, Holds handle storage entries → ∀ key, map.get handle storage key = entries.lookup key
  insert : ∀ {handle storage entries}, Holds handle storage entries → ∀ key value,
    (entries.insert key value).keys.card < 2 ^ 64 →
    Holds (map.insert handle storage key value).2 (map.insert handle storage key value).1 (entries.insert key value)
  fits : ∀ {handle storage entries}, Holds handle storage entries → entries.keys.card < 2 ^ 64 → Borsh.Fits handle
  reads : ∀ {handle storage storage' entries}, Storage.Agree tag storage storage' →
    Holds handle storage entries → Holds handle storage' entries
  writes : ∀ {handle storage entries}, Holds handle storage entries → ∀ key value other, ¬Storage.Tagged tag other →
    (map.insert handle storage key value).1 other = storage other
  overwrite : ∀ {handle storage entries}, Holds handle storage entries → ∀ key ∈ entries, ∀ value,
    map.insert handle storage key value = (storage.set (cell handle storage key) value, handle)
  cell_tagged : ∀ {handle storage entries}, Holds handle storage entries → ∀ key ∈ entries,
    Storage.Tagged tag (cell handle storage key)
  cell_distinct : ∀ {handle storage entries}, Holds handle storage entries → ∀ key ∈ entries, ∀ other ∈ entries,
    cell handle storage key = cell handle storage other → key = other
  cell_reads : ∀ {handle storage storage' entries}, Storage.Agree tag storage storage' → Holds handle storage entries →
    ∀ key ∈ entries, cell handle storage' key = cell handle storage key
  cell_kept : ∀ {handle storage entries}, Holds handle storage entries → ∀ key ∈ entries, ∀ other ∈ entries, ∀ value,
    cell handle (storage.set (cell handle storage key) value) other = cell handle storage other

end UnorderedMap
