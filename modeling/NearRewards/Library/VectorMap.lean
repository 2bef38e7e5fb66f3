import NearRewards.Library.Storage

/-! A map that keeps its keys and its values in two vectors, and for every key its position
in them. Each of the three has a prefix of its own under the map's. -/

namespace VectorMap

/-- A vector is its length and the prefix its elements are stored under. -/
structure Elements where
  length : BitVec 64
  keyPrefix : Bytes

structure Handle where
  indexPrefix : Bytes
  keys : Elements
  values : Elements

instance : Borsh Handle :=
  Borsh.record
    (fun handle => (handle.indexPrefix, handle.keys.length, handle.keys.keyPrefix, handle.values.length, handle.values.keyPrefix))
    (fun (indexPrefix, keysLength, keysPrefix, valuesLength, valuesPrefix) =>
      { indexPrefix, keys := ⟨keysLength, keysPrefix⟩, values := ⟨valuesLength, valuesPrefix⟩ })
    (fun _ => rfl)

variable {K : Type} [Borsh K]

def new (keyPrefix : Bytes) : Handle :=
  { indexPrefix := keyPrefix ++ [0x69], keys := ⟨0, keyPrefix ++ [0x6b]⟩, values := ⟨0, keyPrefix ++ [0x76]⟩ }

def get (handle : Handle) (storage : Storage) (key : K) : Option Bytes :=
  match storage (handle.indexPrefix ++ Borsh.encode key) with
  | none => none
  | some position => storage (handle.values.keyPrefix ++ position)

/-- A key the map has keeps its position; a new one is pushed to the end. -/
def insert (handle : Handle) (storage : Storage) (key : K) (value : Bytes) : Storage × Handle :=
  match storage (handle.indexPrefix ++ Borsh.encode key) with
  | some position => (storage.set (handle.values.keyPrefix ++ position) value, handle)
  | none =>
    let position := Borsh.encode handle.keys.length
    (((storage.set (handle.indexPrefix ++ Borsh.encode key) position).set (handle.keys.keyPrefix ++ position)
        (Borsh.encode key)).set (handle.values.keyPrefix ++ position) value,
      { handle with
        keys := { handle.keys with length := handle.keys.length + 1 }
        values := { handle.values with length := handle.values.length + 1 } })

/-- Where the value of a key is stored. -/
def cell (handle : Handle) (storage : Storage) (key : K) : Bytes :=
  handle.values.keyPrefix ++ (storage (handle.indexPrefix ++ Borsh.encode key)).getD []

variable (K) in
@[reducible] def map : UnorderedMap K where
  Handle := Handle
  new := new
  get := get
  insert := insert

/-- The handle under a one-byte prefix, for a map of this many keys. -/
def opened (tag : UInt8) (length : BitVec 64) : Handle :=
  { indexPrefix := [tag, 0x69], keys := ⟨length, [tag, 0x6b]⟩, values := ⟨length, [tag, 0x76]⟩ }

/-- The storage holds the map: every key's position, and its value there. -/
structure Positions [DecidableEq K] (tag : UInt8) (storage : Storage) (entries : Ledger K Bytes) (position : K → BitVec 64) : Prop where
  bound : ∀ key ∈ entries, (position key).toNat < entries.keys.card
  distinct : ∀ key ∈ entries, ∀ other ∈ entries, position key = position other → key = other
  index : ∀ key ∈ entries, storage ([tag, 0x69] ++ Borsh.encode key) = some (Borsh.encode (position key))
  absent : ∀ key, key ∉ entries → storage ([tag, 0x69] ++ Borsh.encode key) = none
  value : ∀ key ∈ entries, storage ([tag, 0x76] ++ Borsh.encode (position key)) = entries.lookup key

def Holds [DecidableEq K] (tag : UInt8) (handle : Handle) (storage : Storage) (entries : Ledger K Bytes) : Prop :=
  handle = opened tag (BitVec.ofNat 64 entries.keys.card) ∧ ∃ position, Positions tag storage entries position

section Laws
variable [DecidableEq K] {tag : UInt8} {storage storage' : Storage} {entries : Ledger K Bytes} {position : K → BitVec 64} {key : K}
  {length : BitVec 64} {value : Bytes}

theorem get_eq (positions : Positions tag storage entries position) (key : K) :
    get (opened tag length) storage key = entries.lookup key := by
  change (match storage ([tag, 0x69] ++ Borsh.encode key) with
    | none => none
    | some position => storage ([tag, 0x76] ++ position)) = _
  by_cases member : key ∈ entries
  · rw [positions.index key member]
    exact positions.value key member
  · rw [positions.absent key member]
    exact (Finmap.lookup_eq_none.mpr member).symm

theorem insert_present (positions : Positions tag storage entries position) (member : key ∈ entries) :
    insert (opened tag length) storage key value =
      (storage.set ([tag, 0x76] ++ Borsh.encode (position key)) value, opened tag length) := by
  change (match storage ([tag, 0x69] ++ Borsh.encode key) with
    | some position => _
    | none => _) = _
  rw [positions.index key member]
  rfl

theorem insert_absent (positions : Positions tag storage entries position) (new_ : key ∉ entries) :
    insert (opened tag length) storage key value =
      (((storage.set ([tag, 0x69] ++ Borsh.encode key) (Borsh.encode length)).set ([tag, 0x6b] ++ Borsh.encode length)
        (Borsh.encode key)).set ([tag, 0x76] ++ Borsh.encode length) value, opened tag (length + 1)) := by
  change (match storage ([tag, 0x69] ++ Borsh.encode key) with
    | some position => _
    | none => _) = _
  rw [positions.absent key new_]
  rfl

theorem cell_eq (positions : Positions tag storage entries position) (member : key ∈ entries) :
    cell (opened tag length) storage key = [tag, 0x76] ++ Borsh.encode (position key) := by
  change [tag, 0x76] ++ (storage ([tag, 0x69] ++ Borsh.encode key)).getD [] = _
  rw [positions.index key member]
  rfl

theorem encode_inj {position other : BitVec 64} (same : Borsh.encode position = Borsh.encode other) : position = other :=
  Borsh.encode_injective trivial trivial same

theorem apart {x y : UInt8} (different : x ≠ y) (rest rest' : Bytes) : [tag, x] ++ rest ≠ [tag, y] ++ rest' := by
  simp [different]

/-- Overwriting changes one value and no position. -/
theorem Positions.overwrite (positions : Positions tag storage entries position) (member : key ∈ entries) :
    Positions tag (storage.set ([tag, 0x76] ++ Borsh.encode (position key)) value) (entries.insert key value) position := by
  have keys : (entries.insert key value).keys = entries.keys := by
    rw [Ledger.keys_insert, Finset.insert_eq_of_mem (Finmap.mem_keys.mpr member)]
  have same : ∀ other, other ∈ entries.insert key value ↔ other ∈ entries := by
    intro other
    rw [← Finmap.mem_keys, keys, Finmap.mem_keys]
  refine ⟨?_, ?_, ?_, ?_, ?_⟩
  · intro other present
    rw [keys]
    exact positions.bound other ((same other).mp present)
  · intro first present second present'
    exact positions.distinct first ((same first).mp present) second ((same second).mp present')
  · intro other present
    rw [Storage.set_other (apart (by decide) _ _)]
    exact positions.index other ((same other).mp present)
  · intro other missing
    rw [Storage.set_other (apart (by decide) _ _)]
    exact positions.absent other (fun present => missing ((same other).mpr present))
  · intro other present
    have kept := (same other).mp present
    by_cases equal : other = key
    · rw [equal, Storage.set_same, Finmap.lookup_insert]
    · rw [Storage.set_other, Finmap.lookup_insert_of_ne _ equal, positions.value other kept]
      intro location
      exact equal (positions.distinct other kept key member (encode_inj (List.append_cancel_left location)))

/-- A new key gets the position after the last. -/
theorem Positions.push (injective : ∀ key other : K, Borsh.encode key = Borsh.encode other → key = other)
    (positions : Positions tag storage entries position) (new_ : key ∉ entries)
    (few : (entries.insert key value).keys.card < 2 ^ 64) (last : length = BitVec.ofNat 64 entries.keys.card) :
    Positions tag
      (((storage.set ([tag, 0x69] ++ Borsh.encode key) (Borsh.encode length)).set ([tag, 0x6b] ++ Borsh.encode length)
        (Borsh.encode key)).set ([tag, 0x76] ++ Borsh.encode length) value)
      (entries.insert key value) (fun other => if other = key then length else position other) := by
  have count : (entries.insert key value).keys.card = entries.keys.card + 1 := by
    rw [Ledger.keys_insert, Finset.card_insert_of_notMem (fun present => new_ (Finmap.mem_keys.mp present))]
  have end_ : length.toNat = entries.keys.card := by
    rw [last, BitVec.toNat_ofNat]
    exact Nat.mod_eq_of_lt (by omega)
  have later : ∀ other ∈ entries, position other ≠ length := by
    rintro other present rfl
    exact absurd (positions.bound other present) (by omega)
  refine ⟨?_, ?_, ?_, ?_, ?_⟩
  · intro other present
    rw [count]
    split
    next => omega
    next different =>
      have before := positions.bound other ((Finmap.mem_insert.mp present).resolve_left different)
      omega
  · intro first present second present' same
    split_ifs at same with one two two
    · rw [one, two]
    · exact absurd same.symm (later second ((Finmap.mem_insert.mp present').resolve_left two))
    · exact absurd same (later first ((Finmap.mem_insert.mp present).resolve_left one))
    · exact positions.distinct first ((Finmap.mem_insert.mp present).resolve_left one) second
        ((Finmap.mem_insert.mp present').resolve_left two) same
  · intro other present
    rw [Storage.set_other (apart (by decide) _ _), Storage.set_other (apart (by decide) _ _)]
    by_cases equal : other = key
    · rw [equal, Storage.set_same, if_pos rfl]
    · rw [if_neg equal, Storage.set_other, positions.index other ((Finmap.mem_insert.mp present).resolve_left equal)]
      exact fun location => equal (injective _ _ (List.append_cancel_left location))
  · intro other missing
    have different : other ≠ key := fun equal => missing (Finmap.mem_insert.mpr (Or.inl equal))
    rw [Storage.set_other (apart (by decide) _ _), Storage.set_other (apart (by decide) _ _), Storage.set_other]
    · exact positions.absent other (fun present => missing (Finmap.mem_insert.mpr (Or.inr present)))
    · exact fun location => different (injective _ _ (List.append_cancel_left location))
  · intro other present
    by_cases equal : other = key
    · rw [equal, if_pos rfl, Storage.set_same, Finmap.lookup_insert]
    · have kept := (Finmap.mem_insert.mp present).resolve_left equal
      rw [if_neg equal, Storage.set_other, Storage.set_other (apart (by decide) _ _), Storage.set_other (apart (by decide) _ _),
        positions.value other kept, Finmap.lookup_insert_of_ne _ equal]
      exact fun location => later other kept (encode_inj (List.append_cancel_left location))

/-- Only the keys under the prefix matter. -/
theorem Positions.agree (agree : Storage.Agree tag storage storage') (positions : Positions tag storage entries position) :
    Positions tag storage' entries position := by
  have same : ∀ x rest, storage' ([tag, x] ++ rest) = storage ([tag, x] ++ rest) := by
    intro x rest
    exact (agree ([tag, x] ++ rest) rfl).symm
  refine ⟨positions.bound, positions.distinct, ?_, ?_, ?_⟩
  · intro key present
    rw [same, positions.index key present]
  · intro key missing
    rw [same, positions.absent key missing]
  · intro key present
    rw [same, positions.value key present]

theorem insert_holds (injective : ∀ key other : K, Borsh.encode key = Borsh.encode other → key = other) {handle : Handle}
    (holds : Holds tag handle storage entries) (key : K) (value : Bytes) (few : (entries.insert key value).keys.card < 2 ^ 64) :
    Holds tag (insert handle storage key value).2 (insert handle storage key value).1 (entries.insert key value) := by
  obtain ⟨rfl, position, positions⟩ := holds
  by_cases member : key ∈ entries
  · rw [insert_present positions member]
    refine ⟨?_, position, positions.overwrite member⟩
    rw [Ledger.keys_insert, Finset.insert_eq_of_mem (Finmap.mem_keys.mpr member)]
  · rw [insert_absent positions member]
    refine ⟨?_, _, positions.push injective member few rfl⟩
    rw [Ledger.keys_insert, Finset.card_insert_of_notMem (fun present => member (Finmap.mem_keys.mp present)), BitVec.ofNat_add]
    rfl

end Laws

/-- The map is lawful under every one-byte prefix. -/
theorem lawful [DecidableEq K] (injective : ∀ key other : K, Borsh.encode key = Borsh.encode other → key = other) (tag : UInt8) :
    (map K).Lawful tag (Holds tag) cell where
  new empty := by
    refine ⟨rfl, fun _ => 0, ?_, ?_, ?_, ?_, ?_⟩
    · intro key present
      exact absurd present Finmap.notMem_empty
    · intro key present
      exact absurd present Finmap.notMem_empty
    · intro key present
      exact absurd present Finmap.notMem_empty
    · intro key _
      exact empty _ rfl
    · intro key present
      exact absurd present Finmap.notMem_empty
  get := by
    rintro handle storage entries ⟨rfl, position, positions⟩ key
    exact get_eq positions key
  insert holds := insert_holds injective holds
  fits := by
    rintro handle storage entries ⟨rfl, _⟩ _
    have short : ∀ x, Borsh.Fits ([tag, x] : Bytes) := fun x => (by decide : 2 < 256 ^ 4)
    exact ⟨short _, trivial, short _, trivial, short _⟩
  reads := by
    rintro handle storage storage' entries agree ⟨rfl, position, positions⟩
    exact ⟨rfl, position, positions.agree agree⟩
  writes := by
    rintro handle storage entries ⟨rfl, position, positions⟩ key value other untagged
    have foreign : ∀ x rest, other ≠ [tag, x] ++ rest := by
      rintro x rest rfl
      exact untagged rfl
    change (insert _ storage key value).1 other = _
    by_cases member : key ∈ entries
    · rw [insert_present positions member]
      exact Storage.set_other (foreign _ _)
    · rw [insert_absent positions member]
      dsimp only
      rw [Storage.set_other (foreign _ _), Storage.set_other (foreign _ _), Storage.set_other (foreign _ _)]
  overwrite := by
    rintro handle storage entries ⟨rfl, position, positions⟩ key member value
    rw [cell_eq positions member]
    exact insert_present positions member
  cell_tagged := by
    rintro handle storage entries ⟨rfl, position, positions⟩ key member
    rw [cell_eq positions member]
    rfl
  cell_distinct := by
    rintro handle storage entries ⟨rfl, position, positions⟩ key member other member' same
    rw [cell_eq positions member, cell_eq positions member'] at same
    exact positions.distinct key member other member' (encode_inj (List.append_cancel_left same))
  cell_reads := by
    rintro handle storage storage' entries agree ⟨rfl, position, positions⟩ key member
    rw [cell_eq positions member, cell_eq (positions.agree agree) member]
  cell_kept := by
    rintro handle storage entries ⟨rfl, position, positions⟩ key member other member' value
    have keys : other ∈ entries.insert key value := Finmap.mem_insert.mpr (Or.inr member')
    rw [cell_eq positions member, cell_eq positions member', cell_eq (positions.overwrite member) keys]

end VectorMap
