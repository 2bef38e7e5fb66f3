import NearRewards.FlatStorage
import NearRewards.Proofs.ContractInvariant

/-! What the flat storage holds of a contract whose maps are values. The account maps of
all events share the key space with the map of events and the root; their keys tell which
event, which map and which account they belong to. -/

namespace NearRewards.Contract

/-- The account maps of an event. -/
inductive AccountMap where
  | yesStake
  | noStake
  | claimed
  deriving DecidableEq

def AccountMap.prefixByte : AccountMap → UInt8
  | .yesStake => 0x79
  | .noStake => 0x6e
  | .claimed => 0x63

/-- Where an account's entry of an event's map is stored. -/
def accountKey (accounts : AccountMap) (eventId : U64) (account : AccountId) : Bytes :=
  key accounts.prefixByte eventId ++ Borsh.encode account

theorem AccountMap.prefixByte_injective {accounts other : AccountMap} (same : accounts.prefixByte = other.prefixByte) :
    accounts = other := by
  revert same
  cases accounts <;> cases other <;> decide

theorem encode_eventId_injective {eventId other : U64} (same : Borsh.encode eventId = Borsh.encode other) : eventId = other :=
  Borsh.encode_injective trivial trivial same

/-- The prefix byte and the id have a fixed width, so what follows them is the same too. -/
theorem key_injective {accounts other : AccountMap} {eventId eventId' : U64} {rest rest' : Bytes}
    (same : key accounts.prefixByte eventId ++ rest = key other.prefixByte eventId' ++ rest') :
    accounts = other ∧ eventId = eventId' ∧ rest = rest' := by
  have width : ∀ id : U64, (Borsh.encode id).length = 8 := fun id => Borsh.length_littleEndian 8 id.toNat
  obtain ⟨prefixes, rests⟩ := List.append_inj same (by simp [key, width])
  obtain ⟨bytes, ids⟩ := List.cons.inj prefixes
  exact ⟨AccountMap.prefixByte_injective bytes, encode_eventId_injective ids, rests⟩

theorem accountKey_injective {accounts other : AccountMap} {eventId eventId' : U64} {account account' : AccountId}
    (same : accountKey accounts eventId account = accountKey other eventId' account') :
    accounts = other ∧ eventId = eventId' ∧ account = account' := by
  obtain ⟨maps, ids, names⟩ := key_injective same
  exact ⟨maps, ids, Borsh.encode_string_injective names⟩

theorem key_untagged (accounts : AccountMap) (eventId : U64) (rest : Bytes) :
    ¬Storage.Tagged eventsPrefix (key accounts.prefixByte eventId ++ rest) := by
  intro tagged
  have byte : accounts.prefixByte = eventsPrefix := Option.some.inj tagged
  revert byte
  cases accounts <;> decide

theorem key_ne_state (accounts : AccountMap) (eventId : U64) (rest : Bytes) : key accounts.prefixByte eventId ++ rest ≠ stateKey := by
  intro same
  have byte : accounts.prefixByte = 0x53 := (List.cons.inj same).1
  revert byte
  cases accounts <;> decide

theorem stateKey_untagged : ¬Storage.Tagged eventsPrefix stateKey := by
  decide

namespace EventContract

/-- The event as it is stored under an id: each account map is its prefix. -/
def stored (eventId : U64) (e : Event) : StoredEvent :=
  { e with
    yesStake := key AccountMap.yesStake.prefixByte eventId
    noStake := key AccountMap.noStake.prefixByte eventId
    claimed := key AccountMap.claimed.prefixByte eventId }

/-- What the account maps hold, as bytes. -/
def contents (e : Event) : AccountMap → AccountId → Option Bytes
  | .yesStake, account => (e.yesStake.lookup account).map Borsh.encode
  | .noStake, account => (e.noStake.lookup account).map Borsh.encode
  | .claimed, account => (e.claimed.lookup account).map Borsh.encode

section Changes
variable (e : Event) (account : AccountId)

theorem contents_yesStake (stake : U128) (other : AccountMap) (name : AccountId) :
    contents { e with yesStake := e.yesStake.insert account stake } other name =
      if other = .yesStake ∧ name = account then some (Borsh.encode stake) else e.contents other name := by
  cases other <;> simp only [contents, Ledger.lookup_insert, reduceCtorEq, true_and, false_and, if_false]
  split <;> rfl

theorem contents_noStake (stake : U128) (other : AccountMap) (name : AccountId) :
    contents { e with noStake := e.noStake.insert account stake } other name =
      if other = .noStake ∧ name = account then some (Borsh.encode stake) else e.contents other name := by
  cases other <;> simp only [contents, Ledger.lookup_insert, reduceCtorEq, true_and, false_and, if_false]
  split <;> rfl

theorem contents_claimed (flag : Bool) (other : AccountMap) (name : AccountId) :
    contents { e with claimed := e.claimed.insert account flag } other name =
      if other = .claimed ∧ name = account then some (Borsh.encode flag) else e.contents other name := by
  cases other <;> simp only [contents, Ledger.lookup_insert, reduceCtorEq, true_and, false_and, if_false]
  split <;> rfl

end Changes

theorem fits_stored {e : Event} (eventId : U64) (short : Borsh.Fits e.resolver) : Borsh.Fits (e.stored eventId) := by
  have prefixed : ∀ byte, Borsh.Fits (key byte eventId) := by
    intro byte
    change (key byte eventId).length < _
    have width : (Borsh.encode eventId).length = 8 := Borsh.length_littleEndian 8 eventId.toNat
    rw [key, List.length_cons, width]
    decide
  exact ⟨short, trivial, trivial, trivial, trivial, trivial, trivial, trivial, prefixed _, prefixed _, prefixed _⟩

end EventContract

/-- The entries an event's account maps have in the storage. -/
def Accounts (eventId : U64) (e : Event) (location : Bytes) (value : Option Bytes) : Prop :=
  ∃ accounts account, location = accountKey accounts eventId account ∧ value = e.contents accounts account

/-- Those, and the record of the event itself. -/
def Written (cell : Bytes) (eventId : U64) (e : Event) (location : Bytes) (value : Option Bytes) : Prop :=
  location = cell ∧ value = some (Borsh.encode (e.stored eventId)) ∨ Accounts eventId e location value

theorem Accounts.untagged {eventId : U64} {e : Event} {location : Bytes} {value : Option Bytes}
    (entry : Accounts eventId e location value) : ¬Storage.Tagged eventsPrefix location := by
  obtain ⟨accounts, account, rfl, _⟩ := entry
  exact key_untagged accounts eventId _

theorem Accounts.id {eventId other : U64} {e : Event} {accounts : AccountMap} {account : AccountId} {value : Option Bytes}
    (entry : Accounts eventId e (accountKey accounts other account) value) : other = eventId := by
  obtain ⟨_, _, same, _⟩ := entry
  exact (accountKey_injective same).2.1

/-- Writing one account's entry. -/
theorem accounts_set {eventId : U64} {e e' : Event} {storage after : Storage} {accounts : AccountMap} {account : AccountId}
    {value : Bytes} (overlaid : Storage.Overlaid (Accounts eventId e) storage after)
    (changed : ∀ other name, e'.contents other name =
      if other = accounts ∧ name = account then some value else e.contents other name) :
    Storage.Overlaid (Accounts eventId e') storage (after.set (accountKey accounts eventId account) value) := by
  have written : e'.contents accounts account = some value := (changed _ _).trans (if_pos ⟨rfl, rfl⟩)
  refine overlaid.set ⟨accounts, account, rfl, written.symm⟩ ?_ ?_
  · rintro new ⟨other, name, same, rfl⟩
    obtain ⟨rfl, -, rfl⟩ := accountKey_injective same
    exact written
  · intro location different old
    have kept : ∀ other name, location = accountKey other eventId name → e'.contents other name = e.contents other name := by
      rintro other name rfl
      refine (changed other name).trans (if_neg ?_)
      rintro ⟨rfl, rfl⟩
      exact different rfl
    constructor
    · rintro ⟨other, name, same, rfl⟩
      exact ⟨other, name, same, kept other name same⟩
    · rintro ⟨other, name, same, rfl⟩
      exact ⟨other, name, same, (kept other name same).symm⟩

variable {map : UnorderedMap U64} {Holds : map.Handle → Storage → Ledger U64 Bytes → Prop}
  {cell : map.Handle → Storage → U64 → Bytes}

/-- The storage holds the state: the root and the map of events in their places, every
event's entries under its own prefixes, and nothing under the prefixes of other ids. -/
structure Represents (map : UnorderedMap U64) (Holds : map.Handle → Storage → Ledger U64 Bytes → Prop) (storage : Storage)
    (events : map.Handle) (records : Ledger U64 Bytes) (state : State) : Prop where
  valid : state.Valid
  root : storage stateKey = some (Borsh.encode (state.nextEventId, events))
  held : Holds events storage records
  records : ∀ eventId, records.lookup eventId =
    (state.events.lookup eventId).map fun e => Borsh.encode (e.stored eventId)
  accounts : ∀ accounts eventId account, storage (accountKey accounts eventId account) =
    (state.events.lookup eventId).bind fun e => e.contents accounts account
  resolvers : ∀ eventId e, state.events.lookup eventId = some e → Borsh.Fits e.resolver
  nothing_else : ∀ location, ¬Storage.Tagged eventsPrefix location → location ≠ stateKey →
    (∀ accounts eventId account, location ≠ accountKey accounts eventId account) → storage location = none

namespace Represents
variable {storage : Storage} {events : map.Handle} {records : Ledger U64 Bytes} {state : State} {eventId : U64} {e : Event}
variable (represents : Represents map Holds storage events records state)
include represents

theorem record_mem (found : state.events.lookup eventId = some e) : eventId ∈ records := by
  rw [Finmap.mem_iff]
  exact ⟨_, by rw [represents.records, found]; rfl⟩

/-- Storing an event adds its record, and no other. -/
theorem records_insert (eventId : U64) (e : Event) (other : U64) :
    (records.insert eventId (Borsh.encode (e.stored eventId))).lookup other =
      ((state.events.insert eventId e).lookup other).map fun e => Borsh.encode (e.stored other) := by
  rw [Ledger.lookup_insert, Ledger.lookup_insert]
  by_cases same : other = eventId
  · rw [if_pos same, if_pos same, same]
    rfl
  · rw [if_neg same, if_neg same, represents.records]

theorem resolvers_insert (short : Borsh.Fits e.resolver) (other : U64) (kept : Event)
    (present : (state.events.insert eventId e).lookup other = some kept) : Borsh.Fits kept.resolver := by
  rw [Ledger.lookup_insert] at present
  by_cases same : other = eventId
  · rw [if_pos same] at present
    exact Option.some.inj present ▸ short
  · rw [if_neg same] at present
    exact represents.resolvers other kept present

/-- Ids are given out in order, so there are no more events than ids so far. -/
theorem card_le : records.keys.card ≤ state.nextEventId.toNat := by
  have bound : ∀ eventId ∈ records.keys, eventId.toNat ∈ Finset.range state.nextEventId.toNat := by
    intro eventId member
    obtain ⟨bytes, recorded⟩ := Ledger.mem_keys_iff.mp member
    rw [represents.records, Option.map_eq_some_iff] at recorded
    obtain ⟨e, found, _⟩ := recorded
    exact Finset.mem_range.mpr (represents.valid.id_lt found)
  have count := Finset.card_le_card_of_injOn BitVec.toNat bound (fun _ _ _ _ same => BitVec.eq_of_toNat_eq same)
  rwa [Finset.card_range] at count

variable (lawful : map.Lawful eventsPrefix Holds cell)
include lawful

theorem load_eq : load map storage = .ok { nextEventId := state.nextEventId, events := { storage, events } } := by
  have fits : Borsh.Fits events :=
    lawful.fits represents.held (Nat.lt_of_le_of_lt represents.card_le state.nextEventId.isLt)
  have decoded : Borsh.decode (Borsh.encode (state.nextEventId, events)) = some (state.nextEventId, events) :=
    Borsh.decode_encode ⟨trivial, fits⟩
  rw [load, represents.root]
  dsimp only
  rw [decoded]

end Represents

end NearRewards.Contract
