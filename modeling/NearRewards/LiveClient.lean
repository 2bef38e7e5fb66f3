import NearRewards.Client
import NearRewards.Library.Casing

/-! The operator's live client, and the choice between the two. The constructor looks for
the words that tell a mainnet and a testnet endpoint anywhere in the URL it is given. -/

namespace NearRewards.Client

/-- `_MAINNET_HINTS`. -/
def mainnetHints : List String := ["mainnet", "rpc.mainnet.near.org"]

structure LiveNearClient where
  rpcUrl : String
  signer : String
  deriving DecidableEq, Repr

variable (table : Casing.Table)

/-- The constructor. What it calls the host is the whole URL in lower case. -/
def LiveNearClient.init (rpcUrl signer : String) : Except Error LiveNearClient :=
  let host := Casing.lower table rpcUrl.toList
  if ∃ hint ∈ mainnetHints, hint.toList <:+: host then
    .error (.value "LiveNearClient refuses mainnet; this project is testnet only")
  else if ¬"testnet".toList <:+: host then
    .error (.value "NEAR_RPC_URL must be a testnet endpoint (contains 'testnet')")
  else
    .ok { rpcUrl, signer }

inductive Backend where
  | offline (client : OfflineNearClient)
  | live (client : LiveNearClient)

/-- An empty variable counts as one that is not set. -/
def buildClient (environ : String → Option String) : Except Error Backend :=
  match environ "NEAR_RPC_URL", environ "NEAR_SIGNER" with
  | some rpc, some signer =>
    if rpc ≠ "" ∧ signer ≠ "" then .live <$> LiveNearClient.init table rpc signer else .ok (.offline {})
  | _, _ => .ok (.offline {})

end NearRewards.Client
