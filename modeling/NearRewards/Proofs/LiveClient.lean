import NearRewards.Library.Url
import NearRewards.LiveClient

/-! Which URLs the live client takes, and where they lead. The screen reads the whole URL, so
a word for testnet outside the host lets any host through. -/

namespace NearRewards.Client
open Casing

def mainnetWord : List Char := "mainnet".toList

def testnetWord : List Char := "testnet".toList

section Screen
variable (table : Table)

/-- The longer hint contains the shorter one. -/
theorem hinted_iff (text : List Char) :
    (∃ hint ∈ mainnetHints, hint.toList <:+: lower table text) ↔ Says mainnetWord text := by
  have screen : mainnetWord <:+: lower table text ↔ _ := infix_lower_iff table (by decide) (by decide) text
  rw [← screen]
  constructor
  · rintro ⟨hint, member, found⟩
    have longer : ∀ hint ∈ mainnetHints, mainnetWord <:+: hint.toList := by decide
    exact (longer hint member).trans found
  · intro found
    exact ⟨"mainnet", by decide, found⟩

theorem init_ok_iff {rpcUrl signer : String} {client : LiveNearClient} :
    LiveNearClient.init table rpcUrl signer = .ok client ↔
      ¬Says mainnetWord rpcUrl.toList ∧ Says testnetWord rpcUrl.toList ∧ client = ⟨rpcUrl, signer⟩ := by
  have hinted := hinted_iff table rpcUrl.toList
  have testnet : testnetWord <:+: lower table rpcUrl.toList ↔ _ := infix_lower_iff table (by decide) (by decide) rpcUrl.toList
  unfold LiveNearClient.init
  dsimp only
  split_ifs with mainnet found
  · simp [hinted.mp mainnet]
  · have clear : ¬Says mainnetWord rpcUrl.toList := fun said => mainnet (hinted.mpr said)
    simp [clear, testnet.mp found, eq_comm]
  · have silent : ¬Says testnetWord rpcUrl.toList := fun said => found (testnet.mpr said)
    simp [silent]

/-- A live backend comes from the constructor, with the URL and the signer of the environment. -/
theorem buildClient_live {environ : String → Option String} {client : LiveNearClient}
    (built : buildClient table environ = .ok (.live client)) :
    ∃ rpc signer, environ "NEAR_RPC_URL" = some rpc ∧ environ "NEAR_SIGNER" = some signer ∧
      LiveNearClient.init table rpc signer = .ok client := by
  unfold buildClient at built
  split at built
  next rpc signer rpcSet signerSet =>
    split_ifs at built
    · refine ⟨rpc, signer, rpcSet, signerSet, ?_⟩
      cases constructed : LiveNearClient.init table rpc signer with
      | error raised =>
        rw [constructed] at built
        cases built
      | ok other =>
        rw [constructed] at built
        cases built
        rfl
    · cases built
  next => cases built

end Screen

section Hosts
variable (table : Table)

/-- The host of the URL, if it is one, is a testnet endpoint. -/
def TestnetOnly (u : String) : Prop :=
  ∀ url : Url, url.text = u.toList → testnetWord <:+: lower table url.host ∧ ¬mainnetWord <:+: lower table url.host

/-- The word for testnet stands in another part of the URL and not in its host, and the
word for mainnet stands nowhere. -/
def Decoy (url : Url) : Prop :=
  (Says testnetWord url.scheme ∨ Says testnetWord url.userinfo ∨ Says testnetWord url.port ∨ Says testnetWord url.tail) ∧
    ¬Says testnetWord url.host ∧ ¬Says mainnetWord url.text

instance (url : Url) : Decidable (Decoy url) := inferInstanceAs (Decidable (_ ∧ _ ∧ _))

theorem says_testnet_iff (url : Url) : Says testnetWord url.text ↔
    Says testnetWord url.scheme ∨ Says testnetWord url.userinfo ∨ Says testnetWord url.host ∨ Says testnetWord url.port ∨
      Says testnetWord url.tail :=
  url.says_text_iff (by decide) (by decide)

theorem says_mainnet_of_host {url : Url} (said : Says mainnetWord url.host) : Says mainnetWord url.text :=
  (url.says_text_iff (by decide) (by decide)).mpr (Or.inr (Or.inr (Or.inl said)))

theorem testnetOnly_iff {u : String} {url : Url} (reads : url.text = u.toList) :
    TestnetOnly table u ↔ Says testnetWord url.host ∧ ¬Says mainnetWord url.host := by
  rw [← infix_lower_iff table (by decide) (by decide) url.host,
    ← infix_lower_iff table (by decide) (by decide) url.host]
  refine ⟨fun only => only url reads, ?_⟩
  intro leads other same
  rwa [Url.text_injective (same.trans reads.symm)]

/-- A URL the screen lets through leads to a testnet host, or it is a decoy. -/
theorem testnetOnly_of_init {u signer : String} {client : LiveNearClient} (genuine : ¬∃ url : Url, url.text = u.toList ∧ Decoy url)
    (constructed : LiveNearClient.init table u signer = .ok client) : TestnetOnly table u := by
  obtain ⟨clear, said, -⟩ := (init_ok_iff table).mp constructed
  intro url reads
  refine (testnetOnly_iff table reads).mpr ?_ url reads
  rw [← reads] at clear said
  refine ⟨?_, fun mainnet => clear (says_mainnet_of_host mainnet)⟩
  by_contra silent
  refine genuine ⟨url, reads, ?_, silent, clear⟩
  rcases (says_testnet_iff url).mp said with scheme | userinfo | host | port | tail
  · exact Or.inl scheme
  · exact Or.inr (Or.inl userinfo)
  · exact absurd host silent
  · exact Or.inr (Or.inr (Or.inl port))
  · exact Or.inr (Or.inr (Or.inr tail))

/-- The constructor takes every decoy. -/
theorem init_decoy {u : String} {url : Url} (reads : url.text = u.toList) (decoy : Decoy url) (signer : String) :
    LiveNearClient.init table u signer = .ok ⟨u, signer⟩ := by
  obtain ⟨elsewhere, -, clear⟩ := decoy
  refine (init_ok_iff table).mpr ⟨reads ▸ clear, reads ▸ (says_testnet_iff url).mpr ?_, rfl⟩
  rcases elsewhere with scheme | userinfo | port | tail
  · exact Or.inl scheme
  · exact Or.inr (Or.inl userinfo)
  · exact Or.inr (Or.inr (Or.inr (Or.inl port)))
  · exact Or.inr (Or.inr (Or.inr (Or.inr tail)))

/-- The live client leads to a testnet host, however it was made, exactly when its URL is
no decoy. -/
theorem live_testnet_iff (u : String) :
    ((∀ signer client, LiveNearClient.init table u signer = .ok client → TestnetOnly table u) ∧
      ∀ environ client, environ "NEAR_RPC_URL" = some u → buildClient table environ = .ok (.live client) →
        TestnetOnly table u) ↔
      ¬∃ url : Url, url.text = u.toList ∧ Decoy url := by
  constructor
  · rintro ⟨safe, -⟩ ⟨url, reads, decoy⟩
    have only := safe "" _ (init_decoy table reads decoy "")
    exact decoy.2.1 ((testnetOnly_iff table reads).mp only).1
  · intro genuine
    refine ⟨fun signer client constructed => testnetOnly_of_init table genuine constructed, ?_⟩
    intro environ client configured built
    obtain ⟨rpc, signer, found, -, constructed⟩ := buildClient_live table built
    cases configured.symm.trans found
    exact testnetOnly_of_init table genuine constructed

end Hosts

/-- Enough of a table for text in ASCII. -/
private def asciiTable : Table where
  lower _ c _ := [c]
  shown _ _ _ := List.cons_ne_nil _ _
  outside := by
    intro before c after foreign lowered member
    exact List.mem_singleton.mp member ▸ foreign

private def queryDecoy : Url where
  scheme := "https".toList
  authority := "rpc.near.org".toList
  tail := "/?network=testnet".toList
  named := by decide
  scheme_closed := by decide
  authority_closed := by decide
  tail_opens := by
    intro c first
    cases first
    decide

/-- A query names the testnet, and the host is none. -/
theorem query_decoy_accepted :
    ¬∀ client, LiveNearClient.init asciiTable "https://rpc.near.org/?network=testnet" "operator.near" = .ok client →
      TestnetOnly asciiTable "https://rpc.near.org/?network=testnet" := by
  intro safe
  have reads : queryDecoy.text = "https://rpc.near.org/?network=testnet".toList := by decide
  have decoy : Decoy queryDecoy := by decide
  have only := safe _ (init_decoy asciiTable reads decoy "operator.near")
  exact decoy.2.1 ((testnetOnly_iff asciiTable reads).mp only).1

end NearRewards.Client
