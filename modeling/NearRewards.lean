import NearRewards.Client
import NearRewards.Contract
import NearRewards.Library.Effects
import NearRewards.Library.Network
import NearRewards.Library.Pot
import NearRewards.Library.ProRata
import NearRewards.LogIndex
import NearRewards.Proofs.Classification
import NearRewards.Proofs.ClientReplay
import NearRewards.Proofs.ContractActs
import NearRewards.Proofs.ContractInvariant
import NearRewards.Proofs.Cycles
import NearRewards.Proofs.Distribution
import NearRewards.Proofs.Isolation
import NearRewards.Proofs.Lifecycle
import NearRewards.Proofs.LiveClient
import NearRewards.Proofs.Liveness
import NearRewards.Proofs.LogText
import NearRewards.Proofs.Outbound
import NearRewards.Proofs.RoutingRecord
import NearRewards.Proofs.RunStore
import NearRewards.Proofs.Screen
import NearRewards.Proofs.Stakes
import NearRewards.Proofs.Transfers
import NearRewards.Proofs.VoidHatch
