import VexoConsensus.Node.CommittedStore
import VexoConsensus.Node.VoteLog
import VexoConsensus.Modules.Ownership
import VexoConsensus.DataAvailability.Erasure
import VexoConsensus.Modules.PacketLifecycle
import VexoConsensus.GovernancePeriods
import VexoConsensus.Consensus.ChainSeparation
import VexoConsensus.Consensus.Progress
import VexoConsensus.Runtime.Recovery
import VexoConsensus.Modules.Evm.Relay
import VexoConsensus.Slashing.Resubmission
import VexoConsensus.Mempool
import VexoConsensus.Upgrade
