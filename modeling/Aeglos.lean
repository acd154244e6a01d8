import Aeglos.Proofs.Death
import Aeglos.Proofs.Confinement
import Aeglos.Proofs.Devices
import Aeglos.Proofs.Tlb
import Aeglos.Proofs.TaskPages
import Aeglos.Proofs.AllocRace
import Aeglos.Proofs.ReservedRegions
import Aeglos.Proofs.ElfPlacement
import Aeglos.Proofs.ConfigFile
import Aeglos.Proofs.WasmSandbox
import Aeglos.Proofs.WasmAuthority
import Aeglos.Proofs.WasmIntegers
import Aeglos.Proofs.TcpDelivery
import Aeglos.Proofs.TcpAcks
import Aeglos.Proofs.HttpBodies
import Aeglos.Proofs.FailedSpawns
import Aeglos.Proofs.E1000Transmit
import Aeglos.Proofs.SemanticCrash
import Aeglos.Proofs.SemanticProtocol
import Aeglos.Proofs.SemanticSearch
import Aeglos.Proofs.RandomBytes
import Aeglos.Proofs.SurfaceBuffers
import Aeglos.Proofs.VectorSearch
import Aeglos.Proofs.DnsFormat
import Aeglos.Proofs.Wakeups
import Aeglos.Proofs.Choices
import Aeglos.Proofs.CapabilityUpdates
import Aeglos.Proofs.HeapRealloc
import Aeglos.Proofs.FileCursors
import Aeglos.Proofs.TcpRepeats
import Aeglos.Proofs.DhcpFallback
import Aeglos.Proofs.PromptContext
import Aeglos.Proofs.Leb128
import Aeglos.Proofs.TcpOptions
import Aeglos.Proofs.IcmpChecksums
import Aeglos.Proofs.RtcCalendar
import Aeglos.Proofs.NeighbourCaches
import Aeglos.Proofs.Pipes
