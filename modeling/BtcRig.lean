import BtcRig.Theory.Words
import BtcRig.Theory.Sha256
import BtcRig.Theory.X86Sha
import BtcRig.Theory.ArmSha
import BtcRig.Theory.Unrolled
import BtcRig.Theory.Hex
import BtcRig.Theory.HexBytes
import BtcRig.Theory.Machine
import BtcRig.Theory.RingBuffer
import BtcRig.Theory.Intervals
import BtcRig.Theory.Json
import BtcRig.Theory.Aliases
import BtcRig.Theory.Select
import BtcRig.Theory.Hysteresis
import BtcRig.Theory.Ownership
import BtcRig.Theory.RollCall
import BtcRig.Theory.Delimiters
import BtcRig.Theory.Tokens
import BtcRig.Theory.Truncation
import BtcRig.Theory.Framing
import BtcRig.Theory.Tiling
import BtcRig.Hash.Sha256d
import BtcRig.Hash.Scan
import BtcRig.Hash.ShaNi
import BtcRig.Hash.ArmSha2
import BtcRig.Gpu.Macros
import BtcRig.Gpu.Device
import BtcRig.Gpu.Cuda
import BtcRig.Gpu.OpenCl
import BtcRig.Gpu.Launch
import BtcRig.Gpu.Collect
import BtcRig.Mining.Job
import BtcRig.Mining.Layout
import BtcRig.Mining.Target
import BtcRig.Mining.State
import BtcRig.Mining.ShareQueue
import BtcRig.Mining.Lifecycle
import BtcRig.Mining.Workers
import BtcRig.Mining.Nonces
import BtcRig.Mining.Shares
import BtcRig.Mining.PoolView
import BtcRig.Mining.Unique
import BtcRig.Mining.WakeUp
import BtcRig.Mining.Ledger
import BtcRig.Mining.Hashes
import BtcRig.Mining.Fleet
import BtcRig.Stratum.State
import BtcRig.Stratum.Lines
import BtcRig.Stratum.Client
import BtcRig.Stratum.Settings
import BtcRig.Stratum.Template
import BtcRig.Stratum.Extranonce
import BtcRig.Stratum.Width
import BtcRig.Stratum.Roll
import BtcRig.Stratum.Pending
import BtcRig.Stratum.Reader
import BtcRig.Stratum.Rejected
import BtcRig.Stratum.Narrowing
import BtcRig.Stratum.PoolUrl
import BtcRig.Proxy.Relay
import BtcRig.Proxy.Upstream
import BtcRig.Donation.Schedule
import BtcRig.Config.Variants
import BtcRig.Gpu.CudaLaunch
import BtcRig.Gpu.OpenClLaunch
import BtcRig.Gpu.Backend
import BtcRig.Gpu.SelfTest
import BtcRig.Config.Load
import BtcRig.Config.Resolved
import BtcRig.Config.Autotune
import BtcRig.Config.Choice
import BtcRig.Config.Tuning
import BtcRig.Donation.Retry
import BtcRig.Config.Save
import BtcRig.Stratum.Wire
import BtcRig.Stratum.Loop
import BtcRig.Stratum.Conversation
import BtcRig.Stratum.Handshake
import BtcRig.Donation.Period
import BtcRig.Theory.Handles
import BtcRig.Net.Connect
import BtcRig.Stratum.Connection
import BtcRig.Proxy.Server
import BtcRig.Gpu.Scan
import BtcRig.Hash.Dispatch
import BtcRig.Bench.SelfCheck
import BtcRig.Mining.Devices
import BtcRig.Mining.Search
import BtcRig.Mining.Affinity
import BtcRig.Theory.Acquire
import BtcRig.Gpu.Open
import BtcRig.Gpu.Admission
