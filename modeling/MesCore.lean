import MesCore.Interaction
import MesCore.CallHistory
import MesCore.Text
import MesCore.EventStream
import MesCore.Hardware
import MesCore.StateMachine
import MesCore.Triggers
import MesCore.Footprints
import MesCore.Power
import MesCore.Routing
import MesCore.OsEvidence
import MesCore.ColdBoot
import MesCore.Straps
import MesCore.Staleness
import MesCore.PowerBelief
import MesCore.SerialClient
import MesCore.CommandFraming
import MesCore.TransportIndependence
import MesCore.Handshake
import MesCore.Delivery
import MesCore.Listening
import MesCore.RawRead
import MesCore.BootEnv
import MesCore.Trap
import MesCore.Occurrence
import MesCore.Decoding
import MesCore.PanicSignatures
import MesCore.Watchdog
import MesCore.WatchdogSessions
import MesCore.Runs
import MesCore.WatchdogThreads
import MesCore.Failover
import MesCore.FailoverProbe
import MesCore.LinkLoss
import MesCore.Quoting
import MesCore.BoardFiles
import MesCore.HostSideBuffer
import MesCore.UartParser
import MesCore.Fragmentation
import MesCore.BootTrace
import MesCore.StreamChunks
import MesCore.IdealBoard
import MesCore.TrapRuns
import MesCore.BoardConsole
import MesCore.FailoverHarvest
import MesCore.Cobs
import MesCore.McuRpc
import MesCore.RpcLink
import MesCore.Orchestrator
import MesCore.UdpLogger
import MesCore.StationManager
import MesCore.BlockDevice
import MesCore.PartitionFlip
import MesCore.Telemetry
import MesCore.PsuSession
import MesCore.LiveProcess
import MesCore.DeviceCrypto
import MesCore.SysfsReadings
import MesCore.SdMuxRecovery
import MesCore.TopologyValidators
import MesCore.MemoryTest
import MesCore.Efuse
import MesCore.SafePower
import MesCore.UbootVariables
import MesCore.SweepRuns
import MesCore.McuAppState
import MesCore.McuAppDurations
import MesCore.McuAppWaiting
import MesCore.McuLogParser
import MesCore.SecureFetch
import MesCore.PkiProvisioner
import MesCore.PkiTransit
import MesCore.PkiResidue
import MesCore.PkiFailures
import MesCore.MqttClient
import MesCore.MqttEvents
import MesCore.McuStateMachine
import MesCore.HidScanner
import MesCore.PairSearch
import MesCore.UartCapture
import MesCore.CanCapture
import MesCore.ShmooSweep
import MesCore.JsonlStream
import MesCore.RecordSanitize
import MesCore.PyNumbers
import MesCore.IioData
import MesCore.ProbeRsMemory
import MesCore.TeziProvision
import MesCore.Dps150Replies
import MesCore.SntpServer
import MesCore.EStopWatchdog
import MesCore.SysfsMetrics
import MesCore.StateTelemetry
import MesCore.CrashDumper
import MesCore.FileLocks
import MesCore.HardwareMutex
import MesCore.MutexGuard
import MesCore.SdMuxSessions
import MesCore.ManifestCache
import MesCore.McuFlasher
import MesCore.TelemetryRouter
import MesCore.TelemetrySession
import MesCore.Daemon
import MesCore.I2cBus
import MesCore.SpiBus
import MesCore.MicrochipIpe
import MesCore.OpenOcdRpc
