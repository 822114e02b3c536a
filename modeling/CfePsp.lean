import CfePsp.Basic
import CfePsp.Lib.Runs
import CfePsp.Lib.Windows
import CfePsp.Lib.Cells
import CfePsp.Exception.Storage
import CfePsp.Exception.Ring
import CfePsp.Exception.Fifo
import CfePsp.Exception.Context
import CfePsp.Exception.Guard
import CfePsp.Memory.Cds
import CfePsp.Lib.Intervals
import CfePsp.Memory.Range
import CfePsp.Sysmon.ReadChannels
import CfePsp.Lib.Fields
import CfePsp.Module.Registry
import CfePsp.Lib.Crashes
import CfePsp.PcLinux.Boot
import CfePsp.PcLinux.CdsPersistence
import CfePsp.Lib.Layout
import CfePsp.Lib.Words
import CfePsp.Memory.ReservedMap
import CfePsp.Memory.ReservedLayout
import CfePsp.Freertos.ReservedMemory
import CfePsp.Freertos.MpfsRestart
import CfePsp.Mcp750.Boot
import CfePsp.Freertos.Timer
import CfePsp.Iodriver.Command
import CfePsp.Iodriver.Dispatch
import CfePsp.Sysmon.VxworksMonitor
import CfePsp.Sysmon.VxworksReport
import CfePsp.Lib.CString
import CfePsp.Lib.Lines
import CfePsp.Sysmon.CpuUseLine
import CfePsp.Sysmon.Schedstat
import CfePsp.Lib.Means
import CfePsp.Lib.Scaling
import CfePsp.Sysmon.LoadCode
import CfePsp.Sysmon.CpuLoad
import CfePsp.Sysmon.CpuMean
import CfePsp.Sysmon.SchedstatCpus
import CfePsp.Sysmon.LinuxLoad
import CfePsp.Sysmon.FreertosLoad
import CfePsp.Sysmon.RtemsLoad
import CfePsp.Lib.Ledger
import CfePsp.Sysmon.FreertosMonitor
import CfePsp.Freertos.Watchdog
import CfePsp.Freertos.WatchdogTicks
import CfePsp.Sysmon.LinuxMonitor
import CfePsp.Eeprom.Direct
import CfePsp.Eeprom.Frame
import CfePsp.Eeprom.MmapFile
import CfePsp.Lib.Scans
import CfePsp.Memory.RangeReason
import CfePsp.Freertos.Startup
import CfePsp.Memory.ReservedRanges
import CfePsp.Memory.ReservedAlignment
import CfePsp.PcLinux.HalfCleared
import CfePsp.Lib.Loops
import CfePsp.Lib.Ratios
import CfePsp.Timebase.Vxworks
import CfePsp.PcLinux.ExceptionLog
import CfePsp.PcLinux.LogAcrossResets
import CfePsp.Lib.Progress
import CfePsp.PcLinux.IdleTask
import CfePsp.PcLinux.SignalHandlers
import CfePsp.Lib.SharedObjects
import CfePsp.PcLinux.SharedMemory
import CfePsp.Sysmon.RtemsMonitor
import CfePsp.Lib.Sweeps
import CfePsp.Sysmon.TableMean
import CfePsp.Sysmon.VxworksSampling
import CfePsp.Sysmon.RtemsSampling
import CfePsp.Lib.Backlog
import CfePsp.Sysmon.LinuxTask
import CfePsp.Memory.DirectAccess
import CfePsp.Memory.RangeQuery
import CfePsp.Lib.Arguments
import CfePsp.Lib.Options
import CfePsp.PcLinux.CommandLine
import CfePsp.Lib.Regions
import CfePsp.Memory.ReservedAreas
import CfePsp.Mcp750.Retention
import CfePsp.Freertos.Retention
import CfePsp.Eeprom.MmapContents
import CfePsp.Lib.Counters
import CfePsp.Timebase.Elapsed
import CfePsp.Lib.Sections
import CfePsp.Iodriver.Atomic
import CfePsp.Iodriver.Completion
