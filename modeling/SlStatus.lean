import SlStatus.Runs
import SlStatus.Table
import SlStatus.Printstatus
import SlStatus.Isolation
import SlStatus.Slots
import SlStatus.MainLoop
import SlStatus.Steps
import SlStatus.Ending
import SlStatus.History
import SlStatus.Passes
import SlStatus.Wakeup
import SlStatus.Delivery
import SlStatus.Schedule
import SlStatus.Publication
import SlStatus.Handlers
import SlStatus.NetworkManager
import SlStatus.Roaming
import SlStatus.Netlink
import SlStatus.Wifi
import SlStatus.Station
import SlStatus.StationDump
import SlStatus.RequestReply
import SlStatus.Display
import SlStatus.Caches
import SlStatus.UPower
import SlStatus.ModemManager
import SlStatus.Backlights
import SlStatus.DeviceCaches
import SlStatus.Replugging
import SlStatus.Connected
import SlStatus.Mirrors
import SlStatus.DeviceMirrors
import SlStatus.BacklightThread
import SlStatus.Sndio
import SlStatus.PulseAudio
import SlStatus.Dispatches
import SlStatus.SinkLookup
import SlStatus.SilentChanges
import SlStatus.Netspeeds
import SlStatus.ShownSpeeds
import SlStatus.LastWord
import SlStatus.SinkServer
import SlStatus.SinkInvariant
import SlStatus.SinkChanges
import SlStatus.SinkDeliveries
import SlStatus.SinkCoherence
import SlStatus.Walk
import SlStatus.AttributeWalk
import SlStatus.MessageWalk
import SlStatus.AttributeBounds
import SlStatus.AttributeLookup
import SlStatus.Ifindex
import SlStatus.SleepArithmetic
import SlStatus.SpeedHistory
import SlStatus.CpuUsage
import SlStatus.Scanf
import SlStatus.Battery
import SlStatus.BatteryRemaining
import SlStatus.Swap
import SlStatus.SwapOrder
import SlStatus.Integers
import SlStatus.OpenBsdSwap
import SlStatus.Memory
import SlStatus.Percentages
import SlStatus.ByteQuantities
import SlStatus.HalfEven
import SlStatus.FmtHuman
import SlStatus.Strtok
import SlStatus.Keymap
import SlStatus.SndioVolume
import SlStatus.PortReads
import SlStatus.PowerProfile
import SlStatus.DevicePointers
import SlStatus.SndioSession
import SlStatus.SinkStrings
import SlStatus.ControlPointers
import SlStatus.Arguments
import SlStatus.WifiRequests
import SlStatus.CpuUsageBsd
import SlStatus.BinaryFloat
import SlStatus.AlsaVolume
import SlStatus.DoubleHuman
import SlStatus.DoubleRemaining
import SlStatus.LongDoubleUsage
import SlStatus.KeyboardIndicators
import SlStatus.FirstLine
import SlStatus.OssVolume
import SlStatus.StartupCompletion
import SlStatus.Temperature
import SlStatus.DiskUsage
import SlStatus.Brightness
