import CanfdDriver.Hal.Common
import CanfdDriver.Lib.Prog
import CanfdDriver.Lib.Reach
import CanfdDriver.Lib.Ring
import CanfdDriver.Lib.MaskedWrite
import CanfdDriver.Lib.Bytes
import CanfdDriver.Lib.Clock
import CanfdDriver.Hal.Node
import CanfdDriver.Hal.Isr
import CanfdDriver.Hal.BitTiming
import CanfdDriver.Hal.TimingWords
import CanfdDriver.Lib.Lockstep
import CanfdDriver.Cmsis.Driver
import CanfdDriver.System.State
import CanfdDriver.Hal.Effects
import CanfdDriver.Hal.Run
import CanfdDriver.Hal.Polling
import CanfdDriver.Hal.Switches
import CanfdDriver.Lib.Runs
import CanfdDriver.Hal.Arming
import CanfdDriver.Hal.TxSide
import CanfdDriver.Hal.Preemption
import CanfdDriver.Hal.Retiming
import CanfdDriver.Cmsis.Effects
import CanfdDriver.Cmsis.Traffic
import CanfdDriver.Cmsis.Run
import CanfdDriver.Cmsis.View
import CanfdDriver.Cmsis.LifeCycle
import CanfdDriver.Cmsis.Powered
import CanfdDriver.Cmsis.Configuration
import CanfdDriver.Cmsis.PowerCycle
import CanfdDriver.Cmsis.Division
import CanfdDriver.Cmsis.Failure
import CanfdDriver.Cmsis.Phases
import CanfdDriver.Cmsis.SamplePoint
import CanfdDriver.Cmsis.Queue
import CanfdDriver.Cmsis.Delivery
import CanfdDriver.Cmsis.Sending
import CanfdDriver.Cmsis.Interleaving
import CanfdDriver.Cmsis.Classic
import CanfdDriver.Cmsis.Signals
import CanfdDriver.Cmsis.Handler
import CanfdDriver.Cmsis.Reader
import CanfdDriver.Cmsis.Restart
import CanfdDriver.Hal.Reception
import CanfdDriver.Cmsis.Reception
import CanfdDriver.System.Hal
import CanfdDriver.System.Driver
import CanfdDriver.System.Mirror
import CanfdDriver.System.MessageRam
import CanfdDriver.System.Region
import CanfdDriver.System.Isolation
import CanfdDriver.System.Noninterference
import CanfdDriver.Lib.Medium
import CanfdDriver.Lib.Thread
import CanfdDriver.Lib.Oblivious
import CanfdDriver.Hal.Content
import CanfdDriver.Bus.Held
import CanfdDriver.Bus.Node
import CanfdDriver.Bus.Network
import CanfdDriver.Bus.Progress
import CanfdDriver.Cmsis.Requests
import CanfdDriver.Cmsis.Unseen
import CanfdDriver.Cmsis.Automaton
import CanfdDriver.Lib.Rely
import CanfdDriver.Hal.Discipline
import CanfdDriver.Cmsis.Discipline
import CanfdDriver.Lib.Logged
import CanfdDriver.Hal.Events
import CanfdDriver.Hal.Unwired
import CanfdDriver.Hal.Accounting
import CanfdDriver.Cmsis.Vectors
import CanfdDriver.Bus.Gateway
