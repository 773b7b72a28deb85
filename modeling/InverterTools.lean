import InverterTools.Framing
import InverterTools.Segments
import InverterTools.Readback
import InverterTools.Response
import InverterTools.Printing
import InverterTools.Pacing
import InverterTools.AcceptLoop
import InverterTools.Grammar
import InverterTools.Transactions
import InverterTools.Inverterctl
import InverterTools.ErrorContract
import InverterTools.ResponseFraming
import InverterTools.Corruption
import InverterTools.ArgumentErrors
import InverterTools.TypedNumbers
import InverterTools.Parameters
import InverterTools.Leftovers
import InverterTools.DriverFailures
import InverterTools.Waits
import InverterTools.Unverified
import InverterTools.Sessions
import InverterTools.RequestGrammar
import InverterTools.ReadAfterSet
import InverterTools.ExitStatus
import InverterTools.SimpleTable
import InverterTools.ClientMutex
import InverterTools.Conversation
import InverterTools.Daemon
import InverterTools.FrontEnds
import InverterTools.JsonOutput
import InverterTools.Deadline
import InverterTools.Inverterd
import InverterTools.FormatOrder
import InverterTools.Inverter
import InverterTools.Control
import InverterTools.Linearised
