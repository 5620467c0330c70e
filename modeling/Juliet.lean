import Juliet.Checked
import Juliet.Incremental
import Juliet.Basics
import Juliet.Header
import Juliet.Varint
import Juliet.OutgoingMessage
import Juliet.FrameBytes
import Juliet.ToBytes
import Juliet.Multiframe
import Juliet.MultiframeAccept
import Juliet.Protocol
import Juliet.ProcessIncoming
import Juliet.ChannelStep
import Juliet.FrameStep
import Juliet.LocalCalls
import Juliet.ProtocolRuns
import Juliet.ChunkedInput
import Juliet.TransferFrames
import Juliet.HonestFrame
import Juliet.Balance
import Juliet.PeerNet
import Juliet.PeerInvariant
import Juliet.PeerRuns
import Juliet.PeerAgreement
import Juliet.BiMap
import Juliet.Transition
import Juliet.IoCore
import Juliet.IoTask
import Juliet.IoSteps
import Juliet.TaskSteps
import Juliet.IoSound
import Juliet.PendingError
import Juliet.FrameAlignment
import Juliet.ErrorExit
import Juliet.Answers
import Juliet.WaitQueue
import Juliet.WaitingItems
import Juliet.RequestIds
import Juliet.CancelOrder
import Juliet.AnswerIds
import Juliet.AnswerEvents
import Juliet.Accounting
import Juliet.Alternation
import Juliet.CancelBudget
import Juliet.CancelReports
import Juliet.Coupling
import Juliet.CouplingFrames
import Juliet.CouplingReads
import Juliet.CouplingTasks
import Juliet.Exchange
import Juliet.IdReuse
import Juliet.IoNet
import Juliet.Reassembly
import Juliet.ByteReads
import Juliet.CustomErrors
import Juliet.Demand
import Juliet.ErrorReport
import Juliet.FailedCalls
import Juliet.CancelOnce
import Juliet.LocalViolations
import Juliet.LostCancels
import Juliet.Rpc
import Juliet.RpcCustody
import Juliet.VarintGrammar
import Juliet.FirstFreeId
import Juliet.Timeouts
import Juliet.ItemChannels
import Juliet.NarrowUsize
import Juliet.Prefixes
import Juliet.Tally
import Juliet.Conversation
import Juliet.AnswerOwners
import Juliet.RequestCustody
import Juliet.EndToEnd
import Juliet.Quiescence
import Juliet.RoundRobin
import Juliet.FrameTurns
import Juliet.GuardWaiting
import Juliet.OtherErrors
