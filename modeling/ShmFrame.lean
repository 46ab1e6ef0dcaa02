import ShmFrame.Foundation.Run
import ShmFrame.Foundation.Loop
import ShmFrame.Foundation.Window
import ShmFrame.Foundation.Party
import ShmFrame.Foundation.Counter
import ShmFrame.Foundation.Fifo
import ShmFrame.Foundation.Seqlock
import ShmFrame.Foundation.Blind
import ShmFrame.Foundation.Span
import ShmFrame.Foundation.Strided
import ShmFrame.Foundation.WordTerm
import ShmFrame.Foundation.Steady
import ShmFrame.Foundation.Effects
import ShmFrame.Foundation.Hidden
import ShmFrame.Accesses.Signature
import ShmFrame.Accesses.Subscriber
import ShmFrame.Accesses.Areas
import ShmFrame.Accesses.Confined
import ShmFrame.Accesses.SegmentContent
import ShmFrame.Accesses.FramePath
import ShmFrame.Accesses.Independence
import ShmFrame.Accesses.Repacking
import ShmFrame.Accesses.Reconnecting
import ShmFrame.Accesses.VectorRead
import ShmFrame.Segment.Config
import ShmFrame.Segment.Endpoints
import ShmFrame.Segment.Header
import ShmFrame.Segment.Layout
import ShmFrame.Frames.Publisher
import ShmFrame.Frames.Subscriber
import ShmFrame.Frames.WriterInvariant
import ShmFrame.Frames.WriterProgress
import ShmFrame.Frames.ReaderInvariant
import ShmFrame.Frames.FrameSizes
import ShmFrame.Frames.NoTearing
import ShmFrame.Frames.FrameOrder
import ShmFrame.Frames.Contention
import ShmFrame.Commands.Ring
import ShmFrame.Commands.RingInvariant
import ShmFrame.Commands.RingLossless
import ShmFrame.Commands.Ownership
import ShmFrame.Commands.OwnerExclusive
import ShmFrame.Commands.OwnerAlive
import ShmFrame.Commands.Channel
import ShmFrame.Commands.ChannelExactlyOnce
import ShmFrame.Names.Create
import ShmFrame.Names.NameKept
import ShmFrame.Names.SystemCalls
import ShmFrame.Names.FailedCreate
import ShmFrame.Names.SegmentBytes
import ShmFrame.Names.Lifetimes
import ShmFrame.Names.HeartbeatAge
import ShmFrame.Calls.Subscriber
import ShmFrame.Calls.Publisher
import ShmFrame.Calls.Unnoticed
import ShmFrame.Calls.PublisherInvariant
import ShmFrame.Calls.CancelledWrite
import ShmFrame.Calls.Geometry
import ShmFrame.Calls.Connect
import ShmFrame.Calls.Attach
import ShmFrame.Commands.RingCalls
import ShmFrame.Calls.Traffic
import ShmFrame.Calls.Polling
import ShmFrame.Calls.Tracking
import ShmFrame.Calls.Reattach
import ShmFrame.Calls.Evidence
import ShmFrame.Calls.Claiming
import ShmFrame.Calls.Exchange
import ShmFrame.Calls.Conversation
import ShmFrame.Calls.Replies
import ShmFrame.Calls.CommandBytes
import ShmFrame.Calls.PublishRate
import ShmFrame.Calls.ReadRate
import ShmFrame.Bitmap.Dump
import ShmFrame.Bitmap.Rows
import ShmFrame.Bitmap.Decode
import ShmFrame.Accesses.Alone
import ShmFrame.Accesses.Dialogue
import ShmFrame.Accesses.LockFree
import ShmFrame.Accesses.Speaking
import ShmFrame.Accesses.SpokenBytes
import ShmFrame.Accesses.WaitFree
import ShmFrame.Bitmap.Truncation
import ShmFrame.Calls.Accounting
import ShmFrame.Calls.Farewell
import ShmFrame.Foundation.Guarded
import ShmFrame.Foundation.Handles
import ShmFrame.Multiview.Canvas
import ShmFrame.Multiview.Lawful
import ShmFrame.Multiview.MainLoop
import ShmFrame.Names.Stragglers
import ShmFrame.Segment.SessionId
