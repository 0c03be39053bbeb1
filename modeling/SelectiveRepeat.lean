import SelectiveRepeat.Link.Timing
import SelectiveRepeat.Queue.Fifo
import SelectiveRepeat.Queue.Lookup
import SelectiveRepeat.Segment.Corrupt
import SelectiveRepeat.Segment.Setters
import SelectiveRepeat.SortedList.Priority
import SelectiveRepeat.Receiver.Ownership
import SelectiveRepeat.Receiver.Reject
import SelectiveRepeat.Receiver.Uninitialised
import SelectiveRepeat.Sender.Input
import SelectiveRepeat.Sender.Ownership
import SelectiveRepeat.Sender.Rescan
import SelectiveRepeat.Sender.Stale
import SelectiveRepeat.System.Nack
import SelectiveRepeat.System.Progress
import SelectiveRepeat.System.Proxied
import SelectiveRepeat.System.Rtt
import SelectiveRepeat.System.Truncated
