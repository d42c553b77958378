import GoProbe.Header
import GoProbe.GPFile
import GoProbe.BlockStore
import GoProbe.HeaderInvariant
import GoProbe.Recovery
import GoProbe.RoundTrip
import GoProbe.BlockCount
import GoProbe.BlockMap
import GoProbe.Capture
import GoProbe.Process
import GoProbe.Concurrency
import GoProbe.Lifecycle
import GoProbe.Rows
import GoProbe.RowsMap
