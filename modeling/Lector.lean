import Lector.Gateway.HandBack
import Lector.Gateway.Recovery
import Lector.Gateway.Coalescer
import Lector.View.Stabilization
import Lector.Input.Tokenizer
import Lector.Input.KeyEcho
import Lector.Input.KeyPresses
import Lector.Input.Deferring
import Lector.Topology.Reconciliation
import Lector.Layout.Partition
import Lector.View.Verdicts
import Lector.View.Displayed
import Lector.View.Evidence
import Lector.View.Compaction
import Lector.Review.Operators
import Lector.Probe.Interleaving
import Lector.Probe.Fence
import Lector.Presentation.FullRepaint
import Lector.Presentation.RetainedRepaint
import Lector.Presentation.DisjointPanes
import Lector.Presentation.Replay
import Lector.Lifecycle.Leaks
import Lector.Lifecycle.Sizes
import Lector.Tmux.Paste
import Lector.Tmux.BackgroundOutput
import Lector.Speech.Interrupts
import Lector.Speech.FailSafe
import Lector.Speech.Frames
import Lector.Speech.Rates
import Lector.Stack.Addressable
import Lector.Terminal.PrintedRuns
import Lector.Terminal.RawFraming
import Lector.Terminal.RowRanges
import Lector.Control.Escapes
import Lector.Control.Limits
import Lector.Output.Titles
import Lector.Presentation.Occlusion
import Lector.Topology.InPlace
import Lector.View.Anchors
import Lector.View.JournalLimits
import Lector.Tmux.Rebuilding
import Lector.Review.Counts
import Lector.Tmux.SendKeys
import Lector.Panes.Prebootstrap
import Lector.Review.Viewport
import Lector.Table.Detectors
import Lector.Review.Yanking
import Lector.Review.Search
import Lector.Review.Braces
import Lector.Review.Segments
import Lector.Review.Words
import Lector.Input.ChildWrites
import Lector.Input.LineEditor
import Lector.Presentation.Transport
import Lector.Probe.FocusMode
import Lector.Tmux.Mouse
import Lector.View.Repl
