import DeltaUpdate.App.Calls
import DeltaUpdate.App.MainLoop
import DeltaUpdate.App.Refinement
import DeltaUpdate.Delta.Alike
import DeltaUpdate.Delta.Call
import DeltaUpdate.Delta.Callbacks
import DeltaUpdate.Delta.Chain
import DeltaUpdate.Delta.Confinement
import DeltaUpdate.Delta.Decision
import DeltaUpdate.Delta.Delivery
import DeltaUpdate.Delta.Deployment
import DeltaUpdate.Delta.Failure
import DeltaUpdate.Delta.Flash
import DeltaUpdate.Delta.Lockstep
import DeltaUpdate.Delta.Marker
import DeltaUpdate.Delta.Mispacked
import DeltaUpdate.Delta.Outcomes
import DeltaUpdate.Delta.Output
import DeltaUpdate.Delta.PatchCursor
import DeltaUpdate.Delta.PatchReads
import DeltaUpdate.Delta.Repeat
import DeltaUpdate.Delta.Report
import DeltaUpdate.Delta.Simulation
import DeltaUpdate.Delta.SlotEnd
import DeltaUpdate.Delta.SlotWriter
import DeltaUpdate.Delta.Source
import DeltaUpdate.Delta.Tracking
import DeltaUpdate.Delta.Upgrade
import DeltaUpdate.Delta.Wear
import DeltaUpdate.Detools.Aligned
import DeltaUpdate.Detools.Alike
import DeltaUpdate.Detools.Bounds
import DeltaUpdate.Detools.Chunked
import DeltaUpdate.Detools.Driver
import DeltaUpdate.Detools.Engine
import DeltaUpdate.Detools.Guarded
import DeltaUpdate.Detools.Loops
import DeltaUpdate.Detools.Matching
import DeltaUpdate.Detools.Potential
import DeltaUpdate.Detools.Reader
import DeltaUpdate.Detools.Resume
import DeltaUpdate.Detools.SideBySide
import DeltaUpdate.Detools.Stream
import DeltaUpdate.Detools.Termination
import DeltaUpdate.Detools.Transition
import DeltaUpdate.Heatshrink.Decoder
import DeltaUpdate.Heatshrink.Poll
import DeltaUpdate.Heatshrink.Refinement
import DeltaUpdate.Heatshrink.Session
import DeltaUpdate.Heatshrink.Steps
import DeltaUpdate.Host.Creation
import DeltaUpdate.Host.Workflow
import DeltaUpdate.Library.Bits
import DeltaUpdate.Library.Loop
import DeltaUpdate.Library.Lzss
import DeltaUpdate.Library.Paging
import DeltaUpdate.Library.Run
import DeltaUpdate.Machine
import DeltaUpdate.Patch.Acceptor
import DeltaUpdate.Patch.Encoding
import DeltaUpdate.Patch.Format
import DeltaUpdate.Patch.Sizes
import DeltaUpdate.Patch.Unambiguous
import DeltaUpdate.Patch.Verdict
import DeltaUpdate.Script.PadPatch
