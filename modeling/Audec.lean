import Audec.Arrangement.Dirty
import Audec.Arrangement.Shape
import Audec.Arrangement.Replay
import Audec.Arrangement.Kept
import Audec.PatternLang.Reprint
import Audec.PatternLang.Placement
import Audec.PatternLang.Euclid
import Audec.PatternLang.LaneIdentity
import Audec.TaskCoordinator.Liveness
import Audec.TaskCoordinator.Progress
import Audec.PluginWire.Untouched
import Audec.PluginWire.Lines
import Audec.CommandJournal.Torn
import Audec.TimelineScene.Invalidation
import Audec.Session.TreeWalk
import Audec.Render.Invalidation
import Audec.Render.Impacts
import Audec.Render.Scheduling
import Audec.Render.Incremental
import Audec.Media.Finalized
import Audec.Media.Leases
import Audec.Media.Reading
import Audec.Media.Decoding
import Audec.Content.Canonical
import Audec.Broker.Accounts
import Audec.Broker.Foreground
import Audec.Content.Pinned
import Audec.Content.Hashing
import Audec.Playback.Audition
import Audec.Playback.Coverage
import Audec.Playback.Service
import Audec.Playback.Handshake
import Audec.Playback.Progressive
import Audec.Playback.Timing
import Audec.DawEngine.Instruments
import Audec.DawRender.Prefetch
import Audec.Render.Ambiguity
import Audec.Render.Partition
import Audec.Render.Catalog
import Audec.Sequencer.Frames
import Audec.Sequencer.Runs
import Audec.Sequencer.Positions
import Audec.Sequencer.BarLines
import Audec.Sequencer.Draws
import Audec.MusicalTime.Editing
import Audec.ProjectStore.History
import Audec.ProjectDocument.Cursor
import Audec.Mixer.Solo
import Audec.Mixer.Latency
import Audec.Mixer.Moves
import Audec.Workspace.Redock
import Audec.Automation.Edits
import Audec.Automation.History
