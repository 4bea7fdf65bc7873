import Satellite.Topology.Guarantees
import Satellite.Pairing.Disclosure
import Satellite.Pointer.Queue
import Satellite.Update.Progress
import Satellite.Update.Skips
import Satellite.Update.Install
import Satellite.Update.Repair
import Satellite.Feedback.Replay
import Satellite.Audio.Accounting
import Satellite.Generation.Rule
import Satellite.Config.Shutdown
import Satellite.Log.Passes
import Satellite.Log.Truncation
import Satellite.Mdns.KnownAnswers
import Satellite.Mdns.Tiebreak
import Satellite.Hid.Mailbox
import Satellite.Audio.Resampler
import Satellite.Audio.MicRate
import Satellite.Audio.Windows
import Satellite.Feedback.Mixing
import Satellite.Net.Origin
import Satellite.Mdns.Agreement
import Satellite.Mdns.Authority
import Satellite.Pointer.Contention
import Satellite.Log.Ring
import Satellite.Events.Broadcaster
import Satellite.Hot.Fused
import Satellite.Hid.OutputRing
import Satellite.Pointer.Injection
import Satellite.Pointer.Wake
import Satellite.Config.Numbers
