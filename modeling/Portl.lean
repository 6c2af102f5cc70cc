import Portl.Caps.Roots
import Portl.Caps.UnixGlobs
import Portl.Cli.CapGrammar
import Portl.Cli.CapUnion
import Portl.Agent.Retention
import Portl.Agent.HolderBinding
import Portl.Agent.Sessions
import Portl.Agent.HelperFrames
import Portl.Agent.UdpForwarding
import Portl.Agent.UdpAccounting
import Portl.Agent.UdpReattach
import Portl.Agent.RevokeByName
import Portl.Agent.RevocationBatch
import Portl.Store.PairLabels
import Portl.Store.PairAccept
import Portl.Store.TargetResolve
import Portl.Terminal.StripperBuffer
import Portl.Terminal.BracketedPaste
import Portl.Rendezvous.Transfer
import Portl.Attach.Delivery
import Portl.Attach.Coverage
import Portl.Attach.LaneRuns
import Portl.Forward.Reverse
import Portl.Terminal.AltScreenReset
import Portl.Agent.ResizeCoalescer
import Portl.Terminal.TmuxControl
import Portl.Terminal.ZmxControl
import Portl.Wire.BufferedRecv
import Portl.Store.InviteCode
import Portl.Herdr.Budget
import Portl.Diagnostics.RedactArgs
import Portl.Terminal.ReplaySanitizer
import Portl.Rendezvous.ShortCode
import Portl.Rendezvous.Inbox
import Portl.Store.TicketReplace
import Portl.Net.Proxy
import Portl.Agent.Watchdog
import Portl.Attach.ReconnectBuffer
import Portl.Wire.Payload
import Portl.Attach.ReloadQueue
import Portl.Terminal.HostSanitizer
import Portl.Ghostty.LiveOutput
import Portl.Net.NetworkChanges
import Portl.Attach.OutputGate
import Portl.Agent.UnixListen
import Portl.Forward.SshAgent
import Portl.Agent.TmuxList
import Portl.Attach.StatusFit
import Portl.Attach.PasteScanner
import Portl.Net.AnomalyLimiter
import Portl.Diagnostics.CivilDate
import Portl.Herdr.Clipboard
