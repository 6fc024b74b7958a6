import Clash.Lib.CProg
import Clash.Lib.CString
import Clash.Lib.Yaml.Content
import Clash.Convert.Flag
import Clash.Convert.Defs
import Clash.Convert.Emission
import Clash.Convert.Run
import Clash.Convert.Output
import Clash.Convert.Alignment
import Clash.Lib.PercentEncoding
import Clash.Profile.Defs
import Clash.Profile.Search
import Clash.Profile.Layout
import Clash.Restful.Defs
import Clash.Restful.Selection
import Clash.Restful.Agreement
import Clash.Lib.Base64
import Clash.Lib.Uri
import Clash.Sip002.Defs
import Clash.Sip002.RoundTrip
import Clash.Lib.Runs
import Clash.Tun.Threads
import Clash.Tun.StartStop
import Clash.Lib.Records
import Clash.Lib.Rtnetlink
import Clash.Tun.Attr
import Clash.Tun.Attributes
import Clash.Tun.Requests
import Clash.Tun.Netlink
import Clash.Tun.Kernel
import Clash.Tun.Receive
import Clash.Tun.Gateway
import Clash.Tun.Exchange
import Clash.Tun.Main
import Clash.Tun.Routes
import Clash.Tun.Sessions
import Clash.Convert.Skipping
import Clash.Convert.Grouping
import Clash.Convert.Overflow
import Clash.Lib.HalfBlocks
import Clash.Sip002.QrUnicode
import Clash.Tun.Packing
import Clash.Tun.Operations
import Clash.Tun.Rounds
import Clash.Lib.ProgramLogic
import Clash.Tun.Privilege
import Clash.Tun.Escalated
import Clash.Tun.Brackets
import Clash.Tun.Interleaving
import Clash.Lib.Regex
import Clash.Profile.Json
import Clash.Profile.Resolv
import Clash.Profile.Reading
import Clash.Profile.Accepted
import Clash.Convert.Titles
import Clash.Convert.Comparison
import Clash.Convert.Header
import Clash.Lib.Termination
import Clash.Profile.Termination
import Clash.Profile.Nested
import Clash.Tun.Capacity
import Clash.Tun.Dump
import Clash.Lib.FileSystem
import Clash.Profile.File
import Clash.Lib.LeadCode
import Clash.Convert.Utf8Count
import Clash.Convert.Utf8Files
import Clash.Profile.Port
import Clash.Restful.Buffer
import Clash.Lib.Traces
import Clash.Lib.Directory
import Clash.Tun.Progress
import Clash.Tun.Program
import Clash.Tun.Milestones
import Clash.Tun.Resolver
import Clash.Tun.Restored
import Clash.Tun.Frame
import Clash.Sip002.Program
import Clash.Sip002.Selected
