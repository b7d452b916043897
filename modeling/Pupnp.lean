import Pupnp.Api.Dispatch
import Pupnp.Api.HandleTable
import Pupnp.Api.IfInfo
import Pupnp.Api.Registration
import Pupnp.Api.RootDevice
import Pupnp.Api.Shared
import Pupnp.Api.UlaGua
import Pupnp.Api.VirtualDirs
import Pupnp.Gena.AutoRenew
import Pupnp.Gena.ClientHeap
import Pupnp.Gena.ClientTable
import Pupnp.Gena.Counter
import Pupnp.Gena.Delivery
import Pupnp.Gena.DeliveryUrls
import Pupnp.Gena.Device
import Pupnp.Gena.Flight
import Pupnp.Gena.InitNotify
import Pupnp.Gena.Lane
import Pupnp.Gena.Memory
import Pupnp.Gena.Mirror
import Pupnp.Gena.Notification
import Pupnp.Gena.Order
import Pupnp.Gena.PropertySet
import Pupnp.Gena.QueueLimit
import Pupnp.Gena.References
import Pupnp.Gena.Subscribe
import Pupnp.Gena.SubscribeMessage
import Pupnp.Gena.SubscribeRound
import Pupnp.Gena.SubscribeUrl
import Pupnp.Gena.Subscribing
import Pupnp.Gena.TimeOut
import Pupnp.Gena.UrlList
import Pupnp.Gena.Uuid
import Pupnp.Http.Alike
import Pupnp.Http.ChunkSizes
import Pupnp.Http.ChunkWriter
import Pupnp.Http.ChunkedBody
import Pupnp.Http.Discard
import Pupnp.Http.Entity
import Pupnp.Http.EntityRun
import Pupnp.Http.Fragment
import Pupnp.Http.Fragmentation
import Pupnp.Http.Good
import Pupnp.Http.HeaderLine
import Pupnp.Http.HeaderLines
import Pupnp.Http.Identifiers
import Pupnp.Http.Length
import Pupnp.Http.Match
import Pupnp.Http.MatchBounds
import Pupnp.Http.Message
import Pupnp.Http.Method
import Pupnp.Http.NameTable
import Pupnp.Http.Parser
import Pupnp.Http.Progress
import Pupnp.Http.ReadEntity
import Pupnp.Http.ReadResponse
import Pupnp.Http.ReadRun
import Pupnp.Http.ReadTimeout
import Pupnp.Http.Received
import Pupnp.Http.RecvMessage
import Pupnp.Http.RequestCut
import Pupnp.Http.Resume
import Pupnp.Http.Scanner
import Pupnp.Http.Stable
import Pupnp.Http.StatusLine
import Pupnp.Http.StatusMessage
import Pupnp.Http.Trailers
import Pupnp.Http.Whole
import Pupnp.Ixml.AttrLists
import Pupnp.Ixml.AttrNS
import Pupnp.Ixml.AttrRuns
import Pupnp.Ixml.Attributes
import Pupnp.Ixml.Built
import Pupnp.Ixml.Calls
import Pupnp.Ixml.CdataSection
import Pupnp.Ixml.CharRef
import Pupnp.Ixml.Chars
import Pupnp.Ixml.Clone
import Pupnp.Ixml.Copy
import Pupnp.Ixml.Document
import Pupnp.Ixml.DocumentPrint
import Pupnp.Ixml.Dom
import Pupnp.Ixml.Encoding
import Pupnp.Ixml.Escape
import Pupnp.Ixml.Events
import Pupnp.Ixml.Forest
import Pupnp.Ixml.Free
import Pupnp.Ixml.Hierarchy
import Pupnp.Ixml.Kept
import Pupnp.Ixml.Names
import Pupnp.Ixml.Namespaces
import Pupnp.Ixml.Node
import Pupnp.Ixml.Parser
import Pupnp.Ixml.Print
import Pupnp.Ixml.PrintedNodes
import Pupnp.Ixml.PrintedTokens
import Pupnp.Ixml.PrintedValues
import Pupnp.Ixml.Reparse
import Pupnp.Ixml.Reprint
import Pupnp.Ixml.Root
import Pupnp.Ixml.Round
import Pupnp.Ixml.Skip
import Pupnp.Ixml.TagNames
import Pupnp.Ixml.Text
import Pupnp.Ixml.Token
import Pupnp.Ixml.Utf8
import Pupnp.Ixml.ValidNames
import Pupnp.Ixml.Walk
import Pupnp.Ixml.WholeCopy
import Pupnp.Library.BinarySearch
import Pupnp.Library.Bits
import Pupnp.Library.Buffer
import Pupnp.Library.CString
import Pupnp.Library.Cells
import Pupnp.Library.Decimal
import Pupnp.Library.DotSegments
import Pupnp.Library.Hex
import Pupnp.Library.Linked
import Pupnp.Library.LinkedHeap
import Pupnp.Library.OrderedMap
import Pupnp.Library.Path
import Pupnp.Library.RefCount
import Pupnp.Library.Run
import Pupnp.Library.Stream
import Pupnp.Library.Substring
import Pupnp.MiniServer.BindListen
import Pupnp.MiniServer.HostHeader
import Pupnp.Services.Build
import Pupnp.Services.Remove
import Pupnp.Services.Table
import Pupnp.Soap.ActionHeader
import Pupnp.Soap.ActionLine
import Pupnp.Soap.ManHeader
import Pupnp.Soap.Paths
import Pupnp.Soap.Request
import Pupnp.Soap.Resent
import Pupnp.Soap.Response
import Pupnp.Soap.Success
import Pupnp.Ssdp.Advertise
import Pupnp.Ssdp.Announce
import Pupnp.Ssdp.AutoAdvertise
import Pupnp.Ssdp.CtrlPt
import Pupnp.Ssdp.DeviceRequest
import Pupnp.Ssdp.NameBuffers
import Pupnp.Ssdp.Names
import Pupnp.Ssdp.Packet
import Pupnp.Ssdp.Receive
import Pupnp.Ssdp.Reply
import Pupnp.Ssdp.RoundTrip
import Pupnp.Ssdp.Search
import Pupnp.Ssdp.SearchExpiry
import Pupnp.Ssdp.SearchMatch
import Pupnp.Ssdp.Target
import Pupnp.ThreadPool.Accounting
import Pupnp.ThreadPool.Counters
import Pupnp.ThreadPool.HandOver
import Pupnp.ThreadPool.IdleTime
import Pupnp.ThreadPool.JobIds
import Pupnp.ThreadPool.LinkedList
import Pupnp.ThreadPool.ListLayout
import Pupnp.ThreadPool.ListOperations
import Pupnp.ThreadPool.ListRuns
import Pupnp.ThreadPool.Persistent
import Pupnp.ThreadPool.Pool
import Pupnp.ThreadPool.Starvation
import Pupnp.ThreadPool.TimerRuns
import Pupnp.ThreadPool.TimerThread
import Pupnp.ThreadPool.Traced
import Pupnp.Uri.Dots
import Pupnp.Uri.InPlace
import Pupnp.Uri.Normal
import Pupnp.Uri.Parse
import Pupnp.Uri.Port
import Pupnp.Uri.Reads
import Pupnp.Uri.RemoveDots
import Pupnp.Uri.Resolve
import Pupnp.Uri.Tokens
import Pupnp.Util.Membuffer
import Pupnp.Util.MembufferRuns
import Pupnp.Web.AliasDocument
import Pupnp.Web.AliasRequests
import Pupnp.Web.DocumentRoot
import Pupnp.Web.Framing
import Pupnp.Web.ProcessRequest
import Pupnp.Web.Range
import Pupnp.Web.Response
import Pupnp.Web.SendInstruction
import Pupnp.Web.SendMessage
import Pupnp.Web.UrlConfig
