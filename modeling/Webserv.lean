import Webserv.Lib.OrderedMap
import Webserv.BinaryBuffer
import Webserv.Lib.LexicalPath
import Webserv.Lib.Resumable
import Webserv.Lib.Payload
import Webserv.Lib.Transition
import Webserv.Path
import Webserv.Html
import Webserv.Message
import Webserv.Context
import Webserv.Body
import Webserv.Cgi
import Webserv.Requests
import Webserv.Client
import Webserv.HeadParsing
import Webserv.CgiSelection
import Webserv.Lib.LongestPrefix
import Webserv.LocationMatching
import Webserv.RootConfinement
import Webserv.Effects.Output
import Webserv.Effects.Processing
import Webserv.Effects.Starting
import Webserv.Effects.Uploading
import Webserv.Effects.Saving
import Webserv.Phases
import Webserv.ResponseStream
import Webserv.HeadFirst
import Webserv.CgiSockets
import Webserv.StickyErrors
import Webserv.VirtualHosts
import Webserv.Calls
import Webserv.SendTimeout
import Webserv.EventLoop
import Webserv.ConnectionTable
import Webserv.EventBatch
import Webserv.Draining
import Webserv.CgiRelay
import Webserv.CgiResponse
import Webserv.Idle
import Webserv.Steps
import Webserv.BodyLimit
import Webserv.FailedUploads
import Webserv.Disk
import Webserv.UploadIsolation
import Webserv.Dispatch
import Webserv.Configuration.Directives
import Webserv.Configuration.Lines
import Webserv.Configuration.Entries
import Webserv.Configuration.Items
import Webserv.Configuration.Cursor
import Webserv.Configuration.Grammar
import Webserv.Configuration.Inheritance
import Webserv.Configuration.ErrorPages
import Webserv.Configuration.Routing
import Webserv.HeadAgreement
import Webserv.HeaderLines
import Webserv.BodyFraming
import Webserv.CgiBuilder
import Webserv.HeaderNames
import Webserv.Resolution
import Webserv.BodyTimeout
import Webserv.ContentLength
import Webserv.ChunkLines
import Webserv.RequestLine
import Webserv.AtomicSave
import Webserv.RoutePaths
import Webserv.HeadRequests
import Webserv.ResponseLength
import Webserv.Configuration.Numbers
import Webserv.AnnouncedSize
import Webserv.CgiErrors
import Webserv.CgiHeaders
import Webserv.CgiNames
import Webserv.HostPort
import Webserv.BodyProducer
import Webserv.Unread
import Webserv.UploadStart
import Webserv.UploadFidelity
import Webserv.Lib.FirstDifference
import Webserv.BufferOrder
import Webserv.BufferRanges
import Webserv.BufferSearch
import Webserv.Configuration.TokenLines
import Webserv.PathForm
import Webserv.PercentDecoding
import Webserv.DirectoryListing
import Webserv.DirectoryRedirects
import Webserv.ServerLoop
import Webserv.Descriptors
import Webserv.ServerClients
import Webserv.Exceptions
import Webserv.Sweep
import Webserv.Boot
import Webserv.Crashes
import Webserv.Footprint
import Webserv.Writes
import Webserv.ResponseFormat
import Webserv.ResponseHeads
