import Afpfs.Lib.Interaction
import Afpfs.Lib.PointerList
import Afpfs.Lib.Scan
import Afpfs.Lib.Transition
import Afpfs.Lib.Wire
import Afpfs.Lib.Memory
import Afpfs.Server.ServerList
import Afpfs.Unicode.Table
import Afpfs.Unicode.Precompose
import Afpfs.Unicode.Codec
import Afpfs.Codepage
import Afpfs.Protocol
import Afpfs.Volume
import Afpfs.ReplyBlock
import Afpfs.PathBlock
import Afpfs.SetParms
import Afpfs.Did
import Afpfs.PathResolution
import Afpfs.Lowlevel
import Afpfs.Writing
import Afpfs.Translate
import Afpfs.Create
import Afpfs.Open
import Afpfs.Resource
import Afpfs.Midlevel
import Afpfs.ReadOnly
import Afpfs.Success
import Afpfs.Chmod
import Afpfs.Enumerate
import Afpfs.DidCache
import Afpfs.Url
import Afpfs.Rename
import Afpfs.AppleDouble
import Afpfs.RealFiles
import Afpfs.Confined
import Afpfs.CacheUse
import Afpfs.CacheCoherence
import Afpfs.Dsi.Receive
import Afpfs.Dsi.Reassembly
import Afpfs.Dsi.BufferBounds
import Afpfs.Dsi.Routing
import Afpfs.Dsi.Send
import Afpfs.Dsi.Client
import Afpfs.Dsi.Cleanup
import Afpfs.Dsi.Lifetime
import Afpfs.Dsi.Framing
import Afpfs.Daemon.Interface
import Afpfs.Daemon.Answer
import Afpfs.Daemon.Getvols
import Afpfs.Daemon.Readdir
import Afpfs.Daemon.Requests
import Afpfs.Daemon.EventLoop
import Afpfs.Daemon.ClientPool
import Afpfs.Daemon.Handlers
import Afpfs.Server.Negotiation
import Afpfs.Server.Login
import Afpfs.Server.Completion
import Afpfs.Server.Lifecycle
import Afpfs.Placement
import Afpfs.Locking
import Afpfs.Reading
import Afpfs.EnumerateErrors
import Afpfs.Dsi.Delivery
import Afpfs.ReadCapacity
import Afpfs.ReplyParams
import Afpfs.Server.GetStatus
import Afpfs.EnumerateReply
import Afpfs.ParserBounds
import Afpfs.MetadataRead
import Afpfs.MetadataWrite
import Afpfs.Listing
import Afpfs.Truncate
import Afpfs.Lib.Fold
import Afpfs.Lib.Printing
import Afpfs.Lib.UniformSearch
import Afpfs.Unicode.Lookup
import Afpfs.Lib.Bytes
import Afpfs.Lib.ByteShift
import Afpfs.Server.KeyRotation
import Afpfs.Unescape
import Afpfs.Cmdline.EscapePaths
import Afpfs.Server.VolumeParms
import Afpfs.Server.VolumeList
import Afpfs.Server.FindVolume
import Afpfs.Server.Passwd
import Afpfs.Server.AuthLayout
import Afpfs.Unicode.Canonical
import Afpfs.Unicode.Decoding
import Afpfs.Composition
import Afpfs.FileNames
import Afpfs.Fuse
import Afpfs.UrlSearch
import Afpfs.ReplyCopies
import Afpfs.SessionToken
import Afpfs.Status
import Afpfs.Dsi.Unmatched
import Afpfs.Forks
import Afpfs.Lib.File
import Afpfs.FileServer
import Afpfs.FileAccess
import Afpfs.Lib.Hierarchy
import Afpfs.DirectoryServer
import Afpfs.DirectorySession
import Afpfs.Cmdline.Transfer
import Afpfs.Cmdline.Shell
import Afpfs.Lib.Record
import Afpfs.RequestWire
import Afpfs.RequestArrives
import Afpfs.RequestStream
import Afpfs.Cmdline.RecursiveGet
