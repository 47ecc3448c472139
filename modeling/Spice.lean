import Spice.Lib.Run
import Spice.Lib.Bytes
import Spice.Lib.Buffered
import Spice.Lib.Fill
import Spice.Lib.HashRing
import Spice.Lib.Recency
import Spice.Lib.Accesses
import Spice.Lib.Int32
import Spice.Lib.Sweep
import Spice.Lz.Common
import Spice.Lz.LiteralRun
import Spice.Lz.Compress
import Spice.Lz.Decompress
import Spice.Lz.Codec
import Spice.Lz.MatchSearch
import Spice.Lz.Tokens
import Spice.Lz.Passes
import Spice.Lz.Lossless
import Spice.Glz.DecoderWindow
import Spice.Glz.WindowRetention
import Spice.Glz.WindowRelease
import Spice.Marshaller.Model
import Spice.Marshaller.Accounting
import Spice.Marshaller.Coverage
import Spice.CharDevice.Model
import Spice.CharDevice.WriteTokens
import Spice.CharDevice.SendView
import Spice.CharDevice.SendTokens
import Spice.CharDevice.WriteStream
import Spice.Channel.Incoming
import Spice.Channel.IncomingFraming
import Spice.Channel.Outgoing
import Spice.Channel.OutgoingStream
import Spice.Channel.AckWindow
import Spice.Channel.Serials
import Spice.Dispatcher.Model
import Spice.Dispatcher.Handoff
import Spice.Channel.Migration
import Spice.Worker.Dependencies
import Spice.Worker.SurfaceRefs
import Spice.Worker.GuestResources
import Spice.Worker.OnDemand
import Spice.Worker.Tree
import Spice.Worker.CurrentList
import Spice.Worker.Counters
import Spice.Worker.DrawablePool
import Spice.Worker.StreamRefs
import Spice.Cache.ClientCache
import Spice.Cache.ClientMirror
import Spice.Cache.PixmapCache
import Spice.Cache.PixmapPinning
import Spice.Avc.Model
import Spice.Avc.Frames
import Spice.Avc.EncoderBuffer
import Spice.Avc.Freshness
import Spice.Avc.Decoder
import Spice.Avc.EncoderSession
import Spice.Agent.Filter
import Spice.Link.Model
import Spice.Link.Authentication
import Spice.Agent.MessageFilter
import Spice.Guest.MemSlots
import Spice.Display.MigrateData
import Spice.Display.MigrateRoundTrip
import Spice.Lz.Bounds
import Spice.Lz.Headers
import Spice.Glz.DecodeBounds
import Spice.Glz.Headers
import Spice.Worker.StreamFrame
import Spice.Worker.ResendImages
import Spice.Guest.DataChunks
import Spice.Guest.Path
import Spice.Guest.Strings
import Spice.Guest.Images
import Spice.Client.VmcStream
import Spice.Worker.TimerQueue
import Spice.Client.StreamSchedule
import Spice.Client.StreamTable
import Spice.Marshaller.Linearize
import Spice.CharDevice.Migration
import Spice.Canvas.Mask
import Spice.Canvas.Palette
import Spice.Canvas.CopyBits
import Spice.Canvas.Rop3
import Spice.Canvas.LzSurface
import Spice.Canvas.Bezier
import Spice.Canvas.Stroke
import Spice.Region.Test
import Spice.Region.Sweep
import Spice.Region.TestExact
import Spice.Inputs.Keyboard
import Spice.Agent.MigrateData
import Spice.Agent.MonitorsConfig
import Spice.Inputs.MotionAck
import Spice.Client.GioPipe
import Spice.Client.FlushChannel
import Spice.Client.LinkFraming
import Spice.Client.SurfaceTable
import Spice.Link.MigTarget
import Spice.Channel.ReceiveBuffers
import Spice.Smartcard.DeviceFraming
import Spice.Sound.Receive
import Spice.Glz.MatchTokens
import Spice.Stat.Tree
import Spice.Client.AgentQueue
import Spice.Worker.ReplayIds
import Spice.Lib.Ring
import Spice.Sound.RecordRing
import Spice.Client.AgentData
import Spice.Client.FileXfer
import Spice.Quic.BitIo
import Spice.Quic.Golomb
import Spice.Sound.Playback
