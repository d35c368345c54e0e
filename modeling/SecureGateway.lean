import SecureGateway.Library.Checked
import SecureGateway.Library.Run
import SecureGateway.Library.Window
import SecureGateway.Library.BoundedQueue
import SecureGateway.Library.Settling
import SecureGateway.Library.Stores
import SecureGateway.Library.Polling
import SecureGateway.Library.Draining
import SecureGateway.Library.Attempts
import SecureGateway.Library.Framing
import SecureGateway.Library.Gaps
import SecureGateway.Library.Loads
import SecureGateway.Library.Guarded
import SecureGateway.Library.Outstanding
import SecureGateway.Library.Lagging
import SecureGateway.Library.Merging
import SecureGateway.Bitmap
import SecureGateway.BitmapSet
import SecureGateway.Mavlink
import SecureGateway.Wire
import SecureGateway.Frames
import SecureGateway.Gateway
import SecureGateway.Policies
import SecureGateway.Perf
import SecureGateway.TableBounds
import SecureGateway.Push
import SecureGateway.Spin
import SecureGateway.Mediation
import SecureGateway.Console
import SecureGateway.Geofence
import SecureGateway.ShippedRejections
import SecureGateway.NonInterference
import SecureGateway.Isolation
import SecureGateway.History
import SecureGateway.Reinit
import SecureGateway.PerfReports
import SecureGateway.DropCount
import SecureGateway.Xor
import SecureGateway.SinkTransform
import SecureGateway.StdioLog
import SecureGateway.RingBuffer
import SecureGateway.RingQueue
import SecureGateway.Ringleader
import SecureGateway.RingleaderLink
import SecureGateway.RingleaderSends
import SecureGateway.PollingSources
import SecureGateway.ThinrosBounds
import SecureGateway.Uart
import SecureGateway.UartThreads
import SecureGateway.UartInput
import SecureGateway.StreamSinks
import SecureGateway.Forwarding
import SecureGateway.Assertions
import SecureGateway.SocketSource
import SecureGateway.OutgoingConnection
import SecureGateway.InitAttempts
import SecureGateway.LifeCycle
import SecureGateway.TcpDrain
import SecureGateway.TcpRoutes
import SecureGateway.Links
import SecureGateway.CertikosGateway
import SecureGateway.SocketGateway
import SecureGateway.MainGateway
import SecureGateway.Drained
import SecureGateway.CertikosDrained
import SecureGateway.SocketDrained
import SecureGateway.FrameStreams
import SecureGateway.Masking
import SecureGateway.RingleaderGateway
import SecureGateway.UdpLatch
import SecureGateway.Tunnel
import SecureGateway.TunnelRate
import SecureGateway.Bridge
import SecureGateway.BridgeRelay
import SecureGateway.BridgeMetrics
