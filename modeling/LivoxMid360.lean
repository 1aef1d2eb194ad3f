import LivoxMid360.Foundation.ShiftRegister
import LivoxMid360.Foundation.DyadicCells
import LivoxMid360.Foundation.Neighbours
import LivoxMid360.Foundation.BitPolynomials
import LivoxMid360.Foundation.BitErrors
import LivoxMid360.Foundation.QuadraticForms
import LivoxMid360.Foundation.UnitQuaternions
import LivoxMid360.Protocol.Command
import LivoxMid360.Protocol.Parameters
import LivoxMid360.Protocol.CommandGrammar
import LivoxMid360.Protocol.CrcWindows
import LivoxMid360.Protocol.CorruptedFrames
import LivoxMid360.Protocol.CrcRemainders
import LivoxMid360.Protocol.FlippedBits
import LivoxMid360.Data.Packet
import LivoxMid360.Data.PacketFormat
import LivoxMid360.Data.PacketBuild
import LivoxMid360.Data.CorruptedPackets
import LivoxMid360.Data.Stream
import LivoxMid360.Data.DebugDump
import LivoxMid360.Data.SampleCount
import LivoxMid360.Data.FlippedPackets
import LivoxMid360.Data.Bindings
import LivoxMid360.Control.Client
import LivoxMid360.Control.ReceiveLoops
import LivoxMid360.Control.SharedSocket
import LivoxMid360.Control.ClientRestart
import LivoxMid360.Control.StartStreaming
import LivoxMid360.Control.Refusals
import LivoxMid360.Control.SendPath
import LivoxMid360.Control.Responders
import LivoxMid360.Control.FreshReads
import LivoxMid360.Session.Connect
import LivoxMid360.Session.LiveReader
import LivoxMid360.Session.Transparency
import LivoxMid360.Session.BoundStreams
import LivoxMid360.Session.SharedReader
import LivoxMid360.Session.RecordedSessions
import LivoxMid360.Encoder.CloudBuffer
import LivoxMid360.Encoder.RetentionWindow
import LivoxMid360.Encoder.LateBatches
import LivoxMid360.Encoder.Segments
import LivoxMid360.Encoder.DyadicGrid
import LivoxMid360.Encoder.PrincipalAxes
import LivoxMid360.Encoder.Encode
import LivoxMid360.Encoder.TokenTree
import LivoxMid360.Encoder.AxisFrames
import LivoxMid360.Encoder.TokenBounds
import LivoxMid360.Encoder.NonFinite
import LivoxMid360.Encoder.Shape
import LivoxMid360.Encoder.TightFrames
import LivoxMid360.Encoder.JacobiRotations
import LivoxMid360.Encoder.JacobiAccuracy
import LivoxMid360.Encoder.PrincipalVariance
import LivoxMid360.Encoder.Similarity
import LivoxMid360.Encoder.Decoding
import LivoxMid360.Encoder.Mirror
import LivoxMid360.Encoder.Rotated
import LivoxMid360.Encoder.FreshPoints
import LivoxMid360.Imu.Attitude
import LivoxMid360.Imu.HistoryLookup
import LivoxMid360.Imu.ArrivalOrder
import LivoxMid360.Imu.IntegratedTime
import LivoxMid360.Imu.Heading
import LivoxMid360.Imu.StaticScene
import LivoxMid360.Imu.Levelling
import LivoxMid360.Imu.LookupRange
