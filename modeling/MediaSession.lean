import MediaSession.Binary32.Basic
import MediaSession.Binary32.Magnitude
import MediaSession.Binary32.Reading
import MediaSession.Binary32.Shortest
import MediaSession.Bytes
import MediaSession.Description.Line
import MediaSession.Description.MediaBlock
import MediaSession.Description.MediaLine
import MediaSession.Description.Resolve
import MediaSession.Description.Rtpmap
import MediaSession.Description.Session
import MediaSession.Description.TimeRange
import MediaSession.Description.TitleBlock
import MediaSession.Description.Track
import MediaSession.Description.Written
import MediaSession.Error
import MediaSession.Main
import MediaSession.Media.AudioConfig
import MediaSession.Media.Codec
import MediaSession.Media.Kind
import MediaSession.Media.PayloadTable
import MediaSession.Media.Stream
import MediaSession.Ports.Pool
import MediaSession.Ports.Protocol
import MediaSession.Ports.Range
import MediaSession.Ports.Shuffle
import MediaSession.Ports.Sockets
import MediaSession.Probe.Command
import MediaSession.Probe.Files
import MediaSession.Probe.Outcome
import MediaSession.Proofs.Binary32.Decimals
import MediaSession.Proofs.Binary32.Finiteness
import MediaSession.Proofs.Binary32.Rounding
import MediaSession.Proofs.Description.AttributeLines
import MediaSession.Proofs.Description.AudioRates
import MediaSession.Proofs.Description.Blocks
import MediaSession.Proofs.Description.EncodingFold
import MediaSession.Proofs.Description.ForeignEncodings
import MediaSession.Proofs.Description.GeneratedBlocks
import MediaSession.Proofs.Description.Lines
import MediaSession.Proofs.Description.NormalForm
import MediaSession.Proofs.Description.Rereading
import MediaSession.Proofs.Description.RoundTrip
import MediaSession.Proofs.Description.SameMedia
import MediaSession.Proofs.Description.SuppliedRates
import MediaSession.Proofs.Description.Times
import MediaSession.Proofs.Description.Titles
import MediaSession.Proofs.Description.Undeclared
import MediaSession.Proofs.Description.Winnowing
import MediaSession.Proofs.Description.WrittenLines
import MediaSession.Proofs.Media.AudioConfiguration
import MediaSession.Proofs.Media.BitFields
import MediaSession.Proofs.Ports.Attempts
import MediaSession.Proofs.Ports.Conservation
import MediaSession.Proofs.Ports.Exclusion
import MediaSession.Proofs.Ports.FreePairs
import MediaSession.Proofs.Ports.Order
import MediaSession.Proofs.Ports.Orderly
import MediaSession.Proofs.Ports.RangePorts
import MediaSession.Proofs.Ports.RangeText
import MediaSession.Proofs.Ports.Run
import MediaSession.Proofs.Ports.Shuffling
import MediaSession.Proofs.Ports.SocketPairs
import MediaSession.Proofs.Ports.Tenancy
import MediaSession.Proofs.Probe.Packets
import MediaSession.Proofs.Rtp.Framing
import MediaSession.Proofs.Rtp.Layout
import MediaSession.Proofs.Rtp.Negotiated
import MediaSession.Proofs.Rtp.Reframing
import MediaSession.Proofs.Rtp.Sending
import MediaSession.Proofs.Text.Hexadecimal
import MediaSession.Proofs.Text.Numerals
import MediaSession.Proofs.Text.Pieces
import MediaSession.Rtp.Demultiplex
import MediaSession.Rtp.Header
import MediaSession.Rtp.Packet
import MediaSession.Rtp.Writer
import MediaSession.Text.Basic
import MediaSession.Text.Hex
import MediaSession.Text.Numeral
import MediaSession.Text.Quoted
import MediaSession.Text.Shapeless
import MediaSession.Proofs.Description.FormatParameters
import MediaSession.Proofs.Media.BitReading
