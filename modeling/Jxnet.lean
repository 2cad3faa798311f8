import Jxnet.Framework.Integers
import Jxnet.Framework.ByteBuffer
import Jxnet.Framework.Codec
import Jxnet.Framework.OnesComplement
import Jxnet.Framework.Checksum
import Jxnet.Framework.HashMap
import Jxnet.Framework.Loop
import Jxnet.Framework.Body
import Jxnet.Framework.Transition
import Jxnet.Framework.Text
import Jxnet.Framework.JString
import Jxnet.Framework.Decimal
import Jxnet.Framework.Regex
import Jxnet.Framework.Padding
import Jxnet.Framework.FixedHex
import Jxnet.Framework.ClassInit
import Jxnet.Framework.Runs
import Jxnet.Framework.LoopRuns
import Jxnet.Framework.JumpMachine
import Jxnet.Framework.ShortCircuit
import Jxnet.Framework.StraightLine
import Jxnet.Core.Address
import Jxnet.Core.InetText
import Jxnet.Core.TextForm
import Jxnet.Core.Inet6Octets
import Jxnet.Core.Inet6Parser
import Jxnet.Core.Inet6Printer
import Jxnet.Core.Rfc5952
import Jxnet.Core.Inet4Text
import Jxnet.Core.EmbeddedQuad
import Jxnet.Core.MacText
import Jxnet.Core.Equality
import Jxnet.Packet.Registry
import Jxnet.Packet.Ethernet
import Jxnet.Packet.LinkLayer
import Jxnet.Packet.ARP
import Jxnet.Packet.IPv4
import Jxnet.Packet.IPv6
import Jxnet.Packet.TCP
import Jxnet.Packet.Datagram
import Jxnet.Packet.Packet
import Jxnet.Packet.NewInstance
import Jxnet.Packet.Chain
import Jxnet.Packet.PacketHelper
import Jxnet.Packet.Listener
import Jxnet.Packet.Capture
import Jxnet.Packet.Builder
import Jxnet.Packet.Checksum
import Jxnet.Packet.Idempotence
import Jxnet.Packet.Registration
import Jxnet.Packet.AtomicRegister
import Jxnet.Packet.Reencode
import Jxnet.Packet.DeclaredLength
import Jxnet.Packet.Attach
import Jxnet.Packet.TypeAndCodeInit
import Jxnet.Packet.Numbering
import Jxnet.Packet.TypeSearch
import Jxnet.Packet.Dispatch
import Jxnet.Packet.LinkRoundTrip
import Jxnet.Packet.HeaderRoundTrip
import Jxnet.Native.Jni
import Jxnet.Native.EntryPoints
import Jxnet.Native.Calls
import Jxnet.Native.Handles
import Jxnet.Native.Arguments
import Jxnet.Native.Callback
import Jxnet.Native.FindAllDevs
import Jxnet.Native.BufferReads
import Jxnet.Core.NetworkInterface
import Jxnet.Common.Validate
import Jxnet.Common.HexUtils
import Jxnet.Common.ByteUtils
import Jxnet.Bpf.Insn
import Jxnet.Bpf.Filter
import Jxnet.Bpf.Validate
import Jxnet.Bpf.Snapshot
import Jxnet.Bpf.Block
import Jxnet.Bpf.Backpatch
import Jxnet.Bpf.Generate
import Jxnet.Bpf.Icode
import Jxnet.Bpf.Convert
import Jxnet.Bpf.Simulation
import Jxnet.Bpf.Compile
import Jxnet.Bpf.Load
import Jxnet.Bpf.Link
import Jxnet.Bpf.Primitive
import Jxnet.Bpf.Protocol
import Jxnet.Bpf.Term
import Jxnet.Bpf.Arith
import Jxnet.Bpf.Computes
import Jxnet.Bpf.Expression
import Jxnet.Bpf.AddressText
import Jxnet.Savefile.Linktype
import Jxnet.Savefile.Format
import Jxnet.Savefile.PseudoHeader
import Jxnet.Savefile.Open
import Jxnet.Savefile.Read
import Jxnet.Savefile.Contents
import Jxnet.Savefile.Dump
import Jxnet.Savefile.PseudoOrder
import Jxnet.Savefile.RoundTrip
import Jxnet.Savefile.Append
import Jxnet.Savefile.Loop
import Jxnet.Savefile.Session
import Jxnet.Savefile.Filtered
