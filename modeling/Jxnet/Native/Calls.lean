import Jxnet.Native.EntryPoints

namespace Jxnet

open Java

namespace Native

/-- A call from Java, of an entry point that takes or makes a handle or checks an argument. -/
inductive Call where
  | pcapDataLink (jpcap : Option Pcap)
  | pcapIsSwapped (jpcap : Option Pcap)
  | pcapSnapshot (jpcap : Option Pcap)
  | pcapMajorVersion (jpcap : Option Pcap)
  | pcapMinorVersion (jpcap : Option Pcap)
  | pcapLoop (jpcap : Option Pcap) (jcnt : Int) (jcallback : Option Unit)
  | pcapDispatch (jpcap : Option Pcap) (jcnt : Int) (jcallback : Option Unit)
  | pcapDumpOpen (jpcap : Option Pcap) (jfname : Option String)
  | pcapDump (jpcap_dumper : Option PcapDumper) (jh : Option Unit) (jsp : Option Buffer)
  | pcapCompile (jpcap : Option Pcap) (jfp : Option BpfProgram) (jstr : Option String)
      (joptimize jnetmask : Int)
  | pcapSetFilter (jpcap : Option Pcap) (jfp : Option BpfProgram)
  | pcapSendPacket (jpcap : Option Pcap) (jbuf : Option Buffer) (jsize : Int)
  | pcapNext (jpcap : Option Pcap) (jh : Option Unit)
  | pcapNextEx (jpcap : Option Pcap) (jpkt_header : Option Unit) (jpkt_data : Option Buffer)
  | pcapClose (jpcap : Option Pcap)
  | pcapSetDataLink (jpcap : Option Pcap) (jdtl : Int)
  | pcapBreakLoop (jpcap : Option Pcap)
  | pcapGetErr (jpcap : Option Pcap)
  | pcapSetNonBlock (jpcap : Option Pcap) (jnonblock : Int) (jerrbuf : Option Unit)
  | pcapGetNonBlock (jpcap : Option Pcap) (jerrbuf : Option Unit)
  | pcapFreeCode (jfp : Option BpfProgram)
  | pcapCompileNoPcap (jsnaplen_arg jlinktype_arg : Int) (jprogram : Option BpfProgram)
      (jbuf : Option String) (joptimize jmask : Int)
  | pcapDumpFlush (jpcap_dumper : Option PcapDumper)
  | pcapDumpFTell (jpcap_dumper : Option PcapDumper)
  | pcapDumpClose (jpcap_dumper : Option PcapDumper)
  | pcapFile (jpcap : Option Pcap)
  | pcapDumpFile (jpcap_dumper : Option PcapDumper)
  | pcapStats (jpcap : Option Pcap) (jpcap_stat : Option Unit)
  | pcapPError (jpcap : Option Pcap) (jprefixText : Option String)
  | pcapSetSnaplen (jpcap : Option Pcap) (jsnaplen : Int)
  | pcapSetPromisc (jpcap : Option Pcap) (jpromisc : Int)
  | pcapSetTimeout (jpcap : Option Pcap) (jtimeout : Int)
  | pcapSetBufferSize (jpcap : Option Pcap) (jbuffer_size : Int)
  | pcapSetRfMon (jpcap : Option Pcap) (jrfmon : Int)
  | pcapSetImmediateMode (jpcap : Option Pcap) (jimmediate : Int)
  | pcapCanSetRfMon (jpcap : Option Pcap)
  | pcapActivate (jpcap : Option Pcap)
  | pcapSetDirection (jpcap : Option Pcap) (jdirection : Option PcapDirection)
  | pcapOpenLive (jsource : Option String) (jsnaplen jpromisc jto_ms : Int)
      (jerrbuf : Option Unit)
  | pcapOpenOffline (jfname : Option String) (jerrbuf : Option Unit)
  | pcapCreate (jsource : Option String) (jerrbuf : Option Unit)
  | pcapOpenDead (jlinktype jsnaplen : Int)
  | pcapDataLinkValToName (jdtl : Int)
  | pcapDataLinkValToDescription (jdtl : Int)
  | newBpfProgram
  deriving DecidableEq, Repr

namespace Call

def body (lib : LibCall → JLong) : Call → Code Value
  | pcapDataLink jpcap => Native.pcapDataLink lib jpcap
  | pcapIsSwapped jpcap => Native.pcapIsSwapped lib jpcap
  | pcapSnapshot jpcap => Native.pcapSnapshot lib jpcap
  | pcapMajorVersion jpcap => Native.pcapMajorVersion lib jpcap
  | pcapMinorVersion jpcap => Native.pcapMinorVersion lib jpcap
  | pcapLoop jpcap jcnt jcallback => Native.pcapLoop lib jpcap jcnt jcallback
  | pcapDispatch jpcap jcnt jcallback => Native.pcapDispatch lib jpcap jcnt jcallback
  | pcapDumpOpen jpcap jfname => Native.pcapDumpOpen lib jpcap jfname
  | pcapDump jpcap_dumper jh jsp => Native.pcapDump lib jpcap_dumper jh jsp
  | pcapCompile jpcap jfp jstr joptimize jnetmask =>
    Native.pcapCompile lib jpcap jfp jstr joptimize jnetmask
  | pcapSetFilter jpcap jfp => Native.pcapSetFilter lib jpcap jfp
  | pcapSendPacket jpcap jbuf jsize => Native.pcapSendPacket lib jpcap jbuf jsize
  | pcapNext jpcap jh => Native.pcapNext lib jpcap jh
  | pcapNextEx jpcap jpkt_header jpkt_data => Native.pcapNextEx lib jpcap jpkt_header jpkt_data
  | pcapClose jpcap => Native.pcapClose lib jpcap
  | pcapSetDataLink jpcap jdtl => Native.pcapSetDataLink lib jpcap jdtl
  | pcapBreakLoop jpcap => Native.pcapBreakLoop lib jpcap
  | pcapGetErr jpcap => Native.pcapGetErr lib jpcap
  | pcapSetNonBlock jpcap jnonblock jerrbuf => Native.pcapSetNonBlock lib jpcap jnonblock jerrbuf
  | pcapGetNonBlock jpcap jerrbuf => Native.pcapGetNonBlock lib jpcap jerrbuf
  | pcapFreeCode jfp => Native.pcapFreeCode lib jfp
  | pcapCompileNoPcap jsnaplen_arg jlinktype_arg jprogram jbuf joptimize jmask =>
    Native.pcapCompileNoPcap lib jsnaplen_arg jlinktype_arg jprogram jbuf joptimize jmask
  | pcapDumpFlush jpcap_dumper => Native.pcapDumpFlush lib jpcap_dumper
  | pcapDumpFTell jpcap_dumper => Native.pcapDumpFTell lib jpcap_dumper
  | pcapDumpClose jpcap_dumper => Native.pcapDumpClose lib jpcap_dumper
  | pcapFile jpcap => Native.pcapFile lib jpcap
  | pcapDumpFile jpcap_dumper => Native.pcapDumpFile lib jpcap_dumper
  | pcapStats jpcap jpcap_stat => Native.pcapStats lib jpcap jpcap_stat
  | pcapPError jpcap jprefixText => Native.pcapPError lib jpcap jprefixText
  | pcapSetSnaplen jpcap jsnaplen => Native.pcapSetSnaplen lib jpcap jsnaplen
  | pcapSetPromisc jpcap jpromisc => Native.pcapSetPromisc lib jpcap jpromisc
  | pcapSetTimeout jpcap jtimeout => Native.pcapSetTimeout lib jpcap jtimeout
  | pcapSetBufferSize jpcap jbuffer_size => Native.pcapSetBufferSize lib jpcap jbuffer_size
  | pcapSetRfMon jpcap jrfmon => Native.pcapSetRfMon lib jpcap jrfmon
  | pcapSetImmediateMode jpcap jimmediate => Native.pcapSetImmediateMode lib jpcap jimmediate
  | pcapCanSetRfMon jpcap => Native.pcapCanSetRfMon lib jpcap
  | pcapActivate jpcap => Native.pcapActivate lib jpcap
  | pcapSetDirection jpcap jdirection => Native.pcapSetDirection lib jpcap jdirection
  | pcapOpenLive jsource jsnaplen jpromisc jto_ms jerrbuf =>
    Native.pcapOpenLive lib jsource jsnaplen jpromisc jto_ms jerrbuf
  | pcapOpenOffline jfname jerrbuf => Native.pcapOpenOffline lib jfname jerrbuf
  | pcapCreate jsource jerrbuf => Native.pcapCreate lib jsource jerrbuf
  | pcapOpenDead jlinktype jsnaplen => Native.pcapOpenDead lib jlinktype jsnaplen
  | pcapDataLinkValToName jdtl => Native.pcapDataLinkValToName lib jdtl
  | pcapDataLinkValToDescription jdtl => Native.pcapDataLinkValToDescription lib jdtl
  | newBpfProgram => Native.newBpfProgram lib

/-- The handles among the arguments. -/
def handles : Call → List Handle
  | pcapDataLink jpcap | pcapIsSwapped jpcap | pcapSnapshot jpcap | pcapMajorVersion jpcap
  | pcapMinorVersion jpcap | pcapLoop jpcap _ _ | pcapDispatch jpcap _ _ | pcapDumpOpen jpcap _
  | pcapSendPacket jpcap _ _ | pcapNext jpcap _ | pcapNextEx jpcap _ _ | pcapClose jpcap
  | pcapSetDataLink jpcap _ | pcapBreakLoop jpcap | pcapGetErr jpcap | pcapSetNonBlock jpcap _ _
  | pcapGetNonBlock jpcap _ | pcapFile jpcap | pcapStats jpcap _ | pcapPError jpcap _
  | pcapSetSnaplen jpcap _ | pcapSetPromisc jpcap _ | pcapSetTimeout jpcap _
  | pcapSetBufferSize jpcap _ | pcapSetRfMon jpcap _ | pcapSetImmediateMode jpcap _
  | pcapCanSetRfMon jpcap | pcapActivate jpcap | pcapSetDirection jpcap _ =>
    (jpcap.map Object.handle).toList
  | pcapDump jpcap_dumper _ _ | pcapDumpFlush jpcap_dumper | pcapDumpFTell jpcap_dumper
  | pcapDumpClose jpcap_dumper | pcapDumpFile jpcap_dumper =>
    (jpcap_dumper.map Object.handle).toList
  | pcapFreeCode jfp => (jfp.map Object.handle).toList
  | pcapCompileNoPcap _ _ jprogram _ _ _ => (jprogram.map Object.handle).toList
  | pcapCompile jpcap jfp _ _ _ | pcapSetFilter jpcap jfp =>
    (jpcap.map Object.handle).toList ++ (jfp.map Object.handle).toList
  | pcapOpenLive .. | pcapOpenOffline .. | pcapCreate .. | pcapOpenDead ..
  | pcapDataLinkValToName .. | pcapDataLinkValToDescription .. | newBpfProgram => []

/-- The handle that a close operation is called on. -/
def closes : Call → Option Handle
  | pcapClose jpcap => jpcap.map Object.handle
  | pcapDumpClose jpcap_dumper => jpcap_dumper.map Object.handle
  | pcapFreeCode jfp => jfp.map Object.handle
  | _ => none

end Call

/-- What a call does: what it returns, throws and calls, and the objects afterwards. -/
structure Outcome where
  value : Value
  heap : Heap
  thrown : List Thrown
  calls : List LibCall

def exec (lib : LibCall → JLong) (call : Call) (heap : Heap) : Outcome :=
  let r := (call.body lib).run ⟨heap, [], []⟩
  ⟨r.1, r.2.heap, r.2.thrown, r.2.calls⟩

/-- JNI does not say which exception stays pending when another is thrown. -/
inductive Rethrow where
  | keepsFirst
  | keepsLast
  deriving DecidableEq, Repr

/-- The exception that Java sees. -/
def Rethrow.pending (rethrow : Rethrow) (thrown : List Thrown) : Option NativeException :=
  match rethrow with
  | keepsFirst => thrown.head?.map Thrown.exception
  | keepsLast => thrown.getLast?.map Thrown.exception

end Native

end Jxnet
