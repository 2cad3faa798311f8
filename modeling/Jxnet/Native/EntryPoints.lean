import Jxnet.Native.Jni

namespace Jxnet

open Java

namespace Native

abbrev Pcap := Object .pcap

abbrev PcapDumper := Object .pcapDumper

abbrev BpfProgram := Object .bpfProgram

/-- The direct buffers, by the address of their memory, which is NULL for other buffers. -/
structure Buffer where
  directAddress : JLong
  deriving DecidableEq, Repr

inductive PcapDirection where
  | PCAP_D_INOUT
  | PCAP_D_IN
  | PCAP_D_OUT
  deriving DecidableEq, Repr

/-- The constants of `pcap_direction_t`. -/
def PcapDirection.value : PcapDirection → Int
  | PCAP_D_INOUT => 0
  | PCAP_D_IN => 1
  | PCAP_D_OUT => 2

/-- `return -1;`. -/
def Value.error : Value := .number (-1)

variable (lib : LibCall → JLong)

/-- Fetch the pointer of an object, and return where it is NULL. -/
def withPointer {kind : Kind} (jobj : Object kind) (value : Value)
    (body : Pointer → Code Value) : Code Value := do
  let pointer ← getPointer (some jobj)
  returnIf (pointer.address = 0) value
  body pointer

@[simp] theorem run_withPointer {kind : Kind} (o : Object kind) (value : Value)
    (body : Pointer → Code Value) (w : World) : (withPointer o value body).run w =
      if w.heap.isClosed o.handle then (value, w.throw kind.closeException .null)
      else (body ⟨some o.handle, w.heap.address o.handle⟩).run w := by
  unfold withPointer
  by_cases h : w.heap.isClosed o.handle
  · have h' : w.heap.address o.handle = 0 := h
    simp only [run_getPointer_some, run_returnIf, if_pos h, h', decide_true, if_true]
  · have h' : w.heap.address o.handle ≠ 0 := h
    simp only [run_getPointer_some, run_returnIf, if_neg h, h', decide_false,
      Bool.false_eq_true, if_false]

/-! The entry points that test the pointer. -/

/-- `PcapDataLink` and the getters like it. -/
def pcapGetter (function : Libpcap) (jpcap : Option Pcap) : Code Value := do
  let jpcap ← checkNotNull jpcap .null .error
  withPointer jpcap .error fun pcap => do
    let r ← libpcap lib function [pcap] [] []
    pure (.number r)

def pcapDataLink (jpcap : Option Pcap) : Code Value := pcapGetter lib .dataLink jpcap

def pcapIsSwapped (jpcap : Option Pcap) : Code Value := pcapGetter lib .isSwapped jpcap

def pcapSnapshot (jpcap : Option Pcap) : Code Value := pcapGetter lib .snapshot jpcap

def pcapMajorVersion (jpcap : Option Pcap) : Code Value := pcapGetter lib .majorVersion jpcap

def pcapMinorVersion (jpcap : Option Pcap) : Code Value := pcapGetter lib .minorVersion jpcap

def pcapLoop (jpcap : Option Pcap) (jcnt : Int) (jcallback : Option Unit) : Code Value := do
  let jpcap ← checkNotNull jpcap .null .error
  let _ ← checkNotNull jcallback .null .error
  withPointer jpcap .error fun pcap => do
    let r ← libpcap lib .loop [pcap] [jcnt] []
    pure (.number r)

def pcapDispatch (jpcap : Option Pcap) (jcnt : Int) (jcallback : Option Unit) : Code Value := do
  let jpcap ← checkNotNull jpcap .null .error
  let _ ← checkNotNull jcallback .null .error
  guardArgument (jcnt > 0) .null .error
  withPointer jpcap .error fun pcap => do
    let r ← libpcap lib .dispatch [pcap] [jcnt] []
    pure (.number r)

def pcapDumpOpen (jpcap : Option Pcap) (jfname : Option String) : Code Value := do
  let jpcap ← checkNotNull jpcap .null .null
  let fname ← checkNotNull jfname .null .null
  withPointer jpcap .null fun pcap => do
    let pcap_dumper ← libpcap lib .dumpOpen [pcap] [] [fname]
    if pcap_dumper = 0 then do
      let message ← libpcap lib .getErr [pcap] [] []
      throwNew .pcapDumperClose (.native message)
      pure .null
    else newObject .pcapDumper pcap_dumper

/-- The header is written by value; the buffer's memory is not tested. -/
def pcapDump (jpcap_dumper : Option PcapDumper) (jh : Option Unit) (jsp : Option Buffer) :
    Code Value := do
  let jpcap_dumper ← checkNotNull jpcap_dumper (.text "") .void
  let _ ← checkNotNull jh .null .void
  let sp ← checkNotNull jsp .null .void
  let pcap_dumper ← getPointer (some jpcap_dumper)
  if pcap_dumper.address = 0 then do
    throwNew .pcapDumperClose .null
    pure .void
  else do
    let _ ← libpcap lib .dump [pcap_dumper, ⟨none, sp.directAddress⟩] [] []
    pure .void

/-- The pointer of the program, tested where that of the Pcap has been. -/
def withProgram (jfp : BpfProgram) (pcap : Pointer) (body : Pointer → Code Value) :
    Code Value := do
  let fp ← getPointer (some jfp)
  if fp.address = 0 then do
    let message ← libpcap lib .getErr [pcap] [] []
    throwNew .bpfProgramClose (.native message)
    pure .error
  else body fp

def pcapCompile (jpcap : Option Pcap) (jfp : Option BpfProgram) (jstr : Option String)
    (joptimize jnetmask : Int) : Code Value := do
  let jpcap ← checkNotNull jpcap .null .error
  let jfp ← checkNotNull jfp .null .error
  let str ← checkNotNull jstr .null .error
  guardArgument (joptimize = 0 ∨ joptimize = 1) .null .error
  withPointer jpcap .error fun pcap => withProgram lib jfp pcap fun fp => do
    let r ← libpcap lib .compile [pcap, fp] [joptimize, jnetmask] [str]
    pure (.number r)

def pcapSetFilter (jpcap : Option Pcap) (jfp : Option BpfProgram) : Code Value := do
  let jpcap ← checkNotNull jpcap .null .error
  let jfp ← checkNotNull jfp .null .error
  withPointer jpcap .error fun pcap => withProgram lib jfp pcap fun fp => do
    let r ← libpcap lib .setFilter [pcap, fp] [] []
    pure (.number r)

def pcapSendPacket (jpcap : Option Pcap) (jbuf : Option Buffer) (jsize : Int) : Code Value := do
  let jpcap ← checkNotNull jpcap .null .error
  let jbuf ← checkNotNull jbuf .null .error
  guardArgument (jsize > 0) .null .error
  withPointer jpcap .error fun pcap => do
    if jbuf.directAddress = 0 then do
      throwNew .nullPointer (.text "Unable to retrive address from ByteBuffer")
      pure .error
    else do
      let r ← libpcap lib .sendPacket [pcap, ⟨none, jbuf.directAddress⟩] [jsize] []
      pure (.number r)

def pcapNext (jpcap : Option Pcap) (jh : Option Unit) : Code Value := do
  let jpcap ← checkNotNull jpcap .null .null
  let _ ← checkNotNull jh .null .null
  withPointer jpcap .null fun pcap => do
    let data ← libpcap lib .next [pcap] [] []
    pure (.ofPointer data)

def pcapNextEx (jpcap : Option Pcap) (jpkt_header : Option Unit) (jpkt_data : Option Buffer) :
    Code Value := do
  let jpcap ← checkNotNull jpcap .null .error
  let _ ← checkNotNull jpkt_header .null .error
  let _ ← checkNotNull jpkt_data .null .error
  withPointer jpcap .error fun pcap => do
    let r ← libpcap lib .nextEx [pcap] [] []
    pure (.number r)

def pcapClose (jpcap : Option Pcap) : Code Value := do
  let jpcap ← checkNotNull jpcap .null .void
  withPointer jpcap .void fun pcap => do
    let _ ← libpcap lib .close [pcap] [] []
    resetAddress jpcap.handle
    pure .void

def pcapSetDataLink (jpcap : Option Pcap) (jdtl : Int) : Code Value := do
  let jpcap ← checkNotNull jpcap .null .error
  guardArgument (jdtl > -1) .null .error
  withPointer jpcap .error fun pcap => do
    let r ← libpcap lib .setDataLink [pcap] [jdtl] []
    pure (.number r)

def pcapBreakLoop (jpcap : Option Pcap) : Code Value := do
  let jpcap ← checkNotNull jpcap .null .void
  withPointer jpcap .void fun pcap => do
    let _ ← libpcap lib .breakLoop [pcap] [] []
    pure .void

def pcapGetErr (jpcap : Option Pcap) : Code Value := do
  let jpcap ← checkNotNull jpcap .null .null
  withPointer jpcap .null fun pcap => do
    let r ← libpcap lib .getErr [pcap] [] []
    pure (.ofPointer r)

def pcapSetNonBlock (jpcap : Option Pcap) (jnonblock : Int) (jerrbuf : Option Unit) :
    Code Value := do
  let jpcap ← checkNotNull jpcap .null .error
  guardArgument (jnonblock = 0 ∨ jnonblock = 1)
    (.text "1 to enable non blocking, 0 otherwise.") .error
  let _ ← checkNotNull jerrbuf .null .error
  withPointer jpcap .error fun pcap => do
    let r ← libpcap lib .setNonBlock [pcap] [jnonblock] []
    pure (.number r)

def pcapGetNonBlock (jpcap : Option Pcap) (jerrbuf : Option Unit) : Code Value := do
  let jpcap ← checkNotNull jpcap .null .error
  let _ ← checkNotNull jerrbuf .null .error
  withPointer jpcap .error fun pcap => do
    let r ← libpcap lib .getNonBlock [pcap] [] []
    pure (.number r)

/-- The address stays as it is. -/
def pcapFreeCode (jfp : Option BpfProgram) : Code Value := do
  let jfp ← checkNotNull jfp .null .void
  let fp ← getPointer (some jfp)
  if fp.address = 0 then do
    throwNew .bpfProgramClose .null
    pure .void
  else do
    let _ ← libpcap lib .freeCode [fp] [] []
    pure .void

def pcapCompileNoPcap (jsnaplen_arg jlinktype_arg : Int) (jprogram : Option BpfProgram)
    (jbuf : Option String) (joptimize jmask : Int) : Code Value := do
  guardArgument (jsnaplen_arg > 0 ∧ jsnaplen_arg < 65536) .null .error
  guardArgument (jlinktype_arg > -1) .null .error
  let jprogram ← checkNotNull jprogram .null .error
  let buf ← checkNotNull jbuf .null .error
  guardArgument (joptimize = 0 ∨ joptimize = 1) .null .error
  let program ← getPointer (some jprogram)
  if program.address = 0 then do
    throwNew .bpfProgramClose .null
    pure .error
  else do
    let r ← libpcap lib .compileNoPcap [program] [jsnaplen_arg, jlinktype_arg, joptimize, jmask]
      [buf]
    pure (.number r)

/-! The entry points that hand the pointer on as it is. -/

/-- `PcapDumpFlush` and `PcapDumpFTell`. -/
def pcapDumpGetter (function : Libpcap) (jpcap_dumper : Option PcapDumper) : Code Value := do
  let jpcap_dumper ← checkNotNull jpcap_dumper .null .error
  let pcap_dumper ← getPointer (some jpcap_dumper)
  let r ← libpcap lib function [pcap_dumper] [] []
  pure (.number r)

def pcapDumpFlush (jpcap_dumper : Option PcapDumper) : Code Value :=
  pcapDumpGetter lib .dumpFlush jpcap_dumper

def pcapDumpFTell (jpcap_dumper : Option PcapDumper) : Code Value :=
  pcapDumpGetter lib .dumpFTell jpcap_dumper

def pcapDumpClose (jpcap_dumper : Option PcapDumper) : Code Value := do
  let jpcap_dumper ← checkNotNull jpcap_dumper .null .void
  let pcap_dumper ← getPointer (some jpcap_dumper)
  let _ ← libpcap lib .dumpClose [pcap_dumper] [] []
  resetAddress jpcap_dumper.handle
  pure .void

def pcapFile (jpcap : Option Pcap) : Code Value := do
  let jpcap ← checkNotNull jpcap .null .null
  let pcap ← getPointer (some jpcap)
  let file ← libpcap lib .file [pcap] [] []
  pure (.ofPointer file)

/-- A `File` object is made even of NULL. -/
def pcapDumpFile (jpcap_dumper : Option PcapDumper) : Code Value := do
  let jpcap_dumper ← checkNotNull jpcap_dumper .null .null
  let pcap_dumper ← getPointer (some jpcap_dumper)
  let file ← libpcap lib .dumpFile [pcap_dumper] [] []
  pure (.reference file)

def pcapStats (jpcap : Option Pcap) (jpcap_stat : Option Unit) : Code Value := do
  let jpcap ← checkNotNull jpcap .null .error
  let _ ← checkNotNull jpcap_stat .null .error
  let pcap ← getPointer (some jpcap)
  let r ← libpcap lib .stats [pcap] [] []
  pure (.number r)

def pcapPError (jpcap : Option Pcap) (jprefixText : Option String) : Code Value := do
  let jpcap ← checkNotNull jpcap .null .void
  let text ← checkNotNull jprefixText .null .void
  let pcap ← getPointer (some jpcap)
  let _ ← libpcap lib .perror [pcap] [] [text]
  pure .void

/-- `PcapSetSnaplen` and the setters like it. -/
def pcapSetter (function : Libpcap) (guard : Bool) (jpcap : Option Pcap) (n : Int) :
    Code Value := do
  let jpcap ← checkNotNull jpcap .null .error
  guardArgument guard .null .error
  let pcap ← getPointer (some jpcap)
  let r ← libpcap lib function [pcap] [n] []
  pure (.number r)

def pcapSetSnaplen (jpcap : Option Pcap) (jsnaplen : Int) : Code Value :=
  pcapSetter lib .setSnaplen (jsnaplen > 0 ∧ jsnaplen < 65535) jpcap jsnaplen

def pcapSetPromisc (jpcap : Option Pcap) (jpromisc : Int) : Code Value :=
  pcapSetter lib .setPromisc (jpromisc = 0 ∨ jpromisc = 1) jpcap jpromisc

def pcapSetTimeout (jpcap : Option Pcap) (jtimeout : Int) : Code Value :=
  pcapSetter lib .setTimeout (jtimeout > 0) jpcap jtimeout

def pcapSetBufferSize (jpcap : Option Pcap) (jbuffer_size : Int) : Code Value :=
  pcapSetter lib .setBufferSize (jbuffer_size > 0 ∧ jbuffer_size < 65535) jpcap jbuffer_size

def pcapSetRfMon (jpcap : Option Pcap) (jrfmon : Int) : Code Value :=
  pcapSetter lib .setRfMon (jrfmon = 0 ∨ jrfmon = 1) jpcap jrfmon

/-- The reference is not tested either. -/
def pcapSetImmediateMode (jpcap : Option Pcap) (jimmediate : Int) : Code Value := do
  guardArgument (jimmediate = 0 ∨ jimmediate = 1) .null .error
  let pcap ← getPointer jpcap
  let r ← libpcap lib .setImmediateMode [pcap] [jimmediate] []
  pure (.number r)

/-- `PcapCanSetRfMon` and `PcapActivate`. -/
def pcapAction (function : Libpcap) (jpcap : Option Pcap) : Code Value := do
  let jpcap ← checkNotNull jpcap .null .error
  let pcap ← getPointer (some jpcap)
  let r ← libpcap lib function [pcap] [] []
  pure (.number r)

def pcapCanSetRfMon (jpcap : Option Pcap) : Code Value := pcapAction lib .canSetRfMon jpcap

def pcapActivate (jpcap : Option Pcap) : Code Value := pcapAction lib .activate jpcap

def pcapSetDirection (jpcap : Option Pcap) (jdirection : Option PcapDirection) : Code Value := do
  let jpcap ← checkNotNull jpcap .null .error
  let direction ← checkNotNull jdirection .null .error
  let pcap ← getPointer (some jpcap)
  let r ← libpcap lib .setDirection [pcap] [direction.value] []
  pure (.number r)

/-! The entry points that take no handle. -/

/-- The object of a pointer that a library call returned, null where it failed. -/
def openPcap (function : Libpcap) (numbers : List Int) (name : String) : Code Value := do
  let pcap ← libpcap lib function [] numbers [name]
  returnIf (pcap = 0) .null
  newObject .pcap pcap

def pcapOpenLive (jsource : Option String) (jsnaplen jpromisc jto_ms : Int)
    (jerrbuf : Option Unit) : Code Value := do
  let source ← checkNotNull jsource .null .null
  guardArgument (jsnaplen > 0 ∧ jsnaplen < 65536 ∧ (jpromisc = 0 ∨ jpromisc = 1) ∧ jto_ms > 0)
    .null .null
  let _ ← checkNotNull jerrbuf .null .null
  openPcap lib .openLive [jsnaplen, jpromisc, jto_ms] source

def pcapOpenOffline (jfname : Option String) (jerrbuf : Option Unit) : Code Value := do
  let fname ← checkNotNull jfname .null .null
  let _ ← checkNotNull jerrbuf .null .null
  openPcap lib .openOffline [] fname

def pcapCreate (jsource : Option String) (jerrbuf : Option Unit) : Code Value := do
  let source ← checkNotNull jsource .null .null
  let _ ← checkNotNull jerrbuf .null .null
  openPcap lib .create [] source

/-- An object is made even of NULL, and every snapshot length passes the second test. -/
def pcapOpenDead (jlinktype jsnaplen : Int) : Code Value := do
  guardArgument (jlinktype > -1) .null .null
  guardArgument (jsnaplen > 0 ∨ jsnaplen < 65535) .null .null
  let pcap ← libpcap lib .openDead [] [jlinktype, jsnaplen] []
  newObject .pcap pcap

/-- `PcapDataLinkValToName` and `PcapDataLinkValToDescription`. -/
def pcapDataLinkText (function : Libpcap) (jdtl : Int) : Code Value := do
  guardArgument (jdtl > -1) .null .null
  let r ← libpcap lib function [] [jdtl] []
  pure (.ofPointer r)

def pcapDataLinkValToName (jdtl : Int) : Code Value :=
  pcapDataLinkText lib .dataLinkValToName jdtl

def pcapDataLinkValToDescription (jdtl : Int) : Code Value :=
  pcapDataLinkText lib .dataLinkValToDescription jdtl

/-- The constructor of `BpfProgram`, through `initBpfProgram`. -/
def newBpfProgram : Code Value := do
  let fp ← libpcap lib .malloc [] [] []
  if fp = 0 then do
    throwNew .bpfProgramClose (.text "BpfProgram out of memory")
    pure .void
  else newObject .bpfProgram fp

end Native

end Jxnet
