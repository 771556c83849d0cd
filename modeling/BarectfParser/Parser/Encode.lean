import BarectfParser.Parser.Plan

/-!
# The reference encoding

The wire format as the specification describes it, written out: the bytes of a packet, laid out
from bit 0 by the plan `Parser::new` builds (`src/parser/mod.rs`, `src/parser/types.rs`). Each
structure and each field is preceded by zero padding to its alignment, counted from the packet
start (`writePadding`, with the arithmetic of `align_to`: the least multiple of the alignment,
`alignTo_leastMultiple`); a structure's alignment is the one the plan gives it. Integers are
written in the trace's byte order, modulo `2 ^ size`; the UUID as its sixteen bytes; a string as
its bytes and a NUL; a dynamic array after its byte-packed `u32` count. The events are followed by
zero padding up to the packet size.

A `Writer` maps the cursor it starts from to the bytes it writes and the cursor after them.

`Parser.Conforms` says what a packet must be for its encoding to be read back: every value of the
type its parser reads (with the display base and the label `EventPayloadMemberParser::parse` gives
it; array elements as `PrimitiveFieldTypeParser::parse` alone gives them), strings well-formed
UTF-8 without NUL, the stream and event ids defined, the content size the bit offset after the
last event, and the packet size a multiple of 8 at or above it.
-/

namespace BarectfParser

/-! ## Writers -/

/-- From the cursor it starts at, the bytes a writer writes and the cursor after them. -/
def Writer := AlignedCursor → List UInt8 × AlignedCursor

namespace Writer

/-- Writes nothing. -/
def empty : Writer := fun c => ([], c)

/-- One writer, then the other from where it ends. -/
def append (w₁ w₂ : Writer) : Writer := fun c =>
  ((w₁ c).1 ++ (w₂ (w₁ c).2).1, (w₂ (w₁ c).2).2)

instance : Append Writer := ⟨append⟩

/-- The writers of a list, one after the other. -/
def concat : List Writer → Writer
  | [] => empty
  | w :: ws => w ++ concat ws

@[simp] theorem empty_apply (c : AlignedCursor) : empty c = ([], c) := rfl

@[simp] theorem append_apply (w₁ w₂ : Writer) (c : AlignedCursor) :
    (w₁ ++ w₂) c = ((w₁ c).1 ++ (w₂ (w₁ c).2).1, (w₂ (w₁ c).2).2) := rfl

theorem append_assoc (w₁ w₂ w₃ : Writer) : w₁ ++ w₂ ++ w₃ = w₁ ++ (w₂ ++ w₃) := by
  funext c
  simp

@[simp] theorem append_empty (w : Writer) : w ++ empty = w := by
  funext c
  simp

@[simp] theorem concat_nil : concat [] = empty := rfl

@[simp] theorem concat_cons (w : Writer) (ws : List Writer) : concat (w :: ws) = w ++ concat ws :=
  rfl

end Writer

/-! ## Bytes, padding and words -/

/-- `n` bytes of `v`, least significant first. -/
def leBytes : Nat → Nat → List UInt8
  | 0, _ => []
  | n + 1, v => UInt8.ofNat (v % 256) :: leBytes n (v / 256)

/-- The `n` bytes of the word `v` in the byte order `bo`. -/
def NativeByteOrder.encode : NativeByteOrder → Nat → Nat → List UInt8
  | .littleEndian, n, v => leBytes n v
  | .bigEndian, n, v => (leBytes n v).reverse

/-- Bytes as they are, eight bits on for each. -/
def writeBytes (bs : List UInt8) : Writer := fun c => (bs, ⟨c.bitIndex + 8 * bs.length⟩)

/-- Zero padding up to the alignment, as `align_to` moves the cursor. -/
def writePadding (align : Size) : Writer := fun c =>
  (List.replicate ((c.alignTo align).1 >>> 3) 0, (c.alignTo align).2)

/-- A word of `size` bits at the alignment `align`, where a `read_*` call reads it. -/
def writeWord (bo : NativeByteOrder) (size align : Size) (v : Nat) : Writer :=
  writePadding align ++ writeBytes (bo.encode (size.bits / 8) v)

/-- A string: byte-aligned, its bytes, then a NUL. -/
def writeString (s : List UInt8) : Writer := writePadding .bits8 ++ writeBytes (s ++ [0])

/-! ## Fields -/

/-- An unsigned integer field. -/
def UIntParser.write (bo : NativeByteOrder) (p : UIntParser) (v : Nat) : Writer :=
  writeWord bo p.desc.size p.desc.alignment v

/-- An optional field of the plan: written when the plan has it and the value is there. -/
def UIntParser.writeOpt (bo : NativeByteOrder) : Option UIntParser → Option Nat → Writer
  | some p, some v => p.write bo v
  | _, _ => Writer.empty

/-- The trace UUID: byte-aligned, its sixteen bytes. -/
def UuidParser.writeOpt : Option UuidParser → Option Uuid → Writer
  | some _, some u => writePadding .bits8 ++ writeBytes u.bytes
  | _, _ => Writer.empty

/-- The word a primitive value is written as: an unsigned integer or the bit pattern of a real
as it is, a signed integer or an enumeration's value modulo `2 ^ size` (two's complement). -/
def PrimitiveFieldValue.word (size : Nat) : PrimitiveFieldValue → Nat
  | .unsignedInteger v _ | .f32 v | .f64 v => v
  | .signedInteger v _ | .enumeration v _ _ => (v % 2 ^ size).toNat
  | .string _ => 0

/-- A primitive value at the field's size and alignment, or a string. -/
def PrimitiveFieldTypeParser.write (bo : NativeByteOrder) (p : PrimitiveFieldTypeParser) :
    PrimitiveFieldValue → Writer
  | .string s => writeString s
  | v => writeWord bo p.desc.size p.desc.alignment (v.word p.desc.size.bits)

/-- A member's value: a primitive, or an array's elements after the element alignment, a dynamic
array's after its byte-packed `u32` count. -/
def FieldTypeParser.write (bo : NativeByteOrder) : FieldTypeParser → FieldValue → Writer
  | .primitive p, .primitive v => p.write bo v
  | .staticArray _ p, .array vs =>
    writePadding p.desc.alignment ++ Writer.concat (vs.map (p.write bo))
  | .dynamicArray p, .array vs => writeWord bo .bits32 .bits8 vs.length ++
    writePadding p.desc.alignment ++ Writer.concat (vs.map (p.write bo))
  | _, _ => Writer.empty

/-- The members of a structure, in order. -/
def EventPayloadMemberParser.writeMembers (bo : NativeByteOrder) :
    List EventPayloadMemberParser → List (String × FieldValue) → Writer
  | m :: ms, (_, v) :: vs => m.value.write bo v ++ EventPayloadMemberParser.writeMembers bo ms vs
  | _, _ => Writer.empty

/-- A structure of an event: its alignment, then its members; nothing when the event has none. -/
def EventPayloadParser.writeOpt (bo : NativeByteOrder) :
    Option EventPayloadParser → List (String × FieldValue) → Writer
  | some p, vs => writePadding p.alignment ++ EventPayloadMemberParser.writeMembers bo p.members vs
  | none, _ => Writer.empty

/-! ## A packet -/

def Parser.writeHeader (p : Parser) (hdr : PacketHeader) : Writer :=
  writePadding p.pktHeader.alignment ++
    UIntParser.writeOpt p.byteOrder p.pktHeader.magic hdr.magicNumber ++
    UuidParser.writeOpt p.pktHeader.uuid hdr.traceUuid ++
    p.pktHeader.streamId.write p.byteOrder hdr.streamId

def StreamParser.writeContext (bo : NativeByteOrder) (stream : StreamParser)
    (ctx : PacketContext) : Writer :=
  let pc := stream.packetContext
  writePadding pc.alignment ++ pc.packetSize.write bo ctx.packetSizeBits ++
    pc.contentSize.write bo ctx.contentSizeBits ++
    UIntParser.writeOpt bo pc.beginningTimestamp ctx.beginningTimestamp ++
    UIntParser.writeOpt bo pc.endTimestamp ctx.endTimestamp ++
    UIntParser.writeOpt bo pc.eventsDiscarded ctx.eventsDiscarded ++
    UIntParser.writeOpt bo pc.sequenceNumber ctx.sequenceNumber ++
    EventPayloadMemberParser.writeMembers bo pc.extraMembers ctx.extraMembers

/-- An event: its header (id and timestamp), the stream's common context, then the specific
context and the payload of the event type its id names. -/
def StreamParser.writeEvent (bo : NativeByteOrder) (stream : StreamParser) (e : Event) : Writer :=
  writePadding stream.eventHeader.alignment ++ stream.eventHeader.eventId.write bo e.id ++
    stream.eventHeader.timestamp.write bo e.timestamp ++
    EventPayloadParser.writeOpt bo stream.commonContext e.commonContext ++
    match stream.events[e.id]? with
    | some ev => EventPayloadParser.writeOpt bo ev.specificContext e.specificContext ++
      EventPayloadParser.writeOpt bo ev.payload e.payload
    | none => Writer.empty

/-- The events, one after the other. -/
def StreamParser.writeEvents (bo : NativeByteOrder) (stream : StreamParser) (es : List Event) :
    Writer :=
  Writer.concat (es.map (stream.writeEvent bo))

/-- What the packet's content holds: the header, the context and the events. -/
def Parser.writeContent (p : Parser) (stream : StreamParser) (pkt : Packet) : Writer :=
  p.writeHeader pkt.header ++ stream.writeContext p.byteOrder pkt.context ++
    stream.writeEvents p.byteOrder pkt.events

/-- The packet's bytes: its content from bit 0, then zero padding up to the packet size. -/
def Parser.encode (p : Parser) (pkt : Packet) : List UInt8 :=
  match p.streams[pkt.header.streamId]? with
  | some stream => (p.writeContent stream pkt default).1 ++
    List.replicate ((pkt.context.packetSizeBits - pkt.context.contentSizeBits) / 8) 0
  | none => []

/-! ## Conforming values -/

/-- A value the primitive parser reads: an integer of the field's size with the default display
base (an enumeration's too), a string of well-formed UTF-8 without NUL, a real of 32 or 64
bits. -/
def PrimitiveFieldTypeParser.Typed : PrimitiveFieldTypeParser → PrimitiveFieldValue → Prop
  | .uInt d, v | .uEnum d, v => ∃ n, n < 2 ^ d.size.bits ∧ v = .unsignedInteger n .decimal
  | .int d, v | .enum d, v => ∃ i, -2 ^ (d.size.bits - 1) ≤ i ∧ i < 2 ^ (d.size.bits - 1) ∧
    v = .signedInteger i .decimal
  | .string _, v => ∃ s, 0 ∉ s ∧ Utf8WellFormed s ∧ v = .string s
  | .real d, v => ∃ n, n < 2 ^ d.size.bits ∧
    (d.size = .bits32 ∧ v = .f32 n ∨ d.size = .bits64 ∧ v = .f64 n)

/-- A value the field parser reads; an array has its length, a dynamic one fewer than `2 ^ 32`
elements. -/
def FieldTypeParser.Typed : FieldTypeParser → FieldValue → Prop
  | .primitive p, v => ∃ x, p.Typed x ∧ v = .primitive x
  | .staticArray len p, v => ∃ xs, v = .array xs ∧ xs.length = len ∧ ∀ x ∈ xs, p.Typed x
  | .dynamicArray p, v => ∃ xs, v = .array xs ∧ xs.length < 2 ^ 32 ∧ ∀ x ∈ xs, p.Typed x

/-- What `EventPayloadMemberParser::parse` makes of what the field parser reads: the member's
display base on an integer, then the label of an enumeration. -/
def EventPayloadMemberParser.present (m : EventPayloadMemberParser) (v : FieldValue) :
    FieldValue :=
  match m.enumMappings with
  | some mappings => mappings.labelValue (m.withDisplayBase v)
  | none => m.withDisplayBase v

def EventPayloadMemberParser.Typed (m : EventPayloadMemberParser) (v : FieldValue) : Prop :=
  ∃ x, m.value.Typed x ∧ v = m.present x

/-- The values of a structure's members: one per member, in order, under its name. -/
def EventPayloadMemberParser.MembersTyped (ms : List EventPayloadMemberParser)
    (vs : List (String × FieldValue)) : Prop :=
  List.Forall₂ (fun m e => e.1 = m.memberName ∧ m.Typed e.2) ms vs

/-- The values of an event's structure; none when the event has no such structure. -/
def EventPayloadParser.TypedOpt : Option EventPayloadParser → List (String × FieldValue) → Prop
  | some p, vs => EventPayloadMemberParser.MembersTyped p.members vs
  | none, vs => vs = []

/-- An optional field's value: there exactly when the plan has the field, and of its size. -/
def UIntParser.TypedOpt : Option UIntParser → Option Nat → Prop
  | some p, some v => v < 2 ^ p.desc.size.bits
  | none, none => True
  | _, _ => False

/-- An event of the stream: its id names the event type `ev`, its name and log level are the
type's, its header fields fit their sizes and its structures conform. -/
structure StreamParser.EventTyped (stream : StreamParser) (ev : EventParser) (e : Event) :
    Prop where
  event_eq : stream.events[e.id]? = some ev
  id_lt : e.id < 2 ^ stream.eventHeader.eventId.desc.size.bits
  timestamp_lt : e.timestamp < 2 ^ stream.eventHeader.timestamp.desc.size.bits
  name_eq : e.name = ev.eventName
  logLevel_eq : e.logLevel = ev.logLevel.map LogLevel.ofI32
  commonContext : EventPayloadParser.TypedOpt stream.commonContext e.commonContext
  specificContext : EventPayloadParser.TypedOpt ev.specificContext e.specificContext
  payload : EventPayloadParser.TypedOpt ev.payload e.payload

/-- A packet of the stream `stream` of the plan: the header's fields are the ones the plan gives
the stream id (any magic number below `2 ^ 32`, any UUID), every value conforms, the content size
is the bit offset after the last event, and the packet size a multiple of 8 at or above it. -/
structure Parser.Conforms (p : Parser) (stream : StreamParser) (pkt : Packet) : Prop where
  stream_eq : p.streams[pkt.header.streamId]? = some stream
  magic : UIntParser.TypedOpt p.pktHeader.magic pkt.header.magicNumber
  magic_lt : ∀ m ∈ pkt.header.magicNumber, m < 2 ^ 32
  uuid : p.pktHeader.uuid.isSome = pkt.header.traceUuid.isSome
  streamId_lt : pkt.header.streamId < 2 ^ p.pktHeader.streamId.desc.size.bits
  streamName_eq : pkt.header.streamName = stream.streamName
  clockName_eq : pkt.header.clockName = p.streamClocks.lookup pkt.header.streamId
  clockType_eq : pkt.header.clockType = p.streamClockTypes.lookup pkt.header.streamId
  packetSize_lt : pkt.context.packetSizeBits < 2 ^ stream.packetContext.packetSize.desc.size.bits
  contentSize_lt :
    pkt.context.contentSizeBits < 2 ^ stream.packetContext.contentSize.desc.size.bits
  beginningTimestamp : UIntParser.TypedOpt stream.packetContext.beginningTimestamp
    pkt.context.beginningTimestamp
  endTimestamp : UIntParser.TypedOpt stream.packetContext.endTimestamp pkt.context.endTimestamp
  eventsDiscarded : UIntParser.TypedOpt stream.packetContext.eventsDiscarded
    pkt.context.eventsDiscarded
  sequenceNumber : UIntParser.TypedOpt stream.packetContext.sequenceNumber
    pkt.context.sequenceNumber
  extraMembers : EventPayloadMemberParser.MembersTyped stream.packetContext.extraMembers
    pkt.context.extraMembers
  events : ∀ e ∈ pkt.events, ∃ ev, stream.EventTyped ev e
  contentSize_eq : pkt.context.contentSizeBits = (p.writeContent stream pkt default).2.bitIndex
  packetSize_mod : pkt.context.packetSizeBits % 8 = 0
  contentSize_le : pkt.context.contentSizeBits ≤ pkt.context.packetSizeBits

end BarectfParser
