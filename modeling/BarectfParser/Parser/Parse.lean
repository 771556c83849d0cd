import BarectfParser.Parser.Plan

/-!
# Parsing a packet

`Parser::parse`, `parse_header`, `parse_packet_context` and `parse_events`
(`src/parser/mod.rs`). The warnings on a wrong magic number or trace UUID are not modelled. The
`usize` subtraction `packet_size_bits - content_size_bits` is checked: it ends the call with
`Fault.subtractOverflow`, the panic of a build with overflow checks.

The three `debug_assert`s on the cursor (the header and the context end at their wire-size hints,
an event ends at or before the content size) are modelled by `debugAssert`, which the calls take
the flag `debugAssertions` for: with `true`, a failed assertion ends the call with
`Fault.debugAssertion`, as in a build with debug assertions (`cargo build`); with `false`, the
assertions are compiled out. Both builds are read with overflow checks on, so every call of the
model is the code of the `dev` profile with or without its debug assertions.

The event loop runs until the cursor equals the content size. It is given `src.length + 1`
iterations: each iteration takes at least one byte (`parseEvent_takes_byte`), so more never
changes the outcome (`parseEventsLoop_fuel`) and the fuel is never spent.
-/

namespace BarectfParser

/-! ## The calls -/

/-- `debug_assert!(ok)`: a panic when `ok` fails, in a build with debug assertions; nothing in a
build without them. -/
def debugAssert (debugAssertions : Bool) (ok : Prop) [Decidable ok] : ReadM Unit :=
  if debugAssertions ∧ ¬ok then throw .debugAssertion else pure ()

/-- `debug_assert!(ok(r.cursor_bits()))`. -/
def debugAssertCursor (debugAssertions : Bool) (ok : Nat → Prop) [DecidablePred ok] :
    ReadM Unit := do
  debugAssert debugAssertions (ok (← StreamReader.cursorBits))

def Parser.parseHeader (debugAssertions : Bool) (self : Parser) : ReadM PacketHeader := do
  StreamReader.alignTo self.pktHeader.alignment
  let magic ← self.pktHeader.magic.mapM UIntParser.parse
  let traceUuid ← self.pktHeader.uuid.mapM UuidParser.parse
  let streamId ← self.pktHeader.streamId.parse
  -- ensure the wire size hint is aligned with reality
  debugAssertCursor debugAssertions (· = self.pktHeader.wireSizeHint.cursorBits)
  let some stream := self.streams[streamId]? | throw (.error (.undefinedStreamId streamId))
  pure ⟨magic.map (· % 2 ^ 32), traceUuid, streamId, stream.streamName,
    self.streamClocks.lookup streamId, self.streamClockTypes.lookup streamId⟩

/-- `for member in members { let val = member.parse(r)?; out.push((member.member_name, val)) }`. -/
def EventPayloadMemberParser.parseMembers (members : List EventPayloadMemberParser) :
    ReadM (List (String × FieldValue)) :=
  members.mapM fun m => do
    let val ← m.parse
    pure (m.memberName, val)

/-- A structure of an event: aligned, then its members; nothing when the event has none. -/
def EventPayloadParser.parseOpt : Option EventPayloadParser → ReadM (List (String × FieldValue))
  | some p => do
    StreamReader.alignTo p.alignment
    EventPayloadMemberParser.parseMembers p.members
  | none => pure []

def Parser.parsePacketContext (debugAssertions : Bool) (stream : StreamParser) :
    ReadM PacketContext := do
  let pc := stream.packetContext
  StreamReader.alignTo pc.alignment
  let pktSizeBits ← pc.packetSize.parse
  let contentSizeBits ← pc.contentSize.parse
  let beginningTimestamp ← pc.beginningTimestamp.mapM UIntParser.parse
  let endTimestamp ← pc.endTimestamp.mapM UIntParser.parse
  let eventsDiscarded ← pc.eventsDiscarded.mapM UIntParser.parse
  let sequenceNumber ← pc.sequenceNumber.mapM UIntParser.parse
  let extraMembers ← EventPayloadMemberParser.parseMembers pc.extraMembers
  -- ensure the wire size hint is aligned with reality
  debugAssertCursor debugAssertions (· = pc.wireSizeHint.cursorBits)
  pure ⟨pktSizeBits, contentSizeBits, beginningTimestamp, endTimestamp, eventsDiscarded,
    sequenceNumber, extraMembers⟩

/-- The event loop's body after the event id: the timestamp, the common context, then the
structures of the event the id names. -/
def Parser.parseEventBody (stream : StreamParser) (eventId : Nat) : ReadM Event := do
  let timestamp ← stream.eventHeader.timestamp.parse
  let commonContext ← EventPayloadParser.parseOpt stream.commonContext
  let some event := stream.events[eventId]? | throw (.error (.undefinedEventId eventId))
  let specificContext ← EventPayloadParser.parseOpt event.specificContext
  let payload ← EventPayloadParser.parseOpt event.payload
  pure ⟨eventId, event.eventName, timestamp, event.logLevel.map LogLevel.ofI32, commonContext,
    specificContext, payload⟩

/-- One iteration of the event loop, up to the exit test. -/
def Parser.parseEvent (stream : StreamParser) : ReadM Event := do
  StreamReader.alignTo stream.eventHeader.alignment
  let eventId ← stream.eventHeader.eventId.parse
  Parser.parseEventBody stream eventId

/-- The `loop` of `parse_events`, for at most `fuel` iterations: `Fault.outOfFuel` once they are
spent. -/
def Parser.parseEventsLoop (debugAssertions : Bool) (stream : StreamParser)
    (contentSizeBits : Nat) : Nat → ReadM (List Event)
  | 0 => throw .outOfFuel
  | fuel + 1 => do
    let event ← Parser.parseEvent stream
    -- done with actual packet data, may still be residual bits to skip over
    debugAssertCursor debugAssertions (· ≤ contentSizeBits)
    if (← StreamReader.cursorBits) = contentSizeBits then pure [event]
    else (event :: ·) <$> Parser.parseEventsLoop debugAssertions stream contentSizeBits fuel

def Parser.parseEvents (debugAssertions : Bool) (stream : StreamParser)
    (packetContext : PacketContext) : ReadM (List Event) := do
  let r ← get
  let events ← Parser.parseEventsLoop debugAssertions stream packetContext.contentSizeBits
    (r.src.length + 1)
  -- skip the rest of the packet, without the cursor
  if packetContext.packetSizeBits < packetContext.contentSizeBits then throw .subtractOverflow
  let remainingBits := packetContext.packetSizeBits - packetContext.contentSizeBits
  if remainingBits ≠ 0 then skipBytes (remainingBits >>> 3)
  pure events

def Parser.parsePacket (debugAssertions : Bool) (self : Parser) : ReadM Packet := do
  let header ← self.parseHeader debugAssertions
  let some stream := self.streams[header.streamId]?
    | throw (.error (.undefinedStreamId header.streamId))
  let context ← Parser.parsePacketContext debugAssertions stream
  let events ← Parser.parseEvents debugAssertions stream context
  pure ⟨header, context, events⟩

/-- `Parser::parse` on a byte source: the packet and the bytes left unread. -/
def Parser.parse (debugAssertions : Bool) (self : Parser) (src : List UInt8) :
    Except Fault (Packet × List UInt8) :=
  (fun (pkt, r) => (pkt, r.src)) <$>
    (self.parsePacket debugAssertions).run (StreamReader.new self.byteOrder src)

/-! ## Assertions -/

section
variable {da : Bool} {ok : Prop} [Decidable ok] {okc : Nat → Prop} [DecidablePred okc]
  {bo : NativeByteOrder} {src : List UInt8} {c : AlignedCursor} {r r' : StreamReader}

theorem debugAssert_run : (debugAssert da ok).run r =
    if da = true ∧ ¬ok then .error .debugAssertion else .ok ((), r) := by
  unfold debugAssert
  split <;> rfl

theorem runs_debugAssert : Runs (debugAssert da ok) r () r' ↔ r' = r ∧ (da = true → ok) := by
  rw [Runs, debugAssert_run]
  split
  · rename_i h
    exact iff_of_false (fun h' => by cases h') fun ⟨_, h'⟩ => h.2 (h' h.1)
  · rename_i h
    simp only [Except.ok.injEq, Prod.mk.injEq, true_and]
    exact ⟨fun e => ⟨e.symm, fun hd => by_contra fun hn => h ⟨hd, hn⟩⟩, fun ⟨e, _⟩ => e.symm⟩

theorem debugAssertCursor_run : (debugAssertCursor da okc).run ⟨bo, src, c⟩ =
    if da = true ∧ ¬okc c.bitIndex then .error .debugAssertion else .ok ((), ⟨bo, src, c⟩) := by
  simp only [debugAssertCursor, StateT.run_bind, StreamReader.run_cursorBits, except_ok_bind]
  exact debugAssert_run

theorem runs_debugAssertCursor {u : Unit} :
    Runs (debugAssertCursor da okc) ⟨bo, src, c⟩ u r' ↔
      r' = ⟨bo, src, c⟩ ∧ (da = true → okc c.bitIndex) := by
  simp only [Runs, debugAssertCursor, StateT.run_bind, StreamReader.run_cursorBits,
    except_ok_bind]
  exact runs_debugAssert

/-- Without debug assertions the check is compiled out. -/
@[simp] theorem debugAssertCursor_false : debugAssertCursor false okc = pure () := by
  funext r
  obtain ⟨bo, src, c⟩ := r
  exact debugAssertCursor_run.trans (if_neg fun h => Bool.false_ne_true h.1)

theorem Reads.debugAssertCursor : Reads (debugAssertCursor da okc) := by
  intro bo src c u r' h
  obtain ⟨rfl, hok⟩ := runs_debugAssertCursor.1 h
  exact ⟨[], rfl, rfl, fun _ => rfl, fun s => runs_debugAssertCursor.2 ⟨rfl, hok⟩⟩

end

/-! ## Every call takes a prefix of the source -/

theorem Reads.optionMapM {α β : Type} {f : α → ReadM β} (hf : ∀ a, Reads (f a)) :
    ∀ o : Option α, Reads (o.mapM f)
  | none => Reads.pure none
  | some a => (hf a).bind fun b => Reads.pure (some b)

theorem Reads.mod_eight {α : Type} {m : ReadM α} (hm : Reads m) {bo : NativeByteOrder}
    {src : List UInt8} {c : AlignedCursor} {a : α} {r' : StreamReader}
    (h : Runs m ⟨bo, src, c⟩ a r') (h8 : c.bitIndex % 8 = 0) : r'.cursor.bitIndex % 8 = 0 := by
  obtain ⟨taken, -, -, hc, -⟩ := hm bo src c a r' h
  omega

theorem Reads.length_le {α : Type} {m : ReadM α} (hm : Reads m) {r r' : StreamReader} {a : α}
    (h : Runs m r a r') : r'.src.length ≤ r.src.length := by
  obtain ⟨taken, hs, -⟩ := hm r.byteOrder r.src r.cursor a r' h
  rw [hs, List.length_append]
  omega

theorem Parser.parseHeader_reads {da : Bool} (p : Parser) : Reads (p.parseHeader da) :=
  (Reads.alignTo _).bind fun _ => (Reads.optionMapM UIntParser.reads _).bind fun _ =>
    (Reads.optionMapM UuidParser.reads _).bind fun _ => p.pktHeader.streamId.reads.bind fun _ =>
      Reads.debugAssertCursor.bind fun _ => by
        split
        · exact Reads.pure _
        · exact Reads.throw _

theorem EventPayloadMemberParser.parseMembers_reads (ms : List EventPayloadMemberParser) :
    Reads (EventPayloadMemberParser.parseMembers ms) :=
  Reads.mapM (fun m => m.reads.bind fun _ => Reads.pure _) ms

theorem EventPayloadParser.parseOpt_reads :
    ∀ p : Option EventPayloadParser, Reads (EventPayloadParser.parseOpt p)
  | some _ => (Reads.alignTo _).bind fun _ => EventPayloadMemberParser.parseMembers_reads _
  | none => Reads.pure _

theorem Parser.parsePacketContext_reads {da : Bool} (stream : StreamParser) :
    Reads (Parser.parsePacketContext da stream) :=
  (Reads.alignTo _).bind fun _ => (UIntParser.reads _).bind fun _ =>
    (UIntParser.reads _).bind fun _ => (Reads.optionMapM UIntParser.reads _).bind fun _ =>
    (Reads.optionMapM UIntParser.reads _).bind fun _ =>
    (Reads.optionMapM UIntParser.reads _).bind fun _ =>
    (Reads.optionMapM UIntParser.reads _).bind fun _ =>
    (EventPayloadMemberParser.parseMembers_reads _).bind fun _ =>
    Reads.debugAssertCursor.bind fun _ => Reads.pure _

theorem Parser.parseEventBody_reads (stream : StreamParser) (eventId : Nat) :
    Reads (Parser.parseEventBody stream eventId) :=
  (UIntParser.reads _).bind fun _ => (EventPayloadParser.parseOpt_reads _).bind fun _ => by
    split
    · exact (EventPayloadParser.parseOpt_reads _).bind fun _ =>
        (EventPayloadParser.parseOpt_reads _).bind fun _ => Reads.pure _
    · exact Reads.throw _

theorem Parser.parseEvent_reads (stream : StreamParser) : Reads (Parser.parseEvent stream) :=
  (Reads.alignTo _).bind fun _ => (UIntParser.reads _).bind (Parser.parseEventBody_reads stream)

theorem Parser.parseEventsLoop_reads {da : Bool} (stream : StreamParser) (cs : Nat) :
    ∀ n, Reads (Parser.parseEventsLoop da stream cs n)
  | 0 => Reads.throw _
  | n + 1 => (Parser.parseEvent_reads stream).bind fun _ => Reads.debugAssertCursor.bind fun _ =>
      Reads.cursorBits.bind fun _ => by
        split
        · exact Reads.pure _
        · exact Reads.map _ (Parser.parseEventsLoop_reads stream cs n)

/-! ## The header -/

section
variable {da : Bool} {bo : NativeByteOrder} {src : List UInt8} {c : AlignedCursor}
  {r' : StreamReader}

theorem UIntParser.runs_mapM_cursor {o : Option UIntParser} {v : Option Nat}
    (h : Runs (o.mapM UIntParser.parse) ⟨bo, src, c⟩ v r') : r'.cursor = c.alignedIncrementOpt o := by
  cases o with
  | none => obtain ⟨-, rfl⟩ := runs_pure.1 h; rfl
  | some p =>
    obtain ⟨_, ⟨bo1, src1, c1⟩, h1, h⟩ := runs_bind.1 h
    obtain ⟨-, rfl⟩ := runs_pure.1 h
    exact UIntParser.runs_cursor h1

theorem UuidParser.runs_mapM_cursor {o : Option UuidParser} {v : Option Uuid}
    (h8 : c.bitIndex % 8 = 0) (h : Runs (o.mapM UuidParser.parse) ⟨bo, src, c⟩ v r') :
    r'.cursor = if o.isSome then ((c.alignTo .bits8).2.increment .bits64).increment .bits64
      else c := by
  cases o with
  | none => obtain ⟨-, rfl⟩ := runs_pure.1 h; rfl
  | some p =>
    obtain ⟨_, ⟨bo1, src1, c1⟩, h1, h⟩ := runs_bind.1 h
    obtain ⟨-, rfl⟩ := runs_pure.1 h
    have := UuidParser.runs_cursor h8 h1
    simp only [Option.isSome_some, if_true, alignTo_bits8 h8]
    ext
    simp only [AlignedCursor.increment_bitIndex, Size.bits] at this ⊢
    omega

/-- The header parser's reads, from cursor 0, follow the hint `PacketHeaderParser::new`
computes from the same fields. -/
theorem Parser.parseHeader_cursor {p : Parser} {magic : Option UIntParser}
    {uuid : Option UuidParser} {streamId : UIntParser} {alignment : Size} {hdr : PacketHeader}
    (hh : p.pktHeader = PacketHeaderParser.new magic uuid streamId alignment)
    (h : Runs (p.parseHeader da) ⟨bo, src, default⟩ hdr r') :
    r'.cursor = p.pktHeader.wireSizeHint := by
  unfold Parser.parseHeader at h
  rw [hh] at h ⊢
  obtain ⟨_, r1, h1, h⟩ := runs_bind.1 h
  obtain ⟨_, rest, -, -, rfl⟩ := runs_alignTo.1 h1
  obtain ⟨_, ⟨bo2, src2, c2⟩, h2, h⟩ := runs_bind.1 h
  obtain ⟨_, ⟨bo3, src3, c3⟩, h3, h⟩ := runs_bind.1 h
  obtain ⟨_, ⟨bo4, src4, c4⟩, h4, h⟩ := runs_bind.1 h
  obtain ⟨_, _, h5, h⟩ := runs_bind.1 h
  obtain ⟨rfl, -⟩ := runs_debugAssertCursor.1 h5
  have : r' = ⟨bo4, src4, c4⟩ := by
    split at h
    · exact (runs_pure.1 h).2.symm
    · exact absurd h runs_throw
  subst this
  have h8 : c2.bitIndex % 8 = 0 :=
    ((Reads.alignTo _).bind fun _ => Reads.optionMapM UIntParser.reads _).mod_eight
      (runs_bind.2 ⟨_, _, h1, h2⟩) rfl
  have e2 := UIntParser.runs_mapM_cursor h2
  have e3 := UuidParser.runs_mapM_cursor h8 h3
  have e4 := UIntParser.runs_cursor h4
  dsimp only at e2 e3 e4 ⊢
  rw [e4, e3, e2]
  rfl

def PrimitiveFieldType.isString : PrimitiveFieldType → Bool
  | .string => true
  | _ => false

/-- A member type whose wire size is one element of its type, as the wire-size hint counts it:
not a string or a dynamic array, and a static array only of one element that is not a string. -/
def StructureMemberFieldType.hasFixedWireSize : StructureMemberFieldType → Bool
  | .string | .dynamicArray _ => false
  | .staticArray t => t.length == 1 && !t.elementFieldType.isString
  | _ => true

theorem PrimitiveFieldTypeParser.fromFt_isString {ft : PrimitiveFieldType}
    {p : PrimitiveFieldTypeParser} (h : PrimitiveFieldTypeParser.fromFt ft = .ok p) :
    p.isString = ft.isString := by
  obtain ⟨desc, -, h⟩ := except_bind_eq_ok.1 h
  cases ft <;> cases h <;> rfl

theorem FieldTypeParser.fromFt_hasFixedWireSize {ft : StructureMemberFieldType}
    {p : FieldTypeParser} (h : FieldTypeParser.fromFt ft = .ok p) :
    p.hasFixedWireSize = ft.hasFixedWireSize := by
  obtain ⟨desc, -, h⟩ := except_bind_eq_ok.1 h
  cases ft
  case staticArray t =>
    obtain ⟨q, hq, h⟩ := except_bind_eq_ok.1 h
    cases h
    simp [FieldTypeParser.hasFixedWireSize, StructureMemberFieldType.hasFixedWireSize,
      PrimitiveFieldTypeParser.fromFt_isString hq]
  case dynamicArray t =>
    obtain ⟨q, hq, h⟩ := except_bind_eq_ok.1 h
    cases h
    rfl
  all_goals cases h; rfl

theorem EventPayloadMemberParser.parseMembers_cursor {ms : List EventPayloadMemberParser}
    {vs : List (String × FieldValue)} (hf : ∀ m ∈ ms, m.value.hasFixedWireSize)
    (h : Runs (EventPayloadMemberParser.parseMembers ms) ⟨bo, src, c⟩ vs r') :
    r'.cursor = ms.foldl (fun c m => c.alignedIncrement m.value.desc) c := by
  induction ms generalizing bo src c vs with
  | nil => obtain ⟨-, rfl⟩ := runs_pure.1 h; rfl
  | cons m ms ih =>
    simp only [EventPayloadMemberParser.parseMembers, List.mapM_cons] at h
    obtain ⟨_, r1, h1, h⟩ := runs_bind.1 h
    obtain ⟨_, ⟨bo2, src2, c2⟩, h2, h1⟩ := runs_bind.1 h1
    obtain ⟨-, rfl⟩ := runs_pure.1 h1
    obtain ⟨_, r3, h3, h⟩ := runs_bind.1 h
    obtain ⟨-, rfl⟩ := runs_pure.1 h
    have e2 := EventPayloadMemberParser.runs_cursor (hf m (List.mem_cons_self _ _)) h2
    dsimp only at e2
    rw [List.foldl_cons, ← e2]
    exact ih (fun m hm => hf m (List.mem_cons_of_mem _ hm)) h3

/-- The packet context parser's reads follow the hint `PacketContextParser::new` computes, when
every extra member has a fixed wire size. -/
theorem Parser.parsePacketContext_cursor {stream : StreamParser} {args : PacketContextParserArgs}
    {hint : AlignedCursor} {ctx : PacketContext}
    (hpc : stream.packetContext = PacketContextParser.new args hint)
    (hf : ∀ m ∈ args.extraMembers, m.value.hasFixedWireSize)
    (h : Runs (Parser.parsePacketContext da stream) ⟨bo, src, hint⟩ ctx r') :
    r'.cursor = stream.packetContext.wireSizeHint := by
  unfold Parser.parsePacketContext at h
  rw [hpc] at h ⊢
  obtain ⟨_, r1, h1, h⟩ := runs_bind.1 h
  obtain ⟨_, rest, -, -, rfl⟩ := runs_alignTo.1 h1
  obtain ⟨_, ⟨bo2, src2, c2⟩, h2, h⟩ := runs_bind.1 h
  obtain ⟨_, ⟨bo3, src3, c3⟩, h3, h⟩ := runs_bind.1 h
  obtain ⟨_, ⟨bo4, src4, c4⟩, h4, h⟩ := runs_bind.1 h
  obtain ⟨_, ⟨bo5, src5, c5⟩, h5, h⟩ := runs_bind.1 h
  obtain ⟨_, ⟨bo6, src6, c6⟩, h6, h⟩ := runs_bind.1 h
  obtain ⟨_, ⟨bo7, src7, c7⟩, h7, h⟩ := runs_bind.1 h
  obtain ⟨_, ⟨bo8, src8, c8⟩, h8, h⟩ := runs_bind.1 h
  obtain ⟨_, _, h9, h⟩ := runs_bind.1 h
  obtain ⟨rfl, -⟩ := runs_debugAssertCursor.1 h9
  obtain ⟨-, rfl⟩ := runs_pure.1 h
  have e2 := UIntParser.runs_cursor h2
  have e3 := UIntParser.runs_cursor h3
  have e4 := UIntParser.runs_mapM_cursor h4
  have e5 := UIntParser.runs_mapM_cursor h5
  have e6 := UIntParser.runs_mapM_cursor h6
  have e7 := UIntParser.runs_mapM_cursor h7
  have e8 := EventPayloadMemberParser.parseMembers_cursor hf h8
  dsimp only at e2 e3 e4 e5 e6 e7 e8 ⊢
  rw [e8, e7, e6, e5, e4, e3, e2]
  rfl

end

/-! ## The wire-size hints -/

/-- **Header wire size.** For a parser `Parser::new` builds, a successful `parse_header` from a
fresh reader ends at `pkt_header.wire_size_hint`. -/
theorem Parser.parseHeader_ends_at_wireSizeHint {cfg : Config} {p : Parser}
    (hp : Parser.new cfg = .ok p) {da : Bool} {bo : NativeByteOrder} {src : List UInt8}
    {hdr : PacketHeader} {r' : StreamReader}
    (h : Runs (p.parseHeader da) (StreamReader.new bo src) hdr r') :
    r'.cursor = p.pktHeader.wireSizeHint := by
  obtain ⟨magic, streamId, alignment, streams, -, -, -, -, -, rfl⟩ := Parser.new_ok hp
  exact Parser.parseHeader_cursor rfl h

/-- The context of stream `i` ends at the stream's hint when the extra members of the data
stream type it is compiled from all have a fixed wire size. -/
theorem Parser.parsePacketContext_cursor_of_fixed {cfg : Config} {p : Parser}
    (hp : Parser.new cfg = .ok p) {i : Nat} {stream : StreamParser}
    (hs : p.streams[i]? = some stream)
    (hf : ∀ e, (sortedByKey cfg.trace.typ.dataStreamTypes.entries)[i]? = some e →
      ∀ m ∈ memberEntries e.2.packetContextFieldTypeExtraMembers.members,
        m.2.fieldType.hasFixedWireSize)
    {da : Bool} {bo : NativeByteOrder} {src : List UInt8} {ctx : PacketContext}
    {r' : StreamReader}
    (h : Runs (Parser.parsePacketContext da stream) ⟨bo, src, p.pktHeader.wireSizeHint⟩ ctx r') :
    r'.cursor = stream.packetContext.wireSizeHint := by
  obtain ⟨magic, streamId, alignment, streams, -, -, -, -, hst, rfl⟩ := Parser.new_ok hp
  obtain ⟨e, he, hs⟩ := forall₂_getElem?_right hst hs
  obtain ⟨-, args, hpc, hx⟩ := StreamParser.fromDataStreamType_ok hs
  refine Parser.parsePacketContext_cursor hpc (fun m hm => ?_) h
  obtain ⟨j, hj⟩ := List.mem_iff_getElem?.1 hm
  obtain ⟨e', he', hr⟩ := forall₂_getElem?_right (EventPayloadMemberParser.fromMembers_ok hx) hj
  rw [FieldTypeParser.fromFt_hasFixedWireSize hr]
  exact hf e he e' (List.getElem?_mem he')

/-- **Packet context wire size, fixed-size members.** For a parser `Parser::new` builds, when the
extra members of stream `i`'s packet context all have a fixed wire size, a successful
`parse_packet_context` from the header's hint ends at the stream's context hint. -/
theorem Parser.parsePacketContext_ends_at_wireSizeHint {cfg : Config} {p : Parser}
    (hp : Parser.new cfg = .ok p) {i : Nat} {name : String} {dst : DataStreamType}
    {stream : StreamParser}
    (hd : (sortedByKey cfg.trace.typ.dataStreamTypes.entries)[i]? = some (name, dst))
    (hs : p.streams[i]? = some stream)
    (hf : ∀ e ∈ memberEntries dst.packetContextFieldTypeExtraMembers.members,
      e.2.fieldType.hasFixedWireSize)
    {da : Bool} {bo : NativeByteOrder} {src : List UInt8} {ctx : PacketContext}
    {r' : StreamReader}
    (h : Runs (Parser.parsePacketContext da stream) ⟨bo, src, p.pktHeader.wireSizeHint⟩ ctx r') :
    r'.cursor = stream.packetContext.wireSizeHint :=
  Parser.parsePacketContext_cursor_of_fixed hp hs
    (fun e he => by rw [hd, Option.some.injEq] at he; exact he ▸ hf) h

/-! ## A one-stream configuration -/

/-- `u8`, byte-aligned. -/
def u8FieldType : UnsignedIntegerFieldType := ⟨⟨8, 8, .decimal⟩⟩

/-- A data stream type whose packet-context and event-header fields are `u8`, with the given
extra members and one event record type `e` without structures. -/
def oneEventStreamType (extraMembers : List (BTreeMap StructureFieldTypeMember)) :
    DataStreamType :=
  ⟨none, ⟨⟨u8FieldType, u8FieldType, .false, .false, .false, .false⟩, ⟨u8FieldType, u8FieldType⟩⟩,
    ⟨extraMembers⟩, none, ⟨[("e", ⟨none, none, none⟩)], List.pairwise_singleton _ _⟩⟩

/-- A little-endian trace type with a `u8` stream id and one data stream type `s`. -/
def oneStreamConfig (extraMembers : List (BTreeMap StructureFieldTypeMember)) : Config :=
  ⟨⟨⟨.littleEndian, none, ⟨.false, false, u8FieldType⟩, ⟨[], List.Pairwise.nil⟩,
    ⟨[("s", oneEventStreamType extraMembers)], List.pairwise_singleton _ _⟩⟩⟩⟩

/-- A one-member extra-member list. -/
def oneMember (name : String) (ft : StructureMemberFieldType) :
    List (BTreeMap StructureFieldTypeMember) :=
  [⟨[(name, ⟨ft⟩)], List.pairwise_singleton _ _⟩]

/-- The plan `Parser::new` builds from `oneStreamConfig []`. -/
def oneStreamParser : { p : Parser // Parser.new (oneStreamConfig []) = .ok p } := ⟨_, rfl⟩

/-- The header of `oneStreamConfig` is the stream id byte; the assertion of a build with debug
assertions passes. -/
theorem parseHeader_oneStream_at_hint : ∃ p, Parser.new (oneStreamConfig []) = .ok p ∧
    Runs (p.parseHeader true) (StreamReader.new .littleEndian [0]) ⟨none, none, 0, "s", none, none⟩
      ⟨.littleEndian, [], ⟨8⟩⟩ ∧ (⟨8⟩ : AlignedCursor) = p.pktHeader.wireSizeHint :=
  ⟨_, rfl, rfl, @Parser.parseHeader_ends_at_wireSizeHint (oneStreamConfig []) _ rfl true
    .littleEndian [0] ⟨none, none, 0, "s", none, none⟩ ⟨.littleEndian, [], ⟨8⟩⟩ rfl⟩

/-- The plan `Parser::new` builds from `oneStreamConfig` with a `u16` extra member `n`. -/
def u16MemberParser : { p : Parser //
    Parser.new (oneStreamConfig (oneMember "n" (.unsignedInteger ⟨16, 16, .hexadecimal⟩))) =
      .ok p } := ⟨_, rfl⟩

/-- With a `u16` extra member the context is padded to bit 16 and ends at bit 48, its hint. -/
theorem parsePacketContext_u16_member_at_hint : ∃ p stream,
    Parser.new (oneStreamConfig (oneMember "n" (.unsignedInteger ⟨16, 16, .hexadecimal⟩))) =
      .ok p ∧ p.streams[0]? = some stream ∧
    Runs (Parser.parsePacketContext true stream)
      ⟨.littleEndian, [0, 0, 0, 1, 0], p.pktHeader.wireSizeHint⟩
      ⟨0, 0, none, none, none, none, [("n", .primitive (.unsignedInteger 1 .hexadecimal))]⟩
      ⟨.littleEndian, [], ⟨48⟩⟩ ∧ (⟨48⟩ : AlignedCursor) = stream.packetContext.wireSizeHint :=
  ⟨u16MemberParser.1, _, u16MemberParser.2, rfl, rfl, @Parser.parsePacketContext_ends_at_wireSizeHint
    (oneStreamConfig (oneMember "n" (.unsignedInteger ⟨16, 16, .hexadecimal⟩))) _ u16MemberParser.2 0 "s"
    (oneEventStreamType (oneMember "n" (.unsignedInteger ⟨16, 16, .hexadecimal⟩))) _ rfl rfl
    (by decide) true .littleEndian [0, 0, 0, 1, 0]
    ⟨0, 0, none, none, none, none, [("n", .primitive (.unsignedInteger 1 .hexadecimal))]⟩
    ⟨.littleEndian, [], ⟨48⟩⟩ rfl⟩

/-- A string extra member: `parse_packet_context` reads `ab` and its NUL, three bytes, where the
hint counts one. From the header's hint, bit 8, the cursor ends at bit 48; the hint is bit 32.
Without debug assertions the call returns the context there; with them, its `debug_assert_eq!`
fails. -/
theorem parsePacketContext_string_member_overruns_hint : ∃ p stream,
    Parser.new (oneStreamConfig (oneMember "m" .string)) = .ok p ∧ p.streams[0]? = some stream ∧
    p.pktHeader.wireSizeHint = ⟨8⟩ ∧
    Runs (Parser.parsePacketContext false stream)
      ⟨.littleEndian, [0, 0, 0x61, 0x62, 0], p.pktHeader.wireSizeHint⟩
      ⟨0, 0, none, none, none, none, [("m", .primitive (.string [0x61, 0x62]))]⟩
      ⟨.littleEndian, [], ⟨48⟩⟩ ∧ stream.packetContext.wireSizeHint = ⟨32⟩ ∧
    (Parser.parsePacketContext true stream).run
      ⟨.littleEndian, [0, 0, 0x61, 0x62, 0], p.pktHeader.wireSizeHint⟩ = .error .debugAssertion :=
  ⟨_, _, rfl, rfl, rfl, rfl, rfl, rfl⟩

/-! ## The event loop -/

/-- A `read_u*` takes its word's bytes. -/
theorem UIntParser.takes_byte (p : UIntParser) {r r' : StreamReader} {v : Nat}
    (h : Runs p.parse r v r') : r'.src.length < r.src.length := by
  rw [p.parse_eq] at h
  obtain ⟨pad, bytes, rest, -, hb, hs, -, rfl⟩ := runs_readWord.1 h
  have := p.desc.size.bits_pos
  simp only [hs, List.length_append]
  omega

/-- Each iteration of the event loop takes at least one byte: the event id is at least 8 bits. -/
theorem Parser.parseEvent_takes_byte {stream : StreamParser} {r r' : StreamReader} {e : Event}
    (h : Runs (Parser.parseEvent stream) r e r') : r'.src.length < r.src.length := by
  obtain ⟨_, r1, h1, h⟩ := runs_bind.1 h
  obtain ⟨eventId, r2, h2, h3⟩ := runs_bind.1 h
  have := (Reads.alignTo _).length_le h1
  have := stream.eventHeader.eventId.takes_byte h2
  have := (Parser.parseEventBody_reads stream eventId).length_le h3
  omega

section
variable {da : Bool} {stream : StreamParser} {cs n : Nat} {r r'' : StreamReader}
  {evs : List Event}

/-- One iteration: an event, the assertion on the cursor, then the exit test. -/
theorem Parser.runs_parseEventsLoop_succ :
    Runs (Parser.parseEventsLoop da stream cs (n + 1)) r evs r'' ↔
      ∃ e r', Runs (Parser.parseEvent stream) r e r' ∧ (da = true → r'.cursor.bitIndex ≤ cs) ∧
        (r'.cursor.bitIndex = cs ∧ evs = [e] ∧ r'' = r' ∨
          r'.cursor.bitIndex ≠ cs ∧
            ∃ evs', evs = e :: evs' ∧ Runs (Parser.parseEventsLoop da stream cs n) r' evs' r'') := by
  simp only [Parser.parseEventsLoop, runs_bind]
  constructor
  · rintro ⟨e, ⟨bo, src, c⟩, he, u, r1, ha, b, r2, hb, h⟩
    obtain ⟨rfl, hok⟩ := runs_debugAssertCursor.1 ha
    obtain ⟨rfl, rfl⟩ := runs_cursorBits.1 hb
    refine ⟨e, _, he, hok, ?_⟩
    split at h
    · obtain ⟨rfl, rfl⟩ := runs_pure.1 h
      exact .inl ⟨‹_›, rfl, rfl⟩
    · obtain ⟨evs', hl, rfl⟩ := runs_map.1 h
      exact .inr ⟨‹_›, evs', rfl, hl⟩
  · rintro ⟨e, ⟨bo, src, c⟩, he, hok, h⟩
    refine ⟨e, _, he, (), _, runs_debugAssertCursor.2 ⟨rfl, hok⟩, c.bitIndex, _,
      runs_cursorBits.2 ⟨rfl, rfl⟩, ?_⟩
    rcases h with ⟨hc, rfl, rfl⟩ | ⟨hc, evs', rfl, h⟩
    · rw [if_pos hc]; exact runs_pure.2 ⟨rfl, rfl⟩
    · rw [if_neg hc]; exact runs_map.2 ⟨evs', h, rfl⟩

/-- With no fuel left the loop does not return. -/
theorem Parser.parseEventsLoop_zero {r r'' : StreamReader} {evs : List Event} :
    ¬Runs (Parser.parseEventsLoop da stream cs 0) r evs r'' :=
  runs_throw

/-- A loop that returns stops at the content size, with at least one event, each of which took
a byte. -/
theorem Parser.parseEventsLoop_runs
    (h : Runs (Parser.parseEventsLoop da stream cs n) r evs r'') :
    r''.cursor.bitIndex = cs ∧ evs ≠ [] ∧ evs.length + r''.src.length ≤ r.src.length := by
  induction n generalizing r evs with
  | zero => exact absurd h Parser.parseEventsLoop_zero
  | succ n ih =>
    obtain ⟨e, r', he, -, ⟨hc, rfl, rfl⟩ | ⟨-, evs', rfl, hn⟩⟩ :=
      Parser.runs_parseEventsLoop_succ.1 h
    · have := Parser.parseEvent_takes_byte he
      exact ⟨hc, List.cons_ne_nil _ _, by simp only [List.length_singleton]; omega⟩
    · have := Parser.parseEvent_takes_byte he
      obtain ⟨hc, -, hl⟩ := ih hn
      exact ⟨hc, List.cons_ne_nil _ _, by simp only [List.length_cons]; omega⟩

/-- A loop that returns does so with any fuel at least its number of events. -/
theorem Parser.parseEventsLoop_fuel_mono {m : Nat}
    (h : Runs (Parser.parseEventsLoop da stream cs n) r evs r'') (hm : evs.length ≤ m) :
    Runs (Parser.parseEventsLoop da stream cs m) r evs r'' := by
  induction n generalizing m r evs with
  | zero => exact absurd h Parser.parseEventsLoop_zero
  | succ n ih =>
    obtain ⟨e, r', he, ha, ⟨hc, rfl, rfl⟩ | ⟨hc, evs', rfl, hn⟩⟩ :=
      Parser.runs_parseEventsLoop_succ.1 h
    · obtain ⟨m, rfl⟩ := Nat.exists_eq_add_of_le' (by simpa using hm)
      exact Parser.runs_parseEventsLoop_succ.2 ⟨e, _, he, ha, .inl ⟨hc, rfl, rfl⟩⟩
    · simp only [List.length_cons] at hm
      obtain ⟨m, rfl⟩ := Nat.exists_eq_add_of_le' (show 1 ≤ m by omega)
      exact Parser.runs_parseEventsLoop_succ.2
        ⟨e, _, he, ha, .inr ⟨hc, evs', rfl, ih hn (by omega)⟩⟩

end

/-- Any two fuels above the bytes left give the loop one outcome: each iteration takes a byte,
so neither runs out before the source does. -/
theorem Parser.parseEventsLoop_fuel (da : Bool) (stream : StreamParser) (cs : Nat) :
    ∀ n m (r : StreamReader), r.src.length < n → r.src.length < m →
      (Parser.parseEventsLoop da stream cs n).run r = (Parser.parseEventsLoop da stream cs m).run r
  | 0, _, _, hn, _ => absurd hn (Nat.not_lt_zero _)
  | _ + 1, 0, _, _, hm => absurd hm (Nat.not_lt_zero _)
  | n + 1, m + 1, r, hn, hm => by
    simp only [Parser.parseEventsLoop, StateT.run_bind]
    rcases he : (Parser.parseEvent stream).run r with e | ⟨ev, ⟨bo, src, c⟩⟩
    · rfl
    · have := Parser.parseEvent_takes_byte he
      simp only [except_ok_bind, debugAssertCursor_run]
      split
      · rfl
      · simp only [except_ok_bind, StreamReader.run_cursorBits]
        split
        · rfl
        · rw [StateT.run_map, StateT.run_map,
            Parser.parseEventsLoop_fuel da stream cs n m _ (by omega) (by omega)]

/-! ## `parse_events` -/

section
variable {da : Bool} {stream : StreamParser} {ctx : PacketContext} {bo : NativeByteOrder}
  {src : List UInt8} {c : AlignedCursor} {evs : List Event} {r' : StreamReader}

/-- `parse_events`: the loop, then the rest of the packet skipped; the subtraction is checked. -/
theorem Parser.runs_parseEvents :
    Runs (Parser.parseEvents da stream ctx) ⟨bo, src, c⟩ evs r' ↔
      ∃ r1 pad, Runs (Parser.parseEventsLoop da stream ctx.contentSizeBits (src.length + 1))
          ⟨bo, src, c⟩ evs r1 ∧ ctx.contentSizeBits ≤ ctx.packetSizeBits ∧
        pad.length = (ctx.packetSizeBits - ctx.contentSizeBits) / 8 ∧ r1.src = pad ++ r'.src ∧
        r' = ⟨r1.byteOrder, r'.src, r1.cursor⟩ := by
  simp only [Parser.parseEvents, runs_bind, runs_get]
  constructor
  · rintro ⟨_, _, ⟨rfl, rfl⟩, evs', ⟨bo1, src1, c1⟩, hl, h⟩
    split at h
    · obtain ⟨_, _, h, -⟩ := runs_bind.1 h
      exact absurd h runs_throw
    · obtain ⟨_, _, hu, h⟩ := runs_bind.1 h
      obtain ⟨-, rfl⟩ := runs_pure.1 hu
      split at h
      · obtain ⟨_, _, hs, h⟩ := runs_bind.1 h
        obtain ⟨rfl, rfl⟩ := runs_pure.1 h
        obtain ⟨pad, rest, hp, rfl, rfl⟩ := runs_skipBytes.1 hs
        exact ⟨_, pad, hl, by omega, by rw [hp, Nat.shiftRight_eq_div_pow], rfl, rfl⟩
      · obtain ⟨_, _, hu, h⟩ := runs_bind.1 h
        obtain ⟨-, rfl⟩ := runs_pure.1 hu
        obtain ⟨rfl, rfl⟩ := runs_pure.1 h
        exact ⟨_, [], hl, by omega, by simp; omega, rfl, rfl⟩
  · obtain ⟨bo', src', c'⟩ := r'
    rintro ⟨⟨bo1, src1, c1⟩, pad, hl, hle, hp, hs, hr⟩
    simp only [StreamReader.mk.injEq, true_and] at hs hr
    obtain ⟨rfl, rfl⟩ := hr
    subst hs
    refine ⟨_, _, ⟨rfl, rfl⟩, evs, _, hl, ?_⟩
    rw [if_neg (by omega)]
    refine runs_bind.2 ⟨(), _, runs_pure.2 ⟨rfl, rfl⟩, ?_⟩
    split
    · exact runs_bind.2 ⟨(), _, runs_skipBytes.2 ⟨pad, _, by rw [hp, Nat.shiftRight_eq_div_pow],
        rfl, rfl⟩, runs_pure.2 ⟨rfl, rfl⟩⟩
    · have : pad = [] := List.eq_nil_of_length_eq_zero (by omega)
      subst this
      exact runs_bind.2 ⟨(), _, runs_pure.2 ⟨rfl, rfl⟩, runs_pure.2 ⟨rfl, rfl⟩⟩

/-- From a byte boundary, `parse_events` stops at the content size, then takes the rest of the
packet: `(content - cursor) / 8 + (packet - content) / 8` bytes, whatever follows them. -/
theorem Parser.parseEvents_runs (h8 : c.bitIndex % 8 = 0)
    (h : Runs (Parser.parseEvents da stream ctx) ⟨bo, src, c⟩ evs r') :
    ∃ taken, src = taken ++ r'.src ∧ r'.byteOrder = bo ∧
      r'.cursor.bitIndex = ctx.contentSizeBits ∧ c.bitIndex ≤ ctx.contentSizeBits ∧
      ctx.contentSizeBits % 8 = 0 ∧ ctx.contentSizeBits ≤ ctx.packetSizeBits ∧ evs ≠ [] ∧
      taken.length = (ctx.contentSizeBits - c.bitIndex) / 8 +
        (ctx.packetSizeBits - ctx.contentSizeBits) / 8 ∧
      ∀ s, Runs (Parser.parseEvents da stream ctx) ⟨bo, taken ++ s, c⟩ evs ⟨bo, s, r'.cursor⟩ := by
  obtain ⟨r1, pad, hl, hle, hp, hs, hr⟩ := Parser.runs_parseEvents.1 h
  obtain ⟨t1, hs1, hbo, hc, hrun⟩ := Parser.parseEventsLoop_reads stream _ _ _ _ _ _ _ hl
  obtain ⟨hcs, hne, hlen⟩ := Parser.parseEventsLoop_runs hl
  have hc := hc h8
  have hevs : evs.length ≤ t1.length := by
    rw [hs1, List.length_append] at hlen
    omega
  rw [hs] at hs1
  rw [hr]
  refine ⟨t1 ++ pad, by simp [hs1], hbo, hcs, by omega, by omega, hle, hne, by simp; omega,
    fun s => Parser.runs_parseEvents.2 ⟨⟨bo, pad ++ s, r1.cursor⟩, pad, ?_, hle, hp, rfl, ?_⟩⟩
  · simpa using Parser.parseEventsLoop_fuel_mono (hrun (pad ++ s))
      (show evs.length ≤ (t1 ++ (pad ++ s)).length + 1 by simp; omega)
  · simp [hbo]

end

/-! ## A packet -/

section
variable {da : Bool} {p : Parser} {r r' : StreamReader} {pkt : Packet}

theorem Parser.runs_parsePacket :
    Runs (p.parsePacket da) r pkt r' ↔
      ∃ r1 r2 stream, Runs (p.parseHeader da) r pkt.header r1 ∧
        p.streams[pkt.header.streamId]? = some stream ∧
        Runs (Parser.parsePacketContext da stream) r1 pkt.context r2 ∧
        Runs (Parser.parseEvents da stream pkt.context) r2 pkt.events r' := by
  simp only [Parser.parsePacket, runs_bind]
  constructor
  · rintro ⟨header, r1, h1, h⟩
    split at h
    · rename_i stream hs
      obtain ⟨ctx, r2, h2, h⟩ := runs_bind.1 h
      obtain ⟨evs, r3, h3, h⟩ := runs_bind.1 h
      obtain ⟨rfl, rfl⟩ := runs_pure.1 h
      exact ⟨r1, r2, stream, h1, hs, h2, h3⟩
    · exact absurd h runs_throw
  · rintro ⟨r1, r2, stream, h1, hs, h2, h3⟩
    refine ⟨pkt.header, r1, h1, ?_⟩
    rw [hs]
    exact runs_bind.2 ⟨pkt.context, r2, h2, runs_bind.2 ⟨pkt.events, r', h3, runs_pure.2 ⟨rfl, rfl⟩⟩⟩

theorem Parser.parse_eq_ok {src rest : List UInt8} :
    p.parse da src = .ok (pkt, rest) ↔
      ∃ r', Runs (p.parsePacket da) (StreamReader.new p.byteOrder src) pkt r' ∧ r'.src = rest := by
  simp only [Parser.parse, Runs]
  rcases (p.parsePacket da).run (StreamReader.new p.byteOrder src) with e | ⟨pkt', r'⟩
  · simp [Functor.map, Except.map]
  · simp only [Functor.map, Except.map, Except.ok.injEq, Prod.mk.injEq]
    exact ⟨fun ⟨h1, h2⟩ => ⟨r', ⟨h1, rfl⟩, h2⟩, fun ⟨_, ⟨h1, h⟩, h2⟩ => ⟨h1, h ▸ h2⟩⟩

/-- Once the header and the context are read, `Parser::parse` ends as `parse_events` does. -/
theorem Parser.parse_eq_events {src : List UInt8} {hdr : PacketHeader} {stream : StreamParser}
    {ctx : PacketContext} {r1 r2 : StreamReader}
    (h1 : Runs (p.parseHeader da) (StreamReader.new p.byteOrder src) hdr r1)
    (hs : p.streams[hdr.streamId]? = some stream)
    (h2 : Runs (Parser.parsePacketContext da stream) r1 ctx r2) :
    p.parse da src = (fun (evs, r) => ((⟨hdr, ctx, evs⟩ : Packet), r.src)) <$>
      (Parser.parseEvents da stream ctx).run r2 := by
  simp only [Parser.parse, Parser.parsePacket, run_bind_of_runs h1, hs, run_bind_of_runs h2,
    StateT.run_bind]
  rcases (Parser.parseEvents da stream ctx).run r2 with e | ⟨evs, r⟩ <;> rfl

/-- Once the header is read, `Parser::parse` fails where the context does. -/
theorem Parser.parse_eq_context_error {src : List UInt8} {hdr : PacketHeader}
    {stream : StreamParser} {r1 : StreamReader} {f : Fault}
    (h1 : Runs (p.parseHeader da) (StreamReader.new p.byteOrder src) hdr r1)
    (hs : p.streams[hdr.streamId]? = some stream)
    (h2 : (Parser.parsePacketContext da stream).run r1 = .error f) : p.parse da src = .error f := by
  simp only [Parser.parse, Parser.parsePacket, run_bind_of_runs h1, hs, StateT.run_bind, h2]
  rfl

/-- A successful `Parser::parse` takes `packet_size_bits / 8` bytes: the header, the context and
the events up to the content size, whole bytes each, then the rest of the packet. -/
theorem Parser.parse_takes_packetSize {src rest : List UInt8} (h : p.parse da src = .ok (pkt, rest)) :
    ∃ taken, src = taken ++ rest ∧ taken.length = pkt.context.packetSizeBits / 8 := by
  obtain ⟨r', hr, rfl⟩ := Parser.parse_eq_ok.1 h
  obtain ⟨⟨bo1, src1, c1⟩, ⟨bo2, src2, c2⟩, stream, h1, -, h2, h3⟩ := Parser.runs_parsePacket.1 hr
  obtain ⟨t1, hs1, hb1, hc1, -⟩ := p.parseHeader_reads _ _ _ _ _ h1
  obtain ⟨t2, hs2, hb2, hc2, -⟩ := Parser.parsePacketContext_reads stream _ _ _ _ _ h2
  dsimp only at hs1 hb1 hc1 hs2 hb2 hc2
  have hc1 := hc1 rfl
  have hc2 := hc2 (by simp only [AlignedCursor.default_bitIndex] at hc1; omega)
  subst hb1
  obtain ⟨t3, hs3, -, -, hle, hcs8, hle2, -, hl3, -⟩ := Parser.parseEvents_runs (by
    simp only [AlignedCursor.default_bitIndex] at hc1; omega) h3
  refine ⟨t1 ++ t2 ++ t3, by simp [hs1, hs2, hs3], ?_⟩
  simp only [List.length_append, hl3]
  simp only [AlignedCursor.default_bitIndex] at hc1
  omega

end

end BarectfParser
