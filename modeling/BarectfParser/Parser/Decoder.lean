import BarectfParser.Parser.Parse

/-!
# The incremental decoder

`PacketDecoder` (`src/parser/mod.rs`), the `tokio_util` `Decoder` that cuts a byte stream into
packets as its bytes arrive. A call runs the stages whose bytes are in the buffer, each reading
from the front of the buffer: the header once the buffer holds `pkt_header.wire_size_hint`
bytes, the packet context once it holds the rest of the stream's context hint, the events once
it holds the rest of the packet. A stage that lacks bytes returns `Ok(None)` and keeps its state.

The `loop` of `decode` goes through the three stages in order and returns at the first that
waits or emits, so the model is the three stages, each calling the next. A failing call ends
with its `Fault` (the state is then `Header` and part of the buffer consumed; the model does not
record them: `FramedRead` stops at the first error). The subtractions of the `PacketContext` and
`Events` stages are checked, as in `Parser::parse`.

`PacketDecoder.feed` is the driver the decoder is written for: each chunk is appended to the
buffer and `decode` called until it returns `Ok(None)`.
-/

namespace BarectfParser

/-! ## The decoder -/

inductive PacketDecoderState
  | header
  | packetContext (header : PacketHeader) (cursor : AlignedCursor)
  | events (header : PacketHeader) (packetContext : PacketContext) (cursor : AlignedCursor)
deriving DecidableEq

structure PacketDecoder where
  parser : Parser
  state : PacketDecoderState
deriving DecidableEq

def Parser.intoPacketDecoder (self : Parser) : PacketDecoder := ⟨self, .header⟩

/-- A call's outcome from a stage: the packet or `None`, the next state, and the buffer. -/
abbrev DecodeResult := Except Fault (Option Packet × PacketDecoderState × List UInt8)

/-- The `Events` stage: once the buffer holds the rest of the packet, the events. -/
def PacketDecoder.decodeEvents (debugAssertions : Bool) (parser : Parser) (header : PacketHeader)
    (packetContext : PacketContext) (cursor : AlignedCursor) (src : List UInt8) : DecodeResult :=
  if packetContext.packetSize < cursor.cursorBytes then .error .subtractOverflow
  else if src.length < packetContext.packetSize - cursor.cursorBytes then
    -- not enough data for the remaining payload
    .ok (none, .events header packetContext cursor, src)
  else
    match parser.streams[header.streamId]? with
    | none => .error (.error (.undefinedStreamId header.streamId))
    | some stream => do
      let (events, r) ← (Parser.parseEvents debugAssertions stream packetContext).run
        (StreamReader.newWithCursor parser.byteOrder cursor src)
      pure (some ⟨header, packetContext, events⟩, .header, r.src)

/-- The `PacketContext` stage: once the buffer holds the rest of the context hint, the packet
context, then the `Events` stage. -/
def PacketDecoder.decodeContext (debugAssertions : Bool) (parser : Parser) (header : PacketHeader)
    (cursor : AlignedCursor) (src : List UInt8) : DecodeResult :=
  match parser.streams[header.streamId]? with
  | none => .error (.error (.undefinedStreamId header.streamId))
  | some stream =>
    if stream.packetContext.wireSizeHint.cursorBytes < cursor.cursorBytes then
      .error .subtractOverflow
    else if src.length < stream.packetContext.wireSizeHint.cursorBytes - cursor.cursorBytes then
      -- not enough data for context
      .ok (none, .packetContext header cursor, src)
    else do
      let (packetContext, r) ← (Parser.parsePacketContext debugAssertions stream).run
        (StreamReader.newWithCursor parser.byteOrder cursor src)
      PacketDecoder.decodeEvents debugAssertions parser header packetContext r.cursor r.src

/-- The `Header` stage: once the buffer holds the header hint, the header, then the
`PacketContext` stage. -/
def PacketDecoder.decodeHeader (debugAssertions : Bool) (parser : Parser) (src : List UInt8) :
    DecodeResult :=
  if src.length < parser.pktHeader.wireSizeHint.cursorBytes then
    -- not enough data for header
    .ok (none, .header, src)
  else do
    let (header, r) ← (parser.parseHeader debugAssertions).run
      (StreamReader.new parser.byteOrder src)
    PacketDecoder.decodeContext debugAssertions parser header r.cursor r.src

/-- The stage the state names, and the stages after it. -/
def PacketDecoder.decodeFrom (debugAssertions : Bool) (parser : Parser) :
    PacketDecoderState → List UInt8 → DecodeResult
  | .header, src => PacketDecoder.decodeHeader debugAssertions parser src
  | .packetContext header cursor, src =>
    PacketDecoder.decodeContext debugAssertions parser header cursor src
  | .events header packetContext cursor, src =>
    PacketDecoder.decodeEvents debugAssertions parser header packetContext cursor src

/-- `Decoder::decode`: a packet or `None`, the decoder after the call, and the buffer. -/
def PacketDecoder.decode (debugAssertions : Bool) (self : PacketDecoder) (src : List UInt8) :
    Except Fault (Option Packet × PacketDecoder × List UInt8) :=
  (PacketDecoder.decodeFrom debugAssertions self.parser self.state src).map fun (pkt, state, src) =>
    (pkt, ⟨self.parser, state⟩, src)

/-! ## The driver -/

/-- `decode` until it returns `Ok(None)`, for at most `fuel` calls. -/
def PacketDecoder.drain (debugAssertions : Bool) : Nat → PacketDecoder → List UInt8 →
    Except Fault (List Packet × PacketDecoder × List UInt8)
  | 0, d, src => .ok ([], d, src)
  | fuel + 1, d, src => do
    let (pkt, d', src') ← d.decode debugAssertions src
    match pkt with
    | none => pure ([], d', src')
    | some pkt => do
      let (pkts, d'', src'') ← PacketDecoder.drain debugAssertions fuel d' src'
      pure (pkt :: pkts, d'', src'')

/-- Each chunk appended to the buffer, then `decode` until `Ok(None)`; every call that returns a
packet takes a byte, so the buffer's length plus one calls are enough. -/
def PacketDecoder.feed (debugAssertions : Bool) : PacketDecoder → List UInt8 →
    List (List UInt8) → Except Fault (List Packet × PacketDecoder × List UInt8)
  | d, src, [] => .ok ([], d, src)
  | d, src, chunk :: chunks => do
    let (pkts, d', src') ←
      PacketDecoder.drain debugAssertions ((src ++ chunk).length + 1) d (src ++ chunk)
    let (pkts', d'', src'') ← PacketDecoder.feed debugAssertions d' src' chunks
    pure (pkts ++ pkts', d'', src'')

/-! ## What a call can do -/

section
variable {da : Bool} {parser : Parser} {header : PacketHeader} {ctx : PacketContext} {cursor : AlignedCursor}
  {src src' : List UInt8} {res : Option Packet} {s' : PacketDecoderState}

theorem PacketDecoder.decodeEvents_ok
    (h : PacketDecoder.decodeEvents da parser header ctx cursor src = .ok (res, s', src')) :
    res = none ∧ s' = .events header ctx cursor ∧ src' = src ∨
      ∃ stream evs r, parser.streams[header.streamId]? = some stream ∧
        Runs (Parser.parseEvents da stream ctx) ⟨parser.byteOrder, src, cursor⟩ evs r ∧
        res = some ⟨header, ctx, evs⟩ ∧ s' = .header ∧ src' = r.src := by
  unfold PacketDecoder.decodeEvents at h
  split at h
  · cases h
  split at h
  · cases h
    exact .inl ⟨rfl, rfl, rfl⟩
  split at h
  · cases h
  · rename_i stream hs
    obtain ⟨⟨evs, r⟩, hr, h⟩ := except_bind_eq_ok.1 h
    cases h
    exact .inr ⟨stream, evs, r, hs, hr, rfl, rfl, rfl⟩

theorem PacketDecoder.decodeContext_ok
    (h : PacketDecoder.decodeContext da parser header cursor src = .ok (res, s', src')) :
    res = none ∧ s' = .packetContext header cursor ∧ src' = src ∨
      ∃ stream ctx r, parser.streams[header.streamId]? = some stream ∧
        cursor.cursorBytes ≤ stream.packetContext.wireSizeHint.cursorBytes ∧
        Runs (Parser.parsePacketContext da stream) ⟨parser.byteOrder, src, cursor⟩ ctx r ∧
        PacketDecoder.decodeEvents da parser header ctx r.cursor r.src = .ok (res, s', src') := by
  unfold PacketDecoder.decodeContext at h
  split at h
  · cases h
  · rename_i stream hs
    split at h
    · cases h
    split at h
    · cases h
      exact .inl ⟨rfl, rfl, rfl⟩
    · obtain ⟨⟨ctx, r⟩, hr, h⟩ := except_bind_eq_ok.1 h
      exact .inr ⟨stream, ctx, r, hs, by omega, hr, h⟩

theorem PacketDecoder.decodeHeader_ok
    (h : PacketDecoder.decodeHeader da parser src = .ok (res, s', src')) :
    res = none ∧ s' = .header ∧ src' = src ∨
      ∃ header r, Runs (parser.parseHeader da) (StreamReader.new parser.byteOrder src) header r ∧
        PacketDecoder.decodeContext da parser header r.cursor r.src = .ok (res, s', src') := by
  unfold PacketDecoder.decodeHeader at h
  split at h
  · cases h
    exact .inl ⟨rfl, rfl, rfl⟩
  · obtain ⟨⟨header, r⟩, hr, h⟩ := except_bind_eq_ok.1 h
    exact .inr ⟨header, r, hr, h⟩

/-! ## Stages that have their bytes -/

theorem PacketDecoder.decodeEvents_eq {stream : StreamParser} {evs : List Event}
    {bo' : NativeByteOrder} {src' : List UInt8} {cursor' : AlignedCursor}
    (hc : cursor.cursorBytes ≤ ctx.packetSize) (hl : ctx.packetSize - cursor.cursorBytes ≤ src.length)
    (hs : parser.streams[header.streamId]? = some stream)
    (hr : Runs (Parser.parseEvents da stream ctx) ⟨parser.byteOrder, src, cursor⟩ evs ⟨bo', src', cursor'⟩) :
    PacketDecoder.decodeEvents da parser header ctx cursor src =
      .ok (some ⟨header, ctx, evs⟩, .header, src') := by
  unfold PacketDecoder.decodeEvents
  rw [if_neg (by omega), if_neg (by omega), hs]
  exact congrArg (· >>= _) hr

theorem PacketDecoder.decodeContext_eq {stream : StreamParser}
    {bo' : NativeByteOrder} {src' : List UInt8} {cursor' : AlignedCursor}
    (hs : parser.streams[header.streamId]? = some stream)
    (hc : cursor.cursorBytes ≤ stream.packetContext.wireSizeHint.cursorBytes)
    (hl : stream.packetContext.wireSizeHint.cursorBytes - cursor.cursorBytes ≤ src.length)
    (hr : Runs (Parser.parsePacketContext da stream) ⟨parser.byteOrder, src, cursor⟩ ctx
      ⟨bo', src', cursor'⟩) :
    PacketDecoder.decodeContext da parser header cursor src =
      PacketDecoder.decodeEvents da parser header ctx cursor' src' := by
  unfold PacketDecoder.decodeContext
  rw [hs]
  simp only
  rw [if_neg (by omega), if_neg (by omega)]
  exact congrArg (· >>= _) hr

theorem PacketDecoder.decodeHeader_eq {bo' : NativeByteOrder} {src' : List UInt8}
    {cursor' : AlignedCursor} (hl : parser.pktHeader.wireSizeHint.cursorBytes ≤ src.length)
    (hr : Runs (parser.parseHeader da) (StreamReader.new parser.byteOrder src) header ⟨bo', src', cursor'⟩) :
    PacketDecoder.decodeHeader da parser src = PacketDecoder.decodeContext da parser header cursor' src' := by
  unfold PacketDecoder.decodeHeader
  rw [if_neg (by omega)]
  exact congrArg (· >>= _) hr

end

/-! ## Bytes taken from the buffer -/

/-- The bytes of the current packet that a state has taken from the buffer. -/
def PacketDecoderState.taken : PacketDecoderState → Nat
  | .header => 0
  | .packetContext _ cursor | .events _ _ cursor => cursor.cursorBytes

/-- The cursor a state keeps is on a byte boundary. -/
def PacketDecoderState.Aligned : PacketDecoderState → Prop
  | .header => True
  | .packetContext _ cursor | .events _ _ cursor => cursor.bitIndex % 8 = 0

/-- What one call from a stage does to the buffer: it removes a prefix; on `Ok(None)` the next
state has taken those bytes too, and on a packet the bytes taken since `Header` are the packet's
size in bytes. -/
def StepTakes (s : PacketDecoderState) (src : List UInt8) :
    Option Packet × PacketDecoderState × List UInt8 → Prop
  | (res, s', src') => ∃ removed, src = removed ++ src' ∧
    (res = none → s'.Aligned ∧ s'.taken = s.taken + removed.length) ∧
    ∀ pkt, res = some pkt → s.taken + removed.length = pkt.context.packetSizeBits / 8 ∧ s' = .header

theorem cursorBytes_eq (c : AlignedCursor) : c.cursorBytes = c.bitIndex / 8 := by
  simp [AlignedCursor.cursorBytes, Nat.shiftRight_eq_div_pow]

section
variable {da : Bool} {parser : Parser} {header : PacketHeader} {ctx : PacketContext} {cursor : AlignedCursor}
  {src : List UInt8} {out : Option Packet × PacketDecoderState × List UInt8}

theorem PacketDecoder.decodeEvents_takes (h8 : cursor.bitIndex % 8 = 0)
    (h : PacketDecoder.decodeEvents da parser header ctx cursor src = .ok out) :
    StepTakes (.events header ctx cursor) src out := by
  obtain ⟨res, s', src'⟩ := out
  rcases PacketDecoder.decodeEvents_ok h with ⟨rfl, rfl, rfl⟩ | ⟨stream, evs, r, -, hr, rfl, rfl, rfl⟩
  · exact ⟨[], rfl, fun _ => ⟨h8, rfl⟩, fun _ h => by cases h⟩
  · obtain ⟨taken, hs, -, -, hc, hcs8, hle, -, hl, -⟩ := Parser.parseEvents_runs h8 hr
    refine ⟨taken, hs, nofun, fun pkt hp => ?_⟩
    cases hp
    refine ⟨?_, rfl⟩
    simp only [PacketDecoderState.taken, cursorBytes_eq, hl]
    omega

theorem PacketDecoder.decodeContext_takes (h8 : cursor.bitIndex % 8 = 0)
    (h : PacketDecoder.decodeContext da parser header cursor src = .ok out) :
    StepTakes (.packetContext header cursor) src out := by
  obtain ⟨res, s', src'⟩ := out
  rcases PacketDecoder.decodeContext_ok h with ⟨rfl, rfl, rfl⟩ |
    ⟨stream, ctx, ⟨bo1, src1, c1⟩, -, -, hr, h⟩
  · exact ⟨[], rfl, fun _ => ⟨h8, rfl⟩, fun _ h => by cases h⟩
  · obtain ⟨t1, hs1, -, hc1, -⟩ := Parser.parsePacketContext_reads stream _ _ _ _ _ hr
    dsimp only at hs1 hc1 h
    have hc1 := hc1 h8
    obtain ⟨removed, hs2, hnone, hsome⟩ :=
      PacketDecoder.decodeEvents_takes (by omega) h
    refine ⟨t1 ++ removed, by simp [hs1, hs2], fun hn => ?_, fun pkt hp => ?_⟩
    · obtain ⟨ha, ht⟩ := hnone hn
      refine ⟨ha, ?_⟩
      simp only [PacketDecoderState.taken, cursorBytes_eq, List.length_append] at ht ⊢
      omega
    · obtain ⟨ht, rfl⟩ := hsome pkt hp
      refine ⟨?_, rfl⟩
      simp only [PacketDecoderState.taken, cursorBytes_eq, List.length_append] at ht ⊢
      omega

theorem PacketDecoder.decodeHeader_takes
    (h : PacketDecoder.decodeHeader da parser src = .ok out) : StepTakes .header src out := by
  obtain ⟨res, s', src'⟩ := out
  rcases PacketDecoder.decodeHeader_ok h with ⟨rfl, rfl, rfl⟩ | ⟨header, ⟨bo1, src1, c1⟩, hr, h⟩
  · exact ⟨[], rfl, fun _ => ⟨trivial, rfl⟩, fun _ h => by cases h⟩
  · obtain ⟨t1, hs1, -, hc1, -⟩ := parser.parseHeader_reads _ _ _ _ _ hr
    dsimp only at hs1 hc1 h
    have hc1 := hc1 rfl
    simp only [AlignedCursor.default_bitIndex, Nat.zero_add] at hc1
    obtain ⟨removed, hs2, hnone, hsome⟩ := PacketDecoder.decodeContext_takes (by omega) h
    refine ⟨t1 ++ removed, by simp [hs1, hs2], fun hn => ?_, fun pkt hp => ?_⟩
    · obtain ⟨ha, ht⟩ := hnone hn
      refine ⟨ha, ?_⟩
      simp only [PacketDecoderState.taken, cursorBytes_eq, List.length_append] at ht ⊢
      omega
    · obtain ⟨ht, rfl⟩ := hsome pkt hp
      refine ⟨?_, rfl⟩
      simp only [PacketDecoderState.taken, cursorBytes_eq, List.length_append] at ht ⊢
      omega

/-- **One call.** From a state whose cursor is on a byte boundary, a call removes a prefix of the
buffer, and the state it leaves accounts for it. -/
theorem PacketDecoder.decode_takes {d : PacketDecoder} {d' : PacketDecoder} {res : Option Packet}
    {src' : List UInt8} (ha : d.state.Aligned) (h : d.decode da src = .ok (res, d', src')) :
    d'.parser = d.parser ∧ StepTakes d.state src (res, d'.state, src') := by
  obtain ⟨parser, s⟩ := d
  simp only [PacketDecoder.decode] at h
  rcases hs : PacketDecoder.decodeFrom da parser s src with e | ⟨res1, s1, src1⟩ <;>
    rw [hs] at h <;> simp only [Except.map, Except.ok.injEq, Prod.mk.injEq, reduceCtorEq] at h
  obtain ⟨rfl, rfl, rfl⟩ := h
  refine ⟨rfl, ?_⟩
  cases s with
  | header => exact PacketDecoder.decodeHeader_takes hs
  | packetContext header cursor => exact PacketDecoder.decodeContext_takes ha hs
  | events header ctx cursor => exact PacketDecoder.decodeEvents_takes ha hs

end

/-! ## The calls of one packet -/

/-- Calls of `decode` from the decoder `d` to the call that emits `pkt`, each on the buffer it
is given; `n` counts the bytes the calls removed from their buffers. -/
inductive DecodesPacket (da : Bool) : PacketDecoder → Packet → Nat → Prop
  | emit {d d' : PacketDecoder} {src src' removed : List UInt8} {pkt : Packet} :
      d.decode da src = .ok (some pkt, d', src') → src = removed ++ src' →
      DecodesPacket da d pkt removed.length
  | wait {d d' : PacketDecoder} {src src' removed : List UInt8} {pkt : Packet} {n : Nat} :
      d.decode da src = .ok (none, d', src') → src = removed ++ src' → DecodesPacket da d' pkt n →
      DecodesPacket da d pkt (removed.length + n)

theorem DecodesPacket.taken {da : Bool} {d : PacketDecoder} {pkt : Packet} {n : Nat}
    (h : DecodesPacket da d pkt n) (ha : d.state.Aligned) :
    d.state.taken + n = pkt.context.packetSizeBits / 8 := by
  induction h with
  | @emit d d' src src' removed pkt hd hs =>
    obtain ⟨-, removed', hs', -, hsome⟩ := PacketDecoder.decode_takes ha hd
    rw [List.append_cancel_right (hs.symm.trans hs')]
    exact (hsome pkt rfl).1
  | @wait d d' src src' removed pkt n hd hs _ ih =>
    obtain ⟨-, removed', hs', hnone, -⟩ := PacketDecoder.decode_takes ha hd
    obtain ⟨ha', ht⟩ := hnone rfl
    rw [List.append_cancel_right (hs.symm.trans hs')]
    have := ih ha'
    omega

/-- **A packet takes its declared size.** A successful `Parser::parse` takes
`packet_size_bits / 8` bytes from the source, and the calls of `decode` from `Header` to the one
that emits a packet remove that many bytes from the buffer, with or without debug assertions. -/
theorem packet_takes_packet_size (da : Bool) (p : Parser) :
    (∀ src pkt rest, p.parse da src = .ok (pkt, rest) →
      ∃ taken, src = taken ++ rest ∧ taken.length = pkt.context.packetSizeBits / 8) ∧
    ∀ pkt n, DecodesPacket da p.intoPacketDecoder pkt n → n = pkt.context.packetSizeBits / 8 :=
  ⟨fun _ _ _ h => Parser.parse_takes_packetSize h, fun _ _ h => by
    simpa [Parser.intoPacketDecoder, PacketDecoderState.taken] using h.taken trivial⟩

/-- The five-byte packet of `oneStreamConfig []`: stream 0, sizes 40 and 40, one event. -/
def fiveBytePacket : Packet :=
  ⟨⟨none, none, 0, "s", none, none⟩, ⟨40, 40, none, none, none, none, []⟩,
    [⟨0, "e", 0, none, [], [], []⟩]⟩

section
variable (da : Bool)

theorem oneStream_parseHeader_fiveBytePacket :
    Runs (oneStreamParser.1.parseHeader da) (StreamReader.new .littleEndian [0, 40, 40, 0, 0])
      fiveBytePacket.header ⟨.littleEndian, [40, 40, 0, 0], ⟨8⟩⟩ := by
  cases da <;> rfl

theorem oneStream_streams_zero :
    oneStreamParser.1.streams[0]? = some (oneStreamParser.1.streams[0]?.get (by decide)) :=
  rfl

theorem oneStream_parsePacketContext_fiveBytePacket :
    Runs (Parser.parsePacketContext da (oneStreamParser.1.streams[0]?.get (by decide)))
      ⟨.littleEndian, [40, 40, 0, 0], ⟨8⟩⟩ fiveBytePacket.context
      ⟨.littleEndian, [0, 0], ⟨24⟩⟩ := by
  cases da <;> rfl

theorem oneStream_parseEvents_fiveBytePacket :
    Runs (Parser.parseEvents da (oneStreamParser.1.streams[0]?.get (by decide))
      fiveBytePacket.context) ⟨.littleEndian, [0, 0], ⟨24⟩⟩ fiveBytePacket.events
      ⟨.littleEndian, [], ⟨40⟩⟩ := by
  cases da <;> rfl

/-- The five bytes of `fiveBytePacket`, parsed by the plan of `oneStreamConfig []`. -/
theorem oneStream_parse_fiveBytePacket :
    oneStreamParser.1.parse da [0, 40, 40, 0, 0] = .ok (fiveBytePacket, []) :=
  Parser.parse_eq_ok.2 ⟨_, Parser.runs_parsePacket.2 ⟨_, _, _,
    oneStream_parseHeader_fiveBytePacket da, oneStream_streams_zero,
    oneStream_parsePacketContext_fiveBytePacket da, oneStream_parseEvents_fiveBytePacket da⟩, rfl⟩

/-- The decoder of `oneStreamConfig []` given the five bytes at once emits `fiveBytePacket`. -/
theorem oneStream_decode_fiveBytePacket :
    oneStreamParser.1.intoPacketDecoder.decode da [0, 40, 40, 0, 0] =
      .ok (some fiveBytePacket, oneStreamParser.1.intoPacketDecoder, []) := by
  have e1 : PacketDecoder.decodeHeader da oneStreamParser.1 [0, 40, 40, 0, 0] =
      PacketDecoder.decodeContext da oneStreamParser.1 fiveBytePacket.header ⟨8⟩ [40, 40, 0, 0] :=
    PacketDecoder.decodeHeader_eq (by decide) (oneStream_parseHeader_fiveBytePacket da)
  have e2 : PacketDecoder.decodeContext da oneStreamParser.1 fiveBytePacket.header ⟨8⟩
      [40, 40, 0, 0] = PacketDecoder.decodeEvents da oneStreamParser.1 fiveBytePacket.header
        fiveBytePacket.context ⟨24⟩ [0, 0] :=
    PacketDecoder.decodeContext_eq oneStream_streams_zero (by decide) (by decide)
      (oneStream_parsePacketContext_fiveBytePacket da)
  have e3 : PacketDecoder.decodeEvents da oneStreamParser.1 fiveBytePacket.header
      fiveBytePacket.context ⟨24⟩ [0, 0] = .ok (some fiveBytePacket, .header, []) :=
    PacketDecoder.decodeEvents_eq (by decide) (by decide) oneStream_streams_zero
      (oneStream_parseEvents_fiveBytePacket da)
  simp only [PacketDecoder.decode, Parser.intoPacketDecoder, PacketDecoder.decodeFrom, e1, e2, e3]
  rfl

end

theorem five_byte_packet_takes_five : ∃ p, Parser.new (oneStreamConfig []) = .ok p ∧
    p.parse true [0, 40, 40, 0, 0] = .ok (fiveBytePacket, []) ∧
    (∃ taken : List UInt8, [0, 40, 40, 0, 0] = taken ++ [] ∧ taken.length = 40 / 8) ∧
    DecodesPacket true p.intoPacketDecoder fiveBytePacket 5 ∧ 5 = 40 / 8 := by
  have hd : DecodesPacket true oneStreamParser.1.intoPacketDecoder fiveBytePacket 5 :=
    @DecodesPacket.emit true _ _ [0, 40, 40, 0, 0] [] [0, 40, 40, 0, 0] fiveBytePacket
      (oneStream_decode_fiveBytePacket true) rfl
  exact ⟨oneStreamParser.1, oneStreamParser.2, oneStream_parse_fiveBytePacket true,
    (packet_takes_packet_size true oneStreamParser.1).1 _ _ _ (oneStream_parse_fiveBytePacket true),
    hd, (packet_takes_packet_size true oneStreamParser.1).2 _ _ hd⟩

/-! ## Chunks -/

/-- The plan `Parser::new` builds from `oneStreamConfig (oneMember "m" .string)`. -/
def stringMemberParser :
    { p : Parser // Parser.new (oneStreamConfig (oneMember "m" .string)) = .ok p } := ⟨_, rfl⟩

/-- The eight-byte packet of `stringMemberParser`: the member `m` is `ab`, one event. -/
def eightBytePacket : Packet :=
  ⟨⟨none, none, 0, "s", none, none⟩,
    ⟨64, 64, none, none, none, none, [("m", .primitive (.string [0x61, 0x62]))]⟩,
    [⟨0, "e", 0, none, [], [], []⟩]⟩

/-- **Chunks change the outcome.** With a string in the packet context, `Parser::parse` and a
decoder fed the whole packet at once return it; fed the packet in two chunks of four bytes, the
decoder starts the `PacketContext` stage on three buffered bytes, as the hint counts, and fails
in the middle of the string. So it goes in a build without debug assertions; in one with them,
`Parser::parse` stops at the `debug_assert_eq!` of `parse_packet_context`. -/
theorem string_member_split_chunks_fail : ∃ p d,
    Parser.new (oneStreamConfig (oneMember "m" .string)) = .ok p ∧
    p.parse false [0, 64, 64, 0x61, 0x62, 0, 0, 0] = .ok (eightBytePacket, []) ∧
    PacketDecoder.feed false p.intoPacketDecoder [] [[0, 64, 64, 0x61, 0x62, 0, 0, 0]] =
      .ok ([eightBytePacket], d, []) ∧
    PacketDecoder.feed false p.intoPacketDecoder [] [[0, 64, 64, 0x61], [0x62, 0, 0, 0]] =
      .error eof ∧
    p.parse true [0, 64, 64, 0x61, 0x62, 0, 0, 0] = .error .debugAssertion := by
  have h1 : Runs (stringMemberParser.1.parseHeader false)
      (StreamReader.new .littleEndian [0, 64, 64, 0x61, 0x62, 0, 0, 0])
      eightBytePacket.header ⟨.littleEndian, [64, 64, 0x61, 0x62, 0, 0, 0], ⟨8⟩⟩ := rfl
  have hs : stringMemberParser.1.streams[0]? =
      some (stringMemberParser.1.streams[0]?.get (by decide)) := rfl
  have h2 : Runs
      (Parser.parsePacketContext false (stringMemberParser.1.streams[0]?.get (by decide)))
      ⟨.littleEndian, [64, 64, 0x61, 0x62, 0, 0, 0], ⟨8⟩⟩ eightBytePacket.context
      ⟨.littleEndian, [0, 0], ⟨48⟩⟩ := rfl
  have h3 : Runs (Parser.parseEvents false (stringMemberParser.1.streams[0]?.get (by decide))
      eightBytePacket.context) ⟨.littleEndian, [0, 0], ⟨48⟩⟩ eightBytePacket.events
      ⟨.littleEndian, [], ⟨64⟩⟩ := rfl
  have e1 : PacketDecoder.decodeHeader false stringMemberParser.1 [0, 64, 64, 0x61, 0x62, 0, 0, 0] =
      PacketDecoder.decodeContext false stringMemberParser.1 eightBytePacket.header ⟨8⟩
        [64, 64, 0x61, 0x62, 0, 0, 0] :=
    PacketDecoder.decodeHeader_eq (by decide) h1
  have e2 : PacketDecoder.decodeContext false stringMemberParser.1 eightBytePacket.header ⟨8⟩
      [64, 64, 0x61, 0x62, 0, 0, 0] = PacketDecoder.decodeEvents false stringMemberParser.1
        eightBytePacket.header eightBytePacket.context ⟨48⟩ [0, 0] :=
    PacketDecoder.decodeContext_eq hs (by decide) (by decide) h2
  have e3 : PacketDecoder.decodeEvents false stringMemberParser.1 eightBytePacket.header
      eightBytePacket.context ⟨48⟩ [0, 0] = .ok (some eightBytePacket, .header, []) :=
    PacketDecoder.decodeEvents_eq (by decide) (by decide) hs h3
  have e0 : PacketDecoder.decodeHeader false stringMemberParser.1 [] = .ok (none, .header, []) := rfl
  have h1' : Runs (stringMemberParser.1.parseHeader false)
      (StreamReader.new .littleEndian [0, 64, 64, 0x61])
      eightBytePacket.header ⟨.littleEndian, [64, 64, 0x61], ⟨8⟩⟩ := rfl
  have e1' : PacketDecoder.decodeHeader false stringMemberParser.1 [0, 64, 64, 0x61] =
      PacketDecoder.decodeContext false stringMemberParser.1 eightBytePacket.header ⟨8⟩
        [64, 64, 0x61] :=
    PacketDecoder.decodeHeader_eq (by decide) h1'
  have e2' : PacketDecoder.decodeContext false stringMemberParser.1 eightBytePacket.header ⟨8⟩
      [64, 64, 0x61] = .error eof := rfl
  have h1t : Runs (stringMemberParser.1.parseHeader true)
      (StreamReader.new .littleEndian [0, 64, 64, 0x61, 0x62, 0, 0, 0])
      eightBytePacket.header ⟨.littleEndian, [64, 64, 0x61, 0x62, 0, 0, 0], ⟨8⟩⟩ := rfl
  have h2t : (Parser.parsePacketContext true (stringMemberParser.1.streams[0]?.get (by decide))).run
      ⟨.littleEndian, [64, 64, 0x61, 0x62, 0, 0, 0], ⟨8⟩⟩ = .error .debugAssertion := rfl
  refine ⟨stringMemberParser.1, stringMemberParser.1.intoPacketDecoder, stringMemberParser.2,
    Parser.parse_eq_ok.2 ⟨_, Parser.runs_parsePacket.2 ⟨_, _, _, h1, hs, h2, h3⟩, rfl⟩, ?_, ?_, ?_⟩
  · simp only [PacketDecoder.feed, PacketDecoder.drain, PacketDecoder.decode,
      Parser.intoPacketDecoder, PacketDecoder.decodeFrom, List.nil_append, e1, e2, e3, e0]
    rfl
  · simp only [PacketDecoder.feed, PacketDecoder.drain, PacketDecoder.decode,
      Parser.intoPacketDecoder, PacketDecoder.decodeFrom, List.nil_append, e1', e2']
    rfl
  · exact Parser.parse_eq_context_error h1t hs h2t

/-! ## Subtractions -/

/-- **The `PacketContext` stage does not underflow.** For a parser `Parser::new` builds, the
cursor the `Header` stage leaves is at or below every stream's context hint, so
`wire_size_hint.cursor_bytes() - cursor.cursor_bytes()` is never negative. -/
theorem Parser.headerCursor_le_contextHint {cfg : Config} {p : Parser}
    (hp : Parser.new cfg = .ok p) {da : Bool} {bo : NativeByteOrder} {src : List UInt8}
    {hdr : PacketHeader}
    {r : StreamReader} (h : Runs (p.parseHeader da) (StreamReader.new bo src) hdr r)
    {stream : StreamParser} (hs : stream ∈ p.streams) :
    r.cursor.cursorBytes ≤ stream.packetContext.wireSizeHint.cursorBytes := by
  obtain ⟨magic, streamId, alignment, streams, -, -, -, -, hst, rfl⟩ := Parser.new_ok hp
  have hc := Parser.parseHeader_cursor rfl h
  obtain ⟨i, hi⟩ := List.mem_iff_getElem?.1 hs
  obtain ⟨e, -, he⟩ := forall₂_getElem?_right hst hi
  obtain ⟨-, args, hpc, -⟩ := StreamParser.fromDataStreamType_ok he
  have := PacketContextParser.new_wireSizeHint_ge args (PacketHeaderParser.new magic
    (UuidParser.fromBoolFt cfg.trace.typ.features.uuidFieldType) streamId alignment).wireSizeHint
  dsimp only at hc
  rw [cursorBytes_eq, cursorBytes_eq, hc, hpc]
  omega

theorem oneStream_headerCursor_le_contextHint : ∃ p, Parser.new (oneStreamConfig []) = .ok p ∧
    Runs (p.parseHeader true) (StreamReader.new .littleEndian [0])
      ⟨none, none, 0, "s", none, none⟩ ⟨.littleEndian, [], ⟨8⟩⟩ ∧
    ∃ stream ∈ p.streams, (⟨8⟩ : AlignedCursor).cursorBytes ≤
      stream.packetContext.wireSizeHint.cursorBytes := by
  have h : Runs (oneStreamParser.1.parseHeader true) (StreamReader.new .littleEndian [0])
      ⟨none, none, 0, "s", none, none⟩ ⟨.littleEndian, [], ⟨8⟩⟩ := rfl
  have hs : oneStreamParser.1.streams[0]?.get (by decide) ∈ oneStreamParser.1.streams :=
    @List.getElem?_mem _ _ 0 _ rfl
  exact ⟨oneStreamParser.1, oneStreamParser.2, h, _, hs,
    Parser.headerCursor_le_contextHint oneStreamParser.2 h hs⟩

/-- A packet size below the content size: `packet_size_bits - content_size_bits` in
`parse_events`, and `packet_size() - cursor_bytes()` in the `Events` stage of `decode`, would be
`0 - 40` and `0 - 3`, with or without debug assertions: the one event ends at the content
size. -/
theorem packet_size_below_content_size_underflows : ∃ p, Parser.new (oneStreamConfig []) = .ok p ∧
    ∀ da, p.parse da [0, 0, 40, 0, 0] = .error .subtractOverflow ∧
      p.intoPacketDecoder.decode da [0, 0, 40, 0, 0] = .error .subtractOverflow := by
  refine ⟨oneStreamParser.1, oneStreamParser.2, fun da => ?_⟩
  have h1 : Runs (oneStreamParser.1.parseHeader da)
      (StreamReader.new .littleEndian [0, 0, 40, 0, 0])
      ⟨none, none, 0, "s", none, none⟩ ⟨.littleEndian, [0, 40, 0, 0], ⟨8⟩⟩ := by
    cases da <;> rfl
  have hs := oneStream_streams_zero
  have h2 : Runs (Parser.parsePacketContext da (oneStreamParser.1.streams[0]?.get (by decide)))
      ⟨.littleEndian, [0, 40, 0, 0], ⟨8⟩⟩ ⟨0, 40, none, none, none, none, []⟩
      ⟨.littleEndian, [0, 0], ⟨24⟩⟩ := by
    cases da <;> rfl
  have e1 : PacketDecoder.decodeHeader da oneStreamParser.1 [0, 0, 40, 0, 0] =
      PacketDecoder.decodeContext da oneStreamParser.1 ⟨none, none, 0, "s", none, none⟩ ⟨8⟩
        [0, 40, 0, 0] :=
    PacketDecoder.decodeHeader_eq (by decide) h1
  have e2 : PacketDecoder.decodeContext da oneStreamParser.1 ⟨none, none, 0, "s", none, none⟩ ⟨8⟩
      [0, 40, 0, 0] = PacketDecoder.decodeEvents da oneStreamParser.1
        ⟨none, none, 0, "s", none, none⟩ ⟨0, 40, none, none, none, none, []⟩ ⟨24⟩ [0, 0] :=
    PacketDecoder.decodeContext_eq hs (by decide) (by decide) h2
  constructor
  · rw [Parser.parse_eq_events h1 hs h2]
    cases da <;> rfl
  · simp only [PacketDecoder.decode, Parser.intoPacketDecoder, PacketDecoder.decodeFrom, e1, e2]
    cases da <;> rfl

end BarectfParser
