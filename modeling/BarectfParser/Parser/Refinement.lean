import BarectfParser.Parser.Decoder

/-!
# Chunked decoding refines `Parser::parse`

`Parser::parse` reads a packet from the front of a byte source. `PacketDecoder` reads the same
stream as it arrives, in chunks, and runs each stage of a packet once the buffer holds as many
bytes as the stage's wire-size hint says. When every packet-context extra member has a fixed wire
size the hints are exact (`Parser.parsePacketContext_cursor_of_fixed`), and then the decoder
emits the packets `parse` reads, in order, whatever the chunks.

* `Parser.parse_cut`: a packet `parse` reads is cut by the two hints into the bytes of its
  header, of its context and of its events, each part read the same way whatever follows it
  (`PacketCut`).
* `PacketCut.decodeHeader_eq`, `PacketCut.decodeContext_eq`, `PacketCut.decodeEvents_eq`: a
  stage waits while the buffer lacks its bytes, then reads them; `PacketCut.decodeFrom_outcome`
  puts the three together.
* `DecoderAt`: the decoder stands at a stage of the next packet of the bytes it holds and the
  bytes still to come. `PacketDecoder.drain_at` (one chunk) and `PacketDecoder.feed_at` (all of
  them) keep it.
* `PacketDecoder.feed_refines_parse`: the refinement.
-/

namespace BarectfParser

/-- Every packet-context extra member of every data stream type has a fixed wire size. -/
def Config.FixedContexts (cfg : Config) : Prop :=
  ∀ e ∈ cfg.trace.typ.dataStreamTypes.entries,
    ∀ m ∈ memberEntries e.2.packetContextFieldTypeExtraMembers.members,
      m.2.fieldType.hasFixedWireSize

instance : DecidablePred Config.FixedContexts := fun cfg =>
  inferInstanceAs (Decidable (∀ e ∈ cfg.trace.typ.dataStreamTypes.entries,
    ∀ m ∈ memberEntries e.2.packetContextFieldTypeExtraMembers.members,
      m.2.fieldType.hasFixedWireSize))

/-- `Parser::parse`, called again on what it leaves each time, reads the packets `pkts` and ends
at the end of the bytes. -/
inductive ParsesAll (da : Bool) (p : Parser) : List UInt8 → List Packet → Prop
  | nil : ParsesAll da p [] []
  | cons {src rest : List UInt8} {pkt : Packet} {pkts : List Packet} :
      p.parse da src = .ok (pkt, rest) → ParsesAll da p rest pkts → ParsesAll da p src (pkt :: pkts)

/-! ## The bytes of a packet -/

/-- A packet `Parser::parse` reads, cut at the two hints: the header's bytes `th`, the context's
`tc`, and `te`, the events with the rest of the packet. Each part is read the same way whatever
follows it, from where the part before it ends. -/
structure PacketCut (da : Bool) (p : Parser) (stream : StreamParser) (pkt : Packet)
    (th tc te : List UInt8) : Prop where
  stream_eq : p.streams[pkt.header.streamId]? = some stream
  header_length : th.length = p.pktHeader.wireSizeHint.cursorBytes
  context_length : th.length + tc.length = stream.packetContext.wireSizeHint.cursorBytes
  packet_length : th.length + tc.length + te.length = pkt.context.packetSize
  events_pos : 0 < te.length
  header : ∀ s, Runs (p.parseHeader da) (StreamReader.new p.byteOrder (th ++ s)) pkt.header
    ⟨p.byteOrder, s, p.pktHeader.wireSizeHint⟩
  context : ∀ s, Runs (Parser.parsePacketContext da stream)
    ⟨p.byteOrder, tc ++ s, p.pktHeader.wireSizeHint⟩ pkt.context
    ⟨p.byteOrder, s, stream.packetContext.wireSizeHint⟩
  events : ∃ c, ∀ s, Runs (Parser.parseEvents da stream pkt.context)
    ⟨p.byteOrder, te ++ s, stream.packetContext.wireSizeHint⟩ pkt.events ⟨p.byteOrder, s, c⟩

/-- `parse_events` takes a byte at least: it reads one event or more. -/
theorem Parser.parseEvents_takes_byte {da : Bool} {stream : StreamParser} {ctx : PacketContext}
    {bo : NativeByteOrder} {src : List UInt8} {c : AlignedCursor} {evs : List Event}
    {r' : StreamReader} (h : Runs (Parser.parseEvents da stream ctx) ⟨bo, src, c⟩ evs r') :
    r'.src.length < src.length := by
  obtain ⟨r1, pad, hl, -, -, hs, -⟩ := Parser.runs_parseEvents.1 h
  obtain ⟨-, hne, hlen⟩ := Parser.parseEventsLoop_runs hl
  have := List.length_pos.2 hne
  simp only [hs, List.length_append] at hlen
  omega

section
variable {da : Bool} {cfg : Config} {p : Parser} {stream : StreamParser} {pkt : Packet}
  {th tc te : List UInt8}

/-- **A packet is cut at the hints.** For a parser `Parser::new` builds from a configuration
whose packet contexts have fixed-size members, the bytes a successful `parse` takes are the
header's up to its hint, the context's up to the stream's hint, then the events and the rest of
the packet. -/
theorem Parser.parse_cut (hp : Parser.new cfg = .ok p) (hfix : cfg.FixedContexts)
    {src rest : List UInt8} (h : p.parse da src = .ok (pkt, rest)) :
    ∃ stream th tc te, src = th ++ (tc ++ (te ++ rest)) ∧ PacketCut da p stream pkt th tc te := by
  obtain ⟨r', hr, rfl⟩ := Parser.parse_eq_ok.1 h
  obtain ⟨⟨bo1, src1, c1⟩, ⟨bo2, src2, c2⟩, stream, h1, hs, h2, h3⟩ := Parser.runs_parsePacket.1 hr
  obtain ⟨th, hs1, hb1, hc1, hr1⟩ := p.parseHeader_reads _ _ _ _ _ h1
  obtain ⟨tc, hs2, hb2, hc2, hr2⟩ := Parser.parsePacketContext_reads stream _ _ _ _ _ h2
  dsimp only at hs1 hb1 hc1 hs2 hb2 hc2
  subst hb1 hb2 hs1 hs2
  -- the header ends at its hint, the context, of fixed-size members, at the stream's
  obtain ⟨_, _, _, _, hh, -⟩ := Parser.new_pktHeader hp
  obtain rfl : c1 = p.pktHeader.wireSizeHint := Parser.parseHeader_cursor hh h1
  obtain rfl : c2 = stream.packetContext.wireSizeHint :=
    Parser.parsePacketContext_cursor_of_fixed hp hs (fun e he => hfix e
      ((List.perm_insertionSort _ _).subset (List.getElem?_mem he))) h2
  have hc1 := hc1 rfl
  simp only [AlignedCursor.default_bitIndex] at hc1
  have hc2 := hc2 (by omega)
  obtain ⟨te, hs3, -, -, hle, hcs8, hle2, -, hl3, hr3⟩ := Parser.parseEvents_runs (by omega) h3
  have hpos := Parser.parseEvents_takes_byte h3
  rw [hs3, List.length_append] at hpos
  refine ⟨stream, th, tc, te, by rw [hs3], hs, ?_, ?_, ?_, by omega, hr1, hr2, ⟨_, hr3⟩⟩
  · rw [cursorBytes_eq]; omega
  · rw [cursorBytes_eq]; omega
  · rw [hl3, PacketContext.packetSize, Nat.shiftRight_eq_div_pow]; omega

/-- Conversely, a cut packet is what `parse` reads from its bytes, whatever follows them. -/
theorem PacketCut.parse_eq (hc : PacketCut da p stream pkt th tc te) (rest : List UInt8) :
    p.parse da (th ++ (tc ++ (te ++ rest))) = .ok (pkt, rest) :=
  Parser.parse_eq_ok.2 ⟨_, Parser.runs_parsePacket.2 ⟨_, _, _, hc.header _, hc.stream_eq,
    hc.context _, hc.events.choose_spec rest⟩, rfl⟩

/-! ## One stage -/

/-- A buffer that holds at least the bytes `t` of an input that starts with `t` starts with
`t`, and what it holds past them starts what comes after `t`. -/
theorem eq_append_drop_of_append_eq {t buf fut rest : List UInt8} (h : buf ++ fut = t ++ rest)
    (hl : t.length ≤ buf.length) : buf = t ++ buf.drop t.length ∧ buf.drop t.length ++ fut = rest := by
  have e : buf = t ++ buf.drop t.length := by
    have := congrArg (List.take t.length) h
    rw [List.take_append_of_le_length hl, List.take_left' rfl] at this
    exact (List.take_append_drop t.length buf).symm.trans (congrArg (· ++ _) this)
  exact ⟨e, List.append_cancel_left (by rw [← List.append_assoc, ← e, h])⟩

/-- A buffer shorter than the bytes `t` an input starts with leaves input to come. -/
theorem ne_nil_of_append_eq {t buf fut rest : List UInt8} (h : buf ++ fut = t ++ rest)
    (hl : buf.length < t.length) : fut ≠ [] := by
  rintro rfl
  rw [List.append_nil] at h
  subst h
  simp only [List.length_append] at hl
  omega

variable (hc : PacketCut da p stream pkt th tc te) {buf fut rest : List UInt8}
include hc

/-- The `Events` stage waits for the rest of the packet, then emits it. -/
theorem PacketCut.decodeEvents_eq (h : buf ++ fut = te ++ rest) :
    PacketDecoder.decodeEvents da p pkt.header pkt.context stream.packetContext.wireSizeHint buf =
      if buf.length < te.length then
        .ok (none, .events pkt.header pkt.context stream.packetContext.wireSizeHint, buf)
      else .ok (some pkt, .header, buf.drop te.length) := by
  have := hc.packet_length
  have := hc.context_length
  split
  · unfold PacketDecoder.decodeEvents
    rw [if_neg (by omega), if_pos (by omega)]
  · obtain ⟨e, -⟩ := eq_append_drop_of_append_eq h (by omega)
    obtain ⟨c, hr⟩ := hc.events
    have hr := hr (buf.drop te.length)
    rw [← e] at hr
    exact PacketDecoder.decodeEvents_eq (by omega) (by omega) hc.stream_eq hr

/-- The `PacketContext` stage waits for the rest of the context hint, then reads the context and
goes on to the `Events` stage. -/
theorem PacketCut.decodeContext_eq (h : buf ++ fut = tc ++ (te ++ rest)) :
    PacketDecoder.decodeContext da p pkt.header p.pktHeader.wireSizeHint buf =
      if buf.length < tc.length then
        .ok (none, .packetContext pkt.header p.pktHeader.wireSizeHint, buf)
      else PacketDecoder.decodeEvents da p pkt.header pkt.context stream.packetContext.wireSizeHint
        (buf.drop tc.length) := by
  have := hc.header_length
  have := hc.context_length
  split
  · unfold PacketDecoder.decodeContext
    rw [hc.stream_eq]
    dsimp only
    rw [if_neg (by omega), if_pos (by omega)]
  · obtain ⟨e, -⟩ := eq_append_drop_of_append_eq h (by omega)
    have hr := hc.context (buf.drop tc.length)
    rw [← e] at hr
    exact PacketDecoder.decodeContext_eq hc.stream_eq (by omega) (by omega) hr

/-- The `Header` stage waits for the header hint, then reads the header and goes on to the
`PacketContext` stage. -/
theorem PacketCut.decodeHeader_eq (h : buf ++ fut = th ++ (tc ++ (te ++ rest))) :
    PacketDecoder.decodeHeader da p buf =
      if buf.length < th.length then .ok (none, .header, buf)
      else PacketDecoder.decodeContext da p pkt.header p.pktHeader.wireSizeHint
        (buf.drop th.length) := by
  have := hc.header_length
  split
  · unfold PacketDecoder.decodeHeader
    rw [if_pos (by omega)]
  · obtain ⟨e, -⟩ := eq_append_drop_of_append_eq h (by omega)
    have hr := hc.header (buf.drop th.length)
    rw [← e] at hr
    exact PacketDecoder.decodeHeader_eq (by omega) hr

omit hc

/-- The stages of the packet `pkt`, cut as `th`, `tc`, `te` and followed by `rest`: the decoder
state at the start of each, with `w`, the bytes the decoder holds and those still to come, at
the stage's bytes. -/
def StageOf (p : Parser) (stream : StreamParser) (pkt : Packet) (th tc te : List UInt8)
    (state : PacketDecoderState) (w rest : List UInt8) : Prop :=
  state = .header ∧ w = th ++ (tc ++ (te ++ rest)) ∨
  state = .packetContext pkt.header p.pktHeader.wireSizeHint ∧ w = tc ++ (te ++ rest) ∨
  state = .events pkt.header pkt.context stream.packetContext.wireSizeHint ∧ w = te ++ rest

/-- What a call from a stage of the packet does: it waits at a stage of the same packet, with
input still to come, or it emits the packet and leaves the rest of the stream. -/
def StageOutcome (p : Parser) (stream : StreamParser) (pkt : Packet) (th tc te fut rest : List UInt8)
    (res : DecodeResult) : Prop :=
  (∃ s' buf', res = .ok (none, s', buf') ∧ StageOf p stream pkt th tc te s' (buf' ++ fut) rest ∧
    fut ≠ []) ∨
  ∃ buf', res = .ok (some pkt, .header, buf') ∧ buf' ++ fut = rest

include hc

theorem PacketCut.decodeEvents_outcome (h : buf ++ fut = te ++ rest) :
    StageOutcome p stream pkt th tc te fut rest
      (PacketDecoder.decodeEvents da p pkt.header pkt.context stream.packetContext.wireSizeHint buf) := by
  rw [hc.decodeEvents_eq h]
  split
  · exact .inl ⟨_, _, rfl, .inr (.inr ⟨rfl, h⟩), ne_nil_of_append_eq h ‹_›⟩
  · exact .inr ⟨_, rfl, (eq_append_drop_of_append_eq h (by omega)).2⟩

theorem PacketCut.decodeContext_outcome (h : buf ++ fut = tc ++ (te ++ rest)) :
    StageOutcome p stream pkt th tc te fut rest
      (PacketDecoder.decodeContext da p pkt.header p.pktHeader.wireSizeHint buf) := by
  rw [hc.decodeContext_eq h]
  split
  · exact .inl ⟨_, _, rfl, .inr (.inl ⟨rfl, h⟩), ne_nil_of_append_eq h ‹_›⟩
  · exact hc.decodeEvents_outcome (eq_append_drop_of_append_eq h (by omega)).2

theorem PacketCut.decodeHeader_outcome (h : buf ++ fut = th ++ (tc ++ (te ++ rest))) :
    StageOutcome p stream pkt th tc te fut rest (PacketDecoder.decodeHeader da p buf) := by
  rw [hc.decodeHeader_eq h]
  split
  · exact .inl ⟨_, _, rfl, .inl ⟨rfl, h⟩, ne_nil_of_append_eq h ‹_›⟩
  · exact hc.decodeContext_outcome (eq_append_drop_of_append_eq h (by omega)).2

/-- **One call from a stage.** -/
theorem PacketCut.decodeFrom_outcome {state : PacketDecoderState}
    (hs : StageOf p stream pkt th tc te state (buf ++ fut) rest) :
    StageOutcome p stream pkt th tc te fut rest (PacketDecoder.decodeFrom da p state buf) := by
  rcases hs with ⟨rfl, h⟩ | ⟨rfl, h⟩ | ⟨rfl, h⟩
  · exact hc.decodeHeader_outcome h
  · exact hc.decodeContext_outcome h
  · exact hc.decodeEvents_outcome h

/-- From any stage the rest of the stream is shorter than what is left: the events take a byte. -/
theorem PacketCut.rest_lt {state : PacketDecoderState} {w : List UInt8}
    (hs : StageOf p stream pkt th tc te state w rest) : rest.length < w.length := by
  have := hc.events_pos
  rcases hs with ⟨-, rfl⟩ | ⟨-, rfl⟩ | ⟨-, rfl⟩ <;> simp only [List.length_append] <;> omega

end

/-! ## The decoder in the stream -/

theorem PacketDecoder.decode_of_decodeFrom {da : Bool} {p : Parser} {d : PacketDecoder}
    {buf buf' : List UInt8}
    {res : Option Packet} {s' : PacketDecoderState} (hd : d.parser = p)
    (h : PacketDecoder.decodeFrom da p d.state buf = .ok (res, s', buf')) :
    d.decode da buf = .ok (res, ⟨p, s'⟩, buf') := by
  simp only [PacketDecoder.decode, hd, h]
  rfl

/-- The decoder `d`, with `w` the bytes it holds followed by those still to come, stands in the
stream of the packets `pkts`: at its end, or at a stage of its first packet. -/
def DecoderAt (da : Bool) (p : Parser) (d : PacketDecoder) (w : List UInt8) : List Packet → Prop
  | [] => d.parser = p ∧ d.state = .header ∧ w = []
  | pkt :: pkts => d.parser = p ∧ ∃ stream th tc te rest, PacketCut da p stream pkt th tc te ∧
      ParsesAll da p rest pkts ∧ StageOf p stream pkt th tc te d.state w rest

section
variable {da : Bool} {cfg : Config} {p : Parser} (hp : Parser.new cfg = .ok p)
  (hfix : cfg.FixedContexts)
include hp hfix

/-- A fresh decoder stands at the start of a stream of packets. -/
theorem DecoderAt.start {w : List UInt8} {pkts : List Packet} (h : ParsesAll da p w pkts) :
    DecoderAt da p p.intoPacketDecoder w pkts := by
  cases h with
  | nil => exact ⟨rfl, rfl, rfl⟩
  | cons hparse hrest =>
    obtain ⟨stream, th, tc, te, rfl, hc⟩ := Parser.parse_cut hp hfix hparse
    exact ⟨rfl, stream, th, tc, te, _, hc, hrest, .inl ⟨rfl, rfl⟩⟩

/-- No packet is read from no bytes. -/
theorem ParsesAll.nil_eq {pkts : List Packet} (h : ParsesAll da p [] pkts) : pkts = [] := by
  cases h with
  | nil => rfl
  | cons hparse =>
    obtain ⟨stream, th, tc, te, he, hc⟩ := Parser.parse_cut hp hfix hparse
    have := congrArg List.length he
    simp only [List.length_nil, List.length_append] at this
    have := hc.events_pos
    omega

/-- **One chunk.** From where it stands, `decode` until `Ok(None)` with enough fuel emits the
next packets of the stream, the decoder standing after them; when no input is to come, it emits
all of them and ends with an empty buffer. -/
theorem PacketDecoder.drain_at {fut : List UInt8} : ∀ (fuel : Nat) {d : PacketDecoder}
    {buf : List UInt8} {pkts : List Packet}, DecoderAt da p d (buf ++ fut) pkts → buf.length < fuel →
    ∃ k d' buf', PacketDecoder.drain da fuel d buf = .ok (pkts.take k, d', buf') ∧
      DecoderAt da p d' (buf' ++ fut) (pkts.drop k) ∧ (fut = [] → pkts.drop k = [] ∧ buf' = [])
  | 0, _, _, _, _, hl => absurd hl (Nat.not_lt_zero _)
  | fuel + 1, d, buf, [], ⟨hd, hs, hw⟩, _ => by
    -- at the end of the stream the `Header` stage waits on an empty buffer
    obtain ⟨rfl, rfl⟩ := List.append_eq_nil.1 hw
    obtain ⟨-, -, -, -, -, h8⟩ := Parser.new_pktHeader hp
    have e : PacketDecoder.decodeFrom da p d.state [] = .ok (none, .header, []) := by
      rw [hs, PacketDecoder.decodeFrom, PacketDecoder.decodeHeader, if_pos]
      rw [List.length_nil, cursorBytes_eq]
      omega
    refine ⟨0, ⟨p, .header⟩, [], ?_, ⟨rfl, rfl, rfl⟩, fun _ => ⟨rfl, rfl⟩⟩
    simp only [PacketDecoder.drain, PacketDecoder.decode_of_decodeFrom hd e]
    rfl
  | fuel + 1, d, buf, pkt :: pkts, ⟨hd, stream, th, tc, te, rest, hc, hrest, hs⟩, hl => by
    rcases hc.decodeFrom_outcome hs with ⟨s', buf', e, hs', hf⟩ | ⟨buf', e, hw⟩
    · -- it waits at a later stage of the packet
      refine ⟨0, ⟨p, s'⟩, buf', ?_, ⟨rfl, stream, th, tc, te, rest, hc, hrest, hs'⟩,
        fun h => absurd h hf⟩
      simp only [PacketDecoder.drain, PacketDecoder.decode_of_decodeFrom hd e]
      rfl
    · -- it emits the packet and goes on from the rest of the stream
      have hlt : buf'.length < buf.length := by
        have := hc.rest_lt hs
        rw [← hw] at this
        simp only [List.length_append] at this
        omega
      obtain ⟨k, d', buf'', hdr, hat, hend⟩ := PacketDecoder.drain_at fuel
        (DecoderAt.start hp hfix (hw ▸ hrest)) (by omega)
      refine ⟨k + 1, d', buf'', ?_, hat, hend⟩
      have hdr : PacketDecoder.drain da fuel ⟨p, .header⟩ buf' = _ := hdr
      simp only [PacketDecoder.drain, PacketDecoder.decode_of_decodeFrom hd e, bind,
        Except.bind, hdr]
      rfl

/-- **All the chunks.** From where it stands, the decoder fed the rest of the stream in chunks
emits the rest of its packets and ends with an empty buffer. -/
theorem PacketDecoder.feed_at : ∀ (chunks : List (List UInt8)) {d : PacketDecoder}
    {buf : List UInt8} {pkts : List Packet}, DecoderAt da p d (buf ++ chunks.flatten) pkts →
    (chunks = [] → pkts = [] ∧ buf = []) →
    ∃ d', PacketDecoder.feed da d buf chunks = .ok (pkts, d', [])
  | [], d, _, _, _, hend => by
    obtain ⟨rfl, rfl⟩ := hend rfl
    exact ⟨d, rfl⟩
  | chunk :: chunks, d, buf, pkts, hat, _ => by
    rw [List.flatten_cons, ← List.append_assoc] at hat
    obtain ⟨k, d', buf', hdr, hat', hend⟩ := PacketDecoder.drain_at hp hfix _ hat (Nat.lt_add_one _)
    obtain ⟨d'', hfeed⟩ := PacketDecoder.feed_at chunks hat'
      (fun h => hend (by rw [h, List.flatten_nil]))
    refine ⟨d'', ?_⟩
    simp only [PacketDecoder.feed, hdr, bind, Except.bind, hfeed, List.take_append_drop]
    rfl

/-- **Chunked decoding refines `Parser::parse`.** For a configuration `Parser::new` accepts
whose packet-context extra members all have a fixed wire size, and a byte stream that repeated
`parse` calls cut into the packets `pkts`, a fresh decoder fed the stream in any chunks returns
no error, emits exactly `pkts`, in order, and ends with an empty buffer. -/
theorem PacketDecoder.feed_refines_parse {B : List UInt8} {pkts : List Packet}
    (hB : ParsesAll da p B pkts) (chunks : List (List UInt8)) (hchunks : chunks.flatten = B) :
    ∃ d, PacketDecoder.feed da p.intoPacketDecoder [] chunks = .ok (pkts, d, []) := by
  subst hchunks
  refine PacketDecoder.feed_at hp hfix chunks (DecoderAt.start hp hfix hB) ?_
  rintro rfl
  exact ⟨ParsesAll.nil_eq hp hfix hB, rfl⟩

end

/-- Two five-byte packets of `oneStreamConfig []`, fed in chunks of two, four and four bytes
that cut both packets, in a build with debug assertions. -/
theorem twoPackets_any_chunks : ∃ p, Parser.new (oneStreamConfig []) = .ok p ∧
    (oneStreamConfig []).FixedContexts ∧
    ParsesAll true p [0, 40, 40, 0, 0, 0, 40, 40, 0, 0] [fiveBytePacket, fiveBytePacket] ∧
    [[0, 40], [40, 0, 0, 0], [40, 40, 0, 0]].flatten =
      ([0, 40, 40, 0, 0, 0, 40, 40, 0, 0] : List UInt8) ∧
    ∃ d, PacketDecoder.feed true p.intoPacketDecoder [] [[0, 40], [40, 0, 0, 0], [40, 40, 0, 0]] =
      .ok ([fiveBytePacket, fiveBytePacket], d, []) := by
  have hparse := oneStream_parse_fiveBytePacket true
  have hfix : (oneStreamConfig []).FixedContexts := by decide
  obtain ⟨stream, th, tc, te, he, hc⟩ := Parser.parse_cut oneStreamParser.2 hfix hparse
  have hparse2 : oneStreamParser.1.parse true [0, 40, 40, 0, 0, 0, 40, 40, 0, 0] =
      .ok (fiveBytePacket, [0, 40, 40, 0, 0]) := by
    rw [List.append_nil] at he
    have := hc.parse_eq [0, 40, 40, 0, 0]
    rwa [← List.append_assoc tc, ← List.append_assoc th, ← he] at this
  have hB := ParsesAll.cons hparse2 (.cons hparse .nil)
  exact ⟨oneStreamParser.1, oneStreamParser.2, hfix, hB, rfl,
    PacketDecoder.feed_refines_parse oneStreamParser.2 hfix hB _ rfl⟩

end BarectfParser
