import BarectfParser.Parser.Refinement

/-!
# The decoder emits what `Parser::parse` reads

`PacketDecoder` runs the stage functions of `Parser::parse` on what its buffer holds, a stage at
a time when bytes are short. Whatever the configuration and however the stream is cut into
chunks, every packet the decoder emits is the packet `parse` reads from the bytes the decoder
took for it, and no byte is lost or taken twice. This is the direction of the refinement that
holds for every configuration; `PacketDecoder.feed_refines_parse` is the other one, for
configurations whose context hints are exact.

* `PacketDecoderState.Holds`: what a state says of the bytes it has taken of the current packet.
* `StepSound`: what a call does to the buffer and the state; `PacketDecoder.decodeEvents_sound`,
  `PacketDecoder.decodeContext_sound`, `PacketDecoder.decodeHeader_sound` per stage and
  `PacketDecoder.decode_sound` for one call.
* `PacketDecoder.drain_fuel`: a call that emits removes a byte
  (`PacketDecoder.decode_emit_shrinks`), so the loop of calls until `Ok(None)` ends within the
  buffer's length plus one calls.
* `PacketDecoder.drain_sound` (calls until `Ok(None)`) and `PacketDecoder.feed_sound` (every
  chunk): the packets emitted, each with its bytes (`EmittedFrom`), and the state after them.
-/

namespace BarectfParser

/-- What the decoder's state says of `w`, the bytes it has taken of the current packet: none at
`Header`; at `PacketContext`, the header read from them; at `Events`, the header and then the
context of the stream its id names. The cursor stands after `w`. -/
def PacketDecoderState.Holds (da : Bool) (p : Parser) : PacketDecoderState → List UInt8 → Prop
  | .header, w => w = []
  | .packetContext hdr cursor, w => cursor.bitIndex = 8 * w.length ∧
    ∀ s, Runs (p.parseHeader da) (StreamReader.new p.byteOrder (w ++ s)) hdr ⟨p.byteOrder, s, cursor⟩
  | .events hdr ctx cursor, w => cursor.bitIndex = 8 * w.length ∧
    ∃ stream wh wc c, w = wh ++ wc ∧ p.streams[hdr.streamId]? = some stream ∧
      (∀ s, Runs (p.parseHeader da) (StreamReader.new p.byteOrder (wh ++ s)) hdr
        ⟨p.byteOrder, s, c⟩) ∧
      ∀ s, Runs (Parser.parsePacketContext da stream) ⟨p.byteOrder, wc ++ s, c⟩ ctx
        ⟨p.byteOrder, s, cursor⟩

/-- What a call from a state that holds `w` does with the buffer `src`: it removes a prefix
`removed`; on `Ok(None)` the next state holds `w ++ removed`; on a packet the next state is
`Header` and `parse` reads that packet from `w ++ removed`, whatever follows. -/
def StepSound (da : Bool) (p : Parser) (w src : List UInt8) :
    Option Packet × PacketDecoderState × List UInt8 → Prop
  | (res, s', src') => ∃ removed, src = removed ++ src' ∧
    (res = none → s'.Holds da p (w ++ removed)) ∧
    ∀ pkt, res = some pkt → s' = .header ∧ ∀ rest, p.parse da (w ++ removed ++ rest) = .ok (pkt, rest)

/-- A call that waits removes nothing and keeps the state. -/
theorem StepSound.wait {da : Bool} {p : Parser} {s : PacketDecoderState} {w src : List UInt8}
    (h : s.Holds da p w) : StepSound da p w src (none, s, src) :=
  ⟨[], rfl, fun _ => by rwa [List.append_nil], fun _ h => by cases h⟩

/-! ## One call -/

section
variable {da : Bool} {p : Parser} {header : PacketHeader} {ctx : PacketContext}
  {cursor : AlignedCursor}
  {w src : List UInt8} {out : Option Packet × PacketDecoderState × List UInt8}

theorem PacketDecoder.decodeEvents_sound
    (hw : (PacketDecoderState.events header ctx cursor).Holds da p w)
    (h : PacketDecoder.decodeEvents da p header ctx cursor src = .ok out) : StepSound da p w src out := by
  obtain ⟨res, s', src'⟩ := out
  obtain ⟨hcw, stream, wh, wc, c, rfl, hs, hh, hc⟩ := hw
  rcases PacketDecoder.decodeEvents_ok h with ⟨rfl, rfl, rfl⟩ |
    ⟨stream', evs, r, hs', hr, rfl, rfl, rfl⟩
  · exact StepSound.wait ⟨hcw, stream, wh, wc, c, rfl, hs, hh, hc⟩
  · obtain rfl : stream' = stream := Option.some.inj (hs'.symm.trans hs)
    obtain ⟨taken, hsrc, -, -, -, -, -, -, -, he⟩ := Parser.parseEvents_runs (by omega) hr
    refine ⟨taken, hsrc, nofun, fun pkt hp => ⟨rfl, fun rest => ?_⟩⟩
    cases hp
    simp only [List.append_assoc]
    exact Parser.parse_eq_ok.2 ⟨_, Parser.runs_parsePacket.2 ⟨_, _, _, hh (wc ++ (taken ++ rest)),
      hs, hc (taken ++ rest), he rest⟩, rfl⟩

theorem PacketDecoder.decodeContext_sound
    (hw : (PacketDecoderState.packetContext header cursor).Holds da p w)
    (h : PacketDecoder.decodeContext da p header cursor src = .ok out) : StepSound da p w src out := by
  obtain ⟨res, s', src'⟩ := out
  obtain ⟨hcw, hh⟩ := hw
  rcases PacketDecoder.decodeContext_ok h with ⟨rfl, rfl, rfl⟩ |
    ⟨stream, ctx, ⟨bo1, src1, c1⟩, hs, -, hr, he⟩
  · exact StepSound.wait ⟨hcw, hh⟩
  · obtain ⟨t1, hs1, hb1, hc1, hr1⟩ := Parser.parsePacketContext_reads stream _ _ _ _ _ hr
    dsimp only at hs1 hb1 hc1 he
    subst hb1 hs1
    obtain ⟨removed, hsrc, hnone, hsome⟩ := PacketDecoder.decodeEvents_sound
      ⟨by rw [hc1 (by omega), List.length_append]; omega, stream, w, t1, cursor, rfl, hs, hh, hr1⟩ he
    refine ⟨t1 ++ removed, by rw [hsrc, List.append_assoc], fun hn => ?_, fun pkt hp => ?_⟩
    · simpa only [List.append_assoc] using hnone hn
    · simpa only [List.append_assoc] using hsome pkt hp

theorem PacketDecoder.decodeHeader_sound (h : PacketDecoder.decodeHeader da p src = .ok out) :
    StepSound da p [] src out := by
  obtain ⟨res, s', src'⟩ := out
  rcases PacketDecoder.decodeHeader_ok h with ⟨rfl, rfl, rfl⟩ | ⟨header, ⟨bo1, src1, c1⟩, hr, he⟩
  · exact StepSound.wait rfl
  · obtain ⟨t1, hs1, hb1, hc1, hr1⟩ := p.parseHeader_reads _ _ _ _ _ hr
    dsimp only at hs1 hb1 hc1 he
    subst hb1 hs1
    have hc1 := hc1 rfl
    simp only [AlignedCursor.default_bitIndex, Nat.zero_add] at hc1
    obtain ⟨removed, hsrc, hnone, hsome⟩ := PacketDecoder.decodeContext_sound ⟨hc1, hr1⟩ he
    exact ⟨t1 ++ removed, by rw [hsrc, List.append_assoc], hnone, hsome⟩

end

/-- A call is its state's stage run on the buffer; the parser stays. -/
theorem PacketDecoder.decode_ok {da : Bool} {d d' : PacketDecoder} {src src' : List UInt8}
    {res : Option Packet} (h : d.decode da src = .ok (res, d', src')) :
    d' = ⟨d.parser, d'.state⟩ ∧
      PacketDecoder.decodeFrom da d.parser d.state src = .ok (res, d'.state, src') := by
  simp only [PacketDecoder.decode] at h
  rcases hs : PacketDecoder.decodeFrom da d.parser d.state src with e | ⟨res1, s1, src1⟩ <;>
    rw [hs] at h <;> simp only [Except.map, Except.ok.injEq, Prod.mk.injEq, reduceCtorEq] at h
  obtain ⟨rfl, rfl, rfl⟩ := h
  exact ⟨rfl, rfl⟩

/-- **One call.** From a state that holds `w`, a call removes a prefix of the buffer, and the
state it leaves holds `w` and that prefix, or `parse` reads from them the packet it emits. -/
theorem PacketDecoder.decode_sound {da : Bool} {d d' : PacketDecoder} {w src src' : List UInt8}
    {res : Option Packet} (hw : d.state.Holds da d.parser w)
    (h : d.decode da src = .ok (res, d', src')) :
    d'.parser = d.parser ∧ StepSound da d.parser w src (res, d'.state, src') := by
  obtain ⟨hd', hs⟩ := PacketDecoder.decode_ok h
  refine ⟨by rw [hd'], ?_⟩
  obtain ⟨parser, s⟩ := d
  cases s with
  | header =>
    obtain rfl : w = [] := hw
    exact PacketDecoder.decodeHeader_sound hs
  | packetContext header cursor => exact PacketDecoder.decodeContext_sound hw hs
  | events header ctx cursor => exact PacketDecoder.decodeEvents_sound hw hs

/-! ## A call that emits takes a byte -/

section
variable {da : Bool} {p : Parser} {header : PacketHeader} {ctx : PacketContext}
  {cursor : AlignedCursor}
  {src src' : List UInt8} {pkt : Packet} {s' : PacketDecoderState}

theorem PacketDecoder.decodeEvents_emit_shrinks
    (h : PacketDecoder.decodeEvents da p header ctx cursor src = .ok (some pkt, s', src')) :
    src'.length < src.length := by
  rcases PacketDecoder.decodeEvents_ok h with ⟨h, -, -⟩ | ⟨_, _, _, -, hr, -, -, rfl⟩
  · cases h
  · exact Parser.parseEvents_takes_byte hr

theorem PacketDecoder.decodeContext_emit_shrinks
    (h : PacketDecoder.decodeContext da p header cursor src = .ok (some pkt, s', src')) :
    src'.length < src.length := by
  rcases PacketDecoder.decodeContext_ok h with ⟨h, -, -⟩ | ⟨_, _, _, -, -, hr, h⟩
  · cases h
  · exact Nat.lt_of_lt_of_le (PacketDecoder.decodeEvents_emit_shrinks h)
      ((Parser.parsePacketContext_reads _).length_le hr)

theorem PacketDecoder.decodeHeader_emit_shrinks
    (h : PacketDecoder.decodeHeader da p src = .ok (some pkt, s', src')) :
    src'.length < src.length := by
  rcases PacketDecoder.decodeHeader_ok h with ⟨h, -, -⟩ | ⟨_, _, hr, h⟩
  · cases h
  · exact Nat.lt_of_lt_of_le (PacketDecoder.decodeContext_emit_shrinks h)
      (p.parseHeader_reads.length_le hr)

end

/-- A call that emits a packet removes a byte from the buffer at least, from any state: the
events of a packet are one or more, each with an id of 8 bits or more. -/
theorem PacketDecoder.decode_emit_shrinks {da : Bool} {d d' : PacketDecoder} {src src' : List UInt8}
    {pkt : Packet} (h : d.decode da src = .ok (some pkt, d', src')) : src'.length < src.length := by
  obtain ⟨-, h⟩ := PacketDecoder.decode_ok h
  cases hs : d.state <;> rw [hs] at h
  · exact PacketDecoder.decodeHeader_emit_shrinks h
  · exact PacketDecoder.decodeContext_emit_shrinks h
  · exact PacketDecoder.decodeEvents_emit_shrinks h

/-! ## Runs of calls -/

/-- **The decoder's loop ends.** Calling `decode` until it returns `Ok(None)` or an error makes at
most one call more than the buffer has bytes, whatever the decoder's state: every call that
emits removes a byte. So all fuel above the buffer's length gives one outcome, that of the
unbounded loop. -/
theorem PacketDecoder.drain_fuel (da : Bool) :
    ∀ (n m : Nat) (d : PacketDecoder) (src : List UInt8), src.length < n → src.length < m →
      PacketDecoder.drain da n d src = PacketDecoder.drain da m d src
  | 0, _, _, _, hn, _ => absurd hn (Nat.not_lt_zero _)
  | _ + 1, 0, _, _, _, hm => absurd hm (Nat.not_lt_zero _)
  | n + 1, m + 1, d, src, hn, hm => by
    simp only [PacketDecoder.drain]
    rcases hd : d.decode da src with e | ⟨_ | pkt, d', src'⟩
    · rfl
    · rfl
    · have := PacketDecoder.decode_emit_shrinks hd
      simp only [except_ok_bind, PacketDecoder.drain_fuel da n m d' src' (by omega) (by omega)]

/-- Five bytes of `oneStreamConfig []`: six calls and ten give the same outcome. -/
theorem oneStream_drain_fuel :
    ([0, 40, 40, 0, 0] : List UInt8).length < 6 ∧ ([0, 40, 40, 0, 0] : List UInt8).length < 10 ∧
    PacketDecoder.drain true 6 oneStreamParser.1.intoPacketDecoder [0, 40, 40, 0, 0] =
      PacketDecoder.drain true 10 oneStreamParser.1.intoPacketDecoder [0, 40, 40, 0, 0] :=
  ⟨by decide, by decide, PacketDecoder.drain_fuel true 6 10 _ _ (by decide) (by decide)⟩

/-- The packets `pkts`, each read by `parse` from its bytes in `ts`, whatever follows them. -/
def EmittedFrom (da : Bool) (p : Parser) (ts : List (List UInt8)) (pkts : List Packet) : Prop :=
  List.Forall₂ (fun t pkt => ∀ rest, p.parse da (t ++ rest) = .ok (pkt, rest)) ts pkts

/-- Packets each read from its own bytes are what repeated `parse` calls read from all of them. -/
theorem EmittedFrom.parsesAll {da : Bool} {p : Parser} {ts : List (List UInt8)} {pkts : List Packet}
    (h : EmittedFrom da p ts pkts) : ParsesAll da p ts.flatten pkts := by
  induction h with
  | nil => exact .nil
  | cons ht _ ih => exact .cons (ht _) ih

section
variable {da : Bool} {p : Parser}

/-- **`decode` until `Ok(None)`.** From a state that holds `w`, the calls emit packets, each read
by `parse` from its bytes, which are `w` and the bytes taken after it, and they leave a state
that holds the bytes taken since the last packet. -/
theorem PacketDecoder.drain_sound : ∀ (fuel : Nat) {d d' : PacketDecoder}
    {w buf buf' : List UInt8} {pkts : List Packet}, d.parser = p → d.state.Holds da p w →
    PacketDecoder.drain da fuel d buf = .ok (pkts, d', buf') →
    ∃ ts w', w ++ buf = ts.flatten ++ w' ++ buf' ∧ EmittedFrom da p ts pkts ∧ d'.parser = p ∧
      d'.state.Holds da p w'
  | 0, d, d', w, buf, buf', pkts, hd, hw, h => by
    cases h
    exact ⟨[], w, rfl, .nil, hd, hw⟩
  | fuel + 1, d, d', w, buf, buf', pkts, hd, hw, h => by
    obtain ⟨⟨res, d1, buf1⟩, h1, h⟩ := except_bind_eq_ok.1 h
    obtain ⟨hd1, removed, rfl, hnone, hsome⟩ := PacketDecoder.decode_sound (hd ▸ hw) h1
    rw [hd] at hd1 hnone hsome
    cases res with
    | none =>
      -- the call waits: the run ends, the state holding the bytes taken
      cases h
      exact ⟨[], w ++ removed, by simp, .nil, hd1, hnone rfl⟩
    | some pkt =>
      -- the call emits `pkt` and the run goes on from `Header`
      obtain ⟨⟨pkts', d2, buf2⟩, h2, h⟩ := except_bind_eq_ok.1 h
      cases h
      obtain ⟨hs1, hparse⟩ := hsome pkt rfl
      obtain ⟨ts, w', he, hts, hd2, hw2⟩ :=
        PacketDecoder.drain_sound fuel hd1 (by rw [hs1]; rfl) h2
      refine ⟨(w ++ removed) :: ts, w', ?_, .cons hparse hts, hd2, hw2⟩
      simp only [List.nil_append] at he
      simp [he]

/-- **Every run of the decoder.** From a state that holds `w`, the decoder fed chunks emits
packets, each read by `parse` from its bytes, which are `w`, the buffer and the chunks in order,
and it ends in a state that holds the bytes taken since the last packet. -/
theorem PacketDecoder.feed_sound' : ∀ (chunks : List (List UInt8)) {d d' : PacketDecoder}
    {w buf buf' : List UInt8} {pkts : List Packet}, d.parser = p → d.state.Holds da p w →
    PacketDecoder.feed da d buf chunks = .ok (pkts, d', buf') →
    ∃ ts w', w ++ buf ++ chunks.flatten = ts.flatten ++ w' ++ buf' ∧ EmittedFrom da p ts pkts ∧
      d'.parser = p ∧ d'.state.Holds da p w'
  | [], d, d', w, buf, buf', pkts, hd, hw, h => by
    cases h
    exact ⟨[], w, by simp, .nil, hd, hw⟩
  | chunk :: chunks, d, d', w, buf, buf', pkts, hd, hw, h => by
    obtain ⟨⟨pkts1, d1, buf1⟩, h1, h⟩ := except_bind_eq_ok.1 h
    obtain ⟨⟨pkts2, d2, buf2⟩, h2, h⟩ := except_bind_eq_ok.1 h
    cases h
    obtain ⟨ts1, w1, he1, hts1, hd1, hw1⟩ := PacketDecoder.drain_sound _ hd hw h1
    obtain ⟨ts2, w2, he2, hts2, hd2, hw2⟩ := PacketDecoder.feed_sound' chunks hd1 hw1 h2
    refine ⟨ts1 ++ ts2, w2, ?_, List.rel_append hts1 hts2, hd2, hw2⟩
    calc w ++ buf ++ (chunk :: chunks).flatten
        = (w ++ (buf ++ chunk)) ++ chunks.flatten := by simp
      _ = ts1.flatten ++ (w1 ++ buf1 ++ chunks.flatten) := by rw [he1]; simp
      _ = (ts1 ++ ts2).flatten ++ w2 ++ buf' := by rw [he2]; simp

end

/-- **The decoder is sound.** For every plan and every way of cutting a byte stream into chunks,
a fresh decoder fed the chunks emits packets that repeated `Parser::parse` calls read, in order,
from the front of the stream, each from exactly the bytes the decoder took for it and whatever
follows them; the bytes after them are those the decoder's state holds of the next packet, then
its buffer. -/
theorem PacketDecoder.feed_sound (da : Bool) (p : Parser) (chunks : List (List UInt8)) {pkts : List Packet}
    {d : PacketDecoder} {buf : List UInt8}
    (h : PacketDecoder.feed da p.intoPacketDecoder [] chunks = .ok (pkts, d, buf)) :
    ∃ ts w, chunks.flatten = ts.flatten ++ w ++ buf ∧ EmittedFrom da p ts pkts ∧
      ParsesAll da p ts.flatten pkts ∧ d.parser = p ∧ d.state.Holds da p w := by
  obtain ⟨ts, w, he, hts, hd, hw⟩ :=
    @PacketDecoder.feed_sound' da p chunks p.intoPacketDecoder _ [] [] _ _ rfl rfl h
  exact ⟨ts, w, by simpa using he, hts, hts.parsesAll, hd, hw⟩

/-- `fiveBytePacket` fed to the plan of `oneStreamConfig []` in two chunks, the first of which
ends inside the packet context: the first call waits at `PacketContext`, the second emits. -/
theorem oneStream_feed_fiveBytePacket (da : Bool) :
    PacketDecoder.feed da oneStreamParser.1.intoPacketDecoder [] [[0, 40], [40, 0, 0]] =
      .ok ([fiveBytePacket], oneStreamParser.1.intoPacketDecoder, []) := by
  have e1 : PacketDecoder.decodeHeader da oneStreamParser.1 [0, 40] =
      .ok (none, .packetContext fiveBytePacket.header ⟨8⟩, [40]) := by
    cases da <;> rfl
  have e2 : PacketDecoder.decodeContext da oneStreamParser.1 fiveBytePacket.header ⟨8⟩
      [40, 40, 0, 0] = .ok (some fiveBytePacket, .header, []) := by
    rw [PacketDecoder.decodeContext_eq oneStream_streams_zero (by decide) (by decide)
      (oneStream_parsePacketContext_fiveBytePacket da)]
    exact PacketDecoder.decodeEvents_eq (by decide) (by decide) oneStream_streams_zero
      (oneStream_parseEvents_fiveBytePacket da)
  have e3 : PacketDecoder.decodeHeader da oneStreamParser.1 [] = .ok (none, .header, []) := rfl
  simp only [PacketDecoder.feed, PacketDecoder.drain, PacketDecoder.decode,
    PacketDecoder.decodeFrom, Parser.intoPacketDecoder, List.nil_append, List.cons_append,
    List.length_cons, List.length_nil, e1, e2, e3, Except.map, except_ok_bind, except_pure,
    List.singleton_append, List.append_nil]

theorem fiveBytePacket_fed_in_two :
    PacketDecoder.feed true oneStreamParser.1.intoPacketDecoder [] [[0, 40], [40, 0, 0]] =
      .ok ([fiveBytePacket], oneStreamParser.1.intoPacketDecoder, []) ∧
    ∃ ts w, ([[0, 40], [40, 0, 0]] : List (List UInt8)).flatten = ts.flatten ++ w ++ [] ∧
      EmittedFrom true oneStreamParser.1 ts [fiveBytePacket] ∧
      ParsesAll true oneStreamParser.1 ts.flatten [fiveBytePacket] ∧
      oneStreamParser.1.intoPacketDecoder.parser = oneStreamParser.1 ∧
      oneStreamParser.1.intoPacketDecoder.state.Holds true oneStreamParser.1 w :=
  ⟨oneStream_feed_fiveBytePacket true,
    PacketDecoder.feed_sound true _ _ (oneStream_feed_fiveBytePacket true)⟩

end BarectfParser
