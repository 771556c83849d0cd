import BarectfParser.Parser.Decoder

/-!
# Stream and event ids

`Parser::new` numbers the data stream types of a configuration, and the event record types of
each stream, by `enumerate()` over their names sorted (barectf's ids follow the alphabetical
order of the names). A `BTreeMap` yields its entries in key order already, so the sort keeps them
as they are, and an id is the rank of its name: the number of names below it. The packet header
and the events `Parser::parse` returns carry the names, clock and log level of the types their
ids select under this numbering.

* `sortedByKey_eq`: the sort of a `BTreeMap`'s entries is the identity.
* `rank_eq_of_getElem?`: in a list strictly increasing in key, an entry's index is the number of
  smaller keys.
* `Parser.streamClocksOf_lookup`, `Parser.streamClockTypesOf_lookup`: the clock maps at an id.
* `Parser.new_stream`, `StreamParser.fromDataStreamType_event`: the plan at an id.
* `Parser.parseHeader_names`, `Parser.parseEvent_names`, `Parser.parseEvents_names`: what a
  parse reads from the plan at the ids it reads.
* `Parser.parse_names`: the result.
-/

namespace BarectfParser

/-! ## Ranks -/

/-- `sorted_by_key` over a `BTreeMap`'s entries keeps them in place: they are strictly increasing
in key, and the sort is stable. -/
theorem sortedByKey_eq {α : Type} (m : BTreeMap α) : sortedByKey m.entries = m.entries :=
  List.Sorted.insertionSort_eq (m.sorted.imp le_of_lt)

/-- In a list strictly increasing in key, the index of an entry is the number of keys below its
key. -/
theorem rank_eq_of_getElem? {α : Type} :
    ∀ {l : List (String × α)} {i : Nat} {e : String × α}, l.Pairwise (fun a b => a.1 < b.1) →
      l[i]? = some e → (l.filter fun a => a.1 < e.1).length = i
  | [], _, _, _, h => by simp at h
  | a :: l, 0, e, hl, h => by
    obtain rfl : a = e := by simpa using h
    rw [List.filter_cons_of_neg (by simp), List.filter_eq_nil_iff.2 fun b hb => by
      simpa using lt_asymm (List.rel_of_pairwise_cons hl hb)]
    rfl
  | a :: l, i + 1, e, hl, h => by
    rw [List.getElem?_cons_succ] at h
    have ha : a.1 < e.1 := List.rel_of_pairwise_cons hl (List.getElem?_mem h)
    rw [List.filter_cons_of_pos (by simpa using ha), List.length_cons,
      rank_eq_of_getElem? hl.of_cons h]

/-- The entry at an id of an association list built by `enumerate()` and `filter_map`. -/
theorem lookup_enumFrom_filterMap {α β : Type} (g : α → Option β) :
    ∀ (l : List α) (n j : Nat),
      ((l.enumFrom n).filterMap fun p => (g p.2).map (p.1, ·)).lookup j =
        if n ≤ j then l[j - n]?.bind g else none
  | [], n, j => by split <;> simp
  | a :: l, n, j => by
    rw [List.enumFrom_cons]
    by_cases hj : j = n
    · subst hj
      cases hg : g a <;> simp [hg, lookup_enumFrom_filterMap g l]
    · have hskip : ((List.enumFrom n (a :: l)).filterMap fun p => (g p.2).map (p.1, ·)).lookup j =
          ((l.enumFrom (n + 1)).filterMap fun p => (g p.2).map (p.1, ·)).lookup j := by
        cases hg : g a <;> simp [hg, List.lookup_cons, beq_false_of_ne hj]
      rw [List.enumFrom_cons] at hskip
      rw [hskip, lookup_enumFrom_filterMap g l (n + 1) j]
      by_cases hn : n ≤ j
      · rw [if_pos (by omega), if_pos hn, show j - n = j - (n + 1) + 1 by omega,
          List.getElem?_cons_succ]
      · rw [if_neg (by omega), if_neg hn]

theorem Parser.streamClocksOf_lookup (sorted : List (String × DataStreamType)) (i : Nat) :
    (Parser.streamClocksOf sorted).lookup i = sorted[i]?.bind (·.2.defaultClockTypeName) := by
  have := lookup_enumFrom_filterMap (fun e : String × DataStreamType => e.2.defaultClockTypeName)
    sorted 0 i
  rwa [if_pos (Nat.zero_le i), Nat.sub_zero] at this

theorem Parser.streamClockTypesOf_lookup (clockTypes : BTreeMap ClockType)
    (sorted : List (String × DataStreamType)) (i : Nat) :
    (Parser.streamClockTypesOf clockTypes sorted).lookup i =
      sorted[i]?.bind fun e => e.2.defaultClockTypeName.bind clockTypes.get := by
  have := lookup_enumFrom_filterMap (fun e : String × DataStreamType =>
    e.2.defaultClockTypeName.bind clockTypes.get) sorted 0 i
  rwa [if_pos (Nat.zero_le i), Nat.sub_zero] at this

/-! ## The plan at an id -/

/-- The stream parser at an id is compiled from the data stream type at that index of the
configuration's entries, under its name; the clock maps at the id hold that type's default clock
and its clock type. -/
theorem Parser.new_stream {cfg : Config} {p : Parser} (h : Parser.new cfg = .ok p) {i : Nat}
    {s : StreamParser} (hs : p.streams[i]? = some s) :
    ∃ hint dst, cfg.trace.typ.dataStreamTypes.entries[i]? = some (s.streamName, dst) ∧
      StreamParser.fromDataStreamType hint s.streamName dst = .ok s ∧
      p.streamClocks.lookup i = dst.defaultClockTypeName ∧
      p.streamClockTypes.lookup i = dst.defaultClockTypeName.bind cfg.trace.typ.clockTypes.get := by
  obtain ⟨magic, streamId, alignment, streams, -, -, -, -, hst, rfl⟩ := Parser.new_ok h
  rw [sortedByKey_eq] at hst
  obtain ⟨⟨name, dst⟩, he, hf⟩ := forall₂_getElem?_right hst hs
  obtain rfl := (StreamParser.fromDataStreamType_ok hf).1
  refine ⟨_, dst, he, hf, ?_, ?_⟩
  · simp only [Parser.streamClocksOf_lookup, sortedByKey_eq, he, Option.some_bind]
  · simp only [Parser.streamClockTypesOf_lookup, sortedByKey_eq, he, Option.some_bind]

/-- The event parser at an id of a stream is compiled from the event record type at that index
of the data stream type's entries, under its name and with its log level. -/
theorem StreamParser.fromDataStreamType_event {hint : AlignedCursor} {name : String}
    {dst : DataStreamType} {s : StreamParser}
    (h : StreamParser.fromDataStreamType hint name dst = .ok s) {j : Nat} {ev : EventParser}
    (he : s.events[j]? = some ev) :
    ∃ ert, dst.eventRecordTypes.entries[j]? = some (ev.eventName, ert) ∧
      ev.logLevel = ert.logLevel := by
  obtain ⟨_, -, h⟩ := except_bind_eq_ok.1 h
  obtain ⟨_, -, h⟩ := except_bind_eq_ok.1 h
  obtain ⟨_, -, h⟩ := except_bind_eq_ok.1 h
  obtain ⟨_, -, h⟩ := except_bind_eq_ok.1 h
  obtain ⟨_, -, h⟩ := except_bind_eq_ok.1 h
  obtain ⟨_, -, h⟩ := except_bind_eq_ok.1 h
  obtain ⟨_, -, h⟩ := except_bind_eq_ok.1 h
  obtain ⟨_, -, h⟩ := except_bind_eq_ok.1 h
  obtain ⟨events, hev, h⟩ := except_bind_eq_ok.1 h
  obtain ⟨_, -, h⟩ := except_bind_eq_ok.1 h
  obtain ⟨_, -, h⟩ := except_bind_eq_ok.1 h
  obtain ⟨_, -, h⟩ := except_bind_eq_ok.1 h
  obtain ⟨_, -, h⟩ := except_bind_eq_ok.1 h
  cases h
  rw [sortedByKey_eq] at hev
  obtain ⟨⟨eventName, ert⟩, he', hf⟩ := forall₂_getElem?_right (except_mapM_ok hev) he
  obtain ⟨_, -, hf⟩ := except_bind_eq_ok.1 hf
  obtain ⟨_, -, hf⟩ := except_bind_eq_ok.1 hf
  cases hf
  exact ⟨ert, he', rfl⟩

/-! ## What a parse reads at the ids -/

theorem Parser.parseHeader_names {da : Bool} {p : Parser} {r r' : StreamReader}
    {hdr : PacketHeader} (h : Runs (p.parseHeader da) r hdr r') :
    ∃ s, p.streams[hdr.streamId]? = some s ∧ hdr.streamName = s.streamName ∧
      hdr.clockName = p.streamClocks.lookup hdr.streamId ∧
      hdr.clockType = p.streamClockTypes.lookup hdr.streamId := by
  simp only [Parser.parseHeader, runs_bind] at h
  obtain ⟨_, _, -, _, _, -, _, _, -, _, _, -, _, _, -, h⟩ := h
  split at h
  · obtain ⟨rfl, rfl⟩ := runs_pure.1 h
    exact ⟨_, ‹_›, rfl, rfl, rfl⟩
  · exact absurd h runs_throw

/-- An event names the event parser at its id, and has its log level. -/
def Event.NamedIn (stream : StreamParser) (ev : Event) : Prop :=
  ∃ evp, stream.events[ev.id]? = some evp ∧ ev.name = evp.eventName ∧
    ev.logLevel = evp.logLevel.map LogLevel.ofI32

theorem Parser.parseEvent_names {stream : StreamParser} {r r' : StreamReader} {ev : Event}
    (h : Runs (Parser.parseEvent stream) r ev r') : ev.NamedIn stream := by
  simp only [Parser.parseEvent, Parser.parseEventBody, runs_bind] at h
  obtain ⟨_, _, -, _, _, -, _, _, -, _, _, -, h⟩ := h
  split at h
  · obtain ⟨_, _, -, h⟩ := runs_bind.1 h
    obtain ⟨_, _, -, h⟩ := runs_bind.1 h
    obtain ⟨rfl, rfl⟩ := runs_pure.1 h
    exact ⟨_, ‹_›, rfl, rfl⟩
  · exact absurd h runs_throw

theorem Parser.parseEventsLoop_names {da : Bool} {stream : StreamParser} {cs : Nat} :
    ∀ {n : Nat} {r r' : StreamReader} {evs : List Event},
      Runs (Parser.parseEventsLoop da stream cs n) r evs r' → ∀ ev ∈ evs, ev.NamedIn stream
  | 0, _, _, _, h => absurd h Parser.parseEventsLoop_zero
  | n + 1, _, _, _, h => by
    obtain ⟨e, _, he, -, ⟨-, rfl, -⟩ | ⟨-, evs', rfl, hn⟩⟩ := Parser.runs_parseEventsLoop_succ.1 h
    · simpa using Parser.parseEvent_names he
    · exact List.forall_mem_cons.2 ⟨Parser.parseEvent_names he, Parser.parseEventsLoop_names hn⟩

theorem Parser.parseEvents_names {da : Bool} {stream : StreamParser} {ctx : PacketContext}
    {r r' : StreamReader} {evs : List Event}
    (h : Runs (Parser.parseEvents da stream ctx) r evs r') :
    ∀ ev ∈ evs, ev.NamedIn stream := by
  obtain ⟨_, _, hl, -⟩ := Parser.runs_parseEvents.1 h
  exact Parser.parseEventsLoop_names hl

/-! ## The result -/

/-- **Ids are ranks of names.** For every configuration `Parser::new` accepts, a packet
`Parser::parse` reads has the stream id of the data stream type it names, which is the number of
the configuration's stream names below that name; its clock name and clock type are that type's
default clock and the clock type of that name. Every event of the packet names an event record
type of that stream, has as id the number of the stream's event names below its name, and has
that type's log level. -/
theorem Parser.parse_names {cfg : Config} {p : Parser} {da : Bool} {src rest : List UInt8}
    {pkt : Packet} (hp : Parser.new cfg = .ok p) (h : p.parse da src = .ok (pkt, rest)) :
    ∃ dst, cfg.trace.typ.dataStreamTypes.entries[pkt.header.streamId]? =
        some (pkt.header.streamName, dst) ∧
      pkt.header.streamId =
        (cfg.trace.typ.dataStreamTypes.entries.filter (·.1 < pkt.header.streamName)).length ∧
      pkt.header.clockName = dst.defaultClockTypeName ∧
      pkt.header.clockType = dst.defaultClockTypeName.bind cfg.trace.typ.clockTypes.get ∧
      ∀ ev ∈ pkt.events, ∃ ert, dst.eventRecordTypes.entries[ev.id]? = some (ev.name, ert) ∧
        ev.id = (dst.eventRecordTypes.entries.filter (·.1 < ev.name)).length ∧
        ev.logLevel = ert.logLevel.map LogLevel.ofI32 := by
  obtain ⟨r', hr, -⟩ := Parser.parse_eq_ok.1 h
  obtain ⟨_, _, stream, h1, hs, -, h3⟩ := Parser.runs_parsePacket.1 hr
  obtain ⟨s, hs', hname, hclock, htype⟩ := Parser.parseHeader_names h1
  obtain rfl : s = stream := Option.some.inj (hs'.symm.trans hs)
  obtain ⟨_, dst, he, hf, hc, ht⟩ := Parser.new_stream hp hs
  rw [← hname] at he
  refine ⟨dst, he, (rank_eq_of_getElem? cfg.trace.typ.dataStreamTypes.sorted he).symm,
    hclock.trans hc, htype.trans ht, fun ev hev => ?_⟩
  obtain ⟨evp, hevp, hn, hl⟩ := Parser.parseEvents_names h3 ev hev
  obtain ⟨ert, he', hlog⟩ := StreamParser.fromDataStreamType_event hf hevp
  rw [← hn] at he'
  exact ⟨ert, he', (rank_eq_of_getElem? dst.eventRecordTypes.sorted he').symm, hlog ▸ hl⟩

/-! ## Two streams -/

/-- A 1 GHz clock type counting from the Unix epoch. -/
def gHzClockType : ClockType := ⟨1000000000, none, true, 0, none, none, "uint64_t"⟩

/-- A data stream type of `u8` packet-context and event-header fields, with the default clock
`clock` and two event record types: `x`, of log level 3, and `y`, of none. -/
def twoEventStreamType (clock : Option String) : DataStreamType :=
  ⟨clock, ⟨⟨u8FieldType, u8FieldType, .false, .false, .false, .false⟩, ⟨u8FieldType, u8FieldType⟩⟩,
    ⟨[]⟩, none, ⟨[("x", ⟨some 3, none, none⟩), ("y", ⟨none, none, none⟩)],
      List.pairwise_pair.2 (String.lt_iff_toList_lt.2 (by decide))⟩⟩

/-- Two data stream types: `a`, without a default clock, and `b`, whose default clock is the
clock type `clk`. -/
def twoStreamConfig : Config :=
  ⟨⟨⟨.littleEndian, none, ⟨.false, false, u8FieldType⟩,
    ⟨[("clk", gHzClockType)], List.pairwise_singleton _ _⟩,
    ⟨[("a", twoEventStreamType none), ("b", twoEventStreamType (some "clk"))],
      List.pairwise_pair.2 (String.lt_iff_toList_lt.2 (by decide))⟩⟩⟩⟩

/-- The plan `Parser::new` builds from `twoStreamConfig`. The sort of the names, which compares
strings, is evaluated by `sortedByKey_eq`: it leaves the entries of a `BTreeMap` in place. -/
def twoStreamParser : { p : Parser // Parser.new twoStreamConfig = .ok p } :=
  ⟨_, by simp only [Parser.new, StreamParser.fromDataStreamType, sortedByKey_eq]; rfl⟩

/-- A packet of stream `b`, id 1: the events `x`, id 0, and `y`, id 1, in seven bytes. -/
def twoEventPacket : Packet :=
  ⟨⟨none, none, 1, "b", some "clk", some gHzClockType⟩, ⟨56, 56, none, none, none, none, []⟩,
    [⟨0, "x", 5, some .error, [], [], []⟩, ⟨1, "y", 6, none, [], [], []⟩]⟩

theorem twoStream_parse_twoEventPacket :
    twoStreamParser.1.parse true [1, 56, 56, 0, 5, 1, 6] = .ok (twoEventPacket, []) := by
  have h1 : Runs (twoStreamParser.1.parseHeader true)
      (StreamReader.new .littleEndian [1, 56, 56, 0, 5, 1, 6]) twoEventPacket.header
      ⟨.littleEndian, [56, 56, 0, 5, 1, 6], ⟨8⟩⟩ := rfl
  have hs : twoStreamParser.1.streams[1]? = some (twoStreamParser.1.streams[1]?.get (by decide)) :=
    rfl
  have h2 : Runs (Parser.parsePacketContext true (twoStreamParser.1.streams[1]?.get (by decide)))
      ⟨.littleEndian, [56, 56, 0, 5, 1, 6], ⟨8⟩⟩ twoEventPacket.context
      ⟨.littleEndian, [0, 5, 1, 6], ⟨24⟩⟩ := rfl
  -- the loop one event at a time: evaluated whole, it unfolds the plan at every step
  have he1 : Runs (Parser.parseEvent (twoStreamParser.1.streams[1]?.get (by decide)))
      ⟨.littleEndian, [0, 5, 1, 6], ⟨24⟩⟩ ⟨0, "x", 5, some .error, [], [], []⟩
      ⟨.littleEndian, [1, 6], ⟨40⟩⟩ := rfl
  have he2 : Runs (Parser.parseEvent (twoStreamParser.1.streams[1]?.get (by decide)))
      ⟨.littleEndian, [1, 6], ⟨40⟩⟩ ⟨1, "y", 6, none, [], [], []⟩ ⟨.littleEndian, [], ⟨56⟩⟩ := rfl
  have h3 : Runs (Parser.parseEvents true (twoStreamParser.1.streams[1]?.get (by decide))
      twoEventPacket.context) ⟨.littleEndian, [0, 5, 1, 6], ⟨24⟩⟩ twoEventPacket.events
      ⟨.littleEndian, [], ⟨56⟩⟩ :=
    Parser.runs_parseEvents.2 ⟨_, [], Parser.runs_parseEventsLoop_succ.2 ⟨_, _, he1,
      fun _ => by decide, .inr ⟨by decide, _, rfl, Parser.runs_parseEventsLoop_succ.2 ⟨_, _, he2,
        fun _ => le_rfl, .inl ⟨rfl, rfl, rfl⟩⟩⟩⟩, le_rfl, rfl, rfl, rfl⟩
  exact Parser.parse_eq_ok.2 ⟨_, Parser.runs_parsePacket.2 ⟨_, _, _, h1, hs, h2, h3⟩, rfl⟩

/-- The ids of `twoEventPacket` under the plan of `twoStreamConfig`: stream `b`, the second name,
with its default clock `clk`; events `x`, of log level 3, and `y`, the first and second names. -/
theorem twoStreams_names :
    Parser.new twoStreamConfig = .ok twoStreamParser.1 ∧
    twoStreamParser.1.parse true [1, 56, 56, 0, 5, 1, 6] = .ok (twoEventPacket, []) ∧
    ∃ dst, twoStreamConfig.trace.typ.dataStreamTypes.entries[twoEventPacket.header.streamId]? =
        some (twoEventPacket.header.streamName, dst) ∧
      twoEventPacket.header.streamId = (twoStreamConfig.trace.typ.dataStreamTypes.entries.filter
        (·.1 < twoEventPacket.header.streamName)).length ∧
      twoEventPacket.header.clockName = dst.defaultClockTypeName ∧
      twoEventPacket.header.clockType =
        dst.defaultClockTypeName.bind twoStreamConfig.trace.typ.clockTypes.get ∧
      ∀ ev ∈ twoEventPacket.events, ∃ ert,
        dst.eventRecordTypes.entries[ev.id]? = some (ev.name, ert) ∧
        ev.id = (dst.eventRecordTypes.entries.filter (·.1 < ev.name)).length ∧
        ev.logLevel = ert.logLevel.map LogLevel.ofI32 :=
  ⟨twoStreamParser.2, twoStream_parse_twoEventPacket,
    Parser.parse_names twoStreamParser.2 twoStream_parse_twoEventPacket⟩

end BarectfParser
