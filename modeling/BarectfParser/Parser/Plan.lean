import BarectfParser.Parser.Fields

/-!
# The parser plan

`Parser::new` (`src/parser/mod.rs`) compiles a `Config` into the parsers of the packet header,
of each stream's packet context and event header, and of each event's structures, with the
wire-size hints of `PacketHeaderParser::new` and `PacketContextParser::new`
(`src/parser/types.rs`). Every failure names the configuration path of the field it rejects.

The `FxHashMap`s keyed by stream and event id are filled by `enumerate()` over the sorted names,
so their keys are `0 .. n`: a map is the list of its values, in id order. The clock maps have
keys only for the streams with a default clock: they are association lists. The loops that
compile the members of a structure are one definition, `EventPayloadMemberParser.fromMembers`,
applied to each structure's path.

* `PacketContextParser.new_wireSizeHint_ge`: the context hint lies past the header's.
* `Parser.new_ok`, `Parser.new_pktHeader`: what a successful `Parser::new` is made of.
-/

namespace BarectfParser

/-! ## The packet header and packet context -/

structure PacketHeaderParser where
  magic : Option UIntParser
  uuid : Option UuidParser
  streamId : UIntParser
  alignment : Size
  wireSizeHint : AlignedCursor
deriving DecidableEq

/-- `if let Some(f) = field { wire_size_hint.aligned_increment(f.desc()) }`. -/
def AlignedCursor.alignedIncrementOpt (c : AlignedCursor) : Option UIntParser → AlignedCursor
  | some f => c.alignedIncrement f.desc
  | none => c

def PacketHeaderParser.new (magic : Option UIntParser) (uuid : Option UuidParser)
    (streamId : UIntParser) (alignment : Size) : PacketHeaderParser :=
  let wireSizeHint := ((default : AlignedCursor).alignTo alignment).2.alignedIncrementOpt magic
  -- the UUID is a 16 byte-packed static array
  let wireSizeHint :=
    if uuid.isSome then (((wireSizeHint.alignTo .bits8).2.increment .bits64).increment .bits64)
    else wireSizeHint
  ⟨magic, uuid, streamId, alignment, wireSizeHint.alignedIncrement streamId.desc⟩

structure PacketContextParserArgs where
  packetSize : UIntParser
  contentSize : UIntParser
  beginningTimestamp : Option UIntParser
  endTimestamp : Option UIntParser
  eventsDiscarded : Option UIntParser
  sequenceNumber : Option UIntParser
  extraMembers : List EventPayloadMemberParser
  alignment : Size
deriving DecidableEq

structure PacketContextParser where
  packetSize : UIntParser
  contentSize : UIntParser
  beginningTimestamp : Option UIntParser
  endTimestamp : Option UIntParser
  eventsDiscarded : Option UIntParser
  sequenceNumber : Option UIntParser
  extraMembers : List EventPayloadMemberParser
  alignment : Size
  wireSizeHint : AlignedCursor
deriving DecidableEq

/-- The hint counts each extra member as one aligned element of its descriptor. -/
def PacketContextParser.new (args : PacketContextParserArgs) (packetHeaderCursor : AlignedCursor) :
    PacketContextParser :=
  let wireSizeHint := (packetHeaderCursor.alignTo args.alignment).2
  let wireSizeHint := (wireSizeHint.alignedIncrement args.packetSize.desc).alignedIncrement
    args.contentSize.desc
  let wireSizeHint := (((wireSizeHint.alignedIncrementOpt args.beginningTimestamp).alignedIncrementOpt
    args.endTimestamp).alignedIncrementOpt args.eventsDiscarded).alignedIncrementOpt
    args.sequenceNumber
  let wireSizeHint := args.extraMembers.foldl (fun c m => c.alignedIncrement m.value.desc) wireSizeHint
  ⟨args.packetSize, args.contentSize, args.beginningTimestamp, args.endTimestamp,
    args.eventsDiscarded, args.sequenceNumber, args.extraMembers, args.alignment, wireSizeHint⟩

theorem AlignedCursor.le_alignedIncrementOpt (c : AlignedCursor) :
    ∀ o : Option UIntParser, c.bitIndex ≤ (c.alignedIncrementOpt o).bitIndex
  | none => le_rfl
  | some f => Nat.le_of_add_right_le (c.le_alignedIncrement f.desc)

theorem AlignedCursor.le_foldl_alignedIncrement :
    ∀ (ms : List EventPayloadMemberParser) (c : AlignedCursor),
      c.bitIndex ≤ (ms.foldl (fun c m => c.alignedIncrement m.value.desc) c).bitIndex
  | [], _ => le_rfl
  | m :: ms, c => Nat.le_trans (Nat.le_of_add_right_le (c.le_alignedIncrement m.value.desc))
      (AlignedCursor.le_foldl_alignedIncrement ms _)

/-- The context hint lies past the header's by at least the two size fields. -/
theorem PacketContextParser.new_wireSizeHint_ge (args : PacketContextParserArgs) (c : AlignedCursor) :
    c.bitIndex + 16 ≤ (PacketContextParser.new args c).wireSizeHint.bitIndex := by
  simp only [PacketContextParser.new]
  -- the extra members and the optional fields only move the cursor on
  refine Nat.le_trans ?_ (AlignedCursor.le_foldl_alignedIncrement _ _)
  refine Nat.le_trans ?_ (AlignedCursor.le_alignedIncrementOpt _ _)
  refine Nat.le_trans ?_ (AlignedCursor.le_alignedIncrementOpt _ _)
  refine Nat.le_trans ?_ (AlignedCursor.le_alignedIncrementOpt _ _)
  refine Nat.le_trans ?_ (AlignedCursor.le_alignedIncrementOpt _ _)
  have h1 := c.le_alignTo args.alignment
  have h2 := (c.alignTo args.alignment).2.le_alignedIncrement args.packetSize.desc
  have h3 := ((c.alignTo args.alignment).2.alignedIncrement args.packetSize.desc).le_alignedIncrement
    args.contentSize.desc
  omega

/-! ## Streams and events -/

structure EventHeaderParser where
  eventId : UIntParser
  timestamp : UIntParser
  alignment : Size
deriving DecidableEq

structure EventPayloadParser where
  alignment : Size
  members : List EventPayloadMemberParser
deriving DecidableEq

structure EventParser where
  eventName : String
  logLevel : Option Int
  specificContext : Option EventPayloadParser
  payload : Option EventPayloadParser
deriving DecidableEq

/-- `events` is the `FxHashMap<EventId, EventParser>`, in id order. -/
structure StreamParser where
  streamName : String
  packetContext : PacketContextParser
  eventHeader : EventHeaderParser
  commonContext : Option EventPayloadParser
  events : List EventParser
deriving DecidableEq

/-- `streams` is the `FxHashMap<StreamId, StreamParser>`, in id order. -/
structure Parser where
  byteOrder : NativeByteOrder
  traceUuid : Option Uuid
  pktHeader : PacketHeaderParser
  streams : List StreamParser
  streamClocks : List (Nat × String)
  streamClockTypes : List (Nat × ClockType)
deriving DecidableEq

/-! ## `Parser::new` -/

/-- `.map_err(|e| Error::unsupported_ft(path, e))`. -/
def withFieldPath {α : Type} (path : String) (x : Except FieldUnsupportedError α) : Except Error α :=
  x.mapError (Error.unsupportedFt path)

@[simp] theorem withFieldPath_eq_ok {α : Type} {path : String} {x : Except FieldUnsupportedError α}
    {a : α} : withFieldPath path x = .ok a ↔ x = .ok a := by
  cases x <;> simp [withFieldPath, Except.mapError]

/-- `Size::from_bits(bits).ok_or_else(|| Error::unsupported_alignment(path))`. -/
def Size.fromBitsOr (bits : Nat) (path : String) : Except Error Size :=
  match Size.fromBits bits with
  | some s => .ok s
  | none => .error (.unsupportedAlignment path)

/-- `.iter().sorted_by_key(|(name, _)| name.as_str())`: a stable sort by name. -/
def sortedByKey {α : Type} (entries : List (String × α)) : List (String × α) :=
  entries.insertionSort fun a b => a.1 ≤ b.1

/-- The member parsers of a structure's members, in order; an unsupported member type fails
with the path `{path}.{member}`. -/
def EventPayloadMemberParser.fromMembers (path : String)
    (members : List (BTreeMap StructureFieldTypeMember)) :
    Except Error (List EventPayloadMemberParser) :=
  (memberEntries members).mapM fun (memberName, member) => do
    let value ← withFieldPath (path ++ "." ++ memberName) (FieldTypeParser.fromFt member.fieldType)
    pure ⟨memberName, member.fieldType.preferredDisplayBase,
      EnumerationMappings.fromStructFt member.fieldType, value⟩

/-- The parser of a structure at `path`: its members, then its alignment. -/
def EventPayloadParser.fromStructFt (path : String) (ft : StructureFieldType) :
    Except Error EventPayloadParser := do
  let members ← EventPayloadMemberParser.fromMembers path ft.members
  let alignment ← Size.fromBitsOr ft.alignment path
  pure ⟨alignment, members⟩

/-- The loop body of `Parser::new` over the sorted event record types of a stream. -/
def EventParser.fromEventRecordType (streamName eventName : String) (event : EventRecordType) :
    Except Error EventParser := do
  let path := "stream." ++ streamName ++ ".event-record-types." ++ eventName
  let specificContext ← event.specificContextFieldType.mapM
    (EventPayloadParser.fromStructFt (path ++ ".specific-context-field-type"))
  let payload ← event.payloadFieldType.mapM
    (EventPayloadParser.fromStructFt (path ++ ".payload-field-type"))
  pure ⟨eventName, event.logLevel, specificContext, payload⟩

/-- The loop body of `Parser::new` over the sorted data stream types, in the order in which the
source evaluates the fields and their `?`. -/
def StreamParser.fromDataStreamType (packetHeaderCursor : AlignedCursor) (streamName : String)
    (stream : DataStreamType) : Except Error StreamParser := do
  let path := "stream." ++ streamName
  let packet := stream.features.packet
  let packetSize ← withFieldPath (path ++ ".$features.packet.total-size-field-type")
    (UIntParser.fromUintFt packet.totalSizeFieldType)
  let contentSize ← withFieldPath (path ++ ".$features.packet.content-size-field-type")
    (UIntParser.fromUintFt packet.contentSizeFieldType)
  let beginningTimestamp ← withFieldPath (path ++ ".$features.packet.beginning-timestamp-field-type")
    (UIntParser.fromOptUintFt packet.beginningTimestampFieldType)
  let endTimestamp ← withFieldPath (path ++ ".$features.packet.end-timestamp-field-type")
    (UIntParser.fromOptUintFt packet.endTimestampFieldType)
  let eventsDiscarded ← withFieldPath
    (path ++ ".$features.packet.discarded-event-records-counter-snapshot-field-type")
    (UIntParser.fromOptUintFt packet.discardedEventRecordsCounterSnapshotFieldType)
  let sequenceNumber ← withFieldPath (path ++ ".$features.packet.sequence-number-field-type")
    (UIntParser.fromOptUintFt packet.sequenceNumberFieldType)
  let pcExtraMemberAlignment := stream.packetContextFieldTypeExtraMembers.alignment
  let pcExtraMembers ← EventPayloadMemberParser.fromMembers
    (path ++ ".packet-context-field-type-extra-members")
    stream.packetContextFieldTypeExtraMembers.members
  let commonContext ← stream.eventRecordCommonContextFieldType.mapM
    (EventPayloadParser.fromStructFt (path ++ ".event-record-common-context-field-type"))
  let events ← (sortedByKey stream.eventRecordTypes.entries).mapM fun (eventName, event) =>
    EventParser.fromEventRecordType streamName eventName event
  let alignment ← Size.fromBitsOr (max packet.alignment pcExtraMemberAlignment)
    (path ++ ".$features.packet")
  let eventId ← withFieldPath (path ++ ".$features.event-record.type-id-field-type")
    (UIntParser.fromUintFt stream.features.eventRecord.typeIdFieldType)
  let timestamp ← withFieldPath (path ++ ".$features.event-record.timestamp-field-type")
    (UIntParser.fromUintFt stream.features.eventRecord.timestampFieldType)
  let eventHeaderAlignment ← Size.fromBitsOr stream.features.eventRecord.alignment
    (path ++ ".$features.event-record")
  pure ⟨streamName,
    PacketContextParser.new ⟨packetSize, contentSize, beginningTimestamp, endTimestamp,
      eventsDiscarded, sequenceNumber, pcExtraMembers, alignment⟩ packetHeaderCursor,
    ⟨eventId, timestamp, eventHeaderAlignment⟩, commonContext, events⟩

/-- `stream_clocks`: the default clock's name of each stream that has one. -/
def Parser.streamClocksOf (sorted : List (String × DataStreamType)) : List (Nat × String) :=
  sorted.enum.filterMap fun (streamId, _, stream) => stream.defaultClockTypeName.map (streamId, ·)

/-- `stream_clock_types`: the default clock's type, when the clock type store defines it. -/
def Parser.streamClockTypesOf (clockTypes : BTreeMap ClockType)
    (sorted : List (String × DataStreamType)) : List (Nat × ClockType) :=
  sorted.enum.filterMap fun (streamId, _, stream) =>
    (stream.defaultClockTypeName.bind clockTypes.get).map (streamId, ·)

/-- The basic semantic check of `Parser::new`: a magic number field is 32 bits wide. -/
def checkMagicFieldType (magicFieldType : FeaturesUnsignedIntegerFieldType) : Except Error Unit :=
  match magicFieldType.asFt with
  | some magicFt =>
    if magicFt.fieldType.size ≠ 32 then
      throw (.unsupportedFieldType "magic-field-type" magicFt.fieldType.size
        magicFt.fieldType.alignment)
    else pure ()
  | none => pure ()

def Parser.new (cfg : Config) : Except Error Parser := do
  let features := cfg.trace.typ.features
  checkMagicFieldType features.magicFieldType
  let magic ← withFieldPath "magic-field-type" (UIntParser.fromOptUintFt features.magicFieldType)
  let uuid := UuidParser.fromBoolFt features.uuidFieldType
  let streamId ← withFieldPath "data-stream-type-id-field-type"
    (UIntParser.fromUintFt features.dataStreamTypeIdFieldType)
  let pktHeader := PacketHeaderParser.new magic uuid streamId
    (← Size.fromBitsOr features.alignment "trace.type.$features")
  -- stream ids follow the alphabetical order of the stream names
  let sorted := sortedByKey cfg.trace.typ.dataStreamTypes.entries
  let streams ← sorted.mapM fun (streamName, stream) =>
    StreamParser.fromDataStreamType pktHeader.wireSizeHint streamName stream
  pure ⟨cfg.trace.typ.nativeByteOrder, cfg.trace.typ.uuid, pktHeader, streams,
    Parser.streamClocksOf sorted, Parser.streamClockTypesOf cfg.trace.typ.clockTypes sorted⟩

/-! ## What a successful `Parser::new` is made of -/

theorem except_mapM_ok {α β ε : Type} {f : α → Except ε β} :
    ∀ {l : List α} {l' : List β}, l.mapM f = .ok l' → List.Forall₂ (fun a b => f a = .ok b) l l'
  | [], l', h => by
    simp only [List.mapM_nil] at h
    cases h
    exact .nil
  | a :: l, l', h => by
    rw [List.mapM_cons] at h
    obtain ⟨b, ha, h⟩ := except_bind_eq_ok.1 h
    obtain ⟨bs, hl, h⟩ := except_bind_eq_ok.1 h
    cases h
    exact .cons ha (except_mapM_ok hl)

/-- The element of the left list at an index of the right one. -/
theorem forall₂_getElem?_right {α β : Type} {R : α → β → Prop} :
    ∀ {l₁ : List α} {l₂ : List β} {i : Nat} {b : β}, List.Forall₂ R l₁ l₂ → l₂[i]? = some b →
      ∃ a, l₁[i]? = some a ∧ R a b
  | _, _, _, _, .nil, h => by simp at h
  | a :: _, _, 0, _, .cons hr _, h => by
    simp only [List.getElem?_cons_zero, Option.some.injEq] at h
    subst h
    exact ⟨a, List.getElem?_cons_zero, hr⟩
  | _, _, i + 1, _, .cons _ ht, h => by
    simpa using forall₂_getElem?_right ht (by simpa using h)

theorem Parser.new_ok {cfg : Config} {p : Parser} (h : Parser.new cfg = .ok p) :
    let features := cfg.trace.typ.features
    let sorted := sortedByKey cfg.trace.typ.dataStreamTypes.entries
    ∃ magic streamId alignment streams,
      checkMagicFieldType features.magicFieldType = .ok () ∧
      withFieldPath "magic-field-type" (UIntParser.fromOptUintFt features.magicFieldType) =
        .ok magic ∧
      withFieldPath "data-stream-type-id-field-type"
        (UIntParser.fromUintFt features.dataStreamTypeIdFieldType) = .ok streamId ∧
      Size.fromBitsOr features.alignment "trace.type.$features" = .ok alignment ∧
      List.Forall₂ (fun (e : String × DataStreamType) s => StreamParser.fromDataStreamType
        (PacketHeaderParser.new magic (UuidParser.fromBoolFt features.uuidFieldType) streamId
          alignment).wireSizeHint e.1 e.2 = .ok s) sorted streams ∧
      p = ⟨cfg.trace.typ.nativeByteOrder, cfg.trace.typ.uuid,
        PacketHeaderParser.new magic (UuidParser.fromBoolFt features.uuidFieldType) streamId
          alignment, streams, Parser.streamClocksOf sorted,
        Parser.streamClockTypesOf cfg.trace.typ.clockTypes sorted⟩ := by
  obtain ⟨⟨⟩, hc, h⟩ := except_bind_eq_ok.1 h
  obtain ⟨magic, hm, h⟩ := except_bind_eq_ok.1 h
  obtain ⟨streamId, hs, h⟩ := except_bind_eq_ok.1 h
  obtain ⟨alignment, ha, h⟩ := except_bind_eq_ok.1 h
  obtain ⟨streams, hst, h⟩ := except_bind_eq_ok.1 h
  cases h
  exact ⟨magic, streamId, alignment, streams, hc, hm, hs, ha, except_mapM_ok hst, rfl⟩

/-- The packet header parser of a successful `Parser::new` is `PacketHeaderParser::new`'s, whose
hint lies past the stream id, a byte at least. -/
theorem Parser.new_pktHeader {cfg : Config} {p : Parser} (h : Parser.new cfg = .ok p) :
    ∃ magic uuid streamId alignment,
      p.pktHeader = PacketHeaderParser.new magic uuid streamId alignment ∧
      8 ≤ p.pktHeader.wireSizeHint.bitIndex := by
  obtain ⟨magic, streamId, alignment, streams, -, -, -, -, -, rfl⟩ := Parser.new_ok h
  exact ⟨_, _, _, _, rfl, Nat.le_trans (Nat.le_add_left 8 _) (AlignedCursor.le_alignedIncrement _ _)⟩

/-- A stream's packet context parser is `PacketContextParser::new` from the header's hint, with
the extra members compiled from the configuration's. -/
theorem StreamParser.fromDataStreamType_ok {hint : AlignedCursor} {name : String}
    {stream : DataStreamType} {s : StreamParser}
    (h : StreamParser.fromDataStreamType hint name stream = .ok s) :
    s.streamName = name ∧ ∃ args, s.packetContext = PacketContextParser.new args hint ∧
      EventPayloadMemberParser.fromMembers
        ("stream." ++ name ++ ".packet-context-field-type-extra-members")
        stream.packetContextFieldTypeExtraMembers.members = .ok args.extraMembers := by
  obtain ⟨packetSize, -, h⟩ := except_bind_eq_ok.1 h
  obtain ⟨contentSize, -, h⟩ := except_bind_eq_ok.1 h
  obtain ⟨beginningTimestamp, -, h⟩ := except_bind_eq_ok.1 h
  obtain ⟨endTimestamp, -, h⟩ := except_bind_eq_ok.1 h
  obtain ⟨eventsDiscarded, -, h⟩ := except_bind_eq_ok.1 h
  obtain ⟨sequenceNumber, -, h⟩ := except_bind_eq_ok.1 h
  obtain ⟨pcExtraMembers, hx, h⟩ := except_bind_eq_ok.1 h
  obtain ⟨commonContext, -, h⟩ := except_bind_eq_ok.1 h
  obtain ⟨events, -, h⟩ := except_bind_eq_ok.1 h
  obtain ⟨alignment, -, h⟩ := except_bind_eq_ok.1 h
  obtain ⟨eventId, -, h⟩ := except_bind_eq_ok.1 h
  obtain ⟨timestamp, -, h⟩ := except_bind_eq_ok.1 h
  obtain ⟨eventHeaderAlignment, -, h⟩ := except_bind_eq_ok.1 h
  cases h
  exact ⟨rfl, ⟨packetSize, contentSize, beginningTimestamp, endTimestamp, eventsDiscarded,
    sequenceNumber, pcExtraMembers, alignment⟩, rfl, hx⟩

/-- Each member parser is compiled from its member's field type. -/
theorem EventPayloadMemberParser.fromMembers_ok {path : String}
    {members : List (BTreeMap StructureFieldTypeMember)} {ps : List EventPayloadMemberParser}
    (h : EventPayloadMemberParser.fromMembers path members = .ok ps) :
    List.Forall₂ (fun (e : String × StructureFieldTypeMember) m =>
      FieldTypeParser.fromFt e.2.fieldType = .ok m.value) (memberEntries members) ps := by
  refine (except_mapM_ok h).imp fun e m he => ?_
  obtain ⟨value, hv, he⟩ := except_bind_eq_ok.1 he
  cases he
  exact withFieldPath_eq_ok.1 hv

end BarectfParser
