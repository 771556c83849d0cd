import BarectfParser.Parser.Encode
import BarectfParser.Parser.Values
import BarectfParser.Parser.Decoder

/-!
# The wire format round trip

`Parser::parse` reads back every packet that conforms to the plan and has an event, from its
reference encoding followed by any bytes, and leaves those bytes (`Parser.parse_encode`). A packet
without events does not: `parse_events` reads an event before it tests the cursor.

`Decodes m bo w a`: from every byte boundary, `m` reads `a` back from the bytes `w` writes,
whatever follows them, and ends where `w` ends, eight bits on per byte. It holds of each reader
call with its writer (`Decodes.alignTo`, `Decodes.readWord`, `Decodes.readString`) and is kept by
`>>=` and `<$>` (`Decodes.bind`, `Decodes.map`), arrays and member lists, so the proof follows
the parser: fields, members, structures, the header, the context, an event. The event loop and
the packet are then followed cursor by cursor, since the loop's exit test reads the cursor.
-/

namespace BarectfParser

/-! ## Words -/

theorem leValue_leBytes : ∀ n v, leValue (leBytes n v) = v % 2 ^ (8 * n)
  | 0, v => by simp [leBytes, leValue, Nat.mod_one]
  | n + 1, v => by
    have h : 2 ^ (8 * (n + 1)) = 256 * 2 ^ (8 * n) := by rw [Nat.mul_succ, Nat.pow_add]; ring
    rw [leBytes, leValue, leValue_leBytes n, UInt8.toNat_ofNat_of_lt (Nat.mod_lt _ (by decide)), h,
      Nat.mod_mul]

theorem leBytes_length : ∀ n v, (leBytes n v).length = n
  | 0, _ => rfl
  | n + 1, v => by rw [leBytes, List.length_cons, leBytes_length n]

@[simp] theorem NativeByteOrder.encode_length (bo : NativeByteOrder) (n v : Nat) :
    (bo.encode n v).length = n := by
  cases bo <;> simp [NativeByteOrder.encode, leBytes_length]

/-- A word that fits its bytes reads back in either byte order. -/
theorem NativeByteOrder.decode_encode (bo : NativeByteOrder) {n v : Nat} (h : v < 2 ^ (8 * n)) :
    bo.decode (bo.encode n v) = v := by
  cases bo <;> simp [NativeByteOrder.decode, NativeByteOrder.encode, leValue_leBytes,
    Nat.mod_eq_of_lt h]

theorem UInt8.ofNat_toNat_eq (b : UInt8) : UInt8.ofNat b.toNat = b :=
  UInt8.eq_of_toBitVec_eq (BitVec.eq_of_toNat_eq (UInt8.toBitVec_eq_of_lt b.toNat_lt))

/-- A signed value in the range of `bits` bits is written as a word of `bits` bits that reads back
as it. -/
theorem toSigned_emod {bits : Nat} {i : Int} (hb : 0 < bits) (hlo : -2 ^ (bits - 1) ≤ i)
    (hhi : i < 2 ^ (bits - 1)) :
    (i % 2 ^ bits).toNat < 2 ^ bits ∧ toSigned bits (i % 2 ^ bits).toNat = i := by
  obtain ⟨k, rfl⟩ : ∃ k, bits = k + 1 := ⟨bits - 1, by omega⟩
  simp only [Nat.add_sub_cancel] at hlo hhi
  have hB : (2 : Int) ^ (k + 1) = 2 * 2 ^ k := by rw [pow_succ']
  have hpos : (0 : Int) < 2 ^ k := by positivity
  -- the word is `i`, or `i + 2 ^ (k + 1)` for a negative `i`
  obtain ⟨w, hw, hwi⟩ : ∃ w : Int, i % 2 ^ (k + 1) = w ∧
      (0 ≤ i ∧ w = i ∨ i < 0 ∧ w = i + 2 ^ (k + 1)) := by
    by_cases h0 : 0 ≤ i
    · exact ⟨i, Int.emod_eq_of_lt h0 (by omega), .inl ⟨h0, rfl⟩⟩
    · refine ⟨i + 2 ^ (k + 1), ?_, .inr ⟨by omega, rfl⟩⟩
      rw [← Int.add_emod_self, Int.emod_eq_of_lt (by omega) (by omega)]
  rw [hw]
  have hc : ((w.toNat : Nat) : Int) = w := Int.toNat_of_nonneg (by omega)
  unfold toSigned
  simp only [Nat.add_sub_cancel]
  constructor
  · zify; rw [hc]; omega
  · split
    · rename_i h; zify at h; rw [hc] at h ⊢; omega
    · rename_i h; zify at h; rw [hc] at h ⊢; omega

/-- An unsigned enumeration's value, the `i64` of its word, is written as that word. -/
theorem toSigned_64_emod {bits n : Nat} (hb : bits ≤ 64) (hn : n < 2 ^ bits) :
    (toSigned 64 n % 2 ^ bits).toNat = n := by
  unfold toSigned
  split
  · rw [Int.emod_eq_of_lt (by omega) (by exact_mod_cast hn)]
    rfl
  · rename_i h
    have h64 : bits = 64 := by
      by_contra hne
      have : 2 ^ bits ≤ 2 ^ 63 := Nat.pow_le_pow_right (by decide) (by omega)
      omega
    subst h64
    rw [show ((n : Int) - 2 ^ 64) = n + (-1) * 2 ^ 64 by ring, Int.add_mul_emod_self,
      Int.emod_eq_of_lt (by omega) (by exact_mod_cast hn)]
    rfl

/-! ## Reading back what a writer writes -/

/-- From every byte boundary, `m` reads `a` back from the bytes `w` writes, whatever follows
them, and ends where `w` ends, eight bits on per byte. -/
def Decodes {α : Type} (m : ReadM α) (bo : NativeByteOrder) (w : Writer) (a : α) : Prop :=
  ∀ c : AlignedCursor, c.bitIndex % 8 = 0 →
    (w c).2.bitIndex = c.bitIndex + 8 * (w c).1.length ∧
      ∀ rest, Runs m ⟨bo, (w c).1 ++ rest, c⟩ a ⟨bo, rest, (w c).2⟩

namespace Decodes

variable {α β : Type} {bo : NativeByteOrder} {m : ReadM α} {w w₁ w₂ : Writer} {a : α}

theorem pure (a : α) : Decodes (Pure.pure a : ReadM α) bo Writer.empty a := fun c _ =>
  ⟨by simp, fun _ => runs_pure.2 ⟨rfl, rfl⟩⟩

theorem bind {f : α → ReadM β} {b : β} (h₁ : Decodes m bo w₁ a) (h₂ : Decodes (f a) bo w₂ b) :
    Decodes (m >>= f) bo (w₁ ++ w₂) b := by
  intro c h8
  obtain ⟨hc₁, hr₁⟩ := h₁ c h8
  obtain ⟨hc₂, hr₂⟩ := h₂ (w₁ c).2 (by omega)
  refine ⟨by simp only [Writer.append_apply, List.length_append]; omega,
    fun rest => runs_bind.2 ⟨a, _, ?_, hr₂ rest⟩⟩
  simpa only [Writer.append_apply, List.append_assoc] using hr₁ ((w₂ (w₁ c).2).1 ++ rest)

theorem map (f : α → β) (h : Decodes m bo w a) : Decodes (f <$> m) bo w (f a) := fun c h8 =>
  ⟨(h c h8).1, fun rest => runs_map.2 ⟨a, (h c h8).2 rest, rfl⟩⟩

/-- Two writers that write the same from every byte boundary. -/
theorem congr {w' : Writer} (h : Decodes m bo w a) (hw : ∀ c, c.bitIndex % 8 = 0 → w c = w' c) :
    Decodes m bo w' a := fun c h8 => hw c h8 ▸ h c h8

theorem of_eq {a' : α} (h : Decodes m bo w a) (e : a = a') : Decodes m bo w a' := e ▸ h

theorem alignTo (align : Size) :
    Decodes (StreamReader.alignTo align) bo (writePadding align) () := fun c h8 =>
  ⟨by simp only [writePadding, List.length_replicate]; exact Reads.padding_eq align h8,
    fun rest => runs_alignTo.2 ⟨_, rest, List.length_replicate _ _, rfl, rfl⟩⟩

theorem readWord (size align : Size) {v : Nat} (hv : v < 2 ^ size.bits) :
    Decodes (StreamReader.readWord size align) bo (writeWord bo size align v) v := by
  intro c h8
  have hp := Reads.padding_eq align h8
  have hs := size.bits_pos
  have hn : size.bits = 8 * (size.bits / 8) := by omega
  simp only [writeWord, Writer.append_apply, writePadding, writeBytes, List.length_append,
    List.length_replicate, NativeByteOrder.encode_length]
  refine ⟨by omega, fun rest => runs_readWord.2 ⟨List.replicate _ 0, bo.encode (size.bits / 8) v,
    rest, List.length_replicate _ _, bo.encode_length _ _, rfl, (bo.decode_encode (by rwa [← hn])).symm,
    ?_⟩⟩
  congr 2
  show _ = _ + size.bits
  omega

theorem readString {s : List UInt8} (h0 : 0 ∉ s) (hw : Utf8WellFormed s) :
    Decodes StreamReader.readString bo (writeString s) s := by
  intro c h8
  have hp := Reads.padding_eq .bits8 h8
  simp only [writeString, Writer.append_apply, writePadding, writeBytes, List.length_append,
    List.length_replicate, List.length_singleton]
  exact ⟨by omega, fun rest => runs_readString.2 ⟨List.replicate _ 0, s, rest,
    List.length_replicate _ _, h0, by simp, (fromUtf8Lossy_of_wellFormed hw).symm, rfl⟩⟩

/-- A byte read on a byte boundary is the byte as it is. -/
theorem readU8 (b : UInt8) :
    Decodes (StreamReader.readU8 .bits8) bo (writeBytes [b]) b.toNat := by
  refine (Decodes.readWord .bits8 .bits8 b.toNat_lt).congr fun c h8 => ?_
  have hb : UInt8.ofNat (b.toNat % 256) = b := by
    rw [Nat.mod_eq_of_lt b.toNat_lt, UInt8.ofNat_toNat_eq]
  cases bo <;> simp [writeWord, writePadding, writeBytes, alignTo_bits8 h8, Size.bits,
    NativeByteOrder.encode, leBytes, hb]

theorem readU8Array : ∀ (bs : List UInt8) {n : Nat} (h : bs.length = n),
    Decodes (BarectfParser.readU8Array n) bo (writeBytes bs) ⟨bs, h⟩
  | [], _, rfl => fun c _ => ⟨by simp [writeBytes], fun _ => runs_pure.2 ⟨rfl, by simp [writeBytes]⟩⟩
  | b :: bs, _, rfl => by
    have e : writeBytes [b] ++ (writeBytes bs ++ Writer.empty) = writeBytes (b :: bs) := by
      funext c
      simp only [Writer.append_apply, Writer.empty_apply, writeBytes, List.singleton_append,
        List.append_nil, List.length_cons, List.length_singleton, List.length_nil, Prod.mk.injEq,
        AlignedCursor.mk.injEq, true_and]
      omega
    rw [← e]
    show Decodes (BarectfParser.readU8Array (bs.length + 1)) bo _ _
    rw [BarectfParser.readU8Array]
    refine (readU8 b).bind ((readU8Array bs rfl).bind ?_)
    convert Decodes.pure _ using 1
    exact Subtype.ext (by simp [UInt8.ofNat_toNat_eq])

end Decodes

/-! ## Fields -/

section
variable {bo : NativeByteOrder}

theorem UIntParser.decodes (p : UIntParser) {v : Nat} (hv : v < 2 ^ p.desc.size.bits) :
    Decodes p.parse bo (p.write bo v) v := by
  rw [p.parse_eq]
  exact Decodes.readWord _ _ hv

theorem UIntParser.decodes_opt :
    ∀ {o : Option UIntParser} {v : Option Nat}, UIntParser.TypedOpt o v →
      Decodes (o.mapM UIntParser.parse) bo (UIntParser.writeOpt bo o v) v
  | some p, some _, h => (p.decodes h).map some
  | none, none, _ => Decodes.pure none

theorem UuidParser.decodes (p : UuidParser) (u : Uuid) :
    Decodes p.parse bo (writePadding .bits8 ++ writeBytes u.bytes) u := by
  rw [← Writer.append_empty (writeBytes u.bytes)]
  exact (Decodes.alignTo .bits8).bind ((Decodes.readU8Array u.bytes u.size_eq).bind
    (Decodes.pure _))

theorem UuidParser.decodes_opt :
    ∀ {o : Option UuidParser} {u : Option Uuid}, o.isSome = u.isSome →
      Decodes (o.mapM UuidParser.parse) bo (UuidParser.writeOpt o u) u
  | some p, some u, _ => (p.decodes u).map some
  | none, none, _ => Decodes.pure none

theorem PrimitiveFieldTypeParser.parse_uEnum (desc : FieldDesc) :
    (PrimitiveFieldTypeParser.uEnum desc).parse = (PrimitiveFieldTypeParser.uInt desc).parse := rfl

theorem PrimitiveFieldTypeParser.parse_enum (desc : FieldDesc) :
    (PrimitiveFieldTypeParser.enum desc).parse = (PrimitiveFieldTypeParser.int desc).parse := rfl

/-- A signed value of the field's range reads back. -/
theorem PrimitiveFieldTypeParser.decodes_int (desc : FieldDesc) {i : Int}
    (hlo : -2 ^ (desc.size.bits - 1) ≤ i) (hhi : i < 2 ^ (desc.size.bits - 1)) :
    Decodes (PrimitiveFieldTypeParser.int desc).parse bo
      (writeWord bo desc.size desc.alignment (i % 2 ^ desc.size.bits).toNat)
      (.signedInteger i .decimal) := by
  obtain ⟨hlt, hi⟩ := toSigned_emod (by have := desc.size.bits_pos; omega) hlo hhi
  have h := (Decodes.readWord desc.size desc.alignment hlt : Decodes _ bo _ _).map
    fun w => PrimitiveFieldValue.ofSigned (toSigned desc.size.bits w)
  rw [hi] at h
  rw [PrimitiveFieldTypeParser.parse_int]
  exact h

/-- **Primitive values.** A value the primitive parser reads is read back from what its writer
writes. -/
theorem PrimitiveFieldTypeParser.decodes {p : PrimitiveFieldTypeParser} {x : PrimitiveFieldValue}
    (h : p.Typed x) : Decodes p.parse bo (p.write bo x) x := by
  cases p with
  | uInt d =>
    obtain ⟨n, hn, rfl⟩ := h
    rw [PrimitiveFieldTypeParser.parse_uInt]
    exact (Decodes.readWord _ _ hn).map _
  | uEnum d =>
    obtain ⟨n, hn, rfl⟩ := h
    rw [PrimitiveFieldTypeParser.parse_uEnum, PrimitiveFieldTypeParser.parse_uInt]
    exact (Decodes.readWord _ _ hn).map _
  | int d =>
    obtain ⟨i, hlo, hhi, rfl⟩ := h
    exact PrimitiveFieldTypeParser.decodes_int d hlo hhi
  | enum d =>
    obtain ⟨i, hlo, hhi, rfl⟩ := h
    rw [PrimitiveFieldTypeParser.parse_enum]
    exact PrimitiveFieldTypeParser.decodes_int d hlo hhi
  | string d =>
    obtain ⟨s, h0, hw, rfl⟩ := h
    exact (Decodes.readString h0 hw).map _
  | real d =>
    obtain ⟨size, align⟩ := d
    obtain ⟨n, hn, ⟨rfl, rfl⟩ | ⟨rfl, rfl⟩⟩ := h
    · exact (Decodes.readWord _ _ hn).map _
    · exact (Decodes.readWord _ _ hn).map _

/-- The elements of an array, each read back by the element parser. -/
theorem Decodes.readArray {α : Type} {m : ReadM α} {w : α → Writer} :
    ∀ {as : List α}, (∀ a ∈ as, Decodes m bo (w a) a) →
      Decodes (BarectfParser.readArray m as.length) bo (Writer.concat (as.map w)) as
  | [], _ => Decodes.pure []
  | a :: as, h => by
    show Decodes (BarectfParser.readArray m (as.length + 1)) bo
      (w a ++ Writer.concat (as.map w)) (a :: as)
    rw [BarectfParser.readArray, ← Writer.append_empty (Writer.concat (as.map w))]
    exact (h a (List.mem_cons_self _ _)).bind ((Decodes.readArray fun a' ha' =>
      h a' (List.mem_cons_of_mem _ ha')).bind (Decodes.pure _))

/-- **Member values.** A value of the field parser's type, and so an array of its element
type, is read back from what its writer writes. -/
theorem FieldTypeParser.decodes {f : FieldTypeParser} {x : FieldValue} (h : f.Typed x) :
    Decodes f.parse bo (f.write bo x) x := by
  cases f with
  | primitive p =>
    obtain ⟨px, hp, rfl⟩ := h
    exact (PrimitiveFieldTypeParser.decodes hp).map _
  | staticArray len p =>
    obtain ⟨xs, rfl, rfl, hxs⟩ := h
    rw [FieldTypeParser.parse, FieldTypeParser.write, ← Writer.append_empty (Writer.concat _)]
    exact (Decodes.alignTo _).bind ((Decodes.readArray fun x hx =>
      PrimitiveFieldTypeParser.decodes (hxs x hx)).bind (Decodes.pure _))
  | dynamicArray p =>
    obtain ⟨xs, rfl, hlen, hxs⟩ := h
    rw [FieldTypeParser.parse, FieldTypeParser.write, ← Writer.append_empty (Writer.concat _),
      Writer.append_assoc]
    exact (Decodes.readWord .bits32 .bits8 hlen).bind ((Decodes.alignTo _).bind
      ((Decodes.readArray fun x hx => PrimitiveFieldTypeParser.decodes (hxs x hx)).bind
        (Decodes.pure _)))

/-! ## Members and structures -/

theorem EventPayloadMemberParser.parse_eq (m : EventPayloadMemberParser) :
    m.parse = m.present <$> m.value.parse := by
  rw [← bind_pure_comp]
  rcases m with ⟨name, pdb, maps, value⟩
  cases maps <;> rfl

/-- The member's display base and label change a value, not the word it is written as. -/
theorem FieldTypeParser.write_present {m : EventPayloadMemberParser} {x : FieldValue}
    (h : m.value.Typed x) : m.value.write bo (m.present x) = m.value.write bo x := by
  rcases m with ⟨name, pdb, maps, f⟩
  cases f with
  | primitive p =>
    obtain ⟨px, hp, rfl⟩ := h
    cases p with
    | uInt d =>
      obtain ⟨n, hn, rfl⟩ := hp
      cases maps
      · rfl
      · simp only [EventPayloadMemberParser.present, EventPayloadMemberParser.withDisplayBase,
          EnumerationMappings.labelValue, FieldTypeParser.write, PrimitiveFieldTypeParser.write,
          PrimitiveFieldTypeParser.desc, PrimitiveFieldValue.word,
          toSigned_64_emod d.size.bits_pos.2.1 hn]
    | uEnum d =>
      obtain ⟨n, hn, rfl⟩ := hp
      cases maps
      · rfl
      · simp only [EventPayloadMemberParser.present, EventPayloadMemberParser.withDisplayBase,
          EnumerationMappings.labelValue, FieldTypeParser.write, PrimitiveFieldTypeParser.write,
          PrimitiveFieldTypeParser.desc, PrimitiveFieldValue.word,
          toSigned_64_emod d.size.bits_pos.2.1 hn]
    | int d | enum d =>
      obtain ⟨i, -, -, rfl⟩ := hp
      cases maps <;> rfl
    | string d =>
      obtain ⟨s, -, -, rfl⟩ := hp
      cases maps <;> rfl
    | real d =>
      obtain ⟨n, -, ⟨-, rfl⟩ | ⟨-, rfl⟩⟩ := hp <;> cases maps <;> rfl
  | staticArray len p =>
    obtain ⟨xs, rfl, -⟩ := h
    cases maps <;> rfl
  | dynamicArray p =>
    obtain ⟨xs, rfl, -⟩ := h
    cases maps <;> rfl

theorem EventPayloadMemberParser.decodes {m : EventPayloadMemberParser} {v : FieldValue}
    (h : m.Typed v) : Decodes m.parse bo (m.value.write bo v) v := by
  obtain ⟨x, hx, rfl⟩ := h
  rw [m.parse_eq, FieldTypeParser.write_present hx]
  exact (FieldTypeParser.decodes hx).map _

theorem EventPayloadMemberParser.decodes_members :
    ∀ {ms : List EventPayloadMemberParser} {vs : List (String × FieldValue)},
      EventPayloadMemberParser.MembersTyped ms vs →
        Decodes (EventPayloadMemberParser.parseMembers ms) bo
          (EventPayloadMemberParser.writeMembers bo ms vs) vs
  | [], [], .nil => Decodes.pure []
  | m :: ms, (name, v) :: vs, .cons ⟨hname, hv⟩ hrest => by
    obtain rfl : name = m.memberName := hname
    rw [EventPayloadMemberParser.parseMembers, List.mapM_cons,
      EventPayloadMemberParser.writeMembers, ← Writer.append_empty (m.value.write bo v),
      ← Writer.append_empty (EventPayloadMemberParser.writeMembers bo ms vs)]
    have h₁ : Decodes (m.parse >>= fun val => pure (m.memberName, val)) bo
        (m.value.write bo v ++ Writer.empty) (m.memberName, v) :=
      (EventPayloadMemberParser.decodes hv).bind (Decodes.pure _)
    exact h₁.bind ((EventPayloadMemberParser.decodes_members hrest).bind (Decodes.pure _))

theorem EventPayloadParser.decodes_opt :
    ∀ {o : Option EventPayloadParser} {vs : List (String × FieldValue)},
      EventPayloadParser.TypedOpt o vs →
        Decodes (EventPayloadParser.parseOpt o) bo (EventPayloadParser.writeOpt bo o vs) vs
  | some p, _, h => (Decodes.alignTo p.alignment).bind (EventPayloadMemberParser.decodes_members h)
  | none, _, rfl => Decodes.pure []

end

/-! ## The header, the context, an event -/

section
variable {p : Parser} {stream : StreamParser} {pkt : Packet}

theorem Parser.Conforms.header_eq (hc : p.Conforms stream pkt) :
    (⟨pkt.header.magicNumber.map (· % 2 ^ 32), pkt.header.traceUuid, pkt.header.streamId,
      stream.streamName, p.streamClocks.lookup pkt.header.streamId,
      p.streamClockTypes.lookup pkt.header.streamId⟩ : PacketHeader) = pkt.header := by
  rcases pkt with ⟨⟨magic, uuid, sid, name, clock, ctype⟩, ctx, evs⟩
  have hm : magic.map (· % 2 ^ 32) = magic := by
    cases magic with
    | none => rfl
    | some m => exact congrArg some (Nat.mod_eq_of_lt (hc.magic_lt m rfl))
  have hn : name = stream.streamName := hc.streamName_eq
  have hk : clock = p.streamClocks.lookup sid := hc.clockName_eq
  have ht : ctype = p.streamClockTypes.lookup sid := hc.clockType_eq
  dsimp only
  rw [hm, hn, hk, ht]

theorem Parser.decodes_header (hc : p.Conforms stream pkt) :
    Decodes (p.parseHeader false) p.byteOrder (p.writeHeader pkt.header) pkt.header := by
  rw [Parser.writeHeader, Writer.append_assoc, Writer.append_assoc,
    ← Writer.append_empty (p.pktHeader.streamId.write _ _)]
  unfold Parser.parseHeader
  refine (Decodes.alignTo _).bind ((UIntParser.decodes_opt hc.magic).bind
    ((UuidParser.decodes_opt hc.uuid).bind ((p.pktHeader.streamId.decodes hc.streamId_lt).bind ?_)))
  rw [debugAssertCursor_false, pure_bind, hc.stream_eq]
  exact (Decodes.pure _).of_eq hc.header_eq

theorem StreamParser.decodes_context (hc : p.Conforms stream pkt) :
    Decodes (Parser.parsePacketContext false stream) p.byteOrder
      (stream.writeContext p.byteOrder pkt.context) pkt.context := by
  simp only [StreamParser.writeContext, Writer.append_assoc]
  rw [← Writer.append_empty (EventPayloadMemberParser.writeMembers _ _ _)]
  unfold Parser.parsePacketContext
  simp only [debugAssertCursor_false, pure_bind]
  exact (Decodes.alignTo _).bind ((UIntParser.decodes _ hc.packetSize_lt).bind
    ((UIntParser.decodes _ hc.contentSize_lt).bind ((UIntParser.decodes_opt hc.beginningTimestamp).bind
      ((UIntParser.decodes_opt hc.endTimestamp).bind ((UIntParser.decodes_opt hc.eventsDiscarded).bind
        ((UIntParser.decodes_opt hc.sequenceNumber).bind
          ((EventPayloadMemberParser.decodes_members hc.extraMembers).bind (Decodes.pure _))))))))

end

theorem StreamParser.EventTyped.event_eq' {stream : StreamParser} {ev : EventParser} {e : Event}
    (he : stream.EventTyped ev e) :
    (⟨e.id, ev.eventName, e.timestamp, ev.logLevel.map LogLevel.ofI32, e.commonContext,
      e.specificContext, e.payload⟩ : Event) = e := by
  rw [← he.name_eq, ← he.logLevel_eq]

theorem StreamParser.decodes_event {bo : NativeByteOrder} {stream : StreamParser}
    {ev : EventParser} {e : Event} (he : stream.EventTyped ev e) :
    Decodes (Parser.parseEvent stream) bo (stream.writeEvent bo e) e := by
  simp only [StreamParser.writeEvent, he.event_eq, Writer.append_assoc]
  rw [← Writer.append_empty (EventPayloadParser.writeOpt bo ev.payload e.payload)]
  unfold Parser.parseEvent Parser.parseEventBody
  refine (Decodes.alignTo _).bind ((UIntParser.decodes _ he.id_lt).bind
    ((UIntParser.decodes _ he.timestamp_lt).bind
      ((EventPayloadParser.decodes_opt he.commonContext).bind ?_)))
  rw [he.event_eq]
  exact (EventPayloadParser.decodes_opt he.specificContext).bind
    ((EventPayloadParser.decodes_opt he.payload).bind ((Decodes.pure _).of_eq he.event_eq'))

/-! ## The events and the packet -/

theorem StreamParser.writeEvents_cons (bo : NativeByteOrder) (stream : StreamParser) (e : Event)
    (es : List Event) :
    stream.writeEvents bo (e :: es) = stream.writeEvent bo e ++ stream.writeEvents bo es := rfl

/-- **The event loop reads the events back.** From a byte boundary, with the content size at
the end of the events, the loop reads each event and stops after the last: each event takes a
byte, so the cursor meets the content size only there. -/
theorem StreamParser.decodes_eventsLoop {da : Bool} {bo : NativeByteOrder} {stream : StreamParser} :
    ∀ {es : List Event} (c : AlignedCursor), c.bitIndex % 8 = 0 → es ≠ [] →
      (∀ e ∈ es, ∃ ev, stream.EventTyped ev e) →
        (stream.writeEvents bo es c).2.bitIndex =
            c.bitIndex + 8 * (stream.writeEvents bo es c).1.length ∧
          ∀ rest, Runs (Parser.parseEventsLoop da stream (stream.writeEvents bo es c).2.bitIndex
            es.length) ⟨bo, (stream.writeEvents bo es c).1 ++ rest, c⟩ es
            ⟨bo, rest, (stream.writeEvents bo es c).2⟩
  | [], _, _, hne, _ => absurd rfl hne
  | [e], c, h8, _, hes => by
    obtain ⟨ev, he⟩ := hes e (List.mem_singleton_self e)
    have hd : Decodes (Parser.parseEvent stream) bo (stream.writeEvent bo e) e :=
      StreamParser.decodes_event he
    simp only [StreamParser.writeEvents, List.map_cons, List.map_nil, Writer.concat_cons,
      Writer.concat_nil, Writer.append_empty]
    exact ⟨(hd c h8).1, fun rest =>
      Parser.runs_parseEventsLoop_succ.2 ⟨e, _, (hd c h8).2 rest, fun _ => le_rfl,
        .inl ⟨rfl, rfl, rfl⟩⟩⟩
  | e :: e' :: es, c, h8, _, hes => by
    obtain ⟨ev, he⟩ := hes e (List.mem_cons_self _ _)
    have hd : Decodes (Parser.parseEvent stream) bo (stream.writeEvent bo e) e :=
      StreamParser.decodes_event he
    obtain ⟨hc₁, hr₁⟩ := hd c h8
    obtain ⟨hcw, hrw⟩ := @StreamParser.decodes_eventsLoop da bo stream _ (stream.writeEvent bo e c).2
      (by omega) (List.cons_ne_nil e' es) fun e'' h'' => hes e'' (List.mem_cons_of_mem _ h'')
    -- the events after the first take a byte, so the first ends short of the content size
    have hpos := (Parser.parseEventsLoop_runs (hrw [])).2.2
    simp only [List.length_cons, List.length_nil, List.append_nil] at hpos
    rw [StreamParser.writeEvents_cons]
    refine ⟨by simp only [Writer.append_apply, List.length_append]; omega, fun rest => ?_⟩
    simp only [Writer.append_apply, List.append_assoc]
    exact Parser.runs_parseEventsLoop_succ.2 ⟨e, _, hr₁ _, fun _ => by dsimp only; omega,
      .inr ⟨by dsimp only; omega, _, rfl, hrw rest⟩⟩

/-- **Round trip of the wire format.** A packet that conforms to the plan and has an event is
read back by `Parser::parse` from its encoding followed by any bytes, which it leaves unread. -/
theorem Parser.parse_encode {p : Parser} {stream : StreamParser} {pkt : Packet}
    (hc : p.Conforms stream pkt) (hne : pkt.events ≠ []) (rest : List UInt8) :
    p.parse false (p.encode pkt ++ rest) = .ok (pkt, rest) := by
  obtain ⟨hc₁, hr₁⟩ := Parser.decodes_header hc default rfl
  simp only [AlignedCursor.default_bitIndex, Nat.zero_add] at hc₁
  obtain ⟨hc₂, hr₂⟩ := StreamParser.decodes_context hc (p.writeHeader pkt.header default).2
    (by omega)
  obtain ⟨-, hr₃⟩ := @StreamParser.decodes_eventsLoop false p.byteOrder stream _
    (stream.writeContext p.byteOrder pkt.context (p.writeHeader pkt.header default).2).2
    (by omega) hne hc.events
  -- the bytes: the header, the context, the events, the padding
  set H := p.writeHeader pkt.header default
  set X := stream.writeContext p.byteOrder pkt.context H.2
  set E := stream.writeEvents p.byteOrder pkt.events X.2
  set pad := List.replicate ((pkt.context.packetSizeBits - pkt.context.contentSizeBits) / 8)
    (0 : UInt8)
  have hsrc : p.encode pkt ++ rest = H.1 ++ (X.1 ++ (E.1 ++ (pad ++ rest))) := by
    simp only [Parser.encode, hc.stream_eq, Parser.writeContent, Writer.append_apply,
      List.append_assoc, H, X, E, pad]
  -- the loop stops at the content size, the end of the events; the padding is skipped
  have hcs : pkt.context.contentSizeBits = E.2.bitIndex := hc.contentSize_eq
  have hloop := hr₃ (pad ++ rest)
  have hfuel := (Parser.parseEventsLoop_runs hloop).2.2
  rw [← hcs] at hloop
  have h3 : Runs (Parser.parseEvents false stream pkt.context)
      ⟨p.byteOrder, E.1 ++ (pad ++ rest), X.2⟩
      pkt.events ⟨p.byteOrder, rest, E.2⟩ :=
    Parser.runs_parseEvents.2 ⟨_, pad, Parser.parseEventsLoop_fuel_mono hloop
      (by simp only [List.length_append] at hfuel ⊢; omega), hc.contentSize_le,
      List.length_replicate _ _, rfl, rfl⟩
  rw [hsrc]
  exact Parser.parse_eq_ok.2 ⟨_, Parser.runs_parsePacket.2 ⟨_, _, stream, hr₁ _, hc.stream_eq,
    hr₂ _, h3⟩, rfl⟩

/-- The packet of `oneStreamConfig []` without events: stream 0, sizes 24 and 24. -/
def emptyPacket : Packet :=
  ⟨⟨none, none, 0, "s", none, none⟩, ⟨24, 24, none, none, none, none, []⟩, []⟩

/-- **A packet without events is not read back.** The packet of `oneStreamConfig []` without
events conforms, and its encoding is its header and context, three bytes that end at its content
size. `parse_events` reads an event before it compares the cursor with the content size, so
`Parser::parse` runs out of bytes there, with or without debug assertions. Followed by two more
bytes, the event it reads ends past the content size: a build with debug assertions stops at
`debug_assert!(r.cursor_bits() <= content_size_bits)`, one without runs out of bytes. -/
theorem emptyPacket_not_read_back : ∃ p stream, Parser.new (oneStreamConfig []) = .ok p ∧
    p.Conforms stream emptyPacket ∧ emptyPacket.events = [] ∧ p.encode emptyPacket = [0, 24, 24] ∧
    (∀ da, p.parse da [0, 24, 24] = .error eof) ∧
    p.parse true [0, 24, 24, 0, 0] = .error .debugAssertion ∧
    p.parse false [0, 24, 24, 0, 0] = .error eof := by
  have hc : oneStreamParser.1.Conforms (oneStreamParser.1.streams[0]?.get (by decide))
      emptyPacket :=
    ⟨rfl, trivial, (fun _ h => nomatch h), rfl, by decide, rfl, rfl, rfl, by decide, by decide,
      trivial, trivial, trivial, trivial, .nil, (fun _ h => nomatch h), rfl, rfl, le_rfl⟩
  have h1 : ∀ da, Runs (oneStreamParser.1.parseHeader da)
      (StreamReader.new .littleEndian [0, 24, 24]) emptyPacket.header
      ⟨.littleEndian, [24, 24], ⟨8⟩⟩ := by
    intro da; cases da <;> rfl
  have h1' : ∀ da, Runs (oneStreamParser.1.parseHeader da)
      (StreamReader.new .littleEndian [0, 24, 24, 0, 0]) emptyPacket.header
      ⟨.littleEndian, [24, 24, 0, 0], ⟨8⟩⟩ := by
    intro da; cases da <;> rfl
  have h2 : ∀ da, Runs (Parser.parsePacketContext da
      (oneStreamParser.1.streams[0]?.get (by decide)))
      ⟨.littleEndian, [24, 24], ⟨8⟩⟩ emptyPacket.context ⟨.littleEndian, [], ⟨24⟩⟩ := by
    intro da; cases da <;> rfl
  have h2' : ∀ da, Runs (Parser.parsePacketContext da
      (oneStreamParser.1.streams[0]?.get (by decide)))
      ⟨.littleEndian, [24, 24, 0, 0], ⟨8⟩⟩ emptyPacket.context
      ⟨.littleEndian, [0, 0], ⟨24⟩⟩ := by
    intro da; cases da <;> rfl
  refine ⟨_, _, oneStreamParser.2, hc, rfl, rfl, fun da => ?_,
    (Parser.parse_eq_events (h1' true) hc.stream_eq (h2' true)).trans rfl,
    (Parser.parse_eq_events (h1' false) hc.stream_eq (h2' false)).trans rfl⟩
  rw [Parser.parse_eq_events (h1 da) hc.stream_eq (h2 da)]
  cases da <;> rfl

/-- `fiveBytePacket` followed by a byte is read back, leaving the byte. -/
theorem fiveBytePacket_read_back : ∃ p stream, Parser.new (oneStreamConfig []) = .ok p ∧
    p.Conforms stream fiveBytePacket ∧ fiveBytePacket.events ≠ [] ∧
    p.parse false (p.encode fiveBytePacket ++ [7]) = .ok (fiveBytePacket, [7]) := by
  have hc : oneStreamParser.1.Conforms (oneStreamParser.1.streams[0]?.get (by decide))
      fiveBytePacket :=
    ⟨rfl, trivial, (fun _ h => nomatch h), rfl, by decide, rfl, rfl, rfl, by decide, by decide,
      trivial, trivial, trivial, trivial, .nil, fun e he => by
        obtain rfl := List.mem_singleton.1 he
        exact ⟨_, rfl, by decide, by decide, rfl, rfl, rfl, rfl, rfl⟩, rfl, rfl, le_rfl⟩
  exact ⟨_, _, oneStreamParser.2, hc, List.cons_ne_nil _ _,
    Parser.parse_encode hc (List.cons_ne_nil _ _) [7]⟩

end BarectfParser
