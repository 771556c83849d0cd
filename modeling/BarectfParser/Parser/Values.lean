import BarectfParser.Parser.Fields

/-!
# Decoded member values

What `EventPayloadMemberParser::parse` decodes from a byte-aligned cursor is, by field type
(`MemberConforms`), and the proof that it decodes that for every member type `Parser::new`
compiles (`member_value_conforms`).

Each value is tied to the bytes at the cursor: the padding that takes the cursor up to the
field's alignment (`Padded`, to `alignUp`), then the word of the field's size (`WireWord`) or the
bytes and NUL of a string (`WireString`), and the bit index where the value ends. Integers are
the zero- or sign-extended word and carry the member's display base; an enumeration carries its
value as an `i64` and the first label whose sequences contain it (`specLabel`, which
`EnumerationMappings::label` computes: `label_eq_specLabel`). A string is the lossy UTF-8
decoding of the bytes before its NUL. An array is padded to its element alignment and its
elements are read one after the other (`InOrder`); the count of a dynamic array is the
byte-aligned `u32` at the cursor. The elements are decoded by `PrimitiveFieldTypeParser::parse`
alone (`PrimitiveDecodes`): they keep the default display base, and an enumeration element is an
integer without a label.

The cursor is a `usize`. The statements hold while the cursor, moved over the whole source, stays
64 bits below the top of `usize`; there `align_to` computes `alignUp` (`alignTo_bitIndex`).
-/

namespace BarectfParser

/-! ## What a member decodes to -/

/-- The padding, in bytes, from bit index `i` up to the next multiple of `align` bits. -/
def padBytes (i align : Nat) : Nat := (alignUp i align - i) / 8

/-- At bit index `i` the source holds the padding to a multiple of `align` bits, then `rest`. -/
def Padded (align i : Nat) (src rest : List UInt8) : Prop :=
  ∃ pad, src = pad ++ rest ∧ pad.length = padBytes i align

/-- At bit index `i` the source holds the padding to a multiple of `align` bits, the word `w` of
`size` bits in byte order `bo`, then `rest`, which starts at bit index `j`. -/
def WireWord (bo : NativeByteOrder) (align size i : Nat) (src : List UInt8) (w : Nat)
    (rest : List UInt8) (j : Nat) : Prop :=
  ∃ word, Padded align i src (word ++ rest) ∧ word.length = size / 8 ∧ w = bo.decode word ∧
    j = alignUp i align + size

/-- At bit index `i` the source holds the padding to a byte, the bytes `cstr` of a string and
its NUL, then `rest`, which starts at bit index `j`. -/
def WireString (i : Nat) (src cstr rest : List UInt8) (j : Nat) : Prop :=
  Padded 8 i src (cstr ++ 0 :: rest) ∧ 0 ∉ cstr ∧ j = alignUp i 8 + 8 * (cstr.length + 1)

/-- The values `as`, each decoded by `P` from where the one before ends: the first at bit index
`i` of `src`, and `rest` left at bit index `j` after the last. -/
def InOrder {α : Type} (P : Nat → List UInt8 → α → List UInt8 → Nat → Prop) :
    Nat → List UInt8 → List α → List UInt8 → Nat → Prop
  | i, src, [], rest, j => rest = src ∧ j = i
  | i, src, a :: as, rest, j => ∃ mid k, P i src a mid k ∧ InOrder P k mid as rest j

/-- The label of `v`: the first label, in mapping order, with a point equal to `v` or an
inclusive range containing it. -/
def specLabel (mappings : BTreeMap (List EnumerationFieldTypeMappingSequence)) (v : Int) :
    Option String :=
  (mappings.entries.find? fun e => e.2.any fun
    | .value p => decide (p = v)
    | .inclusiveRange lo hi => decide (lo ≤ v ∧ v ≤ hi)).map (·.1)

/-- A value of the primitive type `ft` decoded at bit index `i` of `src`, leaving `rest` at bit
index `j`: an integer (of an integer or an enumeration type) with the default display base, a
string, or a real. -/
def PrimitiveDecodes (bo : NativeByteOrder) (ft : PrimitiveFieldType) (i : Nat)
    (src : List UInt8) (x : PrimitiveFieldValue) (rest : List UInt8) (j : Nat) : Prop :=
  match ft with
  | .unsignedInteger _ | .unsignedEnumeration _ =>
    ∃ w, WireWord bo ft.alignment ft.size i src w rest j ∧ x = .unsignedInteger w .decimal
  | .signedInteger _ | .signedEnumeration _ =>
    ∃ w, WireWord bo ft.alignment ft.size i src w rest j ∧
      x = .signedInteger (toSigned ft.size w) .decimal
  | .string => ∃ cstr, WireString i src cstr rest j ∧ x = .string (fromUtf8Lossy cstr)
  | .real _ => ∃ w, WireWord bo ft.alignment ft.size i src w rest j ∧
    (ft.size = 32 ∧ x = .f32 w ∨ ft.size = 64 ∧ x = .f64 w)

/-- The value of a member of type `ft` decoded at bit index `i` of `src`, leaving `rest` at bit
index `j`. -/
def MemberConforms (bo : NativeByteOrder) (ft : StructureMemberFieldType) (i : Nat)
    (src : List UInt8) (x : FieldValue) (rest : List UInt8) (j : Nat) : Prop :=
  match ft with
  | .unsignedInteger t => ∃ w, WireWord bo t.alignment t.size i src w rest j ∧
    x = .primitive (.unsignedInteger w t.preferredDisplayBase)
  | .signedInteger t => ∃ w, WireWord bo t.alignment t.size i src w rest j ∧
    x = .primitive (.signedInteger (toSigned t.size w) t.preferredDisplayBase)
  | .unsignedEnumeration t => ∃ w, WireWord bo t.alignment t.size i src w rest j ∧
    x = .primitive (.enumeration (toSigned 64 w) t.preferredDisplayBase
      (specLabel t.mappings (toSigned 64 w)))
  | .signedEnumeration t => ∃ w, WireWord bo t.alignment t.size i src w rest j ∧
    x = .primitive (.enumeration (toSigned t.size w) t.preferredDisplayBase
      (specLabel t.mappings (toSigned t.size w)))
  | .string => ∃ v, PrimitiveDecodes bo .string i src v rest j ∧ x = .primitive v
  | .real t => ∃ v, PrimitiveDecodes bo (.real t) i src v rest j ∧ x = .primitive v
  | .staticArray t => ∃ mid es, Padded t.elementFieldType.alignment i src mid ∧
    InOrder (PrimitiveDecodes bo t.elementFieldType) (alignUp i t.elementFieldType.alignment)
      mid es rest j ∧ es.length = t.length ∧ x = .array es
  | .dynamicArray t => ∃ mid k mid' es, WireWord bo 8 32 i src es.length mid k ∧
    Padded t.elementFieldType.alignment k mid mid' ∧
    InOrder (PrimitiveDecodes bo t.elementFieldType) (alignUp k t.elementFieldType.alignment)
      mid' es rest j ∧ x = .array es

/-! ## Labels -/

theorem EnumerationFieldTypeMappingSequence.contains_eq (s : EnumerationFieldTypeMappingSequence)
    (v : Int) : s.contains v = match s with
      | .value p => decide (p = v)
      | .inclusiveRange lo hi => decide (lo ≤ v ∧ v ≤ hi) := by
  cases s <;> simp [EnumerationFieldTypeMappingSequence.contains]

theorem findSome?_eq_find?_map {α β : Type} (p : α × β → Bool) :
    ∀ l : List (α × β), l.findSome? (fun e => if p e then some e.1 else none) = (l.find? p).map (·.1)
  | [] => rfl
  | e :: es => by
    by_cases h : p e <;> simp [List.findSome?_cons, List.find?_cons, h, findSome?_eq_find?_map p es]

/-- `EnumerationMappings::label` is the first label whose sequences contain the value. -/
theorem label_eq_specLabel (mappings : BTreeMap (List EnumerationFieldTypeMappingSequence))
    (v : Int) : (⟨mappings.entries⟩ : EnumerationMappings).label v = specLabel mappings v := by
  have hp : (fun e : String × List EnumerationFieldTypeMappingSequence =>
      e.2.any (·.contains v)) = fun e => e.2.any fun
        | .value p => decide (p = v)
        | .inclusiveRange lo hi => decide (lo ≤ v ∧ v ≤ hi) := by
    funext e
    congr
    funext s
    exact s.contains_eq v
  unfold EnumerationMappings.label specLabel
  rw [← hp, ← findSome?_eq_find?_map]

/-! ## Reads at the cursor -/

section
variable {bo : NativeByteOrder} {src : List UInt8} {c : AlignedCursor} {r' : StreamReader}
  {desc : FieldDesc} {v : PrimitiveFieldValue}

/-- Away from the top of `usize`, `align_to` moves the cursor to `alignUp` and skips `padBytes`. -/
theorem alignTo_eq_alignUp (c : AlignedCursor) (a : Size) (hfit : c.bitIndex + 64 ≤ 2 ^ 64) :
    (c.alignTo a).1 >>> 3 = padBytes c.bitIndex a.bits ∧
      (c.alignTo a).2.bitIndex = alignUp c.bitIndex a.bits := by
  have hup := alignTo_bitIndex c a (by have := a.bits_pos; omega)
  have hpad := c.alignTo_bitIndex_eq a
  refine ⟨?_, hup⟩
  rw [padBytes, Nat.shiftRight_eq_div_pow]
  omega

/-- From a byte boundary a read keeps the cursor on one, and the cursor plus the bits left in the
source where they were. -/
theorem Reads.fits {α : Type} {m : ReadM α} (hm : Reads m) {a : α}
    (h : Runs m ⟨bo, src, c⟩ a r') (hc : c.bitIndex % 8 = 0) :
    r'.byteOrder = bo ∧ r'.cursor.bitIndex % 8 = 0 ∧
      r'.cursor.bitIndex + 8 * r'.src.length = c.bitIndex + 8 * src.length := by
  obtain ⟨taken, rfl, hbo, hcur, -⟩ := hm _ _ _ _ _ h
  have := hcur hc
  exact ⟨hbo, by omega, by rw [List.length_append]; omega⟩

theorem runs_alignTo_padded {a : Size} {u : Unit}
    (h : Runs (StreamReader.alignTo a) ⟨bo, src, c⟩ u r') (hfit : c.bitIndex + 64 ≤ 2 ^ 64) :
    Padded a.bits c.bitIndex src r'.src ∧ r'.cursor.bitIndex = alignUp c.bitIndex a.bits := by
  obtain ⟨pad, rest, hp, rfl, rfl⟩ := runs_alignTo.1 h
  obtain ⟨h1, h2⟩ := alignTo_eq_alignUp c a hfit
  exact ⟨⟨pad, rfl, hp.trans h1⟩, h2⟩

theorem runs_readWord_wireWord {size align : Size} {w : Nat}
    (h : Runs (StreamReader.readWord size align) ⟨bo, src, c⟩ w r')
    (hfit : c.bitIndex + 64 ≤ 2 ^ 64) :
    WireWord bo align.bits size.bits c.bitIndex src w r'.src r'.cursor.bitIndex := by
  obtain ⟨pad, bytes, rest, hp, hb, rfl, rfl, rfl⟩ := runs_readWord.1 h
  obtain ⟨h1, h2⟩ := alignTo_eq_alignUp c align hfit
  exact ⟨bytes, ⟨pad, List.append_assoc _ _ _, hp.trans h1⟩, hb, rfl, by simp [h2]⟩

theorem runs_readString_wireString {cstr : List UInt8}
    (h : Runs StreamReader.readString ⟨bo, src, c⟩ cstr r')
    (hfit : c.bitIndex + 64 ≤ 2 ^ 64) :
    ∃ bytes, WireString c.bitIndex src bytes r'.src r'.cursor.bitIndex ∧
      cstr = fromUtf8Lossy bytes := by
  obtain ⟨pad, bytes, rest, hp, h0, rfl, rfl, rfl⟩ := runs_readString.1 h
  obtain ⟨h1, h2⟩ := alignTo_eq_alignUp c .bits8 hfit
  exact ⟨bytes, ⟨⟨pad, List.append_assoc _ _ _, hp.trans h1⟩, h0, by rw [h2]; rfl⟩, rfl⟩

theorem PrimitiveFieldTypeParser.parse_uInt (desc : FieldDesc) :
    (PrimitiveFieldTypeParser.uInt desc).parse =
      PrimitiveFieldValue.ofUnsigned <$> StreamReader.readWord desc.size desc.alignment := by
  obtain ⟨size, align⟩ := desc
  cases size <;> rfl

theorem PrimitiveFieldTypeParser.parse_int (desc : FieldDesc) :
    (PrimitiveFieldTypeParser.int desc).parse = (fun w => PrimitiveFieldValue.ofSigned
      (toSigned desc.size.bits w)) <$> StreamReader.readWord desc.size desc.alignment := by
  obtain ⟨size, align⟩ := desc
  cases size <;> simp only [PrimitiveFieldTypeParser.parse, StreamReader.readI8,
    StreamReader.readI16, StreamReader.readI32, StreamReader.readI64, Functor.map_map] <;> rfl

section
variable (hfit : c.bitIndex + 64 ≤ 2 ^ 64)
include hfit

theorem PrimitiveFieldTypeParser.runs_uInt
    (h : Runs (PrimitiveFieldTypeParser.uInt desc).parse ⟨bo, src, c⟩ v r') :
    ∃ w, WireWord bo desc.alignment.bits desc.size.bits c.bitIndex src w r'.src
      r'.cursor.bitIndex ∧ v = .unsignedInteger w .decimal := by
  rw [PrimitiveFieldTypeParser.parse_uInt] at h
  obtain ⟨w, hw, rfl⟩ := runs_map.1 h
  exact ⟨w, runs_readWord_wireWord hw hfit, rfl⟩

theorem PrimitiveFieldTypeParser.runs_int
    (h : Runs (PrimitiveFieldTypeParser.int desc).parse ⟨bo, src, c⟩ v r') :
    ∃ w, WireWord bo desc.alignment.bits desc.size.bits c.bitIndex src w r'.src
      r'.cursor.bitIndex ∧ v = .signedInteger (toSigned desc.size.bits w) .decimal := by
  rw [PrimitiveFieldTypeParser.parse_int] at h
  obtain ⟨w, hw, rfl⟩ := runs_map.1 h
  exact ⟨w, runs_readWord_wireWord hw hfit, rfl⟩

theorem PrimitiveFieldTypeParser.runs_real
    (h : Runs (PrimitiveFieldTypeParser.real desc).parse ⟨bo, src, c⟩ v r') :
    ∃ w, WireWord bo desc.alignment.bits desc.size.bits c.bitIndex src w r'.src
      r'.cursor.bitIndex ∧
        (desc.size.bits = 32 ∧ v = .f32 w ∨ desc.size.bits = 64 ∧ v = .f64 w) := by
  obtain ⟨size, align⟩ := desc
  cases size <;> simp only [PrimitiveFieldTypeParser.parse, StreamReader.readF32,
    StreamReader.readF64] at h
  · exact absurd h runs_throw
  · exact absurd h runs_throw
  · obtain ⟨w, hw, rfl⟩ := runs_map.1 h
    exact ⟨w, runs_readWord_wireWord hw hfit, .inl ⟨rfl, rfl⟩⟩
  · obtain ⟨w, hw, rfl⟩ := runs_map.1 h
    exact ⟨w, runs_readWord_wireWord hw hfit, .inr ⟨rfl, rfl⟩⟩

theorem PrimitiveFieldTypeParser.runs_string
    (h : Runs (PrimitiveFieldTypeParser.string desc).parse ⟨bo, src, c⟩ v r') :
    ∃ cstr, WireString c.bitIndex src cstr r'.src r'.cursor.bitIndex ∧
      v = .string (fromUtf8Lossy cstr) := by
  obtain ⟨s, hs, rfl⟩ := runs_map.1 h
  obtain ⟨cstr, hw, rfl⟩ := runs_readString_wireString hs hfit
  exact ⟨cstr, hw, rfl⟩

/-- **Primitive values.** A primitive parser compiled from `ft` decodes what `ft` says, at the
cursor. -/
theorem PrimitiveFieldTypeParser.parse_decodes {ft : PrimitiveFieldType}
    {p : PrimitiveFieldTypeParser} (hft : PrimitiveFieldTypeParser.fromFt ft = .ok p)
    (h : Runs p.parse ⟨bo, src, c⟩ v r') :
    PrimitiveDecodes bo ft c.bitIndex src v r'.src r'.cursor.bitIndex := by
  obtain ⟨desc, hd, hp⟩ := except_bind_eq_ok.1 hft
  have hsize : desc.size.bits = ft.size := (FieldDesc.fromFt_ok hd).1
  have halign : desc.alignment.bits = ft.alignment := (FieldDesc.fromFt_ok hd).2
  cases ft with
  | unsignedInteger t | unsignedEnumeration t =>
    cases hp
    unfold PrimitiveDecodes
    rw [← hsize, ← halign]
    exact PrimitiveFieldTypeParser.runs_uInt hfit h
  | signedInteger t | signedEnumeration t =>
    cases hp
    unfold PrimitiveDecodes
    rw [← hsize, ← halign]
    exact PrimitiveFieldTypeParser.runs_int hfit h
  | string =>
    cases hp
    exact PrimitiveFieldTypeParser.runs_string hfit h
  | real t =>
    cases hp
    unfold PrimitiveDecodes
    rw [← hsize, ← halign]
    exact PrimitiveFieldTypeParser.runs_real hfit h

end

end

/-! ## Arrays and members -/

theorem except_map_eq_ok {ε α β : Type} {f : α → β} {x : Except ε α} {b : β} :
    f <$> x = .ok b ↔ ∃ a, x = .ok a ∧ f a = b := by
  cases x <;> simp [Functor.map, Except.map]

theorem PrimitiveFieldTypeParser.fromFt_desc {ft : PrimitiveFieldType}
    {p : PrimitiveFieldTypeParser} (h : PrimitiveFieldTypeParser.fromFt ft = .ok p) :
    FieldDesc.fromFt ft = .ok p.desc := by
  obtain ⟨desc, hd, hp⟩ := except_bind_eq_ok.1 h
  cases ft <;> cases hp <;> exact hd

/-- `readArray p.parse n` reads `n` elements one after the other, each where the one before
ends, from a byte boundary. -/
theorem PrimitiveFieldTypeParser.readArray_inOrder {ft : PrimitiveFieldType}
    {p : PrimitiveFieldTypeParser} (hft : PrimitiveFieldTypeParser.fromFt ft = .ok p) :
    ∀ n {bo : NativeByteOrder} {src : List UInt8} {c : AlignedCursor}
      {es : List PrimitiveFieldValue} {r' : StreamReader},
      Runs (readArray p.parse n) ⟨bo, src, c⟩ es r' →
      c.bitIndex % 8 = 0 → c.bitIndex + 8 * src.length + 64 ≤ 2 ^ 64 →
      es.length = n ∧ InOrder (PrimitiveDecodes bo ft) c.bitIndex src es r'.src r'.cursor.bitIndex
  | 0, _, _, _, _, _, h, _, _ => by
    obtain ⟨rfl, rfl⟩ := runs_pure.1 h
    exact ⟨rfl, rfl, rfl⟩
  | n + 1, bo, src, c, es, r', h, hc, hfit => by
    obtain ⟨e, ⟨bo1, src1, c1⟩, h1, h⟩ := runs_bind.1 h
    obtain ⟨es, r2, h2, h⟩ := runs_bind.1 h
    obtain ⟨rfl, rfl⟩ := runs_pure.1 h
    obtain ⟨rfl, hc1, hfit1⟩ := p.reads.fits h1 hc
    obtain ⟨hl, hi⟩ := readArray_inOrder hft n h2 hc1 (by dsimp only at hfit1; omega)
    exact ⟨by simp [hl], src1, c1.bitIndex,
      PrimitiveFieldTypeParser.parse_decodes (by omega) hft h1, hi⟩

/-- `EventPayloadMemberParser::parse`: the value, with the member's display base, then its label
when the member has mappings. -/
theorem EventPayloadMemberParser.runs_parse {m : EventPayloadMemberParser} {r r' : StreamReader}
    {x : FieldValue} :
    Runs m.parse r x r' ↔ ∃ v0, Runs m.value.parse r v0 r' ∧
      x = (m.enumMappings.map fun mp => mp.labelValue (m.withDisplayBase v0)).getD
        (m.withDisplayBase v0) := by
  simp only [EventPayloadMemberParser.parse, runs_bind]
  constructor
  · rintro ⟨v0, r1, h1, h⟩
    refine ⟨v0, ?_⟩
    cases hm : m.enumMappings <;> rw [hm] at h <;> obtain ⟨rfl, rfl⟩ := runs_pure.1 h <;>
      exact ⟨h1, rfl⟩
  · rintro ⟨v0, h1, rfl⟩
    refine ⟨v0, r', h1, ?_⟩
    cases hm : m.enumMappings <;> exact runs_pure.2 ⟨rfl, rfl⟩

/-- **Member values.** For every member type `Parser::new` compiles, the value
`EventPayloadMemberParser::parse` decodes from a byte boundary is the one `MemberConforms`
describes, read from the bytes at the cursor up to where the parse leaves the reader. -/
theorem member_value_conforms {ft : StructureMemberFieldType} {value : FieldTypeParser}
    (hft : FieldTypeParser.fromFt ft = .ok value) (name : String) {bo : NativeByteOrder}
    {src : List UInt8} {c : AlignedCursor} {x : FieldValue} {r' : StreamReader}
    (h : Runs (EventPayloadMemberParser.parse
      ⟨name, ft.preferredDisplayBase, EnumerationMappings.fromStructFt ft, value⟩)
      ⟨bo, src, c⟩ x r')
    (hc : c.bitIndex % 8 = 0) (hfit : c.bitIndex + 8 * src.length + 64 ≤ 2 ^ 64) :
    MemberConforms bo ft c.bitIndex src x r'.src r'.cursor.bitIndex := by
  obtain ⟨v0, h1, rfl⟩ := EventPayloadMemberParser.runs_parse.1 h
  obtain ⟨desc, hd, hv⟩ := except_bind_eq_ok.1 hft
  have hsize : desc.size.bits = ft.size := (FieldDesc.fromFt_ok hd).1
  have halign : desc.alignment.bits = ft.alignment := (FieldDesc.fromFt_ok hd).2
  have hfit' : c.bitIndex + 64 ≤ 2 ^ 64 := by omega
  cases ft with
  | unsignedInteger t =>
    cases hv
    obtain ⟨pv, hp1, rfl⟩ := runs_map.1 h1
    obtain ⟨w, hw, rfl⟩ := PrimitiveFieldTypeParser.runs_uInt hfit' hp1
    rw [hsize, halign] at hw
    exact ⟨w, hw, rfl⟩
  | signedInteger t =>
    cases hv
    obtain ⟨pv, hp1, rfl⟩ := runs_map.1 h1
    obtain ⟨w, hw, rfl⟩ := PrimitiveFieldTypeParser.runs_int hfit' hp1
    rw [hsize, halign] at hw
    refine ⟨w, hw, ?_⟩
    rw [hsize]
    rfl
  | unsignedEnumeration t =>
    cases hv
    obtain ⟨pv, hp1, rfl⟩ := runs_map.1 h1
    obtain ⟨w, hw, rfl⟩ := PrimitiveFieldTypeParser.runs_uInt hfit' hp1
    rw [hsize, halign] at hw
    refine ⟨w, hw, ?_⟩
    simp only [EnumerationMappings.fromStructFt, Option.map_some', Option.getD_some,
      EventPayloadMemberParser.withDisplayBase, EnumerationMappings.labelValue,
      label_eq_specLabel]
    rfl
  | signedEnumeration t =>
    cases hv
    obtain ⟨pv, hp1, rfl⟩ := runs_map.1 h1
    obtain ⟨w, hw, rfl⟩ := PrimitiveFieldTypeParser.runs_int hfit' hp1
    rw [hsize, halign] at hw
    refine ⟨w, hw, ?_⟩
    simp only [EnumerationMappings.fromStructFt, Option.map_some', Option.getD_some,
      EventPayloadMemberParser.withDisplayBase, EnumerationMappings.labelValue,
      label_eq_specLabel, hsize]
    rfl
  | string =>
    cases hv
    obtain ⟨pv, hp1, rfl⟩ := runs_map.1 h1
    obtain ⟨cstr, hw, rfl⟩ := PrimitiveFieldTypeParser.runs_string hfit' hp1
    exact ⟨_, ⟨cstr, hw, rfl⟩, rfl⟩
  | real t =>
    cases hv
    obtain ⟨pv, hp1, rfl⟩ := runs_map.1 h1
    obtain ⟨w, hw, ⟨hb, rfl⟩ | ⟨hb, rfl⟩⟩ :=
        PrimitiveFieldTypeParser.runs_real hfit' hp1 <;>
      rw [hsize, halign] at hw <;> rw [hsize] at hb
    · exact ⟨_, ⟨w, hw, .inl ⟨hb, rfl⟩⟩, rfl⟩
    · exact ⟨_, ⟨w, hw, .inr ⟨hb, rfl⟩⟩, rfl⟩
  | staticArray t =>
    obtain ⟨p, hp, rfl⟩ := except_map_eq_ok.1 hv
    have hal : p.desc.alignment.bits = t.elementFieldType.alignment :=
      (FieldDesc.fromFt_ok (PrimitiveFieldTypeParser.fromFt_desc hp)).2
    obtain ⟨_, ⟨bo1, src1, c1⟩, ha, h1⟩ := runs_bind.1 h1
    obtain ⟨es, r2, h2, h1⟩ := runs_bind.1 h1
    obtain ⟨rfl, rfl⟩ := runs_pure.1 h1
    obtain ⟨hpad, hup⟩ := runs_alignTo_padded ha hfit'
    obtain ⟨rfl, hc1, hfit1⟩ := (Reads.alignTo _).fits ha hc
    obtain ⟨hl, hi⟩ := PrimitiveFieldTypeParser.readArray_inOrder hp _ h2 hc1
      (by dsimp only at hfit1; omega)
    dsimp only at hpad hup
    rw [hal] at hpad hup
    rw [hup] at hi
    exact ⟨src1, es, hpad, hi, hl, rfl⟩
  | dynamicArray t =>
    obtain ⟨p, hp, rfl⟩ := except_map_eq_ok.1 hv
    have hal : p.desc.alignment.bits = t.elementFieldType.alignment :=
      (FieldDesc.fromFt_ok (PrimitiveFieldTypeParser.fromFt_desc hp)).2
    obtain ⟨len, ⟨bo1, src1, c1⟩, hlen, h1⟩ := runs_bind.1 h1
    obtain ⟨_, ⟨bo2, src2, c2⟩, ha, h1⟩ := runs_bind.1 h1
    obtain ⟨es, r3, h3, h1⟩ := runs_bind.1 h1
    obtain ⟨rfl, rfl⟩ := runs_pure.1 h1
    have hw := runs_readWord_wireWord hlen hfit'
    obtain ⟨rfl, hc1, hfit1⟩ := (Reads.readWord _ _).fits hlen hc
    obtain ⟨hpad, hup⟩ := runs_alignTo_padded ha (by dsimp only at hfit1; omega)
    obtain ⟨rfl, hc2, hfit2⟩ := (Reads.alignTo _).fits ha hc1
    obtain ⟨rfl, hi⟩ := PrimitiveFieldTypeParser.readArray_inOrder hp _ h3 hc2
      (by dsimp only at hfit1 hfit2; omega)
    dsimp only at hpad hup
    rw [hal] at hpad hup
    rw [hup] at hi
    exact ⟨src1, c1.bitIndex, src2, es, hw, hpad, hi, rfl⟩

/-- A dynamic array of `u16` elements displayed in hexadecimal. -/
def u16ArrayFieldType : StructureMemberFieldType :=
  .dynamicArray ⟨.unsignedInteger ⟨16, 16, .hexadecimal⟩⟩

/-- From bit 8: the count 2 in the four bytes at the cursor, one byte of padding up to bit 48,
the elements 1 and 258 one after the other, in decimal, and the byte 7 left at bit 80. -/
theorem u16Array_member_conforms :
    FieldTypeParser.fromFt u16ArrayFieldType =
      .ok (.dynamicArray (.uInt ⟨.bits16, .bits16⟩)) ∧
    Runs (EventPayloadMemberParser.parse ⟨"a", u16ArrayFieldType.preferredDisplayBase,
        EnumerationMappings.fromStructFt u16ArrayFieldType,
        .dynamicArray (.uInt ⟨.bits16, .bits16⟩)⟩)
      ⟨.littleEndian, [2, 0, 0, 0, 0xff, 1, 0, 2, 1, 7], ⟨8⟩⟩
      (.array [.unsignedInteger 1 .decimal, .unsignedInteger 258 .decimal])
      ⟨.littleEndian, [7], ⟨80⟩⟩ ∧
    MemberConforms .littleEndian u16ArrayFieldType 8 [2, 0, 0, 0, 0xff, 1, 0, 2, 1, 7]
      (.array [.unsignedInteger 1 .decimal, .unsignedInteger 258 .decimal]) [7] 80 :=
  have h : Runs (EventPayloadMemberParser.parse ⟨"a", u16ArrayFieldType.preferredDisplayBase,
      EnumerationMappings.fromStructFt u16ArrayFieldType,
      .dynamicArray (.uInt ⟨.bits16, .bits16⟩)⟩)
      ⟨.littleEndian, [2, 0, 0, 0, 0xff, 1, 0, 2, 1, 7], ⟨8⟩⟩
      (.array [.unsignedInteger 1 .decimal, .unsignedInteger 258 .decimal])
      ⟨.littleEndian, [7], ⟨80⟩⟩ :=
    -- the count, the padding, then the two elements
    EventPayloadMemberParser.runs_parse.2 ⟨_,
      runs_bind.2 ⟨2, ⟨.littleEndian, [0xff, 1, 0, 2, 1, 7], ⟨40⟩⟩, rfl,
        runs_bind.2 ⟨(), ⟨.littleEndian, [1, 0, 2, 1, 7], ⟨48⟩⟩, rfl,
          runs_bind.2 ⟨_, _, rfl, runs_pure.2 ⟨rfl, rfl⟩⟩⟩⟩, rfl⟩
  ⟨rfl, h, @member_value_conforms u16ArrayFieldType _ rfl "a" _ _ _ _ _ h (by decide)
    (by decide)⟩

/-- A `u8` unsigned enumeration, displayed in hexadecimal, whose label `A` covers `1 ..= 9`. -/
def hexEnumFieldType : EnumerationFieldType :=
  ⟨8, 8, .hexadecimal, ⟨[("A", [.inclusiveRange 1 9])], List.pairwise_singleton _ _⟩⟩

/-- A static array of one `hexEnumFieldType` element: `PrimitiveFieldTypeParser::parse` decodes
the element to the integer 5 in decimal, without the element type's display base or label. -/
def enumArrayFieldType : StructureMemberFieldType :=
  .staticArray ⟨1, .unsignedEnumeration hexEnumFieldType⟩

theorem array_enum_element_unlabelled :
    FieldTypeParser.fromFt enumArrayFieldType = .ok (.staticArray 1 (.uEnum ⟨.bits8, .bits8⟩)) ∧
    Runs (EventPayloadMemberParser.parse ⟨"m", enumArrayFieldType.preferredDisplayBase,
        EnumerationMappings.fromStructFt enumArrayFieldType,
        .staticArray 1 (.uEnum ⟨.bits8, .bits8⟩)⟩) ⟨.littleEndian, [5], ⟨0⟩⟩
      (.array [.unsignedInteger 5 .decimal]) ⟨.littleEndian, [], ⟨8⟩⟩ ∧
    FieldValue.array [.unsignedInteger 5 .decimal] ≠
      .array [.enumeration 5 .hexadecimal (some "A")] :=
  ⟨rfl, rfl, by decide⟩

end BarectfParser
