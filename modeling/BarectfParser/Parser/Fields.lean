import BarectfParser.Parser.Reader

/-!
# Field parsers

`UIntParser`, `UuidParser`, `PrimitiveFieldTypeParser`, `FieldTypeParser`, `EnumerationMappings`
and `EventPayloadMemberParser` (`src/parser/types.rs`): the compiled form of a field type and the
reader call that decodes one value of it.

Every parser takes a prefix of the source (`UIntParser.reads`, ..., `EventPayloadMemberParser.reads`),
so a sequence of them moves the cursor by eight bits per byte taken (`runCalls_tracks`).
-/

namespace BarectfParser

/-! ## Unsigned integers and UUIDs -/

structure UIntParser where
  desc : FieldDesc
deriving DecidableEq, Repr

def UIntParser.fromUintFt (ft : UnsignedIntegerFieldType) : Except FieldUnsupportedError UIntParser :=
  (⟨·⟩) <$> FieldDesc.fromFt ft.fieldType

def UIntParser.fromOptUintFt :
    FeaturesUnsignedIntegerFieldType → Except FieldUnsupportedError (Option UIntParser)
  | .false => .ok none
  | .unsignedInteger uint => some <$> UIntParser.fromUintFt uint

def UIntParser.parse (p : UIntParser) : ReadM Nat :=
  match p.desc.size with
  | .bits8 => StreamReader.readU8 p.desc.alignment
  | .bits16 => StreamReader.readU16 p.desc.alignment
  | .bits32 => StreamReader.readU32 p.desc.alignment
  | .bits64 => StreamReader.readU64 p.desc.alignment

theorem UIntParser.parse_eq (p : UIntParser) :
    p.parse = StreamReader.readWord p.desc.size p.desc.alignment := by
  unfold UIntParser.parse; split <;> simp_all [StreamReader.readU8, StreamReader.readU16,
    StreamReader.readU32, StreamReader.readU64]

structure UuidParser where
deriving DecidableEq, Repr

def UuidParser.fromBoolFt (uuidFieldType : Bool) : Option UuidParser :=
  if uuidFieldType then some ⟨⟩ else none

/-- `for b in bytes.iter_mut() { *b = r.read_u8(Size::Bits8)? }` over `n` bytes. -/
def readU8Array : (n : Nat) → ReadM { bs : List UInt8 // bs.length = n }
  | 0 => pure ⟨[], rfl⟩
  | n + 1 => do
    let b ← StreamReader.readU8 .bits8
    let bs ← readU8Array n
    pure ⟨UInt8.ofNat b :: bs.1, by simp [bs.2]⟩

def UuidParser.parse (_ : UuidParser) : ReadM Uuid := do
  StreamReader.alignTo .bits8
  let bytes ← readU8Array 16
  pure ⟨bytes.1, bytes.2⟩

/-! ## Primitive and member field types -/

inductive PrimitiveFieldTypeParser
  | uInt (desc : FieldDesc)
  | int (desc : FieldDesc)
  | string (desc : FieldDesc)
  | real (desc : FieldDesc)
  | uEnum (desc : FieldDesc)
  | enum (desc : FieldDesc)
deriving DecidableEq, Repr

def PrimitiveFieldTypeParser.fromFt (ft : PrimitiveFieldType) :
    Except FieldUnsupportedError PrimitiveFieldTypeParser := do
  let desc ← FieldDesc.fromFt ft
  pure <| match ft with
    | .unsignedInteger _ => .uInt desc
    | .signedInteger _ => .int desc
    | .string => .string desc
    | .real _ => .real desc
    | .unsignedEnumeration _ => .uEnum desc
    | .signedEnumeration _ => .enum desc

def PrimitiveFieldTypeParser.desc : PrimitiveFieldTypeParser → FieldDesc
  | .uInt t | .int t | .string t | .real t | .uEnum t | .enum t => t

/-- `From<uN> for PrimitiveFieldValue`: the default display base. -/
def PrimitiveFieldValue.ofUnsigned (v : Nat) : PrimitiveFieldValue := .unsignedInteger v default

/-- `From<iN> for PrimitiveFieldValue`. -/
def PrimitiveFieldValue.ofSigned (v : Int) : PrimitiveFieldValue := .signedInteger v default

def PrimitiveFieldTypeParser.parse : PrimitiveFieldTypeParser → ReadM PrimitiveFieldValue
  | .uInt desc | .uEnum desc =>
    match desc.size with
    | .bits8 => .ofUnsigned <$> StreamReader.readU8 desc.alignment
    | .bits16 => .ofUnsigned <$> StreamReader.readU16 desc.alignment
    | .bits32 => .ofUnsigned <$> StreamReader.readU32 desc.alignment
    | .bits64 => .ofUnsigned <$> StreamReader.readU64 desc.alignment
  | .int desc | .enum desc =>
    match desc.size with
    | .bits8 => .ofSigned <$> StreamReader.readI8 desc.alignment
    | .bits16 => .ofSigned <$> StreamReader.readI16 desc.alignment
    | .bits32 => .ofSigned <$> StreamReader.readI32 desc.alignment
    | .bits64 => .ofSigned <$> StreamReader.readI64 desc.alignment
  | .string _ => .string <$> StreamReader.readString
  | .real desc =>
    match desc.size with
    | .bits32 => .f32 <$> StreamReader.readF32 desc.alignment
    | .bits64 => .f64 <$> StreamReader.readF64 desc.alignment
    | _ => throw (.error (.invalidFloatSize desc.size.bits))

/-- `for _ in 0..len { arr.push(p.parse(r)?) }`. -/
def readArray {α : Type} (m : ReadM α) : Nat → ReadM (List α)
  | 0 => pure []
  | n + 1 => do
    let a ← m
    let as ← readArray m n
    pure (a :: as)

inductive FieldTypeParser
  | primitive (p : PrimitiveFieldTypeParser)
  | staticArray (len : Nat) (p : PrimitiveFieldTypeParser)
  | dynamicArray (p : PrimitiveFieldTypeParser)
deriving DecidableEq, Repr

def FieldTypeParser.fromFt (ft : StructureMemberFieldType) :
    Except FieldUnsupportedError FieldTypeParser := do
  let desc ← FieldDesc.fromFt ft
  match ft with
  | .unsignedInteger _ => pure (.primitive (.uInt desc))
  | .signedInteger _ => pure (.primitive (.int desc))
  | .string => pure (.primitive (.string desc))
  | .real _ => pure (.primitive (.real desc))
  | .unsignedEnumeration _ => pure (.primitive (.uEnum desc))
  | .signedEnumeration _ => pure (.primitive (.enum desc))
  | .staticArray ft => .staticArray ft.length <$> PrimitiveFieldTypeParser.fromFt ft.elementFieldType
  | .dynamicArray ft => .dynamicArray <$> PrimitiveFieldTypeParser.fromFt ft.elementFieldType

def FieldTypeParser.desc : FieldTypeParser → FieldDesc
  | .primitive t => t.desc
  | .staticArray _ t => t.desc
  | .dynamicArray t => t.desc

def FieldTypeParser.parse : FieldTypeParser → ReadM FieldValue
  | .primitive p => .primitive <$> p.parse
  | .staticArray len p => do
    StreamReader.alignTo p.desc.alignment
    let arr ← readArray p.parse len
    pure (.array arr)
  | .dynamicArray p => do
    -- the u32 length is always byte-packed
    let len ← StreamReader.readU32 .bits8
    StreamReader.alignTo p.desc.alignment
    let arr ← readArray p.parse len
    pure (.array arr)

/-! ## Enumeration labels and members -/

structure EnumerationMappings where
  mappings : List (String × List EnumerationFieldTypeMappingSequence)
deriving DecidableEq

def EnumerationMappings.fromStructFt : StructureMemberFieldType → Option EnumerationMappings
  | .unsignedEnumeration t | .signedEnumeration t => some ⟨t.mappings.entries⟩
  | _ => none

/-- The first label, in mapping order, one of whose sequences contains `v`. -/
def EnumerationMappings.label (m : EnumerationMappings) (v : Int) : Option String :=
  m.mappings.findSome? fun (label, values) => if values.any (·.contains v) then some label else none

structure EventPayloadMemberParser where
  memberName : String
  preferredDisplayBase : Option PreferredDisplayBase
  enumMappings : Option EnumerationMappings
  value : FieldTypeParser
deriving DecidableEq

/-- The value with the member's preferred display base, if it is an integer. -/
def EventPayloadMemberParser.withDisplayBase (m : EventPayloadMemberParser) :
    FieldValue → FieldValue
  | .primitive (.unsignedInteger v _) =>
    .primitive (.unsignedInteger v (m.preferredDisplayBase.getD default))
  | .primitive (.signedInteger v _) =>
    .primitive (.signedInteger v (m.preferredDisplayBase.getD default))
  | val => val

/-- The value as an enumeration with its label; unsigned values are converted to `i64`. -/
def EnumerationMappings.labelValue (mappings : EnumerationMappings) : FieldValue → FieldValue
  | .primitive (.unsignedInteger v pdb) =>
    .primitive (.enumeration (toSigned 64 v) pdb (mappings.label (toSigned 64 v)))
  | .primitive (.signedInteger v pdb) => .primitive (.enumeration v pdb (mappings.label v))
  | val => val

def EventPayloadMemberParser.parse (m : EventPayloadMemberParser) : ReadM FieldValue := do
  let val := m.withDisplayBase (← m.value.parse)
  match m.enumMappings with
  | some mappings => pure (mappings.labelValue val)
  | none => pure val

/-! ## Every parser takes a prefix of the source -/

namespace Reads

theorem throw {α : Type} (e : Fault) : Reads (MonadExcept.throw e : ReadM α) :=
  fun _ _ _ _ _ h => absurd h runs_throw

theorem readArray {α : Type} {m : ReadM α} (hm : Reads m) : ∀ n, Reads (BarectfParser.readArray m n)
  | 0 => pure []
  | n + 1 => hm.bind fun a => (readArray hm n).bind fun as => pure (a :: as)

end Reads

theorem UIntParser.reads (p : UIntParser) : Reads p.parse := by
  rw [p.parse_eq]; exact Reads.readWord _ _

theorem readU8Array_reads : ∀ n, Reads (readU8Array n)
  | 0 => Reads.pure _
  | n + 1 => (Reads.readWord _ _).bind fun _ => (readU8Array_reads n).bind fun _ => Reads.pure _

theorem UuidParser.reads (p : UuidParser) : Reads p.parse :=
  (Reads.alignTo _).bind fun _ => (readU8Array_reads 16).bind fun _ => Reads.pure _

theorem PrimitiveFieldTypeParser.reads (p : PrimitiveFieldTypeParser) : Reads p.parse := by
  cases p <;> simp only [PrimitiveFieldTypeParser.parse]
  all_goals first
    | exact Reads.map _ Reads.readString
    | split <;> first
      | exact Reads.map _ (Reads.readWord _ _)
      | exact Reads.map _ (Reads.map _ (Reads.readWord _ _))
      | exact Reads.throw _

theorem FieldTypeParser.reads (p : FieldTypeParser) : Reads p.parse := by
  cases p with
  | primitive p => exact Reads.map _ p.reads
  | staticArray len p =>
    exact (Reads.alignTo _).bind fun _ => (Reads.readArray p.reads len).bind fun _ => Reads.pure _
  | dynamicArray p =>
    exact (Reads.readWord _ _).bind fun len => (Reads.alignTo _).bind fun _ =>
      (Reads.readArray p.reads len).bind fun _ => Reads.pure _

theorem EventPayloadMemberParser.reads (m : EventPayloadMemberParser) : Reads m.parse :=
  m.value.reads.bind fun _ => by split <;> exact Reads.pure _

/-! ## Where the cursor ends -/

section
variable {bo : NativeByteOrder} {src : List UInt8} {c : AlignedCursor} {r' : StreamReader}

/-- A string, which the wire-size hints count as one byte. -/
def PrimitiveFieldTypeParser.isString : PrimitiveFieldTypeParser → Bool
  | .string _ => true
  | _ => false

/-- A member whose wire size is one element of its descriptor, as the wire-size hint counts it:
not a string or a dynamic array, and a static array only of one element that is not a string. -/
def FieldTypeParser.hasFixedWireSize : FieldTypeParser → Bool
  | .primitive p => !p.isString
  | .staticArray len p => len == 1 && !p.isString
  | .dynamicArray _ => false

theorem runs_readWord_cursor {size align : Size} {v : Nat}
    (h : Runs (StreamReader.readWord size align) ⟨bo, src, c⟩ v r') :
    r'.cursor = (c.alignTo align).2.increment size := by
  obtain ⟨_, _, _, -, -, -, -, rfl⟩ := runs_readWord.1 h
  rfl

theorem runs_map_readWord_cursor {β : Type} {f : Nat → β} {size align : Size} {v : β}
    (h : Runs (f <$> StreamReader.readWord size align) ⟨bo, src, c⟩ v r') :
    r'.cursor = (c.alignTo align).2.increment size := by
  obtain ⟨_, h, -⟩ := runs_map.1 h
  exact runs_readWord_cursor h

theorem UIntParser.runs_cursor {p : UIntParser} {v : Nat} (h : Runs p.parse ⟨bo, src, c⟩ v r') :
    r'.cursor = c.alignedIncrement p.desc := by
  rw [p.parse_eq] at h
  exact runs_readWord_cursor h

/-- On a byte boundary, a byte-aligned read does not pad. -/
theorem alignTo_bits8 (h8 : c.bitIndex % 8 = 0) : c.alignTo .bits8 = (0, c) :=
  alignTo_eq_self c .bits8 (.inl (Nat.dvd_of_mod_eq_zero h8))

theorem readU8Array_cursor {bs : { bs : List UInt8 // bs.length = n }} (h8 : c.bitIndex % 8 = 0)
    (h : Runs (readU8Array n) ⟨bo, src, c⟩ bs r') : r'.cursor.bitIndex = c.bitIndex + 8 * n := by
  induction n generalizing src c with
  | zero => obtain ⟨-, rfl⟩ := runs_pure.1 h; rfl
  | succ n ih =>
    obtain ⟨_, r1, h1, h⟩ := runs_bind.1 h
    obtain ⟨_, _, rest, -, -, -, -, rfl⟩ := runs_readWord.1 h1
    obtain ⟨bs', ⟨bo2, src2, c2⟩, h2, h⟩ := runs_bind.1 h
    obtain ⟨-, rfl⟩ := runs_pure.1 h
    rw [alignTo_bits8 h8] at h2
    have := ih (by simp [Size.bits]; omega) h2
    simp only [AlignedCursor.increment_bitIndex, Size.bits] at this ⊢
    omega

/-- The UUID: sixteen bytes from a byte boundary. -/
theorem UuidParser.runs_cursor {p : UuidParser} {u : Uuid} (h8 : c.bitIndex % 8 = 0)
    (h : Runs p.parse ⟨bo, src, c⟩ u r') : r'.cursor.bitIndex = c.bitIndex + 128 := by
  obtain ⟨_, r1, h1, h⟩ := runs_bind.1 h
  obtain ⟨_, rest, -, -, rfl⟩ := runs_alignTo.1 h1
  obtain ⟨_, ⟨bo2, src2, c2⟩, h2, h⟩ := runs_bind.1 h
  obtain ⟨-, rfl⟩ := runs_pure.1 h
  rw [alignTo_bits8 h8] at h2
  exact readU8Array_cursor h8 h2

theorem PrimitiveFieldTypeParser.runs_cursor {p : PrimitiveFieldTypeParser}
    {v : PrimitiveFieldValue} (hs : p.isString = false) (h : Runs p.parse ⟨bo, src, c⟩ v r') :
    r'.cursor = c.alignedIncrement p.desc := by
  cases p with
  | string => simp [PrimitiveFieldTypeParser.isString] at hs
  | real d =>
    obtain ⟨size, align⟩ := d
    cases size <;> simp only [PrimitiveFieldTypeParser.parse, StreamReader.readF32,
      StreamReader.readF64] at h
    · exact absurd h runs_throw
    · exact absurd h runs_throw
    · exact runs_map_readWord_cursor h
    · exact runs_map_readWord_cursor h
  | uInt d | uEnum d | int d | enum d =>
    obtain ⟨size, align⟩ := d
    cases size <;> simp only [PrimitiveFieldTypeParser.parse, StreamReader.readU8,
      StreamReader.readU16, StreamReader.readU32, StreamReader.readU64, StreamReader.readI8,
      StreamReader.readI16, StreamReader.readI32, StreamReader.readI64, Functor.map_map] at h <;>
      exact runs_map_readWord_cursor h

/-- A member of fixed wire size moves the cursor by one aligned element, as the hint counts. -/
theorem EventPayloadMemberParser.runs_cursor {m : EventPayloadMemberParser} {v : FieldValue}
    (hf : m.value.hasFixedWireSize) (h : Runs m.parse ⟨bo, src, c⟩ v r') :
    r'.cursor = c.alignedIncrement m.value.desc := by
  obtain ⟨v0, r1, h1, h⟩ := runs_bind.1 h
  have : r1 = r' := by split at h <;> exact (runs_pure.1 h).2
  subst this
  cases hv : m.value with
  | primitive p =>
    rw [hv] at h1 hf
    simp only [FieldTypeParser.hasFixedWireSize, Bool.not_eq_true'] at hf
    obtain ⟨_, h1, -⟩ := runs_map.1 h1
    exact PrimitiveFieldTypeParser.runs_cursor hf h1
  | staticArray len p =>
    rw [hv] at h1 hf
    simp only [FieldTypeParser.hasFixedWireSize, Bool.and_eq_true, beq_iff_eq, Bool.not_eq_true']
      at hf
    obtain ⟨rfl, hs⟩ := hf
    obtain ⟨_, _, ha, h1⟩ := runs_bind.1 h1
    obtain ⟨_, rest, -, -, rfl⟩ := runs_alignTo.1 ha
    obtain ⟨_, _, h2, h1⟩ := runs_bind.1 h1
    obtain ⟨-, rfl⟩ := runs_pure.1 h1
    obtain ⟨_, ⟨bo3, src3, c3⟩, h3, h2⟩ := runs_bind.1 h2
    obtain ⟨_, _, h4, h2⟩ := runs_bind.1 h2
    obtain ⟨-, rfl⟩ := runs_pure.1 h4
    obtain ⟨-, rfl⟩ := runs_pure.1 h2
    rw [PrimitiveFieldTypeParser.runs_cursor hs h3]
    simp only [AlignedCursor.alignedIncrement, alignTo_alignTo, FieldTypeParser.desc]
  | dynamicArray p => rw [hv] at hf; cases hf

end

/-! ## Sequences of reader calls -/

/-- The calls on a reader: `align_to`, `read_u8` ... `read_f64`, `read_string` and the parsers. -/
inductive ReaderCall
  | alignTo (a : Size)
  | readU8 (a : Size)
  | readI8 (a : Size)
  | readU16 (a : Size)
  | readI16 (a : Size)
  | readU32 (a : Size)
  | readI32 (a : Size)
  | readF32 (a : Size)
  | readU64 (a : Size)
  | readI64 (a : Size)
  | readF64 (a : Size)
  | readString
  | uuid (p : UuidParser)
  | uint (p : UIntParser)
  | primitive (p : PrimitiveFieldTypeParser)
  | field (p : FieldTypeParser)

def ReaderCall.run : ReaderCall → ReadM Unit
  | .alignTo a => StreamReader.alignTo a
  | .readU8 a => discard (StreamReader.readU8 a)
  | .readI8 a => discard (StreamReader.readI8 a)
  | .readU16 a => discard (StreamReader.readU16 a)
  | .readI16 a => discard (StreamReader.readI16 a)
  | .readU32 a => discard (StreamReader.readU32 a)
  | .readI32 a => discard (StreamReader.readI32 a)
  | .readF32 a => discard (StreamReader.readF32 a)
  | .readU64 a => discard (StreamReader.readU64 a)
  | .readI64 a => discard (StreamReader.readI64 a)
  | .readF64 a => discard (StreamReader.readF64 a)
  | .readString => discard StreamReader.readString
  | .uuid p => discard p.parse
  | .uint p => discard p.parse
  | .primitive p => discard p.parse
  | .field p => discard p.parse

def runCalls : List ReaderCall → ReadM Unit
  | [] => pure ()
  | call :: calls => do
    call.run
    runCalls calls

theorem ReaderCall.reads (call : ReaderCall) : Reads call.run := by
  cases call <;> unfold ReaderCall.run <;> first
    | exact Reads.alignTo _
    | exact Reads.map _ (Reads.readWord _ _)
    | exact Reads.map _ (Reads.map _ (Reads.readWord _ _))
    | exact Reads.map _ Reads.readString
    | exact Reads.map _ (UuidParser.reads _)
    | exact Reads.map _ (UIntParser.reads _)
    | exact Reads.map _ (PrimitiveFieldTypeParser.reads _)
    | exact Reads.map _ (FieldTypeParser.reads _)

theorem runCalls_reads : ∀ calls, Reads (runCalls calls)
  | [] => Reads.pure ()
  | call :: calls => call.reads.bind fun _ => runCalls_reads calls

/-- A reader created with a cursor on a byte boundary stays on one through every sequence of
successful calls, and the bytes taken from the source are the bits the cursor moved, over 8. -/
theorem runCalls_cursor_tracks_source (calls : List ReaderCall) (bo : NativeByteOrder)
    (c : AlignedCursor) (src : List UInt8) (r' : StreamReader) (h8 : c.bitIndex % 8 = 0)
    (h : Runs (runCalls calls) (StreamReader.newWithCursor bo c src) () r') :
    r'.cursor.bitIndex % 8 = 0 ∧
      ∃ taken, src = taken ++ r'.src ∧ taken.length = (r'.cursor.bitIndex - c.bitIndex) / 8 := by
  obtain ⟨taken, hs, -, hc, -⟩ := runCalls_reads calls bo src c () r' h
  have := hc h8
  exact ⟨by omega, taken, hs, by omega⟩

/-- A `read_u16` from bit 8 pads one byte and reads two: three bytes for 24 bits. -/
theorem runCalls_readU16_from_eight :
    (8 : Nat) % 8 = 0 ∧
      Runs (runCalls [.readU16 .bits16]) (StreamReader.newWithCursor .littleEndian ⟨8⟩ [0, 1, 2, 3])
        () ⟨.littleEndian, [3], ⟨32⟩⟩ ∧
      ∃ taken, [0, 1, 2, 3] = taken ++ [(3 : UInt8)] ∧ taken.length = (32 - 8) / 8 :=
  have h : Runs (runCalls [.readU16 .bits16])
      (StreamReader.newWithCursor .littleEndian ⟨8⟩ [0, 1, 2, 3]) () ⟨.littleEndian, [3], ⟨32⟩⟩ :=
    rfl
  ⟨by decide, h, (runCalls_cursor_tracks_source _ _ _ _ _ (by decide) h).2⟩

end BarectfParser
