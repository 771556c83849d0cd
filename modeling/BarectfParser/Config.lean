import Mathlib

/-!
# The effective configuration

The schema a `Parser` is built from (`src/config.rs`): field types, structure field types, the
`$features` of the trace type and of each data stream type, and the `FieldType` trait's sizes,
alignments and display bases. A `BTreeMap<String, _>` is a `BTreeMap`, a list of entries whose
keys strictly increase, so iterating it visits the names in lexicographic order.

Fields no function of the parser reads are left out: `Config.options`, `Trace.environment`,
`DataStreamType.is_default` and `StructureFieldType.minimum_alignment`.
-/

namespace BarectfParser

/-! ## Maps and UUIDs -/

/-- `BTreeMap<String, α>`: its entries, in strictly increasing key order. -/
structure BTreeMap (α : Type) where
  entries : List (String × α)
  sorted : entries.Pairwise (fun a b => a.1 < b.1)

instance {α : Type} [DecidableEq α] : DecidableEq (BTreeMap α) := fun a b =>
  decidable_of_iff (a.entries = b.entries) (by cases a; cases b; simp)

/-- `BTreeMap::get`. -/
def BTreeMap.get {α : Type} (m : BTreeMap α) (k : String) : Option α := m.entries.lookup k

/-- `BTreeMap::values`. -/
def BTreeMap.values {α : Type} (m : BTreeMap α) : List α := m.entries.map (·.2)

/-- `uuid::Uuid`: sixteen bytes. -/
structure Uuid where
  bytes : List UInt8
  size_eq : bytes.length = 16
deriving DecidableEq, Repr

/-! ## Field types -/

inductive NativeByteOrder
  | littleEndian
  | bigEndian
deriving DecidableEq, Repr

inductive PreferredDisplayBase
  | binary
  | octal
  | decimal
  | hexadecimal
deriving DecidableEq, Repr

/-- `#[default] Decimal`. -/
instance : Inhabited PreferredDisplayBase := ⟨.decimal⟩

/-- Alignment of a field type's instances within a CTF packet (bits); always 8, as bit-packed
types are not supported. -/
def defaultAlignmentBits : Nat := 8

structure IntegerFieldType where
  size : Nat
  alignment : Nat
  preferredDisplayBase : PreferredDisplayBase
deriving DecidableEq, Repr

structure UnsignedIntegerFieldType where
  fieldType : IntegerFieldType
deriving DecidableEq, Repr

structure RealFieldType where
  size : Nat
  alignment : Nat
deriving DecidableEq, Repr

inductive EnumerationFieldTypeMappingSequence
  | inclusiveRange (min max : Int)
  | value (v : Int)
deriving DecidableEq, Repr

/-- Whether the mapping sequence element contains the value. -/
def EnumerationFieldTypeMappingSequence.contains :
    EnumerationFieldTypeMappingSequence → Int → Bool
  | .inclusiveRange lo hi, x => decide (x ≥ lo) && decide (x ≤ hi)
  | .value v, x => decide (v = x)

structure EnumerationFieldType where
  size : Nat
  alignment : Nat
  preferredDisplayBase : PreferredDisplayBase
  mappings : BTreeMap (List EnumerationFieldTypeMappingSequence)
deriving DecidableEq

/-- Primitive field types, the element types of static and dynamic arrays. -/
inductive PrimitiveFieldType
  | unsignedInteger (t : IntegerFieldType)
  | signedInteger (t : IntegerFieldType)
  | string
  | real (t : RealFieldType)
  | unsignedEnumeration (t : EnumerationFieldType)
  | signedEnumeration (t : EnumerationFieldType)
deriving DecidableEq

structure StaticArrayFieldType where
  length : Nat
  elementFieldType : PrimitiveFieldType
deriving DecidableEq

structure DynamicArrayFieldType where
  elementFieldType : PrimitiveFieldType
deriving DecidableEq

/-- Field types of structure members. -/
inductive StructureMemberFieldType
  | unsignedInteger (t : IntegerFieldType)
  | signedInteger (t : IntegerFieldType)
  | string
  | real (t : RealFieldType)
  | unsignedEnumeration (t : EnumerationFieldType)
  | signedEnumeration (t : EnumerationFieldType)
  | staticArray (t : StaticArrayFieldType)
  | dynamicArray (t : DynamicArrayFieldType)
deriving DecidableEq

structure StructureFieldTypeMember where
  fieldType : StructureMemberFieldType
deriving DecidableEq

structure StructureFieldType where
  members : List (BTreeMap StructureFieldTypeMember)
deriving DecidableEq

/-- A `$features` field type: `false`, or an unsigned integer field type. -/
inductive FeaturesUnsignedIntegerFieldType
  | false
  | unsignedInteger (ft : UnsignedIntegerFieldType)
deriving DecidableEq

/-! ## The `FieldType` trait -/

/-- The `FieldType` trait: size (bits), alignment (bits) and preferred display base. -/
class FieldType (α : Type) where
  size : α → Nat
  alignment : α → Nat
  preferredDisplayBase : α → Option PreferredDisplayBase

instance : FieldType IntegerFieldType := ⟨(·.size), (·.alignment), (some ·.preferredDisplayBase)⟩

instance : FieldType RealFieldType := ⟨(·.size), (·.alignment), fun _ => none⟩

def PrimitiveFieldType.size : PrimitiveFieldType → Nat
  | .unsignedInteger t | .signedInteger t => t.size
  | .unsignedEnumeration t | .signedEnumeration t => t.size
  | .real t => t.size
  | .string => 8

def PrimitiveFieldType.alignment : PrimitiveFieldType → Nat
  | .unsignedInteger t | .signedInteger t => t.alignment
  | .unsignedEnumeration t | .signedEnumeration t => t.alignment
  | .real t => t.alignment
  | .string => 8

def PrimitiveFieldType.preferredDisplayBase : PrimitiveFieldType → Option PreferredDisplayBase
  | .unsignedInteger t | .signedInteger t => some t.preferredDisplayBase
  | .unsignedEnumeration t | .signedEnumeration t => some t.preferredDisplayBase
  | .string | .real _ => none

instance : FieldType PrimitiveFieldType :=
  ⟨PrimitiveFieldType.size, PrimitiveFieldType.alignment, PrimitiveFieldType.preferredDisplayBase⟩

def StructureMemberFieldType.size : StructureMemberFieldType → Nat
  | .unsignedInteger t | .signedInteger t => t.size
  | .unsignedEnumeration t | .signedEnumeration t => t.size
  | .real t => t.size
  | .string => 8
  | .staticArray t => t.elementFieldType.size
  | .dynamicArray t => t.elementFieldType.size

def StructureMemberFieldType.alignment : StructureMemberFieldType → Nat
  | .unsignedInteger t | .signedInteger t => t.alignment
  | .unsignedEnumeration t | .signedEnumeration t => t.alignment
  | .real t => t.alignment
  | .string => 8
  | .staticArray t => t.elementFieldType.alignment
  | .dynamicArray t => t.elementFieldType.alignment

def StructureMemberFieldType.preferredDisplayBase :
    StructureMemberFieldType → Option PreferredDisplayBase
  | .unsignedInteger t | .signedInteger t => some t.preferredDisplayBase
  | .unsignedEnumeration t | .signedEnumeration t => some t.preferredDisplayBase
  | .staticArray t => t.elementFieldType.preferredDisplayBase
  | .dynamicArray t => t.elementFieldType.preferredDisplayBase
  | .string | .real _ => none

instance : FieldType StructureMemberFieldType :=
  ⟨StructureMemberFieldType.size, StructureMemberFieldType.alignment,
    StructureMemberFieldType.preferredDisplayBase⟩

/-! ## Structures and features -/

/-- The members of a list of single-key maps, in order (`.iter().flat_map(|m| m.iter())`). -/
def memberEntries (ms : List (BTreeMap StructureFieldTypeMember)) :
    List (String × StructureFieldTypeMember) :=
  ms.flatMap (·.entries)

/-- The largest alignment of the members (bits), 8 when there is none. -/
def membersAlignment (ms : List (BTreeMap StructureFieldTypeMember)) : Nat :=
  (((memberEntries ms).map (·.2.fieldType.alignment)).max?).getD defaultAlignmentBits

/-- `StructureFieldType::alignment`. -/
def StructureFieldType.alignment (s : StructureFieldType) : Nat := membersAlignment s.members

def FeaturesUnsignedIntegerFieldType.alignment : FeaturesUnsignedIntegerFieldType → Nat
  | .false => 0
  | .unsignedInteger ft => ft.fieldType.alignment

def FeaturesUnsignedIntegerFieldType.asFt :
    FeaturesUnsignedIntegerFieldType → Option UnsignedIntegerFieldType
  | .false => none
  | .unsignedInteger ft => some ft

structure ClockTypeOffset where
  seconds : Int
  cycles : Nat
deriving DecidableEq

structure ClockType where
  frequency : Nat
  offset : Option ClockTypeOffset
  originIsUnixEpoch : Bool
  precision : Nat
  uuid : Option Uuid
  description : Option String
  cType : String
deriving DecidableEq

structure EventRecordType where
  logLevel : Option Int
  specificContextFieldType : Option StructureFieldType
  payloadFieldType : Option StructureFieldType
deriving DecidableEq

structure DataStreamTypePacketFeatures where
  totalSizeFieldType : UnsignedIntegerFieldType
  contentSizeFieldType : UnsignedIntegerFieldType
  beginningTimestampFieldType : FeaturesUnsignedIntegerFieldType
  endTimestampFieldType : FeaturesUnsignedIntegerFieldType
  discardedEventRecordsCounterSnapshotFieldType : FeaturesUnsignedIntegerFieldType
  sequenceNumberFieldType : FeaturesUnsignedIntegerFieldType
deriving DecidableEq

/-- The largest alignment of the packet context features (bits). -/
def DataStreamTypePacketFeatures.alignment (f : DataStreamTypePacketFeatures) : Nat :=
  max (max (max f.totalSizeFieldType.fieldType.alignment f.contentSizeFieldType.fieldType.alignment)
    (max f.beginningTimestampFieldType.alignment f.endTimestampFieldType.alignment))
    (max f.discardedEventRecordsCounterSnapshotFieldType.alignment
      f.sequenceNumberFieldType.alignment)

structure DataStreamTypeEventRecordFeatures where
  typeIdFieldType : UnsignedIntegerFieldType
  timestampFieldType : UnsignedIntegerFieldType
deriving DecidableEq

/-- The largest alignment of the event header (bits). -/
def DataStreamTypeEventRecordFeatures.alignment (f : DataStreamTypeEventRecordFeatures) : Nat :=
  max f.typeIdFieldType.fieldType.alignment f.timestampFieldType.fieldType.alignment

structure DataStreamTypeFeatures where
  packet : DataStreamTypePacketFeatures
  eventRecord : DataStreamTypeEventRecordFeatures
deriving DecidableEq

/-- `PacketContextExtraMembers`. -/
structure PacketContextExtraMembers where
  members : List (BTreeMap StructureFieldTypeMember)
deriving DecidableEq

/-- `PacketContextExtraMembers::alignment`. -/
def PacketContextExtraMembers.alignment (m : PacketContextExtraMembers) : Nat :=
  membersAlignment m.members

structure DataStreamType where
  defaultClockTypeName : Option String
  features : DataStreamTypeFeatures
  packetContextFieldTypeExtraMembers : PacketContextExtraMembers
  eventRecordCommonContextFieldType : Option StructureFieldType
  eventRecordTypes : BTreeMap EventRecordType
deriving DecidableEq

structure TraceTypeFeatures where
  magicFieldType : FeaturesUnsignedIntegerFieldType
  uuidFieldType : Bool
  dataStreamTypeIdFieldType : UnsignedIntegerFieldType
deriving DecidableEq

/-- The largest alignment of the packet header (bits); the UUID is always byte-packed. -/
def TraceTypeFeatures.alignment (f : TraceTypeFeatures) : Nat :=
  max (max f.magicFieldType.alignment (if f.uuidFieldType then defaultAlignmentBits else 0))
    f.dataStreamTypeIdFieldType.fieldType.alignment

structure TraceType where
  nativeByteOrder : NativeByteOrder
  uuid : Option Uuid
  features : TraceTypeFeatures
  clockTypes : BTreeMap ClockType
  dataStreamTypes : BTreeMap DataStreamType
deriving DecidableEq

structure Trace where
  typ : TraceType
deriving DecidableEq

/-- The barectf configuration object. -/
structure Config where
  trace : Trace
deriving DecidableEq

end BarectfParser
