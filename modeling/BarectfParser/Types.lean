import BarectfParser.Config

/-!
# Decoded values, events, packets and errors

`src/types/mod.rs`, `src/types/event.rs`, `src/types/packet.rs` and `src/error.rs`. Interned
names are `String`s. A decoded string is its UTF-8 bytes. A real is carried as the IEEE 754 bit
pattern of the word read (`f32::from_bits`, `f64::from_bits`): equality of the model's values is
bit equality, finer than `OrderedFloat`'s.
-/

namespace BarectfParser

/-! ## Field values -/

inductive PrimitiveFieldValue
  | unsignedInteger (v : Nat) (pdb : PreferredDisplayBase)
  | signedInteger (v : Int) (pdb : PreferredDisplayBase)
  | string (s : List UInt8)
  | f32 (bits : Nat)
  | f64 (bits : Nat)
  | enumeration (v : Int) (pdb : PreferredDisplayBase) (label : Option String)
deriving DecidableEq, Repr

inductive FieldValue
  | primitive (v : PrimitiveFieldValue)
  | array (vs : List PrimitiveFieldValue)
deriving DecidableEq, Repr

/-- `LogLevel`, with the `catch_all` variant for the other numeric levels. -/
inductive LogLevel
  | emergency | alert | critical | error | warning | notice | info
  | debugSystem | debugProgram | debugProcess | debugModule | debugUnit | debugFunction
  | debugLine | debug
  | other (v : Int)
deriving DecidableEq, Repr

/-- `LogLevel::from(i32)` (`FromPrimitive`). -/
def LogLevel.ofI32 : Int → LogLevel
  | 0 => .emergency
  | 1 => .alert
  | 2 => .critical
  | 3 => .error
  | 4 => .warning
  | 5 => .notice
  | 6 => .info
  | 7 => .debugSystem
  | 8 => .debugProgram
  | 9 => .debugProcess
  | 10 => .debugModule
  | 11 => .debugUnit
  | 12 => .debugFunction
  | 13 => .debugLine
  | 14 => .debug
  | v => .other v

/-! ## Events and packets -/

structure Event where
  id : Nat
  name : String
  timestamp : Nat
  logLevel : Option LogLevel
  commonContext : List (String × FieldValue)
  specificContext : List (String × FieldValue)
  payload : List (String × FieldValue)
deriving DecidableEq

structure PacketHeader where
  magicNumber : Option Nat
  traceUuid : Option Uuid
  streamId : Nat
  streamName : String
  clockName : Option String
  clockType : Option ClockType
deriving DecidableEq

/-- `PacketHeader::MAGIC`. -/
def PacketHeader.MAGIC : Nat := 0xC1FC1FC1

structure PacketContext where
  packetSizeBits : Nat
  contentSizeBits : Nat
  beginningTimestamp : Option Nat
  endTimestamp : Option Nat
  eventsDiscarded : Option Nat
  sequenceNumber : Option Nat
  extraMembers : List (String × FieldValue)
deriving DecidableEq

/-- Event packet size (bytes). -/
def PacketContext.packetSize (c : PacketContext) : Nat := c.packetSizeBits >>> 3

structure Packet where
  header : PacketHeader
  context : PacketContext
  events : List Event
deriving DecidableEq

/-! ## Errors -/

inductive IoErrorKind
  | unexpectedEof
deriving DecidableEq, Repr

inductive Error
  | invalidFloatSize (size : Nat)
  | unsupportedFieldType (path : String) (size alignment : Nat)
  | unsupportedAlignment (path : String)
  | undefinedStreamId (id : Nat)
  | undefinedEventId (id : Nat)
  | io (kind : IoErrorKind)
deriving DecidableEq, Repr

/-- `FieldUnsupportedError(width, alignment)`. -/
structure FieldUnsupportedError where
  width : Nat
  alignment : Nat
deriving DecidableEq, Repr

/-- `Error::unsupported_ft`. -/
def Error.unsupportedFt (f : String) (ft : FieldUnsupportedError) : Error :=
  .unsupportedFieldType f ft.width ft.alignment

/-- How a call ends when it does not return a value: an `Error`; the panic of an integer
operation that overflows (overflow checks on): `attempt to subtract with overflow` of a `usize`
subtraction that underflows, `attempt to add with overflow` of the `u32` increment of
`TrackingInstant::elapsed`; the panic of a failed `debug_assert!` in a build with debug
assertions. `outOfFuel` is the model's own: the bounded event loop of `parse_events` run out of
iterations, which its bound never allows (`parse_never_out_of_fuel`). -/
inductive Fault
  | error (e : Error)
  | subtractOverflow
  | addOverflow
  | debugAssertion
  | outOfFuel
deriving DecidableEq, Repr

end BarectfParser
