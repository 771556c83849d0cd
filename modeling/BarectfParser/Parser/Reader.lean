import BarectfParser.Parser.Cursor
import BarectfParser.Utf8

/-!
# The stream reader

`StreamReader` (`src/parser/types.rs`) over a finite byte source: the byte order, the bytes the
source has still to give and the cursor. A reader call is a `ReadM` computation; the only failure
of the source is running out of bytes (`UnexpectedEof`).

`Reads m`: every run of `m` takes a prefix of the source, moves the cursor by eight bits per byte
taken when it starts on a byte boundary, and runs the same way whatever bytes follow the prefix.
It holds of every primitive read (`reads_alignTo`, `reads_readWord`, `reads_readString`) and is
kept by `pure`, `>>=` and `List.mapM` (`Reads.bind`, `Reads.mapM`), so of every parser built from
them. `StreamReader.readString_valid`: a string read is well-formed UTF-8 with no NUL.
-/

namespace BarectfParser

structure StreamReader where
  byteOrder : NativeByteOrder
  src : List UInt8
  cursor : AlignedCursor
deriving DecidableEq

/-- A call on a reader. -/
abbrev ReadM := StateT StreamReader (Except Fault)

def StreamReader.new (byteOrder : NativeByteOrder) (src : List UInt8) : StreamReader :=
  ⟨byteOrder, src, default⟩

def StreamReader.newWithCursor (byteOrder : NativeByteOrder) (cursor : AlignedCursor)
    (src : List UInt8) : StreamReader :=
  ⟨byteOrder, src, cursor⟩

def eof : Fault := .error (.io .unexpectedEof)

/-! ## The byte source -/

/-- `inner.read_u8()`: one byte from the source, the cursor untouched. -/
def readByte : ReadM UInt8 := fun r =>
  match r.src with
  | [] => .error eof
  | b :: rest => .ok (b, { r with src := rest })

/-- `read_exact` of `n` bytes. -/
def readExact : Nat → ReadM (List UInt8)
  | 0 => pure []
  | n + 1 => do
    let b ← readByte
    let bs ← readExact n
    pure (b :: bs)

/-- Discards `n` bytes, one at a time. -/
def skipBytes (n : Nat) : ReadM Unit := do
  let _ ← readExact n

/-- The value of bytes in little-endian order. -/
def leValue : List UInt8 → Nat
  | [] => 0
  | b :: bs => b.toNat + 256 * leValue bs

/-- The unsigned value of a word's bytes in the reader's byte order. -/
def NativeByteOrder.decode : NativeByteOrder → List UInt8 → Nat
  | .littleEndian, bs => leValue bs
  | .bigEndian, bs => leValue bs.reverse

/-- A two's complement word of `bits` bits as a signed value. -/
def toSigned (bits v : Nat) : Int := if v < 2 ^ (bits - 1) then v else (v : Int) - 2 ^ bits

/-! ## Reader calls -/

def StreamReader.cursorBits : ReadM Nat := fun r => .ok (r.cursor.cursorBits, r)

def StreamReader.intoCursor : ReadM AlignedCursor := fun r => .ok (r.cursor, r)

@[simp] theorem StreamReader.run_cursorBits (r : StreamReader) :
    StreamReader.cursorBits.run r = .ok (r.cursor.bitIndex, r) := rfl

/-- Moves the cursor to the alignment and reads the padding, one byte at a time. -/
def StreamReader.alignTo (align : Size) : ReadM Unit := do
  let r ← get
  let (padding, cursor) := r.cursor.alignTo align
  set { r with cursor := cursor }
  skipBytes (padding >>> 3)

def StreamReader.increment (size : Size) : ReadM Unit :=
  modify fun r => { r with cursor := r.cursor.increment size }

/-- The read calls `read_u8` ... `read_f64`: align, read `size` bits in the reader's byte order,
advance the cursor. The word is returned unsigned. -/
def StreamReader.readWord (size align : Size) : ReadM Nat := do
  StreamReader.alignTo align
  let bytes ← readExact (size.bits / 8)
  StreamReader.increment size
  let r ← get
  pure (r.byteOrder.decode bytes)

def StreamReader.readU8 (align : Size) : ReadM Nat := StreamReader.readWord .bits8 align
def StreamReader.readU16 (align : Size) : ReadM Nat := StreamReader.readWord .bits16 align
def StreamReader.readU32 (align : Size) : ReadM Nat := StreamReader.readWord .bits32 align
def StreamReader.readU64 (align : Size) : ReadM Nat := StreamReader.readWord .bits64 align

def StreamReader.readI8 (align : Size) : ReadM Int := toSigned 8 <$> StreamReader.readWord .bits8 align
def StreamReader.readI16 (align : Size) : ReadM Int :=
  toSigned 16 <$> StreamReader.readWord .bits16 align
def StreamReader.readI32 (align : Size) : ReadM Int :=
  toSigned 32 <$> StreamReader.readWord .bits32 align
def StreamReader.readI64 (align : Size) : ReadM Int :=
  toSigned 64 <$> StreamReader.readWord .bits64 align

/-- `read_f32`: the bit pattern of the word read. -/
def StreamReader.readF32 (align : Size) : ReadM Nat := StreamReader.readWord .bits32 align
/-- `read_f64`: the bit pattern of the word read. -/
def StreamReader.readF64 (align : Size) : ReadM Nat := StreamReader.readWord .bits64 align

/-- The loop of `read_string`: bytes up to the NUL, each advancing the cursor by 8 bits; the NUL
is taken and not kept. -/
def readStringLoop : List UInt8 → AlignedCursor →
    Except Fault (List UInt8 × List UInt8 × AlignedCursor)
  | [], _ => .error eof
  | b :: rest, c =>
    if b = 0 then .ok ([], rest, c.increment .bits8)
    else (readStringLoop rest (c.increment .bits8)).map fun (s, src, c') => (b :: s, src, c')

def StreamReader.readString : ReadM (List UInt8) := do
  StreamReader.alignTo .bits8
  let cstr ← fun r =>
    (readStringLoop r.src r.cursor).map fun (s, src, c) => (s, { r with src := src, cursor := c })
  pure (fromUtf8Lossy cstr)

/-! ## Runs -/

@[simp] theorem except_ok_bind {ε α β : Type} (a : α) (f : α → Except ε β) :
    (Except.ok a >>= f) = f a := rfl
@[simp] theorem except_error_bind {ε α β : Type} (e : ε) (f : α → Except ε β) :
    (Except.error e >>= f) = Except.error e := rfl
@[simp] theorem except_pure {ε α : Type} (a : α) : (pure a : Except ε α) = .ok a := rfl

theorem except_bind_eq_ok {ε α β : Type} {x : Except ε α} {f : α → Except ε β} {b : β} :
    x >>= f = .ok b ↔ ∃ a, x = .ok a ∧ f a = .ok b := by
  cases x <;> simp

/-- `m` run from `r` returns `a` and leaves `r'`. -/
def Runs {α : Type} (m : ReadM α) (r : StreamReader) (a : α) (r' : StreamReader) : Prop :=
  m.run r = .ok (a, r')

section
variable {α β : Type} {r r' r'' : StreamReader} {a a' : α} {b : β}

theorem runs_bind {x : ReadM α} {f : α → ReadM β} :
    Runs (x >>= f) r b r'' ↔ ∃ a r', Runs x r a r' ∧ Runs (f a) r' b r'' := by
  simp only [Runs, StateT.run_bind]
  rcases h : x.run r with e | ⟨a, r'⟩ <;> simp [and_assoc]

theorem runs_pure : Runs (pure a : ReadM α) r a' r' ↔ a = a' ∧ r = r' := by
  simp [Runs, StateT.run_pure]

theorem runs_throw {e : Fault} : ¬Runs (throw e : ReadM α) r a r' := by
  simp [Runs, StateT.run, MonadExcept.throw, throwThe, MonadExceptOf.throw, StateT.lift]

theorem runs_map {f : α → β} {x : ReadM α} :
    Runs (f <$> x) r b r' ↔ ∃ a, Runs x r a r' ∧ f a = b := by
  rw [← bind_pure_comp, runs_bind]
  simp only [runs_pure]
  constructor
  · rintro ⟨a, r'', h, rfl, rfl⟩; exact ⟨a, h, rfl⟩
  · rintro ⟨a, h, rfl⟩; exact ⟨a, r', h, rfl, rfl⟩

/-- After a run of `x`, a bind goes on from where `x` stopped, whatever the rest does. -/
theorem run_bind_of_runs {x : ReadM α} {f : α → ReadM β} (h : Runs x r a r') :
    (x >>= f).run r = (f a).run r' := by
  simp only [StateT.run_bind]
  rw [h]
  rfl

end

section
variable {bo : NativeByteOrder} {src : List UInt8} {c : AlignedCursor} {r' : StreamReader}

theorem runs_readByte {b : UInt8} :
    Runs readByte ⟨bo, src, c⟩ b r' ↔ ∃ rest, src = b :: rest ∧ r' = ⟨bo, rest, c⟩ := by
  cases src with
  | nil => simp [Runs, readByte, eof, StateT.run]
  | cons x rest =>
    simp only [Runs, readByte, StateT.run, Except.ok.injEq, Prod.mk.injEq, List.cons.injEq]
    constructor
    · rintro ⟨rfl, rfl⟩; exact ⟨rest, ⟨rfl, rfl⟩, rfl⟩
    · rintro ⟨_, ⟨rfl, rfl⟩, rfl⟩; exact ⟨rfl, rfl⟩

theorem runs_readExact {n : Nat} {bs : List UInt8} :
    Runs (readExact n) ⟨bo, src, c⟩ bs r' ↔
      bs.length = n ∧ ∃ rest, src = bs ++ rest ∧ r' = ⟨bo, rest, c⟩ := by
  induction n generalizing src bs with
  | zero =>
    simp only [readExact, runs_pure, List.length_eq_zero]
    constructor
    · rintro ⟨rfl, rfl⟩; exact ⟨rfl, src, rfl, rfl⟩
    · rintro ⟨rfl, _, rfl, rfl⟩; exact ⟨rfl, rfl⟩
  | succ n ih =>
    simp only [readExact, runs_bind, runs_pure, runs_readByte]
    constructor
    · rintro ⟨b, _, ⟨rest, rfl, rfl⟩, bs', _, h, rfl, rfl⟩
      obtain ⟨hl, rest', rfl, rfl⟩ := ih.1 h
      exact ⟨by simp [hl], rest', rfl, rfl⟩
    · rintro ⟨hl, rest, rfl, rfl⟩
      obtain ⟨b, bs', rfl⟩ := List.exists_cons_of_length_eq_add_one hl
      exact ⟨b, _, ⟨_, rfl, rfl⟩, bs', _, ih.2 ⟨by simpa using hl, rest, rfl, rfl⟩, rfl, rfl⟩

theorem runs_skipBytes {n : Nat} {u : Unit} :
    Runs (skipBytes n) ⟨bo, src, c⟩ u r' ↔
      ∃ pad rest, pad.length = n ∧ src = pad ++ rest ∧ r' = ⟨bo, rest, c⟩ := by
  simp only [skipBytes, runs_bind, runs_pure, runs_readExact]
  constructor
  · rintro ⟨pad, _, ⟨hl, rest, rfl, rfl⟩, -, rfl⟩; exact ⟨pad, rest, hl, rfl, rfl⟩
  · rintro ⟨pad, rest, hl, rfl, rfl⟩; exact ⟨pad, _, ⟨hl, rest, rfl, rfl⟩, trivial, rfl⟩

theorem runs_alignTo {align : Size} {u : Unit} :
    Runs (StreamReader.alignTo align) ⟨bo, src, c⟩ u r' ↔
      ∃ pad rest, pad.length = (c.alignTo align).1 >>> 3 ∧ src = pad ++ rest ∧
        r' = ⟨bo, rest, (c.alignTo align).2⟩ := by
  simp only [StreamReader.alignTo, runs_bind, Runs, StateT.run_get, StateT.run_set]
  exact runs_skipBytes

theorem runs_get {r'' : StreamReader} :
    Runs (get : ReadM StreamReader) ⟨bo, src, c⟩ r'' r' ↔
      r'' = ⟨bo, src, c⟩ ∧ r' = ⟨bo, src, c⟩ := by
  simp [Runs, StateT.run_get, eq_comm]

theorem runs_increment {size : Size} {u : Unit} :
    Runs (StreamReader.increment size) ⟨bo, src, c⟩ u r' ↔ r' = ⟨bo, src, c.increment size⟩ := by
  simp [Runs, StreamReader.increment, StateT.run_modify, eq_comm]

theorem runs_readWord {size align : Size} {v : Nat} :
    Runs (StreamReader.readWord size align) ⟨bo, src, c⟩ v r' ↔
      ∃ pad bytes rest, pad.length = (c.alignTo align).1 >>> 3 ∧ bytes.length = size.bits / 8 ∧
        src = pad ++ bytes ++ rest ∧ v = bo.decode bytes ∧
        r' = ⟨bo, rest, (c.alignTo align).2.increment size⟩ := by
  constructor
  · intro h
    obtain ⟨_, _, h1, h⟩ := runs_bind.1 h
    obtain ⟨pad, _, hp, rfl, rfl⟩ := runs_alignTo.1 h1
    obtain ⟨bytes, _, h2, h⟩ := runs_bind.1 h
    obtain ⟨hb, rest, rfl, rfl⟩ := runs_readExact.1 h2
    obtain ⟨_, _, h3, h⟩ := runs_bind.1 h
    obtain rfl := runs_increment.1 h3
    obtain ⟨_, _, h4, h⟩ := runs_bind.1 h
    obtain ⟨rfl, rfl⟩ := runs_get.1 h4
    obtain ⟨rfl, rfl⟩ := runs_pure.1 h
    exact ⟨pad, bytes, rest, hp, hb, by simp, rfl, rfl⟩
  · rintro ⟨pad, bytes, rest, hp, hb, rfl, rfl, rfl⟩
    exact runs_bind.2 ⟨(), _, runs_alignTo.2 ⟨pad, _, hp, by simp, rfl⟩,
      runs_bind.2 ⟨bytes, _, runs_readExact.2 ⟨hb, rest, rfl, rfl⟩,
        runs_bind.2 ⟨(), _, runs_increment.2 rfl,
          runs_bind.2 ⟨_, _, runs_get.2 ⟨rfl, rfl⟩, runs_pure.2 ⟨rfl, rfl⟩⟩⟩⟩⟩

/-- The loop reads up to the first NUL. -/
theorem readStringLoop_append {s rest : List UInt8} (hs : 0 ∉ s) (c : AlignedCursor) :
    readStringLoop (s ++ 0 :: rest) c = .ok (s, rest, ⟨c.bitIndex + 8 * (s.length + 1)⟩) := by
  induction s generalizing c with
  | nil => simp [readStringLoop, AlignedCursor.increment, Size.bits]
  | cons b s ih =>
    have hb : b ≠ 0 := fun h => hs (h ▸ List.mem_cons_self _ _)
    rw [List.cons_append, readStringLoop, if_neg hb, ih (fun h => hs (List.mem_cons_of_mem _ h))]
    simp only [Except.map, AlignedCursor.increment, Size.bits, List.length_cons]
    congr 4
    omega

theorem readStringLoop_ok {s rest : List UInt8} {c' : AlignedCursor} :
    readStringLoop src c = .ok (s, rest, c') ↔
      0 ∉ s ∧ src = s ++ 0 :: rest ∧ c' = ⟨c.bitIndex + 8 * (s.length + 1)⟩ := by
  constructor
  · induction src generalizing c s with
    | nil => simp [readStringLoop, eof]
    | cons b src ih =>
      by_cases hb : b = 0
      · subst hb
        simp only [readStringLoop, if_pos, Except.ok.injEq, Prod.mk.injEq]
        rintro ⟨rfl, rfl, rfl⟩
        simp [AlignedCursor.increment, Size.bits]
      · rcases h : readStringLoop src (c.increment .bits8) with e | ⟨s', rest', c''⟩ <;>
          simp only [readStringLoop, if_neg hb, h, Except.map, reduceCtorEq, false_implies,
            Except.ok.injEq, Prod.mk.injEq]
        rintro ⟨rfl, rfl, rfl⟩
        obtain ⟨hs, rfl, rfl⟩ := ih h
        refine ⟨by simp [hs, Ne.symm hb], rfl, ?_⟩
        simp only [AlignedCursor.increment, Size.bits, List.length_cons, AlignedCursor.mk.injEq]
        omega
  · rintro ⟨hs, rfl, rfl⟩
    exact readStringLoop_append hs c

theorem runs_readString {v : List UInt8} :
    Runs StreamReader.readString ⟨bo, src, c⟩ v r' ↔
      ∃ pad cstr rest, pad.length = (c.alignTo .bits8).1 >>> 3 ∧ 0 ∉ cstr ∧
        src = pad ++ cstr ++ 0 :: rest ∧ v = fromUtf8Lossy cstr ∧
        r' = ⟨bo, rest, ⟨(c.alignTo .bits8).2.bitIndex + 8 * (cstr.length + 1)⟩⟩ := by
  constructor
  · intro h
    obtain ⟨_, _, h1, h⟩ := runs_bind.1 h
    obtain ⟨pad, rest1, hp, rfl, rfl⟩ := runs_alignTo.1 h1
    obtain ⟨cstr, _, h2, h⟩ := runs_bind.1 h
    obtain ⟨rfl, rfl⟩ := runs_pure.1 h
    simp only [Runs, StateT.run] at h2
    rcases hl : readStringLoop rest1 (c.alignTo .bits8).2 with e | ⟨cstr', rest, c'⟩ <;>
      rw [hl] at h2 <;> simp only [Except.map, reduceCtorEq, Except.ok.injEq, Prod.mk.injEq] at h2
    obtain ⟨rfl, rfl⟩ := h2
    obtain ⟨hs, rfl, rfl⟩ := readStringLoop_ok.1 hl
    exact ⟨pad, _, rest, hp, hs, by simp, rfl, rfl⟩
  · rintro ⟨pad, cstr, rest, hp, hs, rfl, rfl, rfl⟩
    refine runs_bind.2 ⟨(), _, runs_alignTo.2 ⟨pad, cstr ++ 0 :: rest, hp, by simp, rfl⟩,
      runs_bind.2 ⟨cstr, _, ?_, runs_pure.2 ⟨rfl, rfl⟩⟩⟩
    simp only [Runs, StateT.run, readStringLoop_append hs, Except.map]

theorem runs_intoCursor {c' : AlignedCursor} :
    Runs StreamReader.intoCursor ⟨bo, src, c⟩ c' r' ↔ c' = c ∧ r' = ⟨bo, src, c⟩ := by
  simp [Runs, StreamReader.intoCursor, StateT.run, eq_comm]

theorem runs_cursorBits {n : Nat} :
    Runs StreamReader.cursorBits ⟨bo, src, c⟩ n r' ↔ n = c.bitIndex ∧ r' = ⟨bo, src, c⟩ := by
  simp [Runs, StreamReader.cursorBits, AlignedCursor.cursorBits, StateT.run, eq_comm]

end

/-! ## Reader calls that take a prefix of the source -/

/-- A reader call that only takes bytes from the front of the source: a run from `⟨bo, src, c⟩`
takes a prefix `taken` of `src`, keeps the byte order, moves the cursor eight bits per byte taken
when `c` is on a byte boundary, and runs the same way on `taken` followed by any other bytes. -/
def Reads {α : Type} (m : ReadM α) : Prop :=
  ∀ bo src c a r', Runs m ⟨bo, src, c⟩ a r' → ∃ taken, src = taken ++ r'.src ∧ r'.byteOrder = bo ∧
    (c.bitIndex % 8 = 0 → r'.cursor.bitIndex = c.bitIndex + 8 * taken.length) ∧
    ∀ s, Runs m ⟨bo, taken ++ s, c⟩ a ⟨bo, s, r'.cursor⟩

namespace Reads

variable {α β γ : Type}

theorem pure (a : α) : Reads (Pure.pure a : ReadM α) := by
  intro bo src c a' r' h
  obtain ⟨rfl, rfl⟩ := runs_pure.1 h
  exact ⟨[], rfl, rfl, fun _ => rfl, fun s => runs_pure.2 ⟨rfl, rfl⟩⟩

theorem bind {x : ReadM α} {f : α → ReadM β} (hx : Reads x) (hf : ∀ a, Reads (f a)) :
    Reads (x >>= f) := by
  intro bo src c b r'' h
  obtain ⟨a, ⟨bo1, src1, c1⟩, h1, h2⟩ := runs_bind.1 h
  obtain ⟨t1, hs1, hbo1, hc1, hl1⟩ := hx bo src c a _ h1
  dsimp only at hs1 hbo1 hc1 hl1
  subst hbo1 hs1
  obtain ⟨t2, hs2, hbo2, hc2, hl2⟩ := hf a _ src1 c1 b r'' h2
  subst hs2
  refine ⟨t1 ++ t2, by simp, hbo2, fun h8 => ?_, fun s => ?_⟩
  · have h1' := hc1 h8
    rw [hc2 (by omega), h1', List.length_append]
    ring
  · exact runs_bind.2 ⟨a, _, by simpa using hl1 (t2 ++ s), hl2 s⟩

theorem map {x : ReadM α} (f : α → β) (hx : Reads x) : Reads (f <$> x) := by
  rw [← bind_pure_comp]
  exact hx.bind fun a => pure (f a)

theorem mapM {f : γ → ReadM β} (hf : ∀ c, Reads (f c)) : ∀ l : List γ, Reads (l.mapM f)
  | [] => pure []
  | c :: l => by
    rw [List.mapM_cons]
    exact (hf c).bind fun b => (mapM hf l).bind fun bs => pure (b :: bs)

/-- The padding of `align_to` from a byte boundary, in bytes. -/
theorem padding_eq {c : AlignedCursor} (a : Size) (h8 : c.bitIndex % 8 = 0) :
    (c.alignTo a).2.bitIndex = c.bitIndex + 8 * ((c.alignTo a).1 >>> 3) := by
  have := alignTo_padding_mod_eight c a h8
  rw [AlignedCursor.alignTo_bitIndex_eq, Nat.shiftRight_eq_div_pow]
  omega

theorem alignTo (a : Size) : Reads (StreamReader.alignTo a) := by
  intro bo src c u r' h
  obtain ⟨pad, rest, hp, rfl, rfl⟩ := runs_alignTo.1 h
  refine ⟨pad, rfl, rfl, fun h8 => ?_, fun s => runs_alignTo.2 ⟨pad, s, hp, rfl, rfl⟩⟩
  rw [hp]
  exact padding_eq a h8

theorem readWord (size align : Size) : Reads (StreamReader.readWord size align) := by
  intro bo src c v r' h
  obtain ⟨pad, bytes, rest, hp, hb, rfl, rfl, rfl⟩ := runs_readWord.1 h
  refine ⟨pad ++ bytes, rfl, rfl, fun h8 => ?_,
    fun s => runs_readWord.2 ⟨pad, bytes, s, hp, hb, by simp, rfl, rfl⟩⟩
  have := padding_eq align h8
  have := size.bits_pos
  simp only [AlignedCursor.increment_bitIndex, List.length_append, hp, hb]
  omega

theorem readString : Reads StreamReader.readString := by
  intro bo src c v r' h
  obtain ⟨pad, cstr, rest, hp, hs, rfl, rfl, rfl⟩ := runs_readString.1 h
  refine ⟨pad ++ cstr ++ [0], by simp, rfl, fun h8 => ?_,
    fun s => runs_readString.2 ⟨pad, cstr, s, hp, hs, by simp, rfl, rfl⟩⟩
  have := padding_eq .bits8 h8
  simp only [List.length_append, List.length_singleton, hp]
  omega

theorem intoCursor : Reads StreamReader.intoCursor := by
  intro bo src c c' r' h
  obtain ⟨rfl, rfl⟩ := runs_intoCursor.1 h
  exact ⟨[], rfl, rfl, fun _ => rfl, fun s => runs_intoCursor.2 ⟨rfl, rfl⟩⟩

theorem cursorBits : Reads StreamReader.cursorBits := by
  intro bo src c n r' h
  obtain ⟨rfl, rfl⟩ := runs_cursorBits.1 h
  exact ⟨[], rfl, rfl, fun _ => rfl, fun s => runs_cursorBits.2 ⟨rfl, rfl⟩⟩

end Reads

/-- **Alignment arithmetic.** From a byte boundary `i` with `i + 63` within `usize`, `align_to a`
sets the index to the `usize` value `(i + (a - 1)) & (!a + 1)`, the least multiple of `a` at or
above `i`, and returns that index minus `i`: whole bytes, fewer than `a` bits. A `read_*` call from
`i` reads its word at a multiple of its alignment. -/
theorem alignTo_leastMultiple (c : AlignedCursor) (a : Size) (h8 : c.bitIndex % 8 = 0)
    (hb : c.bitIndex + 63 ≤ 2 ^ 64 - 1) :
    BitVec.ofNat 64 (c.alignTo a).2.bitIndex =
        (BitVec.ofNat 64 c.bitIndex + BitVec.ofNat 64 (a.bits - 1)) &&&
          (~~~(BitVec.ofNat 64 a.bits) + 1#64) ∧
      a.bits ∣ (c.alignTo a).2.bitIndex ∧ c.bitIndex ≤ (c.alignTo a).2.bitIndex ∧
      (∀ m, a.bits ∣ m → c.bitIndex ≤ m → (c.alignTo a).2.bitIndex ≤ m) ∧
      (c.alignTo a).1 = (c.alignTo a).2.bitIndex - c.bitIndex ∧ (c.alignTo a).1 % 8 = 0 ∧
      (c.alignTo a).1 < a.bits ∧
      ∀ (size : Size) (bo : NativeByteOrder) (src : List UInt8) (v : Nat) (r' : StreamReader),
        Runs (StreamReader.readWord size a) ⟨bo, src, c⟩ v r' →
          a.bits ∣ r'.cursor.bitIndex - size.bits := by
  have hlt : c.bitIndex + (a.bits - 1) < 2 ^ 64 := by have := a.bits_pos; omega
  have hx := alignTo_bitIndex c a hlt
  have hi := c.alignTo_bitIndex_eq a
  obtain ⟨hd, hle, hleast, hup⟩ := alignUp_spec c.bitIndex a
  refine ⟨(alignTo_usize c a hlt).symm, hx ▸ hd, hx ▸ hle, fun m hm him => hx ▸ hleast m hm him,
    by omega, alignTo_padding_mod_eight c a h8, by omega, fun size bo src v r' h => ?_⟩
  obtain ⟨_, _, _, -, -, -, -, rfl⟩ := runs_readWord.1 h
  simpa [hx] using hd

/-- From bit 8, a 32-bit alignment moves the cursor to bit 32. -/
theorem alignTo_bits32_from_eight :
    (8 : Nat) % 8 = 0 ∧ 8 + 63 ≤ 2 ^ 64 - 1 ∧
      (AlignedCursor.alignTo ⟨8⟩ .bits32).2.bitIndex = 32 ∧
      (BitVec.ofNat 64 (AlignedCursor.alignTo ⟨8⟩ .bits32).2.bitIndex =
        (BitVec.ofNat 64 8 + BitVec.ofNat 64 (Size.bits32.bits - 1)) &&&
          (~~~(BitVec.ofNat 64 Size.bits32.bits) + 1#64)) :=
  ⟨by decide, by decide, by decide,
    (alignTo_leastMultiple ⟨8⟩ .bits32 (by decide) (by decide)).1⟩

end BarectfParser
