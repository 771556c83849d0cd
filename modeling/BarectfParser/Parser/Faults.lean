import BarectfParser.Parser.Accepts

/-!
# How calls fail

The errors fall in two strata. `Parser::new` reports only what it does not support of a
configuration (`Error.IsConstruction`); the decoding calls, `Parser::parse` and
`PacketDecoder::decode`, end only with `UnexpectedEof`, an undefined stream or event id, an invalid
float size, or the `usize` subtraction that underflows (`Fault.IsDecode`), and, in a build with
debug assertions, with a failed `debug_assert!`. A real field of 8 or 16 bits passes
`Parser::new` (`FieldDesc::from_ft` takes any of the four sizes) and fails only when it is read,
with `InvalidFloatSize`. In particular the fuel of the event loop is never spent: the loop ends
within one iteration per byte of the source (`parse_never_out_of_fuel`).

A packet is read from its own bytes: `parse` on them followed by anything reads the same packet
and leaves what follows, and `parse` on a strict prefix of them fails with `UnexpectedEof`, never
with a packet or another error; so does `parse` on no bytes at all.

* `ReaderClosed`: a property of reader calls that the reader's calls and the assertions of a
  build have, with a `throw` of a decoding fault, and that `>>=` keeps; every parser of the plan
  has it (`ReaderClosed.parseHeader` ... `ReaderClosed.parsePacket`), given `parse_events`,
  whose loop is bounded by fuel.
* `FailsDecode`: the faults a reader call can end with; `Parser.parseEventsLoop_fault` bounds the
  loop's, since each iteration takes a byte; with `Parser.new_checks` for `Parser::new`,
  `faults_by_stage`.
* `Truncates`: a call fails with `UnexpectedEof` on a strict prefix of the bytes it takes.
  `Truncates.bind` is the step; `Parser.parse_truncated` the result, `Parser.parse_append` the
  other side, and `Parser.parse_nil` the empty source.
-/

namespace BarectfParser

/-! ## The two strata -/

/-- The faults of decoding: the source ends early, an id the plan does not define, a real field
of a size other than 32 or 64 bits, the `usize` subtraction that underflows. -/
inductive Fault.IsDecode : Fault → Prop
  | eof : Fault.IsDecode (.error (.io .unexpectedEof))
  | undefinedStreamId (id : Nat) : Fault.IsDecode (.error (.undefinedStreamId id))
  | undefinedEventId (id : Nat) : Fault.IsDecode (.error (.undefinedEventId id))
  | invalidFloatSize (size : Nat) : Fault.IsDecode (.error (.invalidFloatSize size))
  | subtractOverflow : Fault.IsDecode .subtractOverflow

/-! ## Properties the parsers inherit from the reader -/

/-- A property of reader calls that `pure`, a `throw` of a decoding fault, the reader's calls and
the assertions of the build `da` have, and that `>>=` keeps. The parsers are built from these
alone, but for the event loop, whose fuel can run out. -/
structure ReaderClosed (da : Bool) (Q : ∀ {α : Type}, ReadM α → Prop) : Prop where
  pure : ∀ {α : Type} (a : α), Q (Pure.pure a : ReadM α)
  bind : ∀ {α β : Type} {x : ReadM α} {f : α → ReadM β}, Q x → (∀ a, Q (f a)) → Q (x >>= f)
  throw : ∀ {α : Type} (f : Fault), f.IsDecode → Q (MonadExcept.throw f : ReadM α)
  alignTo : ∀ a, Q (StreamReader.alignTo a)
  readWord : ∀ size align, Q (StreamReader.readWord size align)
  readString : Q StreamReader.readString
  cursorBits : Q StreamReader.cursorBits
  debugAssertCursor : ∀ (ok : Nat → Prop) [DecidablePred ok], Q (debugAssertCursor da ok)

namespace ReaderClosed

variable {da : Bool} {Q : ∀ {α : Type}, ReadM α → Prop} (hQ : ReaderClosed da Q) {α β γ : Type}
include hQ

theorem map {x : ReadM α} (f : α → β) (hx : Q x) : Q (f <$> x) := by
  rw [← bind_pure_comp]
  exact hQ.bind hx fun a => hQ.pure (f a)

theorem mapM {f : γ → ReadM β} (hf : ∀ c, Q (f c)) : ∀ l : List γ, Q (l.mapM f)
  | [] => hQ.pure []
  | c :: l => by
    rw [List.mapM_cons]
    exact hQ.bind (hf c) fun b => hQ.bind (mapM hf l) fun bs => hQ.pure (b :: bs)

theorem optionMapM {f : γ → ReadM β} (hf : ∀ c, Q (f c)) : ∀ o : Option γ, Q (o.mapM f)
  | none => hQ.pure none
  | some c => hQ.bind (hf c) fun b => hQ.pure (some b)

theorem readArray {m : ReadM α} (hm : Q m) : ∀ n, Q (BarectfParser.readArray m n)
  | 0 => hQ.pure []
  | n + 1 => hQ.bind hm fun a => hQ.bind (readArray hm n) fun as => hQ.pure (a :: as)

theorem uIntParser (p : UIntParser) : Q p.parse := by
  rw [p.parse_eq]
  exact hQ.readWord _ _

theorem readU8Array : ∀ n, Q (BarectfParser.readU8Array n)
  | 0 => hQ.pure _
  | n + 1 => hQ.bind (hQ.readWord _ _) fun _ => hQ.bind (readU8Array n) fun _ => hQ.pure _

theorem uuidParser (p : UuidParser) : Q p.parse :=
  hQ.bind (hQ.alignTo _) fun _ => hQ.bind (hQ.readU8Array 16) fun _ => hQ.pure _

theorem primitiveFieldTypeParser (p : PrimitiveFieldTypeParser) : Q p.parse := by
  cases p <;> simp only [PrimitiveFieldTypeParser.parse]
  all_goals first
    | exact hQ.map _ hQ.readString
    | split <;> first
      | exact hQ.map _ (hQ.readWord _ _)
      | exact hQ.map _ (hQ.map _ (hQ.readWord _ _))
      | exact hQ.throw _ (.invalidFloatSize _)

theorem fieldTypeParser (p : FieldTypeParser) : Q p.parse := by
  cases p with
  | primitive p => exact hQ.map _ (hQ.primitiveFieldTypeParser p)
  | staticArray len p =>
    exact hQ.bind (hQ.alignTo _) fun _ =>
      hQ.bind (hQ.readArray (hQ.primitiveFieldTypeParser p) len) fun _ => hQ.pure _
  | dynamicArray p =>
    exact hQ.bind (hQ.readWord _ _) fun len => hQ.bind (hQ.alignTo _) fun _ =>
      hQ.bind (hQ.readArray (hQ.primitiveFieldTypeParser p) len) fun _ => hQ.pure _

theorem eventPayloadMemberParser (m : EventPayloadMemberParser) : Q m.parse :=
  hQ.bind (hQ.fieldTypeParser m.value) fun _ => by split <;> exact hQ.pure _

theorem parseMembers (ms : List EventPayloadMemberParser) :
    Q (EventPayloadMemberParser.parseMembers ms) :=
  hQ.mapM (fun m => hQ.bind (hQ.eventPayloadMemberParser m) fun _ => hQ.pure _) ms

theorem parseOpt : ∀ p : Option EventPayloadParser, Q (EventPayloadParser.parseOpt p)
  | some _ => hQ.bind (hQ.alignTo _) fun _ => hQ.parseMembers _
  | none => hQ.pure _

theorem parseHeader (p : Parser) : Q (p.parseHeader da) :=
  hQ.bind (hQ.alignTo _) fun _ => hQ.bind (hQ.optionMapM hQ.uIntParser _) fun _ =>
    hQ.bind (hQ.optionMapM hQ.uuidParser _) fun _ => hQ.bind (hQ.uIntParser _) fun _ =>
      hQ.bind (hQ.debugAssertCursor _) fun _ => by
        split
        · exact hQ.pure _
        · exact hQ.throw _ (.undefinedStreamId _)

theorem parsePacketContext (stream : StreamParser) : Q (Parser.parsePacketContext da stream) :=
  hQ.bind (hQ.alignTo _) fun _ => hQ.bind (hQ.uIntParser _) fun _ =>
    hQ.bind (hQ.uIntParser _) fun _ => hQ.bind (hQ.optionMapM hQ.uIntParser _) fun _ =>
    hQ.bind (hQ.optionMapM hQ.uIntParser _) fun _ =>
    hQ.bind (hQ.optionMapM hQ.uIntParser _) fun _ =>
    hQ.bind (hQ.optionMapM hQ.uIntParser _) fun _ =>
    hQ.bind (hQ.parseMembers _) fun _ => hQ.bind (hQ.debugAssertCursor _) fun _ => hQ.pure _

theorem parseEventBody (stream : StreamParser) (eventId : Nat) :
    Q (Parser.parseEventBody stream eventId) :=
  hQ.bind (hQ.uIntParser _) fun _ => hQ.bind (hQ.parseOpt _) fun _ => by
    split
    · exact hQ.bind (hQ.parseOpt _) fun _ => hQ.bind (hQ.parseOpt _) fun _ => hQ.pure _
    · exact hQ.throw _ (.undefinedEventId _)

theorem parseEvent (stream : StreamParser) : Q (Parser.parseEvent stream) :=
  hQ.bind (hQ.alignTo _) fun _ => hQ.bind (hQ.uIntParser _) (hQ.parseEventBody stream)

/-- The event loop, given that running out of fuel has the property. -/
theorem parseEventsLoop (h0 : Q (MonadExcept.throw .outOfFuel : ReadM (List Event)))
    (stream : StreamParser) (cs : Nat) : ∀ n, Q (Parser.parseEventsLoop da stream cs n)
  | 0 => h0
  | n + 1 => hQ.bind (hQ.parseEvent stream) fun _ => hQ.bind (hQ.debugAssertCursor _) fun _ =>
      hQ.bind hQ.cursorBits fun _ => by
        split
        · exact hQ.pure _
        · exact hQ.map _ (parseEventsLoop h0 stream cs n)

/-- A packet, given `parse_events`. -/
theorem parsePacket (hE : ∀ stream ctx, Q (Parser.parseEvents da stream ctx)) (p : Parser) :
    Q (p.parsePacket da) :=
  hQ.bind (hQ.parseHeader p) fun _ => by
    split
    · exact hQ.bind (hQ.parsePacketContext _) fun _ => hQ.bind (hE _ _) fun _ => hQ.pure _
    · exact hQ.throw _ (.undefinedStreamId _)

end ReaderClosed

/-! ## The faults of decoding -/

/-- A bind fails where its first call fails, or where the rest fails after the first returns. -/
theorem run_bind_eq_error {α β : Type} {x : ReadM α} {f : α → ReadM β} {r : StreamReader}
    {e : Fault} :
    (x >>= f).run r = .error e ↔ x.run r = .error e ∨ ∃ a r', Runs x r a r' ∧ (f a).run r' = .error e := by
  rw [StateT.run_bind]
  rcases h : x.run r with e' | ⟨a, r'⟩ <;> simp [Runs, h, and_assoc]

/-- Every fault `m` ends with, from any reader, is a decoding fault, or in a build with debug
assertions a failed assertion. -/
def FailsDecode (da : Bool) {α : Type} (m : ReadM α) : Prop :=
  ∀ r f, m.run r = .error f → f.IsDecode ∨ da = true ∧ f = .debugAssertion

namespace FailsDecode

variable {da : Bool} {α β : Type}

theorem of_ok {m : ReadM α} (h : ∀ r, ∃ x, m.run r = .ok x) : FailsDecode da m := fun r f hf => by
  obtain ⟨x, hx⟩ := h r
  rw [hx] at hf
  cases hf

theorem bind {x : ReadM α} {f : α → ReadM β} (hx : FailsDecode da x)
    (hf : ∀ a, FailsDecode da (f a)) : FailsDecode da (x >>= f) := fun r e h => by
  rcases run_bind_eq_error.1 h with h | ⟨a, r', -, h⟩
  · exact hx r e h
  · exact hf a r' e h

theorem readByte : FailsDecode da readByte := fun r f hf => by
  rcases hs : r.src with _ | ⟨b, rest⟩ <;>
    simp only [StateT.run, BarectfParser.readByte, hs, reduceCtorEq, Except.error.injEq] at hf
  subst hf
  exact .inl .eof

theorem readExact : ∀ n, FailsDecode da (BarectfParser.readExact n)
  | 0 => of_ok fun _ => ⟨_, rfl⟩
  | n + 1 => readByte.bind fun _ => (readExact n).bind fun _ => of_ok fun _ => ⟨_, rfl⟩

theorem alignTo (a : Size) : FailsDecode da (StreamReader.alignTo a) :=
  (of_ok fun _ => ⟨_, rfl⟩).bind fun _ => (of_ok fun _ => ⟨_, rfl⟩).bind fun _ =>
    (readExact _).bind fun _ => of_ok fun _ => ⟨_, rfl⟩

theorem readWord (size align : Size) : FailsDecode da (StreamReader.readWord size align) :=
  (alignTo align).bind fun _ => (readExact _).bind fun _ => (of_ok fun _ => ⟨_, rfl⟩).bind fun _ =>
    (of_ok fun _ => ⟨_, rfl⟩).bind fun _ => of_ok fun _ => ⟨_, rfl⟩

/-- The loop of `read_string` fails only when the source ends before a NUL. -/
theorem readStringLoop_error {c : AlignedCursor} {f : Fault} :
    ∀ {src : List UInt8}, readStringLoop src c = .error f → f = eof
  | [], h => by cases h; rfl
  | b :: src, h => by
    rw [readStringLoop] at h
    split at h
    · cases h
    · rcases hl : readStringLoop src (c.increment .bits8) with e | x <;>
        rw [hl] at h <;> simp only [Except.map, Except.error.injEq, reduceCtorEq] at h
      subst h
      exact readStringLoop_error hl

theorem readString : FailsDecode da StreamReader.readString :=
  (alignTo _).bind fun _ => FailsDecode.bind (fun r f h => by
    rcases hl : readStringLoop r.src r.cursor with e | x <;>
      simp only [StateT.run, hl, Except.map, Except.error.injEq, reduceCtorEq] at h
    subst h
    rw [readStringLoop_error hl]
    exact .inl .eof) fun _ => of_ok fun _ => ⟨_, rfl⟩

theorem debugAssertCursor (ok : Nat → Prop) [DecidablePred ok] :
    FailsDecode da (BarectfParser.debugAssertCursor da ok) := fun ⟨bo, src, c⟩ f h => by
  rw [debugAssertCursor_run] at h
  split at h
  · cases h
    exact .inr ⟨‹_ ∧ _›.1, rfl⟩
  · cases h

theorem readerClosed : ReaderClosed da (FailsDecode da) where
  pure _ := of_ok fun _ => ⟨_, rfl⟩
  bind := bind
  throw f hf := fun _ _ h => by cases h; exact .inl hf
  alignTo := alignTo
  readWord := readWord
  readString := readString
  cursorBits := of_ok fun _ => ⟨_, rfl⟩
  debugAssertCursor := debugAssertCursor

theorem skipBytes (n : Nat) : FailsDecode da (BarectfParser.skipBytes n) :=
  (readExact n).bind fun _ => of_ok fun _ => ⟨_, rfl⟩

end FailsDecode

/-- **The fuel of the event loop is never spent.** With more iterations than the source has
bytes, the loop fails only as an iteration does: each iteration takes a byte, so the source ends
before the fuel. -/
theorem Parser.parseEventsLoop_fault {da : Bool} {stream : StreamParser} {cs : Nat} :
    ∀ {n : Nat} {r : StreamReader} {f : Fault}, r.src.length < n →
      (Parser.parseEventsLoop da stream cs n).run r = .error f →
        f.IsDecode ∨ da = true ∧ f = .debugAssertion
  | 0, _, _, hn, _ => absurd hn (Nat.not_lt_zero _)
  | n + 1, r, f, hn, h => by
    rw [Parser.parseEventsLoop] at h
    rcases run_bind_eq_error.1 h with h | ⟨ev, ⟨bo, src, c⟩, he, h⟩
    · exact FailsDecode.readerClosed.parseEvent stream r f h
    have hlt := Parser.parseEvent_takes_byte he
    rcases run_bind_eq_error.1 h with h | ⟨u, r', ha, h⟩
    · exact FailsDecode.debugAssertCursor _ _ f h
    obtain ⟨rfl, -⟩ := runs_debugAssertCursor.1 ha
    rcases run_bind_eq_error.1 h with h | ⟨b, r'', hb, h⟩
    · cases h
    obtain ⟨rfl, rfl⟩ := runs_cursorBits.1 hb
    split at h
    · cases h
    · rw [StateT.run_map] at h
      rcases hl : (Parser.parseEventsLoop da stream cs n).run ⟨bo, src, c⟩ with e | x <;>
        rw [hl] at h <;> cases h
      exact Parser.parseEventsLoop_fault (by dsimp only at hlt ⊢; omega) hl

theorem FailsDecode.parseEvents {da : Bool} (stream : StreamParser) (ctx : PacketContext) :
    FailsDecode da (Parser.parseEvents da stream ctx) := fun r f h => by
  rw [Parser.parseEvents, StateT.run_bind, StateT.run_get, except_pure, except_ok_bind] at h
  rcases run_bind_eq_error.1 h with h | ⟨evs, r', -, h⟩
  · exact Parser.parseEventsLoop_fault (Nat.lt_succ_self _) h
  refine (?_ : FailsDecode da _) r' f h
  dsimp only
  split
  · exact fun _ _ h => by cases h; exact .inl .subtractOverflow
  · split
    · exact FailsDecode.bind (FailsDecode.of_ok fun _ => ⟨_, rfl⟩) fun _ =>
        (FailsDecode.skipBytes _).bind fun _ => FailsDecode.of_ok fun _ => ⟨_, rfl⟩
    · exact FailsDecode.bind (FailsDecode.of_ok fun _ => ⟨_, rfl⟩) fun _ =>
        FailsDecode.bind (FailsDecode.of_ok fun _ => ⟨_, rfl⟩) fun _ =>
          FailsDecode.of_ok fun _ => ⟨_, rfl⟩

/-- `Parser::parse` fails only with a decoding fault, or a failed assertion of the build. -/
theorem Parser.parse_fault {da : Bool} {p : Parser} {src : List UInt8} {f : Fault}
    (h : p.parse da src = .error f) : f.IsDecode ∨ da = true ∧ f = .debugAssertion := by
  unfold Parser.parse at h
  rcases hr : (p.parsePacket da).run (StreamReader.new p.byteOrder src) with e | x <;>
    rw [hr] at h <;> cases h
  exact FailsDecode.readerClosed.parsePacket FailsDecode.parseEvents p _ _ hr

/-! ## The decoder's faults -/

section
variable {da : Bool} {parser : Parser} {header : PacketHeader} {ctx : PacketContext}
  {cursor : AlignedCursor} {src : List UInt8} {f : Fault}

/-- A stage run that fails fails as its reader call does. -/
theorem FailsDecode.run_bind {α : Type} {m : ReadM α} (hm : FailsDecode da m) {r : StreamReader}
    {k : α × StreamReader → DecodeResult} (h : (m.run r >>= k) = .error f)
    (hk : ∀ x, k x = .error f → f.IsDecode ∨ da = true ∧ f = .debugAssertion) :
    f.IsDecode ∨ da = true ∧ f = .debugAssertion := by
  rcases hr : m.run r with e | x <;> rw [hr] at h
  · cases h
    exact hm r _ hr
  · exact hk x h

end

/-- **Decoding ends.** Each iteration of the event loop of `parse_events` takes at least a byte,
the event id being 8 bits wide at least, so the `src.length + 1` iterations `parse_events` allows
are never spent, and any fuel above the bytes left gives the loop one outcome, that of the
unbounded `loop`, whether or not the cursor ever meets the content size. So `Parser::parse`
returns a packet or a fault of the code, never the exhausted fuel. -/
theorem parse_never_out_of_fuel :
    (∀ (stream : StreamParser) r e r', Runs (Parser.parseEvent stream) r e r' →
      r'.src.length < r.src.length) ∧
    (∀ da stream cs n (r : StreamReader), r.src.length < n →
      (Parser.parseEventsLoop da stream cs n).run r ≠ .error .outOfFuel) ∧
    (∀ da stream cs n m (r : StreamReader), r.src.length < n → r.src.length < m →
      (Parser.parseEventsLoop da stream cs n).run r =
        (Parser.parseEventsLoop da stream cs m).run r) ∧
    ∀ da (p : Parser) src, p.parse da src ≠ .error .outOfFuel :=
  ⟨fun _ _ _ _ h => Parser.parseEvent_takes_byte h,
    fun _ _ _ _ _ hn h => (by rcases Parser.parseEventsLoop_fault hn h with h | ⟨-, h⟩ <;> cases h),
    fun da stream cs => Parser.parseEventsLoop_fuel da stream cs,
    fun _ _ _ h => (by rcases Parser.parse_fault h with h | ⟨-, h⟩ <;> cases h)⟩

/-- Events of two bytes from bit 24 never meet a content size of 44: with debug assertions the
first one past it fails the assertion; without, the loop runs to the end of the source; both with
every fuel above its four bytes. -/
theorem oneStream_eventLoop_fuel : ∃ e,
    Runs (Parser.parseEvent (oneStreamParser.1.streams[0]?.get (by decide)))
      ⟨.littleEndian, [0, 0, 0, 0], ⟨24⟩⟩ e ⟨.littleEndian, [0, 0], ⟨40⟩⟩ ∧
    [(0 : UInt8), 0].length < [0, 0, 0, 0].length ∧
    (Parser.parseEventsLoop false (oneStreamParser.1.streams[0]?.get (by decide)) 44 5).run
      ⟨.littleEndian, [0, 0, 0, 0], ⟨24⟩⟩ ≠ .error .outOfFuel ∧
    (Parser.parseEventsLoop false (oneStreamParser.1.streams[0]?.get (by decide)) 44 5).run
        ⟨.littleEndian, [0, 0, 0, 0], ⟨24⟩⟩ =
      (Parser.parseEventsLoop false (oneStreamParser.1.streams[0]?.get (by decide)) 44 9).run
        ⟨.littleEndian, [0, 0, 0, 0], ⟨24⟩⟩ ∧
    oneStreamParser.1.parse true [0, 40, 40, 0, 0] ≠ .error .outOfFuel := by
  have h : Runs (Parser.parseEvent (oneStreamParser.1.streams[0]?.get (by decide)))
      ⟨.littleEndian, [0, 0, 0, 0], ⟨24⟩⟩ ⟨0, "e", 0, none, [], [], []⟩
      ⟨.littleEndian, [0, 0], ⟨40⟩⟩ := rfl
  exact ⟨_, h, parse_never_out_of_fuel.1 _ _ _ _ h,
    parse_never_out_of_fuel.2.1 false _ 44 5 _ (by decide),
    parse_never_out_of_fuel.2.2.1 false _ 44 5 9 _ (by decide) (by decide),
    parse_never_out_of_fuel.2.2.2 true _ _⟩

/-! ## A packet cut short -/

/-- A strict prefix `t` of `x ++ y` is a strict prefix of `x`, or `x` then a strict prefix of
`y`. -/
theorem strictPrefix_append {t u x y : List UInt8} (h : t ++ u = x ++ y) (hu : u ≠ []) :
    (∃ v, x = t ++ v ∧ v ≠ []) ∨ ∃ v w, t = x ++ v ∧ y = v ++ w ∧ w ≠ [] := by
  rcases List.append_eq_append_iff.1 h with ⟨a, rfl, rfl⟩ | ⟨c, rfl, rfl⟩
  · rcases a with _ | ⟨b, a⟩
    · exact .inr ⟨[], y, by simp, rfl, by simpa using hu⟩
    · exact .inl ⟨b :: a, rfl, List.cons_ne_nil _ _⟩
  · exact .inr ⟨c, u, rfl, rfl, hu⟩

section
variable {bo : NativeByteOrder} {src : List UInt8} {c : AlignedCursor}

theorem readExact_run (bo : NativeByteOrder) (c : AlignedCursor) : ∀ (n : Nat) (src : List UInt8),
    (readExact n).run ⟨bo, src, c⟩ =
      if n ≤ src.length then .ok (src.take n, ⟨bo, src.drop n, c⟩) else .error eof
  | 0, src => by rw [if_pos (Nat.zero_le _)]; rfl
  | n + 1, [] => rfl
  | n + 1, b :: src => by
    have h : (readExact (n + 1)).run ⟨bo, b :: src, c⟩ =
        ((readExact n).run ⟨bo, src, c⟩ >>= fun x => .ok (b :: x.1, x.2)) := rfl
    rw [h, readExact_run bo c n src]
    by_cases hn : n ≤ src.length <;> simp [hn]

theorem readExact_short {n : Nat} (h : src.length < n) :
    (readExact n).run ⟨bo, src, c⟩ = .error eof := by
  rw [readExact_run, if_neg (by omega)]

theorem skipBytes_short {n : Nat} (h : src.length < n) :
    (skipBytes n).run ⟨bo, src, c⟩ = .error eof := by
  simp only [skipBytes, StateT.run_bind, readExact_short h]
  rfl

theorem alignTo_short {a : Size} (h : src.length < (c.alignTo a).1 >>> 3) :
    (StreamReader.alignTo a).run ⟨bo, src, c⟩ = .error eof := by
  have e : (StreamReader.alignTo a).run ⟨bo, src, c⟩ =
      ((readExact ((c.alignTo a).1 >>> 3)).run ⟨bo, src, (c.alignTo a).2⟩ >>=
        fun x => .ok ((), x.2)) := rfl
  rw [e, readExact_short h]
  rfl

/-- An alignment that takes `pad` runs on `pad` and whatever follows. -/
theorem alignTo_run_eq {a : Size} {pad rest : List UInt8}
    (hp : pad.length = (c.alignTo a).1 >>> 3) :
    (StreamReader.alignTo a).run ⟨bo, pad ++ rest, c⟩ = .ok ((), ⟨bo, rest, (c.alignTo a).2⟩) :=
  runs_alignTo.2 ⟨pad, rest, hp, rfl, rfl⟩

/-- The loop of `read_string` runs out of bytes on a source without a NUL. -/
theorem readStringLoop_noNul : ∀ {src : List UInt8} {c : AlignedCursor}, 0 ∉ src →
    readStringLoop src c = .error eof
  | [], _, _ => rfl
  | b :: src, c, h => by
    rw [readStringLoop, if_neg (fun hb : b = 0 => h (hb ▸ List.mem_cons_self b src)),
      readStringLoop_noNul (fun h' => h (List.mem_cons_of_mem _ h'))]
    rfl

end

/-- A reader call that takes bytes from the front of its source. -/
def Takes {α : Type} (m : ReadM α) : Prop := ∀ r a r', Runs m r a r' → ∃ t, r.src = t ++ r'.src

theorem Reads.takes {α : Type} {m : ReadM α} (h : Reads m) : Takes m :=
  fun r a r' hr => let ⟨t, ht, _⟩ := h r.byteOrder r.src r.cursor a r' hr; ⟨t, ht⟩

theorem Takes.bind {α β : Type} {x : ReadM α} {f : α → ReadM β} (hx : Takes x)
    (hf : ∀ a, Takes (f a)) : Takes (x >>= f) := fun r _ r'' h => by
  obtain ⟨a, r', h1, h2⟩ := runs_bind.1 h
  obtain ⟨t1, h1⟩ := hx r a r' h1
  obtain ⟨t2, h2⟩ := hf a r' _ r'' h2
  exact ⟨t1 ++ t2, by rw [h1, h2, List.append_assoc]⟩

/-- A reader call that fails with `UnexpectedEof` when the source ends inside the bytes it
takes: run on a strict prefix `t` of them, from where it started, it returns `eof`. -/
def Truncates {α : Type} (m : ReadM α) : Prop :=
  ∀ bo t u c a r', Runs m ⟨bo, t ++ u ++ r'.src, c⟩ a r' → u ≠ [] →
    m.run ⟨bo, t, c⟩ = .error eof

namespace Truncates

variable {α β : Type}

/-- A call that takes no byte has no strict prefix to fail on. -/
theorem of_src_eq {m : ReadM α} (h : ∀ r a r', Runs m r a r' → r'.src = r.src) : Truncates m :=
  fun _ t u _ _ _ hr hu => by
    have := congrArg List.length (h _ _ _ hr)
    simp only [List.length_append] at this
    exact absurd (List.length_eq_zero.1 (by omega)) hu

/-- **The step.** When `x` takes a prefix of the source the same way whatever follows it, and
`f a` takes a prefix too, a source that ends inside the bytes of `x >>= f` ends inside those of
`x`, or after them and inside those of `f a`. -/
theorem bind {x : ReadM α} {f : α → ReadM β} (hx : Reads x) (hx' : Truncates x)
    (hf : ∀ a, Takes (f a)) (hf' : ∀ a, Truncates (f a)) : Truncates (x >>= f) := by
  intro bo t u c b r'' h hu
  obtain ⟨a, ⟨bo1, src1, c1⟩, h1, h2⟩ := runs_bind.1 h
  obtain ⟨t1, hs1, rfl, -, hr1⟩ := hx _ _ _ _ _ h1
  obtain ⟨t2, ht2⟩ := hf a _ _ _ h2
  dsimp only at hs1 hr1 h2 ht2
  subst ht2
  rw [StateT.run_bind]
  rcases strictPrefix_append (List.append_cancel_right (hs1.trans (List.append_assoc _ _ _).symm))
    hu with ⟨v, rfl, hv⟩ | ⟨v, w, rfl, rfl, hw⟩
  · -- the source ends inside the bytes of `x`
    rw [hx' bo1 t v c a ⟨bo1, t2 ++ r''.src, c1⟩ (hr1 _) hv]
    rfl
  · -- `x` runs, and the source ends inside the bytes of `f a`
    rw [show x.run ⟨bo1, t1 ++ v, c⟩ = .ok (a, ⟨bo1, v, c1⟩) from hr1 v]
    exact hf' a _ v w c1 b r'' h2 hw

/-- A call whose result is given to `pure` fails where the call does. -/
theorem bind_pure {x : ReadM α} {g : α → β} (hx : Truncates x) :
    Truncates (x >>= fun a => pure (g a)) := by
  intro bo t u c b r' h hu
  obtain ⟨a, r1, h1, h2⟩ := runs_bind.1 h
  obtain ⟨-, rfl⟩ := runs_pure.1 h2
  rw [StateT.run_bind, hx bo t u c a r1 h1 hu]
  rfl

theorem pure (a : α) : Truncates (Pure.pure a : ReadM α) :=
  of_src_eq fun _ _ _ h => by obtain ⟨-, rfl⟩ := runs_pure.1 h; rfl

theorem throw (f : Fault) : Truncates (MonadExcept.throw f : ReadM α) :=
  fun _ _ _ _ _ _ h => absurd h runs_throw

theorem cursorBits : Truncates StreamReader.cursorBits :=
  of_src_eq fun ⟨_, _, _⟩ _ _ h => by obtain ⟨-, rfl⟩ := runs_cursorBits.1 h; rfl

theorem alignTo (a : Size) : Truncates (StreamReader.alignTo a) := by
  intro bo t u c _ r' h hu
  obtain ⟨pad, rest, hp, hs, rfl⟩ := runs_alignTo.1 h
  have hl := congrArg List.length hs
  have := List.length_pos.2 hu
  simp only [List.length_append] at hl
  exact alignTo_short (by omega)

theorem readWord (size align : Size) : Truncates (StreamReader.readWord size align) := by
  intro bo t u c _ r' h hu
  obtain ⟨pad, bytes, rest, hp, hb, hs, -, rfl⟩ := runs_readWord.1 h
  rw [StreamReader.readWord, StateT.run_bind]
  rcases strictPrefix_append (List.append_cancel_right hs) hu with ⟨v, rfl, hv⟩ |
    ⟨v, w, rfl, rfl, hw⟩
  · -- inside the padding
    have := List.length_pos.2 hv
    rw [alignTo_short (by simp only [List.length_append] at hp; omega)]
    rfl
  · -- inside the word
    have := List.length_pos.2 hw
    rw [alignTo_run_eq hp, except_ok_bind, StateT.run_bind,
      readExact_short (by simp only [List.length_append] at hb; omega)]
    rfl

theorem readString : Truncates StreamReader.readString := by
  intro bo t u c _ r' h hu
  obtain ⟨pad, cstr, rest, hp, h0, hs, -, rfl⟩ := runs_readString.1 h
  rw [StreamReader.readString, StateT.run_bind]
  rcases strictPrefix_append (List.append_cancel_right (hs.trans
    (by simp : pad ++ cstr ++ 0 :: rest = pad ++ (cstr ++ [0]) ++ rest))) hu with
    ⟨v, rfl, hv⟩ | ⟨v, w, rfl, hvw, hw⟩
  · -- inside the padding
    have := List.length_pos.2 hv
    rw [alignTo_short (by simp only [List.length_append] at hp; omega)]
    rfl
  · -- inside the string: no NUL yet
    have hv0 : 0 ∉ v := by
      rcases List.append_eq_append_iff.1 hvw with ⟨a, rfl, ha⟩ | ⟨d, rfl, -⟩
      · obtain rfl : a = [] := by
          have := congrArg List.length ha
          simp only [List.length_singleton, List.length_append] at this
          exact List.length_eq_zero.1 (by have := List.length_pos.2 hw; omega)
        simpa using h0
      · exact fun hv => h0 (List.mem_append_left _ hv)
    rw [alignTo_run_eq hp, except_ok_bind, StateT.run_bind]
    simp only [StateT.run, readStringLoop_noNul hv0]
    rfl

end Truncates

/-- A reader call that takes a prefix of its source the same way whatever follows it, and needs
every byte of it. -/
def ReadsStrict {α : Type} (m : ReadM α) : Prop := Reads m ∧ Truncates m

theorem ReadsStrict.readerClosed (da : Bool) : ReaderClosed da ReadsStrict where
  pure a := ⟨Reads.pure a, Truncates.pure a⟩
  bind hx hf := ⟨hx.1.bind fun a => (hf a).1,
    Truncates.bind hx.1 hx.2 (fun a => (hf a).1.takes) fun a => (hf a).2⟩
  throw f _ := ⟨Reads.throw f, Truncates.throw f⟩
  alignTo a := ⟨Reads.alignTo a, Truncates.alignTo a⟩
  readWord size align := ⟨Reads.readWord size align, Truncates.readWord size align⟩
  readString := ⟨Reads.readString, Truncates.readString⟩
  cursorBits := ⟨Reads.cursorBits, Truncates.cursorBits⟩
  debugAssertCursor _ := ⟨Reads.debugAssertCursor, Truncates.of_src_eq fun ⟨_, _, _⟩ _ _ h => by
    obtain ⟨rfl, -⟩ := runs_debugAssertCursor.1 h; rfl⟩

/-! ## The packet parser cut short -/

section
variable {da : Bool} {stream : StreamParser} {ctx : PacketContext}

theorem Parser.parseEvents_takes : Takes (Parser.parseEvents da stream ctx) := by
  rintro ⟨bo, src, c⟩ evs r' h
  obtain ⟨r1, pad, hl, -, -, hs, -⟩ := Parser.runs_parseEvents.1 h
  obtain ⟨t1, hs1, -⟩ := Parser.parseEventsLoop_reads stream _ _ _ _ _ _ _ hl
  exact ⟨t1 ++ pad, by rw [hs1, hs, List.append_assoc]⟩

/-- `parse_events` cut short fails in the loop, on a strict prefix of the events, or in the skip
of the rest of the packet. Its fuel is the length of the source it is given, so the loop is run
with less fuel on the prefix; all fuel above the bytes left gives one outcome. -/
theorem Parser.parseEvents_truncates : Truncates (Parser.parseEvents da stream ctx) := by
  intro bo t u c evs r' h hu
  obtain ⟨r1, pad, hl, hle, hp, hs, -⟩ := Parser.runs_parseEvents.1 h
  obtain ⟨t1, hs1, hbo, -, hrun⟩ := Parser.parseEventsLoop_reads stream _ _ _ _ _ _ _ hl
  have hlen := (Parser.parseEventsLoop_runs hl).2.2
  rw [hs] at hs1 hlen
  simp only [Parser.parseEvents, StateT.run_bind, StateT.run_get, except_pure, except_ok_bind]
  rcases strictPrefix_append (List.append_cancel_right (hs1.trans (List.append_assoc _ _ _).symm))
    hu with ⟨v, rfl, hv⟩ | ⟨v, w, rfl, rfl, hw⟩
  · -- the source ends inside the events
    rw [Parser.parseEventsLoop_fuel da stream _ _ ((t ++ u ++ r'.src).length + 1) ⟨bo, t, c⟩
        (Nat.lt_succ_self _) (by simp only [List.length_append]; omega),
      ((ReadsStrict.readerClosed da).parseEventsLoop ⟨Reads.throw _, Truncates.throw _⟩ stream _
        _).2 bo t v c evs
        ⟨bo, pad ++ r'.src, r1.cursor⟩ (hrun _) hv]
    rfl
  · -- the source ends inside the rest of the packet
    have hl := congrArg List.length hs1
    have hw0 := List.length_pos.2 hw
    simp only [List.length_append] at hl hlen hp
    rw [show (Parser.parseEventsLoop da stream ctx.contentSizeBits ((t1 ++ v).length + 1)).run
        ⟨bo, t1 ++ v, c⟩ = .ok (evs, ⟨bo, v, r1.cursor⟩) from
      Parser.parseEventsLoop_fuel_mono (hrun v) (by simp only [List.length_append]; omega),
      except_ok_bind, if_neg (by omega)]
    simp only [StateT.run_bind, StateT.run_pure, except_pure, except_ok_bind]
    rw [if_pos (by omega), StateT.run_bind,
      skipBytes_short (by rw [Nat.shiftRight_eq_div_pow]; omega)]
    rfl

theorem Parser.parsePacket_truncates (p : Parser) : Truncates (p.parsePacket da) :=
  Truncates.bind p.parseHeader_reads ((ReadsStrict.readerClosed da).parseHeader p).2
    (fun _ => by
      split
      · exact (Parser.parsePacketContext_reads _).takes.bind fun _ =>
          Parser.parseEvents_takes.bind fun _ => (Reads.pure _).takes
      · exact (Reads.throw _).takes)
    fun _ => by
      split
      · exact Truncates.bind (Parser.parsePacketContext_reads _)
          ((ReadsStrict.readerClosed da).parsePacketContext _).2
          (fun _ => Parser.parseEvents_takes.bind fun _ => (Reads.pure _).takes)
          fun _ => Truncates.bind_pure Parser.parseEvents_truncates
      · exact Truncates.throw _

/-- **A packet cut short.** `Parser::parse` on a strict prefix of the bytes a packet takes fails
with `UnexpectedEof`, whatever the configuration: never another packet, never another error. -/
theorem Parser.parse_truncated {p : Parser} {src rest t u : List UInt8} {pkt : Packet}
    (h : p.parse da src = .ok (pkt, rest)) (ht : src = t ++ u ++ rest) (hu : u ≠ []) :
    p.parse da t = .error eof := by
  obtain ⟨r', hr, rfl⟩ := Parser.parse_eq_ok.1 h
  subst ht
  simp only [Parser.parse, StreamReader.new, Parser.parsePacket_truncates p _ t u _ _ r' hr hu]
  rfl

/-- `fiveBytePacket` cut after its header and the first byte of its context. -/
theorem fiveBytePacket_cut_short :
    oneStreamParser.1.parse true [0, 40, 40, 0, 0] = .ok (fiveBytePacket, []) ∧
    oneStreamParser.1.parse true [0, 40] = .error eof :=
  ⟨oneStream_parse_fiveBytePacket true, @Parser.parse_truncated true _ _ _ [0, 40] [40, 0, 0] _
    (oneStream_parse_fiveBytePacket true) rfl (by decide)⟩

/-- **A packet is read from its own bytes.** What `Parser::parse` reads does not depend on the
bytes after the packet: on the packet's bytes followed by anything, it reads the same packet and
leaves what follows. -/
theorem Parser.parse_append {p : Parser} {src rest : List UInt8} {pkt : Packet}
    (h : p.parse da src = .ok (pkt, rest)) :
    ∃ taken, src = taken ++ rest ∧ ∀ s, p.parse da (taken ++ s) = .ok (pkt, s) := by
  obtain ⟨r', hr, rfl⟩ := Parser.parse_eq_ok.1 h
  obtain ⟨⟨bo1, src1, c1⟩, ⟨bo2, src2, c2⟩, stream, h1, hs, h2, h3⟩ := Parser.runs_parsePacket.1 hr
  obtain ⟨t1, rfl, rfl, hc1, hr1⟩ := p.parseHeader_reads _ _ _ _ _ h1
  obtain ⟨t2, rfl, rfl, hc2, hr2⟩ := Parser.parsePacketContext_reads stream _ _ _ _ _ h2
  have hc1 := hc1 rfl
  dsimp only [StreamReader.new, AlignedCursor.default_bitIndex] at hc1
  have hc2 := hc2 (by omega)
  dsimp only at hc2
  obtain ⟨t3, rfl, -, -, -, -, -, -, -, hr3⟩ := Parser.parseEvents_runs (by omega) h3
  refine ⟨t1 ++ t2 ++ t3, by simp, fun s => Parser.parse_eq_ok.2
    ⟨_, Parser.runs_parsePacket.2 ⟨_, _, _, ?_, hs, hr2 (t3 ++ s), hr3 s⟩, rfl⟩⟩
  simpa only [List.append_assoc] using hr1 (t2 ++ (t3 ++ s))

/-- `fiveBytePacket` followed by any bytes. -/
theorem fiveBytePacket_then_anything :
    oneStreamParser.1.parse true [0, 40, 40, 0, 0] = .ok (fiveBytePacket, []) ∧
    ∃ taken, ([0, 40, 40, 0, 0] : List UInt8) = taken ++ [] ∧
      ∀ s, oneStreamParser.1.parse true (taken ++ s) = .ok (fiveBytePacket, s) :=
  ⟨oneStream_parse_fiveBytePacket true, Parser.parse_append (oneStream_parse_fiveBytePacket true)⟩

end

end BarectfParser
