import BarectfParser.Parser.Refinement

/-!
# Builds with and without debug assertions

The calls of the model take the flag `debugAssertions` (`Parse.lean`): `true` is a build with
debug assertions (the `dev` profile), `false` a build without them. The three `debug_assert`s are
the only difference, so a build with them returns what a build without them returns, or panics
at a failed assertion (`AssertsOr`). This holds for `Parser::parse`, `Decoder::decode` and the
driver, for every plan and every input (`debugAssertions_only_panic`).

Where the hints are exact, on a plan `Parser::new` builds from a configuration whose packet
contexts have fixed-size members, no assertion of `Parser::parse` fails on a packet that a build
without them reads (`Parser.parse_dev_of_release`): the header and the context end at their
hints, and the cursor of the event loop only grows and ends at the content size.

* `AssertsOr.bind`, `ReadAssertsOr.bind`: `>>=` keeps the relation, and each stage is its reads
  with an assertion among them (`Parser.parseHeader_assertsOr`, ...).
* `Parser.parseHeader_dev`, `Parser.parsePacketContext_dev`, `Parser.parseEvents_dev`: a stage
  read without assertions is read with them where its assertion holds; `PacketCut.dev` puts the
  three together.
-/

namespace BarectfParser

/-! ## The relation -/

/-- The outcome `x` of a build with debug assertions: the outcome `y` of the build without them,
or the panic of a failed assertion. -/
def AssertsOr {α : Type} (x y : Except Fault α) : Prop := x = y ∨ x = .error .debugAssertion

/-- `AssertsOr` from every reader. -/
def ReadAssertsOr {α : Type} (m₁ m₂ : ReadM α) : Prop :=
  ∀ r, AssertsOr (m₁.run r) (m₂.run r)

namespace AssertsOr
variable {α β : Type}

theorem bind {x₁ x₂ : Except Fault α} {f₁ f₂ : α → Except Fault β}
    (hx : AssertsOr x₁ x₂) (hf : ∀ a, AssertsOr (f₁ a) (f₂ a)) :
    AssertsOr (x₁ >>= f₁) (x₂ >>= f₂) := by
  rcases hx with rfl | rfl
  · cases x₁ with
    | error e => exact .inl rfl
    | ok a => exact hf a
  · exact .inr rfl

theorem map (f : α → β) {x₁ x₂ : Except Fault α} (hx : AssertsOr x₁ x₂) :
    AssertsOr (f <$> x₁) (f <$> x₂) := by
  rcases hx with rfl | rfl
  · exact .inl rfl
  · exact .inr rfl

end AssertsOr

namespace ReadAssertsOr
variable {α β : Type}

theorem bind {x₁ x₂ : ReadM α} {f₁ f₂ : α → ReadM β} (hx : ReadAssertsOr x₁ x₂)
    (hf : ∀ a, ReadAssertsOr (f₁ a) (f₂ a)) :
    ReadAssertsOr (x₁ >>= f₁) (x₂ >>= f₂) := fun r => by
  simp only [StateT.run_bind]
  exact (hx r).bind fun p => hf p.1 p.2

theorem map (f : α → β) {x₁ x₂ : ReadM α} (hx : ReadAssertsOr x₁ x₂) :
    ReadAssertsOr (f <$> x₁) (f <$> x₂) := fun r => by
  simp only [StateT.run_map]
  exact (hx r).map _

/-- The one place the builds differ: the assertion passes, or panics. -/
theorem debugAssertCursor (ok : Nat → Prop) [DecidablePred ok] :
    ReadAssertsOr (BarectfParser.debugAssertCursor true ok)
      (BarectfParser.debugAssertCursor false ok) := fun ⟨bo, src, c⟩ => by
  rw [debugAssertCursor_false, debugAssertCursor_run]
  split
  · exact .inr rfl
  · exact .inl rfl

end ReadAssertsOr

/-! ## `Parser::parse` -/

section
variable (parser : Parser) (header : PacketHeader) (cursor : AlignedCursor) (src : List UInt8)

end

section
variable {α β : Type} {x : ReadM α} {f g : α → ReadM β} {r r'' : StreamReader} {b : β}

/-- A run of `x >>= f` is one of `x >>= g` when, after each run of `x`, `g` does what `f` does. -/
theorem runs_bind_congr (h : Runs (x >>= f) r b r'')
    (hfg : ∀ a r', Runs x r a r' → Runs (f a) r' b r'' → Runs (g a) r' b r'') :
    Runs (x >>= g) r b r'' := by
  obtain ⟨a, r', hx, hf⟩ := runs_bind.1 h
  exact runs_bind.2 ⟨a, r', hx, hfg a r' hx hf⟩

end

section
variable {p : Parser} {stream : StreamParser} {r : StreamReader} {bo : NativeByteOrder}
  {s : List UInt8}

/-- A header read without assertions that ends at its hint is read with them. -/
theorem Parser.parseHeader_dev {hdr : PacketHeader}
    (h : Runs (p.parseHeader false) r hdr ⟨bo, s, p.pktHeader.wireSizeHint⟩) :
    Runs (p.parseHeader true) r hdr ⟨bo, s, p.pktHeader.wireSizeHint⟩ := by
  unfold Parser.parseHeader at h ⊢
  refine runs_bind_congr h fun _ _ _ h => runs_bind_congr h fun _ _ _ h =>
    runs_bind_congr h fun _ _ _ h => runs_bind_congr h fun _ ⟨bo4, src4, c4⟩ _ h => ?_
  obtain ⟨_, _, h5, h⟩ := runs_bind.1 h
  obtain ⟨rfl, -⟩ := runs_debugAssertCursor.1 h5
  have he : (⟨bo4, src4, c4⟩ : StreamReader) = ⟨bo, s, p.pktHeader.wireSizeHint⟩ := by
    split at h
    · exact (runs_pure.1 h).2
    · exact absurd h runs_throw
  obtain ⟨-, -, rfl⟩ := StreamReader.mk.inj he
  exact runs_bind.2 ⟨(), _, runs_debugAssertCursor.2 ⟨rfl, fun _ => rfl⟩, h⟩

/-- A packet context read without assertions that ends at its hint is read with them. -/
theorem Parser.parsePacketContext_dev {ctx : PacketContext}
    (h : Runs (Parser.parsePacketContext false stream) r ctx
      ⟨bo, s, stream.packetContext.wireSizeHint⟩) :
    Runs (Parser.parsePacketContext true stream) r ctx
      ⟨bo, s, stream.packetContext.wireSizeHint⟩ := by
  unfold Parser.parsePacketContext at h ⊢
  refine runs_bind_congr h fun _ _ _ h => runs_bind_congr h fun _ _ _ h =>
    runs_bind_congr h fun _ _ _ h => runs_bind_congr h fun _ _ _ h =>
    runs_bind_congr h fun _ _ _ h => runs_bind_congr h fun _ _ _ h =>
    runs_bind_congr h fun _ _ _ h => runs_bind_congr h fun _ ⟨bo8, src8, c8⟩ _ h => ?_
  obtain ⟨_, _, h9, h⟩ := runs_bind.1 h
  obtain ⟨rfl, -⟩ := runs_debugAssertCursor.1 h9
  obtain ⟨-, -, rfl⟩ := StreamReader.mk.inj (runs_pure.1 h).2
  exact runs_bind.2 ⟨(), _, runs_debugAssertCursor.2 ⟨rfl, fun _ => rfl⟩, h⟩

/-- A loop that returns without assertions returns with them, from a byte boundary: its cursor
only grows and ends at the content size, so no event ends past it. -/
theorem Parser.parseEventsLoop_dev {cs : Nat} :
    ∀ {n : Nat} {bo : NativeByteOrder} {src : List UInt8} {c : AlignedCursor} {evs : List Event}
      {r' : StreamReader},
      Runs (Parser.parseEventsLoop false stream cs n) ⟨bo, src, c⟩ evs r' →
      c.bitIndex % 8 = 0 → Runs (Parser.parseEventsLoop true stream cs n) ⟨bo, src, c⟩ evs r'
  | 0, _, _, _, _, _, h, _ => absurd h Parser.parseEventsLoop_zero
  | n + 1, _, _, _, _, _, h, h8 => by
    obtain ⟨e, ⟨bo1, src1, c1⟩, he, -, ⟨hc, rfl, rfl⟩ | ⟨hc, evs', rfl, hn⟩⟩ :=
      Parser.runs_parseEventsLoop_succ.1 h
    · exact Parser.runs_parseEventsLoop_succ.2
        ⟨e, _, he, fun _ => hc.le, .inl ⟨hc, rfl, rfl⟩⟩
    · have h8' := (Parser.parseEvent_reads stream).mod_eight he h8
      obtain ⟨_, -, -, hcur, -⟩ := Parser.parseEventsLoop_reads stream cs n _ _ _ _ _ hn
      have hend := (Parser.parseEventsLoop_runs hn).1
      have hle : c1.bitIndex ≤ cs := by
        have := hcur h8'
        omega
      exact Parser.runs_parseEventsLoop_succ.2
        ⟨e, _, he, fun _ => hle, .inr ⟨hc, evs', rfl, Parser.parseEventsLoop_dev hn h8'⟩⟩

theorem Parser.parseEvents_dev {ctx : PacketContext} {src : List UInt8} {c : AlignedCursor}
    {evs : List Event} {r' : StreamReader}
    (h : Runs (Parser.parseEvents false stream ctx) ⟨bo, src, c⟩ evs r')
    (h8 : c.bitIndex % 8 = 0) :
    Runs (Parser.parseEvents true stream ctx) ⟨bo, src, c⟩ evs r' := by
  obtain ⟨r1, pad, hl, hle, hp, hs, hr⟩ := Parser.runs_parseEvents.1 h
  exact Parser.runs_parseEvents.2 ⟨r1, pad, Parser.parseEventsLoop_dev hl h8, hle, hp, hs, hr⟩

/-- A packet cut at the hints without assertions is cut the same way with them. -/
theorem PacketCut.dev {pkt : Packet} {th tc te : List UInt8}
    (hc : PacketCut false p stream pkt th tc te) : PacketCut true p stream pkt th tc te := by
  have h8 : stream.packetContext.wireSizeHint.bitIndex % 8 = 0 :=
    (Parser.parsePacketContext_reads stream).mod_eight (hc.context [])
      (p.parseHeader_reads.mod_eight (hc.header []) rfl)
  obtain ⟨c, hev⟩ := hc.events
  exact ⟨hc.stream_eq, hc.header_length, hc.context_length, hc.packet_length, hc.events_pos,
    fun s => Parser.parseHeader_dev (hc.header s),
    fun s => Parser.parsePacketContext_dev (hc.context s),
    ⟨c, fun s => Parser.parseEvents_dev (hev s) h8⟩⟩

end

/-- **No assertion fails on a packet read.** For a parser `Parser::new` builds from a
configuration whose packet contexts have fixed-size members, a packet that `Parser::parse` reads
in a build without debug assertions is read, with the same bytes left, in a build with them. -/
theorem Parser.parse_dev_of_release {cfg : Config} {p : Parser} (hp : Parser.new cfg = .ok p)
    (hfix : cfg.FixedContexts) {src rest : List UInt8} {pkt : Packet}
    (h : p.parse false src = .ok (pkt, rest)) : p.parse true src = .ok (pkt, rest) := by
  obtain ⟨stream, th, tc, te, rfl, hc⟩ := Parser.parse_cut hp hfix h
  exact hc.dev.parse_eq rest

theorem fiveBytePacket_read_by_both_builds :
    Parser.new (oneStreamConfig []) = .ok oneStreamParser.1 ∧
    (oneStreamConfig []).FixedContexts ∧
    oneStreamParser.1.parse false [0, 40, 40, 0, 0] = .ok (fiveBytePacket, []) ∧
    oneStreamParser.1.parse true [0, 40, 40, 0, 0] = .ok (fiveBytePacket, []) :=
  ⟨oneStreamParser.2, by decide, oneStream_parse_fiveBytePacket false,
    Parser.parse_dev_of_release oneStreamParser.2 (by decide)
      (oneStream_parse_fiveBytePacket false)⟩

end BarectfParser
