import BarectfParser.Parser.Ids

/-!
# The configurations `Parser::new` accepts

`Parser::new` rejects a configuration only for its field types. It accepts exactly the
configurations whose every field type it compiles has a size and an alignment among 8, 16, 32 and
64 bits, and whose magic number field, if there is one, is 32 bits wide: `Config.supported`, a
check that runs. The alignments it checks besides, of the packet header, of a structure, of a
stream's packet context and of its event header, are the largest alignments of fields it has
accepted before, or 8; so they pass, and `UnsupportedAlignment` is never its error.

* `Checks P x b`: the call `x` succeeds exactly when the check `b` holds, and fails only with an
  error `P` describes; its combinators `Checks.bind_of`, `Checks.mapM`, ... follow the calls of
  `Parser::new`. A field check fails with a size or an alignment it does not support
  (`FieldUnsupportedError.Rejects`), `Parser::new` with `UnsupportedFieldType` of such a field,
  under its path, or of a magic number field that is not 32 bits wide (`Error.IsFieldType`).
* `supported_max_left`, `membersAlignment_supported`: the alignments of accepted fields.
* `Parser.new_checks`, and from it `Parser.new_ok_iff` and `Parser.new_error`.
-/

namespace BarectfParser

/-! ## The check -/

/-- `Size::from_bits` takes `bits`: 8, 16, 32 or 64. -/
def sizeSupported (bits : Nat) : Bool := (Size.fromBits bits).isSome

/-- `FieldDesc::from_ft` accepts `ft`: its size and its alignment are supported. -/
def fieldSupported {α : Type} [FieldType α] (ft : α) : Bool :=
  sizeSupported (FieldType.size ft) && sizeSupported (FieldType.alignment ft)

/-- `UIntParser::from_opt_uint_ft` accepts the feature: absent, or a supported field. -/
def FeaturesUnsignedIntegerFieldType.supported : FeaturesUnsignedIntegerFieldType → Bool
  | .false => true
  | .unsignedInteger ft => fieldSupported ft.fieldType

/-- Every member of the structure has a supported field type. -/
def membersSupported (ms : List (BTreeMap StructureFieldTypeMember)) : Bool :=
  (memberEntries ms).all fun e => fieldSupported e.2.fieldType

def EventRecordType.supported (ert : EventRecordType) : Bool :=
  ert.specificContextFieldType.all (membersSupported ·.members) &&
    ert.payloadFieldType.all (membersSupported ·.members)

def DataStreamType.supported (dst : DataStreamType) : Bool :=
  fieldSupported dst.features.packet.totalSizeFieldType.fieldType &&
  fieldSupported dst.features.packet.contentSizeFieldType.fieldType &&
  dst.features.packet.beginningTimestampFieldType.supported &&
  dst.features.packet.endTimestampFieldType.supported &&
  dst.features.packet.discardedEventRecordsCounterSnapshotFieldType.supported &&
  dst.features.packet.sequenceNumberFieldType.supported &&
  membersSupported dst.packetContextFieldTypeExtraMembers.members &&
  dst.eventRecordCommonContextFieldType.all (membersSupported ·.members) &&
  dst.eventRecordTypes.entries.all (·.2.supported) &&
  fieldSupported dst.features.eventRecord.typeIdFieldType.fieldType &&
  fieldSupported dst.features.eventRecord.timestampFieldType.fieldType

/-- The configurations `Parser::new` accepts. -/
def Config.supported (cfg : Config) : Bool :=
  cfg.trace.typ.features.magicFieldType.asFt.all (·.fieldType.size == 32) &&
  cfg.trace.typ.features.magicFieldType.supported &&
  fieldSupported cfg.trace.typ.features.dataStreamTypeIdFieldType.fieldType &&
  cfg.trace.typ.dataStreamTypes.entries.all (·.2.supported)

/-- The error `Parser::new` gives for a field type it does not support: the field's path, size and
alignment, of which the size or the alignment is not supported, or the magic number field's size
is not 32. -/
def Error.IsFieldType (e : Error) : Prop :=
  ∃ path size alignment, e = .unsupportedFieldType path size alignment ∧
    ((sizeSupported size && sizeSupported alignment) = false ∨
      path = "magic-field-type" ∧ size ≠ 32)

/-! ## The alignments of accepted fields -/

/-- An alignment that an absent feature contributes, or a supported one. -/
def AlignOk (a : Nat) : Prop := a = 0 ∨ sizeSupported a = true

theorem AlignOk.max {a b : Nat} (ha : AlignOk a) (hb : AlignOk b) : AlignOk (max a b) := by
  rcases max_choice a b with h | h <;> rw [h] <;> assumption

theorem supported_max_left {a b : Nat} (ha : sizeSupported a = true) (hb : AlignOk b) :
    sizeSupported (max a b) = true := by
  rcases hb with rfl | hb
  · rwa [Nat.max_zero]
  · rcases max_choice a b with h | h <;> rw [h] <;> assumption

theorem supported_max_right {a b : Nat} (ha : AlignOk a) (hb : sizeSupported b = true) :
    sizeSupported (max a b) = true := by
  rw [Nat.max_comm]
  exact supported_max_left hb ha

theorem fieldSupported_alignment {α : Type} [FieldType α] {ft : α}
    (h : fieldSupported ft = true) : sizeSupported (FieldType.alignment ft) = true :=
  (Bool.and_eq_true _ _ ▸ h).2

theorem FeaturesUnsignedIntegerFieldType.alignOk {f : FeaturesUnsignedIntegerFieldType}
    (h : f.supported = true) : AlignOk f.alignment := by
  cases f with
  | false => exact .inl rfl
  | unsignedInteger ft => exact .inr (fieldSupported_alignment h)

/-- The largest alignment of supported members is supported, and so is 8. -/
theorem membersAlignment_supported {ms : List (BTreeMap StructureFieldTypeMember)}
    (h : membersSupported ms = true) : sizeSupported (membersAlignment ms) = true := by
  unfold membersAlignment
  rcases hm : ((memberEntries ms).map (·.2.fieldType.alignment)).max? with _ | m <;> rw [hm]
  · rfl
  · obtain ⟨e, he, rfl⟩ := List.mem_map.1 (List.max?_mem max_choice hm)
    exact fieldSupported_alignment (List.all_eq_true.1 h e he)

/-! ## Calls that succeed exactly when a check holds -/

/-- A call that succeeds exactly when `b` holds, and fails only with an error that `P` describes.
-/
structure Checks {ε α : Type} (P : ε → Prop) (x : Except ε α) (b : Bool) : Prop where
  okIff : (∃ a, x = .ok a) ↔ b = true
  errors : ∀ e, x = .error e → P e

/-- The error of `FieldDesc::from_ft`: a size or an alignment other than 8, 16, 32 and 64. -/
def FieldUnsupportedError.Rejects (e : FieldUnsupportedError) : Prop :=
  (sizeSupported e.width && sizeSupported e.alignment) = false

namespace Checks

variable {ε α β γ : Type} {P : ε → Prop}

theorem congr {x : Except ε α} {b c : Bool} (h : Checks P x b) (e : b = c) : Checks P x c :=
  e ▸ h

theorem of_ok {x : Except ε α} {a : α} (h : x = .ok a) : Checks P x true :=
  ⟨⟨fun _ => rfl, fun _ => ⟨a, h⟩⟩, fun _ he => by cases h.symm.trans he⟩

theorem of_error {x : Except ε α} {e : ε} (h : x = .error e) (he : P e) : Checks P x false :=
  ⟨⟨fun ⟨_, h'⟩ => (by cases h.symm.trans h'), fun h => by cases h⟩,
    fun _ h' => by cases h.symm.trans h'; exact he⟩

/-- **The step.** The second call's check may use that the first call succeeded. -/
theorem bind_of {x : Except ε α} {f : α → Except ε β} {b c : Bool} (hx : Checks P x b)
    (hf : ∀ a, x = .ok a → Checks P (f a) c) : Checks P (x >>= f) (b && c) where
  okIff := by
    rw [Bool.and_eq_true]
    constructor
    · rintro ⟨_, h⟩
      obtain ⟨a, ha, h⟩ := except_bind_eq_ok.1 h
      exact ⟨hx.okIff.1 ⟨a, ha⟩, (hf a ha).okIff.1 ⟨_, h⟩⟩
    · rintro ⟨hb, hc⟩
      obtain ⟨a, ha⟩ := hx.okIff.2 hb
      obtain ⟨y, hy⟩ := (hf a ha).okIff.2 hc
      exact ⟨y, by rw [ha, except_ok_bind, hy]⟩
  errors e h := by
    rcases hx' : x with e' | a <;> rw [hx'] at h
    · cases h
      exact hx.errors e hx'
    · exact (hf a hx').errors e h

theorem bind {x : Except ε α} {f : α → Except ε β} {b c : Bool} (hx : Checks P x b)
    (hf : ∀ a, Checks P (f a) c) : Checks P (x >>= f) (b && c) :=
  hx.bind_of fun a _ => hf a

theorem map {x : Except ε α} {b : Bool} (g : α → β) (hx : Checks P x b) :
    Checks P (g <$> x) b := by
  cases x with
  | error e =>
    have hb : b = false := Bool.eq_false_iff.2 fun h => by
      obtain ⟨_, h⟩ := hx.okIff.2 h
      cases h
    exact hb ▸ of_error rfl (hx.errors e rfl)
  | ok a => exact (of_ok rfl).congr (hx.okIff.1 ⟨a, rfl⟩).symm

theorem mapM {f : γ → Except ε β} (g : γ → Bool) (hf : ∀ c, Checks P (f c) (g c)) :
    ∀ l : List γ, Checks P (l.mapM f) (l.all g)
  | [] => of_ok rfl
  | c :: l => by
    rw [List.mapM_cons]
    exact ((hf c).bind fun _ => (mapM g hf l).bind fun _ => of_ok rfl).congr (by simp)

theorem optionMapM {f : γ → Except ε β} (g : γ → Bool) (hf : ∀ c, Checks P (f c) (g c)) :
    ∀ o : Option γ, Checks P (o.mapM f) (o.all g)
  | none => of_ok rfl
  | some c => ((hf c).bind fun _ => of_ok rfl).congr (Bool.and_true _)

/-- The path is added, and the size and the alignment the field check rejected are kept. -/
theorem withFieldPath {x : Except FieldUnsupportedError α} {b : Bool} (path : String)
    (h : Checks FieldUnsupportedError.Rejects x b) :
    Checks Error.IsFieldType (BarectfParser.withFieldPath path x) b where
  okIff := by simpa only [withFieldPath_eq_ok] using h.okIff
  errors e he := by
    cases hx : x <;> simp only [hx, BarectfParser.withFieldPath, Except.mapError,
      Except.error.injEq, reduceCtorEq] at he
    subst he
    exact ⟨_, _, _, rfl, .inl (h.errors _ hx)⟩

theorem checkMagicFieldType (ft : FeaturesUnsignedIntegerFieldType) :
    Checks Error.IsFieldType (BarectfParser.checkMagicFieldType ft)
      (ft.asFt.all (·.fieldType.size == 32)) := by
  unfold BarectfParser.checkMagicFieldType
  split
  · rename_i m hm
    rw [hm]
    split
    · rename_i hs
      exact (of_error rfl ⟨_, _, _, rfl, .inr ⟨rfl, hs⟩⟩).congr (by simpa using hs)
    · exact (of_ok rfl).congr (by simp_all)
  · rename_i hm
    rw [hm]
    exact of_ok rfl

end Checks

theorem FieldDesc.fromFt_checks {α : Type} [FieldType α] (ft : α) :
    Checks FieldUnsupportedError.Rejects (FieldDesc.fromFt ft) (fieldSupported ft) := by
  unfold FieldDesc.fromFt
  split
  · rename_i hs ha
    exact (Checks.of_ok rfl).congr (by simp only [fieldSupported, sizeSupported, hs, ha,
      Option.isSome_some, Bool.and_self])
  · rename_i h
    have hb : fieldSupported ft = false := by
      refine Bool.eq_false_iff.2 fun hb => ?_
      simp only [fieldSupported, sizeSupported, Bool.and_eq_true, Option.isSome_iff_exists] at hb
      obtain ⟨⟨s, hs⟩, ⟨a, ha⟩⟩ := hb
      exact h s a hs ha
    exact hb ▸ Checks.of_error rfl hb

theorem UIntParser.fromUintFt_checks (ft : UnsignedIntegerFieldType) :
    Checks FieldUnsupportedError.Rejects (UIntParser.fromUintFt ft) (fieldSupported ft.fieldType) :=
  (FieldDesc.fromFt_checks _).map _

theorem UIntParser.fromOptUintFt_checks (ft : FeaturesUnsignedIntegerFieldType) :
    Checks FieldUnsupportedError.Rejects (UIntParser.fromOptUintFt ft) ft.supported := by
  cases ft with
  | false => exact Checks.of_ok rfl
  | unsignedInteger ft => exact (UIntParser.fromUintFt_checks ft).map _

theorem PrimitiveFieldTypeParser.fromFt_checks (ft : PrimitiveFieldType) :
    Checks FieldUnsupportedError.Rejects (PrimitiveFieldTypeParser.fromFt ft)
      (fieldSupported ft) :=
  ((FieldDesc.fromFt_checks ft).bind fun _ => Checks.of_ok rfl).congr (Bool.and_true _)

/-- An array is checked as its element, twice. -/
theorem FieldTypeParser.fromFt_checks (ft : StructureMemberFieldType) :
    Checks FieldUnsupportedError.Rejects (FieldTypeParser.fromFt ft) (fieldSupported ft) := by
  refine ((FieldDesc.fromFt_checks ft).bind_of fun desc h => ?_).congr (Bool.and_true _)
  have hs := (FieldDesc.fromFt_checks ft).okIff.1 ⟨desc, h⟩
  cases ft with
  | staticArray t =>
    obtain ⟨p, hp⟩ := (PrimitiveFieldTypeParser.fromFt_checks t.elementFieldType).okIff.2 hs
    exact Checks.of_ok (show _ <$> _ = _ by rw [hp]; rfl)
  | dynamicArray t =>
    obtain ⟨p, hp⟩ := (PrimitiveFieldTypeParser.fromFt_checks t.elementFieldType).okIff.2 hs
    exact Checks.of_ok (show _ <$> _ = _ by rw [hp]; rfl)
  | _ => exact Checks.of_ok rfl

/-! ## Calls of `Parser::new` -/

/-- An alignment that passes is no error. -/
theorem Size.fromBitsOr_checks {bits : Nat} (path : String) (h : sizeSupported bits = true) :
    Checks Error.IsFieldType (Size.fromBitsOr bits path) true := by
  obtain ⟨s, hs⟩ := Option.isSome_iff_exists.1 h
  exact Checks.of_ok (show Size.fromBitsOr bits path = .ok s by simp only [Size.fromBitsOr, hs])

theorem EventPayloadMemberParser.fromMembers_checks (path : String)
    (ms : List (BTreeMap StructureFieldTypeMember)) :
    Checks Error.IsFieldType (EventPayloadMemberParser.fromMembers path ms)
      (membersSupported ms) :=
  Checks.mapM (fun e : String × StructureFieldTypeMember => fieldSupported e.2.fieldType)
    (fun ⟨_, _⟩ =>
    ((Checks.withFieldPath _ (FieldTypeParser.fromFt_checks _)).bind fun _ =>
      Checks.of_ok rfl).congr (Bool.and_true _)) _

/-- A structure's alignment is that of its members, which they have passed. -/
theorem EventPayloadParser.fromStructFt_checks (path : String) (ft : StructureFieldType) :
    Checks Error.IsFieldType (EventPayloadParser.fromStructFt path ft)
      (membersSupported ft.members) :=
  ((EventPayloadMemberParser.fromMembers_checks _ _).bind_of fun _ h =>
    (Size.fromBitsOr_checks _ (membersAlignment_supported
      ((EventPayloadMemberParser.fromMembers_checks _ _).okIff.1 ⟨_, h⟩))).bind fun _ =>
    Checks.of_ok rfl).congr (by simp only [Bool.and_true])

theorem EventParser.fromEventRecordType_checks (streamName eventName : String)
    (ert : EventRecordType) :
    Checks Error.IsFieldType (EventParser.fromEventRecordType streamName eventName ert)
      ert.supported :=
  ((Checks.optionMapM (membersSupported ·.members)
      (EventPayloadParser.fromStructFt_checks _) _).bind fun _ =>
    (Checks.optionMapM (membersSupported ·.members)
      (EventPayloadParser.fromStructFt_checks _) _).bind fun _ =>
    Checks.of_ok rfl).congr (by simp only [Bool.and_true, EventRecordType.supported])

/-- A stream's packet context alignment is the largest of its features' and extra members', and
its event header's the larger of its id's and timestamp's, all passed before. -/
theorem StreamParser.fromDataStreamType_checks (hint : AlignedCursor) (name : String)
    (dst : DataStreamType) :
    Checks Error.IsFieldType (StreamParser.fromDataStreamType hint name dst) dst.supported := by
  have uint := fun path ft => Checks.withFieldPath path (UIntParser.fromUintFt_checks ft)
  have opt := fun path ft => Checks.withFieldPath path (UIntParser.fromOptUintFt_checks ft)
  refine ((uint _ _).bind_of fun _ h1 => (uint _ _).bind_of fun _ h2 =>
    (opt _ _).bind_of fun _ h3 => (opt _ _).bind_of fun _ h4 =>
    (opt _ _).bind_of fun _ h5 => (opt _ _).bind_of fun _ h6 =>
    (EventPayloadMemberParser.fromMembers_checks _ _).bind_of fun _ h7 =>
    (Checks.optionMapM (membersSupported ·.members)
      (EventPayloadParser.fromStructFt_checks _) _).bind fun _ =>
    (Checks.mapM (fun e : String × EventRecordType => e.2.supported)
      (fun ⟨_, _⟩ => EventParser.fromEventRecordType_checks _ _ _) _).bind fun _ =>
    (Size.fromBitsOr_checks _ ?_).bind fun _ =>
    (uint _ _).bind_of fun _ h8 => (uint _ _).bind_of fun _ h9 =>
    (Size.fromBitsOr_checks _ ?_).bind fun _ => Checks.of_ok rfl).congr ?_
  · -- the packet context: the features, then the extra members
    exact supported_max_left (supported_max_left (supported_max_left (supported_max_left
      (fieldSupported_alignment ((uint _ _).okIff.1 ⟨_, h1⟩))
      (.inr (fieldSupported_alignment ((uint _ _).okIff.1 ⟨_, h2⟩))))
      ((FeaturesUnsignedIntegerFieldType.alignOk ((opt _ _).okIff.1 ⟨_, h3⟩)).max
        (FeaturesUnsignedIntegerFieldType.alignOk ((opt _ _).okIff.1 ⟨_, h4⟩))))
      ((FeaturesUnsignedIntegerFieldType.alignOk ((opt _ _).okIff.1 ⟨_, h5⟩)).max
        (FeaturesUnsignedIntegerFieldType.alignOk ((opt _ _).okIff.1 ⟨_, h6⟩))))
      (.inr (membersAlignment_supported
        ((EventPayloadMemberParser.fromMembers_checks _ _).okIff.1 ⟨_, h7⟩)))
  · -- the event header: the id, then the timestamp
    exact supported_max_left (fieldSupported_alignment ((uint _ _).okIff.1 ⟨_, h8⟩))
      (.inr (fieldSupported_alignment ((uint _ _).okIff.1 ⟨_, h9⟩)))
  · simp only [Bool.and_true, Bool.true_and, sortedByKey_eq, DataStreamType.supported,
      Bool.and_assoc]

/-- **`Parser::new` checks the field types and nothing else.** Its packet header alignment is the
largest of its magic number's, its UUID's and its stream id's, all passed before. -/
theorem Parser.new_checks (cfg : Config) :
    Checks Error.IsFieldType (Parser.new cfg) cfg.supported := by
  have hmagic := Checks.withFieldPath "magic-field-type"
    (UIntParser.fromOptUintFt_checks cfg.trace.typ.features.magicFieldType)
  have hid := Checks.withFieldPath "data-stream-type-id-field-type"
    (UIntParser.fromUintFt_checks cfg.trace.typ.features.dataStreamTypeIdFieldType)
  refine ((Checks.checkMagicFieldType _).bind fun _ => hmagic.bind_of fun _ h1 =>
    hid.bind_of fun _ h2 => (Size.fromBitsOr_checks _ ?_).bind fun _ =>
    (Checks.mapM (fun e : String × DataStreamType => e.2.supported)
      (fun ⟨_, _⟩ => StreamParser.fromDataStreamType_checks _ _ _) _).bind fun _ =>
    Checks.of_ok rfl).congr ?_
  · have huuid :
        AlignOk (if cfg.trace.typ.features.uuidFieldType then defaultAlignmentBits else 0) := by
      split
      · exact .inr rfl
      · exact .inl rfl
    exact supported_max_right
      ((FeaturesUnsignedIntegerFieldType.alignOk (hmagic.okIff.1 ⟨_, h1⟩)).max huuid)
      (fieldSupported_alignment (hid.okIff.1 ⟨_, h2⟩))
  · simp only [Bool.and_true, Bool.true_and, sortedByKey_eq, Config.supported, Bool.and_assoc]

/-- **The configurations `Parser::new` accepts.** It succeeds exactly when `Config.supported`
holds: every field type it compiles has a size and an alignment of 8, 16, 32 or 64 bits, and the
magic number field, if any, is 32 bits wide. -/
theorem Parser.new_ok_iff (cfg : Config) :
    (∃ p, Parser.new cfg = .ok p) ↔ cfg.supported = true :=
  (Parser.new_checks cfg).okIff

example : (oneStreamConfig []).supported = true := by decide

example : (oneStreamConfig (oneMember "m" (.unsignedInteger ⟨12, 8, .decimal⟩))).supported =
    false := by
  decide

/-- **`UnsupportedAlignment` is never reported.** `Parser::new` fails only with
`UnsupportedFieldType`: every alignment it checks is the largest of alignments it has accepted. -/
theorem Parser.new_error {cfg : Config} {e : Error} (h : Parser.new cfg = .error e) :
    ∃ path size alignment, e = .unsupportedFieldType path size alignment ∧
      ((sizeSupported size && sizeSupported alignment) = false ∨
        path = "magic-field-type" ∧ size ≠ 32) :=
  (Parser.new_checks cfg).errors e h

/-- A 12-bit extra member of the packet context is rejected, under its path. -/
theorem twelveBitMember_rejected :
    Parser.new (oneStreamConfig (oneMember "m" (.unsignedInteger ⟨12, 8, .decimal⟩))) =
      .error (.unsupportedFieldType "stream.s.packet-context-field-type-extra-members.m" 12 8) ∧
    ∃ path size alignment,
      (Error.unsupportedFieldType "stream.s.packet-context-field-type-extra-members.m" 12 8 :
        Error) = .unsupportedFieldType path size alignment ∧
      ((sizeSupported size && sizeSupported alignment) = false ∨
        path = "magic-field-type" ∧ size ≠ 32) :=
  have h : Parser.new (oneStreamConfig (oneMember "m" (.unsignedInteger ⟨12, 8, .decimal⟩))) =
      .error (.unsupportedFieldType "stream.s.packet-context-field-type-extra-members.m" 12 8) :=
    rfl
  ⟨h, Parser.new_error h⟩

end BarectfParser
