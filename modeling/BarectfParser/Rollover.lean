import BarectfParser.Types

/-!
# Rollover tracking

`CyclesTracker` and `TrackingInstant` (`src/types/mod.rs`). A timestamp field of 8, 16 or 32 bits
wraps around; `TrackingInstant::elapsed` counts the wraps in a `u32` upper word and returns the
unwrapped time, `(upper << size_bits) | lower`. A 64-bit lower word is returned as it is read.

The four variants of `CyclesTracker` are one structure: the variant's width and a value below
`2 ^ width`. `set` keeps the low bits of the reading (`cycles as uN`, the whole `u64` for `U64`).
The increment `upper += 1` is checked, as in a build with overflow checks: on overflow `elapsed`
ends with `Fault.addOverflow`.

* `TrackingInstant.value`: the time a state of width `w < 64` stands for, `upper * 2^w + lower`;
  `asTimestamp_toNat`: `as_timestamp` is that time.
* `update_unwraps`: from a state standing for `T`, the reading of a time `t` with
  `T ≤ t < T + 2^w` moves the state to `t`, as long as `t < 2^(w+32)`.
* `elapsedAll_unwraps`: along a run of such times, every call returns its time.
* `update_advances`, `elapsedAll_advances`: the converse. Whatever the readings below `2^w`, the
  times the calls return never decrease, each is less than `2^w` past the one before, and their
  low `w` bits are the readings, until the upper word overflows.
* `elapsedAll_ok`: it overflows only after `2^32` wraps, so a run of fewer readings succeeds.
-/

namespace BarectfParser

/-! ## The lower word -/

/-- The variant of a `CyclesTracker`. -/
inductive CyclesTrackerWidth
  | u8
  | u16
  | u32
  | u64
deriving DecidableEq, Repr

def CyclesTrackerWidth.sizeBits : CyclesTrackerWidth → Nat
  | .u8 => 8
  | .u16 => 16
  | .u32 => 32
  | .u64 => 64

/-- `CyclesTracker`: the variant and the value it holds. -/
structure CyclesTracker where
  width : CyclesTrackerWidth
  v : Nat
  v_lt : v < 2 ^ width.sizeBits
deriving DecidableEq

/-- `CyclesTracker::U8(0)`, ..., `CyclesTracker::U64(0)`. -/
def CyclesTrackerWidth.zero (width : CyclesTrackerWidth) : CyclesTracker :=
  ⟨width, 0, Nat.two_pow_pos _⟩

def CyclesTracker.sizeBits (self : CyclesTracker) : Nat := self.width.sizeBits

def CyclesTracker.reset (self : CyclesTracker) : CyclesTracker := self.width.zero

/-- `*v = cycles as uN`: the low `size_bits` bits of the reading. -/
def CyclesTracker.set (self : CyclesTracker) (cycles : UInt64) : CyclesTracker :=
  ⟨self.width, cycles.toNat % 2 ^ self.width.sizeBits, Nat.mod_lt _ (Nat.two_pow_pos _)⟩

def CyclesTracker.asCycles (self : CyclesTracker) : Nat := self.v

def CyclesTracker.isU64 (self : CyclesTracker) : Bool := self.width == .u64

@[simp] theorem CyclesTracker.set_v (c : CyclesTracker) (cycles : UInt64) :
    (c.set cycles).v = cycles.toNat % 2 ^ c.width.sizeBits := rfl

@[simp] theorem CyclesTracker.width_set (c : CyclesTracker) (cycles : UInt64) :
    (c.set cycles).width = c.width := rfl

@[simp] theorem CyclesTracker.isU64_set (c : CyclesTracker) (cycles : UInt64) :
    (c.set cycles).isU64 = c.isU64 := rfl

@[simp] theorem CyclesTracker.sizeBits_set (c : CyclesTracker) (cycles : UInt64) :
    (c.set cycles).sizeBits = c.sizeBits := rfl

/-! ## The instant -/

/-- `Unsupported timestamp field time`. -/
structure UnsupportedTimestampFieldType where
deriving DecidableEq, Repr

structure TrackingInstant where
  lower : CyclesTracker
  upper : Fin (2 ^ 32)
deriving DecidableEq

def TrackingInstant.new (fieldType : UnsignedIntegerFieldType) :
    Except UnsupportedTimestampFieldType TrackingInstant := do
  let lower ← match fieldType.fieldType.size with
    | 8 => pure CyclesTrackerWidth.u8.zero
    | 16 => pure CyclesTrackerWidth.u16.zero
    | 32 => pure CyclesTrackerWidth.u32.zero
    | 64 => pure CyclesTrackerWidth.u64.zero
    | _ => throw ⟨⟩
  pure ⟨lower, 0⟩

def TrackingInstant.reset (self : TrackingInstant) : TrackingInstant := ⟨self.lower.reset, 0⟩

def TrackingInstant.resetTo (self : TrackingInstant) (cycles : UInt64) (upper : Fin (2 ^ 32)) :
    TrackingInstant :=
  ⟨self.lower.set cycles, upper⟩

/-- `upper += 1` on a `u32`, with overflow checks. -/
def checkedIncrement (upper : Fin (2 ^ 32)) : Except Fault (Fin (2 ^ 32)) :=
  if h : upper.val + 1 < 2 ^ 32 then .ok ⟨upper.val + 1, h⟩ else .error .addOverflow

/-- The state change of `elapsed`. -/
def TrackingInstant.update (self : TrackingInstant) (cycles : UInt64) :
    Except Fault TrackingInstant :=
  if self.lower.isU64 then pure { self with lower := self.lower.set cycles }
  else do
    -- check for rollover on the lower
    let upper ← if cycles.toNat < self.lower.asCycles then checkedIncrement self.upper
      else pure self.upper
    pure ⟨self.lower.set cycles, upper⟩

def TrackingInstant.asTimestamp (self : TrackingInstant) : UInt64 :=
  if self.lower.isU64 then UInt64.ofNat self.lower.asCycles
  else UInt64.ofNat ((self.upper.val <<< self.lower.sizeBits) ||| self.lower.asCycles)

def TrackingInstant.elapsed (self : TrackingInstant) (cycles : UInt64) :
    Except Fault (TrackingInstant × UInt64) := do
  let self ← self.update cycles
  pure (self, self.asTimestamp)

/-- `elapsed` on each reading in turn: the last state and the returned timestamps. -/
def TrackingInstant.elapsedAll : TrackingInstant → List UInt64 →
    Except Fault (TrackingInstant × List UInt64)
  | self, [] => .ok (self, [])
  | self, cycles :: rest => do
    let (self, t) ← self.elapsed cycles
    let (self, ts) ← self.elapsedAll rest
    pure (self, t :: ts)

/-! ## The time a state stands for -/

/-- The time a state of width below 64 stands for. -/
def TrackingInstant.value (self : TrackingInstant) : Nat :=
  self.upper.val * 2 ^ self.lower.sizeBits + self.lower.v

theorem CyclesTracker.sizeBits_le (c : CyclesTracker) (h : c.isU64 = false) : c.sizeBits ≤ 32 := by
  obtain ⟨w, v, hv⟩ := c
  cases w <;> simp_all [CyclesTracker.isU64, CyclesTracker.sizeBits, CyclesTrackerWidth.sizeBits]

/-- A state stands for a time below `2^(w+32)`, so below `2^64`. -/
theorem TrackingInstant.value_lt (self : TrackingInstant) :
    self.value < 2 ^ (self.lower.sizeBits + 32) :=
  calc self.value < (self.upper.val + 1) * 2 ^ self.lower.sizeBits := by
        rw [Nat.add_mul, Nat.one_mul]
        exact Nat.add_lt_add_left self.lower.v_lt _
    _ ≤ 2 ^ 32 * 2 ^ self.lower.sizeBits := Nat.mul_le_mul_right _ self.upper.isLt
    _ = 2 ^ (self.lower.sizeBits + 32) := by rw [← Nat.pow_add, Nat.add_comm]

/-- `as_timestamp` of a state of width below 64 is the time it stands for. -/
theorem TrackingInstant.asTimestamp_toNat (self : TrackingInstant) (h : self.lower.isU64 = false) :
    self.asTimestamp.toNat = self.value := by
  have hlt : self.value < 2 ^ 64 := Nat.lt_of_lt_of_le self.value_lt
    (Nat.pow_le_pow_right (by decide) (by have := self.lower.sizeBits_le h; omega))
  have hor : (self.upper.val <<< self.lower.sizeBits) ||| self.lower.asCycles = self.value := by
    rw [Nat.shiftLeft_eq, TrackingInstant.value, Nat.mul_comm]
    exact (Nat.mul_add_lt_is_or self.lower.v_lt _).symm
  simp only [TrackingInstant.asTimestamp, h, Bool.false_eq_true, if_false, hor]
  exact UInt64.toNat_ofNat_of_lt hlt

/-! ## Unwrapping -/

/-- A time less than one period past `q * P + v` lies in period `q`, or in period `q + 1` when
its reading is below `v`. -/
theorem unwrap_period {P q v t : Nat} (hv : v < P) (hle : q * P + v ≤ t)
    (hlt : t < q * P + v + P) : t = (if t % P < v then q + 1 else q) * P + t % P := by
  have hP : 0 < P := by omega
  have hd : t / P * P + t % P = t := Nat.div_add_mod' t P
  have h1 : q ≤ t / P := (Nat.le_div_iff_mul_le hP).2 (by omega)
  have h2 : t / P < q + 2 := (Nat.div_lt_iff_lt_mul hP).2 (by rw [Nat.add_mul]; omega)
  rcases (show t / P = q ∨ t / P = q + 1 by omega) with hk | hk
  · rw [hk] at hd
    rw [if_neg (by omega)]
    omega
  · rw [hk, Nat.add_mul, Nat.one_mul] at hd
    rw [if_pos (by omega), Nat.add_mul, Nat.one_mul]
    omega

section
variable {self : TrackingInstant} {t : Nat}

/-- **One reading.** From a state of width `w < 64` standing for `T`, the reading `t mod 2^w` of
a time `t` with `T ≤ t < T + 2^w` and `t < 2^(w+32)` moves the state to `t`. -/
theorem TrackingInstant.update_unwraps (hw : self.lower.isU64 = false) (hle : self.value ≤ t)
    (hlt : t < self.value + 2 ^ self.lower.sizeBits)
    (hmax : t < 2 ^ (self.lower.sizeBits + 32)) :
    ∃ self', self.update (UInt64.ofNat (t % 2 ^ self.lower.sizeBits)) = .ok self' ∧
      self'.lower.width = self.lower.width ∧ self'.value = t := by
  obtain ⟨⟨w, v, hv⟩, q⟩ := self
  simp only [TrackingInstant.value, CyclesTracker.sizeBits] at hle hlt hmax ⊢
  have hp := unwrap_period hv hle hlt
  have hw32 : w.sizeBits ≤ 32 := CyclesTracker.sizeBits_le ⟨w, v, hv⟩ hw
  have hw64 : 2 ^ w.sizeBits ≤ 2 ^ 64 := Nat.pow_le_pow_right (by decide) (by omega)
  have hc : (UInt64.ofNat (t % 2 ^ w.sizeBits)).toNat = t % 2 ^ w.sizeBits :=
    UInt64.toNat_ofNat_of_lt (Nat.lt_of_lt_of_le (Nat.mod_lt _ (Nat.two_pow_pos _)) hw64)
  have hset : (CyclesTracker.set ⟨w, v, hv⟩ (UInt64.ofNat (t % 2 ^ w.sizeBits))).v =
      t % 2 ^ w.sizeBits := by
    simp only [CyclesTracker.set, hc, Nat.mod_mod]
  simp only [TrackingInstant.update, hw, Bool.false_eq_true, if_false, CyclesTracker.asCycles, hc]
  split
  · rename_i hr
    rw [if_pos hr] at hp
    -- a rollover: the period `q + 1` still fits the `u32`
    have hq : q.val + 1 < 2 ^ 32 := by
      have : (q.val + 1) * 2 ^ w.sizeBits < 2 ^ 32 * 2 ^ w.sizeBits := by
        rw [← Nat.pow_add, Nat.add_comm 32]; omega
      exact Nat.lt_of_mul_lt_mul_right this
    refine ⟨_, by simp only [checkedIncrement, dif_pos hq]; rfl, rfl, ?_⟩
    simp only [TrackingInstant.value, CyclesTracker.sizeBits, hset]
    exact hp.symm
  · rename_i hr
    rw [if_neg hr] at hp
    refine ⟨_, rfl, rfl, ?_⟩
    simp only [TrackingInstant.value, CyclesTracker.sizeBits, hset]
    exact hp.symm

end

/-- **Unwrapping a run.** From a state of width `w < 64` standing for `T`, the readings
`t₁ mod 2^w, …, tₙ mod 2^w` of times `T ≤ t₁ ≤ … ≤ tₙ`, each less than `2^w` past the one before
and all below `2^(w+32)`, make the calls of `elapsed` return `t₁, …, tₙ`; the last state stands
for `tₙ`, and so does its `as_timestamp`. -/
theorem TrackingInstant.elapsedAll_unwraps (self : TrackingInstant)
    (hw : self.lower.isU64 = false) (ts : List Nat)
    (hchain : List.Chain (fun a b => a ≤ b ∧ b < a + 2 ^ self.lower.sizeBits) self.value ts)
    (hmax : ∀ t ∈ ts, t < 2 ^ (self.lower.sizeBits + 32)) :
    ∃ self' rs, self.elapsedAll (ts.map fun t => UInt64.ofNat (t % 2 ^ self.lower.sizeBits)) =
        .ok (self', rs) ∧ rs.map UInt64.toNat = ts ∧
      self'.value = (self.value :: ts).getLast (List.cons_ne_nil _ _) ∧
      self'.asTimestamp.toNat = self'.value := by
  induction ts generalizing self with
  | nil => exact ⟨self, [], rfl, rfl, rfl, self.asTimestamp_toNat hw⟩
  | cons t ts ih =>
    obtain ⟨⟨hle, hlt⟩, hchain⟩ := List.chain_cons.1 hchain
    obtain ⟨s1, h1, hw1, hv1⟩ :=
      TrackingInstant.update_unwraps hw hle hlt (hmax t (List.mem_cons_self _ _))
    have hs : s1.lower.sizeBits = self.lower.sizeBits := by
      simp only [CyclesTracker.sizeBits, hw1]
    have hw' : s1.lower.isU64 = false := by
      simpa only [CyclesTracker.isU64, hw1] using hw
    obtain ⟨self', rs, h2, hrs, hv', ht'⟩ := ih s1 hw' (by rwa [hv1, hs])
      (fun t' ht' => hs ▸ hmax t' (List.mem_cons_of_mem _ ht'))
    refine ⟨self', s1.asTimestamp :: rs, ?_, ?_, ?_, ht'⟩
    · simp only [List.map_cons, TrackingInstant.elapsedAll, TrackingInstant.elapsed, h1, bind,
        Except.bind, pure, Except.pure]
      rw [← hs, h2]
    · rw [List.map_cons, hrs, s1.asTimestamp_toNat hw', hv1]
    · rw [hv', hv1, List.getLast_cons_cons]

theorem elapsedAll_u16_wrap : ∃ self' rs,
    TrackingInstant.elapsedAll ⟨CyclesTrackerWidth.u16.zero, 0⟩
        ([65530, 65546].map fun t => UInt64.ofNat (t % 2 ^ 16)) = .ok (self', rs) ∧
      rs.map UInt64.toNat = [65530, 65546] ∧ self'.value = 65546 ∧
      self'.asTimestamp.toNat = self'.value :=
  TrackingInstant.elapsedAll_unwraps ⟨CyclesTrackerWidth.u16.zero, 0⟩ rfl [65530, 65546]
    (.cons (by decide) (.cons (by decide) .nil)) (by decide)

/-! ## Any readings -/

/-- **Any reading.** From a state of width `w < 64` standing for `T`, a reading `c < 2^w` moves
the state, unless the upper word overflows, to the first time at or after `T` whose low `w` bits
are `c`. -/
theorem TrackingInstant.update_advances {self self' : TrackingInstant} {c : UInt64}
    (hw : self.lower.isU64 = false) (hc : c.toNat < 2 ^ self.lower.sizeBits)
    (h : self.update c = .ok self') :
    self'.lower.width = self.lower.width ∧ self.value ≤ self'.value ∧
      self'.value < self.value + 2 ^ self.lower.sizeBits ∧
      self'.value % 2 ^ self.lower.sizeBits = c.toNat := by
  obtain ⟨⟨w, v, hv⟩, q⟩ := self
  simp only [CyclesTracker.sizeBits] at hc
  simp only [TrackingInstant.update, hw, Bool.false_eq_true, if_false, CyclesTracker.asCycles] at h
  split at h
  · -- a rollover: the period `q + 1`
    rename_i hr
    simp only [checkedIncrement] at h
    split at h
    · simp only [bind, Except.bind, pure, Except.pure, Except.ok.injEq] at h
      subst h
      simp only [TrackingInstant.value, CyclesTracker.sizeBits, CyclesTracker.width_set,
        CyclesTracker.set_v, Nat.mod_eq_of_lt hc]
      refine ⟨trivial, ?_, ?_, Nat.mul_add_mod_of_lt hc⟩ <;>
        rw [Nat.add_mul, Nat.one_mul] <;> omega
    · cases h
  · rename_i hr
    simp only [bind, Except.bind, pure, Except.pure, Except.ok.injEq] at h
    subst h
    simp only [TrackingInstant.value, CyclesTracker.sizeBits, CyclesTracker.width_set,
      CyclesTracker.set_v, Nat.mod_eq_of_lt hc]
    exact ⟨trivial, by omega, by omega, Nat.mul_add_mod_of_lt hc⟩

/-- **Every run unwraps.** From a state of width `w < 64`, calls of `elapsed` on readings below
`2^w` that succeed return times that never decrease, each less than `2^w` past the one before,
whose low `w` bits are the readings: the times `elapsedAll_unwraps` starts from. -/
theorem TrackingInstant.elapsedAll_advances {self self' : TrackingInstant}
    {cs rs : List UInt64} (hw : self.lower.isU64 = false)
    (hcs : ∀ c ∈ cs, c.toNat < 2 ^ self.lower.sizeBits)
    (h : self.elapsedAll cs = .ok (self', rs)) :
    List.Chain (fun a b => a ≤ b ∧ b < a + 2 ^ self.lower.sizeBits) self.value
        (rs.map UInt64.toNat) ∧
      rs.map (·.toNat % 2 ^ self.lower.sizeBits) = cs.map UInt64.toNat := by
  induction cs generalizing self rs with
  | nil =>
    cases h
    exact ⟨.nil, rfl⟩
  | cons c cs ih =>
    simp only [TrackingInstant.elapsedAll, TrackingInstant.elapsed] at h
    rcases hu : self.update c with _ | s1 <;>
      simp only [hu, bind, Except.bind, pure, Except.pure, reduceCtorEq] at h
    rcases hr : s1.elapsedAll cs with _ | ⟨s2, ts⟩ <;>
      simp only [hr, reduceCtorEq, Except.ok.injEq, Prod.mk.injEq] at h
    obtain ⟨rfl, rfl⟩ := h
    obtain ⟨hw1, hle, hlt, hmod⟩ :=
      TrackingInstant.update_advances hw (hcs c (List.mem_cons_self _ _)) hu
    have hs : s1.lower.sizeBits = self.lower.sizeBits := by
      simp only [CyclesTracker.sizeBits, hw1]
    have hw' : s1.lower.isU64 = false := by
      simpa only [CyclesTracker.isU64, hw1] using hw
    obtain ⟨hchain, hmods⟩ :=
      ih hw' (fun c' hc' => hs ▸ hcs c' (List.mem_cons_of_mem _ hc')) hr
    rw [hs] at hchain hmods
    simp only [List.map_cons, s1.asTimestamp_toNat hw', hmod, hmods]
    exact ⟨.cons ⟨hle, hlt⟩ hchain, trivial⟩

/-- Two 8-bit readings, the second after a wrap: the times 200, then 266. -/
theorem u8_readings_advance :
    TrackingInstant.elapsedAll ⟨CyclesTrackerWidth.u8.zero, 0⟩ [200, 10] =
        .ok (⟨⟨.u8, 10, by decide⟩, 1⟩, [200, 266]) ∧
      List.Chain (fun a b => a ≤ b ∧ b < a + 2 ^ 8) 0 [200, 266] ∧
      [200, 266].map (fun r : UInt64 => r.toNat % 2 ^ 8) = [200, 10] :=
  have h : TrackingInstant.elapsedAll ⟨CyclesTrackerWidth.u8.zero, 0⟩ [200, 10] =
      .ok (⟨⟨.u8, 10, by decide⟩, 1⟩, [200, 266]) := rfl
  ⟨h, @TrackingInstant.elapsedAll_advances ⟨CyclesTrackerWidth.u8.zero, 0⟩ _ _ _ rfl (by decide)
    h⟩

/-! ## The count of wraps -/

/-- One call counts one wrap at most: with room for one more, `update` succeeds. -/
theorem TrackingInstant.update_ok (self : TrackingInstant) (c : UInt64)
    (h : self.upper.val + 1 < 2 ^ 32) :
    ∃ self', self.update c = .ok self' ∧ self'.upper.val ≤ self.upper.val + 1 := by
  unfold TrackingInstant.update
  split
  · exact ⟨_, rfl, Nat.le_succ _⟩
  · split
    · exact ⟨_, by simp only [checkedIncrement, dif_pos h]; rfl, le_rfl⟩
    · exact ⟨_, rfl, Nat.le_succ _⟩

theorem TrackingInstant.new_upper {ft : UnsignedIntegerFieldType} {ti : TrackingInstant}
    (h : TrackingInstant.new ft = .ok ti) : ti.upper.val = 0 := by
  unfold TrackingInstant.new at h
  split at h <;> cases h <;> rfl

/-- From a state with room for as many more wraps as there are readings, every call succeeds;
each counts one wrap at most. -/
theorem TrackingInstant.elapsedAll_room : ∀ (self : TrackingInstant) (cs : List UInt64),
    self.upper.val + cs.length < 2 ^ 32 → ∃ self' ts, self.elapsedAll cs = .ok (self', ts) ∧
      ts.length = cs.length ∧ self'.upper.val ≤ self.upper.val + cs.length
  | self, [], _ => ⟨self, [], rfl, rfl, Nat.le_add_right _ _⟩
  | self, c :: cs, h => by
    simp only [List.length_cons] at h
    obtain ⟨s1, hu, hle⟩ := self.update_ok c (by omega)
    obtain ⟨s2, ts, hr, hl, hle2⟩ := TrackingInstant.elapsedAll_room s1 cs (by omega)
    refine ⟨s2, s1.asTimestamp :: ts, ?_, by simp only [List.length_cons, hl],
      by simp only [List.length_cons]; omega⟩
    simp only [TrackingInstant.elapsedAll, TrackingInstant.elapsed, hu, bind, Except.bind, pure,
      Except.pure, hr]

/-- **No overflow before `2^32` wraps.** Each call of `elapsed` counts one wrap at most, so from a
state that has counted `u` wraps every run of fewer than `2^32 - u` readings succeeds, whatever
the readings, with a timestamp for each and at most one more wrap counted per reading; from
`TrackingInstant::new`, every run of fewer than `2^32` readings. -/
theorem TrackingInstant.elapsedAll_ok :
    (∀ (self : TrackingInstant) (cs : List UInt64), self.upper.val + cs.length < 2 ^ 32 →
      ∃ self' ts, self.elapsedAll cs = .ok (self', ts) ∧ ts.length = cs.length ∧
        self'.upper.val ≤ self.upper.val + cs.length) ∧
    ∀ ft ti (cs : List UInt64), TrackingInstant.new ft = .ok ti → cs.length < 2 ^ 32 →
      ∃ self' ts, ti.elapsedAll cs = .ok (self', ts) ∧ ts.length = cs.length :=
  ⟨TrackingInstant.elapsedAll_room, fun _ ti cs hn hl => by
    obtain ⟨self', ts, h, hts, -⟩ :=
      ti.elapsedAll_room cs (by rw [TrackingInstant.new_upper hn]; omega)
    exact ⟨self', ts, h, hts⟩⟩

/-- Three wraps short of overflowing, two 8-bit readings, the second after a wrap. -/
theorem u8_readings_near_overflow :
    (⟨CyclesTrackerWidth.u8.zero, ⟨2 ^ 32 - 3, by decide⟩⟩ : TrackingInstant).upper.val +
      ([200, 10] : List UInt64).length < 2 ^ 32 ∧
    ∃ self' ts, TrackingInstant.elapsedAll ⟨CyclesTrackerWidth.u8.zero, ⟨2 ^ 32 - 3, by decide⟩⟩
      [200, 10] = .ok (self', ts) ∧ ts.length = 2 ∧ self'.upper.val ≤ 2 ^ 32 - 3 + 2 :=
  ⟨by decide, TrackingInstant.elapsedAll_ok.1 _ _ (by decide)⟩

end BarectfParser
