import Mathlib.Data.List.Nodup
import Pupnp.Gena.Subscribe

/-!
The generator of UUIDs, from which the SIDs of subscriptions are made. It remembers the timestamp of the
last UUID and the clock sequence, which it counts up whenever a timestamp is below the last one.
-/

namespace Pupnp.Gena.Uuid
open Pupnp.CString Pupnp.Gena.Subscribe

def UUIDS_PER_TICK : Nat := 1024

/-- The static variables of `get_current_time`; the mark `inited` is set with its first call. -/
structure Clock where
  timeLast : Nat
  uuidsThisTick : Nat
  deriving DecidableEq, Repr

/-- `get_current_time` over the readings of `get_system_time`, a new one for each turn of its loop;
`none` where it is still spinning behind the last one. A `uuid_time_t` has 64 bits. -/
def getCurrentTime (c : Clock) : List Nat → Option (Nat × Clock)
  | [] => none
  | timeNow :: readings =>
      if c.timeLast ≠ timeNow then some (timeNow, ⟨timeNow, 0⟩)
      else if c.uuidsThisTick < UUIDS_PER_TICK then
        let timestamp := (timeNow + (c.uuidsThisTick + 1)) % 2 ^ 64
        some (timestamp, ⟨timestamp, c.uuidsThisTick + 1⟩)
      else getCurrentTime c readings

def formatUuidV1 (clockSeq : UInt16) (timestamp : Nat) (node : Vector UInt8 6) : UuidUpnp where
  timeLow := UInt32.ofNat (timestamp &&& 0xFFFFFFFF)
  timeMid := UInt16.ofNat ((timestamp >>> 32) &&& 0xFFFF)
  timeHiAndVersion := UInt16.ofNat (((timestamp >>> 48) &&& 0x0FFF) ||| (1 <<< 12))
  clockSeqLow := UInt8.ofNat (clockSeq.toNat &&& 0xFF)
  clockSeqHiAndReserved := UInt8.ofNat (((clockSeq.toNat &&& 0x3F00) >>> 8) ||| 0x80)
  node := node

structure UuidState where
  ts : Nat
  node : Vector UInt8 6
  cs : UInt16
  deriving DecidableEq, Repr

/-- The static variables; the state is `none` until `stateInited` is set. -/
structure Generator where
  clock : Clock
  st : Option UuidState
  deriving DecidableEq, Repr

/-- As the program starts. The first call sets `uuids_this_tick` to its limit. -/
def Generator.initial : Generator := ⟨⟨0, UUIDS_PER_TICK⟩, none⟩

/-- What a call of `uuid_create` reads: the system time and, where it needs one, a random number. -/
structure Call where
  readings : List Nat
  trueRandom : UInt16
  deriving DecidableEq, Repr

/-- A UUID with the timestamp that it was made from. -/
structure Issued where
  timestamp : Nat
  uid : UuidUpnp
  deriving DecidableEq, Repr

def nextClockSeq (st : Option UuidState) (trueRandom : UInt16) (timestamp : Nat) (node : Vector UInt8 6) : UInt16 :=
  match st with
  | none => trueRandom
  | some last =>
      if node ≠ last.node then trueRandom
      else if timestamp < last.ts then last.cs + 1
      else last.cs

def uuidCreate (node : Vector UInt8 6) (call : Call) (g : Generator) : Option (Issued × Generator) :=
  (getCurrentTime g.clock call.readings).map fun (timestamp, clock) =>
    let clockseq := nextClockSeq g.st call.trueRandom timestamp node
    (⟨timestamp, formatUuidV1 clockseq timestamp node⟩, ⟨clock, some ⟨timestamp, node, clockseq⟩⟩)

/-- A run of calls: what they have issued, the last one first, and the generator. -/
def creates (node : Vector UInt8 6) : List Call → Option (List Issued × Generator)
  | [] => some ([], .initial)
  | call :: earlier =>
      (creates node earlier).bind fun (issued, g) =>
        (uuidCreate node call g).map fun (last, g) => (last :: issued, g)

/-- How often a timestamp was below the one before; the last one comes first. -/
def decreases : List Nat → Nat
  | last :: before :: earlier => (if last < before then 1 else 0) + decreases (before :: earlier)
  | _ => 0

/-- The SID that a subscription gets with a UUID. -/
def sidOf (uid : UuidUpnp) : List UInt8 := bytes "uuid:" ++ upnpUuidUnpack uid

/-! ### The fields of a UUID -/

theorem or_bit {n k : Nat} (below : n < 2 ^ k) : n ||| 2 ^ k = 2 ^ k + n := by
  have sum := Nat.two_pow_add_eq_or_of_lt below 1
  rw [Nat.mul_one] at sum
  rw [sum, Nat.or_comm]

theorem ofNat8_inj {a b : Nat} (small : a < 2 ^ 8) (small' : b < 2 ^ 8) (same : UInt8.ofNat a = UInt8.ofNat b) :
    a = b := by
  have values := congrArg UInt8.toNat same
  rwa [UInt8.toNat_ofNat_of_lt' small, UInt8.toNat_ofNat_of_lt' small'] at values

theorem ofNat16_inj {a b : Nat} (small : a < 2 ^ 16) (small' : b < 2 ^ 16)
    (same : UInt16.ofNat a = UInt16.ofNat b) : a = b := by
  have values := congrArg UInt16.toNat same
  rwa [UInt16.toNat_ofNat_of_lt' small, UInt16.toNat_ofNat_of_lt' small'] at values

theorem ofNat32_inj {a b : Nat} (small : a < 2 ^ 32) (small' : b < 2 ^ 32)
    (same : UInt32.ofNat a = UInt32.ofNat b) : a = b := by
  have values := congrArg UInt32.toNat same
  rwa [UInt32.toNat_ofNat_of_lt' small, UInt32.toNat_ofNat_of_lt' small'] at values

theorem timeLow_bits (ts : Nat) : ts &&& 0xFFFFFFFF = ts % 2 ^ 32 := Nat.and_two_pow_sub_one_eq_mod ts 32

theorem timeMid_bits (ts : Nat) : (ts >>> 32) &&& 0xFFFF = ts / 2 ^ 32 % 2 ^ 16 := by
  rw [Nat.shiftRight_eq_div_pow]
  exact Nat.and_two_pow_sub_one_eq_mod _ 16

theorem timeHi_bits (ts : Nat) : ((ts >>> 48) &&& 0x0FFF) ||| (1 <<< 12) = 2 ^ 12 + ts / 2 ^ 48 % 2 ^ 12 := by
  rw [Nat.shiftRight_eq_div_pow]
  have masked : ts / 2 ^ 48 &&& 0x0FFF = ts / 2 ^ 48 % 2 ^ 12 := Nat.and_two_pow_sub_one_eq_mod _ 12
  rw [masked]
  exact or_bit (Nat.mod_lt _ (by decide))

theorem clockSeqLow_bits (cs : Nat) : cs &&& 0xFF = cs % 2 ^ 8 := Nat.and_two_pow_sub_one_eq_mod cs 8

theorem clockSeqHi_bits (cs : Nat) : ((cs &&& 0x3F00) >>> 8) ||| 0x80 = 2 ^ 7 + cs / 2 ^ 8 % 2 ^ 6 := by
  have masked : (cs &&& 0x3F00) >>> 8 = cs / 2 ^ 8 % 2 ^ 6 := by
    rw [Nat.shiftRight_and_distrib, Nat.shiftRight_eq_div_pow]
    exact Nat.and_two_pow_sub_one_eq_mod _ 6
  rw [masked]
  have small : cs / 2 ^ 8 % 2 ^ 6 < 2 ^ 7 := lt_of_lt_of_le (Nat.mod_lt _ (by decide)) (by decide)
  exact or_bit small

/-- The timestamp and fourteen bits of the clock sequence can be read from the UUID. -/
theorem formatUuidV1_fields {cs cs' : UInt16} {ts ts' : Nat} {node : Vector UInt8 6} (small : ts < 2 ^ 60)
    (small' : ts' < 2 ^ 60) (same : formatUuidV1 cs ts node = formatUuidV1 cs' ts' node) :
    ts = ts' ∧ cs.toNat % 2 ^ 14 = cs'.toNat % 2 ^ 14 := by
  simp only [formatUuidV1, timeLow_bits, timeMid_bits, timeHi_bits, clockSeqLow_bits, clockSeqHi_bits,
    UuidUpnp.mk.injEq] at same
  obtain ⟨low, mid, hi, seqHi, seqLow, -⟩ := same
  have low := ofNat32_inj (by omega) (by omega) low
  have mid := ofNat16_inj (by omega) (by omega) mid
  have hi := ofNat16_inj (by omega) (by omega) hi
  have seqHi := ofNat8_inj (by omega) (by omega) seqHi
  have seqLow := ofNat8_inj (by omega) (by omega) seqLow
  omega

/-! ### The text of a UUID -/

theorem digitsValue_zeros (k : Nat) (ds : List UInt8) :
    digitsValue 16 (List.replicate k 48 ++ ds) = digitsValue 16 ds := by
  induction k with
  | zero => rfl
  | succ k ih => exact ih

theorem paddedHex_value (w n : Nat) : digitsValue 16 (paddedHex w n) = n := by
  rw [paddedHex, digitsValue_zeros, digitsValue_hexDigits]

theorem paddedHex_length {k n : Nat} (small : n < 16 ^ (k + 1)) : (paddedHex (k + 1) n).length = k + 1 := by
  have short := hexDigits_length small
  rw [paddedHex, List.length_append, List.length_replicate]
  omega

/-- Two texts that begin with numbers of one width have the same number and the same rest. -/
theorem paddedHex_append_inj {k n m : Nat} {rest rest' : List UInt8} (small : n < 16 ^ (k + 1))
    (small' : m < 16 ^ (k + 1)) (same : paddedHex (k + 1) n ++ rest = paddedHex (k + 1) m ++ rest') :
    n = m ∧ rest = rest' := by
  obtain ⟨number, rest⟩ := List.append_inj same (by rw [paddedHex_length small, paddedHex_length small'])
  refine ⟨?_, rest⟩
  rw [← paddedHex_value (k + 1) n, number, paddedHex_value]

theorem paddedHex_flatMap_inj {bytes bytes' : List UInt8} (length : bytes.length = bytes'.length)
    (same : (bytes.flatMap fun b => paddedHex 2 b.toNat) = bytes'.flatMap fun b => paddedHex 2 b.toNat) :
    bytes = bytes' := by
  induction bytes generalizing bytes' with
  | nil => exact (List.eq_nil_of_length_eq_zero length.symm).symm
  | cons b rest ih =>
    cases bytes' with
    | nil => cases length
    | cons b' rest' =>
      rw [List.flatMap_cons, List.flatMap_cons] at same
      obtain ⟨number, others⟩ := @paddedHex_append_inj 1 _ _ _ _ b.toNat_lt b'.toNat_lt same
      rw [UInt8.toNat_inj.mp number, ih (Nat.succ.inj length) others]

theorem sidOf_inj {u v : UuidUpnp} (same : sidOf u = sidOf v) : u = v := by
  have texts := List.append_cancel_left same
  simp only [upnpUuidUnpack, List.append_assoc] at texts
  obtain ⟨low, texts⟩ := @paddedHex_append_inj 7 _ _ _ _ u.timeLow.toNat_lt v.timeLow.toNat_lt texts
  obtain ⟨mid, texts⟩ := @paddedHex_append_inj 3 _ _ _ _ u.timeMid.toNat_lt v.timeMid.toNat_lt
    (List.append_cancel_left texts)
  obtain ⟨hi, texts⟩ := @paddedHex_append_inj 3 _ _ _ _ u.timeHiAndVersion.toNat_lt v.timeHiAndVersion.toNat_lt
    (List.append_cancel_left texts)
  obtain ⟨seqHi, texts⟩ := @paddedHex_append_inj 1 _ _ _ _ u.clockSeqHiAndReserved.toNat_lt
    v.clockSeqHiAndReserved.toNat_lt (List.append_cancel_left texts)
  obtain ⟨seqLow, texts⟩ := @paddedHex_append_inj 1 _ _ _ _ u.clockSeqLow.toNat_lt v.clockSeqLow.toNat_lt texts
  have node := paddedHex_flatMap_inj (by simp) (List.append_cancel_left texts)
  obtain ⟨a, b, c, d, e, f⟩ := u
  obtain ⟨a', b', c', d', e', f'⟩ := v
  simp only [UuidUpnp.mk.injEq]
  exact ⟨UInt32.toNat_inj.mp low, UInt16.toNat_inj.mp mid, UInt16.toNat_inj.mp hi, UInt8.toNat_inj.mp seqHi,
    UInt8.toNat_inj.mp seqLow, Vector.toList_inj.mp node⟩

/-! ### Runs -/

def MAX_READING : Nat := 2 ^ 60 - 65536

theorem getCurrentTime_spec {c c' : Clock} {readings : List Nat} {ts : Nat}
    (got : getCurrentTime c readings = some (ts, c')) (bounded : ∀ r ∈ readings, r < MAX_READING)
    (ticks : c.uuidsThisTick ≤ UUIDS_PER_TICK) :
    c'.timeLast = ts ∧ ts ≠ c.timeLast ∧ c'.uuidsThisTick ≤ UUIDS_PER_TICK ∧ ts < 2 ^ 60 := by
  unfold UUIDS_PER_TICK at *
  induction readings with
  | nil => cases got
  | cons timeNow readings ih =>
    have below := bounded timeNow List.mem_cons_self
    unfold MAX_READING at below
    rw [getCurrentTime] at got
    split at got
    next changed =>
      obtain ⟨rfl, rfl⟩ := Prod.mk.inj (Option.some.inj got)
      exact ⟨rfl, changed.symm, Nat.zero_le _, by omega⟩
    next same =>
      split at got
      next room =>
        unfold UUIDS_PER_TICK at room
        obtain ⟨rfl, rfl⟩ := Prod.mk.inj (Option.some.inj got)
        exact ⟨rfl, by omega, room, by omega⟩
      next => exact ih got fun r member => bounded r (List.mem_cons_of_mem _ member)

def decreasesOf (issued : List Issued) : Nat := decreases (issued.map (·.timestamp))

/-- The UUIDs of a run, the last one first: each has the clock sequence that belongs to the number of
decreases up to it, and a timestamp other than the one before. -/
def Chained (node : Vector UInt8 6) (cs : Nat) : List Issued → Prop
  | [] => True
  | last :: older =>
      last.timestamp < 2 ^ 60 ∧
        last.uid = formatUuidV1 (UInt16.ofNat (cs + decreasesOf (last :: older))) last.timestamp node ∧
        (∀ before ∈ older.head?, last.timestamp ≠ before.timestamp) ∧ Chained node cs older

theorem decreasesOf_cons (last before : Issued) (earlier : List Issued) :
    decreasesOf (last :: before :: earlier) =
      (if last.timestamp < before.timestamp then 1 else 0) + decreasesOf (before :: earlier) := rfl

theorem Chained.older {node : Vector UInt8 6} {cs : Nat} {last : Issued} {older : List Issued}
    (chained : Chained node cs (last :: older)) : ∀ issued ∈ older, ∃ d ≤ decreasesOf (last :: older),
      issued.timestamp < 2 ^ 60 ∧ issued.uid = formatUuidV1 (UInt16.ofNat (cs + d)) issued.timestamp node ∧
        (d = decreasesOf (last :: older) → issued.timestamp < last.timestamp) := by
  induction older generalizing last with
  | nil => nofun
  | cons before earlier ih =>
    obtain ⟨-, -, apart, rest⟩ := chained
    have apart := apart before rfl
    rw [decreasesOf_cons]
    intro issued member
    obtain rfl | member := List.mem_cons.mp member
    · obtain ⟨small, uid, -, -⟩ := rest
      refine ⟨_, Nat.le_add_left _ _, small, uid, ?_⟩
      intro same
      split at same <;> omega
    · obtain ⟨d, fewer, small, uid, order⟩ := ih rest issued member
      refine ⟨d, Nat.le_trans fewer (Nat.le_add_left _ _), small, uid, ?_⟩
      intro same
      have equal : d = decreasesOf (before :: earlier) := by omega
      have earlier := order equal
      split at same <;> omega

theorem Chained.nodup {node : Vector UInt8 6} {cs : Nat} {issued : List Issued} (chained : Chained node cs issued)
    (few : decreasesOf issued < 2 ^ 14) : (issued.map (·.uid)).Nodup := by
  induction issued with
  | nil => exact List.nodup_nil
  | cons last older ih =>
    rw [List.map_cons, List.nodup_cons]
    constructor
    · intro again
      obtain ⟨other, member, same⟩ := List.mem_map.mp again
      obtain ⟨d, fewer, small, uid, order⟩ := chained.older other member
      obtain ⟨small', uid', -, -⟩ := chained
      rw [uid, uid'] at same
      obtain ⟨timestamp, sequence⟩ := formatUuidV1_fields small small' same
      simp only [UInt16.toNat_ofNat'] at sequence
      have equal : d = decreasesOf (last :: older) := by omega
      have := order equal
      omega
    · refine ih chained.2.2.2 ?_
      cases older with
      | nil => decide
      | cons before earlier =>
        rw [decreasesOf_cons] at few
        omega

inductive Left (node : Vector UInt8 6) : List Issued → Generator → Prop where
  | nothing : Left node [] .initial
  | some {last : Issued} {older : List Issued} {g : Generator} (cs : Nat)
      (chained : Chained node cs (last :: older)) (ticks : g.clock.uuidsThisTick ≤ UUIDS_PER_TICK)
      (timeLast : g.clock.timeLast = last.timestamp)
      (st : g.st = Option.some ⟨last.timestamp, node, UInt16.ofNat (cs + decreasesOf (last :: older))⟩) :
      Left node (last :: older) g

theorem uuidCreate_left {node : Vector UInt8 6} {call : Call} {issued : List Issued} {g g' : Generator}
    {next : Issued} (left : Left node issued g) (bounded : ∀ r ∈ call.readings, r < MAX_READING)
    (created : uuidCreate node call g = some (next, g')) : Left node (next :: issued) g' := by
  obtain ⟨⟨ts, clock⟩, got, pair⟩ := Option.map_eq_some_iff.mp created
  obtain ⟨rfl, rfl⟩ := Prod.mk.inj pair
  cases left with
  | nothing =>
    obtain ⟨timeLast, -, ticks, small⟩ := getCurrentTime_spec got bounded (Nat.le_refl _)
    have random : UInt16.ofNat (call.trueRandom.toNat + 0) = call.trueRandom := by
      rw [Nat.add_zero, UInt16.ofNat_toNat]
    refine .some call.trueRandom.toNat ⟨small, ?_, nofun, trivial⟩ ticks timeLast ?_
    · exact congrArg (formatUuidV1 · ts node) random.symm
    · exact congrArg (fun cs => Option.some (UuidState.mk ts node cs)) random.symm
  | @some last older _ cs chained few timeLast st =>
    obtain ⟨timeLast', apart, ticks, small⟩ := getCurrentTime_spec got bounded few
    -- The clock sequence goes on by the decrease that the new timestamp makes.
    have sequence (uid : UuidUpnp) : nextClockSeq g.st call.trueRandom ts node =
        UInt16.ofNat (cs + decreasesOf (⟨ts, uid⟩ :: last :: older)) := by
      rw [st, decreasesOf_cons]
      dsimp only [nextClockSeq]
      rw [if_neg (not_not_intro rfl)]
      split
      · rw [Nat.add_comm 1, ← Nat.add_assoc, UInt16.ofNat_add (cs + decreasesOf (last :: older)) 1]
        rfl
      · rw [Nat.zero_add]
    refine .some cs ⟨small, ?_, ?_, chained⟩ ticks timeLast' ?_
    · exact congrArg (formatUuidV1 · ts node) (sequence _)
    · rintro before ⟨⟩
      exact timeLast ▸ apart
    · exact congrArg (fun cs => Option.some (UuidState.mk ts node cs)) (sequence _)

theorem creates_left {node : Vector UInt8 6} {calls : List Call} {issued : List Issued} {g : Generator}
    (bounded : ∀ call ∈ calls, ∀ r ∈ call.readings, r < MAX_READING)
    (ran : creates node calls = some (issued, g)) : Left node issued g := by
  induction calls generalizing issued g with
  | nil =>
    obtain ⟨rfl, rfl⟩ := Prod.mk.inj (Option.some.inj ran)
    exact .nothing
  | cons call earlier ih =>
    rw [creates, Option.bind_eq_some_iff] at ran
    obtain ⟨⟨before, g⟩, older, ran⟩ := ran
    obtain ⟨⟨next, g'⟩, created, pair⟩ := Option.map_eq_some_iff.mp ran
    obtain ⟨rfl, rfl⟩ := Prod.mk.inj pair
    have left := ih (fun call member => bounded call (List.mem_cons_of_mem _ member)) older
    exact uuidCreate_left left (bounded call List.mem_cons_self) created

/-- The UUIDs of a process, and the SIDs that are made of them, are all different while its timestamps
have gone back fewer than 2^14 times. -/
theorem uuids_distinct (node : Vector UInt8 6) (calls : List Call) (issued : List Issued) (g : Generator)
    (ran : creates node calls = some (issued, g))
    (bounded : ∀ call ∈ calls, ∀ r ∈ call.readings, r < 2 ^ 60 - 65536)
    (few : decreases (issued.map (·.timestamp)) < 2 ^ 14) :
    (issued.map (·.uid)).Nodup ∧ (issued.map fun i => sidOf i.uid).Nodup := by
  have distinct : (issued.map (·.uid)).Nodup := by
    cases creates_left bounded ran with
    | nothing => exact List.nodup_nil
    | some cs chained => exact chained.nodup few
  refine ⟨distinct, ?_⟩
  have injective : Function.Injective sidOf := fun _ _ => sidOf_inj
  have sids := List.Nodup.map injective distinct
  rwa [List.map_map] at sids

/-- Readings that repeat, go back, and meet a timestamp that was counted up. -/
def jumpyReadings : List Call :=
  ([101, 7, 101, 100, 100, 100] : List Nat).map fun ticks => ⟨[10 ^ 17 + ticks], 9⟩

theorem uuids_distinct_jumpy : ∃ issued g, creates (.replicate 6 1) jumpyReadings = some (issued, g) ∧
    issued.length = 6 ∧ (issued.map (·.uid)).Nodup ∧ (issued.map fun i => sidOf i.uid).Nodup := by
  have six : (creates (.replicate 6 1) jumpyReadings).map
      (fun made => (made.1.length, decide (decreases (made.1.map (·.timestamp)) < 2 ^ 14))) = some (6, true) := by
    decide
  obtain ⟨⟨issued, g⟩, ran, facts⟩ := Option.map_eq_some_iff.mp six
  obtain ⟨length, few⟩ := Prod.mk.inj facts
  exact ⟨issued, g, ran, length, uuids_distinct (.replicate 6 1) jumpyReadings issued g ran (by decide)
    (of_decide_eq_true few)⟩

end Pupnp.Gena.Uuid
