import KhelaKaro.Theorems.SerialBookings
import Mathlib.Data.Finset.Card
import Mathlib.Data.Finset.Sort
import Mathlib.Order.Interval.Finset.Nat

/-! # Courts

What the allocation of `postBooking` promises of the court it gives out and of a refusal. The loops compare the slot
with every booking of a list, and a slot lasts `slotLength` milliseconds. -/

namespace KhelaKaro
open Async

/-! ### The least free court -/

/-- The booking's half-open interval and the one from `s` to `e` have a common instant. -/
def Booking.Intersects (b : Booking) (s e : Int) : Prop := (b.slot ∩ Set.Ico s e).Nonempty

/-- The booking ends no later than it starts, at instants inside the interval: the loops count it, but no instant of it
    is taken. -/
def Booking.EmptyWithin (b : Booking) (s e : Int) : Prop :=
  s < b.endDateTime.time ∧ b.endDateTime.time ≤ b.startDateTime.time ∧ b.startDateTime.time < e

/-- The courts `1..k` on which no booking of the list intersects the interval -/
def FreeAt (k : Nat) (bs : List Booking) (s e : Int) : Set Nat :=
  {i | (1 ≤ i ∧ i ≤ k) ∧ ∀ b ∈ bs, b.Intersects s e → b.courtNumber ≠ i}

section Least
variable {b : Booking} {s e : Int}

theorem Booking.intersects_iff : b.Intersects s e ↔
    (b.startDateTime.time < b.endDateTime.time ∧ s < e) ∧ b.startDateTime.time < e ∧ s < b.endDateTime.time := by
  unfold Booking.Intersects Booking.slot
  rw [← Set.not_disjoint_iff_nonempty_inter, Set.Ico_disjoint_Ico]
  omega

/-- The guard of the counting loop lets through what intersects the interval, and what is empty inside it. -/
theorem overlaps_iff_intersects (h : s < e) :
    b.overlaps (.val s) (.val e) = true ↔ b.Intersects s e ∨ b.EmptyWithin s e := by
  rw [Booking.overlaps_iff, Booking.intersects_iff]
  unfold Booking.EmptyWithin
  omega

theorem Booking.Intersects.overlaps (h : b.Intersects s e) : b.overlaps (.val s) (.val e) = true :=
  Booking.overlaps_iff.mpr (Booking.intersects_iff.mp h).2

end Least

/-- The court allocated is a free one of the facility; unless a booking is empty inside the interval, it is the least
    one. -/
theorem allocate_isLeast (k : Nat) (bs : List Booking) (s e : Int) (c : Nat) (hk : 0 < k)
    (h : allocate (.val s) (.val e) (some (k : ℚ)) bs = some c) :
    c ∈ FreeAt k bs s e ∧ (s < e → (∀ b ∈ bs, ¬b.EmptyWithin s e) → IsLeast (FreeAt k bs s e) c) := by
  obtain ⟨hrange, hfree, hleast⟩ := allocate_spec hk h
  have hmem : c ∈ FreeAt k bs s e := ⟨hrange, fun b hb hmeet => hfree b hb hmeet.overlaps⟩
  refine ⟨hmem, fun hse hnone => ⟨hmem, ?_⟩⟩
  rintro i ⟨⟨hone, -⟩, hi⟩
  by_contra hlt
  obtain ⟨b, hb, hover, hcourt⟩ := hleast i hone (not_le.mp hlt)
  rcases (overlaps_iff_intersects hse).mp hover with hmeet | hempty
  · exact hi b hb hmeet hcourt
  · exact hnone b hb hempty

/-- The second court of a facility of which the first is taken -/
theorem allocate_isLeast_second : IsLeast (FreeAt 2 [homeBooking] 1704106801000 1704106804600) 2 := by
  refine (allocate_isLeast 2 [homeBooking] 1704106801000 1704106804600 2 (by decide) (by decide +kernel)).2
    (by decide) ?_
  intro b hb
  rw [List.mem_singleton] at hb
  subst hb
  unfold Booking.EmptyWithin
  decide

/-- A booking of court 1 that ends when it starts -/
def emptyBooking : Booking := ⟨⟨1⟩, ⟨1⟩, 1, ⟨10, by decide⟩, ⟨10, by decide⟩⟩

/-- Court 2 is allocated beside it, but court 1 is free. -/
theorem not_isLeast_emptyBooking :
    0 < 2 ∧ allocate (.val (5 : Int)) (.val (15 : Int)) (some ((2 : Nat) : ℚ)) [emptyBooking] = some 2 ∧
      ¬IsLeast (FreeAt 2 [emptyBooking] 5 15) 2 := by
  refine ⟨by decide, by decide +kernel, fun h => ?_⟩
  have hone : 1 ∈ FreeAt 2 [emptyBooking] 5 15 := by
    refine ⟨by decide, fun b hb hmeet => ?_⟩
    rw [List.mem_singleton] at hb
    subst hb
    exact absurd (Booking.intersects_iff.mp hmeet).1.1 (by decide)
  exact absurd (h.2 hone) (by decide)

/-! ### A whole hour -/

section Hour
variable {s : Int} {bs : List Booking} {k : Nat}

/-- Every booking of the list ends where the route ends it. -/
def EndsAsBooked (bs : List Booking) : Prop := ∀ b ∈ bs, endOf b.startDateTime = some b.endDateTime

/-- The bookings that start less than a slot's length from `s` -/
def near (s : Int) (bs : List Booking) : List Booking := bs.filter fun b => |b.startDateTime.time - s| < slotLength

theorem mem_near {b : Booking} : b ∈ near s bs ↔ b ∈ bs ∧ |b.startDateTime.time - s| < slotLength := by
  rw [near, List.mem_filter, decide_eq_true_eq]

theorem val_add_slot : Number.val (s : ℚ) + .val slotLength = .val ((s + slotLength : Int) : ℚ) := by
  rw [Number.val_add]
  push_cast
  rfl

theorem overlaps_slot_iff {b : Booking} (h : endOf b.startDateTime = some b.endDateTime) :
    b.overlaps (.val s) (.val s + .val slotLength) = true ↔ |b.startDateTime.time - s| < slotLength := by
  have hend := endOf_time h
  rw [val_add_slot, Booking.overlaps_iff, abs_lt]
  omega

theorem meeting_eq_near (h : EndsAsBooked bs) : meeting (.val s) (.val s + .val slotLength) bs = near s bs := by
  refine List.filter_congr fun b hb => ?_
  rw [Bool.eq_iff_iff, overlaps_slot_iff (h b hb), decide_eq_true_eq]

/-- A court given out for `s` has no booking within an hour of `s`. -/
def HourReserved (k : Nat) (bs : List Booking) (s : Int) : Prop :=
  ∀ c, allocate (.val s) (.val s + .val slotLength) (some (k : ℚ)) bs = some c →
    ∀ b ∈ bs, b.courtNumber = c → 3600000 ≤ |b.startDateTime.time - s|

/-- Unless near bookings fill the facility, a booking that is not near but within the hour is on a court that a near
    one holds, or above a court that none of them holds. -/
def HourCovered (k : Nat) (bs : List Booking) (s : Int) : Prop :=
  (near s bs).length < k → ∀ b ∈ bs, slotLength ≤ |b.startDateTime.time - s| → |b.startDateTime.time - s| < 3600000 →
    ∀ i : Nat, 1 ≤ i → b.courtNumber = i →
      (∃ a ∈ near s bs, a.courtNumber = i) ∨ ∃ j : Nat, 1 ≤ j ∧ j < i ∧ ∀ a ∈ near s bs, a.courtNumber ≠ j

end Hour

theorem homeBooking_endsAsBooked : EndsAsBooked [homeBooking] := by
  intro b hb
  rw [List.mem_singleton] at hb
  subst hb
  decide +kernel

/-- The hour is reserved exactly where the bookings of the first seconds cover it. -/
theorem hourReserved_iff (k : Nat) (bs : List Booking) (s : Int) (hk : 0 < k) (hend : EndsAsBooked bs) :
    HourReserved k bs s ↔ HourCovered k bs s := by
  unfold HourReserved HourCovered
  simp only [allocate_eq_some_iff hk, meeting_eq_near hend]
  constructor
  · intro h hlen b hb hfar hhour i hone hcourt
    by_contra hnot
    rw [not_or] at hnot
    obtain ⟨hfree, hlower⟩ := hnot
    have hleast : IsLeast {i | FreeCourt (.val s) (.val s + .val slotLength) bs i} i := by
      unfold FreeCourt
      rw [meeting_eq_near hend]
      refine ⟨⟨hone, fun a ha hai => hfree ⟨a, ha, hai⟩⟩, ?_⟩
      rintro j ⟨hj, hjfree⟩
      by_contra hlt
      exact hlower ⟨j, hj, not_le.mp hlt, hjfree⟩
    exact absurd (h i ⟨hlen, hleast⟩ b hb hcourt) (not_le.mpr hhour)
  · rintro h c ⟨hlen, ⟨hone, hfree⟩, hleast⟩ b hb hcourt
    rw [meeting_eq_near hend] at hfree
    by_contra hhour
    by_cases hnear : |b.startDateTime.time - s| < slotLength
    · exact hfree b (mem_near.mpr ⟨hb, hnear⟩) hcourt
    · rcases h hlen b hb (not_lt.mp hnear) (not_le.mp hhour) c hone hcourt with ⟨a, ha, hac⟩ | ⟨j, hj, hjc, hjfree⟩
      · exact hfree a ha hac
      · refine absurd (hleast ⟨hj, ?_⟩) (not_le.mpr hjc)
        rw [meeting_eq_near hend]
        exact hjfree

theorem hourReserved_iff_covered :
    HourReserved 2 [homeBooking] 1704106801000 ↔ HourCovered 2 [homeBooking] 1704106801000 :=
  hourReserved_iff 2 [homeBooking] 1704106801000 (by decide) homeBooking_endsAsBooked

/-- Half an hour after a booking its court is given out again. -/
theorem not_hourReserved :
    0 < 1 ∧ EndsAsBooked [homeBooking] ∧ ¬HourReserved 1 [homeBooking] 1704108600000 := by
  refine ⟨by decide, homeBooking_endsAsBooked, fun h => ?_⟩
  have hcourt : allocate (.val (1704108600000 : Int)) (.val (1704108600000 : Int) + .val slotLength)
      (some ((1 : Nat) : ℚ)) [homeBooking] = some 1 := by decide +kernel
  exact absurd (h 1 hcourt homeBooking List.mem_cons_self rfl) (by decide)

/-! ### Refusals -/

section Refusal
variable {s e : Number} {bs : List Booking} {k : Nat}

/-- The court numbers `1..k` -/
def courts (k : Nat) : Finset ℚ := (Finset.Icc 1 k).map ⟨fun i : Nat => (i : ℚ), Nat.cast_injective⟩

/-- No two bookings of one court have a common instant. -/
def CourtsApart (bs : List Booking) : Prop :=
  bs.Pairwise fun a b => a.courtNumber = b.courtNumber → Disjoint a.slot b.slot

theorem mem_courts {q : ℚ} : q ∈ courts k ↔ ∃ i : Nat, (1 ≤ i ∧ i ≤ k) ∧ (i : ℚ) = q := by
  simp only [courts, Finset.mem_map, Finset.mem_Icc, Function.Embedding.coeFn_mk]

theorem card_courts : (courts k).card = k := by
  rw [courts, Finset.card_map, Nat.card_Icc, Nat.add_sub_cancel]

/-- As many bookings as there are courts, each on a court of its own, hold all courts. -/
theorem map_courtNumber_toFinset (hcourts : ∀ b ∈ bs, b.courtNumber ∈ courts k)
    (hnodup : (bs.map (·.courtNumber)).Nodup) (hlen : k ≤ bs.length) :
    (bs.map (·.courtNumber)).toFinset = courts k := by
  refine Finset.eq_of_subset_of_card_le (fun q hq => ?_) ?_
  · obtain ⟨b, hb, rfl⟩ := List.mem_map.mp (List.mem_toFinset.mp hq)
    exact hcourts b hb
  · rw [card_courts, List.toFinset_card_of_nodup hnodup, List.length_map]
    exact hlen

/-- As many bookings as there are courts, on all courts, hold each court once. -/
theorem nodup_of_courts_subset (hall : courts k ⊆ (bs.map (·.courtNumber)).toFinset) (hlen : bs.length ≤ k) :
    bs.length = k ∧ (bs.map (·.courtNumber)).Nodup := by
  have hcard := Finset.card_le_card hall
  have hle := List.toFinset_card_le (bs.map (·.courtNumber))
  rw [card_courts] at hcard
  rw [List.length_map] at hle
  have heq : (bs.map (·.courtNumber)).toFinset.card = (bs.map (·.courtNumber)).length := by
    rw [List.length_map]
    omega
  exact ⟨by omega, Multiset.toFinset_card_eq_card_iff_nodup.mp heq⟩

end Refusal

/-- A refusal of the slot from `s` says that each court is held by a booking that intersects it. -/
def RefusesWhenFull (k : Nat) (bs : List Booking) (s : Int) : Prop :=
  allocate (.val s) (.val s + .val slotLength) (some (k : ℚ)) bs = none →
    ∀ i : Nat, 1 ≤ i → i ≤ k → ∃ b ∈ bs, b.courtNumber = i ∧ b.Intersects s (s + slotLength)

/-- The first `k` bookings that the guard of the counting loop lets through for the slot from `s` -/
def counted (k : Nat) (bs : List Booking) (s : Int) : List Booking :=
  (meeting (.val s) (.val s + .val slotLength) bs).take k

/-- The counted bookings are on different courts, and each of them ends after it starts. -/
structure CountsOnce (k : Nat) (bs : List Booking) (s : Int) : Prop where
  apart : (counted k bs s).Pairwise fun a b => a.courtNumber ≠ b.courtNumber
  lasting : ∀ b ∈ counted k bs s, b.startDateTime.time < b.endDateTime.time

section Refusal
variable {s : Int} {bs : List Booking} {k : Nat} {b : Booking}

theorem mem_meeting_slot : b ∈ meeting (.val s) (.val s + .val slotLength) bs ↔
    b ∈ bs ∧ (b.Intersects s (s + slotLength) ∨ b.EmptyWithin s (s + slotLength)) := by
  rw [val_add_slot, mem_meeting, overlaps_iff_intersects (by unfold slotLength; omega)]

theorem mem_of_mem_counted (h : b ∈ counted k bs s) : b ∈ bs := (mem_meeting_slot.mp (List.mem_of_mem_take h)).1

/-- A counted booking that ends after it starts intersects the slot. -/
theorem intersects_of_mem_counted (h : b ∈ counted k bs s) (hlasting : b.startDateTime.time < b.endDateTime.time) :
    b.Intersects s (s + slotLength) := by
  rcases (mem_meeting_slot.mp (List.mem_of_mem_take h)).2 with hmeet | hempty
  · exact hmeet
  · exact absurd hlasting (not_lt.mpr hempty.2.1)

theorem CountsOnce.refusesWhenFull (h : CountsOnce k bs s) (hk : 0 < k)
    (hcourts : ∀ b ∈ bs, b.courtNumber ∈ courts k) : RefusesWhenFull k bs s := by
  intro hnone i hone hik
  rw [allocate_eq_none_iff, reaches_natCast_iff hk] at hnone
  have hall := map_courtNumber_toFinset (fun b hb => hcourts b (mem_of_mem_counted hb)) (List.pairwise_map.mpr h.apart)
    (List.length_take_of_le hnone).ge
  have hi : (i : ℚ) ∈ courts k := mem_courts.mpr ⟨i, ⟨hone, hik⟩, rfl⟩
  rw [← hall, List.mem_toFinset] at hi
  obtain ⟨b, hb, hcourt⟩ := List.mem_map.mp hi
  exact ⟨b, mem_of_mem_counted hb, hcourt, intersects_of_mem_counted hb (h.lasting b hb)⟩

/-- Where exactly as many bookings meet the slot as there are courts, a refusal that is right has counted each court
    once. -/
theorem RefusesWhenFull.countsOnce (h : RefusesWhenFull k bs s) (hk : 0 < k)
    (hlen : (meeting (.val s) (.val s + .val slotLength) bs).length = k) : CountsOnce k bs s := by
  have hfull := h (by rw [allocate_eq_none_iff, reaches_natCast_iff hk, hlen])
  have hcounted : counted k bs s = meeting (.val s) (.val s + .val slotLength) bs := List.take_of_length_le hlen.le
  classical
  -- The bookings that intersect the slot are on all courts, so they are all that are counted.
  have hall : courts k ⊆
      (((counted k bs s).filter fun b => b.Intersects s (s + slotLength)).map (·.courtNumber)).toFinset := by
    intro q hq
    obtain ⟨i, ⟨hone, hik⟩, rfl⟩ := mem_courts.mp hq
    obtain ⟨b, hb, hcourt, hmeet⟩ := hfull i hone hik
    refine List.mem_toFinset.mpr (List.mem_map.mpr ⟨b, List.mem_filter.mpr ⟨?_, decide_eq_true hmeet⟩, hcourt⟩)
    rw [hcounted]
    exact mem_meeting_slot.mpr ⟨hb, Or.inl hmeet⟩
  obtain ⟨hcount, hnodup⟩ := nodup_of_courts_subset hall ((List.length_filter_le _ _).trans (List.length_take_le _ _))
  have hself := List.filter_sublist.eq_of_length (hcount.trans (hcounted ▸ hlen).symm)
  rw [hself] at hnodup
  refine ⟨List.pairwise_map.mp hnodup, fun b hb => ?_⟩
  exact (Booking.intersects_iff.mp (of_decide_eq_true (List.filter_eq_self.mp hself b hb))).1.1

end Refusal

/-- Where the loop counts each court once, it refuses only when all courts are taken; and where exactly as many bookings
    meet the slot as there are courts, only there. -/
theorem refusesWhenFull_of_countsOnce (k : Nat) (bs : List Booking) (s : Int) (hk : 0 < k)
    (hcourts : ∀ b ∈ bs, b.courtNumber ∈ courts k) :
    (CountsOnce k bs s → RefusesWhenFull k bs s) ∧
      ((meeting (.val s) (.val s + .val slotLength) bs).length = k → RefusesWhenFull k bs s → CountsOnce k bs s) :=
  ⟨fun h => h.refusesWhenFull hk hcourts, fun hlen h => h.countsOnce hk hlen⟩

/-- Both courts for the same slot -/
def sideBySide : List Booking :=
  [⟨⟨1⟩, ⟨1⟩, 1, ⟨0, by decide⟩, ⟨3600, by decide⟩⟩, ⟨⟨2⟩, ⟨1⟩, 2, ⟨0, by decide⟩, ⟨3600, by decide⟩⟩]

theorem refusesWhenFull_of_countsOnce_sideBySide :
    allocate (.val (1800 : Int)) (.val (1800 : Int) + .val slotLength) (some ((2 : Nat) : ℚ)) sideBySide = none ∧
      RefusesWhenFull 2 sideBySide 1800 := by
  refine ⟨by decide +kernel, (refusesWhenFull_of_countsOnce 2 sideBySide 1800 (by decide) fun b hb => ?_).1 ?_⟩
  · simp only [sideBySide, List.mem_cons, List.not_mem_nil, or_false] at hb
    rcases hb with rfl | rfl
    · exact mem_courts.mpr ⟨1, by decide, Nat.cast_one⟩
    · exact mem_courts.mpr ⟨2, by decide, Nat.cast_two⟩
  · have hcounted : counted 2 sideBySide 1800 = sideBySide := by decide +kernel
    refine ⟨?_, ?_⟩ <;> rw [hcounted] <;> decide

/-- Two slots of court 1, the second from the end of the first -/
def backToBack : List Booking :=
  [⟨⟨1⟩, ⟨1⟩, 1, ⟨0, by decide⟩, ⟨3600, by decide⟩⟩, ⟨⟨2⟩, ⟨1⟩, 1, ⟨3600, by decide⟩, ⟨7200, by decide⟩⟩]

/-- A slot that meets both is refused, and court 2 is free. -/
theorem not_refusesWhenFull :
    0 < 2 ∧ (∀ b ∈ backToBack, b.courtNumber ∈ courts 2) ∧ CourtsApart backToBack ∧
      ¬RefusesWhenFull 2 backToBack 1800 := by
  have hone : ∀ b ∈ backToBack, b.courtNumber = 1 := by decide
  refine ⟨by decide, fun b hb => ?_, ?_, fun h => ?_⟩
  · rw [hone b hb]
    exact mem_courts.mpr ⟨1, by decide, Nat.cast_one⟩
  · unfold CourtsApart backToBack
    simp only [List.pairwise_pair]
    exact fun _ => (disjoint_slot_iff rfl rfl).mpr (by decide)
  · have hnone : allocate (.val (1800 : Int)) (.val (1800 : Int) + .val slotLength) (some ((2 : Nat) : ℚ)) backToBack =
        none := by decide +kernel
    obtain ⟨b, hb, hcourt, -⟩ := h hnone 2 (by decide) le_rfl
    rw [hone b hb] at hcourt
    norm_num at hcourt

end KhelaKaro
