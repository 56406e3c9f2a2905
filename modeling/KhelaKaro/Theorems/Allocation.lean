import KhelaKaro.Theorems.BookingRoute
import Mathlib.Data.List.Perm.Subperm
import Mathlib.Data.List.Range
import Mathlib.Order.Bounds.Basic

/-! # Court allocation

The counting loop sees every booking that meets the slot unless it breaks at a full facility, and then the route
allocates nothing. So the court it allocates is the least free one. -/

namespace KhelaKaro
open Async

/-! ## The counting loop -/

section Count
variable {s e : Number} {count : Option ℚ}

/-- Without a break the loop counts and collects all bookings that meet the slot. -/
theorem countCourts_eq {bs : List Booking} {n : Nat} {occ : List ℚ}
    (h : looseEq (countCourts s e count bs n occ).1 count = false) :
    countCourts s e count bs n occ =
      (n + (bs.filter (·.overlaps s e)).length, ((bs.filter (·.overlaps s e)).map (·.courtNumber)).reverse ++ occ) := by
  induction bs generalizing n occ with
  | nil => rfl
  | cons b bs ih =>
    unfold countCourts at h ⊢
    by_cases hb : b.overlaps s e = true
    · simp only [hb, ↓reduceIte] at h ⊢
      by_cases hfull : looseEq (n + 1) count = true
      · simp only [hfull, ↓reduceIte, Bool.true_eq_false] at h
      · simp only [hfull, Bool.false_eq_true, ↓reduceIte] at h ⊢
        rw [ih h, List.filter_cons_of_pos hb, List.length_cons, List.map_cons, List.reverse_cons, List.append_assoc,
          List.singleton_append, Nat.add_right_comm, Nat.add_assoc]
    · simp only [hb, Bool.false_eq_true, ↓reduceIte] at h ⊢
      rw [ih h, List.filter_cons_of_neg hb]

theorem countCourts_le {k : Nat} (hk : count = some (k : ℚ)) {bs : List Booking} {n : Nat} {occ : List ℚ} (hn : n ≤ k)
    (hne : n ≠ k) : (countCourts s e count bs n occ).1 ≤ k := by
  induction bs generalizing n occ with
  | nil => exact hn
  | cons b bs ih =>
    unfold countCourts
    split
    · dsimp only
      split
      · omega
      · rename_i hfull
        have : n + 1 ≠ k := by
          rintro rfl
          simp [looseEq, hk] at hfull
        exact ih (by omega) this
    · exact ih hn hne

end Count

/-! ## The search loop -/

/-- With fewer courts taken than there are, the search finds the least free one. -/
theorem bookCourtNumber_spec {k : Nat} {occupied : List ℚ} (h : occupied.length < k) :
    (1 ≤ bookCourtNumber (some k) occupied ∧ bookCourtNumber (some k) occupied ≤ k) ∧
      ((bookCourtNumber (some k) occupied : Nat) : ℚ) ∉ occupied ∧
      ∀ i, 1 ≤ i → i < bookCourtNumber (some k) occupied → (i : ℚ) ∈ occupied := by
  have hfloor : (some (k : ℚ)).elim 0 (fun q => q.floor.toNat) = k := by
    rw [Option.elim_some, ← Int.cast_natCast, Rat.floor_intCast, Int.toNat_natCast]
  cases hfind : (List.range' 1 k).find? fun i : Nat => (i : ℚ) ∉ occupied with
  | none =>
    -- Then all courts are taken, but they are distinct and more than the list holds.
    exfalso
    have hall : (List.range' 1 k).map (fun i : Nat => (i : ℚ)) ⊆ occupied := by
      intro q hq
      obtain ⟨i, hi, rfl⟩ := List.mem_map.mp hq
      simpa using List.find?_eq_none.mp hfind i hi
    have hnodup : ((List.range' 1 k).map (fun i : Nat => (i : ℚ))).Nodup :=
      List.Nodup.map Nat.cast_injective List.nodup_range'
    have hle := (List.subperm_of_subset hnodup hall).length_le
    rw [List.length_map, List.length_range'] at hle
    omega
  | some c =>
    have hc : bookCourtNumber (some (k : ℚ)) occupied = c := by
      unfold bookCourtNumber
      rw [hfloor, hfind, Option.getD_some]
    rw [hc]
    obtain ⟨hfree, as, bs, hsplit, has⟩ := List.find?_eq_some_iff_append.mp hfind
    have hmem : c ∈ List.range' 1 k := by simp [hsplit]
    rw [List.mem_range'_1] at hmem
    refine ⟨by omega, by simpa using hfree, fun i hi hic => ?_⟩
    have himem : i ∈ List.range' 1 k := List.mem_range'_1.mpr (by omega)
    have hsorted : (List.range' 1 k).Pairwise (· < ·) := List.pairwise_lt_range'
    rw [hsplit] at himem hsorted
    -- The range ascends, so the courts below `c` are those the search passed over.
    rcases List.mem_append.mp himem with hi | hi
    · simpa using has i hi
    · have := (List.pairwise_append.mp hsorted).2.1
      rcases List.mem_cons.mp hi with rfl | hi
      · omega
      · have := List.rel_of_pairwise_cons this hi
        omega

/-- The search stays below the count, so a count below 1 leaves its default. -/
theorem bookCourtNumber_le {count : Option ℚ} {occ : List ℚ} :
    1 ≤ bookCourtNumber count occ ∧
      (bookCourtNumber count occ = 1 ∨ ∃ q, count = some q ∧ (bookCourtNumber count occ : ℚ) ≤ q) := by
  unfold bookCourtNumber
  cases hfind : (List.range' 1 (count.elim 0 fun q => q.floor.toNat)).find? fun i : Nat => (i : ℚ) ∉ occ with
  | none => exact ⟨le_rfl, Or.inl rfl⟩
  | some c =>
    have hmem := List.mem_of_find?_eq_some hfind
    rw [List.mem_range'_1] at hmem
    rw [Option.getD_some]
    refine ⟨hmem.1, Or.inr ?_⟩
    cases count with
    | none => simp only [Option.elim_none] at hmem; omega
    | some q =>
      rw [Option.elim_some] at hmem
      refine ⟨q, rfl, ?_⟩
      have hc : (c : Int) ≤ q.floor := by omega
      have := Rat.le_floor_iff.mp hc
      exact_mod_cast this

/-! ## Allocation -/

section Allocate
variable {s e : Number} {k : Nat} {bs : List Booking} {c : Nat}

/-- The court allocated is the least one in `1..k` that no booking of the list holds in the slot. -/
theorem allocate_spec (hk : 0 < k) (h : allocate s e (some k) bs = some c) :
    (1 ≤ c ∧ c ≤ k) ∧ (∀ b ∈ bs, b.overlaps s e = true → b.courtNumber ≠ c) ∧
      ∀ i, 1 ≤ i → i < c → ∃ b ∈ bs, b.overlaps s e = true ∧ b.courtNumber = i := by
  have hfull : looseEq (countCourts s e (some (k : ℚ)) bs 0 []).1 (some (k : ℚ)) = false := by
    cases hf : looseEq (countCourts s e (some (k : ℚ)) bs 0 []).1 (some (k : ℚ)) with
    | false => rfl
    | true => simp [allocate, hf] at h
  replace h : bookCourtNumber (some (k : ℚ)) (countCourts s e (some (k : ℚ)) bs 0 []).2 = c := by
    simpa [allocate, hfull] using h
  have hcount := countCourts_eq hfull
  have hle : (countCourts s e (some (k : ℚ)) bs 0 []).1 ≤ k := countCourts_le rfl (Nat.zero_le k) hk.ne
  have hlt : (countCourts s e (some (k : ℚ)) bs 0 []).1 < k := by
    refine lt_of_le_of_ne hle fun heq => ?_
    rw [heq] at hfull
    simp [looseEq] at hfull
  rw [hcount] at hlt h
  simp only [List.append_nil, Nat.zero_add] at hlt h
  subst h
  have hlen : ((bs.filter (·.overlaps s e)).map (·.courtNumber)).reverse.length < k := by simpa using hlt
  obtain ⟨hrange, hfree, hleast⟩ := bookCourtNumber_spec hlen
  refine ⟨hrange, fun b hb hov hcourt => hfree ?_, fun i hi hic => ?_⟩
  · rw [← hcourt, List.mem_reverse]
    exact List.mem_map.mpr ⟨b, List.mem_filter.mpr ⟨hb, hov⟩, rfl⟩
  · have := hleast i hi hic
    rw [List.mem_reverse] at this
    obtain ⟨b, hb, hcourt⟩ := List.mem_map.mp this
    obtain ⟨hb, hov⟩ := List.mem_filter.mp hb
    exact ⟨b, hb, hov, hcourt⟩

theorem allocate_nil (hk : 0 < k) : allocate s e (some k) [] = some 1 := by
  have hk0 : looseEq 0 (some (k : ℚ)) = false := by
    simp [looseEq, hk.ne']
  have hsome : allocate s e (some (k : ℚ)) [] = some (bookCourtNumber (some (k : ℚ)) []) := by
    simp [allocate, countCourts, hk0]
  obtain ⟨⟨hone, -⟩, -, hleast⟩ := allocate_spec hk hsome
  rw [hsome, Option.some.injEq]
  by_contra hne
  obtain ⟨b, hb, -⟩ := hleast 1 le_rfl (by omega)
  cases hb

end Allocate

/-! ## When the facility is full -/

/-- The bookings that meet the slot from `s` to `e` -/
def meeting (s e : Number) (bs : List Booking) : List Booking := bs.filter (·.overlaps s e)

/-- A counter that steps from 0 to `n` reaches the count: it starts there, or passes a whole number. -/
inductive Reaches (n : Nat) : Option ℚ → Prop
  | start : n = 0 → Reaches n (some 0)
  | step {k : Nat} : 0 < k → k ≤ n → Reaches n (some k)

section Full
variable {s e : Number} {count : Option ℚ} {bs bs' : List Booking}

@[simp] theorem meeting_nil : meeting s e [] = [] := rfl

theorem meeting_cons_of_pos {b : Booking} (h : b.overlaps s e = true) :
    meeting s e (b :: bs) = b :: meeting s e bs := List.filter_cons_of_pos h

theorem meeting_cons_of_neg {b : Booking} (h : ¬b.overlaps s e = true) :
    meeting s e (b :: bs) = meeting s e bs := List.filter_cons_of_neg h

theorem mem_meeting {b : Booking} : b ∈ meeting s e bs ↔ b ∈ bs ∧ b.overlaps s e = true := List.mem_filter

theorem looseEq_iff {n : Nat} : looseEq n count = true ↔ count = some (n : ℚ) := by
  unfold looseEq
  exact beq_iff_eq

/-- The break stops the loop where the counter equals the count, and nothing else does. -/
theorem countCourts_eq_count_iff {k n : Nat} {occ : List ℚ} :
    (countCourts s e (some (k : ℚ)) bs n occ).1 = k ↔
      n = k ∧ meeting s e bs = [] ∨ n < k ∧ k ≤ n + (meeting s e bs).length := by
  induction bs generalizing n occ with
  | nil =>
    simp only [countCourts, meeting_nil, List.length_nil, and_true]
    omega
  | cons b bs ih =>
    unfold countCourts
    by_cases hb : b.overlaps s e = true
    · simp only [hb, ↓reduceIte, meeting_cons_of_pos hb, List.length_cons, reduceCtorEq, and_false, false_or]
      by_cases hfull : looseEq (n + 1) (some (k : ℚ)) = true
      · have hk : k = n + 1 := by exact_mod_cast Option.some.inj (looseEq_iff.mp hfull)
        simp only [hfull, ↓reduceIte]
        omega
      · have hne : n + 1 ≠ k := fun h => hfull (looseEq_iff.mpr (by rw [h]))
        simp only [hfull, Bool.false_eq_true, ↓reduceIte, ih]
        omega
    · simp only [hb, Bool.false_eq_true, ↓reduceIte, meeting_cons_of_neg hb, ih]

theorem reaches_iff : looseEq (countCourts s e count bs 0 []).1 count = true ↔
    Reaches (meeting s e bs).length count := by
  rw [looseEq_iff]
  constructor
  · intro h
    obtain ⟨k, rfl⟩ : ∃ k : Nat, count = some (k : ℚ) := ⟨_, h⟩
    have hk : (countCourts s e (some (k : ℚ)) bs 0 []).1 = k := by exact_mod_cast (Option.some.inj h).symm
    rcases countCourts_eq_count_iff.mp hk with ⟨rfl, hnil⟩ | ⟨hpos, hle⟩
    · exact .start (by rw [hnil, List.length_nil])
    · exact .step hpos (by omega)
  · intro h
    cases h with
    | start hzero =>
      have h : (countCourts s e (some ((0 : Nat) : ℚ)) bs 0 []).1 = 0 :=
        countCourts_eq_count_iff.mpr (Or.inl ⟨rfl, List.length_eq_zero_iff.mp hzero⟩)
      rw [Nat.cast_zero] at h
      rw [h, Nat.cast_zero]
    | step hpos hle => rw [countCourts_eq_count_iff.mpr (Or.inr ⟨hpos, by omega⟩)]

theorem allocate_eq_none_iff : allocate s e count bs = none ↔ Reaches (meeting s e bs).length count := by
  rw [← reaches_iff]
  unfold allocate
  dsimp only
  cases looseEq (countCourts s e count bs 0 []).1 count <;> simp

theorem bookCourtNumber_congr {occ occ' : List ℚ} (h : ∀ q, q ∈ occ ↔ q ∈ occ') :
    bookCourtNumber count occ = bookCourtNumber count occ' := by
  unfold bookCourtNumber
  simp only [h]

/-- The court given out, when the counter does not reach the count. -/
theorem allocate_eq_some (h : ¬Reaches (meeting s e bs).length count) :
    allocate s e count bs = some (bookCourtNumber count ((meeting s e bs).map (·.courtNumber))) := by
  rw [← reaches_iff, Bool.not_eq_true] at h
  unfold allocate
  dsimp only
  rw [if_neg (by rw [h]; exact Bool.false_ne_true), countCourts_eq h, Option.some.injEq]
  exact bookCourtNumber_congr fun q => by rw [List.append_nil, List.mem_reverse]; rfl

/-- The allocation sees the bookings that meet the slot, in any order. -/
theorem allocate_congr (h : (meeting s e bs).Perm (meeting s e bs')) :
    allocate s e count bs = allocate s e count bs' := by
  by_cases hfull : Reaches (meeting s e bs).length count
  · rw [allocate_eq_none_iff.mpr hfull, allocate_eq_none_iff.mpr (h.length_eq ▸ hfull)]
  · rw [allocate_eq_some hfull, allocate_eq_some (h.length_eq ▸ hfull)]
    exact congrArg some (bookCourtNumber_congr fun q => (h.map _).mem_iff)

theorem allocate_perm (h : bs.Perm bs') : allocate s e count bs = allocate s e count bs' :=
  allocate_congr (h.filter _)

end Full

section Least
variable {s e : Number} {bs : List Booking} {k c : Nat}

theorem reaches_natCast_iff {n : Nat} (hk : 0 < k) : Reaches n (some (k : ℚ)) ↔ k ≤ n := by
  constructor
  · intro h
    generalize hq : some (k : ℚ) = count at h
    cases h with
    | start _ =>
      rw [Option.some.injEq, Nat.cast_eq_zero] at hq
      omega
    | @step k' _ hle =>
      rw [Option.some.injEq, Nat.cast_inj] at hq
      omega
  · exact .step hk

/-- Court `i` exists and no booking of the list holds it in the slot. -/
def FreeCourt (s e : Number) (bs : List Booking) (i : Nat) : Prop := 1 ≤ i ∧ ∀ b ∈ meeting s e bs, b.courtNumber ≠ i

theorem isLeast_allocate (hk : 0 < k) (h : allocate s e (some (k : ℚ)) bs = some c) :
    IsLeast {i | FreeCourt s e bs i} c := by
  obtain ⟨⟨hone, -⟩, hfree, hleast⟩ := allocate_spec hk h
  refine ⟨⟨hone, fun b hb => hfree b (mem_meeting.mp hb).1 (mem_meeting.mp hb).2⟩, fun i hi => ?_⟩
  by_contra hlt
  obtain ⟨b, hb, hov, hcourt⟩ := hleast i hi.1 (not_le.mp hlt)
  exact hi.2 b (mem_meeting.mpr ⟨hb, hov⟩) hcourt

theorem allocate_eq_some_iff (hk : 0 < k) : allocate s e (some (k : ℚ)) bs = some c ↔
    (meeting s e bs).length < k ∧ IsLeast {i | FreeCourt s e bs i} c := by
  constructor
  · intro h
    refine ⟨?_, isLeast_allocate hk h⟩
    rw [← not_le, ← reaches_natCast_iff hk, ← allocate_eq_none_iff, h]
    exact Option.some_ne_none c
  · rintro ⟨hlt, hc⟩
    have hnot : ¬Reaches (meeting s e bs).length (some (k : ℚ)) := by
      rw [reaches_natCast_iff hk]
      omega
    rw [allocate_eq_some hnot, (isLeast_allocate hk (allocate_eq_some hnot)).unique hc]

end Least
end KhelaKaro
