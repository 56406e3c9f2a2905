import Mathlib.Data.List.Induction
import Mathlib.Data.List.Infix

/-! # Append-only ledgers

A ledger is a state whose log only grows: a request adds the entry it is admitted with, or nothing. Entries are
never changed or removed, so a relation between any two entries is decided when the later one is admitted
(`Ledger.pairwise_runs_iff`). -/

namespace KhelaKaro

/-- A state `σ` with a log of entries `α`, under requests `ρ`. -/
structure Ledger (σ α ρ : Type) where
  step : σ → ρ → σ
  log : σ → List α
  entry : σ → ρ → Option α
  log_step : ∀ s r, log (step s r) = log s ++ (entry s r).toList

namespace Ledger
variable {σ α ρ : Type} (L : Ledger σ α ρ)

def runs (s : σ) (rs : List ρ) : σ := rs.foldl L.step s

/-- `r` is handled in state `t` during the run of `rs` from `s`. -/
def Handles (s : σ) (rs : List ρ) (t : σ) (r : ρ) : Prop := ∃ pre, pre ++ [r] <+: rs ∧ L.runs s pre = t

@[simp] theorem runs_nil (s : σ) : L.runs s [] = s := rfl
theorem runs_concat (s : σ) (rs : List ρ) (r : ρ) : L.runs s (rs ++ [r]) = L.step (L.runs s rs) r := by
  simp [runs]

theorem runs_append (s : σ) (rs rs' : List ρ) : L.runs s (rs ++ rs') = L.runs (L.runs s rs) rs' := by
  simp [runs]

theorem handles_concat {s t : σ} {rs : List ρ} {r r' : ρ} :
    L.Handles s (rs ++ [r']) t r ↔ L.Handles s rs t r ∨ L.runs s rs = t ∧ r' = r := by
  unfold Handles
  constructor
  · rintro ⟨pre, hpre, ht⟩
    rcases List.prefix_concat_iff.mp hpre with heq | hpre
    · obtain ⟨rfl, hr⟩ := List.append_inj' heq rfl
      simp only [List.cons.injEq, and_true] at hr
      exact Or.inr ⟨ht, hr.symm⟩
    · exact Or.inl ⟨pre, hpre, ht⟩
  · rintro (⟨pre, hpre, ht⟩ | ⟨ht, rfl⟩)
    · exact ⟨pre, hpre.trans (List.prefix_append _ _), ht⟩
    · exact ⟨rs, List.prefix_refl _, ht⟩

theorem handles_pair {s t : σ} {r r₁ r₂ : ρ} :
    L.Handles s [r₁, r₂] t r ↔ s = t ∧ r₁ = r ∨ L.step s r₁ = t ∧ r₂ = r := by
  have h : L.Handles s ([] ++ [r₁] ++ [r₂]) t r ↔
      (L.Handles s [] t r ∨ L.runs s [] = t ∧ r₁ = r) ∨ L.runs s ([] ++ [r₁]) = t ∧ r₂ = r :=
    L.handles_concat.trans (or_congr_left L.handles_concat)
  simpa [Handles, runs] using h

theorem Handles.mem {s t : σ} {rs : List ρ} {r : ρ} (h : L.Handles s rs t r) : r ∈ rs := by
  obtain ⟨pre, hpre, -⟩ := h
  exact hpre.subset (by simp)

/-- A run goes on from each state in which it handles a request. -/
theorem Handles.rest {s t : σ} {rs : List ρ} {r : ρ} (h : L.Handles s rs t r) : ∃ rs', L.runs s rs = L.runs t rs' := by
  obtain ⟨pre, ⟨post, rfl⟩, rfl⟩ := h
  exact ⟨[r] ++ post, by rw [List.append_assoc, runs_append]⟩

theorem runs_induction {Q : σ → Prop} {s : σ} (h0 : Q s) (hs : ∀ t r, Q t → Q (L.step t r)) (rs : List ρ) :
    Q (L.runs s rs) := by
  induction rs using List.reverseRecOn with
  | nil => exact h0
  | append_singleton rs r ih =>
    rw [runs_concat]
    exact hs _ r ih

/-- An entry of the log was there before the run, or some request of the run was admitted with it. -/
theorem mem_log_runs {s : σ} {rs : List ρ} {a : α} :
    a ∈ L.log (L.runs s rs) ↔ a ∈ L.log s ∨ ∃ t r, L.Handles s rs t r ∧ L.entry t r = some a := by
  induction rs using List.reverseRecOn with
  | nil => simp [Handles]
  | append_singleton rs r ih =>
    rw [runs_concat, L.log_step, List.mem_append, ih, Option.mem_toList]
    constructor
    · rintro ((h | ⟨t, r', ht, ha⟩) | ha)
      · exact Or.inl h
      · exact Or.inr ⟨t, r', L.handles_concat.mpr (Or.inl ht), ha⟩
      · exact Or.inr ⟨_, r, L.handles_concat.mpr (Or.inr ⟨rfl, rfl⟩), ha⟩
    · rintro (h | ⟨t, r', ht, ha⟩)
      · exact Or.inl (Or.inl h)
      · rcases L.handles_concat.mp ht with ht | ⟨rfl, rfl⟩
        · exact Or.inl (Or.inr ⟨t, r', ht, ha⟩)
        · exact Or.inr ha

/-- Any two entries of a run are related exactly when each admitted entry is related to the entries logged
    before it. -/
theorem pairwise_runs_iff (R : α → α → Prop) (s : σ) (rs : List ρ) :
    (L.log (L.runs s rs)).Pairwise R ↔
      (L.log s).Pairwise R ∧ ∀ t r, L.Handles s rs t r → ∀ a, L.entry t r = some a → ∀ x ∈ L.log t, R x a := by
  induction rs using List.reverseRecOn with
  | nil => simp [Handles]
  | append_singleton rs r ih =>
    rw [runs_concat, L.log_step, List.pairwise_append, ih]
    have hone : (L.entry (L.runs s rs) r).toList.Pairwise R := by
      cases L.entry (L.runs s rs) r <;> simp
    constructor
    · rintro ⟨⟨h0, hpre⟩, -, hlast⟩
      refine ⟨h0, fun t r' ht a ha x hx => ?_⟩
      rcases L.handles_concat.mp ht with ht | ⟨rfl, rfl⟩
      · exact hpre t r' ht a ha x hx
      · exact hlast x hx a (Option.mem_toList.mpr ha)
    · rintro ⟨h0, hall⟩
      refine ⟨⟨h0, fun t r' ht => hall t r' (L.handles_concat.mpr (Or.inl ht))⟩, hone, fun x hx a ha => ?_⟩
      exact hall _ r (L.handles_concat.mpr (Or.inr ⟨rfl, rfl⟩)) a (Option.mem_toList.mp ha) x hx

end Ledger
end KhelaKaro
