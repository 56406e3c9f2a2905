import KhelaKaro.Async.Along

/-! # Rounds

How many turns a procedure needs. No thread waits for another one, so a thread that has had as many turns as its
procedure makes calls has ended, whatever the others do in between and whichever calls fail (`Pool.runs_ended`). -/

namespace KhelaKaro.Async
variable {I : Interface} {σ α : Type}

namespace Proc

/-- There are at most `n` calls on every path. -/
def Within : Nat → Proc I α → Prop
  | _, pure _ | _, throw _ => True
  | n, send _ next => next.Within n
  | 0, await _ _ _ => False
  | n + 1, await _ next reject => (∀ a, (next a).Within n) ∧ ∀ e, (reject e).Within n

section Within
variable {t : Proc I α} {n k : Nat}

theorem Within.mono (h : t.Within n) (hle : n ≤ k) : t.Within k := by
  induction t generalizing n k with
  | pure a => trivial
  | throw e => trivial
  | send r next ih => exact ih h hle
  | await op next reject ihn ihr =>
    cases n with
    | zero => exact h.elim
    | succ n =>
    obtain ⟨k, rfl⟩ := Nat.exists_eq_add_of_le' (Nat.one_le_of_lt hle)
    have hle := Nat.le_of_succ_le_succ hle
    exact ⟨fun a => ihn a (h.1 a) hle, fun e => ihr e (h.2 e) hle⟩

theorem Within.tryCatch {handler : I.Err → Proc I α} (h : t.Within n) (hh : ∀ e, (handler e).Within 0) :
    (t.tryCatch handler).Within n := by
  induction t generalizing n with
  | pure a => trivial
  | throw e => exact (hh e).mono (Nat.zero_le n)
  | send r next ih => exact ih h
  | await op next reject ihn ihr =>
    cases n with
    | zero => exact h.elim
    | succ n => exact ⟨fun a => ihn a (h.1 a), fun e => ihr e (h.2 e)⟩

end Within
end Proc

namespace Thread
variable {th : Thread I α} {n : Nat}

theorem within_settle {calls : List (Call I)} {sent : List I.Out} {t : Proc I α} (h : t.Within n) :
    (settle calls sent t).proc.Within n := by
  induction t generalizing sent with
  | pure a => trivial
  | throw e => trivial
  | send r next ih => exact ih h
  | await op next reject => exact h

theorem within_turn (hs : th.Settled) (h : th.proc.Within n) (exec : Proc.Exec I σ) (fault : Option I.Err) (s : σ) :
    (th.turn exec fault s).2.proc.Within (n - 1) := by
  obtain ⟨calls, sent, proc⟩ := th
  cases proc with
  | pure a => trivial
  | throw e => trivial
  | send r next => exact absurd rfl (hs r next)
  | await op next reject =>
    cases n with
    | zero => exact h.elim
    | succ n =>
    simp only [turn]
    split
    · exact within_settle (h.1 _)
    · exact within_settle (h.2 _)

theorem Settled.finished (hs : th.Settled) (h : th.proc.Within 0) : th.finished = true := by
  obtain ⟨calls, sent, proc⟩ := th
  cases proc with
  | pure a => rfl
  | throw e => rfl
  | send r next => exact absurd rfl (hs r next)
  | await op next reject => exact h.elim

end Thread

namespace Pool
variable {exec : Proc.Exec I σ} {s : σ} {procs : List (Proc I α)} {ts : List (Turn I)} {i n : Nat} {th : Thread I α}

def turnsOf (i : Nat) (ts : List (Turn I)) : Nat := ts.countP fun t => t.thread == i

/-- Each turn of a thread is a call less. -/
theorem runs_within (h : ∀ t, procs[i]? = some t → t.Within n)
    (hi : ((start s procs).runs exec ts).threads[i]? = some th) : th.proc.Within (n - turnsOf i ts) := by
  induction ts using List.reverseRecOn generalizing th with
  | nil =>
    simp only [runs_nil, start, List.getElem?_map, Option.map_eq_some_iff] at hi
    obtain ⟨t, ht, rfl⟩ := hi
    exact Thread.within_settle (h t ht)
  | append_singleton ts t ih =>
    rw [runs_concat] at hi
    obtain ⟨th₀, h₀, ⟨hmine, rfl⟩ | ⟨hother, rfl⟩⟩ := step_thread hi
    · have hcount : turnsOf i (ts ++ [t]) = turnsOf i ts + 1 := by simp [turnsOf, hmine]
      rw [hcount, ← Nat.sub_sub]
      exact Thread.within_turn (runs_settled ts h₀) (ih h₀) _ _ _
    · have hcount : turnsOf i (ts ++ [t]) = turnsOf i ts := by simp [turnsOf, hother]
      rw [hcount]
      exact ih h₀

theorem runs_ended (h : ∀ t, procs[i]? = some t → t.Within n) (hn : n ≤ turnsOf i ts)
    (hi : ((start s procs).runs exec ts).threads[i]? = some th) : th.finished = true := by
  have hwithin := runs_within h hi
  rw [Nat.sub_eq_zero_of_le hn] at hwithin
  exact (runs_settled ts hi).finished hwithin

end Pool
end KhelaKaro.Async
