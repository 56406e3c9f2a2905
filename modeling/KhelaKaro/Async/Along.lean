import KhelaKaro.Async.Pool

/-! # Along a procedure

What is checked on a procedure alone, by recursion on it: which calls it makes (`Calls`), which of them come last
(`Last`), and how it replies (`Replies`). All of these hold along the procedure, and so of its thread in every pool
(`Pool.runs_along`). A procedure may arrive at a pool that is under way
(`Pool.receive`): the turns before are those of a pool that has had it from the start. -/

namespace KhelaKaro.Async
variable {I : Interface} {σ α : Type}

namespace Proc

/-- A call of `P` is the last one. -/
def Last (P : I.Op → Prop) : Proc I α → Prop
  | pure _ | throw _ => True
  | send _ next => next.Last P
  | await op next reject =>
    (P op → (∀ a, (next a).Still) ∧ ∀ e, (reject e).Still) ∧ (∀ a, (next a).Last P) ∧ ∀ e, (reject e).Last P

section Calls
variable {P : I.Op → Prop} {t : Proc I α} {calls : List (Call I)} {sent : List I.Out}

theorem Still.finished (h : t.Still) (calls : List (Call I)) (sent : List I.Out) :
    t.Along (fun _ => True) (fun th => th.finished = true) calls sent := by
  induction t generalizing sent with
  | pure a => rfl
  | throw e => rfl
  | send r next ih => exact ih h _
  | await op next reject => exact h.elim

theorem Calls.tryCatch {handler : I.Err → Proc I α} (h : t.Calls P) (hh : ∀ e, (handler e).Calls P) :
    (t.tryCatch handler).Calls P := by
  induction t with
  | pure a => trivial
  | throw e => exact hh e
  | send r next ih => exact ih h
  | await op next reject ihn ihr => exact ⟨h.1, fun a => ihn a (h.2.1 a), fun e => ihr e (h.2.2 e)⟩

theorem Calls.mono {Q : I.Op → Prop} (h : t.Calls P) (hPQ : ∀ op, P op → Q op) : t.Calls Q := by
  induction t with
  | pure a => trivial
  | throw e => trivial
  | send r next ih => exact ih h
  | await op next reject ihn ihr => exact ⟨hPQ op h.1, fun a => ihn a (h.2.1 a), fun e => ihr e (h.2.2 e)⟩

theorem Calls.last (h : t.Calls fun op => ¬P op) : t.Last P := by
  induction t with
  | pure a => trivial
  | throw e => trivial
  | send r next ih => exact ih h
  | await op next reject ihn ihr =>
    exact ⟨fun hop => absurd hop h.1, fun a => ihn a (h.2.1 a), fun e => ihr e (h.2.2 e)⟩

theorem forall_mem_concat (hc : ∀ c ∈ calls, P c.op) {op : I.Op} (hop : P op) (answer : Except I.Err (I.Ans op)) :
    ∀ c ∈ calls ++ [⟨op, answer⟩], P c.op := by
  intro c hmem
  rcases List.mem_append.mp hmem with hmem | hmem
  · exact hc c hmem
  · obtain rfl := List.mem_singleton.mp hmem
    exact hop

/-- A thread on its way has made no call of `P`. -/
theorem Last.along (h : t.Last P) (hc : ∀ c ∈ calls, ¬P c.op) :
    t.Along (fun _ => True) (fun th => th.finished = false → ∀ c ∈ th.calls, ¬P c.op) calls sent := by
  induction t generalizing calls sent with
  | pure a => exact fun _ => hc
  | throw e => exact fun _ => hc
  | send r next ih => exact ih h hc
  | await op next reject ihn ihr =>
    obtain ⟨hlast, hnext, hreject⟩ := h
    have hstill : ∀ {t' : Proc I α}, t'.Still → ∀ calls', t'.Along (fun _ => True)
        (fun th => th.finished = false → ∀ c ∈ th.calls, ¬P c.op) calls' sent := fun ht calls' =>
      (ht.finished calls' sent).mono fun th hth hgoing => by
        rw [hth] at hgoing
        cases hgoing
    by_cases hP : P op
    · exact ⟨fun _ => hc, fun a _ => hstill ((hlast hP).1 a) _, fun e _ => hstill ((hlast hP).2 e) _⟩
    · have hc' := forall_mem_concat (P := fun op => ¬P op) hc hP
      exact ⟨fun _ => hc, fun a _ => ihn a (hnext a) (hc' _), fun e _ => ihr e (hreject e) (hc' _)⟩

theorem Calls.along {first : List (Call I)} (h : t.Calls P) (hfirst : first <+: calls) (hc : ∀ c ∈ calls, P c.op) :
    t.Along (fun _ => True) (fun th => first <+: th.calls ∧ ∀ c ∈ th.calls, P c.op) calls sent := by
  induction t generalizing calls sent with
  | pure a => exact ⟨hfirst, hc⟩
  | throw e => exact ⟨hfirst, hc⟩
  | send r next ih => exact ih h hfirst hc
  | await op next reject ihn ihr =>
    obtain ⟨hop, hnext, hreject⟩ := h
    have hlonger : ∀ answer, first <+: calls ++ [⟨op, answer⟩] := fun answer =>
      hfirst.trans (List.prefix_append _ _)
    exact ⟨⟨hfirst, hc⟩, fun a _ => ihn a (hnext a) (hlonger _) (forall_mem_concat hc hop _),
      fun e _ => ihr e (hreject e) (hlonger _) (forall_mem_concat hc hop _)⟩

theorem Along.and {allow : Call I → Prop} {P Q : Thread I α → Prop} (hP : t.Along allow P calls sent)
    (hQ : t.Along allow Q calls sent) : t.Along allow (fun th => P th ∧ Q th) calls sent := by
  induction t generalizing calls sent with
  | pure a => exact ⟨hP, hQ⟩
  | throw e => exact ⟨hP, hQ⟩
  | send r next ih => exact ih hP hQ
  | await op next reject ihn ihr =>
    exact ⟨⟨hP.1, hQ.1⟩, fun a ha => ihn a (hP.2.1 a ha) (hQ.2.1 a ha), fun e he => ihr e (hP.2.2 e he) (hQ.2.2 e he)⟩

/-- The procedure has sent one message when it ends, and none before. -/
theorem Replies.along (h : t.Replies fun _ => False) : t.Along (fun _ => True)
    (fun th => (th.finished = false → th.sent = []) ∧ (th.finished = true → ∃ r, th.sent = [r])) calls [] := by
  induction t generalizing calls with
  | pure a => exact h.elim
  | throw e => exact h.elim
  | send r next ih =>
    obtain ⟨a, rfl⟩ := h
    exact ⟨nofun, fun _ => ⟨r, rfl⟩⟩
  | await op next reject ihn ihr =>
    exact ⟨⟨fun _ => rfl, nofun⟩, fun a _ => ihn a (h.1 a), fun e _ => ihr e (h.2 e)⟩

end Calls

end Proc

namespace Thread
variable {exec : Proc.Exec I σ}

/-- A turn depends on the store by the answer alone. -/
theorem turn_congr {th : Thread I α} {op : I.Op} {next : I.Ans op → Proc I α} {reject : I.Err → Proc I α}
    (h : th.proc = .await op next reject) {fault fault' : Option I.Err} {s s' : σ}
    (ha : (Proc.attempt exec fault s op).2 = (Proc.attempt exec fault' s' op).2) :
    (th.turn exec fault s).2 = (th.turn exec fault' s').2 := by
  simp only [turn, h, ha]
  split <;> rfl

theorem turn_store {th : Thread I α} {op : I.Op} {next : I.Ans op → Proc I α} {reject : I.Err → Proc I α}
    (h : th.proc = .await op next reject) (fault : Option I.Err) (s : σ) :
    (th.turn exec fault s).1 = (Proc.attempt exec fault s op).1 := by
  simp only [turn, h]
  split <;> rfl

theorem turn_calls {th : Thread I α} {op : I.Op} {next : I.Ans op → Proc I α} {reject : I.Err → Proc I α}
    (h : th.proc = .await op next reject) (fault : Option I.Err) (s : σ) :
    (th.turn exec fault s).2.calls = th.calls ++ [⟨op, (Proc.attempt exec fault s op).2⟩] := by
  simp only [turn, h]
  split <;> rename_i ha <;> rw [settle_calls, ha]

end Thread

namespace Pool
variable {exec : Proc.Exec I σ} {p : Pool I σ α}

/-! ## One turn -/

theorem step_self {t : Turn I} {th : Thread I α} (h : p.threads[t.thread]? = some th) :
    (p.step exec t).store = (th.turn exec t.fault p.store).1 ∧
      (p.step exec t).threads[t.thread]? = some (th.turn exec t.fault p.store).2 := by
  have hstep : p.step exec t =
      ⟨(th.turn exec t.fault p.store).1, p.threads.set t.thread (th.turn exec t.fault p.store).2⟩ := by
    simp only [step, h]
  rw [hstep]
  exact ⟨rfl, List.getElem?_set_self (List.getElem?_eq_some_iff.mp h).1⟩

theorem step_other {t : Turn I} {i : Nat} (h : t.thread ≠ i) :
    (p.step exec t).threads[i]? = p.threads[i]? := by
  unfold step
  split
  · rfl
  · exact List.getElem?_set_ne h

theorem step_none {t : Turn I} (h : p.threads[t.thread]? = none) : p.step exec t = p := by
  simp only [step, h]

/-- What a thread was before a turn: the same, or the one whose turn it was. -/
theorem step_thread {t : Turn I} {i : Nat} {th : Thread I α} (h : (p.step exec t).threads[i]? = some th) :
    ∃ th₀, p.threads[i]? = some th₀ ∧
      (t.thread = i ∧ th = (th₀.turn exec t.fault p.store).2 ∨ t.thread ≠ i ∧ th = th₀) := by
  rcases eq_or_ne t.thread i with rfl | hne
  · cases h₀ : p.threads[t.thread]? with
    | none =>
      rw [step_none h₀, h₀] at h
      cases h
    | some th₀ =>
      rw [(step_self h₀).2] at h
      exact ⟨th₀, rfl, Or.inl ⟨rfl, (Option.some.inj h).symm⟩⟩
  · rw [step_other hne] at h
    exact ⟨th, h, Or.inr ⟨hne, rfl⟩⟩

/-- What is so of every thread at the start, and stays so in its turns, is so after any schedule. -/
theorem runs_threads {Q : Nat → Thread I α → Prop} {s : σ} {procs : List (Proc I α)}
    (h0 : ∀ i t, procs[i]? = some t → Q i (Thread.start t))
    (hturn : ∀ i th fault s, Q i th → Q i (th.turn exec fault s).2) (ts : List (Turn I)) {i : Nat} {th : Thread I α}
    (hi : ((start s procs).runs exec ts).threads[i]? = some th) : Q i th := by
  induction ts using List.reverseRecOn generalizing i th with
  | nil =>
    simp only [runs_nil, start, List.getElem?_map, Option.map_eq_some_iff] at hi
    obtain ⟨t, ht, rfl⟩ := hi
    exact h0 i t ht
  | append_singleton ts t ih =>
    rw [runs_concat] at hi
    obtain ⟨th₀, h₀, ⟨-, rfl⟩ | ⟨-, rfl⟩⟩ := step_thread hi
    · exact hturn i th₀ _ _ (ih h₀)
    · exact ih h₀

theorem runs_settled {s : σ} {procs : List (Proc I α)} (ts : List (Turn I)) {i : Nat} {th : Thread I α}
    (hi : ((start s procs).runs exec ts).threads[i]? = some th) : th.Settled :=
  runs_threads (Q := fun _ th => th.Settled) (fun _ t _ => Thread.settle_not_send _ _ t)
    (fun _ _ _ _ hs => hs.turn _ _ _) ts hi

/-- What holds along a procedure holds of its thread after any schedule. -/
theorem runs_along {P : Thread I α → Prop} {s : σ} {procs : List (Proc I α)} {ts : List (Turn I)} {i : Nat}
    {th : Thread I α} (hi : ((start s procs).runs exec ts).threads[i]? = some th)
    (h : ∀ t, procs[i]? = some t → t.Along (fun _ => True) P [] []) : P th := by
  have hall : i = i → th.Along (fun _ => True) P :=
    runs_threads (Q := fun j th => j = i → th.Along (fun _ => True) P)
      (fun j t ht hj => Thread.along_settle (h t (hj ▸ ht)))
      (fun _ _ _ _ hth hj => (hth hj).turn fun _ _ _ _ => trivial) ts hi
  exact (hall rfl).here (runs_settled ts hi)

/-- What is so of the answer to every call, whatever the store, is so of the calls of a thread. -/
theorem runs_answers {P : Call I → Prop} {s : σ} {procs : List (Proc I α)} {ts : List (Turn I)} {i : Nat}
    {th : Thread I α} (h : ∀ fault s op, P ⟨op, (Proc.attempt exec fault s op).2⟩)
    (hi : ((start s procs).runs exec ts).threads[i]? = some th) {c : Call I} (hc : c ∈ th.calls) : P c :=
  runs_calls (J := fun _ => P) (fun _ _ _ _ hP => hP) s procs ts (fun _ _ s op => h _ s op) hi hc

/-! ## Arrivals -/

/-- The pool with one more procedure -/
def receive (p : Pool I σ α) (t : Proc I α) : Pool I σ α := { p with threads := p.threads ++ [Thread.start t] }

theorem start_concat (s : σ) (procs : List (Proc I α)) (t : Proc I α) :
    start s (procs ++ [t]) = (start s procs).receive t := by
  rw [start, List.map_append]
  rfl

theorem step_receive {t : Turn I} (h : t.thread < p.threads.length) (u : Proc I α) :
    (p.receive u).step exec t = (p.step exec t).receive u := by
  obtain ⟨store, threads⟩ := p
  have hleft : (threads ++ [Thread.start u])[t.thread]? = threads[t.thread]? := List.getElem?_append_left h
  simp only [step, receive, hleft]
  cases threads[t.thread]? with
  | none => rfl
  | some th =>
    dsimp only
    rw [List.set_append_left t.thread _ h]

/-- Turns of the threads that were there are the same with one more thread. -/
theorem runs_receive {ts : List (Turn I)} (h : ∀ t ∈ ts, t.thread < p.threads.length) (u : Proc I α) :
    (p.receive u).runs exec ts = (p.runs exec ts).receive u := by
  induction ts using List.reverseRecOn with
  | nil => rfl
  | append_singleton ts t ih =>
    have ih := ih fun t' ht' => h t' (List.mem_append_left _ ht')
    rw [runs_concat, ih, step_receive (by rw [runs_length]; exact h t (by simp)), runs_concat]

end Pool
end KhelaKaro.Async
