import KhelaKaro.Async.Serial

/-! # Threads that only read

Turns of threads that leave the store as it is can be left out of a schedule: the store and all other threads stay the
same (`runs_filter`). -/

namespace KhelaKaro.Async.Pool
variable {I : Interface} {σ α : Type} {exec : Proc.Exec I σ} {p : Pool I σ α} {i : Nat} {th : Thread I α}

/-- A thread that has ended stays as it is. -/
theorem step_finished (t : Turn I) (hi : p.threads[i]? = some th) (hend : th.finished = true) :
    (p.step exec t).threads[i]? = some th := by
  rcases eq_or_ne t.thread i with rfl | hne
  · rcases th.turn_cases exec t.fault p.store with ⟨-, hturn⟩ | ⟨op, next, reject, hproc, -, -⟩
    · rw [(step_self hi).2, hturn]
    · simp only [Thread.finished, hproc, Bool.false_eq_true] at hend
  · exact (step_other hne).trans hi

theorem runs_finished (ts : List (Turn I)) (hi : p.threads[i]? = some th) (hend : th.finished = true) :
    (p.runs exec ts).threads[i]? = some th :=
  runs_induction (Q := fun q => q.threads[i]? = some th) hi (fun _ t hq => step_finished t hq hend) ts

/-- A thread that changes the store has not ended. -/
theorem going_of_changes {t : Turn I} (h : (p.step exec t).store ≠ p.store) (hth : p.threads[t.thread]? = some th) :
    th.finished = false := by
  rcases th.turn_cases exec t.fault p.store with ⟨-, hturn⟩ | ⟨op, next, reject, hproc, -, -⟩
  · rw [(step_self hth).1, hturn] at h
    exact absurd rfl h
  · simp only [Thread.finished, hproc]

section Start
variable {s : σ} {procs : List (Proc I α)} {ts : List (Turn I)}

/-- A thread on its way that has made a call has had a turn. -/
theorem turn_of_calls (hi : ((start s procs).runs exec ts).threads[i]? = some th) (hgoing : th.finished = false)
    (hcalls : th.calls ≠ []) : ∃ before t rest, ts = before ++ t :: rest ∧ t.thread = i := by
  have hpos : 0 < ts.countP (·.thread == i) := by
    rw [← runs_calls_length hi hgoing]
    exact List.length_pos_iff.mpr hcalls
  obtain ⟨t, ht, hthread⟩ := List.countP_pos_iff.mp hpos
  obtain ⟨before, rest, hts⟩ := List.append_of_mem ht
  exact ⟨before, t, rest, hts, eq_of_beq hthread⟩

/-- A turn of a procedure whose calls leave the store as it is -/
theorem step_reads {t : Turn I}
    (hreads : ∀ u, procs[t.thread]? = some u → u.Calls fun op => ∀ fault s, (Proc.attempt exec fault s op).1 = s) :
    (((start s procs).runs exec ts).step exec t).store = ((start s procs).runs exec ts).store := by
  rcases step_cases exec ((start s procs).runs exec ts) t with
    ⟨-, hstep⟩ | ⟨th, op, next, reject, hth, hproc, -, -, hcalls⟩
  · rw [hstep]
  have hself : ((start s procs).runs exec (ts ++ [t])).threads[t.thread]? =
      some (th.turn exec t.fault ((start s procs).runs exec ts).store).2 := by
    rw [runs_concat]
    exact (step_self hth).2
  obtain ⟨-, hall⟩ := runs_along hself fun u hu =>
    (hreads u hu).along List.prefix_rfl fun c hc => absurd hc List.not_mem_nil
  rw [(step_self hth).1, Thread.turn_store hproc]
  exact hall _ (by rw [hcalls]; exact List.mem_concat_self) _ _

/-- Without the turns of the threads that only read, the store and the other threads are the same. -/
theorem runs_filter {P : Nat → Bool} (hreads : ∀ i u, P i = false → procs[i]? = some u →
      u.Calls fun op => ∀ fault s, (Proc.attempt exec fault s op).1 = s) (ts : List (Turn I)) :
    ((start s procs).runs exec (ts.filter fun t => P t.thread)).store = ((start s procs).runs exec ts).store ∧
      ∀ i, P i = true → ((start s procs).runs exec (ts.filter fun t => P t.thread)).threads[i]? =
        ((start s procs).runs exec ts).threads[i]? := by
  induction ts using List.reverseRecOn with
  | nil => exact ⟨rfl, fun _ _ => rfl⟩
  | append_singleton ts t ih =>
    obtain ⟨hstore, hthreads⟩ := ih
    rw [List.filter_append, List.filter_singleton]
    cases hP : P t.thread with
    | true =>
      rw [cond_true, runs_concat, runs_concat]
      have hsame := hthreads t.thread hP
      cases hth : ((start s procs).runs exec ts).threads[t.thread]? with
      | none =>
        rw [step_none hth, step_none (hsame.trans hth)]
        exact ⟨hstore, hthreads⟩
      | some th =>
        obtain ⟨hst, hself⟩ := step_self (p := (start s procs).runs exec ts) hth
        obtain ⟨hst', hself'⟩ := step_self (hsame.trans hth)
        refine ⟨by rw [hst, hst', hstore], fun i hi => ?_⟩
        rcases eq_or_ne t.thread i with rfl | hne
        · rw [hself, hself', hstore]
        · rw [step_other hne, step_other hne, hthreads i hi]
    | false =>
      rw [cond_false, List.append_nil, runs_concat]
      refine ⟨by rw [step_reads (hreads t.thread · hP), hstore], fun i hi => ?_⟩
      have hne : t.thread ≠ i := by
        rintro rfl
        rw [hP] at hi
        cases hi
      rw [step_other hne, hthreads i hi]

end Start
end KhelaKaro.Async.Pool
