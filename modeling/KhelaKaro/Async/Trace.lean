import KhelaKaro.Async.Serial

/-! # What a call says of later calls

A store attests a call when what the call was answered, or what it did, can still be seen in the store. What every call
is attested for, whatever calls come after it, relates it to the answers of all of these: two calls of a trace are
related in their order (`trace_pairwise`), and so are two calls of one thread (`calls_pairwise`). -/

namespace KhelaKaro.Async.Pool
variable {I : Interface} {σ α : Type} {exec : Proc.Exec I σ}

/-- The calls of the thread in the trace -/
def callsOf (i : Nat) (trace : List (Nat × Call I)) : List (Call I) :=
  trace.filterMap fun e => if e.1 = i then some e.2 else none

theorem callsOf_append (i : Nat) (es fs : List (Nat × Call I)) : callsOf i (es ++ fs) = callsOf i es ++ callsOf i fs :=
  List.filterMap_append

/-- A thread has made its calls of the trace, in their order. -/
theorem calls_eq_trace {s : σ} {procs : List (Proc I α)} {ts : List (Turn I)} {i : Nat} {th : Thread I α}
    (hi : ((start s procs).runs exec ts).threads[i]? = some th) :
    th.calls = callsOf i ((start s procs).trace exec ts) := by
  induction ts using List.reverseRecOn generalizing th with
  | nil =>
    simp only [runs_nil, start, List.getElem?_map, Option.map_eq_some_iff] at hi
    obtain ⟨t, -, rfl⟩ := hi
    rw [Thread.start, Thread.settle_calls]
    rfl
  | append_singleton ts t ih =>
    rw [runs_concat] at hi
    rw [trace_concat, callsOf_append]
    rcases step_cases exec ((start s procs).runs exec ts) t with
      ⟨he, hst⟩ | ⟨th', op, next, reject, hth, -, he, hst, hcalls⟩
    · rw [hst] at hi
      rw [he, ih hi]
      exact (List.append_nil _).symm
    rw [he, Option.toList_some]
    obtain ⟨th₀, h₀, ⟨rfl, rfl⟩ | ⟨hne, rfl⟩⟩ := step_thread hi
    · obtain rfl := Option.some.inj (hth.symm.trans h₀)
      rw [hcalls, ih h₀]
      simp [callsOf]
    · rw [ih h₀]
      simp [callsOf, hne]

/-- The thread of a call in the trace -/
theorem thread_of_mem_trace {p : Pool I σ α} {ts : List (Turn I)} {i : Nat} {c : Call I}
    (h : (i, c) ∈ p.trace exec ts) : ∃ th, (p.runs exec ts).threads[i]? = some th := by
  have hlt : i < p.threads.length := by
    induction ts using List.reverseRecOn with
    | nil => cases h
    | append_singleton ts t ih =>
      rw [trace_concat] at h
      rcases List.mem_append.mp h with h | h
      · exact ih h
      · rcases step_cases exec (p.runs exec ts) t with ⟨he, -⟩ | ⟨th, op, next, reject, hth, -, he, -, -⟩
        · rw [he] at h
          cases h
        · rw [he, Option.toList_some, List.mem_singleton, Prod.mk.injEq] at h
          rw [h.1, ← runs_length ts]
          exact (List.getElem?_eq_some_iff.mp hth).1
  exact ⟨_, List.getElem?_eq_getElem (by rw [runs_length]; exact hlt)⟩

/-- What different threads have obtained from a call each is among what the trace has obtained. -/
theorem filterMap_subperm {β : Type} {trace : List (Nat × Call I)} {is : List Nat} {f : Nat → Option β}
    {g : Call I → Option β} (his : is.Nodup)
    (h : ∀ i ∈ is, ∀ b, f i = some b → ∃ c, (i, c) ∈ trace ∧ g c = some b) :
    (is.filterMap f).Subperm (trace.filterMap fun e => g e.2) := by
  induction is generalizing trace with
  | nil => exact List.nil_subperm
  | cons i is ih =>
    obtain ⟨hi, his⟩ := List.nodup_cons.mp his
    have htail : ∀ j ∈ is, ∀ b, f j = some b → ∃ c, (j, c) ∈ trace ∧ g c = some b := fun j hj =>
      h j (List.mem_cons_of_mem i hj)
    cases hb : f i with
    | none =>
      rw [List.filterMap_cons_none hb]
      exact ih his htail
    | some b =>
      obtain ⟨c, hc, hg⟩ := h i List.mem_cons_self b hb
      obtain ⟨before, after, rfl⟩ := List.append_of_mem hc
      have hrest : (is.filterMap f).Subperm ((before ++ after).filterMap fun e => g e.2) := by
        refine ih his fun j hj b hb => ?_
        obtain ⟨c', hc', hg'⟩ := htail j hj b hb
        have hne : (j, c') ≠ (i, c) := fun he => hi ((Prod.mk.inj he).1 ▸ hj)
        rw [List.mem_append, List.mem_cons, or_iff_right hne, ← List.mem_append] at hc'
        exact ⟨c', hc', hg'⟩
      have hperm : ((before ++ (i, c) :: after).filterMap fun e => g e.2).Perm
          (b :: (before ++ after).filterMap fun e => g e.2) :=
        (List.perm_middle.filterMap _).trans (.of_eq (List.filterMap_cons_some hg))
      rw [List.filterMap_cons_some hb]
      exact ((List.subperm_cons b).mpr hrest).trans hperm.symm.subperm

/-- A call of the trace is made in a turn of its thread. -/
theorem turn_of_mem_trace {p : Pool I σ α} {ts : List (Turn I)} {i : Nat} {c : Call I}
    (h : (i, c) ∈ p.trace exec ts) : ∃ t ∈ ts, t.thread = i := by
  induction ts using List.reverseRecOn with
  | nil => cases h
  | append_singleton ts t ih =>
    rw [trace_concat] at h
    rcases List.mem_append.mp h with h | h
    · obtain ⟨t', ht', hthread⟩ := ih h
      exact ⟨t', List.mem_append_left _ ht', hthread⟩
    · rcases step_cases exec (p.runs exec ts) t with ⟨he, -⟩ | ⟨th, op, next, reject, -, -, he, -, -⟩
      · rw [he] at h
        cases h
      · rw [he, Option.toList_some, List.mem_singleton, Prod.mk.injEq] at h
        exact ⟨t, List.mem_concat_self, h.1.symm⟩

section Between
variable {G : σ → σ → Prop} {p : Pool I σ α}

theorem runs_store (hrefl : ∀ s, G s s) (htrans : ∀ {s s' s''}, G s s' → G s' s'' → G s s'')
    (hcall : ∀ s fault op, G s (Proc.attempt exec fault s op).1) (ts : List (Turn I)) :
    G p.store (p.runs exec ts).store := by
  refine runs_induction (Q := fun q => G p.store q.store) (hrefl _) (fun q t hq => ?_) ts
  rcases step_cases exec q t with ⟨-, hst⟩ | ⟨th, op, next, reject, -, -, -, hst, -⟩
  · rw [hst]
    exact hq
  · rw [hst]
    exact htrans hq (hcall _ _ _)

/-- A call is answered by a store between the first and the last one. -/
theorem trace_between (hrefl : ∀ s, G s s) (htrans : ∀ {s s' s''}, G s s' → G s' s'' → G s s'')
    (hcall : ∀ s fault op, G s (Proc.attempt exec fault s op).1) (ts : List (Turn I)) :
    ∀ e ∈ p.trace exec ts, ∃ s fault, G p.store s ∧ e.2.answer = (Proc.attempt exec fault s e.2.op).2 ∧
      G s (p.runs exec ts).store := by
  induction ts using List.reverseRecOn with
  | nil => nofun
  | append_singleton ts t ih =>
    intro e he
    rw [trace_concat, List.mem_append] at he
    rw [runs_concat]
    rcases step_cases exec (p.runs exec ts) t with ⟨hnone, hst⟩ | ⟨th, op, next, reject, -, -, hsome, hst, -⟩
    · rw [hnone] at he
      rw [hst]
      exact ih e (he.resolve_right List.not_mem_nil)
    rw [hsome, Option.toList_some, List.mem_singleton] at he
    rw [hst]
    rcases he with he | rfl
    · obtain ⟨s, fault, hfrom, hanswer, hto⟩ := ih e he
      exact ⟨s, fault, hfrom, hanswer, htrans hto (hcall _ _ _)⟩
    · exact ⟨_, t.fault, runs_store hrefl htrans hcall ts, rfl, hcall _ _ _⟩

end Between

section Pairwise
variable {J : σ → Call I → Prop} {R : Call I → Call I → Prop} {p : Pool I σ α} {ts : List (Turn I)}

/-- Calls that are attested for good are related to all calls after them, when an attested call is related to each
    call that the store answers. -/
theorem trace_pairwise (hmono : ∀ s fault op c, J s c → J (Proc.attempt exec fault s op).1 c)
    (hnew : ∀ s fault op, J (Proc.attempt exec fault s op).1 ⟨op, (Proc.attempt exec fault s op).2⟩)
    (hrel : ∀ s fault op c, J s c → R c ⟨op, (Proc.attempt exec fault s op).2⟩) :
    (∀ e ∈ p.trace exec ts, J (p.runs exec ts).store e.2) ∧ (p.trace exec ts).Pairwise fun e e' => R e.2 e'.2 := by
  induction ts using List.reverseRecOn with
  | nil => exact ⟨nofun, List.Pairwise.nil⟩
  | append_singleton ts t ih =>
    obtain ⟨hattest, hpair⟩ := ih
    rw [runs_concat, trace_concat]
    rcases step_cases exec (p.runs exec ts) t with ⟨he, hst⟩ | ⟨th, op, next, reject, -, -, he, hst, -⟩
    · rw [he, hst, Option.toList_none, List.append_nil]
      exact ⟨hattest, hpair⟩
    rw [he, hst, Option.toList_some]
    refine ⟨fun e hmem => ?_, List.pairwise_append.mpr ⟨hpair, List.pairwise_singleton _ _, fun e hmem e' he' => ?_⟩⟩
    · rcases List.mem_append.mp hmem with hmem | hmem
      · exact hmono _ _ _ _ (hattest e hmem)
      · obtain rfl := List.mem_singleton.mp hmem
        exact hnew _ _ _
    · obtain rfl := List.mem_singleton.mp he'
      exact hrel _ _ _ _ (hattest e hmem)

/-- So are two calls of one thread. -/
theorem calls_pairwise {s : σ} {procs : List (Proc I α)} {i : Nat} {th : Thread I α}
    (h : ((start s procs).trace exec ts).Pairwise fun e e' => R e.2 e'.2)
    (hi : ((start s procs).runs exec ts).threads[i]? = some th) : th.calls.Pairwise R := by
  rw [calls_eq_trace hi, callsOf, List.pairwise_filterMap]
  refine h.imp fun {e e'} hR c hc c' hc' => ?_
  split at hc <;> cases hc
  split at hc' <;> cases hc'
  exact hR

end Pairwise
end KhelaKaro.Async.Pool
