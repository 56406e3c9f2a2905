import KhelaKaro.Async.Along
import Mathlib.Data.List.Nodup

/-! # Schedules with a serial order

A schedule of a pool is serial in the order in which its threads end when every change of the store is the last call
of its thread, and is not noticed by the threads that are on their way at that moment: what these were answered so far
is what the changed store answers too (`Validates`). The store is then the one that the procedures leave when they run
one after the other in that order, and each has sent what it sends there, with the same failing calls (`Serial`). -/

namespace KhelaKaro.Async
variable {I : Interface} {σ α : Type}

namespace Proc

/-- The store answers the calls as they were answered, and they leave it as it is. -/
def Replays (exec : Exec I σ) (faults : Nat → Option I.Err) (s : σ) (calls : List (Call I)) : Prop :=
  ∀ n c, calls[n]? = some c → attempt exec (faults n) s c.op = (s, c.answer)

section Replays
variable {exec : Exec I σ} {faults : Nat → Option I.Err} {s s' : σ} {calls : List (Call I)} {c : Call I}

theorem replays_nil : Replays exec faults s [] := nofun

theorem replays_concat : Replays exec faults s (calls ++ [c]) ↔
    Replays exec faults s calls ∧ attempt exec (faults calls.length) s c.op = (s, c.answer) := by
  constructor
  · intro h
    refine ⟨fun n d hd => h n d ?_, h _ c List.getElem?_concat_length⟩
    rw [List.getElem?_append_left (List.getElem?_eq_some_iff.mp hd).1]
    exact hd
  · rintro ⟨h, hlast⟩ n d hd
    rcases Nat.lt_trichotomy n calls.length with hn | rfl | hn
    · rw [List.getElem?_append_left hn] at hd
      exact h n d hd
    · rw [List.getElem?_concat_length] at hd
      obtain rfl := Option.some.inj hd
      exact hlast
    · rw [List.getElem?_eq_none (by rw [List.length_append]; exact hn)] at hd
      cases hd

/-- A store that answers the answered calls alike replays them too. -/
theorem Replays.mono (h : Replays exec faults s calls)
    (hs : ∀ c ∈ calls, exec s c.op = (s, c.answer) → exec s' c.op = (s', c.answer)) :
    Replays exec faults s' calls := by
  intro n c hc
  have hn := h n c hc
  cases hf : faults n with
  | none =>
    rw [hf] at hn
    exact hs c (List.mem_of_getElem? hc) hn
  | some e =>
    rw [hf] at hn
    obtain ⟨-, ha⟩ := Prod.mk.inj hn
    exact Prod.ext rfl ha

end Replays

/-- The failing calls from call number `k` on -/
def drop (faults : Nat → Option I.Err) (k : Nat) : Nat → Option I.Err := fun n => faults (n + k)

theorem drop_zero (faults : Nat → Option I.Err) (k : Nat) : drop faults k 0 = faults k := by
  rw [drop, Nat.zero_add]

theorem drop_succ (faults : Nat → Option I.Err) (k : Nat) :
    (fun n => drop faults k (n + 1)) = drop faults (k + 1) := by
  funext n
  rw [drop, drop, Nat.add_right_comm, Nat.add_assoc]

end Proc

namespace Thread
variable {exec : Proc.Exec I σ} {faults : Nat → Option I.Err} {s : σ}

/-- What comes of the thread when it goes on alone. -/
def rest (exec : Proc.Exec I σ) (faults : Nat → Option I.Err) (s : σ) (th : Thread I α) : Proc.Outcome I σ α :=
  let o := th.proc.run exec (Proc.drop faults th.calls.length) s
  { o with sent := th.sent ++ o.sent }

theorem settle_rest (calls : List (Call I)) (sent : List I.Out) (t : Proc I α) :
    (settle calls sent t).rest exec faults s = rest exec faults s ⟨calls, sent, t⟩ := by
  induction t generalizing sent with
  | pure a => rfl
  | throw e => rfl
  | send r next ih =>
    rw [settle, ih]
    simp only [rest, Proc.run_send, List.append_assoc, List.singleton_append]
  | await op next reject => rfl

theorem start_rest (t : Proc I α) : (start t).rest exec faults s = t.run exec faults s := by
  rw [start, settle_rest]
  rfl

/-- What comes of an unfinished thread is what comes of it after its next turn. -/
theorem turn_rest (th : Thread I α) : th.rest exec faults s =
    (th.turn exec (faults th.calls.length) s).2.rest exec faults (th.turn exec (faults th.calls.length) s).1 := by
  obtain ⟨calls, sent, proc⟩ := th
  cases proc with
  | pure a => rfl
  | throw e => rfl
  | send r next => rfl
  | await op next reject =>
    rcases hr : Proc.attempt exec (faults calls.length) s op with ⟨s', e | a⟩
    · have hrun : (Proc.await op next reject).run exec (Proc.drop faults calls.length) s =
          (reject e).run exec (Proc.drop faults (calls.length + 1)) s' := by
        rw [Proc.run_await_error (by rw [Proc.drop_zero, hr]), Proc.drop_succ]
      simp only [turn, hr, settle_rest]
      simp only [rest, hrun, List.length_append, List.length_singleton]
    · have hrun : (Proc.await op next reject).run exec (Proc.drop faults calls.length) s =
          (next a).run exec (Proc.drop faults (calls.length + 1)) s' := by
        rw [Proc.run_await_ok (by rw [Proc.drop_zero, hr]), Proc.drop_succ]
      simp only [turn, hr, settle_rest]
      simp only [rest, hrun, List.length_append, List.length_singleton]

/-- At its end, nothing more comes of a thread. -/
theorem rest_finished (exec : Proc.Exec I σ) (faults : Nat → Option I.Err) (s : σ) {th : Thread I α}
    (hs : th.Settled) (h : th.finished = true) : (th.rest exec faults s).store = s ∧
      (th.rest exec faults s).sent = th.sent ∧
      Proc.ended (th.rest exec faults s).result = th.proc := by
  obtain ⟨calls, sent, proc⟩ := th
  cases proc with
  | pure a => exact ⟨rfl, List.append_nil _, rfl⟩
  | throw e => exact ⟨rfl, List.append_nil _, rfl⟩
  | send r next => exact absurd rfl (hs r next)
  | await op next reject => cases h

/-- Alone on a store that replays the calls of the thread, `t` gets to where the thread is. -/
def Resumes (exec : Proc.Exec I σ) (t : Proc I α) (th : Thread I α) : Prop :=
  ∀ faults s, Proc.Replays exec faults s th.calls → t.run exec faults s = th.rest exec faults s

theorem resumes_start (t : Proc I α) : (start t).Resumes exec t := by
  intro faults s _
  rw [start_rest]

theorem Resumes.turn {t : Proc I α} {th : Thread I α} (h : th.Resumes exec t) (fault : Option I.Err) (s₀ : σ) :
    (th.turn exec fault s₀).2.Resumes exec t := by
  rcases th.turn_cases exec fault s₀ with ⟨-, hturn⟩ | ⟨op, next, reject, hproc, -, hcalls⟩
  · rw [hturn]
    exact h
  intro faults s hreplays
  rw [hcalls] at hreplays
  obtain ⟨hbefore, hnow⟩ := Proc.replays_concat.mp hreplays
  obtain ⟨hstore, hanswer⟩ := Prod.ext_iff.mp hnow
  rw [h faults s hbefore, turn_rest, turn_store hproc, hstore, turn_congr hproc hanswer]

end Thread

namespace Pool
variable {exec : Proc.Exec I σ} {p : Pool I σ α}

theorem runs_resumes {s : σ} {procs : List (Proc I α)} (ts : List (Turn I)) {i : Nat} {th : Thread I α}
    (hi : ((start s procs).runs exec ts).threads[i]? = some th) : ∃ t, procs[i]? = some t ∧ th.Resumes exec t :=
  runs_threads (Q := fun i th => ∃ t, procs[i]? = some t ∧ th.Resumes exec t)
    (fun _ t ht => ⟨t, ht, Thread.resumes_start t⟩) (fun _ _ _ _ ⟨t, ht, hr⟩ => ⟨t, ht, hr.turn _ _⟩) ts hi

/-! ## The order of the ends -/

/-- The thread that ends in a turn -/
def ending (exec : Proc.Exec I σ) (p : Pool I σ α) (t : Turn I) : Option Nat :=
  match p.threads[t.thread]? with
  | none => none
  | some th => if !th.finished && (th.turn exec t.fault p.store).2.finished then some t.thread else none

theorem ending_of_no_event {t : Turn I} (h : p.event exec t = none) : p.ending exec t = none := by
  unfold event at h
  unfold ending
  cases hth : p.threads[t.thread]? with
  | none => rfl
  | some th =>
    obtain ⟨calls, sent, proc⟩ := th
    cases proc with
    | pure a => rfl
    | throw e => rfl
    | send r next => rfl
    | await op next reject => simp [hth] at h

theorem ending_of_await {t : Turn I} {th : Thread I α} {op : I.Op} {next : I.Ans op → Proc I α}
    {reject : I.Err → Proc I α} (hth : p.threads[t.thread]? = some th) (hproc : th.proc = .await op next reject) :
    p.ending exec t = if (th.turn exec t.fault p.store).2.finished then some t.thread else none := by
  have hgoing : th.finished = false := by simp only [Thread.finished, hproc]
  simp only [ending, hth, hgoing, Bool.not_false, Bool.true_and]

/-- The threads that end on a schedule, in their order -/
def endings (exec : Proc.Exec I σ) : Pool I σ α → List (Turn I) → List Nat
  | _, [] => []
  | p, t :: ts => (p.ending exec t).toList ++ (p.step exec t).endings exec ts

theorem endings_append (ts us : List (Turn I)) :
    p.endings exec (ts ++ us) = p.endings exec ts ++ (p.runs exec ts).endings exec us := by
  induction ts generalizing p with
  | nil => rfl
  | cons t ts ih =>
    rw [List.cons_append, endings, endings, ih, List.append_assoc]
    rfl

theorem endings_concat (ts : List (Turn I)) (t : Turn I) :
    p.endings exec (ts ++ [t]) = p.endings exec ts ++ ((p.runs exec ts).ending exec t).toList := by
  rw [endings_append, endings, endings, List.append_nil]

/-- The procedures of `order`, each run to its end before the next -/
def serially (exec : Proc.Exec I σ) (procs : List (Proc I α)) (faults : Nat → Nat → Option I.Err) (s : σ)
    (order : List Nat) : σ :=
  order.foldl (fun s i => (procs[i]?.map fun t => (t.run exec (faults i) s).store).getD s) s

theorem serially_concat (procs : List (Proc I α)) (faults : Nat → Nat → Option I.Err) (s : σ) (order : List Nat)
    {i : Nat} {t : Proc I α} (ht : procs[i]? = some t) : serially exec procs faults s (order ++ [i]) =
      (t.run exec (faults i) (serially exec procs faults s order)).store := by
  simp only [serially, List.foldl_append, List.foldl_cons, List.foldl_nil, ht, Option.map_some, Option.getD_some]

/-- Call number `n` of thread `i` fails with `faults i n`. -/
def Follows (ts : List (Turn I)) (faults : Nat → Nat → Option I.Err) : Prop :=
  ∀ before t rest, ts = before ++ t :: rest → faults t.thread (before.countP (·.thread == t.thread)) = t.fault

/-- The failing calls of a schedule -/
def faultsOf (ts : List (Turn I)) (i n : Nat) : Option I.Err :=
  ((ts.filter (·.thread == i))[n]?).bind Turn.fault

theorem follows_faultsOf (ts : List (Turn I)) : Follows ts (faultsOf ts) := by
  rintro before t rest rfl
  rw [faultsOf, List.filter_append, List.countP_eq_length_filter, List.getElem?_append_right (Nat.le_refl _),
    Nat.sub_self, List.filter_cons_of_pos (by simp)]
  rfl

theorem Follows.before {ts us : List (Turn I)} {faults : Nat → Nat → Option I.Err} (h : Follows (ts ++ us) faults) :
    Follows ts faults := by
  rintro before t rest rfl
  exact h before t (rest ++ us) (by simp)

/-- A thread on its way has made a call in each of its turns. -/
theorem runs_calls_length {s : σ} {procs : List (Proc I α)} {ts : List (Turn I)} {i : Nat} {th : Thread I α}
    (hi : ((start s procs).runs exec ts).threads[i]? = some th) (hgoing : th.finished = false) :
    th.calls.length = ts.countP (·.thread == i) := by
  induction ts using List.reverseRecOn generalizing th with
  | nil =>
    simp only [runs_nil, start, List.getElem?_map, Option.map_eq_some_iff] at hi
    obtain ⟨t, -, rfl⟩ := hi
    rw [Thread.start, Thread.settle_calls]
    rfl
  | append_singleton ts t ih =>
    rw [runs_concat] at hi
    rw [List.countP_append, List.countP_singleton]
    obtain ⟨th₀, h₀, ⟨rfl, rfl⟩ | ⟨hne, rfl⟩⟩ := step_thread hi
    · rcases th₀.turn_cases exec t.fault ((start s procs).runs exec ts).store with
        ⟨hend, hturn⟩ | ⟨op, next, reject, hproc, -, hcalls⟩
      · rw [hturn, hend] at hgoing
        cases hgoing
      · have hgoing₀ : th₀.finished = false := by simp only [Thread.finished, hproc]
        rw [hcalls, List.length_append, ih h₀ hgoing₀]
        simp
    · rw [ih h₀ hgoing]
      simp [hne]

/-! ## Serial schedules -/

/-- A turn that changes the store ends its thread, and the changed store replays the calls of all threads that are on
    their way. -/
def Validates (exec : Proc.Exec I σ) (faults : Nat → Nat → Option I.Err) (p : Pool I σ α) (t : Turn I) : Prop :=
  (p.step exec t).store ≠ p.store →
    (∀ th, (p.step exec t).threads[t.thread]? = some th → th.finished = true) ∧
      ∀ i th, i ≠ t.thread → p.threads[i]? = some th → th.finished = false →
        Proc.Replays exec (faults i) p.store th.calls → Proc.Replays exec (faults i) (p.step exec t).store th.calls

/-- The pool is where the procedures of `order` get to one after the other from `s`, and the procedures that are on
    their way can go on as if they had started now. -/
structure Serial (exec : Proc.Exec I σ) (procs : List (Proc I α)) (faults : Nat → Nat → Option I.Err) (s : σ)
    (order : List Nat) (p : Pool I σ α) : Prop where
  nodup : order.Nodup
  mem_iff : ∀ i th, p.threads[i]? = some th → (i ∈ order ↔ th.finished = true ∧ th.calls ≠ [])
  store : p.store = serially exec procs faults s order
  ended : ∀ before i rest, order = before ++ i :: rest → ∃ t th, procs[i]? = some t ∧ p.threads[i]? = some th ∧
    th.sent = (t.run exec (faults i) (serially exec procs faults s before)).sent ∧
    th.proc = Proc.ended (t.run exec (faults i) (serially exec procs faults s before)).result
  going : ∀ i th, p.threads[i]? = some th → i ∉ order → Proc.Replays exec (faults i) p.store th.calls

section Serial
variable {procs : List (Proc I α)} {faults : Nat → Nat → Option I.Err} {s : σ} {order : List Nat}

theorem serial_start : Serial exec procs faults s [] (start s procs) := by
  have hcalls : ∀ {i : Nat} {th : Thread I α}, (start s procs).threads[i]? = some th → th.calls = [] := by
    intro i th hi
    simp only [start, List.getElem?_map, Option.map_eq_some_iff] at hi
    obtain ⟨t, -, rfl⟩ := hi
    exact Thread.settle_calls _ _ _
  refine ⟨List.nodup_nil, fun i th hi => ?_, rfl, fun before i rest h => ?_, fun i th hi _ => ?_⟩
  · simp [hcalls hi]
  · cases before <;> cases h
  · rw [hcalls hi]
    exact Proc.replays_nil

theorem split_concat {β : Type} {order before rest : List β} {i j : β} (h : order ++ [i] = before ++ j :: rest) :
    (order = before ∧ i = j) ∨ ∃ rest', order = before ++ j :: rest' := by
  rcases List.eq_nil_or_concat rest with rfl | ⟨rest', k, rfl⟩
  · left
    obtain ⟨hb, hi⟩ := List.append_inj' h rfl
    exact ⟨hb, (List.cons.inj hi).1⟩
  · right
    rw [List.concat_eq_append, ← List.cons_append, ← List.append_assoc] at h
    exact ⟨rest', (List.append_inj' h rfl).1⟩

section Step
variable {q : Pool I σ α} {t : Turn I} {th : Thread I α} {u : Proc I α} {op : I.Op}
  {next : I.Ans op → Proc I α} {reject : I.Err → Proc I α}

/-- The threads that are still on their way replay their calls on the store after the turn. -/
theorem Serial.others (h : Serial exec procs faults s order q) (hv : Validates exec faults q t) {i : Nat}
    (hi : t.thread ≠ i) (hth : q.threads[i]? = some th) (hnot : i ∉ order) :
    Proc.Replays exec (faults i) (q.step exec t).store th.calls := by
  by_cases hsame : (q.step exec t).store = q.store
  · rw [hsame]
    exact h.going i th hth hnot
  · cases hend : th.finished with
    | true =>
      have hnil : th.calls = [] := by
        by_contra hne
        exact hnot ((h.mem_iff i th hth).mpr ⟨hend, hne⟩)
      rw [hnil]
      exact Proc.replays_nil
    | false => exact (hv hsame).2 i th hi.symm hth hend (h.going i th hth hnot)

/-- The threads that have ended are not touched. -/
theorem Serial.ended_step (h : Serial exec procs faults s order q) (hout : t.thread ∉ order) {before rest : List Nat}
    {i : Nat} (hsplit : order = before ++ i :: rest) :
    ∃ v th, procs[i]? = some v ∧ (q.step exec t).threads[i]? = some th ∧
      th.sent = (v.run exec (faults i) (serially exec procs faults s before)).sent ∧
      th.proc = Proc.ended (v.run exec (faults i) (serially exec procs faults s before)).result := by
  obtain ⟨v, th, hv, hth, hended⟩ := h.ended before i rest hsplit
  have hne : t.thread ≠ i := by
    rintro rfl
    exact hout (hsplit ▸ by simp)
  exact ⟨v, th, hv, (step_other hne).trans hth, hended⟩

theorem Serial.not_mem (h : Serial exec procs faults s order q) (hth : q.threads[t.thread]? = some th)
    (hgoing : th.finished = false) : t.thread ∉ order := by
  rw [h.mem_iff _ _ hth, hgoing]
  exact fun hend => absurd hend.1 Bool.false_ne_true

/-- A thread that ends comes last: alone on the store before the turn its procedure gets to where the turn leaves it. -/
theorem Serial.step_ends (h : Serial exec procs faults s order q) (hv : Validates exec faults q t)
    (hth : q.threads[t.thread]? = some th) (hgoing : th.finished = false) (hsettled : th.Settled)
    (hu : procs[t.thread]? = some u) (hresume : th.Resumes exec u)
    (hfault : faults t.thread th.calls.length = t.fault) (hcalls : (th.turn exec t.fault q.store).2.calls ≠ [])
    (hend : (th.turn exec t.fault q.store).2.finished = true) :
    Serial exec procs faults s (order ++ [t.thread]) (q.step exec t) := by
  have hout := h.not_mem hth hgoing
  obtain ⟨hstore, hself⟩ : (q.step exec t).store = (th.turn exec t.fault q.store).1 ∧
      (q.step exec t).threads[t.thread]? = some (th.turn exec t.fault q.store).2 := step_self hth
  have hrun : u.run exec (faults t.thread) q.store =
      (th.turn exec t.fault q.store).2.rest exec (faults t.thread) (th.turn exec t.fault q.store).1 := by
    rw [hresume _ _ (h.going _ _ hth hout), Thread.turn_rest, hfault]
  obtain ⟨hlast, hsent, hended⟩ := Thread.rest_finished exec (faults t.thread) (th.turn exec t.fault q.store).1
    (hsettled.turn exec t.fault q.store) hend
  rw [← hrun] at hlast hsent hended
  refine ⟨?_, fun i th' hi => ?_, ?_, ?_, fun i th' hi hnot => ?_⟩
  · exact List.nodup_append.mpr ⟨h.nodup, List.nodup_singleton _, fun i hi j hj he => hout (by
      rw [List.mem_singleton] at hj
      rw [← hj, ← he]
      exact hi)⟩
  · rw [List.mem_append, List.mem_singleton]
    obtain ⟨th₀, h₀, ⟨rfl, rfl⟩ | ⟨hne, rfl⟩⟩ := step_thread hi
    · obtain rfl := Option.some.inj (hth.symm.trans h₀)
      simp [hend, hcalls]
    · rw [h.mem_iff i th' h₀]
      simp [hne.symm]
  · rw [hstore, ← hlast, serially_concat procs faults s order hu, h.store]
  · intro before i rest hsplit
    rcases split_concat hsplit with ⟨rfl, rfl⟩ | ⟨rest, hsplit⟩
    · rw [← h.store]
      exact ⟨u, _, hu, hself, hsent.symm, hended.symm⟩
    · exact h.ended_step hout hsplit
  · rw [List.mem_append, List.mem_singleton, not_or] at hnot
    rw [step_other (Ne.symm hnot.2)] at hi
    exact h.others hv (Ne.symm hnot.2) hi hnot.1

/-- A thread that does not end has not changed the store, so it replays its new call too. -/
theorem Serial.step_goes (h : Serial exec procs faults s order q) (hv : Validates exec faults q t)
    (hth : q.threads[t.thread]? = some th) (hproc : th.proc = .await op next reject)
    (hfault : faults t.thread th.calls.length = t.fault)
    (hcalls : (th.turn exec t.fault q.store).2.calls = th.calls ++ [⟨op, (Proc.attempt exec t.fault q.store op).2⟩])
    (hend : ¬(th.turn exec t.fault q.store).2.finished = true) :
    Serial exec procs faults s order (q.step exec t) := by
  have hout := h.not_mem hth (by simp only [Thread.finished, hproc])
  obtain ⟨hstore, hself⟩ : (q.step exec t).store = (th.turn exec t.fault q.store).1 ∧
      (q.step exec t).threads[t.thread]? = some (th.turn exec t.fault q.store).2 := step_self hth
  have hsame : (q.step exec t).store = q.store := by
    by_contra hne
    exact hend ((hv hne).1 _ hself)
  refine ⟨h.nodup, fun i th' hi => ?_, hsame.trans h.store, fun _ _ _ => h.ended_step hout, fun i th' hi hnot => ?_⟩
  · obtain ⟨th₀, h₀, ⟨rfl, rfl⟩ | ⟨hne, rfl⟩⟩ := step_thread hi
    · obtain rfl := Option.some.inj (hth.symm.trans h₀)
      simp [hout, hend]
    · exact h.mem_iff i th' h₀
  · obtain ⟨th₀, h₀, ⟨rfl, rfl⟩ | ⟨hne, rfl⟩⟩ := step_thread hi
    · obtain rfl := Option.some.inj (hth.symm.trans h₀)
      have hanswer : Proc.attempt exec (faults t.thread th.calls.length) q.store op =
          (q.store, (Proc.attempt exec t.fault q.store op).2) := by
        rw [hfault]
        exact Prod.ext (((Thread.turn_store hproc t.fault q.store).symm.trans hstore.symm).trans hsame) rfl
      rw [hcalls, hsame]
      exact Proc.replays_concat.mpr ⟨h.going _ _ hth hout, hanswer⟩
    · exact h.others hv hne h₀ hnot

/-- One validated turn keeps the order, and a thread that ends in it comes last. -/
theorem Serial.step (h : Serial exec procs faults s order q)
    (hsettled : ∀ (i : Nat) (th : Thread I α), q.threads[i]? = some th → th.Settled)
    (hresumes : ∀ (i : Nat) (th : Thread I α), q.threads[i]? = some th → ∃ u, procs[i]? = some u ∧ th.Resumes exec u)
    (hfault : ∀ th, q.threads[t.thread]? = some th → th.finished = false →
      faults t.thread th.calls.length = t.fault)
    (hv : Validates exec faults q t) :
    Serial exec procs faults s (order ++ (q.ending exec t).toList) (q.step exec t) := by
  rcases step_cases exec q t with ⟨hevent, hstep⟩ | ⟨th, op, next, reject, hth, hproc, -, -, hcalls⟩
  · rw [ending_of_no_event hevent, hstep, Option.toList_none, List.append_nil]
    exact h
  have hgoing : th.finished = false := by simp only [Thread.finished, hproc]
  rw [ending_of_await hth hproc]
  split
  · rename_i hend
    obtain ⟨u, hu, hresume⟩ := hresumes _ _ hth
    exact h.step_ends hv hth hgoing (hsettled _ _ hth) hu hresume (hfault _ hth hgoing) (by simp [hcalls]) hend
  · rename_i hend
    rw [Option.toList_none, List.append_nil]
    exact h.step_goes hv hth hproc (hfault _ hth hgoing) hcalls hend

end Step

/-- Where calls outside `P` leave the store as it is and a call of `P` is the last of its procedure, a turn that changes
    the store is a call of `P` and ends its thread. -/
theorem step_changes {P : I.Op → Prop} (hP : ∀ fault s op, ¬P op → (Proc.attempt exec fault s op).1 = s)
    (hlast : ∀ t ∈ procs, t.Last P) {ts : List (Turn I)} {t : Turn I}
    (h : (((start s procs).runs exec ts).step exec t).store ≠ ((start s procs).runs exec ts).store) :
    ∃ th op next reject, ((start s procs).runs exec ts).threads[t.thread]? = some th ∧
      th.proc = .await op next reject ∧ P op ∧
      (th.turn exec t.fault ((start s procs).runs exec ts).store).2.finished = true := by
  rcases step_cases exec ((start s procs).runs exec ts) t with
    ⟨-, hstep⟩ | ⟨th, op, next, reject, hth, hproc, -, -, hcalls⟩
  · rw [hstep] at h
    exact absurd rfl h
  have hop : P op := by
    by_contra hop
    rw [(step_self hth).1, Thread.turn_store hproc, hP _ _ _ hop] at h
    exact h rfl
  refine ⟨th, op, next, reject, hth, hproc, hop, ?_⟩
  have hself : ((start s procs).runs exec (ts ++ [t])).threads[t.thread]? =
      some (th.turn exec t.fault ((start s procs).runs exec ts).store).2 := by
    rw [runs_concat]
    exact (step_self hth).2
  by_contra hgoing
  rw [Bool.not_eq_true] at hgoing
  exact runs_along hself (fun u hu => (hlast u (List.mem_of_getElem? hu)).along fun c hc => absurd hc List.not_mem_nil)
    hgoing _ (by rw [hcalls]; exact List.mem_concat_self) hop

/-- A schedule whose turns are validated is serial in the order in which its threads end. -/
theorem serial_runs {ts : List (Turn I)} (hf : Follows ts faults)
    (hv : ∀ before t rest, ts = before ++ t :: rest → Validates exec faults ((start s procs).runs exec before) t) :
    Serial exec procs faults s ((start s procs).endings exec ts) ((start s procs).runs exec ts) := by
  induction ts using List.reverseRecOn with
  | nil => exact serial_start
  | append_singleton ts t ih =>
    have ih := ih hf.before fun before u rest h => hv before u (rest ++ [t]) (by rw [h]; simp)
    rw [endings_concat, runs_concat]
    refine ih.step (fun _ _ => runs_settled ts) (fun _ _ => runs_resumes ts) (fun th hth hgoing => ?_)
      (hv ts t [] rfl)
    rw [runs_calls_length hth hgoing]
    exact hf ts t [] rfl

/-- What each procedure keeps when it runs alone holds of the store. -/
theorem Serial.keeps {p : Pool I σ α} (h : Serial exec procs faults s order p) {Q : σ → Prop} (h0 : Q s)
    (hkeep : ∀ (i : Nat) (t : Proc I α) (s : σ), procs[i]? = some t → Q s → Q (t.run exec (faults i) s).store) :
    Q p.store := by
  rw [h.store]
  clear h
  induction order using List.reverseRecOn with
  | nil => exact h0
  | append_singleton order i ih =>
    cases ht : procs[i]? with
    | none =>
      rw [serially, List.foldl_append, List.foldl_cons, List.foldl_nil, ht]
      exact ih
    | some t =>
      rw [serially_concat procs faults s order ht]
      exact hkeep i t _ ht ih

end Serial
end Pool
end KhelaKaro.Async
