import KhelaKaro.Async.Proc
import Mathlib.Algebra.BigOperators.Group.List.Basic
import Mathlib.Algebra.GroupWithZero.Nat
import Mathlib.Data.List.Induction

/-! # Procedures in flight

A pool is a store with any number of procedures in flight on it. A turn lets one procedure take its next await: the
store answers the operation in one step, and the procedure goes on to its following await or to its end. A schedule is
a list of turns, in any order.

Every thread keeps the calls it has made with their answers. `Along` says what holds of a thread at each of its
awaits and at its end, whatever the answers; it is checked on the procedure alone, and `Pool.Keeps.runs` carries it
to every schedule of every pool. `Pool.trace` is the order in which the calls were made, and a procedure that runs
alone runs on some schedule too (`Proc.run_eq_runs`). -/

namespace KhelaKaro.Async

/-- An operation a procedure awaited, with the answer it was given. -/
structure Call (I : Interface) where
  op : I.Op
  answer : Except I.Err (I.Ans op)

/-- A procedure in flight: the calls it has made, the messages it has sent, and what is left of it. -/
structure Thread (I : Interface) (α : Type) where
  calls : List (Call I)
  sent : List I.Out
  proc : Proc I α

variable {I : Interface} {σ α : Type}

namespace Thread

/-- The thread at its next await or at its end: messages are sent on the way. -/
def settle (calls : List (Call I)) : List I.Out → Proc I α → Thread I α
  | sent, .pure a => ⟨calls, sent, .pure a⟩
  | sent, .throw e => ⟨calls, sent, .throw e⟩
  | sent, .send r next => settle calls (sent ++ [r]) next
  | sent, .await op next reject => ⟨calls, sent, .await op next reject⟩

def start (t : Proc I α) : Thread I α := settle [] [] t

def finished (th : Thread I α) : Bool :=
  match th.proc with
  | .await .. => false
  | _ => true

/-- One turn of the thread: its await is answered. A finished thread stays as it is. -/
def turn (exec : Proc.Exec I σ) (fault : Option I.Err) (s : σ) (th : Thread I α) : σ × Thread I α :=
  match th.proc with
  | .await op next reject =>
    match (Proc.attempt exec fault s op).2 with
    | .ok a => ((Proc.attempt exec fault s op).1, settle (th.calls ++ [⟨op, .ok a⟩]) th.sent (next a))
    | .error e => ((Proc.attempt exec fault s op).1, settle (th.calls ++ [⟨op, .error e⟩]) th.sent (reject e))
  | _ => (s, th)

theorem settle_calls (calls : List (Call I)) (sent : List I.Out) (t : Proc I α) :
    (settle calls sent t).calls = calls := by
  induction t generalizing sent with
  | pure a => rfl
  | throw e => rfl
  | send r next ih => exact ih _
  | await op next reject => rfl

theorem turn_cases (exec : Proc.Exec I σ) (fault : Option I.Err) (s : σ) (th : Thread I α) :
    (th.finished = true ∧ th.turn exec fault s = (s, th)) ∨
      ∃ op next reject, th.proc = .await op next reject ∧
        (th.turn exec fault s).1 = (Proc.attempt exec fault s op).1 ∧
        (th.turn exec fault s).2.calls = th.calls ++ [⟨op, (Proc.attempt exec fault s op).2⟩] := by
  obtain ⟨calls, sent, proc⟩ := th
  cases proc with
  | pure a => exact Or.inl ⟨rfl, rfl⟩
  | throw e => exact Or.inl ⟨rfl, rfl⟩
  | send r next => exact Or.inl ⟨rfl, rfl⟩
  | await op next reject =>
    refine Or.inr ⟨op, next, reject, rfl, ?_, ?_⟩
    · simp only [turn]
      split <;> rfl
    · simp only [turn]
      split <;> rename_i h <;> rw [settle_calls, h]

end Thread

/-! ## Along a procedure -/

/-- Where a procedure stands: at an await, or at its end. -/
inductive Stage (I : Interface) where
  | awaits (op : I.Op)
  | done
  | threw (e : I.Err)

def Proc.stage : Proc I α → Stage I
  | .pure _ => .done
  | .throw e => .threw e
  | .send _ next => next.stage
  | .await op _ _ => .awaits op

/-- `P` holds of the thread at each of its awaits and at its end, for all answers that `allow` admits. -/
def Proc.Along (allow : Call I → Prop) (P : Thread I α → Prop) : List (Call I) → List I.Out → Proc I α → Prop
  | calls, sent, .pure a => P ⟨calls, sent, .pure a⟩
  | calls, sent, .throw e => P ⟨calls, sent, .throw e⟩
  | calls, sent, .send r next => Along allow P calls (sent ++ [r]) next
  | calls, sent, .await op next reject =>
    P ⟨calls, sent, .await op next reject⟩ ∧
      (∀ a, allow ⟨op, .ok a⟩ → Along allow P (calls ++ [⟨op, .ok a⟩]) sent (next a)) ∧
      ∀ e, allow ⟨op, .error e⟩ → Along allow P (calls ++ [⟨op, .error e⟩]) sent (reject e)

theorem Proc.Along.mono {allow : Call I → Prop} {P P' : Thread I α → Prop} {calls : List (Call I)}
    {sent : List I.Out} {t : Proc I α} (h : t.Along allow P calls sent) (hP : ∀ th, P th → P' th) :
    t.Along allow P' calls sent := by
  induction t generalizing calls sent with
  | pure a => exact hP _ h
  | throw e => exact hP _ h
  | send r next ih => exact ih h
  | await op next reject ihn ihr =>
    exact ⟨hP _ h.1, fun a ha => ihn a (h.2.1 a ha), fun e he => ihr e (h.2.2 e he)⟩

/-- Along a procedure whose answers are admitted, all calls made are admitted. -/
theorem Proc.Along.record {allow : Call I → Prop} {P : Thread I α → Prop} {calls : List (Call I)} {sent : List I.Out}
    {t : Proc I α} (h : t.Along (fun _ => True) P calls sent) (hc : ∀ c ∈ calls, allow c) :
    t.Along allow (fun th => P th ∧ ∀ c ∈ th.calls, allow c) calls sent := by
  have hsnoc : ∀ {calls : List (Call I)} {c : Call I}, (∀ c ∈ calls, allow c) → allow c →
      ∀ c' ∈ calls ++ [c], allow c' := by
    intro calls c hc ha c' hc'
    rcases List.mem_append.mp hc' with hc' | hc'
    · exact hc c' hc'
    · rw [List.mem_singleton.mp hc']
      exact ha
  induction t generalizing calls sent with
  | pure a => exact ⟨h, hc⟩
  | throw e => exact ⟨h, hc⟩
  | send r next ih => exact ih h hc
  | await op next reject ihn ihr =>
    exact ⟨⟨h.1, hc⟩, fun a ha => ihn a (h.2.1 a trivial) (hsnoc hc ha),
      fun e he => ihr e (h.2.2 e trivial) (hsnoc hc he)⟩

namespace Thread
variable {allow : Call I → Prop} {P : Thread I α → Prop}

def Along (allow : Call I → Prop) (P : Thread I α → Prop) (th : Thread I α) : Prop :=
  th.proc.Along allow P th.calls th.sent

theorem along_settle {calls : List (Call I)} {sent : List I.Out} {t : Proc I α}
    (h : t.Along allow P calls sent) : (settle calls sent t).Along allow P := by
  induction t generalizing sent with
  | pure a => exact h
  | throw e => exact h
  | send r next ih => exact ih h
  | await op next reject => exact h

theorem settle_not_send (calls : List (Call I)) (sent : List I.Out) (t : Proc I α) (r : I.Out) (next : Proc I α) :
    (settle calls sent t).proc ≠ .send r next := by
  induction t generalizing sent with
  | pure a => exact nofun
  | throw e => exact nofun
  | send r next ih => exact ih _
  | await op next reject => exact nofun

/-- At rest: the thread is at an await or at its end. -/
def Settled (th : Thread I α) : Prop := ∀ r next, th.proc ≠ .send r next

theorem Along.here {th : Thread I α} (h : th.Along allow P) (hs : th.Settled) : P th := by
  obtain ⟨calls, sent, proc⟩ := th
  cases proc with
  | pure a => exact h
  | throw e => exact h
  | send r next => exact absurd rfl (hs r next)
  | await op next reject => exact h.1

theorem Settled.stage_ne {th : Thread I α} (hs : th.Settled) (h : th.finished = true) (op : I.Op) :
    th.proc.stage ≠ .awaits op := by
  obtain ⟨calls, sent, proc⟩ := th
  cases proc with
  | pure a => exact nofun
  | throw e => exact nofun
  | send r next => exact absurd rfl (hs r next)
  | await op next reject => cases h

theorem Settled.turn {th : Thread I α} (hs : th.Settled) (exec : Proc.Exec I σ) (fault : Option I.Err) (s : σ) :
    (th.turn exec fault s).2.Settled := by
  obtain ⟨calls, sent, proc⟩ := th
  cases proc with
  | pure a => exact hs
  | throw e => exact hs
  | send r next => exact absurd rfl (hs r next)
  | await op next reject =>
    simp only [Thread.turn]
    split <;> exact settle_not_send _ _ _

theorem Along.turn {th : Thread I α} (h : th.Along allow P) {exec : Proc.Exec I σ} {fault : Option I.Err} {s : σ}
    (ha : ∀ op next reject, th.proc = .await op next reject → allow ⟨op, (Proc.attempt exec fault s op).2⟩) :
    (th.turn exec fault s).2.Along allow P := by
  obtain ⟨calls, sent, proc⟩ := th
  cases proc with
  | pure a => exact h
  | throw e => exact h
  | send r next => exact h
  | await op next reject =>
    have ha := ha op next reject rfl
    simp only [Thread.turn]
    split <;> rename_i hr <;> rw [hr] at ha
    · exact along_settle (h.2.1 _ ha)
    · exact along_settle (h.2.2 _ ha)

end Thread

/-! ## Schedules -/

structure Pool (I : Interface) (σ α : Type) where
  store : σ
  threads : List (Thread I α)

/-- One step of a schedule: which thread goes on, and whether its call fails. -/
structure Turn (I : Interface) where
  thread : Nat
  fault : Option I.Err := none

namespace Pool

def start (s : σ) (procs : List (Proc I α)) : Pool I σ α := ⟨s, procs.map Thread.start⟩

def step (exec : Proc.Exec I σ) (p : Pool I σ α) (t : Turn I) : Pool I σ α :=
  match p.threads[t.thread]? with
  | none => p
  | some th =>
    let r := th.turn exec t.fault p.store
    ⟨r.1, p.threads.set t.thread r.2⟩

def runs (exec : Proc.Exec I σ) (p : Pool I σ α) (ts : List (Turn I)) : Pool I σ α := ts.foldl (step exec) p

variable {exec : Proc.Exec I σ} {p : Pool I σ α}

@[simp] theorem runs_nil : p.runs exec [] = p := rfl
@[simp] theorem runs_append (ts us : List (Turn I)) : p.runs exec (ts ++ us) = (p.runs exec ts).runs exec us :=
  List.foldl_append
theorem runs_concat (ts : List (Turn I)) (t : Turn I) : p.runs exec (ts ++ [t]) = (p.runs exec ts).step exec t := by
  rw [runs_append]
  rfl

/-- The call made in a turn, with the thread that makes it. -/
def event (exec : Proc.Exec I σ) (p : Pool I σ α) (t : Turn I) : Option (Nat × Call I) :=
  match p.threads[t.thread]? with
  | none => none
  | some th =>
    match th.proc with
    | .await op _ _ => some (t.thread, ⟨op, (Proc.attempt exec t.fault p.store op).2⟩)
    | _ => none

/-- The calls made on a schedule, in their order. -/
def trace (exec : Proc.Exec I σ) : Pool I σ α → List (Turn I) → List (Nat × Call I)
  | _, [] => []
  | p, t :: ts => (p.event exec t).toList ++ (p.step exec t).trace exec ts

theorem trace_append (ts us : List (Turn I)) :
    p.trace exec (ts ++ us) = p.trace exec ts ++ (p.runs exec ts).trace exec us := by
  induction ts generalizing p with
  | nil => rfl
  | cons t ts ih =>
    rw [List.cons_append, trace, trace, ih, List.append_assoc]
    rfl

theorem trace_concat (ts : List (Turn I)) (t : Turn I) :
    p.trace exec (ts ++ [t]) = p.trace exec ts ++ ((p.runs exec ts).event exec t).toList := by
  rw [trace_append, trace, trace, List.append_nil]

/-- A step changes nothing, or it is one call of one thread. -/
theorem step_cases (exec : Proc.Exec I σ) (p : Pool I σ α) (t : Turn I) :
    (p.event exec t = none ∧ p.step exec t = p) ∨
      ∃ th op next reject, p.threads[t.thread]? = some th ∧ th.proc = .await op next reject ∧
        p.event exec t = some (t.thread, ⟨op, (Proc.attempt exec t.fault p.store op).2⟩) ∧
        p.step exec t = ⟨(Proc.attempt exec t.fault p.store op).1,
          p.threads.set t.thread (th.turn exec t.fault p.store).2⟩ ∧
        (th.turn exec t.fault p.store).2.calls = th.calls ++ [⟨op, (Proc.attempt exec t.fault p.store op).2⟩] := by
  unfold step event
  cases hth : p.threads[t.thread]? with
  | none => exact Or.inl ⟨rfl, rfl⟩
  | some th =>
    rcases th.turn_cases exec t.fault p.store with ⟨hend, hturn⟩ | ⟨op, next, reject, htask, hstore, hcalls⟩
    · left
      obtain ⟨hlt, rfl⟩ := List.getElem?_eq_some_iff.mp hth
      refine ⟨?_, by simp only [hturn, List.set_getElem_self]⟩
      simp only [Thread.finished] at hend
      dsimp only
      split at hend <;> simp_all
    · exact Or.inr ⟨th, op, next, reject, rfl, htask, by simp only [htask], by simp only [hstore], hcalls⟩

@[simp] theorem step_length (t : Turn I) : (p.step exec t).threads.length = p.threads.length := by
  unfold step
  split <;> simp

@[simp] theorem runs_length (ts : List (Turn I)) : (p.runs exec ts).threads.length = p.threads.length := by
  induction ts using List.reverseRecOn with
  | nil => rfl
  | append_singleton ts t ih => rw [runs_concat, step_length, ih]

theorem runs_induction {Q : Pool I σ α → Prop} (h0 : Q p) (hs : ∀ q t, Q q → Q (q.step exec t))
    (ts : List (Turn I)) : Q (p.runs exec ts) := by
  induction ts using List.reverseRecOn with
  | nil => exact h0
  | append_singleton ts t ih =>
    rw [runs_concat]
    exact hs _ t ih

/-- The threads at rest, each with its `Along`, on a store that satisfies `S`. -/
structure Keeps (S : σ → Prop) (allow : Call I → Prop) (P : Nat → Thread I α → Prop) (q : Pool I σ α) : Prop where
  store : S q.store
  along : ∀ (i : Nat) (th : Thread I α), q.threads[i]? = some th → th.Along allow (P i)
  settled : ∀ (i : Nat) (th : Thread I α), q.threads[i]? = some th → th.Settled

variable {S : σ → Prop} {allow : Call I → Prop} {P : Nat → Thread I α → Prop}

theorem Keeps.here {q : Pool I σ α} (k : Keeps S allow P q) {i : Nat} {th : Thread I α}
    (h : q.threads[i]? = some th) : P i th :=
  (k.along i th h).here (k.settled i th h)

theorem Keeps.step {q : Pool I σ α} (k : Keeps S allow P q) {t : Turn I}
    (hop : ∀ th op next reject, q.threads[t.thread]? = some th → P t.thread th → th.proc = .await op next reject →
      S (Proc.attempt exec t.fault q.store op).1 ∧ allow ⟨op, (Proc.attempt exec t.fault q.store op).2⟩) :
    Keeps S allow P (q.step exec t) := by
  rcases step_cases exec q t with ⟨-, h⟩ | ⟨th, op, next, reject, hth, htask, -, h, -⟩
  · rw [h]
    exact k
  rw [h]
  have hcall := fun op next reject => hop th op next reject hth (k.here hth)
  have hlt := (List.getElem?_eq_some_iff.mp hth).1
  refine ⟨(hcall op next reject htask).1, fun i th' hi => ?_, fun i th' hi => ?_⟩
  · rcases eq_or_ne t.thread i with rfl | hne
    · rw [List.getElem?_set_self hlt] at hi
      obtain rfl := Option.some.inj hi
      exact (k.along _ _ hth).turn fun op next reject ht => (hcall op next reject ht).2
    · rw [List.getElem?_set_ne hne] at hi
      exact k.along i th' hi
  · rcases eq_or_ne t.thread i with rfl | hne
    · rw [List.getElem?_set_self hlt] at hi
      obtain rfl := Option.some.inj hi
      exact (k.settled _ _ hth).turn _ _ _
    · rw [List.getElem?_set_ne hne] at hi
      exact k.settled i th' hi

theorem Keeps.start {s : σ} {procs : List (Proc I α)} (h0 : S s)
    (ht : ∀ (i : Nat) (t : Proc I α), procs[i]? = some t → t.Along allow (P i) [] []) :
    Keeps S allow P (Pool.start s procs) := by
  have hstart : ∀ (i : Nat) (th : Thread I α), (Pool.start s procs).threads[i]? = some th →
      ∃ t, procs[i]? = some t ∧ Thread.start t = th := fun i th hi => by
    simpa only [Pool.start, List.getElem?_map, Option.map_eq_some_iff] using hi
  refine ⟨h0, fun i th hi => ?_, fun i th hi => ?_⟩
  · obtain ⟨t, hti, rfl⟩ := hstart i th hi
    exact Thread.along_settle (ht i t hti)
  · obtain ⟨t, -, rfl⟩ := hstart i th hi
    exact Thread.settle_not_send _ _ _

/-- What is checked along each procedure holds in every pool the procedures can reach together, when each call keeps
    `S` and is answered within `allow`. -/
theorem Keeps.runs {q : Pool I σ α} (k : Keeps S allow P q) (ts : List (Turn I))
    (hop : ∀ s i th op next reject fault, (∃ t ∈ ts, t.fault = fault) → S s → P i th →
      th.proc = .await op next reject →
      S (Proc.attempt exec fault s op).1 ∧ allow ⟨op, (Proc.attempt exec fault s op).2⟩) :
    Keeps S allow P (q.runs exec ts) := by
  induction ts using List.reverseRecOn with
  | nil => exact k
  | append_singleton ts t ih =>
    rw [runs_concat]
    have ih := ih fun s i th op next reject fault ⟨t', ht', hf⟩ =>
      hop s i th op next reject fault ⟨t', List.mem_append_left _ ht', hf⟩
    exact ih.step fun th op next reject _ hP htask =>
      hop _ _ th op next reject _ ⟨t, by simp, rfl⟩ ih.store hP htask

/-- What a store attests of a call, for good, holds of all calls that threads have made. -/
theorem runs_calls {J : σ → Call I → Prop} (hmono : ∀ s fault op c, J s c → J (Proc.attempt exec fault s op).1 c)
    (s : σ) (procs : List (Proc I α)) (ts : List (Turn I))
    (hnew : ∀ t ∈ ts, ∀ s op, J (Proc.attempt exec t.fault s op).1 ⟨op, (Proc.attempt exec t.fault s op).2⟩)
    {i : Nat} {th : Thread I α} (hi : ((start s procs).runs exec ts).threads[i]? = some th) {c : Call I}
    (hc : c ∈ th.calls) : J ((start s procs).runs exec ts).store c := by
  induction ts using List.reverseRecOn generalizing i th with
  | nil =>
    simp only [runs_nil, start, List.getElem?_map, Option.map_eq_some_iff] at hi
    obtain ⟨t, -, rfl⟩ := hi
    rw [Thread.start, Thread.settle_calls] at hc
    cases hc
  | append_singleton ts t ih =>
    have ih := fun {i th} => @ih (fun t ht => hnew t (List.mem_append_left _ ht)) i th
    rw [runs_concat] at hi ⊢
    rcases step_cases exec ((start s procs).runs exec ts) t with ⟨-, hst⟩ | ⟨th', op, -, -, hth, -, -, hst, hcalls⟩
    · rw [hst] at hi ⊢
      exact ih hi hc
    rw [hst] at hi ⊢
    rcases eq_or_ne t.thread i with rfl | hne
    · rw [List.getElem?_set_self (List.getElem?_eq_some_iff.mp hth).1] at hi
      obtain rfl := Option.some.inj hi
      rw [hcalls, List.mem_append, List.mem_singleton] at hc
      rcases hc with hc | rfl
      · exact hmono _ _ _ _ (ih hth hc)
      · exact hnew t (by simp) _ _
    · rw [List.getElem?_set_ne hne] at hi
      exact hmono _ _ _ _ (ih hi hc)

/-! ## The trace -/

/-- A log of the store that every call extends by what it logs is, after any schedule, the first log and what the
    calls of the trace have logged. -/
theorem runs_log {β : Type} (view : σ → List β) (gain : Call I → List β) (h : ∀ fault s op,
      view (Proc.attempt exec fault s op).1 = view s ++ gain ⟨op, (Proc.attempt exec fault s op).2⟩)
    (p : Pool I σ α) (ts : List (Turn I)) :
    view (p.runs exec ts).store = view p.store ++ (p.trace exec ts).flatMap fun e => gain e.2 := by
  induction ts using List.reverseRecOn with
  | nil => simp [trace]
  | append_singleton ts t ih =>
    rw [runs_concat, trace_concat]
    rcases step_cases exec (p.runs exec ts) t with ⟨he, hst⟩ | ⟨th, op, next, reject, -, -, he, hst, -⟩
    · rw [hst, he, ih, Option.toList_none, List.append_nil]
    · rw [hst, he, h, ih, Option.toList_some, List.flatMap_append, List.flatMap_singleton, List.append_assoc]

/-- The calls of a thread are those of the trace that it has made. -/
theorem mem_trace_iff {s : σ} {procs : List (Proc I α)} {ts : List (Turn I)} {i : Nat} {th : Thread I α} {c : Call I}
    (hi : ((start s procs).runs exec ts).threads[i]? = some th) :
    (i, c) ∈ (start s procs).trace exec ts ↔ c ∈ th.calls := by
  induction ts using List.reverseRecOn generalizing th with
  | nil =>
    simp only [runs_nil, start, List.getElem?_map, Option.map_eq_some_iff] at hi
    obtain ⟨t, -, rfl⟩ := hi
    rw [Thread.start, Thread.settle_calls]
    simp [trace]
  | append_singleton ts t ih =>
    rw [runs_concat] at hi
    rw [trace_concat, List.mem_append, Option.mem_toList]
    rcases step_cases exec ((start s procs).runs exec ts) t with ⟨he, hst⟩ | ⟨th', op, -, -, hth, -, he, hst, hcalls⟩
    · rw [hst] at hi
      rw [he, ih hi]
      simp
    rw [hst] at hi
    rw [he, Option.some.injEq, Prod.mk.injEq]
    rcases eq_or_ne t.thread i with rfl | hne
    · rw [List.getElem?_set_self (List.getElem?_eq_some_iff.mp hth).1] at hi
      obtain rfl := Option.some.inj hi
      rw [ih hth, hcalls, List.mem_append, List.mem_singleton]
      simp only [true_and, eq_comm]
    · rw [List.getElem?_set_ne hne] at hi
      rw [ih hi]
      simp only [hne, false_and, or_false]

/-! ## What the calls add up to -/

section Accounts
variable {M : Type} [AddCommMonoid M]

def total (gain : Call I → M) (threads : List (Thread I α)) : M :=
  (threads.map fun th => (th.calls.map gain).sum).sum

theorem total_set {gain : Call I → M} {threads : List (Thread I α)} {i : Nat} {th th' : Thread I α} {c : Call I}
    (hi : threads[i]? = some th) (hc : th'.calls = th.calls ++ [c]) :
    total gain (threads.set i th') = total gain threads + gain c := by
  induction threads generalizing i with
  | nil => simp at hi
  | cons x xs ih =>
    cases i with
    | zero =>
      simp only [List.getElem?_cons_zero, Option.some.injEq] at hi
      subst hi
      simp only [total, List.set_cons_zero, List.map_cons, List.sum_cons, hc, List.map_append, List.map_nil,
        List.sum_append, List.sum_nil, add_zero]
      exact add_right_comm _ _ _
    | succ i =>
      simp only [List.getElem?_cons_succ] at hi
      have ih := ih hi
      simp only [total, List.set_cons_succ, List.map_cons, List.sum_cons] at ih ⊢
      rw [ih, add_assoc]

/-- A measure of the store that every call raises by its gain is, after any schedule, the first measure and the
    gains of all threads. -/
theorem runs_total (view : σ → M) (gain : Call I → M) (h : ∀ fault s op,
      view (Proc.attempt exec fault s op).1 = view s + gain ⟨op, (Proc.attempt exec fault s op).2⟩)
    (s : σ) (procs : List (Proc I α)) (ts : List (Turn I)) :
    view ((start s procs).runs exec ts).store = view s + total gain ((start s procs).runs exec ts).threads := by
  refine runs_induction (Q := fun q => view q.store = view s + total gain q.threads) ?_ (fun q t hq => ?_) ts
  · have h0 : ∀ procs : List (Proc I α), total gain (procs.map Thread.start) = 0 := by
      intro procs
      induction procs with
      | nil => rfl
      | cons t procs ih =>
        simp only [total, List.map_cons, List.sum_cons] at ih ⊢
        rw [ih, Thread.start, Thread.settle_calls]
        simp
    simp only [start, h0, add_zero]
  · rcases step_cases exec q t with ⟨-, hst⟩ | ⟨th, op, next, reject, hth, -, -, hst, hcalls⟩
    · rw [hst]
      exact hq
    · rw [hst, h, hq, total_set hth hcalls, add_assoc]

end Accounts

theorem total_eq_one {gain : Call I → Nat} {threads : List (Thread I α)} (h : total gain threads = 1) :
    ∃ (i : Nat) (th : Thread I α), threads[i]? = some th ∧ (th.calls.map gain).sum = 1 ∧
      ∀ (j : Nat) (th' : Thread I α), j ≠ i → threads[j]? = some th' → (th'.calls.map gain).sum = 0 := by
  induction threads with
  | nil => cases h
  | cons th threads ih =>
    have hsplit : (th.calls.map gain).sum + total gain threads = 1 := h
    rcases Nat.eq_zero_or_pos (th.calls.map gain).sum with hzero | hpos
    · obtain ⟨i, th', hi, hone, hothers⟩ := ih (by omega)
      refine ⟨i + 1, th', hi, hone, fun j th'' hj hth'' => ?_⟩
      cases j with
      | zero =>
        obtain rfl := Option.some.inj hth''
        exact hzero
      | succ j => exact hothers j th'' (by omega) hth''
    · refine ⟨0, th, rfl, by omega, fun j th' hj hth' => ?_⟩
      cases j with
      | zero => exact absurd rfl hj
      | succ j =>
        have hzero : total gain threads = 0 := by omega
        exact List.sum_eq_zero_iff_forall_eq_nat.mp hzero _ (List.mem_map_of_mem (List.mem_of_getElem? hth'))

end Pool

/-! ## Alone in a pool -/

def Proc.ended : Except I.Err α → Proc I α
  | .ok a => .pure a
  | .error e => .throw e

/-- A procedure that runs alone is a pool of one thread on some schedule. -/
theorem Proc.run_eq_runs (exec : Proc.Exec I σ) (t : Proc I α) (faults : Nat → Option I.Err) (s : σ)
    (calls : List (Call I)) (sent : List I.Out) :
    ∃ (ts : List (Turn I)) (calls' : List (Call I)),
      Pool.runs exec ⟨s, [Thread.settle calls sent t]⟩ ts = ⟨(t.run exec faults s).store,
        [⟨calls', sent ++ (t.run exec faults s).sent, ended (t.run exec faults s).result⟩]⟩ := by
  induction t generalizing faults s calls sent with
  | pure a => exact ⟨[], calls, by simp [Thread.settle, ended]⟩
  | throw e => exact ⟨[], calls, by simp [Thread.settle, ended]⟩
  | send r next ih =>
    obtain ⟨ts, calls', h⟩ := ih faults s calls (sent ++ [r])
    refine ⟨ts, calls', ?_⟩
    rw [Thread.settle, h, run_send, List.append_assoc, List.singleton_append]
  | await op next reject ihn ihr =>
    -- The first turn makes the call; what is left has its own schedule.
    have hcons : ∀ p ts, Pool.step exec ⟨s, [Thread.settle calls sent (.await op next reject)]⟩ ⟨0, faults 0⟩ = p →
        Pool.runs exec ⟨s, [Thread.settle calls sent (.await op next reject)]⟩ (⟨0, faults 0⟩ :: ts) =
          Pool.runs exec p ts := by
      rintro p ts rfl
      rfl
    rcases hr : attempt exec (faults 0) s op with ⟨s', e | a⟩
    · obtain ⟨ts, calls', h⟩ := ihr e (fun n => faults (n + 1)) s' (calls ++ [⟨op, .error e⟩]) sent
      refine ⟨⟨0, faults 0⟩ :: ts, calls', ?_⟩
      rw [run_await_error hr, ← h]
      exact hcons _ ts (by simp [Pool.step, Thread.settle, Thread.turn, hr])
    · obtain ⟨ts, calls', h⟩ := ihn a (fun n => faults (n + 1)) s' (calls ++ [⟨op, .ok a⟩]) sent
      refine ⟨⟨0, faults 0⟩ :: ts, calls', ?_⟩
      rw [run_await_ok hr, ← h]
      exact hcons _ ts (by simp [Pool.step, Thread.settle, Thread.turn, hr])

/-- What is checked along a procedure holds at the end of each of its runs, when each call keeps `S` and is answered
    within `allow`. -/
theorem Proc.Along.run {allow : Call I → Prop} {P : Thread I α → Prop} {S : σ → Prop} {t : Proc I α}
    {calls : List (Call I)} {sent : List I.Out} (h : t.Along allow P calls sent) (exec : Proc.Exec I σ)
    (faults : Nat → Option I.Err) {s : σ} (h0 : S s)
    (hop : ∀ s th op next reject fault, S s → P th → th.proc = .await op next reject →
      S (Proc.attempt exec fault s op).1 ∧ allow ⟨op, (Proc.attempt exec fault s op).2⟩) :
    S (t.run exec faults s).store ∧
      ∃ calls', P ⟨calls', sent ++ (t.run exec faults s).sent, ended (t.run exec faults s).result⟩ := by
  obtain ⟨ts, calls', hrun⟩ := run_eq_runs exec t faults s calls sent
  have hkeeps : Pool.Keeps S allow (fun _ => P) ⟨s, [Thread.settle calls sent t]⟩ := by
    refine ⟨h0, fun i th hi => ?_, fun i th hi => ?_⟩
    · cases i with
      | zero =>
        obtain rfl := Option.some.inj hi
        exact Thread.along_settle h
      | succ i => cases hi
    · cases i with
      | zero =>
        obtain rfl := Option.some.inj hi
        exact Thread.settle_not_send _ _ _
      | succ i => cases hi
  have hend := hkeeps.runs ts fun s i th op next reject fault _ => hop s th op next reject fault
  rw [hrun] at hend
  exact ⟨hend.store, calls', hend.here (i := 0) rfl⟩

end KhelaKaro.Async
