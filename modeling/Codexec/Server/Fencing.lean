/-
**Fencing.**

The tokens that claims have returned for a submission are its attempts, counted down (`Fenced`). So
the token of a write that applies is the latest one, no two claims return the same token, and a
submission that is done is out of the reach of every operation.
-/

import Codexec.Server.Queue

namespace Codexec.Server

open Codexec Codexec.Library Machine

/-! ### Attempts -/

/-- The attempts of a submission so far. -/
def Store.attempts (self : Store) (id : String) : Nat :=
  ((self.submissions.get id).map Row.attempt).getD 0

theorem Store.attempts_of_get {self : Store} {id : String} {row : Row}
    (found : self.submissions.get id = some row) : self.attempts id = row.attempt := by
  rw [attempts, found]
  rfl

/-- Only a claim changes the attempt of a row. -/
theorem RowStep.attempt {op : Op} {row next : Row} (step : RowStep op row next) :
    next.attempt = row.attempt ∨ ∃ world leaseMs, op = .claimNext world leaseMs ∧
      next.attempt = row.attempt + 1 := by
  cases step with
  | claimed _ => exact Or.inr ⟨_, _, rfl, rfl⟩
  | _ => exact Or.inl rfl

/-- **A row that is not in flight stays**, unless it is claimed or a worker writes it. -/
theorem RowStep.of_grounded {op : Op} {row next : Row} (step : RowStep op row next)
    (grounded : row.status.inFlight = false) :
    next = row ∨ row.status = .queued ∧ next.attempt = row.attempt + 1 ∨
      row.status ≠ .done ∧ ∃ token, op.token? = some token ∧ row.id = token.id := by
  cases step with
  | same => exact Or.inl rfl
  | claimed queued => exact Or.inr (Or.inl ⟨queued, rfl⟩)
  | progressed _ _ flying =>
    rw [grounded] at flying
    cases flying
  | finished key _ live => exact Or.inr (Or.inr ⟨live, _, rfl, key⟩)
  | gaveUp key _ live _ => exact Or.inr (Or.inr ⟨live, _, rfl, key⟩)
  | retried key _ live _ => exact Or.inr (Or.inr ⟨live, _, rfl, key⟩)
  | sweptUp lost =>
    rw [hopeless, expired, grounded] at lost
    cases lost
  | sweptBack found =>
    rw [recoverable, expired, grounded] at found
    cases found
  | restarted _ flying =>
    rw [grounded] at flying
    cases flying

/-- **Nothing moves a row that is done.** -/
theorem RowStep.of_done {op : Op} {row next : Row} (step : RowStep op row next)
    (done : row.status = .done) : next = row := by
  have grounded : row.status.inFlight = false := by rw [done]; rfl
  rcases step.of_grounded grounded with same | ⟨queued, _⟩ | ⟨live, _⟩
  · exact same
  · cases done.symm.trans queued
  · exact absurd done live

/-- **A claim adds one attempt to one submission**; nothing else changes the attempts. -/
theorem Op.attempts_cases (store : Store) (op : Op) :
    op.issues store = [] ∧ (∀ id, (op.after store).attempts id = store.attempts id) ∨
      ∃ claimed, op.issues store = [⟨claimed, UInt32.ofNat (store.attempts claimed + 1)⟩] ∧
        ∀ id, (op.after store).attempts id =
          if claimed = id then store.attempts id + 1 else store.attempts id := by
  rcases op.issues_cases store with idle | ⟨world, leaseMs, row, _, _, oldest, _, _, issued, done⟩
  · left
    refine ⟨idle, fun id => ?_⟩
    cases held : store.submissions.get id with
    | none =>
      rw [Store.attempts, Store.attempts, held]
      cases found : (op.after store).submissions.get id with
      | none => rfl
      | some row =>
        obtain ⟨_, _, _, _, rfl, _⟩ := row_new held found
        rfl
    | some row =>
      obtain ⟨next, found, moved⟩ := row_cases op held
      rw [Store.attempts_of_get held, Store.attempts_of_get found]
      rcases moved.attempt with same | ⟨world, leaseMs, rfl, _⟩
      · exact same
      · -- A claim without a token has changed nothing.
        rcases store.claimNext_cases world leaseMs with ⟨same, _⟩ | ⟨_, _, _, _, done⟩
        · rw [show (Op.claimNext world leaseMs).after store = store from same, held] at found
          cases found
          rfl
        · simp only [issues, done] at idle
          cases idle
  · right
    obtain ⟨held, _, _⟩ := Store.oldest_spec oldest
    refine ⟨row.id, by rw [issued, Store.attempts_of_get held], fun id => ?_⟩
    rw [done, Store.attempts, Store.attempts, Store.get_set]
    by_cases own : row.id = id
    · rw [if_pos own, if_pos own, ← own, held]
      rfl
    · rw [if_neg own, if_neg own]

/-! ### Tokens -/

/-- The attempts up to `n`, the last one first. -/
def countdown : Nat → List UInt32
  | 0 => []
  | n + 1 => UInt32.ofNat (n + 1) :: countdown n

theorem length_countdown (n : Nat) : (countdown n).length = n := by
  induction n with
  | zero => rfl
  | succ n ih => rw [countdown, List.length_cons, ih]

theorem mem_countdown {n : Nat} {attempt : UInt32} (inside : attempt ∈ countdown n) :
    ∃ k, 1 ≤ k ∧ k ≤ n ∧ attempt = UInt32.ofNat k := by
  induction n with
  | zero => cases inside
  | succ n ih =>
    rcases List.mem_cons.mp inside with rfl | inside
    · exact ⟨n + 1, by omega, le_refl _, rfl⟩
    · obtain ⟨k, least, most, same⟩ := ih inside
      exact ⟨k, least, by omega, same⟩

theorem nodup_countdown {n : Nat} (small : n < 2 ^ 32) : (countdown n).Nodup := by
  induction n with
  | zero => exact List.nodup_nil
  | succ n ih =>
    refine List.nodup_cons.mpr ⟨?_, ih (by omega)⟩
    intro inside
    obtain ⟨k, _, most, same⟩ := mem_countdown inside
    have values := congrArg UInt32.toNat same
    rw [UInt32.toNat_ofNat', UInt32.toNat_ofNat'] at values
    omega

namespace Queue

/-- The tokens that were returned for a submission, newest first. -/
def tokens (state : Queue) (id : String) : List Token :=
  state.issued.filter fun token => decide (token.id = id)

/-- The token of the latest claim of a submission. -/
def latest (state : Queue) (id : String) : Option Token := (state.tokens id).head?

/-- The tokens of every submission count its attempts down. -/
def Fenced (state : Queue) : Prop :=
  ∀ id, (state.tokens id).map Token.attempt = countdown (state.store.attempts id)

end Queue

theorem fenced_invariant : queue.Invariant Queue.Fenced where
  start := by
    rintro _ rfl id
    rfl
  step := by
    rintro state op _ fenced ⟨_, rfl⟩ id
    have before := fenced id
    show List.map Token.attempt (List.filter _ (op.issues state.store ++ state.issued)) =
      countdown ((op.after state.store).attempts id)
    rcases op.attempts_cases state.store with ⟨idle, same⟩ | ⟨claimed, issued, counts⟩
    · rw [idle, List.nil_append, same]
      exact before
    · rw [issued, List.singleton_append, List.filter_cons, counts]
      by_cases own : claimed = id
      · subst own
        rw [if_pos rfl, if_pos (decide_eq_true rfl), List.map_cons, countdown]
        exact congrArg _ before
      · rw [if_neg own, if_neg (by simpa using own)]
        exact before

/-- **A token that still matches its row is the latest one.** -/
theorem latest_of_attempt {state : Queue} (fenced : state.Fenced) {token : Token} {row : Row}
    (issued : token ∈ state.issued) (found : state.store.submissions.get token.id = some row)
    (own : row.attempt = token.attempt.toNat) : state.latest token.id = some token := by
  have inside : token ∈ state.tokens token.id :=
    List.mem_filter.mpr ⟨issued, decide_eq_true rfl⟩
  have counts := fenced token.id
  rw [Store.attempts_of_get found, own] at counts
  rw [Queue.latest]
  cases all : state.tokens token.id with
  | nil =>
    rw [all] at inside
    cases inside
  | cons first rest =>
    have listed : first ∈ state.tokens token.id := by
      rw [all]
      exact List.mem_cons_self
    have id : first.id = token.id := of_decide_eq_true (List.mem_filter.mp listed).2
    rw [all, List.map_cons] at counts
    cases positive : token.attempt.toNat with
    | zero =>
      rw [positive] at counts
      cases counts
    | succ n =>
      rw [positive, countdown, ← positive, UInt32.ofNat_toNat] at counts
      have attempt : first.attempt = token.attempt := (List.cons.inj counts).1
      have same : first = token := by
        cases first
        cases token
        cases id
        cases attempt
        rfl
      rw [same]
      rfl

/-- **No two claims returned the same token.** -/
theorem nodup_issued {state : Queue} (fenced : state.Fenced)
    (few : ∀ id, (state.tokens id).length < 2 ^ 32) : state.issued.Nodup := by
  refine List.nodup_iff_count_le_one.mpr fun token => ?_
  have lengths := congrArg List.length (fenced token.id)
  rw [List.length_map, length_countdown] at lengths
  have nodup : (state.tokens token.id).Nodup := by
    apply List.Nodup.of_map Token.attempt
    rw [fenced token.id]
    apply nodup_countdown
    rw [← lengths]
    exact few token.id
  have same : (state.tokens token.id).count token = state.issued.count token := by
    rw [Queue.tokens]
    exact List.count_filter (decide_eq_true rfl)
  rw [← same]
  exact List.nodup_iff_count_le_one.mp nodup token

/-! ### Runs -/

/-- The operation that makes a submission done. -/
def completes (id : String) (taken : Transition Queue Op) : Bool :=
  !taken.before.isDone id && taken.after.isDone id

theorem Settled.perform {id : String} {row : Row} {state : Queue} (settled : Settled id row state)
    (op : Op) : Settled id row (state.perform op) := by
  obtain ⟨next, found, moved⟩ := Op.row_cases op settled.1
  rw [moved.of_done settled.2] at found
  exact ⟨found, settled.2⟩

theorem isDone_perform {id : String} {state : Queue} (op : Op) (done : state.isDone id = true) :
    (state.perform op).isDone id = true := by
  obtain ⟨row, settled⟩ := isDone_iff.mp done
  exact isDone_iff.mpr ⟨row, settled.perform op⟩

theorem settled_stays {id : String} {row : Row} {before after : Queue} {op : Op}
    (step : queue.step before op after) (settled : Settled id row before) :
    Settled id row after := by
  obtain ⟨_, rfl⟩ := step
  exact settled.perform op

theorem isDone_stays {id : String} {before after : Queue} {op : Op}
    (step : queue.step before op after) (done : before.isDone id = true) :
    after.isDone id = true := by
  obtain ⟨_, rfl⟩ := step
  exact isDone_perform op done

/-- **Fencing and exactly-once termination.** -/
theorem queue_is_fenced {steps : List (Transition Queue Op)} {state : Queue}
    (run : queue.Run steps state) (few : ∀ id, (state.tokens id).length < 2 ^ 32) :
    (∀ taken ∈ steps, ∀ id row, taken.before.store.submissions.get id = some row →
      ∃ next, taken.after.store.submissions.get id = some next ∧ row.attempt ≤ next.attempt) ∧
    state.issued.Nodup ∧
    (∀ taken ∈ steps, ∀ token, taken.label.token? = some token →
      (taken.label.applied taken.before.store = true →
        taken.before.latest token.id = some token) ∧
      (taken.before.latest token.id ≠ some token →
        taken.after.store = taken.before.store)) ∧
    (∀ id, steps.countP (completes id) ≤ 1) ∧
    (∀ taken ∈ steps, ∀ id row, taken.before.store.submissions.get id = some row →
      row.status = .done → taken.after.store.submissions.get id = some row) := by
  refine ⟨?_, nodup_issued (fenced_invariant.of_run run) few, ?_, ?_, ?_⟩
  · intro taken member id row found
    obtain ⟨_, _, same⟩ := fenced_invariant.of_transition run member
    obtain ⟨next, found', moved⟩ := Op.row_cases taken.label found
    refine ⟨next, by rw [same]; exact found', ?_⟩
    rcases moved.attempt with same | ⟨_, _, _, more⟩ <;> omega
  · intro taken member token writes
    obtain ⟨fenced, permitted, same⟩ := fenced_invariant.of_transition run member
    have issued : token ∈ taken.before.issued := permitted.issued writes
    rcases Op.write_cases taken.before.store writes with
      ⟨idle, passed⟩ | ⟨row, change, _, found, own, _, _⟩
    · refine ⟨fun applied => ?_, fun _ => by rw [same]; exact passed⟩
      rw [idle] at applied
      cases applied
    · have latest := latest_of_attempt fenced issued found own
      exact ⟨fun _ => latest, fun other => absurd latest other⟩
  · intro id
    have stable : ∀ before op after, before.Fenced → queue.step before op after →
        before.isDone id = true → after.isDone id = true :=
      fun _ _ _ _ step done => isDone_stays step done
    refine run.countP_le_one fenced_invariant stable (completes id) fun taken _ ends => ?_
    simp only [completes, Bool.and_eq_true, Bool.not_eq_true'] at ends
    exact ⟨by rw [ends.1]; exact Bool.false_ne_true, ends.2⟩
  · intro taken member id row found done
    have step := (fenced_invariant.of_transition run member).2
    exact (settled_stays step ⟨found, done⟩).1

theorem queue_is_fenced_sample :
    (Queue.trace ⟨.empty, []⟩ (sampleOps sampleResult) []).countP (completes "s1") ≤ 1 := by
  refine (queue_is_fenced (sampleOps_run sampleResult) fun id => ?_).2.2.2.1 _
  refine Nat.lt_of_le_of_lt (List.length_filter_le _ _) ?_
  decide

end Codexec.Server
