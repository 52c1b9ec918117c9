/-
**Streams and the hub.**

A stream `Learns` when it has emitted the DONE state, starts with it, or has it in its buffer; a poll
loses nothing, and a receiver that lags loses its oldest state only. Every live receiver is on the
channel the hub has for its submission (`Attached`), so a published state reaches exactly the
receivers of its submission.
-/

import Codexec.Server.Hub

namespace Codexec.Server

open Codexec Codexec.Library

/-! ### Streams -/

/-- The DONE state of a submission. -/
def Final (id : String) (sub : Submission) : Prop := sub.id = id ∧ sub.status = .done

theorem final_of_done {store : Store} {id : String} {row : Row}
    (found : store.submissions.get id = some row) (done : row.status = .done) :
    Final id row.toSubmission := by
  have key : row.id = id := Table.get_key found
  exact ⟨key, done⟩

/-- The state to emit first. -/
def StreamPhase.first : StreamPhase → Option Submission
  | .streaming first _ => first
  | _ => none

namespace Stream

/-- The response has started and has not ended. -/
def Open (self : Stream) : Prop := ∃ first finished, self.phase = .streaming first finished

/-- DONE was emitted, or is the first state, or waits in the receive buffer. -/
def Learns (self : Stream) : Prop :=
  ∃ sub, Final self.id sub ∧
    (sub ∈ self.emitted ∨ self.phase.first = some sub ∨ sub ∈ self.waiting)

/-- Without the state that a full buffer loses next. -/
def lagging (self : Stream) : Stream := { self with waiting := self.waiting.tail }

/-- A change that leaves the receiver on its channel. -/
structure Steady (before after : Stream) : Prop where
  id : after.id = before.id
  channel : after.channel = before.channel
  live : after.live = true → before.live = true
  waiting : after.waiting.length ≤ before.waiting.length

variable {self : Stream}

theorem Open.live (opened : self.Open) : self.live = true := by
  obtain ⟨first, finished, phase⟩ := opened
  rw [Stream.live, phase]
  exact decide_eq_true (by simp)

theorem steady_opened (waits : self.phase = .subscribed)
    (reply : Except StoreError (Option Submission)) : Steady self (self.opened reply) := by
  have live : self.live = true := by
    rw [Stream.live, waits]
    rfl
  unfold opened
  split <;> exact ⟨rfl, rfl, fun _ => live, le_refl _⟩

theorem steady_closed : Steady self { self with phase := .closed } where
  id := rfl
  channel := rfl
  live closed := by cases closed
  waiting := le_refl _

theorem steady_emit (live : self.live = true) (sub : Submission) : Steady self (self.emit sub) :=
  ⟨rfl, rfl, fun _ => live, le_refl _⟩

theorem steady_poll (connected : Bool) : Steady self (self.poll connected) := by
  unfold poll
  split
  · exact steady_closed
  · rename_i sub phase
    exact steady_emit (Open.live ⟨_, _, phase⟩) sub
  · rename_i phase
    split
    · rename_i sub rest waiting
      refine ⟨rfl, rfl, fun _ => Open.live ⟨_, _, phase⟩, ?_⟩
      rw [waiting]
      exact Nat.le_succ _
    · by_cases open? : connected = true
      · rw [if_pos open?]
        exact ⟨rfl, rfl, fun live => live, le_refl _⟩
      · rw [if_neg open?]
        exact steady_closed
  · exact ⟨rfl, rfl, fun live => live, le_refl _⟩

theorem open_of_poll {connected : Bool} (opened : (self.poll connected).Open) : self.Open := by
  unfold poll at opened
  split at opened
  · rename_i phase
    exact ⟨_, _, phase⟩
  · rename_i phase
    exact ⟨_, _, phase⟩
  · rename_i phase
    exact ⟨_, _, phase⟩
  · exact opened

/-- **A poll loses nothing.** -/
theorem Learns.poll {connected : Bool} (learns : self.Learns)
    (opened : (self.poll connected).Open) : (self.poll connected).Learns := by
  obtain ⟨sub, final, where_⟩ := learns
  unfold Stream.poll at opened ⊢
  split at opened
  · obtain ⟨_, _, phase⟩ := opened
    cases phase
  · rename_i first phase
    refine ⟨sub, final, ?_⟩
    rcases where_ with emitted | first' | waiting
    · exact Or.inl (List.mem_append_left _ emitted)
    · rw [phase] at first'
      cases first'
      exact Or.inl (List.mem_append_right _ (List.mem_singleton_self _))
    · exact Or.inr (Or.inr waiting)
  · rename_i phase
    cases waits : self.waiting with
    | cons head rest =>
      refine ⟨sub, final, ?_⟩
      rcases where_ with emitted | first' | waiting
      · exact Or.inl (List.mem_append_left _ emitted)
      · rw [phase] at first'
        cases first'
      · rw [waits] at waiting
        rcases List.mem_cons.mp waiting with rfl | later
        · exact Or.inl (List.mem_append_right _ (List.mem_singleton_self _))
        · exact Or.inr (Or.inr later)
    | nil =>
      rw [waits] at opened
      by_cases open? : connected = true
      · simp only [if_pos open?]
        exact ⟨sub, final, where_⟩
      · simp only [if_neg open?] at opened
        obtain ⟨_, _, phase⟩ := opened
        cases phase
  · exact ⟨sub, final, where_⟩

/-- A stream that has emitted nothing and starts with another state waits for DONE. -/
theorem not_learns {sub : Submission} (emitted : self.emitted = [])
    (first : self.phase.first = some sub) (waiting : self.waiting = [])
    (live : sub.status ≠ .done) : ¬ self.Learns := by
  rintro ⟨done, final, inside | same | inside⟩
  · rw [emitted] at inside
    cases inside
  · rw [first] at same
    exact live (Option.some.inj same ▸ final.2)
  · rw [waiting] at inside
    cases inside

/-- A receiver that is given the DONE state has it. -/
theorem learns_receive {sub : Submission} (final : Final self.id sub) :
    (self.receive sub).Learns :=
  ⟨sub, final, Or.inr (Or.inr (Ring.mem_push (by decide)))⟩

/-- **A receiver keeps the DONE state** if it has room, or has DONE apart from its oldest state. -/
theorem Learns.receive {sub : Submission} (learns : self.Learns)
    (fits : self.waiting.length ≤ 64)
    (kept : self.waiting.length < 64 ∨ self.lagging.Learns) : (self.receive sub).Learns := by
  by_cases room : self.waiting.length < 64
  · obtain ⟨done, final, emitted | first | waiting⟩ := learns
    · exact ⟨done, final, Or.inl emitted⟩
    · exact ⟨done, final, Or.inr (Or.inl first)⟩
    · refine ⟨done, final, Or.inr (Or.inr ?_)⟩
      show done ∈ Ring.push 64 self.waiting sub
      rw [Ring.push_of_room room]
      exact List.mem_append_left _ waiting
  · have full : self.waiting.length = 64 := by omega
    obtain ⟨done, final, emitted | first | waiting⟩ := kept.resolve_left room
    · exact ⟨done, final, Or.inl emitted⟩
    · exact ⟨done, final, Or.inr (Or.inl first)⟩
    · refine ⟨done, final, Or.inr (Or.inr ?_)⟩
      show done ∈ Ring.push 64 self.waiting sub
      rw [Ring.push_of_full full (by decide)]
      exact List.mem_append_left _ waiting

end Stream

/-! ### The hub -/

namespace Hub

/-- Every receiver is on the channel that the hub has for its submission. -/
structure Attached (hub : Hub) : Prop where
  live : ∀ stream ∈ hub.streams.rows, stream.live = true →
    hub.channels stream.id = some stream.channel
  apart : ∀ id other channel, hub.channels id = some channel →
    hub.channels other = some channel → id = other
  created : ∀ id channel, hub.channels id = some channel → channel < hub.created
  fits : ∀ stream ∈ hub.streams.rows, stream.waiting.length ≤ 64

variable {self : Hub}

theorem attached_empty : Hub.empty.Attached where
  live stream inside := absurd inside List.not_mem_nil
  apart _ _ _ found := by cases found
  created _ _ found := by cases found
  fits stream inside := absurd inside List.not_mem_nil

/-- Who is there after one stream has changed. -/
theorem mem_change {number : Nat} {set : Stream → Stream}
    {keeps : ∀ stream, (set stream).number = stream.number} {after : Stream}
    (inside : after ∈ (self.change number set keeps).streams.rows) :
    ∃ stream ∈ self.streams.rows,
      after = stream ∨ stream.number = number ∧ after = set stream := by
  have inside : after ∈ (self.streams.update _ set keeps).rows := inside
  obtain ⟨stream, member, same⟩ := Table.mem_update.mp inside
  refine ⟨stream, member, ?_⟩
  by_cases own : stream.number = number
  · rw [if_pos (decide_eq_true own)] at same
    exact Or.inr ⟨own, same.symm⟩
  · rw [if_neg (by simpa using own)] at same
    exact Or.inl same.symm

theorem Attached.change {number : Nat} {set : Stream → Stream}
    {keeps : ∀ stream, (set stream).number = stream.number} (attached : self.Attached)
    (steady : ∀ stream ∈ self.streams.rows, stream.number = number →
      Stream.Steady stream (set stream)) : (self.change number set keeps).Attached where
  live after inside live := by
    obtain ⟨stream, member, rfl | ⟨own, rfl⟩⟩ := mem_change inside
    · exact attached.live _ member live
    · have step := steady stream member own
      rw [step.id, step.channel]
      exact attached.live stream member (step.live live)
  apart := attached.apart
  created := attached.created
  fits after inside := by
    obtain ⟨stream, member, rfl | ⟨own, rfl⟩⟩ := mem_change inside
    · exact attached.fits _ member
    · exact (steady stream member own).waiting.trans (attached.fits stream member)

/-- **A state reaches the receivers of its submission, and no others.** -/
theorem mem_publish {sub : Submission} {after : Stream} (attached : self.Attached)
    (inside : after ∈ (self.publish sub).streams.rows) :
    ∃ stream ∈ self.streams.rows, after = stream ∧ (stream.live = true → stream.id ≠ sub.id) ∨
      stream.live = true ∧ stream.id = sub.id ∧ after = stream.receive sub := by
  unfold publish at inside
  cases known : self.channels sub.id with
  | none =>
    rw [known] at inside
    refine ⟨after, inside, Or.inl ⟨rfl, fun live same => ?_⟩⟩
    have found := attached.live after inside live
    rw [same, known] at found
    cases found
  | some channel =>
    rw [known] at inside
    have inside : after ∈ (self.streams.update (listens channel) (·.receive sub)
      fun _ => rfl).rows := inside
    obtain ⟨stream, member, same⟩ := Table.mem_update.mp inside
    refine ⟨stream, member, ?_⟩
    by_cases hears : listens channel stream = true
    · rw [if_pos hears] at same
      obtain ⟨own, live⟩ := Bool.and_eq_true_iff.mp hears
      have found := attached.live stream member live
      rw [of_decide_eq_true own] at found
      exact Or.inr ⟨live, attached.apart _ _ _ found known, same.symm⟩
    · rw [if_neg hears] at same
      refine Or.inl ⟨same.symm, fun live own => hears ?_⟩
      have found := attached.live stream member live
      rw [own, known] at found
      rw [listens, live, Bool.and_true, Option.some.inj found]
      exact decide_eq_true rfl

theorem publish_channels (sub : Submission) : (self.publish sub).channels = self.channels := by
  unfold publish
  split <;> rfl

theorem publish_created (sub : Submission) : (self.publish sub).created = self.created := by
  unfold publish
  split <;> rfl

theorem Attached.publish (attached : self.Attached) (sub : Submission) :
    (self.publish sub).Attached where
  live after inside live := by
    rw [publish_channels]
    obtain ⟨stream, member, ⟨rfl, _⟩ | ⟨_, _, rfl⟩⟩ := mem_publish attached inside
    · exact attached.live _ member live
    · exact attached.live stream member live
  apart := by
    rw [publish_channels]
    exact attached.apart
  created := by
    rw [publish_channels, publish_created]
    exact attached.created
  fits after inside := by
    obtain ⟨stream, member, ⟨rfl, _⟩ | ⟨_, _, rfl⟩⟩ := mem_publish attached inside
    · exact attached.fits _ member
    · exact Ring.length_push (attached.fits stream member)

theorem Attached.prune (attached : self.Attached) : self.prune.Attached where
  live stream inside live := by
    have found := attached.live stream inside live
    have heard : 0 < self.streams.affected (listens stream.channel) := by
      refine List.countP_pos_iff.mpr ⟨stream, inside, ?_⟩
      rw [listens, live, Bool.and_true]
      exact decide_eq_true rfl
    show (self.channels stream.id).filter _ = _
    rw [found, Option.filter_some, if_pos (decide_eq_true heard)]
  apart id other channel found found' :=
    attached.apart id other channel (Option.eq_some_of_filter_eq_some found)
      (Option.eq_some_of_filter_eq_some found')
  created id channel found :=
    attached.created id channel (Option.eq_some_of_filter_eq_some found)
  fits := attached.fits

theorem subscribe_channels (id : String) (number : Nat) (fresh : self.streams.get number = none) :
    (self.subscribe id number fresh).channels =
      Function.update self.channels id (some (self.channelOf id)) := rfl

theorem Attached.subscribe (attached : self.Attached) (id : String) (number : Nat)
    (fresh : self.streams.get number = none) : (self.subscribe id number fresh).Attached := by
  -- A channel after the subscription is an old one, or the new one of this submission.
  have cases : ∀ other channel, (self.subscribe id number fresh).channels other = some channel →
      self.channels other = some channel ∨
        other = id ∧ self.channels id = none ∧ channel = self.created := by
    intro other channel found
    by_cases own : other = id
    · subst own
      rw [subscribe_channels, Function.update_self, channelOf] at found
      cases known : self.channels other with
      | none =>
        rw [known] at found
        exact Or.inr ⟨rfl, rfl, (Option.some.inj found).symm⟩
      | some old =>
        rw [known] at found
        exact Or.inl found
    · rw [subscribe_channels, Function.update_of_ne own] at found
      exact Or.inl found
  refine ⟨?_, ?_, ?_, ?_⟩
  · intro stream inside live
    rcases List.mem_append.mp inside with old | new
    · have found := attached.live stream old live
      by_cases own : stream.id = id
      · rw [subscribe_channels, own, Function.update_self, channelOf, ← own, found]
        rfl
      · rw [subscribe_channels, Function.update_of_ne own, found]
    · rw [List.mem_singleton] at new
      rw [new]
      exact Function.update_self _ _ _
  · intro one other channel found found'
    rcases cases one channel found with old | ⟨rfl, none, rfl⟩
    · rcases cases other channel found' with old' | ⟨_, _, rfl⟩
      · exact attached.apart one other channel old old'
      · exact absurd (attached.created one _ old) (lt_irrefl _)
    · rcases cases other _ found' with old' | ⟨same, _, _⟩
      · exact absurd (attached.created other _ old') (lt_irrefl _)
      · exact same.symm
  · intro other channel found
    rcases cases other channel found with old | ⟨_, none, rfl⟩
    · refine lt_of_lt_of_le (attached.created other channel old) ?_
      show self.created ≤ if (self.channels id).isSome then self.created else self.created + 1
      split <;> omega
    · show self.created < if (self.channels id).isSome then self.created else self.created + 1
      rw [none]
      exact Nat.lt_succ_self _
  · intro stream inside
    rcases List.mem_append.mp inside with old | new
    · exact attached.fits stream old
    · rw [List.mem_singleton] at new
      rw [new]
      exact Nat.zero_le _

end Hub

end Codexec.Server
