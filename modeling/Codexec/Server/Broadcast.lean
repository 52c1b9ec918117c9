/-
**The hub on its own.**

Subscriptions, publications, prunings and readers in any order and at any pace. `Goes` says what one
action does to one receiver. Over a run, every live receiver is on the channel of its submission,
and what a stream emits is the row it read, then states that were published after its subscription,
in order, up to the first DONE (`streams_keep_shape`). The receive buffer loses only states that 64
newer ones followed, which is `Ring.Traces`.
-/

import Codexec.Server.Streams
import Codexec.Server.Working

namespace Codexec.Server

open Codexec Codexec.Library Machine

/-- The name of the event of a state; its data can always be written as JSON. -/
def Submission.event (sub : Submission) : String :=
  if sub.status = .done then "verdict" else "progress"

theorem Submission.event_eq_verdict {sub : Submission} :
    sub.event = "verdict" ↔ sub.status = .done := by
  unfold event
  split <;> simp [*]

/-! ### The machine -/

inductive Act
  | subscribe (id : String) (number : Nat)
  | publish (sub : Submission)
  | prune
  | opened (number : Nat) (reply : Except StoreError (Option Submission))
  | polled (number : Nat)
  | hungUp (number : Nat)

/-- One action on the hub. -/
inductive Acts : Hub → Act → Hub → Prop
  | subscribe {hub : Hub} (id : String) (number : Nat) (fresh : hub.streams.get number = none) :
      Acts hub (.subscribe id number) (hub.subscribe id number fresh)
  | publish {hub : Hub} (sub : Submission) : Acts hub (.publish sub) (hub.publish sub)
  | prune {hub : Hub} : Acts hub .prune hub.prune
  | opened {hub : Hub} (number : Nat) (reply : Except StoreError (Option Submission))
      {stream : Stream} (found : hub.streams.get number = some stream)
      (waits : stream.phase = .subscribed) :
      Acts hub (.opened number reply) (hub.opened number reply)
  | polled {hub : Hub} (number : Nat) {stream : Stream}
      (found : hub.streams.get number = some stream) :
      Acts hub (.polled number) (hub.polled number stream)
  | hungUp {hub : Hub} (number : Nat) : Acts hub (.hungUp number) (hub.hungUp number)

/-- Any interleaving, from a hub without channels. -/
def broadcast : Machine Hub Act where
  start hub := hub = .empty
  step := Acts

/-! ### One action and one receiver -/

/-- What an action does to a receiver. -/
inductive Goes : Act → Stream → Stream → Prop
  | same {act : Act} {stream : Stream}
      (deaf : ∀ sub, act = .publish sub → stream.live = true → stream.id ≠ sub.id) :
      Goes act stream stream
  | received {sub : Submission} {stream : Stream} (live : stream.live = true)
      (own : stream.id = sub.id) : Goes (.publish sub) stream (stream.receive sub)
  | opened {stream : Stream} {reply : Except StoreError (Option Submission)}
      (waits : stream.phase = .subscribed) :
      Goes (.opened stream.number reply) stream (stream.opened reply)
  | polled {stream : Stream} {connected : Bool} (joined : stream.live = true → connected = true) :
      Goes (.polled stream.number) stream (stream.poll connected)
  | hungUp {stream : Stream} :
      Goes (.hungUp stream.number) stream { stream with phase := .closed }

namespace Hub

variable {self : Hub}

theorem get_change {number wanted : Nat} {set : Stream → Stream}
    {keeps : ∀ stream, (set stream).number = stream.number} :
    (self.change number set keeps).streams.get wanted = (self.streams.get wanted).map fun stream =>
      if stream.number = number then set stream else stream := by
  rw [change, Table.get_update]
  simp

theorem get_change_of_some {number wanted : Nat} {set : Stream → Stream}
    {keeps : ∀ stream, (set stream).number = stream.number} {stream : Stream}
    (found : self.streams.get wanted = some stream) :
    (self.change number set keeps).streams.get wanted =
      some (if stream.number = number then set stream else stream) := by
  rw [get_change, found, Option.map_some]

theorem get_subscribe {id : String} {number wanted : Nat}
    {fresh : self.streams.get number = none} :
    (self.subscribe id number fresh).streams.get wanted =
      if number = wanted then some (self.receiver id number) else self.streams.get wanted :=
  Table.get_insert _ _ fresh wanted

theorem get_publish_of_channel {sub : Submission} {channel number : Nat}
    (known : self.channels sub.id = some channel) :
    (self.publish sub).streams.get number = (self.streams.get number).map fun stream =>
      if listens channel stream then stream.receive sub else stream := by
  unfold publish
  rw [known]
  exact Table.get_update self.streams (listens channel) (·.receive sub) (fun _ => rfl) number

theorem get_publish_of_none {sub : Submission} {number : Nat}
    (absent : self.streams.get number = none) : (self.publish sub).streams.get number = none := by
  cases known : self.channels sub.id with
  | none =>
    unfold publish
    rw [known]
    exact absent
  | some channel => rw [get_publish_of_channel known, absent, Option.map_none]

/-- **A published state reaches every live receiver of its submission.** -/
theorem get_publish (attached : self.Attached) {number : Nat} {stream : Stream}
    (found : self.streams.get number = some stream) (sub : Submission) :
    (self.publish sub).streams.get number =
      some (if stream.live = true ∧ stream.id = sub.id then stream.receive sub else stream) := by
  have inside := (Table.get_eq_some.mp found).1
  cases known : self.channels sub.id with
  | none =>
    have deaf : ¬ (stream.live = true ∧ stream.id = sub.id) := by
      rintro ⟨live, own⟩
      have joined := attached.live stream inside live
      rw [own, known] at joined
      cases joined
    unfold publish
    rw [if_neg deaf, known]
    exact found
  | some channel =>
    have hears : listens channel stream = true ↔ stream.live = true ∧ stream.id = sub.id := by
      rw [listens, Bool.and_eq_true, decide_eq_true_eq, and_comm]
      refine and_congr_right fun live => ?_
      have joined := attached.live stream inside live
      constructor
      · rintro rfl
        exact attached.apart _ _ _ joined known
      · intro own
        rw [own, known] at joined
        exact (Option.some.inj joined).symm
    rw [get_publish_of_channel known, found, Option.map_some]
    simp only [hears]

end Hub

theorem attached_invariant : broadcast.Invariant Hub.Attached where
  start := by
    rintro _ rfl
    exact Hub.attached_empty
  step hub act after attached step := by
    cases step with
    | subscribe id number fresh => exact attached.subscribe id number fresh
    | publish sub => exact attached.publish sub
    | prune => exact attached.prune
    | opened number reply found waits =>
      refine attached.change fun other inside own => Stream.steady_opened ?_ reply
      have same := Table.get_of_mem inside
      rw [own, found] at same
      cases same
      exact waits
    | polled number found => exact attached.change fun other _ _ => Stream.steady_poll _
    | hungUp number => exact attached.change fun other _ _ => Stream.steady_closed

/-- An action that changes one receiver, or none. -/
theorem Goes.of_change {hub : Hub} {act : Act} {number other : Nat} {set : Stream → Stream}
    {keeps : ∀ stream, (set stream).number = stream.number} {stream : Stream}
    (found : hub.streams.get number = some stream) (silent : ∀ sub, act ≠ .publish sub)
    (own : number = other → Goes act stream (set stream)) :
    ∃ next, (hub.change other set keeps).streams.get number = some next ∧
      Goes act stream next := by
  refine ⟨_, Hub.get_change_of_some found, ?_⟩
  rw [Table.get_key found]
  split
  · rename_i same
    exact own same
  · exact .same fun sub publishes => absurd publishes (silent sub)

/-- **What an action does to a receiver that exists.** -/
theorem Acts.goes {hub after : Hub} {act : Act} (attached : hub.Attached)
    (step : Acts hub act after) {number : Nat} {stream : Stream}
    (found : hub.streams.get number = some stream) :
    ∃ next, after.streams.get number = some next ∧ Goes act stream next := by
  have key : stream.number = number := Table.get_key found
  have inside := (Table.get_eq_some.mp found).1
  cases step with
  | subscribe id other fresh =>
    have apart : other ≠ number := by
      rintro rfl
      rw [found] at fresh
      cases fresh
    refine ⟨stream, ?_, .same fun _ publishes => by cases publishes⟩
    rw [Hub.get_subscribe, if_neg apart, found]
  | publish sub =>
    refine ⟨_, Hub.get_publish attached found sub, ?_⟩
    by_cases hears : stream.live = true ∧ stream.id = sub.id
    · rw [if_pos hears]
      exact .received hears.1 hears.2
    · rw [if_neg hears]
      refine .same fun other publishes live own => ?_
      cases publishes
      exact hears ⟨live, own⟩
  | prune => exact ⟨stream, found, .same fun _ publishes => by cases publishes⟩
  | opened other reply found' waits =>
    refine Goes.of_change found (fun _ publishes => by cases publishes) fun own => ?_
    subst own
    cases found.symm.trans found'
    rw [← key]
    exact .opened waits
  | polled other found' =>
    refine Goes.of_change found (fun _ publishes => by cases publishes) fun own => ?_
    subst own
    cases found.symm.trans found'
    rw [← key]
    exact .polled fun live => decide_eq_true (attached.live stream inside live)
  | hungUp other =>
    refine Goes.of_change found (fun _ publishes => by cases publishes) fun own => ?_
    rw [← own, ← key]
    exact .hungUp

/-- **A receiver that did not exist was subscribed.** -/
theorem Acts.fresh {hub after : Hub} {act : Act} (step : Acts hub act after) {number : Nat}
    {stream : Stream} (absent : hub.streams.get number = none)
    (found : after.streams.get number = some stream) :
    ∃ id, act = .subscribe id number ∧ stream = hub.receiver id number := by
  cases step with
  | subscribe id other fresh =>
    rw [Hub.get_subscribe] at found
    split at found
    · rename_i own
      cases own
      cases found
      exact ⟨id, rfl, rfl⟩
    · rw [absent] at found
      cases found
  | publish sub =>
    rw [Hub.get_publish_of_none absent] at found
    cases found
  | prune =>
    cases absent.symm.trans found
  | opened other reply _ _ =>
    rw [Hub.opened, Hub.get_change, absent] at found
    cases found
  | polled other _ =>
    rw [Hub.polled, Hub.get_change, absent] at found
    cases found
  | hungUp other =>
    rw [Hub.hungUp, Hub.get_change, absent] at found
    cases found

/-! ### What a stream has emitted -/

/-- A stream starts with a state that was read, and emits DONE at most once, as its last state. -/
inductive Stage (read : Submission → Prop) : StreamPhase → List Submission → Prop
  | subscribed : Stage read .subscribed []
  | ready {row : Submission} (first : read row) : Stage read (.streaming (some row) false) []
  | going {row : Submission} {later : List Submission} (first : read row)
      (live : ∀ sub ∈ row :: later, sub.status ≠ .done) :
      Stage read (.streaming none false) (row :: later)
  | finished {emitted : List Submission} {last : Submission}
      (first : ∀ row, (emitted ++ [last]).head? = some row → read row)
      (live : ∀ sub ∈ emitted, sub.status ≠ .done) (done : last.status = .done) :
      Stage read (.streaming none true) (emitted ++ [last])
  | closed {emitted : List Submission} (first : ∀ row, emitted.head? = some row → read row)
      (live : ∀ sub ∈ emitted.dropLast, sub.status ≠ .done) : Stage read .closed emitted

namespace Stage

variable {read read' : Submission → Prop} {phase : StreamPhase} {emitted : List Submission}

theorem first (stage : Stage read phase emitted) {row : Submission}
    (head : emitted.head? = some row) : read row := by
  cases stage with
  | subscribed => cases head
  | ready _ => cases head
  | going first _ =>
    cases head
    exact first
  | finished first _ _ => exact first row head
  | closed first _ => exact first row head

/-- DONE is the last state. -/
theorem live (stage : Stage read phase emitted) : ∀ sub ∈ emitted.dropLast, sub.status ≠ .done := by
  intro sub inside
  cases stage with
  | subscribed => cases inside
  | ready _ => cases inside
  | going _ live => exact live sub (List.mem_of_mem_dropLast inside)
  | finished _ live _ =>
    rw [List.dropLast_concat] at inside
    exact live sub inside
  | closed _ live => exact live sub inside

theorem close (stage : Stage read phase emitted) : Stage read .closed emitted :=
  .closed (fun _ => stage.first) stage.live

theorem mono (stage : Stage read phase emitted) (more : ∀ row, read row → read' row) :
    Stage read' phase emitted := by
  cases stage with
  | subscribed => exact .subscribed
  | ready first => exact .ready (more _ first)
  | going first live => exact .going (more _ first) live
  | finished first live done =>
    exact .finished (fun row head => more row (first row head)) live done
  | closed first live => exact .closed (fun row head => more row (first row head)) live

theorem of_subscribed (stage : Stage read .subscribed emitted) : emitted = [] := by
  cases stage
  rfl

theorem of_ready {row : Submission} (stage : Stage read (.streaming (some row) false) emitted) :
    emitted = [] ∧ read row := by
  cases stage with
  | ready first => exact ⟨rfl, first⟩

theorem of_going (stage : Stage read (.streaming none false) emitted) :
    emitted ≠ [] ∧ ∀ sub ∈ emitted, sub.status ≠ .done := by
  cases stage with
  | going _ live => exact ⟨List.cons_ne_nil _ _, live⟩

/-- A stream that has emitted DONE ends with its next poll. -/
theorem ends {stream : Stream} (stage : Stage read stream.phase stream.emitted) {sub : Submission}
    (inside : sub ∈ stream.emitted) (done : sub.status = .done) (connected : Bool) :
    (stream.poll connected).phase = .closed ∧
      (stream.poll connected).emitted = stream.emitted := by
  obtain ⟨number, id, channel, waiting, phase, emitted⟩ := stream
  cases stage with
  | subscribed => cases inside
  | ready _ => cases inside
  | going _ live => exact absurd done (live sub inside)
  | finished _ _ _ => exact ⟨rfl, rfl⟩
  | closed _ _ => exact ⟨rfl, rfl⟩

/-- One more state is emitted. -/
theorem emit {stream : Stream} {sub : Submission}
    (first : ∀ row, (stream.emitted ++ [sub]).head? = some row → read row)
    (live : ∀ other ∈ stream.emitted, other.status ≠ .done) :
    Stage read (stream.emit sub).phase (stream.emit sub).emitted := by
  show Stage read (.streaming none (decide (sub.status = .done))) (stream.emitted ++ [sub])
  by_cases done : sub.status = .done
  · rw [decide_eq_true done]
    exact .finished first live done
  · rw [decide_eq_false done]
    have all : ∀ other ∈ stream.emitted ++ [sub], other.status ≠ .done := by
      intro other inside
      rcases List.mem_append.mp inside with old | new
      · exact live other old
      · rw [List.mem_singleton.mp new]
        exact done
    revert all first
    cases stream.emitted with
    | nil => exact fun first all => .going (first sub rfl) all
    | cons row later => exact fun first all => .going (first row rfl) all

end Stage

/-- **What a poll does.** -/
theorem poll_cases {read : Submission → Prop} {stream : Stream}
    (stage : Stage read stream.phase stream.emitted) {connected : Bool}
    (joined : stream.live = true → connected = true) :
    stream.poll connected = stream ∨
      (∃ row, stream.phase = .streaming (some row) false ∧
        stream.poll connected = stream.emit row) ∨
      (∃ sub rest, stream.phase = .streaming none false ∧ stream.waiting = sub :: rest ∧
        stream.poll connected = ({ stream with waiting := rest } : Stream).emit sub) ∨
      stream.phase = .streaming none true ∧
        stream.poll connected = { stream with phase := .closed } := by
  obtain ⟨number, id, channel, waiting, phase, emitted⟩ := stream
  cases stage with
  | subscribed => exact .inl rfl
  | @ready row _ => exact .inr (.inl ⟨row, rfl, rfl⟩)
  | going _ _ =>
    cases waiting with
    | nil => exact .inl (if_pos (joined rfl))
    | cons sub rest => exact .inr (.inr (.inl ⟨sub, rest, rfl, rfl, rfl⟩))
  | finished _ _ _ => exact .inr (.inr (.inr ⟨rfl, rfl⟩))
  | closed _ _ => exact .inl rfl

/-! ### Histories -/

/-- The state that an action publishes for a receiver. -/
def offered (number : Nat) (taken : Transition Hub Act) : List Submission :=
  match taken.label with
  | .publish sub =>
    if (taken.before.streams.get number).any fun stream => decide (stream.id = sub.id) then [sub]
    else []
  | _ => []

/-- What was published for a receiver after its subscription, oldest first. -/
def news (number : Nat) : List (Transition Hub Act) → List Submission
  | [] => []
  | taken :: earlier => news number earlier ++ offered number taken

/-- The request has read this row. -/
def ReadRow (number : Nat) (steps : List (Transition Hub Act)) (row : Submission) : Prop :=
  ∃ taken ∈ steps, taken.label = .opened number (.ok (some row))

/-- A state is published while the buffer of the receiver is full. -/
def Lags (number : Nat) (taken : Transition Hub Act) : Prop :=
  ∃ sub stream, taken.label = .publish sub ∧ taken.before.streams.get number = some stream ∧
    stream.live = true ∧ stream.id = sub.id ∧ 64 ≤ stream.waiting.length

/-- What a run says of a receiver. -/
structure Shaped (number : Nat) (steps : List (Transition Hub Act)) (stream : Stream) : Prop where
  stage : Stage (ReadRow number steps) stream.phase stream.emitted
  order : (stream.emitted.tail ++ stream.waiting).Sublist (news number steps)
  traces : stream.live = true →
    Ring.Traces 64 (news number steps) stream.emitted.tail stream.waiting
  whole : stream.live = true → (∀ taken ∈ steps, ¬ Lags number taken) →
    stream.emitted.tail ++ stream.waiting = news number steps

section Step

variable {number : Nat} {steps : List (Transition Hub Act)} {hub after : Hub} {act : Act}
  {stream next : Stream}

theorem offered_of_deaf (found : hub.streams.get number = some stream)
    (deaf : ∀ sub, act = .publish sub → stream.live = true → stream.id ≠ sub.id)
    (live : stream.live = true) : offered number ⟨hub, act, after⟩ = [] := by
  cases act with
  | publish sub =>
    have other := deaf sub rfl live
    simp [offered, found, other]
  | _ => rfl

theorem ReadRow.later {taken : Transition Hub Act} {row : Submission}
    (read : ReadRow number steps row) : ReadRow number (taken :: steps) row := by
  obtain ⟨earlier, member, label⟩ := read
  exact ⟨earlier, List.mem_cons_of_mem _ member, label⟩

/-- An action that publishes nothing for the receiver. -/
theorem Shaped.quiet {taken : Transition Hub Act} (shaped : Shaped number steps stream)
    (none : next.live = true → offered number taken = [])
    (stage : Stage (ReadRow number (taken :: steps)) next.phase next.emitted)
    (live : next.live = true → stream.live = true)
    (kept : next.emitted.tail ++ next.waiting = stream.emitted.tail ++ stream.waiting)
    (traces : ∀ sent, Ring.Traces 64 sent stream.emitted.tail stream.waiting →
      Ring.Traces 64 sent next.emitted.tail next.waiting) :
    Shaped number (taken :: steps) next := by
  refine ⟨stage, ?_, fun lives => ?_, fun lives lagless => ?_⟩
  · rw [kept, news]
    exact shaped.order.trans (List.sublist_append_left _ _)
  · rw [news, none lives, List.append_nil]
    exact traces _ (shaped.traces (live lives))
  · rw [news, none lives, List.append_nil, kept]
    exact shaped.whole (live lives) fun earlier member =>
      lagless earlier (List.mem_cons_of_mem _ member)

/-- **What one action does to the history of a receiver.** -/
theorem Shaped.step (shaped : Shaped number steps stream) (key : stream.number = number)
    (found : hub.streams.get number = some stream) (goes : Goes act stream next) :
    Shaped number (⟨hub, act, after⟩ :: steps) next := by
  have stage : Stage (ReadRow number (⟨hub, act, after⟩ :: steps)) stream.phase stream.emitted :=
    shaped.stage.mono fun _ => ReadRow.later
  cases goes with
  | same deaf => exact shaped.quiet (offered_of_deaf found deaf) stage id rfl fun _ => id
  | @received sub _ live own =>
    have one : offered number ⟨hub, .publish sub, after⟩ = [sub] := by
      simp [offered, found, own]
    have traces : Ring.Traces 64 (news number steps ++ [sub]) stream.emitted.tail
        (Ring.push 64 stream.waiting sub) := (shaped.traces live).push (by decide)
    refine ⟨stage, ?_, fun _ => ?_, fun _ lagless => ?_⟩
    · rw [news, one]
      exact traces.order
    · rw [news, one]
      exact traces
    · have room : stream.waiting.length < 64 := by
        refine Nat.lt_of_not_le fun full => ?_
        exact lagless _ List.mem_cons_self ⟨sub, stream, rfl, found, live, own, full⟩
      have before := shaped.whole live fun earlier member =>
        lagless earlier (List.mem_cons_of_mem _ member)
      show stream.emitted.tail ++ Ring.push 64 stream.waiting sub = _
      rw [Ring.push_of_room room, news, one, ← before, List.append_assoc]
  | @opened _ reply waits =>
    have live : stream.live = true := by
      rw [Stream.live, waits]
      rfl
    unfold Stream.opened
    split
    · rename_i current
      refine shaped.quiet (fun _ => rfl) ?_ (fun _ => live) rfl fun _ => id
      rw [waits] at stage
      show Stage _ (.streaming (some current) false) stream.emitted
      rw [stage.of_subscribed]
      refine .ready ⟨_, List.mem_cons_self, ?_⟩
      rw [key]
    · exact shaped.quiet (fun _ => rfl) stage.close (fun _ => live) rfl fun _ => id
  | @polled _ connected joined =>
    have quiet : offered number ⟨hub, .polled stream.number, after⟩ = [] := rfl
    rcases poll_cases stage joined with
      same | ⟨row, phase, same⟩ | ⟨sub, rest, phase, waiting, same⟩ | ⟨phase, same⟩
    · rw [same]
      exact shaped.quiet (fun _ => quiet) stage id rfl fun _ => id
    · rw [phase] at stage
      obtain ⟨empty, first⟩ := stage.of_ready
      rw [same]
      have live : stream.live = true := Stream.Open.live ⟨_, _, phase⟩
      have none : (stream.emit row).emitted.tail = stream.emitted.tail := by
        rw [Stream.emit, empty]
        rfl
      refine shaped.quiet (fun _ => quiet) (Stage.emit ?_ ?_) (fun _ => live) ?_
        fun sent traces => ?_
      · rw [empty]
        rintro _ ⟨⟩
        exact first
      · rw [empty]
        exact fun _ inside => absurd inside List.not_mem_nil
      · rw [none]
        rfl
      · rw [none]
        exact traces
    · have head : ∀ row, stream.emitted.head? = some row → _ := fun row => stage.first
      rw [phase] at stage
      obtain ⟨some, live⟩ := stage.of_going
      rw [same]
      have one : (({ stream with waiting := rest } : Stream).emit sub).emitted.tail =
          stream.emitted.tail ++ [sub] := List.tail_append_of_ne_nil some
      refine shaped.quiet (fun _ => quiet) (Stage.emit (fun row first => head row ?_) live)
        (fun _ => Stream.Open.live ⟨_, _, phase⟩) ?_ fun sent traces => ?_
      · rwa [List.head?_append_of_ne_nil _ some] at first
      · rw [one, waiting, List.append_assoc]
        rfl
      · rw [one]
        rw [waiting] at traces
        exact traces.take
    · rw [same]
      exact shaped.quiet (fun _ => quiet) stage.close (fun live => by cases live) rfl fun _ => id
  | hungUp =>
    refine shaped.quiet (fun _ => rfl) stage.close (fun live => by cases live) rfl fun _ => id

theorem shaped_receiver {id : String} (silent : news number steps = []) :
    Shaped number steps (hub.receiver id number) := by
  have none : news number steps = [] ++ [] := silent
  refine ⟨.subscribed, List.nil_sublist _, fun _ => ?_, fun _ _ => none.symm⟩
  rw [silent]
  exact Ring.Traces.start

/-- Nobody is offered anything before subscribing. -/
theorem offered_of_absent (absent : hub.streams.get number = none) :
    offered number ⟨hub, act, after⟩ = [] := by
  cases act with
  | publish sub => simp [offered, absent]
  | _ => rfl

/-- **Every receiver of a run has its history.** -/
theorem shaped_of_run (run : broadcast.Run steps hub) :
    (∀ number, hub.streams.get number = none → news number steps = []) ∧
      ∀ number stream, hub.streams.get number = some stream → Shaped number steps stream := by
  induction run with
  | start initial =>
    cases initial
    exact ⟨fun _ _ => rfl, fun _ _ found => by cases found⟩
  | @next steps hub after act earlier step ih =>
    obtain ⟨silent, shaped⟩ := ih
    have attached := attached_invariant.of_run earlier
    have quiet (number : Nat) (absent : hub.streams.get number = none) :
        news number (⟨hub, act, after⟩ :: steps) = [] := by
      rw [news, silent number absent, offered_of_absent absent]
      rfl
    constructor
    · intro number absent
      cases found : hub.streams.get number with
      | none => exact quiet number found
      | some stream =>
        obtain ⟨next, found', _⟩ := step.goes attached found
        cases absent.symm.trans found'
    · intro number next found'
      cases found : hub.streams.get number with
      | none =>
        obtain ⟨id, _, rfl⟩ := step.fresh found found'
        exact shaped_receiver (quiet number found)
      | some stream =>
        obtain ⟨next', held, goes⟩ := step.goes attached found
        cases found'.symm.trans held
        exact (shaped number stream found).step (Table.get_key found) found goes

end Step

/-! ### The shape of a stream -/

/-- What holds of a stream in every state of a run. -/
structure StreamShape (number : Nat) (steps : List (Transition Hub Act)) (hub : Hub)
    (stream : Stream) : Prop where
  /-- A live receiver is on the channel of its submission, before and after a pruning. -/
  attached : stream.live = true → hub.channels stream.id = some stream.channel ∧
    hub.prune.channels stream.id = some stream.channel
  /-- What is published next for its submission reaches it. -/
  reached : stream.live = true → ∀ sub, sub.id = stream.id →
    (hub.publish sub).streams.get number = some (stream.receive sub)
  /-- The first state is the row that was read. -/
  first : ∀ row, stream.emitted.head? = some row → ReadRow number steps row
  /-- The later ones were published after the subscription, in this order. -/
  later : stream.emitted.tail.Sublist (news number steps)
  /-- None is skipped, unless the receiver lags. -/
  whole : stream.live = true → (∀ taken ∈ steps, ¬ Lags number taken) →
    stream.emitted.tail ++ stream.waiting = news number steps
  /-- A state that fewer than 64 followed is not skipped. -/
  recent : stream.live = true → ∀ before sub rest, news number steps = before ++ sub :: rest →
    rest.length < 64 → sub :: rest <:+ stream.emitted.tail ++ stream.waiting
  /-- DONE is emitted at most once, and last. -/
  verdict : ∀ sub ∈ stream.emitted.dropLast, sub.event ≠ "verdict"
  /-- After DONE the next poll ends the stream. -/
  ends : ∀ sub ∈ stream.emitted, sub.event = "verdict" → ∀ connected,
    (stream.poll connected).phase = .closed ∧ (stream.poll connected).emitted = stream.emitted

/-- A poll ends the stream. -/
structure EndsWith (number : Nat) (taken : Transition Hub Act) (stream next : Stream) : Prop where
  polled : taken.label = .polled number
  before : taken.before.streams.get number = some stream
  after : taken.after.streams.get number = some next
  live : stream.live = true
  closed : next.live = false

theorem StreamShape.of_run {steps : List (Transition Hub Act)} {hub : Hub}
    (run : broadcast.Run steps hub) {number : Nat} {stream : Stream}
    (found : hub.streams.get number = some stream) : StreamShape number steps hub stream := by
  have shaped := (shaped_of_run run).2 number stream found
  have attached := attached_invariant.of_run run
  have inside := (Table.get_eq_some.mp found).1
  refine ⟨fun live => ⟨attached.live stream inside live, attached.prune.live stream inside live⟩,
    fun live sub own => ?_, fun row => shaped.stage.first, ?_, shaped.whole, ?_, ?_, ?_⟩
  · rw [Hub.get_publish attached found, if_pos ⟨live, own.symm⟩]
  · exact (List.sublist_append_left _ _).trans shaped.order
  · intro live before sub rest sent short
    refine (shaped.traces live).newest _ ?_ (by rw [List.length_cons]; exact short)
    rw [sent]
    exact List.suffix_append _ _
  · intro sub early done
    exact shaped.stage.live sub early (Submission.event_eq_verdict.mp done)
  · intro sub emitted done
    exact shaped.stage.ends emitted (Submission.event_eq_verdict.mp done)

/-- **A stream that ends has emitted one verdict, as its last event.** -/
theorem verdict_of_end {steps : List (Transition Hub Act)} {hub : Hub}
    (run : broadcast.Run steps hub) {number : Nat} {taken : Transition Hub Act}
    (member : taken ∈ steps) {stream next : Stream} (ends : EndsWith number taken stream next) :
    ∃ before, next.emitted.map Submission.event = before ++ ["verdict"] ∧ "verdict" ∉ before := by
  obtain ⟨late, early, rfl⟩ := List.append_of_mem member
  obtain ⟨earlier, step⟩ := run.split
  obtain ⟨hub, act, after⟩ := taken
  obtain ⟨rfl, found, found', live, closed⟩ := ends
  have stage := ((shaped_of_run earlier).2 number stream found).stage
  obtain ⟨next', held, goes⟩ := step.goes (attached_invariant.of_run earlier) found
  cases found'.symm.trans held
  have open_ (still : next.live = true) : False := by
    rw [closed] at still
    cases still
  cases goes with
  | same _ => exact (open_ live).elim
  | polled joined =>
    rcases poll_cases stage joined with
      same | ⟨row, _, same⟩ | ⟨sub, rest, _, _, same⟩ | ⟨phase, same⟩
    · exact (open_ (by rw [same]; exact live)).elim
    · exact (open_ (by rw [same]; rfl)).elim
    · exact (open_ (by rw [same]; rfl)).elim
    · rw [same]
      show ∃ before, stream.emitted.map Submission.event = before ++ ["verdict"] ∧ _
      rw [phase] at stage
      revert stage
      generalize stream.emitted = emitted
      intro stage
      cases stage with
      | @finished emitted last _ live done =>
        refine ⟨emitted.map Submission.event, ?_, fun inside => ?_⟩
        · rw [List.map_append, List.map_singleton, Submission.event_eq_verdict.mpr done]
        · obtain ⟨sub, early, verdict⟩ := List.mem_map.mp inside
          exact live sub early (Submission.event_eq_verdict.mp verdict)

/-- **The hub loses no receiver, and streams keep their shape**, in every interleaving. -/
theorem streams_keep_shape {steps : List (Transition Hub Act)} {hub : Hub}
    (run : broadcast.Run steps hub) (number : Nat) :
    (∀ stream, hub.streams.get number = some stream → StreamShape number steps hub stream) ∧
      ∀ taken ∈ steps, ∀ stream next, EndsWith number taken stream next →
        ∃ before, next.emitted.map Submission.event = before ++ ["verdict"] ∧ "verdict" ∉ before :=
  ⟨fun _ => StreamShape.of_run run, fun _ member _ _ => verdict_of_end run member⟩

/-! ### The hub of a server -/

/-- A state that the heartbeat has read and is about to publish. -/
def Beat.pending : Beat → Option Submission
  | .publishing sub => some sub
  | _ => none

section Server

variable [Host]

/-- A state that the worker has read and is about to publish. -/
def Phase.pending : Phase → Option Submission
  | .judging run => run.beat.pending
  | .publishing _ _ sub => some sub
  | _ => none

/-- How the server acts on its hub. -/
inductive Touches (s : System) : Event → Act → Prop
  | publish {slot : Nat} {sub : Submission} {event : Event} (acts : event.worker = some slot)
      (ready : (s.workers slot).pending = some sub) : Touches s event (.publish sub)
  | prune : Touches s .prune .prune
  | subscribe (id : String) (number : Nat) :
      Touches s (.subscribe id number) (.subscribe id number)
  | read {number : Nat} (world : World) {stream : Stream}
      (found : s.hub.streams.get number = some stream) :
      Touches s (.read number world) (.opened number (s.queue.store.get world stream.id))
  | poll (number : Nat) : Touches s (.poll number) (.polled number)
  | hangUp (number : Nat) : Touches s (.hangUp number) (.hungUp number)

/-- **The server acts on its hub only in these ways**, and a restart begins with a new hub. -/
theorem Step.acts {s after : System} {event : Event} (step : Step s event after) :
    after.hub = s.hub ∨ after.hub = .empty ∨
      ∃ act, Touches s event act ∧ Acts s.hub act after.hub := by
  cases step with
  | beatPublish slot here ready =>
    refine .inr (.inr ⟨_, .publish rfl ?_, .publish _⟩)
    rw [here, Phase.pending, ready]
    rfl
  | publish slot here =>
    refine .inr (.inr ⟨_, .publish rfl ?_, .publish _⟩)
    rw [here]
    rfl
  | prune swept => exact .inr (.inr ⟨_, .prune, .prune⟩)
  | subscribe id number fresh =>
    exact .inr (.inr ⟨_, .subscribe id number, .subscribe id number fresh⟩)
  | read number world found waits =>
    exact .inr (.inr ⟨_, .read world found, .opened number _ found waits⟩)
  | poll number found => exact .inr (.inr ⟨_, .poll number, .polled number found⟩)
  | hangUp number => exact .inr (.inr ⟨_, .hangUp number, .hungUp number⟩)
  | restart settings world ready => exact .inr (.inl rfl)
  | _ => exact .inl rfl

/-- **The hub of a server is in a state of the hub on its own.** -/
theorem hub_of_server {steps : List (Transition System Event)} {s : System}
    (run : system.Run steps s) : ∃ acts, broadcast.Run acts s.hub := by
  induction run with
  | start initial =>
    obtain ⟨settings, rfl⟩ := initial
    exact ⟨[], .start rfl⟩
  | next earlier step ih =>
    obtain ⟨acts, before⟩ := ih
    rcases Step.acts step with same | new | ⟨act, _, acted⟩
    · exact ⟨acts, by rw [same]; exact before⟩
    · exact ⟨[], .start new⟩
    · exact ⟨_, before.next acted⟩

/-- **The streams of a server keep their shape.** -/
theorem server_keeps_shape {steps : List (Transition System Event)} {s : System}
    (run : system.Run steps s) : ∃ acts, broadcast.Run acts s.hub ∧
      ∀ number stream, s.hub.streams.get number = some stream →
        StreamShape number acts s.hub stream := by
  obtain ⟨acts, run⟩ := hub_of_server run
  exact ⟨acts, run, fun _ _ => StreamShape.of_run run⟩

end Server

/-! ### A short stream -/

/-- A state of a submission. -/
def stateOf (status : Status) : Submission :=
  { (queuedRow (worldAt 0) sampleSubmission) with status := status : Row }.toSubmission

theorem streams_keep_shape_sample : ∃ steps hub taken stream next, broadcast.Run steps hub ∧
    taken ∈ steps ∧ EndsWith 0 taken stream next ∧
      next.emitted = [stateOf .running, stateOf .done] ∧
        ∃ before, next.emitted.map Submission.event = before ++ ["verdict"] ∧
          "verdict" ∉ before := by
  have run : broadcast.Run [] .empty := .start rfl
  have run := run.next (.subscribe "s1" 0 rfl)
  have run := run.next (.opened 0 (.ok (some (stateOf .running))) rfl rfl)
  have run := run.next (.publish (stateOf .done))
  have run := run.next (.prune)
  have run := run.next (.polled 0 rfl)
  have run := run.next (.polled 0 rfl)
  have run := run.next (.polled 0 rfl)
  exact ⟨_, _, _, _, _, run, List.mem_cons_self, ⟨rfl, rfl, rfl, rfl, rfl⟩, rfl,
    (streams_keep_shape run 0).2 _ List.mem_cons_self _ _ ⟨rfl, rfl, rfl, rfl, rfl⟩⟩

end Codexec.Server
