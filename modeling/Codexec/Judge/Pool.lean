/-
**The pool of boxes.**

A box is a permit of a semaphore and an id from a list, taken one after the other and given back in
the opposite order. Any number of tasks call `acquire`, use their boxes, release them or drop them
at any await; `Step` has one rule for each atomic action. What is kept (`Exclusive`): the ids are
all in the list or in one box each, the permits are all in the semaphore or with one call each, and
a box in use has been cleaned up and set up since anybody else used it.

Files in a box are known by the call whose box it was when they were made. A successful
`isolate --cleanup` and then a successful `isolate --init` leave an empty box (`leftovers`).
-/

import Codexec.Judge.Isolate
import Codexec.Library.Machine
import Mathlib.Data.List.Nodup
import Mathlib.Data.List.Perm.Basic

namespace Codexec

open Codexec.Library
open scoped List

/-- What `IsolateSandbox::new` reads. -/
structure IsolateConfig where
  firstBoxId : UInt32 := 0
  slots : UInt32 := 2

namespace IsolateConfig

variable (self : IsolateConfig)

/-- `first_box_id..first_box_id + slots`; the sum wraps as in a release build. -/
def ids : List UInt32 :=
  (List.range ((self.firstBoxId + self.slots).toNat - self.firstBoxId.toNat)).map fun offset =>
    self.firstBoxId + UInt32.ofNat offset

end IsolateConfig

/-! ### The calls of `acquire` -/

/-- Where a call of `acquire` is, and its box. -/
inductive Holder
  /-- `acquire_owned().await` -/
  | waiting
  /-- It has a permit. -/
  | granted
  /-- `isolate --cleanup` is running. -/
  | cleaning (box : IsolateBox)
  /-- `isolate --init` is running. -/
  | initialising (box : IsolateBox)
  | inUse (box : IsolateBox)
  /-- `release` runs `isolate --cleanup`. -/
  | releasing (box : IsolateBox)
  /-- `drop` has run, and `_permit` is still there. -/
  | dropped
  | gone
  /-- There was no id to pop. -/
  | panicked
  deriving DecidableEq

namespace Holder

def box : Holder → Option IsolateBox
  | .cleaning box => some box
  | .initialising box => some box
  | .inUse box => some box
  | .releasing box => some box
  | _ => none

/-- The id of its box, if it has one. -/
def ids (holder : Holder) : List UInt32 := (holder.box.map IsolateBox.id).toList

/-- The call holds a permit. -/
def permitted : Holder → Bool
  | .granted => true
  | .dropped => true
  | holder => holder.box.isSome

end Holder

/-- Something that happened to a box. -/
inductive Deed
  /-- This call had the box and wrote to it or ran something in it. -/
  | used (call : Nat)
  | cleaned
  | initialised
  deriving DecidableEq

/-- The calls whose files may be in a box, after what happened to it, newest first. -/
def leftovers : List Deed → List Nat
  | [] => []
  | .initialised :: .cleaned :: _ => []
  | .used call :: rest => call :: leftovers rest
  | _ :: rest => leftovers rest

structure Pool where
  /-- The last one is popped first. -/
  freeIds : List UInt32
  permits : Nat
  /-- The calls of `acquire` so far, in order. -/
  calls : List Holder
  /-- What happened to each box, newest first. -/
  deeds : UInt32 → List Deed

namespace Pool

variable (self : Pool)

/-- The ids of the boxes there are. -/
def liveIds : List UInt32 := self.calls.flatMap Holder.ids

def move (call : Nat) (holder : Holder) : Pool := { self with calls := self.calls.set call holder }

def record (id : UInt32) (deed : Deed) : Pool :=
  { self with deeds := Function.update self.deeds id (deed :: self.deeds id) }

/-- `drop` of a box: its id is free again. -/
def drop (call : Nat) (box : IsolateBox) : Pool :=
  { self.move call .dropped with freeIds := self.freeIds ++ [box.id] }

end Pool

/-- What `IsolateSandbox::new` makes. `created` says how making the directory of the meta files
went, and the boxes may hold anything. -/
def IsolateSandbox.new (cfg : IsolateConfig) (created : Except String Unit)
    (deeds : UInt32 → List Deed) : Except SandboxError Pool := do
  if cfg.slots = 0 then throw (.backend "isolate: slots must be at least 1")
  created.mapError .io
  pure ⟨cfg.ids.reverse, cfg.slots.toNat, [], deeds⟩

/-- What happens next. -/
inductive PoolEvent
  | acquire
  | grant (call : Nat)
  | withdraw (call : Nat)
  | decline (call : Nat)
  | pop (call : Nat)
  | panic (call : Nat)
  | cleaned (call : Nat)
  | initialised (call : Nat)
  | write (call : Nat)
  | exec (call : Nat) (spec : ExecSpec)
  | release (call : Nat)
  | released (call : Nat)
  | drop (call : Nat)
  | free (call : Nat)

namespace Pool

/-- One atomic action. -/
inductive Step : Pool → PoolEvent → Pool → Prop
  | acquire {s : Pool} : Step s .acquire { s with calls := s.calls ++ [.waiting] }
  /-- The semaphore gives a permit to one of those that wait. -/
  | grant {s : Pool} {permits : Nat} (call : Nat) (here : s.calls[call]? = some .waiting)
      (available : s.permits = permits + 1) :
      Step s (.grant call) { s.move call .granted with permits := permits }
  /-- A task that waits for a permit is cancelled. -/
  | withdraw {s : Pool} (call : Nat) (here : s.calls[call]? = some .waiting) :
      Step s (.withdraw call) (s.move call .gone)
  /-- A task is cancelled that was given a permit and has not run since. -/
  | decline {s : Pool} (call : Nat) (here : s.calls[call]? = some .granted) :
      Step s (.decline call) { s.move call .gone with permits := s.permits + 1 }
  | pop {s : Pool} {freeIds : List UInt32} {id : UInt32} (call : Nat)
      (here : s.calls[call]? = some .granted) (last : s.freeIds = freeIds ++ [id]) :
      Step s (.pop call) { s.move call (.cleaning ⟨id, false⟩) with freeIds := freeIds }
  /-- `pop().expect(..)`; unwinding gives the permit back. -/
  | panic {s : Pool} (call : Nat) (here : s.calls[call]? = some .granted) (none : s.freeIds = []) :
      Step s (.panic call) { s.move call .panicked with permits := s.permits + 1 }
  /-- `isolate --cleanup` has succeeded in `init`. -/
  | cleaned {s : Pool} {box : IsolateBox} (call : Nat)
      (here : s.calls[call]? = some (.cleaning box)) :
      Step s (.cleaned call) ((s.move call (.initialising box)).record box.id .cleaned)
  /-- `isolate --init` has succeeded, and `acquire` returns the box. -/
  | initialised {s : Pool} {box : IsolateBox} (call : Nat)
      (here : s.calls[call]? = some (.initialising box)) :
      Step s (.initialised call) ((s.move call (.inUse box.init)).record box.id .initialised)
  /-- `write_file`, however much of the file it makes. -/
  | write {s : Pool} {box : IsolateBox} (call : Nat) (here : s.calls[call]? = some (.inUse box)) :
      Step s (.write call) ((s.move call (.inUse box)).record box.id (.used call))
  | exec {s : Pool} {box : IsolateBox} (call : Nat) (spec : ExecSpec)
      (here : s.calls[call]? = some (.inUse box)) :
      Step s (.exec call spec) ((s.move call (.inUse (box.exec spec))).record box.id (.used call))
  | release {s : Pool} {box : IsolateBox} (call : Nat) (here : s.calls[call]? = some (.inUse box)) :
      Step s (.release call) (s.move call (.releasing box))
  /-- `isolate --cleanup` has succeeded in `release`, which ends. -/
  | released {s : Pool} {box : IsolateBox} (call : Nat)
      (here : s.calls[call]? = some (.releasing box)) :
      Step s (.released call) ((s.drop call box).record box.id .cleaned)
  /-- The box is dropped: cleaning up or setting up has failed, the task was cancelled at an await,
  or whoever used the box let go of it. -/
  | drop {s : Pool} {holder : Holder} {box : IsolateBox} (call : Nat)
      (here : s.calls[call]? = some holder) (held : holder.box = some box) :
      Step s (.drop call) (s.drop call box)
  /-- After `drop` the fields are dropped, `_permit` among them. -/
  | free {s : Pool} (call : Nat) (here : s.calls[call]? = some .dropped) :
      Step s (.free call) { s.move call .gone with permits := s.permits + 1 }

end Pool

/-- The pool that `IsolateSandbox::new` makes and all that can happen to it. -/
def pool (cfg : IsolateConfig) : Machine Pool PoolEvent where
  start s := ∃ created deeds, IsolateSandbox.new cfg created deeds = .ok s
  step := Pool.Step

/-! ### The ids of a configuration -/

namespace IsolateConfig

variable {cfg : IsolateConfig}

/-- The end of the range is a `u32`. -/
def Fits (cfg : IsolateConfig) : Prop := cfg.firstBoxId.toNat + cfg.slots.toNat < 2 ^ 32

instance (cfg : IsolateConfig) : Decidable cfg.Fits := inferInstanceAs (Decidable (_ < _))

theorem ids_of_fits (fits : cfg.Fits) :
    cfg.ids = (List.range cfg.slots.toNat).map fun offset =>
      cfg.firstBoxId + UInt32.ofNat offset := by
  have last : (cfg.firstBoxId + cfg.slots).toNat = cfg.firstBoxId.toNat + cfg.slots.toNat := by
    rw [UInt32.toNat_add, Nat.mod_eq_of_lt fits]
  rw [ids, last, Nat.add_sub_cancel_left]

/-- An id of the range as a number. -/
theorem toNat_id (fits : cfg.Fits) {offset : Nat} (inside : offset < cfg.slots.toNat) :
    (cfg.firstBoxId + UInt32.ofNat offset).toNat = cfg.firstBoxId.toNat + offset := by
  unfold Fits at fits
  rw [UInt32.toNat_add, UInt32.toNat_ofNat_of_lt' (by simp only [UInt32.size]; omega),
    Nat.mod_eq_of_lt (by omega)]

theorem mem_ids (fits : cfg.Fits) {id : UInt32} :
    id ∈ cfg.ids ↔ cfg.firstBoxId.toNat ≤ id.toNat ∧
      id.toNat < cfg.firstBoxId.toNat + cfg.slots.toNat := by
  rw [ids_of_fits fits, List.mem_map]
  constructor
  · rintro ⟨offset, inside, rfl⟩
    rw [toNat_id fits (List.mem_range.mp inside)]
    have bound := List.mem_range.mp inside
    omega
  · rintro ⟨least, most⟩
    have inside : id.toNat - cfg.firstBoxId.toNat < cfg.slots.toNat := by omega
    refine ⟨_, List.mem_range.mpr inside, UInt32.toNat_inj.mp ?_⟩
    rw [toNat_id fits inside]
    omega

theorem ids_nodup (fits : cfg.Fits) : cfg.ids.Nodup := by
  rw [ids_of_fits fits]
  refine List.Nodup.map_on ?_ List.nodup_range
  intro one inside two inside' same
  have equal := congrArg UInt32.toNat same
  rw [toNat_id fits (List.mem_range.mp inside), toNat_id fits (List.mem_range.mp inside')] at equal
  omega

theorem length_ids (fits : cfg.Fits) : cfg.ids.length = cfg.slots.toNat := by
  rw [ids_of_fits fits, List.length_map, List.length_range]

end IsolateConfig

/-! ### What is kept -/

/-- What happened to a box since it was last set up was done by one call. -/
def Own (call : Nat) (deeds : List Deed) : Prop :=
  ∃ used older, deeds = used ++ .initialised :: .cleaned :: older ∧ ∀ deed ∈ used, deed = .used call

theorem Own.used {call : Nat} {deeds : List Deed} (own : Own call deeds) :
    Own call (.used call :: deeds) := by
  obtain ⟨used, older, rfl, all⟩ := own
  refine ⟨.used call :: used, older, rfl, fun deed inside => ?_⟩
  rcases List.mem_cons.mp inside with rfl | inside
  · rfl
  · exact all deed inside

/-- **Only the files of its user are in such a box.** -/
theorem Own.leftovers {call : Nat} {deeds : List Deed} (own : Own call deeds) :
    ∀ other ∈ leftovers deeds, other = call := by
  obtain ⟨used, older, rfl, all⟩ := own
  induction used with
  | nil => simp [Codexec.leftovers]
  | cons deed used ih =>
    obtain rfl := all deed List.mem_cons_self
    intro other inside
    rcases List.mem_cons.mp inside with rfl | inside
    · rfl
    · exact ih (fun deed inside => all deed (List.mem_cons_of_mem _ inside)) other inside

namespace Holder

theorem permitted_of_box {holder : Holder} {box : IsolateBox} (held : holder.box = some box) :
    holder.permitted = true := by
  cases holder <;> first | rfl | simp [Holder.box] at held

/-- The permits it holds. -/
def weight (holder : Holder) : Nat := if holder.permitted then 1 else 0

/-- Its box was set up for it. -/
def Fits (call : Nat) (deeds : UInt32 → List Deed) : Holder → Prop
  | .initialising box => ∃ older, deeds box.id = .cleaned :: older
  | .inUse box => Own call (deeds box.id)
  | _ => True

theorem Fits.congr {call : Nat} {deeds deeds' : UInt32 → List Deed} {holder : Holder}
    (fits : holder.Fits call deeds) (same : ∀ id ∈ holder.ids, deeds' id = deeds id) :
    holder.Fits call deeds' := by
  cases holder with
  | initialising box =>
    have unchanged := same box.id (List.mem_singleton_self _)
    simp only [Fits, unchanged]
    exact fits
  | inUse box =>
    have unchanged := same box.id (List.mem_singleton_self _)
    simp only [Fits, unchanged]
    exact fits
  | _ => trivial

end Holder

namespace Pool

variable {cfg : IsolateConfig} {s s' : Pool} {call : Nat} {old new : Holder}

/-- One call apart, the calls are the same before and after it moves. -/
theorem split (here : s.calls[call]? = some old) :
    ∃ rest, s.calls.Perm (old :: rest) ∧ ∀ new, (s.calls.set call new).Perm (new :: rest) := by
  obtain ⟨bound, rfl⟩ := List.getElem?_eq_some_iff.mp here
  exact ⟨s.calls.eraseIdx call, (List.getElem_cons_eraseIdx_perm bound).symm,
    fun new => List.set_perm_cons_eraseIdx bound new⟩

/-- **No two boxes have the same id.** -/
theorem exclusive (distinct : s.liveIds.Nodup) {call' : Nat} {holder holder' : Holder} {id : UInt32}
    (here : s.calls[call]? = some holder) (here' : s.calls[call']? = some holder')
    (one : id ∈ holder.ids) (two : id ∈ holder'.ids) : call = call' := by
  by_contra different
  obtain ⟨bound, rfl⟩ := List.getElem?_eq_some_iff.mp here
  obtain ⟨bound', rfl⟩ := List.getElem?_eq_some_iff.mp here'
  have apart := List.pairwise_iff_getElem.mp (List.nodup_flatMap.mp distinct).2
  rcases Nat.lt_or_gt_of_ne different with less | more
  · exact apart call call' bound bound' less one two
  · exact apart call' call bound' bound more two one

/-- What is kept. -/
structure Exclusive (cfg : IsolateConfig) (s : Pool) : Prop where
  ids : (s.freeIds ++ s.liveIds).Perm cfg.ids
  permits : s.permits + (s.calls.map Holder.weight).sum = cfg.slots.toNat
  calm : .panicked ∉ s.calls
  fits : ∀ (call : Nat) (holder : Holder), s.calls[call]? = some holder → holder.Fits call s.deeds

namespace Exclusive

theorem distinct (fits : cfg.Fits) (kept : Exclusive cfg s) : (s.freeIds ++ s.liveIds).Nodup :=
  kept.ids.nodup_iff.mpr (IsolateConfig.ids_nodup fits)

theorem live_distinct (fits : cfg.Fits) (kept : Exclusive cfg s) : s.liveIds.Nodup :=
  (List.nodup_append.mp (kept.distinct fits)).2.1

/-- **A call that moves keeps what is kept**, if the ids and permits it gives up are free again and
those it takes were free, and nothing happens to the boxes of others. -/
theorem moved (fits : cfg.Fits) (kept : Exclusive cfg s) (here : s.calls[call]? = some old)
    (moves : s'.calls = s.calls.set call new)
    (ids : (s'.freeIds ++ new.ids).Perm (s.freeIds ++ old.ids))
    (permits : s'.permits + new.weight = s.permits + old.weight) (calm : new ≠ .panicked)
    (fit : new.Fits call s'.deeds) (others : ∀ id, id ∉ old.ids → s'.deeds id = s.deeds id) :
    Exclusive cfg s' := by
  obtain ⟨rest, before, after⟩ := split here
  have now : s'.calls.Perm (new :: rest) := moves ▸ after new
  refine ⟨?_, ?_, ?_, fun call' holder here' => ?_⟩
  · have live : s.liveIds.Perm (old.ids ++ rest.flatMap Holder.ids) := before.flatMap_right _
    have live' : s'.liveIds.Perm (new.ids ++ rest.flatMap Holder.ids) := now.flatMap_right _
    calc s'.freeIds ++ s'.liveIds
        ~ s'.freeIds ++ (new.ids ++ rest.flatMap Holder.ids) := live'.append_left _
      _ ~ s.freeIds ++ (old.ids ++ rest.flatMap Holder.ids) := by
          rw [← List.append_assoc, ← List.append_assoc]
          exact ids.append_right _
      _ ~ s.freeIds ++ s.liveIds := (live.symm).append_left _
      _ ~ cfg.ids := kept.ids
  · have total := kept.permits
    rw [(before.map _).sum_nat, List.map_cons, List.sum_cons] at total
    rw [(now.map _).sum_nat, List.map_cons, List.sum_cons]
    omega
  · intro inside
    rcases List.mem_cons.mp (now.mem_iff.mp inside) with same | inside
    · exact calm same.symm
    · exact kept.calm (before.mem_iff.mpr (List.mem_cons_of_mem _ inside))
  · rw [moves] at here'
    by_cases same : call = call'
    · subst same
      rw [List.getElem?_set_self (List.getElem?_eq_some_iff.mp here).1] at here'
      cases here'
      exact fit
    · rw [List.getElem?_set_ne same] at here'
      refine (kept.fits call' holder here').congr fun id inside => others id fun taken => same ?_
      exact exclusive (kept.live_distinct fits) here here' taken inside

/-- There are as many permits as ids. -/
theorem count_eq (fits : cfg.Fits) (kept : Exclusive cfg s) :
    s.permits + (s.calls.map Holder.weight).sum = s.freeIds.length + s.liveIds.length := by
  rw [kept.permits, ← IsolateConfig.length_ids fits, ← kept.ids.length_eq, List.length_append]

/-- Whoever has a box has a permit. -/
theorem length_ids_le (holder : Holder) : holder.ids.length ≤ holder.weight := by
  cases holder <;> simp [Holder.ids, Holder.box, Holder.weight, Holder.permitted]

theorem length_boxes_le (calls : List Holder) :
    (calls.flatMap Holder.ids).length ≤ (calls.map Holder.weight).sum := by
  induction calls with
  | nil => exact Nat.le_refl 0
  | cons holder calls ih =>
    rw [List.flatMap_cons, List.length_append, List.map_cons, List.sum_cons]
    exact Nat.add_le_add (length_ids_le holder) ih

/-- **A permit in the semaphore means an id in the list.** -/
theorem permits_le (fits : cfg.Fits) (kept : Exclusive cfg s) : s.permits ≤ s.freeIds.length := by
  have count := kept.count_eq fits
  have fewer : s.liveIds.length ≤ _ := length_boxes_le s.calls
  omega

/-- **A call that was given a permit finds an id.** -/
theorem freeIds_ne_nil (fits : cfg.Fits) (kept : Exclusive cfg s)
    (here : s.calls[call]? = some .granted) : s.freeIds ≠ [] := by
  obtain ⟨rest, before, -⟩ := split here
  have count := kept.count_eq fits
  have live : s.liveIds.length = (rest.flatMap Holder.ids).length :=
    (before.flatMap_right Holder.ids).length_eq
  have fewer := length_boxes_le rest
  rw [(before.map Holder.weight).sum_nat, List.map_cons, List.sum_cons, live] at count
  have one : Holder.weight .granted = 1 := rfl
  intro none
  rw [none, List.length_nil] at count
  omega

/-- The deeds of a box do not touch another one. -/
theorem record_other {box : IsolateBox} {deed : Deed} {id : UInt32} (other : id ∉ [box.id]) :
    (s.record box.id deed).deeds id = s.deeds id :=
  Function.update_of_ne (by simpa using other) _ _

theorem record_self (box : IsolateBox) (deed : Deed) :
    (s.record box.id deed).deeds box.id = deed :: s.deeds box.id :=
  Function.update_self _ _ _

theorem started {created : Except String Unit} {deeds : UInt32 → List Deed}
    (built : IsolateSandbox.new cfg created deeds = .ok s) : Exclusive cfg s := by
  have made : s = ⟨cfg.ids.reverse, cfg.slots.toNat, [], deeds⟩ := by
    by_cases none : cfg.slots = 0
    · simp [IsolateSandbox.new, none, bind, Except.bind] at built
    · cases created with
      | error e => simp [IsolateSandbox.new, none, Except.mapError, bind, Except.bind] at built
      | ok done =>
        simp only [IsolateSandbox.new, none, if_false] at built
        exact (Except.ok.inj built).symm
  rw [made]
  exact
    { ids := (List.append_nil _).symm ▸ List.reverse_perm _
      permits := rfl
      calm := List.not_mem_nil
      fits := fun call holder here => by simp at here }

/-- The user of a box uses it. -/
theorem used {box : IsolateBox} (kept : Exclusive cfg s)
    (here : s.calls[call]? = some (.inUse box)) :
    Own call ((s.record box.id (.used call)).deeds box.id) := by
  have own : Own call (s.deeds box.id) := kept.fits call _ here
  rw [record_self]
  exact own.used

/-- One more call of `acquire`. -/
theorem asked (kept : Exclusive cfg s) : Exclusive cfg { s with calls := s.calls ++ [.waiting] } where
  ids := by
    simp only [liveIds, List.flatMap_append]
    simpa [Holder.ids, Holder.box, liveIds] using kept.ids
  permits := by
    rw [List.map_append, List.sum_append]
    exact kept.permits
  calm inside := by
    rcases List.mem_append.mp inside with inside | inside
    · exact kept.calm inside
    · simp at inside
  fits call holder here := by
    rcases Nat.lt_or_ge call s.calls.length with less | more
    · rw [List.getElem?_append_left less] at here
      exact kept.fits call holder here
    · rw [List.getElem?_append_right more] at here
      obtain rfl := List.mem_singleton.mp (List.mem_of_getElem? here)
      trivial

/-- **Every step keeps what is kept.** -/
theorem step {event : PoolEvent} (fits : cfg.Fits) (kept : Exclusive cfg s)
    (step : Step s event s') : Exclusive cfg s' := by
  cases step with
  | acquire => exact kept.asked
  | grant call here available =>
    refine kept.moved fits here rfl (List.Perm.refl _) ?_ nofun trivial fun _ _ => rfl
    rw [available]
    rfl
  | withdraw call here =>
    exact kept.moved fits here rfl (List.Perm.refl _) rfl nofun trivial fun _ _ => rfl
  | decline call here =>
    exact kept.moved fits here rfl (List.Perm.refl _) rfl nofun trivial fun _ _ => rfl
  | pop call here last =>
    refine kept.moved fits here rfl ?_ rfl nofun trivial fun _ _ => rfl
    rw [last]
    exact List.Perm.of_eq (List.append_nil _).symm
  | panic call here none => exact absurd none (kept.freeIds_ne_nil fits here)
  | cleaned call here =>
    refine kept.moved fits here rfl (List.Perm.refl _) rfl nofun ⟨_, record_self _ _⟩ ?_
    exact fun id other => record_other other
  | initialised call here =>
    obtain ⟨older, deeds⟩ := kept.fits _ _ here
    refine kept.moved fits here rfl (List.Perm.refl _) rfl nofun ?_ ?_
    · refine ⟨[], older, ?_, nofun⟩
      rw [← deeds]
      exact record_self _ _
    · exact fun id other => record_other other
  | write call here =>
    refine kept.moved fits here rfl (List.Perm.refl _) rfl nofun ?_ ?_
    · exact kept.used here
    · exact fun id other => record_other other
  | @exec box call spec here =>
    have same : (box.exec spec).id = box.id := IsolateBox.exec_id box spec
    refine kept.moved fits here rfl (List.Perm.of_eq ?_) rfl nofun ?_ ?_
    · simp only [Holder.ids, Holder.box, Option.map_some, same]
      rfl
    · show Own call (((s.move call _).record box.id (.used call)).deeds (box.exec spec).id)
      rw [same]
      exact kept.used here
    · exact fun id other => record_other other
  | release call here =>
    exact kept.moved fits here rfl (List.Perm.refl _) rfl nofun trivial fun _ _ => rfl
  | released call here =>
    refine kept.moved fits here rfl ?_ rfl nofun trivial ?_
    · exact List.Perm.of_eq (List.append_nil _)
    · exact fun id other => record_other other
  | @drop holder box call here held =>
    have ids : holder.ids = [box.id] := by rw [Holder.ids, held]; rfl
    have weight : holder.weight = 1 := by
      simp only [Holder.weight, Holder.permitted_of_box held, if_true]
    refine kept.moved fits here rfl ?_ (congrArg _ weight.symm) nofun trivial fun _ _ => rfl
    rw [ids]
    exact List.Perm.of_eq (List.append_nil _)
  | free call here =>
    exact kept.moved fits here rfl (List.Perm.refl _) rfl nofun trivial fun _ _ => rfl

end Exclusive

theorem exclusive_invariant (fits : cfg.Fits) : (pool cfg).Invariant (Exclusive cfg) where
  start _ initial := by
    obtain ⟨created, deeds, built⟩ := initial
    exact Exclusive.started built
  step _ _ _ kept step := kept.step fits step

end Pool

/-- **The pool is exclusive.** However the calls of `acquire` are interleaved: no two boxes have the
same id; the free ids and the ids of boxes are the ids of the configuration, each once; there are no
more permits than free ids, and `acquire` finds an id; and a box in use was cleaned up and set up
since anybody else used it, so only its user's files are in it. -/
theorem pool_exclusive {cfg : IsolateConfig} {s : Pool} (fits : cfg.Fits)
    (reachable : (pool cfg).Reachable s) :
    (∀ (call call' : Nat) (holder holder' : Holder) (box box' : IsolateBox),
      s.calls[call]? = some holder → s.calls[call']? = some holder' →
      holder.box = some box → holder'.box = some box' → box.id = box'.id → call = call') ∧
    ((s.freeIds ++ s.liveIds).Nodup ∧ ∀ id, id ∈ s.freeIds ++ s.liveIds ↔
      cfg.firstBoxId.toNat ≤ id.toNat ∧ id.toNat < cfg.firstBoxId.toNat + cfg.slots.toNat) ∧
    (s.permits ≤ s.freeIds.length ∧ .panicked ∉ s.calls ∧
      ∀ call : Nat, s.calls[call]? = some .granted → s.freeIds ≠ []) ∧
    ∀ (call : Nat) (box : IsolateBox), s.calls[call]? = some (.inUse box) → Own call (s.deeds box.id) ∧
      ∀ other ∈ leftovers (s.deeds box.id), other = call := by
  have kept := (Pool.exclusive_invariant fits).of_reachable reachable
  refine ⟨?_, ⟨kept.distinct fits, fun id => ?_⟩, ⟨kept.permits_le fits, kept.calm, ?_⟩, ?_⟩
  · intro call call' holder holder' box box' here here' held held' same
    have one : box.id ∈ holder.ids := by simp [Holder.ids, held]
    have two : box.id ∈ holder'.ids := by simp [Holder.ids, held', same]
    exact Pool.exclusive (kept.live_distinct fits) here here' one two
  · rw [kept.ids.mem_iff, IsolateConfig.mem_ids fits]
  · exact fun call here => kept.freeIds_ne_nil fits here
  · intro call box here
    have own : Own call (s.deeds box.id) := kept.fits call _ here
    exact ⟨own, own.leftovers⟩

/-! ### A pool of one box -/

def oneBox : IsolateConfig := { slots := 1 }

/-- A command that was running when its task was cancelled. -/
def cancelled : ExecSpec where
  argv := ["sleep"]
  env := []
  dirs := []
  limits := ⟨1, 1, 1, 1, 1, 1, 1, 1, true⟩
  stderrToStdout := false
  syscallFlags := none

/-- The box, used by an earlier process, goes to one call, which is cancelled, and to the next. -/
theorem run_reused : ∃ s, (pool oneBox).Reachable s ∧
    s.calls = [.gone, .inUse ⟨0, false⟩] ∧
    s.deeds 0 = [.initialised, .cleaned, .used 0, .initialised, .cleaned, .used 7] := by
  have run : (pool oneBox).Run [] ⟨[0], 1, [], fun _ => [.used 7]⟩ := .start ⟨.ok (), _, rfl⟩
  have run := run.next (Pool.Step.acquire)
  have run := run.next (Pool.Step.acquire)
  have run := run.next (Pool.Step.grant 0 rfl rfl)
  have run := run.next (@Pool.Step.pop _ [] 0 0 rfl rfl)
  have run := run.next (Pool.Step.cleaned 0 rfl)
  have run := run.next (Pool.Step.initialised 0 rfl)
  have run := run.next (Pool.Step.exec 0 cancelled rfl)
  have run := run.next (Pool.Step.drop 0 rfl rfl)
  have run := run.next (Pool.Step.free 0 rfl)
  have run := run.next (Pool.Step.grant 1 rfl rfl)
  have run := run.next (@Pool.Step.pop _ [] 0 1 rfl rfl)
  have run := run.next (Pool.Step.cleaned 1 rfl)
  have run := run.next (Pool.Step.initialised 1 rfl)
  exact ⟨_, ⟨_, run⟩, rfl, rfl⟩

theorem pool_exclusive_sample : ∃ s, (pool oneBox).Reachable s ∧
    s.calls = [.gone, .inUse ⟨0, false⟩] ∧ Own 1 (s.deeds 0) := by
  obtain ⟨s, reachable, calls, -⟩ := run_reused
  have fits : oneBox.Fits := by decide
  have here : s.calls[1]? = some (.inUse ⟨0, false⟩) := by rw [calls]; rfl
  exact ⟨s, reachable, calls, ((pool_exclusive fits reachable).2.2.2 1 _ here).1⟩

end Codexec
