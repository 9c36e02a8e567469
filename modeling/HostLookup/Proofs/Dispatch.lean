import HostLookup.Dispatch
import HostLookup.Proofs.Tracking

/-!
# Runs of a dispatcher

`effect_step` says all that one step can do; what a run does follows by
induction. `d.after actions k` is the state of a run before its step `k`. A
worker keeps its place and its request and goes through its phases in their
order, so it is resolved and answers once.
-/

namespace HostLookup

open Bytes Hosts

/-- The place of a phase in their order. -/
def Phase.rank : Phase → Nat
  | waiting => 0
  | answered _ => 1
  | delivered => 2
  | ended => 3

namespace Action

/-- The client and the command that an action hands over. -/
def command? : Action → Option (Nat × Command)
  | dispatch client seq words => some (client, ⟨seq, words⟩)
  | line client text => (Command.ofLine? text).map fun command => (client, command)
  | _ => none

theorem command?_eq_some_iff {a : Action} {c : Nat} {command : Command} :
    a.command? = some (c, command) ↔
      a = dispatch c command.seq command.words ∨
        ∃ text, a = line c text ∧ Command.ofLine? text = some command := by
  cases a with
  | dispatch client seq words =>
    obtain ⟨seq', words'⟩ := command
    simp [command?]
  | line client text =>
    simp only [command?, Option.map_eq_some_iff, Prod.mk.injEq, reduceCtorEq, false_or,
      line.injEq]
    constructor
    · rintro ⟨_, reads, rfl, rfl⟩
      exact ⟨text, ⟨rfl, rfl⟩, reads⟩
    · rintro ⟨_, ⟨rfl, rfl⟩, reads⟩
      exact ⟨command, reads, rfl, rfl⟩
  | _ => simp [command?]

theorem command?_line {c : Nat} {text : Bytes} {command : Command}
    (reads : Command.ofLine? text = some command) :
    (line c text).command? = some (c, command) :=
  command?_eq_some_iff.mpr (.inr ⟨text, rfl, reads⟩)

/-- Actions that concern neither workers nor clients. -/
def IsAside : Action → Prop
  | change _ | retarget _ | hold | release | poison | threads _ => True
  | _ => False

end Action

namespace Dispatcher

/-- `d.Moves a i w p`: the action takes the worker `w` at `i` on to the phase `p`. -/
inductive Moves (d : Dispatcher) : Action → Nat → Worker → Phase → Prop where
  | resolve {i : Nat} {w : Worker} (phase : w.phase = .waiting) (free : d.held = false) :
      d.Moves (.resolve i) i w
        (.answered (w.request.reply (d.tracker.refresh d.files).1 d.services))
  | deliver {i : Nat} {w : Worker} {reply : Reply} (phase : w.phase = .answered reply) :
      d.Moves (.deliver i) i w .delivered
  | finish {i : Nat} {w : Worker} (phase : w.phase = .delivered) :
      d.Moves (.finish i) i w .ended

/-- What becomes of a command: a request that finds a thread, or a failure. -/
def verdict (d : Dispatcher) (words : List Bytes) : Except Failure Request :=
  match d.accept words with
  | .error failure => .error failure
  | .ok request => if d.threads then .ok request else .error (.io .noThread)

/-- `d.Brings a w`: the action starts the worker `w`. -/
inductive Brings (d : Dispatcher) : Action → Worker → Prop where
  | command {a : Action} {c : Nat} {command : Command} {request : Request}
      (brings : a.command? = some (c, command)) (accepted : d.verdict command.words = .ok request) :
      d.Brings a { seq := command.seq, request, client := c, slotted := true }
  | work (c : Nat) (seq : UInt32) (request : Request) :
      d.Brings (.work c seq request) { seq, request, client := c, slotted := false }

/-- `d.Effect a d'`: the state `d'` after the action `a`, with what it takes to get there. -/
inductive Effect (d : Dispatcher) : Action → Dispatcher → Prop where
  /-- Files, path, lock and threads are no matter of workers and clients. -/
  | aside {a : Action} (files : FileTree) (tracker : Tracker) (held poisoned threads : Bool)
      (kind : a.IsAside)
      (moved : tracker = d.tracker ∨ ∃ path, tracker = d.tracker.retarget path) :
      d.Effect a { d with files, tracker, held, poisoned, threads }
  | connect (medium : Medium) :
      d.Effect (.connect medium) { d with clients := d.clients ++ [{ medium }] }
  | start {a : Action} {c : Nat} {command : Command} {request : Request}
      (brings : a.command? = some (c, command)) (accepted : d.verdict command.words = .ok request) :
      d.Effect a (d.start c command.seq request)
  | refuseDispatch {c : Nat} {seq : UInt32} {words : List Bytes} {failure : Failure}
      (refused : d.verdict words = .error failure) : d.Effect (.dispatch c seq words) d
  | refuseLine {c : Nat} {text : Bytes} {command : Command} {failure : Failure}
      (reads : Command.ofLine? text = some command)
      (refused : d.verdict command.words = .error failure) :
      d.Effect (.line c text) (d.send c command.seq (.ofRefusal command.words failure))
  | blank {c : Nat} {text : Bytes} (reads : Command.ofLine? text = none) :
      d.Effect (.line c text) d
  | work (c : Nat) (seq : UInt32) (request : Request) :
      d.Effect (.work c seq request)
        { d with workers := d.workers ++ [{ seq, request, client := c, slotted := false }] }
  | resolve {i : Nat} {w : Worker} (worker : d.workers[i]? = some w) (phase : w.phase = .waiting)
      (free : d.held = false) :
      d.Effect (.resolve i) (({ d with tracker := (d.tracker.refresh d.files).1 } :
        Dispatcher).setPhase i
          (.answered (w.request.reply (d.tracker.refresh d.files).1 d.services)))
  | deliver {i : Nat} {w : Worker} {reply : Reply} (worker : d.workers[i]? = some w)
      (phase : w.phase = .answered reply) :
      d.Effect (.deliver i) ((d.send w.client w.seq reply).setPhase i .delivered)
  | finish {i : Nat} {w : Worker} (worker : d.workers[i]? = some w)
      (phase : w.phase = .delivered) :
      d.Effect (.finish i) (({ d with active := if w.slotted then d.active - 1 else d.active } :
        Dispatcher).setPhase i .ended)
  /-- A worker's action that is not its next one, or needs a lock that is held. -/
  | stall {a : Action} {i : Nat} (own : a = .resolve i ∨ a = .deliver i ∨ a = .finish i)
      (idle : ∀ j w p, d.workers[j]? = some w → ¬ d.Moves a j w p) : d.Effect a d

section

variable {d : Dispatcher} {a : Action} {i j : Nat} {w w' : Worker} {p : Phase}

/-! ## One step -/

theorem Moves.rank_lt (h : d.Moves a i w p) : w.phase.rank < p.rank := by
  cases h with
  | resolve phase _ => rw [phase]; exact Nat.zero_lt_one
  | deliver phase => rw [phase]; exact Nat.lt_succ_self 1
  | finish phase => rw [phase]; exact Nat.lt_succ_self 2

theorem Brings.waiting (h : d.Brings a w) : w.phase = .waiting := by
  cases h <;> rfl

theorem getElem?_setPhase_self (h : d.workers[i]? = some w) :
    (d.setPhase i p).workers[i]? = some { w with phase := p } := by
  rw [setPhase, List.getElem?_modify_eq, h]
  rfl

/-- Only the worker at hand changes how many workers have a property. -/
theorem countP_setPhase (f : Worker → Bool) (h : d.workers[i]? = some w) :
    (d.setPhase i p).workers.countP f + (if f w then 1 else 0) =
      d.workers.countP f + (if f { w with phase := p } then 1 else 0) := by
  obtain ⟨hi, rfl⟩ := List.getElem?_eq_some_iff.mp h
  have hsplit : d.workers = d.workers.take i ++ d.workers[i] :: d.workers.drop (i + 1) := by
    rw [List.getElem_cons_drop, List.take_append_drop]
  have hcount : d.workers.countP f = (d.workers.take i).countP f +
      ((d.workers.drop (i + 1)).countP f + if f d.workers[i] then 1 else 0) := by
    conv => lhs; rw [hsplit]
    rw [List.countP_append, List.countP_cons]
  simp only [setPhase, List.modify_eq_take_cons_drop hi, List.countP_append, List.countP_cons,
    hcount]
  omega

theorem countP_setPhase_of_eq {f : Worker → Bool} (h : d.workers[i]? = some w)
    (hf : f { w with phase := p } = f w) :
    (d.setPhase i p).workers.countP f = d.workers.countP f := by
  have := countP_setPhase (p := p) f h
  rw [hf] at this
  exact Nat.add_right_cancel this

theorem getElem?_setPhase_ne (h : i ≠ j) : (d.setPhase i p).workers[j]? = d.workers[j]? := by
  rw [setPhase, List.getElem?_modify_ne _ _ h]

/-! ### Commands -/

theorem verdict_of_malformed {words : List Bytes} {failure : Failure}
    (h : Request.ofArguments words = .error failure) : d.verdict words = .error failure := by
  unfold verdict accept
  rw [h]

theorem verdict_of_wellFormed {words : List Bytes} {request : Request}
    (h : Request.ofArguments words = .ok request) :
    d.verdict words =
      if d.saturated then .error (.busy d.limit)
      else if d.threads then .ok request else .error (.io .noThread) := by
  unfold verdict accept
  rw [h]
  cases d.saturated <;> rfl

theorem ofArguments_of_verdict {words : List Bytes} {request : Request}
    (h : d.verdict words = .ok request) : Request.ofArguments words = .ok request := by
  cases hparse : Request.ofArguments words with
  | error failure =>
    rw [verdict_of_malformed hparse] at h
    cases h
  | ok request' =>
    rw [verdict_of_wellFormed hparse] at h
    split at h
    · cases h
    · split at h
      · exact h
      · cases h

/-- A command that fails leaves everything as it was, the slots included. -/
theorem dispatch_eq (d : Dispatcher) (c : Nat) (seq : UInt32) (words : List Bytes) :
    d.dispatch c seq words =
      match d.verdict words with
      | .ok request => (d.start c seq request, none)
      | .error failure => (d, some failure) := by
  unfold dispatch verdict
  cases d.accept words with
  | error failure => rfl
  | ok request => cases d.threads <;> rfl

theorem dispatch_of_error {c : Nat} {seq : UInt32} {words : List Bytes} {failure : Failure}
    (h : d.verdict words = .error failure) : d.dispatch c seq words = (d, some failure) := by
  rw [dispatch_eq, h]

theorem dispatch_of_ok {c : Nat} {seq : UInt32} {words : List Bytes} {request : Request}
    (h : d.verdict words = .ok request) :
    d.dispatch c seq words = (d.start c seq request, none) := by
  rw [dispatch_eq, h]

/-! ### The lock -/

theorem lock?_of_free (h : d.held = false) :
    ∃ guard, d.lock? = some guard ∧ guard.tracker = d.tracker := by
  unfold lock?
  rw [h]
  cases d.poisoned with
  | false => exact ⟨_, rfl, rfl⟩
  | true => exact ⟨_, rfl, rfl⟩

theorem lock?_of_held (h : d.held = true) : d.lock? = none := if_pos h

/-! ### All that a step can do -/

/-- An action of one worker does nothing if it is not the next one of that worker. -/
theorem effect_stall (own : a = .resolve i ∨ a = .deliver i ∨ a = .finish i)
    (idle : ∀ w ∈ d.workers[i]?, ∀ p, ¬ d.Moves a i w p) : d.Effect a d := by
  refine .stall own fun j w p hj hm => ?_
  have hji : j = i := by cases hm <;> simpa using own
  subst hji
  exact idle w hj p hm

theorem effect_resolve (d : Dispatcher) (i : Nat) :
    d.Effect (.resolve i) (d.step (.resolve i)) := by
  rw [step]
  cases hw : d.workers[i]? with
  | none => exact effect_stall (.inl rfl) (by simp [hw])
  | some w =>
    have stall (idle : ∀ p, ¬ d.Moves (.resolve i) i w p) : d.Effect (.resolve i) d :=
      effect_stall (.inl rfl) (by simpa [hw] using idle)
    simp only
    split
    · next hphase =>
      rcases Bool.eq_false_or_eq_true d.held with hheld | hfree
      · rw [lock?_of_held hheld]
        refine stall ?_
        rintro p ⟨-, free⟩
        cases hheld.symm.trans free
      · obtain ⟨guard, hguard, htracker⟩ := lock?_of_free hfree
        simp only [hguard, htracker]
        exact .resolve hw hphase hfree
    · next hphase =>
      refine stall ?_
      rintro p ⟨phase, -⟩
      exact hphase phase

theorem effect_deliver (d : Dispatcher) (i : Nat) :
    d.Effect (.deliver i) (d.step (.deliver i)) := by
  rw [step]
  cases hw : d.workers[i]? with
  | none => exact effect_stall (.inr (.inl rfl)) (by simp [hw])
  | some w =>
    simp only
    split
    · next reply hphase => exact .deliver hw hphase
    · next hphase =>
      refine effect_stall (.inr (.inl rfl)) fun v hv p hmoves => ?_
      cases hw.symm.trans hv
      cases hmoves with
      | deliver phase => exact hphase _ phase

theorem effect_finish (d : Dispatcher) (i : Nat) :
    d.Effect (.finish i) (d.step (.finish i)) := by
  rw [step]
  cases hw : d.workers[i]? with
  | none => exact effect_stall (.inr (.inr rfl)) (by simp [hw])
  | some w =>
    simp only
    split
    · next hphase => exact .finish hw hphase
    · next hphase =>
      refine effect_stall (.inr (.inr rfl)) fun v hv p hmoves => ?_
      cases hw.symm.trans hv
      cases hmoves with
      | finish phase => exact hphase phase

theorem effect_dispatch (d : Dispatcher) (c : Nat) (seq : UInt32) (words : List Bytes) :
    d.Effect (.dispatch c seq words) (d.step (.dispatch c seq words)) := by
  rw [step]
  cases h : d.verdict words with
  | ok request =>
    rw [dispatch_of_ok h]
    have brings : (Action.dispatch c seq words).command? = some (c, ⟨seq, words⟩) := rfl
    exact .start brings h
  | error failure =>
    rw [dispatch_of_error h]
    exact .refuseDispatch h

theorem effect_line (d : Dispatcher) (c : Nat) (text : Bytes) :
    d.Effect (.line c text) (d.step (.line c text)) := by
  rw [step, handleLine]
  cases hread : Command.ofLine? text with
  | none => exact .blank hread
  | some command =>
    simp only
    cases h : d.verdict command.words with
    | ok request =>
      rw [dispatch_of_ok h]
      exact .start (Action.command?_line hread) h
    | error failure =>
      rw [dispatch_of_error h]
      exact .refuseLine hread h

theorem effect_step (d : Dispatcher) (a : Action) : d.Effect a (d.step a) := by
  cases a with
  | change what => exact .aside _ d.tracker _ _ _ trivial (.inl rfl)
  | retarget path => exact .aside d.files _ _ _ _ trivial (.inr ⟨path, rfl⟩)
  | connect medium => exact .connect medium
  | dispatch client seq words => exact d.effect_dispatch client seq words
  | line client text => exact d.effect_line client text
  | work client seq request => exact .work client seq request
  | hold => exact .aside d.files d.tracker _ _ _ trivial (.inl rfl)
  | release => exact .aside d.files d.tracker _ _ _ trivial (.inl rfl)
  | poison =>
    rw [step]
    split
    · exact .aside d.files d.tracker d.held d.poisoned d.threads trivial (.inl rfl)
    · exact .aside d.files d.tracker d.held _ d.threads trivial (.inl rfl)
  | threads available => exact .aside d.files d.tracker _ _ _ trivial (.inl rfl)
  | resolve i => exact d.effect_resolve i
  | deliver i => exact d.effect_deliver i
  | finish i => exact d.effect_finish i

/-- A step leaves the workers alone, starts one, or takes one to its next phase. -/
theorem workers_step (d : Dispatcher) (a : Action) :
    (d.step a).workers = d.workers ∨
      (∃ w, d.Brings a w ∧ (d.step a).workers = d.workers ++ [w]) ∨
      ∃ i w p, d.workers[i]? = some w ∧ d.Moves a i w p ∧
        (d.step a).workers = (d.setPhase i p).workers := by
  have h := d.effect_step a
  generalize d.step a = d' at h ⊢
  cases h with
  | aside | connect | refuseDispatch | refuseLine | blank | stall => exact .inl rfl
  | start brings accepted => exact .inr (.inl ⟨_, .command brings accepted, rfl⟩)
  | work c seq request => exact .inr (.inl ⟨_, .work c seq request, rfl⟩)
  | resolve worker phase free => exact .inr (.inr ⟨_, _, _, worker, .resolve phase free, rfl⟩)
  | deliver worker phase => exact .inr (.inr ⟨_, _, _, worker, .deliver phase, rfl⟩)
  | finish worker phase => exact .inr (.inr ⟨_, _, _, worker, .finish phase, rfl⟩)

/-- A step leaves the tracker alone, retargets it, or refreshes it. -/
theorem tracker_step (d : Dispatcher) (a : Action) :
    (d.step a).tracker = d.tracker ∨ (∃ path, (d.step a).tracker = d.tracker.retarget path) ∨
      (d.step a).tracker = (d.tracker.refresh d.files).1 := by
  have h := d.effect_step a
  generalize d.step a = d' at h ⊢
  cases h with
  | aside _ _ _ _ _ _ moved =>
    rcases moved with h | h
    · exact .inl h
    · exact .inr (.inl h)
  | resolve => exact .inr (.inr rfl)
  | _ => exact .inl rfl

theorem services_step (d : Dispatcher) (a : Action) : (d.step a).services = d.services := by
  have h := d.effect_step a
  generalize d.step a = d' at h ⊢
  cases h <;> rfl

theorem length_workers_step (d : Dispatcher) (a : Action) :
    d.workers.length ≤ (d.step a).workers.length ∧
      (d.step a).workers.length ≤ d.workers.length + 1 := by
  rcases d.workers_step a with h | ⟨w, -, h⟩ | ⟨i, w, p, -, -, h⟩
  · rw [h]
    exact ⟨Nat.le_refl _, Nat.le_succ _⟩
  · rw [h, List.length_append]
    exact ⟨Nat.le_add_right _ _, Nat.le_refl _⟩
  · rw [h, setPhase, List.length_modify]
    exact ⟨Nat.le_refl _, Nat.le_succ _⟩

theorem workers_of_brings (h : d.Brings a w) : (d.step a).workers = d.workers ++ [w] := by
  cases h with
  | work => rfl
  | command brings accepted =>
    rcases Action.command?_eq_some_iff.mp brings with rfl | ⟨text, rfl, reads⟩
    · rw [step, dispatch_of_ok accepted]
      rfl
    · simp only [step, handleLine, reads, dispatch_of_ok accepted]
      rfl

/-- What became of a worker in a step: it is new, left alone, or one phase on. -/
theorem worker_of_step (h : (d.step a).workers[i]? = some w') :
    (i = d.workers.length ∧ d.Brings a w') ∨
      ∃ w, d.workers[i]? = some w ∧
        (w' = w ∨ ∃ p, d.Moves a i w p ∧ w' = { w with phase := p }) := by
  rcases d.workers_step a with hw | ⟨v, hv, hw⟩ | ⟨j, v, p, hj, hmoves, hw⟩
  · rw [hw] at h
    exact .inr ⟨w', h, .inl rfl⟩
  · rw [hw] at h
    rcases Nat.lt_trichotomy i d.workers.length with hi | rfl | hi
    · rw [List.getElem?_append_left hi] at h
      exact .inr ⟨w', h, .inl rfl⟩
    · rw [List.getElem?_concat_length] at h
      cases h
      exact .inl ⟨rfl, hv⟩
    · rw [List.getElem?_eq_none (by rw [List.length_append]; exact hi)] at h
      cases h
  · rw [hw] at h
    by_cases hji : j = i
    · subst hji
      rw [getElem?_setPhase_self hj] at h
      cases h
      exact .inr ⟨v, hj, .inr ⟨p, hmoves, rfl⟩⟩
    · rw [getElem?_setPhase_ne hji] at h
      exact .inr ⟨w', h, .inl rfl⟩

theorem worker_step (h : d.workers[i]? = some w) (a : Action) :
    ∃ p, (d.step a).workers[i]? = some { w with phase := p } ∧ w.phase.rank ≤ p.rank := by
  have hi := (List.getElem?_eq_some_iff.mp h).1
  have hi' : i < (d.step a).workers.length := Nat.lt_of_lt_of_le hi (d.length_workers_step a).1
  have h' := List.getElem?_eq_getElem hi'
  rcases worker_of_step h' with ⟨rfl, -⟩ | ⟨v, hv, heq⟩
  · exact absurd hi (Nat.lt_irrefl _)
  · cases h.symm.trans hv
    rcases heq with heq | ⟨p, hmoves, heq⟩
    · exact ⟨w.phase, h'.trans (congrArg some heq), Nat.le_refl _⟩
    · exact ⟨p, h'.trans (congrArg some heq), Nat.le_of_lt hmoves.rank_lt⟩

/-! ## Runs -/

/-- The state before step `k` of a run. -/
def after (d : Dispatcher) (actions : List Action) (k : Nat) : Dispatcher := d.run (actions.take k)

variable {actions : List Action} {k l : Nat}

@[simp] theorem after_zero (d : Dispatcher) (actions : List Action) : d.after actions 0 = d := rfl

theorem after_length (d : Dispatcher) (actions : List Action) :
    d.after actions actions.length = d.run actions := by
  rw [after, List.take_length]

theorem after_succ (h : actions[k]? = some a) :
    d.after actions (k + 1) = (d.after actions k).step a := by
  obtain ⟨hk, rfl⟩ := List.getElem?_eq_some_iff.mp h
  rw [after, after, run, run, List.take_succ_eq_append_getElem hk, List.foldl_append]
  rfl

/-- What holds at some state of a run and is kept by its steps holds from there on. -/
theorem after_induction {P : Nat → Dispatcher → Prop} (start : P l (d.after actions l))
    (step : ∀ k a, l ≤ k → actions[k]? = some a → P k (d.after actions k) →
      P (k + 1) ((d.after actions k).step a))
    (hlk : l ≤ k) (hk : k ≤ actions.length) : P k (d.after actions k) := by
  induction hlk with
  | refl => exact start
  | @step k hlk ih =>
    have ha : actions[k]? = some actions[k] := List.getElem?_eq_getElem hk
    rw [after_succ ha]
    exact step k _ hlk ha (ih (Nat.le_of_succ_le hk))

theorem services_after (hk : k ≤ actions.length) : (d.after actions k).services = d.services :=
  after_induction (P := fun _ d' => d'.services = d.services) (l := 0) rfl
    (fun _ a _ _ ih => (services_step _ a).trans ih) (Nat.zero_le k) hk

theorem length_workers_mono (hlk : l ≤ k) (hk : k ≤ actions.length) :
    (d.after actions l).workers.length ≤ (d.after actions k).workers.length :=
  after_induction (P := fun _ d' => (d.after actions l).workers.length ≤ d'.workers.length)
    (Nat.le_refl _) (fun _ a _ _ ih => Nat.le_trans ih (length_workers_step _ a).1) hlk hk

theorem worker_mono (h : (d.after actions l).workers[i]? = some w) (hlk : l ≤ k)
    (hk : k ≤ actions.length) :
    ∃ p, (d.after actions k).workers[i]? = some { w with phase := p } ∧
      w.phase.rank ≤ p.rank := by
  refine after_induction (P := fun _ d' => ∃ p, d'.workers[i]? = some { w with phase := p } ∧
    w.phase.rank ≤ p.rank) ⟨w.phase, h, Nat.le_refl _⟩ ?_ hlk hk
  rintro k a - - ⟨p, hp, hrank⟩
  obtain ⟨p', hp', hrank'⟩ := worker_step hp a
  exact ⟨p', hp', Nat.le_trans hrank hrank'⟩

/-- Step `j` starts `w` as the worker `i`. -/
structure Starts (d : Dispatcher) (actions : List Action) (j i : Nat) (w : Worker) : Prop where
  fresh : (d.after actions j).workers.length ≤ i
  worker : (d.after actions (j + 1)).workers[i]? = some w

namespace Starts

/-- What a step starts is the next worker, and what its action brings. -/
theorem brings (h : d.Starts actions j i w) :
    ∃ a, actions[j]? = some a ∧ i = (d.after actions j).workers.length ∧
      (d.after actions j).Brings a w := by
  have hw := h.worker
  cases ha : actions[j]? with
  | none =>
    have hj := List.getElem?_eq_none_iff.mp ha
    rw [after, List.take_of_length_le (Nat.le_succ_of_le hj), ← List.take_of_length_le hj] at hw
    exact absurd (List.getElem?_eq_some_iff.mp hw).1 (Nat.not_lt_of_le h.fresh)
  | some a =>
    rw [after_succ ha] at hw
    rcases worker_of_step hw with ⟨hi, hbrings⟩ | ⟨v, hv, -⟩
    · exact ⟨a, rfl, hi, hbrings⟩
    · exact absurd (List.getElem?_eq_some_iff.mp hv).1 (Nat.not_lt_of_le h.fresh)

theorem of_brings (ha : actions[j]? = some a) (h : (d.after actions j).Brings a w) :
    d.Starts actions j (d.after actions j).workers.length w := by
  refine ⟨Nat.le_refl _, ?_⟩
  rw [after_succ ha, workers_of_brings h, List.getElem?_concat_length]

theorem lt_length (h : d.Starts actions j i w) : j < actions.length := by
  obtain ⟨a, ha, -⟩ := h.brings
  exact (List.getElem?_eq_some_iff.mp ha).1

theorem le {j' : Nat} (h : d.Starts actions j i w) (h' : d.Starts actions j' i w') : j ≤ j' := by
  refine Nat.le_of_not_lt fun hlt => ?_
  have hmono : (d.after actions (j' + 1)).workers.length ≤ (d.after actions j).workers.length :=
    length_workers_mono hlt (Nat.le_of_lt h.lt_length)
  have hi := (List.getElem?_eq_some_iff.mp h'.worker).1
  have hfresh := h.fresh
  omega

theorem unique {j' : Nat} (h : d.Starts actions j i w) (h' : d.Starts actions j' i w') :
    j' = j ∧ w' = w := by
  obtain rfl := Nat.le_antisymm (h.le h') (h'.le h)
  exact ⟨rfl, Option.some.inj (h'.worker.symm.trans h.worker)⟩

end Starts

/-- A worker that was not there at first was started, and has changed its phase alone. -/
theorem exists_starts (hd : d.workers.length ≤ i) (hw : (d.after actions k).workers[i]? = some w)
    (hk : k ≤ actions.length) : ∃ j < k, d.Starts actions j i { w with phase := .waiting } := by
  refine after_induction (P := fun k d' => ∀ w, d'.workers[i]? = some w →
    ∃ j < k, d.Starts actions j i { w with phase := .waiting })
    (l := 0) ?_ ?_ (Nat.zero_le k) hk w hw
  · intro w hw
    exact absurd (List.getElem?_eq_some_iff.mp hw).1 (Nat.not_lt_of_le hd)
  · intro k a _ ha ih w' hw'
    rcases worker_of_step hw' with ⟨hi, hbrings⟩ | ⟨w, hw, rfl | ⟨p, -, rfl⟩⟩
    · refine ⟨k, Nat.lt_succ_self k, Nat.le_of_eq hi.symm, ?_⟩
      rw [after_succ ha, hw', ← hbrings.waiting]
    · obtain ⟨j, hj, h⟩ := ih _ hw
      exact ⟨j, Nat.lt_succ_of_lt hj, h⟩
    · obtain ⟨j, hj, h⟩ := ih _ hw
      exact ⟨j, Nat.lt_succ_of_lt hj, h⟩

/-- Step `l` answers a request of worker `i` from the tracker as it is refreshed there. -/
structure Resolves (d : Dispatcher) (actions : List Action) (l i : Nat) (r : Request)
    (reply : Reply) : Prop where
  action : actions[l]? = some (.resolve i)
  free : (d.after actions l).held = false
  started : i < (d.after actions l).workers.length
  reply_eq : reply =
    r.reply ((d.after actions l).tracker.refresh (d.after actions l).files).1 d.services

theorem exists_resolve {reply : Reply} (hd : d.workers.length ≤ i)
    (hw : (d.after actions k).workers[i]? = some w) (hphase : w.phase = .answered reply)
    (hk : k ≤ actions.length) : ∃ l < k, d.Resolves actions l i w.request reply := by
  refine after_induction (P := fun k d' => ∀ w, d'.workers[i]? = some w →
    w.phase = .answered reply → ∃ l < k, d.Resolves actions l i w.request reply)
    (l := 0) ?_ ?_ (Nat.zero_le k) hk w hw hphase
  · intro w hw _
    exact absurd (List.getElem?_eq_some_iff.mp hw).1 (Nat.not_lt_of_le hd)
  · intro k a _ ha ih w' hw' hphase
    have hk := Nat.le_of_lt (List.getElem?_eq_some_iff.mp ha).1
    rcases worker_of_step hw' with ⟨-, hbrings⟩ | ⟨w, hw, rfl | ⟨p, hmoves, rfl⟩⟩
    · rw [hbrings.waiting] at hphase
      cases hphase
    · obtain ⟨l, hl, h⟩ := ih _ hw hphase
      exact ⟨l, Nat.lt_succ_of_lt hl, h⟩
    · -- only being resolved leads to an answer
      cases hphase
      cases hmoves with
      | resolve _ free =>
        have hi := (List.getElem?_eq_some_iff.mp hw).1
        exact ⟨k, Nat.lt_succ_self k, ha, free, hi, by rw [services_after hk]⟩

/-- Step `k` sends the reply of worker `i`, which is `w` before the step. -/
structure Sends (d : Dispatcher) (actions : List Action) (k i : Nat) (w : Worker)
    (reply : Reply) : Prop where
  action : actions[k]? = some (.deliver i)
  worker : (d.after actions k).workers[i]? = some w
  phase : w.phase = .answered reply

namespace Sends

variable {reply reply' : Reply}

theorem lt_length (h : d.Sends actions k i w reply) : k < actions.length :=
  (List.getElem?_eq_some_iff.mp h.action).1

theorem clients (h : d.Sends actions k i w reply) :
    (d.after actions (k + 1)).clients =
      (d.after actions k).clients.modify w.client (·.receive w.seq reply) := by
  rw [after_succ h.action]
  simp only [step, h.worker, h.phase]
  rfl

theorem delivered_succ (h : d.Sends actions k i w reply) :
    ∃ w', (d.after actions (k + 1)).workers[i]? = some w' ∧ w'.phase = .delivered := by
  rw [after_succ h.action]
  simp only [step, h.worker, h.phase]
  exact ⟨_, getElem?_setPhase_self h.worker, rfl⟩

theorem le (h : d.Sends actions k i w reply) (h' : d.Sends actions l i w' reply') : l ≤ k := by
  refine Nat.le_of_not_lt fun hkl => ?_
  obtain ⟨v, hv, hphase⟩ := h.delivered_succ
  obtain ⟨p, hp, hrank⟩ := worker_mono hv hkl (Nat.le_of_lt h'.lt_length)
  cases h'.worker.symm.trans hp
  have hp' : p = .answered reply' := h'.phase
  rw [hphase, hp'] at hrank
  exact Nat.not_succ_le_self 1 hrank

theorem unique (h : d.Sends actions k i w reply) (h' : d.Sends actions l i w' reply') :
    l = k ∧ w' = w ∧ reply' = reply := by
  obtain rfl := Nat.le_antisymm (h.le h') (h'.le h)
  cases h'.worker.symm.trans h.worker
  cases h'.phase.symm.trans h.phase
  exact ⟨rfl, rfl, rfl⟩

end Sends

theorem exists_sends (hd : d.workers.length ≤ i) (hw : (d.after actions k).workers[i]? = some w)
    (hphase : w.phase = .delivered ∨ w.phase = .ended) (hk : k ≤ actions.length) :
    ∃ l < k, ∃ v reply, d.Sends actions l i v reply ∧ w = { v with phase := w.phase } := by
  refine after_induction (P := fun k d' => ∀ w, d'.workers[i]? = some w →
    w.phase = .delivered ∨ w.phase = .ended →
      ∃ l < k, ∃ v reply, d.Sends actions l i v reply ∧ w = { v with phase := w.phase })
    (l := 0) ?_ ?_ (Nat.zero_le k) hk w hw hphase
  · intro w hw _
    exact absurd (List.getElem?_eq_some_iff.mp hw).1 (Nat.not_lt_of_le hd)
  · intro k a _ ha ih w' hw' hphase
    rcases worker_of_step hw' with ⟨-, hbrings⟩ | ⟨w, hw, rfl | ⟨p, hmoves, rfl⟩⟩
    · rw [hbrings.waiting] at hphase
      rcases hphase with h | h <;> cases h
    · obtain ⟨l, hl, h⟩ := ih _ hw hphase
      exact ⟨l, Nat.lt_succ_of_lt hl, h⟩
    · cases hmoves with
      | resolve => rcases hphase with h | h <;> cases h
      | deliver phase => exact ⟨k, Nat.lt_succ_self k, w, _, ⟨ha, hw, phase⟩, rfl⟩
      | finish phase =>
        obtain ⟨l, hl, v, reply, h, hv⟩ := ih _ hw (.inl phase)
        exact ⟨l, Nat.lt_succ_of_lt hl, v, reply, h, by rw [hv]⟩

end

end Dispatcher

end HostLookup
