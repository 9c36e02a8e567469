import Mathlib.Logic.Basic
import HostLookup.Proofs.Freshness

/-!
# Faults

Two runs of a dispatcher are compared: one as it is, and one in which clients
are lost and panics poison the resolution lock in between. Their states are
alike but for the lost clients and the poison (`Alike`), and no step tells them
apart: a poisoned lock gives up what it guards, and no one reads what a client
has received. So the runs stay alike step by step, and what is not lost sees no
difference (`faults_isolated`).
-/

namespace HostLookup

open Bytes Hosts

namespace Dispatcher

/-! ## Two runs -/

/-- The dispatcher with broken clients at the lost positions. -/
def lose (lost : Nat → Bool) (d : Dispatcher) : Dispatcher :=
  { d with
    clients := d.clients.mapIdx fun c client =>
      if lost c then { client with medium := .broken } else client }

/-- The same action, but a client that comes to a lost position is broken. -/
def disturbed (lost : Nat → Bool) (d : Dispatcher) : Action → Action
  | .connect medium => .connect (if lost d.clients.length then .broken else medium)
  | a => a

/--
`Disturbs lost d actions actions'`: the run `actions'` takes the steps of a run
`actions` of `d` in their order, with lost clients, and with panics that poison
the lock in between, where no one holds it.
-/
inductive Disturbs (lost : Nat → Bool) : Dispatcher → List Action → List Action → Prop where
  | done (d : Dispatcher) : Disturbs lost d [] []
  | step {d : Dispatcher} {actions actions' : List Action} (a : Action) :
      Disturbs lost (d.step a) actions actions' →
      Disturbs lost d (a :: actions) (d.disturbed lost a :: actions')
  | poison {d : Dispatcher} {actions actions' : List Action} (free : d.held = false) :
      Disturbs lost d actions actions' → Disturbs lost d actions (.poison :: actions')

/-! ## What is seen of a run -/

/-- What the commands of a run come to: each with why it was refused, if it was. -/
def outcomes (d : Dispatcher) : List Action → List ((Nat × Command) × Option Failure)
  | [] => []
  | a :: actions =>
    (a.command?.map fun (c, command) =>
      ((c, command), (d.dispatch c command.seq command.words).2)).toList ++
      (d.step a).outcomes actions

/-- No worker can go on: each has ended, or waits for a lock that is held. -/
def isQuiescent (d : Dispatcher) : Bool :=
  d.workers.all fun w => w.phase == .ended || (w.phase == .waiting && d.held)

/-- The active workers, if no one of them can go on. -/
def quietCount (d : Dispatcher) : Option Nat := if d.isQuiescent then some d.active else none

/-- The active workers at the quiescent points of a run, between its steps other than panics. -/
def quietCounts (d : Dispatcher) : List Action → List Nat
  | [] => d.quietCount.toList
  | .poison :: actions => (d.step .poison).quietCounts actions
  | a :: actions => d.quietCount.toList ++ (d.step a).quietCounts actions

/-- The second state is the first one but for the lost clients and the poison. -/
inductive Alike (lost : Nat → Bool) (d : Dispatcher) : Dispatcher → Prop where
  | mk (clients : List Client) (poisoned : Bool) (length : clients.length = d.clients.length)
      (same : ∀ c, lost c = false → clients[c]? = d.clients[c]?) :
      Alike lost d { d with clients, poisoned }

section

variable {lost : Nat → Bool} {d d' : Dispatcher} {actions actions' : List Action}

theorem alike_lose (lost : Nat → Bool) (d : Dispatcher) : Alike lost d (d.lose lost) := by
  refine .mk _ d.poisoned List.length_mapIdx fun c hc => ?_
  rw [List.getElem?_mapIdx, hc]
  simp

namespace Alike

/-! ## One step -/

theorem tracker_eq (h : Alike lost d d') : d'.tracker = d.tracker := by
  cases h
  rfl

theorem client_eq (h : Alike lost d d') {c : Nat} (kept : lost c = false) :
    d'.clients[c]? = d.clients[c]? := by
  obtain ⟨clients, poisoned, length, same⟩ := h
  exact same c kept

theorem quietCount_eq (h : Alike lost d d') : d'.quietCount = d.quietCount := by
  cases h
  rfl

theorem verdict_eq (h : Alike lost d d') (words : List Bytes) :
    d'.verdict words = d.verdict words := by
  cases h
  rfl

theorem refusal_eq (h : Alike lost d d') (c : Nat) (seq : UInt32) (words : List Bytes) :
    (d'.dispatch c seq words).2 = (d.dispatch c seq words).2 := by
  rw [dispatch_eq, dispatch_eq, h.verdict_eq]
  cases d.verdict words <;> rfl

theorem send (h : Alike lost d d') (c : Nat) (seq : UInt32) (reply : Reply) :
    Alike lost (d.send c seq reply) (d'.send c seq reply) := by
  obtain ⟨clients, poisoned, length, same⟩ := h
  refine .mk (clients.modify c (·.receive seq reply)) poisoned ?_ fun c' hc' => ?_
  · rw [Dispatcher.send, List.length_modify, List.length_modify, length]
  · rw [Dispatcher.send, List.getElem?_modify, List.getElem?_modify, same c' hc']

theorem setPhase (h : Alike lost d d') (i : Nat) (p : Phase) :
    Alike lost (d.setPhase i p) (d'.setPhase i p) := by
  obtain ⟨clients, poisoned, length, same⟩ := h
  exact .mk clients poisoned length same

theorem poison (h : Alike lost d d') : Alike lost d (d'.step .poison) := by
  obtain ⟨clients, poisoned, length, same⟩ := h
  rw [Dispatcher.step]
  split
  · exact .mk clients poisoned length same
  · exact .mk clients true length same

theorem start (h : Alike lost d d') (c : Nat) (seq : UInt32) (request : Request) :
    Alike lost (d.start c seq request) (d'.start c seq request) := by
  obtain ⟨clients, poisoned, length, same⟩ := h
  exact .mk clients poisoned length same

theorem dispatch (h : Alike lost d d') (c : Nat) (seq : UInt32) (words : List Bytes) :
    Alike lost (d.dispatch c seq words).1 (d'.dispatch c seq words).1 := by
  rw [dispatch_eq, dispatch_eq, h.verdict_eq]
  cases d.verdict words with
  | ok request => exact h.start c seq request
  | error failure => exact h

theorem handleLine (h : Alike lost d d') (c : Nat) (text : Bytes) :
    Alike lost (d.handleLine c text) (d'.handleLine c text) := by
  rw [Dispatcher.handleLine, Dispatcher.handleLine]
  cases Command.ofLine? text with
  | none => exact h
  | some command =>
    simp only [dispatch_eq, h.verdict_eq]
    cases d.verdict command.words with
    | ok request => exact h.start c command.seq request
    | error failure => exact h.send c command.seq _

theorem connect (h : Alike lost d d') (medium : Medium) :
    Alike lost (d.step (.connect medium)) (d'.step (d.disturbed lost (.connect medium))) := by
  obtain ⟨clients, poisoned, length, same⟩ := h
  refine .mk _ poisoned (by simp [Dispatcher.step, length]) fun c hc => ?_
  rw [Dispatcher.step]
  rcases Nat.lt_trichotomy c d.clients.length with hlt | rfl | hgt
  · rw [List.getElem?_append_left hlt, List.getElem?_append_left (length ▸ hlt), same c hc]
  · rw [List.getElem?_concat_length, ← length, List.getElem?_concat_length, length, hc]
    rfl
  · rw [List.getElem?_eq_none (by simp; omega), List.getElem?_eq_none (by simp; omega)]

theorem resolve (h : Alike lost d d') (i : Nat) :
    Alike lost (d.step (.resolve i)) (d'.step (.resolve i)) := by
  obtain ⟨clients, poisoned, length, same⟩ := h
  simp only [Dispatcher.step]
  split
  · next w _ =>
    split
    · rcases Bool.eq_false_or_eq_true d.held with hheld | hfree
      · rw [lock?_of_held hheld, lock?_of_held (d := { d with clients, poisoned }) hheld]
        exact .mk clients poisoned length same
      · obtain ⟨guard, hguard, htracker⟩ := lock?_of_free hfree
        obtain ⟨guard', hguard', htracker'⟩ :=
          lock?_of_free (d := { d with clients, poisoned }) hfree
        simp only [hguard, hguard', htracker, htracker']
        exact .mk clients poisoned length same
    · exact .mk clients poisoned length same
  · exact .mk clients poisoned length same

theorem deliver (h : Alike lost d d') (i : Nat) :
    Alike lost (d.step (.deliver i)) (d'.step (.deliver i)) := by
  have hworkers : d'.workers = d.workers := by cases h; rfl
  simp only [Dispatcher.step, hworkers]
  split
  · next w _ =>
    split
    · exact (h.send w.client w.seq _).setPhase i .delivered
    · exact h
  · exact h

theorem finish (h : Alike lost d d') (i : Nat) :
    Alike lost (d.step (.finish i)) (d'.step (.finish i)) := by
  obtain ⟨clients, poisoned, length, same⟩ := h
  simp only [Dispatcher.step]
  split
  · split
    · exact .mk clients poisoned length same
    · exact .mk clients poisoned length same
  · exact .mk clients poisoned length same

theorem of_poison (h : Alike lost d d') : Alike lost (d.step .poison) d' := by
  obtain ⟨clients, poisoned, length, same⟩ := h
  rw [Dispatcher.step]
  split
  · exact .mk clients poisoned length same
  · exact .mk clients poisoned length same

/-- No step tells two states that are alike apart. -/
theorem step (h : Alike lost d d') (a : Action) :
    Alike lost (d.step a) (d'.step (d.disturbed lost a)) := by
  cases a with
  | connect medium => exact h.connect medium
  | dispatch c seq words => exact h.dispatch c seq words
  | line c text => exact h.handleLine c text
  | resolve i => exact h.resolve i
  | deliver i => exact h.deliver i
  | finish i => exact h.finish i
  | poison => exact h.poison.of_poison
  | _ =>
    obtain ⟨clients, poisoned, length, same⟩ := h
    exact .mk clients poisoned length same

end Alike

/-! ## Runs -/

namespace Disturbs

theorem alike (h : Disturbs lost d actions actions') (alike : Alike lost d d') :
    Alike lost (d.run actions) (d'.run actions') := by
  induction h generalizing d' with
  | done => exact alike
  | step a _ ih => exact ih (alike.step a)
  | poison _ _ ih => exact ih alike.poison

theorem outcomes_eq (h : Disturbs lost d actions actions') (alike : Alike lost d d') :
    d'.outcomes actions' = d.outcomes actions := by
  induction h generalizing d' with
  | done => rfl
  | @step d actions actions' a _ ih =>
    have hcommand : (d.disturbed lost a).command? = a.command? := by cases a <;> rfl
    simp only [outcomes, hcommand, alike.refusal_eq, ih (alike.step a)]
  | poison _ _ ih => exact ih alike.poison

theorem quietCounts_eq (h : Disturbs lost d actions actions') (alike : Alike lost d d') :
    d'.quietCounts actions' = d.quietCounts actions := by
  induction h generalizing d' with
  | done d => rw [quietCounts, quietCounts, alike.quietCount_eq]
  | @step d actions actions' a _ ih =>
    have hrest := ih (alike.step a)
    cases a with
    | poison => exact hrest
    | _ => exact congrArg₂ (· ++ ·) (congrArg Option.toList alike.quietCount_eq) hrest
  | poison _ _ ih => exact ih alike.poison

end Disturbs

end

/--
A run disturbed by lost clients and by panics under the lock, at any positions, any number of them:
the other clients get the same replies, the same commands are refused for the same reasons, as many
slots are taken wherever no worker can go on, and the tracker ends with the same path and snapshot.
-/
theorem faults_isolated (d : Dispatcher) (lost : Nat → Bool) (actions actions' : List Action)
    (disturbs : Disturbs lost d actions actions') :
    (∀ c, lost c = false →
      ((d.lose lost).run actions').clients[c]? = (d.run actions).clients[c]?) ∧
    (d.lose lost).outcomes actions' = d.outcomes actions ∧
    (d.lose lost).quietCounts actions' = d.quietCounts actions ∧
    ((d.lose lost).run actions').tracker = (d.run actions).tracker := by
  have start := alike_lose lost d
  have final := disturbs.alike start
  exact ⟨fun c => final.client_eq, disturbs.outcomes_eq start, disturbs.quietCounts_eq start,
    final.tracker_eq⟩

def sampleCalm : List Action :=
  [.connect .memory, .dispatch 0 1 sampleRequest.arguments, .dispatch 1 2 sampleRequest.arguments,
    .hold, .resolve 0, .release, .resolve 0, .resolve 1, .deliver 0, .deliver 1, .finish 0,
    .finish 1]

def sampleStorm : List Action :=
  .poison :: sampleCalm.take 6 ++ .poison :: sampleCalm.drop 6

theorem sample_isolated :
    Disturbs (· == 0) sample sampleCalm sampleStorm ∧
      ((sample.lose (· == 0)).run sampleStorm).clients[1]? = (sample.run sampleCalm).clients[1]? ∧
      (sample.run sampleCalm).clients.map (·.received.length) = [1, 1] ∧
      ((sample.lose (· == 0)).run sampleStorm).clients.map (·.received.length) = [0, 1] := by
  have disturbs : Disturbs (· == 0) sample sampleCalm sampleStorm :=
    .poison rfl (.step _ (.step _ (.step _ (.step _ (.step _ (.step _ (.poison rfl (.step _
      (.step _ (.step _ (.step _ (.step _ (.step _ (.done _))))))))))))))
  obtain ⟨clients, -⟩ := faults_isolated sample (· == 0) sampleCalm sampleStorm disturbs
  exact ⟨disturbs, clients 1 rfl, by decide +kernel, by decide +kernel⟩

end Dispatcher

end HostLookup
