import HostLookup.Proofs.Dispatch
import HostLookup.Proofs.Request

/-!
# Slots

A slot is taken when a command is accepted and given back when its worker ends.
`IsCounted` ties the counter to the workers and keeps it within the limit; every
step keeps it (`IsCounted.step`), so every state of a run has it. From it follows
which commands find no slot: those that come while the counter is at the limit.
-/

namespace HostLookup

open Bytes Hosts

/-- A worker has its slot until it ends. -/
def Worker.holdsSlot (w : Worker) : Bool := w.slotted && w.phase != .ended

namespace Dispatcher

section

variable {d : Dispatcher} {words : List Bytes} {request : Request}
  {failure : Failure} {i : Nat} {w : Worker}

/-! ## Refusals -/

theorem saturated_iff : d.saturated = true ↔ 0 < d.limit ∧ d.limit ≤ d.active := by
  simp [saturated, Nat.pos_iff_ne_zero]

theorem saturated_of_verdict (h : d.verdict words = .ok request) : d.saturated = false := by
  rw [verdict_of_wellFormed (ofArguments_of_verdict h)] at h
  split at h
  · cases h
  · next hs => exact Bool.eq_false_iff.mpr hs

theorem verdict_eq_busy_iff (h : Request.ofArguments words = .ok request) {n : Nat} :
    d.verdict words = .error (.busy n) ↔ n = d.limit ∧ d.saturated = true := by
  rw [verdict_of_wellFormed h]
  split
  · next hs => simp [hs, eq_comm]
  · next hs => split <;> simp [hs]

theorem dispatch_fails_iff {c : Nat} {seq : UInt32} :
    (d.dispatch c seq words).2 = some failure ↔ d.verdict words = .error failure := by
  cases h : d.verdict words with
  | ok request => simp [dispatch_of_ok h]
  | error failure' => simp [dispatch_of_error h]

theorem limit_step (d : Dispatcher) (a : Action) : (d.step a).limit = d.limit := by
  have h := d.effect_step a
  generalize d.step a = d' at h ⊢
  cases h <;> rfl

theorem limit_run (d : Dispatcher) (actions : List Action) : (d.run actions).limit = d.limit := by
  induction actions generalizing d with
  | nil => rfl
  | cons a actions ih => exact (ih (d.step a)).trans (d.limit_step a)

/-! ## The counter -/

/-- The counter counts the workers with a slot, and stays within the limit. -/
structure IsCounted (d : Dispatcher) : Prop where
  active : d.active = d.workers.countP Worker.holdsSlot
  le_limit : 0 < d.limit → d.active ≤ d.limit

namespace IsCounted

theorem pos (h : d.IsCounted) (hw : d.workers[i]? = some w) (hold : w.holdsSlot = true) :
    0 < d.active := by
  rw [h.active]
  exact List.countP_pos_iff.mpr ⟨w, List.mem_of_getElem? hw, hold⟩

theorem saturated_iff (h : d.IsCounted) :
    d.saturated = true ↔ 0 < d.limit ∧ d.active = d.limit := by
  rw [Dispatcher.saturated_iff]
  constructor
  · rintro ⟨hpos, hle⟩
    exact ⟨hpos, Nat.le_antisymm (h.le_limit hpos) hle⟩
  · rintro ⟨hpos, heq⟩
    exact ⟨hpos, Nat.le_of_eq heq.symm⟩

/-- No slot is taken past the limit, and none is given back that was not taken. -/
theorem step (h : d.IsCounted) (a : Action) : (d.step a).IsCounted := by
  have heffect := d.effect_step a
  generalize d.step a = d' at heffect ⊢
  cases heffect with
  | aside | connect | refuseDispatch | refuseLine | blank | stall => exact ⟨h.active, h.le_limit⟩
  | start brings accepted =>
    have hfree := saturated_of_verdict accepted
    refine ⟨?_, fun hpos => Nat.lt_of_not_le fun hle => ?_⟩
    · simp only [Dispatcher.start, List.countP_append, h.active]
      rfl
    · have hfull : d.saturated = true := Dispatcher.saturated_iff.mpr ⟨hpos, hle⟩
      rw [hfull] at hfree
      cases hfree
  | work =>
    refine ⟨?_, h.le_limit⟩
    simp only [List.countP_append, h.active]
    rfl
  | resolve worker phase free =>
    refine ⟨h.active.trans (countP_setPhase_of_eq worker ?_).symm, h.le_limit⟩
    simp only [Worker.holdsSlot, phase]
    rfl
  | deliver worker phase =>
    refine ⟨h.active.trans (countP_setPhase_of_eq worker ?_).symm, h.le_limit⟩
    simp only [Worker.holdsSlot, phase]
    rfl
  | @finish i w worker phase =>
    have hcount := countP_setPhase (p := .ended) Worker.holdsSlot worker
    have hheld : w.holdsSlot = w.slotted := by simp [Worker.holdsSlot, phase]
    have hended : Worker.holdsSlot { w with phase := .ended } = false := Bool.and_false _
    rw [hheld, hended] at hcount
    constructor
    · change (if w.slotted then d.active - 1 else d.active) =
        (d.setPhase i .ended).workers.countP Worker.holdsSlot
      rw [h.active]
      split at hcount
      · next hs =>
        rw [if_pos hs]
        simp only [Bool.false_eq_true, if_false] at hcount
        omega
      · next hs =>
        rw [if_neg hs]
        simpa using hcount.symm
    · intro hlimit
      have := h.le_limit hlimit
      change (if w.slotted then d.active - 1 else d.active) ≤ d.limit
      split <;> omega

theorem run (h : d.IsCounted) (actions : List Action) : (d.run actions).IsCounted := by
  induction actions generalizing d with
  | nil => exact h
  | cons a actions ih => exact ih (h.step a)

theorem active_finish (h : d.IsCounted) (hw : d.workers[i]? = some w) (hs : w.slotted = true)
    (phase : w.phase = .delivered) : (d.step (.finish i)).active + 1 = d.active := by
  have hpos : 0 < d.active := h.pos hw (by simp [Worker.holdsSlot, hs, phase])
  have hstep : (d.step (.finish i)).active = if w.slotted then d.active - 1 else d.active := by
    simp only [Dispatcher.step, hw, phase, if_true]
    rfl
  rw [hstep, if_pos hs]
  omega

theorem active_eq_zero (h : d.IsCounted) (ended : ∀ w ∈ d.workers, w.phase = .ended) :
    d.active = 0 := by
  rw [h.active, List.countP_eq_zero]
  intro w hw
  simp [Worker.holdsSlot, ended w hw]

end IsCounted

/-- A command that fails is answered at most, and leaves all else as it was. -/
theorem step_line_of_error {c : Nat} {text : Bytes} {command : Command}
    (reads : Command.ofLine? text = some command) (h : d.verdict command.words = .error failure) :
    d.step (.line c text) = d.send c command.seq (.ofRefusal command.words failure) := by
  simp only [step, handleLine, reads, dispatch_of_error h]

end

/--
In every state that a dispatcher without workers can get to, whatever the order of what its
connections, its workers and the holders of its lock do. The counter counts the workers that have a
slot, stays within the limit and never goes below zero. A well-formed command finds no slot exactly
at the limit; any other fails as such, also at the limit. A command that fails leaves everything as
it was, but for the answer to a line. Once all workers have ended no slot is taken.
-/
theorem slots_bounded (d : Dispatcher) (workers : d.workers = []) (active : d.active = 0)
    (actions : List Action) :
    let s := d.run actions
    s.active = s.workers.countP Worker.holdsSlot ∧
    (0 < d.limit → s.active ≤ d.limit) ∧
    (∀ i w, s.workers[i]? = some w → w.slotted = true → w.phase = .delivered →
      (s.step (.finish i)).active + 1 = s.active) ∧
    (∀ c seq words request n, Request.ofArguments words = .ok request →
      ((s.dispatch c seq words).2 = some (.busy n) ↔
        n = d.limit ∧ 0 < d.limit ∧ s.active = d.limit)) ∧
    (∀ c seq words failure, Request.ofArguments words = .error failure →
      (∃ cause, failure = .badCommand cause) ∧ (s.dispatch c seq words).2 = some failure) ∧
    (∀ c seq words failure, (s.dispatch c seq words).2 = some failure →
      s.step (.dispatch c seq words) = s) ∧
    (∀ c text command failure, Command.ofLine? text = some command →
      (s.dispatch c command.seq command.words).2 = some failure →
      s.step (.line c text) =
        { s with clients := (s.step (.line c text)).clients }) ∧
    ((∀ w ∈ s.workers, w.phase = .ended) → s.active = 0) := by
  intro s
  have start : d.IsCounted := by
    constructor
    · rw [workers, active]
      rfl
    · intro _
      rw [active]
      exact Nat.zero_le _
  have counted : s.IsCounted := start.run actions
  have limit : s.limit = d.limit := d.limit_run actions
  refine ⟨counted.active, limit ▸ counted.le_limit, fun i w => counted.active_finish, ?_, ?_, ?_,
    ?_, counted.active_eq_zero⟩
  · intro c seq words request n wellFormed
    rw [dispatch_fails_iff, verdict_eq_busy_iff wellFormed, counted.saturated_iff, limit]
  · intro c seq words failure malformed
    exact ⟨Request.failsBadly_ofArguments words failure malformed,
      dispatch_fails_iff.mpr (verdict_of_malformed malformed)⟩
  · intro c seq words failure fails
    rw [step, dispatch_of_error (dispatch_fails_iff.mp fails)]
  · intro c text command failure reads fails
    rw [step_line_of_error reads (dispatch_fails_iff.mp fails)]
    rfl

def oneSlot : Dispatcher :=
  { files := Tracking.sampleFiles
    tracker := ⟨Tracking.samplePath, none, 0⟩
    limit := 1
    clients := [{ medium := .memory }, { medium := .broken }] }

def slotRequest : Request := .forward (some (ascii "a")) none none

theorem reads_query :
    Command.ofLine? (ascii "7 getaddrinfo a ^ -1 -1 -1 -1") = some ⟨7, slotRequest.arguments⟩ := by
  decide +kernel

theorem wellFormed_query : Request.ofArguments slotRequest.arguments = .ok slotRequest := by rfl

/-- A worker ends although its client is lost; the next one waits for the lock. -/
def oneSlotLoad : List Action :=
  [.dispatch 1 1 slotRequest.arguments, .line 0 (ascii "2 getaddrinfo a ^ -1 -1 -1 -1"),
    .resolve 0, .deliver 0, .finish 0, .poison, .hold,
    .line 0 (ascii "3 getaddrinfo b ^ -1 -1 -1 -1"), .resolve 1]

theorem oneSlot_full :
    (oneSlot.run oneSlotLoad).active = 1 ∧
      ((oneSlot.run oneSlotLoad).dispatch 0 4 slotRequest.arguments).2 = some (.busy 1) ∧
      (oneSlot.run oneSlotLoad).step (.dispatch 0 4 slotRequest.arguments) =
        oneSlot.run oneSlotLoad ∧
      ((oneSlot.run oneSlotLoad).dispatch 0 5 []).2 = some (.badCommand .empty) := by
  have reads := wellFormed_query
  have full : (oneSlot.run oneSlotLoad).active = 1 := by decide +kernel
  have bounded := slots_bounded oneSlot rfl rfl oneSlotLoad
  generalize oneSlot.run oneSlotLoad = s at full bounded ⊢
  obtain ⟨-, -, -, busy, malformed, kept, -, -⟩ := bounded
  have refused := (busy 0 4 _ _ 1 reads).mpr ⟨rfl, Nat.zero_lt_one, full⟩
  exact ⟨full, refused, kept _ _ _ _ refused, (malformed 0 5 [] _ rfl).2⟩

end Dispatcher

end HostLookup
