import HostLookup.Proofs.Answers
import HostLookup.Proofs.Slots

/-!
# Outstanding commands

A worker sends its reply in one step and frees its slot in a later one. Between
the two it lingers: its client has the reply, and the slot is still taken. So a
client that counts the replies it waits for does not know how many slots its
commands take; they take one for each of these and one for each worker that
lingers (`SoleUser.active_eq`), and a command is refused by the sum of both
(`busy_iff_outstanding`).
-/

namespace HostLookup

open Bytes Hosts

namespace Worker

/-- The worker has yet to send its reply. -/
def isUnpaid (w : Worker) : Bool := decide (w.phase.rank < Phase.delivered.rank)

/-- The worker has sent its reply and has its slot still. -/
def lingers (w : Worker) : Bool := w.phase == .delivered

end Worker

namespace Dispatcher

def repliesOf (d : Dispatcher) (c : Nat) : List (UInt32 × Reply) :=
  (d.clients[c]?.map (·.received)).getD []

/-- The commands that a client sent in a run before step `k` and has no reply to at that step. -/
def outstanding (d : Dispatcher) (actions : List Action) (c k : Nat) : Nat :=
  ((actions.take k).filterMap (·.number? c)).length - ((d.after actions k).repliesOf c).length

def lingering (d : Dispatcher) : Nat := d.workers.countP Worker.lingers

/-- The client is the only one to use the dispatcher in a run, and sends well-formed commands. -/
structure SoleUser (d : Dispatcher) (actions : List Action) (c : Nat) : Prop where
  workers : d.workers = []
  active : d.active = 0
  client : ∃ medium, medium ≠ .broken ∧ d.clients[c]? = some ⟨medium, []⟩
  direct : ∀ a ∈ actions, ∀ user, ¬ a.Bypasses user
  alone : ∀ user text, .line user text ∈ actions → user = c
  wellFormed : ∀ user text, .line user text ∈ actions → ∀ command,
    Command.ofLine? text = some command → ∃ request, Request.ofArguments command.words = .ok request

section

variable {d : Dispatcher} {actions : List Action} {c i k : Nat} {w : Worker}

/-! ## Workers that linger -/

theorem countP_holdsSlot {workers : List Worker} (slotted : ∀ w ∈ workers, w.slotted = true) :
    workers.countP Worker.holdsSlot =
      workers.countP Worker.isUnpaid + workers.countP Worker.lingers := by
  induction workers with
  | nil => rfl
  | cons w workers ih =>
    obtain ⟨hw, hworkers⟩ := List.forall_mem_cons.mp slotted
    have hsplit : (if w.holdsSlot = true then 1 else 0) =
        (if w.isUnpaid = true then 1 else 0) + if w.lingers = true then 1 else 0 := by
      unfold Worker.holdsSlot Worker.isUnpaid Worker.lingers
      rw [hw]
      cases w.phase <;> rfl
    rw [List.countP_cons, List.countP_cons, List.countP_cons, ih hworkers, hsplit]
    omega

/-- A worker that lingers can free its slot, whatever the others do; nobody else is told. -/
theorem lingering_finish (hw : d.workers[i]? = some w) (lingers : w.lingers = true) :
    (d.step (.finish i)).lingering + 1 = d.lingering ∧
      (d.step (.finish i)).clients = d.clients := by
  have phase : w.phase = .delivered := eq_of_beq lingers
  have hcount := countP_setPhase (p := .ended) Worker.lingers hw
  have hended : Worker.lingers { w with phase := .ended } = false := rfl
  rw [lingers, hended] at hcount
  simp only [step, hw, phase, if_true]
  exact ⟨hcount, rfl⟩

theorem exists_closing (d : Dispatcher) :
    ∃ closing, (∀ a ∈ closing, ∃ i, a = .finish i) ∧ (d.run closing).lingering = 0 ∧
      (d.run closing).clients = d.clients := by
  induction hn : d.lingering generalizing d with
  | zero => exact ⟨[], List.forall_mem_nil _, hn, rfl⟩
  | succ n ih =>
    have hpos : 0 < d.lingering := by omega
    obtain ⟨w, hmem, lingers⟩ := List.countP_pos_iff.mp hpos
    obtain ⟨i, hw⟩ := List.getElem?_of_mem hmem
    obtain ⟨hfreed, hclients⟩ := lingering_finish hw lingers
    have hrest : (d.step (.finish i)).lingering = n := by omega
    obtain ⟨closing, hclosing, hzero, hkept⟩ := ih (d.step (.finish i)) hrest
    exact ⟨.finish i :: closing, List.forall_mem_cons.mpr ⟨⟨i, rfl⟩, hclosing⟩, hzero,
      hkept.trans hclients⟩

/-! ## A client on its own -/

namespace SoleUser

theorem of_worker (h : d.SoleUser actions c) (hk : k ≤ actions.length)
    (hw : (d.after actions k).workers[i]? = some w) : w.client = c ∧ w.slotted = true := by
  have hfresh : d.workers.length ≤ i := by
    rw [h.workers]
    exact Nat.zero_le i
  obtain ⟨j, -, starts⟩ := exists_starts hfresh hw hk
  obtain ⟨a, ha, -, hbrings⟩ := starts.brings
  have hmem := List.mem_of_getElem? ha
  obtain ⟨_, _, _, _, _⟩ := w
  cases hbrings with
  | command brings accepted =>
    rcases Action.command?_eq_some_iff.mp brings with rfl | ⟨text, rfl, -⟩
    · exact absurd rfl (h.direct _ hmem _)
    · exact ⟨h.alone _ _ hmem, rfl⟩
  | work => exact absurd rfl (h.direct _ hmem _)

theorem isCounted (h : d.SoleUser actions c) : d.IsCounted := by
  constructor
  · rw [h.workers, h.active]
    rfl
  · intro _
    rw [h.active]
    exact Nat.zero_le _

/-- Number by number, what the client has and what its workers have yet to send is what it sent. -/
theorem perm (h : d.SoleUser actions c) (hk : k ≤ actions.length) :
    (((d.after actions k).repliesOf c).map (·.1) ++
      ((d.after actions k).workers.filter Worker.isUnpaid).map (·.seq)).Perm
        ((actions.take k).filterMap (·.number? c)) := by
  obtain ⟨medium, works, hclient⟩ := h.client
  have direct : ∀ a ∈ actions.take k, ¬ a.Bypasses c := fun a ha =>
    h.direct a (List.mem_of_mem_take ha) c
  obtain ⟨client, hc, -, books⟩ := balance_run hclient works direct
  rw [← after] at hc books
  have hreplies : (d.after actions k).repliesOf c = client.received := by
    rw [repliesOf, hc]
    rfl
  refine List.perm_iff_count.mpr fun n => ?_
  have hbooks := books n
  have hstart : d.balance c ⟨medium, []⟩ n = 0 := by
    rw [balance, h.workers]
    rfl
  have howes : (((d.after actions k).workers.filter Worker.isUnpaid).map (·.seq)).count n =
      (d.after actions k).workers.countP (Worker.owes c n) := by
    rw [List.count, List.countP_map, List.countP_filter]
    refine List.countP_congr fun w hw => ?_
    obtain ⟨i, hi⟩ := List.getElem?_of_mem hw
    simp [Worker.owes, Worker.isUnpaid, (h.of_worker hk hi).1]
  rw [hstart, Nat.zero_add, balance] at hbooks
  rw [List.count_append, hreplies, howes, hbooks]

/-- What is outstanding is what workers have yet to send. -/
theorem outstanding_eq (h : d.SoleUser actions c) (hk : k ≤ actions.length) :
    d.outstanding actions c k = (d.after actions k).workers.countP Worker.isUnpaid := by
  have hlength := (h.perm hk).length_eq
  rw [List.length_append, List.length_map, List.length_map, ← List.countP_eq_length_filter]
    at hlength
  rw [outstanding]
  omega

theorem active_eq (h : d.SoleUser actions c) (hk : k ≤ actions.length) :
    (d.after actions k).active = d.outstanding actions c k + (d.after actions k).lingering := by
  have hslotted : ∀ w ∈ (d.after actions k).workers, w.slotted = true := fun w hw => by
    obtain ⟨i, hi⟩ := List.getElem?_of_mem hw
    exact (h.of_worker hk hi).2
  rw [h.outstanding_eq hk, lingering, ← countP_holdsSlot hslotted]
  exact (h.isCounted.run _).active

theorem append_closing (h : d.SoleUser actions c) {closing : List Action}
    (hclosing : ∀ a ∈ closing, ∃ i, a = .finish i) :
    d.SoleUser (actions.take k ++ closing) c := by
  have line : ∀ user text, .line user text ∈ actions.take k ++ closing →
      .line user text ∈ actions := by
    intro user text hmem
    rcases List.mem_append.mp hmem with hmem | hmem
    · exact List.mem_of_mem_take hmem
    · obtain ⟨i, hi⟩ := hclosing _ hmem
      cases hi
  refine ⟨h.workers, h.active, h.client, fun a ha user => ?_,
    fun user text hmem => h.alone user text (line user text hmem),
    fun user text hmem => h.wellFormed user text (line user text hmem)⟩
  rcases List.mem_append.mp ha with ha | ha
  · exact h.direct a (List.mem_of_mem_take ha) user
  · obtain ⟨i, rfl⟩ := hclosing a ha
    exact id

/-- Once no worker lingers, a slot is taken for each command that is outstanding. -/
theorem active_closing (h : d.SoleUser actions c) {closing : List Action}
    (hclosing : ∀ a ∈ closing, ∃ i, a = .finish i)
    (zero : ((d.after actions k).run closing).lingering = 0)
    (same : ((d.after actions k).run closing).clients = (d.after actions k).clients) :
    ((d.after actions k).run closing).active = d.outstanding actions c k := by
  have hrun : d.after (actions.take k ++ closing) (actions.take k ++ closing).length =
      (d.after actions k).run closing := by
    rw [after_length, run, List.foldl_append]
    rfl
  have hactive := (h.append_closing (k := k) hclosing).active_eq (Nat.le_refl _)
  have hnumbers : closing.filterMap (·.number? c) = [] := by
    rw [List.filterMap_eq_nil_iff]
    intro a ha
    obtain ⟨i, rfl⟩ := hclosing a ha
    rfl
  rw [outstanding, List.take_length, List.filterMap_append, hnumbers, List.append_nil, hrun, zero,
    repliesOf, same] at hactive
  exact hactive

end SoleUser

end

/--
A client is the only user of a dispatcher and sends it well-formed commands, and the workers take
their steps in any order. When it sends a command, a slot is taken for each command without a reply
and for each worker that lingers; it is refused exactly if these are as many as the limit. A worker
that lingers can free its slot, whatever the others do, and once all have, a client with fewer
commands outstanding than the limit is not refused.
-/
theorem busy_iff_outstanding (d : Dispatcher) (actions : List Action) (c : Nat)
    (sole : d.SoleUser actions c) (k : Nat) (text : Bytes) (command : Command)
    (action : actions[k]? = some (.line c text)) (reads : Command.ofLine? text = some command) :
    let s := d.after actions k
    s.active = d.outstanding actions c k + s.lingering ∧
    (∀ n, (s.dispatch c command.seq command.words).2 = some (.busy n) ↔
      n = d.limit ∧ 0 < d.limit ∧ d.limit ≤ d.outstanding actions c k + s.lingering) ∧
    (∀ i w, s.workers[i]? = some w → w.lingers = true →
      (s.step (.finish i)).lingering + 1 = s.lingering) ∧
    ∃ closing, (∀ a ∈ closing, ∃ i, a = .finish i) ∧ (s.run closing).clients = s.clients ∧
      (d.outstanding actions c k < d.limit →
        ∀ n, ((s.run closing).dispatch c command.seq command.words).2 ≠ some (.busy n)) := by
  intro s
  have hk : k ≤ actions.length := Nat.le_of_lt (List.getElem?_eq_some_iff.mp action).1
  have limit : s.limit = d.limit := d.limit_run _
  obtain ⟨request, wellFormed⟩ :=
    sole.wellFormed c text (List.mem_of_getElem? action) command reads
  have active := sole.active_eq hk
  refine ⟨active, fun n => ?_, fun i w hw lingers => (lingering_finish hw lingers).1, ?_⟩
  · rw [dispatch_fails_iff, verdict_eq_busy_iff wellFormed, saturated_iff, limit]
    show n = d.limit ∧ 0 < d.limit ∧ d.limit ≤ (d.after actions k).active ↔ _
    rw [active]
  · obtain ⟨closing, hclosing, zero, same⟩ := s.exists_closing
    refine ⟨closing, hclosing, same, fun fewer n busy => ?_⟩
    rw [dispatch_fails_iff, verdict_eq_busy_iff wellFormed, saturated_iff, limit_run, limit] at busy
    have hactive : (s.run closing).active = _ := sole.active_closing hclosing zero same
    omega

def hasty : List Action :=
  [.line 0 (ascii "7 getaddrinfo a ^ -1 -1 -1 -1"), .resolve 0, .deliver 0,
    .line 0 (ascii "7 getaddrinfo a ^ -1 -1 -1 -1")]

def patient : List Action :=
  [.line 0 (ascii "7 getaddrinfo a ^ -1 -1 -1 -1"), .resolve 0, .deliver 0, .finish 0,
    .line 0 (ascii "7 getaddrinfo a ^ -1 -1 -1 -1")]

theorem soleUser_oneClient {actions : List Action}
    (lines : ∀ a ∈ actions, a = .line 0 (ascii "7 getaddrinfo a ^ -1 -1 -1 -1") ∨
      ∃ i, a = .resolve i ∨ a = .deliver i ∨ a = .finish i) :
    oneClient.SoleUser actions 0 where
  workers := rfl
  active := rfl
  client := ⟨.stream, by decide, rfl⟩
  direct := by
    intro a ha user
    rcases lines a ha with rfl | ⟨i, rfl | rfl | rfl⟩ <;> exact id
  alone := by
    intro user text hmem
    rcases lines _ hmem with h | ⟨i, h | h | h⟩ <;> cases h
    rfl
  wellFormed := by
    intro user text hmem command reads
    rcases lines _ hmem with h | ⟨i, h | h | h⟩ <;> cases h
    rw [reads_query] at reads
    cases reads
    exact ⟨_, wellFormed_query⟩

/-- With no command outstanding the second query is refused, since the worker lingers. -/
theorem hasty_refused :
    oneClient.SoleUser hasty 0 ∧
      (∀ k text, hasty[k]? = some (.line 0 text) →
        oneClient.outstanding hasty 0 k < oneClient.limit) ∧
      hasty[3]? = some (.line 0 (ascii "7 getaddrinfo a ^ -1 -1 -1 -1")) ∧
      ((oneClient.after hasty 3).dispatch 0 7 slotRequest.arguments).2 = some (.busy 1) := by
  refine ⟨soleUser_oneClient (by simp [hasty]), fun k text h => ?_, rfl, by decide +kernel⟩
  have waits : oneClient.outstanding hasty 0 0 = 0 := rfl
  have waits' : oneClient.outstanding hasty 0 3 = 0 := by decide +kernel
  rcases k with _ | _ | _ | _ | k
  · show oneClient.outstanding hasty 0 0 < 1
    omega
  · cases h
  · cases h
  · show oneClient.outstanding hasty 0 3 < 1
    omega
  · cases h

theorem patient_accepted :
    oneClient.SoleUser patient 0 ∧
      ((oneClient.after patient 4).dispatch 0 7 slotRequest.arguments).2 ≠ some (.busy 1) := by
  have sole : oneClient.SoleUser patient 0 := soleUser_oneClient (by simp [patient])
  have slots : oneClient.outstanding patient 0 4 + (oneClient.after patient 4).lingering = 0 := by
    decide +kernel
  obtain ⟨-, refused, -⟩ := busy_iff_outstanding oneClient patient 0 sole 4 _ _ rfl reads_query
  refine ⟨sole, fun busy => ?_⟩
  have full : 1 ≤ oneClient.outstanding patient 0 4 + (oneClient.after patient 4).lingering :=
    ((refused 1).mp busy).2.2
  omega

end Dispatcher

end HostLookup
