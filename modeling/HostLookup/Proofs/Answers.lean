import HostLookup.Proofs.Messages
import HostLookup.Proofs.Request

/-!
# Answers to lines

Each command of a client is answered once. The books balance at every step: what
the client has received and what workers still owe it are as many, number by
number, as the commands it has sent (`balance_step`). `Answers` follows the
single command from the step that hands it over to the step that answers it.
-/

namespace HostLookup

open Bytes Hosts

namespace Action

/-- The line that an action hands over for a client. -/
def lineFor? (c : Nat) : Action → Option Bytes
  | line client text => if client = c then some text else none
  | _ => none

/-- The number of the command that an action hands over in a line for a client. -/
def number? (c : Nat) (a : Action) : Option UInt32 :=
  ((a.lineFor? c).bind Command.ofLine?).map (·.seq)

/-- Actions that start a worker for a client without a line. -/
def Bypasses (c : Nat) : Action → Prop
  | dispatch client _ _ | work client _ _ => client = c
  | _ => False

theorem number?_of_command {c c' : Nat} {a : Action} {command : Command}
    (h : a.command? = some (c', command)) (direct : ¬ a.Bypasses c) :
    a.number? c = if c' = c then some command.seq else none := by
  rcases command?_eq_some_iff.mp h with rfl | ⟨text, rfl, reads⟩
  · exact (if_neg direct).symm
  · rw [number?, lineFor?]
    split <;> simp [reads]

theorem count_number?_of_command {c c' : Nat} {n : UInt32} {a : Action} {command : Command}
    (h : a.command? = some (c', command)) (direct : ¬ a.Bypasses c) :
    (a.number? c).toList.count n = if c' = c ∧ command.seq = n then 1 else 0 := by
  rw [number?_of_command h direct]
  by_cases hc : c' = c
  · simp [hc, List.count_singleton]
  · simp [hc]

end Action

/-- The action makes a request of a client with a number. -/
def Action.Asks (c : Nat) (seq : UInt32) (a : Action) : Prop :=
  (∃ command, a.command? = some (c, command) ∧ command.seq = seq) ∨
    ∃ request, a = .work c seq request

theorem Action.Asks.exists_line {c : Nat} {seq : UInt32} {a : Action} (h : a.Asks c seq)
    (direct : ¬ a.Bypasses c) :
    ∃ text command, a = .line c text ∧ Command.ofLine? text = some command ∧
      command.seq = seq := by
  rcases h with ⟨command, brings, hseq⟩ | ⟨request, rfl⟩
  · rcases Action.command?_eq_some_iff.mp brings with rfl | ⟨text, rfl, reads⟩
    · exact absurd rfl direct
    · exact ⟨text, command, rfl, reads, hseq⟩
  · exact absurd rfl direct

/-- A worker that has yet to send a client a reply of a number. -/
def Worker.owes (c : Nat) (n : UInt32) (w : Worker) : Bool :=
  w.client == c && w.seq == n && decide (w.phase.rank < Phase.delivered.rank)

namespace Dispatcher

section

variable {d : Dispatcher} {a : Action} {actions : List Action} {c c' i j j' k k' : Nat}
  {seq seq' n : UInt32} {reply reply' : Reply} {client : Client} {w : Worker}

/-! ## The books -/

/-- The books of a client: the replies of a number that it has, and those it has to get. -/
def balance (d : Dispatcher) (c : Nat) (client : Client) (n : UInt32) : Nat :=
  (client.received.map (·.1)).count n + d.workers.countP (Worker.owes c n)

theorem owes_of_rank (h : w.phase.rank < Phase.delivered.rank) :
    w.owes c n = decide (w.client = c ∧ w.seq = n) := by
  simp [Worker.owes, h, Bool.beq_eq_decide_eq]

theorem balance_receive (works : client.medium ≠ .broken) :
    d.balance c (client.receive seq reply) n =
      d.balance c client n + if seq = n then 1 else 0 := by
  rw [balance, balance, Client.receive_of_works works]
  simp only [List.map_append, List.count_append, List.map_cons, List.map_nil, List.count_singleton,
    beq_iff_eq]
  omega

theorem balance_append (phase : w.phase = .waiting) :
    ({ d with workers := d.workers ++ [w] } : Dispatcher).balance c client n =
      d.balance c client n + if w.client = c ∧ w.seq = n then 1 else 0 := by
  have hrank : w.phase.rank < Phase.delivered.rank := by rw [phase]; exact Nat.zero_lt_two
  simp only [balance, List.countP_append, List.countP_singleton, owes_of_rank hrank,
    decide_eq_true_eq]
  omega

theorem balance_setPhase_delivered (hw : d.workers[i]? = some w)
    (phase : w.phase = .answered reply) :
    (d.setPhase i .delivered).balance c client n + (if w.client = c ∧ w.seq = n then 1 else 0) =
      d.balance c client n := by
  have hrank : w.phase.rank < Phase.delivered.rank := by rw [phase]; exact Nat.one_lt_two
  have hcount := countP_setPhase (p := .delivered) (Worker.owes c n) hw
  have hpaid : Worker.owes c n { w with phase := .delivered } = false := Bool.and_false _
  rw [owes_of_rank hrank, hpaid] at hcount
  simp only [decide_eq_true_eq, Bool.false_eq_true, if_false] at hcount
  unfold balance
  omega

theorem balance_setPhase {p : Phase} (hw : d.workers[i]? = some w)
    (same : (w.phase.rank < Phase.delivered.rank ↔ p.rank < Phase.delivered.rank)) :
    (d.setPhase i p).balance c client n = d.balance c client n := by
  have howes : Worker.owes c n { w with phase := p } = w.owes c n := by
    simp only [Worker.owes, same]
  rw [balance, balance, countP_setPhase_of_eq hw howes]

theorem balance_deliver_self (works : client.medium ≠ .broken) (hw : d.workers[i]? = some w)
    (phase : w.phase = .answered reply) :
    ((d.send w.client w.seq reply).setPhase i .delivered).balance w.client
      (client.receive w.seq reply) n = d.balance w.client client n := by
  have hpaid : ((d.send w.client w.seq reply).setPhase i .delivered).balance w.client
        (client.receive w.seq reply) n + (if w.client = w.client ∧ w.seq = n then 1 else 0) =
      (d.send w.client w.seq reply).balance w.client (client.receive w.seq reply) n :=
    balance_setPhase_delivered hw phase
  have hgot : (d.send w.client w.seq reply).balance w.client (client.receive w.seq reply) n =
      d.balance w.client client n + if w.seq = n then 1 else 0 :=
    balance_receive (d := d) works
  simp only [true_and] at hpaid
  exact Nat.add_right_cancel (hpaid.trans hgot)

theorem balance_deliver_ne (hc : w.client ≠ c) (hw : d.workers[i]? = some w)
    (phase : w.phase = .answered reply) :
    ((d.send w.client w.seq reply).setPhase i .delivered).balance c client n =
      d.balance c client n := by
  have hpaid : ((d.send w.client w.seq reply).setPhase i .delivered).balance c client n +
      (if w.client = c ∧ w.seq = n then 1 else 0) = d.balance c client n :=
    balance_setPhase_delivered (d := d.send w.client w.seq reply) hw phase
  rwa [if_neg fun h => hc h.1] at hpaid

/-- A step adds to the books what it hands over for the client. -/
theorem balance_step (h : d.clients[c]? = some client) (works : client.medium ≠ .broken)
    (direct : ¬ a.Bypasses c) :
    ∃ client', (d.step a).clients[c]? = some client' ∧ client'.medium = client.medium ∧
      ∀ n, (d.step a).balance c client' n =
        d.balance c client n + (a.number? c).toList.count n := by
  have heffect := d.effect_step a
  generalize d.step a = d' at heffect ⊢
  cases heffect with
  | aside files tracker held poisoned threads kind =>
    refine ⟨client, h, rfl, fun n => ?_⟩
    cases a <;> first | exact kind.elim | rfl
  | connect medium =>
    refine ⟨client, ?_, rfl, fun n => rfl⟩
    exact (List.getElem?_append_left (List.getElem?_eq_some_iff.mp h).1).trans h
  | @start _ c' command request brings accepted =>
    refine ⟨client, h, rfl, fun n => (balance_append (d := d) rfl).trans ?_⟩
    rw [Action.count_number?_of_command brings direct]
  | refuseDispatch refused => exact ⟨client, h, rfl, fun n => rfl⟩
  | @refuseLine c' text command failure reads refused =>
    have brings := Action.command?_line (c := c') reads
    by_cases hc : c' = c
    · subst hc
      refine ⟨_, getElem?_send_self h, Client.medium_receive, fun n => ?_⟩
      rw [Action.count_number?_of_command brings direct]
      refine (balance_receive (d := d) works).trans ?_
      simp only [true_and]
    · refine ⟨client, (getElem?_send_ne hc).trans h, rfl, fun n => ?_⟩
      rw [Action.count_number?_of_command brings direct, if_neg fun h => hc h.1]
      rfl
  | @blank c' text reads =>
    refine ⟨client, h, rfl, fun n => ?_⟩
    have hnone : (Action.line c' text).number? c = none := by
      rw [Action.number?, Action.lineFor?]
      split <;> simp [reads]
    rw [hnone]
    rfl
  | work c' seq request =>
    refine ⟨client, h, rfl, fun n => (balance_append (d := d) rfl).trans ?_⟩
    rw [if_neg fun h => direct h.1]
    rfl
  | resolve worker phase free =>
    refine ⟨client, h, rfl, fun n => balance_setPhase worker ?_⟩
    rw [phase]
    exact ⟨fun _ => Nat.one_lt_two, fun _ => Nat.zero_lt_two⟩
  | @deliver i w reply worker phase =>
    by_cases hc : w.client = c
    · subst hc
      exact ⟨_, getElem?_send_self h, Client.medium_receive,
        fun n => balance_deliver_self works worker phase⟩
    · exact ⟨client, (getElem?_send_ne hc).trans h, rfl,
        fun n => balance_deliver_ne hc worker phase⟩
  | finish worker phase =>
    refine ⟨client, h, rfl, fun n => balance_setPhase worker ?_⟩
    rw [phase]
    exact ⟨fun h => absurd h (Nat.lt_irrefl _), fun h => absurd h (by decide)⟩
  | stall own idle =>
    refine ⟨client, h, rfl, fun n => ?_⟩
    rcases own with rfl | rfl | rfl <;> rfl

/-- After a run the books show what was there and what the run handed over. -/
theorem balance_run (h : d.clients[c]? = some client) (works : client.medium ≠ .broken)
    (direct : ∀ a ∈ actions, ¬ a.Bypasses c) :
    ∃ client', (d.run actions).clients[c]? = some client' ∧ client'.medium = client.medium ∧
      ∀ n, (d.run actions).balance c client' n =
        d.balance c client n + (actions.filterMap (·.number? c)).count n := by
  induction actions generalizing d client with
  | nil => exact ⟨client, h, rfl, fun n => rfl⟩
  | cons a actions ih =>
    obtain ⟨hfirst, hrest⟩ := List.forall_mem_cons.mp direct
    obtain ⟨client₁, h₁, hm₁, hb₁⟩ := balance_step h works hfirst
    obtain ⟨client₂, h₂, hm₂, hb₂⟩ := ih h₁ (hm₁ ▸ works) hrest
    refine ⟨client₂, h₂, hm₂.trans hm₁, fun n => ?_⟩
    have hcons : (a :: actions).filterMap (·.number? c) =
        (a.number? c).toList ++ actions.filterMap (·.number? c) := by
      rw [List.filterMap_cons]
      cases a.number? c <;> rfl
    rw [hcons, List.count_append, ← Nat.add_assoc, ← hb₁ n, ← hb₂ n]
    rfl

/-! ## The answer to a command -/

theorem Starts.not_refused {text : Bytes} {command : Command} {failure : Failure}
    (h : d.Starts actions j i w) (action : actions[j]? = some (.line c text))
    (reads : Command.ofLine? text = some command) :
    (d.after actions j).verdict command.words ≠ .error failure := by
  obtain ⟨a, ha, -, hbrings⟩ := h.brings
  cases action.symm.trans ha
  cases hbrings with
  | command brings accepted =>
    rw [Action.command?, reads] at brings
    cases brings
    rw [accepted]
    exact fun h => by cases h

/-- `d.Answers actions j k c seq reply`: step `k` answers the command of step `j`. -/
inductive Answers (d : Dispatcher) (actions : List Action) (j : Nat) :
    Nat → Nat → UInt32 → Reply → Prop where
  /-- At once, since the command is refused. -/
  | refusal {c : Nat} {text : Bytes} {command : Command} {failure : Failure}
      (action : actions[j]? = some (.line c text)) (reads : Command.ofLine? text = some command)
      (refused : (d.after actions j).verdict command.words = .error failure) :
      d.Answers actions j j c command.seq (.ofRefusal command.words failure)
  /-- Later on, through the worker that it starts. -/
  | worker {i k : Nat} {w : Worker} {reply : Reply}
      (starts : d.Starts actions j i { w with phase := .waiting })
      (sends : d.Sends actions k i w reply) : d.Answers actions j k w.client w.seq reply

namespace Answers

theorem action_and_tells (h : d.Answers actions j k c seq reply) :
    ∃ a, actions[k]? = some a ∧ (d.after actions k).Tells a c seq reply := by
  cases h with
  | refusal action reads refused => exact ⟨_, action, .refusal reads refused⟩
  | worker starts sends => exact ⟨_, sends.action, .answer sends.worker sends.phase⟩

theorem unique_command (h : d.Answers actions j k c seq reply)
    (h' : d.Answers actions j' k c' seq' reply') : j' = j := by
  cases h with
  | refusal action reads refused =>
    cases h' with
    | refusal => rfl
    | worker starts sends => cases action.symm.trans sends.action
  | worker starts sends =>
    cases h' with
    | refusal action => cases action.symm.trans sends.action
    | worker starts' sends' =>
      cases sends.action.symm.trans sends'.action
      exact (starts.unique starts').1

theorem unique_step (h : d.Answers actions j k c seq reply)
    (h' : d.Answers actions j k' c' seq' reply') :
    k' = k ∧ c' = c ∧ seq' = seq ∧ reply' = reply := by
  cases h with
  | refusal action reads refused =>
    cases h' with
    | refusal action' reads' refused' =>
      cases action.symm.trans action'
      cases reads.symm.trans reads'
      cases refused.symm.trans refused'
      exact ⟨rfl, rfl, rfl, rfl⟩
    | worker starts sends => exact absurd refused (starts.not_refused action reads)
  | worker starts sends =>
    cases h' with
    | refusal action reads refused => exact absurd refused (starts.not_refused action reads)
    | worker starts' sends' =>
      obtain ⟨a, -, hi, -⟩ := starts.brings
      obtain ⟨a', -, hi', -⟩ := starts'.brings
      obtain rfl := hi'.trans hi.symm
      obtain ⟨rfl, rfl, rfl⟩ := sends.unique sends'
      exact ⟨rfl, rfl, rfl, rfl⟩

/-- A refused command is answered at once and by its refusal. -/
theorem eq_of_refused {text : Bytes} {command : Command} {failure : Failure}
    (action : actions[j]? = some (.line c text)) (reads : Command.ofLine? text = some command)
    (refused : (d.after actions j).verdict command.words = .error failure)
    (h : d.Answers actions j k c' seq reply) :
    k = j ∧ c' = c ∧ seq = command.seq ∧ reply = .ofRefusal command.words failure :=
  (Answers.refusal action reads refused).unique_step h

theorem exists_sends_of_accepted {text : Bytes} {command : Command} {request : Request}
    (action : actions[j]? = some (.line c text)) (reads : Command.ofLine? text = some command)
    (accepted : (d.after actions j).verdict command.words = .ok request)
    (h : d.Answers actions j k c' seq reply) :
    c' = c ∧ seq = command.seq ∧ ∃ i w, d.workers.length ≤ i ∧ w.request = request ∧
      d.Starts actions j i { w with phase := .waiting } ∧ d.Sends actions k i w reply := by
  cases h with
  | refusal action' reads' refused =>
    cases action.symm.trans action'
    cases reads.symm.trans reads'
    cases accepted.symm.trans refused
  | @worker i k w reply starts sends =>
    obtain ⟨a, ha, hi, hbrings⟩ := starts.brings
    cases action.symm.trans ha
    have hfresh : d.workers.length ≤ i := by
      rw [hi]
      exact length_workers_mono (l := 0) (Nat.zero_le j) (Nat.le_of_lt starts.lt_length)
    obtain ⟨_, _, _, _, _⟩ := w
    cases hbrings with
    | command brings accepted' =>
      rw [Action.command?_line reads] at brings
      cases brings
      cases accepted.symm.trans accepted'
      exact ⟨rfl, rfl, i, _, hfresh, rfl, starts, sends⟩

end Answers

theorem exists_answers {text : Bytes} {command : Command}
    (ended : ∀ w ∈ (d.run actions).workers, w.client = c → w.phase = .ended)
    (action : actions[j]? = some (.line c text)) (reads : Command.ofLine? text = some command) :
    ∃ k reply, d.Answers actions j k c command.seq reply := by
  cases hverdict : (d.after actions j).verdict command.words with
  | error failure => exact ⟨j, _, .refusal action reads hverdict⟩
  | ok request =>
    have starts := Starts.of_brings action (.command (Action.command?_line reads) hverdict)
    have hj := starts.lt_length
    obtain ⟨p, hlast, -⟩ := worker_mono starts.worker hj (Nat.le_refl _)
    have hmem := List.mem_of_getElem? hlast
    rw [after_length] at hmem
    obtain rfl : p = .ended := ended _ hmem rfl
    have hfresh : d.workers.length ≤ (d.after actions j).workers.length :=
      length_workers_mono (l := 0) (Nat.zero_le j) (Nat.le_of_lt hj)
    obtain ⟨k, -, ⟨_, _, _, _, _⟩, reply, sends, hv⟩ :=
      exists_sends hfresh hlast (.inr rfl) (Nat.le_refl _)
    cases hv
    exact ⟨k, reply, .worker starts sends⟩

/-- Each message to a client without older workers answers a command of its own. -/
theorem exists_command (idle : ∀ w ∈ d.workers, w.client ≠ c) (ha : actions[k]? = some a)
    (h : (d.after actions k).Tells a c seq reply) : ∃ j, d.Answers actions j k c seq reply := by
  cases h with
  | refusal reads refused => exact ⟨k, .refusal ha reads refused⟩
  | @answer i w reply worker phase =>
    have hk := Nat.le_of_lt (List.getElem?_eq_some_iff.mp ha).1
    have hi : d.workers.length ≤ i := by
      refine Nat.le_of_not_lt fun hlt => ?_
      have hold : (d.after actions 0).workers[i]? = some d.workers[i] :=
        List.getElem?_eq_getElem hlt
      obtain ⟨p, hp, -⟩ := worker_mono hold (Nat.zero_le k) hk
      cases worker.symm.trans hp
      exact idle _ (List.getElem_mem hlt) rfl
    obtain ⟨j, -, starts⟩ := exists_starts hi worker hk
    exact ⟨j, .worker starts ⟨ha, worker, phase⟩⟩

/-- What answers a client answers a request that it made, with the number of the request. -/
theorem Answers.exists_asks (h : d.Answers actions j k c seq reply) :
    ∃ a, actions[j]? = some a ∧ a.Asks c seq := by
  cases h with
  | refusal action reads refused =>
    exact ⟨_, action, .inl ⟨_, Action.command?_line reads, rfl⟩⟩
  | @worker i k w reply starts sends =>
    obtain ⟨a, ha, -, hbrings⟩ := starts.brings
    refine ⟨a, ha, ?_⟩
    obtain ⟨seq, request, client, slotted, phase⟩ := w
    cases hbrings with
    | work => exact .inr ⟨request, rfl⟩
    | command brings accepted => exact .inl ⟨_, brings, rfl⟩

end

/--
A run hands over a stream of a client line by line, and starts no worker for the
client in another way. The client keeps what it gets and has nothing at first.
-/
structure Serves (d : Dispatcher) (actions : List Action) (c : Nat) (stream : Bytes) : Prop where
  client : ∃ medium, medium ≠ .broken ∧ d.clients[c]? = some ⟨medium, []⟩
  idle : ∀ w ∈ d.workers, w.client ≠ c
  lines : actions.filterMap (·.lineFor? c) = (Command.linesOf stream).1
  direct : ∀ a ∈ actions, ¬ a.Bypasses c

theorem serves_serve {d : Dispatcher} {c : Nat} {medium : Medium} (works : medium ≠ .broken)
    (client : d.clients[c]? = some ⟨medium, []⟩) (idle : ∀ w ∈ d.workers, w.client ≠ c)
    (stream : Bytes) :
    ∃ actions, (d.serve c stream).1 = d.run actions ∧ d.Serves actions c stream := by
  refine ⟨(Command.linesOf stream).1.map (.line c), rfl, ⟨medium, works, client⟩, idle, ?_, ?_⟩
  · have hline : (·.lineFor? c) ∘ Action.line c = some := funext fun _ => if_pos rfl
    rw [List.filterMap_map, hline, List.filterMap_some]
  · intro a ha
    obtain ⟨text, -, rfl⟩ := List.mem_map.mp ha
    exact id

/--
A stream is served in whatever order the reader, the workers and the holders of the lock take their
steps. Once the client's workers have come to their ends, the client has as many replies of each
number as it sent commands of that number. A command is every line but a blank one, its number what
its first word writes, or else zero. A blank line does nothing. Any other is answered in one step,
with its number, and in no other step. A step that answers no line of the client leaves it alone.
-/
theorem lines_answered_once (d : Dispatcher) (actions : List Action) (c : Nat) (stream : Bytes)
    (serves : d.Serves actions c stream)
    (ended : ∀ w ∈ (d.run actions).workers, w.client = c → w.phase = .ended) :
    (∃ client, (d.run actions).clients[c]? = some client ∧
      (client.received.map (·.1)).Perm
        (((Command.linesOf stream).1.filterMap Command.ofLine?).map (·.seq))) ∧
    (∀ line, Command.ofLine? line = none ↔ ∀ b ∈ line, Command.isSeparator b = true) ∧
    (∀ line command, Command.ofLine? line = some command →
      ∃ first rest, Command.wordsOfLine line = first :: rest ∧
        command.seq = (Decimal.uint32? first).getD 0) ∧
    (∀ j text, actions[j]? = some (.line c text) → Command.ofLine? text = none →
      d.after actions (j + 1) = d.after actions j) ∧
    (∀ j text command, actions[j]? = some (.line c text) → Command.ofLine? text = some command →
      ∃ k reply, d.Answers actions j k c command.seq reply ∧
        ∀ k' c' seq' reply', d.Answers actions j k' c' seq' reply' →
          k' = k ∧ c' = c ∧ seq' = command.seq ∧ reply' = reply) ∧
    (∀ k a, actions[k]? = some a → ∃ client, (d.after actions k).clients[c]? = some client ∧
      ((∀ j seq reply, ¬ d.Answers actions j k c seq reply) ∧
          (d.after actions (k + 1)).clients[c]? = some client ∨
        ∃ j text command reply, actions[j]? = some (.line c text) ∧
          Command.ofLine? text = some command ∧ d.Answers actions j k c command.seq reply ∧
          (∀ j' c' seq' reply', d.Answers actions j' k c' seq' reply' → j' = j) ∧
          (d.after actions (k + 1)).clients[c]? =
            some { client with received := client.received ++ [(command.seq, reply)] })) := by
  obtain ⟨medium, works, hc⟩ := serves.client
  refine ⟨?_, fun line => Command.ofLine?_eq_none_iff, fun line command => Command.seq_of_ofLine?,
    ?_, ?_, ?_⟩
  · obtain ⟨client, hclient, -, books⟩ := balance_run hc works serves.direct
    refine ⟨client, hclient, List.perm_iff_count.mpr fun n => ?_⟩
    have hnumbers : actions.filterMap (·.number? c) =
        ((Command.linesOf stream).1.filterMap Command.ofLine?).map (·.seq) := by
      rw [← serves.lines, List.filterMap_filterMap, List.map_filterMap]
      rfl
    have hbefore : d.workers.countP (Worker.owes c n) = 0 :=
      List.countP_eq_zero.mpr fun w hw => by simp [Worker.owes, serves.idle w hw]
    have hafter : (d.run actions).workers.countP (Worker.owes c n) = 0 := by
      refine List.countP_eq_zero.mpr fun w hw howes => ?_
      simp only [Worker.owes, Bool.and_eq_true, beq_iff_eq, decide_eq_true_eq] at howes
      rw [ended w hw howes.1.1] at howes
      exact absurd howes.2 (by decide)
    have hbooks := books n
    rw [balance, balance, hbefore, hafter, hnumbers] at hbooks
    simpa using hbooks
  · intro j text action reads
    rw [after_succ action, step, handleLine, reads]
  · intro j text command action reads
    obtain ⟨k, reply, hanswers⟩ := exists_answers ended action reads
    exact ⟨k, reply, hanswers, fun k' c' seq' reply' h' => hanswers.unique_step h'⟩
  · intro k a ha
    have hdirect : ∀ a ∈ actions.take k, ¬ a.Bypasses c :=
      fun a ha => serves.direct a (List.mem_of_mem_take ha)
    obtain ⟨client, hclient, hmedium, -⟩ := balance_run hc works hdirect
    refine ⟨client, hclient, ?_⟩
    rw [after_succ ha]
    rcases client_step hclient a with ⟨hkept, hnone⟩ | ⟨seq, reply, htells, hgot⟩
    · refine .inl ⟨fun j seq reply hanswers => ?_, hkept⟩
      obtain ⟨a', ha', htells⟩ := hanswers.action_and_tells
      cases ha.symm.trans ha'
      exact hnone seq reply htells
    · obtain ⟨j, hanswers⟩ := exists_command serves.idle ha htells
      obtain ⟨a', action, hasks⟩ := hanswers.exists_asks
      obtain ⟨text, command, rfl, reads, rfl⟩ :=
        hasks.exists_line (serves.direct a' (List.mem_of_getElem? action))
      refine .inr ⟨j, text, command, reply, action, reads, hanswers,
        fun j' c' seq' reply' h' => hanswers.unique_command h', ?_⟩
      rw [after, hgot, Client.receive_of_works (hmedium ▸ works)]

def oneClient : Dispatcher :=
  { files := Tracking.sampleFiles
    tracker := ⟨Tracking.samplePath, none, 0⟩
    limit := 1
    clients := [{ medium := .stream }] }

def twoQueries : Bytes :=
  ascii "7 getaddrinfo a ^ -1 -1 -1 -1\n \n7 getaddrinfo a ^ -1 -1 -1 -1\n8\n"

/-- The first query waits for the lock while the second one finds no slot. -/
def twoQueriesServed : List Action :=
  [.line 0 (ascii "7 getaddrinfo a ^ -1 -1 -1 -1"), .hold, .resolve 0, .line 0 (ascii " "),
    .line 0 (ascii "7 getaddrinfo a ^ -1 -1 -1 -1"), .release, .resolve 0, .line 0 (ascii "8"),
    .deliver 0, .finish 0]

theorem twoQueries_answered :
    oneClient.Serves twoQueriesServed 0 twoQueries ∧
      (∃ client, (oneClient.run twoQueriesServed).clients[0]? = some client ∧
        (client.received.map (·.1)).Perm [7, 7, 8]) ∧
      ∃ k reply, oneClient.Answers twoQueriesServed 7 k 0 8 reply := by
  have serves : oneClient.Serves twoQueriesServed 0 twoQueries :=
    { client := ⟨.stream, by decide, rfl⟩
      idle := by simp [oneClient]
      lines := by decide +kernel
      direct := by simp [twoQueriesServed, Action.Bypasses] }
  have phases :
      ((oneClient.run twoQueriesServed).workers.all fun w => w.phase == .ended) = true := by
    decide +kernel
  have numbers : ((Command.linesOf twoQueries).1.filterMap Command.ofLine?).map (·.seq) =
      [7, 7, 8] := by
    decide +kernel
  have reads : Command.ofLine? (ascii "8") = some ⟨8, []⟩ := by decide +kernel
  have ended : ∀ w ∈ (oneClient.run twoQueriesServed).workers, w.client = 0 → w.phase = .ended :=
    fun w hw _ => beq_iff_eq.mp (List.all_eq_true.mp phases w hw)
  obtain ⟨received, -, -, -, answered, -⟩ :=
    lines_answered_once oneClient twoQueriesServed 0 twoQueries serves ended
  obtain ⟨k, reply, hanswers, -⟩ := answered 7 _ _ rfl reads
  exact ⟨serves, numbers ▸ received, k, reply, hanswers⟩

end Dispatcher

end HostLookup
