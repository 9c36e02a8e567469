import HostLookup.Proofs.Framing
import HostLookup.Proofs.Reverse
import HostLookup.Proofs.Slots

/-!
# Statuses

Two places choose the status of a command that fails: a refusal goes by the words
of the command, a worker by the request that it has. Both choose from the same
namespace (`kindOfArguments_of_reads`), and what can go wrong with a request that
words make is that its name is not found, since octets that were read are those
of an address (`notFound_of_answer`). So three of the seven statuses are never
sent to a client that sends lines (`statuses_closed`).
-/

namespace HostLookup

open Bytes Hosts

/-- The replies to a well-formed command of a kind, each with its text; `full` says whether the
limit of workers was reached when the command came. -/
inductive Settles (full : Prop) (seq : UInt32) : QueryKind → Reply → Bytes → Prop where
  | addresses (slot : ¬ full) (record : AddressRecord) :
      Settles full seq .forward (.addresses [record]) (Reply.recordLine seq record ++
        (ascii "200 " ++ Decimal.ofNat seq.toNat ++ ascii " 0\n"))
  | noName (slot : ¬ full) :
      Settles full seq .forward (.failed .noName)
        (ascii "401 " ++ Decimal.ofNat seq.toNat ++ ascii " 8 EAI_NONAME\n")
  | again (limit : full) :
      Settles full seq .forward (.failed .again)
        (ascii "401 " ++ Decimal.ofNat seq.toNat ++ ascii " 2 EAI_AGAIN\n")
  | host (slot : ¬ full) (name : Bytes) (family : Family) (x : Address) :
      Settles full seq .host (.host ⟨name, family, [x]⟩) (
        Reply.hostLine seq ⟨name, family, [x]⟩ x ++
          (ascii "200 " ++ Decimal.ofNat seq.toNat ++ ascii " 0\n"))
  | hostNotFound (slot : ¬ full) :
      Settles full seq .host (.failed .hostNotFound)
        (ascii "401 " ++ Decimal.ofNat seq.toNat ++ ascii " 1 HOST_NOT_FOUND\n")
  | tryAgain (limit : full) :
      Settles full seq .host (.failed .tryAgain)
        (ascii "401 " ++ Decimal.ofNat seq.toNat ++ ascii " 2 TRY_AGAIN\n")

/-- The statuses that no reply to a line has. -/
def Status.IsInternal (s : Status) : Prop := s = .fail ∨ s = .memory ∨ s = .noRecovery

theorem Settles.not_isInternal {full : Prop} {seq : UInt32} {kind : QueryKind} {s : Status}
    {text : Bytes} (h : Settles full seq kind (.failed s) text) : ¬ s.IsInternal := by
  cases h <;> simp [Status.IsInternal]

namespace Hosts.Tracker

variable {t : Tracker} {services : ServiceTable}

theorem forward_cases (t : Tracker) (services : ServiceTable) (host service : Option Bytes)
    (hints : Option Hints) :
    (∃ record, t.forward services host service hints = .ok [record]) ∨
      ∃ name, t.forward services host service hints = .error (.notFound name) := by
  unfold forward
  split
  · exact .inr ⟨_, rfl⟩
  · split
    · exact .inr ⟨_, rfl⟩
    · unfold Snapshot.forward
      simp only
      split
      · exact .inr ⟨_, rfl⟩
      · split
        · exact .inl ⟨_, rfl⟩
        · exact .inr ⟨_, rfl⟩

theorem hostByName_cases (t : Tracker) (name : Bytes) (family : Family) :
    (∃ x, t.hostByName name family = .ok ⟨name, .ofAddress x, [x]⟩) ∨
      t.hostByName name family = .error (.notFound name) := by
  cases hs : t.snapshot with
  | none =>
    refine .inr ?_
    rw [hostByName, hs]
  | some s =>
    rw [hostByName_of_snapshot hs]
    cases h : s.hostByName name family with
    | ok entry =>
      obtain ⟨-, x, -, -, rfl⟩ := Snapshot.hostByName_eq_ok_iff.mp h
      exact .inl ⟨x, rfl⟩
    | error failure =>
      rw [Snapshot.notFound_of_hostByName h]
      exact .inr rfl

end Hosts.Tracker

namespace Request

variable {words : List Bytes} {request : Request} {full : Prop} {seq : UInt32}

/-! ## The two choices of a namespace -/

/-- The first word of a command tells the kind of the request that the words make. -/
theorem kindOfArguments_of_reads (h : Reads words request) :
    Reply.kindOfArguments words = request.kind := by
  cases h with
  | forward =>
    rw [Reply.kindOfArguments, if_pos rfl]
    rfl
  | byAddress =>
    rw [Reply.kindOfArguments, if_neg (by decide)]
    rfl
  | byName =>
    rw [Reply.kindOfArguments, if_neg (by decide)]
    rfl

/-! ## What can go wrong with a request -/

/-- The octets of a request that words make are those of an address. -/
theorem IsExpressible.exists_ofOctets? {octets : Bytes} {family : Family}
    (h : (byAddress octets family).IsExpressible) :
    ∃ x, Address.ofOctets? octets = some x := by
  rcases h with ⟨-, hlength⟩ | ⟨-, hlength⟩
  · obtain ⟨x, rfl⟩ := V4.exists_octets hlength
    exact ⟨_, Address.ofOctets?_octets (.v4 x)⟩
  · obtain ⟨x, rfl⟩ := V6.exists_octets hlength
    exact ⟨_, Address.ofOctets?_octets (.v6 x)⟩

/-- What a worker makes of a request: an answer of the kind of the request, or a missing name. -/
inductive Answered : QueryKind → Except Failure Reply → Prop where
  | addresses (record : AddressRecord) : Answered .forward (.ok (.addresses [record]))
  | host (name : Bytes) (family : Family) (x : Address) :
      Answered .host (.ok (.host ⟨name, family, [x]⟩))
  | missing (kind : QueryKind) (name : Bytes) : Answered kind (.error (.notFound name))

theorem answered_of_isExpressible (h : request.IsExpressible) (t : Tracker)
    (services : ServiceTable) : Answered request.kind (request.answer t services) := by
  have byName : ∀ name family, Answered .host ((t.hostByName name family).map Reply.host) := by
    intro name family
    rcases t.hostByName_cases name family with ⟨x, hx⟩ | hnone
    · rw [hx]
      exact .host _ _ x
    · rw [hnone]
      exact .missing _ name
  cases request with
  | forward host service hints =>
    rw [answer]
    rcases t.forward_cases services host service hints with ⟨record, hrecord⟩ | ⟨name, hnone⟩
    · rw [hrecord]
      exact .addresses record
    · rw [hnone]
      exact .missing _ name
  | byAddress octets family =>
    obtain ⟨x, hx⟩ := h.exists_ofOctets?
    simp only [answer, hx]
    exact byName _ family
  | byName name family => exact byName name family

theorem notFound_of_answer (h : request.IsExpressible) {t : Tracker} {services : ServiceTable}
    {failure : Failure} (hfails : request.answer t services = .error failure) :
    ∃ name, failure = .notFound name := by
  have hanswered := answered_of_isExpressible h t services
  rw [hfails] at hanswered
  generalize request.kind = kind at hanswered
  cases hanswered with
  | missing _ name => exact ⟨name, rfl⟩

/-- A worker replies with a result, or that the name is not found. -/
theorem settles_reply (h : request.IsExpressible) (slot : ¬ full) (t : Tracker)
    (services : ServiceTable) (seq : UInt32) :
    Settles full seq request.kind (request.reply t services)
      ((request.reply t services).encode seq) := by
  have hanswered := answered_of_isExpressible h t services
  unfold reply
  generalize request.kind = kind, request.answer t services = result at hanswered ⊢
  cases hanswered with
  | addresses record =>
    simp only [Reply.encode, List.flatMap_singleton, Reply.doneLine_eq]
    exact .addresses slot record
  | host name family x =>
    simp only [Reply.encode, List.flatMap_singleton, Reply.doneLine_eq]
    exact .host slot name family x
  | missing _ name =>
    cases kind with
    | forward =>
      show Settles full seq .forward (.failed .noName) ((Reply.failed .noName).encode seq)
      rw [ForwardQuery.encode_missing]
      exact .noName slot
    | host =>
      show Settles full seq .host (.failed .hostNotFound) ((Reply.failed .hostNotFound).encode seq)
      rw [Address.encode_hostNotFound]
      exact .hostNotFound slot

theorem settles_busy (h : ofArguments words = .ok request) (limit : full) (n : Nat) :
    Settles full seq request.kind (.ofRefusal words (.busy n))
      ((Reply.ofRefusal words (.busy n)).encode seq) := by
  have hrefusal : Reply.ofRefusal words (.busy n) =
      .failed (Failure.status (.busy n) request.kind) := by
    rw [← kindOfArguments_of_reads (ofArguments_eq_ok_iff.mp h)]
    rfl
  rw [hrefusal]
  cases request.kind with
  | forward =>
    show Settles full seq .forward (.failed .again) ((Reply.failed .again).encode seq)
    rw [Reply.encode_failed (t := ascii " 2 EAI_AGAIN\n") (by decide +kernel)]
    exact .again limit
  | host =>
    show Settles full seq .host (.failed .tryAgain) ((Reply.failed .tryAgain).encode seq)
    rw [Reply.encode_failed (t := ascii " 2 TRY_AGAIN\n") (by decide +kernel)]
    exact .tryAgain limit

end Request

/-! ## Lines and their replies -/

namespace Dispatcher

section

variable {d : Dispatcher} {actions : List Action} {c c' j k : Nat} {text : Bytes}
  {command : Command} {request : Request} {failure : Failure} {seq : UInt32} {reply : Reply}

/-- Whether the limit of workers is reached. -/
def IsFull (d : Dispatcher) : Prop := 0 < d.limit ∧ d.limit ≤ d.active

theorem settles_of_answers (action : actions[j]? = some (.line c text))
    (reads : Command.ofLine? text = some command) (threads : (d.after actions j).threads = true)
    (wellFormed : Request.ofArguments command.words = .ok request)
    (h : d.Answers actions j k c' seq reply) :
    c' = c ∧ seq = command.seq ∧
      Settles (d.after actions j).IsFull command.seq request.kind reply
        (reply.encode command.seq) := by
  have hverdict := verdict_of_wellFormed (d := d.after actions j) wellFormed
  by_cases full : (d.after actions j).saturated = true
  · rw [if_pos full] at hverdict
    obtain ⟨-, hc, hseq, rfl⟩ := h.eq_of_refused action reads hverdict
    exact ⟨hc, hseq, Request.settles_busy wellFormed (saturated_iff.mp full) _⟩
  · rw [if_neg full, if_pos threads] at hverdict
    obtain ⟨hc, hseq, i, w, hfresh, rfl, -, sends⟩ :=
      h.exists_sends_of_accepted action reads hverdict
    obtain ⟨l, -, hresolves⟩ :=
      exists_resolve hfresh sends.worker sends.phase (Nat.le_of_lt sends.lt_length)
    have hexpressible :=
      Request.isExpressible_of_reads (Request.ofArguments_eq_ok_iff.mp wellFormed)
    rw [hresolves.reply_eq]
    exact ⟨hc, hseq, Request.settles_reply hexpressible
      (fun limit => full (saturated_iff.mpr limit)) _ _ _⟩

theorem isTagged_of_answers (action : actions[j]? = some (.line c text))
    (reads : Command.ofLine? text = some command)
    (malformed : Request.ofArguments command.words = .error failure)
    (h : d.Answers actions j k c' seq reply) :
    k = j ∧ c' = c ∧ seq = command.seq ∧ IsTagged "500" command.seq (reply.encode command.seq) := by
  obtain ⟨cause, rfl⟩ := Request.failsBadly_ofArguments _ _ malformed
  obtain ⟨hk, hc, hseq, rfl⟩ := h.eq_of_refused action reads (verdict_of_malformed malformed)
  exact ⟨hk, hc, hseq, Reply.isTagged_badArguments _ _⟩

end

/--
A run with any files, any limit and any order of the steps, and a line that is not blank. If the
line makes a request, it is of the kind that a refusal takes it for, and nothing can be wrong with
it for a worker but that a name is not found; what answers it is of its kind, and tells that the
limit is reached exactly if it is. If it makes none, it is answered at once by one line. There is an
answer once the workers of the client have come to their ends. A client whose lines all find the
system with a thread gets answers to its lines only, and none with one of the other statuses.
-/
theorem statuses_closed (d : Dispatcher) (actions : List Action) :
    (∀ c j text command, actions[j]? = some (.line c text) →
      Command.ofLine? text = some command →
        (∀ request, Request.ofArguments command.words = .ok request →
          Reply.kindOfArguments command.words = request.kind ∧
          (∀ t services failure, request.answer t services = .error failure →
            ∃ name, failure = .notFound name) ∧
          ((d.after actions j).threads = true →
            ∀ k c' seq reply, d.Answers actions j k c' seq reply → c' = c ∧ seq = command.seq ∧
              Settles (d.after actions j).IsFull command.seq request.kind reply
                (reply.encode command.seq))) ∧
        (∀ failure, Request.ofArguments command.words = .error failure →
          ∀ k c' seq reply, d.Answers actions j k c' seq reply → k = j ∧ c' = c ∧
            seq = command.seq ∧ IsTagged "500" command.seq (reply.encode command.seq)) ∧
        ((∀ w ∈ (d.run actions).workers, w.client = c → w.phase = .ended) →
          ∃ k reply, d.Answers actions j k c command.seq reply)) ∧
    ∀ c, (∀ w ∈ d.workers, w.client ≠ c) → (∀ client ∈ d.clients, client.received = []) →
      (∀ a ∈ actions, ¬ a.Bypasses c) →
      (∀ j text, actions[j]? = some (.line c text) → (d.after actions j).threads = true) →
        ∀ client, (d.run actions).clients[c]? = some client →
          ∀ seq reply, (seq, reply) ∈ client.received →
            (∃ j k text, actions[j]? = some (.line c text) ∧ d.Answers actions j k c seq reply) ∧
              ∀ s, reply = .failed s → ¬ s.IsInternal := by
  constructor
  · intro c j text command action reads
    refine ⟨fun request wellFormed => ?_, fun failure malformed k c' seq reply hanswers =>
      isTagged_of_answers action reads malformed hanswers, fun ended =>
        exists_answers ended action reads⟩
    have hreads := Request.ofArguments_eq_ok_iff.mp wellFormed
    have hexpressible := Request.isExpressible_of_reads hreads
    exact ⟨Request.kindOfArguments_of_reads hreads,
      fun t services failure => Request.notFound_of_answer hexpressible,
      fun threads k c' seq reply => settles_of_answers action reads threads wellFormed⟩
  · intro c idle empty direct threads client hclient seq reply hmem
    have hlast : (d.after actions actions.length).clients[c]? = some client := by
      rw [after_length, hclient]
    obtain ⟨k, a, ha, htells⟩ := exists_tells empty hlast hmem (Nat.le_refl _)
    obtain ⟨j, hanswers⟩ := exists_command idle ha htells
    obtain ⟨a', action, hasks⟩ := hanswers.exists_asks
    obtain ⟨text, command, rfl, reads, rfl⟩ :=
      hasks.exists_line (direct a' (List.mem_of_getElem? action))
    refine ⟨⟨j, k, text, action, hanswers⟩, ?_⟩
    rintro s rfl
    cases hwords : Request.ofArguments command.words with
    | ok request =>
      obtain ⟨-, -, hsettles⟩ :=
        settles_of_answers action reads (threads j text action) hwords hanswers
      exact hsettles.not_isInternal
    | error failure =>
      -- a malformed command is answered by no status
      obtain ⟨cause, rfl⟩ := Request.failsBadly_ofArguments _ _ hwords
      obtain ⟨-, -, -, hreply⟩ := hanswers.eq_of_refused action reads (verdict_of_malformed hwords)
      cases hreply

theorem twoQueries_settled :
    (∃ k reply, oneClient.Answers twoQueriesServed 4 k 0 7 reply ∧
      Settles (oneClient.after twoQueriesServed 4).IsFull 7 .forward reply (reply.encode 7)) ∧
    (∃ k reply, oneClient.Answers twoQueriesServed 7 k 0 8 reply ∧
      IsTagged "500" 8 (reply.encode 8)) ∧
    ∀ client, (oneClient.run twoQueriesServed).clients[0]? = some client →
      ∀ seq s, (seq, .failed s) ∈ client.received → ¬ s.IsInternal := by
  have reads : Command.ofLine? (ascii "8") = some ⟨8, []⟩ := by decide +kernel
  have phases :
      ((oneClient.run twoQueriesServed).workers.all fun w => w.phase == .ended) = true := by
    decide +kernel
  have ended : ∀ w ∈ (oneClient.run twoQueriesServed).workers, w.client = 0 → w.phase = .ended :=
    fun w hw _ => beq_iff_eq.mp (List.all_eq_true.mp phases w hw)
  have ready :
      ((List.range 10).all fun j => (oneClient.after twoQueriesServed j).threads) = true := by
    decide +kernel
  have threads : ∀ j text, twoQueriesServed[j]? = some (.line 0 text) →
      (oneClient.after twoQueriesServed j).threads = true :=
    fun j _ h => List.all_eq_true.mp ready j (List.mem_range.mpr (List.getElem?_eq_some_iff.mp h).1)
  obtain ⟨lines, received⟩ := statuses_closed oneClient twoQueriesServed
  obtain ⟨accepted, -, answered⟩ := lines 0 4 _ _ rfl reads_query
  obtain ⟨-, refused, answered'⟩ := lines 0 7 _ _ rfl reads
  obtain ⟨k, reply, hanswers⟩ := answered ended
  obtain ⟨k', reply', hanswers'⟩ := answered' ended
  refine ⟨⟨k, reply, hanswers, ?_⟩, ⟨k', reply', hanswers', ?_⟩, ?_⟩
  · obtain ⟨-, -, settles⟩ := accepted _ wellFormed_query
    exact (settles (threads 4 _ rfl) _ _ _ _ hanswers).2.2
  · exact (refused _ rfl _ _ _ _ hanswers').2.2.2
  · intro client hclient seq s hmem
    exact (received 0 (by simp [oneClient]) (by simp [oneClient])
      (by simp [twoQueriesServed, Action.Bypasses]) threads client hclient seq _
      hmem).2 s rfl

end Dispatcher

end HostLookup
