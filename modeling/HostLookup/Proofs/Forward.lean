import HostLookup.Proofs.Answers
import HostLookup.Proofs.FirstAddress
import HostLookup.Proofs.Freshness
import HostLookup.Proofs.Sockaddr

/-!
# Forward queries

From the words of a command to the bytes of the reply. `ForwardQuery.Finds` says
by the lines of a hosts file which address a query finds, and `ForwardText` which
text its reply then has; the address in the text is told by what its hexadecimal
digits decode to. Every reply to such a command has that text for a content that
the file had meanwhile (`forward_exact`).
-/

namespace HostLookup

open Bytes Hosts

/-- The words of a forward command after its name, the last four read as numbers. -/
structure ForwardQuery where
  host : Bytes
  service : Bytes
  flags : Int32
  family : Int32
  socktype : Int32
  protocol : Int32
  deriving DecidableEq, Repr

def familyNumber : Address → Int32
  | .v4 _ => 2
  | .v6 _ => 10

namespace Reply

theorem doneLine_eq (seq : UInt32) :
    doneLine seq = ascii "200 " ++ Decimal.ofNat seq.toNat ++ ascii " 0\n" := by
  have hdone : ascii "200 " = ascii "200" ++ ascii " " := rfl
  have hzero : ascii " 0\n" = ascii " " ++ ascii "0" ++ [newline] := rfl
  rw [hdone, hzero]
  simp only [doneLine, wordLine, List.intercalate_cons_cons, List.intercalate_singleton,
    sequenceText, List.append_assoc]

theorem encode_failed {status : Status} {seq : UInt32} {t : Bytes}
    (h : ascii " " ++ Decimal.ofNat status.code ++ ascii " " ++ status.name ++ ascii "\n" = t) :
    (failed status).encode seq = ascii "401 " ++ Decimal.ofNat seq.toNat ++ t := by
  have hcode : ascii "401 " = ascii "401" ++ ascii " " := rfl
  have hend : ascii "\n" = [newline] := rfl
  rw [← h, hcode, hend]
  simp only [encode, wordLine, List.intercalate_cons_cons, List.intercalate_singleton,
    sequenceText, List.append_assoc]

end Reply

namespace ForwardQuery

/-- Four times -1 stands for no hints. -/
def Unhinted (q : ForwardQuery) : Prop :=
  q.flags = -1 ∧ q.family = -1 ∧ q.socktype = -1 ∧ q.protocol = -1
  deriving Decidable

def shownSocktype (q : ForwardQuery) : Int32 := if q.Unhinted then 0 else q.socktype

def shownProtocol (q : ForwardQuery) : Int32 := if q.Unhinted then 0 else q.protocol

/-- What the first line that lists the host says is an address, of a family asked for. -/
structure Finds (q : ForwardQuery) (content : Bytes) (x : Address) : Prop where
  named : q.host ≠ ascii "^"
  literal : ∃ t, IsFirstAddress content q.host t ∧ Address.ofText? t = some x
  family : q.Unhinted ∨ q.family = 0 ∨ q.family = familyNumber x

/-- The text of the reply to a query, by what the hosts file holds. -/
inductive ForwardText (q : ForwardQuery) (services : ServiceTable) (content : Bytes)
    (seq : UInt32) : Bytes → Prop where
  | found {x : Address} {hex : Bytes} (finds : q.Finds content x)
      (decodes : (Hex.decode? hex).bind Endpoint.ofLayout? = some (.ofAddress x
        (services.resolvePort (optionalArgument q.service) q.shownSocktype))) :
      q.ForwardText services content seq
        (ascii "222 " ++ Decimal.ofNat seq.toNat ++ ascii " addrinfo " ++
          Decimal.ofInt32 (familyNumber x) ++ ascii " " ++ Decimal.ofInt32 q.shownSocktype ++
          ascii " " ++ Decimal.ofInt32 q.shownProtocol ++ ascii " " ++ hex ++ ascii "\n" ++
          ascii "200 " ++ Decimal.ofNat seq.toNat ++ ascii " 0\n")
  | missing (absent : ∀ x, ¬ q.Finds content x) :
      q.ForwardText services content seq
        (ascii "401 " ++ Decimal.ofNat seq.toNat ++ ascii " 8 EAI_NONAME\n")

/-- The hints that the numbers give; without any, none of the fields is asked for. -/
def hints (q : ForwardQuery) : Hints :=
  (Hints.ofNumbers q.flags q.family q.socktype q.protocol).getD {}

def request (q : ForwardQuery) : Request :=
  .forward (optionalArgument q.host) (optionalArgument q.service)
    (Hints.ofNumbers q.flags q.family q.socktype q.protocol)

section

variable {q : ForwardQuery} {services : ServiceTable} {content content' : Bytes} {x : Address}
  {seq : UInt32}

/-! ## What a query finds -/

theorem hints_of_unhinted (h : q.Unhinted) : q.hints = {} := by
  have hnone : Hints.ofNumbers q.flags q.family q.socktype q.protocol = none := if_pos h
  rw [hints, hnone]
  rfl

theorem hints_of_not_unhinted (h : ¬ q.Unhinted) :
    q.hints = ⟨q.flags, .ofRaw q.family, q.socktype, q.protocol⟩ := by
  have hsome : Hints.ofNumbers q.flags q.family q.socktype q.protocol =
      some ⟨q.flags, .ofRaw q.family, q.socktype, q.protocol⟩ := if_neg h
  rw [hints, hsome]
  rfl

theorem socktype_hints (q : ForwardQuery) : q.hints.socktype = q.shownSocktype := by
  by_cases h : q.Unhinted
  · rw [hints_of_unhinted h, shownSocktype, if_pos h]
  · rw [hints_of_not_unhinted h, shownSocktype, if_neg h]

theorem protocol_hints (q : ForwardQuery) : q.hints.protocol = q.shownProtocol := by
  by_cases h : q.Unhinted
  · rw [hints_of_unhinted h, shownProtocol, if_pos h]
  · rw [hints_of_not_unhinted h, shownProtocol, if_neg h]

theorem raw_ofAddress (x : Address) : (Family.ofAddress x).raw = familyNumber x := by
  cases x <;> rfl

theorem admits_ofRaw_iff {n : Int32} :
    (Family.ofRaw n).admits x = true ↔ n = 0 ∨ n = familyNumber x := by
  unfold Family.ofRaw
  by_cases h0 : n = 0
  · simp [h0, Family.admits]
  · by_cases h2 : n = 2
    · subst h2
      cases x <;> simp [Family.admits, familyNumber]
    · by_cases h10 : n = 10
      · subst h10
        cases x <;> simp [Family.admits, familyNumber]
      · cases x <;> simp [h0, h2, h10, Family.admits, familyNumber]

theorem admits_hints_iff :
    q.hints.family.admits x = true ↔ q.Unhinted ∨ q.family = 0 ∨ q.family = familyNumber x := by
  by_cases h : q.Unhinted
  · rw [hints_of_unhinted h]
    exact iff_of_true rfl (.inl h)
  · rw [hints_of_not_unhinted h, admits_ofRaw_iff]
    simp only [h, false_or]

theorem lookup_bind_iff {s : Snapshot} :
    ((s.lookup q.host).bind fun e => Address.ofText? (s.addressToken e)) = some x ↔
      ∃ t, IsFirstAddress s.data q.host t ∧ Address.ofText? t = some x := by
  rw [← Function.comp_def Address.ofText?, ← Option.bind_map, Option.bind_eq_some_iff]
  simp only [addressToken_lookup_iff]

/-! ## What is replied -/

def record (q : ForwardQuery) (services : ServiceTable) (x : Address) : AddressRecord where
  family := .ofAddress x
  socktype := q.shownSocktype
  protocol := q.shownProtocol
  endpoint := .ofAddress x (services.resolvePort (optionalArgument q.service) q.shownSocktype)

theorem forward_of_finds {s : Snapshot} (h : q.Finds s.data x) :
    s.forward services q.host (optionalArgument q.service)
      (Hints.ofNumbers q.flags q.family q.socktype q.protocol) = .ok [q.record services x] := by
  have hx := lookup_bind_iff.mpr h.literal
  have hadmits := admits_hints_iff.mpr h.family
  rw [hints] at hadmits
  unfold Snapshot.forward
  simp only [hx, hadmits, if_true, record, ← socktype_hints, ← protocol_hints, hints]

theorem forward_of_not_finds {s : Snapshot} (named : q.host ≠ ascii "^")
    (h : ∀ x, ¬ q.Finds s.data x) :
    s.forward services q.host (optionalArgument q.service)
      (Hints.ofNumbers q.flags q.family q.socktype q.protocol) = .error (.notFound q.host) := by
  unfold Snapshot.forward
  simp only
  split
  · rfl
  · next x hx =>
    refine if_neg fun hadmits => ?_
    exact h x ⟨named, lookup_bind_iff.mp hx, admits_hints_iff.mp hadmits⟩

theorem reply_of_forward {t : Tracker} {s : Snapshot} (hs : t.snapshot = some s)
    (named : q.host ≠ ascii "^") {result : Except Failure (List AddressRecord)}
    (h : s.forward services q.host (optionalArgument q.service)
      (Hints.ofNumbers q.flags q.family q.socktype q.protocol) = result) :
    q.request.answer t services = result.map Reply.addresses := by
  have hhost : optionalArgument q.host = some q.host := if_neg named
  rw [request, Request.answer, hhost]
  simp only [Tracker.forward, hs, h]

theorem freshReply_of_finds (h : q.Finds content x) :
    q.request.freshReply services content = .addresses [q.record services x] := by
  rw [Request.freshReply, Request.reply,
    reply_of_forward (s := .take 0 ⟨[]⟩ content ⟨0, 0⟩) rfl h.named (forward_of_finds h)]
  rfl

theorem freshReply_of_not_finds (h : ∀ x, ¬ q.Finds content x) :
    q.request.freshReply services content = .failed .noName := by
  by_cases named : q.host = ascii "^"
  · have hhost : optionalArgument q.host = none := if_pos named
    rw [Request.freshReply, Request.reply, request, hhost]
    rfl
  · rw [Request.freshReply, Request.reply,
      reply_of_forward (s := .take 0 ⟨[]⟩ content ⟨0, 0⟩) rfl named (forward_of_not_finds named h)]
    rfl

theorem encode_found (q : ForwardQuery) (services : ServiceTable) (x : Address) (seq : UInt32) :
    (Reply.addresses [q.record services x]).encode seq =
      ascii "222 " ++ Decimal.ofNat seq.toNat ++ ascii " addrinfo " ++
        Decimal.ofInt32 (familyNumber x) ++ ascii " " ++ Decimal.ofInt32 q.shownSocktype ++
        ascii " " ++ Decimal.ofInt32 q.shownProtocol ++ ascii " " ++
        Hex.encode (q.record services x).endpoint.layout ++ ascii "\n" ++
        ascii "200 " ++ Decimal.ofNat seq.toNat ++ ascii " 0\n" := by
  have hresult : ascii "222 " = ascii "222" ++ ascii " " := rfl
  have hkind : ascii " addrinfo " = ascii " " ++ ascii "addrinfo" ++ ascii " " := rfl
  have hend : ascii "\n" = [newline] := rfl
  rw [hresult, hkind, hend]
  simp only [Reply.encode, List.flatMap_singleton, Reply.recordLine, Reply.doneLine_eq, wordLine,
    List.intercalate_cons_cons, List.intercalate_singleton, record, raw_ofAddress,
    Reply.sequenceText, List.append_assoc]

theorem encode_missing (seq : UInt32) :
    (Reply.failed .noName).encode seq =
      ascii "401 " ++ Decimal.ofNat seq.toNat ++ ascii " 8 EAI_NONAME\n" :=
  Reply.encode_failed (by decide +kernel)

/-- A fresh reply to the query has the text that the content asks for. -/
theorem forwardText_freshReply (q : ForwardQuery) (services : ServiceTable) (content : Bytes)
    (seq : UInt32) :
    q.ForwardText services content seq
      ((q.request.freshReply services content).encode seq) := by
  by_cases h : ∃ x, q.Finds content x
  · obtain ⟨x, hx⟩ := h
    rw [freshReply_of_finds hx, encode_found]
    refine .found hx ?_
    rw [Hex.decode?_encode, Option.bind_some, Endpoint.ofLayout?_layout]
    rfl
  · have habsent : ∀ x, ¬ q.Finds content x := fun x hx => h ⟨x, hx⟩
    rw [freshReply_of_not_finds habsent, encode_missing]
    exact .missing habsent

theorem freshReply_congr
    (h : ∀ t, IsFirstAddress content q.host t ↔ IsFirstAddress content' q.host t) :
    q.request.freshReply services content = q.request.freshReply services content' := by
  have hfinds : ∀ x, q.Finds content x ↔ q.Finds content' x := by
    intro x
    constructor
    · rintro ⟨named, ⟨t, ht, hx⟩, family⟩
      exact ⟨named, ⟨t, (h t).mp ht, hx⟩, family⟩
    · rintro ⟨named, ⟨t, ht, hx⟩, family⟩
      exact ⟨named, ⟨t, (h t).mpr ht, hx⟩, family⟩
  by_cases hx : ∃ x, q.Finds content x
  · obtain ⟨x, hx⟩ := hx
    rw [freshReply_of_finds hx, freshReply_of_finds ((hfinds x).mp hx)]
  · have habsent : ∀ x, ¬ q.Finds content x := fun x h => hx ⟨x, h⟩
    rw [freshReply_of_not_finds habsent,
      freshReply_of_not_finds fun x h => habsent x ((hfinds x).mpr h)]

theorem freshReply_append {t : Bytes} (h : IsFirstAddress content q.host t) (more : Bytes) :
    q.request.freshReply services (content ++ newline :: more) =
      q.request.freshReply services content := by
  refine freshReply_congr fun t' => ⟨fun h' => ?_, fun h' => h'.append more⟩
  rwa [(h.append more).unique h']

end

end ForwardQuery

namespace Dispatcher

section

variable {d : Dispatcher} {actions : List Action} {c c' j k : Nat} {text : Bytes}
  {command : Command} {request : Request} {seq : UInt32} {reply : Reply}

/-- The answer to an accepted line is fresh at some step between the two. -/
theorem IsTracked.reply_of_answers (tracked : d.IsTracked actions)
    (action : actions[j]? = some (.line c text)) (reads : Command.ofLine? text = some command)
    (accepted : (d.after actions j).verdict command.words = .ok request)
    (h : d.Answers actions j k c' seq reply) :
    c' = c ∧ seq = command.seq ∧ ∃ l content modified, j < l ∧ l ≤ k ∧
      (d.after actions l).content? = some (content, modified) ∧
      reply = request.freshReply d.services content := by
  obtain ⟨hc, hseq, i, w, hfresh, rfl, starts, sends⟩ :=
    h.exists_sends_of_accepted action reads accepted
  obtain ⟨j', l, content, modified, starts', hjl, hlk, hcontent, hreply⟩ :=
    tracked.reply_of_sends hfresh sends
  obtain rfl := (starts.unique starts').1
  exact ⟨hc, hseq, l, content, modified, hjl, hlk, hcontent, hreply⟩

end

/--
A command line asks for the address of a host and gets a worker, in a run in which the hosts file
can be loaded all along, whatever else happens. Its last four words are numbers. What answers it has
the text that the file asks for at some step between the two, and would have it with any lines after
the first one that lists the host. There is one answer once the workers of the client have come to
their ends.
-/
theorem forward_exact (d : Dispatcher) (actions : List Action) (tracked : d.IsTracked actions)
    (c j : Nat) (text : Bytes) (command : Command)
    (host service flags family socktype protocol : Bytes) (request : Request)
    (action : actions[j]? = some (.line c text)) (reads : Command.ofLine? text = some command)
    (words : command.words =
      [ascii "getaddrinfo", host, service, flags, family, socktype, protocol])
    (accepted : (d.after actions j).verdict command.words = .ok request) :
    ∃ q : ForwardQuery, q.host = host ∧ q.service = service ∧
      Decimal.int32? flags = some q.flags ∧ Decimal.int32? family = some q.family ∧
      Decimal.int32? socktype = some q.socktype ∧ Decimal.int32? protocol = some q.protocol ∧
      (∀ k c' seq reply, d.Answers actions j k c' seq reply → c' = c ∧ seq = command.seq ∧
        ∃ l content modified, j < l ∧ l ≤ k ∧
          (d.after actions l).content? = some (content, modified) ∧
          q.ForwardText d.services content command.seq (reply.encode command.seq) ∧
          ∀ t more, IsFirstAddress content q.host t →
            q.request.freshReply d.services (content ++ newline :: more) = reply) ∧
      ((∀ w ∈ (d.run actions).workers, w.client = c → w.phase = .ended) →
        ∃ k reply, d.Answers actions j k c command.seq reply) := by
  have parses := ofArguments_of_verdict accepted
  rw [words] at parses
  obtain ⟨f, a, s, p, hf, ha, hs, hp, hrequest⟩ := Request.ofArguments_forward.mp parses
  refine ⟨⟨host, service, f, a, s, p⟩, rfl, rfl, hf, ha, hs, hp, ?_,
    fun ended => exists_answers ended action reads⟩
  intro k c' seq reply hanswers
  obtain ⟨hc, hseq, l, content, modified, hjl, hlk, hcontent, rfl⟩ :=
    tracked.reply_of_answers action reads accepted hanswers
  rw [hrequest]
  exact ⟨hc, hseq, l, content, modified, hjl, hlk, hcontent,
    ForwardQuery.forwardText_freshReply _ _ _ _,
    fun t more ht => ForwardQuery.freshReply_append ht more⟩

def sampleLine : List Action :=
  [.line 0 (ascii "7 getaddrinfo a 80 -1 -1 -1 -1"),
    .change (.write Tracking.samplePath (ascii "10.0.0.2 a\n10.0.0.3 a\n") ⟨2, 0⟩), .resolve 0,
    .deliver 0, .finish 0]

theorem sample_forward :
    sample.IsTracked sampleLine ∧
      ∃ k reply q content, sample.Answers sampleLine 0 k 0 7 reply ∧ q.host = ascii "a" ∧
        ForwardQuery.ForwardText q [] content 7 (reply.encode 7) := by
  have tracked : sample.IsTracked sampleLine := isTracked_iff.mp (by decide +kernel)
  have reads : Command.ofLine? (ascii "7 getaddrinfo a 80 -1 -1 -1 -1") =
      some ⟨7, [ascii "getaddrinfo", ascii "a", ascii "80", ascii "-1", ascii "-1", ascii "-1",
        ascii "-1"]⟩ := by
    decide +kernel
  have accepted : (sample.after sampleLine 0).verdict [ascii "getaddrinfo", ascii "a", ascii "80",
      ascii "-1", ascii "-1", ascii "-1", ascii "-1"] =
        .ok (.forward (some (ascii "a")) (some (ascii "80")) none) := by
    decide +kernel
  have phases : ((sample.run sampleLine).workers.all fun w => w.phase == .ended) = true := by
    decide +kernel
  have ended : ∀ w ∈ (sample.run sampleLine).workers, w.client = 0 → w.phase = .ended :=
    fun w hw _ => beq_iff_eq.mp (List.all_eq_true.mp phases w hw)
  obtain ⟨q, hhost, -, -, -, -, -, texts, answered⟩ := forward_exact sample sampleLine tracked
    0 0 _ _ _ _ _ _ _ _ _ rfl reads rfl accepted
  obtain ⟨k, reply, hanswers⟩ := answered ended
  obtain ⟨-, -, -, content, -, -, -, -, htext, -⟩ := texts k 0 7 reply hanswers
  exact ⟨tracked, k, reply, q, content, hanswers, hhost, htext⟩

end Dispatcher

end HostLookup
