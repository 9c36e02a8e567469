import HostLookup.Proofs.Arguments
import HostLookup.Proofs.CanonicalText
import HostLookup.Proofs.Forward
import HostLookup.Proofs.Names

/-!
# Reverse queries

A query by address is one by name for the canonical text of the address. That
text is read as the address again, so a query finds what it asks for if the
hosts file lists the text, and no way to write the address makes a difference
(`byAddress_exact`).
-/

namespace HostLookup

open Bytes Hosts

/-- The words of a query for an address: a text of it, and length and family of its kind. -/
inductive AddressCommand : List Bytes → Address → Prop where
  | v4 {text length family : Bytes} {x : V4} (reads : V4.ofText? text = some x)
      (octets : Decimal.Spells length 4) (inet : Decimal.Spells family 2) :
      AddressCommand [ascii "gethostbyaddr", text, length, family] (.v4 x)
  | v6 {text length family : Bytes} {x : V6} (reads : V6.ofText? text = some x)
      (octets : Decimal.Spells length 16) (inet6 : Decimal.Spells family 10) :
      AddressCommand [ascii "gethostbyaddr", text, length, family] (.v6 x)

/-- The text of the reply to a query for an address with the canonical text `t`. -/
inductive HostText (x : Address) (t content : Bytes) (seq : UInt32) : Bytes → Prop where
  | found (listed : HasName content t) :
      HostText x t content seq
        (ascii "222 " ++ Decimal.ofNat seq.toNat ++ ascii " hostent " ++ t ++ ascii " " ++
          Decimal.ofInt32 (familyNumber x) ++ ascii " " ++ t ++ ascii "\n" ++
          ascii "200 " ++ Decimal.ofNat seq.toNat ++ ascii " 0\n")
  | missing (absent : ¬ HasName content t) :
      HostText x t content seq
        (ascii "401 " ++ Decimal.ofNat seq.toNat ++ ascii " 1 HOST_NOT_FOUND\n")

namespace Address

/-- The request for an address. -/
def byAddress (x : Address) : Request := .byAddress x.octets (.ofAddress x)

def byName (x : Address) : Request := .byName x.text (.ofAddress x)

section

variable {x : Address} {words : List Bytes} {t content : Bytes} {seq : UInt32}

theorem ofRaw_familyNumber (x : Address) : Family.ofRaw (familyNumber x) = .ofAddress x := by
  cases x <;> rfl

/-! ## What is asked -/

theorem ofArguments_of_addressCommand (h : AddressCommand words x) :
    Request.ofArguments words = .ok x.byAddress := by
  rw [Request.ofArguments_eq_ok_iff, byAddress, ← ofRaw_familyNumber]
  cases h with
  | v4 reads octets inet => exact .byAddress (l := 4) octets inet (.v4 reads)
  | v6 reads octets inet6 => exact .byAddress (l := 16) octets inet6 (.v6 reads)

theorem ofArguments_byName {family : Bytes} (h : Decimal.Spells family (familyNumber x).toInt) :
    Request.ofArguments [ascii "gethostbyname", x.text, family] = .ok x.byName := by
  rw [Request.ofArguments_eq_ok_iff, byName, ← ofRaw_familyNumber]
  exact .byName h

theorem reply_byAddress (x : Address) (t : Tracker) (services : ServiceTable) :
    x.byAddress.reply t services = x.byName.reply t services := by
  have hanswer : x.byAddress.answer t services = x.byName.answer t services := by
    rw [byAddress, Request.answer, ofOctets?_octets]
    rfl
  rw [Request.reply, Request.reply, hanswer]
  rfl

/-! ## What is replied -/

theorem reply_of_hasName {tr : Tracker} {s : Snapshot} (hs : tr.snapshot = some s)
    (services : ServiceTable) (listed : HasName s.data x.text) :
    x.byAddress.reply tr services = .host ⟨x.text, .ofAddress x, [x]⟩ := by
  have hentry : s.hostByName x.text (.ofAddress x) = .ok ⟨x.text, .ofAddress x, [x]⟩ :=
    Snapshot.hostByName_eq_ok_iff.mpr ⟨listed, x, x.ofText?_text, .inr rfl, rfl⟩
  rw [reply_byAddress, Request.reply, byName, Request.answer, Tracker.hostByName_of_snapshot hs,
    hentry]
  rfl

theorem reply_of_not_hasName {tr : Tracker} {s : Snapshot} (hs : tr.snapshot = some s)
    (services : ServiceTable) (absent : ¬ HasName s.data x.text) :
    x.byAddress.reply tr services = .failed .hostNotFound := by
  have herror : s.hostByName x.text (.ofAddress x) = .error (.notFound x.text) := by
    cases h : s.hostByName x.text (.ofAddress x) with
    | ok entry => exact absurd (Snapshot.hostByName_eq_ok_iff.mp h).1 absent
    | error failure => rw [Snapshot.notFound_of_hostByName h]
  rw [reply_byAddress, Request.reply, byName, Request.answer, Tracker.hostByName_of_snapshot hs,
    herror]
  rfl

theorem encode_host (x : Address) (seq : UInt32) :
    (Reply.host ⟨x.text, .ofAddress x, [x]⟩).encode seq =
      ascii "222 " ++ Decimal.ofNat seq.toNat ++ ascii " hostent " ++ x.text ++ ascii " " ++
        Decimal.ofInt32 (familyNumber x) ++ ascii " " ++ x.text ++ ascii "\n" ++
        ascii "200 " ++ Decimal.ofNat seq.toNat ++ ascii " 0\n" := by
  have hresult : ascii "222 " = ascii "222" ++ ascii " " := rfl
  have hkind : ascii " hostent " = ascii " " ++ ascii "hostent" ++ ascii " " := rfl
  have hend : ascii "\n" = [newline] := rfl
  rw [hresult, hkind, hend]
  simp only [Reply.encode, List.flatMap_singleton, Reply.hostLine, Reply.doneLine_eq, wordLine,
    List.intercalate_cons_cons, List.intercalate_singleton, ForwardQuery.raw_ofAddress,
    Reply.sequenceText, List.append_assoc]

theorem encode_hostNotFound (seq : UInt32) :
    (Reply.failed .hostNotFound).encode seq =
      ascii "401 " ++ Decimal.ofNat seq.toNat ++ ascii " 1 HOST_NOT_FOUND\n" :=
  Reply.encode_failed (by decide +kernel)

theorem hostText_reply {tr : Tracker} {s : Snapshot} (hs : tr.snapshot = some s)
    (services : ServiceTable) (x : Address) (seq : UInt32) :
    HostText x x.text s.data seq ((x.byAddress.reply tr services).encode seq) := by
  by_cases h : HasName s.data x.text
  · rw [reply_of_hasName hs services h, encode_host]
    exact .found h
  · rw [reply_of_not_hasName hs services h, encode_hostNotFound]
    exact .missing h

end

end Address

/--
A query by address, for every address and every text of it that a command may use, with the length
and the family of its kind. All of these texts make one request. It is answered as the one by name
for the canonical text is, and by whether the content lists that text. A command that finds a slot
and a thread gets this answer, for a content that the file has meanwhile.
-/
theorem Dispatcher.byAddress_exact (x : Address) (t : Bytes) (canonical : CanonicalText x t) :
    (∀ words, AddressCommand words x → Request.ofArguments words = .ok x.byAddress) ∧
      (∀ family, Decimal.Spells family (familyNumber x).toInt →
        ∃ request, Request.ofArguments [ascii "gethostbyname", t, family] = .ok request ∧
          ∀ tracker services,
            x.byAddress.reply tracker services = request.reply tracker services) ∧
      (∀ tracker s services seq, tracker.snapshot = some s →
        HostText x t s.data seq ((x.byAddress.reply tracker services).encode seq)) ∧
      ∀ (d : Dispatcher) (actions : List Action), d.IsTracked actions →
        ∀ (c j : Nat) (text : Bytes) (command : Command), actions[j]? = some (.line c text) →
        Command.ofLine? text = some command → AddressCommand command.words x →
        (d.after actions j).saturated = false → (d.after actions j).threads = true →
          (∀ k c' seq reply, d.Answers actions j k c' seq reply → c' = c ∧ seq = command.seq ∧
            ∃ l content modified, j < l ∧ l ≤ k ∧
              (d.after actions l).content? = some (content, modified) ∧
              HostText x t content command.seq (reply.encode command.seq)) ∧
          ((∀ w ∈ (d.run actions).workers, w.client = c → w.phase = .ended) →
            ∃ k reply, d.Answers actions j k c command.seq reply) := by
  obtain rfl := canonical.eq_text
  refine ⟨fun words => Address.ofArguments_of_addressCommand, fun family hfamily =>
      ⟨_, Address.ofArguments_byName hfamily, x.reply_byAddress⟩,
    fun tracker s services seq hs => Address.hostText_reply hs services x seq, ?_⟩
  intro d actions tracked c j text command action reads words slot threads
  have accepted : (d.after actions j).verdict command.words = .ok x.byAddress := by
    rw [verdict_of_wellFormed (Address.ofArguments_of_addressCommand words), slot, threads]
    rfl
  refine ⟨fun k c' seq reply hanswers => ?_, fun ended => exists_answers ended action reads⟩
  obtain ⟨hc, hseq, l, content, modified, hjl, hlk, hcontent, rfl⟩ :=
    tracked.reply_of_answers action reads accepted hanswers
  exact ⟨hc, hseq, l, content, modified, hjl, hlk, hcontent,
    Address.hostText_reply (s := .take 0 ⟨[]⟩ content ⟨0, 0⟩) rfl d.services x command.seq⟩

def Address.loopback : Address := .v6 ⟨[0, 0, 0, 0, 0, 0, 0, 1], rfl⟩

namespace Dispatcher

def sampleListing : List Action :=
  [.change (.write Tracking.samplePath (ascii "x ::1\n") ⟨2, 0⟩), .resolve 0, .deliver 0,
    .finish 0]

def sampleReverse : List Action :=
  .line 0 (ascii "5 gethostbyaddr 0:0::0:1 16 10") :: sampleListing

theorem sample_byAddress :
    Request.ofArguments [ascii "gethostbyaddr", ascii "0:0::0:1", ascii "16", ascii "10"] =
        .ok Address.loopback.byAddress ∧
      sample.IsTracked sampleReverse ∧
      ∃ k reply content, sample.Answers sampleReverse 0 k 0 5 reply ∧
        HostText .loopback (ascii "::1") content 5 (reply.encode 5) := by
  have canonical : CanonicalText .loopback (ascii "::1") :=
    canonicalText_iff.mpr (by decide +kernel)
  have words : AddressCommand [ascii "gethostbyaddr", ascii "0:0::0:1", ascii "16", ascii "10"]
      .loopback :=
    .v6 (by decide +kernel) (Decimal.int32?_eq_some_iff (n := 16) |>.mp (by decide +kernel))
      (Decimal.int32?_eq_some_iff (n := 10) |>.mp (by decide +kernel))
  have reads : Command.ofLine? (ascii "5 gethostbyaddr 0:0::0:1 16 10") =
      some ⟨5, [ascii "gethostbyaddr", ascii "0:0::0:1", ascii "16", ascii "10"]⟩ := by
    decide +kernel
  obtain ⟨parses, -, -, answers⟩ := byAddress_exact .loopback (ascii "::1") canonical
  have first : sample.step (.line 0 (ascii "5 gethostbyaddr 0:0::0:1 16 10")) =
      sample.start 0 5 Address.loopback.byAddress := by
    have accepted : sample.verdict [ascii "gethostbyaddr", ascii "0:0::0:1", ascii "16",
        ascii "10"] = .ok Address.loopback.byAddress := verdict_of_wellFormed (parses _ words)
    rw [step, handleLine, reads]
    simp only [dispatch_of_ok accepted]
  have tracked : sample.IsTracked sampleReverse := by
    refine (isTracked_cons_iff (by rw [first]; rfl) (by rw [first]; rfl)).mpr ?_
    rw [first]
    exact isTracked_iff.mp (by decide +kernel)
  have ended : ∀ w ∈ (sample.run sampleReverse).workers, w.client = 0 → w.phase = .ended := by
    have phases : (((sample.start 0 5 Address.loopback.byAddress).run sampleListing).workers.all
        fun w => w.phase == .ended) = true := by
      decide +kernel
    rw [run, sampleReverse, List.foldl_cons, first]
    exact fun w hw _ => beq_iff_eq.mp (List.all_eq_true.mp phases w hw)
  obtain ⟨texts, answered⟩ := answers sample sampleReverse tracked 0 0 _ _ rfl reads words rfl rfl
  obtain ⟨k, reply, hanswers⟩ := answered ended
  obtain ⟨-, -, -, content, -, -, -, -, htext⟩ := texts k 0 5 reply hanswers
  exact ⟨parses _ words, tracked, k, reply, content, hanswers, htext⟩

end Dispatcher

end HostLookup
