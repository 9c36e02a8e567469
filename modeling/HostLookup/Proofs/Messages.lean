import HostLookup.Proofs.Dispatch

/-!
# Messages to clients

A client is sent messages from two sides: the refusal of a line at once, and the
answer of a worker when it is delivered. `Tells` says which action sends what to
whom. A step changes what clients have received by what its action sends them
and in no other way (`clients_step`).
-/

namespace HostLookup

open Bytes Hosts

namespace Client

variable {client : Client} {seq : UInt32} {reply : Reply}

@[simp] theorem medium_receive : (client.receive seq reply).medium = client.medium := by
  rw [receive]
  split <;> rfl

theorem receive_of_works (h : client.medium ≠ .broken) :
    client.receive seq reply =
      { client with received := client.received ++ [(seq, reply)] } := if_neg h

end Client

namespace Dispatcher

/-- `d.Tells a c seq reply`: the action sends the client a reply with a number. -/
inductive Tells (d : Dispatcher) : Action → Nat → UInt32 → Reply → Prop where
  | refusal {c : Nat} {text : Bytes} {command : Command} {failure : Failure}
      (reads : Command.ofLine? text = some command)
      (refused : d.verdict command.words = .error failure) :
      d.Tells (.line c text) c command.seq (.ofRefusal command.words failure)
  | answer {i : Nat} {w : Worker} {reply : Reply} (worker : d.workers[i]? = some w)
      (phase : w.phase = .answered reply) : d.Tells (.deliver i) w.client w.seq reply

section

variable {d : Dispatcher} {a : Action} {c c' : Nat} {seq seq' : UInt32} {reply reply' : Reply}
  {client client' : Client}

theorem getElem?_send_self (h : d.clients[c]? = some client) :
    (d.send c seq reply).clients[c]? = some (client.receive seq reply) := by
  rw [send, List.getElem?_modify_eq, h]
  rfl

theorem getElem?_send_ne (h : c' ≠ c) : (d.send c' seq reply).clients[c]? = d.clients[c]? := by
  rw [send, List.getElem?_modify_ne _ _ h]

theorem Tells.unique (h : d.Tells a c seq reply) (h' : d.Tells a c' seq' reply') :
    c' = c ∧ seq' = seq ∧ reply' = reply := by
  cases h with
  | refusal reads refused =>
    cases h' with
    | refusal reads' refused' =>
      cases reads.symm.trans reads'
      cases refused.symm.trans refused'
      exact ⟨rfl, rfl, rfl⟩
  | answer worker phase =>
    cases h' with
    | answer worker' phase' =>
      cases worker.symm.trans worker'
      cases phase.symm.trans phase'
      exact ⟨rfl, rfl, rfl⟩

/-- A step sends nothing, takes a client in, or sends one message. -/
theorem clients_step (d : Dispatcher) (a : Action) :
    ((d.step a).clients = d.clients ∧ ∀ c seq reply, ¬ d.Tells a c seq reply) ∨
      (∃ medium, a = .connect medium ∧ (d.step a).clients = d.clients ++ [⟨medium, []⟩]) ∨
      ∃ c seq reply, d.Tells a c seq reply ∧
        (d.step a).clients = (d.send c seq reply).clients := by
  have h := d.effect_step a
  generalize d.step a = d' at h ⊢
  cases h with
  | aside _ _ _ _ _ kind => exact .inl ⟨rfl, fun _ _ _ h => by cases h <;> exact kind⟩
  | connect medium => exact .inr (.inl ⟨medium, rfl, rfl⟩)
  | start brings accepted =>
    refine .inl ⟨rfl, fun _ _ _ h => ?_⟩
    cases h with
    | refusal reads refused =>
      rw [Action.command?, reads] at brings
      cases brings
      rw [accepted] at refused
      cases refused
    | answer => cases brings
  | refuseDispatch => exact .inl ⟨rfl, fun _ _ _ h => by cases h⟩
  | refuseLine reads refused => exact .inr (.inr ⟨_, _, _, .refusal reads refused, rfl⟩)
  | blank reads =>
    refine .inl ⟨rfl, fun _ _ _ h => ?_⟩
    cases h with
    | refusal reads' =>
      rw [reads] at reads'
      cases reads'
  | work => exact .inl ⟨rfl, fun _ _ _ h => by cases h⟩
  | resolve => exact .inl ⟨rfl, fun _ _ _ h => by cases h⟩
  | deliver worker phase => exact .inr (.inr ⟨_, _, _, .answer worker phase, rfl⟩)
  | finish => exact .inl ⟨rfl, fun _ _ _ h => by cases h⟩
  | stall own idle =>
    refine .inl ⟨rfl, fun _ _ _ h => ?_⟩
    cases h with
    | refusal => rcases own with h | h | h <;> cases h
    | answer worker phase => exact idle _ _ _ worker (.deliver phase)

theorem client_step (h : d.clients[c]? = some client) (a : Action) :
    ((d.step a).clients[c]? = some client ∧ ∀ seq reply, ¬ d.Tells a c seq reply) ∨
      ∃ seq reply, d.Tells a c seq reply ∧
        (d.step a).clients[c]? = some (client.receive seq reply) := by
  rcases d.clients_step a with ⟨hc, hnone⟩ | ⟨medium, rfl, hc⟩ | ⟨c', seq, reply, htells, hc⟩
  · exact .inl ⟨hc ▸ h, fun seq reply => hnone c seq reply⟩
  · rw [hc, List.getElem?_append_left (List.getElem?_eq_some_iff.mp h).1]
    exact .inl ⟨h, fun _ _ h => by cases h⟩
  · by_cases hcc : c' = c
    · subst hcc
      exact .inr ⟨seq, reply, htells, hc ▸ getElem?_send_self h⟩
    · rw [hc, getElem?_send_ne hcc]
      exact .inl ⟨h, fun _ _ h' => hcc (htells.unique h').1.symm⟩

theorem client_of_step (h : (d.step a).clients[c]? = some client') :
    client'.received = [] ∨ ∃ client, d.clients[c]? = some client ∧
      (client' = client ∨ ∃ seq reply, d.Tells a c seq reply ∧
        client' = client.receive seq reply) := by
  cases hc : d.clients[c]? with
  | some client =>
    refine .inr ⟨client, rfl, ?_⟩
    rcases client_step hc a with ⟨h', -⟩ | ⟨seq, reply, htells, h'⟩
    · exact .inl (Option.some.inj (h.symm.trans h'))
    · exact .inr ⟨seq, reply, htells, Option.some.inj (h.symm.trans h')⟩
  | none =>
    rcases d.clients_step a with ⟨h', -⟩ | ⟨medium, -, h'⟩ | ⟨c', seq, reply, -, h'⟩
    · rw [h', hc] at h
      cases h
    · rw [h', List.getElem?_append_right (List.getElem?_eq_none_iff.mp hc)] at h
      have hnew := List.mem_singleton.mp (List.mem_of_getElem? h)
      exact .inl (congrArg Client.received hnew)
    · rw [h', send, List.getElem?_modify, hc] at h
      cases h

/-- What a client has received in a run was sent to it in a step. -/
theorem exists_tells {actions : List Action} {k : Nat}
    (empty : ∀ client ∈ d.clients, client.received = [])
    (h : (d.after actions k).clients[c]? = some client) (hm : (seq, reply) ∈ client.received)
    (hk : k ≤ actions.length) :
    ∃ l a, actions[l]? = some a ∧ (d.after actions l).Tells a c seq reply := by
  refine after_induction (P := fun _ d' => ∀ client, d'.clients[c]? = some client →
    (seq, reply) ∈ client.received →
    ∃ l a, actions[l]? = some a ∧ (d.after actions l).Tells a c seq reply)
    (l := 0) ?_ ?_ (Nat.zero_le k) hk client h hm
  · intro client h hm
    rw [empty client (List.mem_of_getElem? h)] at hm
    cases hm
  · intro k a _ ha ih client' h hm
    rcases client_of_step h with hnew | ⟨client, hc, rfl | ⟨seq', reply', htells, rfl⟩⟩
    · rw [hnew] at hm
      cases hm
    · exact ih _ hc hm
    · by_cases hbroken : client.medium = .broken
      · rw [Client.receive, if_pos hbroken] at hm
        exact ih _ hc hm
      · rw [Client.receive_of_works hbroken] at hm
        rcases List.mem_append.mp hm with hm | hm
        · exact ih _ hc hm
        · cases List.mem_singleton.mp hm
          exact ⟨k, a, ha, htells⟩

end

end Dispatcher

end HostLookup
