import HostLookup.Daemon
import HostLookup.Proofs.Request
import HostLookup.Proofs.Retargeting

/-!
# How a reload travels

`Pipeline.Step` says all that can happen on the way from the configuration file
to the tracker: the file changes and raises an event, events arrive and are
taken, the watch reads the file and announces what it read, the follower hears
it and points the tracker elsewhere. A step shows a `Sign`, and a run its signs
in order. `Pipeline.Accounted` ties the state to the signs so far: which reading
is in force, what is announced, heard and followed, and how many changes were
seen after the last reading.
-/

namespace HostLookup

open Bytes Hosts

namespace Config

/-- What a load reads at a path, before it is parsed. -/
def content (files : FileTree) (path : Path) : Except Failure Bytes :=
  match files.openForReading path with
  | .ok (.file content _) => .ok content
  | .ok (.directory _ _) => .error (.io .isDirectory)
  | .error fault =>
    if fault = .noEntry then .error (.configMissing path.text) else .error (.io fault)

theorem load_eq (files : FileTree) (path : Path) :
    load files path = content files path >>= ofContent := by
  unfold load content
  cases files.openForReading path with
  | ok opened => cases opened <;> rfl
  | error fault =>
    simp only
    split <;> rfl

theorem validate_of_ofContent {content : Bytes} {c : Config} (h : ofContent content = .ok c) :
    c.validate = .ok () := by
  unfold ofContent at h
  split at h
  · cases h
  · obtain ⟨c', -, h⟩ := bind_eq_ok_iff.mp h
    obtain ⟨u, hvalid, h⟩ := bind_eq_ok_iff.mp h
    cases h
    exact hvalid

theorem validate_of_load {files : FileTree} {path : Path} {c : Config}
    (h : load files path = .ok c) : c.validate = .ok () := by
  rw [load_eq] at h
  obtain ⟨content, -, h⟩ := bind_eq_ok_iff.mp h
  exact validate_of_ofContent h

end Config

/-! ## Signs -/

/-- What a step on the way of a reload shows. -/
inductive Sign where
  | quiet
  | seen
  /-- The watch read its file, with this result. -/
  | tried (content : Except Failure Bytes)
  | announced
  | heard
  | aimed (path : Path)

namespace Sign

def content? : Sign → Option (Except Failure Bytes)
  | tried content => some content
  | _ => none

def isSeen : Sign → Bool
  | seen => true
  | _ => false

def isAnnounced : Sign → Bool
  | announced => true
  | _ => false

def isHeard : Sign → Bool
  | heard => true
  | _ => false

def isAimed : Sign → Bool
  | aimed _ => true
  | _ => false

def loaded? (s : Sign) : Option Config :=
  s.content?.bind fun content => (content >>= Config.ofContent).toOption

def tries (trace : List Sign) : List (Except Failure Bytes) := trace.filterMap content?

def loads (trace : List Sign) : List Config := trace.filterMap loaded?

/-- The changes that were seen after the last reading of the file. -/
def unread (trace : List Sign) : Nat :=
  (trace.reverse.takeWhile (·.content?.isNone)).countP isSeen

theorem loads_eq (trace : List Sign) :
    loads trace =
      (tries trace).filterMap fun content => (content >>= Config.ofContent).toOption := by
  rw [loads, tries, List.filterMap_filterMap]
  rfl

theorem mem_loads {trace : List Sign} {c : Config} (h : c ∈ loads trace) :
    ∃ content, Config.ofContent content = .ok c := by
  obtain ⟨s, -, hs⟩ := List.mem_filterMap.mp h
  obtain ⟨tried, -, htried⟩ := Option.bind_eq_some_iff.mp hs
  cases tried with
  | error failure => cases htried
  | ok content =>
    have hcontent : (Config.ofContent content).toOption = some c := htried
    refine ⟨content, ?_⟩
    cases hload : Config.ofContent content with
    | error failure =>
      rw [hload] at hcontent
      cases hcontent
    | ok c' =>
      rw [hload] at hcontent
      cases hcontent
      rfl

theorem getLast?_loads {trace : List Sign} {content : Except Failure Bytes} {c : Config}
    (last : (tries trace).getLast? = some content)
    (loads : content >>= Config.ofContent = .ok c) : (Sign.loads trace).getLast? = some c := by
  obtain ⟨before, hbefore⟩ := List.getLast?_eq_some_iff.mp last
  rw [loads_eq, hbefore, List.filterMap_append]
  simp [loads, Except.toOption]

section

variable (trace : List Sign) (s : Sign)

theorem tries_append : tries (trace ++ [s]) = tries trace ++ s.content?.toList := by
  rw [tries, List.filterMap_append]
  cases h : s.content? <;> simp [tries, h]

theorem loads_append : loads (trace ++ [s]) = loads trace ++ s.loaded?.toList := by
  rw [loads, List.filterMap_append]
  cases h : s.loaded? <;> simp [loads, h]

theorem unread_append :
    unread (trace ++ [s]) =
      if s.content?.isSome then 0 else unread trace + if s.isSeen then 1 else 0 := by
  unfold unread
  rw [List.reverse_append, List.reverse_singleton, List.singleton_append, List.takeWhile_cons]
  cases h : s.content? <;> simp [List.countP_cons]

end
end Sign

/-! ## Steps -/

/-- The files, the path that the tracker follows, the watch and the follower. -/
structure Pipeline where
  files : FileTree
  target : Path
  watch : Watch
  follower : Follower

namespace Pipeline

/-- What the watched file has now. -/
def content (p : Pipeline) : Except Failure Bytes :=
  Config.content p.files p.watch.live.path

/-- The hosts file that the configuration in force names. -/
def hostsPath (p : Pipeline) : Path := ⟨p.watch.live.current.hosts.path⟩

/-- `p.Step s p'`: all that one step of any party can do, and what it shows. -/
inductive Step (p : Pipeline) : Sign → Pipeline → Prop where
  /-- Nothing, or a change that leaves the watched file as it is. -/
  | pass {files : FileTree} (same : Config.content files p.watch.live.path = p.content) :
      p.Step .quiet { p with files }
  | change {files : FileTree} :
      p.Step .seen { p with files, watch := { p.watch with raised := p.watch.raised + 1 } }
  | arrive {n : Nat} (raised : p.watch.raised = n + 1) :
      p.Step .quiet { p with
        watch := { p.watch with raised := n, queued := p.watch.queued + 1 } }
  | wake {n : Nat} (phase : p.watch.phase = .idle) (queued : p.watch.queued = n + 1) :
      p.Step .quiet { p with watch := { p.watch with phase := .settling, queued := n } }
  | drain {n : Nat} (phase : p.watch.phase = .settling) (queued : p.watch.queued = n + 1) :
      p.Step .quiet { p with watch := { p.watch with queued := n } }
  | rest (phase : p.watch.phase = .settling) (queued : p.watch.queued = 0) :
      p.Step .quiet { p with watch := { p.watch with phase := .reloading } }
  | reload {current : Config} (phase : p.watch.phase = .reloading)
      (loads : p.content >>= Config.ofContent = .ok current) :
      p.Step (.tried p.content) { p with
        watch := { p.watch with
          live := { p.watch.live with current }, phase := .announcing
          reloads := p.watch.reloads + 1 } }
  | reject {failure : Failure} (phase : p.watch.phase = .reloading)
      (fails : p.content >>= Config.ofContent = .error failure) :
      p.Step (.tried p.content) { p with watch := { p.watch with phase := .idle } }
  | announce (phase : p.watch.phase = .announcing) (free : p.watch.announced = false) :
      p.Step .announced { p with
        watch := { p.watch with
          phase := .idle, announced := true, announcements := p.watch.announcements + 1 } }
  | hear (waiting : p.watch.announced = true) (idle : p.follower = .idle) :
      p.Step .heard { p with watch := { p.watch with announced := false }, follower := .told }
  | look (told : p.follower = .told) :
      p.Step .quiet { p with follower := .holding p.hostsPath }
  | aim {path target : Path} (holding : p.follower = .holding path)
      (same : target.same path = true) :
      p.Step (.aimed path) { p with target, follower := .idle }

/-- `p.Reaches trace q`: some steps lead from `p` to `q` and show these signs. -/
inductive Reaches (p : Pipeline) : List Sign → Pipeline → Prop where
  | start : p.Reaches [] p
  | step {trace : List Sign} {s : Sign} {q r : Pipeline} (reaches : p.Reaches trace q)
      (step : q.Step s r) : p.Reaches (trace ++ [s]) r

/-- The follower has taken in the configuration in force, or is about to read it. -/
def IsAligned (p : Pipeline) : Prop :=
  match p.follower with
  | .idle => p.target.same p.hostsPath = true
  | .told => True
  | .holding path => path = p.hostsPath

section

variable {p q : Pipeline} {s : Sign}

/-! ### One step -/

theorem Step.path (h : p.Step s q) : q.watch.live.path = p.watch.live.path := by
  cases h <;> rfl

theorem Step.current (h : p.Step s q) :
    q.watch.live.current = s.loaded?.getD p.watch.live.current := by
  cases h with
  | reload _ loads => simp [Sign.loaded?, Sign.content?, loads, Except.toOption]
  | reject _ fails => simp [Sign.loaded?, Sign.content?, fails, Except.toOption]
  | _ => rfl

theorem Step.counted (h : p.Step s q) :
    q.watch.reloads = p.watch.reloads + s.loaded?.toList.length ∧
      q.watch.announcements = p.watch.announcements + if s.isAnnounced then 1 else 0 := by
  cases h with
  | reload _ loads =>
    simp [Sign.loaded?, Sign.content?, Sign.isAnnounced, loads, Except.toOption]
  | reject _ fails =>
    simp [Sign.loaded?, Sign.content?, Sign.isAnnounced, fails, Except.toOption]
  | _ => exact ⟨rfl, rfl⟩

theorem Step.sent (h : p.Step s q) :
    s.loaded?.toList.length + (if p.watch.phase = .announcing then 1 else 0) =
      (if s.isAnnounced then 1 else 0) + if q.watch.phase = .announcing then 1 else 0 := by
  cases h with
  | reload phase loads =>
    simp [Sign.loaded?, Sign.content?, Sign.isAnnounced, loads, phase, Except.toOption]
  | reject phase fails =>
    simp [Sign.loaded?, Sign.content?, Sign.isAnnounced, fails, phase, Except.toOption]
  | wake phase | drain phase | rest phase | announce phase =>
    simp [Sign.loaded?, Sign.content?, Sign.isAnnounced, phase]
  | _ => simp [Sign.loaded?, Sign.content?, Sign.isAnnounced]

theorem Step.received (h : p.Step s q) :
    (if s.isAnnounced then 1 else 0) + (if p.watch.announced then 1 else 0) =
      (if s.isHeard then 1 else 0) + if q.watch.announced then 1 else 0 := by
  cases h with
  | announce _ free => simp [Sign.isAnnounced, Sign.isHeard, free]
  | hear waiting => simp [Sign.isAnnounced, Sign.isHeard, waiting]
  | _ => simp [Sign.isAnnounced, Sign.isHeard]

theorem Step.followed (h : p.Step s q) :
    (if s.isHeard then 1 else 0) + (if p.follower = .idle then 0 else 1) =
      (if s.isAimed then 1 else 0) + if q.follower = .idle then 0 else 1 := by
  cases h with
  | hear _ idle => simp [Sign.isHeard, Sign.isAimed, idle]
  | look told => simp [Sign.isHeard, Sign.isAimed, told]
  | aim holding => simp [Sign.isHeard, Sign.isAimed, holding]
  | _ => simp [Sign.isHeard, Sign.isAimed]

/-- What is read is what the file has, and a step that changes that shows it. -/
theorem Step.content_eq (h : p.Step s q) :
    (s.isSeen = false → q.content = p.content) ∧ ∀ c ∈ s.content?, c = p.content := by
  cases h with
  | pass same => exact ⟨fun _ => same, fun c hc => by cases hc⟩
  | change => exact ⟨(fun hs => by cases hs), fun c hc => by cases hc⟩
  | reload | reject => exact ⟨fun _ => rfl, fun c hc => (Option.some.inj hc).symm⟩
  | _ => exact ⟨fun _ => rfl, fun c hc => by cases hc⟩

/-- Each change that was seen and not read yet has an event ahead, unless the watch is past its
events and about to read the file. -/
theorem Step.awaited (h : p.Step s q) {n : Nat}
    (awaited : p.watch.phase = .idle ∨ p.watch.phase = .announcing →
      n ≤ p.watch.raised + p.watch.queued)
    (phase : q.watch.phase = .idle ∨ q.watch.phase = .announcing) :
    (if s.content?.isSome then 0 else n + if s.isSeen then 1 else 0) ≤
      q.watch.raised + q.watch.queued := by
  cases h with
  | change =>
    have := awaited phase
    simp only [Sign.content?, Sign.isSeen, Option.isSome_none, Bool.false_eq_true, if_true,
      if_false]
    omega
  | arrive raised =>
    have := awaited phase
    simp only [Sign.content?, Sign.isSeen, Option.isSome_none, Bool.false_eq_true, if_false]
    omega
  | announce announcing =>
    have := awaited (.inr announcing)
    simpa [Sign.content?, Sign.isSeen] using this
  | wake | rest => simp at phase
  | drain settling => simp [settling] at phase
  | reload | reject => exact Nat.zero_le _
  | pass | hear | look | aim => simpa [Sign.content?, Sign.isSeen] using awaited phase

theorem Step.aligned (h : p.Step s q)
    (aligned : p.watch.phase = .announcing ∨ p.watch.announced = true ∨ p.IsAligned) :
    q.watch.phase = .announcing ∨ q.watch.announced = true ∨ q.IsAligned := by
  cases h with
  | reload => exact .inl rfl
  | announce => exact .inr (.inl rfl)
  | hear => exact .inr (.inr trivial)
  | look => exact .inr (.inr rfl)
  | @aim path target holding same =>
    refine aligned.imp_right (.imp_right fun h => ?_)
    obtain rfl : path = p.hostsPath := by simpa only [IsAligned, holding] using h
    exact same
  | wake phase | drain phase | rest phase | reject phase =>
    exact .inr (aligned.resolve_left (by rw [phase]; exact WatchPhase.noConfusion))
  | _ => exact aligned

end

/-! ## What the signs account for -/

/-- The state `q` by the signs of the steps that lead there from `p`. -/
structure Accounted (p : Pipeline) (trace : List Sign) (q : Pipeline) : Prop where
  path : q.watch.live.path = p.watch.live.path
  /-- The last configuration that could be loaded is in force. -/
  current : q.watch.live.current = (Sign.loads trace).getLast?.getD p.watch.live.current
  reloads : q.watch.reloads = p.watch.reloads + (Sign.loads trace).length
  announcements : q.watch.announcements =
    p.watch.announcements + trace.countP Sign.isAnnounced
  sent : (Sign.loads trace).length =
    trace.countP Sign.isAnnounced + if q.watch.phase = .announcing then 1 else 0
  received : trace.countP Sign.isAnnounced =
    trace.countP Sign.isHeard + if q.watch.announced then 1 else 0
  followed : trace.countP Sign.isHeard =
    trace.countP Sign.isAimed + if q.follower = .idle then 0 else 1
  /-- Without a change after it, the last reading stands for the file. -/
  fresh : Sign.unread trace = 0 → (Sign.tries trace).getLast?.getD p.content = q.content
  /-- A watch that is not about to read the file has an event ahead for each change. -/
  awaited : q.watch.phase = .idle ∨ q.watch.phase = .announcing →
    Sign.unread trace ≤ q.watch.raised + q.watch.queued
  /-- As long as no announcement is ahead, the follower is aligned. -/
  aligned : q.watch.phase = .announcing ∨ q.watch.announced = true ∨ q.IsAligned

theorem Accounted.start (p : Pipeline) (phase : p.watch.phase = .idle)
    (announced : p.watch.announced = false) (idle : p.follower = .idle)
    (aligned : p.IsAligned) : p.Accounted [] p where
  path := rfl
  current := rfl
  reloads := rfl
  announcements := rfl
  sent := by rw [phase]; rfl
  received := by rw [announced]; rfl
  followed := by rw [idle]; rfl
  fresh _ := rfl
  awaited _ := Nat.zero_le _
  aligned := .inr (.inr aligned)

theorem Accounted.step {p q r : Pipeline} {trace : List Sign} {s : Sign}
    (h : p.Accounted trace q) (step : q.Step s r) : p.Accounted (trace ++ [s]) r where
  path := step.path.trans h.path
  current := by
    rw [step.current, h.current, Sign.loads_append]
    cases s.loaded? <;> simp
  reloads := by
    rw [step.counted.1, h.reloads, Sign.loads_append, List.length_append, Nat.add_assoc]
  announcements := by
    rw [step.counted.2, h.announcements, List.countP_append, List.countP_singleton, Nat.add_assoc]
  sent := by
    have := h.sent
    have := step.sent
    rw [Sign.loads_append, List.length_append, List.countP_append, List.countP_singleton]
    omega
  received := by
    have := h.received
    have := step.received
    rw [List.countP_append, List.countP_append, List.countP_singleton, List.countP_singleton]
    omega
  followed := by
    have := h.followed
    have := step.followed
    rw [List.countP_append, List.countP_append, List.countP_singleton, List.countP_singleton]
    omega
  fresh unread := by
    rw [Sign.unread_append] at unread
    obtain ⟨hkept, hread⟩ := step.content_eq
    rw [Sign.tries_append]
    cases hc : s.content? with
    | none =>
      rw [hc] at unread
      have hquiet : s.isSeen = false := by
        cases hseen : s.isSeen with
        | false => rfl
        | true => simp [hseen] at unread
      rw [hkept hquiet, Option.toList_none, List.append_nil]
      exact h.fresh (by simpa [hquiet] using unread)
    | some c =>
      have hquiet : s.isSeen = false := by cases s <;> trivial
      rw [hkept hquiet, hread c hc, Option.toList_some, List.getLast?_append]
      rfl
  awaited phase := Sign.unread_append trace s ▸ step.awaited h.awaited phase
  aligned := step.aligned h.aligned

theorem Reaches.accounted {p q : Pipeline} {trace : List Sign} (h : p.Reaches trace q)
    (start : p.Accounted [] p) : p.Accounted trace q := by
  induction h with
  | start => exact start
  | step _ step ih => exact ih.step step

end Pipeline

end HostLookup
