import HostLookup.Proofs.Dispatch
import HostLookup.Proofs.Pipeline

/-!
# Reloads of a running daemon

A run of the daemon is a way through the pipeline of its reloads
(`pipeline_run`), whatever else its actions are, as long as nobody else points
the tracker elsewhere or takes the follower's announcements. So its state is
accounted for by the signs of its actions.
-/

namespace HostLookup

open Bytes Hosts

namespace Hosts.Tracker

theorem path_refresh (t : Tracker) (files : FileTree) : (t.refresh files).1.path = t.path := by
  rcases t.refresh_cases files with ⟨hr, -⟩ | ⟨hr, -⟩ | ⟨content, modified, hr, -⟩
  · rw [hr]
  · rw [hr]
  · rw [hr]
    rfl

end Hosts.Tracker

namespace Dispatcher

theorem files_path_step (d : Dispatcher) {a : Action} (change : ∀ c, a ≠ .change c)
    (retarget : ∀ path, a ≠ .retarget path) :
    (d.step a).files = d.files ∧ (d.step a).tracker.path = d.tracker.path := by
  cases a with
  | change c => exact absurd rfl (change c)
  | retarget path => exact absurd rfl (retarget path)
  | dispatch client seq words =>
    rw [step, dispatch_eq]
    cases d.verdict words <;> exact ⟨rfl, rfl⟩
  | line client text =>
    rw [step, handleLine]
    cases Command.ofLine? text with
    | none => exact ⟨rfl, rfl⟩
    | some command =>
      simp only [dispatch_eq]
      cases d.verdict command.words <;> exact ⟨rfl, rfl⟩
  | resolve i =>
    have h := d.effect_step (.resolve i)
    generalize d.step (.resolve i) = d' at h ⊢
    cases h with
    | resolve => exact ⟨rfl, d.tracker.path_refresh d.files⟩
    | stall => exact ⟨rfl, rfl⟩
    | aside _ _ _ _ _ kind => exact kind.elim
    | start brings => cases brings
  | poison | deliver i | finish i =>
    rw [step]
    repeat' split
    all_goals exact ⟨rfl, rfl⟩
  | _ => exact ⟨rfl, rfl⟩

end Dispatcher

/-- Actions that leave to the watch and the follower what is theirs. -/
def DaemonAction.IsOrderly : DaemonAction → Prop
  | .act (.retarget _) => False
  | .watch .receive => False
  | _ => True

namespace Daemon

def pipeline? (d : Daemon) : Option Pipeline :=
  d.watch.map fun w => ⟨d.files, d.server.dispatcher.tracker.path, w, d.follower⟩

/-- What an action shows. -/
def sign (d : Daemon) (a : DaemonAction) : Sign :=
  match d.watch with
  | none => .quiet
  | some w =>
    match a with
    | .act (.change c) => if w.sees d.files c then .seen else .quiet
    | .watch .reload =>
      if w.phase = .reloading then .tried (Config.content d.files w.live.path) else .quiet
    | .watch .announce =>
      if w.phase = .announcing ∧ !w.announced then .announced else .quiet
    | .hear => if w.announced ∧ d.follower = .idle then .heard else .quiet
    | .retarget =>
      match d.follower with
      | .holding path => if d.server.dispatcher.held then .quiet else .aimed path
      | _ => .quiet
    | _ => .quiet

def trace (d : Daemon) : List DaemonAction → List Sign
  | [] => []
  | a :: actions => d.sign a :: (d.step a).trace actions

/-- An action that changes what the watched file has raises an event. -/
def Notices (d : Daemon) (a : DaemonAction) : Prop :=
  ∀ w c, d.watch = some w → a = .act (.change c) →
    Config.content (d.files.after c) w.live.path ≠ Config.content d.files w.live.path →
    w.sees d.files c = true

/-- Whether the action raises an event if it is a change. -/
def raises (d : Daemon) : DaemonAction → Bool
  | .act (.change c) => d.watch.all (·.sees d.files c)
  | _ => true

/-- Whether each change in a run raises an event. -/
def raisesAll (d : Daemon) : List DaemonAction → Bool
  | [] => true
  | a :: actions => d.raises a && (d.step a).raisesAll actions

section

variable {d : Daemon} {a : DaemonAction} {actions : List DaemonAction} {p : Pipeline} {w : Watch}

theorem step_change (hw : d.watch = some w) (c : FileChange)
    (notices : d.Notices (.act (.change c))) :
    ∃ q, (d.step (.act (.change c))).pipeline? = some q ∧
      Pipeline.Step ⟨d.files, d.server.dispatcher.tracker.path, w, d.follower⟩
        (d.sign (.act (.change c))) q := by
  refine ⟨⟨d.files.after c, d.server.dispatcher.tracker.path, w.observe d.files c, d.follower⟩,
    ?_, ?_⟩
  · simp only [pipeline?, step, observe, hw]
    rfl
  · simp only [sign, hw, Watch.observe]
    by_cases hsees : w.sees d.files c = true
    · rw [if_pos hsees, if_pos hsees]
      exact .change
    · rw [if_neg hsees, if_neg hsees]
      exact .pass (Classical.byContradiction fun h => hsees (notices w c hw rfl h))

theorem step_act {a : Action} (change : ∀ c, a ≠ .change c)
    (retarget : ∀ path, a ≠ .retarget path) :
    (d.step (.act a)).pipeline? = d.pipeline? ∧ d.sign (.act a) = .quiet := by
  obtain ⟨hfiles, hpath⟩ := d.server.dispatcher.files_path_step change retarget
  have hobserve : d.observe a = d := by
    unfold observe
    split
    · next c => exact absurd rfl (change c)
    · rfl
  refine ⟨?_, ?_⟩
  · rw [step, hobserve]
    refine Option.map_congr fun w _ => ?_
    exact congrArg₂ (fun files target => (⟨files, target, w, d.follower⟩ : Pipeline)) hfiles hpath
  · unfold sign
    split
    · rfl
    · split
      · next c hc =>
        cases hc
        exact absurd rfl (change c)
      all_goals first | rfl | contradiction

theorem step_watch (hw : d.watch = some w) (s : WatchStep) (orderly : s ≠ .receive) :
    Pipeline.Step ⟨d.files, d.server.dispatcher.tracker.path, w, d.follower⟩ (d.sign (.watch s))
      ⟨d.files, d.server.dispatcher.tracker.path, w.step d.files s, d.follower⟩ := by
  have stay : ∀ {p : Pipeline}, p.Step .quiet p := .pass rfl
  cases s with
  | receive => exact absurd rfl orderly
  | arrive =>
    rw [Watch.step]
    split
    · simp only [sign, hw]
      exact stay
    · next h =>
      simp only [sign, hw]
      exact .arrive (by change w.raised = _; omega)
  | wake =>
    rw [Watch.step]
    simp only [sign, hw]
    split
    · next h => exact .wake h.1 (by change w.queued = _; omega)
    · exact stay
  | drain =>
    rw [Watch.step]
    simp only [sign, hw]
    split
    · next h => exact .drain h.1 (by change w.queued = _; omega)
    · exact stay
  | rest =>
    rw [Watch.step]
    simp only [sign, hw]
    split
    · next h => exact .rest h.1 h.2
    · exact stay
  | reload =>
    rw [Watch.step]
    simp only [sign, hw]
    split
    · next phase =>
      rw [LiveConfig.reload, LiveConfig.ofFile, Config.load_eq]
      cases hload : Config.content d.files w.live.path >>= Config.ofContent with
      | ok current => exact .reload phase hload
      | error failure => exact .reject phase hload
    · exact stay
  | announce =>
    rw [Watch.step]
    simp only [sign, hw]
    split
    · next h => exact .announce h.1 (by simpa using h.2)
    · exact stay

theorem step_pipeline (h : d.pipeline? = some p) (orderly : a.IsOrderly) (notices : d.Notices a) :
    ∃ q, (d.step a).pipeline? = some q ∧ p.Step (d.sign a) q := by
  have stay : ∀ {p : Pipeline}, p.Step .quiet p := .pass rfl
  obtain ⟨w, hw, rfl⟩ := Option.map_eq_some_iff.mp h
  cases a with
  | act a =>
    by_cases hchange : ∃ c, a = .change c
    · obtain ⟨c, rfl⟩ := hchange
      exact step_change hw c notices
    · have retarget : ∀ path, a ≠ .retarget path := fun path ha => by
        rw [ha] at orderly
        exact orderly
      obtain ⟨hpipeline, hsign⟩ := d.step_act (fun c hc => hchange ⟨c, hc⟩) retarget
      exact ⟨_, hpipeline.trans h, hsign ▸ stay⟩
  | watch s =>
    refine ⟨_, ?_, step_watch hw s fun hs => by rw [hs] at orderly; exact orderly⟩
    simp only [pipeline?, step, hw]
    rfl
  | hear =>
    simp only [step, sign, hw]
    split
    · next hears => exact ⟨_, rfl, .hear hears.1 hears.2⟩
    · exact ⟨_, h, stay⟩
  | read =>
    simp only [step, sign, hw]
    split
    · next told =>
      refine ⟨_, ?_, .look told⟩
      simp only [pipeline?]
      rfl
    · exact ⟨_, h, stay⟩
  | retarget =>
    simp only [step, sign, hw]
    cases hfollower : d.follower with
    | idle | told =>
      rw [hfollower] at h
      exact ⟨_, h, stay⟩
    | holding path =>
      simp only
      split
      · rw [hfollower] at h
        exact ⟨_, h, stay⟩
      · refine ⟨_, ?_, .aim rfl (d.server.dispatcher.tracker.same_retarget path)⟩
        simp only [pipeline?]
        rfl

theorem notices_of_raises (h : d.raises a = true) : d.Notices a := by
  rintro w c hw rfl -
  rwa [raises, hw] at h

theorem notices_of_raisesAll (h : d.raisesAll actions = true) {k : Nat}
    (hk : actions[k]? = some a) : (d.run (actions.take k)).Notices a := by
  induction actions generalizing d k with
  | nil => cases hk
  | cons b actions ih =>
    rw [raisesAll, Bool.and_eq_true] at h
    cases k with
    | zero =>
      cases hk
      exact notices_of_raises h.1
    | succ k => exact ih h.2 hk

theorem trace_append (d : Daemon) (actions : List DaemonAction) (a : DaemonAction) :
    d.trace (actions ++ [a]) = d.trace actions ++ [(d.run actions).sign a] := by
  induction actions generalizing d with
  | nil => rfl
  | cons b actions ih => exact congrArg (d.sign b :: ·) (ih (d.step b))

/-- A run of the daemon goes through the pipeline. -/
theorem pipeline_run (h : d.pipeline? = some p) (orderly : ∀ a ∈ actions, a.IsOrderly)
    (notices : ∀ k a, actions[k]? = some a → (d.run (actions.take k)).Notices a) :
    ∃ q, (d.run actions).pipeline? = some q ∧ p.Reaches (d.trace actions) q := by
  induction actions using List.reverseRecOn with
  | nil => exact ⟨p, h, .start⟩
  | append_singleton actions a ih =>
    obtain ⟨q, hq, hreaches⟩ := ih (fun b hb => orderly b (List.mem_append_left _ hb))
      fun k b hk => by
        have hlt := (List.getElem?_eq_some_iff.mp hk).1
        have := notices k b (by rw [List.getElem?_append_left hlt]; exact hk)
        rwa [List.take_append_of_le_length (Nat.le_of_lt hlt)] at this
    have hlast := notices actions.length a (by simp)
    rw [List.take_left] at hlast
    obtain ⟨r, hr, hstep⟩ := step_pipeline hq (orderly a (by simp)) hlast
    refine ⟨r, ?_, trace_append d actions a ▸ hreaches.step hstep⟩
    rwa [run, List.foldl_append]

end

/-- A daemon whose watch `w` has just been put in place, with the configuration loaded of the file
as it is. -/
structure Begins (d : Daemon) (w : Watch) : Prop where
  watch : d.watch = some w
  started : ∃ files, Watch.start w.live files = .ok w
  loaded : Config.load d.files w.live.path = .ok w.live.current
  follower : d.follower = .idle
  target : d.server.dispatcher.tracker.path = ⟨w.live.current.hosts.path⟩

/-! ## How a daemon begins -/

theorem eq_of_start {live : LiveConfig} {files : FileTree} {w : Watch}
    (h : Watch.start live files = .ok w) : ∃ directory name, w = { live, directory, name } := by
  unfold Watch.start at h
  split at h
  · cases h
  · split at h
    · cases h
      exact ⟨_, _, rfl⟩
    · cases h

theorem findConfig_loaded {files : FileTree} {named : Option Path} {live : LiveConfig}
    (h : (findConfig files named).1 = some live) :
    Config.load files live.path = .ok live.current := by
  unfold findConfig at h
  split at h
  · cases h
  · next path _ =>
    split at h
    · next live' hlive =>
      cases h
      obtain ⟨current, hload, rfl⟩ := map_eq_ok_iff.mp hlive
      exact hload
    · cases h

theorem watch_startWatch {o : Options} {live : Option LiveConfig} {d : Daemon} {w : Watch}
    (none : d.watch = none) (h : (startWatch o live d).watch = some w) :
    live = some w.live ∧ o.hosts = .none ∧ Watch.start w.live d.files = .ok w ∧
      (startWatch o live d).follower = d.follower ∧
      (startWatch o live d).server.dispatcher = d.server.dispatcher := by
  unfold startWatch at h ⊢
  split at h
  · next live hosts =>
    split at h
    · next watch hstart =>
      cases h
      have hlive : w.live = live := by
        obtain ⟨directory, name, rfl⟩ := eq_of_start hstart
        rfl
      exact ⟨congrArg some hlive.symm, hosts, hlive ▸ hstart, rfl, rfl⟩
    · rw [none] at h
      cases h
  · rw [none] at h
    cases h

theorem tracker_listen (s : Server) : s.listen.1.dispatcher.tracker = s.dispatcher.tracker := by
  unfold Server.listen
  simp only
  split <;> rfl

theorem tracker_listening (s : Server) :
    (if s.listen.2.isSome = true then s.listen.1.record [.bindFailed]
      else s.listen.1).dispatcher.tracker = s.dispatcher.tracker := by
  split <;> exact tracker_listen s

/-- A start that leaves the configuration file alone ends with a watch that begins. -/
theorem begins_start {files : FileTree} {services : ServiceTable} {o : Options}
    {environment : Environment} {now : Timestamp} {w : Watch}
    (hw : (start files services o environment now).daemon.watch = some w)
    (untouched : Config.content (start files services o environment now).daemon.files w.live.path =
      Config.content files w.live.path) :
    (start files services o environment now).daemon.Begins w := by
  unfold start at hw untouched ⊢
  generalize hfind : findConfig files (o.config.map Path.mk) = found at hw untouched ⊢
  obtain ⟨live, notes⟩ := found
  simp only at hw untouched ⊢
  split at hw
  · cases hw
  · next filter hfilter =>
    split at hw
    · cases hw
    · next opened place hopen =>
      simp only [hfilter, hopen] at untouched ⊢
      simp only at hw
      obtain ⟨rfl, hhosts, hstarted, hfollower, hdispatcher⟩ := watch_startWatch rfl hw
      refine ⟨hw, ⟨_, hstarted⟩, ?_, hfollower, ?_⟩
      · rw [Config.load_eq, untouched, ← Config.load_eq]
        exact findConfig_loaded (congrArg Prod.fst hfind)
      · refine (congrArg Tracker.path (tracker_listening _)).trans ?_
        rw [hdispatcher]
        simp only [override, hhosts]
        rfl

/-! ## What a run accounts for -/

theorem Begins.accounted {d : Daemon} {w : Watch} (h : d.Begins w) :
    Pipeline.Accounted ⟨d.files, d.server.dispatcher.tracker.path, w, d.follower⟩ []
      ⟨d.files, d.server.dispatcher.tracker.path, w, d.follower⟩ := by
  obtain ⟨files, hstarted⟩ := h.started
  obtain ⟨directory, name, hw⟩ := eq_of_start hstarted
  refine .start _ (congrArg Watch.phase hw) (congrArg Watch.announced hw) h.follower ?_
  simp only [Pipeline.IsAligned, h.follower, h.target]
  exact Path.same_refl _

theorem Begins.validate {d : Daemon} {w : Watch} (h : d.Begins w) (trace : List Sign) :
    ((Sign.loads trace).getLast?.getD w.live.current).validate = .ok () := by
  cases hlast : (Sign.loads trace).getLast? with
  | none => exact Config.validate_of_load h.loaded
  | some c =>
    obtain ⟨content, hcontent⟩ := Sign.mem_loads (List.mem_of_getLast? hlast)
    exact Config.validate_of_ofContent hcontent

theorem Begins.current {d : Daemon} {w : Watch} (h : d.Begins w) {trace : List Sign}
    {files : FileTree} {c : Config}
    (fresh : (Sign.tries trace).getLast?.getD (Config.content d.files w.live.path) =
      Config.content files w.live.path)
    (loads : Config.load files w.live.path = .ok c) :
    (Sign.loads trace).getLast?.getD w.live.current = c := by
  cases hlast : (Sign.tries trace).getLast? with
  | none =>
    -- the file has never been read again, so it is as it was at first
    rw [hlast, Option.getD_none] at fresh
    have hloaded := h.loaded
    rw [Config.load_eq, fresh, ← Config.load_eq, loads] at hloaded
    rw [Sign.loads_eq, List.getLast?_eq_none_iff.mp hlast]
    exact (Except.ok.inj hloaded).symm
  | some content =>
    rw [hlast, Option.getD_some] at fresh
    rw [Config.load_eq, ← fresh] at loads
    rw [Sign.getLast?_loads hlast loads, Option.getD_some]

/-! ## Where a run ends -/

/--
A daemon whose watch begins, after any actions that leave to the watch and the follower what is
theirs, if every change of what the watched file has raises an event. The configuration in force is
valid, the last that could be loaded, and the one that the follower reads. Each load is announced
once, each announcement heard once and followed once. Unless the watch is about to read its file, an
event is ahead for each change after its last reading. When nothing is on its way, the last reading,
the configuration and the tracker are those of the file as it is.
-/
theorem reloads_followed (d : Daemon) (w : Watch) (actions : List DaemonAction)
    (begins : d.Begins w) (orderly : ∀ a ∈ actions, a.IsOrderly)
    (notices : ∀ k a, actions[k]? = some a → (d.run (actions.take k)).Notices a) :
    let now := d.run actions
    let trace := d.trace actions
    ∃ w', now.watch = some w' ∧ w'.live.path = w.live.path ∧
      (w'.live.current.validate = .ok () ∧
        w'.live.current = (Sign.loads trace).getLast?.getD w.live.current ∧
        (now.follower = .told →
          (now.step .read).follower = .holding ⟨w'.live.current.hosts.path⟩)) ∧
      (w'.reloads = (Sign.loads trace).length ∧
        w'.announcements = trace.countP Sign.isAnnounced ∧
        w'.reloads = w'.announcements + (if w'.phase = .announcing then 1 else 0) ∧
        w'.announcements = trace.countP Sign.isHeard + (if w'.announced then 1 else 0) ∧
        trace.countP Sign.isHeard =
          trace.countP Sign.isAimed + if now.follower = .idle then 0 else 1) ∧
      (w'.phase = .idle ∨ w'.phase = .announcing →
        Sign.unread trace ≤ w'.raised + w'.queued) ∧
      (w'.raised = 0 → w'.queued = 0 → w'.phase = .idle → w'.announced = false →
        now.follower = .idle →
        (Sign.tries trace).getLast?.getD (Config.content d.files w.live.path) =
            Config.content now.files w.live.path ∧
          (∀ c, Config.load now.files w.live.path = .ok c → w'.live.current = c) ∧
          now.server.dispatcher.tracker.path.same ⟨w'.live.current.hosts.path⟩ = true) := by
  intro now trace
  obtain ⟨files, hstarted⟩ := begins.started
  obtain ⟨directory, name, hfirst⟩ := eq_of_start hstarted
  obtain ⟨q, hq, hreaches⟩ :=
    pipeline_run (congrArg (Option.map _) begins.watch) orderly notices
  obtain ⟨path, current, reloads, announcements, sent, received, followed, fresh, awaited,
    aligned⟩ := hreaches.accounted begins.accounted
  obtain ⟨w', hw', rfl⟩ := Option.map_eq_some_iff.mp hq
  have hreloads : w.reloads = 0 := congrArg Watch.reloads hfirst
  have hannouncements : w.announcements = 0 := congrArg Watch.announcements hfirst
  rw [hreloads, Nat.zero_add] at reloads
  rw [hannouncements, Nat.zero_add] at announcements
  refine ⟨w', hw', path, ⟨current ▸ begins.validate _, current, ?_⟩,
    ⟨reloads, announcements, ?_, ?_, followed⟩, awaited, ?_⟩
  · intro told
    simp only [step, hw', now, told, if_true]
  · rw [reloads, announcements]
    exact sent
  · rw [announcements]
    exact received
  · intro raised queued phase announced idle
    have hunread : Sign.unread trace = 0 := by
      have hle := awaited (.inl phase)
      simp only [raised, queued] at hle
      exact Nat.le_zero.mp hle
    have hfresh : (Sign.tries trace).getLast?.getD (Config.content d.files w.live.path) =
        Config.content now.files w.live.path := (fresh hunread).trans (congrArg _ path)
    refine ⟨hfresh, fun c hload => current.trans (begins.current hfresh hload), ?_⟩
    -- no announcement is ahead and the follower is at rest
    rcases aligned with announcing | waiting | haligned
    · exact absurd (phase.symm.trans announcing) WatchPhase.noConfusion
    · exact absurd (announced.symm.trans waiting) Bool.noConfusion
    · have hidle : (d.run actions).follower = .idle := idle
      simp only [Pipeline.IsAligned, hidle] at haligned
      exact haligned

def samplePath : Path := ⟨ascii "c.yaml"⟩

def sampleDaemon : Daemon :=
  { server :=
      { path := ⟨ascii "s.sock"⟩
        dispatcher :=
          { files := { entries := [([ascii "c.yaml"], .file [] ⟨1, 0⟩)] }
            tracker := { path := ⟨ascii "/etc/hosts"⟩ } } }
    watch := some { live := ⟨samplePath, {}⟩, directory := [], name := ascii "c.yaml" } }

/-- The file is written twice before it is read, the first time to what is no text. -/
def sampleReload : List DaemonAction :=
  [.act (.change (.write samplePath [255] ⟨2, 0⟩)), .watch .arrive, .watch .wake,
    .act (.change (.write samplePath [10] ⟨3, 0⟩)), .watch .arrive, .watch .drain,
    .watch .rest, .watch .reload, .watch .announce, .hear, .read, .retarget]

theorem sampleReload_followed :
    let now := sampleDaemon.run sampleReload
    ∃ w', now.watch = some w' ∧ w'.reloads = w'.announcements ∧
      now.server.dispatcher.tracker.path.same ⟨w'.live.current.hosts.path⟩ = true := by
  intro now
  have begins : sampleDaemon.Begins
      { live := ⟨samplePath, {}⟩, directory := [], name := ascii "c.yaml" } :=
    { watch := rfl
      started := ⟨{}, by decide +kernel⟩
      loaded := by decide +kernel
      follower := rfl
      target := rfl }
  have orderly : ∀ a ∈ sampleReload, a.IsOrderly := by
    simp only [sampleReload, List.forall_mem_cons]
    exact ⟨trivial, trivial, trivial, trivial, trivial, trivial, trivial, trivial, trivial,
      trivial, trivial, trivial, List.forall_mem_nil _⟩
  have notices : sampleDaemon.raisesAll sampleReload = true := by decide +kernel
  have hnow : (sampleDaemon.run sampleReload).watch.map
      (fun w => (w.raised, w.queued, w.phase, w.announced)) =
        some (0, 0, .idle, false) := by
    decide +kernel
  have idle : (sampleDaemon.run sampleReload).follower = .idle := by decide +kernel
  obtain ⟨w', hw', -, -, ⟨-, -, hcount, -⟩, -, hquiet⟩ :=
    reloads_followed sampleDaemon _ sampleReload begins orderly
      fun k a => notices_of_raisesAll notices
  rw [hw'] at hnow
  simp only [Option.map_some, Option.some.injEq, Prod.mk.injEq] at hnow
  obtain ⟨raised, queued, phase, announced⟩ := hnow
  refine ⟨w', hw', ?_, (hquiet raised queued phase announced idle).2.2⟩
  rw [hcount, phase]
  rfl

end Daemon

end HostLookup
