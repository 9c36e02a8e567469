import HostLookup.Proofs.Reloading
import HostLookup.Proofs.Walks
import HostLookup.Server

/-!
# What listening does to the files

A server that listens takes away the entry at its path whatever it is, makes the
directories above the path and puts a socket there; each step may fail after the
ones before it are done. Beyond that entry nothing is lost, and nothing is added
but such directories and the socket (`listen_exact`). The entry is lost though
it is no socket: a file, or a link in place of what it leads to.
-/

namespace HostLookup

open Bytes

namespace FileTree

/-- The entry at `l` is taken away for a socket at `p`: the path leads to something, and its own
entry, a link there not followed, is no directory. -/
structure MakesWay (t : FileTree) (p : Path) (l : Location) : Prop where
  present : t.isPresent p = true
  spot : t.spot p = .ok l
  entry : ∃ n, t.get? l = some n ∧ n ≠ .directory

/-- A path above `p` leads to `l`. -/
def IsAbove (t : FileTree) (l : Location) (p : Path) : Prop :=
  ∃ q : Path, q.IsAbove p ∧ t.locate true q = .ok l

/-- What can be at `l` afterwards if nothing was there, or what was there made way. -/
inductive AddedAt (t : FileTree) (p : Path) (listening : Prop) (l : Location) : Prop where
  | nothing (vacant : t.get? l = none)
  | directory (made : t.get? l = some .directory) (above : t.IsAbove l p)
  | socket (put : t.get? l = some .socket) (listens : listening) (spot : t.spot p = .ok l)

/-- What a server that listens at `p` leaves of the files `t`. -/
structure Listened (t : FileTree) (p : Path) (listening : Prop) (u : FileTree) : Prop where
  kept : ∀ l n, t.get? l = some n → ¬ t.MakesWay p l → u.get? l = some n
  added : ∀ l, t.get? l = none ∨ t.MakesWay p l → u.AddedAt p listening l
  socket : listening → p.isAbstract = false → ∃ l, u.get? l = some .socket ∧ u.spot p = .ok l ∧
    (t.get? l = none ∨ t.MakesWay p l)
  unchanged : p.isAbstract = true → u = t

/-- What is left of the files `t` when a server that listens at `p` is closed. -/
structure Closed (t : FileTree) (p : Path) (u : FileTree) : Prop where
  gone : ∀ l, t.spot p = .ok l → u.get? l = none
  kept : ∀ l, t.spot p ≠ .ok l → u.get? l = t.get? l
  vacant : u.isOccupied p = false

/-- No file, directory or link is lost. -/
def Preserves (t u : FileTree) : Prop :=
  ∀ l n, t.get? l = some n → n ≠ .socket → u.get? l = some n

section

variable {t u v : FileTree} {p q : Path} {l m : Location} {n : FileNode}

/-! ## The entry that makes way -/

theorem MakesWay.unique (h : t.MakesWay p l) (h' : t.MakesWay p m) : l = m :=
  Except.ok.inj (h.spot.symm.trans h'.spot)

theorem unlink_eq_ok_iff :
    t.unlink p = .ok u ↔
      ∃ l n, t.spot p = .ok l ∧ t.get? l = some n ∧ n ≠ .directory ∧ u = t.erase l := by
  simp only [spot_eq_ok_iff_entrySpot, unlink]
  cases t.entrySpot p with
  | error fault => simp
  | ok l =>
    cases hget : t.get? l with
    | none => simp [hget]
    | some n => cases n <;> cases p.endsInSlash <;> simp [hget, eq_comm]

/-- Clearing a path takes away the entry that makes way, if there is one. -/
theorem clear_eq_ok (h : t.clear p = .ok u) :
    (∀ l, t.MakesWay p l → u.get? l = none) ∧ ∀ l, ¬ t.MakesWay p l → u.get? l = t.get? l := by
  unfold clear at h
  split at h
  · next present =>
    obtain ⟨l, n, hspot, hget, hn, rfl⟩ := unlink_eq_ok_iff.mp h
    have hl : t.MakesWay p l := ⟨present, hspot, n, hget, hn⟩
    refine ⟨fun m hm => ?_, fun m hm => ?_⟩
    · rw [get?_erase (ne_nil_of_spot hspot), if_pos (hm.unique hl)]
    · rw [get?_erase (ne_nil_of_spot hspot), if_neg (by rintro rfl; exact hm hl)]
  · next absent =>
    obtain rfl := Except.ok.inj h
    exact ⟨fun l hl => absurd hl.present absent, fun _ _ => rfl⟩

theorem not_makesWay_of_clear {fault : Fault} (h : t.clear p = .error fault) :
    ¬ t.MakesWay p l := by
  rintro ⟨present, hspot, n, hget, hn⟩
  unfold clear at h
  rw [if_pos present, unlink_eq_ok_iff.mpr ⟨l, n, hspot, hget, hn, rfl⟩] at h
  cases h

/-! ## The socket -/

theorem putSocket_eq_ok (h : t.putSocket p = .ok u) :
    ∃ l, t.spot p = .ok l ∧ t.get? l = none ∧ u = t.put l .socket := by
  unfold putSocket at h
  split at h
  · cases h
  · split at h
    · cases h
    · next l hspot =>
      split at h
      · cases h
      · next hvacant =>
        split at h
        · cases h
        · next hslash =>
          exact ⟨l, spot_eq_ok_iff_entrySpot.mpr ⟨by simpa using hslash, hspot⟩,
            by simpa using hvacant, (Except.ok.inj h).symm⟩

theorem growsAt_makeParents (t : FileTree) (p : Path) :
    GrowsAt (·.IsAbove p) t (t.makeParents p).1 := by
  unfold makeParents
  split
  · exact .refl _ t
  · next q hparent => exact (growsAt_makeDirectories t q).mono fun r => .head' hparent

/-! ## Abstract names -/

theorem isAbstract_of_isPrefix (h : p.isAbstract = true) (hq : q.text <+: p.text) :
    q.isAbstract = true := by
  unfold Path.isAbstract at *
  cases htext : q.text with
  | nil => rfl
  | cons b rest =>
    obtain ⟨more, hmore⟩ := hq
    rw [← hmore, htext] at h
    exact h

theorem pathFault?_of_isAbstract (h : p.isAbstract = true) (hne : p.text ≠ []) :
    pathFault? p = some .zeroInPath := by
  obtain ⟨b, rest, htext⟩ := List.exists_cons_of_ne_nil hne
  have hb : b = 0 := by simpa [Path.isAbstract, htext] using h
  have hzero : p.text.contains 0 = true := by simp [htext, hb]
  rw [pathFault?, if_pos hzero]

theorem exists_pathFault?_of_isAbstract (h : p.isAbstract = true) :
    ∃ fault, pathFault? p = some fault := by
  by_cases hne : p.text = []
  · exact ⟨.noEntry, by simp [pathFault?, hne]⟩
  · exact ⟨_, pathFault?_of_isAbstract h hne⟩

theorem locate_of_isAbstract (t : FileTree) (follow : Bool) (h : p.isAbstract = true) :
    ∃ fault, t.locate follow p = .error fault := by
  obtain ⟨fault, hfault⟩ := exists_pathFault?_of_isAbstract h
  exact ⟨fault, by rw [locate, hfault]⟩

theorem not_spot_of_isAbstract (h : p.isAbstract = true) : t.spot p ≠ .ok l := by
  obtain ⟨fault, hfault⟩ := exists_pathFault?_of_isAbstract h
  simp [spot, hfault]

theorem isPresent_of_isAbstract (h : p.isAbstract = true) : t.isPresent p = false := by
  obtain ⟨fault, hlocate⟩ := locate_of_isAbstract t true h
  rw [isPresent, find, hlocate]
  rfl

theorem isOccupied_of_isAbstract (h : p.isAbstract = true) : t.isOccupied p = false := by
  obtain ⟨fault, hlocate⟩ := locate_of_isAbstract t false h
  rw [isOccupied, hlocate]

theorem makeDirectories_of_isAbstract (h : p.isAbstract = true) :
    (t.makeDirectories p).1 = t := by
  unfold makeDirectories
  split
  · rfl
  · next hne =>
    have hmake : t.makeDirectory p = .error .zeroInPath := by
      rw [makeDirectory, entrySpot, pathFault?_of_isAbstract h (by simpa using hne)]
    simp only [hmake]
    rw [if_pos (by decide)]
    rfl

/-- Nothing is done to the files for a socket with an abstract name. -/
theorem listen_of_isAbstract (h : p.isAbstract = true) : (t.listen p).1 = t := by
  have hparents : (t.makeParents p).1 = t := by
    unfold makeParents
    split
    · rfl
    · next q hparent =>
      exact makeDirectories_of_isAbstract
        (isAbstract_of_isPrefix h (Path.parent?_eq_some hparent).2.2)
  unfold listen clear
  rw [isPresent_of_isAbstract h, if_neg Bool.false_ne_true]
  simp only
  rcases hmake : t.makeParents p with ⟨u, _ | fault⟩
  · obtain rfl : u = t := by rwa [hmake] at hparents
    simp only [bind, h, if_true]
    cases u.abstractNameFault? p with
    | none => rfl
    | some fault => rfl
  · rwa [hmake] at hparents

/-! ## Listening -/

theorem listened_of_isAbstract {listening : Prop} (h : p.isAbstract = true) :
    t.Listened p listening t :=
  ⟨fun _ _ hl _ => hl,
    fun _ hl => .nothing (hl.resolve_right fun hway => not_spot_of_isAbstract h hway.spot),
    fun _ hpath => absurd (h.symm.trans hpath) Bool.noConfusion, fun _ => rfl⟩

theorem listened_of_not_clear {fault : Fault} (h : t.clear p = .error fault) :
    t.Listened p False t :=
  ⟨fun _ _ hl _ => hl, fun _ hl => .nothing (hl.resolve_right (not_makesWay_of_clear h)),
    False.elim, fun _ => rfl⟩

/-- The directories are made in what clearing has left, and fill only what is vacant then. -/
theorem listened_of_clear (hpath : p.isAbstract = false) (h : t.clear p = .ok u) :
    t.Listened p False (u.makeParents p).1 := by
  obtain ⟨cleared, rest⟩ := clear_eq_ok h
  have grows := growsAt_makeParents u p
  refine ⟨fun l n hl hway => grows.isPart.get? l n ?_, fun l hl => ?_, False.elim,
    fun habstract => absurd (habstract.symm.trans hpath) Bool.noConfusion⟩
  · rw [rest l hway, hl]
  · have vacant : u.get? l = none := by
      by_cases hway : t.MakesWay p l
      · exact cleared l hway
      · rw [rest l hway, hl.resolve_right hway]
    rcases grows.new l vacant with hnone | ⟨hdirectory, q, habove, hleads⟩
    · exact .nothing hnone
    · exact .directory hdirectory ⟨q, habove, hleads⟩

theorem AddedAt.put_socket (h : t.AddedAt p False m) (hspot : t.spot p = .ok l)
    (hvacant : t.get? l = none) : (t.put l .socket).AddedAt p True m := by
  have hpart := isPart_put hvacant .socket
  have hget := get?_put (t := t) (m := m) (n := .socket) (ne_nil_of_spot hspot)
  by_cases hm : m = l
  · subst hm
    rw [if_pos rfl] at hget
    exact .socket hget trivial (spot_of_isPart hpart hspot)
  · rw [if_neg hm] at hget
    cases h with
    | nothing vacant => exact .nothing (hget.trans vacant)
    | directory made above =>
      obtain ⟨q, habove, hleads⟩ := above
      refine .directory (hget.trans made) ⟨q, habove, locate_of_isPart hpart hleads ?_⟩
      rw [made]
      exact Option.some_ne_none _
    | socket _ listens => exact listens.elim

theorem Listened.put_socket (h : t.Listened p False u) (hpath : p.isAbstract = false)
    (hspot : u.spot p = .ok l) (hvacant : u.get? l = none) :
    t.Listened p True (u.put l .socket) := by
  have hpart := isPart_put hvacant .socket
  refine ⟨fun m n hm hway => hpart.get? m n (h.kept m n hm hway),
    fun m hm => (h.added m hm).put_socket hspot hvacant,
    fun _ _ => ⟨l, ?_, spot_of_isPart hpart hspot, ?_⟩,
    fun habstract => absurd (habstract.symm.trans hpath) Bool.noConfusion⟩
  · rw [get?_put (ne_nil_of_spot hspot), if_pos rfl]
  · -- whatever else was at the spot would have been kept
    cases hn : t.get? l with
    | none => exact .inl rfl
    | some n =>
      refine .inr (Classical.byContradiction fun hway => ?_)
      rw [h.kept l n hn hway] at hvacant
      cases hvacant

theorem listened_listen (t : FileTree) (p : Path) :
    t.Listened p ((t.listen p).2 = none) (t.listen p).1 := by
  cases hpath : p.isAbstract with
  | true =>
    rw [listen_of_isAbstract hpath]
    exact listened_of_isAbstract hpath
  | false =>
    unfold listen
    split
    · next fault hclear => simpa using listened_of_not_clear hclear
    · next cleared hclear =>
      have made := listened_of_clear hpath hclear
      split
      · next u fault hmake =>
        rw [hmake] at made
        simpa using made
      · next u hmake =>
        rw [hmake] at made
        split
        · simpa using made
        · next v hbind =>
          rw [bind, hpath, if_neg Bool.false_ne_true] at hbind
          obtain ⟨l, hspot, hvacant, rfl⟩ := putSocket_eq_ok hbind
          simpa using made.put_socket hpath hspot hvacant

/-! ## Closing -/

theorem discard_of_isAbstract (h : p.isAbstract = true) : t.discard p = t := by
  unfold discard
  cases hunlink : t.unlink p with
  | error fault => rfl
  | ok u =>
    obtain ⟨l, n, hspot, -⟩ := unlink_eq_ok_iff.mp hunlink
    exact absurd hspot (not_spot_of_isAbstract h)

theorem discard_of_socket (hspot : t.spot p = .ok l) (hl : t.get? l = some .socket) :
    t.discard p = t.erase l := by
  have h := unlink_eq_ok_iff.mpr ⟨l, _, hspot, hl, FileNode.noConfusion, rfl⟩
  unfold discard
  rw [h]
  rfl

/-- Without the socket at it the spot of a path stays a spot, for the walk there passes none. -/
theorem spot_erase (hspot : t.spot p = .ok l) (hl : t.get? l = some .socket) :
    (t.erase l).spot p = .ok l := by
  have hkept : ∀ m n, t.get? m = some n → n ≠ .socket → (t.erase l).get? m = some n := by
    intro m n hm hn
    rw [get?_erase (ne_nil_of_spot hspot), if_neg, hm]
    rintro rfl
    exact hn (Option.some.inj (hm.symm.trans hl))
  obtain ⟨hfault, hsteps⟩ := spot_eq_ok_iff.mp hspot
  obtain ⟨front, step, place, hfront, hleads, directory, plain, hplace⟩ :=
    spotOfSteps_eq_ok_iff.mp hsteps
  exact spot_eq_ok_iff.mpr ⟨hfault, spotOfSteps_eq_ok_iff.mpr ⟨front, step, place, hfront,
    hleads.of_preserves directory hkept, hkept _ _ directory FileNode.noConfusion, plain, hplace⟩⟩

theorem closed_of_socket (hspot : t.spot p = .ok l) (hl : t.get? l = some .socket) :
    t.Closed p (t.discard p) := by
  have hget (m : Location) := get?_erase (t := t) (m := m) (ne_nil_of_spot hspot)
  rw [discard_of_socket hspot hl]
  refine ⟨fun m hm => ?_, fun m hm => ?_, ?_⟩
  · rw [hget, if_pos (Except.ok.inj (hm.symm.trans hspot))]
  · rw [hget, if_neg (by rintro rfl; exact hm hspot)]
  · rw [isOccupied_of_spot (spot_erase hspot hl), hget, if_pos rfl]
    rfl

theorem closed_of_isAbstract (h : p.isAbstract = true) : t.Closed p t :=
  ⟨fun _ hspot => absurd hspot (not_spot_of_isAbstract h), fun _ _ => rfl,
    isOccupied_of_isAbstract h⟩

section

variable {listening : Prop}

theorem Listened.isOccupied (h : t.Listened p listening u) (hlistens : listening) :
    u.isOccupied p = !p.isAbstract := by
  cases hpath : p.isAbstract with
  | true => exact isOccupied_of_isAbstract hpath
  | false =>
    obtain ⟨l, hsocket, hspot, -⟩ := h.socket hlistens hpath
    rw [isOccupied_of_spot hspot, hsocket]
    rfl

theorem Listened.closed_discard (h : t.Listened p listening u) (hlistens : listening) :
    u.Closed p (u.discard p) := by
  cases hpath : p.isAbstract with
  | true =>
    rw [discard_of_isAbstract hpath]
    exact closed_of_isAbstract hpath
  | false =>
    obtain ⟨l, hsocket, hspot, -⟩ := h.socket hlistens hpath
    exact closed_of_socket hspot hsocket

/-! ## What is lost -/

theorem Listened.socket_at (h : t.Listened p listening u) (hlistens : listening)
    (hspot : u.spot p = .ok l) : u.get? l = some .socket := by
  have hpath : p.isAbstract = false :=
    Bool.eq_false_iff.mpr fun habstract => not_spot_of_isAbstract habstract hspot
  obtain ⟨m, hsocket, hm, -⟩ := h.socket hlistens hpath
  rwa [Except.ok.inj (hspot.symm.trans hm)]

/-- Nothing is lost exactly if what makes way is a socket. -/
theorem Listened.preserves_iff (h : t.Listened p listening u) :
    t.Preserves u ↔ ∀ l, t.MakesWay p l → t.get? l = some .socket := by
  constructor
  · intro hkeeps l hway
    obtain ⟨n, hn, hdirectory⟩ := hway.entry
    by_cases hsocket : n = .socket
    · rw [hn, hsocket]
    · -- then it is there still, though only a directory or a socket can be
      have hstill := hkeeps l n hn hsocket
      cases h.added l (.inr hway) with
      | nothing vacant => cases vacant.symm.trans hstill
      | directory made => exact absurd (Option.some.inj (hstill.symm.trans made)) hdirectory
      | socket put => exact absurd (Option.some.inj (hstill.symm.trans put)) hsocket
  · intro hsockets l n hn hsocket
    refine h.kept l n hn fun hway => hsocket ?_
    exact Option.some.inj (hn.symm.trans (hsockets l hway))

/-- What goes when the server is closed is a socket. -/
theorem Preserves.of_closed (h : t.Preserves u) (listened : t.Listened p listening u)
    (hlistens : listening) (closed : u.Closed p v) : t.Preserves v := by
  intro l n hn hsocket
  have hstill := h l n hn hsocket
  rw [closed.kept l fun hspot => ?_, hstill]
  exact hsocket (Option.some.inj (hstill.symm.trans (listened.socket_at hlistens hspot)))

end

end

end FileTree

theorem Dispatcher.files_run {actions : List Action}
    (quiet : ∀ a ∈ actions, ∀ c, a ≠ .change c) (d : Dispatcher) :
    (d.run actions).files = d.files := by
  induction actions generalizing d with
  | nil => rfl
  | cons a actions ih =>
    have hstep : (d.step a).files = d.files := by
      by_cases hretarget : ∃ path, a = .retarget path
      · obtain ⟨path, rfl⟩ := hretarget
        rfl
      · rw [not_exists] at hretarget
        exact (d.files_path_step (quiet a List.mem_cons_self) hretarget).1
    exact (ih (fun b hb => quiet b (List.mem_cons_of_mem a hb)) (d.step a)).trans hstep

namespace Server

/-- `s.Goes s'`: the server `s` goes on to `s'`, whatever its clients do and whatever is done in
its dispatcher, while no other program changes the files. -/
inductive Goes (s : Server) : Server → Prop where
  | stay : s.Goes s
  | perform {s' : Server} {actions : List Action} (before : s.Goes s')
      (quiet : ∀ a ∈ actions, ∀ c, a ≠ .change c) : s.Goes (s'.perform actions)
  | record {s' : Server} (before : s.Goes s') (events : List Journal.Event) :
      s.Goes (s'.record events)
  | connect {s' : Server} (before : s.Goes s') : s.Goes s'.connect
  | receive {s' : Server} (before : s.Goes s') (i : Nat) (data : Bytes) : s.Goes (s'.receive i data)
  | hangUp {s' : Server} (before : s.Goes s') (i : Nat) : s.Goes (s'.hangUp i)

/-- The servers have the same path and the same files. -/
def SamePlace (s s' : Server) : Prop :=
  s'.path = s.path ∧ s'.dispatcher.files = s.dispatcher.files

section

variable {s s' s'' : Server} {actions : List Action}

theorem SamePlace.trans (h : s.SamePlace s') (h' : s'.SamePlace s'') : s.SamePlace s'' :=
  ⟨h'.1.trans h.1, h'.2.trans h.2⟩

theorem samePlace_perform (quiet : ∀ a ∈ actions, ∀ c, a ≠ .change c) (s : Server) :
    s.SamePlace (s.perform actions) :=
  ⟨rfl, s.dispatcher.files_run quiet⟩

theorem samePlace_handle (client : Nat) (s : Server) (lines : List Bytes) :
    s.SamePlace (lines.foldl (handle client) s) := by
  induction lines generalizing s with
  | nil => exact ⟨rfl, rfl⟩
  | cons line lines ih =>
    have hline : s.SamePlace (s.handle client line) := samePlace_perform (by simp) s
    exact hline.trans (ih (s.handle client line))

theorem samePlace_receive (s : Server) (i : Nat) (data : Bytes) :
    s.SamePlace (s.receive i data) := by
  unfold receive
  split
  · exact ⟨rfl, rfl⟩
  · next c _ =>
    simp only
    split <;> exact samePlace_handle c.client s _

theorem samePlace_hangUp (s : Server) (i : Nat) : s.SamePlace (s.hangUp i) := by
  unfold hangUp
  split
  · exact ⟨rfl, rfl⟩
  · next c _ =>
    simp only
    split <;> exact samePlace_handle c.client s _

theorem Goes.samePlace (h : s.Goes s') : s.SamePlace s' := by
  induction h with
  | stay => exact ⟨rfl, rfl⟩
  | perform _ quiet ih => exact ih.trans (samePlace_perform quiet _)
  | record _ _ ih => exact ih
  | @connect s' _ ih =>
    have hconnect : s'.SamePlace (s'.perform [.connect .stream]) := samePlace_perform (by simp) s'
    exact ih.trans hconnect
  | receive _ i data ih => exact ih.trans (samePlace_receive _ i data)
  | hangUp _ i ih => exact ih.trans (samePlace_hangUp _ i)

theorem files_listen (s : Server) :
    s.listen.1.path = s.path ∧
      s.listen.1.dispatcher.files = (s.dispatcher.files.listen s.path).1 ∧
      (s.listen.2 = none ↔ (s.dispatcher.files.listen s.path).2 = none) := by
  unfold listen
  rcases s.dispatcher.files.listen s.path with ⟨files, _ | fault⟩
  · exact ⟨rfl, rfl, by simp⟩
  · exact ⟨rfl, rfl, by simp⟩

theorem files_close (s : Server) :
    s.close.dispatcher.files = s.dispatcher.files.discard s.path := by
  unfold close
  simp only
  split <;> rfl

end

/--
What listening, whether it fails or not, leaves of the files: all but what makes way is kept, and
nothing but directories above the path and a socket at it is added. When the server is closed after
it has served, that socket is gone and nothing else. A file or a link is lost exactly if one makes
way.
-/
theorem listen_exact (s : Server) :
    let before := s.dispatcher.files
    let after := s.listen.1.dispatcher.files
    let bound := s.listen.2 = none
    before.Listened s.path bound after ∧
    (bound → after.isOccupied s.path = !s.path.isAbstract ∧
      ∀ s', s.listen.1.Goes s' → after.Closed s.path s'.close.dispatcher.files) ∧
    (before.Preserves after ∧
        (bound → ∀ s', s.listen.1.Goes s' → before.Preserves s'.close.dispatcher.files) ↔
      ∀ l, before.MakesWay s.path l → before.get? l = some .socket) := by
  intro before after bound
  obtain ⟨hpath, hfiles, hbound⟩ := s.files_listen
  have listened : before.Listened s.path bound after := by
    have h := before.listened_listen s.path
    rwa [← hfiles, ← hbound] at h
  have closed (hb : bound) (s' : Server) (hgoes : s.listen.1.Goes s') :
      after.Closed s.path s'.close.dispatcher.files := by
    obtain ⟨hpath', hfiles'⟩ := hgoes.samePlace
    rw [files_close, hfiles', hpath', hpath]
    exact listened.closed_discard hb
  refine ⟨listened, fun hb => ⟨listened.isOccupied hb, closed hb⟩,
    fun h => listened.preserves_iff.mp h.1, fun h => ?_⟩
  have keeps := listened.preserves_iff.mpr h
  exact ⟨keeps, fun hb s' hgoes => keeps.of_closed listened hb (closed hb s' hgoes)⟩

def socketPlace : Location := [ascii "s.sock"]

def dataFile : FileNode := .file (ascii "data") ⟨1, 0⟩

def beside (n : FileNode) (path : Bytes) : Server where
  path := ⟨path⟩
  dispatcher :=
    { files := { entries := [(socketPlace, n), ([ascii "hosts"], dataFile)] }
      tracker := { path := ⟨ascii "hosts"⟩ } }

def longPath : Bytes := (List.replicate 60 (ascii "./")).flatten ++ ascii "s.sock"

/-- A data file gives way to a socket, or to nothing. -/
theorem listen_over_file :
    let s := beside dataFile (ascii "s.sock")
    let long := beside dataFile longPath
    s.dispatcher.files.get? socketPlace = some dataFile ∧
      s.listen.2 = none ∧ s.listen.1.dispatcher.files.get? socketPlace = some .socket ∧
      s.listen.1.close.dispatcher.files.get? socketPlace = none ∧
      long.dispatcher.files.get? socketPlace = some dataFile ∧
      long.listen.2 = some (.io .longSocketPath) ∧
      long.listen.1.dispatcher.files.get? socketPlace = none := by
  refine ⟨?_, ?_, ?_, ?_, ?_, ?_, ?_⟩ <;> decide +kernel

/-- Where a socket makes way the data file beside it stays, though the server is closed. -/
theorem listen_over_socket :
    let s := beside .socket (ascii "s.sock")
    let served := s.listen.1.connect.receive 0 (ascii "1 getaddrinfo a ^ -1 -1 -1 -1\n")
    s.listen.2 = none ∧ s.dispatcher.files.Preserves s.listen.1.dispatcher.files ∧
      s.dispatcher.files.Preserves served.close.dispatcher.files ∧
      served.close.dispatcher.files.get? [ascii "hosts"] = some dataFile ∧
      s.listen.1.dispatcher.files.isOccupied s.path = true ∧
      served.close.dispatcher.files.isOccupied s.path = false ∧
      served.close.dispatcher.files.get? socketPlace = none := by
  intro s served
  have bound : s.listen.2 = none := by decide +kernel
  have goes : s.listen.1.Goes served := .receive (.connect .stay) 0 _
  have spot : s.dispatcher.files.spot s.path = .ok socketPlace := by decide +kernel
  have stale : s.dispatcher.files.get? socketPlace = some .socket := by decide +kernel
  have after : s.listen.1.dispatcher.files.spot s.path = .ok socketPlace := by decide +kernel
  obtain ⟨-, closed, keeps⟩ := listen_exact s
  obtain ⟨hlisten, hclose⟩ := keeps.mpr fun l hway => by
    rw [Except.ok.inj (hway.spot.symm.trans spot), stale]
  obtain ⟨hoccupied, hclosed⟩ := closed bound
  have hserved := hclosed served goes
  refine ⟨bound, hlisten, hclose bound served goes, ?_, hoccupied, hserved.vacant,
    hserved.gone _ after⟩
  exact hclose bound served goes _ _ (by decide +kernel) FileNode.noConfusion

end Server

end HostLookup
