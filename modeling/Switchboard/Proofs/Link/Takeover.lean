import Switchboard.Link.Host
import Switchboard.Proofs.Link.Ownership

/-!
# Proofs/Link/Takeover — a bind takes the path of a listener that is open

    bind "a" ──▸ listener 0 at "a" ──▸ bind "a" ──▸ listener 1 at "a", listener 0 open but nowhere

A socket file that is left over from a program that ended is to be replaced, and only such a one.
But what a bind looks at is whether the file is a socket (`SocketTable.succeeds_iff`), not whether
anybody listens on it.  So it spares a listener that is open only where it would be refused anyway,
and else the clients of that listener come to the new one (`SocketTable.spares_iff`).  An internet
address is never taken from a listener (`Host.listen_internet`).
-/

namespace Switchboard

/-! ## Internet addresses -/

namespace Host

theorem bindInternet_cases (h : Host) (network : Network) (address : String) :
    (∃ e, h.bindInternet network address = (.error e, h)) ∨
      ∃ a h', h.bindInternet network address = (.ok (.internet network a), h') ∧
        (network.kind, a) ∉ h.bound := by
  rw [bindInternet]
  match SocketAddress.parseFor network (SocketAddress.completed network address) with
  | .error f => exact .inl ⟨_, rfl⟩
  | .ok a =>
    dsimp only
    split
    · exact .inl ⟨_, rfl⟩
    · generalize (if a.port = 0 then { a with port := h.anyPort } else a) = b
      split
      · exact .inl ⟨_, rfl⟩
      · exact .inr ⟨b, _, rfl, ‹_›⟩

/-- **An internet address is bound once**: over a listener, an error comes that changes nothing. -/
theorem listen_internet (h : Host) {network : Network} (address : String)
    (hnetwork : network ≠ .unix) :
    (∃ e, h.listen network address = (.error e, h)) ∨
      ∃ a h', h.listen network address = (.ok (.internet network a), h') ∧
        (network.kind, a) ∉ h.bound := by
  cases network with
  | tcp | tcp4 | tcp6 => exact h.bindInternet_cases _ address
  | kcp | udp | udp4 | udp6 => exact .inl ⟨_, rfl⟩
  | unix => exact absurd rfl hnetwork

end Host

/-! ## Open listeners -/

namespace SocketTable

variable {t : SocketTable} {files : FileSystem} {path : String} {p : Path} {i j : Nat}
  {l m : SocketListener} {act : Act} {acts : List Act}

/-- Somebody listens on the socket of every open listener, and no two have the same. -/
structure Attended (t : SocketTable) : Prop where
  live : ∀ {i l}, t.IsOpen i l → l.serial ∈ t.files.live
  apart : ∀ {i j l m}, t.IsOpen i l → t.IsOpen j m → l.serial = m.serial → i = j

theorem attended_start (files : FileSystem) : (start files).Attended := ⟨nofun, nofun⟩

/-- A listener with a new number joins the others. -/
theorem Attended.bind {t' : SocketTable} (ht : t.Attended) (hn : t.Numbered) {x : SocketListener}
    (hlisteners : t'.listeners = t.listeners ++ [some x]) (hx : x.serial = t.files.fresh)
    (hlive : t'.files.live = t.files.fresh :: t.files.live) : t'.Attended := by
  have hopen : ∀ {i l}, t'.IsOpen i l → t.IsOpen i l ∨ i = t.listeners.length ∧ l = x :=
    fun h => isOpen_append (hlisteners ▸ h)
  refine ⟨fun {i l} hi => ?_, fun {i j l m} hi hj hserial => ?_⟩
  · rw [hlive]
    rcases hopen hi with hi | ⟨-, rfl⟩
    · exact List.mem_cons_of_mem _ (ht.live hi)
    · exact hx ▸ List.mem_cons_self
  · rcases hopen hi with hi | ⟨rfl, rfl⟩
    · rcases hopen hj with hj | ⟨-, rfl⟩
      · exact ht.apart hi hj hserial
      · exact absurd (hserial.trans hx) (Nat.ne_of_lt (hn.listeners i l hi))
    · rcases hopen hj with hj | ⟨rfl, -⟩
      · exact absurd (hserial.symm.trans hx) (Nat.ne_of_lt (hn.listeners j m hj))
      · rfl

theorem Attended.dropped (ht : t.Attended) (h : t.IsOpen i l) : (t.dropped i l).Attended where
  live {j m} hj := by
    obtain ⟨hne, hj⟩ := isOpen_dropped hj
    exact List.mem_filter.mpr
      ⟨ht.live hj, decide_eq_true fun hserial => hne (ht.apart hj h hserial)⟩
  apart hj hk hserial := ht.apart (isOpen_dropped hj).2 (isOpen_dropped hk).2 hserial

theorem Attended.perform (hown : act.IsOwn) (hn : t.Numbered) (ht : t.Attended) :
    (t.perform act).Attended := by
  match act, hown with
  | .bind path, _ =>
    obtain ⟨p, -, -, hbind⟩ | ⟨-, -, hbind⟩ | ⟨-, -, hbind⟩ := t.bind_cases path
    · exact hbind ▸ ht.bind hn rfl rfl rfl
    · exact hbind ▸ ht.bind hn rfl rfl rfl
    · exact hbind.symm ▸ ht
  | .drop i, _ =>
    obtain ⟨l, h, hdrop⟩ | hdrop := t.drop_cases i
    · exact hdrop ▸ ht.dropped h
    · exact hdrop.symm ▸ ht

/-- After any binds and drops, somebody listens on the socket of every open listener. -/
theorem numbered_attended_run (hn : t.Numbered) (ht : t.Attended) (hown : ∀ act ∈ acts, act.IsOwn) :
    (t.run acts).Numbered ∧ (t.run acts).Attended :=
  run_of_own (P := fun t => t.Numbered ∧ t.Attended)
    (fun hact h => ⟨h.1.perform hact, .perform hact h.1 h.2⟩) ⟨hn, ht⟩ hown

/-! ## Taking a path over -/

/-- Is a listener open that made what is at the place? -/
def Serves (t : SocketTable) (i : Nat) (p : Path) : Prop :=
  t.makers p = some i ∧ ∃ l, t.IsOpen i l

/-- **A bind spares open listeners**: where its path holds the socket file of one, it is an error,
and the file stays. -/
def Spares (t : SocketTable) (path : String) : Prop :=
  ∀ i p, t.Serves i p → t.files.placeOf path = .ok p →
    (∃ e, (t.files.bind path).1 = .error e) ∧ (t.perform (.bind path)).Serves i p ∧
      (t.perform (.bind path)).files.node? p = t.files.node? p

/-- **A bind looks at the type of the file only.** -/
theorem succeeds_iff (t : SocketTable) (path : String) :
    (∃ l, (t.files.bind path).1 = .ok l) ↔
      t.files.AdmitsUnfiled path ∨ ∃ p, t.files.Admits path p := by
  obtain ⟨p, h, hok, -⟩ | ⟨h, hok, -⟩ | ⟨⟨hfiled, hunfiled⟩, ⟨e, he⟩, -⟩ := t.bind_cases path
  · exact iff_of_true ⟨_, congrArg Prod.fst hok⟩ (.inr ⟨p, h⟩)
  · exact iff_of_true ⟨_, congrArg Prod.fst hok⟩ (.inl h)
  · refine iff_of_false (fun ⟨l, hl⟩ => ?_) (not_or.mpr ⟨hunfiled, not_exists.mpr hfiled⟩)
    rw [he] at hl
    cases hl

theorem IsOpen.housed (h : t.IsOpen i l) : (t.housed path p).IsOpen i l :=
  (List.getElem?_append_left h.lt).trans h

/-- A listener that is open does not serve the place where a new one is. -/
theorem not_serves_housed (hlt : i < t.listeners.length) : ¬(t.housed path p).Serves i p := by
  rintro ⟨hmade, -⟩
  exact Nat.ne_of_gt hlt (Option.some.inj ((if_pos rfl).symm.trans hmade))

/-- Open listeners are spared just where the bind is refused anyway. -/
theorem spares_iff_not_admits :
    t.Spares path ↔ ¬∃ i p, t.Serves i p ∧ t.files.Admits path p := by
  constructor
  · rintro hspares ⟨i, p, hserves, h⟩
    obtain ⟨⟨e, he⟩, -⟩ := hspares i p hserves h.place
    obtain ⟨l, hl⟩ := (t.succeeds_iff path).mpr (.inr ⟨p, h⟩)
    cases he.symm.trans hl
  · rintro hnone i p hserves hplace
    obtain ⟨q, h, -, -⟩ | ⟨h, -, -⟩ | ⟨-, ⟨e, he⟩, hbind⟩ := t.bind_cases path
    · exact absurd ⟨i, p, hserves, h.place_unique hplace ▸ h⟩ hnone
    · exact absurd hplace h.placeOf_ne
    · exact ⟨⟨e, congrArg Prod.fst he⟩, hbind.symm ▸ hserves, hbind.symm ▸ rfl⟩

/-- **A listener loses its path to a bind.**  It stays open, but the socket there is the new one,
and that is where clients come. -/
structure Loses (t : SocketTable) (path : String) (i : Nat) (l : SocketListener) (p : Path) :
    Prop where
  held : t.files.node? p = some (.socket l.serial)
  before : t.files.connect path = .ok l.serial
  stays : (t.perform (.bind path)).IsOpen i l
  gone : ¬(t.perform (.bind path)).Serves i p
  joins : (t.perform (.bind path)).IsOpen t.listeners.length ⟨path, t.files.fresh, true⟩
  serves : (t.perform (.bind path)).Serves t.listeners.length p
  after : (t.perform (.bind path)).files.connect path = .ok t.files.fresh
  other : l.serial ≠ t.files.fresh

theorem loses_of_admits (hs : t.Sound) (hn : t.Numbered) (ht : t.Attended) (hopen : t.IsOpen i l)
    (hmade : t.makers p = some i) (h : t.files.Admits path p) : t.Loses path i l p := by
  have hheld : t.files.node? p = some (.socket l.serial) := ((hs.made hopen p).mp hmade).2
  have hbind := perform_bind_of_admits h
  have hjoins : (t.housed path p).IsOpen t.listeners.length ⟨path, t.files.fresh, true⟩ :=
    List.getElem?_concat_length
  have hplaced : (t.files.occupied p).node? p = some (.socket t.files.fresh) :=
    (FileSystem.node?_occupied h.free.ne_nil p).trans (if_pos rfl)
  exact {
    held := hheld
    before := FileSystem.connect_of_admits h hheld (ht.live hopen)
    stays := hbind ▸ hopen.housed
    gone := hbind ▸ not_serves_housed hopen.lt
    joins := hbind ▸ hjoins
    serves := hbind ▸ ⟨if_pos rfl, _, hjoins⟩
    after := hbind ▸ FileSystem.connect_of_admits h.occupied hplaced List.mem_cons_self
    other := Nat.ne_of_lt (hn.listeners i l hopen) }

/-- **What a bind takes over.**  After any binds and drops, a bind to a path spares the listeners
that are open just if none of them has its socket file where the path admits a bind.  Where one has,
it loses the path to the new listener.  No internet address is taken over. -/
theorem spares_iff (files : FileSystem) (acts : List Act) (path : String)
    (hfiles : ∀ p serial, files.node? p = some (.socket serial) → serial < files.fresh)
    (hown : ∀ act ∈ acts, act.IsOwn) :
    let t := (start files).run acts
    (t.Spares path ↔ ¬∃ i p, t.Serves i p ∧ t.files.Admits path p) ∧
      (∀ i l p, t.IsOpen i l → t.makers p = some i → t.files.Admits path p → t.Loses path i l p) ∧
      ∀ (h : Host) (network : Network) (address : String), network ≠ .unix →
        (∃ e, h.listen network address = (.error e, h)) ∨
          ∃ a h', h.listen network address = (.ok (.internet network a), h') ∧
            (network.kind, a) ∉ h.bound := by
  intro t
  have hn : (start files).Numbered := numbered_start hfiles
  have hs : t.Sound := sound_run files (hn.fairly hown)
  obtain ⟨hnumbered, ht⟩ := numbered_attended_run hn (attended_start files) hown
  exact ⟨spares_iff_not_admits, fun i l p hopen hmade h =>
    loses_of_admits hs hnumbered ht hopen hmade h, fun h network address hnetwork =>
      h.listen_internet address hnetwork⟩

/-- A path that holds the socket file of a listener admits a bind. -/
theorem admits_bound :
    ((start .empty).run [.bind "a.sock"]).files.Admits "a.sock" ["a.sock"] where
  short := by decide
  place := rfl
  free := .inr ⟨0, rfl⟩
  file := rfl

/-- Where one listener is open, it loses its path, and a bind to another path spares it. -/
theorem spares_iff_bound :
    let t := (start .empty).run [.bind "a.sock"]
    (∀ p serial, FileSystem.empty.node? p = some (.socket serial) →
      serial < FileSystem.empty.fresh) ∧
      (∀ act ∈ [Act.bind "a.sock"], act.IsOwn) ∧ t.Spares "b.sock" ∧
        t.Loses "a.sock" 0 ⟨"a.sock", 0, true⟩ ["a.sock"] := by
  intro t
  have hfiles := numbered_empty.files
  have hown : ∀ act ∈ [Act.bind "a.sock"], act.IsOwn := by simp [Act.IsOwn]
  obtain ⟨-, hloses, -⟩ := spares_iff .empty [.bind "a.sock"] "a.sock" hfiles hown
  obtain ⟨hspares, -⟩ := spares_iff .empty [.bind "a.sock"] "b.sock" hfiles hown
  refine ⟨hfiles, hown, hspares.mpr ?_, hloses 0 _ _ rfl rfl admits_bound⟩
  rintro ⟨i, p, ⟨hmade, -⟩, h⟩
  have hplace : t.files.placeOf "b.sock" = .ok ["b.sock"] := rfl
  obtain rfl : p = ["b.sock"] := h.place_unique hplace
  cases hmade

/-- A path is taken from the listener that is open there. -/
theorem not_spares_bound : ¬((start .empty).run [.bind "a.sock"]).Spares "a.sock" := by
  intro hspares
  exact spares_iff_not_admits.mp hspares ⟨0, ["a.sock"], ⟨rfl, _, rfl⟩, admits_bound⟩

end SocketTable

end Switchboard
