import Switchboard.Proofs.Link.Binding

/-!
# Proofs/Link/Ownership — a listener removes its own file only

    bind "a" ──▸ others put a file at "a" ──▸ bind "b" ──▸ drop 0 ──▸ …

A program binds listeners and drops them on a file system that it shares.  Between any two of its
acts the others may create, replace, move and remove whatever they like (`SocketTable.Act.others`).
Beside the files it is written down which listener made what a place holds
(`SocketTable.makers`); that is read off the files alone, no step looks at it, and it goes where the
file goes.  As long as nobody's
new file gets the number of a socket that is still held, the number of a socket tells its maker
(`SocketTable.sound_run`), and so a listener never takes what another made
(`SocketTable.harmless_run`).
-/

namespace Switchboard

/-- The listeners of a program and the file system that it shares with others. -/
structure SocketTable where
  /-- The files. -/
  files : FileSystem
  /-- The listeners as they were bound, and nothing for one that was dropped. -/
  listeners : List (Option SocketListener)
  /-- The listener that made what a place holds. -/
  makers : Path → Option Nat

namespace SocketTable

/-- What happens to the files. -/
inductive Act where
  /-- A listener is bound to a path. -/
  | bind (path : String)
  /-- A listener is dropped. -/
  | drop (i : Nat)
  /-- Others leave the files like this.  What a place now holds has been at the place it came from,
  or it is new. -/
  | others (after : FileSystem) (origin : Path → Option Path)

/-- Is it the program itself that acts? -/
def Act.IsOwn : Act → Prop
  | .bind _ | .drop _ => True
  | .others .. => False

variable {t : SocketTable} {files : FileSystem} {path : String} {p q : Path} {i j : Nat}
  {l : SocketListener} {act : Act} {acts : List Act}

/-- Is listener `i` open, and which is it? -/
def IsOpen (t : SocketTable) (i : Nat) (l : SocketListener) : Prop :=
  t.listeners[i]? = some (some l)

/-- A program without listeners. -/
def start (files : FileSystem) : SocketTable := ⟨files, [], fun _ => none⟩

/-- The place that a path names, if that holds a socket. -/
def socketPlace? (files : FileSystem) (path : String) : Option Path :=
  (files.placeOf path).toOption.filter fun p =>
    match files.node? p with
    | some (.socket _) => true
    | _ => false

/-- **One act.**  A bind that succeeds has made the socket that its path then holds; who made what
is read off the files, never asked of a listener. -/
def perform (t : SocketTable) : Act → SocketTable
  | .bind path =>
    match t.files.bind path with
    | (.error _, files) => { t with files := files }
    | (.ok l, files) =>
      { files := files
        listeners := t.listeners ++ [some l]
        makers := fun q =>
          if socketPlace? files path = some q then some t.listeners.length else t.makers q }
  | .drop i =>
    match t.listeners[i]? with
    | some (some l) =>
      { files := t.files.close l
        listeners := t.listeners.set i none
        makers := fun q => if (t.files.close l).node? q = none then none else t.makers q }
    | _ => t
  | .others after origin => { t with files := after, makers := fun p => (origin p).bind t.makers }

/-- All acts, one after the other. -/
def run (t : SocketTable) (acts : List Act) : SocketTable := acts.foldl perform t

/-- **Numbers are not used again while a listener holds them.**  The socket that a bind makes has a
number that no listener holds and no other file has; what others move keeps what it is, and what
they make has a number of its own. -/
def Fair (t : SocketTable) : Act → Prop
  | .bind path =>
    (∀ i l, t.IsOpen i l → l.hasFile → l.serial ≠ t.files.fresh) ∧
      ∀ q, t.files.node? q = some (.socket t.files.fresh) → t.files.placeOf path = .ok q
  | .drop _ => True
  | .others after origin =>
    (∀ p q, origin p = some q → after.node? p = t.files.node? q) ∧
      ∀ p, origin p = none → ∀ i l, t.IsOpen i l → l.hasFile →
        after.node? p ≠ some (.socket l.serial)

/-- All acts are fair where they happen. -/
def Fairly (t : SocketTable) : List Act → Prop
  | [] => True
  | act :: acts => t.Fair act ∧ (t.perform act).Fairly acts

/-! ## Acts -/

/-- After a bind that made a socket file the path names its place. -/
theorem socketPlace?_occupied (h : files.Admits path p) :
    socketPlace? (files.occupied p) path = some p := by
  have hsocket : (files.occupied p).node? p = some (.socket files.fresh) :=
    (FileSystem.node?_occupied h.free.ne_nil p).trans (if_pos rfl)
  rw [socketPlace?, h.occupied.place]
  exact Option.filter_eq_some_iff.mpr ⟨rfl, by rw [hsocket]⟩

/-- A name of a socket without a file names no place. -/
theorem socketPlace?_of_name (h : path = "" ∨ FileSystem.isName path) :
    socketPlace? files path = none := by
  rw [socketPlace?]
  cases hplace : files.placeOf path with
  | error e => rfl
  | ok p => exact absurd hplace (FileSystem.locate_of_name h)

/-- The table with a new listener whose socket file is at a place. -/
def housed (t : SocketTable) (path : String) (p : Path) : SocketTable where
  files := t.files.occupied p
  listeners := t.listeners ++ [some ⟨path, t.files.fresh, true⟩]
  makers q := if q = p then some t.listeners.length else t.makers q

/-- The table with a new listener that has no socket file. -/
def unhoused (t : SocketTable) (path : String) : SocketTable where
  files := t.files.joined path
  listeners := t.listeners ++ [some ⟨path, t.files.fresh, false⟩]
  makers := t.makers

/-- The table without a listener that is dropped. -/
def dropped (t : SocketTable) (i : Nat) (l : SocketListener) : SocketTable where
  files := t.files.close l
  listeners := t.listeners.set i none
  makers q := if (t.files.close l).node? q = none then none else t.makers q

/-- **What comes of a bind**: a socket with a file, one without, or nothing. -/
theorem bind_cases (t : SocketTable) (path : String) :
    (∃ p, t.files.Admits path p ∧
      t.files.bind path = (.ok ⟨path, t.files.fresh, true⟩, t.files.occupied p) ∧
        t.perform (.bind path) = t.housed path p) ∨
      (t.files.AdmitsUnfiled path ∧
        t.files.bind path = (.ok ⟨path, t.files.fresh, false⟩, t.files.joined path) ∧
          t.perform (.bind path) = t.unhoused path) ∨
      ((∀ p, ¬t.files.Admits path p) ∧ ¬t.files.AdmitsUnfiled path) ∧
        (∃ e, t.files.bind path = (.error e, t.files)) ∧ t.perform (.bind path) = t := by
  have hbinds := t.files.binds path
  rw [perform]
  generalize t.files.bind path = answer at hbinds ⊢
  cases hbinds with
  | filed h =>
    refine .inl ⟨_, h, rfl, ?_⟩
    simp only [housed, socketPlace?_occupied h, Option.some.injEq, eq_comm]
  | unfiled h =>
    refine .inr (.inl ⟨h, rfl, ?_⟩)
    simp only [unhoused, socketPlace?_of_name (h.name.imp_right And.left), reduceCtorEq, if_false]
  | refused e h h' => exact .inr (.inr ⟨⟨h, h'⟩, ⟨e, rfl⟩, rfl⟩)

/-- **A bind that is admitted makes a socket file**, and it is the listener's. -/
theorem perform_bind_of_admits (h : t.files.Admits path p) :
    t.perform (.bind path) = t.housed path p := by
  obtain ⟨q, hq, -, hbind⟩ | ⟨hq, -, -⟩ | ⟨⟨hq, -⟩, -, -⟩ := t.bind_cases path
  · exact hq.place_unique h.place ▸ hbind
  · exact absurd h.place hq.placeOf_ne
  · exact absurd h (hq p)

/-- A drop closes the listener and clears away what is its own. -/
theorem perform_drop_of_isOpen (h : t.IsOpen i l) : t.perform (.drop i) = t.dropped i l := by
  rw [perform, h]
  rfl

/-- **What comes of a drop**: the listener closes, or there is none that is open. -/
theorem drop_cases (t : SocketTable) (i : Nat) :
    (∃ l, t.IsOpen i l ∧ t.perform (.drop i) = t.dropped i l) ∨ t.perform (.drop i) = t := by
  by_cases h : ∃ l, t.IsOpen i l
  · obtain ⟨l, h⟩ := h
    exact .inl ⟨l, h, perform_drop_of_isOpen h⟩
  · refine .inr ?_
    rw [perform]
    split
    · exact absurd ⟨_, ‹_›⟩ h
    · rfl

theorem IsOpen.lt (h : t.IsOpen i l) : i < t.listeners.length := (List.getElem?_eq_some_iff.mp h).1

/-- One that is open after a bind was open before or is the new one. -/
theorem isOpen_append {x : SocketListener} {listeners : List (Option SocketListener)}
    (h : (listeners ++ [some x])[i]? = some (some l)) :
    listeners[i]? = some (some l) ∨ i = listeners.length ∧ l = x := by
  grind

/-- One that is open after a drop is another, and was open before. -/
theorem isOpen_dropped {m : SocketListener} (h : (t.dropped i l).IsOpen j m) :
    j ≠ i ∧ t.IsOpen j m := by
  change (t.listeners.set i none)[j]? = some (some m) at h
  rw [IsOpen]
  grind

/-- What every act of the program keeps, a run without others keeps. -/
theorem run_of_own {P : SocketTable → Prop}
    (hstep : ∀ {t : SocketTable} {act : Act}, act.IsOwn → P t → P (t.perform act)) (ht : P t)
    (hown : ∀ act ∈ acts, act.IsOwn) : P (t.run acts) := by
  induction acts generalizing t with
  | nil => exact ht
  | cons act acts ih =>
    rw [List.forall_mem_cons] at hown
    exact ih (hstep hown.1 ht) hown.2

/-! ## The number of a socket tells its maker -/

/-- **The number of a socket tells its maker**: what an open listener made is what has its number.
-/
structure Sound (t : SocketTable) : Prop where
  bound : ∀ {p i}, t.makers p = some i → i < t.listeners.length
  made : ∀ {i l}, t.IsOpen i l → ∀ p,
    t.makers p = some i ↔ l.hasFile ∧ t.files.node? p = some (.socket l.serial)

/-- A program without listeners has made nothing. -/
theorem sound_start (files : FileSystem) : (start files).Sound where
  bound := nofun
  made h := nomatch h

/-- **A new socket file is its listener's and nobody else's**: the number is one that nobody
holds. -/
theorem Sound.housed (hs : t.Sound) (hfair : t.Fair (.bind path)) (h : t.files.Admits path p) :
    (t.housed path p).Sound where
  bound {q i} hi := by
    change (if q = p then some t.listeners.length else t.makers q) = some i at hi
    change i < (t.listeners ++ [_]).length
    have hold : t.makers q = some i → i < t.listeners.length := hs.bound
    rw [List.length_append, List.length_singleton]
    grind
  made {i l} hi q := by
    change (if q = p then some t.listeners.length else t.makers q) = some i ↔
      l.hasFile ∧ (t.files.occupied p).node? q = some (.socket l.serial)
    rw [FileSystem.node?_occupied h.free.ne_nil]
    rcases isOpen_append hi with hold | ⟨rfl, rfl⟩
    · have hmade := hs.made hold q
      have hserial := hfair.1 i l hold
      have hlt : i < t.listeners.length := IsOpen.lt hold
      grind
    · -- no other place has its number, and nothing else was made by a listener that is new
      have hplace : t.files.node? q = some (.socket t.files.fresh) → q = p := fun hq =>
        Except.ok.inj ((hfair.2 q hq).symm.trans h.place)
      have hbound : t.makers q ≠ some t.listeners.length := fun hq =>
        Nat.lt_irrefl _ (hs.bound hq)
      grind

/-- A listener without a file makes nothing. -/
theorem Sound.unhoused (hs : t.Sound) : (t.unhoused path).Sound where
  bound hi := Nat.lt_of_lt_of_le (hs.bound hi) (List.length_append ▸ Nat.le_add_right ..)
  made {i l} hi q := by
    change t.makers q = some i ↔ l.hasFile ∧ t.files.node? q = some (.socket l.serial)
    rcases isOpen_append hi with hold | ⟨rfl, rfl⟩
    · exact hs.made hold q
    · exact ⟨fun hq => absurd (hs.bound hq) (Nat.lt_irrefl _),
        fun h => absurd h.1 Bool.false_ne_true⟩

/-- An open listener removes a file when it is dropped just if it made it. -/
theorem Sound.sweeps_iff (hs : t.Sound) (h : t.IsOpen i l) :
    t.files.Sweeps l p ↔ t.files.placeOf l.path = .ok p ∧ t.makers p = some i := by
  rw [FileSystem.Sweeps, hs.made h]
  exact and_left_comm

/-- What a dropped listener leaves is others'. -/
theorem Sound.dropped (hs : t.Sound) : (t.dropped i l).Sound where
  bound {q j} hj := by
    change (if (t.files.close l).node? q = none then none else t.makers q) = some j at hj
    change j < (t.listeners.set i none).length
    rw [List.length_set]
    refine hs.bound (p := q) ?_
    grind
  made {j m} hj q := by
    change (if (t.files.close l).node? q = none then none else t.makers q) = some j ↔
      m.hasFile ∧ (t.files.close l).node? q = some (.socket m.serial)
    have hmade := hs.made (isOpen_dropped hj).2 q
    by_cases hq : t.files.Sweeps l q
    · rw [FileSystem.node?_close_of_sweeps hq]
      simp
    · rw [FileSystem.node?_close_of_not_sweeps hq]
      grind

/-- **What others do does not change who made a file**: it goes where the file goes. -/
theorem Sound.others {after : FileSystem} {origin : Path → Option Path} (hs : t.Sound)
    (hfair : t.Fair (.others after origin)) : (t.perform (.others after origin)).Sound where
  bound {p i} hi := by
    obtain ⟨q, -, hq⟩ := Option.bind_eq_some_iff.mp hi
    exact hs.bound hq
  made {i l} hi p := by
    change (origin p).bind t.makers = some i ↔ l.hasFile ∧ after.node? p = some (.socket l.serial)
    match horigin : origin p with
    | none => exact ⟨nofun, fun h => absurd h.2 (hfair.2 p horigin i l hi h.1)⟩
    | some q =>
      rw [hfair.1 p q horigin]
      exact hs.made hi q

/-- **A fair act leaves every number with its maker.** -/
theorem Sound.perform (hs : t.Sound) (hfair : t.Fair act) : (t.perform act).Sound := by
  match act with
  | .bind path =>
    obtain ⟨p, h, -, hbind⟩ | ⟨-, -, hbind⟩ | ⟨-, -, hbind⟩ := t.bind_cases path
    · exact hbind ▸ hs.housed hfair h
    · exact hbind ▸ hs.unhoused
    · exact hbind.symm ▸ hs
  | .drop i =>
    obtain ⟨l, -, hdrop⟩ | hdrop := t.drop_cases i
    · exact hdrop ▸ hs.dropped
    · exact hdrop.symm ▸ hs
  | .others after origin => exact hs.others hfair

/-- Numbers tell makers through all fair acts. -/
theorem Sound.run (hs : t.Sound) (hfair : t.Fairly acts) : (t.run acts).Sound := by
  induction acts generalizing t with
  | nil => exact hs
  | cons act acts ih => exact ih (hs.perform hfair.1) hfair.2

/-- Numbers tell makers in every program that has run. -/
theorem sound_run (files : FileSystem) (hfair : (start files).Fairly acts) :
    ((start files).run acts).Sound := (sound_start files).run hfair

/-! ## Runs without others

The program's own acts give out numbers one after the other. -/

/-- Numbers from the next one on are not in use. -/
structure Numbered (t : SocketTable) : Prop where
  files : ∀ p serial, t.files.node? p = some (.socket serial) → serial < t.files.fresh
  listeners : ∀ i l, t.IsOpen i l → l.serial < t.files.fresh

/-- At first the numbers of files are below the next one. -/
theorem numbered_start
    (h : ∀ p serial, files.node? p = some (.socket serial) → serial < files.fresh) :
    (start files).Numbered := ⟨h, nofun⟩

theorem numbered_empty : (start .empty).Numbered := numbered_start fun p serial h => by
  simp [FileSystem.node?, FileSystem.empty] at h

/-- A new socket takes the next number, and the one after it is next. -/
theorem Numbered.housed (hn : t.Numbered) (h : t.files.Admits path p) :
    (t.housed path p).Numbered where
  files q serial hq := by
    change (t.files.occupied p).node? q = _ at hq
    change serial < t.files.fresh + 1
    rw [FileSystem.node?_occupied h.free.ne_nil] at hq
    have hold := hn.files q serial
    grind
  listeners i l hi := by
    change l.serial < t.files.fresh + 1
    rcases isOpen_append hi with hold | ⟨-, rfl⟩
    · exact Nat.lt_succ_of_lt (hn.listeners i l hold)
    · exact Nat.lt_succ_self _

theorem Numbered.unhoused (hn : t.Numbered) : (t.unhoused path).Numbered where
  files q serial hq := Nat.lt_succ_of_lt (hn.files q serial hq)
  listeners i l hi := by
    change l.serial < t.files.fresh + 1
    rcases isOpen_append hi with hold | ⟨-, rfl⟩
    · exact Nat.lt_succ_of_lt (hn.listeners i l hold)
    · exact Nat.lt_succ_self _

theorem Numbered.dropped (hn : t.Numbered) : (t.dropped i l).Numbered where
  files q serial hq := by
    change (t.files.close l).node? q = _ at hq
    change serial < (t.files.close l).fresh
    rw [FileSystem.fresh_close]
    by_cases hp : t.files.Sweeps l q
    · rw [FileSystem.node?_close_of_sweeps hp] at hq
      cases hq
    · exact hn.files q serial ((FileSystem.node?_close_of_not_sweeps hp).symm.trans hq)
  listeners j m hj := by
    change m.serial < (t.files.close l).fresh
    rw [FileSystem.fresh_close]
    exact hn.listeners j m (isOpen_dropped hj).2

theorem Numbered.perform (hown : act.IsOwn) (hn : t.Numbered) : (t.perform act).Numbered := by
  match act, hown with
  | .bind path, _ =>
    obtain ⟨p, h, -, hbind⟩ | ⟨-, -, hbind⟩ | ⟨-, -, hbind⟩ := t.bind_cases path
    · exact hbind ▸ hn.housed h
    · exact hbind ▸ hn.unhoused
    · exact hbind.symm ▸ hn
  | .drop i, _ =>
    obtain ⟨l, -, hdrop⟩ | hdrop := t.drop_cases i
    · exact hdrop ▸ hn.dropped
    · exact hdrop.symm ▸ hn

/-- A program that is alone with its files is fair. -/
theorem Numbered.fair (hn : t.Numbered) (hown : act.IsOwn) : t.Fair act := by
  match act, hown with
  | .bind path, _ =>
    exact ⟨fun i l hi _ => Nat.ne_of_lt (hn.listeners i l hi),
      fun q hq => absurd (hn.files q _ hq) (Nat.lt_irrefl _)⟩
  | .drop i, _ => exact trivial

/-- **What the program does alone is fair.** -/
theorem Numbered.fairly (hn : t.Numbered) (hown : ∀ act ∈ acts, act.IsOwn) : t.Fairly acts := by
  induction acts generalizing t with
  | nil => exact trivial
  | cons act acts ih =>
    rw [List.forall_mem_cons] at hown
    exact ⟨hn.fair hown.1, ih (hn.perform hown.1) hown.2⟩

/-! ## What binds and drops do to files -/

/-- A bind that succeeds changes nothing but what its path holds. -/
theorem node?_bind_of_ne (h : t.files.placeOf path ≠ .ok p) :
    (t.perform (.bind path)).files.node? p = t.files.node? p := by
  obtain ⟨q, hq, -, hbind⟩ | ⟨-, -, hbind⟩ | ⟨-, -, hbind⟩ := t.bind_cases path
  · rw [hbind]
    refine (FileSystem.node?_occupied hq.free.ne_nil p).trans (if_neg ?_)
    rintro rfl
    exact h hq.place
  · rw [hbind]
    rfl
  · rw [hbind]

/-- A bind leaves what is no socket. -/
theorem node?_bind_of_not_free (h : ¬FileSystem.IsFree (t.files.node? p)) :
    (t.perform (.bind path)).files.node? p = t.files.node? p := by
  by_cases hplace : t.files.placeOf path = .ok p
  · obtain ⟨q, hq, -, -⟩ | ⟨hq, -, -⟩ | ⟨-, -, hbind⟩ := t.bind_cases path
    · exact absurd (hq.place_unique hplace ▸ hq.free) h
    · exact absurd hplace hq.placeOf_ne
    · rw [hbind]
  · exact node?_bind_of_ne hplace

/-- A drop leaves what is no socket. -/
theorem node?_drop_of_not_free (h : ¬FileSystem.IsFree (t.files.node? p)) :
    (t.perform (.drop i)).files.node? p = t.files.node? p := by
  obtain ⟨l, -, hdrop⟩ | hdrop := t.drop_cases i
  · rw [hdrop]
    exact FileSystem.node?_close_of_not_sweeps fun hp => h (.inr ⟨_, hp.2.2⟩)
  · rw [hdrop]

/-- A place that holds what is no socket is not free. -/
theorem not_isFree {n : FileNode} (hp : t.files.node? p = some n)
    (hn : ∀ serial, n ≠ .socket serial) : ¬FileSystem.IsFree (t.files.node? p) := by
  rw [hp]
  rintro (hnone | ⟨serial, hsocket⟩)
  · cases hnone
  · exact hn serial (Option.some.inj hsocket)

/-- A listener that is dropped removes the file at its path if it made that. -/
theorem Sound.node?_drop (hs : t.Sound) (h : t.IsOpen i l) (hplace : t.files.placeOf l.path = .ok p)
    (hmade : t.makers p = some i) : (t.perform (.drop i)).files.node? p = none := by
  rw [perform_drop_of_isOpen h]
  exact FileSystem.node?_close_of_sweeps ((hs.sweeps_iff h).mpr ⟨hplace, hmade⟩)

/-- A drop leaves all files but its own. -/
theorem Sound.node?_drop_of_ne (hs : t.Sound) (h : t.IsOpen i l)
    (hp : ¬(t.files.placeOf l.path = .ok p ∧ t.makers p = some i)) :
    (t.perform (.drop i)).files.node? p = t.files.node? p := by
  rw [perform_drop_of_isOpen h]
  exact FileSystem.node?_close_of_not_sweeps (mt (hs.sweeps_iff h).mp hp)

/-- **A program does no harm**, whatever it does next. -/
structure Harmless (t : SocketTable) : Prop where
  /-- What is no socket stays as it is. -/
  spares : ∀ act : Act, act.IsOwn → ∀ p n, t.files.node? p = some n →
    (∀ serial, n ≠ .socket serial) → (t.perform act).files.node? p = some n
  /-- A path that is too long is refused, and nothing changes. -/
  long : ∀ path, maxPathSize ≤ FileSystem.sizeOf path →
    t.files.bind path = (.error (.pathTooLong path (FileSystem.sizeOf path)), t.files)
  /-- A path that holds something other than a socket is refused, and nothing changes. -/
  taken : ∀ path p n, FileSystem.sizeOf path < maxPathSize → t.files.placeOf path = .ok p →
    t.files.node? p = some n → (∀ serial, n ≠ .socket serial) →
      t.files.bind path =
        (.error (.bind .unix path (if t.files.leads path then .notSocket else .addressInUse)),
          t.files)
  /-- Nothing changes whenever a bind is refused. -/
  refused : ∀ path e, (t.files.bind path).1 = .error e →
    (t.files.bind path).2 = t.files ∧ t.perform (.bind path) = t
  /-- A bind changes nothing but what its path holds. -/
  bound : ∀ path p, t.files.placeOf path ≠ .ok p →
    (t.perform (.bind path)).files.node? p = t.files.node? p
  /-- A listener that is dropped removes the file at its path if it made that. -/
  removes : ∀ i l p, t.IsOpen i l → t.files.placeOf l.path = .ok p → t.makers p = some i →
    (t.perform (.drop i)).files.node? p = none
  /-- It removes nothing else. -/
  leaves : ∀ i l p, t.IsOpen i l → ¬(t.files.placeOf l.path = .ok p ∧ t.makers p = some i) →
    (t.perform (.drop i)).files.node? p = t.files.node? p
  /-- So what a newer listener made at its path stays. -/
  newer : ∀ i j l p, t.IsOpen i l → i < j → t.makers p = some j →
    (t.perform (.drop i)).files.node? p = t.files.node? p

/-- A bind that is refused changes neither the files nor the table. -/
theorem perform_bind_of_refused {e : LinkError} (h : (t.files.bind path).1 = .error e) :
    (t.files.bind path).2 = t.files ∧ t.perform (.bind path) = t := by
  obtain ⟨p, -, hok, -⟩ | ⟨-, hok, -⟩ | ⟨-, ⟨e', he⟩, hbind⟩ := t.bind_cases path
  · rw [hok] at h
    cases h
  · rw [hok] at h
    cases h
  · exact ⟨congrArg Prod.snd he, hbind⟩

/-- **Socket files are cleaned up without harming others.**  A program binds and drops listeners on
a file system, and others do there what they like, but never give a number a second time while a
listener holds it.  Then no bind and no drop removes or alters what is not a socket, a bind that is
refused leaves the file system as it was, and a listener that is dropped removes the file at its
path just if that is the socket it made. -/
theorem harmless_run (files : FileSystem) (acts : List Act) (hfair : (start files).Fairly acts) :
    ((start files).run acts).Harmless := by
  have hs := sound_run files hfair
  generalize (start files).run acts = t at hs ⊢
  exact {
    spares := fun act hown p n hp hn => by
      have hfree := not_isFree hp hn
      match act, hown with
      | .bind path, _ => exact (node?_bind_of_not_free hfree).trans hp
      | .drop i, _ => exact (node?_drop_of_not_free hfree).trans hp
    long := fun path hlong => FileSystem.bind_of_long hlong
    taken := fun path p n hshort hplace hp hn =>
      FileSystem.bind_of_not_free hshort hplace (not_isFree hp hn)
    refused := fun path e he => perform_bind_of_refused he
    bound := fun path p hp => node?_bind_of_ne hp
    removes := fun i l p hopen hplace hmade => hs.node?_drop hopen hplace hmade
    leaves := fun i l p hopen hp => hs.node?_drop_of_ne hopen hp
    newer := fun i j l p hopen hlt hj => hs.node?_drop_of_ne hopen fun hi =>
      Nat.ne_of_lt hlt (Option.some.inj (hi.2.symm.trans hj)) }

/-- What others put down is no socket that anybody holds, if it is no socket. -/
theorem fair_put {n : FileNode} (hp : p ≠ []) (hn : ∀ serial, n ≠ .socket serial) :
    t.Fair (.others (t.files.put p n) fun q => if q = p then none else some q) := by
  refine ⟨fun q r hq => ?_, fun q hq i l _ _ => ?_⟩
  · rw [FileSystem.node?_put hp]
    grind
  · rw [FileSystem.node?_put hp]
    grind

/-- Fair acts may be cut in two anywhere. -/
theorem fairly_append {later : List Act} :
    t.Fairly (acts ++ later) ↔ t.Fairly acts ∧ (t.run acts).Fairly later := by
  induction acts generalizing t with
  | nil => exact (iff_of_eq (true_and _)).symm
  | cons act acts ih => exact (and_congr_right fun _ => ih).trans and_assoc.symm

/-- One listener takes the path of another, and others put a file beside it.  When the first is
dropped, the socket file of the second stays; when the second is, its file goes. -/
theorem harmless_run_replaced :
    let own : List Act := [.bind "a.sock", .bind "a.sock"]
    let t := (start .empty).run own
    let acts := own ++
      [.others (t.files.put ["b"] .regular) fun q => if q = ["b"] then none else some q]
    (start .empty).Fairly acts ∧ ((start .empty).run acts).Harmless ∧
      ((start .empty).run acts).makers ["a.sock"] = some 1 ∧
        (((start .empty).run acts).perform (.drop 0)).files.node? ["a.sock"] =
            some (.socket 1) ∧
          (((start .empty).run acts).perform (.drop 1)).files.node? ["a.sock"] = none := by
  intro own t acts
  have hown : ∀ act ∈ own, act.IsOwn := by simp [own, Act.IsOwn]
  have hfair : (start .empty).Fairly acts :=
    fairly_append.mpr ⟨numbered_empty.fairly hown, fair_put (by decide) nofun, trivial⟩
  have hharmless := harmless_run .empty acts hfair
  have hmade : ((start .empty).run acts).makers ["a.sock"] = some 1 := by decide
  have hopen : ((start .empty).run acts).IsOpen 0 ⟨"a.sock", 0, true⟩ := by
    rw [IsOpen]
    decide
  have hlater : ((start .empty).run acts).IsOpen 1 ⟨"a.sock", 1, true⟩ := by
    rw [IsOpen]
    decide
  refine ⟨hfair, hharmless, hmade, ?_, hharmless.removes 1 _ _ hlater rfl hmade⟩
  rw [hharmless.newer 0 1 _ _ hopen (by decide) hmade]
  decide

end SocketTable

end Switchboard
