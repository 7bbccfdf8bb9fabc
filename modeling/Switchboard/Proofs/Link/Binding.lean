import Switchboard.Link.SocketFile

/-!
# Proofs/Link/Binding — what binding and closing do to the file system

A way goes through directories and links only, so what becomes of a socket file changes no way
(`FileSystem.resolve_of_sameWays`).  Hence a path names the same place before and after the socket
file there is removed, and a bind makes a socket or changes nothing at all (`FileSystem.binds`).
Closing a listener removes at most one file (`FileSystem.node?_close_of_not_sweeps`).
-/

namespace Switchboard.FileSystem

variable {fs fs' : FileSystem} {p r dir : Path} {path : String} {parts : List String}
  {follow follow' : Bool} {l : SocketListener}

/-! ## Places -/

/-- Without the nodes at one place, the others are found as before. -/
theorem lookup_filter_ne (p q : Path) (nodes : List (Path × FileNode)) :
    (nodes.filter fun e => e.1 ≠ p).lookup q = if q = p then none else nodes.lookup q := by
  induction nodes with
  | nil => simp
  | cons e nodes ih =>
    obtain ⟨r, n⟩ := e
    by_cases hr : r = p
    · rw [List.filter_cons_of_neg (by simp [hr]), ih]
      split
      · rfl
      · rename_i hq
        rw [List.lookup_cons, beq_eq_false_iff_ne.mpr (hr ▸ hq)]
    · rw [List.filter_cons_of_pos (by simp [hr]), List.lookup_cons, List.lookup_cons, ih]
      grind

/-- What is put is found at its place, and all else as before. -/
theorem node?_put (hp : p ≠ []) (n : FileNode) (q : Path) :
    (fs.put p n).node? q = if q = p then some n else fs.node? q := by
  simp only [node?, put, List.lookup_cons, lookup_filter_ne]
  grind

/-- What is removed is found no more, and all else as before. -/
theorem node?_remove (hp : p ≠ []) (q : Path) :
    (fs.remove p).node? q = if q = p then none else fs.node? q := by
  simp only [node?, remove, lookup_filter_ne]
  grind

/-! ## Ways -/

/-- Does no way lead on from here?  Then it is neither a directory nor a link. -/
def IsEnd (n : Option FileNode) : Prop :=
  n ≠ some .directory ∧ ∀ target, n ≠ some (.link target)

/-- The two differ only in places from which no way leads on. -/
def SameWays (fs fs' : FileSystem) : Prop :=
  ∀ q, fs'.node? q = fs.node? q ∨ IsEnd (fs.node? q) ∧ IsEnd (fs'.node? q)

/-- Links at the end are treated alike, or followed where none is. -/
def SameEnd (fs : FileSystem) (r : Path) (follow follow' : Bool) : Prop :=
  follow' = follow ∨ follow' = true ∧ ∀ target, fs.node? r ≠ some (.link target)

/-- **At an end the way is over**: it leads on only if nothing is left of the path. -/
theorem walk_cons_of_isEnd {next : Path → List String → Except IoFault Path} {part : String}
    (hpoint : part ≠ ".") (hpoints : part ≠ "..") (h : IsEnd (fs.node? (dir ++ [part]))) :
    fs.walk follow next dir (part :: parts) = .ok r ↔ parts = [] ∧ dir ++ [part] = r := by
  rw [walk, if_neg hpoint, if_neg hpoints]
  dsimp only
  split
  · exact absurd ‹_› h.1
  · exact absurd ‹_› (h.2 _)
  all_goals split <;> simp [*]

/-- **A walk takes the same way through both**: it meets the places where they differ at its end
or never. -/
theorem walk_of_sameWays (h : SameWays fs fs') (hend : SameEnd fs r follow follow')
    {next next' : Path → List String → Except IoFault Path}
    (hnext : ∀ dir parts, next dir parts = .ok r → next' dir parts = .ok r) :
    ∀ {parts dir}, fs.walk follow next dir parts = .ok r →
      fs'.walk follow' next' dir parts = .ok r := by
  intro parts
  induction parts with
  | nil => exact fun hr => hr
  | cons part rest ih =>
    intro dir hr
    by_cases hpoint : part = "."
    · rw [walk, if_pos hpoint] at hr ⊢
      exact ih hr
    by_cases hpoints : part = ".."
    · rw [walk, if_neg hpoint, if_pos hpoints] at hr ⊢
      exact ih hr
    rcases h (dir ++ [part]) with hsame | ⟨hends, hends'⟩
    · rw [walk, if_neg hpoint, if_neg hpoints] at hr ⊢
      dsimp only at hr ⊢
      rw [hsame]
      match hnode : fs.node? (dir ++ [part]), hr with
      | none, hr => exact hr
      | some .regular, hr => exact hr
      | some (.socket _), hr => exact hr
      | some .directory, hr => exact ih hr
      | some (.link target), hr =>
        dsimp only at hr ⊢
        -- a link is where the way ends, or both follow it
        by_cases hlast : rest = [] ∧ (!follow) = true
        · rw [if_pos hlast] at hr
          rcases hend with rfl | ⟨-, hlink⟩
          · rwa [if_pos hlast]
          · exact absurd (Except.ok.inj hr ▸ hnode) (hlink target)
        · rw [if_neg hlast] at hr
          rw [if_neg fun hlast' => hlast ⟨hlast'.1, hend.elim (· ▸ hlast'.2) (by simp_all)⟩]
          exact hnext _ _ hr
    · rw [walk_cons_of_isEnd hpoint hpoints hends] at hr
      exact (walk_cons_of_isEnd hpoint hpoints hends').mpr hr

/-- **What becomes of places where all ways end changes no way.** -/
theorem resolve_of_sameWays (h : SameWays fs fs') (hend : SameEnd fs r follow follow') :
    ∀ {links dir parts}, fs.resolve follow links dir parts = .ok r →
      fs'.resolve follow' links dir parts = .ok r := by
  intro links
  induction links with
  | zero => exact nofun
  | succ links ih => exact walk_of_sameWays h hend fun _ _ => ih

/-- A path that leads somewhere is no name of a socket without a file. -/
theorem locate_eq_ok_iff :
    fs.locate follow path = .ok p ↔
      (nul ∉ path.toList ∧ path ≠ "") ∧
        fs.resolve follow (maxLinks + 1) [] (partsOf path) = .ok p := by
  rw [locate]
  grind

/-- So a path leads to the same place in both. -/
theorem placeOf_of_sameWays (h : SameWays fs fs') (hplace : fs.placeOf path = .ok p) :
    fs'.placeOf path = .ok p :=
  locate_eq_ok_iff.mpr <| (locate_eq_ok_iff.mp hplace).imp_right <|
    resolve_of_sameWays h (.inl rfl)

/-- A place that holds no link is where its path leads. -/
theorem targetOf_of_sameWays (h : SameWays fs fs') (hplace : fs.placeOf path = .ok p)
    (hp : ∀ target, fs.node? p ≠ some (.link target)) : fs'.targetOf path = .ok p :=
  locate_eq_ok_iff.mpr <| (locate_eq_ok_iff.mp hplace).imp_right <|
    resolve_of_sameWays h (.inr ⟨rfl, hp⟩)

theorem SameWays.refl (fs : FileSystem) : SameWays fs fs := fun _ => .inl rfl

/-! ## Socket files -/

/-- A socket file or nothing: what a listener may put its own in place of. -/
def IsFree (n : Option FileNode) : Prop := n = none ∨ ∃ serial, n = some (.socket serial)

/-- No way leads on from a socket file, nor from nothing. -/
theorem IsFree.isEnd {n : Option FileNode} (h : IsFree n) : IsEnd n := by
  rcases h with rfl | ⟨serial, rfl⟩
  · exact ⟨nofun, nofun⟩
  · exact ⟨nofun, nofun⟩

/-- The root is a directory, and not free. -/
theorem IsFree.ne_nil (h : IsFree (fs.node? p)) : p ≠ [] := by
  rintro rfl
  exact absurd rfl h.isEnd.1

/-- Where one free place differs, the ways are the same. -/
theorem sameWays_of_isFree (h : IsFree (fs.node? p)) (h' : IsFree (fs'.node? p))
    (helse : ∀ q, q ≠ p → fs'.node? q = fs.node? q) : SameWays fs fs' := fun q => by
  by_cases hq : q = p
  · exact .inr ⟨hq ▸ h.isEnd, hq ▸ h'.isEnd⟩
  · exact .inl (helse q hq)

/-- The file system with a socket file of a new listener at a place. -/
def occupied (fs : FileSystem) (p : Path) : FileSystem :=
  { fs.put p (.socket fs.fresh) with fresh := fs.fresh + 1, live := fs.fresh :: fs.live }

/-- A new listener's socket file is at its place, and at no other. -/
theorem node?_occupied (hp : p ≠ []) (q : Path) :
    (fs.occupied p).node? q = if q = p then some (.socket fs.fresh) else fs.node? q :=
  node?_put hp (.socket fs.fresh) q

/-- It does not matter whether the place is cleared first. -/
theorem occupied_remove (fs : FileSystem) (p : Path) :
    (fs.remove p).occupied p = fs.occupied p := by
  simp [occupied, put, remove, List.filter_filter]

/-- Can a listener be bound to the path, with its socket file at the place? -/
structure Admits (fs : FileSystem) (path : String) (p : Path) : Prop where
  short : sizeOf path < maxPathSize
  place : fs.placeOf path = .ok p
  free : IsFree (fs.node? p)
  file : asksDirectory path = false

/-- Can a listener be bound to the path without a socket file? -/
structure AdmitsUnfiled (fs : FileSystem) (path : String) : Prop where
  short : sizeOf path < maxPathSize
  name : path = "" ∨ isName path ∧ fs.names.lookup path = none

/-- The file system with a socket of a new listener that has no file. -/
def joined (fs : FileSystem) (path : String) : FileSystem :=
  { fs.makeUnnamed.2 with names := if path = "" then fs.names else (path, fs.fresh) :: fs.names }

/-- **What comes of a bind.** -/
inductive Binds (fs : FileSystem) (path : String) :
    Except LinkError SocketListener × FileSystem → Prop where
  /-- A socket file is made, over another or over nothing. -/
  | filed {p : Path} (h : fs.Admits path p) :
      Binds fs path (.ok ⟨path, fs.fresh, true⟩, fs.occupied p)
  /-- A socket without a file is made. -/
  | unfiled (h : fs.AdmitsUnfiled path) :
      Binds fs path (.ok ⟨path, fs.fresh, false⟩, fs.joined path)
  /-- It is refused, and nothing changes. -/
  | refused (e : LinkError) (h : ∀ p, ¬fs.Admits path p) (h' : ¬fs.AdmitsUnfiled path) :
      Binds fs path (.error e, fs)

/-! ## Making sockets -/

/-- A name without a file begins with the octet 0. -/
theorem not_isName_of_not_mem (h : nul ∉ path.toList) : isName path = false := by
  rw [isName, decide_eq_false_iff_not]
  exact fun hhead => h (List.mem_of_head? hhead)

/-- The empty path is no name. -/
theorem ne_empty_of_isName (h : isName path) : path ≠ "" := by
  rintro rfl
  exact absurd h (by decide)

/-- Under a name that is free a socket without a file is made. -/
theorem make_of_name (h : path = "" ∨ isName path ∧ fs.names.lookup path = none) :
    fs.make path = (.ok ⟨path, fs.fresh, false⟩, fs.joined path) := by
  rcases h with rfl | ⟨hname, hfree⟩
  · rfl
  · have hempty : path ≠ "" := ne_empty_of_isName hname
    rw [make, if_neg hempty, if_pos hname, makeNamed, hfree, if_neg (by decide), joined,
      if_neg hempty]

/-- A name that is taken is refused. -/
theorem make_of_taken (hname : isName path) (h : fs.names.lookup path ≠ none) :
    fs.make path = (.error .addressInUse, fs) := by
  rw [make, if_neg (ne_empty_of_isName hname), if_pos hname, makeNamed,
    if_pos (Option.isSome_iff_ne_none.mpr h)]

/-- A path that leads somewhere asks for a socket file. -/
theorem make_of_placeOf (h : fs.placeOf path = .ok p) : fs.make path = fs.makeSocket path := by
  obtain ⟨⟨hnul, hempty⟩, -⟩ := locate_eq_ok_iff.mp h
  rw [make, if_neg hempty, not_isName_of_not_mem hnul, if_neg Bool.false_ne_true]

/-- **Where nothing is, a socket file is made.** -/
theorem make_of_free (hplace : fs.placeOf path = .ok p) (hp : fs.node? p = none)
    (hfile : asksDirectory path = false) :
    fs.make path = (.ok ⟨path, fs.fresh, true⟩, fs.occupied p) := by
  rw [make_of_placeOf hplace, makeSocket, hplace]
  dsimp only
  rw [hp]
  dsimp only
  rw [hfile]
  rfl

/-- A path to a free place leads to something if a socket is there and no directory is asked for. -/
theorem leads_of_placeOf (hplace : fs.placeOf path = .ok p) (hp : IsFree (fs.node? p)) :
    fs.leads path = ((fs.node? p).isSome && !asksDirectory path) := by
  rw [leads, targetOf_of_sameWays (.refl fs) hplace hp.isEnd.2]
  rcases hp with hnone | ⟨serial, hsocket⟩
  · dsimp only
    rw [hnone]
    rfl
  · dsimp only
    rw [hsocket]
    rfl

/-- **A socket file is replaced, and where nothing is one is made.** -/
theorem makeOver_of_free (hplace : fs.placeOf path = .ok p) (hfree : IsFree (fs.node? p))
    (hfile : asksDirectory path = false) :
    fs.makeOver path = (.ok ⟨path, fs.fresh, true⟩, fs.occupied p) := by
  rw [makeOver, leads_of_placeOf hplace hfree, hfile]
  have hremoved : (fs.remove p).node? p = none := (node?_remove hfree.ne_nil p).trans (if_pos rfl)
  have hways : SameWays fs (fs.remove p) := sameWays_of_isFree hfree (.inl hremoved) fun q hq =>
    (node?_remove hfree.ne_nil q).trans (if_neg hq)
  rcases hfree with hnone | ⟨serial, hsocket⟩
  · rw [hnone, Option.isSome_none, Bool.false_and, if_neg Bool.false_ne_true,
      make_of_free hplace hnone hfile]
  · rw [hsocket, Option.isSome_some, Bool.true_and, Bool.not_false, if_pos rfl, hplace]
    dsimp only
    rw [hsocket]
    dsimp only
    rw [make_of_free (placeOf_of_sameWays hways hplace) hremoved hfile, occupied_remove]
    rfl

/-- Over anything else no socket file is made. -/
theorem makeOver_of_not_free (hplace : fs.placeOf path = .ok p) (hp : ¬IsFree (fs.node? p)) :
    fs.makeOver path =
      (.error (if fs.leads path then .notSocket else .addressInUse), fs) := by
  rw [makeOver]
  split
  · rw [hplace]
    dsimp only
    split
    · exact absurd (.inr ⟨_, ‹_›⟩) hp
    · rfl
  · rw [make_of_placeOf hplace, makeSocket, hplace]
    dsimp only
    split
    · rfl
    · exact absurd (.inl ‹_›) hp

/-- Where the path asks for a directory no socket file is made. -/
theorem makeOver_of_asksDirectory (hplace : fs.placeOf path = .ok p) (hp : IsFree (fs.node? p))
    (hfile : asksDirectory path) : ∃ f, fs.makeOver path = (.error f, fs) := by
  rw [makeOver, leads_of_placeOf hplace hp, hfile, Bool.not_true, Bool.and_false,
    if_neg Bool.false_ne_true, make_of_placeOf hplace, makeSocket, hplace]
  dsimp only
  split
  · exact ⟨_, rfl⟩
  · exact ⟨.notFound, if_pos hfile⟩

/-- A path that leads nowhere, and is no name either, is refused. -/
theorem makeOver_of_error {f : IoFault} (hplace : fs.placeOf path = .error f) (hempty : path ≠ "")
    (hname : isName path = false) : fs.makeOver path = (.error f, fs) := by
  rw [makeOver]
  split
  · rw [hplace]
  · rw [make, if_neg hempty, hname, if_neg Bool.false_ne_true, makeSocket, hplace]

/-- A name of a socket without a file leads nowhere. -/
theorem locate_of_name (h : path = "" ∨ isName path) : fs.locate follow path ≠ .ok p := by
  intro hok
  obtain ⟨⟨hnul, hempty⟩, -⟩ := locate_eq_ok_iff.mp hok
  rcases h with rfl | hname
  · exact hempty rfl
  · exact absurd (not_isName_of_not_mem hnul) (by simp [hname])

/-- What a listener can be bound to without a file is not a path of one. -/
theorem AdmitsUnfiled.placeOf_ne (h : fs.AdmitsUnfiled path) : fs.placeOf path ≠ .ok p :=
  locate_of_name (h.name.imp_right And.left)

/-- A path leads to one place. -/
theorem Admits.place_unique {q : Path} (h : fs.Admits path q) (hplace : fs.placeOf path = .ok p) :
    q = p := Except.ok.inj (h.place.symm.trans hplace)

/-- Nothing is cleared away for a listener without a file. -/
theorem makeOver_of_name (h : path = "" ∨ isName path) : fs.makeOver path = fs.make path := by
  have hleads : fs.leads path = false := by
    rw [leads]
    split
    · rfl
    · exact absurd ‹_› (locate_of_name h)
  rw [makeOver, hleads, if_neg Bool.false_ne_true]

/-! ## Binding -/

/-- A path that is too long is refused before anything is touched. -/
theorem bind_of_long (h : maxPathSize ≤ sizeOf path) :
    fs.bind path = (.error (.pathTooLong path (sizeOf path)), fs) := if_pos h

/-- Any other is bound over what may be there, and a fault is told with its path. -/
theorem bind_of_short (h : sizeOf path < maxPathSize) :
    fs.bind path = ((fs.makeOver path).1.mapError (.bind .unix path), (fs.makeOver path).2) :=
  if_neg (Nat.not_le.mpr h)

/-- **Every bind makes a socket or changes nothing**, and makes one just where the path admits it.
-/
theorem binds (fs : FileSystem) (path : String) : fs.Binds path (fs.bind path) := by
  by_cases hlong : maxPathSize ≤ sizeOf path
  · rw [bind_of_long hlong]
    exact .refused _ (fun _ h => Nat.not_lt.mpr hlong h.short) fun h => Nat.not_lt.mpr hlong h.short
  have hshort : sizeOf path < maxPathSize := Nat.lt_of_not_le hlong
  rw [bind_of_short hshort]
  by_cases hname : path = "" ∨ isName path
  · rw [makeOver_of_name hname]
    by_cases hfree : path = "" ∨ isName path ∧ fs.names.lookup path = none
    · rw [make_of_name hfree]
      exact .unfiled ⟨hshort, hfree⟩
    · rw [not_or, not_and] at hfree
      have hname : isName path := hname.resolve_left hfree.1
      rw [make_of_taken hname (hfree.2 hname)]
      exact .refused _ (fun p h => locate_of_name (.inr hname) h.place) fun h =>
        hfree.2 hname (h.name.resolve_left hfree.1).2
  have hunfiled : ¬fs.AdmitsUnfiled path := fun h => hname (h.name.imp_right And.left)
  rw [not_or, Bool.not_eq_true] at hname
  match hplace : fs.placeOf path with
  | .error f =>
    rw [makeOver_of_error hplace hname.1 hname.2]
    exact .refused _ (fun p h => nomatch hplace.symm.trans h.place) hunfiled
  | .ok p =>
    by_cases hp : IsFree (fs.node? p)
    · by_cases hfile : asksDirectory path
      · obtain ⟨f, hf⟩ := makeOver_of_asksDirectory hplace hp hfile
        rw [hf]
        exact .refused _ (fun q h => by simp [h.file] at hfile) hunfiled
      · rw [Bool.not_eq_true] at hfile
        rw [makeOver_of_free hplace hp hfile]
        exact .filed ⟨hshort, hplace, hp, hfile⟩
    · rw [makeOver_of_not_free hplace hp]
      exact .refused _ (fun q h => hp (h.place_unique hplace ▸ h.free)) hunfiled

/-- What holds something else than a socket is not bound over. -/
theorem bind_of_not_free (hshort : sizeOf path < maxPathSize) (hplace : fs.placeOf path = .ok p)
    (hp : ¬IsFree (fs.node? p)) :
    fs.bind path =
      (.error (.bind .unix path (if fs.leads path then .notSocket else .addressInUse)), fs) := by
  rw [bind_of_short hshort, makeOver_of_not_free hplace hp]
  rfl

/-- A bind that makes a socket file changes no way. -/
theorem sameWays_occupied (h : IsFree (fs.node? p)) : SameWays fs (fs.occupied p) :=
  sameWays_of_isFree h (.inr ⟨_, (node?_occupied h.ne_nil p).trans (if_pos rfl)⟩) fun q hq =>
    (node?_occupied h.ne_nil q).trans (if_neg hq)

/-- Where a listener was bound, another one can be. -/
theorem Admits.occupied (h : fs.Admits path p) : (fs.occupied p).Admits path p where
  short := h.short
  place := placeOf_of_sameWays (sameWays_occupied h.free) h.place
  free := .inr ⟨_, (node?_occupied h.free.ne_nil p).trans (if_pos rfl)⟩
  file := h.file

/-- A client comes to whoever listens on the socket that its path holds. -/
theorem connect_of_admits {serial : Nat} (h : fs.Admits path p)
    (hp : fs.node? p = some (.socket serial)) (hlive : serial ∈ fs.live) :
    fs.connect path = .ok serial := by
  obtain ⟨⟨hnul, hempty⟩, -⟩ := locate_eq_ok_iff.mp h.place
  rw [connect, if_neg hnul, if_neg (Nat.not_le.mpr h.short), if_neg hempty,
    targetOf_of_sameWays (.refl fs) h.place h.free.isEnd.2]
  dsimp only
  rw [hp]
  dsimp only
  rw [h.file, if_neg Bool.false_ne_true, if_pos hlive]

/-! ## Closing -/

/-- Does the path of a listener still hold the file it made, and at this place? -/
def Sweeps (fs : FileSystem) (l : SocketListener) (p : Path) : Prop :=
  l.hasFile ∧ fs.placeOf l.path = .ok p ∧ fs.node? p = some (.socket l.serial)

/-- A listener that is dropped removes the file it made. -/
theorem sweep_of_sweeps (h : fs.Sweeps l p) : fs.sweep l = fs.remove p := by
  rw [sweep, h.1, Bool.not_true, if_neg Bool.false_ne_true, h.2.1]
  exact if_pos h.2.2

/-- A listener that is dropped removes no file that it did not make. -/
theorem sweep_of_not_sweeps (h : ∀ p, ¬fs.Sweeps l p) : fs.sweep l = fs := by
  rw [sweep]
  split
  · rfl
  · rename_i hfile
    rw [Bool.not_eq_true, Bool.not_eq_false'] at hfile
    split
    · rfl
    · exact if_neg fun hp => h _ ⟨hfile, ‹_›, hp⟩

/-- Closing a listener removes the file it made if its path still holds it. -/
theorem node?_close_of_sweeps (h : fs.Sweeps l p) : (fs.close l).node? p = none := by
  change (fs.sweep l).node? p = none
  rw [sweep_of_sweeps h, node?_remove (IsFree.ne_nil (.inr ⟨_, h.2.2⟩)), if_pos rfl]

/-- **Closing a listener removes nothing else.** -/
theorem node?_close_of_not_sweeps (h : ¬fs.Sweeps l p) : (fs.close l).node? p = fs.node? p := by
  change (fs.sweep l).node? p = fs.node? p
  by_cases hq : ∃ q, fs.Sweeps l q
  · obtain ⟨q, hq⟩ := hq
    rw [sweep_of_sweeps hq, node?_remove (IsFree.ne_nil (.inr ⟨_, hq.2.2⟩)), if_neg]
    rintro rfl
    exact h hq
  · rw [sweep_of_not_sweeps (not_exists.mp hq)]

/-- Numbers are not given again. -/
theorem fresh_close (fs : FileSystem) (l : SocketListener) : (fs.close l).fresh = fs.fresh := by
  change (fs.sweep l).fresh = fs.fresh
  by_cases h : ∃ p, fs.Sweeps l p
  · obtain ⟨p, h⟩ := h
    rw [sweep_of_sweeps h]
    rfl
  · rw [sweep_of_not_sweeps (not_exists.mp h)]

end Switchboard.FileSystem
