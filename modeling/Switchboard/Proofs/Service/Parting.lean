import Switchboard.Proofs.Service.Traffic

/-!
# Proofs/Service/Parting — a connection that was torn down, and the pool

Reading ends, the outlet ends, and the line leaves the pool.  Its requests are served on their own
meanwhile, and a handler may take the connection online or offline at any time, also when the line
has left.

A line looks for the name of its connection when it leaves, and removes the entry it finds.  As long
as it has not left, a registration is bound to it (`Traffic.Bound`): the line finds the name, or has
found it already.  So it misses an entry that is made later, and one whose name somebody who took
the connection offline has cleared in between, and no others (`Traffic.onlineAt_left_iff`).
-/

namespace Switchboard

namespace Traffic

open Service (Move)

variable {t t' : Traffic} {act : Act} {i : Nat} {l : Line} {u : String} {c : Place}

/-! ## Lines that have left -/

/-- Has line `i` left the pool? -/
def HasLeft (t : Traffic) (i : Nat) : Prop := ∃ l ∈ t.service.lines[i]?, l.HasLeft

/-- **Has line `i` looked for the name of its connection**, to leave? -/
def Looked (t : Traffic) (i : Nat) : Prop := t.isParting i = true ∨ t.HasLeft i

instance (t : Traffic) (i : Nat) : Decidable (t.HasLeft i) :=
  inferInstanceAs (Decidable (∃ l ∈ t.service.lines[i]?, l.HasLeft))

instance (t : Traffic) (i : Nat) : Decidable (t.Looked i) := inferInstanceAs (Decidable (_ ∨ _))

/-- A line is found again at its place. -/
theorem Does.place (h : Does t act t') (hs : t.service.Seated) (hi : t.service.lines[i]? = some l) :
    ∃ l', t'.service.lines[i]? = some l' ∧ l'.place = l.place := by
  cases h with
  | passes =>
    obtain ⟨l', hl', hgoes⟩ := Service.goes_perform hs hi _
    exact ⟨l', hl', hgoes.place⟩
  | evicts =>
    refine ⟨_, (List.getElem?_modify ..).trans (congrArg (Option.map _) hi), ?_⟩
    split <;> rfl
  | _ => exact ⟨l, hi, rfl⟩

theorem place_run (ht : t.Sound) (hi : t.service.lines[i]? = some l) (acts : List Act) :
    ∃ l', (t.run acts).service.lines[i]? = some l' ∧ l'.place = l.place := by
  induction acts generalizing t l with
  | nil => exact ⟨l, hi, rfl⟩
  | cons act acts ih =>
    obtain ⟨l₁, hl₁, hplace₁⟩ := (does_perform ht.seated act).place ht.seated hi
    obtain ⟨l', hl', hplace⟩ := ih (ht.perform act) hl₁
    exact ⟨l', hl', hplace.trans hplace₁⟩

/-- **A line leaves** in one go, if its connection has no name in mind, or by its errand. -/
theorem Does.left (h : Does t act t') (hs : t.service.Seated) (hleft : t'.HasLeft i) :
    t.HasLeft i ∨
      (t.isParting i = false ∧ ∃ l, t.service.lines[i]? = some l ∧
        (t.hub.connection l.place).username = none) ∨
      ∃ u c, act = .resumes (.evicts i u c) ∧ .evicts i u c ∈ t.errands ∧ t.registering = none := by
  obtain ⟨l', hl', hleft'⟩ := hleft
  cases h with
  | passes _ _ hleaves =>
    rcases Service.lines_perform hs hl' with ⟨l, hl, hgoes⟩ | ⟨_, _, -, rfl⟩
    · rcases hgoes.left hleft' with hbefore | ⟨rfl, hdone⟩
      · exact .inl ⟨l, hl, hbefore⟩
      · obtain ⟨halone, hnone⟩ := hleaves i rfl
        refine .inr (.inl ⟨halone, l, hl, Option.eq_none_iff_forall_ne_some.mpr fun u hname => ?_⟩)
        exact nomatch hnone.symm.trans
          (errand?_leaves_eq_some_iff.mpr ⟨l, u, hl, hdone, hname, rfl⟩)
    · exact (hleft'.elim nofun nofun : False).elim
  | @evicts j u c hmem hfree =>
    by_cases hji : j = i
    · subst hji
      exact .inr (.inr ⟨u, c, rfl, hmem, hfree⟩)
    · have hl' : (t.service.lines.modify j _)[i]? = some l' := hl'
      rw [List.getElem?_modify] at hl'
      obtain ⟨l, hl, rfl⟩ := Option.map_eq_some_iff.mp hl'
      rw [if_neg hji] at hleft'
      exact .inl ⟨l, hl, hleft'⟩
  | _ => exact .inl ⟨l', hl', hleft'⟩

/-- **A name in mind** stays, or another comes with its entry, or it is cleared. -/
theorem Does.username (h : Does t act t') (hc : c < t.hub.connections.length) :
    (t'.hub.connection c).username = (t.hub.connection c).username ∨
      (∃ v, t.registering = some (v, c) ∧ (t'.hub.connection c).username = some v) ∨
      act = .resumes (.clears c) ∧ .clears c ∈ t.errands := by
  have hother {name : Option String} {d : Place} (hdc : d ≠ c) :
      ((t.hub.setName name d).connection c).username = (t.hub.connection c).username := by
    rw [Hub.setName, Hub.connection_modify, if_neg fun h => hdc h.1]
  cases h with
  | waits | sends => exact .inl rfl
  | passes _ hunmoved _ => exact .inl (hunmoved.username c hc)
  | gives => exact .inl (congrArg _ ((Hub.onlyPool_giveUp ..).connection c))
  | removes => exact .inl (congrArg _ ((Hub.onlyPool_removeEntry ..).connection c))
  | evicts => exact .inl (congrArg _ ((Hub.onlyPool_evict ..).connection c))
  | closes => exact .inl (Hub.username_close ..)
  | @enters v d hregistering =>
    have hconnection : (t.hub.enter v d).connection c = (t.hub.setName (some v) d).connection c :=
      (Hub.onlyPool_enter ..).connection c
    show ((t.hub.enter v d).connection c).username = _ ∨ _
    rw [hconnection]
    by_cases hdc : d = c
    · subst hdc
      refine .inr (.inl ⟨v, hregistering, ?_⟩)
      show ((t.hub.enter v d).connection d).username = some v
      rw [hconnection, Hub.setName, Hub.connection_modify, if_pos ⟨rfl, hc⟩]
    · exact .inl (hother hdc)
  | @clears d hmem =>
    by_cases hdc : d = c
    · subst hdc
      exact .inr (.inr ⟨rfl, hmem⟩)
    · exact .inl (hother hdc)

/-- **The registration is bound to the line**: before it leaves, it finds the name, or it has found
it already. -/
structure Bound (t : Traffic) (i : Nat) (u : String) (c : Place) : Prop where
  here : ¬t.HasLeft i
  known : .evicts i u c ∈ t.errands ∨ t.isParting i = false ∧
    (t.hub.connection c).username = some u ∧ ∀ v, t.registering = some (v, c) → v = u

/-- A line that knows the name, or finds it, does not leave but by ending the registration. -/
theorem Bound.here_does (hb : t.Bound i u c) (h : Does t act t') (ht : t.Sound)
    (hplace : ∀ l, t.service.lines[i]? = some l → l.place = c)
    (hkeeps : ∀ change ∈ t.change? act, ¬change.Ends u c) : ¬t'.HasLeft i := by
  intro hleft
  rcases h.left ht.seated hleft with hbefore | ⟨halone, l, hl, hnone⟩ | ⟨v, d, rfl, hmem, hfree⟩
  · exact hb.here hbefore
  · rcases hb.known with hknown | ⟨-, hname, -⟩
    · exact Bool.false_ne_true (halone.symm.trans (isParting_iff.mpr ⟨u, c, hknown⟩))
    · rw [hplace l hl, hname] at hnone
      exact nomatch hnone
  · rcases hb.known with hknown | ⟨halone, -, -⟩
    · obtain ⟨rfl, rfl⟩ := ht.alone i v d u c hmem hknown
      exact hkeeps (.evicts v d) (if_pos ⟨hmem, hfree⟩) ⟨rfl, rfl⟩
    · exact Bool.false_ne_true (halone.symm.trans (isParting_iff.mpr ⟨v, d, hmem⟩))

/-- Nobody takes another name without ending the registration. -/
theorem Bound.registering_does (h : Does t act t') (hname : (t.hub.connection c).username = some u)
    (hregistering : ∀ v, t.registering = some (v, c) → v = u)
    (hkeeps : ∀ change ∈ t.change? act, ¬change.Ends u c) (v : String)
    (hv : t'.registering = some (v, c)) : v = u := by
  rcases h.registering hv with hbefore | ⟨hfree, hreach, r, rfl, rfl⟩
  · exact hregistering v hbefore
  · by_contra hne
    have hchange : t.change? (.moves (.handles r (.online v))) = some (.evicts u r.place) := by
      refine (if_pos ⟨hreach, hfree⟩).trans (Option.map_eq_some_iff.mpr ⟨u, ?_, rfl⟩)
      exact Option.filter_eq_some_iff.mpr ⟨hname, decide_eq_true fun heq => hne heq.symm⟩
    exact hkeeps _ hchange ⟨rfl, rfl⟩

/-- **The registration stays bound to the line**, unless the name is cleared before the line has
looked for it. -/
theorem Bound.does (hb : t.Bound i u c) (h : Does t act t') (ht : t.Sound)
    (hc : c < t.hub.connections.length)
    (hplace : ∀ l, t.service.lines[i]? = some l → l.place = c)
    (hkeeps : ∀ change ∈ t.change? act, ¬change.Ends u c) :
    t'.Bound i u c ∨ act = .resumes (.clears c) ∧ .clears c ∈ t.errands ∧ ¬t.Looked i := by
  have hhere : ¬t'.HasLeft i := hb.here_does h ht hplace hkeeps
  rcases hb.known with hknown | ⟨halone, hname, hregistering⟩
  · by_cases hact : act = .resumes (.evicts i u c)
    · subst hact
      cases h with
      | waits => exact .inl hb
      | evicts _ hfree =>
        exact absurd ⟨rfl, rfl⟩ (hkeeps (.evicts u c) (if_pos ⟨hknown, hfree⟩))
    · exact .inl ⟨hhere, .inl (h.mem_errands hknown hact)⟩
  have hregistering' := Bound.registering_does h hname hregistering hkeeps
  by_cases hparting : t'.isParting i = true
  · -- The line has looked just now, and found the name.
    obtain ⟨v, d, hmem⟩ := isParting_iff.mp hparting
    rcases h.evicting hmem with hbefore | ⟨rfl, -, herrand⟩
    · exact (Bool.false_ne_true (halone.symm.trans (isParting_iff.mpr ⟨v, d, hbefore⟩))).elim
    · obtain ⟨l, w, hl, -, hw, heq⟩ := errand?_leaves_eq_some_iff.mp herrand
      obtain ⟨-, rfl, rfl⟩ := Errand.evicts.inj heq
      rw [hplace l hl] at hw hmem
      obtain rfl := Option.some.inj (hname.symm.trans hw)
      exact .inl ⟨hhere, .inl hmem⟩
  · have halone' : t'.isParting i = false := Bool.eq_false_iff.mpr hparting
    rcases h.username hc with hsame | ⟨v, hv, hentered⟩ | ⟨hclears, hmem⟩
    · exact .inl ⟨hhere, .inr ⟨halone', hsame.trans hname, hregistering'⟩⟩
    · obtain rfl := hregistering v hv
      exact .inl ⟨hhere, .inr ⟨halone', hentered, hregistering'⟩⟩
    · refine .inr ⟨hclears, hmem, ?_⟩
      rintro (hlooked | hleft)
      · exact Bool.false_ne_true (halone.symm.trans hlooked)
      · exact hb.here hleft

/-- **The name of a connection is cleared** in a series of acts, before line `i` looks for it. -/
def IsCleared (t : Traffic) (i : Nat) (c : Place) (acts : List Act) : Prop :=
  ∃ mid rest, acts = mid ++ .resumes (.clears c) :: rest ∧ .clears c ∈ (t.run mid).errands ∧
    ¬(t.run mid).Looked i

/-- **A registration that is not ended** and outlasts the line had its name cleared. -/
theorem Bound.run (hb : t.Bound i u l.place) (ht : t.Sound)
    (hc : l.place < t.hub.connections.length) {acts : List Act}
    (hi : (t.run acts).service.lines[i]? = some l) (hleft : l.HasLeft)
    (hkeeps : ∀ change ∈ t.changes acts, ¬change.Ends u l.place) :
    t.IsCleared i l.place acts := by
  induction acts generalizing t with
  | nil => exact absurd ⟨l, hi, hleft⟩ hb.here
  | cons act acts ih =>
    have hdoes := does_perform ht.seated act
    have hplace (l₀ : Line) (hl₀ : t.service.lines[i]? = some l₀) : l₀.place = l.place := by
      obtain ⟨l', hl', hplace⟩ := place_run ht hl₀ (act :: acts)
      obtain rfl := Option.some.inj (hi.symm.trans hl')
      exact hplace.symm
    have hsplit : ∀ change ∈ (t.change? act).toList ++ (t.perform act).changes acts,
        ¬change.Ends u l.place := hkeeps
    obtain ⟨hkeep, hkeeps⟩ := List.forall_mem_append.mp hsplit
    rcases hb.does hdoes ht hc hplace fun change hmem =>
      hkeep change (Option.mem_toList.mpr hmem) with hb' | ⟨rfl, hmem, hlooked⟩
    · have hc' := Nat.lt_of_lt_of_le hc hdoes.lasts.later.length
      obtain ⟨mid, rest, rfl, hmem, hlooked⟩ := ih hb' (ht.perform act) hc' hi hkeeps
      exact ⟨act :: mid, rest, rfl, hmem, hlooked⟩
    · exact ⟨[], acts, rfl, hmem, hlooked⟩

/-- Who is entered is bound to the line, if that has not looked. -/
theorem bound_enters (ht : t.Sound) (hregistering : t.registering = some (u, c))
    (hlooked : ¬t.Looked i) : (t.perform .enters).Bound i u c := by
  have hperform : t.perform .enters =
      { t.onHub fun hub => hub.enter u c with registering := none } := by
    rw [perform, hregistering]
  have hc : c < t.hub.connections.length := (ht.registering u c hregistering).2
  rw [hperform]
  refine ⟨fun hleft => hlooked (.inr hleft), .inr ⟨?_, ?_, fun _ hnone => ?_⟩⟩
  · exact Bool.eq_false_iff.mpr fun hparting => hlooked (.inl hparting)
  · show ((t.hub.enter u c).connection c).username = some u
    rw [(Hub.onlyPool_enter ..).connection, Hub.setName, Hub.connection_modify, if_pos ⟨rfl, hc⟩]
  · exact absurd hnone.symm (Option.some_ne_none _)

/-- **Who is online after the line was torn down**: a connection whose line has left is online under
a name just if it was entered under it, no later change ended that, and the line missed the entry,
because it had looked before, or because the name was cleared before it looked.  Requests are
served, lines are read, written and torn down, and peers and stops interfere in any order, also in
the midst of calls of the pool. -/
theorem onlineAt_left_iff (plan : Plan) (host : Host) (acts : List Act) {i : Nat} {l : Line}
    (hi : ((start plan host).run acts).service.lines[i]? = some l) (hleft : l.HasLeft)
    (u : String) :
    ((start plan host).run acts).hub.onlineAt u = some l.place ↔
      ∃ before after, acts = before ++ .enters :: after ∧
        let t := (start plan host).run before
        t.registering = some (u, l.place) ∧
          (∀ change ∈ (t.perform .enters).changes after, ¬change.Ends u l.place) ∧
          (t.Looked i ∨ (t.perform .enters).IsCleared i l.place after) := by
  have hstart : (start plan host).Sound := sound_start plan host
  have hhistory := onlineAt_run hstart acts u l.place
  constructor
  · intro honline
    rcases hhistory.mp honline with ⟨before, after, rfl, hregistering, hafter⟩ | ⟨-, hbefore⟩
    · refine ⟨before, after, rfl, hregistering, hafter, ?_⟩
      refine or_iff_not_imp_left.mpr fun hlooked => ?_
      have ht : ((start plan host).run before).Sound := hstart.run before
      have hdoes := does_perform ht.seated .enters
      have hc := Nat.lt_of_lt_of_le (ht.registering _ _ hregistering).2 hdoes.lasts.later.length
      rw [run_append, run_cons] at hi
      exact (bound_enters ht hregistering hlooked).run (ht.perform .enters) hc hi hleft hafter
    · exact nomatch (onlineAt_start plan host u).symm.trans hbefore
  · rintro ⟨before, after, rfl, hregistering, hafter, -⟩
    exact hhistory.mpr (.inl ⟨before, after, rfl, hregistering, hafter⟩)

/-- Two connections whose lines have left, online under a name each: one came online after that, of
the other the name was cleared by a handler that took it offline, under a former name. -/
theorem onlineAt_left_iff_both :
    let plan : Plan := ⟨.empty, { Settings.standard with hasPool := true }, none, none, .none⟩
    let accepts : List Act := [.moves (.accepts .tcp "p"), .moves (.welcomes 0), .moves (.equips 0)]
    let torn : List Act := [.moves (.peers 0 Socket.losePeer), .moves (.reads 0),
      .moves (.writes 0), .moves (.leaves 0)]
    let online (u : String) : Act := .moves (.handles (.ofBlock 0 [] []) (.online u))
    let midway : List Act := accepts ++ [online "a", .enters,
      .moves (.handles (.ofBlock 0 [] []) .offline), .resumes (.removes "a"), online "b"]
    let late : List Act := accepts ++ torn ++ [online "u", .enters]
    let cleared : List Act :=
      midway ++ [.enters, .resumes (.clears 0), .resumes (.closes 0)] ++ torn
    (∃ l, ((start plan (.fresh true)).run late).service.lines[0]? = some l ∧ l.HasLeft ∧
      ((start plan (.fresh true)).run late).hub.onlineAt "u" = some l.place) ∧
    ∃ l, ((start plan (.fresh true)).run cleared).service.lines[0]? = some l ∧ l.HasLeft ∧
      ((start plan (.fresh true)).run cleared).hub.onlineAt "b" = some l.place := by
  intro plan accepts torn online midway late cleared
  have hlines : ∀ acts ∈ [late, cleared],
      ∃ l ∈ ((start plan (.fresh true)).run acts).service.lines[0]?, l.HasLeft ∧ l.place = 0 := by
    decide +kernel
  obtain ⟨l, hl, hleft, hplace⟩ := hlines late List.mem_cons_self
  obtain ⟨l', hl', hleft', hplace'⟩ := hlines cleared (.tail _ (.head _))
  rw [Option.mem_def] at hl hl'
  have hlate := onlineAt_left_iff plan (.fresh true) late hl hleft "u"
  have hcleared := onlineAt_left_iff plan (.fresh true) cleared hl' hleft' "b"
  rw [hplace] at hlate
  rw [hplace'] at hcleared
  refine ⟨⟨l, hl, hleft, ?_⟩, l', hl', hleft', ?_⟩
  · rw [hplace]
    exact hlate.mpr ⟨accepts ++ torn ++ [online "u"], [], rfl, by decide +kernel,
      List.forall_mem_nil _, .inl (by decide +kernel)⟩
  · rw [hplace']
    exact hcleared.mpr ⟨midway, [.resumes (.clears 0), .resumes (.closes 0)] ++ torn, rfl,
      by decide +kernel, by decide +kernel, .inr ⟨[], _, rfl, by decide +kernel, by decide +kernel⟩⟩

end Traffic

namespace Service

/-- **A connection that was torn down stays in the pool**: its request is served when the line has
left, and once everything is at rest the closed connection is online. -/
theorem not_forgotten_served_late :
    let online : Script := ⟨0, none, [⟨.online "u", none⟩]⟩
    let settings : Settings := { Settings.standard with hasPool := true }
    let plan : Plan := ⟨Router.empty.setRaw online, settings, none, none, .none⟩
    let accepted := ((ofPlan plan (.fresh true)).accept .tcp "p").2
    let block : Bytes := [0, 0, 0, 12, 0, 0, 0, 1, 0, 0, 0, 0, 0, 0, 0, 0]
    let s := ((accepted.peerSends 0 block).2.peerFinishes 0).settle
    s.exchange.requests.isEmpty = true ∧ ∃ l ∈ s.lines[0]?, l.stage = .over ∧
      l.isClosed s.exchange = true ∧ s.exchange.hub.onlineAt "u" = some l.place := by
  decide +kernel

end Service

end Switchboard
