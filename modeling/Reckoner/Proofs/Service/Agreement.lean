import Reckoner.Proofs.Registry.Owners
import Reckoner.Proofs.Service.Step
import Reckoner.Proofs.Session.Naming
import Mathlib.Data.List.Nodup

/-!
# Sessions and the registry agree

* `Service.Agreement` — the registry's table has just the names that sessions hold, and its mailbox
  just commands that sessions wait for.
* `Service.Agreement.apply` — every move keeps it so, as long as the registry runs, by one lemma for
  a step of a handler and one for a step of the registry.
* `Service.registry_agrees` — what that means for the names of the sessions of a live service.
-/

namespace Reckoner

namespace Service

variable {s s' : Service} {i : Nat}

/-- The name that belongs to the session of a connection. -/
def held? (s : Service) (i : Nat) : Option String := (s.session? i).bind Session.held?

/-- The command that the session of a connection waits for. -/
def pending? (s : Service) (i : Nat) : Option RegistryCommand :=
  (s.session? i).bind (Session.pending? i)

/-- **Agreement.** The connections are numbered, the table has just the names that sessions hold,
    each once, and the mailbox has at most one command from each session, which it waits for. -/
structure Agreement (s : Service) : Prop where
  numbered : ∀ {i c}, s.connections[i]? = some c → c.id = i + 1
  fresh : ∀ {i session}, s.session? i = some session → session.IsFresh
  distinct : s.registry.table.Distinct
  entry_iff : ∀ name owner, (name, owner) ∈ s.registry.table.owners ↔
    ∃ i, s.held? i = some name ∧ owner = ⟨i + 1, i⟩
  pending : ∀ {i command}, (i, command) ∈ s.registry.mailbox → s.pending? i = some command
  once : (s.registry.mailbox.map Prod.fst).Nodup

theorem agreement_start (limits : SessionLimits) (queueCapacity : Nat) :
    (start limits queueCapacity).Agreement := by
  constructor <;> simp [start, session?, held?, Registry.Distinct]

/-! ### Moves that leave names alone -/

/-- Nothing but the registry and the names of the sessions matters. -/
theorem Agreement.congr (h : s.Agreement) (hregistry : s'.registry = s.registry)
    (hnumbered : ∀ {i c}, s'.connections[i]? = some c → c.id = i + 1)
    (hfresh : ∀ {i session}, s'.session? i = some session → session.IsFresh)
    (hheld : ∀ i, s'.held? i = s.held? i) (hpending : ∀ i, s'.pending? i = s.pending? i) :
    s'.Agreement := by
  refine ⟨hnumbered, hfresh, ?_, ?_, ?_, ?_⟩
  · rw [hregistry]
    exact h.distinct
  · intro name owner
    rw [hregistry, h.entry_iff]
    exact exists_congr fun i => by rw [hheld]
  · intro i command hmem
    rw [hregistry] at hmem
    rw [hpending]
    exact h.pending hmem
  · rw [hregistry]
    exact h.once

/-- The same for a service with the same connections. -/
theorem Agreement.of_connections (h : s.Agreement) (hregistry : s'.registry = s.registry)
    (hconnections : s'.connections = s.connections) : s'.Agreement := by
  have hsession (i : Nat) : s'.session? i = s.session? i := by rw [session?, session?, hconnections]
  refine h.congr hregistry ?_ ?_ ?_ ?_
  · intro i c hc
    rw [hconnections] at hc
    exact h.numbered hc
  · intro i session hs
    rw [hsession] at hs
    exact h.fresh hs
  · intro i
    rw [held?, held?, hsession]
  · intro i
    rw [pending?, pending?, hsession]

/-- A change of connections that leaves the standing of sessions alone. -/
theorem Agreement.of_standing (h : s.Agreement) (hregistry : s'.registry = s.registry)
    (hnumbered : ∀ {i c}, s'.connections[i]? = some c → c.id = i + 1)
    (hstanding : ∀ i, (s'.session? i).map Session.standing
      = (s.session? i).map Session.standing) : s'.Agreement := by
  have hsame (i : Nat) : s'.session? i = none ∧ s.session? i = none ∨
      ∃ session' session, s'.session? i = some session' ∧ s.session? i = some session ∧
        session'.standing = session.standing := by
    have heq := hstanding i
    cases hs' : s'.session? i with
    | none =>
      rw [hs', Option.map_none, eq_comm, Option.map_eq_none_iff] at heq
      exact .inl ⟨rfl, heq⟩
    | some session' =>
      rw [hs', Option.map_some, eq_comm, Option.map_eq_some_iff] at heq
      obtain ⟨session, hs, hsession⟩ := heq
      exact .inr ⟨session', session, rfl, hs, hsession.symm⟩
  refine h.congr hregistry hnumbered ?_ ?_ ?_
  · intro i session hs'
    rcases hsame i with ⟨hnone, -⟩ | ⟨session', before, hs'', hs, hsession⟩
    · rw [hnone] at hs'
      cases hs'
    · rw [hs''] at hs'
      cases hs'
      exact (Session.naming_congr hsession i).2.2 (h.fresh hs)
  · intro i
    rw [held?, held?]
    rcases hsame i with ⟨hs', hs⟩ | ⟨session', session, hs', hs, hsession⟩ <;> rw [hs', hs]
    exact (Session.naming_congr hsession i).1
  · intro i
    rw [pending?, pending?]
    rcases hsame i with ⟨hs', hs⟩ | ⟨session', session, hs', hs, hsession⟩ <;> rw [hs', hs]
    exact (Session.naming_congr hsession i).2.1

theorem Agreement.modifyConnection (h : s.Agreement) (i : Nat) {f : Connection → Connection}
    (hid : ∀ c, (f c).id = c.id)
    (hstanding : ∀ c, s.connections[i]? = some c →
      (f c).handler.session?.map Session.standing = c.handler.session?.map Session.standing) :
    (s.modifyConnection i f).Agreement := by
  refine h.of_standing rfl ?_ ?_
  · intro j c hc
    rw [getElem?_modifyConnection] at hc
    split at hc
    · obtain ⟨before, hbefore, rfl⟩ := Option.map_eq_some_iff.mp hc
      rw [hid]
      exact h.numbered hbefore
    · exact h.numbered hc
  · intro j
    rw [session?_modifyConnection]
    split
    · rename_i hj
      subst hj
      rw [session?]
      cases hc : s.connections[i]? with
      | none => rfl
      | some c => exact hstanding c hc
    · rfl

theorem Agreement.modifyOutput (h : s.Agreement) (i : Nat) (f : Channel → Channel) :
    (s.modifyOutput i f).Agreement :=
  h.modifyConnection i (fun _ => rfl) (fun _ _ => rfl)

theorem Agreement.modifyInput (h : s.Agreement) (i : Nat) (f : Input → Input) :
    (s.modifyInput i f).Agreement := by
  refine h.modifyConnection i ?_ ?_
  · intro c
    split <;> rfl
  · intro c _
    split
    · rename_i session hhandler
      rw [hhandler]
      rfl
    · rfl

/-- A new connection has no session yet that holds or waits for anything. -/
theorem Agreement.addConnection (h : s.Agreement) (output : Channel) {handler : Handler}
    (hfresh : ∀ session, handler.session? = some session → session.joined = none ∧
      ∃ since, session.phase = .reading since) : (s.addConnection output handler).Agreement := by
  have hsession := s.session?_addConnection output handler
  have hnone : s.session? s.connections.length = none := by
    rw [session?, List.getElem?_eq_none (Nat.le_refl _)]
    rfl
  have hnaming (session : Session) (hs : handler.session? = some session) (j : Nat) :
      session.held? = none ∧ session.pending? j = none ∧ session.IsFresh := by
    obtain ⟨hjoined, since, hphase⟩ := hfresh session hs
    simp [Session.held?, Session.pending?, Session.IsFresh, hjoined, hphase]
  refine h.congr rfl ?_ ?_ ?_ ?_
  · intro j c hc
    rw [getElem?_addConnection] at hc
    split at hc
    · rename_i hj
      cases hc
      rw [hj]
    · exact h.numbered hc
  · intro j session hs
    rw [hsession] at hs
    split at hs
    · exact (hnaming session hs j).2.2
    · exact h.fresh hs
  · intro j
    rw [held?, held?, hsession]
    split
    · rename_i hj
      rw [hj, hnone]
      cases hs : handler.session? with
      | none => rfl
      | some session => exact (hnaming session hs j).1
    · rfl
  · intro j
    rw [pending?, pending?, hsession]
    split
    · rename_i hj
      rw [hj, hnone]
      cases hs : handler.session? with
      | none => rfl
      | some session => exact (hnaming session hs _).2.1
    · rfl

theorem Agreement.afterWorker (h : s.Agreement) (i : Nat) (next : WorkerStep) :
    (s.afterWorker i next).1.Agreement :=
  (h.modifyOutput i fun _ => next.output).of_connections rfl rfl

theorem Agreement.worker (h : s.Agreement) (hstep : s.WorkerTransition s') : s'.Agreement := by
  cases hstep with
  | take | skip =>
    refine Agreement.afterWorker ?_ _ _
    exact h.of_connections rfl rfl
  | stop => exact h.of_connections rfl rfl
  | answer | write | deliver | fail => exact h.afterWorker ..

/-! ### Sessions -/

/-- A step of a session puts at most one command into the mailbox. -/
theorem afterSession_registry (s : Service) (i : Nat) (next : SessionStep) :
    (s.afterSession i (i + 1) next).registry = { s.registry with
      mailbox := s.registry.mailbox
        ++ ((next.errand.bind (Errand.command? i)).map fun command => (i, command)).toList } := by
  unfold afterSession
  cases herrand : next.errand with
  | none => simp [modifyConnection, record]
  | some errand => cases errand <;> simp [run, post, modifyConnection, record, Errand.command?]

/-- A session that waits for nothing has nothing in the mailbox. -/
theorem Agreement.not_mem_mailbox (h : s.Agreement) (hidle : s.pending? i = none)
    (command : RegistryCommand) : (i, command) ∉ s.registry.mailbox := by
  intro hmem
  rw [h.pending hmem] at hidle
  cases hidle

theorem Agreement.session (h : s.Agreement) (hruns : s.registry.runs = true) {c : Connection}
    {session : Session} {next : SessionStep} (hc : s.connections[i]? = some c)
    (hhandler : c.handler = .session session)
    (hstep : session.Transition s.outlook c.output next) :
    (s.afterSession i c.id next).Agreement := by
  have hbefore : s.session? i = some session := session?_of_handler hc hhandler
  obtain ⟨hfresh, hheld, hidle, hpending⟩ := hstep.naming hruns (h.fresh hbefore) i
  rw [h.numbered hc]
  have hsession := session?_afterSession hc (i + 1) next
  have hnone := h.not_mem_mailbox (show s.pending? i = none by rw [pending?, hbefore]; exact hidle)
  -- All that is new in the mailbox comes from this session, and it waits for it.
  have hnew {entry : Nat × RegistryCommand}
      (hmem : entry ∈ ((next.errand.bind (Errand.command? i)).map
        fun command => (i, command)).toList) :
      entry.1 = i ∧ next.session.pending? i = some entry.2 := by
    rw [Option.mem_toList, Option.map_eq_some_iff] at hmem
    obtain ⟨command, hcommand, rfl⟩ := hmem
    exact ⟨rfl, by rw [hpending, hcommand]⟩
  refine ⟨?_, ?_, ?_, ?_, ?_, ?_⟩
  · intro j c' hc'
    rw [afterSession_connections, getElem?_modifyConnection] at hc'
    split at hc'
    · obtain ⟨before, hbefore', rfl⟩ := Option.map_eq_some_iff.mp hc'
      have hid := h.numbered hbefore'
      exact hid
    · exact h.numbered hc'
  · intro j session' hs'
    rw [hsession] at hs'
    split at hs'
    · cases hs'
      exact hfresh
    · exact h.fresh hs'
  · rw [afterSession_registry]
    exact h.distinct
  · intro name owner
    rw [afterSession_registry]
    show (name, owner) ∈ s.registry.table.owners ↔ _
    rw [h.entry_iff]
    refine exists_congr fun j => ?_
    rw [held?, held?, hsession]
    split
    · rename_i hj
      rw [← hj, hbefore, Option.bind_some, Option.bind_some, hheld]
    · rfl
  · intro j command hmem
    rw [afterSession_registry] at hmem
    rw [pending?, hsession]
    rcases List.mem_append.mp hmem with hmem | hmem
    · rw [if_neg]
      · exact h.pending hmem
      · rintro rfl
        exact hnone command hmem
    · obtain ⟨hj, hcommand⟩ := hnew hmem
      have hj : j = i := hj
      rw [if_pos hj.symm, hj]
      exact hcommand
  · rw [afterSession_registry]
    show ((s.registry.mailbox ++ _).map Prod.fst).Nodup
    rw [List.map_append, List.nodup_append]
    refine ⟨h.once, ?_, ?_⟩
    · cases next.errand.bind (Errand.command? i) <;> simp
    · intro source hsource source' hsource' heq
      obtain ⟨entry, hentry, rfl⟩ := List.mem_map.mp hsource
      obtain ⟨entry', hentry', rfl⟩ := List.mem_map.mp hsource'
      refine hnone entry.2 ?_
      rw [← (hnew hentry').1, ← heq]
      exact hentry

theorem Agreement.handler (h : s.Agreement) (hruns : s.registry.runs = true) {effort : Nat}
    (hstep : s.stepHandler i = some (s', effort)) : s'.Agreement := by
  rcases stepHandler_cases hstep with
    ⟨c, session, next, hc, hhandler, htransition, rfl⟩ | ⟨c, r, next, hc, hhandler, -, rfl⟩
  · exact h.session hruns hc hhandler htransition
  · refine h.modifyConnection i (fun _ => rfl) ?_
    intro c' hc'
    rw [hc] at hc'
    cases hc'
    rw [hhandler]
    rfl

/-! ### The registry -/

section Answer

variable {command : RegistryCommand} {mailbox : List (Nat × RegistryCommand)} {session : Session}
  {table : Registry} {reply : RegistryReply}

/-- The session of a connection hears an answer. -/
theorem Agreement.answer (h : s.Agreement) (hmailbox : s.registry.mailbox = (i, command) :: mailbox)
    (hsession : s.session? i = some session)
    (hfresh : (session.hear reply).IsFresh) (hdistinct : table.Distinct)
    (hentries : ∀ name owner, (name, owner) ∈ table.owners ↔
      ∃ j, (if i = j then (session.hear reply).held? else s.held? j) = some name ∧
        owner = ⟨j + 1, j⟩) : (s.answer i table mailbox reply).Agreement := by
  have hafter (j : Nat) : (s.answer i table mailbox reply).session? j
      = if i = j then some (session.hear reply) else s.session? j := by
    rw [Service.answer, session?_modifySession]
    split
    · rename_i hj
      subst hj
      show (s.session? i).map _ = _
      rw [hsession]
      rfl
    · rfl
  have honce := h.once
  rw [hmailbox, List.map_cons, List.nodup_cons] at honce
  refine ⟨?_, ?_, hdistinct, ?_, ?_, honce.2⟩
  · intro j c hc
    rw [Service.answer, modifySession, getElem?_modifyConnection] at hc
    split at hc
    · obtain ⟨before, hbefore, rfl⟩ := Option.map_eq_some_iff.mp hc
      have hid := h.numbered hbefore
      split <;> exact hid
    · have hid := h.numbered hc
      exact hid
  · intro j session' hs'
    rw [hafter] at hs'
    split at hs'
    · cases hs'
      exact hfresh
    · exact h.fresh hs'
  · intro name owner
    refine (hentries name owner).trans (exists_congr fun j => ?_)
    show _ ↔ ((s.answer i table mailbox reply).session? j).bind Session.held? = _ ∧ _
    rw [hafter]
    split <;> rfl
  · intro j command' hmem
    -- The session has asked only once, so this is from another one.
    have hmem : (j, command') ∈ mailbox := hmem
    have hne : i ≠ j := by
      rintro rfl
      exact honce.1 (List.mem_map.mpr ⟨_, hmem, rfl⟩)
    show ((s.answer i table mailbox reply).session? j).bind _ = _
    rw [hafter, if_neg hne]
    exact h.pending (by rw [hmailbox]; exact List.mem_cons_of_mem _ hmem)

/-- A session that holds the same name as before. -/
theorem held?_of_same (hsession : s.session? i = some session) {session' : Session}
    (hsame : session'.held? = session.held?) (j : Nat) :
    (if i = j then session'.held? else s.held? j) = s.held? j := by
  split
  · rename_i hj
    rw [← hj, held?, hsession, Option.bind_some, hsame]
  · rfl

theorem Agreement.registry_register (h : s.Agreement) {name : String} {owner : Owner}
    (hmailbox : s.registry.mailbox = (i, .register name owner) :: mailbox)
    (hhandle : s.registry.table.handle (.register name owner) = (table, reply)) :
    (s.answer i table mailbox reply).Agreement := by
  have hpending := h.pending (by rw [hmailbox]; exact List.mem_cons_self)
  obtain ⟨session, hsession, hasked⟩ := Option.bind_eq_some_iff.mp hpending
  obtain ⟨rfl, hphase⟩ := Session.pending?_register hasked
  have hfresh := h.fresh hsession
  rcases s.registry.table.handle_register name ⟨i + 1, i⟩ with
    ⟨other, e, -, hdenied⟩ | ⟨hfree, table', hgranted, howners⟩
  · rw [hdenied] at hhandle
    cases hhandle
    obtain ⟨hbefore, hheld, hfresh'⟩ := Session.hear_denied hphase hfresh e
    refine h.answer hmailbox hsession hfresh' h.distinct ?_
    intro given owner
    rw [h.entry_iff]
    exact exists_congr fun j => by rw [held?_of_same hsession (hheld.trans hbefore.symm)]
  · rw [hgranted] at hhandle
    cases hhandle
    obtain ⟨hbefore, hheld, hfresh'⟩ := Session.hear_granted hphase hfresh
    refine h.answer hmailbox hsession hfresh' ?_ ?_
    · rw [Registry.Distinct, howners]
      exact h.distinct.append hfree
    · intro given owner
      rw [howners, List.mem_append, List.mem_singleton, h.entry_iff, hheld]
      have hnone : s.held? i = none := by
        rw [held?, hsession]
        exact hbefore
      constructor
      · rintro (⟨j, hj, rfl⟩ | heq)
        · refine ⟨j, ?_, rfl⟩
          rw [if_neg, hj]
          rintro rfl
          rw [hnone] at hj
          cases hj
        · cases heq
          exact ⟨i, if_pos rfl, rfl⟩
      · rintro ⟨j, hj, rfl⟩
        split at hj
        · rename_i hij
          cases hj
          exact .inr (by rw [hij])
        · exact .inl ⟨j, hj, rfl⟩

theorem Agreement.registry_deregister (h : s.Agreement) {name : String} {number : Nat}
    (hmailbox : s.registry.mailbox = (i, .deregister name number) :: mailbox)
    (hhandle : s.registry.table.handle (.deregister name number) = (table, reply)) :
    (s.answer i table mailbox reply).Agreement := by
  have hpending := h.pending (by rw [hmailbox]; exact List.mem_cons_self)
  obtain ⟨session, hsession, hasked⟩ := Option.bind_eq_some_iff.mp hpending
  obtain ⟨rfl, hbefore, e, hphase⟩ := Session.pending?_deregister hasked
  have hholds : s.held? i = some name := by
    rw [held?, hsession]
    exact hbefore
  have howns : s.registry.table.owner? name = some ⟨i + 1, i⟩ :=
    h.distinct.owner?_eq_some_iff.mpr ((h.entry_iff _ _).mpr ⟨i, hholds, rfl⟩)
  obtain ⟨table', hreleased, howners⟩ := Registry.handle_deregister howns
  rw [hreleased] at hhandle
  cases hhandle
  obtain ⟨hheld, hfresh⟩ := Session.hear_released hphase true
  refine h.answer hmailbox hsession hfresh ?_ ?_
  · rw [Registry.Distinct, howners]
    exact h.distinct.filter _
  · intro given owner
    rw [howners, List.mem_filter, decide_eq_true_eq, h.entry_iff, hheld]
    constructor
    · rintro ⟨⟨j, hj, rfl⟩, hne⟩
      refine ⟨j, ?_, rfl⟩
      rw [if_neg, hj]
      rintro rfl
      rw [hholds] at hj
      exact hne (Option.some.inj hj).symm
    · rintro ⟨j, hj, rfl⟩
      split at hj
      · cases hj
      rename_i hij
      refine ⟨⟨j, hj, rfl⟩, ?_⟩
      rintro rfl
      -- The name has only one owner.
      have hother := h.distinct.owner?_eq_some_iff.mpr ((h.entry_iff _ _).mpr ⟨j, hj, rfl⟩)
      rw [howns] at hother
      exact hij (congrArg Owner.channel (Option.some.inj hother))

end Answer

theorem Agreement.registry (h : s.Agreement) {effort : Nat}
    (hstep : s.stepRegistry = some (s', effort)) : s'.Agreement := by
  obtain ⟨source, command, mailbox, hmailbox, rfl⟩ := stepRegistry_cases hstep
  have hpending := h.pending (by rw [hmailbox]; exact List.mem_cons_self)
  obtain ⟨session, hsession, hasked⟩ := Option.bind_eq_some_iff.mp hpending
  rcases Session.pending?_cases hasked with ⟨name, owner, rfl⟩ | ⟨name, number, rfl⟩
  · exact h.registry_register hmailbox rfl
  · exact h.registry_deregister hmailbox rfl

/-! ### Runs -/

/-- A registry that is gone does not come back. -/
theorem runs_of_apply (m : Move) (h : (s.apply m).registry.runs = true) :
    s.registry.runs = true := by
  by_cases hm : m = .killRegistry
  · subst hm
    cases h
  · rwa [(s.frame_apply m).runs hm] at h

/-- Sessions and the registry agree whatever happens, as long as the registry runs. -/
theorem Agreement.apply (h : s.Agreement) (hruns : s.registry.runs = true) (m : Move)
    (hafter : (s.apply m).registry.runs = true) : (s.apply m).Agreement := by
  cases m with
  | handler i =>
    rcases s.apply_handler i with heq | ⟨effort, hstep⟩
    · rwa [heq]
    · exact h.handler hruns hstep
  | registry =>
    rcases s.apply_registry with heq | ⟨effort, hstep⟩
    · rwa [heq]
    · exact h.registry hstep
  | worker =>
    rcases s.apply_worker with ⟨heq, -⟩ | ⟨s', heq, hstep⟩ <;> rw [heq]
    · exact h
    · exact h.worker hstep
  | connect =>
    simp only [Service.apply]
    split
    · refine h.addConnection _ ?_
      intro session hsession
      cases hsession
      exact ⟨rfl, _, rfl⟩
    · exact h
  | refuse | attach =>
    refine h.addConnection _ ?_
    intro session hsession
    cases hsession
  | detach i =>
    refine h.modifyConnection i ?_ ?_
    · intro c
      split <;> rfl
    · intro c _
      split
      · rename_i houtside
        rw [houtside]
        rfl
      · rfl
  | submit request =>
    rcases s.apply_submit request with heq | ⟨-, -, heq⟩ <;> rw [heq]
    · exact h
    · exact h.of_connections rfl rfl
  | arrive i chunk => exact h.modifyInput i (·.arrive chunk)
  | finish i ending => exact h.modifyInput i (·.finish ending)
  | read i limit => exact h.modifyOutput i fun c => { c with pipe := (c.pipe.read limit).1 }
  | deafen i => exact h.modifyOutput i fun c => { c with pipe := c.pipe.deafen }
  | wait | age | cancel | release => exact h.of_connections rfl rfl
  | killWorker =>
    show s.killWorker.Agreement
    rcases s.killWorker_cases with ⟨heq, -⟩ | ⟨-, before, hbefore, heq⟩
    · rwa [heq]
    · rw [heq]
      rcases hbefore with ⟨rfl, -⟩ | ⟨request, outcome, ticket, -, rfl⟩
      · exact h.of_connections rfl rfl
      · exact (h.modifyOutput request.connection (·.abandon ticket)).of_connections rfl rfl
  | killRegistry => cases hafter

theorem agreement_of_reachable {limits : SessionLimits} {queueCapacity : Nat}
    (h : Reachable limits queueCapacity s) (hruns : s.registry.runs = true) : s.Agreement := by
  induction h with
  | start => exact agreement_start limits queueCapacity
  | move m _ ih =>
    have hbefore := runs_of_apply m hruns
    exact (ih hbefore).apply hbefore m hruns

/-- An entry of the table belongs to a session that holds the name. -/
theorem Agreement.holder (h : s.Agreement) {name : String} {owner : Owner}
    (hmem : (name, owner) ∈ s.registry.table.owners) :
    ∃ c session, s.connections[owner.channel]? = some c ∧ c.id = owner.session ∧
      c.handler = .session session ∧ session.held? = some name := by
  obtain ⟨i, hheld, rfl⟩ := (h.entry_iff name owner).mp hmem
  obtain ⟨session, hsession, hname⟩ := Option.bind_eq_some_iff.mp hheld
  obtain ⟨c, hc, hhandler⟩ := session?_eq_some hsession
  exact ⟨c, session, hc, h.numbered hc, hhandler, hname⟩

/-- A session that has joined, and has not had its name taken back, owns it. -/
theorem Agreement.owns (h : s.Agreement) {c : Connection} {session : Session} {j : Joined}
    (hc : s.connections[i]? = some c) (hhandler : c.handler = .session session)
    (hjoined : session.joined = some j) (hback : session.hasGivenBack = false) :
    s.registry.table.owner? j.name = some ⟨c.id, i⟩ := by
  have hsession := session?_of_handler hc hhandler
  rw [h.distinct.owner?_eq_some_iff, h.entry_iff, h.numbered hc]
  refine ⟨i, ?_, rfl⟩
  rw [held?, hsession]
  exact Session.held?_of_joined (h.fresh hsession) hjoined hback

/-- No session owns two names. -/
theorem Agreement.nodup_sessions (h : s.Agreement) :
    (s.registry.table.owners.map fun entry => entry.2.session).Nodup := by
  refine List.Nodup.map_on ?_ (List.Nodup.of_map _ h.distinct)
  intro entry hentry other hother heq
  obtain ⟨i, hi, howner⟩ := (h.entry_iff entry.1 entry.2).mp hentry
  obtain ⟨j, hj, howner'⟩ := (h.entry_iff other.1 other.2).mp hother
  -- The number of a session tells its connection, and so the one name that it holds.
  have hij : i = j := by
    rw [howner, howner'] at heq
    exact Nat.succ.inj heq
  subst hij
  rw [hi, Option.some.injEq] at hj
  exact Prod.ext hj (howner.trans howner'.symm)

/-- A session that has ended owns nothing. -/
theorem Agreement.ended (h : s.Agreement) {c : Connection} {session : Session}
    (hc : s.connections[i]? = some c) (hhandler : c.handler = .session session)
    (hfinished : session.hasFinished = true) {entry : String × Owner}
    (hentry : entry ∈ s.registry.table.owners) : entry.2.session ≠ c.id ∧ entry.2.channel ≠ i := by
  obtain ⟨c', session', hc', hid, hhandler', hheld⟩ := h.holder hentry
  have hne : entry.2.channel ≠ i := by
    rintro rfl
    rw [hc] at hc'
    cases hc'
    rw [hhandler] at hhandler'
    cases hhandler'
    have hback := (Session.joined_of_held? hheld).1
    rw [Session.hasGivenBack_of_hasFinished hfinished] at hback
    cases hback
  refine ⟨?_, hne⟩
  rw [← hid, h.numbered hc, h.numbered hc']
  omega

/-- **Sessions and a live registry agree.** Whatever happens to any number of sessions, as long as
    the registry runs:
    the owner of a name is a session that has not ended, with its own number and output, that has
    joined under the name or is about to be told so;
    a session that has joined, and has not had its name taken back, owns it;
    no name has two owners, no session has two names, and one that has ended has none. -/
theorem registry_agrees {limits : SessionLimits} {queueCapacity : Nat}
    (h : Reachable limits queueCapacity s) (hruns : s.registry.runs = true) :
    (∀ name owner, s.registry.table.owner? name = some owner →
      ∃ c session, s.connections[owner.channel]? = some c ∧ c.id = owner.session ∧
        c.handler = .session session ∧ session.hasFinished = false ∧
        ((∃ since, session.joined = some ⟨name, since⟩ ∧ session.hasGivenBack = false) ∨
          session.phase = .joinAnswered name true)) ∧
      (∀ i c session j, s.connections[i]? = some c → c.handler = .session session →
        session.joined = some j → session.hasGivenBack = false →
          s.registry.table.owner? j.name = some ⟨c.id, i⟩) ∧
      (s.registry.table.owners.map Prod.fst).Nodup ∧
      (s.registry.table.owners.map fun entry => entry.2.session).Nodup ∧
      ∀ i c session, s.connections[i]? = some c → c.handler = .session session →
        session.hasFinished = true → ∀ entry ∈ s.registry.table.owners,
          entry.2.session ≠ c.id ∧ entry.2.channel ≠ i := by
  have hagree := agreement_of_reachable h hruns
  refine ⟨?_, ?_, hagree.distinct, hagree.nodup_sessions, ?_⟩
  · intro name owner hlookup
    obtain ⟨c, session, hc, hid, hhandler, hheld⟩ :=
      hagree.holder (hagree.distinct.owner?_eq_some_iff.mp hlookup)
    refine ⟨c, session, hc, hid, hhandler, ?_⟩
    obtain ⟨hback, hjoined⟩ := Session.joined_of_held? hheld
    refine ⟨?_, ?_⟩
    · by_contra hfinished
      rw [Session.hasGivenBack_of_hasFinished (by simpa using hfinished)] at hback
      cases hback
    · rcases hjoined with ⟨since, hjoined⟩ | hphase
      · exact .inl ⟨since, hjoined, hback⟩
      · exact .inr hphase
  · intro i c session j hc hhandler hjoined hback
    exact hagree.owns hc hhandler hjoined hback
  · intro i c session hc hhandler hfinished entry hentry
    exact hagree.ended hc hhandler hfinished hentry

/-- A run in which a client joins. -/
def joinRun : List Move :=
  [.connect "peer" 64 1000, .arrive 0 (utf8 "JOIN:a\n"), .handler 0, .handler 0, .registry,
    .handler 0]

theorem registry_agrees_joinRun : ((start ⟨1000, 64⟩ 4).applyAll joinRun).registry.runs = true ∧
    ((start ⟨1000, 64⟩ 4).applyAll joinRun).registry.table.owner? "a" = some ⟨1, 0⟩ := by
  have hruns : ((start ⟨1000, 64⟩ 4).applyAll joinRun).registry.runs = true := by decide +kernel
  have hid : ((start ⟨1000, 64⟩ 4).applyAll joinRun).connections[0]?.map Connection.id
      = some 1 := by decide +kernel
  have hjoined : (((start ⟨1000, 64⟩ 4).applyAll joinRun).session? 0).map
      (fun session => (session.joined, session.hasGivenBack)) = some (some ⟨"a", 0⟩, false) := by
    decide +kernel
  obtain ⟨session, hsession, heq⟩ := Option.map_eq_some_iff.mp hjoined
  obtain ⟨c, hc, hhandler⟩ := session?_eq_some hsession
  rw [hc] at hid
  have howner := (registry_agrees (Reachable.start.applyAll joinRun) hruns).2.1 0 c session _ hc
    hhandler (congrArg Prod.fst heq) (congrArg Prod.snd heq)
  rw [Option.some.inj hid] at howner
  exact ⟨hruns, howner⟩

end Service

end Reckoner
