import Reckoner.Proofs.Registry.Tenancy

/-!
# What the events tell

Whoever has seen every event since the start knows the table, though no event shows it.

* `Registry.announcement` — what is published at a command.
* `Registry.handle_announces` — one command: nothing else is published, and a command at which
  nothing is published changes nothing.
* `RegistryEvent.turn` — joined and left by turns, beginning with joined.
* `RegistryEvent.retell`, `RegistryEvent.namesTold` — the names as a subscriber keeps them.
* `Registry.Told` — the table is what the events tell; `Registry.Told.handle` is its step.
* `Registry.looks` — what a subscriber is told who looks from time to time.
* `Registry.Replays`, `Registry.events_replay` — all rows of commands.
-/

namespace Reckoner

namespace RegistryEvent

/-- The events about one name, counted from zero: it joins, it leaves, it joins. -/
def turn (name : String) (k : Nat) : RegistryEvent :=
  if k % 2 = 0 then joined name else left name

/-- The last event about a name. -/
def lastAbout? (events : List RegistryEvent) (name : String) : Option RegistryEvent :=
  (events.filter fun event => event.name = name).getLast?

/-- The names after an event. -/
def retell (names : List String) : RegistryEvent → List String
  | joined name => names ++ [name]
  | left name => names.filter fun other => other ≠ name

/-- The names after a row of events, in order. -/
def namesTold (events : List RegistryEvent) : List String :=
  (events.foldl retell []).mergeSort fun a b => !decide (b < a)

theorem lastAbout?_of_turns {events : List RegistryEvent} {name : String} {n : Nat}
    (h : events.filter (fun event => event.name = name) = (List.range n).map (turn name)) :
    lastAbout? events name = some (joined name) ↔ n % 2 = 1 := by
  rw [lastAbout?, h, List.getLast?_map, List.getLast?_range]
  cases n with
  | zero => simp
  | succ n =>
    rw [if_neg (by omega), Option.map_some, Option.some.injEq, Nat.add_sub_cancel, turn]
    split
    · exact iff_of_true rfl (by omega)
    · exact iff_of_false nofun (by omega)

end RegistryEvent

namespace Registry

open RegistryEvent

variable {r : Registry} {name : String}

/-! ### One command -/

/-- **What is published at a command.** A name that is given has joined, and a name that its owner
    gives back has left.  A name that is not given, a name given back by a stranger or for the
    second time, a look-up and a list are not spoken of. -/
def announcement (own : String → Option Owner) : RegistryCommand → List RegistryEvent
  | .register name _ => if own name = none then [.joined name] else []
  | .deregister name session =>
    if (own name).map Owner.session = some session then [.left name] else []
  | .lookup _ | .list => []

/-- **One command.** The announcement is published and nothing else.  The names in the table are
    what it makes of them, and without one the registry stays as it was. -/
theorem handle_announces (r : Registry) (command : RegistryCommand) :
    (r.handle command).1.events = r.events ++ announcement r.owner? command ∧
      (r.handle command).1.owners.map Prod.fst =
        (announcement r.owner? command).foldl retell (r.owners.map Prod.fst) ∧
      (announcement r.owner? command = [] → (r.handle command).1 = r) := by
  cases command with
  | register name owner =>
    cases hown : r.owner? name with
    | some other => simp [announcement, handle, register, hown]
    | none => simp [announcement, handle, register, hown, retell]
  | deregister name session =>
    cases hown : r.owner? name with
    | none => simp [announcement, handle, deregister, hown]
    | some owner =>
      by_cases hsession : owner.session = session
      · simp [announcement, handle, deregister, hown, hsession, retell, List.filter_map,
          Function.comp_def]
      · simp [announcement, handle, deregister, hown, hsession]
  | lookup | list => simp [announcement, handle]

/-! ### The table and the events -/

/-- **The table is what the events tell.** -/
structure Told (r : Registry) : Prop where
  /-- No name is in the table twice. -/
  distinct : r.Distinct
  /-- The names in the table are those that the events leave. -/
  rebuilt : r.events.foldl retell [] = r.owners.map Prod.fst
  /-- The events about a name go by turns, and the name is owned if the last turn was to join. -/
  turns : ∀ name, ∃ n, r.events.filter (fun event => event.name = name) =
    (List.range n).map (turn name) ∧ (r.contains name ↔ n % 2 = 1)

/-- The announcement at a command is about the name of the command. -/
theorem announcement_of_other {own : String → Option Owner} {command : RegistryCommand}
    (hname : ¬ command.name? = some name) :
    (announcement own command).filter (fun event => event.name = name) = [] := by
  cases command with
  | register other owner | deregister other session =>
    have hother : other ≠ name := fun h => hname (congrArg some h)
    rw [announcement]
    split <;> simp [RegistryEvent.name, hother]
  | lookup | list => rfl

/-- Who is spoken of has its turn, and the owners of the other names are as they were. -/
theorem turn_of_announcement (h : r.Distinct) (command : RegistryCommand) (name : String) {n : Nat}
    (hturn : r.contains name ↔ n % 2 = 1) :
    ((announcement r.owner? command).filter (fun event => event.name = name) = [turn name n] ∧
        ((r.handle command).1.contains name ↔ (n + 1) % 2 = 1)) ∨
      ((announcement r.owner? command).filter (fun event => event.name = name) = [] ∧
        (r.handle command).1.contains name = r.contains name) := by
  have hserves := serves_handle h command
  rw [contains] at hturn
  rw [contains, contains]
  generalize (r.handle command).2 = reply at hserves
  generalize (r.handle command).1.owner? = own at hserves
  generalize r.owner? = before at hserves hturn
  by_cases hname : command.name? = some name
  · cases hserves with
    | give hfree =>
      cases hname
      refine .inl ?_
      have heven : n % 2 = 0 := by
        rw [hfree] at hturn
        simp at hturn
        omega
      simp [announcement, hfree, turn, heven, RegistryEvent.name]
      omega
    | giveBack hown hsession =>
      cases hname
      refine .inl ?_
      have hodd : n % 2 = 1 := by simpa [hown] using hturn
      simp [announcement, hown, hsession, turn, hodd, RegistryEvent.name]
      omega
    | refuse hown =>
      cases hname
      exact .inr ⟨by simp [announcement, hown], rfl⟩
    | keep hother =>
      cases hname
      refine .inr ⟨?_, rfl⟩
      rw [announcement, if_neg, List.filter_nil]
      rw [Option.map_eq_some_iff]
      rintro ⟨owner, hown, hsession⟩
      exact hother owner hown hsession
    | lookup => exact .inr ⟨rfl, rfl⟩
    | list => cases hname
  · exact .inr ⟨announcement_of_other hname, by rw [hserves.frame hname]⟩

/-- **Step.** A command keeps the table and the events together. -/
theorem Told.handle (h : r.Told) (command : RegistryCommand) : (r.handle command).1.Told := by
  obtain ⟨hevents, hnames, -⟩ := handle_announces r command
  refine ⟨h.distinct.handle command, ?_, fun name => ?_⟩
  · rw [hevents, List.foldl_append, h.rebuilt, hnames]
  · obtain ⟨n, hturns, hturn⟩ := h.turns name
    rw [hevents, List.filter_append, hturns]
    rcases turn_of_announcement h.distinct command name hturn with ⟨hnew, hturn'⟩ | ⟨hnone, hsame⟩
    · refine ⟨n + 1, ?_, hturn'⟩
      rw [hnew, List.range_succ, List.map_append, List.map_singleton]
    · exact ⟨n, by rw [hnone, List.append_nil], by rw [hsame, hturn]⟩

/-- **Run.** So does every row of commands. -/
theorem Told.handleAll (h : r.Told) (commands : List RegistryCommand) :
    (r.handleAll commands).Told := by
  induction commands generalizing r with
  | nil => exact h
  | cons command commands ih => exact ih (h.handle command)

theorem told_empty : Told {} :=
  ⟨List.nodup_nil, rfl, fun _ => ⟨0, rfl, by simp [contains, owner?]⟩⟩

/-- The listed names are those that the events tell. -/
theorem Told.names_eq (h : r.Told) : r.names = namesTold r.events := by
  rw [namesTold, h.rebuilt, names]

/-! ### A subscriber -/

/-- What a subscriber is told who looks again after each of several rows of commands. -/
def looks (r : Registry) : List (List RegistryCommand) → List (News RegistryEvent)
  | [] => []
  | commands :: rows =>
    (r.handleAll commands).eventsSince r.events.length :: looks (r.handleAll commands) rows

/-- What was published stays published. -/
theorem events_prefix_handleAll (r : Registry) (commands : List RegistryCommand) :
    r.events <+: (r.handleAll commands).events := by
  induction commands generalizing r with
  | nil => exact List.prefix_rfl
  | cons command commands ih =>
    refine .trans ?_ (ih (r.handle command).1)
    rw [(handle_announces r command).1]
    exact List.prefix_append _ _

/-- Who has missed nothing was told everything, each event once and in order. -/
theorem items_looks (r : Registry) (rows : List (List RegistryCommand))
    (h : ∀ news ∈ r.looks rows, news.missed = 0) :
    r.events ++ (r.looks rows).flatMap News.items = (r.handleAll rows.flatten).events := by
  induction rows generalizing r with
  | nil => exact List.append_nil _
  | cons commands rows ih =>
    obtain ⟨new, hnew⟩ := events_prefix_handleAll r commands
    rw [looks, List.forall_mem_cons] at h
    obtain ⟨hmissed, hrest⟩ := h
    have hitems : ((r.handleAll commands).eventsSince r.events.length).items = new := by
      have hnone : (r.handleAll commands).events.length - keptEvents - r.events.length = 0 :=
        hmissed
      rw [eventsSince, News.since, hnone, Nat.add_zero, ← hnew]
      exact List.drop_left
    rw [looks, List.flatMap_cons, hitems, ← List.append_assoc, hnew, ih _ hrest,
      List.flatten_cons, Registry.handleAll, Registry.handleAll, Registry.handleAll,
      List.foldl_append]

/-! ### Rows of commands -/

/-- **The events replay the table**, for a row of commands to a registry without names. -/
structure Replays (commands : List RegistryCommand) : Prop where
  /-- At each command of the row its announcement is published and nothing else, and nothing is
      changed without one. -/
  announced : ∀ before command after, commands = before ++ command :: after →
    let r := handleAll {} before
    (r.handle command).1.events = r.events ++ announcement r.owner? command ∧
      (announcement r.owner? command = [] → (r.handle command).1 = r)
  /-- The events about a name are: joined, left, joined and so on. -/
  alternating : ∀ name, ∃ n,
    (handleAll {} commands).events.filter (fun event => event.name = name) =
      (List.range n).map (turn name)
  /-- The names whose last event is that they joined are those that are owned. -/
  current : {name | lastAbout? (handleAll {} commands).events name = some (.joined name)} =
    {name | (handleAll {} commands).contains name}
  /-- A list is what the events make of no names. -/
  listed : ((handleAll {} commands).handle .list).2 =
    .names (namesTold (handleAll {} commands).events)
  /-- A subscriber from the start who looks from time to time and misses nothing has that list. -/
  followed : ∀ rows : List (List RegistryCommand), rows.flatten = commands →
    (∀ news ∈ looks {} rows, news.missed = 0) →
    ((handleAll {} commands).handle .list).2 =
      .names (namesTold ((looks {} rows).flatMap News.items))

/-- **All rows of commands**, and so at every point of each of them. -/
theorem events_replay (commands : List RegistryCommand) : Replays commands := by
  have htold := told_empty.handleAll commands
  have hlisted : ((handleAll {} commands).handle .list).2 =
      .names (namesTold (handleAll {} commands).events) :=
    congrArg RegistryReply.names htold.names_eq
  refine ⟨?_, fun name => ?_, ?_, hlisted, ?_⟩
  · intro before command after _
    obtain ⟨hevents, -, hquiet⟩ := handle_announces (Registry.handleAll {} before) command
    exact ⟨hevents, hquiet⟩
  · obtain ⟨n, hturns, -⟩ := htold.turns name
    exact ⟨n, hturns⟩
  · ext name
    obtain ⟨n, hturns, hturn⟩ := htold.turns name
    rw [Set.mem_ofPred_eq, Set.mem_ofPred_eq, lastAbout?_of_turns hturns, hturn]
  · rintro rows rfl hmissed
    rw [hlisted, ← items_looks {} rows hmissed]
    rfl

/-- Nobody is told of a name that was refused or that a stranger tried to give back. -/
example : (handleAll {} [.register "al" ⟨0, 0⟩, .register "al" ⟨1, 1⟩, .deregister "al" 1,
    .deregister "al" 0, .deregister "al" 0, .register "al" ⟨1, 1⟩]).events =
      [.joined "al", .left "al", .joined "al"] := by decide

end Registry

end Reckoner
