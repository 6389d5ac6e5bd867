import Reckoner.Proofs.Registry.Owners
import Reckoner.Proofs.Text.ByteOrder
import Mathlib.Data.Set.Card
import Mathlib.Logic.Function.Basic

/-!
# First come, first served

The registry against a reference in which every name is on its own: free, or owned by one session.

* `Registry.Serves`, `Registry.ServesAll` — the reference: what is replied to a command, and who
  owns what then.
* `Registry.exchanges`, `Registry.handleAll` — a row of commands with the replies, and the registry
  after it.
* `Registry.serves_handle` — one command: the registry does what the reference does.
* `Registry.Serves.frame`, `Registry.Serves.agree` — a command touches no name but its own, and only
  the owner of that name decides about the reply.
* `Registry.Holds` — the last grant of a name that its owner has not undone.
* `Registry.FirstCome`, `Registry.firstCome` — all rows of commands.
-/

namespace Reckoner

/-- The name that a command is about; the list is about no name more than about others. -/
def RegistryCommand.name? : RegistryCommand → Option String
  | register name _ => some name
  | deregister name _ => some name
  | lookup name => some name
  | list => none

namespace Registry

/-- A command with the reply to it. -/
abbrev Exchange := RegistryCommand × RegistryReply

/-- The registry after a row of commands. -/
def handleAll (r : Registry) (commands : List RegistryCommand) : Registry :=
  commands.foldl (fun r command => (r.handle command).1) r

/-- The commands of a row, each with the reply to it. -/
def exchanges (r : Registry) : List RegistryCommand → List Exchange
  | [] => []
  | command :: commands =>
    (command, (r.handle command).2) :: exchanges (r.handle command).1 commands

/-! ### The reference -/

/-- **The reference.** Who owns what before a command, the reply to it, and who owns what then. -/
inductive Serves (own : String → Option Owner) :
    RegistryCommand → RegistryReply → (String → Option Owner) → Prop
  /-- A free name is given. -/
  | give {name owner} : own name = none →
      Serves own (.register name owner) (.registered (.ok ()))
        (Function.update own name (some owner))
  /-- A name that is owned is given to nobody, not even to its owner. -/
  | refuse {name owner other} : own name = some other →
      Serves own (.register name owner) (.registered (.error (.nameTaken name))) own
  /-- The session that owns a name gives it back. -/
  | giveBack {name session owner} : own name = some owner → owner.session = session →
      Serves own (.deregister name session) (.deregistered true) (Function.update own name none)
  /-- No other session does. -/
  | keep {name session} : (∀ owner, own name = some owner → owner.session ≠ session) →
      Serves own (.deregister name session) (.deregistered false) own
  /-- The owner of a name is told. -/
  | lookup {name} : Serves own (.lookup name) (.owner (own name)) own
  /-- The names that are owned are listed, each once, in the order of their bytes. -/
  | list {names} : names.Pairwise (fun a b => utf8 a < utf8 b) →
      (∀ name, name ∈ names ↔ (own name).isSome) →
      Serves own .list (.names names) own

/-- The reference goes through a row of exchanges. -/
inductive ServesAll : (String → Option Owner) → List Exchange → (String → Option Owner) → Prop
  | nil {own} : ServesAll own [] own
  | cons {own command reply own' exchanges own''} : Serves own command reply own' →
      ServesAll own' exchanges own'' → ServesAll own ((command, reply) :: exchanges) own''

variable {r : Registry} {name : String} {owner : Owner} {session : Nat}
  {command : RegistryCommand} {reply : RegistryReply} {own own' : String → Option Owner}

/-- A command touches no name but its own. -/
theorem Serves.frame (h : Serves own command reply own') (hname : command.name? ≠ some name) :
    own' name = own name := by
  cases h with
  | give hfree =>
    rw [Function.update_of_ne]
    rintro rfl
    exact hname rfl
  | giveBack hown hsession =>
    rw [Function.update_of_ne]
    rintro rfl
    exact hname rfl
  | refuse | keep | lookup | list => rfl

/-- What becomes of a name and what is replied to a command about it depends on the owner of this
    name only. -/
theorem Serves.agree {own₁ own₂ own₁' own₂' : String → Option Owner}
    {reply₁ reply₂ : RegistryReply} (h₁ : Serves own₁ command reply₁ own₁')
    (h₂ : Serves own₂ command reply₂ own₂') (hname : command.name? = some name)
    (hsame : own₁ name = own₂ name) :
    reply₁ = reply₂ ∧ own₁' name = own₂' name := by
  cases h₁ with
  | give hfree =>
    cases hname
    cases h₂ with
    | give => exact ⟨rfl, by rw [Function.update_self, Function.update_self]⟩
    | refuse hown => rw [hsame, hown] at hfree; cases hfree
  | refuse hown =>
    cases hname
    cases h₂ with
    | give hfree => rw [hsame, hfree] at hown; cases hown
    | refuse => exact ⟨rfl, hsame⟩
  | giveBack hown hsession =>
    cases hname
    cases h₂ with
    | giveBack => exact ⟨rfl, by rw [Function.update_self, Function.update_self]⟩
    | keep hother => exact absurd hsession (hother _ (hsame ▸ hown))
  | keep hother =>
    cases hname
    cases h₂ with
    | giveBack hown hsession => exact absurd hsession (hother _ (hsame ▸ hown))
    | keep => exact ⟨rfl, hsame⟩
  | lookup =>
    cases hname
    cases h₂
    exact ⟨congrArg RegistryReply.owner hsame, hsame⟩
  | list => cases hname

/-- To every command there is one reply. -/
theorem Serves.unique {reply₁ reply₂ : RegistryReply} {own₁ own₂ : String → Option Owner}
    (h₁ : Serves own command reply₁ own₁) (h₂ : Serves own command reply₂ own₂) :
    reply₁ = reply₂ ∧ own₁ = own₂ := by
  cases hcommand : command.name? with
  | some name =>
    obtain ⟨hreply, -⟩ := h₁.agree h₂ hcommand rfl
    refine ⟨hreply, funext fun other => ?_⟩
    by_cases hother : command.name? = some other
    · exact (h₁.agree h₂ hother rfl).2
    · rw [h₁.frame hother, h₂.frame hother]
  | none =>
    cases h₁ with
    | list hincreasing₁ hmem₁ =>
      cases h₂ with
      | list hincreasing₂ hmem₂ =>
        have : Std.Antisymm fun a b => utf8 a < utf8 b :=
          ⟨fun _ _ hab hba => absurd hba (List.lt_asymm hab)⟩
        have : Std.Irrefl fun a b => utf8 a < utf8 b := ⟨fun _ => List.lt_irrefl _⟩
        have hnames := hincreasing₁.eq_of_mem_iff hincreasing₂ fun name => by rw [hmem₁, hmem₂]
        exact ⟨congrArg RegistryReply.names hnames, rfl⟩
    | give | refuse | giveBack | keep | lookup => cases hcommand

/-! ### One command -/

theorem mem_names : name ∈ r.names ↔ r.contains name := by
  rw [names, List.mem_mergeSort, contains, Option.isSome_iff_ne_none, ne_eq, owner?_eq_none_iff]
  constructor
  · rintro hmem hno
    obtain ⟨⟨_, owner⟩, hentry, rfl⟩ := List.mem_map.mp hmem
    exact hno owner hentry
  · intro hsome
    by_contra hmem
    exact hsome fun owner hentry => hmem (List.mem_map_of_mem hentry)

/-- The names are listed in order, and none twice. -/
theorem Distinct.names_increasing (h : r.Distinct) :
    r.names.Pairwise fun a b => utf8 a < utf8 b := by
  have hsorted : r.names.Pairwise fun a b => (!decide (b < a)) = true := by
    refine List.pairwise_mergeSort (fun a b c hab hbc => ?_) (fun a b => ?_) _
    · simp only [Bool.not_eq_true', decide_eq_false_iff_not, not_lt] at *
      exact hab.trans hbc
    · simp only [Bool.or_eq_true, Bool.not_eq_true', decide_eq_false_iff_not, not_lt]
      exact le_total a b
  have hdistinct : r.names.Nodup := (List.mergeSort_perm _ _).nodup_iff.mpr h
  refine (hsorted.and hdistinct).imp fun {a b} hab => utf8_lt_utf8 ?_
  have hle : ¬ b < a := by simpa only [Bool.not_eq_true', decide_eq_false_iff_not] using hab.1
  exact lt_of_le_of_ne (not_lt.mp hle) hab.2

/-- A name that is given is owned from then on, and the others are as they were. -/
theorem owner?_append (hfree : r.owner? name = none) (events : List RegistryEvent) :
    owner? ⟨r.owners ++ [(name, owner)], events⟩ = Function.update r.owner? name (some owner) := by
  funext other
  rw [owner?, List.lookup_append]
  show (r.owner? other).or _ = _
  by_cases hother : other = name
  · subst hother
    rw [hfree, Function.update_self, Option.none_or, List.lookup_cons_self]
  · rw [Function.update_of_ne hother, List.lookup_cons, beq_eq_false_iff_ne.mpr hother]
    exact Option.or_none

/-- A name that is given back is free from then on, and the others are as they were. -/
theorem owner?_filter (r : Registry) (name : String) (events : List RegistryEvent) :
    owner? ⟨r.owners.filter fun (other, _) => other ≠ name, events⟩ =
      Function.update r.owner? name none := by
  funext other
  by_cases hother : other = name
  · subst hother
    rw [Function.update_self, owner?_eq_none_iff]
    intro owner hmem
    simpa using (List.mem_filter.mp hmem).2
  · rw [Function.update_of_ne hother, owner?, owner?]
    dsimp only
    induction r.owners with
    | nil => rfl
    | cons entry owners ih =>
      by_cases hentry : entry.1 = name
      · have hne : (other == entry.1) = false := by
          rw [beq_eq_false_iff_ne, hentry]
          exact hother
        rw [List.filter_cons_of_neg (by simpa using hentry), ih, List.lookup_cons, hne]
      · rw [List.filter_cons_of_pos (by simpa using hentry), List.lookup_cons, List.lookup_cons, ih]

/-- **One command.** The registry does what the reference does. -/
theorem serves_handle (h : r.Distinct) (command : RegistryCommand) :
    Serves r.owner? command (r.handle command).2 (r.handle command).1.owner? := by
  cases command with
  | register name owner =>
    cases hown : r.owner? name with
    | some other =>
      rw [show r.handle (.register name owner) = (r, .registered (.error (.nameTaken name))) by
        simp only [handle, register, hown]]
      exact .refuse hown
    | none =>
      rw [show r.handle (.register name owner) =
          (⟨r.owners ++ [(name, owner)], r.events ++ [.joined name]⟩, .registered (.ok ())) by
        simp only [handle, register, hown]]
      rw [owner?_append hown]
      exact .give hown
  | deregister name session =>
    cases hown : r.owner? name with
    | none =>
      rw [show r.handle (.deregister name session) = (r, .deregistered false) by
        simp only [handle, deregister, hown]]
      refine .keep fun owner howner => ?_
      rw [hown] at howner
      cases howner
    | some owner =>
      by_cases hsession : owner.session = session
      · rw [show r.handle (.deregister name session) =
            (⟨r.owners.filter fun (other, _) => other ≠ name, r.events ++ [.left name]⟩,
              .deregistered true) by
          simp only [handle, deregister, hown, if_pos hsession]]
        rw [owner?_filter]
        exact .giveBack hown hsession
      · rw [show r.handle (.deregister name session) = (r, .deregistered false) by
          simp only [handle, deregister, hown, if_neg hsession]]
        refine .keep fun owner' howner => ?_
        cases hown.symm.trans howner
        exact hsession
  | lookup name => exact .lookup
  | list => exact .list h.names_increasing fun name => mem_names

/-- No command puts a name into the table twice. -/
theorem Distinct.handle (h : r.Distinct) (command : RegistryCommand) :
    (r.handle command).1.Distinct := by
  cases command with
  | register name owner =>
    rcases handle_register r name owner with ⟨other, e, -, hhandle⟩ | ⟨hfree, r', hhandle, howners⟩
    · rw [hhandle]
      exact h
    · rw [hhandle]
      show (r'.owners.map Prod.fst).Nodup
      rw [howners]
      exact h.append hfree
  | deregister name session =>
    unfold Registry.handle
    dsimp only
    split
    · rename_i r' hr'
      unfold deregister at hr'
      split at hr'
      · split at hr'
        · cases hr'
          exact h.filter _
        · cases hr'
      · cases hr'
    · exact h
  | lookup name => exact h
  | list => exact h

/-! ### What was granted -/

/-- The name was given to this owner. -/
def granted (name : String) (owner : Owner) : Exchange :=
  (.register name owner, .registered (.ok ()))

/-- The session gave the name back. -/
def givenBack (name : String) (session : Nat) : Exchange :=
  (.deregister name session, .deregistered true)

/-- The name was given to nobody, and this owner did not give it back. -/
def Undisturbed (history : List Exchange) (name : String) (owner : Owner) : Prop :=
  (∀ other, granted name other ∉ history) ∧ givenBack name owner.session ∉ history

/-- **The last grant.** The name was given to this owner, since then to nobody, and its owner has
    not given it back. -/
def Holds (history : List Exchange) (name : String) (owner : Owner) : Prop :=
  ∃ before after, history = before ++ granted name owner :: after ∧ Undisturbed after name owner

theorem undisturbed_cons {exchange : Exchange} {history : List Exchange} :
    Undisturbed (exchange :: history) name owner ↔
      Undisturbed [exchange] name owner ∧ Undisturbed history name owner := by
  simp only [Undisturbed, List.mem_cons, List.not_mem_nil, or_false, not_or, forall_and]
  exact and_and_and_comm

theorem holds_cons {exchange : Exchange} {history : List Exchange} :
    Holds (exchange :: history) name owner ↔
      Holds history name owner ∨
        exchange = granted name owner ∧ Undisturbed history name owner := by
  constructor
  · rintro ⟨before, after, hhistory, hafter⟩
    cases before with
    | nil =>
      obtain ⟨rfl, rfl⟩ := List.cons.inj hhistory
      exact .inr ⟨rfl, hafter⟩
    | cons _ before =>
      obtain ⟨rfl, rfl⟩ := List.cons.inj hhistory
      exact .inl ⟨before, after, rfl, hafter⟩
  · rintro (⟨before, after, rfl, hafter⟩ | ⟨rfl, hhistory⟩)
    · exact ⟨exchange :: before, after, rfl, hafter⟩
    · exact ⟨[], history, rfl, hhistory⟩

/-- The owner of a name was given it just now, or had it and was not disturbed. -/
theorem Serves.owner_iff (h : Serves own command reply own') :
    own' name = some owner ↔
      (command, reply) = granted name owner ∨
        own name = some owner ∧ Undisturbed [(command, reply)] name owner := by
  simp only [Undisturbed, List.mem_singleton]
  by_cases hname : command.name? = some name
  · -- A command about this name: the new owner is read off.
    cases h with
    | give hfree =>
      cases hname
      rw [Function.update_self, hfree]
      constructor
      · intro howner
        cases howner
        exact .inl rfl
      · rintro (heq | ⟨hnone, -⟩)
        · cases heq
          rfl
        · cases hnone
    | refuse hown =>
      cases hname
      refine ⟨fun howner => .inr ⟨howner, fun _ => nofun, nofun⟩, ?_⟩
      rintro (heq | ⟨howner, -⟩)
      · cases heq
      · exact howner
    | giveBack hown hsession =>
      cases hname
      rw [Function.update_self, hown]
      constructor
      · exact nofun
      · rintro (heq | ⟨howner, -, hkept⟩)
        · cases heq
        · cases howner
          subst hsession
          exact absurd rfl hkept
    | keep | lookup =>
      cases hname
      refine ⟨fun howner => .inr ⟨howner, fun _ => nofun, nofun⟩, ?_⟩
      rintro (heq | ⟨howner, -⟩)
      · cases heq
      · exact howner
    | list => cases hname
  · -- A command that is not: nothing about this name has happened.
    rw [h.frame hname]
    constructor
    · intro howner
      refine .inr ⟨howner, fun other heq => ?_, fun heq => ?_⟩ <;>
      · cases heq
        exact hname rfl
    · rintro (heq | ⟨howner, -⟩)
      · cases heq
        exact absurd rfl hname
      · exact howner

/-- **Look-up.** Who owns a name holds it by the last grant, or owned it before all and was not
    disturbed. -/
theorem ServesAll.owner_iff {history : List Exchange} (h : ServesAll own history own') :
    own' name = some owner ↔
      Holds history name owner ∨ own name = some owner ∧ Undisturbed history name owner := by
  induction h with
  | nil =>
    constructor
    · exact fun howner => .inr ⟨howner, fun _ => List.not_mem_nil, List.not_mem_nil⟩
    · rintro (⟨_, _, hempty, -⟩ | ⟨howner, -⟩)
      · exact absurd hempty (by simp)
      · exact howner
  | @cons _ command reply _ history _ hserves _ ih =>
    have hcons : Undisturbed ((command, reply) :: history) name owner ↔
        Undisturbed [(command, reply)] name owner ∧ Undisturbed history name owner :=
      undisturbed_cons
    rw [ih, hserves.owner_iff, holds_cons, hcons, or_and_right, or_assoc, and_assoc]

/-! ### Rows of commands -/

theorem Distinct.handleAll (h : r.Distinct) (commands : List RegistryCommand) :
    (r.handleAll commands).Distinct := by
  induction commands generalizing r with
  | nil => exact h
  | cons command commands ih => exact ih (h.handle command)

/-- The replies to a row of commands are those of the reference. -/
theorem servesAll_exchanges (h : r.Distinct) (commands : List RegistryCommand) :
    ServesAll r.owner? (r.exchanges commands) (r.handleAll commands).owner? := by
  induction commands generalizing r with
  | nil => exact .nil
  | cons command commands ih => exact .cons (serves_handle h command) (ih (h.handle command))

/-- The reference has no other replies. -/
theorem eq_exchanges_of_servesAll (h : r.Distinct) {history : List Exchange}
    (hserves : ServesAll r.owner? history own) : history = r.exchanges (history.map Prod.fst) := by
  generalize hown : r.owner? = own₀ at hserves
  induction hserves generalizing r with
  | nil => rfl
  | cons hfirst _ ih =>
    subst hown
    obtain ⟨hreply, howners⟩ := hfirst.unique (serves_handle h _)
    rw [List.map_cons, exchanges, ← hreply, ← ih (h.handle _) howners.symm]

/-- Two registries that agree about one name reply the same to commands about it, also if all other
    commands are left out in one of them. -/
theorem exchanges_filter {r₁ r₂ : Registry} (h₁ : r₁.Distinct) (h₂ : r₂.Distinct)
    (hsame : r₁.owner? name = r₂.owner? name) (commands : List RegistryCommand) :
    (r₁.exchanges commands).filter (fun exchange => exchange.1.name? = some name) =
      r₂.exchanges (commands.filter fun command => command.name? = some name) := by
  induction commands generalizing r₁ r₂ with
  | nil => rfl
  | cons command commands ih =>
    rw [exchanges]
    by_cases hname : command.name? = some name
    · obtain ⟨hreply, hsame⟩ :=
        (serves_handle h₁ command).agree (serves_handle h₂ command) hname hsame
      rw [List.filter_cons_of_pos (by simpa using hname),
        List.filter_cons_of_pos (by simpa using hname), exchanges, hreply,
        ih (h₁.handle command) (h₂.handle command) hsame]
    · rw [List.filter_cons_of_neg (by simpa using hname),
        List.filter_cons_of_neg (by simpa using hname)]
      refine ih (h₁.handle command) h₂ ?_
      rw [(serves_handle h₁ command).frame hname, hsame]

/-- The list has as many entries as there are names that are owned. -/
theorem Distinct.encard_contains (h : r.Distinct) :
    {name | r.contains name}.encard = r.names.length := by
  have hnodup : r.names.Nodup := (List.mergeSort_perm _ _).nodup_iff.mpr h
  have hset : {name | r.contains name} = (r.names.toFinset : Set String) := by
    ext name
    rw [List.coe_toFinset, Set.mem_ofPred_eq, Set.mem_ofPred_eq, mem_names]
  rw [hset, Set.encard_coe_eq_coe_finsetCard, List.toFinset_card_of_nodup hnodup]

/-- **First come, first served**, for a row of commands to a registry without names. -/
structure FirstCome (commands : List RegistryCommand) : Prop where
  /-- The replies are those of the reference in which every name is on its own. -/
  served : ServesAll (fun _ => none) (exchanges {} commands) (handleAll {} commands).owner?
  /-- The reference has no other replies. -/
  only : ∀ history own, ServesAll (fun _ => none) history own → history.map Prod.fst = commands →
    history = exchanges {} commands
  /-- A look-up then finds who holds the name by the last grant that was not undone. -/
  found : ∀ name owner, (handle (handleAll {} commands) (.lookup name)).2 = .owner (some owner) ↔
    Holds (exchanges {} commands) name owner
  /-- A list then has as many entries as there are names that are owned. -/
  counted : {name | (handleAll {} commands).contains name}.encard =
    (handleAll {} commands).names.length
  /-- The replies about a name are the same without the commands that are not about it. -/
  alone : ∀ name,
    (exchanges {} commands).filter (fun exchange => exchange.1.name? = some name) =
      exchanges {} (commands.filter fun command => command.name? = some name)

/-- **All rows of commands.** -/
theorem firstCome (commands : List RegistryCommand) : FirstCome commands := by
  have hempty : Distinct {} := List.nodup_nil
  have hserved := servesAll_exchanges hempty commands
  refine ⟨hserved, ?_, ?_, (hempty.handleAll commands).encard_contains, ?_⟩
  · rintro history own hserves rfl
    exact eq_exchanges_of_servesAll hempty hserves
  · intro name owner
    have howner : (handleAll {} commands).owner? name = some owner ↔
        Holds (exchanges {} commands) name owner ∨
          owner? {} name = some owner ∧ Undisturbed (exchanges {} commands) name owner :=
      hserved.owner_iff
    -- Nobody owns anything at first.
    have hnone : owner? {} name ≠ some owner := nofun
    rw [or_iff_left fun h => hnone h.1] at howner
    rw [← howner]
    exact RegistryReply.owner.injEq _ _ ▸ Iff.rfl
  · exact fun name => exchanges_filter hempty hempty rfl commands

/-- A session that gives back a name which is another's by now takes nothing from it. -/
example : (handleAll {} [.register "al" ⟨0, 0⟩, .deregister "al" 0, .register "al" ⟨1, 1⟩,
    .deregister "al" 0]).owner? "al" = some ⟨1, 1⟩ := by decide

end Registry

end Reckoner
