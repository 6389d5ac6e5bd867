import Reckoner.Proofs.Service.Breakage
import Reckoner.Proofs.Service.Drain
import Reckoner.Proofs.Session.Waiting

/-!
# The time limit for a line

A client has so much time for a line, counted from the moment from which its session waits for it.
It cannot gain any by sending the line in small pieces, and it loses none while the session is busy.

* `Service.Waits`, `Service.IsRoused` — the session of a connection waits, or need not any more.
* `Service.Lasts`, `Service.Passes`, `Service.Waits.passes` — what one move does to a wait.
* `Service.Outcome`, `Service.Waits.outcome` — what becomes of a wait in a run.
* `Service.Punctual`, `Service.punctual_of_deadline?` — a clock that does not go past a session that
  waits.
* `Service.Limited`, `Service.waits_limited` — the time limit, for every run.
-/

namespace Reckoner

/-- The session of a connection has a turn. -/
def Move.isTurnOf (i : Nat) : Move → Bool
  | .handler k => k = i
  | _ => false

theorem Move.isTurnOf_iff {i : Nat} {m : Move} : m.isTurnOf i = true ↔ m = .handler i := by
  cases m <;> simp [isTurnOf]

namespace Service

variable {s : Service} {m : Move} {i since : Nat} {handled : List String}
  {session session' : Session} {out out' : Channel} {limits : SessionLimits} {queueCapacity : Nat}

/-! ### Waits -/

/-- The session of the connection has handled these lines, and waits for the next since the given
    time. -/
def Waits (s : Service) (i since : Nat) (handled : List String) : Prop :=
  ∃ session, s.session? i = some session ∧ session.Waits since handled

/-- It has handled these lines, and has waited for too long for the next. -/
def TimedOut (s : Service) (i : Nat) (handled : List String) : Prop :=
  ∃ session, s.session? i = some session ∧ session.TimedOut s.limits handled

/-- It has handled more than these lines, or it ends for something else. -/
def MovedOn (s : Service) (i : Nat) (handled : List String) : Prop :=
  ∃ session, s.session? i = some session ∧ session.MovedOn s.limits handled

/-- Something has roused it. -/
def IsRoused (s : Service) (i : Nat) : Prop :=
  ∃ session out, s.Has i session out ∧ session.Roused s.outlook out

/-- How many bytes of a line it has put together. -/
def begun (s : Service) (i : Nat) : Nat :=
  ((s.session? i).map fun session => session.input.line.length).getD 0

theorem begun_of_has (h : s.Has i session out) : s.begun i = session.input.line.length := by
  rw [begun, (has_iff.mp h).1]
  rfl

theorem isRoused_iff (h : s.Has i session out) : s.IsRoused i ↔ session.Roused s.outlook out := by
  refine ⟨?_, fun hroused => ⟨session, out, h, hroused⟩⟩
  rintro ⟨session', out', h', hroused⟩
  obtain ⟨rfl, rfl⟩ := h.unique h'
  exact hroused

/-- A session that waits has not waited for too long. -/
theorem Waits.not_timedOut (h : s.Waits i since handled) : ¬ s.TimedOut i handled := by
  rintro ⟨session, hsession, hends, -⟩
  obtain ⟨session', hsession', hphase, -⟩ := h
  cases hsession.symm.trans hsession'
  simp [Session.end?, hphase] at hends

/-- It has not gone on to something else either. -/
theorem Waits.not_movedOn (h : s.Waits i since handled) : ¬ s.MovedOn i handled := by
  rintro ⟨session, hsession, hlonger | ⟨e, hend, -⟩⟩ <;>
    obtain ⟨session', hsession', hphase, hhandled⟩ := h <;>
    cases hsession.symm.trans hsession'
  · exact absurd hlonger (by rw [hhandled]; exact Nat.lt_irrefl _)
  · simp [Session.end?, hphase] at hend

theorem TimedOut.not_movedOn (h : s.TimedOut i handled) : ¬ s.MovedOn i handled := by
  rintro ⟨session, hsession, hlonger | ⟨e, hend, hother⟩⟩ <;>
    obtain ⟨session', hsession', hends, hhandled⟩ := h <;>
    cases hsession.symm.trans hsession'
  · exact absurd hlonger (by rw [hhandled]; exact Nat.lt_irrefl _)
  · cases hend.symm.trans hends
    exact hother rfl

/-! ### What stays so -/

theorem limits_applyAll (s : Service) (moves : List Move) :
    (s.applyAll moves).limits = s.limits :=
  applyAll_induction (P := fun t => t.limits = s.limits)
    (fun m h => (limits_apply _ m).trans h) rfl moves

/-- A session handles lines one by one, and none once it ends. -/
theorem Befalls.handled_cases (h : s.Befalls i session out m session' out') :
    session'.handled = session.handled ∨
      session.end? = Option.none ∧ ∃ line, session'.handled = session.handled ++ [line] := by
  cases h with
  | step hstep => exact hstep.handled_cases
  | hear reply => exact .inl (session.hears_hear reply).handled
  | reply | carryOn | giveUp | arrive | finish | pipe | none => exact .inl rfl

/-- Too late is too late. -/
theorem TimedOut.apply (h : s.TimedOut i handled) (m : Move) : (s.apply m).TimedOut i handled := by
  obtain ⟨session, hsession, hends, hhandled⟩ := h
  obtain ⟨out, hhas⟩ := has_of_session? hsession
  obtain ⟨session', out', hafter, hbefalls⟩ := befalls_of_apply hhas m
  refine ⟨session', (has_iff.mp hafter).1, ?_, ?_⟩
  · rw [limits_apply]
    exact hbefalls.end? hends
  · rcases hbefalls.handled_cases with hsame | ⟨hloop, -⟩
    · exact hsame.trans hhandled
    · cases hloop.symm.trans hends

/-- What is done is done. -/
theorem MovedOn.apply (h : s.MovedOn i handled) (m : Move) : (s.apply m).MovedOn i handled := by
  obtain ⟨session, hsession, hmoved⟩ := h
  obtain ⟨out, hhas⟩ := has_of_session? hsession
  obtain ⟨session', out', hafter, hbefalls⟩ := befalls_of_apply hhas m
  refine ⟨session', (has_iff.mp hafter).1, ?_⟩
  rw [limits_apply]
  rcases hmoved with hlonger | ⟨e, hend, hother⟩
  · left
    rcases hbefalls.handled_cases with hsame | ⟨-, line, hmore⟩
    · rwa [hsame]
    · rw [hmore, List.length_append]
      omega
  · exact .inr ⟨e, hbefalls.end? hend, hother⟩

theorem TimedOut.applyAll (h : s.TimedOut i handled) (moves : List Move) :
    (s.applyAll moves).TimedOut i handled :=
  applyAll_induction (P := fun s => s.TimedOut i handled) (fun m h => h.apply m) h moves

theorem MovedOn.applyAll (h : s.MovedOn i handled) (moves : List Move) :
    (s.applyAll moves).MovedOn i handled :=
  applyAll_induction (P := fun s => s.MovedOn i handled) (fun m h => h.apply m) h moves

/-- In every state that a service can get into, the line that a session has begun has no line feed,
    and room for more. -/
theorem framed_of_reachable (h : Reachable limits queueCapacity s) (hhas : s.Has i session out) :
    session.input.Framed (lineLimit s.limits.longestLine) := by
  refine (befalls_induction
    (P := fun s session _ => session.Plain (lineLimit s.limits.longestLine)) ?_ ?_ h hhas).framed
  · exact fun _ _ => Session.plain_begin _ _ _
  · intro s m session session' out out' hreach hhas hbefalls hplain
    rw [limits_apply]
    cases hbefalls with
    | step hstep => exact hstep.plain hplain
    | hear reply => exact hplain.hear (session.hears_hear reply)
    | arrive chunk =>
      exact ⟨hplain.framed.arrive chunk, hplain.joined, hplain.wanted, hplain.spoken⟩
    | finish ending =>
      exact ⟨hplain.framed.finish ending, hplain.joined, hplain.wanted, hplain.spoken⟩
    | reply | carryOn | giveUp | pipe | none => exact hplain

/-! ### One move -/

/-- **A wait that lasts.** After the move the session waits for the same line, and since the same
    time.  What has roused it still does, and none of the line is lost; a turn that did not end the
    wait, though it was time, has added to the line that was begun. -/
structure Lasts (s : Service) (i since : Nat) (handled : List String) (m : Move) : Prop where
  waits : (s.apply m).Waits i since handled
  roused : s.IsRoused i → (s.apply m).IsRoused i
  begun : s.begun i ≤ (s.apply m).begun i
  turn : m = .handler i → s.IsRoused i ∨ since + s.limits.readTimeout ≤ s.clock →
    s.begun i < (s.apply m).begun i

/-- **What a move does to a wait.** It lasts, or a turn of the session ends it, because of the time
    or for something else. -/
inductive Passes (s : Service) (i since : Nat) (handled : List String) (m : Move) : Prop where
  /-- The session waits on. -/
  | last (hlasts : s.Lasts i since handled m)
  /-- The time is up, and nothing has roused it. -/
  | expire (hm : m = .handler i) (hcalm : ¬ s.IsRoused i)
      (htime : since + s.limits.readTimeout ≤ s.clock) (hafter : (s.apply m).TimedOut i handled)
  /-- Something has roused it. -/
  | moveOn (hm : m = .handler i) (hroused : s.IsRoused i) (hafter : (s.apply m).MovedOn i handled)

/-- The session is as before, but for what has arrived and was put together. -/
structure GoesOn (session session' : Session) : Prop where
  phase : session'.phase = session.phase
  handled : session'.handled = session.handled
  input : session.input.Extends session'.input

theorem GoesOn.lasts (hgoes : GoesOn session session') (hhas : s.Has i session out)
    (hafter : (s.apply m).Has i session' out') (hbroken : out.broken = true → out'.broken = true)
    (hwaits : session.Waits since handled)
    (hturn : m = .handler i → session.Roused s.outlook out ∨
      since + s.limits.readTimeout ≤ s.clock →
        session.input.line.length < session'.input.line.length) :
    s.Lasts i since handled m := by
  refine ⟨⟨session', (has_iff.mp hafter).1, hgoes.phase.trans hwaits.phase,
    hgoes.handled.trans hwaits.handled⟩, ?_, ?_, ?_⟩
  · rw [isRoused_iff hhas, isRoused_iff hafter]
    exact fun hroused => hroused.mono (limits_apply s m)
      (fun hcancelled => cancelled_apply hcancelled m) hbroken hgoes.input
  · rw [begun_of_has hhas, begun_of_has hafter]
    exact hgoes.input.begun
  · rwa [isRoused_iff hhas, begun_of_has hhas, begun_of_has hafter]

/-- Whatever the others do, a session that waits goes on to wait. -/
theorem Befalls.goesOn (h : s.Befalls i session out m session' out') (hm : m ≠ .handler i)
    (hphase : session.phase = .reading since) : GoesOn session session' := by
  cases h with
  | step => exact absurd rfl hm
  | hear reply =>
    have hnothing : session.hear reply = session := by simp [Session.hear, hphase]
    rw [hnothing]
    exact ⟨rfl, rfl, .refl _⟩
  | arrive chunk => exact ⟨rfl, rfl, Input.extends_arrive _ chunk⟩
  | finish ending => exact ⟨rfl, rfl, Input.extends_finish _ ending⟩
  | reply | carryOn | giveUp | pipe | none => exact ⟨rfl, rfl, .refl _⟩

/-- **One move.** -/
theorem Waits.passes (h : s.Waits i since handled) (hreach : Reachable limits queueCapacity s)
    (m : Move) : s.Passes i since handled m := by
  obtain ⟨session, hsession, hwaits⟩ := h
  obtain ⟨out, hhas⟩ := has_of_session? hsession
  by_cases hm : m = .handler i
  · subst hm
    have hturn : session.Turn s.outlook out since (session.step s.outlook out) :=
      Session.turn_of_waits hwaits.phase (framed_of_reachable hreach hhas)
    rcases handler_of_has hhas with ⟨hstep, hsame⟩ | ⟨next, hstep, hafter⟩ <;> rw [hstep] at hturn
    · cases hturn with
      | wait hcalm htime =>
        have hafter : (s.apply (.handler i)).Has i session out := by rwa [hsame]
        refine .last (GoesOn.lasts ⟨rfl, rfl, .refl _⟩ hhas hafter id hwaits ?_)
        rintro - (hroused | hdue)
        · exact absurd hroused hcalm
        · exact absurd hdue (Nat.not_le.mpr htime)
    · cases hturn with
      | @gather input _ hinput hline =>
        have hgoes : GoesOn session { session with input } := ⟨rfl, rfl, hinput⟩
        exact .last (hgoes.lasts hhas hafter id hwaits fun _ _ => hline)
      | expire hcalm htime =>
        refine .expire rfl ((isRoused_iff hhas).not.mpr hcalm) htime
          ⟨_, (has_iff.mp hafter).1, ?_, hwaits.handled⟩
        rw [limits_apply]
        rfl
      | moveOn hroused hnext =>
        refine .moveOn rfl ((isRoused_iff hhas).mpr hroused) ⟨_, (has_iff.mp hafter).1, ?_⟩
        rw [limits_apply, ← hwaits.handled]
        exact hnext
  · -- A turn of somebody else, or something from outside.
    obtain ⟨session', out', hafter, hbefalls⟩ := befalls_of_apply hhas m
    exact .last ((hbefalls.goesOn hm hwaits.phase).lasts hhas hafter hbefalls.broken hwaits
      fun hown => absurd hown hm)

/-! ### Runs -/

/-- **What becomes of a wait.** -/
inductive Outcome (s : Service) (i since : Nat) (handled : List String) (moves : List Move) :
    Prop where
  /-- It goes on. -/
  | waits (hafter : (s.applyAll moves).Waits i since handled)
  /-- It took too long, and nothing roused the session while it lasted. -/
  | timedOut (hafter : (s.applyAll moves).TimedOut i handled)
      (hcalm : ∀ before, before <+: moves → (s.applyAll before).Waits i since handled →
        ¬ (s.applyAll before).IsRoused i)
  /-- Something roused the session while it lasted. -/
  | movedOn {before : List Move} (hafter : (s.applyAll moves).MovedOn i handled)
      (hbefore : before <+: moves) (hwaits : (s.applyAll before).Waits i since handled)
      (hroused : (s.applyAll before).IsRoused i)

/-- There is nothing else that can become of it. -/
theorem Waits.outcome (h : s.Waits i since handled) (hreach : Reachable limits queueCapacity s)
    (moves : List Move) : s.Outcome i since handled moves := by
  induction moves generalizing s with
  | nil => exact .waits h
  | cons m moves ih =>
    cases h.passes hreach m with
    | last hlasts =>
      cases ih hlasts.waits (hreach.move m) with
      | waits hafter => exact .waits hafter
      | timedOut hafter hcalm =>
        refine .timedOut hafter fun before hbefore hlater => ?_
        rcases List.prefix_cons_iff.mp hbefore with rfl | ⟨rest, rfl, hrest⟩
        · -- What had roused the session at first would have done so after the move.
          exact fun hroused => hcalm [] List.nil_prefix hlasts.waits (hlasts.roused hroused)
        · exact hcalm rest hrest hlater
      | movedOn hafter hbefore hlater hroused =>
        exact .movedOn hafter ((List.prefix_cons_inj m).mpr hbefore) hlater hroused
    | expire _ hcalm _ hafter =>
      refine .timedOut (hafter.applyAll moves) fun before hbefore hlater => ?_
      rcases List.prefix_cons_iff.mp hbefore with rfl | ⟨rest, rfl, -⟩
      · exact hcalm
      · exact absurd (hafter.applyAll rest) hlater.not_timedOut
    | moveOn _ hroused hafter => exact .movedOn (hafter.applyAll moves) List.nil_prefix h hroused

/-- A wait that goes on in the end has gone on all the time. -/
theorem Waits.passed (h : s.Waits i since handled) (hreach : Reachable limits queueCapacity s)
    {moves : List Move} (hlast : (s.applyAll (m :: moves)).Waits i since handled) :
    s.Lasts i since handled m := by
  cases h.passes hreach m with
  | last hlasts => exact hlasts
  | expire _ _ _ hafter => exact absurd (hafter.applyAll moves) hlast.not_timedOut
  | moveOn _ _ hafter => exact absurd (hafter.applyAll moves) hlast.not_movedOn

/-! ### The clock -/

/-- **Punctual.** Time does not go past the moment at which the session has waited for too long, as
    long as it waits. -/
def Punctual (i : Nat) (s : Service) (m : Move) : Prop :=
  ∀ milliseconds since handled, m = .wait milliseconds → s.Waits i since handled →
    s.clock + milliseconds ≤ since + s.limits.readTimeout

theorem earlier_le_left (a : Nat) (d : Option Nat) : ∃ b ≤ a, earlier (some a) d = some b := by
  cases d with
  | none => exact ⟨a, Nat.le_refl _, rfl⟩
  | some d => exact ⟨min a d, Nat.min_le_left _ _, rfl⟩

theorem earlier_le_right (a : Nat) (d : Option Nat) : ∃ b ≤ a, earlier d (some a) = some b := by
  cases d with
  | none => exact ⟨a, Nat.le_refl _, rfl⟩
  | some d => exact ⟨min d a, Nat.min_le_right _ _, rfl⟩

theorem foldl_le {f : Option Nat → Connection → Option Nat}
    (hf : ∀ a c, ∃ b ≤ a, f (some a) c = some b) (a : Nat) (connections : List Connection) :
    ∃ b ≤ a, connections.foldl f (some a) = some b := by
  induction connections generalizing a with
  | nil => exact ⟨a, Nat.le_refl _, rfl⟩
  | cons c connections ih =>
    obtain ⟨b, hb, hstep⟩ := hf a c
    obtain ⟨d, hd, hlater⟩ := ih b
    exact ⟨d, Nat.le_trans hd hb, by rw [List.foldl_cons, hstep, hlater]⟩

/-- The next moment at which a wait ends is not after the one at which this session has waited for
    too long. -/
theorem deadline?_le_of_waits (h : s.Waits i since handled) :
    ∃ d ≤ since + s.limits.readTimeout, s.deadline? = some d := by
  obtain ⟨session, hsession, hphase, -⟩ := h
  obtain ⟨c, hc, hhandler⟩ := session?_eq_some hsession
  obtain ⟨before, after, hconnections⟩ := List.append_of_mem (List.mem_of_getElem? hc)
  rw [deadline?, hconnections, List.foldl_append, List.foldl_cons]
  simp only [hhandler, Session.deadline?, hphase]
  -- From this connection on there is such a moment, and it only gets earlier.
  obtain ⟨d, hd, hhere⟩ := earlier_le_right (since + s.limits.readTimeout)
    (earlier (before.foldl _ none) c.output.deadline?)
  rw [hhere]
  refine Exists.imp (fun _ hlater => ⟨Nat.le_trans hlater.1 hd, hlater.2⟩) (foldl_le ?_ d after)
  intro a c
  obtain ⟨b, hb, hout⟩ := earlier_le_left a c.output.deadline?
  simp only [hout]
  split
  · obtain ⟨d, hd, hboth⟩ := earlier_le_left b (Session.deadline? s.limits _)
    exact ⟨d, Nat.le_trans hd hb, hboth⟩
  · exact ⟨b, hb, rfl⟩

theorem punctual_of_other (hwait : ∀ milliseconds, m ≠ .wait milliseconds) : Punctual i s m :=
  fun milliseconds _ _ hm => absurd hm (hwait milliseconds)

/-- A clock that goes no farther than to that moment is punctual. -/
theorem punctual_of_deadline? {milliseconds : Nat}
    (h : ∀ d ∈ s.deadline?, s.clock + milliseconds ≤ d) :
    Punctual i s (.wait milliseconds) := by
  intro _ since handled hm hwaits
  cases hm
  obtain ⟨d, hd, hnext⟩ := deadline?_le_of_waits hwaits
  exact Nat.le_trans (h d hnext) hd

/-- **Not past a wait.** A punctual clock stands still at the end of a wait until the session has
    noticed. -/
theorem Waits.punctual (h : s.Waits i since handled) (hreach : Reachable limits queueCapacity s)
    {moves : List Move} (hpunctual : s.Throughout (Punctual i) moves)
    (htime : s.clock ≤ since + s.limits.readTimeout)
    (hlast : (s.applyAll moves).Waits i since handled) :
    (s.applyAll moves).clock ≤ since + s.limits.readTimeout := by
  induction moves generalizing s with
  | nil => exact htime
  | cons m moves ih =>
    obtain ⟨hfirst, hlater⟩ := hpunctual
    rw [← limits_apply s m]
    refine ih (h.passed hreach hlast).waits (hreach.move m) hlater ?_ hlast
    rw [limits_apply]
    by_cases hwait : ∃ milliseconds, m = .wait milliseconds
    · obtain ⟨milliseconds, rfl⟩ := hwait
      exact hfirst milliseconds since handled rfl h
    · rw [s.clock_of_other fun milliseconds hm => hwait ⟨milliseconds, hm⟩]
      exact htime

/-! ### Turns -/

/-- **Nobody is kept waiting.** Once the session need not wait any more, or must not, it does so for
    only so many turns as it can put together parts of one line. -/
theorem Waits.turns (h : s.Waits i since handled) (hreach : Reachable limits queueCapacity s)
    {moves : List Move} (hdue : s.IsRoused i ∨ since + s.limits.readTimeout ≤ s.clock)
    (hlast : (s.applyAll moves).Waits i since handled) :
    moves.countP (Move.isTurnOf i) + s.begun i < lineLimit s.limits.longestLine := by
  induction moves generalizing s with
  | nil =>
    obtain ⟨session, hsession, -⟩ := h
    obtain ⟨out, hhas⟩ := has_of_session? hsession
    rw [begun_of_has hhas, List.countP_nil, Nat.zero_add]
    exact (framed_of_reachable hreach hhas).length_lt
  | cons m moves ih =>
    have hlasts := h.passed hreach hlast
    have hlater : (s.apply m).IsRoused i ∨
        since + (s.apply m).limits.readTimeout ≤ (s.apply m).clock := by
      rw [limits_apply]
      exact hdue.imp hlasts.roused fun htime => Nat.le_trans htime (clock_apply s m)
    have hrest := ih hlasts.waits (hreach.move m) hlater hlast
    rw [limits_apply] at hrest
    rw [List.countP_cons]
    split
    · rename_i hown
      have hmore := hlasts.turn (Move.isTurnOf_iff.mp hown) hdue
      omega
    · have hkept := hlasts.begun
      omega

/-- **When a wait begins.** It is the one that there was before the move, or it begins with it. -/
theorem since_of_waits (h : (s.apply m).Waits i since handled) :
    s.Waits i since handled ∨ since = (s.apply m).clock := by
  obtain ⟨session', hsession', hphase, hhandled⟩ := h
  cases hbefore : s.session? i with
  | none =>
    obtain ⟨peer, capacity, timeout, rfl, hheld, rfl⟩ := connect_of_session hbefore hsession'
    rw [s.clock_of_other (m := .connect peer capacity timeout) (by simp)]
    rw [apply, if_pos hheld, connect, session?_addConnection, if_pos rfl] at hsession'
    cases hsession'
    cases hphase
    exact .inr rfl
  | some session =>
    obtain ⟨out, hhas⟩ := has_of_session? hbefore
    obtain ⟨session'', out', hafter, hbefalls⟩ := befalls_of_apply hhas m
    cases hsession'.symm.trans (has_iff.mp hafter).1
    have hsame (hdoing : session.phase = session'.phase)
        (hlines : session.handled = session'.handled) : s.Waits i since handled :=
      ⟨session, hbefore, hdoing.trans hphase, hlines.trans hhandled⟩
    cases hbefalls with
    | step hstep =>
      rcases hstep.since_cases hphase with hnow | ⟨hreading, hlines⟩
      · rw [s.clock_of_other (m := .handler i) (by simp)]
        exact .inr hnow
      · exact .inl (hsame (hreading.trans hphase.symm) hlines.symm)
    | hear reply =>
      have hears := session.hears_hear reply
      generalize session.hear reply = heard at hears hphase hsame
      cases hears with
      | joining | deregistering => cases hphase
      | nothing => exact .inl (hsame rfl rfl)
    | reply | carryOn | giveUp | arrive | finish | pipe | none => exact .inl (hsame rfl rfl)

/-! ### The time limit -/

/-- **The limit of a wait.** A wait ends for the time just if it ends and nothing has roused the
    session while it lasted.
    It does so in a turn of the session, never too early, and at that very moment if the clock is
    punctual; so on a punctual clock that has gone on the session has timed out, or something had
    roused it.
    A session that need not wait any more, or must not, does so only for few turns.
    There is one wait for one line, however its bytes arrive, and every other wait begins at the
    moment from which on the session has nothing else to do. -/
structure Limited (s : Service) (i since : Nat) (handled : List String) (moves : List Move) :
    Prop where
  timedOut_iff : (s.applyAll moves).TimedOut i handled ↔
    ¬ (s.applyAll moves).Waits i since handled ∧
      ∀ before, before <+: moves → (s.applyAll before).Waits i since handled →
        ¬ (s.applyAll before).IsRoused i
  moment : ∀ m, (s.applyAll moves).Waits i since handled →
    ((s.applyAll moves).apply m).TimedOut i handled →
      m = .handler i ∧ since + s.limits.readTimeout ≤ (s.applyAll moves).clock ∧
        (s.Throughout (Punctual i) moves → s.clock ≤ since + s.limits.readTimeout →
          (s.applyAll moves).clock = since + s.limits.readTimeout)
  overdue : s.Throughout (Punctual i) moves → s.clock ≤ since + s.limits.readTimeout →
    since + s.limits.readTimeout < (s.applyAll moves).clock →
      ((s.applyAll moves).TimedOut i handled ↔
        ∀ before, before <+: moves → (s.applyAll before).Waits i since handled →
          ¬ (s.applyAll before).IsRoused i)
  soon : s.IsRoused i ∨ since + s.limits.readTimeout ≤ s.clock →
    (s.applyAll moves).Waits i since handled →
      moves.countP (Move.isTurnOf i) < lineLimit s.limits.longestLine
  lasting : ∀ since', (s.applyAll moves).Waits i since' handled → since' = since
  renewed : ∀ m since' handled', ((s.applyAll moves).apply m).Waits i since' handled' →
    (s.applyAll moves).Waits i since' handled' ∨ since' = ((s.applyAll moves).apply m).clock

theorem Waits.timedOut_iff (h : s.Waits i since handled) (hreach : Reachable limits queueCapacity s)
    (moves : List Move) : (s.applyAll moves).TimedOut i handled ↔
      ¬ (s.applyAll moves).Waits i since handled ∧
        ∀ before, before <+: moves → (s.applyAll before).Waits i since handled →
          ¬ (s.applyAll before).IsRoused i := by
  cases h.outcome hreach moves with
  | waits hafter =>
    exact ⟨fun hlate => absurd hlate hafter.not_timedOut, fun hends => absurd hafter hends.1⟩
  | timedOut hafter hcalm =>
    exact ⟨fun _ => ⟨fun hwaits => hwaits.not_timedOut hafter, hcalm⟩, fun _ => hafter⟩
  | movedOn hafter hbefore hwaits hroused =>
    exact ⟨fun hlate => absurd hafter hlate.not_movedOn,
      fun hends => absurd hroused (hends.2 _ hbefore hwaits)⟩

/-- **The time limit for a line.** In every state that a service can get into let a session wait for
    a line.  Whatever happens then, the limit is kept. -/
theorem waits_limited (h : Reachable limits queueCapacity s) (hwaits : s.Waits i since handled)
    (moves : List Move) : s.Limited i since handled moves := by
  refine ⟨hwaits.timedOut_iff h moves, ?_, ?_, ?_, ?_, fun m _ _ => since_of_waits⟩
  · intro m hlast hlate
    cases hlast.passes (h.applyAll moves) m with
    | last hlasts => exact absurd hlate hlasts.waits.not_timedOut
    | moveOn _ _ hafter => exact absurd hafter hlate.not_movedOn
    | expire hm _ htime =>
      rw [limits_applyAll] at htime
      refine ⟨hm, htime, fun hmoves hstart => ?_⟩
      exact Nat.le_antisymm (hwaits.punctual h hmoves hstart hlast) htime
  · intro hmoves hstart hlate
    -- The session does not wait any more, for the clock has not gone past it.
    refine (hwaits.timedOut_iff h moves).trans (and_iff_right fun hlast => ?_)
    exact absurd (hwaits.punctual h hmoves hstart hlast) (Nat.not_le.mpr hlate)
  · exact fun hdue hlast => Nat.lt_of_le_of_lt (Nat.le_add_right _ _) (hwaits.turns h hdue hlast)
  · intro since' hother
    cases hwaits.outcome h moves with
    | waits hafter =>
      obtain ⟨session, hsession, hphase, -⟩ := hafter
      obtain ⟨session', hsession', hphase', -⟩ := hother
      cases hsession.symm.trans hsession'
      cases hphase.symm.trans hphase'
      rfl
    | timedOut hafter => exact absurd hafter hother.not_timedOut
    | movedOn hafter => exact absurd hafter hother.not_movedOn

/-- A client sends a line in small pieces, and does not get to its end in time. -/
def tricklingRun : List Move :=
  [.arrive 0 (utf8 "JO"), .handler 0, .wait 600, .arrive 0 (utf8 "IN:"), .handler 0, .wait 400,
    .arrive 0 (utf8 "a"), .handler 0, .handler 0, .wait 1]

theorem waits_limited_tricklingRun :
    ((start ⟨1000, 64⟩ 4).apply (.connect "peer" 64 5000)).Limited 0 0 [] tricklingRun ∧
      ((start ⟨1000, 64⟩ 4).apply (.connect "peer" 64 5000)).Throughout (Punctual 0) tricklingRun ∧
      (((start ⟨1000, 64⟩ 4).apply (.connect "peer" 64 5000)).applyAll tricklingRun).clock = 1001 ∧
      ((((start ⟨1000, 64⟩ 4).apply (.connect "peer" 64 5000)).applyAll tricklingRun).session?
        0).map Session.phase = some (.ending (.failed (.timeout (.ofMillis 1000)))) := by
  have hreach : Reachable ⟨1000, 64⟩ 4 ((start ⟨1000, 64⟩ 4).apply (.connect "peer" 64 5000)) :=
    Reachable.start.move _
  have hwaits : ((start ⟨1000, 64⟩ 4).apply (.connect "peer" 64 5000)).Waits 0 0 [] :=
    ⟨{ peer := "peer", phase := .reading 0 }, by decide +kernel, rfl, rfl⟩
  refine ⟨waits_limited hreach hwaits tricklingRun, ?_, by decide +kernel, by decide +kernel⟩
  -- The clock moves three times, the last time when the session does not wait any more.
  exact ⟨punctual_of_other (by simp), punctual_of_other (by simp),
    punctual_of_deadline? (by decide +kernel), punctual_of_other (by simp),
    punctual_of_other (by simp), punctual_of_deadline? (by decide +kernel),
    punctual_of_other (by simp), punctual_of_other (by simp), punctual_of_other (by simp),
    punctual_of_deadline? (by decide +kernel), trivial⟩

end Service

end Reckoner
