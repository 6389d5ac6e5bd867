import Reckoner.Proofs.Service.Sharing

/-!
# Who writes

Handlers and the worker write to outputs, and nobody else does.

* `Service.Untouched` — what is to be written to each output is as before.
* `Service.untouched_apply` — it is so after every move but those of handlers and the worker.
* `Service.output?_killWorker` — when the worker is ended by force, it gives up its job.
* `Service.output_of_handler`, `Service.output_of_worker` — what their steps do to an output.
-/

namespace Reckoner

/-- The work that a handler may start on the output of its connection: to write a response of its
    own, or to close the output. -/
def Handler.Starts : Handler → Work → Prop
  | session s, work =>
    work = .close ∨ ∃ r next, s.phase = .answering r next ∧ work = .line r.line
  | refusal _, work => work = .line Response.busy.line ∨ work = .close
  | outside, _ | released, _ => False

namespace Service

variable {s s' : Service} {m : Move} {i : Nat}

/-! ### Everybody else -/

/-- **Nobody writes.** What is to be written to each output is as before, and nothing has come into
    its pipe.  Outputs that were not there before are new. -/
structure Untouched (s s' : Service) : Prop where
  kept : ∀ {i : Nat} {output : Channel}, s.output? i = some output →
    ∃ output', s'.output? i = some output' ∧ output'.jobs = output.jobs ∧
      output'.buffer = output.buffer ∧ output'.pipe.accepted = output.pipe.accepted
  fresh : ∀ {i : Nat} {output : Channel}, s.output? i = none → s'.output? i = some output →
    ∃ capacity timeout, output = .create capacity timeout

theorem untouched_of_connections (h : s'.connections = s.connections) : Untouched s s' := by
  have hsame (i : Nat) : s'.output? i = s.output? i := by rw [output?, output?, h]
  refine ⟨?_, ?_⟩
  · intro i output houtput
    exact ⟨output, by rw [hsame, houtput], rfl, rfl, rfl⟩
  · intro i output hnone houtput
    rw [hsame, hnone] at houtput
    cases houtput

theorem untouched_modifyConnection (s : Service) (i : Nat) {f : Connection → Connection}
    (hf : ∀ c, (f c).output.jobs = c.output.jobs ∧ (f c).output.buffer = c.output.buffer ∧
      (f c).output.pipe.accepted = c.output.pipe.accepted) :
    Untouched s (s.modifyConnection i f) := by
  refine ⟨?_, ?_⟩
  · intro j output houtput
    obtain ⟨c, hc, rfl⟩ := output?_eq_some houtput
    rw [output?_modifyConnection]
    split
    · rw [hc]
      exact ⟨(f c).output, rfl, hf c⟩
    · exact ⟨c.output, houtput, rfl, rfl, rfl⟩
  · intro j output hnone houtput
    rw [output?_modifyConnection, hnone] at houtput
    split at houtput
    · rw [Option.map_eq_none_iff.mp hnone] at houtput
      cases houtput
    · cases houtput

theorem untouched_modifySession (s : Service) (i : Nat) (f : Session → Session) :
    Untouched s (s.modifySession i f) := by
  refine untouched_modifyConnection s i ?_
  intro c
  split <;> exact ⟨rfl, rfl, rfl⟩

theorem untouched_modifyPipe (s : Service) (i : Nat) {f : Pipe → Pipe}
    (hf : ∀ p, (f p).accepted = p.accepted) : Untouched s (s.modifyPipe i f) := by
  refine untouched_modifyConnection s i ?_
  intro c
  exact ⟨rfl, rfl, hf _⟩

theorem untouched_addConnection (s : Service) (capacity timeout : Nat) (handler : Handler) :
    Untouched s (s.addConnection (.create capacity timeout) handler) := by
  refine ⟨?_, ?_⟩
  · intro j output houtput
    obtain ⟨c, hc, rfl⟩ := output?_eq_some houtput
    have hlt : j < s.connections.length := (List.getElem?_eq_some_iff.mp hc).1
    refine ⟨c.output, ?_, rfl, rfl, rfl⟩
    rw [output?, getElem?_addConnection, if_neg (Nat.ne_of_lt hlt), hc, Option.map_some]
  · intro j output hnone houtput
    rw [output?, getElem?_addConnection] at houtput
    split at houtput
    · cases houtput
      exact ⟨capacity, timeout, rfl⟩
    · rw [Option.map_eq_none_iff.mp hnone] at houtput
      cases houtput

/-- Only handlers and the worker write. -/
theorem untouched_apply (hhandler : ∀ i, m ≠ .handler i) (hworker : m ≠ .worker)
    (hkill : m ≠ .killWorker) : Untouched s (s.apply m) := by
  cases m with
  | handler i => exact absurd rfl (hhandler i)
  | worker => exact absurd rfl hworker
  | killWorker => exact absurd rfl hkill
  | registry =>
    rcases s.apply_registry with heq | ⟨effort, hstep⟩
    · rw [heq]
      exact untouched_of_connections rfl
    · obtain ⟨source, command, mailbox, -, heq⟩ := stepRegistry_cases hstep
      rw [heq]
      obtain ⟨hkept, hfresh⟩ := untouched_modifySession
        { s with registry := { s.registry with
            table := (s.registry.table.handle command).1, mailbox } }
        source fun session => session.hear (s.registry.table.handle command).2
      exact ⟨hkept, hfresh⟩
  | connect =>
    simp only [apply]
    split
    · exact untouched_addConnection _ _ _ _
    · exact untouched_of_connections rfl
  | refuse | attach => exact untouched_addConnection _ _ _ _
  | detach i =>
    refine untouched_modifyConnection s i ?_
    intro c
    split <;> exact ⟨rfl, rfl, rfl⟩
  | submit request =>
    rcases s.apply_submit request with heq | ⟨-, -, heq⟩ <;> rw [heq] <;>
      exact untouched_of_connections rfl
  | arrive | finish => exact untouched_modifySession _ _ _
  | read i limit =>
    show Untouched s (s.modifyPipe i fun p => (p.read limit).1)
    refine untouched_modifyPipe s i ?_
    intro p
    unfold Pipe.read
    split <;> rfl
  | deafen i =>
    show Untouched s (s.modifyPipe i Pipe.deafen)
    exact untouched_modifyPipe s i fun _ => rfl
  | wait | age | cancel | release | killRegistry => exact untouched_of_connections rfl

/-! ### Force -/

theorem output?_killWorker (s : Service) (i : Nat) :
    s.killWorker.output? i = (s.output? i).map fun output =>
      match s.worker.ticketOn? i with
      | some ticket => output.abandon ticket
      | none => output := by
  have hkept (hnone : s.worker.ticketOn? i = none) :
      s.output? i = (s.output? i).map fun output => match s.worker.ticketOn? i with
        | some ticket => output.abandon ticket
        | none => output := by
    simp only [hnone, Option.map_id']
  rcases s.killWorker_cases with ⟨heq, hended⟩ | ⟨-, before, hbefore, heq⟩ <;> rw [heq]
  · refine hkept (Worker.ticketOn?_of_not_replying ?_ i)
    intro request outcome ticket hphase
    simp [Worker.hasEnded, hphase] at hended
  show before.output? i = _
  rcases hbefore with ⟨rfl, hidle⟩ | ⟨request, outcome, ticket, hphase, rfl⟩
  · exact hkept (Worker.ticketOn?_of_not_replying hidle i)
  obtain ⟨hhere, hidle⟩ := Worker.ticketOn?_replying hphase
  rw [modifyOutput, output?_modifyConnection]
  split
  · rename_i hi
    subst hi
    rw [hhere, output?, Option.map_map]
    rfl
  · rename_i hi
    exact hkept (hidle i (Ne.symm hi))

/-! ### Handlers -/

/-- A step of a handler does to the output of its connection what its session or refusal does, and
    leaves all others alone. -/
theorem output_of_handler {j : Nat} {after : Channel}
    (h : (s.apply (.handler i)).output? j = some after) :
    ∃ before, s.output? j = some before ∧ (after = before ∨ i = j ∧
      ∃ c, s.connections[i]? = some c ∧ ((∃ work, c.handler.Starts work ∧
        after = (before.start work).1) ∨ ∃ ticket, c.handler.ticket? = some ticket ∧
          after = (before.poll s.clock ticket).channel)) := by
  rcases s.apply_handler i with heq | ⟨effort, hstep⟩
  · rw [heq] at h
    exact ⟨after, h, .inl rfl⟩
  -- Only the output of the connection changes.
  have hsame {c : Connection} (hc : s.connections[i]? = some c) {f : Connection → Connection}
      (hf : (s.modifyConnection i f).output? j = some after) :
      s.output? j = some after ∨
        i = j ∧ s.output? j = some c.output ∧ after = (f c).output := by
    rw [output?_modifyConnection] at hf
    split at hf
    · rename_i hij
      subst hij
      rw [hc] at hf
      exact .inr ⟨rfl, by rw [output?, hc]; rfl, (Option.some.inj hf).symm⟩
    · exact .inl hf
  rcases stepHandler_cases hstep with
    ⟨c, session, next, hc, hhandler, htransition, heq⟩ | ⟨c, r, next, hc, hhandler, hnext, heq⟩
  · rw [heq, output?, afterSession_connections] at h
    rcases hsame hc h with hnone | ⟨hij, hbefore, rfl⟩
    · exact ⟨after, hnone, .inl rfl⟩
    refine ⟨c.output, hbefore, ?_⟩
    rcases htransition.output with
      hnone | ⟨r, next', hphase, hstart⟩ | hstart | ⟨ticket, hticket, hpoll⟩
    · exact .inl hnone
    · exact .inr ⟨hij, c, hc,
        .inl ⟨_, by rw [hhandler]; exact .inr ⟨r, next', hphase, rfl⟩, hstart⟩⟩
    · exact .inr ⟨hij, c, hc, .inl ⟨_, by rw [hhandler]; exact .inl rfl, hstart⟩⟩
    · exact .inr ⟨hij, c, hc, .inr ⟨ticket, by rw [hhandler]; exact hticket, hpoll⟩⟩
  · rw [heq] at h
    rcases hsame hc h with hnone | ⟨hij, hbefore, rfl⟩
    · exact ⟨after, hnone, .inl rfl⟩
    refine ⟨c.output, hbefore, ?_⟩
    rcases Refusal.output_of_step hnext with
      hnone | ⟨work, hwork, hstart⟩ | ⟨ticket, hticket, -, hpoll⟩
    · exact .inl hnone
    · exact .inr ⟨hij, c, hc, .inl ⟨work, by rw [hhandler]; exact hwork, hstart⟩⟩
    · exact .inr ⟨hij, c, hc, .inr ⟨ticket, by rw [hhandler]; exact hticket, hpoll⟩⟩

/-! ### The worker -/

/-- A step of the worker does nothing to an output, or it starts or carries on a reply to a request
    that names it. -/
theorem output_of_worker {after : Channel} (h : (s.apply .worker).output? i = some after) :
    ∃ before, s.output? i = some before ∧ (after = before ∨ ∃ r outcome, r.connection = i ∧
      ((s.worker.phase = .answering r outcome ∧
          after = (before.startLine (r.reply outcome).line).1) ∨
        ∃ ticket, s.worker.phase = .replying r outcome ticket ∧
          after = (before.poll s.clock ticket).channel)) := by
  rcases s.apply_worker with ⟨heq, -⟩ | ⟨s', heq, hstep⟩ <;> rw [heq] at h
  · exact ⟨after, h, .inl rfl⟩
  -- Only the output that the request names changes.
  have hsame {r : Request} {output : Channel} {next : WorkerStep}
      (houtput : s.output? r.connection = some output)
      (hafter : (s.afterWorker r.connection next).1.output? i = some after) :
      s.output? i = some after ∨
        r.connection = i ∧ s.output? i = some output ∧ after = next.output := by
    rw [afterWorker_output?] at hafter
    split at hafter
    · rename_i hi
      subst hi
      rw [houtput] at hafter
      exact .inr ⟨rfl, houtput, (Option.some.inj hafter).symm⟩
    · exact .inl hafter
  cases hstep with
  | take _ _ houtput | skip _ _ houtput =>
    rcases hsame houtput h with hnone | ⟨-, hbefore, rfl⟩
    · exact ⟨after, hnone, .inl rfl⟩
    · exact ⟨_, hbefore, .inl rfl⟩
  | stop => exact ⟨after, h, .inl rfl⟩
  | answer hphase houtput =>
    rcases hsame houtput h with hnone | ⟨hi, hbefore, rfl⟩
    · exact ⟨after, hnone, .inl rfl⟩
    · exact ⟨_, hbefore, .inr ⟨_, _, hi, .inl ⟨hphase, rfl⟩⟩⟩
  | write hphase houtput | deliver hphase houtput | fail hphase houtput =>
    rcases hsame houtput h with hnone | ⟨hi, hbefore, rfl⟩
    · exact ⟨after, hnone, .inl rfl⟩
    · exact ⟨_, hbefore, .inr ⟨_, _, hi, .inr ⟨_, hphase, rfl⟩⟩⟩

end Service

end Reckoner
