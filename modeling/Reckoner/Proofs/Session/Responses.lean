import Reckoner.Proofs.Session.Transition

/-!
# What sessions say

The results of calculations come from the worker.  Sessions welcome clients, bid them farewell and
complain, and that is all they say.

* `Response.IsNotice` — such a response.
* `Session.SaysNotices` — the response that a session is about to write is one.
* `Session.Transition.saysNotices` — it is so after each step.
-/

namespace Reckoner

/-- **Notices.** The responses that are given without any calculation. -/
inductive Response.IsNotice : Response → Prop where
  /-- The client has joined. -/
  | welcome (name : String) : IsNotice (.welcome name)
  /-- The client has left. -/
  | goodbye (name : String) : IsNotice (.goodbye name)
  /-- The line was malformed, or out of place. -/
  | invalidFormat : IsNotice .invalidFormat
  /-- The name belongs to another session. -/
  | nameTaken : IsNotice .nameTaken
  /-- There is no room. -/
  | busy : IsNotice .busy

namespace Session

variable {o : Outlook} {s : Session} {out : Channel} {next : SessionStep}

/-- The response that the session is about to write is a notice. -/
def SaysNotices (s : Session) : Prop :=
  ∀ {r : Response} {next : AfterReply}, s.phase = .answering r next → r.IsNotice

theorem isNotice_of_rejection {command : Command} {r : Response} {detail : String}
    (h : s.rejection? o command = some (r, detail)) : r.IsNotice := by
  unfold rejection? at h
  split at h
  · cases h
    exact .invalidFormat
  · cases h
  · cases h
    exact .invalidFormat
  · cases h
    exact .invalidFormat
  · split at h
    · cases h
      exact .busy
    · cases h
  · cases h

/-- A step leads to a notice, or to something else than a response. -/
theorem Transition.saysNotices (h : Transition o s out next) (hs : s.SaysNotices) :
    next.session.SaysNotices := by
  intro r after hphase
  cases h with
  | reject _ _ _ hreject =>
    cases hphase
    exact isNotice_of_rejection hreject
  | leave =>
    cases hphase
    exact .goodbye _
  | join =>
    have hphase : phaseOfReply _ .readOn out = .answering r after := hphase
    unfold phaseOfReply at hphase
    split at hphase <;> cases hphase
    exact .welcome _
  | deny =>
    have hphase : phaseOfReply .nameTaken .readOn out = .answering r after := hphase
    unfold phaseOfReply at hphase
    split at hphase <;> cases hphase
    exact .nameTaken
  | skip | giveBackLost | signOff =>
    have hphase : phaseOfClose _ out = .answering r after := hphase
    unfold phaseOfClose at hphase
    split at hphase <;> cases hphase
  | gather | write | shut => exact hs hphase
  | _ => cases hphase

theorem SaysNotices.hear (h : s.SaysNotices) (reply : RegistryReply) :
    (s.hear reply).SaysNotices := by
  intro r after hphase
  unfold Session.hear at hphase
  split at hphase <;> first | cases hphase | exact h hphase

end Session

end Reckoner
