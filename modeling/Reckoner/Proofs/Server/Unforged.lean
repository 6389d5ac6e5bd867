import Reckoner.Proofs.EventLog.Recording
import Reckoner.Proofs.Server.Hosting
import Reckoner.Proofs.Service.Transcript
import Reckoner.Proofs.Service.Wording

/-!
# No line is forged

Whatever bytes clients send, a server writes one line for each response and one for each entry of
its log, and no more.

* `Server.Move.IsPlain` — a move that brings no line feed, but for what clients send.
* `Server.plain_applyAll` — no entry of the log has one after such moves.
* `Server.Unforged`, `Server.unforged` — as many lines as responses and as entries.
-/

namespace Reckoner

namespace Server

variable {s : Server} {t : Service} {m : Move}

/-- What a move brings from outside holds no line feed, but for what a client sends. -/
def Move.IsPlain : Move → Prop
  | .accept peer _ => '\n' ∉ peer.toList
  | .finish _ (.failure reason) => '\n' ∉ reason.toList
  | _ => True

theorem Move.Leads.isPlain {inner : Reckoner.Move} (h : m.Leads inner) (hm : m.IsPlain) :
    inner.IsPlain := by
  cases h with
  | inner hinner =>
    cases m with
    | accept | proceed => cases hinner
    | finish i ending =>
      cases hinner
      cases ending with
      | eof => trivial
      | failure reason => exact hm
    | _ =>
      cases hinner
      trivial
  | connect => exact hm
  | refuse | release => trivial

/-! ### What the server logs -/

theorem plain_record {service : Service} (h : service.Plain) {source : LogSource}
    {entry : LogEntry} (hentry : entry.IsLine) : (service.record source [entry]).Plain := by
  refine ⟨h.sessions, h.requests, fun other hother => ?_⟩
  rcases List.mem_append.mp hother with hbefore | hnew
  · exact h.log other hbefore
  · rw [List.mem_singleton.mp hnew]
    exact hentry

theorem isLine_startEntry (port : UInt16) : (startEntry port).IsLine :=
  ⟨(by decide : '\n' ∉ serverLabel.toList), notMem_append (by decide) (notMem_toString _)⟩

theorem isLine_stopEntry : stopEntry.IsLine := ⟨by decide, by decide⟩

theorem isLine_refusalEntry {peer : String} (hpeer : '\n' ∉ peer.toList) (maxSessions : Nat) :
    (refusalEntry peer maxSessions).IsLine :=
  ⟨(by decide : '\n' ∉ unknownLabel.toList), notMem_append (notMem_append (notMem_append
    (notMem_append (by decide) hpeer) (by decide)) (notMem_toString _)) (by decide)⟩

/-- What a server does keeps its service plain. -/
theorem Hosting.plain {s' : Server} (h : Hosting s m s') (hs : s.service.Plain)
    (htaken : s.service.Taken) (hm : m.IsPlain) : s'.service.Plain := by
  cases h with
  | inner _ hinner => exact hs.apply htaken ((Move.Leads.inner hinner).isPlain hm)
  | @receive peer capacity => exact hs.apply htaken (m := .connect peer capacity _) hm
  | @turnAway peer capacity =>
    have hrefused := hs.apply htaken (m := .refuse capacity s.writeTimeout) trivial
    exact plain_record hrefused (isLine_refusalEntry hm _)
  | stop => exact plain_record hs isLine_stopEntry
  | release => exact hs.apply htaken (m := .release) trivial
  | stay => exact hs

theorem Hosts.taken (h : s.Hosts t) (ht : t.Taken) : s.service.Taken := by
  obtain ⟨log, heq, -⟩ := h.alike
  rw [heq]
  exact ⟨ht.waiting, ht.answered, ht.outcome⟩

/-- After all plain moves the service is plain. -/
theorem plain_applyAll (settings : Settings) (port : UInt16) {moves : List Move}
    (hmoves : ∀ m ∈ moves, m.IsPlain) : ((create settings port).applyAll moves).service.Plain := by
  induction moves using List.reverseRecOn with
  | nil => exact plain_record (Service.plain_start _ _) (isLine_startEntry port)
  | append_singleton moves m ih =>
    obtain ⟨inner, -, -, hhosts⟩ := (hosts_create settings port).applyAll moves
    have hreach : Service.Reachable _ _ ((inside settings).applyAll inner) :=
      Service.Reachable.start.applyAll inner
    have htaken := hhosts.taken (Service.taken_of_reachable hreach)
    have hbefore := ih fun other hother => hmoves other (List.mem_append_left _ hother)
    rw [applyAll_concat]
    exact (step_cases hhosts.held m).plain hbefore htaken (hmoves m (by simp))

/-! ### Lines -/

/-- **No line is forged**, in a run. -/
structure Unforged (start : Server) (moves : List Move) : Prop where
  /-- All that ever went into an output are responses of one line each, or beginnings of such. -/
  outputs : ∀ i out, (start.applyAll moves).service.output? i = some out →
    out.MadeOf Response.OneLine
  /-- What sessions and the worker have said are responses of one line each. -/
  said : ∀ i, ∀ u ∈ start.saidIn i moves, Response.OneLine u.response.line
  /-- The lines that the output of a session has taken are the first of these, and it has taken no
      line feed but theirs. -/
  heard : ∀ i session out, (start.applyAll moves).service.session? i = some session →
    (start.applyAll moves).service.output? i = some out →
    ∃ heard, heard <+: start.saidIn i moves ∧
      completeLines out.pipe.accepted = heard.map (fun u => utf8 u.response.text) ∧
      out.pipe.accepted.count lineFeed = heard.length
  /-- A file that is opened for the log, and to which the entries go at whatever moments, has one
      line for each, and no line feed but theirs. -/
  file : ∀ files path log opened records, FileTree.Sound files →
    EventLog.openFile files path = .ok (log, opened) →
    records.map Prod.snd = (start.applyAll moves).service.log.map Prod.snd →
    ∃ content, (log.recordEach opened records).read path = .ok content ∧
      EventLog.HasLines content records

/-- **No line is forged**, whatever bytes clients send. -/
theorem unforged (settings : Settings) (port : UInt16) {moves : List Move}
    (hmoves : ∀ m ∈ moves, m.IsPlain) : Unforged (create settings port) moves := by
  -- What the sessions and the worker say is what they say in the service behind the server.
  obtain ⟨inner, hinner, hsaid, hhosts⟩ := (hosts_create settings port).applyAll moves
  obtain ⟨log, hservice, -⟩ := hhosts.alike
  obtain ⟨hworker, -, hsubmit⟩ := notMem_of_leads hinner
  have halive := alive_inside settings hworker
  have hplain : ∀ other ∈ inner, other.IsPlain := by
    intro other hother
    obtain ⟨m, hm, hleads⟩ := hinner other hother
    exact hleads.isPlain (hmoves m hm)
  have hown (i : Nat) (r : Request) (hr : .submit r ∈ inner) : r.connection ≠ i :=
    absurd hr (hsubmit r)
  have hconverses {i : Nat} {session : Session} {out : Channel}
      (hhas : ((inside settings).applyAll inner).Has i session out) :
      ∃ stage, ((inside settings).applyAll inner).Converses i stage
        ((inside settings).saidIn i inner) session out := by
    obtain ⟨stage, htold⟩ := Service.told_of_run (hown i) halive hhas
    exact ⟨stage, htold.converses⟩
  refine ⟨fun i out hout => ?_, fun i u hu => ?_, fun i session out hsession hout => ?_,
    fun files path log opened records hsound hopen hrecords => ?_⟩
  · rw [hservice] at hout
    exact Service.oneLine_applyAll _ _ hplain hout
  · rw [← hsaid] at hu
    cases hsession : ((inside settings).applyAll inner).session? i with
    | none =>
      rw [(Service.silent_before (hown i) halive hsession).1] at hu
      cases hu
    | some session =>
      obtain ⟨c, hc, hhandler⟩ := Service.session?_eq_some hsession
      obtain ⟨stage, hconverses⟩ := hconverses ⟨c, hc, hhandler, rfl⟩
      exact (hconverses.lines u hu).oneLine
  · rw [hservice] at hsession hout
    obtain ⟨stage, hconverses⟩ := hconverses (Service.has_iff.mpr ⟨hsession, hout⟩)
    obtain ⟨heard, hheard, hlines⟩ := hconverses.completeLines
    refine ⟨heard, hsaid i ▸ hheard, hlines, ?_⟩
    rw [← length_completeLines, hlines, Service.textsOf, List.length_map]
  · refine EventLog.hasLines_of_open hsound hopen fun record hrecord => ?_
    have hmem : record.2 ∈ records.map Prod.snd := List.mem_map_of_mem hrecord
    rw [hrecords] at hmem
    obtain ⟨entry, hentry, heq⟩ := List.mem_map.mp hmem
    rw [← heq]
    exact (plain_applyAll settings port hmoves).log entry hentry

/-- A client puts a response into its name, a line end into its request, and bytes that are no text
    into a line that is no command.  Then its connection fails. -/
def forgingRun : List Move := List.flatten
  [[.accept "peer" 256, .arrive 0 (utf8 "JOIN:a\rACK:b:Welcome\nCALC::1\r+1\n"),
      .arrive 0 ([0xff] ++ utf8 "\rERR:\n")],
    List.replicate 4 (.handler 0), [.registry], List.replicate 10 (.handler 0),
    List.replicate 8 .worker, [.finish 0 (.failure "reset")], List.replicate 8 (.handler 0)]

/-- Where there is nothing yet, a log can be opened. -/
theorem openFile_empty :
    ∃ opened, EventLog.openFile FileTree.empty "log" = .ok (⟨some "log"⟩, opened) := by
  have hpieces : "log".splitOn "/" = ["log"] := by
    rw [String.splitOn, if_neg (by decide)]
    iterate 3 rw [String.splitOnAux, if_neg (by decide), if_neg (by decide)]
    rw [String.splitOnAux]
    rfl
  have habove : FileTree.empty.createAbove "log" = .ok FileTree.empty := by
    rw [FileTree.createAbove, FileTree.above, hpieces]
    rfl
  have hlast : FileTree.empty.locateLast "log" = .ok (0, some "log") := by
    rw [FileTree.locateLast.eq_def, FileTree.names, hpieces]
    decide +kernel
  have hopen : (FileTree.empty.createAbove "log" >>= fun files => files.openEmpty "log")
      = .ok (FileTree.empty.add 0 "log" (.file [])) := by
    rw [habove]
    show FileTree.empty.openEmpty "log" = _
    rw [FileTree.openEmpty.eq_def, hlast]
    decide +kernel
  exact ⟨_, by rw [EventLog.openFile, hopen]⟩

theorem unforged_forgingRun :
    (∀ m ∈ forgingRun, m.IsPlain) ∧
    ((create {} 12345).saidIn 0 forgingRun).map Utterance.response
      = [.welcome "a\rACK:b:Welcome", .invalidFormat, .result "a\rACK:b:Welcome" "2"] ∧
    (((create {} 12345).applyAll forgingRun).service.output? 0).map
        (fun out => out.pipe.accepted.count lineFeed) = some 3 ∧
    ((create {} 12345).applyAll forgingRun).service.log.map (fun entry => entry.2.detail)
      = ["Server started on port 12345", "Connected from peer", "Unknown command: \uFFFD\rERR",
          "Expression received: 1\r+1", "1\r+1 = 2", "I/O error: reset"] ∧
    (∃ log opened, EventLog.openFile FileTree.empty "log" = .ok (log, opened) ∧
      ∀ records : List (Timestamp × LogEntry), records.map Prod.snd
          = ((create {} 12345).applyAll forgingRun).service.log.map Prod.snd →
        ∃ content, (log.recordEach opened records).read "log" = .ok content ∧
          content.count lineFeed = 6) ∧
    Unforged (create {} 12345) forgingRun := by
  have hplain : ∀ m ∈ forgingRun, m.IsPlain := by
    simp [forgingRun, Move.IsPlain]
  have hunforged := unforged {} 12345 hplain
  have hlength : ((create {} 12345).applyAll forgingRun).service.log.length = 6 := by
    decide +kernel
  refine ⟨hplain, by decide +kernel, by decide +kernel, by decide +kernel, ?_, hunforged⟩
  obtain ⟨opened, hopened⟩ := openFile_empty
  refine ⟨_, opened, hopened, fun records hrecords => ?_⟩
  obtain ⟨content, hread, hlines⟩ :=
    hunforged.file _ _ _ _ records FileTree.sound_empty hopened hrecords
  have hsame := congrArg List.length hrecords
  rw [List.length_map, List.length_map] at hsame
  exact ⟨content, hread, hlines.count.trans (hsame.trans hlength)⟩

end Server

end Reckoner
