import Reckoner.EventLog.File
import Reckoner.Proofs.EventLog.OneLine
import Reckoner.Proofs.Files.Tree
import Reckoner.Proofs.Text.Lines

/-!
# The log file has a line for each entry

* `EventLog.recordEach` — entries that go into the file one after the other.
* `EventLog.HasLines` — content with a line for each of them.
* `EventLog.hasLines_of_open` — it is so in a file that was opened for the log.
-/

namespace Reckoner

namespace EventLog

variable {log : EventLog} {files opened : FileTree} {path : String} {content : Bytes}
  {records : List (Timestamp × LogEntry)}

/-- Entries go into the file one after the other, each at a moment of its own. -/
def recordEach (log : EventLog) (files : FileTree) (records : List (Timestamp × LogEntry)) :
    FileTree :=
  records.foldl (fun files record => log.record files record.1.text record.2) files

/-- The line of an entry, without its line feed. -/
def lineOf (record : Timestamp × LogEntry) : Bytes := utf8 (record.2.text record.1.text)

/-- **A line for each entry.** The lines of the content are those of the entries, and it has no line
    feed but theirs. -/
structure HasLines (content : Bytes) (records : List (Timestamp × LogEntry)) : Prop where
  lines : completeLines content = records.map lineOf
  rest : remainder content = []
  count : content.count lineFeed = records.length

theorem read_recordEach (hopen : files.read path = .ok content)
    (records : List (Timestamp × LogEntry)) :
    (recordEach ⟨some path⟩ files records).read path
      = .ok (content ++ ((records.map lineOf).map (· ++ [lineFeed])).flatten) := by
  induction records generalizing files content with
  | nil =>
    rw [List.map_nil, List.map_nil, List.flatten_nil, List.append_nil]
    exact hopen
  | cons record records ih =>
    have hfirst := FileTree.read_append hopen (lineOf record ++ [lineFeed])
    rw [List.map_cons, List.map_cons, List.flatten_cons, ← List.append_assoc]
    exact ih hfirst

/-- The file of a log that was opened is there, and empty. -/
theorem read_of_open (hsound : files.Sound) (hopen : openFile files path = .ok (log, opened)) :
    log = ⟨some path⟩ ∧ opened.read path = .ok [] := by
  unfold openFile at hopen
  split at hopen
  · rename_i made hmade
    cases hopen
    obtain ⟨above, habove, hempty⟩ := FileTree.ok_of_bind hmade
    exact ⟨rfl, (hsound.createLevels habove).read_openEmpty hempty⟩
  · cases hopen

/-- **No more lines than entries.** After any entries that are one line each have gone into a file
    that was opened for the log, it has a line for each of them. -/
theorem hasLines_of_open (hsound : files.Sound) (hopen : openFile files path = .ok (log, opened))
    (hrecords : ∀ record ∈ records, record.2.IsLine) :
    ∃ content, (log.recordEach opened records).read path = .ok content ∧
      HasLines content records := by
  obtain ⟨rfl, hempty⟩ := read_of_open hsound hopen
  have hlines : ∀ line ∈ records.map lineOf, lineFeed ∉ line := by
    intro line hline
    obtain ⟨record, hrecord, rfl⟩ := List.mem_map.mp hline
    exact notMem_utf8 ((hrecords record hrecord).notMem_text record.1)
  -- The file was empty at first, so its content is these lines and nothing else.
  have hread := read_recordEach hempty records
  rw [List.nil_append] at hread
  have hcomplete := completeLines_flatten hlines (List.not_mem_nil (a := lineFeed))
  rw [List.append_nil] at hcomplete
  refine ⟨_, hread, hcomplete, ?_, ?_⟩
  · have hall := flatten_completeLines ((records.map lineOf).map (· ++ [lineFeed])).flatten
    rwa [hcomplete, List.append_right_eq_self] at hall
  · rw [← length_completeLines, hcomplete, List.length_map]

end EventLog

end Reckoner
