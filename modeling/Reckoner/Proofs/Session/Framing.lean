import Reckoner.Proofs.Session.Transition
import Reckoner.Proofs.Text.Lines
import Mathlib.Data.List.TakeWhile

/-!
# The lines that a session reads

The input of a session comes in chunks that do not care for lines, and a session asks for a line
whenever it likes.  The lines that it gets are those of the stream all the same.

* `Reading` — what a session gets out of a try that succeeds: a line, or how the lines end.
* `readingsOf` — what it should get: the pieces of the stream one by one, up to one that is too
  long.
* `InputEvent`, `readings` — what it does get while chunks arrive and it tries again and again.
* `Input.Pulls` — all that one try can lead to.
* `readings_pieces` — the two agree, however the stream is cut.
-/

namespace Reckoner

/-! ### What is read -/

/-- What a session gets when it asks for a line. -/
inductive Reading where
  /-- A line. -/
  | line (text : String)
  /-- There is none, and why the session ends. -/
  | ended (e : SessionEnd)
  deriving DecidableEq

/-- After a line there is more to read. -/
def Reading.andThen (later : List Reading) : Reading → List Reading
  | .line text => .line text :: later
  | .ended e => [.ended e]

/-- What the bytes of a line without its line feed are read as.  A carriage return at the end is no
    part of the line, and does not count. -/
def readingOf (longest : Nat) (piece : Bytes) : Reading :=
  let body := dropLast? carriageReturn piece
  if longest < body.length then .ended (.failed (.lineTooLong longest))
  else .line (decodeLossy body)

/-- What the lines of a stream are read as, up to the first that is too long, or to the end. -/
def readingsOf (longest : Nat) : List Bytes → List Reading
  | [] => [.ended .peerClosed]
  | piece :: others => (readingOf longest piece).andThen (readingsOf longest others)

/-- What a session makes of what it gets. -/
def readingOfPulled (longest : Nat) : Pulled → Reading
  | .eof => .ended .peerClosed
  | .failure reason => .ended (.failed (.io reason))
  | .piece bytes =>
    match lineOfPiece longest bytes with
    | none => .ended (.failed (.lineTooLong longest))
    | some line => .line line

/-- What happens to the input of a session. -/
inductive InputEvent where
  /-- A chunk arrives. -/
  | arrive (chunk : Bytes)
  /-- The client has finished sending. -/
  | finish
  /-- The session asks for a line, or goes on to ask for it. -/
  | pull

/-- All bytes that arrive before the end of the input. -/
def arrivals : List InputEvent → Bytes
  | [] | .finish :: _ => []
  | .arrive chunk :: events => chunk ++ arrivals events
  | .pull :: events => arrivals events

/-- What a session reads, up to the end of the lines. -/
def readings (longest : Nat) (i : Input) : List InputEvent → List Reading
  | [] => []
  | .arrive chunk :: events => readings longest (i.arrive chunk) events
  | .finish :: events => readings longest (i.finish .eof) events
  | .pull :: events =>
    match i.pull (lineLimit longest) with
    | (i, none) => readings longest i events
    | (i, some pulled) => (readingOfPulled longest pulled).andThen (readings longest i events)

/-! ### The text of a line -/

section Reading

variable {longest : Nat} {body : Bytes}

theorem dropLast?_concat (b : UInt8) (body : Bytes) : dropLast? b (body ++ [b]) = body := by
  simp [dropLast?]

theorem dropLast?_of_notMem {b : UInt8} (h : b ∉ body) : dropLast? b body = body :=
  if_neg fun hlast => h (List.mem_of_getLast? hlast)

theorem le_length_dropLast? (b : UInt8) (body : Bytes) :
    body.length ≤ (dropLast? b body).length + 1 := by
  unfold dropLast?
  split
  · rw [List.length_dropLast]
    omega
  · omega

theorem readingOfPulled_piece (longest : Nat) (bytes : Bytes) :
    readingOfPulled longest (.piece bytes) = readingOf longest (dropLast? lineFeed bytes) := by
  simp only [readingOfPulled, readingOf, lineOfPiece]
  by_cases hlong : longest < (stripLineEnd bytes).length
  · rw [if_pos hlong]
    exact (if_pos hlong).symm
  · rw [if_neg hlong]
    exact (if_neg hlong).symm

/-- The two bytes of a line end are looked at beyond the longest line, so a line that goes on
    after them is too long even if the last byte that was looked at does not count. -/
theorem readingOf_of_length (h : longest + 2 ≤ body.length) :
    readingOf longest body = .ended (.failed (.lineTooLong longest)) := by
  have := le_length_dropLast? carriageReturn body
  exact if_pos (by omega)

theorem andThen_mono (r : Reading) {earlier later : List Reading} (h : earlier <+: later) :
    r.andThen earlier <+: r.andThen later := by
  cases r with
  | line text => exact (List.prefix_cons_inj _).2 h
  | ended e => exact List.prefix_rfl

end Reading

/-! ### One try -/

namespace Input

/-- The bytes that have arrived and are not handled. -/
def content (i : Input) : Bytes := i.line ++ i.taken ++ i.unread

/-- How many bytes the session has still to look at. -/
def pending (i : Input) : Nat := i.taken.length + i.unread.length

/-- How far the session is from having handled all of it. -/
def work (i : Input) : Nat := i.content.length + i.pending

/-- The line that was begun is shorter than the limit, and goes on. -/
structure Framed (limit : Nat) (i : Input) : Prop where
  notMem : lineFeed ∉ i.line
  length_lt : i.line.length < limit

/-- **All that one try can lead to.** The index is the input after it and what the session gets. -/
inductive Pulls (limit : Nat) (i : Input) : Input × Option Pulled → Prop where
  /-- A line that ends with a line feed. -/
  | line {i' : Input} {body : Bytes} (hcontent : i.content = body ++ lineFeed :: i'.content)
      (hbody : lineFeed ∉ body) (hline : i'.line = []) (hending : i'.ending = i.ending)
      (hpending : i'.pending < i.pending) : Pulls limit i (i', some (.piece (body ++ [lineFeed])))
  /-- As much of a line as is looked at. -/
  | cut {i' : Input} {body : Bytes} (hcontent : i.content = body ++ i'.content)
      (hbody : lineFeed ∉ body) (hlength : body.length = limit) :
      Pulls limit i (i', some (.piece body))
  /-- The rest of the input. -/
  | last {i' : Input} (hnotMem : lineFeed ∉ i.content) (hne : i.content ≠ [])
      (hending : i.ending = some .eof) (hcontent : i'.content = [])
      (hending' : i'.ending = i.ending) : Pulls limit i (i', some (.piece i.content))
  /-- There was nothing left. -/
  | eof {i' : Input} (hcontent : i.content = []) (hending : i.ending = some .eof) :
      Pulls limit i (i', some .eof)
  /-- The connection has failed. -/
  | failure {i' : Input} {reason : String} (hending : i.ending = some (.failure reason)) :
      Pulls limit i (i', some (.failure reason))
  /-- The line goes on.  All that has arrived was looked at, or at least some of it. -/
  | more {i' : Input} (hcontent : i'.content = i.content) (hframed : Framed limit i')
      (hending : i'.ending = i.ending) (hpending : i'.pending < i.pending ∨ i.ending = none) :
      Pulls limit i (i', none)

section Pulls

variable {limit : Nat} {i : Input}

/-- What is found in the bytes that were taken over: a line feed, the limit, or neither. -/
theorem look_cases (h : Framed limit i) :
    (∃ body rest, i.taken = body ++ lineFeed :: rest ∧ lineFeed ∉ body ∧
      i.look limit = ({ i with line := [], taken := rest }, some (i.line ++ body ++ [lineFeed]))) ∨
    (∃ body rest, i.taken = body ++ rest ∧ lineFeed ∉ body ∧ (i.line ++ body).length = limit ∧
      i.look limit = ({ i with line := [], taken := rest }, some (i.line ++ body))) ∨
    lineFeed ∉ i.taken ∧ (i.line ++ i.taken).length < limit ∧
      i.look limit = ({ i with line := i.line ++ i.taken, taken := [] }, none) := by
  have hlt := h.length_lt
  -- The window is the part of the bytes that fits into the limit.
  obtain ⟨window, rest, htaken, hwindow, hlength⟩ : ∃ window rest, i.taken = window ++ rest ∧
      i.taken.take (min (limit - i.line.length) i.taken.length) = window ∧
      (i.line.length + window.length = limit ∨
        i.line.length + window.length < limit ∧ rest = []) := by
    refine ⟨_, _, (List.take_append_drop _ _).symm, rfl, ?_⟩
    rw [List.length_take]
    by_cases hfits : limit - i.line.length ≤ i.taken.length
    · exact .inl (by omega)
    · exact .inr ⟨by omega, List.drop_eq_nil_of_le (by omega)⟩
  by_cases hmem : lineFeed ∈ window
  · obtain ⟨body, rest', rfl, hbody⟩ := List.eq_append_cons_of_mem hmem
    have hbefore : (body ++ lineFeed :: rest').takeWhile (· ≠ lineFeed) = body := by
      rw [List.takeWhile_append_of_pos fun b hb => by
        simpa using ne_of_mem_of_not_mem hb hbody]
      simp
    refine .inl ⟨body, rest' ++ rest, by rw [htaken]; simp, hbody, ?_⟩
    simp only [look, hwindow, hbefore]
    rw [if_pos (by simp), htaken]
    simp
  · have hbefore : window.takeWhile (· ≠ lineFeed) = window :=
      List.takeWhile_eq_self_iff.2 fun b hb => by simpa using ne_of_mem_of_not_mem hb hmem
    rcases hlength with hlength | ⟨hlength, rfl⟩
    · refine .inr (.inl ⟨window, rest, htaken, hmem, by rw [List.length_append, hlength], ?_⟩)
      simp only [look, hwindow, hbefore]
      rw [if_neg (by omega), if_pos (by rw [List.length_append]; omega), htaken]
      simp
    · rw [List.append_nil] at htaken
      subst htaken
      refine .inr (.inr ⟨hmem, by rw [List.length_append]; exact hlength, ?_⟩)
      simp only [look, hwindow, hbefore]
      rw [if_neg (by omega), if_neg (by rw [List.length_append]; omega)]
      simp

/-- The bytes that were taken over may settle the matter. -/
theorem pulls_of_look (h : Framed limit i) {i' : Input} {piece : Bytes}
    (hlook : i.look limit = (i', some piece)) : Pulls limit i (i', some (.piece piece)) := by
  rcases look_cases h with
    ⟨body, rest, htaken, hbody, heq⟩ | ⟨body, rest, htaken, hbody, hlength, heq⟩ |
    ⟨-, -, heq⟩
  · rw [heq] at hlook
    cases hlook
    exact .line (by simp [content, htaken]) (by simp [h.notMem, hbody]) rfl rfl
      (by simp only [pending, htaken, List.length_append, List.length_cons]; omega)
  · rw [heq] at hlook
    cases hlook
    exact .cut (by simp [content, htaken]) (by simp [h.notMem, hbody]) hlength
  · rw [heq] at hlook
    cases hlook

/-- Where they do not, they are all part of the line. -/
theorem framed_of_look (h : Framed limit i) {i' : Input} (hlook : i.look limit = (i', none)) :
    i' = { i with line := i.line ++ i.taken, taken := [] } ∧ Framed limit i' := by
  rcases look_cases h with
    ⟨body, rest, htaken, hbody, heq⟩ | ⟨body, rest, htaken, hbody, hlength, heq⟩ |
    ⟨hnotMem, hlength, heq⟩
  · rw [heq] at hlook
    cases hlook
  · rw [heq] at hlook
    cases hlook
  · rw [heq] at hlook
    cases hlook
    exact ⟨rfl, by simp [h.notMem, hnotMem], hlength⟩

/-- Bytes that only change their place, towards the line, change nothing. -/
theorem Pulls.of_same {before : Input} {result : Input × Option Pulled}
    (h : Pulls limit before result) (hcontent : before.content = i.content)
    (hending : before.ending = i.ending) (hpending : before.pending ≤ i.pending) :
    Pulls limit i result := by
  cases h with
  | line hcontent' hbody hline hending' hpending' =>
    exact .line (hcontent ▸ hcontent') hbody hline (hending'.trans hending) (by omega)
  | cut hcontent' hbody hlength => exact .cut (hcontent ▸ hcontent') hbody hlength
  | last hnotMem hne hending' hcontent' hending'' =>
    rw [hcontent] at hnotMem hne ⊢
    exact .last hnotMem hne (hending ▸ hending') hcontent' (hending''.trans hending)
  | eof hcontent' hending' => exact .eof (hcontent ▸ hcontent') (hending ▸ hending')
  | failure hending' => exact .failure (hending ▸ hending')
  | more hcontent' hframed hending' hpending' =>
    exact .more (hcontent'.trans hcontent) hframed (hending'.trans hending)
      (hpending'.imp (fun hlt => by omega) fun hnone => hending ▸ hnone)

/-- What follows if all bytes are part of the line. -/
theorem pulls_pullEnd (h : Framed limit i) (htaken : i.taken = []) (hunread : i.unread = []) :
    Pulls limit i i.pullEnd := by
  have hcontent : i.content = i.line := by rw [content, htaken, hunread]; simp
  unfold pullEnd
  split
  · rename_i hending
    exact .more rfl h rfl (.inr hending)
  · rename_i hending
    exact .failure hending
  · rename_i hending
    by_cases hempty : i.line = []
    · simp only [hempty, List.isEmpty_nil, if_true]
      exact .eof (hcontent.trans hempty) hending
    · simp only [List.isEmpty_iff, hempty, if_false]
      rw [← hcontent]
      exact .last (hcontent ▸ h.notMem) (hcontent ▸ hempty) hending
        (by simp [content, htaken, hunread])
        rfl

/-- What the next portion leads to. -/
theorem pulls_takeOver (h : Framed limit i) (htaken : i.taken = []) (hunread : i.unread ≠ [])
    {i' : Input} {piece : Option Bytes} (hlook : i.takeOver.look limit = (i', piece)) :
    Pulls limit i (i', piece.map .piece) := by
  have hsame : i.takeOver.content = i.content := by simp [content, takeOver, htaken]
  have hframed : Framed limit i.takeOver := ⟨h.notMem, h.length_lt⟩
  cases piece with
  | none =>
    obtain ⟨rfl, hlast⟩ := framed_of_look hframed hlook
    have hpositive : 0 < i.unread.length := List.length_pos_iff.2 hunread
    have hportion : 0 < portion := by decide
    refine .more (by simp [content, takeOver, htaken]) hlast rfl (.inl ?_)
    simp only [pending, takeOver, List.length_nil, List.length_drop]
    omega
  | some piece =>
    refine (pulls_of_look hframed hlook).of_same hsame rfl ?_
    simp only [pending, takeOver, List.length_take, List.length_drop]
    omega

/-- **One try.** What a session gets when it asks for a line is one of these. -/
theorem pulls_pull (h : Framed limit i) : Pulls limit i (i.pull limit) := by
  unfold pull
  cases hlook : i.look limit with
  | mk before found =>
    cases found with
    | some piece => exact pulls_of_look h hlook
    | none =>
      obtain ⟨hbefore, hframed⟩ := framed_of_look h hlook
      have htaken : before.taken = [] := by rw [hbefore]
      have hcontent : before.content = i.content := by rw [hbefore]; simp [content]
      have hending : before.ending = i.ending := by rw [hbefore]
      have hpending : before.pending ≤ i.pending := by rw [hbefore]; simp [pending]
      by_cases hunread : before.unread = []
      · simp only [hunread, List.isEmpty_nil, if_true]
        exact (pulls_pullEnd hframed htaken hunread).of_same hcontent hending hpending
      · simp only [List.isEmpty_iff, hunread, if_false]
        exact (pulls_takeOver hframed htaken hunread rfl).of_same hcontent hending hpending

/-- What a session gets as a line has no line feed but the one at its end. -/
theorem notMem_of_pull (h : Framed limit i) {i' : Input} {bytes : Bytes}
    (hpull : i.pull limit = (i', some (.piece bytes))) : lineFeed ∉ dropLast? lineFeed bytes := by
  have hpulls := pulls_pull h
  rw [hpull] at hpulls
  cases hpulls with
  | line hcontent hbody => rwa [dropLast?_concat]
  | cut hcontent hbody => rwa [dropLast?_of_notMem hbody]
  | last hnotMem => rwa [dropLast?_of_notMem hnotMem]

theorem Framed.look (h : Framed limit i) : Framed limit (i.look limit).1 := by
  have hempty : Framed limit { i with line := [], taken := (i.look limit).1.taken } :=
    ⟨List.not_mem_nil, Nat.zero_lt_of_lt h.length_lt⟩
  rcases look_cases h with
    ⟨body, rest, htaken, hbody, heq⟩ | ⟨body, rest, htaken, hbody, hlength, heq⟩ |
    ⟨-, -, heq⟩
  · rw [heq] at hempty ⊢
    exact hempty
  · rw [heq] at hempty ⊢
    exact hempty
  · rw [heq]
    exact (framed_of_look h heq).2

/-- A try leaves the line that was begun as it should be. -/
theorem Framed.pull (h : Framed limit i) : Framed limit (i.pull limit).1 := by
  unfold Input.pull
  have hlook := h.look
  cases hfound : i.look limit with
  | mk before found =>
  rw [hfound] at hlook
  cases found with
  | some piece => exact hlook
  | none =>
    dsimp only
    split
    · unfold pullEnd
      split
      · exact hlook
      · exact hlook
      · split
        · exact hlook
        · exact ⟨List.not_mem_nil, Nat.zero_lt_of_lt h.length_lt⟩
    · have htaken : Framed limit before.takeOver := ⟨hlook.notMem, hlook.length_lt⟩
      exact htaken.look

end Pulls

end Input

/-! ### All lines -/

section Readings

variable {longest : Nat} {i : Input} {events : List InputEvent}

namespace Input

/-- All bytes that are not handled, with those that are still to arrive. -/
def stream (i : Input) (events : List InputEvent) : Bytes :=
  i.content ++ if i.ending.isSome then [] else arrivals events

theorem stream_arrive (i : Input) (chunk : Bytes) (events : List InputEvent) :
    (i.arrive chunk).stream events = i.stream (.arrive chunk :: events) := by
  unfold arrive stream
  cases hending : i.ending <;> simp [hending, content, arrivals]

theorem stream_finish (i : Input) (events : List InputEvent)
    (hending : i.ending = none ∨ i.ending = some .eof) :
    (i.finish .eof).stream events = i.stream (.finish :: events) := by
  rcases hending with hending | hending <;> simp [finish, stream, hending, content, arrivals]

theorem Framed.arrive {limit : Nat} (h : Framed limit i) (chunk : Bytes) :
    Framed limit (i.arrive chunk) := by
  unfold Input.arrive
  split
  · exact h
  · exact ⟨h.notMem, h.length_lt⟩

theorem Framed.finish {limit : Nat} (h : Framed limit i) (ending : InputEnd) :
    Framed limit (i.finish ending) := by
  unfold Input.finish
  split
  · exact ⟨h.notMem, h.length_lt⟩
  · exact ⟨h.notMem, h.length_lt⟩
  · exact h

theorem ending_arrive (i : Input) (chunk : Bytes) : (i.arrive chunk).ending = i.ending := by
  unfold arrive
  split <;> rfl

theorem ending_finish (h : i.ending = none ∨ i.ending = some .eof) :
    (i.finish .eof).ending = some .eof := by
  rcases h with h | h <;> simp [finish, h]

end Input

/-- The bytes that are looked at can be counted: two more than the longest line has, or at least all
    of every line that comes. -/
def Countable (longest : Nat) (lines : List Bytes) : Prop :=
  lineLimit longest = longest + 2 ∨ ∀ piece ∈ lines, piece.length < lineLimit longest

theorem Countable.mono {lines others : List Bytes} (h : Countable longest lines)
    (hsubset : others ⊆ lines) : Countable longest others :=
  h.imp_right fun hshort piece hpiece => hshort piece (hsubset hpiece)

/-- **What one try adds.** The reading comes to its end, or something is read, maybe nothing, and
    an input is left of which the rest is to be read. -/
inductive Advance (longest : Nat) (i : Input) (events : List InputEvent) : Prop where
  /-- The reading is over. -/
  | stops (hreadings : ∀ later,
      readings longest i (.pull :: later) = readingsOf longest (pieces (i.stream events)))
  /-- The reading goes on.  There is less to do unless more bytes have to arrive. -/
  | onward {i' : Input} {got : List Reading} (hframed : i'.Framed (lineLimit longest))
      (hending : i'.ending = i.ending) (hwork : i'.work < i.work ∨ i.ending = none)
      (hreadings : ∀ later, readings longest i (.pull :: later) = got ++ readings longest i' later)
      (hpieces : readingsOf longest (pieces (i.stream events))
        = got ++ readingsOf longest (pieces (i'.stream events)))
      (hsubset : pieces (i'.stream events) ⊆ pieces (i.stream events))

/-- A line that has ended is read, or it is too long. -/
theorem Advance.of_line {i' : Input} {bytes body : Bytes}
    (hpull : i.pull (lineLimit longest) = (i', some (.piece bytes)))
    (hbytes : dropLast? lineFeed bytes = body)
    (hpieces : pieces (i.stream events) = body :: pieces (i'.stream events))
    (hframed : i'.Framed (lineLimit longest)) (hending : i'.ending = i.ending)
    (hwork : i'.work < i.work) : Advance longest i events := by
  have hreadings : ∀ later, readings longest i (.pull :: later)
      = (readingOf longest body).andThen (readings longest i' later) := by
    intro later
    simp only [readings, hpull, readingOfPulled_piece, hbytes]
  cases hread : readingOf longest body with
  | line text =>
    have hfirst (later : List InputEvent) : readings longest i (.pull :: later)
        = [.line text] ++ readings longest i' later := by
      rw [hreadings, hread]
      rfl
    refine .onward hframed hending (.inl hwork) hfirst ?_ ?_
    · rw [hpieces, readingsOf, hread]
      rfl
    · rw [hpieces]
      exact List.subset_cons_self _ _
  | ended e =>
    refine .stops fun later => ?_
    rw [hreadings, hpieces, readingsOf, hread]
    rfl

theorem Advance.of_pull (hframed : i.Framed (lineLimit longest))
    (hending : i.ending = none ∨ i.ending = some .eof)
    (hcount : Countable longest (pieces (i.stream events))) : Advance longest i events := by
  have hpositive : 0 < lineLimit longest := Nat.zero_lt_of_lt hframed.length_lt
  have hpulls := Input.pulls_pull hframed
  generalize hpull : i.pull (lineLimit longest) = found at hpulls
  cases hpulls with
  | @line i' body hcontent hbody hline hending' hpending =>
    have hstream : i.stream events = body ++ lineFeed :: i'.stream events := by
      simp only [Input.stream, hcontent, hending', List.append_assoc, List.cons_append]
    refine .of_line hpull (dropLast?_concat _ _) (by rw [hstream, pieces_line hbody]) ?_ hending' ?_
    · exact ⟨by simp [hline], by simpa [hline] using hpositive⟩
    · have := congrArg List.length hcontent
      simp only [List.length_append, List.length_cons] at this
      simp only [Input.work]
      omega
  | @cut i' body hcontent hbody hlength =>
    -- The line goes on at least up to here, and so it is too long.
    have hne : body ≠ [] := List.ne_nil_of_length_pos (hlength ▸ hpositive)
    obtain ⟨more, others, hpieces⟩ := exists_pieces_eq hbody hne
      (i'.content ++ if i.ending.isSome then [] else arrivals events)
    rw [← List.append_assoc, ← hcontent] at hpieces
    have hlimit : lineLimit longest = longest + 2 := by
      refine hcount.resolve_right fun hshort => ?_
      have := hshort (body ++ more) (by rw [Input.stream, hpieces]; exact List.mem_cons_self)
      rw [List.length_append] at this
      omega
    refine .stops fun later => ?_
    rw [Input.stream, hpieces, readingsOf,
      readingOf_of_length (by rw [List.length_append]; omega)]
    simp only [readings, hpull, readingOfPulled_piece, dropLast?_of_notMem hbody,
      readingOf_of_length (hlimit ▸ hlength.ge : longest + 2 ≤ body.length)]
    rfl
  | @last i' hnotMem hne hending' hcontent hending'' =>
    have hstream : i.stream events = i.content := by simp [Input.stream, hending']
    have hstream' : i'.stream events = [] := by simp [Input.stream, hending', hending'', hcontent]
    refine .of_line hpull (dropLast?_of_notMem hnotMem) ?_ ?_ hending'' ?_
    · rw [hstream, hstream', pieces_of_notMem hnotMem hne, pieces_nil]
    · have hline : i'.line = [] :=
        (List.append_eq_nil_iff.1 (List.append_eq_nil_iff.1 hcontent).1).1
      exact ⟨by simp [hline], by simpa [hline] using hpositive⟩
    · have hpositive := List.length_pos_iff.2 hne
      have hnothing := congrArg List.length hcontent
      simp only [Input.content, List.length_append, List.length_nil] at hnothing
      simp only [Input.work, Input.pending, hcontent, List.length_nil]
      omega
  | eof hcontent hending' =>
    refine .stops fun later => ?_
    rw [Input.stream, hcontent, hending']
    simp only [readings, hpull]
    rfl
  | failure hending' => simp [hending'] at hending
  | @more i' hcontent hframed' hending' hpending =>
    have hstream : i'.stream events = i.stream events := by
      simp only [Input.stream, hcontent, hending']
    have hnothing (later : List InputEvent) : readings longest i (.pull :: later)
        = [] ++ readings longest i' later := by
      simp only [readings, hpull, List.nil_append]
    refine .onward hframed' hending' ?_ hnothing ?_ ?_
    · refine hpending.imp_left fun hlt => ?_
      simp only [Input.work, hcontent]
      omega
    · rw [hstream, List.nil_append]
    · rw [hstream]
      exact List.Subset.refl _

/-- After the end of the input enough tries get to the end of the reading. -/
theorem readings_of_ended (hframed : i.Framed (lineLimit longest)) (hending : i.ending = some .eof)
    (hcount : Countable longest (pieces (i.stream []))) :
    ∃ n, ∀ k, n ≤ k →
      readings longest i (List.replicate k .pull) = readingsOf longest (pieces (i.stream [])) := by
  -- Nothing arrives any more, so each try leaves less to do.
  induction hwork : i.work using Nat.strongRecOn generalizing i with
  | ind work ih =>
    subst hwork
    cases Advance.of_pull hframed (.inr hending) hcount with
    | stops hreadings =>
      refine ⟨1, fun k hk => ?_⟩
      obtain ⟨k, rfl⟩ := Nat.exists_eq_add_of_le' hk
      exact hreadings _
    | @onward i' got hframed' hending' hwork hreadings hpieces hsubset =>
      have hless := hwork.resolve_right (by simp [hending])
      obtain ⟨n, hn⟩ := ih i'.work hless hframed' (hending'.trans hending) (hcount.mono hsubset) rfl
      refine ⟨n + 1, fun k hk => ?_⟩
      obtain ⟨k, rfl⟩ := Nat.exists_eq_add_of_le' (Nat.le_of_add_left_le hk)
      rw [List.replicate_succ, hreadings, hn k (by omega), hpieces]

/-- The same from any state of the input, if its end is to come. -/
theorem readings_of_finish (hframed : i.Framed (lineLimit longest))
    (hending : i.ending = none ∧ .finish ∈ events ∨ i.ending = some .eof)
    (hcount : Countable longest (pieces (i.stream events))) :
    ∃ n, ∀ k, n ≤ k → readings longest i (events ++ List.replicate k .pull)
      = readingsOf longest (pieces (i.stream events)) := by
  induction events generalizing i with
  | nil => exact readings_of_ended hframed (hending.resolve_left (by simp)) hcount
  | cons event events ih =>
    cases event with
    | arrive chunk =>
      rw [← Input.stream_arrive] at hcount ⊢
      exact ih (hframed.arrive chunk) (by simpa [Input.ending_arrive] using hending) hcount
    | finish =>
      have hopen : i.ending = none ∨ i.ending = some .eof := hending.imp_left And.left
      rw [← Input.stream_finish i events hopen] at hcount ⊢
      exact ih (hframed.finish _) (.inr (Input.ending_finish hopen)) hcount
    | pull =>
      have hlater : i.ending = none ∧ .finish ∈ events ∨ i.ending = some .eof := by
        simpa using hending
      cases Advance.of_pull hframed (hlater.imp_left And.left) hcount with
      | stops hreadings => exact ⟨0, fun k _ => hreadings _⟩
      | onward hframed' hending' hwork hreadings hpieces hsubset =>
        obtain ⟨n, hn⟩ := ih hframed' (hending' ▸ hlater) (hcount.mono hsubset)
        refine ⟨n, fun k hk => ?_⟩
        rw [List.cons_append, hreadings, hn k hk]
        exact hpieces.symm

/-- Reading goes on where it was broken off. -/
theorem readings_mono (longest : Nat) (i : Input) {earlier events : List InputEvent}
    (h : earlier <+: events) : readings longest i earlier <+: readings longest i events := by
  obtain ⟨later, rfl⟩ := h
  induction earlier generalizing i with
  | nil => exact List.nil_prefix
  | cons event earlier ih =>
    cases event with
    | arrive chunk => exact ih _
    | finish => exact ih _
    | pull =>
      simp only [List.cons_append, readings]
      cases i.pull (lineLimit longest) with
      | mk i' pulled =>
        cases pulled with
        | none => exact ih i'
        | some pulled => exact andThen_mono _ (ih i')

/-- **Framing.** However a stream is cut into chunks, and whenever lines are asked for in between,
    what has been read is always the beginning of what the lines of the whole stream are read as, up
    to the first that is too long or to the end; and that is all read once it was asked for often
    enough.

    Lengths are counted in 64 bits.  So if two more bytes than the longest line cannot be counted,
    then the bytes of each line with a line feed have to be. -/
theorem readings_pieces (longest : Nat) (events : List InputEvent) (hfinish : .finish ∈ events)
    (hcount : longest + 2 < Nat.pow 2 64 ∨
      ∀ piece ∈ pieces (arrivals events), piece.length + 1 < Nat.pow 2 64) :
    (∀ earlier, earlier <+: events →
      readings longest {} earlier <+: readingsOf longest (pieces (arrivals events))) ∧
    ∃ n, ∀ k, n ≤ k → readings longest {} (events ++ List.replicate k .pull)
      = readingsOf longest (pieces (arrivals events)) := by
  have hlimit : lineLimit longest = min (longest + 2) (Nat.pow 2 64 - 1) := rfl
  have hwide : 2 ≤ Nat.pow 2 64 := by decide
  have hframed : ({} : Input).Framed (lineLimit longest) := by
    refine ⟨List.not_mem_nil, ?_⟩
    rw [hlimit, List.length_nil]
    omega
  -- Whichever of the two can be counted, no line is cut off at the end of the counting.
  have hcount' : Countable longest (pieces (arrivals events)) := by
    rcases hcount with hlongest | hshort
    · exact .inl (by omega)
    · by_cases hlongest : longest + 2 < Nat.pow 2 64
      · exact .inl (by omega)
      · exact .inr fun piece hpiece => by have := hshort piece hpiece; omega
  obtain ⟨n, hn⟩ := readings_of_finish (i := {}) hframed (.inl ⟨rfl, hfinish⟩) hcount'
  refine ⟨fun earlier hearlier => ?_, n, hn⟩
  have := readings_mono longest {} (hearlier.trans (List.prefix_append events (.replicate n .pull)))
  rwa [hn n le_rfl] at this

/-- Lines of two bytes are accepted.  The chunks cut the stream between a carriage return and its
    line feed, and the fourth line has one byte too many. -/
theorem readings_pieces_crampedStream :
    let events : List InputEvent :=
      [.arrive (utf8 "ab\r"), .pull, .arrive (utf8 "\nc\n\nde"), .pull, .arrive (utf8 "f\r\ng"),
        .finish]
    readingsOf 2 (pieces (arrivals events))
        = [.line "ab", .line "c", .line "", .ended (.failed (.lineTooLong 2))] ∧
      ∃ n, ∀ k, n ≤ k → readings 2 {} (events ++ List.replicate k .pull)
        = [.line "ab", .line "c", .line "", .ended (.failed (.lineTooLong 2))] := by
  have hreadings : readingsOf 2 (pieces (arrivals
      [.arrive (utf8 "ab\r"), .pull, .arrive (utf8 "\nc\n\nde"), .pull, .arrive (utf8 "f\r\ng"),
        .finish])) = [.line "ab", .line "c", .line "", .ended (.failed (.lineTooLong 2))] := by
    decide +kernel
  refine ⟨hreadings, ?_⟩
  have := (readings_pieces 2 [.arrive (utf8 "ab\r"), .pull, .arrive (utf8 "\nc\n\nde"), .pull,
    .arrive (utf8 "f\r\ng"), .finish] (by simp) (.inl (by decide))).2
  rwa [hreadings] at this

end Readings

end Reckoner
