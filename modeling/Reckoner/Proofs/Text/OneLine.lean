import Reckoner.EventLog.Entry
import Reckoner.Text.Span

/-!
# Texts on one line

A text that is put together from texts on one line is on one line, and numbers, spans and moments
are put together from digits and signs.

* `notMem_append` — two texts, one after the other.
* `notMem_toString`, `Span.notMem_text`, `Timestamp.notMem_text` — numbers, spans and moments.
-/

namespace Reckoner

theorem notMem_append {s t : String} (hs : '\n' ∉ s.toList) (ht : '\n' ∉ t.toList) :
    '\n' ∉ (s ++ t).toList := by
  rw [String.toList_append, List.mem_append, not_or]
  exact ⟨hs, ht⟩

theorem notMem_ofList {row : List Char} (h : '\n' ∉ row) : '\n' ∉ (String.ofList row).toList := by
  rwa [String.toList_ofList]

/-! ### Digits -/

theorem notMem_toDigits (n : Nat) : '\n' ∉ Nat.toDigits 10 n := by
  intro hmem
  cases Nat.isDigit_of_mem_toDigits (by decide) (by decide) hmem

theorem notMem_toString (n : Nat) : '\n' ∉ (toString n).toList := by
  rw [show toString n = n.repr from rfl, Nat.toList_repr]
  exact notMem_toDigits n

/-- Zeros before digits. -/
theorem notMem_padding (n width : Nat) : '\n' ∉ List.replicate width '0' ++ Nat.toDigits 10 n := by
  rw [List.mem_append, not_or]
  exact ⟨fun hmem => absurd (List.eq_of_mem_replicate hmem) (by decide), notMem_toDigits n⟩

/-! ### Spans -/

namespace Span

theorem notMem_fractionDigits (part places : Nat) : '\n' ∉ fractionDigits part places := by
  intro hmem
  -- Zeros at the end are dropped, and what is left are some of the padded digits.
  have hleft := (List.dropWhile_sublist _).subset (List.mem_reverse.mp hmem)
  exact notMem_padding part _ (List.mem_reverse.mp hleft)

theorem notMem_inUnit (amount places : Nat) {unit : String} (hunit : '\n' ∉ unit.toList) :
    '\n' ∉ (inUnit amount places unit).toList := by
  have hdigits := notMem_fractionDigits (amount % Nat.pow 10 places) places
  unfold inUnit
  split
  · exact notMem_append (notMem_toString _) hunit
  · exact notMem_append
      (notMem_append (notMem_append (notMem_toString _) (by decide)) (notMem_ofList hdigits)) hunit

theorem notMem_text (d : Span) : '\n' ∉ d.text.toList := by
  unfold text
  split
  · exact notMem_inUnit _ _ (by decide)
  split
  · exact notMem_inUnit _ _ (by decide)
  split
  · exact notMem_inUnit _ _ (by decide)
  · exact notMem_inUnit _ _ (by decide)

end Span

/-! ### Moments -/

namespace Timestamp

theorem notMem_padded (width n : Nat) : '\n' ∉ (padded width n).toList :=
  notMem_ofList (notMem_padding n _)

theorem notMem_yearText (year : Int) : '\n' ∉ (yearText year).toList := by
  unfold yearText
  split
  · exact notMem_append (by decide) (notMem_padded _ _)
  split
  · exact notMem_padded _ _
  · exact notMem_append (by decide) (notMem_padded _ _)

/-- One more field of two digits. -/
theorem notMem_field {s sign : String} (hs : '\n' ∉ s.toList) (hsign : '\n' ∉ sign.toList)
    (n : Nat) :
    '\n' ∉ (s ++ sign ++ padded 2 n).toList :=
  notMem_append (notMem_append hs hsign) (notMem_padded 2 n)

theorem notMem_text (t : Timestamp) : '\n' ∉ t.text.toList := by
  have hdash : '\n' ∉ "-".toList := by decide
  have hcolon : '\n' ∉ ":".toList := by decide
  have hday := notMem_field (notMem_field (notMem_yearText t.year) hdash t.month) hdash t.day
  have hhour := notMem_field hday (by decide : '\n' ∉ " ".toList) t.hour
  exact notMem_field (notMem_field hhour hcolon t.minute) hcolon t.second

end Timestamp

end Reckoner
