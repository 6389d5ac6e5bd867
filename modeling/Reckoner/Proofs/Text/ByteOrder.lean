import Reckoner.Text.Utf8
import Mathlib.Data.String.Basic

/-!
# The order of texts is that of their bytes

Texts are compared character by character, and their bytes come in the same order: of two different
characters the greater one has the greater byte at the first place where their sequences differ, and
there is such a place in both.

* `encode_lt_encode` — one character.
* `utf8_lt_utf8` — a text.
-/

namespace Reckoner

/-- **One character.** Whatever follows, the bytes of a smaller character come first. -/
theorem encode_lt_encode {c d : Char} (h : c < d) (s t : Bytes) :
    String.utf8EncodeChar c ++ s < String.utf8EncodeChar d ++ t := by
  have hcode : c.val.toNat < d.val.toNat := h
  have hlast : d.val.toNat < 0x110000 := by
    rcases d.valid with hvalid | hvalid <;> omega
  unfold String.utf8EncodeChar
  dsimp only
  generalize c.val.toNat = v at *
  generalize d.val.toNat = w at *
  have hquotient (n : Nat) : v / n < w / n ∨ v / n = w / n :=
    Nat.lt_or_eq_of_le (Nat.div_le_div_right (Nat.le_of_lt hcode))
  -- A greater code has no shorter sequence, and a longer sequence has a greater first byte.
  split_ifs <;> try (exfalso; omega)
  all_goals
    simp only [List.cons_append, List.nil_append, List.cons_lt_cons_iff, UInt8.lt_iff_toNat_lt,
      ← UInt8.toNat_inj, UInt8.toNat_ofNat']
  rotate_right
  · -- Four bytes each: the first of the four parts of the code that differs decides.
    rcases hquotient 262144 with hfirst | hfirst
    · exact .inl (by omega)
    · refine .inr ⟨by omega, ?_⟩
      rcases hquotient 4096 with hsecond | hsecond
      · exact .inl (by omega)
      · exact .inr ⟨by omega, by omega⟩
  all_goals omega

/-- **A text.** Of two texts the smaller one has the smaller bytes. -/
theorem utf8_lt_utf8 {s t : String} (h : s < t) : utf8 s < utf8 t := by
  rw [String.lt_iff] at h
  unfold utf8
  generalize s.toList = chars at *
  generalize t.toList = chars' at *
  induction h with
  | nil =>
    rename_i d chars'
    have hlength := String.length_utf8EncodeChar d
    have hpos := Char.utf8Size_pos d
    rw [List.flatMap_nil, List.flatMap_cons]
    cases hd : String.utf8EncodeChar d with
    | nil =>
      rw [hd, List.length_nil] at hlength
      omega
    | cons b bytes => exact List.nil_lt_cons b _
  | rel h => exact encode_lt_encode h _ _
  | cons h ih => exact List.append_left_lt ih

end Reckoner
