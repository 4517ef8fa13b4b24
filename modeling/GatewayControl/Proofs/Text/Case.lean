/-!
# `GatewayControl.Proofs.Text.Case` -- what a character was before it was put into lower case

Only the letters of ASCII have a lower case of their own, so a character that comes out as anything but a
small letter has gone in as it is.
-/

namespace GatewayControl.Text

variable {c d : Char}

/-- A character keeps its case, or is a letter 32 places before the one it becomes. -/
theorem eq_or_of_toLower_eq (h : c.toLower = d) :
    c = d ∨ (65 ≤ c.toNat ∧ c.toNat ≤ 90 ∧ c.toNat + 32 = d.toNat) := by
  unfold Char.toLower at h
  split at h
  · next hupper =>
    have hlow : 65 ≤ c.toNat := UInt32.le_iff_toNat_le.1 hupper.1
    have hhigh : c.toNat ≤ 90 := UInt32.le_iff_toNat_le.1 hupper.2
    have hval : (c.toNat + 32) % 2 ^ 32 = d.toNat := congrArg (fun c : Char => c.val.toNat) h
    exact .inr ⟨hlow, hhigh, by omega⟩
  · exact .inl h

theorem eq_of_toLower_eq (hd : d.toNat < 97) (h : c.toLower = d) : c = d := by
  rcases eq_or_of_toLower_eq h with h | ⟨hlow, -, hval⟩
  · exact h
  · omega

end GatewayControl.Text
