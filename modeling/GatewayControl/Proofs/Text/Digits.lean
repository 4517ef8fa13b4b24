/-!
# `GatewayControl.Proofs.Text.Digits` -- the digits of a number

Numbers are written with `Nat.toDigits`, as characters. `digitsOf` is the same list as numbers, which
is what the readers of the various formats yield; folding it gives the number back
(`foldl_digitsOf`), its digits are below the base, and no zero leads a longer number.
-/

namespace GatewayControl.Text

/-- The digits of a number in a base, the most significant first. -/
def digitsOf (base n : Nat) : List Nat :=
  if _h : 1 < base ∧ base ≤ n then digitsOf base (n / base) ++ [n % base] else [n]
termination_by n
decreasing_by exact Nat.div_lt_self (by omega) _h.1

variable {base n d : Nat}

theorem digitsOf_of_lt (h : n < base) : digitsOf base n = [n] := by
  rw [digitsOf, dif_neg (by omega)]

theorem digitsOf_of_le (hb : 1 < base) (h : base ≤ n) :
    digitsOf base n = digitsOf base (n / base) ++ [n % base] := by
  rw [digitsOf, dif_pos ⟨hb, h⟩]

theorem digitsOf_ne_nil (base n : Nat) : digitsOf base n ≠ [] := by
  rw [digitsOf]
  split <;> simp

/-- The characters of the library are the digits one by one. -/
theorem toDigits_eq_map (hb : 1 < base) (n : Nat) :
    Nat.toDigits base n = (digitsOf base n).map Nat.digitChar := by
  induction n using Nat.strongRecOn with
  | ind n ih =>
    by_cases h : base ≤ n
    · have hlt : n / base < n := Nat.div_lt_self (by omega) hb
      rw [Nat.toDigits_of_base_le hb h, digitsOf_of_le hb h, ih _ hlt, List.map_append]
      rfl
    · rw [Nat.toDigits_of_lt_base (by omega), digitsOf_of_lt (by omega)]
      rfl

/-- Every digit is below the base. -/
theorem lt_of_mem_digitsOf (hb : 1 < base) (h : d ∈ digitsOf base n) : d < base := by
  induction n using Nat.strongRecOn with
  | ind n ih =>
    by_cases hn : base ≤ n
    · rw [digitsOf_of_le hb hn, List.mem_append, List.mem_singleton] at h
      rcases h with h | h
      · exact ih _ (Nat.div_lt_self (by omega) hb) h
      · rw [h]
        exact Nat.mod_lt n (by omega)
    · rw [digitsOf_of_lt (by omega), List.mem_singleton] at h
      omega

/-- Read from the left, the digits make up the number again. -/
theorem foldl_digitsOf (hb : 1 < base) (n : Nat) :
    (digitsOf base n).foldl (fun m d => m * base + d) 0 = n := by
  induction n using Nat.strongRecOn with
  | ind n ih =>
    by_cases h : base ≤ n
    · rw [digitsOf_of_le hb h, List.foldl_append, ih _ (Nat.div_lt_self (by omega) hb)]
      exact Nat.div_add_mod' n base
    · rw [digitsOf_of_lt (by omega)]
      exact (congrArg (· + n) (Nat.zero_mul base)).trans (Nat.zero_add n)

/-- Zero is written as one digit, and nothing else starts with a zero. -/
theorem head?_digitsOf (hb : 1 < base) (hn : 0 < n) : (digitsOf base n).head? ≠ some 0 := by
  induction n using Nat.strongRecOn with
  | ind n ih =>
    by_cases h : base ≤ n
    · have hpos : 0 < n / base := Nat.div_pos h (by omega)
      have hhead := ih _ (Nat.div_lt_self (by omega) hb) hpos
      obtain ⟨first, rest, hcons⟩ := List.exists_cons_of_ne_nil (digitsOf_ne_nil base (n / base))
      rw [hcons] at hhead
      rw [digitsOf_of_le hb h, hcons]
      exact hhead
    · rw [digitsOf_of_lt (by omega)]
      simp only [List.head?_cons, ne_eq, Option.some.injEq]
      omega

/-- A number below a power of the base has at most as many digits as the exponent says. -/
theorem length_digitsOf_le (hb : 1 < base) {k : Nat} (hk : 0 < k) (h : n < Nat.pow base k) :
    (digitsOf base n).length ≤ k := by
  have hlen := (Nat.length_toDigits_le_iff hb hk).2 h
  rw [toDigits_eq_map hb, List.length_map] at hlen
  exact hlen

end GatewayControl.Text
