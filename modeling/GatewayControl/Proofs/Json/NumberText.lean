import GatewayControl.Json.Tree
import GatewayControl.Proofs.Decimal.ShortestDigits
import GatewayControl.Proofs.Text.Digits

/-!
# `GatewayControl.Proofs.Json.NumberText` -- reading numbers that were written

A literal that keeps the rules of the grammar (`Literal.Grammatical`) is read back from its text, up to
whatever cannot belong to a number (`readNumber_bytes`). The printer writes literals: an integer is its
digits (`literalOf`), and a finite floating-point number is its shortest decimal, laid out with a
fraction or an exponent (`floatLiteral`). So a written number is read back as its literal, whatever its
kind (`readNumber_chars`).
-/

namespace GatewayControl.Json

variable {rest : Bytes} {l : Literal}

/-! ## Literals and their texts -/

/-- The bytes of decimal digits. -/
def digitBytes (digits : List Nat) : Bytes := digits.map fun d => Bytes.ascii d.digitChar

/-- The text of a fraction: nothing if there are no digits. -/
def fractionBytes (digits : List Nat) : Bytes := if digits = [] then [] else 46 :: digitBytes digits

/-- The text of an exponent, its sign written out. -/
def exponentBytes : Option (Bool × List Nat) → Bytes
  | none => []
  | some (negative, digits) => 101 :: (if negative then 45 else 43) :: digitBytes digits

/-- The text of a literal after its sign. -/
def Literal.unsignedBytes (l : Literal) : Bytes :=
  digitBytes l.whole ++ (fractionBytes l.fraction ++ exponentBytes l.exponent)

/-- The text of a literal. -/
def Literal.bytes (l : Literal) : Bytes := (if l.negative then [45] else []) ++ l.unsignedBytes

/-- The literal keeps the rules of the grammar. -/
structure Literal.Grammatical (l : Literal) : Prop where
  whole : l.whole ≠ [] ∧ ∀ d ∈ l.whole, d < 10
  /-- No zero stands before another digit. -/
  lead : ∀ d ds, l.whole ≠ 0 :: d :: ds
  fraction : ∀ d ∈ l.fraction, d < 10
  exponent : ∀ negative digits, l.exponent = some (negative, digits) →
    digits ≠ [] ∧ ∀ d ∈ digits, d < 10

/-- The bytes go on with no digit. -/
def EndsDigits (rest : Bytes) : Prop := ∀ b ∈ rest.head?, isDigit b = false

/-- The bytes go on with nothing that could belong to a number. -/
def EndsNumber (rest : Bytes) : Prop :=
  ∀ b ∈ rest.head?, isDigit b = false ∧ b ≠ 46 ∧ b ≠ 101 ∧ b ≠ 69

theorem endsNumber_cons {b : UInt8} (h : isDigit b = false ∧ b ≠ 46 ∧ b ≠ 101 ∧ b ≠ 69)
    (rest : Bytes) : EndsNumber (b :: rest) := by
  intro c hc
  cases hc
  exact h

theorem EndsNumber.endsDigits (h : EndsNumber rest) : EndsDigits rest := fun b hb => (h b hb).1

theorem endsDigits_cons {b : UInt8} (h : isDigit b = false) (rest : Bytes) : EndsDigits (b :: rest) := by
  intro c hc
  cases hc
  exact h

/-! ## Reading literals -/

theorem isDigit_digitChar {d : Nat} (h : d < 10) : isDigit (Bytes.ascii d.digitChar) = true ∧
    (Bytes.ascii d.digitChar).toNat - 48 = d := by
  have hall : ∀ k : Fin 10, isDigit (Bytes.ascii (Nat.digitChar k)) = true ∧
      (Bytes.ascii (Nat.digitChar k)).toNat - 48 = k := by decide
  exact hall ⟨d, h⟩

/-- Digits are read back up to the first byte that is none. -/
theorem readDigits_digits {digits : List Nat} (hd : ∀ d ∈ digits, d < 10) (hrest : EndsDigits rest) :
    readDigits (digitBytes digits ++ rest) = (digits, rest) := by
  have hstop : rest.takeWhile isDigit = [] ∧ rest.dropWhile isDigit = rest := by
    cases rest with
    | nil => exact ⟨rfl, rfl⟩
    | cons b bs =>
      have hb := hrest b rfl
      simp [hb]
  induction digits with
  | nil =>
    unfold readDigits digitBytes
    rw [List.map_nil, List.nil_append, hstop.1, hstop.2]
    rfl
  | cons d ds ih =>
    have hds := ih fun e he => hd e (List.mem_cons_of_mem _ he)
    have hdigit := isDigit_digitChar (hd d (List.mem_cons_self ..))
    unfold readDigits digitBytes at hds ⊢
    rw [Prod.mk.injEq] at hds
    simp only [List.map_cons, List.cons_append, List.takeWhile_cons, List.dropWhile_cons, hdigit.1,
      if_true, hdigit.2, hds.1, hds.2]

/-- An exponent is read back with its sign, and the lack of one as none. -/
theorem readExponent_bytes {exponent : Option (Bool × List Nat)}
    (h : ∀ negative digits, exponent = some (negative, digits) → digits ≠ [] ∧ ∀ d ∈ digits, d < 10)
    (hrest : EndsNumber rest) :
    readExponent (exponentBytes exponent ++ rest) = some (exponent, rest) := by
  cases exponent with
  | none =>
    unfold exponentBytes
    rw [List.nil_append]
    unfold readExponent
    split
    · rfl
    · next b bs =>
      have hb := (hrest b rfl).2.2
      rw [if_neg (by simp [hb.1, hb.2])]
  | some signed =>
    obtain ⟨negative, digits⟩ := signed
    obtain ⟨hne, hlt⟩ := h negative digits rfl
    have hread := readDigits_digits hlt hrest.endsDigits
    unfold exponentBytes
    cases negative <;>
    · simp only [Bool.false_eq_true, if_true, if_false, List.cons_append]
      rw [readExponent, if_pos (by decide)]
      simp only [hread]

/-- A fraction is read back, and the lack of one as no digits. -/
theorem readFraction_bytes {digits : List Nat} (h : ∀ d ∈ digits, d < 10) (hrest : EndsDigits rest)
    (hpoint : ∀ b ∈ rest.head?, b ≠ 46) :
    readFraction (fractionBytes digits ++ rest) = some (digits, rest) := by
  unfold fractionBytes
  split
  · next hnil =>
    rw [List.nil_append, hnil]
    unfold readFraction
    split
    · next bs => exact absurd rfl (hpoint 46 rfl)
    · rfl
  · next hne =>
    have hread := readDigits_digits h hrest
    rw [List.cons_append, readFraction, hread]
    cases digits with
    | nil => exact absurd rfl hne
    | cons d ds => rfl

/-- An exponent starts with no digit and no point, and so does what follows a number. -/
theorem head_exponentBytes (exponent : Option (Bool × List Nat)) (hrest : EndsNumber rest) :
    ∀ b ∈ (exponentBytes exponent ++ rest).head?, isDigit b = false ∧ b ≠ 46 := by
  intro b hb
  cases exponent with
  | none => exact ⟨(hrest b hb).1, (hrest b hb).2.1⟩
  | some signed =>
    cases hb
    exact ⟨by decide, by decide⟩

theorem endsDigits_fractionBytes (digits : List Nat) (hrest : EndsDigits rest) :
    EndsDigits (fractionBytes digits ++ rest) := by
  unfold fractionBytes
  split
  · exact hrest
  · exact endsDigits_cons (by decide) _

/-- A literal that keeps the rules is read back after its sign. -/
theorem readMagnitude_bytes (h : l.Grammatical) (hrest : EndsNumber rest) :
    readMagnitude l.negative (l.unsignedBytes ++ rest) = some (l, rest) := by
  have hexponent := readExponent_bytes h.exponent hrest
  have hhead := head_exponentBytes l.exponent hrest
  have hfraction := readFraction_bytes h.fraction (fun b hb => (hhead b hb).1) fun b hb => (hhead b hb).2
  have hwhole := readDigits_digits h.whole.2
    (endsDigits_fractionBytes l.fraction fun b hb => (hhead b hb).1)
  unfold readMagnitude Literal.unsignedBytes
  simp only [List.append_assoc]
  rw [hwhole]
  split
  · next heq => exact absurd (Prod.mk.inj heq).1 h.whole.1
  · next heq => exact absurd (Prod.mk.inj heq).1 (h.lead _ _)
  · next heq =>
    cases heq
    rw [hfraction, Option.bind_eq_bind, Option.bind_some]
    simp only [hexponent]
    rfl

/-- After its sign, a literal starts with a digit. -/
theorem exists_digit_cons (h : l.Grammatical) :
    ∃ b bs, l.unsignedBytes = b :: bs ∧ isDigit b = true := by
  obtain ⟨d, ds, hcons⟩ := List.exists_cons_of_ne_nil h.whole.1
  have hd := h.whole.2 d (hcons ▸ List.mem_cons_self ..)
  unfold Literal.unsignedBytes
  rw [hcons]
  exact ⟨_, _, rfl, (isDigit_digitChar hd).1⟩

/-- A literal starts with a sign or a digit. -/
theorem exists_cons_bytes (h : l.Grammatical) :
    ∃ b bs, l.bytes = b :: bs ∧ (b = 45 ∨ isDigit b = true) := by
  unfold Literal.bytes
  by_cases hn : l.negative = true
  · rw [if_pos hn]
    exact ⟨45, _, rfl, .inl rfl⟩
  · obtain ⟨b, bs, hcons, hb⟩ := exists_digit_cons h
    rw [if_neg hn, hcons]
    exact ⟨b, bs, rfl, .inr hb⟩

/-- **A literal is read back** from its text. -/
theorem readNumber_bytes (h : l.Grammatical) (hrest : EndsNumber rest) :
    readNumber (l.bytes ++ rest) = some (l, rest) := by
  have hread := readMagnitude_bytes h hrest
  unfold Literal.bytes
  by_cases hn : l.negative = true
  · rw [hn] at hread
    rw [if_pos hn]
    exact hread
  · obtain ⟨b, bs, hcons, hb⟩ := exists_digit_cons h
    rw [Bool.eq_false_iff.2 hn, hcons] at hread
    rw [if_neg hn, List.nil_append, hcons]
    unfold readNumber
    -- a digit is no minus sign
    split
    · next heq =>
      rw [(List.cons.inj heq).1] at hb
      exact absurd hb (by decide)
    · exact hread

/-! ## Integers -/

/-- The literal that a written integer is read as. -/
def literalOf (i : Int) : Literal := ⟨decide (i < 0), Text.digitsOf 10 i.natAbs, [], none⟩

theorem toDigits_bytes (n : Nat) :
    (Nat.toDigits 10 n).map Bytes.ascii = digitBytes (Text.digitsOf 10 n) := by
  rw [Text.toDigits_eq_map (by decide), List.map_map]
  rfl

/-- Digits that a positive number is written with do not start with a zero. -/
theorem digitsOf_lead (n d : Nat) (ds : List Nat) : Text.digitsOf 10 n ≠ 0 :: d :: ds := by
  intro hcons
  rcases Nat.eq_zero_or_pos n with hn | hn
  · rw [hn, Text.digitsOf_of_lt (by decide)] at hcons
    simp at hcons
  · have hhead : (Text.digitsOf 10 n).head? ≠ some 0 := Text.head?_digitsOf (by decide) hn
    rw [hcons] at hhead
    exact hhead rfl

theorem lt_of_mem_digitsOf_ten {n d : Nat} (h : d ∈ Text.digitsOf 10 n) : d < 10 :=
  Text.lt_of_mem_digitsOf (by decide) h

/-- An integer is spelled by the rules of the grammar. -/
theorem grammatical_literalOf (i : Int) : (literalOf i).Grammatical where
  whole := ⟨Text.digitsOf_ne_nil 10 _, fun _ => lt_of_mem_digitsOf_ten⟩
  lead := digitsOf_lead _
  fraction := fun _ hd => absurd hd List.not_mem_nil
  exponent := fun _ _ h => by cases h

/-- An integer is written as its literal. -/
theorem chars_int (i : Int) : (Number.int i).chars.map Bytes.ascii = (literalOf i).bytes := by
  have htail : fractionBytes [] ++ exponentBytes none = [] := rfl
  cases i with
  | ofNat n =>
    have hchars : (Number.int (.ofNat n)).chars = Nat.toDigits 10 n := Nat.toList_repr
    rw [hchars, toDigits_bytes]
    unfold Literal.bytes Literal.unsignedBytes literalOf
    rw [htail, List.append_nil, if_neg (by simp)]
    rfl
  | negSucc n =>
    have hchars : (Number.int (.negSucc n)).chars = '-' :: Nat.toDigits 10 (n + 1) := by
      have htext : toString (Int.negSucc n) = "-" ++ Nat.repr (n + 1) := rfl
      unfold Number.chars
      simp only
      rw [htext, String.toList_append, Nat.toList_repr]
      rfl
    rw [hchars, List.map_cons, toDigits_bytes]
    unfold Literal.bytes Literal.unsignedBytes literalOf
    rw [htail, List.append_nil, if_pos (by simp)]
    rfl

theorem digitsValue_digitsOf (n : Nat) : digitsValue (Text.digitsOf 10 n) = n :=
  Text.foldl_digitsOf (by decide) n

/-- An integer of 64 bits, signed or not, is decoded from its literal. -/
theorem number?_literalOf {i : Int} (hlow : -0x8000000000000000 ≤ i) (hhigh : i ≤ maxNat64) :
    (literalOf i).number? = some (.int i) := by
  unfold Literal.number? literalOf
  simp only [digitsValue_digitsOf, and_self, if_true, decide_eq_true_eq]
  by_cases hi : i < 0
  · rw [if_pos hi, if_pos (by omega)]
    congr
    omega
  · rw [if_neg hi, if_pos (by omega)]
    congr
    omega

/-- A natural number of 64 bits is read back from its literal where it is below the bound. -/
theorem natBelow?_literalOf {n bound : Nat} (h : n < bound) (hmax : n ≤ maxNat64) :
    (Tree.number (literalOf n)).natBelow? bound = some n := by
  unfold Tree.natBelow? Tree.int?
  have hnumber := number?_literalOf (i := n) (by omega) (by omega)
  simp only [hnumber, Option.bind_eq_bind, Option.bind_some]
  rw [if_pos (by omega)]
  rfl

/-! ## Floating-point numbers -/

/-- The literal that a decimal in a layout is read as. -/
def literalOfDigits (layout : Decimal.Layout) (negative : Bool) (d : Decimal.Digits) : Literal :=
  let ds := Text.digitsOf 10 d.digits
  let e : Int := d.exponent + ds.length - 1
  if layout.least ≤ e ∧ e ≤ layout.greatest then
    if e < 0 then ⟨negative, [0], List.replicate (-e - 1).toNat 0 ++ ds, none⟩
    else
      let whole := (e + 1).toNat
      let padded := ds ++ List.replicate (whole - ds.length) 0
      let rest := padded.drop whole
      ⟨negative, padded.take whole, if rest = [] then [0] else rest, none⟩
  else ⟨negative, ds.take 1, ds.drop 1, some (decide (e < 0), Text.digitsOf 10 e.natAbs)⟩

/-- The literal that a written floating-point number is read as. -/
def floatLiteral (x : Binary64) : Literal :=
  if x.magnitude = 0 then ⟨x.isNegative, [0], [0], none⟩
  else literalOfDigits numberLayout x.isNegative (Decimal.shortest x.magnitude)

theorem digitBytes_append (ds es : List Nat) : digitBytes (ds ++ es) = digitBytes ds ++ digitBytes es :=
  List.map_append

theorem digitBytes_replicate (n : Nat) :
    digitBytes (List.replicate n 0) = (List.replicate n '0').map Bytes.ascii := by
  unfold digitBytes
  rw [List.map_replicate, List.map_replicate]
  rfl

/-- A mantissa has its point after the first digit, and none if there is but one digit. -/
theorem mantissa_bytes (ds : List Nat) :
    ((match ds.map Nat.digitChar with
      | [] => []
      | [c] => [c]
      | c :: rest => c :: '.' :: rest).map Bytes.ascii) =
        digitBytes (ds.take 1) ++ fractionBytes (ds.drop 1) := by
  match ds with
  | [] => rfl
  | [c] => rfl
  | c :: c' :: cs =>
    simp only [List.map_cons, List.take_succ_cons, List.take_zero, List.drop_succ_cons,
      List.drop_zero, fractionBytes, digitBytes, List.map_map, List.map_nil]
    rfl

theorem signedExponent_bytes (e : Int) :
    (((if e < 0 then ['-'] else ['+']) ++ Nat.toDigits 10 e.natAbs).map Bytes.ascii) =
      (if decide (e < 0) = true then 45 else 43) :: digitBytes (Text.digitsOf 10 e.natAbs) := by
  rw [List.map_append, toDigits_bytes]
  by_cases he : e < 0
  · rw [if_pos he, if_pos (decide_eq_true he)]
    rfl
  · rw [if_neg he, if_neg (by simpa using he)]
    rfl

/-- A decimal is laid out as its literal. -/
theorem layOut_bytes (layout : Decimal.Layout) (hsign : layout.plusSign = true) (negative : Bool)
    (d : Decimal.Digits) :
    (layout.layOut d).map Bytes.ascii = (literalOfDigits layout negative d).unsignedBytes := by
  have hbase : 1 < 10 := by decide
  have hdigits := Text.toDigits_eq_map hbase d.digits
  have hlength : (Nat.toDigits 10 d.digits).length = (Text.digitsOf 10 d.digits).length := by
    rw [hdigits, List.length_map]
  unfold Decimal.Layout.layOut literalOfDigits
  dsimp only
  rw [hlength, hdigits, hsign]
  generalize hds : Text.digitsOf 10 d.digits = ds
  generalize d.exponent + (ds.length : Int) - 1 = e
  split
  · split
    · -- zeros stand between the point and the digits
      have hne : List.replicate (-e - 1).toNat 0 ++ ds ≠ [] :=
        List.append_ne_nil_of_right_ne_nil _ (hds ▸ Text.digitsOf_ne_nil 10 _)
      unfold Literal.unsignedBytes fractionBytes
      rw [if_neg hne, digitBytes_append, digitBytes_replicate, List.map_append, List.map_append,
        List.map_map]
      exact (List.append_nil _).symm
    · -- the digits are filled up with zeros to the point
      have hpadded : ds.map Nat.digitChar ++ List.replicate ((e + 1).toNat - ds.length) '0' =
          (ds ++ List.replicate ((e + 1).toNat - ds.length) 0).map Nat.digitChar := by
        rw [List.map_append, List.map_replicate]
        rfl
      rw [hpadded, ← List.map_take, ← List.map_drop, List.map_append, List.map_cons, List.isEmpty_map,
        List.map_map]
      generalize ds ++ List.replicate ((e + 1).toNat - ds.length) 0 = padded
      refine congrArg (digitBytes (padded.take (e + 1).toNat) ++ ·) ?_
      refine Eq.trans ?_ (List.append_nil _).symm
      unfold fractionBytes
      by_cases hrest : padded.drop (e + 1).toNat = []
      · rw [hrest]
        rfl
      · rw [if_neg hrest, if_neg hrest, List.isEmpty_eq_false_iff.2 hrest, if_neg Bool.false_ne_true]
        exact congrArg (46 :: ·) (List.map_map ..)
  · rw [List.append_assoc, List.map_append, if_pos rfl]
    refine (congrArg (· ++ _) (mantissa_bytes ds)).trans ?_
    rw [List.append_assoc]
    exact congrArg (fun tail => digitBytes (ds.take 1) ++ (fractionBytes (ds.drop 1) ++ 101 :: tail))
      (signedExponent_bytes e)

theorem negative_literalOfDigits (layout : Decimal.Layout) (negative : Bool) (d : Decimal.Digits) :
    (literalOfDigits layout negative d).negative = negative := by
  unfold literalOfDigits
  dsimp only
  split
  · split <;> rfl
  · rfl

/-- A floating-point number is written as its literal. -/
theorem chars_float (x : Binary64) :
    (Number.float x).chars.map Bytes.ascii = (floatLiteral x).bytes := by
  unfold Number.chars Decimal.Layout.render floatLiteral Literal.bytes
  dsimp only
  split
  · cases x.isNegative <;> rfl
  · rw [negative_literalOfDigits, ← layOut_bytes numberLayout rfl, List.map_append]
    cases x.isNegative <;> rfl

/-- The digits of a number, filled up with zeros behind them or in front of them, are digits. -/
theorem lt_of_mem_append_zeros {ds : List Nat} (hds : ∀ k ∈ ds, k < 10) (n : Nat) :
    (∀ k ∈ ds ++ List.replicate n 0, k < 10) ∧ ∀ k ∈ List.replicate n 0 ++ ds, k < 10 := by
  have hzeros : ∀ k ∈ List.replicate n 0, k < 10 := fun k hk => by
    rw [(List.mem_replicate.1 hk).2]
    decide
  exact ⟨fun k hk => (List.mem_append.1 hk).elim (hds k) (hzeros k),
    fun k hk => (List.mem_append.1 hk).elim (hzeros k) (hds k)⟩

/-- **The two forms of a decimal**: with digits before and behind the point and no exponent, or with its first
digit before the point and an exponent. -/
theorem literalOfDigits_cases (layout : Decimal.Layout) (negative : Bool) {d : Decimal.Digits}
    (hd : 0 < d.digits) :
    (∃ whole f fs, literalOfDigits layout negative d = ⟨negative, whole, f :: fs, none⟩ ∧
      whole.length ≤ max 1 (layout.greatest + 1).toNat ∧ whole ≠ [] ∧ (∀ k ∈ whole, k < 10) ∧
      (∀ k ks, whole ≠ 0 :: k :: ks) ∧ ∀ k ∈ f :: fs, k < 10) ∨
    ∃ c cs e, Text.digitsOf 10 d.digits = c :: cs ∧
      e = d.exponent + (Text.digitsOf 10 d.digits).length - 1 ∧
      literalOfDigits layout negative d =
        ⟨negative, [c], cs, some (decide (e < 0), Text.digitsOf 10 e.natAbs)⟩ := by
  have hhead : (Text.digitsOf 10 d.digits).head? ≠ some 0 := Text.head?_digitsOf (by decide) hd
  have hlt : ∀ k ∈ Text.digitsOf 10 d.digits, k < 10 := fun _ => lt_of_mem_digitsOf_ten
  obtain ⟨c, cs, hds⟩ := List.exists_cons_of_ne_nil (Text.digitsOf_ne_nil 10 d.digits)
  unfold literalOfDigits
  rw [hds] at hhead hlt ⊢
  dsimp only
  generalize d.exponent + ((c :: cs).length : ℤ) - 1 = e
  split
  · left
    split
    · obtain ⟨f, fs, hcons⟩ := List.exists_cons_of_ne_nil
        (List.append_ne_nil_of_right_ne_nil (List.replicate (-e - 1).toNat 0) (List.cons_ne_nil c cs))
      have hfraction := (lt_of_mem_append_zeros hlt (-e - 1).toNat).2
      rw [hcons] at hfraction ⊢
      exact ⟨[0], f, fs, rfl, le_max_left _ _, List.cons_ne_nil _ _, by decide, by simp, hfraction⟩
    · next hrange hneg =>
      obtain ⟨n, hn⟩ : ∃ n, (e + 1).toNat = n + 1 := ⟨e.toNat, by omega⟩
      have hpadded := (lt_of_mem_append_zeros hlt ((e + 1).toNat - (c :: cs).length)).1
      have hlead : c ≠ 0 := fun hzero => hhead (congrArg some hzero)
      generalize List.replicate ((e + 1).toNat - (c :: cs).length) 0 = zeros at hpadded ⊢
      -- without digits behind the point there is a zero
      obtain ⟨f, fs, hcons, hfraction⟩ : ∃ f fs,
          (if ((c :: cs) ++ zeros).drop (e + 1).toNat = [] then [0]
            else ((c :: cs) ++ zeros).drop (e + 1).toNat) = f :: fs ∧ ∀ k ∈ f :: fs, k < 10 := by
        split
        · exact ⟨0, [], rfl, by decide⟩
        · next hrest =>
          obtain ⟨f, fs, hcons⟩ := List.exists_cons_of_ne_nil hrest
          exact ⟨f, fs, hcons, fun k hk => hpadded k (List.mem_of_mem_drop (hcons ▸ hk))⟩
      rw [hcons]
      refine ⟨_, f, fs, rfl, ?_, ?_, fun k hk => hpadded k (List.mem_of_mem_take hk), ?_, hfraction⟩
      · refine (List.length_take_le _ _).trans (le_max_of_le_right ?_)
        omega
      · rw [hn]
        exact List.cons_ne_nil _ _
      · rw [hn]
        exact fun k ks h => hlead (List.cons.inj h).1
  · exact .inr ⟨c, cs, e, rfl, rfl, rfl⟩

/-- However a decimal is laid out, it keeps the rules of the grammar. -/
theorem grammatical_literalOfDigits (layout : Decimal.Layout) (negative : Bool) {d : Decimal.Digits}
    (hd : 0 < d.digits) : (literalOfDigits layout negative d).Grammatical := by
  rcases literalOfDigits_cases layout negative hd with
    ⟨whole, f, fs, heq, -, hne, hwhole, hlead, hfraction⟩ | ⟨c, cs, e, hds, -, heq⟩ <;> rw [heq]
  · exact ⟨⟨hne, hwhole⟩, hlead, hfraction, fun _ _ h => by cases h⟩
  · have hlt : ∀ k ∈ c :: cs, k < 10 := fun k hk => lt_of_mem_digitsOf_ten (hds ▸ hk)
    refine ⟨⟨List.cons_ne_nil _ _, fun k hk => ?_⟩, by simp, fun k hk => hlt k (List.mem_cons_of_mem _ hk),
      fun sign digits h => ?_⟩
    · exact List.mem_singleton.1 hk ▸ hlt c (List.mem_cons_self ..)
    · cases h
      exact ⟨Text.digitsOf_ne_nil 10 _, fun _ => lt_of_mem_digitsOf_ten⟩

/-! ## Numbers of both kinds -/

namespace Number

/-- The number is not beyond the double-precision range. -/
def Finite : Number → Prop
  | int _ => True
  | float x => x.magnitude < Binary64.infiniteMagnitude

/-- The literal that a written number is read as. -/
def literal : Number → Literal
  | int i => literalOf i
  | float x => floatLiteral x

@[simp] theorem literal_int (i : Int) : (int i).literal = literalOf i := rfl

/-- A number of either kind is written as its literal. -/
theorem chars_bytes (n : Number) : n.chars.map Bytes.ascii = n.literal.bytes := by
  cases n with
  | int i => exact chars_int i
  | float x => exact chars_float x

theorem grammatical_literal {n : Number} (h : n.Finite) : n.literal.Grammatical := by
  cases n with
  | int i => exact grammatical_literalOf i
  | float x =>
    show (floatLiteral x).Grammatical
    unfold floatLiteral
    split
    · have hzero : ∀ d ∈ [0], d < 10 := by decide
      exact ⟨⟨List.cons_ne_nil _ _, hzero⟩, by simp, hzero, fun _ _ h => by cases h⟩
    · next hx =>
      exact grammatical_literalOfDigits _ _ (Decimal.shortest_spec (Nat.pos_of_ne_zero hx) h).1

end Number

/-- **A written number is read back** up to its end. -/
theorem readNumber_chars {n : Number} (h : n.Finite) (hrest : EndsNumber rest) :
    readNumber (n.chars.map Bytes.ascii ++ rest) = some (n.literal, rest) := by
  rw [n.chars_bytes]
  exact readNumber_bytes (Number.grammatical_literal h) hrest

end GatewayControl.Json
