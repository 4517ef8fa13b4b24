import GatewayControl.Net.Ip
import GatewayControl.Proofs.Text.Digits

/-!
# `GatewayControl.Proofs.Net.IpText` -- addresses are read back from their texts

`parse?` inverts `text` for both families (`Ipv4.parse?_text`, `Ipv6.parse?_text`). For IPv6 the
groups around the longest run of zeros are read back one after the other, and the run is what is
missing between them; in the text of an address that holds no IPv4 address there is no point, so no
group is mistaken for the start of an IPv4 form.
-/

namespace GatewayControl

/-! ## Digits -/

/-- The text goes on with no digit of the base. -/
def EndsDigits (base : Nat) (rest : List Char) : Prop := ∀ c ∈ rest.head?, digitIn? base c = none

theorem endsDigits_nil (base : Nat) : EndsDigits base [] := fun c hc => by cases hc

theorem endsDigits_cons {base : Nat} {c : Char} (h : digitIn? base c = none) (cs : List Char) :
    EndsDigits base (c :: cs) := by
  intro d hd
  cases hd
  exact h

theorem digitIn?_digitChar {base d : Nat} (hb : base ≤ 16) (hd : d < base) :
    digitIn? base d.digitChar = some d := by
  have hall : ∀ b : Fin 17, ∀ k : Fin 16, k.val < b.val →
      digitIn? b.val (Nat.digitChar k.val) = some k.val := by decide +kernel
  exact hall ⟨base, by omega⟩ ⟨d, by omega⟩ hd

theorem spanDigits_toDigits {base : Nat} (hb : 1 < base) (hb' : base ≤ 16) (n : Nat)
    {rest : List Char} (hrest : EndsDigits base rest) :
    spanDigits base (Nat.toDigits base n ++ rest) = (Text.digitsOf base n, rest) := by
  have hspan : ∀ digits : List Nat, (∀ d ∈ digits, d < base) →
      spanDigits base (digits.map Nat.digitChar ++ rest) = (digits, rest) := by
    intro digits hd
    induction digits with
    | nil =>
      cases rest with
      | nil => rfl
      | cons c cs =>
        rw [List.map_nil, List.nil_append, spanDigits, hrest c rfl]
    | cons d ds ih =>
      rw [List.map_cons, List.cons_append, spanDigits,
        digitIn?_digitChar hb' (hd d (List.mem_cons_self ..))]
      simp only [ih fun e he => hd e (List.mem_cons_of_mem _ he)]
  rw [Text.toDigits_eq_map hb]
  exact hspan _ fun d hd => Text.lt_of_mem_digitsOf hb hd

theorem ofDigits_digitsOf {base : Nat} (hb : 1 < base) (n : Nat) :
    ofDigits base (Text.digitsOf base n) = n := Text.foldl_digitsOf hb n

/-- No character of a number is a separator of addresses. -/
theorem not_mem_toDigits {base : Nat} (hb : 1 < base) (hb' : base ≤ 16) (n : Nat) :
    '.' ∉ Nat.toDigits base n ∧ ':' ∉ Nat.toDigits base n := by
  have hall : ∀ k : Fin 16, Nat.digitChar k.val ≠ '.' ∧ Nat.digitChar k.val ≠ ':' := by decide
  rw [Text.toDigits_eq_map hb]
  simp only [List.mem_map, not_exists, not_and]
  constructor
  · intro d hd
    exact (hall ⟨d, Nat.lt_of_lt_of_le (Text.lt_of_mem_digitsOf hb hd) hb'⟩).1
  · intro d hd
    exact (hall ⟨d, Nat.lt_of_lt_of_le (Text.lt_of_mem_digitsOf hb hd) hb'⟩).2

theorem suffix_spanDigits (base : Nat) (cs : List Char) : (spanDigits base cs).2 <:+ cs := by
  induction cs with
  | nil => exact List.suffix_refl _
  | cons c cs ih =>
    rw [spanDigits]
    split
    · exact ih.trans (List.suffix_cons c cs)
    · exact List.suffix_refl _

/-! ## IPv4 -/

namespace Ipv4

theorem readPart_toDigits (n : UInt8) {rest : List Char} (hrest : EndsDigits 10 rest) :
    readPart (Nat.toDigits 10 n.toNat ++ rest) = some (n, rest) := by
  have hn : n.toNat < 256 := n.toNat_lt
  have hlen : (Text.digitsOf 10 n.toNat).length ≤ 3 :=
    Text.length_digitsOf_le (by decide) (by decide) (Nat.lt_of_lt_of_le hn (by decide))
  -- a part with a leading zero is refused, and none is written
  have hzero : ¬ (1 < (Text.digitsOf 10 n.toNat).length ∧
      (Text.digitsOf 10 n.toNat).head? = some 0) := by
    rintro ⟨hlong, hhead⟩
    rcases Nat.eq_zero_or_pos n.toNat with hz | hpos
    · rw [hz, Text.digitsOf_of_lt (by decide)] at hlong
      exact absurd hlong (by decide)
    · exact Text.head?_digitsOf (by decide) hpos hhead
  unfold readPart
  rw [spanDigits_toDigits (by decide) (by decide) _ hrest]
  split
  · next heq => exact absurd (Prod.mk.inj heq).1 (Text.digitsOf_ne_nil 10 _)
  · next heq =>
    cases heq
    rw [if_neg (by rw [not_or]; exact ⟨by omega, hzero⟩), ofDigits_digitsOf (by decide),
      if_neg (by omega)]
    simp

theorem endsDigits_point (cs : List Char) : EndsDigits 10 ('.' :: cs) :=
  endsDigits_cons (by decide) cs

/-- An address is read back up to the end of its last number. -/
theorem read_chars (ip : Ipv4) {rest : List Char} (hrest : EndsDigits 10 rest) :
    read (ip.chars ++ rest) = some (ip, rest) := by
  unfold chars read
  simp only [List.append_assoc, List.cons_append]
  rw [readPart_toDigits ip.a (endsDigits_point _)]
  simp only [Option.bind_eq_bind, Option.bind_some, afterPoint]
  rw [readPart_toDigits ip.b (endsDigits_point _)]
  simp only [Option.bind_some]
  rw [readPart_toDigits ip.c (endsDigits_point _)]
  simp only [Option.bind_some]
  rw [readPart_toDigits ip.d hrest]
  rfl

/-- **An IPv4 address is read back from its text.** -/
theorem parse?_text (ip : Ipv4) : parse? ip.text = some ip := by
  have hread := read_chars ip (endsDigits_nil 10)
  rw [List.append_nil] at hread
  unfold parse? text
  rw [String.toList_ofList, hread]

theorem suffix_of_readPart {cs rest : List Char} {n : UInt8} (h : readPart cs = some (n, rest)) :
    rest <:+ cs := by
  have hsuffix := suffix_spanDigits 10 cs
  unfold readPart at h
  split at h
  · cases h
  · next heq =>
    rw [heq] at hsuffix
    split at h
    · cases h
    split at h
    · cases h
    · cases h
      exact hsuffix

/-- A text without a point holds no address. -/
theorem read_eq_none {cs : List Char} (h : '.' ∉ cs) : read cs = none := by
  unfold read
  cases hpart : readPart cs with
  | none => rfl
  | some part =>
    have hsuffix := suffix_of_readPart hpart
    have hpoint : afterPoint part.2 = none := by
      unfold afterPoint
      split
      · next heq =>
        rw [heq] at hsuffix
        exact absurd (hsuffix.mem (List.mem_cons_self ..)) h
      · rfl
    simp only [Option.bind_eq_bind, Option.bind_some, hpoint, Option.bind_none]

end Ipv4

/-! ## IPv6 -/

namespace Ipv6

theorem leadingZeros_spec (gs : List UInt16) :
    ∃ after, gs = List.replicate (leadingZeros gs) 0 ++ after := by
  induction gs with
  | nil => exact ⟨[], rfl⟩
  | cons g gs ih =>
    by_cases hg : g = 0
    · obtain ⟨after, hafter⟩ := ih
      subst hg
      refine ⟨after, ?_⟩
      rw [leadingZeros, List.replicate_succ, List.cons_append, ← hafter]
    · refine ⟨g :: gs, ?_⟩
      have hzero : leadingZeros (g :: gs) = 0 := by
        unfold leadingZeros
        split
        · next heq => exact absurd (List.cons.inj heq).1 hg
        · rfl
      rw [hzero]
      rfl

/-- The longest run of zeros cuts the groups in three. -/
theorem longestZeros_spec (i : Nat) {gs : List UInt16} (h : 0 < (longestZeros i gs).2) :
    ∃ before after, gs = before ++ List.replicate (longestZeros i gs).2 0 ++ after ∧
      (longestZeros i gs).1 = i + before.length := by
  induction gs generalizing i with
  | nil => exact absurd h (Nat.lt_irrefl 0)
  | cons g gs ih =>
    have hstep : longestZeros i (g :: gs) =
        if (longestZeros (i + 1) gs).2 ≤ leadingZeros (g :: gs) ∧ 0 < leadingZeros (g :: gs) then
          (i, leadingZeros (g :: gs))
        else longestZeros (i + 1) gs := rfl
    rw [hstep] at h ⊢
    split
    -- the run that starts here is the longest, or the longest starts later
    · obtain ⟨after, hafter⟩ := leadingZeros_spec (g :: gs)
      exact ⟨[], after, hafter, rfl⟩
    · next hlonger =>
      rw [if_neg hlonger] at h
      obtain ⟨before, after, hgs, hstart⟩ := ih (i + 1) h
      refine ⟨g :: before, after, ?_, ?_⟩
      · rw [List.cons_append, List.cons_append, ← hgs]
      · rw [hstart, List.length_cons]
        omega

/-- The groups after the first, each behind a colon. -/
def colonChars (gs : List UInt16) : List Char := gs.flatMap fun g => ':' :: Nat.toDigits 16 g.toNat

theorem groupChars_cons (g : UInt16) (gs : List UInt16) :
    groupChars (g :: gs) = Nat.toDigits 16 g.toNat ++ colonChars gs := by
  induction gs generalizing g with
  | nil => simp [groupChars, colonChars]
  | cons h gs ih =>
    rw [groupChars, ih]
    · simp [colonChars]
    · exact List.cons_ne_nil _ _

theorem not_point_mem_colonChars (gs : List UInt16) : '.' ∉ colonChars gs := by
  unfold colonChars
  simp only [List.mem_flatMap, List.mem_cons, not_exists, not_and, not_or]
  exact fun g _ => ⟨by decide, (not_mem_toDigits (by decide) (by decide) _).1⟩

theorem not_point_mem_groupChars (gs : List UInt16) : '.' ∉ groupChars gs := by
  cases gs with
  | nil => exact List.not_mem_nil
  | cons g gs =>
    rw [groupChars_cons, List.mem_append, not_or]
    exact ⟨(not_mem_toDigits (by decide) (by decide) _).1, not_point_mem_colonChars gs⟩

/-- What can stand after groups: nothing, or the sign for the run of zeros. -/
def EndsGroups (after : List Char) : Prop := after = [] ∨ ∃ cs, after = ':' :: ':' :: cs

theorem EndsGroups.endsDigits {after : List Char} (h : EndsGroups after) : EndsDigits 16 after := by
  rcases h with rfl | ⟨cs, rfl⟩
  · exact endsDigits_nil 16
  · exact endsDigits_cons (by decide) _

theorem endsDigits_colonChars (gs : List UInt16) {after : List Char} (h : EndsGroups after) :
    EndsDigits 16 (colonChars gs ++ after) := by
  cases gs with
  | nil => exact h.endsDigits
  | cons g gs => exact endsDigits_cons (by decide) _

theorem readGroup_toDigits (g : UInt16) {rest : List Char} (hrest : EndsDigits 16 rest) :
    readGroup (Nat.toDigits 16 g.toNat ++ rest) = some (g, rest) := by
  have hg : g.toNat < 65536 := g.toNat_lt
  have hlen : (Text.digitsOf 16 g.toNat).length ≤ 4 :=
    Text.length_digitsOf_le (by decide) (by decide) (Nat.lt_of_lt_of_le hg (by decide))
  unfold readGroup
  rw [spanDigits_toDigits (by decide) (by decide) _ hrest]
  split
  · next heq => exact absurd (Prod.mk.inj heq).1 (Text.digitsOf_ne_nil 16 _)
  · next heq =>
    cases heq
    rw [if_neg (by omega), ofDigits_digitsOf (by decide)]
    simp

/-- One group is read, and the others after it. -/
theorem readGroups_step {first : Bool} {limit : Nat} {cs body rest : List Char} {g : UInt16}
    (hbody : afterColon first cs = some body) (hv4 : Ipv4.read body = none)
    (hg : readGroup body = some (g, rest)) :
    readGroups first (limit + 1) cs =
      (g :: (readGroups false limit rest).1, (readGroups false limit rest).2) := by
  rw [readGroups, hbody]
  simp only [Option.bind_some, hv4, ite_self, hg]

/-- Where neither an IPv4 form nor a group stands, nothing is read. -/
theorem readGroups_none {first : Bool} {cs : List Char}
    (hv4 : (afterColon first cs).bind Ipv4.read = none)
    (hg : (afterColon first cs).bind readGroup = none) (limit : Nat) :
    readGroups first limit cs = ([], false, cs) := by
  cases limit with
  | zero => rw [readGroups]
  | succ limit =>
    rw [readGroups]
    simp only [hv4, ite_self, hg]

/-- At the end of the groups there is no group to read. -/
theorem readGroups_end (first : Bool) (limit : Nat) {after : List Char} (h : EndsGroups after) :
    readGroups first limit after = ([], false, after) := by
  rcases h with rfl | ⟨cs, rfl⟩
  · cases first <;> exact readGroups_none rfl rfl limit
  · cases first <;> exact readGroups_none rfl rfl limit

/-- A group before other groups is no IPv4 form. -/
theorem read_group_eq_none (g : UInt16) (gs : List UInt16) {after : List Char}
    (hpoint : '.' ∉ after) :
    Ipv4.read (Nat.toDigits 16 g.toNat ++ (colonChars gs ++ after)) = none := by
  refine Ipv4.read_eq_none ?_
  rw [List.mem_append, List.mem_append, not_or, not_or]
  exact ⟨(not_mem_toDigits (by decide) (by decide) _).1, not_point_mem_colonChars gs, hpoint⟩

theorem readGroups_colonChars {limit : Nat} (gs : List UInt16) (hlen : gs.length ≤ limit)
    {after : List Char} (h : EndsGroups after) (hpoint : '.' ∉ after) :
    readGroups false limit (colonChars gs ++ after) = (gs, false, after) := by
  induction gs generalizing limit with
  | nil => exact readGroups_end false limit h
  | cons g gs ih =>
    rw [List.length_cons] at hlen
    obtain ⟨limit, rfl⟩ : ∃ n, limit = n + 1 := ⟨limit - 1, by omega⟩
    have htext : colonChars (g :: gs) ++ after =
        ':' :: (Nat.toDigits 16 g.toNat ++ (colonChars gs ++ after)) := by
      simp [colonChars]
    -- an IPv4 form is tried before the group, and fails for want of a point
    rw [htext, readGroups_step rfl (read_group_eq_none g gs hpoint)
      (readGroup_toDigits g (endsDigits_colonChars gs h)), ih (by omega)]

/-- Groups are read back up to their end. -/
theorem readGroups_groupChars {limit : Nat} (gs : List UInt16) (hlen : gs.length ≤ limit)
    {after : List Char} (h : EndsGroups after) (hpoint : '.' ∉ after) :
    readGroups true limit (groupChars gs ++ after) = (gs, false, after) := by
  cases gs with
  | nil => exact readGroups_end true limit h
  | cons g gs =>
    rw [List.length_cons] at hlen
    obtain ⟨limit, rfl⟩ : ∃ n, limit = n + 1 := ⟨limit - 1, by omega⟩
    rw [groupChars_cons, List.append_assoc, readGroups_step rfl (read_group_eq_none g gs hpoint)
      (readGroup_toDigits g (endsDigits_colonChars gs h)),
      readGroups_colonChars gs (by omega) h hpoint]

/-- Eight groups without a sign for zeros are an address. -/
theorem read_groupChars (ip : Ipv6) : read (groupChars ip.groups) = some (ip, []) := by
  have hgroups := readGroups_groupChars ip.groups (Nat.le_of_eq ip.eight) (.inl rfl)
    (List.not_mem_nil)
  rw [List.append_nil] at hgroups
  unfold read
  rw [hgroups]
  simp only
  rw [dif_pos ip.eight]

/-- The zeros between two lists of groups are what is missing for eight. -/
theorem ofHeadTail_eq {ip : Ipv6} {before after : List UInt16} {zeros : Nat}
    (hgroups : ip.groups = before ++ List.replicate zeros 0 ++ after) :
    ofHeadTail before after = some ip := by
  have height := ip.eight
  rw [hgroups, List.length_append, List.length_append, List.length_replicate] at height
  have hzeros : 8 - before.length - after.length = zeros := by omega
  unfold ofHeadTail
  rw [hzeros]
  simp only [← hgroups]
  rw [dif_pos ip.eight]

/-- Groups on both sides of a run of zeros are an address. -/
theorem read_compressed (ip : Ipv6) {before after : List UInt16} {zeros : Nat} (hz : 0 < zeros)
    (hgroups : ip.groups = before ++ List.replicate zeros 0 ++ after) :
    read (groupChars before ++ ':' :: ':' :: groupChars after) = some (ip, []) := by
  have hlen : before.length + zeros + after.length = 8 := by
    have height := ip.eight
    rw [hgroups, List.length_append, List.length_append, List.length_replicate] at height
    exact height
  have hpoint : '.' ∉ ':' :: ':' :: groupChars after := by
    simp [not_point_mem_groupChars after]
  -- the head is read up to the sign, the tail with what the head leaves of the eight groups
  have hhead := readGroups_groupChars before (show before.length ≤ 8 by omega) (.inr ⟨_, rfl⟩) hpoint
  have htail := readGroups_groupChars after
    (show after.length ≤ 8 - (before.length + 1) by omega) (.inl rfl) List.not_mem_nil
  rw [List.append_nil] at htail
  unfold read
  rw [hhead]
  simp only
  rw [dif_neg (by omega)]
  simp only [Bool.false_eq_true, if_false, htail]
  rw [ofHeadTail_eq hgroups]
  rfl

theorem groups_of_toIpv4Mapped? {ip : Ipv6} {v4 : Ipv4} (h : ip.toIpv4Mapped? = some v4) :
    ip.groups = [0, 0, 0, 0, 0, 0xffff] ++ v4.groups := by
  have hjoin : ∀ x : UInt16, (x / 256).toUInt8.toUInt16 * 256 + x.toUInt8.toUInt16 = x := by
    intro x
    apply UInt16.toNat_inj.1
    have hx := x.toNat_lt
    simp only [UInt16.toNat_add, UInt16.toNat_mul, UInt8.toNat_toUInt16, UInt16.toNat_toUInt8,
      UInt16.toNat_div, UInt16.toNat_ofNat, Nat.reducePow, Nat.reduceMod]
    omega
  unfold toIpv4Mapped? at h
  split at h
  · next x y heq =>
    cases h
    rw [heq]
    simp only [Ipv4.groups, hjoin]
    rfl
  · cases h

/-- An IPv4-mapped address is read back from its mapped form. -/
theorem read_mapped {ip : Ipv6} {v4 : Ipv4} (h : ip.toIpv4Mapped? = some v4) :
    read ("::ffff:".toList ++ v4.chars) = some (ip, []) := by
  have hgroups := groups_of_toIpv4Mapped? h
  have htext : "::ffff:".toList ++ v4.chars =
      ':' :: ':' :: (Nat.toDigits 16 (0xffff : UInt16).toNat ++ ':' :: v4.chars) := by
    rfl
  -- nothing stands before the sign, and after it the group `ffff` and the IPv4 form
  have hhead : ∀ cs, readGroups true 8 (':' :: cs) = ([], false, ':' :: cs) :=
    fun cs => readGroups_none rfl rfl 8
  have hv4 : readGroups false 6 (':' :: v4.chars) = (v4.groups, true, []) := by
    have hread := Ipv4.read_chars v4 (endsDigits_nil 10)
    rw [List.append_nil] at hread
    rw [readGroups]
    simp only [afterColon, Bool.false_eq_true, if_false, Option.bind_some, hread]
    rfl
  have htail : readGroups true 7 (Nat.toDigits 16 (0xffff : UInt16).toNat ++ ':' :: v4.chars) =
      (0xffff :: v4.groups, true, []) := by
    rw [readGroups_step rfl rfl (readGroup_toDigits 0xffff (endsDigits_cons (by decide) _)), hv4]
  rw [htext]
  unfold read
  rw [hhead]
  simp only
  rw [dif_neg (by decide)]
  simp only [Bool.false_eq_true, if_false, htail, List.length_nil]
  have hcut : ip.groups = [] ++ List.replicate 5 0 ++ 0xffff :: v4.groups := hgroups
  rw [ofHeadTail_eq hcut]
  rfl

/-- **An IPv6 address is read back from its text.** -/
theorem parse?_text (ip : Ipv6) : parse? ip.text = some ip := by
  have hread : read ip.chars = some (ip, []) := by
    unfold chars
    cases hmapped : ip.toIpv4Mapped? with
    | some v4 => exact read_mapped hmapped
    | none =>
      simp only
      split
      · next hlong =>
        -- what is written around the sign are the two parts that the longest run leaves
        obtain ⟨before, after, hgroups, hstart⟩ := longestZeros_spec 0 (Nat.lt_of_succ_lt hlong)
        rw [Nat.zero_add] at hstart
        have htake : ip.groups.take (longestZeros 0 ip.groups).1 = before := by
          rw [hstart, hgroups, List.append_assoc]
          exact List.take_left
        have hdrop : ip.groups.drop ((longestZeros 0 ip.groups).1 + (longestZeros 0 ip.groups).2) =
            after := by
          have hcut := (List.drop_left : ((before ++ List.replicate (longestZeros 0 ip.groups).2 0) ++
            after).drop _ = after)
          rwa [← hgroups, List.length_append, List.length_replicate, ← hstart] at hcut
        rw [htake, hdrop]
        exact read_compressed ip (Nat.lt_of_succ_lt hlong) hgroups
      · exact read_groupChars ip
  unfold parse? text
  rw [String.toList_ofList, hread]

end Ipv6

end GatewayControl
