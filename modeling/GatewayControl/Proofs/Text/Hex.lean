import GatewayControl.Proofs.Text.Base64
import GatewayControl.Proofs.Text.Trim
import GatewayControl.Text.Hex
import Mathlib.Data.List.Forall2

/-!
# `GatewayControl.Proofs.Text.Hex` -- hexadecimal texts, however they are spelled

Digits are written in lower case, and read in either case and with white space around them. `Respells`
says which texts spell what was written, and `decode_of_respells` that they all stand for the bytes that
it was written for. A digit in upper case is a byte of its own, so the argument goes digit by digit
(`exists_digit`) and then pair by pair.
-/

namespace GatewayControl.Text

namespace Hex

/-- The second text spells what is written in the first one: any of its letters may be in upper case,
and there may be white space around it. -/
def Respells (written text : String) : Prop :=
  ∃ before digits after : List Char, text = String.ofList (before ++ digits ++ after) ∧
    (∀ c ∈ before, isBlank c = true) ∧ (∀ c ∈ after, isBlank c = true) ∧
    List.Forall₂ (fun d c => c = d ∨ c = d.toUpper) written.toList digits

/-- The character of a byte of a text in ASCII. -/
def charOf (b : UInt8) : Char := Char.ofNat b.toNat

/-- A digit of either case is an ASCII character with the value of the digit. -/
theorem exists_digit {n : UInt8} (hn : n < 16) {c : Char}
    (hc : c = charOf (digit n) ∨ c = (charOf (digit n)).toUpper) :
    ∃ d : UInt8, c = charOf d ∧ d < 128 ∧ digitValue? d = some n ∧ isBlank c = false := by
  have hlower : ∀ k : Fin 16, digit (UInt8.ofNat k.val) < 128 ∧
      isBlank (charOf (digit (UInt8.ofNat k.val))) = false := by decide +kernel
  have hupper : ∀ k : Fin 16, ∃ d : Fin 128,
      (charOf (digit (UInt8.ofNat k.val))).toUpper = charOf (UInt8.ofNat d.val) ∧
      digitValue? (UInt8.ofNat d.val) = some (UInt8.ofNat k.val) ∧
      isBlank (charOf (UInt8.ofNat d.val)) = false := by decide +kernel
  rcases hc with rfl | rfl
  · obtain ⟨hlt, hblank⟩ := Base64.forall_lt_of_fin
      (P := fun n => digit n < 128 ∧ isBlank (charOf (digit n)) = false) hlower hn
    exact ⟨digit n, rfl, hlt, digitValue?_digit n hn, hblank⟩
  · obtain ⟨d, hd, hvalue, hblank⟩ := Base64.forall_lt_of_fin
      (P := fun n => ∃ d : Fin 128, (charOf (digit n)).toUpper = charOf (UInt8.ofNat d.val) ∧
        digitValue? (UInt8.ofNat d.val) = some n ∧ isBlank (charOf (UInt8.ofNat d.val)) = false)
      hupper hn
    have hlt : UInt8.ofNat d.val < 128 := by
      rw [UInt8.lt_iff_toNat_lt, UInt8.toNat_ofNat']
      have := d.isLt
      show d.val % 256 < 128
      omega
    exact ⟨UInt8.ofNat d.val, hd, hlt, hvalue, by rw [hd]; exact hblank⟩

/-- Digits that spell the digits of bytes are read as these bytes. -/
theorem exists_digits {bytes : Bytes} {digits : List Char}
    (h : List.Forall₂ (fun d c => c = d ∨ c = d.toUpper) ((encode bytes).map charOf) digits) :
    ∃ ds : Bytes, digits = ds.map charOf ∧ (∀ d ∈ ds, d < 128) ∧ (∀ c ∈ digits, isBlank c = false) ∧
      ds.length = 2 * bytes.length ∧ ∀ i, decodePairs i ds = .ok bytes := by
  induction bytes generalizing digits with
  | nil =>
    cases h
    exact ⟨[], rfl, fun d hd => absurd hd List.not_mem_nil, fun c hc => absurd hc List.not_mem_nil, rfl,
      fun i => rfl⟩
  | cons b bytes ih =>
    obtain ⟨hhi, hlo⟩ := nibbles_lt b
    rw [encode_cons, List.map_cons, List.map_cons] at h
    cases h with | cons hfirst h =>
    cases h with | cons hsecond hrest =>
    obtain ⟨d, rfl, hd, hdvalue, hdblank⟩ := exists_digit hhi hfirst
    obtain ⟨e, rfl, he, hevalue, heblank⟩ := exists_digit hlo hsecond
    obtain ⟨ds, rfl, hds, hblank, hlength, hread⟩ := ih hrest
    refine ⟨d :: e :: ds, rfl, ?_, ?_, ?_, fun i => ?_⟩
    · exact List.forall_mem_cons.2 ⟨hd, List.forall_mem_cons.2 ⟨he, hds⟩⟩
    · exact List.forall_mem_cons.2 ⟨hdblank, List.forall_mem_cons.2 ⟨heblank, hblank⟩⟩
    · simp only [List.length_cons, hlength]
      omega
    · simp only [decodePairs, hdvalue, hevalue, hread, join_nibbles]
      rfl

/-- **However it is spelled**, a hexadecimal text stands for the bytes that it was written for. -/
theorem decode_of_respells {bytes : Bytes} {s : String} (h : Respells (text bytes) s) :
    decode (Bytes.ofText (trim s)) = .ok bytes := by
  obtain ⟨before, digits, after, rfl, hbefore, hafter, hdigits⟩ := h
  have htext : (text bytes).toList = (encode bytes).map charOf := String.toList_ofList
  rw [htext] at hdigits
  obtain ⟨ds, rfl, hds, hblank, hlength, hread⟩ := exists_digits hdigits
  have hbytes : Bytes.ofText (String.ofList (ds.map charOf)) = ds := Base64.ofText_ofList hds
  rw [trim_append hbefore hblank hafter, hbytes]
  unfold decode
  rw [if_neg (by omega), hread]

end Hex
end GatewayControl.Text
