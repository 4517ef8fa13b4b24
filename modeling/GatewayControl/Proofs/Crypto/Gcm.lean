import GatewayControl.Crypto.Gcm

/-!
# `GatewayControl.Proofs.Crypto.Gcm` -- what is encrypted is decrypted

Encrypting is adding a key stream, and adding it twice gives the text back, as the stream is never shorter
than the text (`length_stream`). So `crypt` is its own inverse (`crypt_crypt`). The tag has a fixed length
and is cut off where it was appended, so the one that is computed again is the one that is found
(`decrypt?_encrypt`). None of this depends on what the cipher does to a block.
-/

namespace GatewayControl.Crypto.Gcm

theorem length_streamBlock (s : Schedule) (nonce : Bytes) (counter : Nat) :
    (streamBlock s nonce counter).length = 16 := by
  simp [streamBlock]

/-- The stream is as long as the text that it is for. -/
theorem length_stream (s : Schedule) (nonce : Bytes) (count : Nat) :
    (stream s nonce count).length = count := by
  have hblocks : ∀ n, ((List.range n).flatMap fun i => streamBlock s nonce (i + 2)).length = 16 * n := by
    intro n
    simp only [List.length_flatMap, length_streamBlock, List.map_const', List.sum_replicate_nat,
      List.length_range]
    omega
  unfold stream
  rw [List.length_take, hblocks]
  omega

theorem length_add (a b : Bytes) : (add a b).length = min a.length b.length := List.length_zipWith

/-- What is added twice is gone. -/
theorem add_add {text stream : Bytes} (h : text.length ≤ stream.length) :
    add (add text stream) stream = text := by
  induction text generalizing stream with
  | nil => rfl
  | cons t text ih =>
    cases stream with
    | nil => exact absurd h (by simp)
    | cons k stream =>
      have hrest : text.length ≤ stream.length := by simpa using h
      have hbyte : t ^^^ k ^^^ k = t := by rw [UInt8.xor_assoc, UInt8.xor_self, UInt8.xor_zero]
      have hcons : add (add (t :: text) (k :: stream)) (k :: stream) =
          (t ^^^ k ^^^ k) :: add (add text stream) stream := rfl
      rw [hcons, hbyte, ih hrest]

theorem length_crypt (s : Schedule) (nonce text : Bytes) :
    (crypt s nonce text).length = text.length := by
  rw [crypt, length_add, length_stream, Nat.min_self]

/-- **Encrypting twice** gives the text back. -/
theorem crypt_crypt (s : Schedule) (nonce text : Bytes) :
    crypt s nonce (crypt s nonce text) = text := by
  have hlength := length_crypt s nonce text
  rw [crypt, hlength]
  exact add_add (Nat.le_of_eq (length_stream s nonce _).symm)

theorem length_tag (s : Schedule) (nonce text : Bytes) : (tag s nonce text).length = tagSize := by
  simp [tag, length_add, length_streamBlock, Sha2.toBytes, tagSize]

theorem length_encrypt (key nonce text : Bytes) :
    (encrypt key nonce text).length = text.length + tagSize := by
  unfold encrypt
  rw [List.length_append, length_crypt, length_tag]

/-- **What was encrypted is decrypted** under the same key and nonce. -/
theorem decrypt?_encrypt (key nonce text : Bytes) :
    decrypt? key nonce (encrypt key nonce text) = some text := by
  have hcut : (encrypt key nonce text).length - tagSize =
      (crypt (schedule key) nonce text).length := by
    rw [length_encrypt, length_crypt]
    omega
  unfold decrypt?
  simp only [hcut]
  unfold encrypt
  simp only [List.take_left, List.drop_left, if_true, crypt_crypt]

end GatewayControl.Crypto.Gcm
