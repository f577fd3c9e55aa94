import Mathlib.Data.List.Basic
import WordAsm.Text.Utf8

/-!
# Text survives its bytes

Decoding the bytes of a text gives the text. The decoder reads one character after the other: the
lead byte of a character announces ranges in which its continuation bytes lie, and the shares of the
bytes make up its code point.
-/

namespace WordAsm
namespace Text
namespace Utf8

/-! ## Single bytes -/

theorem toNat_byte
    {value : Nat}
    (small : value < 0x100) :
    (UInt8.ofNat value).toNat = value :=
  UInt8.toNat_ofNat_of_lt' small

/-- A byte below 128 is a character. -/
theorem step_of_ascii
    {decoder : Decoder}
    {point : Nat}
    (idle : decoder.pending = none)
    (ascii : point < 0x80) :
    decoder.step (UInt8.ofNat point) =
      .ok { position := decoder.position + 1, text := Char.ofNat point :: decoder.text } := by
  rw [Decoder.step, idle]
  dsimp only
  rw [toNat_byte (by omega), if_pos ascii]

/-- A lead byte opens the character that it announces. -/
theorem step_of_lead
    {decoder : Decoder}
    {lead point : Nat}
    {wanted : Nat × Nat}
    {later : List (Nat × Nat)}
    (idle : decoder.pending = none)
    (lower : 0x80 ≤ lead)
    (upper : lead < 0x100)
    (found : announced lead = some (point, wanted, later)) :
    decoder.step (UInt8.ofNat lead) =
      .ok { decoder with
        position := decoder.position + 1
        pending := some ⟨UInt8.ofNat lead, 1, point, wanted, later⟩ } := by
  rw [Decoder.step, idle]
  dsimp only
  rw [toNat_byte upper, if_neg (by omega), found]

/-- The last continuation byte completes a character. -/
theorem step_of_last
    {decoder : Decoder}
    {pending : Pending}
    {share : Nat}
    (opened : decoder.pending = some pending)
    (last : pending.later = [])
    (small : share < 64)
    (within : pending.wanted.1 ≤ share + 0x80 ∧ share + 0x80 ≤ pending.wanted.2) :
    decoder.step (UInt8.ofNat (share + 0x80)) =
      .ok { position := decoder.position + 1
            text := Char.ofNat (pending.point * 64 + share) :: decoder.text } := by
  rw [Decoder.step, opened]
  dsimp only
  rw [toNat_byte (by omega), if_pos within, last, Nat.add_sub_cancel]

/-- A continuation byte adds its share to the code point. -/
theorem step_of_more
    {decoder : Decoder}
    {pending : Pending}
    {share : Nat}
    {wanted : Nat × Nat}
    {later : List (Nat × Nat)}
    (opened : decoder.pending = some pending)
    (more : pending.later = wanted :: later)
    (small : share < 64)
    (within : pending.wanted.1 ≤ share + 0x80 ∧ share + 0x80 ≤ pending.wanted.2) :
    decoder.step (UInt8.ofNat (share + 0x80)) =
      .ok { decoder with
        position := decoder.position + 1
        pending := some ⟨pending.lead, pending.read + 1, pending.point * 64 + share, wanted,
          later⟩ } := by
  rw [Decoder.step, opened]
  dsimp only
  rw [toNat_byte (by omega), if_pos within, more, Nat.add_sub_cancel]

theorem foldlM_of_step
    {decoder next : Decoder}
    {byte : UInt8}
    (stepped : decoder.step byte = .ok next)
    (bytes : List UInt8) :
    (byte :: bytes).foldlM Decoder.step decoder = bytes.foldlM Decoder.step next := by
  rw [List.foldlM_cons, stepped]
  rfl

/-! ## What lead bytes announce -/

theorem announced_of_two
    {point : Nat}
    (lower : 0x80 ≤ point)
    (upper : point ≤ 0x7ff) :
    announced (point / 64 % 32 + 0xc0) = some (point / 64, continuation, []) := by
  rw [announced, if_pos (by omega), Nat.add_sub_cancel, Nat.mod_eq_of_lt (by omega)]

/-- No overlong form and no surrogate has three bytes. -/
theorem announced_of_three
    {point : Nat}
    (lower : 0x800 ≤ point)
    (upper : point ≤ 0xffff)
    (scalar : point < 0xd800 ∨ 0xdfff < point) :
    ∃ wanted, announced (point / 4096 % 16 + 0xe0) = some (point / 4096, wanted, [continuation]) ∧
      wanted.1 ≤ point / 64 % 64 + 0x80 ∧ point / 64 % 64 + 0x80 ≤ wanted.2 := by
  rw [announced, if_neg (by omega)]
  split_ifs with first surrogate ordinary
  · exact ⟨(0xa0, 0xbf), by rw [show point / 4096 = 0 by omega], by dsimp only; omega⟩
  · exact ⟨(0x80, 0x9f), by rw [show point / 4096 = 0xd by omega], by dsimp only; omega⟩
  · refine ⟨continuation, ?_, by rw [continuation]; dsimp only; omega⟩
    rw [Nat.add_sub_cancel, Nat.mod_eq_of_lt (by omega)]
  all_goals omega

/-- No overlong form and nothing beyond the last code point has four bytes. -/
theorem announced_of_four
    {point : Nat}
    (lower : 0x10000 ≤ point)
    (upper : point < 0x110000) :
    ∃ wanted, announced (point / 262144 % 8 + 0xf0) =
        some (point / 262144, wanted, [continuation, continuation]) ∧
      wanted.1 ≤ point / 4096 % 64 + 0x80 ∧ point / 4096 % 64 + 0x80 ≤ wanted.2 := by
  rw [announced, if_neg (by omega), if_neg (by omega), if_neg (by omega), if_neg (by omega)]
  split_ifs with first last ordinary
  · exact ⟨(0x90, 0xbf), by rw [show point / 262144 = 0 by omega], by dsimp only; omega⟩
  · exact ⟨(0x80, 0x8f), by rw [show point / 262144 = 4 by omega], by dsimp only; omega⟩
  · refine ⟨continuation, ?_, by rw [continuation]; dsimp only; omega⟩
    rw [Nat.add_sub_cancel, Nat.mod_eq_of_lt (by omega)]
  · omega

/-! ## Characters and texts -/

/-- The bytes of a character are read as the character. -/
theorem exists_foldlM_step_encodeChar
    {decoder : Decoder}
    (idle : decoder.pending = none)
    (c : Char) :
    ∃ position, (String.utf8EncodeChar c).foldlM Decoder.step decoder =
      .ok { position, text := c :: decoder.text } := by
  have scalar : c.val.toNat < 0xd800 ∨ 0xdfff < c.val.toNat ∧ c.val.toNat < 0x110000 := c.valid
  have whole : c = Char.ofNat c.val.toNat := (Char.ofNat_toNat c).symm
  unfold String.utf8EncodeChar
  dsimp only
  generalize c.val.toNat = point at scalar whole ⊢
  subst whole
  have ordinary (share : Nat) (small : share < 64) :
      continuation.1 ≤ share + 0x80 ∧ share + 0x80 ≤ continuation.2 := by
    rw [continuation]
    dsimp only
    omega
  split_ifs with one two three
  · refine ⟨decoder.position + 1, ?_⟩
    rw [foldlM_of_step (step_of_ascii idle (by omega))]
    rfl
  · refine ⟨decoder.position + 1 + 1, ?_⟩
    have lead := announced_of_two (by omega) two
    rw [foldlM_of_step (step_of_lead idle (by omega) (by omega) lead),
      foldlM_of_step (step_of_last rfl rfl (by omega) (ordinary _ (by omega))), Nat.div_add_mod']
    rfl
  · refine ⟨decoder.position + 1 + 1 + 1, ?_⟩
    obtain ⟨wanted, lead, within⟩ :=
      @announced_of_three point (by omega) three (by omega)
    have point_eq : (point / 4096 * 64 + point / 64 % 64) * 64 + point % 64 = point := by omega
    rw [foldlM_of_step (step_of_lead idle (by omega) (by omega) lead),
      foldlM_of_step (step_of_more rfl rfl (by omega) within),
      foldlM_of_step (step_of_last rfl rfl (by omega) (ordinary _ (by omega))), point_eq]
    rfl
  · refine ⟨decoder.position + 1 + 1 + 1 + 1, ?_⟩
    obtain ⟨wanted, lead, within⟩ := @announced_of_four point (by omega) (by omega)
    have point_eq : ((point / 262144 * 64 + point / 4096 % 64) * 64 + point / 64 % 64) * 64 +
        point % 64 = point := by
      omega
    rw [foldlM_of_step (step_of_lead idle (by omega) (by omega) lead),
      foldlM_of_step (step_of_more rfl rfl (by omega) within),
      foldlM_of_step (step_of_more rfl rfl (by omega) (ordinary _ (by omega))),
      foldlM_of_step (step_of_last rfl rfl (by omega) (ordinary _ (by omega))), point_eq]
    rfl

/-- The bytes of a text are read as the text, character by character. -/
theorem exists_foldlM_step_encode
    {decoder : Decoder}
    (idle : decoder.pending = none)
    (text : List Char) :
    ∃ position, (text.flatMap String.utf8EncodeChar).foldlM Decoder.step decoder =
      .ok { position, text := text.reverse ++ decoder.text } := by
  induction text generalizing decoder with
  | nil =>
      refine ⟨decoder.position, ?_⟩
      obtain ⟨_, _, _⟩ := decoder
      cases idle
      rfl
  | cons c text hypothesis =>
      obtain ⟨_, read⟩ := exists_foldlM_step_encodeChar idle c
      obtain ⟨position, later⟩ := @hypothesis { position := _, text := c :: decoder.text } rfl
      refine ⟨position, ?_⟩
      rw [List.flatMap_cons, List.foldlM_append, read, List.reverse_cons, List.append_assoc]
      exact later

/-- Decoding the bytes of a text gives the text. -/
theorem decode_encode (text : String) :
    decode (encode text) = .ok text.toList := by
  obtain ⟨position, read⟩ := @exists_foldlM_step_encode {} rfl text.toList
  have finished : Decoder.finish { position, text := text.toList.reverse ++ [] } =
      .ok text.toList := by
    rw [Decoder.finish, List.append_nil, List.reverse_reverse]
  rw [decode, encode, read]
  exact finished

end Utf8
end Text
end WordAsm
