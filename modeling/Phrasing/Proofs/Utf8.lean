/-
  Phrasing/Proofs/Utf8.lean
  =========================
  **UTF-8 reads back.**

  The bytes of a scalar code point, wherever they stand, are decoded to that code
  point.  The length of the form that was written fixes the branch of the decoder,
  and the bits of the bytes are put together again.
-/
import Phrasing.Storage.Utf8

namespace Phrasing.Utf8

theorem toNat_toUInt8 {n : Nat} (h : n < 0x100) : n.toUInt8.toNat = n := by
  rw [Nat.toUInt8, UInt8.toNat_ofNat', Nat.mod_eq_of_lt h]

theorem scalar?_val {c : CodePoint} (h : c.IsScalar) {least : Nat} (hleast : least ≤ c.val) :
    scalar? least c.val = some c := by
  have hc : CodePoint.ofNat? c.val = some c := by rw [CodePoint.ofNat?, dif_pos c.isLt]
  have hno : c.isSurrogate = false := h
  rw [scalar?, if_neg (Nat.not_lt.mpr hleast), hc]
  simp [hno]

theorem continuation?_toUInt8 {n : Nat} (h : n < 0x40) :
    continuation? (0x80 + n).toUInt8 = some n := by
  have hsub : 0x80 + n - 0x80 = n := by omega
  rw [continuation?, toNat_toUInt8 (by omega), if_pos (by omega), hsub]

theorem decodeFrom_encodeCodePoint {c : CodePoint} (h : c.IsScalar) (found : Text)
    (rest : Bytes) :
    decodeFrom found (encodeCodePoint c ++ rest) = decodeFrom (c :: found) rest := by
  have hlt := c.isLt
  unfold encodeCodePoint
  dsimp only
  split
  · rename_i hone
    have hlead : c.val.toUInt8.toNat = c.val := toNat_toUInt8 (by omega)
    rw [List.cons_append, List.nil_append, decodeFrom.eq_def]
    dsimp only
    rw [hlead, if_pos hone, scalar?_val h (Nat.zero_le _)]
  · rename_i hone
    split
    · rename_i htwo
      have hlead : (0xC0 + c.val / 0x40).toUInt8.toNat = 0xC0 + c.val / 0x40 :=
        toNat_toUInt8 (by omega)
      have hbits : (0xC0 + c.val / 0x40 - 0xC0) * 0x40 + c.val % 0x40 = c.val := by omega
      rw [List.cons_append, List.cons_append, List.nil_append, decodeFrom.eq_def]
      dsimp only
      rw [hlead, if_neg (by omega), if_neg (by omega), if_pos (by omega),
        continuation?_toUInt8 (by omega)]
      dsimp only
      rw [hbits, scalar?_val h (by omega)]
    · rename_i htwo
      split
      · rename_i hthree
        have hlead : (0xE0 + c.val / 0x1000).toUInt8.toNat = 0xE0 + c.val / 0x1000 :=
          toNat_toUInt8 (by omega)
        have hbits : ((0xE0 + c.val / 0x1000 - 0xE0) * 0x40 + c.val / 0x40 % 0x40) * 0x40 +
            c.val % 0x40 = c.val := by omega
        rw [List.cons_append, List.cons_append, List.cons_append, List.nil_append, decodeFrom]
        dsimp only
        rw [hlead, if_neg (by omega), if_neg (by omega), if_neg (by omega), if_pos (by omega),
          continuation?_toUInt8 (by omega), continuation?_toUInt8 (by omega)]
        dsimp only
        rw [hbits, scalar?_val h (by omega)]
      · have hlead : (0xF0 + c.val / 0x40000).toUInt8.toNat = 0xF0 + c.val / 0x40000 :=
          toNat_toUInt8 (by omega)
        have hbits : (((0xF0 + c.val / 0x40000 - 0xF0) * 0x40 + c.val / 0x1000 % 0x40) * 0x40 +
            c.val / 0x40 % 0x40) * 0x40 + c.val % 0x40 = c.val := by omega
        rw [List.cons_append, List.cons_append, List.cons_append, List.cons_append,
          List.nil_append, decodeFrom]
        dsimp only
        rw [hlead, if_neg (by omega), if_neg (by omega), if_neg (by omega), if_neg (by omega),
          if_pos (by omega), continuation?_toUInt8 (by omega), continuation?_toUInt8 (by omega),
          continuation?_toUInt8 (by omega)]
        dsimp only
        rw [hbits, scalar?_val h (by omega)]

theorem decodeFrom_flatMap {t : Text} (h : t.IsScalar) (found : Text) :
    decodeFrom found (t.flatMap encodeCodePoint) = some (found.reverse ++ t) := by
  induction t generalizing found with
  | nil => rw [List.flatMap_nil, decodeFrom, List.append_nil]
  | cons c rest ih =>
    have hrest : Text.IsScalar rest := fun d hd => h d (List.mem_cons_of_mem c hd)
    rw [List.flatMap_cons, decodeFrom_encodeCodePoint (h c List.mem_cons_self), ih hrest,
      List.reverse_cons, List.append_assoc]
    rfl

/-- A text that can be encoded is what its bytes are decoded to. -/
theorem decode?_encode {t : Text} (h : t.IsScalar) : (encode? t).bind decode? = some t := by
  rw [encode?, if_pos h]
  exact decodeFrom_flatMap h []

end Phrasing.Utf8
