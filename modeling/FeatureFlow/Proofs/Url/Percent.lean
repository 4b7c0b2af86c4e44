import FeatureFlow.Url.Percent

/-!
# Percent encoding and back

An encoded text decodes to the text it was made of, as long as the percent sign is among what is
encoded (`decode?_encode`). So different texts have different encoded forms.
-/

namespace FeatureFlow.Percent

variable {reserved cs rest : List Char} {c : Char} {b : Nat}

-- ---------------------------------------------------------------------------
-- Bytes
-- ---------------------------------------------------------------------------

theorem toNat_lt (c : Char) : c.toNat < 0x110000 := by
  have hvalid := c.valid
  simp only [UInt32.isValidChar, Nat.isValidChar] at hvalid
  change c.val.toNat < _
  omega

theorem lt_of_mem_bytes (h : b ∈ bytes c) : b < 256 := by
  have hc := toNat_lt c
  simp only [bytes] at h
  split at h
  · simp only [List.mem_singleton] at h
    omega
  · split at h
    · simp only [List.mem_cons, List.not_mem_nil, or_false] at h
      omega
    · split at h <;> simp only [List.mem_cons, List.not_mem_nil, or_false] at h <;> omega

theorem map_bytes (c : Char) : (bytes c).map UInt8.ofNat = String.utf8EncodeChar c := by
  have hc : c.val.toNat < 0x110000 := toNat_lt c
  simp only [bytes, String.utf8EncodeChar, Char.toNat]
  generalize c.val.toNat = n at hc
  by_cases hone : n < 0x80
  · rw [if_pos hone, if_pos (show n ≤ 127 by omega)]
    rfl
  rw [if_neg hone, if_neg (show ¬n ≤ 127 by omega)]
  by_cases htwo : n < 0x800
  · rw [if_pos htwo, if_pos (show n ≤ 2047 by omega)]
    have hsame : [0xC0 + n / 64, 0x80 + n % 64] = [n / 64 % 32 + 192, n % 64 + 128] := by
      simp only [List.cons.injEq, and_true]
      omega
    exact congrArg (List.map UInt8.ofNat) hsame
  rw [if_neg htwo, if_neg (show ¬n ≤ 2047 by omega)]
  by_cases hthree : n < 0x10000
  · rw [if_pos hthree, if_pos (show n ≤ 65535 by omega)]
    have hsame : [0xE0 + n / 4096, 0x80 + n / 64 % 64, 0x80 + n % 64] =
        [n / 4096 % 16 + 224, n / 64 % 64 + 128, n % 64 + 128] := by
      simp only [List.cons.injEq, and_true]
      omega
    exact congrArg (List.map UInt8.ofNat) hsame
  rw [if_neg hthree, if_neg (show ¬n ≤ 65535 by omega)]
  have hsame : [0xF0 + n / 262144, 0x80 + n / 4096 % 64, 0x80 + n / 64 % 64, 0x80 + n % 64] =
      [n / 262144 % 8 + 240, n / 4096 % 64 + 128, n / 64 % 64 + 128, n % 64 + 128] := by
    simp only [List.cons.injEq, and_true]
    omega
  exact congrArg (List.map UInt8.ofNat) hsame

theorem ofUtf8?_bytes (cs : List Char) : ofUtf8? (cs.flatMap bytes) = some (.ofList cs) := by
  have hbytes : (cs.flatMap bytes).map UInt8.ofNat = cs.flatMap String.utf8EncodeChar := by
    rw [List.map_flatMap]
    exact congrArg (List.flatMap · cs) (funext map_bytes)
  have hutf8 : ByteArray.mk ((cs.flatMap bytes).map UInt8.ofNat).toArray =
      (String.ofList cs).toByteArray := by
    rw [hbytes, String.toByteArray_ofList]
    exact ByteArray.ext List.data_toByteArray.symm
  rw [ofUtf8?, hutf8]
  exact dif_pos (String.ofList cs).isValidUTF8

-- ---------------------------------------------------------------------------
-- Triplets
-- ---------------------------------------------------------------------------

theorem hexDigit?_digit : ∀ n < 16, Text.hexDigit? (digit n) = some n := by
  decide

theorem decodeBytes_encodeByte (h : b < 256) (rest : List Char) :
    decodeBytes (encodeByte b ++ rest) = b :: decodeBytes rest := by
  have hhigh := hexDigit?_digit (b / 16) (by omega)
  have hlow := hexDigit?_digit (b % 16) (by omega)
  simp only [encodeByte, List.cons_append, List.nil_append, decodeBytes, hhigh, hlow]
  rw [Nat.div_add_mod' b 16]

theorem decodeBytes_triplets {bs : List Nat} (h : ∀ b ∈ bs, b < 256) (rest : List Char) :
    decodeBytes (bs.flatMap encodeByte ++ rest) = bs ++ decodeBytes rest := by
  induction bs with
  | nil => rfl
  | cons b others ih =>
    rw [List.flatMap_cons, List.append_assoc, decodeBytes_encodeByte (h b List.mem_cons_self),
      ih fun other hother => h other (List.mem_cons_of_mem b hother)]
    rfl

theorem decodeBytes_cons (h : c ≠ '%') (rest : List Char) :
    decodeBytes (c :: rest) = bytes c ++ decodeBytes rest := by
  rw [decodeBytes]
  rintro _ _ _ rfl
  exact absurd rfl h

-- ---------------------------------------------------------------------------
-- Texts
-- ---------------------------------------------------------------------------

theorem decodeBytes_encodeChar (hpercent : '%' ∈ reserved) (c : Char) (rest : List Char) :
    decodeBytes (encodeChar reserved c ++ rest) = bytes c ++ decodeBytes rest := by
  rw [encodeChar]
  split
  · exact decodeBytes_triplets (fun b => lt_of_mem_bytes) rest
  · rename_i hplain
    refine decodeBytes_cons ?_ rest
    rintro rfl
    simp [hpercent] at hplain

theorem decodeBytes_encode (hpercent : '%' ∈ reserved) (cs : List Char) :
    decodeBytes (encode reserved cs) = cs.flatMap bytes := by
  induction cs with
  | nil => rfl
  | cons c rest ih =>
    rw [encode, List.flatMap_cons, decodeBytes_encodeChar hpercent]
    exact congrArg (bytes c ++ ·) ih

theorem decode?_encode (hpercent : '%' ∈ reserved) (cs : List Char) :
    decode? (encode reserved cs) = some cs := by
  rw [decode?, decodeBytes_encode hpercent, ofUtf8?_bytes]
  simp

theorem eq_of_encode_eq (hpercent : '%' ∈ reserved)
    (h : encode reserved cs = encode reserved rest) : cs = rest := by
  have hdecoded := congrArg decode? h
  rw [decode?_encode hpercent, decode?_encode hpercent] at hdecoded
  exact Option.some.inj hdecoded

theorem mem_triplet (hb : b < 256) (h : c ∈ encodeByte b) : c = '%' ∨ ∃ n < 16, c = digit n := by
  simp only [encodeByte, List.mem_cons, List.not_mem_nil, or_false] at h
  rcases h with rfl | rfl | rfl
  · exact .inl rfl
  · exact .inr ⟨b / 16, by omega, rfl⟩
  · exact .inr ⟨b % 16, by omega, rfl⟩

theorem not_mem_encode (h : c ∈ reserved) (hpercent : c ≠ '%') (hdigit : ∀ n < 16, c ≠ digit n)
    (cs : List Char) : c ∉ encode reserved cs := by
  intro hmem
  obtain ⟨d, -, hd⟩ := List.mem_flatMap.mp hmem
  rw [encodeChar] at hd
  split at hd
  · obtain ⟨b, hb, hc⟩ := List.mem_flatMap.mp hd
    rcases mem_triplet (lt_of_mem_bytes hb) hc with rfl | ⟨n, hn, rfl⟩
    · exact hpercent rfl
    · exact hdigit n hn rfl
  · rename_i hplain
    obtain rfl := List.mem_singleton.mp hd
    simp [h] at hplain

end FeatureFlow.Percent
