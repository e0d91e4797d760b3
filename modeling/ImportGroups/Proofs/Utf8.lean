import ImportGroups.Text.Utf8

/-!
Writing and reading UTF-8.

The encoding of a character is one piece, whatever follows it, so what was written is read back. A
byte of ASCII is a piece of its own, whatever comes before it.
-/

namespace ImportGroups.Text

theorem encodeUtf8_eq (s : String) : encodeUtf8 s = s.toList.flatMap String.utf8EncodeChar := by
  have h : s.toUTF8 = s.toList.utf8Encode := String.utf8Encode_toList.symm
  rw [encodeUtf8, h, List.utf8Encode, List.toList_data_toByteArray]

section Widths

variable {n : Nat}

theorem lt_ofNat {b : UInt8} (h : n < 256) : UInt8.ofNat n < b ↔ n < b.toNat := by
  rw [UInt8.lt_iff_toNat_lt, UInt8.toNat_ofNat', Nat.mod_eq_of_lt h]

theorem ofNat_le {b : UInt8} (h : n < 256) : UInt8.ofNat n ≤ b ↔ n ≤ b.toNat := by
  rw [UInt8.le_iff_toNat_le, UInt8.toNat_ofNat', Nat.mod_eq_of_lt h]

theorem le_ofNat {b : UInt8} (h : n < 256) : b ≤ UInt8.ofNat n ↔ b.toNat ≤ n := by
  rw [UInt8.le_iff_toNat_le, UInt8.toNat_ofNat', Nat.mod_eq_of_lt h]

theorem toNat_ofNat (h : n < 256) : (UInt8.ofNat n).toNat = n := by
  rw [UInt8.toNat_ofNat', Nat.mod_eq_of_lt h]

theorem isContinuation_ofNat (n : Nat) : isContinuation (UInt8.ofNat (n % 64 + 128)) = true := by
  have h : n % 64 + 128 < 256 := by omega
  simp only [isContinuation, Bool.and_eq_true, decide_eq_true_eq, le_ofNat h, ofNat_le h,
    UInt8.reduceToNat]
  omega

theorem payload_ofNat (n : Nat) : payload (UInt8.ofNat (n % 64 + 128)) = n % 64 := by
  rw [payload, toNat_ofNat (by omega)]
  omega

theorem utf8Piece_one (h : n < 0x80) (rest : Bytes) :
    utf8Piece (UInt8.ofNat n) rest = .char n rest := by
  have hlt : UInt8.ofNat n < 0x80 := (lt_ofNat (by omega)).mpr h
  simp only [utf8Piece, hlt, if_true, toNat_ofNat (by omega : n < 256)]

theorem utf8Piece_two (hlow : 0x80 ≤ n) (hhigh : n < 0x800) (rest : Bytes) :
    utf8Piece (UInt8.ofNat (n / 64 % 32 + 192)) (UInt8.ofNat (n % 64 + 128) :: rest) =
      .char n rest := by
  have hb : n / 64 % 32 + 192 < 256 := by omega
  have hvalue : (n / 64 % 32 + 192) % 32 * 64 + n % 64 = n := by omega
  simp only [utf8Piece, lt_ofNat hb, ofNat_le hb, le_ofNat hb, Bool.and_eq_true, decide_eq_true_eq,
    UInt8.reduceToNat, isContinuation_ofNat, payload_ofNat, toNat_ofNat hb, hvalue, if_true]
  rw [if_neg (by omega), if_pos (by omega)]

theorem utf8Piece_three (hlow : 0x800 ≤ n) (hhigh : n < 0x10000)
    (hscalar : n < 0xD800 ∨ 0xDFFF < n) (rest : Bytes) :
    utf8Piece (UInt8.ofNat (n / 4096 % 16 + 224))
      (UInt8.ofNat (n / 64 % 64 + 128) :: UInt8.ofNat (n % 64 + 128) :: rest) = .char n rest := by
  have hb : n / 4096 % 16 + 224 < 256 := by omega
  have hc : n / 64 % 64 + 128 < 256 := by omega
  have hvalue : ((n / 4096 % 16 + 224) % 16 * 64 + n / 64 % 64) * 64 + n % 64 = n := by omega
  have hsecond : secondOfThree (UInt8.ofNat (n / 4096 % 16 + 224))
      (UInt8.ofNat (n / 64 % 64 + 128)) = true := by
    simp only [secondOfThree, isContinuation_ofNat, beq_iff_eq, ← UInt8.toNat_inj, toNat_ofNat hb,
      ofNat_le hc, le_ofNat hc, UInt8.reduceToNat]
    split
    · simp
      omega
    · split
      · simp
        omega
      · rfl
  simp only [utf8Piece, lt_ofNat hb, ofNat_le hb, le_ofNat hb, Bool.and_eq_true, decide_eq_true_eq,
    UInt8.reduceToNat, hsecond, isContinuation_ofNat, payload_ofNat, toNat_ofNat hb, hvalue,
    if_true]
  rw [if_neg (by omega), if_neg (by omega), if_pos (by omega)]

theorem utf8Piece_four (hlow : 0x10000 ≤ n) (hhigh : n < 0x110000) (rest : Bytes) :
    utf8Piece (UInt8.ofNat (n / 262144 % 8 + 240))
      (UInt8.ofNat (n / 4096 % 64 + 128) :: UInt8.ofNat (n / 64 % 64 + 128) ::
        UInt8.ofNat (n % 64 + 128) :: rest) = .char n rest := by
  have hb : n / 262144 % 8 + 240 < 256 := by omega
  have hc : n / 4096 % 64 + 128 < 256 := by omega
  have hvalue : (((n / 262144 % 8 + 240) % 8 * 64 + n / 4096 % 64) * 64 + n / 64 % 64) * 64 +
      n % 64 = n := by omega
  have hsecond : secondOfFour (UInt8.ofNat (n / 262144 % 8 + 240))
      (UInt8.ofNat (n / 4096 % 64 + 128)) = true := by
    simp only [secondOfFour, isContinuation_ofNat, beq_iff_eq, ← UInt8.toNat_inj, toNat_ofNat hb,
      ofNat_le hc, le_ofNat hc, UInt8.reduceToNat]
    split
    · simp
      omega
    · split
      · simp
        omega
      · rfl
  simp only [utf8Piece, lt_ofNat hb, ofNat_le hb, le_ofNat hb, Bool.and_eq_true, decide_eq_true_eq,
    UInt8.reduceToNat, hsecond, isContinuation_ofNat, payload_ofNat, toNat_ofNat hb, hvalue,
    if_true]
  rw [if_neg (by omega), if_neg (by omega), if_neg (by omega), if_pos (by omega)]

end Widths

theorem utf8Piece_utf8EncodeChar (c : Char) :
    ∃ a bs, String.utf8EncodeChar c = a :: bs ∧
      ∀ rest, utf8Piece a (bs ++ rest) = ⟨some c, rest⟩ := by
  have hchar : ∀ rest, Utf8Piece.char c.val.toNat rest = ⟨some c, rest⟩ := fun rest => by
    rw [Utf8Piece.char]
    exact congrArg (Utf8Piece.mk · rest) (congrArg some (Char.ofNat_toNat c))
  have hvalid : c.val.toNat < 0xD800 ∨ 0xDFFF < c.val.toNat ∧ c.val.toNat < 0x110000 := c.valid
  generalize hn : c.val.toNat = n at hchar hvalid
  unfold String.utf8EncodeChar
  rw [hn]
  dsimp only
  by_cases h₁ : n ≤ 0x7f
  · exact ⟨_, _, if_pos h₁, fun rest => (utf8Piece_one (by omega) rest).trans (hchar rest)⟩
  rw [if_neg h₁]
  by_cases h₂ : n ≤ 0x7ff
  · exact ⟨_, _, if_pos h₂,
      fun rest => (utf8Piece_two (by omega) (by omega) rest).trans (hchar rest)⟩
  rw [if_neg h₂]
  by_cases h₃ : n ≤ 0xffff
  · exact ⟨_, _, if_pos h₃, fun rest =>
      (utf8Piece_three (by omega) (by omega) (by omega) rest).trans (hchar rest)⟩
  · exact ⟨_, _, if_neg h₃,
      fun rest => (utf8Piece_four (by omega) (by omega) rest).trans (hchar rest)⟩

theorem utf8Pieces_flatMap (cs : List Char) :
    utf8Pieces (cs.flatMap String.utf8EncodeChar) = cs.map some := by
  induction cs with
  | nil => rw [List.flatMap_nil, utf8Pieces, List.map_nil]
  | cons c cs ih =>
    obtain ⟨a, bs, hc, hpiece⟩ := utf8Piece_utf8EncodeChar c
    rw [List.flatMap_cons, hc, List.cons_append, utf8Pieces, hpiece, ih, List.map_cons]

theorem decodeUtf8Lenient_encodeUtf8 (s : String) : decodeUtf8Lenient (encodeUtf8 s) = s := by
  have hback : (s.toList.map some).map (·.getD '\uFFFD') = s.toList := by simp [Function.comp_def]
  rw [decodeUtf8Lenient, encodeUtf8_eq, utf8Pieces_flatMap, hback, String.ofList_toList]

theorem decodeUtf8?_encodeUtf8 (s : String) : decodeUtf8? (encodeUtf8 s) = some s := by
  have hback : ∀ cs : List Char, (cs.map some).mapM id = some cs := by
    intro cs
    induction cs with
    | nil => rfl
    | cons c cs ih => simp [List.mapM_cons, ih]
  rw [decodeUtf8?, encodeUtf8_eq, utf8Pieces_flatMap, hback, Option.map_some, String.ofList_toList]

/-- A byte of an encoding is the character itself or none of ASCII. -/
theorem mem_utf8EncodeChar {c : Char} {b : UInt8} (h : b ∈ String.utf8EncodeChar c) :
    c.toNat < 0x80 ∧ b.toNat = c.toNat ∨ 0x80 ≤ b.toNat := by
  have hval : c.toNat = c.val.toNat := rfl
  unfold String.utf8EncodeChar at h
  dsimp only at h
  split at h
  · left
    rw [List.mem_singleton] at h
    subst h
    rw [toNat_ofNat (by omega)]
    omega
  · right
    have hmem : ∃ n k, b = UInt8.ofNat (n + k) ∧ 128 ≤ k ∧ n + k < 256 := by
      split at h
      · simp only [List.mem_cons, List.not_mem_nil, or_false] at h
        rcases h with rfl | rfl
        · exact ⟨_, 192, rfl, by omega, by omega⟩
        · exact ⟨_, 128, rfl, by omega, by omega⟩
      · split at h
        · simp only [List.mem_cons, List.not_mem_nil, or_false] at h
          rcases h with rfl | rfl | rfl
          · exact ⟨_, 224, rfl, by omega, by omega⟩
          · exact ⟨_, 128, rfl, by omega, by omega⟩
          · exact ⟨_, 128, rfl, by omega, by omega⟩
        · simp only [List.mem_cons, List.not_mem_nil, or_false] at h
          rcases h with rfl | rfl | rfl | rfl
          · exact ⟨_, 240, rfl, by omega, by omega⟩
          · exact ⟨_, 128, rfl, by omega, by omega⟩
          · exact ⟨_, 128, rfl, by omega, by omega⟩
          · exact ⟨_, 128, rfl, by omega, by omega⟩
    obtain ⟨n, k, rfl, hk, hlt⟩ := hmem
    rw [toNat_ofNat hlt]
    omega

section Ascii

variable {a b : UInt8} {bs : Bytes}

theorem isContinuation_iff : isContinuation b = true ↔ 0x80 ≤ b.toNat ∧ b.toNat ≤ 0xBF := by
  simp [isContinuation, UInt8.le_iff_toNat_le]

theorem secondOfThree_bounds (h : secondOfThree a b = true) :
    0x80 ≤ b.toNat ∧ b.toNat ≤ 0xBF ∧ (a.toNat = 0xE0 → 0xA0 ≤ b.toNat) ∧
      (a.toNat = 0xED → b.toNat ≤ 0x9F) := by
  simp only [secondOfThree, beq_iff_eq, ← UInt8.toNat_inj, isContinuation, UInt8.le_iff_toNat_le,
    UInt8.reduceToNat] at h
  split at h
  · simp at h
    omega
  · split at h <;> simp at h <;> omega

theorem secondOfFour_bounds (h : secondOfFour a b = true) :
    0x80 ≤ b.toNat ∧ b.toNat ≤ 0xBF ∧ (a.toNat = 0xF0 → 0x90 ≤ b.toNat) ∧
      (a.toNat = 0xF4 → b.toNat ≤ 0x8F) := by
  simp only [secondOfFour, beq_iff_eq, ← UInt8.toNat_inj, isContinuation, UInt8.le_iff_toNat_le,
    UInt8.reduceToNat] at h
  split at h
  · simp at h
    omega
  · split at h <;> simp at h <;> omega

theorem utf8Piece_ascii (ha : a < 0x80) (bs : Bytes) :
    utf8Piece a bs = ⟨some (Char.ofNat a.toNat), bs⟩ := by
  unfold utf8Piece
  rw [if_pos ha, Utf8Piece.char]

theorem utf8Piece_wide (ha : ¬ a < 0x80) (bs : Bytes) : (utf8Piece a bs).char? = none ∨
    ∃ n, (utf8Piece a bs).char? = some (Char.ofNat n) ∧ 0x80 ≤ n ∧ n.isValidChar := by
  unfold utf8Piece
  rw [if_neg ha]
  simp only [Bool.and_eq_true, decide_eq_true_eq, UInt8.le_iff_toNat_le, UInt8.reduceToNat]
  repeat' split
  all_goals first
    | exact .inl rfl
    | refine .inr ⟨_, rfl, ?_⟩
      simp only [payload, Nat.isValidChar]
  · rename_i hb
    rw [isContinuation_iff] at hb
    omega
  · rename_i hb _ _ _ hc
    have := secondOfThree_bounds hb
    rw [isContinuation_iff] at hc
    omega
  · rename_i hb _ _ hc _ _ _ hd
    have := secondOfFour_bounds hb
    rw [isContinuation_iff] at hc hd
    omega

theorem utf8Piece_rest_suffix (a : UInt8) (bs : Bytes) : (utf8Piece a bs).rest <:+ bs := by
  unfold utf8Piece
  repeat' split
  all_goals simp [Utf8Piece.char, Utf8Piece.invalid, List.suffix_cons_iff]

theorem utf8Piece_append (hb : b < 0x80) (a : UInt8) (bs : Bytes) :
    utf8Piece a (bs ++ [b]) = ⟨(utf8Piece a bs).char?, (utf8Piece a bs).rest ++ [b]⟩ := by
  have hlow : ¬ 0x80 ≤ b.toNat := by simpa [UInt8.lt_iff_toNat_lt] using hb
  have hcont : ¬ isContinuation b = true := fun h => hlow (isContinuation_iff.mp h).1
  have hthree : ¬ secondOfThree a b = true := fun h => hlow (secondOfThree_bounds h).1
  have hfour : ¬ secondOfFour a b = true := fun h => hlow (secondOfFour_bounds h).1
  unfold utf8Piece
  rcases bs with _ | ⟨b₁, _ | ⟨b₂, _ | ⟨b₃, bs⟩⟩⟩ <;>
    simp only [List.nil_append, List.cons_append, hcont, hthree, hfour, Bool.false_eq_true, if_false] <;>
    repeat' split
  all_goals rfl

theorem utf8Pieces_append (hb : b < 0x80) (bs : Bytes) :
    utf8Pieces (bs ++ [b]) = utf8Pieces bs ++ [some (Char.ofNat b.toNat)] := by
  fun_induction utf8Pieces bs with
  | case1 => simp [utf8Pieces, utf8Piece_ascii hb]
  | case2 a bs ih =>
    rw [List.cons_append, utf8Pieces, utf8Piece_append hb, ih, List.cons_append]

theorem toNat_charOfNat {n : Nat} (h : n.isValidChar) : (Char.ofNat n).toNat = n := by
  rw [Char.ofNat, dif_pos h]
  rfl

theorem getLast?_of_utf8Pieces {c : Char} (hc : c.toNat < 0x80)
    (h : (utf8Pieces bs).getLast? = some (some c)) :
    bs.getLast? = some (UInt8.ofNat c.toNat) := by
  fun_induction utf8Pieces bs with
  | case1 => cases h
  | case2 a bs ih =>
    cases hrest : (utf8Piece a bs).rest with
    | nil =>
      rw [hrest, utf8Pieces, List.getLast?_singleton, Option.some.injEq] at h
      by_cases ha : a < 0x80
      · rw [utf8Piece_ascii ha] at h hrest
        obtain rfl := hrest
        obtain rfl := Option.some.inj h
        have hlt : a.toNat < 0xD800 := Nat.lt_trans (UInt8.lt_iff_toNat_lt.mp ha) (by decide)
        rw [toNat_charOfNat (.inl hlt), UInt8.ofNat_toNat]
        rfl
      · exfalso
        rcases utf8Piece_wide ha bs with hnone | ⟨n, hn, hle, hvalid⟩
        · simp [hnone] at h
        · obtain rfl := Option.some.inj (hn.symm.trans h)
          rw [toNat_charOfNat hvalid] at hc
          exact absurd hc (Nat.not_lt.mpr hle)
    | cons b rest =>
      have hpieces : utf8Pieces (utf8Piece a bs).rest ≠ [] := by
        rw [hrest, utf8Pieces]
        exact List.cons_ne_nil _ _
      rw [List.getLast?_cons_of_ne_nil hpieces] at h
      obtain ⟨front, hfront⟩ := utf8Piece_rest_suffix a bs
      rw [← hfront, ← List.cons_append, List.getLast?_append, ih h, Option.some_or]

end Ascii

end ImportGroups.Text
