import HostLookup.Bytes.Utf8

/-!
# UTF-8 as it is read

`Form s n` says that the bytes are the UTF-8 form of the number. The forms are
what characters are encoded as (`form_encodeChar`, `Form.exists_char`) and what
`decode?` takes from the front of a text (`Form.decode?_append`), so a text is
read exactly if it is the encoding of some characters (`valid_iff`). No form of
more than one byte has a byte below 128 in it; a text can therefore be cut at
such a byte, and is valid if both parts are (`valid_append_cons`).
-/

namespace HostLookup.Bytes.Utf8

/-- The bytes are the form of the number. -/
inductive Form : Bytes → Nat → Prop where
  | one {a : UInt8} (ascii : a < 0x80) : Form [a] a.toNat
  | two {a b : UInt8} (pair : isPair a b = true) : Form [a, b] (a.toNat % 32 * 64 + payload b)
  | three {a b c : UInt8} (triple : isTriple a b c = true) :
      Form [a, b, c] (a.toNat % 16 * 4096 + payload b * 64 + payload c)
  | four {a b c d : UInt8} (quad : isQuad a b c d = true) :
      Form [a, b, c, d]
        (a.toNat % 8 * 262144 + payload b * 4096 + payload c * 64 + payload d)

section

variable {a b c d : UInt8} {n : Nat} {s r : Bytes} {cs : List Char}

/-! ## Ranges -/

theorem isTail_iff : isTail b = true ↔ 128 ≤ b.toNat ∧ b.toNat ≤ 191 := by
  simp [isTail, UInt8.le_iff_toNat_le]

theorem isPair_iff :
    isPair a b = true ↔ 194 ≤ a.toNat ∧ a.toNat ≤ 223 ∧ 128 ≤ b.toNat ∧ b.toNat ≤ 191 := by
  simp [isPair, isTail_iff, UInt8.le_iff_toNat_le, and_assoc]

theorem isTriple_iff :
    isTriple a b c = true ↔ (128 ≤ c.toNat ∧ c.toNat ≤ 191) ∧
      ((a.toNat = 224 ∧ 160 ≤ b.toNat ∧ b.toNat ≤ 191) ∨
        (225 ≤ a.toNat ∧ a.toNat ≤ 239 ∧ a.toNat ≠ 237 ∧ 128 ≤ b.toNat ∧ b.toNat ≤ 191) ∨
        (a.toNat = 237 ∧ 128 ≤ b.toNat ∧ b.toNat ≤ 159)) := by
  simp [isTriple, isTail_iff, UInt8.le_iff_toNat_le, ← UInt8.toNat_inj, and_assoc, or_assoc]

theorem isQuad_iff :
    isQuad a b c d = true ↔
      (128 ≤ c.toNat ∧ c.toNat ≤ 191) ∧ (128 ≤ d.toNat ∧ d.toNat ≤ 191) ∧
      ((a.toNat = 240 ∧ 144 ≤ b.toNat ∧ b.toNat ≤ 191) ∨
        (241 ≤ a.toNat ∧ a.toNat ≤ 243 ∧ 128 ≤ b.toNat ∧ b.toNat ≤ 191) ∨
        (a.toNat = 244 ∧ 128 ≤ b.toNat ∧ b.toNat ≤ 143)) := by
  simp [isQuad, isTail_iff, UInt8.le_iff_toNat_le, ← UInt8.toNat_inj, and_assoc, or_assoc]

theorem lt_iff : a < 0x80 ↔ a.toNat < 128 := UInt8.lt_iff_toNat_lt

/-! ## Characters -/

theorem ofNat_eq (h : n = a.toNat) : UInt8.ofNat n = a := by
  rw [h]
  exact UInt8.ofNat_toNat

theorem toNat_ofNat (h : n < 256) : (UInt8.ofNat n).toNat = n := UInt8.toNat_ofNat_of_lt' h

theorem Form.of_eq {m : Nat} (h : Form s m) (heq : m = n) : Form s n := heq ▸ h

theorem Form.exists_char (h : Form s n) :
    ∃ c : Char, c.toNat = n ∧ String.utf8EncodeChar c = s := by
  have char : ∀ {n}, n < 0xD800 ∨ 0xDFFF < n ∧ n < 0x110000 → ∃ c : Char, c.toNat = n :=
    fun {n} hn => ⟨Char.ofNatAux n hn, rfl⟩
  cases h with
  | @one a ascii =>
    have ha := lt_iff.mp ascii
    obtain ⟨c, hc⟩ := char (n := a.toNat) (by omega)
    refine ⟨c, hc, ?_⟩
    rw [String.utf8EncodeChar, Char.toNat_val, hc, if_pos (by omega)]
    rw [ofNat_eq rfl]
  | @two a b pair =>
    have hpair := isPair_iff.mp pair
    unfold payload
    obtain ⟨c, hc⟩ := char (n := a.toNat % 32 * 64 + b.toNat % 64) (by omega)
    refine ⟨c, hc, ?_⟩
    rw [String.utf8EncodeChar, Char.toNat_val, hc, if_neg (by omega), if_pos (by omega)]
    rw [ofNat_eq (a := a) (by omega), ofNat_eq (a := b) (by omega)]
  | @three a b c triple =>
    have htriple := isTriple_iff.mp triple
    unfold payload
    obtain ⟨x, hx⟩ := char
      (n := a.toNat % 16 * 4096 + b.toNat % 64 * 64 + c.toNat % 64) (by omega)
    refine ⟨x, hx, ?_⟩
    rw [String.utf8EncodeChar, Char.toNat_val, hx, if_neg (by omega), if_neg (by omega),
      if_pos (by omega)]
    rw [ofNat_eq (a := a) (by omega), ofNat_eq (a := b) (by omega), ofNat_eq (a := c) (by omega)]
  | @four a b c d quad =>
    have hquad := isQuad_iff.mp quad
    unfold payload
    obtain ⟨x, hx⟩ := char (n := a.toNat % 8 * 262144 + b.toNat % 64 * 4096 +
      c.toNat % 64 * 64 + d.toNat % 64) (by omega)
    refine ⟨x, hx, ?_⟩
    rw [String.utf8EncodeChar, Char.toNat_val, hx, if_neg (by omega), if_neg (by omega),
      if_neg (by omega)]
    rw [ofNat_eq (a := a) (by omega), ofNat_eq (a := b) (by omega), ofNat_eq (a := c) (by omega),
      ofNat_eq (a := d) (by omega)]

theorem form_encodeChar (c : Char) : Form (String.utf8EncodeChar c) c.toNat := by
  have hv : c.toNat.isValidChar := c.valid
  have hn : c.val.toNat = c.toNat := rfl
  unfold String.utf8EncodeChar
  simp only [hn]
  generalize c.toNat = v at hv ⊢
  have hv : v < 0xD800 ∨ 0xDFFF < v ∧ v < 0x110000 := hv
  split
  · have ha : (UInt8.ofNat v).toNat = v := toNat_ofNat (by omega)
    exact (Form.one (lt_iff.mpr (by omega))).of_eq ha
  · split
    · have ha := toNat_ofNat (n := v / 64 % 32 + 192) (by omega)
      have hb := toNat_ofNat (n := v % 64 + 128) (by omega)
      refine (Form.two (isPair_iff.mpr (by omega))).of_eq ?_
      simp only [payload, ha, hb]
      omega
    · split
      · have ha := toNat_ofNat (n := v / 4096 % 16 + 224) (by omega)
        have hb := toNat_ofNat (n := v / 64 % 64 + 128) (by omega)
        have hc := toNat_ofNat (n := v % 64 + 128) (by omega)
        refine (Form.three (isTriple_iff.mpr (by omega))).of_eq ?_
        simp only [payload, ha, hb, hc]
        omega
      · have ha := toNat_ofNat (n := v / 262144 % 8 + 240) (by omega)
        have hb := toNat_ofNat (n := v / 4096 % 64 + 128) (by omega)
        have hc := toNat_ofNat (n := v / 64 % 64 + 128) (by omega)
        have hd := toNat_ofNat (n := v % 64 + 128) (by omega)
        refine (Form.four (isQuad_iff.mpr (by omega))).of_eq ?_
        simp only [payload, ha, hb, hc, hd]
        omega

/-! ## Texts -/

/-- The form at the front of a text is read as its number. -/
theorem Form.decode?_append (h : Form s n) (r : Bytes) :
    decode? (s ++ r) = (decode? r).map (Char.ofNat n :: ·) := by
  cases h with
  | one ascii =>
    show decode? (_ :: r) = _
    rw [decode?.eq_def]
    simp only [ascii, if_true]
  | @two a b pair =>
    have hpair := isPair_iff.mp pair
    have high : ¬ a < 0x80 := mt lt_iff.mp (by omega)
    show decode? (a :: b :: r) = _
    rw [decode?.eq_def]
    simp only [high, pair, if_false, if_true]
  | @three a b c triple =>
    have htriple := isTriple_iff.mp triple
    have high : ¬ a < 0x80 := mt lt_iff.mp (by omega)
    have short : ¬ isPair a b = true := mt isPair_iff.mp (by omega)
    show decode? (a :: b :: c :: r) = _
    rw [decode?.eq_def]
    simp only [high, short, triple, Bool.false_eq_true, if_false, if_true]
  | @four a b c d quad =>
    have hquad := isQuad_iff.mp quad
    have high : ¬ a < 0x80 := mt lt_iff.mp (by omega)
    have short : ¬ isPair a b = true := mt isPair_iff.mp (by omega)
    have middle : ¬ isTriple a b c = true := mt isTriple_iff.mp (by omega)
    show decode? (a :: b :: c :: d :: r) = _
    rw [decode?.eq_def]
    simp only [high, short, middle, quad, Bool.false_eq_true, if_false, if_true]

theorem decode?_encodeChar_append (c : Char) (r : Bytes) :
    decode? (String.utf8EncodeChar c ++ r) = (decode? r).map (c :: ·) := by
  rw [(form_encodeChar c).decode?_append, Char.ofNat_toNat]

theorem decode?_encode (cs : List Char) : decode? (encode cs) = some cs := by
  induction cs with
  | nil => rfl
  | cons c cs ih =>
    rw [encode, List.flatMap_cons, decode?_encodeChar_append, ← encode, ih]
    rfl

theorem Form.encode_ofNat (h : Form s n) : String.utf8EncodeChar (Char.ofNat n) = s := by
  obtain ⟨c, rfl, rfl⟩ := h.exists_char
  rw [Char.ofNat_toNat]

theorem Form.encode_append (h : Form s n) (rest : ∀ cs, decode? r = some cs → encode cs = r)
    (reads : (decode? r).map (Char.ofNat n :: ·) = some cs) : encode cs = s ++ r := by
  obtain ⟨cs', hcs', rfl⟩ := Option.map_eq_some_iff.mp reads
  rw [encode, List.flatMap_cons, h.encode_ofNat, ← encode, rest _ hcs']

/-- What is read is the characters that the text encodes. -/
theorem encode_of_decode? (h : decode? s = some cs) : encode cs = s := by
  fun_induction decode? s generalizing cs with
  | case1 =>
    cases h
    rfl
  | case2 a r ascii ih => exact (Form.one ascii).encode_append (fun _ => ih) h
  | case3 | case5 | case7 | case9 => cases h
  | case4 a _ b r pair ih => exact (Form.two pair).encode_append (fun _ => ih) h
  | case6 a _ b _ c r triple ih => exact (Form.three triple).encode_append (fun _ => ih) h
  | case8 a _ b _ c _ d r quad ih => exact (Form.four quad).encode_append (fun _ => ih) h

theorem valid_iff : valid s = true ↔ ∃ cs, s = encode cs := by
  rw [valid, Option.isSome_iff_exists]
  constructor
  · rintro ⟨cs, h⟩
    exact ⟨cs, (encode_of_decode? h).symm⟩
  · rintro ⟨cs, rfl⟩
    exact ⟨cs, decode?_encode cs⟩

/-- Texts are valid by the definition of the standard library, too. -/
theorem isValidUTF8_iff : s.toByteArray.IsValidUTF8 ↔ valid s = true := by
  rw [valid_iff]
  constructor
  · rintro ⟨cs, h⟩
    exact ⟨cs, List.toByteArray_inj.mp h⟩
  · rintro ⟨cs, rfl⟩
    exact ⟨cs, rfl⟩

/-! ## Cutting -/

theorem valid_encodeChar_append (c : Char) (r : Bytes) :
    valid (String.utf8EncodeChar c ++ r) = valid r := by
  rw [valid, decode?_encodeChar_append, Option.isSome_map, ← valid]

/-- What follows a valid text decides whether the whole is valid. -/
theorem valid_append (h : valid s = true) (r : Bytes) : valid (s ++ r) = valid r := by
  obtain ⟨cs, rfl⟩ := valid_iff.mp h
  clear h
  induction cs with
  | nil => rfl
  | cons c cs ih =>
    rw [encode, List.flatMap_cons, List.append_assoc, valid_encodeChar_append]
    exact ih

theorem valid_cons (hc : c < 0x80) (r : Bytes) : valid (c :: r) = valid r := by
  obtain ⟨x, -, hx⟩ := (Form.one hc).exists_char
  have h := valid_encodeChar_append x r
  rwa [hx] at h

theorem Form.eq_singleton (h : Form s n) (hc : c < 0x80) (hmem : c ∈ s) : s = [c] := by
  have hc := lt_iff.mp hc
  cases h with
  | one => rw [List.mem_singleton.mp hmem]
  | two pair =>
    have hpair := isPair_iff.mp pair
    simp only [List.mem_cons, List.not_mem_nil, or_false] at hmem
    rcases hmem with rfl | rfl <;> omega
  | three triple =>
    have htriple := isTriple_iff.mp triple
    simp only [List.mem_cons, List.not_mem_nil, or_false] at hmem
    rcases hmem with rfl | rfl | rfl <;> omega
  | four quad =>
    have hquad := isQuad_iff.mp quad
    simp only [List.mem_cons, List.not_mem_nil, or_false] at hmem
    rcases hmem with rfl | rfl | rfl | rfl <;> omega

theorem valid_of_append_cons (hc : c < 0x80) (h : valid (s ++ c :: r) = true) :
    valid s = true := by
  obtain ⟨cs, hcs⟩ := valid_iff.mp h
  clear h
  induction cs generalizing s with
  | nil => exact absurd (congrArg List.length hcs) (by simp [encode])
  | cons x cs ih =>
    rw [encode, List.flatMap_cons, ← encode] at hcs
    rcases List.append_eq_append_iff.mp hcs with ⟨t, hs, ht⟩ | ⟨t, hs, ht⟩
    · cases t with
      | nil =>
        rw [List.append_nil] at hs
        rw [← hs, ← List.append_nil (String.utf8EncodeChar x), valid_encodeChar_append]
        rfl
      | cons c' t =>
        -- the byte is in the first character, so it is that character
        obtain rfl := (List.cons.inj ht).1
        have hmem : c ∈ String.utf8EncodeChar x := by
          rw [hs]
          exact List.mem_append_right s List.mem_cons_self
        have hsingle := (form_encodeChar x).eq_singleton hc hmem
        have hnil : s.length = 0 := by
          have hlength := congrArg List.length (hs.symm.trans hsingle)
          simp only [List.length_append, List.length_cons, List.length_nil] at hlength
          omega
        rw [List.eq_nil_of_length_eq_zero hnil]
        rfl
    · rw [hs, valid_encodeChar_append]
      exact ih ht.symm

/-- A text can be cut at a byte below 128. -/
theorem valid_append_cons (hc : c < 0x80) (s r : Bytes) :
    valid (s ++ c :: r) = (valid s && valid r) := by
  by_cases hs : valid s = true
  · rw [valid_append hs, valid_cons hc, hs, Bool.true_and]
  · rw [(Bool.not_eq_true _).mp hs, Bool.false_and]
    exact (Bool.not_eq_true _).mp (mt (valid_of_append_cons hc) hs)

end

end HostLookup.Bytes.Utf8
