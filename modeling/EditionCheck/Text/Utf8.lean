/-!
# UTF-8

Texts as bytes. `units` splits bytes into the characters that they spell and the broken pieces between
them, where a broken piece is as long as the start of a character that it could have been. A text can
be read strictly (`decode?`), or with U+FFFD in place of each broken piece (`lossy`).

Main statements: `decode?_eq_some_iff` — the strict reading succeeds just when no piece is broken, and
then both readings agree (`lossy_of_decode?`); `decode?_encode` — every text is read back from its
bytes —, and `decode?_eq_some_iff_encode` — from no others.
-/

set_option autoImplicit false

namespace EditionCheck.Text.Utf8

/-! ## Characters as bytes -/

/-- The bytes of a character. -/
def encodeChar (c : Char) : List UInt8 :=
  let v := c.toNat
  if v < 0x80 then [UInt8.ofNat v]
  else if v < 0x800 then [UInt8.ofNat (0xC0 + v / 64), UInt8.ofNat (0x80 + v % 64)]
  else if v < 0x10000 then
    [UInt8.ofNat (0xE0 + v / 4096), UInt8.ofNat (0x80 + v / 64 % 64), UInt8.ofNat (0x80 + v % 64)]
  else
    [UInt8.ofNat (0xF0 + v / 262144), UInt8.ofNat (0x80 + v / 4096 % 64),
      UInt8.ofNat (0x80 + v / 64 % 64), UInt8.ofNat (0x80 + v % 64)]

/-- The bytes of a text. -/
def encode (cs : List Char) : List UInt8 := cs.flatMap encodeChar

/-! ## Bytes as characters -/

/-- Reads the `k` bytes that continue a character whose bits so far are `bits`. The first of them lies
between `lo` and `hi`. What is read is `none` if one of them does not fit, and that one is left. -/
def continueWith (bits : Nat) : Nat → Nat → Nat → List UInt8 → Option Char × List UInt8
  | 0, _, _, rest => (some (Char.ofNat bits), rest)
  | _ + 1, _, _, [] => (none, [])
  | k + 1, lo, hi, b :: rest =>
    if lo ≤ b.toNat ∧ b.toNat ≤ hi then
      continueWith (bits * 64 + (b.toNat - 0x80)) k 0x80 0xBF rest
    else (none, b :: rest)

theorem suffix_continueWith (bits k lo hi : Nat) (rest : List UInt8) :
    (continueWith bits k lo hi rest).2 <:+ rest := by
  induction k generalizing bits lo hi rest with
  | zero => exact List.suffix_rfl
  | succ k ih =>
    cases rest with
    | nil => exact List.suffix_rfl
    | cons b rest =>
      simp only [continueWith]
      split
      · exact (ih _ _ _ _).trans (List.suffix_cons b rest)
      · exact List.suffix_rfl

/-- Reads one character or broken piece. Overlong forms, surrogates and numbers above U+10FFFF are
refused at the second byte. -/
def first (b : UInt8) (rest : List UInt8) : Option Char × List UInt8 :=
  let n := b.toNat
  if n < 0x80 then (some (Char.ofNat n), rest)
  else if n < 0xC2 then (none, rest)
  else if n < 0xE0 then continueWith (n - 0xC0) 1 0x80 0xBF rest
  else if n = 0xE0 then continueWith 0 2 0xA0 0xBF rest
  else if n = 0xED then continueWith 0xD 2 0x80 0x9F rest
  else if n < 0xF0 then continueWith (n - 0xE0) 2 0x80 0xBF rest
  else if n = 0xF0 then continueWith 0 3 0x90 0xBF rest
  else if n < 0xF4 then continueWith (n - 0xF0) 3 0x80 0xBF rest
  else if n = 0xF4 then continueWith 4 3 0x80 0x8F rest
  else (none, rest)

theorem suffix_first (b : UInt8) (rest : List UInt8) : (first b rest).2 <:+ rest := by
  simp only [first]
  repeat' split
  all_goals first | exact List.suffix_rfl | exact suffix_continueWith _ _ _ _ _

/-- The characters (`some`) and broken pieces (`none`) of some bytes. -/
def units : List UInt8 → List (Option Char)
  | [] => []
  | b :: rest => (first b rest).1 :: units (first b rest).2
termination_by bytes => bytes.length
decreasing_by exact Nat.lt_succ_of_le (suffix_first b rest).length_le

/-- The text that some bytes spell, if they spell one. -/
def decode? (bytes : List UInt8) : Option (List Char) := (units bytes).mapM id

/-- The text that some bytes spell, with U+FFFD in place of each broken piece. -/
def lossy (bytes : List UInt8) : List Char := (units bytes).map (·.getD '\ufffd')

theorem mapM_id_eq_some_iff {us : List (Option Char)} {cs : List Char} :
    us.mapM id = some cs ↔ us = cs.map some := by
  induction us generalizing cs with
  | nil => cases cs <;> simp
  | cons u us ih =>
    cases u with
    | none => cases cs <;> simp
    | some c =>
      cases cs with
      | nil => simp [Option.bind_eq_some_iff]
      | cons d ds =>
        simp only [List.mapM_cons, id_eq, Option.bind_eq_bind, Option.bind_some, Option.pure_def,
          Option.bind_eq_some_iff, Option.some.injEq, List.cons.injEq, List.map_cons]
        constructor
        · rintro ⟨es, h, rfl, rfl⟩
          exact ⟨rfl, ih.1 h⟩
        · rintro ⟨rfl, h⟩
          exact ⟨ds, ih.2 h, rfl, rfl⟩

theorem decode?_eq_some_iff {bytes : List UInt8} {cs : List Char} :
    decode? bytes = some cs ↔ units bytes = cs.map some :=
  mapM_id_eq_some_iff

theorem lossy_of_decode? {bytes : List UInt8} {cs : List Char} (h : decode? bytes = some cs) :
    lossy bytes = cs := by
  have hid : (fun u : Option Char => u.getD '\ufffd') ∘ some = id := rfl
  simp [lossy, decode?_eq_some_iff.1 h, hid]

/-! ## Reading back what was written -/

theorem toNat_ofNat_of_lt {n : Nat} (h : n < 256) : (UInt8.ofNat n).toNat = n := by
  simp [Nat.mod_eq_of_lt h]

theorem continueWith_one {bits lo hi n : Nat} {rest : List UInt8} (hn : n < 256) (hlo : lo ≤ n)
    (hhi : n ≤ hi) :
    continueWith bits 1 lo hi (UInt8.ofNat n :: rest)
      = (some (Char.ofNat (bits * 64 + (n - 0x80))), rest) := by
  simp [continueWith, toNat_ofNat_of_lt hn, hlo, hhi]

theorem continueWith_succ {bits k lo hi n : Nat} {rest : List UInt8} (hn : n < 256) (hlo : lo ≤ n)
    (hhi : n ≤ hi) :
    continueWith bits (k + 1) lo hi (UInt8.ofNat n :: rest)
      = continueWith (bits * 64 + (n - 0x80)) k 0x80 0xBF rest := by
  simp [continueWith, toNat_ofNat_of_lt hn, hlo, hhi]

theorem toNat_ranges (c : Char) : c.toNat < 0xD800 ∨ (0xDFFF < c.toNat ∧ c.toNat < 0x110000) := by
  rcases c.valid with h | ⟨h, h'⟩
  · exact Or.inl h
  · exact Or.inr ⟨h, h'⟩

theorem units_encodeChar_append (c : Char) (rest : List UInt8) :
    units (encodeChar c ++ rest) = some c :: units rest := by
  have hr := toNat_ranges c
  have key : ∀ (b : UInt8) (more : List UInt8), first b (more ++ rest) = (some c, rest) →
      units ((b :: more) ++ rest) = some c :: units rest := by
    intro b more h
    rw [List.cons_append, units, h]
  simp only [encodeChar]
  split
  · next h =>
    apply key
    have : c.toNat < 256 := by omega
    simp [first, toNat_ofNat_of_lt this, h]
  · next h =>
    split
    · next h2 =>
      apply key
      have h0 : 0xC0 + c.toNat / 64 < 256 := by omega
      have hv : (0xC0 + c.toNat / 64 - 0xC0) * 64 + (0x80 + c.toNat % 64 - 0x80) = c.toNat := by omega
      simp only [first, toNat_ofNat_of_lt h0, List.cons_append, List.nil_append]
      rw [if_neg (by omega), if_neg (by omega), if_pos (by omega),
        continueWith_one (by omega) (by omega) (by omega), hv, Char.ofNat_toNat]
    · next h2 =>
      split
      · next h3 =>
        apply key
        have h0 : 0xE0 + c.toNat / 4096 < 256 := by omega
        simp only [first, toNat_ofNat_of_lt h0, List.cons_append, List.nil_append]
        rw [if_neg (by omega), if_neg (by omega), if_neg (by omega)]
        have hv : ∀ top, top = c.toNat / 4096 →
            (top * 64 + (0x80 + c.toNat / 64 % 64 - 0x80)) * 64 + (0x80 + c.toNat % 64 - 0x80)
              = c.toNat := by omega
        split
        · rw [continueWith_succ (by omega) (by omega) (by omega),
            continueWith_one (by omega) (by omega) (by omega), hv 0 (by omega), Char.ofNat_toNat]
        · split
          · rw [continueWith_succ (by omega) (by omega) (by omega),
              continueWith_one (by omega) (by omega) (by omega), hv 0xD (by omega), Char.ofNat_toNat]
          · rw [if_pos (by omega), continueWith_succ (by omega) (by omega) (by omega),
              continueWith_one (by omega) (by omega) (by omega), hv _ (by omega), Char.ofNat_toNat]
      · next h3 =>
        apply key
        have h0 : 0xF0 + c.toNat / 262144 < 256 := by omega
        simp only [first, toNat_ofNat_of_lt h0, List.cons_append, List.nil_append]
        rw [if_neg (by omega), if_neg (by omega), if_neg (by omega), if_neg (by omega),
          if_neg (by omega), if_neg (by omega)]
        have hv : ∀ top, top = c.toNat / 262144 →
            ((top * 64 + (0x80 + c.toNat / 4096 % 64 - 0x80)) * 64
              + (0x80 + c.toNat / 64 % 64 - 0x80)) * 64 + (0x80 + c.toNat % 64 - 0x80)
              = c.toNat := by omega
        split
        · rw [continueWith_succ (by omega) (by omega) (by omega),
            continueWith_succ (by omega) (by omega) (by omega),
            continueWith_one (by omega) (by omega) (by omega), hv 0 (by omega), Char.ofNat_toNat]
        · split
          · rw [continueWith_succ (by omega) (by omega) (by omega),
              continueWith_succ (by omega) (by omega) (by omega),
              continueWith_one (by omega) (by omega) (by omega), hv _ (by omega), Char.ofNat_toNat]
          · rw [if_pos (by omega), continueWith_succ (by omega) (by omega) (by omega),
              continueWith_succ (by omega) (by omega) (by omega),
              continueWith_one (by omega) (by omega) (by omega), hv 4 (by omega), Char.ofNat_toNat]

/-- **Every text is read back from its bytes.** -/
theorem decode?_encode (cs : List Char) : decode? (encode cs) = some cs := by
  rw [decode?_eq_some_iff]
  induction cs with
  | nil => simp [encode, units]
  | cons c cs ih =>
    simp only [encode, List.flatMap_cons, units_encodeChar_append, List.map_cons] at ih ⊢
    rw [ih]

/-! ## Writing what was read -/

/-- What is read as the rest of a character begins with a byte in its range. -/
theorem exists_of_continueWith {bits k lo hi : Nat} {bytes rest : List UInt8} {c : Char}
    (h : continueWith bits (k + 1) lo hi bytes = (some c, rest)) :
    ∃ b more, bytes = b :: more ∧ lo ≤ b.toNat ∧ b.toNat ≤ hi
      ∧ continueWith (bits * 64 + (b.toNat - 0x80)) k 0x80 0xBF more = (some c, rest) := by
  cases bytes with
  | nil => simp [continueWith] at h
  | cons b more =>
    rw [continueWith] at h
    split at h
    · next hrange => exact ⟨b, more, rfl, hrange.1, hrange.2, h⟩
    · cases h

theorem eq_of_continueWith_zero {bits lo hi : Nat} {bytes rest : List UInt8} {c : Char}
    (h : continueWith bits 0 lo hi bytes = (some c, rest)) : c = Char.ofNat bits ∧ rest = bytes := by
  rw [continueWith, Prod.mk.injEq, Option.some.injEq] at h
  exact ⟨h.1.symm, h.2.symm⟩

theorem ofNat_of_toNat {b : UInt8} {n : Nat} (h : n = b.toNat) : UInt8.ofNat n = b := by
  rw [h, UInt8.ofNat_toNat]

theorem toNat_ofNat_of_range {n : Nat} (h : n < 0xD800 ∨ 0xDFFF < n ∧ n < 0x110000) :
    (Char.ofNat n).toNat = n := by
  have hvalid : n.isValidChar := h
  rw [Char.ofNat, dif_pos hvalid]
  rfl

/-- A character of two bytes. -/
theorem encodeChar_two {a b : UInt8} (ha : 0xC2 ≤ a.toNat) (ha' : a.toNat < 0xE0)
    (hb : 0x80 ≤ b.toNat) (hb' : b.toNat ≤ 0xBF) :
    encodeChar (Char.ofNat ((a.toNat - 0xC0) * 64 + (b.toNat - 0x80))) = [a, b] := by
  have hc := toNat_ofNat_of_range (n := (a.toNat - 0xC0) * 64 + (b.toNat - 0x80)) (by omega)
  simp only [encodeChar, hc]
  rw [if_neg (by omega), if_pos (by omega), ofNat_of_toNat (b := a) (by omega),
    ofNat_of_toNat (b := b) (by omega)]

/-- A character of three bytes. -/
theorem encodeChar_three {a b c : UInt8} {bits : Nat} (ha : a.toNat = 0xE0 + bits) (hbits : bits < 16)
    (hb : 0x80 ≤ b.toNat) (hb' : b.toNat ≤ 0xBF) (hlow : bits = 0 → 0xA0 ≤ b.toNat)
    (hhalf : bits = 0xD → b.toNat ≤ 0x9F) (hc : 0x80 ≤ c.toNat) (hc' : c.toNat ≤ 0xBF) :
    encodeChar (Char.ofNat ((bits * 64 + (b.toNat - 0x80)) * 64 + (c.toNat - 0x80))) = [a, b, c] := by
  have hv := toNat_ofNat_of_range
    (n := (bits * 64 + (b.toNat - 0x80)) * 64 + (c.toNat - 0x80)) (by omega)
  simp only [encodeChar, hv]
  rw [if_neg (by omega), if_neg (by omega), if_pos (by omega), ofNat_of_toNat (b := a) (by omega),
    ofNat_of_toNat (b := b) (by omega), ofNat_of_toNat (b := c) (by omega)]

/-- A character of four bytes. -/
theorem encodeChar_four {a b c d : UInt8} {bits : Nat} (ha : a.toNat = 0xF0 + bits) (hbits : bits < 5)
    (hb : 0x80 ≤ b.toNat) (hb' : b.toNat ≤ 0xBF) (hlow : bits = 0 → 0x90 ≤ b.toNat)
    (hhigh : bits = 4 → b.toNat ≤ 0x8F) (hc : 0x80 ≤ c.toNat) (hc' : c.toNat ≤ 0xBF)
    (hd : 0x80 ≤ d.toNat) (hd' : d.toNat ≤ 0xBF) :
    encodeChar (Char.ofNat (((bits * 64 + (b.toNat - 0x80)) * 64 + (c.toNat - 0x80)) * 64
      + (d.toNat - 0x80))) = [a, b, c, d] := by
  have hv := toNat_ofNat_of_range
    (n := ((bits * 64 + (b.toNat - 0x80)) * 64 + (c.toNat - 0x80)) * 64 + (d.toNat - 0x80)) (by omega)
  simp only [encodeChar, hv]
  rw [if_neg (by omega), if_neg (by omega), if_neg (by omega), ofNat_of_toNat (b := a) (by omega),
    ofNat_of_toNat (b := b) (by omega), ofNat_of_toNat (b := c) (by omega),
    ofNat_of_toNat (b := d) (by omega)]

/-- A character that is read is written as the bytes that it was read from. -/
theorem eq_encodeChar_of_first {b : UInt8} {bytes rest : List UInt8} {c : Char}
    (h : first b bytes = (some c, rest)) : b :: bytes = encodeChar c ++ rest := by
  -- the leading byte says how many bytes follow, and bounds the first of them
  have hthree {bits lo hi : Nat} (ha : b.toNat = 0xE0 + bits) (hbits : bits < 16)
      (hlo : 0x80 ≤ lo) (hhi : hi ≤ 0xBF) (hlow : bits = 0 → 0xA0 ≤ lo)
      (hhalf : bits = 0xD → hi ≤ 0x9F) (h : continueWith bits 2 lo hi bytes = (some c, rest)) :
      b :: bytes = encodeChar c ++ rest := by
    obtain ⟨b₁, more, rfl, h₁, h₁', h⟩ := exists_of_continueWith h
    obtain ⟨b₂, more, rfl, h₂, h₂', h⟩ := exists_of_continueWith h
    obtain ⟨hc, hrest⟩ := eq_of_continueWith_zero h
    rw [hc, hrest, encodeChar_three ha hbits (by omega) (by omega) (by omega) (by omega) h₂ h₂']
    rfl
  have hfour {bits lo hi : Nat} (ha : b.toNat = 0xF0 + bits) (hbits : bits < 5)
      (hlo : 0x80 ≤ lo) (hhi : hi ≤ 0xBF) (hlow : bits = 0 → 0x90 ≤ lo)
      (hhigh : bits = 4 → hi ≤ 0x8F) (h : continueWith bits 3 lo hi bytes = (some c, rest)) :
      b :: bytes = encodeChar c ++ rest := by
    obtain ⟨b₁, more, rfl, h₁, h₁', h⟩ := exists_of_continueWith h
    obtain ⟨b₂, more, rfl, h₂, h₂', h⟩ := exists_of_continueWith h
    obtain ⟨b₃, more, rfl, h₃, h₃', h⟩ := exists_of_continueWith h
    obtain ⟨hc, hrest⟩ := eq_of_continueWith_zero h
    rw [hc, hrest, encodeChar_four ha hbits (by omega) (by omega) (by omega) (by omega) h₂ h₂' h₃ h₃']
    rfl
  simp only [first] at h
  split at h
  · cases h
    have hc := toNat_ofNat_of_range (n := b.toNat) (by omega)
    simp only [encodeChar, hc]
    rw [if_pos (by omega), ofNat_of_toNat rfl]
    rfl
  split at h
  · cases h
  split at h
  · obtain ⟨b₁, more, rfl, h₁, h₁', h⟩ := exists_of_continueWith h
    obtain ⟨hc, hrest⟩ := eq_of_continueWith_zero h
    rw [hc, hrest, encodeChar_two (by omega) (by omega) h₁ h₁']
    rfl
  split at h
  · exact hthree (by omega) (by omega) (by omega) (by omega) (by omega) (by omega) h
  split at h
  · exact hthree (by omega) (by omega) (by omega) (by omega) (by omega) (by omega) h
  split at h
  · exact hthree (by omega) (by omega) (by omega) (by omega) (by omega) (by omega) h
  split at h
  · exact hfour (by omega) (by omega) (by omega) (by omega) (by omega) (by omega) h
  split at h
  · exact hfour (by omega) (by omega) (by omega) (by omega) (by omega) (by omega) h
  split at h
  · exact hfour (by omega) (by omega) (by omega) (by omega) (by omega) (by omega) h
  · cases h

/-- **Bytes spell a text just when they are the bytes of it.** -/
theorem decode?_eq_some_iff_encode {bytes : List UInt8} {cs : List Char} :
    decode? bytes = some cs ↔ bytes = encode cs := by
  constructor
  · intro h
    rw [decode?_eq_some_iff] at h
    fun_induction units bytes generalizing cs with
    | case1 =>
      cases cs with
      | nil => rfl
      | cons c cs => cases h
    | case2 b bytes ih =>
      cases cs with
      | nil => cases h
      | cons c cs =>
        obtain ⟨hc, hcs⟩ := List.cons.inj h
        have hfirst : first b bytes = (some c, (first b bytes).2) := by rw [← hc]
        rw [eq_encodeChar_of_first hfirst, ih hcs]
        rfl
  · rintro rfl
    exact decode?_encode cs

end EditionCheck.Text.Utf8
