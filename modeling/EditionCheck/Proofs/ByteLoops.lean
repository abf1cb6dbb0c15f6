import EditionCheck.Scan.ByteLoop

/-!
# Loops over bytes

What it takes for a loop over the bytes of a text to return, and how it gets past characters of which it
only sees single bytes.

* `ReturnsWithin` — a loop returns a result within a number of turns; then it has never cut a text inside
  of a character (`ReturnsWithin.ne_torn`);
* `getElem?_encode_pair_iff` — looking ahead by two bytes is looking ahead by two characters;
* `Passes` — a loop passes all bytes one by one but those of a few short characters. It passes any other
  character as a whole (`Passes.char`), and the rest of a character of which it has skipped the first
  byte (`Passes.escaped`).
-/

set_option autoImplicit false

namespace EditionCheck.Text.Utf8

section

variable {a b : Char} {before : List UInt8} {cs : List Char}

/-- The byte of a short character that stands behind other bytes. -/
theorem getElem?_behind (ha : a.toNat < 0x80) :
    (before ++ encode (a :: cs))[before.length]? = some a.toUInt8 := by
  rw [List.getElem?_append_right (Nat.le_refl _), Nat.sub_self]
  exact (getElem?_encode_eq_some_iff ha).2 rfl

/-- The bytes that follow this character. -/
theorem getElem?_behind_succ (ha : a.toNat < 0x80) (k : Nat) :
    (before ++ encode (a :: cs))[before.length + (k + 1)]? = (encode cs)[k]? := by
  rw [List.getElem?_append_right (Nat.le_add_right _ _), Nat.add_sub_cancel_left,
    getElem?_encode_succ ha]

/-- Two short characters stand at the beginning of a text just when their bytes do. -/
theorem getElem?_encode_pair_iff (ha : a.toNat < 0x80) (hb : b.toNat < 0x80) :
    (encode cs)[0]? = some a.toUInt8 ∧ (encode cs)[1]? = some b.toUInt8 ↔ [a, b] <+: cs := by
  constructor
  · rintro ⟨hfirst, hsecond⟩
    obtain ⟨cs, rfl⟩ := List.head?_eq_some_iff.1 ((getElem?_encode_eq_some_iff ha).1 hfirst)
    rw [getElem?_encode_succ ha] at hsecond
    obtain ⟨r, rfl⟩ := List.head?_eq_some_iff.1 ((getElem?_encode_eq_some_iff hb).1 hsecond)
    exact ⟨r, rfl⟩
  · rintro ⟨r, rfl⟩
    refine ⟨(getElem?_encode_eq_some_iff ha).2 rfl, ?_⟩
    rw [List.cons_append, getElem?_encode_succ ha]
    exact (getElem?_encode_eq_some_iff hb).2 rfl

end

end EditionCheck.Text.Utf8

namespace EditionCheck.Scan

open EditionCheck.Text Utf8

section

variable {σ α : Type} {turn : σ → Turn σ α} {s s' : σ} {result : α} {k : Nat}

/-! ## Loops that return -/

/-- A loop returns a result within a number of turns, and sticks to it. -/
def ReturnsWithin (turn : σ → Turn σ α) (bound : Nat) (s : σ) (result : α) : Prop :=
  ∀ n, bound ≤ n → turns turn n s = .done result

theorem ReturnsWithin.mono {m : Nat} (h : ReturnsWithin turn m s result) (hmk : m ≤ k) :
    ReturnsWithin turn k s result :=
  fun n hn => h n (Nat.le_trans hmk hn)

theorem ReturnsWithin.of_done (h : turn s = .done result) : ReturnsWithin turn (k + 1) s result := by
  intro n hn
  obtain ⟨n, rfl⟩ := Nat.exists_eq_add_of_le' (Nat.le_of_add_left_le hn)
  rw [turns, h]

theorem ReturnsWithin.of_next (h : turn s = .next s') (hs : ReturnsWithin turn k s' result) :
    ReturnsWithin turn (k + 1) s result := by
  intro n hn
  obtain ⟨n, rfl⟩ := Nat.exists_eq_add_of_le' (Nat.le_of_add_left_le hn)
  rw [turns, h]
  exact hs n (Nat.le_of_succ_le_succ hn)

theorem turns_eq_torn_of_le {m n : Nat} (h : turns turn m s = .torn) (hmn : m ≤ n) :
    turns turn n s = .torn := by
  induction m generalizing s n with
  | zero => cases h
  | succ m ih =>
    obtain ⟨n, rfl⟩ := Nat.exists_eq_add_of_le' (Nat.le_of_add_left_le hmn)
    rw [turns] at h ⊢
    split at h
    · exact ih h (Nat.le_of_succ_le_succ hmn)
    · exact h

/-- A loop that returns has never cut a text inside of a character. -/
theorem ReturnsWithin.ne_torn (h : ReturnsWithin turn k s result) (n : Nat) : turns turn n s ≠ .torn := by
  intro htorn
  have hlong := turns_eq_torn_of_le htorn (Nat.le_max_left n k)
  rw [h _ (Nat.le_max_right n k)] at hlong
  cases hlong

end

/-! ## Passing characters -/

/-- A loop passes the bytes of a text one by one, but for those of a few short characters. The state
depends on a position. -/
structure Passes {σ α : Type} (turn : σ → Turn σ α) (state : Nat → σ) (bytes : List UInt8)
    (special : List Char) : Prop where
  short : ∀ a ∈ special, a.toNat < 0x80
  next {i : Nat} {b : UInt8} : bytes[i]? = some b → (∀ a ∈ special, b ≠ a.toUInt8) →
    turn (state i) = .next (state (i + 1))

namespace Passes

variable {σ α : Type} {turn : σ → Turn σ α} {state : Nat → σ} {bytes after : List UInt8}
  {special : List Char} {result : α} {k : Nat}

/-- Behind some bytes that are passed, the loop stands after as many turns. -/
theorem row (h : Passes turn state bytes special) (plain : List UInt8)
    (hplain : ∀ a ∈ special, a.toUInt8 ∉ plain) (before : List UInt8)
    (hbytes : bytes = before ++ (plain ++ after))
    (hbehind : ReturnsWithin turn k (state (before.length + plain.length)) result) :
    ReturnsWithin turn (plain.length + k) (state before.length) result := by
  induction plain generalizing before with
  | nil => rwa [List.length_nil, Nat.zero_add]
  | cons b plain ih =>
    have hb : bytes[before.length]? = some b := by
      rw [hbytes, List.getElem?_append_right (Nat.le_refl _), Nat.sub_self]
      rfl
    have hturn := h.next hb fun a ha heq => hplain a ha (heq ▸ List.mem_cons_self)
    have hlength : (before ++ [b]).length = before.length + 1 := List.length_append
    have hrest : ReturnsWithin turn (plain.length + k) (state (before ++ [b]).length) result := by
      apply ih (fun a ha hmem => hplain a ha (List.mem_cons_of_mem _ hmem))
      · rw [hbytes, List.append_assoc, List.cons_append, List.singleton_append]
      · rwa [hlength, Nat.add_assoc, Nat.add_comm 1]
    rw [hlength] at hrest
    rw [List.length_cons, Nat.add_right_comm]
    exact .of_next hturn hrest

/-- Any character that is not special is passed as a whole. -/
theorem char (h : Passes turn state bytes special) {c : Char} (hc : c ∉ special) {before : List UInt8}
    (hbytes : bytes = before ++ (encodeChar c ++ after))
    (hbehind : ReturnsWithin turn k (state (before ++ encodeChar c).length) result) :
    ReturnsWithin turn (c.utf8Size + k) (state before.length) result := by
  rw [← length_encodeChar]
  rw [List.length_append] at hbehind
  refine h.row (encodeChar c) (fun a ha hmem => ?_) before hbytes hbehind
  exact hc ((toUInt8_mem_encodeChar (h.short a ha)).1 hmem ▸ ha)

/-- A backslash and the first byte of the character behind it are skipped in one turn. No byte in the
rest of that character is special, whether the character is or not. -/
theorem escaped (h : Passes turn state bytes special) {c : Char} {before : List UInt8}
    (hbytes : bytes = before ++ (encode ['\\', c] ++ after))
    (hturn : turn (state before.length) = .next (state (before.length + 2)))
    (hbehind : ReturnsWithin turn k (state (before ++ encode ['\\', c]).length) result) :
    ReturnsWithin turn (c.utf8Size + k) (state before.length) result := by
  obtain ⟨b, more, hc, hmore⟩ := exists_encodeChar c
  have hencode : encode ['\\', c] = '\\'.toUInt8 :: b :: more := by
    rw [encode_cons, encodeChar_ascii (by decide), encode_cons, hc, encode_nil, List.append_nil]
    rfl
  rw [hencode] at hbytes hbehind
  have hskipped : (before ++ ['\\'.toUInt8, b]).length = before.length + 2 := List.length_append
  have hposition : (before ++ '\\'.toUInt8 :: b :: more).length = before.length + 2 + more.length := by
    simp only [List.length_append, List.length_cons]
    omega
  have hrest :
      ReturnsWithin turn (more.length + k) (state (before ++ ['\\'.toUInt8, b]).length) result := by
    have hsplit : bytes = (before ++ ['\\'.toUInt8, b]) ++ (more ++ after) := by
      rw [hbytes, List.append_assoc]
      rfl
    refine h.row more (fun a ha => hmore a (h.short a ha)) _ hsplit ?_
    rwa [hskipped, ← hposition]
  rw [hskipped] at hrest
  rw [← length_encodeChar, hc, List.length_cons, Nat.add_right_comm]
  exact .of_next hturn hrest

end Passes

end EditionCheck.Scan
