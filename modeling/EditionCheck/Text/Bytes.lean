import EditionCheck.Text.Span
import EditionCheck.Text.Utf8

/-!
# Characters among bytes

What the bytes of a text say about its characters at a place, and where a text can be cut.

* `toUInt8_mem_encodeChar` — a byte below 0x80 spells the character with its number, and is no part of
  any other;
* `toUInt8_mem_encode`, `toUInt8_mem_of_mem_lossy` — so a text has it where its bytes have the byte;
* `getElem?_encode_eq_some_iff` — and such a character stands at the beginning of a text just when its
  byte does;
* `sliceFrom?_eq_some_iff` — a text is cut between two characters, and nowhere else.
-/

set_option autoImplicit false

namespace EditionCheck.Text

namespace Utf8

variable {a b c : Char} {cs : List Char}

/-! ## Bytes of a character -/

/-- The bytes of a character are the ones that the language gives it. -/
theorem encodeChar_eq_utf8EncodeChar (c : Char) : encodeChar c = String.utf8EncodeChar c := by
  have hv : c.val.toNat = c.toNat := rfl
  have hr := toNat_ranges c
  simp only [encodeChar, String.utf8EncodeChar, hv]
  by_cases h₁ : c.toNat < 0x80
  · rw [if_pos h₁, if_pos (Nat.le_of_lt_succ h₁)]
  rw [if_neg h₁, if_neg (show ¬ c.toNat ≤ 0x7F by omega), Nat.add_comm 0x80, Nat.add_comm 0x80,
    Nat.add_comm 0x80]
  by_cases h₂ : c.toNat < 0x800
  · rw [if_pos h₂, if_pos (Nat.le_of_lt_succ h₂),
      show c.toNat / 64 % 32 + 0xC0 = 0xC0 + c.toNat / 64 by omega]
  rw [if_neg h₂, if_neg (show ¬ c.toNat ≤ 0x7FF by omega)]
  by_cases h₃ : c.toNat < 0x10000
  · rw [if_pos h₃, if_pos (Nat.le_of_lt_succ h₃),
      show c.toNat / 4096 % 16 + 0xE0 = 0xE0 + c.toNat / 4096 by omega]
  rw [if_neg h₃, if_neg (show ¬ c.toNat ≤ 0xFFFF by omega),
    show c.toNat / 262144 % 8 + 0xF0 = 0xF0 + c.toNat / 262144 by omega]

theorem length_encodeChar (c : Char) : (encodeChar c).length = c.utf8Size := by
  rw [encodeChar_eq_utf8EncodeChar, String.length_utf8EncodeChar]

theorem encodeChar_ascii (h : c.toNat < 0x80) : encodeChar c = [c.toUInt8] := by
  simp only [encodeChar]
  rw [if_pos h]
  rfl

theorem toNat_toUInt8 (h : c.toNat < 0x80) : c.toUInt8.toNat = c.toNat :=
  show (UInt8.ofNat c.toNat).toNat = c.toNat from toNat_ofNat_of_lt (by omega)

/-- All bytes of a longer character are above those that spell a character by themselves. -/
theorem le_of_mem_encodeChar {byte : UInt8} (h : 0x80 ≤ c.toNat) (hbyte : byte ∈ encodeChar c) :
    0x80 ≤ byte.toNat := by
  have hr := toNat_ranges c
  have high {n : Nat} (hn : 0x80 ≤ n) (hn' : n < 256) (hbyte : byte = UInt8.ofNat n) :
      0x80 ≤ byte.toNat := by
    rwa [hbyte, toNat_ofNat_of_lt hn']
  simp only [encodeChar] at hbyte
  rw [if_neg (by omega)] at hbyte
  repeat' split at hbyte
  all_goals simp only [List.mem_cons, List.not_mem_nil, or_false] at hbyte
  · rcases hbyte with hbyte | hbyte <;> exact high (by omega) (by omega) hbyte
  · rcases hbyte with hbyte | hbyte | hbyte <;> exact high (by omega) (by omega) hbyte
  · rcases hbyte with hbyte | hbyte | hbyte | hbyte <;> exact high (by omega) (by omega) hbyte

/-- **A byte below 0x80 stands for its own character only.** -/
theorem toUInt8_mem_encodeChar (ha : a.toNat < 0x80) : a.toUInt8 ∈ encodeChar c ↔ c = a := by
  constructor
  · intro h
    by_cases hc : c.toNat < 0x80
    · rw [encodeChar_ascii hc, List.mem_singleton] at h
      have hnat := congrArg UInt8.toNat h
      rw [toNat_toUInt8 ha, toNat_toUInt8 hc] at hnat
      rw [← Char.ofNat_toNat c, ← hnat, Char.ofNat_toNat]
    · have hle := le_of_mem_encodeChar (by omega) h
      rw [toNat_toUInt8 ha] at hle
      omega
  · rintro rfl
    rw [encodeChar_ascii ha]
    exact List.mem_singleton_self _

/-- A character has a first byte, and those behind it stand for no character of their own. -/
theorem exists_encodeChar (c : Char) :
    ∃ byte more, encodeChar c = byte :: more ∧ ∀ a : Char, a.toNat < 0x80 → a.toUInt8 ∉ more := by
  obtain ⟨byte, more, h⟩ : ∃ byte more, encodeChar c = byte :: more := by
    refine List.exists_cons_of_length_pos ?_
    rw [length_encodeChar]
    exact c.utf8Size_pos
  refine ⟨byte, more, h, fun a ha hmem => ?_⟩
  have hc : c = a := (toUInt8_mem_encodeChar ha).1 (h ▸ List.mem_cons_of_mem _ hmem)
  rw [hc, encodeChar_ascii ha] at h
  rw [← (List.cons.inj h).2] at hmem
  exact List.not_mem_nil hmem

/-! ## Bytes of a text -/

@[simp] theorem encode_nil : encode [] = [] := rfl

@[simp] theorem encode_cons (c : Char) (cs : List Char) :
    encode (c :: cs) = encodeChar c ++ encode cs := rfl

theorem encode_append (cs ds : List Char) : encode (cs ++ ds) = encode cs ++ encode ds :=
  List.flatMap_append

/-- A character that is read from bytes, broken pieces or not, has its own byte among them if it has one. -/
theorem toUInt8_mem_of_mem_lossy (ha : a.toNat < 0x80) {bytes : List UInt8} (h : a ∈ lossy bytes) :
    a.toUInt8 ∈ bytes := by
  obtain ⟨u, hu, hread⟩ := List.mem_map.1 h
  have hsome : u = some a := by
    cases u with
    | none =>
      rw [← hread] at ha
      exact absurd ha (by decide)
    | some c => exact congrArg some hread
  subst hsome
  clear h hread
  fun_induction units bytes with
  | case1 => cases hu
  | case2 b rest ih =>
    rcases List.mem_cons.1 hu with hfirst | hlater
    · have hbytes := eq_encodeChar_of_first (Prod.ext hfirst.symm rfl : first b rest = (some a, _))
      rw [hbytes]
      exact List.mem_append_left _ ((toUInt8_mem_encodeChar ha).2 rfl)
    · exact List.mem_cons_of_mem b ((suffix_first b rest).subset (ih hlater))

/-- A byte below 0x80 is among the bytes of a text just when its character is in the text. -/
theorem toUInt8_mem_encode (ha : a.toNat < 0x80) : a.toUInt8 ∈ encode cs ↔ a ∈ cs := by
  simp only [encode, List.mem_flatMap, toUInt8_mem_encodeChar ha, exists_eq_right]

theorem length_encode (cs : List Char) : (encode cs).length = byteLength cs := by
  induction cs with
  | nil => rfl
  | cons c cs ih => rw [encode_cons, List.length_append, length_encodeChar, byteLength_cons, ih]

/-- A text begins with a character below 0x80 just when its bytes begin with that of it. -/
theorem getElem?_encode_eq_some_iff (ha : a.toNat < 0x80) :
    (encode cs)[0]? = some a.toUInt8 ↔ cs.head? = some a := by
  cases cs with
  | nil => simp
  | cons c cs =>
    obtain ⟨byte, more, hc, -⟩ := exists_encodeChar c
    have hfirst : (encode (c :: cs))[0]? = some byte := by rw [encode_cons, hc]; rfl
    rw [hfirst, List.head?_cons, Option.some_inj, Option.some_inj]
    constructor
    · intro h
      apply (toUInt8_mem_encodeChar ha).1
      rw [hc, h]
      exact List.mem_cons_self
    · rintro rfl
      rw [encodeChar_ascii ha] at hc
      exact (List.cons.inj hc).1.symm

/-- The bytes behind a character below 0x80. -/
theorem getElem?_encode_succ (ha : a.toNat < 0x80) (cs : List Char) (k : Nat) :
    (encode (a :: cs))[k + 1]? = (encode cs)[k]? := by
  rw [encode_cons, encodeChar_ascii ha]
  rfl

end Utf8

/-! ## Cutting a text -/

/-- The text from a byte on, if a character begins there or the text ends there. -/
def sliceFrom? : List Char → Nat → Option (List Char)
  | cs, 0 => some cs
  | [], _ + 1 => none
  | c :: cs, n + 1 => if c.utf8Size ≤ n + 1 then sliceFrom? cs (n + 1 - c.utf8Size) else none

/-- **A text can be cut just between its characters.** -/
theorem sliceFrom?_eq_some_iff {cs rest : List Char} {n : Nat} :
    sliceFrom? cs n = some rest ↔ ∃ front, cs = front ++ rest ∧ n = byteLength front := by
  fun_induction sliceFrom? cs n with
  | case1 cs =>
    constructor
    · intro h
      exact ⟨[], Option.some.inj h, rfl⟩
    · rintro ⟨front, rfl, h⟩
      cases front with
      | nil => rfl
      | cons c front =>
        have hpos := byteLength_pos (List.cons_ne_nil c front)
        omega
  | case2 n =>
    refine ⟨nofun, ?_⟩
    rintro ⟨front, h, hn⟩
    rw [(List.nil_eq_append_iff.1 h).1] at hn
    cases hn
  | case3 c cs n hle ih =>
    rw [ih]
    constructor
    · rintro ⟨front, rfl, h⟩
      exact ⟨c :: front, rfl, by rw [byteLength_cons, ← h, Nat.add_sub_cancel' hle]⟩
    · rintro ⟨front, h, hn⟩
      cases front with
      | nil => cases hn
      | cons d front =>
        cases h
        rw [byteLength_cons] at hn
        exact ⟨front, rfl, by omega⟩
  | case4 c cs n hlt =>
    refine ⟨nofun, ?_⟩
    rintro ⟨front, h, hn⟩
    cases front with
    | nil => cases hn
    | cons d front =>
      cases h
      rw [byteLength_cons] at hn
      omega

/-- The first bytes of a text, if a character begins behind them or the text ends there. -/
def sliceTo? (cs : List Char) (n : Nat) : Option (List Char) :=
  (sliceFrom? cs n).map fun _ => takeBytes n cs

end EditionCheck.Text
