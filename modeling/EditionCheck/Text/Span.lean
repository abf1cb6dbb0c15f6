/-!
# Spans

A span is a stretch of a text between two offsets, which count UTF-8 bytes. `Span.slice` takes the
characters that a span covers.

Main statements: `slice_append` — the span of a middle part cuts out that part —,
`byteLength_append`.
-/

set_option autoImplicit false

namespace EditionCheck.Text

/-- The number of bytes of a text in UTF-8. -/
def byteLength : List Char → Nat
  | [] => 0
  | c :: cs => c.utf8Size + byteLength cs

@[simp] theorem byteLength_nil : byteLength [] = 0 := rfl

@[simp] theorem byteLength_cons (c : Char) (cs : List Char) :
    byteLength (c :: cs) = c.utf8Size + byteLength cs := rfl

theorem byteLength_append (a b : List Char) :
    byteLength (a ++ b) = byteLength a + byteLength b := by
  induction a with
  | nil => simp
  | cons c a ih => simp [ih, Nat.add_assoc]

theorem byteLength_pos {cs : List Char} (h : cs ≠ []) : 0 < byteLength cs := by
  cases cs with
  | nil => exact absurd rfl h
  | cons c cs =>
    have hc := c.utf8Size_pos
    rw [byteLength_cons]
    omega

/-- The text from byte `n` on. -/
def dropBytes : Nat → List Char → List Char
  | _, [] => []
  | n, c :: cs => if n = 0 then c :: cs else dropBytes (n - c.utf8Size) cs

/-- The first `n` bytes of a text. -/
def takeBytes : Nat → List Char → List Char
  | _, [] => []
  | n, c :: cs => if n = 0 then [] else c :: takeBytes (n - c.utf8Size) cs

theorem dropBytes_zero (cs : List Char) : dropBytes 0 cs = cs := by
  cases cs <;> simp [dropBytes]

theorem takeBytes_zero (cs : List Char) : takeBytes 0 cs = [] := by
  cases cs <;> simp [takeBytes]

theorem dropBytes_append (a b : List Char) : dropBytes (byteLength a) (a ++ b) = b := by
  induction a with
  | nil => simp [dropBytes_zero]
  | cons c a ih =>
    have h : c.utf8Size ≠ 0 := by have := c.utf8Size_pos; omega
    simp [dropBytes, h, ih]

theorem takeBytes_append (a b : List Char) : takeBytes (byteLength a) (a ++ b) = a := by
  induction a with
  | nil => simp [takeBytes_zero]
  | cons c a ih =>
    have h : c.utf8Size ≠ 0 := by have := c.utf8Size_pos; omega
    simp [takeBytes, h, ih]

theorem takeBytes_append_dropBytes (n : Nat) (cs : List Char) :
    takeBytes n cs ++ dropBytes n cs = cs := by
  induction cs generalizing n with
  | nil => rfl
  | cons c cs ih =>
    simp only [takeBytes, dropBytes]
    split
    · rfl
    · rw [List.cons_append, ih]

/-- Two beginnings of a text with the same number of bytes are equal. -/
theorem eq_of_byteLength_eq {a b c d : List Char} (h : a ++ b = c ++ d)
    (hlength : byteLength a = byteLength c) : a = c := by
  rw [← takeBytes_append a b, h, hlength, takeBytes_append]

/-- Taking more bytes than a text begins with takes its beginning, and then the rest of them. -/
theorem takeBytes_append_of_le {a : List Char} {n : Nat} (h : byteLength a ≤ n) (b : List Char) :
    takeBytes n (a ++ b) = a ++ takeBytes (n - byteLength a) b := by
  induction a generalizing n with
  | nil => rfl
  | cons c a ih =>
    have hc := c.utf8Size_pos
    have hn : n ≠ 0 := by
      rw [byteLength_cons] at h
      omega
    rw [byteLength_cons] at h ⊢
    rw [List.cons_append, takeBytes, if_neg hn, ih (by omega), List.cons_append, Nat.sub_sub]

/-- A stretch of a text: the offset of its first byte and the offset behind its last one. -/
structure Span where
  start : Nat
  stop : Nat
  deriving DecidableEq, Repr, Inhabited

namespace Span

/-- The characters that a span covers. -/
def slice (text : List Char) (s : Span) : List Char :=
  takeBytes (s.stop - s.start) (dropBytes s.start text)

theorem slice_append (a b c : List Char) :
    slice (a ++ (b ++ c)) ⟨byteLength a, byteLength a + byteLength b⟩ = b := by
  simp [slice, dropBytes_append, takeBytes_append]

/-- The span from the start of one span to the end of another. -/
def through (a b : Span) : Span := ⟨a.start, b.stop⟩

end Span

end EditionCheck.Text
