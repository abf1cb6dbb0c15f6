import EditionCheck.Proofs.ByteLoops
import EditionCheck.Proofs.CodePoints

/-!
# The search for code point escapes

The loop over the bytes of a name or string that looks for an escape of the form `\u{...}`, and what it
decides.

* `returnsWithin_codePointTurn` — from the beginning of any character on, the loop decides what
  `spellsCodePoint` decides of the rest;
* `writesCodePoint_iff_run` — a text has such an escape just when an odd run of backslashes stands in
  front of `u{`;
* `code_point_loop_parity` — so this is what the loop decides, for every text.
-/

set_option autoImplicit false

namespace EditionCheck.Scan

open EditionCheck.Text Utf8

/-! ## Turns of the loop -/

section

variable {bytes before : List UInt8} {r : List Char}

theorem codePointTurn_end {i : Nat} (h : bytes.length ≤ i) : codePointTurn bytes i = .done false := by
  rw [codePointTurn, List.getElem?_eq_none h]

theorem passes_codePointTurn (bytes : List UInt8) : Passes (codePointTurn bytes) id bytes ['\\'] where
  short a ha := by
    rw [List.mem_singleton.1 ha]
    decide
  next {i b} hb hplain := by
    rw [codePointTurn, id, hb]
    exact if_neg (hplain '\\' List.mem_cons_self)

/-- At a backslash, the loop returns if `u{` follows, and skips two bytes otherwise. -/
theorem codePointTurn_backslash :
    codePointTurn (before ++ encode ('\\' :: r)) before.length
      = if ['u', '{'] <+: r then .done true else .next (before.length + 2) := by
  rw [codePointTurn, getElem?_behind (by decide)]
  show (if _ ∧ _ then _ else _ : Turn Nat Bool) = _
  rw [getElem?_behind_succ (by decide) 0, getElem?_behind_succ (by decide) 1]
  simp only [getElem?_encode_pair_iff (a := 'u') (b := '{') (by decide) (by decide)]

end

/-! ## What the loop decides -/

/-- **The loop follows the characters**: where one begins, what is decided is what `spellsCodePoint`
decides of the rest. -/
theorem returnsWithin_codePointTurn (before : List UInt8) (rest : List Char) :
    ReturnsWithin (codePointTurn (before ++ encode rest)) (byteLength rest + 1) before.length
      (spellsCodePoint rest) := by
  fun_induction spellsCodePoint rest generalizing before with
  | case1 =>
    exact .of_done (codePointTurn_end (by simp))
  | case2 back =>
    exact .of_done (codePointTurn_backslash.trans (if_pos ⟨back, rfl⟩))
  | case3 c r hopens ih =>
    have hturn : codePointTurn (before ++ encode ('\\' :: c :: r)) before.length
        = .next (before.length + 2) := by
      rw [codePointTurn_backslash, if_neg]
      rintro ⟨back, h⟩
      cases h
      exact hopens back rfl rfl
    have hbytes : before ++ encode ('\\' :: c :: r) = before ++ (encode ['\\', c] ++ encode r) := by
      rw [← encode_append]
      rfl
    have hrest := ih (before ++ encode ['\\', c])
    rw [List.append_assoc, ← hbytes] at hrest
    refine ((passes_codePointTurn _).escaped hbytes hturn hrest).mono ?_
    simp only [byteLength_cons]
    omega
  | case4 c r hopens hescapes ih =>
    by_cases hc : c = '\\'
    · subst hc
      cases r with
      | nil =>
        have hturn : codePointTurn (before ++ encode ['\\']) before.length = .next (before.length + 2) := by
          rw [codePointTurn_backslash, if_neg (by simp)]
        refine .of_next hturn (.of_done (k := 0) (codePointTurn_end ?_))
        rw [List.length_append]
        exact Nat.add_le_add_left (by decide) _
      | cons d r => exact (hescapes d r rfl rfl).elim
    · have hrest := ih (before ++ encodeChar c)
      rw [List.append_assoc] at hrest
      rw [byteLength_cons, Nat.add_assoc]
      exact (passes_codePointTurn _).char (by simpa using hc) rfl hrest

/-! ## Runs of backslashes -/

theorem trailingBackslashes_eq_zero {cs : List Char} (h : cs.getLast? ≠ some '\\') :
    trailingBackslashes cs = 0 := by
  rw [← List.head?_reverse] at h
  rw [trailingBackslashes]
  cases hback : cs.reverse with
  | nil => rfl
  | cons c back =>
    rw [hback, List.head?_cons] at h
    have hc : c ≠ '\\' := fun hc => h (congrArg some hc)
    rw [List.takeWhile_cons_of_neg (by simpa using hc), List.length_nil]

/-- A run of backslashes behind something else is as long as it is. -/
theorem trailingBackslashes_run {front : List Char} (hfront : front.getLast? ≠ some '\\') (n : Nat) :
    trailingBackslashes (front ++ List.replicate n '\\') = n := by
  have hrun : trailingBackslashes (List.replicate n '\\') = (List.replicate n '\\').length := by
    simp [trailingBackslashes]
  rw [trailingBackslashes_append, if_pos hrun, trailingBackslashes_eq_zero hfront,
    List.length_replicate, Nat.add_zero]

/-- Every text ends with a run of backslashes, which may be empty. -/
theorem exists_run (cs : List Char) :
    ∃ front, cs = front ++ List.replicate (trailingBackslashes cs) '\\'
      ∧ front.getLast? ≠ some '\\' := by
  have hrun : cs.reverse.takeWhile (· == '\\') = List.replicate (trailingBackslashes cs) '\\' := by
    refine List.eq_replicate_iff.2 ⟨rfl, fun c hc => ?_⟩
    have hall := List.all_eq_true.1 List.all_takeWhile c hc
    exact beq_iff_eq.1 hall
  refine ⟨(cs.reverse.dropWhile (· == '\\')).reverse, ?_, ?_⟩
  · calc cs = (cs.reverse.takeWhile (· == '\\') ++ cs.reverse.dropWhile (· == '\\')).reverse := by
          rw [List.takeWhile_append_dropWhile, List.reverse_reverse]
      _ = _ := by rw [List.reverse_append, hrun, List.reverse_replicate]
  · rw [List.getLast?_reverse]
    intro h
    have hstops := List.head?_dropWhile_not (· == '\\') cs.reverse
    rw [h] at hstops
    cases hstops

/-- **An escape is an odd run of backslashes in front of `u{`.** -/
theorem writesCodePoint_iff_run {raw : List Char} :
    WritesCodePoint raw
      ↔ ∃ front n back, raw = front ++ (List.replicate n '\\' ++ 'u' :: '{' :: back)
          ∧ front.getLast? ≠ some '\\' ∧ n % 2 = 1 := by
  constructor
  · rintro ⟨front, back, rfl, heven⟩
    obtain ⟨front', hfront, hlast⟩ := exists_run front
    generalize trailingBackslashes front = n at heven hfront
    refine ⟨front', n + 1, back, ?_, hlast, by omega⟩
    rw [hfront, List.replicate_succ', List.append_assoc, List.append_assoc]
    rfl
  · rintro ⟨front, n, back, rfl, hlast, hodd⟩
    obtain ⟨n, rfl⟩ := Nat.exists_eq_add_one_of_ne_zero (show n ≠ 0 by omega)
    refine ⟨front ++ List.replicate n '\\', back, ?_, ?_⟩
    · rw [List.replicate_succ', List.append_assoc, List.append_assoc]
      rfl
    · rw [trailingBackslashes_run hlast]
      omega

/-- **The search for code point escapes decides by the parity of backslashes.** For every text, the loop
over its bytes returns after as many turns as there are bytes, and one more. What it returns is what
`spellsCodePoint` says of the characters: whether somewhere in the text a whole run of backslashes, an odd
number of them, stands in front of `u{`. -/
theorem code_point_loop_parity (raw : List Char) :
    ReturnsWithin (codePointTurn (encode raw)) (byteLength raw + 1) 0 (spellsCodePoint raw)
      ∧ (spellsCodePoint raw
          ↔ ∃ front n back, raw = front ++ (List.replicate n '\\' ++ 'u' :: '{' :: back)
              ∧ front.getLast? ≠ some '\\' ∧ n % 2 = 1) :=
  ⟨returnsWithin_codePointTurn [] raw, (spellsCodePoint_iff raw).trans writesCodePoint_iff_run⟩

/-- Behind a backslash, a long character is entered at its second byte. -/
example : turns (codePointTurn (encode "\\é\\\\\\u\x7b".toList)) 9 0 = .done true := by decide

end EditionCheck.Scan
