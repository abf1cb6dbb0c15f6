import EditionCheck.Proofs.ByteLoops
import EditionCheck.Proofs.PatternParts

/-!
# The search for newer syntax in patterns

The loop over the bytes of a regular expression's body that looks for syntax of ES2018, and what it finds.

* `patternParts` — the body as a row of escapes, character classes and single characters;
  `isWhole_of_patternParts` — none of them ends too early or too late;
* `bodyFeature_eq_firstFeature` — reading the body for newer syntax finds the feature of the first part
  that has one;
* `returnsWithin_patternTurn` — from the beginning of any character on, in a class or not, the loop finds
  what `bodyFeature` finds in the rest;
* `pattern_loop_parts` — so it finds the feature of the first part that has one, in every body.
-/

set_option autoImplicit false

namespace EditionCheck.Scan

open EditionCheck.Text Utf8

/-! ## Parts -/

/-- A part of a pattern: a backslash with the character behind it, if there is one; an opening bracket
with all that stands in the class; or a single character. -/
inductive PatternPart where
  | escape (escaped : Option Char)
  | charClass (inside : List Char)
  | single (c : Char)
  deriving DecidableEq, Repr

/-- How a part is written. -/
def PatternPart.text : PatternPart → List Char
  | escape escaped => '\\' :: escaped.toList
  | charClass inside => '[' :: inside
  | single c => [c]

/-- What stands in a class, with the bracket that closes it: the first one that is not escaped. A class
that is not closed goes on to the end. -/
def insideClass : List Char → List Char
  | [] => []
  | '\\' :: c :: r => '\\' :: c :: insideClass r
  | ']' :: _ => [']']
  | c :: r => c :: insideClass r

/-- What stands behind a class. -/
def behindClass : List Char → List Char
  | [] => []
  | '\\' :: _ :: r => behindClass r
  | ']' :: r => r
  | _ :: r => behindClass r

theorem behindClass_plain {c : Char} {r : List Char}
    (hescape : ∀ d r', c = '\\' → r = d :: r' → False) (hclose : c ≠ ']') :
    behindClass (c :: r) = behindClass r := by
  rw [behindClass]
  · exact hescape
  · exact hclose

theorem insideClass_append_behindClass (cs : List Char) : insideClass cs ++ behindClass cs = cs := by
  fun_induction insideClass cs with
  | case1 => rfl
  | case2 c r ih => exact congrArg ('\\' :: c :: ·) ih
  | case3 => rfl
  | case4 c r hescape hclose ih => rw [behindClass_plain hescape hclose, List.cons_append, ih]

theorem length_behindClass_le (cs : List Char) : (behindClass cs).length ≤ cs.length := by
  have hlength := congrArg List.length (insideClass_append_behindClass cs)
  rw [List.length_append] at hlength
  omega

/-- The parts of a pattern, from left to right. -/
def patternParts : List Char → List PatternPart
  | [] => []
  | ['\\'] => [.escape none]
  | '\\' :: c :: r => .escape (some c) :: patternParts r
  | '[' :: r => .charClass (insideClass r) :: patternParts (behindClass r)
  | c :: r => .single c :: patternParts r
termination_by cs => cs.length
decreasing_by
  · exact Nat.lt_succ_of_lt (Nat.lt_succ_self _)
  · exact Nat.lt_succ_of_le (length_behindClass_le r)
  · exact Nat.lt_succ_self _

/-- How a row of parts is written. -/
def patternText (parts : List PatternPart) : List Char := parts.flatMap PatternPart.text

theorem patternText_patternParts (cs : List Char) : patternText (patternParts cs) = cs := by
  fun_induction patternParts cs with
  | case1 => rfl
  | case2 => rfl
  | case3 c r ih => exact congrArg ('\\' :: c :: ·) ih
  | case4 r ih =>
    show '[' :: (insideClass r ++ patternText (patternParts (behindClass r))) = _
    rw [ih, insideClass_append_behindClass]
  | case5 c r _ _ _ ih => exact congrArg (c :: ·) ih

/-- A class is closed by the first bracket in it that is not escaped, or goes on to the end. -/
theorem insideClass_cases (cs : List Char) :
    (∃ inner, ClassInside inner ∧ insideClass cs = inner ++ [']'])
      ∨ behindClass cs = [] ∧ ∀ inner rest, ClassInside inner → cs ≠ inner ++ ']' :: rest := by
  fun_induction insideClass cs with
  | case1 =>
    refine .inr ⟨rfl, fun inner rest _ h => ?_⟩
    cases inner <;> cases h
  | case2 c r ih =>
    rcases ih with ⟨inner, hinner, hinside⟩ | ⟨hbehind, hopen⟩
    · exact .inl ⟨'\\' :: c :: inner, .escape c hinner, by rw [hinside]; rfl⟩
    · refine .inr ⟨hbehind, fun inner rest hinner h => ?_⟩
      cases hinner with
      | nil => cases h
      | escape d hinner =>
        cases h
        exact hopen _ rest hinner rfl
      | plain hd => exact hd (List.cons.inj h).1.symm
  | case3 r => exact .inl ⟨[], .nil, rfl⟩
  | case4 c r hescape hclose ih =>
    rcases ih with ⟨inner, hinner, hinside⟩ | ⟨hbehind, hopen⟩
    · have hplain : c ≠ '\\' := by
        rintro rfl
        cases r with
        | nil => cases inner <;> cases hinside
        | cons d r => exact hescape d r rfl rfl
      exact .inl ⟨c :: inner, .plain hplain hclose hinner, by rw [hinside]; rfl⟩
    · refine .inr ⟨by rwa [behindClass_plain hescape hclose], fun inner rest hinner h => ?_⟩
      cases hinner with
      | nil =>
        cases h
        exact hclose rfl
      | escape d hinner =>
        cases h
        exact hescape d _ rfl rfl
      | plain _ _ hinner =>
        cases h
        exact hopen _ rest hinner rfl

/-- What makes a part whole in front of others. Only the last one can be a lone backslash or a class that
is not closed. -/
def PatternPart.IsWhole (behind : List PatternPart) : PatternPart → Prop
  | escape escaped => escaped = none → behind = []
  | charClass inside =>
    (∃ inner, ClassInside inner ∧ inside = inner ++ [']'])
      ∨ behind = [] ∧ ∀ inner rest, ClassInside inner → inside ≠ inner ++ ']' :: rest
  | single c => c ≠ '\\' ∧ c ≠ '['

/-- All parts of a pattern are whole. -/
theorem isWhole_of_patternParts {cs : List Char} {front back : List PatternPart} {part : PatternPart}
    (h : patternParts cs = front ++ part :: back) : part.IsWhole back := by
  fun_induction patternParts cs generalizing front with
  | case1 => cases front <;> cases h
  | case2 =>
    cases front with
    | nil =>
      cases h
      exact fun _ => rfl
    | cons _ front => cases front <;> cases h
  | case3 c r ih =>
    cases front with
    | nil =>
      cases h
      exact nofun
    | cons _ front => exact ih (List.cons.inj h).2
  | case4 r ih =>
    cases front with
    | nil =>
      cases h
      rcases insideClass_cases r with hclosed | ⟨hbehind, hopen⟩
      · exact .inl hclosed
      · have hinside := insideClass_append_behindClass r
        rw [hbehind, List.append_nil] at hinside
        rw [hbehind, hinside]
        exact .inr ⟨by rw [patternParts], hopen⟩
    | cons _ front => exact ih (List.cons.inj h).2
  | case5 c r hlone hescape hopen ih =>
    cases front with
    | nil =>
      cases h
      refine ⟨?_, hopen⟩
      rintro rfl
      cases r with
      | nil => exact hlone rfl rfl
      | cons d r => exact hescape d r rfl rfl
    | cons _ front => exact ih (List.cons.inj h).2

/-! ## Features of parts -/

/-- The feature of a part that stands in front of a given text. A class has none. -/
def PatternPart.feature (behind : List Char) : PatternPart → Option Feature
  | escape (some c) =>
    if (c = 'p' ∨ c = 'P') ∧ behind.head? = some '{' then some .regExpPropertyEscape else none
  | single c =>
    if c = '(' ∧ ['?', '<'] <+: behind then some (angleGroup (behind.drop 2)) else none
  | _ => none

/-- The feature of the part at an index in a row. -/
def featureAt (parts : List PatternPart) (i : Nat) : Option Feature :=
  parts[i]?.bind fun part => part.feature (patternText (parts.drop (i + 1)))

/-- The feature of the first part in a row that has one. -/
def firstFeature : List PatternPart → Option Feature
  | [] => none
  | part :: parts => (part.feature (patternText parts)).or (firstFeature parts)

section

variable {part : PatternPart} {parts : List PatternPart} {f : Feature}

@[simp] theorem featureAt_zero : featureAt (part :: parts) 0 = part.feature (patternText parts) := rfl

@[simp] theorem featureAt_succ (i : Nat) : featureAt (part :: parts) (i + 1) = featureAt parts i := rfl

theorem firstFeature_eq_none_iff : firstFeature parts = none ↔ ∀ i, featureAt parts i = none := by
  induction parts with
  | nil => exact ⟨fun _ i => rfl, fun _ => rfl⟩
  | cons part parts ih =>
    rw [firstFeature, Option.or_eq_none_iff, ih]
    constructor
    · rintro ⟨hpart, hparts⟩ i
      cases i with
      | zero => rw [featureAt_zero, hpart]
      | succ i => rw [featureAt_succ, hparts i]
    · exact fun h => ⟨h 0, fun i => h (i + 1)⟩

theorem firstFeature_eq_some_iff :
    firstFeature parts = some f
      ↔ ∃ i, featureAt parts i = some f ∧ ∀ j < i, featureAt parts j = none := by
  induction parts with
  | nil => simp [firstFeature, featureAt]
  | cons part parts ih =>
    rw [firstFeature, Option.or_eq_some_iff, ih]
    constructor
    · rintro (hpart | ⟨hpart, i, hi, hbefore⟩)
      · exact ⟨0, hpart, fun j hj => absurd hj (Nat.not_lt_zero j)⟩
      · refine ⟨i + 1, hi, fun j hj => ?_⟩
        cases j with
        | zero => rw [featureAt_zero, hpart]
        | succ j => rw [featureAt_succ, hbefore j (Nat.lt_of_succ_lt_succ hj)]
    · rintro ⟨i, hi, hbefore⟩
      cases i with
      | zero => exact .inl hi
      | succ i =>
        refine .inr ⟨hbefore 0 (Nat.zero_lt_succ i), i, hi, fun j hj => ?_⟩
        exact hbefore (j + 1) (Nat.succ_lt_succ hj)

end

/-! ## Reading the parts in turn -/

section

variable {c : Char} {r : List Char}

theorem patternParts_escape (c : Char) (r : List Char) :
    patternParts ('\\' :: c :: r) = .escape (some c) :: patternParts r := by
  rw [patternParts]

theorem patternParts_open (r : List Char) :
    patternParts ('[' :: r) = .charClass (insideClass r) :: patternParts (behindClass r) := by
  rw [patternParts]

theorem patternParts_single (hescape : c ≠ '\\') (hopen : c ≠ '[') :
    patternParts (c :: r) = .single c :: patternParts r := by
  rw [patternParts]
  · exact fun h _ => hescape h
  · exact fun _ _ h _ => hescape h
  · exact hopen

end

/-- The feature of a pattern that begins with a given part. -/
theorem firstFeature_of_parts {cs r : List Char} {part : PatternPart}
    (h : patternParts cs = part :: patternParts r) :
    firstFeature (patternParts cs) = (part.feature r).or (firstFeature (patternParts r)) := by
  rw [h, firstFeature, patternText_patternParts]

/-- The parts of a text that is read from the inside of a class, or from outside. -/
def partsFrom : Bool → List Char → List PatternPart
  | false, cs => patternParts cs
  | true, cs => patternParts (behindClass cs)

/-- **Reading a pattern for newer syntax is looking for the first part that has a feature.** -/
theorem bodyFeature_eq_firstFeature (inClass : Bool) (cs : List Char) :
    bodyFeature inClass cs = firstFeature (partsFrom inClass cs) := by
  -- in a class nothing is found before the rest behind it is read; outside, one part is read at a time
  fun_induction bodyFeature inClass cs with
  | case1 inClass => cases inClass <;> simp [partsFrom, patternParts, behindClass, firstFeature]
  | case2 =>
    rw [partsFrom, firstFeature_of_parts (patternParts_escape 'p' _)]
    rfl
  | case3 =>
    rw [partsFrom, firstFeature_of_parts (patternParts_escape 'P' _)]
    rfl
  | case4 inClass c r hp hP ih =>
    rw [ih]
    cases inClass with
    | true => rfl
    | false =>
      have hnone : PatternPart.feature r (.escape (some c)) = none := by
        refine if_neg ?_
        rintro ⟨hc, hbehind⟩
        obtain ⟨back, rfl⟩ := List.head?_eq_some_iff.1 hbehind
        rcases hc with rfl | rfl
        · exact hp back rfl rfl rfl
        · exact hP back rfl rfl rfl
      rw [partsFrom, partsFrom, firstFeature_of_parts (patternParts_escape c r), hnone, Option.none_or]
  | case5 r =>
    have hparts : patternParts ('(' :: '?' :: '<' :: r) = .single '(' :: patternParts ('?' :: '<' :: r) :=
      patternParts_single (by decide) (by decide)
    have hgroup : PatternPart.feature ('?' :: '<' :: r) (.single '(') = some (angleGroup r) := by
      rw [PatternPart.feature, if_pos ⟨rfl, r, rfl⟩]
      rfl
    rw [partsFrom, firstFeature_of_parts hparts, hgroup, Option.some_or]
  | case6 inClass r ih =>
    rw [ih]
    cases inClass with
    | true => rfl
    | false => exact (firstFeature_of_parts (patternParts_open r)).symm
  | case7 inClass r ih =>
    rw [ih]
    cases inClass with
    | true => rfl
    | false =>
      have hparts : patternParts (']' :: r) = .single ']' :: patternParts r :=
        patternParts_single (by decide) (by decide)
      exact (firstFeature_of_parts hparts).symm
  | case8 inClass c r hp hP hescape hgroup hopen hclose ih =>
    rw [ih]
    cases inClass with
    | true => rw [partsFrom, partsFrom, behindClass_plain hescape hclose]
    | false =>
      by_cases hc : c = '\\'
      · cases r with
        | nil => simp [partsFrom, hc, patternParts, firstFeature, PatternPart.feature]
        | cons d r => exact (hescape d r hc rfl).elim
      · have hnone : PatternPart.feature r (.single c) = none := by
          refine if_neg ?_
          rintro ⟨hparenthesis, back, rfl⟩
          exact hgroup back rfl hparenthesis rfl
        rw [partsFrom, partsFrom, firstFeature_of_parts (patternParts_single hc hopen), hnone,
          Option.none_or]

/-! ## Turns of the loop -/

section

variable {body front : List Char} {inClass : Bool} {r : List Char}

theorem patternTurn_end {i : Nat} (h : (encode body).length ≤ i) :
    patternTurn body ⟨i, inClass⟩ = .done none := by
  simp only [patternTurn, List.getElem?_eq_none h]

theorem passes_patternTurn (body : List Char) (inClass : Bool) :
    Passes (patternTurn body) (⟨·, inClass⟩) (encode body) ['\\', '[', ']', '('] where
  short a ha := by
    simp only [List.mem_cons, List.not_mem_nil, or_false] at ha
    rcases ha with rfl | rfl | rfl | rfl <;> decide
  next {i b} hb hplain := by
    simp only [patternTurn, hb]
    rw [if_neg (hplain '\\' (by simp)), if_neg (hplain '[' (by simp)), if_neg (hplain ']' (by simp)),
      if_neg fun h => hplain '(' (by simp) h.1]

/-- At a backslash outside of classes, the loop returns if a property escape begins there; otherwise it
skips two bytes. -/
theorem patternTurn_backslash :
    patternTurn (front ++ '\\' :: r) ⟨(encode front).length, inClass⟩
      = if inClass = false ∧ (['p', '{'] <+: r ∨ ['P', '{'] <+: r) then
          .done (some .regExpPropertyEscape)
        else .next ⟨(encode front).length + 2, inClass⟩ := by
  simp only [patternTurn, encode_append, getElem?_behind (a := '\\') (by decide)]
  rw [if_pos trivial, getElem?_behind_succ (by decide) 0, getElem?_behind_succ (by decide) 1]
  simp only [or_and_right, getElem?_encode_pair_iff (a := 'p') (b := '{') (by decide) (by decide),
    getElem?_encode_pair_iff (a := 'P') (b := '{') (by decide) (by decide)]

theorem patternTurn_open :
    patternTurn (front ++ '[' :: r) ⟨(encode front).length, inClass⟩
      = .next ⟨(encode front).length + 1, true⟩ := by
  simp only [patternTurn, encode_append, getElem?_behind (a := '[') (by decide)]
  rfl

theorem patternTurn_close :
    patternTurn (front ++ ']' :: r) ⟨(encode front).length, inClass⟩
      = .next ⟨(encode front).length + 1, false⟩ := by
  simp only [patternTurn, encode_append, getElem?_behind (a := ']') (by decide)]
  rfl

/-- The byte behind `(?<` tells lookbehinds from named groups as the character does. -/
theorem angleGroupBefore_encode (cs : List Char) : angleGroupBefore (encode cs)[0]? = angleGroup cs := by
  rw [angleGroupBefore]
  simp only [getElem?_encode_eq_some_iff (a := '=') (by decide),
    getElem?_encode_eq_some_iff (a := '!') (by decide)]
  fun_cases angleGroup cs with
  | case1 r => exact if_pos (.inl rfl)
  | case2 r => exact if_pos (.inr rfl)
  | case3 cs hequals hmark =>
    refine if_neg ?_
    rintro (h | h)
    · obtain ⟨r, h⟩ := List.head?_eq_some_iff.1 h
      exact hequals r h
    · obtain ⟨r, h⟩ := List.head?_eq_some_iff.1 h
      exact hmark r h

/-- At a parenthesis, the text is cut at the beginning of a character. -/
theorem patternTurn_parenthesis :
    patternTurn (front ++ '(' :: r) ⟨(encode front).length, inClass⟩
      = if inClass = false ∧ ['?', '<'] <+: r then .done (some (angleGroup (r.drop 2)))
        else .next ⟨(encode front).length + 1, inClass⟩ := by
  have hslice : sliceFrom? (front ++ '(' :: r) (encode front).length = some ('(' :: r) :=
    sliceFrom?_eq_some_iff.2 ⟨front, rfl, length_encode front⟩
  simp only [patternTurn, hslice, encode_append, getElem?_behind (a := '(') (by decide)]
  rw [if_neg (by decide), if_neg (by decide), if_neg (by decide), getElem?_behind_succ (by decide) 2]
  have hopens : ['(', '?', '<'].isPrefixOf ('(' :: r) ↔ ['?', '<'] <+: r := by
    rw [List.isPrefixOf_iff_prefix, List.cons_prefix_cons, eq_self, true_and]
  have hbehind (hfollows : ['?', '<'] <+: r) :
      angleGroupBefore (encode r)[2]? = angleGroup (r.drop 2) := by
    obtain ⟨r, rfl⟩ := hfollows
    show angleGroupBefore (encode ('?' :: '<' :: r))[2]? = angleGroup r
    rw [getElem?_encode_succ (by decide), getElem?_encode_succ (by decide), angleGroupBefore_encode]
  by_cases h : inClass = false ∧ ['?', '<'] <+: r
  · rw [if_pos h, if_pos ⟨trivial, h.1⟩, if_pos (hopens.2 h.2), hbehind h.2]
  · rw [if_neg h]
    split
    · next hout => rw [if_neg fun hfollows => h ⟨hout.2, hopens.1 hfollows⟩]
    · rfl

end

/-! ## What the loop returns -/

/-- A turn that passes a short character, and may enter or leave a class. -/
theorem returnsWithin_of_short {front r : List Char} {c : Char} {inClass inClass' : Bool}
    {result : Option Feature} (hc : c.toNat < 0x80)
    (hturn : patternTurn (front ++ c :: r) ⟨(encode front).length, inClass⟩
      = .next ⟨(encode front).length + 1, inClass'⟩)
    (hrest : ReturnsWithin (patternTurn (front ++ [c] ++ r)) (byteLength r + 1)
      ⟨(encode (front ++ [c])).length, inClass'⟩ result) :
    ReturnsWithin (patternTurn (front ++ c :: r)) (byteLength (c :: r) + 1)
      ⟨(encode front).length, inClass⟩ result := by
  have hlength : (encode (front ++ [c])).length = (encode front).length + 1 := by
    rw [encode_append, List.length_append, encode_cons, encodeChar_ascii hc]
    rfl
  rw [hlength, List.append_assoc, List.singleton_append] at hrest
  have hsize := c.utf8Size_pos
  refine (ReturnsWithin.of_next hturn hrest).mono ?_
  rw [byteLength_cons]
  omega

/-- **The loop follows the characters**: where one begins, in a class or not, what is found is what
`bodyFeature` finds in the rest. -/
theorem returnsWithin_patternTurn (front : List Char) (inClass : Bool) (rest : List Char) :
    ReturnsWithin (patternTurn (front ++ rest)) (byteLength rest + 1) ⟨(encode front).length, inClass⟩
      (bodyFeature inClass rest) := by
  -- only states between characters are met here: `Passes` takes care of the turns that end inside of one
  fun_induction bodyFeature inClass rest generalizing front with
  | case1 inClass => exact .of_done (patternTurn_end (by simp))
  | case2 r => exact .of_done (patternTurn_backslash.trans (if_pos ⟨rfl, .inl ⟨r, rfl⟩⟩))
  | case3 r => exact .of_done (patternTurn_backslash.trans (if_pos ⟨rfl, .inr ⟨r, rfl⟩⟩))
  | case4 inClass c r hp hP ih =>
    have hturn : patternTurn (front ++ '\\' :: c :: r) ⟨(encode front).length, inClass⟩
        = .next ⟨(encode front).length + 2, inClass⟩ := by
      rw [patternTurn_backslash, if_neg]
      rintro ⟨hout, ⟨back, h⟩ | ⟨back, h⟩⟩
      · cases h
        exact hp back hout rfl rfl
      · cases h
        exact hP back hout rfl rfl
    have hbytes : encode (front ++ '\\' :: c :: r) = encode front ++ (encode ['\\', c] ++ encode r) := by
      rw [← encode_append, ← encode_append]
      rfl
    have hrest := ih (front ++ ['\\', c])
    rw [List.append_assoc, encode_append] at hrest
    refine ((passes_patternTurn _ inClass).escaped hbytes hturn hrest).mono ?_
    simp only [byteLength_cons]
    omega
  | case5 r => exact .of_done (patternTurn_parenthesis.trans (if_pos ⟨rfl, r, rfl⟩))
  | case6 inClass r ih => exact returnsWithin_of_short (by decide) patternTurn_open (ih _)
  | case7 inClass r ih => exact returnsWithin_of_short (by decide) patternTurn_close (ih _)
  | case8 inClass c r hp hP hescape hgroup hopen hclose ih =>
    by_cases hbackslash : c = '\\'
    · subst hbackslash
      cases r with
      | nil =>
        have hturn : patternTurn (front ++ ['\\']) ⟨(encode front).length, inClass⟩
            = .next ⟨(encode front).length + 2, inClass⟩ := by
          rw [patternTurn_backslash, if_neg (by simp)]
        refine .of_next hturn (.of_done (k := 0) (patternTurn_end ?_))
        rw [encode_append, List.length_append]
        exact Nat.add_le_add_left (by decide) _
      | cons d r => exact (hescape d r rfl rfl).elim
    by_cases hparenthesis : c = '('
    · subst hparenthesis
      refine returnsWithin_of_short (by decide) ?_ (ih _)
      rw [patternTurn_parenthesis, if_neg]
      rintro ⟨hout, back, rfl⟩
      exact hgroup back hout rfl rfl
    · have hplain : c ∉ ['\\', '[', ']', '('] := by
        simpa [hbackslash, hparenthesis] using And.intro hopen hclose
      have hbytes : encode (front ++ c :: r) = encode front ++ (encodeChar c ++ encode r) := by
        rw [encode_append, encode_cons]
      have hrest := ih (front ++ [c])
      rw [List.append_assoc, encode_append, encode_cons, encode_nil, List.append_nil] at hrest
      rw [byteLength_cons, Nat.add_assoc]
      exact (passes_patternTurn _ inClass).char hplain hbytes hrest

/-- **The search for newer syntax in a pattern finds the feature of the first part that has one.** For
every body, the loop over its bytes returns after as many turns as there are bytes, and one more; it never
cuts the body inside of a character. What it returns is what `bodyFeature` finds among the characters. The
body is the row of its parts, each of them whole, and what is found is the feature of the first part that
has one in front of what follows, or nothing if no part has one. -/
theorem pattern_loop_parts (body : List Char) :
    ReturnsWithin (patternTurn body) (byteLength body + 1) ⟨0, false⟩ (bodyFeature false body)
      ∧ (∀ n, turns (patternTurn body) n ⟨0, false⟩ ≠ .torn)
      ∧ patternText (patternParts body) = body
      ∧ (∀ front part back, patternParts body = front ++ part :: back → part.IsWhole back)
      ∧ (∀ f, bodyFeature false body = some f
          ↔ ∃ i, featureAt (patternParts body) i = some f
            ∧ ∀ j < i, featureAt (patternParts body) j = none)
      ∧ (bodyFeature false body = none ↔ ∀ i, featureAt (patternParts body) i = none) := by
  have hreturns : ReturnsWithin (patternTurn body) (byteLength body + 1) ⟨0, false⟩
      (bodyFeature false body) := returnsWithin_patternTurn [] false body
  have hparts : bodyFeature false body = firstFeature (patternParts body) :=
    bodyFeature_eq_firstFeature false body
  refine ⟨hreturns, hreturns.ne_torn, patternText_patternParts body,
    fun _ _ _ => isWhole_of_patternParts, fun f => ?_, ?_⟩
  · rw [hparts, firstFeature_eq_some_iff]
  · rw [hparts, firstFeature_eq_none_iff]

/-- In a class, and behind a backslash, nothing opens; an escaped character may be long. -/
example : turns (patternTurn "[(?<\\]]\\é\\((?<=a)".toList) 18 ⟨0, false⟩
    = .done (some .regExpLookbehind) := by decide

end EditionCheck.Scan
