import EditionCheck.Proofs.CodePoints

/-!
# The parts of a pattern

Where classes do not stand in classes, the body of a regular expression is a row of escapes, character
classes and single characters. A place between two of them is outside of every class, and what stands there
is not escaped.

* `ClassInside`, `WholeParts` — what can stand in a class, and what can stand in front of such a place;
* `opening_of_bodyFeature`, `isSome_bodyFeature` — reading a pattern for newer syntax stops at such a
  place where a construct of ES2018 opens, and it does stop if there is one;
* `openClasses`, `StandsOutside` — the same places by the number of classes that are open there, which also
  says what a place is where classes do stand in classes;
* `wholeParts_iff`, `StandsOutside.of_nested`, `standsOutside_iff_of_flat` — how the two hang together;
* `splitAtLastSlash_literal` — a literal is taken apart at the slash in front of its flags.
-/

set_option autoImplicit false

namespace EditionCheck.Scan

/-! ## Parts -/

/-- What stands in a character class: the only brackets that could end it are escaped. -/
inductive ClassInside : List Char → Prop
  | nil : ClassInside []
  | escape {cs : List Char} (c : Char) : ClassInside cs → ClassInside ('\\' :: c :: cs)
  | plain {c : Char} {cs : List Char} :
      c ≠ '\\' → c ≠ ']' → ClassInside cs → ClassInside (c :: cs)

/-- A row of whole parts of a pattern: escapes, character classes and single characters. -/
inductive WholeParts : List Char → Prop
  | nil : WholeParts []
  | escape {cs : List Char} (c : Char) : WholeParts cs → WholeParts ('\\' :: c :: cs)
  | charClass {inner cs : List Char} :
      ClassInside inner → WholeParts cs → WholeParts ('[' :: (inner ++ ']' :: cs))
  | plain {c : Char} {cs : List Char} :
      c ≠ '\\' → c ≠ '[' → WholeParts cs → WholeParts (c :: cs)

/-- A text leads out of every class, when it is read from the inside of a class or from outside. -/
def LeadsOut : Bool → List Char → Prop
  | false, cs => WholeParts cs
  | true, cs => ∃ inner rest, cs = inner ++ ']' :: rest ∧ ClassInside inner ∧ WholeParts rest

section

variable {c : Char} {cs : List Char} {inClass : Bool}

theorem leadsOut_nil : LeadsOut inClass [] ↔ inClass = false := by
  cases inClass with
  | false => exact ⟨fun _ => rfl, fun _ => .nil⟩
  | true =>
    refine ⟨?_, fun h => Bool.noConfusion h⟩
    rintro ⟨inner, rest, h, -⟩
    cases inner <;> cases h

theorem leadsOut_escape : LeadsOut inClass ('\\' :: c :: cs) ↔ LeadsOut inClass cs := by
  cases inClass with
  | false =>
    refine ⟨fun h => ?_, .escape c⟩
    generalize hraw : '\\' :: c :: cs = raw at h
    cases h with
    | nil => cases hraw
    | escape _ h =>
      cases hraw
      exact h
    | charClass => cases (List.cons.inj hraw).1
    | plain hc => exact absurd (List.cons.inj hraw).1.symm hc
  | true =>
    constructor
    · rintro ⟨inner, rest, h, hinner, hrest⟩
      cases hinner with
      | nil => cases h
      | escape d hinner =>
        cases h
        exact ⟨_, rest, rfl, hinner, hrest⟩
      | plain hd => exact absurd (List.cons.inj h).1.symm hd
    · rintro ⟨inner, rest, rfl, hinner, hrest⟩
      exact ⟨'\\' :: c :: inner, rest, rfl, .escape c hinner, hrest⟩

theorem not_leadsOut_backslash : ¬ LeadsOut inClass ['\\'] := by
  cases inClass with
  | false =>
    intro h
    generalize hraw : ['\\'] = raw at h
    cases h with
    | nil => cases hraw
    | escape => cases hraw
    | charClass => cases (List.cons.inj hraw).1
    | plain hc => exact absurd (List.cons.inj hraw).1.symm hc
  | true =>
    rintro ⟨inner, rest, h, hinner, -⟩
    cases hinner with
    | nil => cases h
    | escape => cases h
    | plain hd => exact hd (List.cons.inj h).1.symm

theorem leadsOut_open : LeadsOut inClass ('[' :: cs) ↔ LeadsOut true cs := by
  cases inClass with
  | false =>
    constructor
    · intro h
      cases h with
      | charClass hinner hrest => exact ⟨_, _, rfl, hinner, hrest⟩
      | plain _ hc => exact absurd rfl hc
    · rintro ⟨inner, rest, rfl, hinner, hrest⟩
      exact .charClass hinner hrest
  | true =>
    constructor
    · rintro ⟨inner, rest, h, hinner, hrest⟩
      cases hinner with
      | nil => cases h
      | escape => cases h
      | plain _ _ hinner =>
        cases h
        exact ⟨_, rest, rfl, hinner, hrest⟩
    · rintro ⟨inner, rest, rfl, hinner, hrest⟩
      exact ⟨'[' :: inner, rest, rfl, .plain (by decide) (by decide) hinner, hrest⟩

theorem leadsOut_close : LeadsOut inClass (']' :: cs) ↔ LeadsOut false cs := by
  cases inClass with
  | false =>
    refine ⟨fun h => ?_, .plain (by decide) (by decide)⟩
    cases h with
    | plain _ _ h => exact h
  | true =>
    constructor
    · rintro ⟨inner, rest, h, hinner, hrest⟩
      cases hinner with
      | nil =>
        cases h
        exact hrest
      | escape => cases h
      | plain _ hd =>
        cases h
        exact absurd rfl hd
    · exact fun hrest => ⟨[], cs, rfl, .nil, hrest⟩

theorem leadsOut_plain (hescape : c ≠ '\\') (hopen : c ≠ '[') (hclose : c ≠ ']') :
    LeadsOut inClass (c :: cs) ↔ LeadsOut inClass cs := by
  cases inClass with
  | false =>
    refine ⟨fun h => ?_, .plain hescape hopen⟩
    cases h with
    | escape => exact absurd rfl hescape
    | charClass => exact absurd rfl hopen
    | plain _ _ h => exact h
  | true =>
    constructor
    · rintro ⟨inner, rest, h, hinner, hrest⟩
      cases hinner with
      | nil =>
        cases h
        exact absurd rfl hclose
      | escape =>
        cases h
        exact absurd rfl hescape
      | plain _ _ hinner =>
        cases h
        exact ⟨_, rest, rfl, hinner, hrest⟩
    · rintro ⟨inner, rest, rfl, hinner, hrest⟩
      exact ⟨c :: inner, rest, rfl, .plain hescape hclose hinner, hrest⟩

end

/-! ## Where newer syntax opens -/

/-- The construct of ES2018 that the text begins with. -/
def opening : List Char → Option Feature
  | '\\' :: 'p' :: '{' :: _ => some .regExpPropertyEscape
  | '\\' :: 'P' :: '{' :: _ => some .regExpPropertyEscape
  | '(' :: '?' :: '<' :: r => some (angleGroup r)
  | _ => none

theorem angleGroup_ne_propertyEscape (r : List Char) : angleGroup r ≠ .regExpPropertyEscape := by
  unfold angleGroup
  split <;> decide

/-- What opens at a place is a property escape, or a named group or lookbehind. -/
theorem opening_cases {rest : List Char} {f : Feature} (h : opening rest = some f) :
    (f = .regExpPropertyEscape ∧ ∃ p back, rest = '\\' :: p :: '{' :: back ∧ (p = 'p' ∨ p = 'P'))
      ∨ f ≠ .regExpPropertyEscape ∧ ∃ back, rest = '(' :: '?' :: '<' :: back := by
  unfold opening at h
  split at h
  · exact .inl ⟨(Option.some.inj h).symm, 'p', _, rfl, .inl rfl⟩
  · exact .inl ⟨(Option.some.inj h).symm, 'P', _, rfl, .inr rfl⟩
  · cases h
    exact .inr ⟨angleGroup_ne_propertyEscape _, _, rfl⟩
  · cases h

section

variable {inClass : Bool} {body : List Char} {f : Feature}

/-- **What is found in a pattern stands outside of its classes.** -/
theorem opening_of_bodyFeature (h : bodyFeature inClass body = some f) :
    ∃ front rest, body = front ++ rest ∧ LeadsOut inClass front ∧ opening rest = some f := by
  fun_induction bodyFeature inClass body with
  | case1 => cases h
  | case2 => exact ⟨[], _, rfl, .nil, h⟩
  | case3 => exact ⟨[], _, rfl, .nil, h⟩
  | case4 inClass c r hp hP ih =>
    obtain ⟨front, rest, rfl, hfront, hrest⟩ := ih h
    exact ⟨'\\' :: c :: front, rest, rfl, leadsOut_escape.2 hfront, hrest⟩
  | case5 => exact ⟨[], _, rfl, .nil, h⟩
  | case6 inClass r ih =>
    obtain ⟨front, rest, rfl, hfront, hrest⟩ := ih h
    exact ⟨'[' :: front, rest, rfl, leadsOut_open.2 hfront, hrest⟩
  | case7 inClass r ih =>
    obtain ⟨front, rest, rfl, hfront, hrest⟩ := ih h
    exact ⟨']' :: front, rest, rfl, leadsOut_close.2 hfront, hrest⟩
  | case8 inClass c r hp hP hescape hgroup hopen hclose ih =>
    have hne : c ≠ '\\' := by
      rintro rfl
      cases r with
      | nil => cases h
      | cons d r => exact hescape d r rfl rfl
    obtain ⟨front, rest, rfl, hfront, hrest⟩ := ih h
    exact ⟨c :: front, rest, rfl, (leadsOut_plain hne hopen hclose).2 hfront, hrest⟩

/-- **No such construct is missed.** -/
theorem isSome_bodyFeature {front rest : List Char} (hfront : LeadsOut inClass front)
    (hopening : opening rest = some f) : (bodyFeature inClass (front ++ rest)).isSome := by
  generalize hbody : front ++ rest = body
  -- in front of the construct the branches follow the parts; where it opens, its own branch is taken
  fun_induction bodyFeature inClass body generalizing front with
  | case1 =>
    obtain ⟨-, rfl⟩ := List.append_eq_nil_iff.1 hbody
    cases hopening
  | case2 => rfl
  | case3 => rfl
  | case4 inClass c r hp hP ih =>
    cases front with
    | nil =>
      have houtside := leadsOut_nil.1 hfront
      rcases opening_cases hopening with ⟨-, p, back, rfl, rfl | rfl⟩ | ⟨-, back, rfl⟩
      · cases hbody
        exact (hp back houtside rfl rfl).elim
      · cases hbody
        exact (hP back houtside rfl rfl).elim
      · cases hbody
    | cons d front =>
      cases front with
      | nil =>
        cases hbody
        exact absurd hfront not_leadsOut_backslash
      | cons e front =>
        cases hbody
        exact ih (leadsOut_escape.1 hfront) rfl
  | case5 => rfl
  | case6 inClass r ih =>
    cases front with
    | nil =>
      subst hbody
      cases hopening
    | cons d front =>
      cases hbody
      exact ih (leadsOut_open.1 hfront) rfl
  | case7 inClass r ih =>
    cases front with
    | nil =>
      subst hbody
      cases hopening
    | cons d front =>
      cases hbody
      exact ih (leadsOut_close.1 hfront) rfl
  | case8 inClass c r hp hP hescape hgroup hopen hclose ih =>
    cases front with
    | nil =>
      have houtside := leadsOut_nil.1 hfront
      rcases opening_cases hopening with ⟨-, p, back, rfl, -⟩ | ⟨-, back, rfl⟩
      · cases hbody
        exact (hescape _ _ rfl rfl).elim
      · cases hbody
        exact (hgroup back houtside rfl rfl).elim
    | cons d front =>
      cases hbody
      have hne : c ≠ '\\' := by
        rintro rfl
        cases hbehind : front ++ rest with
        | nil =>
          obtain ⟨-, rfl⟩ := List.append_eq_nil_iff.1 hbehind
          cases hopening
        | cons e r => exact hescape e r rfl hbehind
      exact ih ((leadsOut_plain hne hopen hclose).1 hfront) rfl

/-- What is found in a body is as old as ES2018. -/
theorem edition_of_bodyFeature (h : bodyFeature inClass body = some f) : f.edition = .es2018 := by
  obtain ⟨front, rest, -, -, hrest⟩ := opening_of_bodyFeature h
  unfold opening at hrest
  split at hrest
  · cases hrest
    rfl
  · cases hrest
    rfl
  · cases hrest
    unfold angleGroup
    split <;> rfl
  · cases hrest

end

/-! ## Open classes -/

/-- How many character classes are open behind a text, if so many are in front of it. Classes stand in
classes if the flag says so; otherwise a bracket in a class is a character like any other. -/
def openClasses (nests : Bool) : Nat → List Char → Nat
  | depth, [] => depth
  | depth, '\\' :: _ :: r => openClasses nests depth r
  | depth, '[' :: r => openClasses nests (if nests || depth == 0 then depth + 1 else depth) r
  | depth, ']' :: r => openClasses nests (depth - 1) r
  | depth, _ :: r => openClasses nests depth r

/-- What stands behind a text is not escaped and in no character class. -/
structure StandsOutside (nests : Bool) (front : List Char) : Prop where
  even : trailingBackslashes front % 2 = 0
  closed : openClasses nests 0 front = 0

/-- In a body, a character class stands in another one. -/
def NestsClasses (body : List Char) : Prop :=
  ∃ front back, body = front ++ '[' :: back ∧ trailingBackslashes front % 2 = 0
    ∧ openClasses true 0 front ≠ 0

theorem leadsOut_iff (inClass : Bool) (cs : List Char) :
    LeadsOut inClass cs
      ↔ trailingBackslashes cs % 2 = 0 ∧ openClasses false inClass.toNat cs = 0 := by
  generalize hdepth : inClass.toNat = depth
  fun_induction openClasses false depth cs generalizing inClass with
  | case1 depth =>
    rw [leadsOut_nil, ← hdepth]
    cases inClass <;> simp [trailingBackslashes]
  | case2 depth c r ih => rw [leadsOut_escape, trailingBackslashes_escape, ih inClass hdepth]
  | case3 depth r ih =>
    rw [leadsOut_open, trailingBackslashes_cons (by decide), ih true]
    cases inClass <;> cases hdepth <;> rfl
  | case4 depth r ih =>
    rw [leadsOut_close, trailingBackslashes_cons (by decide), ih false]
    cases inClass <;> cases hdepth <;> rfl
  | case5 depth c r hescape hopen hclose ih =>
    by_cases hc : c = '\\'
    · cases r with
      | nil => simp [hc, not_leadsOut_backslash, trailingBackslashes]
      | cons d r => exact (hescape d r hc rfl).elim
    · rw [leadsOut_plain hc hopen hclose, trailingBackslashes_cons hc, ih inClass hdepth]

/-- Whole parts are what can stand in front of a place outside, where no class stands in another one. -/
theorem wholeParts_iff {front : List Char} : WholeParts front ↔ StandsOutside false front :=
  (leadsOut_iff false front).trans ⟨fun h => ⟨h.1, h.2⟩, fun h => ⟨h.even, h.closed⟩⟩

/-- Classes that stand in classes only make more of them open. -/
theorem openClasses_le {a b : Nat} (hone : a ≤ 1) (hab : a ≤ b) (cs : List Char) :
    openClasses false a cs ≤ openClasses true b cs := by
  fun_induction openClasses false a cs generalizing b with
  | case1 => exact hab
  | case2 a c r ih => exact ih hone hab
  | case3 a r ih =>
    simp only [Bool.false_or, beq_iff_eq] at ih ⊢
    refine ih (b := b + 1) ?_ ?_
    · split <;> omega
    · split <;> omega
  | case4 a r ih => exact ih (by omega) (by omega)
  | case5 a c r hescape hopen hclose ih =>
    rw [openClasses]
    · exact ih hone hab
    all_goals assumption

theorem StandsOutside.of_nested {front : List Char} (h : StandsOutside true front) :
    StandsOutside false front :=
  have hle := openClasses_le (Nat.zero_le 1) (Nat.le_refl 0) front
  ⟨h.even, Nat.le_zero.1 (Nat.le_trans hle (Nat.le_of_eq h.closed))⟩

/-- Where no class opens in another one, it does not matter whether it could. -/
theorem openClasses_eq_of_flat {depth : Nat} {cs : List Char}
    (hflat : ∀ front back, cs = front ++ '[' :: back → trailingBackslashes front % 2 = 0 →
      openClasses true depth front = 0) :
    openClasses true depth cs = openClasses false depth cs := by
  fun_induction openClasses false depth cs with
  | case1 => rfl
  | case2 depth c r ih =>
    refine ih fun front back hr heven => ?_
    exact hflat ('\\' :: c :: front) back (by rw [hr]; rfl) ((trailingBackslashes_escape c front).trans heven)
  | case3 depth r ih =>
    obtain rfl : depth = 0 := hflat [] r rfl rfl
    refine ih fun front back hr heven => ?_
    exact hflat ('[' :: front) back (by rw [hr]; rfl) (by rwa [trailingBackslashes_cons (by decide)])
  | case4 depth r ih =>
    refine ih fun front back hr heven => ?_
    exact hflat (']' :: front) back (by rw [hr]; rfl) (by rwa [trailingBackslashes_cons (by decide)])
  | case5 depth c r hescape hopen hclose ih =>
    rw [openClasses]
    · refine ih fun front back hr heven => ?_
      have hc : c ≠ '\\' := by
        rintro rfl
        cases r with
        | nil => cases front <;> cases hr
        | cons d r => exact hescape d r rfl rfl
      have hopened := hflat (c :: front) back (by rw [hr]; rfl) (by rwa [trailingBackslashes_cons hc])
      rwa [openClasses] at hopened
      · exact fun _ _ h => absurd h hc
      all_goals assumption
    all_goals assumption

theorem standsOutside_iff_of_flat {front rest : List Char} (hflat : ¬ NestsClasses (front ++ rest)) :
    StandsOutside true front ↔ StandsOutside false front := by
  refine ⟨.of_nested, fun h => ⟨h.even, ?_⟩⟩
  rw [openClasses_eq_of_flat fun f b hfront heven => ?_]
  · exact h.closed
  · refine Classical.not_not.1 fun hopen => hflat ⟨f, b ++ rest, ?_, heven, hopen⟩
    rw [hfront, List.append_assoc]
    rfl

theorem openClasses_le_of_not_mem {nests : Bool} {depth : Nat} {cs : List Char} (hnone : '[' ∉ cs) :
    openClasses nests depth cs ≤ depth := by
  fun_induction openClasses nests depth cs with
  | case1 => exact Nat.le_refl _
  | case2 depth c r ih => exact ih fun h => hnone (.tail _ (.tail _ h))
  | case3 => exact absurd List.mem_cons_self hnone
  | case4 depth r ih => exact Nat.le_trans (ih fun h => hnone (.tail _ h)) (Nat.sub_le depth 1)
  | case5 depth c r _ _ _ ih => exact ih fun h => hnone (.tail _ h)

/-- Without brackets, only what escapes a place matters. -/
theorem standsOutside_of_not_mem {nests : Bool} {front : List Char} (hnone : '[' ∉ front)
    (heven : trailingBackslashes front % 2 = 0) : StandsOutside nests front :=
  ⟨heven, Nat.le_zero.1 (openClasses_le_of_not_mem hnone)⟩

/-! ## Taking a literal apart -/

/-- A literal is taken apart at the slash in front of its flags. -/
theorem splitAtLastSlash_literal {front flags : List Char} (hflags : '/' ∉ flags) :
    splitAtLastSlash (front ++ '/' :: flags) = (front, flags) := by
  have htake : (front ++ '/' :: flags).reverse.takeWhile (· != '/') = flags.reverse := by
    rw [List.reverse_append, List.reverse_cons, List.append_assoc, List.takeWhile_append_of_pos]
    · simp
    · intro c hc
      have hne : c ≠ '/' := fun h => hflags (h ▸ List.mem_reverse.1 hc)
      simpa using hne
  have hlength : (front ++ '/' :: flags).length - flags.length - 1 = front.length := by
    rw [List.length_append, List.length_cons]
    omega
  rw [splitAtLastSlash, if_pos (by simp)]
  show ((front ++ '/' :: flags).take (_ - _ - 1), _) = _
  rw [htake, List.reverse_reverse, hlength, List.take_left]

end EditionCheck.Scan
