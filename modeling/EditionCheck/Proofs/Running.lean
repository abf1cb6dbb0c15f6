import EditionCheck.Script.Reading

/-!
# What readers do from where they stand

A statement about the result of a reader at a place and about the place where it leaves off, whatever has
been put down in the notes. The rules follow the ways in which productions are written, and say which token
was taken.

* `After x p C` — if the reader `x` gives a result at the place `p`, then `C` holds of the result and of
  the place behind it;
* `After.bind`, `After.iterate` — sequences and repetitions;
* `After.complain`, `After.takeUp` — what is put down leaves the place as it is;
* `After.accept`, `After.expect`, `After.endStatement` and others — the readers of single tokens.
-/

set_option autoImplicit false

namespace EditionCheck.Script

/-- The place behind the next token. -/
def Place.behind (p : Place) : Place := { p with token := p.token.next, lastStop := p.token.span.stop }

/-- The same place with another reading of the next token. -/
def Place.reread (p : Place) (t : Token) : Place := { p with token := t }

@[simp] theorem Place.behind_lastStop (p : Place) : p.behind.lastStop = p.token.span.stop := rfl

@[simp] theorem Place.behind_token (p : Place) : p.behind.token = p.token.next := rfl

@[simp] theorem Place.reread_token (p : Place) (t : Token) : (p.reread t).token = t := rfl

namespace Reader

variable {α β σ : Type} {C D : α → Place → Prop} {E : β → Place → Prop} {p : Place}

/-- If a reader gives a result, the result and the place behind it have a property. -/
def After (x : Reader α) (p : Place) (C : α → Place → Prop) : Prop :=
  ∀ notes a q, (x p notes).1 = .ok (a, q) → C a q

namespace After

/-! ## Sequences -/

theorem pure {a : α} (h : C a p) : After (pure a) p C := by
  intro notes b q hb
  cases hb
  exact h

theorem fail (fault : SyntaxFault) : After (fail fault : Reader α) p C := by
  intro notes a q ha
  cases ha

theorem failAt (fault : SyntaxFault) (offset : Nat) : After (failAt fault offset : Reader α) p C := by
  intro notes a q ha
  cases ha

theorem mono {x : Reader α} (h : After x p C) (hCD : ∀ a q, C a q → D a q) : After x p D :=
  fun notes a q ha => hCD a q (h notes a q ha)

theorem and {x : Reader α} (h : After x p C) (h' : After x p D) : After x p fun a q => C a q ∧ D a q :=
  fun notes a q ha => ⟨h notes a q ha, h' notes a q ha⟩

/-- What follows may rely on the result before it and on where that one left off. -/
theorem bind {x : Reader α} {f : α → Reader β} (hx : After x p C)
    (hf : ∀ a q, C a q → After (f a) q E) : After (x >>= f) p E := by
  intro notes b r hb
  rw [run_bind] at hb
  have hx := hx notes
  generalize x p notes = s at hb hx
  obtain ⟨result, notes'⟩ := s
  cases result with
  | error e => cases hb
  | ok result =>
    obtain ⟨a, q⟩ := result
    exact hf a q (hx a q rfl) notes' b r hb

theorem ite {x y : Reader α} {c : Prop} [Decidable c] (hx : c → After x p C) (hy : ¬ c → After y p C) :
    After (if c then x else y) p C := by
  split
  · next h => exact hx h
  · next h => exact hy h

/-! ## Notes -/

section

variable {f : Unit → Reader β}

theorem complain {fault : SyntaxFault} {offsets : List Nat} (h : After (f ()) p E) :
    After (complain fault offsets >>= f) p E := fun notes => h (notes.complain fault offsets)

theorem addDefault {offset : Nat} (h : After (f ()) p E) : After (addDefault offset >>= f) p E :=
  fun notes => h (notes.addDefault offset)

theorem takeUp {expressions patterns : List Node} (h : After (f ()) p E) :
    After (takeUp expressions patterns >>= f) p E := fun notes => h (notes.takeUp expressions patterns)

end

/-! ## Single tokens -/

section

variable {f : Token → Reader β} {c : Punctuator} {word : String}

theorem token (h : After (f p.token) p E) : After (token >>= f) p E := h

theorem here {f : Nat → Reader β} (h : After (f p.token.span.start) p E) : After (here >>= f) p E := h

theorem spanFrom {f : Text.Span → Reader β} {start : Nat} (h : After (f ⟨start, p.lastStop⟩) p E) :
    After (spanFrom start >>= f) p E := h

theorem advance (h : After (f p.token) p.behind E) : After (advance >>= f) p E := h

theorem reread {f : Unit → Reader β} {t : Token} (h : After (f ()) (p.reread t) E) :
    After (reread t >>= f) p E := h

theorem at? {f : Bool → Reader β} (h : After (f (p.token.isPunctuator c)) p E) :
    After (at? c >>= f) p E := h

theorem atWord? {f : Bool → Reader β} (h : After (f (p.token.isWord word)) p E) :
    After (atWord? word >>= f) p E := h

theorem accept {f : Bool → Reader β}
    (htaken : p.token.isPunctuator c = true → After (f true) p.behind E)
    (hleft : p.token.isPunctuator c = false → After (f false) p E) : After (accept c >>= f) p E := by
  refine bind (C := fun b q => b = p.token.isPunctuator c ∧ q = if b then p.behind else p) ?_ ?_
  · unfold Reader.accept
    refine at? ?_
    cases h : p.token.isPunctuator c with
    | true => exact advance (pure ⟨rfl, rfl⟩)
    | false => exact pure ⟨rfl, rfl⟩
  · rintro b q ⟨rfl, rfl⟩
    cases h : p.token.isPunctuator c with
    | true => exact htaken h
    | false => exact hleft h

theorem acceptWord {f : Bool → Reader β}
    (htaken : p.token.isWord word = true → After (f true) p.behind E)
    (hleft : p.token.isWord word = false → After (f false) p E) :
    After (acceptWord word >>= f) p E := by
  refine bind (C := fun b q => b = p.token.isWord word ∧ q = if b then p.behind else p) ?_ ?_
  · unfold Reader.acceptWord
    refine atWord? ?_
    cases h : p.token.isWord word with
    | true => exact advance (pure ⟨rfl, rfl⟩)
    | false => exact pure ⟨rfl, rfl⟩
  · rintro b q ⟨rfl, rfl⟩
    cases h : p.token.isWord word with
    | true => exact htaken h
    | false => exact hleft h

/-- The usual way to go on: one way with the punctuator, another one without. -/
theorem ifAccept {x y : Reader β} (hx : p.token.isPunctuator c = true → After x p.behind E)
    (hy : p.token.isPunctuator c = false → After y p E) :
    After (Reader.accept c >>= fun b => if b = true then x else y) p E :=
  accept (fun h => by simpa using hx h) fun h => by simpa using hy h

theorem ifAcceptWord {x y : Reader β} (hx : p.token.isWord word = true → After x p.behind E)
    (hy : p.token.isWord word = false → After y p E) :
    After (Reader.acceptWord word >>= fun b => if b = true then x else y) p E :=
  acceptWord (fun h => by simpa using hx h) fun h => by simpa using hy h

theorem ifAt {x y : Reader β} (hx : p.token.isPunctuator c = true → After x p E)
    (hy : p.token.isPunctuator c = false → After y p E) :
    After (Reader.at? c >>= fun b => if b = true then x else y) p E :=
  at? (ite hx fun h => hy (Bool.not_eq_true _ ▸ h))

theorem ifAtWord {x y : Reader β} (hx : p.token.isWord word = true → After x p E)
    (hy : p.token.isWord word = false → After y p E) :
    After (Reader.atWord? word >>= fun b => if b = true then x else y) p E :=
  atWord? (ite hx fun h => hy (Bool.not_eq_true _ ▸ h))

theorem expect (h : p.token.isPunctuator c = true → After (f p.token) p.behind E) :
    After (expect c >>= f) p E := by
  refine bind (C := fun t q => p.token.isPunctuator c = true ∧ t = p.token ∧ q = p.behind) ?_ ?_
  · unfold Reader.expect
    refine at? (ite (fun hc => ?_) fun _ => fail _)
    exact fun notes t q ht => by
      cases ht
      exact ⟨hc, rfl, rfl⟩
  · rintro t q ⟨hc, rfl, rfl⟩
    exact h hc

theorem expectWord (h : p.token.isWord word = true → After (f p.token) p.behind E) :
    After (expectWord word >>= f) p E := by
  refine bind (C := fun t q => p.token.isWord word = true ∧ t = p.token ∧ q = p.behind) ?_ ?_
  · unfold Reader.expectWord
    refine atWord? (ite (fun hc => ?_) fun _ => fail _)
    exact fun notes t q ht => by
      cases ht
      exact ⟨hc, rfl, rfl⟩
  · rintro t q ⟨hc, rfl, rfl⟩
    exact h hc

/-- The end of a statement takes a semicolon or nothing. -/
theorem endStatement {f : Unit → Reader β}
    (htaken : p.token.isPunctuator .semicolon = true → After (f ()) p.behind E)
    (hleft : After (f ()) p E) : After (endStatement >>= f) p E := by
  refine bind (C := fun _ q =>
    (p.token.isPunctuator .semicolon = true ∧ q = p.behind) ∨ q = p) ?_ ?_
  · unfold Reader.endStatement
    refine token (ite (fun hc => ?_) fun _ => ite (fun _ => pure (.inr rfl)) fun _ => fail _)
    exact advance (pure (.inl ⟨hc, rfl⟩))
  · rintro _ q (⟨hc, rfl⟩ | rfl)
    · exact htaken hc
    · exact hleft

end

/-- The node at the end of a production. -/
theorem node {C : Node → Place → Prop} {start : Nat} {kind : Kind} {children : List Node}
    (h : C (.mk kind ⟨start, p.lastStop⟩ children) p) : After (node start kind children) p C := by
  intro notes n q hn
  cases hn
  exact h

/-! ## Repetitions -/

/-- A repetition keeps an invariant of its state and of the place where it stands. -/
theorem iterate {step : σ → Reader (σ ⊕ α)} {init : σ} (I : σ → Place → Prop) (hinit : I init p)
    (hstep : ∀ s q, I s q → After (step s) q fun r => Sum.elim I C r) :
    After (iterate step init) p C := by
  have hgo (n : Nat) : ∀ s q, I s q → After (iterate.go step n s) q C := by
    induction n with
    | zero =>
      intro s q _
      exact fail _
    | succ n ih =>
      intro s q hs
      refine (hstep s q hs).bind fun r q' hr => ?_
      cases r with
      | inl s' => exact ih s' q' hr
      | inr a => exact pure hr
  exact hgo p.bound init p hinit

theorem itemsUntil {C : List Node → Place → Prop} {close : Punctuator} {item : Reader Node}
    (I : List Node → Place → Prop) (hinit : I [] p)
    (hitem : ∀ ns q, I ns q → q.token.isPunctuator close = false →
      After item q fun n r => I (ns ++ [n]) r)
    (hclose : ∀ ns q, I ns q → q.token.isPunctuator close = true → C ns q.behind) :
    After (itemsUntil close item) p C := by
  refine iterate (fun ns q => I ns.reverse q) hinit fun ns q hI => ?_
  refine ifAccept (fun h => pure (hclose _ q hI h)) fun h => ?_
  refine (hitem _ q hI h).bind fun n r hn => pure ?_
  show I (n :: ns).reverse r
  rwa [List.reverse_cons]

/-- A list with commas keeps an invariant of the items so far, and of whether a comma has been taken
behind them. -/
theorem commaList {C : List Node × Bool → Place → Prop} {close : Punctuator} {item : Reader Node}
    (I : List Node → Bool → Place → Prop) (hinit : I [] false p)
    (hitem : ∀ ns comma q, I ns comma q → q.token.isPunctuator close = false →
      After item q fun n r => (r.token.isPunctuator .comma = true → I (ns ++ [n]) true r.behind)
        ∧ (r.token.isPunctuator close = true → C (ns ++ [n], false) r.behind))
    (hclose : ∀ ns comma q, I ns comma q → q.token.isPunctuator close = true → C (ns, comma) q.behind) :
    After (commaList close item) p C := by
  refine iterate (fun s q => I s.1.reverse s.2 q) hinit fun s q hI => ?_
  obtain ⟨ns, comma⟩ := s
  refine ifAccept (fun h => pure (hclose _ _ q hI h)) fun h => ?_
  refine (hitem _ _ q hI h).bind fun n r hn => ?_
  refine ifAccept (fun hcomma => pure ?_) fun _ => expect fun hend => pure ?_
  · show I (n :: ns).reverse true r.behind
    rw [List.reverse_cons]
    exact hn.1 hcomma
  · show C ((n :: ns).reverse, false) r.behind
    rw [List.reverse_cons]
    exact hn.2 hend

end After

end Reader

end EditionCheck.Script
