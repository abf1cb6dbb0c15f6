import EditionCheck.Script.Reading

/-!
# What readers give

A statement about every result of a reader, wherever it stands and if it gives one at all. The rules
follow the ways in which productions are written: one reader after another, a repetition, and a list
between punctuators.

* `Yields x P` — every result of the reader `x` has the property `P`;
* `Yields.bind`, `Yields.skip` — the rules for sequences;
* `Yields.iterate` — the rule for repetitions, with an invariant of the state between two steps;
* `Yields.itemsUntil`, `Yields.commaList` — lists of items that all have a property.
-/

set_option autoImplicit false

namespace EditionCheck.Script.Reader

variable {α β σ : Type} {P Q : α → Prop}

/-- Every result of a reader has a property. -/
def Yields (x : Reader α) (P : α → Prop) : Prop := ∀ p notes a q, (x p notes).1 = .ok (a, q) → P a

namespace Yields

/-! ## Sequences -/

theorem pure {a : α} (h : P a) : Yields (pure a) P := by
  intro p notes b q hb
  cases hb
  exact h

theorem throw (e : SyntaxError) : Yields (throw e : Reader α) P := by
  intro p notes a q ha
  cases ha

theorem mono {x : Reader α} (hx : Yields x P) (h : ∀ a, P a → Q a) : Yields x Q :=
  fun p notes a q ha => h a (hx p notes a q ha)

/-- What follows may rely on the property of the result before it. -/
theorem bind {x : Reader α} {f : α → Reader β} {R : β → Prop} (hx : Yields x P)
    (hf : ∀ a, P a → Yields (f a) R) : Yields (x >>= f) R := by
  intro p notes b r hb
  rw [run_bind] at hb
  have hx := hx p notes
  generalize x p notes = s at hb hx
  obtain ⟨result, notes'⟩ := s
  cases result with
  | error e => cases hb
  | ok result =>
    obtain ⟨a, q⟩ := result
    exact hf a (hx a q rfl) q notes' b r hb

/-- Nothing needs to be known of a result that does not matter. -/
theorem skip {x : Reader α} {f : α → Reader β} {R : β → Prop} (hf : ∀ a, Yields (f a) R) :
    Yields (x >>= f) R := by
  have hany : Yields x fun _ => True := fun _ _ _ _ _ => trivial
  exact hany.bind fun a _ => hf a

theorem ite {x y : Reader α} {c : Prop} [Decidable c] (hx : Yields x P) (hy : Yields y P) :
    Yields (if c then x else y) P := by
  split
  · exact hx
  · exact hy

theorem fail (fault : SyntaxFault) : Yields (fail fault : Reader α) P := skip fun _ => throw _

theorem failAt (fault : SyntaxFault) (offset : Nat) : Yields (failAt fault offset : Reader α) P :=
  throw _

/-! ## Repetitions -/

theorem iterate {step : σ → Reader (σ ⊕ α)} {init : σ} (I : σ → Prop) (hinit : I init)
    (hstep : ∀ s, I s → Yields (step s) (Sum.elim I P)) : Yields (iterate step init) P := by
  have hgo (n : Nat) : ∀ s, I s → Yields (iterate.go step n s) P := by
    induction n with
    | zero =>
      intro s _
      exact fail _
    | succ n ih =>
      intro s hs
      refine (hstep s hs).bind fun r hr => ?_
      cases r with
      | inl s' => exact ih s' hr
      | inr a => exact pure hr
  exact skip fun p => hgo p.bound init hinit

theorem itemsUntil {item : Reader Node} {P : Node → Prop} (close : Punctuator) (h : Yields item P) :
    Yields (itemsUntil close item) fun ns => ∀ n ∈ ns, P n := by
  refine iterate (fun ns => ∀ n ∈ ns, P n) (fun n hn => absurd hn List.not_mem_nil) fun ns hns => ?_
  refine skip fun closes => ?_
  cases closes with
  | true => exact pure fun n hn => hns n (List.mem_reverse.1 hn)
  | false => exact h.bind fun n hn => pure (List.forall_mem_cons.2 ⟨hn, hns⟩)

theorem commaList {item : Reader Node} {P : Node → Prop} (close : Punctuator) (h : Yields item P) :
    Yields (commaList close item) fun r => ∀ n ∈ r.1, P n := by
  refine iterate (fun s => ∀ n ∈ s.1, P n) (fun n hn => absurd hn List.not_mem_nil) fun s hs => ?_
  obtain ⟨ns, comma⟩ := s
  refine skip fun closes => ?_
  cases closes with
  | true => exact pure fun n hn => hs n (List.mem_reverse.1 hn)
  | false =>
    refine h.bind fun n hn => ?_
    have hitems : ∀ m ∈ n :: ns, P m := List.forall_mem_cons.2 ⟨hn, hs⟩
    refine skip fun more => ?_
    cases more with
    | true => exact pure hitems
    | false => exact skip fun _ => pure fun m hm => hitems m (List.mem_reverse.1 hm)

/-! ## Nodes -/

/-- The node at the end of a production has its kind and children, and some span. -/
theorem node {P : Node → Prop} {start : Nat} {kind : Kind} {children : List Node}
    (h : ∀ span, P (.mk kind span children)) : Yields (node start kind children) P :=
  skip fun span => pure (h span)

end Yields

end EditionCheck.Script.Reader
