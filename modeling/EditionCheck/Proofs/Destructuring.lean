import EditionCheck.Proofs.Versions
import EditionCheck.Proofs.Whole.Statement

/-!
# Destructuring assignments

Where a script assigns to a pattern, and which of these places the walk for newer syntax reports.

* `exists_assignsTo` — an assignment pattern, and every part of one, belongs to an assignment or to a
  loop over keys or values that has the pattern for its target;
* `newer_of_destructures` — an assignment to a pattern, and a loop over values with one, requires a
  feature that no edition before ES2015 has; a loop over keys requires nothing;
* `destructuring_reported` — so a script with an assignment pattern outside of the heads of loops over
  keys is always reported, and this is all that assignment patterns contribute.
-/

set_option autoImplicit false

namespace EditionCheck.Script.Node

/-! ## What a pattern belongs to -/

/-- A node stands in a pattern: it is the pattern, or a part of one of its parts. -/
inductive Within (p : Node) : Node → Prop
  | self : Within p p
  | part {c q : Node} : Within p c → c ∈ q.children → q.kind.isTargetPart → Within p q

/-- A node assigns to a pattern in which another node stands. -/
structure AssignsTo (n p : Node) : Prop where
  assigns : n.kind.assigns
  pattern : ∃ head, n.children.head? = some head ∧ head.kind.isAssignmentPattern ∧ Within p head

/-- Whether a node assigns to a pattern. -/
def destructures (n : Node) : Bool :=
  n.kind.assigns && n.children.head?.any fun c => c.kind.isAssignmentPattern

theorem AssignsTo.destructures {n p : Node} (h : n.AssignsTo p) : n.destructures := by
  obtain ⟨head, hhead, hpattern, -⟩ := h.pattern
  rw [Node.destructures, h.assigns, hhead]
  exact hpattern

theorem isTargetPart_of_isAssignmentPattern {k : Kind} (h : k.isAssignmentPattern) :
    k.isTargetPart := by
  cases k <;> first | rfl | cases h

/-- A child of a node that is no part of a pattern, but a part of one itself, is what the node assigns
to. -/
theorem assigns_of_seats {n c : Node} (h : n.Seats) (hn : n.kind.isTargetPart = false)
    (hc : c ∈ n.children) (hpart : c.kind.isTargetPart) :
    n.kind.assigns ∧ n.children.head? = some c := by
  have hplain : c ∉ n.bystanders := by
    intro hb
    exact absurd ((h.bystander c hb).symm.trans hpart) Bool.false_ne_true
  rw [bystanders_eq hn] at hplain
  cases hassigns : n.kind.assigns with
  | false =>
    rw [hassigns] at hplain
    exact absurd hc hplain
  | true =>
    rw [hassigns] at hplain
    refine ⟨rfl, ?_⟩
    cases hcs : n.children with
    | nil =>
      rw [hcs] at hc
      exact absurd hc List.not_mem_nil
    | cons head rest =>
      rw [hcs] at hc hplain
      rcases List.mem_cons.1 hc with rfl | hrest
      · rfl
      · exact absurd hrest hplain

/-- Below a tree in order, a part of an assignment pattern leads up to the root through other parts, or
to a node that assigns to the pattern. -/
theorem within_or_assignsTo {n p : Node} (hn : n.Orderly) (hp : p ∈ n.preorder)
    (hpart : p.kind.isTargetPart) :
    (n.kind.isTargetPart ∧ Within p n) ∨ ∃ m ∈ n.preorder, m.AssignsTo p := by
  induction n with
  | mk kind span cs ih =>
    rcases mem_preorder_iff.1 hp with rfl | ⟨c, hc, hpc⟩
    · exact .inl ⟨hpart, .self⟩
    · rcases ih c hc (hn.child hc) hpc with ⟨hcpart, hwithin⟩ | ⟨m, hm, hassigns⟩
      · cases hk : kind.isTargetPart with
        | true => exact .inl ⟨hk, .part hwithin hc hk⟩
        | false =>
          obtain ⟨hassigns, hhead⟩ := assigns_of_seats hn.seats hk hc hcpart
          refine .inr ⟨_, self_mem_preorder _, hassigns, c, hhead, ?_, hwithin⟩
          exact hn.seats.pattern hk c hc hcpart
      · exact .inr ⟨m, mem_preorder_iff.2 (.inr ⟨c, hc, hm⟩), hassigns⟩

/-- Every part of an assignment pattern in a script belongs to a node that assigns to the pattern. -/
theorem exists_assignsTo {n p : Node} (hn : n.Whole) (hp : p ∈ n.preorder)
    (hpart : p.kind.isTargetPart) : ∃ m ∈ n.preorder, m.AssignsTo p := by
  rcases within_or_assignsTo hn.orderly hp hpart with ⟨hk, -⟩ | h
  · exact absurd (hn.kind.symm.trans hk) Bool.false_ne_true
  · exact h

end EditionCheck.Script.Node

namespace EditionCheck

open EditionCheck.Scan EditionCheck.Script

/-! ## What assignments to patterns require -/

variable {source : List Char} {target : Edition} {n : Node}

theorem mem_targetRequirements {span : Text.Span} {head : Node}
    (h : head.kind.isAssignmentPattern) :
    ⟨.destructuring, span⟩ ∈ targetRequirements span (some head) := by
  obtain ⟨kind, s, parts⟩ := head
  cases kind with
  | arrayTarget => exact List.mem_singleton.2 rfl
  | objectTarget => exact List.mem_cons_self
  | _ => cases h

/-- A loop over keys requires nothing itself, whatever it assigns to. -/
theorem ownRequirements_forIn (h : n.kind = .forIn) : ownRequirements source n = [] := by
  simp only [ownRequirements, h]

theorem newer_of_destructures (h : n.destructures) (hkind : n.kind ≠ .forIn)
    (hold : target < .es2015) : ∃ r ∈ ownRequirements source n, target < r.feature.edition := by
  obtain ⟨hassigns, hpattern⟩ := Bool.and_eq_true_iff.1 h
  unfold Kind.assigns at hassigns
  split at hassigns
  · next hk =>
    obtain ⟨head, hhead, hpattern⟩ := (Option.any_eq_true _ _).1 hpattern
    refine ⟨⟨.destructuring, n.span⟩, ?_, hold⟩
    simp only [ownRequirements, hk, hhead]
    exact List.mem_append_right _ (mem_targetRequirements hpattern)
  · next hk => exact absurd hk hkind
  · next isAwait hk =>
    refine ⟨⟨if isAwait then .forAwait else .forOf, n.span⟩, ?_, ?_⟩
    · simp only [ownRequirements, hk]
      exact List.mem_singleton.2 rfl
    · cases isAwait with
      | false => exact hold
      | true =>
        have hlater : Edition.es2015 < Feature.forAwait.edition := by decide
        exact Nat.lt_trans hold hlater
  · cases hassigns

/-- Which scripts are reported for a target before ES2015: those with an assignment to a pattern or a
loop over values with one, and those in which anything else is too new. -/
theorem isSome_firstNewer_iff_destructures (source : List Char) (program : Node)
    (hold : target < .es2015) :
    (firstNewer source target program).isSome ↔
      (∃ n ∈ program.preorder, n.destructures ∧ n.kind ≠ .forIn)
      ∨ ∃ n ∈ program.preorder, ¬ n.destructures
          ∧ ∃ r ∈ ownRequirements source n, target < r.feature.edition := by
  rw [isSome_firstNewer_iff]
  constructor
  · rintro ⟨n, hn, r, hr, hlt⟩
    by_cases hd : n.destructures
    · by_cases hk : n.kind = .forIn
      · rw [ownRequirements_forIn hk] at hr
        exact absurd hr List.not_mem_nil
      · exact .inl ⟨n, hn, hd, hk⟩
    · exact .inr ⟨n, hn, hd, r, hr, hlt⟩
  · rintro (⟨n, hn, hd, hk⟩ | ⟨n, hn, -, hr⟩)
    · exact ⟨n, hn, newer_of_destructures hd hk hold⟩
    · exact ⟨n, hn, hr⟩

/-- **Assignments to patterns are reported, but for the heads of loops over keys.** In a script, every
assignment pattern belongs to a node that assigns to it. For a target before ES2015, a script with a
pattern that belongs to no loop over keys is reported; and a script is reported just when something else
than a loop over keys assigns to a pattern, or something that assigns to none is too new. If the script
has no early error, this decides whether it passes. -/
theorem destructuring_reported (text : String) {program : Node}
    (hparse : parse text.toList = .ok program) {target : Edition} (hold : target < .es2015) :
    (∀ p ∈ program.preorder, p.kind.isAssignmentPattern → ∃ n ∈ program.preorder, n.AssignsTo p)
      ∧ ((∃ p ∈ program.preorder, p.kind.isAssignmentPattern
            ∧ ¬ ∃ loop ∈ program.preorder, loop.kind = .forIn ∧ loop.AssignsTo p) →
          (firstNewer text.toList target program).isSome)
      ∧ ((firstNewer text.toList target program).isSome ↔
          (∃ n ∈ program.preorder, n.destructures ∧ n.kind ≠ .forIn)
          ∨ ∃ n ∈ program.preorder, ¬ n.destructures
              ∧ ∃ r ∈ ownRequirements text.toList n, target < r.feature.edition)
      ∧ (earlyErrors program = [] → ∀ v : Grammar, v.edition = target →
          (validate text v ≠ .pass ↔ (firstNewer text.toList target program).isSome)) := by
  have hwhole := whole_of_parse hparse
  have hassigned (p : Node) (hp : p ∈ program.preorder) (hpattern : p.kind.isAssignmentPattern) :
      ∃ n ∈ program.preorder, n.AssignsTo p :=
    Node.exists_assignsTo hwhole hp (Node.isTargetPart_of_isAssignmentPattern hpattern)
  have hiff := isSome_firstNewer_iff_destructures text.toList program hold
  refine ⟨hassigned, ?_, hiff, ?_⟩
  · rintro ⟨p, hp, hpattern, hloop⟩
    obtain ⟨n, hn, hassigns⟩ := hassigned p hp hpattern
    refine hiff.2 (.inl ⟨n, hn, hassigns.destructures, fun hk => ?_⟩)
    exact hloop ⟨n, hn, hk, hassigns⟩
  · intro hearly v hv
    subst hv
    rw [ne_eq, validate_eq, Parser.script.validate_pass_iff hparse hearly, ← ne_eq,
      Option.ne_none_iff_isSome]

/-- An assignment to a pattern is reported for ES5. -/
theorem destructuring_reported_assignment :
    ∃ program, parse "[a] = b".toList = .ok program ∧ Edition.es5 < .es2015
      ∧ (firstNewer "[a] = b".toList .es5 program).isSome := by
  have hold : Edition.es5 < .es2015 := by decide
  have hread : (parse "[a] = b".toList).toOption.any (fun program =>
      program.preorder.any fun n => n.destructures && n.kind != .forIn) := by decide +kernel
  cases hparse : parse "[a] = b".toList with
  | error e =>
    rw [hparse] at hread
    cases hread
  | ok program =>
    rw [hparse] at hread
    obtain ⟨n, hn, hassigns⟩ := List.any_eq_true.1 hread
    obtain ⟨hassigns, hkind⟩ := Bool.and_eq_true_iff.1 hassigns
    obtain ⟨-, -, hiff, -⟩ := destructuring_reported "[a] = b" hparse hold
    exact ⟨program, rfl, hold, hiff.2 (.inl ⟨n, hn, hassigns, bne_iff_ne.1 hkind⟩)⟩

/-- A loop over keys may assign to a pattern without being reported, and the script passes. -/
theorem keyLoop_pattern_not_reported :
    validate "for ([a] in b) ;" .v5 = .pass
      ∧ ¬ ∀ (text : String) (program : Node) (target : Edition), parse text.toList = .ok program →
          (∃ p ∈ program.preorder, p.kind.isAssignmentPattern) → target < .es2015 →
            (firstNewer text.toList target program).isSome := by
  refine ⟨by decide +kernel, fun hall => ?_⟩
  have hread : (parse "for ([a] in b) ;".toList).toOption.any (fun program =>
      program.preorder.any (fun p => p.kind.isAssignmentPattern)
        && (firstNewer "for ([a] in b) ;".toList .es5 program).isNone) := by decide +kernel
  cases hparse : parse "for ([a] in b) ;".toList with
  | error e =>
    rw [hparse] at hread
    cases hread
  | ok program =>
    rw [hparse] at hread
    obtain ⟨hpattern, hnone⟩ := Bool.and_eq_true_iff.1 hread
    obtain ⟨p, hp, hp'⟩ := List.any_eq_true.1 hpattern
    have hsome := hall _ program .es5 hparse ⟨p, hp, hp'⟩ (by decide)
    rw [Option.isNone_iff_eq_none.1 hnone] at hsome
    cases hsome

end EditionCheck
