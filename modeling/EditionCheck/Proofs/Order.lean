import EditionCheck.Script.Node

/-!
# Trees whose nodes begin in order

The walk of a tree meets a parent before its children and the children in turn. In the tree of a script
it meets no node that begins in front of one that it has met before.

* `Node.Ordered` — the nodes of a row of trees begin in order between two offsets;
* `ordered_append` — the rule for rows one behind the other;
* `Ordered.nest`, `Ordered.wrap`, `Ordered.lift` — the rules for putting a row into a node and for taking
  it out again;
* `Ordered.le_of_preorder` — the nodes that the walk meets later do not begin earlier.
-/

set_option autoImplicit false

namespace EditionCheck.Script.Node

open EditionCheck.Text

/-- The nodes of a row of trees, a parent before its children, begin in order: none in front of the first
offset, and none behind the last one. -/
inductive Ordered : Nat → List Node → Nat → Prop
  | nil {lo hi : Nat} : lo ≤ hi → Ordered lo [] hi
  | cons {lo mid hi : Nat} {kind : Kind} {span : Span} {cs ns : List Node} :
      lo ≤ span.start → Ordered span.start cs mid → Ordered mid ns hi →
        Ordered lo (mk kind span cs :: ns) hi

variable {lo lo' mid hi hi' : Nat} {kind kind' : Kind} {span span' : Span} {n : Node}
  {ns ms cs : List Node}

@[simp] theorem ordered_nil : Ordered lo [] hi ↔ lo ≤ hi := by
  constructor
  · intro h
    cases h with
    | nil hle => exact hle
  · exact .nil

@[simp] theorem ordered_mk :
    Ordered lo (mk kind span cs :: ns) hi
      ↔ lo ≤ span.start ∧ ∃ mid, Ordered span.start cs mid ∧ Ordered mid ns hi := by
  constructor
  · intro h
    cases h with
    | cons hlo hcs hns => exact ⟨hlo, _, hcs, hns⟩
  · rintro ⟨hlo, mid, hcs, hns⟩
    exact .cons hlo hcs hns

theorem Ordered.le (h : Ordered lo ns hi) : lo ≤ hi := by
  induction h with
  | nil hle => exact hle
  | cons hlo _ _ ihcs ihns => exact Nat.le_trans hlo (Nat.le_trans ihcs ihns)

theorem Ordered.from_le (h : Ordered lo ns hi) (hle : lo' ≤ lo) : Ordered lo' ns hi := by
  cases h with
  | nil h => exact .nil (Nat.le_trans hle h)
  | cons hlo hcs hns => exact .cons (Nat.le_trans hle hlo) hcs hns

theorem Ordered.to_le (h : Ordered lo ns hi) (hle : hi ≤ hi') : Ordered lo ns hi' := by
  induction h with
  | nil h => exact .nil (Nat.le_trans h hle)
  | cons hlo hcs _ _ ihns => exact .cons hlo hcs (ihns hle)

/-- A row behind a row: there is an offset between the two. -/
theorem ordered_append :
    Ordered lo (ns ++ ms) hi ↔ ∃ mid, Ordered lo ns mid ∧ Ordered mid ms hi := by
  induction ns generalizing lo with
  | nil =>
    constructor
    · intro h
      exact ⟨lo, .nil (Nat.le_refl lo), h⟩
    · rintro ⟨mid, hle, h⟩
      exact h.from_le hle.le
  | cons n ns ih =>
    obtain ⟨kind, span, cs⟩ := n
    rw [List.cons_append, ordered_mk]
    constructor
    · rintro ⟨hlo, mid, hcs, h⟩
      obtain ⟨mid', hns, hms⟩ := ih.1 h
      exact ⟨mid', .cons hlo hcs hns, hms⟩
    · rintro ⟨mid, h, hms⟩
      obtain ⟨hlo, mid', hcs, hns⟩ := ordered_mk.1 h
      exact ⟨hlo, mid', hcs, ih.2 ⟨mid, hns, hms⟩⟩

theorem Ordered.append (h : Ordered lo ns mid) (h' : Ordered mid ms hi) : Ordered lo (ns ++ ms) hi :=
  ordered_append.2 ⟨mid, h, h'⟩

/-! ## Nodes around a row -/

/-- A leaf begins between two offsets. -/
theorem ordered_leaf (hlo : lo ≤ span.start) (hhi : span.start ≤ hi) :
    Ordered lo [mk kind span []] hi := .cons hlo (.nil hhi) (.nil (Nat.le_refl hi))

/-- A row is put into a node that begins where the row may begin. -/
theorem Ordered.nest (h : Ordered span.start ns hi) (hlo : lo ≤ span.start) :
    Ordered lo [mk kind span ns] hi := .cons hlo h (.nil (Nat.le_refl hi))

/-- A row is put into a node that begins where its first tree does. -/
theorem Ordered.wrap (h : Ordered lo (n :: ns) hi) (hstart : span.start = n.span.start) :
    Ordered lo [mk kind span (n :: ns)] hi := by
  obtain ⟨k, s, cs⟩ := n
  obtain ⟨hlo, mid, hcs, hns⟩ := ordered_mk.1 h
  have hrow : Ordered span.start (mk k s cs :: ns) hi := .cons (Nat.le_of_eq hstart) hcs hns
  exact hrow.nest (hstart ▸ hlo)

/-- The children of a node stand for it. -/
theorem Ordered.lift (h : Ordered lo [mk kind span ns] hi) : Ordered lo ns hi := by
  obtain ⟨hlo, mid, hns, hle⟩ := ordered_mk.1 h
  exact (hns.to_le hle.le).from_le hlo

/-- Other children stand in a node of the same span. -/
theorem Ordered.replace (h : Ordered lo [mk kind span ns] hi)
    (hms : ∀ lo hi, Ordered lo ns hi → Ordered lo ms hi) : Ordered lo [mk kind' span ms] hi := by
  obtain ⟨hlo, mid, hns, hle⟩ := ordered_mk.1 h
  exact ((hms _ _ hns).to_le hle.le).nest hlo

/-! ## The walk -/

/-- No node that the walk meets begins in front of the first offset or behind the last one, and none
begins in front of one that the walk meets before it. -/
theorem Ordered.starts (h : Ordered lo ns hi) :
    (∀ m ∈ ns.flatMap preorder, lo ≤ m.span.start ∧ m.span.start ≤ hi)
      ∧ (ns.flatMap preorder).Pairwise fun m k => m.span.start ≤ k.span.start := by
  induction h with
  | nil => exact ⟨fun _ hm => absurd hm List.not_mem_nil, .nil⟩
  | @cons lo mid hi kind span cs ns hlo hcs hns ihcs ihns =>
    obtain ⟨hcsBounds, hcsPairs⟩ := ihcs
    obtain ⟨hnsBounds, hnsPairs⟩ := ihns
    have hmid : span.start ≤ mid := hcs.le
    rw [List.flatMap_cons, preorder_eq]
    have hfirst : ∀ m ∈ mk kind span cs :: cs.flatMap preorder,
        span.start ≤ m.span.start ∧ m.span.start ≤ mid :=
      List.forall_mem_cons.2 ⟨⟨Nat.le_refl _, hmid⟩, hcsBounds⟩
    refine ⟨?_, List.pairwise_append.2 ⟨?_, hnsPairs, ?_⟩⟩
    · intro m hm
      rcases List.mem_append.1 hm with hm | hm
      · exact ⟨Nat.le_trans hlo (hfirst m hm).1, Nat.le_trans (hfirst m hm).2 hns.le⟩
      · exact ⟨Nat.le_trans (Nat.le_trans hlo hmid) (hnsBounds m hm).1, (hnsBounds m hm).2⟩
    · exact List.pairwise_cons.2 ⟨fun m hm => (hcsBounds m hm).1, hcsPairs⟩
    · exact fun m hm k hk => Nat.le_trans (hfirst m hm).2 (hnsBounds k hk).1

/-- A tree of a row begins between the two offsets. -/
theorem Ordered.start_of_mem {m : Node} (h : Ordered lo ns hi) (hm : m ∈ ns) :
    lo ≤ m.span.start ∧ m.span.start ≤ hi :=
  h.starts.1 m (List.mem_flatMap.2 ⟨m, hm, self_mem_preorder m⟩)

/-- No tree of a row begins in front of the first one. -/
theorem Ordered.head_le {m : Node} (h : Ordered lo (n :: ns) hi) (hm : m ∈ n :: ns) :
    n.span.start ≤ m.span.start := by
  obtain ⟨kind, span, cs⟩ := n
  obtain ⟨-, mid, hcs, hns⟩ := ordered_mk.1 h
  rcases List.mem_cons.1 hm with rfl | hm
  · exact Nat.le_refl _
  · exact Nat.le_trans hcs.le (hns.start_of_mem hm).1

/-- A node that the walk of a tree meets later does not begin earlier. -/
theorem Ordered.le_of_preorder {front back : List Node} {m k : Node} (h : Ordered lo [n] hi)
    (hsplit : n.preorder = front ++ m :: back) (hk : k ∈ m :: back) : m.span.start ≤ k.span.start := by
  have hpairs := h.starts.2
  rw [List.flatMap_singleton, hsplit] at hpairs
  have hback := (List.pairwise_append.1 hpairs).2.1
  rcases List.mem_cons.1 hk with rfl | hk
  · exact Nat.le_refl _
  · exact (List.pairwise_cons.1 hback).1 k hk

/-- The nodes of a tree of a row begin in order. -/
theorem Ordered.of_mem (h : Ordered lo ns hi) {m : Node} (hm : m ∈ ns.flatMap preorder) :
    ∃ lo' hi', Ordered lo' [m] hi' := by
  induction h with
  | nil => exact absurd hm List.not_mem_nil
  | @cons lo mid hi kind span cs ns hlo hcs _ ihcs ihns =>
    rw [List.flatMap_cons, preorder_eq, List.mem_append] at hm
    rcases hm with hm | hm
    · rcases List.mem_cons.1 hm with rfl | hm
      · exact ⟨_, _, hcs.nest hlo⟩
      · exact ihcs hm
    · exact ihns hm

/-- A child does not begin in front of its parent. -/
theorem Ordered.start_le_child {m : Node} (h : Ordered lo [n] hi) (hm : m ∈ n.children) :
    n.span.start ≤ m.span.start := by
  obtain ⟨kind, span, cs⟩ := n
  obtain ⟨-, mid, hcs, -⟩ := ordered_mk.1 h
  exact (hcs.start_of_mem hm).1

end EditionCheck.Script.Node
