import EditionCheck.Script.Pattern

/-!
# Where the parts of assignment patterns stand

Patterns that values are assigned to are made from expressions that have been read already, so their
nodes could stand anywhere in a tree. `Node.Orderly` says that they do not: below every node, the parts
of an assignment pattern stand in other parts of it, or the whole pattern is the first child of an
assignment or of a loop over keys or values.

* `orderly_targets`, `target_of_toTarget?` — an expression that is read again as a target keeps this
  order, and the target is a pattern or no part of one;
* `whole_of_toBinding?` — what is read again as a pattern that declares names has no assignment pattern
  left on top, also where it had been read as a target before;
* `whole_of_toParameters?` — likewise for the parameters of an arrow function.
-/

set_option autoImplicit false

namespace EditionCheck.Script

/-! ## Kinds of nodes -/

namespace Kind

/-- Whether a kind is an assignment pattern. -/
def isAssignmentPattern : Kind → Bool
  | objectTarget => true
  | arrayTarget => true
  | _ => false

/-- Whether a kind is an assignment pattern or a part of one that occurs nowhere else. -/
def isTargetPart : Kind → Bool
  | objectTarget => true
  | arrayTarget => true
  | targetProperty _ _ => true
  | defaultedTarget => true
  | restTarget => true
  | _ => false

/-- Whether a kind assigns to its first child. -/
def assigns : Kind → Bool
  | assignment .assign => true
  | forIn => true
  | forOf _ => true
  | _ => false

/-- Whether a kind is an expression that no `=` is the operator of. -/
def isOperand : Kind → Bool
  | assignment .assign => false
  | k => !k.isTargetPart

theorem isTargetPart_of_isOperand {k : Kind} (h : k.isOperand) : k.isTargetPart = false := by
  unfold isOperand at h
  split at h
  · cases h
  · exact Bool.not_eq_true' _ ▸ h

end Kind

/-! ## Nodes in order -/

namespace Node

/-- The children of a node that are no parts of an assignment pattern. -/
def bystanders (n : Node) : List Node :=
  match n.kind with
  | .objectTarget => []
  | .arrayTarget => []
  | .restTarget => []
  | .targetProperty _ _ => n.children.dropLast
  | .defaultedTarget => n.children.tail
  | k => if k.assigns then n.children.tail else n.children

/-- The parts of assignment patterns among the children of a node stand where they may. -/
structure Seats (n : Node) : Prop where
  bystander : ∀ c ∈ n.bystanders, c.kind.isTargetPart = false
  pattern : n.kind.isTargetPart = false →
    ∀ c ∈ n.children, c.kind.isTargetPart → c.kind.isAssignmentPattern

/-- The parts of assignment patterns stand where they may in a whole tree. -/
def Orderly (n : Node) : Prop := ∀ m ∈ n.preorder, m.Seats

/-- A tree in order whose root is no part of an assignment pattern. -/
structure Whole (n : Node) : Prop where
  orderly : n.Orderly
  kind : n.kind.isTargetPart = false

/-- A row of such trees. -/
def AllWhole (ns : List Node) : Prop := ∀ n ∈ ns, n.Whole

/-- A tree in order whose root can be an operand. -/
structure Operand (n : Node) : Prop where
  orderly : n.Orderly
  kind : n.kind.isOperand

/-- A tree in order that a value can be assigned to. -/
structure Target (n : Node) : Prop where
  orderly : n.Orderly
  kind : n.kind.isTargetPart → n.kind.isAssignmentPattern

variable {kind : Kind} {span : Text.Span} {n c t : Node} {cs ds : List Node}

theorem Operand.whole (h : n.Operand) : n.Whole := ⟨h.orderly, Kind.isTargetPart_of_isOperand h.kind⟩

theorem Whole.target (h : n.Whole) : n.Target :=
  ⟨h.orderly, fun hk => absurd (h.kind.symm.trans hk) Bool.false_ne_true⟩

@[simp] theorem allWhole_nil : AllWhole [] := fun _ h => absurd h List.not_mem_nil

@[simp] theorem allWhole_cons : AllWhole (n :: cs) ↔ n.Whole ∧ AllWhole cs := List.forall_mem_cons

@[simp] theorem allWhole_append : AllWhole (cs ++ ds) ↔ AllWhole cs ∧ AllWhole ds :=
  List.forall_mem_append

theorem allWhole_one (hn : n.Whole) : AllWhole [n] := by simpa using hn

theorem allWhole_two (hn : n.Whole) (hc : c.Whole) : AllWhole [n, c] := by simpa using ⟨hn, hc⟩

theorem allWhole_three (hn : n.Whole) (hc : c.Whole) (ht : t.Whole) : AllWhole [n, c, t] := by
  simpa using ⟨hn, hc, ht⟩

theorem AllWhole.reverse (h : AllWhole cs) : AllWhole cs.reverse :=
  fun n hn => h n (List.mem_reverse.1 hn)

/-! ## Building trees in order -/

theorem Orderly.of_children (hseats : (Node.mk kind span cs).Seats) (hcs : ∀ c ∈ cs, c.Orderly) :
    (Node.mk kind span cs).Orderly := by
  intro m hm
  rcases mem_preorder_iff.1 hm with rfl | ⟨c, hc, hm⟩
  · exact hseats
  · exact hcs c hc m hm

theorem Orderly.seats (h : n.Orderly) : n.Seats := h n (self_mem_preorder n)

theorem Orderly.child (h : n.Orderly) (hc : c ∈ n.children) : c.Orderly :=
  fun m hm => h m (mem_preorder_iff.2 (.inr ⟨c, hc, hm⟩))

theorem mem_children_of_mem_bystanders (h : c ∈ n.bystanders) : c ∈ n.children := by
  unfold bystanders at h
  split at h
  · exact absurd h List.not_mem_nil
  · exact absurd h List.not_mem_nil
  · exact absurd h List.not_mem_nil
  · exact List.dropLast_subset _ h
  · exact List.mem_of_mem_tail h
  · split at h
    · exact List.mem_of_mem_tail h
    · exact h

theorem Orderly.bystander (h : n.Orderly) (hc : c ∈ n.bystanders) : c.Whole :=
  ⟨h.child (mem_children_of_mem_bystanders hc), h.seats.bystander c hc⟩

/-- The children of a node that is no part of a pattern: the first is set apart if it is assigned to. -/
theorem bystanders_eq (hk : n.kind.isTargetPart = false) :
    n.bystanders = if n.kind.assigns then n.children.tail else n.children := by
  unfold bystanders
  split
  case h_6 => rfl
  all_goals
    next hpart =>
      rw [hpart] at hk
      cases hk

/-- Where no part of an assignment pattern stands, a tree is in order. -/
theorem AllWhole.orderly (h : AllWhole cs) : (Node.mk kind span cs).Orderly := by
  refine .of_children ⟨fun c hc => ?_, fun _ c hc hpart => ?_⟩ fun c hc => (h c hc).orderly
  · exact (h c (mem_children_of_mem_bystanders hc)).kind
  · exact absurd ((h c hc).kind.symm.trans hpart) Bool.false_ne_true

theorem AllWhole.whole (h : AllWhole cs) (hk : kind.isTargetPart = false) :
    (Node.mk kind span cs).Whole :=
  ⟨h.orderly, hk⟩

theorem AllWhole.operand (h : AllWhole cs) (hk : kind.isOperand) : (Node.mk kind span cs).Operand :=
  ⟨h.orderly, hk⟩

/-- A node that assigns to a target is in order if the rest of it is no part of a pattern. -/
theorem Target.whole (h : t.Target) (hcs : AllWhole cs) (hassigns : kind.assigns) :
    (Node.mk kind span (t :: cs)).Whole := by
  have hkind : kind.isTargetPart = false := by
    unfold Kind.assigns at hassigns
    split at hassigns <;> first | rfl | cases hassigns
  have hbystanders : (Node.mk kind span (t :: cs)).bystanders = cs := by
    exact (bystanders_eq (n := Node.mk kind span (t :: cs)) hkind).trans (if_pos hassigns)
  refine ⟨.of_children ⟨fun c hc => ?_, fun _ c hc hpart => ?_⟩ fun c hc => ?_, hkind⟩
  · rw [hbystanders] at hc
    exact (hcs c hc).kind
  · rcases List.mem_cons.1 hc with rfl | hc
    · exact h.kind hpart
    · exact absurd ((hcs c hc).kind.symm.trans hpart) Bool.false_ne_true
  · rcases List.mem_cons.1 hc with rfl | hc
    · exact h.orderly
    · exact (hcs c hc).orderly

/-- A part of an assignment pattern is in order if its bystanders are no such parts. -/
theorem Orderly.part (hk : kind.isTargetPart) (hbystanders : AllWhole (Node.mk kind span cs).bystanders)
    (hcs : ∀ c ∈ cs, c.Orderly) : (Node.mk kind span cs).Orderly := by
  refine .of_children ⟨fun c hc => (hbystanders c hc).kind, fun hpart => ?_⟩ hcs
  exact absurd (hpart.symm.trans hk) Bool.false_ne_true

theorem Orderly.allWhole (h : (Node.mk kind span cs).Orderly) (hk : kind.isTargetPart = false)
    (hassigns : kind.assigns = false) : AllWhole cs := by
  intro c hc
  refine h.bystander ?_
  rw [bystanders_eq (n := Node.mk kind span cs) hk, kind_mk, hassigns]
  exact hc

/-! ## Rows that are read item by item -/

theorem forall_mem_of_bind_cons {α : Type} {P : Node → Prop} {o : Option α}
    {os : Option (List Node)} {f : α → Node} {ts : List Node}
    (h : (o.bind fun a => os.map (f a :: ·)) = some ts) (hf : ∀ a, o = some a → P (f a))
    (hos : ∀ us, os = some us → ∀ c ∈ us, P c) : ∀ c ∈ ts, P c := by
  obtain ⟨a, ha, h⟩ := Option.bind_eq_some_iff.1 h
  obtain ⟨us, hus, rfl⟩ := Option.map_eq_some_iff.1 h
  exact List.forall_mem_cons.2 ⟨hf a ha, hos us hus⟩

theorem forall_mem_of_map_cons {P : Node → Prop} {os : Option (List Node)} {ts : List Node}
    (h : os.map (n :: ·) = some ts) (hn : P n) (hos : ∀ us, os = some us → ∀ c ∈ us, P c) :
    ∀ c ∈ ts, P c := by
  obtain ⟨us, hus, rfl⟩ := Option.map_eq_some_iff.1 h
  exact List.forall_mem_cons.2 ⟨hn, hos us hus⟩

theorem forall_mem_of_map_singleton {P : Node → Prop} {o : Option Node} {f : Node → Node}
    {ts : List Node} (h : (o.map fun a => [f a]) = some ts) (hf : ∀ a, o = some a → P (f a)) :
    ∀ c ∈ ts, P c := by
  obtain ⟨a, ha, rfl⟩ := Option.map_eq_some_iff.1 h
  exact List.forall_mem_singleton.2 (hf a ha)

theorem forall_mem_of_some_nil {P : Node → Prop} {ts : List Node} (h : some [] = some ts) :
    ∀ c ∈ ts, P c := by
  cases h
  exact fun _ hc => absurd hc List.not_mem_nil

/-! ## Targets of assignments -/

theorem whole_of_toSimpleTarget? (h : n.Whole) (ht : n.toSimpleTarget? = some t) : t.Whole := by
  unfold toSimpleTarget? at ht
  split at ht
  · cases ht
    exact (allWhole_one h).whole rfl
  · cases ht

theorem Orderly.restTarget (h : t.Orderly) : (Node.mk .restTarget span [t]).Orderly :=
  .part rfl allWhole_nil (List.forall_mem_singleton.2 h)

theorem Orderly.defaultedTarget (h : t.Orderly) (hn : n.Whole) :
    (Node.mk .defaultedTarget span [t, n]).Orderly :=
  .part rfl (allWhole_one hn) (List.forall_mem_cons.2 ⟨h, List.forall_mem_singleton.2 hn.orderly⟩)

theorem Orderly.shorthandTarget {shorthand computed : Bool} (h : t.Orderly) :
    (Node.mk (.targetProperty shorthand computed) span [t]).Orderly :=
  .part rfl allWhole_nil (List.forall_mem_singleton.2 h)

theorem Orderly.targetProperty {shorthand computed : Bool} (hn : n.Whole) (h : t.Orderly) :
    (Node.mk (.targetProperty shorthand computed) span [n, t]).Orderly :=
  .part rfl (allWhole_one hn) (List.forall_mem_cons.2 ⟨hn.orderly, List.forall_mem_singleton.2 h⟩)

theorem orderly_of_map_mk {o : Option (List Node)} (hk : kind.isAssignmentPattern)
    (ho : ∀ ts, o = some ts → ∀ c ∈ ts, c.Orderly) (ht : o.map (Node.mk kind span) = some t) :
    t.Orderly := by
  obtain ⟨ts, hts, rfl⟩ := Option.map_eq_some_iff.1 ht
  cases kind with
  | objectTarget => exact .part rfl allWhole_nil (ho ts hts)
  | arrayTarget => exact .part rfl allWhole_nil (ho ts hts)
  | _ => cases hk

/-- Reading an expression as a target keeps the order; so does reading the items of a pattern. -/
theorem orderly_targets :
    (∀ e : Node, e.Whole → ∀ t, e.toTarget? = some t → t.Orderly)
      ∧ (∀ trailing ps, AllWhole ps →
          ∀ ts, toPropertyTargets? trailing ps = some ts → ∀ t ∈ ts, t.Orderly)
      ∧ ∀ trailing es, AllWhole es →
          ∀ ts, toArrayTargets? trailing es = some ts → ∀ t ∈ ts, t.Orderly := by
  apply toTarget?.mutual_induct
  -- expressions
  case case1 =>
    intro trailing s es ih h t ht
    rw [toTarget?] at ht
    exact orderly_of_map_mk rfl (ih (h.orderly.allWhole rfl rfl)) ht
  case case2 =>
    intro trailing s ps ih h t ht
    rw [toTarget?] at ht
    exact orderly_of_map_mk rfl (ih (h.orderly.allWhole rfl rfl)) ht
  case case3 =>
    intro s cs h t ht
    rw [toTarget?] at ht
    cases ht
    exact .part rfl (fun c hc => h.orderly.bystander hc) fun c hc => h.orderly.child hc
  case case4 =>
    intro n harray hobject hassignment h t ht
    rw [toTarget?] at ht
    · exact (whole_of_toSimpleTarget? h ht).orderly
    · exact harray
    · exact hobject
    · exact hassignment
  -- properties
  case case5 =>
    intro trailing _ ts hts
    rw [toPropertyTargets?] at hts
    exact forall_mem_of_some_nil hts
  case case6 =>
    intro trailing computed s key value ps ihvalue ihps h ts hts
    obtain ⟨hp, hps⟩ := allWhole_cons.1 h
    obtain ⟨hkey, hvalue⟩ : key.Whole ∧ value.Whole := by simpa using hp.orderly.allWhole rfl rfl
    rw [toPropertyTargets?] at hts
    refine forall_mem_of_bind_cons hts (fun t ht => ?_) (ihps hps)
    exact .targetProperty hkey (ihvalue hvalue t ht)
  case case7 =>
    intro trailing computed s key value ps ihps h ts hts
    obtain ⟨hp, hps⟩ := allWhole_cons.1 h
    obtain ⟨-, hvalue⟩ : key.Whole ∧ value.Whole := by simpa using hp.orderly.allWhole rfl rfl
    rw [toPropertyTargets?] at hts
    refine forall_mem_of_bind_cons hts (fun t ht => ?_) (ihps hps)
    exact .shorthandTarget (whole_of_toSimpleTarget? hvalue ht).orderly
  case case8 =>
    intro trailing computed s key value init ps ihps h ts hts
    obtain ⟨hp, hps⟩ := allWhole_cons.1 h
    obtain ⟨-, hvalue, hinit⟩ : key.Whole ∧ value.Whole ∧ init.Whole := by
      simpa using hp.orderly.allWhole rfl rfl
    rw [toPropertyTargets?] at hts
    refine forall_mem_of_bind_cons hts (fun t ht => ?_) (ihps hps)
    exact .shorthandTarget (.defaultedTarget (whole_of_toSimpleTarget? hvalue ht).orderly hinit)
  case case9 =>
    intro trailing s e ps hmisplaced _ ts hts
    rw [toPropertyTargets?, if_pos hmisplaced] at hts
    cases hts
  case case10 =>
    intro trailing s e ps hplaced h ts hts
    have he : e.Whole := by simpa using (allWhole_cons.1 h).1.orderly.allWhole rfl rfl
    rw [toPropertyTargets?, if_neg hplaced] at hts
    refine forall_mem_of_map_singleton hts fun t ht => ?_
    exact .restTarget (whole_of_toSimpleTarget? he ht).orderly
  case case11 =>
    intro ps trailing hnil hplain hshorthand hdefaulted hspread _ ts hts
    rw [toPropertyTargets?] at hts
    · cases hts
    · exact hnil
    · exact hplain
    · exact hshorthand
    · exact hdefaulted
    · exact hspread
  -- elements
  case case12 =>
    intro trailing _ ts hts
    rw [toArrayTargets?] at hts
    exact forall_mem_of_some_nil hts
  case case13 =>
    intro trailing s cs es ih h ts hts
    obtain ⟨hhole, hes⟩ := allWhole_cons.1 h
    rw [toArrayTargets?] at hts
    exact forall_mem_of_map_cons hts hhole.orderly (ih hes)
  case case14 =>
    intro trailing s e es hmisplaced _ ts hts
    rw [toArrayTargets?, if_pos hmisplaced] at hts
    cases hts
  case case15 =>
    intro trailing s e es hplaced ih h ts hts
    have he : e.Whole := by simpa using (allWhole_cons.1 h).1.orderly.allWhole rfl rfl
    rw [toArrayTargets?, if_neg hplaced] at hts
    exact forall_mem_of_map_singleton hts fun t ht => .restTarget (ih he t ht)
  case case16 =>
    intro trailing e es hhole hspread ihe ihes h ts hts
    obtain ⟨he, hes⟩ := allWhole_cons.1 h
    rw [toArrayTargets?] at hts
    · exact forall_mem_of_bind_cons hts (fun t ht => ihe he t ht) (ihes hes)
    · exact hhole
    · exact hspread

/-- What an expression is read as is a pattern, or no part of one. -/
theorem kind_of_toTarget? (h : n.Whole) (hn : n.kind ≠ .assignment .assign)
    (ht : n.toTarget? = some t) (hpart : t.kind.isTargetPart) : t.kind.isAssignmentPattern := by
  unfold toTarget? at ht
  split at ht
  · obtain ⟨ts, -, rfl⟩ := Option.map_eq_some_iff.1 ht
    rfl
  · obtain ⟨ts, -, rfl⟩ := Option.map_eq_some_iff.1 ht
    rfl
  · exact absurd rfl hn
  · exact absurd ((whole_of_toSimpleTarget? h ht).kind.symm.trans hpart) Bool.false_ne_true

theorem target_of_toTarget? (h : n.Whole) (hn : n.kind ≠ .assignment .assign)
    (ht : n.toTarget? = some t) : t.Target :=
  ⟨orderly_targets.1 n h t ht, kind_of_toTarget? h hn ht⟩

/-! ## Patterns that declare names -/

theorem whole_of_toBindingName? (ht : n.toBindingName? = some t) : t.Whole := by
  unfold toBindingName? at ht
  split at ht
  · cases ht
    exact allWhole_nil.whole rfl
  · cases ht

theorem whole_of_map_mk {o : Option (List Node)} (hk : kind.isTargetPart = false)
    (ho : ∀ ps, o = some ps → AllWhole ps) (ht : o.map (Node.mk kind span) = some t) : t.Whole := by
  obtain ⟨ps, hps, rfl⟩ := Option.map_eq_some_iff.1 ht
  exact (ho ps hps).whole hk

/-- A pattern with a default, from a target or an assignment whose target is read again. -/
theorem whole_of_map_defaulted {o : Option Node} (hn : n.Whole) (ho : ∀ p, o = some p → p.Whole)
    (ht : (o.map fun p => Node.mk .defaultedPattern span [p, n]) = some t) : t.Whole := by
  obtain ⟨p, hp, rfl⟩ := Option.map_eq_some_iff.1 ht
  exact (allWhole_two (ho p hp) hn).whole rfl

/-- Reading a tree in order as a pattern that declares names leaves no assignment pattern on top. -/
theorem whole_bindings :
    (∀ e : Node, e.Orderly → ∀ p, e.toBinding? = some p → p.Whole)
      ∧ (∀ trailing ps, (∀ c ∈ ps, c.Orderly) →
          ∀ qs, toPropertyBindings? trailing ps = some qs → AllWhole qs)
      ∧ ∀ trailing es, (∀ c ∈ es, c.Orderly) →
          ∀ qs, toArrayBindings? trailing es = some qs → AllWhole qs := by
  apply toBinding?.mutual_induct
  -- expressions and targets
  case case1 =>
    intro name s cs _ p hp
    rw [toBinding?] at hp
    cases hp
    exact allWhole_nil.whole rfl
  case case2 =>
    intro s e _ p hp
    rw [toBinding?] at hp
    exact whole_of_toBindingName? hp
  case case3 =>
    intro trailing s es ih h p hp
    rw [toBinding?] at hp
    exact whole_of_map_mk rfl (ih fun c hc => h.child hc) hp
  case case4 =>
    intro s es ih h p hp
    rw [toBinding?] at hp
    exact whole_of_map_mk rfl (ih fun c hc => h.child hc) hp
  case case5 =>
    intro trailing s ps ih h p hp
    rw [toBinding?] at hp
    exact whole_of_map_mk rfl (ih fun c hc => h.child hc) hp
  case case6 =>
    intro s ps ih h p hp
    rw [toBinding?] at hp
    exact whole_of_map_mk rfl (ih fun c hc => h.child hc) hp
  case case7 =>
    intro s t value ih h p hp
    rw [toBinding?] at hp
    have hvalue : value.Whole := h.bystander (List.mem_singleton.2 rfl)
    exact whole_of_map_defaulted hvalue (ih (h.child List.mem_cons_self)) hp
  case case8 =>
    intro s t value ih h p hp
    rw [toBinding?] at hp
    have hvalue : value.Whole := h.bystander (List.mem_singleton.2 rfl)
    exact whole_of_map_defaulted hvalue (ih (h.child List.mem_cons_self)) hp
  case case9 =>
    intro e h1 h2 h3 h4 h5 h6 h7 h8 _ p hp
    rw [toBinding?] at hp
    · cases hp
    all_goals assumption
  -- properties
  case case10 =>
    intro trailing _ qs hqs
    rw [toPropertyBindings?] at hqs
    exact forall_mem_of_some_nil hqs
  case case11 =>
    intro trailing shorthand computed s key value ps ihvalue ihps h qs hqs
    obtain ⟨hp, hps⟩ := List.forall_mem_cons.1 h
    obtain ⟨hkey, hvalue⟩ : key.Whole ∧ value.Whole := by simpa using hp.allWhole rfl rfl
    rw [toPropertyBindings?] at hqs
    refine forall_mem_of_bind_cons hqs (fun q hq => ?_) (ihps hps)
    exact (allWhole_two hkey (ihvalue hvalue.orderly q hq)).whole rfl
  case case12 =>
    intro trailing computed s key value init ps ihps h qs hqs
    obtain ⟨hp, hps⟩ := List.forall_mem_cons.1 h
    obtain ⟨hkey, -, hinit⟩ : key.Whole ∧ value.Whole ∧ init.Whole := by
      simpa using hp.allWhole rfl rfl
    rw [toPropertyBindings?] at hqs
    refine forall_mem_of_bind_cons hqs (fun q hq => ?_) (ihps hps)
    have hdefaulted : (Node.mk .defaultedPattern s [q, init]).Whole :=
      (allWhole_two (whole_of_toBindingName? hq) hinit).whole rfl
    exact (allWhole_two hkey hdefaulted).whole rfl
  case case13 =>
    intro trailing computed s key t ps iht ihps h qs hqs
    obtain ⟨hp, hps⟩ := List.forall_mem_cons.1 h
    have hkey : key.Whole := hp.bystander (List.mem_singleton.2 rfl)
    have ht : t.Orderly := hp.child (List.mem_cons_of_mem _ List.mem_cons_self)
    rw [toPropertyBindings?] at hqs
    refine forall_mem_of_bind_cons hqs (fun q hq => ?_) (ihps hps)
    exact (allWhole_two hkey (iht ht q hq)).whole rfl
  case case14 =>
    intro trailing computed s t ps iht ihps h qs hqs
    obtain ⟨hp, hps⟩ := List.forall_mem_cons.1 h
    rw [toPropertyBindings?] at hqs
    refine forall_mem_of_bind_cons hqs (fun q hq => ?_) (ihps hps)
    exact (allWhole_one (iht (hp.child List.mem_cons_self) q hq)).whole rfl
  case case15 =>
    intro trailing s e ps hmisplaced _ qs hqs
    rw [toPropertyBindings?, if_pos hmisplaced] at hqs
    cases hqs
  case case16 =>
    intro trailing s e ps hplaced _ qs hqs
    rw [toPropertyBindings?, if_neg hplaced] at hqs
    refine forall_mem_of_map_singleton hqs fun q hq => ?_
    exact (allWhole_one (whole_of_toBindingName? hq)).whole rfl
  case case17 =>
    intro trailing s s' e _ qs hqs
    rw [toPropertyBindings?] at hqs
    refine forall_mem_of_map_singleton hqs fun q hq => ?_
    exact (allWhole_one (whole_of_toBindingName? hq)).whole rfl
  case case18 =>
    intro ps trailing h1 h2 h3 h4 h5 h6 h7 _ qs hqs
    rw [toPropertyBindings?] at hqs
    · cases hqs
    all_goals assumption
  -- elements
  case case19 =>
    intro trailing _ qs hqs
    rw [toArrayBindings?] at hqs
    exact forall_mem_of_some_nil hqs
  case case20 =>
    intro trailing s cs es ih h qs hqs
    obtain ⟨hhole, hes⟩ := List.forall_mem_cons.1 h
    rw [toArrayBindings?] at hqs
    exact forall_mem_of_map_cons hqs ⟨hhole, rfl⟩ (ih hes)
  case case21 =>
    intro trailing s e es hmisplaced _ qs hqs
    rw [toArrayBindings?, if_pos hmisplaced] at hqs
    cases hqs
  case case22 =>
    intro trailing s e es hplaced ih h qs hqs
    have he : e.Orderly := (List.forall_mem_cons.1 h).1.child List.mem_cons_self
    rw [toArrayBindings?, if_neg hplaced] at hqs
    exact forall_mem_of_map_singleton hqs fun q hq => (allWhole_one (ih he q hq)).whole rfl
  case case23 =>
    intro trailing s t ih h qs hqs
    have ht : t.Orderly := (List.forall_mem_cons.1 h).1.child List.mem_cons_self
    rw [toArrayBindings?] at hqs
    exact forall_mem_of_map_singleton hqs fun q hq => (allWhole_one (ih ht q hq)).whole rfl
  case case24 =>
    intro trailing e es hhole hspread hrest ihe ihes h qs hqs
    obtain ⟨he, hes⟩ := List.forall_mem_cons.1 h
    rw [toArrayBindings?] at hqs
    · exact forall_mem_of_bind_cons hqs (fun q hq => ihe he q hq) (ihes hes)
    · exact hhole
    · exact hspread
    · exact hrest

theorem whole_of_toBinding? (h : n.Orderly) (hp : n.toBinding? = some t) : t.Whole :=
  whole_bindings.1 n h t hp

/-- The parameters that the items in front of an arrow are read as. -/
theorem whole_of_toParameters? {trailing : Bool} {items ps : List Node} (h : AllWhole items)
    (hps : toParameters? trailing items = some ps) : AllWhole ps := by
  induction trailing, items using toParameters?.induct generalizing ps with
  | case1 =>
    rw [toParameters?] at hps
    exact forall_mem_of_some_nil hps
  | case2 trailing s cs =>
    rw [toParameters?] at hps
    cases hps
    exact h
  | case3 trailing s e hmisplaced =>
    rw [toParameters?, if_pos hmisplaced] at hps
    cases hps
  | case4 trailing s e hplaced =>
    have he : e.Orderly := (allWhole_cons.1 h).1.orderly.child List.mem_cons_self
    rw [toParameters?, if_neg hplaced] at hps
    refine forall_mem_of_map_singleton hps fun p hp => ?_
    exact (allWhole_one (whole_of_toBinding? he hp)).whole rfl
  | case5 trailing e es hrest hspread ih =>
    obtain ⟨he, hes⟩ := allWhole_cons.1 h
    rw [toParameters?] at hps
    · refine forall_mem_of_bind_cons hps (fun p hp => ?_) fun us hus => ih hes hus
      exact (allWhole_one (whole_of_toBinding? he.orderly hp)).whole rfl
    · exact hrest
    · exact hspread

end Node

end EditionCheck.Script
