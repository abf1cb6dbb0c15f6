import EditionCheck.Proofs.Leaves
import EditionCheck.Proofs.Order
import EditionCheck.Script.Pattern

/-!
# Trees that are read again keep their leaves

Expressions that turn out to be patterns or parameters are read again, and the leaves survive that, as
does the order in which nodes begin.

* `Recast` — a row of trees takes the place of another one and keeps what that one kept;
* `recast_of_toTarget?`, `recast_of_toBinding?`, `recast_of_toParameters?` — reading again as a target,
  as a pattern that declares names, and as parameters.
-/

set_option autoImplicit false

namespace EditionCheck.Script

open EditionCheck.Text Node

/-! ## Nodes that are read again -/

namespace Node

variable {n p : Node}

/-- A variable or property is not nothing. -/
theorem isBlank_of_isPlace (h : n.unparenthesized.isPlace) : n.kind.isBlank = false := by
  obtain ⟨kind, span, children⟩ := n
  cases kind with
  | hole => simp [unparenthesized, isPlace] at h
  | program => simp [unparenthesized, isPlace] at h
  | _ => rfl

/-- What is read as a pattern is not nothing. -/
theorem isBlank_of_toBinding? (h : n.toBinding? = some p) : n.kind.isBlank = false := by
  obtain ⟨kind, span, children⟩ := n
  cases kind with
  | hole => simp [toBinding?] at h
  | program => simp [toBinding?] at h
  | _ => rfl

end Node

/-! ## Reading again -/

/-- A row of trees takes the place of another one: it is in shape, keeps what that one kept, and its
nodes begin in order where those of that one did. -/
structure Recast (text : List Char) (ns ms : List Node) : Prop where
  faithful : AllFaithful text ms
  kept : ∀ t, Kept ns t → Kept ms t
  ordered : ∀ lo hi, Ordered lo ns hi → Ordered lo ms hi

namespace Recast

variable {text : List Char} {ns ms ns' ms' : List Node} {n m : Node} {kind kind' : Kind}
  {span span' : Span}

theorem refl (h : AllFaithful text ns) : Recast text ns ns := ⟨h, fun _ ht => ht, fun _ _ ho => ho⟩

theorem one (h : n.Faithful text) : Recast text [n] [n] :=
  refl (allFaithful_one h)

theorem append (h : Recast text ns ms) (h' : Recast text ns' ms') :
    Recast text (ns ++ ns') (ms ++ ms') := by
  refine ⟨allFaithful_append.2 ⟨h.faithful, h'.faithful⟩,
    fun t ht => kept_append.2 ((kept_append.1 ht).imp (h.kept t) (h'.kept t)), fun lo hi ho => ?_⟩
  obtain ⟨mid, ho, ho'⟩ := ordered_append.1 ho
  exact (h.ordered lo mid ho).append (h'.ordered mid hi ho')

theorem cons (h : Recast text [n] [m]) (h' : Recast text ns ms) : Recast text (n :: ns) (m :: ms) :=
  h.append h'

/-- A tree in front of a row in which a rest can only come last, and the tree is none. -/
theorem consLast {rest : Kind} (h : Recast text [n] [m]) (hm : m.kind ≠ rest)
    (h' : Recast text ns ms ∧ RestLast rest ms) :
    Recast text (n :: ns) (m :: ms) ∧ RestLast rest (m :: ms) :=
  ⟨h.cons h'.1, h'.2.cons hm⟩

/-- The children of a node that is no leaf stand for it. -/
theorem lift (h : Recast text ns ms) (hkind : ∀ l, kind.spells l = false) :
    Recast text [.mk kind span ns] ms := by
  refine ⟨h.faithful, fun t ht => h.kept t ?_, fun lo hi ho => h.ordered lo hi ho.lift⟩
  simpa [hkind] using ht

/-- A row of trees is put into a node that begins where its first tree does. -/
theorem wrap (hspan : Stretch text span) (h : AllFaithful text (n :: ns))
    (hstart : span.start = n.span.start) (hfits : (Node.mk kind span (n :: ns)).Fits text) :
    Recast text (n :: ns) [.mk kind span (n :: ns)] :=
  ⟨allFaithful_one (h.node hfits fun _ => hspan), fun _ ht => ht.nest, fun _ _ ho => ho.wrap hstart⟩

/-- A node with the same span is put around a tree that takes the place of a row. -/
theorem around (hspan : Stretch text m.span) (h : Recast text ns [m])
    (hfits : (Node.mk kind' m.span [m]).Fits text) : Recast text ns [.mk kind' m.span [m]] :=
  ⟨allFaithful_one (h.faithful.node hfits fun _ => hspan), fun t ht => (h.kept t ht).nest,
    fun lo hi ho => (h.ordered lo hi ho).wrap rfl⟩

/-- The trees behind a leaf are put into a node that begins where the leaf does. -/
theorem behindLeaf (hspan : Stretch text span') (h : AllFaithful text (.mk kind span [] :: ns))
    (hstart : span'.start = span.start) (hfits : (Node.mk kind' span' ns).Fits text) :
    Recast text (.mk kind span [] :: ns) [.mk kind span [], .mk kind' span' ns] := by
  obtain ⟨hleaf, hns⟩ := allFaithful_cons.1 h
  refine ⟨allFaithful_cons.2 ⟨hleaf, allFaithful_one (hns.node hfits fun _ => hspan)⟩,
    fun t ht => ?_,
    fun lo hi ho => ?_⟩
  · exact kept_cons.2 ((kept_cons.1 ht).imp id Kept.nest)
  · obtain ⟨hlo, mid, hle, hrest⟩ := ordered_mk.1 ho
    have hns : Ordered span'.start ns hi := hrest.from_le (hstart ▸ hle.le)
    exact .cons hlo (.nil (Nat.le_refl _)) (hns.nest (Nat.le_of_eq hstart.symm))

/-- A node takes the place of another one with the same span, which is no leaf, if its children do. -/
theorem node (hspan : Stretch text span) (h : Recast text ns ms) (hkind : ∀ l, kind.spells l = false)
    (hfits : (Node.mk kind' span ms).Fits text) :
    Recast text [.mk kind span ns] [.mk kind' span ms] := by
  refine ⟨allFaithful_one (h.faithful.node hfits fun _ => hspan), fun t ht => (h.kept t ?_).nest,
    fun lo hi ho => ho.replace h.ordered⟩
  simpa [hkind] using ht

/-- A name that stands twice is kept by the second leaf alone. -/
theorem dropKey {name : String} (h : AllFaithful text (.mk (.reference name) span [] :: ns)) :
    Recast text (.mk (.propertyName name) span [] :: .mk (.reference name) span [] :: ns)
      (.mk (.reference name) span [] :: ns) := by
  refine ⟨h, fun t ht => ?_, fun lo hi ho => ?_⟩
  · rcases kept_cons.1 ht with hkey | hrest
    · refine kept_cons.2 (.inl ?_)
      simp only [keeps_mk, not_kept_nil, or_false] at hkey ⊢
      refine ⟨hkey.1, ?_⟩
      cases hl : t.lexeme with
      | name y escaped =>
        rw [hl] at hkey
        exact hkey.2
      | _ =>
        rw [hl] at hkey
        cases hkey.2
    · exact hrest
  · obtain ⟨hlo, mid, hmid, hrest⟩ := ordered_mk.1 ho
    exact hrest.from_le (Nat.le_trans hlo hmid.le)

/-- A reference becomes a declared name. -/
theorem bindingName {name : String} (h : (Node.mk (.reference name) span ns).Faithful text) :
    Recast text [.mk (.reference name) span ns] [.mk (.bindingName name) span []] := by
  have hns : ns = [] := h.fits
  subst hns
  refine ⟨allFaithful_one (faithful_leaf trivial fun _ => h.stretch rfl), fun t ht => ?_,
    fun lo hi ho => ho.replace fun _ _ ho => ho⟩
  simp only [kept_cons, keeps_mk, not_kept_nil, or_false] at ht ⊢
  refine ⟨ht.1, ?_⟩
  cases hl : t.lexeme with
  | name y escaped =>
    rw [hl] at ht
    exact ht.2
  | _ =>
    rw [hl] at ht
    cases ht.2

theorem trans {ks : List Node} (h : Recast text ns ms) (h' : Recast text ms ks) : Recast text ns ks :=
  ⟨h'.faithful, fun t ht => h'.kept t (h.kept t ht),
    fun lo hi ho => h'.ordered lo hi (h.ordered lo hi ho)⟩

theorem simpleTarget (h : n.Faithful text) (ht : n.toSimpleTarget? = some m) : Recast text [n] [m] := by
  unfold toSimpleTarget? at ht
  split at ht
  · next hplace =>
    cases ht
    exact .around (h.stretch (isBlank_of_isPlace hplace)) (one h) (List.forall_mem_singleton.2 rfl)
  · cases ht

end Recast

namespace Node

variable {text : List Char} {n t : Node} {span : Span} {kind : Kind}

/-! ## Rows that are read item by item -/

theorem exists_of_bind_cons {α : Type} {o : Option α} {os : Option (List Node)} {f : α → Node}
    {ts : List Node} (h : (o.bind fun a => os.map (f a :: ·)) = some ts) :
    ∃ a us, o = some a ∧ os = some us ∧ ts = f a :: us := by
  obtain ⟨a, ha, h⟩ := Option.bind_eq_some_iff.1 h
  obtain ⟨us, hus, rfl⟩ := Option.map_eq_some_iff.1 h
  exact ⟨a, us, ha, hus, rfl⟩

/-- The name and the value of a property that is a name alone. -/
theorem shorthand_of_faithful {form : PropertyForm} {computed : Bool} {key value : Node}
    {more : List Node}
    (h : (mk (.objectProperty form true computed) span (key :: value :: more)).Faithful text) :
    ∃ name s, s.start = span.start ∧ key = mk (.propertyName name) s []
      ∧ value = mk (.reference name) s [] ∧ AllFaithful text (value :: more) := by
  obtain ⟨name, s, more', hstart, heq⟩ := h.fits
  cases heq
  exact ⟨name, s, hstart, rfl, rfl, (allFaithful_cons.1 h.children).2⟩

/-- The property of a target from a property that is a name alone: the value keeps the name. -/
theorem recast_shorthand {form : PropertyForm} {computed : Bool} {key value : Node}
    {more us : List Node} {kind : Kind}
    (h : (mk (.objectProperty form true computed) span (key :: value :: more)).Faithful text)
    (hvalue : AllFaithful text (value :: more) → Recast text (value :: more) us)
    (hfits : (mk kind span us).Fits text) :
    Recast text [mk (.objectProperty form true computed) span (key :: value :: more)]
      [mk kind span us] := by
  obtain ⟨name, s, -, rfl, rfl, hall⟩ := shorthand_of_faithful h
  exact .node (h.stretch rfl) ((Recast.dropKey hall).trans (hvalue hall)) (fun _ => rfl) hfits

/-! ## Targets of assignments -/

/-- Reading an expression as a target takes its place; so does reading the items of a pattern. -/
theorem recast_targets (text : List Char) :
    (∀ e : Node, e.Faithful text → ∀ t, e.toTarget? = some t → Recast text [e] [t])
      ∧ (∀ trailing ps, AllFaithful text ps → ∀ ts, toPropertyTargets? trailing ps = some ts →
          Recast text ps ts ∧ RestLast .restTarget ts)
      ∧ ∀ trailing es, AllFaithful text es → ∀ ts, toArrayTargets? trailing es = some ts →
          Recast text es ts := by
  apply toTarget?.mutual_induct
  -- expressions
  case case1 =>
    intro trailing s es ih h t ht
    rw [toTarget?] at ht
    obtain ⟨ts, hts, rfl⟩ := Option.map_eq_some_iff.1 ht
    exact .node (h.stretch rfl) (ih h.children ts hts) (fun _ => rfl) trivial
  case case2 =>
    intro trailing s ps ih h t ht
    rw [toTarget?] at ht
    obtain ⟨ts, hts, rfl⟩ := Option.map_eq_some_iff.1 ht
    obtain ⟨hrecast, hrest⟩ := ih h.children ts hts
    exact .node (h.stretch rfl) hrecast (fun _ => rfl) hrest
  case case3 =>
    intro s cs h t ht
    rw [toTarget?] at ht
    cases ht
    exact .node (h.stretch rfl) (.refl h.children) (fun _ => rfl) trivial
  case case4 =>
    intro n harray hobject hassignment h t ht
    rw [toTarget?] at ht
    · exact .simpleTarget h ht
    · exact harray
    · exact hobject
    · exact hassignment
  -- properties
  case case5 =>
    intro trailing _ ts hts
    rw [toPropertyTargets?] at hts
    cases hts
    exact ⟨.refl allFaithful_nil, restLast_nil _⟩
  case case6 =>
    intro trailing computed s key value ps ihvalue ihps h ts hts
    obtain ⟨hp, hps⟩ := allFaithful_cons.1 h
    obtain ⟨hkey, hvalue⟩ : key.Faithful text ∧ value.Faithful text := by simpa using hp.children
    rw [toPropertyTargets?] at hts
    obtain ⟨t, us, ht, hus, rfl⟩ := exists_of_bind_cons hts
    have hboth := Recast.cons (.one hkey) (ihvalue hvalue t ht)
    exact Recast.consLast (.node (hp.stretch rfl) hboth (fun _ => rfl) trivial) (by simp)
      (ihps hps us hus)
  case case7 =>
    intro trailing computed s key value ps ihps h ts hts
    obtain ⟨hp, hps⟩ := allFaithful_cons.1 h
    rw [toPropertyTargets?] at hts
    obtain ⟨t, us, ht, hus, rfl⟩ := exists_of_bind_cons hts
    refine Recast.consLast (recast_shorthand hp (fun hall => ?_) trivial) (by simp) (ihps hps us hus)
    exact .simpleTarget (allFaithful_cons.1 hall).1 ht
  case case8 =>
    intro trailing computed s key value init ps ihps h ts hts
    obtain ⟨hp, hps⟩ := allFaithful_cons.1 h
    rw [toPropertyTargets?] at hts
    obtain ⟨t, us, ht, hus, rfl⟩ := exists_of_bind_cons hts
    have hspan : Stretch text (mk .defaultedTarget s [t, init]).span := hp.stretch rfl
    have hdefaulted : Recast text [mk (.objectProperty .plain true computed) s [key, value, init]]
        [mk .defaultedTarget s [t, init]] := by
      refine recast_shorthand hp (fun hall => ?_) trivial
      obtain ⟨hvalue, hinit⟩ := allFaithful_cons.1 hall
      exact .cons (.simpleTarget hvalue ht) (.refl hinit)
    exact Recast.consLast (.around hspan hdefaulted trivial) (by simp) (ihps hps us hus)
  case case9 =>
    intro trailing s e ps hmisplaced _ ts hts
    rw [toPropertyTargets?, if_pos hmisplaced] at hts
    cases hts
  case case10 =>
    intro trailing s e ps hplaced h ts hts
    obtain ⟨hp, -⟩ := allFaithful_cons.1 h
    have he : e.Faithful text := by simpa using hp.children
    rw [toPropertyTargets?, if_neg hplaced] at hts
    obtain ⟨t, ht, rfl⟩ := Option.map_eq_some_iff.1 hts
    obtain ⟨-, rfl⟩ : trailing = false ∧ ps = [] := by simpa using hplaced
    exact ⟨.node (hp.stretch rfl) (.simpleTarget he ht) (fun _ => rfl) trivial, restLast_one _ _⟩
  case case11 =>
    intro ps trailing hnil hplain hshorthand hdefaulted hspread _ ts hts
    rw [toPropertyTargets?] at hts
    · cases hts
    · exact hnil
    · exact hplain
    · exact hshorthand
    · exact hdefaulted
    · exact hspread
  -- elements
  case case12 =>
    intro trailing _ ts hts
    rw [toArrayTargets?] at hts
    cases hts
    exact .refl allFaithful_nil
  case case13 =>
    intro trailing s cs es ih h ts hts
    obtain ⟨hhole, hes⟩ := allFaithful_cons.1 h
    rw [toArrayTargets?] at hts
    obtain ⟨us, hus, rfl⟩ := Option.map_eq_some_iff.1 hts
    exact .cons (.one hhole) (ih hes us hus)
  case case14 =>
    intro trailing s e es hmisplaced _ ts hts
    rw [toArrayTargets?, if_pos hmisplaced] at hts
    cases hts
  case case15 =>
    intro trailing s e es hplaced ih h ts hts
    obtain ⟨hspread, -⟩ := allFaithful_cons.1 h
    have he : e.Faithful text := by simpa using hspread.children
    rw [toArrayTargets?, if_neg hplaced] at hts
    obtain ⟨t, ht, rfl⟩ := Option.map_eq_some_iff.1 hts
    obtain ⟨⟨-, rfl⟩, -⟩ : (trailing = false ∧ es = []) ∧ e.kind ≠ .assignment .assign := by
      simpa using hplaced
    exact .node (hspread.stretch rfl) (ih he t ht) (fun _ => rfl) trivial
  case case16 =>
    intro trailing e es hhole hspread ihe ihes h ts hts
    obtain ⟨he, hes⟩ := allFaithful_cons.1 h
    rw [toArrayTargets?] at hts
    · obtain ⟨t, us, ht, hus, rfl⟩ := exists_of_bind_cons hts
      exact .cons (ihe he t ht) (ihes hes us hus)
    · exact hhole
    · exact hspread

/-! ## Patterns that declare names -/

theorem recast_of_toBindingName? {p : Node} (h : n.Faithful text) (hp : n.toBindingName? = some p) :
    Recast text [n] [p] ∧ p.span = n.span := by
  unfold toBindingName? at hp
  split at hp
  · cases hp
    exact ⟨.bindingName h, rfl⟩
  · cases hp

/-- Reading a tree as a pattern that declares names takes its place, and the pattern has its span. -/
theorem recast_bindings (text : List Char) :
    (∀ e : Node, e.Faithful text → ∀ p, e.toBinding? = some p → Recast text [e] [p] ∧ p.span = e.span)
      ∧ (∀ trailing ps, AllFaithful text ps → ∀ qs, toPropertyBindings? trailing ps = some qs →
          Recast text ps qs ∧ RestLast .restElement qs)
      ∧ ∀ trailing es, AllFaithful text es → ∀ qs, toArrayBindings? trailing es = some qs →
          Recast text es qs := by
  apply toBinding?.mutual_induct
  -- expressions and targets
  case case1 =>
    intro name s cs h p hp
    rw [toBinding?] at hp
    cases hp
    exact ⟨.bindingName h, rfl⟩
  case case2 =>
    intro s e h p hp
    have he : e.Faithful text := by simpa using h.children
    have hspan : e.span = s := h.fits e List.mem_cons_self
    rw [toBinding?] at hp
    obtain ⟨hrecast, hp⟩ := recast_of_toBindingName? he hp
    exact ⟨.lift hrecast fun _ => rfl, hp.trans hspan⟩
  case case3 =>
    intro trailing s es ih h p hp
    rw [toBinding?] at hp
    obtain ⟨qs, hqs, rfl⟩ := Option.map_eq_some_iff.1 hp
    exact ⟨.node (h.stretch rfl) (ih h.children qs hqs) (fun _ => rfl) trivial, rfl⟩
  case case4 =>
    intro s es ih h p hp
    rw [toBinding?] at hp
    obtain ⟨qs, hqs, rfl⟩ := Option.map_eq_some_iff.1 hp
    exact ⟨.node (h.stretch rfl) (ih h.children qs hqs) (fun _ => rfl) trivial, rfl⟩
  case case5 =>
    intro trailing s ps ih h p hp
    rw [toBinding?] at hp
    obtain ⟨qs, hqs, rfl⟩ := Option.map_eq_some_iff.1 hp
    obtain ⟨hrecast, hrest⟩ := ih h.children qs hqs
    exact ⟨.node (h.stretch rfl) hrecast (fun _ => rfl) hrest, rfl⟩
  case case6 =>
    intro s ps ih h p hp
    rw [toBinding?] at hp
    obtain ⟨qs, hqs, rfl⟩ := Option.map_eq_some_iff.1 hp
    obtain ⟨hrecast, hrest⟩ := ih h.children qs hqs
    exact ⟨.node (h.stretch rfl) hrecast (fun _ => rfl) hrest, rfl⟩
  case case7 =>
    intro s t value ih h p hp
    obtain ⟨ht, hvalue⟩ : t.Faithful text ∧ value.Faithful text := by simpa using h.children
    rw [toBinding?] at hp
    obtain ⟨q, hq, rfl⟩ := Option.map_eq_some_iff.1 hp
    exact ⟨.node (h.stretch rfl) (.cons (ih ht q hq).1 (.one hvalue)) (fun _ => rfl) trivial, rfl⟩
  case case8 =>
    intro s t value ih h p hp
    obtain ⟨ht, hvalue⟩ : t.Faithful text ∧ value.Faithful text := by simpa using h.children
    rw [toBinding?] at hp
    obtain ⟨q, hq, rfl⟩ := Option.map_eq_some_iff.1 hp
    exact ⟨.node (h.stretch rfl) (.cons (ih ht q hq).1 (.one hvalue)) (fun _ => rfl) trivial, rfl⟩
  case case9 =>
    intro e h1 h2 h3 h4 h5 h6 h7 h8 _ p hp
    rw [toBinding?] at hp
    · cases hp
    all_goals assumption
  -- properties
  case case10 =>
    intro trailing _ qs hqs
    rw [toPropertyBindings?] at hqs
    cases hqs
    exact ⟨.refl allFaithful_nil, restLast_nil _⟩
  case case11 =>
    intro trailing shorthand computed s key value ps ihvalue ihps h qs hqs
    obtain ⟨hp, hps⟩ := allFaithful_cons.1 h
    obtain ⟨hkey, hvalue⟩ : key.Faithful text ∧ value.Faithful text := by simpa using hp.children
    rw [toPropertyBindings?] at hqs
    obtain ⟨q, us, hq, hus, rfl⟩ := exists_of_bind_cons hqs
    have hboth := Recast.cons (.one hkey) (ihvalue hvalue q hq).1
    exact Recast.consLast (.node (hp.stretch rfl) hboth (fun _ => rfl) trivial) (by simp)
      (ihps hps us hus)
  case case12 =>
    intro trailing computed s key value init ps ihps h qs hqs
    obtain ⟨hp, hps⟩ := allFaithful_cons.1 h
    obtain ⟨name, s', hstart, rfl, rfl, hall⟩ := shorthand_of_faithful hp
    obtain ⟨hvalue, hinit⟩ := allFaithful_cons.1 hall
    rw [toPropertyBindings?] at hqs
    obtain ⟨q, us, hq, hus, rfl⟩ := exists_of_bind_cons hqs
    have hkey := Recast.one (allFaithful_cons.1 hp.children).1
    have hflat := hkey.cons ((recast_of_toBindingName? hvalue hq).1.cons (.refl hinit))
    refine Recast.consLast (.node (hp.stretch rfl) (hflat.trans ?_) (fun _ => rfl) trivial) (by simp)
      (ihps hps us hus)
    -- the default begins with the property, and so with the name in front of it
    exact .behindLeaf (hp.stretch rfl) hflat.faithful hstart.symm trivial
  case case13 =>
    intro trailing computed s key t ps iht ihps h qs hqs
    obtain ⟨hp, hps⟩ := allFaithful_cons.1 h
    obtain ⟨hkey, ht⟩ : key.Faithful text ∧ t.Faithful text := by simpa using hp.children
    rw [toPropertyBindings?] at hqs
    obtain ⟨q, us, hq, hus, rfl⟩ := exists_of_bind_cons hqs
    have hboth := Recast.cons (.one hkey) (iht ht q hq).1
    exact Recast.consLast (.node (hp.stretch rfl) hboth (fun _ => rfl) trivial) (by simp)
      (ihps hps us hus)
  case case14 =>
    intro trailing computed s t ps iht ihps h qs hqs
    obtain ⟨hp, hps⟩ := allFaithful_cons.1 h
    have ht : t.Faithful text := by simpa using hp.children
    rw [toPropertyBindings?] at hqs
    obtain ⟨q, us, hq, hus, rfl⟩ := exists_of_bind_cons hqs
    exact Recast.consLast (.node (hp.stretch rfl) (iht ht q hq).1 (fun _ => rfl) trivial) (by simp)
      (ihps hps us hus)
  case case15 =>
    intro trailing s e ps hmisplaced _ qs hqs
    rw [toPropertyBindings?, if_pos hmisplaced] at hqs
    cases hqs
  case case16 =>
    intro trailing s e ps hplaced h qs hqs
    obtain ⟨hp, -⟩ := allFaithful_cons.1 h
    have he : e.Faithful text := by simpa using hp.children
    rw [toPropertyBindings?, if_neg hplaced] at hqs
    obtain ⟨q, hq, rfl⟩ := Option.map_eq_some_iff.1 hqs
    obtain ⟨-, rfl⟩ : trailing = false ∧ ps = [] := by simpa using hplaced
    exact ⟨.node (hp.stretch rfl) (recast_of_toBindingName? he hq).1 (fun _ => rfl) trivial,
      restLast_one _ _⟩
  case case17 =>
    intro trailing s s' e h qs hqs
    obtain ⟨hrest, -⟩ := allFaithful_cons.1 h
    have ht : (mk .simpleTarget s' [e]).Faithful text := by simpa using hrest.children
    have he : e.Faithful text := by simpa using ht.children
    rw [toPropertyBindings?] at hqs
    obtain ⟨q, hq, rfl⟩ := Option.map_eq_some_iff.1 hqs
    have hname := (recast_of_toBindingName? he hq).1
    exact ⟨.node (hrest.stretch rfl) (.lift hname fun _ => rfl) (fun _ => rfl) trivial,
      restLast_one _ _⟩
  case case18 =>
    intro ps trailing h1 h2 h3 h4 h5 h6 h7 _ qs hqs
    rw [toPropertyBindings?] at hqs
    · cases hqs
    all_goals assumption
  -- elements
  case case19 =>
    intro trailing _ qs hqs
    rw [toArrayBindings?] at hqs
    cases hqs
    exact .refl allFaithful_nil
  case case20 =>
    intro trailing s cs es ih h qs hqs
    obtain ⟨hhole, hes⟩ := allFaithful_cons.1 h
    rw [toArrayBindings?] at hqs
    obtain ⟨us, hus, rfl⟩ := Option.map_eq_some_iff.1 hqs
    exact .cons (.one hhole) (ih hes us hus)
  case case21 =>
    intro trailing s e es hmisplaced _ qs hqs
    rw [toArrayBindings?, if_pos hmisplaced] at hqs
    cases hqs
  case case22 =>
    intro trailing s e es hplaced ih h qs hqs
    obtain ⟨hspread, -⟩ := allFaithful_cons.1 h
    have he : e.Faithful text := by simpa using hspread.children
    rw [toArrayBindings?, if_neg hplaced] at hqs
    obtain ⟨q, hq, rfl⟩ := Option.map_eq_some_iff.1 hqs
    obtain ⟨⟨-, rfl⟩, -⟩ : (trailing = false ∧ es = []) ∧ e.kind ≠ .assignment .assign := by
      simpa using hplaced
    exact .node (hspread.stretch rfl) (ih he q hq).1 (fun _ => rfl) trivial
  case case23 =>
    intro trailing s t ih h qs hqs
    obtain ⟨hrest, -⟩ := allFaithful_cons.1 h
    have ht : t.Faithful text := by simpa using hrest.children
    rw [toArrayBindings?] at hqs
    obtain ⟨q, hq, rfl⟩ := Option.map_eq_some_iff.1 hqs
    exact .node (hrest.stretch rfl) (ih ht q hq).1 (fun _ => rfl) trivial
  case case24 =>
    intro trailing e es hhole hspread hrest ihe ihes h qs hqs
    obtain ⟨he, hes⟩ := allFaithful_cons.1 h
    rw [toArrayBindings?] at hqs
    · obtain ⟨q, us, hq, hus, rfl⟩ := exists_of_bind_cons hqs
      exact .cons (ihe he q hq).1 (ihes hes us hus)
    · exact hhole
    · exact hspread
    · exact hrest

theorem recast_of_toTarget? (h : n.Faithful text) (ht : n.toTarget? = some t) :
    Recast text [n] [t] := (recast_targets text).1 n h t ht

theorem recast_of_toBinding? (h : n.Faithful text) (ht : n.toBinding? = some t) :
    Recast text [n] [t] ∧ t.span = n.span := (recast_bindings text).1 n h t ht

/-! ## Parameters -/

/-- The parameters that the items in front of an arrow are read as take their place. The last one has
the span of the last item, and is a rest only where that item was one or no comma ended the list. -/
theorem recast_of_toParameters? {trailing : Bool} {items ps : List Node} (h : AllFaithful text items)
    (hps : toParameters? trailing items = some ps) :
    Recast text items ps ∧ ps.map Node.span = items.map Node.span
      ∧ ∀ l, ps.getLast? = some l → l.kind = .restElement →
          trailing = false ∨ ∃ i, items.getLast? = some i ∧ i.kind = .restElement := by
  induction trailing, items using toParameters?.induct generalizing ps with
  | case1 =>
    rw [toParameters?] at hps
    cases hps
    exact ⟨.refl allFaithful_nil, rfl, fun l hl => by cases hl⟩
  | case2 trailing s cs =>
    rw [toParameters?] at hps
    cases hps
    exact ⟨.refl h, rfl, fun _ _ _ => .inr ⟨_, rfl, rfl⟩⟩
  | case3 trailing s e hmisplaced =>
    rw [toParameters?, if_pos hmisplaced] at hps
    cases hps
  | case4 trailing s e hplaced =>
    have hspread := (allFaithful_cons.1 h).1
    have he : e.Faithful text := by simpa using hspread.children
    rw [toParameters?, if_neg hplaced] at hps
    obtain ⟨p, hp, rfl⟩ := Option.map_eq_some_iff.1 hps
    obtain ⟨htrailing, -⟩ : trailing = false ∧ e.kind ≠ .assignment .assign := by
      simpa using hplaced
    refine ⟨?_, rfl, fun _ _ _ => .inl htrailing⟩
    exact .node (hspread.stretch rfl) (recast_of_toBinding? he hp).1 (fun _ => rfl) trivial
  | case5 trailing e es hrest hspread ih =>
    obtain ⟨he, hes⟩ := allFaithful_cons.1 h
    rw [toParameters?] at hps
    · obtain ⟨p, us, hp, hus, rfl⟩ := exists_of_bind_cons hps
      obtain ⟨hrecast, hspans, hlast⟩ := ih hes hus
      have hstretch := he.stretch (isBlank_of_toBinding? hp)
      obtain ⟨hp, hspan⟩ := recast_of_toBinding? he hp
      rw [← hspan] at hstretch
      refine ⟨.cons (.around hstretch hp trivial) hrecast, by simp [hspan, hspans],
        fun l hl hkind => ?_⟩
      cases us with
      | nil =>
        cases hl
        cases hkind
      | cons u us =>
        rcases hlast l hl hkind with h | ⟨i, hi, hkind⟩
        · exact .inl h
        · refine .inr ⟨i, ?_, hkind⟩
          rw [List.getLast?_cons, hi]
          rfl
    · exact hrest
    · exact hspread

end Node

end EditionCheck.Script
