import EditionCheck.Proofs.Positions
import EditionCheck.Script.Node

/-!
# What a tree keeps of its tokens

A token that names something or is a literal is kept in the tree as a leaf of the same span.

* `Node.Keeps`, `Node.Kept` — a tree, and a row of trees, keeps a token;
* `Node.Faithful` — every node covers a part of the text, and the parts that matter later are in shape: a
  token of the text follows the last item of a list, a closing punctuator ends the list, a rest is the
  last part of a pattern, and a property that is a name alone begins with that name and has it for its
  value.
-/

set_option autoImplicit false

namespace EditionCheck.Script

open EditionCheck.Text

/-! ## Leaves -/

/-- Whether a leaf of a kind is what a token with a given content is kept as. -/
def Kind.spells : Kind → Lexeme → Bool
  | reference x, .name y _ => x == y
  | bindingName x, .name y _ => x == y
  | propertyName x, .name y _ => x == y
  | labelName x, .name y _ => x == y
  | privateName x, .privateName y => x == y
  | numericLiteral legacy, .number legacy' => legacy == legacy'
  | bigIntLiteral, .bigInt => true
  | stringLiteral value legacy, .string _ value' legacy' => value == value' && legacy == legacy'
  | regExpLiteral, .regExp => true
  | _, _ => false

/-- A leaf stands for a token with characters. -/
theorem Kind.isSolid_of_spells {kind : Kind} {l : Lexeme} (h : kind.spells l) : l.isSolid := by
  cases l with
  | endOfText => cases kind <;> cases h
  | invalid => cases kind <;> cases h
  | _ => rfl

/-- Whether a node may cover nothing: a hole in a row, or a script. -/
def Kind.isBlank : Kind → Bool
  | hole => true
  | program => true
  | _ => false

/-- Whether a token must be kept: a literal, a private name, or a name that is no keyword because it is
written with an escape. -/
def Token.isKept (t : Token) : Bool :=
  match t.lexeme with
  | .name _ escaped => escaped
  | .privateName _ => true
  | .number _ => true
  | .bigInt => true
  | .string _ _ _ => true
  | .regExp => true
  | _ => false

namespace Node

/-- A tree keeps a token: a leaf stands for it. -/
def Keeps (n : Node) (t : Token) : Prop :=
  ∃ leaf ∈ n.preorder, leaf.span = t.span ∧ leaf.kind.spells t.lexeme

/-- One of a row of trees keeps a token. -/
def Kept (ns : List Node) (t : Token) : Prop := ∃ n ∈ ns, n.Keeps t

variable {n m : Node} {ns ms : List Node} {t : Token} {kind : Kind} {span : Span}

@[simp] theorem not_kept_nil : ¬ Kept [] t := fun ⟨_, hn, _⟩ => absurd hn List.not_mem_nil

@[simp] theorem kept_cons : Kept (n :: ns) t ↔ n.Keeps t ∨ Kept ns t := by simp [Kept]

@[simp] theorem kept_append : Kept (ns ++ ms) t ↔ Kept ns t ∨ Kept ms t := by
  simp only [Kept, List.mem_append, or_and_right, exists_or]

@[simp] theorem keeps_mk :
    (mk kind span ns).Keeps t ↔ (span = t.span ∧ kind.spells t.lexeme) ∨ Kept ns t := by
  constructor
  · rintro ⟨leaf, hleaf, h⟩
    rcases mem_preorder_iff.1 hleaf with rfl | ⟨c, hc, hleaf⟩
    · exact .inl h
    · exact .inr ⟨c, hc, leaf, hleaf, h⟩
  · rintro (h | ⟨c, hc, leaf, hleaf, h⟩)
    · exact ⟨_, self_mem_preorder _, h⟩
    · exact ⟨leaf, mem_preorder_iff.2 (.inr ⟨c, hc, hleaf⟩), h⟩

theorem Kept.nest (h : Kept ns t) : Kept [mk kind span ns] t :=
  kept_cons.2 (.inl (keeps_mk.2 (.inr h)))

/-! ## Shapes -/

/-- Only the last of some parts is a rest of a given kind. -/
def RestLast (rest : Kind) (parts : List Node) : Prop := ∀ c ∈ parts.dropLast, c.kind ≠ rest

/-- A token of the text follows the item that ends at an offset; if it is a comma, the list that ends at
another offset holds it. -/
structure Closed (text : List Char) (stop close : Nat) : Prop where
  standsIn : (Cursor.ofOffset text stop).StandsIn text
  valid : (tokenAfter text stop).lexeme ≠ .invalid
  comma : (tokenAfter text stop).isPunctuator .comma → (tokenAfter text stop).span.stop ≤ close

/-- A token that is a given punctuator ends at an offset of a text. -/
def ClosesAt (text : List Char) (close : Punctuator) (stop : Nat) : Prop :=
  ∃ t : Token, t.StandsIn text ∧ t.isPunctuator close ∧ t.span.stop = stop

/-- The last of some items of a list with a given span, if there is one, ends in the list and is followed
by a token of the text. What is behind it ends with the punctuator that closes the list. -/
def ItemsClosed (text : List Char) (close : Punctuator) (items : List Node) (span : Span) : Prop :=
  ∀ l, items.getLast? = some l →
    (span.start ≤ l.span.stop ∧ Closed text l.span.stop span.stop)
      ∧ (l.span.stop < span.stop → ClosesAt text close span.stop)

/-- The parts of a node that matter later are in shape. -/
def Fits (text : List Char) (n : Node) : Prop :=
  match n.kind with
  | .program => n.span.start = 0
  | .reference _ => n.children = []
  | .simpleTarget => ∀ c ∈ n.children, c.span = n.span
  | .objectProperty _ true _ => ∃ name s more, s.start = n.span.start
      ∧ n.children = mk (.propertyName name) s [] :: mk (.reference name) s [] :: more
  | .objectPattern => RestLast .restElement n.children
  | .objectTarget => RestLast .restTarget n.children
  | .call _ => ItemsClosed text .rparen n.children.tail n.span
  | .newCall _ => ItemsClosed text .rparen n.children.tail n.span
  | .objectLiteral _ => ItemsClosed text .rbrace n.children n.span
  | .parameters _ => ItemsClosed text .rparen n.children n.span
      ∧ ∀ l, n.children.getLast? = some l → l.kind = .restElement →
          (tokenAfter text l.span.stop).isPunctuator .comma = false
  | _ => True

/-- A node covers a part of the text that is not empty, unless it may cover nothing. -/
def Placed (text : List Char) (n : Node) : Prop := n.kind.isBlank = false → Stretch text n.span

/-- Every node of a tree covers a part of the text and is in shape. -/
def Faithful (text : List Char) (n : Node) : Prop := ∀ m ∈ n.preorder, m.Fits text ∧ m.Placed text

/-- Every node of a row of trees covers a part of the text and is in shape. -/
def AllFaithful (text : List Char) (ns : List Node) : Prop := ∀ n ∈ ns, n.Faithful text

section

variable {text : List Char}

theorem Faithful.fits (h : n.Faithful text) : n.Fits text := (h n (self_mem_preorder n)).1

/-- A node that does not stand for nothing covers a part of the text. -/
theorem Faithful.stretch (h : n.Faithful text) (hn : n.kind.isBlank = false) : Stretch text n.span :=
  (h n (self_mem_preorder n)).2 hn

theorem Faithful.of_mem (h : n.Faithful text) (hm : m ∈ n.preorder) : m.Faithful text :=
  fun k hk => h k (mem_preorder_trans hk hm)

theorem Faithful.children (h : n.Faithful text) : AllFaithful text n.children :=
  fun c hc m hm => h m (mem_preorder_iff.2 (.inr ⟨c, hc, hm⟩))

theorem AllFaithful.node (h : AllFaithful text ns) (hfits : (mk kind span ns).Fits text)
    (hplaced : (mk kind span ns).Placed text) : (mk kind span ns).Faithful text := by
  intro m hm
  rcases mem_preorder_iff.1 hm with rfl | ⟨c, hc, hm⟩
  · exact ⟨hfits, hplaced⟩
  · exact h c hc m hm

@[simp] theorem allFaithful_nil : AllFaithful text [] := fun _ h => absurd h List.not_mem_nil

@[simp] theorem allFaithful_cons :
    AllFaithful text (n :: ns) ↔ n.Faithful text ∧ AllFaithful text ns := List.forall_mem_cons

@[simp] theorem allFaithful_append :
    AllFaithful text (ns ++ ms) ↔ AllFaithful text ns ∧ AllFaithful text ms :=
  List.forall_mem_append

theorem allFaithful_one (h : n.Faithful text) : AllFaithful text [n] :=
  allFaithful_cons.2 ⟨h, allFaithful_nil⟩

theorem faithful_leaf (hfits : (mk kind span []).Fits text) (hplaced : (mk kind span []).Placed text) :
    (mk kind span []).Faithful text := allFaithful_nil.node hfits hplaced

theorem restLast_nil (rest : Kind) : RestLast rest [] := fun _ h => absurd h List.not_mem_nil

theorem restLast_one (rest : Kind) (n : Node) : RestLast rest [n] :=
  fun _ h => absurd h List.not_mem_nil

theorem RestLast.cons {rest : Kind} (h : RestLast rest ns) (hn : n.kind ≠ rest) :
    RestLast rest (n :: ns) := by
  cases ns with
  | nil => exact restLast_one rest n
  | cons m ns => exact List.forall_mem_cons.2 ⟨hn, h⟩

end

end Node

end EditionCheck.Script
