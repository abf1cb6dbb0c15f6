import EditionCheck.Proofs.Leaves
import EditionCheck.Proofs.Raised

/-!
# Where a node requires its features

The requirements of a node are written at four kinds of places, whatever the feature is.

* `RequiredAt` — the node itself, a part of it, the beginning of a script, or the end of a list;
* `requiredAt_of_mem` — a node in shape requires nothing anywhere else.
-/

set_option autoImplicit false

namespace EditionCheck

/-- The punctuator behind the comma, where a feature is a comma at the end of a list. -/
def Feature.closer? : Feature → Option Script.Punctuator
  | functionTrailingComma => some .rparen
  | objectTrailingComma => some .rbrace
  | _ => none

end EditionCheck

namespace EditionCheck.Script

/-- Whether the features of a node are those of the node itself, and not of its parts, of the end of a
list or of the whole text. -/
def Kind.isUser : Kind → Bool
  | program => false
  | hole => false
  | objectLiteral _ => false
  | call _ => false
  | newCall _ => false
  | parameters _ => false
  | _ => true

theorem Kind.isBlank_of_isUser {kind : Kind} (h : kind.isUser = true) : kind.isBlank = false := by
  cases kind <;> first | rfl | cases h

end EditionCheck.Script

namespace EditionCheck.Scan

open EditionCheck.Text EditionCheck.Script Node

variable {text : List Char} {n : Node} {r : Requirement}

/-- Where a node requires a feature. -/
inductive RequiredAt (text : List Char) (n : Node) (r : Requirement) : Prop
  /-- Most features are those of the node itself. -/
  | node : n.kind.isUser = true → r.span = n.span → RequiredAt text n r
  /-- A rest or spread of properties is a part of the node. -/
  | part (c : Node) :
      c ∈ n.children → c.kind.isBlank = false → r = ⟨.objectRestSpread, c.span⟩ → RequiredAt text n r
  /-- The mark of a script is in its first two characters. -/
  | mark : n.kind = .program → ['#', '!'] <+: text → r = ⟨.hashbang, ⟨0, 2⟩⟩ → RequiredAt text n r
  /-- A comma at the end of a list is behind its last item. -/
  | comma {close : Punctuator} {items : List Node} (l : Node) :
      ItemsClosed text close items n.span → items.getLast? = some l → l.span.stop < n.span.stop →
      beginsWithComma (Span.slice text ⟨l.span.stop, n.span.stop⟩) →
      r.feature.closer? = some close → r.span = ⟨l.span.stop, n.span.stop⟩ → RequiredAt text n r

theorem requiredAt_of_commaBehind {feature : Feature} {close : Punctuator} {items : List Node}
    (hclose : feature.closer? = some close) (hclosed : ItemsClosed text close items n.span)
    (hr : r ∈ commaBehind text feature (items.getLast?.map Node.span) n.span) : RequiredAt text n r := by
  obtain ⟨s, hs, hlt, hcomma, rfl⟩ := mem_commaBehind.1 hr
  obtain ⟨l, hl, rfl⟩ := Option.map_eq_some_iff.1 hs
  exact .comma l hclosed hl hlt hcomma hclose rfl

theorem requiredAt_of_targetRequirements (hkind : n.kind.isUser = true)
    (hr : r ∈ targetRequirements n.span n.children.head?) : RequiredAt text n r := by
  unfold targetRequirements at hr
  split at hr
  · cases List.mem_singleton.1 hr
    exact .node hkind rfl
  · next s parts htarget =>
    rcases List.mem_cons.1 hr with rfl | hr
    · exact .node hkind rfl
    · split at hr
      · exact .part _ (List.mem_of_head? htarget) rfl (List.mem_singleton.1 hr)
      · cases hr
  · cases hr

/-- **A node requires its features at such a place.** -/
theorem requiredAt_of_mem (hfits : n.Fits text) (hr : r ∈ ownRequirements text n) :
    RequiredAt text n r := by
  obtain ⟨kind, s, cs⟩ := n
  cases kind with
  | program =>
    simp only [ownRequirements, kind_mk] at hr
    split at hr
    · next hmark => exact .mark rfl (List.isPrefixOf_iff_prefix.1 hmark) (List.mem_singleton.1 hr)
    · cases hr
  | reference | bindingName | propertyName | stringLiteral | numericLiteral | regExpLiteral
  | objectProperty | function | arrowFunction => exact .node rfl (mem_requireAt.1 hr).2
  | objectLiteral =>
    rcases List.mem_append.1 hr with hr | hr
    · obtain ⟨c, hc, rfl⟩ := List.mem_map.1 hr
      obtain ⟨hc, hspread⟩ := List.mem_filter.1 hc
      refine .part c hc ?_ rfl
      rw [beq_iff_eq.1 hspread]
      rfl
    · exact requiredAt_of_commaBehind rfl hfits hr
  | call | newCall => exact requiredAt_of_commaBehind rfl hfits hr
  | parameters =>
    simp only [ownRequirements, kind_mk] at hr
    split at hr
    · cases hr
    · exact requiredAt_of_commaBehind rfl hfits.1 hr
  | binary op =>
    cases op with
    | power => exact .node rfl (List.mem_singleton.1 hr ▸ rfl)
    | _ => cases hr
  | logical op =>
    cases op with
    | coalesce => exact .node rfl (List.mem_singleton.1 hr ▸ rfl)
    | _ => cases hr
  | assignment op =>
    rcases List.mem_append.1 hr with hr | hr
    · exact .node rfl (mem_requireAt.1 hr).2
    · exact requiredAt_of_targetRequirements rfl hr
  | objectPattern =>
    rcases List.mem_cons.1 hr with rfl | hr
    · exact .node rfl rfl
    · obtain ⟨c, hc, rfl⟩ := List.mem_map.1 hr
      obtain ⟨hlast, hrest⟩ := Option.filter_eq_some_iff.1 (Option.mem_toList.1 hc)
      refine .part c (List.mem_of_getLast? hlast) ?_ rfl
      rw [beq_iff_eq.1 hrest]
      rfl
  | variableDeclaration word =>
    cases word with
    | var => cases hr
    | _ => exact .node rfl (List.mem_singleton.1 hr ▸ rfl)
  | catchClause hasParameter =>
    cases hasParameter with
    | false => exact .node rfl (List.mem_singleton.1 hr ▸ rfl)
    | true => cases hr
  | _ =>
    first
    | exact absurd hr List.not_mem_nil
    | exact .node rfl (List.mem_singleton.1 hr ▸ rfl)

end EditionCheck.Scan
