import EditionCheck.Proofs.Made.Statement
import EditionCheck.Proofs.NextComma
import EditionCheck.Proofs.Raised
import EditionCheck.Proofs.Versions

/-!
# Trailing commas

Which commas behind the last item of a list the walk for newer syntax reports.

* `Node.commaList?` — the lists: arguments, parameters and the properties of an object;
* `comma_seen_iff` — a comma is looked for in the text behind the last item, and found just when it is
  the next token and only white space stands in front of it;
* `trailing_comma_required_iff` — so a comma behind a comment is not reported, and every other one is.
-/

set_option autoImplicit false

namespace EditionCheck.Script.Node

open EditionCheck.Text

/-- The items of a node that is a list which a comma may end, with the feature that this comma is. -/
def commaList? (n : Node) : Option (Feature × List Node) :=
  match n.kind with
  | .call _ => some (.functionTrailingComma, n.children.tail)
  | .newCall _ => some (.functionTrailingComma, n.children.tail)
  | .parameters _ => some (.functionTrailingComma, n.children)
  | .objectLiteral _ => some (.objectTrailingComma, n.children)
  | _ => none

/-- A comma is the next token behind an offset, and nothing but white space stands in front of it. -/
def PlainComma (text : List Char) (stop : Nat) : Prop :=
  (tokenAfter text stop).isPunctuator .comma
    ∧ ∀ c ∈ Span.slice text ⟨stop, (tokenAfter text stop).span.start⟩, isWhiteSpace c = true

instance (text : List Char) (stop : Nat) : Decidable (PlainComma text stop) :=
  inferInstanceAs (Decidable (_ ∧ _))

end EditionCheck.Script.Node

namespace EditionCheck.Scan

open EditionCheck.Text EditionCheck.Script Node

/-! ## Looking for a comma in the text -/

theorem beginsWithComma_iff {cs : List Char} :
    beginsWithComma cs ↔ ∃ ws r, cs = ws ++ ',' :: r ∧ ∀ c ∈ ws, isWhiteSpace c = true := by
  rw [beginsWithComma, beq_iff_eq, trimStart]
  constructor
  · intro h
    obtain ⟨r, hr⟩ := List.head?_eq_some_iff.1 h
    refine ⟨cs.takeWhile isWhiteSpace, r, ?_, List.all_eq_true.1 List.all_takeWhile⟩
    rw [← hr, List.takeWhile_append_dropWhile]
  · rintro ⟨ws, r, rfl, hws⟩
    rw [List.dropWhile_append_of_pos hws]
    rfl

variable {text : List Char} {stop close : Nat} {f : Feature} {items : List Node} {n l : Node}

/-- A comma is found in the text behind an offset just when it is the next token and only white space
stands in front of it. -/
theorem comma_seen_iff (h : Closed text stop close) :
    (stop < close ∧ beginsWithComma (Span.slice text ⟨stop, close⟩)) ↔ PlainComma text stop := by
  have hslice (gap rest : List Char) (hrest : dropBytes stop text = gap ++ rest) :
      Span.slice text ⟨stop, stop + byteLength gap⟩ = gap := by
    rw [Span.slice, hrest, Nat.add_sub_cancel_left, takeBytes_append]
  constructor
  · rintro ⟨-, hcomma⟩
    obtain ⟨ws, r, hbegins, hws⟩ := beginsWithComma_iff.1 hcomma
    obtain ⟨rest, hrest⟩ : ∃ rest, dropBytes stop text = ws ++ ',' :: rest := by
      refine ⟨r ++ dropBytes (close - stop) (dropBytes stop text), ?_⟩
      rw [← List.cons_append, ← List.append_assoc, ← hbegins]
      exact (takeBytes_append_dropBytes _ _).symm
    obtain ⟨hnext, hstart⟩ := tokenIn_of_whiteSpace (c := Cursor.ofOffset text stop) hws hrest h.valid
    refine ⟨hnext, ?_⟩
    show ∀ c ∈ Span.slice text ⟨stop, (tokenIn .blanks false (Cursor.ofOffset text stop)).span.start⟩, _
    rw [hstart, Cursor.ofOffset, hslice ws _ hrest]
    exact hws
  · rintro ⟨hnext, hws⟩
    have hclose := h.comma hnext
    obtain ⟨gap, r, hrest, hspan⟩ := exists_gap_of_comma hnext
    have hspan : (tokenAfter text stop).span
        = ⟨stop + byteLength gap, stop + byteLength gap + 1⟩ := hspan
    have hrest : dropBytes stop text = gap ++ ',' :: r := hrest
    rw [hspan] at hclose hws
    rw [hslice gap _ hrest] at hws
    dsimp only at hclose
    refine ⟨by omega, beginsWithComma_iff.2
      ⟨gap, takeBytes (close - stop - byteLength gap - 1) r, ?_, hws⟩⟩
    show takeBytes (close - stop) (dropBytes stop text) = _
    rw [hrest, takeBytes_append_of_le (by omega), takeBytes, if_neg (by omega)]
    rfl

theorem any_commaBehind_iff {span : Span} (h : Closed text l.span.stop span.stop) :
    (commaBehind text f (some l.span) span).any (·.feature == f) ↔ PlainComma text l.span.stop := by
  rw [← comma_seen_iff h, List.any_eq_true]
  constructor
  · rintro ⟨r, hr, -⟩
    obtain ⟨last, hlast, hlt, hcomma, -⟩ := mem_commaBehind.1 hr
    cases hlast
    exact ⟨hlt, hcomma⟩
  · rintro ⟨hlt, hcomma⟩
    exact ⟨_, mem_commaBehind.2 ⟨_, rfl, hlt, hcomma, rfl⟩, beq_self_eq_true f⟩

/-! ## What a list requires -/

/-- A list requires the feature just when such a comma stands behind its last item. -/
theorem requires_comma_iff (hn : n.Fits text) (hlist : n.commaList? = some (f, items))
    (hl : items.getLast? = some l) : requires text f n ↔ PlainComma text l.span.stop := by
  obtain ⟨kind, s, cs⟩ := n
  cases kind with
  | call | newCall =>
    cases hlist
    have hl : cs.tail.getLast? = some l := hl
    simp only [requires, ownRequirements, kind_mk, children_mk, span_mk, hl, Option.map_some]
    exact any_commaBehind_iff (hn l hl).1.2
  | objectLiteral =>
    cases hlist
    have hl : cs.getLast? = some l := hl
    have hspread : (((cs.filter (·.kind == .spreadProperty)).map
        fun p => (⟨.objectRestSpread, p.span⟩ : Requirement)).any
          (·.feature == .objectTrailingComma)) = false := by simp
    simp only [requires, ownRequirements, kind_mk, children_mk, span_mk, hl, Option.map_some,
      List.any_append, hspread, Bool.false_or]
    exact any_commaBehind_iff (hn l hl).1.2
  | parameters =>
    cases hlist
    have hl : cs.getLast? = some l := hl
    simp only [requires, ownRequirements, kind_mk, children_mk, span_mk, hl, Option.map_some]
    obtain ⟨hclosed, hrest⟩ := hn
    split
    · next hends =>
      -- only the closing parenthesis follows a rest
      have hkind : l.kind = .restElement := by simpa [endsWith, hl] using hends
      have hcomma := hrest l hl hkind
      simp [PlainComma, hcomma]
    · exact any_commaBehind_iff (hclosed l hl).1.2
  | _ => cases hlist

/-- Only lists with items require the features of trailing commas. -/
theorem exists_commaList_of_requires (hf : f = .functionTrailingComma ∨ f = .objectTrailingComma)
    (h : requires text f n) : ∃ items l, n.commaList? = some (f, items) ∧ items.getLast? = some l := by
  obtain ⟨r, hr, hfeature⟩ := requires_iff.1 h
  have hlast {feature : Feature} {cs : List Node} {s : Span}
      (h : r ∈ commaBehind text feature (cs.getLast?.map Node.span) s) :
      f = feature ∧ ∃ l, cs.getLast? = some l := by
    obtain ⟨span, hspan, -⟩ := mem_commaBehind.1 h
    obtain ⟨l, hl, -⟩ := Option.map_eq_some_iff.1 hspan
    exact ⟨hfeature.symm.trans (feature_of_mem_commaBehind h), l, hl⟩
  obtain ⟨kind, s, cs⟩ := n
  cases kind with
  | call | newCall =>
    obtain ⟨rfl, l, hl⟩ := hlast hr
    exact ⟨_, l, rfl, hl⟩
  | objectLiteral =>
    rcases List.mem_append.1 hr with hr | hr
    · obtain ⟨c, -, rfl⟩ := List.mem_map.1 hr
      rcases hf with rfl | rfl <;> cases hfeature
    · obtain ⟨rfl, l, hl⟩ := hlast hr
      exact ⟨_, l, rfl, hl⟩
  | parameters =>
    simp only [ownRequirements, kind_mk] at hr
    split at hr
    · cases hr
    · obtain ⟨rfl, l, hl⟩ := hlast hr
      exact ⟨_, l, rfl, hl⟩
  | _ =>
    have hlisted := mem_features_of_mem hr
    rw [hfeature] at hlisted
    rcases hf with rfl | rfl <;> simp [Kind.features] at hlisted

end EditionCheck.Scan

namespace EditionCheck

open EditionCheck.Text EditionCheck.Scan EditionCheck.Script Node

/-! ## What is reported -/

/-- **A trailing comma is reported just when only white space stands in front of it.** For a list with
items in a script, the feature of a trailing comma is required just when a comma is the next token
behind the last item and nothing but white space stands in front of it. Nothing else requires these
features, and an array requires nothing. Such a comma is reported for every target that lacks the
feature, and the script does not pass. -/
theorem trailing_comma_required_iff (text : String) {program : Node}
    (hparse : parse text.toList = .ok program) :
    (∀ n ∈ program.preorder, ∀ f items l, n.commaList? = some (f, items) → items.getLast? = some l →
        (requires text.toList f n ↔ PlainComma text.toList l.span.stop))
      ∧ (∀ n ∈ program.preorder, ∀ f, f = .functionTrailingComma ∨ f = .objectTrailingComma →
          requires text.toList f n →
            ∃ items l, n.commaList? = some (f, items) ∧ items.getLast? = some l)
      ∧ (∀ n ∈ program.preorder, ∀ trailing, n.kind = .arrayLiteral trailing →
          ownRequirements text.toList n = [])
      ∧ ∀ n ∈ program.preorder, ∀ f items l, n.commaList? = some (f, items) →
          items.getLast? = some l → PlainComma text.toList l.span.stop →
            ∀ target : Edition, target < f.edition →
              (firstNewer text.toList target program).isSome
                ∧ ∀ v : Grammar, v.edition = target → validate text v ≠ .pass := by
  have hiff (n : Node) (hn : n ∈ program.preorder) (f : Feature) (items : List Node) (l : Node)
      (hlist : n.commaList? = some (f, items)) (hl : items.getLast? = some l) :
      requires text.toList f n ↔ PlainComma text.toList l.span.stop :=
    requires_comma_iff ((faithful_of_parse hparse).of_mem hn).fits hlist hl
  refine ⟨hiff, fun n _ f hf h => exists_commaList_of_requires hf h, fun n _ trailing hkind => ?_, ?_⟩
  · simp only [ownRequirements, hkind]
  · intro n hn f items l hlist hl hcomma target hold
    obtain ⟨r, hr, rfl⟩ := requires_iff.1 ((hiff n hn f items l hlist hl).2 hcomma)
    have hsome : (firstNewer text.toList target program).isSome :=
      isSome_firstNewer_iff.2 ⟨n, hn, r, hr, hold⟩
    refine ⟨hsome, ?_⟩
    rintro v rfl
    exact Parser.script.validate_ne_pass hparse hsome

/-- A comma behind a space ends the arguments of a call. -/
theorem trailing_comma_required_call :
    ∃ program, parse "f(a ,)".toList = .ok program
      ∧ ∃ n ∈ program.preorder, ∃ items l, n.commaList? = some (.functionTrailingComma, items)
          ∧ items.getLast? = some l ∧ requires "f(a ,)".toList .functionTrailingComma n
          ∧ PlainComma "f(a ,)".toList l.span.stop := by
  have hread : (parse "f(a ,)".toList).toOption.any (fun program =>
      program.preorder.any fun n => requires "f(a ,)".toList .functionTrailingComma n) := by
    decide +kernel
  obtain ⟨program, hparse, hrequires⟩ := exists_of_any_parse hread
  obtain ⟨n, hn, hrequires⟩ := List.any_eq_true.1 hrequires
  obtain ⟨hiff, hlists, -, -⟩ := trailing_comma_required_iff "f(a ,)" hparse
  obtain ⟨items, l, hlist, hl⟩ := hlists n hn _ (.inl rfl) hrequires
  exact ⟨program, hparse, n, hn, items, l, hlist, hl, hrequires,
    (hiff n hn _ items l hlist hl).1 hrequires⟩

/-- A comma behind a comment is the next token, but is not reported, and the script passes. -/
theorem comma_behind_comment_not_required :
    validate "f(a/**/,)" .v5 = .pass
      ∧ ¬ ∀ (text : String) (program : Node), parse text.toList = .ok program →
          ∀ n ∈ program.preorder, ∀ f items l, n.commaList? = some (f, items) →
            items.getLast? = some l →
              (requires text.toList f n
                ↔ (tokenAfter text.toList l.span.stop).isPunctuator .comma) := by
  refine ⟨by decide +kernel, fun hall => ?_⟩
  have hread : (parse "f(a/**/,)".toList).toOption.any (fun program =>
      program.preorder.any fun n => n.commaList?.any fun r => r.2.getLast?.any fun l =>
        (tokenAfter "f(a/**/,)".toList l.span.stop).isPunctuator .comma
          && !requires "f(a/**/,)".toList r.1 n) := by decide +kernel
  obtain ⟨program, hparse, hread⟩ := exists_of_any_parse hread
  obtain ⟨n, hn, hread⟩ := List.any_eq_true.1 hread
  obtain ⟨⟨f, items⟩, hlist, hread⟩ := (Option.any_eq_true _ _).1 hread
  obtain ⟨l, hl, hread⟩ := (Option.any_eq_true _ _).1 hread
  obtain ⟨hcomma, hnot⟩ := Bool.and_eq_true_iff.1 hread
  rw [(hall _ program hparse n hn f items l hlist hl).2 hcomma] at hnot
  cases hnot

end EditionCheck
