import EditionCheck.Proofs.Recast
import EditionCheck.Proofs.Running

/-!
# What a production takes and what it makes

A production takes a row of tokens off a script and makes a node from them. The node spans these tokens,
is in shape, keeps those of them that must be kept, and its nodes begin in order.

* `Passage` — the tokens between two places, where a slash may have been read again as a regular
  expression and a brace as the end of a substitution; `TokensFrom` — those up to the end of a text;
* `Keeping` — a row of trees that is faithful and keeps the tokens between two places;
* `Row` — such a row whose nodes begin in order; `Begun` — one behind whose first token something has been
  read, so that it covers a part of the text;
* `Row.nil`, `Row.skip`, `Row.add`, `Begun.append` and `Begun.recast` build one up token by token;
* `Spans`, `Made` — one such tree, with the span of the tokens that it is made from;
* `Listing`, `Listed`, `listed_commaList` — lists with commas, and what follows each of their items.
-/

set_option autoImplicit false

namespace EditionCheck.Script

open EditionCheck.Text Reader Node

/-! ## Passages -/

/-- A token is read as it is, or again where the grammar asks for it. -/
inductive Token.ReadAs (t : Token) : Token → Prop
  | plain : ReadAs t t
  | regExp : t.isPunctuator .slash ∨ t.isPunctuator .slashAssign → ReadAs t t.asRegExp
  | templateTail : t.isPunctuator .rbrace → ReadAs t t.asTemplateTail

/-- The tokens that lie between two places. -/
inductive Passage (p : Place) : List Token → Place → Prop
  | nil : Passage p [] p
  | take {ts : List Token} {q : Place} {t : Token} :
      Passage p ts q → q.token.ReadAs t → Passage p (ts ++ [t]) (q.reread t).behind

theorem Passage.append {p q r : Place} {ts us : List Token} (h : Passage p ts q)
    (h' : Passage q us r) : Passage p (ts ++ us) r := by
  induction h' with
  | nil => rwa [List.append_nil]
  | take _ hread ih =>
    rw [← List.append_assoc]
    exact ih.take hread

/-- The tokens of a text from one of them to the end of the text. -/
inductive TokensFrom : Token → List Token → Prop
  | endOfText {t : Token} : t.lexeme = .endOfText → TokensFrom t []
  | cons {t u : Token} {ts : List Token} :
      t.ReadAs u → TokensFrom u.next ts → TokensFrom t (u :: ts)

theorem Passage.tokensFrom {p q : Place} {ts us : List Token} (h : Passage p ts q)
    (h' : TokensFrom q.token us) : TokensFrom p.token (ts ++ us) := by
  induction h generalizing us with
  | nil => exact h'
  | take _ hread ih =>
    rw [List.append_assoc]
    exact ih (.cons hread h')

section

variable {text : List Char} {p q r : Place} {ts : List Token} {t u : Token}

theorem Token.StandsIn.readAs (h : t.StandsIn text) (hread : t.ReadAs u) : u.StandsIn text := by
  cases hread with
  | plain => exact h
  | regExp => exact h.asRegExp
  | templateTail => exact h.asTemplateTail

theorem TokensFrom.standsIn (h : TokensFrom t ts) (ht : t.StandsIn text) :
    ∀ u ∈ ts, u.StandsIn text := by
  induction h with
  | endOfText => exact fun _ hu => absurd hu List.not_mem_nil
  | cons hread _ ih =>
    have hu := ht.readAs hread
    exact List.forall_mem_cons.2 ⟨hu, ih hu.next⟩

theorem Passage.standsIn (h : Passage p ts q) (hp : p.token.StandsIn text) :
    q.token.StandsIn text := by
  induction h with
  | nil => exact hp
  | take _ hread ih => exact (ih.readAs hread).next

/-- The next token is the one that follows the end of the token read last. -/
structure Place.Follows (text : List Char) (p : Place) : Prop where
  standsIn : (Cursor.ofOffset text p.lastStop).StandsIn text
  token_eq : p.token = tokenAfter text p.lastStop

theorem follows_behind (h : p.token.StandsIn text) : p.behind.Follows text := ⟨h.stop, h.next_eq⟩

theorem Token.ReadAs.start_eq (h : t.ReadAs u) (ht : t.StandsIn text) :
    u.span.start = t.span.start := by
  rw [(ht.readAs h).span_eq, ht.span_eq]
  cases h with
  | plain | regExp | templateTail => rfl

theorem Passage.follows (h : Passage p ts q) (hp : p.token.StandsIn text) (hfollows : p.Follows text) :
    q.Follows text := by
  cases h with
  | nil => exact hfollows
  | take hbefore hread => exact follows_behind ((hbefore.standsIn hp).readAs hread)

theorem Place.Follows.lastStop_le (h : p.Follows text) : p.lastStop ≤ p.token.span.start := by
  have htoken : p.token.StandsIn text := by
    rw [h.token_eq]
    exact standsIn_tokenIn _ _ h.standsIn
  rw [htoken.span_eq, h.token_eq]
  show p.lastStop ≤ (tokenAfter text p.lastStop).origin.offset
  exact (reaches_origin_tokenIn .blanks false (Cursor.ofOffset text p.lastStop)).offset_le

/-- What is read last never ends earlier than before. -/
theorem Passage.lastStop_le (h : Passage p ts q) (hp : p.token.StandsIn text)
    (hfollows : p.Follows text) : p.lastStop ≤ q.lastStop := by
  induction h with
  | nil => exact Nat.le_refl _
  | @take ts q t hbefore hread ih =>
    have hstart := hread.start_eq (hbefore.standsIn hp)
    have hstop := ((hbefore.standsIn hp).readAs hread).start_le_stop
    have hlast := (hbefore.follows hp hfollows).lastStop_le
    have hbehind : (q.reread t).behind.lastStop = t.span.stop := rfl
    omega

end

/-! ## Tokens that need not be kept -/

/-- Whether a token may be passed over: it has characters, and need not be kept. -/
def Token.isPassed (t : Token) : Bool := t.lexeme.isSolid && !t.isKept

section

variable {t : Token} {c : Punctuator} {word : String}

theorem isSolid_of_isPassed (h : t.isPassed = true) : t.lexeme.isSolid := (Bool.and_eq_true_iff.1 h).1

theorem isKept_of_isPassed (h : t.isPassed = true) : t.isKept = false := by
  simpa using (Bool.and_eq_true_iff.1 h).2


theorem lexeme_of_isPunctuator (h : t.isPunctuator c = true) : t.lexeme = .punctuator c := by
  unfold Token.isPunctuator at h
  split at h
  · next q hq =>
    rw [hq, of_decide_eq_true h]
  · cases h

theorem lexeme_of_isWord (h : t.isWord word = true) : t.lexeme = .name word false := by
  unfold Token.isWord at h
  split at h
  · next text htext =>
    rw [htext, beq_iff_eq.1 h]
  · cases h

theorem isPunctuator_of_lexeme (h : t.lexeme = .punctuator c) : t.isPunctuator c = true := by
  rw [Token.isPunctuator, h]
  exact decide_eq_true rfl

theorem isWord_of_lexeme (h : t.lexeme = .name word false) : t.isWord word = true := by
  rw [Token.isWord, h]
  exact beq_self_eq_true word

theorem isPassed_of_isPunctuator (h : t.isPunctuator c = true) : t.isPassed = true := by
  rw [Token.isPassed, Token.isKept, lexeme_of_isPunctuator h]
  rfl

theorem isPassed_of_isWord (h : t.isWord word = true) : t.isPassed = true := by
  rw [Token.isPassed, Token.isKept, lexeme_of_isWord h]
  rfl

end

/-! ## Rows -/

/-- A row of trees that is in shape and keeps the tokens between two places of a text. -/
structure Keeping (text : List Char) (p : Place) (ns : List Node) (q : Place) : Prop where
  standsIn : p.token.StandsIn text
  faithful : AllFaithful text ns
  passage : ∃ ts, Passage p ts q ∧ ∀ t ∈ ts, t.isKept → Kept ns t

/-- Such a row, whose nodes begin in order between the two places. -/
structure Row (text : List Char) (p : Place) (ns : List Node) (q : Place) : Prop extends
    Keeping text p ns q where
  ordered : Ordered p.token.span.start ns q.token.span.start

/-- Such a row for which at least one token was read. -/
structure Begun (text : List Char) (p : Place) (ns : List Node) (q : Place) : Prop extends
    Row text p ns q where
  follows : q.Follows text
  advanced : p.token.span.start < q.lastStop

/-- A tree that is in shape, keeps the tokens between two places, and has their span. -/
structure Spans (text : List Char) (p : Place) (n : Node) (q : Place) : Prop where
  row : Begun text p [n] q
  span : n.span = ⟨p.token.span.start, q.lastStop⟩

/-- What most productions make: such a tree, which is no rest element. -/
structure Made (text : List Char) (p : Place) (n : Node) (q : Place) : Prop extends
    Spans text p n q where
  plain : n.kind ≠ .restElement

namespace Row

variable {text : List Char} {p q r : Place} {ns ms : List Node} {n : Node} {kind : Kind}

theorem nil (h : p.token.StandsIn text) : Row text p [] p :=
  ⟨⟨h, allFaithful_nil, [], .nil, fun _ ht => absurd ht List.not_mem_nil⟩, .nil (Nat.le_refl _)⟩

theorem next (h : Row text p ns q) : q.token.StandsIn text := by
  obtain ⟨ts, hpassage, -⟩ := h.passage
  exact hpassage.standsIn h.standsIn

theorem follows (h : Row text p ns q) (hp : p.Follows text) : q.Follows text := by
  obtain ⟨ts, hpassage, -⟩ := h.passage
  exact hpassage.follows h.standsIn hp

theorem lastStop_le (h : Row text p ns q) (hp : p.Follows text) : p.lastStop ≤ q.lastStop := by
  obtain ⟨ts, hpassage, -⟩ := h.passage
  exact hpassage.lastStop_le h.standsIn hp

theorem recast (h : Row text p ns q) (hrecast : Recast text ns ms) : Row text p ms q := by
  obtain ⟨ts, hpassage, hkept⟩ := h.passage
  exact ⟨⟨h.standsIn, hrecast.faithful, ts, hpassage, fun t ht hk => hrecast.kept t (hkept t ht hk)⟩,
    hrecast.ordered _ _ h.ordered⟩

theorem append (h : Row text p ns q) (h' : Row text q ms r) : Row text p (ns ++ ms) r := by
  obtain ⟨ts, hpassage, hkept⟩ := h.passage
  obtain ⟨us, hpassage', hkept'⟩ := h'.passage
  refine ⟨⟨h.standsIn, allFaithful_append.2 ⟨h.faithful, h'.faithful⟩, ts ++ us,
    hpassage.append hpassage', fun t ht hk => kept_append.2 ?_⟩, h.ordered.append h'.ordered⟩
  rcases List.mem_append.1 ht with ht | ht
  · exact .inl (hkept t ht hk)
  · exact .inr (hkept' t ht hk)

/-- Something has been read at the end of a row, and so in the whole row. -/
theorem join (h : Row text p ns q) (h' : Begun text q ms r) : Begun text p (ns ++ ms) r :=
  ⟨h.append h'.toRow, h'.follows, Nat.lt_of_le_of_lt h.ordered.le h'.advanced⟩

theorem add (h : Row text p ns q) (hn : Made text q n r) : Begun text p (ns ++ [n]) r := h.join hn.row

/-- Where something is left out, a hole stands at the next token. -/
theorem hole (h : Row text p ns q) :
    Row text p (ns ++ [.mk .hole ⟨q.token.span.start, q.token.span.start⟩ []]) q := by
  refine h.append ⟨⟨h.next, allFaithful_one (faithful_leaf trivial nofun), [], .nil, ?_⟩, ?_⟩
  · exact fun _ ht => absurd ht List.not_mem_nil
  · exact ordered_leaf (Nat.le_refl _) (Nat.le_refl _)

/-- The next token is taken in some reading, and trees are added that keep it if it must be kept. -/
theorem take {t : Token} (h : Row text p ns q) (hread : q.token.ReadAs t) (hsolid : t.lexeme.isSolid)
    (hms : AllFaithful text ms) (hordered : Ordered t.span.start ms t.next.span.start)
    (hkept : t.isKept → Kept ms t) : Begun text p (ns ++ ms) (q.reread t).behind := by
  have ht := h.next.readAs hread
  have hstart := hread.start_eq h.next
  refine h.join ⟨⟨⟨h.next, hms, [t], .take .nil hread, fun u hu hk => ?_⟩, ?_⟩, follows_behind ht, ?_⟩
  · rw [List.mem_singleton.1 hu] at hk ⊢
    exact hkept hk
  · exact hstart ▸ hordered
  · exact hstart ▸ (ht.stretch hsolid).lt

/-- The next token is taken in some reading and becomes a leaf. -/
theorem leaf {t : Token} (h : Row text p ns q) (hread : q.token.ReadAs t)
    (hfits : (Node.mk kind t.span []).Fits text) (hspells : kind.spells t.lexeme) :
    Begun text p (ns ++ [.mk kind t.span []]) (q.reread t).behind := by
  have ht := h.next.readAs hread
  have hsolid := Kind.isSolid_of_spells hspells
  have hleaf := faithful_leaf hfits fun _ => ht.stretch hsolid
  refine h.take hread hsolid (allFaithful_one hleaf) ?_ fun _ => ?_
  · exact ordered_leaf (Nat.le_refl _) ht.start_le_next
  · exact kept_cons.2 (.inl (keeps_mk.2 (.inl ⟨rfl, hspells⟩)))

/-- The next token is passed over in some reading. -/
theorem pass {t : Token} (h : Row text p ns q) (hread : q.token.ReadAs t) (ht : t.isPassed = true) :
    Begun text p ns (q.reread t).behind := by
  have hnext := (h.next.readAs hread).start_le_next
  have htaken := h.take hread (isSolid_of_isPassed ht) allFaithful_nil (.nil hnext) fun hk =>
    absurd ((isKept_of_isPassed ht).symm.trans hk) Bool.false_ne_true
  rwa [List.append_nil] at htaken

/-- The next token is passed over. -/
theorem skip (h : Row text p ns q) (ht : q.token.isPassed = true) : Begun text p ns q.behind :=
  h.pass .plain ht

theorem punctuator {c : Punctuator} (h : Row text p ns q) (ht : q.token.isPunctuator c = true) :
    Begun text p ns q.behind := h.skip (isPassed_of_isPunctuator ht)

theorem word {word : String} (h : Row text p ns q) (ht : q.token.isWord word = true) :
    Begun text p ns q.behind := h.skip (isPassed_of_isWord ht)

/-- A word that may be missing. -/
theorem acceptWord (h : Row text p ns q) (word : String) :
    After (Reader.acceptWord word) q fun _ r => Row text p ns r := by
  rw [← bind_pure (Reader.acceptWord word)]
  exact .acceptWord (fun ht => .pure (h.word ht).toRow) fun _ => .pure h

end Row

namespace Begun

variable {text : List Char} {p q r : Place} {ns ms : List Node} {n : Node} {kind : Kind} {span : Span}

/-- What has been read covers a part of the text. -/
theorem stretch (h : Begun text p ns q) : Stretch text ⟨p.token.span.start, q.lastStop⟩ :=
  ⟨h.standsIn.start, h.follows.standsIn, h.advanced⟩

theorem recast (h : Begun text p ns q) (hrecast : Recast text ns ms) : Begun text p ms q :=
  ⟨h.toRow.recast hrecast, h.follows, h.advanced⟩

theorem append (h : Begun text p ns q) (h' : Row text q ms r) : Begun text p (ns ++ ms) r :=
  ⟨h.toRow.append h', h'.follows h.follows, Nat.lt_of_lt_of_le h.advanced (h'.lastStop_le h.follows)⟩

/-- A second leaf for the same text. -/
theorem again {kind' : Kind} (h : Begun text p [.mk kind span []] q) (hkind : kind.isBlank = false)
    (hfits : (Node.mk kind' span []).Fits text) :
    Begun text p [.mk kind span [], .mk kind' span []] q := by
  have hleaf : (Node.mk kind' span []).Faithful text :=
    faithful_leaf hfits fun _ => (allFaithful_cons.1 h.faithful).1.stretch hkind
  refine h.recast ⟨allFaithful_append.2 ⟨h.faithful, allFaithful_one hleaf⟩,
    fun _ ht => kept_append.2 (.inl ht), fun lo hi ho => ?_⟩
  obtain ⟨hlo, mid, hmid, hhi⟩ := ordered_mk.1 ho
  exact .cons hlo (.nil (Nat.le_refl _)) (ordered_leaf (Nat.le_refl _) (Nat.le_trans hmid.le hhi.le))

/-- A punctuator that may be missing. -/
theorem accept (h : Begun text p ns q) (c : Punctuator) :
    After (Reader.accept c) q fun _ r => Begun text p ns r := by
  rw [← bind_pure (Reader.accept c)]
  exact .accept (fun ht => .pure (h.punctuator ht)) fun _ => .pure h

/-- A word that may be missing. -/
theorem acceptWord (h : Begun text p ns q) (word : String) :
    After (Reader.acceptWord word) q fun _ r => Begun text p ns r := by
  rw [← bind_pure (Reader.acceptWord word)]
  exact .acceptWord (fun ht => .pure (h.word ht)) fun _ => .pure h

/-- The end of a statement. -/
theorem endStatement (h : Begun text p ns q) :
    After Reader.endStatement q fun _ r => Begun text p ns r := by
  rw [← bind_pure Reader.endStatement]
  exact .endStatement (fun ht => .pure (h.punctuator ht)) (.pure h)

/-- What has been read is put into a node that spans it. -/
theorem nest (h : Begun text p ms q) (hspan : span = ⟨p.token.span.start, q.lastStop⟩)
    (hfits : (Node.mk kind span ms).Fits text) : Begun text p [.mk kind span ms] q := by
  subst hspan
  obtain ⟨ts, hpassage, hkept⟩ := h.passage
  have hnode := h.faithful.node hfits fun _ => h.stretch
  refine ⟨⟨⟨h.standsIn, allFaithful_one hnode, ts, hpassage, fun t ht hk => ?_⟩, ?_⟩, h.follows,
    h.advanced⟩
  · exact (hkept t ht hk).nest
  · show Ordered p.token.span.start [.mk kind ⟨p.token.span.start, q.lastStop⟩ ms] _
    exact .nest h.ordered (Nat.le_refl _)

end Begun

section

variable {text : List Char} {p q r : Place} {ns : List Node} {n e : Node} {kind : Kind}

theorem Spans.next (h : Spans text p n q) : q.token.StandsIn text := h.row.next

theorem Spans.start (h : Spans text p n q) : n.span.start = p.token.span.start := by rw [h.span]

theorem Spans.stretch (h : Spans text p n q) : Stretch text n.span := h.span ▸ h.row.stretch

/-- A leaf for the next token. -/
theorem made_leaf (h : p.token.StandsIn text) (hspells : kind.spells p.token.lexeme)
    (hfits : (Node.mk kind p.token.span []).Fits text) :
    Made text p (.mk kind p.token.span []) p.behind := by
  refine ⟨⟨(Row.nil h).leaf .plain hfits hspells, rfl⟩, ?_⟩
  rintro rfl
  cases hspells

/-- A leaf for a token that need not be kept. -/
theorem made_skipped (h : p.token.StandsIn text) (ht : p.token.isPassed = true)
    (hfits : (Node.mk kind p.token.span []).Fits text) (hplain : kind ≠ .restElement) :
    Made text p (.mk kind p.token.span []) p.behind :=
  ⟨⟨((Row.nil h).skip ht).nest rfl hfits, rfl⟩, hplain⟩

theorem spans_node (h : Begun text p ns q)
    (hfits : (Node.mk kind ⟨p.token.span.start, q.lastStop⟩ ns).Fits text) :
    After (node p.token.span.start kind ns) q (Spans text p) :=
  .node ⟨h.nest rfl hfits, rfl⟩

/-- The node at the end of a production. -/
theorem made_node (h : Begun text p ns q)
    (hfits : (Node.mk kind ⟨p.token.span.start, q.lastStop⟩ ns).Fits text)
    (hplain : kind ≠ .restElement) :
    After (node p.token.span.start kind ns) q (Made text p) :=
  .node ⟨⟨h.nest rfl hfits, rfl⟩, hplain⟩

/-- A node around a single tree, with the same span. -/
theorem Made.around (h : Made text p n q) (hfits : (Node.mk kind n.span [n]).Fits text)
    (hplain : kind ≠ .restElement) : Made text p (.mk kind n.span [n]) q :=
  ⟨⟨h.row.nest h.span hfits, h.span⟩, hplain⟩

end

/-! ## Lists with commas -/

/-- A token follows a tree in a text. -/
structure Behind (text : List Char) (n : Node) (t : Token) : Prop where
  standsIn : (Cursor.ofOffset text n.span.stop).StandsIn text
  token_eq : t = tokenAfter text n.span.stop

/-- Only a closing punctuator follows a rest element. -/
def RestBefore (close : Punctuator) (n : Node) (t : Token) : Prop :=
  n.kind = .restElement → t.isPunctuator close

/-- Items that have been read up to a closing punctuator, which was taken. A comma follows each item but
the last one, which the closing punctuator may follow. -/
structure Listed (text : List Char) (close : Punctuator) (p : Place) (ns : List Node) (comma : Bool)
    (q : Place) : Prop where
  row : Begun text p ns q
  ends : ClosesAt text close q.lastStop
  inner : ∀ n ∈ ns.dropLast, ∃ t, RestBefore close n t ∧ t.isPunctuator .comma
  last : ∀ l, ns.getLast? = some l → ∃ t, RestBefore close l t ∧ Behind text l t
    ∧ t.span.stop ≤ q.lastStop ∧ t.isPunctuator (if comma then .comma else close)
  stops : ∀ n ∈ ns, p.lastStop ≤ n.span.stop
  stretch : ∀ n ∈ ns, Stretch text n.span

/-- Items that have been read so far, each with the comma behind it. -/
structure Listing (text : List Char) (close : Punctuator) (p : Place) (ns : List Node) (comma : Bool)
    (q : Place) : Prop where
  row : Row text p ns q
  follows : q.Follows text
  items : ∀ n ∈ ns, ∃ t, RestBefore close n t ∧ t.isPunctuator .comma
  last : ∀ l, ns.getLast? = some l → comma = true ∧ ∃ t, RestBefore close l t ∧ Behind text l t
    ∧ t.isPunctuator .comma ∧ t.span.stop = q.lastStop
  stops : ∀ n ∈ ns, p.lastStop ≤ n.span.stop
  stretch : ∀ n ∈ ns, Stretch text n.span

section

variable {text : List Char} {p q r : Place} {ns : List Node} {n : Node} {comma : Bool}
  {close : Punctuator} {item : Reader Node}

theorem closesAt_behind (h : p.token.StandsIn text) (hclose : p.token.isPunctuator close = true) :
    ClosesAt text close p.behind.lastStop := ⟨p.token, h, hclose, rfl⟩

theorem Spans.stop (h : Spans text p n q) : n.span.stop = q.lastStop := by rw [h.span]

theorem Spans.behind (h : Spans text p n q) : Behind text n q.token :=
  ⟨h.stop ▸ h.row.follows.standsIn, h.stop ▸ h.row.follows.token_eq⟩

/-- Items that follow each other. -/
theorem row_itemsUntil (hp : p.token.StandsIn text)
    (hitem : ∀ q, q.token.StandsIn text → After item q (Made text q)) :
    After (itemsUntil close item) p fun ns q => Begun text p ns q := by
  refine .itemsUntil (fun ns q => Row text p ns q) (.nil hp) ?_ ?_
  · exact fun ns q hrow _ => (hitem q hrow.next).mono fun n r hn => (hrow.add hn).toRow
  · exact fun ns q hrow hclose => hrow.punctuator hclose

/-- A list whose items may be anything that keeps its tokens. -/
theorem row_commaList (hp : p.token.StandsIn text)
    (hitem : ∀ q, q.token.StandsIn text → After item q fun n r => Row text q [n] r) :
    After (commaList close item) p fun r q => Begun text p r.1 q := by
  refine .commaList (fun ns _ q => Row text p ns q) (.nil hp) ?_ ?_
  · intro ns comma q hrow _
    refine (hitem q hrow.next).mono fun n r hn => ⟨fun hcomma => ?_, fun hclose => ?_⟩
    · exact ((hrow.append hn).punctuator hcomma).toRow
    · exact (hrow.append hn).punctuator hclose
  · exact fun ns comma q hrow hclose => hrow.punctuator hclose

theorem Made.asItem (h : Made text p n q) : Spans text p n q ∧ RestBefore close n q.token :=
  ⟨h.toSpans, fun hkind => absurd hkind h.plain⟩

namespace Listing

theorem nil (hp : p.token.StandsIn text) (hfollows : p.Follows text) :
    Listing text close p [] false p where
  row := .nil hp
  follows := hfollows
  items := fun _ h => absurd h List.not_mem_nil
  last := nofun
  stops := fun _ h => absurd h List.not_mem_nil
  stretch := fun _ h => absurd h List.not_mem_nil

theorem stops_add (h : Listing text close p ns comma q) (hfollows : p.Follows text)
    (hn : Spans text q n r) : ∀ m ∈ ns ++ [n], p.lastStop ≤ m.span.stop := by
  refine List.forall_mem_append.2 ⟨h.stops, List.forall_mem_singleton.2 ?_⟩
  rw [hn.stop]
  exact (h.row.join hn.row).lastStop_le hfollows

theorem stretch_add (h : Listing text close p ns comma q) (hn : Spans text q n r) :
    ∀ m ∈ ns ++ [n], Stretch text m.span :=
  List.forall_mem_append.2 ⟨h.stretch, List.forall_mem_singleton.2 hn.stretch⟩

/-- One more item, with a comma behind it. -/
theorem add (h : Listing text close p ns comma q) (hfollows : p.Follows text) (hn : Spans text q n r)
    (hrest : RestBefore close n r.token) (hcomma : r.token.isPunctuator .comma = true) :
    Listing text close p (ns ++ [n]) true r.behind := by
  refine ⟨((h.row.join hn.row).punctuator hcomma).toRow, follows_behind hn.next, ?_, ?_,
    h.stops_add hfollows hn, h.stretch_add hn⟩
  · exact List.forall_mem_append.2 ⟨h.items, List.forall_mem_singleton.2 ⟨r.token, hrest, hcomma⟩⟩
  · intro l hl
    cases (List.getLast?_concat ▸ hl : some n = some l)
    exact ⟨rfl, r.token, hrest, hn.behind, hcomma, rfl⟩

/-- The last item, with the closing punctuator behind it. -/
theorem addLast (h : Listing text close p ns comma q) (hfollows : p.Follows text)
    (hn : Spans text q n r) (hrest : RestBefore close n r.token)
    (hclose : r.token.isPunctuator close = true) :
    Listed text close p (ns ++ [n]) false r.behind := by
  refine ⟨(h.row.join hn.row).punctuator hclose, closesAt_behind hn.next hclose, ?_, ?_,
    h.stops_add hfollows hn, h.stretch_add hn⟩
  · rw [List.dropLast_concat]
    exact h.items
  · intro l hl
    cases (List.getLast?_concat ▸ hl : some n = some l)
    exact ⟨r.token, hrest, hn.behind, Nat.le_refl _, hclose⟩

/-- The closing punctuator behind a comma, or behind nothing. -/
theorem closed (h : Listing text close p ns comma q) (hclose : q.token.isPunctuator close = true) :
    Listed text close p ns comma q.behind := by
  refine ⟨h.row.punctuator hclose, closesAt_behind h.row.next hclose,
    fun n hn => h.items n (List.dropLast_subset _ hn), fun l hl => ?_, h.stops,
    h.stretch⟩
  obtain ⟨rfl, t, hrest, hbehind, hcomma, hstop⟩ := h.last l hl
  refine ⟨t, hrest, hbehind, ?_, hcomma⟩
  rw [hstop]
  exact Nat.le_trans h.follows.lastStop_le h.row.next.start_le_stop

end Listing

/-- A list of trees that have the spans of their tokens. -/
theorem listed_commaList (hp : p.token.StandsIn text) (hfollows : p.Follows text)
    (hitem : ∀ q, q.token.StandsIn text → q.Follows text →
      After item q fun n r => Spans text q n r ∧ RestBefore close n r.token) :
    After (commaList close item) p fun r q => Listed text close p r.1 r.2 q := by
  refine .commaList (fun ns comma q => Listing text close p ns comma q) (.nil hp hfollows) ?_ ?_
  · intro ns comma q hlist _
    refine (hitem q hlist.row.next hlist.follows).mono fun n r ⟨hn, hrest⟩ => ⟨fun hcomma => ?_, ?_⟩
    · exact hlist.add hfollows hn hrest hcomma
    · exact fun hclose => hlist.addLast hfollows hn hrest hclose
  · exact fun ns comma q hlist hclose => hlist.closed hclose

/-- A list leaves a token of the text behind its last item, and holds the comma that may stand there. -/
theorem Listed.closed (h : Listed text close p ns comma q) {start : Nat} (hstart : start ≤ p.lastStop) :
    ItemsClosed text close ns ⟨start, q.lastStop⟩ := by
  intro l hl
  obtain ⟨t, -, hbehind, hstop, hpunctuator⟩ := h.last l hl
  have ht := hbehind.token_eq
  subst ht
  refine ⟨⟨Nat.le_trans hstart (h.stops l (List.mem_of_getLast? hl)), hbehind.standsIn, ?_,
    fun _ => hstop⟩, fun _ => h.ends⟩
  rw [lexeme_of_isPunctuator hpunctuator]
  intro h
  cases h

/-- From the first item to the last one, a list covers a part of the text. -/
theorem Listed.through (h : Listed text close p ns comma q) (first last : Node)
    (hfirst : ns.head? = some first) (hlast : ns.getLast? = some last) :
    Stretch text (first.span.through last.span) := by
  obtain ⟨more, rfl⟩ := List.head?_eq_some_iff.1 hfirst
  have hmem := List.mem_of_getLast? hlast
  exact (h.stretch first List.mem_cons_self).through (h.stretch last hmem) (h.row.ordered.head_le hmem)

/-- An item that only the closing punctuator can follow is the last one. -/
theorem Listed.restLast (h : Listed text close p ns comma q) (hclose : close ≠ .comma) :
    RestLast .restElement ns := by
  intro n hn hkind
  obtain ⟨t, ht, hcomma⟩ := h.inner n hn
  have hlexeme := lexeme_of_isPunctuator (ht hkind)
  rw [lexeme_of_isPunctuator hcomma] at hlexeme
  exact hclose (Lexeme.punctuator.inj hlexeme).symm

/-- No comma follows such an item, nor the last item of a list that no comma ends. -/
theorem Listed.not_comma (h : Listed text close p ns comma q) (hclose : close ≠ .comma) {l : Node}
    (hl : ns.getLast? = some l) (hkind : comma = false ∨ l.kind = .restElement) :
    (tokenAfter text l.span.stop).isPunctuator .comma = false := by
  obtain ⟨t, ht, hbehind, -, hend⟩ := h.last l hl
  have hclosed : t.isPunctuator close := by
    rcases hkind with rfl | hkind
    · exact hend
    · exact ht hkind
  rw [← hbehind.token_eq, Token.isPunctuator, lexeme_of_isPunctuator hclosed]
  exact decide_eq_false hclose

end

end EditionCheck.Script
