import EditionCheck.Proofs.JsonReport

/-!
# The summary of failures

What the end of a run with failures prints in text format, and what can be read from it. A name is printed
as it is, so one with a line break in it takes more than one line, and can look like a line of the summary.

* `marked_refines`, `exists_ne_of_mark` — when texts behind marks can be told from how they are joined;
* `finish_of_failures` — a summary is one line for the count, and then each name between a fixed text and
  a line break;
* `summaryText_unique_iff` — the summaries that no other list of failures has;
* `failure_summary` — all of it together: how many lines that is, and what can be read from them;
* `failure_summary_break` — a name that takes two lines, and two lists with the same summary.
-/

set_option autoImplicit false

namespace EditionCheck

open EditionCheck.Files

/-! ## Texts behind marks -/

section

variable {α : Type} {c : α} {lead a b : List α} {ps qs : List (List α)}

/-- Where a mark, whose first character does not come again in it, begins inside of a text that ends or
comes to the next mark, it ends there too. -/
theorem mark_prefix_of_append (hc : c ∉ lead) (ha : a ≠ []) (hb : b = [] ∨ c :: lead <+: b)
    (hmark : c :: lead <+: a ++ b) : c :: lead <+: a := by
  rcases hb with rfl | ⟨rest, rfl⟩
  · rwa [List.append_nil] at hmark
  · obtain ⟨behind, hmark⟩ := hmark
    cases a with
    | nil => exact absurd rfl ha
    | cons d a =>
      simp only [List.cons_append, List.cons.injEq] at hmark
      obtain ⟨rfl, hmark⟩ := hmark
      rcases List.append_eq_append_iff.1 hmark with ⟨left, rfl, -⟩ | ⟨left, hlead, hleft⟩
      · exact ⟨left, rfl⟩
      · -- what is left of the mark would have its first character again
        cases left with
        | nil =>
          have hwhole : lead = a := hlead.trans (List.append_nil a)
          subst hwhole
          exact List.prefix_rfl
        | cons d left =>
          obtain ⟨rfl, -⟩ := List.cons.inj hleft
          refine absurd ?_ hc
          rw [hlead]
          exact List.mem_append_right _ List.mem_cons_self

theorem flatMap_mark_begins (mark : List α) (ps : List (List α)) :
    ps.flatMap (mark ++ ·) = [] ∨ mark <+: ps.flatMap (mark ++ ·) := by
  cases ps with
  | nil => exact .inl rfl
  | cons p ps => exact .inr ⟨p ++ ps.flatMap (mark ++ ·), by simp⟩

/-- What is in front of texts behind marks, where it ends in such texts too, begins with a mark. -/
theorem mark_prefix_of_flatMap (hc : c ∉ lead) (ha : a ≠ [])
    (hjoin : ps.flatMap (c :: lead ++ ·) = a ++ qs.flatMap (c :: lead ++ ·)) : c :: lead <+: a := by
  have hmark : c :: lead <+: ps.flatMap (c :: lead ++ ·) :=
    (flatMap_mark_begins _ ps).resolve_left fun hnil =>
      ha (List.append_eq_nil_iff.1 (hjoin.symm.trans hnil)).1
  rw [hjoin] at hmark
  exact mark_prefix_of_append hc ha (flatMap_mark_begins _ qs) hmark

/-- Texts without marks are the parts of what is joined: joined in the same way, other texts are fewer. -/
theorem marked_refines (hc : c ∉ lead) (hps : ∀ p ∈ ps, ¬ c :: lead <:+: p)
    (hjoin : ps.flatMap (c :: lead ++ ·) = qs.flatMap (c :: lead ++ ·)) :
    qs.length ≤ ps.length ∧ (qs.length = ps.length → qs = ps) := by
  induction ps generalizing qs with
  | nil =>
    cases qs with
    | nil => simp
    | cons q qs => cases hjoin
  | cons p ps ih =>
    obtain ⟨hp, hps⟩ := List.forall_mem_cons.1 hps
    cases qs with
    | nil => cases hjoin
    | cons q qs =>
      simp only [List.flatMap_cons, List.append_assoc] at hjoin
      have hparts := List.append_cancel_left hjoin
      by_cases hpq : p = q
      · subst hpq
        obtain ⟨hle, heq⟩ := ih hps (List.append_cancel_left hparts)
        simp only [List.length_cons, Nat.add_le_add_iff_right, Nat.add_right_cancel_iff]
        exact ⟨hle, fun hlength => by rw [heq hlength]⟩
      rcases List.append_eq_append_iff.1 hparts with ⟨left, rfl, hleft⟩ | ⟨left, rfl, hleft⟩
      · -- the other text has a mark of its own, so it takes more than one of the parts
        have hne : left ≠ [] := fun h => hpq (by rw [h, List.append_nil])
        obtain ⟨rest, rfl⟩ := mark_prefix_of_flatMap hc hne hleft
        have hrest : ps.flatMap (c :: lead ++ ·) = (rest :: qs).flatMap (c :: lead ++ ·) := by
          simpa using hleft
        obtain ⟨hle, -⟩ := ih hps hrest
        simp only [List.length_cons] at hle ⊢
        exact ⟨by omega, fun hlength => by omega⟩
      · have hne : left ≠ [] := fun h => hpq (by rw [h, List.append_nil])
        have hmark := mark_prefix_of_flatMap hc hne hleft
        exact absurd (hmark.isInfix.trans (List.suffix_append q left).isInfix) hp

/-- A mark in one of two or more texts can be taken for one between them, and one between them for one in
a text. -/
theorem exists_ne_of_mark {mark p : List α} (hmark : mark <:+: p) (hp : p ∈ ps) (hmore : 2 ≤ ps.length)
    (hnil : mark ≠ []) :
    ∃ qs, qs ≠ ps ∧ qs.length = ps.length ∧ qs.flatMap (mark ++ ·) = ps.flatMap (mark ++ ·) := by
  obtain ⟨a, b, rfl⟩ := hmark
  obtain ⟨front, back, rfl⟩ := List.append_of_mem hp
  cases back with
  | cons q back =>
    refine ⟨front ++ a :: (b ++ mark ++ q) :: back, ?_, ?_, ?_⟩
    · simp [hnil]
    · simp
    · simp
  | nil =>
    rcases List.eq_nil_or_concat front with rfl | ⟨front, q, rfl⟩
    · simp at hmore
    · refine ⟨front ++ [q ++ mark ++ a, b], ?_, ?_, ?_⟩
      · simp [hnil]
      · simp
      · simp

/-- Lines are read back, and behind the break of the last one there is nothing. -/
theorem splitOn_lines [DecidableEq α] {lines : List (List α)} (h : ∀ line ∈ lines, c ∉ line) :
    (lines.flatMap (· ++ [c])).splitOn c = lines ++ [[]] := by
  induction lines with
  | nil => exact List.splitOn_nil c
  | cons line lines ih =>
    obtain ⟨hline, hlines⟩ := List.forall_mem_cons.1 h
    rw [List.flatMap_cons, List.append_assoc, List.singleton_append,
      List.splitOn_append_cons_self_of_not_mem hline, ih hlines, List.cons_append]

/-- Lines have a break each, and those that are in them. -/
theorem count_lines [DecidableEq α] (c : α) (lines : List (List α)) :
    (lines.flatMap (· ++ [c])).count c = lines.length + lines.flatten.count c := by
  induction lines with
  | nil => rfl
  | cons line lines ih =>
    rw [List.flatMap_cons, List.count_append, List.count_append, List.count_singleton_self, ih,
      List.flatten_cons, List.count_append, List.length_cons]
    omega

theorem singleton_append_flatMap (c : α) (lines : List (List α)) :
    [c] ++ lines.flatMap (· ++ [c]) = lines.flatMap (c :: ·) ++ [c] := by
  induction lines with
  | nil => rfl
  | cons line lines ih => simpa using ih

end

/-! ## Summaries -/

namespace Style

variable (style : Style) (paths : List (List Char))

/-- The first line of a summary. -/
def countText (failures : Nat) : List Char :=
  (style.heading .red ++ " there were " ++ toString failures ++ " matching errors!").toList

/-- What stands in front of a name in a summary. -/
def lead : List Char := ("  " ++ style.heading .red ++ " error in: ").toList

/-- A summary of failures. -/
def summaryText : List Char :=
  (style.summaryLine paths.length).toList
    ++ paths.flatMap fun path => (style.summaryPathLine (.text path)).toList

/-- The names that the lines of a text give as failures. -/
def namesIn (text : List Char) : List (List Char) :=
  (text.splitOn '\n').filterMap fun line =>
    if style.lead <+: line then some (line.drop style.lead.length) else none

theorem toList_summaryLine (failures : Nat) :
    (style.summaryLine failures).toList = style.countText failures ++ ['\n'] := by
  simp [summaryLine, countText]

theorem toList_summaryPathLine (path : List Char) :
    (style.summaryPathLine (.text path)).toList = style.lead ++ path ++ ['\n'] := by
  simp [summaryPathLine, lead, Path.shown]

theorem heading_no_break (color : Color) : '\n' ∉ (style.heading color).toList := by
  unfold heading Color.paint
  cases color <;> split <;> decide

theorem lead_no_break : '\n' ∉ style.lead := by
  have hhead := style.heading_no_break .red
  simp [lead, hhead]

theorem countText_no_break (failures : Nat) : '\n' ∉ style.countText failures := by
  have hhead := style.heading_no_break .red
  have hdigits : '\n' ∉ Nat.toDigits 10 failures := fun h => absurd (isDigit_of_mem_digits h) (by decide)
  simp [countText, hhead, hdigits]

/-- The lines of a summary of names without line breaks. -/
def summaryLines : List (List Char) :=
  style.countText paths.length :: paths.map (style.lead ++ ·)

theorem summaryText_eq_lines :
    style.summaryText paths = (style.summaryLines paths).flatMap (· ++ ['\n']) := by
  rw [summaryText, toList_summaryLine, summaryLines, List.flatMap_cons, List.flatMap_map]
  simp only [toList_summaryPathLine]

/-- A summary is the text of the count, and then the names behind marks. -/
theorem summaryText_eq_marked :
    style.summaryText paths
      = style.countText paths.length ++ (paths.flatMap ('\n' :: style.lead ++ ·) ++ ['\n']) := by
  have hmove := singleton_append_flatMap '\n' (paths.map (style.lead ++ ·))
  rw [List.flatMap_map, List.flatMap_map] at hmove
  rw [summaryText_eq_lines, summaryLines, List.flatMap_cons, List.flatMap_map, List.append_assoc, hmove]
  rfl

/-- A summary gives the count of failures away. -/
theorem eq_of_countText_append {m n : Nat} {a b : List Char}
    (h : style.countText m ++ a = style.countText n ++ b) : m = n := by
  have hread (k : Nat) (t : List Char) :
      (Nat.toDigits 10 k ++ ' ' :: t).takeWhile Char.isDigit = Nat.toDigits 10 k := by
    rw [List.takeWhile_append_of_pos fun c hc => isDigit_of_mem_digits hc]
    simp
  have hcount (k : Nat) (t : List Char) : style.countText k ++ t
      = (style.heading .red ++ " there were ").toList
        ++ (Nat.toDigits 10 k ++ ' ' :: ("matching errors!".toList ++ t)) := by
    simp [countText]
  rw [hcount, hcount] at h
  have hdigits := congrArg (List.takeWhile Char.isDigit) (List.append_cancel_left h)
  rw [hread, hread] at hdigits
  rw [← Nat.ofDigitChars_ten_toDigits (n := m), hdigits, Nat.ofDigitChars_ten_toDigits]

variable {style paths}

theorem splitOn_summaryText (h : ∀ path ∈ paths, '\n' ∉ path) :
    (style.summaryText paths).splitOn '\n' = style.summaryLines paths ++ [[]] := by
  rw [summaryText_eq_lines]
  refine splitOn_lines fun line hline => ?_
  rcases List.mem_cons.1 hline with rfl | hline
  · exact style.countText_no_break _
  · obtain ⟨path, hpath, rfl⟩ := List.mem_map.1 hline
    exact fun hmem => (List.mem_append.1 hmem).elim style.lead_no_break (h path hpath)

theorem namesIn_summaryText (h : ∀ path ∈ paths, '\n' ∉ path) :
    style.namesIn (style.summaryText paths) = paths := by
  have hcount (n : Nat) : ¬ style.lead <+: style.countText n := by
    -- the line of the count is not indented
    rintro ⟨rest, hrest⟩
    have hhead : (style.countText n).head? ≠ some ' ' := by
      unfold countText heading Color.paint
      split <;> simp
    rw [← hrest] at hhead
    simp [lead] at hhead
  have hempty : ¬ style.lead <+: [] := by simp [lead]
  have hname (path : List Char) :
      (if style.lead <+: style.lead ++ path then some ((style.lead ++ path).drop style.lead.length)
        else none) = some path := by
    rw [if_pos (List.prefix_append _ _), List.drop_left]
  have hnames : ((paths.map (style.lead ++ ·)).filterMap fun line =>
      if style.lead <+: line then some (line.drop style.lead.length) else none) = paths := by
    rw [List.filterMap_map]
    exact (congrArg (fun f => paths.filterMap f) (funext hname)).trans List.filterMap_some
  rw [namesIn, splitOn_summaryText h, summaryLines, List.filterMap_append, List.filterMap_cons,
    if_neg (hcount _), hnames]
  simp [hempty]

/-- A summary has a line break for each of its lines, and those of the names. -/
theorem count_summaryText :
    (style.summaryText paths).count '\n' = paths.length + 1 + paths.flatten.count '\n' := by
  have hcount : (style.countText paths.length).count '\n' = 0 :=
    List.count_eq_zero.2 (style.countText_no_break _)
  have hlead : style.lead.count '\n' = 0 := List.count_eq_zero.2 style.lead_no_break
  have hnames : (paths.map (style.lead ++ ·)).flatten.count '\n' = paths.flatten.count '\n' := by
    generalize paths = names
    induction names with
    | nil => rfl
    | cons name names ih =>
      rw [List.map_cons, List.flatten_cons, List.flatten_cons, List.count_append, List.count_append,
        List.count_append, ih, hlead, Nat.zero_add]
  rw [summaryText_eq_lines, count_lines, summaryLines, List.flatten_cons, List.count_append, hcount,
    hnames, List.length_cons, List.length_map, Nat.zero_add]

/-- Lists of failures have the same summary if they are of one length and join to the same text. -/
theorem summaryText_eq_iff {others : List (List Char)} :
    style.summaryText others = style.summaryText paths
      ↔ others.length = paths.length
        ∧ others.flatMap ('\n' :: style.lead ++ ·) = paths.flatMap ('\n' :: style.lead ++ ·) := by
  rw [summaryText_eq_marked, summaryText_eq_marked]
  constructor
  · intro h
    have hlength := style.eq_of_countText_append h
    rw [hlength] at h
    exact ⟨hlength, List.append_cancel_right (List.append_cancel_left h)⟩
  · rintro ⟨hlength, hjoin⟩
    rw [hlength, hjoin]

/-- Which summaries no other list of failures has. -/
theorem summaryText_unique_iff (hpaths : paths ≠ []) :
    (∀ others, style.summaryText others = style.summaryText paths → others = paths)
      ↔ paths.length = 1 ∨ ∀ path ∈ paths, ¬ '\n' :: style.lead <:+: path := by
  constructor
  · intro hunique
    by_cases hlength : paths.length = 1
    · exact .inl hlength
    refine .inr fun path hpath hmark => ?_
    have hpos := List.length_pos_iff.2 hpaths
    obtain ⟨others, hne, hothers⟩ := exists_ne_of_mark hmark hpath (by omega) (List.cons_ne_nil _ _)
    exact hne (hunique others (summaryText_eq_iff.2 hothers))
  · intro hsafe others h
    obtain ⟨hlength, hjoin⟩ := summaryText_eq_iff.1 h
    rcases hsafe with hone | hfree
    · obtain ⟨path, rfl⟩ := List.length_eq_one_iff.1 hone
      obtain ⟨other, rfl⟩ := List.length_eq_one_iff.1 (hlength.trans hone)
      simpa using hjoin
    · exact (marked_refines style.lead_no_break hfree hjoin.symm).2 hlength

end Style

/-! ## The end of a run -/

/-- What goes to an error output that works is put behind what it holds. -/
theorem writePieces_err {s : Streams} (hs : s.refusal .err = none) (lines : List String) :
    (Style.writePieces Streams.write (lines.map (Channel.err, ·))).run.run s
      = (.ok (), { s with err := s.err ++ String.join lines }) := by
  induction lines generalizing s with
  | nil =>
    rw [String.join_nil, String.append_empty]
    rfl
  | cons line lines ih =>
    have hline := Streams.write_of_refusal_none line hs
    rw [List.map_cons, Style.writePieces, ExceptT.run_bind, StateT.run_bind, hline, String.join_cons,
      ← String.append_assoc]
    exact ih (s := s.append .err line) hs

/-- With an error output that works, the end of a run with failures puts their summary there. -/
theorem finish_of_failures {style : Style} (htext : style.options.format = .text)
    {paths : List (List Char)} (hpaths : paths ≠ []) (grammar : Grammar) (checked : Nat) {s : Streams}
    (hs : s.refusal .err = none) :
    runFrom (style.reporter Streams.write (.finished ⟨grammar, checked, paths.map .text⟩)) s
      = (.ok (), { s with err := s.err ++ String.ofList (style.summaryText paths) }) := by
  let lines := style.summaryLine paths.length :: paths.map fun path => style.summaryPathLine (.text path)
  have hprinted : style.printed (.finished ⟨grammar, checked, paths.map .text⟩)
      = ⟨lines.map (Channel.err, ·), none⟩ := by
    have hfailed : (Report.mk grammar checked (paths.map .text)).isSuccess = false := by
      simp [Report.isSuccess, hpaths]
    simp [Style.printed, htext, Style.textSummary, hfailed, lines, Function.comp_def]
  have hjoin : String.join lines = String.ofList (style.summaryText paths) := by
    rw [← String.toList_inj, String.toList_ofList, String.toList_join, Style.summaryText]
    simp [lines, List.flatMap_map]
  have hwrite := writePieces_err hs lines
  rw [hjoin] at hwrite
  simp only [runFrom, Style.reporter, hprinted, bind_pure_unit]
  exact congrArg (fun r => (Except.mapError Obstacle.output r.1, r.2)) hwrite

/-- **What a summary of failures says.** With an error output that works, the end of a run with failures
whose names are texts puts a summary there and nothing else anywhere. It has one line for the count and
one for each failure, and as many more as there are line breaks in the names. Without these, its lines
are that of the count and then that of each failure in order, so that the names can be read back. A list
of failures with the same summary has the same length. There is no other such list just when there is only
one failure, or no name has a line break in it in front of the text that a name has in front of it. -/
theorem failure_summary (style : Style) (htext : style.options.format = .text)
    (paths : List (List Char)) (hpaths : paths ≠ []) (grammar : Grammar) (checked : Nat) (s : Streams)
    (hs : s.refusal .err = none) :
    runFrom (style.reporter Streams.write (.finished ⟨grammar, checked, paths.map .text⟩)) s
        = (.ok (), { s with err := s.err ++ String.ofList (style.summaryText paths) })
      ∧ (style.summaryText paths).count '\n' = paths.length + 1 + paths.flatten.count '\n'
      ∧ ((style.summaryText paths).count '\n' = paths.length + 1 ↔ ∀ path ∈ paths, '\n' ∉ path)
      ∧ ((∀ path ∈ paths, '\n' ∉ path) →
          (style.summaryText paths).splitOn '\n'
              = style.countText paths.length :: paths.map (style.lead ++ ·) ++ [[]]
            ∧ style.namesIn (style.summaryText paths) = paths)
      ∧ (∀ others, style.summaryText others = style.summaryText paths → others.length = paths.length)
      ∧ ((∀ others, style.summaryText others = style.summaryText paths → others = paths)
          ↔ paths.length = 1 ∨ ∀ path ∈ paths, ¬ '\n' :: style.lead <:+: path) := by
  refine ⟨finish_of_failures htext hpaths grammar checked hs, Style.count_summaryText, ?_,
    fun h => ⟨Style.splitOn_summaryText h, Style.namesIn_summaryText h⟩,
    fun others h => (Style.summaryText_eq_iff.1 h).1, Style.summaryText_unique_iff hpaths⟩
  have hnone : paths.flatten.count '\n' = 0 ↔ ∀ path ∈ paths, '\n' ∉ path := by
    simp [List.count_eq_zero, List.mem_flatten]
  rw [Style.count_summaryText, ← hnone]
  omega

/-- Two failures with ordinary names take three lines, from which the names are read back. -/
theorem failure_summary_two :
    let style : Style := ⟨⟨false, .text, false⟩, true⟩
    let paths := ["src/b.js".toList, "lib/a.js".toList]
    (runFrom (style.reporter Streams.write (.finished ⟨.v5, 3, paths.map .text⟩)) {}).2.err
        = String.ofList (style.summaryText paths)
      ∧ (style.summaryText paths).count '\n' = 3
      ∧ style.namesIn (style.summaryText paths) = paths
      ∧ ∀ others, style.summaryText others = style.summaryText paths → others = paths := by
  intro style paths
  obtain ⟨hrun, -, hlines, hread, -, hunique⟩ :=
    failure_summary style rfl paths (List.cons_ne_nil _ _) .v5 3 {} rfl
  have hplain : ∀ path ∈ paths, '\n' ∉ path := by decide
  have hmark : ∀ path ∈ paths, ¬ '\n' :: style.lead <:+: path := by
    intro path hpath hmark
    exact hplain path hpath (hmark.subset List.mem_cons_self)
  refine ⟨?_, hlines.2 hplain, (hread hplain).2, hunique.2 (.inr hmark)⟩
  rw [hrun, String.empty_append]

/-- A file whose name has a line break takes two lines of the summary, and what follows the break can look
like the line of another file: these two lists of failures print the same. -/
theorem failure_summary_break :
    let style : Style := ⟨⟨false, .text, false⟩, false⟩
    let finish (paths : List String) :=
      (runFrom (style.reporter Streams.write
        (.finished ⟨.v5, 2, paths.map fun path => .text path.toList⟩)) {}).2
    (finish ["a\nb"]).err = "ecma-v: there were 1 matching errors!\n  ecma-v: error in: a\nb\n"
      ∧ (finish ["a\nb"]).err.toList.count '\n' = 3
      ∧ ["a\n  ecma-v: error in: b", "c"] ≠ ["a", "b\n  ecma-v: error in: c"]
      ∧ (finish ["a\n  ecma-v: error in: b", "c"]).err = (finish ["a", "b\n  ecma-v: error in: c"]).err
      ∧ (finish ["a", "b\n  ecma-v: error in: c"]).err
          = "ecma-v: there were 2 matching errors!\n  ecma-v: error in: a\n"
            ++ "  ecma-v: error in: b\n  ecma-v: error in: c\n" := by
  decide +kernel

end EditionCheck
